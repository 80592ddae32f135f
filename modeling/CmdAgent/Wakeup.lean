import CmdAgent.Cmdset
import CmdAgent.StreamLib.Runs
/-!
# Wake-ups of a command sender

`task_wakeup` leaves `wakeup_early` set for a task that does not wait yet, and
`task_wait` looks at it. `TASK_WAIT_COND` does not: a sender that starts to wait after
its callback has run is not woken by it. Here is when that happens.
-/
open StreamLib.Runs

namespace CmdAgent

/-- Whether the callback of a command wakes its task. -/
def wakes (cmd : UInt8) : Option (List UInt8) → Bool
  | some packet => (cmdOf packet).toNat = l0006NetcmdGetackcmd cmd
  | none => true

theorem call_wakeup (actioncb : Actioncb) (alloc : Bool) (cmd : UInt8) (packet : Option (List UInt8)) :
    (actioncb.call alloc cmd packet).wakeup = wakes cmd packet := by
  have hframe : ∀ onAck, (netcmdAction onAck cmd packet).wakeup = wakes cmd packet := by
    intro onAck
    cases packet with
    | none => rfl
    | some pkt =>
      unfold netcmdAction wakes
      dsimp only
      by_cases hack : (cmdOf pkt).toNat = l0006NetcmdGetackcmd cmd
      · rw [if_pos hack, decide_eq_true hack]
      · rw [if_neg hack, decide_eq_false hack]
  cases actioncb with
  | general => exact hframe _
  | general2 => exact hframe _
  | exGeneral sz => exact hframe _

/-! ## Lost wake-ups -/

/-- The callback of the command of the call `id` has executed its `wakeup`. -/
def Host.Woken (host : Host) (id : Nat) (call : Call) : Prop :=
  ∃ run ∈ host.runs, run.outret = id ∧ wakes call.fn.cmdset.cmd run.packet = true

/-- No call is blocked in `TASK_WAIT_COND` after the `wakeup` of its callback. -/
def Host.NoLostWakeup (host : Host) : Prop :=
  ∀ (id : Nat) (call : Call), host.calls[id]? = some call → call.pc = .waiting false → ¬ host.Woken id call

/-- A call that tests the condition of `TASK_WAIT_COND`, and finds that it has to wait,
comes before the `wakeup` of its callback. -/
def Host.WaitsInTime (host : Host) : HostEv → Prop
  | .run id now _ =>
    ∀ call ∈ host.calls[id]?, call.pc = .wait → host.waitCond call now = true → ¬ host.Woken id call
  | _ => True

instance (host : Host) (id : Nat) (call : Call) : Decidable (host.Woken id call) :=
  inferInstanceAs (Decidable (∃ run ∈ host.runs, run.outret = id ∧ wakes call.fn.cmdset.cmd run.packet = true))

instance (host : Host) : (ev : HostEv) → Decidable (host.WaitsInTime ev)
  | .run id now _ =>
    inferInstanceAs (Decidable (∀ call ∈ host.calls[id]?, call.pc = .wait → host.waitCond call now = true →
      ¬ host.Woken id call))
  | .call .. | .ack .. | .expire _ | .wakeup _ | .chgstat .. | .link .. => .isTrue trivial

/-! ## What a step does to the calls -/

/-- A command in the used list has the task and the `cmd` of its call. -/
def Owned (calls : List Call) (ncwrbuf : NetcomWrbuf CmdAction) : Prop :=
  ∃ call, calls[ncwrbuf.action.cb.outret]? = some call ∧ ncwrbuf.action.cb.wait = call.waitTask ∧
    ncwrbuf.action.cb.cmd = call.fn.cmdset.cmd

/-- No call starts to wait, and each keeps its function and task. -/
structure Moved (calls calls' : List Call) : Prop where
  stays : ∀ (id : Nat) (call' : Call), calls'[id]? = some call' → call'.pc = .waiting false →
    ∃ call, calls[id]? = some call ∧ call.fn = call'.fn ∧ call.pc = .waiting false
  keeps : ∀ (id : Nat) (call : Call), calls[id]? = some call →
    ∃ call', calls'[id]? = some call' ∧ call'.fn = call.fn ∧ call'.waitTask = call.waitTask

namespace Moved
variable {calls calls' : List Call} {id : Nat} {call call' : Call}

theorem refl (calls : List Call) : Moved calls calls :=
  ⟨fun _ call' hc hpc => ⟨call', hc, rfl, hpc⟩, fun _ call hc => ⟨call, hc, rfl, rfl⟩⟩

theorem trans {calls'' : List Call} (h : Moved calls calls') (h' : Moved calls' calls'') : Moved calls calls'' where
  stays := by
    intro id call'' hc hpc
    obtain ⟨call', hc', hfn', hpc'⟩ := h'.stays id call'' hc hpc
    obtain ⟨call, hc, hfn, hpc⟩ := h.stays id call' hc' hpc'
    exact ⟨call, hc, hfn.trans hfn', hpc⟩
  keeps := by
    intro id call hc
    obtain ⟨call', hc', hfn, hwait⟩ := h.keeps id call hc
    obtain ⟨call'', hc'', hfn', hwait'⟩ := h'.keeps id call' hc'
    exact ⟨call'', hc'', hfn'.trans hfn, hwait'.trans hwait⟩

theorem set (hc : calls[id]? = some call) (hfn : call'.fn = call.fn) (hwait : call'.waitTask = call.waitTask)
    (hpc : call'.pc ≠ .waiting false) : Moved calls (calls.set id call') := by
  have hlt : id < calls.length := (List.getElem?_eq_some_iff.1 hc).1
  constructor
  · intro i c hi hw
    by_cases he : id = i
    · subst he
      rw [List.getElem?_set_self hlt] at hi
      cases hi
      exact absurd hw hpc
    · rw [List.getElem?_set_ne he] at hi
      exact ⟨c, hi, rfl, hw⟩
  · intro i c hi
    by_cases he : id = i
    · subst he
      cases hc.symm.trans hi
      exact ⟨call', List.getElem?_set_self hlt, hfn, hwait⟩
    · exact ⟨c, (List.getElem?_set_ne he).trans hi, rfl, rfl⟩

theorem append (calls : List Call) {new : List Call} (hnew : ∀ c ∈ new, c.pc = .format) : Moved calls (calls ++ new) := by
  constructor
  · intro i c hi hw
    rw [List.getElem?_append] at hi
    split at hi
    · exact ⟨c, hi, rfl, hw⟩
    · rw [hnew c (List.mem_of_getElem? hi)] at hw
      cases hw
  · intro i c hi
    exact ⟨c, (List.getElem?_append_left (List.getElem?_eq_some_iff.1 hi).1).trans hi, rfl, rfl⟩

theorem modify (calls : List Call) (id : Nat) {f : Call → Call}
    (hf : ∀ c, (f c).fn = c.fn ∧ (f c).waitTask = c.waitTask ∧ (f c).pc = c.pc) : Moved calls (calls.modify id f) := by
  constructor
  · intro i c hi hw
    rw [List.getElem?_modify] at hi
    obtain ⟨c, hc, rfl⟩ := Option.map_eq_some_iff.1 hi
    obtain ⟨hfn, -, hpc⟩ := hf c
    split at hw
    · exact ⟨c, hc, by rw [if_pos ‹_›, hfn], hpc ▸ hw⟩
    · exact ⟨c, hc, by rw [if_neg ‹_›], hw⟩
  · intro i c hi
    obtain ⟨hfn, hwait, -⟩ := hf c
    refine ⟨if id = i then f c else c, by rw [List.getElem?_modify, hi]; rfl, ?_⟩
    split
    · exact ⟨hfn, hwait⟩
    · exact ⟨rfl, rfl⟩

theorem signal (calls : List Call) (task : Nat) : Moved calls (calls.map (Call.signal task)) := by
  constructor
  · intro i c hi hw
    rw [List.getElem?_map] at hi
    obtain ⟨c, hc, rfl⟩ := Option.map_eq_some_iff.1 hi
    -- The broadcast leaves no call of this task unsignalled.
    have hsame : c.signal task = c := by
      unfold Call.signal at hw ⊢
      split
      · split
        · simp_all
        · rfl
      · rfl
    rw [hsame] at hw ⊢
    exact ⟨c, hc, rfl, hw⟩
  · intro i c hi
    refine ⟨c.signal task, by rw [List.getElem?_map, hi]; rfl, ?_⟩
    unfold Call.signal
    split
    · split <;> exact ⟨rfl, rfl⟩
    · exact ⟨rfl, rfl⟩

end Moved

/-- What a step does to the waiting calls, the used list and the callbacks. -/
inductive Stepped (host : Host) (ev : HostEv) : Host → Prop
  /-- No callback is called, and no call starts to wait. -/
  | quiet {host' : Host} : host.WaitsInTime ev → host'.runs = host.runs → Moved host.calls host'.calls →
      (∀ ncwrbuf ∈ host'.nc.used, ncwrbuf ∈ host.nc.used ∨ Owned host'.calls ncwrbuf) → Stepped host ev host'
  /-- A call tests the condition. -/
  | tests (id : Nat) (call : Call) (now : Timespec) (ok : Bool) : ev = .run id now ok →
      host.calls[id]? = some call → call.pc = .wait →
      Stepped host ev { host with
        calls := host.calls.set id { call with pc := if host.waitCond call now then .waiting false else .check } }
  /-- The callback of a command is called. -/
  | acts (nc : Netcom CmdAction) (ncwrbuf : NetcomWrbuf CmdAction) (packet : Option (List UInt8)) (alloc : Bool) :
      host.WaitsInTime ev → ncwrbuf ∈ host.nc.used → (∀ e ∈ nc.used, e ∈ host.nc.used) →
      Stepped host ev ({ host with nc := nc }.act ncwrbuf.action.cb packet alloc)

theorem follow_frame (call : Call) (child : Nat) (after : After) :
    (call.follow child after).fn = call.fn ∧ (call.follow child after).waitTask = call.waitTask ∧
      (call.follow child after).pc ≠ .waiting false := by
  unfold Call.follow
  split
  · exact ⟨rfl, rfl, by simp⟩
  · refine ⟨rfl, rfl, ?_⟩
    dsimp only
    split <;> simp

theorem waitsInTime_of_not_run {host : Host} {ev : HostEv} (hev : ∀ id now ok, ev ≠ .run id now ok) :
    host.WaitsInTime ev := by
  cases ev with
  | run id now ok => exact absurd rfl (hev id now ok)
  | call | ack | expire | wakeup | chgstat | link => exact trivial

theorem stepped_turn {host host' : Host} {id : Nat} {call : Call} {now : Timespec} (ok : Bool)
    (hc : host.calls[id]? = some call) (hturn : Turn host id call now host') : Stepped host (.run id now ok) host' := by
  have hcalm : call.pc ≠ .wait → host.WaitsInTime (.run id now ok) := by
    intro hne c hmem hpc
    cases hc.symm.trans hmem
    exact absurd hpc hne
  cases hturn with
  | formats hpc => exact .quiet (hcalm (by simp [hpc])) rfl (.set hc rfl rfl (by simp)) fun e hmem => .inl hmem
  | gives nc hpc hused =>
    have hne : call.pc ≠ .wait := by rcases hpc with hpc | hpc <;> simp [hpc]
    obtain ⟨hfn, hwait, hpcf⟩ := follow_frame call 0 call.fn.cmdset.unsent
    exact .quiet (hcalm hne) rfl (.set hc hfn hwait hpcf) fun e hmem => .inl (hused ▸ hmem)
  | clears hpc => exact .quiet (hcalm (by simp [hpc])) rfl (.set hc rfl rfl (by simp)) fun e hmem => .inl hmem
  | sends nc slot hpc hused =>
    refine .quiet (hcalm (by simp [hpc])) rfl (.set hc rfl rfl (by simp)) fun e hmem => ?_
    dsimp only at hmem
    rw [hused] at hmem
    rcases List.mem_append.1 hmem with hold | hnew
    · exact .inl hold
    · cases List.mem_singleton.1 hnew
      exact .inr ⟨_, List.getElem?_set_self (List.getElem?_eq_some_iff.1 hc).1, rfl, rfl⟩
  | tests hpc => exact .tests id call now ok rfl hc hpc
  | wakes hpc => exact .quiet (hcalm (by simp [hpc])) rfl (.set hc rfl rfl (by simp)) fun e hmem => .inl hmem
  | restarts signalled hpc =>
    exact .quiet (hcalm (by simp [hpc])) rfl (.set hc rfl rfl (by simp)) fun e hmem => .inl hmem
  | looks after hpc =>
    obtain ⟨hfn, hwait, hpcf⟩ := follow_frame call host.calls.length after
    refine .quiet (hcalm (by simp [hpc])) rfl ((Moved.set hc hfn hwait hpcf).trans (.append _ ?_)) fun e hmem => .inl hmem
    intro c hmem
    obtain ⟨fn, waitTask, rfl⟩ := beepCalls_new _ _ c hmem
    rfl
  | rests child hpc => exact .quiet (hcalm (by simp [hpc])) rfl (.set hc rfl rfl (by simp)) fun e hmem => .inl hmem
  | returns hpc => exact .quiet (hcalm (by simp [hpc])) rfl (.set hc rfl rfl (by simp)) fun e hmem => .inl hmem

theorem stepped_of {host host' : Host} {ev : HostEv} (hstep : host.step ev = some host') : Stepped host ev host' := by
  cases step_cases hstep with
  | called fn waitTask =>
    refine .quiet trivial rfl (.append _ fun c hmem => ?_) fun e hmem => .inl hmem
    cases List.mem_singleton.1 hmem
    rfl
  | turned id call now ok hc hturn => exact stepped_turn ok hc hturn
  | acts nc l₁ l₂ ncwrbuf packet hcomp hused hused' =>
    have hev : ∀ id now ok, ev ≠ .run id now ok := by
      rintro id now ok rfl
      cases hcomp
    refine .acts nc ncwrbuf packet ev.alloc (waitsInTime_of_not_run hev) ?_ fun e hmem => ?_
    · rw [hused]
      exact List.mem_append_right _ List.mem_cons_self
    · rw [hused'] at hmem
      rw [hused]
      exact (List.sublist_cons_self ncwrbuf l₂).append_left l₁ |>.subset hmem
  | signals task => exact .quiet trivial rfl (.signal _ task) fun e hmem => .inl hmem
  | keeps nc task hev hused =>
    exact .quiet (waitsInTime_of_not_run hev) rfl (.refl _) fun e hmem => .inl (hused ▸ hmem)

/-! ## The callbacks -/

section
variable {host : Host} {action : CmdAction} {packet : Option (List UInt8)} {alloc : Bool}

@[simp] theorem act_nc (host : Host) (action : CmdAction) (packet : Option (List UInt8)) (alloc : Bool) :
    (host.act action packet alloc).nc = host.nc := by
  unfold Host.act
  dsimp only
  split <;> rfl

@[simp] theorem act_runs (host : Host) (action : CmdAction) (packet : Option (List UInt8)) (alloc : Bool) :
    (host.act action packet alloc).runs = host.runs ++ [⟨action.outret, packet⟩] := by
  unfold Host.act
  dsimp only
  split <;> rfl

theorem act_moved (host : Host) (action : CmdAction) (packet : Option (List UInt8)) (alloc : Bool) :
    Moved host.calls (host.act action packet alloc).calls := by
  unfold Host.act
  dsimp only
  split
  · refine Moved.trans ?_ (.signal _ action.wait)
    exact .modify _ _ fun _ => ⟨rfl, rfl, rfl⟩
  · exact .modify _ _ fun _ => ⟨rfl, rfl, rfl⟩

/-- A `wakeup` reaches the call that is blocked. -/
theorem act_signals {call call' : Call} (hwakes : wakes action.cmd packet = true)
    (hc : host.calls[action.outret]? = some call) (hwait : action.wait = call.waitTask) (hpc : call.pc = .waiting false)
    (hc' : (host.act action packet alloc).calls[action.outret]? = some call') : call'.pc = .waiting true := by
  unfold Host.act at hc'
  simp only [call_wakeup, hwakes, if_true, Host.wakeup, List.getElem?_map, List.getElem?_modify, hc] at hc'
  cases hc'
  simp [Call.signal, hpc, hwait]

end

/-! ## Runs -/

def Host.Owns (host : Host) : Prop := ∀ ncwrbuf ∈ host.nc.used, Owned host.calls ncwrbuf

theorem Owned.moved {calls calls' : List Call} {ncwrbuf : NetcomWrbuf CmdAction} (h : Owned calls ncwrbuf)
    (hm : Moved calls calls') : Owned calls' ncwrbuf := by
  obtain ⟨call, hc, hwait, hcmd⟩ := h
  obtain ⟨call', hc', hfn', hwait'⟩ := hm.keeps _ call hc
  exact ⟨call', hc', hwait.trans hwait'.symm, by rw [hcmd, hfn']⟩

theorem tests_keeps {host : Host} {id : Nat} {call : Call} (hc : host.calls[id]? = some call) (pc : Pc)
    {ncwrbuf : NetcomWrbuf CmdAction} (h : Owned host.calls ncwrbuf) :
    Owned (host.calls.set id { call with pc := pc }) ncwrbuf := by
  obtain ⟨call₀, hc₀, hwait, hcmd⟩ := h
  by_cases he : id = ncwrbuf.action.cb.outret
  · subst he
    cases hc.symm.trans hc₀
    exact ⟨_, List.getElem?_set_self (List.getElem?_eq_some_iff.1 hc).1, hwait, hcmd⟩
  · exact ⟨call₀, (List.getElem?_set_ne he).trans hc₀, hwait, hcmd⟩

theorem Host.Owns.step {host host' : Host} {ev : HostEv} (h : host.Owns) (hstep : host.step ev = some host') :
    host'.Owns := by
  intro e hmem
  cases stepped_of hstep with
  | quiet _ _ hmoved hused =>
    rcases hused e hmem with hold | hnew
    · exact (h e hold).moved hmoved
    · exact hnew
  | tests id call now ok _ hc _ => exact tests_keeps hc _ (h e hmem)
  | acts nc ncwrbuf packet alloc _ _ hsub =>
    rw [act_nc] at hmem
    exact Owned.moved (h e (hsub e hmem)) (act_moved { host with nc := nc } ncwrbuf.action.cb packet alloc)

/-- A step loses a wake-up exactly if a call waits too late. -/
theorem noLostWakeup_iff {host host' : Host} {ev : HostEv} (howns : host.Owns) (h : host.NoLostWakeup)
    (hstep : host.step ev = some host') : host'.NoLostWakeup ↔ host.WaitsInTime ev := by
  cases stepped_of hstep with
  | quiet hok hruns hmoved _ =>
    refine iff_of_true ?_ hok
    rintro id call' hc' hpc' ⟨run, hmem, hout, hwakes⟩
    obtain ⟨call, hc, hfn, hpc⟩ := hmoved.stays id call' hc' hpc'
    exact h id call hc hpc ⟨run, hruns ▸ hmem, hout, hfn ▸ hwakes⟩
  | tests id call now ok hev hc hpc =>
    subst hev
    have hlt : id < host.calls.length := (List.getElem?_eq_some_iff.1 hc).1
    constructor
    · intro hno c hmem _ hcond hwoken
      cases hc.symm.trans hmem
      refine hno id _ (List.getElem?_set_self hlt) ?_ hwoken
      dsimp only
      rw [if_pos hcond]
    · intro hok i c hi hw hwoken
      dsimp only at hi
      by_cases he : id = i
      · subst he
        rw [List.getElem?_set_self hlt] at hi
        cases hi
        have hcond : host.waitCond call now = true := by
          by_contra hne
          simp [hne] at hw
        exact hok call hc hpc hcond hwoken
      · rw [List.getElem?_set_ne he] at hi
        exact h i c hi hw hwoken
  | acts nc ncwrbuf packet alloc hok hmem hsub =>
    refine iff_of_true ?_ hok
    rintro id call' hc' hpc' ⟨run, hrun, hout, hwakes⟩
    obtain ⟨call, hc, hfn, hpc⟩ :=
      (act_moved { host with nc := nc } ncwrbuf.action.cb packet alloc).stays id call' hc' hpc'
    rw [act_runs] at hrun
    rcases List.mem_append.1 hrun with hold | hnew
    · exact h id call hc hpc ⟨run, hold, hout, hfn ▸ hwakes⟩
    · -- The call of this command is blocked, so the broadcast reaches it.
      cases List.mem_singleton.1 hnew
      subst hout
      obtain ⟨call₀, hc₀, hwait, hcmd⟩ := howns ncwrbuf hmem
      cases hc.symm.trans hc₀
      have hsignalled := act_signals (by rw [hcmd, hfn]; exact hwakes) hc hwait hpc hc'
      rw [hpc'] at hsignalled
      cases hsignalled

/-- A run has no state in which a call is blocked in `TASK_WAIT_COND` after its callback
has executed its `wakeup`, if and only if each call that finds it has to wait does so
before that `wakeup`. -/
theorem no_lost_wakeup_iff (evs : List HostEv) (host : Host) (hrun : exec Host.step Host.init evs = some host) :
    Throughout Host.step Host.NoLostWakeup Host.init evs ↔ Along Host.step Host.WaitsInTime Host.init evs := by
  refine throughout_iff_along (J := Host.Owns) (fun _ _ _ hs hst => hs.step hst)
    (fun _ _ _ hJ hI hst => noLostWakeup_iff hJ hI hst) ?_ ?_ hrun
  · intro e hmem
    cases hmem
  · intro id call hc
    cases hc

/-- The acknowledgement comes while `l0006_cmdset_setwindowsize` is blocked. -/
def wokenRun : List HostEv :=
  .link true (some 0) :: .call (.setwindowsize 1) 0 :: List.replicate 4 (.run 0 ⟨0, 0⟩ true) ++
    [.ack (l0006NetcmdFormat l0006NetcmdWinsizeack 0 0 0) true, .run 0 ⟨1, 0⟩ true]

theorem no_lost_wakeup_blocked : (exec Host.step Host.init wokenRun).isSome = true ∧
    Throughout Host.step Host.NoLostWakeup Host.init wokenRun := by
  have hsome : (exec Host.step Host.init wokenRun).isSome = true := by decide +kernel
  obtain ⟨host, hrun⟩ := Option.isSome_iff_exists.1 hsome
  exact ⟨hsome, (no_lost_wakeup_iff wokenRun host hrun).2 (by decide +kernel)⟩

/-- The acknowledgement comes when the command is written and the call does not wait yet. -/
def wokenEarlyRun : List HostEv :=
  .link true (some 0) :: .call (.setwindowsize 1) 0 :: List.replicate 3 (.run 0 ⟨0, 0⟩ true) ++
    [.ack (l0006NetcmdFormat l0006NetcmdWinsizeack 0 0 0) true, .run 0 ⟨0, 0⟩ true]

theorem wakeup_lost : ∃ host call, exec Host.step Host.init wokenEarlyRun = some host ∧
    host.calls[0]? = some call ∧ call.pc = .waiting false ∧ host.Woken 0 call := by
  have hend : (exec Host.step Host.init wokenEarlyRun).any fun host =>
      (host.calls[0]?).any fun call => call.pc = .waiting false ∧ host.Woken 0 call := by decide +kernel
  obtain ⟨host, hrun, hhost⟩ := (Option.any_eq_true _ _).1 hend
  obtain ⟨call, hcall, hdone⟩ := (Option.any_eq_true _ _).1 hhost
  exact ⟨host, call, hrun, hcall, of_decide_eq_true hdone⟩

end CmdAgent
