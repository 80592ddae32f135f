import CmdAgent.Inflight
import CmdAgent.Query
/-!
# Calls end

A call that gives up where it tests the condition of `TASK_WAIT_COND`, its time being over
or its task aborted, does not wait any more. Nobody's help is needed for it to return: not
the hardware's, not the event loop's, not the other threads'.
-/
open StreamLib.Runs

namespace CmdAgent

/-! ## The steps ahead -/

/-- How many steps a call takes yet that gives up at its tests, without those of a beep. -/
def Pc.own : Pc → Nat
  | .format => 7
  | .wakeupclear => 6
  | .write | .waiting _ => 5
  | .wait => 4
  | .check => 3
  | .beeping _ => 2
  | .ret => 1
  | .returned _ => 0

def Host.own (host : Host) (id : Nat) : Nat := (host.calls[id]?).elim 0 fun call => call.pc.own

/-- The same with the steps of the beep. -/
def Host.togo (host : Host) (id : Nat) : Nat :=
  match (host.calls[id]?).map Call.pc with
  | none => 0
  | some (.beeping child) => 2 + host.own child
  | some pc => if pc.own < 3 then pc.own else 7 + pc.own

/-- `who` is the call `id`, or the beep it waits for. -/
def Host.Serves (host : Host) (id who : Nat) : Prop :=
  who = id ∨ ∃ call ∈ host.calls[id]?, call.pc = .beeping who

/-- A step for the call `id`. -/
def Host.served (host : Host) (id : Nat) : HostEv → Bool
  | .run who _ _ => who = id || (host.calls[id]?).any fun call => call.pc = .beeping who
  | _ => false

/-- In a step for the call `id` the condition of `TASK_WAIT_COND` is not met. -/
def Host.GivesUp (host : Host) (id : Nat) (ev : HostEv) : Prop :=
  host.served id ev = true →
    match ev with
    | .run who now _ => ∀ call ∈ host.calls[who]?, call.pc = .wait → host.waitCond call now = false
    | _ => True

instance (host : Host) (id : Nat) : (ev : HostEv) → Decidable (host.GivesUp id ev)
  | .run who now ok =>
    inferInstanceAs (Decidable (host.served id (.run who now ok) = true →
      ∀ call ∈ host.calls[who]?, call.pc = .wait → host.waitCond call now = false))
  | .call .. | .ack .. | .expire _ | .wakeup _ | .chgstat .. | .link .. => .isTrue fun _ => trivial

theorem served_run {host : Host} {id who : Nat} {now : Timespec} {ok : Bool} :
    host.served id (.run who now ok) = true ↔ host.Serves id who := by
  simp only [Host.served, Host.Serves, Bool.or_eq_true, decide_eq_true_eq, Option.any_eq_true]
  rfl

/-! ## What a step does to a call -/

def CmdsetFn.IsBeep (fn : CmdsetFn) : Prop := ∃ msec repeats, fn = .beep msec repeats

/-- A call makes no step; a broadcast may reach it. -/
structure Call.Stays (call call' : Call) : Prop where
  fn : call'.fn = call.fn
  pc : call'.pc = call.pc ∨ ∃ signalled, call.pc = .waiting signalled ∧ call'.pc = .waiting true

/-- What a step of the call `id` makes of it, with the calls that are `new`. -/
inductive Goes (host : Host) (id : Nat) (call : Call) (now : Timespec) (call' : Call) (new : List Call) : Prop
  | on : new = [] → (∀ child, call'.pc ≠ .beeping child) →
      ((call.pc = .wait → host.waitCond call now = false) → call'.pc.own < call.pc.own) →
      (∀ child, call.pc = .beeping child → call'.pc = .ret) → Goes host id call now call' new
  | beeps (beep : Call) : call.pc = .check → call'.pc = .beeping host.calls.length → new = [beep] →
      beep.pc = .format → beep.fn.IsBeep → ¬ call.fn.IsBeep → Goes host id call now call' new

namespace Call.Stays
variable {call call' : Call}

theorem refl (call : Call) : call.Stays call := ⟨rfl, .inl rfl⟩

theorem trans {call'' : Call} (h : call.Stays call') (h' : call'.Stays call'') : call.Stays call'' := by
  refine ⟨h'.fn.trans h.fn, ?_⟩
  rcases h'.pc with hpc' | ⟨signalled', hw', hpc'⟩
  · rw [hpc']
    exact h.pc
  · rcases h.pc with hpc | ⟨signalled, hw, hpc⟩
    · exact .inr ⟨signalled', hpc ▸ hw', hpc'⟩
    · exact .inr ⟨signalled, hw, hpc'⟩

theorem own_eq (h : call.Stays call') : call'.pc.own = call.pc.own := by
  rcases h.pc with hpc | ⟨signalled, hw, hpc⟩
  · rw [hpc]
  · rw [hpc, hw]
    rfl

theorem beeping_iff (h : call.Stays call') (child : Nat) : call'.pc = .beeping child ↔ call.pc = .beeping child := by
  rcases h.pc with hpc | ⟨signalled, hw, hpc⟩
  · rw [hpc]
  · rw [hpc, hw]
    simp

end Call.Stays

theorem signal_stays (task : Nat) (call : Call) : call.Stays (call.signal task) := by
  unfold Call.signal
  split
  · rename_i signalled hpc
    split
    · exact ⟨rfl, .inr ⟨signalled, hpc, rfl⟩⟩
    · exact .refl call
  · exact .refl call

theorem wakeup_stays (host : Host) {i : Nat} {call : Call} (hc : host.calls[i]? = some call) (task : Nat) :
    ∃ call' ∈ (host.wakeup task).calls[i]?, call.Stays call' :=
  ⟨call.signal task, by simp [Host.wakeup, hc], signal_stays task call⟩

theorem act_stays (host : Host) {i : Nat} {call : Call} (hc : host.calls[i]? = some call) (cb : CmdAction)
    (packet : Option (List UInt8)) (alloc : Bool) : ∃ call' ∈ (host.act cb packet alloc).calls[i]?, call.Stays call' := by
  unfold Host.act
  generalize hacted : cb.actioncb.call alloc cb.cmd packet = acted
  have hstored : ∃ call₁, (host.calls.modify cb.outret fun call =>
      { call with retval := acted.outret, out := acted.out.or call.out })[i]? = some call₁ ∧ call.Stays call₁ := by
    rw [List.getElem?_modify, hc]
    refine ⟨_, rfl, ?_⟩
    split
    · exact ⟨rfl, .inl rfl⟩
    · exact .refl call
  obtain ⟨call₁, hc₁, hstays₁⟩ := hstored
  dsimp only
  split
  · obtain ⟨call₂, hc₂, hstays₂⟩ := wakeup_stays { host with
      calls := host.calls.modify cb.outret fun call =>
        { call with retval := acted.outret, out := acted.out.or call.out }
      runs := host.runs ++ [⟨cb.outret, packet⟩] } hc₁ cb.wait
    exact ⟨call₂, hc₂, hstays₁.trans hstays₂⟩
  · exact ⟨call₁, hc₁, hstays₁⟩

/-! ### A step of a call -/

/-- No beep follows. -/
def After.Plain : After → Prop
  | .retval _ (some _) => False
  | _ => True

theorem unsent_plain (fn : CmdsetFn) : fn.cmdset.unsent.Plain := by
  cases fn <;> exact trivial

theorem after_beep {fn : CmdsetFn} (hbeep : fn.IsBeep) (netcmd : List UInt8) (retval : Int)
    (out : Option (List UInt8)) : (fn.cmdset.after netcmd retval out).Plain := by
  obtain ⟨msec, repeats, rfl⟩ := hbeep
  exact trivial

theorem follow_plain {after : After} (h : after.Plain) (call : Call) (child : Nat) :
    (call.follow child after).pc.own ≤ 1 ∧ beepCalls call.waitTask after = [] := by
  cases after with
  | value v pkt => exact ⟨Nat.zero_le 1, rfl⟩
  | retval store beep =>
    cases beep with
    | none => exact ⟨Nat.le_refl 1, rfl⟩
    | some args => exact h.elim

theorem not_beeping {pc : Pc} (h : pc.own ≤ 1) (child : Nat) : pc ≠ .beeping child := by
  rintro rfl
  simp [Pc.own] at h

theorem Turn.goes {host host' : Host} {id : Nat} {call : Call} {now : Timespec} (h : Turn host id call now host') :
    ∃ call' new, host'.calls = host.calls.set id call' ++ new ∧ call'.fn = call.fn ∧
      Goes host id call now call' new := by
  -- Every section but that of `check` adds no call.
  have hon : ∀ call', host'.calls = host.calls.set id call' → call'.fn = call.fn →
      (∀ child, call'.pc ≠ .beeping child) →
      ((call.pc = .wait → host.waitCond call now = false) → call'.pc.own < call.pc.own) →
      (∀ child, call.pc = .beeping child → call'.pc = .ret) → ∃ call' new, host'.calls = host.calls.set id call' ++ new ∧
        call'.fn = call.fn ∧ Goes host id call now call' new :=
    fun call' hcalls hfn hnot hless hret => ⟨call', [], by simpa using hcalls, hfn, .on rfl hnot hless hret⟩
  cases h with
  | formats hpc => exact hon _ rfl rfl (by simp) (fun _ => by simp [hpc, Pc.own]) (by simp [hpc])
  | gives nc hpc =>
    obtain ⟨hunsent, -⟩ := follow_plain (unsent_plain call.fn) call 0
    refine hon _ rfl (follow_frame call 0 _).1 (not_beeping hunsent) (fun _ => ?_) ?_
    · rcases hpc with hpc | hpc <;> (rw [hpc]; exact Nat.lt_of_le_of_lt hunsent (by decide))
    · rcases hpc with hpc | hpc <;> simp [hpc]
  | clears hpc => exact hon _ rfl rfl (by simp) (fun _ => by simp [hpc, Pc.own]) (by simp [hpc])
  | sends nc slot hpc => exact hon _ rfl rfl (by simp) (fun _ => by simp [hpc, Pc.own]) (by simp [hpc])
  | tests hpc =>
    refine hon _ rfl rfl (fun child => ?_) (fun hover => ?_) (by simp [hpc])
    · dsimp only
      split <;> simp
    · simp [hover hpc, hpc, Pc.own]
  | wakes hpc => exact hon _ rfl rfl (by simp) (fun _ => by simp [hpc, Pc.own]) (by simp [hpc])
  | restarts signalled hpc => exact hon _ rfl rfl (by simp) (fun _ => by simp [hpc, Pc.own]) (by simp [hpc])
  | looks after hpc hafter =>
    have hfn : (call.follow host.calls.length after).fn = call.fn := (follow_frame call _ after).1
    by_cases hplain : after.Plain
    · obtain ⟨hown, hnone⟩ := follow_plain hplain call host.calls.length
      refine ⟨_, _, rfl, hfn, .on hnone (not_beeping hown) (fun _ => ?_) (by simp [hpc])⟩
      rw [hpc]
      exact Nat.lt_of_le_of_lt hown (by decide)
    · have hnot : ¬ call.fn.IsBeep := fun hbeep => hplain (hafter ▸ after_beep hbeep _ _ _)
      cases after with
      | value v pkt => exact absurd trivial hplain
      | retval store beep =>
        cases beep with
        | none => exact absurd trivial hplain
        | some args => exact ⟨_, _, rfl, hfn, .beeps _ hpc rfl rfl rfl ⟨args.1, args.2, rfl⟩ hnot⟩
  | rests child hpc => exact hon _ rfl rfl (by simp) (fun _ => by simp [hpc, Pc.own]) (fun _ _ => rfl)
  | returns hpc => exact hon _ rfl rfl (by simp) (fun _ => by simp [hpc, Pc.own]) (by simp [hpc])

/-- A call stays where it is in the steps of others. -/
theorem step_stays {host host' : Host} {ev : HostEv} (hstep : host.step ev = some host') {i : Nat} {call : Call}
    (hc : host.calls[i]? = some call) (hother : ∀ now ok, ev ≠ .run i now ok) :
    ∃ call' ∈ host'.calls[i]?, call.Stays call' := by
  cases step_cases hstep with
  | called fn waitTask =>
    exact ⟨call, (List.getElem?_append_left (List.getElem?_eq_some_iff.1 hc).1).trans hc, .refl call⟩
  | turned id caller now ok _ hturn =>
    have hne : id ≠ i := by
      rintro rfl
      exact hother now ok rfl
    obtain ⟨call', new, hcalls, -, -⟩ := hturn.goes
    exact ⟨call, by rw [hcalls]; exact getElem?_turn_ne hc hne call' new, .refl call⟩
  | acts nc l₁ l₂ ncwrbuf packet => exact act_stays { host with nc := nc } hc _ _ _
  | signals task => exact wakeup_stays host hc task
  | keeps nc task => exact ⟨call, hc, .refl call⟩

/-- A new call is about to format its command. -/
theorem step_new {host host' : Host} {ev : HostEv} (hstep : host.step ev = some host') {i : Nat} {call' : Call}
    (hnew : host.calls.length ≤ i) (hc' : host'.calls[i]? = some call') : call'.pc = .format := by
  have happended : ∀ calls new : List Call, calls.length = host.calls.length → host'.calls = calls ++ new →
      (∀ c ∈ new, ∃ fn waitTask, c = newCall fn waitTask) → call'.pc = .format := by
    intro calls new hlen hcalls hnewCall
    rw [hcalls, List.getElem?_append_right (hlen ▸ hnew)] at hc'
    obtain ⟨fn, waitTask, rfl⟩ := hnewCall call' (List.mem_of_getElem? hc')
    rfl
  have hnone : host'.calls.length = host.calls.length → call'.pc = .format := by
    intro hlen
    rw [List.getElem?_eq_none (hlen ▸ hnew)] at hc'
    cases hc'
  cases step_cases hstep with
  | called fn waitTask => exact happended _ _ rfl rfl fun c hmem => ⟨fn, waitTask, List.mem_singleton.1 hmem⟩
  | turned id call now ok hc hturn =>
    obtain ⟨call', new, -, hcalls, hnewCall, -⟩ := hturn.progress
    exact happended _ new (List.length_set ..) hcalls hnewCall
  | acts nc l₁ l₂ ncwrbuf packet => exact hnone (act_calls_length _ _ _ _)
  | signals task => exact hnone (List.length_map _)
  | keeps nc task => exact hnone rfl

/-- Every call keeps its function. -/
theorem step_fn {host host' : Host} {ev : HostEv} (hstep : host.step ev = some host') {i : Nat} {call : Call}
    (hc : host.calls[i]? = some call) : ∃ call' ∈ host'.calls[i]?, call'.fn = call.fn := by
  by_cases hother : ∀ now ok, ev ≠ .run i now ok
  · obtain ⟨call', hc', hstays⟩ := step_stays hstep hc hother
    exact ⟨call', hc', hstays.fn⟩
  · simp only [not_forall, not_not] at hother
    obtain ⟨now, ok, rfl⟩ := hother
    obtain ⟨call', new, hcalls, hfn, -⟩ := (step_turn hstep hc).goes
    exact ⟨call', by rw [hcalls]; exact getElem?_turn_self hc call' new, hfn⟩

/-! ## Beeps -/

/-- A call waits for a beep only, and a beep for no other call. -/
structure Host.Beeps (host : Host) : Prop where
  child : ∀ (id : Nat) (call : Call) (child : Nat), host.calls[id]? = some call → call.pc = .beeping child →
    ∃ beep ∈ host.calls[child]?, beep.fn.IsBeep
  plain : ∀ (id : Nat) (call : Call), host.calls[id]? = some call → call.fn.IsBeep → ∀ child, call.pc ≠ .beeping child

theorem init_beeps : Host.init.Beeps where
  child := by
    intro id call child hc
    cases hc
  plain := by
    intro id call hc
    cases hc

/-- Where a call after a step comes from. -/
theorem step_origin {host host' : Host} {ev : HostEv} (hstep : host.step ev = some host') {i : Nat} {call' : Call}
    (hc' : host'.calls[i]? = some call') : call'.pc = .format ∨
      (∃ call, host.calls[i]? = some call ∧ call.Stays call') ∨
      ∃ call now ok new, ev = .run i now ok ∧ host.calls[i]? = some call ∧ call'.fn = call.fn ∧
        host'.calls = host.calls.set i call' ++ new ∧ Goes host i call now call' new := by
  by_cases hlt : i < host.calls.length
  · have hc : host.calls[i]? = some host.calls[i] := List.getElem?_eq_getElem hlt
    by_cases hother : ∀ now ok, ev ≠ .run i now ok
    · obtain ⟨call'', hc'', hstays⟩ := step_stays hstep hc hother
      cases hc'.symm.trans hc''
      exact .inr (.inl ⟨_, hc, hstays⟩)
    · simp only [not_forall, not_not] at hother
      obtain ⟨now, ok, rfl⟩ := hother
      obtain ⟨call'', new, hcalls, hfn, hgoes⟩ := (step_turn hstep hc).goes
      have hself : host'.calls[i]? = some call'' := by
        rw [hcalls]
        exact getElem?_turn_self hc call'' new
      cases hc'.symm.trans hself
      exact .inr (.inr ⟨_, now, ok, new, rfl, hc, hfn, hcalls, hgoes⟩)
  · exact .inl (step_new hstep (Nat.le_of_not_lt hlt) hc')

theorem Host.Beeps.step {host host' : Host} {ev : HostEv} (h : host.Beeps) (hstep : host.step ev = some host') :
    host'.Beeps := by
  constructor
  · intro id call' child hc' hpc'
    rcases step_origin hstep hc' with hformat | ⟨call, hc, hstays⟩ | ⟨call, now, ok, new, rfl, hc, hfn, hcalls, hgoes⟩
    · rw [hformat] at hpc'
      cases hpc'
    · obtain ⟨beep, hbeep, hisBeep⟩ := h.child id call child hc ((hstays.beeping_iff child).1 hpc')
      obtain ⟨beep', hbeep', hfn⟩ := step_fn hstep hbeep
      exact ⟨beep', hbeep', hfn ▸ hisBeep⟩
    · cases hgoes with
      | on hnew hnot hless hret => exact absurd hpc' (hnot child)
      | beeps beep hpc hpc₁ hnew hformat hisBeep hnot =>
        rw [hpc₁] at hpc'
        cases hpc'
        refine ⟨beep, ?_, hisBeep⟩
        rw [hcalls, hnew, List.getElem?_append_right (by simp)]
        simp
  · intro id call' hc' hisBeep child hpc'
    rcases step_origin hstep hc' with hformat | ⟨call, hc, hstays⟩ | ⟨call, now, ok, new, rfl, hc, hfn, hcalls, hgoes⟩
    · rw [hformat] at hpc'
      cases hpc'
    · exact h.plain id call hc (hstays.fn ▸ hisBeep) child ((hstays.beeping_iff child).1 hpc')
    · cases hgoes with
      | on hnew hnot hless hret => exact hnot child hpc'
      | beeps beep hpc hpc₁ hnew hformat hbeep hnot => exact hnot (hfn ▸ hisBeep)

/-! ## Until it returns -/

theorem own_eq {host : Host} {id : Nat} {call : Call} (hc : host.calls[id]? = some call) : host.own id = call.pc.own := by
  rw [Host.own, hc]
  rfl

theorem togo_beeping {host : Host} {id : Nat} {call : Call} (hc : host.calls[id]? = some call) {child : Nat}
    (hpc : call.pc = .beeping child) : host.togo id = 2 + host.own child := by
  simp only [Host.togo, hc, Option.map_some, hpc]

theorem togo_plain {host : Host} {id : Nat} {call : Call} (hc : host.calls[id]? = some call)
    (hpc : ∀ child, call.pc ≠ .beeping child) :
    host.togo id = if call.pc.own < 3 then call.pc.own else 7 + call.pc.own := by
  simp only [Host.togo, hc, Option.map_some]

theorem own_le (pc : Pc) : pc.own ≤ 7 := by
  cases pc <;> simp [Pc.own]

theorem togo_le (host : Host) (id : Nat) : host.togo id ≤ 14 := by
  have hown : ∀ i, host.own i ≤ 7 := by
    intro i
    unfold Host.own
    cases host.calls[i]? with
    | none => exact Nat.zero_le 7
    | some call => exact own_le call.pc
  cases hc : host.calls[id]? with
  | none => simp [Host.togo, hc]
  | some call =>
    by_cases hbeeping : ∃ child, call.pc = .beeping child
    · obtain ⟨child, hpc⟩ := hbeeping
      have hchild := hown child
      rw [togo_beeping hc hpc]
      omega
    · have hpc := own_le call.pc
      rw [togo_plain hc fun child hpc => hbeeping ⟨child, hpc⟩]
      split <;> omega

/-- Only its own steps change what is ahead of a call. -/
theorem own_step {host host' : Host} {ev : HostEv} (hstep : host.step ev = some host') {i : Nat} {call : Call}
    (hc : host.calls[i]? = some call) (hother : ∀ now ok, ev ≠ .run i now ok) : host'.own i = host.own i := by
  obtain ⟨call', hc', hstays⟩ := step_stays hstep hc hother
  rw [own_eq hc, own_eq hc', hstays.own_eq]

/-- The step of a beep that gives up. -/
theorem own_beep {host host' : Host} {i : Nat} {now : Timespec} {ok : Bool}
    (hstep : host.step (.run i now ok) = some host') {beep : Call} (hc : host.calls[i]? = some beep)
    (hbeep : beep.fn.IsBeep) (hover : beep.pc = .wait → host.waitCond beep now = false) : host'.own i < host.own i := by
  obtain ⟨beep', new, hcalls, hfn, hgoes⟩ := (step_turn hstep hc).goes
  have hself : host'.calls[i]? = some beep' := by
    rw [hcalls]
    exact getElem?_turn_self hc beep' new
  rw [own_eq hc, own_eq hself]
  cases hgoes with
  | on hnew hnot hless hret => exact hless hover
  | beeps beep hpc hpc₁ hnew hformat hisBeep hnot => exact absurd hbeep hnot

theorem togo_other {host host' : Host} {ev : HostEv} (h : host.Beeps) {id : Nat} {call : Call}
    (hc : host.calls[id]? = some call) (hstep : host.step ev = some host') (hover : host.GivesUp id ev)
    (hother : ∀ now ok, ev ≠ .run id now ok) : (host.served id ev).toNat + host'.togo id ≤ host.togo id := by
  obtain ⟨call', hc', hstays⟩ := step_stays hstep hc hother
  by_cases hbeeping : ∃ child, call.pc = .beeping child
  · obtain ⟨child, hpc⟩ := hbeeping
    obtain ⟨beep, hbeep, hisBeep⟩ := h.child id call child hc hpc
    rw [togo_beeping hc hpc, togo_beeping hc' ((hstays.beeping_iff child).2 hpc)]
    by_cases hchild : ∃ now ok, ev = .run child now ok
    · obtain ⟨now, ok, rfl⟩ := hchild
      have hserved : host.served id (.run child now ok) = true := served_run.2 (.inr ⟨call, hc, hpc⟩)
      have hless : host'.own child < host.own child := own_beep hstep hbeep hisBeep (hover hserved beep hbeep)
      rw [hserved, Bool.toNat_true]
      omega
    · have hunserved : host.served id ev = false := by
        rw [Bool.eq_false_iff]
        intro hserved
        cases ev with
        | run who now ok =>
          rcases served_run.1 hserved with rfl | ⟨call₁, hc₁, hpc₁⟩
          · exact hother now ok rfl
          · cases hc.symm.trans hc₁
            cases hpc.symm.trans hpc₁
            exact hchild ⟨now, ok, rfl⟩
        | call | ack | expire | wakeup | chgstat | link => cases hserved
      have hsame : host'.own child = host.own child :=
        own_step hstep hbeep fun now ok he => hchild ⟨now, ok, he⟩
      rw [hunserved, hsame, Bool.toNat_false, Nat.zero_add]
  · have hnot : ∀ child, call.pc ≠ .beeping child := fun child hpc => hbeeping ⟨child, hpc⟩
    have hunserved : host.served id ev = false := by
      rw [Bool.eq_false_iff]
      intro hserved
      cases ev with
      | run who now ok =>
        rcases served_run.1 hserved with rfl | ⟨call₁, hc₁, hpc₁⟩
        · exact hother now ok rfl
        · cases hc.symm.trans hc₁
          exact hnot who hpc₁
      | call | ack | expire | wakeup | chgstat | link => cases hserved
    rw [togo_plain hc hnot, togo_plain hc' fun child hpc => hnot child ((hstays.beeping_iff child).1 hpc), hstays.own_eq,
      hunserved, Bool.toNat_false, Nat.zero_add]

theorem togo_self {host host' : Host} {id : Nat} {call : Call} {now : Timespec} {ok : Bool}
    (hc : host.calls[id]? = some call) (hstep : host.step (.run id now ok) = some host')
    (hover : call.pc = .wait → host.waitCond call now = false) : 1 + host'.togo id ≤ host.togo id := by
  obtain ⟨call', new, hcalls, hfn, hgoes⟩ := (step_turn hstep hc).goes
  have hself : host'.calls[id]? = some call' := by
    rw [hcalls]
    exact getElem?_turn_self hc call' new
  cases hgoes with
  | on hnew hnot hless hret =>
    rw [togo_plain hself hnot]
    by_cases hbeeping : ∃ child, call.pc = .beeping child
    · obtain ⟨child, hpc⟩ := hbeeping
      rw [togo_beeping hc hpc, hret child hpc]
      exact Nat.add_le_add_left (Nat.zero_le _) 2
    · rw [togo_plain hc fun child hpc => hbeeping ⟨child, hpc⟩]
      have hown := hless hover
      split <;> split <;> omega
  | beeps beep hpc hpc₁ hnew hformat hisBeep hnot =>
    have hbeep : host'.calls[host.calls.length]? = some beep := by
      rw [hcalls, hnew, List.getElem?_append_right (by simp)]
      simp
    rw [togo_beeping hself hpc₁, own_eq hbeep, hformat, togo_plain hc (by simp [hpc]), hpc]
    decide

theorem togo_step {host host' : Host} {ev : HostEv} (h : host.Beeps) {id : Nat} (hid : id < host.calls.length)
    (hstep : host.step ev = some host') (hover : host.GivesUp id ev) :
    (host.served id ev).toNat + host'.togo id ≤ host.togo id := by
  have hc : host.calls[id]? = some host.calls[id] := List.getElem?_eq_getElem hid
  by_cases hother : ∀ now ok, ev ≠ .run id now ok
  · exact togo_other h hc hstep hover hother
  · simp only [not_forall, not_not] at hother
    obtain ⟨now, ok, rfl⟩ := hother
    have hserved : host.served id (.run id now ok) = true := served_run.2 (.inl rfl)
    rw [hserved, Bool.toNat_true]
    exact togo_self hc hstep (hover hserved _ hc)

/-! ## No call is stuck -/

/-- The next step of a call that waits for no other, in the worst case. -/
theorem runCall_some (host : Host) (id : Nat) {call : Call} (hbeep : ∀ child, call.pc ≠ .beeping child)
    (hret : ∀ v, call.pc ≠ .returned v) (now : Timespec) : (host.runCall id call now false).isSome = true := by
  unfold Host.runCall
  dsimp only
  split
  · split <;> rfl
  · rfl
  · split <;> rfl
  · rfl
  · rfl
  · rfl
  · rename_i child hpc
    exact absurd hpc (hbeep child)
  · rfl
  · rename_i v hpc
    exact absurd hpc (hret v)

theorem serves_step {host : Host} (h : host.Beeps) {id : Nat} (hid : id < host.calls.length) (hret : ¬ host.Returned id) :
    ∃ who, host.Serves id who ∧ ∀ now, (host.step (.run who now false)).isSome = true := by
  have hc : host.calls[id]? = some host.calls[id] := List.getElem?_eq_getElem hid
  have hnot : ∀ v, host.calls[id].pc ≠ .returned v := fun v hv => hret ⟨_, hc, v, hv⟩
  by_cases hbeeping : ∃ child, host.calls[id].pc = .beeping child
  · obtain ⟨child, hpc⟩ := hbeeping
    obtain ⟨beep, hbeep, hisBeep⟩ := h.child id _ child hc hpc
    by_cases hdone : ∃ v, beep.pc = .returned v
    · obtain ⟨v, hv⟩ := hdone
      refine ⟨id, .inl rfl, fun now => ?_⟩
      obtain ⟨fn, waitTask, pc, seqno, tsStart, retval, out⟩ := beep
      cases hv
      simp only [Host.step, hc, Host.runCall, hpc, show host.calls[child]? = _ from hbeep]
      rfl
    · refine ⟨child, .inr ⟨_, hc, hpc⟩, fun now => ?_⟩
      simp only [Host.step, show host.calls[child]? = _ from hbeep]
      exact runCall_some host child (h.plain child beep hbeep hisBeep) (fun v hv => hdone ⟨v, hv⟩) now
  · refine ⟨id, .inl rfl, fun now => ?_⟩
    simp only [Host.step, hc]
    exact runCall_some host id (fun child hpc => hbeeping ⟨child, hpc⟩) hnot now

theorem beeps_run {host : Host} {evs : List HostEv} (hrun : exec Host.step Host.init evs = some host) : host.Beeps :=
  exec_inv_all (fun _ _ _ h hstep => h.step hstep) init_beeps hrun

theorem step_length {host host' : Host} {ev : HostEv} (hstep : host.step ev = some host') {id : Nat}
    (hid : id < host.calls.length) : id < host'.calls.length := by
  obtain ⟨call', hc', -⟩ := step_fn hstep (List.getElem?_eq_getElem hid)
  exact (List.getElem?_eq_some_iff.1 hc').1

/-- `l0006_cmdset_setaddressmode` waits for an acknowledgement that does not come. -/
def waitsInVain : List HostEv :=
  .link true (some 0) :: .call .setaddressmode 0 :: List.replicate 4 (.run 0 ⟨0, 0⟩ true)

/-- Its time is over; it beeps, and the time of the beep is over too. -/
def givesUp : List HostEv :=
  .run 0 ⟨1, 0⟩ false :: List.replicate 2 (.run 0 ⟨11, 0⟩ true) ++ List.replicate 3 (.run 1 ⟨11, 0⟩ true) ++
    List.replicate 2 (.run 1 ⟨22, 0⟩ true) ++ List.replicate 2 (.run 0 ⟨22, 0⟩ true)

end CmdAgent
