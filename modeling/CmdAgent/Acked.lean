import Mathlib.Data.List.Nodup
import CmdAgent.Cmdset
import CmdAgent.StreamLib.Runs
/-!
# Success means acknowledged

A function that reports success has had its command acknowledged, provided it has
not looked at its `retval` before the callback was called, and the callback does
not come afterwards. The invariant follows each call by what it does next.
-/
open StreamLib.Runs

namespace CmdAgent

/-! ## Acknowledged calls -/

/-- The functions that report a result. -/
def CmdsetFn.Reports : CmdsetFn → Prop
  | .beep .. => False
  | _ => True

/-- The calls whose command waits in `wrbuf_used_list`. -/
def outrets (used : List (NetcomWrbuf CmdAction)) : List Nat := used.map fun ncwrbuf => ncwrbuf.action.cb.outret

/-- The callback of the call `id` has run on the acknowledgement of its command. -/
def Acked (runs : List ActionRun) (id : Nat) (call : Call) : Prop :=
  ∃ packet, ⟨id, some packet⟩ ∈ runs ∧ seqnoOf packet = call.seqno ∧
    (cmdOf packet).toNat = l0006NetcmdGetackcmd call.fn.cmdset.cmd

/-- The callback has been called for a packet with the `cmd` that acknowledges `cmd`. -/
def ActionRun.Acks (run : ActionRun) (cmd : UInt8) : Prop :=
  ∃ packet ∈ run.packet, (cmdOf packet).toNat = l0006NetcmdGetackcmd cmd

/-- The callback of the call `id` has been called with the acknowledgement. -/
def Host.Called (host : Host) (id : Nat) (call : Call) : Prop :=
  ∃ run ∈ host.runs, run.outret = id ∧ run.Acks call.fn.cmdset.cmd

/-- A function looks at `retval` in time: the callback of its command has been called, and
for `l0006_cmdset_querymode` it has been `called` with the acknowledgement.
`l0006_cmdset_hardwareversion` may come early, and `l0006_cmdset_beep` reports nothing. -/
def CmdsetFn.InTime (fn : CmdsetFn) (pending called : Prop) : Prop :=
  match fn with
  | .beep .. => True
  | .hardwareversion .. => True
  | .querymode _ => ¬ pending ∧ called
  | _ => ¬ pending

/-- Every function looks at `retval` in time, and no callback is called later. -/
def Host.InTime (host : Host) : HostEv → Prop
  | .run id _ _ => ∀ call ∈ host.calls[id]?, call.pc = .check →
    call.fn.InTime (id ∈ outrets host.nc.used) (host.Called id call)
  | .ack packet _ =>
    ∀ ncwrbuf ∈ host.nc.used.find? (fun ncwrbuf => ncwrbuf.action.seqno == seqnoOf packet),
      ncwrbuf.action.cb.outret ∉ host.checked
  | .expire now => ∀ ncwrbuf ∈ netcomExpired host.nc now, ncwrbuf.action.cb.outret ∉ host.checked
  | _ => True

instance : DecidablePred CmdsetFn.Reports := by
  intro fn
  cases fn with
  | beep => exact inferInstanceAs (Decidable False)
  | _ => exact inferInstanceAs (Decidable True)

instance (run : ActionRun) (cmd : UInt8) : Decidable (run.Acks cmd) :=
  inferInstanceAs (Decidable (∃ packet ∈ run.packet, (cmdOf packet).toNat = l0006NetcmdGetackcmd cmd))

instance (host : Host) (id : Nat) (call : Call) : Decidable (host.Called id call) :=
  inferInstanceAs (Decidable (∃ run ∈ host.runs, run.outret = id ∧ run.Acks call.fn.cmdset.cmd))

instance (fn : CmdsetFn) (pending called : Prop) [Decidable pending] [Decidable called] :
    Decidable (fn.InTime pending called) := by
  cases fn with
  | beep => exact inferInstanceAs (Decidable True)
  | hardwareversion => exact inferInstanceAs (Decidable True)
  | querymode => exact inferInstanceAs (Decidable (¬ pending ∧ called))
  | _ => exact inferInstanceAs (Decidable (¬ pending))

instance (host : Host) (ev : HostEv) : Decidable (host.InTime ev) := by
  cases ev with
  | run id =>
    exact inferInstanceAs (Decidable (∀ call ∈ host.calls[id]?, call.pc = .check →
      call.fn.InTime (id ∈ outrets host.nc.used) (host.Called id call)))
  | ack packet =>
    exact inferInstanceAs (Decidable (∀ ncwrbuf ∈ host.nc.used.find?
      (fun ncwrbuf => ncwrbuf.action.seqno == seqnoOf packet), ncwrbuf.action.cb.outret ∉ host.checked))
  | expire now =>
    exact inferInstanceAs (Decidable (∀ ncwrbuf ∈ netcomExpired host.nc now, ncwrbuf.action.cb.outret ∉ host.checked))
  | _ => exact inferInstanceAs (Decidable True)

/-! ## What the functions make of `retval` -/

/-- What the branch returns. -/
def After.result (after : After) (retval : Int) : Int :=
  match after with
  | .value v _ => v
  | .retval store _ => store.getD retval

/-- Only `l0006_cmdset_querymode` reports success without one in `retval`. -/
theorem success_of_result {fn : CmdsetFn} (hfn : fn.Reports) {netcmd : List UInt8} {retval : Int}
    {out : Option (List UInt8)} (h : 0 ≤ (fn.cmdset.after netcmd retval out).result retval) :
    retval = l0006NetcomAckSuccess ∨ ∃ pkt, fn = .querymode pkt := by
  have hvalue : 0 ≤ (afterValue netcmd retval out).result retval → retval = l0006NetcomAckSuccess := by
    intro hr
    unfold afterValue at hr
    by_contra hne
    rw [if_pos hne] at hr
    cases hr
  have hbeep : ∀ msec repeats, 0 ≤ (afterBeep msec repeats netcmd retval out).result retval →
      retval = l0006NetcomAckSuccess := by
    intro msec repeats hr
    unfold afterBeep at hr
    by_contra hne
    rw [if_pos hne] at hr
    cases hr
  cases fn with
  | saveSensorconfig => exact .inl (hvalue h)
  | loadSensorconfig => exact .inl (hvalue h)
  | beep => exact absurd hfn id
  | setwindowsize => exact .inl (hvalue h)
  | setaddressmode => exact .inl (hbeep _ _ h)
  | setnormmode => exact .inl (hbeep _ _ h)
  | querymode pkt => exact .inr ⟨pkt, rfl⟩
  | recovercboard => exact .inl (hbeep _ _ h)
  | hardwareversion =>
    refine .inl ?_
    by_contra hne
    simp only [CmdsetFn.cmdset, l0006CmdsetHardwareversion, if_pos hne] at h
    cases h

/-- A function that may come early does not start with success. -/
theorem CmdsetFn.InTime.init_ne {fn : CmdsetFn} {pending called : Prop} (h : fn.InTime pending called)
    (hfn : fn.Reports) (hp : pending) : fn.cmdset.init ≠ l0006NetcomAckSuccess := by
  cases fn with
  | beep => exact absurd hfn id
  | hardwareversion => exact (by decide : (-1 : Int) ≠ 0)
  | querymode => exact absurd hp h.1
  | _ => exact absurd hp h

/-- A command that is not sent is no success. -/
theorem unsent_result {fn : CmdsetFn} (hfn : fn.Reports) : fn.cmdset.unsent.result fn.cmdset.init < 0 := by
  cases fn with
  | beep => exact absurd hfn id
  | _ => exact (by decide : (-1 : Int) < 0)

/-! ## The invariant -/

/-- How far a call has come. -/
inductive Stage where
  | unsent
  | waiting
  | leaving
  | returned (v : Int)

def Pc.stage : Pc → Stage
  | .format => .unsent
  | .wakeupclear => .unsent
  | .write => .unsent
  | .wait => .waiting
  | .waiting _ => .waiting
  | .check => .waiting
  | .beeping _ => .leaving
  | .ret => .leaving
  | .returned v => .returned v

/-- What is known of the call `id` in a stage. -/
def StageInv (pending : List Nat) (runs : List ActionRun) (checked : List Nat) (id : Nat) (call : Call) : Stage → Prop
  | .unsent => call.retval = call.fn.cmdset.init
  | .waiting =>
    (id ∈ pending → call.retval = call.fn.cmdset.init) ∧
      (id ∉ pending → call.retval = l0006NetcomAckSuccess → Acked runs id call)
  | .leaving => (id ∈ pending → id ∈ checked) ∧ (call.fn.Reports → 0 ≤ call.retval → Acked runs id call)
  | .returned v => call.fn.Reports → 0 ≤ v → Acked runs id call

abbrev CallInv (pending : List Nat) (runs : List ActionRun) (checked : List Nat) (id : Nat) (call : Call) : Prop :=
  StageInv pending runs checked id call call.pc.stage

/-- The call `id` has sent its command, which has this number. -/
def SentAs (calls : List Call) (id : Nat) (seqno : UInt8) : Prop :=
  ∃ call, calls[id]? = some call ∧ call.pc.stage ≠ .unsent ∧ seqno = call.seqno

structure HostInv (used : List (NetcomWrbuf CmdAction)) (calls : List Call) (runs : List ActionRun)
    (checked : List Nat) : Prop where
  nodup : (outrets used).Nodup
  entries : ∀ ncwrbuf ∈ used, ∃ call, calls[ncwrbuf.action.cb.outret]? = some call ∧ call.pc.stage ≠ .unsent ∧
    ncwrbuf.action.seqno = call.seqno ∧ ncwrbuf.action.cb.cmd = call.fn.cmdset.cmd
  acks : ∀ run ∈ runs, ∀ packet ∈ run.packet, SentAs calls run.outret (seqnoOf packet)
  calls : ∀ id call, calls[id]? = some call → CallInv (outrets used) runs checked id call

def Host.Inv (host : Host) : Prop := HostInv host.nc.used host.calls host.runs host.checked

theorem Host.init_inv : Host.init.Inv where
  nodup := List.nodup_nil
  entries := by intro ncwrbuf hmem; cases hmem
  acks := by intro run hmem; cases hmem
  calls := by intro id call hc; cases hc

section
variable {pending : List Nat} {runs : List ActionRun} {checked : List Nat} {id : Nat} {call : Call}

theorem Acked.mono (h : Acked runs id call) (run : ActionRun) : Acked (runs ++ [run]) id call := by
  obtain ⟨packet, hmem, hack⟩ := h
  exact ⟨packet, List.mem_append_left _ hmem, hack⟩

/-- The other calls move on. -/
theorem CallInv.mono {pending' checked' : List Nat} (h : CallInv pending runs checked id call)
    (hp : id ∈ pending' ↔ id ∈ pending) (hc : id ∈ checked → id ∈ checked') :
    CallInv pending' runs checked' id call := by
  cases hph : call.pc.stage with
  | unsent =>
    rw [CallInv, hph] at h ⊢
    exact h
  | waiting =>
    rw [CallInv, hph] at h ⊢
    exact ⟨fun hmem => h.1 (hp.1 hmem), fun hmem => h.2 (fun hold => hmem (hp.2 hold))⟩
  | leaving =>
    rw [CallInv, hph] at h ⊢
    exact ⟨fun hmem => hc (h.1 (hp.1 hmem)), h.2⟩
  | returned v =>
    rw [CallInv, hph] at h ⊢
    exact h

theorem CallInv.run (h : CallInv pending runs checked id call) (run : ActionRun) :
    CallInv pending (runs ++ [run]) checked id call := by
  cases hph : call.pc.stage with
  | unsent =>
    rw [CallInv, hph] at h ⊢
    exact h
  | waiting =>
    rw [CallInv, hph] at h ⊢
    exact ⟨h.1, fun hmem hs => (h.2 hmem hs).mono run⟩
  | leaving =>
    rw [CallInv, hph] at h ⊢
    exact ⟨h.1, fun hfn hr => (h.2 hfn hr).mono run⟩
  | returned v =>
    rw [CallInv, hph] at h ⊢
    exact fun hfn hr => (h hfn hr).mono run

/-- A branch taken once the callback cannot come any more. -/
theorem CallInv.follow {after : After} (hpend : id ∈ pending → id ∈ checked)
    (h : call.fn.Reports → 0 ≤ after.result call.retval → Acked runs id call) (child : Nat) :
    CallInv pending runs checked id (call.follow child after) := by
  cases after with
  | value v pkt => exact h
  | retval store beep =>
    cases beep with
    | none => exact ⟨hpend, h⟩
    | some b => exact ⟨hpend, h⟩

end

/-! ## Steps -/

namespace SentAs
variable {calls : List Call} {id i : Nat} {call call' : Call} {seqno : UInt8}

theorem set (h : SentAs calls i seqno) (hc : calls[id]? = some call)
    (hkeep : call.pc.stage ≠ .unsent → call'.pc.stage ≠ .unsent ∧ call'.seqno = call.seqno) :
    SentAs (calls.set id call') i seqno := by
  obtain ⟨call₀, hc₀, hph, hseq⟩ := h
  by_cases he : id = i
  · subst he
    cases hc.symm.trans hc₀
    obtain ⟨hph', hseq'⟩ := hkeep hph
    exact ⟨call', List.getElem?_set_self (List.getElem?_eq_some_iff.1 hc).1, hph', hseq.trans hseq'.symm⟩
  · exact ⟨call₀, (List.getElem?_set_ne he).trans hc₀, hph, hseq⟩

theorem append (h : SentAs calls i seqno) (new : List Call) : SentAs (calls ++ new) i seqno := by
  obtain ⟨call, hc, hsent⟩ := h
  exact ⟨call, (List.getElem?_append_left (List.getElem?_eq_some_iff.1 hc).1).trans hc, hsent⟩

/-- The same change of all calls, or of one. -/
theorem update {calls' : List Call} {f : Nat → Call → Call} (h : SentAs calls i seqno)
    (hget : ∀ i, calls'[i]? = (calls[i]?).map (f i))
    (hf : ∀ i c, (f i c).pc.stage = c.pc.stage ∧ (f i c).seqno = c.seqno) : SentAs calls' i seqno := by
  obtain ⟨call, hc, hph, hseq⟩ := h
  obtain ⟨hph', hseq'⟩ := hf i call
  exact ⟨f i call, by rw [hget, hc]; rfl, by rw [hph']; exact hph, hseq.trans hseq'.symm⟩

end SentAs

/-- A broadcast leaves all but the place in the wait as it is. -/
theorem signal_same (task : Nat) (c : Call) : (c.signal task).pc.stage = c.pc.stage ∧ (c.signal task).fn = c.fn ∧
    (c.signal task).seqno = c.seqno ∧ (c.signal task).retval = c.retval := by
  unfold Call.signal
  split
  · split
    · simp [*, Pc.stage]
    · simp
  · simp

namespace HostInv
variable {used : List (NetcomWrbuf CmdAction)} {calls : List Call} {runs : List ActionRun} {checked : List Nat}
  {id : Nat} {call call' : Call}

/-- A waiting command is that of a call that has written it. -/
theorem pending_sent (h : HostInv used calls runs checked) (hmem : id ∈ outrets used) (hc : calls[id]? = some call) :
    call.pc.stage ≠ .unsent := by
  obtain ⟨ncwrbuf, hused, rfl⟩ := List.mem_map.1 hmem
  obtain ⟨call₀, hc₀, hph, -⟩ := h.entries ncwrbuf hused
  cases hc.symm.trans hc₀
  exact hph

/-- A call changes by itself. -/
theorem set (h : HostInv used calls runs checked) (hc : calls[id]? = some call) {checked' : List Nat}
    (hsub : ∀ i ∈ checked, i ∈ checked') (hfn : call'.fn = call.fn)
    (hkeep : call.pc.stage ≠ .unsent → call'.pc.stage ≠ .unsent ∧ call'.seqno = call.seqno)
    (hcall : CallInv (outrets used) runs checked' id call') : HostInv used (calls.set id call') runs checked' := by
  have hlt : id < calls.length := (List.getElem?_eq_some_iff.1 hc).1
  refine ⟨h.nodup, ?_, fun run hmem packet hp => (h.acks run hmem packet hp).set hc hkeep, ?_⟩
  · intro ncwrbuf hmem
    obtain ⟨call₀, hc₀, hph, hseq, hcmd⟩ := h.entries ncwrbuf hmem
    by_cases he : id = ncwrbuf.action.cb.outret
    · subst he
      cases hc.symm.trans hc₀
      obtain ⟨hph', hseq'⟩ := hkeep hph
      exact ⟨call', List.getElem?_set_self hlt, hph', hseq'.symm ▸ hseq, hfn.symm ▸ hcmd⟩
    · exact ⟨call₀, (List.getElem?_set_ne he).trans hc₀, hph, hseq, hcmd⟩
  · intro i c hi
    by_cases he : id = i
    · subst he
      rw [List.getElem?_set_self hlt] at hi
      cases hi
      exact hcall
    · rw [List.getElem?_set_ne he] at hi
      exact (h.calls i c hi).mono Iff.rfl (hsub i)

/-- New calls are made. -/
theorem append (h : HostInv used calls runs checked) {new : List Call}
    (hnew : ∀ c ∈ new, ∃ fn waitTask, c = newCall fn waitTask) : HostInv used (calls ++ new) runs checked := by
  refine ⟨h.nodup, ?_, fun run hmem packet hp => (h.acks run hmem packet hp).append new, ?_⟩
  · intro ncwrbuf hmem
    obtain ⟨call₀, hc₀, hrest⟩ := h.entries ncwrbuf hmem
    exact ⟨call₀, (List.getElem?_append_left (List.getElem?_eq_some_iff.1 hc₀).1).trans hc₀, hrest⟩
  · intro i c hi
    rw [List.getElem?_append] at hi
    split at hi
    · exact h.calls i c hi
    · obtain ⟨fn, waitTask, rfl⟩ := hnew c (List.mem_of_getElem? hi)
      rfl

/-- A command is written. -/
theorem write (h : HostInv used calls runs checked) (hc : calls[id]? = some call) (hpc : call.pc = .write)
    {ncwrbuf : NetcomWrbuf CmdAction} (hout : ncwrbuf.action.cb.outret = id)
    (hseq : ncwrbuf.action.seqno = call.seqno) (hcmd : ncwrbuf.action.cb.cmd = call.fn.cmdset.cmd) :
    HostInv (used ++ [ncwrbuf]) (calls.set id { call with pc := .wait }) runs checked := by
  have hlt : id < calls.length := (List.getElem?_eq_some_iff.1 hc).1
  -- Its entry is the only one with this `outret`.
  have hnot : id ∉ outrets used := by
    intro hmem
    exact h.pending_sent hmem hc (by rw [hpc]; rfl)
  have houts : outrets (used ++ [ncwrbuf]) = outrets used ++ [id] := by simp [outrets, hout]
  have hunsent : call.pc.stage = .unsent := by
    rw [hpc]
    rfl
  refine ⟨?_, ?_, fun run hmem packet hp => (h.acks run hmem packet hp).set hc fun hne => absurd hunsent hne, ?_⟩
  · rw [houts]
    exact List.nodup_append.2 ⟨h.nodup, List.pairwise_singleton _ _, fun a ha b hb hab =>
      hnot (List.mem_singleton.1 hb ▸ hab ▸ ha)⟩
  · intro e hmem
    rcases List.mem_append.1 hmem with hold | hnew
    · obtain ⟨call₀, hc₀, hrest⟩ := h.entries e hold
      have hne : id ≠ e.action.cb.outret := fun he => hnot (he ▸ List.mem_map_of_mem hold)
      exact ⟨call₀, (List.getElem?_set_ne hne).trans hc₀, hrest⟩
    · cases List.mem_singleton.1 hnew
      rw [hout]
      exact ⟨_, List.getElem?_set_self hlt, by simp [Pc.stage], hseq, hcmd⟩
  · intro i c hi
    by_cases he : id = i
    · subst he
      rw [List.getElem?_set_self hlt] at hi
      cases hi
      have hinit := h.calls id call hc
      rw [CallInv, hpc] at hinit
      refine ⟨fun _ => hinit, fun hmem => absurd ?_ hmem⟩
      rw [houts]
      exact List.mem_append_right _ (List.mem_singleton_self id)
    · rw [List.getElem?_set_ne he] at hi
      refine (h.calls i c hi).mono ?_ fun hm => hm
      rw [houts, List.mem_append, List.mem_singleton]
      exact ⟨fun hm => hm.resolve_right (Ne.symm he), .inl⟩

/-- A broadcast changes only what waiting calls do next. -/
theorem signal (h : HostInv used calls runs checked) (task : Nat) :
    HostInv used (calls.map (Call.signal task)) runs checked := by
  have hacks : ∀ run ∈ runs, ∀ packet ∈ run.packet,
      SentAs (calls.map (Call.signal task)) run.outret (seqnoOf packet) := fun run hmem packet hp =>
    (h.acks run hmem packet hp).update (f := fun _ => Call.signal task) (fun i => List.getElem?_map ..)
      fun _ c => ⟨(signal_same task c).1, (signal_same task c).2.2.1⟩
  refine ⟨h.nodup, ?_, hacks, ?_⟩
  · intro ncwrbuf hmem
    obtain ⟨call₀, hc₀, hph, hseq, hcmd⟩ := h.entries ncwrbuf hmem
    obtain ⟨hph', hfn', hseq', -⟩ := signal_same task call₀
    refine ⟨call₀.signal task, ?_, hph' ▸ hph, hseq' ▸ hseq, hfn' ▸ hcmd⟩
    rw [List.getElem?_map, hc₀]
    rfl
  · intro i c hi
    rw [List.getElem?_map] at hi
    obtain ⟨call₀, hc₀, rfl⟩ := Option.map_eq_some_iff.1 hi
    obtain ⟨hph', hfn', hseq', hret'⟩ := signal_same task call₀
    have hcall := h.calls i call₀ hc₀
    unfold CallInv at hcall ⊢
    rw [hph']
    cases hph : call₀.pc.stage with
    | unsent =>
      rw [hph] at hcall
      simpa only [StageInv, hfn', hret'] using hcall
    | waiting =>
      rw [hph] at hcall
      simpa only [StageInv, Acked, hfn', hret', hseq'] using hcall
    | leaving =>
      rw [hph] at hcall
      simpa only [StageInv, Acked, hfn', hret', hseq'] using hcall
    | returned v =>
      rw [hph] at hcall
      simpa only [StageInv, Acked, hfn', hseq'] using hcall

/-- The callback of a command is called and its entry removed. -/
theorem act {l₁ l₂ : List (NetcomWrbuf CmdAction)} {ncwrbuf : NetcomWrbuf CmdAction}
    (h : HostInv (l₁ ++ ncwrbuf :: l₂) calls runs checked) (hfree : ncwrbuf.action.cb.outret ∉ checked)
    {packet : Option (List UInt8)} (hseq : ∀ pkt, packet = some pkt → seqnoOf pkt = ncwrbuf.action.seqno)
    (alloc : Bool) :
    let acted := ncwrbuf.action.cb.actioncb.call alloc ncwrbuf.action.cb.cmd packet
    HostInv (l₁ ++ l₂)
      (calls.modify ncwrbuf.action.cb.outret fun call =>
        { call with retval := acted.outret, out := acted.out.or call.out })
      (runs ++ [⟨ncwrbuf.action.cb.outret, packet⟩]) checked := by
  intro acted
  have houts : outrets (l₁ ++ ncwrbuf :: l₂) = outrets l₁ ++ ncwrbuf.action.cb.outret :: outrets l₂ := by
    simp [outrets]
  have houts' : outrets (l₁ ++ l₂) = outrets l₁ ++ outrets l₂ := by simp [outrets]
  have hnodup := h.nodup
  rw [houts, List.nodup_middle, ← houts', List.nodup_cons] at hnodup
  obtain ⟨hgone, hnodup⟩ := hnodup
  have hpending : ∀ i, ncwrbuf.action.cb.outret ≠ i → (i ∈ outrets (l₁ ++ l₂) ↔ i ∈ outrets (l₁ ++ ncwrbuf :: l₂)) := by
    intro i hne
    rw [houts, houts', List.mem_append, List.mem_append, List.mem_cons]
    exact or_congr_right ⟨.inr, fun hm => hm.resolve_left (Ne.symm hne)⟩
  have hmine : ncwrbuf.action.cb.outret ∈ outrets (l₁ ++ ncwrbuf :: l₂) := by
    rw [houts]
    exact List.mem_append_right _ List.mem_cons_self
  have hmodify : ∀ {i : Nat} {seqno : UInt8}, SentAs calls i seqno → SentAs (calls.modify ncwrbuf.action.cb.outret
      fun call => { call with retval := acted.outret, out := acted.out.or call.out }) i seqno := fun hsent =>
    hsent.update (f := fun i c =>
      if ncwrbuf.action.cb.outret = i then { c with retval := acted.outret, out := acted.out.or c.out } else c)
      (fun i => List.getElem?_modify ..) fun i c => by split <;> exact ⟨rfl, rfl⟩
  refine ⟨hnodup, ?_, ?_, ?_⟩
  · intro e hmem
    have hold : e ∈ l₁ ++ ncwrbuf :: l₂ := by
      rcases List.mem_append.1 hmem with h₁ | h₂
      · exact List.mem_append_left _ h₁
      · exact List.mem_append_right _ (List.mem_cons_of_mem _ h₂)
    obtain ⟨call₀, hc₀, hrest⟩ := h.entries e hold
    have hne : ncwrbuf.action.cb.outret ≠ e.action.cb.outret := fun he => hgone (he ▸ List.mem_map_of_mem hmem)
    refine ⟨call₀, ?_, hrest⟩
    simp [hc₀, hne]
  · intro run hmem pkt hp
    rcases List.mem_append.1 hmem with hold | hnew
    · exact hmodify (h.acks run hold pkt hp)
    · cases List.mem_singleton.1 hnew
      obtain ⟨call₁, hc₁, hph, hseqno, -⟩ := h.entries ncwrbuf (List.mem_append_right _ List.mem_cons_self)
      exact hmodify ⟨call₁, hc₁, hph, (hseq pkt hp).trans hseqno⟩
  · intro i c hi
    rw [List.getElem?_modify] at hi
    obtain ⟨call₀, hc₀, rfl⟩ := Option.map_eq_some_iff.1 hi
    by_cases he : ncwrbuf.action.cb.outret = i
    · subst he
      rw [if_pos rfl]
      obtain ⟨call₁, hc₁, hph, hseqno, hcmd⟩ :=
        h.entries ncwrbuf (List.mem_append_right _ List.mem_cons_self)
      cases hc₀.symm.trans hc₁
      have hcall := (h.calls _ _ hc₀).run ⟨ncwrbuf.action.cb.outret, packet⟩
      unfold CallInv at hcall ⊢
      dsimp only
      cases hp : call₀.pc.stage with
      | unsent => exact absurd hp hph
      | waiting =>
        refine ⟨fun hmem => absurd hmem hgone, fun _ hs => ?_⟩
        obtain ⟨pkt, rfl, hack⟩ := acked_of_success hs
        refine ⟨pkt, List.mem_append_right _ (List.mem_singleton_self _), (hseq pkt rfl).trans hseqno, ?_⟩
        rw [hack, hcmd]
      | leaving =>
        -- It would have looked at `retval` already.
        rw [hp] at hcall
        exact absurd (hcall.1 hmine) hfree
      | returned v =>
        rw [hp] at hcall
        exact hcall
    · rw [if_neg he]
      exact ((h.calls i call₀ hc₀).mono (hpending i he) fun hm => hm).run _

end HostInv

namespace Host.Inv
variable {host host' : Host}

theorem act (host : Host) {l₁ l₂ : List (NetcomWrbuf CmdAction)} {ncwrbuf : NetcomWrbuf CmdAction}
    (h : HostInv (l₁ ++ ncwrbuf :: l₂) host.calls host.runs host.checked) (hused : host.nc.used = l₁ ++ l₂)
    (hfree : ncwrbuf.action.cb.outret ∉ host.checked) {packet : Option (List UInt8)}
    (hseq : ∀ pkt, packet = some pkt → seqnoOf pkt = ncwrbuf.action.seqno) (alloc : Bool) :
    (host.act ncwrbuf.action.cb packet alloc).Inv := by
  have hact := h.act hfree hseq alloc
  rw [← hused] at hact
  simp only [Host.act]
  split
  · exact hact.signal _
  · exact hact

/-- A call looks at `retval` in time. -/
theorem check (h : host.Inv) {id : Nat} {call : Call} (hc : host.calls[id]? = some call) (hpc : call.pc = .check)
    {now : Timespec} {ok : Bool} (ht : host.InTime (.run id now ok)) (hfn : call.fn.Reports)
    (hr : 0 ≤ (call.fn.cmdset.after call.header call.retval call.out).result call.retval) :
    Acked host.runs id call := by
  have hcall := h.calls id call hc
  rw [CallInv, hpc] at hcall
  obtain ⟨hpend, hacked⟩ := hcall
  have hin := ht call hc hpc
  rcases success_of_result hfn hr with hs | ⟨pkt, hq⟩
  · by_cases hmem : id ∈ outrets host.nc.used
    · exact absurd ((hpend hmem).symm.trans hs) (hin.init_ne hfn hmem)
    · exact hacked hmem hs
  · rw [hq] at hin
    obtain ⟨-, run, hmem, rfl, packet, hp, hcmd⟩ := hin
    obtain ⟨call₀, hc₀, -, hseq⟩ := h.acks run hmem packet hp
    cases hc.symm.trans hc₀
    refine ⟨packet, ?_, hseq, hcmd⟩
    rw [← show run.packet = some packet from hp]
    exact hmem

theorem turn (h : host.Inv) {id : Nat} {call : Call} (hc : host.calls[id]? = some call) {now : Timespec} {ok : Bool}
    (ht : host.InTime (.run id now ok)) (hturn : Turn host id call now host') : host'.Inv := by
  have hcall := h.calls id call hc
  have hsub : ∀ i ∈ host.checked, i ∈ host.checked := fun _ hm => hm
  cases hturn with
  | formats hpc =>
    rw [CallInv, hpc] at hcall
    exact h.set hc hsub rfl (fun hne => absurd (by rw [hpc]; rfl) hne) hcall
  | gives nc hpc hused =>
    -- It has sent nothing, and does not report success.
    have hph : call.pc.stage = .unsent := by
      rcases hpc with hpc | hpc <;> (rw [hpc]; rfl)
    have hnot : id ∉ outrets host.nc.used := fun hmem => h.pending_sent hmem hc hph
    unfold Host.Inv
    dsimp only
    rw [hused]
    rw [CallInv, hph] at hcall
    refine h.set hc hsub ?_ (fun hne => absurd hph hne) (.follow (fun hmem => absurd hmem hnot) ?_ 0)
    · unfold Call.follow
      split <;> rfl
    · intro hfn hr
      rw [hcall] at hr
      exact absurd hr (Int.not_le.2 (unsent_result hfn))
  | clears hpc =>
    rw [CallInv, hpc] at hcall
    exact h.set hc hsub rfl (fun hne => absurd (by rw [hpc]; rfl) hne) hcall
  | sends nc slot hpc hused =>
    unfold Host.Inv
    dsimp only
    rw [hused]
    exact h.write hc hpc rfl rfl rfl
  | tests hpc =>
    rw [CallInv, hpc] at hcall
    refine h.set hc hsub rfl (fun _ => ⟨?_, rfl⟩) ?_
    · split <;> simp [Pc.stage]
    · split
      · exact hcall
      · exact hcall
  | wakes hpc =>
    rw [CallInv, hpc] at hcall
    exact h.set hc hsub rfl (fun _ => ⟨by simp [Pc.stage], rfl⟩) hcall
  | restarts signalled hpc =>
    rw [CallInv, hpc] at hcall
    exact h.set hc hsub rfl (fun _ => ⟨by simp [Pc.stage], rfl⟩) hcall
  | looks after hpc hafter =>
    have hreport := h.check hc hpc ht
    rw [← hafter] at hreport
    refine (h.set hc (fun i hm => List.mem_append_left _ hm) ?_ ?_ (.follow ?_ hreport _)).append (beepCalls_new _ _)
    · unfold Call.follow
      split <;> rfl
    · intro _
      unfold Call.follow
      split
      · simp [Pc.stage]
      · split <;> simp [Pc.stage]
    · exact fun _ => List.mem_append_right _ (List.mem_singleton_self id)
  | rests child hpc =>
    rw [CallInv, hpc] at hcall
    exact h.set hc hsub rfl (fun _ => ⟨by simp [Pc.stage], rfl⟩) hcall
  | returns hpc =>
    rw [CallInv, hpc] at hcall
    exact h.set hc hsub rfl (fun _ => ⟨by simp [Pc.stage], rfl⟩) hcall.2

/-- A callback is called for a call that has not looked yet. -/
theorem free {ev : HostEv} (ht : host.InTime ev) {ncwrbuf : NetcomWrbuf CmdAction} {packet : Option (List UInt8)}
    (hcomp : host.completion ev = some (ncwrbuf, packet)) : ncwrbuf.action.cb.outret ∉ host.checked := by
  cases ev with
  | ack pkt alloc =>
    simp only [Host.completion] at hcomp
    split at hcomp
    · obtain ⟨found, hfind, heq⟩ := Option.map_eq_some_iff.1 hcomp
      cases heq
      exact ht _ hfind
    · cases hcomp
  | expire now =>
    obtain ⟨found, hexp, heq⟩ := Option.map_eq_some_iff.1 hcomp
    cases heq
    exact ht _ hexp
  | call | run | wakeup | chgstat | link => cases hcomp

/-- One step. -/
theorem step (h : host.Inv) {ev : HostEv} (ht : host.InTime ev) (hstep : host.step ev = some host') : host'.Inv := by
  cases step_cases hstep with
  | called fn waitTask => exact h.append fun c hmem => ⟨fn, waitTask, List.mem_singleton.1 hmem⟩
  | turned id call now ok hc hturn => exact h.turn hc ht hturn
  | acts nc l₁ l₂ ncwrbuf packet hcomp hused hused' hseq =>
    unfold Host.Inv at h
    rw [hused] at h
    exact act { host with nc := nc } h hused' (free ht hcomp) hseq ev.alloc
  | signals task => exact h.signal task
  | keeps nc task hev hused =>
    unfold Host.Inv at h ⊢
    dsimp only
    rw [hused]
    exact h

end Host.Inv

/-- In every run in which callbacks come in time, a function that returns no
negative value has had its command acknowledged: the callback has run, without
`timedout`, on a packet with the number of the command and the expected `cmd`. -/
theorem returned_success_acked (evs : List HostEv) (host : Host) (hrun : exec Host.step Host.init evs = some host)
    (hintime : Along Host.step Host.InTime Host.init evs) (id : Nat) (call : Call) (v : Int)
    (hcall : host.calls[id]? = some call) (hfn : call.fn.Reports) (hret : call.pc = .returned v) (hv : 0 ≤ v) :
    Acked host.runs id call := by
  have hinv : host.Inv := exec_inv (fun _ _ _ hs hok hst => hs.step hok hst) Host.init_inv hintime hrun
  have h := hinv.calls id call hcall
  rw [CallInv, hret] at h
  exact h hfn hv

/-- The acknowledgement comes while `l0006_cmdset_setwindowsize` waits. -/
def ackedRun : List HostEv :=
  .link true (some 0) :: .call (.setwindowsize 1) 0 :: List.replicate 4 (.run 0 ⟨0, 0⟩ true) ++
    [.ack (l0006NetcmdFormat l0006NetcmdWinsizeack 0 0 0) true, .run 0 ⟨1, 0⟩ true, .run 0 ⟨1, 0⟩ true]

theorem returned_success_acked_window : ∃ host call, exec Host.step Host.init ackedRun = some host ∧
    host.calls[0]? = some call ∧ call.pc = .returned 0 ∧ Acked host.runs 0 call := by
  have hend : (exec Host.step Host.init ackedRun).any fun host =>
      (host.calls[0]?).any fun call => call.fn.Reports ∧ call.pc = .returned 0 := by decide +kernel
  obtain ⟨host, hrun, hhost⟩ := (Option.any_eq_true _ _).1 hend
  obtain ⟨call, hcall, hdone⟩ := (Option.any_eq_true _ _).1 hhost
  obtain ⟨hfn, hret⟩ := of_decide_eq_true hdone
  exact ⟨host, call, hrun, hcall, hret,
    returned_success_acked ackedRun host hrun (by decide +kernel) 0 call 0 hcall hfn hret (Int.le_refl 0)⟩

/-- The task is aborted when `l0006_cmdset_setwindowsize` has sent its command. It
returns 0 with no callback called. -/
theorem success_unacked : ∃ host call,
    exec Host.step Host.init
      (.link true (some 0) :: .call (.setwindowsize 1) 0 :: List.replicate 3 (.run 0 ⟨0, 0⟩ true) ++
        [.chgstat 0 taskAbort, .run 0 ⟨0, 0⟩ true, .run 0 ⟨0, 0⟩ true]) = some host ∧
      host.calls[0]? = some call ∧ call.fn.Reports ∧ call.pc = .returned 0 ∧ ¬ Acked host.runs 0 call := by
  have hend : (exec Host.step Host.init
      (.link true (some 0) :: .call (.setwindowsize 1) 0 :: List.replicate 3 (.run 0 ⟨0, 0⟩ true) ++
        [.chgstat 0 taskAbort, .run 0 ⟨0, 0⟩ true, .run 0 ⟨0, 0⟩ true])).any fun host =>
      (host.calls[0]?).any fun call => call.fn.Reports ∧ call.pc = .returned 0 ∧ host.runs = [] := by decide +kernel
  obtain ⟨host, hrun, hhost⟩ := (Option.any_eq_true _ _).1 hend
  obtain ⟨call, hcall, hdone⟩ := (Option.any_eq_true _ _).1 hhost
  obtain ⟨hfn, hret, hruns⟩ := of_decide_eq_true hdone
  refine ⟨host, call, hrun, hcall, hfn, hret, ?_⟩
  rintro ⟨packet, hmem, -⟩
  rw [hruns] at hmem
  cases hmem

end CmdAgent
