import CmdAgent.Acked
import CmdAgent.Completion
/-!
# The answers to queries

An acknowledgement reaches its sender through `*outret` and, for two of the callbacks,
through `out[1]`. A call whose callback has run before it looks at `retval` returns what
its function makes of these two, and for `l0006_cmdset_querymode` the packet it gives its
caller is the one it has sent.
-/
open StreamLib.Runs StreamLib.Mem

namespace CmdAgent

/-! ## What a call does by itself -/

/-- A step of a call, and of nothing else. -/
inductive Progress (call : Call) : Call → Prop
  | prepares (seqno : UInt8) (tsStart : Timespec) (pc : Pc) : call.pc.stage = .unsent → pc.stage = .unsent →
      Progress call { call with seqno := seqno, tsStart := tsStart, pc := pc }
  | gives : call.pc.stage = .unsent → Progress call (call.follow 0 call.fn.cmdset.unsent)
  | sends : call.pc = .write → Progress call { call with pc := .wait }
  | waits (pc : Pc) : call.pc.stage = .waiting → pc.stage = .waiting → Progress call { call with pc := pc }
  | looks (child : Nat) : call.pc = .check →
      Progress call (call.follow child (call.fn.cmdset.after call.header call.retval call.out))
  | rests (child : Nat) : call.pc = .beeping child → Progress call { call with pc := .ret }
  | returns : call.pc = .ret → Progress call { call with pc := .returned call.retval }

/-- The entry of the command of a call. -/
def CmdAction.Of (cb : CmdAction) (id : Nat) (call : Call) : Prop :=
  cb.outret = id ∧ cb.cmd = call.fn.cmdset.cmd ∧ cb.actioncb = call.fn.cmdset.actioncb

/-- A turn is a step of the call, with the calls and the command it adds. -/
theorem Turn.progress {host host' : Host} {id : Nat} {call : Call} {now : Timespec}
    (h : Turn host id call now host') : ∃ call' new, Progress call call' ∧
      host'.calls = host.calls.set id call' ++ new ∧ (∀ c ∈ new, ∃ fn waitTask, c = newCall fn waitTask) ∧
      (host'.nc.used = host.nc.used ∨ call.pc = .write ∧ call' = { call with pc := .wait } ∧
        ∃ ncwrbuf, host'.nc.used = host.nc.used ++ [ncwrbuf] ∧ ncwrbuf.action.cb.Of id call) := by
  have hnew : ∀ c ∈ ([] : List Call), ∃ fn waitTask, c = newCall fn waitTask :=
    fun c hmem => absurd hmem List.not_mem_nil
  cases h with
  | formats hpc =>
    exact ⟨_, [], .prepares _ now .wakeupclear (by rw [hpc]; rfl) rfl, (List.append_nil _).symm, hnew, .inl rfl⟩
  | gives nc hpc hused =>
    have hunsent : call.pc.stage = .unsent := by
      rcases hpc with hpc | hpc <;> (rw [hpc]; rfl)
    exact ⟨_, [], .gives hunsent, (List.append_nil _).symm, hnew, .inl hused⟩
  | clears hpc =>
    exact ⟨_, [], .prepares call.seqno call.tsStart .write (by rw [hpc]; rfl) rfl, (List.append_nil _).symm, hnew,
      .inl rfl⟩
  | sends nc slot hpc hused =>
    exact ⟨_, [], .sends hpc, (List.append_nil _).symm, hnew, .inr ⟨hpc, rfl, _, hused, rfl, rfl, rfl⟩⟩
  | tests hpc =>
    refine ⟨_, [], .waits _ (by rw [hpc]; rfl) ?_, (List.append_nil _).symm, hnew, .inl rfl⟩
    split <;> rfl
  | wakes hpc => exact ⟨_, [], .waits .check (by rw [hpc]; rfl) rfl, (List.append_nil _).symm, hnew, .inl rfl⟩
  | restarts signalled hpc =>
    exact ⟨_, [], .waits .wait (by rw [hpc]; rfl) rfl, (List.append_nil _).symm, hnew, .inl rfl⟩
  | looks after hpc hafter =>
    subst hafter
    exact ⟨_, _, .looks _ hpc, rfl, beepCalls_new _ _, .inl rfl⟩
  | rests child hpc => exact ⟨_, [], .rests child hpc, (List.append_nil _).symm, hnew, .inl rfl⟩
  | returns hpc => exact ⟨_, [], .returns hpc, (List.append_nil _).symm, hnew, .inl rfl⟩

/-! ## Commands and their calls -/

theorem follow_stage (call : Call) (child : Nat) (after : After) :
    (call.follow child after).pc.stage ≠ .unsent ∧ (call.follow child after).pc.stage ≠ .waiting := by
  unfold Call.follow
  split
  · exact ⟨by simp [Pc.stage], by simp [Pc.stage]⟩
  · dsimp only
    split <;> exact ⟨by simp [Pc.stage], by simp [Pc.stage]⟩

namespace Progress
variable {call call' : Call}

theorem fn_eq (h : Progress call call') : call'.fn = call.fn := by
  cases h with
  | prepares => rfl
  | gives => exact (follow_frame call 0 _).1
  | sends => rfl
  | waits => rfl
  | looks child => exact (follow_frame call child _).1
  | rests => rfl
  | returns => rfl

theorem of_unsent (h : Progress call call') (hs : call'.pc.stage = .unsent) :
    call.pc.stage = .unsent ∧ call'.out = call.out := by
  cases h with
  | prepares seqno tsStart pc hpc => exact ⟨hpc, rfl⟩
  | gives => exact absurd hs (follow_stage call 0 _).1
  | sends => cases hs
  | waits pc _ hpc => rw [hpc] at hs; cases hs
  | looks child => exact absurd hs (follow_stage call child _).1
  | rests => cases hs
  | returns => cases hs

theorem of_sent (h : Progress call call') (hs : call.pc.stage ≠ .unsent) : call'.pc.stage ≠ .unsent ∧
    (call'.pc.stage = .waiting → call.pc.stage = .waiting ∧ call'.out = call.out) := by
  cases h with
  | prepares seqno tsStart pc hpc => exact absurd hpc hs
  | gives hpc => exact absurd hpc hs
  | sends hpc => exact absurd (by rw [hpc]; rfl) hs
  | waits pc hold hpc => exact ⟨by simp [hpc], fun _ => ⟨hold, rfl⟩⟩
  | looks child => exact ⟨(follow_stage call child _).1, fun hw => absurd hw (follow_stage call child _).2⟩
  | rests => exact ⟨by simp [Pc.stage], fun hw => by cases hw⟩
  | returns => exact ⟨by simp [Pc.stage], fun hw => by cases hw⟩

end Progress

/-- What the callback of a command does to the call `i`. -/
theorem act_call (host : Host) {i : Nat} {call : Call} (hc : host.calls[i]? = some call) (cb : CmdAction)
    (packet : Option (List UInt8)) (alloc : Bool) : ∃ pc : Pc, pc.stage = call.pc.stage ∧
      (host.act cb packet alloc).calls[i]? = some { call with
        pc := pc
        retval := if cb.outret = i then (cb.actioncb.call alloc cb.cmd packet).outret else call.retval
        out := if cb.outret = i then (cb.actioncb.call alloc cb.cmd packet).out.or call.out else call.out } := by
  unfold Host.act
  dsimp only
  split
  · simp only [Host.wakeup, List.getElem?_map, List.getElem?_modify, hc]
    split
    · obtain ⟨pc, hpc, heq⟩ := signal_eq cb.wait { call with
        retval := (cb.actioncb.call alloc cb.cmd packet).outret
        out := (cb.actioncb.call alloc cb.cmd packet).out.or call.out }
      exact ⟨pc, hpc, congrArg some heq⟩
    · obtain ⟨pc, hpc, heq⟩ := signal_eq cb.wait call
      exact ⟨pc, hpc, congrArg some heq⟩
  · refine ⟨call.pc, rfl, ?_⟩
    simp only [List.getElem?_modify, hc]
    split <;> rfl

theorem act_calls_length (host : Host) (cb : CmdAction) (packet : Option (List UInt8)) (alloc : Bool) :
    (host.act cb packet alloc).calls.length = host.calls.length := by
  unfold Host.act
  dsimp only
  split <;> simp [Host.wakeup]

/-- An entry is that of a call that has sent its command, the only one of this call, and
nothing has been stored for a call before its callback runs. -/
structure Host.Tracked (host : Host) : Prop where
  nodup : (outrets host.nc.used).Nodup
  entries : ∀ ncwrbuf ∈ host.nc.used, ∃ call, host.calls[ncwrbuf.action.cb.outret]? = some call ∧
    call.pc.stage ≠ .unsent ∧ ncwrbuf.action.cb.Of ncwrbuf.action.cb.outret call ∧
    (call.pc.stage = .waiting → call.out = none)
  unsent : ∀ (id : Nat) (call : Call), host.calls[id]? = some call → call.pc.stage = .unsent → call.out = none

theorem Host.init_tracked : Host.init.Tracked where
  nodup := List.nodup_nil
  entries := by intro ncwrbuf hmem; cases hmem
  unsent := by intro id call hc; cases hc

/-- Where the calls of `calls.set id call' ++ new` come from. -/
theorem getElem?_turn {calls new : List Call} {id i : Nat} {call call' c : Call} (hc : calls[id]? = some call)
    (h : (calls.set id call' ++ new)[i]? = some c) : i = id ∧ c = call' ∨ i ≠ id ∧ calls[i]? = some c ∨ c ∈ new := by
  rw [List.getElem?_append] at h
  split at h
  · by_cases he : id = i
    · subst he
      rw [List.getElem?_set_self (List.getElem?_eq_some_iff.1 hc).1] at h
      exact .inl ⟨rfl, (Option.some.inj h).symm⟩
    · rw [List.getElem?_set_ne he] at h
      exact .inr (.inl ⟨fun hi => he hi.symm, h⟩)
  · exact .inr (.inr (List.mem_of_getElem? h))

theorem getElem?_turn_self {calls : List Call} {id : Nat} {call : Call} (hc : calls[id]? = some call) (call' : Call)
    (new : List Call) : (calls.set id call' ++ new)[id]? = some call' := by
  have hlt : id < calls.length := (List.getElem?_eq_some_iff.1 hc).1
  rw [List.getElem?_append_left (by simpa using hlt), List.getElem?_set_self hlt]

theorem getElem?_turn_ne {calls : List Call} {id i : Nat} {c : Call} (hc : calls[i]? = some c) (hne : id ≠ i)
    (call' : Call) (new : List Call) : (calls.set id call' ++ new)[i]? = some c := by
  have hlt : i < calls.length := (List.getElem?_eq_some_iff.1 hc).1
  rw [List.getElem?_append_left (by simpa using hlt), List.getElem?_set_ne hne, hc]

namespace Host.Tracked
variable {host host' : Host}

theorem turn (h : host.Tracked) {id : Nat} {call call' : Call} {new : List Call} (hc : host.calls[id]? = some call)
    (hprogress : Progress call call') (hcalls : host'.calls = host.calls.set id call' ++ new)
    (hnew : ∀ c ∈ new, ∃ fn waitTask, c = newCall fn waitTask)
    (hused : host'.nc.used = host.nc.used ∨ call.pc = .write ∧ call' = { call with pc := .wait } ∧
      ∃ ncwrbuf, host'.nc.used = host.nc.used ++ [ncwrbuf] ∧ ncwrbuf.action.cb.Of id call) : host'.Tracked := by
  have hold : ∀ ncwrbuf ∈ host.nc.used, ∃ c, host'.calls[ncwrbuf.action.cb.outret]? = some c ∧
      c.pc.stage ≠ .unsent ∧ ncwrbuf.action.cb.Of ncwrbuf.action.cb.outret c ∧
        (c.pc.stage = .waiting → c.out = none) := by
    intro ncwrbuf hmem
    obtain ⟨c, hc₀, hsent, ⟨hout, hcmd, hcb⟩, hnone⟩ := h.entries ncwrbuf hmem
    rw [hcalls]
    by_cases he : id = ncwrbuf.action.cb.outret
    · subst he
      cases hc.symm.trans hc₀
      obtain ⟨hsent', hwait⟩ := hprogress.of_sent hsent
      refine ⟨call', getElem?_turn_self hc call' new, hsent', ⟨hout, hprogress.fn_eq ▸ hcmd, hprogress.fn_eq ▸ hcb⟩,
        fun hw => ?_⟩
      obtain ⟨hwaiting, hout'⟩ := hwait hw
      rw [hout', hnone hwaiting]
    · exact ⟨c, getElem?_turn_ne hc₀ he call' new, hsent, ⟨hout, hcmd, hcb⟩, hnone⟩
  constructor
  case nodup =>
    rcases hused with hsame | ⟨hpc, -, ncwrbuf, happ, hout, -⟩
    · rw [hsame]
      exact h.nodup
    · have hnot : id ∉ outrets host.nc.used := by
        intro hmem
        obtain ⟨e, he, rfl⟩ := List.mem_map.1 hmem
        obtain ⟨c, hc₀, hsent, -⟩ := h.entries e he
        cases hc.symm.trans hc₀
        exact hsent (by rw [hpc]; rfl)
      have houts : outrets host'.nc.used = outrets host.nc.used ++ [id] := by simp [happ, outrets, hout]
      rw [houts]
      exact List.nodup_append.2 ⟨h.nodup, List.pairwise_singleton _ _, fun a ha b hb hab =>
        hnot (List.mem_singleton.1 hb ▸ hab ▸ ha)⟩
  case entries =>
    intro e hmem
    rcases hused with hsame | ⟨hpc, rfl, ncwrbuf, happ, hof⟩
    · exact hold e (hsame ▸ hmem)
    · rw [happ] at hmem
      rcases List.mem_append.1 hmem with hmem | hmem
      · exact hold e hmem
      · cases List.mem_singleton.1 hmem
        obtain ⟨rfl, hcmd, hcb⟩ := hof
        refine ⟨{ call with pc := .wait }, ?_, by simp [Pc.stage], ⟨rfl, hcmd, hcb⟩, fun _ => ?_⟩
        · rw [hcalls, getElem?_turn_self hc]
        · exact h.unsent _ call hc (by rw [hpc]; rfl)
  case unsent =>
    intro i c hi hs
    rw [hcalls] at hi
    rcases getElem?_turn hc hi with ⟨-, rfl⟩ | ⟨-, hi⟩ | hmem
    · obtain ⟨hun, hout⟩ := hprogress.of_unsent hs
      rw [hout, h.unsent id call hc hun]
    · exact h.unsent i c hi hs
    · obtain ⟨fn, waitTask, rfl⟩ := hnew c hmem
      rfl

theorem acts (h : host.Tracked) {l₁ l₂ : List (NetcomWrbuf CmdAction)} {ncwrbuf : NetcomWrbuf CmdAction}
    {nc : Netcom CmdAction} (packet : Option (List UInt8)) (alloc : Bool) (hused : host.nc.used = l₁ ++ ncwrbuf :: l₂)
    (hused' : nc.used = l₁ ++ l₂) : ncwrbuf.action.cb.outret ∉ outrets nc.used ∧
      ({ host with nc := nc }.act ncwrbuf.action.cb packet alloc).Tracked := by
  have houts : outrets host.nc.used = outrets l₁ ++ ncwrbuf.action.cb.outret :: outrets l₂ := by simp [hused, outrets]
  have houts' : outrets nc.used = outrets l₁ ++ outrets l₂ := by simp [hused', outrets]
  have hnodup := h.nodup
  rw [houts, List.nodup_middle, ← houts', List.nodup_cons] at hnodup
  refine ⟨hnodup.1, ?_⟩
  constructor
  case nodup =>
    rw [act_nc]
    exact hnodup.2
  case entries =>
    intro e hmem
    rw [act_nc] at hmem
    have hold : e ∈ host.nc.used := by
      rw [hused]
      rw [hused'] at hmem
      exact (List.sublist_cons_self ncwrbuf l₂).append_left l₁ |>.subset hmem
    have hne : ncwrbuf.action.cb.outret ≠ e.action.cb.outret := fun he => hnodup.1 (he ▸ List.mem_map_of_mem hmem)
    obtain ⟨c, hc, hsent, ⟨hout, hcmd, hcb⟩, hnone⟩ := h.entries e hold
    obtain ⟨pc, hpc, hc'⟩ := act_call { host with nc := nc } hc ncwrbuf.action.cb packet alloc
    rw [if_neg hne, if_neg hne] at hc'
    exact ⟨_, hc', by rw [hpc]; exact hsent, ⟨hout, hcmd, hcb⟩, fun hw => hnone (hpc ▸ hw)⟩
  case unsent =>
    intro i c hi hs
    have hlt := (List.getElem?_eq_some_iff.1 hi).1
    rw [act_calls_length] at hlt
    have hc := List.getElem?_eq_getElem hlt
    obtain ⟨pc, hpc, hc'⟩ := act_call { host with nc := nc } hc ncwrbuf.action.cb packet alloc
    cases hi.symm.trans hc'
    -- The callback is not that of a call without an entry.
    have hun : (host.calls[i]).pc.stage = .unsent := hpc ▸ hs
    have hne : ncwrbuf.action.cb.outret ≠ i := by
      rintro rfl
      obtain ⟨c, hc₀, hsent, -⟩ := h.entries ncwrbuf (by rw [hused]; simp)
      cases hc.symm.trans hc₀
      exact hsent hun
    dsimp only
    rw [if_neg hne]
    exact h.unsent i _ hc hun

/-- Each call keeps its place, its stage and what is stored for it. -/
theorem same (h : host.Tracked) {f : Call → Call} (hf : ∀ c, ∃ pc : Pc, pc.stage = c.pc.stage ∧ f c = { c with pc := pc })
    (hcalls : host'.calls = host.calls.map f) (hused : host'.nc.used = host.nc.used) : host'.Tracked := by
  refine ⟨hused ▸ h.nodup, fun e hmem => ?_, fun i c hi hs => ?_⟩
  · obtain ⟨c, hc, hsent, hof, hnone⟩ := h.entries e (hused ▸ hmem)
    obtain ⟨pc, hpc, heq⟩ := hf c
    refine ⟨f c, by rw [hcalls, List.getElem?_map, hc]; rfl, ?_⟩
    rw [heq]
    exact ⟨by rw [hpc]; exact hsent, hof, fun hw => hnone (hpc ▸ hw)⟩
  · rw [hcalls, List.getElem?_map] at hi
    obtain ⟨c, hc, rfl⟩ := Option.map_eq_some_iff.1 hi
    obtain ⟨pc, hpc, heq⟩ := hf c
    rw [heq] at hs ⊢
    exact h.unsent i c hc (hpc ▸ hs)

theorem step (h : host.Tracked) {ev : HostEv} (hstep : host.step ev = some host') : host'.Tracked := by
  cases step_cases hstep with
  | called fn waitTask =>
    refine ⟨h.nodup, fun e hmem => ?_, fun i c hi hs => ?_⟩
    · obtain ⟨c, hc, hrest⟩ := h.entries e hmem
      exact ⟨c, (List.getElem?_append_left (List.getElem?_eq_some_iff.1 hc).1).trans hc, hrest⟩
    · rw [List.getElem?_append] at hi
      split at hi
      · exact h.unsent i c hi hs
      · cases List.mem_singleton.1 (List.mem_of_getElem? hi)
        rfl
  | turned id call now ok hc hturn =>
    obtain ⟨call', new, hprogress, hcalls, hnew, hused⟩ := hturn.progress
    exact h.turn hc hprogress hcalls hnew hused
  | acts nc l₁ l₂ ncwrbuf packet hcomp hused hused' => exact (h.acts packet ev.alloc hused hused').2
  | signals task => exact h.same (signal_eq task) rfl rfl
  | keeps nc task hev hused => exact h.same (fun c => ⟨c.pc, rfl, rfl⟩) (List.map_id' _).symm hused

end Host.Tracked

/-! ## After the callback -/

/-- What the branch stores for the caller. -/
def After.stored (after : After) (out : Option (List UInt8)) : Option (List UInt8) :=
  match after with
  | .value _ pkt => pkt.or out
  | .retval _ _ => out

/-- The callback has set `retval` and stored `out` before the call looks at them. -/
def Call.Settled (netcmd : List UInt8) (retval : Int) (out : Option (List UInt8)) (call : Call) : Prop :=
  match call.pc.stage with
  | .unsent => False
  | .waiting => call.header = netcmd ∧ call.retval = retval ∧ call.out = out
  | .leaving => call.retval = (call.fn.cmdset.after netcmd retval out).result retval ∧
      call.out = (call.fn.cmdset.after netcmd retval out).stored out
  | .returned v => v = (call.fn.cmdset.after netcmd retval out).result retval ∧
      call.out = (call.fn.cmdset.after netcmd retval out).stored out

/-- The call `id` of `fn` is settled, and its callback does not come again. -/
def Host.Settled (id : Nat) (fn : CmdsetFn) (netcmd : List UInt8) (retval : Int) (out : Option (List UInt8))
    (host : Host) : Prop :=
  id ∉ outrets host.nc.used ∧ ∃ call, host.calls[id]? = some call ∧ call.fn = fn ∧ call.Settled netcmd retval out

section
variable {host host' : Host} {id : Nat} {fn : CmdsetFn} {netcmd : List UInt8} {retval : Int} {out : Option (List UInt8)}
  {call call' : Call}

theorem settled_waiting (hs : call.pc.stage = .waiting) :
    call.Settled netcmd retval out ↔ call.header = netcmd ∧ call.retval = retval ∧ call.out = out := by
  rw [Call.Settled, hs]

theorem settled_follow (call : Call) (child : Nat) (netcmd : List UInt8) :
    (call.follow child (call.fn.cmdset.after netcmd call.retval call.out)).Settled netcmd call.retval call.out := by
  generalize hafter : call.fn.cmdset.after netcmd call.retval call.out = after
  cases after with
  | value v pkt =>
    simp only [Call.Settled, Call.follow, Pc.stage, hafter]
    exact ⟨rfl, rfl⟩
  | retval store beep =>
    cases beep with
    | none =>
      simp only [Call.Settled, Call.follow, Pc.stage, hafter]
      exact ⟨rfl, rfl⟩
    | some b =>
      simp only [Call.Settled, Call.follow, Pc.stage, hafter]
      exact ⟨rfl, rfl⟩

/-- What the call itself does next. -/
theorem Call.Settled.turn (h : call.Settled netcmd retval out) (hprogress : Progress call call') :
    call'.Settled netcmd retval out := by
  cases hprogress with
  | prepares seqno tsStart pc hpc => rw [Call.Settled, hpc] at h; exact h.elim
  | gives hpc => rw [Call.Settled, hpc] at h; exact h.elim
  | sends hpc => rw [Call.Settled, hpc] at h; exact h.elim
  | waits pc hold hpc =>
    rw [settled_waiting hold] at h
    exact (settled_waiting hpc).2 h
  | looks child hpc =>
    obtain ⟨hheader, hretval, hout⟩ := (settled_waiting (by rw [hpc]; rfl)).1 h
    subst hheader hretval hout
    exact settled_follow call child _
  | rests child hpc =>
    rw [Call.Settled, hpc] at h
    exact h
  | returns hpc =>
    rw [Call.Settled, hpc] at h
    exact h

theorem Host.Settled.step (h : host.Settled id fn netcmd retval out) {ev : HostEv} (hstep : host.step ev = some host') :
    host'.Settled id fn netcmd retval out := by
  obtain ⟨hgone, call, hc, hfn, hset⟩ := h
  cases step_cases hstep with
  | called fn' waitTask =>
    exact ⟨hgone, call, (List.getElem?_append_left (List.getElem?_eq_some_iff.1 hc).1).trans hc, hfn, hset⟩
  | turned i caller now ok hi hturn =>
    obtain ⟨call', new, hprogress, hcalls, -, hused⟩ := hturn.progress
    refine ⟨?_, ?_⟩
    · rcases hused with hsame | ⟨hpc, -, ncwrbuf, happ, hout, -⟩
      · rw [hsame]
        exact hgone
      · -- It is another call that sends its command.
        have hne : i ≠ id := by
          rintro rfl
          cases hc.symm.trans hi
          rw [Call.Settled, hpc] at hset
          exact hset
        rw [happ]
        simp only [outrets, List.map_append, List.map_cons, List.map_nil, List.mem_append, List.mem_singleton, hout]
        rintro (hmem | he)
        · exact hgone hmem
        · exact hne he.symm
    · by_cases he : i = id
      · subst he
        cases hc.symm.trans hi
        exact ⟨_, hcalls ▸ getElem?_turn_self hc _ new, hprogress.fn_eq.trans hfn, hset.turn hprogress⟩
      · exact ⟨call, hcalls ▸ getElem?_turn_ne hc he _ new, hfn, hset⟩
  | acts nc l₁ l₂ ncwrbuf packet hcomp hused hused' =>
    have hne : ncwrbuf.action.cb.outret ≠ id := by
      rintro rfl
      exact hgone (by simp [hused, outrets])
    obtain ⟨pc, hpc, hc'⟩ := act_call { host with nc := nc } hc ncwrbuf.action.cb packet ev.alloc
    rw [if_neg hne, if_neg hne] at hc'
    refine ⟨?_, _, hc', hfn, ?_⟩
    · rw [act_nc]
      intro hmem
      apply hgone
      simp only [hused, hused', outrets, List.map_append, List.map_cons, List.mem_append, List.mem_cons] at hmem ⊢
      rcases hmem with hmem | hmem
      · exact .inl hmem
      · exact .inr (.inr hmem)
    · unfold Call.Settled at hset ⊢
      dsimp only
      rw [hpc]
      exact hset
  | signals task =>
    obtain ⟨pc, hpc, heq⟩ := signal_eq task call
    refine ⟨hgone, call.signal task, by simp [Host.wakeup, hc], ?_⟩
    rw [heq]
    refine ⟨hfn, ?_⟩
    unfold Call.Settled at hset ⊢
    dsimp only
    rw [hpc]
    exact hset
  | keeps nc task hev hused => exact ⟨hused ▸ hgone, call, hc, hfn, hset⟩

end

/-- A call whose command is acknowledged before it looks at `retval` returns what its
function makes of what the callback has set and stored. -/
theorem returned_of_acked {host host' : Host} (htracked : host.Tracked) {id : Nat} {call call' : Call}
    (hc : host.calls[id]? = some call) (hwait : call.pc.stage = .waiting) {ncwrbuf : NetcomWrbuf CmdAction}
    {packet : List UInt8}
    (hfind : host.nc.used.find? (fun ncwrbuf => ncwrbuf.action.seqno == seqnoOf packet) = some ncwrbuf)
    (hout : ncwrbuf.action.cb.outret = id) {alloc : Bool} {evs : List HostEv}
    (hrun : exec Host.step host (.ack packet alloc :: evs) = some host') (hc' : host'.calls[id]? = some call') {v : Int}
    (hret : call'.pc = .returned v) :
    let acted := call.fn.cmdset.actioncb.call alloc call.fn.cmdset.cmd (some packet)
    let after := call.fn.cmdset.after call.header acted.outret acted.out
    call'.fn = call.fn ∧ v = after.result acted.outret ∧ call'.out = after.stored acted.out := by
  intro acted after
  obtain ⟨mid, hstep, hrest⟩ := exec_cons_eq_some.1 hrun
  have hset : mid.Settled id call.fn call.header acted.outret acted.out := by
    simp only [Host.step] at hstep
    split at hstep
    · simp only [hfind] at hstep
      cases hstep
      obtain ⟨-, l₁, l₂, hused, hused'⟩ := lookup_used hfind packet
      obtain ⟨hgone, -⟩ := htracked.acts (some packet) alloc hused hused'
      obtain ⟨c, hc₀, -, ⟨-, hcmd, hcb⟩, hnone⟩ := htracked.entries ncwrbuf (List.mem_of_find?_eq_some hfind)
      subst hout
      cases hc.symm.trans hc₀
      obtain ⟨pc, hpc, hacted⟩ := act_call
        { host with nc := netcomLookup host.nc (seqnoOf packet) packet } hc ncwrbuf.action.cb (some packet) alloc
      rw [if_pos rfl, if_pos rfl, hcmd, hcb, hnone hwait, Option.or_none] at hacted
      refine ⟨by rw [act_nc]; exact hgone, _, hacted, rfl, ?_⟩
      exact (settled_waiting (hpc.trans hwait)).2 ⟨rfl, rfl, rfl⟩
    · cases hstep
  obtain ⟨-, c, hc₀, hfn, hend⟩ := exec_inv_all (fun _ _ _ hs hst => hs.step hst) hset hrest
  cases hc'.symm.trans hc₀
  rw [Call.Settled, hret, hfn] at hend
  exact ⟨hfn, hend⟩

/-! ## Queries -/

/-- The data of a SAVECONFACK. -/
def ackData (packet : List UInt8) : List UInt8 := (packet.drop 10).take (packet.getD 9 0).toNat

/-- `*config`: 64 bytes from `zmalloc` with what the callback has copied to them. -/
def configOf (out : Option (List UInt8)) : List UInt8 := slice (store (fun _ => 0) 0 (out.getD [])) 0 64

/-- The caller of a query gets what the acknowledgement says: in `out`, or as the result
`v`. `*rdsz` is not written. -/
def CmdsetFn.Answers (fn : CmdsetFn) (packet : List UInt8) (v : Int) (out : Option (List UInt8)) : Prop :=
  match fn with
  | .querymode pkt => pkt = true → out = some (packet.take l0006NetcmdHeaderSize)
  | .hardwareversion _ _ => v = (packet.getD 4 0).toNat
  | .loadSensorconfig _ _ _ rdsz _ =>
    (configOf out).take (ackData packet).length = ackData packet ∧ rdsz.toNat = (ackData packet).length
  | _ => True

/-- The packet is not wanted, it has been copied or the version is 0 anyway, the data has
been copied or is zero anyway and `*rdsz` was right before. -/
def CmdsetFn.Brings (fn : CmdsetFn) (alloc : Bool) (packet : List UInt8) : Prop :=
  match fn with
  | .querymode pkt => pkt = false
  | .hardwareversion _ _ => alloc = true ∨ packet.getD 4 0 = 0
  | .loadSensorconfig _ _ _ rdsz _ => rdsz.toNat = (ackData packet).length ∧
      (packet.getD 8 0 = l0006NetcmdSaveconfFlagSuccess ∧ packet.getD 9 0 < 64 ∨ ∀ b ∈ ackData packet, b = 0)
  | _ => True

instance (packet : List UInt8) (v : Int) (out : Option (List UInt8)) :
    (fn : CmdsetFn) → Decidable (fn.Answers packet v out)
  | .querymode _ => inferInstanceAs (Decidable (_ = true → out = some _))
  | .hardwareversion .. => inferInstanceAs (Decidable (v = _))
  | .loadSensorconfig .. => inferInstanceAs (Decidable (_ ∧ _))
  | .saveSensorconfig .. | .beep .. | .setwindowsize _ | .setaddressmode | .setnormmode | .recovercboard _ =>
    .isTrue trivial

instance (alloc : Bool) (packet : List UInt8) : (fn : CmdsetFn) → Decidable (fn.Brings alloc packet)
  | .querymode pkt => inferInstanceAs (Decidable (pkt = false))
  | .hardwareversion .. => inferInstanceAs (Decidable (_ ∨ _))
  | .loadSensorconfig .. => inferInstanceAs (Decidable (_ ∧ (_ ∧ _ ∨ ∀ b ∈ ackData packet, b = 0)))
  | .saveSensorconfig .. | .beep .. | .setwindowsize _ | .setaddressmode | .setnormmode | .recovercboard _ =>
    .isTrue trivial

section
variable {packet : List UInt8} {out : Option (List UInt8)} {alloc : Bool} {v : Int}

/-- The packet sent is not the acknowledgement. -/
theorem querymode_answers_iff {pkt : Bool} (seqno : UInt8) (hack : cmdOf packet = l0006NetcmdDevstatack)
    (hout : out =
      if pkt then some (l0006NetcmdFormat l0006NetcmdDevstat seqno l0006NetcmdDevstatFunc1Query 0) else none) :
    (CmdsetFn.querymode pkt).Answers packet v out ↔ pkt = false := by
  simp only [CmdsetFn.Answers, hout]
  cases pkt with
  | false => simp
  | true =>
    simp only [if_true, true_implies, Option.some.injEq, Bool.true_eq_false, iff_false]
    intro heq
    have hcmd : cmdOf (packet.take l0006NetcmdHeaderSize) = cmdOf packet := by
      simp [cmdOf, L0006NetcmdPacket.ofBytes, List.getD_eq_getElem?_getD]
    rw [← heq, hack] at hcmd
    exact absurd hcmd (by simp [cmdOf, L0006NetcmdPacket.ofBytes, l0006NetcmdFormat]; decide)

theorem config_take {data : List UInt8} (h : data.length ≤ 64) : (configOf (some data)).take data.length = data := by
  rw [configOf, take_slice _ h]
  exact slice_store_self _ 0 data

theorem config_zero {n : Nat} (h : n ≤ 64) : (configOf none).take n = List.replicate n 0 := by
  rw [configOf, take_slice _ h]
  apply List.ext_getElem
  · simp
  · intro i hi hi'
    simp [slice, store]

/-- The expected acknowledgement reaches the branch for it. -/
theorem action_ack {onAck : List UInt8 → Int × Option (List UInt8)} {cmd : UInt8}
    (hack : (cmdOf packet).toNat = l0006NetcmdGetackcmd cmd) :
    netcmdAction onAck cmd (some packet) = ⟨(onAck packet).1, (onAck packet).2, true, 0⟩ := by
  simp only [netcmdAction, hack, if_true]

theorem hardwareversion_answers_iff {chnlIndex nodeIndex : Int} (netcmd : List UInt8)
    (hv : v = ((l0006CmdsetHardwareversion chnlIndex nodeIndex).after netcmd l0006NetcomAckSuccess
      (if alloc then some (packet.take l0006NetcmdHeaderSize) else none)).result l0006NetcomAckSuccess) :
    (CmdsetFn.hardwareversion chnlIndex nodeIndex).Answers packet v out ↔ alloc = true ∨ packet.getD 4 0 = 0 := by
  have hfunc : (packet.take l0006NetcmdHeaderSize).getD 4 0 = packet.getD 4 0 := by
    simp [List.getD_eq_getElem?_getD]
  simp only [CmdsetFn.Answers]
  cases alloc with
  | true =>
    have hresult : v = (packet.getD 4 0).toNat := by
      rw [hv, ← hfunc]
      rfl
    simp [hresult]
  | false =>
    have hresult : v = 0 := hv
    rw [hresult]
    simp only [Bool.false_eq_true, false_or]
    constructor
    · intro hzero
      apply UInt8.toNat_inj.1
      exact (Int.ofNat_inj.1 hzero).symm
    · intro hzero
      rw [hzero]
      rfl

theorem loadSensorconfig_answers_iff {chnlIndex nodeIndex : Int} {valid : Bool} {rdsz : UInt8} {c : Nat → UInt8}
    (hlen : packet.length = 64) (hack : cmdOf packet = l0006NetcmdSaveconfack)
    (hout : out = (l0006NetcmdExGeneralAction 64 l0006NetcmdSaveconf (some packet)).out) :
    (CmdsetFn.loadSensorconfig chnlIndex nodeIndex valid rdsz c).Answers packet v out ↔
      rdsz.toNat = (ackData packet).length ∧
      (packet.getD 8 0 = l0006NetcmdSaveconfFlagSuccess ∧ packet.getD 9 0 < 64 ∨ ∀ b ∈ ackData packet, b = 0) := by
  have hdata : (ackData packet).length ≤ 64 := by
    simp only [ackData, List.length_take, List.length_drop, hlen]
    omega
  have hact : (l0006NetcmdExGeneralAction 64 l0006NetcmdSaveconf (some packet)).out =
      if packet.getD 8 0 = l0006NetcmdSaveconfFlagSuccess ∧ packet.getD 9 0 < 64 then some (ackData packet)
      else none := by
    have hcmd : ((cmdOf packet).toNat : Int) = l0006NetcmdGetackcmd l0006NetcmdSaveconf := by rw [hack]; decide
    rw [l0006NetcmdExGeneralAction, action_ack hcmd, if_pos hack]
    dsimp only
    by_cases hflag : packet.getD 8 0 = l0006NetcmdSaveconfFlagSuccess
    · rw [if_pos hflag, if_neg (by decide)]
      by_cases hlt : packet.getD 9 0 < 64
      · rw [if_pos hlt, if_pos ⟨hflag, hlt⟩, ackData]
      · rw [if_neg hlt, if_neg fun h => hlt h.2]
    · rw [if_neg hflag, if_neg fun h => hflag h.1]
  rw [hact] at hout
  simp only [CmdsetFn.Answers]
  rw [and_comm]
  refine and_congr_right fun _ => ?_
  by_cases hcopy : packet.getD 8 0 = l0006NetcmdSaveconfFlagSuccess ∧ packet.getD 9 0 < 64
  · rw [hout, if_pos hcopy]
    exact iff_of_true (config_take hdata) (.inl hcopy)
  · rw [hout, if_neg hcopy, config_zero hdata]
    constructor
    · intro hzero
      right
      intro b hmem
      rw [← hzero] at hmem
      exact List.eq_of_mem_replicate hmem
    · rintro (h | hzero)
      · exact absurd h hcopy
      · exact (List.eq_replicate_iff.2 ⟨rfl, hzero⟩).symm

end

/-- The three functions, from what the callback and the branch behind it do. -/
theorem answers_iff {fn : CmdsetFn} {seqno : UInt8} {packet : List UInt8} {alloc : Bool} {acted : Acted} {after : After}
    {v : Int} {out : Option (List UInt8)} (hframe : CommandFrame packet)
    (hack : (cmdOf packet).toNat = l0006NetcmdGetackcmd fn.cmdset.cmd)
    (hacted : acted = fn.cmdset.actioncb.call alloc fn.cmdset.cmd (some packet))
    (hafter : after = fn.cmdset.after (l0006NetcmdFormat fn.cmdset.cmd seqno fn.cmdset.func.1 fn.cmdset.func.2)
      acted.outret acted.out)
    (hv : v = after.result acted.outret) (hout : out = after.stored acted.out) :
    fn.Answers packet v out ↔ fn.Brings alloc packet := by
  have hcmd : ∀ ack : UInt8, (ack.toNat : Int) = l0006NetcmdGetackcmd fn.cmdset.cmd → cmdOf packet = ack := by
    intro ack heq
    apply UInt8.toNat_inj.1
    exact Int.ofNat_inj.1 (hack.trans heq.symm)
  cases fn with
  | querymode pkt =>
    have hdevstat : (l0006NetcmdDevstatack.toNat : Int) = l0006NetcmdGetackcmd l0006NetcmdDevstat := by decide
    refine querymode_answers_iff seqno (hcmd l0006NetcmdDevstatack hdevstat) ?_
    have hact : l0006NetcmdGeneralAction l0006NetcmdDevstat (some packet) = ⟨l0006NetcomAckSuccess, none, true, 0⟩ :=
      action_ack hack
    rw [hout, hafter, hacted.trans hact]
    cases pkt <;> rfl
  | hardwareversion chnlIndex nodeIndex =>
    have hact : l0006NetcmdGeneralAction2 alloc l0006NetcmdVersion (some packet) =
        ⟨l0006NetcomAckSuccess, if alloc then some (packet.take l0006NetcmdHeaderSize) else none, true, 0⟩ :=
      action_ack hack
    apply hardwareversion_answers_iff (l0006NetcmdFormat l0006NetcmdVersion seqno
      (CmdsetFn.hardwareversion chnlIndex nodeIndex).cmdset.func.1
      (CmdsetFn.hardwareversion chnlIndex nodeIndex).cmdset.func.2)
    rw [hv, hafter, hacted.trans hact]
    rfl
  | loadSensorconfig chnlIndex nodeIndex valid rdsz c =>
    have hsaveconf : (l0006NetcmdSaveconfack.toNat : Int) = l0006NetcmdGetackcmd l0006NetcmdSaveconf := by decide
    have hsave := hcmd l0006NetcmdSaveconfack hsaveconf
    refine loadSensorconfig_answers_iff ?_ hsave ?_
    · rw [hframe.2.2, commandLength, if_pos (.inr hsave)]
    · rw [hout, hafter]
      simp only [CmdsetFn.cmdset, l0006CmdsetLoadSensorconfig, afterValue]
      split <;> exact congrArg Acted.out hacted
  | saveSensorconfig => exact Iff.rfl
  | beep => exact Iff.rfl
  | setwindowsize => exact Iff.rfl
  | setaddressmode => exact Iff.rfl
  | setnormmode => exact Iff.rfl
  | recovercboard => exact Iff.rfl

/-- When an acknowledgement completes the command of a call that has not looked at its
`retval` yet, and the call returns, its caller has got the answer if and only if nothing
had to be brought back but what the callback copies. -/
theorem query_answers_iff (evs evs' : List HostEv) (host host' : Host) (hrun : exec Host.step Host.init evs = some host)
    (id : Nat) (call call' : Call) (hcall : host.calls[id]? = some call) (hwait : call.pc.stage = .waiting)
    (packet : List UInt8) (alloc : Bool) (ncwrbuf : NetcomWrbuf CmdAction)
    (hcompletes : host.completion (.ack packet alloc) = some (ncwrbuf, some packet))
    (hout : ncwrbuf.action.cb.outret = id) (hack : (cmdOf packet).toNat = l0006NetcmdGetackcmd call.fn.cmdset.cmd)
    (hrest : exec Host.step host (.ack packet alloc :: evs') = some host') (hcall' : host'.calls[id]? = some call')
    (v : Int) (hret : call'.pc = .returned v) :
    call'.fn.Answers packet v call'.out ↔ call'.fn.Brings alloc packet := by
  have htracked : host.Tracked := exec_inv_all (fun _ _ _ hs hst => hs.step hst) Host.init_tracked hrun
  simp only [Host.completion] at hcompletes
  split at hcompletes
  · rename_i hframe
    obtain ⟨found, hfind, heq⟩ := Option.map_eq_some_iff.1 hcompletes
    cases heq
    obtain ⟨hfn, hv, hstored⟩ := returned_of_acked htracked hcall hwait hfind hout hrest hcall' hret
    rw [hfn]
    exact answers_iff hframe hack rfl rfl hv hstored
  · cases hcompletes

/-- `l0006_cmdset_hardwareversion` waits for the version of the hboard. -/
def versionRun : List HostEv :=
  .link true (some 0) :: .call (.hardwareversion (-1) 0) 0 :: List.replicate 4 (.run 0 ⟨0, 0⟩ true)

theorem query_answers_version : ∃ host call, exec Host.step Host.init (versionRun ++
      .ack (l0006NetcmdFormat l0006NetcmdVersionack 0 7 0) true :: List.replicate 3 (.run 0 ⟨1, 0⟩ true)) = some host ∧
    host.calls[0]? = some call ∧ call.fn.Answers (l0006NetcmdFormat l0006NetcmdVersionack 0 7 0) 7 call.out := by
  have hsent : (exec Host.step Host.init versionRun).any fun host =>
      ((host.calls[0]?).any fun call => call.fn.cmdset.cmd = l0006NetcmdVersion ∧ call.pc = .waiting false) &&
      ((host.completion (.ack (l0006NetcmdFormat l0006NetcmdVersionack 0 7 0) true)).any fun c =>
        c.2 = some (l0006NetcmdFormat l0006NetcmdVersionack 0 7 0) ∧ c.1.action.cb.outret = 0) &&
      ((exec Host.step host (.ack (l0006NetcmdFormat l0006NetcmdVersionack 0 7 0) true ::
        List.replicate 3 (.run 0 ⟨1, 0⟩ true))).any fun host' => (host'.calls[0]?).any fun call =>
          call.pc = .returned 7 ∧ call.fn.Brings true (l0006NetcmdFormat l0006NetcmdVersionack 0 7 0)) := by
    decide +kernel
  obtain ⟨host, hrun, hhost⟩ := (Option.any_eq_true _ _).1 hsent
  obtain ⟨hhost, hend⟩ := Bool.and_eq_true_iff.1 hhost
  obtain ⟨hhost, hcompl⟩ := Bool.and_eq_true_iff.1 hhost
  obtain ⟨call, hcall, hfacts⟩ := (Option.any_eq_true _ _).1 hhost
  obtain ⟨hcmd, hpc⟩ := of_decide_eq_true hfacts
  obtain ⟨⟨ncwrbuf, packet⟩, hcompletes, hentry⟩ := (Option.any_eq_true _ _).1 hcompl
  obtain ⟨rfl, hout⟩ := of_decide_eq_true hentry
  obtain ⟨host', hrest, hhost'⟩ := (Option.any_eq_true _ _).1 hend
  obtain ⟨call', hcall', hend'⟩ := (Option.any_eq_true _ _).1 hhost'
  obtain ⟨hret, hbrings⟩ := of_decide_eq_true hend'
  refine ⟨host', call', by rw [exec_append, hrun, Option.bind_some, hrest], hcall', ?_⟩
  refine (query_answers_iff versionRun _ host host' hrun 0 call call' hcall (by rw [hpc]; rfl) _ true ncwrbuf
    hcompletes hout
    ?_ hrest hcall' 7 hret).2 hbrings
  rw [hcmd]
  decide

/-- `l0006_cmdset_querymode` waits for the mode. -/
def modeRun : List HostEv :=
  .link true (some 0) :: .call (.querymode true) 0 :: List.replicate 4 (.run 0 ⟨0, 0⟩ true)

/-- The call returns 0 with the packet it has sent, whatever the ack says. -/
def Unanswered (mode : UInt8) : Prop :=
  ∃ host call, exec Host.step Host.init (modeRun ++ .ack (l0006NetcmdFormat l0006NetcmdDevstatack 0 mode 0) true ::
      List.replicate 2 (.run 0 ⟨1, 0⟩ true)) = some host ∧ host.calls[0]? = some call ∧ call.pc = .returned 0 ∧
    call.out = some (l0006NetcmdFormat l0006NetcmdDevstat 0 0 0) ∧
    ¬ call.fn.Answers (l0006NetcmdFormat l0006NetcmdDevstatack 0 mode 0) 0 call.out

/-- Whichever mode the device reports, the caller gets the packet that was sent. -/
theorem query_unanswered :
    Unanswered l0006NetcmdDevstatFunc2Genmode ∧ Unanswered l0006NetcmdDevstatFunc2Addrmode := by
  have hend : ∀ mode ∈ [l0006NetcmdDevstatFunc2Genmode, l0006NetcmdDevstatFunc2Addrmode],
      (exec Host.step Host.init (modeRun ++ .ack (l0006NetcmdFormat l0006NetcmdDevstatack 0 mode 0) true ::
        List.replicate 2 (.run 0 ⟨1, 0⟩ true))).any fun host => (host.calls[0]?).any fun call =>
          call.pc = .returned 0 ∧ call.out = some (l0006NetcmdFormat l0006NetcmdDevstat 0 0 0) ∧
          ¬ call.fn.Answers (l0006NetcmdFormat l0006NetcmdDevstatack 0 mode 0) 0 call.out := by decide +kernel
  have hmodes : ∀ mode ∈ [l0006NetcmdDevstatFunc2Genmode, l0006NetcmdDevstatFunc2Addrmode], Unanswered mode := by
    intro mode hmode
    obtain ⟨host, hrun, hhost⟩ := (Option.any_eq_true _ _).1 (hend mode hmode)
    obtain ⟨call, hcall, hfacts⟩ := (Option.any_eq_true _ _).1 hhost
    exact ⟨host, call, hrun, hcall, of_decide_eq_true hfacts⟩
  exact ⟨hmodes _ List.mem_cons_self, hmodes _ (List.mem_cons_of_mem _ List.mem_cons_self)⟩

end CmdAgent
