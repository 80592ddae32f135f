import CmdAgent.Completion
import CmdAgent.Corruption
import CmdAgent.SharedDevice
/-!
# Commands in flight

What the functions of `cmdset.c` have sent is in the used list until its callback is
called, and `outret` points into the call all the time. Here is what goes out, that
every command is completed once at most, and when a callback finds its call gone.
-/
open StreamLib.Runs StreamLib.Framing

namespace CmdAgent

/-! ## What a step does -/

/-- The call has come past the write of its command. -/
def Pc.pastWrite : Pc → Bool
  | .format | .wakeupclear | .write => false
  | _ => true

def Host.Returned (host : Host) (id : Nat) : Prop := ∃ call ∈ host.calls[id]?, ∃ v, call.pc = .returned v

/-- The bytes a call sends. -/
def Call.netcmd (call : Call) : List UInt8 := call.header ++ call.fn.cmdset.body

/-- The bytes of the call `id`. -/
def Host.netcmd (host : Host) (id : Nat) : List UInt8 := (host.calls[id]?).elim [] Call.netcmd

/-- A call that is past the write stays past it, with its bytes. -/
def Call.Kept (call call' : Call) : Prop :=
  call.pc.pastWrite = true → call'.pc.pastWrite = true ∧ call'.netcmd = call.netcmd

/-- What happens to the calls in the step `ev`. -/
structure CallsKept (ev : HostEv) (calls calls' : List Call) : Prop where
  keeps : ∀ (id : Nat) (call : Call), calls[id]? = some call → ∃ call', calls'[id]? = some call' ∧ call.Kept call' ∧
    ∀ v, call.pc = .returned v → call'.pc = .returned v
  /-- A call returns in its own step. -/
  returns : ∀ (id : Nat) (call' : Call) (v : Int), calls'[id]? = some call' → call'.pc = .returned v →
    (∃ call ∈ calls[id]?, call.pc = .returned v) ∨ ∃ now ok, ev = .run id now ok

/-- What happens to the commands in the step `ev`. -/
inductive CallDoes (host host' : Host) (ev : HostEv) : Prop
  | quiet : host'.nc.used = host.nc.used → host'.runs = host.runs → host'.sent = host.sent → CallDoes host host' ev
  | sends (id : Nat) (call call' : Call) (ncwrbuf : NetcomWrbuf CmdAction) : host.calls[id]? = some call →
      call.pc = .write → host'.calls[id]? = some call' → call'.pc = .wait → call'.netcmd = call.netcmd →
      ncwrbuf.action.cb.outret = id → host'.nc.used = host.nc.used ++ [ncwrbuf] → host'.runs = host.runs →
      host'.sent = host.sent ++ [call.netcmd] → CallDoes host host' ev
  | completes (ncwrbuf : NetcomWrbuf CmdAction) (packet : Option (List UInt8)) (l₁ l₂ : List (NetcomWrbuf CmdAction)) :
      host.completion ev = some (ncwrbuf, packet) → host.nc.used = l₁ ++ ncwrbuf :: l₂ → host'.nc.used = l₁ ++ l₂ →
      host'.runs = host.runs ++ [⟨ncwrbuf.action.cb.outret, packet⟩] → host'.sent = host.sent → CallDoes host host' ev

namespace CallsKept
variable {ev : HostEv} {calls calls' : List Call} {id : Nat} {call call' : Call}

theorem refl (ev : HostEv) (calls : List Call) : CallsKept ev calls calls where
  keeps _ call hc := ⟨call, hc, fun hp => ⟨hp, rfl⟩, fun _ hv => hv⟩
  returns _ call' _ hc hv := .inl ⟨call', hc, hv⟩

theorem trans {calls'' : List Call} (h : CallsKept ev calls calls') (h' : CallsKept ev calls' calls'') :
    CallsKept ev calls calls'' where
  keeps id call hc := by
    obtain ⟨call', hc', hkept, hret⟩ := h.keeps id call hc
    obtain ⟨call'', hc'', hkept', hret'⟩ := h'.keeps id call' hc'
    refine ⟨call'', hc'', fun hp => ?_, fun v hv => hret' v (hret v hv)⟩
    obtain ⟨hp', hbytes⟩ := hkept hp
    obtain ⟨hp'', hbytes'⟩ := hkept' hp'
    exact ⟨hp'', hbytes'.trans hbytes⟩
  returns id call'' v hc'' hv := by
    rcases h'.returns id call'' v hc'' hv with ⟨call', hc', hv'⟩ | hrun
    · exact h.returns id call' v hc' hv'
    · exact .inr hrun

/-- The step of the call `id`, which has not returned. -/
theorem set (now : Timespec) (ok : Bool) (hc : calls[id]? = some call) (hret : ∀ v, call.pc ≠ .returned v)
    (hkept : call.Kept call') : CallsKept (.run id now ok) calls (calls.set id call') := by
  have hlt : id < calls.length := (List.getElem?_eq_some_iff.1 hc).1
  constructor
  · intro i c hi
    by_cases he : id = i
    · subst he
      cases hc.symm.trans hi
      exact ⟨call', List.getElem?_set_self hlt, hkept, fun v hv => absurd hv (hret v)⟩
    · exact ⟨c, (List.getElem?_set_ne he).trans hi, fun hp => ⟨hp, rfl⟩, fun _ hv => hv⟩
  · intro i c v hi hv
    by_cases he : id = i
    · subst he
      exact .inr ⟨now, ok, rfl⟩
    · rw [List.getElem?_set_ne he] at hi
      exact .inl ⟨c, hi, hv⟩

/-- New calls start with their formatting. -/
theorem append (ev : HostEv) (calls : List Call) {new : List Call} (hnew : ∀ c ∈ new, c.pc = .format) :
    CallsKept ev calls (calls ++ new) := by
  constructor
  · intro i c hi
    have hlt : i < calls.length := (List.getElem?_eq_some_iff.1 hi).1
    exact ⟨c, (List.getElem?_append_left hlt).trans hi, fun hp => ⟨hp, rfl⟩, fun _ hv => hv⟩
  · intro i c v hi hv
    rw [List.getElem?_append] at hi
    split at hi
    · exact .inl ⟨c, hi, hv⟩
    · rw [hnew c (List.mem_of_getElem? hi)] at hv
      cases hv

/-- The same change of all calls, or of one. -/
theorem update (ev : HostEv) {f : Nat → Call → Call} (hget : ∀ i, calls'[i]? = (calls[i]?).map (f i))
    (hkept : ∀ i (c : Call), c.Kept (f i c)) (hret : ∀ i c v, (f i c).pc = .returned v ↔ c.pc = .returned v) :
    CallsKept ev calls calls' := by
  constructor
  · intro i c hi
    refine ⟨f i c, by rw [hget, hi]; rfl, hkept i c, fun v hv => (hret i c v).2 hv⟩
  · intro i c v hi hv
    rw [hget] at hi
    obtain ⟨c, hc, rfl⟩ := Option.map_eq_some_iff.1 hi
    exact .inl ⟨c, hc, (hret i c v).1 hv⟩

theorem signal (ev : HostEv) (task : Nat) (calls : List Call) : CallsKept ev calls (calls.map (Call.signal task)) := by
  refine update ev (f := fun _ => Call.signal task) (fun i => List.getElem?_map ..) (fun _ c => ?_) (fun _ c v => ?_)
  · intro hp
    unfold Call.signal
    split
    · split
      · exact ⟨rfl, rfl⟩
      · exact ⟨hp, rfl⟩
    · exact ⟨hp, rfl⟩
  · unfold Call.signal
    split
    · rename_i hpc
      split
      · rw [hpc]
        exact ⟨nofun, nofun⟩
      · exact Iff.rfl
    · exact Iff.rfl

/-- A callback stores its results in the call. -/
theorem modify (ev : HostEv) (id : Nat) {f : Call → Call} (hf : ∀ c, (f c).pc = c.pc ∧ (f c).netcmd = c.netcmd)
    (calls : List Call) : CallsKept ev calls (calls.modify id f) := by
  refine update ev (f := fun i c => if id = i then f c else c) (fun i => List.getElem?_modify ..) (fun i c => ?_)
    (fun i c v => ?_)
  · intro hp
    obtain ⟨hpc, hbytes⟩ := hf c
    split
    · exact ⟨by rw [hpc, hp], hbytes⟩
    · exact ⟨hp, rfl⟩
  · split
    · rw [(hf c).1]
    · exact Iff.rfl

end CallsKept

theorem follow_kept (call : Call) (child : Nat) (after : After) : call.Kept (call.follow child after) := by
  intro _
  unfold Call.follow
  split
  · exact ⟨rfl, rfl⟩
  · split <;> exact ⟨rfl, rfl⟩

theorem beepCalls_format (waitTask : Nat) (after : After) : ∀ c ∈ beepCalls waitTask after, c.pc = .format := by
  intro c hmem
  obtain ⟨fn, waitTask, rfl⟩ := beepCalls_new _ _ c hmem
  rfl

theorem kept_of_not {call : Call} (h : call.pc.pastWrite = false) (call' : Call) : call.Kept call' :=
  fun hp => absurd (h.symm.trans hp) Bool.false_ne_true

/-- What the step of a call does. -/
theorem turn_does {host host' : Host} {id : Nat} {call : Call} {now : Timespec} (ok : Bool)
    (hc : host.calls[id]? = some call) (hturn : Turn host id call now host') :
    CallsKept (.run id now ok) host.calls host'.calls ∧ CallDoes host host' (.run id now ok) := by
  cases hturn with
  | formats hpc =>
    have hnot : call.pc.pastWrite = false := by rw [hpc]; rfl
    exact ⟨.set now ok hc (by simp [hpc]) (kept_of_not hnot _), .quiet rfl rfl rfl⟩
  | gives nc hpc hused =>
    have hnot : call.pc.pastWrite = false := by rcases hpc with hpc | hpc <;> (rw [hpc]; rfl)
    have hret : ∀ v, call.pc ≠ .returned v := by rcases hpc with hpc | hpc <;> simp [hpc]
    exact ⟨.set now ok hc hret (kept_of_not hnot _), .quiet hused rfl rfl⟩
  | clears hpc =>
    have hnot : call.pc.pastWrite = false := by rw [hpc]; rfl
    exact ⟨.set now ok hc (by simp [hpc]) (kept_of_not hnot _), .quiet rfl rfl rfl⟩
  | sends nc slot hpc hused =>
    have hnot : call.pc.pastWrite = false := by rw [hpc]; rfl
    have hlt : id < host.calls.length := (List.getElem?_eq_some_iff.1 hc).1
    exact ⟨.set now ok hc (by simp [hpc]) (kept_of_not hnot _),
      .sends id call { call with pc := .wait } _ hc hpc (List.getElem?_set_self hlt) rfl rfl rfl hused rfl rfl⟩
  | tests hpc =>
    refine ⟨.set now ok hc (by simp [hpc]) fun _ => ⟨?_, rfl⟩, .quiet rfl rfl rfl⟩
    dsimp only
    split <;> rfl
  | wakes hpc => exact ⟨.set now ok hc (by simp [hpc]) fun _ => ⟨rfl, rfl⟩, .quiet rfl rfl rfl⟩
  | restarts signalled hpc => exact ⟨.set now ok hc (by simp [hpc]) fun _ => ⟨rfl, rfl⟩, .quiet rfl rfl rfl⟩
  | looks after hpc =>
    have hset := CallsKept.set now ok hc (by simp [hpc]) (follow_kept call host.calls.length after)
    exact ⟨hset.trans (.append _ _ (beepCalls_format _ _)), .quiet rfl rfl rfl⟩
  | rests child hpc => exact ⟨.set now ok hc (by simp [hpc]) fun _ => ⟨rfl, rfl⟩, .quiet rfl rfl rfl⟩
  | returns hpc => exact ⟨.set now ok hc (by simp [hpc]) fun _ => ⟨rfl, rfl⟩, .quiet rfl rfl rfl⟩

/-- A callback sets the results of its call and may signal. -/
theorem act_kept (host : Host) (ev : HostEv) (action : CmdAction) (packet : Option (List UInt8)) (alloc : Bool) :
    CallsKept ev host.calls (host.act action packet alloc).calls ∧ (host.act action packet alloc).sent = host.sent := by
  have hmodify := CallsKept.modify ev action.outret (f := fun call => { call with
    retval := (action.actioncb.call alloc action.cmd packet).outret
    out := (action.actioncb.call alloc action.cmd packet).out.or call.out }) (fun _ => ⟨rfl, rfl⟩) host.calls
  simp only [Host.act]
  split
  · exact ⟨hmodify.trans (.signal ev _ _), rfl⟩
  · exact ⟨hmodify, rfl⟩

theorem step_does {host host' : Host} {ev : HostEv} (hstep : host.step ev = some host') :
    CallsKept ev host.calls host'.calls ∧ CallDoes host host' ev := by
  cases step_cases hstep with
  | called fn waitTask =>
    refine ⟨.append _ _ fun c hmem => ?_, .quiet rfl rfl rfl⟩
    rw [List.mem_singleton.1 hmem]
    rfl
  | turned id call now ok hc hturn => exact turn_does ok hc hturn
  | acts nc l₁ l₂ ncwrbuf packet hcomp hused hused' =>
    obtain ⟨hkept, hsent⟩ := act_kept { host with nc := nc } ev ncwrbuf.action.cb packet ev.alloc
    exact ⟨hkept, .completes ncwrbuf packet l₁ l₂ hcomp hused (by rw [act_nc]; exact hused') (act_runs _ _ _ _) hsent⟩
  | signals task => exact ⟨.signal _ _ _, .quiet rfl rfl rfl⟩
  | keeps nc task hev hused => exact ⟨.refl _ _, .quiet hused rfl rfl⟩

/-! ## Once and only once -/

/-- The calls whose callback has run, in the order of the runs. -/
def Host.completed (host : Host) : List Nat := host.runs.map ActionRun.outret

/-- `ids` are the calls that have sent their command, in this order: each is in flight or
completed, and nothing else is. -/
structure Host.SentBy (host : Host) (ids : List Nat) : Prop where
  nodup : ids.Nodup
  perm : (host.completed ++ outrets host.nc.used).Perm ids
  sent : host.sent = ids.map host.netcmd
  past : ∀ id ∈ ids, ∃ call ∈ host.calls[id]?, call.pc.pastWrite = true

theorem CallsKept.netcmd {ev : HostEv} {host host' : Host} (h : CallsKept ev host.calls host'.calls) {ids : List Nat}
    (hpast : ∀ id ∈ ids, ∃ call ∈ host.calls[id]?, call.pc.pastWrite = true) :
    ids.map host'.netcmd = ids.map host.netcmd ∧ ∀ id ∈ ids, ∃ call ∈ host'.calls[id]?, call.pc.pastWrite = true := by
  have heach : ∀ id ∈ ids, host'.netcmd id = host.netcmd id ∧
      ∃ call ∈ host'.calls[id]?, call.pc.pastWrite = true := by
    intro id hid
    obtain ⟨call, hc, hp⟩ := hpast id hid
    obtain ⟨call', hc', hkept, -⟩ := h.keeps id call hc
    obtain ⟨hp', hbytes⟩ := hkept hp
    refine ⟨?_, call', hc', hp'⟩
    rw [Host.netcmd, Host.netcmd, hc', show host.calls[id]? = some call from hc]
    exact hbytes
  exact ⟨List.map_congr_left fun id hid => (heach id hid).1, fun id hid => (heach id hid).2⟩

theorem sentBy_step {host host' : Host} {ev : HostEv} {ids : List Nat} (h : host.SentBy ids)
    (hstep : host.step ev = some host') : ∃ new, host'.SentBy (ids ++ new) := by
  obtain ⟨hkept, hhandles⟩ := step_does hstep
  obtain ⟨hbytes, hpast⟩ := hkept.netcmd h.past
  cases hhandles with
  | quiet hused hruns hsent =>
    refine ⟨[], ?_⟩
    rw [List.append_nil]
    refine ⟨h.nodup, ?_, ?_, hpast⟩
    · rw [Host.completed, hused, hruns]
      exact h.perm
    · rw [hsent, hbytes]
      exact h.sent
  | sends id call call' ncwrbuf hc hpc hc' hpc' hnetcmd hout hused hruns hsent =>
    -- A call that is about to write has not written.
    have hnew : id ∉ ids := by
      intro hid
      obtain ⟨call₀, hc₀, hp⟩ := h.past id hid
      cases hc.symm.trans hc₀
      rw [hpc] at hp
      cases hp
    refine ⟨[id], ?_, ?_, ?_, ?_⟩
    · exact List.nodup_append.2 ⟨h.nodup, List.nodup_singleton id, fun i hi j hj he =>
        hnew (List.mem_singleton.1 hj ▸ he ▸ hi)⟩
    · rw [Host.completed, hused, hruns, outrets, List.map_append, ← List.append_assoc, List.map_singleton, hout]
      exact h.perm.append_right [id]
    · rw [hsent, List.map_append, hbytes, ← h.sent, List.map_singleton, Host.netcmd, hc']
      change _ = host.sent ++ [call'.netcmd]
      rw [hnetcmd]
    · intro i hi
      rcases List.mem_append.1 hi with hi | hi
      · exact hpast i hi
      · rw [List.mem_singleton.1 hi]
        exact ⟨call', hc', by rw [hpc']; rfl⟩
  | completes ncwrbuf packet l₁ l₂ hcomp hused hused' hruns hsent =>
    refine ⟨[], ?_⟩
    rw [List.append_nil]
    refine ⟨h.nodup, ?_, ?_, hpast⟩
    · refine List.Perm.trans ?_ h.perm
      simp only [Host.completed, outrets, hused, hused', hruns, List.map_append, List.map_cons, List.map_nil,
        List.append_assoc, List.singleton_append]
      exact List.Perm.append_left _ List.perm_middle.symm
    · rw [hsent, hbytes]
      exact h.sent

theorem init_sentBy : Host.init.SentBy [] where
  nodup := List.nodup_nil
  perm := .nil
  sent := rfl
  past := nofun

theorem sentBy_run {host : Host} {evs : List HostEv} (hrun : exec Host.step Host.init evs = some host) :
    ∃ ids, host.SentBy ids := by
  refine exec_inv_all (fun host ev host' hs hst => ?_) (I := fun host => ∃ ids, host.SentBy ids) ⟨[], init_sentBy⟩ hrun
  obtain ⟨ids, h⟩ := hs
  obtain ⟨new, h'⟩ := sentBy_step h hst
  exact ⟨_, h'⟩

/-- In every run, what went out are the commands of some calls, one from each, in the
order they were written. Each of these calls waits in the used list or has had its
callback run; no call has had it run twice, or has it run and still waits. -/
theorem commands_completed_once (evs : List HostEv) (host : Host) (hrun : exec Host.step Host.init evs = some host) :
    (∃ ids, host.SentBy ids) ∧ (∀ id, host.completed.count id + (outrets host.nc.used).count id ≤ 1) ∧
      host.sent.length = host.runs.length + host.nc.used.length := by
  obtain ⟨ids, h⟩ := sentBy_run hrun
  refine ⟨⟨ids, h⟩, fun id => ?_, ?_⟩
  · rw [← List.count_append, h.perm.count_eq]
    exact List.nodup_iff_count_le_one.1 h.nodup id
  · have hlen := h.perm.length_eq
    rw [List.length_append, Host.completed, outrets, List.length_map, List.length_map] at hlen
    rw [h.sent, List.length_map, hlen]

/-- `l0006_cmdset_setwindowsize` sends its command, which times out. -/
def sentAndExpired : List HostEv :=
  .link true (some 0) :: .call (.setwindowsize 1) 0 :: List.replicate 4 (.run 0 ⟨0, 0⟩ true) ++ [.expire ⟨20, 0⟩]

theorem commands_completed_once_expired : ∃ host, exec Host.step Host.init sentAndExpired = some host ∧
    (∃ ids, host.SentBy ids) ∧ (∀ id, host.completed.count id + (outrets host.nc.used).count id ≤ 1) ∧
      host.sent.length = host.runs.length + host.nc.used.length := by
  have hend : (exec Host.step Host.init sentAndExpired).isSome = true := by decide +kernel
  obtain ⟨host, hrun⟩ := Option.isSome_iff_exists.1 hend
  exact ⟨host, hrun, commands_completed_once _ _ hrun⟩

/-! ## What goes out -/

/-- `netcmd` is a whole frame that the receiver's own checks would let through, and names
its call's command, number and parameters. -/
structure Call.FramedBy (call : Call) (netcmd : List UInt8) : Prop where
  frame : CommandFrame netcmd
  cmd : cmdOf netcmd = call.fn.cmdset.cmd
  seqno : seqnoOf netcmd = call.seqno
  func : (L0006NetcmdPacket.ofBytes netcmd).func = call.fn.cmdset.func

theorem cmdset_cmd (fn : CmdsetFn) : AcceptedCmd fn.cmdset.cmd ∧
    (fn.cmdset.cmd ≠ l0006NetcmdAddata ∧ fn.cmdset.cmd ≠ l0006NetcmdSaveconfack) ∧
      fn.cmdset.body.length = if fn.cmdset.cmd = l0006NetcmdSaveconf then 56 else 0 := by
  have hplain : ∀ cmd, AcceptedCmd cmd ∧ cmd ≠ l0006NetcmdAddata ∧ cmd ≠ l0006NetcmdSaveconfack ∧
      cmd ≠ l0006NetcmdSaveconf → AcceptedCmd cmd ∧ (cmd ≠ l0006NetcmdAddata ∧ cmd ≠ l0006NetcmdSaveconfack) ∧
        ([] : List UInt8).length = if cmd = l0006NetcmdSaveconf then 56 else 0 := by
    rintro cmd ⟨haccepted, hstream, hack, hconf⟩
    exact ⟨haccepted, ⟨hstream, hack⟩, (if_neg hconf).symm⟩
  have hconf : AcceptedCmd l0006NetcmdSaveconf ∧
      l0006NetcmdSaveconf ≠ l0006NetcmdAddata ∧ l0006NetcmdSaveconf ≠ l0006NetcmdSaveconfack := by decide
  cases fn with
  | saveSensorconfig => exact ⟨hconf.1, hconf.2, StreamLib.Mem.length_slice _ _ _⟩
  | loadSensorconfig => exact ⟨hconf.1, hconf.2, StreamLib.Mem.length_slice _ _ _⟩
  | beep => exact hplain l0006NetcmdBuzz (by decide)
  | setwindowsize => exact hplain l0006NetcmdWinsize (by decide)
  | setaddressmode | setnormmode | querymode => exact hplain l0006NetcmdDevstat (by decide)
  | recovercboard => exact hplain l0006NetcmdRecover (by decide)
  | hardwareversion => exact hplain l0006NetcmdVersion (by decide)

/-- Whatever call it is. -/
theorem netcmd_framed (call : Call) : call.FramedBy call.netcmd := by
  obtain ⟨haccepted, ⟨hstream, hack⟩, hbody⟩ := cmdset_cmd call.fn
  have h8 : 8 ≤ call.header.length := Nat.le_refl 8
  have hcmd : cmdOf call.netcmd = call.fn.cmdset.cmd := cmdOf_append _ h8
  have hvalid : netcmdIsvalidpacketheader call.netcmd = true :=
    (isvalid_append _ h8).trans (isvalid_format haccepted _ _ _)
  refine ⟨⟨hvalid, by rwa [hcmd], ?_⟩, hcmd, seqnoOf_append _ h8, ?_⟩
  · have hlen : call.netcmd.length = 8 + call.fn.cmdset.body.length := List.length_append
    rw [hlen, hbody, commandLength, hcmd]
    by_cases hs : call.fn.cmdset.cmd = l0006NetcmdSaveconf
    · rw [if_pos hs, if_pos (.inl hs)]
    · rw [if_neg hs, if_neg (not_or.2 ⟨hs, hack⟩)]
  · rw [Call.netcmd, ofBytes_append _ h8]
    rfl

/-- A command's frame is one of the frames of `cmdFramer`. -/
theorem Call.FramedBy.cut {call : Call} {netcmd : List UInt8} (h : call.FramedBy netcmd) :
    (cmdFramer id).next netcmd = .unit netcmd.length netcmd := by
  refine cmdNext_frame id ?_
  rw [List.map_id]
  obtain ⟨-, ⟨-, hack⟩, -⟩ := cmdset_cmd call.fn
  have hlen := h.frame.2.2
  rw [CmdFrame, hlen, commandLength, h.cmd]
  by_cases hs : call.fn.cmdset.cmd = l0006NetcmdSaveconf
  · rw [if_pos hs, if_pos (.inl hs)]
  · rw [if_neg hs, if_neg (not_or.2 ⟨hs, hack⟩)]

/-- In every run, cutting the bytes that went out at the commands' own lengths gives back
the commands, each a frame from another call: none is split, merged or changed. -/
theorem sent_frames (evs : List HostEv) (host : Host) (hrun : exec Host.step Host.init evs = some host) :
    Drains (cmdFramer id) host.sent.flatten host.sent [] ∧
      ∃ ids : List Nat, ids.Nodup ∧
        List.Forall₂ (fun id netcmd => ∃ call ∈ host.calls[id]?, call.FramedBy netcmd) ids host.sent := by
  obtain ⟨ids, h⟩ := sentBy_run hrun
  have hframed : ∀ id ∈ ids, ∃ call ∈ host.calls[id]?, call.FramedBy (host.netcmd id) := by
    intro id hid
    obtain ⟨call, hc, -⟩ := h.past id hid
    refine ⟨call, hc, ?_⟩
    rw [Host.netcmd, show host.calls[id]? = some call from hc]
    exact netcmd_framed call
  constructor
  · have hcut : ∀ netcmd ∈ host.sent, (cmdFramer id).next netcmd = .unit netcmd.length netcmd := by
      intro netcmd hmem
      rw [h.sent] at hmem
      obtain ⟨i, hi, rfl⟩ := List.mem_map.1 hmem
      obtain ⟨call, -, hcall⟩ := hframed i hi
      exact hcall.cut
    have hdrains := Drains.units id id hcut (.more (show (cmdFramer id).next ([] : List UInt8) = .more from rfl))
    simpa using hdrains
  · refine ⟨ids, h.nodup, ?_⟩
    rw [h.sent, List.forall₂_map_right_iff]
    exact List.forall₂_same.2 hframed

theorem sent_frames_expired : ∃ host, exec Host.step Host.init sentAndExpired = some host ∧
    Drains (cmdFramer id) host.sent.flatten host.sent [] ∧
      ∃ ids : List Nat, ids.Nodup ∧
        List.Forall₂ (fun id netcmd => ∃ call ∈ host.calls[id]?, call.FramedBy netcmd) ids host.sent := by
  have hend : (exec Host.step Host.init sentAndExpired).isSome = true := by decide +kernel
  obtain ⟨host, hrun⟩ := Option.isSome_iff_exists.1 hend
  exact ⟨host, hrun, sent_frames _ _ hrun⟩

/-! ## Calls that are gone -/

/-- A callback is called while the call whose `retval` it writes is still running. -/
def Host.Live (host : Host) (ev : HostEv) : Prop :=
  ∀ c ∈ host.completion ev, ¬ host.Returned c.1.action.cb.outret

/-- No call returns while its command is in flight. -/
def Host.Settles (host : Host) : HostEv → Prop
  | .run id now ok => id ∈ outrets host.nc.used → ∀ host', host.step (.run id now ok) = some host' → ¬ host'.Returned id
  | _ => True

/-- A command in flight points into a call that is gone. -/
def Host.Dangles (host : Host) : Prop := ∃ id ∈ outrets host.nc.used, host.Returned id

theorem CallsKept.returned {ev : HostEv} {host host' : Host} (h : CallsKept ev host.calls host'.calls) {id : Nat}
    (hret : host.Returned id) : host'.Returned id := by
  obtain ⟨call, hc, v, hv⟩ := hret
  obtain ⟨call', hc', -, hkeep⟩ := h.keeps id call hc
  exact ⟨call', hc', v, hkeep v hv⟩

theorem CallsKept.returns_of {ev : HostEv} {host host' : Host} (h : CallsKept ev host.calls host'.calls) {id : Nat}
    (hret : host'.Returned id) : host.Returned id ∨ ∃ now ok, ev = .run id now ok := by
  obtain ⟨call', hc', v, hv⟩ := hret
  refine (h.returns id call' v hc' hv).imp_left ?_
  rintro ⟨call, hc, hv⟩
  exact ⟨call, hc, v, hv⟩

/-- What points into a call that is gone does so until the callback is called. -/
theorem dangles_step {host host' : Host} {ev : HostEv} (h : host.Dangles) (hlive : host.Live ev)
    (hstep : host.step ev = some host') : host'.Dangles := by
  obtain ⟨id, hid, hret⟩ := h
  obtain ⟨hkept, hhandles⟩ := step_does hstep
  refine ⟨id, ?_, hkept.returned hret⟩
  cases hhandles with
  | quiet hused =>
    rw [hused]
    exact hid
  | sends _ _ _ ncwrbuf _ _ _ _ _ _ hused =>
    rw [hused, outrets, List.map_append]
    exact List.mem_append_left _ hid
  | completes ncwrbuf packet l₁ l₂ hcomp hused hused' =>
    have hne : id ≠ ncwrbuf.action.cb.outret := by
      rintro rfl
      exact hlive _ hcomp hret
    rw [hused, outrets, List.map_append, List.map_cons, List.mem_append, List.mem_cons] at hid
    rw [hused', outrets, List.map_append, List.mem_append]
    exact hid.imp_right fun hr => hr.resolve_left hne

/-- A step that settles what returns leaves nothing that points into a call that is gone. -/
theorem settles_step {host host' : Host} {ev : HostEv} (h : ¬ host.Dangles) (hsettles : host.Settles ev)
    (hstep : host.step ev = some host') : ¬ host'.Dangles := by
  rintro ⟨id, hid, hret⟩
  obtain ⟨hkept, hhandles⟩ := step_does hstep
  have hold : id ∈ outrets host.nc.used → False := by
    intro hmem
    rcases hkept.returns_of hret with hbefore | ⟨now, ok, rfl⟩
    · exact h ⟨id, hmem, hbefore⟩
    · exact hsettles hmem host' hstep hret
  cases hhandles with
  | quiet hused =>
    rw [hused] at hid
    exact hold hid
  | sends i _ call' ncwrbuf _ _ hc' hpc' _ hout hused =>
    rw [hused, outrets, List.map_append, List.mem_append] at hid
    rcases hid with hid | hid
    · exact hold hid
    · -- The call that has just written its command waits.
      rw [List.map_singleton, hout, List.mem_singleton] at hid
      subst hid
      obtain ⟨call, hc, v, hv⟩ := hret
      cases hc'.symm.trans hc
      rw [hpc'] at hv
      cases hv
  | completes ncwrbuf packet l₁ l₂ hcomp hused hused' =>
    refine hold ?_
    rw [hused', outrets, List.map_append, List.mem_append] at hid
    rw [hused, outrets, List.map_append, List.map_cons, List.mem_append, List.mem_cons]
    exact hid.imp_right .inr

/-- A call that returns with its command in flight leaves a pointer behind. -/
theorem dangles_of_not_settles {host host' : Host} {ev : HostEv} (hsettles : ¬ host.Settles ev)
    (hstep : host.step ev = some host') : host'.Dangles := by
  cases ev with
  | run id now ok =>
    simp only [Host.Settles, not_forall, not_not] at hsettles
    obtain ⟨hid, host₁, hstep₁, hret⟩ := hsettles
    cases hstep₁.symm.trans hstep
    refine ⟨id, ?_, hret⟩
    cases (step_does hstep).2 with
    | quiet hused =>
      rw [hused]
      exact hid
    | sends _ _ _ ncwrbuf _ _ _ _ _ _ hused =>
      rw [hused, outrets, List.map_append]
      exact List.mem_append_left _ hid
    | completes _ _ _ _ hcomp => cases hcomp
  | call | ack | expire | wakeup | chgstat | link => exact absurd trivial hsettles

theorem live_of_not_dangles {host : Host} (h : ¬ host.Dangles) (ev : HostEv) : host.Live ev := by
  rintro ⟨ncwrbuf, packet⟩ hcomp hret
  obtain ⟨-, l₁, l₂, hused, -⟩ := step_completion hcomp
  have hmem : ncwrbuf ∈ host.nc.used := by
    rw [hused]
    exact List.mem_append_right _ List.mem_cons_self
  exact h ⟨_, List.mem_map_of_mem hmem, hret⟩

theorem dangles_run {host host' : Host} {evs : List HostEv} (h : host.Dangles)
    (hrun : exec Host.step host evs = some host') (hlive : Along Host.step Host.Live host evs) : host'.Dangles :=
  exec_inv (fun _ _ _ hs hok hst => dangles_step hs hok hst) h hlive hrun

theorem settles_along {host host' : Host} {evs : List HostEv} (hrun : exec Host.step host evs = some host')
    (hlive : Along Host.step Host.Live host evs) (hend : ¬ host'.Dangles) :
    Along Host.step Host.Settles host evs := by
  induction evs generalizing host with
  | nil => trivial
  | cons ev evs ih =>
    obtain ⟨host₁, hstep, hrest⟩ := exec_cons_eq_some.1 hrun
    have hlive₁ := (along_cons evs hstep).1 hlive
    refine (along_cons evs hstep).2 ⟨?_, ih hrest hlive₁.2⟩
    by_contra hsettles
    exact hend (dangles_run (dangles_of_not_settles hsettles hstep) hrest hlive₁.2)

/-- Callbacks write into calls that are still there, now and whenever what is in flight
completes, exactly if no call of the run returns before its command is completed. -/
theorem outrets_live_iff (evs : List HostEv) (host : Host) (hrun : exec Host.step Host.init evs = some host) :
    Along Host.step Host.Live Host.init evs ∧ ¬ host.Dangles ↔ Along Host.step Host.Settles Host.init evs := by
  have hinit : ¬ Host.init.Dangles := by
    rintro ⟨id, hid, -⟩
    cases hid
  constructor
  · rintro ⟨hlive, hend⟩
    exact settles_along hrun hlive hend
  · intro hsettles
    have hkeep : ∀ s i t, ¬ Host.Dangles s → s.Settles i → s.step i = some t → ¬ t.Dangles :=
      fun _ _ _ hs hok hst => settles_step hs hok hst
    exact ⟨along_inv hkeep (fun _ ev hs _ => live_of_not_dangles hs ev) hinit hsettles,
      exec_inv hkeep hinit hsettles hrun⟩

theorem outrets_live_iff_expired : ∃ host, exec Host.step Host.init sentAndExpired = some host ∧
    (Along Host.step Host.Live Host.init sentAndExpired ∧ ¬ host.Dangles ↔
      Along Host.step Host.Settles Host.init sentAndExpired) := by
  have hend : (exec Host.step Host.init sentAndExpired).isSome = true := by decide +kernel
  obtain ⟨host, hrun⟩ := Option.isSome_iff_exists.1 hend
  exact ⟨host, hrun, outrets_live_iff _ _ hrun⟩

end CmdAgent
