import CmdAgent.Pool
import CmdAgent.Query
import CmdAgent.Segmentation
/-!
# Commands over the byte stream

`Host` acknowledges a command with a packet at a time. Here the packets come out of the
bytes that `netcom_readcb` reads, and the event loop goes through its `while` loops and the
scan of `netcom_timeoutcb` round by round while the threads of the calls go on. What they
cannot do meanwhile is take the lock of `nc`.
-/
open StreamLib.Loop StreamLib.Runs

namespace CmdAgent

/-! ## The system -/

/-- Where the event loop is. -/
inductive EventLoop where
  | idle
  /-- In the loop of `netcom_readcb`. -/
  | reading
  /-- In the scan of `netcom_timeoutcb`, with the time it has read. -/
  | scanning (now : Timespec)
  deriving DecidableEq

structure HostWire where
  host : Host
  loop : EventLoop

def HostWire.init : HostWire := ⟨Host.init, .idle⟩

inductive WireEv where
  /-- A step that is neither an acknowledgement nor a timeout. -/
  | host (ev : HostEv)
  /-- `netcom_readcb` up to its loop. -/
  | readcb (chunk : List UInt8)
  /-- A round of the loop. `alloc` is whether there is memory for a copy. -/
  | round (alloc : Bool)
  | timeoutcb (now : Timespec)
  /-- The scan looks at the next entry. -/
  | scan
  | start
  | stop
  /-- The consumer moves `rd2_off`, without the lock. -/
  | consume (rd2Off : Nat)

/-- The next step of the call takes the lock of `nc`. -/
def Call.locks (call : Call) : Bool :=
  match call.pc with
  | .format => call.fn.cmdset.valid
  | .write => true
  | _ => false

/-- The lock lets the step through. -/
def HostWire.enters (w : HostWire) : HostEv → Bool
  | .run id _ _ => w.loop = .idle || !(w.host.calls[id]?).any Call.locks
  | .link .. => w.loop = .idle
  | .call .. | .wakeup _ | .chgstat .. => true
  | .ack .. | .expire _ => false

/-- The callbacks of a round that has led to `nc`. -/
def Host.acts (host : Host) (nc : Netcom CmdAction) (alloc : Bool) : Host :=
  ((nc.log.drop host.nc.log.length).filterMap NetcomEv.call?).foldl
    (fun host c => host.act c.1.action.cb (some c.2) alloc) { host with nc := nc }

def HostWire.step (env : Env) (w : HostWire) : WireEv → Option HostWire
  | .host ev => if w.enters ev then (w.host.step ev).map fun host => { w with host := host } else none
  | .readcb chunk =>
    match w.loop with
    | .idle =>
      match netcomMakeRoom w.host.nc with
      | .returned nc => some { w with host := { w.host with nc := nc } }
      | .room nc _ => some ⟨{ w.host with nc := netcomReceive nc chunk }, .reading⟩
    | _ => none
  | .round alloc =>
    match w.loop with
    | .reading =>
      match netcomIter env w.host.nc with
      | .cont nc => some ⟨w.host.acts nc alloc, .reading⟩
      | .brk nc => some ⟨{ w.host with nc := nc }, .idle⟩
    | _ => none
  | .timeoutcb now =>
    match w.loop with
    | .idle => some { w with loop := .scanning now }
    | _ => none
  | .scan =>
    match w.loop with
    | .scanning now =>
      match netcomExpired w.host.nc now with
      | none => some { w with loop := .idle }
      | some ncwrbuf =>
        some { w with
          host := { w.host with nc := netcomExpire w.host.nc ncwrbuf }.act ncwrbuf.action.cb none false }
    | _ => none
  | .start =>
    match w.loop with
    | .idle => some { w with host := { w.host with nc := l0006NetcomStart w.host.nc } }
    | _ => none
  | .stop =>
    match w.loop with
    | .idle => some { w with host := { w.host with nc := l0006NetcomStop w.host.nc } }
    | _ => none
  | .consume rd2Off => some { w with host := { w.host with nc := { w.host.nc with rd2Off := rd2Off } } }

/-! ## The same commands -/

/-- The commands and their slots are the same; the read buffer may differ. -/
structure Netcom.Shares {α : Type} (nc nc' : Netcom α) : Prop where
  seqno : nc'.seqno = nc.seqno
  connected : nc'.connected = nc.connected
  bev : nc'.bev = nc.bev
  unused : nc'.unused = nc.unused
  used : nc'.used = nc.used

/-- `host'` is `host` with another read buffer. -/
def Host.Agrees (host host' : Host) : Prop := ∃ nc, host.nc.Shares nc ∧ host' = { host with nc := nc }

namespace Netcom.Shares
variable {α : Type} {nc nc' t t' : Netcom α}

theorem refl (nc : Netcom α) : nc.Shares nc := ⟨rfl, rfl, rfl, rfl, rfl⟩

theorem symm (h : nc.Shares nc') : nc'.Shares nc :=
  ⟨h.seqno.symm, h.connected.symm, h.bev.symm, h.unused.symm, h.used.symm⟩

theorem trans (h : nc.Shares t) (h' : t.Shares nc') : nc.Shares nc' :=
  ⟨h'.seqno.trans h.seqno, h'.connected.trans h.connected, h'.bev.trans h.bev, h'.unused.trans h.unused,
    h'.used.trans h.used⟩

theorem lookup (h : nc.Shares nc') (seqno : UInt8) (packet : List UInt8) :
    (netcomLookup nc seqno packet).Shares (netcomLookup nc' seqno packet) := by
  unfold netcomLookup
  rw [h.used]
  split
  · exact ⟨h.seqno, h.connected, h.bev, by rw [h.unused], rfl⟩
  · exact ⟨h.seqno, h.connected, h.bev, h.unused, rfl⟩

theorem expired (h : nc.Shares nc') (now : Timespec) : netcomExpired nc' now = netcomExpired nc now := by
  unfold netcomExpired
  rw [h.used]

theorem expire (h : nc.Shares nc') (ncwrbuf : NetcomWrbuf α) :
    (netcomExpire nc ncwrbuf).Shares (netcomExpire nc' ncwrbuf) := by
  unfold netcomExpire
  exact ⟨h.seqno, h.connected, h.bev, by rw [h.unused], by rw [h.used]⟩

theorem write (h : nc.Shares nc') (action : NetcomAction α) (ack : Bool) (ts : Timespec) (added : Bool) :
    (l0006NetcomWrite nc' action ack ts added).1 = (l0006NetcomWrite nc action ack ts added).1 ∧
      (l0006NetcomWrite nc action ack ts added).2.Shares (l0006NetcomWrite nc' action ack ts added).2 := by
  unfold l0006NetcomWrite
  rw [h.connected, h.unused, h.bev]
  split
  · split
    · split
      · split
        · exact ⟨rfl, h.seqno, rfl, rfl, rfl, by rw [h.used]⟩
        · exact ⟨rfl, h.seqno, rfl, rfl, rfl, h.used⟩
      · exact ⟨rfl, h.seqno, rfl, rfl, rfl, h.used⟩
    · exact ⟨rfl, h⟩
  · exact ⟨rfl, h⟩

theorem netcmdWrite (h : nc.Shares nc') (len : Nat) (action : NetcomAction α) (ts : Timespec) (added : Bool) :
    (l0006NetcmdWrite nc' len action true ts added).1 = (l0006NetcmdWrite nc len action true ts added).1 ∧
      (l0006NetcmdWrite nc len action true ts added).2.Shares (l0006NetcmdWrite nc' len action true ts added).2 := by
  obtain ⟨hret, hshares⟩ := h.write action true ts added
  unfold l0006NetcmdWrite
  rw [hret]
  split
  · exact ⟨rfl, h⟩
  · split
    · exact ⟨rfl, hshares⟩
    · exact ⟨rfl, hshares⟩

end Netcom.Shares

/-! ### A step of a call -/

theorem runCall_shares {host t : Host} {id : Nat} {call : Call} {now : Timespec} {ok : Bool}
    (hstep : host.runCall id call now ok = some t) {nc : Netcom CmdAction} (h : host.nc.Shares nc) :
    ∃ nc', t.nc.Shares nc' ∧ Host.runCall { host with nc := nc } id call now ok = some { t with nc := nc' } := by
  cases hpc : call.pc with
  | format =>
    simp only [Host.runCall, hpc] at hstep ⊢
    split at hstep
    · cases hstep
      rename_i hvalid
      rw [if_pos hvalid]
      refine ⟨{ nc with seqno := nc.seqno + 1 }, ⟨?_, h.connected, h.bev, h.unused, h.used⟩, ?_⟩
      · simp only [l0006NetcomGetseqno, h.seqno]
      · simp only [l0006NetcomGetseqno, h.seqno]
    · cases hstep
      rename_i hvalid
      rw [if_neg hvalid]
      exact ⟨nc, h, rfl⟩
  | write =>
    simp only [Host.runCall, hpc] at hstep ⊢
    obtain ⟨hret, hshares⟩ := h.netcmdWrite (call.header ++ call.fn.cmdset.body).length
      ⟨⟨call.fn.cmdset.actioncb, call.waitTask, call.fn.cmdset.cmd, id⟩, call.seqno⟩ now ok
    rw [hret]
    split at hstep
    · cases hstep
      rename_i hneg
      rw [if_pos hneg]
      exact ⟨_, hshares, rfl⟩
    · cases hstep
      rename_i hneg
      rw [if_neg hneg]
      exact ⟨_, hshares, rfl⟩
  | waiting signalled =>
    simp only [Host.runCall, hpc] at hstep ⊢
    cases ok with
    | true =>
      cases signalled with
      | true =>
        cases hstep
        exact ⟨nc, h, rfl⟩
      | false => cases hstep
    | false =>
      cases hstep
      exact ⟨nc, h, rfl⟩
  | beeping child =>
    simp only [Host.runCall, hpc] at hstep ⊢
    split at hstep <;> cases hstep
    exact ⟨nc, h, rfl⟩
  | wakeupclear | wait | check | ret =>
    simp only [Host.runCall, hpc] at hstep ⊢
    cases hstep
    exact ⟨nc, h, rfl⟩
  | returned v =>
    simp only [Host.runCall, hpc] at hstep
    cases hstep

/-- A callback leaves `nc` alone. -/
theorem act_with (host : Host) (nc : Netcom CmdAction) (cb : CmdAction) (packet : Option (List UInt8)) (alloc : Bool) :
    Host.act { host with nc := nc } cb packet alloc = { host.act cb packet alloc with nc := nc } := by
  simp only [Host.act]
  split <;> rfl

theorem act_shares {host : Host} {nc nc' : Netcom CmdAction} (h : nc.Shares nc') (cb : CmdAction)
    (packet : Option (List UInt8)) (alloc : Bool) :
    (Host.act { host with nc := nc } cb packet alloc).Agrees (Host.act { host with nc := nc' } cb packet alloc) := by
  rw [act_with host nc, act_with host nc']
  exact ⟨nc', h, rfl⟩

/-- What is not an acknowledgement or a timeout happens to `host` as to what agrees with it. -/
theorem step_shares {w : HostWire} {t : Host} {ev : HostEv} (henters : w.enters ev = true)
    (hstep : w.host.step ev = some t) {nc : Netcom CmdAction} (h : w.host.nc.Shares nc) :
    ∃ nc', t.nc.Shares nc' ∧ Host.step { w.host with nc := nc } ev = some { t with nc := nc' } := by
  cases ev with
  | call fn waitTask =>
    cases hstep
    exact ⟨nc, h, rfl⟩
  | run id now ok =>
    simp only [Host.step] at hstep ⊢
    split at hstep
    · cases hstep
    · exact runCall_shares hstep h
  | ack packet alloc => cases henters
  | expire now => cases henters
  | wakeup task =>
    cases hstep
    exact ⟨nc, h, rfl⟩
  | chgstat task newstate =>
    cases hstep
    exact ⟨nc, h, rfl⟩
  | link connected bev =>
    cases hstep
    exact ⟨{ nc with connected := connected, bev := bev }, ⟨h.seqno, rfl, rfl, h.unused, h.used⟩, rfl⟩

/-! ### The read buffer -/

theorem Netcom.SameBuffer.log {α : Type} {nc t : Netcom α} (h : nc.SameBuffer t) : t.log = nc.log := by
  unfold Netcom.SameBuffer at h
  rw [h]

theorem step_buffer {w : HostWire} {t : Host} {ev : HostEv} (henters : w.enters ev = true)
    (hstep : w.host.step ev = some t) : w.host.nc.SameBuffer t.nc := by
  cases ev with
  | run id now ok =>
    obtain ⟨call, -, hrun⟩ := step_run hstep
    cases runCall_turn hrun with
    | gives nc _ _ hbuffer => exact hbuffer
    | sends nc slot _ _ hbuffer => exact hbuffer
    | formats | clears | tests | wakes | restarts | looks | rests | returns => exact rfl
  | ack packet alloc => cases henters
  | expire now => cases henters
  | call | wakeup | chgstat | link =>
    cases hstep
    exact rfl

/-! ## Rounds -/

/-- What an event looks up. -/
def HostEv.acked? : HostEv → Option (UInt8 × List UInt8)
  | .ack packet _ => some (seqnoOf packet, packet)
  | _ => none

theorem acts_eq (host : Host) {nc : Netcom CmdAction} {evs : List (NetcomEv CmdAction)} (hlog : nc.log = host.nc.log ++ evs)
    (alloc : Bool) : host.acts nc alloc =
      (evs.filterMap NetcomEv.call?).foldl (fun host c => host.act c.1.action.cb (some c.2) alloc)
        { host with nc := nc } := by
  rw [Host.acts, hlog, List.drop_left]

/-- The callbacks leave `nc` alone. -/
theorem acts_nc (host : Host) (nc : Netcom CmdAction) (alloc : Bool) : (host.acts nc alloc).nc = nc := by
  have hfold : ∀ (called : List (NetcomWrbuf CmdAction × List UInt8)) (host : Host),
      (called.foldl (fun host c => host.act c.1.action.cb (some c.2) alloc) host).nc = host.nc := by
    intro called
    induction called with
    | nil => exact fun _ => rfl
    | cons c called ih => exact fun host => (ih _).trans (act_nc host _ _ _)
  exact hfold _ _

/-- What is no search. -/
def NetcomEv.Plain {α : Type} (ev : NetcomEv α) : Prop := ev.frame.bind Frame.lookup? = none

theorem plain_calls {α : Type} {evs : List (NetcomEv α)} (hevs : ∀ ev ∈ evs, ev.Plain) :
    evs.filterMap NetcomEv.call? = [] := by
  refine List.filterMap_eq_nil_iff.2 fun ev hev => ?_
  have hplain := hevs ev hev
  cases ev with
  | lookup => cases hplain
  | append | drop | discard => rfl

theorem plain_lookups {α : Type} {nc t : Netcom α} {evs : List (NetcomEv α)} (hlog : t.log = nc.log ++ evs)
    (hevs : ∀ ev ∈ evs, ev.Plain) : t.lookups = nc.lookups := by
  unfold Netcom.lookups
  rw [hlog, List.filterMap_append]
  refine (congrArg _ (List.filterMap_eq_nil_iff.2 fun ev hev => ?_)).trans (List.append_nil _)
  have hplain := hevs ev hev
  cases ev with
  | lookup => cases hplain
  | append | drop | discard => rfl

/-- The packet that a round looks up is a frame. -/
theorem commandFrame_take {p : List UInt8} (hvalid : netcmdIsvalidpacketheader p = true)
    (hcmd : cmdOf p ≠ l0006NetcmdAddata) (hle : commandLength p ≤ p.length) :
    CommandFrame (p.take (commandLength p)) ∧ seqnoOf (p.take (commandLength p)) = seqnoOf p := by
  have hlen : (p.take (commandLength p)).length = commandLength p := List.length_take_of_le hle
  have h8 : 8 ≤ (p.take (commandLength p)).length := by
    rcases commandLength_cases p with h | h <;> omega
  have hcat : p.take (commandLength p) ++ p.drop (commandLength p) = p := List.take_append_drop _ _
  have hvalid' := isvalid_append (p.drop (commandLength p)) h8
  have hcmd' := cmdOf_append (p.drop (commandLength p)) h8
  have hlength' := commandLength_append (p.drop (commandLength p)) h8
  have hseqno' := seqnoOf_append (p.drop (commandLength p)) h8
  rw [hcat] at hvalid' hcmd' hlength' hseqno'
  exact ⟨⟨hvalid'.symm.trans hvalid, hcmd' ▸ hcmd, hlen.trans hlength'⟩, hseqno'.symm⟩

/-- What a round is for the commands: nothing, or the search for one of them. -/
inductive Acknowledges {α : Type} (nc : Netcom α) : Outcome (Netcom α) → Prop
  | quiet {o : Outcome (Netcom α)} (evs : List (NetcomEv α)) : nc.Shares o.state → o.state.log = nc.log ++ evs →
      (∀ ev ∈ evs, ev.Plain) → Acknowledges nc o
  | ack (packet : List UInt8) (n : Nat) : CommandFrame packet →
      Acknowledges nc (.cont (netcomRemove (netcomLookup nc (seqnoOf packet) packet) n))

theorem resync_acknowledges {α : Type} (nc : Netcom α) : Acknowledges nc (netcomResync nc) := by
  unfold netcomResync netcomFindHeader
  generalize findHeaderLoop nc.blob nc.wrOff (nc.wrOff - (nc.rd1Off + netcmdGetpacketheaderlength))
    (nc.rd1Off + netcmdGetpacketheaderlength) = r
  obtain ⟨rd1Off, headFound⟩ := r
  have hplain : ∀ ev ∈ [NetcomEv.discard (α := α) (StreamLib.Mem.slice nc.blob nc.rd1Off (rd1Off - nc.rd1Off))],
      ev.Plain := by
    intro ev hev
    rw [List.mem_singleton.1 hev]
    rfl
  cases headFound with
  | true => exact .quiet (o := .cont (netcomDiscard nc rd1Off)) _ ⟨rfl, rfl, rfl, rfl, rfl⟩ rfl hplain
  | false => exact .quiet (o := .brk (netcomDiscard nc rd1Off)) _ ⟨rfl, rfl, rfl, rfl, rfl⟩ rfl hplain

theorem round_acknowledges {α : Type} {env : Env} {nc : Netcom α} {o : Outcome (Netcom α)} (h : Round env nc o) :
    Acknowledges nc o := by
  have hone : ∀ ev : NetcomEv α, ev.Plain → ∀ e ∈ [ev], e.Plain := by
    intro ev hplain e he
    rwa [List.mem_singleton.1 he]
  cases h with
  | short | incomplete | partialCommand | zeroStream =>
    exact .quiet [] (.refl nc) (List.append_nil _).symm fun ev hev => by cases hev
  | badHeader | tooLong | badCrc => exact resync_acknowledges nc
  | append blob => exact .quiet _ ⟨rfl, rfl, rfl, rfl, rfl⟩ rfl (hone _ rfl)
  | drop => exact .quiet _ ⟨rfl, rfl, rfl, rfl, rfl⟩ rfl (hone _ rfl)
  | command h8 hvalid hcmd hle =>
    obtain ⟨hframe, hseqno⟩ := commandFrame_take hvalid hcmd hle
    rw [← hseqno]
    exact .ack _ _ hframe

theorem lookup_log {α : Type} (nc : Netcom α) (seqno : UInt8) (packet : List UInt8) :
    (netcomLookup nc seqno packet).log =
      nc.log ++ [.lookup seqno packet (nc.used.find? fun ncwrbuf => ncwrbuf.action.seqno == seqno)] := by
  unfold netcomLookup
  split <;> simp only [*]

/-- The search of a round, and the acknowledgement of what agrees with it. -/
theorem ack_refines {host : Host} {packet : List UInt8} (hframe : CommandFrame packet) (n : Nat) (alloc : Bool)
    {nc : Netcom CmdAction} (h : host.nc.Shares nc) :
    ∃ host', Host.step { host with nc := nc } (.ack packet alloc) = some host' ∧
      (host.acts (netcomRemove (netcomLookup host.nc (seqnoOf packet) packet) n) alloc).Agrees host' := by
  have hlog : (netcomRemove (netcomLookup host.nc (seqnoOf packet) packet) n).log = host.nc.log ++ [.lookup _ _ _] :=
    lookup_log host.nc (seqnoOf packet) packet
  have hshares := h.lookup (seqnoOf packet) packet
  have hremoved : (netcomRemove (netcomLookup host.nc (seqnoOf packet) packet) n).Shares
      (netcomLookup nc (seqnoOf packet) packet) :=
    ⟨hshares.seqno, hshares.connected, hshares.bev, hshares.unused, hshares.used⟩
  rw [acts_eq host hlog]
  simp only [Host.step, if_pos hframe, h.used]
  cases host.nc.used.find? fun ncwrbuf => ncwrbuf.action.seqno == seqnoOf packet with
  | none => exact ⟨_, rfl, _, hremoved, rfl⟩
  | some ncwrbuf => exact ⟨_, rfl, act_shares hremoved ncwrbuf.action.cb (some packet) alloc⟩

/-! ## Runs -/

/-- The host has taken the steps `evs` for what has led from `w` to `w'`. -/
structure Matched (w w' : HostWire) (host : Host) (evs : List HostEv) (host' : Host) : Prop where
  run : exec Host.step host evs = some host'
  agrees : w'.host.Agrees host'
  lookups : w'.host.nc.lookups = w.host.nc.lookups ++ evs.filterMap HostEv.acked?

namespace Matched
variable {w w' : HostWire} {host host' : Host} {evs : List HostEv}

theorem trans {w'' : HostWire} {host'' : Host} {evs' : List HostEv} (h : Matched w w' host evs host')
    (h' : Matched w' w'' host' evs' host'') : Matched w w'' host (evs ++ evs') host'' where
  run := by
    rw [exec_append, h.run]
    exact h'.run
  agrees := h'.agrees
  lookups := by rw [h'.lookups, h.lookups, List.filterMap_append, List.append_assoc]

/-- The host does not move. -/
theorem still (nc : Netcom CmdAction) (hagrees : w.host.Agrees host) (hhost : w'.host = { w.host with nc := nc })
    (hshares : w.host.nc.Shares nc) (hlookups : nc.lookups = w.host.nc.lookups) : Matched w w' host [] host where
  run := rfl
  agrees := by
    obtain ⟨nc', h, rfl⟩ := hagrees
    rw [hhost]
    exact ⟨nc', hshares.symm.trans h, rfl⟩
  lookups := by
    rw [hhost]
    exact hlookups.trans (List.append_nil _).symm

theorem one {ev : HostEv} (hstep : host.step ev = some host') (hagrees : w'.host.Agrees host')
    (hlookups : w'.host.nc.lookups = w.host.nc.lookups ++ ev.acked?.toList) : Matched w w' host [ev] host' where
  run := exec_cons [] hstep
  agrees := hagrees
  lookups := by
    rw [hlookups, List.filterMap_cons]
    cases ev.acked? <;> rfl

end Matched

theorem round_refines {w w' : HostWire} {o : Outcome (Netcom CmdAction)} (alloc : Bool)
    (h : Acknowledges w.host.nc o) {host : Host} (hagrees : w.host.Agrees host)
    (hcont : ∀ nc, o = .cont nc → w'.host = w.host.acts nc alloc)
    (hbrk : ∀ nc, o = .brk nc → w'.host = { w.host with nc := nc }) :
    ∃ evs host', Matched w w' host evs host' := by
  cases h with
  | quiet evs hshares hlog hplain =>
    refine ⟨[], host, .still o.state hagrees ?_ hshares (plain_lookups hlog hplain)⟩
    cases o with
    | cont nc =>
      have hlog' : nc.log = w.host.nc.log ++ evs := hlog
      rw [hcont nc rfl, acts_eq w.host hlog', plain_calls hplain]
      rfl
    | brk nc => exact hbrk nc rfl
  | ack packet n hframe =>
    obtain ⟨nc, hshares, rfl⟩ := hagrees
    obtain ⟨host', hstep, hagrees'⟩ := ack_refines hframe n alloc hshares
    have hhost := hcont _ rfl
    refine ⟨[.ack packet alloc], host', .one hstep (hhost ▸ hagrees') ?_⟩
    have hlog : w'.host.nc.log = (netcomLookup w.host.nc (seqnoOf packet) packet).log := by
      rw [hhost, acts_nc]
      rfl
    rw [Netcom.lookups, hlog, lookup_log, List.filterMap_append]
    rfl

theorem step_refines {w w' : HostWire} {env : Env} {ev : WireEv} (hstep : w.step env ev = some w') {host : Host}
    (hagrees : w.host.Agrees host) : ∃ evs host', Matched w w' host evs host' := by
  have hring : ∀ nc, w'.host = { w.host with nc := nc } → w.host.nc.Shares nc → nc.log = w.host.nc.log →
      ∃ evs host', Matched w w' host evs host' := fun nc hhost hshares hlog =>
    ⟨[], host, .still nc hagrees hhost hshares (by rw [Netcom.lookups, hlog]; rfl)⟩
  cases ev with
  | host ev =>
    simp only [HostWire.step] at hstep
    split at hstep
    · rename_i henters
      obtain ⟨t, ht, rfl⟩ := Option.map_eq_some_iff.1 hstep
      obtain ⟨nc, hshares, rfl⟩ := hagrees
      obtain ⟨nc', hshares', hstep'⟩ := step_shares henters ht hshares
      refine ⟨[ev], _, .one hstep' ⟨nc', hshares', rfl⟩ ?_⟩
      have hnone : ev.acked? = none := by
        cases ev with
        | ack => cases henters
        | call | run | expire | wakeup | chgstat | link => rfl
      rw [hnone, Netcom.lookups, (step_buffer henters ht).log]
      exact (List.append_nil _).symm
    · cases hstep
  | readcb chunk =>
    simp only [HostWire.step] at hstep
    split at hstep
    · have hready := ready_of w.host.nc
      generalize netcomMakeRoom w.host.nc = r at hready hstep
      cases hready with
      | reset | drop =>
        cases hstep
        exact hring _ rfl ⟨rfl, rfl, rfl, rfl, rfl⟩ rfl
      | here | rewind =>
        cases hstep
        exact hring _ rfl ⟨rfl, rfl, rfl, rfl, rfl⟩ rfl
    · cases hstep
  | round alloc =>
    simp only [HostWire.step] at hstep
    split at hstep
    · have hround : Acknowledges w.host.nc (netcomIter env w.host.nc) :=
        round_acknowledges (round_of (rfl : netcomIter env w.host.nc = _))
      refine round_refines alloc hround hagrees (fun nc ho => ?_) (fun nc ho => ?_)
      · rw [ho] at hstep
        cases hstep
        rfl
      · rw [ho] at hstep
        cases hstep
        rfl
    · cases hstep
  | timeoutcb now =>
    simp only [HostWire.step] at hstep
    split at hstep <;> cases hstep
    exact hring _ rfl (.refl _) rfl
  | scan =>
    simp only [HostWire.step] at hstep
    split at hstep
    · rename_i now hloop
      split at hstep
      · cases hstep
        exact hring _ rfl (.refl _) rfl
      · rename_i ncwrbuf hexp
        cases hstep
        obtain ⟨nc, hshares, rfl⟩ := hagrees
        refine ⟨[.expire now], _, .one (by simp only [Host.step, hshares.expired, hexp])
          (act_shares (hshares.expire ncwrbuf) _ _ _) ?_⟩
        simp only [act_nc]
        exact (List.append_nil _).symm
    · cases hstep
  | start =>
    simp only [HostWire.step] at hstep
    split at hstep <;> cases hstep
    exact hring _ rfl ⟨rfl, rfl, rfl, rfl, rfl⟩ rfl
  | stop =>
    simp only [HostWire.step] at hstep
    split at hstep <;> cases hstep
    exact hring _ rfl ⟨rfl, rfl, rfl, rfl, rfl⟩ rfl
  | consume rd2Off =>
    cases hstep
    exact hring _ rfl ⟨rfl, rfl, rfl, rfl, rfl⟩ rfl

theorem run_refines {w w' : HostWire} {env : Env} {evs : List WireEv} (hrun : exec (HostWire.step env) w evs = some w')
    {host : Host} (hagrees : w.host.Agrees host) : ∃ hevs host', Matched w w' host hevs host' := by
  induction evs generalizing w host with
  | nil =>
    cases hrun
    exact ⟨[], host, .still _ hagrees rfl (.refl _) rfl⟩
  | cons ev evs ih =>
    obtain ⟨t, ht, hrest⟩ := exec_cons_eq_some.1 hrun
    obtain ⟨hevs₁, host₁, h₁⟩ := step_refines ht hagrees
    obtain ⟨hevs₂, host₂, h₂⟩ := ih hrest h₁.agrees
    exact ⟨hevs₁ ++ hevs₂, host₂, h₁.trans h₂⟩

/-- Every run over the bytes, whatever they are and however the threads and the rounds of the
loops take turns, is a run of `Host`: it has the same tasks, calls, commands in their slots,
bytes sent and callbacks run, and acknowledges just the packets the receiver has searched for,
in their order. -/
theorem wire_refines_host (env : Env) (evs : List WireEv) (w : HostWire)
    (hrun : exec (HostWire.step env) HostWire.init evs = some w) :
    ∃ hevs host, exec Host.step Host.init hevs = some host ∧ w.host.Agrees host ∧
      w.host.nc.lookups = hevs.filterMap HostEv.acked? := by
  have hagrees : HostWire.init.host.Agrees Host.init := ⟨Host.init.nc, .refl _, rfl⟩
  obtain ⟨hevs, host, h⟩ := run_refines hrun hagrees
  exact ⟨hevs, host, h.run, h.agrees, h.lookups⟩

/-- `l0006_cmdset_setwindowsize` sends its command and waits. -/
def windowsizeSent : List WireEv :=
  .host (.link true (some 0)) :: .host (.call (.setwindowsize 1) 0) ::
    List.replicate 4 (.host (.run 0 ⟨0, 0⟩ true))

/-- The acknowledgement comes in two reads; the call goes on between them, and in the loop. -/
def windowsizeAcked : List WireEv :=
  let packet := l0006NetcmdFormat l0006NetcmdWinsizeack 0 4 1
  [.readcb (packet.take 3), .round true, .host (.run 0 ⟨1, 0⟩ false), .readcb (packet.drop 3), .round true,
    .host (.run 0 ⟨1, 0⟩ true), .round true]

theorem wire_refines_windowsize : ∃ w, exec (HostWire.step .still) HostWire.init (windowsizeSent ++ windowsizeAcked) =
    some w ∧ ∃ hevs host, exec Host.step Host.init hevs = some host ∧ w.host.Agrees host ∧
      w.host.nc.lookups = hevs.filterMap HostEv.acked? := by
  have hend : (exec (HostWire.step .still) HostWire.init (windowsizeSent ++ windowsizeAcked)).isSome = true := by
    decide +kernel
  obtain ⟨w, hrun⟩ := Option.isSome_iff_exists.1 hend
  exact ⟨w, hrun, wire_refines_host .still _ w hrun⟩

end CmdAgent
