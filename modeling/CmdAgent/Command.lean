import CmdAgent.Netcom
/-!
# Commands and their acknowledgements

`l0006_netcmd_general_command` and its siblings register an action with
`l0006_netcom_write`; the event loop calls it when `netcom_readcb` finds the
acknowledgement of the command or `netcom_timeoutcb` finds it too old.
-/
open StreamLib.Mem

namespace CmdAgent

/-! ## Formatting -/

/-- `L0006_NETCMD_FORMAT` -/
def l0006NetcmdFormat (cmd seqno func1 func2 : UInt8) : List UInt8 :=
  let head := [0xEF, 0xBE, cmd, seqno, func1, func2]
  let crc := crc16 0 head
  head ++ [crc.toUInt8, (crc >>> 8).toUInt8]

/-- -1 for what is not a command. -/
def l0006NetcmdGetackcmd (cmd : UInt8) : Int :=
  if cmd = l0006NetcmdBuzz then l0006NetcmdBuzzack.toNat
  else if cmd = l0006NetcmdBlink then l0006NetcmdBlinkack.toNat
  else if cmd = l0006NetcmdWinsize then l0006NetcmdWinsizeack.toNat
  else if cmd = l0006NetcmdReset then l0006NetcmdResetack.toNat
  else if cmd = l0006NetcmdVersion then l0006NetcmdVersionack.toNat
  else if cmd = l0006NetcmdDebugmode then l0006NetcmdDebugmodeack.toNat
  else if cmd = l0006NetcmdDevstat then l0006NetcmdDevstatack.toNat
  else if cmd = l0006NetcmdRecover then l0006NetcmdRecoverack.toNat
  else if cmd = l0006NetcmdSaveconf then l0006NetcmdSaveconfack.toNat
  else -1

/-! ## Action callbacks -/

def l0006NetcomAckSuccess : Int := 0
def l0006NetcomAckFail : Int := 1
def l0006NetcomAckTimeout : Int := 2

def l0006NetcmdSaveconfFlagRead : UInt8 := 0
def l0006NetcmdSaveconfFlagWrite : UInt8 := 1
def l0006NetcmdSaveconfFlagSuccess : UInt8 := 0x9A

/-- What a callback does: `*outret`, what it stores through `out[1]`, whether it
wakes the task, and its result. -/
structure Acted where
  outret : Int
  out : Option (List UInt8)
  wakeup : Bool
  ret : Int
  deriving DecidableEq

/-- The frame of the three callbacks, with `onAck` what they do with the expected
acknowledgement. `none` is the call with `timedout` set. -/
def netcmdAction (onAck : List UInt8 → Int × Option (List UInt8)) (cmd : UInt8) : Option (List UInt8) → Acted
  | some pkt =>
    if (cmdOf pkt).toNat = l0006NetcmdGetackcmd cmd then ⟨(onAck pkt).1, (onAck pkt).2, true, 0⟩
    else ⟨l0006NetcomAckFail, none, false, -1⟩
  | none => ⟨l0006NetcomAckTimeout, none, true, -1⟩

def l0006NetcmdGeneralAction : UInt8 → Option (List UInt8) → Acted :=
  netcmdAction fun _ => (l0006NetcomAckSuccess, none)

/-- A copy of the packet is stored if there is memory for it. -/
def l0006NetcmdGeneralAction2 (alloc : Bool) : UInt8 → Option (List UInt8) → Acted :=
  netcmdAction fun pkt => (l0006NetcomAckSuccess, if alloc then some (pkt.take l0006NetcmdHeaderSize) else none)

/-- `c[0]` is a flag, `c[1]` the length of the data behind it. -/
def l0006NetcmdExGeneralAction (sz : UInt8) : UInt8 → Option (List UInt8) → Acted :=
  netcmdAction fun pkt =>
    if cmdOf pkt = l0006NetcmdSaveconfack then
      let flag := pkt.getD 8 0
      let length := pkt.getD 9 0
      if flag = l0006NetcmdSaveconfFlagSuccess then
        if sz = 0 then (l0006NetcomAckSuccess, none)
        else if length < sz then (l0006NetcomAckSuccess, some ((pkt.drop 10).take length.toNat))
        else (l0006NetcomAckFail, none)
      else (l0006NetcomAckFail, none)
    else (l0006NetcomAckSuccess, none)

/-- `actioncb` -/
inductive Actioncb where
  | general
  | general2
  | exGeneral (sz : UInt8)
  deriving DecidableEq

def Actioncb.call (actioncb : Actioncb) (alloc : Bool) : UInt8 → Option (List UInt8) → Acted :=
  match actioncb with
  | .general => l0006NetcmdGeneralAction
  | .general2 => l0006NetcmdGeneralAction2 alloc
  | .exGeneral sz => l0006NetcmdExGeneralAction sz

/-- `actioncb` with its `in` and `out` lists. `outret` is the call of the command
whose result variable and buffer `out` points to. -/
structure CmdAction where
  actioncb : Actioncb
  wait : Nat
  cmd : UInt8
  outret : Nat
  deriving DecidableEq

instance : Inhabited CmdAction := ⟨⟨.general, 0, 0, 0⟩⟩

/-- Success is reported for the acknowledgement of the command only. -/
theorem acked_of_success {actioncb : Actioncb} {alloc : Bool} {cmd : UInt8} {p : Option (List UInt8)}
    (h : (actioncb.call alloc cmd p).outret = l0006NetcomAckSuccess) :
    ∃ pkt, p = some pkt ∧ (cmdOf pkt).toNat = l0006NetcmdGetackcmd cmd := by
  have hframe : ∀ onAck, (netcmdAction onAck cmd p).outret = l0006NetcomAckSuccess →
      ∃ pkt, p = some pkt ∧ (cmdOf pkt).toNat = l0006NetcmdGetackcmd cmd := by
    intro onAck ho
    unfold netcmdAction at ho
    cases p with
    | none => cases ho
    | some pkt =>
      by_cases hack : (cmdOf pkt).toNat = l0006NetcmdGetackcmd cmd
      · exact ⟨pkt, rfl, hack⟩
      · simp only [if_neg hack] at ho
        cases ho
  cases actioncb with
  | general => exact hframe _ h
  | general2 => exact hframe _ h
  | exGeneral sz => exact hframe _ h

/-! ## `l0006_netcom_write` and `netcom_timeoutcb` -/

variable {α : Type}

def l0006NetcomWrbufferDefault : Nat := 128

/-- `added` is whether `evbuffer_add` has memory, `ts` the time. The slot in front
keeps the action even where the command is not sent. -/
def l0006NetcomWrite (nc : Netcom α) (ncaction : NetcomAction α) (ack : Bool) (ts : Timespec) (added : Bool) :
    Int × Netcom α :=
  if nc.connected then
    match nc.unused, nc.bev with
    | ncwrbuf :: unused, some _ =>
      let ncwrbuf := { ncwrbuf with ts := ts, action := ncaction }
      if added then
        if ack then (0, { nc with unused := unused, used := nc.used ++ [ncwrbuf] })
        else (0, { nc with unused := ncwrbuf :: unused })
      else (-1, { nc with unused := ncwrbuf :: unused })
    | _, _ => (-1, nc)
  else (-1, nc)

def l0006NetcmdWrite (nc : Netcom α) (len : Nat) (action : NetcomAction α) (ack : Bool) (ts : Timespec) (added : Bool) :
    Int × Netcom α :=
  if len > l0006NetcomWrbufferDefault ∨ len < l0006NetcmdHeaderSize then (-1, nc)
  else if (l0006NetcomWrite nc action ack ts added).1 < 0 then (-1, (l0006NetcomWrite nc action ack ts added).2)
  else (0, (l0006NetcomWrite nc action ack ts added).2)

def l0006NetcomTimeoutPeriodMs : Nat := 3000

/-- The test of `netcom_timeoutcb` on the entry in front. -/
def netcomExpired (nc : Netcom α) (now : Timespec) : Option (NetcomWrbuf α) :=
  match nc.used with
  | [] => none
  | ncwrbuf :: _ =>
    if l0001Timespecelapsed now ncwrbuf.ts > l0006NetcomTimeoutPeriodMs then some ncwrbuf else none

/-- The entry in front goes back to the unused list. -/
def netcomExpire (nc : Netcom α) (ncwrbuf : NetcomWrbuf α) : Netcom α :=
  { nc with used := nc.used.tail, unused := nc.unused ++ [ncwrbuf] }

theorem expired_used {nc : Netcom α} {now : Timespec} {ncwrbuf : NetcomWrbuf α}
    (h : netcomExpired nc now = some ncwrbuf) :
    ∃ l, nc.used = ncwrbuf :: l := by
  unfold netcomExpired at h
  split at h
  · cases h
  · split at h <;> cases h
    exact ⟨_, ‹_›⟩

/-- The entry found for a packet has its number and leaves the used list. -/
theorem lookup_used {nc : Netcom α} {seqno : UInt8} {ncwrbuf : NetcomWrbuf α}
    (h : nc.used.find? (fun ncwrbuf => ncwrbuf.action.seqno == seqno) = some ncwrbuf) (packet : List UInt8) :
    ncwrbuf.action.seqno = seqno ∧
      ∃ l₁ l₂, nc.used = l₁ ++ ncwrbuf :: l₂ ∧ (netcomLookup nc seqno packet).used = l₁ ++ l₂ := by
  obtain ⟨hseq, l₁, l₂, hused, hbefore⟩ := List.find?_eq_some_iff_append.1 h
  refine ⟨beq_iff_eq.1 hseq, l₁, l₂, hused, ?_⟩
  unfold netcomLookup
  rw [h]
  dsimp only
  rw [hused, List.eraseP_append_right _ fun b hb => by simpa using hbefore b hb]
  simp [beq_iff_eq.1 hseq]

theorem write_cases (nc : Netcom α) (action : NetcomAction α) (ts : Timespec) (added : Bool) :
    (l0006NetcomWrite nc action true ts added).1 = -1 ∧ (l0006NetcomWrite nc action true ts added).2.used = nc.used ∨
      (l0006NetcomWrite nc action true ts added).1 = 0 ∧
        ∃ slot, (l0006NetcomWrite nc action true ts added).2.used = nc.used ++ [⟨slot, ts, action⟩] := by
  unfold l0006NetcomWrite
  split
  · split
    · cases added with
      | false => exact .inl ⟨rfl, rfl⟩
      | true => exact .inr ⟨rfl, _, rfl⟩
    · exact .inl ⟨rfl, rfl⟩
  · exact .inl ⟨rfl, rfl⟩

/-- A command that is not sent leaves the used list alone; one that is sent is
behind the others. -/
theorem netcmdWrite_cases (nc : Netcom α) (len : Nat) (action : NetcomAction α) (ts : Timespec) (added : Bool) :
    (l0006NetcmdWrite nc len action true ts added).1 = -1 ∧
        (l0006NetcmdWrite nc len action true ts added).2.used = nc.used ∨
      (l0006NetcmdWrite nc len action true ts added).1 = 0 ∧
        ∃ slot, (l0006NetcmdWrite nc len action true ts added).2.used = nc.used ++ [⟨slot, ts, action⟩] := by
  unfold l0006NetcmdWrite
  split
  · exact .inl ⟨rfl, rfl⟩
  · rcases write_cases nc action ts added with ⟨hret, hused⟩ | ⟨hret, slot, hused⟩
    · rw [if_pos (by rw [hret]; decide)]
      exact .inl ⟨rfl, hused⟩
    · rw [if_neg (by rw [hret]; decide)]
      exact .inr ⟨rfl, slot, hused⟩

/-- `t` is `nc` but for the commands and their slots. -/
def Netcom.SameBuffer (nc t : Netcom α) : Prop :=
  t = { nc with seqno := t.seqno, connected := t.connected, bev := t.bev, unused := t.unused, used := t.used }

theorem netcmdWrite_buffer (nc : Netcom α) (len : Nat) (action : NetcomAction α) (ts : Timespec) (added : Bool) :
    nc.SameBuffer (l0006NetcmdWrite nc len action true ts added).2 := by
  have hwrite : nc.SameBuffer (l0006NetcomWrite nc action true ts added).2 := by
    unfold l0006NetcomWrite
    split
    · split
      · cases added <;> exact rfl
      · exact rfl
    · exact rfl
  unfold l0006NetcmdWrite
  split
  · exact rfl
  · split <;> exact hwrite

end CmdAgent
