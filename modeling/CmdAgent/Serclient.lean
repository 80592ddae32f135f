import CmdAgent.StreamLib.Mem
import CmdAgent.StreamLib.Reads
import CmdAgent.Crc
/-!
# `serclient.c`: what a client sends

`SercltInfo` is `struct serclt_info` without the parts only messages use. The
data blob is the memory from `data_blob` on; the first `sercltRdbufferSize` bytes
are allocated. The offsets are `uint32_t`, and so is their difference. Both
callbacks are set, as `sercom` sets them. The log is a history of their calls.
-/
open StreamLib.Mem StreamLib.Loop StreamLib.Runs StreamLib.Reads

namespace CmdAgent

/-! ## Packets -/

@[simp] abbrev sercltRdbufferSize : Nat := 204800
/-- `sizeof(struct agent_packet)` -/
@[simp] abbrev agentPacketHeadLen : Nat := 9
/-- `sizeof(struct cmd_packet)` -/
@[simp] abbrev cmdPacketHeadLen : Nat := 8

def agentInitPacketHeadMagic : UInt16 := 0xFCFA

/-- `struct agent_packet` -/
structure AgentPacket where
  magic : UInt16
  devip : UInt8 × UInt8 × UInt8 × UInt8
  port : UInt16
  cltid : UInt8
  deriving DecidableEq

def AgentPacket.ofBytes (packet : List UInt8) : AgentPacket where
  magic := le16 (packet.getD 0 0) (packet.getD 1 0)
  devip := (packet.getD 2 0, packet.getD 3 0, packet.getD 4 0, packet.getD 5 0)
  port := le16 (packet.getD 6 0) (packet.getD 7 0)
  cltid := packet.getD 8 0

/-- `sprintf` with `"%u.%u.%u.%u"` -/
def sprintfDevip (devip : UInt8 × UInt8 × UInt8 × UInt8) : String :=
  toString devip.1.toNat ++ "." ++ toString devip.2.1.toNat ++ "." ++ toString devip.2.2.1.toNat ++ "." ++
    toString devip.2.2.2.toNat

/-! ## State -/

inductive SercltEv where
  /-- `registerdevice(param, devip, devport)` -/
  | registerdevice (devip : String) (devport : UInt16)
  /-- `transmitpacket(param, devip, devport, nsocket, packet, len)`, with the bytes at
  `packet`. -/
  | transmitpacket (devip : String) (devport : UInt16) (nsocket : Int) (packet : List UInt8)
  deriving DecidableEq

structure SercltInfo where
  nsocket : Int
  devip : String
  devport : UInt16
  cltid : UInt8
  dataBlob : Nat → UInt8
  rdOff : Nat
  wrOff : Nat
  errorCount : UInt32
  log : List SercltEv

/-- `serclt_initialize` in what `_sernet_acceptcb` has allocated for `nsocket`. -/
def sercltInitialize (nsocket : Int) (dataBlob : Nat → UInt8) : SercltInfo where
  nsocket := nsocket
  devip := ""
  devport := 0
  cltid := 0
  dataBlob := dataBlob
  rdOff := 0
  wrOff := 0
  errorCount := 0
  log := []

/-- `wr_off - rd_off`, on `uint32_t` -/
def SercltInfo.remainLen (serclt : SercltInfo) : Nat := (serclt.wrOff + (2 ^ 32 - serclt.rdOff % 2 ^ 32)) % 2 ^ 32

/-- `[rd_off, wr_off)` -/
def SercltInfo.pending (serclt : SercltInfo) : List UInt8 :=
  slice serclt.dataBlob serclt.rdOff (serclt.wrOff - serclt.rdOff)

/-! ## `serclt_recvdata` -/

/-- `bufferevent_read` putting `chunk` at `wr_off`. -/
def sercltReceive (serclt : SercltInfo) (chunk : List UInt8) : SercltInfo :=
  { serclt with
    dataBlob := store serclt.dataBlob serclt.wrOff chunk
    wrOff := serclt.wrOff + chunk.length }

/-- What `agent_head` points to. -/
def SercltInfo.agentHead (serclt : SercltInfo) : AgentPacket :=
  .ofBytes (slice serclt.dataBlob serclt.rdOff agentPacketHeadLen)

/-- An init packet is taken. -/
def sercltInit (serclt : SercltInfo) : SercltInfo :=
  let devip := sprintfDevip serclt.agentHead.devip
  { serclt with
    devip := devip
    devport := serclt.agentHead.port
    cltid := serclt.agentHead.cltid
    rdOff := (serclt.rdOff + agentPacketHeadLen) % 2 ^ 32
    log := serclt.log ++ [.registerdevice devip serclt.agentHead.port] }

/-- Commands without a device are refused. -/
def sercltRefuse (serclt : SercltInfo) : SercltInfo :=
  { serclt with errorCount := serclt.errorCount + 1, wrOff := 0, rdOff := 0 }

/-- What is buffered goes to the device. -/
def sercltTransmit (serclt : SercltInfo) : SercltInfo :=
  { serclt with
    wrOff := 0
    rdOff := 0
    log := serclt.log ++ [.transmitpacket serclt.devip serclt.devport serclt.nsocket
      (slice serclt.dataBlob serclt.rdOff serclt.remainLen)] }

/-- One round of the `while` loop, its test included. The magic is that of
`cmd_head`, at the same place as that of `agent_head`. -/
def sercltIter (serclt : SercltInfo) : Outcome SercltInfo :=
  if serclt.remainLen ≥ cmdPacketHeadLen then
    -- Nothing asks for the ninth byte of an init packet.
    if serclt.agentHead.magic = agentInitPacketHeadMagic then .cont (sercltInit serclt)
    else if serclt.devport ≤ 0 then .brk (sercltRefuse serclt)
    else .cont (sercltTransmit serclt)
  else .brk serclt

/-- `serclt_recvdata`, with `chunk` what `bufferevent_read` returns. The loop takes
fewer than `2 ^ 32` rounds (`recvdata_total`). -/
def sercltRecvdata (serclt : SercltInfo) (chunk : List UInt8) : Option SercltInfo :=
  read sercltIter (2 ^ 32) sercltReceive serclt chunk

/-- A read returns at most the space left. -/
def SercltFits (serclt : SercltInfo) (chunk : List UInt8) : Prop := chunk.length ≤ sercltRdbufferSize - serclt.wrOff

/-- The run over `chunks` passes through `u` when `bytes` have been received. -/
abbrev SercltVisits : SercltInfo → List (List UInt8) → List UInt8 → SercltInfo → Prop :=
  Visits sercltIter (2 ^ 32) sercltReceive

/-! ## Rounds -/

section
variable {serclt : SercltInfo}

/-- The bytes at `rd_off` start with the magic of an init packet. -/
abbrev SercltInfo.AtInit (serclt : SercltInfo) : Prop := serclt.agentHead.magic = agentInitPacketHeadMagic

/-- What one round does. -/
inductive SercltRound (serclt : SercltInfo) : Outcome SercltInfo → Prop
  | short : serclt.remainLen < 8 → SercltRound serclt (.brk serclt)
  | init : 8 ≤ serclt.remainLen → serclt.AtInit → SercltRound serclt (.cont (sercltInit serclt))
  | refuse : 8 ≤ serclt.remainLen → ¬ serclt.AtInit → serclt.devport = 0 →
      SercltRound serclt (.brk (sercltRefuse serclt))
  | transmit : 8 ≤ serclt.remainLen → ¬ serclt.AtInit → serclt.devport ≠ 0 →
      SercltRound serclt (.cont (sercltTransmit serclt))

theorem sercltRound_of {o : Outcome SercltInfo} (h : sercltIter serclt = o) : SercltRound serclt o := by
  rw [← h]
  unfold sercltIter
  by_cases h8 : serclt.remainLen ≥ cmdPacketHeadLen
  · rw [if_pos h8]
    by_cases hi : serclt.agentHead.magic = agentInitPacketHeadMagic
    · rw [if_pos hi]
      exact .init h8 hi
    rw [if_neg hi]
    by_cases hp : serclt.devport ≤ 0
    · rw [if_pos hp]
      exact .refuse h8 hi (UInt16.le_zero_iff.1 hp)
    · rw [if_neg hp]
      refine .transmit h8 hi ?_
      intro h0
      exact hp (h0 ▸ UInt16.le_refl 0)
  · rw [if_neg h8]
    exact .short (Nat.not_le.1 h8)

theorem iter_init (h8 : 8 ≤ serclt.remainLen) (hi : serclt.AtInit) : sercltIter serclt = .cont (sercltInit serclt) := by
  unfold sercltIter
  rw [if_pos h8, if_pos hi]

theorem iter_transmit (h8 : 8 ≤ serclt.remainLen) (hi : ¬ serclt.AtInit) (hp : serclt.devport ≠ 0) :
    sercltIter serclt = .cont (sercltTransmit serclt) := by
  unfold sercltIter
  rw [if_pos h8, if_neg hi, if_neg]
  intro hle
  exact hp (UInt16.le_zero_iff.1 hle)

/-! ## The loop is always left -/

/-- The rounds a run of init packets takes to bring `remain_len` to 0: 954437177 is
the inverse of 9 modulo `2 ^ 32`. -/
def SercltInfo.roundsLeft (serclt : SercltInfo) : Nat := serclt.remainLen * 954437177 % 2 ^ 32

theorem one_lt_two_pow32 : 1 < 2 ^ 32 := by decide

theorem inverse_nine : 9 * 954437177 % 2 ^ 32 = 1 := by decide

theorem remainLen_lt (serclt : SercltInfo) : serclt.remainLen < 2 ^ 32 := Nat.mod_lt _ (Nat.two_pow_pos 32)

theorem remainLen_init (serclt : SercltInfo) :
    ((sercltInit serclt).remainLen + 9) % 2 ^ 32 = serclt.remainLen % 2 ^ 32 := by
  simp only [SercltInfo.remainLen, sercltInit, agentPacketHeadLen]
  omega

theorem remainLen_transmit (serclt : SercltInfo) : (sercltTransmit serclt).remainLen = 0 := by
  simp only [SercltInfo.remainLen, sercltTransmit]
  decide

theorem recvdata_total (serclt : SercltInfo) (chunk : List UInt8) : ∃ t, sercltRecvdata serclt chunk = some t := by
  have hstep : ∀ s t : SercltInfo, True → sercltIter s = .cont t → True ∧ t.roundsLeft < s.roundsLeft := by
    intro s t _ hst
    refine ⟨trivial, ?_⟩
    have hne : 8 ≤ s.remainLen → s.remainLen % 2 ^ 32 ≠ 0 := by
      intro h8
      rw [Nat.mod_eq_of_lt (remainLen_lt s)]
      exact Nat.ne_of_gt (Nat.lt_of_lt_of_le (Nat.succ_pos 7) h8)
    have hr := sercltRound_of hst
    unfold SercltInfo.roundsLeft
    cases hr with
    | init h8 => exact mul_inv_mod_lt one_lt_two_pow32 inverse_nine (hne h8) (remainLen_init s)
    | transmit h8 =>
      rw [remainLen_transmit, Nat.zero_mul, Nat.zero_mod]
      exact Nat.pos_of_ne_zero (mul_inv_mod_ne_zero one_lt_two_pow32 inverse_nine (hne h8))
  obtain ⟨t, ht⟩ := run_of_measure SercltInfo.roundsLeft hstep (s := sercltReceive serclt chunk) trivial
  exact ⟨t, run_mono ht (Nat.succ_le_of_lt (Nat.mod_lt _ (Nat.two_pow_pos 32)))⟩

/-- The calls in `u` come after those in `serclt` and are made for its own socket. -/
structure CallsFrom (serclt u : SercltInfo) : Prop where
  socket : u.nsocket = serclt.nsocket
  log : ∃ calls, u.log = serclt.log ++ calls ∧
    ∀ devip devport nsocket packet, .transmitpacket devip devport nsocket packet ∈ calls → nsocket = serclt.nsocket

theorem CallsFrom.snoc {u : SercltInfo} {call : SercltEv} (h : CallsFrom serclt u)
    (hcall : ∀ devip devport nsocket packet, call = .transmitpacket devip devport nsocket packet → nsocket = u.nsocket) :
    ∃ calls, u.log ++ [call] = serclt.log ++ calls ∧
      ∀ devip devport nsocket packet, .transmitpacket devip devport nsocket packet ∈ calls → nsocket = serclt.nsocket := by
  obtain ⟨hsock, calls, hlog, hcalls⟩ := h
  refine ⟨calls ++ [call], by rw [hlog, List.append_assoc], ?_⟩
  intro devip devport nsocket packet hmem
  rcases List.mem_append.1 hmem with hold | hnew
  · exact hcalls _ _ _ _ hold
  · rw [← hsock]
    exact hcall _ _ _ _ (List.mem_singleton.1 hnew).symm

theorem recvdata_calls {t : SercltInfo} {chunk : List UInt8} (h : sercltRecvdata serclt chunk = some t) :
    CallsFrom serclt t := by
  have hstart : CallsFrom serclt (sercltReceive serclt chunk) := ⟨rfl, [], (List.append_nil _).symm, by simp⟩
  refine run_inv (I := CallsFrom serclt) (Q := CallsFrom serclt) ?_ ?_ hstart h
  · intro u v hu huv
    cases sercltRound_of huv with
    | init =>
      refine ⟨hu.socket, hu.snoc ?_⟩
      rintro devip devport nsocket packet ⟨⟩
    | transmit =>
      refine ⟨hu.socket, hu.snoc ?_⟩
      rintro devip devport nsocket packet ⟨⟩
      rfl
  · intro u v hu huv
    cases sercltRound_of huv with
    | short => exact hu
    | refuse => exact ⟨hu.socket, hu.log⟩

/-! ## Staying inside what was received -/

/-- The bytes of the header a round looks at. -/
def SercltInfo.headLen (serclt : SercltInfo) : Nat :=
  if serclt.agentHead.magic = agentInitPacketHeadMagic then agentPacketHeadLen else cmdPacketHeadLen

/-- The offsets are in order, `wr_off - rd_off` does not wrap around and a round
looks at received bytes only. A block handed to `transmitpacket` is then
`[rd_off, wr_off)`. -/
structure InBounds (serclt : SercltInfo) : Prop where
  le : serclt.rdOff ≤ serclt.wrOff
  hi : serclt.wrOff ≤ sercltRdbufferSize
  remainLen : serclt.remainLen = serclt.wrOff - serclt.rdOff
  head : cmdPacketHeadLen ≤ serclt.remainLen → serclt.rdOff + serclt.headLen ≤ serclt.wrOff

/-- Of an init packet exactly the length of a command header is there. -/
def CutInit (serclt : SercltInfo) : Prop := serclt.remainLen = cmdPacketHeadLen ∧ serclt.AtInit

/-- What the offsets keep as long as no init packet is cut. -/
def Offsets (serclt : SercltInfo) : Prop := serclt.rdOff ≤ serclt.wrOff ∧ serclt.wrOff ≤ sercltRdbufferSize

theorem Offsets.remainLen (h : Offsets serclt) : serclt.remainLen = serclt.wrOff - serclt.rdOff := by
  obtain ⟨hle, hhi⟩ := h
  simp only [sercltRdbufferSize] at hhi
  unfold SercltInfo.remainLen
  omega

theorem Offsets.receive (h : Offsets serclt) {chunk : List UInt8} (hf : SercltFits serclt chunk) :
    Offsets (sercltReceive serclt chunk) := by
  obtain ⟨hle, hhi⟩ := h
  unfold SercltFits at hf
  exact ⟨Nat.le_trans hle (Nat.le_add_right _ _), by simp only [sercltReceive]; omega⟩

/-- With the magic in front and no cut, the whole init packet is there. -/
theorem init_whole (h : Offsets serclt) (hcut : ¬ CutInit serclt) (h8 : 8 ≤ serclt.remainLen) (hi : serclt.AtInit) :
    serclt.rdOff + 9 ≤ serclt.wrOff := by
  have hne : serclt.remainLen ≠ 8 := fun he => hcut ⟨he, hi⟩
  rw [h.remainLen] at h8 hne
  omega

theorem Offsets.init (h : Offsets serclt) (h9 : serclt.rdOff + 9 ≤ serclt.wrOff) : Offsets (sercltInit serclt) := by
  obtain ⟨hle, hhi⟩ := h
  simp only [sercltRdbufferSize] at hhi
  refine ⟨?_, hhi⟩
  simp only [sercltInit, agentPacketHeadLen]
  rw [Nat.mod_eq_of_lt (by omega)]
  exact h9

theorem Offsets.inBounds (h : Offsets serclt) (hcut : ¬ CutInit serclt) : InBounds serclt := by
  refine ⟨h.1, h.2, h.remainLen, ?_⟩
  intro h8
  unfold SercltInfo.headLen
  by_cases hi : serclt.agentHead.magic = agentInitPacketHeadMagic
  · rw [if_pos hi]
    exact init_whole h hcut h8 hi
  · rw [if_neg hi]
    rw [h.remainLen] at h8
    simp only [cmdPacketHeadLen] at *
    have := h.1
    omega

theorem InBounds.not_cut (h : InBounds serclt) : ¬ CutInit serclt := by
  rintro ⟨h8, hi⟩
  have hh := h.head (Nat.le_of_eq h8.symm)
  have hr := h.remainLen
  rw [SercltInfo.headLen, if_pos hi] at hh
  simp only [cmdPacketHeadLen, agentPacketHeadLen] at *
  omega

/-- Everything looked at or forwarded was received, at every round and after every
read of a run, exactly when no round finds the magic of an init packet with just 8
bytes buffered. -/
theorem serclt_in_bounds_iff (nsocket : Int) (dataBlob : Nat → UInt8) (chunks : List (List UInt8))
    (hfit : Along sercltRecvdata SercltFits (sercltInitialize nsocket dataBlob) chunks) :
    (∀ bytes u, SercltVisits (sercltInitialize nsocket dataBlob) chunks bytes u → InBounds u) ↔
      ∀ bytes u, SercltVisits (sercltInitialize nsocket dataBlob) chunks bytes u → ¬ CutInit u := by
  constructor
  · intro h bytes u hu
    exact (h bytes u hu).not_cut
  · -- `Offsets` is kept by every round, an init packet that is all there included.
    intro hcut bytes u hu
    have hinit : Offsets (sercltInitialize nsocket dataBlob) := ⟨Nat.le_refl 0, Nat.zero_le _⟩
    have hoff : Offsets u := by
      refine visits_inv (K := fun _ u => Offsets u) (P := fun _ u => ¬ CutInit u) (h := []) ?_ ?_ ?_ hinit hfit hcut hu
      · intro _ s c hs hc _
        exact hs.receive hc
      · intro _ s t hs hns hst
        cases sercltRound_of hst with
        | init h8 hi => exact hs.init (init_whole hs hns h8 hi)
        | transmit => exact ⟨Nat.le_refl 0, Nat.zero_le _⟩
      · intro _ s t hs _ hst
        cases sercltRound_of hst with
        | short => exact hs
        | refuse => exact ⟨Nat.le_refl 0, Nat.zero_le _⟩
    exact hoff.inBounds (hcut bytes u hu)

instance (serclt : SercltInfo) (chunk : List UInt8) : Decidable (SercltFits serclt chunk) :=
  inferInstanceAs (Decidable (_ ≤ _))

/-- The init packet for 127.0.0.1, port 7777, client 1. -/
def initPacket : List UInt8 := [0xFA, 0xFC, 127, 0, 0, 1, 0x61, 0x1E, 1]

/-- An init packet and a command in two reads. -/
theorem serclt_in_bounds_init :
    let s := sercltInitialize 5 (fun _ => 0)
    let chunks := [initPacket ++ [0xEF, 0xBE, 5], [0, 0, 0, 0x27, 0xE3]]
    (∀ bytes u, SercltVisits s chunks bytes u → InBounds u) ↔
      ∀ bytes u, SercltVisits s chunks bytes u → ¬ CutInit u :=
  serclt_in_bounds_iff 5 (fun _ => 0) _ (by decide +kernel)

/-- The first 8 bytes of an init packet are taken for all 9, and a block of
`2 ^ 32 - 1` bytes goes to the device. -/
theorem serclt_cut_init :
    let s := sercltInitialize 5 (fun _ => 0)
    SercltFits s (initPacket.take 8) ∧
      ∃ u v, SercltVisits s [initPacket.take 8] (initPacket.take 8) u ∧ u.wrOff < u.rdOff ∧
        sercltIter u = .cont v ∧ ∃ packet, packet.length = 2 ^ 32 - 1 ∧
          v.log = u.log ++ [.transmitpacket u.devip 7777 5 packet] := by
  refine ⟨by decide, ?_⟩
  generalize hs : sercltReceive (sercltInitialize 5 (fun _ => 0)) (initPacket.take 8) = s
  have h8 : 8 ≤ s.remainLen := by rw [← hs]; decide
  have hi : s.AtInit := by rw [← hs]; decide +kernel
  have hu : (sercltInit s).remainLen = 2 ^ 32 - 1 := by rw [← hs]; decide
  have hni : ¬ (sercltInit s).AtInit := by rw [← hs]; decide +kernel
  have hport : (sercltInit s).devport = 7777 := by rw [← hs]; decide +kernel
  have hsock : (sercltInit s).nsocket = 5 := by rw [← hs]; rfl
  refine ⟨sercltInit s, sercltTransmit (sercltInit s), .head (.tail (hs ▸ .refl) (iter_init h8 hi)), ?_,
    iter_transmit (by rw [hu]; decide) hni (by rw [hport]; decide),
    slice (sercltInit s).dataBlob (sercltInit s).rdOff (sercltInit s).remainLen, ?_, ?_⟩
  · rw [← hs]
    decide
  · rw [length_slice, hu]
  · rw [sercltTransmit, hport, hsock]

end

end CmdAgent
