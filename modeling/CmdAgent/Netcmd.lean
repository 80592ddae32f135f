import Mathlib.Algebra.Ring.Nat
import Mathlib.Data.List.GetD
import CmdAgent.Crc
/-!
# `netcmd.c`: packets and the operations of the receiver

A packet pointer with a length is the list of the bytes it covers.
`netcmd_readpacket` also writes, and its reads depend on a length field from the
network, so it works on the memory the packet lies in.
-/
open StreamLib.Mem

namespace CmdAgent

/-! ## Constants -/

@[simp] abbrev l0006NetcmdHeaderSize : Nat := 8
@[simp] abbrev l0006NetcmdExHeaderSize : Nat := 64
@[simp] abbrev l0006NetcmdChecksumSize : Nat := 6
@[simp] abbrev l0006StreamCrc16Size : Nat := 4
/-- `8 + 8 + (4 + 12 * 10) * 16 * 5 + 4` -/
@[simp] abbrev l0006StreamMaxSize : Nat := 9940

def l0006NetcmdPacketMagic : UInt16 := 0xBEEF

def l0006NetcmdBuzz : UInt8 := 0x0
def l0006NetcmdBlink : UInt8 := 0x1
def l0006NetcmdWinsize : UInt8 := 0x2
def l0006NetcmdReset : UInt8 := 0x3
def l0006NetcmdAddata : UInt8 := 0x4
def l0006NetcmdVersion : UInt8 := 0x5
def l0006NetcmdDebugmode : UInt8 := 0x6
def l0006NetcmdDevstat : UInt8 := 0x7
def l0006NetcmdRecover : UInt8 := 0x8
def l0006NetcmdSaveconf : UInt8 := 0x9

def l0006NetcmdBuzzack : UInt8 := 0x80
def l0006NetcmdBlinkack : UInt8 := 0x81
def l0006NetcmdWinsizeack : UInt8 := 0x82
def l0006NetcmdResetack : UInt8 := 0x83
def l0006NetcmdVersionack : UInt8 := 0x84
def l0006NetcmdDebugmodeack : UInt8 := 0x85
def l0006NetcmdDevstatack : UInt8 := 0x86
def l0006NetcmdRecoverack : UInt8 := 0x87
def l0006NetcmdSaveconfack : UInt8 := 0x88

/-! ## Packets -/

/-- `struct l0006_netcmd_packet`; the union `f` is kept as its two bytes. -/
structure L0006NetcmdPacket where
  magic : UInt16
  cmd : UInt8
  seqno : UInt8
  func : UInt8 × UInt8
  crc16 : UInt16
  deriving DecidableEq

/-- The header at the front of `packet`. -/
def L0006NetcmdPacket.ofBytes (packet : List UInt8) : L0006NetcmdPacket where
  magic := le16 (packet.getD 0 0) (packet.getD 1 0)
  cmd := packet.getD 2 0
  seqno := packet.getD 3 0
  func := (packet.getD 4 0, packet.getD 5 0)
  crc16 := le16 (packet.getD 6 0) (packet.getD 7 0)

/-- `f.length` -/
def L0006NetcmdPacket.length (pkt : L0006NetcmdPacket) : Nat := (le16 pkt.func.1 pkt.func.2).toNat

/-- The command carried by the header at the front of `packet`. -/
def cmdOf (packet : List UInt8) : UInt8 := (L0006NetcmdPacket.ofBytes packet).cmd

/-- The `f.length` of the header at the front of `packet`. -/
def lengthOf (packet : List UInt8) : Nat := (L0006NetcmdPacket.ofBytes packet).length

theorem lengthOf_lt (packet : List UInt8) : lengthOf packet < 65536 := UInt16.toNat_lt _

def seqnoOf (packet : List UInt8) : UInt8 := (L0006NetcmdPacket.ofBytes packet).seqno

/-! ## The operations -/

@[simp] abbrev netcmdGetpacketheaderlength : Nat := l0006NetcmdHeaderSize

def netcmdIsvalidpacketheader (packet : List UInt8) : Bool :=
  let netcmd := L0006NetcmdPacket.ofBytes packet
  netcmd.magic == l0006NetcmdPacketMagic
    && ((decide (netcmd.cmd ≥ l0006NetcmdBuzz) && decide (netcmd.cmd ≤ l0006NetcmdSaveconf))
      || (decide (netcmd.cmd ≥ l0006NetcmdBuzzack) && decide (netcmd.cmd ≤ l0006NetcmdSaveconfack)))
    && netcmd.crc16 == crc16 0 (packet.take l0006NetcmdChecksumSize)

/-- The declared length of a stream packet, 0 for any other packet. -/
def netcmdVerifystream (packet : List UInt8) : Nat :=
  let netcmd := L0006NetcmdPacket.ofBytes packet
  if netcmd.cmd = l0006NetcmdAddata then netcmd.length else 0

/-- The length of a command packet and `*seqno`. For any other packet the length
is 0 and `*seqno` is not set. -/
def netcmdVerifycmdpacket (packet : List UInt8) : Nat × UInt8 :=
  let netcmd := L0006NetcmdPacket.ofBytes packet
  if netcmd.cmd ≠ l0006NetcmdAddata ∧
      (netcmd.cmd ≥ l0006NetcmdBuzz ∧ netcmd.cmd ≤ l0006NetcmdSaveconf ∨
        netcmd.cmd ≥ l0006NetcmdBuzzack ∧ netcmd.cmd ≤ l0006NetcmdSaveconfack) then
    if netcmd.cmd = l0006NetcmdSaveconf ∨ netcmd.cmd = l0006NetcmdSaveconfack then
      (l0006NetcmdExHeaderSize, netcmd.seqno)
    else (l0006NetcmdHeaderSize, netcmd.seqno)
  else (0, 0)

/-- `struct timeval` -/
structure Timeval where
  tvSec : Nat
  tvUsec : Nat
  deriving DecidableEq

/-- A number stored as a `uint32_t`. -/
def le32Bytes (n : Nat) : List UInt8 :=
  [UInt8.ofNat n, UInt8.ofNat (n / 2 ^ 8), UInt8.ofNat (n / 2 ^ 16), UInt8.ofNat (n / 2 ^ 24)]

/-- `struct l0006_netcmd_stream_timestamp` -/
def Timeval.bytes (tv : Timeval) : List UInt8 := le32Bytes tv.tvSec ++ le32Bytes tv.tvUsec

@[simp] theorem Timeval.length_bytes (tv : Timeval) : tv.bytes.length = 8 := rfl

/-- The size `netcmd_readpacket` passes to `crc16`: a difference of `size_t`,
truncated to a `uint32_t`. -/
def crcSize (length : Nat) : Nat :=
  (length + 2 ^ 64 - l0006NetcmdHeaderSize - l0006StreamCrc16Size) % 2 ^ 64 % 2 ^ 32

theorem crcSize_of_le {length : Nat} (h : 12 ≤ length) (hlt : length < 65536) : crcSize length = length - 12 := by
  simp only [crcSize, l0006NetcmdHeaderSize, l0006StreamCrc16Size]
  omega

/-- `netcmd_readpacket` on the packet at address `packet`, with `tv` what
`gettimeofday` would return. `some` is the return value 0 with the time stored
over the start of the payload, `none` is -1. `below` is the memory in front of
the blob, which lengths under 4 can reach. -/
def netcmdReadpacket (below blob : Nat → UInt8) (packet : Nat) (tv : Timeval) : Option (Nat → UInt8) :=
  let pkt := L0006NetcmdPacket.ofBytes (slice blob packet l0006NetcmdHeaderSize)
  let ck := crc16 0 (slice blob (packet + l0006NetcmdHeaderSize) (crcSize pkt.length))
  let ckPacket := le16 (back below blob (packet + pkt.length) l0006StreamCrc16Size)
    (back below blob (packet + pkt.length) (l0006StreamCrc16Size - 1))
  if ck = ckPacket then some (store blob (packet + l0006NetcmdHeaderSize) tv.bytes) else none

theorem readpacket_some {below blob blob' : Nat → UInt8} {packet : Nat} {tv : Timeval}
    (h : netcmdReadpacket below blob packet tv = some blob') : blob' = store blob (packet + 8) tv.bytes := by
  unfold netcmdReadpacket at h
  dsimp only at h
  split at h
  · cases h; rfl
  · cases h

/-! ## Headers -/

theorem ofBytes_append {p : List UInt8} (q : List UInt8) (h : 8 ≤ p.length) :
    L0006NetcmdPacket.ofBytes (p ++ q) = L0006NetcmdPacket.ofBytes p := by
  have hget : ∀ i, i < 8 → (p ++ q).getD i 0 = p.getD i 0 := fun i hi => List.getD_append _ _ _ _ (by omega)
  simp (disch := omega) only [L0006NetcmdPacket.ofBytes, hget]

theorem ofBytes_take {p : List UInt8} (h : 8 ≤ p.length) :
    L0006NetcmdPacket.ofBytes (p.take 8) = L0006NetcmdPacket.ofBytes p := by
  conv_rhs => rw [← List.take_append_drop 8 p]
  exact (ofBytes_append _ (by simp [h])).symm

theorem isvalid_append {p : List UInt8} (q : List UInt8) (h : 8 ≤ p.length) :
    netcmdIsvalidpacketheader (p ++ q) = netcmdIsvalidpacketheader p := by
  simp only [netcmdIsvalidpacketheader, ofBytes_append q h, l0006NetcmdChecksumSize]
  rw [List.take_append_of_le_length (by omega)]

theorem isvalid_take {p : List UInt8} (h : 8 ≤ p.length) :
    netcmdIsvalidpacketheader (p.take 8) = netcmdIsvalidpacketheader p := by
  conv_rhs => rw [← List.take_append_drop 8 p]
  exact (isvalid_append _ (by simp [h])).symm

theorem cmdOf_append {p : List UInt8} (q : List UInt8) (h : 8 ≤ p.length) : cmdOf (p ++ q) = cmdOf p := by
  rw [cmdOf, ofBytes_append q h, cmdOf]

theorem lengthOf_append {p : List UInt8} (q : List UInt8) (h : 8 ≤ p.length) : lengthOf (p ++ q) = lengthOf p := by
  rw [lengthOf, ofBytes_append q h, lengthOf]

theorem seqnoOf_append {p : List UInt8} (q : List UInt8) (h : 8 ≤ p.length) : seqnoOf (p ++ q) = seqnoOf p := by
  rw [seqnoOf, ofBytes_append q h, seqnoOf]

/-- The length of the command packet at the front of `p`. -/
def commandLength (p : List UInt8) : Nat :=
  if cmdOf p = l0006NetcmdSaveconf ∨ cmdOf p = l0006NetcmdSaveconfack then 64 else 8

theorem commandLength_cases (p : List UInt8) : commandLength p = 64 ∨ commandLength p = 8 := by
  unfold commandLength
  split
  · exact .inl rfl
  · exact .inr rfl

theorem commandLength_append {p : List UInt8} (q : List UInt8) (h : 8 ≤ p.length) :
    commandLength (p ++ q) = commandLength p := by
  unfold commandLength
  rw [cmdOf_append q h]

/-- A valid header that is not a stream header is a command header. -/
theorem verifycmdpacket_of_isvalid {p : List UInt8} (hv : netcmdIsvalidpacketheader p)
    (hc : cmdOf p ≠ l0006NetcmdAddata) : netcmdVerifycmdpacket p = (commandLength p, seqnoOf p) := by
  simp only [netcmdIsvalidpacketheader, Bool.and_eq_true, Bool.or_eq_true, decide_eq_true_eq] at hv
  have he : netcmdVerifycmdpacket p =
      if cmdOf p ≠ l0006NetcmdAddata ∧ (cmdOf p ≥ l0006NetcmdBuzz ∧ cmdOf p ≤ l0006NetcmdSaveconf ∨
        cmdOf p ≥ l0006NetcmdBuzzack ∧ cmdOf p ≤ l0006NetcmdSaveconfack) then
        if cmdOf p = l0006NetcmdSaveconf ∨ cmdOf p = l0006NetcmdSaveconfack then (64, seqnoOf p) else (8, seqnoOf p)
      else (0, 0) := rfl
  rw [he, if_pos ⟨hc, hv.1.2⟩, commandLength]
  split <;> rfl

theorem verifycmdpacket_addata {p : List UInt8} (hc : cmdOf p = l0006NetcmdAddata) :
    netcmdVerifycmdpacket p = (0, 0) := by
  unfold cmdOf at hc
  simp [netcmdVerifycmdpacket, hc]

/-! ## Frames -/

/-- The payload checksum of a stream packet that is all there. -/
def streamCrc (packet : List UInt8) : Bool :=
  crc16 0 ((packet.drop 8).take (lengthOf packet - 12)) ==
    le16 (packet.getD (lengthOf packet - 4) 0) (packet.getD (lengthOf packet - 3) 0)

theorem streamCrc_append {p : List UInt8} (q : List UInt8) (h : 12 ≤ lengthOf p) (hl : lengthOf p ≤ p.length) :
    streamCrc (p ++ q) = streamCrc p := by
  have hlen : lengthOf (p ++ q) = lengthOf p := lengthOf_append q (by omega)
  have hget : ∀ i, i < p.length → (p ++ q).getD i 0 = p.getD i 0 := fun i hi => List.getD_append _ _ _ _ hi
  simp only [streamCrc, hlen]
  rw [hget _ (by omega), hget _ (by omega), List.drop_append_of_le_length (by omega),
    List.take_append_of_le_length (by simp; omega)]

/-- On a packet that is all there, `netcmd_readpacket` compares the checksum of
its payload. -/
theorem readpacket_eq (below blob : Nat → UInt8) {packet n : Nat} (tv : Timeval)
    (h : 12 ≤ lengthOf (slice blob packet n)) (hn : lengthOf (slice blob packet n) ≤ n) :
    netcmdReadpacket below blob packet tv =
      if streamCrc (slice blob packet n) then some (store blob (packet + 8) tv.bytes) else none := by
  have hpkt : L0006NetcmdPacket.ofBytes (slice blob packet 8) = L0006NetcmdPacket.ofBytes (slice blob packet n) := by
    rw [← take_slice blob (show 8 ≤ n by omega), ofBytes_take (by simp; omega)]
  have hback : ∀ k, 0 < k → k ≤ 4 → back below blob (packet + lengthOf (slice blob packet n)) k =
      (slice blob packet n).getD (lengthOf (slice blob packet n) - k) 0 := by
    intro k hk hk'
    rw [List.getD_eq_getElem?_getD, getElem?_slice _ (by omega), Option.getD_some, back, if_pos (by omega)]
    congr 1
    omega
  have hck : crc16 0 (slice blob (packet + 8) (crcSize (lengthOf (slice blob packet n)))) =
      le16 (back below blob (packet + lengthOf (slice blob packet n)) 4)
        (back below blob (packet + lengthOf (slice blob packet n)) 3) ↔ streamCrc (slice blob packet n) = true := by
    rw [crcSize_of_le h (lengthOf_lt _), hback 4 (by omega) (by omega), hback 3 (by omega) (by omega)]
    simp only [streamCrc, beq_iff_eq]
    rw [drop_slice blob (by omega), take_slice blob (by omega)]
  simp only [netcmdReadpacket, l0006NetcmdHeaderSize, l0006StreamCrc16Size, hpkt]
  exact if_congr hck rfl rfl

/-- A command or acknowledge frame. -/
def CommandFrame (f : List UInt8) : Prop :=
  netcmdIsvalidpacketheader f ∧ cmdOf f ≠ l0006NetcmdAddata ∧ f.length = commandLength f

/-- An ADDATA frame with room for a timestamp and a matching payload checksum. -/
def StreamFrame (f : List UInt8) : Prop :=
  netcmdIsvalidpacketheader f ∧ cmdOf f = l0006NetcmdAddata ∧ f.length = lengthOf f ∧ 20 ≤ lengthOf f ∧
    lengthOf f ≤ l0006StreamMaxSize ∧ streamCrc f

def WellFormed (f : List UInt8) : Prop := CommandFrame f ∨ StreamFrame f

instance (f : List UInt8) : Decidable (CommandFrame f) := inferInstanceAs (Decidable (_ ∧ _))

instance (f : List UInt8) : Decidable (StreamFrame f) := inferInstanceAs (Decidable (_ ∧ _))

instance (f : List UInt8) : Decidable (WellFormed f) := inferInstanceAs (Decidable (_ ∨ _))

end CmdAgent
