import CmdAgent.Command
import CmdAgent.StreamLib.Crc
/-!
# Damaged headers

`crc16` is linear in exclusive or. So whether a header with flipped bits still passes
depends on the flipped bits only, and the 64 single bits tell it for any two or three of
them: their checksums differ and have an odd number of bits.
-/
open StreamLib.Crc

namespace CmdAgent

/-! ## The checksum -/

/-- `x^16 + x^12 + x^5 + 1` without the first term. -/
def crc16Poly : BitVec 16 := 0x1021

theorem crc16Table_map : crc16Table.toList.map UInt16.toBitVec =
    (List.range 256).map fun i => shifts crc16Poly 8 (BitVec.ofNat 16 i <<< 8) := by decide +kernel

theorem crc16Table_eq (i : BitVec 8) :
    (crc16Table.getD i.toNat 0).toBitVec = shifts crc16Poly 8 (i.setWidth 16 <<< 8) := by
  have hentry := congrArg (·[i.toNat]?) crc16Table_map
  simp only [List.getElem?_map, List.getElem?_range i.isLt, Array.getElem?_toList, Option.map_some] at hentry
  obtain ⟨entry, hget, hentry⟩ := Option.map_eq_some_iff.1 hentry
  rw [Array.getD_eq_getD_getElem?, hget, Option.getD_some, hentry, BitVec.ofNat_toNat]

/-- A byte of the loop is eight places of the register. -/
theorem crc16Step_eq (sum : UInt16) (b : UInt8) :
    (crc16Step sum b).toBitVec = shifts crc16Poly 8 (sum.toBitVec ^^^ b.toBitVec.setWidth 16 <<< 8) := by
  have hidx : ((sum >>> 8) ^^^ b.toUInt16).toNat = ((sum.toBitVec >>> 8).setWidth 8 ^^^ b.toBitVec).toNat := by
    have hlt : sum.toNat >>> 8 < 256 := by
      have := sum.toNat_lt
      omega
    simp [UInt16.toNat_xor, Nat.mod_eq_of_lt hlt]
  have htop : ((sum.toBitVec >>> 8).setWidth 8 ^^^ b.toBitVec).setWidth 16 <<< 8 =
      ((sum.toBitVec ^^^ b.toBitVec.setWidth 16 <<< 8) >>> (16 - 8)) <<< (16 - 8) := by
    apply BitVec.eq_of_getLsbD_eq
    intro i hi
    by_cases h8 : i < 8
    · simp [h8]
    · simp [h8, hi, show i - 8 < 8 by omega, show 8 + (i - 8) < 16 by omega]
  have hlow : (sum <<< 8).toBitVec = (sum.toBitVec ^^^ b.toBitVec.setWidth 16 <<< 8) <<< 8 := by
    have hzero : (b.toBitVec.setWidth 16 <<< 8) <<< 8 = 0#16 := by
      rw [← BitVec.shiftLeft_add, BitVec.shiftLeft_eq_zero (by decide)]
    rw [BitVec.shiftLeft_xor_distrib, hzero, BitVec.xor_zero]
    rfl
  rw [shifts_top crc16Poly _ (by decide : 8 ≤ 16), ← htop, ← hlow, ← crc16Table_eq, ← hidx]
  rfl

theorem crc16Step_xor (s t : UInt16) (b c : UInt8) :
    crc16Step (s ^^^ t) (b ^^^ c) = crc16Step s b ^^^ crc16Step t c := by
  apply UInt16.toBitVec_inj.1
  rw [UInt16.toBitVec_xor, crc16Step_eq, crc16Step_eq, crc16Step_eq, ← shifts_xor]
  congr 1
  simp only [UInt16.toBitVec_xor, UInt8.toBitVec_xor, BitVec.setWidth_xor, BitVec.shiftLeft_xor_distrib]
  ac_rfl

theorem crc16_xor {p e : List UInt8} (hlen : p.length = e.length) :
    crc16 0 (List.zipWith (· ^^^ ·) p e) = crc16 0 p ^^^ crc16 0 e := by
  have h := foldl_xor crc16Step_xor hlen 0 0
  rwa [UInt16.xor_self] at h

theorem le16_xor (a b c d : UInt8) : le16 (a ^^^ b) (c ^^^ d) = le16 a c ^^^ le16 b d := by
  apply UInt16.toBitVec_inj.1
  apply BitVec.eq_of_getLsbD_eq
  intro i hi
  simp only [le16, UInt16.toBitVec_xor, UInt16.toBitVec_or, UInt16.toBitVec_shiftLeft, UInt8.toBitVec_toUInt16,
    UInt8.toBitVec_xor, BitVec.getLsbD_xor, BitVec.getLsbD_or]
  by_cases h8 : i < 8
  · simp [h8, hi]
  · simp [h8, hi, BitVec.getLsbD_of_ge _ i (Nat.not_lt.1 h8)]

/-! ## Damage -/

/-- The damage of one bit: bits are numbered from the lowest of the first byte. -/
def flipBit (packet : List UInt8) (bit : Nat) : List UInt8 :=
  packet.modify (bit / 8) fun b => b ^^^ 1 <<< UInt8.ofNat (bit % 8)

def flipBits (packet : List UInt8) (bits : List Nat) : List UInt8 := bits.foldl flipBit packet

theorem length_flipBit (packet : List UInt8) (bit : Nat) : (flipBit packet bit).length = packet.length :=
  List.length_modify _ _ _

/-- The stored checksum against that of the bytes in front of it. -/
def syndrome (packet : List UInt8) : UInt16 :=
  crc16 0 (packet.take l0006NetcmdChecksumSize) ^^^ le16 (packet.getD 6 0) (packet.getD 7 0)

/-- The syndrome of the damage of one bit. -/
def bitSyndrome (bit : Nat) : UInt16 := syndrome (flipBit (List.replicate 8 0) bit)

theorem syndrome_isvalid {packet : List UInt8} (h : netcmdIsvalidpacketheader packet = true) : syndrome packet = 0 := by
  simp only [netcmdIsvalidpacketheader, Bool.and_eq_true, beq_iff_eq] at h
  rw [syndrome, ← h.2]
  exact UInt16.xor_self

theorem flipBit_eq (packet : List UInt8) (bit : Nat) :
    flipBit packet bit = List.zipWith (· ^^^ ·) packet (flipBit (List.replicate packet.length 0) bit) := by
  apply List.ext_getElem
  · simp [length_flipBit]
  · intro i hi hi'
    simp only [flipBit, List.getElem_zipWith, List.getElem_modify, List.getElem_replicate]
    split <;> simp

theorem syndrome_xor {p e : List UInt8} (hp : p.length = 8) (he : e.length = 8) :
    syndrome (List.zipWith (· ^^^ ·) p e) = syndrome p ^^^ syndrome e := by
  have hget : ∀ i, i < 8 → (List.zipWith (· ^^^ ·) p e).getD i 0 = p.getD i 0 ^^^ e.getD i 0 := by
    intro i hi
    simp [List.getD_eq_getElem?_getD, hp, he, hi]
  rw [syndrome, List.take_zipWith, crc16_xor (by simp [hp, he]), hget 6 (by decide), hget 7 (by decide), le16_xor,
    syndrome, syndrome]
  ac_rfl

theorem syndrome_flipBit {packet : List UInt8} (h : packet.length = 8) (bit : Nat) :
    syndrome (flipBit packet bit) = syndrome packet ^^^ bitSyndrome bit := by
  rw [flipBit_eq, syndrome_xor h (by rw [length_flipBit, List.length_replicate, h]), h]
  rfl

/-! ## The distance of the code -/

theorem bitSyndromes_nodup : ((List.range 64).map bitSyndrome).Nodup := by decide +kernel

theorem bitSyndromes_odd : ∀ bit < 64, parity (bitSyndrome bit).toBitVec = true := by decide +kernel

theorem bitSyndrome_inj {a b : Nat} (ha : a < 64) (hb : b < 64) (h : bitSyndrome a = bitSyndrome b) : a = b :=
  List.inj_on_of_nodup_map bitSyndromes_nodup (List.mem_range.2 ha) (List.mem_range.2 hb) h

/-- An odd number of bits is seen by the parity. -/
theorem ne_zero_of_odd {s : UInt16} (h : parity s.toBitVec = true) : s ≠ 0 := by
  rintro rfl
  exact absurd (h.symm.trans parity_zero) (by decide)

theorem syndrome_flipBits {packet : List UInt8} (hlen : packet.length = 8) (hvalid : syndrome packet = 0)
    {bits : List Nat} (hdistinct : bits.Nodup) (hbits : ∀ bit ∈ bits, bit < 64) (hsome : bits ≠ [])
    (hthree : bits.length ≤ 3) : syndrome (flipBits packet bits) ≠ 0 := by
  match bits, hdistinct, hbits, hsome, hthree with
  | [a], _, hbits, _, _ =>
    rw [flipBits, List.foldl_cons, List.foldl_nil, syndrome_flipBit hlen, hvalid, UInt16.zero_xor]
    exact ne_zero_of_odd (bitSyndromes_odd a (hbits a (by simp)))
  | [a, b], hdistinct, hbits, _, _ =>
    rw [flipBits, List.foldl_cons, List.foldl_cons, List.foldl_nil,
      syndrome_flipBit (by rw [length_flipBit, hlen]), syndrome_flipBit hlen, hvalid, UInt16.zero_xor]
    intro hzero
    have hab := bitSyndrome_inj (hbits a (by simp)) (hbits b (by simp)) (UInt16.xor_eq_zero_iff.1 hzero)
    simp [hab] at hdistinct
  | [a, b, c], _, hbits, _, _ =>
    rw [flipBits, List.foldl_cons, List.foldl_cons, List.foldl_cons, List.foldl_nil,
      syndrome_flipBit (by rw [length_flipBit, length_flipBit, hlen]), syndrome_flipBit (by rw [length_flipBit, hlen]),
      syndrome_flipBit hlen, hvalid, UInt16.zero_xor]
    apply ne_zero_of_odd
    rw [UInt16.toBitVec_xor, UInt16.toBitVec_xor, parity_xor, parity_xor, bitSyndromes_odd a (hbits a (by simp)),
      bitSyndromes_odd b (hbits b (by simp)), bitSyndromes_odd c (hbits c (by simp))]
    rfl
  | _ :: _ :: _ :: _ :: _, _, _, _, hthree =>
    simp only [List.length_cons] at hthree
    omega

theorem not_isvalid_flipBits {packet : List UInt8} (hlen : packet.length = 8)
    (hvalid : netcmdIsvalidpacketheader packet = true) {bits : List Nat} (hdistinct : bits.Nodup)
    (hbits : ∀ bit ∈ bits, bit < 64) (hsome : bits ≠ []) (hthree : bits.length ≤ 3) :
    netcmdIsvalidpacketheader (flipBits packet bits) = false := by
  by_contra hpass
  have hzero := syndrome_isvalid (Bool.not_eq_false _ ▸ hpass)
  exact syndrome_flipBits hlen (syndrome_isvalid hvalid) hdistinct hbits hsome hthree hzero

/-! ## Headers -/

/-- A `cmd` that `netcmd_isvalidpacketheader` accepts. -/
def AcceptedCmd (cmd : UInt8) : Prop :=
  cmd ≤ l0006NetcmdSaveconf ∨ l0006NetcmdBuzzack ≤ cmd ∧ cmd ≤ l0006NetcmdSaveconfack

instance (cmd : UInt8) : Decidable (AcceptedCmd cmd) := inferInstanceAs (Decidable (_ ∨ _ ∧ _))

theorem le16_split (s : UInt16) : le16 s.toUInt8 (s >>> 8).toUInt8 = s := by
  apply UInt16.toBitVec_inj.1
  apply BitVec.eq_of_getLsbD_eq
  intro i hi
  simp only [le16, UInt16.toBitVec_or, UInt16.toBitVec_shiftLeft, UInt16.toBitVec_shiftRight,
    UInt8.toBitVec_toUInt16, UInt16.toBitVec_toUInt8, BitVec.getLsbD_or]
  by_cases h8 : i < 8
  · simp [h8, hi]
  · simp [h8, hi, show i - 8 < 8 by omega, show 8 + (i - 8) = i by omega]

theorem isvalid_format {cmd : UInt8} (hcmd : AcceptedCmd cmd) (seqno func1 func2 : UInt8) :
    netcmdIsvalidpacketheader (l0006NetcmdFormat cmd seqno func1 func2) = true := by
  have hmagic : le16 0xEF 0xBE = l0006NetcmdPacketMagic := by decide
  have hrange : (decide (cmd ≥ l0006NetcmdBuzz) && decide (cmd ≤ l0006NetcmdSaveconf) ||
      decide (cmd ≥ l0006NetcmdBuzzack) && decide (cmd ≤ l0006NetcmdSaveconfack)) = true := by
    have hzero : l0006NetcmdBuzz ≤ cmd := UInt8.zero_le
    simpa [hzero, AcceptedCmd] using hcmd
  simpa [netcmdIsvalidpacketheader, L0006NetcmdPacket.ofBytes, l0006NetcmdFormat, hmagic, le16_split] using hrange

/-- A header with one to three of its bits flipped is rejected. -/
theorem header_flips_rejected (bits : List Nat) (hdistinct : bits.Nodup) (hbits : ∀ bit ∈ bits, bit < 64)
    (hsome : bits ≠ []) (hthree : bits.length ≤ 3) :
    (∀ packet : List UInt8, packet.length = 8 → netcmdIsvalidpacketheader packet = true →
      netcmdIsvalidpacketheader (flipBits packet bits) = false) ∧
    ∀ cmd, AcceptedCmd cmd → ∀ seqno func1 func2,
      netcmdIsvalidpacketheader (l0006NetcmdFormat cmd seqno func1 func2) = true ∧
        netcmdIsvalidpacketheader (flipBits (l0006NetcmdFormat cmd seqno func1 func2) bits) = false := by
  have hflips : ∀ packet : List UInt8, packet.length = 8 → netcmdIsvalidpacketheader packet = true →
      netcmdIsvalidpacketheader (flipBits packet bits) = false :=
    fun packet hlen hvalid => not_isvalid_flipBits hlen hvalid hdistinct hbits hsome hthree
  refine ⟨hflips, fun cmd hcmd seqno func1 func2 => ?_⟩
  have hvalid := isvalid_format hcmd seqno func1 func2
  exact ⟨hvalid, hflips _ rfl hvalid⟩

/-- A bit of the magic, one of `seqno` and one of the stored checksum. -/
theorem header_flips_rejected_version :
    netcmdIsvalidpacketheader (l0006NetcmdFormat l0006NetcmdVersion 7 1 0x23) = true ∧
    netcmdIsvalidpacketheader (flipBits (l0006NetcmdFormat l0006NetcmdVersion 7 1 0x23) [3, 26, 63]) = false :=
  (header_flips_rejected [3, 26, 63] (by decide) (by decide) (by decide) (by decide)).2 l0006NetcmdVersion
    (by decide) 7 1 0x23

end CmdAgent
