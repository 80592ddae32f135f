import CmdAgent.Burst
import CmdAgent.RingBuffer
import CmdAgent.StreamLib.CrcPeriod
import Mathlib.Tactic.NormNum.Prime
/-!
# Bits flipped anywhere in the payload

The checksum of a stream packet sees every odd number of flipped bits. It misses two exactly
if they are a multiple of 32767 bits apart, and the longest payload has more bits than that.
-/
open StreamLib.Crc StreamLib.Mem Function

namespace CmdAgent

/-! ## Bits -/

/-- The bits of the bytes, one after the other. -/
def bitsOf (buf : List UInt8) : List Bool := (buf.map UInt8.toBitVec).flatMap msbs

theorem getD_bitsOf (buf : List UInt8) (i : Nat) : (bitsOf buf).getD i false = bitAt buf i := by
  rw [bitsOf, getD_flatMap_msbs (by decide)]
  exact congrArg (BitVec.getMsbD · (i % 8)) (List.getD_map buf 0 UInt8.toBitVec)

theorem length_bitsOf (buf : List UInt8) : (bitsOf buf).length = 8 * buf.length := by
  induction buf with
  | nil => rfl
  | cons b buf ih =>
    rw [bitsOf, List.map_cons, List.flatMap_cons, List.length_append, ← bitsOf, ih, length_msbs, List.length_cons]
    omega

theorem bitAt_head (b : UInt8) (buf : List UInt8) {i : Nat} (hi : i < 8) :
    bitAt (b :: buf) i = b.toBitVec.getMsbD i := by
  rw [bitAt, Nat.div_eq_of_lt hi, Nat.mod_eq_of_lt hi]
  rfl

theorem bitAt_tail (b : UInt8) (buf : List UInt8) (i : Nat) : bitAt (b :: buf) (8 + i) = bitAt buf i := by
  rw [bitAt, bitAt, Nat.add_div_left i (by decide), Nat.add_mod_left]
  rfl

/-- The checksum takes the bits one by one. -/
theorem crc16_eq_feed (buf : List UInt8) : (crc16 0 buf).toBitVec = (bitsOf buf).foldl (feed crc16Poly) 0 := by
  rw [crc16_eq_feedWord, bitsOf, List.foldl_flatMap]
  simp only [foldl_feed_msbs crc16Poly (show 8 ≤ 16 by decide)]

/-! ## Parity -/

theorem parity_crc16Poly : parity crc16Poly = true := by decide

/-- A checksum has the parity of what it is of. -/
theorem parity_crc16 (buf : List UInt8) : parity (crc16 0 buf).toBitVec = oddBelow (bitAt buf) (8 * buf.length) := by
  rw [crc16_eq_feed, parity_foldl_feed (by decide) parity_crc16Poly, length_bitsOf]
  exact oddBelow_congr fun i _ => getD_bitsOf buf i

theorem parity_le16 (lo hi : UInt8) : parity (le16 lo hi).toBitVec = oddBelow (bitAt [lo, hi]) 16 := by
  have hlow : oddBelow (le16 lo hi).toBitVec.getLsbD 8 = oddBelow (bitAt [lo, hi]) 8 := by
    rw [oddBelow_congr (fun i hi' => bitAt_head lo [hi] hi'), oddBelow_getMsbD]
    refine oddBelow_congr fun i hi' => ?_
    simp [le16, hi', Nat.lt_trans hi' (show 8 < 16 by decide)]
  have hhigh : oddBelow (fun i => (le16 lo hi).toBitVec.getLsbD (8 + i)) 8 =
      oddBelow (fun i => bitAt [lo, hi] (8 + i)) 8 := by
    have hbits : ∀ i < 8, bitAt [lo, hi] (8 + i) = hi.toBitVec.getMsbD i := fun i hi' =>
      (bitAt_tail lo [hi] i).trans (bitAt_head hi [] hi')
    rw [oddBelow_congr hbits, oddBelow_getMsbD]
    refine oddBelow_congr fun i hi' => ?_
    simp [le16, show 8 + i < 16 by omega]
  rw [parity_eq_oddBelow, oddBelow_add _ 8 8, hlow, hhigh, ← oddBelow_add]

/-- The bits that are checked: the payload and the stored checksum. -/
def checkedBits (packet : List UInt8) : Nat → Bool := fun i => bitAt packet (64 + i)

theorem streamCrc_even {packet : List UInt8} (h12 : 12 ≤ lengthOf packet) (hwhole : packet.length = lengthOf packet)
    (haccept : streamCrc packet = true) : oddBelow (checkedBits packet) (8 * (lengthOf packet - 10)) = false := by
  have hcrc : crc16 0 (payload packet) = _ := beq_iff_eq.1 haccept
  have hpayload : oddBelow (checkedBits packet) (8 * (lengthOf packet - 12)) =
      oddBelow (bitAt (payload packet)) (8 * (payload packet).length) := by
    rw [length_payload hwhole]
    exact oddBelow_congr fun i hi => (bitAt_payload hi).symm
  have hstored : oddBelow (fun i => checkedBits packet (8 * (lengthOf packet - 12) + i)) 16 =
      oddBelow (bitAt [packet.getD (lengthOf packet - 4) 0, packet.getD (lengthOf packet - 3) 0]) 16 := by
    refine oddBelow_congr fun i hi => ?_
    rw [checkedBits]
    by_cases h8 : i < 8
    · rw [show 64 + (8 * (lengthOf packet - 12) + i) = 8 * (lengthOf packet - 4) + i by omega, bitAt_byte packet h8,
        bitAt_head _ _ h8]
    · rw [show 64 + (8 * (lengthOf packet - 12) + i) = 8 * (lengthOf packet - 3) + (i - 8) by omega,
        bitAt_byte packet (by omega), show i = 8 + (i - 8) by omega, bitAt_tail, bitAt_head _ _ (by omega),
        Nat.add_sub_cancel_left]
  rw [show 8 * (lengthOf packet - 10) = 8 * (lengthOf packet - 12) + 16 by omega, oddBelow_add, hpayload, hstored,
    ← parity_crc16, ← parity_le16, hcrc, Bool.xor_self]

theorem accepted_iff {packet : List UInt8} (h12 : 12 ≤ lengthOf packet) (hwhole : packet.length = lengthOf packet)
    (below : Nat → UInt8) {blob : Nat → UInt8} {start : Nat} (tv : Timeval)
    (hat : slice blob start packet.length = packet) :
    netcmdReadpacket below blob start tv ≠ none ↔ streamCrc packet = true := by
  rw [readpacket_frame below tv h12 hwhole hat]
  cases streamCrc packet <;> simp

/-! ## Flips -/

/-- `damaged` is `frame` with these bits changed, and no others. -/
structure Flips (frame damaged : List UInt8) (flips : Finset Nat) : Prop where
  length : damaged.length = frame.length
  differs : ∀ i, bitAt damaged i ≠ bitAt frame i ↔ i ∈ flips

section
variable {frame damaged : List UInt8} {flips : Finset Nat}

theorem Flips.xor_eq (h : Flips frame damaged flips) (i : Nat) :
    (bitAt damaged i ^^ bitAt frame i) = decide (i ∈ flips) := by
  rw [Bool.eq_iff_iff, decide_eq_true_iff, ← h.differs]
  exact Bool.xor_iff_ne

/-- A byte without a flip. -/
theorem Flips.getD_eq (h : Flips frame damaged flips) {k : Nat} (hk : ∀ i ∈ flips, i / 8 ≠ k) :
    damaged.getD k 0 = frame.getD k 0 := by
  apply UInt8.toBitVec_inj.1
  apply BitVec.eq_of_getMsbD_eq
  intro j hj
  rw [← bitAt_byte damaged hj, ← bitAt_byte frame hj]
  by_contra hne
  exact hk _ ((h.differs _).1 hne) (by omega)

theorem Flips.refl (packet : List UInt8) : Flips packet packet ∅ where
  length := rfl
  differs := fun i => by simp

/-- Flips behind the header leave the length. -/
theorem Flips.lengthOf_eq (h : Flips frame damaged flips) (hin : ∀ i ∈ flips, 64 ≤ i) :
    lengthOf damaged = lengthOf frame := by
  have hget : ∀ k, k < 8 → damaged.getD k 0 = frame.getD k 0 := by
    intro k hk
    refine h.getD_eq fun i hi => ?_
    have := hin i hi
    omega
  simp (disch := omega) only [lengthOf, L0006NetcmdPacket.ofBytes, hget]

end

/-- Bit `i` changed. -/
def flipAt (packet : List UInt8) (i : Nat) : List UInt8 := packet.modify (i / 8) (· ^^^ 0x80 >>> UInt8.ofNat (i % 8))

theorem getMsbD_flip : ∀ i < 8, ∀ k < 8, ((0x80 : UInt8) >>> UInt8.ofNat i).toBitVec.getMsbD k = decide (k = i) := by
  decide

theorem bitAt_flipAt {packet : List UInt8} {i : Nat} (hi : i < 8 * packet.length) (k : Nat) :
    bitAt (flipAt packet i) k = (bitAt packet k ^^ decide (k = i)) := by
  have hbyte : i / 8 < packet.length := by omega
  rw [bitAt, bitAt, flipAt, List.getD_eq_getElem?_getD, List.getElem?_modify]
  by_cases hk : i / 8 = k / 8
  · rw [← hk, List.getElem?_eq_getElem hbyte, Option.map_eq_map, Option.map_some, Option.getD_some, if_pos rfl,
      UInt8.toBitVec_xor, BitVec.getMsbD_xor, getMsbD_flip _ (Nat.mod_lt _ (by decide)) _ (Nat.mod_lt _ (by decide)),
      List.getD_eq_getElem _ _ hbyte]
    congr 1
    refine decide_eq_decide.2 ?_
    omega
  · simp only [if_neg hk, id_map']
    rw [← List.getD_eq_getElem?_getD, decide_eq_false (by rintro rfl; exact hk rfl), Bool.xor_false]

theorem Flips.flipAt {frame damaged : List UInt8} {flips : Finset Nat} (h : Flips frame damaged flips) {i : Nat}
    (hi : i < 8 * frame.length) (hnew : i ∉ flips) : Flips frame (flipAt damaged i) (insert i flips) where
  length := (List.length_modify _ _ _).trans h.length
  differs := by
    intro k
    rw [bitAt_flipAt (h.length ▸ hi), Finset.mem_insert, ← h.differs]
    by_cases hk : k = i
    · have hsame : bitAt damaged i = bitAt frame i := not_not.1 fun hne => hnew ((h.differs i).1 hne)
      rw [hk, hsame]
      cases bitAt frame i <;> simp
    · simp [hk]

/-- An odd number of flips in the payload and the stored checksum of an accepted packet, and
`netcmd_readpacket` rejects it. -/
theorem odd_flips_rejected (frame damaged : List UInt8) (flips : Finset Nat) (h12 : 12 ≤ lengthOf frame)
    (hwhole : frame.length = lengthOf frame) (hflips : Flips frame damaged flips)
    (hin : ∀ i ∈ flips, 64 ≤ i ∧ i < 8 * (lengthOf frame - 2)) (hodd : flips.card % 2 = 1)
    (below blob : Nat → UInt8) (packet : Nat) (tv : Timeval) (hframe : slice blob packet frame.length = frame)
    (haccept : netcmdReadpacket below blob packet tv ≠ none) (below' blob' : Nat → UInt8) (packet' : Nat)
    (tv' : Timeval) (hdamaged : slice blob' packet' damaged.length = damaged) :
    netcmdReadpacket below' blob' packet' tv' = none := by
  have hlength := hflips.lengthOf_eq fun i hi => (hin i hi).1
  have hck := (accepted_iff h12 hwhole below tv hframe).1 haccept
  have hwhole' : damaged.length = lengthOf damaged := by rw [hflips.length, hwhole, hlength]
  have hcount : oddBelow (fun i => checkedBits damaged i ^^ checkedBits frame i)
      (8 * (lengthOf frame - 10)) = true := by
    rw [oddBelow_eq, decide_eq_true_eq]
    refine Eq.trans (congrArg (· % 2) ?_) hodd
    rw [← Finset.card_map (addLeftEmbedding 64)]
    congr 1
    ext i
    simp only [Finset.mem_map, Finset.mem_filter, Finset.mem_range, checkedBits, hflips.xor_eq, decide_eq_true_eq,
      addLeftEmbedding_apply]
    constructor
    · rintro ⟨k, ⟨hk, hmem⟩, rfl⟩
      exact hmem
    · intro hi
      obtain ⟨hlow, hhigh⟩ := hin i hi
      exact ⟨i - 64, ⟨by omega, by rwa [Nat.add_sub_cancel' hlow]⟩, Nat.add_sub_cancel' hlow⟩
  by_contra haccept'
  have hck' := (accepted_iff (hlength ▸ h12) hwhole' below' tv' hdamaged).1 haccept'
  have heven := streamCrc_even (hlength ▸ h12) hwhole' hck'
  rw [hlength] at heven
  rw [oddBelow_xor, heven, streamCrc_even h12 hwhole hck] at hcount
  cases hcount

/-- Two bits of the payload and one of the stored checksum. -/
theorem odd_flips_rejected_addata :
    netcmdReadpacket (fun _ => 0) (store (fun _ => 0) 0 (flipAt (flipAt (flipAt addata20 130) 100) 64)) 0 ⟨0, 0⟩ =
      none := by
  have hflips := (((Flips.refl addata20).flipAt (i := 130) (by decide) (by decide)).flipAt (i := 100) (by decide)
    (by decide)).flipAt (i := 64) (by decide) (by decide)
  exact odd_flips_rejected addata20 _ _ (by decide) (by decide) hflips (by decide) (by decide) (fun _ => 0)
    (store (fun _ => 0) 0 addata20) 0 ⟨0, 0⟩ (slice_store_self _ _ _) (by decide +kernel) _ _ _ _
    (slice_store_self _ _ _)

/-! ## Two flips -/

/-- The period of the checksum. -/
theorem crc16_period (k : Nat) : IsPeriodicPt (shift crc16Poly) k (place 16 [true]) ↔ 32767 ∣ k := by
  have hmult : IsPeriodicPt (shift crc16Poly) 32767 (place 16 [true]) := by
    rw [isPeriodicPt_iff]
    decide +kernel
  refine isPeriodicPt_iff_dvd hmult ?_ k
  intro p hp hdvd
  have hfactors : p = 7 ∨ p = 31 ∨ p = 151 := by
    rcases (Nat.Prime.dvd_mul hp).1 (show p ∣ 7 * (31 * 151) from hdvd) with h | h
    · exact .inl ((Nat.prime_dvd_prime_iff_eq hp (by norm_num)).1 h)
    · rcases (Nat.Prime.dvd_mul hp).1 h with h | h
      · exact .inr (.inl ((Nat.prime_dvd_prime_iff_eq hp (by norm_num)).1 h))
      · exact .inr (.inr ((Nat.prime_dvd_prime_iff_eq hp (by norm_num)).1 h))
  rcases hfactors with rfl | rfl | rfl
  all_goals
    rw [isPeriodicPt_iff]
    decide +kernel

/-- Two flips in the payload of an accepted packet pass exactly if their distance is a multiple
of the period. -/
theorem two_flips_accepted_iff (frame damaged : List UInt8) (i j : Nat) (h12 : 12 ≤ lengthOf frame)
    (hwhole : frame.length = lengthOf frame) (hflips : Flips frame damaged {i, j}) (hfirst : 64 ≤ i) (hij : i < j)
    (hlast : j < 8 * (lengthOf frame - 4)) (below blob : Nat → UInt8) (packet : Nat) (tv : Timeval)
    (hframe : slice blob packet frame.length = frame) (haccept : netcmdReadpacket below blob packet tv ≠ none)
    (below' blob' : Nat → UInt8) (packet' : Nat) (tv' : Timeval)
    (hdamaged : slice blob' packet' damaged.length = damaged) :
    netcmdReadpacket below' blob' packet' tv' ≠ none ↔ 32767 ∣ j - i := by
  have hin : ∀ k ∈ ({i, j} : Finset Nat), 64 ≤ k ∧ k < 8 * (lengthOf frame - 4) := by
    intro k hk
    rcases Finset.mem_insert.1 hk with rfl | hk
    · exact ⟨hfirst, by omega⟩
    · rw [Finset.mem_singleton.1 hk]
      exact ⟨by omega, hlast⟩
  have hlength := hflips.lengthOf_eq fun k hk => (hin k hk).1
  have hck := (accepted_iff h12 hwhole below tv hframe).1 haccept
  have hwhole' : damaged.length = lengthOf damaged := by rw [hflips.length, hwhole, hlength]
  have hlen : (payload damaged).length = (payload frame).length := by
    rw [length_payload hwhole', length_payload hwhole, hlength]
  have htrailer : ∀ k, lengthOf frame - 4 ≤ k → damaged.getD k 0 = frame.getD k 0 := by
    intro k hk
    refine hflips.getD_eq fun b hb => ?_
    have := hin b hb
    omega
  have hpayload : (List.zipWith (· ^^^ ·) (payload damaged) (payload frame)).length = lengthOf frame - 12 := by
    rw [List.length_zipWith, hlen, Nat.min_self, length_payload hwhole]
  have hbits : ∀ k, (bitsOf (List.zipWith (· ^^^ ·) (payload damaged) (payload frame))).getD k false =
      decide (k = i - 64 ∨ k = j - 64) := by
    intro k
    rw [getD_bitsOf]
    by_cases hk : k < 8 * (lengthOf frame - 12)
    · rw [bitAt_xor hlen, bitAt_payload (by rwa [hlength]), bitAt_payload hk, hflips.xor_eq]
      refine decide_eq_decide.2 ?_
      rw [Finset.mem_insert, Finset.mem_singleton]
      omega
    · rw [bitAt_of_length_le (by omega), eq_comm, decide_eq_false_iff_not]
      omega
  have hcrc : crc16 0 (List.zipWith (· ^^^ ·) (payload damaged) (payload frame)) = 0 ↔ 32767 ∣ j - i := by
    rw [← UInt16.toBitVec_inj, crc16_eq_feed, ← Nat.sub_sub_sub_cancel_right hfirst, ← crc16_period,
      ← foldl_feed_two_iff (by decide) (by omega) (by rw [length_bitsOf, hpayload]; omega) hbits]
    rfl
  rw [accepted_iff (hlength ▸ h12) hwhole' below' tv' hdamaged, ← hcrc, crc16_xor hlen, UInt16.xor_eq_zero_iff,
    streamCrc, ← payload, hlength, htrailer _ (Nat.le_refl _), htrailer _ (by omega), beq_iff_eq]
  rw [← beq_iff_eq.1 hck, payload, payload, hlength]

/-- A packet of the maximal length with two flips, and it is accepted. -/
theorem two_flips_accepted_max : netcmdReadpacket (fun _ => 0)
    (store (fun _ => 0) 0 (flipAt (flipAt (zeroPacket addataMaxHeader) 32831) 64)) 0 ⟨0, 0⟩ ≠ none := by
  have hlen : lengthOf (zeroPacket addataMaxHeader) = 9940 := (lengthOf_append _ (by decide)).trans (by decide)
  have hlength := length_addataMax
  have hcrc : streamCrc (zeroPacket addataMaxHeader) = true := streamCrc_zeroPacket rfl (by decide)
  have hflips := ((Flips.refl (zeroPacket addataMaxHeader)).flipAt (i := 32831) (by omega) (by decide)).flipAt (i := 64)
    (by omega) (by decide)
  have hstored : slice (store (fun _ => 0) 0 (zeroPacket addataMaxHeader)) 0 (zeroPacket addataMaxHeader).length =
    zeroPacket addataMaxHeader := slice_store_self _ _ _
  have haccept : netcmdReadpacket (fun _ => 0) _ 0 ⟨0, 0⟩ ≠ none :=
    (accepted_iff (by omega) (by omega) _ ⟨0, 0⟩ hstored).2 hcrc
  exact (two_flips_accepted_iff (zeroPacket addataMaxHeader) _ 64 32831 (by omega) (by omega) hflips (by decide)
    (by decide) (by omega) _ _ 0 ⟨0, 0⟩ hstored haccept _ _ 0 ⟨0, 0⟩ (slice_store_self _ _ _)).2 (by decide)

end CmdAgent
