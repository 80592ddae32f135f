import CmdAgent.Reassembly
import CmdAgent.Corruption
/-!
# Bursts in the payload

The checksum of a stream payload is the remainder of a division by a polynomial with a
constant term. Damage within 16 consecutive bits changes it, however long the payload is.
-/
open StreamLib.Crc StreamLib.Mem

namespace CmdAgent

/-! ## Bits -/

/-- Bit `i` of a packet, the most significant bit of each byte first. -/
def bitAt (packet : List UInt8) (i : Nat) : Bool := (packet.getD (i / 8) 0).toBitVec.getMsbD (i % 8)

theorem bitAt_byte (packet : List UInt8) {k j : Nat} (hj : j < 8) :
    bitAt packet (8 * k + j) = (packet.getD k 0).toBitVec.getMsbD j := by
  rw [bitAt, show (8 * k + j) / 8 = k by omega, show (8 * k + j) % 8 = j by omega]

theorem bitAt_of_length_le {packet : List UInt8} {i : Nat} (h : 8 * packet.length ≤ i) : bitAt packet i = false := by
  rw [bitAt, List.getD_eq_default _ _ (by omega)]
  exact BitVec.getMsbD_zero

theorem bitAt_xor {p q : List UInt8} (hlen : p.length = q.length) (i : Nat) :
    bitAt (List.zipWith (· ^^^ ·) p q) i = (bitAt p i ^^ bitAt q i) := by
  by_cases hi : i / 8 < p.length
  · have hq : i / 8 < q.length := hlen ▸ hi
    rw [bitAt, List.getD_eq_getElem _ _ (by simpa using ⟨hi, hq⟩), List.getElem_zipWith, UInt8.toBitVec_xor,
      BitVec.getMsbD_xor, bitAt, bitAt, List.getD_eq_getElem _ _ hi, List.getD_eq_getElem _ _ hq]
  · rw [bitAt_of_length_le (by simp; omega), bitAt_of_length_le (by omega), bitAt_of_length_le (by omega)]
    rfl

/-- Packets differ in a bit. -/
theorem exists_bitAt_ne {p q : List UInt8} (hlen : p.length = q.length) (hne : p ≠ q) : ∃ i, bitAt p i ≠ bitAt q i := by
  by_contra hsame
  apply hne
  refine List.ext_getElem hlen ?_
  intro k hk hk'
  apply UInt8.toBitVec_inj.1
  apply BitVec.eq_of_getMsbD_eq
  intro j hj
  have hbit := not_not.1 (not_exists.1 hsame (8 * k + j))
  rwa [bitAt_byte p hj, bitAt_byte q hj, List.getD_eq_getElem _ _ hk, List.getD_eq_getElem _ _ hk'] at hbit

/-! ## The checksum -/

theorem crc16_eq_feedWord (buf : List UInt8) :
    (crc16 0 buf).toBitVec = (buf.map UInt8.toBitVec).foldl (feedWord crc16Poly) 0 := by
  rw [List.foldl_map]
  exact (List.foldl_hom UInt16.toBitVec fun sum b => (crc16Step_eq sum b).symm).symm

/-- The checksum of a burst. -/
theorem crc16_burst_ne_zero {damage : List UInt8} {start i : Nat}
    (hout : ∀ i, i < start ∨ start + 16 ≤ i → bitAt damage i = false) (hset : bitAt damage i = true) :
    crc16 0 damage ≠ 0 := by
  have hbit : ∀ k, ((damage.map UInt8.toBitVec).getD (k / 8) 0).getMsbD (k % 8) = bitAt damage k := by
    intro k
    exact congrArg (BitVec.getMsbD · (k % 8)) (List.getD_map damage 0 UInt8.toBitVec)
  have hfeed : (damage.map UInt8.toBitVec).foldl (feedWord crc16Poly) 0 ≠ 0 :=
    burst_words_ne_zero (by decide) (by decide) (by decide) (fun k hk => (hbit k).trans (hout k hk))
      ((hbit i).trans hset)
  intro hzero
  apply hfeed
  rw [← crc16_eq_feedWord, hzero]
  rfl

/-! ## Damaged payloads -/

/-- The bytes whose checksum is in the trailer. -/
def payload (packet : List UInt8) : List UInt8 := (packet.drop 8).take (lengthOf packet - 12)

theorem bitAt_payload {packet : List UInt8} {i : Nat} (h : i < 8 * (lengthOf packet - 12)) :
    bitAt (payload packet) i = bitAt packet (64 + i) := by
  rw [bitAt, bitAt, payload, List.getD_eq_getElem?_getD, List.getElem?_take_of_lt (by omega), List.getElem?_drop,
    ← List.getD_eq_getElem?_getD, show (64 + i) / 8 = 8 + i / 8 by omega, show (64 + i) % 8 = i % 8 by omega]

theorem length_payload {packet : List UInt8} (h : packet.length = lengthOf packet) :
    (payload packet).length = lengthOf packet - 12 := by
  rw [payload, List.length_take, List.length_drop, h]
  omega

/-- `damaged` is `frame` with bits changed in a window of at most 16 bits of the payload. -/
structure PayloadBurst (frame damaged : List UInt8) (start width : Nat) : Prop where
  length : damaged.length = frame.length
  short : width ≤ 16
  first : 8 * 8 ≤ start
  last : start + width ≤ 8 * (lengthOf frame - 4)
  outside : ∀ i, i < start ∨ start + width ≤ i → bitAt damaged i = bitAt frame i

section
variable {frame damaged : List UInt8} {start width : Nat}

/-- The header and the trailer are as they were. -/
theorem PayloadBurst.getD_eq (h : PayloadBurst frame damaged start width) {k : Nat}
    (hk : k < 8 ∨ lengthOf frame - 4 ≤ k) : damaged.getD k 0 = frame.getD k 0 := by
  have hfirst := h.first
  have hlast := h.last
  apply UInt8.toBitVec_inj.1
  apply BitVec.eq_of_getMsbD_eq
  intro j hj
  rw [← bitAt_byte damaged hj, ← bitAt_byte frame hj]
  exact h.outside _ (by omega)

theorem PayloadBurst.lengthOf_eq (h : PayloadBurst frame damaged start width) : lengthOf damaged = lengthOf frame := by
  have hget : ∀ k, k < 8 → damaged.getD k 0 = frame.getD k 0 := fun k hk => h.getD_eq (.inl hk)
  simp (disch := omega) only [lengthOf, L0006NetcmdPacket.ofBytes, hget]

/-- The checksum of the payload changes. -/
theorem PayloadBurst.crc16_ne (h : PayloadBurst frame damaged start width) (hwhole : frame.length = lengthOf frame)
    (hne : damaged ≠ frame) : crc16 0 (payload damaged) ≠ crc16 0 (payload frame) := by
  have hdamaged : (payload damaged).length = lengthOf frame - 12 := by
    rw [length_payload (by rw [h.length, hwhole, h.lengthOf_eq]), h.lengthOf_eq]
  have hframe := length_payload hwhole
  have hlen : (payload damaged).length = (payload frame).length := hdamaged.trans hframe.symm
  have hfirst := h.first
  have hlast := h.last
  have hshort := h.short
  have hbit : ∀ k, k < 8 * (lengthOf frame - 12) →
      bitAt (List.zipWith (· ^^^ ·) (payload damaged) (payload frame)) k =
        (bitAt damaged (64 + k) ^^ bitAt frame (64 + k)) := by
    intro k hk
    rw [bitAt_xor hlen, bitAt_payload hk, bitAt_payload (by rwa [h.lengthOf_eq])]
  have hout : ∀ k, k < start - 64 ∨ start - 64 + 16 ≤ k →
      bitAt (List.zipWith (· ^^^ ·) (payload damaged) (payload frame)) k = false := by
    intro k hk
    by_cases hpayload : k < 8 * (lengthOf frame - 12)
    · rw [hbit k hpayload, h.outside (64 + k) (by omega), Bool.xor_self]
    · exact bitAt_of_length_le (by rw [List.length_zipWith, hdamaged, hframe]; omega)
  obtain ⟨i, hi⟩ := exists_bitAt_ne h.length hne
  have hin : start ≤ i ∧ i < start + width := by
    by_contra hcon
    exact hi (h.outside i (by omega))
  have hset : bitAt (List.zipWith (· ^^^ ·) (payload damaged) (payload frame)) (i - 64) = true := by
    rw [hbit _ (by omega), Nat.add_sub_cancel' (by omega)]
    exact bne_iff_ne.2 hi
  intro heq
  have hcrc := crc16_xor hlen
  rw [heq, UInt16.xor_self] at hcrc
  exact crc16_burst_ne_zero hout hset hcrc

theorem PayloadBurst.streamCrc_false (h : PayloadBurst frame damaged start width)
    (hwhole : frame.length = lengthOf frame) (hne : damaged ≠ frame) (haccept : streamCrc frame = true) :
    streamCrc damaged = false := by
  have htrailer : ∀ k, lengthOf frame - 4 ≤ k → damaged.getD k 0 = frame.getD k 0 := fun k hk => h.getD_eq (.inr hk)
  have hframe := beq_iff_eq.1 haccept
  refine beq_eq_false_iff_ne.2 ?_
  rw [h.lengthOf_eq, htrailer _ (Nat.le_refl _), htrailer _ (by omega), ← hframe]
  have hcrc := h.crc16_ne hwhole hne
  rwa [payload, payload, h.lengthOf_eq] at hcrc

end

theorem readpacket_frame (below : Nat → UInt8) {blob : Nat → UInt8} {packet : Nat} {frame : List UInt8} (tv : Timeval)
    (h12 : 12 ≤ lengthOf frame) (hwhole : frame.length = lengthOf frame) (hat : slice blob packet frame.length = frame) :
    netcmdReadpacket below blob packet tv =
      if streamCrc frame then some (store blob (packet + 8) tv.bytes) else none := by
  have h : 12 ≤ lengthOf (slice blob packet frame.length) := by rwa [hat]
  have hn : lengthOf (slice blob packet frame.length) ≤ frame.length := by rw [hat, hwhole]
  rw [readpacket_eq below blob tv h hn, hat]

/-- A packet of any `cmd`, with or without room for a timestamp: where `netcmd_readpacket`
accepts it, the same call on the packet with a burst in its payload is rejected, wherever
and whenever that is made. -/
theorem payload_burst_rejected (frame damaged : List UInt8) (start width : Nat) (h12 : 12 ≤ lengthOf frame)
    (hwhole : frame.length = lengthOf frame) (hburst : PayloadBurst frame damaged start width) (hne : damaged ≠ frame)
    (below blob : Nat → UInt8) (packet : Nat) (tv : Timeval) (hframe : slice blob packet frame.length = frame)
    (haccept : netcmdReadpacket below blob packet tv ≠ none) (below' blob' : Nat → UInt8) (packet' : Nat)
    (tv' : Timeval) (hdamaged : slice blob' packet' damaged.length = damaged) :
    netcmdReadpacket below' blob' packet' tv' = none := by
  have hlength : lengthOf damaged = lengthOf frame := hburst.lengthOf_eq
  have hck : streamCrc frame = true := by
    rw [readpacket_frame below tv h12 hwhole hframe] at haccept
    by_contra hck
    exact haccept (if_neg hck)
  have hrejected := hburst.streamCrc_false hwhole hne hck
  rw [readpacket_frame below' tv' (hlength ▸ h12) (by rw [hburst.length, hwhole, hlength]) hdamaged, hrejected]
  rfl

/-- A burst of 16 bits over three bytes of the payload. -/
def addata20Burst : List UInt8 := [0xEF, 0xBE, 0x04, 0, 20, 0, 0xEB, 0xAA, 0, 0, 0x0F, 0xAA, 0xF0, 0, 0, 0, 0, 0, 0, 0]

theorem payload_burst_rejected_addata :
    netcmdReadpacket (fun _ => 0) (store (fun _ => 0) 0 addata20Burst) 0 ⟨0, 0⟩ = none := by
  have hbits : ∀ i < 160, i < 84 ∨ 84 + 16 ≤ i → bitAt addata20Burst i = bitAt addata20 i := by decide +kernel
  refine payload_burst_rejected addata20 addata20Burst 84 16 (by decide) (by decide)
    ⟨by decide, by decide, by decide, by decide, ?_⟩ (by decide) (fun _ => 0) (store (fun _ => 0) 0 addata20) 0 ⟨0, 0⟩
    (by decide) ?_ _ _ _ _ (by decide)
  · intro i hi
    by_cases hlt : i < 160
    · exact hbits i hlt hi
    · rw [bitAt_of_length_le (by simpa [addata20Burst] using hlt), bitAt_of_length_le (by simpa [addata20] using hlt)]
  · decide +kernel

end CmdAgent
