import CmdAgent.Burst
import CmdAgent.StreamLib.CrcPeriod
/-!
# `crc32.c`

The register runs the other way than that of `crc16`: the lowest bit of a byte is taken
first. With its bits reversed it is the register of the library.
-/
open StreamLib.Crc

namespace CmdAgent

/-- `crc32tab` -/
def crc32Tab : Array UInt32 := #[
  0x00000000, 0x77073096, 0xee0e612c, 0x990951ba, 0x076dc419, 0x706af48f, 0xe963a535, 0x9e6495a3,
  0x0edb8832, 0x79dcb8a4, 0xe0d5e91e, 0x97d2d988, 0x09b64c2b, 0x7eb17cbd, 0xe7b82d07, 0x90bf1d91,
  0x1db71064, 0x6ab020f2, 0xf3b97148, 0x84be41de, 0x1adad47d, 0x6ddde4eb, 0xf4d4b551, 0x83d385c7,
  0x136c9856, 0x646ba8c0, 0xfd62f97a, 0x8a65c9ec, 0x14015c4f, 0x63066cd9, 0xfa0f3d63, 0x8d080df5,
  0x3b6e20c8, 0x4c69105e, 0xd56041e4, 0xa2677172, 0x3c03e4d1, 0x4b04d447, 0xd20d85fd, 0xa50ab56b,
  0x35b5a8fa, 0x42b2986c, 0xdbbbc9d6, 0xacbcf940, 0x32d86ce3, 0x45df5c75, 0xdcd60dcf, 0xabd13d59,
  0x26d930ac, 0x51de003a, 0xc8d75180, 0xbfd06116, 0x21b4f4b5, 0x56b3c423, 0xcfba9599, 0xb8bda50f,
  0x2802b89e, 0x5f058808, 0xc60cd9b2, 0xb10be924, 0x2f6f7c87, 0x58684c11, 0xc1611dab, 0xb6662d3d,
  0x76dc4190, 0x01db7106, 0x98d220bc, 0xefd5102a, 0x71b18589, 0x06b6b51f, 0x9fbfe4a5, 0xe8b8d433,
  0x7807c9a2, 0x0f00f934, 0x9609a88e, 0xe10e9818, 0x7f6a0dbb, 0x086d3d2d, 0x91646c97, 0xe6635c01,
  0x6b6b51f4, 0x1c6c6162, 0x856530d8, 0xf262004e, 0x6c0695ed, 0x1b01a57b, 0x8208f4c1, 0xf50fc457,
  0x65b0d9c6, 0x12b7e950, 0x8bbeb8ea, 0xfcb9887c, 0x62dd1ddf, 0x15da2d49, 0x8cd37cf3, 0xfbd44c65,
  0x4db26158, 0x3ab551ce, 0xa3bc0074, 0xd4bb30e2, 0x4adfa541, 0x3dd895d7, 0xa4d1c46d, 0xd3d6f4fb,
  0x4369e96a, 0x346ed9fc, 0xad678846, 0xda60b8d0, 0x44042d73, 0x33031de5, 0xaa0a4c5f, 0xdd0d7cc9,
  0x5005713c, 0x270241aa, 0xbe0b1010, 0xc90c2086, 0x5768b525, 0x206f85b3, 0xb966d409, 0xce61e49f,
  0x5edef90e, 0x29d9c998, 0xb0d09822, 0xc7d7a8b4, 0x59b33d17, 0x2eb40d81, 0xb7bd5c3b, 0xc0ba6cad,
  0xedb88320, 0x9abfb3b6, 0x03b6e20c, 0x74b1d29a, 0xead54739, 0x9dd277af, 0x04db2615, 0x73dc1683,
  0xe3630b12, 0x94643b84, 0x0d6d6a3e, 0x7a6a5aa8, 0xe40ecf0b, 0x9309ff9d, 0x0a00ae27, 0x7d079eb1,
  0xf00f9344, 0x8708a3d2, 0x1e01f268, 0x6906c2fe, 0xf762575d, 0x806567cb, 0x196c3671, 0x6e6b06e7,
  0xfed41b76, 0x89d32be0, 0x10da7a5a, 0x67dd4acc, 0xf9b9df6f, 0x8ebeeff9, 0x17b7be43, 0x60b08ed5,
  0xd6d6a3e8, 0xa1d1937e, 0x38d8c2c4, 0x4fdff252, 0xd1bb67f1, 0xa6bc5767, 0x3fb506dd, 0x48b2364b,
  0xd80d2bda, 0xaf0a1b4c, 0x36034af6, 0x41047a60, 0xdf60efc3, 0xa867df55, 0x316e8eef, 0x4669be79,
  0xcb61b38c, 0xbc66831a, 0x256fd2a0, 0x5268e236, 0xcc0c7795, 0xbb0b4703, 0x220216b9, 0x5505262f,
  0xc5ba3bbe, 0xb2bd0b28, 0x2bb45a92, 0x5cb36a04, 0xc2d7ffa7, 0xb5d0cf31, 0x2cd99e8b, 0x5bdeae1d,
  0x9b64c2b0, 0xec63f226, 0x756aa39c, 0x026d930a, 0x9c0906a9, 0xeb0e363f, 0x72076785, 0x05005713,
  0x95bf4a82, 0xe2b87a14, 0x7bb12bae, 0x0cb61b38, 0x92d28e9b, 0xe5d5be0d, 0x7cdcefb7, 0x0bdbdf21,
  0x86d3d2d4, 0xf1d4e242, 0x68ddb3f8, 0x1fda836e, 0x81be16cd, 0xf6b9265b, 0x6fb077e1, 0x18b74777,
  0x88085ae6, 0xff0f6a70, 0x66063bca, 0x11010b5c, 0x8f659eff, 0xf862ae69, 0x616bffd3, 0x166ccf45,
  0xa00ae278, 0xd70dd2ee, 0x4e048354, 0x3903b3c2, 0xa7672661, 0xd06016f7, 0x4969474d, 0x3e6e77db,
  0xaed16a4a, 0xd9d65adc, 0x40df0b66, 0x37d83bf0, 0xa9bcae53, 0xdebb9ec5, 0x47b2cf7f, 0x30b5ffe9,
  0xbdbdf21c, 0xcabac28a, 0x53b39330, 0x24b4a3a6, 0xbad03605, 0xcdd70693, 0x54de5729, 0x23d967bf,
  0xb3667a2e, 0xc4614ab8, 0x5d681b02, 0x2a6f2b94, 0xb40bbe37, 0xc30c8ea1, 0x5a05df1b, 0x2d02ef8d]

/-- One byte of the loop of `crc32`. -/
def crc32Step (crc : UInt32) (b : UInt8) : UInt32 :=
  crc32Tab.getD ((crc ^^^ b.toUInt32) &&& 0xff).toNat 0 ^^^ (crc >>> 8)

def crc32 (crc : UInt32) (buf : List UInt8) : UInt32 := buf.foldl crc32Step crc ^^^ 0xFFFFFFFF

/-! ## The register -/

/-- The polynomial of Ethernet without the first term. -/
def crc32Poly : BitVec 32 := 0x04C11DB7

theorem crc32Tab_map : crc32Tab.toList.map UInt32.toBitVec =
    (List.range 256).map fun i => (shifts crc32Poly 8 ((BitVec.ofNat 32 i).reverse)).reverse := by decide +kernel

theorem crc32Tab_eq (i : BitVec 8) :
    (crc32Tab.getD i.toNat 0).toBitVec.reverse = shifts crc32Poly 8 (i.setWidth 32).reverse := by
  have hentry := congrArg (·[i.toNat]?) crc32Tab_map
  simp only [List.getElem?_map, List.getElem?_range i.isLt, Array.getElem?_toList, Option.map_some] at hentry
  obtain ⟨entry, hget, hentry⟩ := Option.map_eq_some_iff.1 hentry
  rw [Array.getD_eq_getD_getElem?, hget, Option.getD_some, hentry, BitVec.reverse_reverse_eq, BitVec.ofNat_toNat]

theorem reverse_xor {n : Nat} (a b : BitVec n) : (a ^^^ b).reverse = a.reverse ^^^ b.reverse := by
  apply BitVec.eq_of_getMsbD_eq
  intro i _
  rw [BitVec.getMsbD_reverse, BitVec.getMsbD_xor, BitVec.getMsbD_reverse, BitVec.getMsbD_reverse, BitVec.getLsbD_xor]

/-- A byte of the loop, backwards. -/
theorem crc32Step_reverse (crc : UInt32) (b : UInt8) :
    (crc32Step crc b).toBitVec.reverse = feedWord crc32Poly crc.toBitVec.reverse b.toBitVec.reverse := by
  have henter : ∀ i, (b.toBitVec.reverse.setWidth 32 <<< (32 - 8)).getMsbD i =
      (decide (i < 8) && b.toBitVec.getLsbD i) := by
    intro i
    rw [BitVec.getMsbD_shiftLeft, BitVec.getMsbD_setWidth]
    by_cases h8 : i < 8
    · rw [show i + (32 - 8) + 8 - 32 = i by omega, BitVec.getMsbD_reverse, decide_eq_true h8, decide_eq_true (by omega)]
    · rw [BitVec.getMsbD_of_ge _ _ (show 8 ≤ i + (32 - 8) + 8 - 32 by omega), decide_eq_false h8, Bool.and_false,
        Bool.false_and]
  have hidx : ((crc ^^^ b.toUInt32) &&& 0xff).toNat = (crc.toBitVec.setWidth 8 ^^^ b.toBitVec).toNat := by
    have hmask : (crc ^^^ b.toUInt32).toNat &&& (2 ^ 8 - 1) = (crc.toNat ^^^ b.toNat) % 2 ^ 8 := by
      rw [Nat.and_two_pow_sub_one_eq_mod, UInt32.toNat_xor, UInt8.toNat_toUInt32]
    rw [UInt32.toNat_and, BitVec.toNat_xor, BitVec.toNat_setWidth]
    refine hmask.trans ?_
    rw [Nat.xor_mod_two_pow, Nat.mod_eq_of_lt b.toNat_lt]
    rfl
  have htop : ((crc.toBitVec.setWidth 8 ^^^ b.toBitVec).setWidth 32).reverse =
      ((crc.toBitVec.reverse ^^^ b.toBitVec.reverse.setWidth 32 <<< (32 - 8)) >>> (32 - 8)) <<< (32 - 8) := by
    apply BitVec.eq_of_getMsbD_eq
    intro i hi
    rw [BitVec.getMsbD_reverse, BitVec.getLsbD_setWidth, decide_eq_true hi, Bool.true_and, BitVec.getLsbD_xor,
      BitVec.getLsbD_setWidth, BitVec.getMsbD_shiftLeft, BitVec.getMsbD_ushiftRight,
      decide_eq_false (show ¬ i + (32 - 8) < 32 - 8 by omega), Bool.not_false, Bool.true_and, Nat.add_sub_cancel,
      BitVec.getMsbD_xor, BitVec.getMsbD_reverse, henter]
    by_cases h8 : i < 8
    · rw [decide_eq_true h8, decide_eq_true (show i + (32 - 8) < 32 by omega), Bool.true_and, Bool.true_and,
        Bool.true_and]
    · rw [decide_eq_false h8, decide_eq_false (show ¬ i + (32 - 8) < 32 by omega), Bool.false_and, Bool.false_and,
        BitVec.getLsbD_of_ge _ i (Nat.not_lt.1 h8), Bool.xor_false]
  have hlow : (crc >>> 8).toBitVec.reverse =
      (crc.toBitVec.reverse ^^^ b.toBitVec.reverse.setWidth 32 <<< (32 - 8)) <<< 8 := by
    apply BitVec.eq_of_getMsbD_eq
    intro i hi
    rw [BitVec.getMsbD_reverse, BitVec.getMsbD_shiftLeft, BitVec.getMsbD_xor, BitVec.getMsbD_reverse, henter,
      decide_eq_false (show ¬ i + 8 < 8 by omega), Bool.false_and, Bool.xor_false, Nat.add_comm]
    simp
  have hsplit := shifts_top crc32Poly (crc.toBitVec.reverse ^^^ b.toBitVec.reverse.setWidth 32 <<< (32 - 8))
    (show 8 ≤ 32 by decide)
  rw [crc32Step, UInt32.toBitVec_xor, reverse_xor, hidx, crc32Tab_eq, htop, hlow, feedWord, hsplit]

/-! ## Bursts -/

/-- Bit `i` of a message in the order of the register: the lowest of each byte first. -/
def lowBitAt (buf : List UInt8) (i : Nat) : Bool := (buf.getD (i / 8) 0).toBitVec.getLsbD (i % 8)

theorem lowBitAt_eq (buf : List UInt8) (i : Nat) : lowBitAt buf i = bitAt buf (8 * (i / 8) + (7 - i % 8)) := by
  rw [bitAt_byte buf (by omega), lowBitAt, BitVec.getMsbD_eq_getLsbD, decide_eq_true (by omega), Bool.true_and]
  congr 1
  omega

/-- The bytes in the order of the register. -/
def reversed (buf : List UInt8) : List (BitVec 8) := buf.map fun b => b.toBitVec.reverse

theorem foldl_reverse (crc : UInt32) (buf : List UInt8) :
    (buf.foldl crc32Step crc).toBitVec.reverse = (reversed buf).foldl (feedWord crc32Poly) crc.toBitVec.reverse := by
  rw [reversed, List.foldl_map]
  exact (List.foldl_hom (fun c : UInt32 => c.toBitVec.reverse) fun c b => (crc32Step_reverse c b).symm).symm

theorem getMsbD_reversed (buf : List UInt8) (i : Nat) :
    ((reversed buf).getD (i / 8) 0).getMsbD (i % 8) = lowBitAt buf i := by
  have hbyte : (reversed buf).getD (i / 8) 0 = (buf.getD (i / 8) 0).toBitVec.reverse :=
    List.getD_map buf 0 fun b => b.toBitVec.reverse
  rw [hbyte, BitVec.getMsbD_reverse, lowBitAt]

theorem zipWith_reversed (p q : List UInt8) :
    List.zipWith (· ^^^ ·) (reversed p) (reversed q) = reversed (List.zipWith (· ^^^ ·) p q) := by
  rw [reversed, reversed, reversed, List.zipWith_map, List.map_zipWith]
  simp only [UInt8.toBitVec_xor, reverse_xor]

/-- Two messages that differ within 32 consecutive bits have different checksums, wherever that
is and from whatever value. -/
theorem crc32_burst_detected (crc : UInt32) (p q : List UInt8) (start : Nat) (hlen : p.length = q.length) (hne : p ≠ q)
    (hout : ∀ i, i < start ∨ start + 32 ≤ i → lowBitAt p i = lowBitAt q i) : crc32 crc p ≠ crc32 crc q := by
  intro heq
  have hbit : ∀ i, ((reversed (List.zipWith (· ^^^ ·) p q)).getD (i / 8) 0).getMsbD (i % 8) =
      (lowBitAt p i ^^ lowBitAt q i) := by
    intro i
    rw [getMsbD_reversed, lowBitAt_eq, bitAt_xor hlen, ← lowBitAt_eq, ← lowBitAt_eq]
  obtain ⟨j, hj⟩ := exists_bitAt_ne hlen hne
  have hset : lowBitAt p (8 * (j / 8) + (7 - j % 8)) ≠ lowBitAt q (8 * (j / 8) + (7 - j % 8)) := by
    have hback : 8 * ((8 * (j / 8) + (7 - j % 8)) / 8) + (7 - (8 * (j / 8) + (7 - j % 8)) % 8) = j := by omega
    rwa [lowBitAt_eq, lowBitAt_eq, hback]
  have hclear : ∀ i, i < start ∨ start + 32 ≤ i →
      ((reversed (List.zipWith (· ^^^ ·) p q)).getD (i / 8) 0).getMsbD (i % 8) = false := by
    intro i hi
    rw [hbit, hout i hi, Bool.xor_self]
  have hdamage : (reversed (List.zipWith (· ^^^ ·) p q)).foldl (feedWord crc32Poly) 0 ≠ 0 :=
    burst_words_ne_zero (by decide) (by decide) (by decide) hclear ((hbit _).trans (Bool.xor_iff_ne.2 hset))
  have hsame : p.foldl crc32Step crc = q.foldl crc32Step crc := (UInt32.xor_left_inj _).1 heq
  have hlen' : (reversed p).length = (reversed q).length := by simpa [reversed] using hlen
  have hxor := foldl_xor (feedWord_xor crc32Poly) hlen' crc.toBitVec.reverse crc.toBitVec.reverse
  rw [zipWith_reversed, ← foldl_reverse, ← foldl_reverse, hsame, BitVec.xor_self, BitVec.xor_self] at hxor
  exact hdamage hxor

/-- A burst over two bytes. -/
theorem crc32_burst_detected_admin :
    crc32 0xFFFFFFFF [97, 100, 109, 105, 110] ≠ crc32 0xFFFFFFFF [97, 100, 13, 150, 110] := by
  refine crc32_burst_detected _ _ _ 16 (by decide) (by decide) ?_
  intro i hi
  have hbits : ∀ i < 40, i < 16 ∨ 16 + 32 ≤ i →
      lowBitAt [97, 100, 109, 105, 110] i = lowBitAt [97, 100, 13, 150, 110] i := by decide +kernel
  by_cases hlt : i < 40
  · exact hbits i hlt hi
  · rw [lowBitAt, lowBitAt, List.getD_eq_default _ _ (show 5 ≤ i / 8 by omega),
      List.getD_eq_default _ _ (show 5 ≤ i / 8 by omega)]

end CmdAgent
