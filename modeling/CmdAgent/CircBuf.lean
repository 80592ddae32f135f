import Mathlib.Data.Nat.Bitwise
/-!
# `circ_buf.h`

The macros work on `uint32_t` offsets and mask with `size - 1`. A power of two
makes the mask a remainder; `circMask` says what the mask of a 3 MB buffer is
instead.
-/

namespace CmdAgent

/-- `CIRC_CNT` -/
def circCnt (head tail size : Nat) : Nat := (head + 2 ^ 32 - tail) % 2 ^ 32 &&& (size - 1)

/-- `CIRC_SPACE` -/
def circSpace (head tail size : Nat) : Nat := circCnt tail (head + 1) size

/-- `CIRC_SPACE_TO_END`; `stop` and `n` are its two `int` variables. -/
def circSpaceToEnd (head tail size : Nat) : Nat :=
  let stop : Int := size - 1 - head
  let n : Nat := ((stop + tail) % 2 ^ 32).toNat &&& (size - 1)
  if n ≤ stop then n else ((stop + 1) % 2 ^ 32).toNat

/-- The mask of a buffer of `0x300000` bytes drops bit 20. -/
theorem land_mask (n : Nat) : n &&& 0x300000 - 1 = 2 ^ 21 * (n / 2 ^ 21 % 2) + n % 2 ^ 20 := by
  have hsplit : (0x300000 - 1 : Nat) = 2 ^ 21 ||| (2 ^ 20 - 1) := by decide
  have hlt : n % 2 ^ 20 < 2 ^ 21 := Nat.lt_trans (Nat.mod_lt _ (by decide)) (by decide)
  rw [hsplit, Nat.and_or_distrib_left, Nat.and_two_pow_sub_one_eq_mod, Nat.and_two_pow,
    Nat.two_pow_add_eq_or_of_lt hlt, Nat.mul_comm, Nat.toNat_testBit]

/-- Up to the last 128 KB there is space while the tail is behind the head. -/
theorem circSpace_ne_zero {head tail : Nat} (ht : tail ≤ head) (hh : head ≤ 0x2E0000) :
    circSpace head tail 0x300000 ≠ 0 := by
  simp only [circSpace, circCnt, land_mask]
  omega

/-- With the tail close behind the head all the rest is free. -/
theorem circSpace_behind {head tail : Nat} (ht : tail ≤ head) (hd : head - tail < 2 ^ 20) (hh : head ≤ 0x300000) :
    circSpace head tail 0x300000 = 0x300000 - 1 - (head - tail) := by
  simp only [circSpace, circCnt, land_mask]
  omega

/-- The space to the end: what the mask leaves, or all there is. -/
theorem circSpaceToEnd_eq {head tail : Nat} (hh : head < 0x300000) (ht : tail ≤ 0x300000) :
    circSpaceToEnd head tail 0x300000 = min ((0x300000 - 1 - head + tail) &&& (0x300000 - 1)) (0x300000 - head) := by
  have hn : (((0x300000 : Nat) : Int) - 1 - head + tail) % 2 ^ 32 = (0x300000 - 1 - head + tail : Nat) := by omega
  unfold circSpaceToEnd
  dsimp only
  rw [hn, Int.toNat_natCast]
  split <;> omega

/-- The space to the end never reaches past it. -/
theorem circSpaceToEnd_le {head : Nat} (tail : Nat) (h : head ≤ 0x300000) :
    circSpaceToEnd head tail 0x300000 ≤ 0x300000 - head := by
  unfold circSpaceToEnd
  dsimp only
  split <;> omega

/-- With the tail close behind the head there is space up to the last 128 KB. -/
theorem le_circSpaceToEnd_behind {head tail : Nat} (ht : tail ≤ head) (hd : head - tail < 2 ^ 17)
    (hh : head ≤ 0x2E0000) : 2 ^ 17 ≤ circSpaceToEnd head tail 0x300000 := by
  rw [circSpaceToEnd_eq (by omega) (by omega), land_mask]
  omega

/-- With the tail in the last 1 MB there is space behind the start. -/
theorem le_circSpaceToEnd_start {head tail : Nat} (hh : head < 2 ^ 17) (hl : 0x2C0000 ≤ tail) (ht : tail ≤ 0x300000) :
    2 ^ 17 ≤ circSpaceToEnd head tail 0x300000 := by
  rw [circSpaceToEnd_eq (by omega) ht, land_mask]
  omega

/-- With the tail at 0 the last byte stays free. -/
theorem circSpaceToEnd_zero_lt {head : Nat} (h : head < 0x300000) :
    circSpaceToEnd head 0 0x300000 < 0x300000 - head := by
  have hn : (0x300000 - 1 - head + 0) &&& (0x300000 - 1) ≤ 0x300000 - 1 - head + 0 := Nat.and_le_left
  rw [circSpaceToEnd_eq h (Nat.zero_le _)]
  omega

/-- With the tail ahead of the head by more than 1 MB, the space to the end stays in
front of the tail. -/
theorem circSpaceToEnd_lt {head tail : Nat} (h : head + 2 ^ 20 < tail) (ht : tail ≤ 0x300000) :
    circSpaceToEnd head tail 0x300000 < tail - head := by
  rw [circSpaceToEnd_eq (by omega) ht, land_mask]
  omega

/-- With the tail ahead of the head by up to 1 MB, the dropped bit makes the space
to the end reach over the tail. -/
theorem le_circSpaceToEnd {head tail : Nat} (h : head < tail) (h' : tail ≤ head + 2 ^ 20) (ht : tail ≤ 0x300000) :
    tail - head ≤ circSpaceToEnd head tail 0x300000 := by
  rw [circSpaceToEnd_eq (by omega) ht, land_mask]
  omega

end CmdAgent
