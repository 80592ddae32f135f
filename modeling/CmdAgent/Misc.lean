import Mathlib.Algebra.Ring.Int.Defs
import Mathlib.Algebra.Ring.Nat
import Mathlib.Tactic.Common
/-!
# `misc.c`: elapsed times

`time_t` and `long` are 64-bit; differences are converted to `uint64_t`, `uint32_t` or
`int` as the source does it, and a product of a `uint32_t` is one of 32 bits.
-/

namespace CmdAgent

/-- `struct timespec` -/
structure Timespec where
  tvSec : Int
  tvNsec : Int
  deriving DecidableEq

/-! ## Conversions -/

/-- Conversion to `uint64_t`. -/
def u64 (z : Int) : Nat := (z % 2 ^ 64).toNat

/-- Conversion to `uint32_t`. -/
def u32 (z : Int) : Nat := (z % 2 ^ 32).toNat

/-- `abs`, which converts a `long` to `int`. -/
def intAbs (z : Int) : Nat := (z.bmod (2 ^ 32)).natAbs

theorem cast_u32 (z : Int) : (u32 z : Int) = z % 2 ^ 32 := Int.toNat_of_nonneg (Int.emod_nonneg z (by decide))

theorem cast_u64 (z : Int) : (u64 z : Int) = z % 2 ^ 64 := Int.toNat_of_nonneg (Int.emod_nonneg z (by decide))

/-- A 32-bit product of what has been cut to 32 bits. -/
theorem cast_u32_mul (z c : Int) : (u32 (u32 z * c) : Int) = z * c % 2 ^ 32 := by
  rw [cast_u32, cast_u32, Int.mul_emod (z % 2 ^ 32), Int.emod_emod, ← Int.mul_emod]

theorem cast_u32_sub (z c : Int) : (u32 (u32 z - c) : Int) = (z - c) % 2 ^ 32 := by
  rw [cast_u32, cast_u32, Int.emod_sub_emod]

theorem intAbs_sub_comm (a b : Int) : intAbs (a - b) = intAbs (b - a) := by
  unfold intAbs
  rw [← Int.neg_sub, Int.neg_bmod]
  split
  · rfl
  · exact Int.natAbs_neg _

theorem intAbs_of_lt {z : Int} (h0 : 0 ≤ z) (h : z < 2 ^ 31) : (intAbs z : Int) = z := by
  unfold intAbs
  rw [Int.bmod_eq_of_le (by omega) (by omega)]
  exact Int.natAbs_of_nonneg h0

/-! ## Elapsed times -/

def l0001SecondElapsed (now before : Timespec) : Nat :=
  let sec := u64 (now.tvSec - before.tvSec)
  let usec :=
    if now.tvNsec > before.tvNsec then
      u64 (sec * 1000000 + now.tvNsec.tdiv 1000 - before.tvNsec.tdiv 1000)
    else u64 ((sec - 1) * 1000000 + (1000000 + now.tvNsec.tdiv 1000) - before.tvNsec.tdiv 1000)
  usec / 1000000 % 2 ^ 32

/-- `sec` is a `uint32_t` here. -/
def l0001MillisecondElapsed (now before : Timespec) : Nat :=
  let sec := u32 (now.tvSec - before.tvSec)
  let usec :=
    if now.tvNsec > before.tvNsec then
      u64 (u32 (sec * 1000000) + now.tvNsec.tdiv 1000 - before.tvNsec.tdiv 1000)
    else u64 (u32 (u32 (sec - 1) * 1000000) + (1000000 + now.tvNsec.tdiv 1000) - before.tvNsec.tdiv 1000)
  u32 (usec / 1000 : Nat)

def l0001MillisecondDiff (ts1 ts2 : Timespec) : Nat :=
  let sec := intAbs (ts1.tvSec - ts2.tvSec)
  let msec :=
    if ts1.tvSec > ts2.tvSec then
      u64 ((sec - 1) * 1000 + (1000 + ts1.tvNsec.tdiv 1000000) - ts2.tvNsec.tdiv 1000000)
    else if ts1.tvSec = ts2.tvSec then intAbs (ts1.tvNsec - ts2.tvNsec) / 1000000
    else u64 ((sec - 1) * 1000 + (1000 + ts2.tvNsec.tdiv 1000000) - ts1.tvNsec.tdiv 1000000)
  u32 (u64 (sec * 1000 + msec))

def l0001MillisecElapsed32 (ticksBefore ticksAfter : UInt32) : UInt32 :=
  if ticksAfter ≥ ticksBefore then (ticksAfter - ticksBefore) * 1
  else ((0xFFFFFFFF - ticksBefore) + ticksAfter) * 1

/-- The division is one of `unsigned long`. -/
def l0001Timespecelapsed (now before : Timespec) : Nat :=
  u64 ((now.tvSec - before.tvSec) * 1000 + (u64 (now.tvNsec - before.tvNsec) / 1000000 : Nat))

end CmdAgent
