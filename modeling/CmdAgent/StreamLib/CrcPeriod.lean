import CmdAgent.StreamLib.Crc
import Mathlib.Data.Finset.Card
import Mathlib.Dynamics.PeriodicPts.Lemmas
/-!
# Scattered damage

Damage that does not fit in the register may be lost. With an even number of terms in the
polynomial an odd number of bits is never lost. Two bits are lost exactly if their
distance is a period of the register.
-/
open Function

namespace StreamLib.Crc

/-! ## Parity -/

/-- Whether an odd number of the values under `k` are true. -/
def oddBelow (f : Nat → Bool) : Nat → Bool
  | 0 => false
  | k + 1 => oddBelow f k ^^ f k

section OddBelow
variable {f g : Nat → Bool} {k m : Nat}

theorem oddBelow_congr (h : ∀ i < k, f i = g i) : oddBelow f k = oddBelow g k := by
  induction k with
  | zero => rfl
  | succ k ih => rw [oddBelow, oddBelow, ih fun i hi => h i (Nat.lt_succ_of_lt hi), h k (Nat.lt_succ_self k)]

theorem oddBelow_xor (f g : Nat → Bool) (k : Nat) :
    oddBelow (fun i => f i ^^ g i) k = (oddBelow f k ^^ oddBelow g k) := by
  induction k with
  | zero => rfl
  | succ k ih =>
    rw [oddBelow, oddBelow, oddBelow, ih]
    cases oddBelow f k <;> cases oddBelow g k <;> simp

theorem oddBelow_add (f : Nat → Bool) (k m : Nat) :
    oddBelow f (k + m) = (oddBelow f k ^^ oddBelow (fun i => f (k + i)) m) := by
  induction m with
  | zero => simp [oddBelow]
  | succ m ih =>
    rw [← Nat.add_assoc, oddBelow, ih, oddBelow, Bool.xor_assoc]

theorem oddBelow_front (f : Nat → Bool) (k : Nat) : oddBelow f (k + 1) = (f 0 ^^ oddBelow (fun i => f (1 + i)) k) := by
  rw [Nat.add_comm, oddBelow_add]
  exact congrArg (· ^^ _) (Bool.false_xor (f 0))

theorem oddBelow_reverse (f : Nat → Bool) (k : Nat) : oddBelow (fun i => f (k - 1 - i)) k = oddBelow f k := by
  induction k with
  | zero => rfl
  | succ k ih =>
    have hrest : oddBelow (fun i => f (k - (1 + i))) k = oddBelow (fun i => f (k - 1 - i)) k := by
      simp only [Nat.sub_add_eq]
    rw [oddBelow_front, Nat.add_sub_cancel, Nat.sub_zero, hrest, ih, oddBelow, Bool.xor_comm]

/-- It is about how many there are. -/
theorem oddBelow_eq (f : Nat → Bool) (k : Nat) :
    oddBelow f k = decide (((Finset.range k).filter fun i => f i = true).card % 2 = 1) := by
  induction k with
  | zero => rfl
  | succ k ih =>
    rw [oddBelow, ih, Finset.range_add_one, Finset.filter_insert]
    cases hf : f k with
    | false => simp
    | true =>
      rw [if_pos rfl, Finset.card_insert_of_notMem (by simp), Bool.xor_true, ← decide_not]
      refine decide_eq_decide.2 ?_
      omega

end OddBelow

variable {n : Nat} {poly c v : BitVec n}

/-- From the highest bit or from the lowest. -/
theorem oddBelow_getMsbD (c : BitVec n) : oddBelow c.getMsbD n = oddBelow c.getLsbD n := by
  rw [← oddBelow_reverse c.getLsbD]
  refine oddBelow_congr fun i hi => ?_
  rw [BitVec.getMsbD_eq_getLsbD, decide_eq_true hi, Bool.true_and]

theorem parity_eq_oddBelow (c : BitVec n) : parity c = oddBelow c.getLsbD n := by
  have hbelow : ∀ k, parityBelow c k = oddBelow c.getLsbD k := by
    intro k
    induction k with
    | zero => rfl
    | succ k ih => rw [parityBelow, oddBelow, ih]
  exact hbelow n

theorem parity_shiftLeft (c : BitVec n) : parity (c <<< 1) = (parity c ^^ c.msb) := by
  cases n with
  | zero =>
    rw [BitVec.eq_nil c]
    rfl
  | succ m =>
    have hup : oddBelow (fun i => (c <<< 1).getLsbD (1 + i)) m = oddBelow c.getLsbD m := by
      refine oddBelow_congr fun i hi => ?_
      rw [BitVec.getLsbD_shiftLeft, Nat.add_sub_cancel_left, decide_eq_true (by omega), decide_eq_false (by omega)]
      rfl
    have hlow : (c <<< 1).getLsbD 0 = false := by simp
    rw [parity_eq_oddBelow, parity_eq_oddBelow, oddBelow_front, hup, hlow, oddBelow, BitVec.msb_eq_getLsbD_last,
      Nat.add_sub_cancel]
    cases oddBelow c.getLsbD m <;> cases c.getLsbD m <;> rfl

/-- What leaves at the top comes back in an odd number of places. -/
theorem parity_shift (hpoly : parity poly = true) (c : BitVec n) : parity (shift poly c) = parity c := by
  unfold shift
  cases hmsb : c.msb with
  | true => rw [if_pos rfl, parity_xor, parity_shiftLeft, hmsb, hpoly, Bool.xor_assoc, Bool.xor_self, Bool.xor_false]
  | false => rw [if_neg Bool.false_ne_true, parity_shiftLeft, hmsb, Bool.xor_false]

theorem parity_place (hn : 0 < n) (b : Bool) : parity (place n [b]) = b := by
  have hbit : ∀ i < n, (place n [b]).getLsbD i = (decide (i = n - 1) && b) := by
    intro i hi
    rw [BitVec.getLsbD_eq_getMsbD, decide_eq_true hi, Bool.true_and, getMsbD_place (show [b].length ≤ n from hn)]
    by_cases hlast : i = n - 1
    · rw [hlast, Nat.sub_self, decide_eq_true rfl, Bool.true_and]
      rfl
    · rw [List.getD_eq_default _ _ (show 1 ≤ n - 1 - i by omega), decide_eq_false hlast, Bool.false_and]
  obtain ⟨m, rfl⟩ := Nat.exists_eq_add_of_lt hn
  rw [Nat.zero_add] at hbit ⊢
  have hclear : oddBelow (place (m + 1) [b]).getLsbD m = oddBelow (fun _ => false) m := by
    refine oddBelow_congr fun i hi => ?_
    rw [hbit i (Nat.lt_succ_of_lt hi), decide_eq_false (by omega), Bool.false_and]
  have hzero : oddBelow (fun _ => false) m = false := by
    rw [oddBelow_eq]
    simp
  rw [parity_eq_oddBelow, oddBelow, hclear, hzero, hbit m (Nat.lt_succ_self m), decide_eq_true (by omega),
    Bool.true_and, Bool.false_xor]

/-- The register has the parity of the message. -/
theorem parity_foldl_feed (hn : 0 < n) (hpoly : parity poly = true) (bits : List Bool) :
    parity (bits.foldl (feed poly) 0) = oddBelow (fun i => bits.getD i false) bits.length := by
  induction bits using List.reverseRecOn with
  | nil => exact parity_zero
  | append_singleton bits b ih =>
    have hfront : oddBelow (fun i => (bits ++ [b]).getD i false) bits.length =
        oddBelow (fun i => bits.getD i false) bits.length := by
      exact oddBelow_congr fun i hi => List.getD_append _ _ _ _ hi
    have hlast : (bits ++ [b]).getD bits.length false = b := by
      rw [List.getD_append_right _ _ _ _ (Nat.le_refl _), Nat.sub_self]
      rfl
    rw [List.foldl_append, List.foldl_cons, List.foldl_nil, feed, parity_shift hpoly, parity_xor, ih, parity_place hn,
      List.length_append, List.length_singleton, oddBelow, hfront, hlast]

theorem feedWord_xor {w : Nat} (poly a b : BitVec n) (x y : BitVec w) :
    feedWord poly (a ^^^ b) (x ^^^ y) = feedWord poly a x ^^^ feedWord poly b y := by
  rw [feedWord, feedWord, feedWord, ← shifts_xor, BitVec.setWidth_xor, BitVec.shiftLeft_xor_distrib]
  congr 1
  ac_rfl

/-! ## Periods -/

theorem shifts_eq_iterate (poly : BitVec n) (k : Nat) (c : BitVec n) : shifts poly k c = (shift poly)^[k] c := by
  induction k with
  | zero => rfl
  | succ k ih => rw [shifts, ih, iterate_succ_apply']

theorem feed_false (poly c : BitVec n) : feed poly c false = shift poly c := by
  have hclear : ∀ b ∈ [false], b = false := fun b hb => List.mem_singleton.1 hb
  exact foldl_feed_clear poly hclear c

/-- A message with one bit in it. -/
theorem foldl_feed_one {bits : List Bool} {j : Nat} (hj : j < bits.length)
    (hbits : ∀ k, bits.getD k false = decide (k = j)) (c : BitVec n) :
    bits.foldl (feed poly) c = shifts poly (bits.length - j) (shifts poly j c ^^^ place n [true]) := by
  induction bits generalizing j c with
  | nil => exact absurd hj (Nat.not_lt_zero j)
  | cons b bits ih =>
    cases j with
    | zero =>
      have hb : b = true := hbits 0
      have hclear : ∀ x ∈ bits, x = false := by
        intro x hx
        obtain ⟨k, hk, rfl⟩ := List.mem_iff_getElem.1 hx
        rw [← List.getD_eq_getElem bits false hk]
        exact hbits (k + 1)
      rw [List.foldl_cons, hb, foldl_feed_clear poly hclear, feed, shifts_shift]
      rfl
    | succ j =>
      have hb : b = false := hbits 0
      have htail : ∀ k, bits.getD k false = decide (k = j) := by
        intro k
        rw [← decide_eq_decide.2 (Nat.succ_inj : k + 1 = j + 1 ↔ k = j)]
        exact hbits (k + 1)
      rw [List.foldl_cons, hb, feed_false, ih (Nat.lt_of_succ_lt_succ hj) htail, shifts_shift, List.length_cons,
        Nat.add_sub_add_right]

/-- A message with two. -/
theorem foldl_feed_two {bits : List Bool} {i j : Nat} (hij : i < j) (hj : j < bits.length)
    (hbits : ∀ k, bits.getD k false = decide (k = i ∨ k = j)) :
    bits.foldl (feed poly) 0 =
      shifts poly (bits.length - j) (shifts poly (j - i) (place n [true]) ^^^ place n [true]) := by
  induction bits generalizing i j with
  | nil => exact absurd hj (Nat.not_lt_zero j)
  | cons b bits ih =>
    obtain ⟨j, rfl⟩ := Nat.exists_eq_add_of_lt (Nat.lt_of_le_of_lt (Nat.zero_le i) hij)
    rw [Nat.zero_add] at hij hj hbits ⊢
    cases i with
    | zero =>
      have hb : b = true := hbits 0
      have htail : ∀ k, bits.getD k false = decide (k = j) := by
        intro k
        have hk : k + 1 = 0 ∨ k + 1 = j + 1 ↔ k = j := by omega
        rw [← decide_eq_decide.2 hk]
        exact hbits (k + 1)
      rw [List.foldl_cons, hb, foldl_feed_one (Nat.lt_of_succ_lt_succ hj) htail, feed, shifts_shift, List.length_cons,
        Nat.add_sub_add_right, BitVec.ofNat_eq_ofNat, BitVec.zero_xor]
      rfl
    | succ i =>
      have hb : b = false := (hbits 0).trans (decide_eq_false (by omega))
      have htail : ∀ k, bits.getD k false = decide (k = i ∨ k = j) := by
        intro k
        have hk : k + 1 = i + 1 ∨ k + 1 = j + 1 ↔ k = i ∨ k = j := by omega
        rw [← decide_eq_decide.2 hk]
        exact hbits (k + 1)
      have hzero : feed poly 0 false = 0 := (feed_false poly 0).trans (shifts_zero poly 1)
      rw [List.foldl_cons, hb, hzero, ih (Nat.lt_of_succ_lt_succ hij) (Nat.lt_of_succ_lt_succ hj) htail,
        List.length_cons, Nat.add_sub_add_right, Nat.add_sub_add_right]

/-- Two bits are lost exactly if the register is back after their distance. -/
theorem foldl_feed_two_iff (hpoly : poly.getLsbD 0 = true) {bits : List Bool} {i j : Nat} (hij : i < j)
    (hj : j < bits.length) (hbits : ∀ k, bits.getD k false = decide (k = i ∨ k = j)) :
    bits.foldl (feed poly) 0 = 0 ↔ IsPeriodicPt (shift poly) (j - i) (place n [true]) := by
  rw [foldl_feed_two hij hj hbits, IsPeriodicPt, IsFixedPt, ← shifts_eq_iterate]
  constructor
  · intro hzero
    by_contra hne
    exact shifts_ne_zero hpoly (fun hx => hne (BitVec.xor_eq_zero_iff.1 hx)) _ hzero
  · intro heq
    rw [heq, BitVec.xor_self]
    exact shifts_zero poly _

/-- The least period is found by its prime divisors. -/
theorem isPeriodicPt_iff_dvd {α : Type} {f : α → α} {x : α} {d : Nat} (hd : IsPeriodicPt f d x)
    (hprime : ∀ p, p.Prime → p ∣ d → ¬ IsPeriodicPt f (d / p) x) (k : Nat) : IsPeriodicPt f k x ↔ d ∣ k := by
  have hmin : minimalPeriod f x = d := by
    obtain ⟨e, he⟩ := hd.minimalPeriod_dvd
    by_cases hone : e = 1
    · rw [he, hone, Nat.mul_one]
    · obtain ⟨p, hp, q, hq⟩ := Nat.exists_prime_and_dvd hone
      have hdiv : d / p = minimalPeriod f x * q := by
        rw [he, hq, Nat.mul_left_comm, Nat.mul_div_cancel_left _ hp.pos]
      refine absurd ?_ (hprime p hp ⟨minimalPeriod f x * q, by rw [he, hq, Nat.mul_left_comm]⟩)
      rw [hdiv]
      exact (isPeriodicPt_minimalPeriod f x).mul_const q
  rw [isPeriodicPt_iff_minimalPeriod_dvd, hmin]

/-! ## Periods computed -/

/-- `shifts` on numbers. The match makes each round have its number before the next. -/
def shiftsNat (n poly : Nat) : Nat → Nat → Nat
  | 0, c => c
  | _ + 1, 0 => 0
  | k + 1, c + 1 => shiftsNat n poly k (if 2 ^ n ≤ 2 * (c + 1) then (2 * (c + 1) - 2 ^ n) ^^^ poly else 2 * (c + 1))

theorem toNat_shift (poly c : BitVec n) :
    (shift poly c).toNat = if 2 ^ n ≤ 2 * c.toNat then (2 * c.toNat - 2 ^ n) ^^^ poly.toNat else 2 * c.toNat := by
  have hlt := c.isLt
  have hup : (c <<< 1).toNat = 2 * c.toNat % 2 ^ n := by
    rw [BitVec.toNat_shiftLeft, Nat.shiftLeft_eq, Nat.mul_comm]
  unfold shift
  cases hmsb : c.msb with
  | true =>
    have hge := BitVec.msb_eq_true_iff_two_mul_ge.1 hmsb
    rw [if_pos rfl, if_pos hge, BitVec.toNat_xor, hup, Nat.mod_eq_sub_mod hge, Nat.mod_eq_of_lt (by omega)]
  | false =>
    have hless := BitVec.msb_eq_false_iff_two_mul_lt.1 hmsb
    rw [if_neg Bool.false_ne_true, if_neg (Nat.not_le.2 hless), hup, Nat.mod_eq_of_lt hless]

theorem toNat_shifts (poly : BitVec n) (k : Nat) (c : BitVec n) :
    (shifts poly k c).toNat = shiftsNat n poly.toNat k c.toNat := by
  induction k generalizing c with
  | zero => rfl
  | succ k ih =>
    rw [← shifts_shift, ih, toNat_shift]
    cases hc : c.toNat with
    | zero =>
      have hzero : ¬ 2 ^ n ≤ 2 * 0 := Nat.not_le.2 (Nat.two_pow_pos n)
      have hstay : shiftsNat n poly.toNat k 0 = 0 := by cases k <;> rfl
      rw [if_neg hzero]
      exact hstay
    | succ c => rfl

/-- A test that can be computed. -/
theorem isPeriodicPt_iff (poly c : BitVec n) (k : Nat) :
    IsPeriodicPt (shift poly) k c ↔ shiftsNat n poly.toNat k c.toNat = c.toNat := by
  rw [IsPeriodicPt, IsFixedPt, ← shifts_eq_iterate, ← toNat_shifts, BitVec.toNat_inj]

end StreamLib.Crc
