import Mathlib.Data.BitVec
import Mathlib.Data.List.GetD
/-!
# Cyclic redundancy checks

The register of a bitwise check and the table that moves it several places at once.
Everything is linear in exclusive or, so a checksum of a damaged message differs from
that of the message by the checksum of the damage, and damage that fits in the register
has a checksum.
-/

namespace StreamLib.Crc

/-! ## Folds -/

/-- A fold over a damaged message, where one step is linear. -/
theorem foldl_xor {σ β : Type} [XorOp σ] [XorOp β] {step : σ → β → σ}
    (hstep : ∀ s t b c, step (s ^^^ t) (b ^^^ c) = step s b ^^^ step t c) {xs ys : List β}
    (hlen : xs.length = ys.length) :
    ∀ s t, (List.zipWith (· ^^^ ·) xs ys).foldl step (s ^^^ t) = xs.foldl step s ^^^ ys.foldl step t := by
  induction xs generalizing ys with
  | nil =>
    intro s t
    rw [List.eq_nil_of_length_eq_zero hlen.symm]
    rfl
  | cons x xs ih =>
    intro s t
    cases ys with
    | nil => cases hlen
    | cons y ys =>
      rw [List.zipWith_cons_cons, List.foldl_cons, hstep, ih (Nat.succ.inj hlen)]
      rfl

variable {n : Nat}

/-! ## The register -/

/-- One place of the register. -/
def shift (poly c : BitVec n) : BitVec n := if c.msb then c <<< 1 ^^^ poly else c <<< 1

def shifts (poly : BitVec n) : Nat → BitVec n → BitVec n
  | 0, c => c
  | k + 1, c => shift poly (shifts poly k c)

theorem shift_xor (poly a b : BitVec n) : shift poly (a ^^^ b) = shift poly a ^^^ shift poly b := by
  unfold shift
  rw [BitVec.msb_xor, BitVec.shiftLeft_xor_distrib]
  cases a.msb with
  | false =>
    cases b.msb with
    | false => rfl
    | true => exact BitVec.xor_assoc _ _ _
  | true =>
    cases b.msb with
    | false =>
      change (a <<< 1 ^^^ b <<< 1) ^^^ poly = (a <<< 1 ^^^ poly) ^^^ b <<< 1
      rw [BitVec.xor_assoc, BitVec.xor_comm (b <<< 1), ← BitVec.xor_assoc]
    | true =>
      change a <<< 1 ^^^ b <<< 1 = (a <<< 1 ^^^ poly) ^^^ (b <<< 1 ^^^ poly)
      rw [BitVec.xor_comm (b <<< 1), BitVec.xor_assoc, ← BitVec.xor_assoc poly, BitVec.xor_self, BitVec.zero_xor]

theorem shifts_xor (poly : BitVec n) (k : Nat) (a b : BitVec n) :
    shifts poly k (a ^^^ b) = shifts poly k a ^^^ shifts poly k b := by
  induction k with
  | zero => rfl
  | succ k ih => rw [shifts, ih, shift_xor, shifts, shifts]

/-- Where the top places are clear, nothing is fed back. -/
theorem shifts_clear (poly : BitVec n) {c : BitVec n} {k : Nat} (hk : k ≤ n)
    (h : ∀ i, n - k ≤ i → c.getLsbD i = false) : shifts poly k c = c <<< k := by
  induction k with
  | zero => exact (BitVec.shiftLeft_zero c).symm
  | succ k ih =>
    have hmsb : (c <<< k).msb = false := by
      rw [BitVec.msb_eq_getLsbD_last, BitVec.getLsbD_shiftLeft, h (n - 1 - k) (by omega)]
      simp
    rw [shifts, ih (by omega) fun i hi => h i (by omega), shift, hmsb, BitVec.shiftLeft_add]
    rfl

/-! ## The table -/

/-- The table is asked for the top places; the others move up. -/
theorem shifts_top (poly c : BitVec n) {k : Nat} (hk : k ≤ n) :
    shifts poly k c = shifts poly k ((c >>> (n - k)) <<< (n - k)) ^^^ c <<< k := by
  have hsplit : c = ((c >>> (n - k)) <<< (n - k)) ^^^ (c ^^^ (c >>> (n - k)) <<< (n - k)) := by
    rw [BitVec.xor_comm c, ← BitVec.xor_assoc, BitVec.xor_self, BitVec.zero_xor]
  have hbit : ∀ i, ((c >>> (n - k)) <<< (n - k)).getLsbD i = (decide (n - k ≤ i) && c.getLsbD i) := by
    intro i
    simp only [BitVec.getLsbD_shiftLeft, BitVec.getLsbD_ushiftRight]
    by_cases hi : n - k ≤ i
    · rw [Nat.add_sub_cancel' hi]
      by_cases hn : i < n
      · simp [hi, hn]
      · simp [hn, BitVec.getLsbD_of_ge c i (Nat.not_lt.1 hn)]
    · simp [hi]
  have hzero : ((c >>> (n - k)) <<< (n - k)) <<< k = 0 := by
    rw [← BitVec.shiftLeft_add, Nat.sub_add_cancel hk]
    exact BitVec.shiftLeft_eq_zero (Nat.le_refl n)
  have hlow : shifts poly k (c ^^^ (c >>> (n - k)) <<< (n - k)) = c <<< k := by
    rw [shifts_clear poly hk, BitVec.shiftLeft_xor_distrib, hzero]
    · exact BitVec.xor_zero
    · intro i hi
      rw [BitVec.getLsbD_xor, hbit, decide_eq_true hi, Bool.true_and, Bool.xor_self]
  conv_lhs => rw [hsplit, shifts_xor, hlow]

/-! ## Parity -/

/-- Whether an odd number of the bits under `k` are set. -/
def parityBelow (c : BitVec n) : Nat → Bool
  | 0 => false
  | k + 1 => parityBelow c k ^^ c.getLsbD k

def parity (c : BitVec n) : Bool := parityBelow c n

theorem parityBelow_xor (a b : BitVec n) (k : Nat) :
    parityBelow (a ^^^ b) k = (parityBelow a k ^^ parityBelow b k) := by
  induction k with
  | zero => rfl
  | succ k ih =>
    rw [parityBelow, parityBelow, parityBelow, ih, BitVec.getLsbD_xor]
    cases parityBelow a k <;> cases parityBelow b k <;> simp

theorem parity_xor (a b : BitVec n) : parity (a ^^^ b) = (parity a ^^ parity b) := parityBelow_xor a b n

theorem parity_zero : parity (0 : BitVec n) = false := by
  have h := parity_xor (0 : BitVec n) 0
  rw [BitVec.xor_self, Bool.xor_self] at h
  exact h

/-! ## Messages of bits -/

/-- Bits at the top places, the first one highest. -/
def place (n : Nat) (bits : List Bool) : BitVec n := (BitVec.ofBoolListBE bits).setWidth n <<< (n - bits.length)

/-- A bit of the message enters at the top. -/
def feed (poly c : BitVec n) (b : Bool) : BitVec n := shift poly (c ^^^ place n [b])

theorem getMsbD_place {bits : List Bool} (h : bits.length ≤ n) (i : Nat) :
    (place n bits).getMsbD i = bits.getD i false := by
  rw [place, BitVec.getMsbD_shiftLeft, BitVec.getMsbD_setWidth, BitVec.getMsbD_ofBoolListBE,
    decide_eq_true (by omega), Bool.true_and, show i + (n - bits.length) + bits.length - n = i by omega]

theorem place_nil : place n [] = 0 := by
  apply BitVec.eq_of_getMsbD_eq
  intro i _
  rw [getMsbD_place (Nat.zero_le n)]
  simp

/-- The bit in front, and the others one place lower. -/
theorem place_cons {b : Bool} {bits : List Bool} (h : bits.length < n) :
    place n (b :: bits) = place n [b] ^^^ place n bits >>> 1 := by
  apply BitVec.eq_of_getMsbD_eq
  intro i hi
  rw [BitVec.getMsbD_xor, BitVec.getMsbD_ushiftRight, getMsbD_place (show (b :: bits).length ≤ n from h),
    getMsbD_place (show [b].length ≤ n from Nat.one_le_of_lt h), getMsbD_place (Nat.le_of_lt h)]
  cases i with
  | zero => simp
  | succ i => simp [hi]

theorem shift_ushiftRight (poly : BitVec n) {c : BitVec n} (h : c.getLsbD 0 = false) : shift poly (c >>> 1) = c := by
  have hmsb : (c >>> 1).msb = false := by simp [BitVec.msb_ushiftRight]
  rw [shift, hmsb]
  apply BitVec.eq_of_getLsbD_eq
  intro i hi
  cases i with
  | zero => simp [h]
  | succ i => simp [hi, Nat.add_comm]

theorem shifts_shift (poly c : BitVec n) (k : Nat) : shifts poly k (shift poly c) = shifts poly (k + 1) c := by
  induction k with
  | zero => rfl
  | succ k ih => rw [shifts, ih, shifts, shifts, shifts]

/-- A message that fits in the register is moved through it whole. -/
theorem foldl_feed (poly : BitVec n) {bits : List Bool} (h : bits.length ≤ n) (c : BitVec n) :
    bits.foldl (feed poly) c = shifts poly bits.length (c ^^^ place n bits) := by
  induction bits generalizing c with
  | nil =>
    rw [place_nil]
    exact BitVec.xor_zero.symm
  | cons b bits ih =>
    have hlow : (place n bits).getLsbD 0 = false := by
      rw [BitVec.getLsbD_eq_getMsbD, Nat.sub_zero, getMsbD_place (Nat.le_of_lt h),
        List.getD_eq_default _ _ (Nat.le_sub_one_of_lt h), Bool.and_false]
    have hmove : feed poly c b ^^^ place n bits = shift poly (c ^^^ place n (b :: bits)) := by
      rw [feed, place_cons h, ← BitVec.xor_assoc, shift_xor poly (c ^^^ place n [b]), shift_ushiftRight poly hlow]
    rw [List.foldl_cons, ih (Nat.le_of_lt h), hmove, shifts_shift, List.length_cons]

/-- Clear bits only move the register. -/
theorem foldl_feed_clear (poly : BitVec n) {bits : List Bool} (h : ∀ b ∈ bits, b = false) (c : BitVec n) :
    bits.foldl (feed poly) c = shifts poly bits.length c := by
  induction bits generalizing c with
  | nil => rfl
  | cons b bits ih =>
    have hzero : place n [false] = 0 := by simp [place, BitVec.ofBoolListBE]
    rw [List.foldl_cons, ih (fun b hb => h b (List.mem_cons_of_mem _ hb)), h b List.mem_cons_self, feed, hzero,
      BitVec.ofNat_eq_ofNat, BitVec.xor_zero, shifts_shift, List.length_cons]

/-! ## Bursts -/

/-- With a constant term, the bit that leaves at the top shows at the bottom. -/
theorem shift_ne_zero {poly c : BitVec n} (hpoly : poly.getLsbD 0 = true) (h : c ≠ 0) : shift poly c ≠ 0 := by
  intro hzero
  unfold shift at hzero
  cases hmsb : c.msb with
  | true =>
    rw [hmsb, if_pos rfl] at hzero
    have hlow : (c <<< 1 ^^^ poly).getLsbD 0 = true := by
      rw [BitVec.getLsbD_xor, hpoly]
      simp
    rw [hzero] at hlow
    simp at hlow
  | false =>
    rw [hmsb, if_neg Bool.false_ne_true] at hzero
    apply h
    apply BitVec.eq_of_getMsbD_eq
    intro i hi
    cases i with
    | zero =>
      rw [← BitVec.msb_eq_getMsbD_zero, hmsb]
      exact BitVec.getMsbD_zero.symm
    | succ i =>
      have hbit := congrArg (BitVec.getMsbD · i) hzero
      simpa using hbit

theorem shifts_ne_zero {poly c : BitVec n} (hpoly : poly.getLsbD 0 = true) (h : c ≠ 0) (k : Nat) :
    shifts poly k c ≠ 0 := by
  induction k with
  | zero => exact h
  | succ k ih => exact shift_ne_zero hpoly ih

theorem shifts_zero (poly : BitVec n) (k : Nat) : shifts poly k 0 = 0 := by
  have h := shifts_xor poly k 0 0
  rwa [BitVec.xor_self, BitVec.xor_self] at h

/-- Damage that is no longer than the register is never lost. -/
theorem burst_ne_zero {poly : BitVec n} (hpoly : poly.getLsbD 0 = true) {bits : List Bool} {start i : Nat}
    (hout : ∀ i, i < start ∨ start + n ≤ i → bits.getD i false = false) (hset : bits.getD i false = true) :
    bits.foldl (feed poly) 0 ≠ 0 := by
  have hsplit : bits = bits.take start ++ ((bits.drop start).take n ++ (bits.drop start).drop n) := by
    rw [List.take_append_drop, List.take_append_drop]
  have hfront : ∀ b ∈ bits.take start, b = false := by
    intro b hb
    obtain ⟨k, hk, rfl⟩ := List.mem_iff_getElem.1 hb
    rw [List.length_take] at hk
    rw [List.getElem_take, ← List.getD_eq_getElem bits false (by omega)]
    exact hout k (.inl (by omega))
  have hback : ∀ b ∈ (bits.drop start).drop n, b = false := by
    intro b hb
    obtain ⟨k, hk, rfl⟩ := List.mem_iff_getElem.1 hb
    rw [List.length_drop, List.length_drop] at hk
    rw [List.getElem_drop, List.getElem_drop, ← List.getD_eq_getElem bits false (by omega)]
    exact hout _ (.inr (by omega))
  have hwindow : place n ((bits.drop start).take n) ≠ 0 := by
    intro hzero
    have hin : start ≤ i ∧ i < start + n := by
      by_contra hcon
      have hclear := hout i (by omega)
      rw [hset] at hclear
      cases hclear
    have hbit := getMsbD_place (List.length_take_le n (bits.drop start)) (i - start)
    rw [hzero, List.getD_eq_getElem?_getD, List.getElem?_take_of_lt (by omega), List.getElem?_drop,
      Nat.add_sub_cancel' hin.1, ← List.getD_eq_getElem?_getD, hset] at hbit
    simp at hbit
  rw [hsplit, List.foldl_append, List.foldl_append, foldl_feed_clear poly hfront, shifts_zero,
    foldl_feed poly (List.length_take_le _ _), foldl_feed_clear poly hback, BitVec.ofNat_eq_ofNat, BitVec.zero_xor]
  exact shifts_ne_zero hpoly (shifts_ne_zero hpoly hwindow _) _

/-! ## Messages of words -/

variable {w : Nat}

/-- The bits of a word, the highest first. -/
def msbs (x : BitVec w) : List Bool := (List.range w).map x.getMsbD

/-- A word of the message enters at the top and moves the register by its width. -/
def feedWord (poly c : BitVec n) (x : BitVec w) : BitVec n := shifts poly w (c ^^^ x.setWidth n <<< (n - w))

@[simp] theorem length_msbs (x : BitVec w) : (msbs x).length = w := by simp [msbs]

@[simp] theorem getD_msbs (x : BitVec w) (i : Nat) : (msbs x).getD i false = x.getMsbD i := by
  by_cases hi : i < w
  · rw [List.getD_eq_getElem _ _ (by simpa using hi)]
    simp [msbs]
  · rw [List.getD_eq_default _ _ (by simpa using hi), BitVec.getMsbD_of_ge x i (Nat.not_lt.1 hi)]

/-- For a word that fits in the register that is bit by bit. -/
theorem foldl_feed_msbs (poly : BitVec n) (h : w ≤ n) (c : BitVec n) (x : BitVec w) :
    (msbs x).foldl (feed poly) c = feedWord poly c x := by
  have hlen : (msbs x).length ≤ n := by simpa using h
  have hplace : place n (msbs x) = x.setWidth n <<< (n - w) := by
    apply BitVec.eq_of_getMsbD_eq
    intro i _
    rw [getMsbD_place hlen, getD_msbs, BitVec.getMsbD_shiftLeft, BitVec.getMsbD_setWidth, decide_eq_true (by omega),
      Bool.true_and, show i + (n - w) + w - n = i by omega]
  rw [foldl_feed poly hlen, length_msbs, hplace, feedWord]

theorem getD_flatMap_msbs (hw : 0 < w) (words : List (BitVec w)) (i : Nat) :
    (words.flatMap msbs).getD i false = (words.getD (i / w) 0).getMsbD (i % w) := by
  induction words generalizing i with
  | nil => simp
  | cons x words ih =>
    rw [List.flatMap_cons]
    by_cases hi : i < w
    · rw [List.getD_append _ _ _ _ (by simpa using hi), getD_msbs, Nat.div_eq_of_lt hi, Nat.mod_eq_of_lt hi]
      rfl
    · have hle := Nat.not_lt.1 hi
      rw [List.getD_append_right _ _ _ _ (by simpa using hle), length_msbs, ih, Nat.mod_eq_sub_mod hle,
        Nat.div_eq_sub_div hw hle]
      rfl

/-- The same for a check that takes words. -/
theorem burst_words_ne_zero {poly : BitVec n} (hpoly : poly.getLsbD 0 = true) (hw : 0 < w) (h : w ≤ n)
    {words : List (BitVec w)} {start i : Nat}
    (hout : ∀ i, i < start ∨ start + n ≤ i → (words.getD (i / w) 0).getMsbD (i % w) = false)
    (hset : (words.getD (i / w) 0).getMsbD (i % w) = true) :
    words.foldl (feedWord poly) 0 ≠ 0 := by
  have hbits : (words.flatMap msbs).foldl (feed poly) 0 = words.foldl (feedWord poly) 0 := by
    rw [List.foldl_flatMap]
    simp only [foldl_feed_msbs poly h]
  have hclear : ∀ k, k < start ∨ start + n ≤ k → (words.flatMap msbs).getD k false = false := by
    intro k hk
    rw [getD_flatMap_msbs hw, hout k hk]
  rw [← hbits]
  exact burst_ne_zero hpoly hclear ((getD_flatMap_msbs hw words i).trans hset)

end StreamLib.Crc
