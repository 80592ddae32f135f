import Mathlib.Algebra.Field.Rat
import Mathlib.Algebra.Order.Ring.Rat
import Mathlib.Data.List.Induction
import CmdAgent.StreamLib.Moments
/-!
# `misc.c`: statistics

The arithmetic is that of rational numbers, where the source has `double`. The iterative
functions divide by the counter before they increment it, so from the second sample on
they weigh the samples as if the first had not been.
-/
open StreamLib.Moments

namespace CmdAgent

/-- `struct l0001_iterative_variance`; the `int` of the counter has no bound here. -/
structure L0001IterativeVariance where
  squareDistanceSum : ℚ
  expectation : ℚ
  squareVariance : ℚ
  n : Int
  deriving DecidableEq

def l0001SquareVarianceIterative (data : ℚ) (itvar : L0001IterativeVariance) (iterativeMax : Int) :
    ℚ × L0001IterativeVariance :=
  let itvar :=
    if itvar.n = 0 then { itvar with expectation := data, squareDistanceSum := 0, squareVariance := 0 }
    else
      let expN1 := itvar.expectation
      let expectation := ((itvar.n - 1 : Int) * expN1 + data) / itvar.n
      let squareDistanceSum := itvar.squareDistanceSum + (data - expectation) * (data - expN1)
      { itvar with
        expectation := expectation
        squareDistanceSum := squareDistanceSum
        squareVariance := squareDistanceSum / itvar.n }
  let n := itvar.n + 1
  (itvar.squareVariance, { itvar with n := if n > iterativeMax then 0 else n })

def l0001MeanIterative (data : ℚ) (itvar : L0001IterativeVariance) (iterativeMax : Int) :
    ℚ × L0001IterativeVariance :=
  let expectation :=
    if itvar.n = 0 then data
    else
      let expN1 := itvar.expectation
      ((itvar.n - 1 : Int) * expN1 + data) / itvar.n
  let n := itvar.n + 1
  (expectation, { itvar with expectation := expectation, n := if n > iterativeMax then 0 else n })

/-- What `stddevi` takes the square root of. -/
def stddeviSquare (data : List ℚ) : ℚ :=
  let avg := data.foldl (fun sum x => sum + x) (0 : ℚ) / data.length
  data.foldl (fun sum x => let diff := x - avg; sum + diff * diff) (0 : ℚ) / data.length

/-- What the last call returns and what the calls leave, one for each sample. -/
def fed (iterative : ℚ → L0001IterativeVariance → Int → ℚ × L0001IterativeVariance) (iterativeMax : Int)
    (itvar : L0001IterativeVariance) (samples : List ℚ) : ℚ × L0001IterativeVariance :=
  samples.foldl (fun r data => iterative data r.2 iterativeMax) (0, itvar)

/-! ## Batch -/

/-- A loop that sums up `f`. -/
theorem foldl_add_map (f : ℚ → ℚ) (data : List ℚ) : data.foldl (fun sum x => sum + f x) 0 = (data.map f).sum := by
  rw [List.sum_eq_foldl, List.foldl_map]

/-- `stddevi` computes the mean squared deviation. -/
theorem stddeviSquare_eq (data : List ℚ) : stddeviSquare data = deviation data / data.length := by
  have hsum := foldl_add_map (fun x => x) data
  have hsquares := foldl_add_map (fun x => (x - mean data) * (x - mean data)) data
  rw [List.map_id'] at hsum
  rw [stddeviSquare, hsum, deviation, squares, ← hsquares]
  rfl

/-! ## One call -/

variable {itvar : L0001IterativeVariance} {iterativeMax : Int} {first data : ℚ} {rest : List ℚ}

/-- The expectation leaves the first sample out: it is that of the rest. -/
structure Behind (itvar : L0001IterativeVariance) (rest : List ℚ) : Prop where
  n : itvar.n = rest.length + 1
  expectation : rest.length * itvar.expectation = rest.length * mean rest

/-- So does the sum of the squares. -/
structure BehindSquares (itvar : L0001IterativeVariance) (rest : List ℚ) : Prop extends Behind itvar rest where
  squares : itvar.squareDistanceSum = deviation rest

theorem Behind.next (h : Behind itvar rest) (data : ℚ) :
    ((itvar.n - 1 : Int) * itvar.expectation + data) / itvar.n = mean (rest ++ [data]) := by
  have hpos : (rest.length : ℚ) + 1 ≠ 0 := Nat.cast_add_one_ne_zero _
  rw [h.n, div_eq_iff (by push_cast; exact hpos)]
  push_cast
  linear_combination h.expectation - mean_concat rest data

theorem counter_next {k : Nat} (h : itvar.n = k) (hroom : (k : Int) + 1 ≤ iterativeMax) :
    (if itvar.n + 1 > iterativeMax then 0 else itvar.n + 1) = (k : Int) + 1 := by
  rw [h, if_neg (Int.not_lt.2 hroom)]

theorem Behind.n_ne (h : Behind itvar rest) : itvar.n ≠ 0 := by
  rw [h.n]
  omega

theorem meanIterative_first (h : itvar.n = 0) (data : ℚ) :
    (l0001MeanIterative data itvar iterativeMax).1 = data ∧
      (1 ≤ iterativeMax → Behind (l0001MeanIterative data itvar iterativeMax).2 []) := by
  refine ⟨by rw [l0001MeanIterative, if_pos h], ?_⟩
  intro hmax
  exact ⟨counter_next h hmax, by simp⟩

theorem meanIterative_next (h : Behind itvar rest) (data : ℚ) :
    (l0001MeanIterative data itvar iterativeMax).1 = mean (rest ++ [data]) ∧
      (rest.length + 2 ≤ iterativeMax →
        Behind (l0001MeanIterative data itvar iterativeMax).2 (rest ++ [data])) := by
  have hval : (l0001MeanIterative data itvar iterativeMax).1 = mean (rest ++ [data]) := by
    rw [← h.next, l0001MeanIterative, if_neg h.n_ne]
  refine ⟨hval, ?_⟩
  intro hroom
  refine ⟨?_, congrArg _ hval⟩
  rw [List.length_append, List.length_singleton]
  exact counter_next h.n (by push_cast; omega)

theorem squareVarianceIterative_first (h : itvar.n = 0) (data : ℚ) :
    (l0001SquareVarianceIterative data itvar iterativeMax).1 = 0 ∧
      (1 ≤ iterativeMax → BehindSquares (l0001SquareVarianceIterative data itvar iterativeMax).2 []) := by
  simp only [l0001SquareVarianceIterative, if_pos h]
  refine ⟨trivial, ?_⟩
  intro hmax
  exact ⟨⟨counter_next h hmax, by simp⟩, rfl⟩

/-- The product is that of the mean with the new sample and the mean without. -/
theorem BehindSquares.next (h : BehindSquares itvar rest) (data : ℚ) :
    itvar.squareDistanceSum + (data - mean (rest ++ [data])) * (data - itvar.expectation) =
      deviation (rest ++ [data]) := by
  rw [h.squares, deviation_concat]
  cases rest with
  | nil =>
    -- The first mean is the sample itself.
    simp [mean]
  | cons x rest =>
    have hlen : ((x :: rest).length : ℚ) ≠ 0 := Nat.cast_ne_zero.2 (Nat.succ_ne_zero _)
    rw [mul_left_cancel₀ hlen h.expectation]

theorem squareVarianceIterative_next (h : BehindSquares itvar rest) (data : ℚ) :
    (l0001SquareVarianceIterative data itvar iterativeMax).1 =
        deviation (rest ++ [data]) / (rest ++ [data]).length ∧
      (rest.length + 2 ≤ iterativeMax →
        BehindSquares (l0001SquareVarianceIterative data itvar iterativeMax).2 (rest ++ [data])) := by
  have hlen : (itvar.n : ℚ) = (rest ++ [data]).length := by
    rw [h.n, List.length_append, List.length_singleton]
    push_cast
    rfl
  have hmean := h.toBehind.next data
  rw [hlen] at hmean
  simp only [l0001SquareVarianceIterative, if_neg h.n_ne, hlen, hmean, h.next]
  refine ⟨trivial, ?_⟩
  intro hroom
  refine ⟨⟨?_, rfl⟩, rfl⟩
  rw [List.length_append, List.length_singleton]
  exact counter_next h.n (by push_cast; omega)

/-! ## A run of calls -/

section
variable {iterative : ℚ → L0001IterativeVariance → Int → ℚ × L0001IterativeVariance}

theorem fed_concat (samples : List ℚ) (data : ℚ) :
    fed iterative iterativeMax itvar (samples ++ [data]) =
      iterative data (fed iterative iterativeMax itvar samples).2 iterativeMax := by
  rw [fed, List.foldl_append]
  rfl

/-- What the first call establishes and each further one keeps, as long as the counter
does not start again. -/
theorem fed_keeps {Keeps : L0001IterativeVariance → List ℚ → Prop}
    (hfirst : 1 ≤ iterativeMax → Keeps (iterative first itvar iterativeMax).2 [])
    (hnext : ∀ itvar rest data, Keeps itvar rest → rest.length + 2 ≤ iterativeMax →
      Keeps (iterative data itvar iterativeMax).2 (rest ++ [data])) (hlen : rest.length + 1 ≤ iterativeMax) :
    Keeps (fed iterative iterativeMax itvar (first :: rest)).2 rest := by
  induction rest using List.reverseRecOn with
  | nil => exact hfirst (by simpa using hlen)
  | append_singleton rest data ih =>
    rw [List.length_append, List.length_singleton] at hlen
    rw [← List.cons_append, fed_concat]
    exact hnext _ rest data (ih (by push_cast at hlen; omega)) (by push_cast at hlen; omega)

/-- The last of two or more calls. -/
theorem fed_last {Keeps : L0001IterativeVariance → List ℚ → Prop}
    (hfirst : 1 ≤ iterativeMax → Keeps (iterative first itvar iterativeMax).2 [])
    (hnext : ∀ itvar rest data, Keeps itvar rest → rest.length + 2 ≤ iterativeMax →
      Keeps (iterative data itvar iterativeMax).2 (rest ++ [data])) (hlen : (rest ++ [data]).length ≤ iterativeMax) :
    ∃ before, Keeps before rest ∧
      fed iterative iterativeMax itvar (first :: (rest ++ [data])) = iterative data before iterativeMax := by
  rw [List.length_append, List.length_singleton] at hlen
  refine ⟨_, fed_keeps hfirst hnext (by push_cast at hlen; exact hlen), ?_⟩
  rw [← List.cons_append, fed_concat]

end

/-- The mean without the first sample. -/
theorem fed_mean (h : itvar.n = 0) (hlen : rest.length ≤ iterativeMax) :
    (fed l0001MeanIterative iterativeMax itvar (first :: rest)).1 = if rest = [] then first else mean rest := by
  rcases List.eq_nil_or_concat' rest with rfl | ⟨rest, data, rfl⟩
  · rw [if_pos rfl]
    exact (meanIterative_first h first).1
  · obtain ⟨before, hbehind, hlast⟩ :=
      fed_last (meanIterative_first h first).2 (fun _ _ data h => (meanIterative_next h data).2) hlen
    rw [if_neg (by simp), hlast]
    exact (meanIterative_next hbehind data).1

/-- The mean squared deviation without the first sample. -/
theorem fed_squareVariance (h : itvar.n = 0) (hlen : rest.length ≤ iterativeMax) :
    (fed l0001SquareVarianceIterative iterativeMax itvar (first :: rest)).1 = deviation rest / rest.length := by
  rcases List.eq_nil_or_concat' rest with rfl | ⟨rest, data, rfl⟩
  · rw [List.length_nil, Nat.cast_zero, div_zero]
    exact (squareVarianceIterative_first h first).1
  · obtain ⟨before, hbehind, hlast⟩ :=
      fed_last (squareVarianceIterative_first h first).2 (fun _ _ data h => (squareVarianceIterative_next h data).2) hlen
    rw [hlast]
    exact (squareVarianceIterative_next hbehind data).1

/-! ## Against the batch -/

theorem mean_behind_iff (first : ℚ) (rest : List ℚ) :
    (if rest = [] then first else mean rest) = mean (first :: rest) ↔ rest = [] ∨ first = mean rest := by
  have hmean := mean_cons first rest
  have hpos : (rest.length : ℚ) + 1 ≠ 0 := Nat.cast_add_one_ne_zero _
  by_cases hrest : rest = []
  · rw [if_pos hrest]
    exact iff_of_true (by simp [hrest, mean]) (.inl hrest)
  · rw [if_neg hrest, or_iff_right hrest]
    constructor
    · intro heq
      rw [← heq] at hmean
      linear_combination -hmean
    · intro heq
      apply mul_left_cancel₀ hpos
      rw [hmean, heq]
      ring

theorem squares_behind_iff (first : ℚ) (rest : List ℚ) :
    deviation rest / rest.length = deviation (first :: rest) / (first :: rest).length ↔
      (rest.length + 1) * deviation rest = rest.length * rest.length * ((first - mean rest) * (first - mean rest)) := by
  have hmean := mean_cons first rest
  have hpos : (rest.length : ℚ) + 1 ≠ 0 := Nat.cast_add_one_ne_zero _
  have hgrown : (rest.length + 1) * deviation (first :: rest) =
      (rest.length + 1) * deviation rest + rest.length * ((first - mean rest) * (first - mean rest)) := by
    rw [deviation_cons]
    linear_combination (mean rest - first) * hmean
  rw [List.length_cons, Nat.cast_succ]
  cases rest with
  | nil =>
    simp [deviation, squares, mean]
  | cons x rest =>
    have hlen : ((x :: rest).length : ℚ) ≠ 0 := Nat.cast_ne_zero.2 (Nat.succ_ne_zero _)
    rw [div_eq_div_iff hlen hpos, ← mul_right_inj' hpos]
    constructor
    · intro heq
      linear_combination heq + ((x :: rest).length : ℚ) * hgrown
    · intro heq
      linear_combination heq - ((x :: rest).length : ℚ) * hgrown

theorem equal_iff (first : ℚ) (rest : List ℚ) :
    ((rest = [] ∨ first = mean rest) ∧ (rest.length + 1) * deviation rest =
        rest.length * rest.length * ((first - mean rest) * (first - mean rest))) ↔ ∀ x ∈ rest, x = first := by
  constructor
  · rintro ⟨rfl | hfirst, hsquares⟩
    · simp
    · have hpos : (rest.length : ℚ) + 1 ≠ 0 := Nat.cast_add_one_ne_zero _
      rw [hfirst, sub_self, mul_zero, mul_zero, mul_eq_zero, or_iff_right hpos] at hsquares
      rw [hfirst]
      exact (squares_eq_zero_iff _ rest).1 hsquares
  · intro hall
    by_cases hrest : rest = []
    · subst hrest
      exact ⟨.inl rfl, by simp [deviation, squares]⟩
    · have hmean := mean_of_all hall hrest
      have hsquares : deviation rest = 0 := (squares_eq_zero_iff _ rest).2 (hmean.symm ▸ hall)
      exact ⟨.inr hmean.symm, by rw [hmean, hsquares, sub_self]; ring⟩

/-- When each of the two agrees with the batch, and when both do: for equal samples. -/
theorem statistics_agree_iff (meanVar squareVar : L0001IterativeVariance) (hmean : meanVar.n = 0)
    (hsquare : squareVar.n = 0) (iterativeMax : Int) (first : ℚ) (rest : List ℚ)
    (hlen : (first :: rest).length ≤ iterativeMax + 1) :
    ((fed l0001MeanIterative iterativeMax meanVar (first :: rest)).1 = mean (first :: rest) ↔
        rest = [] ∨ first = mean rest) ∧
      ((fed l0001SquareVarianceIterative iterativeMax squareVar (first :: rest)).1 = stddeviSquare (first :: rest) ↔
        (rest.length + 1) * deviation rest =
          rest.length * rest.length * ((first - mean rest) * (first - mean rest))) ∧
      ((fed l0001MeanIterative iterativeMax meanVar (first :: rest)).1 = mean (first :: rest) ∧
          (fed l0001SquareVarianceIterative iterativeMax squareVar (first :: rest)).1 = stddeviSquare (first :: rest) ↔
        ∀ x ∈ rest, x = first) := by
  have hroom : rest.length ≤ iterativeMax := by
    rw [List.length_cons] at hlen
    omega
  rw [fed_mean hmean hroom, fed_squareVariance hsquare hroom, stddeviSquare_eq, ← equal_iff, mean_behind_iff,
    squares_behind_iff]
  exact ⟨Iff.rfl, Iff.rfl, Iff.rfl⟩

/-- A fresh `struct l0001_iterative_variance`. -/
def freshVariance : L0001IterativeVariance := ⟨0, 0, 0, 0⟩

theorem statistics_agree_equal :
    (fed l0001MeanIterative 2 freshVariance [4, 4, 4]).1 = mean [4, 4, 4] ∧
      (fed l0001SquareVarianceIterative 2 freshVariance [4, 4, 4]).1 = stddeviSquare [4, 4, 4] :=
  (statistics_agree_iff freshVariance freshVariance rfl rfl 2 4 [4, 4] (by decide)).2.2.2 (by decide)

/-- They return 4 and 0: the second sample takes the place of the first. -/
theorem statistics_disagree :
    (fed l0001MeanIterative 2 freshVariance [0, 4]).1 ≠ mean [0, 4] ∧
      (fed l0001SquareVarianceIterative 2 freshVariance [0, 4]).1 ≠ stddeviSquare [0, 4] := by
  decide +kernel

end CmdAgent
