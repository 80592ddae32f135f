import Mathlib.Data.Nat.ModEq
import Mathlib.Logic.Relation
import Mathlib.Tactic.Common
/-!
# While loops

A loop body maps a state to `cont` (go round again) or `brk` (leave). `run`
executes it with a bound on the number of rounds; `Stops` says that some bound
is enough. The rules below are what a proof about a loop needs: an invariant
rule, and a termination rule for a measure that falls on every round.
-/

namespace StreamLib.Loop

/-- How one execution of a loop body ends. -/
inductive Outcome (σ : Type) where
  | brk (s : σ)
  | cont (s : σ)

variable {σ : Type}

def Outcome.state : Outcome σ → σ
  | .brk s => s
  | .cont s => s

/-- At most `n` rounds of `body`; `none` if they do not leave the loop. -/
def run (body : σ → Outcome σ) : Nat → σ → Option σ
  | 0, _ => none
  | n + 1, s => match body s with
    | .brk t => some t
    | .cont t => run body n t

/-- The loop is left after finitely many rounds. -/
def Stops (body : σ → Outcome σ) (s : σ) : Prop := ∃ n t, run body n s = some t

/-- `t` is the state at the head of some round of the loop entered at `s`. -/
abbrev Reaches (body : σ → Outcome σ) : σ → σ → Prop :=
  Relation.ReflTransGen (fun s t => body s = .cont t)

variable {body : σ → Outcome σ}

theorem run_brk {s t : σ} (n : Nat) (h : body s = .brk t) : run body (n + 1) s = some t := by
  simp [run, h]

theorem run_cont {s t : σ} (n : Nat) (h : body s = .cont t) : run body (n + 1) s = run body n t := by
  simp [run, h]

theorem run_mono {n : Nat} {s t : σ} (h : run body n s = some t) {m : Nat} (hm : n ≤ m) :
    run body m s = some t := by
  induction n generalizing s m with
  | zero => cases h
  | succ n ih =>
    obtain ⟨m, rfl⟩ := Nat.exists_eq_add_of_le' (Nat.lt_of_lt_of_le (Nat.succ_pos n) hm)
    cases hb : body s with
    | brk u => rw [run_brk _ hb] at h ⊢; exact h
    | cont u => rw [run_cont _ hb] at h ⊢; exact ih h (by omega)

/-- The states at the head of the rounds `run` executes. -/
def heads (body : σ → Outcome σ) : Nat → σ → List σ
  | 0, _ => []
  | n + 1, s => s :: match body s with
    | .brk _ => []
    | .cont t => heads body n t

theorem mem_heads {n : Nat} {s t u : σ} (h : run body n s = some t) (hu : Reaches body s u) : u ∈ heads body n s := by
  induction n generalizing s with
  | zero => cases h
  | succ n ih =>
    rcases Relation.ReflTransGen.cases_head hu with rfl | ⟨v, hv, hvu⟩
    · exact List.mem_cons_self
    · rw [run_cont _ hv] at h
      simp only [heads, hv]
      exact List.mem_cons_of_mem _ (ih h hvu)

/-- What holds at the rounds `run` executes holds at every round reached. -/
theorem reaches_of_heads {P : σ → Prop} {n : Nat} {s t : σ} (h : (run body n s).isSome) (hp : ∀ u ∈ heads body n s, P u)
    (ht : Reaches body s t) : P t := by
  obtain ⟨u, hu⟩ := Option.isSome_iff_exists.1 h
  exact hp t (mem_heads hu ht)

/-- The bound does not change the result. -/
theorem run_det {n m : Nat} {s t u : σ} (h : run body n s = some t) (h' : run body m s = some u) : t = u := by
  have ht := run_mono h (Nat.le_max_left n m)
  rw [run_mono h' (Nat.le_max_right n m)] at ht
  exact (Option.some.inj ht).symm

/-! ## Invariants -/

/-- What a round keeps holds at the head of every round. -/
theorem reaches_inv {I : σ → Prop} (hstep : ∀ s t, I s → body s = .cont t → I t) {s t : σ}
    (h : Reaches body s t) (hs : I s) : I t := by
  induction h with
  | refl => exact hs
  | tail _ hb ih => exact hstep _ _ ih hb

/-- A loop is left from a state at the head of one of its rounds. -/
theorem reaches_of_run {n : Nat} {s u : σ} (h : run body n s = some u) :
    ∃ t, Reaches body s t ∧ body t = .brk u := by
  induction n generalizing s with
  | zero => cases h
  | succ n ih =>
    cases hb : body s with
    | brk t =>
      rw [run_brk _ hb] at h
      cases h
      exact ⟨s, .refl, hb⟩
    | cont t =>
      rw [run_cont _ hb] at h
      obtain ⟨v, hv, hvb⟩ := ih h
      exact ⟨v, .head hb hv, hvb⟩

/-- The invariant rule. -/
theorem run_inv {I Q : σ → Prop} (hcont : ∀ s t, I s → body s = .cont t → I t)
    (hbrk : ∀ s t, I s → body s = .brk t → Q t) {n : Nat} {s t : σ} (hs : I s)
    (h : run body n s = some t) : Q t := by
  obtain ⟨u, hu, hb⟩ := reaches_of_run h
  exact hbrk u t (reaches_inv hcont hu hs) hb

/-! ## Termination -/

/-- With a measure `μ` that falls on every round, `μ s` rounds and one more are
enough. -/
theorem run_of_measure {I : σ → Prop} (μ : σ → Nat)
    (hstep : ∀ s t, I s → body s = .cont t → I t ∧ μ t < μ s) {s : σ} (hs : I s) :
    ∃ t, run body (μ s + 1) s = some t := by
  induction h : μ s using Nat.strongRecOn generalizing s with
  | _ n ih =>
    cases hb : body s with
    | brk t => exact ⟨t, run_brk _ hb⟩
    | cont t =>
      obtain ⟨ht, hlt⟩ := hstep s t hs hb
      obtain ⟨u, hu⟩ := ih (μ t) (h ▸ hlt) ht rfl
      exact ⟨u, (run_cont n hb).trans (run_mono hu (by omega))⟩

/-! ### Counting down modulo `n`

A counter that goes down by `k` modulo `n` reaches 0 if `k` has an inverse `v`
modulo `n`: the rounds left are the counter times `v`. -/

theorem mul_inv_mod_ne_zero {n k v r : Nat} (hn : 1 < n) (hv : k * v % n = 1) (hr : r % n ≠ 0) :
    r * v % n ≠ 0 := by
  intro h0
  have hinv : k * v ≡ 1 [MOD n] := hv.trans (Nat.mod_eq_of_lt hn).symm
  have h1 : r * (k * v) ≡ r * 1 [MOD n] := Nat.ModEq.mul_left r hinv
  have h2 : k * (r * v) ≡ k * 0 [MOD n] := Nat.ModEq.mul_left k h0
  rw [Nat.mul_zero, Nat.mul_left_comm] at h2
  rw [Nat.mul_one] at h1
  exact hr (h1.symm.trans h2)

theorem mul_inv_mod_lt {n k v r r' : Nat} (hn : 1 < n) (hv : k * v % n = 1) (hr : r % n ≠ 0)
    (h : (r' + k) % n = r % n) : r' * v % n < r * v % n := by
  have hne := mul_inv_mod_ne_zero hn hv hr
  have hinv : k * v ≡ 1 [MOD n] := hv.trans (Nat.mod_eq_of_lt hn).symm
  have hsucc : r' * v + 1 ≡ r * v [MOD n] :=
    calc r' * v + 1 ≡ r' * v + k * v [MOD n] := Nat.ModEq.add_left _ hinv.symm
      _ = (r' + k) * v := (Nat.add_mul _ _ _).symm
      _ ≡ r * v [MOD n] := Nat.ModEq.mul_right v h
  unfold Nat.ModEq at hsucc
  rw [Nat.add_mod, Nat.mod_eq_of_lt hn] at hsucc
  have hlt := Nat.mod_lt (r' * v) (Nat.lt_trans Nat.zero_lt_one hn)
  by_cases hwrap : r' * v % n + 1 < n
  · rw [Nat.mod_eq_of_lt hwrap] at hsucc
    omega
  · have he : r' * v % n + 1 = n := by omega
    rw [he, Nat.mod_self] at hsucc
    exact absurd hsucc.symm hne

/-! ### Loops that get stuck -/

/-- A round that changes nothing is repeated forever. -/
theorem run_stuck {s t : σ} (h : Reaches body s t) (ht : body t = .cont t) (n : Nat) : run body n s = none := by
  induction h using Relation.ReflTransGen.head_induction_on generalizing n with
  | refl =>
    induction n with
    | zero => rfl
    | succ n ih => rw [run_cont _ ht, ih]
  | head hb _ ih =>
    cases n with
    | zero => rfl
    | succ n => rw [run_cont _ hb, ih]

section Stuck
variable {I : σ → Prop} (μ : σ → Nat)
  (hstep : ∀ s t, I s → body s = .cont t → I t ∧ (μ t < μ s ∨ t = s))
include hstep

/-- When every round lowers `μ` or changes nothing, and no round reached changes
nothing, `μ s` rounds and one more are enough. -/
theorem run_of_no_stuck {s : σ} (hs : I s) (hns : ∀ t, Reaches body s t → body t ≠ .cont t) :
    ∃ t, run body (μ s + 1) s = some t := by
  refine run_of_measure (I := fun t => I t ∧ Reaches body s t) μ (fun t u ⟨hI, hr⟩ hb => ?_) ⟨hs, .refl⟩
  obtain ⟨hu, hlt | rfl⟩ := hstep t u hI hb
  · exact ⟨⟨hu, hr.tail hb⟩, hlt⟩
  · exact absurd hb (hns _ hr)

/-- Such a loop is left exactly when none of its rounds changes nothing. -/
theorem stops_iff {s : σ} (hs : I s) : Stops body s ↔ ∀ t, Reaches body s t → body t ≠ .cont t := by
  constructor
  · rintro ⟨n, u, hu⟩ t ht hst
    rw [run_stuck ht hst n] at hu
    cases hu
  · intro hns
    obtain ⟨t, ht⟩ := run_of_no_stuck μ hstep hs hns
    exact ⟨_, t, ht⟩

/-- `μ s + 1` rounds are as good as any number. -/
theorem run_none_iff {s : σ} (hs : I s) : run body (μ s + 1) s = none ↔ ¬ Stops body s := by
  constructor
  · intro hn hst
    obtain ⟨t, ht⟩ := run_of_no_stuck μ hstep hs ((stops_iff μ hstep hs).1 hst)
    rw [hn] at ht
    cases ht
  · intro hst
    cases h : run body (μ s + 1) s with
    | none => rfl
    | some t => exact absurd ⟨_, t, h⟩ hst

end Stuck

end StreamLib.Loop
