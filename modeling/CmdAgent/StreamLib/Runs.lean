import Mathlib.Data.List.Induction
import Mathlib.Tactic.Common
/-!
# Runs of a machine

A machine takes one input at a time; a step may fail to return (`none`). `exec`
is a run over a list of inputs, and `Along` says that every step of a run is
taken in a state in which it is `ok`. A property of every run is an invariant
that each `ok` step keeps.
-/

namespace StreamLib.Runs

variable {σ ι : Type} (step : σ → ι → Option σ)

/-- The state after the inputs, if every step returns. -/
def exec : σ → List ι → Option σ
  | s, [] => some s
  | s, i :: is => (step s i).bind (fun t => exec t is)

/-- Every step of the run over the inputs is `ok` in the state it is taken in. -/
def Along (ok : σ → ι → Prop) : σ → List ι → Prop
  | _, [] => True
  | s, i :: is => ok s i ∧ ∀ t, step s i = some t → Along ok t is

/-- `I` holds in every state of the run over the inputs. -/
def Throughout (I : σ → Prop) : σ → List ι → Prop
  | s, [] => I s
  | s, i :: is => I s ∧ ∀ t, step s i = some t → Throughout I t is

/-- The run over the inputs is `ok` and ends in `t`. -/
structure OkRun (ok : σ → ι → Prop) (s : σ) (is : List ι) (t : σ) : Prop where
  exec : exec step s is = some t
  along : Along step ok s is

/-- `t` is a state of the run over the inputs: between two steps, or `within` one. -/
def Visits (within : σ → ι → σ → Prop) : σ → List ι → σ → Prop
  | s, [], t => t = s
  | s, i :: is, t => t = s ∨ within s i t ∨ ∃ u, step s i = some u ∧ Visits within u is t

/-- How many steps of the run over the inputs are `p` in the state they are taken in. -/
def taken (p : σ → ι → Bool) : σ → List ι → Nat
  | _, [] => 0
  | s, i :: is => (p s i).toNat + (step s i).elim 0 fun t => taken p t is

instance instDecidableAlong {ok : σ → ι → Prop} [∀ s i, Decidable (ok s i)] : ∀ s is, Decidable (Along step ok s is)
  | _, [] => .isTrue trivial
  | s, i :: is =>
    have : ∀ t, Decidable (Along step ok t is) := fun t => instDecidableAlong t is
    inferInstanceAs (Decidable (ok s i ∧ ∀ t ∈ step s i, Along step ok t is))

variable {step}

theorem exec_cons {s t : σ} {i : ι} (is : List ι) (h : step s i = some t) :
    exec step s (i :: is) = exec step t is := by simp [exec, h]

theorem exec_cons_eq_some {s u : σ} {i : ι} {is : List ι} :
    exec step s (i :: is) = some u ↔ ∃ t, step s i = some t ∧ exec step t is = some u := by
  simp [exec, Option.bind_eq_some_iff]

/-- If every step returns, the run ends. -/
theorem exec_of_total (h : ∀ s i, ∃ t, step s i = some t) (s : σ)
    (is : List ι) : ∃ t, exec step s is = some t := by
  induction is generalizing s with
  | nil => exact ⟨s, rfl⟩
  | cons i is ih =>
    obtain ⟨t, ht⟩ := h s i
    obtain ⟨u, hu⟩ := ih t
    exact ⟨u, (exec_cons is ht).trans hu⟩

theorem along_cons {ok : σ → ι → Prop} {s t : σ} {i : ι} (is : List ι) (h : step s i = some t) :
    Along step ok s (i :: is) ↔ ok s i ∧ Along step ok t is := by
  refine and_congr_right fun _ => ⟨fun hall => hall t h, fun ht u hu => ?_⟩
  cases h.symm.trans hu
  exact ht

theorem OkRun.nil {ok : σ → ι → Prop} (s : σ) : OkRun step ok s [] s := ⟨rfl, trivial⟩

theorem OkRun.cons {ok : σ → ι → Prop} {s t u : σ} {i : ι} {is : List ι} (hok : ok s i) (hst : step s i = some t)
    (h : OkRun step ok t is u) : OkRun step ok s (i :: is) u :=
  ⟨(exec_cons is hst).trans h.exec, (along_cons is hst).2 ⟨hok, h.along⟩⟩

theorem along_singleton {ok : σ → ι → Prop} {s : σ} {i : ι} : Along step ok s [i] ↔ ok s i :=
  ⟨And.left, fun h => ⟨h, fun _ _ => trivial⟩⟩

theorem along_of_forall {ok : σ → ι → Prop} (h : ∀ s i, ok s i) (s : σ) (is : List ι) : Along step ok s is := by
  induction is generalizing s with
  | nil => trivial
  | cons i is ih => exact ⟨h s i, fun t _ => ih t⟩

theorem Along.mono {ok ok' : σ → ι → Prop} (h : ∀ s i, ok s i → ok' s i) {s : σ} {is : List ι}
    (hs : Along step ok s is) : Along step ok' s is := by
  induction is generalizing s with
  | nil => trivial
  | cons i is ih => exact ⟨h s i hs.1, fun t ht => ih (hs.2 t ht)⟩

theorem Along.and {ok ok' : σ → ι → Prop} {s : σ} {is : List ι} (h : Along step ok s is) (h' : Along step ok' s is) :
    Along step (fun s i => ok s i ∧ ok' s i) s is := by
  induction is generalizing s with
  | nil => trivial
  | cons i is ih => exact ⟨⟨h.1, h'.1⟩, fun t ht => ih (h.2 t ht) (h'.2 t ht)⟩

/-- An invariant kept by every `ok` step makes every step of an `ok` run meet
what it implies. -/
theorem along_inv {I : σ → Prop} {ok ok' : σ → ι → Prop}
    (hstep : ∀ s i t, I s → ok s i → step s i = some t → I t) (hok : ∀ s i, I s → ok s i → ok' s i)
    {s : σ} {is : List ι} (hs : I s) (h : Along step ok s is) : Along step ok' s is := by
  induction is generalizing s with
  | nil => trivial
  | cons i is ih => exact ⟨hok s i hs h.1, fun t ht => ih (hstep s i t hs h.1 ht) (h.2 t ht)⟩

/-- An invariant kept by every `ok` step holds after every `ok` run. -/
theorem exec_inv {I : σ → Prop} {ok : σ → ι → Prop}
    (hstep : ∀ s i t, I s → ok s i → step s i = some t → I t) {s t : σ} {is : List ι} (hs : I s)
    (h : Along step ok s is) (he : exec step s is = some t) : I t := by
  induction is generalizing s with
  | nil => cases he; exact hs
  | cons i is ih =>
    obtain ⟨u, hu, he⟩ := exec_cons_eq_some.1 he
    exact ih (hstep s i u hs h.1 hu) (h.2 u hu) he

/-- An invariant kept by every step holds after every run. -/
theorem exec_inv_all {I : σ → Prop} (hstep : ∀ s i t, I s → step s i = some t → I t) {s t : σ} {is : List ι} (hs : I s)
    (he : exec step s is = some t) : I t := by
  have hall : Along step (fun _ _ => True) s is := along_of_forall (fun _ _ => trivial) s is
  exact exec_inv (fun s i t hs _ hst => hstep s i t hs hst) hs hall he

theorem exec_append (s : σ) (is js : List ι) :
    exec step s (is ++ js) = (exec step s is).bind fun t => exec step t js := by
  induction is generalizing s with
  | nil => rfl
  | cons i is ih =>
    rw [List.cons_append, exec, exec]
    cases step s i with
    | none => rfl
    | some t => exact ih t

theorem along_append {ok : σ → ι → Prop} (s : σ) (is js : List ι) :
    Along step ok s (is ++ js) ↔ Along step ok s is ∧ ∀ t, exec step s is = some t → Along step ok t js := by
  induction is generalizing s with
  | nil => exact ⟨fun h => ⟨trivial, by rintro t ⟨⟩; exact h⟩, fun h => h.2 s rfl⟩
  | cons i is ih =>
    rw [List.cons_append]
    constructor
    · rintro ⟨hok, hrest⟩
      refine ⟨⟨hok, fun t ht => ((ih t).1 (hrest t ht)).1⟩, ?_⟩
      intro u hu
      obtain ⟨t, ht, hu⟩ := exec_cons_eq_some.1 hu
      exact ((ih t).1 (hrest t ht)).2 u hu
    · rintro ⟨⟨hok, hrest⟩, hjs⟩
      exact ⟨hok, fun t ht => (ih t).2 ⟨hrest t ht, fun u hu => hjs u (exec_cons_eq_some.2 ⟨t, ht, hu⟩)⟩⟩

/-- A relation between what has happened and the state, kept by every `ok` step,
holds after every `ok` run, and such a run never stops short. -/
theorem exec_history {H : List ι → σ → Prop} {ok : σ → ι → Prop}
    (hstep : ∀ is s i, H is s → ok s i → ∃ t, step s i = some t ∧ H (is ++ [i]) t) {s : σ} (hs : H [] s) (is : List ι)
    (h : Along step ok s is) : ∃ t, exec step s is = some t ∧ H is t := by
  induction is using List.reverseRecOn with
  | nil => exact ⟨s, rfl, hs⟩
  | append_singleton is i ih =>
    obtain ⟨hall, hlast⟩ := (along_append s is [i]).1 h
    obtain ⟨t, ht, hH⟩ := ih hall
    obtain ⟨u, hu, hH⟩ := hstep is t i hH (along_singleton.1 (hlast t ht))
    refine ⟨u, ?_, hH⟩
    rw [exec_append, ht, Option.bind_some, exec_cons [] hu]
    rfl

/-- The same for a run that ends. -/
theorem history_of_exec {H : List ι → σ → Prop} (hstep : ∀ is s i t, H is s → step s i = some t → H (is ++ [i]) t)
    {s t : σ} {is : List ι} (hs : H [] s) (he : exec step s is = some t) : H is t := by
  induction is using List.reverseRecOn generalizing t with
  | nil =>
    cases he
    exact hs
  | append_singleton is i ih =>
    rw [exec_append] at he
    obtain ⟨u, hu, he⟩ := Option.bind_eq_some_iff.1 he
    obtain ⟨v, hv, he⟩ := exec_cons_eq_some.1 he
    cases he
    exact hstep is u i t (ih hu) hv

theorem throughout_iff {I : σ → Prop} (s : σ) (is : List ι) :
    Throughout step I s is ↔ ∀ pre, pre <+: is → ∀ t, exec step s pre = some t → I t := by
  induction is generalizing s with
  | nil =>
    constructor
    · intro h pre hpre t ht
      cases List.prefix_nil.1 hpre
      cases ht
      exact h
    · intro h
      exact h [] (List.prefix_refl _) s rfl
  | cons i is ih =>
    constructor
    · rintro ⟨hs, hrest⟩ pre hpre t ht
      cases pre with
      | nil =>
        cases ht
        exact hs
      | cons j pre =>
        obtain ⟨rfl, htail⟩ := List.cons_prefix_cons.1 hpre
        obtain ⟨u, hu, ht⟩ := exec_cons_eq_some.1 ht
        exact (ih u).1 (hrest u hu) pre htail t ht
    · intro h
      refine ⟨h [] List.nil_prefix s rfl, fun u hu => (ih u).2 fun pre hpre t ht => ?_⟩
      exact h (i :: pre) (List.cons_prefix_cons.2 ⟨rfl, hpre⟩) t (exec_cons_eq_some.2 ⟨u, hu, ht⟩)

theorem throughout_inv {I : σ → Prop} {ok : σ → ι → Prop}
    (hstep : ∀ s i t, I s → ok s i → step s i = some t → I t) {s : σ} {is : List ι} (hs : I s)
    (h : Along step ok s is) : Throughout step I s is := by
  induction is generalizing s with
  | nil => exact hs
  | cons i is ih => exact ⟨hs, fun t ht => ih (hstep s i t hs h.1 ht) (h.2 t ht)⟩

/-- An invariant kept by every `ok` step, and within it, holds in every state an `ok`
run visits. -/
theorem visits_last {within : σ → ι → σ → Prop} {s t : σ} {is : List ι} (h : exec step s is = some t) :
    Visits step within s is t := by
  induction is generalizing s with
  | nil =>
    cases h
    exact rfl
  | cons i is ih =>
    obtain ⟨u, hu, hrest⟩ := exec_cons_eq_some.1 h
    exact .inr (.inr ⟨u, hu, ih hrest⟩)

theorem visits_inv {I : σ → Prop} {ok : σ → ι → Prop} {within : σ → ι → σ → Prop}
    (hstep : ∀ s i t, I s → ok s i → step s i = some t → I t) (hin : ∀ s i t, I s → ok s i → within s i t → I t)
    {s t : σ} {is : List ι} (hs : I s) (h : Along step ok s is) (hv : Visits step within s is t) : I t := by
  induction is generalizing s with
  | nil =>
    cases hv
    exact hs
  | cons i is ih =>
    rcases hv with rfl | hv | ⟨u, hu, hv⟩
    · exact hs
    · exact hin s i t hs h.1 hv
    · exact ih (hstep s i u hs h.1 hu) (h.2 u hu) hv

/-- Where a step leads to `I` exactly if it is `ok`, `I` holds throughout exactly the `ok`
runs. `J` is what `ok` steps keep. -/
theorem throughout_iff_ok {I J : σ → Prop} {ok : σ → ι → Prop}
    (hJ : ∀ s i t, J s → ok s i → step s i = some t → J t) (hI : ∀ s i t, J s → step s i = some t → (I t ↔ ok s i))
    {s t : σ} {is : List ι} (hJs : J s) (hIs : I s) (he : exec step s is = some t) :
    Throughout step I s is ↔ Along step ok s is := by
  induction is generalizing s with
  | nil => exact ⟨fun _ => trivial, fun _ => hIs⟩
  | cons i is ih =>
    obtain ⟨u, hu, he⟩ := exec_cons_eq_some.1 he
    have hiff := hI s i u hJs hu
    rw [along_cons is hu]
    constructor
    · rintro ⟨-, hrest⟩
      have hIu : I u := by
        cases is with
        | nil => exact hrest u hu
        | cons => exact (hrest u hu).1
      have hok := hiff.1 hIu
      exact ⟨hok, (ih (hJ s i u hJs hok hu) hIu he).1 (hrest u hu)⟩
    · rintro ⟨hok, hrest⟩
      refine ⟨hIs, fun v hv => ?_⟩
      cases hu.symm.trans hv
      exact (ih (hJ s i u hJs hok hu) (hiff.2 hok) he).2 hrest

/-- The same where `J` is what every step keeps. -/
theorem throughout_iff_along {I J : σ → Prop} {ok : σ → ι → Prop} (hJ : ∀ s i t, J s → step s i = some t → J t)
    (hI : ∀ s i t, J s → I s → step s i = some t → (I t ↔ ok s i)) {s t : σ} {is : List ι} (hJs : J s) (hIs : I s)
    (he : exec step s is = some t) : Throughout step I s is ↔ Along step ok s is := by
  refine throughout_iff_ok (J := fun s => J s ∧ I s) ?_ ?_ ⟨hJs, hIs⟩ hIs he
  · rintro s i t ⟨hJs, hIs⟩ hok hst
    exact ⟨hJ s i t hJs hst, (hI s i t hJs hIs hst).2 hok⟩
  · rintro s i t ⟨hJs, hIs⟩ hst
    exact hI s i t hJs hIs hst

/-- A measure that the `p` steps lower, and no step raises, bounds how many of them are taken. -/
theorem taken_le {I : σ → Prop} {ok : σ → ι → Prop} {p : σ → ι → Bool} {μ : σ → Nat}
    (hI : ∀ s i t, I s → step s i = some t → I t)
    (hμ : ∀ s i t, I s → ok s i → step s i = some t → (p s i).toNat + μ t ≤ μ s) {s t : σ} {is : List ι} (hs : I s)
    (h : Along step ok s is) (he : exec step s is = some t) : taken step p s is + μ t ≤ μ s := by
  induction is generalizing s with
  | nil =>
    cases he
    exact Nat.le_of_eq (Nat.zero_add _)
  | cons i is ih =>
    obtain ⟨u, hu, he⟩ := exec_cons_eq_some.1 he
    have hrest : taken step p u is + μ t ≤ μ u := ih (hI s i u hs hu) (h.2 u hu) he
    have hstep : (p s i).toNat + μ u ≤ μ s := hμ s i u hs h.1 hu
    have htaken : taken step p s (i :: is) = (p s i).toNat + taken step p u is := by rw [taken, hu, Option.elim]
    omega

/-- A condition on the inputs alone. -/
theorem along_iff_forall {p : ι → Prop} {s t : σ} {is : List ι} (he : exec step s is = some t) :
    Along step (fun _ i => p i) s is ↔ ∀ i ∈ is, p i := by
  induction is generalizing s with
  | nil => simp [Along]
  | cons i is ih =>
    obtain ⟨u, hu, he⟩ := exec_cons_eq_some.1 he
    rw [along_cons is hu, ih he, List.forall_mem_cons]

/-! ## The labels of a run -/

/-- What the steps of the run over the inputs mean, one after the other. -/
def labels {κ : Type} (step : σ → ι → Option σ) (label : σ → ι → σ → κ) : σ → List ι → List κ
  | _, [] => []
  | s, i :: is => (step s i).elim [] fun t => label s i t :: labels step label t is

theorem labels_cons {κ : Type} {label : σ → ι → σ → κ} {s t : σ} {i : ι} (is : List ι) (h : step s i = some t) :
    labels step label s (i :: is) = label s i t :: labels step label t is := by
  rw [labels, h, Option.elim]

/-- If the abstract machine follows every `ok` step by its label, it follows every `ok` run by its labels. -/
theorem exec_labels {κ τ : Type} {astep : τ → κ → Option τ} {label : σ → ι → σ → κ} {abs : σ → τ} {I : σ → Prop}
    {ok : σ → ι → Prop}
    (hstep : ∀ s i t, I s → ok s i → step s i = some t → I t ∧ astep (abs s) (label s i t) = some (abs t))
    {s t : σ} {is : List ι} (hs : I s) (h : Along step ok s is) (he : exec step s is = some t) :
    exec astep (abs s) (labels step label s is) = some (abs t) := by
  induction is generalizing s with
  | nil =>
    cases he
    rfl
  | cons i is ih =>
    obtain ⟨u, hu, he⟩ := exec_cons_eq_some.1 he
    obtain ⟨hIu, hfollows⟩ := hstep s i u hs h.1 hu
    rw [labels_cons is hu, exec_cons _ hfollows]
    exact ih hIu (h.2 u hu) he

/-- Every label is that of a step for one of the inputs. -/
theorem mem_labels {κ : Type} {label : σ → ι → σ → κ} {s : σ} {is : List ι} {l : κ}
    (h : l ∈ labels step label s is) : ∃ s' t, ∃ i ∈ is, l = label s' i t := by
  induction is generalizing s with
  | nil => cases h
  | cons i is ih =>
    cases hst : step s i with
    | none =>
      rw [labels, hst] at h
      cases h
    | some t =>
      rw [labels_cons is hst] at h
      rcases List.mem_cons.1 h with rfl | h
      · exact ⟨s, t, i, List.mem_cons_self, rfl⟩
      · obtain ⟨s', t', j, hj, hl⟩ := ih h
        exact ⟨s', t', j, List.mem_cons_of_mem i hj, hl⟩

/-- What holds at the end of an `ok` run, and cannot be had without having been had before, holds
after each of its steps. -/
theorem along_of_end {I P : σ → Prop} {ok : σ → ι → Prop}
    (hI : ∀ s i t, I s → ok s i → step s i = some t → I t)
    (hback : ∀ s i t, I s → step s i = some t → P t → P s) {s t : σ} {is : List ι} (hs : I s)
    (h : Along step ok s is) (he : exec step s is = some t) (ht : P t) :
    P s ∧ Along step (fun s i => ∀ t, step s i = some t → P t) s is := by
  induction is generalizing s with
  | nil =>
    cases he
    exact ⟨ht, trivial⟩
  | cons i is ih =>
    obtain ⟨u, hu, he⟩ := exec_cons_eq_some.1 he
    obtain ⟨hPu, hrest⟩ := ih (hI s i u hs h.1 hu) (h.2 u hu) he
    refine ⟨hback s i u hs hu hPu, (along_cons is hu).2 ⟨fun v hv => ?_, hrest⟩⟩
    cases hu.symm.trans hv
    exact hPu

end StreamLib.Runs
