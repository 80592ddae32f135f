import CmdAgent.StreamLib.Runs
/-!
# Cutting a byte stream into units

A framer looks at the front of what has been received and says that more is
needed, that a complete unit is there, or that the front is bad. What it says of
a complete or a bad front does not change when more arrives. `Drains` takes
complete units off the front until more is needed; the results here say that it
does not matter in which chunks the stream arrived, and carry that over to any
machine that drains what it holds each time it receives a chunk.
-/
open StreamLib.Runs

namespace StreamLib.Framing

/-- What a framer says of the front of the bytes received. -/
inductive Verdict (ο : Type) where
  | more
  | unit (n : Nat) (o : ο)
  | bad
  deriving DecidableEq

structure Framer (β ο : Type) where
  next : List β → Verdict ο
  unit_pos : ∀ {p n o}, next p = .unit n o → 0 < n ∧ n ≤ p.length
  next_append : ∀ {p} (q), next p ≠ .more → next (p ++ q) = next p

variable {β ο σ : Type} (F : Framer β ο)

/-- Taking units off `p` gives the units `os` and leaves `r`, never meeting a bad
front. -/
inductive Drains : List β → List ο → List β → Prop
  | more {p : List β} : F.next p = .more → Drains p [] p
  | unit {p r : List β} {n : Nat} {o : ο} {os : List ο} :
      F.next p = .unit n o → Drains (p.drop n) os r → Drains p (o :: os) r

variable {F}

theorem Framer.unit_append {p : List β} {n : Nat} {o : ο} (q : List β) (h : F.next p = .unit n o) :
    F.next (p ++ q) = .unit n o := by
  rw [F.next_append q (by simp [h]), h]

theorem Framer.bad_append {p : List β} (q : List β) (h : F.next p = .bad) : F.next (p ++ q) = .bad := by
  rw [F.next_append q (by simp [h]), h]

/-- A proper prefix of a unit needs more. -/
theorem Framer.next_prefix {p q : List β} {o : ο} (h : F.next (p ++ q) = .unit (p ++ q).length o) (hq : q ≠ []) :
    F.next p = .more := by
  have hlen := List.length_pos_iff.2 hq
  cases hp : F.next p with
  | more => rfl
  | bad => rw [F.bad_append q hp] at h; cases h
  | unit n o' =>
    have hn := (F.unit_pos hp).2
    rw [F.unit_append q hp] at h
    injection h with h
    rw [List.length_append] at h
    omega

/-- What is left needs more. -/
theorem Drains.rest {p r : List β} {os : List ο} (h : Drains F p os r) : F.next r = .more := by
  induction h with
  | more h => exact h
  | unit _ _ ih => exact ih

theorem Drains.front {p r : List β} {os : List ο} (h : Drains F p os r) : F.next p ≠ .bad := by
  cases h with
  | more h => simp [h]
  | unit h _ => simp [h]

theorem Drains.det {p r r' : List β} {os os' : List ο} (h : Drains F p os r) (h' : Drains F p os' r') :
    os = os' ∧ r = r' := by
  induction h generalizing os' with
  | more h =>
    cases h' with
    | more _ => exact ⟨rfl, rfl⟩
    | unit h' _ => rw [h] at h'; cases h'
  | unit h _ ih =>
    cases h' with
    | more h' => rw [h] at h'; cases h'
    | unit h' hd =>
      rw [h] at h'
      cases h'
      obtain ⟨rfl, rfl⟩ := ih hd
      exact ⟨rfl, rfl⟩

/-- A stream that drains can be cut anywhere. -/
theorem Drains.split {p q r : List β} {os : List ο} (h : Drains F (p ++ q) os r) :
    ∃ os₁ r₁ os₂, Drains F p os₁ r₁ ∧ Drains F (r₁ ++ q) os₂ r ∧ os = os₁ ++ os₂ := by
  generalize hs : p ++ q = s at h
  induction h generalizing p with
  | more h =>
    subst hs
    refine ⟨[], p, [], .more ?_, .more h, rfl⟩
    cases hp : F.next p with
    | more => rfl
    | unit n o => rw [F.unit_append q hp] at h; cases h
    | bad => rw [F.bad_append q hp] at h; cases h
  | @unit s r n o os h hd ih =>
    subst hs
    cases hp : F.next p with
    | bad => rw [F.bad_append q hp] at h; cases h
    | more => exact ⟨[], p, _, .more hp, .unit h hd, rfl⟩
    | unit n' o' =>
      rw [F.unit_append q hp] at h
      cases h
      obtain ⟨os₁, r₁, os₂, h₁, h₂, rfl⟩ :=
        ih (p := p.drop n) (List.drop_append_of_le_length (F.unit_pos hp).2).symm
      exact ⟨o :: os₁, r₁, os₂, .unit hp h₁, h₂, rfl⟩

/-- A concatenation of units, then `q`. -/
theorem Drains.units {α : Type} (bytes : α → List β) (out : α → ο) {us : List α} {q r : List β} {os : List ο}
    (hu : ∀ u ∈ us, F.next (bytes u) = .unit (bytes u).length (out u)) (h : Drains F q os r) :
    Drains F ((us.map bytes).flatten ++ q) (us.map out ++ os) r := by
  induction us with
  | nil => exact h
  | cons u us ih =>
    have hn := hu u List.mem_cons_self
    simp only [List.map_cons, List.flatten_cons, List.cons_append, List.append_assoc]
    refine .unit (F.unit_append _ hn) ?_
    rw [List.drop_append_of_le_length (Nat.le_refl _), List.drop_length, List.nil_append]
    exact ih fun v hv => hu v (List.mem_cons_of_mem _ hv)

/-! ## Draining as a function -/

/-- The units at the front, at most `n` of them, and what is left. -/
def Framer.drain (F : Framer β ο) : Nat → List β → List ο × List β
  | 0, p => ([], p)
  | n + 1, p => match F.next p with
    | .unit k o => (o :: (F.drain n (p.drop k)).1, (F.drain n (p.drop k)).2)
    | .more | .bad => ([], p)

/-- What is left behind the units at the front. -/
def Framer.rest (F : Framer β ο) (p : List β) : List β := (F.drain p.length p).2

theorem Drains.drain_eq {p r : List β} {os : List ο} (h : Drains F p os r) {n : Nat} (hn : p.length ≤ n) :
    F.drain n p = (os, r) := by
  induction h generalizing n with
  | more h =>
    cases n with
    | zero => rfl
    | succ n => simp only [Framer.drain, h]
  | @unit p r k o os h _ ih =>
    obtain ⟨hk, hkp⟩ := F.unit_pos h
    obtain ⟨n, rfl⟩ := Nat.exists_eq_add_of_le' (Nat.le_trans hk (Nat.le_trans hkp hn))
    have hrest : F.drain n (p.drop k) = (os, r) := ih (by rw [List.length_drop]; omega)
    simp only [Framer.drain, h, hrest]

theorem Drains.rest_eq {p r : List β} {os : List ο} (h : Drains F p os r) : F.rest p = r :=
  congrArg Prod.snd (h.drain_eq (Nat.le_refl _))

/-! ## Cutting a concatenation -/

/-- The start of a concatenation is some of the units and a part of the next. -/
theorem cut_prefix {fs : List (List β)} {p : List β} (h : p <+: fs.flatten) :
    ∃ gs hs part, fs = gs ++ hs ∧ p = gs.flatten ++ part ∧ (part = [] ∨ ∃ f ∈ hs, part <+: f ∧ part ≠ f) := by
  induction fs generalizing p with
  | nil =>
    cases List.prefix_nil.1 h
    exact ⟨[], [], [], rfl, rfl, .inl rfl⟩
  | cons f fs ih =>
    rw [List.flatten_cons] at h
    by_cases hlen : p.length < f.length
    · refine ⟨[], f :: fs, p, rfl, rfl, .inr ⟨f, List.mem_cons_self, ?_, ?_⟩⟩
      · exact List.prefix_of_prefix_length_le h (List.prefix_append _ _) (Nat.le_of_lt hlen)
      · rintro rfl
        exact absurd hlen (Nat.lt_irrefl _)
    · obtain ⟨q, rfl⟩ := List.prefix_of_prefix_length_le (List.prefix_append f fs.flatten) h (Nat.not_lt.1 hlen)
      obtain ⟨gs, hs, part, rfl, rfl, hpart⟩ :=
        ih ((List.prefix_append_right_inj _).1 h)
      exact ⟨f :: gs, hs, part, rfl, by simp, hpart⟩

/-! ## Machines that drain what they hold -/

section Machine
variable {recv : σ → List β → Option σ} {pend : σ → List β} {Emits : σ → List ο → σ → Prop}
  {I : σ → Prop} {ok : σ → List β → Prop}

/-- `Parse s cs os r` says that the units `os` are in what `s` holds and in the chunks
`cs` still to come, and that `r` is left behind them. A machine that takes units off
the front with each chunk takes off all of them, however the stream was cut. -/
theorem exec_parses (Parse : σ → List (List β) → List ο → List β → Prop)
    (hrefl : ∀ s, Emits s [] s)
    (htrans : ∀ s t u os os', Emits s os t → Emits t os' u → Emits s (os ++ os') u)
    (hdone : ∀ s os r, I s → Parse s [] os r → os = [] ∧ r = pend s)
    (hrecv : ∀ s c cs os r, I s → ok s c → Parse s (c :: cs) os r →
      ∃ t os₁ os₂, recv s c = some t ∧ I t ∧ Emits s os₁ t ∧ os = os₁ ++ os₂ ∧ Parse t cs os₂ r)
    {s : σ} {cs : List (List β)} {os : List ο} {r : List β} (hs : I s) (hcs : Along recv ok s cs)
    (h : Parse s cs os r) :
    ∃ t, exec recv s cs = some t ∧ I t ∧ pend t = r ∧ Emits s os t := by
  induction cs generalizing s os with
  | nil =>
    obtain ⟨rfl, hr⟩ := hdone s os r hs h
    exact ⟨s, rfl, hs, hr.symm, hrefl s⟩
  | cons c cs ih =>
    obtain ⟨t, os₁, os₂, ht, hI, he, rfl, h₂⟩ := hrecv s c cs os r hs hcs.1 h
    obtain ⟨u, hu, hI', hp', he'⟩ := ih hI (hcs.2 t ht) h₂
    exact ⟨u, (exec_cons cs ht).trans hu, hI', hp', htrans s t u _ _ he he'⟩

/-- A machine that drains what it holds each time it receives a chunk drains the
whole stream, however the stream was cut. -/
theorem exec_drains (hmore : ∀ s, I s → F.next (pend s) = .more)
    (hrefl : ∀ s, Emits s [] s)
    (htrans : ∀ s t u os os', Emits s os t → Emits t os' u → Emits s (os ++ os') u)
    (hrecv : ∀ s c os r, I s → ok s c → Drains F (pend s ++ c) os r →
      ∃ t, recv s c = some t ∧ I t ∧ pend t = r ∧ Emits s os t)
    {s : σ} {cs : List (List β)} {os : List ο} {r : List β} (hs : I s) (hcs : Along recv ok s cs)
    (h : Drains F (pend s ++ cs.flatten) os r) :
    ∃ t, exec recv s cs = some t ∧ I t ∧ pend t = r ∧ Emits s os t := by
  refine exec_parses (fun s cs os r => Drains F (pend s ++ cs.flatten) os r) hrefl htrans ?_ ?_ hs hcs h
  · intro s os r hI h
    rw [List.flatten_nil, List.append_nil] at h
    exact h.det (.more (hmore s hI))
  · intro s c cs os r hI hok h
    rw [List.flatten_cons, ← List.append_assoc] at h
    obtain ⟨os₁, r₁, os₂, h₁, h₂, he⟩ := h.split
    obtain ⟨t, ht, hI', rfl, hem⟩ := hrecv s c os₁ r₁ hI hok h₁
    exact ⟨t, os₁, os₂, ht, hI', hem, he, h₂⟩

end Machine

end StreamLib.Framing
