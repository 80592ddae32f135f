import Mathlib.Data.List.AList
import Mathlib.Data.List.Nodup
/-!
# Chains of nodes

Nodes in memory, each with a pointer to the next one; `NULL` is 0. A segment names the
nodes from one pointer up to another. A loop along a chain is given fuel; more nodes than
are allocated are only met on a cycle.
-/

namespace StreamLib.Chain

/-- The allocated nodes by their addresses. -/
abbrev Nodes (ν : Type) := AList fun _ : Nat => ν

variable {ν : Type} (next : ν → Nat)

/-- The nodes from `p` up to `q`, with their addresses. -/
def Seg (h : Nodes ν) : Nat → List (Nat × ν) → Nat → Prop
  | p, [], q => p = q
  | p, (a, v) :: l, q => p = a ∧ a ≠ 0 ∧ h.lookup a = some v ∧ Seg h (next v) l q

variable {next} {h h' : Nodes ν} {p q r : Nat} {v w : ν} {l l' l₁ l₂ : List (Nat × ν)}

theorem seg_append : Seg next h p (l₁ ++ l₂) q ↔ ∃ m, Seg next h p l₁ m ∧ Seg next h m l₂ q := by
  induction l₁ generalizing p with
  | nil => exact ⟨fun hs => ⟨p, rfl, hs⟩, fun ⟨m, he, hs⟩ => he ▸ hs⟩
  | cons a l₁ ih =>
    constructor
    · rintro ⟨hp, hnull, hv, hs⟩
      obtain ⟨m, hs₁, hs₂⟩ := ih.1 hs
      exact ⟨m, ⟨hp, hnull, hv, hs₁⟩, hs₂⟩
    · rintro ⟨m, ⟨hp, hnull, hv, hs₁⟩, hs₂⟩
      exact ⟨hp, hnull, hv, ih.2 ⟨m, hs₁, hs₂⟩⟩

/-- A segment only depends on its own nodes. -/
theorem Seg.congr (hs : Seg next h p l q) (hsame : ∀ a ∈ l.map Prod.fst, h'.lookup a = h.lookup a) :
    Seg next h' p l q := by
  induction l generalizing p with
  | nil => exact hs
  | cons a l ih =>
    obtain ⟨hp, hnull, hv, hs⟩ := hs
    refine ⟨hp, hnull, (hsame _ List.mem_cons_self).trans hv, ih hs fun b hb => hsame b ?_⟩
    exact List.mem_cons_of_mem _ hb

theorem Seg.lookup (hs : Seg next h p l q) {a : Nat} (hmem : (a, v) ∈ l) : a ≠ 0 ∧ h.lookup a = some v := by
  induction l generalizing p with
  | nil => cases hmem
  | cons b l ih =>
    obtain ⟨-, hnull, hb, hs⟩ := hs
    rcases List.mem_cons.1 hmem with rfl | hmem
    · exact ⟨hnull, hb⟩
    · exact ih hs hmem

/-! ## Chains up to `NULL` -/

/-- The memory decides what a chain is. -/
theorem Seg.det (hs : Seg next h p l 0) (hs' : Seg next h p l' 0) : l = l' := by
  induction l generalizing p l' with
  | nil =>
    cases l' with
    | nil => rfl
    | cons b l' =>
      obtain ⟨he, hnull, -⟩ := hs'
      exact absurd (he.symm.trans hs) hnull
  | cons a l ih =>
    obtain ⟨rfl, hnull, hv, hs⟩ := hs
    cases l' with
    | nil => exact absurd hs' hnull
    | cons b l' =>
      obtain ⟨hb, -, hv', hs'⟩ := hs'
      obtain ⟨b, w⟩ := b
      obtain ⟨a, v⟩ := a
      dsimp only at hb hv hv' hs hs'
      subst hb
      cases hv.symm.trans hv'
      rw [ih hs hs']

/-- It meets no node twice: from the same node it would go on in the same way. -/
theorem Seg.nodup (hs : Seg next h p l 0) : (l.map Prod.fst).Nodup := by
  induction l generalizing p with
  | nil => exact List.nodup_nil
  | cons a l ih =>
    have hwhole := hs
    obtain ⟨rfl, hnull, hv, hs⟩ := hs
    rw [List.map_cons, List.nodup_cons]
    refine ⟨fun hmem => ?_, ih hs⟩
    obtain ⟨⟨b, w⟩, hb, he⟩ := List.mem_map.1 hmem
    obtain ⟨l₁, l₂, rfl⟩ := List.append_of_mem hb
    obtain ⟨m, -, hs₂⟩ := seg_append.1 hs
    dsimp only at he
    obtain rfl : b = m := hs₂.1.symm
    subst he
    have hlen := congrArg List.length (hwhole.det hs₂)
    simp only [List.length_cons, List.length_append] at hlen
    omega

theorem Seg.length_le (hs : Seg next h p l 0) : l.length ≤ h.keys.length := by
  have hsub : l.map Prod.fst ⊆ h.keys := by
    intro a hmem
    obtain ⟨⟨a, v⟩, hl, rfl⟩ := List.mem_map.1 hmem
    exact AList.lookup_isSome.1 (by rw [(hs.lookup hl).2]; rfl)
  have hle := (List.subperm_of_subset hs.nodup hsub).length_le
  rwa [List.length_map] at hle

/-- A new node behind the last one. -/
theorem Seg.snoc (hs : Seg next h p (l ++ [(q, v)]) 0) (hr : r ≠ 0) (hnew : r ∉ (l ++ [(q, v)]).map Prod.fst)
    {v' w : ν} (hv' : next v' = r) (hw : next w = 0) :
    Seg next ((h.insert r w).insert q v') p (l ++ [(q, v'), (r, w)]) 0 := by
  have hnodup := hs.nodup
  rw [List.map_append, List.map_cons, List.map_nil] at hnodup hnew
  have hqr : q ≠ r := by
    rintro rfl
    exact hnew (by simp)
  obtain ⟨m, hs₁, hs₂⟩ := seg_append.1 hs
  refine seg_append.2 ⟨m, hs₁.congr fun a hmem => ?_, ?_⟩
  · have haq : a ≠ q := by
      rintro rfl
      exact (List.nodup_append.1 hnodup).2.2 a hmem a (by simp) rfl
    have har : a ≠ r := by
      rintro rfl
      exact hnew (List.mem_append_left _ hmem)
    rw [AList.lookup_insert_ne haq, AList.lookup_insert_ne har]
  · obtain ⟨hm, hq, -, -⟩ := hs₂
    refine ⟨hm, hq, AList.lookup_insert _, hv', hr, ?_, hw⟩
    rw [AList.lookup_insert_ne hqr.symm, AList.lookup_insert]

/-- A node is taken out. -/
theorem Seg.cut (hs : Seg next h p (l₁ ++ (q, v) :: (r, w) :: l₂) 0) {v' : ν} (hv' : next v' = next w) :
    Seg next ((h.insert q v').erase r) p (l₁ ++ (q, v') :: l₂) 0 := by
  have hnodup := hs.nodup
  simp only [List.map_append, List.map_cons, List.nodup_append, List.nodup_cons, List.mem_cons] at hnodup
  obtain ⟨-, ⟨hq, hr, -⟩, hdis⟩ := hnodup
  have hsame : ∀ a, a ≠ q → a ≠ r → ((h.insert q v').erase r).lookup a = h.lookup a := by
    intro a haq har
    rw [AList.lookup_erase_ne har, AList.lookup_insert_ne haq]
  obtain ⟨m, hs₁, hs₂⟩ := seg_append.1 hs
  obtain ⟨hm, hq0, -, -, -, -, hs₂⟩ := hs₂
  refine seg_append.2 ⟨m, hs₁.congr fun a hmem => hsame a ?_ ?_, hm, hq0, ?_, ?_⟩
  · exact hdis a hmem q (.inl rfl)
  · exact hdis a hmem r (.inr (.inl rfl))
  · rw [AList.lookup_erase_ne fun he => hq (.inl he), AList.lookup_insert]
  · rw [hv']
    refine hs₂.congr fun a hmem => hsame a ?_ ?_
    · rintro rfl
      exact hq (.inr hmem)
    · rintro rfl
      exact hr hmem

/-! ## Loops -/

variable (next h)

/-- `while (p != NULL && !stop(p)) p = p->next;`, from a node behind `prev`: where it stops,
and the node in front. -/
def scan (stop : ν → Bool) : Nat → Nat → Nat → Option (Nat × Nat)
  | 0, _, _ => none
  | n + 1, prev, p =>
    if p = 0 then some (prev, 0)
    else (h.lookup p).bind fun v => if stop v then some (prev, p) else scan stop n p (next v)

/-- `while (p->next != NULL) p = p->next;` -/
def last : Nat → Nat → Option Nat
  | 0, _ => none
  | n + 1, p => (h.lookup p).bind fun v => if next v = 0 then some p else last n (next v)

variable {next h} {n : Nat}

theorem scan_none (stop : ν → Bool) (prev : Nat) (hs : Seg next h p l 0) (hn : l.length < n)
    (hl : ∀ b ∈ l, stop b.2 = false) :
    ∃ prev', scan next h stop n prev p = some (prev', 0) := by
  induction l generalizing n prev p with
  | nil =>
    obtain ⟨n, rfl⟩ := Nat.exists_eq_add_of_lt hn
    exact ⟨prev, by rw [scan, if_pos (show p = 0 from hs)]⟩
  | cons a l ih =>
    obtain ⟨a, v⟩ := a
    obtain ⟨rfl, hnull, hv, hs⟩ := hs
    cases n with
    | zero => cases hn
    | succ n =>
      obtain ⟨prev', hscan⟩ := ih p hs (Nat.lt_of_succ_lt_succ hn) fun b hb => hl b (List.mem_cons_of_mem _ hb)
      refine ⟨prev', ?_⟩
      have hstop : stop v = false := hl (p, v) List.mem_cons_self
      rw [scan, if_neg hnull, hv, Option.bind_some, hstop]
      exact hscan

theorem scan_found (stop : ν → Bool) (prev : Nat) (hs : Seg next h p (l₁ ++ (r, w) :: l₂) 0) (hn : l₁.length < n)
    (hl : ∀ b ∈ l₁, stop b.2 = false) (hw : stop w = true) :
    scan next h stop n prev p = some ((l₁.map Prod.fst).getLastD prev, r) := by
  induction l₁ generalizing n prev p with
  | nil =>
    obtain ⟨rfl, hnull, hv, -⟩ := hs
    obtain ⟨n, rfl⟩ := Nat.exists_eq_add_of_lt hn
    rw [scan, if_neg hnull, hv, Option.bind_some, hw]
    rfl
  | cons a l₁ ih =>
    obtain ⟨a, v⟩ := a
    obtain ⟨rfl, hnull, hv, hs⟩ := hs
    cases n with
    | zero => cases hn
    | succ n =>
      have hstop : stop v = false := hl (p, v) List.mem_cons_self
      rw [scan, if_neg hnull, hv, Option.bind_some, hstop]
      have hrest := ih p hs (Nat.lt_of_succ_lt_succ hn) fun b hb => hl b (List.mem_cons_of_mem _ hb)
      rw [List.map_cons, List.getLastD_cons]
      exact hrest

theorem last_eq (hs : Seg next h p (l ++ [(q, v)]) 0) (hn : l.length < n) : last next h n p = some q := by
  induction l generalizing n p with
  | nil =>
    obtain ⟨rfl, -, hv, hend⟩ := hs
    obtain ⟨n, rfl⟩ := Nat.exists_eq_add_of_lt hn
    rw [last, hv, Option.bind_some, if_pos (show next v = 0 from hend)]
  | cons a l ih =>
    obtain ⟨a, u⟩ := a
    obtain ⟨rfl, -, hv, hs⟩ := hs
    cases n with
    | zero => cases hn
    | succ n =>
      have hnext : next u ≠ 0 := by
        cases l with
        | nil => exact hs.1 ▸ hs.2.1
        | cons b l => exact hs.1 ▸ hs.2.1
      rw [last, hv, Option.bind_some, if_neg hnext]
      exact ih hs (Nat.lt_of_succ_lt_succ hn)

end StreamLib.Chain
