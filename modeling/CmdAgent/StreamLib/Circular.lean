import Mathlib.Data.List.Nodup
import Mathlib.Logic.Function.Basic
/-!
# Circular lists

Nodes with a pointer to the next node and one to the previous, in a circle through a
head. A path is the nodes met on the way from one node to another; what an update does
to a ring is what it does to the paths on both sides of it.
-/

namespace StreamLib.Circular

/-- The two pointers of each node. -/
structure Links (A : Type) where
  next : A → A
  prev : A → A

variable {A : Type} [DecidableEq A]

def Links.setNext (h : Links A) (a b : A) : Links A := { h with next := Function.update h.next a b }

def Links.setPrev (h : Links A) (a b : A) : Links A := { h with prev := Function.update h.prev a b }

/-- `a` and `b` become neighbours. -/
def Links.link (h : Links A) (a b : A) : Links A := (h.setPrev b a).setNext a b

/-- `a` and `b` are neighbours. -/
def Links.Linked (h : Links A) (a b : A) : Prop := h.next a = b ∧ h.prev b = a

/-- The nodes behind `a` up to `b`. -/
def Path (h : Links A) : A → List A → A → Prop
  | a, [], b => a = b
  | a, x :: l, b => h.Linked a x ∧ Path h x l b

/-- The nodes behind `head`, and then `head` again. -/
structure RingOf (h : Links A) (head : A) (l : List A) : Prop where
  nodup : (head :: l).Nodup
  path : Path h head (l ++ [head]) head

variable {h h' : Links A} {a b c head x y p n : A} {l l' l₁ l₂ : List A}

/-! ## Links -/

@[simp] theorem next_link (h : Links A) (a b : A) : (h.link a b).next = Function.update h.next a b := rfl

@[simp] theorem prev_link (h : Links A) (a b : A) : (h.link a b).prev = Function.update h.prev b a := rfl

theorem next_link_of_ne (hy : y ≠ a) : (h.link a b).next y = h.next y := Function.update_of_ne hy _ _

theorem prev_link_of_ne (hy : y ≠ b) : (h.link a b).prev y = h.prev y := Function.update_of_ne hy _ _

theorem linked_link (h : Links A) (a b : A) : (h.link a b).Linked a b :=
  ⟨by rw [next_link, Function.update_self], by rw [prev_link, Function.update_self]⟩

/-! ## Paths -/

omit [DecidableEq A] in
theorem path_append : Path h a (l₁ ++ l₂) c ↔ ∃ b, Path h a l₁ b ∧ Path h b l₂ c := by
  induction l₁ generalizing a with
  | nil => exact ⟨fun hp => ⟨a, rfl, hp⟩, fun ⟨b, he, hp⟩ => he ▸ hp⟩
  | cons x l₁ ih =>
    constructor
    · rintro ⟨hx, hp⟩
      obtain ⟨b, hp₁, hp₂⟩ := ih.1 hp
      exact ⟨b, ⟨hx, hp₁⟩, hp₂⟩
    · rintro ⟨b, ⟨hx, hp₁⟩, hp₂⟩
      exact ⟨hx, ih.2 ⟨b, hp₁, hp₂⟩⟩

omit [DecidableEq A] in
/-- A path ends where it says. -/
theorem Path.ends (hp : Path h a l b) : (a :: l).dropLast ++ [b] = a :: l := by
  induction l generalizing a with
  | nil => cases hp; rfl
  | cons x l ih =>
    rw [List.dropLast_cons_of_ne_nil (List.cons_ne_nil x l), List.cons_append, ih hp.2]

omit [DecidableEq A] in
/-- A path reads `next` of all nodes but the last and `prev` of all but the first. -/
theorem Path.congr (hp : Path h a l b) (hnext : ∀ y ∈ (a :: l).dropLast, h'.next y = h.next y)
    (hprev : ∀ y ∈ l, h'.prev y = h.prev y) : Path h' a l b := by
  induction l generalizing a with
  | nil => exact hp
  | cons x l ih =>
    rw [List.dropLast_cons_of_ne_nil (List.cons_ne_nil x l)] at hnext
    refine ⟨⟨(hnext a List.mem_cons_self).trans hp.1.1, (hprev x List.mem_cons_self).trans hp.1.2⟩, ?_⟩
    exact ih hp.2 (fun y hy => hnext y (List.mem_cons_of_mem _ hy)) fun y hy => hprev y (List.mem_cons_of_mem _ hy)

/-- Two paths that have no node in common become one. -/
theorem Path.join (hp : Path h a l₁ p) (hn : Path h n l₂ b) (hfront : (a :: l₁ ++ (n :: l₂).dropLast).Nodup)
    (hback : (l₁ ++ n :: l₂).Nodup) : Path (h.link p n) a (l₁ ++ n :: l₂) b := by
  have hends := hp.ends
  have hpmem : p ∈ a :: l₁ := by rw [← hends]; exact List.mem_append_right _ (List.mem_singleton_self p)
  obtain ⟨hfront₁, -, hfront₂⟩ := List.nodup_append.1 hfront
  obtain ⟨-, hback₂, hback₃⟩ := List.nodup_append.1 hback
  have hpfirst : p ∉ (a :: l₁).dropLast := by
    rw [← hends, List.nodup_append] at hfront₁
    exact fun hmem => hfront₁.2.2 p hmem p (List.mem_singleton_self p) rfl
  refine path_append.2 ⟨p, hp.congr (fun y hy => ?_) fun y hy => ?_, linked_link h p n,
    hn.congr (fun y hy => ?_) fun y hy => ?_⟩
  · exact next_link_of_ne (ne_of_mem_of_not_mem hy hpfirst)
  · exact prev_link_of_ne (hback₃ y hy n List.mem_cons_self)
  · exact next_link_of_ne (hfront₂ p hpmem y hy).symm
  · exact prev_link_of_ne (ne_of_mem_of_not_mem hy (List.nodup_cons.1 hback₂).1)

/-! ## Rings -/

omit [DecidableEq A] in
theorem RingOf.congr (hr : RingOf h head l) (hnext : ∀ y ∈ head :: l, h'.next y = h.next y)
    (hprev : ∀ y ∈ head :: l, h'.prev y = h.prev y) : RingOf h' head l := by
  refine ⟨hr.nodup, hr.path.congr (fun y hy => hnext y ?_) fun y hy => hprev y ?_⟩
  · rw [← List.cons_append, List.dropLast_concat] at hy
    exact hy
  · rcases List.mem_append.1 hy with hy | hy
    · exact List.mem_cons_of_mem _ hy
    · rw [List.mem_singleton.1 hy]
      exact List.mem_cons_self

omit [DecidableEq A] in
/-- A ring opened at its head. -/
theorem RingOf.nodup_snoc (hr : RingOf h head l) : (l ++ [head]).Nodup :=
  (List.perm_append_singleton head l).nodup_iff.2 hr.nodup

theorem RingOf.single (h : Links A) (head : A) : RingOf (h.link head head) head [] :=
  ⟨List.nodup_singleton head, linked_link h head head, rfl⟩

omit [DecidableEq A] in
theorem RingOf.empty_iff (hr : RingOf h head l) : h.next head = head ↔ l = [] := by
  cases l with
  | nil => exact ⟨fun _ => rfl, fun _ => hr.path.1.1⟩
  | cons x l =>
    have hne : head ≠ x := fun he => (List.nodup_cons.1 hr.nodup).1 (he ▸ List.mem_cons_self)
    constructor
    · intro he
      exact absurd (he.symm.trans hr.path.1.1) hne
    · rintro ⟨⟩

omit [DecidableEq A] in
theorem RingOf.next_head (hr : RingOf h head (x :: l)) : h.next head = x := hr.path.1.1

omit [DecidableEq A] in
theorem RingOf.next_mem (hr : RingOf h head l) : h.next head ∈ head :: l := by
  cases l with
  | nil =>
    rw [hr.path.1.1]
    exact List.mem_cons_self
  | cons x l =>
    rw [hr.next_head]
    exact List.mem_cons_of_mem _ List.mem_cons_self

omit [DecidableEq A] in
theorem RingOf.prev_head (hr : RingOf h head l) : h.prev head ∈ head :: l := by
  obtain ⟨m, hfront, hm, -⟩ := path_append.1 hr.path
  rw [hm.2, ← hfront.ends]
  exact List.mem_append_right _ (List.mem_singleton_self m)

omit [DecidableEq A] in
/-- The neighbours of a node, and what is in front of it and behind it. -/
theorem RingOf.around (hr : RingOf h head (l₁ ++ x :: l₂)) :
    ∃ v, Path h head l₁ (h.prev x) ∧ Path h (h.next x) v head ∧ l₂ ++ [head] = h.next x :: v := by
  obtain ⟨m, hfront, hback⟩ := path_append.1 (by simpa using hr.path)
  obtain ⟨hx, hback⟩ := hback
  obtain ⟨y, v, hv⟩ := List.exists_cons_of_ne_nil (List.append_ne_nil_of_right_ne_nil l₂ (List.cons_ne_nil head []))
  rw [hv] at hback
  rw [hx.2, hback.1.1]
  exact ⟨v, hfront, hback.2, hv⟩

/-- Without `x`. -/
theorem RingOf.erase (hr : RingOf h head (l₁ ++ x :: l₂)) : RingOf (h.link (h.prev x) (h.next x)) head (l₁ ++ l₂) := by
  obtain ⟨v, hfront, hback, hv⟩ := hr.around
  have hsub : (l₁ ++ l₂).Sublist (l₁ ++ x :: l₂) := (List.sublist_cons_self x l₂).append_left l₁
  have hnodup : (head :: (l₁ ++ l₂)).Nodup := hr.nodup.sublist (hsub.cons_cons head)
  have hlast : (h.next x :: v).dropLast = l₂ := by rw [← hv, List.dropLast_concat]
  have hsnoc : (l₁ ++ l₂ ++ [head]).Nodup := hr.nodup_snoc.sublist (hsub.append_right [head])
  refine ⟨hnodup, ?_⟩
  rw [List.append_assoc] at hsnoc ⊢
  rw [hv] at hsnoc ⊢
  exact hfront.join hback (by rwa [hlast]) hsnoc

/-- With `x` between two neighbours. -/
theorem Path.insert (hp : Path h head l₁ p) (hn : Path h n l₂ head) (hl : l₁ ++ n :: l₂ = l ++ [head])
    (hnodup : (head :: l).Nodup) (hx : x ∉ head :: l) :
    Path ((h.link x n).link p x) head (l₁ ++ x :: n :: l₂) head := by
  have hfront : (head :: l₁ ++ (n :: l₂).dropLast).Nodup := by
    have he : head :: l₁ ++ (n :: l₂).dropLast = head :: l := by
      rw [List.cons_append, ← List.dropLast_append_of_ne_nil (List.cons_ne_nil n l₂), hl, List.dropLast_concat]
    rwa [he]
  have hback : (l₁ ++ n :: l₂).Nodup := by
    rw [hl]
    exact (List.perm_append_singleton head l).nodup_iff.2 hnodup
  have hxback : x ∉ l₁ ++ n :: l₂ := by
    rw [hl]
    exact fun hmem => hx ((List.perm_append_singleton head l).mem_iff.1 hmem)
  rw [List.mem_append, not_or] at hxback
  have hxhead : x ≠ head := fun he => hx (he ▸ List.mem_cons_self)
  have hnl : n ∉ l₁ := fun hmem => (List.nodup_append.1 hback).2.2 n hmem n List.mem_cons_self rfl
  have hxfirst : x ∉ (head :: l₁).dropLast := by
    intro hmem
    rcases List.mem_cons.1 (List.dropLast_subset _ hmem) with he | hmem
    · exact hxhead he
    · exact hxback.1 hmem
  -- The new node first gets its place in front of `n`, and then the path to `p` goes on to it.
  have hxn : Path (h.link x n) x (n :: l₂) head := by
    refine ⟨linked_link h x n, hn.congr (fun y hy => ?_) fun y hy => ?_⟩
    · exact next_link_of_ne (ne_of_mem_of_not_mem (List.dropLast_subset _ hy) hxback.2)
    · exact prev_link_of_ne (ne_of_mem_of_not_mem hy (List.nodup_cons.1 (List.nodup_append.1 hback).2.1).1)
  have hpx : Path (h.link x n) head l₁ p := by
    refine hp.congr (fun y hy => ?_) fun y hy => ?_
    · exact next_link_of_ne (ne_of_mem_of_not_mem hy hxfirst)
    · exact prev_link_of_ne (ne_of_mem_of_not_mem hy hnl)
  refine hpx.join hxn ?_ ?_
  · rw [List.dropLast_cons_of_ne_nil (List.cons_ne_nil n l₂)]
    refine (List.perm_middle.nodup_iff).2 (List.nodup_cons.2 ⟨?_, hfront⟩)
    rw [List.mem_append, List.mem_cons, not_or, not_or]
    exact ⟨⟨hxhead, hxback.1⟩, fun hmem => hxback.2 (List.dropLast_subset _ hmem)⟩
  · refine (List.perm_middle.nodup_iff).2 (List.nodup_cons.2 ⟨?_, hback⟩)
    rw [List.mem_append, not_or]
    exact hxback

/-- `x` becomes the first node. -/
theorem RingOf.insertFront (hr : RingOf h head l) (hx : x ∉ head :: l) :
    RingOf ((h.link x (h.next head)).link head x) head (x :: l) := by
  refine ⟨?_, ?_⟩
  · exact (List.Perm.swap x head l).nodup_iff.2 (List.nodup_cons.2 ⟨hx, hr.nodup⟩)
  · obtain ⟨y, v, hv⟩ := List.exists_cons_of_ne_nil (List.append_ne_nil_of_right_ne_nil l (List.cons_ne_nil head []))
    have hpath := hr.path
    rw [hv] at hpath
    have hhead : Path h head [] head := rfl
    have hnew := hhead.insert hpath.2 hv.symm hr.nodup hx
    rw [hpath.1.1, List.cons_append, hv]
    exact hnew

/-- `x` becomes the last node. -/
theorem RingOf.insertBack (hr : RingOf h head l) (hx : x ∉ head :: l) :
    RingOf ((h.link x head).link (h.prev head) x) head (l ++ [x]) := by
  refine ⟨?_, ?_⟩
  · rw [← List.cons_append]
    exact (List.perm_append_singleton x (head :: l)).nodup_iff.2 (List.nodup_cons.2 ⟨hx, hr.nodup⟩)
  · obtain ⟨m, hfront, hm, -⟩ := path_append.1 hr.path
    have hhead : Path h head [] head := rfl
    have hnew := hfront.insert hhead rfl hr.nodup hx
    rw [hm.2, List.append_assoc, List.singleton_append]
    exact hnew

omit [DecidableEq A] in
/-- Behind the first node comes what is first once that one has gone. -/
theorem RingOf.next_first (hr : RingOf h head (x :: l)) (hr' : RingOf h' head l) : h.next x = h'.next head := by
  cases l with
  | nil => rw [hr.path.2.1.1, hr'.path.1.1]
  | cons y l => rw [hr.path.2.1.1, hr'.path.1.1]

/-! ## Two rings -/

omit [DecidableEq A] in
/-- The neighbours of a node are in its ring. -/
theorem RingOf.neighbours (hr : RingOf h head (l₁ ++ x :: l₂)) :
    h.prev x ∈ head :: (l₁ ++ l₂) ∧ h.next x ∈ head :: (l₁ ++ l₂) := by
  obtain ⟨v, hfront, -, hv⟩ := hr.around
  constructor
  · have hmem : h.prev x ∈ head :: l₁ := by
      rw [← hfront.ends]
      exact List.mem_append_right _ (List.mem_singleton_self _)
    exact List.cons_subset_cons head (List.subset_append_left l₁ l₂) hmem
  · have hmem : h.next x ∈ l₂ ++ [head] := by
      rw [hv]
      exact List.mem_cons_self
    rcases List.mem_append.1 hmem with hmem | hmem
    · exact List.mem_cons_of_mem _ (List.mem_append_right _ hmem)
    · rw [List.mem_singleton.1 hmem]
      exact List.mem_cons_self

/-- `x` goes from one ring to the end of another. -/
theorem RingOf.move {head' : A} (hr : RingOf h head (l₁ ++ x :: l₂)) (hr' : RingOf h head' l)
    (hdisj : ∀ y ∈ head :: (l₁ ++ x :: l₂), y ∉ head' :: l) {h₁ : Links A}
    (hh₁ : h₁ = h.link (h.prev x) (h.next x)) :
    RingOf ((h₁.link x head').link (h₁.prev head') x) head (l₁ ++ l₂) ∧
      RingOf ((h₁.link x head').link (h₁.prev head') x) head' (l ++ [x]) := by
  subst hh₁
  have hsub : head :: (l₁ ++ l₂) ⊆ head :: (l₁ ++ x :: l₂) :=
    List.cons_subset_cons head ((List.sublist_cons_self x l₂).append_left l₁).subset
  have hx : x ∉ head' :: l := hdisj x (List.mem_cons_of_mem _ (List.mem_append_right _ List.mem_cons_self))
  have hxrest : x ∉ head :: (l₁ ++ l₂) := by
    have hperm : (head :: (l₁ ++ x :: l₂)).Perm (x :: head :: (l₁ ++ l₂)) :=
      (List.perm_middle.cons head).trans (List.Perm.swap x head _)
    exact (List.nodup_cons.1 (hperm.nodup_iff.1 hr.nodup)).1
  obtain ⟨hprev, hnext⟩ := hr.neighbours
  have hkept : RingOf (h.link (h.prev x) (h.next x)) head' l := by
    refine hr'.congr (fun y hy => ?_) fun y hy => ?_
    · exact next_link_of_ne fun he => hdisj _ (hsub hprev) (he ▸ hy)
    · exact prev_link_of_ne fun he => hdisj _ (hsub hnext) (he ▸ hy)
  refine ⟨hr.erase.congr (fun y hy => ?_) fun y hy => ?_, hkept.insertBack hx⟩
  · have hlast : (h.link (h.prev x) (h.next x)).prev head' ∈ head' :: l := hkept.prev_head
    have hne : y ≠ (h.link (h.prev x) (h.next x)).prev head' := by
      rintro rfl
      exact hdisj _ (hsub hy) hlast
    rw [next_link_of_ne hne, next_link_of_ne (ne_of_mem_of_not_mem hy hxrest)]
  · rw [prev_link_of_ne (ne_of_mem_of_not_mem hy hxrest)]
    exact prev_link_of_ne fun he => hdisj _ (hsub hy) (he ▸ List.mem_cons_self)

/-! ## Going round -/

/-- The nodes from `p` up to the head, if they are fewer than `fuel`. -/
def walk (h : Links A) (head : A) : Nat → A → Option (List A)
  | 0, _ => none
  | fuel + 1, p => if p = head then some [] else (walk h head fuel (h.next p)).map (p :: ·)

theorem walk_of_path (hp : Path h a (l ++ [head]) head) (hhead : head ∉ l) {fuel : Nat} (hfuel : l.length < fuel) :
    walk h head fuel (h.next a) = some l := by
  induction l generalizing a fuel with
  | nil =>
    obtain ⟨m, rfl⟩ := Nat.exists_eq_succ_of_ne_zero (Nat.ne_of_gt hfuel)
    rw [walk, if_pos hp.1.1]
  | cons x l ih =>
    obtain ⟨m, rfl⟩ := Nat.exists_eq_succ_of_ne_zero (Nat.ne_of_gt (Nat.lt_of_le_of_lt (Nat.zero_le _) hfuel))
    rw [List.mem_cons, not_or] at hhead
    rw [hp.1.1, walk, if_neg (Ne.symm hhead.1), ih hp.2 hhead.2 (Nat.lt_of_succ_lt_succ hfuel), Option.map_some]

theorem RingOf.walk_eq (hr : RingOf h head l) {fuel : Nat} (hfuel : l.length < fuel) :
    walk h head fuel (h.next head) = some l :=
  walk_of_path hr.path (List.nodup_cons.1 hr.nodup).1 hfuel

/-! ### Backwards -/

/-- The same nodes with the two pointers exchanged. -/
def Links.reverse (h : Links A) : Links A := ⟨h.prev, h.next⟩

omit [DecidableEq A] in
theorem Path.reverse (hp : Path h a l b) : Path h.reverse b (a :: l).dropLast.reverse a := by
  induction l generalizing a with
  | nil => exact hp.symm
  | cons x l ih =>
    rw [List.dropLast_cons_of_ne_nil (List.cons_ne_nil x l), List.reverse_cons]
    exact path_append.2 ⟨x, ih hp.2, ⟨hp.1.2, hp.1.1⟩, rfl⟩

omit [DecidableEq A] in
theorem RingOf.reverse (hr : RingOf h head l) : RingOf h.reverse head l.reverse := by
  have hpath := hr.path.reverse
  rw [← List.cons_append, List.dropLast_concat, List.reverse_cons] at hpath
  exact ⟨((List.reverse_perm l).cons head).nodup_iff.2 hr.nodup, hpath⟩

/-- The way over the previous nodes. -/
theorem RingOf.walk_back (hr : RingOf h head l) {fuel : Nat} (hfuel : l.length < fuel) :
    walk h.reverse head fuel (h.prev head) = some l.reverse :=
  hr.reverse.walk_eq (by rwa [List.length_reverse])

/-! ### Without end -/

/-- Where the way never comes to the head, it has no end. -/
theorem walk_none {S : A → Prop} (hhead : ¬ S head) (hnext : ∀ y, S y → S (h.next y)) (hp : S p) (fuel : Nat) :
    walk h head fuel p = none := by
  induction fuel generalizing p with
  | zero => rfl
  | succ fuel ih =>
    have hne : p ≠ head := by
      rintro rfl
      exact hhead hp
    rw [walk, if_neg hne, ih (hnext p hp), Option.map_none]

omit [DecidableEq A] in
/-- Along a path the way goes on inside it. -/
theorem Path.next_mem (hp : Path h a l b) (hy : y ∈ (a :: l).dropLast) : h.next y ∈ l := by
  induction l generalizing a with
  | nil => cases hy
  | cons x l ih =>
    rw [List.dropLast_cons_of_ne_nil (List.cons_ne_nil x l)] at hy
    rcases List.mem_cons.1 hy with rfl | hy
    · rw [hp.1.1]
      exact List.mem_cons_self
    · exact List.mem_cons_of_mem _ (ih hp.2 hy)

/-- A node that is put in front again cuts the head off: the way turns in the nodes up to it. -/
theorem RingOf.insertFront_again (hr : RingOf h head (l₁ ++ x :: l₂)) (fuel : Nat) :
    walk ((h.link x (h.next head)).link head x) head fuel
      (((h.link x (h.next head)).link head x).next head) = none := by
  have hpath := hr.path
  rw [List.append_assoc] at hpath
  obtain ⟨m, hfront, hm, -⟩ := path_append.1 hpath
  have hwhole : Path h head (l₁ ++ [x]) x := path_append.2 ⟨m, hfront, hm, rfl⟩
  have hnodup := hr.nodup
  rw [List.nodup_cons, List.mem_append, not_or, List.mem_cons, not_or] at hnodup
  obtain ⟨⟨hhead₁, hheadx, -⟩, hnodup⟩ := hnodup
  have hx₁ : x ∉ l₁ := fun hmem => (List.nodup_append.1 hnodup).2.2 x hmem x List.mem_cons_self rfl
  have hS : head ∉ l₁ ++ [x] := by
    rw [List.mem_append, List.mem_singleton, not_or]
    exact ⟨hhead₁, hheadx⟩
  refine walk_none (S := fun y => y ∈ l₁ ++ [x]) hS (fun y hy => ?_) ?_ fuel
  · have hne : y ≠ head := ne_of_mem_of_not_mem hy hS
    rw [next_link_of_ne hne]
    rcases List.mem_append.1 hy with hy | hy
    · rw [next_link_of_ne (ne_of_mem_of_not_mem hy hx₁)]
      refine hwhole.next_mem ?_
      rw [← List.cons_append, List.dropLast_concat]
      exact List.mem_cons_of_mem _ hy
    · obtain rfl := List.mem_singleton.1 hy
      rw [next_link, Function.update_self]
      refine hwhole.next_mem ?_
      rw [← List.cons_append, List.dropLast_concat]
      exact List.mem_cons_self
  · rw [next_link, Function.update_self]
    exact List.mem_append_right _ (List.mem_singleton_self x)

end StreamLib.Circular
