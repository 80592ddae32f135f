import CmdAgent.StreamLib.Circular
/-!
# `list.h`

A `struct list_head` is a node of `Links`. The functions write its fields in the order
of the source. A loop over a list is given fuel; `none` is a loop that goes on.
-/
open StreamLib.Circular

namespace CmdAgent

variable {A σ : Type} [DecidableEq A]

/-! ## The functions -/

/-- `INIT_LIST_HEAD` -/
def initListHead (h : Links A) (list : A) : Links A := (h.setNext list list).setPrev list list

/-- `__list_add` -/
def listAddBetween (h : Links A) (new prev next : A) : Links A :=
  (((h.setPrev next new).setNext new next).setPrev new prev).setNext prev new

def listAdd (h : Links A) (new head : A) : Links A := listAddBetween h new head (h.next head)

def listAddTail (h : Links A) (new head : A) : Links A := listAddBetween h new (h.prev head) head

/-- `__list_del` -/
def listDelBetween (h : Links A) (prev next : A) : Links A := (h.setPrev next prev).setNext prev next

/-- `list_del`, with `LIST_POISON1` and `LIST_POISON2`. -/
def listDel (poison1 poison2 : A) (h : Links A) (entry : A) : Links A :=
  ((listDelBetween h (h.prev entry) (h.next entry)).setNext entry poison1).setPrev entry poison2

def listMoveTail (h : Links A) (list head : A) : Links A :=
  listAddTail (listDelBetween h (h.prev list) (h.next list)) list head

def listEmpty (h : Links A) (head : A) : Bool := h.next head = head

/-- `list_for_each` from `pos` on. The body says whether the loop goes on. -/
def listForEach (links : σ → Links A) (body : σ → A → σ × Bool) (head : A) : Nat → σ → A → Option σ
  | 0, _, _ => none
  | fuel + 1, s, pos =>
    if pos = head then some s
    else
      let r := body s pos
      if r.2 then listForEach links body head fuel r.1 ((links r.1).next pos) else some r.1

/-- `list_for_each_entry_safe` from `pos` on: the node behind `pos` is read before the body
runs. -/
def listForEachSafe (links : σ → Links A) (body : σ → A → σ × Bool) (head : A) : Nat → σ → A → Option σ
  | 0, _, _ => none
  | fuel + 1, s, pos =>
    if pos = head then some s
    else
      let n := (links s).next pos
      let r := body s pos
      if r.2 then listForEachSafe links body head fuel r.1 n else some r.1

/-! ## What they do to a list -/

variable {h : Links A} {head head' x : A} {l l' l₁ l₂ : List A}

theorem initListHead_ring (h : Links A) (head : A) : RingOf (initListHead h head) head [] := RingOf.single h head

theorem listAdd_ring (hr : RingOf h head l) (hx : x ∉ head :: l) : RingOf (listAdd h x head) head (x :: l) :=
  hr.insertFront hx

/-- A list that does not have `x` keeps its nodes. -/
theorem initListHead_other (hr : RingOf h head l) (hx : x ∉ head :: l) : RingOf (initListHead h x) head l := by
  refine hr.congr (fun y hy => ?_) fun y hy => ?_
  · exact Function.update_of_ne (ne_of_mem_of_not_mem hy hx) _ _
  · exact Function.update_of_ne (ne_of_mem_of_not_mem hy hx) _ _

/-- Adding to another list leaves a list as it is. -/
theorem listAdd_other (hr : RingOf h head l) (hr' : RingOf h head' l') (hdisj : ∀ y ∈ head' :: l', y ∉ head :: l)
    (hx : x ∉ head' :: l') : RingOf (listAdd h x head) head' l' := by
  have hnext := hr.next_mem
  refine hr'.congr (fun y hy => ?_) fun y hy => ?_
  · have hne : y ≠ head := fun he => hdisj y hy (he ▸ List.mem_cons_self)
    exact (next_link_of_ne hne).trans (next_link_of_ne (ne_of_mem_of_not_mem hy hx))
  · have hne : y ≠ h.next head := by
      rintro rfl
      exact hdisj _ hy hnext
    exact (prev_link_of_ne (ne_of_mem_of_not_mem hy hx)).trans (prev_link_of_ne hne)

theorem listMoveTail_ring (hr : RingOf h head (l₁ ++ x :: l₂)) (hr' : RingOf h head' l)
    (hdisj : ∀ y ∈ head :: (l₁ ++ x :: l₂), y ∉ head' :: l) :
    RingOf (listMoveTail h x head') head (l₁ ++ l₂) ∧ RingOf (listMoveTail h x head') head' (l ++ [x]) :=
  hr.move hr' hdisj rfl

theorem listDel_ring (poison1 poison2 : A) (hr : RingOf h head (l₁ ++ x :: l₂)) :
    RingOf (listDel poison1 poison2 h x) head (l₁ ++ l₂) := by
  have hx : x ∉ head :: (l₁ ++ l₂) := by
    have hperm : (head :: (l₁ ++ x :: l₂)).Perm (x :: head :: (l₁ ++ l₂)) :=
      (List.perm_middle.cons head).trans (List.Perm.swap x head _)
    exact (List.nodup_cons.1 (hperm.nodup_iff.1 hr.nodup)).1
  have herase : RingOf (listDelBetween h (h.prev x) (h.next x)) head (l₁ ++ l₂) := hr.erase
  refine herase.congr (fun y hy => ?_) fun y hy => ?_
  · exact Function.update_of_ne (ne_of_mem_of_not_mem hy hx) _ _
  · exact Function.update_of_ne (ne_of_mem_of_not_mem hy hx) _ _

theorem listEmpty_ring (hr : RingOf h head l) : listEmpty h head = l.isEmpty := by
  rw [Bool.eq_iff_iff, listEmpty, decide_eq_true_iff, hr.empty_iff, List.isEmpty_iff]

/-- A body run over nodes until it says to stop. -/
def runOver (body : σ → A → σ × Bool) : σ → List A → σ
  | s, [] => s
  | s, a :: l =>
    let r := body s a
    if r.2 then runOver body r.1 l else r.1

/-- A loop whose body leaves the list alone runs over its nodes. -/
theorem listForEach_eq {links : σ → Links A} {body : σ → A → σ × Bool} (hkeep : ∀ s a, links (body s a).1 = links s)
    {s : σ} {a : A} (hpath : Path (links s) a (l ++ [head]) head) (hhead : head ∉ l) {fuel : Nat}
    (hfuel : l.length < fuel) :
    listForEach links body head fuel s ((links s).next a) = some (runOver body s l) := by
  induction l generalizing s a fuel with
  | nil =>
    obtain ⟨m, rfl⟩ := Nat.exists_eq_succ_of_ne_zero (Nat.ne_of_gt hfuel)
    rw [listForEach, if_pos hpath.1.1]
    rfl
  | cons x l ih =>
    obtain ⟨m, rfl⟩ := Nat.exists_eq_succ_of_ne_zero (Nat.ne_of_gt (Nat.lt_of_le_of_lt (Nat.zero_le _) hfuel))
    rw [List.mem_cons, not_or] at hhead
    rw [hpath.1.1, listForEach, if_neg (Ne.symm hhead.1), runOver]
    dsimp only
    split
    · have hrest : Path (links (body s x).1) x (l ++ [head]) head := by
        rw [hkeep]
        exact hpath.2
      exact ih hrest hhead.2 (Nat.lt_of_succ_lt_succ hfuel)
    · rfl

/-- A loop that leaves the list alone and does not stop ends just where the way comes back. -/
theorem listForEach_none_iff (links : σ → Links A) (body : σ → A → σ × Bool)
    (hkeep : ∀ s a, links (body s a).1 = links s) (hgo : ∀ s a, (body s a).2 = true) (fuel : Nat) (s : σ) (pos : A) :
    listForEach links body head fuel s pos = none ↔ walk (links s) head fuel pos = none := by
  induction fuel generalizing s pos with
  | zero => exact ⟨fun _ => rfl, fun _ => rfl⟩
  | succ fuel ih =>
    rw [walk, listForEach]
    by_cases hp : pos = head
    · rw [if_pos hp, if_pos hp]
      simp only [reduceCtorEq]
    · rw [if_neg hp, if_neg hp, Option.map_eq_none_iff]
      dsimp only
      rw [if_pos (hgo s pos), ih, hkeep]

/-- A loop that stops at the first node of a kind and until then does nothing. -/
theorem listForEachSafe_find {links : σ → Links A} {body : σ → A → σ × Bool} {s : σ} {p : A → Bool} {f : A → σ}
    (hbody : ∀ x, body s x = if p x then (f x, false) else (s, true)) {a : A}
    (hpath : Path (links s) a (l ++ [head]) head) (hhead : head ∉ l) {fuel : Nat} (hfuel : l.length < fuel) :
    listForEachSafe links body head fuel s ((links s).next a) = some ((l.find? p).elim s f) := by
  induction l generalizing a fuel with
  | nil =>
    obtain ⟨m, rfl⟩ := Nat.exists_eq_succ_of_ne_zero (Nat.ne_of_gt hfuel)
    rw [listForEachSafe, if_pos hpath.1.1]
    rfl
  | cons x l ih =>
    obtain ⟨m, rfl⟩ := Nat.exists_eq_succ_of_ne_zero (Nat.ne_of_gt (Nat.lt_of_le_of_lt (Nat.zero_le _) hfuel))
    rw [List.mem_cons, not_or] at hhead
    rw [hpath.1.1, listForEachSafe, if_neg (Ne.symm hhead.1), hbody, List.find?_cons]
    cases hx : p x with
    | true => rfl
    | false => exact ih hpath.2 hhead.2 (Nat.lt_of_succ_lt_succ hfuel)

end CmdAgent
