import Mathlib.Data.List.Perm.Basic
import Mathlib.Tactic.Common
/-!
# Lifetimes of objects

Objects are numbered as they are made. The log keeps what is done with them: each
is made, passed to calls and freed. `Owns` says that nothing happens to an object
after it has been freed, and that the objects in hand are those that have not been.
-/

namespace StreamLib.Lifetime

/-- An object is made, passed to a call or freed. -/
inductive Act where
  | new (obj : Nat)
  | use (obj : Nat)
  | free (obj : Nat)
  deriving DecidableEq

/-- The object it is done to. -/
def Act.obj : Act → Nat
  | .new obj | .use obj | .free obj => obj

/-- The number of the next object, and all that has been done. -/
structure Heap where
  next : Nat
  log : List Act
  deriving DecidableEq

/-- Nothing is done with an object after it has been freed. -/
def Once (log : List Act) : Prop := log.Pairwise fun a b => a = .free a.obj → b.obj ≠ a.obj

instance (log : List Act) : Decidable (Once log) :=
  inferInstanceAs (Decidable (log.Pairwise fun a b => a = .free a.obj → b.obj ≠ a.obj))

theorem once_snoc {log : List Act} {a : Act} : Once (log ++ [a]) ↔ Once log ∧ .free a.obj ∉ log := by
  unfold Once
  rw [List.pairwise_append]
  constructor
  · rintro ⟨hlog, -, hlast⟩
    refine ⟨hlog, fun hmem => ?_⟩
    exact hlast _ hmem a (List.mem_singleton_self a) rfl rfl
  · rintro ⟨hlog, hfree⟩
    refine ⟨hlog, List.pairwise_singleton _ _, ?_⟩
    intro b hmem c hc hb he
    rw [List.mem_singleton.1 hc] at he
    rw [hb, ← he] at hmem
    exact hfree hmem

theorem Once.left {log log' : List Act} (h : Once (log ++ log')) : Once log := (List.pairwise_append.1 h).1

/-- The object has been made and not been freed. -/
def LiveIn (log : List Act) (obj : Nat) : Prop := .new obj ∈ log ∧ .free obj ∉ log

instance (log : List Act) (obj : Nat) : Decidable (LiveIn log obj) := inferInstanceAs (Decidable (_ ∧ _))

/-- Never more than one object was live. -/
def Single (log : List Act) : Prop := ∀ past, past <+: log → ∀ a b, LiveIn past a → LiveIn past b → a = b

theorem single_nil : Single [] := by
  rintro past hpast a b ⟨hnew, -⟩
  cases List.prefix_nil.1 hpast
  cases hnew

theorem Single.snoc {log : List Act} {act : Act} (h : Single log)
    (hlast : ∀ a b, LiveIn (log ++ [act]) a → LiveIn (log ++ [act]) b → a = b) : Single (log ++ [act]) := by
  intro past hpast
  rcases List.prefix_concat_iff.1 hpast with rfl | hpast
  · exact hlast
  · exact h past hpast

/-- Nothing is freed twice. -/
theorem Once.count_free {log : List Act} (h : Once log) (obj : Nat) : log.count (.free obj) ≤ 1 := by
  induction log with
  | nil => simp
  | cons a log ih =>
    obtain ⟨hhead, htail⟩ := List.pairwise_cons.1 h
    rw [List.count_cons]
    by_cases ha : a = .free obj
    · subst ha
      have hnot : .free obj ∉ log := fun hmem => hhead _ hmem rfl rfl
      simp [List.count_eq_zero.2 hnot]
    · simpa [ha] using ih htail

namespace Heap

/-- Nothing has been made. -/
def empty : Heap := ⟨0, []⟩

/-- The object made is `next`. -/
def new (heap : Heap) : Heap := ⟨heap.next + 1, heap.log ++ [.new heap.next]⟩

/-- The object is passed to a call. -/
def use (heap : Heap) (obj : Nat) : Heap := { heap with log := heap.log ++ [.use obj] }

/-- The object is freed. -/
def free (heap : Heap) (obj : Nat) : Heap := { heap with log := heap.log ++ [.free obj] }

/-! A pointer is the number of an object, or `none` for a null pointer. -/

/-- An allocation, with the pointer it returns. -/
def make (heap : Heap) (ok : Bool) : Option Nat × Heap := if ok then (some heap.next, heap.new) else (none, heap)

/-- A call that is made only if the pointer is not null. -/
def useAt (heap : Heap) : Option Nat → Heap
  | none => heap
  | some obj => heap.use obj

/-- One call after the other. -/
def useAll (heap : Heap) (objs : List Nat) : Heap := objs.foldl use heap

/-- What a pointer that is not null points to is freed. -/
def freeAt (heap : Heap) : Option Nat → Heap
  | none => heap
  | some obj => heap.free obj

theorem next_useAll (heap : Heap) (objs : List Nat) : (heap.useAll objs).next = heap.next := by
  induction objs generalizing heap with
  | nil => rfl
  | cons obj objs ih => exact ih (heap.use obj)

theorem log_freeAt (heap : Heap) (ptr : Option Nat) : ∃ acts, (heap.freeAt ptr).log = heap.log ++ acts := by
  cases ptr with
  | none => exact ⟨[], (List.append_nil _).symm⟩
  | some obj => exact ⟨_, rfl⟩

/-- `held` are the objects that have been made and not been freed, and none is touched after
it has been freed. -/
structure Owns (heap : Heap) (held : List Nat) : Prop where
  past : ∀ a ∈ heap.log, a.obj < heap.next
  once : Once heap.log
  nodup : held.Nodup
  live : ∀ obj, obj ∈ held ↔ .new obj ∈ heap.log ∧ .free obj ∉ heap.log

theorem not_once_free {heap : Heap} {obj : Nat} (h : .free obj ∈ heap.log) : ¬ Once (heap.free obj).log :=
  fun hc => (once_snoc.1 hc).2 h

namespace Owns
variable {heap : Heap} {held held' : List Nat} {obj : Nat}

theorem empty : Heap.empty.Owns [] where
  past := nofun
  once := List.Pairwise.nil
  nodup := List.nodup_nil
  live := by simp [Heap.empty]

theorem perm (h : heap.Owns held) (hp : held.Perm held') : heap.Owns held' where
  past := h.past
  once := h.once
  nodup := hp.nodup_iff.1 h.nodup
  live := fun obj => hp.mem_iff.symm.trans (h.live obj)

theorem not_freed (h : heap.Owns held) (hobj : obj ∈ held) : .free obj ∉ heap.log := ((h.live obj).1 hobj).2

theorem lt_next (h : heap.Owns held) (hobj : obj ∈ held) : obj < heap.next := h.past _ ((h.live obj).1 hobj).1

/-- What has been made is in hand or has been freed once. -/
theorem freed_once (h : heap.Owns held) (hnew : .new obj ∈ heap.log) (hobj : obj ∉ held) :
    heap.log.count (.free obj) = 1 := by
  apply Nat.le_antisymm (h.once.count_free obj)
  apply List.count_pos_iff.2
  by_contra hfree
  exact hobj ((h.live obj).2 ⟨hnew, hfree⟩)

theorem new (h : heap.Owns held) : heap.new.Owns (heap.next :: held) where
  past := by
    intro a hmem
    rcases List.mem_append.1 hmem with hmem | hmem
    · exact Nat.lt_succ_of_lt (h.past a hmem)
    · rw [List.mem_singleton.1 hmem]
      exact Nat.lt_succ_self _
  once := once_snoc.2 ⟨h.once, fun hmem => Nat.lt_irrefl _ (h.past _ hmem)⟩
  nodup := List.nodup_cons.2 ⟨fun hmem => Nat.lt_irrefl _ (h.lt_next hmem), h.nodup⟩
  live := by
    intro obj
    have hfresh : .free heap.next ∉ heap.log := fun hmem => Nat.lt_irrefl _ (h.past _ hmem)
    simp only [Heap.new, List.mem_cons, List.mem_append, h.live, Act.new.injEq, List.not_mem_nil, or_false,
      reduceCtorEq]
    constructor
    · rintro (rfl | ⟨hnew, hfree⟩)
      · exact ⟨.inr rfl, hfresh⟩
      · exact ⟨.inl hnew, hfree⟩
    · rintro ⟨hnew | rfl, hfree⟩
      · exact .inr ⟨hnew, hfree⟩
      · exact .inl rfl

theorem use (h : heap.Owns held) (hobj : obj ∈ held) : (heap.use obj).Owns held where
  past := by
    intro a hmem
    rcases List.mem_append.1 hmem with hmem | hmem
    · exact h.past a hmem
    · rw [List.mem_singleton.1 hmem]
      exact h.lt_next hobj
  once := once_snoc.2 ⟨h.once, h.not_freed hobj⟩
  nodup := h.nodup
  live := by simp [Heap.use, h.live]

theorem free (h : heap.Owns (obj :: held)) : (heap.free obj).Owns held where
  past := by
    intro a hmem
    rcases List.mem_append.1 hmem with hmem | hmem
    · exact h.past a hmem
    · rw [List.mem_singleton.1 hmem]
      exact h.lt_next List.mem_cons_self
  once := once_snoc.2 ⟨h.once, h.not_freed List.mem_cons_self⟩
  nodup := (List.nodup_cons.1 h.nodup).2
  live := by
    intro other
    have hl := h.live other
    have hout := (List.nodup_cons.1 h.nodup).1
    simp only [Heap.free, List.mem_cons, List.mem_append, Act.free.injEq, List.not_mem_nil, or_false,
      reduceCtorEq] at hl ⊢
    constructor
    · intro hmem
      have hne : other ≠ obj := fun he => hout (he ▸ hmem)
      obtain ⟨hnew, hfree⟩ := hl.1 (.inr hmem)
      exact ⟨hnew, fun hc => hc.elim hfree hne⟩
    · rintro ⟨hnew, hfree⟩
      rcases hl.2 ⟨hnew, fun hc => hfree (.inl hc)⟩ with he | hmem
      · exact absurd (.inr he) hfree
      · exact hmem

theorem useAt (h : heap.Owns held) (ptr : Option Nat) (hptr : ∀ obj ∈ ptr, obj ∈ held) : (heap.useAt ptr).Owns held := by
  cases ptr with
  | none => exact h
  | some obj => exact h.use (hptr obj rfl)

theorem useAll (h : heap.Owns held) {objs : List Nat} (hobjs : ∀ obj ∈ objs, obj ∈ held) : (heap.useAll objs).Owns held := by
  induction objs generalizing heap with
  | nil => exact h
  | cons obj objs ih =>
    exact ih (h.use (hobjs obj List.mem_cons_self)) fun other hmem => hobjs other (List.mem_cons_of_mem obj hmem)

theorem freeAt {ptr : Option Nat} (h : heap.Owns (ptr.toList ++ held)) : (heap.freeAt ptr).Owns held := by
  cases ptr with
  | none => exact h
  | some obj => exact h.free

theorem make (h : heap.Owns held) (ok : Bool) : (heap.make ok).2.Owns ((heap.make ok).1.toList ++ held) := by
  cases ok with
  | false => exact h
  | true => exact h.new

theorem unique (ptr : Option Nat) {a b : Nat} (h : heap.Owns ptr.toList) (ha : LiveIn heap.log a) (hb : LiveIn heap.log b) :
    a = b := by
  have ha' := Option.mem_toList.1 ((h.live a).2 ha)
  have hb' := Option.mem_toList.1 ((h.live b).2 hb)
  exact Option.some.inj (ha'.symm.trans hb')

end Owns

/-! ### One object at a time -/

/-- What `ptr` points to is the one object that is live, and there never were two. -/
structure Holds (heap : Heap) (ptr : Option Nat) : Prop where
  owns : heap.Owns ptr.toList
  single : Single heap.log

namespace Holds
variable {heap : Heap} {ptr : Option Nat} {obj : Nat}

theorem empty : Heap.empty.Holds none := ⟨Owns.empty, single_nil⟩

theorem new (h : heap.Holds none) : heap.new.Holds (some heap.next) :=
  ⟨h.owns.new, h.single.snoc fun _ _ => Owns.unique (some heap.next) h.owns.new⟩

theorem use (h : heap.Holds (some obj)) : (heap.use obj).Holds (some obj) :=
  have howns := h.owns.use (List.mem_singleton_self obj)
  ⟨howns, h.single.snoc fun _ _ => Owns.unique (some obj) howns⟩

theorem free (h : heap.Holds (some obj)) : (heap.free obj).Holds none :=
  have howns := h.owns.free
  ⟨howns, h.single.snoc fun _ _ => Owns.unique none howns⟩

theorem freeAt (h : heap.Holds ptr) : (heap.freeAt ptr).Holds none := by
  cases ptr with
  | none => exact h
  | some obj => exact h.free

theorem lt_next (h : heap.Holds (some obj)) : obj < heap.next := h.owns.lt_next (List.mem_singleton_self obj)

end Holds

end Heap

end StreamLib.Lifetime
