import Mathlib.Data.List.Nodup
import Mathlib.Data.List.Perm.Basic
import CmdAgent.StreamLib.Runs
/-!
# `memcache.c`

The free objects are in a list and are counted on the side. `alloc_memcache` and
`free_memcache` change both alike, so nothing is lost exactly where the two agree from
the start; `create_memcache` fills the list and leaves the count at 0.
-/
open StreamLib.Runs

namespace CmdAgent

/-! ## The code -/

/-- `sizeof(struct memcache_object)` -/
def memcacheObjectSize : Nat := 24

/-- Where `block` is in `struct memcache_object`. -/
def memcacheObjectBlock : Nat := 16

structure Memcache where
  /-- The address of `unused_list`. -/
  unusedList : Nat
  /-- The addresses of the objects in it. -/
  unused : List Nat
  unusedCount : UInt32
  count : UInt32

/-- `create_memcache` where nothing fails, with the memory for the objects at `mem`. The
memory has been allocated, so no address in it wraps around. -/
def createMemcache (unusedList mem sz : Nat) (count : UInt32) : Memcache where
  unusedList := unusedList
  -- `list_add` puts each object in front of the earlier ones.
  unused := ((List.range count.toNat).map fun i => mem + i * (sz + memcacheObjectSize)).reverse
  unusedCount := 0
  count := count

/-- `none` is `NULL`. -/
def allocMemcache (mc : Memcache) : Option Nat × Memcache :=
  if mc.unusedCount ≠ 0 then
    -- The `next` of an empty list is the list itself.
    let mo := mc.unused.headD mc.unusedList
    (some (mo + memcacheObjectBlock), { mc with unused := mc.unused.tail, unusedCount := mc.unusedCount - 1 })
  else (none, mc)

def freeMemcache (mc : Memcache) (block : Nat) : Memcache :=
  { mc with unused := (block - memcacheObjectBlock) :: mc.unused, unusedCount := mc.unusedCount + 1 }

def getMemcacheCount (mc : Memcache) : UInt32 := mc.unusedCount

/-! ## The system -/

/-- A cache and the blocks that are handed out. -/
structure Cache where
  mc : Memcache
  out : List Nat

inductive CacheEv where
  | alloc
  | free (block : Nat)

namespace Cache

def create (unusedList mem sz : Nat) (count : UInt32) : Cache := ⟨createMemcache unusedList mem sz count, []⟩

/-- `none` where the block is not handed out. -/
def step (c : Cache) : CacheEv → Option Cache
  | .alloc => some ⟨(allocMemcache c.mc).2, (allocMemcache c.mc).1.toList ++ c.out⟩
  | .free block => if block ∈ c.out then some ⟨freeMemcache c.mc block, c.out.erase block⟩ else none

/-- Every object is counted as free or is handed out. -/
def Conserves (c : Cache) : Prop := (getMemcacheCount c.mc).toNat + c.out.length = c.mc.count.toNat

/-- A block is handed out while there are any, and none is handed out twice. -/
def Serves (c : Cache) : CacheEv → Prop
  | .alloc => ((allocMemcache c.mc).1.isSome ↔ c.out.length < c.mc.count.toNat) ∧
      ∀ block ∈ (allocMemcache c.mc).1, block ∉ c.out
  | .free _ => True

/-- The blocks of the free objects. -/
def free (c : Cache) : List Nat := c.mc.unused.map (· + memcacheObjectBlock)

/-- Every object is in the list or is handed out. -/
structure Whole (c : Cache) : Prop where
  nodup : (c.free ++ c.out).Nodup
  length : c.mc.unused.length + c.out.length = c.mc.count.toNat
  /-- A block has its object in front of it. -/
  object : ∀ block ∈ c.out, memcacheObjectBlock ≤ block

/-- The list and the count agree. -/
def Agrees (c : Cache) : Prop := c.mc.unusedCount.toNat = c.mc.unused.length

/-! ## Steps -/

variable {c c' : Cache}

theorem Whole.conserves_iff (h : c.Whole) : c.Conserves ↔ c.Agrees := by
  unfold Conserves Agrees getMemcacheCount
  rw [← h.length]
  exact Nat.add_right_cancel_iff

/-- What `alloc_memcache` does where the list and the count agree. -/
theorem Agrees.alloc (h : c.Agrees) :
    (c.mc.unused = [] ∧ allocMemcache c.mc = (none, c.mc)) ∨
      ∃ mo rest, c.mc.unused = mo :: rest ∧ allocMemcache c.mc =
        (some (mo + memcacheObjectBlock), { c.mc with unused := rest, unusedCount := c.mc.unusedCount - 1 }) := by
  unfold Agrees at h
  unfold allocMemcache
  cases hu : c.mc.unused with
  | nil =>
    rw [hu] at h
    have hzero : c.mc.unusedCount = 0 := UInt32.toNat_inj.1 h
    exact .inl ⟨rfl, by simp [hzero]⟩
  | cons mo rest =>
    rw [hu] at h
    have hpos : c.mc.unusedCount ≠ 0 := fun hz => by simp [hz] at h
    exact .inr ⟨mo, rest, rfl, by simp [hpos]⟩

theorem serves_of_agrees (hw : c.Whole) (ha : c.Agrees) (ev : CacheEv) : c.Serves ev := by
  cases ev with
  | free => trivial
  | alloc =>
    have hlen := hw.length
    have hnodup := hw.nodup
    unfold Serves
    rcases ha.alloc with ⟨hu, halloc⟩ | ⟨mo, rest, hu, halloc⟩
    · rw [hu, List.length_nil] at hlen
      rw [halloc]
      exact ⟨by simp [← hlen], by simp⟩
    · rw [hu, List.length_cons] at hlen
      rw [free, hu, List.map_cons, List.cons_append, List.nodup_cons, List.mem_append, not_or] at hnodup
      rw [halloc]
      refine ⟨by simp; omega, ?_⟩
      rintro block ⟨⟩
      exact hnodup.1.2

theorem whole_alloc (hw : c.Whole) (ha : c.Agrees) {mo : Nat} {rest : List Nat} (hu : c.mc.unused = mo :: rest) :
    let mc : Memcache := { c.mc with unused := rest, unusedCount := c.mc.unusedCount - 1 }
    Whole ⟨mc, (mo + memcacheObjectBlock) :: c.out⟩ ∧ Agrees ⟨mc, (mo + memcacheObjectBlock) :: c.out⟩ := by
  obtain ⟨hnodup, hlen, hobj⟩ := hw
  rw [free, hu, List.map_cons, List.cons_append] at hnodup
  rw [hu, List.length_cons] at hlen
  unfold Agrees at ha
  rw [hu, List.length_cons] at ha
  refine ⟨⟨List.perm_middle.nodup_iff.2 hnodup, ?_, ?_⟩, ?_⟩
  · simp only [List.length_cons]
    omega
  · exact List.forall_mem_cons.2 ⟨Nat.le_add_left _ mo, hobj⟩
  · have hle : (1 : UInt32) ≤ c.mc.unusedCount := UInt32.le_iff_toNat_le.2 (by rw [ha]; exact Nat.le_add_left 1 _)
    simp only [Agrees]
    rw [UInt32.toNat_sub_of_le _ _ hle, ha]
    rfl

theorem whole_free (hw : c.Whole) (ha : c.Agrees) {block : Nat} (hmem : block ∈ c.out) :
    Whole ⟨freeMemcache c.mc block, c.out.erase block⟩ ∧ Agrees ⟨freeMemcache c.mc block, c.out.erase block⟩ := by
  obtain ⟨hnodup, hlen, hobj⟩ := hw
  have hpos := List.length_pos_of_mem hmem
  have hperm : (c.free ++ c.out).Perm (block :: (c.free ++ c.out.erase block)) :=
    ((List.perm_cons_erase hmem).append_left _).trans List.perm_middle
  have hblock : block - memcacheObjectBlock + memcacheObjectBlock = block := Nat.sub_add_cancel (hobj block hmem)
  refine ⟨⟨?_, ?_, fun other hother => hobj other (List.mem_of_mem_erase hother)⟩, ?_⟩
  · simp only [free, freeMemcache, List.map_cons, hblock]
    exact hperm.nodup_iff.1 hnodup
  · simp only [freeMemcache, List.length_cons, List.length_erase_of_mem hmem]
    omega
  · have hbound := c.mc.count.toNat_lt
    unfold Agrees at ha
    simp only [Agrees, freeMemcache, List.length_cons]
    rw [UInt32.toNat_add, ha]
    exact Nat.mod_eq_of_lt (by change c.mc.unused.length + 1 < 2 ^ 32; omega)

/-- A step keeps every object, and the agreement of the list and the count. -/
theorem step_keeps (s : Cache) (ev : CacheEv) (t : Cache) (h : s.Whole ∧ s.Agrees) (hst : s.step ev = some t) :
    t.Whole ∧ t.Agrees := by
  obtain ⟨hw, ha⟩ := h
  cases ev with
  | alloc =>
    cases hst
    rcases ha.alloc with ⟨-, halloc⟩ | ⟨mo, rest, hu, halloc⟩
    · rw [halloc]
      exact ⟨hw, ha⟩
    · rw [halloc]
      exact whole_alloc hw ha hu
  | free block =>
    obtain ⟨hmem, hst⟩ := Option.ite_none_right_eq_some.1 hst
    cases hst
    exact whole_free hw ha hmem

/-! ## Runs -/

/-- In a cache with all its objects, none is lost in a run exactly where the list and the
count agree at its start. -/
theorem conserves_iff (hw : c.Whole) (evs : List CacheEv) :
    Throughout step Conserves c evs ∧ Along step Serves c evs ↔ c.Agrees := by
  have hall : Along step (fun _ _ => True) c evs := along_of_forall (fun _ _ => trivial) c evs
  have hkeeps : ∀ s ev t, s.Whole ∧ s.Agrees → True → step s ev = some t → t.Whole ∧ t.Agrees :=
    fun s ev t h _ hst => step_keeps s ev t h hst
  constructor
  · rintro ⟨hc, -⟩
    exact hw.conserves_iff.1 ((throughout_iff c evs).1 hc [] List.nil_prefix c rfl)
  · intro ha
    refine ⟨(throughout_iff c evs).2 ?_, along_inv hkeeps (fun s ev h _ => serves_of_agrees h.1 h.2 ev) ⟨hw, ha⟩ hall⟩
    intro pre _ t ht
    obtain ⟨hwt, hat⟩ := exec_inv_all step_keeps (⟨hw, ha⟩ : c.Whole ∧ c.Agrees) ht
    exact hwt.conserves_iff.2 hat

theorem whole_create (unusedList mem sz : Nat) (count : UInt32) : (create unusedList mem sz count).Whole where
  nodup := by
    have hstep : Function.Injective fun i => mem + i * (sz + memcacheObjectSize) + memcacheObjectBlock := by
      intro i j hij
      have hmul : i * (sz + memcacheObjectSize) = j * (sz + memcacheObjectSize) := by simpa using hij
      exact Nat.eq_of_mul_eq_mul_right (Nat.add_pos_right sz (by decide)) hmul
    simp only [free, create, createMemcache, List.append_nil, List.map_reverse, List.nodup_reverse, List.map_map]
    exact List.nodup_range.map hstep
  length := by simp [create, createMemcache]
  object := nofun

end Cache

/-- Nothing is lost from a cache exactly if it has no objects. -/
theorem memcache_conserves_iff (unusedList mem sz : Nat) (count : UInt32) (evs : List CacheEv) :
    Throughout Cache.step Cache.Conserves (Cache.create unusedList mem sz count) evs ∧
        Along Cache.step Cache.Serves (Cache.create unusedList mem sz count) evs ↔ count = 0 := by
  rw [Cache.conserves_iff (Cache.whole_create unusedList mem sz count)]
  have hagrees : (Cache.create unusedList mem sz count).Agrees ↔ 0 = count.toNat := by
    simp [Cache.Agrees, Cache.create, createMemcache]
  rw [hagrees, eq_comm, ← UInt32.toNat_inj]
  rfl

/-- No block of the one there is is handed out. -/
theorem memcache_starves : (allocMemcache (Cache.create 0 4096 8 1).mc).1 = none ∧
    ¬ (Cache.create 0 4096 8 1).Conserves ∧ ¬ (Cache.create 0 4096 8 1).Serves .alloc := by
  refine ⟨rfl, ?_, ?_⟩
  · unfold Cache.Conserves
    decide
  · rintro ⟨hserved, -⟩
    exact absurd (hserved.2 (by decide)) (by decide)

end CmdAgent
