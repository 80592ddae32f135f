import Mathlib.Tactic.Common
/-!
# `SimuList.c`: lists of keyed data

The nodes behind the sentinel, in order. `nCount` is their number, and `malloc`
does not fail.
-/

namespace CmdAgent

/-- `SimuListNode_t`: a key, and what the caller keeps under it. -/
structure SimuListNode (α : Type) where
  nKey : Int
  pData : α

/-- The nodes behind the sentinel. -/
abbrev SimuList (α : Type) := List (SimuListNode α)

variable {α : Type}

/-- `SimuList_Get`: the first node with the key. -/
def simuListGet (pList : SimuList α) (key : Int) : Option (SimuListNode α) :=
  pList.find? fun pNode => pNode.nKey = key

/-- `SimuList_Add`, at the end; with `nIgnoreKey` 1 the key may be there already. -/
def simuListAdd (pList : SimuList α) (key : Int) (pData : α) (nIgnoreKey : Int) : Int × SimuList α :=
  if nIgnoreKey ≠ 1 ∧ (simuListGet pList key).isSome then (1, pList) else (0, pList ++ [⟨key, pData⟩])

/-- The list once `*pData` of the node `SimuList_Get` returns has changed. -/
def simuListPut : SimuList α → Int → α → SimuList α
  | [], _, _ => []
  | pNode :: pList, key, pData =>
    if pNode.nKey = key then ⟨key, pData⟩ :: pList else pNode :: simuListPut pList key pData

/-- `SimuList_Del`: the first node with the key goes. -/
def simuListDel (pList : SimuList α) (key : Int) : Int × SimuList α :=
  if (simuListGet pList key).isSome then (0, pList.eraseP fun pNode => pNode.nKey = key) else (-1, pList)

/-- Adding changes what is found only for a key that was not there. -/
theorem simuListGet_add (pList : SimuList α) (key : Int) (pData : α) (c : Int) :
    simuListGet (simuListAdd pList key pData 0).2 c =
      (simuListGet pList c).or (if key = c then some ⟨key, pData⟩ else none) := by
  unfold simuListAdd
  by_cases hkey : (simuListGet pList key).isSome
  · rw [if_pos ⟨by decide, hkey⟩]
    by_cases hc : key = c
    · obtain ⟨pNode, hn⟩ := Option.isSome_iff_exists.1 hkey
      rw [← hc, hn]
      rfl
    · simp [hc]
  · rw [if_neg fun h => hkey h.2]
    simp only [simuListGet, List.find?_append, List.find?_cons, List.find?_nil]
    by_cases hc : key = c <;> simp [hc]

theorem simuListGet_put (pList : SimuList α) (key : Int) (pData : α) (c : Int) :
    simuListGet (simuListPut pList key pData) c =
      if key = c then (simuListGet pList c).map (fun _ => ⟨key, pData⟩) else simuListGet pList c := by
  induction pList with
  | nil => simp [simuListPut, simuListGet]
  | cons pNode pList ih =>
    unfold simuListGet at ih ⊢
    rw [simuListPut]
    by_cases hn : pNode.nKey = key
    · rw [if_pos hn, List.find?_cons, List.find?_cons, hn]
      by_cases hc : key = c <;> simp [hc]
    · rw [if_neg hn, List.find?_cons, List.find?_cons, ih]
      by_cases hc : key = c
      · have hne : pNode.nKey ≠ c := fun he => hn (he.trans hc.symm)
        simp [hc, hne]
      · simp [hc]

/-- Each key is there once. -/
def SimuList.Keyed (pList : SimuList α) : Prop := pList.Pairwise fun a b => a.nKey ≠ b.nKey

theorem simuListGet_eq_none {pList : SimuList α} {key : Int} :
    simuListGet pList key = none ↔ ∀ pNode ∈ pList, pNode.nKey ≠ key := by
  simp [simuListGet]

theorem simuListGet_mem {pList : SimuList α} (h : pList.Keyed) {pNode : SimuListNode α} (hmem : pNode ∈ pList) :
    simuListGet pList pNode.nKey = some pNode := by
  induction pList with
  | nil => cases hmem
  | cons head pList ih =>
    obtain ⟨hhead, htail⟩ := List.pairwise_cons.1 h
    unfold simuListGet at ih ⊢
    rcases List.mem_cons.1 hmem with rfl | hmem
    · rw [List.find?_cons_of_pos (by simp)]
    · rw [List.find?_cons_of_neg (by simpa using hhead pNode hmem)]
      exact ih htail hmem

theorem keyed_add {pList : SimuList α} (h : pList.Keyed) (key : Int) (pData : α) :
    (simuListAdd pList key pData 0).2.Keyed := by
  unfold simuListAdd
  by_cases hkey : (simuListGet pList key).isSome
  · rw [if_pos ⟨by decide, hkey⟩]
    exact h
  · rw [if_neg fun hc => hkey hc.2]
    refine List.pairwise_append.2 ⟨h, List.pairwise_singleton _ _, ?_⟩
    intro pNode hmem new hnew
    cases List.mem_singleton.1 hnew
    exact simuListGet_eq_none.1 (Option.not_isSome_iff_eq_none.1 hkey) pNode hmem

theorem keyed_del {pList : SimuList α} (h : pList.Keyed) (key : Int) : (simuListDel pList key).2.Keyed := by
  unfold simuListDel
  split
  · exact h.sublist List.eraseP_sublist
  · exact h

theorem keys_put (pList : SimuList α) (key : Int) (pData : α) :
    (simuListPut pList key pData).map SimuListNode.nKey = pList.map SimuListNode.nKey := by
  induction pList with
  | nil => rfl
  | cons pNode pList ih =>
    unfold simuListPut
    split
    · rename_i hkey
      rw [List.map_cons, List.map_cons, hkey]
    · rw [List.map_cons, List.map_cons, ih]

theorem keyed_put {pList : SimuList α} (h : pList.Keyed) (key : Int) (pData : α) : (simuListPut pList key pData).Keyed := by
  have hmap : (pList.map SimuListNode.nKey).Pairwise (· ≠ ·) := List.pairwise_map.2 h
  rw [← keys_put pList key pData] at hmap
  exact List.pairwise_map.1 hmap

theorem simuListGet_del {pList : SimuList α} (h : pList.Keyed) (key c : Int) :
    simuListGet (simuListDel pList key).2 c = if key = c then none else simuListGet pList c := by
  unfold simuListDel
  by_cases hkey : (simuListGet pList key).isSome
  · rw [if_pos hkey]
    clear hkey
    induction pList with
    | nil => simp [simuListGet]
    | cons pNode pList ih =>
      obtain ⟨hhead, htail⟩ := List.pairwise_cons.1 h
      by_cases hn : pNode.nKey = key
      · rw [List.eraseP_cons_of_pos (by simpa using hn)]
        by_cases hc : key = c
        · rw [if_pos hc, simuListGet_eq_none]
          intro other hmem he
          exact hhead other hmem (hn.trans (hc.trans he.symm))
        · have hne : pNode.nKey ≠ c := fun he => hc (hn.symm.trans he)
          simp [simuListGet, hc, hne]
      · rw [List.eraseP_cons_of_neg (by simpa using hn)]
        have ih := ih htail
        simp only [simuListGet] at ih ⊢
        rw [List.find?_cons, List.find?_cons, ih]
        by_cases hc : key = c
        · have hne : pNode.nKey ≠ c := fun he => hn (he.trans hc.symm)
          simp [hc, hne]
        · simp [hc]
  · rw [if_neg hkey]
    by_cases hc : key = c
    · rw [if_pos hc, ← hc]
      exact Option.not_isSome_iff_eq_none.1 hkey
    · rw [if_neg hc]

theorem eraseP_eq_filter {pList : SimuList α} (h : pList.Keyed) (key : Int) :
    pList.eraseP (fun pNode => pNode.nKey = key) = pList.filter fun pNode => pNode.nKey ≠ key := by
  induction pList with
  | nil => rfl
  | cons pNode pList ih =>
    obtain ⟨hhead, htail⟩ := List.pairwise_cons.1 h
    by_cases hn : pNode.nKey = key
    · rw [List.eraseP_cons_of_pos (by simpa using hn), List.filter_cons_of_neg (by simpa using hn)]
      refine (List.filter_eq_self.2 fun other hmem => ?_).symm
      simpa using fun he => hhead other hmem (hn.trans he.symm)
    · rw [List.eraseP_cons_of_neg (by simpa using hn), List.filter_cons_of_pos (by simpa using hn), ih htail]

theorem isSome_add {pList : SimuList α} {c : Int} (h : (simuListGet pList c).isSome) (key : Int) (pData : α) :
    (simuListGet (simuListAdd pList key pData 0).2 c).isSome := by
  rw [simuListGet_add, Option.isSome_or, h, Bool.true_or]

theorem isSome_put {pList : SimuList α} {c : Int} (h : (simuListGet pList c).isSome) (key : Int) (pData : α) :
    (simuListGet (simuListPut pList key pData) c).isSome := by
  rw [simuListGet_put]
  split
  · rwa [Option.isSome_map]
  · exact h

/-! ## The count -/

/-- `SimuList_t`: the count it keeps, and the nodes behind the sentinel. -/
structure TagSimuList (α : Type) where
  nCount : Int
  pHead : SimuList α

namespace TagSimuList

/-- `SimuList_Create` -/
def create : TagSimuList α := ⟨0, []⟩

/-- `SimuList_Size`: the count, not the nodes. -/
def size (pList : TagSimuList α) : Int := pList.nCount

/-- `SimuList_Get`, which looks at the count first. -/
def get (pList : TagSimuList α) (key : Int) : Option (SimuListNode α) :=
  if pList.nCount ≤ 0 then none else simuListGet pList.pHead key

/-- `SimuList_Add`, with the count -/
def add (pList : TagSimuList α) (key : Int) (pData : α) (nIgnoreKey : Int) : Int × TagSimuList α :=
  if nIgnoreKey ≠ 1 ∧ (pList.get key).isSome then (1, pList)
  else (0, ⟨pList.nCount + 1, pList.pHead ++ [⟨key, pData⟩]⟩)

/-- `SimuList_Del`, with the count -/
def del (pList : TagSimuList α) (key : Int) : Int × TagSimuList α :=
  if pList.nCount = 0 then (-1, pList)
  else if (simuListGet pList.pHead key).isSome then
    (0, ⟨pList.nCount - 1, pList.pHead.eraseP fun pNode => pNode.nKey = key⟩)
  else (-1, pList)

/-- `nCount` is the number of nodes. -/
def Counted (pList : TagSimuList α) : Prop := pList.nCount = pList.pHead.length

namespace Counted
variable {pList : TagSimuList α} (h : pList.Counted)
include h

/-- With the right count its tests change nothing. -/
theorem get_eq (key : Int) : pList.get key = simuListGet pList.pHead key := by
  unfold get
  split
  · have hnil : pList.pHead = [] := List.eq_nil_of_length_eq_zero (by unfold Counted at h; omega)
    rw [hnil]
    rfl
  · rfl

theorem add_eq (key : Int) (pData : α) (nIgnoreKey : Int) :
    (pList.add key pData nIgnoreKey).1 = (simuListAdd pList.pHead key pData nIgnoreKey).1 ∧
      (pList.add key pData nIgnoreKey).2.pHead = (simuListAdd pList.pHead key pData nIgnoreKey).2 ∧
      (pList.add key pData nIgnoreKey).2.Counted := by
  unfold add simuListAdd
  rw [h.get_eq]
  split
  · exact ⟨rfl, rfl, h⟩
  · refine ⟨rfl, rfl, ?_⟩
    unfold Counted at h ⊢
    simp [h]

theorem del_eq (key : Int) :
    (pList.del key).1 = (simuListDel pList.pHead key).1 ∧ (pList.del key).2.pHead = (simuListDel pList.pHead key).2 ∧
      (pList.del key).2.Counted := by
  unfold del simuListDel
  by_cases hzero : pList.nCount = 0
  · have hnil : pList.pHead = [] := List.eq_nil_of_length_eq_zero (by unfold Counted at h; omega)
    rw [if_pos hzero, hnil]
    exact ⟨rfl, rfl, h⟩
  · rw [if_neg hzero]
    by_cases hkey : (simuListGet pList.pHead key).isSome
    · rw [if_pos hkey, if_pos hkey]
      refine ⟨rfl, rfl, ?_⟩
      obtain ⟨pNode, hn⟩ := Option.isSome_iff_exists.1 hkey
      have hlen := List.length_eraseP_of_mem (List.mem_of_find?_eq_some hn) (List.find?_some hn)
      have hpos := List.length_pos_of_mem (List.mem_of_find?_eq_some hn)
      unfold Counted at h ⊢
      dsimp only
      rw [hlen, h]
      omega
    · rw [if_neg hkey, if_neg hkey]
      exact ⟨rfl, rfl, h⟩

end Counted

end TagSimuList

end CmdAgent
