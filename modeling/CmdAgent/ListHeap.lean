import CmdAgent.SimuList
import CmdAgent.StreamLib.Chain
import CmdAgent.StreamLib.Runs
/-!
# `SimuList.c`: the nodes in memory

The linked nodes, with the sentinel in front, and what the functions do with pointers to
them. Addresses are what `malloc` returns; `NULL` is 0. The list of entries they stand
for is that of SimuList.lean.
-/
open StreamLib.Chain StreamLib.Runs

namespace CmdAgent

/-! ## The functions -/

/-- `struct tagSimuListNode` -/
structure TagSimuListNode where
  nKey : Int
  pData : Nat
  pNext : Nat
  deriving DecidableEq

/-- A `SimuList_t` and the memory its functions work on. -/
structure SimuHeap where
  /-- An `int`: for more nodes than that there is no memory. -/
  nCount : Int
  pHead : Nat
  nodes : Nodes TagSimuListNode
  /-- The pointers `free` has been called with. -/
  freed : List Nat
  /-- The data `pFreeFun` has been called on. -/
  called : List Nat

namespace SimuHeap

/-- More rounds than this only a cycle takes. -/
def fuel (pList : SimuHeap) : Nat := pList.nodes.keys.length + 1

/-- `SimuList_Create`. Without memory for the sentinel `pHead` is not set. -/
def create (pHead malloc : Nat) : Int × SimuHeap :=
  if malloc = 0 then (-2, ⟨0, pHead, ∅, [], []⟩)
  else (0, ⟨0, malloc, (∅ : Nodes TagSimuListNode).insert malloc ⟨0, 0, 0⟩, [], []⟩)

/-- The loop of `SimuList_Get`. -/
def find (pList : SimuHeap) (key : Int) : Nat → Nat → Option Nat
  | 0, _ => none
  | n + 1, pNode =>
    if pNode = 0 then some 0
    else (pList.nodes.lookup pNode).bind fun node => if node.nKey = key then some pNode else pList.find key n node.pNext

/-- `SimuList_Get` -/
def get (pList : SimuHeap) (key : Int) : Option Nat :=
  if pList.nCount ≤ 0 then some 0
  else (pList.nodes.lookup pList.pHead).bind fun head => pList.find key pList.fuel head.pNext

/-- `SimuList_Size` -/
def size (pList : SimuHeap) : Int := pList.nCount

/-- `SimuList_Add` from the `malloc` on. -/
def append (pList : SimuHeap) (key : Int) (pData malloc : Nat) : Option (Int × SimuHeap) :=
  if malloc = 0 then some (-2, pList)
  else
    let pList := { pList with nodes := pList.nodes.insert malloc ⟨key, pData, 0⟩ }
    (last TagSimuListNode.pNext pList.nodes pList.fuel pList.pHead).bind fun pNode =>
      (pList.nodes.lookup pNode).map fun node =>
        (0, { pList with
          nodes := pList.nodes.insert pNode { node with pNext := malloc }
          nCount := pList.nCount + 1 })

/-- `SimuList_Add` -/
def add (pList : SimuHeap) (key : Int) (pData : Nat) (nIgnoreKey : Int) (malloc : Nat) : Option (Int × SimuHeap) :=
  if nIgnoreKey ≠ 1 then
    (pList.get key).bind fun pNode => if pNode ≠ 0 then some (1, pList) else pList.append key pData malloc
  else pList.append key pData malloc

/-- What `pFreeFun` is called on, if it is not `NULL`. -/
def callFree (pFreeFun : Bool) (pData : Nat) : List Nat := if pFreeFun then [pData] else []

/-- `SimuList_Del` -/
def del (pList : SimuHeap) (key : Int) (pFreeFun : Bool) : Option (Int × SimuHeap) :=
  if pList.nCount = 0 then some (-1, pList)
  else
    (pList.nodes.lookup pList.pHead).bind fun head =>
      (scan TagSimuListNode.pNext pList.nodes (fun node => node.nKey = key) pList.fuel pList.pHead head.pNext).bind
        fun (p2, p1) =>
          if p1 ≠ 0 then
            (pList.nodes.lookup p1).bind fun node1 => (pList.nodes.lookup p2).map fun node2 =>
              (0, { pList with
                nodes := (pList.nodes.insert p2 { node2 with pNext := node1.pNext }).erase p1
                called := pList.called ++ callFree pFreeFun node1.pData
                freed := pList.freed ++ [p1]
                nCount := pList.nCount - 1 })
          else some (-1, pList)

/-- `SimuList_Destory` -/
def destory (pList : SimuHeap) (pFreeFun : Bool) : Option (Int × SimuHeap) :=
  (pList.nodes.lookup pList.pHead).bind fun head =>
    let pNode := head.pNext
    let pList := { pList with
      nodes := pList.nodes.erase pList.pHead
      freed := pList.freed ++ [pList.pHead]
      pHead := 0
      nCount := 0 }
    if pNode ≠ 0 then
      (pList.nodes.lookup pNode).map fun node =>
        (0, { pList with
          nodes := pList.nodes.erase pNode
          called := pList.called ++ callFree pFreeFun node.pData
          freed := pList.freed ++ [pNode] })
    else some (0, pList)

end SimuHeap

/-! ## The entries -/

/-- An entry: where its node is, and its data. -/
structure NodeData where
  node : Nat
  data : Nat
  deriving DecidableEq

/-- The entry a node stands for. -/
def entryOf (node : Nat × TagSimuListNode) : SimuListNode NodeData := ⟨node.2.nKey, node.1, node.2.pData⟩

/-- The chain from `pHead` is the sentinel, with no data, and the entries; `nCount` is
their number. -/
structure SimuHeap.Represents (pList : SimuHeap) (entries : SimuList NodeData) : Prop where
  chain : ∃ nodes, Seg TagSimuListNode.pNext pList.nodes pList.pHead nodes 0 ∧
    nodes.map entryOf = ⟨0, pList.pHead, 0⟩ :: entries
  count : pList.nCount = entries.length

namespace SimuHeap
variable {pList : SimuHeap} {key : Int} {p : Nat} {nodes : List (Nat × TagSimuListNode)} {entries : SimuList NodeData}

theorem find_eq (hs : Seg TagSimuListNode.pNext pList.nodes p nodes 0) {n : Nat} (hn : nodes.length < n) :
    pList.find key n p = some ((simuListGet (nodes.map entryOf) key).elim 0 fun e => e.pData.node) := by
  induction nodes generalizing n p with
  | nil =>
    obtain ⟨n, rfl⟩ := Nat.exists_eq_add_of_lt hn
    rw [find, if_pos (show p = 0 from hs)]
    rfl
  | cons a nodes ih =>
    obtain ⟨a, node⟩ := a
    obtain ⟨rfl, hnull, hv, hs⟩ := hs
    cases n with
    | zero => cases hn
    | succ n =>
      rw [find, if_neg hnull, hv, Option.bind_some, ih hs (Nat.lt_of_succ_lt_succ hn)]
      by_cases hkey : node.nKey = key
      · simp [simuListGet, entryOf, hkey]
      · simp [simuListGet, entryOf, hkey]

/-- The sentinel, and the chain behind it. -/
theorem Represents.sentinel (h : pList.Represents entries) :
    ∃ head nodes, pList.nodes.lookup pList.pHead = some head ∧ head.nKey = 0 ∧ head.pData = 0 ∧
      Seg TagSimuListNode.pNext pList.nodes pList.pHead ((pList.pHead, head) :: nodes) 0 ∧
      Seg TagSimuListNode.pNext pList.nodes head.pNext nodes 0 ∧ nodes.map entryOf = entries ∧
      nodes.length < pList.fuel := by
  obtain ⟨⟨nodes, hs, hmap⟩, -⟩ := h
  have hle := hs.length_le
  cases nodes with
  | nil => cases hmap
  | cons a nodes =>
    obtain ⟨a, head⟩ := a
    obtain ⟨hhead, htail⟩ := List.cons.inj hmap
    simp only [entryOf, SimuListNode.mk.injEq, NodeData.mk.injEq] at hhead
    obtain ⟨hkey, rfl, hdata⟩ := hhead
    exact ⟨head, nodes, hs.2.2.1, hkey, hdata, hs, hs.2.2.2, htail, Nat.lt_succ_of_lt hle⟩

/-- `SimuList_Get` returns the node of the first entry with the key. -/
theorem Represents.get_eq (h : pList.Represents entries) (key : Int) :
    pList.get key = some ((simuListGet entries key).elim 0 fun e => e.pData.node) := by
  obtain ⟨head, nodes, hhead, -, -, -, hs, hmap, hfuel⟩ := h.sentinel
  unfold SimuHeap.get
  split
  · rename_i hle
    have hnil : entries = [] := by
      apply List.eq_nil_of_length_eq_zero
      have := h.count
      omega
    rw [hnil]
    rfl
  · rw [hhead, Option.bind_some, find_eq hs hfuel, hmap]

theorem Represents.node_ne (h : pList.Represents entries) {e : SimuListNode NodeData} (he : e ∈ entries) :
    e.pData.node ≠ 0 := by
  obtain ⟨head, nodes, -, -, -, -, hs, rfl, -⟩ := h.sentinel
  obtain ⟨⟨a, node⟩, hmem, rfl⟩ := List.mem_map.1 he
  exact (hs.lookup hmem).1

theorem Represents.node_data (h : pList.Represents entries) {e : SimuListNode NodeData} (he : e ∈ entries) :
    ∃ node, pList.nodes.lookup e.pData.node = some node ∧ node.pData = e.pData.data := by
  obtain ⟨head, nodes, -, -, -, -, hs, rfl, -⟩ := h.sentinel
  obtain ⟨⟨a, node⟩, hmem, rfl⟩ := List.mem_map.1 he
  exact ⟨node, (hs.lookup hmem).2, rfl⟩

theorem Represents.size_eq (h : pList.Represents entries) : pList.size = entries.length := h.count

/-- `SimuList_Add` puts a new node behind the last one. -/
theorem Represents.append_eq (h : pList.Represents entries) (key : Int) (pData : Nat) {malloc : Nat}
    (hnull : malloc ≠ 0) (hfree : malloc ∉ pList.nodes) : ∃ pList', pList.append key pData malloc = some (0, pList') ∧
      pList'.Represents (entries ++ [⟨key, malloc, pData⟩]) ∧ pList'.pHead = pList.pHead ∧
      pList'.called = pList.called ∧ pList'.freed = pList.freed := by
  obtain ⟨⟨nodes, hs, hmap⟩, hcount⟩ := h
  have hnew : malloc ∉ nodes.map Prod.fst := by
    intro hmem
    obtain ⟨⟨a, v⟩, ha, rfl⟩ := List.mem_map.1 hmem
    exact hfree (AList.lookup_isSome.1 (by rw [(hs.lookup ha).2]; rfl))
  have hins : Seg TagSimuListNode.pNext (pList.nodes.insert malloc ⟨key, pData, 0⟩) pList.pHead nodes 0 := by
    refine hs.congr fun a hmem => AList.lookup_insert_ne ?_
    rintro rfl
    exact hnew hmem
  rcases List.eq_nil_or_concat' nodes with rfl | ⟨front, ⟨q, v⟩, rfl⟩
  · cases hmap
  · have hfront : front.length < (pList.nodes.insert malloc ⟨key, pData, 0⟩).keys.length + 1 := by
      have hlen := hins.length_le
      rw [List.length_append, List.length_singleton] at hlen
      omega
    have hv := (hins.lookup (List.mem_append_right _ (List.mem_singleton_self (q, v)))).2
    have hsnoc : Seg TagSimuListNode.pNext
        ((pList.nodes.insert malloc ⟨key, pData, 0⟩).insert q { v with pNext := malloc }) pList.pHead
        (front ++ [(q, { v with pNext := malloc }), (malloc, ⟨key, pData, 0⟩)]) 0 := hs.snoc hnull hnew rfl rfl
    refine ⟨{ pList with
      nodes := (pList.nodes.insert malloc ⟨key, pData, 0⟩).insert q { v with pNext := malloc }
      nCount := pList.nCount + 1 }, ?_, ⟨⟨_, hsnoc, ?_⟩, ?_⟩, rfl, rfl, rfl⟩
    · unfold append
      rw [if_neg hnull]
      dsimp only
      rw [fuel, last_eq hins hfront, Option.bind_some, hv, Option.map_some]
    · rw [← List.cons_append, ← hmap]
      simp [entryOf]
    · simp [hcount]

/-- Without a node, or with the key there, `SimuList_Add` changes nothing. -/
theorem Represents.add_eq (h : pList.Represents entries) (key : Int) (pData : Nat) (nIgnoreKey : Int) (malloc : Nat) :
    pList.add key pData nIgnoreKey malloc =
      if nIgnoreKey ≠ 1 ∧ (simuListGet entries key).isSome then some (1, pList) else pList.append key pData malloc := by
  unfold add
  by_cases hc : nIgnoreKey ≠ 1
  · rw [if_pos hc, h.get_eq, Option.bind_some]
    cases hfind : simuListGet entries key with
    | none => simp
    | some e =>
      have hnode : e.pData.node ≠ 0 := h.node_ne (List.mem_of_find?_eq_some hfind)
      simp [hc, hnode]
  · rw [if_neg hc, if_neg fun hand => hc hand.1]

/-- The node of the first entry with the key, and the nodes of the others. -/
theorem get_node {e : SimuListNode NodeData} (h : simuListGet (nodes.map entryOf) key = some e) :
    ∃ l₁ l₂ r w, nodes = l₁ ++ (r, w) :: l₂ ∧ w.nKey = key ∧ e = entryOf (r, w) ∧
      (∀ b ∈ l₁, decide (b.2.nKey = key) = false) ∧
      simuListDel (nodes.map entryOf) key = (0, (l₁ ++ l₂).map entryOf) := by
  have hdel : simuListDel (nodes.map entryOf) key = (0, (nodes.map entryOf).eraseP fun e => e.nKey = key) := by
    rw [simuListDel, h]
    rfl
  unfold simuListGet at h
  rw [List.find?_map] at h
  obtain ⟨⟨r, w⟩, hfind, rfl⟩ := Option.map_eq_some_iff.1 h
  obtain ⟨hw, l₁, l₂, rfl, hl⟩ := List.find?_eq_some_iff_append.1 hfind
  have hne : ∀ b ∈ l₁, ¬ (entryOf b).nKey = key := by
    intro b hb
    have hb := hl b hb
    simp only [Function.comp_apply, Bool.not_eq_true'] at hb
    exact of_decide_eq_false hb
  refine ⟨l₁, l₂, r, w, rfl, of_decide_eq_true hw, rfl, fun b hb => decide_eq_false (hne b hb), ?_⟩
  rw [hdel, List.map_append, List.map_cons, List.eraseP_append_right, List.eraseP_cons_of_pos (by simpa using hw),
    List.map_append]
  intro e he
  obtain ⟨b, hb, rfl⟩ := List.mem_map.1 he
  simpa using hne b hb

/-- `SimuList_Del` takes out the node of the first entry with the key, after `pFreeFun`. -/
theorem Represents.del_eq (h : pList.Represents entries) (key : Int) (pFreeFun : Bool) :
    ∃ pList', pList.del key pFreeFun = some ((simuListDel entries key).1, pList') ∧
      pList'.Represents (simuListDel entries key).2 ∧ pList'.pHead = pList.pHead ∧
      pList'.called = pList.called ++ (simuListGet entries key).elim [] (fun e => callFree pFreeFun e.pData.data) ∧
      pList'.freed = pList.freed ++ (simuListGet entries key).elim [] (fun e => [e.pData.node]) := by
  obtain ⟨head, nodes, hhead, hkey0, hdata0, hchain, hs, rfl, hfuel⟩ := h.sentinel
  cases hfind : simuListGet (nodes.map entryOf) key with
  | none =>
    have hdel : simuListDel (nodes.map entryOf) key = (-1, nodes.map entryOf) := by simp [simuListDel, hfind]
    rw [hdel]
    refine ⟨pList, ?_, h, rfl, (List.append_nil _).symm, (List.append_nil _).symm⟩
    unfold del
    split
    · rfl
    · have hstop : ∀ b ∈ nodes, decide (b.2.nKey = key) = false := by
        intro b hb
        exact decide_eq_false (simuListGet_eq_none.1 hfind (entryOf b) (List.mem_map_of_mem hb))
      obtain ⟨p2, hscan⟩ := scan_none (fun node => decide (node.nKey = key)) pList.pHead hs hfuel hstop
      rw [hhead, Option.bind_some, hscan, Option.bind_some]
      rfl
  | some e =>
    obtain ⟨l₁, l₂, r, w, rfl, hw, rfl, hl, hdel⟩ := get_node hfind
    rw [hdel]
    -- The node in front, which may be the sentinel.
    obtain ⟨l₀, q, u, hfront⟩ : ∃ l₀ q u, (pList.pHead, head) :: l₁ = l₀ ++ [(q, u)] := by
      rcases List.eq_nil_or_concat' ((pList.pHead, head) :: l₁) with hnil | ⟨l₀, ⟨q, u⟩, heq⟩
      · cases hnil
      · exact ⟨l₀, q, u, heq⟩
    have hq : (l₁.map Prod.fst).getLastD pList.pHead = q := by
      have hlast := congrArg (fun l => (l.map Prod.fst).getLastD pList.pHead) hfront
      rw [List.map_cons, List.getLastD_cons] at hlast
      rw [hlast]
      simp
    have hwhole : (pList.pHead, head) :: (l₁ ++ (r, w) :: l₂) = l₀ ++ (q, u) :: (r, w) :: l₂ := by
      rw [← List.cons_append, hfront, List.append_assoc]
      rfl
    rw [hwhole] at hchain
    have hcut : Seg TagSimuListNode.pNext ((pList.nodes.insert q { u with pNext := w.pNext }).erase r) pList.pHead
        (l₀ ++ (q, { u with pNext := w.pNext }) :: l₂) 0 := hchain.cut rfl
    have hr := hs.lookup (List.mem_append_right l₁ List.mem_cons_self)
    have hu := hchain.lookup (List.mem_append_right l₀ List.mem_cons_self)
    have hlt : l₁.length < pList.fuel := by
      rw [List.length_append] at hfuel
      omega
    have hscan := scan_found (fun node => decide (node.nKey = key)) pList.pHead hs hlt hl (decide_eq_true hw)
    rw [hq] at hscan
    have hcount := h.count
    refine ⟨{ pList with
      nodes := (pList.nodes.insert q { u with pNext := w.pNext }).erase r
      called := pList.called ++ callFree pFreeFun w.pData
      freed := pList.freed ++ [r]
      nCount := pList.nCount - 1 }, ?_, ⟨⟨_, hcut, ?_⟩, ?_⟩, rfl, rfl, rfl⟩
    · unfold del
      rw [if_neg, hhead, Option.bind_some, hscan, Option.bind_some]
      · dsimp only
        rw [if_pos hr.1, hr.2, Option.bind_some, hu.2, Option.map_some]
      · simp only [List.length_map, List.length_append, List.length_cons] at hcount
        omega
    · have hmap := congrArg (List.map entryOf) hfront
      simp only [List.map_cons, List.map_append, List.map_nil] at hmap ⊢
      have hsame : entryOf (q, { u with pNext := w.pNext }) = entryOf (q, u) := rfl
      have hsent : entryOf (pList.pHead, head) = ⟨0, pList.pHead, 0⟩ := by rw [entryOf, hkey0, hdata0]
      rw [hsame, List.append_cons, ← hmap, hsent, List.cons_append]
    · simp only [List.length_map, List.length_append, List.length_cons] at hcount ⊢
      omega

/-- `SimuList_Destory` frees the sentinel and the first node; its `if` is no loop. -/
theorem Represents.destory_eq (h : pList.Represents entries) (pFreeFun : Bool) :
    ∃ pList', pList.destory pFreeFun = some (0, pList') ∧
      pList'.called = pList.called ++ (entries.take 1).flatMap (fun e => callFree pFreeFun e.pData.data) ∧
      pList'.freed = pList.freed ++ pList.pHead :: (entries.take 1).map fun e => e.pData.node := by
  obtain ⟨head, nodes, hhead, -, -, hchain, hs, rfl, -⟩ := h.sentinel
  unfold destory
  rw [hhead, Option.bind_some]
  dsimp only
  cases nodes with
  | nil =>
    have hnext : head.pNext = 0 := hs
    rw [if_neg fun hc => hc hnext]
    exact ⟨_, rfl, by simp, by simp⟩
  | cons a nodes =>
    obtain ⟨a, node⟩ := a
    obtain ⟨rfl, hnull, hv, -⟩ := hs
    have hne : head.pNext ≠ pList.pHead := by
      intro he
      have hnodup := hchain.nodup
      simp [he] at hnodup
    rw [if_pos hnull, AList.lookup_erase_ne hne, hv]
    exact ⟨_, rfl, by simp [entryOf], by simp [entryOf]⟩

end SimuHeap

end CmdAgent
