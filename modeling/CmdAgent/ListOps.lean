import CmdAgent.ListHeap
/-!
# `SimuList.c`: sequences of calls

Any sequence of calls on a list `SimuList_Create` made does to the nodes what the same
calls do to a sequence of entries. `SimuList_Destory` does not release such a list.
-/
open StreamLib.Chain StreamLib.Runs

namespace CmdAgent

/-- A call on a list. `malloc` is what `malloc` returns in it. -/
inductive SimuListOp
  | add (key : Int) (pData : Nat) (nIgnoreKey : Int) (malloc : Nat)
  | del (key : Int) (pFreeFun : Bool)
  | get (key : Int)
  | size

/-- What a call returns. -/
inductive SimuListRet
  | code (nret : Int)
  | node (pNode : Nat)
  deriving DecidableEq

/-- `malloc` returns `NULL` or memory that is not in use. -/
def SimuListOp.Possible (nodes : Nodes TagSimuListNode) : SimuListOp → Prop
  | .add _ _ _ malloc => malloc = 0 ∨ malloc ∉ nodes
  | _ => True

instance instDecidableOpPossible (nodes : Nodes TagSimuListNode) : ∀ op : SimuListOp, Decidable (op.Possible nodes)
  | .add _ _ _ malloc => inferInstanceAs (Decidable (malloc = 0 ∨ malloc ∉ nodes.keys))
  | .del _ _ => isTrue trivial
  | .get _ => isTrue trivial
  | .size => isTrue trivial

/-! ## The calls on the nodes -/

/-- A list and what its calls have returned. -/
structure SimuListRun where
  pList : SimuHeap
  rets : List SimuListRet

def SimuHeap.call (pList : SimuHeap) : SimuListOp → Option (SimuListRet × SimuHeap)
  | .add key pData nIgnoreKey malloc =>
    (pList.add key pData nIgnoreKey malloc).map fun (nret, pList) => (.code nret, pList)
  | .del key pFreeFun => (pList.del key pFreeFun).map fun (nret, pList) => (.code nret, pList)
  | .get key => (pList.get key).map fun pNode => (.node pNode, pList)
  | .size => some (.code pList.size, pList)

def SimuListRun.step (s : SimuListRun) (op : SimuListOp) : Option SimuListRun :=
  (s.pList.call op).map fun (ret, pList) => ⟨pList, s.rets ++ [ret]⟩

def SimuListRun.Possible (s : SimuListRun) (op : SimuListOp) : Prop := op.Possible s.pList.nodes

instance instDecidableRunPossible (s : SimuListRun) (op : SimuListOp) : Decidable (s.Possible op) :=
  inferInstanceAs (Decidable (op.Possible _))

/-- After `SimuList_Create`. -/
def SimuListRun.init (pHead malloc : Nat) : SimuListRun := ⟨(SimuHeap.create pHead malloc).2, []⟩

/-! ## The calls on the entries -/

/-- What a list is for: a sequence of entries. -/
structure KeySeq where
  entries : SimuList NodeData
  called : List Nat
  freed : List Nat

/-- At the end, unless the key is there. -/
def KeySeq.add (t : KeySeq) (key : Int) (pData : Nat) (nIgnoreKey : Int) (malloc : Nat) : Int × KeySeq :=
  if nIgnoreKey ≠ 1 ∧ (simuListGet t.entries key).isSome then (1, t)
  else if malloc = 0 then (-2, t)
  else (0, { t with entries := t.entries ++ [⟨key, malloc, pData⟩] })

/-- The first with the key. -/
def KeySeq.del (t : KeySeq) (key : Int) (pFreeFun : Bool) : Int × KeySeq :=
  match simuListGet t.entries key with
  | none => (-1, t)
  | some e =>
    (0, {
      entries := t.entries.eraseP fun e => e.nKey = key
      called := t.called ++ if pFreeFun then [e.pData.data] else []
      freed := t.freed ++ [e.pData.node] })

def KeySeq.call (t : KeySeq) : SimuListOp → SimuListRet × KeySeq
  | .add key pData nIgnoreKey malloc =>
    let (nret, t) := t.add key pData nIgnoreKey malloc
    (.code nret, t)
  | .del key pFreeFun =>
    let (nret, t) := t.del key pFreeFun
    (.code nret, t)
  | .get key => (.node ((simuListGet t.entries key).elim 0 fun e => e.pData.node), t)
  | .size => (.code t.entries.length, t)

def KeySeq.step (s : KeySeq × List SimuListRet) (op : SimuListOp) : KeySeq × List SimuListRet :=
  ((s.1.call op).2, s.2 ++ [(s.1.call op).1])

/-- The entries after the calls, and what these return. -/
def KeySeq.run (ops : List SimuListOp) : KeySeq × List SimuListRet := ops.foldl step (⟨[], [], []⟩, [])

theorem KeySeq.run_snoc (ops : List SimuListOp) (op : SimuListOp) : run (ops ++ [op]) = step (run ops) op :=
  List.foldl_append

/-! ## The nodes stand for the entries -/

structure SimuHeap.Refines (pList : SimuHeap) (t : KeySeq) : Prop where
  represents : pList.Represents t.entries
  called : pList.called = t.called
  freed : pList.freed = t.freed

theorem SimuHeap.create_ne {pHead malloc : Nat} (h : (create pHead malloc).1 = 0) : malloc ≠ 0 := by
  rintro rfl
  cases h

theorem SimuHeap.create_refines (pHead : Nat) {malloc : Nat} (hnull : malloc ≠ 0) :
    (create pHead malloc).2.Refines ⟨[], [], []⟩ := by
  unfold create
  rw [if_neg hnull]
  refine ⟨⟨⟨[(malloc, ⟨0, 0, 0⟩)], ⟨rfl, hnull, ?_, rfl⟩, rfl⟩, rfl⟩, rfl, rfl⟩
  exact AList.lookup_insert _

namespace SimuHeap
variable {pList : SimuHeap} {t : KeySeq}

theorem Refines.add (h : pList.Refines t) (key : Int) (pData : Nat) (nIgnoreKey : Int) {malloc : Nat}
    (hmalloc : malloc = 0 ∨ malloc ∉ pList.nodes) :
    ∃ pList', pList.add key pData nIgnoreKey malloc = some ((t.add key pData nIgnoreKey malloc).1, pList') ∧
      pList'.Refines (t.add key pData nIgnoreKey malloc).2 := by
  obtain ⟨hrep, hcalled, hfreed⟩ := h
  rw [hrep.add_eq, KeySeq.add]
  by_cases hkey : nIgnoreKey ≠ 1 ∧ (simuListGet t.entries key).isSome
  · rw [if_pos hkey, if_pos hkey]
    exact ⟨pList, rfl, hrep, hcalled, hfreed⟩
  · rw [if_neg hkey, if_neg hkey]
    by_cases hnull : malloc = 0
    · rw [if_pos hnull, append, if_pos hnull]
      exact ⟨pList, rfl, hrep, hcalled, hfreed⟩
    · obtain ⟨pList', happend, hrep', -, hcalled', hfreed'⟩ :=
        hrep.append_eq key pData hnull (hmalloc.resolve_left hnull)
      rw [if_neg hnull]
      exact ⟨pList', happend, hrep', hcalled'.trans hcalled, hfreed'.trans hfreed⟩

theorem Refines.del (h : pList.Refines t) (key : Int) (pFreeFun : Bool) :
    ∃ pList', pList.del key pFreeFun = some ((t.del key pFreeFun).1, pList') ∧
      pList'.Refines (t.del key pFreeFun).2 := by
  obtain ⟨hrep, hcalled, hfreed⟩ := h
  obtain ⟨pList', hdel, hrep', -, hcalled', hfreed'⟩ := hrep.del_eq key pFreeFun
  rw [hcalled] at hcalled'
  rw [hfreed] at hfreed'
  unfold KeySeq.del
  unfold simuListDel at hdel hrep'
  cases hfind : simuListGet t.entries key with
  | none =>
    rw [hfind] at hdel hrep' hcalled' hfreed'
    exact ⟨pList', hdel, hrep', hcalled'.trans (List.append_nil _), hfreed'.trans (List.append_nil _)⟩
  | some e =>
    rw [hfind] at hdel hrep' hcalled' hfreed'
    exact ⟨pList', hdel, hrep', hcalled', hfreed'⟩

theorem Refines.call (h : pList.Refines t) {op : SimuListOp} (hop : op.Possible pList.nodes) :
    ∃ pList', pList.call op = some ((t.call op).1, pList') ∧ pList'.Refines (t.call op).2 := by
  cases op with
  | add key pData nIgnoreKey malloc =>
    obtain ⟨pList', hadd, h'⟩ := h.add key pData nIgnoreKey hop
    exact ⟨pList', by rw [SimuHeap.call, hadd]; rfl, h'⟩
  | del key pFreeFun =>
    obtain ⟨pList', hdel, h'⟩ := h.del key pFreeFun
    exact ⟨pList', by rw [SimuHeap.call, hdel]; rfl, h'⟩
  | get key =>
    rw [SimuHeap.call, h.represents.get_eq]
    exact ⟨pList, rfl, h⟩
  | size =>
    rw [SimuHeap.call, h.represents.size_eq]
    exact ⟨pList, rfl, h⟩

theorem run_refines (pHead : Nat) {malloc : Nat} (hnull : malloc ≠ 0) (ops : List SimuListOp)
    (h : Along SimuListRun.step SimuListRun.Possible (.init pHead malloc) ops) :
    ∃ s, exec SimuListRun.step (.init pHead malloc) ops = some s ∧ s.pList.Refines (KeySeq.run ops).1 ∧
      s.rets = (KeySeq.run ops).2 := by
  refine exec_history (H := fun ops s => s.pList.Refines (KeySeq.run ops).1 ∧ s.rets = (KeySeq.run ops).2) ?_
    ⟨create_refines pHead hnull, rfl⟩ ops h
  rintro ops s op ⟨href, hrets⟩ hop
  obtain ⟨pList', hcall, href'⟩ := href.call hop
  refine ⟨⟨pList', s.rets ++ [((KeySeq.run ops).1.call op).1]⟩, ?_, ?_⟩
  · rw [SimuListRun.step, hcall]
    rfl
  · rw [KeySeq.run_snoc]
    refine ⟨href', ?_⟩
    rw [hrets]
    rfl

end SimuHeap

/-! ## Keys -/

/-- The call adds whatever the keys are. -/
def SimuListOp.ignoresKey : SimuListOp → Bool
  | .add _ _ nIgnoreKey _ => nIgnoreKey = 1
  | _ => false

theorem KeySeq.keyed_call {t : KeySeq} (h : t.entries.Keyed) {op : SimuListOp} (hop : op.ignoresKey = false) :
    (t.call op).2.entries.Keyed := by
  cases op with
  | add key pData nIgnoreKey malloc =>
    have hign : nIgnoreKey ≠ 1 := of_decide_eq_false hop
    change (t.add key pData nIgnoreKey malloc).2.entries.Keyed
    unfold add
    by_cases hkey : (simuListGet t.entries key).isSome
    · rw [if_pos ⟨hign, hkey⟩]
      exact h
    · rw [if_neg fun hand => hkey hand.2]
      split
      · exact h
      · have hadd := keyed_add h key (⟨malloc, pData⟩ : NodeData)
        rw [simuListAdd, if_neg fun hand => hkey hand.2] at hadd
        exact hadd
  | del key pFreeFun =>
    change (t.del key pFreeFun).2.entries.Keyed
    unfold del
    split
    · exact h
    · exact h.sublist List.eraseP_sublist
  | get key => exact h
  | size => exact h

theorem KeySeq.keyed_run {ops : List SimuListOp} (h : ∀ op ∈ ops, op.ignoresKey = false) :
    (run ops).1.entries.Keyed := by
  induction ops using List.reverseRecOn with
  | nil => exact List.Pairwise.nil
  | append_singleton ops op ih =>
    rw [run_snoc]
    have hops := ih fun op hmem => h op (List.mem_append_left _ hmem)
    exact keyed_call hops (h op (List.mem_append_right _ (List.mem_singleton_self op)))

/-- Any calls on the nodes behind a new sentinel do what the calls on a sequence of entries
do: they return the same, call `pFreeFun` on the same data and leave the nodes of its
entries and their number. -/
theorem simuList_refines (pHead malloc : Nat) (hcreate : (SimuHeap.create pHead malloc).1 = 0) (ops : List SimuListOp)
    (h : Along SimuListRun.step SimuListRun.Possible (.init pHead malloc) ops) :
    ∃ s, exec SimuListRun.step (.init pHead malloc) ops = some s ∧ s.pList.Refines (KeySeq.run ops).1 ∧
      s.rets = (KeySeq.run ops).2 ∧ ((∀ op ∈ ops, op.ignoresKey = false) → (KeySeq.run ops).1.entries.Keyed) := by
  have hnull := SimuHeap.create_ne hcreate
  obtain ⟨s, hs, href, hrets⟩ := SimuHeap.run_refines pHead hnull ops h
  exact ⟨s, hs, href, hrets, KeySeq.keyed_run⟩

/-- A key that is there already, a node gone from the front, and memory used again. -/
theorem simuList_refines_reused :
    ∃ s, exec SimuListRun.step (.init 0 10)
        [.add 1 100 0 20, .add 2 200 0 30, .add 1 300 0 40, .del 1 true, .add 3 400 0 20, .get 3, .size] = some s ∧
      s.pList.Refines ⟨[⟨2, 30, 200⟩, ⟨3, 20, 400⟩], [100], [20]⟩ ∧
      s.rets = [.code 0, .code 0, .code 1, .code 0, .code 0, .node 20, .code 2] := by
  obtain ⟨s, hs, href, hrets, -⟩ := simuList_refines 0 10 (by decide)
    [.add 1 100 0 20, .add 2 200 0 30, .add 1 300 0 40, .del 1 true, .add 3 400 0 20, .get 3, .size] (by decide +kernel)
  exact ⟨s, hs, href, hrets⟩

/-! ## `SimuList_Destory` -/

/-- `SimuList_Destory` calls `pFreeFun` on the data of each entry in turn and frees the
sentinel and each node. -/
def SimuHeap.ReleasesAll (pList : SimuHeap) (entries : SimuList NodeData) : Prop :=
  ∃ pList' freed, pList.destory true = some (0, pList') ∧
    pList'.called = pList.called ++ entries.map (fun e => e.pData.data) ∧ pList'.freed = pList.freed ++ freed ∧
    freed.Perm (pList.pHead :: entries.map fun e => e.pData.node)

theorem SimuHeap.Represents.releasesAll_iff {pList : SimuHeap} {entries : SimuList NodeData}
    (h : pList.Represents entries) : pList.ReleasesAll entries ↔ pList.nCount ≤ 1 := by
  obtain ⟨pList', hdestory, hcalled, hfreed⟩ := h.destory_eq true
  have hdata : pList'.called = pList.called ++ (entries.take 1).map fun e => e.pData.data := by
    rw [hcalled, List.map_eq_flatMap]
    rfl
  have hcount := h.count
  constructor
  · rintro ⟨pList'', freed, hd, hc, -, -⟩
    cases hd.symm.trans hdestory
    have hlen := congrArg List.length (List.append_cancel_left (hdata.symm.trans hc))
    rw [List.length_map, List.length_map, List.length_take] at hlen
    omega
  · intro hle
    have htake : entries.take 1 = entries := List.take_of_length_le (by omega)
    rw [htake] at hdata hfreed
    exact ⟨pList', _, hdestory, hdata, hfreed, List.Perm.refl _⟩

/-- `SimuList_Destory` releases a list exactly if it has no more than one entry. -/
theorem simuList_destory_iff (pHead malloc : Nat) (hcreate : (SimuHeap.create pHead malloc).1 = 0)
    (ops : List SimuListOp)
    (h : Along SimuListRun.step SimuListRun.Possible (.init pHead malloc) ops) :
    ∃ s, exec SimuListRun.step (.init pHead malloc) ops = some s ∧
      (s.pList.ReleasesAll (KeySeq.run ops).1.entries ↔ s.pList.nCount ≤ 1) := by
  have hnull := SimuHeap.create_ne hcreate
  obtain ⟨s, hs, href, -⟩ := SimuHeap.run_refines pHead hnull ops h
  exact ⟨s, hs, href.represents.releasesAll_iff⟩

theorem simuList_destory_single :
    ∃ s, exec SimuListRun.step (.init 0 10) [.add 1 100 0 20, .add 2 200 0 30, .del 1 true] = some s ∧
      (s.pList.ReleasesAll [⟨2, 30, 200⟩] ↔ s.pList.nCount ≤ 1) :=
  simuList_destory_iff 0 10 (by decide) [.add 1 100 0 20, .add 2 200 0 30, .del 1 true] (by decide +kernel)

/-- The second of two entries keeps its node and its data. -/
theorem simuList_destory_keeps :
    Along SimuListRun.step SimuListRun.Possible (.init 0 10) [.add 1 100 0 20, .add 2 200 0 30] ∧
    ∃ s, exec SimuListRun.step (.init 0 10) [.add 1 100 0 20, .add 2 200 0 30] = some s ∧
      ¬ s.pList.ReleasesAll [⟨1, 20, 100⟩, ⟨2, 30, 200⟩] := by
  have hall : Along SimuListRun.step SimuListRun.Possible (.init 0 10) [.add 1 100 0 20, .add 2 200 0 30] := by
    decide +kernel
  obtain ⟨s, hs, href, -⟩ := SimuHeap.run_refines 0 (by decide) [.add 1 100 0 20, .add 2 200 0 30] hall
  refine ⟨hall, s, hs, fun hr => ?_⟩
  have hle := href.represents.releasesAll_iff.1 hr
  have hcount : s.pList.nCount = 2 := href.represents.count
  omega

end CmdAgent
