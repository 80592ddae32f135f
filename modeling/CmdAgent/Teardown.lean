import CmdAgent.ListOps
/-!
# `sernet_release`

The table of clients with its nodes and the `serclt_info`s in memory, through accepts and
disconnects, and what `sernet_release` does to it. It starts at the sentinel, which has no
`serclt_info`.
-/
open StreamLib.Chain StreamLib.Runs

namespace CmdAgent

/-- The table of clients. `NULL` is 0. -/
structure SernetMem where
  sercltList : SimuHeap
  /-- The `evbuffer` of each `serclt_info` that is allocated. -/
  serclts : Nodes Nat
  /-- What `bufferevent_free` has been called on. -/
  bevFreed : List Nat
  /-- What `serclt_release` has been called on. -/
  released : List Nat
  /-- The `serclt_info`s `free` has been called on. -/
  freed : List Nat

namespace SernetMem

/-! ## The functions -/

/-- What `sernet_initialize` sets up. -/
def init (pHead malloc : Nat) : SernetMem := ⟨(SimuHeap.create pHead malloc).2, ∅, [], [], []⟩

/-- `serclt_release`, which reads the `serclt_info`. -/
def sercltRelease (sernet : SernetMem) (serclt : Nat) : Option SernetMem :=
  (sernet.serclts.lookup serclt).map fun evbuffer =>
    { sernet with
      released := sernet.released ++ [serclt]
      bevFreed := if evbuffer ≠ 0 then sernet.bevFreed ++ [evbuffer] else sernet.bevFreed }

/-- `_sernet_acceptcb`, with what its allocations return. -/
def acceptcb (sernet : SernetMem) (fd : Int) (newbuffer serclt dataBlob node : Nat) : Option SernetMem :=
  if newbuffer = 0 then some sernet
  else if serclt = 0 then some sernet
  else
    let sernet := { sernet with serclts := sernet.serclts.insert serclt newbuffer }
    -- `serclt_initialize`
    if dataBlob = 0 then some sernet
    else (sernet.sercltList.add fd serclt 0 node).map fun (_, sercltList) => { sernet with sercltList := sercltList }

/-- `_sernet_eventcb` on a disconnect. -/
def eventcb (sernet : SernetMem) (socketfd : Int) : Option SernetMem :=
  (sernet.sercltList.get socketfd).bind fun pNode =>
    if pNode ≠ 0 then
      (sernet.sercltList.nodes.lookup pNode).bind fun node => (sernet.sercltRelease node.pData).bind fun sernet =>
        (sernet.sercltList.del socketfd false).map fun (_, sercltList) => { sernet with sercltList := sercltList }
    else some sernet

/-- The loop of `sernet_release`. -/
def releaseFrom (sernet : SernetMem) : Nat → Nat → Option SernetMem
  | 0, _ => none
  | n + 1, pNode =>
    if pNode = 0 then some sernet
    else
      (sernet.sercltList.nodes.lookup pNode).bind fun node => (sernet.sercltRelease node.pData).bind fun sernet =>
        { sernet with
          serclts := sernet.serclts.erase node.pData
          freed := sernet.freed ++ [node.pData] : SernetMem }.releaseFrom n node.pNext

/-- `sernet_release` -/
def release (sernet : SernetMem) : Option SernetMem :=
  (sernet.releaseFrom sernet.sercltList.fuel sernet.sercltList.pHead).bind fun sernet =>
    (sernet.sercltList.destory false).map fun (_, sercltList) => { sernet with sercltList := sercltList }

end SernetMem

/-! ## Runs -/

inductive SernetMemEv
  | accept (fd : Int) (newbuffer serclt dataBlob node : Nat)
  | disconnect (socketfd : Int)

namespace SernetMem

def step (sernet : SernetMem) : SernetMemEv → Option SernetMem
  | .accept fd newbuffer serclt dataBlob node => sernet.acceptcb fd newbuffer serclt dataBlob node
  | .disconnect socketfd => sernet.eventcb socketfd

/-- An allocation returns `NULL` or memory that is not in use. -/
def Possible (sernet : SernetMem) : SernetMemEv → Prop
  | .accept _ _ serclt _ node =>
    (serclt = 0 ∨ serclt ∉ sernet.serclts) ∧ (node = 0 ∨ node ∉ sernet.sercltList.nodes)
  | .disconnect _ => True

instance instDecidableSernetPossible (sernet : SernetMem) : ∀ ev, Decidable (sernet.Possible ev)
  | .accept _ _ serclt _ node => inferInstanceAs (Decidable ((serclt = 0 ∨ serclt ∉ sernet.serclts.keys) ∧
      (node = 0 ∨ node ∉ sernet.sercltList.nodes.keys)))
  | .disconnect _ => isTrue trivial

/-- The clients in the table have each a `serclt_info` of their own. -/
structure Holds (sernet : SernetMem) (entries : SimuList NodeData) : Prop where
  represents : sernet.sercltList.Represents entries
  null : 0 ∉ sernet.serclts
  allocated : ∀ e ∈ entries, e.pData.data ∈ sernet.serclts
  nodup : (entries.map fun e => e.pData.data).Nodup

variable {sernet : SernetMem} {entries : SimuList NodeData}

theorem sercltRelease_eq {serclt : Nat} (h : serclt ∈ sernet.serclts) :
    ∃ sernet', sernet.sercltRelease serclt = some sernet' ∧ sernet'.sercltList = sernet.sercltList ∧
      sernet'.serclts = sernet.serclts ∧ sernet'.released = sernet.released ++ [serclt] ∧
      sernet'.freed = sernet.freed := by
  obtain ⟨evbuffer, hev⟩ := Option.isSome_iff_exists.1 (AList.lookup_isSome.2 h)
  unfold sercltRelease
  rw [hev]
  exact ⟨_, rfl, rfl, rfl, rfl, rfl⟩

theorem init_holds (pHead : Nat) {malloc : Nat} (hnull : malloc ≠ 0) : (init pHead malloc).Holds [] where
  represents := (SimuHeap.create_refines pHead hnull).represents
  null := AList.notMem_empty 0
  allocated e he := by cases he
  nodup := List.nodup_nil

theorem Holds.acceptcb (h : sernet.Holds entries) (fd : Int) (newbuffer dataBlob : Nat) {serclt node : Nat}
    (hserclt : serclt = 0 ∨ serclt ∉ sernet.serclts) (hnode : node = 0 ∨ node ∉ sernet.sercltList.nodes) :
    ∃ sernet' entries', sernet.acceptcb fd newbuffer serclt dataBlob node = some sernet' ∧ sernet'.Holds entries' := by
  unfold SernetMem.acceptcb
  by_cases hnew : newbuffer = 0
  · exact ⟨sernet, entries, if_pos hnew, h⟩
  by_cases hnull : serclt = 0
  · exact ⟨sernet, entries, by rw [if_neg hnew, if_pos hnull], h⟩
  rw [if_neg hnew, if_neg hnull]
  have hfresh := hserclt.resolve_left hnull
  have hins : ∀ e ∈ entries, e.pData.data ∈ sernet.serclts.insert serclt newbuffer := by
    intro e he
    exact (AList.mem_insert _).2 (.inr (h.allocated e he))
  have hzero : 0 ∉ sernet.serclts.insert serclt newbuffer := by
    intro hmem
    rcases (AList.mem_insert _).1 hmem with he | hmem
    · exact hnull he.symm
    · exact h.null hmem
  by_cases hblob : dataBlob = 0
  · exact ⟨_, entries, if_pos hblob, h.represents, hzero, hins, h.nodup⟩
  dsimp only
  rw [if_neg hblob, h.represents.add_eq]
  by_cases hkey : (0 : Int) ≠ 1 ∧ (simuListGet entries fd).isSome
  · rw [if_pos hkey]
    exact ⟨_, entries, rfl, h.represents, hzero, hins, h.nodup⟩
  rw [if_neg hkey]
  by_cases hno : node = 0
  · rw [SimuHeap.append, if_pos hno]
    exact ⟨_, entries, rfl, h.represents, hzero, hins, h.nodup⟩
  obtain ⟨sercltList, happend, hrep, -⟩ := h.represents.append_eq fd serclt hno (hnode.resolve_left hno)
  rw [happend]
  refine ⟨_, _, rfl, hrep, hzero, ?_, ?_⟩
  · intro e he
    rcases List.mem_append.1 he with he | he
    · exact hins e he
    · cases List.mem_singleton.1 he
      exact (AList.mem_insert _).2 (.inl rfl)
  · rw [List.map_append, List.nodup_append]
    refine ⟨h.nodup, List.nodup_singleton _, ?_⟩
    intro a ha b hb
    obtain ⟨e, he, rfl⟩ := List.mem_map.1 ha
    cases List.mem_singleton.1 hb
    intro heq
    have hold := h.allocated e he
    rw [heq] at hold
    exact hfresh hold

theorem Holds.eventcb (h : sernet.Holds entries) (socketfd : Int) :
    ∃ sernet' entries', sernet.eventcb socketfd = some sernet' ∧ sernet'.Holds entries' := by
  unfold SernetMem.eventcb
  rw [h.represents.get_eq, Option.bind_some]
  cases hfind : simuListGet entries socketfd with
  | none => exact ⟨sernet, entries, rfl, h⟩
  | some e =>
    have he := List.mem_of_find?_eq_some hfind
    obtain ⟨node, hnode, hdata⟩ := h.represents.node_data he
    obtain ⟨sernet', hrelease, hlist, hserclts, -, -⟩ := sercltRelease_eq (h.allocated e he)
    obtain ⟨sercltList, hdel, hrep, -⟩ := h.represents.del_eq socketfd false
    have hsub : (simuListDel entries socketfd).2.Sublist entries := by
      unfold simuListDel
      split
      · exact List.eraseP_sublist
      · exact List.Sublist.refl _
    rw [Option.elim_some, if_pos (h.represents.node_ne he), hnode, Option.bind_some, hdata, hrelease, Option.bind_some,
      hlist, hdel]
    refine ⟨_, _, rfl, hrep, ?_, ?_, h.nodup.sublist (hsub.map _)⟩
    · rw [hserclts]
      exact h.null
    · intro e' he'
      rw [hserclts]
      exact h.allocated e' (hsub.subset he')

theorem Holds.step (h : sernet.Holds entries) {ev : SernetMemEv} (hev : sernet.Possible ev) :
    ∃ sernet' entries', sernet.step ev = some sernet' ∧ sernet'.Holds entries' := by
  cases ev with
  | accept fd newbuffer serclt dataBlob node => exact h.acceptcb fd newbuffer dataBlob hev.1 hev.2
  | disconnect socketfd => exact h.eventcb socketfd

theorem run_holds (pHead : Nat) {malloc : Nat} (hnull : malloc ≠ 0) (evs : List SernetMemEv)
    (h : Along SernetMem.step Possible (init pHead malloc) evs) :
    ∃ sernet, exec SernetMem.step (init pHead malloc) evs = some sernet ∧ ∃ entries, sernet.Holds entries := by
  refine exec_history (H := fun _ sernet => ∃ entries, sernet.Holds entries) ?_ ⟨[], init_holds pHead hnull⟩ evs h
  rintro - sernet ev ⟨entries, hold⟩ hev
  obtain ⟨sernet', entries', hstep, hold'⟩ := hold.step hev
  exact ⟨sernet', hstep, entries', hold'⟩

/-! ## `sernet_release` -/

/-- Behind the sentinel the loop releases and frees the `serclt_info` of each client. -/
theorem releaseFrom_behind {p n : Nat} {nodes : List (Nat × TagSimuListNode)}
    (hs : Seg TagSimuListNode.pNext sernet.sercltList.nodes p nodes 0) (hn : nodes.length < n)
    (hmem : ∀ a ∈ nodes, a.2.pData ∈ sernet.serclts) (hnodup : (nodes.map fun a => a.2.pData).Nodup) :
    ∃ sernet', sernet.releaseFrom n p = some sernet' ∧
      sernet'.released = sernet.released ++ nodes.map (fun a => a.2.pData) ∧
      sernet'.freed = sernet.freed ++ nodes.map fun a => a.2.pData := by
  induction nodes generalizing sernet p n with
  | nil =>
    obtain ⟨n, rfl⟩ := Nat.exists_eq_add_of_lt hn
    refine ⟨sernet, ?_, (List.append_nil _).symm, (List.append_nil _).symm⟩
    rw [releaseFrom, if_pos (show p = 0 from hs)]
  | cons a nodes ih =>
    obtain ⟨a, node⟩ := a
    obtain ⟨rfl, hnull, hv, hs⟩ := hs
    obtain ⟨hfirst, hnodup⟩ := List.nodup_cons.1 hnodup
    obtain ⟨sernet', hrelease, hlist, hserclts, hreleased, hfreed⟩ :=
      sercltRelease_eq (hmem (p, node) List.mem_cons_self)
    cases n with
    | zero => cases hn
    | succ n =>
      let after : SernetMem := { sernet' with
        serclts := sernet'.serclts.erase node.pData
        freed := sernet'.freed ++ [node.pData] }
      have hrest : ∀ a ∈ nodes, a.2.pData ∈ after.serclts := by
        intro a ha
        have hne : a.2.pData ≠ node.pData := by
          rintro he
          exact hfirst (List.mem_map.2 ⟨a, ha, he⟩)
        refine AList.mem_erase.2 ⟨hne, ?_⟩
        rw [hserclts]
        exact hmem a (List.mem_cons_of_mem _ ha)
      have hs' : Seg TagSimuListNode.pNext after.sercltList.nodes node.pNext nodes 0 := by
        rw [show after.sercltList = sernet.sercltList from hlist]
        exact hs
      obtain ⟨last, hlast, hr, hf⟩ := ih hs' (Nat.lt_of_succ_lt_succ hn) hrest hnodup
      refine ⟨last, ?_, ?_, ?_⟩
      · rw [releaseFrom, if_neg hnull, hv, Option.bind_some, hrelease]
        exact hlast
      · rw [hr, show after.released = sernet'.released from rfl, hreleased, List.append_assoc]
        rfl
      · rw [hf, show after.freed = sernet'.freed ++ [node.pData] from rfl, hfreed, List.append_assoc]
        rfl

theorem Holds.releaseFrom_behind (h : sernet.Holds entries) :
    ∃ head sernet', sernet.sercltList.nodes.lookup sernet.sercltList.pHead = some head ∧
      sernet.releaseFrom sernet.sercltList.fuel head.pNext = some sernet' ∧
      sernet'.released = sernet.released ++ entries.map (fun e => e.pData.data) ∧
      sernet'.freed = sernet.freed ++ entries.map fun e => e.pData.data := by
  obtain ⟨head, nodes, hhead, -, -, -, hs, rfl, hfuel⟩ := h.represents.sentinel
  have hmap : (nodes.map entryOf).map (fun e => e.pData.data) = nodes.map fun a => a.2.pData := List.map_map
  have hnodup := h.nodup
  rw [hmap] at hnodup ⊢
  have hmem : ∀ a ∈ nodes, a.2.pData ∈ sernet.serclts := fun a ha => h.allocated (entryOf a) (List.mem_map_of_mem ha)
  obtain ⟨sernet', hfrom, hreleased, hfreed⟩ := SernetMem.releaseFrom_behind hs hfuel hmem hnodup
  exact ⟨head, sernet', hhead, hfrom, hreleased, hfreed⟩

/-- `sernet_release` calls `serclt_release` on the `serclt_info` of each client in the table
and frees it, and then destroys the list. -/
def TearsDown (sernet : SernetMem) (entries : SimuList NodeData) : Prop :=
  ∃ sernet', sernet.releaseFrom sernet.sercltList.fuel sernet.sercltList.pHead = some sernet' ∧
    sernet'.released = sernet.released ++ entries.map (fun e => e.pData.data) ∧
    sernet'.freed = sernet.freed ++ entries.map (fun e => e.pData.data) ∧ sernet.release.isSome

/-- The sentinel's data is `NULL`. -/
theorem Holds.releaseFrom_none (h : sernet.Holds entries) :
    sernet.releaseFrom sernet.sercltList.fuel sernet.sercltList.pHead = none := by
  obtain ⟨head, nodes, hhead, -, hdata, hchain, -⟩ := h.represents.sentinel
  have hnull : sernet.sercltList.pHead ≠ 0 := hchain.2.1
  have hrelease : sernet.sercltRelease 0 = none := by
    rw [sercltRelease, AList.lookup_eq_none.2 h.null]
    rfl
  rw [SimuHeap.fuel, releaseFrom, if_neg hnull, hhead, Option.bind_some, hdata, hrelease]
  rfl

theorem Holds.not_tearsDown (h : sernet.Holds entries) : ¬ sernet.TearsDown entries := by
  rintro ⟨sernet', hfrom, -⟩
  cases hfrom.symm.trans h.releaseFrom_none

/-- Whoever is in the table, `sernet_release` does not get past the sentinel. -/
theorem release_never (pHead malloc : Nat) (hcreate : (SimuHeap.create pHead malloc).1 = 0) (evs : List SernetMemEv)
    (h : Along SernetMem.step Possible (init pHead malloc) evs) :
    ∃ sernet, exec SernetMem.step (init pHead malloc) evs = some sernet ∧
      ∃ entries, sernet.sercltList.Represents entries ∧ sernet.release = none ∧ ¬ sernet.TearsDown entries := by
  have hnull := SimuHeap.create_ne hcreate
  obtain ⟨sernet, hexec, entries, hold⟩ := run_holds pHead hnull evs h
  refine ⟨sernet, hexec, entries, hold.represents, ?_, hold.not_tearsDown⟩
  rw [release, hold.releaseFrom_none]
  rfl

theorem release_never_two :
    ∃ sernet, exec SernetMem.step (init 0 10)
        [.accept 7 50 60 70 20, .accept 8 51 61 71 30, .disconnect 7, .accept 7 52 62 72 20] = some sernet ∧
      ∃ entries, sernet.sercltList.Represents entries ∧ sernet.release = none ∧ ¬ sernet.TearsDown entries :=
  release_never 0 10 (by decide) [.accept 7 50 60 70 20, .accept 8 51 61 71 30, .disconnect 7, .accept 7 52 62 72 20]
    (by decide +kernel)

/-- Not even without a client. -/
theorem release_empty :
    (init 0 10).sercltList.Represents [] ∧ (init 0 10).release = none ∧ ¬ (init 0 10).TearsDown [] := by
  have hold := init_holds 0 (show 10 ≠ 0 by decide)
  exact ⟨hold.represents, by decide +kernel, hold.not_tearsDown⟩

end SernetMem

end CmdAgent
