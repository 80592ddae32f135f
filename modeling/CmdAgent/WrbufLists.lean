import Mathlib.Data.List.Find
import CmdAgent.ListHead
import CmdAgent.Pool
/-!
# The command slots in memory

`Netcom` has `wrbuf_unused_list` and `wrbuf_used_list` as lists. In memory they are two
circles through the same `node`s, which only `list_add` and `list_move_tail` change.
Here are the list operations of `netcom.c` on the pointers, and that they do what the
lists say.
-/
open StreamLib.Circular StreamLib.Runs

namespace CmdAgent

/-! ## The functions -/

/-- The `struct list_head`s of the slots. -/
inductive WrbufNode
  | unusedList
  | usedList
  | node (slot : Nat)
  deriving DecidableEq

/-- The slots. `entry` is `ts` and `action` of the slot a node is in, which is what
`list_entry` leads to. The last two fields are histories: they are written and never read. -/
structure WrbufMem (α : Type) where
  links : Links WrbufNode
  entry : WrbufNode → Timespec × NetcomAction α
  accepted : List (NetcomAction α)
  calls : List (NetcomAction α × Option (List UInt8))

variable {α : Type}

/-- The lists of `netcom_allocate_buffer`; `h` is what the memory holds. -/
def netcomAllocateLists [Inhabited α] (h : Links WrbufNode) : WrbufMem α where
  links := (List.range l0006NetcomWrbufferMax).foldl
    (fun links i => listAdd (initListHead links (.node i)) (.node i) .unusedList)
    (initListHead (initListHead h .unusedList) .usedList)
  entry := fun _ => (⟨0, 0⟩, ⟨default, 0⟩)
  accepted := []
  calls := []

/-- `l0006_netcom_write` -/
def WrbufMem.write (mem : WrbufMem α) (connected : Bool) (bev : Option Nat) (ncaction : NetcomAction α) (ack : Bool)
    (ts : Timespec) (added : Bool) : Int × WrbufMem α :=
  if connected then
    if !listEmpty mem.links .unusedList then
      if bev.isSome then
        let ncwrbuf := mem.links.next .unusedList
        let mem := { mem with entry := Function.update mem.entry ncwrbuf (ts, ncaction) }
        if !added then (-1, mem)
        else if ack then (0, { mem with links := listMoveTail mem.links (mem.links.next .unusedList) .usedList })
        else (0, mem)
      else (-1, mem)
    else (-1, mem)
  else (-1, mem)

/-- The callback of a slot is called and the slot moved to the unused list. -/
def WrbufMem.release (mem : WrbufMem α) (pos : WrbufNode) (packet : Option (List UInt8)) : WrbufMem α :=
  { mem with
    calls := mem.calls ++ [((mem.entry pos).2, packet)]
    links := listMoveTail mem.links pos .unusedList }

/-- The search of `netcom_readcb`: one round. -/
def WrbufMem.lookupRound (seqno : UInt8) (packet : List UInt8) (mem : WrbufMem α) (pos : WrbufNode) :
    WrbufMem α × Bool :=
  if (mem.entry pos).2.seqno = seqno then (mem.release pos (some packet), false) else (mem, true)

def WrbufMem.lookup (mem : WrbufMem α) (seqno : UInt8) (packet : List UInt8) : Option (WrbufMem α) :=
  listForEachSafe WrbufMem.links (WrbufMem.lookupRound seqno packet) .usedList (l0006NetcomWrbufferMax + 1) mem
    (mem.links.next .usedList)

/-- The scan of `netcom_timeoutcb`: one round. -/
def WrbufMem.timeoutRound (now : Timespec) (mem : WrbufMem α) (pos : WrbufNode) : WrbufMem α × Bool :=
  if l0001Timespecelapsed now (mem.entry pos).1 > l0006NetcomTimeoutPeriodMs then (mem.release pos none, true)
  else (mem, false)

def WrbufMem.timeoutcb (mem : WrbufMem α) (now : Timespec) : Option (WrbufMem α) :=
  if !listEmpty mem.links .usedList then
    listForEachSafe WrbufMem.links (WrbufMem.timeoutRound now) .usedList (l0006NetcomWrbufferMax + 1) mem
      (mem.links.next .usedList)
  else some mem

inductive ListCall (α : Type) where
  | write (connected : Bool) (bev : Option Nat) (ncaction : NetcomAction α) (ack : Bool) (ts : Timespec) (added : Bool)
  | lookup (seqno : UInt8) (packet : List UInt8)
  | timeoutcb (now : Timespec)

/-- `none` is a loop that goes on. -/
def WrbufMem.step (mem : WrbufMem α) : ListCall α → Option (WrbufMem α)
  | .write connected bev ncaction ack ts added =>
    let r := mem.write connected bev ncaction ack ts added
    some { r.2 with accepted := if r.1 = 0 ∧ ack = true then mem.accepted ++ [ncaction] else mem.accepted }
  | .lookup seqno packet => mem.lookup seqno packet
  | .timeoutcb now => mem.timeoutcb now

/-! ## What the memory stands for -/

/-- The node of a slot. -/
def NetcomWrbuf.listNode (ncwrbuf : NetcomWrbuf α) : WrbufNode := .node ncwrbuf.slot

/-- The circles spell the lists, and the slots hold what the entries say. -/
structure WrbufMem.Refines (mem : WrbufMem α) (nc : Netcom α) : Prop where
  unused : RingOf mem.links .unusedList (nc.unused.map NetcomWrbuf.listNode)
  used : RingOf mem.links .usedList (nc.used.map NetcomWrbuf.listNode)
  slots : nc.slots.Perm (List.range l0006NetcomWrbufferMax)
  entry : ∀ ncwrbuf ∈ nc.unused ++ nc.used, mem.entry ncwrbuf.listNode = (ncwrbuf.ts, ncwrbuf.action)

variable {mem mem' : WrbufMem α} {nc t : Netcom α} {ncwrbuf : NetcomWrbuf α} {l₁ l₂ : List (NetcomWrbuf α)}

/-- The memory stands for the lists only. -/
theorem WrbufMem.Refines.congr (h : mem.Refines nc) (hunused : t.unused = nc.unused) (hused : t.used = nc.used) :
    mem.Refines t := by
  obtain ⟨hring, hring', hslots, hentry⟩ := h
  unfold Netcom.slots at hslots
  rw [← hunused] at hring hslots hentry
  rw [← hused] at hring' hslots hentry
  exact ⟨hring, hring', hslots, hentry⟩

theorem slots_nodup (h : mem.Refines nc) : (nc.unused.map NetcomWrbuf.slot ++ nc.used.map NetcomWrbuf.slot).Nodup := by
  rw [← List.map_append]
  exact h.slots.nodup_iff.2 List.nodup_range

theorem used_length (h : mem.Refines nc) : nc.used.length < l0006NetcomWrbufferMax + 1 := by
  have hlen := h.slots.length_eq
  unfold Netcom.slots at hlen
  rw [List.length_map, List.length_append, List.length_range] at hlen
  omega

theorem mem_listNode {slot : Nat} {l : List (NetcomWrbuf α)} :
    WrbufNode.node slot ∈ l.map NetcomWrbuf.listNode ↔ slot ∈ l.map NetcomWrbuf.slot := by
  simp [NetcomWrbuf.listNode]

/-- No node is in both circles. -/
theorem rings_disjoint (h : mem.Refines nc) :
    ∀ y ∈ WrbufNode.usedList :: nc.used.map NetcomWrbuf.listNode,
      y ∉ WrbufNode.unusedList :: nc.unused.map NetcomWrbuf.listNode := by
  intro y hy hy'
  cases y with
  | unusedList => simp [NetcomWrbuf.listNode] at hy
  | usedList => simp [NetcomWrbuf.listNode] at hy'
  | node slot =>
    have hused := mem_listNode.1 ((List.mem_cons.1 hy).resolve_left nofun)
    have hunused := mem_listNode.1 ((List.mem_cons.1 hy').resolve_left nofun)
    exact (List.nodup_append.1 (slots_nodup h)).2.2 slot hunused slot hused rfl

/-- An entry goes from the used list to the end of the unused list. -/
theorem release_refines (h : mem.Refines nc) (hnc : nc.used = l₁ ++ ncwrbuf :: l₂) (hused : t.used = l₁ ++ l₂)
    (hunused : t.unused = nc.unused ++ [ncwrbuf]) (packet : Option (List UInt8)) :
    (mem.release ncwrbuf.listNode packet).Refines t := by
  have hring := h.used
  have hdisj := rings_disjoint h
  rw [hnc, List.map_append, List.map_cons] at hring hdisj
  obtain ⟨hused', hunused'⟩ := listMoveTail_ring hring h.unused hdisj
  have hperm : (t.unused ++ t.used).Perm (nc.unused ++ nc.used) := by
    rw [hused, hunused, hnc, List.append_assoc, List.singleton_append]
    exact List.Perm.append_left _ List.perm_middle.symm
  refine ⟨?_, ?_, (hperm.map NetcomWrbuf.slot).trans h.slots, fun w hw => h.entry w (hperm.mem_iff.1 hw)⟩
  · rw [hunused, List.map_append]
    exact hunused'
  · rw [hused, List.map_append]
    exact hused'

/-! ## The operations -/

/-- The circles after `n` slots have been put into the unused list. -/
theorem allocate_rings (h : Links WrbufNode) (n : Nat) :
    let links := (List.range n).foldl
      (fun links i => listAdd (initListHead links (.node i)) (.node i) .unusedList)
      (initListHead (initListHead h .unusedList) .usedList)
    RingOf links .unusedList ((List.range n).reverse.map WrbufNode.node) ∧ RingOf links .usedList [] := by
  induction n with
  | zero =>
    refine ⟨initListHead_other (initListHead_ring h _) ?_, initListHead_ring _ _⟩
    exact fun hmem => absurd (List.mem_singleton.1 hmem) nofun
  | succ n ih =>
    obtain ⟨hunused, hused⟩ := ih
    rw [List.range_succ, List.foldl_append, List.reverse_append, List.map_append]
    have hnew : WrbufNode.node n ∉ WrbufNode.unusedList :: (List.range n).reverse.map WrbufNode.node := by
      simp
    have hother : WrbufNode.node n ∉ [WrbufNode.usedList] := by simp
    have hunused' := initListHead_other hunused hnew
    refine ⟨listAdd_ring hunused' hnew, listAdd_other hunused' (initListHead_other hused hother) ?_ hother⟩
    rintro y hy
    rw [List.mem_singleton.1 hy]
    simp

theorem allocate_refines [Inhabited α] (h : Links WrbufNode) :
    (netcomAllocateLists h : WrbufMem α).Refines netcomAllocateBuffer := by
  obtain ⟨hunused, hused⟩ := allocate_rings h l0006NetcomWrbufferMax
  refine ⟨?_, hused, allocateBuffer_slots, ?_⟩
  · rw [netcomAllocateBuffer, List.map_map]
    exact hunused
  · intro ncwrbuf hmem
    rw [netcomAllocateBuffer, List.append_nil] at hmem
    obtain ⟨slot, -, rfl⟩ := List.mem_map.1 hmem
    rfl

/-- Only the slot in front of the unused list is written. -/
theorem setEntry_refines (h : mem.Refines nc) (hnc : nc.unused = ncwrbuf :: l₂) (ts : Timespec)
    (ncaction : NetcomAction α) {u : Netcom α} (hunused : u.unused = { ncwrbuf with ts := ts, action := ncaction } :: l₂)
    (hused : u.used = nc.used) :
    WrbufMem.Refines { mem with entry := Function.update mem.entry ncwrbuf.listNode (ts, ncaction) } u := by
  have hnodup := slots_nodup h
  rw [hnc, List.map_cons, List.cons_append, List.nodup_cons] at hnodup
  have hslots : u.unused.map NetcomWrbuf.slot = nc.unused.map NetcomWrbuf.slot := by
    rw [hunused, hnc]
    rfl
  refine ⟨?_, ?_, ?_, ?_⟩
  · have hring := h.unused
    rw [hnc] at hring
    rw [hunused]
    exact hring
  · rw [hused]
    exact h.used
  · have hperm := h.slots
    unfold Netcom.slots at hperm ⊢
    rw [List.map_append] at hperm ⊢
    rw [hslots, hused]
    exact hperm
  · intro w hw
    rw [hunused, hused, List.cons_append, List.mem_cons] at hw
    rcases hw with rfl | hw
    · exact Function.update_self _ _ _
    · have hslot : w.slot ≠ ncwrbuf.slot := by
        intro he
        refine hnodup.1 ?_
        rw [← List.map_append, ← he]
        exact List.mem_map_of_mem hw
      have hne : w.listNode ≠ ncwrbuf.listNode := fun he => hslot (WrbufNode.node.inj he)
      refine (Function.update_of_ne hne _ _).trans (h.entry w ?_)
      rw [hnc]
      exact List.mem_cons_of_mem _ hw

/-- An entry goes from the front of the unused list to the end of the used list. -/
theorem queue_refines (ncwrbuf : NetcomWrbuf α) (h : mem.Refines nc) (hnc : nc.unused = ncwrbuf :: l₂)
    (hunused : t.unused = l₂) (hused : t.used = nc.used ++ [ncwrbuf]) :
    WrbufMem.Refines { mem with links := listMoveTail mem.links ncwrbuf.listNode .usedList } t := by
  have hring : RingOf mem.links .unusedList ([] ++ ncwrbuf.listNode :: l₂.map NetcomWrbuf.listNode) := by
    have hring := h.unused
    rw [hnc] at hring
    exact hring
  have hdisj := rings_disjoint h
  rw [hnc] at hdisj
  obtain ⟨hunused', hused'⟩ := listMoveTail_ring hring h.used fun y hy hy' => hdisj y hy' hy
  have hperm : (t.unused ++ t.used).Perm (nc.unused ++ nc.used) := by
    rw [hused, hunused, hnc, ← List.append_assoc]
    exact List.perm_append_singleton _ _
  refine ⟨?_, ?_, (hperm.map NetcomWrbuf.slot).trans h.slots, fun w hw => h.entry w (hperm.mem_iff.1 hw)⟩
  · rw [hunused]
    exact hunused'
  · rw [hused, List.map_append]
    exact hused'

/-- `l0006_netcom_write` returns the same, and the lists are as they should be. -/
theorem write_refines (h : mem.Refines nc) (ncaction : NetcomAction α) (ack : Bool) (ts : Timespec) (added : Bool) :
    (mem.write nc.connected nc.bev ncaction ack ts added).1 = (l0006NetcomWrite nc ncaction ack ts added).1 ∧
      (mem.write nc.connected nc.bev ncaction ack ts added).2.Refines (l0006NetcomWrite nc ncaction ack ts added).2 ∧
      (mem.write nc.connected nc.bev ncaction ack ts added).2.calls = mem.calls := by
  unfold WrbufMem.write l0006NetcomWrite
  by_cases hcon : nc.connected = true
  · rw [if_pos hcon, if_pos hcon, listEmpty_ring h.unused]
    cases hun : nc.unused with
    | nil => exact ⟨rfl, h, rfl⟩
    | cons ncwrbuf unused =>
      cases hbev : nc.bev with
      | none => exact ⟨rfl, h, rfl⟩
      | some b =>
        have hring := h.unused
        rw [hun, List.map_cons] at hring
        have hfront : mem.links.next .unusedList = ncwrbuf.listNode := hring.next_head
        have hset := setEntry_refines h hun ts ncaction
          (u := { nc with unused := { ncwrbuf with ts := ts, action := ncaction } :: unused }) rfl rfl
        simp only [List.map_cons, List.isEmpty_cons, Bool.not_false, if_true, Option.isSome_some, hfront]
        cases added with
        | false => exact ⟨rfl, setEntry_refines h hun ts ncaction rfl rfl, rfl⟩
        | true =>
          cases ack with
          | false => exact ⟨rfl, setEntry_refines h hun ts ncaction rfl rfl, rfl⟩
          | true => exact ⟨rfl, queue_refines { ncwrbuf with ts := ts, action := ncaction } hset rfl rfl rfl, rfl⟩
  · rw [if_neg hcon, if_neg hcon]
    exact ⟨rfl, h, rfl⟩

/-- The search finds the entry the list says, and moves it. -/
theorem lookup_refines (h : mem.Refines nc) (seqno : UInt8) (packet : List UInt8) :
    ∃ mem', mem.lookup seqno packet = some mem' ∧ mem'.Refines (netcomLookup nc seqno packet) ∧
      mem'.accepted = mem.accepted ∧
      mem'.calls = mem.calls ++
        ((nc.used.find? fun ncwrbuf => ncwrbuf.action.seqno == seqno).map fun ncwrbuf =>
          (ncwrbuf.action, some packet)).toList := by
  have hfind : (nc.used.map NetcomWrbuf.listNode).find? (fun pos => (mem.entry pos).2.seqno = seqno) =
      (nc.used.find? fun ncwrbuf => ncwrbuf.action.seqno == seqno).map NetcomWrbuf.listNode := by
    rw [List.find?_map]
    congr 1
    refine List.find?_congr fun ncwrbuf hmem => ?_
    rw [Function.comp_apply, h.entry ncwrbuf (List.mem_append_right _ hmem), Bool.beq_eq_decide_eq]
  have hscan : mem.lookup seqno packet =
      some (((nc.used.map NetcomWrbuf.listNode).find? fun pos => (mem.entry pos).2.seqno = seqno).elim mem
        fun pos => mem.release pos (some packet)) := by
    refine listForEachSafe_find (fun x => ?_) h.used.path (List.nodup_cons.1 h.used.nodup).1 ?_
    · simp only [WrbufMem.lookupRound, decide_eq_true_eq]
    · rw [List.length_map]
      exact used_length h
  rw [hscan, hfind]
  cases hhit : nc.used.find? (fun ncwrbuf => ncwrbuf.action.seqno == seqno) with
  | none =>
    refine ⟨mem, rfl, h.congr ?_ ?_, rfl, (List.append_nil _).symm⟩
    · simp only [netcomLookup, hhit]
    · simp only [netcomLookup, hhit]
  | some ncwrbuf =>
    obtain ⟨-, l₁, l₂, hused, hrest⟩ := lookup_used hhit packet
    have hmem : ncwrbuf ∈ nc.used := List.mem_of_find?_eq_some hhit
    have hunused : (netcomLookup nc seqno packet).unused = nc.unused ++ [ncwrbuf] := by simp only [netcomLookup, hhit]
    refine ⟨_, rfl, release_refines h hused hrest hunused (some packet), rfl, ?_⟩
    change mem.calls ++ [((mem.entry ncwrbuf.listNode).2, some packet)] = _
    rw [h.entry ncwrbuf (List.mem_append_right _ hmem)]
    rfl

/-- A round of the scan on the entry in front. -/
theorem timeoutRound_front (h : mem.Refines nc) (hnc : nc.used = ncwrbuf :: l₂) (now : Timespec) :
    mem.timeoutRound now ncwrbuf.listNode =
      if fires now ncwrbuf then (mem.release ncwrbuf.listNode none, true) else (mem, false) := by
  have hentry := h.entry ncwrbuf (by rw [hnc]; exact List.mem_append_right _ List.mem_cons_self)
  rw [WrbufMem.timeoutRound, hentry, fires]
  simp only [decide_eq_true_eq]

theorem timeoutScan_refines (now : Timespec) {used : List (NetcomWrbuf α)} {fuel : Nat} (hfuel : used.length < fuel)
    (h : mem.Refines nc) (hnc : nc.used = used) :
    ∃ mem', listForEachSafe WrbufMem.links (WrbufMem.timeoutRound now) .usedList fuel mem (mem.links.next .usedList) =
        some mem' ∧ mem'.Refines (netcomTimeoutScan now used.length nc).1 ∧ mem'.accepted = mem.accepted ∧
      mem'.calls = mem.calls ++ (netcomTimeoutScan now used.length nc).2.map fun ncwrbuf => (ncwrbuf.action, none) := by
  induction used generalizing mem nc fuel with
  | nil =>
    have hempty : mem.links.next .usedList = .usedList := h.used.empty_iff.2 (by rw [hnc]; rfl)
    cases fuel with
    | zero => exact absurd hfuel (Nat.not_lt_zero _)
    | succ m =>
      rw [listForEachSafe, if_pos hempty]
      exact ⟨mem, rfl, h, rfl, (List.append_nil _).symm⟩
  | cons ncwrbuf used ih =>
    cases fuel with
    | zero => exact absurd hfuel (Nat.not_lt_zero _)
    | succ m =>
      have hring := h.used
      rw [hnc, List.map_cons] at hring
      have hne : ncwrbuf.listNode ≠ .usedList := by rintro ⟨⟩
      rw [hring.next_head, listForEachSafe, if_neg hne, List.length_cons, netcomTimeoutScan, expired_cons hnc,
        timeoutRound_front h hnc]
      by_cases hold : fires now ncwrbuf = true
      · rw [if_pos hold, if_pos hold]
        have hused : (netcomExpire nc ncwrbuf).used = used := by rw [netcomExpire, hnc, List.tail_cons]
        have hrel : (mem.release ncwrbuf.listNode none).Refines (netcomExpire nc ncwrbuf) :=
          release_refines h (show nc.used = [] ++ ncwrbuf :: used from hnc)
            (show (netcomExpire nc ncwrbuf).used = [] ++ used from hused) rfl none
        have hring' := hrel.used
        rw [hused] at hring'
        obtain ⟨mem', hrun, href, hacc, hcalls⟩ := ih (Nat.lt_of_succ_lt_succ hfuel) hrel hused
        -- The node read before the slot was moved is the one in front now.
        rw [hring.next_first hring']
        refine ⟨mem', hrun, href, hacc, hcalls.trans ?_⟩
        change (mem.calls ++ [((mem.entry ncwrbuf.listNode).2, none)]) ++ _ = _
        rw [h.entry ncwrbuf (by rw [hnc]; exact List.mem_append_right _ List.mem_cons_self), List.append_assoc]
        rfl
      · rw [if_neg hold, if_neg hold]
        exact ⟨mem, rfl, h, rfl, (List.append_nil _).symm⟩

/-- The scan calls what is too old at the front of the used list. -/
theorem timeoutcb_refines (h : mem.Refines nc) (now : Timespec) :
    ∃ mem', mem.timeoutcb now = some mem' ∧ mem'.Refines (netcomTimeoutcb nc now).1 ∧ mem'.accepted = mem.accepted ∧
      mem'.calls = mem.calls ++ (netcomTimeoutcb nc now).2.map fun ncwrbuf => (ncwrbuf.action, none) := by
  unfold WrbufMem.timeoutcb netcomTimeoutcb
  rw [listEmpty_ring h.used]
  cases hused : nc.used with
  | nil => exact ⟨mem, rfl, h, rfl, (List.append_nil _).symm⟩
  | cons ncwrbuf used => exact timeoutScan_refines now (by rw [← hused]; exact used_length h) h hused

/-! ## The receiver -/

/-- The search an event of the receiver stands for. -/
def NetcomEv.listCall? : NetcomEv α → Option (ListCall α)
  | .lookup seqno packet _ => some (.lookup seqno packet)
  | _ => none

/-- The receiver went from `nc` to `t`, and its searches take the memory along. -/
def Searches (nc t : Netcom α) : Prop :=
  ∃ evs, t.log = nc.log ++ evs ∧ ∀ mem : WrbufMem α, mem.Refines nc →
    ∃ mem', exec WrbufMem.step mem (evs.filterMap NetcomEv.listCall?) = some mem' ∧ mem'.Refines t ∧
      mem'.accepted = mem.accepted ∧
      mem'.calls = mem.calls ++ (evs.filterMap NetcomEv.call?).map fun c => (c.1.action, some c.2)

theorem searches_rel : ReceiverRel (@Searches α) where
  trans := by
    rintro nc t u ⟨evs, hlog, hmem⟩ ⟨evs', hlog', hmem'⟩
    refine ⟨evs ++ evs', by rw [hlog', hlog, List.append_assoc], fun mem h => ?_⟩
    obtain ⟨mem₁, hrun₁, href₁, hacc₁, hcalls₁⟩ := hmem mem h
    obtain ⟨mem₂, hrun₂, href₂, hacc₂, hcalls₂⟩ := hmem' mem₁ href₁
    refine ⟨mem₂, ?_, href₂, hacc₂.trans hacc₁, ?_⟩
    · rw [List.filterMap_append, exec_append, hrun₁]
      exact hrun₂
    · rw [hcalls₂, hcalls₁, List.filterMap_append, List.map_append, List.append_assoc]
  lookup := by
    intro nc seqno packet
    refine ⟨[.lookup seqno packet (nc.used.find? fun ncwrbuf => ncwrbuf.action.seqno == seqno)], ?_, fun mem h => ?_⟩
    · unfold netcomLookup
      split <;> simp only [*]
    · obtain ⟨mem', hrun, href, hacc, hcalls⟩ := lookup_refines h seqno packet
      refine ⟨mem', exec_cons [] hrun, href, hacc, ?_⟩
      rw [hcalls]
      cases nc.used.find? fun ncwrbuf => ncwrbuf.action.seqno == seqno <;> rfl
  frame := by
    intro nc t evs hlog hevs hused hunused _
    refine ⟨evs, hlog, fun mem h => ⟨mem, ?_, h.congr hunused hused, rfl, ?_⟩⟩
    · have hsearches : evs.filterMap NetcomEv.listCall? = [] := by
        refine List.filterMap_eq_nil_iff.2 fun ev hev => ?_
        cases ev with
        | lookup => exact absurd trivial (hevs _ hev)
        | append | drop | discard => rfl
      rw [hsearches]
      rfl
    · rw [calls_nil hevs]
      exact (List.append_nil _).symm

/-! ## Runs -/

/-- The list operations of a step of the event loop from `p` to `q`. -/
def Pool.listCalls (p q : Pool α) : PoolEv α → List (ListCall (Nat × α))
  | .write ncaction ack ts added => [.write p.nc.connected p.nc.bev (p.mark ncaction) ack ts added]
  | .netcom (.rd _) => (q.nc.log.drop p.nc.log.length).filterMap NetcomEv.listCall?
  | .netcom (.timeoutcb now) => [.timeoutcb now]
  | .netcom (.link ..) => []

/-- The list operations of a run. -/
def Pool.runCalls (env : Env) : Pool α → List (PoolEv α) → List (ListCall (Nat × α))
  | _, [] => []
  | p, ev :: evs => (p.step env ev).elim [] fun q => p.listCalls q ev ++ Pool.runCalls env q evs

/-- The memory stands for the pool, and has the same history. -/
structure WrbufMem.Tracks (mem : WrbufMem (Nat × α)) (p : Pool α) : Prop where
  refines : mem.Refines p.nc
  accepted : mem.accepted = p.accepted
  calls : mem.calls = p.calls.map fun c => (c.1.action, c.2)

theorem tracks_step {env : Env} {mem : WrbufMem (Nat × α)} {p q : Pool α} {ev : PoolEv α} (h : mem.Tracks p)
    (hstep : p.step env ev = some q) : ∃ mem', exec WrbufMem.step mem (p.listCalls q ev) = some mem' ∧ mem'.Tracks q := by
  cases ev with
  | write ncaction ack ts added =>
    cases hstep
    obtain ⟨hret, href, hcalls⟩ := write_refines h.refines (p.mark ncaction) ack ts added
    refine ⟨_, rfl, ⟨href.unused, href.used, href.slots, href.entry⟩, ?_, hcalls.trans h.calls⟩
    change (if (mem.write p.nc.connected p.nc.bev (p.mark ncaction) ack ts added).1 = 0 ∧ ack = true then
      mem.accepted ++ [p.mark ncaction] else mem.accepted) = _
    rw [hret, h.accepted]
    rfl
  | netcom i =>
    obtain ⟨⟨t, called⟩, ht, rfl⟩ := Option.map_eq_some_iff.1 hstep
    cases i with
    | rd i =>
      obtain ⟨u, hu, he⟩ := Option.map_eq_some_iff.1 ht
      cases he
      obtain ⟨evs, hlog, hmem⟩ := searches_rel.rdStep hu
      obtain ⟨mem', hrun, href, hacc, hcalls⟩ := hmem mem h.refines
      refine ⟨mem', ?_, href, hacc.trans h.accepted, ?_⟩
      · simp only [Pool.listCalls, hlog, List.drop_left]
        exact hrun
      · simp only [hcalls, h.calls, hlog, List.drop_left, List.map_append, List.map_map]
        rfl
    | timeoutcb now =>
      cases ht
      obtain ⟨mem', hrun, href, hacc, hcalls⟩ := timeoutcb_refines h.refines now
      refine ⟨mem', exec_cons [] hrun, href, hacc.trans h.accepted, ?_⟩
      simp only [hcalls, h.calls, List.map_append, List.map_map]
      rfl
    | link connected bev =>
      cases ht
      exact ⟨mem, rfl, h.refines.congr rfl rfl, h.accepted, by rw [h.calls, List.append_nil]⟩

theorem tracks_run {env : Env} {mem : WrbufMem (Nat × α)} {p q : Pool α} {evs : List (PoolEv α)} (h : mem.Tracks p)
    (hrun : exec (Pool.step env) p evs = some q) :
    ∃ mem', exec WrbufMem.step mem (Pool.runCalls env p evs) = some mem' ∧ mem'.Tracks q := by
  induction evs generalizing mem p with
  | nil =>
    cases hrun
    exact ⟨mem, rfl, h⟩
  | cons ev evs ih =>
    obtain ⟨t, ht, hrest⟩ := exec_cons_eq_some.1 hrun
    obtain ⟨mem₁, hrun₁, h₁⟩ := tracks_step h ht
    obtain ⟨mem₂, hrun₂, h₂⟩ := ih h₁ hrest
    refine ⟨mem₂, ?_, h₂⟩
    rw [Pool.runCalls, ht, Option.elim_some, exec_append, hrun₁]
    exact hrun₂

/-- A way along `next` meets the nodes and comes back to `head`, and one along `prev` meets
them the other way round. -/
structure WalksBoth (links : Links WrbufNode) (head : WrbufNode) (nodes : List WrbufNode) : Prop where
  next : walk links head (l0006NetcomWrbufferMax + 1) (links.next head) = some nodes
  prev : walk links.reverse head (l0006NetcomWrbufferMax + 1) (links.prev head) = some nodes.reverse

/-- The memory has the history of the pool, and ways along either list, in both directions,
meet its slots in order; together these are all slots, each once. -/
structure WrbufMem.Spells (mem : WrbufMem (Nat × α)) (p : Pool α) : Prop where
  accepted : mem.accepted = p.accepted
  calls : mem.calls = p.calls.map fun c => (c.1.action, c.2)
  entry : ∀ ncwrbuf ∈ p.nc.unused ++ p.nc.used, mem.entry ncwrbuf.listNode = (ncwrbuf.ts, ncwrbuf.action)
  unused : WalksBoth mem.links .unusedList (p.nc.unused.map NetcomWrbuf.listNode)
  used : WalksBoth mem.links .usedList (p.nc.used.map NetcomWrbuf.listNode)
  slots : (p.nc.unused.map NetcomWrbuf.listNode ++ p.nc.used.map NetcomWrbuf.listNode).Perm
    ((List.range l0006NetcomWrbufferMax).map WrbufNode.node)

theorem WrbufMem.Tracks.spells {mem : WrbufMem (Nat × α)} {p : Pool α} (h : mem.Tracks p) : mem.Spells p := by
  have hlen := h.refines.slots.length_eq
  unfold Netcom.slots at hlen
  rw [List.length_map, List.length_append, List.length_range] at hlen
  have hunused : (p.nc.unused.map NetcomWrbuf.listNode).length < l0006NetcomWrbufferMax + 1 := by
    rw [List.length_map]
    omega
  have hused : (p.nc.used.map NetcomWrbuf.listNode).length < l0006NetcomWrbufferMax + 1 := by
    rw [List.length_map]
    omega
  refine ⟨h.accepted, h.calls, h.refines.entry, ⟨h.refines.unused.walk_eq hunused, h.refines.unused.walk_back hunused⟩,
    ⟨h.refines.used.walk_eq hused, h.refines.used.walk_back hused⟩, ?_⟩
  have hperm := h.refines.slots.map WrbufNode.node
  unfold Netcom.slots at hperm
  rw [List.map_map, List.map_append] at hperm
  exact hperm

/-- Over every run from `netcom_allocate_buffer` on, whatever the memory held, the code on the
pointers ends each of its loops, makes the calls the lists say, and both lists go on being
circles through all sixteen slots. -/
theorem slot_lists_in_memory [Inhabited α] (env : Env) (h : Links WrbufNode) (evs : List (PoolEv α)) (q : Pool α)
    (hrun : exec (Pool.step env) Pool.init evs = some q) :
    ∃ mem, exec WrbufMem.step (netcomAllocateLists h) (Pool.runCalls env Pool.init evs) = some mem ∧ mem.Spells q := by
  have hinit : (netcomAllocateLists h : WrbufMem (Nat × α)).Tracks Pool.init := ⟨allocate_refines h, rfl, rfl⟩
  obtain ⟨mem, hmem, htracks⟩ := tracks_run hinit hrun
  exact ⟨mem, hmem, htracks.spells⟩

theorem slot_lists_in_memory_acked : ∃ q, exec (Pool.step .still) Pool.init ackedAndExpired = some q ∧
    ∃ mem, exec WrbufMem.step (netcomAllocateLists ⟨fun a => a, fun a => a⟩)
      (Pool.runCalls .still Pool.init ackedAndExpired) = some mem ∧ mem.Spells q := by
  obtain ⟨q, hq⟩ := Option.isSome_iff_exists.1
    (by decide +kernel : (exec (Pool.step .still) Pool.init ackedAndExpired).isSome)
  exact ⟨q, hq, slot_lists_in_memory .still _ ackedAndExpired q hq⟩

end CmdAgent
