import Mathlib.Data.List.Nodup
import CmdAgent.SimuList
import CmdAgent.StreamLib.Lifetime
import CmdAgent.StreamLib.Runs
/-!
# The table of clients under threads

`sernet.c` under the event loop of the service task and the threads of the devices, which
call `sernet_write`. What stands under `LIST_WLOCK` is of one thread at a time, and
`_sernet_readcb` goes on with its node after `LIST_UNLOCK`. Allocations may fail. A
`serclt_info` is not freed while the server runs, so an entry has its `evbuffer` itself.
-/
open StreamLib.Lifetime StreamLib.Runs

namespace CmdAgent

/-! ## The system -/

/-- A node of the table, with the `evbuffer` of its `serclt_info`. -/
structure ClientNode where
  node : Nat
  evbuffer : Nat
  deriving DecidableEq

/-- Where the event loop is. -/
inductive ServerPc where
  | loop
  /-- In `_sernet_acceptcb`, before `LIST_WLOCK`. -/
  | acceptLock (fd : Int) (evbuffer : Nat)
  | acceptAdd (fd : Int) (evbuffer : Nat)
  /-- In `_sernet_eventcb`, before `LIST_WLOCK`. -/
  | eventLock (fd : Int)
  | eventGet (fd : Int)
  | eventRelease (fd : Int) (pNode : ClientNode)
  | eventDel (fd : Int)
  /-- In `_sernet_readcb`, before `LIST_WLOCK`. -/
  | readLock (fd : Int) (bev : Nat)
  | readGet (fd : Int) (bev : Nat)
  | readUnlock (bev : Nat) (pNode : Option ClientNode)
  | readTest (bev : Nat) (pNode : ClientNode)
  | recvdata (pNode : ClientNode)
  | unlock
  deriving DecidableEq

/-- Where the thread of a device is in `sernet_write`. -/
inductive WriterPc where
  | idle
  | lock (serid : Int)
  | get (serid : Int)
  | writedata (pNode : ClientNode)
  | unlock
  deriving DecidableEq

inductive Holder where
  | server
  | writer (i : Nat)
  deriving DecidableEq

structure ClientThreads where
  sercltList : SimuList ClientNode
  bevs : Heap
  nodes : Heap
  /-- The descriptor of each bufferevent. -/
  fds : Nat → Int
  /-- The bufferevents of accepts that came to nothing. -/
  left : List Nat
  lock : Option Holder
  server : ServerPc
  writers : Nat → WriterPc

/-- The nodes a search reads. -/
def walked (pList : SimuList ClientNode) (key : Int) : List Nat :=
  (pList.takeWhile fun pNode => pNode.nKey ≠ key).map (fun pNode => pNode.pData.node) ++
    ((simuListGet pList key).map fun pNode => pNode.pData.node).toList

namespace ClientThreads

def init : ClientThreads := ⟨[], Heap.empty, Heap.empty, fun _ => 0, [], none, .loop, fun _ => .idle⟩

/-- `SimuList_Get` -/
def get (s : ClientThreads) (key : Int) : Option ClientNode × ClientThreads :=
  ((simuListGet s.sercltList key).map SimuListNode.pData, { s with nodes := s.nodes.useAll (walked s.sercltList key) })

/-- `SimuList_Add` of what has `evbuffer`. -/
def add (s : ClientThreads) (key : Int) (evbuffer : Nat) (malloc : Bool) : ClientThreads :=
  let (pNode, s) := s.get key
  if pNode.isSome ∨ malloc = false then { s with left := s.left ++ [evbuffer] }
  else { s with
    nodes := (s.nodes.useAll (s.sercltList.map fun pNode => pNode.pData.node)).new
    sercltList := (simuListAdd s.sercltList key ⟨s.nodes.next, evbuffer⟩ 0).2 }

/-- `SimuList_Del` -/
def del (s : ClientThreads) (key : Int) : ClientThreads :=
  let (pNode, s) := s.get key
  { s with nodes := s.nodes.freeAt (pNode.map ClientNode.node), sercltList := (simuListDel s.sercltList key).2 }

/-- `LIST_WLOCK` -/
def wlock (s : ClientThreads) (holder : Holder) : Option ClientThreads :=
  if s.lock = none then some { s with lock := some holder } else none

end ClientThreads

inductive ThreadsEv where
  /-- `_sernet_acceptcb`, and whether it has memory. -/
  | accept (fd : Int) (newbuffer serclt : Bool)
  /-- `_sernet_eventcb`, for an `EOF` or `ERROR` -/
  | event (bev : Nat)
  | read (bev : Nat)
  /-- The next step of a callback. -/
  | server (malloc : Bool)
  /-- `sernet_write` -/
  | write (i : Nat) (serid : Int)
  | writer (i : Nat)
  deriving DecidableEq

namespace ClientThreads

def serverStep (s : ClientThreads) (malloc : Bool) : Option ClientThreads :=
  match s.server with
  | .loop => none
  | .acceptLock fd evbuffer => (s.wlock .server).map fun s => { s with server := .acceptAdd fd evbuffer }
  | .acceptAdd fd evbuffer => some { s.add fd evbuffer malloc with server := .unlock }
  | .eventLock fd => (s.wlock .server).map fun s => { s with server := .eventGet fd }
  | .eventGet fd =>
    let (pNode, s) := s.get fd
    some { s with server := pNode.elim .unlock (.eventRelease fd) }
  | .eventRelease fd pNode =>
    some { s with nodes := s.nodes.use pNode.node, bevs := s.bevs.free pNode.evbuffer, server := .eventDel fd }
  | .eventDel fd => some { s.del fd with server := .unlock }
  | .readLock fd bev => (s.wlock .server).map fun s => { s with server := .readGet fd bev }
  | .readGet fd bev =>
    let (pNode, s) := s.get fd
    some { s with server := .readUnlock bev pNode }
  | .readUnlock bev pNode => some { s with lock := none, server := pNode.elim .loop (.readTest bev) }
  | .readTest bev pNode => some { s with
      nodes := s.nodes.use pNode.node
      server := if pNode.evbuffer = bev then .recvdata pNode else .loop }
  | .recvdata pNode => some { s with bevs := s.bevs.use pNode.evbuffer, server := .loop }
  | .unlock => some { s with lock := none, server := .loop }

def setWriter (s : ClientThreads) (i : Nat) (pc : WriterPc) : ClientThreads :=
  { s with writers := Function.update s.writers i pc }

def writerStep (s : ClientThreads) (i : Nat) : Option ClientThreads :=
  match s.writers i with
  | .idle => none
  | .lock serid => (s.wlock (.writer i)).map fun s => s.setWriter i (.get serid)
  | .get serid =>
    let (pNode, s) := s.get serid
    some (s.setWriter i (pNode.elim .unlock .writedata))
  | .writedata pNode =>
    -- `bufferevent_get_output`, `evbuffer_add`
    some ({ s with
      nodes := s.nodes.use pNode.node
      bevs := (s.bevs.use pNode.evbuffer).use pNode.evbuffer }.setWriter i .unlock)
  | .unlock => some ({ s with lock := none }.setWriter i .idle)

/-- `none` where a thread is not at that point, or waits for the lock. -/
def step (s : ClientThreads) : ThreadsEv → Option ClientThreads
  | .accept fd newbuffer serclt =>
    if s.server = .loop then
      if newbuffer then
        let bev := s.bevs.next
        -- `bufferevent_setcb`, `bufferevent_enable`
        let s := { s with bevs := (s.bevs.new.use bev).use bev, fds := Function.update s.fds bev fd }
        if serclt then some { s with server := .acceptLock fd bev } else some { s with left := s.left ++ [bev] }
      else some s
    else none
  | .event bev =>
    if s.server = .loop then some { s with bevs := s.bevs.use bev, server := .eventLock (s.fds bev) } else none
  | .read bev =>
    if s.server = .loop then some { s with bevs := s.bevs.use bev, server := .readLock (s.fds bev) bev } else none
  | .server malloc => s.serverStep malloc
  | .write i serid => if s.writers i = .idle then some (s.setWriter i (.lock serid)) else none
  | .writer i => s.writerStep i

/-- No descriptor is given out while it is open, and a bufferevent that has been freed calls
nothing. -/
def Possible (s : ClientThreads) : ThreadsEv → Prop
  | .accept fd _ _ => ∀ bev < s.bevs.next, LiveIn s.bevs.log bev → s.fds bev ≠ fd
  | .event bev | .read bev => LiveIn s.bevs.log bev
  | _ => True

end ClientThreads

/-! ## What every step keeps -/

/-- The thread is between `LIST_WLOCK` and `LIST_UNLOCK`. -/
def ServerPc.locked : ServerPc → Bool
  | .acceptAdd .. | .eventGet _ | .eventRelease .. | .eventDel _ | .readGet .. | .readUnlock .. | .unlock => true
  | .loop | .acceptLock .. | .eventLock _ | .readLock .. | .readTest .. | .recvdata _ => false

def WriterPc.locked : WriterPc → Bool
  | .get _ | .writedata _ | .unlock => true
  | .idle | .lock _ => false

/-- The bufferevent of a client that is yet to be added. -/
def ServerPc.inHand : ServerPc → List Nat
  | .acceptLock _ evbuffer | .acceptAdd _ evbuffer => [evbuffer]
  | _ => []

def ServerPc.deletes : ServerPc → Bool
  | .eventDel _ => true
  | _ => false

namespace ClientThreads

def AtTable (s : ClientThreads) : Holder → Prop
  | .server => s.server.locked = true
  | .writer i => (s.writers i).locked = true

/-- The entries whose bufferevent has not been freed. -/
def clients (s : ClientThreads) : SimuList ClientNode :=
  match s.server with
  | .eventDel fd => s.sercltList.filter fun pNode => pNode.nKey ≠ fd
  | _ => s.sercltList

/-- The bufferevents that have not been freed. -/
def held (s : ClientThreads) : List Nat :=
  s.server.inHand ++ (s.clients.map fun pNode => pNode.pData.evbuffer) ++ s.left

/-- The node is in the table. -/
def Listed (s : ClientThreads) (pNode : ClientNode) : Prop := ∃ key, ⟨key, pNode⟩ ∈ s.sercltList

/-- What holds where the event loop is. -/
def ServerAt (s : ClientThreads) : ServerPc → Prop
  | .acceptLock fd evbuffer | .acceptAdd fd evbuffer => s.fds evbuffer = fd ∧ simuListGet s.sercltList fd = none
  | .eventRelease fd pNode => simuListGet s.sercltList fd = some ⟨fd, pNode⟩
  | .eventDel fd => (simuListGet s.sercltList fd).isSome = true
  | .readUnlock _ pNode => ∀ found ∈ pNode, s.Listed found
  | .readTest _ pNode | .recvdata pNode => s.Listed pNode
  | _ => True

structure Sound (s : ClientThreads) : Prop where
  keyed : s.sercltList.Keyed
  fds : ∀ pNode ∈ s.sercltList, s.fds pNode.pData.evbuffer = pNode.nKey
  bevs : s.bevs.Owns s.held
  made : ∀ bev < s.bevs.next, .new bev ∈ s.bevs.log
  nodes : s.nodes.Owns (s.sercltList.map fun pNode => pNode.pData.node)
  lock : ∀ holder, s.lock = some holder ↔ s.AtTable holder
  server : s.ServerAt s.server
  writers : ∀ i pNode, s.writers i = .writedata pNode → s.Listed pNode

theorem get_key {pList : SimuList ClientNode} {key : Int} {pNode : SimuListNode ClientNode}
    (h : simuListGet pList key = some pNode) : pNode.nKey = key := by simpa using List.find?_some h

theorem get_mem {pList : SimuList ClientNode} {key : Int} {pNode : SimuListNode ClientNode}
    (h : simuListGet pList key = some pNode) : pNode ∈ pList := List.mem_of_find?_eq_some h

theorem walked_subset (pList : SimuList ClientNode) (key : Int) :
    ∀ obj ∈ walked pList key, obj ∈ pList.map fun pNode => pNode.pData.node := by
  intro obj hmem
  rcases List.mem_append.1 hmem with hpassed | hfound
  · obtain ⟨pNode, hp, rfl⟩ := List.mem_map.1 hpassed
    exact List.mem_map_of_mem (List.takeWhile_subset _ hp)
  · obtain ⟨pNode, hget, rfl⟩ := Option.map_eq_some_iff.1 (Option.mem_toList.1 hfound)
    exact List.mem_map_of_mem (get_mem hget)

/-- A search finds what the table has. -/
theorem get_found {s : ClientThreads} {key : Int} {pNode : ClientNode} (h : pNode ∈ (s.get key).1) :
    simuListGet s.sercltList key = some ⟨key, pNode⟩ := by
  obtain ⟨found, hget, rfl⟩ := Option.map_eq_some_iff.1 h
  have hkey := get_key hget
  rw [hget, ← hkey]

theorem Sound.init : init.Sound where
  keyed := List.Pairwise.nil
  fds := by simp [ClientThreads.init]
  bevs := Heap.Owns.empty
  made := by simp [ClientThreads.init, Heap.empty]
  nodes := Heap.Owns.empty
  lock := by
    intro holder
    cases holder <;> simp [ClientThreads.init, AtTable, ServerPc.locked, WriterPc.locked]
  server := trivial
  writers := by simp [ClientThreads.init]

namespace Sound
variable {s t : ClientThreads}

/-- The entries in the table are not freed where the event loop does not delete one. -/
theorem held_eq (hpc : s.server.deletes = false) :
    s.held = s.server.inHand ++ (s.sercltList.map fun pNode => pNode.pData.evbuffer) ++ s.left := by
  have hclients : s.clients = s.sercltList := by
    unfold clients
    split
    · rename_i hdel
      rw [hdel] at hpc
      cases hpc
    · rfl
  rw [held, hclients]

end Sound

/-! ### One thread moves -/

/-- What becomes of the lock when the thread `a` moves: it stays, or is taken, or is given
up. -/
theorem lock_moves {lock lock' : Option Holder} {p p' : Holder → Prop} (h : ∀ holder, lock = some holder ↔ p holder)
    (a : Holder) (hothers : ∀ holder, holder ≠ a → (p' holder ↔ p holder))
    (hmove : lock' = lock ∧ (p' a ↔ p a) ∨ lock = none ∧ lock' = some a ∧ p' a ∨ lock = some a ∧ lock' = none ∧ ¬ p' a)
    (holder : Holder) : lock' = some holder ↔ p' holder := by
  by_cases hne : holder = a
  · subst hne
    rcases hmove with ⟨rfl, hsame⟩ | ⟨-, rfl, hp⟩ | ⟨-, rfl, hp⟩
    · exact (h holder).trans hsame.symm
    · simpa using hp
    · simpa using hp
  · rw [hothers holder hne, ← h holder]
    rcases hmove with ⟨rfl, -⟩ | ⟨rfl, rfl, -⟩ | ⟨rfl, rfl, -⟩
    · rfl
    · simpa using Ne.symm hne
    · simpa using Ne.symm hne

variable {s t : ClientThreads}

theorem serverAt_congr (hlist : t.sercltList = s.sercltList) (hfds : t.fds = s.fds) (pc : ServerPc) :
    t.ServerAt pc ↔ s.ServerAt pc := by
  unfold ServerAt Listed
  rw [hlist, hfds]

/-- A step of the thread of a device. -/
theorem Sound.writer (h : s.Sound) {i : Nat} {pc : WriterPc} (hlist : t.sercltList = s.sercltList) (hfds : t.fds = s.fds)
    (hleft : t.left = s.left) (hserver : t.server = s.server) (hwriters : t.writers = Function.update s.writers i pc)
    (hbevs : t.bevs.Owns s.held) (hmade : ∀ bev < t.bevs.next, .new bev ∈ t.bevs.log)
    (hnodes : t.nodes.Owns (s.sercltList.map fun pNode => pNode.pData.node))
    (hlock : t.lock = s.lock ∧ pc.locked = (s.writers i).locked ∨
      s.lock = none ∧ t.lock = some (.writer i) ∧ pc.locked = true ∨
        s.lock = some (.writer i) ∧ t.lock = none ∧ pc.locked = false)
    (hpc : ∀ pNode, pc = .writedata pNode → s.Listed pNode) : t.Sound where
  keyed := by rw [hlist]; exact h.keyed
  fds := by rw [hlist, hfds]; exact h.fds
  bevs := by
    rw [show t.held = s.held by rw [held, held, clients, clients, hserver, hlist, hleft]]
    exact hbevs
  made := hmade
  nodes := by rw [hlist]; exact hnodes
  lock := by
    have hself : t.AtTable (.writer i) ↔ pc.locked = true := by rw [AtTable, hwriters, Function.update_self]
    refine lock_moves h.lock (.writer i) ?_ ?_
    · intro holder hne
      cases holder with
      | server => rw [AtTable, AtTable, hserver]
      | writer j => rw [AtTable, AtTable, hwriters, Function.update_of_ne fun he => hne (by rw [he])]
    · rw [hself]
      rcases hlock with ⟨hl, hp⟩ | ⟨hl, hl', hp⟩ | ⟨hl, hl', hp⟩
      · exact .inl ⟨hl, by rw [hp, AtTable]⟩
      · exact .inr (.inl ⟨hl, hl', hp⟩)
      · exact .inr (.inr ⟨hl, hl', by simp [hp]⟩)
  server := by
    rw [hserver]
    exact (serverAt_congr hlist hfds _).2 h.server
  writers := by
    intro j pNode hj
    have hlisted : s.Listed pNode := by
      rw [hwriters] at hj
      by_cases he : j = i
      · subst he
        rw [Function.update_self] at hj
        exact hpc pNode hj
      · rw [Function.update_of_ne he] at hj
        exact h.writers j pNode hj
    obtain ⟨key, hmem⟩ := hlisted
    exact ⟨key, by rw [hlist]; exact hmem⟩

theorem Sound.here (h : s.Sound) {pc : ServerPc} (hpc : s.server = pc) : s.ServerAt pc := by
  rw [← hpc]
  exact h.server

/-- A step of the event loop that leaves the table, and what is freed, as they are. -/
theorem Sound.moves (h : s.Sound) {pc : ServerPc} (hpc : s.server = pc) (pc' : ServerPc)
    (hsame : pc'.inHand = pc.inHand ∧ pc.deletes = false ∧ pc'.deletes = false) (hserver : t.server = pc')
    (hlist : t.sercltList = s.sercltList) (hfds : t.fds = s.fds) (hleft : t.left = s.left)
    (hwriters : t.writers = s.writers) (hbevs : t.bevs.Owns s.held)
    (hmade : ∀ bev < t.bevs.next, .new bev ∈ t.bevs.log)
    (hnodes : t.nodes.Owns (s.sercltList.map fun pNode => pNode.pData.node))
    (hlock : t.lock = s.lock ∧ pc'.locked = pc.locked ∨
      s.lock = none ∧ t.lock = some .server ∧ pc'.locked = true ∨
        s.lock = some .server ∧ t.lock = none ∧ pc'.locked = false)
    (hat : s.ServerAt pc') : t.Sound where
  keyed := by rw [hlist]; exact h.keyed
  fds := by rw [hlist, hfds]; exact h.fds
  bevs := by
    obtain ⟨hhand, hold, hnew⟩ := hsame
    rw [← hpc] at hhand hold
    rw [← hserver] at hhand hnew
    rw [held_eq hnew, hhand, hlist, hleft, ← held_eq hold]
    exact hbevs
  made := hmade
  nodes := by rw [hlist]; exact hnodes
  lock := by
    refine lock_moves h.lock .server ?_ ?_
    · intro holder hne
      cases holder with
      | server => exact absurd rfl hne
      | writer j => rw [AtTable, AtTable, hwriters]
    · rw [AtTable, AtTable, hserver, hpc]
      rcases hlock with ⟨hl, hp⟩ | ⟨hl, hl', hp⟩ | ⟨hl, hl', hp⟩
      · exact .inl ⟨hl, by rw [hp]⟩
      · exact .inr (.inl ⟨hl, hl', hp⟩)
      · exact .inr (.inr ⟨hl, hl', by simp [hp]⟩)
  server := by
    rw [hserver]
    exact (serverAt_congr hlist hfds _).2 hat
  writers := by
    intro i pNode hi
    rw [hwriters] at hi
    obtain ⟨key, hmem⟩ := h.writers i pNode hi
    exact ⟨key, by rw [hlist]; exact hmem⟩

theorem wlock_eq {holder : Holder} {u : ClientThreads} (h : s.wlock holder = some u) :
    s.lock = none ∧ u = { s with lock := some holder } := by
  unfold wlock at h
  split at h
  · exact ⟨‹_›, (Option.some.inj h).symm⟩
  · cases h

/-! ### The threads of the devices -/

/-- The entry with a key, and the others. -/
theorem split_found {pList : SimuList ClientNode} (h : pList.Keyed) {key : Int} {pNode : SimuListNode ClientNode}
    (hget : simuListGet pList key = some pNode) : pList.Perm (pNode :: pList.filter fun pNode => pNode.nKey ≠ key) := by
  rw [← eraseP_eq_filter h]
  have hmem := get_mem hget
  induction pList with
  | nil => cases hmem
  | cons head pList ih =>
    by_cases hhead : head.nKey = key
    · rw [List.eraseP_cons_of_pos (by simpa using hhead)]
      rw [simuListGet, List.find?_cons_of_pos (by simpa using hhead)] at hget
      cases hget
      exact List.Perm.refl _
    · rw [List.eraseP_cons_of_neg (by simpa using hhead)]
      have hrest : simuListGet pList key = some pNode := by
        rwa [simuListGet, List.find?_cons_of_neg (by simpa using hhead)] at hget
      exact ((ih (List.pairwise_cons.1 h).2 hrest (get_mem hrest)).cons head).trans (List.Perm.swap _ _ _)

namespace Sound

theorem listed_held (hpc : s.server.deletes = false) {pNode : ClientNode} (hlisted : s.Listed pNode) :
    pNode.evbuffer ∈ s.held := by
  obtain ⟨key, hmem⟩ := hlisted
  rw [held_eq hpc]
  refine List.mem_append_left _ (List.mem_append_right _ ?_)
  exact List.mem_map_of_mem (f := fun pNode => pNode.pData.evbuffer) hmem

theorem listed_node {pNode : ClientNode} (hlisted : s.Listed pNode) :
    pNode.node ∈ s.sercltList.map fun pNode => pNode.pData.node := by
  obtain ⟨key, hmem⟩ := hlisted
  exact List.mem_map_of_mem (f := fun pNode => pNode.pData.node) hmem

/-- Where the thread of a device is at the table, the event loop deletes nothing. -/
theorem not_deleting (h : s.Sound) {i : Nat} (hi : (s.writers i).locked = true) : s.server.deletes = false := by
  have hwriter : s.lock = some (.writer i) := (h.lock _).2 hi
  cases hpc : s.server with
  | eventDel fd =>
    have hserver : s.lock = some .server := (h.lock _).2 (by rw [AtTable, hpc]; rfl)
    cases hwriter.symm.trans hserver
  | _ => rfl

theorem made_use {heap : Heap} (h : ∀ obj < heap.next, .new obj ∈ heap.log) (other : Nat) :
    ∀ obj < (heap.use other).next, .new obj ∈ (heap.use other).log :=
  fun obj hlt => List.mem_append_left _ (h obj hlt)

theorem write (h : s.Sound) {i : Nat} {serid : Int} (hstep : s.step (.write i serid) = some t) : t.Sound := by
  simp only [step] at hstep
  split at hstep <;> cases hstep
  rename_i hidle
  refine h.writer (i := i) rfl rfl rfl rfl rfl h.bevs h.made h.nodes (.inl ⟨rfl, ?_⟩) ?_
  · rw [hidle]
    rfl
  · rintro pNode ⟨⟩

theorem writerStep (h : s.Sound) {i : Nat} (hstep : s.writerStep i = some t) : t.Sound := by
  unfold ClientThreads.writerStep at hstep
  split at hstep
  · cases hstep
  · rename_i serid hpc
    obtain ⟨u, hu, rfl⟩ := Option.map_eq_some_iff.1 hstep
    obtain ⟨hfree, rfl⟩ := wlock_eq hu
    refine h.writer (i := i) rfl rfl rfl rfl rfl h.bevs h.made h.nodes (.inr (.inl ⟨hfree, rfl, rfl⟩)) ?_
    rintro pNode ⟨⟩
  · rename_i serid hpc
    cases hstep
    refine h.writer (i := i) rfl rfl rfl rfl rfl h.bevs h.made (h.nodes.useAll (walked_subset _ _)) (.inl ⟨rfl, ?_⟩) ?_
    · rw [hpc]
      change ((s.get serid).1.elim WriterPc.unlock .writedata).locked = true
      cases (s.get serid).1 <;> rfl
    · intro pNode hnext
      change (s.get serid).1.elim WriterPc.unlock .writedata = _ at hnext
      cases hget : (s.get serid).1 with
      | none =>
        rw [hget] at hnext
        cases hnext
      | some found =>
        rw [hget] at hnext
        cases hnext
        exact ⟨serid, get_mem (get_found hget)⟩
  · rename_i pNode hpc
    cases hstep
    have hlisted : s.Listed pNode := h.writers i pNode hpc
    have hheld : pNode.evbuffer ∈ s.held := listed_held (h.not_deleting (i := i) (by rw [hpc]; rfl)) hlisted
    refine h.writer (i := i) rfl rfl rfl rfl rfl ((h.bevs.use hheld).use hheld) (made_use (made_use h.made _) _)
      (h.nodes.use (listed_node hlisted)) (.inl ⟨rfl, by rw [hpc]; rfl⟩) ?_
    rintro pNode ⟨⟩
  · rename_i hpc
    cases hstep
    have hlock : s.lock = some (.writer i) := (h.lock _).2 (by rw [AtTable, hpc]; rfl)
    refine h.writer (i := i) rfl rfl rfl rfl rfl h.bevs h.made h.nodes (.inr (.inr ⟨hlock, rfl, rfl⟩)) ?_
    rintro pNode ⟨⟩

/-! ### The event loop -/

/-- `_sernet_acceptcb`, up to `LIST_WLOCK`. -/
theorem accept (h : s.Sound) {fd : Int} {newbuffer serclt : Bool} (hposs : s.Possible (.accept fd newbuffer serclt))
    (hstep : s.step (.accept fd newbuffer serclt) = some t) : t.Sound := by
  simp only [step] at hstep
  split at hstep
  · rename_i hloop
    cases newbuffer with
    | false =>
      cases hstep
      exact h
    | true =>
      have hold : s.server.deletes = false := by rw [hloop]; rfl
      have hheld : s.held = (s.sercltList.map fun pNode => pNode.pData.evbuffer) ++ s.left := by
        rw [held_eq hold, hloop]
        rfl
      have hfresh : ∀ pNode ∈ s.sercltList, pNode.pData.evbuffer ≠ s.bevs.next := by
        intro pNode hmem he
        have hlt := h.bevs.lt_next (listed_held hold ⟨pNode.nKey, hmem⟩)
        rw [he] at hlt
        exact Nat.lt_irrefl _ hlt
      have hfds : ∀ pNode ∈ s.sercltList, Function.update s.fds s.bevs.next fd pNode.pData.evbuffer = pNode.nKey := by
        intro pNode hmem
        rw [Function.update_of_ne (hfresh pNode hmem)]
        exact h.fds pNode hmem
      have hbevs : ((s.bevs.new.use s.bevs.next).use s.bevs.next).Owns (s.bevs.next :: s.held) :=
        (h.bevs.new.use List.mem_cons_self).use List.mem_cons_self
      have hnew : ∀ bev < s.bevs.new.next, .new bev ∈ s.bevs.new.log := by
        intro bev hlt
        rcases Nat.lt_or_eq_of_le (Nat.le_of_lt_succ hlt) with hlt | rfl
        · exact List.mem_append_left _ (h.made bev hlt)
        · exact List.mem_append_right _ (List.mem_singleton_self _)
      have hmade : ∀ bev < s.bevs.next + 1, .new bev ∈ ((s.bevs.new.use s.bevs.next).use s.bevs.next).log :=
        made_use (made_use hnew _) _
      cases serclt with
      | true =>
        cases hstep
        refine ⟨h.keyed, hfds, ?_, hmade, h.nodes, fun holder => (h.lock holder).trans ?_, ?_, h.writers⟩
        · rw [hheld] at hbevs
          exact hbevs
        · cases holder with
          | server => simp [AtTable, hloop, ServerPc.locked]
          | writer i => rfl
        · refine ⟨Function.update_self .., ?_⟩
          -- An entry with the same key would be a bufferevent that is open.
          rw [simuListGet_eq_none]
          intro pNode hmem hkey
          have hlisted := listed_held hold ⟨pNode.nKey, hmem⟩
          refine hposs pNode.pData.evbuffer (h.bevs.lt_next hlisted) ((h.bevs.live _).1 hlisted) ?_
          rw [h.fds pNode hmem, hkey]
      | false =>
        cases hstep
        refine ⟨h.keyed, hfds, ?_, hmade, h.nodes, h.lock, ?_, h.writers⟩
        · refine hbevs.perm ?_
          rw [hheld, held_eq (by exact hold)]
          dsimp only
          rw [hloop, show ServerPc.inHand .loop = [] from rfl, List.nil_append, ← List.append_assoc]
          exact (List.perm_append_singleton _ _).symm
        · dsimp only
          rw [hloop]
          trivial
  · cases hstep

/-- `SimuList_Add` in `_sernet_acceptcb`. -/
theorem add (h : s.Sound) {fd : Int} {evbuffer : Nat} {malloc : Bool} (hpc : s.server = .acceptAdd fd evbuffer) :
    ({ s.add fd evbuffer malloc with server := .unlock } : ClientThreads).Sound := by
  obtain ⟨hfd, hnone⟩ := h.here hpc
  have hold : s.server.deletes = false := by rw [hpc]; rfl
  have hheld : s.held = evbuffer :: ((s.sercltList.map fun pNode => pNode.pData.evbuffer) ++ s.left) := by
    rw [held_eq hold, hpc]
    rfl
  have hlock : ∀ holder, s.lock = some holder ↔ ({ s with server := .unlock } : ClientThreads).AtTable holder := by
    intro holder
    refine (h.lock holder).trans ?_
    cases holder with
    | server => simp [AtTable, hpc, ServerPc.locked]
    | writer i => rfl
  have hnodes : (s.get fd).2.nodes.Owns (s.sercltList.map fun pNode => pNode.pData.node) :=
    h.nodes.useAll (walked_subset _ _)
  cases malloc with
  | false =>
    have heq : s.add fd evbuffer false = { (s.get fd).2 with left := s.left ++ [evbuffer] } := by
      unfold ClientThreads.add
      exact if_pos (.inr rfl)
    rw [heq]
    refine ⟨h.keyed, h.fds, h.bevs.perm ?_, h.made, hnodes, hlock, trivial, h.writers⟩
    rw [hheld, held_eq rfl, ← List.append_assoc]
    exact (List.perm_append_singleton _ _).symm
  | true =>
    have hlist : (simuListAdd s.sercltList fd ⟨(s.get fd).2.nodes.next, evbuffer⟩ 0).2 =
        s.sercltList ++ [⟨fd, ⟨(s.get fd).2.nodes.next, evbuffer⟩⟩] := by
      rw [simuListAdd, hnone]
      rfl
    have heq : s.add fd evbuffer true = { (s.get fd).2 with
        nodes := ((s.get fd).2.nodes.useAll (s.sercltList.map fun pNode => pNode.pData.node)).new
        sercltList := s.sercltList ++ [⟨fd, ⟨(s.get fd).2.nodes.next, evbuffer⟩⟩] } := by
      unfold ClientThreads.add
      rw [← hlist]
      exact if_neg (by simp [hnone])
    have hkeyed := keyed_add h.keyed fd ⟨(s.get fd).2.nodes.next, evbuffer⟩
    rw [hlist] at hkeyed
    rw [heq]
    refine ⟨hkeyed, ?_, h.bevs.perm ?_, h.made, ?_, hlock, trivial, ?_⟩
    · intro pNode hmem
      rcases List.mem_append.1 hmem with hmem | hmem
      · exact h.fds pNode hmem
      · rw [List.mem_singleton.1 hmem]
        exact hfd
    · rw [hheld, held_eq rfl]
      dsimp only
      rw [List.map_append, show ServerPc.inHand .unlock = [] from rfl, List.nil_append]
      refine List.Perm.trans ?_ (List.Perm.append_right s.left (List.perm_append_singleton _ _).symm)
      exact List.Perm.refl _
    · have hnext := (hnodes.useAll fun obj hobj => hobj).new
      rw [List.map_append]
      have hsame : ((s.get fd).2.nodes.useAll (s.sercltList.map fun pNode => pNode.pData.node)).next =
          (s.get fd).2.nodes.next := Heap.next_useAll _ _
      rw [hsame] at hnext
      exact hnext.perm (List.perm_append_singleton _ _).symm
    · intro i pNode hi
      obtain ⟨key, hmem⟩ := h.writers i pNode hi
      exact ⟨key, List.mem_append_left _ hmem⟩

/-- `SimuList_Del` in `_sernet_eventcb`. -/
theorem del (h : s.Sound) {fd : Int} (hpc : s.server = .eventDel fd) :
    ({ s.del fd with server := .unlock } : ClientThreads).Sound := by
  have hat : (simuListGet s.sercltList fd).isSome = true := h.here hpc
  obtain ⟨found, hget⟩ := Option.isSome_iff_exists.1 hat
  have hlist : (simuListDel s.sercltList fd).2 = s.sercltList.filter fun pNode => pNode.nKey ≠ fd := by
    rw [simuListDel, if_pos hat]
    exact eraseP_eq_filter h.keyed fd
  have heq : s.del fd = { (s.get fd).2 with
      nodes := (s.get fd).2.nodes.free found.pData.node
      sercltList := s.sercltList.filter fun pNode => pNode.nKey ≠ fd } := by
    unfold ClientThreads.del
    rw [← hlist]
    simp only [ClientThreads.get, hget]
    rfl
  have hkeyed := keyed_del h.keyed fd
  rw [hlist] at hkeyed
  -- The other threads are not at the table.
  have hserver : s.lock = some .server := (h.lock _).2 (by rw [AtTable, hpc]; rfl)
  rw [heq]
  refine ⟨hkeyed, fun pNode hmem => h.fds pNode (List.mem_of_mem_filter hmem), ?_, h.made, ?_, ?_, trivial, ?_⟩
  · have hheld : s.held =
        ((s.sercltList.filter fun pNode => pNode.nKey ≠ fd).map fun pNode => pNode.pData.evbuffer) ++ s.left := by
      rw [held, clients, hpc]
      rfl
    have hbevs := h.bevs
    rw [hheld] at hbevs
    exact hbevs
  · refine Heap.Owns.free ((h.nodes.useAll (walked_subset _ _)).perm ?_)
    exact (split_found h.keyed hget).map fun pNode => pNode.pData.node
  · intro holder
    refine (h.lock holder).trans ?_
    cases holder with
    | server => simp [AtTable, hpc, ServerPc.locked]
    | writer i => rfl
  · intro i pNode hi
    have hwriter : s.lock = some (.writer i) := (h.lock _).2 (by rw [AtTable, show s.writers i = _ from hi]; rfl)
    cases hserver.symm.trans hwriter

/-- `serclt_release` in `_sernet_eventcb`. -/
theorem release (h : s.Sound) {fd : Int} {pNode : ClientNode} (hpc : s.server = .eventRelease fd pNode) :
    ({ s with
      nodes := s.nodes.use pNode.node
      bevs := s.bevs.free pNode.evbuffer
      server := .eventDel fd } : ClientThreads).Sound := by
  have hget : simuListGet s.sercltList fd = some ⟨fd, pNode⟩ := h.here hpc
  have hold : s.server.deletes = false := by rw [hpc]; rfl
  have hheld : s.held = (s.sercltList.map fun pNode => pNode.pData.evbuffer) ++ s.left := by
    rw [held_eq hold, hpc]
    rfl
  refine ⟨h.keyed, h.fds, ?_, fun bev hlt => List.mem_append_left _ (h.made bev hlt),
    h.nodes.use (listed_node ⟨fd, get_mem hget⟩), ?_, ?_, h.writers⟩
  · have hbevs := h.bevs
    rw [hheld] at hbevs
    have hsplit := (split_found h.keyed hget).map fun pNode => pNode.pData.evbuffer
    exact Heap.Owns.free (hbevs.perm (hsplit.append_right s.left))
  · intro holder
    refine (h.lock holder).trans ?_
    cases holder with
    | server => simp [AtTable, hpc, ServerPc.locked]
    | writer i => rfl
  · change (simuListGet s.sercltList fd).isSome = true
    rw [hget]
    rfl

/-- `LIST_WLOCK` in a callback. -/
theorem locks (h : s.Sound) {pc : ServerPc} (hpc : s.server = pc) (pc' : ServerPc)
    (hsame : pc'.inHand = pc.inHand ∧ pc.deletes = false ∧ pc'.deletes = false) (hlocked : pc'.locked = true)
    (hat : s.ServerAt pc')
    (hstep : ((s.wlock .server).map fun s => { s with server := pc' } : Option ClientThreads) = some t) : t.Sound := by
  obtain ⟨u, hu, rfl⟩ := Option.map_eq_some_iff.1 hstep
  obtain ⟨hfree, rfl⟩ := wlock_eq hu
  exact h.moves hpc pc' hsame rfl rfl rfl rfl rfl h.bevs h.made h.nodes (.inr (.inl ⟨hfree, rfl, hlocked⟩)) hat

theorem server_locked (h : s.Sound) {pc : ServerPc} (hpc : s.server = pc) (hlocked : pc.locked = true) :
    s.lock = some .server := (h.lock .server).2 (by rw [AtTable, hpc]; exact hlocked)

/-- `SimuList_Get` in `_sernet_eventcb`. -/
theorem eventGet (h : s.Sound) {fd : Int} (hpc : s.server = .eventGet fd) :
    ({ (s.get fd).2 with server := (s.get fd).1.elim .unlock (.eventRelease fd) } : ClientThreads).Sound := by
  have hnodes : (s.get fd).2.nodes.Owns (s.sercltList.map fun pNode => pNode.pData.node) :=
    h.nodes.useAll (walked_subset _ _)
  cases hget : (s.get fd).1 with
  | none =>
    exact h.moves hpc .unlock ⟨rfl, rfl, rfl⟩ rfl rfl rfl rfl rfl h.bevs h.made hnodes (.inl ⟨rfl, rfl⟩) trivial
  | some found =>
    exact h.moves hpc (.eventRelease fd found) ⟨rfl, rfl, rfl⟩ rfl rfl rfl rfl rfl h.bevs h.made hnodes
      (.inl ⟨rfl, rfl⟩) (get_found hget)

/-- `LIST_UNLOCK` in `_sernet_readcb`, which keeps its node. -/
theorem readUnlock (h : s.Sound) {bev : Nat} {pNode : Option ClientNode} (hpc : s.server = .readUnlock bev pNode) :
    ({ s with lock := none, server := pNode.elim .loop (.readTest bev) } : ClientThreads).Sound := by
  have hlock := h.server_locked hpc rfl
  cases pNode with
  | none =>
    exact h.moves hpc .loop ⟨rfl, rfl, rfl⟩ rfl rfl rfl rfl rfl h.bevs h.made h.nodes
      (.inr (.inr ⟨hlock, rfl, rfl⟩)) trivial
  | some found =>
    exact h.moves hpc (.readTest bev found) ⟨rfl, rfl, rfl⟩ rfl rfl rfl rfl rfl h.bevs h.made h.nodes
      (.inr (.inr ⟨hlock, rfl, rfl⟩)) (h.here hpc found rfl)

/-- The rest of `_sernet_readcb` reads the node, which only the event loop frees. -/
theorem readTest (h : s.Sound) {bev : Nat} {pNode : ClientNode} (hpc : s.server = .readTest bev pNode) :
    ({ s with
      nodes := s.nodes.use pNode.node
      server := if pNode.evbuffer = bev then .recvdata pNode else .loop } : ClientThreads).Sound := by
  have hlisted : s.Listed pNode := h.here hpc
  by_cases hbev : pNode.evbuffer = bev
  · rw [if_pos hbev]
    exact h.moves hpc (.recvdata pNode) ⟨rfl, rfl, rfl⟩ rfl rfl rfl rfl rfl h.bevs h.made
      (h.nodes.use (listed_node hlisted)) (.inl ⟨rfl, rfl⟩) hlisted
  · rw [if_neg hbev]
    exact h.moves hpc .loop ⟨rfl, rfl, rfl⟩ rfl rfl rfl rfl rfl h.bevs h.made
      (h.nodes.use (listed_node hlisted)) (.inl ⟨rfl, rfl⟩) trivial

/-- A step of a callback. -/
theorem serverStep (h : s.Sound) {malloc : Bool} (hstep : s.serverStep malloc = some t) : t.Sound := by
  unfold ClientThreads.serverStep at hstep
  split at hstep
  case h_1 => cases hstep
  case h_2 fd evbuffer hpc =>
    exact h.locks hpc (.acceptAdd fd evbuffer) ⟨rfl, rfl, rfl⟩ rfl
      (show s.ServerAt (.acceptLock fd evbuffer) from h.here hpc) hstep
  case h_3 fd evbuffer hpc =>
    cases hstep
    exact h.add hpc
  case h_4 fd hpc => exact h.locks hpc (.eventGet fd) ⟨rfl, rfl, rfl⟩ rfl trivial hstep
  case h_5 fd hpc =>
    cases hstep
    exact h.eventGet hpc
  case h_6 fd pNode hpc =>
    cases hstep
    exact h.release hpc
  case h_7 fd hpc =>
    cases hstep
    exact h.del hpc
  case h_8 fd bev hpc => exact h.locks hpc (.readGet fd bev) ⟨rfl, rfl, rfl⟩ rfl trivial hstep
  case h_9 fd bev hpc =>
    cases hstep
    exact h.moves hpc (.readUnlock bev (s.get fd).1) ⟨rfl, rfl, rfl⟩ rfl rfl rfl rfl rfl h.bevs h.made
      (h.nodes.useAll (walked_subset _ _)) (.inl ⟨rfl, rfl⟩) fun found hfound => ⟨fd, get_mem (get_found hfound)⟩
  case h_10 bev pNode hpc =>
    cases hstep
    exact h.readUnlock hpc
  case h_11 bev pNode hpc =>
    cases hstep
    exact h.readTest hpc
  case h_12 pNode hpc =>
    cases hstep
    have hheld : pNode.evbuffer ∈ s.held := listed_held (by rw [hpc]; rfl) (h.here hpc)
    exact h.moves hpc .loop ⟨rfl, rfl, rfl⟩ rfl rfl rfl rfl rfl (h.bevs.use hheld) (made_use h.made _) h.nodes
      (.inl ⟨rfl, rfl⟩) trivial
  case h_13 hpc =>
    cases hstep
    exact h.moves hpc .loop ⟨rfl, rfl, rfl⟩ rfl rfl rfl rfl rfl h.bevs h.made h.nodes
      (.inr (.inr ⟨h.server_locked hpc rfl, rfl, rfl⟩)) trivial

/-- A bufferevent that is open calls `_sernet_eventcb` or `_sernet_readcb`. -/
theorem calls (h : s.Sound) {bev : Nat} (hopen : LiveIn s.bevs.log bev) {pc : ServerPc} (hpc : s.server = .loop)
    (hsame : pc.inHand = [] ∧ pc.deletes = false) (hlocked : pc.locked = false) (hat : s.ServerAt pc) :
    ({ s with bevs := s.bevs.use bev, server := pc } : ClientThreads).Sound :=
  h.moves hpc pc ⟨hsame.1, rfl, hsame.2⟩ rfl rfl rfl rfl rfl (h.bevs.use ((h.bevs.live bev).2 hopen)) (made_use h.made _)
    h.nodes (.inl ⟨rfl, hlocked⟩) hat

theorem step (h : s.Sound) {ev : ThreadsEv} (hposs : s.Possible ev) (hstep : s.step ev = some t) : t.Sound := by
  cases ev with
  | accept fd newbuffer serclt => exact h.accept hposs hstep
  | event bev =>
    simp only [ClientThreads.step] at hstep
    split at hstep <;> cases hstep
    exact h.calls hposs ‹_› ⟨rfl, rfl⟩ rfl trivial
  | read bev =>
    simp only [ClientThreads.step] at hstep
    split at hstep <;> cases hstep
    exact h.calls hposs ‹_› ⟨rfl, rfl⟩ rfl trivial
  | server malloc => exact h.serverStep hstep
  | write i serid => exact h.write hstep
  | writer i => exact h.writerStep hstep

end Sound

/-! ## Every interleaving -/

/-- The next step of a thread. -/
def next : Holder → ThreadsEv
  | .server => .server true
  | .writer i => .writer i

/-- What holds in every state. -/
structure Safe (s : ClientThreads) : Prop where
  /-- Nothing is done with a bufferevent, or a node, after it has been freed. -/
  bevs : Once s.bevs.log
  nodes : Once s.nodes.log
  /-- One thread at a time is at the table, and it can go on. -/
  alone : ∀ a b, s.AtTable a → s.AtTable b → a = b
  goes : ∀ a, s.AtTable a → (s.step (next a)).isSome = true
  /-- What has been made has been freed once; or it is a client's, once; or it is of an
  accept that is going on or came to nothing. -/
  accounted : ∀ bev < s.bevs.next, s.bevs.log.count (.free bev) + s.held.count bev = 1

theorem Sound.safe (h : s.Sound) : s.Safe where
  bevs := h.bevs.once
  nodes := h.nodes.once
  alone a b ha hb := Option.some.inj (((h.lock a).2 ha).symm.trans ((h.lock b).2 hb))
  goes a ha := by
    cases a with
    | server =>
      have hlocked : s.server.locked = true := ha
      change (s.serverStep true).isSome = true
      unfold ClientThreads.serverStep
      split <;> rename_i hpc <;> first | rfl | (rw [hpc] at hlocked; cases hlocked)
    | writer i =>
      have hlocked : (s.writers i).locked = true := ha
      change (s.writerStep i).isSome = true
      unfold ClientThreads.writerStep
      split <;> rename_i hpc <;> first | rfl | (rw [hpc] at hlocked; cases hlocked)
  accounted bev hlt := by
    by_cases hheld : bev ∈ s.held
    · rw [List.count_eq_zero.2 (h.bevs.not_freed hheld), List.count_eq_one_of_mem h.bevs.nodup hheld]
    · rw [h.bevs.freed_once (h.made bev hlt) hheld, List.count_eq_zero.2 hheld]

/-- In every interleaving of the event loop and any number of devices' threads, with any
allocations failing. -/
theorem clients_threads_safe (evs : List ThreadsEv) (s : ClientThreads)
    (hrun : OkRun step Possible init evs s) : s.Safe :=
  (exec_inv (fun _ _ _ hs hposs hst => hs.step hposs hst) Sound.init hrun.along hrun.exec).safe

instance (s : ClientThreads) : (ev : ThreadsEv) → Decidable (s.Possible ev)
  | .accept fd _ _ => inferInstanceAs (Decidable (∀ bev < s.bevs.next, LiveIn s.bevs.log bev → s.fds bev ≠ fd))
  | .event bev | .read bev => inferInstanceAs (Decidable (LiveIn s.bevs.log bev))
  | .server _ | .write .. | .writer _ => inferInstanceAs (Decidable True)

/-- A client is read, and goes, while a device answers it; the next one finds no memory. -/
def readWhileAnswered : List ThreadsEv :=
  [.accept 5 true true, .server true, .server true, .server true, .write 0 5, .read 0, .server true, .server true,
    .server true, .writer 0, .server true, .writer 0, .server true, .writer 0, .event 0, .writer 0, .server true,
    .server true, .write 1 5, .server true, .server true, .server true, .writer 1, .accept 5 true false]

theorem clients_threads_safe_answered :
    ∃ s, OkRun step Possible init readWhileAnswered s ∧ s.held = [1] ∧ s.Safe := by
  obtain ⟨s, hexec, hheld⟩ := (Option.any_eq_true _ _).1 (by decide +kernel :
    ((exec step init readWhileAnswered).any fun s => decide (s.held = [1])) = true)
  have hrun : OkRun step Possible init readWhileAnswered s := ⟨hexec, by decide +kernel⟩
  exact ⟨s, hrun, of_decide_eq_true hheld, clients_threads_safe readWhileAnswered s hrun⟩

end ClientThreads

end CmdAgent
