import CmdAgent.Bufferevent
import CmdAgent.Serclient
import CmdAgent.SimuList
/-!
# The table of clients

The callbacks of `sernet.c` with the bufferevents they are called for. Connections are
numbered as they are accepted, and so are the bufferevent and the `serclt_info` of each.
Descriptors and addresses of bufferevents are the environment's choice: any that is not
in use. A `serclt_info` is not freed while the server runs, so its number stands for
its address.
-/
open StreamLib.Runs

namespace CmdAgent

/-! ## The system -/

/-- A bufferevent from `bufferevent_socket_new`. -/
structure Bufferevent where
  addr : Nat
  fd : Int
  deriving DecidableEq

/-- A block `_sernet_acceptcb` allocates for a client. -/
structure SercltBlock where
  info : SercltInfo
  evbuffer : Nat

structure Sernet where
  /-- `pData` is the number of a block. -/
  sercltList : TagSimuList Nat
  serclts : List SercltBlock
  bevs : List Bufferevent
  /-- What `bufferevent_free` has been called for. -/
  freed : List Nat

namespace Sernet

def init : Sernet := ⟨TagSimuList.create, [], [], []⟩

/-- The last bufferevent made at the address. -/
def bevAt (sernet : Sernet) (addr : Nat) : Option Nat :=
  (List.range sernet.bevs.length).reverse.find? fun bev => (sernet.bevs[bev]?).any fun b => b.addr = addr

/-- `serclt_release`; `NULL` is 0. -/
def sercltRelease (sernet : Sernet) (serclt : SercltBlock) : Sernet :=
  if serclt.evbuffer ≠ 0 then { sernet with freed := sernet.freed ++ (sernet.bevAt serclt.evbuffer).toList } else sernet

/-- `_sernet_acceptcb` where every allocation succeeds. -/
def acceptcb (sernet : Sernet) (fd : Int) (newbuffer : Nat) (dataBlob : Nat → UInt8) : Sernet :=
  { sernet with
    sercltList := (sernet.sercltList.add fd sernet.serclts.length 0).2
    serclts := sernet.serclts ++ [⟨sercltInitialize fd dataBlob, newbuffer⟩]
    bevs := sernet.bevs ++ [⟨newbuffer, fd⟩] }

/-- `disconnectflag` -/
def disconnects (what : UInt16) : Bool := what &&& bevEventEof != 0 || what &&& bevEventError != 0

/-- `_sernet_eventcb` -/
def eventcb (sernet : Sernet) (bev : Bufferevent) (what : UInt16) : Sernet :=
  if disconnects what then
    match sernet.sercltList.get bev.fd with
    | none => sernet
    | some node =>
      match sernet.serclts[node.pData]? with
      | none => sernet
      | some serclt =>
        { sernet.sercltRelease serclt with sercltList := (sernet.sercltList.del bev.fd).2 }
  else sernet

/-- `_sernet_readcb` -/
def readcb (sernet : Sernet) (bev : Bufferevent) (chunk : List UInt8) : Option Sernet :=
  match sernet.sercltList.get bev.fd with
  | none => some sernet
  | some node =>
    match sernet.serclts[node.pData]? with
    | none => none
    | some serclt =>
      if serclt.evbuffer = bev.addr then
        (sercltRecvdata serclt.info chunk).map fun info =>
          { sernet with serclts := sernet.serclts.set node.pData { serclt with info := info } }
      else some sernet

end Sernet

inductive SernetEv where
  | accept (fd : Int) (newbuffer : Nat) (dataBlob : Nat → UInt8)
  | event (conn : Nat) (what : UInt16)
  | read (conn : Nat) (chunk : List UInt8)

namespace Sernet

/-- `none` where a callback does not return or has no bufferevent. -/
def step (sernet : Sernet) : SernetEv → Option Sernet
  | .accept fd newbuffer dataBlob => some (sernet.acceptcb fd newbuffer dataBlob)
  | .event conn what => (sernet.bevs[conn]?).map fun bev => sernet.eventcb bev what
  | .read conn chunk => (sernet.bevs[conn]?).bind fun bev => sernet.readcb bev chunk

/-- The bufferevents that have been made and not freed. -/
def openBevs (sernet : Sernet) : List Nat :=
  (List.range sernet.bevs.length).filter fun conn => conn ∉ sernet.freed

/-- No descriptor is given out while it is open, no address while it is in use, and a
bufferevent that has been freed calls nothing. -/
def Possible (sernet : Sernet) : SernetEv → Prop
  | .accept fd newbuffer _ => newbuffer ≠ 0 ∧ ∀ conn ∈ sernet.openBevs,
      ∀ bev ∈ sernet.bevs[conn]?, bev.fd ≠ fd ∧ bev.addr ≠ newbuffer
  | .event conn _ => conn ∈ sernet.openBevs
  | .read conn _ => conn ∈ sernet.openBevs

instance (sernet : Sernet) : (ev : SernetEv) → Decidable (sernet.Possible ev)
  | .accept .. => inferInstanceAs (Decidable (_ ∧ ∀ conn ∈ sernet.openBevs, ∀ bev ∈ sernet.bevs[conn]?, _))
  | .event .. => inferInstanceAs (Decidable (_ ∈ sernet.openBevs))
  | .read .. => inferInstanceAs (Decidable (_ ∈ sernet.openBevs))

end Sernet

/-! ## The history -/

/-- The connections that have been accepted. -/
def accepted (evs : List SernetEv) : List Bufferevent :=
  evs.filterMap fun ev => match ev with
    | .accept fd newbuffer _ => some ⟨newbuffer, fd⟩
    | _ => none

/-- The connection has had an `EOF` or an `ERROR`. -/
def ended (evs : List SernetEv) (conn : Nat) : Bool :=
  evs.any fun ev => match ev with
    | .event other what => other = conn && Sernet.disconnects what
    | _ => false

/-- The connections that have not ended, oldest first. -/
def live (evs : List SernetEv) : List Nat :=
  (List.range (accepted evs).length).filter fun conn => !ended evs conn

theorem mem_live {evs : List SernetEv} {conn : Nat} :
    conn ∈ live evs ↔ conn < (accepted evs).length ∧ ended evs conn = false := by
  simp [live]

section Snoc
variable (evs : List SernetEv) (conn : Nat)

theorem accepted_accept (fd : Int) (newbuffer : Nat) (dataBlob : Nat → UInt8) :
    accepted (evs ++ [.accept fd newbuffer dataBlob]) = accepted evs ++ [⟨newbuffer, fd⟩] := by
  rw [accepted, List.filterMap_append]
  rfl

theorem accepted_event (what : UInt16) : accepted (evs ++ [.event conn what]) = accepted evs := by
  rw [accepted, List.filterMap_append]
  exact List.append_nil _

theorem accepted_read (chunk : List UInt8) : accepted (evs ++ [.read conn chunk]) = accepted evs := by
  rw [accepted, List.filterMap_append]
  exact List.append_nil _

theorem ended_accept (fd : Int) (newbuffer : Nat) (dataBlob : Nat → UInt8) :
    ended (evs ++ [.accept fd newbuffer dataBlob]) conn = ended evs conn := by simp [ended]

theorem ended_event (other : Nat) (what : UInt16) :
    ended (evs ++ [.event other what]) conn = (ended evs conn || other = conn && Sernet.disconnects what) := by
  simp [ended]

theorem ended_read (other : Nat) (chunk : List UInt8) :
    ended (evs ++ [.read other chunk]) conn = ended evs conn := by simp [ended]

theorem live_accept (hpast : ∀ conn, ended evs conn = true → conn < (accepted evs).length) (fd : Int) (newbuffer : Nat)
    (dataBlob : Nat → UInt8) :
    live (evs ++ [.accept fd newbuffer dataBlob]) = live evs ++ [(accepted evs).length] := by
  have hnew : ended evs (accepted evs).length = false :=
    Bool.eq_false_iff.2 fun h => Nat.lt_irrefl _ (hpast _ h)
  simp [live, accepted_accept, ended_accept, List.range_succ, hnew]

theorem live_event (what : UInt16) :
    live (evs ++ [.event conn what]) =
      if Sernet.disconnects what then (live evs).filter fun other => other ≠ conn else live evs := by
  cases hwhat : Sernet.disconnects what with
  | false => simp [live, accepted_event, ended_event, hwhat]
  | true =>
    simp only [live, accepted_event, ended_event, hwhat, List.filter_filter, if_true]
    apply List.filter_congr
    intro other _
    by_cases he : conn = other <;> simp [he, eq_comm]

end Snoc

theorem find?_reverse_range {p : Nat → Bool} {n k : Nat} (hk : k < n) (hp : p k = true)
    (hlater : ∀ j, k < j → j < n → p j = false) : (List.range n).reverse.find? p = some k := by
  induction n with
  | zero => cases hk
  | succ n ih =>
    rw [List.range_succ, List.reverse_append, List.reverse_singleton, List.singleton_append]
    rcases Nat.lt_or_eq_of_le (Nat.le_of_lt_succ hk) with hlt | rfl
    · rw [List.find?_cons_of_neg (by simp [hlater n hlt (Nat.lt_succ_self n)])]
      exact ih hlt fun j hj hjn => hlater j hj (Nat.lt_succ_of_lt hjn)
    · exact List.find?_cons_of_pos hp

/-! ## The list against the history -/

/-- The node the table has for a connection. -/
def nodeOf (bevs : List Bufferevent) (conn : Nat) : SimuListNode Nat := ⟨(bevs[conn]?).elim 0 Bufferevent.fd, conn⟩

namespace Sernet

/-- What the server holds is what the history says. -/
structure Table (evs : List SernetEv) (sernet : Sernet) : Prop where
  bevs : sernet.bevs = accepted evs
  blocks : sernet.serclts.map (fun serclt => (⟨serclt.evbuffer, serclt.info.nsocket⟩ : Bufferevent)) = accepted evs
  counted : sernet.sercltList.Counted
  nodes : sernet.sercltList.pHead = (live evs).map (nodeOf (accepted evs))
  freed : ∀ conn, sernet.freed.count conn = if ended evs conn then 1 else 0
  past : ∀ conn, ended evs conn = true → conn < (accepted evs).length
  named : ∀ bev ∈ accepted evs, bev.addr ≠ 0
  /-- What is accepted while a connection lives has another descriptor and address. -/
  later : ∀ conn ∈ live evs, ∀ next bev bev', conn < next → (accepted evs)[conn]? = some bev →
    (accepted evs)[next]? = some bev' → bev.fd ≠ bev'.fd ∧ bev.addr ≠ bev'.addr

theorem init_table : Table [] init where
  bevs := rfl
  blocks := rfl
  counted := rfl
  nodes := rfl
  freed := fun _ => rfl
  past := nofun
  named := nofun
  later := nofun

namespace Table
variable {evs : List SernetEv} {sernet : Sernet} (h : sernet.Table evs)
include h

/-- The bufferevents of the live connections are the ones that are not freed. -/
theorem openBevs_eq : sernet.openBevs = live evs := by
  unfold openBevs live
  rw [h.bevs]
  apply List.filter_congr
  intro conn _
  have hfreed : conn ∈ sernet.freed ↔ ended evs conn = true := by
    rw [← List.count_pos_iff, h.freed]
    cases ended evs conn <;> simp
  simp [hfreed]

/-- What neither accepts nor ends a connection. -/
theorem congr {evs' : List SernetEv} (hacc : accepted evs' = accepted evs)
    (hended : ∀ conn, ended evs' conn = ended evs conn) : sernet.Table evs' := by
  have hlive : live evs' = live evs := by simp [live, hacc, hended]
  constructor
  case bevs => rw [hacc, h.bevs]
  case blocks => rw [hacc, h.blocks]
  case counted => exact h.counted
  case nodes => rw [hacc, hlive, h.nodes]
  case freed => simpa [hended] using h.freed
  case past => simpa [hacc, hended] using h.past
  case named => simpa [hacc] using h.named
  case later => simpa [hacc, hlive] using h.later

theorem fd_ne {conn conn' : Nat} {bev bev' : Bufferevent} (hlive : conn ∈ live evs) (hlive' : conn' ∈ live evs)
    (hne : conn ≠ conn') (hb : (accepted evs)[conn]? = some bev) (hb' : (accepted evs)[conn']? = some bev') :
    bev.fd ≠ bev'.fd := by
  rcases Nat.lt_or_gt_of_ne hne with hlt | hlt
  · exact (h.later conn hlive conn' bev bev' hlt hb hb').1
  · exact ((h.later conn' hlive' conn bev' bev hlt hb' hb).1).symm

theorem keyed : sernet.sercltList.pHead.Keyed := by
  rw [h.nodes]
  refine List.pairwise_map.2 ?_
  have hnodup : (live evs).Nodup := List.nodup_range.filter _
  refine List.Pairwise.imp_of_mem (fun {conn conn'} hm hm' hne => ?_) hnodup
  have hb := List.getElem?_eq_getElem (mem_live.1 hm).1
  have hb' := List.getElem?_eq_getElem (mem_live.1 hm').1
  simpa [nodeOf, hb, hb'] using h.fd_ne hm hm' hne hb hb'

/-- A live connection is found under its descriptor. -/
theorem get_live {conn : Nat} {bev : Bufferevent} (hlive : conn ∈ live evs) (hb : (accepted evs)[conn]? = some bev) :
    sernet.sercltList.get bev.fd = some ⟨bev.fd, conn⟩ := by
  rw [h.counted.get_eq]
  have hmem : (⟨bev.fd, conn⟩ : SimuListNode Nat) ∈ sernet.sercltList.pHead := by
    rw [h.nodes]
    refine List.mem_map.2 ⟨conn, hlive, ?_⟩
    rw [nodeOf, hb]
    rfl
  exact simuListGet_mem h.keyed hmem

/-- The block of a connection has its descriptor and its bufferevent. -/
theorem block_of {conn : Nat} {bev : Bufferevent} (hb : (accepted evs)[conn]? = some bev) :
    ∃ serclt, sernet.serclts[conn]? = some serclt ∧ serclt.info.nsocket = bev.fd ∧ serclt.evbuffer = bev.addr := by
  rw [← h.blocks, List.getElem?_map] at hb
  obtain ⟨serclt, hs, rfl⟩ := Option.map_eq_some_iff.1 hb
  exact ⟨serclt, hs, rfl, rfl⟩

theorem blocks_length : sernet.serclts.length = (accepted evs).length := by
  rw [← h.blocks, List.length_map]

/-- The last bufferevent at the address of a live connection is its own. -/
theorem bevAt_live {conn : Nat} {bev : Bufferevent} (hlive : conn ∈ live evs) (hb : (accepted evs)[conn]? = some bev) :
    sernet.bevAt bev.addr = some conn := by
  unfold bevAt
  apply find?_reverse_range
  · rw [h.bevs]
    exact (mem_live.1 hlive).1
  · simp [h.bevs, hb]
  · intro next hlt hnext
    rw [h.bevs] at hnext
    have hb' := List.getElem?_eq_getElem hnext
    simpa [h.bevs, hb'] using ((h.later conn hlive next bev _ hlt hb hb').2).symm

theorem accept {fd : Int} {newbuffer : Nat} {dataBlob : Nat → UInt8}
    (hposs : sernet.Possible (.accept fd newbuffer dataBlob)) :
    (sernet.acceptcb fd newbuffer dataBlob).Table (evs ++ [.accept fd newbuffer dataBlob]) := by
  obtain ⟨hnull, hfresh⟩ := hposs
  rw [h.openBevs_eq] at hfresh
  have hlive := live_accept evs h.past fd newbuffer dataBlob
  have hnone : simuListGet sernet.sercltList.pHead fd = none := by
    rw [simuListGet_eq_none, h.nodes]
    intro pNode hmem
    obtain ⟨conn, hconn, rfl⟩ := List.mem_map.1 hmem
    have hb := List.getElem?_eq_getElem (mem_live.1 hconn).1
    have hne := hfresh conn hconn _ (by rw [h.bevs]; exact hb)
    simpa [nodeOf, hb] using hne.1
  obtain ⟨-, hadd, hcounted⟩ := h.counted.add_eq fd sernet.serclts.length 0
  constructor
  case bevs => simp [acceptcb, accepted_accept, h.bevs]
  case blocks => simp [acceptcb, accepted_accept, h.blocks, sercltInitialize]
  case counted => exact hcounted
  case nodes =>
    have hold : ∀ conn ∈ live evs, nodeOf (accepted evs ++ [⟨newbuffer, fd⟩]) conn = nodeOf (accepted evs) conn := by
      intro conn hconn
      rw [nodeOf, nodeOf, List.getElem?_append_left (mem_live.1 hconn).1]
    rw [accepted_accept, hlive, List.map_append, List.map_congr_left hold]
    have hnew : (simuListAdd sernet.sercltList.pHead fd sernet.serclts.length 0).2 =
        sernet.sercltList.pHead ++ [⟨fd, sernet.serclts.length⟩] := by simp [simuListAdd, hnone]
    change (sernet.sercltList.add fd sernet.serclts.length 0).2.pHead = _
    rw [hadd, hnew, h.nodes, h.blocks_length]
    simp [nodeOf]
  case freed =>
    intro conn
    rw [ended_accept]
    exact h.freed conn
  case past =>
    intro conn hconn
    rw [ended_accept] at hconn
    rw [accepted_accept, List.length_append]
    exact Nat.lt_add_right 1 (h.past conn hconn)
  case named =>
    intro bev hmem
    rw [accepted_accept] at hmem
    rcases List.mem_append.1 hmem with hmem | hmem
    · exact h.named bev hmem
    · rw [List.mem_singleton.1 hmem]
      exact hnull
  case later =>
    intro conn hconn next bev bev' hlt hb hb'
    rw [accepted_accept] at hb hb'
    have hnext := (List.getElem?_eq_some_iff.1 hb').1
    rw [List.length_append] at hnext
    have hpast : conn < (accepted evs).length := Nat.lt_of_lt_of_le hlt (Nat.le_of_lt_succ hnext)
    have hconn : conn ∈ live evs := by
      rw [mem_live, ended_accept] at hconn
      exact mem_live.2 ⟨hpast, hconn.2⟩
    rw [List.getElem?_append_left hpast] at hb
    rcases Nat.lt_or_eq_of_le (Nat.le_of_lt_succ hnext) with hlast | hlast
    · rw [List.getElem?_append_left hlast] at hb'
      exact h.later conn hconn next bev bev' hlt hb hb'
    · subst hlast
      rw [List.getElem?_concat_length] at hb'
      cases hb'
      exact hfresh conn hconn bev (by rw [h.bevs]; exact hb)

/-- A live connection breaks. -/
theorem disconnect {conn : Nat} {what : UInt16} {bev : Bufferevent} (hlive : conn ∈ live evs)
    (hb : (accepted evs)[conn]? = some bev) (hwhat : disconnects what = true) :
    (sernet.eventcb bev what).Table (evs ++ [.event conn what]) := by
  obtain ⟨serclt, hs, -, haddr⟩ := h.block_of hb
  obtain ⟨-, hdel, hcounted⟩ := h.counted.del_eq bev.fd
  have hnull : bev.addr ≠ 0 := h.named bev (List.mem_of_getElem? hb)
  have heq : sernet.eventcb bev what =
      { sernet with sercltList := (sernet.sercltList.del bev.fd).2, freed := sernet.freed ++ [conn] } := by
    simp [eventcb, hwhat, h.get_live hlive hb, hs, sercltRelease, hnull, haddr, h.bevAt_live hlive hb]
  rw [heq]
  constructor
  case bevs => rw [accepted_event, h.bevs]
  case blocks => rw [accepted_event, ← h.blocks]
  case counted => exact hcounted
  case nodes =>
    have hsome : (simuListGet sernet.sercltList.pHead bev.fd).isSome := by
      rw [← h.counted.get_eq, h.get_live hlive hb]
      rfl
    have hkeep : ∀ other ∈ live evs, (nodeOf (accepted evs) other).nKey = bev.fd ↔ other = conn := by
      intro other hother
      have hb' := List.getElem?_eq_getElem (mem_live.1 hother).1
      constructor
      · intro hfd
        by_contra hne
        exact h.fd_ne hother hlive hne hb' hb (by simpa [nodeOf, hb'] using hfd)
      · rintro rfl
        rw [nodeOf, hb]
        rfl
    rw [accepted_event, live_event, if_pos hwhat]
    simp only [hdel, simuListDel, if_pos hsome]
    rw [eraseP_eq_filter h.keyed, h.nodes, List.filter_map]
    congr 1
    apply List.filter_congr
    intro other hother
    simp [hkeep other hother]
  case freed =>
    intro other
    have hc := h.freed other
    rw [ended_event, hwhat, List.count_append, hc]
    by_cases he : conn = other
    · subst he
      simp [(mem_live.1 hlive).2]
    · simp [he]
  case past =>
    intro other hother
    rw [ended_event] at hother
    rw [accepted_event]
    rcases Bool.or_eq_true _ _ ▸ hother with hother | hother
    · exact h.past other hother
    · have he : conn = other := by simpa [hwhat] using hother
      exact he ▸ (mem_live.1 hlive).1
  case named => simpa [accepted_event] using h.named
  case later =>
    rw [accepted_event, live_event, if_pos hwhat]
    exact fun other hother => h.later other (List.mem_filter.1 hother).1

theorem event {conn : Nat} {what : UInt16} {bev : Bufferevent} (hlive : conn ∈ live evs)
    (hb : (accepted evs)[conn]? = some bev) : (sernet.eventcb bev what).Table (evs ++ [.event conn what]) := by
  cases hwhat : disconnects what with
  | true => exact h.disconnect hlive hb hwhat
  | false =>
    have heq : sernet.eventcb bev what = sernet := by simp [eventcb, hwhat]
    rw [heq]
    apply h.congr (accepted_event evs conn what)
    simp [ended_event, hwhat]

/-- A read gets to the block of its own connection. -/
theorem readcb_eq {conn : Nat} {bev : Bufferevent} (hlive : conn ∈ live evs) (hb : (accepted evs)[conn]? = some bev)
    (chunk : List UInt8) : ∃ serclt info, sernet.serclts[conn]? = some serclt ∧ serclt.info.nsocket = bev.fd ∧
      serclt.evbuffer = bev.addr ∧ sercltRecvdata serclt.info chunk = some info ∧
      sernet.readcb bev chunk =
        some { sernet with serclts := sernet.serclts.set conn { serclt with info := info } } := by
  obtain ⟨serclt, hs, hsock, haddr⟩ := h.block_of hb
  obtain ⟨info, hinfo⟩ := recvdata_total serclt.info chunk
  refine ⟨serclt, info, hs, hsock, haddr, hinfo, ?_⟩
  simp [readcb, h.get_live hlive hb, hs, haddr, hinfo]

theorem read {conn : Nat} {bev : Bufferevent} (chunk : List UInt8) (hlive : conn ∈ live evs)
    (hb : (accepted evs)[conn]? = some bev) :
    ∃ sernet', sernet.readcb bev chunk = some sernet' ∧ sernet'.Table (evs ++ [.read conn chunk]) := by
  obtain ⟨serclt, info, hs, hsock, haddr, hinfo, heq⟩ := h.readcb_eq hlive hb chunk
  refine ⟨_, heq, ?_⟩
  have hblocks : (sernet.serclts.set conn { serclt with info := info }).map
      (fun serclt => (⟨serclt.evbuffer, serclt.info.nsocket⟩ : Bufferevent)) = accepted evs := by
    have hget : (accepted evs)[conn]? = some ⟨serclt.evbuffer, info.nsocket⟩ := by
      rw [hb, (recvdata_calls hinfo).socket, hsock, haddr]
    obtain ⟨hlt, hself⟩ := List.getElem?_eq_some_iff.1 hget
    rw [List.map_set, h.blocks, ← hself]
    exact List.set_getElem_self hlt
  apply congr _ (accepted_read evs conn chunk) (fun other => ended_read evs other conn chunk)
  exact { h with blocks := hblocks }

theorem step {ev : SernetEv} (hposs : sernet.Possible ev) :
    ∃ sernet', sernet.step ev = some sernet' ∧ sernet'.Table (evs ++ [ev]) := by
  have hbev : ∀ conn ∈ sernet.openBevs, ∃ bev, conn ∈ live evs ∧ (accepted evs)[conn]? = some bev ∧
      sernet.bevs[conn]? = some bev := by
    intro conn hlive
    rw [h.openBevs_eq] at hlive
    have hb := List.getElem?_eq_getElem (mem_live.1 hlive).1
    exact ⟨_, hlive, hb, by rw [h.bevs, hb]⟩
  cases ev with
  | accept fd newbuffer dataBlob => exact ⟨_, rfl, h.accept hposs⟩
  | event conn what =>
    obtain ⟨bev, hlive, hb, hs⟩ := hbev conn hposs
    exact ⟨_, by rw [Sernet.step, hs]; rfl, h.event hlive hb⟩
  | read conn chunk =>
    obtain ⟨bev, hlive, hb, hs⟩ := hbev conn hposs
    obtain ⟨sernet', hread, htable⟩ := h.read chunk hlive hb
    exact ⟨sernet', by rw [Sernet.step, hs]; exact hread, htable⟩

end Table

theorem run_table (evs : List SernetEv) (hposs : Along step Possible init evs) :
    ∃ sernet, exec step init evs = some sernet ∧ sernet.Table evs :=
  exec_history (fun _ _ _ h hok => h.step hok) init_table evs hposs

end Sernet

/-! ## Clients -/

/-- The table has each connection that has not ended once, under its descriptor and
with its own block and bufferevent; a read of a connection changes its own block, and
a bufferevent is freed once, when its connection ends. -/
theorem client_table (evs : List SernetEv) (hposs : Along Sernet.step Sernet.Possible Sernet.init evs) :
    ∃ sernet, exec Sernet.step Sernet.init evs = some sernet ∧
      (sernet.sercltList.pHead.map SimuListNode.nKey).Nodup ∧
      (∀ fd, fd ∈ sernet.sercltList.pHead.map SimuListNode.nKey ↔
        ∃ conn ∈ live evs, ∃ bev, (accepted evs)[conn]? = some bev ∧ bev.fd = fd) ∧
      sernet.sercltList.nCount = (live evs).length ∧
      (∀ node ∈ sernet.sercltList.pHead, ∃ conn ∈ live evs, ∃ bev serclt, (accepted evs)[conn]? = some bev ∧
        bev.fd = node.nKey ∧ sernet.serclts[node.pData]? = some serclt ∧ serclt.info.nsocket = node.nKey ∧
        serclt.evbuffer = bev.addr) ∧
      (∀ conn ∈ live evs, ∀ chunk, ∃ serclt info, sernet.serclts[conn]? = some serclt ∧
        sercltRecvdata serclt.info chunk = some info ∧ sernet.step (.read conn chunk) =
          some { sernet with serclts := sernet.serclts.set conn { serclt with info := info } }) ∧
      ∀ conn, sernet.freed.count conn = if ended evs conn then 1 else 0 := by
  obtain ⟨sernet, hrun, h⟩ := Sernet.run_table evs hposs
  have hbev : ∀ conn ∈ live evs, ∃ bev, (accepted evs)[conn]? = some bev ∧
      nodeOf (accepted evs) conn = ⟨bev.fd, conn⟩ := by
    intro conn hlive
    have hb := List.getElem?_eq_getElem (mem_live.1 hlive).1
    exact ⟨_, hb, by rw [nodeOf, hb]; rfl⟩
  refine ⟨sernet, hrun, List.pairwise_map.2 h.keyed, ?_, ?_, ?_, ?_, h.freed⟩
  · intro fd
    rw [h.nodes, List.map_map, List.mem_map]
    constructor
    · rintro ⟨conn, hlive, rfl⟩
      obtain ⟨bev, hb, hnode⟩ := hbev conn hlive
      exact ⟨conn, hlive, bev, hb, by simp [hnode]⟩
    · rintro ⟨conn, hlive, bev, hb, rfl⟩
      refine ⟨conn, hlive, ?_⟩
      simp [nodeOf, hb]
  · rw [h.counted, h.nodes, List.length_map]
  · intro node hmem
    rw [h.nodes] at hmem
    obtain ⟨conn, hlive, rfl⟩ := List.mem_map.1 hmem
    obtain ⟨bev, hb, hnode⟩ := hbev conn hlive
    obtain ⟨serclt, hs, hsock, haddr⟩ := h.block_of hb
    rw [hnode]
    exact ⟨conn, hlive, bev, serclt, hb, rfl, hs, hsock, haddr⟩
  · intro conn hlive chunk
    obtain ⟨bev, hb, -⟩ := hbev conn hlive
    obtain ⟨serclt, info, hs, -, -, hinfo, heq⟩ := h.readcb_eq hlive hb chunk
    refine ⟨serclt, info, hs, hinfo, ?_⟩
    have hbevs : sernet.bevs[conn]? = some bev := by rw [h.bevs, hb]
    rw [Sernet.step, hbevs]
    exact heq

/-- Two clients; the first ends, and the third gets its descriptor and the address of
its bufferevent. -/
def reusedEvs : List SernetEv :=
  [.accept 5 0x100 fun _ => 0, .accept 6 0x200 fun _ => 0, .read 0 [0xFA], .event 0 bevEventEof,
    .accept 5 0x100 fun _ => 0, .event 1 0x40, .read 2 [0xFA]]

theorem client_table_reused : ∃ sernet, exec Sernet.step Sernet.init reusedEvs = some sernet ∧
    sernet.sercltList.nCount = 2 ∧ 5 ∈ sernet.sercltList.pHead.map SimuListNode.nKey ∧ sernet.freed.count 0 = 1 := by
  obtain ⟨sernet, hrun, -, hkeys, hcount, -, -, hfreed⟩ := client_table reusedEvs (by decide +kernel)
  refine ⟨sernet, hrun, ?_, (hkeys 5).2 ?_, ?_⟩
  · rw [hcount]
    decide +kernel
  · exact ⟨2, by decide +kernel, ⟨0x100, 5⟩, by decide +kernel, rfl⟩
  · rw [hfreed]
    decide +kernel

end CmdAgent
