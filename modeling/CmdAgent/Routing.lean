import CmdAgent.Agent
import CmdAgent.SercltStream
/-!
# Answers find their way back

The clients' thread and the devices' threads take turns: a read of a client, one
call a client makes, a piece of an answer, a read of a device. Clients and devices
stay connected. A device answers the blocks it was sent in order, each with any
bytes in any pieces. What is not read yet and what was answered is tagged with the
client the block came from.
-/
open StreamLib.Runs

namespace CmdAgent

/-! ## The system -/

/-- The device's end of a connection. -/
structure Link where
  /-- The blocks answered completely. -/
  next : Nat
  /-- What `_devnet_readcb` has not read. -/
  input : List (Int × UInt8)
  /-- All answers so far. -/
  answered : List (Int × UInt8)

/-- Data `_devnet_readcb` of `device` passed on that was added to the output of `serid`. -/
structure Delivery where
  device : Nat
  serid : Int
  data : List UInt8

structure World where
  devInfo : DevInfo
  sercltList : SimuList Serclt
  /-- The calls the read of a client has yet to make. -/
  calls : List SercltEv
  link : Nat → Link
  deliveries : List Delivery

def World.init : World where
  devInfo := []
  sercltList := []
  calls := []
  link := fun _ => ⟨0, [], []⟩
  deliveries := []

inductive Ev where
  | accept (fd : Int) (dataBlob : Nat → UInt8)
  | recv (fd : Int) (chunk : List UInt8)
  | registerdevice (started : Bool)
  | transmitpacket (added : Bool)
  | connect (device : Nat)
  | connected (device : Nat)
  | answer (device : Nat) (piece : List UInt8) (last : Bool)
  | read (device : Nat) (len : Nat) (added : Bool)

def Link.answer (link : Link) (owner : Int) (piece : List UInt8) (last : Bool) : Link where
  next := if last then link.next + 1 else link.next
  input := link.input ++ piece.map (fun b => (owner, b))
  answered := link.answered ++ piece.map (fun b => (owner, b))

def World.passOn (w : World) (device : Nat) (added : Bool) : Option (Int × List UInt8) → World
  | none => w
  | some (serid, data) =>
    let r := sernetWrite w.sercltList serid data added
    { w with
      sercltList := r.2
      deliveries := if r.1 = 0 then w.deliveries ++ [⟨device, serid, data⟩] else w.deliveries }

/-- `none` where an event cannot happen. -/
def World.step (w : World) : Ev → Option World
  | .accept fd dataBlob =>
    match w.calls with
    | [] => some { w with sercltList := sernetAcceptcb w.sercltList fd dataBlob }
    | _ => none
  | .recv fd chunk =>
    match w.calls with
    | [] => (sernetReadcb w.sercltList fd chunk).map fun r => { w with sercltList := r.1, calls := r.2 }
    | _ => none
  | .registerdevice started =>
    match w.calls with
    | .registerdevice devip devport :: calls =>
      some { w with devInfo := (cmdagentRegisterDevice w.devInfo devip devport started).2, calls := calls }
    | _ => none
  | .transmitpacket added =>
    match w.calls with
    | .transmitpacket devip devport nsocket packet :: calls =>
      some { w with
        devInfo := (cmdagentSendtoDevice w.devInfo devip devport nsocket packet added).2
        calls := calls }
    | _ => none
  | .connect device =>
    match w.devInfo[device]? with
    | none => none
    | some entry =>
      if entry.devNet.bev then none else some { w with devInfo := modifyDevNet w.devInfo device devnetConnect }
  | .connected device =>
    match w.devInfo[device]? with
    | none => none
    | some entry =>
      if entry.devNet.bev then some { w with devInfo := modifyDevNet w.devInfo device devnetConnected } else none
  | .answer device piece last =>
    match w.devInfo[device]? with
    | none => none
    | some entry => (entry.devNet.output[(w.link device).next]?).map fun block =>
      { w with link := Function.update w.link device ((w.link device).answer block.1 piece last) }
  | .read device len added =>
    match w.devInfo[device]? with
    | none => none
    | some entry =>
      let n := min len devnetRdbufferSize
      let r := devnetReadcb entry.devNet (((w.link device).input.take n).map Prod.snd)
      some (World.passOn { w with
        devInfo := modifyDevNet w.devInfo device fun _ => r.1
        link := Function.update w.link device { w.link device with input := (w.link device).input.drop n } }
        device added r.2)

/-- What a step does. -/
inductive World.Does (w : World) : Ev → World → Prop
  | accept {fd : Int} {dataBlob : Nat → UInt8} : w.calls = [] →
      w.Does (.accept fd dataBlob) { w with sercltList := sernetAcceptcb w.sercltList fd dataBlob }
  | recv {fd : Int} {chunk : List UInt8} {r : SimuList Serclt × List SercltEv} : w.calls = [] →
      sernetReadcb w.sercltList fd chunk = some r →
      w.Does (.recv fd chunk) { w with sercltList := r.1, calls := r.2 }
  | registerdevice {devip : String} {devport : UInt16} {calls : List SercltEv} {started : Bool} :
      w.calls = .registerdevice devip devport :: calls →
      w.Does (.registerdevice started)
        { w with devInfo := (cmdagentRegisterDevice w.devInfo devip devport started).2, calls := calls }
  | transmitpacket {devip : String} {devport : UInt16} {nsocket : Int} {packet : List UInt8} {calls : List SercltEv}
      {added : Bool} : w.calls = .transmitpacket devip devport nsocket packet :: calls →
      w.Does (.transmitpacket added)
        { w with devInfo := (cmdagentSendtoDevice w.devInfo devip devport nsocket packet added).2, calls := calls }
  | connect {device : Nat} {entry : DeventityInfo} : w.devInfo[device]? = some entry → entry.devNet.bev = false →
      w.Does (.connect device) { w with devInfo := modifyDevNet w.devInfo device devnetConnect }
  | connected {device : Nat} {entry : DeventityInfo} : w.devInfo[device]? = some entry → entry.devNet.bev = true →
      w.Does (.connected device) { w with devInfo := modifyDevNet w.devInfo device devnetConnected }
  | answer {device : Nat} {piece : List UInt8} {last : Bool} {entry : DeventityInfo} {block : Int × List UInt8} :
      w.devInfo[device]? = some entry → entry.devNet.output[(w.link device).next]? = some block →
      w.Does (.answer device piece last)
        { w with link := Function.update w.link device ((w.link device).answer block.1 piece last) }
  | read {device len : Nat} {added : Bool} {entry : DeventityInfo} : w.devInfo[device]? = some entry →
      w.Does (.read device len added) (World.passOn { w with
        devInfo := modifyDevNet w.devInfo device fun _ =>
          (devnetReadcb entry.devNet (((w.link device).input.take (min len devnetRdbufferSize)).map Prod.snd)).1
        link := Function.update w.link device
          { w.link device with input := (w.link device).input.drop (min len devnetRdbufferSize) } }
        device added
        (devnetReadcb entry.devNet (((w.link device).input.take (min len devnetRdbufferSize)).map Prod.snd)).2)

theorem does_of_step {w w' : World} {ev : Ev} (h : w.step ev = some w') : w.Does ev w' := by
  unfold World.step at h
  cases ev with
  | accept fd dataBlob =>
    dsimp only at h
    split at h <;> cases h
    exact .accept ‹_›
  | recv fd chunk =>
    dsimp only at h
    split at h
    · obtain ⟨r, hr, rfl⟩ := Option.map_eq_some_iff.1 h
      exact .recv ‹_› hr
    · cases h
  | registerdevice started =>
    dsimp only at h
    split at h <;> cases h
    exact .registerdevice ‹_›
  | transmitpacket added =>
    dsimp only at h
    split at h <;> cases h
    exact .transmitpacket ‹_›
  | connect device =>
    dsimp only at h
    split at h
    · cases h
    · split at h <;> cases h
      exact .connect ‹_› (Bool.eq_false_iff.2 ‹_›)
  | connected device =>
    dsimp only at h
    split at h
    · cases h
    · split at h <;> cases h
      exact .connected ‹_› ‹_›
  | answer device piece last =>
    dsimp only at h
    split at h
    · cases h
    · obtain ⟨block, hblock, rfl⟩ := Option.map_eq_some_iff.1 h
      exact .answer ‹_› hblock
  | read device len added =>
    dsimp only at h
    split at h <;> cases h
    exact .read ‹_›

/-! ## Answers -/

/-- The bytes meant for the client `c`. -/
def bytesFor (c : Int) (l : List (Int × UInt8)) : List UInt8 := (l.filter fun p => p.1 = c).map Prod.snd

/-- What `device` has sent to the client `c`. -/
def delivered (deliveries : List Delivery) (device : Nat) (c : Int) : List UInt8 :=
  deliveries.flatMap fun v => if v.device = device ∧ v.serid = c then v.data else []

/-- The clients the device has blocks or answers of on the way. -/
def Link.owed (link : Link) (output : List (Int × List UInt8)) : List Int :=
  (output.drop link.next).map Prod.fst ++ link.input.map Prod.fst

/-- No other client waits for an answer of the device at `devip` and `devport`. -/
def World.SettledFor (w : World) (devip : String) (devport : UInt16) (nsocket : Int) : Prop :=
  ∀ device ∈ cmdagentFind w.devInfo devip devport, ∀ entry ∈ w.devInfo[device]?,
    devnetIsconnected entry.devNet → ∀ owner ∈ (w.link device).owed entry.devNet.output, owner = nsocket

/-- A client's block reaches `devnet_write` only while the device owes no other client
an answer, and there is memory for what is passed to clients. -/
def World.Settled (w : World) : Ev → Prop
  | .transmitpacket _ =>
    match w.calls with
    | .transmitpacket devip devport nsocket _ :: _ => w.SettledFor devip devport nsocket
    | _ => True
  | .read _ _ added => added
  | _ => True

/-! ### Bytes -/

section
variable {c owner : Int} {l l' : List (Int × UInt8)} {piece : List UInt8}

@[simp] theorem bytesFor_append : bytesFor c (l ++ l') = bytesFor c l ++ bytesFor c l' := by
  simp [bytesFor]

theorem bytesFor_of_owner (h : ∀ p ∈ l, p.1 = owner) :
    bytesFor c l = if owner = c then l.map Prod.snd else [] := by
  unfold bytesFor
  by_cases hc : owner = c
  · rw [if_pos hc, List.filter_eq_self.2]
    intro p hp
    simp [h p hp, hc]
  · rw [if_neg hc, List.filter_eq_nil_iff.2, List.map_nil]
    intro p hp
    simp [h p hp, hc]

end

theorem delivered_snoc (deliveries : List Delivery) (v : Delivery) (device : Nat) (c : Int) :
    delivered (deliveries ++ [v]) device c =
      delivered deliveries device c ++ if v.device = device ∧ v.serid = c then v.data else [] := by
  simp [delivered, List.flatMap_append]

theorem devInfo_modify {devInfo : DevInfo} {idx device : Nat} {f : DevnetInfo → DevnetInfo} {entry : DeventityInfo}
    (h : (modifyDevNet devInfo idx f)[device]? = some entry) :
    ∃ old, devInfo[device]? = some old ∧
      entry = if idx = device then { old with devNet := f old.devNet } else old := by
  rw [modifyDevNet, List.getElem?_modify] at h
  obtain ⟨old, ho, rfl⟩ := Option.map_eq_some_iff.1 h
  refine ⟨old, ho, ?_⟩
  split <;> rfl

/-! ## What every step keeps -/

section
variable {sercltList : SimuList Serclt}
  (h : ∀ c node, simuListGet sercltList c = some node → node.pData.info.nsocket = c)
include h

theorem nsocket_accept (fd : Int) (dataBlob : Nat → UInt8) {c : Int} {node : SimuListNode Serclt}
    (hn : simuListGet (sernetAcceptcb sercltList fd dataBlob) c = some node) : node.pData.info.nsocket = c := by
  rw [sernetAcceptcb, simuListGet_add, Option.or_eq_some_iff] at hn
  rcases hn with hold | ⟨-, hnew⟩
  · exact h c node hold
  · by_cases hc : fd = c
    · rw [if_pos hc] at hnew
      cases hnew
      exact hc
    · rw [if_neg hc] at hnew
      cases hnew

/-- A client changes but for its socket. -/
theorem nsocket_put {fd : Int} {old : SimuListNode Serclt} {serclt : Serclt}
    (hget : simuListGet sercltList fd = some old) (hsock : serclt.info.nsocket = old.pData.info.nsocket) {c : Int}
    {node : SimuListNode Serclt} (hn : simuListGet (simuListPut sercltList fd serclt) c = some node) :
    node.pData.info.nsocket = c := by
  rw [simuListGet_put] at hn
  by_cases hc : fd = c
  · subst hc
    rw [if_pos rfl, hget] at hn
    cases hn
    exact hsock.trans (h fd old hget)
  · rw [if_neg hc] at hn
    exact h c node hn

/-- A read of a client's data makes calls for it alone, and it stays in the list. -/
theorem callers_recvdata {fd : Int} {old : SimuListNode Serclt} {chunk : List UInt8} {info : SercltInfo}
    (hget : simuListGet sercltList fd = some old) (hinfo : sercltRecvdata old.pData.info chunk = some info)
    (serclt : Serclt) {devip : String} {devport : UInt16} {nsocket : Int} {packet : List UInt8}
    (hmem : .transmitpacket devip devport nsocket packet ∈ info.log.drop old.pData.info.log.length) :
    (simuListGet (simuListPut sercltList fd serclt) nsocket).isSome := by
  obtain ⟨-, calls, hlog, hcalls⟩ := recvdata_calls hinfo
  rw [hlog, List.drop_left] at hmem
  rw [hcalls _ _ _ _ hmem, h fd old hget]
  exact isSome_put (by rw [hget]; rfl) _ _

end

abbrev World.Connected (w : World) (c : Int) : Prop := (simuListGet w.sercltList c).isSome

structure World.Inv (w : World) : Prop where
  sockets : ∀ c node, simuListGet w.sercltList c = some node → node.pData.info.nsocket = c
  callers : ∀ devip devport nsocket packet, .transmitpacket devip devport nsocket packet ∈ w.calls →
    w.Connected nsocket
  absent : ∀ device, w.devInfo[device]? = none → (w.link device).input = []
  owed : ∀ device entry, w.devInfo[device]? = some entry →
    ∀ owner ∈ (w.link device).owed entry.devNet.output, owner = entry.devNet.nserid ∧ w.Connected owner
  routed : ∀ device c, delivered w.deliveries device c ++ bytesFor c (w.link device).input =
    bytesFor c (w.link device).answered

theorem World.init_inv : World.init.Inv where
  sockets := by simp [World.init, simuListGet]
  callers := by simp [World.init]
  absent := by simp [World.init]
  owed := by simp [World.init]
  routed := by simp [World.init, delivered, bytesFor]

namespace World.Inv
variable {w : World}

theorem accept (h : w.Inv) (fd : Int) (dataBlob : Nat → UInt8) :
    ({ w with sercltList := sernetAcceptcb w.sercltList fd dataBlob } : World).Inv := by
  refine { h with sockets := fun _ _ hn => nsocket_accept h.sockets fd dataBlob hn, callers := ?_, owed := ?_ }
  · intro devip devport nsocket packet hmem
    exact isSome_add (h.callers _ _ _ _ hmem) _ _
  · intro device entry he owner ho
    exact (h.owed device entry he owner ho).imp_right fun hc => isSome_add hc _ _

/-- A client changes but for its socket. -/
theorem put (h : w.Inv) {c : Int} {node : SimuListNode Serclt} (serclt : Serclt)
    (hget : simuListGet w.sercltList c = some node) (hsock : serclt.info.nsocket = node.pData.info.nsocket) :
    ({ w with sercltList := simuListPut w.sercltList c serclt } : World).Inv := by
  refine { h with sockets := fun _ _ hn => nsocket_put h.sockets hget hsock hn, callers := ?_, owed := ?_ }
  · intro devip devport nsocket packet hmem
    exact isSome_put (h.callers _ _ _ _ hmem) _ _
  · intro device entry he owner ho
    exact (h.owed device entry he owner ho).imp_right fun hc => isSome_put hc _ _

theorem recv (h : w.Inv) {fd : Int} {chunk : List UInt8} {r : SimuList Serclt × List SercltEv}
    (hr : sernetReadcb w.sercltList fd chunk = some r) : ({ w with sercltList := r.1, calls := r.2 } : World).Inv := by
  unfold sernetReadcb at hr
  cases hget : simuListGet w.sercltList fd with
  | none =>
    rw [hget] at hr
    cases hr
    exact { h with callers := by simp }
  | some node =>
    rw [hget] at hr
    obtain ⟨info, hinfo, rfl⟩ := Option.map_eq_some_iff.1 hr
    refine { h.put _ hget (recvdata_calls hinfo).socket with callers := ?_ }
    intro devip devport nsocket packet hmem
    exact callers_recvdata h.sockets hget hinfo _ hmem

/-- A call of the client is made. -/
theorem made (h : w.Inv) {call : SercltEv} {calls : List SercltEv} (hcalls : w.calls = call :: calls) :
    ({ w with calls := calls } : World).Inv := by
  refine { h with callers := ?_ }
  intro devip devport nsocket packet hmem
  refine h.callers devip devport nsocket packet ?_
  rw [hcalls]
  exact List.mem_cons_of_mem _ hmem

/-- Changes of the devices that leave `nserid` and the outputs alone. -/
theorem devices (h : w.Inv) {devInfo : DevInfo}
    (hold : ∀ (device : Nat) (entry : DeventityInfo), devInfo[device]? = some entry →
      (∃ old, w.devInfo[device]? = some old ∧ old.devNet.nserid = entry.devNet.nserid ∧
        old.devNet.output = entry.devNet.output) ∨ w.devInfo[device]? = none ∧ entry.devNet.output = [])
    (habsent : ∀ device : Nat, devInfo[device]? = none → w.devInfo[device]? = none) :
    ({ w with devInfo := devInfo } : World).Inv := by
  refine { h with absent := ?_, owed := ?_ }
  · intro device hd
    exact h.absent device (habsent device hd)
  · intro device entry he owner ho
    rcases hold device entry he with ⟨old, hdev, hser, hout⟩ | ⟨hnone, hout⟩
    · rw [← hout] at ho
      rw [← hser]
      exact h.owed device old hdev owner ho
    · rw [Link.owed, hout, h.absent device hnone] at ho
      simp at ho

theorem registerdevice (h : w.Inv) (devip : String) (devport : UInt16) (started : Bool) :
    ({ w with devInfo := (cmdagentRegisterDevice w.devInfo devip devport started).2 } : World).Inv := by
  unfold cmdagentRegisterDevice
  split
  · exact h
  split
  · exact h
  split
  · exact h
  split
  · refine h.devices ?_ ?_
    · intro device entry he
      rw [List.getElem?_append] at he
      by_cases hlt : device < w.devInfo.length
      · rw [if_pos hlt] at he
        exact .inl ⟨entry, he, rfl, rfl⟩
      · rw [if_neg hlt, List.getElem?_singleton] at he
        refine .inr ⟨List.getElem?_eq_none (Nat.not_lt.1 hlt), ?_⟩
        obtain ⟨-, hnew⟩ := Option.ite_none_right_eq_some.1 he
        cases hnew
        rfl
    · intro device hd
      rw [List.getElem?_eq_none_iff, List.length_append] at hd
      exact List.getElem?_eq_none ((Nat.le_add_right _ _).trans hd)
  · exact h

theorem modify (h : w.Inv) (device : Nat) {f : DevnetInfo → DevnetInfo} (hser : ∀ devnet, (f devnet).nserid = devnet.nserid)
    (hout : ∀ devnet, (f devnet).output = devnet.output) :
    ({ w with devInfo := modifyDevNet w.devInfo device f } : World).Inv := by
  refine h.devices ?_ ?_
  · intro d entry he
    obtain ⟨old, hold, rfl⟩ := devInfo_modify he
    refine .inl ⟨old, hold, ?_⟩
    split
    · exact ⟨(hser _).symm, (hout _).symm⟩
    · exact ⟨rfl, rfl⟩
  · intro d hd
    simpa [modifyDevNet, List.getElem?_modify] using hd

theorem owed_append {link : Link} {output : List (Int × List UInt8)} {block : Int × List UInt8} {owner : Int}
    (h : owner ∈ link.owed (output ++ [block])) : owner ∈ link.owed output ∨ owner = block.1 := by
  simp only [Link.owed, List.drop_append, List.map_append, List.mem_append] at h ⊢
  rcases h with (hout | hnew) | hin
  · exact .inl (.inl hout)
  · obtain ⟨b, hb, rfl⟩ := List.mem_map.1 hnew
    rw [List.mem_singleton.1 (List.mem_of_mem_drop hb)]
    exact .inr rfl
  · exact .inl (.inr hin)

theorem transmitpacket (h : w.Inv) {devip : String} {devport : UInt16} {nsocket : Int} (packet : List UInt8)
    (hconn : w.Connected nsocket) (hsettled : w.SettledFor devip devport nsocket) (added : Bool) :
    ({ w with devInfo := (cmdagentSendtoDevice w.devInfo devip devport nsocket packet added).2 } : World).Inv := by
  unfold cmdagentSendtoDevice
  split
  · exact h
  cases hfind : cmdagentFind w.devInfo devip devport with
  | none => exact h
  | some idx =>
    dsimp only
    refine { h with absent := ?_, owed := ?_ }
    · intro device hd
      exact h.absent device (by simpa [modifyDevNet, List.getElem?_modify] using hd)
    · intro device entry he owner ho
      dsimp only at he ho
      obtain ⟨old, hold, rfl⟩ := devInfo_modify he
      by_cases hidx : idx = device
      · subst hidx
        rw [if_pos rfl] at ho ⊢
        unfold devnetWrite at ho ⊢
        by_cases hc : devnetIsconnected old.devNet
        · have hset := hsettled idx hfind old hold hc
          rw [if_pos hc] at ho ⊢
          -- `nserid` changes whether or not the block is added.
          cases added with
          | false => exact ⟨hset owner ho, (h.owed idx old hold owner ho).2⟩
          | true =>
            rcases owed_append ho with hprev | hnew
            · exact ⟨hset owner hprev, (h.owed idx old hold owner hprev).2⟩
            · exact ⟨hnew, hnew ▸ hconn⟩
        · rw [if_neg hc] at ho ⊢
          exact h.owed idx old hold owner ho
      · rw [if_neg hidx] at ho ⊢
        exact h.owed device old hold owner ho

theorem answer (h : w.Inv) {device : Nat} {entry : DeventityInfo} {block : Int × List UInt8}
    (hentry : w.devInfo[device]? = some entry) (hblock : entry.devNet.output[(w.link device).next]? = some block)
    (piece : List UInt8) (last : Bool) :
    ({ w with link := Function.update w.link device ((w.link device).answer block.1 piece last) } : World).Inv := by
  refine { h with absent := ?_, owed := ?_, routed := ?_ }
  · intro d hd
    by_cases he : d = device
    · rw [he, hentry] at hd
      cases hd
    · simpa [he] using h.absent d hd
  · intro d e hd owner ho
    by_cases he : d = device
    · subst he
      cases hentry.symm.trans hd
      refine h.owed d entry hentry owner ?_
      have hmem : block ∈ entry.devNet.output.drop (w.link d).next := by
        rw [List.drop_eq_getElem_cons (List.getElem?_eq_some_iff.1 hblock).1]
        exact List.mem_cons.2 (.inl (List.getElem?_eq_some_iff.1 hblock).2.symm)
      simp only [Function.update_self, Link.owed, Link.answer, List.map_append, List.mem_append] at ho ⊢
      rcases ho with hout | hin | hnew
      · refine .inl (List.map_subset _ ?_ hout)
        split
        · exact List.drop_subset_drop_left _ (Nat.le_succ _)
        · exact List.Subset.refl _
      · exact .inr hin
      · obtain ⟨p, hp, rfl⟩ := List.mem_map.1 hnew
        obtain ⟨b, -, rfl⟩ := List.mem_map.1 hp
        exact .inl (List.mem_map_of_mem hmem)
    · simp only [Function.update_of_ne he] at ho
      exact h.owed d e hd owner ho
  · intro d c
    by_cases he : d = device
    · subst he
      simp only [Function.update_self, Link.answer, bytesFor_append, ← h.routed d c, List.append_assoc]
    · simp only [Function.update_of_ne he]
      exact h.routed d c

/-- What a read takes all belongs to the client of `nserid`. -/
theorem taken_owner (h : w.Inv) {device : Nat} {entry : DeventityInfo} (hentry : w.devInfo[device]? = some entry)
    (n : Nat) : ∀ p ∈ (w.link device).input.take n, p.1 = entry.devNet.nserid ∧ w.Connected p.1 := by
  intro p hp
  refine h.owed device entry hentry p.1 (List.mem_append_right _ ?_)
  exact List.mem_map_of_mem (List.mem_of_mem_take hp)

theorem bytesFor_input (h : w.Inv) {device : Nat} {entry : DeventityInfo} (hentry : w.devInfo[device]? = some entry)
    (n : Nat) (c : Int) : bytesFor c (w.link device).input =
      (if entry.devNet.nserid = c then ((w.link device).input.take n).map Prod.snd else []) ++
        bytesFor c ((w.link device).input.drop n) := by
  rw [← bytesFor_of_owner fun p hp => (h.taken_owner hentry n p hp).1, ← bytesFor_append, List.take_append_drop]

theorem devnetReadcb_same (devnet : DevnetInfo) (data : List UInt8) :
    (devnetReadcb devnet data).1.nserid = devnet.nserid ∧ (devnetReadcb devnet data).1.output = devnet.output := by
  unfold devnetReadcb
  split <;> exact ⟨rfl, rfl⟩

/-- Taking bytes from the input, with them passed on as `deliveries` says. -/
theorem take (h : w.Inv) {device : Nat} {entry : DeventityInfo} (hentry : w.devInfo[device]? = some entry) (n : Nat)
    {devnet : DevnetInfo} (hser : devnet.nserid = entry.devNet.nserid) (hout : devnet.output = entry.devNet.output)
    (deliveries : List Delivery)
    (hdel : ∀ d c, delivered deliveries d c = delivered w.deliveries d c ++
      if device = d ∧ entry.devNet.nserid = c then ((w.link device).input.take n).map Prod.snd else []) :
    ({ w with
      devInfo := modifyDevNet w.devInfo device fun _ => devnet
      link := Function.update w.link device { w.link device with input := (w.link device).input.drop n }
      deliveries := deliveries } : World).Inv := by
  refine { h with absent := ?_, owed := ?_, routed := ?_ }
  · intro d hd
    have habs : w.devInfo[d]? = none := by simpa [modifyDevNet, List.getElem?_modify] using hd
    by_cases he : d = device
    · rw [he, hentry] at habs
      cases habs
    · simpa [he] using h.absent d habs
  · intro d e hd owner ho
    dsimp only at hd ho
    obtain ⟨old, hold, rfl⟩ := devInfo_modify hd
    by_cases he : d = device
    · subst he
      cases hentry.symm.trans hold
      rw [if_pos rfl] at ho ⊢
      simp only [Function.update_self, hout, hser] at ho ⊢
      refine h.owed d entry hentry owner ?_
      simp only [Link.owed, List.mem_append] at ho ⊢
      exact ho.imp_right fun hin => List.map_subset _ (List.drop_subset _ _) hin
    · rw [if_neg (Ne.symm he)] at ho ⊢
      rw [Function.update_of_ne he] at ho
      exact h.owed d old hold owner ho
  · intro d c
    dsimp only
    rw [hdel]
    by_cases he : d = device
    · subst he
      simp only [Function.update_self, true_and]
      rw [List.append_assoc, ← h.bytesFor_input hentry n c, h.routed]
    · rw [if_neg fun hd => he hd.1.symm, List.append_nil, Function.update_of_ne he]
      exact h.routed d c

theorem sernetWrite_of_get {sercltList : SimuList Serclt} {serid : Int} {node : SimuListNode Serclt}
    (h : simuListGet sercltList serid = some node) (data : List UInt8) :
    sernetWrite sercltList serid data true =
      (0, simuListPut sercltList serid ⟨node.pData.info, node.pData.output ++ data⟩) := by
  simp [sernetWrite, h, sercltWritedata]

theorem read (h : w.Inv) {device : Nat} {entry : DeventityInfo} (hentry : w.devInfo[device]? = some entry) (n : Nat) :
    (World.passOn { w with
      devInfo := modifyDevNet w.devInfo device fun _ =>
        (devnetReadcb entry.devNet (((w.link device).input.take n).map Prod.snd)).1
      link := Function.update w.link device { w.link device with input := (w.link device).input.drop n } }
      device true (devnetReadcb entry.devNet (((w.link device).input.take n).map Prod.snd)).2).Inv := by
  obtain ⟨hser, hout⟩ := devnetReadcb_same entry.devNet (((w.link device).input.take n).map Prod.snd)
  have htake := h.take hentry n hser hout
  -- With nothing to read `dealpacket` is not called.
  rcases hin : (w.link device).input.take n with _ | ⟨p, ps⟩
  · rw [hin] at htake
    exact htake w.deliveries fun d c => by simp
  · rw [hin] at htake
    obtain ⟨hp, hconn⟩ := h.taken_owner hentry n p (by rw [hin]; exact List.mem_cons_self)
    rw [hp] at hconn
    obtain ⟨node, hget⟩ := Option.isSome_iff_exists.1 hconn
    have hall := htake (w.deliveries ++ [⟨device, entry.devNet.nserid, (p :: ps).map Prod.snd⟩]) fun d c =>
      delivered_snoc _ _ _ _
    have hput := hall.put ⟨node.pData.info, node.pData.output ++ (p :: ps).map Prod.snd⟩ hget rfl
    have hread : (devnetReadcb entry.devNet ((p :: ps).map Prod.snd)).2 =
      some (entry.devNet.nserid, (p :: ps).map Prod.snd) := rfl
    rw [hread]
    simp only [World.passOn, sernetWrite_of_get hget, if_true]
    exact hput

end World.Inv

/-- One step. -/
theorem World.Inv.step {w w' : World} {ev : Ev} (h : w.Inv) (hsettled : w.Settled ev) (hstep : w.step ev = some w') :
    w'.Inv := by
  cases does_of_step hstep with
  | accept => exact h.accept _ _
  | recv _ hr => exact h.recv hr
  | registerdevice hcalls => exact (h.made hcalls).registerdevice _ _ _
  | @transmitpacket _ _ nsocket _ _ _ hcalls =>
    simp only [World.Settled, hcalls] at hsettled
    have hconn : w.Connected nsocket := h.callers _ _ _ _ (by rw [hcalls]; exact List.mem_cons_self)
    exact (h.made hcalls).transmitpacket _ hconn hsettled _
  | connect | connected => exact h.modify _ (fun _ => rfl) (fun _ => rfl)
  | answer hentry hblock => exact h.answer hentry hblock _ _
  | read hentry =>
    simp only [World.Settled] at hsettled
    subst hsettled
    exact h.read hentry _

/-! ### Deliveries are what the clients' outputs hold -/

/-- All data passed on to the client `c`. -/
def sent (deliveries : List Delivery) (c : Int) : List UInt8 :=
  deliveries.flatMap fun v => if v.serid = c then v.data else []

/-- What was added to the output of the client `c`. -/
def outputOf (sercltList : SimuList Serclt) (c : Int) : List UInt8 :=
  match simuListGet sercltList c with
  | none => []
  | some node => node.pData.output

def World.Outputs (w : World) : Prop := ∀ c, outputOf w.sercltList c = sent w.deliveries c

theorem sent_snoc (deliveries : List Delivery) (v : Delivery) (c : Int) :
    sent (deliveries ++ [v]) c = sent deliveries c ++ if v.serid = c then v.data else [] := by
  simp [sent, List.flatMap_append]

theorem outputOf_accept (sercltList : SimuList Serclt) (fd : Int) (dataBlob : Nat → UInt8) (c : Int) :
    outputOf (sernetAcceptcb sercltList fd dataBlob) c = outputOf sercltList c := by
  unfold outputOf sernetAcceptcb
  rw [simuListGet_add]
  cases simuListGet sercltList c with
  | some node => rfl
  | none =>
    by_cases hc : fd = c
    · rw [if_pos hc]
      rfl
    · rw [if_neg hc]
      rfl

theorem outputOf_put {sercltList : SimuList Serclt} {key : Int} {node : SimuListNode Serclt}
    (h : simuListGet sercltList key = some node) (serclt : Serclt) (c : Int) :
    outputOf (simuListPut sercltList key serclt) c = if key = c then serclt.output else outputOf sercltList c := by
  unfold outputOf
  rw [simuListGet_put]
  by_cases hc : key = c
  · rw [if_pos hc, if_pos hc, ← hc, h]
    rfl
  · rw [if_neg hc, if_neg hc]

theorem outputOf_readcb {sercltList : SimuList Serclt} {fd : Int} {chunk : List UInt8}
    {r : SimuList Serclt × List SercltEv} (h : sernetReadcb sercltList fd chunk = some r) (c : Int) :
    outputOf r.1 c = outputOf sercltList c := by
  unfold sernetReadcb at h
  cases hget : simuListGet sercltList fd with
  | none =>
    rw [hget] at h
    cases h
    rfl
  | some node =>
    rw [hget] at h
    obtain ⟨info, -, rfl⟩ := Option.map_eq_some_iff.1 h
    rw [outputOf_put hget]
    by_cases hc : fd = c
    · rw [if_pos hc, ← hc, outputOf, hget]
    · rw [if_neg hc]

theorem World.Outputs.passOn {w : World} (h : w.Outputs) (device : Nat) (added : Bool)
    (call : Option (Int × List UInt8)) : (w.passOn device added call).Outputs := by
  intro c
  rcases call with _ | ⟨serid, data⟩
  · exact h c
  cases hget : simuListGet w.sercltList serid with
  | none =>
    simp only [World.passOn, sernetWrite, hget]
    exact h c
  | some node =>
    have hold : node.pData.output = sent w.deliveries serid := by rw [← h, outputOf, hget]
    simp only [World.passOn, sernetWrite, hget, sercltWritedata]
    rw [outputOf_put hget]
    by_cases hc : serid = c
    · rw [if_pos hc, ← hc]
      cases added with
      | false => simpa using hold
      | true => simp [sent_snoc, hold]
    · rw [if_neg hc, h c]
      cases added with
      | false => simp
      | true => simp [sent_snoc, hc]

theorem World.Outputs.step {w w' : World} {ev : Ev} (h : w.Outputs) (hstep : w.step ev = some w') : w'.Outputs := by
  cases does_of_step hstep with
  | accept => exact fun c => (outputOf_accept _ _ _ _).trans (h c)
  | recv _ hr => exact fun c => (outputOf_readcb hr c).trans (h c)
  | registerdevice | transmitpacket | connect | connected | answer => exact h
  | read =>
    refine World.Outputs.passOn ?_ _ _ _
    exact h

/-! ## Whole runs -/

/-- In every state of a run in which a client's block reaches `devnet_write` only
while no other client waits for an answer of the device, each client has been sent
the answers to its own blocks, but for what is not read yet, and nothing else. -/
theorem answers_routed (evs : List Ev) (w : World) (hrun : exec World.step World.init evs = some w)
    (hsettled : Along World.step World.Settled World.init evs) (c : Int) :
    outputOf w.sercltList c = sent w.deliveries c ∧
      ∀ device, delivered w.deliveries device c ++ bytesFor c (w.link device).input =
        bytesFor c (w.link device).answered := by
  have hinv : w.Inv := exec_inv (fun _ _ _ hs hok hst => hs.step hok hst) World.init_inv hsettled hrun
  have hout : w.Outputs :=
    exec_inv (fun _ _ _ hs _ hst => World.Outputs.step hs hst) (fun _ => rfl) hsettled hrun
  exact ⟨hout c, fun device => hinv.routed device c⟩

instance (w : World) (devip : String) (devport : UInt16) (nsocket : Int) :
    Decidable (w.SettledFor devip devport nsocket) :=
  inferInstanceAs (Decidable (∀ device ∈ cmdagentFind w.devInfo devip devport, ∀ entry ∈ w.devInfo[device]?,
    devnetIsconnected entry.devNet → ∀ owner ∈ (w.link device).owed entry.devNet.output, owner = nsocket))

instance (w : World) (ev : Ev) : Decidable (w.Settled ev) := by
  unfold World.Settled
  split
  · split <;> infer_instance
  · infer_instance
  · infer_instance

/-- The clients 5 and 6 register the same device, which connects. -/
def twoClients : List Ev :=
  [.accept 5 (fun _ => 0), .accept 6 (fun _ => 0), .recv 5 initPacket, .registerdevice true, .connect 0, .connected 0,
    .recv 6 initPacket, .registerdevice true]

/-- The second client asks once the first has its answer. -/
def askedInTurn : List Ev :=
  twoClients ++ [.recv 5 buzzackBytes, .transmitpacket true, .answer 0 [1, 2] false, .read 0 1 true,
    .answer 0 [3] true, .read 0 2 true, .recv 6 buzzackBytes, .transmitpacket true, .answer 0 [4] true]

theorem answers_routed_in_turn :
    ∃ w, exec World.step World.init askedInTurn = some w ∧
      ∀ c, outputOf w.sercltList c = sent w.deliveries c ∧
        ∀ device, delivered w.deliveries device c ++ bytesFor c (w.link device).input =
          bytesFor c (w.link device).answered := by
  obtain ⟨w, hw⟩ := Option.isSome_iff_exists.1 (by decide +kernel : (exec World.step World.init askedInTurn).isSome)
  exact ⟨w, hw, answers_routed _ w hw (by decide +kernel)⟩

/-- Both clients ask before the device answers. -/
def askedTogether : List Ev :=
  twoClients ++ [.recv 5 buzzackBytes, .transmitpacket true, .recv 6 buzzackBytes, .transmitpacket true,
    .answer 0 [1] true, .read 0 1 true]

/-- The answer to client 5 goes to client 6. -/
theorem answer_misrouted :
    ∃ w, exec World.step World.init askedTogether = some w ∧
      bytesFor 5 (w.link 0).answered = [1] ∧ bytesFor 6 (w.link 0).answered = [] ∧ (w.link 0).input = [] ∧
        outputOf w.sercltList 5 = [] ∧ outputOf w.sercltList 6 = [1] := by
  obtain ⟨w, hw, hp⟩ := (Option.any_eq_true _ _).1 (by decide +kernel : (exec World.step World.init askedTogether).any
    fun w => bytesFor 5 (w.link 0).answered = [1] ∧ bytesFor 6 (w.link 0).answered = [] ∧ (w.link 0).input = [] ∧
      outputOf w.sercltList 5 = [] ∧ outputOf w.sercltList 6 = [1])
  exact ⟨w, hw, of_decide_eq_true hp⟩

end CmdAgent
