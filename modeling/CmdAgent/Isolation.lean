import CmdAgent.Routing
/-!
# Clients that come and go

A device answers to the descriptor in `nserid`, which stays there when the client has
gone. Here clients connect and disconnect, with any descriptor that is not open, and
devices connect, disconnect and send what they like. `asked` keeps which devices the
present connection of a descriptor has had data added to.
-/
open StreamLib.Runs

namespace CmdAgent

/-! ## The system -/

structure Hub where
  devInfo : DevInfo
  sercltList : SimuList Serclt
  /-- The calls the read of a client has yet to make. -/
  calls : List SercltEv
  asked : Int → List Nat

def Hub.init : Hub := ⟨[], [], [], fun _ => []⟩

inductive HubEv where
  | accept (fd : Int) (dataBlob : Nat → UInt8)
  | disconnect (fd : Int)
  | recv (fd : Int) (chunk : List UInt8)
  | registerdevice (started : Bool)
  | transmitpacket (added : Bool)
  | devConnect (device : Nat)
  | devConnected (device : Nat)
  | devBroken (device : Nat)
  | devDisconnect (device : Nat)
  | devRead (device : Nat) (data : List UInt8) (added : Bool)

abbrev Hub.Connected (hub : Hub) (fd : Int) : Prop := (simuListGet hub.sercltList fd).isSome = true

/-- The device whose output gets what is sent to `devip` and `devport`. -/
def reachedDevice (devInfo : DevInfo) (devip : String) (devport : UInt16) : Option Nat :=
  if devport = 0 then none
  else (cmdagentFind devInfo devip devport).filter fun device =>
    (devInfo[device]?).any fun entry => devnetIsconnected entry.devNet

/-- Change a device that is `ok`. -/
def Hub.onDevice (hub : Hub) (device : Nat) (ok : DevnetInfo → Bool) (f : DevnetInfo → DevnetInfo) : Option Hub :=
  match hub.devInfo[device]? with
  | none => none
  | some entry =>
    if ok entry.devNet then some { hub with devInfo := modifyDevNet hub.devInfo device f } else none

/-- `none` where an event cannot happen. -/
def Hub.step (hub : Hub) : HubEv → Option Hub
  | .accept fd dataBlob =>
    -- The kernel gives no descriptor that is open.
    if hub.calls = [] ∧ ¬ hub.Connected fd then
      some { hub with
        sercltList := sernetAcceptcb hub.sercltList fd dataBlob
        asked := Function.update hub.asked fd [] }
    else none
  | .disconnect fd =>
    if hub.calls = [] then some { hub with sercltList := sernetEventcb hub.sercltList fd } else none
  | .recv fd chunk =>
    if hub.calls = [] then
      (sernetReadcb hub.sercltList fd chunk).map fun r => { hub with sercltList := r.1, calls := r.2 }
    else none
  | .registerdevice started =>
    match hub.calls with
    | .registerdevice devip devport :: calls =>
      some { hub with devInfo := (cmdagentRegisterDevice hub.devInfo devip devport started).2, calls := calls }
    | _ => none
  | .transmitpacket added =>
    match hub.calls with
    | .transmitpacket devip devport nsocket packet :: calls =>
      some { hub with
        devInfo := (cmdagentSendtoDevice hub.devInfo devip devport nsocket packet added).2
        calls := calls
        asked := match reachedDevice hub.devInfo devip devport with
          | none => hub.asked
          | some device =>
            if added then Function.update hub.asked nsocket (device :: hub.asked nsocket) else hub.asked }
    | _ => none
  | .devConnect device => hub.onDevice device (fun devnet => !devnet.bev) devnetConnect
  | .devConnected device => hub.onDevice device DevnetInfo.bev devnetConnected
  | .devBroken device => hub.onDevice device DevnetInfo.bev devnetBroken
  | .devDisconnect device => hub.onDevice device DevnetInfo.bev devnetDisconnect
  | .devRead device data added =>
    match hub.devInfo[device]? with
    | none => none
    | some entry =>
      if entry.devNet.bev ∧ data.length ≤ devnetRdbufferSize then
        let r := devnetReadcb entry.devNet data
        some { hub with
          devInfo := modifyDevNet hub.devInfo device fun _ => r.1
          sercltList := match r.2 with
            | none => hub.sercltList
            | some (serid, data) => (sernetWrite hub.sercltList serid data added).2 }
      else none

/-- What the devices do. -/
def HubEv.FromDevice : HubEv → Prop
  | .devConnect _ | .devConnected _ | .devBroken _ | .devDisconnect _ | .devRead .. => True
  | _ => False

/-- The device whose data a step reads. -/
def HubEv.source : HubEv → Option Nat
  | .devRead device .. => some device
  | _ => none

/-- What a step adds to the output of a client is read from a device that this
connection has had data forwarded to. -/
def Hub.Isolated (hub : Hub) (ev : HubEv) : Prop :=
  ∀ hub', hub.step ev = some hub' → ∀ fd data, data ≠ [] →
    outputOf hub'.sercltList fd = outputOf hub.sercltList fd ++ data →
      ∃ device, ev.source = some device ∧ device ∈ hub.asked fd

/-- The call adds a device. -/
def Registers (devInfo : DevInfo) (devip : String) (devport : UInt16) (started : Bool) : Prop :=
  devport ≠ 0 ∧ cmdagentFind devInfo devip devport = none ∧ devInfo.length < cmdagentMaxDevNum ∧ started = true

/-- No connection gets a descriptor that is in the `nserid` of a device, none has
descriptor 0 when a device is added, and `evbuffer_add` fails only for a client that has
had data forwarded to the device before. -/
def Hub.Alone (hub : Hub) : HubEv → Prop
  | .accept fd _ => ∀ entry ∈ hub.devInfo, entry.devNet.nserid ≠ fd
  | .registerdevice started =>
    match hub.calls with
    | .registerdevice devip devport :: _ => Registers hub.devInfo devip devport started → ¬ hub.Connected 0
    | _ => True
  | .transmitpacket added =>
    match hub.calls with
    | .transmitpacket devip devport nsocket _ :: _ =>
      added = false → ∀ device ∈ reachedDevice hub.devInfo devip devport, device ∈ hub.asked nsocket
    | _ => True
  | _ => True

/-! ## The devices' `nserid` -/

/-- The `nserid` of the devices. -/
def nserids (devInfo : DevInfo) : List Int := devInfo.map fun entry => entry.devNet.nserid

theorem nserids_modify (devInfo : DevInfo) (idx : Nat) {f : DevnetInfo → DevnetInfo}
    (hf : ∀ entry ∈ devInfo[idx]?, (f entry.devNet).nserid = entry.devNet.nserid) :
    nserids (modifyDevNet devInfo idx f) = nserids devInfo := by
  refine List.ext_getElem? fun device => ?_
  simp only [nserids, modifyDevNet, List.getElem?_map, List.getElem?_modify]
  cases hd : devInfo[device]? with
  | none => rfl
  | some entry =>
    by_cases he : idx = device
    · subst he
      simp [hf entry hd]
    · simp [he]

theorem nserids_register (devInfo : DevInfo) (devip : String) (devport : UInt16) (started : Bool) :
    ¬ Registers devInfo devip devport started ∧ (cmdagentRegisterDevice devInfo devip devport started).2 = devInfo ∨
      Registers devInfo devip devport started ∧
        nserids (cmdagentRegisterDevice devInfo devip devport started).2 = nserids devInfo ++ [0] := by
  unfold cmdagentRegisterDevice Registers
  split
  · exact .inl ⟨fun h => h.1 ‹_›, rfl⟩
  split
  · refine .inl ⟨fun h => ?_, rfl⟩
    rename_i hfound
    rw [h.2.1] at hfound
    cases hfound
  split
  · exact .inl ⟨fun h => absurd h.2.2.1 (Nat.not_lt.2 ‹_›), rfl⟩
  split
  · refine .inr ⟨⟨‹_›, Option.not_isSome_iff_eq_none.1 ‹_›, Nat.not_le.1 ‹_›, ‹_›⟩, ?_⟩
    rw [nserids, List.map_append]
    rfl
  · exact .inl ⟨fun h => absurd h.2.2.2 ‹_›, rfl⟩

theorem reached_entry {devInfo : DevInfo} {devip : String} {devport : UInt16} {device : Nat}
    (h : reachedDevice devInfo devip devport = some device) :
    devport ≠ 0 ∧ cmdagentFind devInfo devip devport = some device ∧
      ∃ entry, devInfo[device]? = some entry ∧ devnetIsconnected entry.devNet = true := by
  unfold reachedDevice at h
  split at h
  · cases h
  · obtain ⟨hfind, hany⟩ := Option.filter_eq_some_iff.1 h
    exact ⟨‹_›, hfind, (Option.any_eq_true _ _).1 hany⟩

/-- Data for a connected device leaves the client's descriptor there. -/
theorem nserids_sendto (devInfo : DevInfo) (devip : String) (devport : UInt16) (serid : Int) (data : List UInt8)
    (added : Bool) :
    nserids (cmdagentSendtoDevice devInfo devip devport serid data added).2 =
      match reachedDevice devInfo devip devport with
      | none => nserids devInfo
      | some device => (nserids devInfo).set device serid := by
  cases hr : reachedDevice devInfo devip devport with
  | some device =>
    obtain ⟨hport, hfind, entry, hentry, hconn⟩ := reached_entry hr
    unfold cmdagentSendtoDevice
    rw [if_neg hport, hfind]
    refine List.ext_getElem? fun d => ?_
    simp only [nserids, modifyDevNet, List.getElem?_map, List.getElem?_modify, List.getElem?_set, List.length_map]
    by_cases he : device = d
    · subst he
      obtain ⟨hlt, rfl⟩ := List.getElem?_eq_some_iff.1 hentry
      cases added <;> simp [hlt, devnetWrite, hconn]
    · simp [he]
  | none =>
    unfold cmdagentSendtoDevice
    split
    · rfl
    split
    · rfl
    · rename_i hport _ device hfind
      change nserids (modifyDevNet devInfo device fun devnet => (devnetWrite devnet serid data added).2) = _
      refine nserids_modify devInfo device fun entry hentry => ?_
      have hno : devnetIsconnected entry.devNet = false := by
        unfold reachedDevice at hr
        rw [if_neg hport, hfind, Option.filter_some] at hr
        split at hr
        · cases hr
        · rename_i hany
          rw [Option.mem_def.1 hentry] at hany
          simpa using hany
      simp [devnetWrite, hno]

/-! ## The clients -/

/-- What `sernet_write` changes in the outputs. -/
theorem outputOf_write (sercltList : SimuList Serclt) (serid : Int) (data : List UInt8) (added : Bool) (c : Int) :
    outputOf (sernetWrite sercltList serid data added).2 c = outputOf sercltList c ++
      if serid = c ∧ (simuListGet sercltList serid).isSome = true ∧ added = true then data else [] := by
  unfold sernetWrite
  cases hget : simuListGet sercltList serid with
  | none => simp
  | some node =>
    dsimp only
    rw [outputOf_put hget]
    by_cases hc : serid = c
    · subst hc
      cases added <;> simp [sercltWritedata, outputOf, hget]
    · simp [hc]

theorem get_write (sercltList : SimuList Serclt) (serid : Int) (data : List UInt8) (added : Bool) (c : Int) :
    (simuListGet (sernetWrite sercltList serid data added).2 c).map (fun node => node.pData.info) =
      (simuListGet sercltList c).map fun node => node.pData.info := by
  unfold sernetWrite
  cases hget : simuListGet sercltList serid with
  | none => rfl
  | some node =>
    dsimp only
    rw [simuListGet_put]
    by_cases hc : serid = c
    · subst hc
      cases added <;> simp [sercltWritedata, hget]
    · rw [if_neg hc]

theorem keyed_write {sercltList : SimuList Serclt} (h : sercltList.Keyed) (serid : Int) (data : List UInt8)
    (added : Bool) : (sernetWrite sercltList serid data added).2.Keyed := by
  unfold sernetWrite
  cases simuListGet sercltList serid with
  | none => exact h
  | some node => exact keyed_put h _ _

theorem get_eventcb {sercltList : SimuList Serclt} (h : sercltList.Keyed) (fd c : Int) :
    simuListGet (sernetEventcb sercltList fd) c = if fd = c then none else simuListGet sercltList c := by
  unfold sernetEventcb
  cases hget : simuListGet sercltList fd with
  | some node => exact simuListGet_del h fd c
  | none =>
    by_cases hc : fd = c
    · rw [if_pos hc, ← hc]
      exact hget
    · rw [if_neg hc]

theorem keyed_eventcb {sercltList : SimuList Serclt} (h : sercltList.Keyed) (fd : Int) :
    (sernetEventcb sercltList fd).Keyed := by
  unfold sernetEventcb
  cases simuListGet sercltList fd with
  | none => exact h
  | some node => exact keyed_del h fd

/-! ## What every step keeps -/

structure Hub.Inv (hub : Hub) : Prop where
  keyed : hub.sercltList.Keyed
  sockets : ∀ c node, simuListGet hub.sercltList c = some node → node.pData.info.nsocket = c
  callers : ∀ devip devport nsocket packet, .transmitpacket devip devport nsocket packet ∈ hub.calls →
    hub.Connected nsocket
  asked : ∀ fd, ∀ device ∈ hub.asked fd, device < hub.devInfo.length

theorem Hub.init_inv : Hub.init.Inv where
  keyed := List.Pairwise.nil
  sockets := by simp [Hub.init, simuListGet]
  callers := by simp [Hub.init]
  asked := by simp [Hub.init]

/-- A connection whose descriptor is in the `nserid` of a device has had data forwarded
to the device. -/
def Hub.Sealed (hub : Hub) : Prop :=
  ∀ (device : Nat) serid, (nserids hub.devInfo)[device]? = some serid → hub.Connected serid → device ∈ hub.asked serid

namespace Hub.Inv
variable {hub hub' : Hub}

theorem accept (h : hub.Inv) {fd : Int} (hfd : ¬ hub.Connected fd) (dataBlob : Nat → UInt8) :
    ({ hub with
      sercltList := sernetAcceptcb hub.sercltList fd dataBlob
      asked := Function.update hub.asked fd [] } : Hub).Inv := by
  refine ⟨keyed_add h.keyed _ _, fun _ _ hn => nsocket_accept h.sockets fd dataBlob hn, ?_, ?_⟩
  · intro devip devport nsocket packet hmem
    exact isSome_add (h.callers _ _ _ _ hmem) _ _
  · intro c device hmem
    by_cases hc : c = fd
    · subst hc
      simp at hmem
    · exact h.asked c device (by simpa [Function.update_of_ne hc] using hmem)

theorem disconnect (h : hub.Inv) (hcalls : hub.calls = []) (fd : Int) :
    ({ hub with sercltList := sernetEventcb hub.sercltList fd } : Hub).Inv := by
  refine ⟨keyed_eventcb h.keyed fd, ?_, by simp [hcalls], h.asked⟩
  intro c node hn
  rw [get_eventcb h.keyed] at hn
  split at hn
  · cases hn
  · exact h.sockets c node hn

/-- The client of `fd` is read. -/
theorem recv (h : hub.Inv) {fd : Int} {chunk : List UInt8} {r : SimuList Serclt × List SercltEv}
    (hr : sernetReadcb hub.sercltList fd chunk = some r) : ({ hub with sercltList := r.1, calls := r.2 } : Hub).Inv := by
  unfold sernetReadcb at hr
  cases hget : simuListGet hub.sercltList fd with
  | none =>
    rw [hget] at hr
    cases hr
    exact { h with callers := by simp }
  | some node =>
    rw [hget] at hr
    obtain ⟨info, hinfo, rfl⟩ := Option.map_eq_some_iff.1 hr
    have hsock := (recvdata_calls hinfo).socket
    refine ⟨keyed_put h.keyed _ _, fun _ _ hn => nsocket_put h.sockets hget hsock hn, ?_, h.asked⟩
    intro devip devport nsocket packet hmem
    exact callers_recvdata h.sockets hget hinfo _ hmem

/-- The calls and the devices change, but no device goes away. -/
theorem devices (h : hub.Inv) {devInfo : DevInfo} {calls : List SercltEv} {asked : Int → List Nat}
    (hcalls : calls ⊆ hub.calls) (hlen : hub.devInfo.length ≤ devInfo.length)
    (hasked : ∀ fd, ∀ device ∈ asked fd, device ∈ hub.asked fd ∨ device < devInfo.length) :
    ({ hub with devInfo := devInfo, calls := calls, asked := asked } : Hub).Inv := by
  refine ⟨h.keyed, h.sockets, fun _ _ _ _ hmem => h.callers _ _ _ _ (hcalls hmem), ?_⟩
  intro fd device hmem
  rcases hasked fd device hmem with hold | hnew
  · exact Nat.lt_of_lt_of_le (h.asked fd device hold) hlen
  · exact hnew

/-- Data is added to the output of a client. -/
theorem write (h : hub.Inv) (serid : Int) (data : List UInt8) (added : Bool) :
    ({ hub with sercltList := (sernetWrite hub.sercltList serid data added).2 } : Hub).Inv := by
  refine ⟨keyed_write h.keyed _ _ _, ?_, ?_, h.asked⟩
  · intro c node hn
    have hinfo := get_write hub.sercltList serid data added c
    rw [hn] at hinfo
    obtain ⟨old, hold, he⟩ := Option.map_eq_some_iff.1 hinfo.symm
    have hsocket := h.sockets c old hold
    rw [he] at hsocket
    exact hsocket
  · intro devip devport nsocket packet hmem
    have hinfo := congrArg Option.isSome (get_write hub.sercltList serid data added nsocket)
    rw [Option.isSome_map, Option.isSome_map] at hinfo
    exact hinfo.trans (h.callers _ _ _ _ hmem)

end Hub.Inv

theorem length_nserids (devInfo : DevInfo) : (nserids devInfo).length = devInfo.length := List.length_map _

/-- What a step does to the devices' `nserid`, the clients and `asked`. -/
inductive Hub.Does (hub : Hub) : HubEv → Hub → Prop
  | accept {fd : Int} {dataBlob : Nat → UInt8} : hub.calls = [] → ¬ hub.Connected fd →
      hub.Does (.accept fd dataBlob) { hub with
        sercltList := sernetAcceptcb hub.sercltList fd dataBlob
        asked := Function.update hub.asked fd [] }
  | disconnect {fd : Int} : hub.calls = [] →
      hub.Does (.disconnect fd) { hub with sercltList := sernetEventcb hub.sercltList fd }
  | recv {fd : Int} {chunk : List UInt8} {r : SimuList Serclt × List SercltEv} :
      sernetReadcb hub.sercltList fd chunk = some r →
      hub.Does (.recv fd chunk) { hub with sercltList := r.1, calls := r.2 }
  | registerdevice {devip : String} {devport : UInt16} {calls : List SercltEv} {started : Bool} :
      hub.calls = .registerdevice devip devport :: calls →
      hub.Does (.registerdevice started)
        { hub with devInfo := (cmdagentRegisterDevice hub.devInfo devip devport started).2, calls := calls }
  | transmitpacket {devip : String} {devport : UInt16} {nsocket : Int} {packet : List UInt8} {calls : List SercltEv}
      {added : Bool} : hub.calls = .transmitpacket devip devport nsocket packet :: calls →
      hub.Does (.transmitpacket added) { hub with
        devInfo := (cmdagentSendtoDevice hub.devInfo devip devport nsocket packet added).2
        calls := calls
        asked := match reachedDevice hub.devInfo devip devport with
          | none => hub.asked
          | some device =>
            if added then Function.update hub.asked nsocket (device :: hub.asked nsocket) else hub.asked }
  /-- A device changes, but for its `nserid`. -/
  | dev {ev : HubEv} {devInfo : DevInfo} : ev.FromDevice → nserids devInfo = nserids hub.devInfo →
      hub.Does ev { hub with devInfo := devInfo }
  /-- Data of a device goes to the client of its `nserid`. -/
  | devRead {device : Nat} {data : List UInt8} {added : Bool} {serid : Int} {devInfo : DevInfo} : data ≠ [] →
      (nserids hub.devInfo)[device]? = some serid → nserids devInfo = nserids hub.devInfo →
      hub.Does (.devRead device data added)
        { hub with devInfo := devInfo, sercltList := (sernetWrite hub.sercltList serid data added).2 }

theorem does_onDevice {hub hub' : Hub} {ev : HubEv} (hev : ev.FromDevice) {device : Nat} {ok : DevnetInfo → Bool}
    {f : DevnetInfo → DevnetInfo} (hf : ∀ devnet, (f devnet).nserid = devnet.nserid)
    (h : hub.onDevice device ok f = some hub') : hub.Does ev hub' := by
  unfold Hub.onDevice at h
  split at h
  · cases h
  · split at h <;> cases h
    exact .dev hev (nserids_modify _ _ fun entry _ => hf entry.devNet)

theorem hubDoes_of {hub hub' : Hub} {ev : HubEv} (h : hub.step ev = some hub') : hub.Does ev hub' := by
  unfold Hub.step at h
  cases ev with
  | accept fd dataBlob =>
    dsimp only at h
    split at h <;> cases h
    rename_i hok
    exact .accept hok.1 hok.2
  | disconnect fd =>
    dsimp only at h
    split at h <;> cases h
    exact .disconnect ‹_›
  | recv fd chunk =>
    dsimp only at h
    split at h
    · obtain ⟨r, hr, rfl⟩ := Option.map_eq_some_iff.1 h
      exact .recv hr
    · cases h
  | registerdevice started =>
    dsimp only at h
    split at h <;> cases h
    exact .registerdevice ‹_›
  | transmitpacket added =>
    dsimp only at h
    split at h <;> cases h
    exact .transmitpacket ‹_›
  | devConnect device => exact does_onDevice (f := devnetConnect) trivial (fun _ => rfl) h
  | devConnected device => exact does_onDevice (f := devnetConnected) trivial (fun _ => rfl) h
  | devBroken device => exact does_onDevice (f := devnetBroken) trivial (fun _ => rfl) h
  | devDisconnect device => exact does_onDevice (f := devnetDisconnect) trivial (fun _ => rfl) h
  | devRead device data added =>
    dsimp only at h
    split at h
    · cases h
    · rename_i entry hentry
      split at h <;> cases h
      have hsame : nserids (modifyDevNet hub.devInfo device fun _ => (devnetReadcb entry.devNet data).1) =
          nserids hub.devInfo := by
        refine nserids_modify _ _ fun e he => ?_
        cases hentry.symm.trans he
        exact (World.Inv.devnetReadcb_same entry.devNet data).1
      by_cases hdata : data = []
      · subst hdata
        exact .dev trivial hsame
      · have hpos : data.length > 0 := List.length_pos_of_ne_nil hdata
        have hread : (devnetReadcb entry.devNet data).2 = some (entry.devNet.nserid, data) := by
          rw [devnetReadcb, if_pos hpos]
        rw [hread]
        exact .devRead hdata (by rw [nserids, List.getElem?_map, hentry]; rfl) hsame

theorem Hub.Inv.step {hub hub' : Hub} {ev : HubEv} (h : hub.Inv) (hstep : hub.step ev = some hub') : hub'.Inv := by
  have hlen : ∀ {devInfo : DevInfo}, nserids devInfo = nserids hub.devInfo → hub.devInfo.length ≤ devInfo.length := by
    intro devInfo he
    rw [← length_nserids, ← length_nserids, he]
  cases hubDoes_of hstep with
  | accept _ hfd => exact h.accept hfd _
  | disconnect hcalls => exact h.disconnect hcalls _
  | recv hr => exact h.recv hr
  | @registerdevice devip devport calls started hcalls =>
    refine h.devices (by rw [hcalls]; exact List.subset_cons_self _ _) ?_ fun fd device hmem => .inl hmem
    rcases nserids_register hub.devInfo devip devport started with ⟨-, hsame⟩ | ⟨-, hnew⟩
    · rw [hsame]
    · rw [← length_nserids, ← length_nserids, hnew, List.length_append]
      exact Nat.le_add_right _ _
  | @transmitpacket devip devport nsocket packet calls added hcalls =>
    have hsend := congrArg List.length (nserids_sendto hub.devInfo devip devport nsocket packet added)
    rw [length_nserids] at hsend
    cases hr : reachedDevice hub.devInfo devip devport with
    | none =>
      rw [hr, length_nserids] at hsend
      exact h.devices (by rw [hcalls]; exact List.subset_cons_self _ _) (Nat.le_of_eq hsend.symm)
        fun fd device hmem => .inl hmem
    | some device =>
      rw [hr, List.length_set, length_nserids] at hsend
      refine h.devices (by rw [hcalls]; exact List.subset_cons_self _ _) (Nat.le_of_eq hsend.symm) fun fd d hmem => ?_
      dsimp only at hmem
      split at hmem
      · by_cases hc : fd = nsocket
        · subst hc
          rw [Function.update_self] at hmem
          rcases List.mem_cons.1 hmem with rfl | hold
          · obtain ⟨-, -, entry, hentry, -⟩ := reached_entry hr
            exact .inr (hsend.symm ▸ (List.getElem?_eq_some_iff.1 hentry).1)
          · exact .inl hold
        · rw [Function.update_of_ne hc] at hmem
          exact .inl hmem
      · exact .inl hmem
  | dev _ hsame => exact h.devices (List.Subset.refl _) (hlen hsame) fun fd device hmem => .inl hmem
  | devRead _ _ hsame =>
    exact (h.write _ _ _).devices (List.Subset.refl _) (hlen hsame) fun fd device hmem => .inl hmem

/-! ## Which steps keep the devices' answers apart -/

section
variable {hub hub' : Hub}

theorem isSome_readcb {sercltList : SimuList Serclt} {fd : Int} {chunk : List UInt8}
    {r : SimuList Serclt × List SercltEv} (h : sernetReadcb sercltList fd chunk = some r) (c : Int) :
    (simuListGet r.1 c).isSome = (simuListGet sercltList c).isSome := by
  unfold sernetReadcb at h
  cases hget : simuListGet sercltList fd with
  | none =>
    rw [hget] at h
    cases h
    rfl
  | some node =>
    rw [hget] at h
    obtain ⟨info, -, rfl⟩ := Option.map_eq_some_iff.1 h
    rw [simuListGet_put]
    split
    · rw [Option.isSome_map]
    · rfl

theorem isSome_accept (sercltList : SimuList Serclt) (fd : Int) (dataBlob : Nat → UInt8) (c : Int) :
    (simuListGet (sernetAcceptcb sercltList fd dataBlob) c).isSome = true ↔
      (simuListGet sercltList c).isSome = true ∨ fd = c := by
  rw [sernetAcceptcb, simuListGet_add, Option.isSome_or, Bool.or_eq_true]
  refine or_congr_right ?_
  by_cases hc : fd = c <;> simp [hc]

theorem accept_sealed_iff (hs : hub.Sealed) {fd : Int} {dataBlob : Nat → UInt8} :
    ({ hub with
      sercltList := sernetAcceptcb hub.sercltList fd dataBlob
      asked := Function.update hub.asked fd [] } : Hub).Sealed ↔ hub.Alone (.accept fd dataBlob) := by
  constructor
  · intro hsealed entry hentry he
    obtain ⟨device, hdevice⟩ := List.mem_iff_getElem?.1 hentry
    -- The new connection has asked for nothing.
    have hmem := hsealed device fd (by rw [nserids, List.getElem?_map, hdevice, ← he]; rfl)
      ((isSome_accept _ _ _ _).2 (.inr rfl))
    dsimp only at hmem
    rw [Function.update_self] at hmem
    cases hmem
  · intro halone device serid hdevice hconn
    obtain ⟨entry, hentry, rfl⟩ := List.mem_map.1 (List.mem_of_getElem? hdevice)
    have hne := halone entry hentry
    dsimp only
    rw [Function.update_of_ne hne]
    exact hs device _ hdevice (((isSome_accept _ _ _ _).1 hconn).resolve_right (Ne.symm hne))

theorem registerdevice_sealed_iff (h : hub.Inv) (hs : hub.Sealed) {devip : String} {devport : UInt16}
    {calls : List SercltEv} {started : Bool} (hcalls : hub.calls = .registerdevice devip devport :: calls) :
    ({ hub with devInfo := (cmdagentRegisterDevice hub.devInfo devip devport started).2, calls := calls } : Hub).Sealed ↔
      hub.Alone (.registerdevice started) := by
  simp only [Hub.Alone, hcalls]
  rcases nserids_register hub.devInfo devip devport started with ⟨hno, hsame⟩ | ⟨hyes, hnew⟩
  · refine iff_of_true ?_ fun hreg => absurd hreg hno
    simp only [hsame]
    exact hs
  · have hold : ∀ {device : Nat} {serid : Int}, (nserids hub.devInfo ++ [0])[device]? = some serid →
        (nserids hub.devInfo)[device]? = some serid ∨ device = hub.devInfo.length ∧ serid = 0 := by
      intro device serid hd
      rw [List.getElem?_append] at hd
      split at hd
      · exact .inl hd
      · rename_i hge
        rw [List.getElem?_singleton] at hd
        obtain ⟨hzero, hser⟩ := Option.ite_none_right_eq_some.1 hd
        rw [length_nserids] at hge hzero
        exact .inr ⟨by omega, (Option.some.inj hser).symm⟩
    constructor
    · intro hsealed _ hconn
      have hlast : (nserids hub.devInfo ++ [0])[hub.devInfo.length]? = some 0 := by
        rw [← length_nserids, List.getElem?_concat_length]
      exact absurd (h.asked _ _ (hsealed _ 0 (hnew ▸ hlast) hconn)) (Nat.lt_irrefl _)
    · intro halone device serid hdevice hconn
      dsimp only at hdevice
      rw [hnew] at hdevice
      rcases hold hdevice with hprev | ⟨-, rfl⟩
      · exact hs device serid hprev hconn
      · exact absurd hconn (halone hyes)

theorem transmitpacket_sealed_iff (h : hub.Inv) (hs : hub.Sealed) {devip : String} {devport : UInt16} {nsocket : Int}
    {packet : List UInt8} {calls : List SercltEv} {added : Bool}
    (hcalls : hub.calls = .transmitpacket devip devport nsocket packet :: calls) :
    ({ hub with
      devInfo := (cmdagentSendtoDevice hub.devInfo devip devport nsocket packet added).2
      calls := calls
      asked := match reachedDevice hub.devInfo devip devport with
        | none => hub.asked
        | some device =>
          if added then Function.update hub.asked nsocket (device :: hub.asked nsocket) else hub.asked } : Hub).Sealed ↔
      hub.Alone (.transmitpacket added) := by
  simp only [Hub.Alone, hcalls, Hub.Sealed, nserids_sendto]
  have hconn : hub.Connected nsocket := h.callers _ _ _ _ (by rw [hcalls]; exact List.mem_cons_self)
  cases hr : reachedDevice hub.devInfo devip devport with
  | none => exact iff_of_true hs (by simp)
  | some device =>
    obtain ⟨-, -, entry, hentry, -⟩ := reached_entry hr
    have hlt : device < (nserids hub.devInfo).length := by
      rw [length_nserids]
      exact (List.getElem?_eq_some_iff.1 hentry).1
    constructor
    · intro hsealed hadded d hd
      cases Option.mem_some_iff.1 hd
      have hmem := hsealed device nsocket (List.getElem?_set_self hlt) hconn
      rw [hadded] at hmem
      exact hmem
    · intro halone d serid hd hc
      have hgrows : d ∈ hub.asked serid → d ∈ (if added = true then
          Function.update hub.asked nsocket (device :: hub.asked nsocket) else hub.asked) serid := by
        intro hmem
        split
        · by_cases he : serid = nsocket
          · subst he
            rw [Function.update_self]
            exact List.mem_cons_of_mem _ hmem
          · rwa [Function.update_of_ne he]
        · exact hmem
      by_cases he : device = d
      · subst he
        rw [List.getElem?_set_self hlt] at hd
        cases hd
        cases added with
        | true => simp
        | false => exact halone rfl device rfl
      · rw [List.getElem?_set_ne he] at hd
        exact hgrows (hs d serid hd hc)

theorem sealed_iff {ev : HubEv} (h : hub.Inv) (hs : hub.Sealed) (hstep : hub.step ev = some hub') :
    hub'.Sealed ↔ hub.Alone ev := by
  cases hubDoes_of hstep with
  | accept => exact accept_sealed_iff hs
  | disconnect =>
    refine iff_of_true ?_ trivial
    intro device serid hdevice hconn
    dsimp only [Hub.Connected] at hconn
    rw [get_eventcb h.keyed] at hconn
    split at hconn
    · cases hconn
    · exact hs device serid hdevice hconn
  | recv hr =>
    refine iff_of_true ?_ trivial
    intro device serid hdevice hconn
    exact hs device serid hdevice ((isSome_readcb hr serid).symm.trans hconn)
  | registerdevice hcalls => exact registerdevice_sealed_iff h hs hcalls
  | transmitpacket hcalls => exact transmitpacket_sealed_iff h hs hcalls
  | dev hev hsame =>
    refine iff_of_true ?_ ?_
    · intro device serid hdevice hconn
      exact hs device serid (hsame ▸ hdevice) hconn
    · cases ev <;> first | exact hev.elim | trivial
  | @devRead _ data added c devInfo _ _ hsame =>
    refine iff_of_true ?_ trivial
    intro device serid hdevice hconn
    have hsome := congrArg Option.isSome (get_write hub.sercltList c data added serid)
    rw [Option.isSome_map, Option.isSome_map] at hsome
    exact hs device serid (hsame ▸ hdevice) (hsome.symm.trans hconn)

/-- What a device sends is for the client of its `nserid`. -/
theorem isolated_of_sealed (h : hub.Inv) (hs : hub.Sealed) (ev : HubEv) : hub.Isolated ev := by
  intro hub' hstep fd data hdata hout
  have hno : outputOf hub.sercltList fd = outputOf hub.sercltList fd ++ data → False := by
    intro he
    exact hdata (List.self_eq_append_right.1 he)
  cases hubDoes_of hstep with
  | accept => exact (hno ((outputOf_accept _ _ _ _).symm.trans hout)).elim
  | @disconnect c _ =>
    refine (hno ?_).elim
    simp only [outputOf, get_eventcb h.keyed] at hout ⊢
    by_cases hc : c = fd
    · rw [if_pos hc] at hout
      exact absurd (List.append_eq_nil_iff.1 hout.symm).2 hdata
    · rwa [if_neg hc] at hout
  | recv hr => exact (hno ((outputOf_readcb hr fd).symm.trans hout)).elim
  | registerdevice | transmitpacket | dev => exact (hno hout).elim
  | @devRead device read added serid devInfo _ hdevice _ =>
    refine ⟨device, rfl, ?_⟩
    dsimp only at hout
    rw [outputOf_write] at hout
    split at hout
    · rename_i hto
      obtain ⟨rfl, hconn, -⟩ := hto
      exact hs device serid hdevice hconn
    · rw [List.append_nil] at hout
      exact (hno hout).elim

/-- Data of a device goes to a client that has not asked. -/
theorem not_isolated_read {device : Nat} {entry : DeventityInfo} (hentry : hub.devInfo[device]? = some entry)
    (hbev : entry.devNet.bev = true) (hconn : hub.Connected entry.devNet.nserid)
    (hasked : device ∉ hub.asked entry.devNet.nserid) : ¬ hub.Isolated (.devRead device [0] true) := by
  intro hiso
  have hstep : hub.step (.devRead device [0] true) = some { hub with
      devInfo := modifyDevNet hub.devInfo device fun _ => (devnetReadcb entry.devNet [0]).1
      sercltList := (sernetWrite hub.sercltList entry.devNet.nserid [0] true).2 } := by
    simp [Hub.step, hentry, hbev, devnetReadcb]
  have hout : outputOf (sernetWrite hub.sercltList entry.devNet.nserid [0] true).2 entry.devNet.nserid =
      outputOf hub.sercltList entry.devNet.nserid ++ [0] := by
    rw [outputOf_write, if_pos ⟨rfl, hconn, rfl⟩]
  obtain ⟨d, hd, hmem⟩ := hiso _ hstep entry.devNet.nserid [0] (List.cons_ne_nil _ _) hout
  cases hd
  exact hasked hmem

/-- A client that has not asked can be sent data by its device at any time. -/
theorem leaks_of_not_sealed (h : ¬ hub.Sealed) :
    ∃ more, (∀ ev ∈ more, HubEv.FromDevice ev) ∧ ¬ Along Hub.step Hub.Isolated hub more := by
  unfold Hub.Sealed at h
  push Not at h
  obtain ⟨device, serid, hdevice, hconn, hasked⟩ := h
  rw [nserids, List.getElem?_map] at hdevice
  obtain ⟨entry, hentry, rfl⟩ := Option.map_eq_some_iff.1 hdevice
  cases hbev : entry.devNet.bev with
  | true =>
    refine ⟨[.devRead device [0] true], by simp [HubEv.FromDevice], ?_⟩
    rw [along_singleton]
    exact not_isolated_read hentry hbev hconn hasked
  | false =>
    refine ⟨[.devConnect device, .devRead device [0] true], by simp [HubEv.FromDevice], ?_⟩
    have hstep : hub.step (.devConnect device) =
        some { hub with devInfo := modifyDevNet hub.devInfo device devnetConnect } := by
      simp [Hub.step, Hub.onDevice, hentry, hbev]
    have hentry' : (modifyDevNet hub.devInfo device devnetConnect)[device]? =
        some { entry with devNet := devnetConnect entry.devNet } := by
      simp [modifyDevNet, hentry]
    rw [along_cons _ hstep, along_singleton]
    exact fun hall => absurd hall.2 (not_isolated_read hentry' rfl hconn hasked)

end

/-! ## Runs -/

theorem Hub.init_sealed : Hub.init.Sealed := by
  intro device serid hdevice
  cases hdevice

theorem alone_of_fromDevice {hub : Hub} {ev : HubEv} (h : ev.FromDevice) : hub.Alone ev := by
  cases ev <;> first | exact h.elim | trivial

/-- In a run, and whatever the devices do at any of its points, no connection is sent
data of a device it has not had data forwarded to, if and only if no connection gets a
descriptor that is in the `nserid` of a device, none has descriptor 0 when a device is
added, and `evbuffer_add` fails only for clients whose data the device had before. -/
theorem isolated_iff (evs : List HubEv) (hub : Hub) (hrun : exec Hub.step Hub.init evs = some hub) :
    (∀ pre more, pre <+: evs → (∀ ev ∈ more, HubEv.FromDevice ev) →
        Along Hub.step Hub.Isolated Hub.init (pre ++ more)) ↔ Along Hub.step Hub.Alone Hub.init evs := by
  constructor
  · intro hall
    refine (throughout_iff_along (I := Hub.Sealed) (J := Hub.Inv) (fun _ _ _ h hst => h.step hst)
      (fun _ _ _ h hs hst => sealed_iff h hs hst) Hub.init_inv Hub.init_sealed hrun).1 ((throughout_iff _ _).2 ?_)
    intro pre hpre t ht
    by_contra hopen
    obtain ⟨more, hmore, hleak⟩ := leaks_of_not_sealed hopen
    exact hleak (((along_append _ _ _).1 (hall pre more hpre hmore)).2 t ht)
  · intro halone pre more hpre hmore
    obtain ⟨post, rfl⟩ := hpre
    have hpre := ((along_append _ _ _).1 halone).1
    have hdev : ∀ hub, Along Hub.step Hub.Alone hub more := by
      clear hrun
      induction more with
      | nil => exact fun _ => trivial
      | cons ev more ih =>
        refine fun hub => ⟨alone_of_fromDevice (hmore ev List.mem_cons_self), fun t _ => ?_⟩
        exact ih (fun e he => hmore e (List.mem_cons_of_mem _ he)) t
    refine along_inv (I := fun hub => hub.Inv ∧ hub.Sealed) ?_ ?_ ⟨Hub.init_inv, Hub.init_sealed⟩
      ((along_append _ _ _).2 ⟨hpre, fun t _ => hdev t⟩)
    · rintro s ev t ⟨h, hs⟩ hok hst
      exact ⟨h.step hst, (sealed_iff h hs hst).2 hok⟩
    · rintro s ev ⟨h, hs⟩ _
      exact isolated_of_sealed h hs ev

instance (hub : Hub) (ev : HubEv) : Decidable (hub.Alone ev) := by
  unfold Hub.Alone Registers
  split
  · infer_instance
  · split <;> infer_instance
  · split <;> infer_instance
  · infer_instance

/-- Client 5 asks a device and goes. -/
def askedAndGone : List HubEv :=
  [.accept 5 (fun _ => 0), .recv 5 initPacket, .registerdevice true, .devConnect 0, .devConnected 0,
    .recv 5 buzzackBytes, .transmitpacket true, .disconnect 5]

/-- The next connection is client 6. -/
theorem isolated_other : ∃ hub, exec Hub.step Hub.init (askedAndGone ++ [.accept 6 fun _ => 0, .devRead 0 [1] true]) =
    some hub ∧ ∀ pre more, pre <+: askedAndGone ++ [.accept 6 fun _ => 0, .devRead 0 [1] true] →
      (∀ ev ∈ more, HubEv.FromDevice ev) → Along Hub.step Hub.Isolated Hub.init (pre ++ more) := by
  obtain ⟨hub, hrun⟩ := Option.isSome_iff_exists.1 (by decide +kernel :
    (exec Hub.step Hub.init (askedAndGone ++ [.accept 6 fun _ => 0, .devRead 0 [1] true])).isSome)
  exact ⟨hub, hrun, (isolated_iff _ hub hrun).2 (by decide +kernel)⟩

/-- The next connection is client 5 again, and gets what the device sends. -/
theorem not_isolated_reused : ¬ ∀ evs, Along Hub.step Hub.Isolated Hub.init evs := by
  intro hall
  obtain ⟨hub, hrun, hdone⟩ := (Option.any_eq_true _ _).1 (by decide +kernel :
    ((exec Hub.step Hub.init (askedAndGone ++ [.accept 5 fun _ => 0])).any fun hub =>
      (hub.devInfo[0]?).any fun entry =>
        entry.devNet.bev = true ∧ hub.Connected entry.devNet.nserid ∧ 0 ∉ hub.asked entry.devNet.nserid) = true)
  obtain ⟨entry, hentry, hopen⟩ := (Option.any_eq_true _ _).1 hdone
  obtain ⟨hbev, hconn, hasked⟩ := of_decide_eq_true hopen
  have hread := ((along_append _ _ _).1 (hall ((askedAndGone ++ [.accept 5 fun _ => 0]) ++ [.devRead 0 [0] true]))).2
    hub hrun
  exact not_isolated_read hentry hbev hconn hasked (along_singleton.1 hread)

end CmdAgent
