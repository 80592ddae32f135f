import CmdAgent.DeviceLink
import CmdAgent.Isolation
/-!
# The agent as a relay

What the agent is for: a client names a device by its address and sends it data, and the
device's answers go to the client that was let to it last. `Relay` says this in its own
terms, and the agent, with its lists and flags, does just what the relay does.
-/
open StreamLib.Runs

namespace CmdAgent

/-! ## The relay -/

/-- A device as its clients see it. -/
structure RelayDevice where
  address : String × UInt16
  /-- There is a connection, and it has come up. -/
  link : Bool
  established : Bool
  /-- The client that sent last. -/
  last : Int
  /-- What was sent to the device, with the sender. -/
  input : List (Int × List UInt8)

/-- The devices, in the order they were registered, and the clients. -/
structure Relay where
  devices : List RelayDevice
  /-- What the client with this descriptor has been sent, if there is one. -/
  client : Int → Option (List UInt8)

/-- What comes to the relay from the clients and the devices. -/
inductive RelayEv where
  | opened (fd : Int)
  | closed (fd : Int)
  | registered (address : String × UInt16) (started : Bool)
  | sent (fd : Int) (address : String × UInt16) (data : List UInt8) (added : Bool)
  | linked (device : Nat) (link : Bool)
  | established (device : Nat) (established : Bool)
  | answered (device : Nat) (data : List UInt8) (added : Bool)

def Relay.init : Relay := ⟨[], fun _ => none⟩

/-- Data of the client `fd` for a device. Without memory it is lost, but the client has
been let to the device. -/
def RelayDevice.take (dev : RelayDevice) (fd : Int) (data : List UInt8) (added : Bool) : RelayDevice :=
  if dev.link && dev.established then
    { dev with last := fd, input := if added then dev.input ++ [(fd, data)] else dev.input }
  else dev

/-- The device at the address. -/
def Relay.find (relay : Relay) (address : String × UInt16) : Option Nat :=
  relay.devices.findIdx? fun dev => dev.address = address

def Relay.modify (relay : Relay) (device : Nat) (f : RelayDevice → RelayDevice) : Relay :=
  { relay with devices := relay.devices.modify device f }

/-- What the relay makes of it. -/
def Relay.step (relay : Relay) : RelayEv → Relay
  | .opened fd => { relay with client := Function.update relay.client fd (some []) }
  | .closed fd => { relay with client := Function.update relay.client fd none }
  | .registered address started =>
    if address.2 ≠ 0 ∧ relay.find address = none ∧ relay.devices.length < cmdagentMaxDevNum ∧ started then
      { relay with devices := relay.devices ++ [⟨address, false, false, 0, []⟩] }
    else relay
  | .sent fd address data added =>
    if address.2 = 0 then relay
    else match relay.find address with
      | none => relay
      | some device => relay.modify device fun dev => dev.take fd data added
  | .linked device link => relay.modify device fun dev => { dev with link := link }
  | .established device established => relay.modify device fun dev => { dev with established := established }
  | .answered device data added =>
    match relay.devices[device]? with
    | none => relay
    | some dev =>
      if data ≠ [] ∧ added then
        { relay with client := Function.update relay.client dev.last ((relay.client dev.last).map (· ++ data)) }
      else relay

/-! ## What the agent shows -/

/-- What a table entry shows of its device. -/
def DeventityInfo.relayed (entry : DeventityInfo) : RelayDevice where
  address := (entry.ipaddr, entry.usport)
  link := entry.devNet.bev
  established := entry.devNet.flags &&& devnetFlagsConnected != 0
  last := entry.devNet.nserid
  input := entry.devNet.output

/-- What the agent shows. -/
def Hub.relay (hub : Hub) : Relay where
  devices := hub.devInfo.map DeventityInfo.relayed
  client fd := (simuListGet hub.sercltList fd).map fun node => node.pData.output

/-- What a step of the agent is for the relay. -/
def Hub.shows (hub : Hub) : HubEv → Option RelayEv
  | .accept fd _ => some (.opened fd)
  | .disconnect fd => some (.closed fd)
  | .recv .. => none
  | .registerdevice started =>
    match hub.calls with
    | .registerdevice devip devport :: _ => some (.registered (devip, devport) started)
    | _ => none
  | .transmitpacket added =>
    match hub.calls with
    | .transmitpacket devip devport nsocket packet :: _ => some (.sent nsocket (devip, devport) packet added)
    | _ => none
  | .devConnect device => some (.linked device true)
  | .devConnected device => some (.established device true)
  | .devBroken device => some (.established device false)
  | .devDisconnect device => some (.linked device false)
  | .devRead device data added => some (.answered device data added)

/-- What a run shows. -/
def Hub.showsAll (hub : Hub) : List HubEv → List RelayEv
  | [] => []
  | ev :: evs => (hub.shows ev).toList ++ match hub.step ev with
    | none => []
    | some hub' => hub'.showsAll evs

/-! ## The devices -/

theorem find_relayed (devInfo : DevInfo) (devip : String) (devport : UInt16) :
    (devInfo.map DeventityInfo.relayed).findIdx? (fun dev => dev.address = (devip, devport)) =
      cmdagentFind devInfo devip devport := by
  rw [cmdagentFind, List.findIdx?_map]
  congr 1
  funext entry
  simp only [Function.comp_apply, DeventityInfo.relayed, Prod.mk.injEq, decide_eq_decide]
  exact and_congr eq_comm eq_comm

/-- A change of a device's `dev_net` and what it is for the relay. -/
theorem relayed_modify (devInfo : DevInfo) (idx : Nat) {f : DevnetInfo → DevnetInfo} {g : RelayDevice → RelayDevice}
    (h : ∀ entry ∈ devInfo[idx]?, DeventityInfo.relayed { entry with devNet := f entry.devNet } = g entry.relayed) :
    (modifyDevNet devInfo idx f).map DeventityInfo.relayed = (devInfo.map DeventityInfo.relayed).modify idx g := by
  refine List.ext_getElem? fun device => ?_
  simp only [modifyDevNet, List.getElem?_map, List.getElem?_modify]
  cases hd : devInfo[device]? with
  | none => rfl
  | some entry =>
    by_cases he : idx = device
    · subst he
      simp [h entry hd]
    · simp [he]

theorem relayed_write (entry : DeventityInfo) (serid : Int) (data : List UInt8) (added : Bool) :
    DeventityInfo.relayed { entry with devNet := (devnetWrite entry.devNet serid data added).2 } =
      entry.relayed.take serid data added := by
  unfold devnetWrite devnetIsconnected RelayDevice.take
  by_cases hcon : (entry.devNet.bev && entry.devNet.flags &&& devnetFlagsConnected != 0) = true
  · rw [if_pos hcon, if_pos (show (entry.relayed.link && entry.relayed.established) = true from hcon)]
    cases added <;> rfl
  · rw [if_neg hcon, if_neg (show ¬ (entry.relayed.link && entry.relayed.established) = true from hcon)]

theorem relayed_register (hub : Hub) (devip : String) (devport : UInt16) (started : Bool) (calls : List SercltEv) :
    Hub.relay { hub with devInfo := (cmdagentRegisterDevice hub.devInfo devip devport started).2, calls := calls } =
      hub.relay.step (.registered (devip, devport) started) := by
  have hfind : hub.relay.find (devip, devport) = cmdagentFind hub.devInfo devip devport := find_relayed ..
  have hlen : hub.relay.devices.length = hub.devInfo.length := List.length_map _
  simp only [Relay.step, hfind, hlen]
  unfold cmdagentRegisterDevice
  split
  · rename_i hport
    rw [if_neg fun h => h.1 hport]
    rfl
  split
  · rename_i hfound
    rw [if_neg fun h => absurd hfound (by rw [h.2.1]; exact Bool.false_ne_true)]
    rfl
  split
  · rename_i hfull
    rw [if_neg fun h => absurd h.2.2.1 (Nat.not_lt.2 hfull)]
    rfl
  split
  · rename_i hport hnew hroom hstarted
    rw [if_pos ⟨hport, Option.not_isSome_iff_eq_none.1 hnew, Nat.not_le.1 hroom, hstarted⟩]
    have hentry : DeventityInfo.relayed ⟨devip, devport, devnetInitialize⟩ = ⟨(devip, devport), false, false, 0, []⟩ := by
      have hflag : (0 &&& devnetFlagsConnected != 0) = false := by decide
      simp only [DeventityInfo.relayed, devnetInitialize, hflag]
    simp only [Hub.relay, List.map_append, List.map_singleton, hentry]
  · rename_i hstarted
    rw [if_neg fun h => hstarted h.2.2.2]
    rfl

theorem relayed_sendto (hub : Hub) (devip : String) (devport : UInt16) (serid : Int) (data : List UInt8) (added : Bool)
    (calls : List SercltEv) (asked : Int → List Nat) :
    Hub.relay { hub with
      devInfo := (cmdagentSendtoDevice hub.devInfo devip devport serid data added).2
      calls := calls
      asked := asked } = hub.relay.step (.sent serid (devip, devport) data added) := by
  have hfind : hub.relay.find (devip, devport) = cmdagentFind hub.devInfo devip devport := find_relayed ..
  simp only [Relay.step, hfind]
  unfold cmdagentSendtoDevice
  by_cases hport : devport = 0
  · rw [if_pos hport, if_pos hport]
    rfl
  · rw [if_neg hport, if_neg hport]
    cases cmdagentFind hub.devInfo devip devport with
    | none => rfl
    | some device =>
      have hmodify := relayed_modify hub.devInfo device (f := fun devnet => (devnetWrite devnet serid data added).2)
        (g := fun dev => dev.take serid data added) fun entry _ => relayed_write entry serid data added
      simp only [Hub.relay, Relay.modify, hmodify]

theorem connected_flag (flags : UInt32) : (flags ||| devnetFlagsConnected) &&& devnetFlagsConnected ≠ 0 := by
  have hself : (flags ||| devnetFlagsConnected) &&& devnetFlagsConnected = devnetFlagsConnected := by
    apply UInt32.toBitVec_inj.1
    ext i hi
    rw [UInt32.toBitVec_and, UInt32.toBitVec_or, BitVec.getElem_and, BitVec.getElem_or]
    cases flags.toBitVec[i] <;> simp
  rw [hself]
  decide

/-- A change of the link of a device. -/
theorem relayed_onDevice {hub hub' : Hub} {device : Nat} {ok : DevnetInfo → Bool} {f : DevnetInfo → DevnetInfo}
    {g : RelayDevice → RelayDevice} (hstep : hub.onDevice device ok f = some hub')
    (h : ∀ entry : DeventityInfo, DeventityInfo.relayed { entry with devNet := f entry.devNet } = g entry.relayed) :
    hub'.relay = hub.relay.modify device g := by
  unfold Hub.onDevice at hstep
  split at hstep
  · cases hstep
  · split at hstep <;> cases hstep
    have hmodify := relayed_modify hub.devInfo device (f := f) (g := g) fun entry _ => h entry
    simp only [Hub.relay, Relay.modify, hmodify]

/-! ## The clients -/

theorem relay_congr {hub hub' : Hub} (hdev : hub'.devInfo = hub.devInfo)
    (hget : ∀ fd, (simuListGet hub'.sercltList fd).map (fun node => node.pData.output) =
      (simuListGet hub.sercltList fd).map fun node => node.pData.output) : hub'.relay = hub.relay := by
  rw [Hub.relay, Hub.relay, hdev, funext hget]

theorem output_accept {sercltList : SimuList Serclt} {fd : Int} (h : simuListGet sercltList fd = none)
    (dataBlob : Nat → UInt8) (c : Int) :
    (simuListGet (sernetAcceptcb sercltList fd dataBlob) c).map (fun node => node.pData.output) =
      Function.update (fun c => (simuListGet sercltList c).map fun node => node.pData.output) fd (some []) c := by
  rw [sernetAcceptcb, simuListGet_add]
  by_cases hc : fd = c
  · subst hc
    rw [h, if_pos rfl, Function.update_self]
    rfl
  · rw [if_neg hc, Function.update_of_ne (Ne.symm hc), Option.or_none]

theorem output_readcb {sercltList : SimuList Serclt} {fd : Int} {chunk : List UInt8}
    {r : SimuList Serclt × List SercltEv} (h : sernetReadcb sercltList fd chunk = some r) (c : Int) :
    (simuListGet r.1 c).map (fun node => node.pData.output) =
      (simuListGet sercltList c).map fun node => node.pData.output := by
  unfold sernetReadcb at h
  cases hget : simuListGet sercltList fd with
  | none =>
    rw [hget] at h
    cases h
    rfl
  | some node =>
    rw [hget] at h
    obtain ⟨info, -, rfl⟩ := Option.map_eq_some_iff.1 h
    dsimp only
    rw [simuListGet_put]
    by_cases hc : fd = c
    · subst hc
      simp [hget]
    · rw [if_neg hc]

theorem output_write (sercltList : SimuList Serclt) (serid : Int) (data : List UInt8) (added : Bool) (c : Int) :
    (simuListGet (sernetWrite sercltList serid data added).2 c).map (fun node => node.pData.output) =
      if added then
        Function.update (fun c => (simuListGet sercltList c).map fun node => node.pData.output) serid
          (((simuListGet sercltList serid).map fun node => node.pData.output).map (· ++ data)) c
      else (simuListGet sercltList c).map fun node => node.pData.output := by
  unfold sernetWrite
  cases hget : simuListGet sercltList serid with
  | none =>
    by_cases hc : serid = c
    · subst hc
      simp [hget]
    · rw [Function.update_of_ne (Ne.symm hc), ite_self]
  | some node =>
    dsimp only
    rw [simuListGet_put]
    by_cases hc : serid = c
    · subst hc
      cases added <;> simp [sercltWritedata, hget]
    · rw [if_neg hc, Function.update_of_ne (Ne.symm hc), ite_self]

theorem relayed_read (hub : Hub) {device : Nat} {entry : DeventityInfo} (hentry : hub.devInfo[device]? = some entry)
    (data : List UInt8) (added : Bool) :
    Hub.relay { hub with
      devInfo := modifyDevNet hub.devInfo device fun _ => (devnetReadcb entry.devNet data).1
      sercltList := match (devnetReadcb entry.devNet data).2 with
        | none => hub.sercltList
        | some (serid, data) => (sernetWrite hub.sercltList serid data added).2 } =
      hub.relay.step (.answered device data added) := by
  have hdev : (modifyDevNet hub.devInfo device fun _ => (devnetReadcb entry.devNet data).1).map
      DeventityInfo.relayed = hub.devInfo.map DeventityInfo.relayed := by
    have hmodify := relayed_modify hub.devInfo device (f := fun _ => (devnetReadcb entry.devNet data).1) (g := id)
      fun old hold => ?_
    · rw [hmodify, List.modify_id]
    · cases hentry.symm.trans hold
      unfold devnetReadcb
      split <;> rfl
  have hget : hub.relay.devices[device]? = some entry.relayed := by
    rw [Hub.relay, List.getElem?_map, hentry]
    rfl
  simp only [Relay.step, hget]
  unfold devnetReadcb at hdev ⊢
  by_cases hdata : data.length > 0
  · have hne : data ≠ [] := List.ne_nil_of_length_pos hdata
    simp only [if_pos hdata] at hdev ⊢
    rw [Hub.relay, hdev, funext (output_write hub.sercltList entry.devNet.nserid data added)]
    cases added with
    | true =>
      rw [if_pos ⟨hne, rfl⟩]
      rfl
    | false =>
      rw [if_neg fun h => Bool.false_ne_true h.2]
      rfl
  · have hnil : data = [] := List.length_eq_zero_iff.1 (Nat.eq_zero_of_not_pos hdata)
    simp only [if_neg hdata] at hdev ⊢
    rw [if_neg fun h => h.1 hnil, Hub.relay, hdev]
    rfl

/-! ## Refinement -/

/-- A step of the agent is a step of the relay, or nothing for it. -/
theorem relay_step {hub hub' : Hub} {ev : HubEv} (h : hub.Inv) (hstep : hub.step ev = some hub') :
    hub'.relay = (hub.shows ev).toList.foldl Relay.step hub.relay := by
  cases ev with
  | accept fd dataBlob =>
    simp only [Hub.step] at hstep
    split at hstep <;> cases hstep
    rename_i hnew
    have hnone : simuListGet hub.sercltList fd = none := Option.not_isSome_iff_eq_none.1 hnew.2
    exact congrArg (Relay.mk _) (funext (output_accept hnone dataBlob))
  | disconnect fd =>
    simp only [Hub.step] at hstep
    split at hstep <;> cases hstep
    refine congrArg (Relay.mk _) (funext fun c => ?_)
    rw [get_eventcb h.keyed]
    by_cases hc : fd = c
    · subst hc
      rw [if_pos rfl, Function.update_self]
      rfl
    · rw [if_neg hc, Function.update_of_ne (Ne.symm hc)]
      rfl
  | recv fd chunk =>
    simp only [Hub.step] at hstep
    split at hstep
    · obtain ⟨r, hr, rfl⟩ := Option.map_eq_some_iff.1 hstep
      exact relay_congr rfl (output_readcb hr)
    · cases hstep
  | registerdevice started =>
    simp only [Hub.step] at hstep
    split at hstep <;> cases hstep
    rename_i hcalls
    simp only [Hub.shows, hcalls]
    exact relayed_register hub _ _ started _
  | transmitpacket added =>
    simp only [Hub.step] at hstep
    split at hstep <;> cases hstep
    rename_i hcalls
    simp only [Hub.shows, hcalls]
    exact relayed_sendto hub _ _ _ _ added _ _
  | devConnect device =>
    change hub.onDevice device (fun devnet => !devnet.bev) devnetConnect = some hub' at hstep
    have hlink : hub'.relay = hub.relay.modify device fun dev => { dev with link := true } :=
      relayed_onDevice (f := devnetConnect) hstep fun _ => rfl
    exact hlink
  | devConnected device =>
    have hlink : hub'.relay = hub.relay.modify device fun dev => { dev with established := true } := by
      refine relayed_onDevice (f := devnetConnected) hstep fun entry => ?_
      have hflag : ((entry.devNet.flags ||| devnetFlagsConnected) &&& devnetFlagsConnected != 0) = true :=
        bne_iff_ne.2 (connected_flag entry.devNet.flags)
      simp only [DeventityInfo.relayed, devnetConnected, hflag]
    exact hlink
  | devBroken device =>
    have hlink : hub'.relay = hub.relay.modify device fun dev => { dev with established := false } := by
      refine relayed_onDevice (f := devnetBroken) hstep fun entry => ?_
      have hflag : ((devnetBroken entry.devNet).flags &&& devnetFlagsConnected != 0) = false :=
        bne_eq_false_iff_eq.2 (DevnetLink.not_flag_broken entry.devNet)
      simp only [DeventityInfo.relayed, hflag]
      rfl
    exact hlink
  | devDisconnect device =>
    have hlink : hub'.relay = hub.relay.modify device fun dev => { dev with link := false } :=
      relayed_onDevice (f := devnetDisconnect) hstep fun _ => rfl
    exact hlink
  | devRead device data added =>
    simp only [Hub.step] at hstep
    split at hstep
    · cases hstep
    · rename_i entry hentry
      split at hstep
      · cases hstep
        exact relayed_read hub hentry data added
      · cases hstep

theorem showsAll_run {hub hub' : Hub} {evs : List HubEv} (h : hub.Inv) (hrun : exec Hub.step hub evs = some hub') :
    hub'.relay = (hub.showsAll evs).foldl Relay.step hub.relay := by
  induction evs generalizing hub with
  | nil =>
    cases hrun
    rfl
  | cons ev evs ih =>
    obtain ⟨hub₁, hstep, hrest⟩ := exec_cons_eq_some.1 hrun
    rw [Hub.showsAll, hstep, List.foldl_append, ← relay_step h hstep]
    exact ih (h.step hstep) hrest

/-- The agent refines the relay. Whatever clients and devices do, in every run and with
any descriptors used again, what the devices and the clients have been sent is what the
relay sends them for the accepts, disconnects, calls, links and answers of this run. -/
theorem hub_refines_relay (evs : List HubEv) (hub : Hub) (hrun : exec Hub.step Hub.init evs = some hub) :
    hub.relay = (Hub.init.showsAll evs).foldl Relay.step Relay.init :=
  showsAll_run Hub.init_inv hrun

/-- A client asks a device, which answers. -/
theorem hub_refines_relay_asked : ∃ hub, exec Hub.step Hub.init (askedAndGone ++ [.devRead 0 [1] true]) = some hub ∧
    hub.relay = (Hub.init.showsAll (askedAndGone ++ [.devRead 0 [1] true])).foldl Relay.step Relay.init := by
  have hend : (exec Hub.step Hub.init (askedAndGone ++ [.devRead 0 [1] true])).isSome = true := by decide +kernel
  obtain ⟨hub, hrun⟩ := Option.isSome_iff_exists.1 hend
  exact ⟨hub, hrun, hub_refines_relay _ _ hrun⟩

end CmdAgent
