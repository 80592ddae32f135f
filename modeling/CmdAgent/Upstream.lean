import CmdAgent.Relay
import CmdAgent.SercltStream
/-!
# From the bytes of a client to the devices

In the agent the reads of many clients and what the devices do come in any order. What a
connection has handed to devices depends on its own reads only (`requests_own_bytes`), and
while its requests find their device connected, each device is sent just the bytes meant
for it (`client_bytes_reach`).
-/
open StreamLib.Reads StreamLib.Runs

namespace CmdAgent

/-! ## What a connection asks -/

/-- What `bufferevent_read` returned for the client `fd`. -/
def readsOf (fd : Int) (evs : List HubEv) : List (List UInt8) :=
  evs.filterMap fun
    | .recv c chunk => if c = fd then some chunk else none
    | _ => none

/-- The data of the client `fd` in calls of `transmitpacket`, with the address. -/
def packetsOf (fd : Int) (calls : List SercltEv) : List ((String × UInt16) × List UInt8) :=
  calls.filterMap fun
    | .registerdevice .. => none
    | .transmitpacket devip devport nsocket packet => if nsocket = fd then some ((devip, devport), packet) else none

/-- The data the relay got from the client `fd`, with the address. -/
def handedBy (fd : Int) (shown : List RelayEv) : List ((String × UInt16) × List UInt8) :=
  shown.filterMap fun
    | .sent c address data _ => if c = fd then some (address, data) else none
    | _ => none

/-- The data for one device. -/
def dataFor (address : String × UInt16) (handed : List ((String × UInt16) × List UInt8)) : List UInt8 :=
  handed.flatMap fun p => if p.1 = address then p.2 else []

/-- The client `fd` is what `serclt_recvdata` makes of its own `reads`, and what it has
asked for is what was `handed` on and what is yet to be. -/
structure Hub.Serves (hub : Hub) (fd : Int) (dataBlob : Nat → UInt8) (reads : List (List UInt8))
    (handed : List ((String × UInt16) × List UInt8)) (info : SercltInfo) : Prop where
  found : (simuListGet hub.sercltList fd).map (fun node => node.pData.info) = some info
  reads : exec sercltRecvdata (sercltInitialize fd dataBlob) reads = some info
  asked : handed ++ packetsOf fd hub.calls = packetsOf fd info.log

theorem packetsOf_append (fd : Int) (calls calls' : List SercltEv) :
    packetsOf fd (calls ++ calls') = packetsOf fd calls ++ packetsOf fd calls' := List.filterMap_append

theorem handedBy_append (fd : Int) (shown shown' : List RelayEv) :
    handedBy fd (shown ++ shown') = handedBy fd shown ++ handedBy fd shown' := List.filterMap_append

theorem packetsOf_other {fd c : Int} (hne : c ≠ fd) {calls : List SercltEv}
    (h : ∀ devip devport nsocket packet, .transmitpacket devip devport nsocket packet ∈ calls → nsocket = c) :
    packetsOf fd calls = [] := by
  refine List.filterMap_eq_nil_iff.2 fun call hmem => ?_
  cases call with
  | registerdevice => rfl
  | transmitpacket devip devport nsocket packet =>
    have hsocket := h _ _ _ _ hmem
    exact if_neg (by rw [hsocket]; exact hne)

namespace Hub.Serves
variable {hub hub' : Hub} {fd : Int} {dataBlob : Nat → UInt8} {reads : List (List UInt8)}
  {handed : List ((String × UInt16) × List UInt8)} {info : SercltInfo}

theorem connected (h : hub.Serves fd dataBlob reads handed info) : hub.Connected fd := by
  have hsome := congrArg Option.isSome h.found
  rwa [Option.isSome_map] at hsome

/-- The client and the calls stay as they are. -/
theorem congr (h : hub.Serves fd dataBlob reads handed info)
    (hfound : (simuListGet hub'.sercltList fd).map (fun node => node.pData.info) =
      (simuListGet hub.sercltList fd).map fun node => node.pData.info)
    (hcalls : packetsOf fd hub'.calls = packetsOf fd hub.calls) : hub'.Serves fd dataBlob reads handed info where
  found := hfound.trans h.found
  reads := h.reads
  asked := by rw [hcalls, h.asked]

theorem accept (h : hub.Serves fd dataBlob reads handed info) {c : Int} (hc : ¬ hub.Connected c)
    (blob : Nat → UInt8) {asked : Int → List Nat} :
    ({ hub with sercltList := sernetAcceptcb hub.sercltList c blob, asked := asked } : Hub).Serves fd dataBlob reads
      handed info := by
  refine h.congr ?_ rfl
  have hne : c ≠ fd := by
    rintro rfl
    exact hc h.connected
  dsimp only
  rw [sernetAcceptcb, simuListGet_add, if_neg hne, Option.or_none]

theorem disconnect (h : hub.Serves fd dataBlob reads handed info) (hkeyed : hub.sercltList.Keyed) {c : Int}
    (hne : c ≠ fd) :
    ({ hub with sercltList := sernetEventcb hub.sercltList c } : Hub).Serves fd dataBlob reads handed info := by
  refine h.congr ?_ rfl
  dsimp only
  rw [get_eventcb hkeyed, if_neg hne]

/-- The client itself is read. -/
theorem recv_self (h : hub.Serves fd dataBlob reads handed info) (hcalls : hub.calls = []) {chunk : List UInt8}
    {r : SimuList Serclt × List SercltEv} (hr : sernetReadcb hub.sercltList fd chunk = some r) :
    ∃ info',
      ({ hub with sercltList := r.1, calls := r.2 } : Hub).Serves fd dataBlob (reads ++ [chunk]) handed info' := by
  obtain ⟨node, hget, rfl⟩ := Option.map_eq_some_iff.1 h.found
  unfold sernetReadcb at hr
  rw [hget] at hr
  obtain ⟨info', hinfo, rfl⟩ := Option.map_eq_some_iff.1 hr
  obtain ⟨-, calls, hlog, -⟩ := recvdata_calls hinfo
  have hasked := h.asked
  rw [hcalls, packetsOf, List.filterMap_nil, List.append_nil] at hasked
  refine ⟨info', ?_, ?_, ?_⟩
  · dsimp only
    rw [simuListGet_put, if_pos rfl, hget]
    rfl
  · rw [exec_append, h.reads, Option.bind_some, exec_cons [] hinfo]
    rfl
  · dsimp only
    rw [hlog, List.drop_left, packetsOf_append, hasked]

/-- Another client is read. -/
theorem recv_other (h : hub.Serves fd dataBlob reads handed info) (hinv : hub.Inv) (hcalls : hub.calls = []) {c : Int}
    (hne : c ≠ fd) {chunk : List UInt8} {r : SimuList Serclt × List SercltEv}
    (hr : sernetReadcb hub.sercltList c chunk = some r) :
    ({ hub with sercltList := r.1, calls := r.2 } : Hub).Serves fd dataBlob reads handed info := by
  unfold sernetReadcb at hr
  cases hget : simuListGet hub.sercltList c with
  | none =>
    rw [hget] at hr
    cases hr
    exact h.congr rfl (by rw [hcalls])
  | some node =>
    rw [hget] at hr
    obtain ⟨info', hinfo, rfl⟩ := Option.map_eq_some_iff.1 hr
    obtain ⟨-, calls, hlog, hsocket⟩ := recvdata_calls hinfo
    rw [hinv.sockets c node hget] at hsocket
    refine h.congr ?_ ?_
    · dsimp only
      rw [simuListGet_put, if_neg hne]
    · dsimp only
      rw [hlog, List.drop_left, packetsOf_other hne hsocket, hcalls]
      rfl

/-- One step of the agent. -/
theorem step (h : hub.Serves fd dataBlob reads handed info) (hinv : hub.Inv) {ev : HubEv}
    (hstep : hub.step ev = some hub') (hstays : ev ≠ .disconnect fd) :
    ∃ info',
      hub'.Serves fd dataBlob (reads ++ readsOf fd [ev]) (handed ++ handedBy fd (hub.shows ev).toList) info' := by
  have hdev : ev.FromDevice →
      reads ++ readsOf fd [ev] = reads ∧ handed ++ handedBy fd (hub.shows ev).toList = handed := by
    intro hev
    cases ev <;> first | exact hev.elim | exact ⟨List.append_nil _, List.append_nil _⟩
  cases hubDoes_of hstep with
  | accept hcalls hc =>
    rw [show readsOf fd [.accept _ _] = [] from rfl, List.append_nil]
    rw [show handedBy fd (hub.shows (.accept _ _)).toList = [] from rfl, List.append_nil]
    exact ⟨info, h.accept hc _⟩
  | @disconnect c hcalls =>
    rw [show readsOf fd [.disconnect c] = [] from rfl, List.append_nil]
    rw [show handedBy fd (hub.shows (.disconnect c)).toList = [] from rfl, List.append_nil]
    exact ⟨info, h.disconnect hinv.keyed fun hc => hstays (by rw [hc])⟩
  | @recv c chunk r hr =>
    have hcalls : hub.calls = [] := by
      simp only [Hub.step] at hstep
      split at hstep
      · assumption
      · cases hstep
    rw [show handedBy fd (hub.shows (.recv c chunk)).toList = [] from rfl, List.append_nil]
    by_cases hc : c = fd
    · subst hc
      rw [show readsOf c [.recv c chunk] = [chunk] by simp [readsOf]]
      exact h.recv_self hcalls hr
    · rw [show readsOf fd [.recv c chunk] = [] by simp [readsOf, hc], List.append_nil]
      exact ⟨info, h.recv_other hinv hcalls hc hr⟩
  | @registerdevice devip devport calls started hcalls =>
    rw [show readsOf fd [.registerdevice started] = [] from rfl, List.append_nil]
    have hshows : handedBy fd (hub.shows (.registerdevice started)).toList = [] := by
      simp only [Hub.shows, hcalls]
      rfl
    rw [hshows, List.append_nil]
    exact ⟨info, h.congr rfl (by rw [hcalls]; rfl)⟩
  | @transmitpacket devip devport nsocket packet calls added hcalls =>
    rw [show readsOf fd [.transmitpacket added] = [] from rfl, List.append_nil]
    -- What was yet to be handed on has been.
    have hshows : handedBy fd (hub.shows (.transmitpacket added)).toList ++ packetsOf fd calls =
        packetsOf fd hub.calls := by
      simp only [Hub.shows, hcalls, Option.toList_some, handedBy, packetsOf, List.filterMap_cons, List.filterMap_nil]
      split <;> rfl
    refine ⟨info, h.found, h.reads, ?_⟩
    rw [List.append_assoc, hshows]
    exact h.asked
  | dev hev =>
    obtain ⟨hreads, hhanded⟩ := hdev hev
    rw [hreads, hhanded]
    exact ⟨info, h.congr rfl rfl⟩
  | devRead =>
    obtain ⟨hreads, hhanded⟩ := hdev trivial
    rw [hreads, hhanded]
    exact ⟨info, h.congr (get_write _ _ _ _ _) rfl⟩

end Hub.Serves

theorem showsAll_cons {hub hub' : Hub} {ev : HubEv} (evs : List HubEv) (h : hub.step ev = some hub') :
    hub.showsAll (ev :: evs) = (hub.shows ev).toList ++ hub'.showsAll evs := by
  rw [Hub.showsAll, h]

theorem Hub.Serves.run {hub hub' : Hub} {fd : Int} {dataBlob : Nat → UInt8} {reads : List (List UInt8)}
    {handed : List ((String × UInt16) × List UInt8)} {info : SercltInfo} (h : hub.Serves fd dataBlob reads handed info)
    (hinv : hub.Inv) {evs : List HubEv} (hrun : exec Hub.step hub evs = some hub') (hstays : .disconnect fd ∉ evs) :
    ∃ info', hub'.Serves fd dataBlob (reads ++ readsOf fd evs) (handed ++ handedBy fd (hub.showsAll evs)) info' := by
  induction evs generalizing hub reads handed info with
  | nil =>
    cases hrun
    refine ⟨info, ?_⟩
    rw [show readsOf fd [] = [] from rfl, show handedBy fd (hub'.showsAll []) = [] from rfl, List.append_nil,
      List.append_nil]
    exact h
  | cons ev evs ih =>
    obtain ⟨hub₁, hstep, hrest⟩ := exec_cons_eq_some.1 hrun
    rw [List.mem_cons, not_or] at hstays
    obtain ⟨info₁, h₁⟩ := h.step hinv hstep (Ne.symm hstays.1)
    obtain ⟨info', h'⟩ := ih h₁ (hinv.step hstep) hrest hstays.2
    refine ⟨info', ?_⟩
    rw [showsAll_cons evs hstep, handedBy_append, ← List.append_assoc]
    rw [show readsOf fd (ev :: evs) = readsOf fd [ev] ++ readsOf fd evs from List.filterMap_append (l := [ev]),
      ← List.append_assoc]
    exact h'

theorem hub_inv_run {hub hub' : Hub} {evs : List HubEv} (h : hub.Inv) (hrun : exec Hub.step hub evs = some hub') :
    hub'.Inv :=
  exec_inv_all (fun _ _ _ hs hst => hs.step hst) h hrun

/-- A client that has just connected. -/
theorem serves_accepted {hub hub' : Hub} {fd : Int} {dataBlob : Nat → UInt8}
    (hstep : hub.step (.accept fd dataBlob) = some hub') :
    hub'.Serves fd dataBlob [] [] (sercltInitialize fd dataBlob) := by
  simp only [Hub.step] at hstep
  split at hstep <;> cases hstep
  rename_i hok
  obtain ⟨hcalls, hnew⟩ := hok
  have hnone : simuListGet hub.sercltList fd = none := Option.not_isSome_iff_eq_none.1 hnew
  refine ⟨?_, rfl, ?_⟩
  · dsimp only
    rw [sernetAcceptcb, simuListGet_add, hnone, if_pos rfl]
    rfl
  · dsimp only
    rw [hcalls]
    rfl

/-- In every run, with any other clients and whatever the devices do, what a connection has
had handed on and what is yet to be are the calls its own reads make, in order. -/
theorem requests_own_bytes (before after : List HubEv) (fd : Int) (dataBlob : Nat → UInt8) (hub₀ hub : Hub)
    (hbefore : exec Hub.step Hub.init before = some hub₀)
    (hafter : exec Hub.step hub₀ (.accept fd dataBlob :: after) = some hub) (hstays : .disconnect fd ∉ after) :
    ∃ info, exec sercltRecvdata (sercltInitialize fd dataBlob) (readsOf fd after) = some info ∧
      handedBy fd (hub₀.showsAll (.accept fd dataBlob :: after)) ++ packetsOf fd hub.calls = packetsOf fd info.log := by
  obtain ⟨hub₁, hstep, hrest⟩ := exec_cons_eq_some.1 hafter
  have hinv : hub₁.Inv := (hub_inv_run Hub.init_inv hbefore).step hstep
  obtain ⟨info, h⟩ := (serves_accepted hstep).run hinv hrest hstays
  refine ⟨info, h.reads, ?_⟩
  rw [showsAll_cons after hstep]
  exact h.asked

/-! ## What the devices get -/

/-- What a device got from the client `fd`. -/
def RelayDevice.from (dev : RelayDevice) (fd : Int) : List UInt8 :=
  (dev.input.filter fun p => p.1 = fd).flatMap Prod.snd

/-- What the device at `address` got from the client `fd`. -/
def Relay.inputFrom (relay : Relay) (fd : Int) (address : String × UInt16) : List UInt8 :=
  (relay.devices.find? fun dev => dev.address = address).elim [] fun dev => dev.from fd

/-- Data of the client `fd` finds its device, connected, and memory. -/
def Relay.Lands (relay : Relay) (fd : Int) : RelayEv → Prop
  | .sent c address _ added => c = fd → address.2 ≠ 0 ∧ added = true ∧
      (relay.devices.find? fun dev => dev.address = address).any (fun dev => dev.link && dev.established) = true
  | _ => True

/-- The same for a step of the agent. -/
def Hub.Lands (fd : Int) (hub : Hub) (ev : HubEv) : Prop := ∀ shown ∈ hub.shows ev, hub.relay.Lands fd shown

theorem find?_modify {α : Type} (p : α → Bool) {g : α → α} (hg : ∀ a, p (g a) = p a) (l : List α) (k : Nat) :
    (l.modify k g).find? p = if l.findIdx? p = some k then (l.find? p).map g else l.find? p := by
  induction l generalizing k with
  | nil => simp
  | cons a l ih =>
    cases k with
    | zero =>
      rw [List.modify_zero_cons, List.find?_cons, List.find?_cons, List.findIdx?_cons, hg]
      cases p a <;> simp
    | succ k =>
      rw [List.modify_succ_cons, List.find?_cons, List.find?_cons, List.findIdx?_cons, ih]
      cases p a <;> simp

section
variable {relay : Relay} {fd : Int} {address : String × UInt16}

/-- A change of a device that is not of its address, nor of what it got from the client. -/
theorem inputFrom_modify {g : RelayDevice → RelayDevice} (haddress : ∀ dev, (g dev).address = dev.address)
    (hfrom : ∀ dev, (g dev).from fd = dev.from fd) (device : Nat) :
    (relay.modify device g).inputFrom fd address = relay.inputFrom fd address := by
  unfold Relay.inputFrom Relay.modify
  dsimp only
  rw [find?_modify _ (fun dev => by rw [haddress])]
  split
  · cases relay.devices.find? fun dev => dev.address = address with
    | none => rfl
    | some dev => exact hfrom dev
  · rfl

theorem take_address (dev : RelayDevice) (c : Int) (data : List UInt8) (added : Bool) :
    (dev.take c data added).address = dev.address := by
  unfold RelayDevice.take
  split <;> rfl

theorem take_from_other {c : Int} (hne : c ≠ fd) (dev : RelayDevice) (data : List UInt8) (added : Bool) :
    (dev.take c data added).from fd = dev.from fd := by
  unfold RelayDevice.take RelayDevice.from
  split
  · cases added with
    | false => rfl
    | true => simp [hne]
  · rfl

theorem take_from_self {dev : RelayDevice} (hup : (dev.link && dev.established) = true) (data : List UInt8) :
    (dev.take fd data true).from fd = dev.from fd ++ data := by
  rw [RelayDevice.take, if_pos hup]
  simp [RelayDevice.from]

/-- Data of another client. -/
theorem inputFrom_sent_other {c : Int} (hne : c ≠ fd) (address' : String × UInt16) (data : List UInt8) (added : Bool) :
    (relay.step (.sent c address' data added)).inputFrom fd address = relay.inputFrom fd address := by
  simp only [Relay.step]
  split
  · rfl
  split
  · rfl
  · exact inputFrom_modify (fun dev => take_address dev c data added) (fun dev => take_from_other hne dev data added) _

/-- Data of the client itself. -/
theorem inputFrom_sent_self {address' : String × UInt16} {data : List UInt8} {added : Bool}
    (hlands : relay.Lands fd (.sent fd address' data added)) :
    (relay.step (.sent fd address' data added)).inputFrom fd address =
      relay.inputFrom fd address ++ if address' = address then data else [] := by
  obtain ⟨hport, rfl, hany⟩ := hlands rfl
  obtain ⟨dev, hdev, hup⟩ := (Option.any_eq_true _ _).1 hany
  have hfind : relay.find address' = relay.devices.findIdx? fun dev => dev.address = address' := rfl
  obtain ⟨device, hdevice⟩ : ∃ device, relay.devices.findIdx? (fun dev => dev.address = address') = some device := by
    have hat := List.find?_some hdev
    refine Option.isSome_iff_exists.1 ?_
    rw [List.findIdx?_isSome, List.any_eq_true]
    exact ⟨dev, List.mem_of_find?_eq_some hdev, hat⟩
  simp only [Relay.step, if_neg hport, hfind, hdevice]
  unfold Relay.inputFrom Relay.modify
  dsimp only
  rw [find?_modify _ (fun dev => by rw [take_address])]
  by_cases haddress : address' = address
  · subst haddress
    rw [if_pos hdevice, if_pos rfl, hdev]
    exact take_from_self hup data
  · -- The first device at `address` is another one.
    rw [if_neg haddress, List.append_nil, if_neg]
    intro hsame
    obtain ⟨hlt, hat, -⟩ := List.findIdx?_eq_some_iff_getElem.1 hdevice
    obtain ⟨hlt', hat', -⟩ := List.findIdx?_eq_some_iff_getElem.1 hsame
    exact haddress ((of_decide_eq_true hat).symm.trans (of_decide_eq_true hat'))

/-- A step of the relay, for one client and one device. -/
theorem inputFrom_step {ev : RelayEv} (hlands : relay.Lands fd ev) :
    (relay.step ev).inputFrom fd address = relay.inputFrom fd address ++ dataFor address (handedBy fd [ev]) := by
  cases ev with
  | opened => exact (List.append_nil _).symm
  | closed => exact (List.append_nil _).symm
  | registered address' started =>
    refine Eq.trans ?_ (List.append_nil _).symm
    simp only [Relay.step]
    split
    · unfold Relay.inputFrom
      rw [List.find?_append]
      cases relay.devices.find? fun dev => dev.address = address with
      | some dev => rfl
      | none =>
        by_cases haddress : address' = address
        · simp [haddress, RelayDevice.from]
        · simp [haddress]
    · rfl
  | sent c address' data added =>
    by_cases hc : c = fd
    · subst hc
      rw [inputFrom_sent_self hlands]
      simp [handedBy, dataFor]
    · rw [inputFrom_sent_other hc]
      simp [handedBy, dataFor, hc]
  | linked device link =>
    refine Eq.trans ?_ (List.append_nil _).symm
    exact inputFrom_modify (g := fun dev => { dev with link := link }) (fun _ => rfl) (fun _ => rfl) device
  | established device established =>
    refine Eq.trans ?_ (List.append_nil _).symm
    exact inputFrom_modify (g := fun dev => { dev with established := established }) (fun _ => rfl) (fun _ => rfl)
      device
  | answered device data added =>
    refine Eq.trans ?_ (List.append_nil _).symm
    simp only [Relay.step]
    split
    · rfl
    split <;> rfl

end

theorem dataFor_append (address : String × UInt16) (handed handed' : List ((String × UInt16) × List UInt8)) :
    dataFor address (handed ++ handed') = dataFor address handed ++ dataFor address handed' := List.flatMap_append

theorem inputFrom_run {hub hub' : Hub} (hinv : hub.Inv) {fd : Int} {evs : List HubEv}
    (hrun : exec Hub.step hub evs = some hub') (hlands : Along Hub.step (Hub.Lands fd) hub evs)
    (address : String × UInt16) :
    hub'.relay.inputFrom fd address =
      hub.relay.inputFrom fd address ++ dataFor address (handedBy fd (hub.showsAll evs)) := by
  induction evs generalizing hub with
  | nil =>
    cases hrun
    exact (List.append_nil _).symm
  | cons ev evs ih =>
    obtain ⟨hub₁, hstep, hrest⟩ := exec_cons_eq_some.1 hrun
    have hone : hub₁.relay.inputFrom fd address =
        hub.relay.inputFrom fd address ++ dataFor address (handedBy fd (hub.shows ev).toList) := by
      rw [relay_step hinv hstep]
      cases hshows : hub.shows ev with
      | none => exact (List.append_nil _).symm
      | some shown => exact inputFrom_step (hlands.1 shown hshows)
    rw [ih (hinv.step hstep) hrest (hlands.2 hub₁ hstep), hone, showsAll_cons evs hstep, handedBy_append,
      dataFor_append, List.append_assoc]

/-! ## From end to end -/

/-- The calls a client makes are made for its own socket. -/
theorem sockets_exec {fd : Int} {dataBlob : Nat → UInt8} {reads : List (List UInt8)} {info : SercltInfo}
    (h : exec sercltRecvdata (sercltInitialize fd dataBlob) reads = some info) :
    ∀ devip devport nsocket packet, .transmitpacket devip devport nsocket packet ∈ info.log → nsocket = fd := by
  have hall : info.nsocket = fd ∧
      ∀ devip devport nsocket packet, .transmitpacket devip devport nsocket packet ∈ info.log → nsocket = fd := by
    refine exec_inv_all (I := fun t => t.nsocket = fd ∧
      ∀ devip devport nsocket packet, .transmitpacket devip devport nsocket packet ∈ t.log → nsocket = fd) ?_ ?_ h
    · rintro s chunk t ⟨hsocket, hlog⟩ hst
      obtain ⟨hsame, calls, hcalls, hown⟩ := recvdata_calls hst
      refine ⟨hsame.trans hsocket, fun devip devport nsocket packet hmem => ?_⟩
      rw [hcalls] at hmem
      rcases List.mem_append.1 hmem with hold | hnew
      · exact hlog _ _ _ _ hold
      · exact (hown _ _ _ _ hnew).trans hsocket
    · exact ⟨rfl, by rintro _ _ _ _ ⟨⟩⟩
  exact hall.2

theorem dataFor_packetsOf {fd : Int} {log : List SercltEv}
    (h : ∀ devip devport nsocket packet, .transmitpacket devip devport nsocket packet ∈ log → nsocket = fd)
    (address : String × UInt16) : dataFor address (packetsOf fd log) = forwarded address log := by
  induction log with
  | nil => rfl
  | cons call log ih =>
    have hrest := ih fun _ _ _ _ hmem => h _ _ _ _ (List.mem_cons_of_mem _ hmem)
    cases call with
    | registerdevice => exact hrest
    | transmitpacket devip devport nsocket packet =>
      rw [show packetsOf fd (.transmitpacket devip devport nsocket packet :: log) =
          ((devip, devport), packet) :: packetsOf fd log by simp [packetsOf, h _ _ _ _ List.mem_cons_self]]
      exact congrArg (_ ++ ·) hrest

/-- The reads of a client that keep on track do what its items say. -/
theorem exec_relays {fd : Int} {dataBlob : Nat → UInt8} {items : List Item} {reads : List (List UInt8)}
    {info : SercltInfo} (hitems : reads.flatten = stream items)
    (hfit : Along sercltRecvdata SercltFits (sercltInitialize fd dataBlob) reads)
    (htracks : Tracks fd dataBlob items reads)
    (h : exec sercltRecvdata (sercltInitialize fd dataBlob) reads = some info) (address : String × UInt16) :
    ∃ rest, forwarded address info.log ++ rest = sentTo address ("", 0) items ∧ rest.length < cmdPacketHeadLen := by
  have hfollows : Follows fd items (stream items) info := by
    rw [← hitems]
    cases reads with
    | nil =>
      cases h
      exact initial_follows items
    | cons chunk reads => exact visits_follow hfit (hitems ▸ List.prefix_rfl) htracks (visits_of_exec h)
  have hshort := exec_short h
  refine ⟨_, (hfollows.relays hshort).2 address, ?_⟩
  split
  · rw [← remainLen_eq_length hfollows.offsets]
    exact hshort
  · exact Nat.succ_pos 7

/-- From end to end. While its requests find their device connected and memory, each device
gets from a connection the command bytes that its stream holds for it, in order and but for
at most 7 that wait for more: whatever other clients and devices do in between, and however
the stream is cut into reads that keep on track. -/
theorem client_bytes_reach (before after : List HubEv) (fd : Int) (dataBlob : Nat → UInt8) (hub₀ hub : Hub)
    (items : List Item) (hbefore : exec Hub.step Hub.init before = some hub₀)
    (hafter : exec Hub.step hub₀ (.accept fd dataBlob :: after) = some hub) (hstays : .disconnect fd ∉ after)
    (hlands : Along Hub.step (Hub.Lands fd) hub₀ (.accept fd dataBlob :: after)) (hcalls : hub.calls = [])
    (hitems : (readsOf fd after).flatten = stream items)
    (hfit : Along sercltRecvdata SercltFits (sercltInitialize fd dataBlob) (readsOf fd after))
    (htracks : Tracks fd dataBlob items (readsOf fd after)) (address : String × UInt16) :
    ∃ sent rest, hub.relay.inputFrom fd address = hub₀.relay.inputFrom fd address ++ sent ∧
      sent ++ rest = sentTo address ("", 0) items ∧ rest.length < cmdPacketHeadLen := by
  have hinv : hub₀.Inv := hub_inv_run Hub.init_inv hbefore
  obtain ⟨hub₁, hstep, hrest⟩ := exec_cons_eq_some.1 hafter
  obtain ⟨info, hserves⟩ := (serves_accepted hstep).run (hinv.step hstep) hrest hstays
  have hhanded : handedBy fd (hub₀.showsAll (.accept fd dataBlob :: after)) = packetsOf fd info.log := by
    have hasked := hserves.asked
    rw [hcalls, packetsOf, List.filterMap_nil, List.append_nil] at hasked
    rw [showsAll_cons after hstep]
    exact hasked
  have hsent : dataFor address (packetsOf fd info.log) = forwarded address info.log :=
    dataFor_packetsOf (sockets_exec hserves.reads) address
  obtain ⟨rest, hrelays, hshort⟩ := exec_relays hitems hfit htracks hserves.reads address
  refine ⟨forwarded address info.log, rest, ?_, hrelays, hshort⟩
  rw [inputFrom_run hinv hafter hlands, hhanded, hsent]

instance (relay : Relay) (fd : Int) : (ev : RelayEv) → Decidable (relay.Lands fd ev)
  | .sent .. => inferInstanceAs (Decidable (_ → _))
  | .opened _ | .closed _ | .registered .. | .linked .. | .established .. | .answered .. =>
    inferInstanceAs (Decidable True)

instance (fd : Int) (hub : Hub) (ev : HubEv) : Decidable (Hub.Lands fd hub ev) :=
  inferInstanceAs (Decidable (∀ shown ∈ hub.shows ev, hub.relay.Lands fd shown))

/-- Client 5 has a device, which is connected. -/
def deviceUp : List HubEv :=
  [.accept 5 (fun _ => 0), .recv 5 initPacket, .registerdevice true, .devConnect 0, .devConnected 0]

/-- Client 6 sends it a command in two reads, with one of client 5 in between. -/
def sharesDevice : List HubEv :=
  [.recv 6 (initPacket ++ buzzackBytes.take 3), .registerdevice true, .recv 5 buzzackBytes, .transmitpacket true,
    .recv 6 (buzzackBytes.drop 3), .transmitpacket true]

theorem deviceUp_run : ∃ hub₀, exec Hub.step Hub.init deviceUp = some hub₀ ∧
    Along Hub.step (Hub.Lands 6) hub₀ (.accept 6 (fun _ => 0) :: sharesDevice) ∧
    ∃ hub, exec Hub.step hub₀ (.accept 6 (fun _ => 0) :: sharesDevice) = some hub ∧ hub.calls = [] := by
  obtain ⟨hub₀, hrun, hok⟩ := (Option.any_eq_true _ _).1 (by decide +kernel :
    (exec Hub.step Hub.init deviceUp).any (fun hub₀ =>
      decide (Along Hub.step (Hub.Lands 6) hub₀ (.accept 6 (fun _ => 0) :: sharesDevice)) &&
        (exec Hub.step hub₀ (.accept 6 (fun _ => 0) :: sharesDevice)).any fun hub => decide (hub.calls = [])) = true)
  obtain ⟨hlands, hend⟩ := Bool.and_eq_true_iff.1 hok
  obtain ⟨hub, hrest, hcalls⟩ := (Option.any_eq_true _ _).1 hend
  exact ⟨hub₀, hrun, of_decide_eq_true hlands, hub, hrest, of_decide_eq_true hcalls⟩

theorem stays_shares : HubEv.disconnect 6 ∉ sharesDevice := by simp [sharesDevice]

theorem requests_own_bytes_shared : ∃ (hub₀ hub : Hub) (info : SercltInfo),
    exec Hub.step Hub.init deviceUp = some hub₀ ∧
    exec sercltRecvdata (sercltInitialize 6 fun _ => 0) (readsOf 6 sharesDevice) = some info ∧
      handedBy 6 (hub₀.showsAll (.accept 6 (fun _ => 0) :: sharesDevice)) ++ packetsOf 6 hub.calls =
        packetsOf 6 info.log := by
  obtain ⟨hub₀, hbefore, -, hub, hafter, -⟩ := deviceUp_run
  obtain ⟨info, h⟩ := requests_own_bytes deviceUp sharesDevice 6 (fun _ => 0) hub₀ hub hbefore hafter stays_shares
  exact ⟨hub₀, hub, info, hbefore, h⟩

theorem client_bytes_reach_shared : ∃ (hub₀ hub : Hub) (sent rest : List UInt8),
    exec Hub.step Hub.init deviceUp = some hub₀ ∧
    hub.relay.inputFrom 6 initLoopback.device = hub₀.relay.inputFrom 6 initLoopback.device ++ sent ∧
      sent ++ rest = sentTo initLoopback.device ("", 0) (.init initLoopback :: buzzackBytes.map .command) ∧
      rest.length < cmdPacketHeadLen := by
  obtain ⟨hub₀, hbefore, hlands, hub, hafter, hcalls⟩ := deviceUp_run
  obtain ⟨sent, rest, h⟩ := client_bytes_reach deviceUp sharesDevice 6 (fun _ => 0) hub₀ hub
    (.init initLoopback :: buzzackBytes.map .command) hbefore hafter stays_shares hlands hcalls rfl (by decide +kernel)
    (forall_visits recvdata_total (by decide +kernel)) initLoopback.device
  exact ⟨hub₀, hub, sent, rest, hbefore, h⟩

end CmdAgent
