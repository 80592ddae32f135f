import CmdAgent.Serclient
import CmdAgent.SimuList
/-!
# `src/agent`: clients and devices

`cmdagent_register_device` and `cmdagent_sendto_device` are what a client's
`serclt_recvdata` calls, `sernet_write` is what a device's `_devnet_readcb` calls
through `sercom_write`. The output of a bufferevent is the history of what was
added to it. Whether `evbuffer_add` has memory, and whether a device's task starts,
are parameters (`added`, `started`).
-/

namespace CmdAgent

/-! ## `devnet.c` -/

@[simp] abbrev devnetRdbufferSize : Nat := 204800

def devnetFlagsConnected : UInt32 := 2

structure DevnetInfo where
  nserid : Int
  flags : UInt32
  /-- `bev` is not `NULL`. -/
  bev : Bool
  /-- The data added to the output of `bev`, with the client it came from. -/
  output : List (Int × List UInt8)
  wrOff : UInt32
  deriving DecidableEq

/-- `devnet_initialize` in a block from `zmalloc`. `DEVNET_FLAGS_DROPADDATA` is 0. -/
def devnetInitialize : DevnetInfo where
  nserid := 0
  flags := 0
  bev := false
  output := []
  wrOff := 0

def devnetIsconnected (devnet : DevnetInfo) : Bool := devnet.bev && devnet.flags &&& devnetFlagsConnected != 0

def devnetWrite (devnet : DevnetInfo) (serid : Int) (data : List UInt8) (added : Bool) : Int × DevnetInfo :=
  if devnetIsconnected devnet then
    if added then (0, { devnet with nserid := serid, output := devnet.output ++ [(serid, data)] })
    else (-1, { devnet with nserid := serid })
  else (-1, devnet)

/-- `devnet_connect` without an earlier `bev`. -/
def devnetConnect (devnet : DevnetInfo) : DevnetInfo := { devnet with bev := true }

/-- `_devnet_eventcb` for `BEV_EVENT_CONNECTED` -/
def devnetConnected (devnet : DevnetInfo) : DevnetInfo := { devnet with flags := devnet.flags ||| devnetFlagsConnected }

/-- `_devnet_eventcb` for `BEV_EVENT_ERROR` and `BEV_EVENT_EOF` -/
def devnetBroken (devnet : DevnetInfo) : DevnetInfo := { devnet with flags := devnet.flags &&& ~~~devnetFlagsConnected }

def devnetDisconnect (devnet : DevnetInfo) : DevnetInfo := { devnet with bev := false }

/-- `_devnet_readcb` when `bufferevent_read` returns `data`, with the arguments of the
call of `dealpacket`. -/
def devnetReadcb (devnet : DevnetInfo) (data : List UInt8) : DevnetInfo × Option (Int × List UInt8) :=
  if data.length > 0 then
    ({ devnet with wrOff := devnet.wrOff + data.length.toUInt32 }, some (devnet.nserid, data))
  else (devnet, none)

/-! ## `cmdagent.c` -/

@[simp] abbrev cmdagentMaxDevNum : Nat := 32

/-- `struct deventity_info`, with the `dev_net` of its `devproc`. -/
structure DeventityInfo where
  ipaddr : String
  usport : UInt16
  devNet : DevnetInfo
  deriving DecidableEq

/-- The first `dev_num` entries of `dev_info`. -/
abbrev DevInfo := List DeventityInfo

/-- The search for `szdevip` and `usport` in `dev_info`. -/
def cmdagentFind (devInfo : DevInfo) (szdevip : String) (usport : UInt16) : Option Nat :=
  devInfo.findIdx? fun entry => szdevip = entry.ipaddr ∧ usport = entry.usport

def cmdagentRegisterDevice (devInfo : DevInfo) (szdevip : String) (usport : UInt16) (started : Bool) : Int × DevInfo :=
  if usport = 0 then (-1, devInfo)
  else if (cmdagentFind devInfo szdevip usport).isSome then (0, devInfo)
  else if devInfo.length ≥ cmdagentMaxDevNum then (-1, devInfo)
  else if started then (0, devInfo ++ [⟨szdevip, usport, devnetInitialize⟩])
  else (-1, devInfo)

/-- Change the `dev_net` of a device. -/
def modifyDevNet (devInfo : DevInfo) (idx : Nat) (f : DevnetInfo → DevnetInfo) : DevInfo :=
  devInfo.modify idx fun entry => { entry with devNet := f entry.devNet }

/-- The result of `devcom_write` is not passed on. -/
def cmdagentSendtoDevice (devInfo : DevInfo) (szdevip : String) (usport : UInt16) (serid : Int) (data : List UInt8)
    (added : Bool) : Int × DevInfo :=
  if usport = 0 then (-1, devInfo)
  else match cmdagentFind devInfo szdevip usport with
    | none => (-1, devInfo)
    | some idx => (0, modifyDevNet devInfo idx fun devnet => (devnetWrite devnet serid data added).2)

/-! ## `sernet.c` -/

/-- A `serclt_info` and the data added to the output of its `evbuffer`. -/
structure Serclt where
  info : SercltInfo
  output : List UInt8

def sercltWritedata (serclt : Serclt) (data : List UInt8) (added : Bool) : Int × Serclt :=
  if added then (0, { serclt with output := serclt.output ++ data }) else (-1, serclt)

/-- `_sernet_acceptcb` for the connection `fd`, with `dataBlob` what is allocated. -/
def sernetAcceptcb (sercltList : SimuList Serclt) (fd : Int) (dataBlob : Nat → UInt8) : SimuList Serclt :=
  (simuListAdd sercltList fd ⟨sercltInitialize fd dataBlob, []⟩ 0).2

/-- `_sernet_eventcb` for `BEV_EVENT_EOF` and `BEV_EVENT_ERROR`. Releasing the client
closes its descriptor. -/
def sernetEventcb (sercltList : SimuList Serclt) (socketfd : Int) : SimuList Serclt :=
  match simuListGet sercltList socketfd with
  | none => sercltList
  | some _ => (simuListDel sercltList socketfd).2

/-- `_sernet_readcb` for the bufferevent of the client `socketfd`, with the calls its
`serclt_recvdata` makes. -/
def sernetReadcb (sercltList : SimuList Serclt) (socketfd : Int) (chunk : List UInt8) :
    Option (SimuList Serclt × List SercltEv) :=
  match simuListGet sercltList socketfd with
  | none => some (sercltList, [])
  | some node => (sercltRecvdata node.pData.info chunk).map fun info =>
    (simuListPut sercltList socketfd { node.pData with info := info }, info.log.drop node.pData.info.log.length)

def sernetWrite (sercltList : SimuList Serclt) (serid : Int) (data : List UInt8) (added : Bool) :
    Int × SimuList Serclt :=
  match simuListGet sercltList serid with
  | none => (-1, sercltList)
  | some node =>
    let r := sercltWritedata node.pData data added
    (r.1, simuListPut sercltList serid r.2)

end CmdAgent
