import CmdAgent.Bufferevent
import CmdAgent.Command
import CmdAgent.StreamLib.Lifetime
/-!
# `netcom.c`: set up, connect, clean up

`NetcomInfo` is `struct l0006_netcom_info` with what it points to. Whether an
allocation or a call succeeds is an argument. What the locks hold counts as made by
`pthread_rwlock_init` and freed by `pthread_rwlock_destroy`.
-/
open StreamLib.Lifetime

namespace CmdAgent

structure NetcomInfo (α : Type) where
  nc : Netcom α
  rwlockAttr : Option Nat
  rwlock : Option Nat
  wrbufNcbuf : Option Nat
  wrbufBlob : Option Nat
  /-- `ncrdbuf.blob` -/
  rdBlob : Option Nat
  base : Option Nat
  evtimeout : Option Nat
  heap : Heap

variable {α : Type}

namespace NetcomInfo

/-- A block from `zmalloc`. -/
def zeroed [Inhabited α] : NetcomInfo α where
  nc := { netcomAllocateBuffer with unused := [] }
  rwlockAttr := none
  rwlock := none
  wrbufNcbuf := none
  wrbufBlob := none
  rdBlob := none
  base := none
  evtimeout := none
  heap := Heap.empty

/-! ## Connections -/

/-- A call with `nc->bev`. -/
def passBev (info : NetcomInfo α) : NetcomInfo α := { info with heap := info.heap.useAt info.nc.bev }

/-- `bufferevent_free(nc->bev);` -/
def freeBev (info : NetcomInfo α) : NetcomInfo α := { info with heap := info.heap.freeAt info.nc.bev }

/-- `bufferevent_free(nc->bev); nc->bev = NULL;` where there is one. -/
def dropBev (info : NetcomInfo α) : NetcomInfo α := { info.freeBev with nc := { info.nc with bev := none } }

/-- `nc->bev = bufferevent_socket_new(nc->base, -1, BEV_OPT_CLOSE_ON_FREE);` -/
def newBev (info : NetcomInfo α) (made : Bool) : NetcomInfo α :=
  let (bev, heap) := (info.heap.useAt info.base).make made
  { info with nc := { info.nc with bev := bev }, heap := heap }

def l0006NetcomConnect (info : NetcomInfo α) (made started : Bool) : Int × NetcomInfo α :=
  let info := info.dropBev.newBev made
  if info.nc.bev = none then (-1, info)
  else
    -- `bufferevent_setcb`, `bufferevent_enable`, `bufferevent_socket_connect_hostname`
    let info := info.passBev.passBev.passBev
    if started then (0, info)
    -- It is freed in the branch, and again behind `err2`.
    else (-1, info.freeBev.dropBev)

def l0006NetcomConnect2 (info : NetcomInfo α) (made started : Bool) : Int × NetcomInfo α :=
  let info := info.dropBev.newBev made
  if info.nc.bev = none then (-1, info)
  else
    -- `bufferevent_socket_connect`
    let info := info.passBev
    -- `bufferevent_setcb`, `bufferevent_enable`
    if started then (0, info.passBev.passBev)
    else (-1, info.dropBev)

def l0006NetcomDisconnect (info : NetcomInfo α) : NetcomInfo α :=
  let info := { info with heap := info.heap.useAt info.base }
  info.dropBev

/-! ## Setting up -/

/-- Which steps of `l0006_netcom_initialize` succeed. -/
structure InitSteps where
  /-- What `pthread_rwlockattr_init` returns: 0, or an error number. -/
  rwlockAttr : Nat
  /-- What `pthread_rwlock_init` returns. -/
  rwlock : Nat
  wrbufNcbuf : Bool
  wrbufBlob : Bool
  rdBlob : Bool
  base : Bool
  evtimeout : Bool
  /-- `ncop` is not `NULL`. -/
  ncop : Bool
  deriving DecidableEq

/-- `netcom_allocate_buffer` -/
def allocateBuffer [Inhabited α] (info : NetcomInfo α) (ok : InitSteps) : Int × NetcomInfo α :=
  let (ncbuf, heap) := info.heap.make ok.wrbufNcbuf
  let info := { info with wrbufNcbuf := ncbuf, heap := heap }
  if ncbuf = none then (-1, info)
  else
    let (blob, heap) := info.heap.make ok.wrbufBlob
    let info := { info with wrbufBlob := blob, heap := heap }
    if blob = none then
      -- `ncbuf` is freed in the branch, and again behind `err2`.
      (-1, { info with heap := (info.heap.freeAt ncbuf).freeAt info.wrbufNcbuf })
    else
      let (rdBlob, heap) := info.heap.make ok.rdBlob
      let info := { info with rdBlob := rdBlob, heap := heap }
      if rdBlob = none then (-1, { info with heap := (info.heap.freeAt info.wrbufBlob).freeAt info.wrbufNcbuf })
      else (0, { info with nc := netcomAllocateBuffer })

/-- What is behind `err2`. -/
def err2 (info : NetcomInfo α) : NetcomInfo α := { info with heap := info.heap.freeAt info.rwlockAttr }

def err3 (info : NetcomInfo α) : NetcomInfo α := { info with heap := info.heap.freeAt info.rwlock }.err2

def err4 (info : NetcomInfo α) : NetcomInfo α :=
  { info with heap := ((info.heap.freeAt info.rdBlob).freeAt info.wrbufBlob).freeAt info.wrbufNcbuf }.err3

def err5 (info : NetcomInfo α) : NetcomInfo α :=
  { info with heap := info.heap.freeAt info.base, base := none }.err4

def err6 (info : NetcomInfo α) : NetcomInfo α :=
  { info with heap := (info.heap.useAt info.evtimeout).freeAt info.evtimeout }.err5

def l0006NetcomInitialize [Inhabited α] (info : NetcomInfo α) (ok : InitSteps) : Int × NetcomInfo α :=
  let (rwlockAttr, heap) := info.heap.make (ok.rwlockAttr == 0)
  let info := { info with rwlockAttr := rwlockAttr, heap := heap }
  -- Error numbers are positive, so neither of the first two failures is noticed.
  if (ok.rwlockAttr : Int) < 0 then (-1, info)
  else
    let (rwlock, heap) := (info.heap.useAt info.rwlockAttr).make (ok.rwlock == 0)
    let info := { info with rwlock := rwlock, heap := heap }
    if (ok.rwlock : Int) < 0 then (-1, info.err2)
    else
      let (retval, info) := info.allocateBuffer ok
      if retval < 0 then (-1, info.err3)
      else
        let (base, heap) := info.heap.make ok.base
        let info := { info with base := base, heap := heap }
        if base = none then (-1, info.err4)
        else
          let (evtimeout, heap) := (info.heap.useAt info.base).make ok.evtimeout
          let info := { info with evtimeout := evtimeout, heap := heap }
          if evtimeout = none then (-1, info.err5)
          else
            -- `event_assign`, with `nc->base`, and `event_add`
            let info := { info with heap :=
              ((info.heap.useAt info.evtimeout).useAt info.base).useAt info.evtimeout }
            if ok.ncop then (0, info) else (-1, info.err6)

/-- `nc->bev` is left as it is. -/
def l0006NetcomRelease (info : NetcomInfo α) : NetcomInfo α :=
  let info := { info with heap := (info.heap.useAt info.base).freeAt info.base, base := none }
  let info := { info with heap := (info.heap.useAt info.evtimeout).freeAt info.evtimeout, evtimeout := none }
  let heap := ((info.heap.freeAt info.rdBlob).freeAt info.wrbufBlob).freeAt info.wrbufNcbuf
  { info with heap := (heap.freeAt info.rwlockAttr).freeAt info.rwlock }

end NetcomInfo

/-! ## Events -/

/-- `netcom_eventcb` -/
def netcomEventcb (nc : Netcom α) (events : UInt16) : Netcom α :=
  if events &&& bevEventConnected ≠ 0 then { nc with connected := true }
  else if events &&& (bevEventError ||| bevEventEof) ≠ 0 then { nc with connected := false }
  else nc

end CmdAgent
