import CmdAgent.Abort
import CmdAgent.Agent
import CmdAgent.Bufferevent
import CmdAgent.StreamLib.Lifetime
/-!
# The link to a device

`DevnetLink` adds to `DevnetInfo` which bufferevent `bev` is. The worker of a device
runs `devcom_prep` and `devcom_run` in the thread of `Abort.lean`. The call of
`event_base_dispatch` returns when `_devnet_eventcb` has called `event_base_loopbreak`,
or at once where there is no bufferevent.
-/
open StreamLib.Lifetime StreamLib.Runs

namespace CmdAgent

/-! ## `devnet.c` -/

structure DevnetLink where
  info : DevnetInfo
  /-- The bufferevent, where `bev` is not `NULL`. -/
  obj : Nat
  heap : Heap

namespace DevnetLink

def bev (link : DevnetLink) : Option Nat := if link.info.bev then some link.obj else none

def devnetInitialize : DevnetLink := ⟨CmdAgent.devnetInitialize, 0, Heap.empty⟩

/-- A call with `devnet->bev`. -/
def passBev (link : DevnetLink) : DevnetLink := { link with heap := link.heap.useAt link.bev }

/-- `bufferevent_free(devnet->bev); devnet->bev = NULL;` where there is one. -/
def dropBev (link : DevnetLink) : DevnetLink :=
  { link with info := CmdAgent.devnetDisconnect link.info, heap := link.heap.freeAt link.bev }

def devnetConnect (link : DevnetLink) (made started : Bool) : Int × DevnetLink :=
  let link := link.dropBev
  if made then
    let link : DevnetLink := ⟨CmdAgent.devnetConnect link.info, link.heap.next, link.heap.new⟩
    -- `bufferevent_setcb`, `bufferevent_enable`, `bufferevent_socket_connect_hostname`
    let link := link.passBev.passBev.passBev
    if started then (0, link) else (-1, link.dropBev)
  else (-1, link)

/-- `_devnet_eventcb`, and whether it calls `event_base_loopbreak`. -/
def devnetEventcb (link : DevnetLink) (events : UInt16) : DevnetLink × Bool :=
  if events &&& bevEventConnected ≠ 0 then ({ link.passBev with info := devnetConnected link.info }, false)
  else if events &&& (bevEventError ||| bevEventEof) ≠ 0 then ({ link with info := devnetBroken link.info }, true)
  else (link, false)

def devnetReadcb (link : DevnetLink) (data : List UInt8) : DevnetLink :=
  { link.passBev with info := (CmdAgent.devnetReadcb link.info data).1 }

def devnetWrite (link : DevnetLink) (serid : Int) (data : List UInt8) (added : Bool) : Int × DevnetLink :=
  let output := if devnetIsconnected link.info then link.passBev else link
  ((CmdAgent.devnetWrite link.info serid data added).1,
    { output with info := (CmdAgent.devnetWrite link.info serid data added).2 })

def devnetDisconnect (link : DevnetLink) : DevnetLink := link.dropBev

end DevnetLink

/-! ## `devcom.c` -/

/-- Where the worker is in its state functions. -/
inductive DevPlace where
  | outside
  /-- In `devcom_prep`, before `devnet_connect`. -/
  | prep
  /-- Before `chgstat(TASK_RUNNING)`. -/
  | prepared
  /-- In `devcom_run`, in `event_base_dispatch`. -/
  | dispatching
  /-- `event_base_loopbreak` has been called. -/
  | broken
  /-- Before the test of `IS_TASK_RUNNING`. -/
  | returned
  /-- Before `devnet_disconnect`. -/
  | running
  /-- Before `chgstat(TASK_PREP)`. -/
  | disconnected
  | done
  deriving DecidableEq

/-- `reports` keeps what each bufferevent has reported. -/
structure DevWorker where
  thread : Stopping
  place : DevPlace
  link : DevnetLink
  reports : Nat → List UInt16

inductive DevEv where
  /-- A step of `task_process` or `task_stop`. -/
  | thread (ev : StopEv)
  /-- `devnet_connect`, in `devcom_prep` -/
  | connect (made started : Bool)
  | event (events : UInt16)
  | readcb (data : List UInt8)
  /-- `event_base_dispatch` returns. -/
  | loopRet
  /-- `devnet_disconnect`, in `devcom_run` -/
  | disconnect
  /-- `devcom_write`, in another thread -/
  | write (serid : Int) (data : List UInt8) (added : Bool)
  /-- `devnet_disconnect`, in `devcom_release` -/
  | release

namespace DevWorker

def init (task : TaskInfo) : DevWorker := ⟨.init task, .outside, .devnetInitialize, fun _ => []⟩

/-- Where a step of the thread leaves the worker, if the worker takes it there. -/
def follow (w : DevWorker) : StopEv → Option DevPlace
  | .dispatch =>
    if w.thread.worker = .selected taskPrep then some .prep
    else if w.thread.worker = .selected taskRunning then some .dispatching
    -- `task_idle`
    else some .done
  | .chgstat newstate =>
    if w.place = .prepared ∧ newstate = taskRunning ∨ w.place = .disconnected ∧ newstate = taskPrep then some .done
    else none
  | .isRunning =>
    if w.place = .returned then some (if isTaskRunning w.thread.task then .running else .done) else none
  | .ret => if w.place = .done then some .outside else none
  | _ => some w.place

theorem follow_chgstat (w : DevWorker) (newstate : UInt32) :
    w.follow (.chgstat newstate) =
      if w.place = .prepared ∧ newstate = taskRunning ∨ w.place = .disconnected ∧ newstate = taskPrep then some .done
      else none := rfl

theorem follow_isRunning (w : DevWorker) :
    w.follow .isRunning =
      if w.place = .returned then some (if isTaskRunning w.thread.task then .running else .done) else none := rfl

theorem follow_ret (w : DevWorker) : w.follow .ret = if w.place = .done then some .outside else none := rfl

/-- `none` where the worker is not at that point. `task_instantiate2` leaves no
`statmach_func` empty. -/
def step (w : DevWorker) : DevEv → Option DevWorker
  | .thread ev => (w.follow ev).bind fun place =>
    (w.thread.step (fun _ => true) ev).map fun thread => { w with thread := thread, place := place }
  | .connect made started =>
    if w.place = .prep then some { w with link := (w.link.devnetConnect made started).2, place := .prepared } else none
  | .event events =>
    if w.place = .dispatching then w.link.bev.map fun bev =>
      { w with
        link := (w.link.devnetEventcb events).1
        place := if (w.link.devnetEventcb events).2 then .broken else .dispatching
        reports := Function.update w.reports bev (w.reports bev ++ [events]) }
    else none
  | .readcb data =>
    if w.place = .dispatching ∧ w.link.info.bev then some { w with link := w.link.devnetReadcb data } else none
  | .loopRet =>
    if w.place = .broken ∨ w.place = .dispatching ∧ w.link.info.bev = false then some { w with place := .returned }
    else none
  | .disconnect =>
    if w.place = .running then some { w with link := w.link.devnetDisconnect, place := .disconnected } else none
  | .write serid data added => some { w with link := (w.link.devnetWrite serid data added).2 }
  | .release =>
    if w.thread.stopper = .stopped then some { w with link := w.link.devnetDisconnect } else none

/-- There is a bufferevent, and it is connected. -/
def Up (w : DevWorker) : Prop := ∃ bev, w.link.bev = some bev ∧ Established (w.reports bev)

/-- What the state says about the link, and what has become of the bufferevents. -/
structure LinkOk (w : DevWorker) : Prop where
  connected : devnetIsconnected w.link.info = true → w.Up
  single : Single w.link.heap.log
  live : ∀ obj, LiveIn w.link.heap.log obj ↔ w.link.bev = some obj
  freed : ∀ obj, .new obj ∈ w.link.heap.log → w.link.bev ≠ some obj → w.link.heap.log.count (.free obj) = 1

end DevWorker

/-! ## The thread -/

/-! ## What the functions change -/

namespace DevnetLink
variable {link : DevnetLink}

/-- The bufferevent `bev` points to is the one that is live. -/
def Kept (link : DevnetLink) : Prop := link.heap.Holds link.bev

theorem Kept.passBev (h : link.Kept) : link.passBev.Kept := by
  unfold Kept DevnetLink.passBev at *
  change (link.heap.useAt link.bev).Holds link.bev
  generalize link.bev = ptr at h ⊢
  cases ptr with
  | none => exact h
  | some obj => exact h.use

theorem Kept.dropBev (h : link.Kept) : link.dropBev.Kept := Heap.Holds.freeAt h

theorem Kept.connect (h : link.Kept) (made started : Bool) : (link.devnetConnect made started).2.Kept := by
  have hdrop := h.dropBev
  cases made with
  | false => exact hdrop
  | true =>
    have hnew : Kept ⟨CmdAgent.devnetConnect link.dropBev.info, link.dropBev.heap.next, link.dropBev.heap.new⟩ :=
      Heap.Holds.new hdrop
    cases started with
    | false => exact hnew.passBev.passBev.passBev.dropBev
    | true => exact hnew.passBev.passBev.passBev

/-- An operation that neither makes nor frees a bufferevent. -/
theorem Kept.congr {link' : DevnetLink} (h : link.Kept) (hbev : link'.bev = link.bev) (hheap : link'.heap = link.heap) :
    link'.Kept := by
  unfold Kept at *
  rwa [hbev, hheap]

theorem next_passBev (link : DevnetLink) : link.passBev.heap.next = link.heap.next := by
  unfold passBev
  cases link.bev <;> rfl

theorem next_dropBev (link : DevnetLink) : link.dropBev.heap.next = link.heap.next := by
  unfold dropBev
  cases link.bev <;> rfl

theorem flags_connect (link : DevnetLink) (made started : Bool) :
    (link.devnetConnect made started).2.info.flags = link.info.flags := by
  cases made <;> cases started <;> rfl

theorem next_connect (link : DevnetLink) (made started : Bool) :
    link.heap.next ≤ (link.devnetConnect made started).2.heap.next := by
  unfold devnetConnect
  cases made <;> cases started <;> simp [next_passBev, next_dropBev, Heap.new]

/-- The flag `DEVNET_FLAGS_CONNECTED` -/
def flag (link : DevnetLink) : Prop := link.info.flags &&& devnetFlagsConnected ≠ 0

theorem not_flag_broken (devnet : DevnetInfo) : (devnetBroken devnet).flags &&& devnetFlagsConnected = 0 := by
  unfold devnetBroken
  rw [UInt32.and_assoc, show ~~~devnetFlagsConnected &&& devnetFlagsConnected = 0 by decide, UInt32.and_zero]

/-- An event changes only the flag, and one that leaves the flag set does not break the
loop. -/
theorem eventcb_spec (link : DevnetLink) (events : UInt16) :
    (link.devnetEventcb events).1.bev = link.bev ∧ (link.devnetEventcb events).1.heap.next = link.heap.next ∧
      (link.Kept → (link.devnetEventcb events).1.Kept) ∧
        ((link.devnetEventcb events).1.flag → (link.devnetEventcb events).2 = false ∧
          (reportsConnected events = true ∨ link.flag ∧ reportsBroken events = false)) := by
  unfold devnetEventcb reportsConnected reportsBroken
  by_cases hup : events &&& bevEventConnected = 0
  · by_cases hdown : events &&& (bevEventError ||| bevEventEof) = 0
    · simp [hup, hdown]
    · have hbroken : ¬ flag { link with info := devnetBroken link.info } := not_not_intro (not_flag_broken link.info)
      simp only [hup, hdown, ne_eq, not_true, not_false_eq_true, if_true, if_false]
      exact ⟨rfl, trivial, fun h => h.congr rfl rfl, fun hf => absurd hf hbroken⟩
  · simp only [hup, ne_eq, not_false_eq_true, if_true]
    refine ⟨by rfl, next_passBev link, fun h => h.passBev.congr rfl rfl, fun _ => ⟨trivial, .inl ?_⟩⟩
    simpa using hup

/-- Reading and writing leave the flag and the bufferevent alone. -/
structure Same (link link' : DevnetLink) : Prop where
  flags : link'.info.flags = link.info.flags
  bev : link'.bev = link.bev
  next : link'.heap.next = link.heap.next
  kept : link.Kept → link'.Kept

theorem same_readcb (link : DevnetLink) (data : List UInt8) : Same link (link.devnetReadcb data) := by
  have hinfo : (CmdAgent.devnetReadcb link.info data).1.flags = link.info.flags ∧
      (CmdAgent.devnetReadcb link.info data).1.bev = link.info.bev := by
    unfold CmdAgent.devnetReadcb
    split <;> exact ⟨rfl, rfl⟩
  have hbev : (link.devnetReadcb data).bev = link.bev := by
    unfold DevnetLink.bev devnetReadcb
    rw [hinfo.2]
    rfl
  exact ⟨hinfo.1, hbev, next_passBev link, fun h => h.passBev.congr hbev rfl⟩

theorem same_write (link : DevnetLink) (serid : Int) (data : List UInt8) (added : Bool) :
    Same link (link.devnetWrite serid data added).2 := by
  have hinfo : (CmdAgent.devnetWrite link.info serid data added).2.flags = link.info.flags ∧
      (CmdAgent.devnetWrite link.info serid data added).2.bev = link.info.bev := by
    unfold CmdAgent.devnetWrite
    split
    · split <;> exact ⟨rfl, rfl⟩
    · exact ⟨rfl, rfl⟩
  unfold devnetWrite
  by_cases hup : devnetIsconnected link.info = true
  · have hbev : ({ link.passBev with info := (CmdAgent.devnetWrite link.info serid data added).2 } : DevnetLink).bev =
        link.bev := by
      unfold DevnetLink.bev
      rw [hinfo.2]
      rfl
    rw [if_pos hup]
    exact ⟨hinfo.1, hbev, next_passBev link, fun h => h.passBev.congr hbev rfl⟩
  · have hbev : ({ link with info := (CmdAgent.devnetWrite link.info serid data added).2 } : DevnetLink).bev =
        link.bev := by
      unfold DevnetLink.bev
      rw [hinfo.2]
    rw [if_neg hup]
    exact ⟨hinfo.1, hbev, rfl, fun h => h.congr hbev rfl⟩

end DevnetLink

/-! ## Steps -/

namespace DevWorker

/-- The flag is set only in `event_base_dispatch`, and only bufferevents that have been
made report something. -/
structure Inv (w : DevWorker) : Prop where
  inside : w.place ≠ .outside → w.thread.worker = .inside
  kept : w.link.Kept
  fresh : ∀ bev, w.link.heap.next ≤ bev → w.reports bev = []
  flag : w.link.flag → w.place = .dispatching ∧ w.Up
  stop : ∃ n, w.thread.Progress n

theorem inv_init (task : TaskInfo) : (init task).Inv :=
  ⟨fun h => absurd rfl h, Heap.Holds.empty, fun _ _ => rfl, fun hf => absurd UInt32.zero_and hf, 0, .running rfl⟩

variable {w : DevWorker}

/-- A step of the thread, on its own or in a state function. -/
theorem Inv.thread (h : w.Inv) {ev : StopEv} {place : DevPlace} {thread : Stopping} (hplace : w.follow ev = some place)
    (hthread : w.thread.step (fun _ => true) ev = some thread) :
    (place ≠ .outside → thread.worker = .inside) ∧ (w.place = .dispatching → place = .dispatching) := by
  have houtside : w.thread.worker ≠ .inside → w.place = .outside := fun hw => by_contra fun hp => hw (h.inside hp)
  cases ev with
  | dispatch =>
    cases hw : w.thread.worker <;> simp [Stopping.step, hw] at hthread
    subst hthread
    exact ⟨fun _ => rfl, fun hin => by simp [houtside (by simp [hw])] at hin⟩
  | skip =>
    cases hw : w.thread.worker <;> simp [Stopping.step, hw] at hthread
  | chgstat newstate =>
    simp only [Stopping.step, Option.ite_none_right_eq_some, Option.some.injEq] at hthread
    obtain ⟨⟨hw, -⟩, rfl⟩ := hthread
    exact ⟨fun _ => hw, fun hin => by simp [follow_chgstat, hin] at hplace⟩
  | isRunning =>
    simp only [Stopping.step, Option.ite_none_right_eq_some, Option.some.injEq] at hthread
    obtain ⟨hw, rfl⟩ := hthread
    exact ⟨fun _ => hw, fun hin => by simp [follow_isRunning, hin] at hplace⟩
  | ret =>
    simp only [follow_ret, Option.ite_none_right_eq_some, Option.some.injEq] at hplace
    obtain ⟨hdone, rfl⟩ := hplace
    exact ⟨fun hne => absurd rfl hne, fun hin => by simp [hin] at hdone⟩
  | abort | join | quit =>
    cases hplace
    simp only [Stopping.step, Option.ite_none_right_eq_some, Option.some.injEq] at hthread
    obtain ⟨-, rfl⟩ := hthread
    exact ⟨h.inside, id⟩
  | begin | test | select =>
    cases hplace
    simp only [Stopping.step, Option.ite_none_right_eq_some, Option.some.injEq] at hthread
    obtain ⟨hw, rfl⟩ := hthread
    have hout : w.place = .outside := houtside (by simp [hw])
    exact ⟨fun hne => absurd hout hne, fun hin => by simp [hin] at hout⟩

/-- Where the flag is not set the bufferevent may change. -/
theorem Inv.relink (h : w.Inv) (hdown : ¬ w.link.flag) {link : DevnetLink} {place : DevPlace} (hkept : link.Kept)
    (hnext : w.link.heap.next ≤ link.heap.next) (hflags : link.info.flags = w.link.info.flags)
    (hinside : place ≠ .outside → w.place ≠ .outside) : Inv { w with link := link, place := place } := by
  refine ⟨fun hp => h.inside (hinside hp), hkept, fun bev hbev => h.fresh bev (Nat.le_trans hnext hbev), fun hf => ?_,
    h.stop⟩
  apply absurd _ hdown
  unfold DevnetLink.flag at hf ⊢
  rwa [← hflags]

theorem Inv.not_flag (h : w.Inv) (hplace : w.place ≠ .dispatching) : ¬ w.link.flag := fun hf => hplace (h.flag hf).1

theorem Inv.same (h : w.Inv) {link : DevnetLink} (hsame : DevnetLink.Same w.link link) :
    Inv { w with link := link } := by
  refine ⟨h.inside, hsame.kept h.kept, fun bev hbev => h.fresh bev (hsame.next ▸ hbev), fun hf => ?_, h.stop⟩
  have hset : w.link.flag := by
    unfold DevnetLink.flag at hf ⊢
    rwa [← hsame.flags]
  obtain ⟨hplace, bev, hbev, hest⟩ := h.flag hset
  exact ⟨hplace, bev, hsame.bev.trans hbev, hest⟩

theorem Inv.event (h : w.Inv) (hplace : w.place = .dispatching) (events : UInt16) {bev : Nat}
    (hbev : w.link.bev = some bev) :
    Inv { w with
      link := (w.link.devnetEventcb events).1
      place := if (w.link.devnetEventcb events).2 then .broken else .dispatching
      reports := Function.update w.reports bev (w.reports bev ++ [events]) } := by
  obtain ⟨hsame, hnext, hkept, hflag⟩ := DevnetLink.eventcb_spec w.link events
  have hinside : w.thread.worker = .inside := h.inside (by simp [hplace])
  have hlt : bev < w.link.heap.next := by
    have hheld := h.kept
    unfold DevnetLink.Kept at hheld
    rw [hbev] at hheld
    exact hheld.lt_next
  refine ⟨fun _ => hinside, hkept h.kept, fun other hother => ?_, fun hf => ?_, h.stop⟩
  · have hne : other ≠ bev := fun he => by
      rw [hnext, he] at hother
      exact absurd hlt (Nat.not_lt.2 hother)
    exact (Function.update_of_ne hne _ _).trans (h.fresh other (hnext ▸ hother))
  · obtain ⟨hloop, hreports⟩ := hflag hf
    refine ⟨by simp [hloop], bev, hsame.trans hbev, ?_⟩
    have hreport : Function.update w.reports bev (w.reports bev ++ [events]) bev = w.reports bev ++ [events] :=
      Function.update_self _ _ _
    apply hreport.symm ▸ (established_snoc (w.reports bev) events).2
    rcases hreports with hup | ⟨hold, hnot⟩
    · exact .inl hup
    · obtain ⟨-, cur, hcur, hest⟩ := h.flag hold
      cases hbev.symm.trans hcur
      exact .inr ⟨hest, hnot⟩

theorem Inv.step (w : DevWorker) (ev : DevEv) (w' : DevWorker) (h : w.Inv) (hst : w.step ev = some w') : w'.Inv := by
  cases ev with
  | thread ev =>
    obtain ⟨place, hplace, hst⟩ := Option.bind_eq_some_iff.1 hst
    obtain ⟨thread, hthread, rfl⟩ := Option.map_eq_some_iff.1 hst
    obtain ⟨hinside, hloop⟩ := h.thread hplace hthread
    obtain ⟨n, hn⟩ := h.stop
    exact ⟨hinside, h.kept, h.fresh, fun hf => ⟨hloop (h.flag hf).1, (h.flag hf).2⟩, _, hn.step hthread⟩
  | connect made started =>
    obtain ⟨hplace, hst⟩ := Option.ite_none_right_eq_some.1 hst
    cases hst
    apply h.relink (h.not_flag (by simp [hplace])) (h.kept.connect made started) (DevnetLink.next_connect _ made started)
      (DevnetLink.flags_connect _ made started)
    simp [hplace]
  | event events =>
    obtain ⟨hplace, hst⟩ := Option.ite_none_right_eq_some.1 hst
    obtain ⟨bev, hbev, rfl⟩ := Option.map_eq_some_iff.1 hst
    exact h.event hplace events hbev
  | readcb data =>
    obtain ⟨-, hst⟩ := Option.ite_none_right_eq_some.1 hst
    cases hst
    exact h.same (DevnetLink.same_readcb _ data)
  | loopRet =>
    obtain ⟨hplace, hst⟩ := Option.ite_none_right_eq_some.1 hst
    cases hst
    rcases hplace with hplace | ⟨hplace, hnull⟩
    · apply h.relink (h.not_flag (by simp [hplace])) h.kept (Nat.le_refl _) rfl
      simp [hplace]
    · have hdown : ¬ w.link.flag := by
        intro hf
        obtain ⟨-, bev, hbev, -⟩ := h.flag hf
        simp [DevnetLink.bev, hnull] at hbev
      apply h.relink hdown h.kept (Nat.le_refl _) rfl
      simp [hplace]
  | disconnect =>
    obtain ⟨hplace, hst⟩ := Option.ite_none_right_eq_some.1 hst
    cases hst
    apply h.relink (h.not_flag (by simp [hplace])) h.kept.dropBev (Nat.le_of_eq (DevnetLink.next_dropBev _).symm) rfl
    simp [hplace]
  | write serid data added =>
    cases hst
    exact h.same (DevnetLink.same_write _ serid data added)
  | release =>
    obtain ⟨hstopped, hst⟩ := Option.ite_none_right_eq_some.1 hst
    cases hst
    have hleft : w.thread.worker = .left := by
      obtain ⟨n, hn⟩ := h.stop
      cases hn with
      | stopped _ _ hleft _ => exact hleft
      | running hs | aborted hs | joined hs => simp [hs] at hstopped
    have hout : w.place = .outside := by
      by_contra hp
      simp [h.inside hp] at hleft
    exact h.relink (h.not_flag (by simp [hout])) h.kept.dropBev (Nat.le_of_eq (DevnetLink.next_dropBev _).symm) rfl id

theorem Inv.linkOk (h : w.Inv) : w.LinkOk where
  connected hup := by
    simp only [devnetIsconnected, Bool.and_eq_true, bne_iff_ne] at hup
    exact (h.flag hup.2).2
  single := h.kept.single
  live obj := (h.kept.owns.live obj).symm.trans Option.mem_toList
  freed obj hnew hne := h.kept.owns.freed_once hnew fun hmem => hne (Option.mem_toList.1 hmem)

end DevWorker

/-! ## Runs -/

/-- Whatever happens to a device's worker, `devnet_isconnected` returns 1 only if the
present bufferevent is connected, there is never more than one that is live, and every
other has been freed once. -/
theorem device_link (task : TaskInfo) (evs : List DevEv) :
    Throughout DevWorker.step DevWorker.LinkOk (DevWorker.init task) evs := by
  rw [throughout_iff]
  intro pre _ w hrun
  exact (exec_inv_all DevWorker.Inv.step (DevWorker.inv_init task) hrun).linkOk

/-- A connect fails, the next connection breaks, and the one after it is up. -/
example : (exec DevWorker.step (DevWorker.init ⟨taskIdle, false⟩)
    [.thread .begin, .thread .test, .thread .select, .thread .dispatch, .connect true false,
      .thread (.chgstat taskRunning), .thread .ret, .thread .test, .thread .select, .thread .dispatch, .loopRet,
      .thread .isRunning, .disconnect, .thread (.chgstat taskPrep), .thread .ret,
      .thread .test, .thread .select, .thread .dispatch, .connect true true, .thread (.chgstat taskRunning),
      .thread .ret, .thread .test, .thread .select, .thread .dispatch, .event bevEventConnected, .event bevEventEof,
      .loopRet, .thread .isRunning, .disconnect, .thread (.chgstat taskPrep), .thread .ret,
      .thread .test, .thread .select, .thread .dispatch, .connect true true, .thread (.chgstat taskRunning),
      .thread .ret, .thread .test, .thread .select, .thread .dispatch, .event bevEventConnected]).any
        (fun w => devnetIsconnected w.link.info && w.link.bev == some 2) := by decide +kernel

end CmdAgent
