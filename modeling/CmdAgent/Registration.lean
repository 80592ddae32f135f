import Mathlib.Data.Finset.Basic
import CmdAgent.Registry
import CmdAgent.Startup
/-!
# What a failed registration holds

`cmdagent_register_device` acquires what a device needs in `task_initialize`,
`devcom_initialize`, `devnet_initialize` and `task_startup`. Each step may fail. The
resources here are those of one call: the next one for the slot overwrites it.
-/
open StreamLib.Runs

namespace CmdAgent

/-- What a registration acquires. -/
inductive Resource
  | pts | mutex | condattr | cond | rwlockattr | rwlock
  | devcomProc | devnetRwlockattr | devnetRwlock | dataBlob | eventBase
  | attr | thread
  deriving DecidableEq

/-- What the calls in `ptsopen` return. -/
structure PtsCalls where
  openpt : Int
  grantpt : Int
  unlockpt : Int
  ptsnameR : Int
  tcgetattr : Int
  tcsetattr : Int
  tcflush : Int
  /-- `retval == 0 || errno == ENOENT` -/
  unlinked : Bool
  symlink : Int

/-- What the calls in a registration return. -/
structure RegisterCalls where
  pts : PtsCalls
  mutexInit : Int
  condattrInit : Int
  condattrSetclock : Int
  condInit : Int
  rwlockattrInit : Int
  rwlockInit : Int
  /-- `zmalloc` returns the `devcom_proc`. -/
  devcomProc : Bool
  devnetRwlockattrInit : Int
  devnetRwlockInit : Int
  dataBlob : Bool
  eventBase : Bool
  thread : ThreadCalls

namespace Registration

/-- A call that returns 0 has acquired the resource. -/
def acquire (resource : Resource) (rc : Int) (held : Finset Resource) : Finset Resource :=
  if rc = 0 then insert resource held else held

/-- The labels behind a failure fall through: what they give back, in order. -/
def release (resources : List Resource) (held : Finset Resource) : Finset Resource := resources.foldl Finset.erase held

/-! ## The functions, with what they hold -/

/-- `ptsopen` -/
def ptsopen (calls : PtsCalls) (held : Finset Resource) : Int × Finset Resource :=
  if calls.openpt ≥ 0 ∧ calls.grantpt = 0 ∧ calls.unlockpt = 0 ∧ calls.ptsnameR = 0 ∧ calls.tcgetattr = 0 ∧
      calls.tcsetattr = 0 ∧ calls.tcflush = 0 ∧ calls.unlinked ∧ calls.symlink = 0 then
    (calls.openpt, insert .pts held)
  -- `close(fd_ptmx)`
  else (-1, held)

/-- `devnet_initialize` -/
def devnetInitialize (calls : RegisterCalls) (held : Finset Resource) : Int × Finset Resource :=
  let err2 := release [.devnetRwlockattr]
  let err3 := release [.devnetRwlock, .devnetRwlockattr]
  let err4 := release [.dataBlob, .devnetRwlock, .devnetRwlockattr]
  let held := acquire .devnetRwlockattr calls.devnetRwlockattrInit held
  if calls.devnetRwlockattrInit < 0 then (-1, held)
  else
    let held := acquire .devnetRwlock calls.devnetRwlockInit held
    if calls.devnetRwlockInit < 0 then (-1, err2 held)
    else if !calls.dataBlob then (-1, err3 held)
    else
      let held := insert .dataBlob held
      if !calls.eventBase then (-1, err4 held) else (0, insert .eventBase held)

/-- `devcom_initialize` -/
def devcomInitialize (devNum devIdx : Nat) (calls : RegisterCalls) (held : Finset Resource) : Int × Finset Resource :=
  if devIdx > devNum then (-1, held)
  else if !calls.devcomProc then (-1, held)
  else
    let r := devnetInitialize calls (insert .devcomProc held)
    if r.1 < 0 then (-1, r.2) else (0, r.2)

/-- `task_initialize` with `devcom_initialize` -/
def taskInitialize (devNum devIdx : Nat) (calls : RegisterCalls) (held : Finset Resource) : Int × Finset Resource :=
  let err2 := release [.pts]
  let err3 := release [.mutex, .pts]
  let err4 := release [.condattr, .mutex, .pts]
  let err5 := release [.cond, .condattr, .mutex, .pts]
  let err6 := release [.rwlockattr, .cond, .condattr, .mutex, .pts]
  let err7 := release [.rwlock, .rwlockattr, .cond, .condattr, .mutex, .pts]
  let r := ptsopen calls.pts held
  let held := r.2
  if r.1 < 0 then (-1, held)
  else
    let held := acquire .mutex calls.mutexInit held
    if calls.mutexInit < 0 then (calls.mutexInit, err2 held)
    else
      let held := acquire .condattr calls.condattrInit held
      if calls.condattrInit < 0 then (calls.condattrInit, err3 held)
      else if calls.condattrSetclock < 0 then (calls.condattrSetclock, err4 held)
      else
        let held := acquire .cond calls.condInit held
        if calls.condInit < 0 then (calls.condInit, err4 held)
        else
          let held := acquire .rwlockattr calls.rwlockattrInit held
          if calls.rwlockattrInit < 0 then (calls.rwlockattrInit, err5 held)
          else
            let held := acquire .rwlock calls.rwlockInit held
            if calls.rwlockInit < 0 then (calls.rwlockInit, err6 held)
            else
              let r := devcomInitialize devNum devIdx calls held
              if r.1 < 0 then (r.1, err7 r.2) else (0, r.2)

/-- `task_start`. The attributes `task_startup` sets up and the thread it creates. -/
def taskStart (calls : RegisterCalls) (held : Finset Resource) : Int × Finset Resource :=
  let held := acquire .attr calls.thread.attrInit held
  (taskStartup calls.thread, if taskStartup calls.thread = 0 then insert .thread held else held)

/-- `cmdagent_register_device`, with what the call holds when it returns. -/
def registerDevice (agent : CmdagentInfo) (szdevip : Option String) (usport : UInt16) (calls : RegisterCalls) :
    Int × Finset Resource :=
  match szdevip with
  | none => (-1, ∅)
  | some szdevip =>
    if usport = 0 then (-1, ∅)
    else if (agent.find szdevip usport).isSome then (0, ∅)
    else if agent.devNum ≥ cmdagentMaxDevNum then (-1, ∅)
    else
      let r := taskInitialize agent.devNum agent.devNum calls ∅
      if r.1 < 0 then (-1, r.2)
      else
        let r := taskStart calls r.2
        if r.1 ≠ 0 then (-1, r.2) else (0, r.2)

/-! ## How a registration ends -/

end Registration

/-- Every step succeeds. -/
structure RegisterCalls.AllOk (calls : RegisterCalls) : Prop where
  pts : 0 ≤ (Registration.ptsopen calls.pts ∅).1
  mutexInit : calls.mutexInit = 0
  condattrInit : calls.condattrInit = 0
  condattrSetclock : calls.condattrSetclock = 0
  condInit : calls.condInit = 0
  rwlockattrInit : calls.rwlockattrInit = 0
  rwlockInit : calls.rwlockInit = 0
  devcomProc : calls.devcomProc = true
  devnetRwlockattrInit : calls.devnetRwlockattrInit = 0
  devnetRwlockInit : calls.devnetRwlockInit = 0
  dataBlob : calls.dataBlob = true
  eventBase : calls.eventBase = true
  thread : taskStartup calls.thread = 0

/-- `ptsopen` fails, or a pthread call of `task_initialize` returns a negative number. -/
def RegisterCalls.TaskFails (calls : RegisterCalls) : Prop :=
  (Registration.ptsopen calls.pts ∅).1 < 0 ∨ calls.mutexInit < 0 ∨ calls.condattrInit < 0 ∨
    calls.condattrSetclock < 0 ∨ calls.condInit < 0 ∨ calls.rwlockattrInit < 0 ∨ calls.rwlockInit < 0

instance (calls : RegisterCalls) : Decidable calls.TaskFails := inferInstanceAs (Decidable (_ ∨ _))

/-- It does not come to `devnet_initialize`. -/
def RegisterCalls.StopsEarly (calls : RegisterCalls) : Prop := calls.TaskFails ∨ calls.devcomProc = false

/-- How far the task comes. -/
def RegisterCalls.start (calls : RegisterCalls) : TaskStart :=
  if calls.TaskFails then .noTask
  else if !calls.devcomProc then .noProc
  else if (Registration.devnetInitialize calls ∅).1 < 0 then .noNet
  else if taskStartup calls.thread ≠ 0 then .noThread
  else .started

namespace Registration
variable {calls : RegisterCalls} {held : Finset Resource} {resource other : Resource} {rc : Int}
  {resources : List Resource}

theorem mem_release : resource ∈ release resources held ↔ resource ∈ held ∧ resource ∉ resources := by
  unfold release
  induction resources generalizing held with
  | nil => simp
  | cons first resources ih =>
    rw [List.foldl_cons, ih, Finset.mem_erase, List.mem_cons, not_or]
    constructor
    · rintro ⟨⟨hne, hheld⟩, hrest⟩
      exact ⟨hheld, hne, hrest⟩
    · rintro ⟨hheld, hne, hrest⟩
      exact ⟨⟨hne, hheld⟩, hrest⟩

theorem mem_acquire (h : resource ∈ held) : resource ∈ acquire other rc held := by
  unfold acquire
  split
  · exact Finset.mem_insert_of_mem h
  · exact h

/-- What failed has not been acquired. -/
theorem acquire_neg (h : rc < 0) : acquire resource rc held = held := if_neg (Int.ne_of_lt h)

/-- Only these are held. -/
def Within (resources : List Resource) (held : Finset Resource) : Prop := ∀ resource ∈ held, resource ∈ resources

theorem Within.acquire (h : Within resources held) (resource : Resource) (rc : Int) :
    Within (resource :: resources) (acquire resource rc held) := by
  intro other hmem
  unfold Registration.acquire at hmem
  split at hmem
  · rcases Finset.mem_insert.1 hmem with rfl | hmem
    · exact List.mem_cons_self
    · exact List.mem_cons_of_mem _ (h other hmem)
  · exact List.mem_cons_of_mem _ (h other hmem)

theorem Within.release_eq (h : Within resources held) : release resources held = ∅ := by
  apply Finset.eq_empty_of_forall_notMem
  intro resource hmem
  obtain ⟨hheld, hout⟩ := mem_release.1 hmem
  exact hout (h resource hheld)

theorem ptsopen_within (calls : PtsCalls) : Within [.pts] (ptsopen calls ∅).2 := by
  unfold ptsopen
  split
  · intro resource hmem
    rw [Finset.mem_insert] at hmem
    simpa using hmem
  · exact fun _ hmem => absurd hmem (Finset.notMem_empty _)

/-- What a device's link needs does not touch the `devcom_proc`. -/
theorem devnetInitialize_proc (h : .devcomProc ∈ held) : .devcomProc ∈ (devnetInitialize calls held).2 := by
  unfold devnetInitialize
  have hattr : .devcomProc ∈ acquire .devnetRwlockattr calls.devnetRwlockattrInit held := mem_acquire h
  have hlock : .devcomProc ∈ acquire .devnetRwlock calls.devnetRwlockInit
      (acquire .devnetRwlockattr calls.devnetRwlockattrInit held) := mem_acquire hattr
  dsimp only
  split
  · exact hattr
  split
  · exact mem_release.2 ⟨hlock, by decide⟩
  split
  · exact mem_release.2 ⟨hlock, by decide⟩
  split
  · exact mem_release.2 ⟨Finset.mem_insert_of_mem hlock, by decide⟩
  · exact Finset.mem_insert_of_mem (Finset.mem_insert_of_mem hlock)

theorem devnetInitialize_fst (calls : RegisterCalls) (held held' : Finset Resource) :
    (devnetInitialize calls held).1 = (devnetInitialize calls held').1 := by
  unfold devnetInitialize
  dsimp only
  repeat' split
  all_goals rfl

/-- How `task_initialize` ends: with nothing, or with a `devcom_proc`. -/
inductive Initialized (calls : RegisterCalls) : Int × Finset Resource → Prop
  | stopped (retval : Int) : retval < 0 → calls.StopsEarly → Initialized calls (retval, ∅)
  | netFailed (held : Finset Resource) : ¬ calls.StopsEarly → (devnetInitialize calls ∅).1 < 0 → .devcomProc ∈ held →
      Initialized calls (-1, held)
  | done (held : Finset Resource) : ¬ calls.StopsEarly → ¬ (devnetInitialize calls ∅).1 < 0 → .devcomProc ∈ held →
      Initialized calls (0, held)

theorem devcomInitialize_of (devNum : Nat) (calls : RegisterCalls) (held : Finset Resource) :
    devcomInitialize devNum devNum calls held =
      if calls.devcomProc = false then (-1, held)
      else if (devnetInitialize calls ∅).1 < 0 then (-1, (devnetInitialize calls (insert .devcomProc held)).2)
      else (0, (devnetInitialize calls (insert .devcomProc held)).2) := by
  unfold devcomInitialize
  rw [if_neg (Nat.lt_irrefl devNum)]
  dsimp only
  rw [devnetInitialize_fst calls (insert .devcomProc held) ∅]
  simp only [Bool.not_eq_true']

theorem ptsopen_fails (h : (ptsopen calls.pts ∅).1 < 0) : (ptsopen calls.pts ∅).2 = ∅ := by
  unfold ptsopen at h ⊢
  split
  · rename_i hall
    rw [if_pos hall] at h
    exact absurd hall.1 (Int.not_le.2 h)
  · rfl

theorem taskInitialize_of (devNum : Nat) (calls : RegisterCalls) :
    Initialized calls (taskInitialize devNum devNum calls ∅) := by
  unfold taskInitialize
  have hpts := ptsopen_within calls.pts
  dsimp only
  split
  · rename_i h
    rw [ptsopen_fails h]
    exact .stopped _ (by decide) (.inl (.inl h))
  rename_i hopen
  split
  · rename_i h
    rw [acquire_neg h, hpts.release_eq]
    exact .stopped _ h (.inl (.inr (.inl h)))
  rename_i hmutex
  have hpts := hpts.acquire .mutex calls.mutexInit
  split
  · rename_i h
    rw [acquire_neg h, hpts.release_eq]
    exact .stopped _ h (.inl (.inr (.inr (.inl h))))
  rename_i hcondattr
  have hpts := hpts.acquire .condattr calls.condattrInit
  split
  · rename_i h
    rw [hpts.release_eq]
    exact .stopped _ h (.inl (.inr (.inr (.inr (.inl h)))))
  rename_i hsetclock
  split
  · rename_i h
    rw [acquire_neg h, hpts.release_eq]
    exact .stopped _ h (.inl (.inr (.inr (.inr (.inr (.inl h))))))
  rename_i hcond
  have hpts := hpts.acquire .cond calls.condInit
  split
  · rename_i h
    rw [acquire_neg h, hpts.release_eq]
    exact .stopped _ h (.inl (.inr (.inr (.inr (.inr (.inr (.inl h)))))))
  rename_i hattr
  have hpts := hpts.acquire .rwlockattr calls.rwlockattrInit
  split
  · rename_i h
    rw [acquire_neg h, hpts.release_eq]
    exact .stopped _ h (.inl (.inr (.inr (.inr (.inr (.inr (.inr h)))))))
  rename_i hlock
  have hpts := hpts.acquire .rwlock calls.rwlockInit
  have hgood : ¬ calls.TaskFails := by
    rintro (h | h | h | h | h | h | h) <;> contradiction
  have minus : (-1 : Int) < 0 := by decide
  generalize acquire .rwlock calls.rwlockInit _ = held at hpts
  rw [devcomInitialize_of]
  by_cases hproc : calls.devcomProc = false
  · rw [if_pos hproc, if_pos minus, hpts.release_eq]
    exact .stopped _ minus (.inr hproc)
  · have hlate : ¬ calls.StopsEarly := not_or.2 ⟨hgood, hproc⟩
    have hmem : .devcomProc ∈ (devnetInitialize calls (insert .devcomProc held)).2 :=
      devnetInitialize_proc (Finset.mem_insert_self _ _)
    rw [if_neg hproc]
    by_cases hnet : (devnetInitialize calls ∅).1 < 0
    · rw [if_pos hnet, if_pos minus]
      exact .netFailed _ hlate hnet (mem_release.2 ⟨hmem, by decide⟩)
    · rw [if_neg hnet, if_neg (Int.lt_irrefl 0)]
      exact .done _ hlate hnet hmem

/-- The call comes to `task_initialize`. -/
def Tries (agent : CmdagentInfo) (szdevip : Option String) (usport : UInt16) : Prop :=
  ∃ ip ∈ szdevip, usport ≠ 0 ∧ agent.find ip usport = none ∧ agent.devNum < cmdagentMaxDevNum

/-- It comes there, and a step fails. -/
def StepFails (agent : CmdagentInfo) (szdevip : Option String) (usport : UInt16) (calls : RegisterCalls) : Prop :=
  Tries agent szdevip usport ∧ ¬ calls.AllOk

/-- A negative result, and nothing acquired is still held. -/
def FailsCleanly (r : Int × Finset Resource) : Prop := r.1 < 0 ∧ r.2 = ∅

/-- What becomes of a call that comes to `task_initialize`. -/
inductive Registered (calls : RegisterCalls) : Int × Finset Resource → Prop
  | stopped : calls.StopsEarly → Registered calls (-1, ∅)
  | left (held : Finset Resource) : ¬ calls.StopsEarly → calls.start ≠ .started → .devcomProc ∈ held →
      Registered calls (-1, held)
  | done (held : Finset Resource) : ¬ calls.StopsEarly → calls.start = .started → .devcomProc ∈ held →
      Registered calls (0, held)

variable {agent : CmdagentInfo} {szdevip : Option String} {usport : UInt16}

theorem registerDevice_eq (h : Tries agent szdevip usport) : registerDevice agent szdevip usport calls =
    let r := taskInitialize agent.devNum agent.devNum calls ∅
    if r.1 < 0 then (-1, r.2)
    else if (taskStart calls r.2).1 ≠ 0 then (-1, (taskStart calls r.2).2) else (0, (taskStart calls r.2).2) := by
  obtain ⟨ip, rfl, hport, hnew, hroom⟩ := h
  unfold registerDevice
  dsimp only
  rw [if_neg hport, hnew, if_neg (by simp), if_neg (Nat.not_le.2 hroom)]

theorem taskStart_proc (h : .devcomProc ∈ held) : .devcomProc ∈ (taskStart calls held).2 := by
  unfold taskStart
  dsimp only
  split
  · exact Finset.mem_insert_of_mem (mem_acquire h)
  · exact mem_acquire h

theorem registerDevice_of (h : Tries agent szdevip usport) (calls : RegisterCalls) :
    Registered calls (registerDevice agent szdevip usport calls) := by
  rw [registerDevice_eq h]
  have hinit := taskInitialize_of agent.devNum calls
  generalize taskInitialize agent.devNum agent.devNum calls ∅ = r at hinit
  dsimp only
  cases hinit with
  | stopped retval hneg hearly =>
    rw [if_pos hneg]
    exact .stopped hearly
  | netFailed held hlate hnet hmem =>
    rw [if_pos (show (-1 : Int) < 0 by decide)]
    refine .left held hlate ?_ hmem
    unfold RegisterCalls.start
    rw [if_neg (not_or.1 hlate).1, if_neg (by simpa using (not_or.1 hlate).2), if_pos hnet]
    decide
  | done held hlate hnet hmem =>
    rw [if_neg (Int.lt_irrefl 0)]
    have hstart : calls.start = if taskStartup calls.thread ≠ 0 then .noThread else .started := by
      unfold RegisterCalls.start
      rw [if_neg (not_or.1 hlate).1, if_neg (by simpa using (not_or.1 hlate).2), if_neg hnet]
    by_cases hthread : taskStartup calls.thread ≠ 0
    · rw [if_pos (show (taskStart calls held).1 ≠ 0 from hthread)]
      refine .left _ hlate ?_ (taskStart_proc hmem)
      rw [hstart, if_pos hthread]
      decide
    · rw [if_neg (show ¬ (taskStart calls held).1 ≠ 0 from hthread)]
      refine .done _ hlate ?_ (taskStart_proc hmem)
      rw [hstart, if_neg hthread]

/-- A failure leaves nothing exactly if it comes before the `devcom_proc` is made. -/
theorem failsCleanly_iff (h : Tries agent szdevip usport) (calls : RegisterCalls) :
    FailsCleanly (registerDevice agent szdevip usport calls) ↔ calls.StopsEarly := by
  have hof := registerDevice_of h calls
  generalize registerDevice agent szdevip usport calls = r at hof
  have hfull : ∀ held : Finset Resource, .devcomProc ∈ held → held ≠ ∅ := by
    rintro held hmem rfl
    exact Finset.notMem_empty _ hmem
  cases hof with
  | stopped hearly => exact ⟨fun _ => hearly, fun _ => ⟨show (-1 : Int) < 0 by decide, rfl⟩⟩
  | left held hlate _ hmem => exact ⟨fun hc => absurd hc.2 (hfull held hmem), fun hearly => absurd hearly hlate⟩
  | done held hlate _ hmem => exact ⟨fun hc => absurd hc.2 (hfull held hmem), fun hearly => absurd hearly hlate⟩

/-! ## The agent -/

theorem early_start (h : calls.StopsEarly) : calls.start ≠ .started := by
  unfold RegisterCalls.start
  rcases h with h | h
  · rw [if_pos h]
    decide
  · by_cases htask : calls.TaskFails
    · rw [if_pos htask]
      decide
    · rw [if_neg htask, if_pos (by simpa using h)]
      decide

theorem not_tries {r : Int × CmdagentInfo} (h : Registering agent szdevip usport calls.start r)
    (htries : ¬ Tries agent szdevip usport) : r.2 = agent ∧ registerDevice agent szdevip usport calls = (r.1, ∅) := by
  unfold registerDevice
  cases h with
  | refused href =>
    refine ⟨rfl, ?_⟩
    rcases href with rfl | rfl
    · rfl
    · cases szdevip <;> rfl
  | known ip idx hip hport hpair =>
    subst hip
    refine ⟨rfl, ?_⟩
    dsimp only
    rw [if_neg hport, if_pos (find_isSome hpair)]
  | full ip hip hport hnew hfull =>
    subst hip
    refine ⟨rfl, ?_⟩
    dsimp only
    rw [if_neg hport, find_eq_none.2 hnew, if_neg (by simp), if_pos hfull]
  | failed ip _ hip hport hnew hroom => exact absurd ⟨ip, hip, hport, find_eq_none.2 hnew, hroom⟩ htries
  | added ip _ hip hport hnew hroom => exact absurd ⟨ip, hip, hport, find_eq_none.2 hnew, hroom⟩ htries

/-- What becomes of the table in a call that comes to `task_initialize`. -/
theorem tries_cases {r : Int × CmdagentInfo} (h : Registering agent szdevip usport calls.start r)
    (htries : Tries agent szdevip usport) :
    (calls.start ≠ .started ∧ r.1 = -1 ∧ r.2.devNum = agent.devNum) ∨
      (calls.start = .started ∧ r.1 = 0 ∧ r.2.devNum = agent.devNum + 1) := by
  obtain ⟨ip, rfl, hport, hnew, hroom⟩ := htries
  cases h with
  | refused href => rcases href with href | href <;> contradiction
  | known _ idx hip _ hpair =>
    cases hip
    exact absurd hpair (find_eq_none.1 hnew idx)
  | full _ _ _ _ hfull => exact absurd hroom (Nat.not_lt.2 hfull)
  | failed _ _ _ _ _ _ hstart hg => exact .inl ⟨hstart, rfl, hg.devNum⟩
  | added _ _ _ _ _ _ hstart hg => exact .inr ⟨hstart, rfl, congrArg (· + 1) hg.devNum⟩

/-! ## Retrying -/

/-- What a registered device holds. -/
def deviceResources : Finset Resource :=
  {.pts, .mutex, .condattr, .cond, .rwlockattr, .rwlock, .devcomProc, .devnetRwlockattr, .devnetRwlock, .dataBlob,
    .eventBase, .attr, .thread}

theorem ptsopen_ok (h : 0 ≤ (ptsopen calls.pts ∅).1) : (ptsopen calls.pts ∅).2 = {.pts} := by
  unfold ptsopen at h ⊢
  split
  · rfl
  · rename_i hall
    rw [if_neg hall] at h
    exact absurd h (by decide)

theorem allOk_start (h : calls.AllOk) : calls.start = .started := by
  have hnet : ¬ (devnetInitialize calls ∅).1 < 0 := by
    simp [devnetInitialize, h.devnetRwlockattrInit, h.devnetRwlockInit, h.dataBlob, h.eventBase]
  unfold RegisterCalls.start
  rw [if_neg, if_neg (by simp [h.devcomProc]), if_neg hnet, if_neg (by simp [h.thread])]
  rintro (hneg | hneg | hneg | hneg | hneg | hneg | hneg)
  · exact absurd h.pts (Int.not_le.2 hneg)
  · exact Int.ne_of_lt hneg h.mutexInit
  · exact Int.ne_of_lt hneg h.condattrInit
  · exact Int.ne_of_lt hneg h.condattrSetclock
  · exact Int.ne_of_lt hneg h.condInit
  · exact Int.ne_of_lt hneg h.rwlockattrInit
  · exact Int.ne_of_lt hneg h.rwlockInit

theorem allOk_attrInit (h : taskStartup calls.thread = 0) : calls.thread.attrInit = 0 := by
  unfold taskStartup at h
  by_contra hne
  rw [if_pos hne] at h
  cases h

theorem registerDevice_allOk (h : Tries agent szdevip usport) (hok : calls.AllOk) :
    registerDevice agent szdevip usport calls = (0, deviceResources) := by
  have hinit : taskInitialize agent.devNum agent.devNum calls ∅ =
      (0, (deviceResources.erase .attr).erase .thread) := by
    unfold taskInitialize
    dsimp only
    rw [if_neg (Int.not_lt.2 hok.pts), ptsopen_ok hok.pts, hok.mutexInit, hok.condattrInit, hok.condattrSetclock,
      hok.condInit, hok.rwlockattrInit, hok.rwlockInit]
    simp only [devcomInitialize, devnetInitialize, hok.devcomProc, hok.devnetRwlockattrInit, hok.devnetRwlockInit,
      hok.dataBlob, hok.eventBase, Nat.lt_irrefl, gt_iff_lt, if_false, Bool.not_true, Int.lt_irrefl]
    decide
  rw [registerDevice_eq h, hinit]
  simp only [taskStart, hok.thread, allOk_attrInit hok.thread]
  decide

/-- The agent, and for each call that has returned holding something what it holds. -/
structure Holding where
  agent : CmdagentInfo
  held : List (Finset Resource)

structure Attempt where
  szdevip : Option String
  usport : UInt16
  calls : RegisterCalls

def Holding.step (s : Holding) (a : Attempt) : Option Holding :=
  (s.agent.step (.registerDevice a.szdevip a.usport a.calls.start)).map fun agent =>
    let left := (registerDevice s.agent a.szdevip a.usport a.calls).2
    ⟨agent, if left = ∅ then s.held else s.held ++ [left]⟩

/-- A step that fails comes before the `devcom_proc` is made. -/
def Holding.Early (s : Holding) (a : Attempt) : Prop :=
  StepFails s.agent a.szdevip a.usport a.calls → a.calls.StopsEarly

theorem step_held {s t : Holding} {a : Attempt} (hearly : s.Early a) (h : s.step a = some t) :
    (t.agent.devNum = s.agent.devNum ∧ t.held = s.held) ∨
      (t.agent.devNum = s.agent.devNum + 1 ∧ t.held = s.held ++ [deviceResources]) := by
  obtain ⟨agent, hagent, rfl⟩ := Option.map_eq_some_iff.1 h
  obtain ⟨szdevip, usport, calls⟩ := a
  have hr := registering_of s.agent szdevip usport calls.start
  have hagent : (s.agent.registerDevice szdevip usport calls.start).2 = agent := by
    unfold CmdagentInfo.step at hagent
    dsimp only at hagent
    split at hagent
    · exact Option.some.inj hagent
    · cases hagent
  dsimp only
  by_cases htries : Tries s.agent szdevip usport
  · have hcases := tries_cases hr htries
    rw [hagent] at hcases
    by_cases hok : calls.AllOk
    · right
      rw [registerDevice_allOk htries hok, if_neg (by decide)]
      rcases hcases with ⟨hstart, -⟩ | ⟨-, -, hnum⟩
      · exact absurd (allOk_start hok) hstart
      · exact ⟨hnum, rfl⟩
    · left
      have hstops := hearly ⟨htries, hok⟩
      rw [((failsCleanly_iff htries calls).2 hstops).2, if_pos rfl]
      rcases hcases with ⟨-, -, hnum⟩ | ⟨hstart, -⟩
      · exact ⟨hnum, rfl⟩
      · exact absurd hstart (early_start hstops)
  · left
    obtain ⟨hsame, hleft⟩ := not_tries hr htries
    rw [hleft, if_pos rfl, ← hagent, hsame]
    exact ⟨rfl, rfl⟩

/-- The calls of a run acquire what the devices registered in it hold. -/
theorem run_held {s t : Holding} {attempts : List Attempt} (hearly : Along Holding.step Holding.Early s attempts)
    (h : exec Holding.step s attempts = some t) :
    ∃ n, t.agent.devNum = s.agent.devNum + n ∧ t.held = s.held ++ List.replicate n deviceResources := by
  refine exec_inv (I := fun u => ∃ n, u.agent.devNum = s.agent.devNum + n ∧
    u.held = s.held ++ List.replicate n deviceResources) ?_ ⟨0, rfl, (List.append_nil _).symm⟩ hearly h
  rintro u a v ⟨n, hnum, hheld⟩ hu hv
  rcases step_held hu hv with ⟨hnum', hheld'⟩ | ⟨hnum', hheld'⟩
  · exact ⟨n, hnum'.trans hnum, hheld'.trans hheld⟩
  · refine ⟨n + 1, by omega, ?_⟩
    rw [hheld', hheld, List.replicate_succ', List.append_assoc]

/-- A call in which a step fails returns a negative value and leaves nothing behind exactly
if the failure comes before the `devcom_proc` is made. Calls that fail so may be repeated:
what is held is what the registered devices hold. -/
theorem registerDevice_all_or_nothing (s : Holding) (a : Attempt) :
    (StepFails s.agent a.szdevip a.usport a.calls →
      (FailsCleanly (registerDevice s.agent a.szdevip a.usport a.calls) ↔ a.calls.StopsEarly)) ∧
    ∀ attempts t, Along Holding.step Holding.Early s attempts → exec Holding.step s attempts = some t →
      ∃ n, t.agent.devNum = s.agent.devNum + n ∧ t.held = s.held ++ List.replicate n deviceResources :=
  ⟨fun h => failsCleanly_iff h.1 a.calls, fun _ _ hearly h => run_held hearly h⟩

/-! Everything succeeds, and three failures. -/

def allOk : RegisterCalls where
  pts := ⟨3, 0, 0, 0, 0, 0, 0, true, 0⟩
  mutexInit := 0
  condattrInit := 0
  condattrSetclock := 0
  condInit := 0
  rwlockattrInit := 0
  rwlockInit := 0
  devcomProc := true
  devnetRwlockattrInit := 0
  devnetRwlockInit := 0
  dataBlob := true
  eventBase := true
  thread := ⟨0, 0, 0, 0, 0⟩

theorem tries_startup : Tries CmdagentInfo.startup (some "127.0.0.1") 7777 :=
  ⟨_, rfl, by decide, by decide +kernel, by decide⟩

theorem allOk_allOk : allOk.AllOk := by constructor <;> decide

/-- Twice there is no memory for the `devcom_proc`, then everything succeeds. -/
def retried : List Attempt :=
  [⟨some "127.0.0.1", 7777, { allOk with devcomProc := false }⟩,
    ⟨some "127.0.0.1", 7777, { allOk with devcomProc := false }⟩, ⟨some "127.0.0.1", 7777, allOk⟩]

theorem registerDevice_all_or_nothing_retried :
    FailsCleanly (registerDevice CmdagentInfo.startup (some "127.0.0.1") 7777 { allOk with devcomProc := false }) ∧
      ∃ t n, exec Holding.step ⟨CmdagentInfo.startup, []⟩ retried = some t ∧
        t.agent.devNum = 0 + n ∧ t.held = [] ++ List.replicate n deviceResources := by
  constructor
  · have hiff := (registerDevice_all_or_nothing ⟨CmdagentInfo.startup, []⟩
      ⟨some "127.0.0.1", 7777, { allOk with devcomProc := false }⟩).1 ⟨tries_startup, fun h => by cases h.devcomProc⟩
    exact hiff.2 (.inr rfl)
  · have hsome : (exec Holding.step ⟨CmdagentInfo.startup, []⟩ retried).isSome := by decide +kernel
    have hearly : Along Holding.step Holding.Early ⟨CmdagentInfo.startup, []⟩ retried := by
      refine ⟨fun _ => .inr rfl, fun _ _ => ⟨fun _ => .inr rfl, fun _ _ => ⟨fun h => ?_, fun _ _ => trivial⟩⟩⟩
      exact absurd allOk_allOk h.2
    obtain ⟨t, ht⟩ := Option.isSome_iff_exists.1 hsome
    obtain ⟨n, hn⟩ := (registerDevice_all_or_nothing ⟨CmdagentInfo.startup, []⟩ ⟨none, 0, allOk⟩).2 _ t hearly ht
    exact ⟨t, n, ht, hn⟩

/-- A failing step behind which something is left. -/
def Leaves (calls : RegisterCalls) (r : Int × Finset Resource) : Prop :=
  StepFails CmdagentInfo.startup (some "127.0.0.1") 7777 calls ∧
    registerDevice CmdagentInfo.startup (some "127.0.0.1") 7777 calls = r ∧ ¬ FailsCleanly r

/-- Without a mutex the registration succeeds; without an event base the `devcom_proc` is
left, and without a thread all there is. -/
theorem registerDevice_leaves :
    Leaves { allOk with mutexInit := 12 } (0, deviceResources.erase .mutex) ∧
      Leaves { allOk with eventBase := false } (-1, {.devcomProc}) ∧
      Leaves { allOk with thread := ⟨0, 0, 0, 0, 11⟩ } (-1, deviceResources.erase .thread) := by
  refine ⟨⟨⟨tries_startup, fun h => ?_⟩, by decide +kernel, fun h => ?_⟩,
    ⟨⟨tries_startup, fun h => ?_⟩, by decide +kernel, fun h => ?_⟩,
    ⟨⟨tries_startup, fun h => ?_⟩, by decide +kernel, fun h => ?_⟩⟩
  · exact absurd h.mutexInit (by decide)
  · exact absurd h.2 (by decide)
  · exact absurd h.eventBase (by decide)
  · exact absurd h.2 (by decide)
  · exact absurd h.thread (by decide)
  · exact absurd h.2 (by decide)

end Registration

end CmdAgent
