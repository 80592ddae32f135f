import Mathlib.Logic.Function.Basic
import CmdAgent.StreamLib.Runs
/-!
# Timed waits on a condition variable

A waiter tests a condition under the mutex and blocks until its deadline while the
condition holds; a round later the deadline is one period further. Each section under
the mutex is one step. What is shared, the tests, and what else is done to the shared
state are parameters.
-/

namespace StreamLib.Condvar
open StreamLib.Runs

/-- The waits on one condition variable. -/
structure Monitor (σ ι ε τ : Type) where
  /-- The time in some unit. -/
  ns : τ → Int
  period : Int
  next : τ → τ
  ns_next : ∀ ts, ns (next ts) = ns ts + period
  /-- The waiter may come at this time. -/
  ready : ι → τ → Bool
  ready_mono : ∀ i t u, ns t ≤ ns u → ready i t = true → ready i u = true
  /-- The waiter's condition to block. -/
  again : ι → τ → σ → Bool
  /-- What it does to the shared state when it leaves. -/
  leave : ι → σ → σ
  act : ε → σ → σ
  broadcasts : ε → Bool

/-- Where a waiter is. -/
inductive WaitPhase (τ : Type)
  | out
  /-- In the timed wait. -/
  | blocked (ts : τ)
  /-- The timed wait is over and the mutex is not taken yet. -/
  | woken (ts : τ) (signalled : Bool)

/-- What the mutex guards, the time, and where each waiter is. -/
structure State (σ ι τ : Type) where
  shared : σ
  now : τ
  phase : ι → WaitPhase τ
  /-- Who has left, with the shared state it has found. -/
  left : List (ι × σ)

/-- What a waiter, the clock or another thread does. -/
inductive WaitEv (ι ε τ : Type)
  | enter (i : ι)
  /-- The deadline has come. -/
  | timeout (i : ι)
  /-- A wake-up without a broadcast. -/
  | spurious (i : ι)
  /-- A woken waiter takes the mutex. -/
  | resume (i : ι)
  | act (e : ε)
  /-- The clock goes on. -/
  | pass (t : τ)

/-- A broadcast, to one waiter. -/
def WaitPhase.signal {τ : Type} : WaitPhase τ → WaitPhase τ
  | .blocked ts => .woken ts true
  | phase => phase

variable {σ ι ε τ : Type} [DecidableEq ι] (m : Monitor σ ι ε τ)

def State.setPhase (s : State σ ι τ) (i : ι) (phase : WaitPhase τ) : State σ ι τ :=
  { s with phase := Function.update s.phase i phase }

/-- The waiter leaves. -/
def leaves (s : State σ ι τ) (i : ι) : State σ ι τ :=
  { s.setPhase i .out with shared := m.leave i s.shared, left := s.left ++ [(i, s.shared)] }

/-- `none` where it cannot happen. -/
def step (s : State σ ι τ) : WaitEv ι ε τ → Option (State σ ι τ)
  | .enter i =>
    match s.phase i with
    | .out =>
      if m.ready i s.now then
        some (if m.again i s.now s.shared then s.setPhase i (.blocked (m.next s.now)) else leaves m s i)
      else none
    | _ => none
  | .timeout i =>
    match s.phase i with
    | .blocked ts => if m.ns ts ≤ m.ns s.now then some (s.setPhase i (.woken ts false)) else none
    | _ => none
  | .spurious i =>
    match s.phase i with
    | .blocked ts => some (s.setPhase i (.woken ts true))
    | _ => none
  | .resume i =>
    match s.phase i with
    | .woken ts signalled =>
      some (if !signalled && m.again i s.now s.shared then s.setPhase i (.blocked (m.next ts)) else leaves m s i)
    | _ => none
  | .act e =>
    some { s with
      shared := m.act e s.shared
      phase := if m.broadcasts e then fun i => (s.phase i).signal else s.phase }
  | .pass t => if m.ns s.now ≤ m.ns t then some { s with now := t } else none

/-- What a step does. -/
inductive Steps (s : State σ ι τ) : WaitEv ι ε τ → State σ ι τ → Prop
  | block (i : ι) : s.phase i = .out → m.ready i s.now = true → m.again i s.now s.shared = true →
      Steps s (.enter i) (s.setPhase i (.blocked (m.next s.now)))
  | through (i : ι) : s.phase i = .out → m.ready i s.now = true → m.again i s.now s.shared = false →
      Steps s (.enter i) (leaves m s i)
  | timeout (i : ι) (ts : τ) : s.phase i = .blocked ts → m.ns ts ≤ m.ns s.now →
      Steps s (.timeout i) (s.setPhase i (.woken ts false))
  | spurious (i : ι) (ts : τ) : s.phase i = .blocked ts → Steps s (.spurious i) (s.setPhase i (.woken ts true))
  | again (i : ι) (ts : τ) : s.phase i = .woken ts false → m.again i s.now s.shared = true →
      Steps s (.resume i) (s.setPhase i (.blocked (m.next ts)))
  | leave (i : ι) (ts : τ) (signalled : Bool) : s.phase i = .woken ts signalled →
      (signalled = true ∨ m.again i s.now s.shared = false) → Steps s (.resume i) (leaves m s i)
  | act (e : ε) : Steps s (.act e) { s with
      shared := m.act e s.shared
      phase := if m.broadcasts e then fun i => (s.phase i).signal else s.phase }
  | pass (t : τ) : m.ns s.now ≤ m.ns t → Steps s (.pass t) { s with now := t }

variable {m} {s t : State σ ι τ} {ev : WaitEv ι ε τ} {evs : List (WaitEv ι ε τ)} {i j : ι} {ts : τ}

theorem steps_of (h : step m s ev = some t) : Steps m s ev t := by
  cases ev with
  | enter i =>
    dsimp only [step] at h
    split at h
    · rename_i hout
      split at h
      · rename_i hready
        cases h
        by_cases hagain : m.again i s.now s.shared = true
        · rw [if_pos hagain]
          exact .block i hout hready hagain
        · rw [if_neg hagain]
          exact .through i hout hready (Bool.eq_false_iff.2 hagain)
      · cases h
    · cases h
  | timeout i =>
    dsimp only [step] at h
    split at h
    · rename_i ts hblocked
      split at h
      · rename_i hle
        cases h
        exact .timeout i ts hblocked hle
      · cases h
    · cases h
  | spurious i =>
    dsimp only [step] at h
    split at h
    · rename_i ts hblocked
      cases h
      exact .spurious i ts hblocked
    · cases h
  | resume i =>
    dsimp only [step] at h
    split at h
    · rename_i ts signalled hwoken
      cases h
      cases signalled with
      | true => exact .leave i ts true hwoken (.inl rfl)
      | false =>
        by_cases hagain : m.again i s.now s.shared = true
        · rw [hagain]
          exact .again i ts hwoken hagain
        · rw [Bool.eq_false_iff.2 hagain]
          exact .leave i ts false hwoken (.inr (Bool.eq_false_iff.2 hagain))
    · cases h
  | act e =>
    cases h
    exact .act e
  | pass t =>
    dsimp only [step] at h
    split at h
    · rename_i hle
      cases h
      exact .pass t hle
    · cases h

@[simp] theorem setPhase_same (s : State σ ι τ) (i : ι) (phase : WaitPhase τ) : (s.setPhase i phase).phase i = phase :=
  Function.update_self ..

@[simp] theorem setPhase_of_ne (s : State σ ι τ) (phase : WaitPhase τ) (h : j ≠ i) :
    (s.setPhase i phase).phase j = s.phase j := Function.update_of_ne h ..

@[simp] theorem leaves_same (s : State σ ι τ) (i : ι) : (leaves m s i).phase i = .out := Function.update_self ..

@[simp] theorem leaves_of_ne (s : State σ ι τ) (h : j ≠ i) : (leaves m s i).phase j = s.phase j :=
  Function.update_of_ne h ..

/-! ## Deadlines -/

/-- A deadline is one period behind a test at which the waiter had to block, and who has
timed out has had its deadline. -/
structure Tested (m : Monitor σ ι ε τ) (s : State σ ι τ) : Prop where
  blocked : ∀ i ts, s.phase i = .blocked ts → ∃ t x, m.ready i t = true ∧ m.again i t x = true ∧ m.ns t ≤ m.ns s.now ∧
    m.ns ts ≤ m.ns t + m.period
  woken : ∀ i ts, s.phase i = .woken ts false → m.ns ts ≤ m.ns s.now
  ready : ∀ i, s.phase i ≠ .out → m.ready i s.now = true

theorem Tested.setPhase {phase : WaitPhase τ} (h : Tested m s) (hready : phase ≠ .out → m.ready i s.now = true)
    (hblocked : ∀ ts, phase = .blocked ts → ∃ t x, m.ready i t = true ∧ m.again i t x = true ∧ m.ns t ≤ m.ns s.now ∧
      m.ns ts ≤ m.ns t + m.period)
    (hwoken : ∀ ts, phase = .woken ts false → m.ns ts ≤ m.ns s.now) : Tested m (s.setPhase i phase) := by
  constructor
  · intro j ts hj
    by_cases he : j = i
    · subst he
      rw [setPhase_same] at hj
      exact hblocked ts hj
    · rw [setPhase_of_ne s phase he] at hj
      exact h.blocked j ts hj
  · intro j ts hj
    by_cases he : j = i
    · subst he
      rw [setPhase_same] at hj
      exact hwoken ts hj
    · rw [setPhase_of_ne s phase he] at hj
      exact h.woken j ts hj
  · intro j hj
    by_cases he : j = i
    · subst he
      rw [setPhase_same] at hj
      exact hready hj
    · rw [setPhase_of_ne s phase he] at hj
      exact h.ready j hj

omit [DecidableEq ι] in
/-- Only the phases and the clock count. -/
theorem Tested.congr (h : Tested m s) (hphase : t.phase = s.phase) (hnow : m.ns s.now ≤ m.ns t.now) : Tested m t := by
  constructor
  · intro j ts hj
    rw [hphase] at hj
    obtain ⟨u, x, hready, hagain, hle, hts⟩ := h.blocked j ts hj
    exact ⟨u, x, hready, hagain, Int.le_trans hle hnow, hts⟩
  · intro j ts hj
    rw [hphase] at hj
    exact Int.le_trans (h.woken j ts hj) hnow
  · intro j hj
    rw [hphase] at hj
    exact m.ready_mono j _ _ hnow (h.ready j hj)

theorem Tested.leaves (h : Tested m s) (i : ι) : Tested m (leaves m s i) := by
  have hout : Tested m (s.setPhase i .out) := h.setPhase (fun hne => absurd rfl hne) nofun nofun
  exact hout.congr rfl (Int.le_refl _)

omit [DecidableEq ι] in
theorem Tested.signal (h : Tested m s) : Tested m { s with phase := fun i => (s.phase i).signal } := by
  constructor
  · intro j ts hj
    change (s.phase j).signal = _ at hj
    cases hp : s.phase j <;> rw [hp] at hj <;> cases hj
  · intro j ts hj
    change (s.phase j).signal = _ at hj
    cases hp : s.phase j <;> rw [hp] at hj <;> cases hj
    exact h.woken j ts hp
  · intro j hj
    refine h.ready j fun hout => hj ?_
    change (s.phase j).signal = _
    rw [hout]
    rfl

theorem Tested.step (h : Tested m s) (hst : step m s ev = some t) : Tested m t := by
  cases steps_of hst with
  | block i hout hready hagain =>
    refine h.setPhase (fun _ => hready) ?_ nofun
    rintro ts ⟨⟩
    exact ⟨s.now, s.shared, hready, hagain, Int.le_refl _, Int.le_of_eq (m.ns_next _)⟩
  | through i => exact h.leaves i
  | timeout i ts hblocked hle =>
    refine h.setPhase (fun _ => h.ready i (by rw [hblocked]; nofun)) nofun ?_
    rintro ts' ⟨⟩
    exact hle
  | spurious i ts hblocked => exact h.setPhase (fun _ => h.ready i (by rw [hblocked]; nofun)) nofun nofun
  | again i ts hwoken hagain =>
    have hready := h.ready i (by rw [hwoken]; nofun)
    refine h.setPhase (fun _ => hready) ?_ nofun
    rintro ts' ⟨⟩
    refine ⟨s.now, s.shared, hready, hagain, Int.le_refl _, ?_⟩
    rw [m.ns_next]
    exact Int.add_le_add_right (h.woken i ts hwoken) _
  | leave i => exact h.leaves i
  | act e =>
    by_cases hb : m.broadcasts e = true
    · rw [if_pos hb]
      exact h.signal.congr rfl (Int.le_refl _)
    · rw [if_neg hb]
      exact h.congr rfl (Int.le_refl _)
  | pass t hle => exact h.congr rfl hle

theorem Tested.run (h : Tested m s) (hrun : exec (Condvar.step m) s evs = some t) : Tested m t :=
  exec_inv_all (fun _ _ _ hs hst => Tested.step hs hst) h hrun

/-! ## Broadcasts -/

/-- Who blocks when a broadcast comes has been signalled. -/
theorem signalled_of_broadcast {e : ε} (hst : step m s (.act e) = some t) (hb : m.broadcasts e = true)
    (h : s.phase i = .blocked ts) : t.phase i = .woken ts true := by
  cases hst
  rw [if_pos hb]
  change (s.phase i).signal = _
  rw [h]
  rfl

/-- Nothing but its own step moves a waiter that has been signalled. -/
theorem signalled_step (hst : step m s ev = some t) (h : s.phase i = .woken ts true) (hne : ev ≠ .resume i) :
    t.phase i = .woken ts true := by
  have hother : ∀ {j : ι} {phase : WaitPhase τ}, s.phase j = phase → phase ≠ .woken ts true → i ≠ j := by
    rintro j phase hj hphase rfl
    exact hphase (hj.symm.trans h)
  cases steps_of hst with
  | block j hout =>
    rw [setPhase_of_ne _ _ (hother hout nofun)]
    exact h
  | through j hout =>
    rw [leaves_of_ne _ (hother hout nofun)]
    exact h
  | timeout j _ hblocked =>
    rw [setPhase_of_ne _ _ (hother hblocked nofun)]
    exact h
  | spurious j _ hblocked =>
    rw [setPhase_of_ne _ _ (hother hblocked nofun)]
    exact h
  | again j _ hwoken =>
    rw [setPhase_of_ne _ _ (hother hwoken nofun)]
    exact h
  | leave j =>
    rw [leaves_of_ne _ fun he => hne (by rw [he])]
    exact h
  | act e =>
    change (if m.broadcasts e then fun i => (s.phase i).signal else s.phase) i = _
    split
    · change (s.phase i).signal = _
      rw [h]
      rfl
    · exact h
  | pass => exact h

theorem signalled_run (hrun : exec (step m) s evs = some t) (h : s.phase i = .woken ts true)
    (hne : .resume i ∉ evs) : t.phase i = .woken ts true := by
  induction evs generalizing s with
  | nil =>
    cases hrun
    exact h
  | cons ev evs ih =>
    obtain ⟨u, hu, hrun⟩ := exec_cons_eq_some.1 hrun
    rw [List.mem_cons, not_or] at hne
    exact ih hrun (signalled_step hu h fun he => hne.1 he.symm) hne.2

/-- Its own step lets it out. -/
theorem resume_signalled (h : s.phase i = .woken ts true) : step m s (.resume i) = some (leaves m s i) := by
  simp [step, h]

/-- A waiter whose condition to block does not hold leaves with its next step. -/
theorem resume_of_not_again (h : m.again i s.now s.shared = false) (hst : step m s (.resume i) = some t) :
    t.phase i = .out := by
  cases steps_of hst with
  | again _ _ _ hagain => exact absurd (hagain.symm.trans h) (by decide)
  | leave => exact leaves_same s i

end StreamLib.Condvar
