import CmdAgent.StreamLib.Scan
import CmdAgent.Pool
/-!
# Which commands time out

`wrbuf_used_list` is in the order of the times of the writes, so `netcom_timeoutcb`
may stop at the first entry that is young enough. `l0001_timespecelapsed` divides the
difference of the nanoseconds as an `unsigned long`: where it is negative the count of
milliseconds is about `1.8 * 10 ^ 13`.
-/
open StreamLib.Runs StreamLib.Scan

namespace CmdAgent

variable {α : Type} {env : Env}

/-! ## Times -/

/-- A time in nanoseconds. -/
def Timespec.ns (ts : Timespec) : Int := ts.tvSec * 1000000000 + ts.tvNsec

def Timespec.Normal (ts : Timespec) : Prop := 0 ≤ ts.tvNsec ∧ ts.tvNsec < 1000000000

/-- At `now`, more than `L0006_NETCOM_TIMEOUT_PERIOD_MS` milliseconds have passed. -/
def isOld (now ts : Timespec) : Bool := l0006NetcomTimeoutPeriodMs * 1000000 < now.ns - ts.ns

/-- The nanoseconds of `now` are fewer. -/
def Borrows (now ts : Timespec) : Prop := now.tvNsec < ts.tvNsec

/-- The milliseconds `l0001_timespecelapsed` adds up, before they are cut to 64 bits. -/
def elapsedSum (now ts : Timespec) : Int :=
  (now.tvSec - ts.tvSec) * 1000 + (u64 (now.tvNsec - ts.tvNsec) / 1000000 : Nat)

/-- The clock readings are so far apart that the sum wraps around to a small number. -/
def WrapsSmall (now ts : Timespec) : Prop :=
  2 ^ 64 ≤ elapsedSum now ts ∧ elapsedSum now ts % 2 ^ 64 ≤ l0006NetcomTimeoutPeriodMs

/-- An old entry is seen to be old: its age in whole milliseconds is over the period
already, unless the nanoseconds borrow, and the sum does not wrap to a small number. -/
def SeenOld (now ts : Timespec) : Prop :=
  (Borrows now ts ∨ (l0006NetcomTimeoutPeriodMs + 1) * 1000000 ≤ now.ns - ts.ns) ∧ ¬ WrapsSmall now ts

instance (ts : Timespec) : Decidable ts.Normal := inferInstanceAs (Decidable (_ ∧ _))

instance (now ts : Timespec) : Decidable (Borrows now ts) := inferInstanceAs (Decidable (_ < _))

instance (now ts : Timespec) : Decidable (WrapsSmall now ts) := inferInstanceAs (Decidable (_ ∧ _))

instance (now ts : Timespec) : Decidable (SeenOld now ts) := inferInstanceAs (Decidable (_ ∧ _))

section
variable {now ts : Timespec}

theorem elapsed_eq (now ts : Timespec) : l0001Timespecelapsed now ts = u64 (elapsedSum now ts) := rfl

/-- Without a borrow the sum is the age in whole milliseconds. -/
theorem elapsedSum_of_le (hn : now.Normal) (ht : ts.Normal) (h : ts.tvNsec ≤ now.tvNsec) :
    elapsedSum now ts = (now.ns - ts.ns) / 1000000 := by
  obtain ⟨hn0, hn1⟩ := hn
  obtain ⟨ht0, ht1⟩ := ht
  simp only [elapsedSum, Timespec.ns, u64]
  omega

/-- With a borrow it is far too large. -/
theorem elapsedSum_of_borrows (hn : now.Normal) (ht : ts.Normal) (h : Borrows now ts) :
    (now.tvSec - ts.tvSec) * 1000 + 18446744072709 ≤ elapsedSum now ts ∧
      elapsedSum now ts ≤ (now.tvSec - ts.tvSec) * 1000 + 18446744073709 := by
  obtain ⟨hn0, hn1⟩ := hn
  obtain ⟨ht0, ht1⟩ := ht
  simp only [elapsedSum, u64, Borrows] at h ⊢
  omega

theorem isOld_iff (now ts : Timespec) : isOld now ts = true ↔ 3000000000 < now.ns - ts.ns := by
  unfold isOld l0006NetcomTimeoutPeriodMs
  rw [decide_eq_true_iff]
  omega

/-- A young entry is found too old exactly if the nanoseconds borrow. -/
theorem young_iff (hn : now.Normal) (ht : ts.Normal) (hle : ts.ns ≤ now.ns) (hy : ¬ isOld now ts = true) :
    l0001Timespecelapsed now ts > l0006NetcomTimeoutPeriodMs ↔ Borrows now ts := by
  rw [isOld_iff, Int.not_lt] at hy
  rw [elapsed_eq]
  by_cases hb : Borrows now ts
  · obtain ⟨hlo, hhi⟩ := elapsedSum_of_borrows hn ht hb
    have hsec : 0 ≤ now.tvSec - ts.tvSec ∧ now.tvSec - ts.tvSec ≤ 4 := by
      obtain ⟨hn0, hn1⟩ := hn
      obtain ⟨ht0, ht1⟩ := ht
      simp only [Timespec.ns] at hle hy
      omega
    simp only [hb, iff_true, u64, l0006NetcomTimeoutPeriodMs]
    rw [Int.emod_eq_of_lt (by omega) (by omega)]
    omega
  · have hsum := elapsedSum_of_le hn ht (Int.not_lt.1 hb)
    simp only [hb, iff_false, u64, l0006NetcomTimeoutPeriodMs, hsum]
    omega

/-- An old entry is found too old exactly if it is seen to be old. -/
theorem old_iff (hn : now.Normal) (ht : ts.Normal) (ho : isOld now ts = true) :
    l0001Timespecelapsed now ts > l0006NetcomTimeoutPeriodMs ↔ SeenOld now ts := by
  rw [isOld_iff] at ho
  rw [elapsed_eq]
  unfold SeenOld WrapsSmall
  by_cases hb : Borrows now ts
  · obtain ⟨hlo, hhi⟩ := elapsedSum_of_borrows hn ht hb
    have hsec : 0 ≤ now.tvSec - ts.tvSec := by
      obtain ⟨hn0, hn1⟩ := hn
      obtain ⟨ht0, ht1⟩ := ht
      simp only [Timespec.ns] at ho
      omega
    simp only [hb, true_or, true_and, u64, l0006NetcomTimeoutPeriodMs]
    omega
  · have hsum := elapsedSum_of_le hn ht (Int.not_lt.1 hb)
    simp only [hb, false_or, u64, l0006NetcomTimeoutPeriodMs, hsum]
    omega

end

/-! ## One firing -/

/-- Exactly the entries older than the period are called and given back; the others
stay in their order. -/
def TimesOutExactly (nc : Netcom α) (now : Timespec) : Prop :=
  netcomTimeoutcb nc now =
    ({ nc with
        used := nc.used.filter (fun ncwrbuf => !isOld now ncwrbuf.ts)
        unused := nc.unused ++ nc.used.filter (fun ncwrbuf => isOld now ncwrbuf.ts) },
      nc.used.filter (fun ncwrbuf => isOld now ncwrbuf.ts))

/-- Every old entry is seen to be old, and the nanoseconds do not borrow for the first
young one. -/
def Timely (used : List (NetcomWrbuf α)) (now : Timespec) : Prop :=
  (∀ ncwrbuf ∈ used, isOld now ncwrbuf.ts = true → SeenOld now ncwrbuf.ts) ∧
    ∀ ncwrbuf, used.find? (fun ncwrbuf => !isOld now ncwrbuf.ts) = some ncwrbuf → ¬ Borrows now ncwrbuf.ts

/-- The used list is in the order of its times. -/
structure InOrder (used : List (NetcomWrbuf α)) : Prop where
  normal : ∀ ncwrbuf ∈ used, ncwrbuf.ts.Normal
  sorted : used.Pairwise fun a b => a.ts.ns ≤ b.ts.ns

theorem InOrder.aged {used : List (NetcomWrbuf α)} (h : InOrder used) (now : Timespec) :
    Aged (fun ncwrbuf => isOld now ncwrbuf.ts) used := by
  refine h.sorted.imp ?_
  intro a b hab hb
  rw [isOld_iff] at hb ⊢
  omega

theorem InOrder.sees_iff {used : List (NetcomWrbuf α)} (h : InOrder used) {now : Timespec} (hn : now.Normal)
    (hlater : ∀ ncwrbuf ∈ used, ncwrbuf.ts.ns ≤ now.ns) :
    Sees (fun ncwrbuf => isOld now ncwrbuf.ts) (fires now) used ↔ Timely used now := by
  unfold Sees Timely
  refine and_congr ?_ ?_
  · refine forall₃_congr fun ncwrbuf hmem ho => ?_
    rw [← old_iff hn (h.normal ncwrbuf hmem) ho, fires, decide_eq_true_iff]
  · refine forall₂_congr fun ncwrbuf hfind => ?_
    have hmem := List.mem_of_find?_eq_some hfind
    have hy : ¬ isOld now ncwrbuf.ts = true := by simpa using List.find?_some hfind
    rw [← young_iff hn (h.normal ncwrbuf hmem) (hlater ncwrbuf hmem) hy, fires, decide_eq_false_iff_not]

theorem timesOutExactly_iff {nc : Netcom α} (h : InOrder nc.used) {now : Timespec} (hn : now.Normal)
    (hlater : ∀ ncwrbuf ∈ nc.used, ncwrbuf.ts.ns ≤ now.ns) : TimesOutExactly nc now ↔ Timely nc.used now := by
  rw [← h.sees_iff hn hlater, ← takeWhile_eq_filter_iff (h.aged now), TimesOutExactly, timeoutcb_eq]
  constructor
  · intro he
    exact (Prod.mk.inj he).2
  · intro he
    rw [he, dropWhile_of_takeWhile (h.aged now) he]

/-! ## Runs -/

/-- The times of the writes are normalised and do not go back. -/
def WritesInOrder (p : Pool α) : PoolEv α → Prop
  | .write _ _ ts _ => ts.Normal ∧ ∀ ncwrbuf ∈ p.nc.used, ncwrbuf.ts.ns ≤ ts.ns
  | .netcom _ => True

instance (p : Pool α) (ev : PoolEv α) : Decidable (WritesInOrder p ev) := by
  cases ev with
  | write _ _ ts _ => exact inferInstanceAs (Decidable (_ ∧ _))
  | netcom => exact inferInstanceAs (Decidable True)

instance (used : List (NetcomWrbuf α)) (now : Timespec) : Decidable (Timely used now) :=
  inferInstanceAs (Decidable ((∀ ncwrbuf ∈ used, isOld now ncwrbuf.ts = true → SeenOld now ncwrbuf.ts) ∧
    ∀ ncwrbuf ∈ used.find? (fun ncwrbuf : NetcomWrbuf α => !isOld now ncwrbuf.ts), ¬ Borrows now ncwrbuf.ts))

theorem InOrder.step {p q : Pool α} {ev : PoolEv α} (h : InOrder p.nc.used) (hw : WritesInOrder p ev)
    (hstep : p.step env ev = some q) : InOrder q.nc.used := by
  cases ev with
  | write ncaction ack ts added =>
    cases hstep
    obtain ⟨hnormal, hlast⟩ := hw
    have hwritten : Written p.nc (p.mark ncaction) ack ts (p.write ncaction ack ts added) := written_of _ _ _ _ _
    generalize p.write ncaction ack ts added = r at hwritten
    cases hwritten with
    | same _ hused =>
      simp only [hused]
      exact h
    | queued slot _ _ hused =>
      simp only [hused]
      refine ⟨?_, List.pairwise_append.2 ⟨h.sorted, List.pairwise_singleton _ _, ?_⟩⟩
      · intro ncwrbuf hmem
        rcases List.mem_append.1 hmem with hold | hnew
        · exact h.normal ncwrbuf hold
        · rw [List.mem_singleton.1 hnew]
          exact hnormal
      · intro a ha b hb
        rw [List.mem_singleton.1 hb]
        exact hlast a ha
  | netcom i =>
    obtain ⟨⟨t, called⟩, ht, rfl⟩ := Option.map_eq_some_iff.1 hstep
    have hsub := (netcomStep_moves ht).order
    exact ⟨fun ncwrbuf hmem => h.normal ncwrbuf (hsub.subset hmem), h.sorted.sublist hsub⟩

/-- After every run whose writes come at times that do not go back, `netcom_timeoutcb`
at a later time times out exactly the commands older than the period if and only if
each of them is seen to be old and the nanoseconds do not borrow for the first of the
others. -/
theorem timeoutcb_exact_iff [Inhabited α] (env : Env) (evs : List (PoolEv α)) (p : Pool α) (now : Timespec)
    (hrun : exec (Pool.step env) Pool.init evs = some p) (hwrites : Along (Pool.step env) WritesInOrder Pool.init evs)
    (hn : now.Normal) (hlater : ∀ ncwrbuf ∈ p.nc.used, ncwrbuf.ts.ns ≤ now.ns) :
    TimesOutExactly p.nc now ↔ Timely p.nc.used now := by
  have hempty : InOrder (Pool.init : Pool α).nc.used :=
    ⟨fun _ hmem => absurd hmem List.not_mem_nil, List.Pairwise.nil⟩
  have horder : InOrder p.nc.used :=
    exec_inv (I := fun p : Pool α => InOrder p.nc.used) (fun _ _ _ hs hok hst => hs.step hok hst) hempty hwrites hrun
  exact timesOutExactly_iff horder hn hlater

/-- Commands sent at 0.5 s and at 3 s; the receiver looks at 4 s. -/
def sentEarlyAndLate : List (PoolEv Unit) :=
  [.netcom (.link true (some 0)), .write ⟨(), 0⟩ true ⟨0, 500000000⟩ true, .write ⟨(), 1⟩ true ⟨3, 0⟩ true]

theorem timeoutcb_exact_early : ∃ p, exec (Pool.step .still) Pool.init sentEarlyAndLate = some p ∧
    p.nc.used.length = 2 ∧ TimesOutExactly p.nc ⟨4, 0⟩ := by
  obtain ⟨p, hp, hall⟩ := (Option.any_eq_true _ _).1 (by decide +kernel :
    ((exec (Pool.step .still) Pool.init sentEarlyAndLate).any fun p =>
      p.nc.used.length = 2 ∧ (∀ ncwrbuf ∈ p.nc.used, ncwrbuf.ts.ns ≤ (⟨4, 0⟩ : Timespec).ns) ∧
        Timely p.nc.used ⟨4, 0⟩) = true)
  obtain ⟨hlength, hlater, htimely⟩ := of_decide_eq_true hall
  exact ⟨p, hp, hlength,
    (timeoutcb_exact_iff .still sentEarlyAndLate p ⟨4, 0⟩ hp (by decide +kernel) (by decide) hlater).2 htimely⟩

/-- One command, sent a nanosecond before a full second. -/
def sentBeforeSecond : List (PoolEv Unit) :=
  [.netcom (.link true (some 0)), .write ⟨(), 0⟩ true ⟨0, 999999999⟩ true]

/-- A nanosecond later the command is timed out. -/
theorem timeoutcb_early : ¬ ∀ (evs : List (PoolEv Unit)) (p : Pool Unit) (now : Timespec),
    exec (Pool.step .still) Pool.init evs = some p → Along (Pool.step .still) WritesInOrder Pool.init evs →
      now.Normal → (∀ ncwrbuf ∈ p.nc.used, ncwrbuf.ts.ns ≤ now.ns) → TimesOutExactly p.nc now := by
  intro h
  obtain ⟨p, hp, hall⟩ := (Option.any_eq_true _ _).1 (by decide +kernel :
    ((exec (Pool.step .still) Pool.init sentBeforeSecond).any fun p =>
      (∀ ncwrbuf ∈ p.nc.used, ncwrbuf.ts.ns ≤ (⟨1, 0⟩ : Timespec).ns) ∧
        (netcomTimeoutcb p.nc ⟨1, 0⟩).2.length = 1 ∧
        p.nc.used.filter (fun ncwrbuf => isOld ⟨1, 0⟩ ncwrbuf.ts) = []) = true)
  obtain ⟨hlater, hcalled, hnone⟩ := of_decide_eq_true hall
  have hexact := h sentBeforeSecond p ⟨1, 0⟩ hp (by decide +kernel) (by decide) hlater
  rw [TimesOutExactly, hnone] at hexact
  rw [hexact] at hcalled
  cases hcalled

end CmdAgent
