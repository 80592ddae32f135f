import CmdAgent.Timeout
/-!
# Elapsed milliseconds

Four functions of `misc.c` tell the time between two instants. Each goes wrong in its own
place: where a product leaves 32 bits, where seconds are counted twice, where the
nanoseconds borrow, where the counter wraps.
-/

namespace CmdAgent

/-! ## Milliseconds -/

/-- At most one millisecond off the nanoseconds. -/
def WithinOne (millis : Nat) (ns : Int) : Prop := ((millis : Int) * 1000000 - ns).natAbs ≤ 1000000

instance (millis : Nat) (ns : Int) : Decidable (WithinOne millis ns) := inferInstanceAs (Decidable (_ ≤ _))

/-- The count of milliseconds at an instant. -/
def Timespec.ms (ts : Timespec) : Int := ts.ns / 1000000

/-- The count as a `uint32_t`. -/
def Timespec.ticks (ts : Timespec) : UInt32 := UInt32.ofNat (u32 ts.ms)

/-- Microseconds to milliseconds, where nothing is cut. -/
theorem cast_millis {usec : Int} (h0 : 0 ≤ usec) (h : usec < 2 ^ 40) :
    (u32 (u64 usec / 1000 : Nat) : Int) = usec / 1000 := by
  rw [cast_u32, Int.natCast_ediv, Int.cast_ofNat_Int, cast_u64, Int.emod_eq_of_lt h0 (by omega),
    Int.emod_eq_of_lt (by omega) (by omega)]

theorem toNat_ticks (ts : Timespec) : (ts.ticks.toNat : Int) = ts.ms % 2 ^ 32 := by
  have hcast := cast_u32 ts.ms
  have hlt : u32 ts.ms < UInt32.size := by
    change u32 ts.ms < 4294967296
    omega
  rw [Timespec.ticks, UInt32.toNat_ofNat_of_lt' hlt, hcast]

section
variable {now before : Timespec}

/-! ## `l0001_millisecond_elapsed` -/

theorem millisecondElapsed_of_lt (hn : now.Normal) (hb : before.Normal) (hlt : before.tvNsec < now.tvNsec) :
    (l0001MillisecondElapsed now before : Int) =
      ((now.tvSec - before.tvSec) * 1000000 % 2 ^ 32 + now.tvNsec / 1000 - before.tvNsec / 1000) / 1000 := by
  obtain ⟨hn0, hn1⟩ := hn
  obtain ⟨hb0, hb1⟩ := hb
  simp only [l0001MillisecondElapsed, hlt, if_true, Int.tdiv_eq_ediv_of_nonneg hn0, Int.tdiv_eq_ediv_of_nonneg hb0,
    cast_u32_mul]
  exact cast_millis (by omega) (by omega)

/-- Without a second to borrow from, `sec - 1` is the largest `uint32_t`. -/
theorem millisecondElapsed_of_le (hn : now.Normal) (hb : before.Normal) (hle : now.tvNsec ≤ before.tvNsec) :
    (l0001MillisecondElapsed now before : Int) =
      ((now.tvSec - before.tvSec - 1) * 1000000 % 2 ^ 32 + (1000000 + now.tvNsec / 1000) - before.tvNsec / 1000) /
        1000 := by
  obtain ⟨hn0, hn1⟩ := hn
  obtain ⟨hb0, hb1⟩ := hb
  have hprod : (u32 (u32 (u32 (now.tvSec - before.tvSec) - 1) * 1000000) : Int) =
      (now.tvSec - before.tvSec - 1) * 1000000 % 2 ^ 32 := by
    rw [cast_u32, cast_u32_sub, Int.mul_emod, Int.emod_emod, ← Int.mul_emod]
  simp only [l0001MillisecondElapsed, Int.not_lt.2 hle, if_false, Int.tdiv_eq_ediv_of_nonneg hn0,
    Int.tdiv_eq_ediv_of_nonneg hb0, hprod]
  exact cast_millis (by omega) (by omega)

/-- Right up to 4295 s, but not for equal instants. -/
theorem millisecondElapsed_iff (hn : now.Normal) (hb : before.Normal) (hle : before.ns ≤ now.ns)
    (hfar : now.ns - before.ns < 2 ^ 32 * 1000000) :
    WithinOne (l0001MillisecondElapsed now before) (now.ns - before.ns) ↔
      before.ns < now.ns ∧ now.ns - before.ns ≤ 4295 * 1000000000 := by
  unfold WithinOne
  by_cases hlt : before.tvNsec < now.tvNsec
  · rw [millisecondElapsed_of_lt hn hb hlt]
    obtain ⟨hn0, hn1⟩ := hn
    obtain ⟨hb0, hb1⟩ := hb
    unfold Timespec.ns at *
    omega
  · rw [millisecondElapsed_of_le hn hb (Int.not_lt.1 hlt)]
    obtain ⟨hn0, hn1⟩ := hn
    obtain ⟨hb0, hb1⟩ := hb
    unfold Timespec.ns at *
    omega

/-! ## `l0001_millisecond_diff` -/

theorem millisecondDiff_comm (ts1 ts2 : Timespec) : l0001MillisecondDiff ts1 ts2 = l0001MillisecondDiff ts2 ts1 := by
  unfold l0001MillisecondDiff
  rw [intAbs_sub_comm ts1.tvSec, intAbs_sub_comm ts1.tvNsec]
  rcases Int.lt_trichotomy ts1.tvSec ts2.tvSec with hlt | heq | hgt
  · simp [hlt, Int.not_lt.2 (Int.le_of_lt hlt), Int.ne_of_lt hlt]
  · simp [heq]
  · simp [hgt, Int.not_lt.2 (Int.le_of_lt hgt), Int.ne_of_lt hgt]

/-- `msec` has the seconds already when they are added. -/
theorem millisecondDiff_of_lt (hn : now.Normal) (hb : before.Normal) (hlt : before.tvSec < now.tvSec)
    (hfar : now.tvSec - before.tvSec < 2 ^ 31) :
    (l0001MillisecondDiff now before : Int) =
      (2 * (now.tvSec - before.tvSec) * 1000 + now.tvNsec / 1000000 - before.tvNsec / 1000000) % 2 ^ 32 := by
  obtain ⟨hn0, hn1⟩ := hn
  obtain ⟨hb0, hb1⟩ := hb
  have hsec := intAbs_of_lt (show 0 ≤ now.tvSec - before.tvSec by omega) hfar
  simp only [l0001MillisecondDiff, hlt, if_true, Int.tdiv_eq_ediv_of_nonneg hn0,
    Int.tdiv_eq_ediv_of_nonneg hb0, cast_u32, cast_u64, hsec]
  omega

theorem millisecondDiff_of_eq (hn : now.Normal) (hb : before.Normal) (heq : now.tvSec = before.tvSec)
    (hle : before.tvNsec ≤ now.tvNsec) :
    (l0001MillisecondDiff now before : Int) = (now.tvNsec - before.tvNsec) / 1000000 := by
  obtain ⟨hn0, hn1⟩ := hn
  obtain ⟨hb0, hb1⟩ := hb
  have hsec : intAbs (before.tvSec - before.tvSec) = 0 := by
    rw [Int.sub_self]
    rfl
  have hnsec := intAbs_of_lt (show 0 ≤ now.tvNsec - before.tvNsec by omega) (by omega)
  simp only [l0001MillisecondDiff, heq, gt_iff_lt, Int.lt_irrefl, if_false, if_true, cast_u32, cast_u64, hsec]
  omega

/-- Seconds that are counted twice show in any distance. -/
theorem counted_twice {sec diff millis ns : Int} (hsec : 0 < sec) (hlo : ns < diff * 1000000 + 1000000)
    (hhi : diff * 1000000 < ns + 1000000) (hfar : ns < 2 ^ 32 * 1000000) (hle : sec * 1000 ≤ diff + 999)
    (hmillis : millis = (diff + sec * 1000) % 2 ^ 32) : 1000000 < (millis * 1000000 - ns).natAbs := by
  have hwrap : millis = diff + sec * 1000 ∨ millis = diff + sec * 1000 - 2 ^ 32 ∨
      millis = diff + sec * 1000 - 2 * 2 ^ 32 := by omega
  rcases hwrap with h | h | h <;> omega

/-- Right within a second. -/
theorem millisecondDiff_iff (hn : now.Normal) (hb : before.Normal) (hle : before.ns ≤ now.ns)
    (hfar : now.ns - before.ns < 2 ^ 32 * 1000000) :
    WithinOne (l0001MillisecondDiff now before) (now.ns - before.ns) ↔ now.tvSec = before.tvSec := by
  unfold WithinOne
  by_cases heq : now.tvSec = before.tvSec
  · have hnsec : before.tvNsec ≤ now.tvNsec := by
      unfold Timespec.ns at hle
      omega
    rw [millisecondDiff_of_eq hn hb heq hnsec]
    unfold Timespec.ns
    omega
  · have hval := millisecondDiff_of_lt hn hb
    obtain ⟨hn0, hn1⟩ := hn
    obtain ⟨hb0, hb1⟩ := hb
    unfold Timespec.ns at *
    have hlt : before.tvSec < now.tvSec := by omega
    have hsum : 2 * (now.tvSec - before.tvSec) * 1000 + now.tvNsec / 1000000 - before.tvNsec / 1000000 =
        (now.tvSec - before.tvSec) * 1000 + now.tvNsec / 1000000 - before.tvNsec / 1000000 +
          (now.tvSec - before.tvSec) * 1000 := by omega
    have hoff := counted_twice (show 0 < now.tvSec - before.tvSec by omega) (by omega) (by omega) hfar (by omega)
      (hsum ▸ hval hlt (by omega))
    exact ⟨fun hnear => absurd hnear (Nat.not_le.2 hoff), fun h => absurd h heq⟩

/-! ## `l0001_timespecelapsed` -/

/-- Right unless the nanoseconds borrow. -/
theorem timespecelapsed_iff (hn : now.Normal) (hb : before.Normal) (hle : before.ns ≤ now.ns)
    (hfar : now.ns - before.ns < 2 ^ 32 * 1000000) :
    WithinOne (l0001Timespecelapsed now before) (now.ns - before.ns) ↔ before.tvNsec ≤ now.tvNsec := by
  rw [elapsed_eq, WithinOne, cast_u64]
  by_cases hborrows : Borrows now before
  · obtain ⟨hlo, hhi⟩ := elapsedSum_of_borrows hn hb hborrows
    obtain ⟨hn0, hn1⟩ := hn
    obtain ⟨hb0, hb1⟩ := hb
    unfold Borrows at hborrows
    unfold Timespec.ns at *
    omega
  · have hsec := Int.not_lt.1 hborrows
    rw [elapsedSum_of_le hn hb hsec]
    omega

/-! ## `l0001_millisec_elapsed32` -/

/-- Behind a wrap of the counter one is missing. -/
theorem millisecElapsed32_of_lt {ticksBefore ticksAfter : UInt32} (h : ticksAfter < ticksBefore) :
    l0001MillisecElapsed32 ticksBefore ticksAfter = ticksAfter - ticksBefore - 1 := by
  rw [l0001MillisecElapsed32, if_neg (UInt32.not_le.2 h)]
  grind

theorem millisecElapsed32_iff (ticksBefore ticksAfter : UInt32) :
    l0001MillisecElapsed32 ticksBefore ticksAfter = ticksAfter - ticksBefore ↔ ticksBefore ≤ ticksAfter := by
  by_cases hle : ticksBefore ≤ ticksAfter
  · rw [l0001MillisecElapsed32, if_pos hle, UInt32.mul_one]
    exact iff_of_true rfl hle
  · rw [millisecElapsed32_of_lt (UInt32.not_le.1 hle)]
    refine iff_of_false ?_ hle
    grind

theorem ticks_sub (now before : Timespec) :
    ((now.ticks - before.ticks).toNat : Int) = (now.ms - before.ms) % 2 ^ 32 := by
  have hnow := toNat_ticks now
  have hbefore := toNat_ticks before
  rw [UInt32.toNat_sub]
  omega

/-- The counters tell the difference unless `now` is behind a wrap. -/
theorem ticksElapsed_iff (now before : Timespec) :
    ((l0001MillisecElapsed32 before.ticks now.ticks).toNat : Int) = (now.ms - before.ms) % 2 ^ 32 ↔
      before.ticks ≤ now.ticks := by
  rw [← ticks_sub, ← millisecElapsed32_iff before.ticks, ← UInt32.toNat_inj]
  exact Int.ofNat_inj

/-! ## All of them -/

/-- Each function is right about the time from `before` to `now`. -/
structure ElapsedAgree (now before : Timespec) : Prop where
  elapsed : WithinOne (l0001MillisecondElapsed now before) (now.ns - before.ns)
  diff : WithinOne (l0001MillisecondDiff now before) (now.ns - before.ns)
  diffBack : WithinOne (l0001MillisecondDiff before now) (now.ns - before.ns)
  timespec : WithinOne (l0001Timespecelapsed now before) (now.ns - before.ns)
  ticks : ((l0001MillisecElapsed32 before.ticks now.ticks).toNat : Int) = (now.ms - before.ms) % 2 ^ 32

/-- What each function is right about, and all of them together. -/
theorem elapsed_agree_iff (now before : Timespec) (hn : now.Normal) (hb : before.Normal) (hle : before.ns ≤ now.ns)
    (hfar : now.ns - before.ns < 2 ^ 32 * 1000000) :
    (WithinOne (l0001MillisecondElapsed now before) (now.ns - before.ns) ↔
        before.ns < now.ns ∧ now.ns - before.ns ≤ 4295 * 1000000000) ∧
      (WithinOne (l0001MillisecondDiff now before) (now.ns - before.ns) ↔ now.tvSec = before.tvSec) ∧
      (WithinOne (l0001MillisecondDiff before now) (now.ns - before.ns) ↔ now.tvSec = before.tvSec) ∧
      (WithinOne (l0001Timespecelapsed now before) (now.ns - before.ns) ↔ before.tvNsec ≤ now.tvNsec) ∧
      (((l0001MillisecElapsed32 before.ticks now.ticks).toNat : Int) = (now.ms - before.ms) % 2 ^ 32 ↔
        before.ticks ≤ now.ticks) ∧
      (ElapsedAgree now before ↔
        now.tvSec = before.tvSec ∧ before.tvNsec < now.tvNsec ∧ before.ticks ≤ now.ticks) := by
  have helapsed := millisecondElapsed_iff hn hb hle hfar
  have hdiff := millisecondDiff_iff hn hb hle hfar
  have hdiffBack := millisecondDiff_comm now before ▸ hdiff
  have htimespec := timespecelapsed_iff hn hb hle hfar
  have hticks := ticksElapsed_iff now before
  refine ⟨helapsed, hdiff, hdiffBack, htimespec, hticks, ?_, ?_⟩
  · intro h
    have hsec := hdiff.1 h.diff
    have hlater := (helapsed.1 h.elapsed).1
    unfold Timespec.ns at hlater
    exact ⟨hsec, by omega, hticks.1 h.ticks⟩
  · rintro ⟨hsec, hnsec, hcount⟩
    obtain ⟨hn0, hn1⟩ := hn
    obtain ⟨hb0, hb1⟩ := hb
    have hnear : before.ns < now.ns ∧ now.ns - before.ns ≤ 4295 * 1000000000 := by
      unfold Timespec.ns
      omega
    exact ⟨helapsed.2 hnear, hdiff.2 hsec, hdiffBack.2 hsec, htimespec.2 (Int.le_of_lt hnsec), hticks.2 hcount⟩

/-- 2.5 ms within a second. -/
theorem elapsed_agree_within : ElapsedAgree ⟨7, 502500000⟩ ⟨7, 500000000⟩ :=
  (elapsed_agree_iff ⟨7, 502500000⟩ ⟨7, 500000000⟩ (by decide) (by decide) (by decide) (by decide)).2.2.2.2.2.2
    (by decide)

/-- Equal instants, a second, a borrow and a wrap of the counter. -/
theorem elapsed_disagree :
    (¬ WithinOne (l0001MillisecondElapsed ⟨5, 0⟩ ⟨5, 0⟩) 0 ∧ ¬ ElapsedAgree ⟨5, 0⟩ ⟨5, 0⟩) ∧
      (¬ WithinOne (l0001MillisecondElapsed ⟨4296, 0⟩ ⟨0, 0⟩) (4296 * 1000000000) ∧
        ¬ ElapsedAgree ⟨4296, 0⟩ ⟨0, 0⟩) ∧
      (¬ WithinOne (l0001MillisecondDiff ⟨2, 0⟩ ⟨1, 0⟩) 1000000000 ∧ ¬ ElapsedAgree ⟨2, 0⟩ ⟨1, 0⟩) ∧
      (¬ WithinOne (l0001Timespecelapsed ⟨2, 0⟩ ⟨1, 999999999⟩) 1 ∧ ¬ ElapsedAgree ⟨2, 0⟩ ⟨1, 999999999⟩) ∧
      (l0001MillisecElapsed32 (Timespec.ticks ⟨4294967, 295000000⟩) (Timespec.ticks ⟨4294967, 296000000⟩) = 0 ∧
        ¬ ElapsedAgree ⟨4294967, 296000000⟩ ⟨4294967, 295000000⟩) := by
  refine ⟨⟨by decide, ?_⟩, ⟨by decide, ?_⟩, ⟨by decide, ?_⟩, ⟨by decide, ?_⟩, ⟨by decide, ?_⟩⟩
  · intro h
    exact absurd h.elapsed (by decide)
  · intro h
    exact absurd h.elapsed (by decide)
  · intro h
    exact absurd h.diff (by decide)
  · intro h
    exact absurd h.timespec (by decide)
  · intro h
    exact absurd h.ticks (by decide)

end

end CmdAgent
