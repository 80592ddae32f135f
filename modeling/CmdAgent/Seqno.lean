import CmdAgent.Pool
/-!
# Sequence numbers in flight

`l0006_netcom_getseqno` counts modulo 256 and does not look at `wrbuf_used_list`. A
command is formatted with the number it drew and written once, any time later.
-/
open StreamLib.Runs

namespace CmdAgent

/-! ## The commands -/

/-- The receiver with the numbers drawn. The action of a command has the place of its
draw for a callback. -/
structure Draws where
  nc : Netcom Nat
  drawn : List UInt8
  /-- The draws whose command has been written. -/
  written : List Nat

inductive DrawsEv where
  | getseqno
  | write (n : Nat) (ts : Timespec) (added : Bool)
  | netcom (i : NetcomInput)

def Draws.init : Draws := ⟨netcomAllocateBuffer, [], []⟩

/-- `none` where an event cannot happen. -/
def Draws.step (env : Env) (d : Draws) : DrawsEv → Option Draws
  | .getseqno =>
    let r := l0006NetcomGetseqno d.nc
    some { d with nc := r.2, drawn := d.drawn ++ [r.1] }
  | .write n ts added =>
    match d.drawn[n]? with
    | none => none
    | some seqno =>
      if n ∈ d.written then none
      else some { d with nc := (l0006NetcomWrite d.nc ⟨n, seqno⟩ true ts added).2, written := d.written ++ [n] }
  | .netcom i => (netcomStep env d.nc i).map fun r => { d with nc := r.1 }

/-- The entries have different numbers, so the first one found for a number is its. -/
structure Unambiguous (used : List (NetcomWrbuf Nat)) : Prop where
  distinct : (used.map fun ncwrbuf => ncwrbuf.action.seqno).Nodup
  first : ∀ ncwrbuf ∈ used, used.find? (fun e => e.action.seqno == ncwrbuf.action.seqno) = some ncwrbuf

/-- `l0006_netcom_write` puts the command into the used list. -/
def Queues {α : Type} (nc : Netcom α) (added : Bool) : Prop :=
  nc.connected = true ∧ nc.unused ≠ [] ∧ nc.bev.isSome = true ∧ added = true

/-- A command is put into the used list only if none there was drawn a multiple of 256
draws before or after it. -/
def Draws.Apart (d : Draws) : DrawsEv → Prop
  | .write n _ added => Queues d.nc added → ∀ ncwrbuf ∈ d.nc.used, ncwrbuf.action.cb % 256 ≠ n % 256
  | _ => True

instance {α : Type} (nc : Netcom α) (added : Bool) : Decidable (Queues nc added) :=
  have : Decidable (nc.unused ≠ []) := decidable_of_iff (nc.unused.isEmpty = false) List.isEmpty_eq_false_iff
  instDecidableAnd

instance (d : Draws) (ev : DrawsEv) : Decidable (d.Apart ev) := by
  cases ev with
  | write n _ added =>
    exact inferInstanceAs (Decidable (Queues d.nc added → ∀ ncwrbuf ∈ d.nc.used, ncwrbuf.action.cb % 256 ≠ n % 256))
  | _ => exact inferInstanceAs (Decidable True)

/-! ## Distinct numbers -/

theorem unambiguous_iff {used : List (NetcomWrbuf Nat)} :
    Unambiguous used ↔ (used.map fun ncwrbuf => ncwrbuf.action.seqno).Nodup := by
  refine ⟨Unambiguous.distinct, fun h => ⟨h, ?_⟩⟩
  induction used with
  | nil => intro ncwrbuf hmem; cases hmem
  | cons e used ih =>
    rw [List.map_cons, List.nodup_cons] at h
    intro ncwrbuf hmem
    rcases List.mem_cons.1 hmem with rfl | htail
    · rw [List.find?_cons_of_pos (by simp)]
    · have hne : e.action.seqno ≠ ncwrbuf.action.seqno := by
        intro he
        exact h.1 (he ▸ List.mem_map_of_mem htail)
      rw [List.find?_cons_of_neg (by simpa using hne)]
      exact ih h.2 ncwrbuf htail

theorem ofNat_eq_iff (m n : Nat) : UInt8.ofNat m = UInt8.ofNat n ↔ m % 256 = n % 256 := by
  rw [← UInt8.toNat_inj, UInt8.toNat_ofNat', UInt8.toNat_ofNat']

/-- The numbers count the draws. -/
structure Draws.Inv (d : Draws) : Prop where
  seqno : d.nc.seqno = UInt8.ofNat d.drawn.length
  drawn : ∀ (n : Nat) (seqno : UInt8), d.drawn[n]? = some seqno → seqno = UInt8.ofNat n
  used : ∀ ncwrbuf ∈ d.nc.used, ncwrbuf.action.seqno = UInt8.ofNat ncwrbuf.action.cb

theorem Draws.init_inv : Draws.init.Inv where
  seqno := rfl
  drawn := by intro n seqno h; cases h
  used := by intro ncwrbuf hmem; cases hmem

section
variable {α : Type} {nc : Netcom α} {ncaction : NetcomAction α} {ts : Timespec} {added : Bool}

theorem write_queues (ncaction : NetcomAction α) (ts : Timespec) (h : Queues nc added) :
    ∃ slot, (l0006NetcomWrite nc ncaction true ts added).2.used = nc.used ++ [⟨slot, ts, ncaction⟩] := by
  obtain ⟨hconn, hunused, hbev, rfl⟩ := h
  obtain ⟨ncwrbuf, unused, hun⟩ := List.exists_cons_of_ne_nil hunused
  obtain ⟨bev, hb⟩ := Option.isSome_iff_exists.1 hbev
  refine ⟨ncwrbuf.slot, ?_⟩
  simp only [l0006NetcomWrite, hconn, hun, hb, if_true]

theorem write_fails (h : ¬ Queues nc added) : (l0006NetcomWrite nc ncaction true ts added).2.used = nc.used := by
  unfold l0006NetcomWrite
  split
  · rename_i hconn
    split
    · rename_i hun hb
      cases added with
      | false => rfl
      | true => exact absurd ⟨hconn, by rw [hun]; exact List.cons_ne_nil _ _, by rw [hb]; rfl, rfl⟩ h
    · rfl
  · rfl

theorem write_seqno : (l0006NetcomWrite nc ncaction true ts added).2.seqno = nc.seqno := by
  have hw := written_of nc ncaction true ts added
  generalize l0006NetcomWrite nc ncaction true ts added = r at hw
  cases hw with
  | same _ _ _ hseqno => exact hseqno
  | queued _ _ _ _ hseqno => exact hseqno

end

section
variable {env : Env} {d d' : Draws} {ev : DrawsEv}

theorem Draws.Inv.step (h : d.Inv) (hstep : d.step env ev = some d') : d'.Inv := by
  cases ev with
  | getseqno =>
    cases hstep
    refine ⟨?_, ?_, h.used⟩
    · simp only [l0006NetcomGetseqno, List.length_append, List.length_singleton, h.seqno]
      rw [UInt8.ofNat_add]
      rfl
    · intro n seqno hn
      rw [List.getElem?_append] at hn
      split at hn
      · exact h.drawn n seqno hn
      · rw [List.getElem?_singleton] at hn
        obtain ⟨hzero, he⟩ := Option.ite_none_right_eq_some.1 hn
        have hlast : n = d.drawn.length := by omega
        rw [hlast, ← Option.some.inj he]
        exact h.seqno
  | write n ts added =>
    simp only [Draws.step] at hstep
    split at hstep
    · cases hstep
    · rename_i seqno hn
      split at hstep <;> cases hstep
      refine ⟨write_seqno.trans h.seqno, h.drawn, ?_⟩
      intro ncwrbuf hmem
      by_cases hq : Queues d.nc added
      · obtain ⟨slot, hused⟩ := write_queues ⟨n, seqno⟩ ts hq
        dsimp only at hmem
        rw [hused] at hmem
        rcases List.mem_append.1 hmem with hold | hnew
        · exact h.used ncwrbuf hold
        · cases List.mem_singleton.1 hnew
          exact h.drawn n seqno hn
      · dsimp only at hmem
        rw [write_fails hq] at hmem
        exact h.used ncwrbuf hmem
  | netcom i =>
    obtain ⟨⟨t, called⟩, ht, rfl⟩ := Option.map_eq_some_iff.1 hstep
    have hm := netcomStep_moves ht
    exact ⟨hm.seqno.trans h.seqno, h.drawn, fun ncwrbuf hmem => h.used ncwrbuf (hm.order.subset hmem)⟩

/-- Numbers repeat every 256 draws. -/
theorem unambiguous_step_iff (h : d.Inv) (hd : Unambiguous d.nc.used) (hstep : d.step env ev = some d') :
    Unambiguous d'.nc.used ↔ d.Apart ev := by
  cases ev with
  | getseqno =>
    cases hstep
    exact iff_of_true hd trivial
  | write n ts added =>
    simp only [Draws.step] at hstep
    split at hstep
    · cases hstep
    · rename_i seqno hn
      split at hstep <;> cases hstep
      by_cases hq : Queues d.nc added
      · obtain ⟨slot, hused⟩ := write_queues ⟨n, seqno⟩ ts hq
        dsimp only
        rw [hused, unambiguous_iff, List.map_append, List.map_singleton, List.nodup_append_comm, List.singleton_append,
          List.nodup_cons, and_iff_left (unambiguous_iff.1 hd), h.drawn n seqno hn]
        constructor
        · intro hnot _ ncwrbuf hmem he
          refine hnot (List.mem_map.2 ⟨ncwrbuf, hmem, ?_⟩)
          rw [h.used ncwrbuf hmem, ofNat_eq_iff, he]
        · intro hapart hmem
          obtain ⟨ncwrbuf, hmem, he⟩ := List.mem_map.1 hmem
          rw [h.used ncwrbuf hmem, ofNat_eq_iff] at he
          exact hapart hq ncwrbuf hmem he
      · dsimp only
        rw [write_fails hq]
        exact iff_of_true hd fun hqueues => absurd hqueues hq
  | netcom i =>
    obtain ⟨⟨t, called⟩, ht, rfl⟩ := Option.map_eq_some_iff.1 hstep
    refine iff_of_true (unambiguous_iff.2 ?_) trivial
    exact (unambiguous_iff.1 hd).sublist ((netcomStep_moves ht).order.map _)

end

/-- The entries of the used list have different numbers in every state of a run if and
only if no command is put there while one drawn a multiple of 256 draws before or after
it is still there. -/
theorem seqnos_unambiguous_iff (env : Env) (evs : List DrawsEv) (d : Draws)
    (hrun : exec (Draws.step env) Draws.init evs = some d) :
    Throughout (Draws.step env) (fun d => Unambiguous d.nc.used) Draws.init evs ↔
      Along (Draws.step env) Draws.Apart Draws.init evs := by
  have hempty : Unambiguous Draws.init.nc.used := unambiguous_iff.2 List.nodup_nil
  exact throughout_iff_along (J := Draws.Inv) (fun _ _ _ h hst => h.step hst)
    (fun _ _ _ h hd hst => unambiguous_step_iff h hd hst) Draws.init_inv hempty hrun

/-- Two commands wait; the second is acknowledged. -/
def twoDraws : List DrawsEv :=
  [.netcom (.link true (some 0)), .getseqno, .getseqno, .write 1 ⟨0, 0⟩ true, .write 0 ⟨0, 0⟩ true,
    .netcom (.rd (.readcb (l0006NetcmdFormat l0006NetcmdBuzzack 1 0 0)))]

theorem seqnos_unambiguous_two : (exec (Draws.step .still) Draws.init twoDraws).isSome = true ∧
    Throughout (Draws.step .still) (fun d => Unambiguous d.nc.used) Draws.init twoDraws := by
  have hsome : (exec (Draws.step .still) Draws.init twoDraws).isSome = true := by decide +kernel
  obtain ⟨d, hrun⟩ := Option.isSome_iff_exists.1 hsome
  exact ⟨hsome, (seqnos_unambiguous_iff .still twoDraws d hrun).2 (by decide +kernel)⟩

/-- One command waits while 256 others draw their numbers; the last of them is written. -/
def wrappedDraws : List DrawsEv :=
  [.netcom (.link true (some 0)), .getseqno, .write 0 ⟨0, 0⟩ true] ++ List.replicate 256 .getseqno ++
    [.write 256 ⟨1, 0⟩ true]

theorem seqnos_wrap : ∃ d, exec (Draws.step .still) Draws.init wrappedDraws = some d ∧ ¬ Unambiguous d.nc.used := by
  obtain ⟨d, hrun, hseqnos⟩ := (Option.any_eq_true _ _).1 (by decide +kernel :
    ((exec (Draws.step .still) Draws.init wrappedDraws).any fun d =>
      d.nc.used.map (fun ncwrbuf => ncwrbuf.action.seqno) = [0, 0]) = true)
  refine ⟨d, hrun, fun h => ?_⟩
  have hnodup := h.distinct
  rw [of_decide_eq_true hseqnos] at hnodup
  exact absurd hnodup (by decide)

end CmdAgent
