import CmdAgent.StreamLib.Loop
import CmdAgent.StreamLib.Runs
/-!
# Machines that read and loop

A machine stores what a read brings (`enter`) and then runs a loop. `Visits`
lists the states a run passes through: those at the head of a round and those
between two reads, each with the input received by then. `visits_inv` is the
invariant rule for them.
-/
open StreamLib.Loop StreamLib.Runs

namespace StreamLib.Reads

variable {σ β : Type} (body : σ → Outcome σ) (fuel : Nat) (enter : σ → List β → σ)

/-- One read and its loop. -/
def read (s : σ) (c : List β) : Option σ := run body fuel (enter s c)

/-- The run over the chunks from `s` passes through `u` when `bytes` have been
received. -/
inductive Visits : σ → List (List β) → List β → σ → Prop
  | head {s u : σ} {c : List β} {cs : List (List β)} : Reaches body (enter s c) u → Visits s (c :: cs) c u
  | ret {s t : σ} {c : List β} {cs : List (List β)} : read body fuel enter s c = some t → Visits s (c :: cs) c t
  | later {s t u : σ} {c bytes : List β} {cs : List (List β)} :
      read body fuel enter s c = some t → Visits t cs bytes u → Visits s (c :: cs) (c ++ bytes) u

variable {body fuel enter}

/-- The invariant rule. `P` is what is known of the states visited, `ok` of the
reads. -/
theorem visits_inv {K P : List β → σ → Prop} {ok : σ → List β → Prop}
    (henter : ∀ h s c, K h s → ok s c → P (h ++ c) (enter s c) → K (h ++ c) (enter s c))
    (hcont : ∀ h u v, K h u → P h u → body u = .cont v → K h v)
    (hbrk : ∀ h u v, K h u → P h u → body u = .brk v → K h v)
    {s u : σ} {cs : List (List β)} {h bytes : List β} (hs : K h s) (hok : Along (read body fuel enter) ok s cs)
    (hP : ∀ bytes u, Visits body fuel enter s cs bytes u → P (h ++ bytes) u)
    (hu : Visits body fuel enter s cs bytes u) : K (h ++ bytes) u := by
  have heads : ∀ {s : σ} {c : List β} {cs : List (List β)} {h : List β}, K h s → ok s c →
      (∀ bytes u, Visits body fuel enter s (c :: cs) bytes u → P (h ++ bytes) u) →
      ∀ {u : σ}, Reaches body (enter s c) u → K (h ++ c) u := by
    intro s c cs h hs hc hP u hr
    induction hr with
    | refl => exact henter h s c hs hc (hP _ _ (.head .refl))
    | tail hr hb ih => exact hcont _ _ _ ih (hP _ _ (.head hr)) hb
  have rets : ∀ {s t : σ} {c : List β} {cs : List (List β)} {h : List β}, K h s → ok s c →
      (∀ bytes u, Visits body fuel enter s (c :: cs) bytes u → P (h ++ bytes) u) →
      read body fuel enter s c = some t → K (h ++ c) t := by
    intro s t c cs h hs hc hP ht
    obtain ⟨u, hr, hb⟩ := reaches_of_run ht
    exact hbrk _ _ _ (heads hs hc hP hr) (hP _ _ (.head hr)) hb
  induction hu generalizing h with
  | head hr => exact heads hs hok.1 hP hr
  | ret ht => exact rets hs hok.1 hP ht
  | later ht _ ih =>
    rw [← List.append_assoc]
    refine ih (rets hs hok.1 hP ht) (hok.2 _ ht) ?_
    intro bytes u hu
    rw [List.append_assoc]
    exact hP _ _ (.later ht hu)

/-- The same, with an invariant that holds only from the second round on. -/
theorem visits_inv_after {K P : List β → σ → Prop} {ok : σ → List β → Prop}
    (henter : ∀ h s c, K h s → ok s c → P (h ++ c) (enter s c) → K (h ++ c) (enter s c))
    (hcont : ∀ h u v, K h u → P h u → body u = .cont v → K h v)
    (hbrk : ∀ h u v, K h u → P h u → body u = .brk v → K h v)
    {s v u : σ} {c bytes : List β} {cs : List (List β)} (hv : body (enter s c) = .cont v) (hs : K c v)
    (hok : Along (read body fuel enter) ok s (c :: cs))
    (hP : ∀ bytes u, Visits body fuel enter s (c :: cs) bytes u → P bytes u)
    (hu : Visits body fuel enter s (c :: cs) bytes u) : (bytes = c ∧ u = enter s c) ∨ K bytes u := by
  have after : ∀ {u : σ}, Reaches body v u → K c u := by
    intro u hr
    induction hr with
    | refl => exact hs
    | tail hr hb ih => exact hcont _ _ _ ih (hP _ _ (.head (.head hv hr))) hb
  have split : ∀ {u : σ}, Reaches body (enter s c) u → u = enter s c ∨ K c u := by
    intro u hr
    rcases Relation.ReflTransGen.cases_head hr with rfl | ⟨w, hw, hr⟩
    · exact .inl rfl
    · cases hv.symm.trans hw
      exact .inr (after hr)
  have ret : ∀ {t : σ}, read body fuel enter s c = some t → K c t := by
    intro t ht
    obtain ⟨w, hr, hb⟩ := reaches_of_run ht
    rcases split hr with rfl | hw
    · cases hv.symm.trans hb
    · exact hbrk _ _ _ hw (hP _ _ (.head hr)) hb
  cases hu with
  | head hr => exact (split hr).imp_left fun h => ⟨rfl, h⟩
  | ret ht => exact .inr (ret ht)
  | later ht hu =>
    exact .inr (visits_inv henter hcont hbrk (ret ht) (hok.2 _ ht) (fun _ _ hu => hP _ _ (.later ht hu)) hu)

/-- What has been received is the start of what is sent. -/
theorem Visits.isPrefix {s u : σ} {cs : List (List β)} {bytes : List β}
    (h : Visits body fuel enter s cs bytes u) : List.IsPrefix bytes cs.flatten := by
  induction h with
  | head => exact List.prefix_append _ _
  | ret => exact List.prefix_append _ _
  | later _ _ ih => exact (List.prefix_append_right_inj _).2 ih

theorem Visits.append {s u : σ} {cs : List (List β)} {bytes : List β} (h : Visits body fuel enter s cs bytes u)
    (cs' : List (List β)) : Visits body fuel enter s (cs ++ cs') bytes u := by
  induction h with
  | head hr => exact .head hr
  | ret ht => exact .ret ht
  | later ht _ ih => exact .later ht ih

/-- The state a run ends in is one it passes through. -/
theorem visits_of_exec {s t : σ} {c : List β} {cs : List (List β)}
    (h : exec (read body fuel enter) s (c :: cs) = some t) :
    Visits body fuel enter s (c :: cs) (c :: cs).flatten t := by
  induction cs generalizing s c with
  | nil =>
    obtain ⟨u, hu, he⟩ := exec_cons_eq_some.1 h
    cases he
    rw [List.flatten_cons, List.flatten_nil, List.append_nil]
    exact .ret hu
  | cons c' cs ih =>
    obtain ⟨u, hu, he⟩ := exec_cons_eq_some.1 h
    exact .later hu (ih he)

/-! ## The states a run passes through, as a list -/

/-- Each state with the input received by then. -/
def trail (body : σ → Outcome σ) (fuel : Nat) (enter : σ → List β → σ) : σ → List (List β) → List (List β × σ)
  | _, [] => []
  | s, c :: cs => (heads body fuel (enter s c)).map (fun u => (c, u)) ++
    match read body fuel enter s c with
    | none => []
    | some t => (c, t) :: (trail body fuel enter t cs).map (fun p => (c ++ p.1, p.2))

theorem mem_trail (htotal : ∀ s c, ∃ t, read body fuel enter s c = some t) {s u : σ} {cs : List (List β)}
    {bytes : List β} (h : Visits body fuel enter s cs bytes u) : (bytes, u) ∈ trail body fuel enter s cs := by
  induction h with
  | @head s u c cs hr =>
    obtain ⟨t, ht⟩ := htotal s c
    exact List.mem_append_left _ (List.mem_map_of_mem (mem_heads ht hr))
  | ret ht =>
    refine List.mem_append_right _ ?_
    rw [ht]
    exact List.mem_cons_self
  | later ht _ ih =>
    refine List.mem_append_right _ ?_
    rw [ht]
    exact List.mem_cons_of_mem _ (List.mem_map_of_mem (f := fun p => (_ ++ p.1, p.2)) ih)

/-- A property of every state visited, checked on the list. -/
theorem forall_visits (htotal : ∀ s c, ∃ t, read body fuel enter s c = some t) {P : List β → σ → Prop} {s : σ}
    {cs : List (List β)} (h : ∀ p ∈ trail body fuel enter s cs, P p.1 p.2) (bytes : List β) (u : σ)
    (hu : Visits body fuel enter s cs bytes u) : P bytes u :=
  h (bytes, u) (mem_trail htotal hu)

end StreamLib.Reads
