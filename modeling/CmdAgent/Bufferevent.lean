import Mathlib.Tactic.Common
/-!
# The events of a bufferevent

The bits an event callback is told, and what the reports of one bufferevent say
about its connection.
-/

namespace CmdAgent

/-- `BEV_EVENT_EOF` -/
def bevEventEof : UInt16 := 0x10
/-- `BEV_EVENT_ERROR` -/
def bevEventError : UInt16 := 0x20
/-- `BEV_EVENT_CONNECTED` -/
def bevEventConnected : UInt16 := 0x80

def reportsConnected (events : UInt16) : Bool := events &&& bevEventConnected != 0

/-- An `EOF` or an `ERROR` -/
def reportsBroken (events : UInt16) : Bool := events &&& (bevEventError ||| bevEventEof) != 0

/-- `CONNECTED` has been reported, with no `EOF` or `ERROR` since. -/
def Established (reports : List UInt16) : Prop :=
  ∃ before events since, reports = before ++ events :: since ∧ reportsConnected events = true ∧
    ∀ later ∈ since, reportsBroken later = false

theorem not_established_nil : ¬ Established [] := by
  rintro ⟨before, events, since, h, -⟩
  cases before <;> cases h

theorem established_snoc (reports : List UInt16) (events : UInt16) :
    Established (reports ++ [events]) ↔
      reportsConnected events = true ∨ Established reports ∧ reportsBroken events = false := by
  constructor
  · rintro ⟨before, first, since, heq, hup, hsince⟩
    rcases List.eq_nil_or_concat since with rfl | ⟨since, last, rfl⟩
    · obtain ⟨-, hlast⟩ := List.append_inj' heq rfl
      cases hlast
      exact .inl hup
    · rw [List.concat_eq_append] at heq hsince
      rw [← List.cons_append, ← List.append_assoc] at heq
      obtain ⟨hinit, hlast⟩ := List.append_inj' heq rfl
      cases hlast
      exact .inr ⟨⟨before, first, since, hinit, hup, fun later hmem => hsince later (List.mem_append_left _ hmem)⟩,
        hsince _ (List.mem_append_right _ (List.mem_singleton_self _))⟩
  · rintro (hup | ⟨⟨before, first, since, rfl, hup, hsince⟩, hlast⟩)
    · exact ⟨reports, events, [], rfl, hup, nofun⟩
    · refine ⟨before, first, since ++ [events], by simp, hup, fun later hmem => ?_⟩
      rcases List.mem_append.1 hmem with hmem | hmem
      · exact hsince later hmem
      · rw [List.mem_singleton.1 hmem, hlast]

end CmdAgent
