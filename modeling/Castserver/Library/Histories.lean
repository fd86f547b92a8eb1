import Mathlib.Tactic.Common

/-!
# Observing a growing history

A history is a list of events, latest first, and only ever grows at the front.
An observer summarises it by one update for each event. Code that adds only
events of a kind an observer ignores leaves the observation as it was, whatever
the number and order of those events.
-/

namespace Library.Histories

universe u v
variable {Event : Type u} {Seen : Type v}

/-- Summarise a history from its oldest event to its latest. -/
def observe (update : Event → Seen → Seen) (start : Seen) (history : List Event) : Seen :=
  history.foldr update start

@[simp] theorem observe_nil (update : Event → Seen → Seen) (start : Seen) :
    observe update start [] = start := rfl

@[simp] theorem observe_cons (update : Event → Seen → Seen) (start : Seen) (event : Event)
    (history : List Event) :
    observe update start (event :: history) = update event (observe update start history) := rfl

/-- The later history adds only events of one kind to the earlier one. -/
def Adds (kind : Event → Prop) (before after : List Event) : Prop :=
  ∃ fresh, after = fresh ++ before ∧ ∀ event ∈ fresh, kind event

/-- Adding nothing. -/
theorem adds_refl (kind : Event → Prop) (history : List Event) : Adds kind history history :=
  ⟨[], rfl, by simp⟩

/-- Adding one event. -/
theorem adds_cons (kind : Event → Prop) (event : Event) (history : List Event)
    (fits : kind event) : Adds kind history (event :: history) :=
  ⟨[event], rfl, by simpa using fits⟩

/-- Additions of a kind are additions of every wider kind. -/
theorem adds_weaken (narrow wide : Event → Prop) (before after : List Event)
    (wider : ∀ event, narrow event → wide event) (adds : Adds narrow before after) :
    Adds wide before after := by
  obtain ⟨fresh, same, fits⟩ := adds
  exact ⟨fresh, same, fun event member => wider event (fits event member)⟩

/-- Additions compose. -/
theorem adds_trans (kind : Event → Prop) (first second third : List Event)
    (earlier : Adds kind first second) (later : Adds kind second third) :
    Adds kind first third := by
  obtain ⟨old, rfl, oldKind⟩ := earlier
  obtain ⟨new, rfl, newKind⟩ := later
  refine ⟨new ++ old, by rw [List.append_assoc], ?_⟩
  intro event member
  rcases List.mem_append.mp member with inNew | inOld
  · exact newKind event inNew
  · exact oldKind event inOld

/-- Earlier events stay in the history. -/
theorem adds_member (kind : Event → Prop) (before after : List Event) (event : Event)
    (adds : Adds kind before after) (member : event ∈ before) : event ∈ after := by
  obtain ⟨fresh, rfl, _⟩ := adds
  exact List.mem_append_right fresh member

/-- An event of the later history is an earlier one or of the added kind. -/
theorem adds_origin (kind : Event → Prop) (before after : List Event) (event : Event)
    (adds : Adds kind before after) (member : event ∈ after) : event ∈ before ∨ kind event := by
  obtain ⟨fresh, rfl, fits⟩ := adds
  rcases List.mem_append.mp member with inFresh | old
  · exact Or.inr (fits event inFresh)
  · exact Or.inl old

/-- What every event of the added kind keeps true of an observation stays true. -/
theorem observe_keeps (update : Event → Seen → Seen) (start : Seen) (kind : Event → Prop)
    (kept : Seen → Prop)
    (keeps : ∀ event seen, kind event → kept seen → kept (update event seen))
    (before after : List Event) (adds : Adds kind before after)
    (holds : kept (observe update start before)) : kept (observe update start after) := by
  obtain ⟨fresh, rfl, fits⟩ := adds
  induction fresh with
  | nil => exact holds
  | cons event rest inductionHypothesis =>
    have restFits : ∀ other ∈ rest, kind other := fun other member =>
      fits other (List.mem_cons_of_mem event member)
    rw [List.cons_append, observe_cons]
    exact keeps event _ (fits event List.mem_cons_self) (inductionHypothesis restFits)

/-- An observer that ignores the added kind sees no difference. -/
theorem observe_adds (update : Event → Seen → Seen) (start : Seen) (kind : Event → Prop)
    (ignores : ∀ event seen, kind event → update event seen = seen) (before after : List Event)
    (adds : Adds kind before after) :
    observe update start after = observe update start before := by
  refine observe_keeps update start kind (· = observe update start before) ?_ before after adds rfl
  intro event seen fits same
  rw [ignores event seen fits, same]

end Library.Histories
