import Relays.Library.Transition
import Mathlib.Data.Fintype.EquivFin

/-! Progress of a transition system. Work that every step of a kind uses up bounds how many such
steps follow each other, and parties that wait for each other in the order of a rank never all
wait. -/

namespace Transition

variable {State Event : Type}

/-- A finite run from a given state, every step of which is allowed. -/
inductive Path (system : System State Event) (allowed : State → Event → Prop) :
    State → List Event → State → Prop where
  | here : Path system allowed state [] state
  | step (permitted : allowed state event) (taken : system.step state event = some middle)
      (later : Path system allowed middle more after) :
        Path system allowed state (event :: more) after

variable {system : System State Event} {allowed wider : State → Event → Prop}
variable {events front back more : List Event} {state middle after : State} {event : Event}

namespace Path

theorem single (permitted : allowed state event) (taken : system.step state event = some after) :
    Path system allowed state [event] after :=
  .step permitted taken .here

theorem trans (first : Path system allowed state front middle)
    (second : Path system allowed middle back after) :
    Path system allowed state (front ++ back) after := by
  induction first with
  | here => exact second
  | step permitted taken _ ih => exact .step permitted taken (ih second)

/-- A run goes on along a path. -/
theorem extend (path : Path system allowed state more after)
    (run : Run system allowed events state) :
    Run system allowed (events ++ more) after := by
  induction path generalizing events with
  | here => simpa using run
  | step permitted taken _ ih => simpa using ih (run.step permitted taken)

/-- What holds of every event of the kind holds of the events of a path. -/
theorem all {every : Event → Prop} (path : Path system allowed state more after)
    (each : ∀ before event, allowed before event → every event) : ∀ event ∈ more, every event := by
  induction path with
  | here => simp
  | step permitted taken _ ih =>
    intro event member
    rcases List.mem_cons.mp member with rfl | further
    · exact each _ _ permitted
    · exact ih event further

/-- What every step of the kind keeps holds at the end. -/
theorem keeps {holds : State → Prop} (path : Path system allowed state more after)
    (initial : holds state)
    (preserved : ∀ before event after, holds before → allowed before event →
      system.step before event = some after →
      holds after) : holds after := by
  induction path with
  | here => exact initial
  | step permitted taken _ ih => exact ih (preserved _ _ _ initial permitted taken)

/-- Steps of one kind are of another wherever what they keep holds. -/
theorem within {holds : State → Prop} (path : Path system allowed state more after)
    (initial : holds state)
    (preserved : ∀ before event after, holds before → allowed before event →
      system.step before event = some after →
      holds after)
    (implied : ∀ before event, holds before → allowed before event → wider before event) :
    Path system wider state more after := by
  induction path with
  | here => exact .here
  | step permitted taken _ ih =>
    exact .step (implied _ _ initial permitted) taken (ih (preserved _ _ _ initial permitted taken))

/-- Every step of the kind uses up work, so no more of them follow than there is work. -/
theorem length_le {holds : State → Prop} {work : State → Nat}
    (path : Path system allowed state more after)
    (initial : holds state)
    (preserved : ∀ before event after, holds before → allowed before event →
      system.step before event = some after →
      holds after ∧ work after < work before) : more.length + work after ≤ work state := by
  induction path with
  | here => simp
  | step permitted taken _ ih =>
    obtain ⟨held, spent⟩ := preserved _ _ _ initial permitted taken
    have remaining := ih held
    rw [List.length_cons]
    omega

/-- Where a step of the kind is possible until the state is settled, enough of them settle it. -/
theorem exists_settled {holds settled : State → Prop} {work : State → Nat}
    (preserved : ∀ before event after, holds before → allowed before event →
      system.step before event = some after →
      holds after ∧ work after < work before)
    (progress : ∀ before, holds before → ¬ settled before →
      ∃ event, allowed before event ∧ (system.step before event).isSome = true)
    (initial : holds state) : ∃ more after, Path system allowed state more after ∧
      settled after := by
  induction left : work state using Nat.strong_induction_on generalizing state with
  | _ size ih =>
    by_cases done : settled state
    · exact ⟨[], state, .here, done⟩
    · obtain ⟨event, permitted, possible⟩ := progress state initial done
      obtain ⟨next, taken⟩ := Option.isSome_iff_exists.mp possible
      obtain ⟨held, spent⟩ := preserved _ _ _ initial permitted taken
      obtain ⟨more, after, path, reached⟩ := ih (work next) (left ▸ spent) held rfl
      exact ⟨event :: more, after, .step permitted taken path, reached⟩

end Path

/-- Something that has not been used can always be drawn. -/
theorem exists_unused {α : Type} [Infinite α] [DecidableEq α]
    (used : List α) : ∃ fresh, fresh ∉ used := by
  obtain ⟨fresh, absent⟩ := Infinite.exists_notMem_finset used.toFinset
  exact ⟨fresh, fun member => absent (List.mem_toFinset.mpr member)⟩

/-- Which party waits for which other, with a rank that grows along the waiting. -/
structure Waiting (Party : Type) where
  unfinished : Party → Prop
  waitsFor : Party → Party → Prop
  rank : Party → Nat
  bound : Nat
  bounded : ∀ party, rank party ≤ bound
  ordered : ∀ party holder, waitsFor party holder → unfinished holder ∧ rank party < rank holder

namespace Waiting

variable {Party : Type} {waiting : Waiting Party} {party holder : Party}

theorem rank_lt (chain : Relation.TransGen waiting.waitsFor party holder) :
    waiting.rank party < waiting.rank holder := by
  induction chain with
  | single waits => exact (waiting.ordered _ _ waits).2
  | tail _ waits ih => exact Nat.lt_trans ih (waiting.ordered _ _ waits).2

/-- No party waits, directly or through others, for itself. -/
theorem no_cycle (party : Party) : ¬ Relation.TransGen waiting.waitsFor party party :=
  fun chain => Nat.lt_irrefl _ (rank_lt chain)

/-- Whoever an unfinished party is kept by in the end does not wait. -/
theorem exists_free (waiting : Waiting Party) (running : waiting.unfinished party) :
    ∃ holder, Relation.ReflTransGen waiting.waitsFor party holder ∧ waiting.unfinished holder ∧
      ∀ other, ¬ waiting.waitsFor holder other := by
  induction left : waiting.bound - waiting.rank party using Nat.strong_induction_on
    generalizing party with
  | _ distance ih =>
    by_cases blocked : ∃ other, waiting.waitsFor party other
    · obtain ⟨other, waits⟩ := blocked
      obtain ⟨open', higher⟩ := waiting.ordered party other waits
      have closer : waiting.bound - waiting.rank other < distance := by
        have limit := waiting.bounded other
        omega
      obtain ⟨holder, chain, rest⟩ := ih _ closer open' rfl
      exact ⟨holder, .head waits chain, rest⟩
    · exact ⟨party, .refl, running, fun other waits => blocked ⟨other, waits⟩⟩

end Waiting

end Transition
