import Relays.Library.Transition

/-! Systems made of parts. Some steps of the whole are steps of a part, the others leave the part
alone; so the part of a reachable state is reachable, by the steps that the run has taken of it. -/

namespace Transition

variable {State Event Part Act Point : Type} {system : System State Event} {part : System Part Act}
variable {events front back : List Event} {event : Event} {state before after : State}
variable {acts : List Act} {act : Act} {start finish : Part}

/-- What the steps of a run come to, one by one, where they come to anything. -/
def System.points (system : System State Event) (point : State → Event → Option Point) :
    State → List Event → List Point
  | _, [] => []
  | state, event :: rest =>
    match system.step state event with
    | none => []
    | some next => (point state event).toList ++ system.points point next rest

theorem System.points_concat {point : State → Event → Option Point}
    (done : system.execute Any state events = some before)
    (taken : system.step before event = some after) :
    system.points point state (events ++ [event]) =
      system.points point state events ++ (point before event).toList := by
  induction events generalizing state with
  | nil =>
    obtain rfl : state = before := Option.some.inj done
    simp [System.points, taken]
  | cons first rest ih =>
    rw [System.execute, if_pos (show Any state first from trivial)] at done
    rw [List.cons_append, System.points, System.points]
    cases passed : system.step state first with
    | none => simp [passed] at done
    | some next =>
      rw [passed] at done
      simp only [ih done, List.append_assoc]

theorem Run.execute (run : Run system Any events state) : system.execute Any system.init events =
    some state := by
  induction run with
  | start => rfl
  | step earlier permitted taken ih => exact System.execute_concat ih permitted taken

/-- A part of a system, and the step that it takes in each step of the whole. -/
structure Component (system : System State Event) (part : System Part Act) where
  view : State → Part
  act : State → Event → Option Act
  initial : view system.init = part.init
  silent : ∀ before event after, system.step before event = some after → act before event = none →
    view after = view before
  acting : ∀ before event after act', system.step before event = some after →
    act before event = some act' →
    part.step (view before) act' = some (view after)

namespace Component

variable (component : Component system part)

/-- The steps that a run takes of the part. -/
def trace (events : List Event) : List Act := system.points component.act system.init events

theorem trace_concat (run : Run system Any events before)
    (taken : system.step before event = some after) :
    component.trace (events ++ [event]) =
      component.trace events ++ (component.act before event).toList :=
  System.points_concat run.execute taken

/-- The part of a reachable state is reachable. -/
theorem run (run : Run system Any events state) : Run part Any (component.trace events)
    (component.view state) := by
  induction run with
  | start =>
    rw [component.initial]
    exact .start
  | @step events before event after earlier permitted taken ih =>
    rw [component.trace_concat earlier taken]
    cases acted : component.act before event with
    | none =>
      rw [component.silent before event after taken acted, Option.toList_none, List.append_nil]
      exact ih
    | some act => exact .step ih trivial (component.acting before event after act taken acted)

/-- What every step of a part keeps, a run of the whole keeps. -/
theorem keeps (holds : Part → Prop) {middle : State} (run : Run system Any events state)
    (split : events = front ++ back) (reached : Run system Any front middle)
    (initial : holds (component.view middle))
    (preserved : ∀ acts start act finish, Run part Any acts start → holds start →
      part.step start act = some finish →
      holds finish) : holds (component.view state) := by
  apply run.keeps split reached initial
  intro events before event after earlier kept _ taken
  cases acted : component.act before event with
  | none => rwa [component.silent before event after taken acted]
  | some act =>
    exact preserved _ _ act _ (component.run earlier) kept
      (component.acting before event after act taken acted)

/-- The whole takes every step that is taken of its part. -/
theorem takes {earlier : List Act} (run : Run system Any events state)
    (inner : Takes part (component.trace events) earlier start act finish) :
    ∃ front before event after, Takes system events front before event after ∧
      component.act before event = some act ∧
      component.trace front = earlier ∧ component.view before = start ∧
        component.view after = finish := by
  induction run with
  | start => simpa [trace, System.points] using inner.length_lt
  | @step events before event after reached permitted taken ih =>
    have known (shorter : Takes part (component.trace events) earlier start act finish) :
        ∃ front before step after, Takes system (events ++ [event]) front before step after ∧
          component.act before step = some act ∧ component.trace front = earlier ∧
            component.view before = start ∧
          component.view after = finish := by
      obtain ⟨front, former, step, latter, outer, rest⟩ := ih shorter
      exact ⟨front, former, step, latter, outer.extend [event], rest⟩
    rw [component.trace_concat reached taken] at inner
    cases acted : component.act before event with
    | none =>
      rw [acted, Option.toList_none, List.append_nil] at inner
      exact known inner
    | some last =>
      rw [acted] at inner
      rcases inner.of_concat (component.run reached) with shorter | ⟨rfl, rfl, rfl⟩
      · exact known shorter
      · have same := inner.taken.symm.trans (component.acting before event after act taken acted)
        exact ⟨events, before, event, after, .last reached taken, acted, rfl, rfl,
          (Option.some.inj same).symm⟩

end Component

end Transition
