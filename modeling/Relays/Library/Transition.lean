import Mathlib.Logic.Relation

/-! Runs of a partial step function, with the steps of a run restricted by a
condition on the state before the step and the event taken there. -/

namespace Transition

structure System (State Event : Type) where
  init : State
  step : State → Event → Option State

variable {State Event : Type}

/-- A finite run from the initial state, every step of which is allowed. -/
inductive Run (system : System State Event) (allowed : State → Event → Prop) :
    List Event → State → Prop where
  | start : Run system allowed [] system.init
  | step (earlier : Run system allowed events before) (permitted : allowed before event)
      (taken : system.step before event = some after) :
      Run system allowed (events ++ [event]) after

/-- No restriction on the steps of a run. -/
def Any (_ : State) (_ : Event) : Prop := True

instance (before : State) (event : Event) : Decidable (Any before event) :=
  inferInstanceAs (Decidable True)

variable {system : System State Event} {allowed extra : State → Event → Prop}
variable {events front back : List Event} {state before after middle : State} {event : Event}

private theorem snoc_inj {first second : List Event} {one two : Event}
    (same : first ++ [one] = second ++ [two]) : first = second ∧ one = two := by
  obtain ⟨lists, ends⟩ := List.append_inj' same rfl
  exact ⟨lists, List.singleton_inj.mp ends⟩

/-- The events of a run determine its final state. -/
theorem Run.unique (first : Run system allowed events state)
    (second : Run system extra events after) : state = after := by
  induction first generalizing after with
  | start =>
    generalize nothing : ([] : List Event) = events at second
    cases second with
    | start => rfl
    | step earlier permitted taken => simp at nothing
  | @step events before event state earlier permitted taken ih =>
    generalize all : events ++ [event] = whole at second
    cases second with
    | start => simp at all
    | step previous allowed' done =>
      obtain ⟨rfl, rfl⟩ := snoc_inj all
      obtain rfl := ih previous
      exact Option.some.inj (taken.symm.trans done)

/-- Every prefix of a run is a run. -/
theorem Run.truncate (run : Run system allowed events state) (split : events = front ++ back) :
    ∃ middle, Run system allowed front middle := by
  induction run generalizing back with
  | start =>
    have empty : front = [] := (List.append_eq_nil_iff.mp split.symm).1
    subst empty
    exact ⟨_, .start⟩
  | @step events before event after earlier permitted taken ih =>
    rcases List.eq_nil_or_concat back with rfl | ⟨rest, last, rfl⟩
    · have whole : events ++ [event] = front := by simpa using split
      subst whole
      exact ⟨_, .step earlier permitted taken⟩
    · rw [List.concat_eq_append, ← List.append_assoc] at split
      exact ih (snoc_inj split).1

/-- The step a run takes at a given position, with the state it is taken in. -/
theorem Run.taken_at (run : Run system allowed events state)
    (split : events = front ++ event :: back) :
    ∃ before after, Run system allowed front before ∧ allowed before event ∧
      system.step before event = some after := by
  have grouped : events = (front ++ [event]) ++ back := by simpa using split
  obtain ⟨after, prefixRun⟩ := run.truncate grouped
  generalize whole : front ++ [event] = events' at prefixRun
  cases prefixRun with
  | start => simp at whole
  | step earlier permitted taken =>
    obtain ⟨rfl, rfl⟩ := snoc_inj whole
    exact ⟨_, _, earlier, permitted, taken⟩

/-- A condition met by the step at every position restricts the whole run. -/
theorem Run.restrict (run : Run system allowed events state)
    (meets : ∀ front event back before, events = front ++ event :: back →
      Run system allowed front before → extra before event) :
    Run system (fun before event => allowed before event ∧ extra before event) events state := by
  induction run with
  | start => exact .start
  | @step events before event after earlier permitted taken ih =>
    refine .step (ih ?_) ⟨permitted, meets events event [] before (by simp) earlier⟩ taken
    intro front event' back middle split prefixRun
    exact meets front event' (back ++ [event]) middle (by simp [split]) prefixRun

/-- A restricted run is a run. -/
theorem Run.any (run : Run system allowed events state) : Run system Any events state := by
  induction run with
  | start => exact .start
  | step earlier permitted taken ih => exact .step ih trivial taken

/-- A run whose events are all allowed. -/
theorem Run.of_events (run : Run system Any events state)
    (every : ∀ event ∈ events, ∀ before, allowed before event) :
    Run system allowed events state := by
  induction run with
  | start => exact .start
  | step earlier permitted taken ih =>
    obtain ⟨others, last⟩ := List.forall_mem_append.mp every
    exact .step (ih others) (last _ (by simp) _) taken

/-- What holds initially and is kept by every allowed step of a run holds at its end. -/
theorem Run.invariant {holds : State → Prop} (run : Run system allowed events state)
    (initial : holds system.init)
    (preserved : ∀ events before event after, Run system allowed events before → holds before →
      allowed before event → system.step before event = some after → holds after) :
    holds state := by
  induction run with
  | start => exact initial
  | step earlier permitted taken ih => exact preserved _ _ _ _ earlier ih permitted taken

/-- A property kept from the end of a prefix to the end of the run. -/
theorem Run.keeps {holds : State → Prop} (run : Run system allowed events state)
    (split : events = front ++ back) (reached : Run system extra front middle)
    (initial : holds middle)
    (preserved : ∀ events before event after, Run system allowed events before → holds before →
      allowed before event → system.step before event = some after → holds after) :
    holds state := by
  induction run generalizing back with
  | start =>
    have empty : front = [] := (List.append_eq_nil_iff.mp split.symm).1
    subst empty
    have same := reached.unique (Run.start : Run system allowed [] system.init)
    exact same ▸ initial
  | @step events before event after earlier permitted taken ih =>
    rcases List.eq_nil_or_concat back with rfl | ⟨rest, last, rfl⟩
    · have whole : events ++ [event] = front := by simpa using split
      subst whole
      rw [(Run.step earlier permitted taken).unique reached]
      exact initial
    · rw [List.concat_eq_append, ← List.append_assoc] at split
      exact preserved _ _ _ _ earlier (ih (snoc_inj split).1) permitted taken

/-- A run whose steps each leave the abstract view alone or take one abstract
step is an abstract run. -/
theorem Run.refines {Abstract : Type} {next : Abstract → Abstract → Prop} (view : State → Abstract)
    (run : Run system allowed events state)
    (simulated : ∀ events before event after, Run system allowed events before →
      allowed before event → system.step before event = some after →
      view after = view before ∨ next (view before) (view after)) :
    Relation.ReflTransGen next (view system.init) (view state) := by
  induction run with
  | start => exact .refl
  | step earlier permitted taken ih =>
    rcases simulated _ _ _ _ earlier permitted taken with same | moved
    · rw [same]; exact ih
    · exact ih.tail moved

/-- The run with these events takes this step after those of `front`. -/
structure Takes (system : System State Event) (events front : List Event) (before : State)
    (event : Event)
    (after : State) : Prop where
  split : ∃ back, events = front ++ event :: back
  reached : Run system Any front before
  taken : system.step before event = some after

namespace Takes

variable {later : List Event} {start finish : State} {next : Event}

theorem run (takes : Takes system events front before event after) :
    Run system Any (front ++ [event]) after :=
  takes.reached.step trivial takes.taken

theorem length_lt (takes : Takes system events front before event after) :
    front.length < events.length := by
  obtain ⟨back, rfl⟩ := takes.split
  simp

theorem extend (takes : Takes system events front before event after) (more : List Event) :
    Takes system (events ++ more) front before event after := by
  obtain ⟨back, rfl⟩ := takes.split
  exact ⟨⟨back ++ more, by simp⟩, takes.reached, takes.taken⟩

/-- The last step of a run. -/
theorem last (earlier : Run system Any front before)
    (taken : system.step before event = some after) :
    Takes system (front ++ [event]) front before event after :=
  ⟨⟨[], rfl⟩, earlier, taken⟩

/-- A step of a restricted run is allowed. -/
theorem permitted (takes : Takes system events front before event after)
    (whole : Run system allowed events state) : Run system allowed front before ∧
      allowed before event := by
  obtain ⟨back, split⟩ := takes.split
  obtain ⟨start, _, reached, condition, _⟩ := whole.taken_at split
  obtain rfl := reached.unique takes.reached
  exact ⟨reached, condition⟩

/-- A run takes one step at each place. -/
theorem unique (first : Takes system events front before event after)
    (second : Takes system events later start next finish) (same : front.length = later.length) :
    front = later ∧ before = start ∧ event = next ∧ after = finish := by
  obtain ⟨back, split⟩ := first.split
  obtain ⟨rest, whole⟩ := second.split
  rw [split] at whole
  obtain ⟨rfl, tails⟩ := List.append_inj whole same
  obtain ⟨rfl, _⟩ := List.cons.inj tails
  obtain rfl := first.reached.unique second.reached
  exact ⟨rfl, rfl, rfl, Option.some.inj (first.taken.symm.trans second.taken)⟩

/-- A step of the run before a later one is a step of the run up to there. -/
theorem within (first : Takes system events front before event after)
    (second : Takes system events later start next finish) (earlier : front.length < later.length) :
    Takes system later front before event after := by
  obtain ⟨back, split⟩ := first.split
  obtain ⟨rest, whole⟩ := second.split
  rw [split] at whole
  obtain ⟨middle, rfl⟩ : ∃ middle, later = front ++ event :: middle := by
    rcases List.append_eq_append_iff.mp whole with ⟨middle, rfl, inner⟩ | ⟨middle, rfl, _⟩
    · cases middle with
      | nil => simp at earlier
      | cons head middle =>
        obtain ⟨rfl, _⟩ := List.cons.inj inner
        exact ⟨middle, rfl⟩
    · rw [List.length_append] at earlier
      omega
  exact ⟨⟨middle, rfl⟩, first.reached, first.taken⟩

/-- A step of a longer run is its last one or was taken before. -/
theorem of_concat (takes : Takes system (events ++ [next]) front before event after)
    (reached : Run system Any events state) :
    Takes system events front before event after ∨
      (front = events ∧ before = state ∧ event = next) := by
  obtain ⟨back, split⟩ := takes.split
  rcases List.eq_nil_or_concat back with rfl | ⟨rest, last, rfl⟩
  · obtain ⟨rfl, rfl⟩ := snoc_inj split
    exact .inr ⟨rfl, takes.reached.unique reached, rfl⟩
  · rw [List.concat_eq_append, ← List.cons_append, ← List.append_assoc] at split
    obtain ⟨rfl, _⟩ := snoc_inj split
    exact .inl ⟨⟨rest, rfl⟩, takes.reached, takes.taken⟩

end Takes

/-- The step a run without restrictions takes at a given place. -/
theorem Run.takes (run : Run system Any events state) (split : events = front ++ event :: back) :
    ∃ before after, Takes system events front before event after := by
  obtain ⟨before, after, reached, _, taken⟩ := run.taken_at split
  exact ⟨before, after, ⟨back, split⟩, reached, taken⟩

/-- A property kept by every step that a run takes after its prefix. -/
theorem Run.keeps_from {holds : State → Prop} (run : Run system Any events state)
    (split : events = front ++ back)
    (reached : Run system Any front middle) (initial : holds middle)
    (preserved : ∀ place before event after, Takes system events place before event after →
      front.length ≤ place.length → holds before → holds after) : holds state := by
  induction run generalizing back with
  | start =>
    obtain ⟨rfl, _⟩ := List.append_eq_nil_iff.mp split.symm
    exact (reached.unique (Run.start : Run system Any [] system.init)) ▸ initial
  | @step events before event after earlier permitted taken ih =>
    rcases List.eq_nil_or_concat back with rfl | ⟨rest, last, rfl⟩
    · rw [List.append_nil] at split
      subst split
      rw [(Run.step earlier permitted taken).unique reached]
      exact initial
    · rw [List.concat_eq_append, ← List.append_assoc] at split
      obtain ⟨rfl, _⟩ := snoc_inj split
      refine preserved _ _ _ _ (.last earlier taken) (by simp) (ih rfl ?_)
      intro place start step finish takes later
      exact preserved place start step finish (takes.extend _) later

/-- Take a list of events one by one, stopping at the first step that is not allowed. -/
def System.execute (system : System State Event) (allowed : State → Event → Prop)
    [∀ before event, Decidable (allowed before event)] : State → List Event → Option State
  | state, [] => some state
  | state, event :: rest =>
    if allowed state event then
      match system.step state event with
      | some next => system.execute allowed next rest
      | none => none
    else none

private theorem execute_extends [∀ before event, Decidable (allowed before event)]
    (run : Run system allowed front middle)
    (done : system.execute allowed middle back = some state) :
    Run system allowed (front ++ back) state := by
  induction back generalizing front middle with
  | nil =>
    have same : middle = state := Option.some.inj done
    subst same
    simpa using run
  | cons event rest ih =>
    rw [System.execute] at done
    split at done
    · rename_i permitted
      split at done
      · rename_i next taken
        have extended := ih (run.step permitted taken) done
        simpa using extended
      · cases done
    · cases done

/-- An evaluated list of events is a run, with whatever is observed at its end. -/
theorem Run.exists_of_execute (system : System State Event) (allowed : State → Event → Prop)
    [∀ before event, Decidable (allowed before event)] (events : List Event)
    (observed : State → Bool)
    (done : (system.execute allowed system.init events).any observed = true) :
    ∃ state, Run system allowed events state ∧ observed state = true := by
  cases reached : system.execute allowed system.init events with
  | none => simp [reached] at done
  | some state =>
    have run : Run system allowed ([] ++ events) state := execute_extends .start reached
    exact ⟨state, by simpa using run, by simpa [reached] using done⟩

theorem System.execute_concat [∀ before event, Decidable (allowed before event)]
    (done : system.execute allowed state events = some before) (permitted : allowed before event)
    (taken : system.step before event = some after) :
      system.execute allowed state (events ++ [event]) = some after := by
  induction events generalizing state with
  | nil =>
    obtain rfl : state = before := Option.some.inj done
    simp [System.execute, permitted, taken]
  | cons first rest ih =>
    rw [System.execute] at done
    rw [List.cons_append, System.execute]
    split at done
    · rename_i passed
      rw [if_pos passed]
      split at done
      · exact ih done
      · cases done
    · cases done

/-- What an evaluated list of events keeps, and the steps it can take: each costly step uses up
some of the weight. -/
theorem System.execute_keeps [∀ before event, Decidable (allowed before event)]
    {holds : State → Prop}
    {weight : State → Nat} {costly : Event → Bool}
    (preserved : ∀ before event after, holds before → allowed before event →
      system.step before event = some after →
      holds after ∧ weight after + (if costly event then 1 else 0) ≤ weight before)
    (initial : holds state) (done : system.execute allowed state events = some after) :
    holds after ∧ weight after + events.countP costly ≤ weight state := by
  induction events generalizing state with
  | nil =>
    obtain rfl : state = after := Option.some.inj done
    exact ⟨initial, by simp⟩
  | cons event rest ih =>
    rw [System.execute] at done
    split at done
    · rename_i permitted
      split at done
      · rename_i next taken
        obtain ⟨held, spent⟩ := preserved state event next initial permitted taken
        obtain ⟨final, total⟩ := ih held done
        refine ⟨final, ?_⟩
        rw [List.countP_cons]
        omega
      · cases done
    · cases done

end Transition
