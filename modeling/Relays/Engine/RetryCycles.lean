import Relays.Engine.Refinement

/-! The cycles of a retry over a run: a delivery schedules it, and the next claim of
the row ends it. -/

namespace Relays.Engine

open Transition

/-- The step commits a `schedule_retry` of the notification. -/
def Reschedules (engine : Engine) (event : Event) (after : Engine) (id : Uuid)
    (due : Time) : Prop :=
  ∃ index execution persist attemptNumber stored, event = .worker index .commit ∧
    engine.executions[index]? = some execution ∧
      execution.phase = .concluded persist attemptNumber ∧
    execution.notificationId = id ∧ persist.result.status = .temporaryFailure ∧
    after.world.row id = some stored ∧ stored.val.state = .queued ∧
      stored.val.nextRetryAt = some due

/-- The step commits a claim of the notification, made in a transaction that began at `now`. -/
def Claims (engine : Engine) (event : Event) (id : Uuid) (now : Time) : Prop :=
  ∃ index room candidates claimed, event = .scheduler index .commit ∧
    engine.schedulers[index]? = some (.claiming now room candidates claimed) ∧
    id ∈ claimed.map Notification.id

/-- The row waits for a retry at this time. -/
def Scheduled (engine : Engine) (id : Uuid) (due : Time) : Prop :=
  ∃ stored, engine.world.row id = some stored ∧ stored.val.nextRetryAt = some due

/-- The retry scheduled after `front` is the one the row still waits for: nothing has
claimed or rescheduled it since. -/
structure Awaits (config : Config) (events front : List Event) (id : Uuid) (due : Time) : Prop where
  scheduled : ∃ before event after, Takes (system config) events front before event after ∧
    Reschedules before event after id due
  unclaimed : ∀ later start event finish now,
    Takes (system config) events later start event finish →
    front.length < later.length → ¬ Claims start event id now
  kept : ∀ later start event finish next, Takes (system config) events later start event finish →
    front.length < later.length → ¬ Reschedules start event finish id next

variable {config : Config} {engine after : Engine} {event : Event} {events front : List Event}
variable {id : Uuid} {due now : Time}

/-- What a claim commits: the row it has read was due, and waits for no retry any more. -/
theorem Moves.claims (moves : Moves config engine event after) (sound : Sound config engine)
    (claims : Claims engine event id now) :
    ∃ stored next, engine.world.row id = some stored ∧ retryable now stored.val = true ∧
      after.world.row id = some next ∧ next.val = claimRetry now stored.val := by
  obtain ⟨index, room, candidates, claimed, rfl, found, member⟩ := claims
  obtain ⟨notification, listed, rfl⟩ := List.mem_map.mp member
  cases moves with
  | @scheduler _ phase _ world last entry moves =>
    obtain rfl := Option.some.inj (entry.symm.trans found)
    obtain ⟨rows, _, _⟩ := (sound.scheduler entry).claiming now room candidates claimed rfl
    obtain ⟨stored, version, present, matched, pending, written, _⟩ := rows notification listed
    cases moves with
    | commit =>
      exact ⟨stored, version, present, matched, World.commit_row_of_pending pending, written⟩

/-- Only `schedule_retry` makes a row wait for a retry. -/
theorem Moves.scheduled (moves : Moves config engine event after) (sound : Sound config engine)
    (scheduled : Scheduled after id due) : Reschedules engine event after id due ∨
      Scheduled engine id due := by
  obtain ⟨final, present, waits⟩ := scheduled
  rcases moves.row_change sound id with same | ⟨_, _, base, rows, published⟩
  · exact .inr ⟨final, same.symm.trans present, waits⟩
  · rw [present] at rows
    cases published with
    | create found current written =>
      cases rows
      rw [written] at waits
      cases waits
    | queue found current names waiting written =>
      cases rows
      rw [written] at waits
      exact .inr ⟨_, base, waits⟩
    | deliver found current names known persisted =>
      cases rows
      rcases Lifecycle.delivered_state persisted with
        ⟨_, _, unscheduled⟩ | ⟨_, _, _, unscheduled⟩ | ⟨_, failure, _, queued, _⟩
      · simp [waits] at unscheduled
      · simp [waits] at unscheduled
      · exact .inl ⟨_, _, _, _, final, rfl, found, current, names, failure, present, queued, waits⟩
    | claim found member matched written =>
      cases rows
      rw [written] at waits
      cases waits

theorem Claims.unscheduled (claims : Claims engine event id now)
    (moves : Moves config engine event after)
    (sound : Sound config engine) : ¬ Scheduled after id due := by
  obtain ⟨_, next, _, _, present, written⟩ := moves.claims sound claims
  rintro ⟨final, found, waits⟩
  obtain rfl := Option.some.inj (present.symm.trans found)
  rw [written] at waits
  cases waits

theorem Reschedules.scheduled (reschedules : Reschedules engine event after id due) :
    Scheduled after id due := by
  obtain ⟨_, _, _, _, stored, _, _, _, _, _, present, _, waits⟩ := reschedules
  exact ⟨stored, present, waits⟩

theorem Scheduled.unique {other : Time} (first : Scheduled engine id due)
    (second : Scheduled engine id other) :
    due = other := by
  obtain ⟨stored, present, waits⟩ := first
  obtain ⟨same, found, also⟩ := second
  obtain rfl := Option.some.inj (present.symm.trans found)
  exact Option.some.inj (waits.symm.trans also)

/-- A row that waits for a retry waits for the last one scheduled. -/
theorem run_awaits (run : Run (system config) Any events engine)
    (scheduled : Scheduled engine id due) :
    ∃ front, Awaits config events front id due := by
  induction run with
  | start => obtain ⟨stored, present, _⟩ := scheduled; cases present
  | @step events before event after earlier permitted taken ih =>
    have sound := run_sound earlier
    have moves : Moves config before event after := step_moves taken
    by_cases again : ∃ next, Reschedules before event after id next
    · obtain ⟨next, reschedules⟩ := again
      obtain rfl := reschedules.scheduled.unique scheduled
      refine ⟨events, ⟨before, event, after, .last earlier taken, reschedules⟩, ?_, ?_⟩
      · intro later start act finish now takes beyond
        have bound := takes.length_lt
        simp only [List.length_append, List.length_cons, List.length_nil] at bound
        omega
      · intro later start act finish next takes beyond
        have bound := takes.length_lt
        simp only [List.length_append, List.length_cons, List.length_nil] at bound
        omega
    · rcases moves.scheduled sound scheduled with reschedules | waited
      · exact absurd ⟨_, reschedules⟩ again
      · obtain ⟨front, ⟨start, act, finish, takes, reschedules⟩, unclaimed, kept⟩ := ih waited
        refine ⟨front, ⟨start, act, finish, takes.extend [event], reschedules⟩, ?_, ?_⟩
        · intro later start act finish now takes beyond claims
          rcases takes.of_concat earlier with inner | ⟨rfl, rfl, rfl⟩
          · exact unclaimed later start act finish now inner beyond claims
          · exact claims.unscheduled (step_moves takes.taken) sound
              (Option.some.inj (takes.taken.symm.trans taken) ▸ scheduled)
        · intro later start act finish next takes beyond reschedules
          rcases takes.of_concat earlier with inner | ⟨rfl, rfl, rfl⟩
          · exact kept later start act finish next inner beyond reschedules
          · obtain rfl := Option.some.inj (takes.taken.symm.trans taken)
            exact again ⟨next, reschedules⟩

end Relays.Engine
