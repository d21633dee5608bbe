import Relays.Engine.Refinement

/-! The log of results: one entry for each execution the provider has answered. -/

namespace Relays

open ReadCommitted Transition

namespace Delivery

variable {config : Config} {index : Nat} {world next : World} {execution : Execution}
variable {event : Event} {phase : Phase}

/-- The provider has not answered yet. -/
def Phase.unanswered : Phase → Bool
  | .received | .loaded _ _ | .sending _ => true
  | _ => false

theorem Moves.stays_answered (moves : Moves config index world execution event next phase)
    (answered : execution.phase.unanswered = false) : phase.unanswered = false := by
  cases moves with
  | load current | send current | answer current | providerRaises current =>
    simp [current, Phase.unanswered] at answered
  | openTransaction | increment | record | conclude | commit | incrementRejected | incrementMissing
  | recordRejected | concludeRejected | concludeRaises | interrupt => rfl

/-- Only an answer adds to the log of results. -/
theorem Moves.results (moves : Moves config index world execution event next phase) :
    (next.results = world.results ∧ ∀ answer, event ≠ .answer answer) ∨
      ∃ notification answer, event = .answer answer ∧ execution.phase = .sending notification ∧
        next.results = world.results ++ [⟨index, execution.notificationId, answer.status⟩] ∧
        phase = .answered notification answer := by
  rcases moves.effect with ⟨silent, _, quiet, _⟩ | ⟨_, _, rfl, _, rfl, _⟩ |
    ⟨notification, answer, rfl, current, rfl, rfl⟩ | ⟨_, _, rfl, _, rfl, _⟩
  · exact .inl ⟨silent.results, quiet⟩
  · exact .inl ⟨rfl, by simp⟩
  · exact .inr ⟨notification, answer, rfl, current, rfl, rfl⟩
  · exact .inl ⟨rfl, by simp⟩

end Delivery

namespace Engine

variable {config : Config} {engine after : Engine} {event : Event} {events : List Event}
variable {allowed : Engine → Event → Prop} {index : Nat}

theorem Moves.results (moves : Moves config engine event after) :
    (after.world.results = engine.world.results ∧
      ∀ index answer, event ≠ .worker index (.answer answer)) ∨
    ∃ index execution notification answer, event = .worker index (.answer answer) ∧
      engine.executions[index]? = some execution ∧ execution.phase = .sending notification ∧
      after.world.results = engine.world.results ++
        [⟨index, execution.notificationId, answer.status⟩] ∧
      after.executions[index]? =
        some { execution with phase := .answered notification answer } := by
  cases moves with
  | tick | post | consume | redeliver | beat => exact .inl ⟨rfl, by simp⟩
  | request found moves => exact .inl ⟨moves.logs.1, by simp⟩
  | scheduler found moves => exact .inl ⟨moves.logs.1, by simp⟩
  | worker found moves =>
    rcases moves.results with ⟨same, quiet⟩ | ⟨notification, answer, rfl, current, logged, rfl⟩
    · refine .inl ⟨same, ?_⟩
      intro index answer asked
      cases asked
      exact quiet answer rfl
    · exact .inr ⟨_, _, notification, answer, rfl, found, current, logged, Processes.set_self found⟩

theorem Moves.execution_kept {execution : Delivery.Execution}
    (moves : Moves config engine event after)
    (found : engine.executions[index]? = some execution) :
    ∃ later, after.executions[index]? = some later ∧
      later.notificationId = execution.notificationId ∧
      (execution.phase.unanswered = false → later.phase.unanswered = false) := by
  rcases moves.execution_next found with kept | ⟨_, _, _, stepped, present⟩
  · exact ⟨execution, kept, rfl, id⟩
  · exact ⟨_, present, rfl, stepped.stays_answered⟩

/-- The log of results against the events of the run and its executions. -/
structure Logged (events : List Event) (engine : Engine) : Prop where
  entry : ∀ result ∈ engine.world.results, ∃ execution answer,
    engine.executions[result.execution]? = some execution ∧
      execution.notificationId = result.notificationId ∧ execution.phase.unanswered = false ∧
      .worker result.execution (.answer answer) ∈ events ∧ answer.status = result.status
  distinct : (engine.world.results.map SendResult.execution).Nodup
  answered : ∀ index answer, .worker index (.answer answer) ∈ events → ∃ execution,
    engine.executions[index]? = some execution ∧
      ⟨index, execution.notificationId, answer.status⟩ ∈ engine.world.results

theorem run_logged (run : Run (system config) allowed events engine) : Logged events engine := by
  induction run with
  | start => exact ⟨by simp [system, init, World.empty], by simp [system, init, World.empty],
    by simp⟩
  | @step events before event after earlier permitted taken logged =>
    have moves : Moves config before event after := step_moves taken
    have kept (result : SendResult) (member : result ∈ before.world.results) : ∃ execution answer,
        after.executions[result.execution]? = some execution ∧
          execution.notificationId = result.notificationId ∧ execution.phase.unanswered = false ∧
          .worker result.execution (.answer answer) ∈ events ++ [event] ∧
            answer.status = result.status := by
      obtain ⟨execution, answer, found, named, answered, asked, same⟩ := logged.entry result member
      obtain ⟨later, present, target, stays⟩ := moves.execution_kept found
      exact ⟨later, answer, present, target.trans named, stays answered,
        List.mem_append_left _ asked, same⟩
    rcases moves.results with ⟨same, quiet⟩ |
      ⟨index, execution, notification, answer, rfl, found, current, appended, present⟩
    · constructor
      · intro result member
        rw [same] at member
        exact kept result member
      · rw [same]
        exact logged.distinct
      · intro index answer asked
        rcases List.mem_append.mp asked with asked | asked
        · obtain ⟨execution, found, member⟩ := logged.answered index answer asked
          obtain ⟨later, present, target, _⟩ := moves.execution_kept found
          exact ⟨later, present, by rw [same, target]; exact member⟩
        · exact absurd (List.mem_singleton.mp asked).symm (quiet index answer)
    · constructor
      · intro result member
        rw [appended] at member
        rcases List.mem_append.mp member with member | added
        · exact kept result member
        · obtain rfl := List.mem_singleton.mp added
          exact ⟨_, answer, present, rfl, rfl, List.mem_append_right _ (List.mem_singleton.mpr rfl),
            rfl⟩
      · rw [appended, List.map_append]
        apply List.nodup_append.mpr
        refine ⟨logged.distinct, List.nodup_singleton _, ?_⟩
        intro first member last added same
        obtain ⟨result, listed, rfl⟩ := List.mem_map.mp member
        obtain ⟨answering, _, held, _, answered, _⟩ := logged.entry result listed
        rw [same, List.mem_singleton.mp added] at held
        obtain rfl := Option.some.inj (held.symm.trans found)
        simp [current, Delivery.Phase.unanswered] at answered
      · intro asking reply asked
        rcases List.mem_append.mp asked with asked | asked
        · obtain ⟨answering, held, member⟩ := logged.answered asking reply asked
          obtain ⟨later, again, target, _⟩ := moves.execution_kept held
          refine ⟨later, again, ?_⟩
          rw [appended, target]
          exact List.mem_append_left _ member
        · cases List.mem_singleton.mp asked
          refine ⟨_, present, ?_⟩
          rw [appended]
          exact List.mem_append_right _ (List.mem_singleton.mpr rfl)

end Engine

end Relays
