import Relays.Engine.Deliverability

/-! What the provider is asked to send: the payload of the request that has created the
notification. -/

namespace Relays

open ReadCommitted Transition

namespace Delivery

variable {config : Config} {index : Nat} {world next : World} {execution : Execution}
    {event : Event} {phase : Phase}
variable {notification : Notification} {payload : EmailPayload}

/-- An execution loads a payload that validates. -/
theorem Moves.loads_valid (moves : Moves config index world execution event next phase)
    (loaded : phase = .loaded notification payload) :
    EmailPayload.modelValidate notification.payload = some payload := by
  cases moves with
  | load received =>
    obtain ⟨_, _, rfl, _, validated⟩ := afterLoad_eq_loaded.mp loaded
    exact validated
  | _ => cases loaded

end Delivery

namespace Engine

/-- What the executions have loaded and what they have sent is the payload of the row. -/
structure Carried (engine : Engine) : Prop where
  loaded : ∀ (index : Nat) (execution : Delivery.Execution) notification payload,
    engine.executions[index]? = some execution → execution.phase = .loaded notification payload →
    EmailPayload.modelValidate notification.payload = some payload
  calls : ∀ call ∈ engine.world.calls, ∃ stored, engine.world.row call.notificationId =
    some stored ∧
    EmailPayload.modelValidate stored.val.payload = some call.payload

variable {config : Config} {engine after : Engine} {event : Event} {events : List Event}
variable {allowed : Engine → Event → Prop}

/-- A step asks the provider for what an execution has loaded, or leaves the calls alone. -/
theorem Moves.asks (moves : Moves config engine event after) :
    after.world.calls = engine.world.calls ∨
      ∃ index execution notification payload, engine.executions[index]? = some execution ∧
        execution.phase = .loaded notification payload ∧
        after.world.calls = engine.world.calls ++ [⟨index, execution.notificationId, payload⟩] := by
  cases moves with
  | tick | post | consume | redeliver | beat => exact .inl rfl
  | request found moves => exact .inl moves.logs.2
  | worker found moves =>
    rcases moves.effect with ⟨silent, _⟩ | ⟨notification, payload, _, current, rfl, _⟩
      | ⟨_, _, _, _, rfl, _⟩ |
      ⟨_, _, _, _, rfl, _⟩
    · exact .inl silent.calls
    · exact .inr ⟨_, _, notification, payload, found, current, rfl⟩
    · exact .inl rfl
    · exact .inl rfl
  | scheduler found moves => exact .inl moves.logs.2

theorem Carried.step (carried : Carried engine) (moves : Moves config engine event after)
    (sound : Sound config engine) : Carried after where
  loaded index execution notification payload found current := by
    rcases moves.execution_cases found with earlier | ⟨_, rfl, _⟩
      | ⟨before, statement, _, entry, _, moved⟩
    · exact carried.loaded index execution notification payload earlier current
    · cases current
    · exact moved.loads_valid current
  calls call member := by
    have kept (call : SendCall) (stored : StoredNotification)
      (present : engine.world.row call.notificationId = some stored)
        (validated : EmailPayload.modelValidate stored.val.payload = some call.payload) :
        ∃ stored, after.world.row call.notificationId = some stored ∧
          EmailPayload.modelValidate stored.val.payload = some call.payload := by
      obtain ⟨later, there, same⟩ := (moves.extends sound).rows _ stored present
      exact ⟨later, there, by rw [Notification.payload_eq same]; exact validated⟩
    rcases moves.asks with same
      | ⟨index, execution, notification, payload, found, current, appended⟩
    · rw [same] at member
      obtain ⟨stored, present, validated⟩ := carried.calls call member
      exact kept call stored present validated
    · rw [appended] at member
      rcases List.mem_append.mp member with earlier | new
      · obtain ⟨stored, present, validated⟩ := carried.calls call earlier
        exact kept call stored present validated
      · obtain rfl := List.mem_singleton.mp new
        obtain ⟨stored, present, same⟩ :=
          (sound.worker found).snapshot notification (by rw [current]; rfl)
        refine kept _ stored present ?_
        rw [← Notification.payload_eq same]
        exact carried.loaded index execution notification payload found current

theorem run_carried (run : Run (system config) allowed events engine) : Carried engine := by
  apply run.invariant
  · constructor <;> simp [system, init, World.empty]
  · intro _ _ _ _ earlier carried _ taken
    exact carried.step (step_moves taken) (run_sound earlier)

/-- A row is that of the request which has created it, but for the columns that are updated. -/
theorem run_submitted {id : Uuid} {stored : StoredNotification}
    (run : Run (system config) allowed events engine)
    (present : engine.world.row id = some stored) :
    ∃ (index : Nat) (request : Submission.Request) (now : Time), engine.requests[index]? =
      some request ∧
      stored.val.identity = (Submission.newNotification request.arguments now id).identity := by
  obtain ⟨index, key, request, notification, found, _, created, rfl⟩ :=
    (run_originals run).row id stored present
  obtain ⟨now, made⟩ := run_original_made run found created
  obtain ⟨_, row, same, known⟩ :=
    ((run_sound run).request found).settled notification
      (Submission.Phase.settled_of_original created)
  obtain rfl := Option.some.inj (same.symm.trans present)
  exact ⟨index, request, now, found, known.symm.trans (congrArg Notification.identity made)⟩

/-- Only the payload of an email is read back, and as it was. -/
theorem modelValidate_dumped {payload : NotificationPayload} {email : EmailPayload}
    (validated : EmailPayload.modelValidate payload.modelDump = some email) :
      payload = .email email := by
  cases payload with
  | email given =>
    rw [NotificationPayload.modelDump, given.modelValidate_modelDump] at validated
    rw [Option.some.inj validated]
  | sms given => simp [NotificationPayload.modelDump, EmailPayload.modelValidate] at validated
  | webhook given => simp [NotificationPayload.modelDump, EmailPayload.modelValidate] at validated

/-- The provider is asked for nothing but the emails of accepted requests. -/
theorem run_call (run : Run (system config) allowed events engine) {call : SendCall}
    (member : call ∈ engine.world.calls) :
    ∃ (index : Nat) (request : Submission.Request) (stored : StoredNotification) (now : Time),
      engine.requests[index]? = some request ∧ engine.world.row call.notificationId = some stored ∧
        stored.val.identity = (Submission.newNotification request.arguments now
          call.notificationId).identity ∧
        request.arguments.request.payload = .email call.payload := by
  obtain ⟨stored, present, validated⟩ := (run_carried run).calls call member
  obtain ⟨index, request, now, found, same⟩ := run_submitted run present
  rw [Notification.payload_eq same] at validated
  exact ⟨index, request, stored, now, found, present, same, modelValidate_dumped validated⟩

end Engine

end Relays
