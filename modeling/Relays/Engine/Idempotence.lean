import Relays.Engine.Originals

/-! Submissions of one idempotency key: whatever the order of their statements,
their commits and their aborts, the key stands for one notification. -/

namespace Relays

open ReadCommitted Transition

theorem Submission.Recorded.unique {world : World} {key : IdempotencyKey} {one two : String}
    {id other : Uuid}
    (first : Submission.Recorded world key one id)
    (second : Submission.Recorded world key two other) :
    two = one ∧ other = id := by
  obtain ⟨record, found, rfl, named⟩ := first
  obtain ⟨same, again, rfl, noted⟩ := second
  obtain rfl := Option.some.inj (found.symm.trans again)
  exact ⟨rfl, Option.some.inj (noted.symm.trans named)⟩

namespace Engine

/-- `submit_notification` has returned this notification to a request of this key. -/
def Returned (config : Config) (engine : Engine) (index : Nat) (key : IdempotencyKey)
    (hash : String)
    (isNewRequest : Bool) (id : Uuid) : Prop :=
  ∃ request notification, engine.requests[index]? = some request ∧ request.arguments.key = key ∧
    Submission.requestHash config request.arguments = hash ∧
    request.phase.returned = some (isNewRequest, notification) ∧ notification.id = id

/-- A step publishes nothing: no row, no attempt and no idempotency record. -/
structure WritesNothing (before after : Engine) : Prop where
  rows : ∀ id, after.world.row id = before.world.row id
  attempts : after.world.attempts.committed = before.world.attempts.committed
  records : ∀ key, (after.world.idempotency key).committed =
    (before.world.idempotency key).committed

/-- The submissions of one key in one state of the engine. -/
structure Idempotent (config : Config) (engine : Engine) (key : IdempotencyKey) : Prop where
  /-- At most one row is committed for the key. -/
  one : ∀ first second id other, Original engine first key id → Original engine second key other →
    id = other
  /-- Once any call has returned, exactly one has created the row. -/
  new : ∀ index hash isNewRequest id, Returned config engine index key hash isNewRequest id →
    ∃! first, ∃ hash id, Returned config engine first key hash true id
  /-- All calls that return have the hash of that call and return its row. -/
  same : ∀ first second hash other isNewRequest id named,
    Returned config engine first key hash true id →
    Returned config engine second key other isNewRequest named → other = hash ∧ named = id ∧
      ∃ stored, engine.world.row id = some stored
  /-- A call with another hash that meets the committed record raises the 409. -/
  conflict : ∀ index request record, engine.requests[index]? = some request →
    request.arguments.key = key →
    (engine.world.idempotency key).committed = some record →
    record.requestHash ≠ Submission.requestHash config request.arguments →
    request.phase = .conflicted → ∃ after, step config engine (.request index .getIdemKeys) =
      some after ∧
      after.requests[index]? = some { request with phase := .refused Submission.hashMismatch }
  /-- Such a call writes nothing, whatever step it takes. -/
  unwritten : ∀ index request record event after, engine.requests[index]? = some request →
    request.arguments.key = key → (engine.world.idempotency key).committed = some record →
    record.requestHash ≠ Submission.requestHash config request.arguments →
    step config engine (.request index event) = some after → WritesNothing engine after
  /-- No other error of the lookups is ever raised. -/
  refused : ∀ (index : Nat) (request : Submission.Request) (error : APIException),
    engine.requests[index]? = some request → request.arguments.key = key →
      request.phase = .refused error →
    error = Submission.hashMismatch ∧ error.statusCode = 409

variable {config : Config} {engine after : Engine} {events : List Event} {index : Nat}
variable {key : IdempotencyKey} {hash : String} {isNewRequest : Bool} {id : Uuid}
variable {request : Submission.Request} {record : IdempotencyRecord}

theorem Returned.original (returned : Returned config engine index key hash true id) :
    Original engine index key id := by
  obtain ⟨request, notification, found, keyed, _, held, named⟩ := returned
  exact ⟨request, notification, found, keyed, Submission.Phase.original_iff.mpr held, named⟩

theorem Original.returned (original : Original engine index key id) :
    ∃ hash, Returned config engine index key hash true id := by
  obtain ⟨request, notification, found, keyed, held, named⟩ := original
  exact ⟨_, request, notification, found, keyed, rfl, Submission.Phase.original_iff.mp held, named⟩

/-- What is returned is what the record of the key says. -/
theorem Returned.recorded (returned : Returned config engine index key hash isNewRequest id)
    (sound : Sound config engine) : Submission.Recorded engine.world key hash id := by
  obtain ⟨request, notification, found, rfl, rfl, held, rfl⟩ := returned
  exact ((sound.request found).settled notification (Submission.Phase.settled_of_returned held)).1

/-- The lookup of a request that has met a record ends as the record says. -/
theorem lookup_step (sound : Sound config engine) (found : engine.requests[index]? = some request)
    (current : request.phase = .conflicted)
    (committed : (engine.world.idempotency request.arguments.key).committed = some record) :
    ∃ after, step config engine (.request index .getIdemKeys) = some after ∧
      after.requests[index]? = some { request with
        phase := Submission.afterLookup (Submission.requestHash config request.arguments)
          (some record) } := by
  have idle := (sound.request found).idle (by simp [current, Submission.Phase.writing])
  have seen := (idle.view_record request.arguments.key).trans committed
  have left : (Submission.leave engine.world (.request index) _).2 =
      Submission.afterLookup (Submission.requestHash config request.arguments) (some record) :=
    (Submission.leave_silent rfl).2
  rw [← left]
  exact ⟨_, by simp only [step, found, Submission.step, current, seen]; rfl,
    Processes.set_self found⟩

/-- A request that differs from the record of its key never gets past the lookup. -/
theorem mismatched_phase (valid : Submission.Valid config index engine.world request)
    (sound : engine.world.Sound)
    (found : (engine.world.idempotency request.arguments.key).committed = some record)
    (other : record.requestHash ≠ Submission.requestHash config request.arguments) :
    request.phase.writing = false ∧ request.phase.settled = none := by
  have reserved (draft : IdempotencyRecord)
      (reserves : Submission.Reserves index engine.world request.arguments.key draft) : False := by
    have absent := (sound.inserts _ _ _ reserves.pending).1
    simp [absent] at found
  have unmatched (hash : String) (id : Uuid)
      (recorded : Submission.Recorded engine.world request.arguments.key hash id) :
      record.requestHash = hash := by
    obtain ⟨same, again, hashed, _⟩ := recorded
    obtain rfl := Option.some.inj (found.symm.trans again)
    exact hashed
  constructor
  · cases current : request.phase with
    | recorded now draft => exact absurd (valid.recorded now draft current).1 (reserved draft)
    | created draft notification =>
        exact absurd (valid.created draft notification current).1 (reserved draft)
    | completed notification =>
      obtain ⟨⟨draft, reserves, _⟩, _⟩ := valid.completed notification current
      exact absurd reserves (reserved draft)
    | _ => rfl
  · cases settled : request.phase.settled with
    | none => rfl
    | some notification => exact absurd (unmatched _ _ (valid.settled notification settled).1) other

/-- Until it returns, a request that does not insert its key publishes nothing. -/
private theorem mismatched_writes_nothing {event : Submission.Event} {world : World}
    {phase : Submission.Phase}
    (moves : Submission.Moves config index engine.world request event world phase)
    (unwritten : request.phase.writing = false) (unsettled : request.phase.settled = none) :
    (∀ id, world.row id = engine.world.row id) ∧
      world.attempts.committed = engine.world.attempts.committed ∧
      ∀ key, (world.idempotency key).committed = (engine.world.idempotency key).committed := by
  rcases moves.effect with ⟨silent, _⟩ | ⟨_, _, ⟨_, current, _⟩ | ⟨_, current, _⟩⟩
    | ⟨_, _, current, _⟩ |
    ⟨_, _, _, _, current, _⟩
  · exact ⟨silent.rows, silent.attempts, silent.records⟩
  · simp [current, Submission.Phase.writing] at unwritten
  all_goals simp [current, Submission.Phase.settled] at unsettled

theorem submission_idempotent (run : Run (system config) Any events engine) (key : IdempotencyKey) :
    Idempotent config engine key := by
  have sound := run_sound run
  have originals := run_originals run
  constructor
  · intro first second id other left right
    obtain rfl := originals.key first second key id other left right
    exact left.unique right
  · intro index hash isNewRequest id returned
    obtain ⟨record, found, _⟩ := returned.recorded sound
    obtain ⟨first, id, original, _⟩ := originals.record key record found
    obtain ⟨hash, new⟩ : ∃ hash, Returned config engine first key hash true id := original.returned
    refine ⟨first, ⟨hash, id, new⟩, ?_⟩
    intro second ⟨_, other, also⟩
    exact originals.key second first key other id also.original original
  · intro first second hash other isNewRequest id named new returned
    obtain ⟨_, _, _, _, stored, present⟩ := new.original.recorded sound
    obtain ⟨hashed, same⟩ := (new.recorded sound).unique (returned.recorded sound)
    exact ⟨hashed, same, stored, present⟩
  · rintro index request record found rfl committed other current
    obtain ⟨after, taken, lands⟩ := lookup_step sound found current committed
    refine ⟨after, taken, ?_⟩
    rw [lands, Submission.afterLookup, if_pos other]
  · rintro index request record event after found rfl committed other taken
    obtain ⟨unwritten, unsettled⟩ :=
      mismatched_phase (sound.request found) sound.world committed other
    cases step_moves taken with
    | request entry moves =>
      obtain rfl := Option.some.inj (entry.symm.trans found)
      obtain ⟨rows, attempts, records⟩ := mismatched_writes_nothing moves unwritten unsettled
      exact ⟨rows, attempts, records⟩
  · intro index request error found keyed current
    obtain ⟨rfl, _⟩ := (sound.request found).refused error current
    exact ⟨rfl, rfl⟩

/-- A second request of the key starts with the first one and meets its record. -/
def replays : List Event :=
  [.post sampleArguments] ++ submits 1 7 ++ [.request 0 .insertIdemKeys, .request 0 .getIdemKeys,
    .request 0 .getNotification, .request 0 .commit]

theorem replays_returned : ∃ engine, Run (system sampleConfig) Any replays engine ∧
    (engine.requests.map fun request => request.phase.returned.map Prod.fst) =
      [some false, some true] := by
  obtain ⟨engine, run, observed⟩ := Run.exists_of_execute (system sampleConfig) Any replays
    (fun engine => (engine.requests.map fun request => request.phase.returned.map Prod.fst) =
      [some false, some true]) (by decide +kernel)
  exact ⟨engine, run, of_decide_eq_true observed⟩

theorem submission_idempotent_replay : ∃ engine, Run (system sampleConfig) Any replays engine ∧
    (engine.requests.map fun request => request.phase.returned.map Prod.fst) =
    [some false, some true] ∧
    Idempotent sampleConfig engine sampleArguments.key := by
  obtain ⟨engine, run, returned⟩ := replays_returned
  exact ⟨engine, run, returned, submission_idempotent run sampleArguments.key⟩

end Engine

end Relays
