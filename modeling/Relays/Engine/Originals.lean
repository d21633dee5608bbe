import Relays.Engine.Refinement

/-! The request that created a notification: the one committed request whose
insert of its key won, and the record it left there. -/

namespace Relays

open ReadCommitted Transition

namespace Submission

/-- What `submit_notification` has returned, unless it is still running or has raised. -/
def Phase.returned : Phase → Option (Bool × Notification)
  | .accepted notification | .enqueued notification | .enqueueRaised notification
  | .markQueuedRaised notification => some (true, notification)
  | .answered isNewRequest notification => some (isNewRequest, notification)
  | .replayed notification => some (false, notification)
  | _ => none

/-- The notification of a committed new request. -/
def Phase.original (phase : Phase) : Option Notification :=
  match phase.returned with
  | some (true, notification) => some notification
  | _ => none

variable {config : Config} {index : Nat} {world next : World} {request : Request}
variable {event : Event} {phase : Phase} {notification : Notification}

theorem Phase.original_iff :
    phase.original = some notification ↔ phase.returned = some (true, notification) := by
  unfold Phase.original
  split <;> simp_all

theorem Phase.settled_of_returned {isNewRequest : Bool}
    (returned : phase.returned = some (isNewRequest, notification)) :
      phase.settled = some notification := by
  cases phase <;> simp_all [Phase.returned, Phase.settled]

theorem Phase.settled_of_original (original : phase.original = some notification) :
    phase.settled = some notification :=
  Phase.settled_of_returned (Phase.original_iff.mp original)

theorem afterLookup_phase (hash : String) (record : Option IdempotencyRecord) :
    (∃ error, afterLookup hash record = .refused error) ∨
      ∃ id, afterLookup hash record = .matched id := by
  unfold afterLookup
  split
  · exact .inl ⟨_, rfl⟩
  · split
    · exact .inl ⟨_, rfl⟩
    · split
      · exact .inl ⟨_, rfl⟩
      · exact .inr ⟨_, rfl⟩

theorem afterReload_phase (stored : Option StoredNotification) :
    (∃ error, afterReload stored = .refused error) ∨
      ∃ notification, afterReload stored = .replayed notification := by
  cases stored with
  | none => exact .inl ⟨_, rfl⟩
  | some stored => exact .inr ⟨_, rfl⟩

/-- The phase a lookup of an existing request ends in. -/
theorem Moves.lookup (moves : Moves config index world request event next phase)
    (lookup : event = .getIdemKeys ∨ event = .getNotification) :
    (∃ error, phase = .refused error) ∨ (∃ id, phase = .matched id) ∨
      ∃ notification, phase = .replayed notification := by
  cases moves with
  | getIdemKeys current read =>
    rw [(leave_silent read).2]
    rcases afterLookup_phase _ _ with refused | matched
    · exact .inl refused
    · exact .inr (.inl matched)
  | getNotification current read =>
    rw [(leave_silent read).2]
    rcases afterReload_phase _ with refused | replayed
    · exact .inl refused
    · exact .inr (.inr replayed)
  | insertIdemKeys | conflict | createNotification | createRejected | completeIdempotency
  | commitNew
  | commitReplay | enqueue | enqueueRaises | markQueued | markQueuedRaises | abort => simp at lookup

/-- A request becomes an original by its commit and stays one. -/
theorem Moves.original (moves : Moves config index world request event next phase) :
    phase.original = request.phase.original ∨
      ∃ notification, request.phase = .completed notification ∧ event = .commit ∧
        phase = .accepted notification := by
  have ends := moves.lookup
  cases moves with
  | insertIdemKeys current | conflict current | createNotification current | createRejected current
  | completeIdempotency current =>
    exact .inl (by simp [current, Phase.original, Phase.returned])
  | commitNew current => exact .inr ⟨_, current, rfl, rfl⟩
  | getIdemKeys current read =>
    left
    rcases ends (.inl rfl) with ⟨_, rfl⟩ | ⟨_, rfl⟩ | ⟨_, rfl⟩ <;>
      simp [current, Phase.original, Phase.returned]
  | getNotification current read =>
    left
    rcases ends (.inr rfl) with ⟨_, rfl⟩ | ⟨_, rfl⟩ | ⟨_, rfl⟩ <;>
      simp [current, Phase.original, Phase.returned]
  | commitReplay current | enqueue current | enqueueRaises current | markQueued current
  | markQueuedRaises current =>
    exact .inl (by simp [current, Phase.original, Phase.returned])
  | abort running =>
    left
    cases current : request.phase <;> simp_all [Phase.original, Phase.returned, Phase.inTransaction]

end Submission

namespace Engine

/-- The request at this place created and committed this notification. -/
def Original (engine : Engine) (index : Nat) (key : IdempotencyKey) (id : Uuid) : Prop :=
  ∃ request notification, engine.requests[index]? = some request ∧ request.arguments.key = key ∧
    request.phase.original = some notification ∧ notification.id = id

structure Originals (engine : Engine) : Prop where
  row : ∀ id stored, engine.world.row id = some stored → ∃ index key, Original engine index key id
  record : ∀ key record, (engine.world.idempotency key).committed = some record →
    ∃ index id, Original engine index key id ∧ record.notificationId = some id
  key : ∀ first second key one two, Original engine first key one → Original engine second key two →
    first = second
  id : ∀ first second one two id, Original engine first one id → Original engine second two id →
    first = second

variable {config : Config} {engine after : Engine} {event : Event} {allowed : Engine → Event → Prop}
variable {events : List Event} {index : Nat} {key : IdempotencyKey} {id : Uuid}

theorem Original.unique {other : Uuid} (first : Original engine index key id)
    (second : Original engine index key other) : id = other := by
  obtain ⟨request, notification, found, _, original, rfl⟩ := first
  obtain ⟨same, again, present, _, also, rfl⟩ := second
  obtain rfl := Option.some.inj (found.symm.trans present)
  obtain rfl := Option.some.inj (original.symm.trans also)
  rfl

/-- An original has its record and its row. -/
theorem Original.recorded (original : Original engine index key id) (sound : Sound config engine) :
    ∃ request, engine.requests[index]? = some request ∧ request.arguments.key = key ∧
      Submission.Recorded engine.world key (Submission.requestHash config request.arguments) id ∧
      ∃ stored, engine.world.row id = some stored := by
  obtain ⟨request, notification, found, rfl, held, rfl⟩ := original
  obtain ⟨recorded, stored, present, _⟩ :=
    (sound.request found).settled notification (Submission.Phase.settled_of_original held)
  exact ⟨request, found, rfl, recorded, stored, present⟩

section Records

variable {world : World} {tx : Party}

theorem commit_record (free : ¬ world.idempotency.Owns tx key) :
    ((world.commit tx).idempotency key).committed = (world.idempotency key).committed :=
  congrArg Cell.committed (Table.commit_of_unowned fun version held => free ⟨version, held⟩)

private theorem submission_record {request : Submission.Request} {event : Submission.Event}
    {world : World} {phase : Submission.Phase} (sound : Sound config engine)
    (found : engine.requests[index]? = some request)
    (moves : Submission.Moves config index engine.world request event world phase)
    (key : IdempotencyKey) :
    (world.idempotency key).committed = (engine.world.idempotency key).committed ∨
      ∃ notification, request.phase = .completed notification ∧ event = .commit ∧
        request.arguments.key = key := by
  have valid := sound.request found
  rcases moves.effect with ⟨silent, _⟩
    | ⟨rfl, rfl, ⟨notification, current, _⟩ | ⟨notification, current, _⟩⟩ |
    ⟨_, _, _, rfl, _⟩ | ⟨_, _, _, _, current, done, rfl, _⟩
  · exact .inl (silent.records key)
  · obtain ⟨⟨record, reserves, _⟩, _⟩ := valid.completed notification current
    by_cases own : request.arguments.key = key
    · exact .inr ⟨notification, current, rfl, own⟩
    · exact .inl (commit_record fun owned => own (reserves.sole key owned).symm)
  · have idle := valid.idle (by simp [current, Submission.Phase.writing])
    exact .inl (commit_record (idle.idempotency key))
  · exact .inl rfl
  · have idle := valid.idle (by simp [current, Submission.Phase.writing])
    have same := World.updateNotification_idempotency done
    left
    rw [commit_record (by rw [same]; exact idle.idempotency key), same]

private theorem delivery_record {execution : Delivery.Execution} {event : Delivery.Event}
    {world : World} {phase : Delivery.Phase} (sound : Sound config engine)
    (found : engine.executions[index]? = some execution)
    (moves : Delivery.Moves config index engine.world execution event world phase)
    (key : IdempotencyKey) :
    (world.idempotency key).committed = (engine.world.idempotency key).committed := by
  have valid := sound.worker found
  rcases moves.effect with ⟨silent, _⟩ | ⟨_, _, _, _, rfl, _⟩ | ⟨_, _, _, _, rfl, _⟩
    | ⟨_, _, _, _, rfl, _⟩
  · exact silent.records key
  · rfl
  · rfl
  · exact commit_record (valid.idempotency key)

private theorem scheduler_record {event : RetryScheduler.Event} {world : World}
    {phase last : RetryScheduler.Phase} (sound : Sound config engine)
    (found : engine.schedulers[index]? = some phase)
    (moves : RetryScheduler.Moves index engine.world phase event world last)
    (key : IdempotencyKey) :
    (world.idempotency key).committed = (engine.world.idempotency key).committed := by
  have valid := sound.scheduler found
  rcases moves.effect with ⟨silent, _⟩ | ⟨_, _, _, _, _, _, rfl, _⟩ | ⟨_, _, _, _, _, _, _, rfl, _⟩
  · exact silent.records key
  · exact commit_record (valid.idempotency key)
  · rfl

/-- Only the commit of a new request publishes a record, and only that of its key. -/
theorem Moves.record_published (moves : Moves config engine event after)
    (sound : Sound config engine)
    (key : IdempotencyKey) :
    (after.world.idempotency key).committed = (engine.world.idempotency key).committed ∨
      ∃ index request notification, event = .request index .commit ∧
        engine.requests[index]? = some request ∧ request.phase = .completed notification ∧
        request.arguments.key = key := by
  cases moves with
  | tick | post | consume | redeliver | beat => exact .inl rfl
  | request found moves =>
    rcases submission_record sound found moves key with same | ⟨notification, current, rfl, own⟩
    · exact .inl same
    · exact .inr ⟨_, _, notification, rfl, found, current, own⟩
  | worker found moves => exact .inl (delivery_record sound found moves key)
  | scheduler found moves => exact .inl (scheduler_record sound found moves key)

end Records

theorem Moves.original_kept (moves : Moves config engine event after)
    (original : Original engine index key id) : Original after index key id := by
  obtain ⟨request, notification, found, keyed, held, named⟩ := original
  rcases moves.request_next found with kept | ⟨_, phase, _, moves, present⟩
  · exact ⟨request, notification, kept, keyed, held, named⟩
  · refine ⟨_, notification, present, keyed, ?_, named⟩
    rcases moves.original with kept | ⟨_, current, _⟩
    · exact kept.trans held
    · simp [current, Submission.Phase.original, Submission.Phase.returned] at held

theorem Moves.original_new (moves : Moves config engine event after)
    (original : Original after index key id) : Original engine index key id ∨
      ∃ request notification, event = .request index .commit ∧
        engine.requests[index]? = some request ∧
        request.phase = .completed notification ∧ request.arguments.key = key ∧
          notification.id = id := by
  obtain ⟨request, notification, found, keyed, held, named⟩ := original
  rcases moves.request_cases found with earlier | ⟨_, _, rfl⟩
    | ⟨current, _, rfl, entry, same, moves⟩
  · exact .inl ⟨request, notification, earlier, keyed, held, named⟩
  · simp [Submission.Phase.original, Submission.Phase.returned] at held
  · rw [same] at keyed
    rcases moves.original with kept | ⟨accepted, completed, rfl, committed⟩
    · exact .inl ⟨current, notification, entry, keyed, kept.symm.trans held, named⟩
    · rw [committed] at held
      obtain rfl : accepted = notification := Option.some.inj held
      exact .inr ⟨current, accepted, rfl, entry, completed, keyed, named⟩

theorem Moves.commits_original {request : Submission.Request} {notification : Notification}
    (moves : Moves config engine (.request index .commit) after)
    (found : engine.requests[index]? = some request)
    (current : request.phase = .completed notification) :
    Original after index request.arguments.key notification.id := by
  cases moves with
  | request entry moves =>
    obtain rfl := Option.some.inj (entry.symm.trans found)
    cases moves with
    | commitNew completed =>
      obtain rfl : _ = notification := Submission.Phase.completed.inj (completed.symm.trans current)
      exact ⟨_, _, Processes.set_self entry, rfl, rfl, rfl⟩
    | commitReplay replayed => simp [current] at replayed

/-- The key and the notification of a request about to commit belong to no original. -/
private theorem completed_fresh {request : Submission.Request} {notification : Notification}
    (sound : Sound config engine) (found : engine.requests[index]? = some request)
    (current : request.phase = .completed notification) (other : Nat) :
    (∀ id, ¬ Original engine other request.arguments.key id) ∧
      ∀ key, ¬ Original engine other key notification.id := by
  obtain ⟨⟨record, reserves, _⟩, drafts⟩ := (sound.request found).completed notification current
  constructor
  · intro id original
    obtain ⟨_, _, _, ⟨published, present, _⟩, _⟩ := original.recorded sound
    have absent := (sound.world.inserts _ _ _ reserves.pending).1
    simp [absent] at present
  · intro key original
    obtain ⟨_, _, _, _, stored, present⟩ := original.recorded sound
    simp [drafts.absent] at present

theorem Moves.originals (moves : Moves config engine event after) (sound : Sound config engine)
    (originals : Originals engine) : Originals after where
  row id stored found := by
    rcases moves.row_change sound id with same | ⟨_, _, earlier, _, published⟩
    · obtain ⟨index, key, original⟩ := originals.row id stored (same ▸ found)
      exact ⟨index, key, moves.original_kept original⟩
    · cases published with
      | @create _ _ _ request draft requested current written =>
        have named : draft.val.id = id := by rw [written]; rfl
        have original := moves.commits_original requested current
        rw [named] at original
        exact ⟨_, _, original⟩
      | queue | deliver | claim =>
        obtain ⟨index, key, original⟩ := originals.row id _ earlier
        exact ⟨index, key, moves.original_kept original⟩
  record key record found := by
    rcases moves.record_published sound key with same
      | ⟨index, request, notification, rfl, requested, current, rfl⟩
    · rw [same] at found
      obtain ⟨index, id, original, noted⟩ := originals.record key record found
      exact ⟨index, id, moves.original_kept original, noted⟩
    · have original := moves.commits_original requested current
      obtain ⟨_, _, _, ⟨committed, present, _, noted⟩, _⟩ := original.recorded (moves.sound sound)
      obtain rfl := Option.some.inj (present.symm.trans found)
      exact ⟨index, notification.id, original, noted⟩
  key first second key one two left right := by
    rcases moves.original_new left with left | ⟨request, notification, rfl, found, current,
      rfl, rfl⟩
    · rcases moves.original_new right with right | ⟨request, notification, rfl, found, current,
        rfl, rfl⟩
      · exact originals.key first second key one two left right
      · exact absurd left ((completed_fresh sound found current first).1 one)
    · rcases moves.original_new right with right | ⟨_, _, same, _⟩
      · exact absurd right ((completed_fresh sound found current second).1 two)
      · cases same
        rfl
  id first second one two id left right := by
    rcases moves.original_new left with left | ⟨request, notification, rfl, found, current,
      rfl, rfl⟩
    · rcases moves.original_new right with right | ⟨request, notification, rfl, found, current,
        rfl, rfl⟩
      · exact originals.id first second one two id left right
      · exact absurd left ((completed_fresh sound found current first).2 one)
    · rcases moves.original_new right with right | ⟨_, _, same, _⟩
      · exact absurd right ((completed_fresh sound found current second).2 two)
      · cases same
        rfl

theorem init_originals : Originals init := by
  constructor <;> simp [init, World.empty, World.row, Table.empty, Original]

/-- Every committed row and every committed record has its one original. -/
theorem run_originals (run : Run (system config) allowed events engine) : Originals engine :=
  run.invariant init_originals fun _ _ _ _ earlier originals _ taken =>
    (step_moves taken).originals (run_sound earlier) originals

/-- An original stays one to the end of the run. -/
theorem run_original_kept {front back : List Event} {middle : Engine}
    (run : Run (system config) allowed events engine)
    (split : events = front ++ back) (reached : Run (system config) allowed front middle)
    (original : Original middle index key id) : Original engine index key id :=
  run.keeps split reached original fun _ _ _ _ _ original _ taken =>
    (step_moves taken).original_kept original

end Engine

end Relays
