import Relays.Library.Linearization
import Relays.Engine.Idempotence

/-! Submissions are atomic. However their statements interleave, the requests are answered as by a
store that serves one submission at a time. -/

namespace Relays

open ReadCommitted Transition

namespace Submission

/-- A submission as the store serves it. -/
structure Operation where
  key : IdempotencyKey
  hash : String

inductive Outcome where
  | created (id : Uuid)
  | replayed (id : Uuid)
  | mismatched
  deriving DecidableEq

/-- The hash and the notification that a key stands for. -/
abbrev Register := IdempotencyKey → Option (String × Uuid)

/-- One submission: a new key is given a notification that no other key has, a used one stands for
what it was used for. -/
def register : Object Register Operation Outcome where
  init := fun _ => none
  serves := fun store operation outcome next =>
    match store operation.key with
    | none => ∃ id, (∀ key hash other, store key = some (hash, other) → other ≠ id) ∧
      outcome = .created id ∧
        next = Function.update store operation.key (some (operation.hash, id))
    | some (hash, id) => next = store ∧ outcome = if hash = operation.hash then .replayed id
      else .mismatched

def Request.operation (config : Config) (request : Request) : Operation where
  key := request.arguments.key
  hash := requestHash config request.arguments

/-- What the answer to a client says of the submission. -/
def Response.outcome : Response → Option Outcome
  | .notification body =>
    if body.statusCode = 201 then some (.created body.notificationId)
      else some (.replayed body.notificationId)
  | .error raised => if raised.code = .conflict then some .mismatched else none
  | .unhandled => none

/-- The submission has taken effect, with this outcome. -/
def Phase.outcome : Phase → Option Outcome
  | .matched id => some (.replayed id)
  | .replayed notification => some (.replayed notification.id)
  | .accepted notification | .enqueued notification | .enqueueRaised notification
  | .markQueuedRaised notification => some (.created notification.id)
  | .answered isNewRequest notification =>
    some (if isNewRequest then .created notification.id else .replayed notification.id)
  | .refused error => if error.code = .conflict then some .mismatched else none
  | _ => none

/-- The submission may still take effect. -/
def Phase.undecided : Phase → Bool
  | .begun _ | .recorded _ _ | .created _ _ | .completed _ | .conflicted => true
  | _ => false

/-- Where the submission takes effect: the commit of a new key, or the lookup of a used one. -/
def decides (config : Config) (world : World) (request : Request) : Event → Option Outcome
  | .commit =>
    match request.phase with
    | .completed notification => some (.created notification.id)
    | _ => none
  | .getIdemKeys =>
    match request.phase with
    | .conflicted =>
      match (world.idempotency request.arguments.key).committed with
      | none => none
      | some record => (afterLookup (requestHash config request.arguments) (some record)).outcome
    | _ => none
  | _ => none

variable {config : Config} {index : Nat} {world next : World} {request : Request} {event : Event}
    {phase : Phase}
variable {answer : Outcome}

theorem Phase.outcome_of_response {response : Response} (answered : phase.response = some response)
    (said : response.outcome = some answer) : phase.outcome = some answer := by
  cases phase with
  | answered isNewRequest notification =>
    obtain rfl := Option.some.inj answered
    cases isNewRequest <;> simpa [Response.outcome, buildPostResponse, Phase.outcome] using said
  | enqueueRaised | markQueuedRaised =>
    obtain rfl := Option.some.inj answered
    cases said
  | refused error =>
    obtain rfl := Option.some.inj answered
    exact said
  | aborted =>
    obtain rfl := Option.some.inj answered
    cases said
  | _ => cases answered

/-- A submission that has been decided stays so. -/
theorem Moves.undecided (moves : Moves config index world request event next phase)
    (open' : phase.undecided = true) : request.phase.undecided = true := by
  have ends := moves.lookup
  cases moves with
  | insertIdemKeys current | conflict current | createNotification current
  | completeIdempotency current
  | getIdemKeys current => rw [current]; rfl
  | createRejected | commitNew | commitReplay | enqueue | enqueueRaises | markQueued
  | markQueuedRaises | abort => cases open'
  | getNotification current =>
    rcases ends (by simp) with ⟨_, rfl⟩ | ⟨_, rfl⟩ | ⟨_, rfl⟩ <;> cases open'

/-- A submission is decided as a new one or by the record of its key. -/
theorem decides_cases (decided : decides config world request event = some answer) :
    (event = .commit ∧ ∃ notification, request.phase = .completed notification ∧
      answer = .created notification.id) ∨
      event = .getIdemKeys ∧ request.phase = .conflicted ∧ ∃ record,
        (world.idempotency request.arguments.key).committed = some record ∧
        (afterLookup (requestHash config request.arguments) (some record)).outcome =
          some answer := by
  cases event with
  | commit =>
    simp only [decides] at decided
    split at decided
    · rename_i notification current
      exact .inl ⟨rfl, notification, current, (Option.some.inj decided).symm⟩
    · cases decided
  | getIdemKeys =>
    simp only [decides] at decided
    split at decided
    · rename_i current
      split at decided
      · cases decided
      · rename_i record found
        exact .inr ⟨rfl, current, record, found, decided⟩
    · cases decided
  | _ => cases decided

/-- What a lookup finds is the record that is committed. -/
theorem Valid.looks_up (valid : Valid config index world request)
    (current : request.phase = .conflicted)
    (read : leave world (.request index) (afterLookup (requestHash config request.arguments)
      ((world.idempotency request.arguments.key).view (.request index))) = (next, phase)) :
    ∃ record, (world.idempotency request.arguments.key).committed = some record ∧
      phase = afterLookup (requestHash config request.arguments) (some record) := by
  obtain ⟨record, found⟩ := valid.conflicted current
  have idle := valid.idle (by rw [current]; rfl)
  rw [idle.view_record, found] at read
  exact ⟨record, found, (leave_silent read).2⟩

private theorem afterReload_cases (stored : Option StoredNotification) :
    afterReload stored = .refused inconsistentState ∨
      ∃ notification, afterReload stored = .replayed notification := by
  cases stored with
  | none => exact .inl rfl
  | some stored => exact .inr ⟨_, rfl⟩

/-- An outcome stands from before, or is decided by the step. -/
theorem Moves.outcome_cases (moves : Moves config index world request event next phase)
    (valid : Valid config index world request) (sound : world.Sound)
    (decided : phase.outcome = some answer) :
    request.phase.outcome = some answer ∨ decides config world request event = some answer := by
  have valid' := moves.valid sound valid
  cases moves with
  | insertIdemKeys | conflict | createNotification | createRejected | completeIdempotency
  | abort => cases decided
  | commitNew current =>
    right
    simp only [decides, current]
    exact decided
  | getIdemKeys current read =>
    right
    obtain ⟨record, found, rfl⟩ := valid.looks_up current read
    simp only [decides, current, found]
    exact decided
  | getNotification current read =>
    left
    obtain rfl := (leave_silent read).2
    obtain ⟨_, evolves, later⟩ := valid'
    have matched := (valid.matched _ current).evolves evolves
    rcases afterReload_cases ((world.notifications _).view (.request index)) with refused
      | ⟨notification, replayed⟩
    · rw [refused] at decided
      cases decided
    · rw [replayed] at decided later
      have named := (matched.unique (later.settled notification rfl).1).2
      rw [current]
      rw [← named]
      exact decided
  | commitReplay current | enqueue current | enqueueRaises current | markQueued current
  | markQueuedRaises current =>
    left
    rw [current]
    exact decided

/-- The step that decides a submission is the last that may. -/
theorem Moves.decided (moves : Moves config index world request event next phase)
    (decided : decides config world request event = some answer) : phase.undecided = false := by
  have ends := moves.lookup
  cases moves with
  | commitNew | commitReplay => rfl
  | getIdemKeys => rcases ends (by simp) with ⟨_, rfl⟩ | ⟨_, rfl⟩ | ⟨_, rfl⟩ <;> rfl
  | insertIdemKeys | conflict | createNotification | createRejected | completeIdempotency
  | getNotification | enqueue | enqueueRaises | markQueued | markQueuedRaises | abort =>
    cases decided

end Submission

namespace Engine

variable {config : Config} {engine after : Engine} {events : List Event} {event : Event}
    {index : Nat}
variable {key : IdempotencyKey} {request : Submission.Request}

/-- What the clients of `POST /v1/notifications` have submitted, and what they have been
answered. -/
def submitters (config : Config) :
    Interface Engine Nat Submission.Operation Submission.Outcome where
  invoked engine index := (engine.requests[index]?).map fun request => request.operation config
  answered engine index := (engine.requests[index]?).bind fun request =>
    request.phase.response.bind Submission.Response.outcome

/-- What the committed record of a key stands for. -/
def register (engine : Engine) : Submission.Register := fun key =>
  (engine.world.idempotency key).committed.bind fun record =>
    record.notificationId.map fun id => (record.requestHash, id)

def decision (config : Config)
    (engine : Engine) : Event → Option (Entry Nat Submission.Operation Submission.Outcome)
  | .request index statement =>
    match engine.requests[index]? with
    | none => none
    | some request =>
      (Submission.decides config engine.world request statement).map fun answer =>
        ⟨index, request.operation config, answer⟩
  | _ => none

theorem register_congr (same : (after.world.idempotency key).committed =
    (engine.world.idempotency key).committed) :
    after.register key = engine.register key := by
  simp only [register, same]

theorem register_of_recorded {hash : String} {id : Uuid}
    (recorded : Submission.Recorded engine.world key hash id) :
    engine.register key = some (hash, id) := by
  obtain ⟨record, found, rfl, named⟩ := recorded
  simp [register, found, named]

theorem decision_eq_some {entry : Entry Nat Submission.Operation Submission.Outcome}
    (decided : decision config engine event = some entry) : ∃ statement request,
      event = .request entry.client statement ∧ engine.requests[entry.client]? = some request ∧
      entry.operation = request.operation config ∧
      Submission.decides config engine.world request statement = some entry.answer := by
  cases event with
  | request index statement =>
    simp only [decision] at decided
    cases found : engine.requests[index]? with
    | none => simp [found] at decided
    | some request =>
      rw [found] at decided
      obtain ⟨answer, chosen, rfl⟩ := Option.map_eq_some_iff.mp decided
      exact ⟨statement, request, rfl, found, rfl, chosen⟩
  | _ => cases decided

theorem decision_of_decides {statement : Submission.Event} {answer : Submission.Outcome}
    (found : engine.requests[index]? = some request)
    (decided : Submission.decides config engine.world request statement = some answer) :
    decision config engine (.request index statement) =
      some ⟨index, request.operation config, answer⟩ := by
  simp [decision, found, decided]

/-- The request that takes a step is in the phase this has brought it to. -/
theorem Moves.request_moved {statement : Submission.Event}
    (moves : Moves config engine (.request index statement) after)
    (found : engine.requests[index]? = some request) : ∃ phase,
      Submission.Moves config index engine.world request statement after.world phase ∧
      after.requests[index]? = some { request with phase := phase } := by
  cases moves with
  | request entry moved =>
    obtain rfl := Option.some.inj (entry.symm.trans found)
    exact ⟨_, moved, Processes.set_self entry⟩

/-- The commit of a new key gives it a notification of its own. -/
theorem Moves.registers {notification : Notification}
    (moves : Moves config engine (.request index .commit) after)
    (sound : Sound config engine) (originals : Originals engine)
    (found : engine.requests[index]? = some request)
    (current : request.phase = .completed notification) :
    Submission.register.serves engine.register (request.operation config)
      (.created notification.id) after.register := by
  obtain ⟨⟨draft, reserves, _⟩, drafts⟩ := (sound.request found).completed notification current
  have absent := (sound.world.inserts _ _ _ reserves.pending).1
  have unused : engine.register (request.operation config).key = none := by
    simp only [register, Submission.Request.operation, absent, Option.bind_none]
  simp only [Submission.register, unused]
  refine ⟨notification.id, ?_, rfl, ?_⟩
  · rintro key hash other stands rfl
    simp only [register, Option.bind_eq_some_iff, Option.map_eq_some_iff, Prod.mk.injEq] at stands
    obtain ⟨record, present, _, named, _, rfl⟩ := stands
    obtain ⟨_, id, original, also⟩ := originals.record key record present
    obtain rfl := Option.some.inj (named.symm.trans also)
    obtain ⟨_, _, _, _, stored, row⟩ := original.recorded sound
    rw [drafts.absent] at row
    cases row
  · funext key
    by_cases own : key = request.arguments.key
    · subst own
      obtain ⟨next, entry, _, recorded, _⟩ :=
        (moves.commits_original found current).recorded (moves.sound sound)
      obtain ⟨phase, _, later⟩ := moves.request_moved found
      obtain rfl := Option.some.inj (later.symm.trans entry)
      rw [register_of_recorded recorded, Submission.Request.operation, Function.update_self]
    · rw [Submission.Request.operation, Function.update_of_ne own]
      apply register_congr
      rcases moves.record_published sound key with same | ⟨_, other, _, same, entry, _, rfl⟩
      · exact same
      · cases same
        obtain rfl := Option.some.inj (entry.symm.trans found)
        exact absurd rfl own

/-- Where nothing is decided the keys stand for what they stood for. -/
theorem Moves.register_kept (moves : Moves config engine event after) (sound : Sound config engine)
    (quiet : ∀ index request notification, event = .request index .commit →
      engine.requests[index]? = some request → request.phase ≠ .completed notification) :
    after.register = engine.register := by
  funext key
  rcases moves.record_published sound key with same
    | ⟨index, request, notification, rfl, found, current, _⟩
  · exact register_congr same
  · exact absurd current (quiet index request notification rfl found)

/-- The lookup of a used key finds what the key stands for. -/
theorem Moves.looks_up {record : IdempotencyRecord} {answer : Submission.Outcome}
    (moves : Moves config engine (.request index .getIdemKeys) after) (sound : Sound config engine)
    (present : (engine.world.idempotency request.arguments.key).committed = some record)
    (said : (Submission.afterLookup (Submission.requestHash config request.arguments)
      (some record)).outcome = some answer) :
    Submission.register.serves engine.register
      (request.operation config) answer after.register := by
  obtain ⟨_, id, _, named, _⟩ := sound.world.records _ record present
  have stands : engine.register (request.operation config).key = some (record.requestHash, id) :=
    register_of_recorded ⟨record, present, rfl, named⟩
  simp only [Submission.register, stands]
  have hashed : (request.operation config).hash = Submission.requestHash config request.arguments :=
    rfl
  refine ⟨moves.register_kept sound (by simp), ?_⟩
  rcases Submission.afterLookup_cases sound.world present with ⟨differs, refused⟩
    | ⟨other, same, also, matched⟩
  · rw [refused] at said
    rw [hashed, if_neg differs]
    exact (Option.some.inj said).symm
  · rw [matched] at said
    obtain rfl := Option.some.inj (named.symm.trans also)
    rw [hashed, if_pos same]
    exact (Option.some.inj said).symm

/-- A submission is served when it commits its new key or looks up the used one. -/
def submissionPoints (config : Config) :
    Linearization (system config) (submitters config) Submission.register where
  view := register
  point := decision config
  pending engine index := ∀ request, engine.requests[index]? = some request →
    request.phase.undecided = true
  effect engine index := (engine.requests[index]?).bind fun request => request.phase.outcome
  initial := rfl
  unserved _ := rfl
  told engine index answer answered := by
    obtain ⟨request, found, said⟩ := Option.bind_eq_some_iff.mp answered
    obtain ⟨response, responds, said⟩ := Option.bind_eq_some_iff.mp said
    rw [found, Option.bind_some]
    exact Submission.Phase.outcome_of_response responds said
  called engine event after index operation taken invoked := by
    obtain ⟨request, found, rfl⟩ := Option.map_eq_some_iff.mp invoked
    rcases (step_moves taken).request_next found with kept | ⟨_, _, _, _, later⟩
    · simp only [submitters, kept, Option.map_some]
    · simp only [submitters, later, Option.map_some]
      rfl
  quiet events engine event after run taken undecided := by
    apply (step_moves taken).register_kept (run_sound run)
    rintro index request notification rfl found current
    have decided : Submission.decides config engine.world request .commit =
        some (.created notification.id) := by
      simp only [Submission.decides, current]
    rw [decision_of_decides found decided] at undecided
    cases undecided
  serves events engine event after entry run taken decided := by
    obtain ⟨statement, request, rfl, found, same, decided⟩ := decision_eq_some decided
    have sound := run_sound run
    have moves : Moves config engine (.request entry.client statement) after := step_moves taken
    refine ⟨?_, by simp only [submitters, found, Option.map_some, same], ?_, ?_⟩
    · rw [same]
      rcases Submission.decides_cases decided with ⟨rfl, notification, current, answer⟩ |
        ⟨rfl, _, record, present, answer⟩
      · rw [answer]
        exact moves.registers sound (run_originals run) found current
      · exact moves.looks_up sound present answer
    · intro other entry
      obtain rfl := Option.some.inj (found.symm.trans entry)
      rcases Submission.decides_cases decided with ⟨_, _, current, _⟩ | ⟨_, current, _⟩ <;>
        rw [current] <;> rfl
    · intro open'
      obtain ⟨phase, moved, later⟩ := moves.request_moved found
      have closed := open' _ later
      rw [moved.decided decided] at closed
      cases closed
  spent engine event after index taken open' request found := by
    rcases (step_moves taken).request_next found with kept | ⟨_, _, _, moved, later⟩
    · exact open' request kept
    · exact moved.undecided (open' _ later)
  effective events engine event after index answer run taken served := by
    obtain ⟨request, found, served⟩ := Option.bind_eq_some_iff.mp served
    rcases (step_moves taken).request_cases found with earlier | ⟨_, _, rfl⟩
      | ⟨current, _, rfl, entry, _, moved⟩
    · left
      rw [earlier]
      exact served
    · cases served
    · have sound := run_sound run
      rcases moved.outcome_cases (sound.request entry) sound.world served with before | decided
      · left
        rw [entry]
        exact before
      · exact .inr ⟨_, decision_of_decides entry decided, rfl, rfl⟩

/-- Submissions are linearizable. In every run, in the order in which they commit their new key or
look up the used one, the submissions are served by one store, one at a time: each is served at most
once, between its request and its answer and with the outcome that it is answered; an order once
begun is only ever extended; what the store holds in the end is what the committed records say; and
a request that is told of a failed enqueue has nevertheless been served. -/
theorem submissions_linearizable (run : Run (system config) Any events engine) :
    Linearized (system config) (submitters config) Submission.register events engine
      ((submissionPoints config).order events) ∧
    Submission.register.Serial ((submissionPoints config).order events) engine.register ∧
    (∀ front back, events = front ++ back →
      (submissionPoints config).order front <+: (submissionPoints config).order events) ∧
    ∀ (index : Nat) request, engine.requests[index]? = some request →
      request.phase.response = some (.error Submission.enqueueFailure) →
      ∃ entry ∈ (submissionPoints config).order events, entry.client = index ∧
        ∃ id, entry.answer = .created id := by
  have held := (submissionPoints config).held run
  refine ⟨(submissionPoints config).linearized run, held.serial, ?_, ?_⟩
  · exact fun front back split => (submissionPoints config).order_grows run split
  · intro index request found failed
    obtain ⟨id, decided⟩ : ∃ id, request.phase.outcome = some (.created id) := by
      cases current : request.phase with
      | enqueueRaised notification | markQueuedRaised notification => exact ⟨notification.id, rfl⟩
      | refused error =>
        obtain ⟨rfl, _⟩ := ((run_sound run).request found).refused error current
        rw [current] at failed
        cases failed
      | _ => simp [current, Submission.Phase.response] at failed
    have effective : (submissionPoints config).effect engine index = some (.created id) := by
      simp only [submissionPoints, found, Option.bind_some, decided]
    obtain ⟨entry, member, same, answer⟩ := held.effective index _ effective
    exact ⟨entry, member, same, id, answer⟩

/-- The request that came second commits first: the other one is served after it, as its replay. -/
theorem submissions_linearizable_replay : ∃ engine, Run (system sampleConfig) Any replays engine ∧
    ((submissionPoints sampleConfig).order replays).map
    (fun entry => (entry.client, entry.answer)) =
      [(1, .created 7), (0, .replayed 7)] ∧
    Linearized (system sampleConfig) (submitters sampleConfig) Submission.register replays engine
      ((submissionPoints sampleConfig).order replays) := by
  obtain ⟨engine, run, _⟩ := replays_returned
  exact ⟨engine, run, by decide, (submissions_linearizable run).1⟩

end Engine

end Relays
