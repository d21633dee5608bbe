import Relays.Engine.Carriers
import Relays.Engine.DuplicateDeliveries

/-! The delivery token of a notification. In a run without failures its next delivery is always in
the hands of exactly one participant, from its first enqueue to its end, unless a result comes that
the database cannot hold or a retry falls after the last date. -/

namespace Relays

open ReadCommitted Transition

namespace Engine

/-- The carriers of a notification: a first enqueue that is pending, the pending enqueue of
a claim, a message, an execution in progress and a scheduled retry. -/
def tokens (engine : Engine) (id : Uuid) : Nat :=
  engine.requests.countP (Submission.pendingEnqueue id) +
    Processes.total (RetryScheduler.pendingEnqueues id) engine.schedulers +
    engine.world.messages id + engine.executions.countP (Delivery.inProgress id) +
    scheduledRetry (engine.world.row id)

/-- The worker's clock is read in its transaction and shows the time of the database. -/
def ClocksAgree (engine : Engine) (index : Nat) (workerNow : Time) : Prop :=
  match engine.executions[index]? with
  | some ⟨_, .recorded persist _⟩ => persist.now ≤ workerNow ∧ workerNow ≤ engine.world.clock
  | _ => True

instance (engine : Engine) (index : Nat)
    (workerNow : Time) : Decidable (ClocksAgree engine index workerNow) := by
  unfold ClocksAgree
  split <;> infer_instance

/-- Emails only, no message delivered twice, no enqueue or provider that raises, and
clocks that agree. A request that fails before its commit or in its `mark_queued` moves
no token, so both may happen. -/
def Reliable (engine : Engine) (event : Event) : Prop :=
  match event with
  | .post arguments => arguments.request.channel = .email
  | .request _ (.enqueue true) | .scheduler _ (.enqueue _ true)
  | .redeliver _ | .worker _ .providerRaises => False
  | .worker index (.conclude workerNow _) => ClocksAgree engine index workerNow
  | _ => True

instance (engine : Engine) (event : Event) : Decidable (Reliable engine event) := by
  unfold Reliable
  split <;> infer_instance

def Ideal (engine : Engine) (event : Event) : Prop := CrashFree engine event ∧ Reliable engine event

instance (engine : Engine) (event : Event) : Decidable (Ideal engine event) :=
  inferInstanceAs (Decidable (_ ∧ _))

/-- An answer whose texts the database can hold, and a date for the retry that follows one. -/
def Recordable (engine : Engine) (event : Event) : Prop :=
  match event with
  | .worker _ (.answer result) => result.storable = true
  | .worker index (.conclude workerNow delay) =>
    match engine.executions[index]? with
    | some ⟨_, .recorded persist attemptNumber⟩ => persist.Dated attemptNumber workerNow delay
    | _ => True
  | _ => True

instance (engine : Engine) (event : Event) : Decidable (Recordable engine event) := by
  unfold Recordable
  split
  · infer_instance
  · split <;> infer_instance
  · infer_instance

def Faultless (engine : Engine) (event : Event) : Prop :=
  Ideal engine event ∧ Recordable engine event

instance (engine : Engine) (event : Event) : Decidable (Faultless engine event) :=
  inferInstanceAs (Decidable (_ ∧ _))

structure Conserved (engine : Engine) : Prop where
  tokens : ∀ id, tokens engine id = owed (engine.world.row id)
  calls : ∀ id, engine.world.sends id =
    (engine.world.lifecycle id).attempts.length + engine.executions.countP (Delivery.called id)
  email : ∀ (index : Nat) (request : Submission.Request), engine.requests[index]? = some request →
    request.arguments.request.channel = .email
  decodes : ∀ id stored, engine.world.row id = some stored →
    ∃ payload, EmailPayload.modelValidate stored.val.payload = some payload
  storable : ∀ (index : Nat) (execution : Delivery.Execution) (result : ProviderResult),
    engine.executions[index]? = some execution → execution.phase.result = some result →
    result.storable = true

variable {config : Config} {engine after : Engine} {event : Event} {events : List Event}
variable {allowed : Engine → Event → Prop} {index : Nat} {id : Uuid} {stored : StoredNotification}

theorem Publishes.scheduler_commits {event : RetryScheduler.Event} {before next : Lifecycle}
    (published : Publishes engine id (.scheduler index event) before next) : event = .commit := by
  cases published with
  | claim => rfl

theorem Publishes.worker_commits {event : Delivery.Event} {before next : Lifecycle}
    (published : Publishes engine id (.worker index event) before next) : event = .commit := by
  cases published with
  | deliver => rfl

/-- A request moves its token, or brings it into being with the row it commits. -/
theorem submission_tokens {request : Submission.Request} {event : Submission.Event} {next : World}
    {phase : Submission.Phase} (sound : Sound config engine)
    (found : engine.requests[index]? = some request)
    (moves : Submission.Moves config index engine.world request event next phase)
    (sends : event ≠ .enqueue true)
    (id : Uuid) :
    (if Submission.pendingEnqueue id { request with phase := phase } then 1 else 0) +
      next.messages id +
        scheduledRetry (next.row id) + owed (engine.world.row id) =
      (if Submission.pendingEnqueue id request then 1 else 0) + engine.world.messages id +
        scheduledRetry (engine.world.row id) + owed (next.row id) := by
  have hands := moves.hands_over sends id
  rcases (Moves.request found moves).row_change sound id with row | ⟨_, _, base, rows, published⟩
  · change next.row id = engine.world.row id at row
    rcases hands with kept | ⟨notification, current, rfl, rfl, rfl⟩
    · rw [row]
      omega
    · obtain ⟨_, drafts⟩ := (sound.request found).completed notification current
      obtain ⟨stored, _, held⟩ := drafts.pending
      cases moves with
      | commitNew =>
        rw [World.commit_row_of_pending held, drafts.absent] at row
        cases row
  · change next.row id = _ at rows
    cases published with
    | @create _ _ _ request stored again current written =>
      obtain rfl := Option.some.inj (again.symm.trans found)
      obtain ⟨unscheduled, open'⟩ := created_owes written
      have named : stored.val.id = id := by rw [written]; rfl
      simp only [base, rows, unscheduled, open']
      cases moves with
      | commitReplay replayed => simp [current] at replayed
      | commitNew completed =>
        obtain rfl := Submission.Phase.completed.inj (current.symm.trans completed)
        simp [Submission.pendingEnqueue, current, named, scheduledRetry, owed, World.messages,
          World.commit]
        omega
    | queue again current names waiting written =>
      rcases hands with kept | ⟨_, _, committed, _⟩
      · obtain ⟨same, open'⟩ := queued_owes waiting written
        simp only [base, rows, same, open']
        omega
      · cases committed

/-- A scheduler moves the retries it has claimed to its list and from there to the queues. -/
theorem scheduler_tokens {event : RetryScheduler.Event} {next : World}
    {phase last : RetryScheduler.Phase}
    (sound : Sound config engine) (found : engine.schedulers[index]? = some phase)
    (moves : RetryScheduler.Moves index engine.world phase event next last)
    (sends : ∀ position, event ≠ .enqueue position true) (id : Uuid) :
    RetryScheduler.pendingEnqueues id last + next.messages id + scheduledRetry (next.row id) +
        owed (engine.world.row id) =
      RetryScheduler.pendingEnqueues id phase + engine.world.messages id +
        scheduledRetry (engine.world.row id) +
        owed (next.row id) := by
  rcases moves.hands_over sends id with ⟨quiet, kept⟩
    | ⟨now, room, candidates, claimed, rfl, rfl, rfl, rfl⟩
  · rcases (Moves.scheduler found moves).row_change sound id with row | ⟨_, _, _, _, published⟩
    · change next.row id = engine.world.row id at row
      rw [row]
      omega
    · exact absurd published.scheduler_commits quiet
  · obtain ⟨rows, distinct, sole⟩ :=
      (sound.scheduler found).claiming now room candidates claimed rfl
    have counted : RetryScheduler.pendingEnqueues id
      (RetryScheduler.afterEnqueue claimed claimed.length) =
        (claimed.map Notification.id).count id := by
      rw [RetryScheduler.pendingEnqueues, RetryScheduler.waiting_afterEnqueue, List.count,
        List.countP_map]
      rfl
    have closed : RetryScheduler.pendingEnqueues id (.claiming now room candidates claimed) = 0 :=
      rfl
    have messages : (engine.world.commit (.scheduler index)).messages id =
      engine.world.messages id := rfl
    rw [counted, closed, messages]
    by_cases member : id ∈ claimed.map Notification.id
    · rw [List.count_eq_one_of_mem distinct member]
      obtain ⟨notification, held, rfl⟩ := List.mem_map.mp member
      obtain ⟨stored, version, present, due, pending, written, _⟩ := rows notification held
      obtain ⟨scheduled, open', taken, owes⟩ := claimed_owes due written
      rw [World.commit_row_of_pending pending, present, scheduled, open', taken, owes]
      omega
    · rw [List.count_eq_zero_of_not_mem member,
        World.commit_row_of_unowned fun owned => member (sole id owned)]

/-- A worker keeps the token of its execution until its commit ends the row or schedules
the retry. -/
theorem delivery_tokens {execution : Delivery.Execution} {event : Delivery.Event} {next : World}
    {phase : Delivery.Phase} (sound : Sound config engine)
    (found : engine.executions[index]? = some execution)
    (moves : Delivery.Moves config index engine.world execution event next phase)
    (proceeds : (event ≠ .commit ∧ phase.ending = none) ∨
      ∃ persist attemptNumber, event = .commit ∧
        execution.phase = .concluded persist attemptNumber ∧
        next = engine.world.commit (.worker index) ∧ phase = .ended .delivered)
    (carried : owed (engine.world.row execution.notificationId) = 1 ∧
      scheduledRetry (engine.world.row execution.notificationId) = 0) (id : Uuid) :
    (if Delivery.inProgress id { execution with phase := phase } then 1 else 0) + next.messages id +
        scheduledRetry (next.row id) + owed (engine.world.row id) =
      (if Delivery.inProgress id execution then 1 else 0) + engine.world.messages id +
        scheduledRetry (engine.world.row id) + owed (next.row id) := by
  have running := moves.inProgress
  rcases proceeds with ⟨quiet, open'⟩ | ⟨persist, attemptNumber, rfl, current, rfl, rfl⟩
  · have queues := moves.traffic.1
    rcases (Moves.worker found moves).row_change sound id with row | ⟨_, _, _, _, published⟩
    · change next.row id = engine.world.row id at row
      simp [Delivery.inProgress, running, open', World.messages, queues, row]
    · exact absurd published.worker_commits quiet
  · obtain ⟨stored, version, attempt, _, _, present, _, persisted, published, others⟩ :=
      (sound.worker found).commit current
    have messages : (engine.world.commit (.worker index)).messages id = engine.world.messages id :=
      rfl
    by_cases own : execution.notificationId = id
    · subst own
      have row : (engine.world.commit (.worker index)).row execution.notificationId =
          some version :=
        congrArg Lifecycle.row published
      have ends := delivered_owes persisted
      have closed : Delivery.Phase.ending (.ended .delivered) = some .delivered := rfl
      simp only [Delivery.inProgress, running, closed, messages, row, carried, decide_true,
        Option.isNone_some,
        Option.isNone_none, Bool.and_false, Bool.and_true, Bool.false_eq_true, ↓reduceIte]
      omega
    · have row : (engine.world.commit (.worker index)).row id = engine.world.row id :=
        congrArg Lifecycle.row (others id (Ne.symm own))
      simp [Delivery.inProgress, own, messages, row]

/-- The row of an execution in progress has not ended, and no retry of it is scheduled. -/
theorem Conserved.carried {execution : Delivery.Execution} (conserved : Conserved engine)
    (found : engine.executions[index]? = some execution) (running : execution.phase.ending = none) :
    owed (engine.world.row execution.notificationId) = 1 ∧
      scheduledRetry (engine.world.row execution.notificationId) = 0 := by
  have counted : 0 < engine.executions.countP (Delivery.inProgress execution.notificationId) := by
    rw [List.countP_pos_iff]
    exact ⟨execution, List.mem_of_getElem? found, by simp [Delivery.inProgress, running]⟩
  have balance := conserved.tokens execution.notificationId
  have bound : owed (engine.world.row execution.notificationId) ≤ 1 := by
    unfold owed
    split
    · split <;> omega
    · omega
  unfold Engine.tokens at balance
  omega

theorem owed_eq_one {row : Option StoredNotification} (owes : owed row = 1) :
    ∃ stored, row = some stored ∧ stored.val.state.terminal = false := by
  unfold owed at owes
  split at owes
  · rename_i stored
    refine ⟨stored, rfl, ?_⟩
    by_contra ended
    simp [ended] at owes
  · cases owes

/-- A row that has not ended has attempts left. -/
theorem room_of_open (run : Run (system config) allowed events engine)
    (found : engine.world.row id = some stored)
    (open' : stored.val.state.terminal = false) :
      stored.val.attemptCount < stored.val.maxAttempts := by
  obtain ⟨shape, fits⟩ := (run_lifecycle run id).shaped stored found
  by_contra exhausted
  have ended := fits.terminal_of_exhausted stored.property.chkAttemptBounds.1
    (Nat.not_lt.mp exhausted)
  rw [open'] at ended
  cases ended

/-- A result is carried from the answer on. -/
theorem result_cases {execution : Delivery.Execution} {event : Delivery.Event} {next : World}
    {phase : Delivery.Phase} {result : ProviderResult}
    (moves : Delivery.Moves config index engine.world execution event next phase)
    (carried : phase.result = some result) :
    execution.phase.result = some result ∨ event = .answer result := by
  cases moves with
  | load =>
    cases row : engine.world.row execution.notificationId with
    | none => simp [row, Delivery.afterLoad, Delivery.Phase.result] at carried
    | some stored =>
      simp only [row, Delivery.afterLoad] at carried
      split at carried
      · cases carried
      · split at carried <;> cases carried
  | answer => exact .inr (by rw [Option.some.inj carried])
  | openTransaction current | increment current | record current | conclude current =>
    rw [current]
    exact .inl carried
  | send | providerRaises | incrementRejected | incrementMissing | recordRejected | concludeRejected
  | concludeRaises | commit | interrupt => cases carried

/-- A faultless step of an execution ends it only by its commit. -/
theorem Conserved.proceeds {execution : Delivery.Execution} {event : Delivery.Event} {next : World}
    {phase : Delivery.Phase} (conserved : Conserved engine)
    (run : Run (system config) allowed events engine)
    (found : engine.executions[index]? = some execution)
    (moves : Delivery.Moves config index engine.world execution event next phase)
    (faultless : Faultless engine (.worker index event)) :
    (event ≠ .commit ∧ phase.ending = none) ∨
      ∃ persist attemptNumber, event = .commit ∧
        execution.phase = .concluded persist attemptNumber ∧
        next = engine.world.commit (.worker index) ∧ phase = .ended .delivered := by
  have valid := (run_sound run).worker found
  obtain ⟨owes, _⟩ := conserved.carried found moves.inProgress
  obtain ⟨stored, present, open'⟩ := owed_eq_one owes
  have room := room_of_open run present open'
  obtain ⟨payload, decoded⟩ := conserved.decodes _ stored present
  apply moves.proceeds valid (run_lifecycle run _).ledger
  · intro other again
    obtain rfl := Option.some.inj (present.symm.trans again)
    split
    · exact room
    · rename_i persist attemptNumber current
      exact conserved.storable index execution persist.result found (by rw [current]; rfl)
    · rename_i persist attemptNumber workerNow delay current
      refine ⟨?_, ?_⟩
      · intro sent
        simp [sent, NotificationState.terminal] at open'
      · intro failure left
        obtain ⟨base, _, same, _, _, began, numbered, known⟩ :=
          Delivery.counted_facts valid current
        obtain rfl := Option.some.inj (present.symm.trans same)
        obtain ⟨target, phase⟩ := execution
        obtain rfl : phase = .recorded persist attemptNumber := current
        have agree := faultless.1.2
        have dated := faultless.2
        simp only [Reliable, ClocksAgree, found] at agree
        simp only [Recordable, found] at dated
        refine ⟨Nat.le_trans began (Nat.le_trans agree.1 (Nat.le_add_right _ _)), ?_⟩
        apply dated failure
        rw [numbered, known]
        exact left
    · trivial
  · rw [present, Delivery.afterLoad_of_eligible open' room decoded]
    rfl
  · rintro rfl
    exact faultless.1.2
  · rintro rfl
    exact faultless.1.1

theorem Moves.tokens (moves : Moves config engine event after)
    (run : Run (system config) allowed events engine)
    (conserved : Conserved engine) (faultless : Faultless engine event) (id : Uuid) :
    tokens after id = owed (after.world.row id) := by
  have sound := run_sound run
  have balance := conserved.tokens id
  cases moves with
  | tick => exact balance
  | post =>
    rw [← balance]
    simp [Engine.tokens, Submission.pendingEnqueue]
  | beat =>
    rw [← balance]
    simp [Engine.tokens, Processes.total_concat, RetryScheduler.pendingEnqueues,
      RetryScheduler.begin,
      RetryScheduler.Phase.waiting]
  | redeliver => cases faultless.1.2
  | @consume channel position other waiting =>
    have taken := World.messages_consume waiting id
    have started : Delivery.inProgress id ⟨other, .received⟩ = decide (other = id) := by
      simp [Delivery.inProgress, Delivery.Phase.ending]
    unfold Engine.tokens at balance ⊢
    simp only [List.countP_append, List.countP_singleton, started, decide_eq_true_eq]
    change _ + scheduledRetry (engine.world.row id) = owed (engine.world.row id)
    omega
  | @request index request event next phase found moves =>
    have moved := submission_tokens sound found moves (by rintro rfl; exact faultless.1.2) id
    have counted := Processes.countP_set (Submission.pendingEnqueue id)
      { request with phase := phase } found
    unfold Engine.tokens at balance ⊢
    simp only at moved counted ⊢
    omega
  | @worker index execution event next phase found moves =>
    have proceeds := conserved.proceeds run found moves faultless
    have moved := delivery_tokens sound found moves proceeds
      (conserved.carried found moves.inProgress) id
    have counted := Processes.countP_set (Delivery.inProgress id)
      { execution with phase := phase } found
    unfold Engine.tokens at balance ⊢
    simp only at moved counted ⊢
    omega
  | @scheduler index phase event next last found moves =>
    have moved :=
      scheduler_tokens sound found moves (by rintro position rfl; exact faultless.1.2) id
    have counted := Processes.total_set (RetryScheduler.pendingEnqueues id) last found
    unfold Engine.tokens at balance ⊢
    simp only at moved counted ⊢
    omega

theorem Moves.sends (moves : Moves config engine event after)
    (run : Run (system config) allowed events engine)
    (conserved : Conserved engine) (faultless : Faultless engine event) (id : Uuid) :
    after.world.sends id = (after.world.lifecycle id).attempts.length +
      after.executions.countP (Delivery.called id) := by
  have sound := run_sound run
  have balance := conserved.calls id
  cases moves with
  | tick | post | beat => exact balance
  | redeliver => cases faultless.1.2
  | consume =>
    have silent (other : Uuid) : Delivery.called id ⟨other, .received⟩ = false := by
      simp [Delivery.called, Delivery.Phase.called]
    rw [List.countP_append, List.countP_singleton, silent]
    exact balance
  | request found moves =>
    have kept := (Moves.request found moves).ledger_kept sound (by simp) id
    rw [World.sends, moves.logs.2, kept]
    exact balance
  | scheduler found moves =>
    have kept := (Moves.scheduler found moves).ledger_kept sound (by simp) id
    rw [World.sends, moves.logs.2, kept]
    exact balance
  | @worker index execution event next phase found moves =>
    have proceeds := conserved.proceeds run found moves faultless
    have moved := moves.calls (sound.worker found) (by
      rcases proceeds with ⟨_, open'⟩ | ⟨_, _, committed, _⟩
      · exact .inl open'
      · exact .inr committed) id
    have counted := Processes.countP_set (Delivery.called id)
      { execution with phase := phase } found
    simp only
    omega

theorem Moves.conserved (moves : Moves config engine event after)
    (run : Run (system config) allowed events engine)
    (faultless : Faultless engine event) (conserved : Conserved engine) : Conserved after where
  tokens := moves.tokens run conserved faultless
  calls := moves.sends run conserved faultless
  email index request found := by
    rcases moves.request_cases found with earlier | ⟨_, rfl, rfl⟩ | ⟨current, _, _, entry, same, _⟩
    · exact conserved.email index request earlier
    · exact faultless.1.2
    · rw [same]
      exact conserved.email index current entry
  decodes id stored found := by
    have sound := run_sound run
    cases present : engine.world.row id with
    | some base =>
      obtain ⟨next, later, same⟩ := (moves.extends sound).rows id base present
      obtain rfl := Option.some.inj (found.symm.trans later)
      rw [Notification.payload_eq same]
      exact conserved.decodes id base present
    | none =>
      rcases moves.row_change sound id with same | ⟨_, _, base, rows, published⟩
      · rw [found, present] at same
        cases same
      · rw [present] at base
        cases published with
        | create requested current written =>
          obtain rfl := Option.some.inj (found.symm.trans rows)
          rw [written]
          exact Submission.newNotification_decodes (conserved.email _ _ requested)
        | queue | deliver | claim => cases base
  storable index execution result found carried := by
    rcases moves.execution_cases found with earlier | ⟨id, rfl, _⟩
      | ⟨current, statement, rfl, entry, _, moved⟩
    · exact conserved.storable index execution result earlier carried
    · cases carried
    · rcases result_cases moved carried with before | rfl
      · exact conserved.storable index current result entry before
      · exact faultless.2

theorem run_conserved (run : Run (system config) Faultless events engine) : Conserved engine := by
  induction run with
  | start =>
    refine ⟨fun _ => rfl, fun _ => rfl, ?_, ?_, ?_⟩
    · intro index request found
      simp [system, init] at found
    · intro id stored found
      cases found
    · intro index execution result found
      simp [system, init] at found
  | step earlier faultless taken conserved =>
    exact (step_moves taken).conserved earlier faultless conserved

/-- The provider is called once for each attempt on record and once for an execution
that is still at its call or after it. -/
theorem Conserved.sends_le (conserved : Conserved engine)
    (run : Run (system config) allowed events engine)
    (found : engine.world.row id = some stored) :
      engine.world.sends id ≤ stored.val.maxAttempts := by
  obtain ⟨_, _, numbered⟩ := (run_lifecycle run id).ledger
  have recorded := congrArg List.length (numbered stored found)
  simp only [List.length_map, List.length_range'] at recorded
  have calling : engine.executions.countP (Delivery.called id) ≤
      engine.executions.countP (Delivery.inProgress id) := by
    apply List.countP_mono_left
    intro execution _ called
    simp only [Delivery.called, Delivery.inProgress, Bool.and_eq_true] at called ⊢
    refine ⟨called.1, ?_⟩
    cases phase : execution.phase <;> simp_all [Delivery.Phase.called, Delivery.Phase.ending]
  have balance := conserved.tokens id
  unfold Engine.tokens at balance
  have calls := conserved.calls id
  cases ended : stored.val.state.terminal with
  | true =>
    have bound := stored.property.chkAttemptBounds.2
    simp only [found, owed, ended, ↓reduceIte] at balance
    omega
  | false =>
    have room := room_of_open run found ended
    simp only [found, owed, ended, Bool.false_eq_true, ↓reduceIte] at balance
    omega

/-- A notification that has not ended has exactly one carrier, one that has ended has
none, and the provider is called at most `max_attempts` times, for as long as its answers can be
recorded. -/
theorem token_conserved (run : Run (system config) Faultless events engine)
    (found : engine.world.row id = some stored) :
    (stored.val.state.terminal = false → tokens engine id = 1) ∧
      (stored.val.state.terminal = true → tokens engine id = 0) ∧
      (∀ channel, id ∈ engine.world.queues channel → channel = stored.val.channel) ∧
      engine.world.sends id ≤ stored.val.maxAttempts := by
  have conserved := run_conserved run
  have balance := conserved.tokens id
  rw [found] at balance
  refine ⟨?_, ?_, ?_, conserved.sends_le run found⟩
  · intro open'
    simpa [owed, open'] using balance
  · intro ended
    simpa [owed, ended] using balance
  · intro channel member
    obtain ⟨other, again, same⟩ := run_routed run channel id member
    obtain rfl := Option.some.inj (found.symm.trans again)
    exact same.symm

theorem deliversOnce_retries : ∃ engine,
    Run (system sampleConfig) Faultless (deliversOnce .temporaryFailure) engine ∧
    (engine.world.row 7).map (fun stored => stored.val.state) = some .queued ∧
    engine.world.clock = 0 := by
  obtain ⟨engine, run, observed⟩ := Run.exists_of_execute (system sampleConfig) Faultless
    (deliversOnce .temporaryFailure) (fun engine =>
      (engine.world.row 7).map (fun stored => stored.val.state) = some .queued ∧
      engine.world.clock = 0) (by decide +kernel)
  exact ⟨engine, run, of_decide_eq_true observed⟩

theorem token_conserved_retry : ∃ engine stored,
    Run (system sampleConfig) Faultless (deliversOnce .temporaryFailure) engine ∧
    engine.world.row 7 = some stored ∧
    (stored.val.state.terminal = false → tokens engine 7 = 1) ∧
      (stored.val.state.terminal = true → tokens engine 7 = 0) ∧
      (∀ channel, 7 ∈ engine.world.queues channel → channel = stored.val.channel) ∧
      engine.world.sends 7 ≤ stored.val.maxAttempts := by
  obtain ⟨engine, run, present, _⟩ := deliversOnce_retries
  obtain ⟨stored, found, _⟩ := Option.map_eq_some_iff.mp present
  exact ⟨engine, stored, run, found, token_conserved run found⟩

/-- A failure whose message, as a provider may send it, is a text with a NUL. -/
def nulFailure : ProviderResult where
  status := .permanentFailure
  provider := .mailrelay
  errorMessage := some "\x00"
  successStorable success := by cases success

/-- The one delivery of a notification, up to the attempt, whose text is refused. -/
def refusedAttempt : List Event :=
  submits 0 7 ++ queues 0 ++ [.consume .email 0, .worker 0 .load, .worker 0 .send,
    .worker 0 (.answer nulFailure), .worker 0 .openTransaction, .worker 0 .increment,
    .worker 0 .record]

/-- The transaction is rolled back, and no carrier of the open notification is left. -/
theorem token_lost : ∃ engine stored, Run (system sampleConfig) Ideal refusedAttempt engine ∧
    engine.world.row 7 = some stored ∧ stored.val.state.terminal = false ∧
    tokens engine 7 = 0 := by
  obtain ⟨engine, run, observed⟩ := Run.exists_of_execute (system sampleConfig) Ideal
    refusedAttempt (fun engine => tokens engine 7 = 0 ∧
      (engine.world.row 7).any (fun stored => !stored.val.state.terminal)) (by decide +kernel)
  simp only [decide_eq_true_eq, Option.any_eq_true, Bool.not_eq_true'] at observed
  obtain ⟨lost, stored, found, open'⟩ := observed
  exact ⟨engine, stored, run, found, open', lost⟩

end Engine

end Relays
