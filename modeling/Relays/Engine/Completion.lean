import Relays.Engine.ClaimScan
import Relays.Engine.DeliveryToken
import Relays.Engine.Drain
import Relays.Engine.Observations
import Mathlib.Algebra.BigOperators.Ring.Finset
import Mathlib.Algebra.Order.BigOperators.Group.Finset
import Mathlib.Data.List.MinMax

/-! Every notification comes to an end. In an engine that has settled a notification without an end
waits for its retry, a cycle of the scheduler attempts as many of these again as its limit admits,
whatever the provider answers, and the attempts are counted. -/

namespace Relays

open ReadCommitted Transition

namespace Lifecycle

/-- The column keeps its default. -/
def Defaulted (view : Lifecycle) : Prop :=
    ∀ stored, view.row = some stored → stored.val.maxAttempts = 5

variable {id : Uuid} {before after view : Lifecycle}

theorem Step.defaulted (step : Step id before after)
    (defaulted : before.Defaulted) : after.Defaulted := by
  intro final found
  cases step with
  | create written =>
    cases found
    rw [written]
    rfl
  | queue _ written | claim _ written =>
    cases found
    rw [written]
    exact defaulted _ rfl
  | deliver known persisted =>
    cases found
    obtain ⟨_, _, same, _⟩ := delivered_counts persisted
    exact same.trans (defaulted _ rfl)

theorem Reaches.defaulted (reaches : Reaches id view) : view.Defaulted :=
  reaches.invariant (by simp [Defaulted, empty]) fun _ _ step => step.defaulted

/-- No retry is scheduled after the last date. -/
def Dated (view : Lifecycle) : Prop :=
  ∀ stored due, view.row = some stored → stored.val.nextRetryAt = some due → due ≤ datetimeMax

theorem Step.dated (step : Step id before after) (dated : before.Dated) : after.Dated := by
  intro final due found scheduled
  cases step with
  | create written =>
    cases found
    rw [written] at scheduled
    cases scheduled
  | queue _ written =>
    cases found
    rw [written] at scheduled
    exact dated _ due rfl scheduled
  | claim _ written =>
    cases found
    rw [written] at scheduled
    cases scheduled
  | deliver known persisted =>
    cases found
    obtain ⟨change, _, _, chosen, written, _⟩ := Delivery.persistDeliveryResult_eq_some.mp persisted
    rw [written] at scheduled
    rcases Delivery.concludingUpdate_cases chosen with ⟨_, rfl⟩ | ⟨_, error, rfl⟩
      | ⟨_, _, last, rfl⟩
    · cases scheduled
    · cases scheduled
    · rw [← Option.some.inj scheduled]
      exact last

theorem Reaches.dated (reaches : Reaches id view) : view.Dated :=
  reaches.invariant (by simp [Dated, empty]) fun _ _ step => step.dated

end Lifecycle

namespace Engine

variable {config : Config} {engine after : Engine} {events more : List Event} {event : Event}
    {provider : Provider}
variable {allowed : Engine → Event → Prop} {index : Nat} {id : Uuid}
    {stored next : StoredNotification}

/-- Whatever this provider answers, the database can hold it. -/
def Provider.Storable (provider : Provider) : Prop :=
  ∀ engine index, (provider engine index).storable = true

/-- What proceeds without a failure is a faultless step, as long as the last date is not past. -/
theorem Proceeds.faultless (proceeds : Proceeds provider engine event)
    (answers : provider.Storable) (began : Began engine)
    (dated : engine.world.clock ≤ datetimeMax) : Faultless engine event := by
  obtain ⟨ordinary, chosen⟩ := proceeds
  cases event with
  | tick | post | redeliver | beat => cases ordinary
  | consume => exact ⟨⟨trivial, trivial⟩, trivial⟩
  | request index statement =>
    refine ⟨⟨trivial, ?_⟩, trivial⟩
    cases statement with
    | enqueue raises =>
      obtain rfl : raises = false := ordinary
      trivial
    | _ => trivial
  | scheduler index statement =>
    refine ⟨⟨trivial, ?_⟩, trivial⟩
    cases statement with
    | enqueue position raises =>
      obtain rfl : raises = false := ordinary
      trivial
    | _ => trivial
  | worker index statement =>
    obtain ⟨execution, found, rfl⟩ := chosen index statement rfl
    obtain ⟨target, phase⟩ := execution
    cases phase with
    | sending notification => exact ⟨⟨trivial, trivial⟩, answers engine index⟩
    | recorded persist attemptNumber =>
      have opened := began index _ persist found rfl
      refine ⟨⟨trivial, ?_⟩, ?_⟩
      · simp only [Reliable, Delivery.Phase.next, ClocksAgree, found]
        exact ⟨opened, Nat.le_refl _⟩
      · simp only [Recordable, Delivery.Phase.next, found]
        exact fun _ _ => dated
    | _ => exact ⟨⟨trivial, trivial⟩, trivial⟩

/-- Only time itself moves the clock. -/
theorem Moves.clock_kept (moves : Moves config engine event after)
    (still : ∀ elapsed, event ≠ .tick elapsed) : after.world.clock = engine.world.clock := by
  cases moves with
  | tick => exact absurd rfl (still _)
  | post | consume | redeliver | beat => rfl
  | request found moves =>
    cases moves with
    | getIdemKeys current read | getNotification current read => exact (leave_frame read).2
    | markQueued current done =>
      rw [World.updateNotification_frame done]
      rfl
    | _ => rfl
  | worker found moves =>
    cases moves with
    | increment current done | conclude current drawn chosen done =>
      rw [World.updateNotification_frame done]
    | record current done =>
      obtain ⟨rfl, _⟩ := World.insertAttempt_returns done
      rfl
    | _ => rfl
  | scheduler found moves =>
    cases moves with
    | lock done => rw [World.updateNotification_frame done]
    | _ => rfl

/-- A run without failures ends here, and the last date is not past. -/
structure Ideally (config : Config) (engine : Engine) : Prop where
  run : ∃ events, Run (system config) Faultless events engine
  dated : engine.world.clock ≤ datetimeMax

theorem Ideally.proceeds (ideally : Ideally config engine) (answers : provider.Storable)
    (proceeds : Proceeds provider engine event)
    (taken : step config engine event = some after) : Ideally config after := by
  obtain ⟨⟨events, run⟩, dated⟩ := ideally
  refine ⟨⟨_, run.step (proceeds.faultless answers (run_began run) dated) taken⟩, ?_⟩
  rw [(step_moves taken).clock_kept ?_]
  · exact dated
  · rintro elapsed rfl
    cases proceeds.1

theorem Ideally.conserved (ideally : Ideally config engine) : Conserved engine := by
  obtain ⟨_, run⟩ := ideally.run
  exact run_conserved run

theorem Ideally.sound (ideally : Ideally config engine) : Sound config engine := by
  obtain ⟨_, run⟩ := ideally.run
  exact run_sound run

/-- An execution in progress is of a row that is still open and waits for no retry. -/
theorem Conserved.undelivered (conserved : Conserved engine)
    (present : engine.world.row id = some stored)
    (idle : stored.val.state.terminal = true ∨ stored.val.nextRetryAt.isSome = true)
    {execution : Delivery.Execution}
    (found : engine.executions[index]? = some execution) (running : execution.phase.ending = none) :
    execution.notificationId ≠ id := by
  rintro rfl
  obtain ⟨owes, unscheduled⟩ := conserved.carried found running
  rcases idle with ended | waits
  · simp [owed, present, ended] at owes
  · simp [scheduledRetry, present, waits] at unscheduled

/-- What a step of an ideal run does to a row: a row that has ended or waits for its retry is
changed by a claim at most. -/
theorem Moves.row_ideal (moves : Moves config engine event after) (ideally : Ideally config engine)
    (present : engine.world.row id = some stored)
    (idle : stored.val.state.terminal = true ∨ stored.val.nextRetryAt.isSome = true ∧
      stored.val.state = .queued) :
    after.world.row id = some stored ∨ ∃ index now room candidates claimed,
      event = .scheduler index .commit ∧
      engine.schedulers[index]? = some (.claiming now room candidates claimed) ∧
        retryable now stored.val = true := by
  rcases moves.row_change ideally.sound id with same | ⟨_, _, base, _, published⟩
  · exact .inl (same.trans present)
  · rw [present] at base
    cases published with
    | create => cases base
    | queue _ _ _ waiting =>
      cases base
      have fresh : stored.val.state = .created := by simpa [awaitsQueueing] using waiting
      rcases idle with ended | ⟨_, queued⟩
      · simp [fresh, NotificationState.terminal] at ended
      · simp [fresh] at queued
    | deliver found current names =>
      refine absurd names (ideally.conserved.undelivered present (idle.imp_right And.left) found ?_)
      rw [current]
      rfl
    | claim found member due =>
      cases base
      exact .inr ⟨_, _, _, _, _, rfl, found, due⟩

theorem Moves.terminal_kept (moves : Moves config engine event after)
    (ideally : Ideally config engine)
    (present : engine.world.row id = some stored) (ended : stored.val.state.terminal = true) :
    after.world.row id = some stored := by
  rcases moves.row_ideal ideally present (.inl ended) with same | ⟨_, _, _, _, _, _, _, due⟩
  · exact same
  · have queued := (retryable_iff.mp due).1
    simp [queued, NotificationState.terminal] at ended

/-- No attempt is taken back. -/
theorem Moves.attempts_le (moves : Moves config engine event after) (sound : Sound config engine)
    (present : engine.world.row id = some stored) : ∃ next, after.world.row id = some next ∧
      stored.val.attemptCount ≤ next.val.attemptCount := by
  rcases moves.row_change sound id with kept | ⟨_, _, base, rows, published⟩
  · exact ⟨stored, kept.trans present, Nat.le_refl _⟩
  · rw [present] at base
    cases published with
    | create => cases base
    | queue _ _ _ _ written | claim _ _ _ written =>
      cases base
      refine ⟨_, rows, ?_⟩
      rw [written]
      exact Nat.le_refl _
    | deliver _ _ _ _ persisted =>
      cases base
      obtain ⟨_, counts, _⟩ := Lifecycle.delivered_counts persisted
      exact ⟨_, rows, by omega⟩

/-- No scheduler disappears: it stays as it is or takes the step. -/
theorem Moves.scheduler_next {phase : RetryScheduler.Phase}
    (moves : Moves config engine event after)
    (found : engine.schedulers[index]? = some phase) :
    after.schedulers[index]? = some phase ∨ ∃ statement last, event = .scheduler index statement ∧
      RetryScheduler.Moves index engine.world phase statement after.world last ∧
      after.schedulers[index]? = some last := by
  cases moves with
  | tick | post | request | consume | redeliver | worker => exact .inl found
  | beat => exact .inl (Processes.append_earlier found)
  | @scheduler acting _ _ _ _ entry moves =>
    by_cases same : index = acting
    · subst same
      obtain rfl := Option.some.inj (entry.symm.trans found)
      exact .inr ⟨_, _, rfl, moves, Processes.set_self entry⟩
    · exact .inl ((Processes.set_other same).trans found)

/-- No two schedulers claim rows at the same time. -/
def SoleClaim (engine : Engine) : Prop :=
  ∀ (first second : Nat) (one two : RetryScheduler.Phase), engine.schedulers[first]? = some one →
    engine.schedulers[second]? = some two → one.claims = true → two.claims = true → first = second

theorem claims_earlier {world after : World} {phase last : RetryScheduler.Phase}
    {statement : RetryScheduler.Event}
    (moves : RetryScheduler.Moves index world phase statement after last)
    (claims : last.claims = true) :
    phase.claims = true := by
  cases moves with
  | skipLocked | skipChanged | lock => rfl
  | commit | enqueue =>
    rw [RetryScheduler.claims_afterEnqueue] at claims
    cases claims
  | enqueueRaises | abort => cases claims

/-- A scheduler that claims after an ordinary step claimed before it. -/
theorem Moves.claims_before {phase : RetryScheduler.Phase} (moves : Moves config engine event after)
    (ordinary : Ordinary engine event) (found : after.schedulers[index]? = some phase)
    (claims : phase.claims = true) :
    ∃ earlier, engine.schedulers[index]? = some earlier ∧ earlier.claims = true := by
  rcases moves.scheduler_cases found with same | ⟨_, _, rfl, _⟩ | ⟨current, _, _, entry, moved⟩
  · exact ⟨phase, same, claims⟩
  · cases ordinary
  · exact ⟨current, entry, claims_earlier moved claims⟩

theorem Moves.soleClaim (moves : Moves config engine event after) (ordinary : Ordinary engine event)
    (sole : SoleClaim engine) : SoleClaim after := by
  intro first second one two left right claims also
  obtain ⟨one, left, claims⟩ := moves.claims_before ordinary left claims
  obtain ⟨two, right, also⟩ := moves.claims_before ordinary right also
  exact sole first second one two left right claims also

/-- How far the next attempt of a row has come that waited for its retry. -/
inductive Retried (id : Uuid) (stored : StoredNotification) (engine : Engine) : Prop where
  | due {place room : Nat} {now : Time} {candidates : List Uuid} {claimed : List Notification}
      (present : engine.world.row id = some stored)
      (found : engine.schedulers[place]? = some (.claiming now room candidates claimed))
      (matched : retryable now stored.val = true)
      (ahead : id ∈ claimed.map Notification.id ∨ id ∈ candidates.take room)
  | processing {current : StoredNotification} (present : engine.world.row id = some current)
      (same : current.val.attemptCount = stored.val.attemptCount) (state : current.val.state =
        .processing)
  | attempted {current : StoredNotification} (present : engine.world.row id = some current)
      (more : stored.val.attemptCount < current.val.attemptCount)

/-- A due row that its scheduler has not claimed is locked by nobody. -/
theorem Ideally.unlocked {now : Time} {room : Nat} {candidates : List Uuid}
    {claimed : List Notification}
    (ideally : Ideally config engine) (sole : SoleClaim engine)
    (present : engine.world.row id = some stored)
    (found : engine.schedulers[index]? = some (.claiming now room candidates claimed))
    (matched : retryable now stored.val = true) (unclaimed : id ∉ claimed.map Notification.id) :
    (engine.world.notifications id).pending = none := by
  have sound := ideally.sound
  cases held : (engine.world.notifications id).pending with
  | none => rfl
  | some pair =>
    obtain ⟨holder, version⟩ := pair
    have busy : ¬ engine.world.Idle holder := fun idle => idle.notifications id ⟨version, held⟩
    have writing := sound.writes_of_busy busy
    cases holder with
    | request other =>
      obtain ⟨request, entry, writes⟩ := (Option.any_eq_true _ _).mp writing
      have valid := sound.request entry
      -- a request that is writing holds no row but the one it has not committed
      have drafts : ∀ notification,
          Submission.Drafts other engine.world request.arguments notification → False := by
        intro notification drafts
        obtain rfl := drafts.sole id ⟨version, held⟩
        rw [drafts.absent] at present
        cases present
      cases current : request.phase with
      | recorded began record =>
          exact absurd ⟨version, held⟩ ((valid.recorded began record current).2.2 id)
      | created record notification =>
          exact (drafts notification (valid.created record notification current).2.2).elim
      | completed notification =>
          exact (drafts notification (valid.completed notification current).2).elim
      | _ => simp [current, Submission.Phase.writing] at writes
    | worker other =>
      obtain ⟨execution, entry, writes⟩ := (Option.any_eq_true _ _).mp writing
      obtain ⟨_, due, waits, _⟩ := retryable_iff.mp matched
      have elsewhere := ideally.conserved.undelivered present (.inr (by simp [waits])) entry
        (Delivery.unended_of_writing writes)
      have valid := sound.worker entry
      have own : ∀ stored version,
          engine.world.Holds (.worker other) execution.notificationId stored version → False :=
        fun stored next holds => elsewhere (holds.sole id ⟨version, held⟩).symm
      cases current : execution.phase with
      | incremented persist attemptNumber =>
        obtain ⟨⟨_, _, holds, _⟩, _⟩ := valid.incremented persist attemptNumber current
        exact (own _ _ holds).elim
      | recorded persist attemptNumber =>
        obtain ⟨_, ⟨_, _, holds, _⟩, _⟩ := valid.recorded persist attemptNumber current
        exact (own _ _ holds).elim
      | concluded persist attemptNumber =>
        obtain ⟨_, _, _, _, _, holds, _⟩ := valid.concluded persist attemptNumber current
        exact (own _ _ holds).elim
      | _ => simp [current, Delivery.Phase.writing] at writes
    | scheduler other =>
      obtain ⟨phase, entry, claims⟩ := (Option.any_eq_true _ _).mp writing
      obtain rfl := sole other index phase _ entry found claims rfl
      obtain ⟨_, _, owned⟩ := (sound.scheduler found).claiming now room candidates claimed rfl
      exact absurd (owned id ⟨version, held⟩) unclaimed

/-- A claim that passes over another row comes no further away. -/
theorem ahead_of_skip {claimed : List Uuid} {head : Uuid} {rest : List Uuid} {room : Nat}
    (ahead : id ∈ claimed ∨ id ∈ (head :: rest).take (room + 1))
    (other : id ∉ claimed → id ≠ head) : id ∈ claimed ∨ id ∈ rest.take (room + 1) := by
  by_cases taken : id ∈ claimed
  · exact .inl taken
  · rcases List.mem_cons.mp (ahead.resolve_left taken) with same | further
    · exact absurd same (other taken)
    · exact .inr (List.take_subset_take_left _ (Nat.le_succ _) further)

/-- The claim comes to the row before its room is used up, and finds it unlocked and unchanged. -/
theorem Ideally.claims {now : Time} {room : Nat} {candidates : List Uuid}
    {claimed : List Notification}
    {statement : RetryScheduler.Event} {last : RetryScheduler.Phase}
    (ideally : Ideally config engine)
    (moves : Moves config engine (.scheduler index statement) after)
    (ordinary : RetryScheduler.Ordinary statement)
    (sole : SoleClaim engine) (present : engine.world.row id = some stored)
    (found : engine.schedulers[index]? = some (.claiming now room candidates claimed))
    (matched : retryable now stored.val = true)
    (ahead : id ∈ claimed.map Notification.id ∨ id ∈ candidates.take room)
    {world : World} (moved : RetryScheduler.Moves index engine.world
      (.claiming now room candidates claimed) statement world last)
    (later : after.schedulers[index]? = some last) : Retried id stored after := by
  have sound := ideally.sound
  have kept : ∀ statement, statement ≠ RetryScheduler.Event.commit →
      Moves config engine (.scheduler index statement) after →
        after.world.row id = some stored := by
    intro statement quiet moves
    rcases moves.row_change sound id with same | ⟨_, _, _, _, published⟩
    · exact same.trans present
    · exact absurd published.scheduler_commits quiet
  have unlocked := fun unclaimed => ideally.unlocked sole present found matched unclaimed
  -- what the statement sees of an unclaimed row is the row that matched
  have seen : id ∉ claimed.map Notification.id →
      (engine.world.notifications id).view (.scheduler index) = some stored := fun unclaimed => by
    rw [Cell.view_of_unowned (by simp [unlocked unclaimed])]
    exact present
  cases moved with
  | @skipLocked _ _ rest _ head locked =>
    refine .due (kept _ (by simp) moves) later matched (ahead_of_skip ahead ?_)
    rintro unclaimed rfl
    have blocked := World.updateNotification_waits locked
    simp [Cell.blocked, unlocked unclaimed] at blocked
  | @skipChanged _ _ _ rest _ head changed =>
    refine .due (kept _ (by simp) moves) later matched (ahead_of_skip ahead ?_)
    rintro unclaimed rfl
    obtain ⟨_, unmatched⟩ := World.updateNotification_returns_none changed
    rw [unmatched stored (seen unclaimed)] at matched
    cases matched
  | @lock _ _ version room rest _ head done =>
    refine .due (kept _ (by simp) moves) later matched ?_
    obtain ⟨read, _, view, due, written, _⟩ := World.updateNotification_returns done
    by_cases taken : id ∈ claimed.map Notification.id
    · exact .inl (by simpa using .inl (List.mem_map.mp taken))
    · rcases List.mem_cons.mp (ahead.resolve_left taken) with rfl | further
      · left
        obtain rfl := Option.some.inj ((seen taken).symm.trans view)
        have named : version.val.id = id := by
          rw [written]
          exact (sound.world.keyed id stored present).1
        simp [named]
      · exact .inr further
  | commit through =>
    have taken : id ∈ claimed.map Notification.id := by
      rcases ahead with taken | listed
      · exact taken
      · rcases through with rfl | rfl <;> simp at listed
    obtain ⟨final, updated, before, _, written, changed⟩ :=
      moves.claims sound ⟨index, room, candidates, claimed, rfl, found, taken⟩
    obtain rfl := Option.some.inj (present.symm.trans before)
    exact .processing written (by rw [changed]; rfl) (by rw [changed]; rfl)
  | abort => cases ordinary

/-- A step that proceeds brings the next attempt of the row no further away. -/
theorem Retried.step (retried : Retried id stored engine) (ideally : Ideally config engine)
    (sole : SoleClaim engine)
    (moves : Moves config engine event after)
    (ordinary : Ordinary engine event) : Retried id stored after := by
  have sound := ideally.sound
  cases retried with
  | @due index now room candidates claimed present found matched ahead =>
    rcases moves.scheduler_next found with same | ⟨statement, last, rfl, moved, later⟩
    · by_cases own : event = .scheduler index .commit
      · subst own
        cases moves with
        | scheduler entry moved =>
          obtain rfl := Option.some.inj (entry.symm.trans found)
          rw [Processes.set_self found] at same
          exact ideally.claims (.scheduler found moved) ordinary sole present found matched
            ahead moved
            (Processes.set_self found)
      · obtain ⟨queued, due, waits, _⟩ := retryable_iff.mp matched
        rcases moves.row_ideal ideally present (.inr ⟨by simp [waits], queued⟩) with
          kept | ⟨other, _, _, _, _, rfl, entry, _⟩
        · exact .due kept same matched ahead
        · obtain rfl := sole other index _ _ entry found rfl rfl
          exact absurd rfl own
    · exact ideally.claims moves ordinary sole present found matched ahead moved later
  | processing present same state =>
    rcases moves.row_change sound id with kept | ⟨_, _, base, rows, published⟩
    · exact .processing (kept.trans present) same state
    · rw [present] at base
      cases published with
      | create => cases base
      | queue _ _ _ waiting =>
        cases base
        simp [awaitsQueueing, state] at waiting
      | deliver _ _ _ _ persisted =>
        cases base
        obtain ⟨_, counts, _⟩ := Lifecycle.delivered_counts persisted
        exact .attempted rows (by omega)
      | claim _ _ due =>
        cases base
        simp [(retryable_iff.mp due).1] at state
  | attempted present more =>
    obtain ⟨next, later, counted⟩ := moves.attempts_le sound present
    exact .attempted later (Nat.lt_of_lt_of_le more counted)

section Settled

/-- What carries a notification in an engine that has settled is a scheduled retry. -/
theorem Settled.tokens (settled : engine.Settled) (id : Uuid) :
    engine.tokens id = scheduledRetry (engine.world.row id) := by
  have requests : engine.requests.countP (Submission.pendingEnqueue id) = 0 := by
    apply List.countP_eq_zero.mpr
    intro request member pending
    have answered := settled.requests request member
    cases current : request.phase <;>
      simp [Submission.pendingEnqueue, current, Submission.Phase.response] at pending answered
  have schedulers : Processes.total (RetryScheduler.pendingEnqueues id) engine.schedulers = 0 := by
    apply Processes.total_eq_zero
    intro phase member
    have finished := settled.schedulers phase member
    cases phase <;> simp [RetryScheduler.Phase.running, RetryScheduler.pendingEnqueues,
      RetryScheduler.Phase.waiting] at finished ⊢
  have executions : engine.executions.countP (Delivery.inProgress id) = 0 := by
    apply List.countP_eq_zero.mpr
    intro execution member pending
    have ended := settled.executions execution member
    simp only [Delivery.inProgress, Bool.and_eq_true] at pending
    cases ending : execution.phase.ending <;> simp [ending] at pending ended
  have messages : engine.world.messages id = 0 := by simp [World.messages, settled.queues]
  simp [Engine.tokens, requests, schedulers, executions, messages]

/-- A notification without an end waits for its retry. -/
theorem Settled.waits (settled : engine.Settled) (ideally : Ideally config engine)
    (present : engine.world.row id = some stored) (open' : stored.val.state.terminal = false) :
    stored.val.state = .queued ∧ (∃ due, stored.val.nextRetryAt = some due) ∧
      1 ≤ stored.val.attemptCount := by
  have balance := (settled.tokens id).symm.trans (ideally.conserved.tokens id)
  have scheduled : stored.val.nextRetryAt.isSome = true := by
    by_contra unscheduled
    simp [present, scheduledRetry, owed, unscheduled, open'] at balance
  obtain ⟨_, run⟩ := ideally.run
  obtain ⟨shape, fits⟩ := (run_lifecycle run id).shaped stored present
  cases shape with
  | retrying =>
    obtain ⟨queued, _, attempted, _⟩ := fits
    exact ⟨queued, Option.isSome_iff_exists.mp scheduled, attempted⟩
  | created =>
    obtain ⟨_, _, unscheduled⟩ := fits
    simp [unscheduled] at scheduled
  | queued | processing | sent | failed =>
    obtain ⟨_, unscheduled, _⟩ := fits
    simp [unscheduled] at scheduled

/-- A row whose retry has been on its way has been attempted once the engine settles. -/
theorem Settled.attempted (settled : engine.Settled) (ideally : Ideally config engine)
    (retried : Retried id stored engine) : ∃ next, engine.world.row id = some next ∧
      stored.val.attemptCount < next.val.attemptCount := by
  cases retried with
  | due _ found =>
    have finished := settled.schedulers _ (List.mem_of_getElem? found)
    cases finished
  | processing present _ state =>
    obtain ⟨queued, _⟩ := settled.waits ideally present
      (by simp [state, NotificationState.terminal])
    simp [state] at queued
  | attempted present more => exact ⟨_, present, more⟩

end Settled

theorem run_maxAttempts (run : Run (system config) allowed events engine)
    (present : engine.world.row id = some stored) :
    stored.val.maxAttempts = 5 :=
  (run_lifecycle run id).defaulted stored present

/-- What one cycle keeps: of the rows there were when its scheduler began those that had ended stay
as they are, and those its claim comes to first are on their way. -/
structure Cycle (config : Config) (chosen : List Uuid) (start engine : Engine) : Prop where
  ideally : Ideally config engine
  ready : Ready config engine
  sole : SoleClaim engine
  answered : ∀ (index : Nat) request, engine.requests[index]? = some request →
    request.phase.response.isSome = true
  absent : ∀ id, start.world.row id = none → engine.world.row id = none
  counted : ∀ id stored, start.world.row id = some stored → ∃ next,
    engine.world.row id = some next ∧ stored.val.attemptCount ≤ next.val.attemptCount
  ended : ∀ id stored, start.world.row id = some stored → stored.val.state.terminal = true →
    engine.world.row id = some stored
  retried : ∀ id ∈ chosen, ∀ stored, start.world.row id = some stored → Retried id stored engine

variable {start : Engine} {chosen : List Uuid}

theorem Cycle.step (cycle : Cycle config chosen start engine) (answers : provider.Storable)
    (proceeds : Proceeds provider engine event)
    (taken : step config engine event = some after) : Cycle config chosen start after where
  ideally := cycle.ideally.proceeds answers proceeds taken
  ready := (step_moves taken).ready cycle.ready
  sole := (step_moves taken).soleClaim proceeds.1 cycle.sole
  answered index request found := by
    rcases (step_moves taken).request_cases found with earlier | ⟨_, rfl, _⟩
      | ⟨current, _, _, entry, _, moved⟩
    · exact cycle.answered index request earlier
    · cases proceeds.1
    · have finished := cycle.answered index current entry
      rw [moved.unanswered] at finished
      cases finished
  absent id missing := by
    rcases (step_moves taken).row_change cycle.ideally.sound id with same
      | ⟨_, _, base, _, published⟩
    · exact same.trans (cycle.absent id missing)
    · rw [cycle.absent id missing] at base
      cases published with
      | create found current =>
        have finished := cycle.answered _ _ found
        rw [current] at finished
        cases finished
      | queue | deliver | claim => cases base
  counted id stored present := by
    obtain ⟨middle, held, first⟩ := cycle.counted id stored present
    obtain ⟨next, found, second⟩ := (step_moves taken).attempts_le cycle.ideally.sound held
    exact ⟨next, found, Nat.le_trans first second⟩
  ended id stored present terminal :=
    (step_moves taken).terminal_kept cycle.ideally (cycle.ended id stored present terminal) terminal
  retried id member stored present :=
    (cycle.retried id member stored present).step cycle.ideally cycle.sole
      (step_moves taken) proceeds.1

section Rows

/-- The attempts a notification has left, none once it has ended. -/
def attemptsLeft : Option StoredNotification → Nat
  | some stored =>
    if stored.val.state.terminal then 0 else stored.val.maxAttempts - stored.val.attemptCount
  | none => 0

/-- The ids of the stored notifications. -/
def storedIds (engine : Engine) : Finset Uuid := (engine.world.rows.map Notification.id).toFinset

/-- Those of the ids whose notification has not ended. -/
def openIds (ids : Finset Uuid) (engine : Engine) : Finset Uuid :=
  ids.filter fun id => owed (engine.world.row id) = 1

/-- Every stored notification is among the ids. -/
def Covers (ids : Finset Uuid) (engine : Engine) : Prop :=
  ∀ id, engine.world.row id ≠ none → id ∈ ids

variable {ids : Finset Uuid}

theorem mem_storedIds (sound : engine.world.Sound) :
    id ∈ storedIds engine ↔ engine.world.row id ≠ none := by
  rw [storedIds, List.mem_toFinset, World.rows_ids sound, List.mem_filter,
    Option.isSome_iff_ne_none]
  exact ⟨And.right, fun present => ⟨sound.known id fun missing => present missing.1, present⟩⟩

theorem owed_of_open (present : engine.world.row id = some stored)
    (open' : stored.val.state.terminal = false) : owed (engine.world.row id) = 1 := by
  simp [owed, present, open']

theorem Ideally.left_pos (ideally : Ideally config engine) (owes : owed (engine.world.row id) = 1) :
    0 < attemptsLeft (engine.world.row id) := by
  obtain ⟨stored, present, open'⟩ := owed_eq_one owes
  obtain ⟨_, run⟩ := ideally.run
  have room := room_of_open run present open'
  simp only [attemptsLeft, present, open', Bool.false_eq_true, ↓reduceIte]
  omega

/-- Every open notification has an attempt left. -/
theorem Ideally.card_open_le (ideally : Ideally config engine) (ids : Finset Uuid) :
    (openIds ids engine).card ≤ ∑ id ∈ ids, attemptsLeft (engine.world.row id) := by
  rw [openIds, Finset.card_filter]
  apply Finset.sum_le_sum
  intro id _
  split
  · rename_i owes
    exact ideally.left_pos owes
  · exact Nat.zero_le _

end Rows

/-- A run of the environment that only waits and starts the scheduler, and proceeds otherwise. -/
def Served (provider : Provider) (engine : Engine) (event : Event) : Prop :=
  Faultless engine event ∧ ((∃ elapsed, event = .tick elapsed) ∨
    (∃ began, event = .beat began RetryScheduler.defaultLimit) ∨ Proceeds provider engine event)

def Event.isBeat : Event → Bool
  | .beat _ _ => true
  | _ => false

theorem Proceeds.isBeat (proceeds : Proceeds provider engine event) : event.isBeat = false := by
  cases event with
  | beat => cases proceeds.1
  | _ => rfl

/-- The latest scheduled retry. -/
def lastRetry (world : World) : Time :=
  (world.rows.map fun row => row.nextRetryAt.getD 0).foldr max ⊥

theorem le_lastRetry {due : Time} (sound : engine.world.Sound)
    (present : engine.world.row id = some stored)
    (waits : stored.val.nextRetryAt = some due) : due ≤ lastRetry engine.world := by
  have listed : due ∈ engine.world.rows.map fun row => row.nextRetryAt.getD 0 :=
    List.mem_map.mpr ⟨stored.val, World.mem_rows sound present, by simp [waits]⟩
  exact List.le_max_of_le listed (Nat.le_refl due)

theorem Ideally.lastRetry_le (ideally : Ideally config engine) :
    lastRetry engine.world ≤ datetimeMax := by
  obtain ⟨_, run⟩ := ideally.run
  apply List.max_le_of_forall_le
  intro due member
  obtain ⟨row, listed, rfl⟩ := List.mem_map.mp member
  obtain ⟨stored, present, rfl⟩ := World.row_of_mem ideally.sound.world listed
  cases waits : stored.val.nextRetryAt with
  | none => exact Nat.zero_le _
  | some due => exact (run_lifecycle run stored.val.id).dated stored due present waits

/-- The rows the claim of a scheduler comes to first. -/
structure Chosen (ids : Finset Uuid) (engine : Engine) (chosen : List Uuid) : Prop where
  distinct : chosen.Nodup
  open' : chosen.toFinset ⊆ openIds ids engine
  filled : chosen.length = min RetryScheduler.defaultLimit (openIds ids engine).card

/-- Candidates once the last retry is due are the open rows. -/
theorem Settled.mem_candidates (settled : engine.Settled) (ideally : Ideally config engine)
    {now : Time} (passed : lastRetry engine.world ≤ now) :
    id ∈ (retryCandidates now engine.world.rows).map Notification.id ↔
      owed (engine.world.row id) = 1 := by
  have sound := ideally.sound.world
  constructor
  · intro member
    obtain ⟨row, candidate, rfl⟩ := List.mem_map.mp member
    obtain ⟨listed, due⟩ := mem_retryCandidates.mp candidate
    obtain ⟨stored, present, rfl⟩ := World.row_of_mem sound listed
    exact owed_of_open present (by simp [(retryable_iff.mp due).1, NotificationState.terminal])
  · intro owes
    obtain ⟨stored, present, open'⟩ := owed_eq_one owes
    obtain ⟨queued, ⟨due, waits⟩, _⟩ := settled.waits ideally present open'
    have matched : retryable now stored.val = true :=
      retryable_iff.mpr ⟨queued, due, waits, Nat.le_trans (le_lastRetry sound present waits) passed⟩
    exact List.mem_map.mpr ⟨stored.val,
      mem_retryCandidates.mpr ⟨World.mem_rows sound present, matched⟩,
      (sound.keyed id stored present).1⟩

/-- The claim comes to as many of the open rows as its limit admits. -/
theorem Settled.chooses (settled : engine.Settled) (ideally : Ideally config engine)
    {ids : Finset Uuid} (covers : Covers ids engine) {now : Time}
    (passed : lastRetry engine.world ≤ now) :
    Chosen ids engine (((retryCandidates now engine.world.rows).map Notification.id).take
      RetryScheduler.defaultLimit) := by
  obtain ⟨_, run⟩ := ideally.run
  have distinct : ((retryCandidates now engine.world.rows).map Notification.id).Nodup := by
    rw [retryCandidates, ((List.perm_insertionSort retryOrder _).map _).nodup_iff]
    apply List.Nodup.sublist (List.filter_sublist.map _)
    rw [World.rows_ids ideally.sound.world]
    exact (run_ids run).filter _
  have whole : ((retryCandidates now engine.world.rows).map Notification.id).toFinset =
      openIds ids engine := by
    ext id
    rw [List.mem_toFinset, settled.mem_candidates ideally passed, openIds, Finset.mem_filter]
    refine ⟨fun owes => ⟨covers id ?_, owes⟩, And.right⟩
    rintro missing
    simp [owed, missing] at owes
  refine ⟨distinct.sublist (List.take_sublist _ _), ?_, ?_⟩
  · intro id member
    rw [← whole, List.mem_toFinset]
    exact List.mem_of_mem_take (List.mem_toFinset.mp member)
  · rw [List.length_take, ← whole, List.toFinset_card_of_nodup distinct]

/-- A scheduler that begins when all others have ended claims alone. -/
theorem Settled.soleClaim {phase : RetryScheduler.Phase} (settled : engine.Settled)
    (begun : after.schedulers = engine.schedulers ++ [phase]) : SoleClaim after := by
  have closed : ∀ (index : Nat) (earlier : RetryScheduler.Phase),
      engine.schedulers[index]? = some earlier → earlier.claims = true → False := by
    intro index earlier found claims
    have finished := settled.schedulers earlier (List.mem_of_getElem? found)
    cases earlier <;> simp [RetryScheduler.Phase.running, RetryScheduler.Phase.claims]
      at finished claims
  intro first second one two left right claims also
  rw [begun] at left right
  rcases Processes.append_cases left with ⟨rfl, _⟩ | earlier
  · rcases Processes.append_cases right with ⟨rfl, _⟩ | earlier
    · rfl
    · exact (closed second two earlier also).elim
  · exact (closed first one earlier claims).elim

/-- Once the last retry is due, a scheduler begins a cycle over the open rows it comes to first. -/
theorem Settled.begins (provider : Provider) (settled : engine.Settled)
    (ideally : Ideally config engine) {ids : Finset Uuid} (covers : Covers ids engine) :
    ∃ chosen more after, Path (system config) (Served provider) engine more after ∧
      more.countP Event.isBeat = 1 ∧ Chosen ids engine chosen ∧
      Cycle config chosen engine after := by
  have sound := ideally.sound
  obtain ⟨events, run⟩ := ideally.run
  have passed : lastRetry engine.world ≤
      engine.world.clock + (lastRetry engine.world - engine.world.clock) := le_add_tsub
  have dated : engine.world.clock + (lastRetry engine.world - engine.world.clock) ≤
      datetimeMax := by
    rw [Nat.add_comm, Nat.sub_add_eq_max]
    exact Nat.max_le.mpr ⟨ideally.lastRetry_le, ideally.dated⟩
  have tick : Faultless engine (.tick (lastRetry engine.world - engine.world.clock)) :=
    ⟨⟨trivial, trivial⟩, trivial⟩
  have ticks : (system config).step engine
      (.tick (lastRetry engine.world - engine.world.clock)) = some { engine with
        world.clock := engine.world.clock + (lastRetry engine.world - engine.world.clock) } := rfl
  have ticked := run.step tick ticks
  generalize engine.world.clock + (lastRetry engine.world - engine.world.clock) = now
    at passed dated ticks ticked
  have beat : Faultless { engine with world.clock := now }
      (.beat now RetryScheduler.defaultLimit) := ⟨⟨trivial, trivial⟩, trivial⟩
  have begins : (system config).step { engine with world.clock := now }
      (.beat now RetryScheduler.defaultLimit) = some { engine with
        world.clock := now
        schedulers := engine.schedulers ++
          [RetryScheduler.begin engine.world now RetryScheduler.defaultLimit] } :=
    if_neg (Nat.lt_irrefl now)
  have begun := ticked.step beat begins
  refine ⟨_, _, _, .step ⟨tick, .inl ⟨_, rfl⟩⟩ ticks (.single ⟨beat, .inr (.inl ⟨_, rfl⟩)⟩ begins),
    rfl, settled.chooses ideally covers passed, ?_⟩
  exact {
    ideally := ⟨⟨_, begun⟩, dated⟩
    ready := run_ready begun
    sole := settled.soleClaim rfl
    answered := fun index request found => settled.requests request (List.mem_of_getElem? found)
    absent := fun id missing => missing
    counted := fun id stored present => ⟨stored, present, Nat.le_refl _⟩
    ended := fun id stored present _ => present
    retried := by
      intro id member stored present
      have candidate := List.mem_of_mem_take member
      obtain ⟨row, listed, named⟩ := List.mem_map.mp candidate
      obtain ⟨known, matched⟩ := mem_retryCandidates.mp listed
      obtain ⟨other, held, rfl⟩ := World.row_of_mem sound.world known
      rw [named] at held
      obtain rfl := Option.some.inj (present.symm.trans held)
      exact .due present List.getElem?_concat_length matched (.inr member) }

/-- Whoever proceeds after a run without failures serves it, and no scheduler begins. -/
theorem Ideally.serves (ideally : Ideally config engine) (answers : provider.Storable)
    (path : Path (system config) (Proceeds provider) engine more after) :
    Path (system config) (Served provider) engine more after ∧ more.countP Event.isBeat = 0 ∧
      Ideally config after := by
  have kept : ∀ before event after, Ideally config before → Proceeds provider before event →
      (system config).step before event = some after → Ideally config after :=
    fun _ _ _ ideally proceeds taken => ideally.proceeds answers proceeds taken
  refine ⟨?_, ?_, path.keeps ideally kept⟩
  · apply path.within ideally kept
    intro before event ideally proceeds
    obtain ⟨_, run⟩ := ideally.run
    exact ⟨proceeds.faultless answers (run_began run) ideally.dated, .inr (.inr proceeds)⟩
  · apply List.countP_eq_zero.mpr
    intro event member beat
    rw [path.all (fun _ _ proceeds => proceeds.isBeat) event member] at beat
    cases beat

/-- One cycle of the scheduler: the open rows it comes to first have been attempted once more when
the engine settles again. -/
theorem Settled.cycle (settled : engine.Settled) (ideally : Ideally config engine)
    (answers : provider.Storable) {ids : Finset Uuid} (covers : Covers ids engine) :
    ∃ chosen more after, Path (system config) (Served provider) engine more after ∧
      more.countP Event.isBeat = 1 ∧ Chosen ids engine chosen ∧
      Cycle config chosen engine after ∧ after.Settled := by
  obtain ⟨chosen, begun, middle, opening, one, choice, cycle⟩ :=
    settled.begins provider ideally covers
  obtain ⟨more, after, path, done⟩ := cycle.ready.settles provider
  obtain ⟨served, quiet, _⟩ := cycle.ideally.serves answers path
  have kept : Cycle config chosen engine after :=
    path.keeps cycle fun _ _ _ cycle proceeds taken => cycle.step answers proceeds taken
  refine ⟨chosen, _, after, opening.trans served, ?_, choice, kept, done⟩
  rw [List.countP_append, one, quiet]

section Account

variable {ids : Finset Uuid}

theorem Cycle.covers (cycle : Cycle config chosen engine after) (covers : Covers ids engine) :
    Covers ids after := by
  intro id present
  apply covers id
  intro missing
  exact present (cycle.absent id missing)

/-- A notification that is open after a cycle was open before it. -/
theorem Cycle.opened (cycle : Cycle config chosen engine after)
    (present : after.world.row id = some next) (open' : next.val.state.terminal = false) :
    ∃ stored, engine.world.row id = some stored ∧ stored.val.state.terminal = false := by
  cases earlier : engine.world.row id with
  | none =>
    rw [cycle.absent id earlier] at present
    cases present
  | some stored =>
    refine ⟨stored, rfl, ?_⟩
    by_contra ended
    have finished : stored.val.state.terminal = true := by simpa using ended
    obtain rfl := Option.some.inj ((cycle.ended id stored earlier finished).symm.trans present)
    exact ended open'

theorem Cycle.openIds_subset (cycle : Cycle config chosen engine after) :
    openIds ids after ⊆ openIds ids engine := by
  intro id member
  obtain ⟨listed, owes⟩ := Finset.mem_filter.mp member
  obtain ⟨next, present, open'⟩ := owed_eq_one owes
  obtain ⟨stored, earlier, before⟩ := cycle.opened present open'
  exact Finset.mem_filter.mpr ⟨listed, owed_of_open earlier before⟩

/-- A cycle uses up an attempt of each row it has come to, and gives none back. -/
theorem Cycle.left_le (cycle : Cycle config chosen engine after) (settled : after.Settled)
    (ideally : Ideally config engine) (choice : Chosen ids engine chosen) (id : Uuid) :
    attemptsLeft (after.world.row id) + (if id ∈ chosen.toFinset then 1 else 0) ≤
      attemptsLeft (engine.world.row id) := by
  obtain ⟨_, run⟩ := ideally.run
  obtain ⟨_, later⟩ := cycle.ideally.run
  by_cases member : id ∈ chosen.toFinset
  · rw [if_pos member]
    obtain ⟨_, owes⟩ := Finset.mem_filter.mp (choice.open' member)
    obtain ⟨stored, present, open'⟩ := owed_eq_one owes
    obtain ⟨next, found, counted⟩ := settled.attempted cycle.ideally
      (cycle.retried id (List.mem_toFinset.mp member) stored present)
    have room := room_of_open run present open'
    have bound := run_maxAttempts run present
    have same := run_maxAttempts later found
    simp only [attemptsLeft, present, found, open', Bool.false_eq_true, ↓reduceIte]
    split <;> omega
  · rw [if_neg member]
    cases earlier : engine.world.row id with
    | none => simp [cycle.absent id earlier, attemptsLeft]
    | some stored =>
      cases ended : stored.val.state.terminal with
      | true => simp [cycle.ended id stored earlier ended, attemptsLeft, ended]
      | false =>
        obtain ⟨next, found, counted⟩ := cycle.counted id stored earlier
        have bound := run_maxAttempts run earlier
        have same := run_maxAttempts later found
        simp only [attemptsLeft, found, ended, Bool.false_eq_true, ↓reduceIte]
        split <;> omega

theorem Cycle.sum_left_le (cycle : Cycle config chosen engine after) (settled : after.Settled)
    (ideally : Ideally config engine) (choice : Chosen ids engine chosen) :
    (∑ id ∈ ids, attemptsLeft (after.world.row id)) + chosen.length ≤
      ∑ id ∈ ids, attemptsLeft (engine.world.row id) := by
  have counted : chosen.length = ∑ id ∈ ids, if id ∈ chosen.toFinset then 1 else 0 := by
    have listed : chosen.toFinset ⊆ ids := choice.open'.trans (Finset.filter_subset _ _)
    rw [Finset.sum_ite_mem, Finset.inter_eq_right.mpr listed, Finset.sum_const, Nat.nsmul_eq_mul,
      mul_one, List.toFinset_card_of_nodup choice.distinct]
  rw [counted, ← Finset.sum_add_distrib]
  exact Finset.sum_le_sum fun id _ => cycle.left_le settled ideally choice id

/-- While a cycle comes to every open row, so many cycles as these have attempts left end them
all. -/
theorem Settled.cycles (remaining : Nat) (settled : engine.Settled)
    (ideally : Ideally config engine) (answers : provider.Storable) (covers : Covers ids engine)
    (few : (openIds ids engine).card ≤ RetryScheduler.defaultLimit)
    (enough : ∀ id stored, engine.world.row id = some stored → stored.val.state.terminal = false →
      5 ≤ stored.val.attemptCount + remaining) :
    ∃ more after, Path (system config) (Served provider) engine more after ∧
      more.countP Event.isBeat ≤ remaining ∧ after.Settled ∧
      ∀ id stored, after.world.row id = some stored → stored.val.state.terminal = true := by
  induction remaining generalizing engine with
  | zero =>
    refine ⟨[], engine, .here, Nat.le_refl _, settled, ?_⟩
    intro id stored present
    obtain ⟨_, run⟩ := ideally.run
    cases ended : stored.val.state.terminal with
    | true => rfl
    | false =>
      have spent := enough id stored present ended
      have room := room_of_open run present ended
      rw [run_maxAttempts run present] at room
      omega
  | succ remaining ih =>
    obtain ⟨chosen, first, middle, opening, one, choice, cycle, rested⟩ :=
      settled.cycle ideally answers covers
    have all : chosen.toFinset = openIds ids engine := by
      apply Finset.eq_of_subset_of_card_le choice.open'
      rw [List.toFinset_card_of_nodup choice.distinct, choice.filled, min_eq_right few]
    have fewer : ∀ id stored, middle.world.row id = some stored →
        stored.val.state.terminal = false → 5 ≤ stored.val.attemptCount + remaining := by
      intro id stored present open'
      obtain ⟨old, earlier, before⟩ := cycle.opened present open'
      have member : id ∈ chosen.toFinset := by
        rw [all]
        exact Finset.mem_filter.mpr ⟨covers id (by simp [earlier]), owed_of_open earlier before⟩
      obtain ⟨next, found, counted⟩ := rested.attempted cycle.ideally
        (cycle.retried id (List.mem_toFinset.mp member) old earlier)
      obtain rfl := Option.some.inj (found.symm.trans present)
      have attempts := enough id old earlier before
      omega
    obtain ⟨more, after, path, beats, done⟩ := ih rested cycle.ideally (cycle.covers covers)
      (Nat.le_trans (Finset.card_le_card cycle.openIds_subset) few) fewer
    refine ⟨first ++ more, after, opening.trans path, ?_, done⟩
    rw [List.countP_append]
    omega

/-- The attempts that open notifications have left once the engine has settled. -/
theorem Settled.left_le (settled : engine.Settled) (ideally : Ideally config engine) (id : Uuid) :
    attemptsLeft (engine.world.row id) ≤ 4 := by
  obtain ⟨_, run⟩ := ideally.run
  cases present : engine.world.row id with
  | none => exact Nat.zero_le _
  | some stored =>
    have bound := run_maxAttempts run present
    cases ended : stored.val.state.terminal with
    | true => simp [attemptsLeft, ended]
    | false =>
      obtain ⟨_, _, once⟩ := settled.waits ideally present ended
      simp only [attemptsLeft, ended, Bool.false_eq_true, ↓reduceIte]
      omega

/-- A full cycle uses up a hundred attempts; after so many of these the open rows are few. -/
theorem Settled.rounds (full : Nat) (settled : engine.Settled) (ideally : Ideally config engine)
    (answers : provider.Storable) (covers : Covers ids engine)
    (bound : (openIds ids engine).card ≤ RetryScheduler.defaultLimit ∨
      ∑ id ∈ ids, attemptsLeft (engine.world.row id) < RetryScheduler.defaultLimit * (full + 1)) :
    ∃ more after, Path (system config) (Served provider) engine more after ∧
      more.countP Event.isBeat ≤ full + 4 ∧ after.Settled ∧
      ∀ id stored, after.world.row id = some stored → stored.val.state.terminal = true := by
  induction full generalizing engine with
  | zero =>
    have few : (openIds ids engine).card ≤ RetryScheduler.defaultLimit := by
      rcases bound with few | left
      · exact few
      · have open' := ideally.card_open_le ids
        omega
    have enough : ∀ id stored, engine.world.row id = some stored →
        stored.val.state.terminal = false → 5 ≤ stored.val.attemptCount + 4 := by
      intro id stored present open'
      obtain ⟨_, _, once⟩ := settled.waits ideally present open'
      omega
    rw [Nat.zero_add]
    exact settled.cycles 4 ideally answers covers few enough
  | succ full ih =>
    by_cases few : (openIds ids engine).card ≤ RetryScheduler.defaultLimit
    · obtain ⟨more, after, path, beats, done⟩ :=
        ih settled ideally covers (.inl few)
      exact ⟨more, after, path, Nat.le_trans beats (by omega), done⟩
    · have left := bound.resolve_left few
      obtain ⟨chosen, first, middle, opening, one, choice, cycle, rested⟩ :=
        settled.cycle ideally answers covers
      have used := cycle.sum_left_le rested ideally choice
      rw [choice.filled, min_eq_left (Nat.le_of_not_le few)] at used
      obtain ⟨more, after, path, beats, done⟩ :=
        ih rested cycle.ideally (cycle.covers covers) (.inr (by rw [Nat.mul_succ] at left; omega))
      refine ⟨first ++ more, after, opening.trans path, ?_, done⟩
      rw [List.countP_append]
      omega

end Account

/-- What is stored stays stored. -/
theorem storedIds_le {allowed : Engine → Event → Prop} (sound : Sound config engine)
    (path : Path (system config) allowed engine more after) :
    (storedIds engine).card ≤ after.world.rows.length := by
  have kept : Sound config after ∧ storedIds engine ⊆ storedIds after := by
    apply path.keeps
    · exact ⟨sound, Finset.Subset.refl _⟩
    · intro before event next ⟨held, listed⟩ _ taken
      have later := (step_moves taken).sound held
      refine ⟨later, fun id member => (mem_storedIds later.world).mpr ?_⟩
      obtain ⟨stored, row⟩ :=
        Option.ne_none_iff_exists'.mp ((mem_storedIds held.world).mp (listed member))
      obtain ⟨_, same, _⟩ := ((step_moves taken).extends held).rows id stored row
      simp [same]
  calc (storedIds engine).card ≤ (storedIds after).card := Finset.card_le_card kept.2
    _ ≤ (after.world.rows.map Notification.id).length := List.toFinset_card_le _
    _ = after.world.rows.length := List.length_map _

/-- As many runs of the scheduler as so many notifications need at most. -/
def cyclesFor (rows : Nat) : Nat := if rows ≤ RetryScheduler.defaultLimit then 4 else rows / 25 + 4

theorem cyclesFor_mono {fewer rows : Nat} (fits : fewer ≤ rows) :
    cyclesFor fewer ≤ cyclesFor rows := by
  unfold cyclesFor
  split <;> split <;> omega

/-- Whatever a run without failures has submitted, and whatever the provider answers that the
database can hold, the engine can go on so that every notification has been sent or has failed, as
long as the last date is not past. With its limit the scheduler needs four runs for a hundred
notifications, and one more for every 25 where there are more. -/
theorem completes (provider : Provider) (answers : provider.Storable)
    (run : Run (system config) Faultless events engine)
    (dated : engine.world.clock ≤ datetimeMax) :
    ∃ more after, Path (system config) (Served provider) engine more after ∧
      more.countP Event.isBeat ≤ cyclesFor after.world.rows.length ∧
      after.Settled ∧ ∀ id stored, after.world.row id = some stored →
        stored.val.state.terminal = true := by
  obtain ⟨first, middle, path, settled⟩ := (run_ready run).settles provider
  obtain ⟨served, quiet, ideally⟩ := Ideally.serves ⟨⟨events, run⟩, dated⟩ answers path
  have sound := ideally.sound
  have covers : Covers (storedIds middle) middle :=
    fun id present => (mem_storedIds sound.world).mpr present
  have left : ∑ id ∈ storedIds middle, attemptsLeft (middle.world.row id) ≤
      (storedIds middle).card * 4 :=
    Finset.sum_le_card_nsmul _ _ _ fun id _ => settled.left_le ideally id
  have fits : (openIds (storedIds middle) middle).card ≤ (storedIds middle).card :=
    Finset.card_filter_le _ _
  have attempted : ∑ id ∈ storedIds middle, attemptsLeft (middle.world.row id) <
      RetryScheduler.defaultLimit * ((storedIds middle).card / 25 + 1) := by
    unfold RetryScheduler.defaultLimit
    omega
  obtain ⟨more, after, later, beats, done⟩ : ∃ more after,
      Path (system config) (Served provider) middle more after ∧
      more.countP Event.isBeat ≤ cyclesFor (storedIds middle).card ∧ after.Settled ∧
      ∀ id stored, after.world.row id = some stored → stored.val.state.terminal = true := by
    unfold cyclesFor
    split
    · rename_i few
      exact settled.rounds 0 ideally answers covers (.inl (Nat.le_trans fits few))
    · exact settled.rounds _ ideally answers covers (.inr attempted)
  refine ⟨first ++ more, after, served.trans later, ?_, done⟩
  rw [List.countP_append, quiet, Nat.zero_add]
  exact Nat.le_trans beats (cyclesFor_mono (storedIds_le sound later))

/-- A notification whose first attempt has failed for now. -/
theorem completes_retried :
    ∃ engine, Run (system sampleConfig) Faultless (deliversOnce .temporaryFailure) engine ∧
    (engine.world.row 7).any (fun stored => !stored.val.state.terminal) = true ∧
    ∀ provider : Provider, provider.Storable → ∃ more after,
      Path (system sampleConfig) (Served provider) engine more after ∧
      more.countP Event.isBeat ≤ cyclesFor after.world.rows.length ∧ after.Settled ∧
      ∀ id stored, after.world.row id = some stored → stored.val.state.terminal = true := by
  obtain ⟨engine, run, present, clock⟩ := deliversOnce_retries
  obtain ⟨stored, found, queued⟩ := Option.map_eq_some_iff.mp present
  have dated : engine.world.clock ≤ datetimeMax := by
    rw [clock]
    exact Nat.zero_le _
  refine ⟨engine, run, ?_, fun provider answers => completes provider answers run dated⟩
  simp [found, queued, NotificationState.terminal]

end Engine

end Relays
