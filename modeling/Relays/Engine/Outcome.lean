import Relays.Engine.RetryLoop
import Relays.Engine.SingleCarrier

/-! What the answers of the provider make of a notification. The engine as a whole, with all its
workers and schedulers, does to each notification what one loop over its answers would. -/

namespace Relays

open ReadCommitted Transition

/-- A notification is attempted until an answer decides or no attempt is left. -/
def verdict : Nat → List DeliveryStatus → Option NotificationState
  | 0, _ => some .failed
  | _ + 1, [] => none
  | _ + 1, .success :: _ => some .sent
  | _ + 1, .permanentFailure :: _ => some .failed
  | left + 1, .temporaryFailure :: rest => verdict left rest

section Verdict

variable {maxAttempts : Nat} {front back answers : List DeliveryStatus}

theorem verdict_eq_none_iff : verdict maxAttempts answers = none ↔
    answers.length < maxAttempts ∧ ∀ status ∈ answers, status = .temporaryFailure := by
  induction answers generalizing maxAttempts with
  | nil =>
    cases maxAttempts with
    | zero => simp [verdict]
    | succ left => simp [verdict]
  | cons status rest ih =>
    cases maxAttempts with
    | zero => simp [verdict]
    | succ left =>
      cases status with
      | success | permanentFailure => simp [verdict]
      | temporaryFailure => simp [verdict, ih]

/-- Answers that decide nothing only use up attempts. -/
theorem verdict_append (undecided : verdict maxAttempts front = none) :
    verdict maxAttempts (front ++ back) = verdict (maxAttempts - front.length) back := by
  induction front generalizing maxAttempts with
  | nil => rfl
  | cons status rest ih =>
    cases maxAttempts with
    | zero => cases undecided
    | succ left =>
      cases status with
      | success | permanentFailure => cases undecided
      | temporaryFailure =>
        rw [List.length_cons, Nat.add_sub_add_right]
        exact ih undecided

theorem count_of_undecided (undecided : verdict maxAttempts answers = none) :
    answers.count .success = 0 := by
  apply List.count_eq_zero.mpr
  intro member
  cases (verdict_eq_none_iff.mp undecided).2 _ member

/-- Nothing follows a success. -/
theorem count_le_one (undecided : verdict maxAttempts answers.dropLast = none) :
    answers.count .success ≤ 1 := by
  rcases List.eq_nil_or_concat answers with rfl | ⟨front, last, rfl⟩
  · simp
  · rw [List.concat_eq_append] at undecided ⊢
    rw [List.dropLast_concat] at undecided
    rw [List.count_append, count_of_undecided undecided, Nat.zero_add]
    exact List.count_le_length

/-- The verdict over the answers of a script is where the retry loop ends that follows it. -/
theorem verdict_scripted {sequence : List DeliveryStatus} {state : NotificationState}
    (follows : ∀ attempt, answers[attempt]?.all (· = FakeProvider.scripted sequence attempt) = true)
    (undecided : verdict maxAttempts answers.dropLast = none)
    (decided : verdict maxAttempts answers = some state) :
    state = RetryLoop.finalState sequence maxAttempts ∧
      answers.length = RetryLoop.attempts sequence maxAttempts := by
  rcases List.eq_nil_or_concat answers with rfl | ⟨front, last, rfl⟩
  · rw [List.dropLast_nil, decided] at undecided
    cases undecided
  · rw [List.concat_eq_append] at follows undecided decided ⊢
    rw [List.dropLast_concat] at undecided
    obtain ⟨room, temporary⟩ := verdict_eq_none_iff.mp undecided
    have earlier : ∀ attempt < front.length, FakeProvider.scripted sequence attempt =
        .temporaryFailure := by
      intro attempt before
      have followed := follows attempt
      rw [List.getElem?_append_left before, List.getElem?_eq_getElem before] at followed
      have scripted : front[attempt] = FakeProvider.scripted sequence attempt := by
        simpa using followed
      exact scripted.symm.trans (temporary _ (List.getElem_mem before))
    have final : last = FakeProvider.scripted sequence front.length := by
      simpa using follows front.length
    obtain ⟨left, spare⟩ : ∃ left, maxAttempts - front.length = left + 1 :=
      Nat.exists_eq_succ_of_ne_zero (by omega)
    rw [verdict_append undecided, spare] at decided
    rw [List.length_append, List.length_singleton]
    by_cases temporary : last = .temporaryFailure
    · subst temporary
      cases left with
      | succ more => cases decided
      | zero =>
        have exhausted : ∀ attempt < front.length + 1, FakeProvider.scripted sequence attempt =
            .temporaryFailure := by
          intro attempt before
          rcases Nat.lt_succ_iff_lt_or_eq.mp before with lower | rfl
          · exact earlier attempt lower
          · exact final.symm
        have none := RetryLoop.decided_of_exhausted exhausted (by omega : front.length + 1 =
          maxAttempts)
        simp only [RetryLoop.finalState, RetryLoop.attempts, none, Option.elim_none]
        exact ⟨(Option.some.inj decided).symm, by omega⟩
    · have first := RetryLoop.decided_of_first earlier room (final ▸ temporary)
      simp only [RetryLoop.finalState, RetryLoop.attempts, first, Option.elim_some, ← final]
      refine ⟨?_, trivial⟩
      cases last with
      | success | permanentFailure => exact (Option.some.inj decided).symm
      | temporaryFailure => exact absurd rfl temporary

end Verdict

namespace Lifecycle

def answers (view : Lifecycle) : List DeliveryStatus := view.attempts.map DeliveryAttempt.status

/-- The row stands where the answers on record lead, and none is on record after one that
decides. -/
def Fated (view : Lifecycle) : Prop := ∀ stored, view.row = some stored →
  verdict stored.val.maxAttempts view.answers =
      (if stored.val.state.terminal then some stored.val.state else none) ∧
    verdict stored.val.maxAttempts view.answers.dropLast = none

variable {id : Uuid} {before after view : Lifecycle}

theorem Ledger.answers_length {stored : StoredNotification} (ledger : view.Ledger id)
    (found : view.row = some stored) :
    view.answers.length = stored.val.attemptCount := by
  have recorded := congrArg List.length (ledger.2.2 stored found)
  simpa [answers] using recorded

/-- The step lemma: an answer takes an open row where it leads. -/
theorem Step.fated (step : Step id before after) (ledger : before.Ledger id) (fated : before.Fated)
    (opened : ∀ stored, before.row = some stored → after.attempts ≠ before.attempts →
      stored.val.state.terminal = false) : after.Fated := by
  intro final present
  cases step with
  | @create _ history stored _ written =>
    cases present
    obtain rfl : history = [] := ledger.1 rfl
    have fresh : final.val.state = .created := by rw [written]; rfl
    have bound : final.val.maxAttempts = 5 := by rw [written]; rfl
    simp [answers, fresh, bound, verdict, NotificationState.terminal]
  | @queue _ history stored next waiting written =>
    cases present
    have fresh : stored.val.state = .created := by simpa [awaitsQueueing] using waiting
    have queued : final.val.state = .queued := by rw [written]; rfl
    have same : final.val.maxAttempts = stored.val.maxAttempts := by rw [written]; rfl
    have earlier := fated stored rfl
    rw [fresh] at earlier
    rw [same, queued]
    exact earlier
  | @claim _ history stored next due written =>
    cases present
    have queued := (retryable_iff.mp due).1
    have processing : final.val.state = .processing := by rw [written]; rfl
    have same : final.val.maxAttempts = stored.val.maxAttempts := by rw [written]; rfl
    have earlier := fated stored rfl
    rw [queued] at earlier
    rw [same, processing]
    exact earlier
  | @deliver _ _ attempt history stored next persist known persisted =>
    cases present
    have open' := opened stored rfl (by simp)
    obtain ⟨room, _, same, recorded⟩ := delivered_counts persisted
    have undecided := (fated stored rfl).1
    rw [open'] at undecided
    have length := ledger.answers_length rfl
    have grown : answers ⟨some final, history ++ [attempt]⟩ =
        answers ⟨some stored, history⟩ ++ [persist.result.status] := by
      simp [answers, recorded, recordDeliveryAttempt]
    rw [same, grown, List.dropLast_concat, verdict_append undecided, length]
    refine ⟨?_, undecided⟩
    obtain ⟨left, spare⟩ : ∃ left, stored.val.maxAttempts - stored.val.attemptCount = left + 1 :=
      Nat.exists_eq_succ_of_ne_zero (by omega)
    rw [spare]
    rcases delivered_state persisted with
      ⟨success, sent, _⟩ | ⟨_, permanent | ⟨temporary, exhausted⟩, failed, _⟩
        | ⟨_, temporary, further, queued, _⟩
    · rw [success, sent]
      rfl
    · rw [permanent, failed]
      rfl
    · obtain rfl : left = 0 := by omega
      rw [temporary, failed]
      rfl
    · obtain ⟨more, rfl⟩ : ∃ more, left = more + 1 := Nat.exists_eq_succ_of_ne_zero (by omega)
      rw [temporary, queued]
      rfl

end Lifecycle

namespace Delivery

variable {config : Config} {index : Nat} {world next : World} {execution : Execution}
    {event : Event} {phase : Phase}
variable {result : ProviderResult}

/-- The result in hand has been there before or is the answer. -/
theorem Moves.result_back (moves : Moves config index world execution event next phase)
    (carried : phase.result = some result) : execution.phase.result = some result ∨
      event = .answer result := by
  cases moves with
  | load current =>
    unfold afterLoad at carried
    split at carried
    · cases carried
    · split at carried
      · cases carried
      · split at carried <;> cases carried
  | answer =>
    obtain rfl := Option.some.inj carried
    exact .inr rfl
  | openTransaction current | increment current | record current | conclude current =>
    rw [current]
    exact .inl carried
  | send | providerRaises | incrementRejected | incrementMissing | recordRejected | concludeRejected
  | concludeRaises
  | commit | interrupt => cases carried

end Delivery

namespace Engine

/-- The answers of the provider are those on record, and after them the one that is in hand or was
lost. -/
structure AnswersKept (engine : Engine) (id : Uuid) (tail : List DeliveryStatus) : Prop where
  log : engine.world.answers id = (engine.world.lifecycle id).answers ++ tail
  inHand : ∀ (index : Nat) (execution : Delivery.Execution) result, engine.executions[index]? =
    some execution →
    execution.notificationId = id → execution.phase.result = some result → tail = [result.status]

variable {config : Config} {engine after : Engine} {event : Event} {events : List Event}
    {index : Nat} {id : Uuid}
variable {tail : List DeliveryStatus} {execution : Delivery.Execution}

/-- Nothing of a notification is in hand but with the execution that is in progress. -/
theorem SingleCarrier.unheld (carrier : SingleCarrier engine id)
    (found : engine.executions[index]? = some execution)
    (named : execution.notificationId = id) (running : execution.phase.ending = none)
    (empty : execution.phase.result = none) (other : Nat) (rival : Delivery.Execution)
    (entry : engine.executions[other]? = some rival)
    (also : rival.notificationId = id) : rival.phase.result = none := by
  cases carried : rival.phase.result with
  | none => rfl
  | some result =>
    have active := Delivery.Phase.active_of_result carried
    have besides : rival.phase.ending = none := by
      cases current : rival.phase <;>
        simp [current, Delivery.Phase.active, Delivery.Phase.ending] at active ⊢
    obtain rfl := carrier.sole found entry named also running besides
    obtain rfl := Option.some.inj (found.symm.trans entry)
    exact carried.symm.trans empty

/-- The provider is not asked again before its last answer is on record. -/
theorem AnswersKept.settled (kept : AnswersKept engine id tail) (carrier : SingleCarrier engine id)
    (found : engine.executions[index]? = some execution) (named : execution.notificationId = id)
    (running : execution.phase.ending = none)
    (empty : execution.phase.result = none) : tail = [] := by
  have unheld : engine.holding (Delivery.answerTally id) = 0 := by
    apply List.countP_eq_zero.mpr
    intro rival member holding
    obtain ⟨other, entry⟩ := List.mem_iff_getElem?.mp member
    obtain ⟨also, carried⟩ : rival.notificationId = id ∧ rival.phase.result.isSome = true := by
      simpa [Tally.holding, Delivery.answerTally] using holding
    rw [carrier.unheld found named running empty other rival entry also] at carried
    cases carried
  have counted : 0 < engine.executions.countP (Delivery.inProgress id) := by
    rw [List.countP_pos_iff]
    exact ⟨execution, List.mem_of_getElem? found, by simp [Delivery.inProgress, named, running]⟩
  have tallied : (engine.world.answers id).length + engine.tokens id ≤
    (engine.world.lifecycle id).attempts.length +
      engine.holding (Delivery.answerTally id) + owed (engine.world.row id) :=
        carrier.tallied (Delivery.answerTally id)
  have bound := owed_le_one (engine.world.row id)
  have length := congrArg List.length kept.log
  simp only [List.length_append, Lifecycle.answers, List.length_map] at length
  unfold Engine.tokens at tallied
  exact List.eq_nil_of_length_eq_zero (by omega)

/-- Where no worker answers or commits, the answers stay as they are kept for. -/
theorem AnswersKept.quiet (kept : AnswersKept engine id tail)
    (moves : Moves config engine event after)
    (sound : Sound config engine) (unworked : ∀ index, event ≠ .worker index .commit)
    (unanswered : ∀ index answer, event ≠ .worker index (.answer answer)) :
      AnswersKept after id tail := by
  constructor
  · have results := moves.results
    rcases results with ⟨same, _⟩ | ⟨_, _, _, _, asked, _⟩
    · rw [World.answers, same, Lifecycle.answers, moves.ledger_kept sound unworked id]
      exact kept.log
    · exact absurd asked (unanswered _ _)
  · intro index execution result found named carried
    rcases moves.execution_cases found with earlier | ⟨_, rfl, _⟩
      | ⟨current, statement, rfl, entry, same, moved⟩
    · exact kept.inHand index execution result earlier named carried
    · cases carried
    · rcases moved.result_back carried with before | asked
      · exact kept.inHand index current result entry (same.symm.trans named) before
      · exact absurd (congrArg _ asked) (unanswered index result)

/-- An answer is in hand, and alone, until it is on record. -/
theorem AnswersKept.answer (kept : AnswersKept engine id tail) (carrier : SingleCarrier engine id)
    {notification : Notification} {answer : ProviderResult}
    (found : engine.executions[index]? = some execution)
    (named : execution.notificationId = id) (current : execution.phase = .sending notification)
    (same : (after.world.lifecycle id).answers = (engine.world.lifecycle id).answers)
    (logged : after.world.answers id = engine.world.answers id ++ [answer.status])
    (executions : after.executions =
      engine.executions.set index { execution with phase := .answered notification answer }) :
    AnswersKept after id [answer.status] := by
  have running : execution.phase.ending = none := by rw [current]; rfl
  have empty : execution.phase.result = none := by rw [current]; rfl
  obtain rfl := kept.settled carrier found named running empty
  constructor
  · rw [logged, same, kept.log, List.append_nil]
  · intro other rival result entry also carried
    rw [executions] at entry
    rcases Processes.set_cases entry with ⟨rfl, rfl⟩ | ⟨_, earlier⟩
    · obtain rfl := Option.some.inj carried
      rfl
    · rw [carrier.unheld found named running empty other rival earlier also] at carried
      cases carried

/-- The commit of an execution puts its answer on record. -/
theorem AnswersKept.commit {persist : Delivery.Persist} {attemptNumber : Nat}
    (kept : AnswersKept engine id tail)
    (carrier : SingleCarrier engine id) (sound : Sound config engine)
    (found : engine.executions[index]? = some execution) (named : execution.notificationId = id)
    (current : execution.phase = .concluded persist attemptNumber)
    (world : after.world = engine.world.commit (.worker index))
    (executions : after.executions =
      engine.executions.set index { execution with phase := .ended .delivered }) :
    AnswersKept after id [] := by
  subst named
  obtain ⟨_, _, attempt, _, _, _, _, persisted, published, _⟩ := (sound.worker found).commit current
  obtain ⟨_, _, _, recorded⟩ := Lifecycle.delivered_counts persisted
  have running : execution.phase.ending = none := by rw [current]; rfl
  obtain rfl := kept.inHand index execution persist.result found rfl (by rw [current]; rfl)
  constructor
  · have log : (engine.world.commit (.worker index)).answers execution.notificationId =
        engine.world.answers execution.notificationId := rfl
    rw [world, log, kept.log, Lifecycle.answers, published]
    simp [Lifecycle.answers, recorded, recordDeliveryAttempt]
  · intro other rival result entry also carried
    rw [executions] at entry
    rcases Processes.set_cases entry with ⟨rfl, rfl⟩ | ⟨elsewhere, earlier⟩
    · cases carried
    · have active := Delivery.Phase.active_of_result carried
      have besides : rival.phase.ending = none := by
        cases phase : rival.phase <;>
          simp [phase, Delivery.Phase.active, Delivery.Phase.ending] at active ⊢
      exact absurd (carrier.sole earlier found also rfl besides running) elsewhere

/-- A step of the execution of another notification leaves the answers of this one alone. -/
theorem AnswersKept.elsewhere {statement : Delivery.Event} {next : World} {phase : Delivery.Phase}
    (kept : AnswersKept engine id tail) (sound : Sound config engine)
    (found : engine.executions[index]? = some execution)
    (moves : Delivery.Moves config index engine.world execution statement next phase)
    (other : execution.notificationId ≠ id) :
    AnswersKept { engine with
      world := next
      executions := engine.executions.set index { execution with phase := phase } } id tail := by
  have same : next.lifecycle id = engine.world.lifecycle id := by
    rcases (Moves.worker found moves).publishes sound id with same | published
    · exact same
    · generalize engine.world.lifecycle id = before at published
      generalize World.lifecycle _ id = last at published
      cases published with
      | deliver entry _ names =>
        obtain rfl := Option.some.inj (entry.symm.trans found)
        exact absurd names other
  have log : next.answers id = engine.world.answers id := by
    rcases moves.results with ⟨same, _⟩ | ⟨_, _, _, _, logged, _⟩
    · rw [World.answers, same, World.answers]
    · simp [World.answers, logged, other]
  constructor
  · rw [log, same]
    exact kept.log
  · intro place rival result entry named carried
    rcases Processes.set_cases entry with ⟨rfl, rfl⟩ | ⟨_, earlier⟩
    · exact absurd named other
    · exact kept.inHand place rival result earlier named carried

/-- The step lemma of the answers. -/
theorem Moves.answersKept (moves : Moves config engine event after) (sound : Sound config engine)
    (carrier : SingleCarrier engine id)
    (kept : AnswersKept engine id tail) : ∃ tail, AnswersKept after id tail := by
  by_cases worked : ∃ index, event = .worker index .commit ∨
    ∃ answer, event = .worker index (.answer answer)
  · obtain ⟨index, decides⟩ := worked
    cases moves with
    | @worker acting execution event next phase found moves =>
      by_cases own : execution.notificationId = id
      · cases moves with
        | commit current => exact ⟨_, kept.commit carrier sound found own current rfl rfl⟩
        | answer current =>
          exact ⟨_, kept.answer carrier found own current rfl (by simp [World.answers, own]) rfl⟩
        | load | send | providerRaises | openTransaction | increment | incrementRejected
        | incrementMissing | record
        | recordRejected | conclude | concludeRejected | concludeRaises
        | interrupt => simp at decides
      · exact ⟨tail, kept.elsewhere sound found moves own⟩
    | tick | post | request | consume | redeliver | beat | scheduler => simp at decides
  · exact ⟨tail, kept.quiet moves sound (fun index same => worked ⟨index, .inl same⟩)
      (fun index answer same => worked ⟨index, .inr ⟨answer, same⟩⟩)⟩

theorem Moves.fated (moves : Moves config engine event after) (sound : Sound config engine)
    (ledger : (engine.world.lifecycle id).Ledger id) (carrier : SingleCarrier engine id)
    (fated : (engine.world.lifecycle id).Fated) : (after.world.lifecycle id).Fated := by
  rcases moves.publishes sound id with same | published
  · rw [same]
    exact fated
  · refine published.step.fated ledger fated ?_
    intro stored present grown
    by_cases worked : ∃ index, event = .worker index .commit
    · obtain ⟨index, rfl⟩ := worked
      have row : engine.world.row id = some stored := present
      generalize engine.world.lifecycle id = before at published
      generalize after.world.lifecycle id = last at published
      cases published with
      | deliver found current names =>
        subst names
        obtain ⟨owes, _⟩ := carrier.carried found (by rw [current]; rfl)
        obtain ⟨again, also, open'⟩ := owed_eq_one owes
        obtain rfl := Option.some.inj (row.symm.trans also)
        exact open'
    · exact absurd (moves.ledger_kept sound (fun index same => worked ⟨index, same⟩) id) grown

theorem run_fated (run : Run (system config) SingleDelivery events engine) (id : Uuid) :
    (engine.world.lifecycle id).Fated ∧ ∃ tail, AnswersKept engine id tail := by
  induction run with
  | start =>
    refine ⟨?_, [], rfl, ?_⟩
    · intro stored found
      cases found
    · intro index execution result found
      simp [system, init] at found
  | step earlier _ taken ih =>
    obtain ⟨fated, tail, kept⟩ := ih
    have sound := run_sound earlier
    have carrier := run_singleCarrier earlier id
    exact ⟨(step_moves taken).fated sound (run_lifecycle earlier id).ledger carrier fated,
      (step_moves taken).answersKept sound carrier kept⟩

/-- As long as the broker delivers no message twice, every notification stands where the answers of
the provider lead. Its attempts are those answers, in their order and but for the last one at most,
which may be in hand or lost; no attempt follows an answer that decides, and the state is the
verdict of the recorded answers. So the provider accepts it once at most, and whenever its answers
follow a script the notification ends as the loop ends that runs the script alone. -/
theorem answers_decide (run : Run (system config) SingleDelivery events engine) (id : Uuid) :
    (∃ tail, engine.world.answers id = (engine.world.lifecycle id).answers ++ tail ∧
      tail.length ≤ 1) ∧
    (engine.world.answers id).count .success ≤ 1 ∧
    ∀ stored, engine.world.row id = some stored →
      verdict stored.val.maxAttempts (engine.world.lifecycle id).answers =
          (if stored.val.state.terminal then some stored.val.state else none) ∧
        verdict stored.val.maxAttempts (engine.world.lifecycle id).answers.dropLast = none ∧
        (stored.val.state.terminal = true →
          engine.world.answers id = (engine.world.lifecycle id).answers ∧
          ∀ sequence, (∀ attempt : Nat, (engine.world.answers id)[attempt]?.all
              (· = FakeProvider.scripted sequence attempt) = true) →
            stored.val.state = RetryLoop.finalState sequence stored.val.maxAttempts ∧
              stored.val.attemptCount = RetryLoop.attempts sequence stored.val.maxAttempts) := by
  obtain ⟨fated, tail, kept⟩ := run_fated run id
  have carrier := run_singleCarrier run id
  have ledger := (run_lifecycle run id).ledger
  have tallied : (engine.world.answers id).length + engine.tokens id ≤
    (engine.world.lifecycle id).attempts.length +
      engine.holding (Delivery.answerTally id) + owed (engine.world.row id) :=
        carrier.tallied (Delivery.answerTally id)
  have held := holding_le_tokens engine (Delivery.answerTally id)
  have length := congrArg List.length kept.log
  simp only [List.length_append, Lifecycle.answers, List.length_map] at length
  have bound := owed_le_one (engine.world.row id)
  have short : tail.length ≤ owed (engine.world.row id) := by omega
  have ended : ∀ stored, engine.world.row id = some stored → stored.val.state.terminal = true →
      tail = [] := by
    intro stored found terminal
    simp only [found, owed, terminal, ↓reduceIte] at short
    exact List.eq_nil_of_length_eq_zero (by omega)
  refine ⟨⟨tail, kept.log, by omega⟩, ?_, ?_⟩
  · rw [kept.log, List.count_append]
    have last : tail.count .success ≤ tail.length := List.count_le_length
    cases found : engine.world.row id with
    | none =>
      have empty : (engine.world.lifecycle id).answers = [] := by
        rw [Lifecycle.answers, ledger.1 found, List.map_nil]
      rw [empty, List.count_nil]
      omega
    | some stored =>
      obtain ⟨decided, undecided⟩ := fated stored found
      cases terminal : stored.val.state.terminal with
      | true =>
        rw [ended stored found terminal, List.count_nil]
        exact count_le_one undecided
      | false =>
        rw [terminal] at decided
        rw [count_of_undecided decided]
        omega
  · intro stored found
    obtain ⟨decided, undecided⟩ := fated stored found
    refine ⟨decided, undecided, ?_⟩
    intro terminal
    have whole : engine.world.answers id = (engine.world.lifecycle id).answers := by
      rw [kept.log, ended stored found terminal, List.append_nil]
    refine ⟨whole, ?_⟩
    intro sequence follows
    rw [terminal] at decided
    rw [whole] at follows
    have reached := verdict_scripted follows undecided decided
    rwa [ledger.answers_length found] at reached

/-- A retry that is accepted: two answers, of which the second decides. -/
theorem answers_decide_retries : ∃ engine, Run (system sampleConfig) SingleDelivery
      (retriesOnce ++ [.scheduler 0 (.enqueue 0 false), .consume .email 0] ++ sends 1 .success ++
        persists 1) engine ∧
    engine.world.answers 7 = [.temporaryFailure, .success] ∧
      (engine.world.answers 7).count .success ≤ 1 ∧
    ∀ stored, engine.world.row 7 = some stored → stored.val.state.terminal = true →
      stored.val.state = RetryLoop.finalState [.temporaryFailure,
        .success] stored.val.maxAttempts := by
  obtain ⟨engine, run, observed⟩ := Run.exists_of_execute (system sampleConfig) SingleDelivery
    (retriesOnce ++ [.scheduler 0 (.enqueue 0 false), .consume .email 0] ++ sends 1 .success ++
      persists 1)
    (fun engine => decide (engine.world.answers 7 = [.temporaryFailure, .success]))
    (by decide +kernel)
  have answers : engine.world.answers 7 = [.temporaryFailure, .success] := by simpa using observed
  obtain ⟨_, once, rows⟩ := answers_decide run 7
  refine ⟨engine, run, answers, once, ?_⟩
  intro stored found terminal
  refine (((rows stored found).2.2 terminal).2 _ ?_).1
  intro attempt
  rw [answers]
  match attempt with
  | 0 | 1 => rfl
  | _ + 2 => rfl

end Engine

end Relays
