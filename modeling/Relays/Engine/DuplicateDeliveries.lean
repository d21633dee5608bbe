import Relays.Engine.Accounting
import Relays.Engine.ResultLog

/-! How often the provider accepts one notification. The state check of a worker
is made before its call and the state is written after it, so only executions that
overlap can both succeed. -/

namespace Relays

open ReadCommitted Transition

namespace Delivery

/-- The row has been loaded and the execution has not ended. -/
def Phase.active : Phase → Bool
  | .loaded _ _ | .sending _ | .answered _ _ | .opened _ | .incremented _ _ | .recorded _ _
  | .concluded _ _ => true
  | .received | .ended _ => false

/-- The result an execution still has to persist. -/
def Phase.result : Phase → Option ProviderResult
  | .answered _ result => some result
  | .opened persist | .incremented persist _ | .recorded persist _ | .concluded persist _ =>
    some persist.result
  | .received | .loaded _ _ | .sending _ | .ended _ => none

theorem Phase.active_of_result {phase : Phase} {result : ProviderResult}
    (carried : phase.result = some result) : phase.active = true := by
  cases phase <;> simp_all [Phase.result, Phase.active]

end Delivery

namespace Lifecycle

/-- No further execution gets past the eligibility check of this row. -/
def Closed (view : Lifecycle) : Prop :=
  ∃ stored, view.row = some stored ∧
    (stored.val.state = .sent ∨ stored.val.maxAttempts ≤ stored.val.attemptCount)

theorem Step.closed {id : Uuid} {before after : Lifecycle} (step : Step id before after)
    (closed : before.Closed) : after.Closed := by
  obtain ⟨row, present, reason⟩ := closed
  cases step with
  | create written => cases present
  | queue waiting written =>
    cases present
    refine ⟨_, rfl, ?_⟩
    rcases reason with sent | exhausted
    · simp [awaitsQueueing, sent] at waiting
    · rw [written]
      exact .inr exhausted
  | deliver known persisted =>
    cases present
    obtain ⟨room, _⟩ := delivered_counts persisted
    refine ⟨_, rfl, ?_⟩
    rcases reason with sent | exhausted
    · exact .inl ((delivered_sent_iff persisted).mpr (.inl sent))
    · omega
  | claim due written =>
    cases present
    refine ⟨_, rfl, ?_⟩
    rcases reason with sent | exhausted
    · have queued := (retryable_iff.mp due).1
      simp [sent] at queued
    · rw [written]
      exact .inr exhausted

end Lifecycle

namespace Delivery

variable {config : Config} {index : Nat} {world next : World} {execution : Execution}
variable {event : Event} {phase : Phase} {result : ProviderResult} {id : Uuid}

/-- A closed row is not eligible, so its executions end when they load it. -/
theorem afterLoad_closed (closed : (world.lifecycle id).Closed) :
    (afterLoad (world.row id)).active = false := by
  obtain ⟨stored, present, reason⟩ := closed
  have row : world.row id = some stored := present
  have refused : validateDeliveryEligibility stored.val ≠ .ok () := by
    intro eligible
    obtain ⟨open', room⟩ := validateDeliveryEligibility_ok.mp eligible
    rcases reason with sent | exhausted
    · simp [sent, NotificationState.terminal] at open'
    · omega
  cases checked : validateDeliveryEligibility stored.val with
  | error reason => simp [row, afterLoad, checked, Phase.active]
  | ok _ => exact absurd checked refused

/-- An execution becomes active by loading a row that is not closed. -/
theorem Moves.activates (moves : Moves config index world execution event next phase)
    (active : phase.active = true) : execution.phase.active = true ∨
      (next = world ∧ ¬ (world.lifecycle execution.notificationId).Closed) := by
  cases moves with
  | load current =>
    right
    refine ⟨rfl, ?_⟩
    intro closed
    simp [afterLoad_closed closed] at active
  | send current | answer current | openTransaction current | increment current | record current
  | conclude current => exact .inl (by rw [current]; rfl)
  | providerRaises | incrementRejected | incrementMissing | recordRejected | concludeRejected
  | concludeRaises | commit | interrupt => cases active

/-- A success is refused only on a row without attempts left. -/
theorem accepts_of_success (carried : execution.phase.result = some result)
    (success : result.status = .success)
    (open' : ¬ (world.lifecycle execution.notificationId).Closed) :
    Accepts world execution event := by
  intro stored present
  split
  · by_contra exhausted
    exact open' ⟨stored, present, .inr (Nat.not_lt.mp exhausted)⟩
  · rename_i persist _ current
    rw [current] at carried
    obtain rfl := Option.some.inj carried
    exact persist.result.successStorable success
  · rename_i persist _ _ _ current
    rw [current] at carried
    obtain rfl := Option.some.inj carried
    simp [success]
  · trivial

/-- A success stays with its execution until the row is closed. -/
theorem Moves.keeps_success (moves : Moves config index world execution event next phase)
    (valid : Valid index world execution)
    (ledger : (world.lifecycle execution.notificationId).Ledger execution.notificationId)
    (running : event ≠ .interrupt) (carried : execution.phase.result = some result)
    (success : result.status = .success) :
    phase.result = some result ∨ (next.lifecycle execution.notificationId).Closed := by
  have closed_of_discarded (discarded : phase.discarded = true) :
      (world.lifecycle execution.notificationId).Closed := by
    by_contra open'
    have kept := moves.keeps_result valid ledger (accepts_of_success carried success open')
    simp [kept] at discarded
  cases moves with
  | load current | send current | answer current | providerRaises current =>
    simp [current, Phase.result] at carried
  | openTransaction current | increment current | record current | conclude current =>
    rw [current] at carried
    exact .inl carried
  | commit current =>
    obtain ⟨stored, version, attempt, workerNow, delay, _, _, persisted, published, _⟩ :=
      valid.commit current
    rw [current] at carried
    obtain rfl := Option.some.inj carried
    right
    rw [published]
    exact ⟨version, rfl, .inl ((Lifecycle.delivered_sent_iff persisted).mpr (.inr success))⟩
  | incrementRejected current | incrementMissing current | recordRejected current
  | concludeRejected current | concludeRaises current =>
    right
    rw [World.lifecycle_rollback]
    exact closed_of_discarded rfl
  | interrupt => exact absurd rfl running

end Delivery

namespace Engine

variable {config : Config} {engine after before : Engine} {event : Event} {events : List Event}
variable {allowed : Engine → Event → Prop} {index other : Nat} {id : Uuid}

theorem Moves.closed_kept (moves : Moves config engine event after) (sound : Sound config engine)
    (closed : (engine.world.lifecycle id).Closed) : (after.world.lifecycle id).Closed := by
  rcases moves.publishes sound id with same | published
  · rw [same]
    exact closed
  · exact published.step.closed closed

/-- The success of an execution is still to be persisted, or has closed its row. -/
def Held (engine : Engine) (index : Nat) : Prop :=
  ∃ execution, engine.executions[index]? = some execution ∧
    ((∃ result, execution.phase.result = some result ∧ result.status = .success) ∨
      (engine.world.lifecycle execution.notificationId).Closed)

theorem Moves.held_kept (moves : Moves config engine event after) (sound : Sound config engine)
    (ledger : ∀ id, (engine.world.lifecycle id).Ledger id) (running : CrashFree engine event)
    (held : Held engine index) : Held after index := by
  obtain ⟨execution, found, reason⟩ := held
  rcases reason with ⟨result, carried, success⟩ | closed
  · rcases moves.execution_next found with kept | ⟨statement, _, rfl, stepped, present⟩
    · exact ⟨execution, kept, .inl ⟨result, carried, success⟩⟩
    · have alive : statement ≠ .interrupt := by
        rintro rfl
        exact running
      refine ⟨_, present, ?_⟩
      rcases stepped.keeps_success (sound.worker found) (ledger _) alive carried success with still
        | closed
      · exact .inl ⟨result, still, success⟩
      · exact .inr closed
  · obtain ⟨later, present, target, _⟩ := moves.execution_kept found
    refine ⟨later, present, .inr ?_⟩
    rw [target]
    exact moves.closed_kept sound closed

/-- The provider has accepted the notification of this execution. -/
def Succeeded (engine : Engine) (index : Nat) : Prop :=
  ∃ result ∈ engine.world.results, result.execution = index ∧ result.status = .success

theorem run_held (run : Run (system config) CrashFree events engine) :
    ∀ index, Succeeded engine index → Held engine index := by
  apply run.invariant
  · intro index succeeded
    obtain ⟨result, member, _⟩ := succeeded
    simp [system, init, World.empty] at member
  · intro events before event after earlier held running taken index succeeded
    have moves : Moves config before event after := step_moves taken
    obtain ⟨result, member, same, success⟩ := succeeded
    have kept (listed : result ∈ before.world.results) : Held after index :=
      moves.held_kept (run_sound earlier) (fun id => (run_lifecycle earlier id).ledger) running
        (held index ⟨result, listed, same, success⟩)
    rcases moves.results with ⟨results, _⟩ | ⟨_, _, _, answer, _, _, _, appended, present⟩
    · rw [results] at member
      exact kept member
    · rw [appended] at member
      rcases List.mem_append.mp member with member | added
      · exact kept member
      · obtain rfl := List.mem_singleton.mp added
        subst same
        exact ⟨_, present, .inl ⟨answer, rfl, success⟩⟩

/-- Both executions work on the same notification at the same time. -/
def Overlap (engine : Engine) (first second : Nat) : Prop :=
  ∃ one two, engine.executions[first]? = some one ∧ engine.executions[second]? = some two ∧
    one.notificationId = two.notificationId ∧ one.phase.active = true ∧ two.phase.active = true

/-- The executions overlap in some state of the run. -/
def Overlapped (config : Config) (events : List Event) (first second : Nat) : Prop :=
  ∃ front back middle, events = front ++ back ∧ Run (system config) CrashFree front middle ∧
    Overlap middle first second

variable {first second : Nat}

theorem Overlapped.symm (overlapped : Overlapped config events first second) :
    Overlapped config events second first := by
  obtain ⟨front, back, middle, split, reached, one, two, left, right, same, active, also⟩ :=
    overlapped
  exact ⟨front, back, middle, split, reached, two, one, right, left, same.symm, also, active⟩

theorem Overlapped.extend (overlapped : Overlapped config events first second) (event : Event) :
    Overlapped config (events ++ [event]) first second := by
  obtain ⟨front, back, middle, split, rest⟩ := overlapped
  exact ⟨front, back ++ [event], middle, by simp [split], rest⟩

/-- An active execution was active before, or has just loaded a row that is not closed. -/
theorem Moves.active_back {later : Delivery.Execution} (moves : Moves config engine event after)
    (present : after.executions[index]? = some later) (active : later.phase.active = true) :
    ∃ execution, engine.executions[index]? = some execution ∧
      later.notificationId = execution.notificationId ∧ (execution.phase.active = true ∨
        (¬ (engine.world.lifecycle execution.notificationId).Closed ∧
          ∀ other, other ≠ index → after.executions[other]? = engine.executions[other]?)) := by
  rcases moves.execution_cases present with found | ⟨_, rfl, _⟩
    | ⟨execution, _, rfl, entry, named, stepped⟩
  · exact ⟨later, found, rfl, .inl active⟩
  · cases active
  · refine ⟨execution, entry, named, ?_⟩
    rcases stepped.activates active with earlier | ⟨_, eligible⟩
    · exact .inl earlier
    · exact .inr ⟨eligible, fun other different => moves.executions_other different⟩

/-- A success was logged before, or the provider has just given it to a sending execution. -/
theorem Moves.succeeded_back (moves : Moves config engine event after)
    (succeeded : Succeeded after index) :
    Succeeded engine index ∨ ∃ execution, engine.executions[index]? = some execution ∧
      execution.phase.active = true ∧ ∀ other, other ≠ index →
        after.executions[other]? = engine.executions[other]? ∧
          (Succeeded after other → Succeeded engine other) := by
  obtain ⟨result, member, same, success⟩ := succeeded
  rcases moves.results with ⟨results, _⟩
    | ⟨acting, execution, notification, answer, rfl, found, current, appended, _⟩
  · rw [results] at member
    exact .inl ⟨result, member, same, success⟩
  · rw [appended] at member
    rcases List.mem_append.mp member with member | added
    · exact .inl ⟨result, member, same, success⟩
    · obtain rfl := List.mem_singleton.mp added
      subst same
      refine .inr ⟨execution, found, by rw [current]; rfl, ?_⟩
      intro other different
      constructor
      · exact moves.executions_other different
      · intro earlier
        obtain ⟨logged, listed, named, accepted⟩ := earlier
        rw [appended] at listed
        rcases List.mem_append.mp listed with listed | last
        · exact ⟨logged, listed, named, accepted⟩
        · rw [List.mem_singleton.mp last] at named
          exact absurd named.symm different

theorem Succeeded.execution (succeeded : Succeeded engine index) (logged : Logged events engine) :
    ∃ execution, engine.executions[index]? = some execution := by
  obtain ⟨result, member, rfl, _⟩ := succeeded
  obtain ⟨execution, _, found, _⟩ := logged.entry result member
  exact ⟨execution, found⟩

/-- A success next to another success, or to an active execution, comes from an overlap:
a row is loaded for delivery only while every earlier success is still unpersisted. -/
theorem succeeded_overlapped (run : Run (system config) CrashFree events engine) :
    ∀ first second one two, first ≠ second → engine.executions[first]? = some one →
      engine.executions[second]? = some two → one.notificationId = two.notificationId →
      Succeeded engine first → (two.phase.active = true ∨ Succeeded engine second) →
      Overlapped config events first second := by
  induction run with
  | start =>
    intro first second one two _ left
    simp [system, init] at left
  | @step events before event after earlier running taken ih =>
    intro first second one two different left right same success busy
    have moves : Moves config before event after := step_moves taken
    have logged := run_logged earlier
    have target {index : Nat} {old new : Delivery.Execution} (found : before.executions[index]? =
      some old)
        (present : after.executions[index]? = some new) :
          new.notificationId = old.notificationId := by
      obtain ⟨later, again, named, _⟩ := moves.execution_kept found
      obtain rfl := Option.some.inj (again.symm.trans present)
      exact named
    rcases moves.succeeded_back success with success | ⟨sending, found, active, others⟩
    · obtain ⟨old, held⟩ := success.execution logged
      have named := target held left
      rcases busy with active | accepted
      · obtain ⟨loading, found, loaded, reason⟩ := moves.active_back right active
        rcases reason with busy | ⟨eligible, others⟩
        · exact (ih first second old loading different held found
            (by rw [← named, same, loaded]) success
            (.inl busy)).extend event
        · -- the row was not closed, so the first success is still with its execution
          rw [others first different] at left
          obtain ⟨carrying, entry, reason⟩ := run_held earlier first success
          obtain rfl := Option.some.inj (entry.symm.trans left)
          rcases reason with ⟨result, carried, _⟩ | closed
          · refine ⟨events ++ [event], [], after, by simp, earlier.step running taken, ?_⟩
            exact ⟨carrying, two, (others first different).trans left, right, same,
              Delivery.Phase.active_of_result carried, active⟩
          · rw [same, loaded] at closed
            exact absurd closed eligible
      · rcases moves.succeeded_back accepted with accepted | ⟨sending, found, active, _⟩
        · obtain ⟨also, found⟩ := accepted.execution logged
          have noted := target found right
          exact (ih first second old also different held found
            (by rw [← named, same, noted]) success
            (.inr accepted)).extend event
        · have noted := target found right
          exact (ih first second old sending different held found
            (by rw [← named, same, noted]) success
            (.inl active)).extend event
    · have named := target found left
      obtain ⟨unchanged, accepted_before⟩ := others second different.symm
      rw [unchanged] at right
      rcases busy with busy | accepted
      · refine Overlapped.extend ⟨events, [], before, by simp, earlier, ?_⟩ event
        exact ⟨sending, two, found, right, named.symm.trans same, active, busy⟩
      · have swapped := ih second first two sending different.symm right found
          (by rw [← same, named])
          (accepted_before accepted) (.inl active)
        exact swapped.symm.extend event

/-- How often the provider has accepted a notification. -/
def successes (engine : Engine) (id : Uuid) : Nat :=
  engine.world.results.countP (fun result => result.notificationId = id ∧ result.status = .success)

/-- The provider answers this execution of the run with a success. -/
def Accepted (events : List Event) (index : Nat) : Prop :=
  ∃ answer, .worker index (.answer answer) ∈ events ∧ answer.status = .success

/-- A notification is accepted at most once exactly in the runs in which no two
accepted executions of it overlap. -/
theorem accepted_once_iff (run : Run (system config) CrashFree events engine) :
    (∀ id, successes engine id ≤ 1) ↔ ∀ first second, first ≠ second → Accepted events first →
      Accepted events second → ¬ Overlapped config events first second := by
  have logged := run_logged run
  constructor
  · intro once first second different left right overlapped
    obtain ⟨front, back, middle, split, reached, one, two, held, also, same, _, _⟩ := overlapped
    have kept {index : Nat} {old : Delivery.Execution} (found : middle.executions[index]? =
      some old) :
        ∃ later, engine.executions[index]? = some later ∧
          later.notificationId = old.notificationId := by
      apply run.keeps split reached
      · exact ⟨old, found, rfl⟩
      · intro events before event after earlier present permitted taken
        obtain ⟨execution, entry, named⟩ := present
        obtain ⟨later, again, target, _⟩ := (step_moves taken).execution_kept entry
        exact ⟨later, again, target.trans named⟩
    obtain ⟨answer, asked, success⟩ := left
    obtain ⟨reply, replied, accepted⟩ := right
    obtain ⟨execution, found, member⟩ := logged.answered first answer asked
    obtain ⟨other, entry, listed⟩ := logged.answered second reply replied
    obtain ⟨_, again, named⟩ := kept held
    obtain rfl := Option.some.inj (again.symm.trans found)
    obtain ⟨_, again, noted⟩ := kept also
    obtain rfl := Option.some.inj (again.symm.trans entry)
    have twice : 2 ≤ successes engine one.notificationId := by
      apply Processes.two_le_countP member listed
      · simp [different]
      · simp [named, success]
      · simp [noted, same, accepted]
    have bound := once one.notificationId
    omega
  · intro apart id
    by_contra twice
    obtain ⟨left, member, right, listed, one, two, different⟩ :=
      Processes.pair_of_two_le_countP logged.distinct (Nat.lt_of_not_le twice)
    simp only [Bool.decide_and, Bool.and_eq_true, decide_eq_true_eq] at one two
    obtain ⟨first, answer, found, named, _, asked, success⟩ := logged.entry left member
    obtain ⟨second, reply, entry, noted, _, replied, accepted⟩ := logged.entry right listed
    have overlapped := succeeded_overlapped run left.execution right.execution first second
      different found entry
      (by rw [named, noted, one.1, two.1]) ⟨left, member, rfl,
        one.2⟩ (.inr ⟨right, listed, rfl, two.2⟩)
    exact apart _ _ different ⟨answer, asked, success.trans one.2⟩ ⟨reply, replied,
      accepted.trans two.2⟩ overlapped

theorem accepted_once_iff_delivered : ∃ engine,
    Run (system sampleConfig) CrashFree (deliversOnce .success) engine ∧
    ((∀ id, successes engine id ≤ 1) ↔ ∀ first second, first ≠ second →
      Accepted (deliversOnce .success) first → Accepted (deliversOnce .success) second →
      ¬ Overlapped sampleConfig (deliversOnce .success) first second) := by
  obtain ⟨engine, run, _⟩ := deliversOnce_succeeds
  exact ⟨engine, run, accepted_once_iff run⟩

/-- One message handed to two workers is sent twice. -/
theorem accepted_twice : ∃ engine,
    Run (system sampleConfig) CrashFree (loadsTwice .success .success) engine ∧
    ¬ ∀ id, successes engine id ≤ 1 := by
  obtain ⟨engine, run, observed⟩ := Run.exists_of_execute (system sampleConfig) CrashFree
    (loadsTwice .success .success) (fun engine => successes engine 7 = 2) (by decide +kernel)
  refine ⟨engine, run, ?_⟩
  intro once
  have bound := once 7
  have twice : successes engine 7 = 2 := of_decide_eq_true observed
  omega

end Engine

end Relays
