import Relays.Engine.Queueing

/-! The submission guarantee: what a 200 or a 201 says about the queue. -/

namespace Relays.Engine

open Transition

/-- The notification has been put on its queue, or its delivery has ended. -/
def Queued (engine : Engine) (id : Uuid) : Prop :=
  id ∈ engine.world.published ∨
    ∃ stored, engine.world.row id = some stored ∧ stored.val.state.terminal = true

/-- Whenever `create_notify` has answered 200 or 201, the notification has been queued. -/
def NothingLost (config : Config) (events : List Event) : Prop :=
  ∀ front back middle (index : Nat) (request : Submission.Request) isNewRequest notification,
    events = front ++ back → Run (system config) Any front middle →
      middle.requests[index]? = some request →
    request.phase = .answered isNewRequest notification → Queued middle notification.id

/-- No replay is answered while the request that created the notification is still
before its enqueue, or after that enqueue has raised. -/
def AwaitsEnqueue (engine : Engine) (event : Event) : Prop :=
  ∀ (index first : Nat) (replay original : Submission.Request) replayed created,
    event = .request index .commit → engine.requests[index]? = some replay →
    replay.phase = .replayed replayed → engine.requests[first]? = some original →
    original.phase.unqueued = some created → created.id ≠ replayed.id

variable {config : Config} {engine before after : Engine} {event : Event} {events : List Event}

/-- A notification whose message has not been sent is neither queued nor ended. -/
theorem unqueued_not_queued (run : Run (system config) Any events engine) {index : Nat}
    {request : Submission.Request} {notification : Notification}
    (found : engine.requests[index]? = some request)
    (unqueued : request.phase.unqueued = some notification) :
    ¬ Queued engine notification.id := by
  have queueing := run_queueing run
  have unpublished := queueing.unqueued index request notification found unqueued
  intro queued
  rcases queued with published | ⟨stored, present, terminal⟩
  · exact unpublished published
  · have fresh := queueing.fresh _ stored present unpublished
    simp [fresh, NotificationState.terminal] at terminal

/-- Every answer of a run that awaits its enqueues is about a published notification. -/
theorem run_answers_published
    (run : Run (system config) (fun before event => Any before event ∧
      AwaitsEnqueue before event) events engine) :
    ∀ (index : Nat) (request : Submission.Request) isNewRequest notification,
      engine.requests[index]? = some request → request.phase = .answered isNewRequest notification →
      notification.id ∈ engine.world.published := by
  induction run with
  | start =>
    intro index request _ _ found
    simp [system, init] at found
  | @step events before event after earlier permitted taken ih =>
    intro index request isNewRequest notification found answered
    have moves : Moves config before event after := step_moves taken
    have queueing := run_queueing earlier
    apply moves.published_kept
    rcases moves.request_cases found with present | ⟨_, _, rfl⟩
      | ⟨current, _, rfl, entry, _, stepped⟩
    · exact ih index request isNewRequest notification present answered
    · cases answered
    · rcases stepped.answered answered with queued | ⟨replayed, rfl⟩
      · exact queueing.handedOver index current notification entry (by rw [queued]; rfl)
      · obtain ⟨_, stored, present, _⟩ := ((run_sound earlier).request entry).settled notification
          (by rw [replayed]; rfl)
        obtain ⟨first, key, original, created, held, _, made, named⟩ :=
          (run_originals earlier).row notification.id stored present
        rcases Submission.Phase.original_cases made with unqueued | handed
        · exact absurd named (permitted.2 index first current original notification created
            rfl entry replayed
            held unqueued)
        · rw [← named]
          exact queueing.handedOver first original created held handed

/-- Nothing accepted is lost exactly in the runs in which no replay is answered
before the message of its notification has been sent. -/
theorem nothing_lost_iff (run : Run (system config) Any events engine) :
    NothingLost config events ↔ ∀ front event back before, events = front ++ event :: back →
      Run (system config) Any front before → AwaitsEnqueue before event := by
  constructor
  · intro nothing front event back before split reached index first replay original replayed created
      commits
      found current held unqueued same
    subst commits
    obtain ⟨_, after, again, _, taken⟩ := run.taken_at split
    obtain rfl := again.unique reached
    have extended := reached.step trivial taken
    have moves : Moves config _ (.request index .commit) after := step_moves taken
    cases moves with
    | @request _ acting _ next phase entry moves =>
      obtain rfl := Option.some.inj (entry.symm.trans found)
      cases moves with
      | commitNew completed => simp [current] at completed
      | commitReplay replays =>
        obtain rfl := Submission.Phase.replayed.inj (replays.symm.trans current)
        have different : first ≠ index := by
          rintro rfl
          obtain rfl := Option.some.inj (held.symm.trans found)
          rw [current] at unqueued
          cases unqueued
        have queued := nothing (front ++ [.request index .commit]) back _ index _ false
          _ (by simp [split]) extended
          (Processes.set_self entry) rfl
        rw [← same] at queued
        exact unqueued_not_queued extended ((Processes.set_other different).trans held) unqueued
          queued
  · intro awaits front back middle index request isNewRequest notification split reached found
      answered
    have restricted : Run (system config) (fun before event => Any before event ∧
      AwaitsEnqueue before event)
        front middle := by
      apply reached.restrict
      intro first event rest before inner prefixRun
      exact awaits first event (rest ++ back) before (by rw [split, inner]; simp) prefixRun
    exact .inl (run_answers_published restricted index request isNewRequest notification found
      answered)

/-- The first request fails at its enqueue; its repetition is answered from the record. -/
def failsThenReplays : List Event :=
  submits 0 7 ++ [.request 0 (.enqueue true), .post sampleArguments, .request 1 .insertIdemKeys,
    .request 1 .getIdemKeys, .request 1 .getNotification, .request 1 .commit]

theorem nothing_lost_iff_delivered : ∃ engine,
    Run (system sampleConfig) Any (deliversOnce .success) engine ∧
    (NothingLost sampleConfig (deliversOnce .success) ↔
      ∀ front event back before, deliversOnce .success = front ++ event :: back →
        Run (system sampleConfig) Any front before → AwaitsEnqueue before event) := by
  obtain ⟨engine, run, _⟩ := deliversOnce_succeeds
  exact ⟨engine, run.any, nothing_lost_iff run.any⟩

theorem replay_lost : ∃ engine, Run (system sampleConfig) Any failsThenReplays engine ∧
    ¬ NothingLost sampleConfig failsThenReplays := by
  obtain ⟨engine, run, observed⟩ := Run.exists_of_execute (system sampleConfig) Any failsThenReplays
    (fun engine => engine.world.published = [] && engine.requests[1]?.any fun request =>
      match request.phase with
      | .answered false notification => (engine.world.row notification.id).any fun stored =>
        stored.val.state = .created
      | _ => false) (by decide +kernel)
  refine ⟨engine, run, ?_⟩
  intro nothing
  simp only [Bool.and_eq_true, decide_eq_true_eq] at observed
  obtain ⟨unpublished, replay⟩ := observed
  obtain ⟨request, found, answered⟩ := (Option.any_eq_true _ _).mp replay
  split at answered
  · rename_i notification current
    obtain ⟨stored, present, created⟩ := (Option.any_eq_true _ _).mp answered
    rcases nothing failsThenReplays [] engine 1 request false notification
      (by simp) run found current with
      published | ⟨other, again, terminal⟩
    · simp [unpublished] at published
    · obtain rfl := Option.some.inj (present.symm.trans again)
      simp only [decide_eq_true_eq] at created
      simp [created, NotificationState.terminal] at terminal
  · cases answered

end Relays.Engine
