import Relays.Engine.Refinement

/-! One run of `retry_scheduler_task` on any database state. The claim clears the
retry intent of a whole batch and commits; the messages follow one by one. -/

namespace Relays

open ReadCommitted Transition

namespace RetryScheduler

/-- The scheduler task alone, in any state of the tables and the queues. -/
def alone (index : Nat) (world : World) (began : Time) (limit : Nat) :
    System (World × Phase) Event where
  init := (world, begin world began limit)
  step state event := step index state.1 state.2 event

/-- The task has returned, or an exception has ended it. -/
def Phase.ended : Phase → Bool
  | .finished _ | .raised _ | .aborted => true
  | .claiming _ _ _ _ | .enqueueing _ _ => false

/-- The committed claim of the run has returned this row. -/
def Claimed (index : Nat) (world : World) (began : Time) (limit : Nat) (events : List Event)
    (notification : Notification) :
    Prop :=
  ∃ front back state now room candidates claimed, events = front ++ .commit :: back ∧
    Run (alone index world began limit) Any front state ∧
      state.2 = .claiming now room candidates claimed ∧
    notification ∈ claimed

/-- The notification has a message on its queue or can still be claimed. -/
def HandedOver (world : World) (notification : Notification) : Prop :=
  notification.id ∈ world.queues notification.channel ∨
    ∃ stored due, world.row notification.id = some stored ∧ stored.val.state = .queued ∧
      stored.val.nextRetryAt = some due

variable {index limit : Nat} {began : Time} {world final : World}
variable {state before after : World × Phase} {phase : Phase}
variable {events front : List Event} {event : Event} {notification : Notification}

private theorem claimed_extend (claimed : Claimed index world began limit events notification)
    (event : Event) :
    Claimed index world began limit (events ++ [event]) notification := by
  obtain ⟨front, back, state, now, room, candidates, rows, split, rest⟩ := claimed
  exact ⟨front, back ++ [event], state, now, room, candidates, rows, by simp [split], rest⟩

private theorem claimed_snoc (run : Run (alone index world began limit) Any events state)
    (claimed : Claimed index world began limit (events ++ [event]) notification) :
    Claimed index world began limit events notification ∨ event = .commit ∧
      ∃ now room candidates rows, state.2 = .claiming now room candidates rows ∧
        notification ∈ rows := by
  obtain ⟨front, back, reached, now, room, candidates, rows, split, prefixRun, current, member⟩ :=
    claimed
  rcases List.eq_nil_or_concat back with rfl | ⟨rest, last, rfl⟩
  · obtain ⟨same, ends⟩ := List.append_inj' split rfl
    subst same
    obtain rfl := prefixRun.unique run
    exact .inr ⟨List.singleton_inj.mp ends, now, room, candidates, rows, current, member⟩
  · left
    have grouped : events ++ [event] = (front ++ .commit :: rest) ++ [last] := by simpa using split
    obtain ⟨same, _⟩ := List.append_inj' grouped rfl
    exact ⟨front, rest, reached, now, room, candidates, rows, same, prefixRun, current, member⟩

/-- How far the task has come with the rows it has claimed. -/
structure Progress (index : Nat) (world : World) (began : Time) (limit : Nat) (events : List Event)
    (state : World × Phase) : Prop where
  keyed : state.1.Keyed
  valid : Valid index state.1 state.2
  unclaimed : state.2.claims = true ∨ state.2 = .aborted →
    ∀ notification, ¬ Claimed index world began limit events notification
  rows : ∀ notification, Claimed index world began limit events notification →
    ∃ stored, state.1.row notification.id = some stored ∧ stored.val.state = .processing
  messages : ∀ notification, Claimed index world began limit events notification →
    notification ∈ state.2.handover ∨ notification.id ∈ state.1.queues notification.channel
  handover : ∀ notification ∈ state.2.handover, Claimed index world began limit events notification

private theorem commit_keyed (keyed : world.Keyed)
    (versions : ∀ id version, (world.notifications id).pending = some (.scheduler index, version) →
      ∃ next, version = some next ∧ next.val.id = id) :
        (world.commit (.scheduler index)).Keyed := by
  intro id stored found
  by_cases owned : world.notifications.Owns (.scheduler index) id
  · obtain ⟨version, held⟩ := owned
    obtain ⟨next, rfl, named⟩ := versions id version held
    obtain rfl := Option.some.inj ((World.commit_row_of_pending held).symm.trans found)
    exact named
  · rw [World.commit_row_of_unowned owned] at found
    exact keyed id stored found

private theorem claims_version {now : Time} {room : Nat} {candidates : List Uuid}
    {claimed : List Notification}
    (valid : Valid index world (.claiming now room candidates claimed)) (id : Uuid)
    (version : Option StoredNotification)
    (held : (world.notifications id).pending = some (.scheduler index, version)) :
    ∃ next, version = some next ∧ next.val.id = id := by
  obtain ⟨rows, _, sole⟩ := valid.claiming now room candidates claimed rfl
  obtain ⟨notification, member, rfl⟩ := List.mem_map.mp (sole id ⟨version, held⟩)
  obtain ⟨stored, next, _, _, pending, _, same⟩ := rows notification member
  rw [pending] at held
  cases held
  exact ⟨next, rfl, by rw [same]⟩

/-- A step that neither commits nor enqueues leaves the claim where it is. -/
private theorem Progress.quiet (progress : Progress index world began limit events before)
    (run : Run (alone index world began limit) Any events before) (uncommitted : event ≠ .commit)
    (keyed : after.1.Keyed) (valid : Valid index after.1 after.2)
    (rows : ∀ id, after.1.row id = before.1.row id) (queues : after.1.queues = before.1.queues)
    (claims : after.2.claims = true ∨ after.2 = .aborted → before.2.claims = true ∨
      before.2 = .aborted)
    (handover : after.2.handover = before.2.handover) :
    Progress index world began limit (events ++ [event]) after := by
  have earlier (notification : Notification)
      (claimed : Claimed index world began limit (events ++ [event]) notification) :
      Claimed index world began limit events notification := by
    rcases claimed_snoc run claimed with claimed | ⟨committed, _⟩
    · exact claimed
    · exact absurd committed uncommitted
  constructor
  · exact keyed
  · exact valid
  · intro open' notification claimed
    exact progress.unclaimed (claims open') notification (earlier notification claimed)
  · intro notification claimed
    rw [rows]
    exact progress.rows notification (earlier notification claimed)
  · intro notification claimed
    rw [handover, queues]
    exact progress.messages notification (earlier notification claimed)
  · intro notification member
    rw [handover] at member
    exact claimed_extend (progress.handover notification member) event

theorem run_progress (keyed : world.Keyed) (idle : world.Idle (.scheduler index))
    (run : Run (alone index world began limit) Any events state) :
      Progress index world began limit events state := by
  induction run with
  | start =>
    have nothing (notification : Notification) :
        ¬ Claimed index world began limit [] notification := by
      intro claimed
      obtain ⟨front, back, _, _, _, _, _, split, _⟩ := claimed
      simp at split
    constructor
    · exact keyed
    · exact .begin idle began limit
    · exact fun _ => nothing
    · exact fun notification claimed => absurd claimed (nothing notification)
    · exact fun notification claimed => absurd claimed (nothing notification)
    · intro notification member
      cases member
  | @step events before event after earlier permitted taken progress =>
    obtain ⟨base, current⟩ := before
    obtain ⟨next, last⟩ := after
    have moves : Moves index base current event next last := step_moves taken
    have valid := moves.keeps_valid progress.keyed progress.valid
    cases moves with
    | skipLocked locked | skipChanged changed =>
      exact progress.quiet earlier (by simp) progress.keyed valid
        (fun _ => rfl) rfl (fun _ => .inl rfl) rfl
    | lock done =>
      obtain ⟨_, _, _, _, _, rfl⟩ := World.updateNotification_returns done
      refine progress.quiet earlier (by simp) ?_ valid (fun _ => by simp [World.row]) rfl (fun _ =>
        .inl rfl) rfl
      intro id stored found
      exact progress.keyed id stored (by simpa [World.row] using found)
    | @commit room candidates now claimed through =>
      obtain ⟨rows, _, _⟩ := progress.valid.claiming now room candidates claimed rfl
      have fresh (notification : Notification)
          (committed : Claimed index world began limit (events ++ [.commit]) notification) :
            notification ∈ claimed := by
        rcases claimed_snoc earlier committed with earlier | ⟨_, _, _, _, _, current, member⟩
        · exact absurd earlier (progress.unclaimed (.inl rfl) notification)
        · cases current
          exact member
      constructor
      · exact commit_keyed progress.keyed (claims_version progress.valid)
      · exact valid
      · intro closed
        cases claimed <;> simp [afterEnqueue, Phase.claims] at closed
      · intro notification committed
        obtain ⟨stored, version, _, _, held, written, _⟩ :=
          rows notification (fresh notification committed)
        exact ⟨version, World.commit_row_of_pending held, by rw [written]; rfl⟩
      · intro notification committed
        left
        rw [handover_afterEnqueue]
        exact fresh notification committed
      · intro notification member
        rw [handover_afterEnqueue] at member
        exact ⟨events, [], _, now, room, candidates, claimed, rfl, earlier, rfl, member⟩
    | @enqueue waiting position sent total chosen =>
      have kept (notification : Notification)
          (claimed : Claimed index world began limit (events ++ [.enqueue position false])
            notification) :
          Claimed index world began limit events notification := by
        rcases claimed_snoc earlier claimed with claimed | ⟨committed, _⟩
        · exact claimed
        · cases committed
      constructor
      · exact progress.keyed
      · exact valid
      · intro closed
        rcases closed with closed | closed
        · simp [claims_afterEnqueue] at closed
        · exfalso
          generalize waiting.eraseIdx position = left at closed
          cases left <;> cases closed
      · intro notification claimed
        exact progress.rows notification (kept notification claimed)
      · intro notification claimed
        rw [handover_afterEnqueue]
        rcases progress.messages notification (kept notification claimed) with member | queued
        · obtain ⟨place, entry⟩ := List.mem_iff_getElem?.mp member
          by_cases same : place = position
          · subst same
            obtain rfl := Option.some.inj (entry.symm.trans chosen)
            exact .inr (World.enqueue_queues _ _ _)
          · exact .inl (List.mem_eraseIdx_iff_getElem?.mpr ⟨place, same, entry⟩)
        · exact .inr (World.enqueue_keeps queued)
      · intro notification member
        rw [handover_afterEnqueue] at member
        exact claimed_extend (progress.handover notification
          ((List.eraseIdx_sublist _ _).mem member)) _
    | enqueueRaises chosen =>
      exact progress.quiet earlier (by simp) progress.keyed valid
        (fun _ => rfl) rfl (by simp [Phase.claims]) rfl
    | abort =>
      refine progress.quiet earlier (by simp) ?_ valid
        (World.rollback_row _ _) rfl (fun _ => .inl rfl) rfl
      intro id stored found
      rw [World.rollback_row] at found
      exact progress.keyed id stored found

/-- The exception leaves the task with the rows it had not enqueued. -/
theorem run_raised {waiting : List Notification}
    (run : Run (alone index world began limit) Any events state)
    (current : state.2 = .raised waiting) :
    ∃ front position before total, events = front ++ [.enqueue position true] ∧
      Run (alone index world began limit) Any front before ∧ before.2 = .enqueueing waiting total ∧
      state.1 = before.1 := by
  obtain ⟨next, last⟩ := state
  cases run with
  | start => cases current
  | @step events before event _ earlier permitted taken =>
    obtain ⟨base, phase⟩ := before
    have moves : Moves index base phase event next last := step_moves taken
    cases moves with
    | enqueueRaises chosen =>
      cases current
      exact ⟨events, _, _, _, rfl, earlier, rfl, rfl⟩
    | commit | enqueue =>
      unfold afterEnqueue at current
      split at current <;> cases current
    | skipLocked | skipChanged | lock | abort => cases current

private theorem raised_stays {base : World} {waiting : List Notification} {back : List Event}
    (run : Run (alone index world began limit) Any events state) (split : events = front ++ back)
    (reached : Run (alone index world began limit) Any front (base, .raised waiting)) :
    state = (base, .raised waiting) := by
  apply run.keeps split reached
  · rfl
  · intro events before event after earlier same permitted taken
    subst same
    have moves : Moves index base (.raised waiting) event after.1 after.2 := step_moves taken
    cases moves

/-- Every claimed notification is handed over exactly when an enqueue that raises
leaves none behind without a message. -/
theorem handed_over_iff (keyed : world.Keyed) (idle : world.Idle (.scheduler index))
    (run : Run (alone index world began limit) Any events (final, phase))
    (ended : phase.ended = true) :
    (∀ notification, Claimed index world began limit events notification →
      HandedOver final notification) ↔
      ∀ front position back before waiting total, events = front ++ .enqueue position true :: back →
        Run (alone index world began limit) Any front before →
        before.2 = .enqueueing waiting total →
        ∀ notification ∈ waiting, notification.id ∈ before.1.queues notification.channel := by
  have progress := run_progress keyed idle run
  constructor
  · intro handed front position back before waiting total split reached current notification member
    obtain ⟨again, after, prefixRun, _, taken⟩ := run.taken_at split
    obtain rfl := prefixRun.unique reached
    obtain ⟨base, phase⟩ := again
    obtain ⟨next, last⟩ := after
    have moves : Moves index base phase (.enqueue position true) next last := step_moves taken
    cases moves with
    | enqueueRaises chosen =>
      cases current
      have extended : events = (front ++ [.enqueue position true]) ++ back := by simp [split]
      have stays := raised_stays run extended (reached.step trivial taken)
      obtain ⟨rfl, rfl⟩ := Prod.mk.inj stays
      have claimed := progress.handover notification member
      rcases handed notification claimed with queued | ⟨stored, due, found, state, _⟩
      · exact queued
      · obtain ⟨row, present, processing⟩ := progress.rows notification claimed
        obtain rfl := Option.some.inj (found.symm.trans present)
        simp [processing] at state
  · intro spared notification claimed
    left
    rcases progress.messages notification claimed with waits | queued
    · cases phase with
      | claiming | enqueueing => cases ended
      | finished | aborted => cases waits
      | raised waiting =>
        obtain ⟨front, position, before, total, split, reached, current, same⟩ := run_raised run rfl
        have message := spared front position [] before waiting total split reached current
          notification waits
        rw [← same] at message
        exact message
    · exact queued

section Sample

def dueRow : StoredNotification :=
  ⟨{ Submission.newNotification Engine.sampleArguments 0 7 with
      state := .queued, attemptCount := 1, nextRetryAt := some 0 }, by decide +kernel⟩

/-- One notification whose retry is due. -/
def dueWorld : World :=
  { World.empty with
    notifications := Function.update Table.empty 7 ⟨some dueRow, none⟩
    notificationIds := [7] }

private theorem dueWorld_cell (id : Uuid) :
    dueWorld.notifications id = if id = 7 then ⟨some dueRow, none⟩ else ⟨none, none⟩ := by
  by_cases same : id = 7 <;> simp [dueWorld, Table.empty, same]

private theorem dueWorld_keyed : dueWorld.Keyed := by
  intro id stored found
  rw [World.row, dueWorld_cell] at found
  split at found
  · rename_i same
    obtain rfl := Option.some.inj found
    exact same.symm
  · cases found

private theorem dueWorld_idle : dueWorld.Idle (.scheduler 0) where
  notifications id owned := by
    obtain ⟨version, held⟩ := owned
    rw [dueWorld_cell] at held
    split at held <;> cases held
  attempts := rfl
  idempotency key owned := by
    obtain ⟨version, held⟩ := owned
    cases held

theorem handed_over_iff_enqueued : ∃ final phase,
    Run (alone 0 dueWorld 0 100) Any [.lockNext, .commit, .enqueue 0 false] (final, phase) ∧
    ((∀ notification, Claimed 0 dueWorld 0 100 [.lockNext, .commit, .enqueue 0 false] notification →
      HandedOver final notification) ↔
      ∀ front position back before waiting total,
        [.lockNext, .commit, .enqueue 0 false] = front ++ .enqueue position true :: back →
        Run (alone 0 dueWorld 0 100) Any front before → before.2 = .enqueueing waiting total →
        ∀ notification ∈ waiting, notification.id ∈ before.1.queues notification.channel) := by
  obtain ⟨⟨final, phase⟩, run, ended⟩ := Run.exists_of_execute (alone 0 dueWorld 0 100) Any
    [.lockNext, .commit, .enqueue 0 false] (fun state => state.2.ended) (by decide +kernel)
  exact ⟨final, phase, run, handed_over_iff dueWorld_keyed dueWorld_idle run ended⟩

/-- The broker is down when the claimed notification is enqueued: its retry is lost. -/
theorem outage_loses_retry : ∃ final phase notification, dueWorld.Keyed ∧
    dueWorld.Idle (.scheduler 0) ∧
    Run (alone 0 dueWorld 0 100) Any [.lockNext, .commit, .enqueue 0 true] (final, phase) ∧
    phase.ended = true ∧
    Claimed 0 dueWorld 0 100 [.lockNext, .commit, .enqueue 0 true] notification ∧
    ¬ HandedOver final notification := by
  obtain ⟨⟨final, phase⟩, run, observed⟩ := Run.exists_of_execute (alone 0 dueWorld 0 100) Any
    [.lockNext, .commit, .enqueue 0 true]
    (fun state => state.2.handover.any fun notification =>
      state.2.ended && (state.1.queues notification.channel).isEmpty) (by decide +kernel)
  obtain ⟨notification, member, rest⟩ := List.any_eq_true.mp observed
  simp only [Bool.and_eq_true, List.isEmpty_iff] at rest
  have progress := run_progress dueWorld_keyed dueWorld_idle run
  have claimed := progress.handover notification member
  refine ⟨final, phase, notification, dueWorld_keyed, dueWorld_idle, run, rest.1, claimed, ?_⟩
  intro handed
  rcases handed with queued | ⟨stored, due, found, state, _⟩
  · simp [rest.2] at queued
  · obtain ⟨row, present, processing⟩ := progress.rows notification claimed
    obtain rfl := Option.some.inj (found.symm.trans present)
    simp [processing] at state

end Sample

end RetryScheduler

/-- The task alone is the task in the engine while nobody else takes a step. -/
theorem Engine.run_alone {config : Config} {engine : Engine}
    {earlier : List Engine.Event} {began : Time} {limit : Nat} {events : List RetryScheduler.Event}
    {state : World × RetryScheduler.Phase} (past : began ≤ engine.world.clock)
    (reached : Run (Engine.system config) Any earlier engine)
    (run : Run (RetryScheduler.alone engine.schedulers.length engine.world began limit) Any events
      state) :
    Run (Engine.system config) Any
      (earlier ++ [.beat began limit] ++
        events.map (Engine.Event.scheduler engine.schedulers.length))
      { engine with world := state.1, schedulers := engine.schedulers ++ [state.2] } := by
  induction run with
  | start =>
    rw [List.map_nil, List.append_nil]
    exact reached.step trivial (if_neg (Nat.not_lt.mpr past))
  | @step events before event after run permitted taken ih =>
    rw [List.map_append, ← List.append_assoc]
    apply ih.step trivial
    have moved : RetryScheduler.step engine.schedulers.length before.1 before.2 event =
      some after := taken
    simp [Engine.system, Engine.step, moved]

end Relays
