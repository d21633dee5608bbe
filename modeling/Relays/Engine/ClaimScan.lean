import Relays.Engine.Originals
import Relays.Engine.RetryCycles

/-! What a claim returns: it scans the rows that were due when it began, passes over
those it finds locked or changed, and stops at its limit. -/

namespace Relays

open ReadCommitted Transition

section Order

variable {first second third : Notification} {now : Time} {rows : List Notification}

theorem retryOrder_total (first second : Notification) : retryOrder first second ∨
    retryOrder second first := by
  rcases Nat.lt_trichotomy (first.nextRetryAt.getD 0) (second.nextRetryAt.getD 0) with before | same
    | beyond
  · exact .inl (.inl before)
  · rcases Nat.le_total first.createdAt second.createdAt with older | younger
    · exact .inl (.inr ⟨same, older⟩)
    · exact .inr (.inr ⟨same.symm, younger⟩)
  · exact .inr (.inl beyond)

theorem retryOrder_trans (one : retryOrder first second) (two : retryOrder second third) :
    retryOrder first third := by
  rcases one with less | ⟨same, older⟩
  · rcases two with further | ⟨equal, _⟩
    · exact .inl (Nat.lt_trans less further)
    · exact .inl (equal ▸ less)
  · rcases two with further | ⟨equal, younger⟩
    · exact .inl (same ▸ further)
    · exact .inr ⟨same.trans equal, Nat.le_trans older younger⟩

instance : Std.Total retryOrder := ⟨retryOrder_total⟩

instance : IsTrans Notification retryOrder := ⟨fun _ _ _ => retryOrder_trans⟩

theorem retryCandidates_sorted (now : Time) (rows : List Notification) :
    (retryCandidates now rows).Pairwise retryOrder :=
  List.pairwise_insertionSort retryOrder _

theorem mem_retryCandidates {row : Notification} :
    row ∈ retryCandidates now rows ↔ row ∈ rows ∧ retryable now row = true := by
  rw [retryCandidates, List.mem_insertionSort, List.mem_filter]

end Order

namespace World

variable {world : World} {id : Uuid} {stored : StoredNotification} {row : Notification}

theorem mem_rows (sound : world.Sound)
    (present : world.row id = some stored) : stored.val ∈ world.rows := by
  have listed := sound.known id fun missing => by simp [present] at missing
  exact List.mem_filterMap.mpr ⟨id, listed, by simp [present]⟩

theorem row_of_mem (sound : world.Sound) (member : row ∈ world.rows) :
    ∃ stored, world.row row.id = some stored ∧ stored.val = row := by
  obtain ⟨id, _, found⟩ := List.mem_filterMap.mp member
  obtain ⟨stored, present, rfl⟩ := Option.map_eq_some_iff.mp found
  rw [(sound.keyed id stored present).1]
  exact ⟨stored, present, rfl⟩

/-- An update writes notifications and nothing else. -/
theorem updateNotification_frame {after : World} {tx : Party} {matching : Notification → Bool}
    {change : Notification → Notification} {updated : Option StoredNotification}
    (done : world.updateNotification tx id matching change = .returns (after, updated)) :
    after = { world with notifications := after.notifications } := by
  cases updated with
  | none => rw [(updateNotification_returns_none done).1]
  | some stored =>
    obtain ⟨_, _, _, _, _, rfl⟩ := updateNotification_returns done
    rfl

/-- The stored rows have the ids under which they are stored. -/
theorem rows_ids (sound : world.Sound) : world.rows.map Notification.id =
    world.notificationIds.filter fun id => (world.row id).isSome := by
  unfold rows
  induction world.notificationIds with
  | nil => rfl
  | cons head rest ih =>
    cases present : world.row head with
    | none =>
      rw [List.filterMap_cons_none (by simp [present]), List.filter_cons_of_neg (by simp [present])]
      exact ih
    | some stored =>
      rw [List.filterMap_cons_some (b := stored.val) (by simp [present]),
        List.filter_cons_of_pos (by simp [present]), List.map_cons, ih,
        (sound.keyed head stored present).1]

end World

namespace Engine

section Ids

variable {config : Config} {engine after : Engine} {event : Event} {events : List Event}

theorem leave_frame {world next : World} {tx : Party} {phase last : Submission.Phase}
    (read : Submission.leave world tx phase = (next, last)) :
    next.notificationIds = world.notificationIds ∧ next.clock = world.clock := by
  unfold Submission.leave at read
  split at read <;> cases read <;> exact ⟨rfl, rfl⟩

/-- A notification is inserted under an id that no other has had. -/
theorem Moves.ids (moves : Moves config engine event after) :
    after.world.notificationIds = engine.world.notificationIds ∨
      ∃ id, id ∉ engine.world.notificationIds ∧
        after.world.notificationIds = engine.world.notificationIds ++ [id] := by
  cases moves with
  | tick | post | consume | redeliver | beat => exact .inl rfl
  | request found moves =>
    cases moves with
    | createNotification current fresh => exact .inr ⟨_, fresh, rfl⟩
    | getIdemKeys current read | getNotification current read => exact .inl (leave_frame read).1
    | markQueued current done =>
      rw [World.updateNotification_frame done]
      exact .inl rfl
    | _ => exact .inl rfl
  | worker found moves =>
    cases moves with
    | increment current done | conclude current drawn chosen done =>
      rw [World.updateNotification_frame done]
      exact .inl rfl
    | record current done =>
      rw [(World.insertAttempt_returns done).1]
      exact .inl rfl
    | _ => exact .inl rfl
  | scheduler found moves =>
    cases moves with
    | lock done =>
      rw [World.updateNotification_frame done]
      exact .inl rfl
    | _ => exact .inl rfl

theorem run_ids {allowed : Engine → Event → Prop}
    (run : Run (system config) allowed events engine) :
    engine.world.notificationIds.Nodup := by
  apply run.invariant
  · exact List.nodup_nil
  · intro _ _ _ _ _ distinct _ taken
    rcases (step_moves taken).ids with same | ⟨id, fresh, appended⟩
    · rwa [same]
    · rw [appended, ← List.concat_eq_append]
      exact distinct.concat fresh

end Ids

/-- The claim has found the candidate locked by another transaction, or no longer due. -/
def PassedOver (engine : Engine) (index : Nat) (now : Time) (id : Uuid) : Prop :=
  (engine.world.notifications id).blocked (.scheduler index) = true ∨
    ∀ stored, engine.world.row id = some stored → retryable now stored.val = false

/-- How far the claim of a scheduler has come: the candidates it has visited, and what
became of each. -/
structure Scan (config : Config) (events : List Event) (index : Nat) (now : Time) (room : Nat)
    (candidates : List Uuid) (claimed : List Notification) (front : List Event) (start : Engine)
    (limit : Nat) : Prop where
  began : ∃ after, Takes (system config) events front start (.beat now limit) after
  place : index = start.schedulers.length
  time : now ≤ start.world.clock
  counted : claimed.length + room = limit
  visited : ∃ visited, visited ++ candidates =
      (retryCandidates now start.world.rows).map Notification.id ∧
    (∀ notification ∈ claimed, notification.id ∈ visited) ∧
    ∀ id ∈ visited, id ∉ claimed.map Notification.id →
      ∃ middle before after, Takes (system config) events middle before
        (.scheduler index .lockNext) after ∧
        front.length < middle.length ∧ PassedOver before index now id

variable {config : Config} {engine after start : Engine} {event : Event} {events front : List Event}
variable {index room limit : Nat} {now : Time} {candidates : List Uuid}
    {claimed : List Notification}

theorem Scan.extend (scan : Scan config events index now room candidates claimed front start limit)
    (more : List Event) : Scan config (events ++ more) index now room candidates claimed front start
      limit where
  began := by
    obtain ⟨after, takes⟩ := scan.began
    exact ⟨after, takes.extend more⟩
  place := scan.place
  time := scan.time
  counted := scan.counted
  visited := by
    obtain ⟨visited, whole, inside, passed⟩ := scan.visited
    refine ⟨visited, whole, inside, ?_⟩
    intro id member unclaimed
    obtain ⟨middle, before, after, takes, rest⟩ := passed id member unclaimed
    exact ⟨middle, before, after, takes.extend more, rest⟩

/-- The next candidate was passed over by the step just taken. -/
private theorem Scan.skip {id : Uuid}
    (scan : Scan config events index now (room + 1) (id :: candidates) claimed front start limit)
    (reached : Run (system config) Any events engine)
    (taken : step config engine (.scheduler index .lockNext) = some after)
    (passed : id ∉ claimed.map Notification.id → PassedOver engine index now id) :
    Scan config (events ++ [.scheduler index .lockNext]) index now
      (room + 1) candidates claimed front start
      limit := by
  have longer := scan.extend [.scheduler index .lockNext]
  obtain ⟨visited, whole, inside, earlier⟩ := longer.visited
  obtain ⟨_, began⟩ := scan.began
  refine { longer with visited := ⟨visited ++ [id], by simpa using whole, ?_, ?_⟩ }
  · intro notification member
    exact List.mem_append_left _ (inside notification member)
  · intro other member unclaimed
    rcases List.mem_append.mp member with old | new
    · exact earlier other old unclaimed
    · obtain rfl := List.mem_singleton.mp new
      exact ⟨events, engine, after, .last reached taken, began.length_lt, passed unclaimed⟩

/-- The next candidate was locked and claimed by the step just taken. -/
private theorem Scan.lock {id : Uuid} {notification : Notification}
    (scan : Scan config events index now (room + 1) (id :: candidates) claimed front start limit)
    (named : notification.id = id) (more : List Event) :
    Scan config (events ++ more) index now room candidates
      (claimed ++ [notification]) front start limit := by
  have longer := scan.extend more
  obtain ⟨visited, whole, inside, earlier⟩ := longer.visited
  have counted := scan.counted
  refine { longer with
    counted := by simp only [List.length_append, List.length_cons, List.length_nil]; omega
    visited := ⟨visited ++ [id], by simpa using whole, ?_, ?_⟩ }
  · intro other member
    rcases List.mem_append.mp member with old | new
    · exact List.mem_append_left _ (inside other old)
    · obtain rfl := List.mem_singleton.mp new
      simp [named]
  · intro other member unclaimed
    simp only [List.map_append, List.mem_append, not_or] at unclaimed
    rcases List.mem_append.mp member with old | new
    · exact earlier other old unclaimed.1
    · obtain rfl := List.mem_singleton.mp new
      simp [named] at unclaimed

/-- Every scheduler that still claims has scanned its candidates in order. -/
theorem run_scan (run : Run (system config) Any events engine) :
    ∀ index now room candidates claimed,
      engine.schedulers[index]? = some (.claiming now room candidates claimed) →
      ∃ front start limit, Scan config events index now room candidates claimed front start
        limit := by
  induction run with
  | start => intro index now room candidates claimed found; simp [system, init] at found
  | @step events before event after earlier permitted taken ih =>
    intro index now room candidates claimed found
    have sound := run_sound earlier
    have moves : Moves config before event after := step_moves taken
    have last : Takes (system config) (events ++ [event]) events before event after :=
      .last earlier taken
    cases moves with
    | tick | post | request | consume | redeliver | worker =>
      obtain ⟨front, start, limit, scan⟩ := ih _ _ _ _ _ found
      exact ⟨front, start, limit, scan.extend _⟩
    | beat past =>
      rcases Processes.append_cases found with ⟨rfl, begun⟩ | kept
      · cases begun
        exact ⟨events, before, _, ⟨_, last⟩, rfl, past, by simp, [], by simp, by simp, by simp⟩
      · obtain ⟨front, start, limit, scan⟩ := ih _ _ _ _ _ kept
        exact ⟨front, start, limit, scan.extend _⟩
    | @scheduler acting phase _ _ _ entry moves =>
      rcases Processes.set_cases found with ⟨rfl, current⟩ | ⟨_, kept⟩
      · cases moves with
        | @skipLocked _ _ _ _ id locked =>
          cases current
          obtain ⟨front, start, limit, scan⟩ := ih _ _ _ _ _ entry
          exact ⟨front, start, limit,
            scan.skip earlier taken fun _ => .inl (World.updateNotification_waits locked)⟩
        | @skipChanged _ _ _ _ _ id changed =>
          cases current
          obtain ⟨front, start, limit, scan⟩ := ih _ _ _ _ _ entry
          refine ⟨front, start, limit, scan.skip earlier taken fun unclaimed => .inr ?_⟩
          intro stored present
          obtain ⟨_, _, sole⟩ := (sound.scheduler entry).claiming _ _ _ _ rfl
          apply (World.updateNotification_returns_none changed).2
          rw [Cell.view_of_unowned fun version held => unclaimed (sole id ⟨version, held⟩)]
          exact present
        | @lock _ _ stored _ _ _ id done =>
          cases current
          obtain ⟨front, start, limit, scan⟩ := ih _ _ _ _ _ entry
          obtain ⟨read, _, seen, due, written, _⟩ := World.updateNotification_returns done
          have committed := (RetryScheduler.lock_reads_committed (sound.scheduler entry) seen due).1
          have named : stored.val.id = id := by
            rw [written]
            exact (sound.world.keyed id read committed).1
          exact ⟨front, start, limit, scan.lock named _⟩
        | commit | enqueue =>
          have open' := congrArg RetryScheduler.Phase.claims current
          rw [RetryScheduler.claims_afterEnqueue] at open'
          cases open'
        | enqueueRaises => cases current
        | abort => cases current
      · obtain ⟨front, start, limit, scan⟩ := ih _ _ _ _ _ kept
        exact ⟨front, start, limit, scan.extend _⟩

/-- What a claim has returned, against the state in which its statement began. -/
structure ClaimsLeast (config : Config) (events : List Event) (index : Nat) (now : Time)
    (claimed : List Notification) (front : List Event) (start : Engine) (limit : Nat) : Prop where
  began : ∃ after, Takes (system config) events front start (.beat now limit) after
  place : index = start.schedulers.length
  time : now ≤ start.world.clock
  bound : claimed.length ≤ limit
  distinct : (claimed.map Notification.id).Nodup
  due : ∀ notification ∈ claimed, ∃ stored, start.world.row notification.id = some stored ∧
    retryable now stored.val = true
  /-- A row that was due and is not returned was passed over, or comes after all those returned. -/
  least : ∀ id stored, start.world.row id = some stored → retryable now stored.val = true →
    id ∉ claimed.map Notification.id →
    (∃ middle before after, Takes (system config) events middle before
      (.scheduler index .lockNext) after ∧
      front.length < middle.length ∧ PassedOver before index now id) ∨
    claimed.length = limit ∧ ∀ notification ∈ claimed, ∃ base,
      start.world.row notification.id = some base ∧ retryOrder base.val stored.val

/-- A scan that is full or at its end has claimed the least candidates. -/
theorem Scan.least (scan : Scan config events index now room candidates claimed front start limit)
    (through : room = 0 ∨ candidates = []) (distinct : (claimed.map Notification.id).Nodup) :
    ClaimsLeast config events index now claimed front start limit := by
  obtain ⟨visited, whole, inside, passed⟩ := scan.visited
  obtain ⟨_, began⟩ := scan.began
  have sound := (run_sound began.reached).world
  obtain ⟨earlier, later, split, seen, rest⟩ := List.map_eq_append_iff.mp whole.symm
  have snapshot (row : Notification) (member : row ∈ retryCandidates now start.world.rows) :
      ∃ stored, start.world.row row.id = some stored ∧ stored.val = row ∧
        retryable now stored.val = true := by
    obtain ⟨held, due⟩ := mem_retryCandidates.mp member
    obtain ⟨stored, present, same⟩ := World.row_of_mem sound held
    exact ⟨stored, present, same, same ▸ due⟩
  have base (notification : Notification) (member : notification ∈ claimed) :
      ∃ row ∈ earlier, row.id = notification.id := by
    have held := inside notification member
    rw [← seen] at held
    obtain ⟨row, listed, same⟩ := List.mem_map.mp held
    exact ⟨row, listed, same⟩
  refine ⟨scan.began, scan.place, scan.time, by have := scan.counted; omega, distinct, ?_, ?_⟩
  · intro notification member
    obtain ⟨row, listed, same⟩ := base notification member
    obtain ⟨stored, present, _, due⟩ :=
      snapshot row (by rw [split]; exact List.mem_append_left _ listed)
    exact ⟨stored, same ▸ present, due⟩
  · intro id stored present due unclaimed
    have candidate : stored.val ∈ retryCandidates now start.world.rows :=
      mem_retryCandidates.mpr ⟨World.mem_rows sound present, due⟩
    have named := (sound.keyed id stored present).1
    rw [split] at candidate
    rcases List.mem_append.mp candidate with front' | back'
    · left
      apply passed id _ unclaimed
      rw [← seen, ← named]
      exact List.mem_map_of_mem front'
    · right
      have left' : candidates ≠ [] := by
        rintro rfl
        simp only [List.map_eq_nil_iff] at rest
        simp [rest] at back'
      refine ⟨?_, ?_⟩
      · rcases through with full | ended
        · have counted := scan.counted
          omega
        · exact absurd ended left'
      · intro notification member
        obtain ⟨row, listed, same⟩ := base notification member
        obtain ⟨read, found, value, _⟩ :=
          snapshot row (by rw [split]; exact List.mem_append_left _ listed)
        have sorted := retryCandidates_sorted now start.world.rows
        rw [split] at sorted
        refine ⟨read, same ▸ found, ?_⟩
        rw [value]
        exact (List.pairwise_append.mp sorted).2.2 row listed stored.val back'

/-- The commit of a claim updates the rows it has claimed and nothing else. -/
structure ClaimsOnly (before after : Engine) (now : Time) (claimed : List Notification) : Prop where
  updated : ∀ notification ∈ claimed, ∃ stored next, before.world.row notification.id =
    some stored ∧
    retryable now stored.val = true ∧ after.world.row notification.id = some next ∧
    next.val = notification ∧ notification = claimRetry now stored.val
  others : ∀ id, id ∉ claimed.map Notification.id → after.world.row id = before.world.row id
  attempts : after.world.attempts.committed = before.world.attempts.committed
  records : ∀ key, (after.world.idempotency key).committed =
    (before.world.idempotency key).committed

theorem Moves.claims_only (moves : Moves config engine (.scheduler index .commit) after)
    (sound : Sound config engine)
    (found : engine.schedulers[index]? = some (.claiming now room candidates claimed)) :
    ClaimsOnly engine after now claimed := by
  cases moves with
  | @scheduler _ phase _ world last entry moves =>
    obtain rfl := Option.some.inj (entry.symm.trans found)
    have valid := sound.scheduler entry
    obtain ⟨rows, _, sole⟩ := valid.claiming now room candidates claimed rfl
    cases moves with
    | commit =>
      constructor
      · intro notification member
        obtain ⟨stored, version, present, due, pending, written, same⟩ := rows notification member
        exact ⟨stored, version, present, due, World.commit_row_of_pending pending, same,
          same ▸ written⟩
      · intro id unclaimed
        exact World.commit_row_of_unowned fun owned => unclaimed (sole id owned)
      · simp [World.commit, Heap.commit, valid.attempts]
      · intro key
        exact commit_record (valid.idempotency key)

/-- The claims of a run: one for each retry cycle, none early, each the least rows due
that it could lock, and nothing else changed. -/
structure ExclusiveClaims (config : Config) (events : List Event) : Prop where
  /-- A claim takes the retry its row waits for, once that retry is due. -/
  timely : ∀ front before event after id now,
    Takes (system config) events front before event after →
    Claims before event id now → ∃ cycle due, Awaits config front cycle id due ∧ due ≤ now
  /-- No two claims take the same retry. -/
  exclusive : ∀ cycle id due later one before event after now two start act finish again,
    Takes (system config) events one before event after → Claims before event id now →
    Takes (system config) events two start act finish → Claims start act id again →
    Awaits config one cycle id due → Awaits config two cycle id later → one = two
  least : ∀ front before after index now room candidates claimed,
    Takes (system config) events front before (.scheduler index .commit) after →
    before.schedulers[index]? = some (.claiming now room candidates claimed) →
    ∃ earlier start limit, ClaimsLeast config front index now claimed earlier start limit
  only : ∀ front before after index now room candidates claimed,
    Takes (system config) events front before (.scheduler index .commit) after →
    before.schedulers[index]? = some (.claiming now room candidates claimed) →
    ClaimsOnly before after now claimed
  /-- Until its commit a scheduler changes nothing that others see. -/
  silent : ∀ front before index event after,
    Takes (system config) events front before (.scheduler index event) after → event ≠ .commit →
    (∀ id, after.world.row id = before.world.row id) ∧
      after.world.attempts.committed = before.world.attempts.committed ∧
      ∀ key, (after.world.idempotency key).committed = (before.world.idempotency key).committed

theorem claims_exclusive (config : Config)
    (events : List Event) : ExclusiveClaims config events where
  timely front before event after id now takes claims := by
    obtain ⟨stored, _, present, due, _⟩ :=
      (step_moves takes.taken).claims (run_sound takes.reached) claims
    obtain ⟨_, time, waits, passed⟩ := retryable_iff.mp due
    obtain ⟨cycle, awaits⟩ := run_awaits takes.reached ⟨stored, present, waits⟩
    exact ⟨cycle, time, awaits, passed⟩
  exclusive cycle id due later one before event after now two start act finish again
      first claims second claims' awaits awaits' := by
    obtain ⟨_, _, _, scheduled, _⟩ := awaits.scheduled
    obtain ⟨_, _, _, scheduled', _⟩ := awaits'.scheduled
    rcases Nat.lt_trichotomy one.length two.length with earlier | same | beyond
    · exact absurd claims (awaits'.unclaimed one _ _ _ now
        (first.within second earlier) scheduled.length_lt)
    · exact (first.unique second same).1
    · exact absurd claims' (awaits.unclaimed two _ _ _ again
        (second.within first beyond) scheduled'.length_lt)
  least front before after index now room candidates claimed takes found := by
    obtain ⟨earlier, start, limit, scan⟩ := run_scan takes.reached _ _ _ _ _ found
    obtain ⟨_, distinct, _⟩ := ((run_sound takes.reached).scheduler found).claiming _ _ _ _ rfl
    have moves : Moves config before (.scheduler index .commit) after := step_moves takes.taken
    cases moves with
    | @scheduler _ phase _ world last entry moves =>
      obtain rfl := Option.some.inj (entry.symm.trans found)
      cases moves with
      | commit through => exact ⟨earlier, start, limit, scan.least through distinct⟩
  only front before after index now room candidates claimed takes found := by
    have moves : Moves config before (.scheduler index .commit) after := step_moves takes.taken
    exact moves.claims_only (run_sound takes.reached) found
  silent front before index event after takes uncommitted := by
    have moves : Moves config before (.scheduler index event) after := step_moves takes.taken
    cases moves with
    | scheduler _ moves =>
      rcases moves.effect with ⟨silent, _⟩ | ⟨_, _, _, _, committed, _⟩
        | ⟨_, _, _, _, _, _, _, rfl, _⟩
      · exact ⟨silent.rows, silent.attempts, silent.records⟩
      · exact absurd committed uncommitted
      · exact ⟨fun _ => rfl, rfl, fun _ => rfl⟩

/-- A delivery that fails for now, and the claim of its retry once it is due. -/
def retriesOnce : List Event :=
  deliversOnce .temporaryFailure ++ [.tick 1, .beat 1 100, .scheduler 0 .lockNext,
    .scheduler 0 .commit]

example : (((system sampleConfig).execute Any init retriesOnce).bind
    (fun engine => engine.world.row 7)).map
      (fun stored => (stored.val.state, stored.val.nextRetryAt)) =
    some (.processing, none) := by decide +kernel

end Engine

end Relays
