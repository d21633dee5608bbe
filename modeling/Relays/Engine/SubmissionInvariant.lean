import Relays.Engine.Submission
import Relays.Engine.WorldInvariant

/-! One request among others: the steps it can take, what its open transaction
has written, and the record it leaves for its key. -/

namespace Relays.Submission

open ReadCommitted

/-- The steps of a request, one constructor for each way a statement can end. -/
inductive Moves (config : Config) (index : Nat) (world : World) (request : Request) :
    Event → World → Phase → Prop where
  | insertIdemKeys (current : request.phase = .begun now)
      (done : world.idempotency.insertOnConflict request.arguments.key (.request index)
        (Relays.insertIdemKeys now world.idempotencySequence
          (requestHash config request.arguments)) =
          .returns (table, some record)) :
      Moves config index world request .insertIdemKeys
        { world with idempotency := table, idempotencySequence := world.idempotencySequence + 1 }
        (.recorded now record)
  | conflict (current : request.phase = .begun now)
      (found : world.idempotency.insertOnConflict request.arguments.key (.request index)
        (Relays.insertIdemKeys now world.idempotencySequence
          (requestHash config request.arguments)) =
          .returns (table, none)) :
      Moves config index world request .insertIdemKeys
        { world with idempotencySequence := world.idempotencySequence + 1 } .conflicted
  | createNotification {id : Uuid} (current : request.phase = .recorded now record)
      (fresh : id ∉ world.notificationIds)
      (written : store (newNotification request.arguments now id) = some stored) :
      Moves config index world request (.createNotification id)
        { world with
          notifications := world.notifications.write id (.request index) (some stored)
          notificationIds := world.notificationIds ++ [id] }
        (.created record stored.val)
  | createRejected {id : Uuid} (current : request.phase = .recorded now record)
      (refused : store (newNotification request.arguments now id) = none) :
      Moves config index world request (.createNotification id) (world.rollback (.request index))
        .aborted
  | completeIdempotency (current : request.phase = .created record notification)
      (done : world.idempotency.update request.arguments.key (.request index)
        (fun row => row.id = record.id)
          (fun row => some (Relays.completeIdempotency notification.id row)) =
          .returns (table, updated)) :
      Moves config index world request .completeIdempotency { world with idempotency := table }
        (.completed notification)
  | commitNew (current : request.phase = .completed notification) :
      Moves config index world request .commit (world.commit (.request index))
        (.accepted notification)
  | getIdemKeys (current : request.phase = .conflicted)
      (read : leave world (.request index) (afterLookup (requestHash config request.arguments)
        ((world.idempotency request.arguments.key).view (.request index))) = (next, phase)) :
      Moves config index world request .getIdemKeys next phase
  | getNotification (current : request.phase = .matched notificationId)
      (read : leave world (.request index)
        (afterReload ((world.notifications notificationId).view (.request index))) =
          (next, phase)) :
      Moves config index world request .getNotification next phase
  | commitReplay (current : request.phase = .replayed notification) :
      Moves config index world request .commit (world.commit (.request index))
        (.answered false notification)
  | enqueue (current : request.phase = .accepted notification) :
      Moves config index world request (.enqueue false)
        (world.enqueue notification.id notification.channel) (.enqueued notification)
  | enqueueRaises (current : request.phase = .accepted notification) :
      Moves config index world request (.enqueue true) world (.enqueueRaised notification)
  | markQueued (current : request.phase = .enqueued notification)
      (done : world.updateNotification (.request index) notification.id awaitsQueueing
        (Relays.markQueued world.clock) = .returns (next, updated)) :
      Moves config index world request (.markQueued false) (next.commit (.request index))
        (.answered true notification)
  | markQueuedRaises (current : request.phase = .enqueued notification) :
      Moves config index world request (.markQueued fails) world (.markQueuedRaised notification)
  | abort (running : request.phase.inTransaction = true) :
      Moves config index world request .abort (world.rollback (.request index)) .aborted

variable {config : Config} {index : Nat} {world next after : World} {request : Request}
variable {event : Event} {phase : Phase} {tx : Party} {id : Uuid} {hash : String}
variable {arguments : Arguments} {record : IdempotencyRecord} {notification : Notification}

theorem resolveRecipient_nonempty (request : NotificationRequestBody) :
    0 < (resolveRecipient request).length := by
  unfold resolveRecipient
  split
  · rename_i payload _
    exact Nat.lt_of_lt_of_le (by decide) payload.toValid.2
  · rename_i payload _
    exact Nat.lt_of_lt_of_le (by decide) payload.toValid.2
  · rename_i payload _
    have filled : payload.url.length ≠ 0 := by simpa using payload.urlNonempty
    omega

/-- The `jsonb` columns can hold the payload and the metadata. -/
def Arguments.storable (arguments : Arguments) : Bool :=
  arguments.request.payload.modelDump.storable && (Json.obj arguments.request.metadata).storable

/-- The table accepts the row of a validated request that its columns can hold, and no other. -/
theorem newNotification_checks_iff {arguments : Arguments} {now : Time} {id : Uuid} :
    (newNotification arguments now id).Checks ↔ arguments.storable = true := by
  rw [newNotification, createNotification_checks_iff, Arguments.storable, Bool.and_eq_true]
  constructor
  · intro ⟨_, _, payload, metadata⟩
    exact ⟨payload, metadata⟩
  · intro ⟨payload, metadata⟩
    exact ⟨arguments.request.payload.modelDump_isObject,
      resolveRecipient_nonempty arguments.request, payload, metadata⟩

theorem step_moves (taken : step config index world request event = some (next, phase)) :
    Moves config index world request event next phase := by
  unfold step at taken
  dsimp only at taken
  split at taken
  · rename_i current
    split at taken
    · cases taken
    · cases taken
    · rename_i done
      cases taken
      exact .insertIdemKeys current done
    · rename_i found
      cases taken
      exact .conflict current found
  · rename_i current
    split at taken
    · cases taken
    · rename_i fresh
      split at taken
      · rename_i refused
        cases taken
        exact .createRejected current refused
      · rename_i written
        cases taken
        exact .createNotification current fresh written
  · rename_i current
    split at taken
    · cases taken
    · cases taken
    · rename_i done
      cases taken
      exact .completeIdempotency current done
  · rename_i current
    cases taken
    exact .commitNew current
  · rename_i current
    exact .getIdemKeys current (Option.some.inj taken)
  · rename_i current
    exact .getNotification current (Option.some.inj taken)
  · rename_i current
    cases taken
    exact .commitReplay current
  · rename_i raises current
    cases raises with
    | true =>
      cases taken
      exact .enqueueRaises current
    | false =>
      cases taken
      exact .enqueue current
  · rename_i fails current
    cases fails with
    | true =>
      cases taken
      exact .markQueuedRaises current
    | false =>
      simp only [Bool.false_eq_true, ↓reduceIte] at taken
      split at taken
      · cases taken
      · cases taken
        exact .markQueuedRaises current
      · rename_i done
        cases taken
        exact .markQueued current done
  · split at taken
    · rename_i running
      cases taken
      exact .abort running
    · cases taken
  · cases taken

/-- The transaction has written, and so holds the lock of its key. -/
def Phase.writing : Phase → Bool
  | .recorded _ _ | .created _ _ | .completed _ => true
  | _ => false

/-- The notification the request has committed or has been referred to. -/
def Phase.settled : Phase → Option Notification
  | .replayed notification | .accepted notification | .enqueued notification
  | .enqueueRaised notification | .markQueuedRaised notification | .answered _ notification =>
    some notification
  | _ => none

/-- The time its transaction began, while the notification is not yet created. -/
def Phase.startedAt : Phase → Option Time
  | .begun now | .recorded now _ => some now
  | _ => none

/-- The key is held by the uncommitted record of this request alone. -/
structure Reserves (index : Nat) (world : World) (key : IdempotencyKey)
    (record : IdempotencyRecord) :
    Prop where
  pending : (world.idempotency key).pending = some (.request index, some record)
  sole : ∀ other, world.idempotency.Owns (.request index) other → other = key

/-- The notification this request has inserted and not yet committed. -/
structure Drafts (index : Nat) (world : World) (arguments : Arguments)
    (notification : Notification) :
    Prop where
  made : ∃ now, notification = newNotification arguments now notification.id
  absent : world.row notification.id = none
  pending : ∃ stored, stored.val = notification ∧
    (world.notifications notification.id).pending = some (.request index, some stored)
  sole : ∀ other, world.notifications.Owns (.request index) other → other = notification.id

/-- The committed record of a key, with the request it was made for. -/
def Recorded (world : World) (key : IdempotencyKey) (hash : String) (id : Uuid) : Prop :=
  ∃ record, (world.idempotency key).committed = some record ∧ record.requestHash = hash ∧
    record.notificationId = some id

structure Valid (config : Config) (index : Nat) (world : World) (request : Request) : Prop where
  attempts : world.attempts.own (.request index) = []
  idle : request.phase.writing = false → world.Idle (.request index)
  began : ∀ now, request.phase.startedAt = some now → now ≤ world.clock
  recorded : ∀ now record, request.phase = .recorded now record →
    Reserves index world request.arguments.key record ∧
      record.requestHash = requestHash config request.arguments ∧
      ∀ id, ¬ world.notifications.Owns (.request index) id
  created : ∀ record notification, request.phase = .created record notification →
    Reserves index world request.arguments.key record ∧
      record.requestHash = requestHash config request.arguments ∧
        Drafts index world request.arguments notification
  completed : ∀ notification, request.phase = .completed notification →
    (∃ record, Reserves index world request.arguments.key record ∧ record.status = .completed ∧
      record.requestHash = requestHash config request.arguments ∧
      record.notificationId = some notification.id) ∧
        Drafts index world request.arguments notification
  conflicted : request.phase = .conflicted →
    ∃ record, (world.idempotency request.arguments.key).committed = some record
  matched : ∀ id, request.phase = .matched id →
    Recorded world request.arguments.key (requestHash config request.arguments) id
  settled : ∀ notification, request.phase.settled = some notification →
    Recorded world request.arguments.key (requestHash config request.arguments) notification.id ∧
      ∃ stored, world.row notification.id = some stored ∧
        notification.identity = stored.val.identity
  refused : ∀ error, request.phase = .refused error → error = hashMismatch ∧
    ∃ record, (world.idempotency request.arguments.key).committed = some record ∧
      record.requestHash ≠ requestHash config request.arguments

theorem Recorded.evolves {key : IdempotencyKey} (recorded : Recorded world key hash id)
    (evolves : World.Evolves tx world after) : Recorded after key hash id := by
  obtain ⟨record, found, same, named⟩ := recorded
  exact ⟨record, evolves.records key record found, same, named⟩

theorem Reserves.evolves {key : IdempotencyKey} (reserves : Reserves index world key record)
    (evolves : World.Evolves tx world after) (different : Party.request index ≠ tx) :
    Reserves index after key record where
  pending := by
    rw [evolves.frame.idempotency.kept key _ _ different reserves.pending]
    exact reserves.pending
  sole other owned := reserves.sole other ((evolves.frame.idempotency.owns different).mp owned)

theorem Drafts.evolves (drafts : Drafts index world arguments notification)
    (evolves : World.Evolves tx world after) (different : Party.request index ≠ tx) :
    Drafts index after arguments notification := by
  obtain ⟨stored, same, held⟩ := drafts.pending
  have kept := evolves.frame.notifications.kept _ _ _ different held
  refine ⟨drafts.made, ?_, ⟨stored, same, by rw [kept]; exact held⟩, ?_⟩
  · have committed : after.row notification.id = world.row notification.id :=
      congrArg Cell.committed kept
    rw [committed]
    exact drafts.absent
  · intro other owned
    exact drafts.sole other ((evolves.frame.notifications.owns different).mp owned)

private theorem settled_evolves
    (settled : Recorded world arguments.key hash notification.id ∧
      ∃ stored, world.row notification.id = some stored ∧
        notification.identity = stored.val.identity)
    (evolves : World.Evolves tx world after) :
    Recorded after arguments.key hash notification.id ∧
      ∃ stored, after.row notification.id = some stored ∧
        notification.identity = stored.val.identity := by
  obtain ⟨recorded, stored, found, same⟩ := settled
  obtain ⟨later, present, kept⟩ := evolves.rows _ stored found
  exact ⟨recorded.evolves evolves, later, present, same.trans kept.symm⟩

/-- Steps of other parties leave a request as it is. -/
theorem Valid.stable (valid : Valid config index world request)
    (evolves : World.Evolves tx world after)
    (different : Party.request index ≠ tx) : Valid config index after request where
  attempts := (evolves.frame.attempts _ different).trans valid.attempts
  idle unwritten := (valid.idle unwritten).evolves evolves different
  began now started := Nat.le_trans (valid.began now started) evolves.clock
  recorded now record current := by
    obtain ⟨reserves, same, free⟩ := valid.recorded now record current
    refine ⟨reserves.evolves evolves different, same, ?_⟩
    intro id owned
    exact free id ((evolves.frame.notifications.owns different).mp owned)
  created record notification current := by
    obtain ⟨reserves, same, drafts⟩ := valid.created record notification current
    exact ⟨reserves.evolves evolves different, same, drafts.evolves evolves different⟩
  completed notification current := by
    obtain ⟨⟨record, reserves, facts⟩, drafts⟩ := valid.completed notification current
    exact ⟨⟨record, reserves.evolves evolves different, facts⟩, drafts.evolves evolves different⟩
  conflicted current := by
    obtain ⟨record, found⟩ := valid.conflicted current
    exact ⟨record, evolves.records _ record found⟩
  matched id current := (valid.matched id current).evolves evolves
  settled notification current := settled_evolves (valid.settled notification current) evolves
  refused error current := by
    obtain ⟨same, record, found, other⟩ := valid.refused error current
    exact ⟨same, record, evolves.records _ record found, other⟩

/-- A request outside its writing statements is valid once what it has read still holds. -/
theorem Valid.of_idle (idle : world.Idle (.request index)) (unwritten : phase.writing = false)
    (began : ∀ now, phase.startedAt = some now → now ≤ world.clock)
    (conflicted : phase = .conflicted →
      ∃ record, (world.idempotency arguments.key).committed = some record)
    (matched : ∀ id, phase = .matched id →
      Recorded world arguments.key (requestHash config arguments) id)
    (settled : ∀ notification, phase.settled = some notification →
      Recorded world arguments.key (requestHash config arguments) notification.id ∧
        ∃ stored, world.row notification.id = some stored ∧
          notification.identity = stored.val.identity)
    (refused : ∀ error, phase = .refused error → error = hashMismatch ∧
      ∃ record, (world.idempotency arguments.key).committed = some record ∧
        record.requestHash ≠ requestHash config arguments) :
    Valid config index world ⟨arguments, phase⟩ where
  attempts := idle.attempts
  idle _ := idle
  began := began
  recorded now record current := by
    obtain rfl : phase = _ := current
    cases unwritten
  created record notification current := by
    obtain rfl : phase = _ := current
    cases unwritten
  completed notification current := by
    obtain rfl : phase = _ := current
    cases unwritten
  conflicted := conflicted
  matched := matched
  settled := settled
  refused := refused

/-- A request that stays at its notification, with nothing left to write. -/
theorem Valid.of_settled (idle : world.Idle (.request index))
    (found : phase.settled = some notification)
    (settled : Recorded world arguments.key (requestHash config arguments) notification.id ∧
      ∃ stored, world.row notification.id = some stored ∧
        notification.identity = stored.val.identity) :
    Valid config index world ⟨arguments, phase⟩ := by
  refine .of_idle idle ?_ ?_ ?_ ?_ ?_ ?_
  · cases phase <;> simp [Phase.settled, Phase.writing] at found ⊢
  · intro now started
    cases phase <;> simp [Phase.settled, Phase.startedAt] at found started
  · rintro rfl
    cases found
  · rintro id rfl
    cases found
  · intro other same
    obtain rfl := Option.some.inj (found.symm.trans same)
    exact settled
  · rintro error rfl
    cases found

/-- A request that holds its record, and has not written its notification. -/
theorem Valid.of_recorded (attempts : world.attempts.own (.request index) = [])
    (began : now ≤ world.clock)
    (reserves : Reserves index world arguments.key record)
    (hashed : record.requestHash = requestHash config arguments)
    (free : ∀ id, ¬ world.notifications.Owns (.request index) id) :
    Valid config index world ⟨arguments, .recorded now record⟩ where
  attempts := attempts
  idle unwritten := by cases unwritten
  began started same := by
    cases same
    exact began
  recorded started held same := by
    cases same
    exact ⟨reserves, hashed, free⟩
  created _ _ same := by cases same
  completed _ same := by cases same
  conflicted same := by cases same
  matched _ same := by cases same
  settled _ same := by cases same
  refused _ same := by cases same

/-- A request that holds its record and its notification. -/
theorem Valid.of_created (attempts : world.attempts.own (.request index) = [])
    (reserves : Reserves index world arguments.key record)
    (hashed : record.requestHash = requestHash config arguments)
    (drafts : Drafts index world arguments notification) :
    Valid config index world ⟨arguments, .created record notification⟩ where
  attempts := attempts
  idle unwritten := by cases unwritten
  began _ same := by cases same
  recorded _ _ same := by cases same
  created held drafted same := by
    cases same
    exact ⟨reserves, hashed, drafts⟩
  completed _ same := by cases same
  conflicted same := by cases same
  matched _ same := by cases same
  settled _ same := by cases same
  refused _ same := by cases same

/-- A request whose record names its notification, before the commit. -/
theorem Valid.of_completed (attempts : world.attempts.own (.request index) = [])
    (reserves : Reserves index world arguments.key record) (status : record.status = .completed)
    (hashed : record.requestHash = requestHash config arguments)
    (named : record.notificationId = some notification.id)
    (drafts : Drafts index world arguments notification) :
    Valid config index world ⟨arguments, .completed notification⟩ where
  attempts := attempts
  idle unwritten := by cases unwritten
  began _ same := by cases same
  recorded _ _ same := by cases same
  created _ _ same := by cases same
  completed drafted same := by
    cases same
    exact ⟨⟨record, reserves, status, hashed, named⟩, drafts⟩
  conflicted same := by cases same
  matched _ same := by cases same
  settled _ same := by cases same
  refused _ same := by cases same

/-- What a request with a settled notification holds, and that it writes nothing more. -/
theorem Valid.at_settled (valid : Valid config index world request)
    (found : request.phase.settled = some notification) :
    world.Idle (.request index) ∧
      (Recorded world request.arguments.key (requestHash config request.arguments) notification.id ∧
        ∃ stored, world.row notification.id = some stored ∧
          notification.identity = stored.val.identity) := by
  have unwritten : request.phase.writing = false := by
    cases reached : request.phase <;> simp [reached, Phase.settled, Phase.writing] at found ⊢
  exact ⟨valid.idle unwritten, valid.settled notification found⟩

private theorem valid_of_abort (sound : world.Sound) (arguments : Arguments) :
    (world.rollback (.request index)).Sound ∧
      World.Evolves (.request index) world (world.rollback (.request index)) ∧
      Valid config index (world.rollback (.request index)) ⟨arguments, .aborted⟩ :=
  ⟨sound.rollback _, .rollback world _,
    .of_idle (world.rollback_idle _) rfl (by simp [Phase.startedAt])
    (by simp) (by simp) (by simp [Phase.settled]) (by simp)⟩

/-- An uncommitted record of a free key leaves the tables sound. -/
private theorem sound_of_record {key : IdempotencyKey} (sound : world.Sound)
    (absent : (world.idempotency key).committed = none) (record : IdempotencyRecord)
    (sequence : Nat) :
    World.Sound { world with
      idempotency := world.idempotency.write key (.request index) (some record)
      idempotencySequence := sequence } where
  known := sound.known
  keyed := sound.keyed
  versions := sound.versions
  records other found present := sound.records other found (by simpa using present)
  inserts other owner version held := by
    by_cases same : other = key
    · subst same
      simp only [Table.write_self, Option.some.injEq, Prod.mk.injEq] at held
      exact ⟨by simpa using absent, record, held.2.symm⟩
    · simp only [Table.write_of_ne _ _ same] at held ⊢
      exact sound.inserts other owner version held

private theorem evolves_of_record {key : IdempotencyKey}
    (free : (world.idempotency key).blocked (.request index) = false) (record : IdempotencyRecord)
    (sequence : Nat) :
    World.Evolves (.request index) world { world with
      idempotency := world.idempotency.write key (.request index) (some record)
      idempotencySequence := sequence } where
  frame := ⟨Table.Frame.refl _ _, Heap.Frame.refl _ _, Table.Frame.write free _⟩
  clock := Nat.le_refl _
  rows id stored found := ⟨stored, found, rfl⟩
  records other present found := by simpa using found
  ledger := List.prefix_refl _
  known _ member := member
  published _ member := member

private theorem reserves_of_write {key : IdempotencyKey} (record : IdempotencyRecord)
    (sequence : Nat)
    (sole : ∀ other, world.idempotency.Owns (.request index) other → other = key) :
    Reserves index { world with
      idempotency := world.idempotency.write key (.request index) (some record)
      idempotencySequence := sequence } key record where
  pending := by simp
  sole other owned := by
    by_cases same : other = key
    · exact same
    · obtain ⟨version, held⟩ := owned
      simp only [Table.write_of_ne _ _ same] at held
      exact sole other ⟨version, held⟩

private theorem sound_of_draft {stored : StoredNotification} (sound : world.Sound)
    (unused : id ∉ world.notificationIds) (named : stored.val.id = id)
    (created : stored.val.createdAt ≤ world.clock) :
    World.Sound { world with
      notifications := world.notifications.write id (.request index) (some stored)
      notificationIds := world.notificationIds ++ [id] } := by
  have extended : World.Sound { world with notificationIds := world.notificationIds ++ [id] } :=
    ⟨fun other absent => List.mem_append_left _ (sound.known other absent), sound.keyed,
      sound.versions,
      sound.records, sound.inserts⟩
  refine extended.write (by simp) named created ?_
  intro other found
  have absent := (sound.fresh unused).1
  cases absent.symm.trans found

private theorem evolves_of_draft (sound : world.Sound) (unused : id ∉ world.notificationIds)
    (stored : StoredNotification) :
    World.Evolves (.request index) world { world with
      notifications := world.notifications.write id (.request index) (some stored)
      notificationIds := world.notificationIds ++ [id] } := by
  have free : (world.notifications id).blocked (.request index) = false := by
    simp [Cell.blocked, (sound.fresh unused).2]
  have written : World.Evolves _ world _ := .write free (some stored)
  exact ⟨⟨written.frame.notifications, written.frame.attempts, written.frame.idempotency⟩,
    written.clock,
    written.rows, written.records, written.ledger,
    fun _ member => List.mem_append_left _ member, written.published⟩

private theorem drafts_of_write {stored : StoredNotification} (absent : world.row id = none)
    (named : stored.val.id = id) (made : stored.val = newNotification arguments now id)
    (ids : List Uuid)
    (free : ∀ other, ¬ world.notifications.Owns (.request index) other) :
    Drafts index { world with
      notifications := world.notifications.write id (.request index) (some stored)
      notificationIds := ids } arguments stored.val where
  made := ⟨now, by rw [named]; exact made⟩
  absent := by
    rw [named]
    simpa [World.row] using absent
  pending := ⟨stored, rfl, by simp [named]⟩
  sole other owned := by
    rw [named]
    by_cases same : other = id
    · exact same
    · obtain ⟨version, held⟩ := owned
      simp only [Table.write_of_ne _ _ same] at held
      exact absurd ⟨version, held⟩ (free other)

/-- The lookups after a conflict end at the notification of the record or at the
409; the other two errors are dead branches. -/
theorem afterLookup_cases (sound : world.Sound) {key : IdempotencyKey}
    (found : (world.idempotency key).committed = some record) :
    (record.requestHash ≠ hash ∧ afterLookup hash (some record) = .refused hashMismatch) ∨
      ∃ id, record.requestHash = hash ∧ record.notificationId = some id ∧
        afterLookup hash (some record) = .matched id := by
  obtain ⟨_, id, _, named, _⟩ := sound.records key record found
  by_cases same : record.requestHash = hash
  · exact .inr ⟨id, same, named, by simp [afterLookup, same, named]⟩
  · exact .inl ⟨same, by simp [afterLookup, same]⟩

/-- The step lemma of a request. -/
theorem Moves.valid (moves : Moves config index world request event next phase)
    (sound : world.Sound) (valid : Valid config index world request) :
    next.Sound ∧ World.Evolves (.request index) world next ∧
      Valid config index next ⟨request.arguments, phase⟩ := by
  cases moves with
  | @insertIdemKeys now table record current done =>
    have idle := valid.idle (by simp [current, Phase.writing])
    obtain ⟨free, absent, same, rfl⟩ := Table.insertOnConflict_returns done
    rw [idle.view_record] at absent
    refine ⟨sound_of_record sound absent _ _, evolves_of_record free _ _, ?_⟩
    subst same
    have began := valid.began now (by simp [current, Phase.startedAt])
    refine .of_recorded idle.attempts began (reserves_of_write _ _ ?_) rfl idle.notifications
    intro other owned
    exact absurd owned (idle.idempotency other)
  | conflict current found =>
    have idle := valid.idle (by simp [current, Phase.writing])
    obtain ⟨_, ⟨record, seen⟩, _⟩ := Table.insertOnConflict_returns_none found
    rw [idle.view_record] at seen
    exact ⟨sound.transfer rfl rfl rfl (Nat.le_refl _),
      .transfer rfl rfl rfl rfl (Nat.le_refl _) (fun _ member => member),
      .of_idle (idle.transfer rfl rfl rfl) rfl (by simp [Phase.startedAt]) (fun _ => ⟨record, seen⟩)
        (by simp)
        (by simp [Phase.settled]) (by simp)⟩
  | @createNotification now record stored id current unused written =>
    obtain ⟨reserves, hashed, free⟩ := valid.recorded now record current
    have value := store_eq_some.mp written
    have named : stored.val.id = id := by rw [value]; rfl
    have created : stored.val.createdAt ≤ world.clock := by
      rw [value]
      exact valid.began now (by simp [current, Phase.startedAt])
    exact ⟨sound_of_draft sound unused named created, evolves_of_draft sound unused stored,
      .of_created valid.attempts ⟨reserves.pending, reserves.sole⟩ hashed
        (drafts_of_write (sound.fresh unused).1 named value _ free)⟩
  | @completeIdempotency record notification table updated current done =>
    obtain ⟨reserves, hashed, drafts⟩ := valid.created record notification current
    have absent := (sound.inserts _ _ _ reserves.pending).1
    have seen := Cell.view_of_pending reserves.pending
    cases updated with
    | none =>
      have missed := (Table.update_returns_none done).2 record seen
      simp at missed
    | some final =>
      obtain ⟨read, free, found, _, changed, rfl⟩ := Table.update_returns done
      obtain rfl := Option.some.inj (seen.symm.trans found)
      obtain rfl := Option.some.inj changed
      exact ⟨sound_of_record sound absent _ _, evolves_of_record free _ _,
        .of_completed valid.attempts (reserves_of_write _ _ reserves.sole) rfl hashed rfl
          ⟨drafts.made, drafts.absent, drafts.pending, drafts.sole⟩⟩
  | @commitNew notification current =>
    obtain ⟨⟨record, reserves, completed, hashed, names⟩, drafts⟩ :=
      valid.completed notification current
    obtain ⟨stored, same, held⟩ := drafts.pending
    have committed : (world.commit (.request index)).row notification.id = some stored :=
      World.commit_row_of_pending held
    have published : (world.commit (.request index)).idempotency request.arguments.key =
        ⟨some record, none⟩ :=
      Table.commit_of_pending reserves.pending
    refine ⟨sound.commit _ ?_, .commit sound _, .of_settled (world.commit_idle _) rfl ⟨?_, ?_⟩⟩
    · intro key other own
      obtain rfl := reserves.sole key ⟨_, own⟩
      rw [reserves.pending] at own
      cases own
      exact ⟨completed, _, stored, names, committed⟩
    · exact ⟨record, by rw [published], hashed, names⟩
    · exact ⟨stored, committed, by rw [same]⟩
  | getIdemKeys current read =>
    have idle := valid.idle (by simp [current, Phase.writing])
    obtain ⟨record, found⟩ := valid.conflicted current
    rw [idle.view_record, found] at read
    rcases afterLookup_cases sound found with ⟨other, refused⟩ | ⟨id, same, named, matched⟩
    · rw [refused] at read
      cases read
      have kept : ((world.rollback (.request index)).idempotency request.arguments.key).committed =
          some record :=
        (Table.rollback_committed _).trans found
      refine ⟨sound.rollback _, .rollback world _, .of_idle (world.rollback_idle _) rfl
        (by simp [Phase.startedAt]) (by simp) (by simp) (by simp [Phase.settled]) ?_⟩
      intro error refusal
      cases refusal
      exact ⟨rfl, record, kept, other⟩
    · rw [matched] at read
      cases read
      refine ⟨sound, .refl _ _, .of_idle idle rfl (by simp [Phase.startedAt]) (by simp) ?_
        (by simp [Phase.settled]) (by simp)⟩
      intro other referred
      cases referred
      exact ⟨record, found, same, named⟩
  | @getNotification notificationId _ _ current read =>
    have idle := valid.idle (by simp [current, Phase.writing])
    have recorded := valid.matched notificationId current
    obtain ⟨record, found, _, named⟩ := id recorded
    obtain ⟨_, other, stored, noted, present⟩ := sound.records _ record found
    obtain rfl : other = notificationId := Option.some.inj (noted.symm.trans named)
    rw [World.view_of_idle idle.notifications, present] at read
    cases read
    have keyed := (sound.keyed other stored present).1
    exact ⟨sound, .refl _ _, .of_settled idle rfl
      ⟨by rw [keyed]; exact recorded, stored, by rw [keyed]; exact present, rfl⟩⟩
  | @commitReplay notification current =>
    obtain ⟨idle, settled⟩ :=
      valid.at_settled (show _ = some notification by simp [current, Phase.settled])
    have evolves := World.Evolves.commit sound (.request index)
    exact ⟨sound.commit_of_idle idle.idempotency, evolves,
      .of_settled (world.commit_idle _) rfl (settled_evolves settled evolves)⟩
  | @enqueue notification current =>
    obtain ⟨idle, settled⟩ :=
      valid.at_settled (show _ = some notification by simp [current, Phase.settled])
    exact ⟨sound.transfer rfl rfl rfl (Nat.le_refl _),
      .transfer rfl rfl rfl rfl (Nat.le_refl _) (fun _ member => List.mem_append_left _ member),
      .of_settled (idle.transfer rfl rfl rfl) rfl settled⟩
  | @enqueueRaises notification current =>
    obtain ⟨idle, settled⟩ :=
      valid.at_settled (show _ = some notification by simp [current, Phase.settled])
    exact ⟨sound, .refl _ _, .of_settled idle rfl settled⟩
  | @markQueued notification updatedWorld updated current done =>
    obtain ⟨idle, settled⟩ :=
      valid.at_settled (show _ = some notification by simp [current, Phase.settled])
    have written : updatedWorld.Sound ∧ World.Evolves (.request index) world updatedWorld ∧
        ∀ key, ¬ updatedWorld.idempotency.Owns (.request index) key := by
      cases updated with
      | none =>
        obtain ⟨rfl, _⟩ := World.updateNotification_returns_none done
        exact ⟨sound, .refl _ _, idle.idempotency⟩
      | some stored =>
        obtain ⟨nextSound, evolves⟩ := sound.updateNotification (fun _ => markQueued_identity) done
        obtain ⟨_, _, _, _, _, rfl⟩ := World.updateNotification_returns done
        exact ⟨nextSound, evolves, idle.idempotency⟩
    obtain ⟨nextSound, evolves, free⟩ := written
    have committed := evolves.trans (.commit nextSound (.request index))
    exact ⟨nextSound.commit_of_idle free, committed,
      .of_settled (updatedWorld.commit_idle _) rfl (settled_evolves settled committed)⟩
  | @markQueuedRaises notification _ current =>
    obtain ⟨idle, settled⟩ :=
      valid.at_settled (show _ = some notification by simp [current, Phase.settled])
    exact ⟨sound, .refl _ _, .of_settled idle rfl settled⟩
  | createRejected current refused => exact valid_of_abort sound _
  | abort running => exact valid_of_abort sound _

end Relays.Submission
