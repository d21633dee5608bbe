import Relays.Engine.World

/-! What every statement keeps true of the shared tables, and what it lets the
other transactions rely on. -/

namespace Relays

open ReadCommitted

/-- The columns no query of the repository ever updates. -/
structure NotificationIdentity where
  id : Uuid
  workspaceId : Uuid
  apiKeyId : Uuid
  channel : NotificationChannel
  provider : EmailNotificationProviders
  recipient : String
  payload : Json Text
  metadata : Json Text
  maxAttempts : Nat
  createdAt : Time

def Notification.identity (row : Notification) : NotificationIdentity where
  id := row.id
  workspaceId := row.workspaceId
  apiKeyId := row.apiKeyId
  channel := row.channel
  provider := row.provider
  recipient := row.recipient
  payload := row.payload
  metadata := row.metadata
  maxAttempts := row.maxAttempts
  createdAt := row.createdAt

section Identity

variable {row other : Notification} {now next : Time} {error : Text}

@[simp] theorem markQueued_identity : (markQueued now row).identity = row.identity := rfl

@[simp] theorem markSent_identity : (markSent now row).identity = row.identity := rfl

@[simp] theorem markFailed_identity : (markFailed now error row).identity = row.identity := rfl

@[simp] theorem incrementAttemptCount_identity :
    (incrementAttemptCount now row).identity = row.identity := rfl

@[simp] theorem scheduleRetry_identity : (scheduleRetry now next row).identity = row.identity := rfl

@[simp] theorem claimRetry_identity : (claimRetry now row).identity = row.identity := rfl

theorem Notification.id_eq (same : row.identity = other.identity) : row.id = other.id :=
  congrArg NotificationIdentity.id same

theorem Notification.maxAttempts_eq (same : row.identity = other.identity) :
    row.maxAttempts = other.maxAttempts :=
  congrArg NotificationIdentity.maxAttempts same

theorem Notification.createdAt_eq (same : row.identity = other.identity) :
    row.createdAt = other.createdAt :=
  congrArg NotificationIdentity.createdAt same

theorem Notification.channel_eq (same : row.identity = other.identity) :
    row.channel = other.channel :=
  congrArg NotificationIdentity.channel same

theorem Notification.payload_eq (same : row.identity = other.identity) :
    row.payload = other.payload :=
  congrArg NotificationIdentity.payload same

end Identity

namespace World

/-- The primary key of `notifications`. -/
def Keyed (world : World) : Prop := ∀ id stored, world.row id = some stored → stored.val.id = id

structure Sound (world : World) : Prop where
  known : ∀ id, ¬ (world.row id = none ∧ (world.notifications id).pending = none) →
    id ∈ world.notificationIds
  keyed : ∀ id stored, world.row id = some stored →
    stored.val.id = id ∧ stored.val.createdAt ≤ world.clock
  versions : ∀ id owner version, (world.notifications id).pending = some (owner, version) →
    ∃ next, version = some next ∧ next.val.id = id ∧ next.val.createdAt ≤ world.clock ∧
      ∀ stored, world.row id = some stored → next.val.identity = stored.val.identity
  records : ∀ key record, (world.idempotency key).committed = some record →
    record.status = .completed ∧ ∃ id stored, record.notificationId = some id ∧
      world.row id = some stored
  inserts : ∀ key owner version, (world.idempotency key).pending = some (owner, version) →
    (world.idempotency key).committed = none ∧ ∃ record, version = some record

/-- One party's step, as every other party may rely on it. -/
structure Evolves (tx : Party) (before after : World) : Prop where
  frame : Frame tx before after
  clock : before.clock ≤ after.clock
  rows : ∀ id stored, before.row id = some stored →
    ∃ next, after.row id = some next ∧ next.val.identity = stored.val.identity
  records : ∀ key record, (before.idempotency key).committed = some record →
    (after.idempotency key).committed = some record
  ledger : before.attempts.committed <+: after.attempts.committed
  known : ∀ id, id ∈ before.notificationIds → id ∈ after.notificationIds
  published : ∀ id, id ∈ before.published → id ∈ after.published

/-- What is committed stays: rows keep their identity, records, attempts and
published messages are never taken back. -/
structure Extends (before after : World) : Prop where
  rows : ∀ id stored, before.row id = some stored →
    ∃ next, after.row id = some next ∧ next.val.identity = stored.val.identity
  records : ∀ key record, (before.idempotency key).committed = some record →
    (after.idempotency key).committed = some record
  ledger : before.attempts.committed <+: after.attempts.committed
  published : ∀ id, id ∈ before.published → id ∈ after.published

/-- No uncommitted version of any table belongs to this party. -/
structure Idle (world : World) (tx : Party) : Prop where
  notifications : ∀ id, ¬ world.notifications.Owns tx id
  attempts : world.attempts.own tx = []
  idempotency : ∀ key, ¬ world.idempotency.Owns tx key

/-- The one row locked by this party, with its committed and its uncommitted version. -/
structure Holds (world : World) (tx : Party) (id : Uuid)
    (stored version : StoredNotification) : Prop where
  row : world.row id = some stored
  pending : (world.notifications id).pending = some (tx, some version)
  sole : ∀ other, world.notifications.Owns tx other → other = id

variable {world before after : World} {tx other : Party} {id : Uuid}
variable {stored version next : StoredNotification} {matching : Notification → Bool}
variable {change : Notification → Notification}

theorem Frame.refl (tx : Party) (world : World) : Frame tx world world where
  notifications := Table.Frame.refl tx _
  attempts := Heap.Frame.refl tx _
  idempotency := Table.Frame.refl tx _

theorem Evolves.refl (tx : Party) (world : World) : Evolves tx world world where
  frame := Frame.refl tx world
  clock := Nat.le_refl _
  rows _ stored found := ⟨stored, found, rfl⟩
  records _ _ found := found
  ledger := List.prefix_refl _
  known _ member := member
  published _ member := member

/-- Logs, queues and the clock are no part of the tables. -/
theorem Sound.transfer (sound : world.Sound)
    (notifications : after.notifications = world.notifications)
    (ids : after.notificationIds = world.notificationIds)
    (idempotency : after.idempotency = world.idempotency)
    (clock : world.clock ≤ after.clock) : after.Sound := by
  have rows (id : Uuid) : after.row id = world.row id := by simp only [row, notifications]
  constructor
  · simp only [rows, notifications, ids]
    exact sound.known
  · intro id stored found
    obtain ⟨named, created⟩ := sound.keyed id stored (by rw [← rows]; exact found)
    exact ⟨named, Nat.le_trans created clock⟩
  · intro id owner version held
    rw [notifications] at held
    obtain ⟨next, written, named, created, same⟩ := sound.versions id owner version held
    exact ⟨next, written, named, Nat.le_trans created clock, by simpa only [rows] using same⟩
  · simp only [rows, idempotency]
    exact sound.records
  · simp only [idempotency]
    exact sound.inserts

theorem Evolves.transfer (notifications : after.notifications = world.notifications)
    (ids : after.notificationIds = world.notificationIds)
    (attempts : after.attempts = world.attempts)
    (idempotency : after.idempotency = world.idempotency) (clock : world.clock ≤ after.clock)
    (published : ∀ id, id ∈ world.published → id ∈ after.published) : Evolves tx world after where
  frame := by
    refine ⟨?_, ?_, ?_⟩
    · rw [notifications]; exact Table.Frame.refl tx _
    · rw [attempts]; exact Heap.Frame.refl tx _
    · rw [idempotency]; exact Table.Frame.refl tx _
  clock := clock
  rows id stored found := ⟨stored, by simpa only [row, notifications] using found, rfl⟩
  records key record found := by rw [idempotency]; exact found
  ledger := attempts ▸ List.prefix_refl _
  known id member := by rw [ids]; exact member
  published := published

theorem Evolves.trans {middle : World} (first : Evolves tx world middle)
    (second : Evolves tx middle after) :
    Evolves tx world after where
  frame := ⟨first.frame.notifications.trans second.frame.notifications,
    fun other different =>
      (second.frame.attempts other different).trans (first.frame.attempts other different),
    first.frame.idempotency.trans second.frame.idempotency⟩
  clock := Nat.le_trans first.clock second.clock
  rows id stored found := by
    obtain ⟨middle, reached, same⟩ := first.rows id stored found
    obtain ⟨last, present, kept⟩ := second.rows id middle reached
    exact ⟨last, present, kept.trans same⟩
  records key record found := second.records key record (first.records key record found)
  ledger := first.ledger.trans second.ledger
  known id member := second.known id (first.known id member)
  published id member := second.published id (first.published id member)

theorem Sound.primary (sound : world.Sound) : world.Keyed :=
  fun id stored found => (sound.keyed id stored found).1

/-- `gen_random_uuid()` names a row that nobody has seen. -/
theorem Sound.fresh (sound : world.Sound) (unused : id ∉ world.notificationIds) :
    world.row id = none ∧ (world.notifications id).pending = none := by
  by_contra seen
  exact unused (sound.known id seen)

theorem Evolves.extends (evolves : Evolves tx world after) : world.Extends after :=
  ⟨evolves.rows, evolves.records, evolves.ledger, evolves.published⟩

theorem Extends.refl (world : World) : world.Extends world :=
    (Evolves.refl (.worker 0) world).extends

theorem Extends.trans {middle : World} (first : world.Extends middle)
    (second : middle.Extends after) :
    world.Extends after where
  rows id stored found := by
    obtain ⟨middle, reached, same⟩ := first.rows id stored found
    obtain ⟨last, present, kept⟩ := second.rows id middle reached
    exact ⟨last, present, kept.trans same⟩
  records key record found := second.records key record (first.records key record found)
  ledger := first.ledger.trans second.ledger
  published id member := second.published id (first.published id member)

theorem Idle.transfer (idle : world.Idle tx)
    (notifications : after.notifications = world.notifications)
    (attempts : after.attempts = world.attempts)
    (idempotency : after.idempotency = world.idempotency) :
    after.Idle tx where
  notifications := by rw [notifications]; exact idle.notifications
  attempts := by rw [attempts]; exact idle.attempts
  idempotency := by rw [idempotency]; exact idle.idempotency

theorem Idle.evolves (idle : world.Idle other) (evolves : Evolves tx world after)
    (different : other ≠ tx) : after.Idle other where
  notifications id owned :=
    idle.notifications id ((evolves.frame.notifications.owns different).mp owned)
  attempts := (evolves.frame.attempts other different).trans idle.attempts
  idempotency key owned :=
    idle.idempotency key ((evolves.frame.idempotency.owns different).mp owned)

/-- A locked row keeps both its versions while other parties take steps. -/
theorem Holds.evolves (holds : world.Holds other id stored version)
    (evolves : Evolves tx world after)
    (different : other ≠ tx) : after.Holds other id stored version := by
  have kept := evolves.frame.notifications.kept id other _ different holds.pending
  refine ⟨?_, by rw [kept]; exact holds.pending, ?_⟩
  · have same : after.row id = world.row id := congrArg Cell.committed kept
    rw [same]
    exact holds.row
  · intro row owned
    exact holds.sole row ((evolves.frame.notifications.owns different).mp owned)

theorem enqueue_queues (world : World) (id : Uuid) (channel : NotificationChannel) :
    id ∈ (world.enqueue id channel).queues channel := by
  simp [enqueue]

theorem enqueue_keeps {other : Uuid} {channel listed : NotificationChannel}
    (member : other ∈ world.queues listed) : other ∈ (world.enqueue id channel).queues listed := by
  by_cases same : listed = channel
  · subst same
    simp [enqueue, member]
  · simpa [enqueue, Function.update_of_ne same] using member

theorem rollback_row (world : World) (tx : Party) (id : Uuid) :
    (world.rollback tx).row id = world.row id :=
  Table.rollback_committed _

theorem rollback_idle (world : World) (tx : Party) : (world.rollback tx).Idle tx where
  notifications _ := Table.rollback_unowned _
  attempts := by simp [rollback, Heap.own_rollback]
  idempotency _ := Table.rollback_unowned _

theorem commit_idle (world : World) (tx : Party) : (world.commit tx).Idle tx where
  notifications _ := Table.commit_unowned _
  attempts := by simp [commit, Heap.own_commit]
  idempotency _ := Table.commit_unowned _

theorem Evolves.rollback (world : World) (tx : Party) : Evolves tx world (world.rollback tx) where
  frame := ⟨Table.Frame.rollback _, Heap.Frame.rollback _, Table.Frame.rollback _⟩
  clock := Nat.le_refl _
  rows id stored found := ⟨stored, by rw [rollback_row]; exact found, rfl⟩
  records key record found := by
    have same : ((world.rollback tx).idempotency key).committed =
        (world.idempotency key).committed :=
      Table.rollback_committed _
    exact same.trans found
  ledger := List.prefix_refl _
  known _ member := member
  published _ member := member

theorem Sound.rollback (sound : world.Sound) (tx : Party) : (world.rollback tx).Sound where
  known id absent := by
    apply sound.known id
    intro ⟨missing, free⟩
    refine absent ⟨by rw [rollback_row]; exact missing, ?_⟩
    simp [World.rollback, Table.rollback, Cell.rollback, free]
  keyed id stored found := sound.keyed id stored (by rwa [rollback_row] at found)
  versions id owner version held := by
    obtain ⟨next, written, named, created, same⟩ :=
      sound.versions id owner version (Table.pending_of_rollback held)
    refine ⟨next, written, named, created, ?_⟩
    intro stored found
    exact same stored (by rwa [rollback_row] at found)
  records key record found := by
    have kept : ((world.rollback tx).idempotency key).committed =
        (world.idempotency key).committed :=
      Table.rollback_committed _
    obtain ⟨completed, id, stored, named, present⟩ :=
      sound.records key record (kept.symm.trans found)
    exact ⟨completed, id, stored, named, by rw [rollback_row]; exact present⟩
  inserts key owner version held := by
    obtain ⟨absent, record⟩ := sound.inserts key owner version (Table.pending_of_rollback held)
    have kept : ((world.rollback tx).idempotency key).committed =
        (world.idempotency key).committed :=
      Table.rollback_committed _
    exact ⟨kept.trans absent, record⟩

/-- The committed version of a row after a commit of `tx`. -/
theorem commit_row_of_pending (held : (world.notifications id).pending = some (tx, some version)) :
    (world.commit tx).row id = some version :=
  congrArg Cell.committed (Table.commit_of_pending held)

theorem commit_row_of_unowned (free : ¬ world.notifications.Owns tx id) :
    (world.commit tx).row id = world.row id :=
  congrArg Cell.committed (Table.commit_of_unowned fun version held => free ⟨version, held⟩)

theorem commit_row_cases (sound : world.Sound) (tx : Party) (id : Uuid) :
    (world.commit tx).row id = world.row id ∨
      ∃ version, (world.notifications id).pending = some (tx, some version) ∧
        (world.commit tx).row id = some version := by
  by_cases owned : world.notifications.Owns tx id
  · obtain ⟨version, held⟩ := owned
    obtain ⟨next, rfl, _⟩ := sound.versions id tx version held
    exact .inr ⟨next, held, commit_row_of_pending held⟩
  · exact .inl (commit_row_of_unowned owned)

private theorem commit_rows (sound : world.Sound) (tx : Party)
    (found : world.row id = some stored) :
    ∃ next, (world.commit tx).row id = some next ∧ next.val.identity = stored.val.identity := by
  rcases commit_row_cases sound tx id with kept | ⟨version, held, written⟩
  · exact ⟨stored, kept.trans found, rfl⟩
  · obtain ⟨next, same, _, _, identity⟩ := sound.versions id tx _ held
    obtain rfl := Option.some.inj same
    exact ⟨version, written, identity stored found⟩

/-- A committed idempotency record is never overwritten: uncommitted records are inserts. -/
private theorem commit_records (sound : world.Sound) {key : IdempotencyKey}
    {record : IdempotencyRecord}
    (found : (world.idempotency key).committed = some record) :
    world.idempotency.commit tx key = world.idempotency key := by
  apply Table.commit_of_unowned
  intro version held
  have absent := (sound.inserts key tx version held).1
  simp [absent] at found

theorem Evolves.commit (sound : world.Sound) (tx : Party) : Evolves tx world (world.commit tx) where
  frame := ⟨Table.Frame.commit _, Heap.Frame.commit _, Table.Frame.commit _⟩
  clock := Nat.le_refl _
  rows _ _ found := commit_rows sound tx found
  records _ _ found := (congrArg Cell.committed (commit_records sound found)).trans found
  ledger := List.prefix_append _ _
  known _ member := member
  published _ member := member

/-- A commit keeps the tables sound when the records it publishes are completed
and name a notification that is there once the commit is done. -/
theorem Sound.commit (sound : world.Sound) (tx : Party)
    (completes : ∀ key record, (world.idempotency key).pending = some (tx, some record) →
      record.status = .completed ∧ ∃ id stored, record.notificationId = some id ∧
        (world.commit tx).row id = some stored) : (world.commit tx).Sound where
  known id absent := by
    apply sound.known id
    intro ⟨missing, free⟩
    refine absent ⟨?_, ?_⟩
    · rcases commit_row_cases sound tx id with kept | ⟨version, held, _⟩
      · exact kept.trans missing
      · simp [free] at held
    · simp [World.commit, Table.commit, Cell.commit, free]
  keyed id stored found := by
    rcases commit_row_cases sound tx id with kept | ⟨version, held, written⟩
    · exact sound.keyed id stored (kept.symm.trans found)
    · obtain ⟨next, same, named, created, _⟩ := sound.versions id tx _ held
      obtain rfl := Option.some.inj same
      obtain rfl := Option.some.inj (written.symm.trans found)
      exact ⟨named, created⟩
  versions id owner version held := by
    obtain ⟨earlier, kept⟩ := Table.pending_of_commit held
    obtain ⟨next, written, named, created, same⟩ := sound.versions id owner version earlier
    refine ⟨next, written, named, created, ?_⟩
    intro stored found
    exact same stored ((congrArg Cell.committed kept).symm.trans found)
  records key record found := by
    by_cases owned : world.idempotency.Owns tx key
    · obtain ⟨version, held⟩ := owned
      obtain ⟨_, inserted, rfl⟩ := sound.inserts key tx version held
      have published : (world.commit tx).idempotency key = ⟨some inserted, none⟩ :=
        Table.commit_of_pending held
      rw [published] at found
      obtain rfl := Option.some.inj found
      exact completes key inserted held
    · have kept : (world.commit tx).idempotency key = world.idempotency key :=
        Table.commit_of_unowned fun version held => owned ⟨version, held⟩
      rw [kept] at found
      obtain ⟨completed, id, stored, named, present⟩ := sound.records key record found
      obtain ⟨next, later, _⟩ := commit_rows sound tx present
      exact ⟨completed, id, next, named, later⟩
  inserts key owner version held := by
    obtain ⟨earlier, kept⟩ := Table.pending_of_commit held
    obtain ⟨absent, record⟩ := sound.inserts key owner version earlier
    exact ⟨(congrArg Cell.committed kept).trans absent, record⟩

theorem Sound.commit_of_idle (sound : world.Sound) (free : ∀ key, ¬ world.idempotency.Owns tx key) :
    (world.commit tx).Sound :=
  sound.commit tx fun key _ held => absurd ⟨_, held⟩ (free key)

/-- What an update that found its row did: it read the transaction's own version
or the committed one, and left its result as the transaction's version. -/
theorem updateNotification_returns
    (done : world.updateNotification tx id matching change = .returns (after, some next)) :
    ∃ read, (world.notifications id).blocked tx = false ∧
      (world.notifications id).view tx = some read ∧
      matching read.val = true ∧ next.val = change read.val ∧
      after = { world with notifications := world.notifications.write id tx (some next) } := by
  unfold updateNotification at done
  split at done
  · cases done
  · cases done
  · rename_i table updated returned
    simp only [Statement.returns.injEq, Prod.mk.injEq] at done
    obtain ⟨same, rfl⟩ := done
    obtain ⟨read, free, seen, matched, written, rfl⟩ := Table.update_returns returned
    exact ⟨read, free, seen, matched, store_eq_some.mp written, same.symm⟩

theorem updateNotification_returns_none
    (done : world.updateNotification tx id matching change = .returns (after, none)) :
    after = world ∧ ∀ read, (world.notifications id).view tx = some read →
      matching read.val = false := by
  unfold updateNotification at done
  split at done
  · cases done
  · cases done
  · rename_i table updated returned
    simp only [Statement.returns.injEq, Prod.mk.injEq] at done
    obtain ⟨same, rfl⟩ := done
    obtain ⟨rfl, unmatched⟩ := Table.update_returns_none returned
    exact ⟨same.symm, unmatched⟩

theorem updateNotification_idempotency {updated : Option StoredNotification}
    (done : world.updateNotification tx id matching change = .returns (after, updated)) :
    after.idempotency = world.idempotency := by
  cases updated with
  | none => rw [(updateNotification_returns_none done).1]
  | some stored =>
    obtain ⟨_, _, _, _, _, rfl⟩ := updateNotification_returns done
    rfl

theorem updateNotification_waits
    (locked : world.updateNotification tx id matching change = .waits) :
    (world.notifications id).blocked tx = true := by
  unfold updateNotification at locked
  split at locked
  · rename_i waits
    exact Table.update_waits waits
  · cases locked
  · cases locked

theorem updateNotification_violates
    (failed : world.updateNotification tx id matching change = .violates) :
    ∃ read, (world.notifications id).view tx = some read ∧ matching read.val = true ∧
      ¬ (change read.val).Checks := by
  unfold updateNotification at failed
  split at failed
  · cases failed
  · rename_i violated
    obtain ⟨read, _, seen, matched, rejected⟩ := Table.update_violates violated
    exact ⟨read, seen, matched, store_eq_none.mp rejected⟩
  · cases failed

theorem Evolves.write (free : (world.notifications id).blocked tx = false)
    (version : Option StoredNotification) :
    Evolves tx world { world with notifications := world.notifications.write id tx version } where
  frame := ⟨Table.Frame.write free version, Heap.Frame.refl tx _, Table.Frame.refl tx _⟩
  clock := Nat.le_refl _
  rows other stored found := ⟨stored, by simpa [row] using found, rfl⟩
  records _ _ found := found
  ledger := List.prefix_refl _
  known _ member := member
  published _ member := member

theorem Sound.write (sound : world.Sound) (member : id ∈ world.notificationIds)
    (named : next.val.id = id) (created : next.val.createdAt ≤ world.clock)
    (identity : ∀ stored, world.row id = some stored → next.val.identity = stored.val.identity) :
    Sound { world with notifications := world.notifications.write id tx (some next) } where
  known other absent := by
    by_cases same : other = id
    · exact same ▸ member
    · apply sound.known other
      simpa [row, Table.write_of_ne _ _ same] using absent
  keyed other stored found := sound.keyed other stored (by simpa [row] using found)
  versions other owner version held := by
    by_cases same : other = id
    · subst same
      simp only [Table.write_self, Option.some.injEq, Prod.mk.injEq] at held
      obtain ⟨_, rfl⟩ := held
      refine ⟨next, rfl, named, created, ?_⟩
      intro stored found
      exact identity stored (by simpa [row] using found)
    · have earlier : (world.notifications other).pending = some (owner, version) := by
        simpa [Table.write_of_ne _ _ same] using held
      obtain ⟨next, written, named, created, kept⟩ := sound.versions other owner version earlier
      refine ⟨next, written, named, created, ?_⟩
      intro stored found
      exact kept stored (by simpa [row] using found)
  records key record found := by
    obtain ⟨completed, other, stored, noted, present⟩ := sound.records key record found
    exact ⟨completed, other, stored, noted, by simpa [row] using present⟩
  inserts := sound.inserts

/-- The version a transaction reads has the identity of the committed row. -/
theorem Sound.view (sound : world.Sound) (seen : (world.notifications id).view tx = some next) :
    id ∈ world.notificationIds ∧ next.val.id = id ∧ next.val.createdAt ≤ world.clock ∧
      ∀ stored, world.row id = some stored → next.val.identity = stored.val.identity := by
  by_cases owned : world.notifications.Owns tx id
  · obtain ⟨version, held⟩ := owned
    rw [Cell.view_of_pending held] at seen
    subst seen
    obtain ⟨same, written, named, created, identity⟩ := sound.versions id tx _ held
    obtain rfl := Option.some.inj written
    refine ⟨sound.known id ?_, named, created, identity⟩
    intro ⟨_, free⟩
    simp [free] at held
  · have unowned : ∀ version, (world.notifications id).pending ≠ some (tx, version) :=
      fun version held => owned ⟨version, held⟩
    rw [Cell.view_of_unowned unowned] at seen
    obtain ⟨named, created⟩ := sound.keyed id next seen
    refine ⟨sound.known id ?_, named, created, ?_⟩
    · intro ⟨missing, _⟩
      simp [row, seen] at missing
    · intro stored found
      obtain rfl := Option.some.inj (found.symm.trans seen)
      rfl

theorem Sound.updateNotification (sound : world.Sound)
    (keeps : ∀ row, (change row).identity = row.identity)
    (done : world.updateNotification tx id matching change = .returns (after, some next)) :
    after.Sound ∧ Evolves tx world after := by
  obtain ⟨read, free, seen, _, written, rfl⟩ := updateNotification_returns done
  obtain ⟨member, named, created, identity⟩ := sound.view seen
  have same : next.val.identity = read.val.identity := by rw [written, keeps]
  refine ⟨sound.write member ((Notification.id_eq same).trans named) ?_ ?_, .write free _⟩
  · rw [Notification.createdAt_eq same]
    exact created
  · intro stored found
    exact same.trans (identity stored found)

theorem Idle.view_record (idle : Idle world tx) (key : IdempotencyKey) :
    (world.idempotency key).view tx = (world.idempotency key).committed :=
  Cell.view_of_unowned fun version held => idle.idempotency key ⟨version, held⟩

theorem view_of_idle (idle : ∀ other, ¬ world.notifications.Owns tx other) :
    (world.notifications id).view tx = world.row id :=
  Cell.view_of_unowned fun version held => idle id ⟨version, held⟩

/-- Writing a row makes it the one row the transaction holds, if it held no other. -/
theorem Holds.of_write (next : StoredNotification) (found : world.row id = some stored)
    (sole : ∀ other, world.notifications.Owns tx other → other = id) :
    Holds { world with notifications := world.notifications.write id tx (some next) } tx id stored
      next where
  row := by simpa [World.row] using found
  pending := by simp
  sole other owned := by
    by_cases same : other = id
    · exact same
    · obtain ⟨version, held⟩ := owned
      have earlier : (world.notifications other).pending = some (tx, version) := by
        simpa [Table.write_of_ne _ _ same] using held
      exact sole other ⟨version, earlier⟩

theorem insertAttempt_storable {attempt : DeliveryAttempt}
    (done : world.insertAttempt tx attempt = .returns after) : attempt.storable = true := by
  unfold insertAttempt at done
  split at done
  · cases done
  · rename_i storable
    exact Bool.not_eq_false _ ▸ storable

theorem insertAttempt_returns {attempt : DeliveryAttempt}
    (done : world.insertAttempt tx attempt = .returns after) :
    after = { world with attempts.pending := world.attempts.pending ++ [(tx, attempt)] } ∧
      Evolves tx world after := by
  rw [insertAttempt, if_neg (by simp [insertAttempt_storable done])] at done
  split at done
  · cases done
  · split at done
    · cases done
    · cases done
    · rename_i heap inserted
      have framed := Heap.Frame.insert inserted
      obtain ⟨_, rfl⟩ := Heap.insert_returns inserted
      cases done
      exact ⟨rfl, ⟨Table.Frame.refl tx _, framed, Table.Frame.refl tx _⟩, Nat.le_refl _,
        fun _ stored found => ⟨stored, found, rfl⟩, fun _ _ found => found, List.prefix_refl _,
        fun _ member => member, fun _ member => member⟩

/-- An attempt is refused for its values, for its number, or for a committed attempt with the same
number. -/
theorem insertAttempt_violates {attempt : DeliveryAttempt} (idle : world.attempts.own tx = [])
    (failed : world.insertAttempt tx attempt = .violates) :
    attempt.storable = false ∨ attempt.attemptNumber < 1 ∨ ∃ other ∈ world.attempts.committed,
      other.notificationId = attempt.notificationId ∧
        other.attemptNumber = attempt.attemptNumber := by
  unfold insertAttempt at failed
  split at failed
  · rename_i unstorable
    exact .inl unstorable
  · split at failed
    · rename_i low
      exact .inr (.inl low)
    · split at failed
      · cases failed
      · rename_i conflict
        unfold Heap.insert at conflict
        split at conflict
        · rename_i found
          simp only [idle, List.any_nil, Bool.or_false, List.any_eq_true,
            decide_eq_true_eq] at found
          exact .inr (.inr found)
        · split at conflict <;> cases conflict
      · cases failed

end World

end Relays
