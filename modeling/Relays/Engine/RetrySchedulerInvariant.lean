import Relays.Engine.RetryScheduler
import Relays.Engine.WorldInvariant

/-! One scheduler among others: the steps it can take and what the rows it has
claimed look like until its transaction commits. -/

namespace Relays.RetryScheduler

open ReadCommitted

/-- The steps of a scheduler, one constructor for each way a statement can end. -/
inductive Moves (index : Nat) (world : World) : Phase → Event → World → Phase → Prop where
  | skipLocked {id : Uuid}
      (locked : world.updateNotification (.scheduler index) id (retryable now) (claimRetry now) =
        .waits) :
      Moves index world (.claiming now (room + 1) (id :: rest) claimed) .lockNext world
        (.claiming now (room + 1) rest claimed)
  | skipChanged {id : Uuid}
      (changed : world.updateNotification (.scheduler index) id (retryable now) (claimRetry now) =
        .returns (next, none)) :
      Moves index world (.claiming now (room + 1) (id :: rest) claimed) .lockNext world
        (.claiming now (room + 1) rest claimed)
  | lock {id : Uuid}
      (done : world.updateNotification (.scheduler index) id (retryable now) (claimRetry now) =
        .returns (next, some stored)) :
      Moves index world (.claiming now (room + 1) (id :: rest) claimed) .lockNext next
        (.claiming now room rest (claimed ++ [stored.val]))
  | commit (through : room = 0 ∨ candidates = []) :
      Moves index world (.claiming now room candidates claimed) .commit
        (world.commit (.scheduler index))
        (afterEnqueue claimed claimed.length)
  | enqueue (chosen : waiting[position]? = some notification) :
      Moves index world (.enqueueing waiting total) (.enqueue position false)
        (world.enqueue notification.id notification.channel)
        (afterEnqueue (waiting.eraseIdx position) total)
  | enqueueRaises (chosen : waiting[position]? = some notification) :
      Moves index world (.enqueueing waiting total) (.enqueue position true) world (.raised waiting)
  | abort : Moves index world (.claiming now room candidates claimed) .abort
      (world.rollback (.scheduler index)) .aborted

variable {index : Nat} {world next after : World} {phase last : Phase} {event : Event}
variable {waiting claimed : List Notification} {notification : Notification} {tx : Party}

theorem step_moves (taken : step index world phase event = some (next, last)) :
    Moves index world phase event next last := by
  unfold step at taken
  dsimp only at taken
  split at taken
  · rename_i id rest claimed
    split at taken
    · rename_i locked
      cases taken
      exact .skipLocked locked
    · rename_i failed
      -- the table never refuses a claim
      obtain ⟨read, _, due, rejected⟩ := World.updateNotification_violates failed
      exact absurd (claimRetry_checks read.property due) rejected
    · rename_i changed
      cases taken
      exact .skipChanged changed
    · rename_i done
      cases taken
      exact .lock done
  · split at taken
    · rename_i through
      cases taken
      exact .commit through
    · cases taken
  · rename_i position raises
    split at taken
    · cases taken
    · rename_i chosen
      cases raises with
      | true =>
        cases taken
        exact .enqueueRaises chosen
      | false =>
        cases taken
        exact .enqueue chosen
  · cases taken
    exact .abort
  · cases taken

def Phase.claims : Phase → Bool
  | .claiming _ _ _ _ => true
  | _ => false

/-- The rows returned by a committed claim and not yet enqueued. -/
def Phase.handover : Phase → List Notification
  | .enqueueing waiting _ | .raised waiting => waiting
  | _ => []

/-- A row locked and updated by the open claim of this scheduler. -/
def Claims (index : Nat) (world : World) (now : Time) (notification : Notification) : Prop :=
  ∃ stored version, world.row notification.id = some stored ∧ retryable now stored.val = true ∧
    (world.notifications notification.id).pending = some (.scheduler index, some version) ∧
    version.val = claimRetry now stored.val ∧ version.val = notification

structure Valid (index : Nat) (world : World) (phase : Phase) : Prop where
  attempts : world.attempts.own (.scheduler index) = []
  idempotency : ∀ key, ¬ world.idempotency.Owns (.scheduler index) key
  idle : phase.claims = false → world.Idle (.scheduler index)
  claiming : ∀ now room candidates claimed, phase = .claiming now room candidates claimed →
    (∀ notification ∈ claimed, Claims index world now notification) ∧
      (claimed.map Notification.id).Nodup ∧
      ∀ id, world.notifications.Owns (.scheduler index) id → id ∈ claimed.map Notification.id
  handover : ∀ notification ∈ phase.handover, ∃ stored, world.row notification.id = some stored ∧
    notification.identity = stored.val.identity
  distinct : (phase.handover.map Notification.id).Nodup

theorem Claims.evolves {now : Time} (claims : Claims index world now notification)
    (evolves : World.Evolves tx world after) (different : Party.scheduler index ≠ tx) :
    Claims index after now notification := by
  obtain ⟨stored, version, found, due, held, facts⟩ := claims
  have kept := evolves.frame.notifications.kept _ _ _ different held
  refine ⟨stored, version, ?_, due, by rw [kept]; exact held, facts⟩
  have committed : after.row notification.id = world.row notification.id :=
    congrArg Cell.committed kept
  rw [committed]
  exact found

/-- Steps of other parties leave a scheduler as it is. -/
theorem Valid.stable (valid : Valid index world phase) (evolves : World.Evolves tx world after)
    (different : Party.scheduler index ≠ tx) : Valid index after phase where
  attempts := (evolves.frame.attempts _ different).trans valid.attempts
  idempotency key owned := valid.idempotency key
    ((evolves.frame.idempotency.owns different).mp owned)
  idle closed := (valid.idle closed).evolves evolves different
  claiming now room candidates claimed current := by
    obtain ⟨rows, distinct, sole⟩ := valid.claiming now room candidates claimed current
    refine ⟨fun notification member => (rows notification member).evolves evolves different,
      distinct, ?_⟩
    intro id owned
    exact sole id ((evolves.frame.notifications.owns different).mp owned)
  handover notification member := by
    obtain ⟨stored, found, same⟩ := valid.handover notification member
    obtain ⟨later, present, kept⟩ := evolves.rows _ stored found
    exact ⟨later, present, same.trans kept.symm⟩
  distinct := valid.distinct

theorem handover_afterEnqueue (waiting : List Notification) (total : Nat) :
    (afterEnqueue waiting total).handover = waiting := by
  cases waiting <;> rfl

theorem claims_afterEnqueue (waiting : List Notification) (total : Nat) :
    (afterEnqueue waiting total).claims = false := by
  cases waiting <;> rfl

theorem Valid.of_idle (idle : world.Idle (.scheduler index)) (closed : phase.claims = false)
    (handover : ∀ notification ∈ phase.handover, ∃ stored, world.row notification.id = some stored ∧
      notification.identity = stored.val.identity)
    (distinct : (phase.handover.map Notification.id).Nodup) : Valid index world phase where
  attempts := idle.attempts
  idempotency := idle.idempotency
  idle _ := idle
  claiming now room candidates claimed current := by
    subst current
    cases closed
  handover := handover
  distinct := distinct

theorem Valid.begin (idle : world.Idle (.scheduler index)) (began : Time) (limit : Nat) :
    Valid index world (begin world began limit) where
  attempts := idle.attempts
  idempotency := idle.idempotency
  idle _ := idle
  claiming now room candidates claimed current := by
    cases current
    exact ⟨by simp, by simp, fun id owned => absurd owned (idle.notifications id)⟩
  handover := by simp [RetryScheduler.begin, Phase.handover]
  distinct := by simp [RetryScheduler.begin, Phase.handover]

/-- The claim passes over a candidate without touching it. -/
private theorem Valid.skip {now : Time} {room : Nat} {id : Uuid} {rest : List Uuid}
    (valid : Valid index world (.claiming now (room + 1) (id :: rest) claimed)) :
    Valid index world (.claiming now (room + 1) rest claimed) where
  attempts := valid.attempts
  idempotency := valid.idempotency
  idle := by simp [Phase.claims]
  claiming started left candidates rows current := by
    cases current
    exact valid.claiming now (room + 1) (id :: rest) claimed rfl
  handover := by simp [Phase.handover]
  distinct := by simp [Phase.handover]

/-- A row this scheduler has claimed is `processing` in its own transaction, so it
does not match the claim a second time. -/
theorem lock_reads_committed {now : Time} {room : Nat} {id : Uuid} {candidates : List Uuid}
    {read : StoredNotification}
    (valid : Valid index world (.claiming now room candidates claimed))
    (seen : (world.notifications id).view (.scheduler index) = some read)
    (due : retryable now read.val = true) :
    world.row id = some read ∧ id ∉ claimed.map Notification.id := by
  obtain ⟨rows, _, sole⟩ := valid.claiming now room candidates claimed rfl
  have unclaimed : id ∉ claimed.map Notification.id := by
    intro member
    obtain ⟨notification, held, named⟩ := List.mem_map.mp member
    obtain ⟨stored, version, _, _, pending, written, _⟩ := rows notification held
    rw [named] at pending
    have own := (Cell.view_of_pending pending).symm.trans seen
    obtain rfl := Option.some.inj own
    have queued := (retryable_iff.mp due).1
    simp [written, claimRetry] at queued
  refine ⟨?_, unclaimed⟩
  rw [← seen]
  refine (Cell.view_of_unowned ?_).symm
  intro version held
  exact unclaimed (sole id ⟨version, held⟩)

theorem commit_claimed {now : Time} (claims : Claims index world now notification) :
    ∃ stored, (world.commit (.scheduler index)).row notification.id = some stored ∧
      stored.val = notification := by
  obtain ⟨_, version, _, _, held, _, same⟩ := claims
  exact ⟨version, World.commit_row_of_pending held, same⟩

/-- What a scheduler has claimed or still has to hand over, one step later. -/
theorem Moves.keeps_valid (moves : Moves index world phase event next last) (keyed : world.Keyed)
    (valid : Valid index world phase) : Valid index next last := by
  cases moves with
  | skipLocked locked => exact valid.skip
  | skipChanged changed => exact valid.skip
  | @lock now _ stored room rest claimed id done =>
    obtain ⟨read, free, seen, due, written, rfl⟩ := World.updateNotification_returns done
    obtain ⟨committed, unclaimed⟩ := lock_reads_committed valid seen due
    have named : stored.val.id = id := by
      rw [written]
      exact keyed id read committed
    obtain ⟨rows, distinct, sole⟩ := valid.claiming now (room + 1) (id :: rest) claimed rfl
    exact {
      attempts := valid.attempts
      idempotency := valid.idempotency
      idle := by simp [Phase.claims]
      claiming := by
        intro started left candidates whole current
        cases current
        refine ⟨?_, ?_, ?_⟩
        · intro notification member
          rcases List.mem_append.mp member with earlier | added
          · obtain ⟨base, version, found, matched, held, facts⟩ := rows notification earlier
            have elsewhere : notification.id ≠ id := by
              intro same
              exact unclaimed (List.mem_map.mpr ⟨notification, earlier, same⟩)
            exact ⟨base, version, by simpa [World.row] using found, matched,
              by simpa [Table.write_of_ne _ _ elsewhere] using held, facts⟩
          · obtain rfl := List.mem_singleton.mp added
            exact ⟨read, stored, by simpa [World.row, named] using committed, due, by simp [named],
              written, rfl⟩
        · simp only [List.map_append, List.map_cons, List.map_nil]
          refine List.nodup_append.mpr ⟨distinct, List.nodup_singleton _, ?_⟩
          intro other member last added same
          rw [List.mem_singleton.mp added, named] at same
          exact unclaimed (same ▸ member)
        · intro other owned
          by_cases same : other = id
          · simp [same, named]
          · obtain ⟨version, held⟩ := owned
            have earlier : (world.notifications other).pending =
                some (.scheduler index, version) := by
              simpa [Table.write_of_ne _ _ same] using held
            have member := sole other ⟨version, earlier⟩
            rw [List.map_append]
            exact List.mem_append_left _ member
      handover := by simp [Phase.handover]
      distinct := by simp [Phase.handover] }
  | @commit room candidates now claimed through =>
    obtain ⟨rows, distinct, _⟩ := valid.claiming now room candidates claimed rfl
    apply Valid.of_idle (world.commit_idle _) (claims_afterEnqueue _ _)
    · intro notification member
      rw [handover_afterEnqueue] at member
      obtain ⟨stored, committed, same⟩ := commit_claimed (rows notification member)
      exact ⟨stored, committed, by rw [same]⟩
    · rw [handover_afterEnqueue]
      exact distinct
  | @enqueue waiting position notification total chosen =>
    have idle := valid.idle rfl
    have quiet : (world.enqueue notification.id notification.channel).Idle (.scheduler index) :=
      idle.transfer rfl rfl rfl
    apply Valid.of_idle quiet (claims_afterEnqueue _ _)
    · intro other member
      rw [handover_afterEnqueue] at member
      exact valid.handover other ((List.eraseIdx_sublist waiting position).mem member)
    · rw [handover_afterEnqueue]
      exact valid.distinct.sublist ((List.eraseIdx_sublist waiting position).map _)
  | enqueueRaises chosen => exact .of_idle (valid.idle rfl) rfl valid.handover valid.distinct
  | abort =>
    exact .of_idle (world.rollback_idle _) rfl (by simp [Phase.handover]) (by simp [Phase.handover])

/-- The step lemma of a scheduler. -/
theorem Moves.valid (moves : Moves index world phase event next last) (sound : world.Sound)
    (valid : Valid index world phase) :
    next.Sound ∧ World.Evolves (.scheduler index) world next ∧ Valid index next last := by
  have kept := moves.keeps_valid sound.primary valid
  cases moves with
  | skipLocked | skipChanged | enqueueRaises => exact ⟨sound, .refl _ _, kept⟩
  | lock done =>
    obtain ⟨nextSound, evolves⟩ := sound.updateNotification (fun _ => claimRetry_identity) done
    exact ⟨nextSound, evolves, kept⟩
  | commit => exact ⟨sound.commit_of_idle valid.idempotency, .commit sound _, kept⟩
  | enqueue =>
    exact ⟨sound.transfer rfl rfl rfl (Nat.le_refl _),
      .transfer rfl rfl rfl rfl (Nat.le_refl _) (fun _ member => List.mem_append_left _ member),
        kept⟩
  | abort => exact ⟨sound.rollback _, .rollback world _, kept⟩

end Relays.RetryScheduler
