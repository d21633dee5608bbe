import Relays.Engine.ClaimScan
import Relays.Engine.Deliverability
import Relays.Engine.RetryHandover

/-! `claim_retryable_notifications` run alone, as it is seen from one row of the table. -/

namespace Relays

open ReadCommitted Transition

theorem Delivery.Alone.commit_scheduler {index worker : Nat} {world next : World} {id : Uuid}
    {stored version : StoredNotification} (alone : Delivery.Alone worker world id stored)
    (idle : world.attempts.own (.scheduler index) = []) (attempts : next.attempts = world.attempts)
    (row : (next.commit (.scheduler index)).row id = some version)
    (unlocked : ((next.commit (.scheduler index)).notifications id).pending = none)
    (counted : version.val.attemptCount = stored.val.attemptCount) :
    Delivery.Alone worker (next.commit (.scheduler index)) id version := by
  have committed : (next.commit (.scheduler index)).attempts.committed =
      world.attempts.committed := by
    simp [World.commit, Heap.commit, attempts, idle]
  refine ⟨row, unlocked, ?_, ?_, ?_⟩
  · simp [World.commit, Heap.own_commit, attempts, alone.idle]
  · intro insert member
    have kept : insert ∈ world.attempts.pending ∧ insert.1 ≠ .scheduler index := by
      simpa [World.commit, Heap.commit, attempts] using member
    exact alone.uncounted insert kept.1
  · obtain ⟨_, named, numbered⟩ := alone.ledger
    refine ⟨by simp [World.lifecycle, row], by simp [World.lifecycle], ?_⟩
    intro other found
    obtain rfl : version = other := by simpa [World.lifecycle, row] using found
    rw [counted, ← numbered stored alone.row]
    simp only [World.lifecycle, committed]

namespace RetryScheduler

/-- The candidates of the claim in turn, each locked and updated if it still matches. -/
def lockCandidates (index : Nat) (now : Time) : World → Nat → List Uuid → World
  | world, 0, _ | world, _, [] => world
  | world, room + 1, id :: rest =>
    match world.updateNotification (.scheduler index) id (retryable now) (claimRetry now) with
    | .returns (next, some _) => lockCandidates index now next room rest
    | _ => lockCandidates index now world (room + 1) rest

/-- `claim_retryable_notifications`, run alone. -/
def claimRetryableNotifications (index limit : Nat) (world : World) : World :=
  (lockCandidates index world.clock world limit
    ((retryCandidates world.clock world.rows).map Notification.id)).commit
    (.scheduler index)

variable {index room : Nat} {now : Time} {world : World} {candidates : List Uuid} {id : Uuid}
variable {stored version : StoredNotification}

theorem lockCandidates_frame : lockCandidates index now world room candidates =
    { world with
      notifications := (lockCandidates index now world room candidates).notifications } := by
  induction candidates generalizing world room with
  | nil => cases room <;> rfl
  | cons head rest ih =>
    cases room with
    | zero => rfl
    | succ room =>
      rw [lockCandidates]
      split
      · rename_i done
        rw [ih, World.updateNotification_frame done]
      · exact ih

/-- A row this scheduler has claimed no longer matches, so the rest of the scan leaves it. -/
theorem lockCandidates_claimed (processing : version.val.state = .processing)
    (held : (world.notifications id).pending = some (.scheduler index, some version)) :
    (lockCandidates index now world room candidates).notifications id = world.notifications id := by
  induction candidates generalizing world room with
  | nil => cases room <;> rfl
  | cons head rest ih =>
    cases room with
    | zero => rfl
    | succ room =>
      rw [lockCandidates]
      split
      · rename_i next claimed done
        obtain ⟨read, _, seen, due, _, rfl⟩ := World.updateNotification_returns done
        have elsewhere : id ≠ head := by
          rintro rfl
          obtain rfl := Option.some.inj ((Cell.view_of_pending held).symm.trans seen)
          obtain ⟨queued, _⟩ := retryable_iff.mp due
          simp [processing] at queued
        have same : world.notifications.write head (.scheduler index) (some claimed) id =
            world.notifications id :=
          Table.write_of_ne _ _ elsewhere
        rw [ih (by simpa only [same] using held)]
        exact same
      · exact ih held

/-- The scan leaves an unlocked row, or claims it; it claims a due row that it gets to. -/
theorem lockCandidates_row (unlocked : (world.notifications id).pending = none)
    (row : world.row id = some stored) :
    ((lockCandidates index now world room candidates).notifications id = world.notifications id ∧
        ¬ (retryable now stored.val = true ∧ id ∈ candidates ∧ candidates.length ≤ room)) ∨
      retryable now stored.val = true ∧ ∃ version, version.val = claimRetry now stored.val ∧
        (lockCandidates index now world room candidates).notifications id =
          ⟨some stored, some (.scheduler index, some version)⟩ := by
  induction candidates generalizing world room with
  | nil => cases room <;> exact .inl ⟨rfl, by simp⟩
  | cons head rest ih =>
    cases room with
    | zero => exact .inl ⟨rfl, by simp⟩
    | succ room =>
      rw [lockCandidates]
      split
      · rename_i next claimed done
        obtain ⟨read, _, seen, due, written, moved⟩ := World.updateNotification_returns done
        by_cases here : id = head
        · subst here
          rw [Cell.view_of_unowned (by simp [unlocked])] at seen
          obtain rfl := Option.some.inj (seen.symm.trans row)
          have locked : next.notifications id =
              ⟨some read, some (.scheduler index, some claimed)⟩ := by
            rw [moved, ← seen]
            exact Table.write_self _ _
          exact .inr ⟨due, claimed, written,
            (lockCandidates_claimed (by rw [written]; rfl) (by rw [locked])).trans locked⟩
        · have same : next.notifications id = world.notifications id := by
            rw [moved]
            exact Table.write_of_ne _ _ here
          have unlocked' : (next.notifications id).pending = none := by rw [same]; exact unlocked
          rcases ih unlocked' ((congrArg Cell.committed same).trans row) with ⟨kept, missed⟩ | found
          · refine .inl ⟨kept.trans same, ?_⟩
            rintro ⟨matched, member, enough⟩
            rcases List.mem_cons.mp member with rfl | later
            · exact here rfl
            · exact missed ⟨matched, later, Nat.le_of_succ_le_succ enough⟩
          · exact .inr found
      · rename_i passed
        rcases ih unlocked row with ⟨kept, missed⟩ | found
        · refine .inl ⟨kept, ?_⟩
          rintro ⟨matched, member, enough⟩
          rcases List.mem_cons.mp member with rfl | later
          · have claims : world.notifications.update id (.scheduler index)
              (fun row => retryable now row.val)
                (fun row => store (claimRetry now row.val)) = _ :=
              Table.update_of_view (Cell.blocked_eq_false.mpr (by simp [unlocked]))
                ((Cell.view_of_unowned (by simp [unlocked])).trans row) matched
                (store_of_checks (claimRetry_checks stored.property matched))
            exact passed _ _ (by simp only [World.updateNotification, claims]; rfl)
          · exact missed ⟨matched, later, Nat.le_of_succ_le enough⟩
        · exact .inr found

theorem mem_candidates (listed : id ∈ world.notificationIds) (row : world.row id = some stored)
    (keyed : stored.val.id = id) (due : retryable now stored.val = true) :
    id ∈ (retryCandidates now world.rows).map Notification.id := by
  refine List.mem_map.mpr ⟨stored.val, mem_retryCandidates.mpr ⟨?_, due⟩, keyed⟩
  exact List.mem_filterMap.mpr ⟨id, listed, by simp [row]⟩

theorem candidates_length (now : Time) (world : World) :
    ((retryCandidates now world.rows).map Notification.id).length ≤
      world.notificationIds.length := by
  rw [List.length_map, retryCandidates, List.length_insertionSort]
  exact (List.length_filter_le _ _).trans (List.length_filterMap_le _ _)

theorem claim_frame (index limit : Nat) (world : World) :
    (claimRetryableNotifications index limit world).clock = world.clock ∧
      (claimRetryableNotifications index limit world).notificationIds = world.notificationIds ∧
      (claimRetryableNotifications index limit world).attempts =
        world.attempts.commit (.scheduler index) := by
  unfold claimRetryableNotifications
  rw [lockCandidates_frame]
  exact ⟨rfl, rfl, rfl⟩

/-- The claim takes a due row if it has room for every row of the table. -/
theorem claim_row {worker limit : Nat} (alone : Delivery.Alone worker world id stored)
    (idle : world.attempts.own (.scheduler index) = []) (listed : id ∈ world.notificationIds)
    (keyed : stored.val.id = id) :
    (Delivery.Alone worker (claimRetryableNotifications index limit world) id stored ∧
        ¬ (retryable world.clock stored.val = true ∧ world.notificationIds.length ≤ limit)) ∨
      retryable world.clock stored.val = true ∧
        ∃ version, version.val = claimRetry world.clock stored.val ∧
        Delivery.Alone worker (claimRetryableNotifications index limit world) id version := by
  let candidates := (retryCandidates world.clock world.rows).map Notification.id
  have attempts : (lockCandidates index world.clock world limit candidates).attempts =
      world.attempts := by
    rw [lockCandidates_frame]
  rcases @lockCandidates_row index limit world.clock world candidates id stored alone.unlocked
    alone.row with
    ⟨kept, missed⟩ | ⟨due, version, written, locked⟩
  · have free : ¬ (lockCandidates index world.clock world limit candidates).notifications.Owns
        (.scheduler index) id := by
      rintro ⟨version, held⟩
      simp [kept, alone.unlocked] at held
    have same : (claimRetryableNotifications index limit world).notifications id =
        world.notifications id :=
      (Table.commit_of_unowned fun version held => free ⟨version, held⟩).trans kept
    refine .inl ⟨alone.commit_scheduler idle attempts ?_
      (by rw [← alone.unlocked, ← same]; rfl) rfl, ?_⟩
    · exact (congrArg Cell.committed same).trans alone.row
    · rintro ⟨due, room⟩
      exact missed ⟨due, mem_candidates listed alone.row keyed due,
        (candidates_length _ _).trans room⟩
  · have held : ((lockCandidates index world.clock world limit candidates).notifications
      id).pending =
        some (.scheduler index, some version) := by rw [locked]
    refine .inr ⟨due, version, written,
      alone.commit_scheduler idle attempts ?_ ?_ (by rw [written]; rfl)⟩
    · exact World.commit_row_of_pending held
    · exact congrArg Cell.pending (Table.commit_of_pending held)

/-- The claim in one piece is the claim statement by statement. -/
theorem claim_run (index limit : Nat) (world : World) : ∃ events claimed,
    Run (alone index world world.clock limit) Any events
      (claimRetryableNotifications index limit world, afterEnqueue claimed claimed.length) := by
  have scans (candidates : List Uuid) (now : Time) : ∀ {front current room claimed},
      Run (alone index world world.clock limit) Any front
        (current, .claiming now room candidates claimed) →
      ∃ events final, Run (alone index world world.clock limit) Any events
        ((lockCandidates index now current room candidates).commit (.scheduler index),
          afterEnqueue final final.length) := by
    induction candidates with
    | nil =>
      intro front current room claimed reached
      have committed : (alone index world world.clock limit).step (current,
        .claiming now room [] claimed) .commit =
          some (current.commit (.scheduler index), afterEnqueue claimed claimed.length) := by
            simp [alone, step]
      cases room <;> exact ⟨_, claimed, reached.step trivial committed⟩
    | cons head rest ih =>
      intro front current room claimed reached
      cases room with
      | zero =>
        have committed : (alone index world world.clock limit).step (current,
          .claiming now 0 (head :: rest) claimed) .commit =
            some (current.commit (.scheduler index), afterEnqueue claimed claimed.length) := by
              simp [alone, step]
        exact ⟨_, claimed, reached.step trivial committed⟩
      | succ room =>
        rw [lockCandidates]
        split
        · rename_i next stored done
          have locked : (alone index world world.clock limit).step (current,
            .claiming now (room + 1) (head :: rest) claimed)
              .lockNext = some (next, .claiming now room rest (claimed ++ [stored.val])) := by
                simp [alone, step, done]
          exact ih (reached.step trivial locked)
        · rename_i passed
          have skipped : (alone index world world.clock limit).step (current,
            .claiming now (room + 1) (head :: rest) claimed)
              .lockNext = some (current, .claiming now (room + 1) rest claimed) := by
            simp only [alone, step]
            split
            · rfl
            · rename_i failed
              obtain ⟨read, _, due, rejected⟩ := World.updateNotification_violates failed
              exact absurd (claimRetry_checks read.property due) rejected
            · rfl
            · rename_i next stored done
              exact absurd done (passed next stored)
          exact ih (reached.step trivial skipped)
  exact scans _ _ .start

end RetryScheduler

end Relays
