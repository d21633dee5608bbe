import Relays.Engine.World

/-! One run of `retry_scheduler_task`: the claim, row by row, and the enqueue loop. -/

namespace Relays.RetryScheduler

open ReadCommitted

inductive Phase where
  | claiming (now : Time) (room : Nat) (candidates : List Uuid) (claimed : List Notification)
  | enqueueing (waiting : List Notification) (total : Nat)
  | finished (total : Nat)
  | raised (waiting : List Notification)
  | aborted

inductive Event where
  | lockNext
  | commit
  | enqueue (position : Nat) (raises : Bool)
  | abort

/-- The limit of `retry_scheduled_notifications`. -/
def defaultLimit : Nat := 100

/-- The claim of a transaction that began at this time, whose `now()` it shows. Its candidates are
those of the snapshot that the statement starts from. -/
def begin (world : World) (began : Time) (limit : Nat) : Phase :=
  .claiming began limit ((retryCandidates began world.rows).map Notification.id) []

def afterEnqueue (waiting : List Notification) (total : Nat) : Phase :=
  if waiting.isEmpty then .finished total else .enqueueing waiting total

/-- `FOR UPDATE SKIP LOCKED`: a locked row is skipped, a row changed since the
snapshot is matched again, and a row that still matches is locked and updated. -/
def step (index : Nat) (world : World) (phase : Phase) (event : Event) : Option (World × Phase) :=
  let tx := Party.scheduler index
  match phase, event with
  | .claiming now (room + 1) (id :: rest) claimed, .lockNext =>
    match world.updateNotification tx id (retryable now) (claimRetry now) with
    | .waits => some (world, .claiming now (room + 1) rest claimed)
    | .violates => some (world.rollback tx, .aborted)
    | .returns (_, none) => some (world, .claiming now (room + 1) rest claimed)
    | .returns (next, some stored) => some (next, .claiming now room rest (claimed ++ [stored.val]))
  | .claiming _ room candidates claimed, .commit =>
    if room = 0 ∨ candidates = [] then
      some (world.commit tx, afterEnqueue claimed claimed.length)
    else none
  | .enqueueing waiting total, .enqueue position raises =>
    -- `RETURNING` gives the claimed rows in no particular order
    match waiting[position]? with
    | none => none
    | some notification =>
      if raises then some (world, .raised waiting)
      else some (world.enqueue notification.id notification.channel,
        afterEnqueue (waiting.eraseIdx position) total)
  | .claiming _ _ _ _, .abort => some (world.rollback tx, .aborted)
  | _, _ => none

end Relays.RetryScheduler
