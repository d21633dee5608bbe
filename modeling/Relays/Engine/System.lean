import Relays.Library.Transition
import Relays.Engine.Delivery
import Relays.Engine.Submission
import Relays.Engine.RetryScheduler

/-! The delivery engine: any number of requests, workers and schedulers whose
statements interleave in any order over the shared tables and queues. -/

namespace Relays

structure Engine where
  world : World
  requests : List Submission.Request
  executions : List Delivery.Execution
  schedulers : List RetryScheduler.Phase

namespace Engine

inductive Event where
  | tick (elapsed : Nat)
  | post (arguments : Submission.Arguments)
  | request (index : Nat) (event : Submission.Event)
  | consume (channel : NotificationChannel) (position : Nat)
  | redeliver (id : Uuid)
  | worker (index : Nat) (event : Delivery.Event)
  | beat (began : Time) (limit : Nat)
  | scheduler (index : Nat) (event : RetryScheduler.Event)

def init : Engine := ⟨World.empty, [], [], []⟩

def step (config : Config) (engine : Engine) : Event → Option Engine
  | .tick elapsed => some { engine with world.clock := engine.world.clock + elapsed }
  | .post arguments =>
    some { engine with requests := engine.requests ++ [⟨arguments, .begun engine.world.clock⟩] }
  | .request index event =>
    match engine.requests[index]? with
    | none => none
    | some request =>
      match Submission.step config index engine.world request event with
      | none => none
      | some (world, phase) =>
        some { engine with world, requests := engine.requests.set index { request with phase } }
  | .consume channel position =>
    match (engine.world.queues channel)[position]? with
    | none => none
    | some id =>
      some { engine with
        world.queues := Function.update engine.world.queues channel
          ((engine.world.queues channel).eraseIdx position)
        executions := engine.executions ++ [⟨id, .received⟩] }
  | .redeliver id =>
    if id ∈ engine.world.published then
      some { engine with executions := engine.executions ++ [⟨id, .received⟩] }
    else none
  | .worker index event =>
    match engine.executions[index]? with
    | none => none
    | some execution =>
      match Delivery.step config index engine.world execution event with
      | none => none
      | some (world, phase) =>
        some { engine with
          world
          executions := engine.executions.set index { execution with phase } }
  | .beat began limit =>
    -- `BEGIN` is not seen until the claim, which it may precede by any time
    if engine.world.clock < began then none else
    some { engine with
      schedulers := engine.schedulers ++ [RetryScheduler.begin engine.world began limit] }
  | .scheduler index event =>
    match engine.schedulers[index]? with
    | none => none
    | some phase =>
      match RetryScheduler.step index engine.world phase event with
      | none => none
      | some (world, next) => some
        { engine with world, schedulers := engine.schedulers.set index next }

def system (config : Config) : Transition.System Engine Event := ⟨init, step config⟩

/-- The worker of a run never dies in the middle of an execution. -/
def CrashFree (_ : Engine) (event : Event) : Prop :=
  match event with
  | .worker _ .interrupt => False
  | _ => True

instance (engine : Engine) (event : Event) : Decidable (CrashFree engine event) := by
  unfold CrashFree
  split <;> infer_instance

section Sample

def sampleConfig : Config where
  canonicalHash := fun _ => "h"
  initialRetryDelaySeconds := 30
  maxRetryDelaySeconds := 3600

def samplePayload : EmailPayload :=
  (EmailPayload.check "user@example.com" none none "Hi" "<p>Hi</p>").get (by decide)

def sampleArguments : Submission.Arguments where
  request := ⟨.email samplePayload, []⟩
  idempotencyKey := 1
  workspaceId := 2
  apiKeyId := 3

def resultOf (status : DeliveryStatus) : ProviderResult where
  status := status
  provider := .mailrelay
  successStorable := fun _ => rfl

/-- The transaction of request `index`, which creates the notification `id`. -/
def submits (index : Nat) (id : Uuid) : List Event :=
  [.post sampleArguments, .request index .insertIdemKeys, .request index (.createNotification id),
    .request index .completeIdempotency, .request index .commit]

def queues (index : Nat) : List Event :=
  [.request index (.enqueue false), .request index (.markQueued false)]

/-- Execution `index` from the loaded row to the answer of the provider. -/
def sends (index : Nat) (status : DeliveryStatus) : List Event :=
  [.worker index .load, .worker index .send, .worker index (.answer (resultOf status))]

def persists (index : Nat) : List Event :=
  [.worker index .openTransaction, .worker index .increment, .worker index .record,
    .worker index (.conclude 0 0), .worker index .commit]

/-- A submission, its enqueue and one delivery with the given result. -/
def deliversOnce (status : DeliveryStatus) : List Event :=
  submits 0 7 ++ queues 0 ++ [.consume .email 0] ++ sends 0 status ++ persists 0

/-- Two executions of one message that load the row before either persists its result. -/
def loadsTwice (first second : DeliveryStatus) : List Event :=
  submits 0 7 ++ queues 0 ++ [.consume .email 0, .redeliver 7] ++ sends 0 first ++ sends 1 second

/-- A success, and after it the permanent failure of a stale execution. -/
def staleFailure : List Event :=
  loadsTwice .success .permanentFailure ++ persists 0 ++
    [.worker 1 .openTransaction, .worker 1 .increment, .worker 1 .record, .worker 1 (.conclude 0 0)]

open Transition

theorem deliversOnce_succeeds : ∃ engine,
    Run (system sampleConfig) CrashFree (deliversOnce .success) engine ∧
    engine.executions.map (fun execution => execution.phase.ending) = [some .delivered] ∧
    (engine.world.row 7).map (fun stored => stored.val.state) = some .sent ∧
    engine.world.attempts.committed.map DeliveryAttempt.attemptNumber = [1] := by
  obtain ⟨engine, run, observed⟩ := Run.exists_of_execute (system sampleConfig) CrashFree
    (deliversOnce .success) (fun engine =>
      engine.executions.map (fun execution => execution.phase.ending) = [some .delivered] ∧
      (engine.world.row 7).map (fun stored => stored.val.state) = some .sent ∧
      engine.world.attempts.committed.map DeliveryAttempt.attemptNumber = [1]) (by decide +kernel)
  exact ⟨engine, run, of_decide_eq_true observed⟩

/-- The stale execution is rejected with its answer. -/
theorem staleFailure_rejected : ∃ engine, Run (system sampleConfig) CrashFree staleFailure engine ∧
    engine.executions.map (fun execution => execution.phase.ending) =
      [some .delivered, some .rejected] ∧
    (engine.world.row 7).map (fun stored => stored.val.attemptCount) = some 1 ∧
    engine.world.results.countP (fun result => result.notificationId = 7) = 2 := by
  obtain ⟨engine, run, observed⟩ := Run.exists_of_execute (system sampleConfig) CrashFree
    staleFailure (fun engine =>
      engine.executions.map (fun execution => execution.phase.ending) =
        [some .delivered, some .rejected] ∧
      (engine.world.row 7).map (fun stored => stored.val.attemptCount) = some 1 ∧
      engine.world.results.countP (fun result => result.notificationId = 7) = 2) (by decide +kernel)
  exact ⟨engine, run, of_decide_eq_true observed⟩

end Sample

end Engine

end Relays
