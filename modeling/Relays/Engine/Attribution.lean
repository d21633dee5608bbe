import Relays.Engine.Payloads

/-! For which workspace a notification changes: for the one whose request has created it, whoever
takes the step. -/

namespace Relays.Engine

open ReadCommitted Transition

/-- The step is taken for the workspace: by one of its requests, or by a worker or a scheduler that
has one of its notifications in hand. -/
inductive Tends (engine : Engine) (workspaceId : Uuid) : Event → Prop where
  | request {request : Submission.Request} (found : engine.requests[index]? = some request)
      (own : request.arguments.workspaceId = workspaceId) :
        Tends engine workspaceId (.request index statement)
  | worker {execution : Delivery.Execution} {stored : StoredNotification}
      (found : engine.executions[index]? = some execution)
      (present : engine.world.row execution.notificationId = some stored)
      (own : stored.val.workspaceId = workspaceId) :
        Tends engine workspaceId (.worker index statement)
  | scheduler {notification : Notification}
      (found : engine.schedulers[index]? = some (.claiming now room candidates claimed))
      (member : notification ∈ claimed) (own : notification.workspaceId = workspaceId) :
      Tends engine workspaceId (.scheduler index .commit)

variable {config : Config} {engine after : Engine} {event : Event} {events : List Event} {id : Uuid}
variable {stored : StoredNotification}

/-- The notification that a new request has committed is of its workspace. -/
theorem run_original_workspace {index : Nat} {request : Submission.Request}
    {notification : Notification}
    (run : Run (system config) Any events engine) (found : engine.requests[index]? = some request)
    (created : request.phase.original = some notification)
    (present : engine.world.row notification.id = some stored) :
    request.arguments.workspaceId = stored.val.workspaceId := by
  obtain ⟨now, made⟩ := run_original_made run found created
  obtain ⟨_, row, same, known⟩ :=
    ((run_sound run).request found).settled notification
      (Submission.Phase.settled_of_original created)
  obtain rfl := Option.some.inj (same.symm.trans present)
  have own : notification.workspaceId = row.val.workspaceId :=
    congrArg NotificationIdentity.workspaceId known
  rw [← own, made]
  rfl

/-- A notification changes by a step that is taken for its workspace. -/
theorem run_tends (run : Run (system config) Any events engine)
    (moves : Moves config engine event after) (id : Uuid) :
    after.world.lifecycle id = engine.world.lifecycle id ∨
      ∃ workspaceId, Tends engine workspaceId event ∧
      (∀ stored, engine.world.row id = some stored → stored.val.workspaceId = workspaceId) ∧
      ∀ stored, after.world.row id = some stored → stored.val.workspaceId = workspaceId := by
  have sound := run_sound run
  rcases moves.publishes sound id with same | published
  · exact .inl same
  have kept (stored : StoredNotification) (present : engine.world.row id = some stored)
    (row : StoredNotification)
      (there : after.world.row id = some row) : row.val.workspaceId = stored.val.workspaceId := by
    obtain ⟨next, found, same⟩ := (moves.extends sound).rows id stored present
    obtain rfl := Option.some.inj (found.symm.trans there)
    exact congrArg NotificationIdentity.workspaceId same
  generalize earlier : engine.world.lifecycle id = view at published
  generalize later : after.world.lifecycle id = final at published
  have base : engine.world.row id = view.row := congrArg Lifecycle.row earlier
  have rows : after.world.row id = final.row := congrArg Lifecycle.row later
  have owned (stored : StoredNotification) (present : engine.world.row id = some stored)
      (tends : Tends engine stored.val.workspaceId event) :
      ∃ workspaceId, Tends engine workspaceId event ∧
        (∀ stored, engine.world.row id = some stored → stored.val.workspaceId = workspaceId) ∧
        ∀ stored, after.world.row id = some stored → stored.val.workspaceId = workspaceId := by
    refine ⟨_, tends, ?_, fun row there => kept stored present row there⟩
    intro row there
    rw [Option.some.inj (there.symm.trans present)]
  right
  cases published with
  | @create _ _ _ request draft found current written =>
    refine ⟨request.arguments.workspaceId, .request found rfl, ?_, ?_⟩
    · intro stored present
      cases base.symm.trans present
    · intro stored present
      obtain rfl := Option.some.inj (rows.symm.trans present)
      rw [written]
      rfl
  | @queue _ _ _ request stored updated found current names waiting written =>
    subst names
    exact owned stored base
      (.request found (run_original_workspace run found (by rw [current]; rfl) base))
  | @deliver _ _ _ _ _ _ _ execution stored updated found current names known persisted =>
    subst names
    exact owned stored base (.worker found base rfl)
  | @claim _ _ _ _ _ _ stored updated found member due written =>
    refine owned stored base (.scheduler found member ?_)
    rw [written]
    rfl

/-- What is committed of the notifications of a workspace. -/
def notificationsOf (world : World) (workspaceId id : Uuid) : Lifecycle :=
  if (world.row id).any fun stored => stored.val.workspaceId = workspaceId then world.lifecycle id
    else Lifecycle.empty

theorem run_notifications_kept {workspaceId : Uuid} (run : Run (system config) Any events engine)
    (moves : Moves config engine event after) (alien : ¬ Tends engine workspaceId event)
    (id : Uuid) :
    notificationsOf after.world workspaceId id = notificationsOf engine.world workspaceId id := by
  rcases run_tends run moves id with same | ⟨owner, tends, earlier, later⟩
  · have row : after.world.row id = engine.world.row id := congrArg Lifecycle.row same
    rw [notificationsOf, notificationsOf, row, same]
  · have foreign : owner ≠ workspaceId := by
      rintro rfl
      exact alien tends
    have nothing {row : Option StoredNotification} (own : ∀ stored, row = some stored →
      stored.val.workspaceId = owner) :
        row.any (fun stored => stored.val.workspaceId = workspaceId) = false := by
      cases row with
      | none => rfl
      | some stored => simpa [own stored rfl] using foreign
    rw [notificationsOf, notificationsOf, nothing earlier, nothing later, if_neg (by simp),
      if_neg (by simp)]

end Relays.Engine
