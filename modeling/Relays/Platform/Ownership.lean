import Relays.Auth.Credentials
import Relays.Engine.Attribution
import Relays.Platform.Schema

/-! Whose steps change what is stored for a workspace: those of its owner, of the requests with its
keys, and of the workers and schedulers that deliver its notifications. All the others leave it as
it is. -/

namespace Relays.Platform

open ReadCommitted Transition

/-- What is committed for a workspace and its owner. -/
structure Holdings where
  account : Auth.AccountHoldings
  apiKeys : Uuid → Option StoredApiKey
  notifications : Uuid → Lifecycle
  idempotency : IdempotencyKey → Option IdempotencyRecord

def holdings (platform : Platform) (workspaceId userId : Uuid) : Holdings where
  account := platform.auth.world.holdings workspaceId userId
  apiKeys id := (platform.apiKeys.apiKeys.row id).filter fun key => key.val.workspaceId =
    workspaceId
  notifications := Engine.notificationsOf platform.engine.world workspaceId
  idempotency key :=
    ((platform.apiKeys.apiKeys.row key.apiKeyId).filter fun apiKey => apiKey.val.workspaceId =
      workspaceId).bind
      fun _ => (platform.engine.world.idempotency key).committed

section Statement

variable (settings : Settings) (events : List Event) (platform : Platform)
    (workspaceId userId : Uuid)

/-- The step is taken for the workspace: by a call that has shown a credential of its owner, by the
owner signed in, by a request that has presented one of its keys, or to deliver one of its
notifications. -/
inductive ActsFor : Event → Prop where
  | auth {call : Auth.Call} (found : platform.auth.calls[index]? = some call)
      (shows : call.Shows settings.auth ((accounts settings).trace events) platform.auth userId) :
      ActsFor (.auth (.call index draw))
  | apiKeys {call : ApiKeys.Call} (found : platform.apiKeys.calls[index]? = some call)
      (own : call.caller = ⟨workspaceId, userId⟩)
        (admitted : Admitted settings events ⟨workspaceId, userId⟩) :
      ActsFor (.apiKeys (.call index draw))
  | request {request : Submission.Request} (found : platform.engine.requests[index]? = some request)
      (own : request.arguments.workspaceId = workspaceId)
      (presented : Presented settings events ⟨request.arguments.apiKeyId, workspaceId⟩) :
      ActsFor (.engine (.request index statement))
  | worker {execution : Delivery.Execution} {stored : StoredNotification}
      (found : platform.engine.executions[index]? = some execution)
      (present : platform.engine.world.row execution.notificationId = some stored)
      (own : stored.val.workspaceId = workspaceId) : ActsFor (.engine (.worker index statement))
  | scheduler {notification : Notification}
      (found : platform.engine.schedulers[index]? = some (.claiming now room candidates claimed))
      (member : notification ∈ claimed) (own : notification.workspaceId = workspaceId) :
      ActsFor (.engine (.scheduler index .commit))

end Statement

variable {settings : Settings} {platform after before middle : Platform}
    {events front back : List Event}
variable {event : Event} {workspaceId userId : Uuid}

section Step

variable (run : Run (system settings) Any events before)
    (taken : step settings before event = some after)
variable (owner : before.Owner workspaceId userId)
    (alien : ¬ ActsFor settings events before workspaceId userId event)

include run taken

/-- An owner stays one. -/
theorem owner_kept (owner : before.Owner workspaceId userId) : after.Owner workspaceId userId := by
  obtain ⟨member, present, _⟩ := owner
  have joined : before.auth.world.Joined workspaceId userId :=
    Option.isSome_iff_exists.mpr ⟨member, present⟩
  have later : after.auth.world.Joined workspaceId userId := by
    cases acted : (accounts settings).act before event with
    | none =>
      have same : after.auth = before.auth :=
        (accounts settings).silent before event after taken acted
      rwa [same]
    | some act =>
      have moved := (accounts settings).acting before event after act taken acted
      have sound := Auth.State.run_sound ((accounts settings).run run)
      exact (Auth.State.step_moves moved).joined sound joined
  obtain ⟨row, there⟩ := Option.isSome_iff_exists.mp later
  have inner := (accounts settings).run (run.step trivial taken)
  obtain ⟨_, _, role, user, workspace⟩ := (Auth.State.run_paired inner).members _ _ row there
  exact ⟨row, there, role, user, workspace⟩

include alien

theorem account_kept (owner : before.Owner workspaceId userId) :
    after.auth.world.holdings workspaceId userId =
      before.auth.world.holdings workspaceId userId := by
  obtain ⟨member, present, _⟩ := owner
  cases acted : (accounts settings).act before event with
  | none =>
    have same : after.auth = before.auth :=
      (accounts settings).silent before event after taken acted
    rw [same]
  | some act =>
    have moved := (accounts settings).acting before event after act taken acted
    apply Auth.State.run_holdings_kept ((accounts settings).run run) (Auth.State.step_moves moved)
    · exact Option.isSome_iff_exists.mpr ⟨member, present⟩
    · intro index draw call same found shows
      subst same
      obtain rfl := accounts_act_call acted
      exact alien (.auth found shows)

/-- A call of the workspace is one of its only member. -/
theorem apiKeys_kept (owner : before.Owner workspaceId userId) (id : Uuid) :
    (after.apiKeys.apiKeys.row id).filter (fun key => key.val.workspaceId = workspaceId) =
      (before.apiKeys.apiKeys.row id).filter fun key => key.val.workspaceId = workspaceId := by
  cases acted : (keys settings).act before event with
  | none =>
    have same : after.apiKeys = before.apiKeys :=
      (keys settings).silent before event after taken acted
    rw [same]
  | some act =>
    have moved := (keys settings).acting before event after act taken acted
    apply ApiKeys.State.run_rows_kept ((keys settings).run run) (ApiKeys.State.step_moves moved)
    rintro index draw ⟨⟨own, caller⟩, activity⟩ same found rfl
    subst same
    obtain rfl := keys_act_call acted
    have admitted := (run_guards run).calls index _ found
    obtain rfl : caller = userId := by
      obtain ⟨member, present, _⟩ := owner
      obtain ⟨other, there, _⟩ := Admitted.owner run admitted
      have paired := Auth.State.run_paired ((accounts settings).run run)
      exact paired.unique.2 (Option.isSome_iff_exists.mpr ⟨other, there⟩)
        (Option.isSome_iff_exists.mpr ⟨member, present⟩)
    exact alien (.apiKeys found rfl admitted)

/-- What the engine does for the workspace is done by a request with its key or for its
notifications. -/
theorem alien_engine {act : Engine.Event}
    (acted : (deliveries settings).act before event = some act) :
    ¬ Engine.Tends before.engine workspaceId act := by
  intro tends
  cases tends with
  | request found own =>
    obtain ⟨_, same⟩ | ⟨_, same⟩ | rfl := deliveries_act acted
    · cases same
    · cases same
    · have presented := (run_guards run).requests _ _ found
      rw [own] at presented
      exact alien (.request found own presented)
  | worker found present own =>
    obtain ⟨_, same⟩ | ⟨_, same⟩ | rfl := deliveries_act acted
    · cases same
    · cases same
    · exact alien (.worker found present own)
  | scheduler found member own =>
    obtain ⟨_, same⟩ | ⟨_, same⟩ | rfl := deliveries_act acted
    · cases same
    · cases same
    · exact alien (.scheduler found member own)

theorem notifications_kept (id : Uuid) : Engine.notificationsOf after.engine.world workspaceId id =
    Engine.notificationsOf before.engine.world workspaceId id := by
  cases acted : (deliveries settings).act before event with
  | none =>
    have same : after.engine = before.engine :=
      (deliveries settings).silent before event after taken acted
    rw [same]
  | some act =>
    have moved := (deliveries settings).acting before event after act taken acted
    exact Engine.run_notifications_kept ((deliveries settings).run run) (Engine.step_moves moved)
      (alien_engine run taken alien acted) id

/-- A record is that of a request, whose key is of its workspace. -/
theorem record_kept {key : IdempotencyKey}
    (own : ApiKeys.OwnedBy before.apiKeys key.apiKeyId workspaceId) :
    (after.engine.world.idempotency key).committed =
    (before.engine.world.idempotency key).committed := by
  cases acted : (deliveries settings).act before event with
  | none =>
    have same : after.engine = before.engine :=
      (deliveries settings).silent before event after taken acted
    rw [same]
  | some act =>
    have moved := (deliveries settings).acting before event after act taken acted
    have sound := Engine.run_sound ((deliveries settings).run run)
    rcases (Engine.step_moves moved).record_published sound key with same
      | ⟨index, request, _, rfl, found, _, rfl⟩
    · exact same
    · obtain ⟨row, present, owned⟩ := own
      obtain ⟨other, there, workspace⟩ :=
        ((run_guards run).requests index request found).ownedBy run
      obtain rfl := Option.some.inj (there.symm.trans present)
      exact absurd (.request found (workspace.symm.trans owned))
        (alien_engine run taken alien acted)

theorem holdings_kept (owner : before.Owner workspaceId userId) :
    after.holdings workspaceId userId = before.holdings workspaceId userId := by
  have keys := apiKeys_kept run taken alien owner
  have records (key : IdempotencyKey) :
      ((after.apiKeys.apiKeys.row key.apiKeyId).filter fun apiKey => apiKey.val.workspaceId =
        workspaceId).bind
          (fun _ => (after.engine.world.idempotency key).committed) =
        ((before.apiKeys.apiKeys.row key.apiKeyId).filter fun apiKey => apiKey.val.workspaceId =
          workspaceId).bind
          fun _ => (before.engine.world.idempotency key).committed := by
    rw [keys key.apiKeyId]
    cases held : (before.apiKeys.apiKeys.row key.apiKeyId).filter fun apiKey =>
      apiKey.val.workspaceId = workspaceId with
    | none => rfl
    | some row =>
      obtain ⟨present, own⟩ := Option.filter_eq_some_iff.mp held
      exact record_kept run taken alien ⟨row, present, by simpa using own⟩
  unfold holdings
  rw [account_kept run taken alien owner, funext keys, funext (notifications_kept run taken alien),
    funext records]

end Step

/-- What is stored for a workspace and its owner stays as it is, whatever the other tenants and
callers do and in whatever order, until a step is taken for the workspace. -/
theorem untouched (run : Run (system settings) Any events platform) (split : events = front ++ back)
    (reached : Run (system settings) Any front middle) (owner : middle.Owner workspaceId userId)
    (alien : ∀ place start step finish, Takes (system settings) events place start step finish →
      front.length ≤ place.length → start.Owner workspaceId userId →
      ¬ ActsFor settings place start workspaceId userId step) :
    platform.holdings workspaceId userId = middle.holdings workspaceId userId := by
  have kept : platform.Owner workspaceId userId ∧
      platform.holdings workspaceId userId = middle.holdings workspaceId userId := by
    apply run.keeps_from split reached ⟨owner, rfl⟩
    rintro place start step finish takes later ⟨present, same⟩
    have outside := alien place start step finish takes later present
    exact ⟨owner_kept takes.reached takes.taken present,
      (holdings_kept takes.reached takes.taken outside present).trans same⟩
  exact kept.2

section Sample

/-- A second account is opened, with session 13. -/
def joins : List Event :=
  .tick 5 :: .auth (.arrive (.createAccount "bob@example.com" "Bob" "Initech")) ::
    (Auth.calls 1 [⟨0, ""⟩, ⟨0, ""⟩, ⟨11, ""⟩, ⟨12, ""⟩, ⟨0, ""⟩, ⟨13, "second"⟩,
      ⟨0, ""⟩]).map .auth

def registering (platform : Platform) : Event → Bool
  | .tick _ | .auth (.arrive _) => true
  | .auth (.call index _) => (platform.auth.calls[index]?).any fun call =>
      (call matches .createAccount _ _ _)
  | _ => false

/-- Only registrations go on once workspace 2 is there. -/
def Registering (platform : Platform) (event : Event) : Prop :=
  platform.auth.world.workspaces.row 2 = none ∨ registering platform event = true

instance (platform : Platform) (event : Event) : Decidable (Registering platform event) :=
  inferInstanceAs (Decidable (_ ∨ _))

theorem Registering.alien {place : List Event} (registering : Registering platform event)
    (owner : platform.Owner 2 1) : ¬ ActsFor sampleSettings place platform 2 1 event := by
  obtain ⟨_, _, _, _, there⟩ := owner
  rcases registering with absent | only
  · rw [absent] at there
    cases there
  · intro acts
    cases acts with
    | @auth index draw call found shows =>
      simp only [registering, found, Option.any_some] at only
      cases call with
      | createAccount => exact shows
      | _ => cases only
    | apiKeys | request | worker | scheduler => cases only

theorem untouched_joins : ∃ platform middle,
    Run (system sampleSettings) Any (Auth.registers.map .auth) middle ∧
    middle.Owner 2 1 ∧ Run (system sampleSettings) Any
      (Auth.registers.map .auth ++ joins) platform ∧
    (platform.auth.world.users.row 11).isSome = true ∧
      platform.holdings 2 1 = middle.holdings 2 1 := by
  obtain ⟨middle, reached, joined⟩ :=
    Run.exists_of_execute (system sampleSettings) Any (Auth.registers.map .auth)
    (fun platform => (platform.auth.world.members.row (2, 1)).isSome) (by decide +kernel)
  obtain ⟨platform, run, opened⟩ := Run.exists_of_execute (system sampleSettings) Registering
    (Auth.registers.map .auth ++ joins) (fun platform => (platform.auth.world.users.row 11).isSome)
      (by decide +kernel)
  obtain ⟨member, present⟩ := Option.isSome_iff_exists.mp joined
  obtain ⟨_, _, role, user, workspace⟩ :=
    (Auth.State.run_paired ((accounts sampleSettings).run reached)).members 2 1 member present
  have owner : middle.Owner 2 1 := ⟨member, present, role, user, workspace⟩
  refine ⟨platform, middle, reached, owner, run.any, opened, untouched run.any rfl reached owner ?_⟩
  intro place start step finish takes _ later
  exact (takes.permitted run).2.alien later

end Sample

end Relays.Platform
