import Relays.ApiKeys.Routes
import Relays.Auth.System
import Relays.Auth.TokenKinds
import Relays.Engine.System
import Relays.Library.Composition
import Relays.Tenancy.Routes

/-! The whole service: accounts, API keys and the delivery engine over one database and one clock.
The routes of the keys and of the notifications begin with what their guard has made of the
request. -/

namespace Relays

open ReadCommitted Transition

structure Settings where
  auth : Auth.Config
  engine : Config

/-- What `authenticate_api_key` attaches to a request. -/
structure Client where
  apiKeyId : Uuid
  workspaceId : Uuid

structure Platform where
  auth : Auth.State
  apiKeys : ApiKeys.State
  engine : Engine
  /-- Requests that `authenticate_jwt` has let through and whose route has not begun. -/
  callers : List ApiKeys.Caller
  /-- Requests that `authenticate_api_key` has let through and whose route has not begun. -/
  clients : List Client

namespace Platform

inductive Event where
  | tick (elapsed : Nat)
  | auth (event : Auth.State.Event)
  | authenticateJwt (authorization : Option String)
  | manage (position : Nat) (request : ApiKeys.Request)
  | apiKeys (event : ApiKeys.State.Event)
  | authenticateApiKey (authorization : Option String)
  | submit (position : Nat) (request : NotificationRequestBody) (idempotencyKey : Uuid)
  | engine (event : Engine.Event)

def init : Platform := ⟨Auth.State.init, ApiKeys.State.init, Engine.init, [], []⟩

/-- `authenticate_jwt` reads the context on a connection of its own, outside any transaction. -/
def jwtGuard (settings : Settings) (platform : Platform) (authorization : Option String) :
    Except APIException ApiKeys.Caller :=
  Auth.authenticateJwt settings.auth platform.auth.world.clock
    (fun userId => (Auth.getWorkspaceContext platform.auth.world platform.auth.calls.length
      userId).map
      fun context => ⟨context.2.workspaceId, context.2.userId⟩) authorization

def apiKeyGuard (settings : Settings) (platform : Platform)
    (authorization : Option String) : Guarded :=
  platform.apiKeys.guard settings.auth.sha512 platform.apiKeys.clock authorization

/-- The steps of the parts; time passes for all of them, and their routes are reached through the
guards only. -/
def step (settings : Settings) (platform : Platform) : Event → Option Platform
  | .tick elapsed => some { platform with
      auth.world.clock := platform.auth.world.clock + elapsed
      apiKeys.clock := platform.apiKeys.clock + elapsed
      engine.world.clock := platform.engine.world.clock + elapsed }
  | .auth (.tick _) | .apiKeys (.tick _) | .apiKeys (.arrive _ _) | .engine (.tick _)
  | .engine (.post _) => none
  | .auth event =>
    match Auth.State.step settings.auth platform.auth event with
    | none => none
    | some auth => some { platform with auth }
  | .authenticateJwt authorization =>
    match platform.jwtGuard settings authorization with
    | .error _ => some platform
    | .ok caller => some { platform with callers := platform.callers ++ [caller] }
  | .manage position request =>
    match platform.callers[position]? with
    | none => none
    | some caller =>
      match ApiKeys.State.step settings.auth.sha512 platform.apiKeys (.arrive caller request) with
      | none => none
      | some apiKeys => some { platform
        with apiKeys, callers := platform.callers.eraseIdx position }
  | .apiKeys event =>
    match ApiKeys.State.step settings.auth.sha512 platform.apiKeys event with
    | none => none
    | some apiKeys => some { platform with apiKeys }
  | .authenticateApiKey authorization =>
    match platform.apiKeyGuard settings authorization with
    | .rejected _ | .unhandled => some platform
    | .authenticated apiKeyId workspaceId =>
      some { platform with clients := platform.clients ++ [⟨apiKeyId, workspaceId⟩] }
  | .submit position request idempotencyKey =>
    match platform.clients[position]? with
    | none => none
    | some client =>
      match Engine.step settings.engine platform.engine
          (.post ⟨request, idempotencyKey, client.workspaceId, client.apiKeyId⟩) with
      | none => none
      | some engine => some { platform with engine, clients := platform.clients.eraseIdx position }
  | .engine event =>
    match Engine.step settings.engine platform.engine event with
    | none => none
    | some engine => some { platform with engine }

def system (settings : Settings) : System Platform Event := ⟨init, step settings⟩

section Sample

/-- Registration tokens are read as their email, access tokens as those of user 1. -/
def sampleSettings : Settings where
  auth := { Auth.sampleConfig with
    jwtDecode := fun _ required token =>
      if required.contains "sub" then
        .ok [("iss", .str Auth.jwtIssuer), ("sub", .str (Auth.uuidText 1)), ("type", .str "access"),
          ("ver", .int 1),
          ("iat", .int 0), ("exp", .int 3600)]
      else .ok [("email", .str token), ("type", .str "registration")] }
  engine := Engine.sampleConfig

/-- An account is opened, and its owner creates key 9. -/
def opens : List Event :=
  Auth.registers.map .auth ++
    [.authenticateJwt (some "Bearer access"), .manage 0 (.create "first" none),
      .apiKeys (.call 0 ⟨9, "0123456789"⟩),
      .apiKeys (.call 0 ⟨9, ""⟩), .apiKeys (.call 0 ⟨9, ""⟩)]

/-- The key is presented, and notification 7 is submitted with it and sent. -/
def serves : List Event :=
  opens ++ [.authenticateApiKey (some "Bearer rly_0123456789"),
    .submit 0 Engine.sampleArguments.request 1] ++
    ((Engine.submits 0 7).tail ++ Engine.queues 0 ++ [Engine.Event.consume .email 0] ++
      Engine.sends 0 .success).map .engine

theorem serves_sends : ∃ platform, Run (system sampleSettings) Any serves platform ∧
    (platform.engine.world.row 7).isSome = true ∧
    platform.engine.world.calls.map (fun call => call.notificationId) = [7] := by
  obtain ⟨platform, run, observed⟩ := Run.exists_of_execute (system sampleSettings) Any serves
    (fun platform => (platform.engine.world.row 7).isSome = true ∧
      platform.engine.world.calls.map (fun call => call.notificationId) = [7]) (by decide +kernel)
  exact ⟨platform, run, of_decide_eq_true observed⟩

end Sample

end Platform

end Relays
