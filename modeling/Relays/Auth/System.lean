import Relays.Auth.Login
import Relays.Auth.Sessions
import Relays.Library.Processes
import Relays.Library.Transition

/-! The account system: any number of calls whose statements interleave in any order over the
shared tables, while the clock moves on. -/

namespace Relays.Auth

open ReadCommitted

/-- A call that is being answered. -/
inductive Call where
  | requestRegistrationOtp (email : String) (phase : RequestRegistrationOtp.Phase)
  | verifyRegistrationOtp (email otp : String) (phase : VerifyRegistrationOtp.Phase)
  | createAccount (name workspaceName : String) (phase : CreateAccount.Phase)
  | requestLoginOtp (email : String) (phase : RequestLoginOtp.Phase)
  | authenticateAccount (email otp : String) (phase : AuthenticateAccount.Phase)
  | refreshAccessToken (refreshToken : String) (phase : RefreshAccessToken.Phase)
  | logout (refreshToken : String) (phase : Logout.Phase)

/-- The calls of the API; the rate limiter answers for the two that send a code. -/
inductive Request where
  | requestRegistrationOtp (email : String) (permitted : Bool)
  | verifyRegistrationOtp (email otp : String)
  | createAccount (registrationToken name workspaceName : String)
  | requestLoginOtp (email : String) (permitted : Bool)
  | authenticateAccount (email otp : String)
  | refreshAccessToken (refreshToken : String)
  | logout (refreshToken : String)

def Request.start (config : Config) (clock : Time) : Request → Call
  | .requestRegistrationOtp email permitted =>
    .requestRegistrationOtp email (RequestRegistrationOtp.start clock permitted)
  | .verifyRegistrationOtp email otp =>
      .verifyRegistrationOtp email otp (VerifyRegistrationOtp.start clock)
  | .createAccount registrationToken name workspaceName =>
    .createAccount name workspaceName
      (CreateAccount.start config clock registrationToken workspaceName)
  | .requestLoginOtp email permitted => .requestLoginOtp email (RequestLoginOtp.start permitted)
  | .authenticateAccount email otp => .authenticateAccount email otp (.begun clock)
  | .refreshAccessToken refreshToken => .refreshAccessToken refreshToken (.begun clock)
  | .logout refreshToken => .logout refreshToken (.begun clock)

namespace Call

def outcome : Call → Option Outcome
  | requestRegistrationOtp _ (.ended outcome) | verifyRegistrationOtp _ _ (.ended outcome)
  | createAccount _ _ (.ended outcome) | requestLoginOtp _ (.ended outcome)
  | authenticateAccount _ _ (.ended outcome) | refreshAccessToken _ (.ended outcome)
  | logout _ (.ended outcome) => some outcome
  | _ => none

/-- The database or the process fails. -/
def fail : Call → Call
  | requestRegistrationOtp email _ => requestRegistrationOtp email (.ended .unhandled)
  | verifyRegistrationOtp email otp _ => verifyRegistrationOtp email otp (.ended .unhandled)
  | createAccount name workspaceName _ => createAccount name workspaceName (.ended .unhandled)
  | requestLoginOtp email _ => requestLoginOtp email (.ended .unhandled)
  | authenticateAccount email otp _ => authenticateAccount email otp (.ended .unhandled)
  | refreshAccessToken refreshToken _ => refreshAccessToken refreshToken (.ended .unhandled)
  | logout refreshToken _ => logout refreshToken (.ended .unhandled)

/-- The next statement of the call, `none` when it has ended or waits for a lock. -/
def step (config : Config) (tx : Nat) (world : World) (draw : Draw) : Call → Option (World × Call)
  | requestRegistrationOtp email phase =>
    (RequestRegistrationOtp.step config tx world email draw phase).map
    (Prod.map id (requestRegistrationOtp email))
  | verifyRegistrationOtp email otp phase =>
    (VerifyRegistrationOtp.step config tx world email otp phase).map
    (Prod.map id (verifyRegistrationOtp email otp))
  | createAccount name workspaceName phase =>
    (CreateAccount.step config tx world name workspaceName draw phase).map
      (Prod.map id (createAccount name workspaceName))
  | requestLoginOtp email phase =>
    (RequestLoginOtp.step config tx world email draw phase).map
    (Prod.map id (requestLoginOtp email))
  | authenticateAccount email otp phase =>
    (AuthenticateAccount.step config tx world email otp draw phase).map
    (Prod.map id (authenticateAccount email otp))
  | refreshAccessToken refreshToken phase =>
    (RefreshAccessToken.step config tx world refreshToken draw phase).map
      (Prod.map id (refreshAccessToken refreshToken))
  | logout refreshToken phase =>
    (Logout.step config tx world refreshToken phase).map (Prod.map id (logout refreshToken))

end Call

structure State where
  world : World
  calls : List Call

namespace State

def init : State := ⟨World.empty, []⟩

inductive Event where
  | tick (elapsed : Nat)
  | arrive (request : Request)
  | call (index : Nat) (draw : Draw)
  | abort (index : Nat)

def step (config : Config) (state : State) : Event → Option State
  | .tick elapsed => some { state with world.clock := state.world.clock + elapsed }
  | .arrive request => some
    { state with calls := state.calls ++ [request.start config state.world.clock] }
  | .call index draw =>
    match state.calls[index]? with
    | none => none
    | some call =>
      match call.step config index state.world draw with
      | none => none
      | some (world, next) => some ⟨world, state.calls.set index next⟩
  | .abort index =>
    match state.calls[index]? with
    | none => none
    | some call =>
      if call.outcome.isSome then none
      else some ⟨state.world.rollback index, state.calls.set index call.fail⟩

def system (config : Config) : Transition.System State Event := ⟨init, step config⟩

end State

section Sample

def sampleConfig : Config where
  sha512 := id
  jwtEncode claims :=
    match claims.lookup "email" with
    | some (.str email) => email
    | _ => "access"
  jwtDecode _ _ token := .ok [("email", .str token), ("type", .str "registration")]

/-- The statements of the call of this index, with what is drawn in each. -/
def calls (index : Nat) (draws : List Draw) : List State.Event := draws.map (State.Event.call index)

/-- Call 0 opens an account, with session 3 and its first refresh token. -/
def registers : List State.Event :=
  .arrive (.createAccount "ann@example.com" "Ann" "Acme") ::
    calls 0 [⟨0, ""⟩, ⟨0, ""⟩, ⟨1, ""⟩, ⟨2, ""⟩, ⟨0, ""⟩, ⟨3, "first"⟩, ⟨0, ""⟩]

example : (((State.system sampleConfig).execute Transition.Any State.init registers).bind
    (fun state => state.world.sessions.row 3)).map (fun session => session.val.refreshTokenHash) =
      some "first" := by
  decide

end Sample

end Relays.Auth
