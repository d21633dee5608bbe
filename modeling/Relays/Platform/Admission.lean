import Relays.ApiKeys.Authorship
import Relays.Auth.AccountIntegrity
import Relays.Engine.Originals
import Relays.Platform.System

/-! The parts of the platform run as they do alone, and what reaches their routes has passed a
guard. -/

namespace Relays.Platform

open ReadCommitted Transition

/-- The steps of the platform. -/
inductive Moves (settings : Settings) (platform : Platform) : Event → Platform → Prop where
  | tick : Moves settings platform (.tick elapsed) { platform with
      auth.world.clock := platform.auth.world.clock + elapsed
      apiKeys.clock := platform.apiKeys.clock + elapsed
      engine.world.clock := platform.engine.world.clock + elapsed }
  | auth {event : Auth.State.Event} {auth : Auth.State} (untimed : ∀ elapsed, event ≠ .tick elapsed)
      (taken : Auth.State.step settings.auth platform.auth event = some auth) :
      Moves settings platform (.auth event) { platform with auth }
  | authenticateJwt (accepted : platform.jwtGuard settings authorization = .ok caller) :
      Moves settings platform (.authenticateJwt authorization)
        { platform with callers := platform.callers ++ [caller] }
  | authenticateApiKey (accepted : platform.apiKeyGuard settings authorization =
    .authenticated apiKeyId workspaceId) :
      Moves settings platform (.authenticateApiKey authorization)
        { platform with clients := platform.clients ++ [⟨apiKeyId, workspaceId⟩] }
  | rejected {event : Event} (guards : (∃ authorization, event = .authenticateJwt authorization) ∨
      ∃ authorization, event = .authenticateApiKey authorization) :
        Moves settings platform event platform
  | manage {apiKeys : ApiKeys.State} (found : platform.callers[position]? = some caller)
      (taken : ApiKeys.State.step settings.auth.sha512 platform.apiKeys (.arrive caller request) =
        some apiKeys) :
      Moves settings platform (.manage position request)
        { platform with apiKeys, callers := platform.callers.eraseIdx position }
  | apiKeys {event : ApiKeys.State.Event} {apiKeys : ApiKeys.State}
      (untimed : ∀ elapsed, event ≠ .tick elapsed)
      (guarded : ∀ caller request, event ≠ .arrive caller request)
      (taken : ApiKeys.State.step settings.auth.sha512 platform.apiKeys event = some apiKeys) :
      Moves settings platform (.apiKeys event) { platform with apiKeys }
  | submit {engine : Engine} (found : platform.clients[position]? = some client)
      (taken : Engine.step settings.engine platform.engine
        (.post ⟨request, idempotencyKey, client.workspaceId, client.apiKeyId⟩) = some engine) :
      Moves settings platform (.submit position request idempotencyKey)
        { platform with engine, clients := platform.clients.eraseIdx position }
  | engine {event : Engine.Event} {engine : Engine} (untimed : ∀ elapsed, event ≠ .tick elapsed)
      (guarded : ∀ arguments, event ≠ .post arguments)
      (taken : Engine.step settings.engine platform.engine event = some engine) :
      Moves settings platform (.engine event) { platform with engine }

variable {settings : Settings} {platform after before : Platform} {events : List Event}
    {event : Event}

theorem step_moves (taken : step settings platform event = some after) :
    Moves settings platform event after := by
  unfold step at taken
  split at taken
  · cases taken
    exact .tick
  · cases taken
  · cases taken
  · cases taken
  · cases taken
  · cases taken
  · rename_i untimed
    split at taken
    · cases taken
    · rename_i moved
      cases taken
      exact .auth (fun elapsed same => untimed elapsed same) moved
  · split at taken
    · cases taken
      exact .rejected (.inl ⟨_, rfl⟩)
    · rename_i accepted
      cases taken
      exact .authenticateJwt accepted
  · split at taken
    · cases taken
    · rename_i found
      split at taken
      · cases taken
      · rename_i moved
        cases taken
        exact .manage found moved
  · rename_i untimed guarded
    split at taken
    · cases taken
    · rename_i moved
      cases taken
      exact .apiKeys (fun elapsed same => untimed elapsed same)
        (fun caller request same => guarded caller request same) moved
  · split at taken
    · cases taken
      exact .rejected (.inr ⟨_, rfl⟩)
    · cases taken
      exact .rejected (.inr ⟨_, rfl⟩)
    · rename_i accepted
      cases taken
      exact .authenticateApiKey accepted
  · split at taken
    · cases taken
    · rename_i found
      split at taken
      · cases taken
      · rename_i moved
        cases taken
        exact .submit found moved
  · rename_i untimed guarded
    split at taken
    · cases taken
    · rename_i moved
      cases taken
      exact .engine (fun elapsed same => untimed elapsed same)
        (fun arguments same => guarded arguments same) moved

section Parts

variable (settings : Settings)

def accounts : Component (system settings) (Auth.State.system settings.auth) where
  view platform := platform.auth
  act _ event :=
    match event with
    | .tick elapsed => some (.tick elapsed)
    | .auth event => some event
    | _ => none
  initial := rfl
  silent before event after taken quiet := by
    cases step_moves taken <;> first | rfl | cases quiet
  acting before event after act taken acted := by
    cases step_moves taken with
    | tick =>
      cases acted
      rfl
    | auth untimed moved =>
      cases acted
      exact moved
    | rejected guards => rcases guards with ⟨_, rfl⟩ | ⟨_, rfl⟩ <;> cases acted
    | authenticateJwt | authenticateApiKey | manage | apiKeys | submit | engine => cases acted

def keys : Component (system settings) (ApiKeys.State.system settings.auth.sha512) where
  view platform := platform.apiKeys
  act platform event :=
    match event with
    | .tick elapsed => some (.tick elapsed)
    | .manage position request => platform.callers[position]?.map fun caller =>
        .arrive caller request
    | .apiKeys event => some event
    | _ => none
  initial := rfl
  silent before event after taken quiet := by
    cases step_moves taken with
    | manage found =>
      simp only [found] at quiet
      cases quiet
    | tick | apiKeys => cases quiet
    | auth | rejected | authenticateJwt | authenticateApiKey | submit | engine => rfl
  acting before event after act taken acted := by
    cases step_moves taken with
    | tick =>
      cases acted
      rfl
    | manage found moved =>
      simp only [found] at acted
      cases acted
      exact moved
    | apiKeys untimed guarded moved =>
      cases acted
      exact moved
    | rejected guards => rcases guards with ⟨_, rfl⟩ | ⟨_, rfl⟩ <;> cases acted
    | auth | authenticateJwt | authenticateApiKey | submit | engine => cases acted

def deliveries : Component (system settings) (Engine.system settings.engine) where
  view platform := platform.engine
  act platform event :=
    match event with
    | .tick elapsed => some (.tick elapsed)
    | .submit position request idempotencyKey => platform.clients[position]?.map fun client =>
        .post ⟨request, idempotencyKey, client.workspaceId, client.apiKeyId⟩
    | .engine event => some event
    | _ => none
  initial := rfl
  silent before event after taken quiet := by
    cases step_moves taken with
    | submit found =>
      simp only [found] at quiet
      cases quiet
    | tick | engine => cases quiet
    | auth | rejected | authenticateJwt | authenticateApiKey | manage | apiKeys => rfl
  acting before event after act taken acted := by
    cases step_moves taken with
    | tick =>
      cases acted
      rfl
    | submit found moved =>
      simp only [found] at acted
      cases acted
      exact moved
    | engine untimed guarded moved =>
      cases acted
      exact moved
    | rejected guards => rcases guards with ⟨_, rfl⟩ | ⟨_, rfl⟩ <;> cases acted
    | auth | authenticateJwt | authenticateApiKey | manage | apiKeys => cases acted

end Parts

/-- Only a statement of a call is one in the part. -/
theorem accounts_act_call {index : Nat} {draw : Auth.Draw}
    (acted : (accounts settings).act platform event = some (.call index draw)) :
      event = .auth (.call index draw) := by
  unfold accounts at acted
  dsimp only at acted
  split at acted
  · cases acted
  · rw [Option.some.inj acted]
  · cases acted

theorem keys_act_call {index : Nat} {draw : ApiKeys.Draw}
    (acted : (keys settings).act platform event = some (.call index draw)) :
      event = .apiKeys (.call index draw) := by
  unfold keys at acted
  dsimp only at acted
  split at acted
  · cases acted
  · obtain ⟨_, _, same⟩ := Option.map_eq_some_iff.mp acted
    cases same
  · rw [Option.some.inj acted]
  · cases acted

/-- A request reaches the engine as a new one, and takes its own steps there. -/
theorem deliveries_act {act : Engine.Event}
    (acted : (deliveries settings).act platform event = some act) :
    (∃ elapsed, act = .tick elapsed) ∨ (∃ arguments, act = .post arguments) ∨
      event = .engine act := by
  unfold deliveries at acted
  dsimp only at acted
  split at acted
  · exact .inl ⟨_, (Option.some.inj acted).symm⟩
  · obtain ⟨_, _, same⟩ := Option.map_eq_some_iff.mp acted
    exact .inr (.inl ⟨_, same.symm⟩)
  · rw [Option.some.inj acted]
    exact .inr (.inr rfl)
  · cases acted

/-- At some step of the run, `authenticate_jwt` has made this of a request. -/
def Admitted (settings : Settings) (events : List Event) (caller : ApiKeys.Caller) : Prop :=
  ∃ front before authorization after,
    Takes (system settings) events front before (.authenticateJwt authorization) after ∧
    before.jwtGuard settings authorization = .ok caller

/-- At some step of the run, `authenticate_api_key` has made this of a request. -/
def Presented (settings : Settings) (events : List Event) (client : Client) : Prop :=
  ∃ front before authorization after,
    Takes (system settings) events front before (.authenticateApiKey authorization) after ∧
    before.apiKeyGuard settings authorization = .authenticated client.apiKeyId client.workspaceId

theorem Admitted.extend {caller : ApiKeys.Caller} (admitted : Admitted settings events caller)
    (more : List Event) :
    Admitted settings (events ++ more) caller := by
  obtain ⟨front, before, authorization, after, takes, accepted⟩ := admitted
  exact ⟨front, before, authorization, after, takes.extend more, accepted⟩

theorem Presented.extend {client : Client} (presented : Presented settings events client)
    (more : List Event) :
    Presented settings (events ++ more) client := by
  obtain ⟨front, before, authorization, after, takes, accepted⟩ := presented
  exact ⟨front, before, authorization, after, takes.extend more, accepted⟩

/-- Whoever waits for a route or is served by one has passed its guard. -/
structure Guards (settings : Settings) (events : List Event) (platform : Platform) : Prop where
  callers : ∀ caller ∈ platform.callers, Admitted settings events caller
  calls : ∀ (index : Nat) call, platform.apiKeys.calls[index]? = some call →
    Admitted settings events call.caller
  clients : ∀ client ∈ platform.clients, Presented settings events client
  requests : ∀ (index : Nat) request, platform.engine.requests[index]? = some request →
    Presented settings events ⟨request.arguments.apiKeyId, request.arguments.workspaceId⟩

theorem Guards.extend (guards : Guards settings events platform) (more : List Event) :
    Guards settings (events ++ more) platform where
  callers caller waits := (guards.callers caller waits).extend more
  calls index call found := (guards.calls index call found).extend more
  clients client waits := (guards.clients client waits).extend more
  requests index request found := (guards.requests index request found).extend more

theorem Guards.step (guards : Guards settings events platform)
    (run : Run (system settings) Any events platform)
    (taken : step settings platform event = some after) :
      Guards settings (events ++ [event]) after := by
  have kept := guards.extend [event]
  have takes := Takes.last run taken
  cases step_moves taken with
  | tick => exact ⟨kept.callers, kept.calls, kept.clients, kept.requests⟩
  | auth => exact ⟨kept.callers, kept.calls, kept.clients, kept.requests⟩
  | rejected => exact kept
  | @authenticateJwt authorization caller accepted =>
    refine ⟨?_, kept.calls, kept.clients, kept.requests⟩
    intro other waits
    rcases List.mem_append.mp waits with earlier | new
    · exact kept.callers other earlier
    · obtain rfl := List.mem_singleton.mp new
      exact ⟨events, platform, authorization, _, takes, accepted⟩
  | @authenticateApiKey authorization apiKeyId workspaceId accepted =>
    refine ⟨kept.callers, kept.calls, ?_, kept.requests⟩
    intro other waits
    rcases List.mem_append.mp waits with earlier | new
    · exact kept.clients other earlier
    · obtain rfl := List.mem_singleton.mp new
      exact ⟨events, platform, authorization, _, takes, accepted⟩
  | manage found moved =>
    refine ⟨?_, ?_, kept.clients, kept.requests⟩
    · intro other waits
      exact kept.callers other (List.mem_of_mem_eraseIdx waits)
    · intro index call entry
      rcases (ApiKeys.State.step_moves moved).caller_cases entry with ⟨request, same⟩
        | ⟨earlier, present, same⟩
      · cases same
        exact kept.callers _ (List.mem_of_getElem? found)
      · exact same ▸ kept.calls index earlier present
  | apiKeys untimed guarded moved =>
    refine ⟨kept.callers, ?_, kept.clients, kept.requests⟩
    intro index call entry
    rcases (ApiKeys.State.step_moves moved).caller_cases entry with ⟨request, same⟩
      | ⟨earlier, present, same⟩
    · exact absurd same (guarded _ _)
    · exact same ▸ kept.calls index earlier present
  | submit found moved =>
    refine ⟨kept.callers, kept.calls, ?_, ?_⟩
    · intro other waits
      exact kept.clients other (List.mem_of_mem_eraseIdx waits)
    · intro index request entry
      rcases (Engine.step_moves moved).request_cases entry with earlier | ⟨arguments, posted, rfl⟩ |
        ⟨current, _, posted, _⟩
      · exact kept.requests index request earlier
      · cases posted
        exact kept.clients _ (List.mem_of_getElem? found)
      · cases posted
  | engine untimed guarded moved =>
    refine ⟨kept.callers, kept.calls, kept.clients, ?_⟩
    intro index request entry
    rcases (Engine.step_moves moved).request_cases entry with earlier | ⟨arguments, posted, _⟩ |
      ⟨current, _, _, present, same, _⟩
    · exact kept.requests index request earlier
    · exact absurd posted (guarded _)
    · exact same ▸ kept.requests index current present

theorem run_guards (run : Run (system settings) Any events platform) :
    Guards settings events platform := by
  induction run with
  | start => constructor <;> simp [system, init, ApiKeys.State.init, Engine.init]
  | step earlier permitted taken ih => exact ih.step earlier taken

end Relays.Platform
