import Relays.Auth.AccountIntegrity
import Relays.Auth.Names

/-! The names that are on record: the response model of `GET /auth/me` validates them once more and
leaves them as they are. -/

namespace Relays.Auth

open Delimited ReadCommitted Transition

/-- `RegisterUserRequestBody`, as `create_account` receives it. -/
def registerUserRequestBody (registrationToken name workspaceName : String) :
    Except String Request :=
  match validateUserName name with
  | .error message => .error message
  | .ok name =>
    match validateWorkspaceName workspaceName with
    | .error message => .error message
    | .ok workspaceName => .ok (.createAccount registrationToken name workspaceName)

structure CurrentUser where
  userId : Uuid
  name : String
  email : String
  workspaceId : Uuid
  workspaceName : String

/-- The first row of the user with one of its workspaces. -/
def getCurrentUserContext (world : World) (userId : Uuid) : Option CurrentUser :=
  match world.users.row userId with
  | none => none
  | some user =>
    (world.members.select fun member => member.userId = userId).findSome? fun (_, member) =>
      (world.workspaces.row member.workspaceId).map fun workspace =>
        ⟨userId, user.name, user.email, member.workspaceId, workspace.name⟩

/-- `CurrentUserResponseBody`, with the validator of an `EmailAddress`. -/
def currentUserResponseBody (emailAddress : String → Except String String) (context : CurrentUser) :
    Except String CurrentUser :=
  match validateUserName context.name with
  | .error message => .error message
  | .ok name =>
    match emailAddress context.email with
    | .error message => .error message
    | .ok email =>
      match validateWorkspaceName context.workspaceName with
      | .error message => .error message
      | .ok workspaceName => .ok { context with name, email, workspaceName }

/-- A registration comes from a request body. -/
def FromBody (_ : State) : State.Event → Prop
  | .arrive (.createAccount registrationToken name workspaceName) => ∃ given workspace,
    registerUserRequestBody registrationToken given workspace =
      .ok (.createAccount registrationToken name workspaceName)
  | _ => True

/-- What a registration has drawn up has the names of its request. -/
def CreateAccount.Phase.Named (name workspaceName : String) : CreateAccount.Phase → Prop
  | .userCreated _ _ _ user => user.name = name
  | .workspaceCreated _ _ user _ workspace | .memberCreated _ _ user _ workspace _
  | .sessionCreated _ user _ workspace _ _ _ _ _ => user.name = name ∧
    workspace.name = workspaceName
  | .begun _ _ _ | .unregistered _ _ _ | .available _ _ _ | .ended _ => True

/-- The names of registrations and of accounts are accepted as they are. -/
structure State.Named (state : State) : Prop where
  calls : ∀ (index : Nat) name workspaceName phase, state.calls[index]? =
    some (.createAccount name workspaceName phase) →
    validateUserName name = .ok name ∧ validateWorkspaceName workspaceName = .ok workspaceName ∧
      phase.Named name workspaceName
  users : ∀ id user, state.world.users.row id = some user →
    validateUserName user.name = .ok user.name
  workspaces : ∀ id workspace, state.world.workspaces.row id = some workspace →
    validateWorkspaceName workspace.name = .ok workspace.name

theorem registerUserRequestBody_stable
    {registrationToken given workspace name workspaceName : String}
    (accepted : registerUserRequestBody registrationToken given workspace =
      .ok (.createAccount registrationToken name workspaceName)) :
    validateUserName name = .ok name ∧ validateWorkspaceName workspaceName = .ok workspaceName := by
  unfold registerUserRequestBody at accepted
  split at accepted
  · cases accepted
  · rename_i user
    split at accepted
    · cases accepted
    · rename_i named
      cases accepted
      exact ⟨validateUserName_stable user, validateWorkspaceName_stable named⟩

section Steps

variable {config : Config} {tx : Nat} {world next : World} {name workspaceName : String}
    {draw : Draw}

theorem CreateAccount.start_named {clock : Time} {registrationToken : String} :
    (CreateAccount.start config clock registrationToken workspaceName).Named name
      workspaceName := by
  unfold CreateAccount.start
  split
  · trivial
  · split <;> trivial

theorem CreateAccount.step_named {phase after : Phase} (named : phase.Named name workspaceName)
    (taken : step config tx world name workspaceName draw phase = some (next, after)) :
    after.Named name workspaceName := by
  cases phase with
  | begun | unregistered =>
    simp only [step] at taken
    split at taken <;> cases taken <;> trivial
  | available =>
    simp only [step] at taken
    split at taken
    · cases taken
    · cases taken
      trivial
    · cases taken
      rfl
  | userCreated =>
    simp only [step] at taken
    split at taken
    · cases taken
    · cases taken
      trivial
    · cases taken
      exact ⟨named, rfl⟩
  | workspaceCreated =>
    simp only [step] at taken
    split at taken
    · cases taken
    · cases taken
      trivial
    · cases taken
      exact named
  | memberCreated =>
    simp only [step] at taken
    split at taken
    · cases taken
      trivial
    · split at taken
      · cases taken
      · cases taken
        trivial
      · cases taken
        exact named
  | sessionCreated =>
    cases taken
    trivial
  | ended => cases taken

end Steps

namespace State

variable {config : Config} {state after : State} {event : Event} {events : List Event}

/-- The call that has moved presents validated names, as the other calls do. -/
theorem Named.call_step (named : state.Named) (body : FromBody state event)
    (moves : Moves config state event after)
    {index : Nat} {name workspaceName : String} {phase : CreateAccount.Phase}
    (entry : after.calls[index]? = some (.createAccount name workspaceName phase)) :
    validateUserName name = .ok name ∧ validateWorkspaceName workspaceName = .ok workspaceName ∧
      phase.Named name workspaceName := by
  rcases moves.call_cases entry with same | ⟨request, rfl, _, started⟩
    | ⟨current, draw, _, found, taken⟩ |
    ⟨current, _, found, failed⟩
  · exact named.calls index name workspaceName phase same
  · cases request with
    | createAccount registrationToken =>
      obtain ⟨rfl, rfl, rfl⟩ := Call.createAccount.inj started
      obtain ⟨given, workspace, accepted⟩ := body
      obtain ⟨user, workspaceNamed⟩ := registerUserRequestBody_stable accepted
      exact ⟨user, workspaceNamed, CreateAccount.start_named⟩
    | _ => cases started
  · cases current with
    | createAccount =>
      obtain ⟨_, moved, shape⟩ := Processes.mapped_eq_some.mp taken
      cases shape
      obtain ⟨user, workspaceNamed, drawn⟩ := named.calls index _ _ _ found
      exact ⟨user, workspaceNamed, CreateAccount.step_named drawn moved⟩
    | _ =>
      obtain ⟨_, _, shape⟩ := Processes.mapped_eq_some.mp taken
      cases shape
  · cases current with
    | createAccount =>
      cases failed
      obtain ⟨user, workspaceNamed, _⟩ := named.calls index _ _ _ found
      exact ⟨user, workspaceNamed, trivial⟩
    | _ => cases failed

theorem Named.step (named : state.Named) (body : FromBody state event)
    (moves : Moves config state event after)
    (sound : state.Sound) : after.Named := by
  have calls (index : Nat) (name workspaceName : String) (phase : CreateAccount.Phase)
      (entry : after.calls[index]? = some (.createAccount name workspaceName phase)) :=
    named.call_step body moves entry
  rcases moves.account_cases sound with ⟨same, _⟩
    | ⟨index, draw, call, account, _, found, drawn, opens, _⟩
  · refine ⟨calls, ?_, ?_⟩
    · intro id user present
      exact named.users id user (same.users id ▸ present)
    · intro id workspace present
      exact named.workspaces id workspace (same.workspaces id ▸ present)
  · have own : validateUserName account.user.name = .ok account.user.name ∧
        validateWorkspaceName account.workspace.name = .ok account.workspace.name := by
      unfold Call.account at drawn
      split at drawn
      · cases drawn
        obtain ⟨user, workspaceNamed, rfl, rfl⟩ := named.calls index _ _ _ found
        exact ⟨user, workspaceNamed⟩
      · cases drawn
    refine ⟨calls, ?_, ?_⟩
    · intro id user present
      rw [opens.users, Function.update_apply] at present
      split at present
      · obtain rfl := Option.some.inj present
        exact own.1
      · exact named.users id user present
    · intro id workspace present
      rw [opens.workspaces, Function.update_apply] at present
      split at present
      · obtain rfl := Option.some.inj present
        exact own.2
      · exact named.workspaces id workspace present

theorem run_named (run : Run (system config) FromBody events state) : state.Named := by
  apply run.invariant
  · constructor <;> simp [system, init, World.empty, Relation.empty, Relation.row, Table.empty]
  · intro _ _ _ _ earlier named body taken
    exact named.step body (step_moves taken) (run_sound earlier)

end State

/-- The names of the current user are names on record. -/
theorem getCurrentUserContext_named {state : State} {userId : Uuid} {context : CurrentUser}
    (named : state.Named)
    (found : getCurrentUserContext state.world userId = some context) :
    validateUserName context.name = .ok context.name ∧
      validateWorkspaceName context.workspaceName = .ok context.workspaceName := by
  unfold getCurrentUserContext at found
  split at found
  · cases found
  · rename_i user present
    obtain ⟨⟨_, member⟩, _, joined⟩ := List.exists_of_findSome?_eq_some found
    obtain ⟨workspace, stored, rfl⟩ := Option.map_eq_some_iff.mp joined
    exact ⟨named.users userId user present, named.workspaces member.workspaceId workspace stored⟩

theorem names_stable :
    (∀ value name, validateUserName value = .ok name →
      Tidy isSpace name.toList ∧ validateUserName name = .ok name) ∧
    (∀ value name, validateWorkspaceName value = .ok name →
      Tidy isSpace name.toList ∧ validateWorkspaceName name = .ok name) ∧
    ∀ config events state, Run (State.system config) FromBody events state →
      ∀ emailAddress userId context, getCurrentUserContext state.world userId = some context →
        currentUserResponseBody emailAddress context =
          (emailAddress context.email).map fun email => { context with email } := by
  refine ⟨?_, ?_, ?_⟩
  · intro value name accepted
    exact ⟨validateUserName_tidy accepted, validateUserName_stable accepted⟩
  · intro value name accepted
    exact ⟨validateWorkspaceName_tidy accepted, validateWorkspaceName_stable accepted⟩
  · intro config events state run emailAddress userId context found
    obtain ⟨user, workspace⟩ := getCurrentUserContext_named (State.run_named run) found
    unfold currentUserResponseBody
    rw [user, workspace]
    cases emailAddress context.email <;> rfl

/-- The account of a run of its registration. -/
theorem names_stable_registers :
    (Tidy isSpace "Ann Lee".toList ∧ validateUserName "Ann Lee" = .ok "Ann Lee") ∧
      (Tidy isSpace "Acme".toList ∧ validateWorkspaceName "Acme" = .ok "Acme") ∧
      ∃ state context, Run (State.system sampleConfig) FromBody registers state ∧
        getCurrentUserContext state.world 1 = some context ∧
        currentUserResponseBody .ok context = (Except.ok context.email).map fun email =>
          { context with email } := by
  refine ⟨names_stable.1 "  Ann \t Lee " "Ann Lee" (by decide),
    names_stable.2.1 " Acme" "Acme" (by decide), ?_⟩
  obtain ⟨state, run, observed⟩ := Run.exists_of_execute (State.system sampleConfig) Any registers
    (fun state => (getCurrentUserContext state.world 1).isSome) (by decide)
  obtain ⟨context, found⟩ := Option.isSome_iff_exists.mp observed
  have named : Run (State.system sampleConfig) FromBody registers state := by
    apply run.of_events
    intro event member before
    rcases List.mem_cons.mp member with rfl | statement
    · exact ⟨"Ann", "Acme", by rfl⟩
    · obtain ⟨draw, _, rfl⟩ := List.mem_map.mp statement
      trivial
  exact ⟨state, context, named, found,
    names_stable.2.2 sampleConfig registers state named .ok 1 context found⟩

end Relays.Auth
