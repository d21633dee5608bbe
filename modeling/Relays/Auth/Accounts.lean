import Relays.Auth.Invariant
import Mathlib.Logic.Relator

/-! Accounts: a user, a workspace and the membership that joins them are committed together or
not at all, and no statement changes them later. -/

namespace Relays.Auth

open ReadCommitted Transition

/-- The rows of an account that a registration is about to commit. -/
structure Account where
  userId : Uuid
  user : User
  workspaceId : Uuid
  workspace : Workspace
  member : WorkspaceMember

def Call.account : Call → Option Account
  | .createAccount _ _ (.sessionCreated userId user workspaceId workspace member _ _ _ _) =>
    some ⟨userId, user, workspaceId, workspace, member⟩
  | _ => none

/-- What a registration of this email has drawn up so far. -/
def CreateAccount.Phase.Describes (email : String) : CreateAccount.Phase → Prop
  | .begun _ verified _ | .unregistered _ verified _ | .available _ verified _ => verified = email
  | .userCreated _ _ _ user | .workspaceCreated _ _ user _ _ => user.email = email
  | .memberCreated _ userId user workspaceId _ member
  | .sessionCreated userId user workspaceId _ member _ _ _ _ =>
    user.email = email ∧ member.workspaceId = workspaceId ∧ member.userId = userId ∧
      member.role = .owner
  | .ended _ => True

namespace World

/-- The committed users, workspaces and memberships are the same. -/
structure SameAccounts (before after : World) : Prop where
  users : ∀ id, after.users.row id = before.users.row id
  workspaces : ∀ id, after.workspaces.row id = before.workspaces.row id
  members : ∀ key, after.members.row key = before.members.row key

variable {world next : World} {tx : Nat} {writes written : Writes}

theorem SameAccounts.refl (world : World) : SameAccounts world world :=
  ⟨fun _ => rfl, fun _ => rfl, fun _ => rfl⟩

theorem SameAccounts.rollback (world : World) (tx : Nat) : SameAccounts world (world.rollback tx) :=
  ⟨fun _ => Table.rollback_committed _, fun _ => Table.rollback_committed _,
    fun _ => Table.rollback_committed _⟩

/-- A statement that does not end a transaction commits nothing. -/
theorem Moves.sameAccounts (moves : world.Moves tx writes written next)
    (owned : world.Owned tx writes)
    (users : writes.users = [] ∨ written.users ≠ [])
    (workspaces : writes.workspaces = [] ∨ written.workspaces ≠ [])
    (members : writes.members = [] ∨ written.members ≠ []) : SameAccounts world next := by
  constructor
  · intro id
    rcases moves.users.row_cases owned.users id with same | ⟨_, member, _, nothing, _⟩
    · exact same
    · rcases users with none' | running
      · simp [none'] at member
      · exact absurd nothing running
  · intro id
    rcases moves.workspaces.row_cases owned.workspaces id with same | ⟨_, member, _, nothing, _⟩
    · exact same
    · rcases workspaces with none' | running
      · simp [none'] at member
      · exact absurd nothing running
  · intro key
    rcases moves.members.row_cases owned.members key with same | ⟨_, member, _, nothing, _⟩
    · exact same
    · rcases members with none' | running
      · simp [none'] at member
      · exact absurd nothing running

end World

section Steps

variable {config : Config} {tx : Nat} {world next : World} {name workspaceName email : String}
    {draw : Draw}

theorem CreateAccount.start_describes {clock : Time} {token : String}
    (verified : decodeRegistrationToken config clock token = .ok email) :
    (CreateAccount.start config clock token workspaceName).Describes email := by
  unfold CreateAccount.start
  rw [verified]
  dsimp only
  split
  · trivial
  · rfl

theorem CreateAccount.step_describes {phase after : Phase} (described : phase.Describes email)
    (taken : step config tx world name workspaceName draw phase = some (next, after)) :
      after.Describes email := by
  cases phase with
  | begun | unregistered =>
    simp only [step] at taken
    split at taken
    · cases taken
      trivial
    · cases taken
      exact described
  | available | userCreated =>
    simp only [step] at taken
    split at taken
    · cases taken
    · cases taken
      trivial
    · cases taken
      exact described
  | workspaceCreated =>
    simp only [step] at taken
    split at taken
    · cases taken
    · cases taken
      trivial
    · cases taken
      exact ⟨described, rfl, rfl, rfl⟩
  | memberCreated =>
    simp only [step] at taken
    split at taken
    · cases taken
      trivial
    · split at taken
      · cases taken
      · cases taken
        trivial
      · cases taken
        exact described
  | sessionCreated =>
    cases taken
    trivial
  | ended => cases taken

/-- A registration commits its account at once, and nothing before. -/
theorem CreateAccount.step_accounts {phase after : Phase} (owned : world.Owned tx phase.writes)
    (taken : step config tx world name workspaceName draw phase = some (next, after)) :
    world.SameAccounts next ∧
      (∀ accessToken refreshToken, after ≠ .ended (.tokens accessToken refreshToken)) ∨
      ∃ account, (Call.createAccount name workspaceName phase).account = some account ∧
        next = world.commit tx := by
  have moves := step_moves taken
  cases phase with
  | begun | unregistered =>
    refine .inl ⟨moves.sameAccounts owned (.inl rfl) (.inl rfl) (.inl rfl), ?_⟩
    simp only [step] at taken
    split at taken <;> cases taken <;> simp
  | available =>
    refine .inl ⟨moves.sameAccounts owned (.inl rfl) (.inl rfl) (.inl rfl), ?_⟩
    simp only [step] at taken
    split at taken <;> cases taken <;> simp
  | userCreated =>
    simp only [step] at taken
    split at taken
    · cases taken
    · cases taken
      exact .inl ⟨.rollback _ _, by simp⟩
    · cases taken
      exact .inl ⟨moves.sameAccounts owned (.inr (by simp [Phase.writes])) (.inl rfl) (.inl rfl),
        by simp⟩
  | workspaceCreated =>
    simp only [step] at taken
    split at taken
    · cases taken
    · cases taken
      exact .inl ⟨.rollback _ _, by simp⟩
    · cases taken
      exact .inl ⟨moves.sameAccounts owned (.inr (by simp [Phase.writes]))
        (.inr (by simp [Phase.writes])) (.inl rfl),
        by simp⟩
  | memberCreated =>
    simp only [step] at taken
    split at taken
    · cases taken
      exact .inl ⟨.rollback _ _, by simp⟩
    · split at taken
      · cases taken
      · cases taken
        exact .inl ⟨.rollback _ _, by simp⟩
      · cases taken
        exact .inl ⟨moves.sameAccounts owned (.inr (by simp [Phase.writes]))
          (.inr (by simp [Phase.writes]))
          (.inr (by simp [Phase.writes])), by simp⟩
  | sessionCreated =>
    cases taken
    exact .inr ⟨_, rfl, rfl⟩
  | ended => cases taken

end Steps

/-- The call is a registration that has returned tokens. -/
def Call.registered : Call → Bool
  | .createAccount _ _ (.ended (.tokens _ _)) => true
  | _ => false

/-- Only registrations write to the tables of accounts. -/
theorem Call.step_accounts {config : Config} {tx : Nat} {world next : World} {draw : Draw}
    {call after : Call}
    (sound : world.Sound) (owned : world.Owned tx call.writes)
    (taken : call.step config tx world draw = some (next, after)) :
    world.SameAccounts next ∧ after.registered = false ∨
      ∃ account, call.account = some account ∧ next = world.commit tx := by
  have moves := Call.step_moves sound taken
  cases call with
  | createAccount name workspaceName phase =>
    obtain ⟨phase, moved, rfl⟩ := Processes.mapped_eq_some.mp taken
    rcases CreateAccount.step_accounts owned moved with ⟨same, running⟩ | committed
    · refine .inl ⟨same, ?_⟩
      unfold registered
      split
      · rename_i shape
        cases shape
        exact absurd rfl (running _ _)
      · rfl
    · exact .inr committed
  | requestRegistrationOtp _ phase | verifyRegistrationOtp _ _ phase | requestLoginOtp _ phase
  | authenticateAccount _ _ phase | refreshAccessToken _ phase | logout _ phase =>
    obtain ⟨_, _, rfl⟩ := Processes.mapped_eq_some.mp taken
    refine .inl ⟨moves.sameAccounts owned (.inl ?_) (.inl ?_) (.inl ?_), rfl⟩
    all_goals cases phase <;> rfl

theorem getWorkspaceContext_some {world : World} {tx : Nat} {userId : Uuid} {key : Uuid × Uuid}
    {member : WorkspaceMember} (hit : getWorkspaceContext world tx userId = some (key, member)) :
    (world.members.cells key).view tx = some member ∧ member.userId = userId := by
  unfold getWorkspaceContext at hit
  split at hit
  · cases hit
  · obtain ⟨_, seen, matched⟩ := Relation.find_some hit
    exact ⟨seen, by simpa using matched⟩

/-- What a registration that is about to commit has written. -/
theorem Call.account_writes {call : Call} {account : Account}
    (drawn : call.account = some account) :
    call.writes.users = [(account.userId, some account.user)] ∧
      call.writes.workspaces = [(account.workspaceId, some account.workspace)] ∧
      call.writes.members = [((account.workspaceId, account.userId), some account.member)] := by
  unfold Call.account at drawn
  split at drawn
  · cases drawn
    exact ⟨rfl, rfl, rfl⟩
  · cases drawn

namespace World

/-- The user is a member of the workspace. -/
def Joined (world : World) (workspaceId userId : Uuid) : Prop :=
  (world.members.row (workspaceId, userId)).isSome = true

/-- Memberships pair the users with the workspaces, as their owners. -/
structure Paired (world : World) : Prop where
  members : ∀ workspaceId userId member, world.members.row (workspaceId, userId) = some member →
    member.workspaceId = workspaceId ∧ member.userId = userId ∧ member.role = .owner ∧
      (world.users.row userId).isSome = true ∧ (world.workspaces.row workspaceId).isSome = true
  users : ∀ userId, (world.users.row userId).isSome = true →
    ∃ workspaceId, world.Joined workspaceId userId
  workspaces : ∀ workspaceId, (world.workspaces.row workspaceId).isSome = true →
    ∃ userId, world.Joined workspaceId userId
  unique : Relator.BiUnique world.Joined

variable {world next : World} {tx : Nat} {account : Account}

theorem empty_paired : empty.Paired := by
  constructor
  · intro _ _ _ present
    cases present
  · intro _ present
    cases present
  · intro _ present
    cases present
  · constructor
    · intro _ _ _ joined
      cases joined
    · intro _ _ _ joined
      cases joined

theorem SameAccounts.joined (same : SameAccounts world next) : next.Joined = world.Joined := by
  funext workspaceId userId
  rw [Joined, Joined, same.members]

theorem SameAccounts.paired (same : SameAccounts world next)
    (paired : world.Paired) : next.Paired := by
  constructor
  · intro workspaceId userId member present
    rw [same.users, same.workspaces]
    exact paired.members workspaceId userId member ((same.members _).symm.trans present)
  · intro userId present
    rw [same.joined]
    exact paired.users userId (by rw [← same.users]; exact present)
  · intro workspaceId present
    rw [same.joined]
    exact paired.workspaces workspaceId (by rw [← same.workspaces]; exact present)
  · rw [same.joined]
    exact paired.unique

/-- The committed rows become those of one more account, of a new user and a new workspace. -/
structure Opens (before after : World) (account : Account) : Prop where
  users : after.users.row = Function.update before.users.row account.userId (some account.user)
  workspaces : after.workspaces.row =
    Function.update before.workspaces.row account.workspaceId (some account.workspace)
  members : after.members.row =
    Function.update before.members.row (account.workspaceId, account.userId) (some account.member)
  newUser : before.users.row account.userId = none
  newWorkspace : before.workspaces.row account.workspaceId = none

theorem Opens.joined (opens : Opens world next account) {workspaceId userId : Uuid} :
    next.Joined workspaceId userId ↔
      workspaceId = account.workspaceId ∧ userId = account.userId ∨
        world.Joined workspaceId userId := by
  unfold Joined
  rw [opens.members]
  by_cases own : (workspaceId, userId) = (account.workspaceId, account.userId)
  · obtain ⟨rfl, rfl⟩ := Prod.mk.inj own
    simp
  · rw [Function.update_of_ne own]
    simp only [Prod.mk.injEq] at own
    simp [own]

theorem Paired.joined (paired : world.Paired) {workspaceId userId : Uuid}
    (joined : world.Joined workspaceId userId) :
    (world.users.row userId).isSome = true ∧ (world.workspaces.row workspaceId).isSome = true := by
  obtain ⟨member, present⟩ := Option.isSome_iff_exists.mp joined
  exact (paired.members workspaceId userId member present).2.2.2

theorem Opens.paired (opens : Opens world next account) (paired : world.Paired)
    (member : account.member.workspaceId = account.workspaceId ∧
      account.member.userId = account.userId ∧
      account.member.role = .owner) : next.Paired := by
  have foreignUser (workspaceId : Uuid) : ¬ world.Joined workspaceId account.userId := by
    intro joined
    simpa [opens.newUser] using (paired.joined joined).1
  have foreignWorkspace (userId : Uuid) : ¬ world.Joined account.workspaceId userId := by
    intro joined
    simpa [opens.newWorkspace] using (paired.joined joined).2
  have users (userId : Uuid) (present : (world.users.row userId).isSome = true) :
      (next.users.row userId).isSome = true := by
    rw [opens.users, Function.update_apply]
    split
    · rfl
    · exact present
  have workspaces (workspaceId : Uuid) (present : (world.workspaces.row workspaceId).isSome =
    true) :
      (next.workspaces.row workspaceId).isSome = true := by
    rw [opens.workspaces, Function.update_apply]
    split
    · rfl
    · exact present
  constructor
  · intro workspaceId userId found present
    rw [opens.members, Function.update_apply] at present
    split at present
    · rename_i own
      obtain ⟨rfl, rfl⟩ := Prod.mk.inj own
      obtain rfl := Option.some.inj present
      exact ⟨member.1, member.2.1, member.2.2, by simp [opens.users], by simp [opens.workspaces]⟩
    · obtain ⟨workspace, user, role, hasUser, hasWorkspace⟩ :=
        paired.members workspaceId userId found present
      exact ⟨workspace, user, role, users userId hasUser, workspaces workspaceId hasWorkspace⟩
  · intro userId present
    rw [opens.users, Function.update_apply] at present
    split at present
    · rename_i own
      exact ⟨account.workspaceId, opens.joined.mpr (.inl ⟨rfl, own⟩)⟩
    · obtain ⟨workspaceId, joined⟩ := paired.users userId present
      exact ⟨workspaceId, opens.joined.mpr (.inr joined)⟩
  · intro workspaceId present
    rw [opens.workspaces, Function.update_apply] at present
    split at present
    · rename_i own
      exact ⟨account.userId, opens.joined.mpr (.inl ⟨own, rfl⟩)⟩
    · obtain ⟨userId, joined⟩ := paired.workspaces workspaceId present
      exact ⟨userId, opens.joined.mpr (.inr joined)⟩
  · constructor
    · intro one two userId left right
      rcases opens.joined.mp left with ⟨rfl, rfl⟩ | left <;>
        rcases opens.joined.mp right with ⟨rfl, same⟩ | right
      · rfl
      · exact absurd right (foreignUser two)
      · exact absurd (same ▸ left) (foreignUser one)
      · exact paired.unique.1 left right
    · intro workspaceId one two left right
      rcases opens.joined.mp left with ⟨rfl, rfl⟩ | left <;>
        rcases opens.joined.mp right with ⟨same, rfl⟩ | right
      · rfl
      · exact absurd right (foreignWorkspace two)
      · exact absurd (same ▸ left) (foreignWorkspace one)
      · exact paired.unique.2 left right

end World

end Relays.Auth
