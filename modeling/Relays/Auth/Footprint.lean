import Relays.Auth.System
import Relays.Auth.WorldInvariant

/-! What each call has written at each point of its transaction, and that every statement
writes just that. -/

namespace Relays.Auth

open ReadCommitted

section Queries

variable {tx : Nat} {id : Uuid} {now : Time}

section Accounts

variable {world next : World}

theorem createUser_returns {name email : String}
    (done : createUser world tx now id name email = .returns next) :
    ∃ users, world.users.insert tx id
      { email, name, createdAt := now, updatedAt := now } User.clash = .returns users ∧
      next = { world with users } := by
  unfold createUser at done
  split at done
  · cases done
  · cases done
  · rename_i users inserted
    exact ⟨users, inserted, (Statement.returns.inj done).symm⟩

theorem createWorkspace_returns {name slug : String}
    (done : createWorkspace world tx now id name slug = .returns next) :
    ∃ workspaces, world.workspaces.insert tx id
      { name, slug, createdAt := now, updatedAt := now } Workspace.clash =
        .returns workspaces ∧ next = { world with workspaces } := by
  unfold createWorkspace at done
  split at done
  · cases done
  · cases done
  · rename_i workspaces inserted
    exact ⟨workspaces, inserted, (Statement.returns.inj done).symm⟩

theorem createWorkspaceMembership_returns {workspaceId userId : Uuid} {role : WorkspaceMemberRole}
    (done : createWorkspaceMembership world tx now workspaceId userId role = .returns next) :
    ∃ members, world.members.insert tx (workspaceId, userId)
      { workspaceId, userId, role, joinedAt := now }
        WorkspaceMember.clash = .returns members ∧ next = { world with members } := by
  unfold createWorkspaceMembership at done
  split at done
  · cases done
  · cases done
  · rename_i members inserted
    exact ⟨members, inserted, (Statement.returns.inj done).symm⟩

theorem createUser_moves {name email : String}
    (done : createUser world tx now id name email = .returns next)
    (writes : Writes) :
    world.Moves tx writes
      { writes with
        users := writes.users ++
          [(id, some { email, name, createdAt := now, updatedAt := now })] } next := by
  obtain ⟨_, inserted, rfl⟩ := createUser_returns done
  obtain ⟨fresh, distinct, rfl⟩ := Relation.insert_returns inserted
  exact { World.Moves.stay tx writes world with users := .insert fresh distinct }

theorem createWorkspace_moves {name slug : String}
    (done : createWorkspace world tx now id name slug = .returns next) (writes : Writes) :
    world.Moves tx writes
      { writes with
        workspaces := writes.workspaces ++
          [(id, some { name, slug, createdAt := now, updatedAt := now })] } next := by
  obtain ⟨_, inserted, rfl⟩ := createWorkspace_returns done
  obtain ⟨fresh, distinct, rfl⟩ := Relation.insert_returns inserted
  exact { World.Moves.stay tx writes world with workspaces := .insert fresh distinct }

theorem createWorkspaceMembership_moves {workspaceId userId : Uuid} {role : WorkspaceMemberRole}
    (done : createWorkspaceMembership world tx now workspaceId userId role = .returns next)
    (writes : Writes) :
    world.Moves tx writes
      { writes with
        members := writes.members ++
          [((workspaceId, userId), some { workspaceId, userId, role, joinedAt := now })] }
      next := by
  obtain ⟨_, inserted, rfl⟩ := createWorkspaceMembership_returns done
  obtain ⟨fresh, distinct, rfl⟩ := Relation.insert_returns inserted
  exact { World.Moves.stay tx writes world with members := .insert fresh distinct }

end Accounts

theorem createSession_moves {sessions next : Relation Uuid Nat StoredSession}
    {session : StoredSession}
    (done : createSession sessions tx id session = .returns next)
    (writes : List (Uuid × Option StoredSession)) :
    Relation.Moves Session.clash SessionChanged tx writes sessions
      (writes ++ [(id, some session)]) next := by
  obtain ⟨fresh, distinct, rfl⟩ := Relation.insert_returns done
  exact .insert fresh distinct

/-- What `rotate_session_refresh_token` and `revoke_session` leave of a row. -/
theorem rotated_eq_some {session result : StoredSession} {hash : String} {expiresAt : Time} :
    rotated hash expiresAt session = some result ↔
      result.val = { session.val with refreshTokenHash := hash, expiresAt } :=
  admitted_eq_some

theorem revoked_eq_some {session result : StoredSession} :
    revoked now session = some result ↔ result.val = { session.val with revokedAt := some now } :=
  admitted_eq_some

theorem rotateSessionRefreshToken_returns {sessions next : Relation Uuid Nat StoredSession}
    {result : StoredSession} {hash : String} {expiresAt : Time}
    (done : rotateSessionRefreshToken sessions tx id hash expiresAt =
      .returns (next, some result)) :
    ∃ stored, (sessions.cells id).blocked tx = false ∧ (sessions.cells id).view tx = some stored ∧
      stored.val.revokedAt = none ∧
        result.val = { stored.val with refreshTokenHash := hash, expiresAt } ∧
      sessions.unique tx (Session.clash result) id = .returns () ∧
      next = ⟨sessions.cells.write id tx (some result), sessions.keys⟩ := by
  obtain ⟨updated, distinct⟩ := Relation.updateUnique_returns done
  obtain ⟨stored, free, seen, matched, changed, rfl⟩ := Relation.update_returns updated
  exact ⟨stored, free, seen, by simpa [unrevoked] using matched, rotated_eq_some.mp changed,
    distinct, rfl⟩

theorem rotateSessionRefreshToken_moves {sessions next : Relation Uuid Nat StoredSession}
    {result : StoredSession} {hash : String} {expiresAt : Time}
    (done : rotateSessionRefreshToken sessions tx id hash expiresAt = .returns (next, some result))
    (sound : Relation.Sound Session.clash SessionChanged sessions) :
    Relation.Moves Session.clash SessionChanged tx [] sessions [(id, some result)] next := by
  obtain ⟨stored, free, seen, active, written, distinct, rfl⟩ :=
    rotateSessionRefreshToken_returns done
  refine .rewrite (sound.member_of_view seen) free seen ⟨active, result, rfl, ?_, ?_⟩ ?_
  · rw [written]
  · rw [written]
  · intro version same
    obtain rfl := Option.some.inj same
    exact .inl distinct

theorem revokeSession_returns {sessions next : Relation Uuid Nat StoredSession}
    {result : StoredSession}
    (done : revokeSession sessions tx now id = .returns (next, some result)) :
    ∃ stored, (sessions.cells id).blocked tx = false ∧ (sessions.cells id).view tx = some stored ∧
      stored.val.revokedAt = none ∧ result.val = { stored.val with revokedAt := some now } ∧
      next = ⟨sessions.cells.write id tx (some result), sessions.keys⟩ := by
  obtain ⟨stored, free, seen, matched, changed, rfl⟩ := Relation.update_returns done
  exact ⟨stored, free, seen, by simpa [unrevoked] using matched, revoked_eq_some.mp changed, rfl⟩

theorem revokeSession_moves {sessions next : Relation Uuid Nat StoredSession}
    {result : StoredSession}
    (done : revokeSession sessions tx now id = .returns (next, some result))
    (sound : Relation.Sound Session.clash SessionChanged sessions) :
    Relation.Moves Session.clash SessionChanged tx [] sessions [(id, some result)] next := by
  obtain ⟨stored, free, seen, active, written, rfl⟩ := revokeSession_returns done
  refine .rewrite (sound.member_of_view seen) free seen ⟨active, result, rfl, ?_, ?_⟩ ?_
  · rw [written]
  · rw [written]
  · intro version same
    obtain rfl := Option.some.inj same
    exact .inr fun other => by simp [Session.clash, written]

/-- Whether it finds the row or not, a revocation that is rolled back leaves nothing. -/
theorem revokeSession_rollback {sessions next : Relation Uuid Nat StoredSession}
    {result : Option StoredSession}
    (done : revokeSession sessions tx now id = .returns (next, result)) :
      next.rollback tx = sessions.rollback tx := by
  cases result with
  | none => rw [Relation.update_returns_none done]
  | some result =>
    obtain ⟨stored, free, _, _, _, rfl⟩ := revokeSession_returns done
    exact Relation.rollback_write free _

variable {Owner : Type} [DecidableEq Owner] {table next : OtpTable Owner} {owner : Owner}
    {otp result : StoredOtp Owner}

theorem createOtp_moves (done : createOtp table tx id otp = .returns next)
    (writes : List (Uuid × Option (StoredOtp Owner))) :
    Relation.Moves Otp.clash OtpChanged tx writes table (writes ++ [(id, some otp)]) next := by
  obtain ⟨fresh, distinct, rfl⟩ := Relation.insert_returns done
  exact .insert fresh distinct

omit [DecidableEq Owner] in
theorem consumed_eq_some : consumed now otp = some result ↔
    result.val = { otp.val with consumedAt := some now } :=
  admitted_eq_some

theorem consumeOtp_returns (done : consumeOtp table tx now owner id =
    .returns (next, some result)) :
    ∃ stored, (table.cells id).blocked tx = false ∧ (table.cells id).view tx = some stored ∧
      stored.val.owner = owner ∧ stored.val.consumedAt = none ∧
      result.val = { stored.val with consumedAt := some now } ∧
      next = ⟨table.cells.write id tx (some result), table.keys⟩ := by
  obtain ⟨stored, free, seen, matched, changed, rfl⟩ := Relation.update_returns done
  simp only [unconsumed, Bool.and_eq_true, decide_eq_true_eq, Option.isNone_iff_eq_none] at matched
  exact ⟨stored, free, seen, matched.1, matched.2, consumed_eq_some.mp changed, rfl⟩

theorem consumeOtp_moves (done : consumeOtp table tx now owner id = .returns (next, some result))
    (sound : Relation.Sound Otp.clash OtpChanged table) :
    Relation.Moves Otp.clash OtpChanged tx [] table [(id, some result)] next := by
  obtain ⟨stored, free, seen, _, active, written, rfl⟩ := consumeOtp_returns done
  refine .rewrite (sound.member_of_view seen) free seen ?_ ?_
  · intro version same
    obtain rfl := Option.some.inj same
    exact ⟨active, now, written⟩
  · intro version same
    obtain rfl := Option.some.inj same
    exact .inr fun other => by simp [Otp.clash, written]

theorem deleteOtp_moves (done : deleteOtp table tx owner id = .returns (next, true))
    (sound : Relation.Sound Otp.clash OtpChanged table) :
    Relation.Moves Otp.clash OtpChanged tx [] table [(id, none)] next := by
  obtain ⟨stored, free, seen, _, rfl⟩ := Relation.delete_returns done
  exact .rewrite (sound.member_of_view seen) free seen (by simp [OtpChanged]) (by simp)

theorem deleteOtp_rollback {deleted : Bool}
    (done : deleteOtp table tx owner id = .returns (next, deleted)) :
    next.rollback tx = table.rollback tx := by
  cases deleted with
  | false => rw [Relation.delete_returns_false done]
  | true =>
    obtain ⟨stored, free, _, _, rfl⟩ := Relation.delete_returns done
    exact Relation.rollback_write free _

/-- What one statement of a verification leaves behind: nothing, unless it has consumed a code. -/
def OtpVerification.Leaves (tx : Nat) (table next : OtpTable Owner) : Progress Owner → Prop
  | .continues _ => next = table
  | .raises _ | .fails => next.rollback tx = table.rollback tx
  | .consumed _ _ target result =>
    Relation.Moves Otp.clash OtpChanged tx [] table [(target, some result)] next

theorem OtpVerification.step_leaves {config : Config} {clock : Time} {code : String}
    {phase : Phase Owner}
    {progress : Progress Owner} (sound : Relation.Sound Otp.clash OtpChanged table)
    (taken : step config clock now tx owner code table phase = some (next, progress)) :
    Leaves tx table next progress := by
  cases phase with
  | reading =>
    simp only [step] at taken
    split at taken <;> cases taken <;> rfl
  | read id otp =>
    simp only [step, check] at taken
    split at taken
    · cases taken
      rfl
    · split at taken <;> cases taken <;> rfl
  | expired =>
    simp only [step] at taken
    split at taken <;> cases taken <;> rfl
  | deleting target =>
    simp only [step] at taken
    split at taken
    · cases taken
    · cases taken
      rfl
    · rename_i done
      cases taken
      exact deleteOtp_rollback done
  | matched id otp =>
    simp only [step] at taken
    split at taken <;> cases taken <;> rfl
  | consuming id otp target =>
    simp only [step] at taken
    split at taken
    · cases taken
    · cases taken
      rfl
    · rename_i done
      cases taken
      obtain rfl := Relation.update_returns_none done
      rfl
    · rename_i done
      cases taken
      exact consumeOtp_moves done sound

end Queries

/-- The deleted row of a request that replaces a code. -/
def deletedOtp {Owner : Type} : Option Uuid → List (Uuid × Option (StoredOtp Owner))
  | some target => [(target, none)]
  | none => []

def RequestRegistrationOtp.Phase.writes : RequestRegistrationOtp.Phase → Writes
  | .cleared _ deleted => { registrationOtps := deletedOtp deleted }
  | .created deleted id otp => { registrationOtps := deletedOtp deleted ++ [(id, some otp)] }
  | .begun _ | .unregistered _ | .replacing _ | .deleting _ _ | .ended _ => {}

def VerifyRegistrationOtp.Phase.writes : VerifyRegistrationOtp.Phase → Writes
  | .consumed _ _ target result => { registrationOtps := [(target, some result)] }
  | .checking _ _ | .ended _ => {}

def CreateAccount.Phase.writes : CreateAccount.Phase → Writes
  | .userCreated _ _ userId user => { users := [(userId, some user)] }
  | .workspaceCreated _ userId user workspaceId workspace =>
    { users := [(userId, some user)], workspaces := [(workspaceId, some workspace)] }
  | .memberCreated _ userId user workspaceId workspace member =>
    { users := [(userId, some user)], workspaces := [(workspaceId, some workspace)],
      members := [((workspaceId, userId), some member)] }
  | .sessionCreated userId user workspaceId workspace member sessionId session _ _ =>
    { users := [(userId, some user)], workspaces := [(workspaceId, some workspace)],
      members := [((workspaceId, userId), some member)], sessions := [(sessionId, some session)] }
  | .begun _ _ _ | .unregistered _ _ _ | .available _ _ _ | .ended _ => {}

def RequestLoginOtp.Phase.writes : RequestLoginOtp.Phase → Writes
  | .deleted _ target => { loginOtps := [(target, none)] }
  | .created id otp => { loginOtps := [(id, some otp)] }
  | .begun | .identified _ | .deleting _ _ | .cleared _ | .ended _ => {}

def AuthenticateAccount.Phase.writes : AuthenticateAccount.Phase → Writes
  | .consumed _ _ _ _ target result | .contextual _ _ _ _ target result =>
    { loginOtps := [(target, some result)] }
  | .sessionCreated _ _ target result sessionId session _ _ =>
    { loginOtps := [(target, some result)], sessions := [(sessionId, some session)] }
  | .begun _ | .checking _ _ _ | .ended _ => {}

def RefreshAccessToken.Phase.writes : RefreshAccessToken.Phase → Writes
  | .rotated sessionId _ result _ => { sessions := [(sessionId, some result)] }
  | .begun _ | .read _ _ _ | .expired _ _ _ | .live _ _ | .identified _ _ | .ended _ => {}

def Logout.Phase.writes : Logout.Phase → Writes
  | .revoked sessionId _ result => { sessions := [(sessionId, some result)] }
  | .begun _ | .read _ _ _ | .ended _ => {}

section Workflows

variable {config : Config} {tx : Nat} {world next : World}
    {email otp name workspaceName refreshToken : String}
variable {draw : Draw}

theorem RequestRegistrationOtp.step_moves {phase after : Phase} (sound : world.Sound)
    (taken : step config tx world email draw phase = some (next, after)) :
    world.Moves tx phase.writes after.writes next := by
  cases phase with
  | begun now =>
    simp only [step] at taken
    split at taken
    · cases taken
      exact .rollback _ _ _
    · cases taken
      exact .stay _ _ _
  | unregistered now =>
    simp only [step] at taken
    split at taken
    · cases taken
      exact .stay _ _ _
    · cases taken
      exact .stay _ _ _
  | replacing now =>
    simp only [step] at taken
    split at taken
    · cases taken
      exact .stay _ _ _
    · cases taken
      exact .stay _ _ _
  | deleting now target =>
    simp only [step] at taken
    split at taken
    · cases taken
    · cases taken
      exact .rollback _ _ _
    · rename_i table deleted done
      cases taken
      cases deleted with
      | true => exact { World.Moves.stay tx {} world
        with registrationOtps := deleteOtp_moves done sound.registrationOtps }
      | false =>
        obtain rfl := Relation.delete_returns_false done
        exact .stay _ _ _
  | cleared now deleted =>
    simp only [step] at taken
    split at taken
    · cases taken
      exact .rollback _ _ _
    · split at taken
      · cases taken
      · cases taken
        exact .rollback _ _ _
      · rename_i done
        cases taken
        exact { World.Moves.stay tx {} world with
          registrationOtps := createOtp_moves done _
          issuedRegistrationOtps := List.subset_append_left _ _ }
  | created deleted id otp =>
    cases taken
    exact .commit _ _ _
  | ended outcome => cases taken

theorem registrationOtps_rollback {table : OtpTable String}
    (same : table.rollback tx = world.registrationOtps.rollback tx) :
    World.rollback { world with registrationOtps := table } tx = world.rollback tx := by
  simp only [World.rollback, same]

theorem loginOtps_rollback {table : OtpTable Uuid}
    (same : table.rollback tx = world.loginOtps.rollback tx) :
    World.rollback { world with loginOtps := table } tx = world.rollback tx := by
  simp only [World.rollback, same]

theorem sessions_rollback {sessions : Relation Uuid Nat StoredSession}
    (same : sessions.rollback tx = world.sessions.rollback tx) :
    World.rollback { world with sessions } tx = world.rollback tx := by
  simp only [World.rollback, same]

theorem VerifyRegistrationOtp.step_moves {phase after : Phase} (sound : world.Sound)
    (taken : step config tx world email otp phase = some (next, after)) :
    world.Moves tx phase.writes after.writes next := by
  cases phase with
  | checking now phase =>
    simp only [step] at taken
    split at taken
    · cases taken
    all_goals
      rename_i checked
      have leaves := OtpVerification.step_leaves sound.registrationOtps checked
      cases taken
    · rw [OtpVerification.Leaves] at leaves
      subst leaves
      exact .stay _ _ _
    · rw [registrationOtps_rollback leaves]
      exact .rollback _ _ _
    · rw [registrationOtps_rollback leaves]
      exact .rollback _ _ _
    · exact { World.Moves.stay tx {} world with registrationOtps := leaves }
  | consumed id row target result =>
    cases taken
    exact .commit _ _ _
  | ended outcome => cases taken

theorem CreateAccount.step_moves {phase after : Phase}
    (taken : step config tx world name workspaceName draw phase = some (next, after)) :
    world.Moves tx phase.writes after.writes next := by
  cases phase with
  | begun now email slug =>
    simp only [step] at taken
    split at taken
    · cases taken
      exact .rollback _ _ _
    · cases taken
      exact .stay _ _ _
  | unregistered now email slug =>
    simp only [step] at taken
    split at taken
    · cases taken
      exact .rollback _ _ _
    · cases taken
      exact .stay _ _ _
  | available now email slug =>
    simp only [step] at taken
    split at taken
    · cases taken
    · cases taken
      exact .rollback _ _ _
    · rename_i done
      cases taken
      exact createUser_moves done _
  | userCreated now slug userId user =>
    simp only [step] at taken
    split at taken
    · cases taken
    · cases taken
      exact .rollback _ _ _
    · rename_i done
      cases taken
      exact createWorkspace_moves done _
  | workspaceCreated now userId user workspaceId workspace =>
    simp only [step] at taken
    split at taken
    · cases taken
    · cases taken
      exact .rollback _ _ _
    · rename_i done
      cases taken
      exact createWorkspaceMembership_moves done _
  | memberCreated now userId user workspaceId workspace member =>
    simp only [step] at taken
    split at taken
    · cases taken
      exact .rollback _ _ _
    · split at taken
      · cases taken
      · cases taken
        exact .rollback _ _ _
      · rename_i done
        cases taken
        exact { World.Moves.stay tx
          (Phase.memberCreated now userId user workspaceId workspace member).writes world with
          sessions := createSession_moves done _
          issuedTokens := List.subset_append_left _ _ }
  | sessionCreated userId user workspaceId workspace member sessionId session accessToken
    refreshToken =>
    cases taken
    exact .commit _ _ _
  | ended outcome => cases taken

theorem RequestLoginOtp.step_moves {phase after : Phase} (sound : world.Sound)
    (taken : step config tx world email draw phase = some (next, after)) :
    world.Moves tx phase.writes after.writes next := by
  cases phase with
  | begun =>
    simp only [step] at taken
    split at taken
    · cases taken
      exact .stay _ _ _
    · cases taken
      exact .stay _ _ _
  | identified userId =>
    simp only [step] at taken
    split at taken
    · cases taken
      exact .stay _ _ _
    · cases taken
      exact .stay _ _ _
  | deleting userId target =>
    simp only [step] at taken
    split at taken
    · cases taken
    · cases taken
      exact .rollback _ _ _
    · rename_i table deleted done
      cases taken
      cases deleted with
      | true => exact { World.Moves.stay tx {} world
        with loginOtps := deleteOtp_moves done sound.loginOtps }
      | false =>
        obtain rfl := Relation.delete_returns_false done
        exact .stay _ _ _
  | deleted userId target =>
    cases taken
    exact .commit _ _ _
  | cleared userId =>
    simp only [step] at taken
    split at taken
    · cases taken
      exact .rollback _ _ _
    · split at taken
      · cases taken
      · cases taken
        exact .rollback _ _ _
      · rename_i done
        cases taken
        exact { World.Moves.stay tx {} world with
          loginOtps := createOtp_moves done _
          issuedLoginOtps := List.subset_append_left _ _ }
  | created id otp =>
    cases taken
    exact .commit _ _ _
  | ended outcome => cases taken

theorem AuthenticateAccount.step_moves {phase after : Phase} (sound : world.Sound)
    (taken : step config tx world email otp draw phase = some (next, after)) :
    world.Moves tx phase.writes after.writes next := by
  cases phase with
  | begun now =>
    simp only [step] at taken
    split at taken
    · cases taken
      exact .rollback _ _ _
    · cases taken
      exact .stay _ _ _
  | checking now userId phase =>
    simp only [step] at taken
    split at taken
    · cases taken
    all_goals
      rename_i checked
      have leaves := OtpVerification.step_leaves sound.loginOtps checked
      cases taken
    · rw [OtpVerification.Leaves] at leaves
      subst leaves
      exact .stay _ _ _
    · rw [loginOtps_rollback leaves]
      exact .rollback _ _ _
    · rw [loginOtps_rollback leaves]
      exact .rollback _ _ _
    · exact { World.Moves.stay tx {} world with loginOtps := leaves }
  | consumed now userId id row target result =>
    simp only [step] at taken
    split at taken
    · cases taken
      exact .rollback _ _ _
    · cases taken
      exact .stay _ _ _
  | contextual now userId id row target result =>
    simp only [step] at taken
    split at taken
    · cases taken
      exact .rollback _ _ _
    · split at taken
      · cases taken
      · cases taken
        exact .rollback _ _ _
      · rename_i done
        cases taken
        exact { World.Moves.stay tx (Phase.contextual now userId id row target result).writes world
          with
          sessions := createSession_moves done _
          issuedTokens := List.subset_append_left _ _ }
  | sessionCreated id row target result sessionId session accessToken refreshToken =>
    cases taken
    exact .commit _ _ _
  | ended outcome => cases taken

theorem RefreshAccessToken.step_moves {phase after : Phase} (sound : world.Sound)
    (taken : step config tx world refreshToken draw phase = some (next, after)) :
    world.Moves tx phase.writes after.writes next := by
  cases phase with
  | begun now =>
    simp only [step] at taken
    split at taken
    · cases taken
      exact .rollback _ _ _
    · cases taken
      exact .stay _ _ _
  | read now sessionId session =>
    simp only [step] at taken
    split at taken
    · cases taken
      exact .stay _ _ _
    · cases taken
      exact .stay _ _ _
  | expired now sessionId session =>
    simp only [step] at taken
    split at taken
    · cases taken
    · cases taken
      exact .rollback _ _ _
    · rename_i done
      cases taken
      rw [sessions_rollback (revokeSession_rollback done)]
      exact .rollback _ _ _
  | live sessionId session =>
    simp only [step] at taken
    split at taken
    · cases taken
      exact .rollback _ _ _
    · cases taken
      exact .stay _ _ _
  | identified sessionId session =>
    simp only [step] at taken
    split at taken
    · cases taken
    · cases taken
      exact .rollback _ _ _
    · cases taken
      exact .rollback _ _ _
    · rename_i done
      cases taken
      exact { World.Moves.stay tx {} world with
        sessions := rotateSessionRefreshToken_moves done sound.sessions
        issuedTokens := List.subset_append_left _ _ }
  | rotated sessionId session result newToken =>
    cases taken
    exact .commit _ _ _
  | ended outcome => cases taken

theorem Logout.step_moves {phase after : Phase} (sound : world.Sound)
    (taken : step config tx world refreshToken phase = some (next, after)) :
    world.Moves tx phase.writes after.writes next := by
  cases phase with
  | begun now =>
    simp only [step] at taken
    split at taken
    · cases taken
      exact .rollback _ _ _
    · cases taken
      exact .stay _ _ _
  | read now sessionId session =>
    simp only [step] at taken
    split at taken
    · cases taken
    · cases taken
      exact .rollback _ _ _
    · cases taken
      exact .rollback _ _ _
    · rename_i done
      cases taken
      exact { World.Moves.stay tx {} world
        with sessions := revokeSession_moves done sound.sessions }
  | revoked sessionId session result =>
    cases taken
    exact .commit _ _ _
  | ended outcome => cases taken

end Workflows

/-- What a call has written and not yet committed. -/
def Call.writes : Call → Writes
  | .requestRegistrationOtp _ phase => phase.writes
  | .verifyRegistrationOtp _ _ phase => phase.writes
  | .createAccount _ _ phase => phase.writes
  | .requestLoginOtp _ phase => phase.writes
  | .authenticateAccount _ _ phase => phase.writes
  | .refreshAccessToken _ phase => phase.writes
  | .logout _ phase => phase.writes

theorem Call.step_moves {config : Config} {tx : Nat} {world next : World} {draw : Draw}
    {call after : Call}
    (sound : world.Sound) (taken : call.step config tx world draw = some (next, after)) :
    world.Moves tx call.writes after.writes next := by
  cases call with
  | requestRegistrationOtp email phase =>
    obtain ⟨phase, moved, rfl⟩ := Processes.mapped_eq_some.mp taken
    exact RequestRegistrationOtp.step_moves sound moved
  | verifyRegistrationOtp email otp phase =>
    obtain ⟨phase, moved, rfl⟩ := Processes.mapped_eq_some.mp taken
    exact VerifyRegistrationOtp.step_moves sound moved
  | createAccount name workspaceName phase =>
    obtain ⟨phase, moved, rfl⟩ := Processes.mapped_eq_some.mp taken
    exact CreateAccount.step_moves moved
  | requestLoginOtp email phase =>
    obtain ⟨phase, moved, rfl⟩ := Processes.mapped_eq_some.mp taken
    exact RequestLoginOtp.step_moves sound moved
  | authenticateAccount email otp phase =>
    obtain ⟨phase, moved, rfl⟩ := Processes.mapped_eq_some.mp taken
    exact AuthenticateAccount.step_moves sound moved
  | refreshAccessToken refreshToken phase =>
    obtain ⟨phase, moved, rfl⟩ := Processes.mapped_eq_some.mp taken
    exact RefreshAccessToken.step_moves sound moved
  | logout refreshToken phase =>
    obtain ⟨phase, moved, rfl⟩ := Processes.mapped_eq_some.mp taken
    exact Logout.step_moves sound moved

end Relays.Auth
