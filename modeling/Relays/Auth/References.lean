import Relays.Auth.AccountIntegrity
import Relays.Auth.OtpRecords
import Relays.Auth.SessionRows

/-! Sessions and login codes are those of users that are there: no statement checks the reference,
and none needs to. -/

namespace Relays.Auth

open ReadCommitted Transition

def World.HasUser (world : World) (userId : Uuid) : Prop := (world.users.row userId).isSome = true

/-- The user that a login has looked up. -/
def Call.namedUser : Call → Option Uuid
  | .requestLoginOtp _ (.identified userId) | .requestLoginOtp _ (.deleting userId _)
  | .requestLoginOtp _ (.deleted userId _) | .requestLoginOtp _ (.cleared userId)
  | .authenticateAccount _ _ (.checking _ userId _)
  | .authenticateAccount _ _ (.consumed _ userId _ _ _ _)
  | .authenticateAccount _ _ (.contextual _ userId _ _ _ _) => some userId
  | _ => none

section Statements

variable {config : Config} {tx : Nat} {world next : World} {draw : Draw} {call after : Call}
    {userId id : Uuid}
variable {session : StoredSession}

theorem Request.start_namedUser (config : Config) (clock : Time) (request : Request) :
    (request.start config clock).namedUser = none := by
  cases request with
  | requestLoginOtp email permitted => cases permitted <;> rfl
  | requestRegistrationOtp | verifyRegistrationOtp | createAccount | authenticateAccount
  | refreshAccessToken
  | logout => rfl

theorem Call.fail_namedUser (call : Call) : call.fail.namedUser = none := by cases call <;> rfl

theorem getUserByEmail_sees {email : String} {user : User}
    (hit : getUserByEmail world tx email = some (userId, user)) :
    (world.users.cells userId).view tx = some user := (Relation.find_some hit).2.1

/-- A login looks its user up, and keeps it. -/
theorem Call.step_namedUser (taken : call.step config tx world draw = some (next, after))
    (named : after.namedUser = some userId) :
    call.namedUser = some userId ∨ call.writes.users = [] ∧
      ∃ user, (world.users.cells userId).view tx = some user := by
  cases call with
  | requestLoginOtp email phase =>
    obtain ⟨last, moved, rfl⟩ := Processes.mapped_eq_some.mp taken
    cases phase with
    | begun =>
      simp only [RequestLoginOtp.step] at moved
      split at moved
      · cases moved
        cases named
      · rename_i hit
        cases moved
        cases named
        exact .inr ⟨rfl, _, getUserByEmail_sees hit⟩
    | identified =>
      simp only [RequestLoginOtp.step] at moved
      split at moved <;> cases moved <;> exact .inl named
    | deleting =>
      simp only [RequestLoginOtp.step] at moved
      split at moved
      · cases moved
      · cases moved
        cases named
      · rename_i deleted _
        cases moved
        cases deleted <;> exact .inl named
    | deleted =>
      cases moved
      exact .inl named
    | cleared =>
      simp only [RequestLoginOtp.step] at moved
      split at moved
      · cases moved
        cases named
      · split at moved <;> cases moved <;> cases named
    | created =>
      cases moved
      cases named
    | ended => cases moved
  | authenticateAccount email code phase =>
    obtain ⟨last, moved, rfl⟩ := Processes.mapped_eq_some.mp taken
    have passes := AuthenticateAccount.step_passes moved
    cases passes with
    | identifies =>
      simp only [AuthenticateAccount.step] at moved
      split at moved
      · cases moved
      · rename_i hit
        cases moved
        cases named
        exact .inr ⟨rfl, _, getUserByEmail_sees hit⟩
    | checks | consumes | finds => exact .inl named
    | opens | succeeds | fails => cases named
  | requestRegistrationOtp | verifyRegistrationOtp | createAccount | refreshAccessToken | logout =>
    obtain ⟨last, _, rfl⟩ := Processes.mapped_eq_some.mp taken
    cases named

theorem newSession_userId {now expiresAt : Time} {hash : String}
    (made : newSession now userId hash expiresAt = some session) : session.val.userId = userId := by
  rw [admitted_eq_some.mp made]

/-- A session is written for the user that the call has looked up or created, or in place of a
row. -/
theorem Call.step_session_user (owned : world.sessions.Owned tx call.writes.sessions)
    (taken : call.step config tx world draw = some (next, after))
    (member : (id, some session) ∈ after.writes.sessions) :
    (id, some session) ∈ call.writes.sessions ∨ call.namedUser = some session.val.userId ∨
      (∃ user, (session.val.userId, some user) ∈ after.writes.users) ∨
      ∃ stored, world.sessions.row id = some stored ∧ session.val.userId = stored.val.userId := by
  cases call with
  | createAccount name workspaceName phase =>
    obtain ⟨last, moved, rfl⟩ := Processes.mapped_eq_some.mp taken
    cases phase with
    | memberCreated now userId user =>
      simp only [CreateAccount.step] at moved
      split at moved
      · cases moved
        cases member
      · rename_i made
        split at moved
        · cases moved
        · cases moved
          cases member
        · cases moved
          cases List.mem_singleton.mp member
          rw [newSession_userId made]
          exact .inr (.inr (.inl ⟨user, List.mem_singleton.mpr rfl⟩))
    | begun | unregistered =>
      simp only [CreateAccount.step] at moved
      split at moved <;> cases moved <;> cases member
    | available | userCreated | workspaceCreated =>
      simp only [CreateAccount.step] at moved
      split at moved <;> cases moved <;> cases member
    | sessionCreated =>
      cases moved
      cases member
    | ended => cases moved
  | authenticateAccount email code phase =>
    obtain ⟨last, moved, rfl⟩ := Processes.mapped_eq_some.mp taken
    cases phase with
    | contextual now userId =>
      simp only [AuthenticateAccount.step] at moved
      split at moved
      · cases moved
        cases member
      · rename_i made
        split at moved
        · cases moved
        · cases moved
          cases member
        · cases moved
          cases List.mem_singleton.mp member
          rw [newSession_userId made]
          exact .inr (.inl rfl)
    | begun | checking | consumed | sessionCreated | ended =>
      cases AuthenticateAccount.step_passes moved <;> cases member
  | refreshAccessToken presented phase =>
    obtain ⟨last, moved, rfl⟩ := Processes.mapped_eq_some.mp taken
    cases last with
    | rotated =>
      cases List.mem_singleton.mp member
      obtain ⟨rfl, _, done, _⟩ := RefreshAccessToken.step_rotated moved
      obtain ⟨stored, _, seen, _, written, _⟩ := rotateSessionRefreshToken_returns done
      rw [Relation.view_of_unwritten owned] at seen
      exact .inr (.inr (.inr ⟨stored, seen, by rw [written]⟩))
    | _ => cases member
  | logout presented phase =>
    obtain ⟨last, moved, rfl⟩ := Processes.mapped_eq_some.mp taken
    cases last with
    | revoked =>
      cases List.mem_singleton.mp member
      obtain ⟨_, rfl, done⟩ := Logout.step_revoked moved
      obtain ⟨stored, _, seen, _, written, _⟩ := revokeSession_returns done
      rw [Relation.view_of_unwritten owned] at seen
      exact .inr (.inr (.inr ⟨stored, seen, by rw [written]⟩))
    | _ => cases member
  | requestRegistrationOtp | verifyRegistrationOtp | requestLoginOtp =>
    obtain ⟨last, moved, rfl⟩ := Processes.mapped_eq_some.mp taken
    cases last <;> cases member

/-- The call that has written a user and its session commits both at once. -/
theorem Call.step_opens {user : User} (taken : call.step config tx world draw = some (next, after))
    (opens : (id, some session) ∈ call.writes.sessions)
    (created : (userId, some user) ∈ call.writes.users) :
    next = world.commit tx ∧ after.writes = {} := by
  cases call with
  | createAccount name workspaceName phase =>
    obtain ⟨last, moved, rfl⟩ := Processes.mapped_eq_some.mp taken
    cases phase with
    | sessionCreated =>
      cases moved
      exact ⟨rfl, rfl⟩
    | _ => cases opens
  | requestRegistrationOtp _ phase | verifyRegistrationOtp _ _ phase | requestLoginOtp _ phase
  | authenticateAccount _ _ phase | refreshAccessToken _ phase | logout _ phase => cases phase <;>
    cases created

/-- A membership is written after its user and its workspace, in one transaction. -/
theorem Call.writes_member {workspaceId : Uuid} {member : WorkspaceMember}
    (written : ((workspaceId, userId), some member) ∈ call.writes.members) :
    (∃ user, (userId, some user) ∈ call.writes.users) ∧
      ∃ workspace, (workspaceId, some workspace) ∈ call.writes.workspaces := by
  cases call with
  | createAccount name workspaceName phase =>
    cases phase with
    | memberCreated _ _ user _ workspace | sessionCreated _ user _ workspace =>
      cases List.mem_singleton.mp written
      exact ⟨⟨user, List.mem_singleton.mpr rfl⟩, workspace, List.mem_singleton.mpr rfl⟩
    | _ => cases written
  | requestRegistrationOtp _ phase | verifyRegistrationOtp _ _ phase | requestLoginOtp _ phase
  | authenticateAccount _ _ phase | refreshAccessToken _ phase | logout _ phase =>
    cases phase <;> cases written

theorem loginOtps_stores (stores : loginOtps.stores call = some userId) :
    call.namedUser = some userId := by
  unfold loginOtps at stores
  dsimp only at stores
  split at stores
  · exact stores
  · cases stores

end Statements

namespace State

/-- Every session and every login code is of a user on record, and so is what the calls have in
hand. -/
structure Referenced (state : State) : Prop where
  sessions : ∀ id session, state.world.sessions.row id = some session →
    state.world.HasUser session.val.userId
  codes : ∀ issued ∈ state.world.issuedLoginOtps, state.world.HasUser issued.owner
  named : ∀ (index : Nat) call userId, state.calls[index]? = some call →
    call.namedUser = some userId →
    state.world.HasUser userId
  written : ∀ (index : Nat) call id session, state.calls[index]? = some call →
    (id, some session) ∈ call.writes.sessions →
    state.world.HasUser session.val.userId ∨
      ∃ user, (session.val.userId, some user) ∈ call.writes.users

variable {config : Config} {state after : State} {event : Event} {events : List Event}
    {userId : Uuid}

theorem Moves.hasUser (moves : Moves config state event after) (sound : state.Sound)
    (present : state.world.HasUser userId) : after.world.HasUser userId := by
  unfold World.HasUser
  rcases moves.account_cases sound with ⟨same, _⟩ | ⟨_, _, _, account, _, _, _, opens, _⟩
  · rw [same.users]
    exact present
  · rw [opens.users, Function.update_apply]
    split
    · rfl
    · exact present

/-- A membership is for good. -/
theorem Moves.joined {workspaceId : Uuid} (moves : Moves config state event after)
    (sound : state.Sound)
    (joined : state.world.Joined workspaceId userId) : after.world.Joined workspaceId userId := by
  rcases moves.account_cases sound with ⟨same, _⟩ | ⟨_, _, _, account, _, _, _, opens, _⟩
  · rw [same.joined]
    exact joined
  · exact opens.joined.mpr (.inr joined)

theorem Referenced.step (referenced : state.Referenced) (moves : Moves config state event after)
    (sound : state.Sound) : after.Referenced where
  sessions id session present := by
    rcases moves.session_cases sound id with same
      | ⟨index, draw, call, result, rfl, found, written, stored, _⟩
    · exact moves.hasUser sound (referenced.sessions id session (same.symm.trans present))
    · obtain rfl := Option.some.inj (stored.symm.trans present)
      rcases referenced.written index call id result found written with known | ⟨user, created⟩
      · exact moves.hasUser sound known
      · cases moves with
        | call entry taken =>
          obtain rfl := Option.some.inj (entry.symm.trans found)
          rw [(Call.step_opens taken written created).1]
          have held := ((sound.owned_call found).users _ _).mpr created
          unfold World.HasUser World.commit
          simp only [Relation.row, Relation.commit, Table.commit_of_pending held,
            Option.isSome_some]
  codes issued member := by
    rcases loginOtps_lawful.issued_cases moves with same
      | ⟨index, _, call, owner, _, found, stores, _, _, appended⟩
    · rw [show after.world.issuedLoginOtps = state.world.issuedLoginOtps from same] at member
      exact moves.hasUser sound (referenced.codes issued member)
    · rw [show after.world.issuedLoginOtps = state.world.issuedLoginOtps ++ _ from appended]
        at member
      rcases List.mem_append.mp member with earlier | added
      · exact moves.hasUser sound (referenced.codes issued earlier)
      · rw [List.mem_singleton.mp added]
        exact moves.hasUser sound
          (referenced.named index call owner found (loginOtps_stores stores))
  named index call userId found named := by
    rcases moves.call_cases found with same | ⟨request, _, _, rfl⟩
      | ⟨current, draw, _, entry, taken⟩ |
      ⟨current, _, _, rfl⟩
    · exact moves.hasUser sound (referenced.named index call userId same named)
    · rw [Request.start_namedUser] at named
      cases named
    · rcases Call.step_namedUser taken named with earlier | ⟨nothing, user, seen⟩
      · exact moves.hasUser sound (referenced.named index current userId entry earlier)
      · have owned := (sound.owned_call entry).users
        rw [nothing] at owned
        rw [Relation.view_of_unwritten owned] at seen
        exact moves.hasUser sound (by rw [World.HasUser, seen]; rfl)
    · rw [Call.fail_namedUser] at named
      cases named
  written index call id session found member := by
    rcases moves.call_cases found with same | ⟨request, _, _, rfl⟩
      | ⟨current, draw, _, entry, taken⟩ |
      ⟨current, _, _, rfl⟩
    · exact (referenced.written index call id session same member).imp_left (moves.hasUser sound)
    · rw [Request.start_writes] at member
      cases member
    · rcases Call.step_session_user (sound.owned_call entry).sessions taken member with
        earlier | named | created | ⟨stored, present, same⟩
      · rcases referenced.written index current id session entry earlier with known
          | ⟨user, created⟩
        · exact .inl (moves.hasUser sound known)
        · rw [(Call.step_opens taken earlier created).2] at member
          cases member
      · exact .inl (moves.hasUser sound (referenced.named index current _ entry named))
      · exact .inr created
      · rw [same]
        exact .inl (moves.hasUser sound (referenced.sessions id stored present))
    · rw [Call.fail_writes] at member
      cases member

theorem run_referenced {allowed : State → Event → Prop}
    (run : Run (system config) allowed events state) :
    state.Referenced := by
  apply run.invariant
  · constructor <;> simp [system, init, World.empty, Relation.empty, Relation.row, Table.empty]
  · intro _ _ _ _ earlier referenced _ taken
    exact referenced.step (step_moves taken) (run_sound earlier)

theorem run_keys_nodup {allowed : State → Event → Prop}
    (run : Run (system config) allowed events state) :
    state.world.users.keys.Nodup ∧ state.world.workspaces.keys.Nodup ∧
      state.world.members.keys.Nodup := by
  apply run.invariant
  · exact ⟨List.nodup_nil, List.nodup_nil, List.nodup_nil⟩
  · intro _ _ _ _ earlier ⟨users, workspaces, members⟩ _ taken
    obtain ⟨_, moves, _⟩ := (step_moves taken).world_moves (run_sound earlier)
    exact ⟨moves.users.keys_nodup users, moves.workspaces.keys_nodup workspaces,
      moves.members.keys_nodup members⟩

theorem run_credential_keys_nodup {allowed : State → Event → Prop}
    (run : Run (system config) allowed events state) :
    state.world.sessions.keys.Nodup ∧ state.world.loginOtps.keys.Nodup ∧
      state.world.registrationOtps.keys.Nodup := by
  apply run.invariant
  · exact ⟨List.nodup_nil, List.nodup_nil, List.nodup_nil⟩
  · intro _ _ _ _ earlier ⟨sessions, loginOtps, registrationOtps⟩ _ taken
    obtain ⟨_, moves, _⟩ := (step_moves taken).world_moves (run_sound earlier)
    exact ⟨moves.sessions.keys_nodup sessions, moves.loginOtps.keys_nodup loginOtps,
      moves.registrationOtps.keys_nodup registrationOtps⟩

/-- A login code that is stored has been issued. -/
theorem Referenced.loginOtp {id : Uuid} {otp : StoredOtp Uuid} (referenced : state.Referenced)
    (recorded : loginOtps.Recorded config state)
    (present : state.world.loginOtps.row id = some otp) :
    state.world.HasUser otp.val.owner := by
  obtain ⟨code, issued, _⟩ := recorded.committed id otp present
  exact referenced.codes _ issued

/-- So has one that is not committed yet. -/
theorem Referenced.pendingOtp {id : Uuid} {owner : Nat} {otp : StoredOtp Uuid}
    (referenced : state.Referenced) (recorded : loginOtps.Recorded config state)
    (written : (state.world.loginOtps.cells id).pending = some (owner, some otp)) :
    state.world.HasUser otp.val.owner := by
  obtain ⟨code, issued, _⟩ := recorded.pending id owner otp written
  exact referenced.codes _ issued

end State

end Relays.Auth
