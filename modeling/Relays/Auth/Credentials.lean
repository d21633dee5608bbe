import Relays.Auth.FreshOtp
import Relays.Auth.References

/-! Who changes what is stored of a user: a caller that has shown a refresh token of one of its
sessions or a code that it was sent, or that asks for a code under its email. -/

namespace Relays.Auth

open ReadCommitted Transition

/-- The email under which a login call has looked up its user. -/
def Call.serves : Call → Option (String × Uuid)
  | .requestLoginOtp email (.identified userId) | .requestLoginOtp email (.deleting userId _)
  | .requestLoginOtp email (.deleted userId _) | .requestLoginOtp email (.cleared userId)
  | .authenticateAccount email _ (.checking _ userId _)
  | .authenticateAccount email _ (.consumed _ userId _ _ _ _)
  | .authenticateAccount email _ (.contextual _ userId _ _ _ _) => some (email, userId)
  | .requestLoginOtp email (.created _ otp) => some (email, otp.val.owner)
  | .authenticateAccount email _ (.sessionCreated _ _ _ _ _ session _ _) =>
      some (email, session.val.userId)
  | _ => none

/-- What a call has in hand is of one user. -/
def Call.Agrees : Call → Prop
  | .authenticateAccount _ _ (.consumed _ userId _ otp _ _)
  | .authenticateAccount _ _ (.contextual _ userId _ otp _ _) => otp.val.owner = userId
  | .authenticateAccount _ _ (.sessionCreated _ otp _ _ _ session _ _) => otp.val.owner =
    session.val.userId
  | .createAccount _ _ (.sessionCreated userId _ _ _ _ _ session _ _) => session.val.userId = userId
  | _ => True

section Statements

variable {config : Config} {tx : Nat} {world next : World} {draw : Draw} {call after : Call}
    {email : String}
variable {userId : Uuid}

theorem getUserByEmail_email {user : User}
    (hit : getUserByEmail world tx email = some (userId, user)) :
    user.email = email := by
  obtain ⟨_, _, matched⟩ := Relation.find_some hit
  simpa using matched

/-- A login serves the user whom it has found by its email. -/
theorem Call.step_serves (taken : call.step config tx world draw = some (next, after))
    (serves : after.serves = some (email, userId)) :
    call.serves = some (email, userId) ∨
      call.writes.users = [] ∧ ∃ user, (world.users.cells userId).view tx = some user ∧
        user.email = email := by
  cases call with
  | requestLoginOtp presented phase =>
    obtain ⟨last, moved, rfl⟩ := Processes.mapped_eq_some.mp taken
    cases phase with
    | begun =>
      simp only [RequestLoginOtp.step] at moved
      split at moved
      · cases moved
        cases serves
      · rename_i hit
        cases moved
        cases serves
        exact .inr ⟨rfl, _, getUserByEmail_sees hit, getUserByEmail_email hit⟩
    | identified =>
      simp only [RequestLoginOtp.step] at moved
      split at moved <;> cases moved <;> exact .inl serves
    | deleting =>
      simp only [RequestLoginOtp.step] at moved
      split at moved
      · cases moved
      · cases moved
        cases serves
      · rename_i deleted _
        cases moved
        cases deleted <;> exact .inl serves
    | deleted =>
      cases moved
      exact .inl serves
    | cleared userId =>
      cases last with
      | created id otp =>
        obtain ⟨⟨owner, same, written, _⟩, _⟩ := RequestLoginOtp.step_created moved
        cases same
        cases serves
        exact .inl (by rw [written]; rfl)
      | ended => cases serves
      | _ =>
        simp only [RequestLoginOtp.step] at moved
        split at moved
        · cases moved
        · split at moved <;> cases moved
    | created =>
      cases moved
      cases serves
    | ended => cases moved
  | authenticateAccount presented code phase =>
    obtain ⟨last, moved, rfl⟩ := Processes.mapped_eq_some.mp taken
    have passes := AuthenticateAccount.step_passes moved
    cases passes with
    | identifies =>
      simp only [AuthenticateAccount.step] at moved
      split at moved
      · cases moved
      · rename_i hit
        cases moved
        cases serves
        exact .inr ⟨rfl, _, getUserByEmail_sees hit, getUserByEmail_email hit⟩
    | checks | consumes | finds => exact .inl serves
    | opens =>
      simp only [AuthenticateAccount.step] at moved
      split at moved
      · cases moved
      · rename_i made
        split at moved
        · cases moved
        · cases moved
        · cases moved
          cases serves
          exact .inl (by rw [newSession_userId made]; rfl)
    | succeeds | fails => cases serves
  | requestRegistrationOtp | verifyRegistrationOtp | createAccount | refreshAccessToken | logout =>
    obtain ⟨last, _, rfl⟩ := Processes.mapped_eq_some.mp taken
    cases serves

/-- The statement that deletes a code of the user. -/
theorem RequestLoginOtp.step_deleted {phase : Phase} {target : Uuid}
    (taken : step config tx world email draw phase = some (next, .deleted userId target)) :
    phase = .deleting userId target ∧
      ∃ stored, (world.loginOtps.cells target).view tx = some stored ∧
        stored.val.owner = userId := by
  cases phase with
  | deleting =>
    simp only [step] at taken
    split at taken
    · cases taken
    · cases taken
    · rename_i deleted done
      split at taken
      · rename_i removed
        cases taken
        rw [removed] at done
        obtain ⟨stored, _, seen, matched, _⟩ := Relation.delete_returns done
        exact ⟨rfl, stored, seen, by simpa [ownedBy] using matched⟩
      · cases taken
  | cleared =>
    simp only [step] at taken
    split at taken
    · cases taken
    · split at taken <;> cases taken
  | _ =>
    simp only [step] at taken
    try split at taken
    all_goals cases taken

theorem Call.step_agrees (taken : call.step config tx world draw = some (next, after))
    (checked : call.Checked config) (agrees : call.Agrees) : after.Agrees := by
  cases call with
  | authenticateAccount presented code phase =>
    obtain ⟨last, moved, rfl⟩ := Processes.mapped_eq_some.mp taken
    have passes := AuthenticateAccount.step_passes moved
    cases passes with
    | consumes stepped =>
      cases stepped with
      | consumes done => exact checked.1
    | finds => exact agrees
    | opens =>
      simp only [AuthenticateAccount.step] at moved
      split at moved
      · cases moved
      · rename_i made
        split at moved
        · cases moved
        · cases moved
        · cases moved
          exact agrees.trans (newSession_userId made).symm
    | identifies | checks | succeeds | fails => trivial
  | createAccount name workspaceName phase =>
    obtain ⟨last, moved, rfl⟩ := Processes.mapped_eq_some.mp taken
    cases phase with
    | memberCreated now userId user =>
      simp only [CreateAccount.step] at moved
      split at moved
      · cases moved
        trivial
      · rename_i made
        split at moved
        · cases moved
        · cases moved
          trivial
        · cases moved
          exact newSession_userId made
    | begun | unregistered =>
      simp only [CreateAccount.step] at moved
      split at moved <;> cases moved <;> trivial
    | available | userCreated | workspaceCreated =>
      simp only [CreateAccount.step] at moved
      split at moved <;> cases moved <;> trivial
    | sessionCreated =>
      cases moved
      trivial
    | ended => cases moved
  | requestRegistrationOtp | verifyRegistrationOtp | requestLoginOtp | refreshAccessToken
  | logout =>
    obtain ⟨last, _, rfl⟩ := Processes.mapped_eq_some.mp taken
    trivial

end Statements

section Credentials

variable (config : Config) (events : List State.Event) (state : State) (userId : Uuid)

/-- A look-up of this token has found an open session of the user. -/
def HadToken (token : String) : Prop :=
  ∃ front before index draw after id session,
    Takes (State.system config) events front before (.call index draw) after ∧
    before.world.sessions.row id = some session ∧ session.val.userId = userId ∧
      session.val.revokedAt = none ∧
    session.val.refreshTokenHash = hashRefreshToken config token

/-- The user was sent a login code with the hash of this one. -/
def WasSent (code : String) : Prop :=
  ∃ issued ∈ state.world.issuedLoginOtps, issued.owner = userId ∧
    hashOtp config issued.code = hashOtp config code

/-- What the caller has shown to act for the user; whoever knows the email can ask for a code. -/
def Call.Shows : Call → Prop
  | .refreshAccessToken token _ | .logout token _ => HadToken config events userId token
  | .requestLoginOtp email _ => Registered state email userId
  | .authenticateAccount email code _ => Registered state email userId ∧
    WasSent config state userId code
  | .requestRegistrationOtp _ _ | .verifyRegistrationOtp _ _ _ | .createAccount _ _ _ => False

end Credentials

namespace State

variable {config : Config} {state after before : State} {event : Event} {events : List Event}
    {userId id : Uuid}
variable {index : Nat} {call : Call} {email : String} {session : StoredSession} {token : String}

theorem Moves.registered (moves : Moves config state event after) (sound : state.Sound)
    (registered : Registered state email userId) : Registered after email userId := by
  obtain ⟨user, present, named⟩ := registered
  rcases moves.account_cases sound with ⟨same, _⟩ | ⟨_, _, _, account, _, _, _, opens, _⟩
  · exact ⟨user, (same.users userId).trans present, named⟩
  · refine ⟨user, ?_, named⟩
    rw [opens.users, Function.update_of_ne]
    · exact present
    · rintro rfl
      rw [opens.newUser] at present
      cases present

/-- The users of the login calls are known by the emails that the calls present. -/
theorem run_serves (run : Run (system config) Any events state)
    (found : state.calls[index]? = some call)
    (serves : call.serves = some (email, userId)) : Registered state email userId := by
  induction run generalizing index call with
  | start => simp [system, init] at found
  | @step events before event after earlier permitted taken ih =>
    have moves : Moves config before event after := step_moves taken
    have sound := run_sound earlier
    apply moves.registered sound
    rcases moves.call_cases found with same | ⟨request, _, _, rfl⟩
      | ⟨current, draw, _, entry, stepped⟩ |
      ⟨current, _, _, rfl⟩
    · exact ih same serves
    · cases request with
      | requestLoginOtp presented permitted => cases permitted <;> cases serves
      | _ => cases serves
    · rcases Call.step_serves stepped serves with earlier | ⟨nothing, user, seen, named⟩
      · exact ih entry earlier
      · have owned := (sound.owned_call entry).users
        rw [nothing] at owned
        rw [Relation.view_of_unwritten owned] at seen
        exact ⟨user, seen, named⟩
    · cases current <;> cases serves

theorem run_agrees (run : Run (system config) Any events state)
    (found : state.calls[index]? = some call) :
    call.Agrees := by
  induction run generalizing index call with
  | start => simp [system, init] at found
  | @step events before event after earlier permitted taken ih =>
    have moves : Moves config before event after := step_moves taken
    rcases moves.call_cases found with same | ⟨request, _, _, rfl⟩
      | ⟨current, draw, _, entry, stepped⟩ |
      ⟨current, _, _, rfl⟩
    · exact ih same
    · cases request with
      | createAccount registrationToken name workspaceName =>
        simp only [Request.start, CreateAccount.start]
        split
        · trivial
        · split <;> trivial
      | _ => trivial
    · exact Call.step_agrees stepped (run_checked earlier entry) (ih entry)
    · cases current <;> trivial

/-- The session that a call has found had the token that the call presents. -/
theorem run_hadToken (run : Run (system config) Any events state)
    (found : state.calls[index]? = some call)
    (looks : call.looked = some (token, id, session)) :
      HadToken config events session.val.userId token := by
  induction run generalizing index call with
  | start => simp [system, init] at found
  | @step events before event after earlier permitted taken ih =>
    have moves : Moves config before event after := step_moves taken
    have known (current : Call) (entry : before.calls[index]? = some current)
        (looked : current.looked = some (token, id, session)) :
        HadToken config (events ++ [event]) session.val.userId token := by
      obtain ⟨front, start, acting, draw, finish, other, row, takes, rest⟩ := ih entry looked
      exact ⟨front, start, acting, draw, finish, other, row, takes.extend _, rest⟩
    rcases moves.call_cases found with same | ⟨request, _, _, rfl⟩
      | ⟨current, draw, rfl, entry, stepped⟩ |
      ⟨current, _, _, rfl⟩
    · exact known call same looks
    · cases request <;> cases looks
    · rcases Call.step_looked stepped looks with looked | ⟨nothing, hit⟩
      · exact known current entry looked
      · obtain ⟨seen, hashed, live⟩ := getSessionByRefreshTokenHash_some hit
        have owned := (run_sound earlier).owned_call entry
        rw [nothing] at owned
        rw [Relation.view_of_unwritten owned.sessions] at seen
        exact ⟨events, before, index, draw, after, id, session, .last earlier taken, seen, rfl,
          live, hashed⟩
    · cases current <;> cases looks

/-- The row that a request is about to replace is a code of its user. -/
theorem run_deleted {target : Uuid} {row : StoredOtp Uuid}
    (run : Run (system config) Any events state)
    (found : state.calls[index]? = some (.requestLoginOtp email (.deleted userId target)))
    (present : state.world.loginOtps.row target = some row) : row.val.owner = userId := by
  induction run with
  | start => simp [system, init] at found
  | @step events before event after earlier permitted taken ih =>
    have moves : Moves config before event after := step_moves taken
    have sound := run_sound earlier
    have kept : after.world.loginOtps.row target = before.world.loginOtps.row target :=
      Flow.Lawful.row_kept loginOtps_lawful moves sound found (List.mem_singleton.mpr rfl)
    rw [kept] at present
    rcases moves.call_cases found with same | ⟨request, _, _, started⟩
      | ⟨current, draw, _, entry, stepped⟩ |
      ⟨current, _, _, failed⟩
    · exact ih same present
    · cases request with
      | requestLoginOtp presented permitted => cases permitted <;> cases started
      | _ => cases started
    · cases current with
      | requestLoginOtp presented phase =>
        obtain ⟨last, moved, shape⟩ := Processes.mapped_eq_some.mp stepped
        cases shape
        obtain ⟨rfl, stored, seen, own⟩ := RequestLoginOtp.step_deleted moved
        rw [Relation.view_of_unwritten (sound.owned_call entry).loginOtps] at seen
        obtain rfl := Option.some.inj (seen.symm.trans present)
        exact own
      | _ =>
        obtain ⟨_, _, shape⟩ := Processes.mapped_eq_some.mp stepped
        cases shape
    · cases current <;> cases failed

/-- A session stays with its user. -/
theorem Moves.session_user (moves : Moves config state event after) (sound : state.Sound)
    (present : ∃ row, state.world.sessions.row id = some row ∧ row.val.userId = userId) :
    ∃ row, after.world.sessions.row id = some row ∧ row.val.userId = userId := by
  obtain ⟨row, there, own⟩ := present
  rcases moves.session_cases sound id with same
    | ⟨index, draw, call, result, _, found, member, stored, _⟩
  · exact ⟨row, same.trans there, own⟩
  · obtain ⟨_, _, written, kept, _⟩ := sound.permitted found member there
    cases written
    exact ⟨result, stored, kept.trans own⟩

/-- The session that a call has found is still that of the same user. -/
theorem run_looked_user (run : Run (system config) Any events state)
    (found : state.calls[index]? = some call)
    (looks : call.looked = some (token, id, session)) :
    ∃ row, state.world.sessions.row id = some row ∧ row.val.userId = session.val.userId := by
  induction run generalizing index call with
  | start => simp [system, init] at found
  | @step events before event after earlier permitted taken ih =>
    have moves : Moves config before event after := step_moves taken
    have sound := run_sound earlier
    apply moves.session_user sound
    rcases moves.call_cases found with same | ⟨request, _, _, rfl⟩
      | ⟨current, draw, rfl, entry, stepped⟩ |
      ⟨current, _, _, rfl⟩
    · exact ih same looks
    · cases request <;> cases looks
    · rcases Call.step_looked stepped looks with looked | ⟨nothing, hit⟩
      · exact ih entry looked
      · have seen := (getSessionByRefreshTokenHash_some hit).1
        have owned := (sound.owned_call entry).sessions
        rw [nothing] at owned
        rw [Relation.view_of_unwritten owned] at seen
        exact ⟨session, seen, rfl⟩
    · cases current <;> cases looks

/-- A code that a login has compared was sent to the owner of its row. -/
theorem run_wasSent {code : String} {otp result : StoredOtp Uuid}
    (run : Run (system config) Any events state)
    (found : state.calls[index]? = some call) (looks : loginOtps.looked call = some (id, otp))
    (compared : OtpVerification.Compared config code otp result) :
      WasSent config state otp.val.owner code := by
  obtain ⟨issued, member, hashed⟩ :=
    (Flow.run_recorded loginOtps_lawful run).looked index call id otp found looks
  exact ⟨_, member, rfl, hashed.symm.trans compared.1⟩

/-- The session that a call is about to commit is that of a user of whom it has shown a credential,
or of the user that it creates. -/
theorem run_session_shown (run : Run (system config) Any events state)
    (found : state.calls[index]? = some call)
    (member : (id, some session) ∈ call.writes.sessions) :
    call.Shows config events state session.val.userId ∨ state.world.users.row session.val.userId =
      none := by
  have sound := run_sound run
  have replaces {token : String} (looked : StoredSession) (looks : call.looked =
    some (token, id, looked)) :
      HadToken config events session.val.userId token := by
    obtain ⟨row, present, own⟩ := run_looked_user run found looks
    obtain ⟨_, _, written, kept, _⟩ := sound.permitted found member present
    cases written
    rw [kept, own]
    exact run_hadToken run found looks
  cases call with
  | createAccount name workspaceName phase =>
    cases phase with
    | sessionCreated userId user =>
      obtain ⟨rfl, same⟩ := Prod.mk.inj (List.mem_singleton.mp member)
      obtain rfl := Option.some.inj same
      have own : session.val.userId = userId := run_agrees run found
      rw [own]
      exact .inr (sound.new_user found (List.mem_singleton.mpr rfl))
    | _ => cases member
  | authenticateAccount email code phase =>
    cases phase with
    | sessionCreated _ otp =>
      obtain ⟨rfl, same⟩ := Prod.mk.inj (List.mem_singleton.mp member)
      obtain rfl := Option.some.inj same
      have own : otp.val.owner = session.val.userId := run_agrees run found
      have sent := run_wasSent run found rfl (run_checked run found)
      rw [own] at sent
      exact .inl ⟨run_serves run found rfl, sent⟩
    | _ => cases member
  | refreshAccessToken presented phase =>
    cases phase with
    | rotated =>
      obtain ⟨rfl, _⟩ := Prod.mk.inj (List.mem_singleton.mp member)
      exact .inl (replaces _ rfl)
    | _ => cases member
  | logout presented phase =>
    cases phase with
    | revoked =>
      obtain ⟨rfl, _⟩ := Prod.mk.inj (List.mem_singleton.mp member)
      exact .inl (replaces _ rfl)
    | _ => cases member
  | requestRegistrationOtp _ phase | verifyRegistrationOtp _ _ phase | requestLoginOtp _ phase =>
    cases phase <;> cases member

/-- The version of a login code that a call is about to commit, and the row that it replaces, are
those of a user of whom it has shown a credential. -/
theorem run_code_shown {version : Option (StoredOtp Uuid)}
    (run : Run (system config) Any events state)
    (found : state.calls[index]? = some call) (member : (id, version) ∈ call.writes.loginOtps) :
    ∃ userId, call.Shows config events state userId ∧
      (∀ row, version = some row → row.val.owner = userId) ∧
      ∀ row, state.world.loginOtps.row id = some row → row.val.owner = userId := by
  have sound := run_sound run
  -- a code is consumed by its owner, and an inserted one replaces no row
  have kept (otp : StoredOtp Uuid) (same : version = some otp) (row : StoredOtp Uuid)
      (present : state.world.loginOtps.row id = some row) : row.val.owner = otp.val.owner := by
    have held := ((sound.owned_call found).loginOtps id version).mpr member
    obtain ⟨_, _, written⟩ :=
      sound.world.loginOtps.changes id index version row held present otp same
    rw [written]
  have checked := run_checked run found
  have agrees := run_agrees run found
  cases call with
  | requestLoginOtp email phase =>
    cases phase with
    | deleted userId target =>
      obtain ⟨rfl, rfl⟩ := Prod.mk.inj (List.mem_singleton.mp member)
      exact ⟨userId, run_serves run found rfl, nofun,
        fun row present => run_deleted run found present⟩
    | created _ otp =>
      obtain ⟨rfl, rfl⟩ := Prod.mk.inj (List.mem_singleton.mp member)
      refine ⟨otp.val.owner, run_serves run found rfl, ?_, kept otp rfl⟩
      intro row same
      cases same
      rfl
    | _ => cases member
  | authenticateAccount email code phase =>
    cases phase with
    | consumed _ userId _ otp _ result | contextual _ userId _ otp _ result =>
      obtain ⟨rfl, rfl⟩ := Prod.mk.inj (List.mem_singleton.mp member)
      have sent := run_wasSent run found rfl checked
      have own : otp.val.owner = userId := agrees
      have owner : result.val.owner = userId := checked.2.trans own
      rw [own] at sent
      refine ⟨userId, ⟨run_serves run found rfl, sent⟩, ?_,
        fun row present => (kept result rfl row present).trans owner⟩
      intro row same
      cases same
      exact owner
    | sessionCreated _ otp _ result _ session =>
      obtain ⟨rfl, rfl⟩ := Prod.mk.inj (List.mem_singleton.mp member)
      have sent := run_wasSent run found rfl checked
      have own : otp.val.owner = session.val.userId := agrees
      have owner : result.val.owner = session.val.userId := checked.2.trans own
      rw [own] at sent
      refine ⟨_, ⟨run_serves run found rfl, sent⟩, ?_,
        fun row present => (kept result rfl row present).trans owner⟩
      intro row same
      cases same
      exact owner
    | _ => cases member
  | requestRegistrationOtp _ phase | verifyRegistrationOtp _ _ phase | createAccount _ _ phase
  | refreshAccessToken _ phase | logout _ phase => cases phase <;> cases member

/-- A session changes by the commit of a call that has shown a credential of its user, or creates
it. -/
theorem run_session_change (run : Run (system config) Any events state)
    (moves : Moves config state event after)
    (id : Uuid) : after.world.sessions.row id = state.world.sessions.row id ∨
      ∃ index draw call result, event = .call index draw ∧ state.calls[index]? = some call ∧
        after.world.sessions.row id = some result ∧
        (∀ stored, state.world.sessions.row id = some stored →
          stored.val.userId = result.val.userId) ∧
        (call.Shows config events state result.val.userId ∨
          state.world.users.row result.val.userId = none) := by
  have sound := run_sound run
  rcases moves.session_cases sound id with same
    | ⟨index, draw, call, result, rfl, found, member, stored, _⟩
  · exact .inl same
  · refine .inr ⟨index, draw, call, result, rfl, found, stored, ?_,
      run_session_shown run found member⟩
    intro row present
    obtain ⟨_, _, written, kept, _⟩ := sound.permitted found member present
    cases written
    exact kept.symm

/-- A login code changes by the commit of a call that has shown a credential of its user. -/
theorem run_code_change (run : Run (system config) Any events state)
    (moves : Moves config state event after)
    (id : Uuid) : after.world.loginOtps.row id = state.world.loginOtps.row id ∨
      ∃ index draw call userId, event = .call index draw ∧ state.calls[index]? = some call ∧
        call.Shows config events state userId ∧
        (∀ row, state.world.loginOtps.row id = some row → row.val.owner = userId) ∧
        ∀ row, after.world.loginOtps.row id = some row → row.val.owner = userId := by
  have sound := run_sound run
  cases moves with
  | tick => exact .inl rfl
  | arrive => exact .inl rfl
  | @call index call _ _ draw found taken =>
    have moves := (Call.step_moves sound.world taken).loginOtps
    rcases moves.row_cases (sound.owned_call found).loginOtps id with same
      | ⟨version, member, stored, _⟩
    · exact .inl same
    · obtain ⟨userId, shows, owner, before⟩ := run_code_shown run found member
      exact .inr ⟨index, draw, call, userId, rfl, found, shows, before, fun row present =>
        owner row (stored.symm.trans present)⟩
  | abort => exact .inl (Table.rollback_committed _)

end State

/-- What is committed for the user who owns a workspace. -/
structure AccountHoldings where
  user : Option User
  workspace : Option Workspace
  members : Uuid → Option WorkspaceMember
  memberships : Uuid → Option WorkspaceMember
  sessions : Uuid → Option StoredSession
  loginOtps : Uuid → Option (StoredOtp Uuid)

def World.holdings (world : World) (workspaceId userId : Uuid) : AccountHoldings where
  user := world.users.row userId
  workspace := world.workspaces.row workspaceId
  members member := world.members.row (workspaceId, member)
  memberships workspace := world.members.row (workspace, userId)
  sessions id := (world.sessions.row id).filter fun session => session.val.userId = userId
  loginOtps id := (world.loginOtps.row id).filter fun otp => otp.val.owner = userId

/-- Calls that have shown no credential of the owner leave the account as it is. -/
theorem State.run_holdings_kept {config : Config} {state after : State} {event : State.Event}
    {events : List State.Event} {workspaceId userId : Uuid}
    (run : Run (system config) Any events state)
    (moves : Moves config state event after) (joined : state.world.Joined workspaceId userId)
    (alien : ∀ (index : Nat) draw call, event = .call index draw → state.calls[index]? = some call →
      ¬ call.Shows config events state userId) :
    after.world.holdings workspaceId userId = state.world.holdings workspaceId userId := by
  have sound := run_sound run
  obtain ⟨known, there⟩ := (run_paired run).joined joined
  have accounts : after.world.users.row userId = state.world.users.row userId ∧
      after.world.workspaces.row workspaceId = state.world.workspaces.row workspaceId ∧
      (∀ member, after.world.members.row (workspaceId, member) =
        state.world.members.row (workspaceId, member)) ∧
      ∀ workspace, after.world.members.row (workspace, userId) =
        state.world.members.row (workspace, userId) := by
    rcases moves.account_cases sound with ⟨same, _⟩ | ⟨_, _, _, account, _, _, _, opens, _⟩
    · exact ⟨same.users _, same.workspaces _, fun _ => same.members _, fun _ => same.members _⟩
    · have otherUser : userId ≠ account.userId := by
        rintro rfl
        rw [opens.newUser] at known
        cases known
      have otherWorkspace : workspaceId ≠ account.workspaceId := by
        rintro rfl
        rw [opens.newWorkspace] at there
        cases there
      rw [opens.users, opens.workspaces, opens.members]
      refine ⟨Function.update_of_ne otherUser _ _, Function.update_of_ne otherWorkspace _ _, ?_, ?_⟩
      · intro member
        exact Function.update_of_ne (fun same => otherWorkspace (Prod.mk.inj same).1) _ _
      · intro workspace
        exact Function.update_of_ne (fun same => otherUser (Prod.mk.inj same).2) _ _
  obtain ⟨users, workspaces, members, memberships⟩ := accounts
  have sessions (id : Uuid) :
    (after.world.sessions.row id).filter (fun session => session.val.userId = userId) =
      (state.world.sessions.row id).filter fun session => session.val.userId = userId := by
    rcases run_session_change run moves id with same
      | ⟨index, draw, call, result, acts, found, stored, kept, shown⟩
    · rw [same]
    · have foreign : result.val.userId ≠ userId := by
        rintro rfl
        rcases shown with shows | absent
        · exact alien index draw call acts found shows
        · rw [absent] at known
          cases known
      rw [Option.filter_eq_none_iff.mpr, Option.filter_eq_none_iff.mpr]
      · intro row present
        simpa [kept row present] using foreign
      · intro row present
        obtain rfl := Option.some.inj (stored.symm.trans present)
        simpa using foreign
  have loginOtps (id : Uuid) :
    (after.world.loginOtps.row id).filter (fun otp => otp.val.owner = userId) =
      (state.world.loginOtps.row id).filter fun otp => otp.val.owner = userId := by
    rcases run_code_change run moves id with same
      | ⟨index, draw, call, owner, acts, found, shows, earlier, later⟩
    · rw [same]
    · have foreign : owner ≠ userId := by
        rintro rfl
        exact alien index draw call acts found shows
      rw [Option.filter_eq_none_iff.mpr, Option.filter_eq_none_iff.mpr]
      · intro row present
        simpa [earlier row present] using foreign
      · intro row present
        simpa [later row present] using foreign
  unfold World.holdings
  rw [users, workspaces, funext members, funext memberships, funext sessions, funext loginOtps]

end Relays.Auth
