import Relays.Auth.Invariant

/-! How the rows of `sessions` come and go: a row is written by the call that opens, rotates or
revokes the session, and replaced when that call commits. -/

namespace Relays.Auth

open ReadCommitted Transition

/-- The token that a call presents, and the session that it has found by it. -/
def Call.looked : Call → Option (String × Uuid × StoredSession)
  | .refreshAccessToken token (.read _ id session)
  | .refreshAccessToken token (.expired _ id session)
  | .refreshAccessToken token (.live id session)
  | .refreshAccessToken token (.identified id session)
  | .refreshAccessToken token (.rotated id session _ _)
  | .logout token (.read _ id session)
  | .logout token (.revoked id session _) => some (token, id, session)
  | _ => none

def Call.session (call : Call) : Option Uuid := call.looked.map fun (_, id, _) => id

/-- The next statement of the call stores a refresh token that it generates. -/
def Call.generates : Call → Bool
  | .createAccount _ _ (.memberCreated _ _ _ _ _ _)
  | .authenticateAccount _ _ (.contextual _ _ _ _ _ _)
  | .refreshAccessToken _ (.identified _ _) => true
  | _ => false

section Statements

variable {config : Config} {tx : Nat} {world next : World} {draw : Draw} {token fresh : String}
    {id : Uuid}
variable {session result stored : StoredSession}

theorem getSessionByRefreshTokenHash_some {sessions : Relation Uuid Nat StoredSession}
    {hash : String}
    (hit : getSessionByRefreshTokenHash sessions tx hash = some (id, session)) :
    (sessions.cells id).view tx = some session ∧ session.val.refreshTokenHash = hash ∧
      session.val.revokedAt = none := by
  obtain ⟨_, seen, matched⟩ := Relation.find_some hit
  simp only [unrevoked, Bool.and_eq_true, decide_eq_true_eq, Option.isNone_iff_eq_none] at matched
  exact ⟨seen, matched⟩

theorem RefreshAccessToken.step_rotated {phase : Phase}
    (taken : step config tx world token draw phase =
      some (next, .rotated id session result fresh)) :
    phase = .identified id session ∧ fresh = draw.secret ∧
      rotateSessionRefreshToken world.sessions tx id (hashRefreshToken config draw.secret)
        (refreshTokenTtl + world.clock) = .returns (next.sessions, some result) ∧
      next.issuedTokens = world.issuedTokens ++ [draw.secret] := by
  cases phase with
  | identified =>
    simp only [step] at taken
    split at taken
    · cases taken
    · cases taken
    · cases taken
    · rename_i done
      cases taken
      exact ⟨rfl, rfl, done, rfl⟩
  | _ =>
    simp only [step] at taken
    try split at taken
    all_goals cases taken

theorem Logout.step_revoked {phase : Phase}
    (taken : step config tx world token phase = some (next, .revoked id session result)) :
    ∃ now, phase = .read now id session ∧
      revokeSession world.sessions tx now id = .returns (next.sessions, some result) := by
  cases phase with
  | read now =>
    simp only [step] at taken
    split at taken
    · cases taken
    · cases taken
    · cases taken
    · rename_i done
      cases taken
      exact ⟨now, rfl, done⟩
  | _ =>
    simp only [step] at taken
    try split at taken
    all_goals cases taken

theorem newSession_hash {now expiresAt : Time} {userId : Uuid} {hash : String}
    (made : newSession now userId hash expiresAt = some session) : session.val.refreshTokenHash =
      hash := by
  rw [admitted_eq_some.mp made]

theorem CreateAccount.step_sessionCreated {name workspaceName : String} {phase : Phase}
    {userId workspaceId : Uuid}
    {user : User} {workspace : Workspace} {member : WorkspaceMember} {accessToken : String}
    (taken : step config tx world name workspaceName draw phase =
      some (next, .sessionCreated userId user workspaceId
      workspace member id session accessToken fresh)) :
    (∃ now, phase = .memberCreated now userId user workspaceId workspace member) ∧
      session.val.refreshTokenHash = hashRefreshToken config draw.secret ∧
      next.issuedTokens = world.issuedTokens ++ [draw.secret] := by
  cases phase with
  | memberCreated now =>
    simp only [step] at taken
    split at taken
    · cases taken
    · rename_i made
      split at taken
      · cases taken
      · cases taken
      · cases taken
        exact ⟨⟨now, rfl⟩, newSession_hash made, rfl⟩
  | _ =>
    simp only [step] at taken
    try split at taken
    all_goals cases taken

theorem AuthenticateAccount.step_sessionCreated {email otp : String} {phase : Phase}
    {rowId target : Uuid}
    {row consumed : StoredOtp Uuid} {accessToken : String}
    (taken : step config tx world email otp draw phase =
      some (next, .sessionCreated rowId row target consumed id session accessToken fresh)) :
    (∃ now userId, phase = .contextual now userId rowId row target consumed) ∧
      session.val.refreshTokenHash = hashRefreshToken config draw.secret ∧
      next.issuedTokens = world.issuedTokens ++ [draw.secret] := by
  cases phase with
  | contextual now userId =>
    simp only [step] at taken
    split at taken
    · cases taken
    · rename_i made
      split at taken
      · cases taken
      · cases taken
      · cases taken
        exact ⟨⟨now, userId, rfl⟩, newSession_hash made, rfl⟩
  | _ =>
    simp only [step] at taken
    try split at taken
    all_goals cases taken

/-- The session of a refresh or a logout is the one that its look-up has found. -/
theorem RefreshAccessToken.step_looked {phase after : Phase} {presented : String}
    (taken : step config tx world token draw phase = some (next, after))
    (looks : Call.looked (.refreshAccessToken token after) = some (presented, id, session)) :
    Call.looked (.refreshAccessToken token phase) = some (presented, id, session) ∨
      presented = token ∧ phase.writes = {} ∧
        getSessionByRefreshTokenHash world.sessions tx (hashRefreshToken config token) =
          some (id, session) := by
  cases phase with
  | begun now =>
    simp only [step] at taken
    split at taken
    · cases taken
      cases looks
    · rename_i hit
      cases taken
      cases looks
      exact .inr ⟨rfl, rfl, hit⟩
  | _ =>
    simp only [step] at taken
    try split at taken
    all_goals
      cases taken
      try cases looks
      try exact .inl rfl

theorem Logout.step_looked {phase after : Phase} {presented : String}
    (taken : step config tx world token phase = some (next, after))
    (looks : Call.looked (.logout token after) = some (presented, id, session)) :
    Call.looked (.logout token phase) = some (presented, id, session) ∨
      presented = token ∧ phase.writes = {} ∧
        getSessionByRefreshTokenHash world.sessions tx (hashRefreshToken config token) =
          some (id, session) := by
  cases phase with
  | begun now =>
    simp only [step] at taken
    split at taken
    · cases taken
      cases looks
    · rename_i hit
      cases taken
      cases looks
      exact .inr ⟨rfl, rfl, hit⟩
  | _ =>
    simp only [step] at taken
    try split at taken
    all_goals
      cases taken
      try cases looks
      try exact .inl rfl

theorem Call.step_looked {call after : Call}
    (taken : call.step config tx world draw = some (next, after))
    (looks : after.looked = some (token, id, session)) :
    call.looked = some (token, id, session) ∨
      call.writes = {} ∧
        getSessionByRefreshTokenHash world.sessions tx (hashRefreshToken config token) =
          some (id, session) := by
  cases call with
  | refreshAccessToken presented phase =>
    obtain ⟨phase, moved, rfl⟩ := Processes.mapped_eq_some.mp taken
    rcases RefreshAccessToken.step_looked moved looks with earlier | ⟨rfl, nothing, hit⟩
    · exact .inl earlier
    · exact .inr ⟨nothing, hit⟩
  | logout presented phase =>
    obtain ⟨phase, moved, rfl⟩ := Processes.mapped_eq_some.mp taken
    rcases Logout.step_looked moved looks with earlier | ⟨rfl, nothing, hit⟩
    · exact .inl earlier
    · exact .inr ⟨nothing, hit⟩
  | requestRegistrationOtp | verifyRegistrationOtp | createAccount | requestLoginOtp
  | authenticateAccount =>
    obtain ⟨phase, moved, rfl⟩ := Processes.mapped_eq_some.mp taken
    cases looks

/-- A version of a session that a statement writes: of a session that it opens or rotates, with the
hash of the token just generated, or of one that it revokes, with the hash that it has. -/
theorem Call.step_sessions {call after : Call}
    (owned : world.sessions.Owned tx call.writes.sessions)
    (taken : call.step config tx world draw = some (next, after))
    (member : (id, some result) ∈ after.writes.sessions) :
    (id, some result) ∈ call.writes.sessions ∨
      (call.generates = true ∧ result.val.refreshTokenHash = hashRefreshToken config draw.secret ∧
        next.issuedTokens = world.issuedTokens ++ [draw.secret]) ∨
      ∃ stored, world.sessions.row id = some stored ∧
        result.val.refreshTokenHash = stored.val.refreshTokenHash := by
  cases call with
  | createAccount name workspaceName phase =>
    obtain ⟨phase, moved, rfl⟩ := Processes.mapped_eq_some.mp taken
    cases phase with
    | sessionCreated =>
      cases List.mem_singleton.mp member
      obtain ⟨⟨_, rfl⟩, hashed, issued⟩ := CreateAccount.step_sessionCreated moved
      exact .inr (.inl ⟨rfl, hashed, issued⟩)
    | _ => cases member
  | authenticateAccount email otp phase =>
    obtain ⟨phase, moved, rfl⟩ := Processes.mapped_eq_some.mp taken
    cases phase with
    | sessionCreated =>
      cases List.mem_singleton.mp member
      obtain ⟨⟨_, _, rfl⟩, hashed, issued⟩ := AuthenticateAccount.step_sessionCreated moved
      exact .inr (.inl ⟨rfl, hashed, issued⟩)
    | _ => cases member
  | refreshAccessToken presented phase =>
    obtain ⟨phase, moved, rfl⟩ := Processes.mapped_eq_some.mp taken
    cases phase with
    | rotated =>
      cases List.mem_singleton.mp member
      obtain ⟨rfl, rfl, done, issued⟩ := RefreshAccessToken.step_rotated moved
      obtain ⟨_, _, _, _, written, _⟩ := rotateSessionRefreshToken_returns done
      exact .inr (.inl ⟨rfl, by rw [written], issued⟩)
    | _ => cases member
  | logout presented phase =>
    obtain ⟨phase, moved, rfl⟩ := Processes.mapped_eq_some.mp taken
    cases phase with
    | revoked =>
      cases List.mem_singleton.mp member
      obtain ⟨_, rfl, done⟩ := Logout.step_revoked moved
      obtain ⟨stored, _, seen, _, written, _⟩ := revokeSession_returns done
      rw [Relation.view_of_unwritten owned] at seen
      exact .inr (.inr ⟨stored, seen, by rw [written]⟩)
    | _ => cases member
  | requestRegistrationOtp | verifyRegistrationOtp | requestLoginOtp =>
    obtain ⟨phase, moved, rfl⟩ := Processes.mapped_eq_some.mp taken
    cases phase <;> cases member

end Statements

/-- A call writes at most one session. -/
theorem Call.writes_sessions {call : Call} {id other : Uuid} {version latest : Option StoredSession}
    (member : (id, version) ∈ call.writes.sessions)
    (another : (other, latest) ∈ call.writes.sessions) :
    id = other := by
  cases call with
  | requestRegistrationOtp _ phase | verifyRegistrationOtp _ _ phase | createAccount _ _ phase
  | requestLoginOtp _ phase | authenticateAccount _ _ phase | refreshAccessToken _ phase
  | logout _ phase =>
    cases phase <;> simp_all [Call.writes, RequestRegistrationOtp.Phase.writes,
      VerifyRegistrationOtp.Phase.writes,
      CreateAccount.Phase.writes, RequestLoginOtp.Phase.writes, AuthenticateAccount.Phase.writes,
      RefreshAccessToken.Phase.writes, Logout.Phase.writes]

theorem Call.writes_version {call : Call} {id : Uuid} {version : Option StoredSession}
    (member : (id, version) ∈ call.writes.sessions) : ∃ result, version = some result := by
  cases call with
  | requestRegistrationOtp _ phase | verifyRegistrationOtp _ _ phase | createAccount _ _ phase
  | requestLoginOtp _ phase | authenticateAccount _ _ phase | refreshAccessToken _ phase
  | logout _ phase =>
    cases phase <;> simp_all [Call.writes, RequestRegistrationOtp.Phase.writes,
      VerifyRegistrationOtp.Phase.writes,
      CreateAccount.Phase.writes, RequestLoginOtp.Phase.writes, AuthenticateAccount.Phase.writes,
      RefreshAccessToken.Phase.writes, Logout.Phase.writes]

namespace State

variable {config : Config} {state after : State} {event : Event} {id : Uuid} {owner : Nat}
    {version : StoredSession}

/-- A committed session changes by the commit of the call that has written it. -/
theorem Moves.session_cases (moves : Moves config state event after) (sound : state.Sound)
    (id : Uuid) :
    after.world.sessions.row id = state.world.sessions.row id ∨
      ∃ index draw call result, event = .call index draw ∧ state.calls[index]? = some call ∧
        (id, some result) ∈ call.writes.sessions ∧ after.world.sessions.row id = some result ∧
        after.world.sessions = state.world.sessions.commit index := by
  cases moves with
  | tick => exact .inl rfl
  | arrive => exact .inl rfl
  | @call index call _ _ draw found taken =>
    have moves := (Call.step_moves sound.world taken).sessions
    rcases moves.row_cases (sound.owned_call found).sessions id with same
      | ⟨version, member, stored, _, committed⟩
    · exact .inl same
    · obtain ⟨result, rfl⟩ := Call.writes_version member
      exact .inr ⟨index, draw, call, result, rfl, found, member, stored, committed⟩
  | abort => exact .inl (Table.rollback_committed _)

/-- An uncommitted version of a session has just been written, or was there before. -/
theorem Moves.session_pending_cases (moves : Moves config state event after) (sound : state.Sound)
    (held : (after.world.sessions.cells id).pending = some (owner, some version)) :
    (state.world.sessions.cells id).pending = some (owner, some version) ∨
      (∃ draw call, event = .call owner draw ∧ state.calls[owner]? = some call ∧
        call.generates = true ∧
        version.val.refreshTokenHash = hashRefreshToken config draw.secret ∧
        after.world.issuedTokens = state.world.issuedTokens ++ [draw.secret]) ∨
      ∃ stored, state.world.sessions.row id = some stored ∧
        version.val.refreshTokenHash = stored.val.refreshTokenHash := by
  have sound' := moves.sound sound
  cases moves with
  | tick => exact .inl held
  | arrive => exact .inl held
  | @call index call next last draw found taken =>
    have moves := (Call.step_moves sound.world taken).sessions
    by_cases own : owner = index
    · subst own
      have entry : (State.calls ⟨next, state.calls.set owner last⟩)[owner]? = some last :=
        Processes.set_self found
      have member := ((sound'.owned_call entry).sessions id (some version)).mp held
      rcases Call.step_sessions (sound.owned_call found).sessions taken member with earlier
        | generated | kept
      · exact .inl (((sound.owned_call found).sessions id (some version)).mpr earlier)
      · exact .inr (.inl ⟨draw, call, rfl, found, generated⟩)
      · exact .inr (.inr kept)
    · exact .inl ((moves.frame sound.world.sessions).granted id owner _ own held)
  | abort => exact .inl (Table.pending_of_rollback held)

/-- The session that a call has written stays as it is until the call ends. -/
theorem Moves.session_locked {index : Nat} {call : Call} {written : Option StoredSession}
    (moves : Moves config state event after) (sound : state.Sound)
    (same : state.calls[index]? = some call)
    (found : after.calls[index]? = some call) (member : (id, written) ∈ call.writes.sessions) :
    after.world.sessions.row id = state.world.sessions.row id := by
  rcases moves.session_cases sound id with kept | ⟨acting, _, _, _, _, entry, other, _, committed⟩
  · exact kept
  · have held := ((sound.owned_call same).sessions id written).mpr member
    obtain ⟨rfl, _⟩ := Prod.mk.inj
      (Option.some.inj (held.symm.trans (((sound.owned_call entry).sessions id _).mpr other)))
    have later := (((moves.sound sound).owned_call found).sessions id written).mpr member
    rw [committed] at later
    exact absurd ⟨written, later⟩ (Table.commit_unowned state.world.sessions.cells)

/-- What a call has written of a session that it changes is permitted. -/
theorem Sound.permitted {index : Nat} {call : Call} {stored : StoredSession} (sound : state.Sound)
    (found : state.calls[index]? = some call) (member : (id, some version) ∈ call.writes.sessions)
    (present : state.world.sessions.row id = some stored) : SessionChanged stored (some version) :=
  sound.world.sessions.changes id index _ stored
    (((sound.owned_call found).sessions id _).mpr member) present

end State

end Relays.Auth
