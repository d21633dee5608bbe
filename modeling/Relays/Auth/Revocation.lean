import Relays.Auth.SessionRows

/-! Revocation is final and local: a revoked session stays revoked, no refresh and no logout of it
succeeds any more, and the calls on one session leave the others alone. -/

namespace Relays.Auth

open ReadCommitted Transition

namespace Call

/-- A refresh that has returned tokens, or a logout that has revoked its session. -/
def succeeded : Call → Bool
  | refreshAccessToken _ (.ended (.tokens _ _)) | logout _ (.ended .done) => true
  | _ => false

/-- The calls on a session. -/
def onSession : Call → Bool
  | refreshAccessToken _ _ | logout _ _ => true
  | _ => false

variable {config : Config} {tx : Nat} {world next : World} {draw : Draw} {call after : Call}
    {id : Uuid}

/-- The statement with which a refresh or a logout succeeds commits the session it has written. -/
theorem step_succeeded (taken : call.step config tx world draw = some (next, after))
    (succeeds : after.succeeded = true) :
    ∃ id result, call.session = some id ∧ (id, some result) ∈ call.writes.sessions := by
  cases call with
  | refreshAccessToken token phase =>
    obtain ⟨last, moved, rfl⟩ := Processes.mapped_eq_some.mp taken
    cases phase with
    | rotated id session result => exact ⟨id, result, rfl, List.mem_singleton.mpr rfl⟩
    | _ =>
      simp only [RefreshAccessToken.step] at moved
      try split at moved
      all_goals
        cases moved
        try cases succeeds
  | logout token phase =>
    obtain ⟨last, moved, rfl⟩ := Processes.mapped_eq_some.mp taken
    cases phase with
    | revoked id session result => exact ⟨id, result, rfl, List.mem_singleton.mpr rfl⟩
    | _ =>
      simp only [Logout.step] at moved
      try split at moved
      all_goals
        cases moved
        try cases succeeds
  | requestRegistrationOtp | verifyRegistrationOtp | createAccount | requestLoginOtp
  | authenticateAccount =>
    obtain ⟨last, moved, rfl⟩ := Processes.mapped_eq_some.mp taken
    cases succeeds

/-- A call on a session writes that session only. -/
theorem session_of_writes {version : Option StoredSession}
    (member : (id, version) ∈ call.writes.sessions)
    (acts : call.onSession = true) : call.session = some id := by
  cases call with
  | refreshAccessToken token phase =>
    cases phase with
    | rotated =>
      cases List.mem_singleton.mp member
      rfl
    | _ => cases member
  | logout token phase =>
    cases phase with
    | revoked =>
      cases List.mem_singleton.mp member
      rfl
    | _ => cases member
  | requestRegistrationOtp | verifyRegistrationOtp | createAccount | requestLoginOtp
  | authenticateAccount =>
    cases acts

end Call

/-- The session is committed as revoked. -/
def Revoked (state : State) (id : Uuid) : Prop :=
  ∃ row, state.world.sessions.row id = some row ∧ row.val.revokedAt ≠ none

/-- The step with which a refresh or a logout of this session succeeds. -/
structure Succeeds (config : Config) (events front : List State.Event) (before : State) (id : Uuid)
    (after : State) : Prop where
  call : ∃ index draw call last,
    Takes (State.system config) events front before (.call index draw) after ∧
    before.calls[index]? = some call ∧ call.session = some id ∧
    after.calls[index]? = some last ∧ last.succeeded = true

/-- What a run with these events keeps of revocations. -/
structure RevocationFinal (config : Config) (events : List State.Event) : Prop where
  kept : ∀ front middle back state id, Run (State.system config) Any front middle →
    Run (State.system config) Any (front ++ back) state → front ++ back = events →
      Revoked middle id →
    Revoked state id
  refused : ∀ front before after id, Succeeds config events front before id after →
    ¬ Revoked before id
  named : ∀ front before after index draw last,
    Takes (State.system config) events front before (.call index draw) after →
    after.calls[index]? = some last → last.succeeded = true →
      ∃ id, Succeeds config events front before id after
  apart : ∀ front before after index draw call other,
    Takes (State.system config) events front before (.call index draw) after →
    before.calls[index]? = some call → call.onSession = true → call.session ≠ some other →
    after.world.sessions.row other = before.world.sessions.row other

namespace State

variable {config : Config} {state after : State} {event : Event} {id : Uuid}

/-- The row of a revoked session is under no lock. -/
theorem Sound.unwritten {index : Nat} {call : Call} {result : StoredSession} (sound : state.Sound)
    (revoked : Revoked state id) (found : state.calls[index]? = some call) :
    (id, some result) ∉ call.writes.sessions := by
  intro member
  obtain ⟨row, present, ended⟩ := revoked
  exact ended (sound.permitted found member present).1

theorem Moves.revoked (moves : Moves config state event after) (sound : state.Sound)
    (revoked : Revoked state id) :
    Revoked after id := by
  rcases moves.session_cases sound id with same | ⟨_, _, _, _, _, found, member, _⟩
  · obtain ⟨row, present, ended⟩ := revoked
    exact ⟨row, same.trans present, ended⟩
  · exact absurd member (sound.unwritten revoked found)

end State

theorem revocation_final (config : Config)
    (events : List State.Event) : RevocationFinal config events where
  kept front middle back state id reached run split revoked := by
    apply run.keeps rfl reached revoked
    intro earlier before event after ran held _ taken
    exact (State.step_moves taken).revoked (State.run_sound ran) held
  refused front before after id succeeds revoked := by
    obtain ⟨index, draw, call, last, takes, found, names, entry, done⟩ := succeeds.call
    have moves : State.Moves config before (.call index draw) after := State.step_moves takes.taken
    cases moves with
    | call found' taken =>
      obtain rfl := Option.some.inj (found'.symm.trans found)
      obtain rfl := Option.some.inj ((Processes.set_self found).symm.trans entry)
      obtain ⟨one, result, named, member⟩ := Call.step_succeeded taken done
      obtain rfl := Option.some.inj (named.symm.trans names)
      exact (State.run_sound takes.reached).unwritten revoked found member
  named front before after index draw last takes entry done := by
    have moves : State.Moves config before (.call index draw) after := State.step_moves takes.taken
    cases moves with
    | call found taken =>
      obtain rfl := Option.some.inj ((Processes.set_self found).symm.trans entry)
      obtain ⟨id, _, named, _⟩ := Call.step_succeeded taken done
      exact ⟨id, ⟨index, draw, _, _, takes, found, named, entry, done⟩⟩
  apart front before after index draw call other takes found acts elsewhere := by
    have moves : State.Moves config before (.call index draw) after := State.step_moves takes.taken
    rcases moves.session_cases (State.run_sound takes.reached) other with
      same | ⟨_, _, _, _, acting, found', member, _⟩
    · exact same
    · cases acting
      obtain rfl := Option.some.inj (found'.symm.trans found)
      exact absurd (Call.session_of_writes member acts) elsewhere

end Relays.Auth
