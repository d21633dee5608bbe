import Relays.Auth.FreshOtp
import Relays.Auth.Rollback
import Relays.Auth.SessionRows

/-! A call that finds its code or its session expired removes or revokes it and then raises, inside
one transaction: the exception takes the clean-up back. -/

namespace Relays.Auth

open ReadCommitted Transition

/-- A row that a call can find expired. -/
inductive Credential where
  | registrationOtp (id : Uuid)
  | loginOtp (id : Uuid)
  | session (id : Uuid)
  deriving DecidableEq

/-- The code is gone, the session is revoked. -/
def Credential.Cleaned (world : World) : Credential → Prop
  | .registrationOtp id => world.registrationOtps.row id = none
  | .loginOtp id => world.loginOtps.row id = none
  | .session id => ∃ session, world.sessions.row id = some session ∧
    session.val.revokedAt.isSome = true

/-- The row that the next statement of a call finds expired. -/
def Call.findsExpired (clock : Time) : Call → Option Credential
  | .verifyRegistrationOtp _ _ (.checking _ (.read id otp)) =>
    if otp.val.expiresAt ≤ clock then some (.registrationOtp id) else none
  | .authenticateAccount _ _ (.checking _ _ (.read id otp)) =>
    if otp.val.expiresAt ≤ clock then some (.loginOtp id) else none
  | .refreshAccessToken _ (.read _ sessionId session) =>
    if session.val.expiresAt ≤ clock then some (.session sessionId) else none
  | _ => none

/-- A call that has found this row expired and has ended in an `APIException`. -/
structure Rejection (config : Config) (events : List State.Event) where
  index : Nat
  credential : Credential
  {checked front : List State.Event}
  {seen next before after : State}
  {draw last : Draw}
  {call ended : Call}
  {error : APIException}
  checks : Takes (State.system config) events checked seen (.call index draw) next
  checking : seen.calls[index]? = some call
  expired : call.findsExpired seen.world.clock = some credential
  later : checked.length < front.length
  rejects : Takes (State.system config) events front before (.call index last) after
  rejected : after.calls[index]? = some ended
  answer : ended.outcome = some (.error error)

/-- Whoever is rejected for an expired row leaves it cleaned up. -/
def CleansUp (config : Config) (events : List State.Event) : Prop :=
  ∀ rejection : Rejection config events, rejection.credential.Cleaned rejection.after.world

/-- Another transaction has cleaned the row up before the rejection. -/
def Overtaken (config : Config) (events : List State.Event) : Prop :=
  ∀ rejection : Rejection config events, rejection.credential.Cleaned rejection.before.world

/-- Once the call of this index has arrived, no other call takes a statement. -/
def Solo (index : Nat) (before : State) : State.Event → Prop
  | .tick _ | .arrive _ => True
  | .call acting _ => index < before.calls.length → acting = index
  | .abort _ => before.calls.length ≤ index

/-- The code is there, the session is not revoked. -/
def Credential.Standing (world : World) : Credential → Prop
  | .registrationOtp id => ∃ otp, world.registrationOtps.row id = some otp
  | .loginOtp id => ∃ otp, world.loginOtps.row id = some otp
  | .session id => ∃ session, world.sessions.row id = some session ∧ session.val.revokedAt = none

/-- The row that the next statement of a call checks is the committed one. -/
def Call.Reads (world : World) : Call → Prop
  | .verifyRegistrationOtp _ _ (.checking _ (.read id otp)) => world.registrationOtps.row id =
    some otp
  | .authenticateAccount _ _ (.checking _ _ (.read id otp)) => world.loginOtps.row id = some otp
  | .refreshAccessToken _ (.read _ id session) => world.sessions.row id = some session ∧
    session.val.revokedAt = none
  | _ => True

/-- The call has found its row expired and is about to raise. -/
def Call.rejecting : Call → Bool
  | .verifyRegistrationOtp _ _ (.checking _ .expired)
  | .verifyRegistrationOtp _ _ (.checking _ (.deleting _))
  | .authenticateAccount _ _ (.checking _ _ .expired)
  | .authenticateAccount _ _ (.checking _ _ (.deleting _))
  | .refreshAccessToken _ (.expired _ _ _) => true
  | _ => false

section Runs

variable {config : Config} {events : List State.Event} {state before after : State}
    {event : State.Event}
variable {credential : Credential} {world next : World} {call last : Call} {tx index : Nat}
    {draw : Draw} {error : APIException}

theorem Credential.cleaned_congr (same : world.SameRows next) : credential.Cleaned next ↔
    credential.Cleaned world := by
  cases credential with
  | registrationOtp id => simp only [Cleaned, same.registrationOtps]
  | loginOtp id => simp only [Cleaned, same.loginOtps]
  | session id => simp only [Cleaned, same.sessions]

/-- The statement that raises leaves the committed rows as they are. -/
theorem Rejection.sameRows (rejection : Rejection config events) :
    rejection.before.world.SameRows rejection.after.world := by
  have moves : State.Moves config rejection.before
      (.call rejection.index rejection.last) rejection.after :=
    State.step_moves rejection.rejects.taken
  exact moves.sameRows_of_failed (State.run_sound rejection.rejects.reached) rejection.rejected
    rejection.answer rfl

/-- The rejection itself neither cleans up nor takes a clean-up back. -/
theorem cleansUp_iff_overtaken : CleansUp config events ↔ Overtaken config events := by
  constructor
  · intro cleans rejection
    exact (Credential.cleaned_congr rejection.sameRows).mp (cleans rejection)
  · intro overtaken rejection
    exact (Credential.cleaned_congr rejection.sameRows).mpr (overtaken rejection)

theorem Credential.Standing.not_cleaned (standing : credential.Standing world) :
    ¬ credential.Cleaned world := by
  cases credential with
  | registrationOtp id | loginOtp id =>
    obtain ⟨otp, present⟩ := standing
    intro gone
    cases present.symm.trans gone
  | session id =>
    obtain ⟨session, present, live⟩ := standing
    rintro ⟨revoked, there, set⟩
    obtain rfl := Option.some.inj (present.symm.trans there)
    rw [live] at set
    cases set

theorem Credential.standing_congr (same : world.SameRows next) : credential.Standing next ↔
    credential.Standing world := by
  cases credential with
  | registrationOtp id => simp only [Standing, same.registrationOtps]
  | loginOtp id => simp only [Standing, same.loginOtps]
  | session id => simp only [Standing, same.sessions]

theorem Call.Reads.standing (reads : call.Reads world) {clock : Time}
    (expired : call.findsExpired clock = some credential) :
    credential.Standing world := by
  unfold Call.findsExpired at expired
  split at expired
  · split at expired
    · cases expired
      exact ⟨_, reads⟩
    · cases expired
  · split at expired
    · cases expired
      exact ⟨_, reads⟩
    · cases expired
  · split at expired
    · cases expired
      exact ⟨_, reads⟩
    · cases expired
  · cases expired

/-- A transaction that has written no code looks a committed one up. -/
theorem OtpVerification.getOtp_committed {Owner : Type} [DecidableEq Owner] {table : OtpTable Owner}
    {owner : Owner} {id : Uuid}
    {otp : StoredOtp Owner} (owned : table.Owned tx [])
    (hit : getOtp table tx owner = some (id, otp)) : table.row id = some otp := by
  obtain ⟨seen, _, _⟩ := getOtp_some hit
  rwa [Relation.view_of_unwritten owned] at seen

/-- A refresh reads its session first of all. -/
theorem RefreshAccessToken.step_read {phase : Phase} {token : String} {now : Time} {id : Uuid}
    {session : StoredSession}
    (taken : step config tx world token draw phase = some (next, .read now id session)) :
    phase.writes = {} ∧ getSessionByRefreshTokenHash world.sessions tx
      (hashRefreshToken config token) = some (id, session) := by
  cases phase with
  | begun =>
    simp only [step] at taken
    split at taken
    · cases taken
    · rename_i hit
      cases taken
      exact ⟨rfl, hit⟩
  | _ =>
    simp only [step] at taken
    try split at taken
    all_goals cases taken

/-- What a call reads before it has written anything is committed. -/
theorem Call.step_reads (sound : world.Sound) (owned : world.Owned tx call.writes)
    (taken : call.step config tx world draw = some (next, last)) : last.Reads next := by
  have moves := Call.step_moves sound taken
  cases call with
  | verifyRegistrationOtp email code phase =>
    obtain ⟨phase', moved, rfl⟩ := Processes.mapped_eq_some.mp taken
    cases VerifyRegistrationOtp.step_passes moved with
    | checks stepped =>
      cases stepped with
      | reads hit =>
        have committed := OtpVerification.getOtp_committed owned.registrationOtps hit
        exact (congrFun (moves.sameRows owned).registrationOtps _).trans committed
      | _ => trivial
    | _ => trivial
  | authenticateAccount email code phase =>
    obtain ⟨phase', moved, rfl⟩ := Processes.mapped_eq_some.mp taken
    cases AuthenticateAccount.step_passes moved with
    | checks stepped =>
      cases stepped with
      | reads hit =>
        have committed := OtpVerification.getOtp_committed owned.loginOtps hit
        exact (congrFun (moves.sameRows owned).loginOtps _).trans committed
      | _ => trivial
    | _ => trivial
  | refreshAccessToken refreshToken phase =>
    obtain ⟨phase', moved, rfl⟩ := Processes.mapped_eq_some.mp taken
    cases phase' with
    | read now id session =>
      obtain ⟨unwritten, hit⟩ := RefreshAccessToken.step_read moved
      obtain ⟨seen, _, live⟩ := getSessionByRefreshTokenHash_some hit
      have writesNothing : (Call.refreshAccessToken refreshToken phase).writes = {} := unwritten
      rw [writesNothing] at moves owned
      rw [Relation.view_of_unwritten owned.sessions] at seen
      exact ⟨(congrFun (moves.sameRows owned).sessions _).trans seen, live⟩
    | _ => trivial
  | _ =>
    obtain ⟨phase', moved, rfl⟩ := Processes.mapped_eq_some.mp taken
    trivial

/-- The check of an expired row changes nothing and leads to the clean-up. -/
theorem Call.step_expired (expired : call.findsExpired world.clock = some credential)
    (taken : call.step config tx world draw = some (next, last)) : next = world ∧
      last.rejecting = true := by
  unfold Call.findsExpired at expired
  split at expired
  · split at expired
    · rename_i passed
      simp [Call.step, VerifyRegistrationOtp.step, OtpVerification.step, OtpVerification.check,
        passed] at taken
      obtain ⟨rfl, rfl⟩ := taken
      exact ⟨rfl, rfl⟩
    · cases expired
  · split at expired
    · rename_i passed
      simp [Call.step, AuthenticateAccount.step, OtpVerification.step, OtpVerification.check,
        passed] at taken
      obtain ⟨rfl, rfl⟩ := taken
      exact ⟨rfl, rfl⟩
    · cases expired
  · split at expired
    · rename_i passed
      simp [Call.step, RefreshAccessToken.step, passed] at taken
      obtain ⟨rfl, rfl⟩ := taken
      exact ⟨rfl, rfl⟩
    · cases expired
  · cases expired

theorem Call.rejecting_writes (rejecting : call.rejecting = true) : call.writes = {} := by
  unfold Call.rejecting at rejecting
  split at rejecting <;> first | rfl | cases rejecting

/-- A call that cleans up goes on to raise. -/
theorem Call.step_rejecting (rejecting : call.rejecting = true)
    (taken : call.step config tx world draw = some (next, last)) :
    last.rejecting = true ∨ last.outcome.isSome = true := by
  cases call with
  | verifyRegistrationOtp email code phase =>
    obtain ⟨phase', moved, rfl⟩ := Processes.mapped_eq_some.mp taken
    cases VerifyRegistrationOtp.step_passes moved with
    | checks stepped =>
      cases stepped with
      | removes => exact .inl rfl
      | _ => cases rejecting
    | consumes stepped =>
      cases stepped
      cases rejecting
    | succeeds | fails => exact .inr rfl
  | authenticateAccount email code phase =>
    obtain ⟨phase', moved, rfl⟩ := Processes.mapped_eq_some.mp taken
    cases AuthenticateAccount.step_passes moved with
    | checks stepped =>
      cases stepped with
      | removes => exact .inl rfl
      | _ => cases rejecting
    | consumes stepped =>
      cases stepped
      cases rejecting
    | succeeds | fails => exact .inr rfl
    | _ => cases rejecting
  | refreshAccessToken refreshToken phase =>
    obtain ⟨phase', moved, rfl⟩ := Processes.mapped_eq_some.mp taken
    cases phase with
    | expired =>
      simp only [RefreshAccessToken.step] at moved
      split at moved
      · cases moved
      · cases moved
        exact .inr rfl
      · cases moved
        exact .inr rfl
    | _ => cases rejecting
  | _ => cases rejecting

theorem Call.reads_congr (same : world.SameRows next)
    (reads : call.Reads world) : call.Reads next := by
  unfold Call.Reads at reads ⊢
  split at reads
  · rwa [same.registrationOtps]
  · rwa [same.loginOtps]
  · rwa [same.sessions]
  · trivial

theorem World.sameRows_tick (world : World) (clock : Time) : world.SameRows { world with clock } :=
    ⟨rfl, rfl, rfl, rfl, rfl, rfl⟩

/-- The step of a solo run that is not one of the call is taken before the call is there. -/
theorem Solo.own {acting : Nat} (solo : Solo index before (.call acting draw))
    (there : before.calls[index]? = some call) :
    acting = index := by
  obtain ⟨inside, _⟩ := List.getElem?_eq_some_iff.mp there
  exact solo inside

/-- A call that runs alone checks the committed row. -/
theorem reads_of_solo (run : Run (State.system config) (Solo index) events state) :
    ∀ call, state.calls[index]? = some call → call.Reads state.world := by
  apply run.invariant
  · intro call found
    cases found
  · intro events before event after earlier holds solo taken call found
    have sound := State.run_sound earlier
    have moves : State.Moves config before event after := State.step_moves taken
    cases moves with
    | tick => exact Call.reads_congr (World.sameRows_tick _ _) (holds call found)
    | arrive =>
      rcases Processes.append_cases found with ⟨_, rfl⟩ | there
      · rename_i request _
        cases request <;> trivial
      · exact holds call there
    | call entry moved =>
      rcases Processes.set_cases found with ⟨rfl, rfl⟩ | ⟨different, there⟩
      · exact Call.step_reads sound.world (sound.owned_call entry) moved
      · exact absurd (solo.own there).symm different
    | abort entry running =>
      have absent : before.calls.length ≤ index := solo
      rw [List.getElem?_eq_none (by rwa [List.length_set])] at found
      cases found

/-- The call of this index has found its row expired, and the row is as it was. -/
def Undone (index : Nat) (credential : Credential) (state : State) : Prop :=
  credential.Standing state.world ∧
    ∃ call, state.calls[index]? = some call ∧ (call.rejecting = true ∨ call.outcome.isSome = true)

theorem Undone.begins (moves : State.Moves config before (.call index draw) after)
    (reads : ∀ call, before.calls[index]? = some call → call.Reads before.world)
    (there : before.calls[index]? = some call)
    (expired : call.findsExpired before.world.clock = some credential) :
      Undone index credential after := by
  cases moves with
  | call found taken =>
    obtain rfl := Option.some.inj (found.symm.trans there)
    obtain ⟨rfl, rejecting⟩ := Call.step_expired expired taken
    exact ⟨(reads _ there).standing expired, _, Processes.set_self found, .inl rejecting⟩

/-- Neither the statements of the call nor the passing of time change the row. -/
theorem Undone.step (undone : Undone index credential before) (sound : before.Sound)
    (solo : Solo index before event)
    (moves : State.Moves config before event after) : Undone index credential after := by
  obtain ⟨standing, call, there, progress⟩ := undone
  cases moves with
  | tick => exact ⟨(Credential.standing_congr (World.sameRows_tick _ _)).mpr standing, call, there,
    progress⟩
  | arrive => exact ⟨standing, call, Processes.append_earlier there, progress⟩
  | call found taken =>
    obtain rfl := solo.own there
    obtain rfl := Option.some.inj (found.symm.trans there)
    rcases progress with rejecting | ended
    · have moved := Call.step_moves sound.world taken
      have owned := sound.owned_call found
      rw [Call.rejecting_writes rejecting] at moved owned
      exact ⟨(Credential.standing_congr (moved.sameRows owned)).mpr standing, _,
        Processes.set_self found,
        Call.step_rejecting rejecting taken⟩
    · obtain ⟨outcome, answer⟩ := Option.isSome_iff_exists.mp ended
      rw [Call.step_ended answer] at taken
      cases taken
  | abort found running =>
    have absent : before.calls.length ≤ index := solo
    rw [List.getElem?_eq_none absent] at there
    cases there

/-- The clean-up of a call that runs alone never survives. -/
theorem Rejection.not_cleaned_of_solo (rejection : Rejection config events)
    (solo : Run (State.system config) (Solo rejection.index) rejection.front rejection.before) :
    ¬ rejection.credential.Cleaned rejection.after.world := by
  have within := rejection.checks.within rejection.rejects rejection.later
  obtain ⟨alone, _⟩ := within.permitted solo
  have checks : State.Moves config rejection.seen
      (.call rejection.index rejection.draw) rejection.next :=
    State.step_moves within.taken
  have begins : Undone rejection.index rejection.credential rejection.next :=
    Undone.begins checks (reads_of_solo alone) rejection.checking rejection.expired
  obtain ⟨back, split⟩ := within.split
  rw [List.append_cons] at split
  have undone : Undone rejection.index rejection.credential rejection.before := by
    apply solo.keeps split within.run begins
    intro events before event after earlier held permitted taken
    exact held.step (State.run_sound earlier) permitted (State.step_moves taken)
  intro cleaned
  exact undone.1.not_cleaned ((Credential.cleaned_congr rejection.sameRows).mp cleaned)

theorem cleans_up_iff : (CleansUp config events ↔ Overtaken config events) ∧
    ∀ rejection : Rejection config events,
      Run (State.system config) (Solo rejection.index) rejection.front rejection.before →
      ¬ rejection.credential.Cleaned rejection.after.world :=
  ⟨cleansUp_iff_overtaken, Rejection.not_cleaned_of_solo⟩

end Runs

/-- A code is requested, and looked up when it has expired. -/
def looksUpLate : List State.Event :=
  .arrive (.requestRegistrationOtp "ann@example.com" true) :: calls 0 [⟨0, ""⟩, ⟨0, ""⟩,
    ⟨10, "111111"⟩, ⟨0, ""⟩] ++
    [.tick otpExpiry, .arrive (.verifyRegistrationOtp "ann@example.com" "111111"), .call 1 ⟨0, ""⟩]

def verifiesLate : List State.Event := looksUpLate ++ calls 1 [⟨0, ""⟩, ⟨0, ""⟩, ⟨0, ""⟩]

private def looksUpExpired (state : State) : Bool :=
  (state.calls[1]?).bind (Call.findsExpired state.world.clock) = some (.registrationOtp 10)

private def rejectsExpired (state : State) : Bool :=
  (state.calls[1]?).bind Call.outcome = some (.error OtpVerification.invalidOtp) &&
    (state.world.registrationOtps.row 10).isSome

theorem expired_code_kept : ∃ state, Run (State.system sampleConfig) Any verifiesLate state ∧
    ¬ CleansUp sampleConfig verifiesLate := by
  obtain ⟨state, run, observed⟩ :=
    Run.exists_of_execute (State.system sampleConfig) Any verifiesLate rejectsExpired (by decide)
  refine ⟨state, run, ?_⟩
  intro cleans
  obtain ⟨looking, reached, looks⟩ :=
    Run.exists_of_execute (State.system sampleConfig) Any looksUpLate looksUpExpired (by decide)
  have split : verifiesLate = looksUpLate ++ .call 1 ⟨0, ""⟩ :: calls 1 [⟨0, ""⟩, ⟨0, ""⟩] := rfl
  obtain ⟨seen, next, checks⟩ := run.takes split
  obtain rfl := checks.reached.unique reached
  have parts : verifiesLate = (looksUpLate ++ calls 1 [⟨0, ""⟩, ⟨0, ""⟩]) ++ .call 1 ⟨0, ""⟩ ::
    [] := rfl
  obtain ⟨before, after, rejects⟩ := run.takes parts
  obtain rfl := run.unique (parts ▸ rejects.run)
  obtain ⟨answered, present⟩ := Bool.and_eq_true_iff.mp observed
  obtain ⟨ended, rejected, answer⟩ := Option.bind_eq_some_iff.mp (of_decide_eq_true answered)
  obtain ⟨call, checking, expired⟩ := Option.bind_eq_some_iff.mp (of_decide_eq_true looks)
  have gone := cleans ⟨1, .registrationOtp 10, checks, checking, expired, by decide, rejects,
    rejected, answer⟩
  have nothing : state.world.registrationOtps.row 10 = none := gone
  rw [nothing] at present
  cases present

end Relays.Auth
