import Relays.Auth.Invariant

/-! A call that ends in an error rolls its transaction back: the last statement leaves the committed
rows as they are, whatever the statements before it have written. -/

namespace Relays.Auth

open ReadCommitted Transition

/-- The call has raised an exception. -/
def Outcome.failed : Outcome → Bool
  | .error _ | .unhandled => true
  | .done | .registrationToken _ | .tokens _ _ => false

/-- The committed rows of the two worlds are the same. -/
structure World.SameRows (world next : World) : Prop where
  users : next.users.row = world.users.row
  workspaces : next.workspaces.row = world.workspaces.row
  members : next.members.row = world.members.row
  sessions : next.sessions.row = world.sessions.row
  registrationOtps : next.registrationOtps.row = world.registrationOtps.row
  loginOtps : next.loginOtps.row = world.loginOtps.row

theorem World.sameRows_rollback (world : World)
    (tx : Nat) : world.SameRows (world.rollback tx) := by
  constructor <;> exact funext fun key => Table.rollback_committed _

/-- A transaction that has written nothing leaves the committed rows as they are. -/
theorem World.Moves.sameRows {world next : World} {tx : Nat} {written : Writes}
    (moves : World.Moves tx {} world written next)
    (owned : world.Owned tx {}) : world.SameRows next := by
  have unwritten {Key Row : Type} [DecidableEq Key] {clash : Row → Row → Bool} {changed : Row →
    Option Row → Prop}
      {before after : Relation Key Nat Row} {written : List (Key × Option Row)}
      (moves : Relation.Moves clash changed tx [] before written after)
        (owned : before.Owned tx []) : after.row = before.row := by
    funext key
    rcases moves.row_cases owned key with same | ⟨_, member, _⟩
    · exact same
    · cases member
  exact ⟨unwritten moves.users owned.users, unwritten moves.workspaces owned.workspaces,
    unwritten moves.members owned.members,
    unwritten moves.sessions owned.sessions,
      unwritten moves.registrationOtps owned.registrationOtps,
    unwritten moves.loginOtps owned.loginOtps⟩

section Workflows

variable {config : Config} {tx : Nat} {world next : World}
    {email otp name workspaceName refreshToken : String}
variable {draw : Draw} {outcome : Outcome}

theorem RequestRegistrationOtp.step_failed {phase : Phase} (failed : outcome.failed = true)
    (taken : step config tx world email draw phase = some (next, .ended outcome)) :
      next = world.rollback tx := by
  cases phase with
  | created => cases taken; cases failed
  | ended => cases taken
  | begun | unregistered | replacing | deleting | cleared =>
    simp only [step] at taken
    repeat' split at taken
    all_goals first | cases taken; rfl | cases taken

theorem VerifyRegistrationOtp.step_failed {phase : Phase} (sound : world.Sound)
    (failed : outcome.failed = true)
    (taken : step config tx world email otp phase = some (next, .ended outcome)) :
      next = world.rollback tx := by
  cases phase with
  | checking now phase =>
    simp only [step] at taken
    split at taken
    · cases taken
    all_goals
      rename_i checked
      have leaves := OtpVerification.step_leaves sound.registrationOtps checked
      cases taken
    all_goals exact registrationOtps_rollback leaves
  | consumed =>
    cases taken
    cases failed
  | ended => cases taken

theorem CreateAccount.step_failed {phase : Phase} (failed : outcome.failed = true)
    (taken : step config tx world name workspaceName draw phase = some (next, .ended outcome)) :
      next = world.rollback tx := by
  cases phase with
  | sessionCreated => cases taken; cases failed
  | ended => cases taken
  | begun | unregistered | available | userCreated | workspaceCreated | memberCreated =>
    simp only [step] at taken
    repeat' split at taken
    all_goals first | cases taken; rfl | cases taken

theorem RequestLoginOtp.step_failed {phase : Phase} (failed : outcome.failed = true)
    (taken : step config tx world email draw phase = some (next, .ended outcome)) :
      next = world.rollback tx := by
  cases phase with
  | created => cases taken; cases failed
  | ended | deleted => cases taken
  | begun | identified | deleting | cleared =>
    simp only [step] at taken
    repeat' split at taken
    all_goals first | cases taken; rfl | cases taken; cases failed | cases taken

theorem AuthenticateAccount.step_failed {phase : Phase} (sound : world.Sound)
    (failed : outcome.failed = true)
    (taken : step config tx world email otp draw phase = some (next, .ended outcome)) :
      next = world.rollback tx := by
  cases phase with
  | checking now userId phase =>
    simp only [step] at taken
    split at taken
    · cases taken
    all_goals
      rename_i checked
      have leaves := OtpVerification.step_leaves sound.loginOtps checked
      cases taken
    all_goals exact loginOtps_rollback leaves
  | sessionCreated => cases taken; cases failed
  | ended => cases taken
  | begun | consumed | contextual =>
    simp only [step] at taken
    repeat' split at taken
    all_goals first | cases taken; rfl | cases taken

theorem RefreshAccessToken.step_failed {phase : Phase} (failed : outcome.failed = true)
    (taken : step config tx world refreshToken draw phase = some (next, .ended outcome)) :
      next = world.rollback tx := by
  cases phase with
  | expired now sessionId session =>
    simp only [step] at taken
    split at taken
    · cases taken
    · cases taken
      rfl
    · rename_i done
      cases taken
      exact sessions_rollback (revokeSession_rollback done)
  | rotated => cases taken; cases failed
  | ended => cases taken
  | begun | read | live | identified =>
    simp only [step] at taken
    repeat' split at taken
    all_goals first | cases taken; rfl | cases taken

theorem Logout.step_failed {phase : Phase} (failed : outcome.failed = true)
    (taken : step config tx world refreshToken phase = some (next, .ended outcome)) :
      next = world.rollback tx := by
  cases phase with
  | revoked => cases taken; cases failed
  | ended => cases taken
  | begun | read =>
    simp only [step] at taken
    repeat' split at taken
    all_goals first | cases taken; rfl | cases taken

end Workflows

/-- The statement with which a call fails rolls its transaction back. -/
theorem Call.step_failed {config : Config} {tx : Nat} {world next : World} {draw : Draw}
    {call after : Call} {outcome : Outcome}
    (sound : world.Sound) (taken : call.step config tx world draw = some (next, after))
    (ended : after.outcome = some outcome)
    (failed : outcome.failed = true) : next = world.rollback tx := by
  cases call with
  | requestRegistrationOtp email phase =>
    obtain ⟨last, moved, rfl⟩ := Processes.mapped_eq_some.mp taken
    cases last with
    | ended => cases ended; exact RequestRegistrationOtp.step_failed failed moved
    | _ => cases ended
  | verifyRegistrationOtp email otp phase =>
    obtain ⟨last, moved, rfl⟩ := Processes.mapped_eq_some.mp taken
    cases last with
    | ended => cases ended; exact VerifyRegistrationOtp.step_failed sound failed moved
    | _ => cases ended
  | createAccount name workspaceName phase =>
    obtain ⟨last, moved, rfl⟩ := Processes.mapped_eq_some.mp taken
    cases last with
    | ended => cases ended; exact CreateAccount.step_failed failed moved
    | _ => cases ended
  | requestLoginOtp email phase =>
    obtain ⟨last, moved, rfl⟩ := Processes.mapped_eq_some.mp taken
    cases last with
    | ended => cases ended; exact RequestLoginOtp.step_failed failed moved
    | _ => cases ended
  | authenticateAccount email otp phase =>
    obtain ⟨last, moved, rfl⟩ := Processes.mapped_eq_some.mp taken
    cases last with
    | ended => cases ended; exact AuthenticateAccount.step_failed sound failed moved
    | _ => cases ended
  | refreshAccessToken refreshToken phase =>
    obtain ⟨last, moved, rfl⟩ := Processes.mapped_eq_some.mp taken
    cases last with
    | ended => cases ended; exact RefreshAccessToken.step_failed failed moved
    | _ => cases ended
  | logout refreshToken phase =>
    obtain ⟨last, moved, rfl⟩ := Processes.mapped_eq_some.mp taken
    cases last with
    | ended => cases ended; exact Logout.step_failed failed moved
    | _ => cases ended

theorem State.Moves.sameRows_of_failed {config : Config} {state after : State} {index : Nat}
    {draw : Draw} {call : Call}
    {outcome : Outcome} (moves : State.Moves config state (.call index draw) after)
    (sound : state.Sound)
    (ended : after.calls[index]? = some call) (answer : call.outcome = some outcome)
    (failed : outcome.failed = true) :
    state.world.SameRows after.world := by
  cases moves with
  | call found taken =>
    obtain rfl := Option.some.inj ((Processes.set_self found).symm.trans ended)
    obtain rfl := Call.step_failed sound.world taken answer failed
    exact World.sameRows_rollback _ _

end Relays.Auth
