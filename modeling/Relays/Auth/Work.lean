import Relays.Library.Progress
import Relays.Auth.OtpFlow

/-! The statements that a call of the account system has yet to run, and its place in the order in
which the calls take their locks: codes, users, workspaces, memberships, sessions. -/

namespace Relays.Auth

open ReadCommitted Transition

section Statements

variable {config : Config} {tx : Nat} {world next : World} {draw : Draw}
variable {email otp name workspaceName refreshToken : String}

namespace OtpVerification

def Phase.statements {Owner : Type} : Phase Owner → Nat
  | .reading => 4
  | .read _ _ => 3
  | .expired | .matched _ _ => 2
  | .deleting _ | .consuming _ _ _ => 1

theorem Moves.statements_lt {Owner : Type} [DecidableEq Owner] {now : Time} {owner : Owner}
    {code : String}
    {table after : OtpTable Owner} {phase last : Phase Owner}
    (moves : Moves config now tx owner code table phase after (.continues last)) :
      last.statements < phase.statements := by
  cases moves with
  | reads | expires | compares | removes | selects => simp [Phase.statements]

end OtpVerification

namespace RequestRegistrationOtp

def Phase.statements : Phase → Nat
  | .begun _ => 6
  | .unregistered _ => 5
  | .replacing _ => 4
  | .deleting _ _ => 3
  | .cleared _ _ => 2
  | .created _ _ _ => 1
  | .ended _ => 0

theorem step_statements {phase after : Phase}
    (taken : step config tx world email draw phase = some (next, after)) :
    after.statements < phase.statements := by
  cases phase with
  | begun | unregistered | replacing =>
    simp only [step] at taken
    split at taken <;> cases taken <;> simp [Phase.statements]
  | deleting =>
    simp only [step] at taken
    split at taken <;> cases taken <;> simp [Phase.statements]
  | cleared =>
    simp only [step] at taken
    split at taken
    · cases taken
      simp [Phase.statements]
    · split at taken <;> cases taken <;> simp [Phase.statements]
  | created =>
    cases taken
    simp [Phase.statements]
  | ended => cases taken

end RequestRegistrationOtp

namespace VerifyRegistrationOtp

def Phase.statements : Phase → Nat
  | .checking _ phase => phase.statements + 1
  | .consumed _ _ _ _ => 1
  | .ended _ => 0

theorem step_statements {phase after : Phase}
    (taken : step config tx world email otp phase = some (next, after)) :
    after.statements < phase.statements := by
  cases phase with
  | checking now phase =>
    simp only [step] at taken
    split at taken
    · cases taken
    · rename_i moved
      cases taken
      exact Nat.succ_lt_succ (OtpVerification.step_moves moved).statements_lt
    all_goals
      cases taken
      cases phase <;> simp [Phase.statements, OtpVerification.Phase.statements]
  | consumed =>
    cases taken
    simp [Phase.statements]
  | ended => cases taken

end VerifyRegistrationOtp

namespace CreateAccount

def Phase.statements : Phase → Nat
  | .begun _ _ _ => 7
  | .unregistered _ _ _ => 6
  | .available _ _ _ => 5
  | .userCreated _ _ _ _ => 4
  | .workspaceCreated _ _ _ _ _ => 3
  | .memberCreated _ _ _ _ _ _ => 2
  | .sessionCreated _ _ _ _ _ _ _ _ _ => 1
  | .ended _ => 0

theorem step_statements {phase after : Phase}
    (taken : step config tx world name workspaceName draw phase = some (next, after)) :
    after.statements < phase.statements := by
  cases phase with
  | begun | unregistered | available | userCreated | workspaceCreated =>
    simp only [step] at taken
    split at taken <;> cases taken <;> simp [Phase.statements]
  | memberCreated =>
    simp only [step] at taken
    split at taken
    · cases taken
      simp [Phase.statements]
    · split at taken <;> cases taken <;> simp [Phase.statements]
  | sessionCreated =>
    cases taken
    simp [Phase.statements]
  | ended => cases taken

end CreateAccount

namespace RequestLoginOtp

def Phase.statements : Phase → Nat
  | .begun => 6
  | .identified _ => 5
  | .deleting _ _ => 4
  | .deleted _ _ => 3
  | .cleared _ => 2
  | .created _ _ => 1
  | .ended _ => 0

theorem step_statements {phase after : Phase}
    (taken : step config tx world email draw phase = some (next, after)) :
    after.statements < phase.statements := by
  cases phase with
  | begun | identified =>
    simp only [step] at taken
    split at taken <;> cases taken <;> simp [Phase.statements]
  | deleting =>
    simp only [step] at taken
    split at taken
    · cases taken
    · cases taken
      simp [Phase.statements]
    · cases taken
      split <;> simp [Phase.statements]
  | deleted | created =>
    cases taken
    simp [Phase.statements]
  | cleared =>
    simp only [step] at taken
    split at taken
    · cases taken
      simp [Phase.statements]
    · split at taken <;> cases taken <;> simp [Phase.statements]
  | ended => cases taken

end RequestLoginOtp

namespace AuthenticateAccount

def Phase.statements : Phase → Nat
  | .begun _ => 8
  | .checking _ _ phase => phase.statements + 3
  | .consumed _ _ _ _ _ _ => 3
  | .contextual _ _ _ _ _ _ => 2
  | .sessionCreated _ _ _ _ _ _ _ _ => 1
  | .ended _ => 0

theorem step_statements {phase after : Phase}
    (taken : step config tx world email otp draw phase = some (next, after)) :
      after.statements < phase.statements := by
  cases phase with
  | begun =>
    simp only [step] at taken
    split at taken <;> cases taken <;> simp [Phase.statements, OtpVerification.Phase.statements]
  | checking now userId phase =>
    simp only [step] at taken
    split at taken
    · cases taken
    · rename_i moved
      cases taken
      have shorter := (OtpVerification.step_moves moved).statements_lt
      simp only [Phase.statements]
      omega
    all_goals
      cases taken
      cases phase <;> simp [Phase.statements, OtpVerification.Phase.statements]
  | consumed =>
    simp only [step] at taken
    split at taken <;> cases taken <;> simp [Phase.statements]
  | contextual =>
    simp only [step] at taken
    split at taken
    · cases taken
      simp [Phase.statements]
    · split at taken <;> cases taken <;> simp [Phase.statements]
  | sessionCreated =>
    cases taken
    simp [Phase.statements]
  | ended => cases taken

end AuthenticateAccount

namespace RefreshAccessToken

def Phase.statements : Phase → Nat
  | .begun _ => 5
  | .read _ _ _ => 4
  | .live _ _ => 3
  | .identified _ _ => 2
  | .expired _ _ _ | .rotated _ _ _ _ => 1
  | .ended _ => 0

theorem step_statements {phase after : Phase}
    (taken : step config tx world refreshToken draw phase = some (next, after)) :
      after.statements < phase.statements := by
  cases phase with
  | begun | read | expired | live | identified =>
    simp only [step] at taken
    split at taken <;> cases taken <;> simp [Phase.statements]
  | rotated =>
    cases taken
    simp [Phase.statements]
  | ended => cases taken

end RefreshAccessToken

namespace Logout

def Phase.statements : Phase → Nat
  | .begun _ => 3
  | .read _ _ _ => 2
  | .revoked _ _ _ => 1
  | .ended _ => 0

theorem step_statements {phase after : Phase}
    (taken : step config tx world refreshToken phase = some (next, after)) :
    after.statements < phase.statements := by
  cases phase with
  | begun | read =>
    simp only [step] at taken
    split at taken <;> cases taken <;> simp [Phase.statements]
  | revoked =>
    cases taken
    simp [Phase.statements]
  | ended => cases taken

end Logout

end Statements

namespace Call

/-- The statements the call has yet to run. -/
def statements : Call → Nat
  | requestRegistrationOtp _ phase => phase.statements
  | verifyRegistrationOtp _ _ phase => phase.statements
  | createAccount _ _ phase => phase.statements
  | requestLoginOtp _ phase => phase.statements
  | authenticateAccount _ _ phase => phase.statements
  | refreshAccessToken _ phase => phase.statements
  | logout _ phase => phase.statements

/-- Where the next statement of the call stands in the order in which locks are taken. A call that
only commits, or only replaces the code it has deleted, comes last. -/
def rank : Call → Nat
  | requestRegistrationOtp _ (.cleared _ (some _)) | requestRegistrationOtp _ (.created _ _ _) => 5
  | requestRegistrationOtp _ _ => 0
  | verifyRegistrationOtp _ _ (.consumed _ _ _ _) => 5
  | verifyRegistrationOtp _ _ _ => 0
  | createAccount _ _ (.userCreated _ _ _ _) => 2
  | createAccount _ _ (.workspaceCreated _ _ _ _ _) => 3
  | createAccount _ _ (.memberCreated _ _ _ _ _ _) => 4
  | createAccount _ _ (.sessionCreated _ _ _ _ _ _ _ _ _) => 5
  | createAccount _ _ _ => 1
  | requestLoginOtp _ (.deleted _ _) | requestLoginOtp _ (.created _ _) => 5
  | requestLoginOtp _ _ => 0
  | authenticateAccount _ _ (.consumed _ _ _ _ _ _)
  | authenticateAccount _ _ (.contextual _ _ _ _ _ _) => 4
  | authenticateAccount _ _ (.sessionCreated _ _ _ _ _ _ _ _) => 5
  | authenticateAccount _ _ _ => 0
  | refreshAccessToken _ (.rotated _ _ _ _) => 5
  | refreshAccessToken _ _ => 4
  | logout _ (.revoked _ _ _) => 5
  | logout _ _ => 4

variable {config : Config} {tx : Nat} {world next : World} {draw : Draw} {call after : Call}

theorem step_statements (taken : call.step config tx world draw = some (next, after)) :
    after.statements < call.statements := by
  cases call with
  | requestRegistrationOtp =>
    obtain ⟨phase, moved, rfl⟩ := Processes.mapped_eq_some.mp taken
    exact RequestRegistrationOtp.step_statements moved
  | verifyRegistrationOtp =>
    obtain ⟨phase, moved, rfl⟩ := Processes.mapped_eq_some.mp taken
    exact VerifyRegistrationOtp.step_statements moved
  | createAccount =>
    obtain ⟨phase, moved, rfl⟩ := Processes.mapped_eq_some.mp taken
    exact CreateAccount.step_statements moved
  | requestLoginOtp =>
    obtain ⟨phase, moved, rfl⟩ := Processes.mapped_eq_some.mp taken
    exact RequestLoginOtp.step_statements moved
  | authenticateAccount =>
    obtain ⟨phase, moved, rfl⟩ := Processes.mapped_eq_some.mp taken
    exact AuthenticateAccount.step_statements moved
  | refreshAccessToken =>
    obtain ⟨phase, moved, rfl⟩ := Processes.mapped_eq_some.mp taken
    exact RefreshAccessToken.step_statements moved
  | logout =>
    obtain ⟨phase, moved, rfl⟩ := Processes.mapped_eq_some.mp taken
    exact Logout.step_statements moved

theorem statements_fail (call : Call) : call.fail.statements = 0 := by cases call <;> rfl

theorem statements_pos (running : call.outcome = none) : 0 < call.statements := by
  cases call with
  | requestRegistrationOtp _ phase | createAccount _ _ phase | requestLoginOtp _ phase
  | refreshAccessToken _ phase
  | logout _ phase | verifyRegistrationOtp _ _ phase | authenticateAccount _ _ phase =>
    cases phase <;> simp_all [outcome, statements, RequestRegistrationOtp.Phase.statements,
      VerifyRegistrationOtp.Phase.statements, CreateAccount.Phase.statements,
        RequestLoginOtp.Phase.statements,
      AuthenticateAccount.Phase.statements, RefreshAccessToken.Phase.statements,
        Logout.Phase.statements]

end Call

end Relays.Auth
