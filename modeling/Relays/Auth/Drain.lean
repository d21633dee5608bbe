import Relays.Library.Locks
import Relays.Auth.Work

/-! The account system left to itself. Every call takes its locks in one order, so the calls never
wait for each other in a circle, and the calls that have arrived are all answered. -/

namespace Relays.Auth

open ReadCommitted Transition

/-- What the next statement of a call waits for. -/
inductive Call.WaitsFor (tx : Nat) (world : World) (holder : Nat) : Call → Prop where
  | deleteRegistrationOtp (kept : world.registrationOtps.cells.Kept target tx holder) :
      WaitsFor tx world holder (.requestRegistrationOtp email (.deleting now target))
  | createRegistrationOtp {otp : StoredOtp String} (own : otp.val.owner = email)
      (disputed : world.registrationOtps.Disputed tx (Otp.clash otp) holder key) :
      WaitsFor tx world holder (.requestRegistrationOtp email (.cleared now deleted))
  | expireRegistrationOtp (kept : world.registrationOtps.cells.Kept target tx holder) :
      WaitsFor tx world holder (.verifyRegistrationOtp email code
        (.checking now (.deleting target)))
  | consumeRegistrationOtp {id : Uuid} (kept : world.registrationOtps.cells.Kept target tx holder) :
      WaitsFor tx world holder (.verifyRegistrationOtp email code
        (.checking now (.consuming id otp target)))
  | createUser (disputed : world.users.Disputed tx (User.clash user) holder key) :
      WaitsFor tx world holder (.createAccount name workspaceName (.available now email slug))
  | createWorkspace (disputed : world.workspaces.Disputed tx
    (Workspace.clash workspace) holder key) :
      WaitsFor tx world holder (.createAccount name workspaceName
        (.userCreated now slug userId user))
  | createWorkspaceMembership
      (disputed : world.members.Disputed tx (WorkspaceMember.clash member) holder key) :
      WaitsFor tx world holder
        (.createAccount name workspaceName
          (.workspaceCreated now userId user workspaceId workspace))
  | createSession {session : StoredSession}
      (disputed : world.sessions.Disputed tx (Session.clash session) holder key) :
      WaitsFor tx world holder
        (.createAccount name workspaceName
          (.memberCreated now userId user workspaceId workspace member))
  | deleteLoginOtp (kept : world.loginOtps.cells.Kept target tx holder) :
      WaitsFor tx world holder (.requestLoginOtp email (.deleting userId target))
  | createLoginOtp {otp : StoredOtp Uuid}
      (disputed : world.loginOtps.Disputed tx (Otp.clash otp) holder key) :
      WaitsFor tx world holder (.requestLoginOtp email (.cleared userId))
  | expireLoginOtp (kept : world.loginOtps.cells.Kept target tx holder) :
      WaitsFor tx world holder (.authenticateAccount email code
        (.checking now userId (.deleting target)))
  | consumeLoginOtp {id : Uuid} (kept : world.loginOtps.cells.Kept target tx holder) :
      WaitsFor tx world holder (.authenticateAccount email code
        (.checking now userId (.consuming id otp target)))
  | startSession {id : Uuid} {session : StoredSession}
      (disputed : world.sessions.Disputed tx (Session.clash session) holder key) :
      WaitsFor tx world holder (.authenticateAccount email code
        (.contextual now userId id otp target result))
  | revokeExpired {session : StoredSession} (kept : world.sessions.cells.Kept sessionId tx holder) :
      WaitsFor tx world holder (.refreshAccessToken refreshToken (.expired now sessionId session))
  | rotate {session : StoredSession} (kept : world.sessions.cells.Kept sessionId tx holder) :
      WaitsFor tx world holder (.refreshAccessToken refreshToken (.identified sessionId session))
  | rotateHash {session next : StoredSession}
      (disputed : world.sessions.Disputed tx (Session.clash next) holder key) :
      WaitsFor tx world holder (.refreshAccessToken refreshToken (.identified sessionId session))
  | revoke {session : StoredSession} (kept : world.sessions.cells.Kept sessionId tx holder) :
      WaitsFor tx world holder (.logout refreshToken (.read now sessionId session))

section Statements

variable {config : Config} {tx : Nat} {world : World} {draw : Draw} {now : Time} {id : Uuid}
variable {email otp name workspaceName slug refreshToken : String}

theorem createUser_waits (locked : createUser world tx now id name email = .waits) :
    ∃ user holder key, world.users.Disputed tx (User.clash user) holder key := by
  unfold createUser at locked
  split at locked
  · rename_i waits
    exact ⟨_, Relation.insert_waits waits⟩
  · cases locked
  · cases locked

theorem createWorkspace_waits (locked : createWorkspace world tx now id name slug = .waits) :
    ∃ workspace holder key, world.workspaces.Disputed tx
      (Workspace.clash workspace) holder key := by
  unfold createWorkspace at locked
  split at locked
  · rename_i waits
    exact ⟨_, Relation.insert_waits waits⟩
  · cases locked
  · cases locked

theorem createWorkspaceMembership_waits {workspaceId userId : Uuid} {role : WorkspaceMemberRole}
    (locked : createWorkspaceMembership world tx now workspaceId userId role = .waits) :
    ∃ member holder key, world.members.Disputed tx (WorkspaceMember.clash member) holder key := by
  unfold createWorkspaceMembership at locked
  split at locked
  · rename_i waits
    exact ⟨_, Relation.insert_waits waits⟩
  · cases locked
  · cases locked

/-- A verification waits for the row that it deletes or consumes. -/
theorem OtpVerification.step_none {Owner : Type} [DecidableEq Owner] {clock : Time} {owner : Owner}
    {code : String}
    {table : OtpTable Owner} {phase : Phase Owner}
    (stuck : step config clock now tx owner code table phase = none) :
    ∃ target holder, table.cells.Kept target tx holder ∧
      (phase = .deleting target ∨ ∃ id otp, phase = .consuming id otp target) := by
  cases phase with
  | reading | expired | matched =>
    simp only [step] at stuck
    split at stuck <;> cases stuck
  | read => cases stuck
  | deleting target =>
    simp only [step] at stuck
    split at stuck
    · rename_i waits
      obtain ⟨holder, kept⟩ := Relation.delete_waits waits
      exact ⟨target, holder, kept, .inl rfl⟩
    · cases stuck
    · cases stuck
  | consuming id otp target =>
    simp only [step] at stuck
    split at stuck
    · rename_i waits
      obtain ⟨holder, kept⟩ := Relation.update_waits waits
      exact ⟨target, holder, kept, .inr ⟨id, otp, rfl⟩⟩
    all_goals cases stuck

theorem RequestRegistrationOtp.step_none {phase : Phase}
    (stuck : step config tx world email draw phase = none) :
    (∃ outcome, phase = .ended outcome) ∨
      ∃ holder, Call.WaitsFor tx world holder (.requestRegistrationOtp email phase) := by
  cases phase with
  | begun | unregistered | replacing =>
    simp only [step] at stuck
    split at stuck <;> cases stuck
  | deleting now target =>
    simp only [step] at stuck
    split at stuck
    · rename_i waits
      obtain ⟨holder, kept⟩ := Relation.delete_waits waits
      exact .inr ⟨holder, .deleteRegistrationOtp kept⟩
    · cases stuck
    · cases stuck
  | cleared now deleted =>
    simp only [step] at stuck
    split at stuck
    · cases stuck
    · rename_i made
      split at stuck
      · rename_i waits
        obtain ⟨holder, key, disputed⟩ := Relation.insert_waits waits
        exact .inr ⟨holder, .createRegistrationOtp (by rw [newOtp_val made]) disputed⟩
      · cases stuck
      · cases stuck
  | created => cases stuck
  | ended outcome => exact .inl ⟨outcome, rfl⟩

theorem VerifyRegistrationOtp.step_none {phase : Phase}
    (stuck : step config tx world email otp phase = none) :
    (∃ outcome, phase = .ended outcome) ∨
      ∃ holder, Call.WaitsFor tx world holder (.verifyRegistrationOtp email otp phase) := by
  cases phase with
  | checking now phase =>
    simp only [step] at stuck
    split at stuck
    · rename_i waits
      obtain ⟨target, holder, kept, rfl | ⟨id, row, rfl⟩⟩ := OtpVerification.step_none waits
      · exact .inr ⟨holder, .expireRegistrationOtp kept⟩
      · exact .inr ⟨holder, .consumeRegistrationOtp kept⟩
    all_goals cases stuck
  | consumed => cases stuck
  | ended outcome => exact .inl ⟨outcome, rfl⟩

theorem CreateAccount.step_none {phase : Phase}
    (stuck : step config tx world name workspaceName draw phase = none) :
    (∃ outcome, phase = .ended outcome) ∨
      ∃ holder, Call.WaitsFor tx world holder (.createAccount name workspaceName phase) := by
  cases phase with
  | begun | unregistered =>
    simp only [step] at stuck
    split at stuck <;> cases stuck
  | available =>
    simp only [step] at stuck
    split at stuck
    · rename_i waits
      obtain ⟨user, holder, key, disputed⟩ := createUser_waits waits
      exact .inr ⟨holder, .createUser disputed⟩
    · cases stuck
    · cases stuck
  | userCreated =>
    simp only [step] at stuck
    split at stuck
    · rename_i waits
      obtain ⟨workspace, holder, key, disputed⟩ := createWorkspace_waits waits
      exact .inr ⟨holder, .createWorkspace disputed⟩
    · cases stuck
    · cases stuck
  | workspaceCreated =>
    simp only [step] at stuck
    split at stuck
    · rename_i waits
      obtain ⟨member, holder, key, disputed⟩ := createWorkspaceMembership_waits waits
      exact .inr ⟨holder, .createWorkspaceMembership disputed⟩
    · cases stuck
    · cases stuck
  | memberCreated =>
    simp only [step] at stuck
    split at stuck
    · cases stuck
    · split at stuck
      · rename_i waits
        obtain ⟨holder, key, disputed⟩ := Relation.insert_waits waits
        exact .inr ⟨holder, .createSession disputed⟩
      · cases stuck
      · cases stuck
  | sessionCreated => cases stuck
  | ended outcome => exact .inl ⟨outcome, rfl⟩

theorem RequestLoginOtp.step_none {phase : Phase}
    (stuck : step config tx world email draw phase = none) :
    (∃ outcome, phase = .ended outcome) ∨
      ∃ holder, Call.WaitsFor tx world holder (.requestLoginOtp email phase) := by
  cases phase with
  | begun | identified =>
    simp only [step] at stuck
    split at stuck <;> cases stuck
  | deleting userId target =>
    simp only [step] at stuck
    split at stuck
    · rename_i waits
      obtain ⟨holder, kept⟩ := Relation.delete_waits waits
      exact .inr ⟨holder, .deleteLoginOtp kept⟩
    · cases stuck
    · cases stuck
  | deleted | created => cases stuck
  | cleared =>
    simp only [step] at stuck
    split at stuck
    · cases stuck
    · split at stuck
      · rename_i waits
        obtain ⟨holder, key, disputed⟩ := Relation.insert_waits waits
        exact .inr ⟨holder, .createLoginOtp disputed⟩
      · cases stuck
      · cases stuck
  | ended outcome => exact .inl ⟨outcome, rfl⟩

theorem AuthenticateAccount.step_none {phase : Phase}
    (stuck : step config tx world email otp draw phase = none) :
    (∃ outcome, phase = .ended outcome) ∨
      ∃ holder, Call.WaitsFor tx world holder (.authenticateAccount email otp phase) := by
  cases phase with
  | begun | consumed =>
    simp only [step] at stuck
    split at stuck <;> cases stuck
  | checking now userId phase =>
    simp only [step] at stuck
    split at stuck
    · rename_i waits
      obtain ⟨target, holder, kept, rfl | ⟨id, row, rfl⟩⟩ := OtpVerification.step_none waits
      · exact .inr ⟨holder, .expireLoginOtp kept⟩
      · exact .inr ⟨holder, .consumeLoginOtp kept⟩
    all_goals cases stuck
  | contextual =>
    simp only [step] at stuck
    split at stuck
    · cases stuck
    · split at stuck
      · rename_i waits
        obtain ⟨holder, key, disputed⟩ := Relation.insert_waits waits
        exact .inr ⟨holder, .startSession disputed⟩
      · cases stuck
      · cases stuck
  | sessionCreated => cases stuck
  | ended outcome => exact .inl ⟨outcome, rfl⟩

theorem RefreshAccessToken.step_none {phase : Phase}
    (stuck : step config tx world refreshToken draw phase = none) :
    (∃ outcome, phase = .ended outcome) ∨
      ∃ holder, Call.WaitsFor tx world holder (.refreshAccessToken refreshToken phase) := by
  cases phase with
  | begun | read | live =>
    simp only [step] at stuck
    split at stuck <;> cases stuck
  | expired now sessionId session =>
    simp only [step] at stuck
    split at stuck
    · rename_i waits
      obtain ⟨holder, kept⟩ := Relation.update_waits waits
      exact .inr ⟨holder, .revokeExpired kept⟩
    · cases stuck
    · cases stuck
  | identified sessionId session =>
    simp only [step] at stuck
    split at stuck
    · rename_i waits
      rcases Relation.updateUnique_waits waits with ⟨holder, kept⟩
        | ⟨_, next, holder, key, _, disputed⟩
      · exact .inr ⟨holder, .rotate kept⟩
      · exact .inr ⟨holder, .rotateHash disputed⟩
    all_goals cases stuck
  | rotated => cases stuck
  | ended outcome => exact .inl ⟨outcome, rfl⟩

theorem Logout.step_none {phase : Phase} (stuck : step config tx world refreshToken phase = none) :
    (∃ outcome, phase = .ended outcome) ∨
      ∃ holder, Call.WaitsFor tx world holder (.logout refreshToken phase) := by
  cases phase with
  | begun =>
    simp only [step] at stuck
    split at stuck <;> cases stuck
  | read now sessionId session =>
    simp only [step] at stuck
    split at stuck
    · rename_i waits
      obtain ⟨holder, kept⟩ := Relation.update_waits waits
      exact .inr ⟨holder, .revoke kept⟩
    all_goals cases stuck
  | revoked => cases stuck
  | ended outcome => exact .inl ⟨outcome, rfl⟩

/-- The statement that deletes a code leaves its committed row, of the same email. -/
theorem RequestRegistrationOtp.step_replaces {phase : Phase} {next : World} {target : Uuid}
    (owned : world.registrationOtps.Owned tx phase.writes.registrationOtps)
    (taken : step config tx world email draw phase = some (next, .cleared now (some target))) :
    ∃ stored, next.registrationOtps.row target = some stored ∧ stored.val.owner = email := by
  cases phase with
  | deleting began chosen =>
    simp only [step] at taken
    split at taken
    · cases taken
    · cases taken
    · rename_i table deleted done
      cases deleted with
      | false => cases taken
      | true =>
        cases taken
        obtain ⟨stored, _, seen, matched, rfl⟩ := Relation.delete_returns done
        rw [Relation.view_of_unwritten owned] at seen
        exact ⟨stored, by simpa [Relation.row] using seen, by simpa [ownedBy] using matched⟩
  | unregistered | replacing =>
    simp only [step] at taken
    split at taken <;> cases taken
  | begun =>
    simp only [step] at taken
    split at taken <;> cases taken
  | cleared =>
    simp only [step] at taken
    split at taken
    · cases taken
    · split at taken <;> cases taken
  | created | ended => cases taken

end Statements

namespace Call

variable {config : Config} {tx holder : Nat} {world : World} {draw : Draw} {call : Call}

theorem step_none (running : call.outcome = none) (stuck : call.step config tx world draw = none) :
    ∃ holder, WaitsFor tx world holder call := by
  cases call with
  | requestRegistrationOtp email phase =>
    rcases RequestRegistrationOtp.step_none (Option.map_eq_none_iff.mp stuck) with ⟨_, rfl⟩ | waits
    · cases running
    · exact waits
  | verifyRegistrationOtp email otp phase =>
    rcases VerifyRegistrationOtp.step_none (Option.map_eq_none_iff.mp stuck) with ⟨_, rfl⟩ | waits
    · cases running
    · exact waits
  | createAccount name workspaceName phase =>
    rcases CreateAccount.step_none (Option.map_eq_none_iff.mp stuck) with ⟨_, rfl⟩ | waits
    · cases running
    · exact waits
  | requestLoginOtp email phase =>
    rcases RequestLoginOtp.step_none (Option.map_eq_none_iff.mp stuck) with ⟨_, rfl⟩ | waits
    · cases running
    · exact waits
  | authenticateAccount email otp phase =>
    rcases AuthenticateAccount.step_none (Option.map_eq_none_iff.mp stuck) with ⟨_, rfl⟩ | waits
    · cases running
    · exact waits
  | refreshAccessToken refreshToken phase =>
    rcases RefreshAccessToken.step_none (Option.map_eq_none_iff.mp stuck) with ⟨_, rfl⟩ | waits
    · cases running
    · exact waits
  | logout refreshToken phase =>
    rcases Logout.step_none (Option.map_eq_none_iff.mp stuck) with ⟨_, rfl⟩ | waits
    · cases running
    · exact waits

/-- How far a call has come that holds a lock of each table. -/
structure Advanced (call : Call) : Prop where
  registrationOtps : call.writes.registrationOtps ≠ [] → call.rank = 5
  loginOtps : call.writes.loginOtps ≠ [] → 4 ≤ call.rank
  users : call.writes.users ≠ [] → 2 ≤ call.rank
  workspaces : call.writes.workspaces ≠ [] → 3 ≤ call.rank
  members : call.writes.members ≠ [] → 4 ≤ call.rank
  sessions : call.writes.sessions ≠ [] → call.rank = 5

theorem advanced (call : Call) : call.Advanced := by
  cases call with
  | requestRegistrationOtp email phase =>
    cases phase with
    | cleared now deleted =>
      cases deleted <;> constructor <;>
        simp [writes, RequestRegistrationOtp.Phase.writes, deletedOtp, rank]
    | _ => constructor <;> simp [writes, RequestRegistrationOtp.Phase.writes, rank]
  | verifyRegistrationOtp email otp phase =>
    cases phase <;> constructor <;> simp [writes, VerifyRegistrationOtp.Phase.writes, rank]
  | createAccount name workspaceName phase =>
    cases phase <;> constructor <;> simp [writes, CreateAccount.Phase.writes, rank]
  | requestLoginOtp email phase =>
    cases phase <;> constructor <;> simp [writes, RequestLoginOtp.Phase.writes, rank]
  | authenticateAccount email otp phase =>
    cases phase <;> constructor <;> simp [writes, AuthenticateAccount.Phase.writes, rank]
  | refreshAccessToken refreshToken phase =>
    cases phase <;> constructor <;> simp [writes, RefreshAccessToken.Phase.writes, rank]
  | logout refreshToken phase =>
    cases phase <;> constructor <;> simp [writes, Logout.Phase.writes, rank]

theorem rank_le (call : Call) : call.rank ≤ 5 := by
  unfold rank
  split <;> omega

theorem writes_of_outcome {outcome : Outcome}
    (ended : call.outcome = some outcome) : call.writes = {} := by
  cases call with
  | requestRegistrationOtp _ phase | createAccount _ _ phase | requestLoginOtp _ phase
  | refreshAccessToken _ phase
  | logout _ phase | verifyRegistrationOtp _ _ phase | authenticateAccount _ _ phase =>
    cases phase with
    | ended => rfl
    | _ => cases ended

end Call

namespace State

variable {config : Config} {state after : State} {events : List Event} {event : Event}
    {index holder : Nat}
variable {allowed : State → Event → Prop} {call : Call}

/-- Who holds a lock is a call that has written to the table and not ended. -/
theorem held_by {Key Row : Type} {relation : Relation Key Nat Row} {key : Key}
    (writes : Writes → List (Key × Option Row))
    (owned : relation.Owned holder (writes (state.writes holder)))
    (nothing : writes {} = []) (held : relation.cells.Owns holder key) :
    ∃ rival, state.calls[holder]? = some rival ∧ rival.outcome = none ∧
      writes rival.writes ≠ [] := by
  obtain ⟨version, held⟩ := held
  have member := (owned key version).mp held
  cases found : state.calls[holder]? with
  | none => simp [State.writes, found, nothing] at member
  | some rival =>
    have written : (key, version) ∈ writes rival.writes := by
      simpa [State.writes, found] using member
    have filled : writes rival.writes ≠ [] := List.ne_nil_of_mem written
    refine ⟨rival, rfl, ?_, filled⟩
    by_contra ended
    obtain ⟨outcome, ended⟩ := Option.ne_none_iff_exists'.mp ended
    exact filled (by rw [Call.writes_of_outcome ended, nothing])

/-- A registration code that a request has deleted and will replace is one of its own email. -/
def Replaces (state : State) : Prop :=
  ∀ (index : Nat) email now target,
    state.calls[index]? = some (.requestRegistrationOtp email (.cleared now (some target))) →
    ∃ stored, state.world.registrationOtps.row target = some stored ∧ stored.val.owner = email

theorem init_replaces : init.Replaces := by
  intro index email now target found
  cases found

/-- The deleted row keeps its committed version until the request ends. -/
theorem Moves.replaces (moves : Moves config state event after) (sound : state.Sound)
    (replaces : state.Replaces) :
    after.Replaces := by
  intro index email now target found
  have removed : (target, none) ∈ (after.writes index).registrationOtps := by
    simp [writes, found, Call.writes, RequestRegistrationOtp.Phase.writes, deletedOtp]
  rcases moves.call_cases found with earlier | ⟨request, _, _, same⟩
    | ⟨current, draw, rfl, entry, taken⟩ |
    ⟨current, _, _, same⟩
  · obtain ⟨stored, present, own⟩ := replaces index email now target earlier
    obtain ⟨acting, moved, _⟩ := moves.world_moves sound
    have kept : after.world.registrationOtps.row target =
        state.world.registrationOtps.row target := by
      by_cases mine : index = acting
      · subst mine
        exact moved.registrationOtps.row_of_written (sound.owned index).registrationOtps
          (List.ne_nil_of_mem removed) target
      · have held : (state.world.registrationOtps.cells target).pending = some (index, none) := by
          rw [(sound.owned_call earlier).registrationOtps]
          simp [Call.writes, RequestRegistrationOtp.Phase.writes, deletedOtp]
        exact congrArg Cell.committed
          ((moved.registrationOtps.frame sound.world.registrationOtps).kept target index none
            mine held)
    exact ⟨stored, kept.trans present, own⟩
  · have written := Request.start_writes config state.world.clock request
    rw [← same] at written
    simp [Call.writes, RequestRegistrationOtp.Phase.writes, deletedOtp] at written
  · obtain ⟨phase, rfl, moved⟩ : ∃ phase, current = .requestRegistrationOtp email phase ∧
        RequestRegistrationOtp.step config index state.world email draw phase =
          some (after.world, .cleared now (some target)) := by
      cases current with
      | requestRegistrationOtp address phase =>
        obtain ⟨last, moved, same⟩ := Processes.mapped_eq_some.mp taken
        obtain ⟨rfl, rfl⟩ := Call.requestRegistrationOtp.inj same
        exact ⟨phase, rfl, moved⟩
      | verifyRegistrationOtp | createAccount | requestLoginOtp | authenticateAccount
      | refreshAccessToken | logout =>
        obtain ⟨last, _, same⟩ := Processes.mapped_eq_some.mp taken
        cases same
    exact RequestRegistrationOtp.step_replaces (sound.owned_call entry).registrationOtps moved
  · have ended := Call.fail_writes current
    rw [← same] at ended
    simp [Call.writes, RequestRegistrationOtp.Phase.writes, deletedOtp] at ended

/-- A sound state whose requests replace only codes of their own email. -/
structure Ready (state : State) : Prop where
  sound : state.Sound
  replaces : state.Replaces

theorem Moves.ready (moves : Moves config state event after) (ready : state.Ready) : after.Ready :=
  ⟨moves.sound ready.sound, moves.replaces ready.sound ready.replaces⟩

theorem run_ready (run : Run (system config) allowed events state) : state.Ready :=
  run.invariant ⟨init_sound, init_replaces⟩ fun _ _ _ _ _ ready _ taken =>
    (step_moves taken).ready ready

/-- The call of one place waits for that of another. -/
def WaitsFor (state : State) (index holder : Nat) : Prop :=
  ∃ call, state.calls[index]? = some call ∧ call.WaitsFor index state.world holder

def Unfinished (state : State) (index : Nat) : Prop :=
  ∃ call, state.calls[index]? = some call ∧ call.outcome = none

def rank (state : State) (index : Nat) : Nat := (state.calls[index]?).elim 0 Call.rank

/-- Whoever keeps a call waiting has come further in the order of the locks. -/
theorem Ready.ordered (ready : state.Ready) (waits : state.WaitsFor index holder) :
    state.Unfinished holder ∧ state.rank index < state.rank holder := by
  obtain ⟨call, found, waits⟩ := waits
  have owned := ready.sound.owned holder
  suffices later : ∃ rival, state.calls[holder]? = some rival ∧ rival.outcome = none ∧
      call.rank < rival.rank by
    obtain ⟨rival, entry, running, behind⟩ := later
    exact ⟨⟨rival, entry, running⟩, by simpa [rank, found, entry] using behind⟩
  cases waits with
  | deleteRegistrationOtp kept | expireRegistrationOtp kept | consumeRegistrationOtp kept =>
    obtain ⟨rival, entry, running, filled⟩ :=
      held_by Writes.registrationOtps owned.registrationOtps rfl kept.2
    exact ⟨rival, entry, running, by rw [rival.advanced.registrationOtps filled]; simp [Call.rank]⟩
  | @createRegistrationOtp email key now deleted otp own disputed =>
    cases deleted with
    | none =>
      obtain ⟨rival, entry, running, filled⟩ :=
        held_by Writes.registrationOtps owned.registrationOtps rfl disputed.kept.2
      exact ⟨rival, entry, running,
        by rw [rival.advanced.registrationOtps filled]; simp [Call.rank]⟩
    | some target =>
      -- nobody else has changed a code of the email whose code the request has deleted
      obtain ⟨stored, present, same⟩ := ready.replaces index email now target found
      have held : (state.world.registrationOtps.cells target).pending = some (index, none) := by
        rw [(ready.sound.owned_call found).registrationOtps]
        simp [Call.writes, RequestRegistrationOtp.Phase.writes, deletedOtp]
      have replaces : ∀ other, Otp.clash otp other = Otp.clash stored other := fun other => by
        simp [Otp.clash, own, same]
      exact absurd disputed (ready.sound.world.registrationOtps.undisputed held present replaces
        holder key)
  | createUser disputed =>
    obtain ⟨rival, entry, running, filled⟩ := held_by Writes.users owned.users rfl disputed.kept.2
    exact ⟨rival, entry, running, rival.advanced.users filled⟩
  | createWorkspace disputed =>
    obtain ⟨rival, entry, running, filled⟩ :=
      held_by Writes.workspaces owned.workspaces rfl disputed.kept.2
    exact ⟨rival, entry, running, rival.advanced.workspaces filled⟩
  | createWorkspaceMembership disputed =>
    obtain ⟨rival, entry, running, filled⟩ :=
      held_by Writes.members owned.members rfl disputed.kept.2
    exact ⟨rival, entry, running, rival.advanced.members filled⟩
  | deleteLoginOtp kept | expireLoginOtp kept | consumeLoginOtp kept =>
    obtain ⟨rival, entry, running, filled⟩ := held_by Writes.loginOtps owned.loginOtps rfl kept.2
    exact ⟨rival, entry, running,
      Nat.lt_of_lt_of_le (by simp [Call.rank]) (rival.advanced.loginOtps filled)⟩
  | createLoginOtp disputed =>
    obtain ⟨rival, entry, running, filled⟩ :=
      held_by Writes.loginOtps owned.loginOtps rfl disputed.kept.2
    exact ⟨rival, entry, running,
      Nat.lt_of_lt_of_le (by simp [Call.rank]) (rival.advanced.loginOtps filled)⟩
  | createSession disputed | startSession disputed | rotateHash disputed =>
    obtain ⟨rival, entry, running, filled⟩ :=
      held_by Writes.sessions owned.sessions rfl disputed.kept.2
    exact ⟨rival, entry, running, by rw [rival.advanced.sessions filled]; simp [Call.rank]⟩
  | revokeExpired kept | rotate kept | revoke kept =>
    obtain ⟨rival, entry, running, filled⟩ := held_by Writes.sessions owned.sessions rfl kept.2
    exact ⟨rival, entry, running, by rw [rival.advanced.sessions filled]; simp [Call.rank]⟩

def waiting (ready : state.Ready) : Waiting Nat where
  unfinished := state.Unfinished
  waitsFor := state.WaitsFor
  rank := state.rank
  bound := 5
  bounded index := by
    unfold rank
    cases state.calls[index]? with
    | none => exact Nat.zero_le _
    | some call => exact call.rank_le
  ordered _ _ waits := ready.ordered waits

/-- A statement of a call, or its failure. -/
def Internal (_ : State) (event : Event) : Prop :=
  match event with
  | .call _ _ | .abort _ => True
  | .tick _ | .arrive _ => False

/-- A statement of a call, with an identifier that no row has had. -/
def Ordinary (state : State) (event : Event) : Prop :=
  match event with
  | .call _ draw => draw.id ∉ state.world.users.keys ++ state.world.workspaces.keys ++
    state.world.sessions.keys ++
      state.world.registrationOtps.keys ++ state.world.loginOtps.keys
  | .tick _ | .arrive _ | .abort _ => False

theorem Ordinary.internal (ordinary : state.Ordinary event) : state.Internal event := by
  cases event with
  | tick | arrive | abort => cases ordinary
  | call => trivial

/-- The statements that the calls have yet to run. -/
def work (state : State) : Nat := Processes.total Call.statements state.calls

def Answered (state : State) : Prop := ∀ call ∈ state.calls, call.outcome.isSome = true

theorem Moves.work_lt (moves : Moves config state event after) (internal : state.Internal event) :
    after.work < state.work := by
  cases moves with
  | tick | arrive => cases internal
  | @call _ _ _ last _ found taken =>
    have spent := Call.step_statements taken
    have summed := Processes.total_set Call.statements last found
    simp only [work]
    omega
  | @abort _ call found running =>
    have spent := Call.statements_pos running
    have summed := Processes.total_set Call.statements call.fail found
    rw [Call.statements_fail] at summed
    simp only [work]
    omega

theorem Ready.work_lt (ready : state.Ready) (internal : state.Internal event)
    (taken : step config state event = some after) : after.Ready ∧ after.work < state.work :=
  ⟨(step_moves taken).ready ready, (step_moves taken).work_lt internal⟩

/-- Some call that has not been answered takes a step. -/
theorem Ready.progress (config : Config) (ready : state.Ready) (open' : ¬ state.Answered) :
    ∃ event, state.Ordinary event ∧ (step config state event).isSome = true := by
  obtain ⟨index, running⟩ : ∃ index, state.Unfinished index := by
    by_contra none'
    refine open' fun call member => ?_
    obtain ⟨index, found⟩ := List.mem_iff_getElem?.mp member
    rw [Option.isSome_iff_ne_none]
    exact fun running => none' ⟨index, call, found, running⟩
  obtain ⟨holder, _, ⟨call, found, running⟩, free⟩ := (waiting ready).exists_free running
  obtain ⟨id, fresh⟩ := exists_unused (state.world.users.keys ++ state.world.workspaces.keys ++
    state.world.sessions.keys ++ state.world.registrationOtps.keys ++ state.world.loginOtps.keys)
  refine ⟨.call holder ⟨id, ""⟩, fresh, ?_⟩
  cases taken : call.step config holder state.world ⟨id, ""⟩ with
  | none =>
    obtain ⟨other, waits⟩ := Call.step_none running taken
    exact absurd ⟨call, found, waits⟩ (free other)
  | some result => simp [step, found, taken]

/-- The account system never deadlocks. In every reachable state no call waits, directly or through
others, for itself; in whatever order and with whatever failures the calls go on, they take at most
`work` statements, and where none is left each has been answered; and such a state can be reached
without a failure. -/
theorem calls_drain (run : Run (system config) allowed events state) :
    (∀ index, ¬ Relation.TransGen state.WaitsFor index index) ∧
    (∀ more after, Path (system config) Internal state more after →
      more.length + after.work ≤ state.work) ∧
    (∀ more after, Path (system config) Internal state more after →
      (∀ event, after.Ordinary event → step config after event = none) → after.Answered) ∧
    ∃ more after, Path (system config) Ordinary state more after ∧ after.Answered := by
  have ready := run_ready run
  refine ⟨(waiting ready).no_cycle, ?_, ?_, ?_⟩
  · intro more after path
    exact path.length_le ready fun before event next held internal taken =>
      held.work_lt internal taken
  · intro more after path stuck
    have held : after.Ready :=
      path.keeps ready fun _ _ _ held internal taken => (held.work_lt internal taken).1
    by_contra open'
    obtain ⟨event, ordinary, possible⟩ := held.progress config open'
    simp [stuck event ordinary] at possible
  · exact Path.exists_settled (fun before event next held ordinary taken =>
      held.work_lt ordinary.internal taken)
      (fun before held open' => held.progress config open') ready

/-- Two registrations of one email: the second waits for the user of the first. -/
def contends : List Event :=
  [.arrive (.createAccount "ann@example.com" "Ann" "Acme"),
    .arrive (.createAccount "ann@example.com" "Ann" "Acme")]
    ++ Auth.calls 0 [⟨0, ""⟩, ⟨0, ""⟩] ++ Auth.calls 1 [⟨0, ""⟩, ⟨0, ""⟩] ++ Auth.calls 0 [⟨1, ""⟩]

theorem calls_drain_contended : ∃ state, Run (system sampleConfig) Any contends state ∧
    step sampleConfig state (.call 1 ⟨2, ""⟩) = none ∧
    (∀ index, ¬ Relation.TransGen state.WaitsFor index index) ∧
    (∀ more after, Path (system sampleConfig) Internal state more after →
      more.length + after.work ≤ state.work) ∧
    (∀ more after, Path (system sampleConfig) Internal state more after →
      (∀ event, after.Ordinary event → step sampleConfig after event = none) → after.Answered) ∧
    ∃ more after, Path (system sampleConfig) Ordinary state more after ∧ after.Answered := by
  obtain ⟨state, run, observed⟩ := Run.exists_of_execute (system sampleConfig) Any contends
    (fun state => (step sampleConfig state (.call 1 ⟨2, ""⟩)).isNone) (by decide)
  exact ⟨state, run, by simpa using observed, calls_drain run⟩

end State

end Relays.Auth
