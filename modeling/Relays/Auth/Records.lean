import Relays.Core.Time
import Relays.Library.Relation

/-! Rows of the account tables. A row is stored under its primary key and does not repeat it;
sessions and one-time passwords carry their CHECK constraints. -/

namespace Relays

open ReadCommitted

structure User where
  email : String
  name : String
  isVerified : Bool := true
  createdAt : Time
  updatedAt : Time

/-- `UNIQUE (email)`. -/
def User.clash (first second : User) : Bool := first.email = second.email

theorem User.clash_symm (first second : User) : first.clash second = second.clash first := by
  simp [User.clash, eq_comm]

inductive WorkspaceStatus where
  | active
  | suspended
  | deleted
  deriving DecidableEq, Repr

structure Workspace where
  name : String
  slug : String
  status : WorkspaceStatus := .active
  createdAt : Time
  updatedAt : Time

/-- `UNIQUE (slug)`. -/
def Workspace.clash (first second : Workspace) : Bool := first.slug = second.slug

theorem Workspace.clash_symm (first second : Workspace) :
    first.clash second = second.clash first := by
  simp [Workspace.clash, eq_comm]

inductive WorkspaceMemberRole where
  | owner
  | member
  deriving DecidableEq, Repr

structure WorkspaceMember where
  workspaceId : Uuid
  userId : Uuid
  role : WorkspaceMemberRole := .member
  joinedAt : Time

/-- `uq_workspace_single_owner`. -/
def WorkspaceMember.clash (first second : WorkspaceMember) : Bool :=
  first.role = .owner && second.role = .owner && first.workspaceId = second.workspaceId

theorem WorkspaceMember.clash_symm (first second : WorkspaceMember) :
    first.clash second = second.clash first := by
  unfold WorkspaceMember.clash
  rw [Bool.and_comm (decide (first.role = .owner))]
  simp [eq_comm]

structure Session where
  userId : Uuid
  refreshTokenHash : String
  expiresAt : Time
  revokedAt : Option Time := none
  createdAt : Time

structure Session.Checks (row : Session) : Prop where
  chkSessionExpiry : row.createdAt < row.expiresAt
  chkSessionRevocation : ∀ time ∈ row.revokedAt, row.createdAt ≤ time

instance : DecidablePred Session.Checks := fun row =>
  decidable_of_iff (row.createdAt < row.expiresAt ∧ ∀ time ∈ row.revokedAt, row.createdAt ≤ time)
    ⟨fun ⟨expiry, revocation⟩ => ⟨expiry, revocation⟩,
      fun ⟨expiry, revocation⟩ => ⟨expiry, revocation⟩⟩

abbrev StoredSession := { row : Session // row.Checks }

/-- `uq_sessions_refresh_token_hash`. -/
def Session.clash (first second : StoredSession) : Bool :=
  first.val.refreshTokenHash = second.val.refreshTokenHash

theorem Session.clash_symm (first second : StoredSession) :
    Session.clash first second = Session.clash second first := by
  simp [Session.clash, eq_comm]

/-- A one-time password: of an email in `registration_otp`, of a user in `login_otp`. -/
structure Otp (Owner : Type) where
  owner : Owner
  otpHash : String
  expiresAt : Time
  consumedAt : Option Time := none
  createdAt : Time

structure Otp.Checks {Owner : Type} (row : Otp Owner) : Prop where
  chkConsumedAfterCreation : ∀ time ∈ row.consumedAt, row.createdAt ≤ time
  chkExpiryAfterCreation : row.createdAt < row.expiresAt

instance {Owner : Type} : DecidablePred (@Otp.Checks Owner) := fun row =>
  decidable_of_iff ((∀ time ∈ row.consumedAt, row.createdAt ≤ time) ∧ row.createdAt < row.expiresAt)
    ⟨fun ⟨consumed, expiry⟩ => ⟨consumed, expiry⟩, fun ⟨consumed, expiry⟩ => ⟨consumed, expiry⟩⟩

abbrev StoredOtp (Owner : Type) := { row : Otp Owner // row.Checks }

abbrev OtpTable (Owner : Type) := Relation Uuid Nat (StoredOtp Owner)

/-- `uq_email` and `uq_user_id`. -/
def Otp.clash {Owner : Type} [DecidableEq Owner] (first second : StoredOtp Owner) : Bool :=
  first.val.owner = second.val.owner

theorem Otp.clash_symm {Owner : Type} [DecidableEq Owner] (first second : StoredOtp Owner) :
    Otp.clash first second = Otp.clash second first := by
  simp [Otp.clash, eq_comm]

end Relays
