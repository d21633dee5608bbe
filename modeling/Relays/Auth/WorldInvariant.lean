import Relays.Auth.Queries

/-! What the statements of one transaction may do to the account tables, and what they keep
true of them. -/

namespace Relays.Auth

open ReadCommitted

/-- What a call has written and not yet committed, table by table. -/
structure Writes where
  users : List (Uuid × Option User) := []
  workspaces : List (Uuid × Option Workspace) := []
  members : List ((Uuid × Uuid) × Option WorkspaceMember) := []
  sessions : List (Uuid × Option StoredSession) := []
  registrationOtps : List (Uuid × Option (StoredOtp String)) := []
  loginOtps : List (Uuid × Option (StoredOtp Uuid)) := []

/-- Rows that no call updates or deletes. -/
def Unchanged {Row : Type} (_ : Row) (_ : Option Row) : Prop := False

/-- A session is rotated or revoked while it is not revoked, and never deleted. -/
def SessionChanged (stored : StoredSession) (version : Option StoredSession) : Prop :=
  stored.val.revokedAt = none ∧ ∃ next, version = some next ∧ next.val.userId = stored.val.userId ∧
    next.val.createdAt = stored.val.createdAt

/-- A code is deleted, or consumed once. -/
def OtpChanged {Owner : Type} (stored : StoredOtp Owner)
    (version : Option (StoredOtp Owner)) : Prop :=
  ∀ next, version = some next → stored.val.consumedAt = none ∧
    ∃ now, next.val = { stored.val with consumedAt := some now }

namespace World

/-- One statement of a transaction, or its end. What has been issued is on record. -/
structure Moves (tx : Nat) (writes : Writes) (world : World) (written : Writes)
    (next : World) : Prop where
  users : Relation.Moves User.clash Unchanged tx writes.users world.users written.users next.users
  workspaces : Relation.Moves Workspace.clash Unchanged tx writes.workspaces world.workspaces
    written.workspaces next.workspaces
  members : Relation.Moves WorkspaceMember.clash Unchanged tx writes.members world.members
    written.members next.members
  sessions : Relation.Moves Session.clash SessionChanged tx writes.sessions world.sessions
    written.sessions next.sessions
  registrationOtps : Relation.Moves Otp.clash OtpChanged tx writes.registrationOtps
    world.registrationOtps
    written.registrationOtps next.registrationOtps
  loginOtps : Relation.Moves Otp.clash OtpChanged tx writes.loginOtps world.loginOtps
    written.loginOtps next.loginOtps
  issuedTokens : world.issuedTokens ⊆ next.issuedTokens
  issuedRegistrationOtps : world.issuedRegistrationOtps ⊆ next.issuedRegistrationOtps
  issuedLoginOtps : world.issuedLoginOtps ⊆ next.issuedLoginOtps

structure Sound (world : World) : Prop where
  users : Relation.Sound User.clash Unchanged world.users
  workspaces : Relation.Sound Workspace.clash Unchanged world.workspaces
  members : Relation.Sound WorkspaceMember.clash Unchanged world.members
  sessions : Relation.Sound Session.clash SessionChanged world.sessions
  registrationOtps : Relation.Sound Otp.clash OtpChanged world.registrationOtps
  loginOtps : Relation.Sound Otp.clash OtpChanged world.loginOtps

structure Owned (world : World) (tx : Nat) (writes : Writes) : Prop where
  users : world.users.Owned tx writes.users
  workspaces : world.workspaces.Owned tx writes.workspaces
  members : world.members.Owned tx writes.members
  sessions : world.sessions.Owned tx writes.sessions
  registrationOtps : world.registrationOtps.Owned tx writes.registrationOtps
  loginOtps : world.loginOtps.Owned tx writes.loginOtps

variable {world next : World} {tx other : Nat} {writes written others : Writes}

theorem empty_sound : empty.Sound :=
  ⟨Relation.empty_sound, Relation.empty_sound, Relation.empty_sound, Relation.empty_sound,
    Relation.empty_sound, Relation.empty_sound⟩

theorem empty_owned (tx : Nat) : empty.Owned tx {} :=
  ⟨Relation.empty_owned tx, Relation.empty_owned tx, Relation.empty_owned tx,
    Relation.empty_owned tx,
    Relation.empty_owned tx, Relation.empty_owned tx⟩

namespace Moves

theorem stay (tx : Nat) (writes : Writes) (world : World) : Moves tx writes world writes world :=
  ⟨.stay, .stay, .stay, .stay, .stay, .stay, List.Subset.refl _, List.Subset.refl _,
    List.Subset.refl _⟩

theorem commit (tx : Nat) (writes : Writes) (world : World) : Moves tx writes world {}
    (world.commit tx) :=
  ⟨.commit, .commit, .commit, .commit, .commit, .commit, List.Subset.refl _, List.Subset.refl _,
    List.Subset.refl _⟩

theorem rollback (tx : Nat) (writes : Writes) (world : World) : Moves tx writes world {}
    (world.rollback tx) :=
  ⟨.rollback, .rollback, .rollback, .rollback, .rollback, .rollback, List.Subset.refl _,
    List.Subset.refl _,
    List.Subset.refl _⟩

theorem sound (moves : Moves tx writes world written next) (sound : world.Sound)
    (owned : world.Owned tx writes) :
    next.Sound where
  users := moves.users.sound sound.users User.clash_symm owned.users
  workspaces := moves.workspaces.sound sound.workspaces Workspace.clash_symm owned.workspaces
  members := moves.members.sound sound.members WorkspaceMember.clash_symm owned.members
  sessions := moves.sessions.sound sound.sessions Session.clash_symm owned.sessions
  registrationOtps := moves.registrationOtps.sound sound.registrationOtps Otp.clash_symm
    owned.registrationOtps
  loginOtps := moves.loginOtps.sound sound.loginOtps Otp.clash_symm owned.loginOtps

theorem owned (moves : Moves tx writes world written next) (sound : world.Sound)
    (owned : world.Owned tx writes) :
    next.Owned tx written where
  users := moves.users.owned sound.users owned.users
  workspaces := moves.workspaces.owned sound.workspaces owned.workspaces
  members := moves.members.owned sound.members owned.members
  sessions := moves.sessions.owned sound.sessions owned.sessions
  registrationOtps := moves.registrationOtps.owned sound.registrationOtps owned.registrationOtps
  loginOtps := moves.loginOtps.owned sound.loginOtps owned.loginOtps

theorem owned_other (moves : Moves tx writes world written next) (sound : world.Sound)
    (different : other ≠ tx)
    (owned : world.Owned other others) : next.Owned other others where
  users := moves.users.owned_other sound.users different owned.users
  workspaces := moves.workspaces.owned_other sound.workspaces different owned.workspaces
  members := moves.members.owned_other sound.members different owned.members
  sessions := moves.sessions.owned_other sound.sessions different owned.sessions
  registrationOtps := moves.registrationOtps.owned_other sound.registrationOtps different
    owned.registrationOtps
  loginOtps := moves.loginOtps.owned_other sound.loginOtps different owned.loginOtps

end Moves

end World

end Relays.Auth
