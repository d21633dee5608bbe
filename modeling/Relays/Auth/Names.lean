import Relays.Library.Words
import Relays.Workspaces.Slugs

/-! The names of users and workspaces. A name is accepted as its words with single blanks between
them, and what has been accepted is accepted again as it is. -/

namespace Relays

open Delimited

/-- `str.split` at whitespace. -/
def splitSpaces (value : List Char) : List (List Char) := split isSpace value

/-- `" ".join(value.strip().split())`. -/
def singleSpaced (value : String) : String :=
  String.ofList (joined ' ' (splitSpaces (strip isSpace value.toList)))

def reservedWorkspaceNames : List String :=
  ["owner", "member", "api", "admin", "support", "billing", "settings", "dashboard", "auth",
    "login", "signup"]

/-- The checks of a name of at least this length, with the texts of their `ValueError`s. -/
def validateName (empty short long : String) (minimum : Nat)
    (value : String) : Except String String :=
  let value := singleSpaced value
  if value = "" then .error empty
  else if value.length < minimum then .error short
  else if 255 < value.length then .error long
  else .ok value

def validateUserName : String → Except String String :=
  validateName "User name cannot be empty" "User name must contain at least 2 characters"
    "User name cannot exceed 255 characters" 2

/-- `value.lower()`, as far as it can be a reserved name. -/
def lowered (value : String) : String := String.ofList (value.toList.flatMap lower)

def validateWorkspaceName (value : String) : Except String String :=
  match validateName "Workspace name cannot be empty. Please provide a workspace name."
      "Workspace name must contain at least 3 characters"
        "Workspace name cannot exceed 255 characters" 3 value with
  | .error message => .error message
  | .ok value =>
    if reservedWorkspaceNames.contains (lowered value) then
      .error ("\"" ++ value ++ "\" is a reserved workspace name. Please choose a different name.")
    else .ok value

section Validators

variable {empty short long value name : String} {minimum : Nat}

theorem split_strip (chars : List Char) : split isSpace (strip isSpace chars) =
    split isSpace chars :=
  (split_rdropWhile _).trans (split_dropWhile chars)

/-- Stripping changes nothing that splitting would not. -/
theorem singleSpaced_eq (value : String) :
    singleSpaced value = String.ofList (joined ' ' (split isSpace value.toList)) := by
  rw [singleSpaced, splitSpaces, split_strip]

theorem singleSpaced_tidy (value : String) : Tidy isSpace (singleSpaced value).toList := by
  rw [singleSpaced_eq, String.toList_ofList]
  exact tidy_joined (split_words _)

theorem singleSpaced_singleSpaced (value : String) : singleSpaced (singleSpaced value) =
    singleSpaced value := by
  have blank : isSpace ' ' = true := by decide
  rw [singleSpaced_eq (singleSpaced value), singleSpaced_eq value, String.toList_ofList,
    split_joined blank (split_words _)]

theorem validateName_eq_ok : validateName empty short long minimum value = .ok name ↔
    name = singleSpaced value ∧ name ≠ "" ∧ minimum ≤ name.length ∧ name.length ≤ 255 := by
  unfold validateName
  dsimp only
  split
  · rename_i nothing
    simp only [reduceCtorEq, false_iff]
    rintro ⟨rfl, something, _⟩
    exact something nothing
  · split
    · rename_i few
      simp only [reduceCtorEq, false_iff]
      rintro ⟨rfl, _, enough, _⟩
      omega
    · split
      · rename_i many
        simp only [reduceCtorEq, false_iff]
        rintro ⟨rfl, _, _, fits⟩
        omega
      · rename_i something enough fits
        rw [Except.ok.injEq]
        constructor
        · rintro rfl
          exact ⟨rfl, something, Nat.not_lt.mp enough, Nat.not_lt.mp fits⟩
        · rintro ⟨rfl, _⟩
          rfl

theorem validateName_stable (accepted : validateName empty short long minimum value = .ok name) :
    validateName empty short long minimum name = .ok name := by
  obtain ⟨rfl, checks⟩ := validateName_eq_ok.mp accepted
  exact validateName_eq_ok.mpr ⟨(singleSpaced_singleSpaced value).symm, checks⟩

theorem validateWorkspaceName_eq_ok : validateWorkspaceName value = .ok name ↔
    name = singleSpaced value ∧ 3 ≤ name.length ∧ name.length ≤ 255 ∧
      lowered name ∉ reservedWorkspaceNames := by
  unfold validateWorkspaceName
  split
  · rename_i message refused
    simp only [reduceCtorEq, false_iff]
    rintro ⟨rfl, enough, fits, _⟩
    have something : singleSpaced value ≠ "" := by
      intro nothing
      simp [nothing] at enough
    cases refused.symm.trans (validateName_eq_ok.mpr ⟨rfl, something, enough, fits⟩)
  · rename_i accepted passed
    obtain ⟨rfl, something, enough, fits⟩ := validateName_eq_ok.mp passed
    split
    · rename_i reserved
      simp only [reduceCtorEq, false_iff]
      rintro ⟨rfl, _, _, free⟩
      exact free (by simpa using reserved)
    · rename_i free
      rw [Except.ok.injEq]
      constructor
      · rintro rfl
        exact ⟨rfl, enough, fits, by simpa using free⟩
      · rintro ⟨rfl, _⟩
        rfl

theorem validateUserName_tidy (accepted : validateUserName value = .ok name) :
    Tidy isSpace name.toList := by
  obtain ⟨rfl, _⟩ := validateName_eq_ok.mp accepted
  exact singleSpaced_tidy value

theorem validateWorkspaceName_tidy (accepted : validateWorkspaceName value = .ok name) :
    Tidy isSpace name.toList := by
  obtain ⟨rfl, _⟩ := validateWorkspaceName_eq_ok.mp accepted
  exact singleSpaced_tidy value

theorem validateUserName_stable (accepted : validateUserName value = .ok name) :
    validateUserName name = .ok name :=
  validateName_stable accepted

theorem validateWorkspaceName_stable (accepted : validateWorkspaceName value = .ok name) :
    validateWorkspaceName name = .ok name := by
  obtain ⟨rfl, checks⟩ := validateWorkspaceName_eq_ok.mp accepted
  exact validateWorkspaceName_eq_ok.mpr ⟨(singleSpaced_singleSpaced value).symm, checks⟩

end Validators

example : validateUserName "  Ann \t Lee " = .ok "Ann Lee" := by decide

end Relays
