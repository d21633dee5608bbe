import Relays.Notifications.Schemas
import Relays.Workspaces.Slugs
import Relays.Library.Records
import Mathlib.Data.List.Sort
import Mathlib.Data.String.Basic

/-! The files of `app/infra/db/migrations`: their versions and the order in which they are
walked. -/

namespace Relays.Migrations

/-- `Path.stem`: the name without its last suffix. -/
def stem (name : String) : List Char :=
  let chars := name.toList
  let suffix := (chars.reverse.takeWhile (· ≠ '.')).length
  if suffix + 1 < chars.length ∧ 0 < suffix then chars.take (chars.length - suffix - 1) else chars

/-- The value of a decimal digit of any script. -/
def digit (c : Char) : Option Nat :=
  (decimalZeros.find? fun first => first ≤ c.toNat && c.toNat ≤ first + 9).map (c.toNat - ·)

def natural (digits : List Char) : Option Nat :=
  if digits.isEmpty then none
  else (digits.mapM digit).map fun values =>
    values.foldl (fun number value => number * 10 + value) 0

/-- `int(text)` of a text without underscores; `none` is the `ValueError`. -/
def int (text : List Char) : Option Int :=
  match strip isSpace text with
  | '-' :: digits => (natural digits).map fun number => -(number : Int)
  | '+' :: digits => (natural digits).map Int.ofNat
  | digits => (natural digits).map Int.ofNat

/-- `int(file.stem.split("_")[0])`. -/
def migrationVersion (file : String) : Option Int := int ((stem file).takeWhile (· ≠ '_'))

/-- `sorted(MIGRATIONS_DIR.glob("*.sql"))`: files of one directory are ordered by their names. -/
def sortedFiles (files : List String) : List String := files.insertionSort (· ≤ ·)

/-- The version of a file that has one. -/
def rank (file : String) : Int := (migrationVersion file).getD 0

example : migrationVersion "010_add_index.sql" = some 10 := by decide

example : sortedFiles ["2_b.sql", "10_a.sql"] = ["10_a.sql", "2_b.sql"] := by decide

end Relays.Migrations
