import Relays.Core.Json
import Relays.Library.Delimited
import Mathlib.Data.List.Sort
import Mathlib.Data.String.Basic
import Mathlib.Order.Fin.Basic

/-! `json.dumps` with sorted keys, the separators `,` and `:`, and ASCII escapes. -/

namespace Relays.Json

open Delimited

/-- `'\\u{0:04x}'`. -/
def unicodeEscape (code : Nat) : List Char :=
  ['\\', 'u', Nat.digitChar (code / 4096 % 16), Nat.digitChar (code / 256 % 16),
    Nat.digitChar (code / 16 % 16), Nat.digitChar (code % 16)]

/-- What stands for a code point of the basic plane between the quotes, a surrogate too. -/
def escapeBasic (code : Nat) : List Char :=
  if code = '"'.toNat then ['\\', '"']
  else if code = '\\'.toNat then ['\\', '\\']
  else if code = '\n'.toNat then ['\\', 'n']
  else if code = '\r'.toNat then ['\\', 'r']
  else if code = '\t'.toNat then ['\\', 't']
  else if code = 12 then ['\\', 'f']
  else if code = 8 then ['\\', 'b']
  else if ' '.toNat ≤ code ∧ code ≤ '~'.toNat then [Char.ofNat code]
  else unicodeEscape code

/-- What stands for any code point; one outside the basic plane is a surrogate pair. -/
def escapePoint (point : CodePoint) : List Char :=
  if point.val < 0x10000 then escapeBasic point.val
  else unicodeEscape (0xd800 + (point.val - 0x10000) / 0x400) ++
    unicodeEscape (0xdc00 + (point.val - 0x10000) % 0x400)

/-- `py_encode_basestring_ascii`. -/
def encodeString (text : Text) : List Char := '"' :: text.points.flatMap escapePoint ++ ['"']

/-- A string by its code units, between quotes. -/
def encodeUnits (units : List CodeUnit) : List Char :=
  '"' :: units.flatMap (fun unit => escapeBasic unit.val) ++ ['"']

section Strings

def hexValue (c : Char) : Nat := if c.isDigit then c.toNat - 48 else c.toNat - 87

def unicodeValue (a b c d : Char) : Nat :=
  hexValue a * 4096 + hexValue b * 256 + hexValue c * 16 + hexValue d

/-- The code unit that an escaped text begins with. -/
def scanUnit : List Char → Option (Nat × List Char)
  | '\\' :: 'u' :: a :: b :: c :: d :: rest => some (unicodeValue a b c d, rest)
  | '\\' :: c :: rest =>
    some (if c = 'n' then 10 else if c = 'r' then 13 else if c = 't' then 9 else if c = 'f' then 12
      else if c = 'b' then 8 else c.toNat, rest)
  | c :: rest => some (c.toNat, rest)
  | [] => none

variable {code : Nat} {unit : CodeUnit} {rest : List Char} {units others : List CodeUnit}

theorem hexValue_digitChar (small : code < 16) : hexValue (Nat.digitChar code) = code := by
  have checked : ∀ digit : Fin 16, hexValue (Nat.digitChar digit) = digit := by decide
  exact checked ⟨code, small⟩

theorem unicodeValue_escape (small : code < 65536) :
    unicodeValue (Nat.digitChar (code / 4096 % 16)) (Nat.digitChar (code / 256 % 16))
      (Nat.digitChar (code / 16 % 16)) (Nat.digitChar (code % 16)) = code := by
  simp only [unicodeValue, hexValue_digitChar (Nat.mod_lt _ (by decide : 0 < 16))]
  omega

theorem scanUnit_unicode (small : code < 65536) :
    scanUnit (unicodeEscape code ++ rest) = some (code, rest) := by
  simp only [unicodeEscape, List.cons_append, List.nil_append, scanUnit, unicodeValue_escape small]

/-- A printable character that is not escaped stands for itself. -/
theorem scanUnit_printable (printable : ' '.toNat ≤ code ∧ code ≤ '~'.toNat)
    (plain : code ≠ '\\'.toNat) : scanUnit (Char.ofNat code :: rest) = some (code, rest) := by
  obtain ⟨low, high⟩ := printable
  have scalar : code.isValidChar := .inl (Nat.lt_of_le_of_lt high (by decide))
  have value : (Char.ofNat code).toNat = code := by
    rw [Char.ofNat, dif_pos scalar]
    rfl
  have apart : Char.ofNat code ≠ '\\' := by
    intro same
    exact plain (value.symm.trans (congrArg Char.toNat same))
  unfold scanUnit
  split
  · rename_i same
    exact absurd (List.cons.inj same).1 apart
  · rename_i same
    exact absurd (List.cons.inj same).1 apart
  · rename_i same
    obtain ⟨rfl, rfl⟩ := List.cons.inj same
    rw [value]
  · rename_i same
    cases same

/-- Scanning an escaped code unit gives the unit back. -/
theorem scanUnit_escape (unit : CodeUnit) (rest : List Char) :
    scanUnit (escapeBasic unit.val ++ rest) = some (unit.val, rest) := by
  unfold escapeBasic
  split_ifs with quote backslash newline carriage tab feed backspace printable
  · rw [quote]; rfl
  · rw [backslash]; rfl
  · rw [newline]; rfl
  · rw [carriage]; rfl
  · rw [tab]; rfl
  · rw [feed]; rfl
  · rw [backspace]; rfl
  · exact scanUnit_printable printable backslash
  · exact scanUnit_unicode unit.isLt

theorem escapeBasic_ne_quote {front back : List Char} :
    escapeBasic unit.val ++ front ≠ '"' :: back := by
  intro same
  have scanned := scanUnit_escape unit front
  rw [same] at scanned
  obtain ⟨code, rfl⟩ := Prod.mk.inj (Option.some.inj scanned)
  rw [escapeBasic, ← code] at same
  cases same

private theorem escaped_inj {front back : List Char}
    (same : units.flatMap (fun unit => escapeBasic unit.val) ++ '"' :: front =
      others.flatMap (fun unit => escapeBasic unit.val) ++ '"' :: back) :
    units = others ∧ front = back := by
  induction units generalizing others with
  | nil =>
    cases others with
    | nil => exact ⟨rfl, (List.cons.inj same).2⟩
    | cons other others =>
      rw [List.flatMap_cons, List.append_assoc] at same
      exact absurd same.symm escapeBasic_ne_quote
  | cons unit units ih =>
    cases others with
    | nil =>
      rw [List.flatMap_cons, List.append_assoc] at same
      exact absurd same escapeBasic_ne_quote
    | cons other others =>
      rw [List.flatMap_cons, List.flatMap_cons, List.append_assoc, List.append_assoc] at same
      have scanned := scanUnit_escape unit
        (units.flatMap (fun unit => escapeBasic unit.val) ++ '"' :: front)
      rw [same, scanUnit_escape] at scanned
      obtain ⟨codes, tails⟩ := Prod.mk.inj (Option.some.inj scanned)
      obtain rfl : other = unit := Fin.ext codes
      obtain ⟨rfl, rest⟩ := ih tails.symm
      exact ⟨rfl, rest⟩

/-- A string ends with its own quote. -/
theorem encodeUnits_inj {front back : List Char}
    (same : encodeUnits units ++ front = encodeUnits others ++ back) :
    units = others ∧ front = back := by
  simp only [encodeUnits, List.cons_append, List.append_assoc, List.nil_append, List.cons.injEq,
    true_and] at same
  exact escaped_inj same

/-- The high and the low surrogate of a pair are printed as escapes. -/
theorem escapeBasic_surrogate (surrogate : 0xd800 ≤ code) :
    escapeBasic code = unicodeEscape code := by
  have quote : code ≠ '"'.toNat := by rintro rfl; cases Nat.not_le.mpr (by decide) surrogate
  have backslash : code ≠ '\\'.toNat := by rintro rfl; cases Nat.not_le.mpr (by decide) surrogate
  have newline : code ≠ '\n'.toNat := by rintro rfl; cases Nat.not_le.mpr (by decide) surrogate
  have carriage : code ≠ '\r'.toNat := by rintro rfl; cases Nat.not_le.mpr (by decide) surrogate
  have tab : code ≠ '\t'.toNat := by rintro rfl; cases Nat.not_le.mpr (by decide) surrogate
  have printable : ¬ (' '.toNat ≤ code ∧ code ≤ '~'.toNat) := by
    intro ⟨_, high⟩
    exact absurd (surrogate.trans high) (by decide)
  rw [escapeBasic, if_neg quote, if_neg backslash, if_neg newline, if_neg carriage, if_neg tab,
    if_neg (by omega), if_neg (by omega), if_neg printable]

theorem escapePoint_eq (point : CodePoint) :
    escapePoint point = (Text.pointUnits point).flatMap fun unit => escapeBasic unit.val := by
  unfold escapePoint Text.pointUnits
  split
  · simp
  · simp only [List.flatMap_cons, List.flatMap_nil, List.append_nil]
    rw [escapeBasic_surrogate (Nat.le_add_right _ _), escapeBasic_surrogate (by omega)]

/-- A string is printed as its code units are. -/
theorem encodeString_eq (text : Text) : encodeString text = encodeUnits text.units := by
  have points : text.points.flatMap escapePoint =
      text.units.flatMap fun unit => escapeBasic unit.val := by
    rw [Text.units, List.flatMap_assoc]
    exact List.flatMap_congr fun point _ => escapePoint_eq point
  rw [encodeString, points, encodeUnits]

end Strings

/-- `int.__repr__`. -/
def encodeInt : Int → List Char
  | .ofNat value => Nat.toDigits 10 value
  | .negSucc value => '-' :: Nat.toDigits 10 (value + 1)

/-- A member of an object: its key and its value as they are printed. -/
def encodeMember (member : Text × List Char) : List Char := encodeString member.1 ++ ':' :: member.2

/-- The order of `sorted(dct.items())`, by code points; the keys of a dict are distinct. -/
def keyOrder {Value : Type} (first second : Text × Value) : Prop :=
  first.1.points ≤ second.1.points

instance {Value : Type} : DecidableRel (@keyOrder Value) :=
  fun first second => inferInstanceAs (Decidable (first.1.points ≤ second.1.points))

mutual

/-- `json.dumps(payload, sort_keys=True, separators=(",", ":"))`. -/
def dumps : Json Text → List Char
  | .null => ['n', 'u', 'l', 'l']
  | .bool true => ['t', 'r', 'u', 'e']
  | .bool false => ['f', 'a', 'l', 's', 'e']
  | .int value => encodeInt value
  | .float literal => literal.toList
  | .str value => encodeString value
  | .arr items => '[' :: joined ',' (dumpsItems items) ++ [']']
  | .obj members =>
    '{' :: joined ',' (((dumpsMembers members).insertionSort keyOrder).map encodeMember) ++ ['}']

def dumpsItems : List (Json Text) → List (List Char)
  | [] => []
  | item :: rest => dumps item :: dumpsItems rest

def dumpsMembers : List (Text × Json Text) → List (Text × List Char)
  | [] => []
  | (key, value) :: rest => (key, dumps value) :: dumpsMembers rest

end

section Comparison

variable {Str : Type} [DecidableEq Str]

mutual

/-- The two values are equal up to the order of the keys of their objects: as Python compares
dicts. -/
def Same : Json Str → Json Str → Prop
  | .null, .null => True
  | .bool first, .bool second => first = second
  | .int first, .int second => first = second
  | .float first, .float second => first = second
  | .str first, .str second => first = second
  | .arr first, .arr second => SameItems first second
  | .obj first, .obj second => first.length = second.length ∧ SameMembers first second
  | _, _ => False

def SameItems : List (Json Str) → List (Json Str) → Prop
  | [], [] => True
  | item :: rest, other :: others => Same item other ∧ SameItems rest others
  | _, _ => False

/-- Every member of the first object is one of the second. -/
def SameMembers : List (Str × Json Str) → List (Str × Json Str) → Prop
  | [], _ => True
  | (key, value) :: rest, others =>
    (∃ other, others.lookup key = some other ∧ Same value other) ∧ SameMembers rest others

end

end Comparison

/-- The characters of printed numbers. -/
def numeric (c : Char) : Bool := c.isDigit || ['-', '+', '.', 'e'].contains c

section Values

variable {Str : Type}

mutual

/-- A value as Python holds it: the keys of a dict are distinct, and a finite float is printed with
a point or an exponent. -/
def WellFormed : Json Str → Prop
  | .null | .bool _ | .int _ | .str _ => True
  | .float literal => literal.toList.all numeric = true ∧
    ('.' ∈ literal.toList ∨ 'e' ∈ literal.toList)
  | .arr items => WellFormedItems items
  | .obj members => (members.map Prod.fst).Nodup ∧ WellFormedMembers members

def WellFormedItems : List (Json Str) → Prop
  | [] => True
  | item :: rest => WellFormed item ∧ WellFormedItems rest

def WellFormedMembers : List (Str × Json Str) → Prop
  | [] => True
  | (_, value) :: rest => WellFormed value ∧ WellFormedMembers rest

end

mutual

/-- The finite floats of a value are printed with a point or an exponent. -/
def Finite : Json Str → Prop
  | .null | .bool _ | .int _ | .str _ => True
  | .float literal => literal.toList.all numeric = true ∧
    ('.' ∈ literal.toList ∨ 'e' ∈ literal.toList)
  | .arr items => FiniteItems items
  | .obj members => FiniteMembers members

def FiniteItems : List (Json Str) → Prop
  | [] => True
  | item :: rest => Finite item ∧ FiniteItems rest

def FiniteMembers : List (Str × Json Str) → Prop
  | [] => True
  | (_, value) :: rest => Finite value ∧ FiniteMembers rest

end

end Values

section Structure

variable {Str : Type} {items others : List (Json Str)} {members fields : List (Str × Json Str)}
variable {values : List (Json Text)} {entries : List (Text × Json Text)}

/-- Induction over the values of arrays and the members of objects. -/
theorem induct {motive : Json Str → Prop} (null : motive .null)
    (bool : ∀ value, motive (.bool value)) (int : ∀ value, motive (.int value))
    (float : ∀ literal, motive (.float literal)) (str : ∀ value, motive (.str value))
    (arr : ∀ items, (∀ item ∈ items, motive item) → motive (.arr items))
    (obj : ∀ members, (∀ member ∈ members, motive member.2) → motive (.obj members))
    (json : Json Str) : motive json :=
  @Json.rec Str motive (fun items => ∀ item ∈ items, motive item)
    (fun members => ∀ member ∈ members, motive member.2) (fun member => motive member.2)
    null bool int float str arr obj (fun _ member => by cases member)
    (fun _ _ head tail => List.forall_mem_cons.mpr ⟨head, tail⟩) (fun _ member => by cases member)
    (fun _ _ head tail => List.forall_mem_cons.mpr ⟨head, tail⟩) (fun _ _ value => value) json

theorem dumpsItems_eq : dumpsItems values = values.map dumps := by
  induction values with
  | nil => rfl
  | cons item rest ih => rw [dumpsItems, ih, List.map_cons]

theorem dumpsMembers_eq :
    dumpsMembers entries = entries.map fun member => (member.1, dumps member.2) := by
  induction entries with
  | nil => rfl
  | cons member rest ih => rw [dumpsMembers, ih, List.map_cons]

theorem sameItems_iff [DecidableEq Str] :
    SameItems items others ↔ List.Forall₂ Same items others := by
  induction items generalizing others with
  | nil => cases others <;> simp [SameItems]
  | cons item rest ih => cases others <;> simp [SameItems, ih]

theorem sameMembers_iff [DecidableEq Str] : SameMembers members fields ↔
    ∀ member ∈ members, ∃ other, fields.lookup member.1 = some other ∧ Same member.2 other := by
  induction members with
  | nil => simp [SameMembers]
  | cons member rest ih => simp [SameMembers, ih]

theorem wellFormedItems_iff : WellFormedItems items ↔ ∀ item ∈ items, WellFormed item := by
  induction items with
  | nil => simp [WellFormedItems]
  | cons item rest ih => simp [WellFormedItems, ih]

theorem wellFormedMembers_iff :
    WellFormedMembers members ↔ ∀ member ∈ members, WellFormed member.2 := by
  induction members with
  | nil => simp [WellFormedMembers]
  | cons member rest ih => simp [WellFormedMembers, ih]

theorem finiteItems_iff : FiniteItems items ↔ ∀ item ∈ items, Finite item := by
  induction items with
  | nil => simp [FiniteItems]
  | cons item rest ih => simp [FiniteItems, ih]

theorem finiteMembers_iff : FiniteMembers members ↔ ∀ member ∈ members, Finite member.2 := by
  induction members with
  | nil => simp [FiniteMembers]
  | cons member rest ih => simp [FiniteMembers, ih]

end Structure

end Relays.Json
