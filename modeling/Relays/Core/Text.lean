import Mathlib.Data.Char
import Mathlib.Data.List.Basic

/-! Python's `str`: any sequence of code points, surrogates included. -/

namespace Relays

abbrev CodePoint := Fin 0x110000

/-- A code unit of UTF-16. -/
abbrev CodeUnit := Fin 0x10000

structure Text where
  points : List CodePoint
  deriving DecidableEq

namespace Text

def ofChar (c : Char) : CodePoint :=
  ⟨c.toNat, by
    rcases c.valid with low | ⟨_, high⟩
    · exact Nat.lt_trans low (by decide)
    · exact high⟩

def ofString (text : String) : Text := ⟨text.toList.map ofChar⟩

instance : Coe String Text := ⟨ofString⟩

instance : Append Text := ⟨fun first second => ⟨first.points ++ second.points⟩⟩

def isSurrogate (point : CodePoint) : Bool := 0xd800 ≤ point.val && point.val < 0xe000

def highSurrogate (point : CodePoint) : Bool := 0xd800 ≤ point.val && point.val < 0xdc00

def lowSurrogate (point : CodePoint) : Bool := 0xdc00 ≤ point.val && point.val < 0xe000

/-- None of these characters is spelled as a pair of surrogates. -/
def whole : List CodePoint → Bool
  | first :: second :: rest =>
    !(highSurrogate first && lowSurrogate second) && whole (second :: rest)
  | _ => true

/-- The text has a UTF-8 encoding. -/
def scalar (text : Text) : Bool := text.points.all fun point => !isSurrogate point

/-- The text as a string of Unicode scalar values, if it is one. -/
def toString? (text : Text) : Option String :=
  if text.scalar then
    some (String.ofList (text.points.map fun point => Char.ofNat point.val))
  else none

/-- What a `text` column can hold: the driver encodes it as UTF-8, and PostgreSQL refuses NUL. -/
def storable (text : Text) : Bool := text.scalar && text.points.all (· ≠ 0)

/-- A code point outside the basic plane is a pair of surrogates. -/
def pointUnits (point : CodePoint) : List CodeUnit :=
  if basic : point.val < 0x10000 then [⟨point.val, basic⟩]
  else [⟨0xd800 + (point.val - 0x10000) / 0x400, by omega⟩,
    ⟨0xdc00 + (point.val - 0x10000) % 0x400, by omega⟩]

def units (text : Text) : List CodeUnit := text.points.flatMap pointUnits

def isHigh (unit : CodeUnit) : Bool := 0xd800 ≤ unit.val && unit.val < 0xdc00

def isLow (unit : CodeUnit) : Bool := 0xdc00 ≤ unit.val && unit.val < 0xe000

/-- Every surrogate among these units is one of a pair. -/
def paired : List CodeUnit → Bool
  | [] => true
  | [unit] => !isHigh unit && !isLow unit
  | unit :: next :: rest =>
    if isHigh unit then isLow next && paired rest else !isLow unit && paired (next :: rest)

/-- What a string of a `jsonb` column can hold, which PostgreSQL reads with its escapes. -/
def jsonStorable (text : Text) : Bool := paired text.units && text.units.all (· ≠ 0)

section

variable {first second value : Text} {text other : String} {point : CodePoint} {c d : Char}

theorem ofChar_inj : ofChar c = ofChar d ↔ c = d := by
  constructor
  · intro same
    have codes : c.toNat = d.toNat := Fin.mk.inj same
    exact Char.ext (UInt32.toNat_inj.mp codes)
  · rintro rfl
    rfl

@[simp]
theorem ofString_inj : ofString text = ofString other ↔ text = other := by
  constructor
  · intro same
    have points := congrArg points same
    exact String.toList_inj.mp (List.map_injective_iff.mpr (fun _ _ => ofChar_inj.mp) points)
  · rintro rfl
    rfl

@[simp]
theorem ofString_beq : (ofString text == ofString other) = (text == other) := by
  rw [Bool.eq_iff_iff, beq_iff_eq, beq_iff_eq, ofString_inj]

theorem isSurrogate_ofChar : isSurrogate (ofChar c) = false := by
  unfold isSurrogate ofChar
  rcases c.valid with low | ⟨high, _⟩
  · simp only [Bool.and_eq_false_iff, decide_eq_false_iff_not, Nat.not_le, Nat.not_lt]
    exact .inl low
  · simp only [Bool.and_eq_false_iff, decide_eq_false_iff_not, Nat.not_le, Nat.not_lt]
    exact .inr (Nat.succ_le_of_lt high)

theorem scalar_ofString : (ofString text).scalar = true := by
  apply List.all_eq_true.mpr
  intro point known
  obtain ⟨c, _, rfl⟩ := List.mem_map.mp known
  rw [isSurrogate_ofChar]
  rfl

@[simp]
theorem toString?_ofString : (ofString text).toString? = some text := by
  have chars : (ofString text).points.map (fun point => Char.ofNat point.val) = text.toList := by
    rw [ofString, List.map_map]
    exact (List.map_congr_left fun c _ => Char.ofNat_toNat c).trans (List.map_id _)
  rw [toString?, if_pos scalar_ofString, chars, String.ofList_toList]

theorem ofChar_eq_zero : ofChar c = 0 ↔ c = '\x00' := by
  have null : ofChar '\x00' = 0 := by decide
  rw [← null, ofChar_inj]

/-- A string fits a `text` column unless it holds NUL. -/
theorem storable_ofString : (ofString text).storable = true ↔ '\x00' ∉ text.toList := by
  rw [storable, scalar_ofString, Bool.true_and]
  simp only [ofString, List.all_map, List.all_eq_true, Function.comp_apply, decide_eq_true_eq,
    ne_eq,
    ofChar_eq_zero]
  exact ⟨fun nonzero member => nonzero _ member rfl,
    fun absent c member null => absent (null ▸ member)⟩

theorem paired_pointUnits {rest : List CodeUnit} (single : isSurrogate point = false) :
    paired (pointUnits point ++ rest) = paired rest := by
  simp only [isSurrogate, Bool.and_eq_false_iff, decide_eq_false_iff_not, Nat.not_le,
    Nat.not_lt] at single
  have bound := point.isLt
  unfold pointUnits
  split
  · have plain : isHigh ⟨point.val, ‹_›⟩ = false ∧ isLow ⟨point.val, ‹_›⟩ = false := by
      simp only [isHigh, isLow, Bool.and_eq_false_iff, decide_eq_false_iff_not]
      omega
    cases rest with
    | nil => simp [paired, plain]
    | cons next rest => simp [paired, plain]
  · rw [List.cons_append, List.cons_append, List.nil_append, paired, if_pos, isLow]
    · simp only [Bool.and_eq_right_iff_imp, Bool.and_eq_true, decide_eq_true_eq]
      omega
    · simp only [isHigh, Bool.and_eq_true, decide_eq_true_eq]
      omega

theorem pointUnits_zero {unit : CodeUnit} (member : unit ∈ pointUnits point) (zero : unit = 0) :
    point = 0 := by
  subst zero
  unfold pointUnits at member
  split at member
  · have same := congrArg Fin.val (List.mem_singleton.mp member)
    exact Fin.ext same.symm
  · simp only [List.mem_cons, List.not_mem_nil, or_false] at member
    rcases member with same | same
    all_goals
      have codes := congrArg Fin.val same
      simp at codes
      omega

/-- What fits a `text` column fits a string of a `jsonb` column. -/
theorem jsonStorable_of_storable (plain : value.storable = true) : value.jsonStorable = true := by
  obtain ⟨scalars, nonzero⟩ := Bool.and_eq_true_iff.mp plain
  clear plain
  obtain ⟨points⟩ := value
  simp only [jsonStorable, units, Bool.and_eq_true, List.all_eq_true, decide_eq_true_eq]
  simp only [scalar, List.all_eq_true, Bool.not_eq_true', decide_eq_true_eq] at scalars nonzero
  constructor
  · induction points with
    | nil => rfl
    | cons point points ih =>
      rw [List.flatMap_cons, paired_pointUnits (scalars _ List.mem_cons_self)]
      exact ih (fun _ known => scalars _ (List.mem_cons_of_mem _ known))
        (fun _ known => nonzero _ (List.mem_cons_of_mem _ known))
  · intro unit member zero
    obtain ⟨point, known, among⟩ := List.mem_flatMap.mp member
    exact nonzero point known (pointUnits_zero among zero)

theorem repr_plain (value : Nat) : '\x00' ∉ value.repr.toList := by
  intro member
  rw [Nat.repr, String.toList_ofList] at member
  cases Nat.isDigit_of_mem_toDigits (by decide) (by decide) member

theorem points_inj : first.points = second.points ↔ first = second := by
  cases first
  cases second
  simp

end

end Text

end Relays
