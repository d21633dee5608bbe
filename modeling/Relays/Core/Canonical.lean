import Relays.Core.Serialisation

/-! Two values are printed alike exactly if they have one canonical form: members sorted by their
keys, and strings by their code units. Values whose strings spell no character as a pair of
surrogates have one canonical form exactly if they are equal up to the order of the keys of their
objects. -/

namespace Relays.Json

open Delimited

mutual

/-- What the printed value says: the members of objects in the order of their keys, and every
string by its code units, in which a pair of surrogates is the code point that it stands for. -/
def canonical : Json Text → Json (List CodeUnit)
  | .null => .null
  | .bool value => .bool value
  | .int value => .int value
  | .float literal => .float literal
  | .str value => .str value.units
  | .arr items => .arr (canonicalItems items)
  | .obj members => .obj (((canonicalMembers members).insertionSort keyOrder).map fun member =>
      (member.1.units, member.2))

def canonicalItems : List (Json Text) → List (Json (List CodeUnit))
  | [] => []
  | item :: rest => canonical item :: canonicalItems rest

def canonicalMembers : List (Text × Json Text) → List (Text × Json (List CodeUnit))
  | [] => []
  | (key, value) :: rest => (key, canonical value) :: canonicalMembers rest

end

mutual

/-- A canonical form is printed as it stands. -/
def print : Json (List CodeUnit) → List Char
  | .null => ['n', 'u', 'l', 'l']
  | .bool true => ['t', 'r', 'u', 'e']
  | .bool false => ['f', 'a', 'l', 's', 'e']
  | .int value => encodeInt value
  | .float literal => literal.toList
  | .str value => encodeUnits value
  | .arr items => '[' :: joined ',' (printItems items) ++ [']']
  | .obj members => '{' :: joined ',' (printMembers members) ++ ['}']

def printItems : List (Json (List CodeUnit)) → List (List Char)
  | [] => []
  | item :: rest => print item :: printItems rest

def printMembers : List (List CodeUnit × Json (List CodeUnit)) → List (List Char)
  | [] => []
  | (key, value) :: rest => (encodeUnits key ++ ':' :: print value) :: printMembers rest

end

section Printing

variable {members : List (Text × Json Text)} {items : List (Json Text)}
variable {fields : List (List CodeUnit × Json (List CodeUnit))}
    {values : List (Json (List CodeUnit))}

theorem canonicalItems_eq : canonicalItems items = items.map canonical := by
  induction items with
  | nil => rfl
  | cons item rest ih => rw [canonicalItems, ih, List.map_cons]

theorem canonicalMembers_eq :
    canonicalMembers members = members.map fun member => (member.1, canonical member.2) := by
  induction members with
  | nil => rfl
  | cons member rest ih => rw [canonicalMembers, ih, List.map_cons]

theorem printItems_eq : printItems values = values.map print := by
  induction values with
  | nil => rfl
  | cons item rest ih => rw [printItems, ih, List.map_cons]

theorem printMembers_eq : printMembers fields =
    fields.map fun field => encodeUnits field.1 ++ ':' :: print field.2 := by
  induction fields with
  | nil => rfl
  | cons field rest ih => rw [printMembers, ih, List.map_cons]

/-- `json.dumps` prints the canonical form. -/
theorem dumps_eq_print (json : Json Text) : json.dumps = json.canonical.print := by
  induction json using Json.induct with
  | null => rfl
  | bool value => cases value <;> rfl
  | int | float => rfl
  | str value => exact encodeString_eq value
  | arr items ih =>
    have printed : items.map dumps = (items.map canonical).map print := by
      rw [List.map_map]
      exact List.map_congr_left ih
    rw [dumps, dumpsItems_eq, canonical, canonicalItems_eq, print, printItems_eq, printed]
  | obj members ih =>
    let entry (member : Text × Json (List CodeUnit)) : Text × List Char :=
      (member.1, print member.2)
    have printed : dumpsMembers members = (canonicalMembers members).map entry := by
      rw [dumpsMembers_eq, canonicalMembers_eq, List.map_map]
      apply List.map_congr_left
      intro member listed
      exact Prod.ext rfl (ih member listed)
    have sorted : (dumpsMembers members).insertionSort keyOrder =
        ((canonicalMembers members).insertionSort keyOrder).map entry := by
      rw [printed]
      exact (List.map_insertionSort keyOrder keyOrder entry _ fun _ _ _ _ => Iff.rfl).symm
    rw [dumps, canonical, print, printMembers_eq, sorted, List.map_map, List.map_map]
    have members (member : Text × Json (List CodeUnit)) : encodeMember (entry member) =
        encodeUnits member.1.units ++ ':' :: print member.2 := by
      rw [encodeMember, encodeString_eq]
    congr 3
    exact List.map_congr_left fun member _ => members member

end Printing

/-- What follows a value in a printed array or object. -/
def Ends (rest : List Char) : Prop := ∀ c ∈ rest.head?, c = ',' ∨ c = ']' ∨ c = '}'

inductive Kind where
  | null
  | true
  | false
  | number
  | string
  | array
  | object
  deriving DecidableEq

section Injectivity

variable {first second : Json (List CodeUnit)}

def kind : Json (List CodeUnit) → Kind
  | .null => .null
  | .bool value => if value then .true else .false
  | .int _ | .float _ => .number
  | .str _ => .string
  | .arr _ => .array
  | .obj _ => .object

/-- What the kind of a value says about it. -/
def Kind.Shape (json : Json (List CodeUnit)) : Kind → Prop
  | .null => json = .null
  | .true => json = .bool Bool.true
  | .false => json = .bool Bool.false
  | .number => True
  | .string => ∃ value, json = .str value
  | .array => ∃ items, json = .arr items
  | .object => ∃ members, json = .obj members

theorem kind_shape (json : Json (List CodeUnit)) : json.kind.Shape json := by
  cases json with
  | null => rfl
  | bool value => cases value <;> rfl
  | int | float => trivial
  | str | arr | obj => exact ⟨_, rfl⟩

/-- The kind of a value by the first character it is printed with. -/
def Kind.ofChar (c : Char) : Kind :=
  if c = 'n' then .null else if c = 't' then .true else if c = 'f' then .false
  else if c = '"' then .string else if c = '[' then .array else if c = '{' then .object else .number

theorem encodeInt_numeric (value : Int) : (∀ c ∈ encodeInt value, c.isDigit = true ∨ c = '-') ∧
    encodeInt value ≠ [] := by
  cases value with
  | ofNat value =>
    exact ⟨fun c member => .inl (Nat.isDigit_of_mem_toDigits (by decide) (by decide) member),
      Nat.toDigits_ne_nil⟩
  | negSucc value =>
    refine ⟨fun c member => ?_, List.cons_ne_nil _ _⟩
    rcases List.mem_cons.mp member with rfl | digit
    · exact .inr rfl
    · exact .inl (Nat.isDigit_of_mem_toDigits (by decide) (by decide) digit)

private theorem toDigits_inj {value other : Nat}
    (same : Nat.toDigits 10 value = Nat.toDigits 10 other) :
    value = other := by
  rw [← @Nat.ofDigitChars_ten_toDigits value, same, Nat.ofDigitChars_ten_toDigits]

private theorem toDigits_ne_minus {value : Nat}
    {rest : List Char} : Nat.toDigits 10 value ≠ '-' :: rest := by
  intro same
  have digit : '-'.isDigit = true :=
    @Nat.isDigit_of_mem_toDigits 10 value '-' (by decide) (by decide)
      (by rw [same]; exact List.mem_cons_self)
  cases digit

theorem encodeInt_inj {value other : Int}
    (same : encodeInt value = encodeInt other) : value = other := by
  cases value with
  | ofNat value =>
    cases other with
    | ofNat other => rw [toDigits_inj same]
    | negSucc other => exact absurd same toDigits_ne_minus
  | negSucc value =>
    cases other with
    | ofNat other => exact absurd same.symm toDigits_ne_minus
    | negSucc other => rw [Nat.succ.inj (toDigits_inj (List.cons.inj same).2)]

/-- A number is printed with characters of numbers only. -/
theorem print_numeric {json : Json (List CodeUnit)} (finite : json.Finite)
    (number : json.kind = .number) : (∀ c ∈ json.print, numeric c = true) ∧ json.print ≠ [] := by
  cases json with
  | int value =>
    obtain ⟨printed, nonempty⟩ := encodeInt_numeric value
    refine ⟨fun c member => ?_, nonempty⟩
    rcases printed c member with digit | rfl
    · simp [numeric, digit]
    · decide
  | float literal =>
    obtain ⟨printed, point⟩ := finite
    refine ⟨by simpa [print] using printed, ?_⟩
    intro nothing
    simp [print] at nothing
    simp [nothing] at point
  | bool value => cases value <;> cases number
  | _ => cases number

/-- The first character tells the kind of the value; it is not the end of an array. -/
theorem print_kind {json : Json (List CodeUnit)} (finite : json.Finite) :
    ∃ c rest, json.print = c :: rest ∧ Kind.ofChar c = json.kind ∧ c ≠ ']' := by
  by_cases number : json.kind = .number
  · obtain ⟨printed, nonempty⟩ := print_numeric finite number
    obtain ⟨c, rest, same⟩ := List.exists_cons_of_ne_nil nonempty
    have letter : numeric c = true := printed c (by simp [same])
    refine ⟨c, rest, same, ?_, by rintro rfl; cases letter⟩
    rw [number]
    unfold Kind.ofChar
    split_ifs with n t f quote bracket brace
    all_goals first | rfl | (subst_vars; cases letter)
  · cases json with
    | null => exact ⟨_, _, rfl, rfl, by decide⟩
    | bool value => cases value <;> exact ⟨_, _, rfl, rfl, by decide⟩
    | str | arr | obj => exact ⟨_, _, rfl, rfl, by decide⟩
    | int | float => exact absurd rfl number

theorem kind_of_append {front back : List Char} (one : first.Finite) (two : second.Finite)
    (same : first.print ++ front = second.print ++ back) : first.kind = second.kind := by
  obtain ⟨c, rest, printed, left, _⟩ := print_kind one
  obtain ⟨d, other, also, right, _⟩ := print_kind two
  rw [printed, also] at same
  rw [← left, ← right, (List.cons.inj same).1]

theorem shape_of_append {front back : List Char} (one : first.Finite) (two : second.Finite)
    (same : first.print ++ front = second.print ++ back) : first.kind.Shape second := by
  rw [kind_of_append one two same]
  exact kind_shape second

end Injectivity

section Delimiting

variable {first second : Json (List CodeUnit)} {front back : List Char}

theorem ends_nil : Ends [] := by simp [Ends]

theorem ends_separator {rest : List Char} : Ends (',' :: rest) := by simp [Ends]

theorem ends_array {rest : List Char} : Ends (']' :: rest) := by simp [Ends]

theorem ends_object {rest : List Char} : Ends ('}' :: rest) := by simp [Ends]

/-- What follows a number does not continue it. -/
theorem numbers_delimited (one : first.Finite) (two : second.Finite) (number : first.kind = .number)
    (other : second.kind = .number) : Delimits Ends first.print second.print := by
  apply delimits_of_alphabet (print_numeric one number).1 (print_numeric two other).1
  intro rest ends c member
  rcases ends c member with rfl | rfl | rfl <;> decide

private theorem literal_inj {literal other : String}
    (same : (Json.float literal).print = (Json.float other).print) : literal = other :=
  String.toList_inj.mp same

/-- A float has a point or an exponent; an integer has neither. -/
theorem int_ne_float {value : Int} {literal : String}
    (finite : (Json.float literal : Json (List CodeUnit)).Finite) :
    (Json.int value).print ≠ (Json.float literal).print := by
  intro same
  have digits : ∀ c ∈ literal.toList, c.isDigit = true ∨ c = '-' := by
    intro c member
    apply (encodeInt_numeric value).1
    have printed : encodeInt value = literal.toList := same
    rw [printed]
    exact member
  rcases finite.2 with point | exponent
  · exact absurd (digits _ point) (by decide)
  · exact absurd (digits _ exponent) (by decide)

theorem numbers_eq (one : first.Finite) (two : second.Finite) (number : first.kind = .number)
    (other : second.kind = .number) (same : first.print = second.print) : first = second := by
  cases first with
  | int value =>
    cases second with
    | int value => rw [encodeInt_inj same]
    | float literal => exact absurd same (int_ne_float two)
    | bool value => cases value <;> cases other
    | _ => cases other
  | float literal =>
    cases second with
    | int value => exact absurd same.symm (int_ne_float one)
    | float literal => rw [literal_inj same]
    | bool value => cases value <;> cases other
    | _ => cases other
  | bool value => cases value <;> cases number
  | _ => cases number

section Brackets

variable {items others : List (Json (List CodeUnit))}
variable {members fields : List (List CodeUnit × Json (List CodeUnit))}

private theorem item_begins {item : Json (List CodeUnit)} (finite : item.Finite) :
    item.print ++ front ≠ ']' :: back := by
  obtain ⟨c, rest, printed, _, apart⟩ := print_kind finite
  rw [printed]
  intro same
  exact apart (List.cons.inj same).1

/-- Lists that are printed alike are the same when their elements are. -/
theorem eq_of_map {Element : Type} {entries others : List Element} {printed : Element → List Char}
    (inj : ∀ entry ∈ entries, ∀ other ∈ others, printed entry = printed other → entry = other)
    (same : entries.map printed = others.map printed) : entries = others := by
  have length : entries.length = others.length := by simpa using congrArg List.length same
  rw [← List.forall₂_eq_eq_eq, List.forall₂_map_left_iff, List.forall₂_map_right_iff,
    List.forall₂_iff_zip] at same
  rw [← List.forall₂_eq_eq_eq, List.forall₂_iff_zip]
  refine ⟨length, fun {entry other} pair => ?_⟩
  have member := List.of_mem_zip pair
  exact inj entry member.1 other member.2 (same.2 pair)

/-- The items of an array can be read back from what is printed. -/
theorem items_inj (one : ∀ item ∈ items, item.Finite) (two : ∀ item ∈ others, item.Finite)
    (delimits : ∀ item ∈ items, ∀ other ∈ others, Delimits Ends item.print other.print)
    (same : (Json.arr items).print ++ front = (Json.arr others).print ++ back) :
    items.map print = others.map print := by
  simp only [print, printItems_eq, List.cons_append, List.append_assoc, List.nil_append,
    List.cons.injEq, true_and] at same
  refine (joined_inj ?_ (fun _ => ends_separator) (fun _ => ends_array) (by decide) ?_ ?_ same).1
  · intro word listed other among
    obtain ⟨item, member, rfl⟩ := List.mem_map.mp listed
    obtain ⟨other, there, rfl⟩ := List.mem_map.mp among
    exact delimits item member other there
  · intro word listed front back
    obtain ⟨item, member, rfl⟩ := List.mem_map.mp listed
    exact item_begins (one item member)
  · intro word listed front back
    obtain ⟨item, member, rfl⟩ := List.mem_map.mp listed
    exact item_begins (two item member)

/-- Printed members are told apart by their keys first. -/
theorem member_delimited {member field : List CodeUnit × Json (List CodeUnit)}
    (delimits : Delimits Ends member.2.print field.2.print) :
    Delimits Ends (encodeUnits member.1 ++ ':' :: member.2.print)
      (encodeUnits field.1 ++ ':' :: field.2.print) := by
  intro front back here there same
  simp only [List.append_assoc, List.cons_append] at same
  obtain ⟨keys, rest⟩ := encodeUnits_inj same
  rw [keys, delimits front back here there (List.cons.inj rest).2]

/-- So can the members of an object. -/
theorem members_inj
    (delimits : ∀ member ∈ members, ∀ field ∈ fields, Delimits Ends member.2.print field.2.print)
    (same : (Json.obj members).print ++ front = (Json.obj fields).print ++ back) :
    members.map (fun member => encodeUnits member.1 ++ ':' :: member.2.print) =
      fields.map fun field => encodeUnits field.1 ++ ':' :: field.2.print := by
  simp only [print, printMembers_eq, List.cons_append, List.append_assoc, List.nil_append,
    List.cons.injEq, true_and] at same
  refine (joined_inj ?_ (fun _ => ends_separator) (fun _ => ends_object) (by decide) ?_ ?_ same).1
  · intro word listed other among
    obtain ⟨member, there, rfl⟩ := List.mem_map.mp listed
    obtain ⟨field, present, rfl⟩ := List.mem_map.mp among
    exact member_delimited (delimits member there field present)
  · intro word listed front back same
    obtain ⟨member, _, rfl⟩ := List.mem_map.mp listed
    exact absurd (List.cons.inj same).1 (by decide)
  · intro word listed front back same
    obtain ⟨member, _, rfl⟩ := List.mem_map.mp listed
    exact absurd (List.cons.inj same).1 (by decide)

end Brackets

/-- Two values that are printed alike, whatever follows them, are the same value. -/
theorem eq_of_append (one : first.Finite) (two : second.Finite) (here : Ends front)
    (there : Ends back) (same : first.print ++ front = second.print ++ back) : first = second := by
  induction first using Json.induct generalizing second front back with
  | null => exact (shape_of_append one two same : second = .null).symm
  | bool value =>
    cases value with
    | true => exact (shape_of_append one two same : second = .bool true).symm
    | false => exact (shape_of_append one two same : second = .bool false).symm
  | int value =>
    have number : second.kind = .number := (kind_of_append one two same).symm
    exact numbers_eq one two rfl number
      (numbers_delimited one two rfl number front back here there same)
  | float literal =>
    have number : second.kind = .number := (kind_of_append one two same).symm
    exact numbers_eq one two rfl number
      (numbers_delimited one two rfl number front back here there same)
  | str value =>
    obtain ⟨other, rfl⟩ : ∃ other, second = .str other := shape_of_append one two same
    rw [(encodeUnits_inj same).1]
  | arr items ih =>
    obtain ⟨others, rfl⟩ : ∃ others, second = .arr others := shape_of_append one two same
    have finite := finiteItems_iff.mp one
    have also := finiteItems_iff.mp two
    have delimits : ∀ item ∈ items, ∀ other ∈ others, Delimits Ends item.print other.print := by
      intro item member other listed front back here there same
      rw [ih item member (finite item member) (also other listed) here there same]
    have printed := items_inj finite also delimits same
    rw [eq_of_map (fun item member other listed same => ih item member (finite item member)
      (also other listed) ends_nil ends_nil (congrArg (· ++ []) same)) printed]
  | obj members ih =>
    obtain ⟨fields, rfl⟩ : ∃ fields, second = .obj fields := shape_of_append one two same
    have finite := finiteMembers_iff.mp one
    have also := finiteMembers_iff.mp two
    have delimits : ∀ member ∈ members, ∀ field ∈ fields,
        Delimits Ends member.2.print field.2.print := by
      intro member listed field present front back here there same
      rw [ih member listed (finite member listed) (also field present) here there same]
    have printed := members_inj delimits same
    rw [eq_of_map (fun member listed field present same => ?_) printed]
    obtain ⟨keys, rest⟩ := encodeUnits_inj same
    exact Prod.ext keys (ih member listed (finite member listed) (also field present) ends_nil
      ends_nil (congrArg (· ++ []) (List.cons.inj rest).2))

end Delimiting

section Order

variable {first second : Json Text} {members fields : List (Text × Json Text)}
variable {items others : List (Json Text)} {key : Text} {value : Json Text}

theorem WellFormed.finite {Str : Type} {json : Json Str} (wellFormed : json.WellFormed) :
    json.Finite := by
  induction json using Json.induct with
  | null | bool | int | str => trivial
  | float literal => exact wellFormed
  | arr items ih =>
    exact finiteItems_iff.mpr fun item member =>
      ih item member (wellFormedItems_iff.mp wellFormed item member)
  | obj members ih =>
    exact finiteMembers_iff.mpr fun member listed =>
      ih member listed (wellFormedMembers_iff.mp wellFormed.2 member listed)

theorem Finite.canonical (finite : first.Finite) : first.canonical.Finite := by
  induction first using Json.induct with
  | null | bool | int | str => trivial
  | float literal => exact finite
  | arr items ih =>
    rw [Json.canonical, canonicalItems_eq]
    apply finiteItems_iff.mpr
    intro item listed
    obtain ⟨earlier, member, rfl⟩ := List.mem_map.mp listed
    exact ih earlier member (finiteItems_iff.mp finite earlier member)
  | obj members ih =>
    rw [Json.canonical, canonicalMembers_eq]
    apply finiteMembers_iff.mpr
    intro entry listed
    obtain ⟨sorted, among, rfl⟩ := List.mem_map.mp listed
    rw [List.mem_insertionSort] at among
    obtain ⟨member, there, rfl⟩ := List.mem_map.mp among
    exact ih member there (finiteMembers_iff.mp finite member there)

/-- `json.dumps` with sorted keys prints two values alike exactly if they have one canonical
form. -/
theorem dumps_eq_iff (one : first.WellFormed) (two : second.WellFormed) :
    first.dumps = second.dumps ↔ first.canonical = second.canonical := by
  rw [dumps_eq_print, dumps_eq_print]
  constructor
  · intro same
    exact eq_of_append one.finite.canonical two.finite.canonical ends_nil ends_nil
      (congrArg (· ++ []) same)
  · intro same
    rw [same]

theorem member_of_lookup (found : members.lookup key = some value) : (key, value) ∈ members := by
  obtain ⟨before, after, rfl, _⟩ := List.lookup_eq_some_iff.mp found
  simp

theorem lookup_of_member (nodup : (members.map Prod.fst).Nodup) (member : (key, value) ∈ members) :
    members.lookup key = some value := by
  obtain ⟨before, after, rfl⟩ := List.append_of_mem member
  refine List.lookup_eq_some_iff.mpr
    ⟨before, after, rfl, fun entry early => bne_iff_ne.mpr ?_⟩
  rintro rfl
  rw [List.map_append, List.map_cons] at nodup
  exact List.disjoint_of_nodup_append nodup (List.mem_map_of_mem early) List.mem_cons_self

theorem canonical_keys : (canonicalMembers members).map Prod.fst = members.map Prod.fst := by
  rw [canonicalMembers_eq, List.map_map]
  rfl

theorem canonical_member (member : (key, value) ∈ members) :
    (key, value.canonical) ∈ canonicalMembers members := by
  rw [canonicalMembers_eq]
  exact List.mem_map_of_mem member

instance {Value : Type} : Std.Total (@keyOrder Value) :=
  ⟨fun first second => le_total first.1.points second.1.points⟩

instance {Value : Type} : IsTrans _ (@keyOrder Value) :=
  ⟨fun _ _ _ first second => le_trans first second⟩

/-- Distinct keys leave one order for the members. -/
theorem sorted_eq {Value : Type} {entries others : List (Text × Value)}
    (nodup : (entries.map Prod.fst).Nodup) (perm : entries.Perm others) :
    entries.insertionSort keyOrder = others.insertionSort keyOrder := by
  have sorted := List.perm_insertionSort keyOrder entries
  have moved := List.perm_insertionSort keyOrder others
  apply List.Perm.eq_of_pairwise _ (List.pairwise_insertionSort keyOrder _)
    (List.pairwise_insertionSort keyOrder _) (sorted.trans (perm.trans moved.symm))
  intro entry other one two below above
  have keys : entry.1 = other.1 := Text.points_inj.mp (le_antisymm below above)
  exact List.inj_on_of_nodup_map nodup (sorted.mem_iff.mp one)
    (perm.symm.mem_iff.mp (moved.mem_iff.mp two)) keys

/-- As many members with distinct keys, each of them with the canonical form of one of the
others. -/
theorem canonicalMembers_of_same (nodup : (members.map Prod.fst).Nodup)
    (alike : ∀ member ∈ members, ∀ field ∈ fields, Same member.2 field.2 →
      member.2.canonical = field.2.canonical)
    (length : members.length = fields.length) (same : SameMembers members fields) :
    (canonicalMembers members).Perm (canonicalMembers fields) := by
  have distinct : ((canonicalMembers members).map Prod.fst).Nodup := by
    rw [canonical_keys]
    exact nodup
  have included : canonicalMembers members ⊆ canonicalMembers fields := by
    intro entry listed
    rw [canonicalMembers_eq] at listed
    obtain ⟨⟨key, value⟩, member, rfl⟩ := List.mem_map.mp listed
    obtain ⟨other, found, values⟩ := sameMembers_iff.mp same _ member
    have there := member_of_lookup found
    rw [alike _ member _ there values]
    exact canonical_member there
  apply (List.subperm_of_subset (List.Nodup.of_map _ distinct) included).perm_of_length_le
  simp only [canonicalMembers_eq, List.length_map, length, le_refl]

/-- The canonical form does not depend on the order of the keys of an object. -/
theorem canonical_of_same (one : first.WellFormed) (two : second.WellFormed)
    (same : Same first second) : first.canonical = second.canonical := by
  induction first using Json.induct generalizing second with
  | null =>
    cases second with
    | null => rfl
    | _ => cases same
  | bool value =>
    cases second with
    | bool other => cases same; rfl
    | _ => cases same
  | int value =>
    cases second with
    | int other => cases same; rfl
    | _ => cases same
  | float literal =>
    cases second with
    | float other => cases same; rfl
    | _ => cases same
  | str value =>
    cases second with
    | str other => cases same; rfl
    | _ => cases same
  | arr items ih =>
    cases second with
    | arr others =>
      have wellFormed := wellFormedItems_iff.mp one
      have also := wellFormedItems_iff.mp two
      have pairs := List.forall₂_iff_zip.mp (sameItems_iff.mp same)
      have forms : items.map canonical = others.map canonical := by
        rw [← List.forall₂_eq_eq_eq, List.forall₂_map_left_iff, List.forall₂_map_right_iff]
        refine List.forall₂_iff_zip.mpr ⟨pairs.1, fun {item other} pair => ?_⟩
        have member := List.of_mem_zip pair
        exact ih item member.1 (wellFormed item member.1) (also other member.2) (pairs.2 pair)
      rw [canonical, canonical, canonicalItems_eq, canonicalItems_eq, forms]
    | _ => cases same
  | obj members ih =>
    cases second with
    | obj fields =>
      have wellFormed := wellFormedMembers_iff.mp one.2
      have also := wellFormedMembers_iff.mp two.2
      have perm := canonicalMembers_of_same one.1 (fun member listed field there =>
        ih member listed (wellFormed member listed) (also field there)) same.1 same.2
      have nodup : ((canonicalMembers members).map Prod.fst).Nodup := by
        rw [canonical_keys]
        exact one.1
      rw [canonical, canonical, sorted_eq nodup perm]
    | _ => cases same

end Order

section Whole

variable {first second : Json Text} {text other : Text} {points codes : List CodePoint}
variable {unit : CodeUnit} {back : List CodeUnit}

mutual

/-- No string or key of the value spells a character as a pair of surrogates. -/
def whole : Json Text → Bool
  | .null | .bool _ | .int _ | .float _ => true
  | .str value => Text.whole value.points
  | .arr items => wholeItems items
  | .obj members => wholeMembers members

def wholeItems : List (Json Text) → Bool
  | [] => true
  | item :: rest => whole item && wholeItems rest

def wholeMembers : List (Text × Json Text) → Bool
  | [] => true
  | (key, value) :: rest => Text.whole key.points && whole value && wholeMembers rest

end

theorem wholeItems_iff {items : List (Json Text)} :
    wholeItems items = true ↔ ∀ item ∈ items, item.whole = true := by
  induction items with
  | nil => simp [wholeItems]
  | cons item rest ih => simp [wholeItems, ih]

theorem wholeMembers_iff {members : List (Text × Json Text)} : wholeMembers members = true ↔
    ∀ member ∈ members, Text.whole member.1.points = true ∧ member.2.whole = true := by
  induction members with
  | nil => simp [wholeMembers]
  | cons member rest ih => simp [wholeMembers, ih]

/-- Code units begin with a low surrogate only if the text does. -/
theorem begins_low (low : Text.isLow unit = true)
    (same : points.flatMap Text.pointUnits = unit :: back) :
    ∃ next rest, points = next :: rest ∧ Text.lowSurrogate next = true := by
  cases points with
  | nil => cases same
  | cons next rest =>
    refine ⟨next, rest, rfl, ?_⟩
    have bound := next.isLt
    simp only [Text.isLow, Bool.and_eq_true, decide_eq_true_eq] at low
    simp only [Text.lowSurrogate, Bool.and_eq_true, decide_eq_true_eq]
    rw [List.flatMap_cons, Text.pointUnits] at same
    split at same
    · obtain rfl := (List.cons.inj same).1
      exact low
    · obtain rfl := (List.cons.inj same).1
      simp only at low
      omega

/-- A whole text has no high surrogate as its first code point before the code units of a low
one. -/
theorem not_split {point : CodePoint} (whole : Text.whole (point :: points) = true)
    (high : Text.highSurrogate point = true) (low : Text.isLow unit = true) :
    points.flatMap Text.pointUnits ≠ unit :: back := by
  intro same
  obtain ⟨next, rest, rfl, also⟩ := begins_low low same
  simp [Text.whole, high, also] at whole

private theorem whole_tail {point : CodePoint} (whole : Text.whole (point :: points) = true) :
    Text.whole points = true := by
  cases points with
  | nil => rfl
  | cons next rest => exact (Bool.and_eq_true_iff.mp whole).2

/-- The two surrogates of a code point beyond the basic plane. -/
private theorem surrogates (point : CodePoint) (beyond : ¬ point.val < 0x10000) :
    (0xd800 ≤ 0xd800 + (point.val - 0x10000) / 0x400 ∧
      0xd800 + (point.val - 0x10000) / 0x400 < 0xdc00) ∧
    (0xdc00 ≤ 0xdc00 + (point.val - 0x10000) % 0x400 ∧
      0xdc00 + (point.val - 0x10000) % 0x400 < 0xe000) := by
  have bound := point.isLt
  omega

/-- Whole texts of the same code units are the same. -/
theorem points_of_units (one : Text.whole points = true) (two : Text.whole codes = true)
    (same : points.flatMap Text.pointUnits = codes.flatMap Text.pointUnits) : points = codes := by
  have filled (point : CodePoint) (rest : List CodeUnit) : Text.pointUnits point ++ rest ≠ [] := by
    unfold Text.pointUnits
    split <;> exact List.cons_ne_nil _ _
  induction points generalizing codes with
  | nil =>
    cases codes with
    | nil => rfl
    | cons code codes => exact absurd same.symm (filled code _)
  | cons point points ih =>
    cases codes with
    | nil => exact absurd same (filled point _)
    | cons code codes =>
      rw [List.flatMap_cons, List.flatMap_cons, Text.pointUnits, Text.pointUnits] at same
      split at same <;> split at same <;>
        simp only [List.cons_append, List.nil_append, List.cons.injEq, Fin.mk.injEq] at same
      · obtain rfl : point = code := Fin.ext same.1
        rw [ih (whole_tail one) (whole_tail two) same.2]
      · -- one text ends its character where the other goes on to the second surrogate
        next beyond =>
        have range := surrogates code beyond
        exact absurd same.2 (not_split one (by simp [Text.highSurrogate, same.1, range.1])
          (by simp [Text.isLow, range.2]))
      · next beyond _ =>
        have range := surrogates point beyond
        exact absurd same.2.symm (not_split two (by simp [Text.highSurrogate, ← same.1, range.1])
          (by simp [Text.isLow, range.2]))
      · obtain rfl : point = code := by
          apply Fin.ext
          omega
        rw [ih (whole_tail one) (whole_tail two) same.2.2]

theorem units_inj (one : Text.whole text.points = true) (two : Text.whole other.points = true)
    (same : text.units = other.units) : text = other :=
  Text.points_inj.mp (points_of_units one two same)

/-- Without pairs of surrogates, only the order of the keys of objects is lost. -/
theorem same_of_canonical (one : first.whole = true) (two : second.whole = true)
    (distinct : second.WellFormed) (same : first.canonical = second.canonical) :
    Same first second := by
  induction first using Json.induct generalizing second with
  | null | bool value | int value | float literal =>
    cases second <;> simp_all [canonical, Same]
  | str value =>
    cases second with
    | str other => exact units_inj one two (Json.str.inj same)
    | _ => cases same
  | arr items ih =>
    cases second with
    | arr others =>
      have wholes := wholeItems_iff.mp one
      have also := wholeItems_iff.mp two
      have wellFormed := wellFormedItems_iff.mp distinct
      have forms := Json.arr.inj same
      rw [canonicalItems_eq, canonicalItems_eq, ← List.forall₂_eq_eq_eq, List.forall₂_map_left_iff,
        List.forall₂_map_right_iff, List.forall₂_iff_zip] at forms
      refine sameItems_iff.mpr (List.forall₂_iff_zip.mpr ⟨forms.1, fun {item other} pair => ?_⟩)
      have member := List.of_mem_zip pair
      exact ih item member.1 (wholes item member.1) (also other member.2)
        (wellFormed other member.2) (forms.2 pair)
    | _ => cases same
  | obj members ih =>
    cases second with
    | obj fields =>
      have wholes := wholeMembers_iff.mp one
      have also := wholeMembers_iff.mp two
      have wellFormed := wellFormedMembers_iff.mp distinct.2
      have forms := Json.obj.inj same
      refine ⟨?_, sameMembers_iff.mpr ?_⟩
      · simpa [canonicalMembers_eq] using congrArg List.length forms
      · rintro ⟨key, value⟩ listed
        have printed : (key.units, value.canonical) ∈ ((canonicalMembers fields).insertionSort
            keyOrder).map fun member => (member.1.units, member.2) := by
          rw [← forms]
          exact List.mem_map.mpr ⟨(key, value.canonical),
            (List.mem_insertionSort keyOrder).mpr (canonical_member listed), rfl⟩
        obtain ⟨entry, sorted, alike⟩ := List.mem_map.mp printed
        rw [List.mem_insertionSort, canonicalMembers_eq] at sorted
        obtain ⟨⟨name, other⟩, there, rfl⟩ := List.mem_map.mp sorted
        obtain ⟨keys, values⟩ := Prod.mk.inj alike
        obtain rfl : name = key := units_inj (also _ there).1 (wholes _ listed).1 keys
        exact ⟨other, lookup_of_member distinct.1 there, ih _ listed (wholes _ listed).2
          (also _ there).2 (wellFormed _ there) values.symm⟩
    | _ => cases same

end Whole

end Relays.Json

namespace Relays

variable {sha256 : String → String} {first second : Json Text}

/-- `canonical_hash`: the hexadecimal digest of the printed payload, which is ASCII. -/
def canonicalHash (sha256 : String → String) (payload : Json Text) : String :=
  sha256 (String.ofList payload.dumps)

theorem canonicalHash_eq_iff (collisionFree : Function.Injective sha256) (one : first.WellFormed)
    (two : second.WellFormed) :
    canonicalHash sha256 first = canonicalHash sha256 second ↔
      first.canonical = second.canonical := by
  rw [← Json.dumps_eq_iff one two, canonicalHash, canonicalHash, collisionFree.eq_iff,
    String.ofList_inj]

end Relays
