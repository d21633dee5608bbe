import Relays.Core.Text

namespace Relays

/-- JSON values over the strings of a kind, as the request models dump them and the JSONB codec
loads them. A float is kept as its printed literal, which determines it. -/
inductive Json (Str : Type) where
  | null
  | bool (value : Bool)
  | int (value : Int)
  | float (literal : String)
  | str (value : Str)
  | arr (items : List (Json Str))
  | obj (members : List (Str × Json Str))

namespace Json

def isObject {Str : Type} : Json Str → Bool
  | .obj _ => true
  | _ => false

def ofStrings? : Option (List String) → Json Text
  | none => .null
  | some values => .arr (values.map fun value : String => .str (Text.ofString value))

mutual

/-- What a `jsonb` column can hold: no NaN or infinity, which `json.dumps` prints but PostgreSQL
refuses, and only strings that it can read. -/
def storable : Json Text → Bool
  | .null | .bool _ | .int _ => true
  | .float literal => !(["NaN", "Infinity", "-Infinity"].contains literal)
  | .str value => value.jsonStorable
  | .arr items => storableItems items
  | .obj members => storableMembers members

def storableItems : List (Json Text) → Bool
  | [] => true
  | item :: rest => storable item && storableItems rest

def storableMembers : List (Text × Json Text) → Bool
  | [] => true
  | (key, value) :: rest => key.jsonStorable && storable value && storableMembers rest

end

end Json

end Relays
