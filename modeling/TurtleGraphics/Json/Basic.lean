/-!
# JSON values

Values as a reader of JSON text gives them. A number without a fraction and exponent that fits
in 64 bits is whole; any other is binary64. The keys of an object are distinct.

`JsonForm` is the form that a type has as a JSON value, with a reader for it.
-/

set_option autoImplicit false

namespace TurtleGraphics

inductive Json where
  | null
  | bool (b : Bool)
  | whole (n : Int)
  | real (x : Float)
  | text (s : String)
  | list (items : List Json)
  | object (fields : List (String × Json))

class JsonForm (α : Type) where
  toJson : α → Json
  ofJson? : Json → Option α

namespace Json

/-! ## Structures -/

/-- The value of a field. -/
def field? (kvs : List (String × Json)) (name : String) : Option Json := kvs.lookup name

/-- The values of named fields, from an object or, in order, from a list of just as many. Fields
of other names are ignored. -/
def fields? (names : List String) : Json → Option (List (Option Json))
  | object kvs => some (names.map (field? kvs))
  | list items => if items.length = names.length then some (items.map some) else none
  | _ => none

/-- A field that has to be there. -/
def required {α : Type} [JsonForm α] (j : Option Json) : Option α := j.bind JsonForm.ofJson?

/-- A field that has a default. -/
def optional {α : Type} [JsonForm α] (default : α) : Option Json → Option α
  | some j => JsonForm.ofJson? j
  | none => some default

/-! ## Alternatives -/

/-- The name of an alternative and its contents: a bare name, or an object of one field. -/
def alternative? : Json → Option (String × Option Json)
  | text name => some (name, none)
  | object [(name, contents)] => some (name, some contents)
  | _ => none

/-- The contents of an alternative that has none. -/
def empty? : Option Json → Option Unit
  | none => some ()
  | some null => some ()
  | some _ => none

def tagged (name : String) (contents : Json) : Json := object [(name, contents)]

/-- One of some alternatives without contents. -/
def ofTable? {α : Type} (table : List (String × α)) (j : Json) : Option α := do
  let (name, contents) ← alternative? j
  empty? contents
  table.lookup name

/-- The name of an alternative in a table. -/
def nameIn {α : Type} [BEq α] (table : List (String × α)) (a : α) : Json :=
  match table.find? (·.2 == a) with
  | some (name, _) => text name
  | none => null

end Json

/-! ## Forms of basic types -/

namespace JsonForm

/-- A whole number from `lo` on and below `hi`. -/
def wholeIn? (lo hi : Int) : Json → Option Int
  | .whole n => if lo ≤ n ∧ n < hi then some n else none
  | _ => none

instance : JsonForm Bool where
  toJson := .bool
  ofJson?
    | .bool b => some b
    | _ => none

instance : JsonForm String where
  toJson := .text
  ofJson?
    | .text s => some s
    | _ => none

instance : JsonForm UInt8 where
  toJson n := .whole n.toNat
  ofJson? j := (wholeIn? 0 UInt8.size j).map fun n => UInt8.ofNat n.toNat

instance : JsonForm UInt32 where
  toJson n := .whole n.toNat
  ofJson? j := (wholeIn? 0 UInt32.size j).map fun n => UInt32.ofNat n.toNat

/-- Counts are written and read below `2 ^ 64`. -/
instance : JsonForm Nat where
  toJson n := .whole n
  ofJson? j := (wholeIn? 0 UInt64.size j).map Int.toNat

instance : JsonForm Int64 where
  toJson n := .whole n.toInt
  ofJson? j := (wholeIn? (-9223372036854775808) 9223372036854775808 j).map Int64.ofInt

/-- A number that is not finite has no form and is written as null. -/
instance : JsonForm Float where
  toJson x := if x.isFinite then .real x else .null
  ofJson?
    | .whole n => some (Float.ofInt n)
    | .real x => some x
    | _ => none

instance {α : Type} [JsonForm α] : JsonForm (Option α) where
  toJson
    | some a => toJson a
    | none => .null
  ofJson?
    | .null => some none
    | j => (ofJson? j).map some

instance {α : Type} [JsonForm α] : JsonForm (List α) where
  toJson items := .list (items.map toJson)
  ofJson?
    | .list items => items.mapM ofJson?
    | _ => none

end JsonForm

end TurtleGraphics
