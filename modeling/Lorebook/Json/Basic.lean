import Lorebook.Entries
import Lorebook.Decimal.Binary

set_option autoImplicit false

/-! # JSON values

A number is an integer when it is written as one and fits 64 bits, signed or unsigned; every other
number is a finite double. The entries of an object are kept in the order of their keys; a text
read with repeated keys passes through `Json.canonical`, where the last entry of a key wins. -/

namespace Lorebook

/-- A JSON number. -/
inductive Json.Number where
  | int (value : Int)
  | real (value : Binary)
deriving DecidableEq, Repr

/-- A JSON value. -/
inductive Json where
  | null
  | bool (value : Bool)
  | num (value : Json.Number)
  | str (value : String)
  | arr (items : List Json)
  | obj (entries : List (String × Json))
deriving Repr

namespace Json

instance : Inhabited Json := ⟨.null⟩

/-- An integer value. -/
def int (n : Int) : Json :=
  .num (.int n)

/-- A natural number as a value. -/
def nat (n : Nat) : Json :=
  .num (.int n)

/-- The text, or null when there is none. -/
def optionStr : Option String → Json
  | none => .null
  | some s => .str s

/-- The natural number, or null when there is none. -/
def optionNat : Option Nat → Json
  | none => .null
  | some n => .nat n

/-- An array of texts. -/
def strings (ss : List String) : Json :=
  .arr (ss.map .str)

/-- The object of a list of entries, put in key order. -/
def object (entries : List (String × Json)) : Json :=
  .obj (sortEntries entries)

/-- The value under a key, for an object that has the key. -/
def get? (key : String) : Json → Option Json
  | .obj entries => lookup? key entries
  | _ => none

/-- The items of an array. -/
def items? : Json → Option (List Json)
  | .arr items => some items
  | _ => none

/-- The entries of an object. -/
def entries? : Json → Option (List (String × Json))
  | .obj entries => some entries
  | _ => none

/-- The text of a string. -/
def str? : Json → Option String
  | .str s => some s
  | _ => none

/-- Whether the value is null. -/
def isNull : Json → Bool
  | .null => true
  | _ => false

mutual

/-- The value with the entries of every object in key order, the last of equal keys winning. -/
def canonical : Json → Json
  | .arr items => .arr (canonicalItems items)
  | .obj entries => .obj (sortEntries (canonicalEntries entries))
  | v => v

/-- `canonical` on the items of an array. -/
def canonicalItems : List Json → List Json
  | [] => []
  | v :: rest => v.canonical :: canonicalItems rest

/-- `canonical` on the values of entries. -/
def canonicalEntries : List (String × Json) → List (String × Json)
  | [] => []
  | (k, v) :: rest => (k, v.canonical) :: canonicalEntries rest

end

end Json

end Lorebook
