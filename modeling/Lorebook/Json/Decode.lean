import Lorebook.Json.Basic

set_option autoImplicit false

/-! # Decoding JSON values

Records are written as objects, or as arrays that list the members in their fixed order. Members
that a record does not know are passed over; a known member may not occur twice. A member that may
be absent has a default, and an optional one may also be null. -/

namespace Lorebook.Json

variable {α : Type}

/-- A decoder of a type. -/
abbrev Decoder (α : Type) := Json → Option α

/-- A text. -/
def decodeText : Decoder String := str?

/-- A truth value. -/
def decodeBool : Decoder Bool
  | .bool b => some b
  | _ => none

/-- A natural number of at most `bits` bits. -/
def decodeNat (bits : Nat) : Decoder Nat
  | .num (.int n) => if 0 ≤ n ∧ n < (twoPow bits : Int) then some n.toNat else none
  | _ => none

/-- A whole number that fits 64 bits with a sign. -/
def decodeInt64 : Decoder Int
  | .num (.int n) => if -(twoPow 63 : Int) ≤ n ∧ n < (twoPow 63 : Int) then some n else none
  | _ => none

/-- A value that may be null. -/
def decodeOption (decode : Decoder α) : Decoder (Option α)
  | .null => some none
  | v => (decode v).map some

/-- A list of values. -/
def decodeList (decode : Decoder α) : Decoder (List α)
  | .arr items => items.mapM decode
  | _ => none

/-- A map from text; of equal keys the last entry wins, but every entry has to decode. -/
def decodeMap (decode : Decoder α) : Decoder (Dictionary α)
  | .obj entries => (entries.mapM fun e => (decode e.2).map (e.1, ·)).map Dictionary.ofList
  | _ => none

/-- A word of a fixed set; it may also be the only key of an object, with null under it. -/
def decodeWord (ofText? : String → Option α) : Decoder α
  | .str s => ofText? s
  | .obj [(s, .null)] => ofText? s
  | _ => none

/-- What a record holds at the place of a member. -/
inductive Member where
  /-- The record does not have the member. -/
  | absent
  /-- The record lists its members in order and ends before this one. -/
  | cut
  | present (value : Json)

/-- The members of a record in the order of `names`; `none` for a value that is no record. -/
def members? (names : List String) : Json → Option (List Member)
  | .obj entries =>
    names.mapM fun name =>
      match entries.filter (·.1 == name) with
      | [] => some .absent
      | [e] => some (.present e.2)
      | _ => none
  | .arr items =>
    if items.length ≤ names.length then
      some (items.map .present ++ List.replicate (names.length - items.length) .cut)
    else none
  | _ => none

/-- A member that has to be there. -/
def Member.required (decode : Decoder α) : Member → Option α
  | .present v => decode v
  | _ => none

/-- A member that may be left out of an object, or null. -/
def Member.optional (decode : Decoder α) : Member → Option (Option α)
  | .present v => decodeOption decode v
  | .absent => some none
  | .cut => none

/-- A member with a default for records that do not have it. -/
def Member.withDefault (fallback : α) (decode : Decoder α) : Member → Option α
  | .present v => decode v
  | _ => some fallback

end Lorebook.Json
