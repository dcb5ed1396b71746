import Lorebook.Json.Decode

set_option autoImplicit false

/-! # Loosely written objects

What people write by hand leaves members out. These look-ups give something for every member: null,
nothing or a fallback where the member is missing or of another kind. -/

namespace Lorebook.Json

variable {α : Type}

/-- A member, or null. -/
def member (v : Json) (key : String) : Json :=
  (v.get? key).getD .null

/-- A member that is there and not null. -/
def given? (v : Json) (key : String) : Option Json :=
  (v.get? key).filter fun x => !x.isNull

/-- A text. -/
def text? (v : Json) (key : String) : Option String :=
  (v.member key).str?

/-- A text, or the fallback. -/
def text (v : Json) (key : String) (fallback : String := "") : String :=
  (v.text? key).getD fallback

/-- A whole number. -/
def integer? (v : Json) (key : String) : Option Int :=
  decodeInt64 (v.member key)

/-- A natural number, or the fallback. -/
def natural (v : Json) (key : String) (fallback : Nat := 0) : Nat :=
  (decodeNat 64 (v.member key)).getD fallback

/-- Whether a member is true. -/
def flag (v : Json) (key : String) : Bool :=
  (decodeBool (v.member key)).getD false

/-- The items of a list. -/
def items (v : Json) (key : String) : List Json :=
  ((v.member key).items?).getD []

/-- The texts of a list. -/
def texts (v : Json) (key : String) : List String :=
  (v.items key).filterMap (·.str?)

/-- The entries of an object. -/
def entries (v : Json) (key : String) : List (String × Json) :=
  ((v.member key).entries?).getD []

/-- An item of a list, or null. -/
def item (v : Json) (n : Nat) : Json :=
  (((v.items?).getD [])[n]?).getD .null

/-- An item that is a text, or the empty text. -/
def itemText (v : Json) (n : Nat) : String :=
  ((v.item n).str?).getD ""

/-! ## Writing -/

/-- An object with more entries. -/
def merged (v : Json) (more : List (String × Json)) : Json :=
  object ((v.entries?).getD [] ++ more)

/-- A value that may be absent, or null. -/
def ofOption (encode : α → Json) (x : Option α) : Json :=
  (x.map encode).getD .null

/-- An array of values. -/
def ofList (encode : α → Json) (xs : List α) : Json :=
  .arr (xs.map encode)

/-! ## Texts -/

mutual

/-- The value with every text changed, from the first to the last; keys stay. -/
def mapTexts {m : Type → Type} [Monad m] (f : String → m String) : Json → m Json
  | .str s => return .str (← f s)
  | .arr vs => return .arr (← mapItemTexts f vs)
  | .obj es => return .obj (← mapEntryTexts f es)
  | v => return v

/-- `mapTexts` on the items of an array. -/
def mapItemTexts {m : Type → Type} [Monad m] (f : String → m String) :
    List Json → m (List Json)
  | [] => return []
  | v :: rest => return (← mapTexts f v) :: (← mapItemTexts f rest)

/-- `mapTexts` on the values of entries. -/
def mapEntryTexts {m : Type → Type} [Monad m] (f : String → m String) :
    List (String × Json) → m (List (String × Json))
  | [] => return []
  | (key, v) :: rest => return (key, ← mapTexts f v) :: (← mapEntryTexts f rest)

end

end Lorebook.Json
