import Lorebook.Text.Hex
import Lorebook.Text.Quoted

set_option autoImplicit false

/-! # Names of things

Worlds, modules and jobs have names with a prefix for their kind and a number in UUID layout,
version 7, whose digits grow with the order in which the names are given out. A name that comes
from elsewhere is taken as it is. Owners are named by the application around the engine. -/

namespace Lorebook

/-- The name of a world. -/
structure WorldId where
  text : String
deriving DecidableEq, Repr

/-- The name of a module of a world. -/
structure ModuleId where
  text : String
deriving DecidableEq, Repr

/-- The name of a generation job. -/
structure JobId where
  text : String
deriving DecidableEq, Repr

/-- The account that owns a world. -/
structure OwnerId where
  text : String
deriving DecidableEq, Repr

/-- The `n`th number in UUID layout: a fixed beginning of version 7, then twelve digits, or more
where twelve do not suffice, so that no number comes twice. -/
def uuidChars (n : Nat) : List Char :=
  "01990000-0000-7000-8000-".toList ++ Text.hexPadded (max 12 (n.log2 / 4 + 1)) n

/-- The `n`th name with a prefix. -/
def mintedName (kind : String) (n : Nat) : String :=
  String.ofList (kind.toList ++ '_' :: uuidChars n)

/-- The `n`th name for a world. -/
def WorldId.mint (n : Nat) : WorldId := ⟨mintedName "wld" n⟩

/-- The `n`th name for a module. -/
def ModuleId.mint (n : Nat) : ModuleId := ⟨mintedName "mod" n⟩

/-- The `n`th name for a job. -/
def JobId.mint (n : Nat) : JobId := ⟨mintedName "job" n⟩

/-- A name as diagnostics show it, under the name of its type. -/
def shownName (type name : String) : String :=
  type ++ "(" ++ Text.quoted name ++ ")"

end Lorebook
