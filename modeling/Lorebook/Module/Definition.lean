import Lorebook.Text.Blank

set_option autoImplicit false

/-! # Definitions of modules

Every module of a world follows a definition: an ordered list of text fields, some of which are
required for publication and bounded in length. -/

namespace Lorebook

/-- The description of one field. -/
structure FieldDefinition where
  key : String
  label : String
  required : Bool := false
  minLength : Option Nat := none
  maxLength : Option Nat := none
  /-- Guidance for refining the field. -/
  focus : Option String := none
deriving DecidableEq, Repr

/-- The description of one module and its fields. -/
structure ModuleDefinition where
  key : String
  label : String
  order : Nat
  description : Option String := none
  fields : List FieldDefinition
deriving DecidableEq, Repr

/-- Why the value of a required field stands in the way of publication. -/
inductive FieldViolation where
  | missing
  | tooLong (max actual : Nat)
deriving DecidableEq, Repr

/-- The text of a violation, to follow the name of the field. -/
def FieldViolation.message : FieldViolation → String
  | .missing => "is required"
  | .tooLong max actual => s!"is {actual} characters long (maximum {max})"

/-- What stands in the way of publication: a required field must be present, not blank, and not
longer than its greatest length once trimmed. Other fields are not checked. -/
def FieldDefinition.violation? (field : FieldDefinition) (value : Option String) :
    Option FieldViolation :=
  if !field.required then none
  else
    let text := Text.trim (value.getD "")
    if text.isEmpty then some .missing
    else match field.maxLength with
      | some max => if max < text.length then some (.tooLong max text.length) else none
      | none => none

namespace ModuleDefinition

/-- The field with a key. -/
def field? (d : ModuleDefinition) (key : String) : Option FieldDefinition :=
  d.fields.find? (·.key == key)

/-- The fields that publication requires. -/
def requiredFields (d : ModuleDefinition) : List FieldDefinition :=
  d.fields.filter (·.required)

end ModuleDefinition

end Lorebook
