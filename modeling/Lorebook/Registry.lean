import Lorebook.Module.Definition

set_option autoImplicit false

/-! # The registry of modules

A registry is the ordered set of module definitions that every world is assembled from. It is built
once from a list of definitions: they are put in order, and the list is refused at its first defect.
The checks are `RegistryError`s of `firstDefect?`; a registry carries the proof that it has none. -/

namespace Lorebook

/-- Why a list of definitions makes no registry, or a look-up fails. -/
inductive RegistryError where
  /-- The file cannot be read. -/
  | io (detail : String)
  /-- The text is not a list of definitions. -/
  | malformed (detail : String)
  | empty
  | duplicateModule (module : String)
  | duplicateField (module field : String)
  | invalidBounds (module field : String)
  | unknownModule (module : String)
  | unknownField (module field : String)
deriving DecidableEq, Repr

/-- The word for a kind of error. -/
def RegistryError.kind : RegistryError → String
  | .io _ => "Io"
  | .malformed _ => "Ron"
  | .empty => "Empty"
  | .duplicateModule _ => "DuplicateModule"
  | .duplicateField .. => "DuplicateField"
  | .invalidBounds .. => "InvalidBounds"
  | .unknownModule _ => "UnknownModule"
  | .unknownField .. => "UnknownField"

/-- The text of a registry error. -/
def RegistryError.message : RegistryError → String
  | .io detail => s!"IO error: {detail}"
  | .malformed detail => s!"RON deserialization error: {detail}"
  | .empty => "module schema defines no modules"
  | .duplicateModule m => s!"duplicate module key: {m}"
  | .duplicateField m f => s!"duplicate field '{f}' in module '{m}'"
  | .invalidBounds m f => s!"field '{f}' in module '{m}' has min_length above max_length"
  | .unknownModule m => s!"module not found: {m}"
  | .unknownField m f => s!"field not found: {m}.{f}"

/-- Whether the least length of a field lies above its greatest. -/
def FieldDefinition.hasInvertedBounds (f : FieldDefinition) : Bool :=
  match f.minLength, f.maxLength with
  | some min, some max => max < min
  | _, _ => false

namespace Registry

/-- The first defect among the fields of a module, `seen` being the keys of those before. -/
def firstFieldDefect? (module : String) (seen : List String) :
    List FieldDefinition → Option RegistryError
  | [] => none
  | f :: rest =>
    if f.key ∈ seen then some (.duplicateField module f.key)
    else if f.hasInvertedBounds then some (.invalidBounds module f.key)
    else firstFieldDefect? module (f.key :: seen) rest

/-- The first defect among modules, `seen` being the keys of those before: a key used again comes
before the defects of the module's fields. -/
def firstDefect? (seen : List String) : List ModuleDefinition → Option RegistryError
  | [] => none
  | d :: rest =>
    if d.key ∈ seen then some (.duplicateModule d.key)
    else match firstFieldDefect? d.key [] d.fields with
      | some e => some e
      | none => firstDefect? (d.key :: seen) rest

/-- Definitions by ascending order; those of equal order stay as they were. -/
def sortByOrder (definitions : List ModuleDefinition) : List ModuleDefinition :=
  definitions.mergeSort fun a b => a.order ≤ b.order

end Registry

/-- The ordered set of module definitions. -/
structure Registry where
  modules : List ModuleDefinition
  ne_nil : modules ≠ []
  sound : Registry.firstDefect? [] modules = none

namespace Registry

/-- The registry of a list of definitions. -/
def ofDefinitions (definitions : List ModuleDefinition) : Except RegistryError Registry :=
  if hne : definitions = [] then .error .empty
  else
    match h : firstDefect? [] (sortByOrder definitions) with
    | some e => .error e
    | none => .ok ⟨sortByOrder definitions, fun hnil => hne (by
        have hlen := congrArg List.length hnil
        simpa [sortByOrder] using hlen), h⟩

/-- The definition of a module. -/
def find? (r : Registry) (key : String) : Option ModuleDefinition :=
  r.modules.find? (·.key == key)

/-- The definition of a module that has to exist. -/
def require (r : Registry) (key : String) : Except RegistryError ModuleDefinition :=
  match r.find? key with
  | some d => .ok d
  | none => .error (.unknownModule key)

/-- The definition of a field that has to exist. -/
def requireField (r : Registry) (module field : String) : Except RegistryError FieldDefinition := do
  match (← r.require module).field? field with
  | some f => return f
  | none => .error (.unknownField module field)

/-- The number of modules. -/
def size (r : Registry) : Nat :=
  r.modules.length

end Registry

end Lorebook
