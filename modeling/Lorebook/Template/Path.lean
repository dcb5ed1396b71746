import Lorebook.Template.Basic

set_option autoImplicit false

/-! # Looking up paths

A path is followed key by key. A wildcard step applies the rest of the path to every element of a
list and gathers what is found; the lists that later wildcards produce are joined into one. -/

namespace Lorebook

/-- What one element contributes to a projection: its value, or the items of that value when a
later wildcard made a list of it. -/
def projected (nested : Bool) : Option Json → List Json
  | none => []
  | some (.arr inner) => if nested then inner else [.arr inner]
  | some v => [v]

/-- The value that a path leads to; `none` when a key is missing, or a step meets a value that is
not an object, or a wildcard one that is not a list. -/
def resolvePath : List PathStep → Json → Option Json
  | [], v => some v
  | .key name :: rest, v => (v.get? name).bind (resolvePath rest)
  | .wildcard name :: rest, v => do
    let items ← (← v.get? name).items?
    return .arr (items.flatMap fun item =>
      projected (rest.any PathStep.isWildcard) (resolvePath rest item))

end Lorebook
