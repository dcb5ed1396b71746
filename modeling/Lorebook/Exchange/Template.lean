import Lorebook.Json.Basic
import Lorebook.Template.Basic

set_option autoImplicit false

/-! # The JSON form of parsed templates -/

namespace Lorebook

/-- A step of a path: a key, or the key whose items are projected. -/
def PathStep.toJson (s : PathStep) : Json :=
  Json.object [(if s.isWildcard then "wildcard" else "key", .str s.name)]

/-- The members of a call. -/
def PipeCall.toJson (p : PipeCall) : Json :=
  Json.object [("name", .str p.name), ("args", .strings p.args)]

/-- The members of an expression. -/
def Expression.toJson (e : Expression) : Json :=
  Json.object [
    ("source", .str e.source),
    ("display", .str e.text),
    ("dotted", .str e.dottedPath),
    ("path", .arr (e.path.map (·.toJson))),
    ("pipes", .arr (e.pipes.map (·.toJson)))]

/-- A segment under the name of its kind. -/
def Segment.toJson : Segment → Json
  | .literal s => Json.object [("literal", .str s)]
  | .expr e => Json.object [("expr", e.toJson)]

/-- The segments of a template, and what it refers to. -/
def Template.toJson (t : Template) : Json :=
  Json.object [
    ("segments", .arr (t.segments.map (·.toJson))),
    ("functions", .strings t.functionNames),
    ("paths", .strings t.paths)]

end Lorebook
