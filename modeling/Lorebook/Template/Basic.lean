import Lorebook.Json.Basic

set_option autoImplicit false

/-! # Prompt templates

A template is literal text with embedded expressions. An expression reads a path of the context and
sends the value through pipes, each a named function with text arguments. -/

namespace Lorebook

/-- One step of a context path. -/
inductive PathStep where
  /-- The value under a key of an object. -/
  | key (name : String)
  /-- Every element of the list under a key; the rest of the path applies to each. -/
  | wildcard (name : String)
deriving DecidableEq, Repr

/-- The key that a step looks up. -/
def PathStep.name : PathStep → String
  | .key name => name
  | .wildcard name => name

/-- Whether the step projects a list. -/
def PathStep.isWildcard : PathStep → Bool
  | .key _ => false
  | .wildcard _ => true

/-- The step as it is written in a path. -/
def PathStep.text : PathStep → String
  | .key name => name
  | .wildcard name => name ++ "[*]"

/-- One pipe: a function and its arguments. -/
structure PipeCall where
  name : String
  args : List String
deriving DecidableEq, Repr

/-- An embedded expression, with its text as written between the braces. -/
structure Expression where
  path : List PathStep
  pipes : List PipeCall
  source : String
deriving DecidableEq, Repr

/-- The path with its steps joined by points. -/
def Expression.dottedPath (e : Expression) : String :=
  String.intercalate "." (e.path.map PathStep.text)

/-- The expression with its dollar sign and braces. -/
def Expression.text (e : Expression) : String :=
  "$\x7b" ++ e.source ++ "\x7d"

/-- A piece of a template. -/
inductive Segment where
  | literal (text : String)
  | expr (expression : Expression)
deriving DecidableEq, Repr

/-- The expression of a segment that has one. -/
def Segment.expression? : Segment → Option Expression
  | .literal _ => none
  | .expr e => some e

/-- A parsed template. -/
structure Template where
  segments : List Segment
deriving DecidableEq, Repr

namespace Template

/-- The first occurrences of the items of a list, in order. -/
def distinct (names : List String) : List String :=
  names.foldl (fun seen n => if n ∈ seen then seen else seen ++ [n]) []

/-- The expressions in the order of the text. -/
def expressions (t : Template) : List Expression :=
  t.segments.filterMap Segment.expression?

/-- The functions that the template calls, each once, in the order of first use. -/
def functionNames (t : Template) : List String :=
  distinct (t.expressions.flatMap fun e => e.pipes.map (·.name))

/-- The dotted paths that the template reads, each once, in the order of first use. -/
def paths (t : Template) : List String :=
  distinct (t.expressions.map (·.dottedPath))

end Template

/-- What is wrong with the text of a template. -/
inductive SyntaxFault where
  | nestedBraces
  | unclosedExpression
  | emptyExpression
  | emptyPathSegment
  | invalidPathSegment (segment : String)
  | unclosedArguments (pipe : String)
  | invalidFunctionName (name : String)
  | unquotedArgument
  | unterminatedArgument
  | missingComma
  /-- A fault described in words. -/
  | described (message : String)
deriving DecidableEq, Repr

/-- The description of a fault. -/
def SyntaxFault.message : SyntaxFault → String
  | .nestedBraces => "nested braces are not allowed"
  | .unclosedExpression => "unclosed expression"
  | .emptyExpression => "empty expression"
  | .emptyPathSegment => "empty path segment"
  | .invalidPathSegment segment => s!"invalid path segment '{segment}'"
  | .unclosedArguments pipe => s!"unclosed argument list in '{pipe}'"
  | .invalidFunctionName name => s!"invalid function name '{name}'"
  | .unquotedArgument => "function arguments must be double-quoted strings"
  | .unterminatedArgument => "unterminated string argument"
  | .missingComma => "expected ',' between function arguments"
  | .described message => message

/-- Why a template cannot be parsed, compiled or rendered. -/
inductive TemplateError where
  /-- The text at a character offset is malformed. -/
  | parse (offset : Nat) (fault : SyntaxFault)
  /-- No function of that name is registered. -/
  | unknownFunction (name : String)
  /-- A function refused its arguments. -/
  | function (name : String) (message : String)
deriving DecidableEq, Repr

/-- The word for a kind of error. -/
def TemplateError.kind : TemplateError → String
  | .parse .. => "Parse"
  | .unknownFunction _ => "UnknownFunction"
  | .function .. => "Function"

/-- The text of a template error. -/
def TemplateError.message : TemplateError → String
  | .parse offset fault => s!"template parse error at offset {offset}: {fault.message}"
  | .unknownFunction name => s!"unknown template function '{name}'"
  | .function name message => s!"template function '{name}' failed: {message}"

end Lorebook
