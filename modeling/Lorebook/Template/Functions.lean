import Lorebook.Json.Printer
import Lorebook.Template.Basic
import Lorebook.Text.Blank
import Lorebook.Text.Casing

set_option autoImplicit false

/-! # Pipe functions

A pipe function takes the current value, which may be absent, and text arguments, and gives a new
value or refuses with a message. `FunctionSet.builtin` is the set that templates have by default:
`join`, `default`, `json`, `upper`, `lower`, `trim`, `first` and `count`. -/

namespace Lorebook

/-- A function that templates can pipe a value through. -/
abbrev PipeFunction := Option Json → List String → Except String (Option Json)

/-- The text of a value in rendered output: nothing for an absent value and for null, a string
without quotes, and JSON text for the rest. -/
def displayText : Option Json → String
  | none => ""
  | some .null => ""
  | some (.str s) => s
  | some v => v.compact

/-- Whether a value counts as empty: absent, null, or without characters, items or entries. -/
def isEmptyValue : Option Json → Bool
  | none => true
  | some .null => true
  | some (.str s) => s.isEmpty
  | some (.arr items) => items.isEmpty
  | some (.obj entries) => entries.isEmpty
  | some _ => false

/-- The functions that templates may call, by name. -/
abbrev FunctionSet := Dictionary PipeFunction

namespace FunctionSet

/-! ## Arguments -/

/-- A function of one argument. -/
def unary (name : String) (f : String → Option Json → Option Json) : PipeFunction :=
  fun value args => match args with
    | [arg] => .ok (f arg value)
    | _ => .error s!"{name} expects 1 argument, got {args.length}"

/-- A function without arguments. -/
def nullary (name : String) (f : Option Json → Option Json) : PipeFunction :=
  fun value args => match args with
    | [] => .ok (f value)
    | _ => .error s!"{name} takes no arguments, got {args.length}"

/-! ## The built-in functions -/

/-- The items of a list that are not null, as text with a separator between them. -/
def join (separator : String) : Option Json → Option Json
  | some (.arr items) =>
    let shown := (items.filter (!·.isNull)).map fun v => displayText (some v)
    some (.str (String.intercalate separator shown))
  | v => v

/-- The fallback in place of an empty value. -/
def orDefault (fallback : String) (value : Option Json) : Option Json :=
  if isEmptyValue value then some (.str fallback) else value

/-- The JSON text of a value, an absent one being null. -/
def jsonText (value : Option Json) : Option Json :=
  some (.str (value.getD .null).compact)

/-- A change of text, which leaves other values alone. -/
def onText (f : String → String) : Option Json → Option Json
  | some (.str s) => some (.str (f s))
  | v => v

/-- The first item of a list; an empty list gives an absent value. -/
def first : Option Json → Option Json
  | some (.arr items) => items.head?
  | v => v

/-- The number of items, entries or characters; one for a value without parts. -/
def size : Option Json → Nat
  | none => 0
  | some .null => 0
  | some (.arr items) => items.length
  | some (.obj entries) => entries.length
  | some (.str s) => s.length
  | some _ => 1

/-- The names of the built-in functions, each with its function. -/
def builtinEntries : List (String × PipeFunction) := [
  ("join", unary "join" join),
  ("default", unary "default" orDefault),
  ("json", nullary "json" jsonText),
  ("upper", nullary "upper" (onText Text.upper)),
  ("lower", nullary "lower" (onText Text.lower)),
  ("trim", nullary "trim" (onText Text.trim)),
  ("first", nullary "first" first),
  ("count", nullary "count" fun value => some (.nat (size value)))]

/-- The set without functions. -/
def empty : FunctionSet :=
  Dictionary.empty

/-- The set of built-in functions. -/
def builtin : FunctionSet :=
  Dictionary.ofList builtinEntries

/-- Whether a function of that name is registered. -/
def contains (functions : FunctionSet) (name : String) : Bool :=
  (functions.find? name).isSome

/-- A line that shows the names of a set. -/
def summary (functions : FunctionSet) : String :=
  "FunctionRegistry \x7b functions: " ++ Text.quotedList functions.keys ++ " \x7d"

end FunctionSet

end Lorebook
