import Lorebook.Command.Options
import Lorebook.Command.Transcript
import Lorebook.Engine.Build
import Lorebook.Lint.Report

set_option autoImplicit false

/-! # The lint command

The command reads a schema file and a prompt file, or the packaged ones, and prints what the lint
finds. It succeeds when there are no errors. -/

namespace Lorebook

/-- A text in a file, with the path of the file. -/
structure NamedFile where
  path : String
  text : FileText

namespace Lint

open CommandStep

/-- The options of the command. -/
def options : OptionTable where
  valued := ["--modules", "--prompts"].map (·, OptionTable.isPath)
  flags := []

/-- How the command is used. -/
def usage : List String := [
  "Checks module definitions and prompt templates",
  "",
  "Usage: schema_linter [OPTIONS]",
  "",
  "Options:",
  "      --modules <MODULES>  Module schema (RON). Defaults to the packaged schema",
  "      --prompts <PROMPTS>  Prompt catalog (RON). Defaults to the packaged catalog",
  "  -h, --help               Print help"]

/-- The paths of the schema file and the prompt file that words name. -/
def parseCall (words : List String) : Except CallRefusal (Option String × Option String) := do
  let w ← options.read words
  return (w.value? "--modules", w.value? "--prompts")

/-- The registry of a schema file, or the packaged one. -/
def loadRegistry (modules : Option NamedFile) : CommandStep Registry :=
  ofExcept (fun e => s!"Failed to load module schema: {e.message}")
    (Registry.choose none (modules.map (·.text)))

/-- The source of a prompt file, or the packaged one. -/
def loadSource : Option NamedFile → CommandStep PromptSource
  | none => return .packaged
  | some file => do
    let text ← ofExcept (fun detail => s!"Failed to read {file.path}: {detail}") file.text
    match PromptSource.parse? text with
    | some source => return source
    | none => fail "Failed to parse prompt catalog: not a prompt catalog"

/-- Print a report. -/
def printReport (r : LintReport) : CommandStep Unit := do
  print "\n=== Schema Lint Report ===\n"
  if r.isClean then print "All checks passed!"
  r.warnings.forM fun w => print s!"WARNING: {w.message}"
  r.errors.forM fun e => print s!"ERROR: {e.message}"
  print s!"\nSummary: {r.errors.length} errors, {r.warnings.length} warnings"

/-- What the command prints for a schema file and a prompt file. -/
def command (modules prompts : Option NamedFile) : Transcript :=
  transcript do
    let registry ← loadRegistry modules
    print s!"Loaded {registry.size} module definitions"
    let source ← loadSource prompts
    let r := report registry source
    printReport r
    unless r.errors.isEmpty do
      throw 1

end Lint

end Lorebook
