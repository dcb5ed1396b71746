set_option autoImplicit false

/-! # What a command prints

A command prints texts to its output and its error output, each followed by a line break, and ends
with an exit code. A step of a command either goes on or ends it. -/

namespace Lorebook

/-- What a command printed, and its exit code. -/
structure Transcript where
  code : Nat := 0
  out : List String := []
  err : List String := []
deriving DecidableEq, Repr

namespace Transcript

/-- The lines of printed texts. A line break may be preceded by a carriage return. -/
def lines (texts : List String) : List String :=
  ((String.join (texts.map (· ++ "\n"))).splitOn "\n").dropLast.map fun line =>
    if line.endsWith "\r" then (line.dropEnd 1).toString else line

end Transcript

/-- A step of a command: it may print, and it may end the command with an exit code. -/
abbrev CommandStep (α : Type) := ExceptT Nat (StateM Transcript) α

namespace CommandStep

variable {α : Type}

/-- Print to the output. -/
def print (text : String) : CommandStep Unit :=
  modify fun t => { t with out := t.out ++ [text] }

/-- Print to the error output. -/
def warn (text : String) : CommandStep Unit :=
  modify fun t => { t with err := t.err ++ [text] }

/-- End the command with an error. -/
def fail (text : String) : CommandStep α := do
  warn s!"ERROR: {text}"
  throw 1

/-- What a look-up gives; an error ends the command. -/
def ofExcept {ε : Type} (describe : ε → String) : Except ε α → CommandStep α
  | .ok v => return v
  | .error e => fail (describe e)

/-- The transcript of a command. -/
def transcript (step : CommandStep Unit) : Transcript :=
  match step.run.run {} with
  | (.ok (), t) => t
  | (.error code, t) => { t with code := code }

end CommandStep

end Lorebook
