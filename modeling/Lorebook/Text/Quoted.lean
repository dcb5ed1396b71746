import Lorebook.Text.Hex
import Lorebook.Text.Printable

set_option autoImplicit false

/-! # Quoted text

Diagnostics show text between double quotes. A quote, a backslash, the usual controls and every
character that would not print on its own are written as escapes, so the quoted form stays on one
line and names its text exactly. -/

namespace Lorebook.Text

/-- How many hexadecimal digits a code point needs. -/
def hexWidth (n : Nat) : Nat :=
  if n < 0x10 then 1 else if n < 0x100 then 2 else if n < 0x1000 then 3
  else if n < 0x10000 then 4 else if n < 0x100000 then 5 else 6

/-- A character as it stands between the quotes. -/
def quotedChar (c : Char) : List Char :=
  if c = '\x00' then ['\\', '0']
  else if c = '\t' then ['\\', 't']
  else if c = '\n' then ['\\', 'n']
  else if c = '\r' then ['\\', 'r']
  else if c = '"' then ['\\', '"']
  else if c = '\\' then ['\\', '\\']
  else if isAttaching c || !isPrintable c then
    '\\' :: 'u' :: '\x7b' :: hexPadded (hexWidth c.toNat) c.toNat ++ ['\x7d']
  else [c]

/-- Text between double quotes. -/
def quoted (s : String) : String :=
  String.ofList ('"' :: s.toList.flatMap quotedChar ++ ['"'])

/-- A list of texts, each quoted, between square brackets. -/
def quotedList (ss : List String) : String :=
  "[" ++ String.intercalate ", " (ss.map quoted) ++ "]"

/-- An optional text, quoted when present. -/
def quotedOption : Option String → String
  | none => "None"
  | some s => "Some(" ++ quoted s ++ ")"

end Lorebook.Text
