import Lorebook.Json.Members
import Lorebook.Json.Reader
import Lorebook.Text.Affix

set_option autoImplicit false

/-! # Records of rehearsals

The record of a rehearsal is there to be compared with the records of others. What differs from run
to run is masked in it: names that were given out become numbers in the order in which they appear,
and times of the present become one mark. Messages that pass on what a reader of files or the
database says are cut where that begins. -/

namespace Lorebook.Record

/-! ## Messages -/

/-- The words after which a message is cut. -/
def cutWords : List String := [
  "RON deserialization error: ", "invalid JSON: ", "is not JSON: ", "Invalid fixture: ",
  "Failed to parse prompt catalog: ", "IO error: ", "database error: no such table: "]

/-- The words after which a path follows, and a colon at which a message is cut. -/
def cutPathWords : List String := ["IO error reading ", "Failed to read "]

/-- A text up to the first colon and blank, with them. -/
def throughColon : List Char → List Char
  | ':' :: ' ' :: _ => [':', ' ']
  | c :: rest => c :: throughColon rest
  | [] => []

/-- A text up to the first quotation mark that is not escaped, with it. -/
def throughQuote : List Char → List Char
  | '\\' :: c :: rest => '\\' :: c :: throughQuote rest
  | '"' :: _ => ['"']
  | c :: rest => c :: throughQuote rest
  | [] => []

/-- The part that is kept of a message that is cut in its first words. -/
def keptStart? (words : List String) (cs : List Char) : Option (List Char) :=
  let starts (w : String) : Bool := w.toList.isPrefixOf cs
  let after (w : String) : List Char := cs.drop w.length
  match words.find? starts, cutPathWords.find? starts with
  | some w, _ => some w.toList
  | none, some w => some (w.toList ++ throughColon (after w))
  | none, none =>
    let w := "invalid timestamp \""
    if starts w then
      let quoted := w.toList ++ throughQuote (after w)
      if (cs.drop quoted.length).take 2 = [':', ' '] then some (quoted ++ [':', ' ']) else none
    else none

/-- A message with a star in place of what is cut. -/
def cutChars (words : List String) : List Char → List Char
  | [] => []
  | c :: rest =>
    match keptStart? words (c :: rest) with
    | some kept => kept ++ ['*']
    | none => c :: cutChars words rest

/-- A message, cut at the usual words and some more. -/
def cut (s : String) (more : List String := []) : String :=
  String.ofList (cutChars (cutWords ++ more) s.toList)

/-! ## Names and times -/

/-- The names that are masked so far, each with its mask, the latest first. -/
abbrev Masks := List (String × String)

/-- Whether a text starts with characters of a shape: `d` stands for a decimal digit, `x` for a
hexadecimal one, `v` for one that begins a variant, and any other character for itself. -/
def fits : List Char → List Char → Bool
  | [], _ => true
  | 'd' :: shape, c :: cs => c.isDigit && fits shape cs
  | 'x' :: shape, c :: cs => (c.isDigit || ('a' ≤ c && c ≤ 'f')) && fits shape cs
  | 'v' :: shape, c :: cs => "89ab".contains c && fits shape cs
  | s :: shape, c :: cs => s = c && fits shape cs
  | _, [] => false

/-- Whether a text starts with a name that was given out. -/
def startsWithName (cs : List Char) : Bool :=
  ["wld", "mod", "job"].contains (String.ofList (cs.take 3)) &&
    fits "_xxxxxxxx-xxxx-7xxx-vxxx-xxxxxxxxxxxx".toList (cs.drop 3)

/-- The length of a name that was given out. -/
def nameLength : Nat := 40

/-- The length of the timestamp that a text starts with, if it lies in the years 2024 to 2099. -/
def timeLength? (cs : List Char) : Option Nat :=
  let year := Json.digitsValue (cs.take 4)
  if fits "dddd-dd-ddTdd:dd:dd".toList cs && 2024 ≤ year && year ≤ 2099 then
    let rest := match cs.drop 19 with
      | '.' :: rest => rest.dropWhile Char.isDigit
      | rest => rest
    if rest.head? = some 'Z' then some (cs.length - rest.length + 1) else none
  else none

/-- The mask of a name. -/
def maskName (name : String) : StateM Masks String := do
  match (← get).lookup name with
  | some mask => return mask
  | none =>
    let kind := (name.take 3).toString
    let mask := s!"{kind}#{((← get).filter fun a => a.2.startsWith kind).length + 1}"
    modify ((name, mask) :: ·)
    return mask

/-- A text with names and times masked; so many characters at its start are masked already. -/
def maskChars : Nat → List Char → StateM Masks (List Char)
  | _, [] => return []
  | skip + 1, _ :: rest => maskChars skip rest
  | 0, c :: rest => do
    if startsWithName (c :: rest) then
      let mask ← maskName (String.ofList ((c :: rest).take nameLength))
      return mask.toList ++ (← maskChars (nameLength - 1) rest)
    else match timeLength? (c :: rest) with
      | some n => return "<now>".toList ++ (← maskChars (n - 1) rest)
      | none => return c :: (← maskChars 0 rest)

/-- A value in which every text is cut and masked. -/
def mask (v : Json) (more : List String := []) : StateM Masks Json :=
  v.mapTexts fun s => return String.ofList (← maskChars 0 (cut s more).toList)

/-- A value in which every text is cut and masked, by itself. -/
def masked (v : Json) : Json :=
  ((mask v).run []).run.1

/-- A value with the names in place of the masks that are texts of their own. -/
def unmask (masks : Masks) (v : Json) : Json :=
  Id.run <| v.mapTexts fun s => ((masks.find? fun a => a.2 == s).map (·.1)).getD s

end Lorebook.Record
