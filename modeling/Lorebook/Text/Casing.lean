import Lorebook.Text.CaseTables

set_option autoImplicit false

/-! # Upper and lower case

The full case mappings of Unicode, without tailoring to a language: a character may become several,
and a capital sigma that ends a word becomes the final form of the small letter. -/

namespace Lorebook.Text

/-- The code point the first covering run gives for `n`. -/
def mapByRuns (runs : List CaseRun) (n : Nat) : Nat :=
  (runs.findSome? (·.map? n)).getD n

/-- The upper-case form of one character. -/
def upperChar (c : Char) : List Char :=
  if c.toNat < 0x80 then [c.toUpper]
  else match upperExpansions.lookup c.toNat with
    | some points => points.map Char.ofNat
    | none => [Char.ofNat (mapByRuns upperRuns c.toNat)]

/-- The lower-case form of one character, wherever it stands. -/
def lowerChar (c : Char) : List Char :=
  if c.toNat < 0x80 then [c.toLower]
  else if c = 'İ' then ['i', Char.ofNat 0x307]
  else [Char.ofNat (mapByRuns lowerRuns c.toNat)]

/-- Whether a character is a letter that has a case. -/
def isCased (c : Char) : Bool :=
  c.isAlpha || inRanges casedRanges c

/-- Whether, past the characters that case mapping ignores, the next one has a case. -/
def meetsCased (cs : List Char) : Bool :=
  match cs.dropWhile (inRanges caseIgnorableRanges ·) with
  | [] => false
  | c :: _ => isCased c

/-- Lower case of `cs`, where `before` holds the characters already passed, nearest first. -/
def lowerChars (before : List Char) : List Char → List Char
  | [] => []
  | c :: rest =>
    let small :=
      if c = 'Σ' then [if meetsCased before && !meetsCased rest then 'ς' else 'σ']
      else lowerChar c
    small ++ lowerChars (c :: before) rest

/-- Text in upper case. -/
def upper (s : String) : String :=
  String.ofList (s.toList.flatMap upperChar)

/-- Text in lower case. -/
def lower (s : String) : String :=
  String.ofList (lowerChars [] s.toList)

end Lorebook.Text
