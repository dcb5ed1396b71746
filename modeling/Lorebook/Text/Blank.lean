import Lorebook.Text.Ranges

set_option autoImplicit false

/-! # White space, trimming and blank text

White space is the Unicode property White_Space. Text is *blank* when it has nothing else, and
*trimmed* when it neither starts nor ends with it. -/

namespace Lorebook.Text

/-- The code points with the property White_Space. -/
def spaceRanges : List (Nat × Nat) := [
  (0x9, 0xD), (0x20, 0x20), (0x85, 0x85), (0xA0, 0xA0), (0x1680, 0x1680), (0x2000, 0x200A),
  (0x2028, 0x2029), (0x202F, 0x202F), (0x205F, 0x205F), (0x3000, 0x3000)]

/-- Whether a character is white space. -/
def isSpace (c : Char) : Bool :=
  inRanges spaceRanges c

/-- The characters left when white space is taken off the front. -/
def trimStartChars (cs : List Char) : List Char :=
  cs.dropWhile isSpace

/-- The characters left when white space is taken off the end. -/
def trimEndChars (cs : List Char) : List Char :=
  (cs.reverse.dropWhile isSpace).reverse

/-- The characters left when white space is taken off both ends. -/
def trimChars (cs : List Char) : List Char :=
  trimEndChars (trimStartChars cs)

/-- Text without white space at either end. -/
def trim (s : String) : String :=
  String.ofList (trimChars s.toList)

/-- Text without white space at its end. -/
def trimEnd (s : String) : String :=
  String.ofList (trimEndChars s.toList)

/-- Text with nothing but white space. -/
def isBlank (s : String) : Bool :=
  s.toList.all isSpace

/-- The trimmed text, unless nothing is left of it. -/
def trimmed? (s : String) : Option String :=
  if isBlank s then none else some (trim s)

theorem isSpace_of_isWhitespace {c : Char} (h : c.isWhitespace) : isSpace c := by
  simp only [Char.isWhitespace, Bool.or_eq_true, decide_eq_true_eq] at h
  rcases h with ((h | h) | h) | h <;> subst h <;> decide

theorem toList_trim (s : String) : (trim s).toList = trimChars s.toList := by
  simp [trim]

end Lorebook.Text
