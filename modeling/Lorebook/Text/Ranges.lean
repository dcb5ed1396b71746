set_option autoImplicit false

/-! # Sets of characters given by ranges

A Unicode property is a finite union of closed ranges of code points. The property modules of
this folder hold such tables, as of version 17.0 of the standard, and ask them through
`inRanges`. -/

namespace Lorebook.Text

/-- Whether the code point of a character lies in one of the closed ranges. -/
def inRanges (ranges : List (Nat × Nat)) (c : Char) : Bool :=
  ranges.any fun r => r.1 ≤ c.toNat && c.toNat ≤ r.2

theorem inRanges_iff {ranges : List (Nat × Nat)} {c : Char} :
    inRanges ranges c ↔ ∃ r ∈ ranges, r.1 ≤ c.toNat ∧ c.toNat ≤ r.2 := by
  simp [inRanges]

end Lorebook.Text
