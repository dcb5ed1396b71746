set_option autoImplicit false

/-! # Beginnings, ends and pieces of text

Taking a known beginning or end off a list of characters, and cutting it at a separator. -/

namespace Lorebook.Text

/-- What follows `start`, if the characters begin with it. -/
def afterStart? : List Char → List Char → Option (List Char)
  | [], cs => some cs
  | _ :: _, [] => none
  | s :: start, c :: cs => if s = c then afterStart? start cs else none

/-- What precedes `ending`, if the characters end with it. -/
def beforeEnd? (ending cs : List Char) : Option (List Char) :=
  (afterStart? ending.reverse cs.reverse).map List.reverse

/-- The pieces between the places where `sep` stands; one more than it occurs. -/
def pieces (sep : Char) : List Char → List (List Char)
  | [] => [[]]
  | c :: cs =>
    if c = sep then [] :: pieces sep cs
    else match pieces sep cs with
      | [] => [[c]]
      | piece :: rest => (c :: piece) :: rest

theorem afterStart?_eq_some_iff {start cs rest : List Char} :
    afterStart? start cs = some rest ↔ cs = start ++ rest := by
  induction start generalizing cs with
  | nil => simp [afterStart?]
  | cons s start ih => cases cs with
    | nil => simp [afterStart?]
    | cons c cs =>
      simp only [afterStart?, List.cons_append, List.cons.injEq]
      split
      · rename_i h
        simp [h, ih]
      · rename_i h
        simp [Ne.symm h]

theorem beforeEnd?_eq_some_iff {ending cs rest : List Char} :
    beforeEnd? ending cs = some rest ↔ cs = rest ++ ending := by
  simp only [beforeEnd?, Option.map_eq_some_iff, afterStart?_eq_some_iff]
  constructor
  · rintro ⟨a, h, rfl⟩
    simpa using congrArg List.reverse h
  · rintro rfl
    exact ⟨rest.reverse, by simp, by simp⟩

end Lorebook.Text
