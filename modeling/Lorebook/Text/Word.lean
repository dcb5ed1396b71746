set_option autoImplicit false

/-! # Words of fixed sets

Statuses and stages are written as words. A word that is not in its set is an error that names the
set. -/

namespace Lorebook

/-- A word that is not in the set it should come from. -/
structure UnknownWord where
  /-- What the words of the set stand for. -/
  set : String
  word : String
deriving DecidableEq, Repr

/-- The text of the error. -/
def UnknownWord.message (e : UnknownWord) : String :=
  s!"unknown {e.set}: {e.word}"

/-- Read a word of a set. -/
def parseWord {α : Type} (set : String) (ofText? : String → Option α) (word : String) :
    Except UnknownWord α :=
  match ofText? word with
  | some v => .ok v
  | none => .error ⟨set, word⟩

end Lorebook
