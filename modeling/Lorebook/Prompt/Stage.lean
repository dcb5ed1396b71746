import Lorebook.Text.Word

set_option autoImplicit false

/-! # Stages of generation

A module is drafted field by field, written out as a whole, and its fields are refined one at a
time. -/

namespace Lorebook

/-- A stage of generation. -/
inductive PromptStage where
  /-- Propose field values as a JSON object. -/
  | draft
  /-- Write the content of a module. -/
  | final
  /-- Improve the text of one field. -/
  | refine
deriving DecidableEq, Repr

namespace PromptStage

/-- The word for a stage. -/
def text : PromptStage → String
  | .draft => "draft"
  | .final => "final"
  | .refine => "refine"

/-- Every stage, in the order of compilation. -/
def all : List PromptStage := [.draft, .final, .refine]

/-- The stage of a word. -/
def ofText? (word : String) : Option PromptStage :=
  all.find? fun s => s.text == word

/-- Read the word for a stage. -/
def parse : String → Except UnknownWord PromptStage :=
  parseWord "prompt stage" ofText?

end PromptStage

end Lorebook
