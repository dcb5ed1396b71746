import Lorebook.Prompt.Catalog

set_option autoImplicit false

/-! # The packaged prompts

The catalog that is used when no other is given: a template for each stage, and one of its own for
the final text of the factions module. -/

namespace Lorebook.PromptSource

/-- The packaged draft prompt. -/
def packagedDraft : String :=
  "You are helping an author build the world \"$\x7bworld.name\x7d\".\n" ++
  "Tagline: $\x7bworld.tagline|default(\"(none)\")\x7d\n" ++
  "Themes: $\x7bworld.themes|join(\", \")|default(\"(none)\")\x7d\n" ++
  "\n" ++
  "Module: $\x7bmodule.label\x7d\n" ++
  "$\x7bmodule.description|default(\"\")\x7d\n" ++
  "\n" ++
  "Fields already written:\n" ++
  "$\x7bmodule.fields[*].line|join(\"\\n\")|default(\"(none)\")\x7d\n" ++
  "\n" ++
  "Fields to propose:\n" ++
  "$\x7bmissing[*].spec|join(\"\\n\")|default(\"(all fields are filled; improve them " ++
  "instead)\")\x7d\n" ++
  "\n" ++
  "What the rest of the world already says:\n" ++
  "$\x7bothers[*].brief|join(\"\\n\\n\")|default(\"(nothing yet)\")\x7d\n" ++
  "\n" ++
  "Reply with a single JSON object whose keys are field keys of this module and whose values " ++
  "are plain text. Keep every value within its length limit. Do not invent keys."

/-- The packaged final prompt. -/
def packagedFinal : String :=
  "You are writing the finished reference text for the \"$\x7bmodule.label\x7d\" section of " ++
  "the world \"$\x7bworld.name\x7d\".\n" ++
  "Tagline: $\x7bworld.tagline|default(\"(none)\")\x7d\n" ++
  "Themes: $\x7bworld.themes|join(\", \")|default(\"(none)\")\x7d\n" ++
  "\n" ++
  "Author's notes for this section:\n" ++
  "$\x7bmodule.fields[*].line|join(\"\\n\")|default(\"(none)\")\x7d\n" ++
  "\n" ++
  "Stay consistent with the rest of the world:\n" ++
  "$\x7bothers[*].brief|join(\"\\n\\n\")|default(\"(nothing yet)\")\x7d\n" ++
  "\n" ++
  "Write flowing prose of four to eight paragraphs. Keep every fact from the author's notes, " ++
  "resolve contradictions in favour of the notes, and do not add headings or lists."

/-- The packaged prompt for refining a field. -/
def packagedRefine : String :=
  "You are editing one field of the \"$\x7bmodule.label\x7d\" section of the world " ++
  "\"$\x7bworld.name\x7d\".\n" ++
  "Field: $\x7bfield.label\x7d\n" ++
  "Focus: $\x7bfocusNote|default(\"keep it vivid and specific\")\x7d\n" ++
  "Length: $\x7bfield.lengthHint|default(\"no limit\")\x7d\n" ++
  "\n" ++
  "Current text:\n" ++
  "$\x7bpriorText\x7d\n" ++
  "\n" ++
  "Instruction: $\x7binstruction|default(\"Tighten the prose and make it more " ++
  "concrete.\")\x7d\n" ++
  "\n" ++
  "Context from the rest of the section:\n" ++
  "$\x7bmodule.fields[*].line|join(\"\\n\")|default(\"(none)\")\x7d\n" ++
  "\n" ++
  "Reply with the revised text only."

/-- The packaged final prompt of the factions module. -/
def packagedFactionsFinal : String :=
  "You are writing the finished reference text for the \"$\x7bmodule.label\x7d\" section of " ++
  "the world \"$\x7bworld.name\x7d\".\n" ++
  "Themes: $\x7bworld.themes|join(\", \")|default(\"(none)\")\x7d\n" ++
  "\n" ++
  "Author's notes:\n" ++
  "$\x7bmodule.fields[*].line|join(\"\\n\")|default(\"(none)\")\x7d\n" ++
  "\n" ++
  "The rest of the world:\n" ++
  "$\x7bothers[*].brief|join(\"\\n\\n\")|default(\"(nothing yet)\")\x7d\n" ++
  "\n" ++
  "Describe each faction in its own paragraph: what it wants, how it acts and whom it opposes. " ++
  "Close with one paragraph on the conflict most likely to break open first. No headings or " ++
  "lists."

/-- The packaged catalog. -/
def packaged : PromptSource where
  draft := packagedDraft
  final := packagedFinal
  refine := packagedRefine
  modules := Dictionary.ofList [("factions", { final := some packagedFactionsFinal })]

end Lorebook.PromptSource
