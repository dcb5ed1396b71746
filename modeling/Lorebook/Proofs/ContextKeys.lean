import Lorebook.Proofs.Prompting
import Lorebook.Proofs.Results

set_option autoImplicit false

/-! # The keys of contexts

A prompt is rendered in a context of its stage (`Engine.rendered_of_prompt?`). The first keys of
such a context depend on the stage alone: not on the world, the module, its siblings and the texts,
nor on the field that is refined (`Context.OfStage.keys_eq`). -/

namespace Lorebook

/-! ## The keys of objects -/

namespace Json

/-- The keys of an object, in order. -/
def keys (v : Json) : List String :=
  ((v.entries?).getD []).map (·.1)

end Json

/-- Where entries go depends on their keys alone. -/
theorem map_fst_insertEntry {α β : Type} (key : String) (v : α) (w : β) {es : List (String × α)}
    {fs : List (String × β)} (h : es.map (·.1) = fs.map (·.1)) :
    (insertEntry key v es).map (·.1) = (insertEntry key w fs).map (·.1) := by
  induction es generalizing fs with
  | nil =>
    obtain rfl : fs = [] := by simpa using h.symm
    rfl
  | cons e es ih =>
    obtain ⟨f, fs, rfl⟩ : ∃ f fs', fs = f :: fs' := by
      cases fs with
      | nil => simp at h
      | cons f fs => exact ⟨f, fs, rfl⟩
    obtain ⟨k, a⟩ := e
    obtain ⟨k', b⟩ := f
    simp only [List.map_cons, List.cons.injEq] at h
    obtain ⟨rfl, h⟩ := h
    unfold insertEntry
    split
    · simp [h]
    · split
      · simp [h]
      · simp [ih h]

theorem map_fst_sortEntries {α β : Type} {es : List (String × α)} {fs : List (String × β)}
    (h : es.map (·.1) = fs.map (·.1)) :
    (sortEntries es).map (·.1) = (sortEntries fs).map (·.1) := by
  have hfold : ∀ (sorted : List (String × α)) (sorted' : List (String × β)),
      sorted.map (·.1) = sorted'.map (·.1) →
      (es.foldl (fun acc e => insertEntry e.1 e.2 acc) sorted).map (·.1) =
        (fs.foldl (fun acc e => insertEntry e.1 e.2 acc) sorted').map (·.1) := by
    induction es generalizing fs with
    | nil =>
      obtain rfl : fs = [] := by simpa using h.symm
      exact fun _ _ hsorted => hsorted
    | cons e es ih =>
      cases fs with
      | nil => simp at h
      | cons f fs =>
        simp only [List.map_cons, List.cons.injEq] at h
        intro sorted sorted' hsorted
        rw [List.foldl_cons, List.foldl_cons, h.1]
        exact ih h.2 _ _ (map_fst_insertEntry f.1 e.2 f.2 hsorted)
  exact hfold [] [] rfl

/-- The keys of an object are those of its entries, put in order. -/
theorem Json.keys_object {entries : List (String × Json)} {names : List String}
    (h : entries.map (·.1) = names) :
    (Json.object entries).keys = (sortEntries (names.map fun name => (name, ()))).map (·.1) :=
  map_fst_sortEntries (by simp [← h])

/-! ## The contexts of a stage -/

namespace Context

/-- The contexts that are built for a stage from an input, which for the refine stage has a field to
refine. -/
inductive OfStage (registry : Registry) (input : ContextInput) : PromptStage → Json → Prop
  | draft : OfStage registry input .draft (draft input registry)
  | final : OfStage registry input .final (final input registry)
  | refine {field : FieldDefinition} (h : field ∈ input.definition.fields) :
      OfStage registry input .refine (refine input field registry)

/-- The first keys of the contexts of a stage, in order. -/
def stageKeys : PromptStage → List String
  | .draft =>
    ["focusNote", "instruction", "missing", "module", "others", "priorText", "stage", "world"]
  | .final => ["focusNote", "instruction", "module", "others", "priorText", "stage", "world"]
  | .refine =>
    ["field", "focusNote", "instruction", "module", "others", "priorText", "stage", "world"]

/-- The keys that the contexts of all stages have. -/
def commonKeys : List String :=
  ["world", "module", "others", "focusNote", "priorText", "instruction"]

theorem keys_draft (input : ContextInput) (registry : Registry) :
    (draft input registry).keys = stageKeys .draft :=
  (Json.keys_object (show _ = commonKeys ++ ["missing", "stage"] from rfl)).trans (by decide)

theorem keys_final (input : ContextInput) (registry : Registry) :
    (final input registry).keys = stageKeys .final :=
  (Json.keys_object (show _ = commonKeys ++ ["stage"] from rfl)).trans (by decide)

theorem keys_refine (input : ContextInput) (field : FieldDefinition) (registry : Registry) :
    (refine input field registry).keys = stageKeys .refine :=
  (Json.keys_object (show _ = commonKeys ++ ["field", "stage"] from rfl)).trans (by decide)

/-- The contexts of a stage have the keys of the stage. -/
theorem OfStage.keys_eq {registry : Registry} {input : ContextInput} {stage : PromptStage}
    {context : Json} (h : OfStage registry input stage context) :
    context.keys = stageKeys stage := by
  cases h with
  | draft => exact keys_draft input registry
  | final => exact keys_final input registry
  | refine => exact keys_refine input _ registry

end Context

/-! ## The contexts that prompts are rendered in -/

/-- The stage that a prompt is rendered for. -/
def Purpose.stage : Purpose → PromptStage
  | .content _ => .final
  | .draft .. => .draft
  | .refinement .. => .refine

/-- A prompt is rendered for a module of the registry, in a context of its stage. -/
theorem Engine.rendered_of_prompt? {e : Engine} {scope : World × List WorldModule} {p : Purpose}
    {rendered : Except TemplateError String} (h : e.prompt? scope p = some rendered) :
    ∃ input context, input.definition ∈ e.registry.modules ∧
      Context.OfStage e.registry input p.stage context ∧
      rendered = e.promptOf p.stage input.definition.key context := by
  cases p with
  | content job =>
    simp only [prompt?] at h
    split at h
    · rename_i d m hd hm
      cases h
      exact ⟨_, _, Registry.mem_of_require hd, .final, rfl⟩
    · cases h
  | draft world module owner =>
    simp only [prompt?] at h
    split at h
    · rename_i d hd
      split at h
      · cases h
        exact ⟨draftInput d scope, _, Registry.mem_of_require hd, .draft, rfl⟩
      · cases h
    · cases h
  | refinement world module field owner text instruction =>
    simp only [prompt?] at h
    split at h
    · rename_i d f hd hf
      split at h
      · cases h
        exact ⟨{ draftInput d scope with
            focusNote := f.focus, priorText := some text, instruction := instruction }, _,
          Registry.mem_of_require hd, .refine (Registry.mem_of_requireField hd hf), rfl⟩
      · cases h
    · cases h

end Lorebook
