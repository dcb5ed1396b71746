import Lorebook.Proofs.RegistryConstruction
import Lorebook.Prompt.Context

set_option autoImplicit false

/-! # What a context tells of the other modules

The contexts of all stages show the same of the other modules of a world: those that have something
to tell, in the order of the registry. The order of the rows that are passed to a builder does not
matter, nor do rows of the target, of modules that the registry does not define, or without anything
to tell (`Context.canonical_others`). -/

namespace Lorebook

namespace Json

/-- Under a key, an object has the last of the entries with the key. -/
theorem get?_object (entries : List (String × Json)) (key : String) :
    (Json.object entries).get? key = lookup? key entries.reverse :=
  lookup?_sortEntries entries key

end Json

namespace Context

/-! ## The builders -/

/-- What builds a context: there is one for each stage. -/
inductive Builder where
  | draft
  | final
  | refine (field : FieldDefinition)

/-- The context that a builder makes. -/
def Builder.context : Builder → ContextInput → Registry → Json
  | .draft, input, registry => Context.draft input registry
  | .final, input, registry => Context.final input registry
  | .refine field, input, registry => Context.refine input field registry

theorem Builder.get?_module (b : Builder) (input : ContextInput) (registry : Registry) :
    (b.context input registry).get? "module" =
      some (moduleValue input.definition input.module) := by
  cases b <;> exact Json.get?_object _ _

theorem Builder.get?_others (b : Builder) (input : ContextInput) (registry : Registry) :
    (b.context input registry).get? "others" = some (.arr (othersValues input registry)) := by
  cases b <;> exact Json.get?_object _ _

/-- Beyond what it shows of them, a context does not depend on the other modules. -/
theorem Builder.context_congr {input : ContextInput} {registry : Registry}
    {rows : List WorldModule}
    (h : othersValues { input with others := rows } registry = othersValues input registry)
    (b : Builder) :
    b.context { input with others := rows } registry = b.context input registry := by
  have hcommon : commonEntries { input with others := rows } registry =
      commonEntries input registry := by
    simp only [commonEntries, h]
  cases b with
  | draft => exact congrArg (fun es => Json.object (es ++ _)) hcommon
  | final => exact congrArg (fun es => Json.object (es ++ _)) hcommon
  | refine field => exact congrArg (fun es => Json.object (es ++ _)) hcommon

/-! ## Modules that have something to tell -/

/-- There is a text, and it is not blank. -/
def Filled (text : Option String) : Prop :=
  ∃ s, text = some s ∧ Text.isBlank s = false

/-- A row has something to tell of the module: content, or the value of a field that is defined. -/
def Tells (d : ModuleDefinition) (m : WorldModule) : Prop :=
  Filled m.content ∨ ∃ f ∈ d.fields, Filled (m.field? f.key)

theorem isSome_trimmed?_iff {text : Option String} :
    (text.bind Text.trimmed?).isSome = true ↔ Filled text := by
  cases text with
  | none => simp [Filled]
  | some s => cases hblank : Text.isBlank s <;> simp [Filled, Text.trimmed?, hblank]

theorem isSome_fieldLine?_iff {f : FieldDefinition} {m : WorldModule} :
    (fieldLine? f m).isSome = true ↔ Filled (m.field? f.key) := by
  rw [fieldLine?, Option.isSome_map]
  exact isSome_trimmed?_iff

/-- The lines of the fields that are filled in. -/
def filledLines (d : ModuleDefinition) (m : WorldModule) : List String :=
  d.fields.filterMap fun f => fieldLine? f m

theorem filledLines_eq_nil_iff {d : ModuleDefinition} {m : WorldModule} :
    filledLines d m = [] ↔ ¬ ∃ f ∈ d.fields, Filled (m.field? f.key) := by
  simp only [filledLines, List.filterMap_eq_nil_iff, ← isSome_fieldLine?_iff]
  simp

/-- What a row tells of its module. -/
def told (d : ModuleDefinition) (m : WorldModule) : Json :=
  let content := m.content.bind Text.trimmed?
  Json.object [
    ("key", .str d.key),
    ("label", .str d.label),
    ("status", .str m.status.text),
    ("lines", .strings (filledLines d m)),
    ("content", .optionStr content),
    ("brief", .str ("## " ++ d.label ++ "\n" ++
      content.getD (String.intercalate "\n" (filledLines d m))))]

theorem siblingValue?_eq (d : ModuleDefinition) (m : WorldModule) : siblingValue? d m =
    if (filledLines d m).isEmpty && (m.content.bind Text.trimmed?).isNone then none
    else some (told d m) :=
  rfl

/-- A row is shown exactly if it has something to tell. -/
theorem siblingValue?_eq_some_iff {d : ModuleDefinition} {m : WorldModule} {v : Json} :
    siblingValue? d m = some v ↔ Tells d m ∧ v = told d m := by
  have hcontent : (m.content.bind Text.trimmed?).isNone = true ↔ ¬ Filled m.content := by
    rw [← isSome_trimmed?_iff]
    simp
  have hsilent : ((filledLines d m).isEmpty && (m.content.bind Text.trimmed?).isNone) = true ↔
      ¬ Tells d m := by
    rw [Bool.and_eq_true, List.isEmpty_iff, filledLines_eq_nil_iff, hcontent, Tells, not_or,
      and_comm]
  rw [siblingValue?_eq]
  split
  · rename_i h
    simp [hsilent.1 h]
  · rename_i h
    simp [not_not.1 (mt hsilent.2 h), eq_comm]

/-- What is shown of a module is shown under its key. -/
theorem get?_key_siblingValue {d : ModuleDefinition} {m : WorldModule} {v : Json}
    (h : siblingValue? d m = some v) : v.get? "key" = some (.str d.key) := by
  obtain ⟨-, rfl⟩ := siblingValue?_eq_some_iff.1 h
  exact Json.get?_object _ _

/-! ## The rows of the other modules -/

section

variable (registry : Registry) (target : String)

/-- Every module but the target has one row at most. -/
def OneRowEach (rows : List WorldModule) : Prop :=
  ∀ d ∈ registry.modules, d.key ≠ target →
    ∀ m ∈ rows, ∀ m' ∈ rows, m.key = d.key → m'.key = d.key → m = m'

theorem oneRowEach_of_nodup {rows : List WorldModule} (h : (rows.map (·.key)).Nodup) :
    OneRowEach registry target rows :=
  fun d _ _ => eq_of_nodup_keys h d.key

/-- No context shows the row: it is the target's own, its module is not in the registry, or it has
nothing to tell of its module. -/
inductive Overlooked (m : WorldModule) : Prop
  | target (h : m.key = target)
  | foreign (h : ∀ d ∈ registry.modules, d.key ≠ m.key)
  | empty {d : ModuleDefinition} (hd : d ∈ registry.modules) (hkey : d.key = m.key)
      (h : ¬ Tells d m)

/-- The modules that are shown: each module of the registry but the target of which a row has
something to tell, once and in the order of the registry. -/
structure Shows (rows : List WorldModule) (shown : List ModuleDefinition) : Prop where
  ordered : shown.Sublist registry.modules
  once : (shown.map (·.key)).Nodup
  mem_iff : ∀ d, d ∈ shown ↔
    d ∈ registry.modules ∧ d.key ≠ target ∧ ∃ m ∈ rows, m.key = d.key ∧ Tells d m

/-- What is shown of a module by the first of its rows. -/
def sibling? (rows : List WorldModule) (d : ModuleDefinition) : Option Json :=
  (rows.find? fun m => m.key == d.key).bind (siblingValue? d)

variable {registry target} {rows : List WorldModule} {d : ModuleDefinition}

theorem not_overlooked (hd : d ∈ registry.modules) (htarget : d.key ≠ target) {m : WorldModule}
    (hkey : m.key = d.key) (h : Tells d m) : ¬ Overlooked registry target m := by
  intro hover
  cases hover with
  | target hown => exact htarget (hkey.symm.trans hown)
  | foreign hforeign => exact hforeign d hd hkey.symm
  | @empty d' hd' hkey' hempty =>
    obtain rfl : d' = d := Registry.eq_of_key hd' hd (hkey'.trans hkey)
    exact hempty h

variable (hone : OneRowEach registry target rows) (hd : d ∈ registry.modules)
  (htarget : d.key ≠ target)

include hone hd htarget

/-- Something is shown of a module exactly if its row tells it. -/
theorem sibling?_eq_some_iff {v : Json} :
    sibling? rows d = some v ↔ ∃ m ∈ rows, m.key = d.key ∧ siblingValue? d m = some v := by
  rw [sibling?, Option.bind_eq_some_iff]
  simp only [find?_key_eq_some_iff (hone d hd htarget), and_assoc]

theorem isSome_sibling?_iff :
    (sibling? rows d).isSome = true ↔ ∃ m ∈ rows, m.key = d.key ∧ Tells d m := by
  rw [Option.isSome_iff_exists]
  simp only [sibling?_eq_some_iff hone hd htarget, siblingValue?_eq_some_iff]
  constructor
  · rintro ⟨v, m, hm, hkey, htells, -⟩
    exact ⟨m, hm, hkey, htells⟩
  · rintro ⟨m, hm, hkey, htells⟩
    exact ⟨_, m, hm, hkey, htells, rfl⟩

/-- What is shown of a module does not depend on rows that are overlooked. -/
theorem sibling?_congr {rows' : List WorldModule} (hone' : OneRowEach registry target rows')
    (hsame : ∀ m, ¬ Overlooked registry target m → (m ∈ rows' ↔ m ∈ rows)) :
    sibling? rows' d = sibling? rows d := by
  refine Option.ext fun v => ?_
  rw [sibling?_eq_some_iff hone' hd htarget, sibling?_eq_some_iff hone hd htarget]
  have hmem : ∀ m, m.key = d.key → siblingValue? d m = some v → (m ∈ rows' ↔ m ∈ rows) := by
    intro m hkey h
    exact hsame m (not_overlooked hd htarget hkey ((siblingValue?_eq_some_iff.1 h).1))
  constructor
  · rintro ⟨m, hm, hkey, h⟩
    exact ⟨m, (hmem m hkey h).1 hm, hkey, h⟩
  · rintro ⟨m, hm, hkey, h⟩
    exact ⟨m, (hmem m hkey h).2 hm, hkey, h⟩

end

/-! ## The other modules -/

/-- What a function gives, where it gives anything, it gives for one item after the other. -/
theorem forall₂_filter_filterMap {α β : Type} (f : α → Option β) (xs : List α) :
    List.Forall₂ (fun x y => f x = some y) (xs.filter fun x => (f x).isSome) (xs.filterMap f) := by
  induction xs with
  | nil => exact .nil
  | cons x xs ih =>
    cases h : f x with
    | none => simpa [h] using ih
    | some y => simpa [h] using ih

theorem othersValues_eq (input : ContextInput) (registry : Registry) :
    othersValues input registry =
      (registry.modules.filter fun d => d.key != input.module.key).filterMap
        (sibling? input.others) :=
  rfl

/-- What the contexts of an input show of the other modules of its world. -/
structure CanonicalOthers (registry : Registry) (input : ContextInput) : Prop where
  /-- There is a value for each module that is shown, which is what its row tells of it. -/
  listed : ∃ shown values, Shows registry input.module.key input.others shown ∧
    List.Forall₂ (fun d v => v.get? "key" = some (.str d.key) ∧
      ∃ m ∈ input.others, m.key = d.key ∧ siblingValue? d m = some v) shown values ∧
    ∀ b : Builder, (b.context input registry).get? "others" = some (.arr values)
  /-- Rows may be passed in another order, and rows that are overlooked added and left out. -/
  same : ∀ rows, OneRowEach registry input.module.key rows →
    (∀ m, ¬ Overlooked registry input.module.key m → (m ∈ rows ↔ m ∈ input.others)) →
    ∀ b : Builder, b.context { input with others := rows } registry = b.context input registry

/-- Where every other module has one row at most, the contexts of all stages show the same of them,
whichever way the rows are passed. -/
theorem canonical_others {registry : Registry} {input : ContextInput}
    (hone : OneRowEach registry input.module.key input.others) :
    CanonicalOthers registry input where
  listed := by
    let others := registry.modules.filter fun d => d.key != input.module.key
    have hothers : ∀ d ∈ others, d ∈ registry.modules ∧ d.key ≠ input.module.key := by
      simp [others]
    have hsub : (others.filter fun d => (sibling? input.others d).isSome).Sublist
        registry.modules := List.filter_sublist.trans List.filter_sublist
    refine ⟨_, _, ⟨hsub, registry.soundModules.distinct.sublist (hsub.map _), fun d => ?_⟩,
      ?_, fun b => b.get?_others input registry⟩
    · rw [List.mem_filter, List.mem_filter, and_assoc, bne_iff_ne]
      refine and_congr_right fun hd => and_congr_right fun htarget => ?_
      exact isSome_sibling?_iff hone hd htarget
    · have hpairs := forall₂_filter_filterMap (sibling? input.others) others
      refine ((List.forall₂_and_left _ _).2
        ⟨fun d hd => hothers d (List.mem_filter.1 hd).1, hpairs⟩).imp ?_
      rintro d v ⟨⟨hd, htarget⟩, h⟩
      obtain ⟨m, hm, hkey, hv⟩ := (sibling?_eq_some_iff hone hd htarget).1 h
      exact ⟨get?_key_siblingValue hv, m, hm, hkey, hv⟩
  same rows hrows hsame := by
    refine Builder.context_congr ?_
    rw [othersValues_eq, othersValues_eq]
    refine List.filterMap_congr fun d hd => ?_
    rw [List.mem_filter, bne_iff_ne] at hd
    exact sibling?_congr hone hd.1 hd.2 hrows hsame

/-- A registry of modules for the land and for its peoples. -/
def landAndPeoples : Registry where
  modules := [
    { key := "land", label := "Land", order := 1
      fields := [{ key := "terrain", label := "Terrain" }] },
    { key := "peoples", label := "Peoples", order := 2
      fields := [{ key := "customs", label := "Customs" }] }]
  ne_nil := by decide
  sound := by decide +kernel

/-- A row with the value of one field. -/
def rowOf (module field value : String) : WorldModule :=
  { WorldModule.new (.mint 0) (.mint 0) module default with
    fields := Dictionary.empty.insert field value }

/-- What a context of the land is built from, its own row among the others. -/
def landInput : ContextInput where
  world := World.new (.mint 0) ⟨"owner"⟩ "Aster" default
  definition := landAndPeoples.modules.head landAndPeoples.ne_nil
  module := rowOf "land" "terrain" "islands"
  others := [rowOf "land" "terrain" "islands", rowOf "peoples" "customs" "kites"]

/-- A context is the same without the target's row and with one that no module of the registry
has. -/
theorem canonical_others_land :
    OneRowEach landAndPeoples landInput.module.key landInput.others ∧
      ∀ b : Builder, b.context
        { landInput with
          others := [rowOf "peoples" "customs" "kites", rowOf "tides" "moons" "two"] }
        landAndPeoples = b.context landInput landAndPeoples := by
  have hone : OneRowEach landAndPeoples landInput.module.key landInput.others :=
    oneRowEach_of_nodup _ _ (by decide)
  refine ⟨hone, (canonical_others hone).same _ (oneRowEach_of_nodup _ _ (by decide)) ?_⟩
  intro m hm
  have hland : m ≠ rowOf "land" "terrain" "islands" := by
    rintro rfl
    exact hm (.target rfl)
  have htides : m ≠ rowOf "tides" "moons" "two" := by
    rintro rfl
    exact hm (.foreign (by decide))
  simp [landInput, hland, htides]

end Context

end Lorebook
