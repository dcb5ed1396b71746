import Lorebook.Proofs.PathProjection
import Lorebook.Proofs.SiblingContexts
import Lorebook.Proofs.TemplatePrinting

set_option autoImplicit false

/-! # What is filled in

A context tells in several places which fields of a module are filled in: by the lines of their
entries, by the fields that a draft has still to fill in, by the lines of the module where it is
shown among the others, and by what a template makes of the lines. All of these agree
(`Context.agree_on_filled`). -/

namespace Lorebook

open Expression (ArgText Balanced Blank Body IsName IsPlain)

/-! ## Projections that are joined -/

theorem Expression.ArgText.balanced {raw : List Char} {arg : String} (h : ArgText raw arg)
    {kind : Char → Prop} (hspace : ∀ c, Text.isSpace c → kind c) : Balanced kind false raw := by
  obtain ⟨quoted, hquoted, before, after, hbefore, hafter, rfl⟩ := h
  have hpad : ∀ cs : List Char, (∀ c ∈ cs, Text.isSpace c) → Balanced kind false cs := by
    intro cs hcs
    refine .of_forall (fun c hc => hspace c (hcs c hc)) fun hquote => ?_
    exact absurd (hcs _ hquote) (by decide)
  rw [List.append_assoc]
  exact (hpad before hbefore).append (.opening (.of_quoted hquoted (hpad after hafter)))

/-- Every text can be written as an argument. -/
theorem PipeCall.argText_printArg (arg : String) : ArgText (printArg arg) arg :=
  ⟨_, quoted_escape arg.toList, Text.padded_refl _⟩

namespace Template

/-- An expression that joins what a path leads to, the separator as it is written. -/
def joining (path : List PathStep) (arg : String) : String :=
  "$\x7b" ++ Expression.dottedPath ⟨path, [], ""⟩ ++ "|join(" ++ arg ++ ")\x7d"

section Joining

variable {path : List PathStep} {arg sep : String}

theorem denotes_joining (hpath : Expression.WellFormed ⟨path, [], ""⟩)
    (harg : ArgText arg.toList sep) : ∃ content source,
      (joining path arg).toList = '$' :: '\x7b' :: (content ++ ['\x7d']) ∧ Body content ∧
        Denotes Blank content ⟨path, [⟨"join", [sep]⟩], source⟩ := by
  let pipe := "join(".toList ++ arg.toList ++ [')']
  have hpipe : Balanced IsPlain false pipe := by
    have hspace : ∀ c, Text.isSpace c → IsPlain c := by
      intro c hc
      refine ⟨?_, ?_, ?_⟩ <;> rintro rfl <;> exact absurd hc (by decide)
    refine .append (.append (.of_forall ?_ ?_) (harg.balanced hspace)) (.of_forall ?_ ?_)
    all_goals simp [IsPlain]
  have htext : Expression.PipeText Blank pipe ⟨"join", [sep]⟩ := by
    have hname : IsName Expression.isFunctionChar "join".toList := by decide +kernel
    refine ⟨hname, pipe, Text.padded_refl _, .inr ⟨[], arg.toList, ?_, ?_⟩⟩
    · simp [Blank]
    · exact ⟨.inr ⟨by simp, [arg.toList], by simp, .cons harg .nil⟩, by simp [pipe]⟩
  have hpieces : ∀ p ∈ [Expression.dottedPath ⟨path, [], ""⟩ |>.toList, pipe],
      Balanced IsPlain false p := by
    simp [hpath.balanced_path, hpipe]
  refine ⟨['|'].intercalate [_, pipe], _, ?_, ?_, ⟨_, [pipe], rfl, ?_, hpath.pathText, ?_⟩, rfl⟩
  · simp [joining, pipe]
  · refine .intercalate (by decide) (by decide) fun p hp => ?_
    exact (hpieces p hp).mono fun c hc => hc.2
  · exact fun p hp => (hpieces p hp).mono fun c hc => hc.1
  · exact .cons htext .nil

/-- What a path leads to is joined by the separator. -/
theorem renderText_joining (hpath : Expression.WellFormed ⟨path, [], ""⟩)
    (harg : ArgText arg.toList sep) (context : Json) :
    renderText .builtin (joining path arg) context =
      .ok (displayText (FunctionSet.join sep (resolvePath path context))) := by
  obtain ⟨content, source, hsource, hbody, hdenotes⟩ := denotes_joining hpath harg
  have hparse : parse (joining path arg) =
      .ok ⟨[.expr ⟨path, [⟨"join", [sep]⟩], source⟩]⟩ := by
    have hreads : Reads Blank (joining path arg).toList
        [.expr content ⟨path, [⟨"join", [sep]⟩], source⟩] [] := by
      rw [hsource]
      exact .expr hbody hdenotes (.stop [])
    exact parse_of_reads hreads
  have hfind : FunctionSet.builtin.find? "join" =
      some (FunctionSet.unary "join" FunctionSet.join) := rfl
  have hcompile : compile .builtin (joining path arg) =
      .ok ⟨[.expr ⟨path, [⟨"join", [sep]⟩], source⟩]⟩ := by
    rw [compile, hparse]
    rfl
  have hrender : Segment.render .builtin context (.expr ⟨path, [⟨"join", [sep]⟩], source⟩) =
      .ok (displayText (FunctionSet.join sep (resolvePath path context))) := by
    simp [Segment.render, Expression.evaluate, FunctionSet.call, hfind, FunctionSet.unary,
      Except.map, Except.mapError, bind, Except.bind, pure, Except.pure]
  rw [renderText, hcompile]
  simp [render, hrender, Except.map, bind, Except.bind, pure, Except.pure]

end Joining

end Template

namespace Context

/-! ## Entries of fields -/

/-- The entry of a field. It has a line, which tells the label and the trimmed value, exactly if the
stored value is not blank. -/
structure EntryOf (m : WorldModule) (f : FieldDefinition) (entry : Json) : Prop where
  key : entry.get? "key" = some (.str f.key)
  line : ∀ v, entry.get? "line" = some v ↔ ∃ s, m.field? f.key = some s ∧
    Text.isBlank s = false ∧ v = .str (f.label ++ ": " ++ Text.trim s)

/-- The lines of the entries that have one, in order. -/
def linesOf (entries : List Json) : List String :=
  entries.filterMap fun entry => (entry.get? "line").bind Json.str?

section

variable (d : ModuleDefinition) (m : WorldModule) (f : FieldDefinition)

theorem get?_line_fieldValue : (fieldValue m f).get? "line" = (fieldLine? f m).map .str := by
  rw [fieldValue, Json.get?_object]
  cases fieldLine? f m <;> rfl

theorem get?_key_fieldValue : (fieldValue m f).get? "key" = some (.str f.key) := by
  rw [fieldValue, Json.get?_object]
  cases fieldLine? f m <;> rfl

theorem fieldLine?_eq_some_iff {f : FieldDefinition} {m : WorldModule} {line : String} :
    fieldLine? f m = some line ↔ ∃ s, m.field? f.key = some s ∧ Text.isBlank s = false ∧
      line = f.label ++ ": " ++ Text.trim s := by
  unfold fieldLine? filledValue?
  cases m.field? f.key with
  | none => simp
  | some s =>
    rw [Option.bind_some, Text.trimmed?]
    cases hblank : Text.isBlank s <;> simp [hblank, eq_comm (b := line)]

theorem entryOf_fieldValue : EntryOf m f (fieldValue m f) where
  key := get?_key_fieldValue m f
  line v := by
    rw [get?_line_fieldValue, Option.map_eq_some_iff]
    simp only [fieldLine?_eq_some_iff]
    constructor
    · rintro ⟨_, ⟨s, hs, hblank, rfl⟩, rfl⟩
      exact ⟨s, hs, hblank, rfl⟩
    · rintro ⟨s, hs, hblank, rfl⟩
      exact ⟨_, ⟨s, hs, hblank, rfl⟩, rfl⟩

theorem filterMap_get?_line : (d.fields.map (fieldValue m)).filterMap (·.get? "line") =
    (filledLines d m).map .str := by
  rw [List.filterMap_map, filledLines, List.map_filterMap]
  exact List.filterMap_congr fun f _ => get?_line_fieldValue m f

theorem linesOf_fieldValues : linesOf (d.fields.map (fieldValue m)) = filledLines d m := by
  rw [linesOf, ← List.filterMap_filterMap, filterMap_get?_line, List.filterMap_map]
  exact List.filterMap_some

end

/-! ## The agreement -/

/-- What the contexts of an input tell of what is filled in, `entries` being those of the fields of
its module. -/
structure Agreement (input : ContextInput) (registry : Registry) (entries : List Json) : Prop where
  fields : ∀ b : Builder,
    Json.follow? ["module", "fields"] (b.context input registry) = some (.arr entries)
  each : List.Forall₂ (EntryOf input.module) input.definition.fields entries
  /-- A draft has still to fill in the fields whose entries have no line. -/
  missing : (Context.draft input registry).get? "missing" =
    some (.arr (((input.definition.fields.zip entries).filter fun p =>
      (p.2.get? "line").isNone).map fun p => missingValue p.1))
  /-- Where the module is shown among the others, it is shown with the lines, and it is shown unless
  it has neither a line nor content. -/
  sibling : ∀ (registry' : Registry) (other : ContextInput) (b : Builder),
    input.definition ∈ registry'.modules → input.definition.key ≠ other.module.key →
    (other.others.find? fun m => m.key == input.definition.key) = some input.module →
    ∃ values, (b.context other registry').get? "others" = some (.arr values) ∧
      (∀ v ∈ values, v.get? "key" = some (.str input.definition.key) →
        v.get? "lines" = some (.strings (linesOf entries))) ∧
      ((∃ v ∈ values, v.get? "key" = some (.str input.definition.key)) ↔
        linesOf entries ≠ [] ∨ Filled input.module.content)
  /-- A template can join the lines by any separator. -/
  rendered : ∀ (b : Builder) (sep arg : String), ArgText arg.toList sep →
    Template.renderText .builtin ("$\x7bmodule.fields[*].line|join(" ++ arg ++ ")\x7d")
      (b.context input registry) = .ok (String.intercalate sep (linesOf entries))
  written : ∀ sep, ∃ arg : String, ArgText arg.toList sep

/-- What is shown under the key of a module is what its row tells. -/
theorem mem_othersValues_iff {input : ContextInput} {registry : Registry} {d : ModuleDefinition}
    {m : WorldModule} (hd : d ∈ registry.modules) (htarget : d.key ≠ input.module.key)
    (hfind : (input.others.find? fun m => m.key == d.key) = some m) {v : Json} :
    v ∈ othersValues input registry ∧ v.get? "key" = some (.str d.key) ↔
      siblingValue? d m = some v := by
  have hsibling : sibling? input.others d = siblingValue? d m := by
    rw [sibling?, hfind, Option.bind_some]
  rw [othersValues_eq, List.mem_filterMap]
  constructor
  · rintro ⟨⟨d', hd', hv⟩, hkey⟩
    obtain ⟨m', -, hv'⟩ := Option.bind_eq_some_iff.1 hv
    have hkeys : d'.key = d.key := by
      simpa [get?_key_siblingValue hv'] using hkey
    obtain rfl : d' = d := Registry.eq_of_key (List.mem_filter.1 hd').1 hd hkeys
    rw [← hsibling, hv]
  · intro hv
    refine ⟨⟨d, ?_, hsibling.trans hv⟩, get?_key_siblingValue hv⟩
    simpa [List.mem_filter] using ⟨hd, htarget⟩

theorem get?_missing (input : ContextInput) (registry : Registry) :
    (Context.draft input registry).get? "missing" =
      some (.arr ((missingFields input).map missingValue)) :=
  Json.get?_object _ _

/-- The fields that are not filled in are those whose entries have no line. -/
theorem missingFields_eq (d : ModuleDefinition) (m : WorldModule) :
    (d.fields.filter fun f => (filledValue? f m).isNone) =
      ((d.fields.zip (d.fields.map (fieldValue m))).filter fun p =>
        (p.2.get? "line").isNone).map (·.1) := by
  rw [← List.map_prod_left_eq_zip, List.filter_map, List.map_map]
  simp [Function.comp_def, get?_line_fieldValue, fieldLine?]

theorem get?_fields_moduleValue (d : ModuleDefinition) (m : WorldModule) :
    (moduleValue d m).get? "fields" = some (.arr (d.fields.map (fieldValue m))) :=
  Json.get?_object _ _

/-- The path of the lines leads to the lines of the fields that are filled in. -/
theorem resolvePath_lines {context : Json} {d : ModuleDefinition} {m : WorldModule}
    (h : context.get? "module" = some (moduleValue d m)) :
    resolvePath [.key "module", .wildcard "fields", .key "line"] context =
      some (.strings (filledLines d m)) := by
  have hline : ∀ entry : Json, projected ([PathStep.key "line"].any (·.isWildcard))
      (resolvePath [.key "line"] entry) = (entry.get? "line").toList := by
    intro entry
    rw [projected_resolvePath, Json.findings]
    cases entry.get? "line" <;> rfl
  rw [resolvePath, h, Option.bind_some, resolvePath_wildcard, get?_fields_moduleValue,
    Option.bind_some]
  simp only [Json.items?, Option.map_some, hline, Json.strings, ← filterMap_get?_line]
  rw [List.filterMap_eq_flatMap_toList]

theorem wellFormed_lines : Expression.WellFormed
    ⟨[.key "module", .wildcard "fields", .key "line"], [], ""⟩ := by
  refine ⟨by decide, fun step hstep => ?_, by simp⟩
  simp only [List.mem_cons, List.not_mem_nil, or_false] at hstep
  rcases hstep with rfl | rfl | rfl
  · exact (by decide +kernel : IsName Expression.isPathChar "module".toList)
  · exact (by decide +kernel : IsName Expression.isPathChar "fields".toList)
  · exact (by decide +kernel : IsName Expression.isPathChar "line".toList)

/-- Texts are joined as they are. -/
theorem displayText_join (sep : String) (lines : List String) :
    displayText (FunctionSet.join sep (some (.strings lines))) = String.intercalate sep lines := by
  have hshown : (lines.map Json.str).filter (!·.isNull) = lines.map .str := by
    simp [List.filter_map, Function.comp_def, Json.isNull]
  simp only [FunctionSet.join, Json.strings, hshown, List.map_map, displayText]
  simp [Function.comp_def]

/-- The contexts agree on which fields of a module are filled in. -/
theorem agree_on_filled (input : ContextInput) (registry : Registry) :
    ∃ entries, Agreement input registry entries := by
  refine ⟨input.definition.fields.map (fieldValue input.module), ?_⟩
  constructor
  case fields =>
    intro b
    rw [Json.follow?, b.get?_module, Option.bind_some, Json.follow?, get?_fields_moduleValue]
    rfl
  case each =>
    rw [List.forall₂_map_right_iff, List.forall₂_same]
    exact fun f _ => entryOf_fieldValue input.module f
  case missing =>
    rw [get?_missing, missingFields, missingFields_eq, List.map_map]
    rfl
  case sibling =>
    rw [linesOf_fieldValues]
    intro registry' other b hd htarget hfind
    refine ⟨_, b.get?_others other registry', fun v hv hkey => ?_, ?_⟩
    · obtain ⟨-, rfl⟩ := siblingValue?_eq_some_iff.1
        ((mem_othersValues_iff hd htarget hfind).1 ⟨hv, hkey⟩)
      exact Json.get?_object _ _
    · simp only [mem_othersValues_iff hd htarget hfind, siblingValue?_eq_some_iff, Tells,
        ne_eq, filledLines_eq_nil_iff, not_not, exists_and_left, exists_eq, and_true]
      exact or_comm
  case rendered =>
    rw [linesOf_fieldValues]
    intro b sep arg harg
    refine (Template.renderText_joining wellFormed_lines harg _).trans ?_
    rw [resolvePath_lines (b.get?_module input registry), displayText_join]
  case written =>
    intro sep
    refine ⟨String.ofList (PipeCall.printArg sep), ?_⟩
    rw [String.toList_ofList]
    exact PipeCall.argText_printArg sep

end Context

end Lorebook
