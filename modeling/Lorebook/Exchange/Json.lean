import Lorebook.Job
import Lorebook.Json.Decode
import Lorebook.Module.Basic
import Lorebook.Prompt.Catalog
import Lorebook.Time.Rfc3339
import Lorebook.World

set_option autoImplicit false

/-! # The JSON form of worlds, modules and jobs

Every record is an object with its members under fixed names; instants are timestamps in the
exchange form, and statuses are their words. -/

namespace Lorebook

open Json (Decoder)

/-! ## Instants and definitions -/

/-- An instant as a timestamp. -/
def Instant.toJson (t : Instant) : Json :=
  .str (Rfc3339.exchange t)

/-- The timestamp of an instant that may be absent. -/
def Instant.optionToJson : Option Instant → Json
  | none => .null
  | some t => t.toJson

/-- The instant of a timestamp. -/
def Instant.decode : Decoder Instant
  | .str s => Rfc3339.parseLenient? s
  | _ => none

/-- The members of a field definition. -/
def FieldDefinition.toJson (f : FieldDefinition) : Json :=
  Json.object [
    ("key", .str f.key),
    ("label", .str f.label),
    ("required", .bool f.required),
    ("min_length", .optionNat f.minLength),
    ("max_length", .optionNat f.maxLength),
    ("focus", .optionStr f.focus)]

/-- The field definition of a record. -/
def FieldDefinition.decode : Decoder FieldDefinition := fun v => do
  match ← v.members? ["key", "label", "required", "min_length", "max_length", "focus"] with
  | [key, label, required, minLength, maxLength, focus] =>
    return {
      key := ← key.required Json.decodeText
      label := ← label.required Json.decodeText
      required := ← required.withDefault false Json.decodeBool
      minLength := ← minLength.withDefault none (Json.decodeOption (Json.decodeNat 64))
      maxLength := ← maxLength.withDefault none (Json.decodeOption (Json.decodeNat 64))
      focus := ← focus.withDefault none (Json.decodeOption Json.decodeText) }
  | _ => none

/-- The text of a violation, and its kind with the lengths it is about. -/
def FieldViolation.toJson (violation : FieldViolation) : Json :=
  Json.object [
    ("text", .str violation.message),
    ("kind", match violation with
      | .missing => .str "Missing"
      | .tooLong max actual => Json.object [("max", .nat max), ("actual", .nat actual)])]

/-- The members of a module definition. -/
def ModuleDefinition.toJson (d : ModuleDefinition) : Json :=
  Json.object [
    ("key", .str d.key),
    ("label", .str d.label),
    ("order", .nat d.order),
    ("description", .optionStr d.description),
    ("fields", .arr (d.fields.map (·.toJson)))]

/-- The module definition of a record. -/
def ModuleDefinition.decode : Decoder ModuleDefinition := fun v => do
  match ← v.members? ["key", "label", "order", "description", "fields"] with
  | [key, label, order, description, fields] =>
    return {
      key := ← key.required Json.decodeText
      label := ← label.required Json.decodeText
      order := ← order.required (Json.decodeNat 32)
      description := ← description.withDefault none (Json.decodeOption Json.decodeText)
      fields := ← fields.required (Json.decodeList FieldDefinition.decode) }
  | _ => none

/-! ## Prompt sources -/

/-- The overrides of a record. -/
def StageOverrides.decode : Decoder StageOverrides := fun v => do
  match ← v.members? ["draft", "final", "refine"] with
  | [draft, final, refine] =>
    let optional := Json.Member.withDefault none (Json.decodeOption Json.decodeText)
    return { draft := ← optional draft, final := ← optional final, refine := ← optional refine }
  | _ => none

/-- The prompt source of a record. -/
def PromptSource.decode : Decoder PromptSource := fun v => do
  match ← v.members? ["draft", "final", "refine", "modules"] with
  | [draft, final, refine, modules] =>
    return {
      draft := ← draft.required Json.decodeText
      final := ← final.required Json.decodeText
      refine := ← refine.required Json.decodeText
      modules := ← modules.withDefault Dictionary.empty (Json.decodeMap StageOverrides.decode) }
  | _ => none

/-! ## Worlds, modules and jobs -/

/-- The members of a world. -/
def World.toJson (w : World) : Json :=
  Json.object [
    ("id", .str w.id.text),
    ("owner_id", .str w.owner.text),
    ("name", .str w.name),
    ("tagline", .optionStr w.tagline),
    ("themes", .strings w.themes),
    ("status", .str w.status.text),
    ("version", .int w.version),
    ("published_at", Instant.optionToJson w.publishedAt),
    ("created_at", w.createdAt.toJson),
    ("updated_at", w.updatedAt.toJson),
    ("deleted_at", Instant.optionToJson w.deletedAt)]

/-- The world of a record. -/
def World.decode : Decoder World := fun v => do
  match ← v.members? ["id", "owner_id", "name", "tagline", "themes", "status", "version",
    "published_at", "created_at", "updated_at", "deleted_at"] with
  | [id, owner, name, tagline, themes, status, version, publishedAt, createdAt, updatedAt,
      deletedAt] =>
    return {
      id := ⟨← id.required Json.decodeText⟩
      owner := ⟨← owner.required Json.decodeText⟩
      name := ← name.required Json.decodeText
      tagline := ← tagline.optional Json.decodeText
      themes := ← themes.required (Json.decodeList Json.decodeText)
      status := ← status.required (Json.decodeWord WorldStatus.ofText?)
      version := ← version.required Json.decodeInt64
      publishedAt := ← publishedAt.optional Instant.decode
      createdAt := ← createdAt.required Instant.decode
      updatedAt := ← updatedAt.required Instant.decode
      deletedAt := ← deletedAt.optional Instant.decode }
  | _ => none

/-- The field values of a module as an object. -/
def FieldMap.toJson (fields : FieldMap) : Json :=
  .obj (fields.entries.map fun e => (e.1, .str e.2))

/-- The members of a module. -/
def WorldModule.toJson (m : WorldModule) : Json :=
  Json.object [
    ("id", .str m.id.text),
    ("world_id", .str m.world.text),
    ("module_key", .str m.key),
    ("fields", FieldMap.toJson m.fields),
    ("status", .str m.status.text),
    ("content_hash", .optionStr m.hash),
    ("full_content", .optionStr m.content),
    ("last_editor", .optionStr (m.lastEditor.map (·.text))),
    ("created_at", m.createdAt.toJson),
    ("updated_at", m.updatedAt.toJson)]

/-- The module of a record. -/
def WorldModule.decode : Decoder WorldModule := fun v => do
  match ← v.members? ["id", "world_id", "module_key", "fields", "status", "content_hash",
    "full_content", "last_editor", "created_at", "updated_at"] with
  | [id, world, key, fields, status, hash, content, lastEditor, createdAt, updatedAt] =>
    return {
      id := ⟨← id.required Json.decodeText⟩
      world := ⟨← world.required Json.decodeText⟩
      key := ← key.required Json.decodeText
      fields := ← fields.required (Json.decodeMap Json.decodeText)
      status := ← status.required (Json.decodeWord ModuleStatus.ofText?)
      hash := ← hash.optional Json.decodeText
      content := ← content.optional Json.decodeText
      lastEditor := (← lastEditor.optional Json.decodeText).map OwnerId.mk
      createdAt := ← createdAt.required Instant.decode
      updatedAt := ← updatedAt.required Instant.decode }
  | _ => none

/-- The members of a job. -/
def Job.toJson (j : Job) : Json :=
  Json.object [
    ("id", .str j.id.text),
    ("world_id", .str j.world.text),
    ("module_key", .str j.moduleKey),
    ("sequence", .nat j.sequence),
    ("job_type", .str j.type.text),
    ("status", .str j.status.text),
    ("attempts", .nat j.attempts),
    ("last_error", .optionStr j.lastError),
    ("started_at", Instant.optionToJson j.startedAt),
    ("finished_at", Instant.optionToJson j.finishedAt),
    ("created_at", j.createdAt.toJson),
    ("updated_at", j.updatedAt.toJson)]

/-- The job of a record. -/
def Job.decode : Decoder Job := fun v => do
  match ← v.members? ["id", "world_id", "module_key", "sequence", "job_type", "status",
    "attempts", "last_error", "started_at", "finished_at", "created_at", "updated_at"] with
  | [id, world, moduleKey, sequence, type, status, attempts, lastError, startedAt, finishedAt,
      createdAt, updatedAt] =>
    return {
      id := ⟨← id.required Json.decodeText⟩
      world := ⟨← world.required Json.decodeText⟩
      moduleKey := ← moduleKey.required Json.decodeText
      sequence := ← sequence.required (Json.decodeNat 32)
      type := ← type.required (Json.decodeWord JobType.ofText?)
      status := ← status.required (Json.decodeWord JobStatus.ofText?)
      attempts := ← attempts.required (Json.decodeNat 32)
      lastError := ← lastError.optional Json.decodeText
      startedAt := ← startedAt.optional Instant.decode
      finishedAt := ← finishedAt.optional Instant.decode
      createdAt := ← createdAt.required Instant.decode
      updatedAt := ← updatedAt.required Instant.decode }
  | _ => none

end Lorebook
