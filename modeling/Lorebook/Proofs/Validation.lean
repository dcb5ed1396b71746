import Lorebook.Proofs.Activation
import Lorebook.Proofs.Results
import Lorebook.Proofs.Retrying

set_option autoImplicit false

/-! # Editing status and validation agree

The status of a module that is edited looks at all its stored values, while publishing looks at the
required fields only. Both come to the same verdict: publishing refuses the fields of a world where
the status of some module is in progress, or empty although a field is required, and nowhere else.
The refusal then names every required field that does not pass, once, in the order of the registry
and of the fields (`Engine.publish_validates`). -/

namespace Lorebook

open Studio Operation

/-! ## The verdict on one module -/

/-- Nothing is left of blank text. -/
theorem Text.trim_of_isBlank {s : String} (h : isBlank s = true) : trim s = "" := by
  have hstart : trimStartChars s.toList = [] :=
    List.dropWhile_eq_nil_iff.2 (List.all_eq_true.1 h)
  rw [trim, trimChars, hstart]
  rfl

theorem Dictionary.mem_values_of_find? {α : Type} {d : Dictionary α} {key : String} {value : α}
    (h : d.find? key = some value) : value ∈ d.values := by
  obtain ⟨before, after, hentries, _⟩ := List.lookup_eq_some_iff.1 h
  exact List.mem_map.2 ⟨(key, value), by rw [hentries]; simp, rfl⟩

/-- A required field without text is missing. -/
theorem FieldDefinition.violation?_of_blank {f : FieldDefinition} (hrequired : f.required = true)
    {value : Option String} (hblank : ∀ text ∈ value, Text.isBlank text = true) :
    f.violation? value = some .missing := by
  have hempty : Text.trim (value.getD "") = "" := by
    cases value with
    | none => rfl
    | some text => exact Text.trim_of_isBlank (hblank text rfl)
  simp [violation?, hrequired, hempty]

/-- A module has a required field that does not pass exactly where its status is in progress, or
empty although a field is required. -/
theorem ModuleStatus.derive_inProgress_or_empty_iff (d : ModuleDefinition) (fields : FieldMap) :
    (derive d fields = .inProgress ∨ derive d fields = .empty ∧ d.requiredFields ≠ []) ↔
      ∃ f ∈ d.requiredFields, ∃ v, f.violation? (fields.find? f.key) = some v := by
  unfold derive
  by_cases hblank : fields.values.all Text.isBlank = true
  · -- Nothing is filled in, so every required field is missing.
    have hmissing : ∀ f ∈ d.requiredFields, f.violation? (fields.find? f.key) = some .missing :=
      fun f hf => FieldDefinition.violation?_of_blank (List.mem_filter.1 hf).2 fun text htext =>
        List.all_eq_true.1 hblank text (Dictionary.mem_values_of_find? htext)
    simp only [if_pos hblank, reduceCtorEq, true_and, false_or]
    constructor
    · intro hsome
      obtain ⟨f, hf⟩ := List.exists_mem_of_ne_nil _ hsome
      exact ⟨f, hf, .missing, hmissing f hf⟩
    · rintro ⟨f, hf, _⟩
      exact List.ne_nil_of_mem hf
  · rw [if_neg hblank]
    by_cases hpass : d.requiredFields.all
        (fun f => (f.violation? (fields.find? f.key)).isNone) = true
    · simp only [if_pos hpass, reduceCtorEq, false_and, or_self, false_iff]
      rintro ⟨f, hf, v, hv⟩
      have hnone := List.all_eq_true.1 hpass f hf
      rw [hv] at hnone
      cases hnone
    · simp only [if_neg hpass, true_or, true_iff]
      obtain ⟨f, hf, hsome⟩ := List.all_eq_false.1 (Bool.eq_false_iff.2 hpass)
      rw [Option.isNone_iff_eq_none] at hsome
      exact ⟨f, hf, Option.ne_none_iff_exists'.1 hsome⟩

/-! ## The places of fields -/

namespace Registry

/-- The fields of modules, each by its module's key and its own: in the order of the modules, and in
each module in the order of its definition. -/
def places (ds : List ModuleDefinition) : List (String × String) :=
  ds.flatMap fun d => d.fields.map fun f => (d.key, f.key)

/-- No two fields of a registry have the same place. -/
theorem nodup_places (r : Registry) : (places r.modules).Nodup := by
  refine List.nodup_flatMap.2 ⟨fun d hd => ?_, ?_⟩
  · have hkeys := (r.soundModules.fields d hd).distinct
    refine (List.pairwise_map.1 hkeys).map _ fun f g hne heq => hne ?_
    exact congrArg Prod.snd heq
  · -- The places of different modules differ in the key of the module.
    refine (List.pairwise_map.1 r.nodup_keys).imp fun {d c} hne => ?_
    refine List.disjoint_left.2 fun place hd hc => hne ?_
    obtain ⟨f, _, rfl⟩ := List.mem_map.1 hd
    obtain ⟨g, _, heq⟩ := List.mem_map.1 hc
    exact (congrArg Prod.fst heq).symm

/-- The violations of a registry's fields, given the field values of each module: every required
field that does not pass, once and in order. -/
structure Violations (r : Registry) (fields : String → FieldMap)
    (vs : List (String × String × FieldViolation)) : Prop where
  mem_iff : ∀ key field v, (key, field, v) ∈ vs ↔ ∃ d ∈ r.modules, d.key = key ∧
    ∃ f ∈ d.requiredFields, f.key = field ∧ f.violation? ((fields key).find? field) = some v
  once : (vs.map fun v => (v.1, v.2.1)).Nodup
  ordered : (vs.map fun v => (v.1, v.2.1)).Sublist (places r.modules)

end Registry

namespace Engine

/-- What stands in the way of one module's publication stands in the order of its fields. -/
theorem places_violationsOf (d : ModuleDefinition) (m : WorldModule) :
    ((violationsOf d m).map fun v => (v.1, v.2.1)).Sublist
      (d.fields.map fun f => (d.key, f.key)) := by
  unfold violationsOf ModuleDefinition.requiredFields
  induction d.fields with
  | nil => exact .slnil
  | cons f fs ih =>
    rw [List.filter_cons]
    split
    · rw [List.filterMap_cons]
      cases f.violation? (m.field? f.key) with
      | none => exact ih.cons _
      | some v => exact ih.cons_cons _
    · exact ih.cons _

/-- What stands in the way of publication stands in the order of the modules and of their fields. -/
theorem places_violations {world : WorldId} {ds : List ModuleDefinition} {s : Studio}
    {found : List WorldModule × List (String × String × FieldViolation)} {s' : Studio}
    (h : Yields (currentModules world ds) s found s') :
    (found.2.map fun v => (v.1, v.2.1)).Sublist (Registry.places ds) := by
  induction ds generalizing s found with
  | nil =>
    simp only [currentModules, yields_pure] at h
    simp [h.1]
  | cons d rest ih =>
    simp only [currentModules, yields_bind, yields_pure] at h
    obtain ⟨m, t, _, ⟨ms, vs⟩, _, hrest, rfl, rfl⟩ := h
    rw [List.map_append, Registry.places, List.flatMap_cons]
    exact (places_violationsOf d m).append (ih hrest)

/-- What gathering the modules of a registry finds in the way of publication are the violations of
its fields. -/
theorem violations_currentModules {r : Registry} {world : WorldId} {s : Studio}
    {found : List WorldModule × List (String × String × FieldViolation)} {s' : Studio}
    (h : Yields (currentModules world r.modules) s found s') :
    r.Violations (s.db.fieldMap world) found.2 where
  mem_iff key field v := by
    rw [mem_violations h]
    refine exists_congr fun d => and_congr_right fun hd => and_congr_right fun hkey => ?_
    obtain ⟨m, _, hm⟩ := (current_of_currentModules h).exists_module hd
    rw [← hkey, hm.fieldValue?_eq_find?]
  once := r.nodup_places.sublist (places_violations h)
  ordered := places_violations h

end Engine

/-! ## Operations that accept their input -/

/-- The operation never fails because the input of its caller is not acceptable. -/
def Operation.NeverInvalid {α : Type} (op : Operation α) : Prop :=
  ∀ ⦃s fault s'⦄, ¬ Fails op s (.validation fault) s'

namespace Operation.NeverInvalid

variable {α β : Type}

theorem pure (a : α) : NeverInvalid (pure a : Operation α) :=
  fun s _ s' => fails_pure a s _ s'

theorem throw {cause : EngineError} (h : ∀ fault, cause ≠ .validation fault) :
    NeverInvalid (throw cause : Operation α) :=
  fun s fault s' hfails => h fault ((fails_throw cause _ s s').1 hfails).1.symm

theorem bind {x : Operation α} {f : α → Operation β} (hx : NeverInvalid x)
    (hf : ∀ a, NeverInvalid (f a)) : NeverInvalid (x >>= f) := by
  intro s fault s' h
  rcases (fails_bind x f s _ s').1 h with h | ⟨a, _, _, h⟩
  · exact hx h
  · exact hf a h

theorem ite {c : Prop} [Decidable c] {x y : Operation α} (hx : NeverInvalid x)
    (hy : NeverInvalid y) : NeverInvalid (if c then x else y) := by
  by_cases h : c
  · rwa [if_pos h]
  · rwa [if_neg h]

theorem modifyGet (f : Studio → α × Studio) : NeverInvalid (modifyGet f : Operation α) :=
  fun s _ s' => fails_modifyGet f s _ s'

/-- What the store refuses is not the input of a caller. -/
theorem store (st : Statement α) : NeverInvalid (store st) := by
  intro s fault s' h
  obtain ⟨cause, _, _, heq, _⟩ := (fails_store st s _ s').1 h
  cases cause <;> cases heq

end Operation.NeverInvalid

namespace Engine

theorem neverInvalid_ownedWorld (id : WorldId) (owner : OwnerId) :
    NeverInvalid (ownedWorld id owner) :=
  .bind (.store _) fun _ =>
    .bind (.ite (.pure _) (.throw fun _ => nofun)) fun _ => .pure _

theorem neverInvalid_moduleOrNew (world : WorldId) (d : ModuleDefinition) :
    NeverInvalid (moduleOrNew world d) := by
  refine .bind (.store _) fun found => ?_
  cases found with
  | some m => exact .pure m
  | none => exact .bind (.modifyGet _) fun _ => .bind (.modifyGet _) fun _ => .pure _

theorem neverInvalid_currentModules (world : WorldId) (ds : List ModuleDefinition) :
    NeverInvalid (currentModules world ds) := by
  induction ds with
  | nil => exact .pure _
  | cons d rest ih =>
    exact .bind (neverInvalid_moduleOrNew world d) fun _ => .bind ih fun _ => .pure _

theorem neverInvalid_splitModules (owner : OwnerId) (now : Instant) (ms : List WorldModule) :
    NeverInvalid (splitModules owner now ms) := by
  induction ms with
  | nil => exact .pure _
  | cons m rest ih =>
    exact .ite (.bind ih fun _ => .pure _)
      (.bind (.store _) fun _ => .bind ih fun _ => .pure _)

theorem neverInvalid_newJobs (world : WorldId) (sequence : Nat) (keys : List String) :
    NeverInvalid (newJobs world sequence keys) := by
  induction keys generalizing sequence with
  | nil => exact .pure _
  | cons key rest ih =>
    exact .bind (.modifyGet _) fun _ => .bind (.modifyGet _) fun _ =>
      .bind (ih _) fun _ => .pure _

theorem neverInvalid_rebuildJobs (world : WorldId) (keys : List String) :
    NeverInvalid (rebuildJobs world keys) := by
  refine .bind (.store _) fun running => ?_
  cases running with
  | some job => exact .throw fun _ => nofun
  | none =>
    exact .bind (neverInvalid_newJobs world 1 keys) fun _ => .bind (.store _) fun _ => .pure _

/-! ## Publishing -/

/-- What a publication is refused for is what stands in the way of it. -/
theorem violations_of_publish {e : Engine} {id : WorldId} {owner : OwnerId} {s : Studio}
    {fault : InputFault} {s' : Studio} (h : Fails (e.publish id owner) s (.validation fault) s') :
    ∃ vs, e.registry.Violations (s.db.fieldMap id) vs ∧ vs ≠ [] ∧ fault = .violations vs := by
  obtain ⟨_, h, _⟩ := (fails_atomically _ s _ s').1 h
  -- The owner is looked up and the modules are gathered before anything is refused.
  rcases (fails_bind _ _ _ _ _).1 h with h | ⟨w, t, howned, h⟩
  · exact (neverInvalid_ownedWorld id owner h).elim
  rcases (fails_bind _ _ _ _ _).1 h with h | ⟨⟨ms, vs⟩, u, hfound, h⟩
  · exact (neverInvalid_currentModules id _ h).elim
  have hvs : e.registry.Violations (s.db.fieldMap id) vs := by
    rw [← ((sameDb_ownedWorld id owner).of_yields howned).1]
    exact violations_currentModules hfound
  rcases (fails_bind _ _ _ _ _).1 h with h | ⟨_, v, _, h⟩
  · simp only [ensurePublishable, fails_ite, fails_pure, fails_throw, and_false, false_or] at h
    obtain ⟨hsome, hcause, _⟩ := h
    exact ⟨vs, hvs, fun hnil => hsome (List.isEmpty_iff.2 hnil),
      EngineError.validation.inj hcause⟩
  -- What comes after never refuses the input.
  · refine (NeverInvalid.bind (.modifyGet _) (fun now =>
      .bind (neverInvalid_splitModules owner now ms) fun split => ?_) h).elim
    exact .ite (.bind (.store _) fun _ => .bind (.modifyGet _) fun _ => .pure _)
      (.bind (.store _) fun _ => .bind (neverInvalid_rebuildJobs id _) fun _ =>
        .bind (.modifyGet _) fun _ => .pure _)

/-- A publication by the owner is refused where a required field does not pass. -/
theorem fails_publish_of_violation {e : Engine} {id : WorldId} {owner : OwnerId} {s : Studio}
    (hcomplete : s.db.dropped = []) (howned : OwnsWorld s.db id owner)
    (hrows : ∀ d ∈ e.registry.modules, (∃ m, s.db.StoredModule id d.key m) ∨
      ∀ r ∈ s.db.modules, Modules.isOf id d.key r = false)
    {d : ModuleDefinition} (hd : d ∈ e.registry.modules) {f : FieldDefinition}
    (hf : f ∈ d.requiredFields) {v : FieldViolation}
    (hv : f.violation? ((s.db.fieldMap id d.key).find? f.key) = some v) :
    ∃ vs s', Fails (e.publish id owner) s (.validation (.violations vs)) s' := by
  obtain ⟨w, hlive, rfl⟩ := howned
  obtain ⟨⟨ms, vs⟩, t, hfound, _⟩ :=
    yields_currentModules id e.registry.modules hcomplete hrows
  have hmem : (d.key, f.key, v) ∈ vs :=
    ((violations_currentModules hfound).mem_iff _ _ _).2 ⟨d, hd, rfl, f, hf, rfl, hv⟩
  have hsome : ¬ vs.isEmpty = true := fun hnil =>
    List.ne_nil_of_mem hmem (List.isEmpty_iff.1 hnil)
  have hrefused : Fails (ensurePublishable vs) t (.validation (.violations vs)) t := by
    rw [ensurePublishable, if_neg hsome]
    exact Fails.throw _ t
  exact ⟨vs, _, ((yields_ownedWorld hcomplete hlive).bind_fails
    (hfound.bind_fails hrefused.bind)).atomically⟩

/-- Publishing a world refuses its fields as the editing statuses of its modules say, and names
every required field that does not pass. -/
structure ValidatesByStatus (e : Engine) (id : WorldId) (owner : OwnerId) (s : Studio) : Prop where
  refuses : (∃ fault s', Fails (e.publish id owner) s (.validation fault) s') ↔
    ∃ d ∈ e.registry.modules, ModuleStatus.derive d (s.db.fieldMap id d.key) = .inProgress ∨
      ModuleStatus.derive d (s.db.fieldMap id d.key) = .empty ∧ d.requiredFields ≠ []
  names : ∀ fault s', Fails (e.publish id owner) s (.validation fault) s' →
    ∃ vs, e.registry.Violations (s.db.fieldMap id) vs ∧ (EngineError.validation fault).message =
      "validation failed: " ++ String.intercalate "; "
        (vs.map fun (key, field, v) => key ++ "." ++ field ++ " " ++ v.message)

/-- Publishing agrees with the editing status, for every live world that its owner publishes, while
what is stored of its modules can be read. -/
theorem publish_validates (e : Engine) {id : WorldId} {owner : OwnerId} {s : Studio}
    (hcomplete : s.db.dropped = []) (howned : OwnsWorld s.db id owner)
    (hrows : ∀ d ∈ e.registry.modules, (∃ m, s.db.StoredModule id d.key m) ∨
      ∀ r ∈ s.db.modules, Modules.isOf id d.key r = false) :
    e.ValidatesByStatus id owner s where
  refuses := by
    simp only [ModuleStatus.derive_inProgress_or_empty_iff]
    constructor
    · rintro ⟨fault, s', h⟩
      obtain ⟨vs, hvs, hsome, _⟩ := violations_of_publish h
      obtain ⟨⟨key, field, v⟩, hmem⟩ := List.exists_mem_of_ne_nil _ hsome
      obtain ⟨d, hd, rfl, f, hf, rfl, hv⟩ := (hvs.mem_iff key field v).1 hmem
      exact ⟨d, hd, f, hf, v, hv⟩
    · rintro ⟨d, hd, f, hf, v, hv⟩
      obtain ⟨vs, s', h⟩ := fails_publish_of_violation hcomplete howned hrows hd hf hv
      exact ⟨_, s', h⟩
  names fault s' h := by
    obtain ⟨vs, hvs, _, rfl⟩ := violations_of_publish h
    exact ⟨vs, hvs, rfl⟩

theorem ownsWorld_iff {db : Database} {id : WorldId} {owner : OwnerId} :
    OwnsWorld db id owner ↔
      ∃ r ∈ db.worlds.find? (Worlds.isLive id), r.decode.map (·.owner) = .ok owner := by
  simp only [map_eq_ok_iff]
  constructor
  · rintro ⟨w, ⟨r, hr, hw⟩, howner⟩
    exact ⟨r, hr, w, hw, howner⟩
  · rintro ⟨r, hr, w, hw, howner⟩
    exact ⟨w, ⟨r, hr, hw⟩, howner⟩

instance (db : Database) (id : WorldId) (owner : OwnerId) : Decidable (OwnsWorld db id owner) :=
  decidable_of_iff' _ ownsWorld_iff

/-- Publishing a world of which a required field holds nothing but a blank. -/
theorem publish_validates_blank :
    let s := (System.run .strict [.createFirst, .writeFirst " "]).studio
    (∃ d ∈ Engine.strict.registry.modules,
      ModuleStatus.derive d (s.db.fieldMap (.mint 0) d.key) = .empty ∧ d.requiredFields ≠ []) ∧
    Engine.strict.ValidatesByStatus (.mint 0) ⟨"owner"⟩ s :=
  ⟨by decide +kernel, publish_validates .strict (by decide +kernel) (by decide +kernel)
    fun _ _ => Modules.stored_or_absent (by decide +kernel) _ _⟩

end Engine

end Lorebook
