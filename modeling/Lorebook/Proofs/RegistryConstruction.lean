import Lorebook.Proofs.Results
import Lorebook.Registry
import Mathlib.Data.List.Nodup

set_option autoImplicit false

/-! # What a registry is built from

A list of definitions makes a registry exactly if it is not empty, no two modules share a key, no
two fields of a module do, and the bounds of every field leave room. The registry then has the
definitions in their order, those of equal order as they stood in the list, and looking up a key
finds the one definition or field that has it. Of several defects the one reported is the first in
the order of the registry (`Registry.construction`). -/

namespace Lorebook

/-! ## Items with keys -/

section Keyed

variable {α ε : Type} {key : α → String} {xs : List α}

/-- Where at most one item has a key, looking it up finds that item. -/
theorem find?_key_eq_some_iff {k : String}
    (hone : ∀ x ∈ xs, ∀ y ∈ xs, key x = k → key y = k → x = y) {x : α} :
    xs.find? (fun y => key y == k) = some x ↔ x ∈ xs ∧ key x = k := by
  constructor
  · intro h
    exact ⟨List.mem_of_find?_eq_some h, by simpa using List.find?_some h⟩
  · rintro ⟨hx, hkey⟩
    have hsome : (xs.find? fun y => key y == k).isSome = true :=
      List.find?_isSome.2 ⟨x, hx, by simpa using hkey⟩
    obtain ⟨y, hy⟩ := Option.isSome_iff_exists.1 hsome
    have hykey : key y = k := by simpa using List.find?_some hy
    rw [hy, hone x hx y (List.mem_of_find?_eq_some hy) hkey hykey]

theorem eq_of_nodup_keys (h : (xs.map key).Nodup) (k : String) :
    ∀ x ∈ xs, ∀ y ∈ xs, key x = k → key y = k → x = y := by
  intro x hx y hy hxk hyk
  exact List.inj_on_of_nodup_map h hx hy (hxk.trans hyk.symm)

variable (key) (duplicate : α → ε) (own : α → Option ε)

/-- The first defect of a walk over items, `seen` being the keys of those before: a key that is used
again, or else what the item has of its own. -/
def firstDefectAmong (seen : List String) : List α → Option ε
  | [] => none
  | x :: rest =>
    if key x ∈ seen then some (duplicate x)
    else match own x with
      | some e => some e
      | none => firstDefectAmong (key x :: seen) rest

/-- The items have keys of their own, which are none of those before, and no defects. -/
structure Flawless (seen : List String) (xs : List α) : Prop where
  distinct : (xs.map key).Nodup
  unseen : ∀ x ∈ xs, key x ∉ seen
  sound : ∀ x ∈ xs, own x = none

/-- The item after flawless ones has a defect. -/
inductive DefectAt (seen : List String) : List α → ε → Prop
  | duplicate {before : List α} {x : α} {after : List α} (hbefore : Flawless key own seen before)
      (hused : key x ∈ seen ∨ key x ∈ before.map key) :
      DefectAt seen (before ++ x :: after) (duplicate x)
  | own {before : List α} {x : α} {after : List α} {e : ε} (hbefore : Flawless key own seen before)
      (hunseen : key x ∉ seen) (hnew : key x ∉ before.map key) (h : own x = some e) :
      DefectAt seen (before ++ x :: after) e

variable {key duplicate own} {seen : List String} {x : α}

theorem flawless_nil : Flawless key own seen [] :=
  ⟨List.nodup_nil, by simp, by simp⟩

theorem flawless_cons_iff : Flawless key own seen (x :: xs) ↔
    key x ∉ seen ∧ own x = none ∧ Flawless key own (key x :: seen) xs := by
  constructor
  · rintro ⟨hdistinct, hunseen, hsound⟩
    rw [List.map_cons, List.nodup_cons] at hdistinct
    refine ⟨hunseen x (by simp), hsound x (by simp), hdistinct.2, fun y hy => ?_, ?_⟩
    · rw [List.mem_cons, not_or]
      refine ⟨fun heq => hdistinct.1 ?_, hunseen y (by simp [hy])⟩
      exact heq ▸ List.mem_map_of_mem hy
    · exact fun y hy => hsound y (by simp [hy])
  · rintro ⟨hnew, hown, hdistinct, hunseen, hsound⟩
    refine ⟨?_, ?_, ?_⟩
    · rw [List.map_cons, List.nodup_cons]
      refine ⟨fun hmem => ?_, hdistinct⟩
      obtain ⟨y, hy, heq⟩ := List.mem_map.1 hmem
      exact hunseen y hy (by simp [heq])
    · intro y hy
      rcases List.mem_cons.1 hy with rfl | hy
      · exact hnew
      · exact fun hmem => hunseen y hy (by simp [hmem])
    · intro y hy
      rcases List.mem_cons.1 hy with rfl | hy
      · exact hown
      · exact hsound y hy

/-- A walk without a defect is one over flawless items. -/
theorem firstDefectAmong_eq_none_iff :
    firstDefectAmong key duplicate own seen xs = none ↔ Flawless key own seen xs := by
  induction xs generalizing seen with
  | nil => simp [firstDefectAmong, flawless_nil]
  | cons x xs ih =>
    rw [flawless_cons_iff, ← ih, firstDefectAmong]
    by_cases hseen : key x ∈ seen
    · simp [hseen]
    · cases hown : own x <;> simp [hseen]

/-- After flawless items a walk goes on with their keys. -/
theorem firstDefectAmong_append {before : List α} (h : Flawless key own seen before) :
    firstDefectAmong key duplicate own seen (before ++ xs) =
      firstDefectAmong key duplicate own ((before.map key).reverse ++ seen) xs := by
  induction before generalizing seen with
  | nil => simp
  | cons x before ih =>
    obtain ⟨hnew, hown, hrest⟩ := flawless_cons_iff.1 h
    simp [firstDefectAmong, hnew, hown, ih hrest]

theorem DefectAt.cons (hnew : key x ∉ seen) (hown : own x = none) {e : ε}
    (h : DefectAt key duplicate own (key x :: seen) xs e) :
    DefectAt key duplicate own seen (x :: xs) e := by
  cases h with
  | @duplicate before y after hbefore hused =>
    have hbefore' : Flawless key own seen (x :: before) :=
      flawless_cons_iff.2 ⟨hnew, hown, hbefore⟩
    rw [← List.cons_append]
    refine .duplicate hbefore' ?_
    simpa [or_assoc, or_left_comm] using hused
  | @own before y after e hbefore hunseen hfresh hdefect =>
    rw [List.mem_cons, not_or] at hunseen
    have hbefore' : Flawless key own seen (x :: before) :=
      flawless_cons_iff.2 ⟨hnew, hown, hbefore⟩
    rw [← List.cons_append]
    refine .own hbefore' hunseen.2 ?_ hdefect
    rw [List.map_cons, List.mem_cons, not_or]
    exact ⟨hunseen.1, hfresh⟩

/-- A walk finds the defect of the item after flawless ones. -/
theorem firstDefectAmong_eq_some_iff {e : ε} :
    firstDefectAmong key duplicate own seen xs = some e ↔
      DefectAt key duplicate own seen xs e := by
  constructor
  · intro h
    induction xs generalizing seen with
    | nil => cases h
    | cons x xs ih =>
      rw [firstDefectAmong] at h
      split at h
      · rename_i hseen
        obtain rfl := Option.some.inj h
        rw [← List.nil_append (x :: xs)]
        exact .duplicate flawless_nil (.inl hseen)
      · rename_i hnew
        cases hown : own x with
        | some e' =>
          simp only [hown, Option.some.injEq] at h
          subst h
          rw [← List.nil_append (x :: xs)]
          exact .own flawless_nil hnew (by simp) hown
        | none =>
          simp only [hown] at h
          exact (ih h).cons hnew hown
  · intro h
    cases h with
    | duplicate hbefore hused =>
      rw [firstDefectAmong_append hbefore, firstDefectAmong, if_pos]
      simpa [or_comm] using hused
    | own hbefore hunseen hnew hown =>
      rw [firstDefectAmong_append hbefore, firstDefectAmong, if_neg, hown]
      simpa [hunseen] using hnew

end Keyed

namespace Registry

/-! ## Defects of fields -/

/-- Each field has a key of its own, and bounds that leave room. -/
structure SoundFields (fs : List FieldDefinition) : Prop where
  distinct : (fs.map (·.key)).Nodup
  bounds : ∀ f ∈ fs, ∀ min ∈ f.minLength, ∀ max ∈ f.maxLength, min ≤ max

/-- The first field that is not sound with those before it, and what is reported of it: that its key
is used again or, with a new key, that its bounds leave no room. -/
inductive FieldDefect (module : String) : List FieldDefinition → RegistryError → Prop
  | duplicate {before : List FieldDefinition} {f : FieldDefinition} {after : List FieldDefinition}
      (hbefore : SoundFields before) (hused : f.key ∈ before.map (·.key)) :
      FieldDefect module (before ++ f :: after) (.duplicateField module f.key)
  | bounds {before : List FieldDefinition} {f : FieldDefinition} {after : List FieldDefinition}
      (hbefore : SoundFields before) (hnew : f.key ∉ before.map (·.key)) {min max : Nat}
      (hmin : f.minLength = some min) (hmax : f.maxLength = some max) (hinverted : max < min) :
      FieldDefect module (before ++ f :: after) (.invalidBounds module f.key)

theorem hasInvertedBounds_iff {f : FieldDefinition} : f.hasInvertedBounds = true ↔
    ∃ min max, f.minLength = some min ∧ f.maxLength = some max ∧ max < min := by
  unfold FieldDefinition.hasInvertedBounds
  cases f.minLength <;> cases f.maxLength <;> simp

/-- What is wrong with a field by itself. -/
def boundsDefect? (module : String) (f : FieldDefinition) : Option RegistryError :=
  if f.hasInvertedBounds then some (.invalidBounds module f.key) else none

theorem boundsDefect?_eq_none_iff {module : String} {f : FieldDefinition} :
    boundsDefect? module f = none ↔ ∀ min ∈ f.minLength, ∀ max ∈ f.maxLength, min ≤ max := by
  unfold boundsDefect? FieldDefinition.hasInvertedBounds
  cases f.minLength <;> cases f.maxLength <;> simp

section Fields

variable {module : String} {seen : List String} {fs : List FieldDefinition}

theorem firstFieldDefect?_eq : firstFieldDefect? module seen fs =
    firstDefectAmong (·.key) (fun f => .duplicateField module f.key) (boundsDefect? module) seen
      fs := by
  induction fs generalizing seen with
  | nil => rfl
  | cons f fs ih =>
    rw [firstFieldDefect?, firstDefectAmong, boundsDefect?, ih]
    by_cases hbounds : f.hasInvertedBounds = true <;> simp [hbounds]

theorem flawless_fields_iff :
    Flawless (·.key) (boundsDefect? module) [] fs ↔ SoundFields fs := by
  constructor
  · intro h
    exact ⟨h.distinct, fun f hf => boundsDefect?_eq_none_iff.1 (h.sound f hf)⟩
  · intro h
    exact ⟨h.distinct, by simp, fun f hf => boundsDefect?_eq_none_iff.2 (h.bounds f hf)⟩

theorem firstFieldDefect?_eq_none_iff : firstFieldDefect? module [] fs = none ↔ SoundFields fs := by
  rw [firstFieldDefect?_eq, firstDefectAmong_eq_none_iff, flawless_fields_iff]

theorem firstFieldDefect?_eq_some_iff {e : RegistryError} :
    firstFieldDefect? module [] fs = some e ↔ FieldDefect module fs e := by
  rw [firstFieldDefect?_eq, firstDefectAmong_eq_some_iff]
  constructor
  · intro h
    cases h with
    | duplicate hbefore hused =>
      exact .duplicate (flawless_fields_iff.1 hbefore) (by simpa using hused)
    | @own before f after _ hbefore _ hnew h =>
      rw [boundsDefect?] at h
      split at h
      · rename_i hinverted
        obtain rfl := Option.some.inj h
        obtain ⟨min, max, hmin, hmax, hlt⟩ := hasInvertedBounds_iff.1 hinverted
        exact .bounds (flawless_fields_iff.1 hbefore) hnew hmin hmax hlt
      · cases h
  · intro h
    cases h with
    | duplicate hbefore hused => exact .duplicate (flawless_fields_iff.2 hbefore) (.inr hused)
    | bounds hbefore hnew hmin hmax hlt =>
      refine .own (flawless_fields_iff.2 hbefore) (by simp) hnew ?_
      rw [boundsDefect?, if_pos (hasInvertedBounds_iff.2 ⟨_, _, hmin, hmax, hlt⟩)]

end Fields

/-! ## Defects of modules -/

/-- Each module has a key of its own and sound fields. -/
structure SoundModules (ds : List ModuleDefinition) : Prop where
  distinct : (ds.map (·.key)).Nodup
  fields : ∀ d ∈ ds, SoundFields d.fields

/-- The first module that is not sound with those before it, and what is reported of it: that its
key is used again or, with a new key, the first defect of its fields. -/
inductive ModuleDefect : List ModuleDefinition → RegistryError → Prop
  | duplicate {before : List ModuleDefinition} {d : ModuleDefinition}
      {after : List ModuleDefinition} (hbefore : SoundModules before)
      (hused : d.key ∈ before.map (·.key)) :
      ModuleDefect (before ++ d :: after) (.duplicateModule d.key)
  | field {before : List ModuleDefinition} {d : ModuleDefinition} {after : List ModuleDefinition}
      {e : RegistryError} (hbefore : SoundModules before) (hnew : d.key ∉ before.map (·.key))
      (h : FieldDefect d.key d.fields e) : ModuleDefect (before ++ d :: after) e

section Modules

variable {seen : List String} {ds : List ModuleDefinition}

theorem firstDefect?_eq : firstDefect? seen ds =
    firstDefectAmong (·.key) (fun d => .duplicateModule d.key)
      (fun d => firstFieldDefect? d.key [] d.fields) seen ds := by
  induction ds generalizing seen with
  | nil => rfl
  | cons d ds ih =>
    rw [firstDefect?, firstDefectAmong, ih]
    cases firstFieldDefect? d.key [] d.fields <;> rfl

theorem flawless_modules_iff :
    Flawless (·.key) (fun d => firstFieldDefect? d.key [] d.fields) [] ds ↔ SoundModules ds := by
  constructor
  · intro h
    exact ⟨h.distinct, fun d hd => firstFieldDefect?_eq_none_iff.1 (h.sound d hd)⟩
  · intro h
    exact ⟨h.distinct, by simp, fun d hd => firstFieldDefect?_eq_none_iff.2 (h.fields d hd)⟩

theorem firstDefect?_eq_none_iff : firstDefect? [] ds = none ↔ SoundModules ds := by
  rw [firstDefect?_eq, firstDefectAmong_eq_none_iff, flawless_modules_iff]

theorem firstDefect?_eq_some_iff {e : RegistryError} :
    firstDefect? [] ds = some e ↔ ModuleDefect ds e := by
  rw [firstDefect?_eq, firstDefectAmong_eq_some_iff]
  constructor
  · intro h
    cases h with
    | duplicate hbefore hused =>
      exact .duplicate (flawless_modules_iff.1 hbefore) (by simpa using hused)
    | own hbefore _ hnew h =>
      exact .field (flawless_modules_iff.1 hbefore) hnew (firstFieldDefect?_eq_some_iff.1 h)
  · intro h
    cases h with
    | duplicate hbefore hused => exact .duplicate (flawless_modules_iff.2 hbefore) (.inr hused)
    | field hbefore hnew h =>
      exact .own (flawless_modules_iff.2 hbefore) (by simp) hnew
        (firstFieldDefect?_eq_some_iff.2 h)

theorem SoundModules.of_perm {ds' : List ModuleDefinition} (h : SoundModules ds)
    (hperm : ds'.Perm ds) : SoundModules ds' :=
  ⟨(hperm.map _).nodup_iff.2 h.distinct, fun d hd => h.fields d (hperm.mem_iff.1 hd)⟩

/-- The definitions of a registry are sound. -/
theorem soundModules (r : Registry) : SoundModules r.modules :=
  firstDefect?_eq_none_iff.1 r.sound

/-- A definition is the only one of its key. -/
theorem eq_of_key {r : Registry} {c d : ModuleDefinition} (hc : c ∈ r.modules)
    (hd : d ∈ r.modules) (h : c.key = d.key) : c = d :=
  List.inj_on_of_nodup_map r.soundModules.distinct hc hd h

end Modules

/-! ## The order -/

/-- The definitions of a list by ascending order, those of equal order as they stand in the list. -/
structure StablySorted (ds sorted : List ModuleDefinition) : Prop where
  perm : sorted.Perm ds
  ascending : sorted.Pairwise fun a b => a.order ≤ b.order
  stable : ∀ n, sorted.filter (·.order = n) = ds.filter (·.order = n)

/-- Ascending lists with the same definitions of each order are the same. -/
theorem eq_of_ascending {as bs : List ModuleDefinition}
    (has : as.Pairwise fun a b => a.order ≤ b.order)
    (hbs : bs.Pairwise fun a b => a.order ≤ b.order)
    (h : ∀ n, as.filter (·.order = n) = bs.filter (·.order = n)) : as = bs := by
  induction as generalizing bs with
  | nil =>
    cases bs with
    | nil => rfl
    | cons b bs => simpa using h b.order
  | cons a as ih =>
    cases bs with
    | nil => simpa using h a.order
    | cons b bs =>
      rw [List.pairwise_cons] at has hbs
      -- Each of the first ones stands in the other list, so neither is the lesser.
      have hmem : a ∈ b :: bs := by
        have ha : a ∈ (a :: as).filter (·.order = a.order) := by simp
        rw [h a.order] at ha
        exact (List.mem_filter.1 ha).1
      have hmem' : b ∈ a :: as := by
        have hb : b ∈ (b :: bs).filter (·.order = b.order) := by simp
        rw [← h b.order] at hb
        exact (List.mem_filter.1 hb).1
      have hle : b.order ≤ a.order := by
        rcases List.mem_cons.1 hmem with rfl | hmem
        · exact Nat.le_refl _
        · exact hbs.1 a hmem
      have hle' : a.order ≤ b.order := by
        rcases List.mem_cons.1 hmem' with rfl | hmem'
        · exact Nat.le_refl _
        · exact has.1 b hmem'
      have horder : b.order = a.order := Nat.le_antisymm hle hle'
      have hfirst := h a.order
      simp only [List.filter_cons, horder, decide_true, if_true, List.cons.injEq] at hfirst
      obtain ⟨rfl, -⟩ := hfirst
      rw [ih has.2 hbs.2 fun n => ?_]
      have hrest := h n
      rw [List.filter_cons, List.filter_cons] at hrest
      split at hrest
      · exact (List.cons.inj hrest).2
      · exact hrest

theorem stablySorted_sortByOrder (ds : List ModuleDefinition) :
    StablySorted ds (sortByOrder ds) := by
  have hperm : (sortByOrder ds).Perm ds := List.mergeSort_perm _ _
  have htrans : ∀ a b c : ModuleDefinition, decide (a.order ≤ b.order) = true →
      decide (b.order ≤ c.order) = true → decide (a.order ≤ c.order) = true := by
    intro a b c hab hbc
    rw [decide_eq_true_eq] at *
    omega
  have htotal : ∀ a b : ModuleDefinition,
      (decide (a.order ≤ b.order) || decide (b.order ≤ a.order)) = true := by
    intro a b
    simp only [Bool.or_eq_true, decide_eq_true_eq]
    omega
  refine ⟨hperm, ?_, fun n => ?_⟩
  · exact (List.pairwise_mergeSort htrans htotal ds).imp fun h => by simpa using h
  · -- Definitions of one order are in order as they stand, so sorting leaves them so.
    have hequal : (ds.filter (·.order = n)).Pairwise fun a b =>
        decide (a.order ≤ b.order) = true := by
      refine List.pairwise_iff_forall_sublist.2 fun {a b} hsub => ?_
      have ha := List.mem_filter.1 (hsub.subset (by simp : a ∈ [a, b]))
      have hb := List.mem_filter.1 (hsub.subset (by simp : b ∈ [a, b]))
      simp only [decide_eq_true_eq] at ha hb ⊢
      omega
    have hsub : (ds.filter (·.order = n)).Sublist (sortByOrder ds) :=
      List.sublist_mergeSort htrans htotal hequal List.filter_sublist
    have hsub' := hsub.filter (·.order = n)
    rw [List.filter_filter] at hsub'
    simp only [Bool.and_self] at hsub'
    exact (hsub'.eq_of_length (hperm.filter _).length_eq.symm).symm

/-- Sorting definitions puts them in the one order there is. -/
theorem stablySorted_iff {ds sorted : List ModuleDefinition} :
    StablySorted ds sorted ↔ sorted = sortByOrder ds := by
  have hsorted := stablySorted_sortByOrder ds
  constructor
  · intro h
    exact eq_of_ascending h.ascending hsorted.ascending fun n =>
      (h.stable n).trans (hsorted.stable n).symm
  · rintro rfl
    exact hsorted

/-! ## Looking up -/

/-- What looking up keys in a registry finds. -/
structure LooksUp (r : Registry) : Prop where
  find? : ∀ key d, r.find? key = some d ↔ d ∈ r.modules ∧ d.key = key
  /-- Of a module that is defined, a field is found exactly if it has the key, and no other has. -/
  field : ∀ module key f, r.requireField module key = .ok f ↔
    ∃ d ∈ r.modules, d.key = module ∧ f ∈ d.fields ∧ f.key = key
  unknown : ∀ module key e, r.requireField module key = .error e ↔
    (∀ d ∈ r.modules, d.key ≠ module) ∧ e = .unknownModule module ∨
      ∃ d ∈ r.modules, d.key = module ∧ (∀ f ∈ d.fields, f.key ≠ key) ∧ e = .unknownField module key

variable {r : Registry}

theorem find?_eq_some_iff {key : String} {d : ModuleDefinition} :
    r.find? key = some d ↔ d ∈ r.modules ∧ d.key = key :=
  find?_key_eq_some_iff (eq_of_nodup_keys r.soundModules.distinct key)

theorem find?_eq_none_iff {key : String} :
    r.find? key = none ↔ ∀ d ∈ r.modules, d.key ≠ key := by
  simp [find?]

/-- A module has at most one field with a key. -/
theorem field?_eq_some_iff {d : ModuleDefinition} (hd : d ∈ r.modules) {key : String}
    {f : FieldDefinition} : d.field? key = some f ↔ f ∈ d.fields ∧ f.key = key :=
  find?_key_eq_some_iff (eq_of_nodup_keys (r.soundModules.fields d hd).distinct key)

theorem require_eq_ok_iff {key : String} {d : ModuleDefinition} :
    r.require key = .ok d ↔ d ∈ r.modules ∧ d.key = key := by
  rw [require, ← find?_eq_some_iff]
  cases r.find? key <;> simp

theorem mem_of_require {key : String} {d : ModuleDefinition} (h : r.require key = .ok d) :
    d ∈ r.modules :=
  (require_eq_ok_iff.1 h).1

theorem key_of_require {key : String} {d : ModuleDefinition} (h : r.require key = .ok d) :
    d.key = key :=
  (require_eq_ok_iff.1 h).2

theorem require_eq_error_iff {key : String} {e : RegistryError} :
    r.require key = .error e ↔ (∀ d ∈ r.modules, d.key ≠ key) ∧ e = .unknownModule key := by
  rw [require, ← find?_eq_none_iff]
  cases r.find? key <;> simp [eq_comm]

theorem requireField_eq_ok_iff {module key : String} {f : FieldDefinition} :
    r.requireField module key = .ok f ↔
      ∃ d ∈ r.modules, d.key = module ∧ f ∈ d.fields ∧ f.key = key := by
  rw [requireField, bind_eq_ok_iff]
  simp only [require_eq_ok_iff, and_assoc]
  refine exists_congr fun d => and_congr_right fun hd => and_congr_right fun _ => ?_
  rw [← field?_eq_some_iff hd]
  cases d.field? key <;> simp [pure, Except.pure]

theorem mem_of_requireField {module key : String} {d : ModuleDefinition} {f : FieldDefinition}
    (hd : r.require module = .ok d) (h : r.requireField module key = .ok f) : f ∈ d.fields := by
  obtain ⟨d', hd', hkey', hf, -⟩ := requireField_eq_ok_iff.1 h
  obtain ⟨hd, hkey⟩ := require_eq_ok_iff.1 hd
  rwa [eq_of_key hd hd' (hkey.trans hkey'.symm)]

theorem requireField_eq_error_iff {module key : String} {e : RegistryError} :
    r.requireField module key = .error e ↔
      (∀ d ∈ r.modules, d.key ≠ module) ∧ e = .unknownModule module ∨
        ∃ d ∈ r.modules, d.key = module ∧ (∀ f ∈ d.fields, f.key ≠ key) ∧
          e = .unknownField module key := by
  rw [requireField, bind_eq_error_iff, require_eq_error_iff]
  simp only [require_eq_ok_iff, and_assoc]
  refine or_congr_right (exists_congr fun d => and_congr_right fun _ => and_congr_right fun _ => ?_)
  have hnone : d.field? key = none ↔ ∀ f ∈ d.fields, f.key ≠ key := by
    simp [ModuleDefinition.field?]
  rw [← hnone]
  cases d.field? key <;> simp [pure, Except.pure, eq_comm]

theorem looksUp (r : Registry) : r.LooksUp where
  find? _ _ := find?_eq_some_iff
  field _ _ _ := requireField_eq_ok_iff
  unknown _ _ _ := requireField_eq_error_iff

/-! ## Building -/

/-- What building a registry from a list of definitions comes to. -/
structure Construction (ds : List ModuleDefinition) : Prop where
  succeeds : (∃ r, ofDefinitions ds = .ok r) ↔ ds ≠ [] ∧ SoundModules ds
  /-- The registry has the definitions of the list, stably sorted. -/
  modules : ∀ r, ofDefinitions ds = .ok r →
    StablySorted ds r.modules ∧ ∀ sorted, StablySorted ds sorted → sorted = r.modules
  looksUp : ∀ r, ofDefinitions ds = .ok r → r.LooksUp
  /-- What is reported is the first defect of the sorted definitions. -/
  refused : ∀ e, ofDefinitions ds = .error e ↔ ds = [] ∧ e = .empty ∨
    ds ≠ [] ∧ ∃ sorted, StablySorted ds sorted ∧ ModuleDefect sorted e

variable {ds : List ModuleDefinition}

theorem modules_of_ofDefinitions (h : ofDefinitions ds = .ok r) : r.modules = sortByOrder ds := by
  unfold ofDefinitions at h
  split at h
  · cases h
  · split at h
    · cases h
    · obtain rfl := Except.ok.inj h
      rfl

theorem ofDefinitions_eq_error_iff {e : RegistryError} : ofDefinitions ds = .error e ↔
    ds = [] ∧ e = .empty ∨ ds ≠ [] ∧ firstDefect? [] (sortByOrder ds) = some e := by
  unfold ofDefinitions
  split
  · rename_i hempty
    simp [hempty, eq_comm]
  · rename_i hne
    split
    · rename_i e' hdefect
      simp [hne, hdefect]
    · rename_i hsound
      simp [hne, hsound]

theorem exists_ofDefinitions_iff :
    (∃ r, ofDefinitions ds = .ok r) ↔ ds ≠ [] ∧ SoundModules ds := by
  have hperm := (stablySorted_sortByOrder ds).perm
  constructor
  · rintro ⟨r, h⟩
    have hmodules := modules_of_ofDefinitions h
    refine ⟨?_, (hmodules ▸ r.soundModules).of_perm hperm.symm⟩
    rintro rfl
    cases h
  · rintro ⟨hne, hsound⟩
    cases hresult : ofDefinitions ds with
    | ok r => exact ⟨r, rfl⟩
    | error e =>
      rcases ofDefinitions_eq_error_iff.1 hresult with ⟨hempty, -⟩ | ⟨-, hdefect⟩
      · exact absurd hempty hne
      · rw [firstDefect?_eq_none_iff.2 (hsound.of_perm hperm)] at hdefect
        cases hdefect

/-- A list of definitions makes a registry of them in their order, or is refused for its first
defect. -/
theorem construction (ds : List ModuleDefinition) : Construction ds where
  succeeds := exists_ofDefinitions_iff
  modules r h := by
    rw [modules_of_ofDefinitions h]
    exact ⟨stablySorted_sortByOrder ds, fun sorted => stablySorted_iff.1⟩
  looksUp r _ := r.looksUp
  refused e := by
    simp only [ofDefinitions_eq_error_iff, firstDefect?_eq_some_iff, stablySorted_iff,
      exists_eq_left]

end Registry

end Lorebook
