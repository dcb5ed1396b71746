import Lorebook.Template.Path
import Mathlib.Data.List.Sort

set_option autoImplicit false

/-! # What a path means

Without a wildcard a path means the value that its keys lead to, one after the other. With wildcards
it means one flat list: a value for each choice of one element per wildcard, in the order of the
choices, where the rest of the path can be followed (`Json.Means`). The recursion of `resolvePath`,
which joins the lists of later wildcards as it returns, computes exactly that
(`resolvePath_eq_iff`). -/

namespace Lorebook

namespace Json

/-! ## Following keys and choices -/

/-- The value that keys lead to, one after the other. -/
def follow? : List String → Json → Option Json
  | [], v => some v
  | key :: keys, v => (v.get? key).bind (follow? keys)

/-- The value at the end of a path for a choice of elements, the index of one for each wildcard. -/
def chosen? : List PathStep → List Nat → Json → Option Json
  | [], [], v => some v
  | .key name :: path, choice, v => (v.get? name).bind (chosen? path choice)
  | .wildcard name :: path, i :: choice, v =>
    ((v.get? name).bind items?).bind fun items => items[i]?.bind (chosen? path choice)
  | [], _ :: _, _ => none
  | .wildcard _ :: _, [], _ => none

/-- The meaning of a path at a value, `none` being an absent one. -/
inductive Means : List PathStep → Json → Option Json → Prop
  /-- Without a wildcard: the value that the keys lead to. -/
  | keys (keys : List String) (v : Json) : Means (keys.map .key) v (follow? keys v)
  /-- The part up to the first wildcard does not lead to a list. -/
  | absent {keys : List String} {name : String} {path : List PathStep} {v : Json}
      (h : ∀ items, follow? (keys ++ [name]) v ≠ some (.arr items)) :
      Means (keys.map .key ++ .wildcard name :: path) v none
  /-- It leads to a list: the values of all choices that can be followed, ascending. -/
  | gathered {keys : List String} {name : String} {path : List PathStep} {v : Json}
      {items : List Json} {found : List (List Nat × Json)}
      (hlist : follow? (keys ++ [name]) v = some (.arr items))
      (hordered : found.Pairwise (·.1 < ·.1))
      (hexact : ∀ choice w, (choice, w) ∈ found ↔
        chosen? (keys.map .key ++ .wildcard name :: path) choice v = some w) :
      Means (keys.map .key ++ .wildcard name :: path) v (some (.arr (found.map (·.2))))

theorem items?_eq_some_iff {v : Json} {items : List Json} :
    v.items? = some items ↔ v = .arr items := by
  cases v <;> simp [items?]

theorem follow?_append (keys keys' : List String) (v : Json) :
    follow? (keys ++ keys') v = (follow? keys v).bind (follow? keys') := by
  induction keys generalizing v with
  | nil => rfl
  | cons key keys ih =>
    rw [List.cons_append, follow?, follow?, Option.bind_assoc]
    exact congrArg (v.get? key).bind (funext ih)

/-! ## All choices -/

/-- Every choice that can be followed, with the value at its end. -/
def findings : List PathStep → Json → List (List Nat × Json)
  | [], v => [([], v)]
  | .key name :: path, v => (v.get? name).toList.flatMap (findings path)
  | .wildcard name :: path, v =>
    (((v.get? name).bind items?).getD []).zipIdx.flatMap fun (item, i) =>
      (findings path item).map fun (choice, w) => (i :: choice, w)

/-- The choices that are gathered are those that can be followed. -/
theorem mem_findings {path : List PathStep} {v w : Json} {choice : List Nat} :
    (choice, w) ∈ findings path v ↔ chosen? path choice v = some w := by
  induction path generalizing v choice with
  | nil => cases choice <;> simp [findings, chosen?, eq_comm]
  | cons step path ih =>
    cases step with
    | key name => simp [findings, chosen?, ih, Option.bind_eq_some_iff]
    | wildcard name =>
      cases choice with
      | nil => simp [findings, chosen?]
      | cons i choice =>
        rw [findings, chosen?]
        cases (v.get? name).bind items? with
        | none => simp
        | some items => simp [List.mem_zipIdx_iff_getElem?, Option.bind_eq_some_iff, ih]

/-- They are gathered in ascending order. -/
theorem ordered_findings (path : List PathStep) (v : Json) :
    (findings path v).Pairwise (·.1 < ·.1) := by
  induction path generalizing v with
  | nil => exact List.pairwise_singleton _ _
  | cons step path ih =>
    cases step with
    | key name =>
      cases hget : v.get? name with
      | none => simp [findings, hget]
      | some w => simpa [findings, hget] using ih w
    | wildcard name =>
      rw [findings, List.pairwise_flatMap]
      constructor
      · rintro ⟨item, i⟩ -
        rw [List.pairwise_map]
        exact (ih item).imp fun h => List.cons_lt_cons_iff.2 (.inr ⟨rfl, h⟩)
      · -- Choices of different elements are in the order of the elements.
        refine List.pairwise_iff_getElem.2 fun i j hi hj hij => ?_
        rintro ⟨_, _⟩ hx ⟨_, _⟩ hy
        simp only [List.getElem_zipIdx, List.mem_map, Prod.mk.injEq] at hx hy
        obtain ⟨⟨x, _⟩, -, rfl, -⟩ := hx
        obtain ⟨⟨y, _⟩, -, rfl, -⟩ := hy
        exact List.cons_lt_cons_iff.2 (.inl (by omega))

end Json

/-! ## The recursion -/

open Json

variable (name : String) (path : List PathStep) (v : Json)

theorem resolvePath_wildcard : resolvePath (.wildcard name :: path) v =
    ((v.get? name).bind items?).map fun items => .arr (items.flatMap fun item =>
      projected (path.any (·.isWildcard)) (resolvePath path item)) := by
  rw [resolvePath]
  cases v.get? name with
  | none => rfl
  | some w => cases hlist : w.items? <;> simp [hlist]

/-- The values found below a wildcard are those found in each element, one element after the
other. -/
theorem map_findings_wildcard : (findings (.wildcard name :: path) v).map (·.2) =
    (((v.get? name).bind items?).getD []).flatMap fun item => (findings path item).map (·.2) := by
  rw [findings, List.map_flatMap]
  conv_rhs => rw [← List.zipIdx_map_fst 0 (((v.get? name).bind items?).getD []), List.flatMap_map]
  refine List.flatMap_congr fun x _ => ?_
  rw [List.map_map]
  rfl

/-- What a value contributes to a projection are the values at the ends of its choices. -/
theorem projected_resolvePath :
    projected (path.any (·.isWildcard)) (resolvePath path v) = (findings path v).map (·.2) := by
  induction path generalizing v with
  | nil => cases v <;> rfl
  | cons step path ih =>
    cases step with
    | key name =>
      rw [resolvePath, findings, List.any_cons]
      cases v.get? name with
      | none => rfl
      | some w => simpa [PathStep.isWildcard] using ih w
    | wildcard name =>
      rw [resolvePath_wildcard, map_findings_wildcard, List.any_cons]
      cases (v.get? name).bind items? with
      | none => rfl
      | some items => exact List.flatMap_congr fun item _ => ih item

/-- A path follows its keys before the rest. -/
theorem resolvePath_keys (keys : List String) : resolvePath (keys.map .key ++ path) v =
    (follow? keys v).bind (resolvePath path) := by
  induction keys generalizing v with
  | nil => rfl
  | cons key keys ih =>
    rw [List.map_cons, List.cons_append, resolvePath, follow?, Option.bind_assoc]
    exact congrArg (v.get? key).bind (funext ih)

theorem findings_keys (keys : List String) : findings (keys.map .key ++ path) v =
    (follow? keys v).toList.flatMap (findings path) := by
  induction keys generalizing v with
  | nil => simp [follow?]
  | cons key keys ih =>
    rw [List.map_cons, List.cons_append, findings, follow?]
    cases v.get? key with
    | none => rfl
    | some w => simpa using ih w

/-- A path with a wildcard leads to the values at the ends of its choices, if the part up to the
first wildcard leads to a list. -/
theorem resolvePath_first_wildcard (keys : List String) :
    resolvePath (keys.map .key ++ .wildcard name :: path) v =
      ((follow? (keys ++ [name]) v).bind items?).map fun _ =>
        .arr ((findings (keys.map .key ++ .wildcard name :: path) v).map (·.2)) := by
  rw [resolvePath_keys, findings_keys, follow?_append]
  cases follow? keys v with
  | none => rfl
  | some w =>
    have hfollow : follow? [name] w = w.get? name := Option.bind_fun_some _
    rw [Option.bind_some, Option.bind_some, hfollow, resolvePath_wildcard, Option.toList_some,
      List.flatMap_singleton, map_findings_wildcard]
    cases (w.get? name).bind items? with
    | none => rfl
    | some items =>
      have hitems := List.flatMap_congr (l := items) fun item _ => projected_resolvePath path item
      exact congrArg (fun values => some (Json.arr values)) hitems

/-! ## The meaning -/

/-- A path consists of keys, or has keys before its first wildcard. -/
theorem exists_keys (path : List PathStep) : (∃ keys : List String, path = keys.map .key) ∨
    ∃ (keys : List String) (name : String) (rest : List PathStep),
      path = keys.map .key ++ .wildcard name :: rest := by
  induction path with
  | nil => exact .inl ⟨[], rfl⟩
  | cons step path ih =>
    cases step with
    | wildcard name => exact .inr ⟨[], name, path, rfl⟩
    | key key =>
      rcases ih with ⟨keys, rfl⟩ | ⟨keys, name, rest, rfl⟩
      · exact .inl ⟨key :: keys, rfl⟩
      · exact .inr ⟨key :: keys, name, rest, rfl⟩

theorem means_resolvePath : Means path v (resolvePath path v) := by
  rcases exists_keys path with ⟨keys, rfl⟩ | ⟨keys, name, rest, rfl⟩
  · rw [← List.append_nil (keys.map _), resolvePath_keys, List.append_nil]
    exact (Option.bind_fun_some (follow? keys v)).symm ▸ .keys keys v
  · rw [resolvePath_first_wildcard]
    cases hlist : (follow? (keys ++ [name]) v).bind items? with
    | none =>
      refine .absent fun items h => ?_
      rw [h] at hlist
      cases hlist
    | some items =>
      obtain ⟨w, hw, hitems⟩ := Option.bind_eq_some_iff.1 hlist
      rw [items?_eq_some_iff.1 hitems] at hw
      exact .gathered hw (ordered_findings _ v) fun _ _ => mem_findings

variable {path v}

/-- A path has no other meaning: choices in order are determined by which they are. -/
theorem Json.Means.eq_resolvePath {r : Option Json} (h : Means path v r) :
    r = resolvePath path v := by
  cases h with
  | keys keys =>
    rw [← List.append_nil (keys.map _), resolvePath_keys]
    exact (Option.bind_fun_some (follow? keys v)).symm
  | @absent keys name path v h =>
    rw [resolvePath_first_wildcard]
    cases hfollow : follow? (keys ++ [name]) v with
    | none => rfl
    | some w =>
      cases hitems : w.items? with
      | none => simp [hitems]
      | some items => exact absurd (items?_eq_some_iff.1 hitems ▸ hfollow) (h items)
  | @gathered keys name path v items found hlist hordered hexact =>
    have hfound : found = findings (keys.map .key ++ .wildcard name :: path) v :=
      have : Std.Irrefl fun a b : List Nat × Json => a.1 < b.1 := ⟨fun a => List.lt_irrefl a.1⟩
      have : Std.Antisymm fun a b : List Nat × Json => a.1 < b.1 :=
        ⟨fun a b hab hba => absurd (List.lt_trans hab hba) (List.lt_irrefl a.1)⟩
      hordered.eq_of_mem_iff (ordered_findings _ v) fun a =>
        (hexact a.1 a.2).trans mem_findings.symm
    rw [resolvePath_first_wildcard, hlist, hfound]
    rfl

/-- Looking up a path gives what it means. -/
theorem resolvePath_eq_iff {r : Option Json} : resolvePath path v = r ↔ Means path v r :=
  ⟨fun h => h ▸ means_resolvePath path v, fun h => h.eq_resolvePath.symm⟩

/-- A later wildcard makes one list of what the elements have; an element without the key, or with
something else than a list under it, has nothing. -/
example : resolvePath [.wildcard "a", .wildcard "b", .key "c"] (.obj [("a", .arr [
      .obj [("b", .arr [.obj [("c", .int 1)], .obj [("d", .int 2)]])],
      .obj [("b", .null)],
      .obj [("b", .arr [.obj [("c", .arr [.int 3])]])]])]) =
    some (.arr [.int 1, .arr [.int 3]]) := rfl

end Lorebook
