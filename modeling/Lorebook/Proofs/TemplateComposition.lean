import Lorebook.Proofs.TemplateGrammar
import Lorebook.Template.Render

set_option autoImplicit false

/-! # Templates put together

Two texts that parse may be put one after the other, if the first does not end in a dollar sign: no
escape and no expression then begins in the one and goes on in the other, so each is read as it is
read alone. Literal text is merged where they meet, which does not show in what is rendered
(`Template.render_append`). -/

namespace Lorebook

namespace Template

open Expression (Blank)

/-! ## Reading two texts -/

section

variable {gap : List Char → Prop} {cs ds rest : List Char} {ps qs : List Piece}

theorem getLast?_of_suffix (h : cs <:+ ds) (hend : ds.getLast? ≠ some '$') :
    cs.getLast? ≠ some '$' := by
  obtain ⟨front, rfl⟩ := h
  intro hdollar
  rw [List.getLast?_append, hdollar] at hend
  exact hend rfl

/-- An opening that begins in a text without a dollar sign at its end does not go on in the next. -/
theorem prefix_of_prefix_append {opening : List Char} (hopening : IsOpening opening) (hcs : cs ≠ [])
    (hend : cs.getLast? ≠ some '$') (h : opening <+: cs ++ ds) : opening <+: cs := by
  rcases Nat.le_total opening.length cs.length with hle | hle
  · exact List.prefix_of_prefix_length_le h (List.prefix_append cs ds) hle
  · -- Every proper part of an opening ends in a dollar sign.
    have hpart : cs <+: opening := List.prefix_of_prefix_length_le (List.prefix_append cs ds) h hle
    rcases hopening with rfl | rfl
    · simp only [List.prefix_cons_iff, List.prefix_nil] at hpart
      rcases hpart with rfl | ⟨_, rfl, rfl | ⟨_, rfl, rfl | ⟨_, rfl, rfl⟩⟩⟩
      · exact absurd rfl hcs
      · exact absurd rfl hend
      · exact absurd rfl hend
      · exact List.prefix_rfl
    · simp only [List.prefix_cons_iff, List.prefix_nil] at hpart
      rcases hpart with rfl | ⟨_, rfl, rfl | ⟨_, rfl, rfl⟩⟩
      · exact absurd rfl hcs
      · exact absurd rfl hend
      · exact List.prefix_rfl

/-- Two texts are read one after the other. -/
theorem Reads.append (h : Reads gap cs ps []) (hend : cs.getLast? ≠ some '$')
    (h' : Reads gap ds qs rest) : Reads gap (cs ++ ds) (ps ++ qs) rest := by
  generalize hnil : ([] : List Char) = stop at h
  induction h with
  | stop =>
    subst hnil
    exact h'
  | @escape body cs _ ps hbody _ ih =>
    have hsuffix : cs <:+ '$' :: '$' :: '\x7b' :: (body ++ '\x7d' :: cs) :=
      ⟨'$' :: '$' :: '\x7b' :: (body ++ ['\x7d']), by simp⟩
    have hread := Reads.escape hbody (ih (getLast?_of_suffix hsuffix hend) hnil)
    simpa using hread
  | @expr content cs _ e ps hbody hexpr _ ih =>
    have hsuffix : cs <:+ '$' :: '\x7b' :: (content ++ '\x7d' :: cs) :=
      ⟨'$' :: '\x7b' :: (content ++ ['\x7d']), by simp⟩
    have hread := Reads.expr hbody hexpr (ih (getLast?_of_suffix hsuffix hend) hnil)
    simpa using hread
  | @char c cs _ ps hescape hopen _ ih =>
    have hread := ih (getLast?_of_suffix (List.suffix_cons c cs) hend) hnil
    refine .char ?_ ?_ hread
    · intro hprefix
      exact hescape (prefix_of_prefix_append (.inl rfl) (List.cons_ne_nil c cs) hend hprefix)
    · intro hprefix
      exact hopen (prefix_of_prefix_append (.inr rfl) (List.cons_ne_nil c cs) hend hprefix)

end

/-! ## Rendering what is read -/

/-- The text of one rendering followed by that of another, or the error of the first that fails. -/
def followedBy (r r' : Except TemplateError String) : Except TemplateError String := do
  let text ← r
  let text' ← r'
  return text ++ text'

theorem followedBy_empty (r : Except TemplateError String) : followedBy (.ok "") r = r := by
  cases r <;> simp [followedBy, bind, Except.bind, pure, Except.pure]

theorem followedBy_map (text : String) (r r' : Except TemplateError String) :
    followedBy (r.map (text ++ ·)) r' = (followedBy r r').map (text ++ ·) := by
  cases r <;> cases r' <;>
    simp [followedBy, Except.map, bind, Except.bind, pure, Except.pure, String.append_assoc]

theorem followedBy_assoc (r r' r'' : Except TemplateError String) :
    followedBy (followedBy r r') r'' = followedBy r (followedBy r' r'') := by
  cases r <;> cases r' <;> cases r'' <;>
    simp [followedBy, bind, Except.bind, pure, Except.pure, String.append_assoc]

section

variable (functions : FunctionSet) (context : Json)

/-- A segment is rendered before the ones after it. -/
theorem render_cons (s : Segment) (segments : List Segment) :
    render functions context ⟨s :: segments⟩ =
      followedBy (s.render functions context) (render functions context ⟨segments⟩) := by
  simp only [render, List.mapM_cons]
  cases s.render functions context with
  | error e => rfl
  | ok text =>
    cases segments.mapM (Segment.render functions context) <;>
      simp [followedBy, bind, Except.bind, pure, Except.pure, Except.map]

/-- A literal is rendered as its text. -/
theorem render_literal (text : String) (segments : List Segment) :
    render functions context ⟨.literal text :: segments⟩ =
      (render functions context ⟨segments⟩).map (text ++ ·) := by
  rw [render_cons]
  rfl

/-- Text that is put in front of segments is rendered as it is. -/
theorem render_prepend (cs : List Char) (segments : List Segment) :
    render functions context ⟨prepend cs segments⟩ =
      (render functions context ⟨segments⟩).map (String.ofList cs ++ ·) := by
  unfold prepend
  split
  · rename_i text rest
    rw [render_literal, render_literal]
    cases render functions context ⟨rest⟩ <;> simp [Except.map, String.append_assoc]
  · split
    · rename_i hempty
      obtain rfl := List.isEmpty_iff.1 hempty
      cases render functions context ⟨segments⟩ <;> simp [Except.map]
    · rw [render_literal]

/-- What is read first is rendered first. -/
theorem render_segmentsOf_append (ps qs : List Piece) :
    render functions context ⟨segmentsOf (ps ++ qs)⟩ =
      followedBy (render functions context ⟨segmentsOf ps⟩)
        (render functions context ⟨segmentsOf qs⟩) := by
  induction ps with
  | nil => exact (followedBy_empty _).symm
  | cons p ps ih =>
    cases p with
    | char c =>
      rw [List.cons_append, segmentsOf, segmentsOf, render_prepend, render_prepend, ih,
        followedBy_map]
    | escape body =>
      rw [List.cons_append, segmentsOf, segmentsOf, render_prepend, render_prepend, ih,
        followedBy_map]
    | expr content e =>
      rw [List.cons_append, segmentsOf, segmentsOf, render_cons, render_cons, ih, followedBy_assoc]

end

/-- Two texts that parse, the first without a dollar sign at its end, parse when they are put
together, and in every context and with all functions the whole renders as the first part followed
by the second. -/
theorem render_append {source source' : String} {t t' : Template} (h : parse source = .ok t)
    (h' : parse source' = .ok t') (hend : source.toList.getLast? ≠ some '$') :
    ∃ whole, parse (source ++ source') = .ok whole ∧ ∀ functions context,
      whole.render functions context =
        followedBy (t.render functions context) (t'.render functions context) := by
  obtain ⟨ps, hreads, hsegments⟩ := reads_of_parse h
  obtain ⟨qs, hreads', hsegments'⟩ := reads_of_parse h'
  have hwhole : Reads Blank (source ++ source').toList (ps ++ qs) [] := by
    rw [String.toList_append]
    exact hreads.append hend hreads'
  refine ⟨_, parse_of_reads hwhole, ?_⟩
  intro functions context
  rw [render_segmentsOf_append, ← hsegments, ← hsegments']

/-- An expression before an escape: a function that is not there fails the whole. -/
theorem render_append_escape :
    let t : Template := ⟨[.literal "Lore: ", .expr ⟨[.key "a"], [⟨"f", []⟩], "a|f"⟩]⟩
    let t' : Template := ⟨[.literal "$\x7bb\x7d$"]⟩
    parse "Lore: $\x7ba|f\x7d" = .ok t ∧ parse "$$\x7bb\x7d$" = .ok t' ∧
      ∃ whole, parse ("Lore: $\x7ba|f\x7d" ++ "$$\x7bb\x7d$") = .ok whole ∧
        ∀ functions context, whole.render functions context =
          followedBy (t.render functions context) (t'.render functions context) :=
  ⟨by decide +kernel, by decide +kernel,
    render_append (by decide +kernel) (by decide +kernel) (by decide)⟩

end Template

end Lorebook
