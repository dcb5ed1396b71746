import Lorebook.Engine.Drafting
import Lorebook.Proofs.Lexing

set_option autoImplicit false

/-! # Replies in a block of code

Generators like to put the object that they are asked for into a block of code: a line with a fence
and an info string, the object, and a line with a fence. The fences do not change what the reply
proposes. White space may stand around the block and around the text in it, lines may end with a
carriage return, the text may be blank, and the closing fence may be missing when the text does not
end with a fence of its own (`Engine.parseProposal_codeBlock`). The conditions on the text are
exact: a fence at its front or at its end is taken off (`Engine.unfenced_eq_trimChars_iff`,
`Engine.withoutClosing_eq_trimChars_iff`). So a generator that puts its replies into blocks of code
gives the same drafts (`Engine.generateModule_inBlocks`). -/

namespace Lorebook

/-! ## Beginnings, ends and white space -/

namespace Text

theorem afterStart?_eq_none_iff {start cs : List Char} :
    afterStart? start cs = none ↔ ¬ start <+: cs := by
  simp only [Option.eq_none_iff_forall_ne_some, ne_eq, afterStart?_eq_some_iff]
  constructor
  · rintro h ⟨rest, hrest⟩
    exact h rest hrest.symm
  · intro h rest hrest
    exact h ⟨rest, hrest.symm⟩

theorem beforeEnd?_eq_none_iff {ending cs : List Char} :
    beforeEnd? ending cs = none ↔ ¬ ending <:+ cs := by
  rw [beforeEnd?, Option.map_eq_none_iff, afterStart?_eq_none_iff, List.reverse_prefix]

/-- Trimming at the end reaches what stands before only where nothing is left after it. -/
theorem trimEndChars_append_eq (before cs : List Char) :
    trimEndChars (before ++ cs) =
      if trimEndChars cs = [] then trimEndChars before else before ++ trimEndChars cs := by
  simp only [trimEndChars, List.reverse_append, List.dropWhile_append, List.reverse_eq_nil_iff,
    List.isEmpty_iff]
  split
  · rfl
  · rw [List.reverse_append, List.reverse_reverse]

theorem isSpace_of_mem_newline : ∀ c ∈ ['\n'], isSpace c :=
  List.all_eq_true.1 (by decide)

theorem trimEndChars_of_spaces {cs : List Char} (h : ∀ c ∈ cs, isSpace c) :
    trimEndChars cs = [] :=
  trimEndChars_append h []

theorem trimEndChars_trimEndChars (cs : List Char) :
    trimEndChars (trimEndChars cs) = trimEndChars cs :=
  List.rdropWhile_idempotent isSpace cs

theorem trimChars_trimEndChars (cs : List Char) : trimChars (trimEndChars cs) = trimChars cs := by
  have hpadded : Padded (trimEndChars cs) cs :=
    ⟨[], List.rtakeWhile isSpace cs, by simp, fun _ => List.mem_rtakeWhile_imp,
      List.rdropWhile_append_rtakeWhile.symm⟩
  exact hpadded.trimChars_eq.symm

theorem length_trimEndChars_le (cs : List Char) : (trimEndChars cs).length ≤ cs.length :=
  (List.rdropWhile_prefix isSpace cs).length_le

theorem length_trimChars_le (cs : List Char) : (trimChars cs).length ≤ cs.length :=
  (length_trimEndChars_le _).trans (List.dropWhile_suffix isSpace).length_le

variable {ending : List Char} (hending : ∀ c ∈ ending, isSpace c = false)

include hending

/-- White space in front does not decide whether a text has an ending without any. -/
theorem suffix_append_iff {before : List Char} (hbefore : ∀ c ∈ before, isSpace c)
    (cs : List Char) : ending <:+ before ++ cs ↔ ending <:+ cs := by
  constructor
  · intro h
    rcases List.suffix_or_suffix_of_suffix h (List.suffix_append before cs) with hcs | ⟨start, rfl⟩
    · exact hcs
    · -- What the ending has before the text is white space, so there is none of it.
      have hstart : start <:+ before := List.suffix_append_self_iff.1 h
      have hnil : start = [] := by
        rw [List.eq_nil_iff_forall_not_mem]
        intro c hc
        have hspace := hbefore c (hstart.subset hc)
        rw [hending c (List.mem_append_left _ hc)] at hspace
        cases hspace
      simp [hnil]
  · intro h
    exact h.trans (List.suffix_append before cs)

theorem suffix_trimEndChars_iff (cs : List Char) :
    ending <:+ trimEndChars cs ↔ ending <:+ trimChars cs := by
  have hspaces : ∀ c ∈ cs.takeWhile isSpace, isSpace c := fun _ => List.mem_takeWhile_imp
  have hcs : trimEndChars cs =
      if trimChars cs = [] then [] else cs.takeWhile isSpace ++ trimChars cs := by
    conv_lhs => rw [← List.takeWhile_append_dropWhile (p := isSpace) (l := cs)]
    rw [trimEndChars_append_eq, trimEndChars_of_spaces hspaces]
    rfl
  rw [hcs]
  split
  · rename_i hblank
    rw [hblank]
  · exact suffix_append_iff hending hspaces _

end Text

namespace Engine

open Text

/-! ## Blocks of code -/

/-- A text in a block of code without the closing fence: below a line with a fence and `info`. -/
def openBlock (info text : List Char) : List Char :=
  fence ++ (info ++ '\n' :: text)

/-- A text in a block of code: between a line with a fence and `info` and a line with a fence. -/
def codeBlock (info text : List Char) : List Char :=
  openBlock info (text ++ '\n' :: fence)

/-- The lines below the first one. -/
def belowFirstLine (cs : List Char) : List Char :=
  (cs.dropWhile (· ≠ '\n')).drop 1

/-- The lines below an opening fence, trimmed and without the closing fence if they have one. -/
def withoutClosing (body : List Char) : List Char :=
  trimChars ((beforeEnd? fence (trimEndChars body)).getD body)

theorem isSpace_of_mem_fence : ∀ c ∈ fence, isSpace c = false := by
  have hall : fence.all (fun c => !isSpace c) = true := by decide
  simpa using hall

theorem trimEndChars_append_fence (cs : List Char) : trimEndChars (cs ++ fence) = cs ++ fence := by
  have hfence : trimEndChars fence = fence := by decide
  rw [trimEndChars_append_eq, hfence, if_neg (by decide)]

theorem trimChars_append_fence (cs : List Char) :
    trimChars (cs ++ fence) = trimStartChars cs ++ fence := by
  have hstart : trimStartChars (cs ++ fence) = trimStartChars cs ++ fence := by
    rw [trimStartChars, List.dropWhile_append]
    split
    · rename_i hblank
      rw [trimStartChars, List.isEmpty_iff.1 hblank]
      rfl
    · rfl
  rw [trimChars, hstart, trimEndChars_append_fence]

theorem dropWhile_of_line {line : List Char} (h : '\n' ∉ line) (cs : List Char) :
    (line ++ cs).dropWhile (· ≠ '\n') = cs.dropWhile (· ≠ '\n') := by
  apply List.dropWhile_append_of_pos
  intro c hc
  simpa using fun heq : c = '\n' => h (heq ▸ hc)

/-- Trimming the end of a block leaves the lines below the first one, trimmed in the same way. Where
nothing is left of them it goes on to the end of the first line. -/
theorem belowFirstLine_trimEndChars {info : List Char} (hinfo : '\n' ∉ info) (text : List Char) :
    belowFirstLine (trimEndChars (info ++ '\n' :: text)) = trimEndChars text := by
  rw [List.append_cons, trimEndChars_append_eq, trimEndChars_append isSpace_of_mem_newline,
    belowFirstLine]
  split
  · rename_i hblank
    have hfirst : '\n' ∉ trimEndChars info :=
      fun h => hinfo ((List.rdropWhile_prefix isSpace info).subset h)
    have hnone := dropWhile_of_line hfirst []
    rw [List.append_nil] at hnone
    rw [hnone, hblank]
    rfl
  · rw [List.append_assoc, dropWhile_of_line hinfo]
    rfl

/-! ## What is taken off -/

theorem unfenced_of_fence_append {reply : String} {rest : List Char}
    (h : trimChars reply.toList = fence ++ rest) :
    unfenced reply = withoutClosing (belowFirstLine rest) := by
  unfold unfenced
  simp only [afterStart?_eq_some_iff.2 h]
  rfl

theorem length_withoutClosing_le (body : List Char) :
    (withoutClosing body).length ≤ body.length := by
  refine (length_trimChars_le _).trans ?_
  cases hend : beforeEnd? fence (trimEndChars body) with
  | none => simp
  | some start =>
    have hlength := length_trimEndChars_le body
    rw [beforeEnd?_eq_some_iff.1 hend, List.length_append] at hlength
    exact (Nat.le_add_right _ _).trans hlength

/-- Nothing but white space is taken off a reply, unless it starts with a fence. -/
theorem unfenced_eq_trimChars_iff {reply : String} :
    unfenced reply = trimChars reply.toList ↔ ¬ fence <+: trimChars reply.toList := by
  constructor
  · rintro h ⟨rest, hrest⟩
    rw [unfenced_of_fence_append hrest.symm, ← hrest] at h
    have hbody : (belowFirstLine rest).length ≤ rest.length := by
      rw [belowFirstLine, List.length_drop]
      have := (List.dropWhile_suffix (l := rest) (· ≠ '\n')).length_le
      omega
    have hlength := (length_withoutClosing_le (belowFirstLine rest)).trans hbody
    rw [h, List.length_append] at hlength
    have hfence : fence.length = 3 := rfl
    omega
  · intro h
    unfold unfenced
    simp only [afterStart?_eq_none_iff.2 h]

theorem withoutClosing_trimEndChars (body : List Char) :
    withoutClosing (trimEndChars body) = withoutClosing body := by
  rw [withoutClosing, withoutClosing, trimEndChars_trimEndChars]
  cases beforeEnd? fence (trimEndChars body) with
  | none => exact trimChars_trimEndChars body
  | some start => rfl

/-- Of a closed block the text is left. -/
theorem withoutClosing_closed (text : List Char) :
    withoutClosing (text ++ '\n' :: fence) = trimChars text := by
  have hclosed : trimEndChars (text ++ '\n' :: fence) = (text ++ ['\n']) ++ fence := by
    rw [List.append_cons, trimEndChars_append_fence]
  have hpadded : Padded text (text ++ ['\n']) := ⟨[], ['\n'], by simp, isSpace_of_mem_newline, rfl⟩
  rw [withoutClosing, beforeEnd?_eq_some_iff.2 hclosed]
  exact hpadded.trimChars_eq

/-- Of an open block the text is left, unless it ends with a fence. -/
theorem withoutClosing_eq_trimChars_iff {text : List Char} :
    withoutClosing text = trimChars text ↔ ¬ fence <:+ trimChars text := by
  rw [← suffix_trimEndChars_iff isSpace_of_mem_fence]
  constructor
  · rintro h ⟨start, hstart⟩
    have htext : trimChars text = trimStartChars start ++ fence := by
      rw [← trimChars_trimEndChars, ← hstart, trimChars_append_fence]
    rw [withoutClosing, beforeEnd?_eq_some_iff.2 hstart.symm, htext] at h
    -- Without its fence the text is shorter.
    have hlength := congrArg List.length h
    have hle := length_trimEndChars_le (trimStartChars start)
    have hfence : fence.length = 3 := rfl
    rw [List.length_append] at hlength
    change (trimEndChars (trimStartChars start)).length = _ at hlength
    omega
  · intro h
    rw [withoutClosing, beforeEnd?_eq_none_iff.2 h]
    rfl

/-- White space around an open block does not count, and of its first line nothing is left. -/
theorem unfenced_of_openBlock {info text : List Char} {reply : String} (hinfo : '\n' ∉ info)
    (h : Padded (openBlock info text) reply.toList) : unfenced reply = withoutClosing text := by
  have hreply : trimChars reply.toList = fence ++ trimEndChars (info ++ '\n' :: text) := by
    rw [h.trimChars_eq]
    change trimEndChars (fence ++ (info ++ '\n' :: text)) = _
    rw [trimEndChars_append_eq]
    split
    · -- The text and what stands after the fence are blank.
      rename_i hblank
      rw [hblank]
      rfl
    · rfl
  rw [unfenced_of_fence_append hreply, belowFirstLine_trimEndChars hinfo,
    withoutClosing_trimEndChars]

/-- Of a block in a block the inner one is left. -/
example : unfenced "```\n```\n\x7b\x7d\n```\n```" = codeBlock [] ['\x7b', '\x7d'] := by
  decide

/-! ## What a reply proposes -/

/-- What a reply proposes is read off what is left without the fences. -/
theorem parseProposal_of_unfenced_eq (d : ModuleDefinition) {reply reply' : String}
    (h : unfenced reply = unfenced reply') : parseProposal d reply = parseProposal d reply' := by
  unfold parseProposal
  rw [h]

/-- A text that does not start with a fence proposes the same in a block of code, whatever stands
after the opening fence and with any white space around the block: the very same characters are read
as the object. The closing fence may be missing, if the text does not end with a fence. -/
theorem parseProposal_codeBlock {info : List Char} {text : String} (hinfo : '\n' ∉ info)
    (htext : ¬ fence <+: trimChars text.toList) :
    (∀ reply : String, Padded (codeBlock info text.toList) reply.toList →
      unfenced reply = unfenced text ∧
        ∀ d, parseProposal d reply = parseProposal d text) ∧
    (¬ fence <:+ trimChars text.toList →
      ∀ reply : String, Padded (openBlock info text.toList) reply.toList →
        unfenced reply = unfenced text ∧
          ∀ d, parseProposal d reply = parseProposal d text) := by
  have hbare : unfenced text = trimChars text.toList := unfenced_eq_trimChars_iff.2 htext
  constructor
  · intro reply hreply
    have hsame : unfenced reply = unfenced text := by
      rw [unfenced_of_openBlock hinfo hreply, withoutClosing_closed, hbare]
    exact ⟨hsame, fun d => parseProposal_of_unfenced_eq d hsame⟩
  · intro hend reply hreply
    have hsame : unfenced reply = unfenced text := by
      rw [unfenced_of_openBlock hinfo hreply, withoutClosing_eq_trimChars_iff.2 hend, hbare]
    exact ⟨hsame, fun d => parseProposal_of_unfenced_eq d hsame⟩

/-- An object with a shorter run of backticks in it: lines end with carriage returns, and there is
white space around the object and around its block. -/
theorem parseProposal_codeBlock_carriageReturn :
    let text := "\xa0\n\x7b\"sea\": \"``\"\x7d\r"
    let closed := " \t```json\r\n\xa0\n\x7b\"sea\": \"``\"\x7d\r\n```\u3000\n"
    let unclosed := "```json\r\n\xa0\n\x7b\"sea\": \"``\"\x7d\r\n"
    '\n' ∉ "json\r".toList ∧ ¬ fence <+: trimChars text.toList ∧
      ¬ fence <:+ trimChars text.toList ∧
      Padded (codeBlock "json\r".toList text.toList) closed.toList ∧
      Padded (openBlock "json\r".toList text.toList) unclosed.toList ∧
      (unfenced closed = unfenced text ∧
        ∀ d, parseProposal d closed = parseProposal d text) ∧
      (unfenced unclosed = unfenced text ∧
        ∀ d, parseProposal d unclosed = parseProposal d text) := by
  intro text closed unclosed
  have hinfo : '\n' ∉ "json\r".toList := by decide
  have htext : ¬ fence <+: trimChars text.toList := by decide
  have hend : ¬ fence <:+ trimChars text.toList := by decide
  have hclosed : Padded (codeBlock "json\r".toList text.toList) closed.toList :=
    ⟨" \t".toList, "\u3000\n".toList, List.all_eq_true.1 (by decide),
      List.all_eq_true.1 (by decide), by decide⟩
  have hunclosed : Padded (openBlock "json\r".toList text.toList) unclosed.toList :=
    ⟨[], ['\n'], by simp, isSpace_of_mem_newline, by decide⟩
  exact ⟨hinfo, htext, hend, hclosed, hunclosed,
    (parseProposal_codeBlock hinfo htext).1 _ hclosed,
    (parseProposal_codeBlock hinfo htext).2 hend _ hunclosed⟩

/-! ## Generators that put their replies into blocks of code -/

/-- The text in a block of code, unless it starts with a fence. -/
def inBlock (info : List Char) (text : String) : String :=
  if fence <+: trimChars text.toList then text
  else String.ofList (codeBlock info text.toList)

/-- The generator with what it answers put into blocks of code. -/
def inBlocks {m : Type → Type} [Monad m] (info : List Char) (g : Generator m) : Generator m :=
  fun limit request => do return (← g limit request).map (Except.map (inBlock info))

theorem unfenced_inBlock {info : List Char} (hinfo : '\n' ∉ info) (text : String) :
    unfenced (inBlock info text) = unfenced text := by
  unfold inBlock
  split
  · rfl
  · rename_i htext
    have hpadded : Padded (openBlock info (text.toList ++ '\n' :: fence))
        (String.ofList (codeBlock info text.toList)).toList := by
      rw [String.toList_ofList]
      exact padded_refl _
    rw [unfenced_of_openBlock hinfo hpadded, withoutClosing_closed,
      unfenced_eq_trimChars_iff.2 htext]

theorem call_inBlocks {m : Type → Type} [Monad m] [LawfulMonad m] (info : List Char)
    (g : Generator m) (limit : Span) (request : GenerationRequest) :
    (inBlocks info g).call limit request = Except.map (inBlock info) <$> g.call limit request := by
  simp only [Generator.call, inBlocks, bind_assoc, pure_bind, map_eq_pure_bind]
  refine congrArg _ (funext fun answer => ?_)
  cases answer with
  | none => rfl
  | some reply => rfl

theorem acceptDraft_inBlock {info : List Char} (hinfo : '\n' ∉ info) (id : WorldId)
    (d : ModuleDefinition) (owner : OwnerId) (reply : GenerationReply) :
    acceptDraft id d owner (reply.map (inBlock info)) = acceptDraft id d owner reply := by
  cases reply with
  | error cause => rfl
  | ok text =>
    have hsame := parseProposal_of_unfenced_eq d (unfenced_inBlock hinfo text)
    unfold acceptDraft
    change ((pure (inBlock info text) : Operation String) >>= fun text => _) =
      ((pure text : Operation String) >>= fun text => _)
    rw [pure_bind, pure_bind, hsame]

/-- Drafts are the same when a generator puts its replies into blocks of code. -/
theorem generateModule_inBlocks {m : Type → Type} [Monad m] [LawfulMonad m]
    [MonadStateOf Studio m] {info : List Char} (hinfo : '\n' ∉ info) (e : Engine)
    (g : Generator m) (id : WorldId) (module : String) (owner : OwnerId) :
    e.generateModule (inBlocks info g) id module owner = e.generateModule g id module owner := by
  unfold generateModule
  cases e.registry.require module with
  | error cause => rfl
  | ok d =>
    refine congrArg (_ >>= ·) (funext fun drafted => ?_)
    cases drafted with
    | error cause => rfl
    | ok request => simp only [call_inBlocks, bind_map_left, acceptDraft_inBlock hinfo]

end Engine

end Lorebook
