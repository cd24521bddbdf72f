import Mathlib.Logic.Relation
import RenderLayout.Proofs.Pieces
import RenderLayout.Proofs.Regions

/-!
Markup that is padded with pieces which say nothing.

Comments and processing instructions say nothing anywhere, and some elements are passed over where
they stand. A piece in the middle of a text cuts it in two; the parts read as the whole, unless the
cut is within a reference to a character.
-/

namespace RenderLayout

open Markup

/-! ### Texts that are cut in two -/

/-- Whether a text ends within a reference: no semicolon comes behind an ampersand. -/
def endsInReference : List Char → Bool
  | [] => false
  | c :: s => endsInReference s || (c = '&' && !s.contains ';')

lemma agree_resolveEntity (start start' : Nat) (name : List Char) :
    Agree Eq (resolveEntity start name) (resolveEntity start' name) := by
  unfold resolveEntity
  split
  · exact .self _
  · split
    · exact .ok rfl
    · exact .error _ _

/-- What a text means does not depend on its place. -/
lemma agree_unescapeFrom {state state' : Option (Nat × List Char)}
    (h : state.map (·.2) = state'.map (·.2)) (size size' place place' : Nat) (s : List Char) :
    Agree Eq (unescapeFrom size place state s) (unescapeFrom size' place' state' s) := by
  induction s generalizing state state' place place' with
  | nil =>
    cases state <;> cases state'
    · exact .ok rfl
    · cases h
    · cases h
    · exact .error _ _
  | cons c s ih =>
    rcases state with _ | ⟨start, name⟩ <;> rcases state' with _ | ⟨start', name'⟩
    · rw [unescapeFrom, unescapeFrom]
      split
      · exact @ih (some (place, [])) (some (place', [])) rfl _ _
      · exact (@ih none none rfl _ _).bind_eq fun rest => .self _
    · cases h
    · cases h
    · obtain rfl : name = name' := Option.some.inj h
      rw [unescapeFrom, unescapeFrom]
      split
      · refine (agree_resolveEntity _ _ _).bind_eq fun meant => ?_
        exact (@ih none none rfl _ _).bind_eq fun rest => .self _
      · split
        · exact .error _ _
        · exact @ih (some (start, c :: name)) (some (start', c :: name)) rfl _ _

/-- A text that is not cut within a reference means what its parts mean. -/
lemma agree_unescapeFrom_append {state : Option (Nat × List Char)} {s : List Char}
    (hopen : state.isSome = true → ';' ∈ s) (h : endsInReference s = false) (size place : Nat)
    (more : List Char) :
    Agree Eq (unescapeFrom size place state (s ++ more)) (do
      let first ← unescapeFrom size place state s
      let rest ← unescapeFrom size 0 none more
      return first ++ rest) := by
  induction s generalizing state place with
  | nil =>
    cases state with
    | some _ => simp at hopen
    | none =>
      have hplace := @agree_unescapeFrom none none rfl size size place 0 more
      rw [List.nil_append, unescapeFrom, ok_bind]
      simpa using hplace
  | cons c s ih =>
    simp only [endsInReference, Bool.or_eq_false_iff, Bool.and_eq_false_iff, decide_eq_false_iff_not,
      Bool.not_eq_false', List.contains_eq_mem, decide_eq_true_eq] at h
    obtain ⟨hs, hc⟩ := h
    rw [List.cons_append]
    rcases state with _ | ⟨start, name⟩
    · rw [unescapeFrom, unescapeFrom]
      split
      case isTrue hamp => exact ih (fun _ => hc.resolve_left (not_not.2 hamp)) hs _
      case isFalse =>
        have hrest := @ih none (by simp) hs (place + c.utf8Size)
        simpa only [bind_assoc, pure_bind, List.cons_append] using
          hrest.bind_eq fun rest => .self (pure (c :: rest))
    · rw [unescapeFrom, unescapeFrom]
      split
      case isTrue =>
        have hrest := @ih none (by simp) hs (place + 1)
        simp only [bind_assoc, pure_bind]
        refine .step _ fun meant => ?_
        simpa only [bind_assoc, pure_bind, List.cons_append] using
          hrest.bind_eq fun rest => .self (pure (meant :: rest))
      case isFalse hsemi =>
        split
        · exact .error _ _
        · refine ih (fun _ => ?_) hs _
          exact (List.mem_cons.1 (hopen rfl)).resolve_left (Ne.symm hsemi)

/-- A text that is not cut within a reference reads as its parts do. -/
lemma agree_unescapeText_append {s : List Char} (h : endsInReference s = false)
    (more : List Char) :
    Agree Eq (unescapeText (String.ofList (s ++ more))) (do
      let first ← unescapeText (String.ofList s)
      let rest ← unescapeText (String.ofList more)
      return first ++ rest) := by
  have hwhole := @agree_unescapeFrom_append none s (by simp) h (byteLength (s ++ more)) 0 more
  have hfirst := @agree_unescapeFrom none none rfl (byteLength (s ++ more)) (byteLength s) 0 0 s
  have hrest := @agree_unescapeFrom none none rfl (byteLength (s ++ more)) (byteLength more) 0 0 more
  have hparts := hwhole.trans (hfirst.bind_eq fun first => hrest.bind_eq fun rest =>
    .self (pure (first ++ rest)))
  unfold unescapeText unescape
  simp only [String.toList_ofList]
  generalize unescapeFrom _ 0 none (s ++ more) = whole at hparts ⊢
  generalize unescapeFrom _ 0 none s = first at hparts ⊢
  generalize unescapeFrom _ 0 none more = rest at hparts ⊢
  rcases first with fault | first
  · cases hparts
    exact .error _ _
  · rcases rest with fault | rest
    · cases hparts
      exact .error _ _
    · cases hparts with
      | ok heq =>
        subst heq
        exact .ok String.ofList_append

/-! ### Nodes of texts -/

namespace Markup

/-- The node of collected characters, if there are any. -/
def collectedNodes (chars : List Char) : List Node :=
  if chars.isEmpty then [] else [.text (String.ofList chars.reverse)]

lemma standing_textEvents (opened : List OpenElement) (nodes : List Node) (chars : List Char) :
    standing opened nodes (textEvents chars) = (opened, (collectedNodes chars).reverse ++ nodes) := by
  unfold textEvents collectedNodes
  split <;> rfl

end Markup

lemma textAmong_collected (chars : List Char) :
    textAmong (collectedNodes chars) = unescapeText (String.ofList chars.reverse) := by
  unfold collectedNodes
  split
  case isTrue h =>
    rw [List.isEmpty_iff.1 h]
    rfl
  case isFalse =>
    simp only [textAmong, textIn, ok_bind, String.append_empty, bind_pure]

lemma Span.addNodes_collected (span : Span) (chars : List Char) :
    span.addNodes (collectedNodes chars) = do
      let text ← unescapeText (String.ofList chars.reverse)
      return { span with text := span.text ++ text } := by
  unfold collectedNodes
  split
  case isTrue h =>
    have hempty : unescapeText (String.ofList []) = .ok "" := rfl
    rw [List.isEmpty_iff.1 h, List.reverse_nil, hempty, ok_bind, String.append_empty]
    cases span
    rfl
  case isFalse =>
    rw [addNodes, addNode]
    simp only [addNodes, bind_assoc, pure_bind]
    rfl

namespace Region

variable {region : Region}

lemma alike_collected_nil (h : region.readsText = false) (chars : List Char) :
    region.Alike (collectedNodes chars) [] := by
  unfold collectedNodes
  split
  · exact .refl region []
  · exact alike_text h _

/-- A text may be cut in two where it is not within a reference. -/
lemma alike_collected_append (hregion : region.readsText = true) {chars : List Char}
    (h : endsInReference chars.reverse = false) (more : List Char) :
    region.Alike (collectedNodes (more ++ chars)) (collectedNodes chars ++ collectedNodes more) := by
  have hparts := agree_unescapeText_append h more.reverse
  cases region with
  | span =>
    intro span
    simp only [Span.addNodes_append, Span.addNodes_collected, List.reverse_append, bind_assoc,
      pure_bind, String.append_assoc]
    simpa only [bind_assoc, pure_bind] using hparts.bind_eq fun text =>
      .self (pure { span with text := span.text ++ text })
  | text =>
    show Agree Eq (textAmong _) (textAmong _)
    rw [textAmong_append]
    simpa only [textAmong_collected, List.reverse_append] using hparts
  | _ => cases hregion

/-- A node that says nothing may stand in the middle of a text, if that is not read or is not cut
within a reference. -/
lemma alike_collected_cut {node : Node} (hnode : region.Alike [node] []) {chars more whole : List Char}
    (h : region.readsText = false ∨ whole = more ++ chars ∧ endsInReference chars.reverse = false) :
    region.Alike (collectedNodes whole) (collectedNodes chars ++ [node] ++ collectedNodes more) := by
  have hdrop : region.Alike (collectedNodes chars ++ collectedNodes more)
      (collectedNodes chars ++ [node] ++ collectedNodes more) := by
    simpa using (hnode.between (collectedNodes chars) (collectedNodes more)).symm
  refine Alike.trans ?_ hdrop
  cases hregion : region.readsText with
  | false =>
    have hparts := (alike_collected_nil hregion chars).append_nil (alike_collected_nil hregion more)
    exact (alike_collected_nil hregion whole).trans hparts.symm
  | true =>
    obtain ⟨rfl, hcut⟩ := h.resolve_left (by rw [hregion]; decide)
    exact alike_collected_append hregion hcut more

lemma readsText_behind (region : Region) (node : Node) (h : region.readsText = false) :
    (region.behind node).readsText = false := by
  unfold behind
  split
  · split <;> rfl
  · rfl
  · exact h

/-- No character data is read outside of the root. -/
lemma readsText_within_nil (nodes : List Node) : (within [] nodes).readsText = false := by
  have hrun (region : Region) (h : region.readsText = false) :
      (nodes.reverse.foldl behind region).readsText = false := by
    induction nodes.reverse generalizing region with
    | nil => exact h
    | cons node nodes ih => exact ih _ (readsText_behind region node h)
  exact hrun .document rfl

lemma within_collected (opened : List OpenElement) (nodes : List Node) (chars : List Char) :
    within opened ((collectedNodes chars).reverse ++ nodes) = within opened nodes := by
  cases opened with
  | cons e opened => rfl
  | nil =>
    unfold collectedNodes
    split
    · rfl
    · rw [List.reverse_singleton, List.singleton_append, within, within, List.reverse_cons,
        List.foldl_append]
      cases nodes.reverse.foldl behind .document <;> rfl

end Region

/-! ### Texts with a piece put in -/

namespace Markup

/-- What a scan gives behind collected characters: they are the front of the next text. -/
lemma scan_inText (names : List (List Char)) (s : List Char) :
    ∃ more later, ∀ place chars, ∃ ending,
      scan names place (.inText chars) s = (textEvents (more ++ chars) ++ later, ending) := by
  induction s with
  | nil => exact ⟨[], [], fun place chars => ⟨.done, by rw [scan, List.nil_append, List.append_nil]⟩⟩
  | cons c s ih =>
    by_cases hc : c = '<'
    · refine ⟨[], (scan names 0 .opened s).1, fun place chars =>
        ⟨(scan names (place + 1) .opened s).2, ?_⟩⟩
      rw [scan, if_pos hc, scan_place names 0 (place + 1)]
      rfl
    · obtain ⟨more, later, h⟩ := ih
      refine ⟨more ++ [c], later, fun place chars => ?_⟩
      obtain ⟨ending, h⟩ := h (place + c.utf8Size) (c :: chars)
      refine ⟨ending, ?_⟩
      rw [scan, if_neg hc, h, List.append_assoc]
      rfl

lemma dropMark_of_head {s : List Char} (h : s.head? = some '<') : dropMark s = s := by
  obtain ⟨rest, rfl⟩ := List.head?_eq_some_iff.1 h
  rfl

/-- At the start of a text a byte order mark is dropped, and behind a piece it is a character. -/
lemma scan_dropMark (names : List (List Char)) (s : List Char) :
    ∃ whole more later, ∀ place place', ∃ ending ending',
      scan names place (.inText []) (dropMark s) = (textEvents whole ++ later, ending) ∧
        scan names place' (.inText []) s = (textEvents more ++ later, ending') := by
  by_cases hs : ∃ rest, s = '\ufeff' :: rest
  · obtain ⟨rest, rfl⟩ := hs
    obtain ⟨more, later, h⟩ := scan_inText names rest
    refine ⟨more, more ++ ['\ufeff'], later, fun place place' => ?_⟩
    obtain ⟨ending, hrest⟩ := h place []
    obtain ⟨ending', hmark⟩ := h (place' + '\ufeff'.utf8Size) ['\ufeff']
    rw [List.append_nil] at hrest
    exact ⟨ending, ending', hrest, by rw [scan, if_neg (by decide), hmark]⟩
  · obtain ⟨more, later, h⟩ := scan_inText names s
    have hdrop : dropMark s = s := by
      unfold dropMark
      split
      case h_1 rest => exact absurd ⟨rest, rfl⟩ hs
      case h_2 => rfl
    refine ⟨more, more, later, fun place place' => ?_⟩
    obtain ⟨ending, hrest⟩ := h place []
    obtain ⟨ending', hrest'⟩ := h place' []
    rw [List.append_nil] at hrest hrest'
    exact ⟨ending, ending', by rw [hdrop, hrest], hrest'⟩

variable {before piece : String} {pieceEvents : List Event} {node : Node}

/-- A piece puts its events in the place where it stands. -/
lemma events_insert (hbefore : (events before).2 = .done)
    (hpiece : Adds piece.toList pieceEvents node) (after : String) :
    ∃ earlier chars whole more later ending ending',
      (events before).1 = earlier ++ textEvents chars ∧
      events (before ++ after) = (earlier ++ (textEvents whole ++ later), ending) ∧
      events (before ++ piece ++ after) =
        (earlier ++ (textEvents chars ++ pieceEvents ++ (textEvents more ++ later)), ending') ∧
      (whole = more ++ chars ∨ before = "") := by
  by_cases hempty : before = ""
  · subst hempty
    obtain ⟨whole, more, later, h⟩ := scan_dropMark [] after.toList
    obtain ⟨place', hscan⟩ := hpiece.scans [] 0 [] after.toList
    obtain ⟨ending, ending', hwhole, hmore⟩ := h 0 place'
    have hopens : (piece.toList ++ after.toList).head? = some '<' := by
      rw [List.head?_append, hpiece.opens]
      rfl
    refine ⟨[], [], whole, more, later, ending, ending', rfl, ?_, ?_, Or.inr rfl⟩
    · rw [String.empty_append]
      exact hwhole
    · rw [String.empty_append, events, String.toList_append, dropMark_of_head hopens, hscan, hmore]
      rfl
  · have hne : before.toList ≠ [] := fun h => hempty (String.toList_inj.1 h)
    obtain ⟨names, place, chars, earlier, hearlier, hrest⟩ := scan_append hbefore
    obtain ⟨place', hscan⟩ := hpiece.scans names place chars after.toList
    obtain ⟨more, later, h⟩ := scan_inText names after.toList
    obtain ⟨ending, hwhole⟩ := h place chars
    obtain ⟨ending', hmore⟩ := h place' []
    refine ⟨earlier, chars, more ++ chars, more, later, ending, ending', hearlier, ?_, ?_,
      Or.inl rfl⟩
    · rw [events, String.toList_append, dropMark_append (absurd · hne), hrest, hwhole]
      rfl
    · rw [events, String.append_assoc, String.toList_append, dropMark_append (absurd · hne), hrest,
        String.toList_append, hscan, hmore, List.append_nil, prepend_prepend]
      simp [prepend]

end Markup

/-! ### Padding -/

/-- The region at the end of a text. -/
def regionAt (before : String) : Region :=
  .within (standing [] [] (events before).1).1 (standing [] [] (events before).1).2

/-- The character data at the end of a text, behind its last event. -/
def lastText (before : String) : List Char :=
  match (events before).1.getLast? with
  | some (.text raw) => raw.toList
  | _ => []

/-- Whether a text ends within a reference to a character, where character data counts. -/
def cutsReference (before : String) : Bool :=
  (regionAt before).readsText && endsInReference (lastText before)

variable {before piece after : String}

lemma endsInReference_of_lastText {earlier : List Event} {chars : List Char}
    (hevents : (events before).1 = earlier ++ textEvents chars)
    (h : endsInReference (lastText before) = false) : endsInReference chars.reverse = false := by
  rw [lastText, hevents, textEvents] at h
  by_cases hempty : chars.isEmpty = true
  · rw [List.isEmpty_iff.1 hempty]
    rfl
  · rw [if_neg hempty, List.getLast?_concat] at h
    simpa using h

/-- A piece whose node says nothing where it stands does not change what is decoded. -/
lemma agree_ofMarkup_insert {pieceEvents : List Event} {node : Node}
    (hbefore : (events before).2 = .done) (hpiece : Adds piece.toList pieceEvents node)
    (hnode : (regionAt before).Alike [node] []) (hcut : cutsReference before = false)
    (after : String) :
    Agree Eq (Drawing.ofMarkup (before ++ after)) (Drawing.ofMarkup (before ++ piece ++ after)) := by
  obtain ⟨earlier, chars, whole, more, later, ending, ending', hevents, hwhole, hparts, hsplit⟩ :=
    events_insert hbefore hpiece after
  have hregion : regionAt before =
      .within (standing [] [] earlier).1 (standing [] [] earlier).2 := by
    rw [regionAt, hevents, standing_append, standing_textEvents, Region.within_collected]
  have htext : (regionAt before).readsText = false ∨
      whole = more ++ chars ∧ endsInReference chars.reverse = false := by
    rcases Bool.and_eq_false_iff.1 hcut with hunread | hreference
    · exact Or.inl hunread
    · rcases hsplit with hwhole | rfl
      · exact Or.inr ⟨hwhole, endsInReference_of_lastText hevents hreference⟩
      · exact Or.inl (Region.readsText_within_nil [])
  have halike := Region.alike_collected_cut hnode htext
  rw [hregion] at halike
  have hgrow := Region.agree_ofNodes_grow halike ending ending' later
  unfold Drawing.ofMarkup nodes
  rw [hwhole, hparts]
  dsimp only
  rw [grow_append, grow_append, grow_append, standing_textEvents, grow_append, standing_append,
    standing_textEvents, hpiece.grows, grow_append, standing_textEvents]
  simpa using hgrow

/-- The second text is the first with one piece more: a comment or a processing instruction that does
not cut a reference, or an element that is passed over where it stands. -/
inductive Padded : String → String → Prop
  | comment {before after body : String} (hbefore : (events before).2 = .done)
    (hbody : ¬ ['-', '-', '>'] <:+: body.toList) (hcut : cutsReference before = false) :
    Padded (before ++ after) (before ++ ("<!--" ++ body ++ "-->") ++ after)
  | instruction {before after body : String} (hbefore : (events before).2 = .done)
    (hbody : ¬ ['?', '>'] <:+: '?' :: body.toList) (hcut : cutsReference before = false) :
    Padded (before ++ after) (before ++ ("<?" ++ body ++ "?>") ++ after)
  | element {before after piece : String} {tag : Tag} (hbefore : (events before).2 = .done)
    (hpiece : elementTag? piece = some tag) (hpasses : (regionAt before).passesOver tag = true) :
    Padded (before ++ after) (before ++ piece ++ after)

lemma readsText_of_passesOver {region : Region} {tag : Tag} (h : region.passesOver tag = true) :
    region.readsText = false := by
  cases region <;> first | rfl | cases h

lemma Padded.agree {markup markup' : String} (h : Padded markup markup') :
    Agree Eq (Drawing.ofMarkup markup) (Drawing.ofMarkup markup') := by
  cases h with
  | @comment _ _ body hbefore hbody hcut =>
    have hpiece : Adds ("<!--" ++ body ++ "-->").toList [.aside] .aside := by
      simpa using adds_comment hbody
    exact agree_ofMarkup_insert hbefore hpiece (Region.alike_aside _) hcut _
  | @instruction _ _ body hbefore hbody hcut =>
    have hpiece : Adds ("<?" ++ body ++ "?>").toList [.aside] .aside := by
      simpa using adds_instruction hbody
    exact agree_ofMarkup_insert hbefore hpiece (Region.alike_aside _) hcut _
  | @element before _ _ _ hbefore hpiece hpasses =>
    have hcut : cutsReference before = false :=
      Bool.and_eq_false_iff.2 (Or.inl (readsText_of_passesOver hpasses))
    obtain ⟨events, node, hadds, hnode⟩ := adds_element hpiece
    refine agree_ofMarkup_insert hbefore hadds ?_ hcut _
    rcases hnode with rfl | ⟨children, rfl, huncut⟩
    · exact Region.alike_empty hpasses
    · exact Region.alike_element hpasses huncut

/-- **Padding is not decoded**: markup that makes a drawing makes the same one with any number of
comments and processing instructions between its events and in its texts, none of them within a
reference that is read, with any elements but `defs` and `g` in the root, and with any `title` and
`desc` in the layers, whatever is in these. -/
theorem ofMarkup_padded {markup markup' : String} {drawing : Drawing}
    (h : Relation.ReflTransGen Padded markup markup')
    (hdrawing : Drawing.ofMarkup markup = .ok drawing) :
    Drawing.ofMarkup markup' = .ok drawing := by
  induction h with
  | refl => exact hdrawing
  | tail _ hlast ih => exact hlast.agree.eq_ok ih

/-- A text in one layer. -/
def plainSign : String :=
  "<svg width=\"9\" height=\"9\"><g><text><tspan>5 &lt; 7</tspan></text></g></svg>"

/-- The same behind an element of the root that has all kinds of elements in it, with a title, and with
a comment and an instruction in its text. -/
def paddedSign : String :=
  "<svg width=\"9\" height=\"9\"><m:a><svg><defs><style>&</style></defs><g><rect/></g></svg></m:a>" ++
    "<g><title><g/></title><text><tspan>5 <!-- > -->&lt;<?a <b> ?> 7</tspan></text></g></svg>"

theorem ofMarkup_padded_sign :
    Relation.ReflTransGen Padded plainSign paddedSign ∧
      ∃ drawing, Drawing.ofMarkup plainSign = .ok drawing ∧
        Drawing.ofMarkup paddedSign = .ok drawing := by
  have hcomment : Padded plainSign _ := @Padded.comment
    "<svg width=\"9\" height=\"9\"><g><text><tspan>5 " "&lt; 7</tspan></text></g></svg>" " > "
    (by decide +kernel) (by decide) (by decide +kernel)
  have hinstruction : Padded _ _ := @Padded.instruction
    "<svg width=\"9\" height=\"9\"><g><text><tspan>5 <!-- > -->&lt;" " 7</tspan></text></g></svg>"
    "a <b> " (by decide +kernel) (by decide) (by decide +kernel)
  have htitle : Padded _ _ := @Padded.element "<svg width=\"9\" height=\"9\"><g>"
    "<text><tspan>5 <!-- > -->&lt;<?a <b> ?> 7</tspan></text></g></svg>" "<title><g/></title>"
    ⟨"title", ""⟩ (by decide +kernel) (by decide +kernel) (by decide +kernel)
  have helement : Padded _ paddedSign := @Padded.element "<svg width=\"9\" height=\"9\">"
    ("<g><title><g/></title><text><tspan>5 <!-- > -->&lt;<?a <b> ?> 7</tspan></text></g></svg>")
    "<m:a><svg><defs><style>&</style></defs><g><rect/></g></svg></m:a>" ⟨"m:a", ""⟩
    (by decide +kernel) (by decide +kernel) (by decide +kernel)
  have hpadded : Relation.ReflTransGen Padded plainSign paddedSign :=
    (((Relation.ReflTransGen.single hcomment).tail hinstruction).tail htitle).tail helement
  have hrun : (Drawing.ofMarkup plainSign).toOption.isSome = true := by decide +kernel
  obtain ⟨drawing, hdrawing⟩ := Option.isSome_iff_exists.1 hrun
  have hplain := toOption_eq_some_iff.1 hdrawing
  exact ⟨hpadded, drawing, hplain, ofMarkup_padded hpadded hplain⟩

/-- A description up to the middle of a reference, and what is behind that. -/
def cutDescription : String × String :=
  ("<svg width=\"9\" height=\"9\"><g><rect><desc>a&am", "p;b</desc></rect></g></svg>")

/-- A comment within a reference leaves two texts, the first of which cannot be read. -/
theorem comment_within_reference :
    (events cutDescription.1).2 = .done ∧
      (∃ drawing, Drawing.ofMarkup (cutDescription.1 ++ cutDescription.2) = .ok drawing) ∧
      ∃ fault, Drawing.ofMarkup (cutDescription.1 ++ ("<!--" ++ "" ++ "-->") ++ cutDescription.2) =
        .error fault := by
  have hwhole : (fault? (Drawing.ofMarkup (cutDescription.1 ++ cutDescription.2))).isNone = true := by
    decide +kernel
  have hcut : (fault? (Drawing.ofMarkup
      (cutDescription.1 ++ ("<!--" ++ "" ++ "-->") ++ cutDescription.2))).isSome = true := by
    decide +kernel
  obtain ⟨fault, hfault⟩ := Option.isSome_iff_exists.1 hcut
  exact ⟨by decide +kernel, fault?_eq_none_iff.1 (Option.isNone_iff_eq_none.1 hwhole), fault,
    fault?_eq_some_iff.1 hfault⟩

end RenderLayout
