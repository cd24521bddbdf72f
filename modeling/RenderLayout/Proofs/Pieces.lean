import Mathlib.Data.List.Infix
import RenderLayout.Proofs.NodeLists
import RenderLayout.Proofs.Respelling

/-!
Pieces of markup that are one node wherever they stand.

A comment and a processing instruction end at the first place where they may. A text that is scanned
alone to the events of one element is scanned to the same events within whatever other elements, and
these grow into the same element there.
-/

namespace RenderLayout.Markup

/-- The piece is scanned to the events wherever it stands in text, and these grow into the node. -/
structure Adds (piece : List Char) (events : List Event) (node : Node) : Prop where
  opens : piece.head? = some '<'
  scans : ∀ names place chars rest, ∃ place', scan names place (.inText chars) (piece ++ rest) =
    prepend (textEvents chars ++ events) (scan names place' (.inText []) rest)
  grows : ∀ opened nodes, standing opened nodes events = (opened, node :: nodes)

/-! ### Comments and processing instructions -/

/-- A bracket in an infix is not in what stands behind the first part. -/
lemma isInfix_of_append (mark : List Char) {s t : List Char} {c : Char}
    (h : mark ++ [c] <:+: s ++ t) (ht : c ∉ t) : mark ++ [c] <:+: s := by
  obtain ⟨before, behind, heq⟩ := h
  rcases List.append_eq_append_iff.1 heq with ⟨more, rfl, -⟩ | ⟨more, hmore, rfl⟩
  · exact ⟨before, more, by simp⟩
  · rcases List.eq_nil_or_concat more with rfl | ⟨others, last, rfl⟩
    · exact ⟨before, [], by simpa using hmore⟩
    · -- the last character of the mark would be behind the first part
      rw [List.concat_eq_append, ← List.append_assoc, ← List.append_assoc] at hmore
      obtain rfl := List.singleton_inj.1 (List.append_inj_right' hmore rfl)
      simp at ht

/-- A scan that collects each character of a text, behind what it has collected before, comes to its
end. -/
lemma scan_collect (names : List (List Char)) (state : List Char → ScanState) {s : List Char}
    (hstep : ∀ early c late, s = early ++ c :: late → ∀ place rest, ∃ place',
      scan names place (state early) (c :: rest) = scan names place' (state (early ++ [c])) rest)
    (place : Nat) (rest : List Char) :
    ∃ place', scan names place (state []) (s ++ rest) = scan names place' (state s) rest := by
  have hrun (late early : List Char) (hs : s = early ++ late) (place : Nat) : ∃ place',
      scan names place (state early) (late ++ rest) = scan names place' (state s) rest := by
    induction late generalizing early place with
    | nil => exact ⟨place, by rw [hs, List.append_nil, List.nil_append]⟩
    | cons c late ih =>
      obtain ⟨middle, hc⟩ := hstep early c late hs place (late ++ rest)
      obtain ⟨place', hlate⟩ := ih (early ++ [c]) (by rw [hs]; simp) middle
      exact ⟨place', by rw [List.cons_append, hc, hlate]⟩
  exact hrun s [] rfl place

/-- A comment does not end before its last bracket. -/
lemma comment_goes_on {body early late : List Char} {c : Char} (h : ¬ ['-', '-', '>'] <:+: body)
    (hs : body ++ ['-', '-'] = early ++ c :: late) :
    ¬ (c = '>' ∧ 5 ≤ (early.reverse ++ ['-', '-', '!']).length ∧
      (early.reverse ++ ['-', '-', '!']).take 2 = ['-', '-']) := by
  rintro ⟨rfl, hlength, hmark⟩
  rcases List.eq_nil_or_concat early with rfl | ⟨front, b, rfl⟩
  · simp at hlength
  rcases List.eq_nil_or_concat front with rfl | ⟨front, a, rfl⟩
  · simp at hlength
  obtain ⟨rfl, rfl⟩ : b = '-' ∧ a = '-' := by simpa using hmark
  have hinfix : ['-', '-'] ++ ['>'] <:+: body ++ ['-', '-'] := ⟨front, late, by rw [hs]; simp⟩
  exact h (isInfix_of_append ['-', '-'] hinfix (by decide))

lemma scan_comment {body : List Char} (h : ¬ ['-', '-', '>'] <:+: body)
    (names : List (List Char)) (place : Nat) (chars rest : List Char) :
    ∃ place', scan names place (.inText chars) ("<!--".toList ++ body ++ "-->".toList ++ rest) =
      prepend (textEvents chars ++ [.aside]) (scan names place' (.inText []) rest) := by
  obtain ⟨place₁, hbody⟩ := scan_collect names
    (fun s => .inComment (s.reverse ++ ['-', '-', '!'])) (s := body ++ ['-', '-'])
    (fun early c late hs place rest => by
      refine ⟨place + c.utf8Size, ?_⟩
      rw [scan, if_neg (comment_goes_on h hs)]
      simp)
    (place + 1 + 1 + 1 + '-'.utf8Size) ('>' :: rest)
  have htext : "<!--".toList ++ body ++ "-->".toList ++ rest =
      '<' :: '!' :: '-' :: '-' :: (body ++ ['-', '-'] ++ '>' :: rest) := by simp
  have hread : readComment ((body ++ ['-', '-']).reverse ++ ['-', '-', '!']).reverse = .ok .aside := by
    simp [readComment]
  refine ⟨place₁ + 1, ?_⟩
  rw [htext, scan, if_pos rfl, scan, if_pos rfl, scan, if_pos rfl, scan, if_neg (by decide)]
  show prepend _ (scan names _ (.inComment (List.reverse [] ++ ['-', '-', '!'])) _) = _
  rw [hbody, scan, if_pos (by simp), hread, proceed, prepend_prepend]

/-- An instruction does not end before its last bracket. -/
lemma instruction_goes_on {body early late : List Char} {c : Char}
    (h : ¬ ['?', '>'] <:+: '?' :: body) (hs : body ++ ['?'] = early ++ c :: late) :
    ¬ (c = '>' ∧ (early.reverse ++ ['?']).head? = some '?') := by
  rintro ⟨rfl, hmark⟩
  have hinfix : ['?'] ++ ['>'] <:+: '?' :: (body ++ ['?']) := by
    rw [hs]
    rcases List.eq_nil_or_concat early with rfl | ⟨front, a, rfl⟩
    · exact ⟨[], late, by simp⟩
    · obtain rfl : a = '?' := by simpa using hmark
      exact ⟨'?' :: front, late, by simp⟩
  exact h (isInfix_of_append ['?'] hinfix (by decide))

lemma scan_instruction {body : List Char} (h : ¬ ['?', '>'] <:+: '?' :: body)
    (names : List (List Char)) (place : Nat) (chars rest : List Char) :
    ∃ place', scan names place (.inText chars) ("<?".toList ++ body ++ "?>".toList ++ rest) =
      prepend (textEvents chars ++ [.aside]) (scan names place' (.inText []) rest) := by
  obtain ⟨place₁, hbody⟩ := scan_collect names
    (fun s => .inInstruction (s.reverse ++ ['?'])) (s := body ++ ['?'])
    (fun early c late hs place rest => by
      refine ⟨place + c.utf8Size, ?_⟩
      rw [scan, if_neg (instruction_goes_on h hs)]
      simp)
    (place + 1 + 1) ('>' :: rest)
  have htext : "<?".toList ++ body ++ "?>".toList ++ rest =
      '<' :: '?' :: (body ++ ['?'] ++ '>' :: rest) := by simp
  have hread : readInstruction ((body ++ ['?']).reverse ++ ['?']).reverse = .ok .aside := by
    simp [readInstruction]
  refine ⟨place₁ + 1, ?_⟩
  rw [htext, scan, if_pos rfl, scan, if_neg (by decide), if_pos rfl]
  show prepend _ (scan names _ (.inInstruction (List.reverse [] ++ ['?'])) _) = _
  rw [hbody, scan, if_pos (by simp), hread, proceed, prepend_prepend]

lemma adds_comment {body : List Char} (h : ¬ ['-', '-', '>'] <:+: body) :
    Adds ("<!--".toList ++ body ++ "-->".toList) [.aside] .aside where
  opens := rfl
  scans := scan_comment h
  grows _ _ := rfl

lemma adds_instruction {body : List Char} (h : ¬ ['?', '>'] <:+: '?' :: body) :
    Adds ("<?".toList ++ body ++ "?>".toList) [.aside] .aside where
  opens := rfl
  scans := scan_instruction h
  grows _ _ := rfl

/-! ### Elements -/

/-- The tag of a text that is one element. -/
def elementTag? (piece : String) : Option Tag :=
  match piece.toList, events piece with
  | '<' :: _, (events, .done) =>
    match standing [] [] events with
    | ([], [.empty tag]) => some tag
    | ([], [.element tag _]) => some tag
    | _ => none
  | _, _ => none

/-- The full names of open elements. -/
def fullNames (opened : List OpenElement) : List (List Char) := opened.map (·.1.name.toList)

lemma fullNames_standing {opened : List OpenElement} {events : List Event}
    {names : List (List Char)} (h : openNames? (fullNames opened) events = some names)
    (nodes : List Node) : fullNames (standing opened nodes events).1 = names := by
  induction events generalizing opened nodes with
  | nil => exact Option.some.inj h
  | cons event events ih =>
    cases event with
    | start tag => exact @ih ((tag, nodes) :: opened) h _
    | close =>
      cases opened with
      | nil => cases h
      | cons e opened => exact @ih opened h _
    | _ => exact ih h _

/-- Events of a scan are cut off nowhere. -/
lemma uncut_standing {opened : List OpenElement} {nodes : List Node}
    (hopened : ∀ e ∈ opened, cutAmong? e.2 = none) (hnodes : cutAmong? nodes = none)
    (events : List Event) : (∀ e ∈ (standing opened nodes events).1, cutAmong? e.2 = none) ∧
      cutAmong? (standing opened nodes events).2 = none := by
  induction events generalizing opened nodes with
  | nil => exact ⟨hopened, hnodes⟩
  | cons event events ih =>
    cases event with
    | start tag => exact ih (List.forall_mem_cons.2 ⟨hnodes, hopened⟩) rfl
    | close =>
      cases opened with
      | nil => exact ih hopened hnodes
      | cons e opened =>
        obtain ⟨hbefore, houter⟩ := List.forall_mem_cons.1 hopened
        have hchildren : cutAmong? nodes.reverse = none := by
          rw [cutAmong?_eq_none_iff] at hnodes ⊢
          exact fun node hnode => hnodes node (List.mem_reverse.1 hnode)
        exact ih houter (by simp [cutAmong?, cutIn?, hchildren, hbefore])
    | _ => exact ih hopened (by simpa [cutAmong?, cutIn?] using hnodes)

/-- Open elements within further ones, the outermost of them behind further nodes. -/
def embed (outer : List OpenElement) (before : List Node) : List OpenElement → List OpenElement
  | [] => outer
  | [(tag, earlier)] => (tag, earlier ++ before) :: outer
  | e :: e' :: opened => e :: embed outer before (e' :: opened)

/-- The innermost nodes stand behind further ones if they are in no element. -/
def embedNodes (before : List Node) : List OpenElement → List Node → List Node
  | [], nodes => nodes ++ before
  | _ :: _, nodes => nodes

/-- Events that close no more than they open lead to the same within further elements and behind
further nodes. -/
lemma standing_embed (outer : List OpenElement) (before : List Node)
    {opened : List OpenElement} {events : List Event} {names : List (List Char)}
    (h : openNames? (fullNames opened) events = some names) (nodes : List Node) :
    standing (embed outer before opened) (embedNodes before opened nodes) events =
      (embed outer before (standing opened nodes events).1,
        embedNodes before (standing opened nodes events).1 (standing opened nodes events).2) := by
  have hpush (opened : List OpenElement) (node : Node) (nodes : List Node) :
      node :: embedNodes before opened nodes = embedNodes before opened (node :: nodes) := by
    cases opened <;> rfl
  induction events generalizing opened nodes with
  | nil => rfl
  | cons event events ih =>
    cases event with
    | text raw | literal raw | empty tag | aside =>
      rw [standing, standing, hpush]
      exact ih h _
    | start tag =>
      have hopen : (tag, embedNodes before opened nodes) :: embed outer before opened =
          embed outer before ((tag, nodes) :: opened) := by
        cases opened <;> rfl
      rw [standing, standing, hopen]
      exact @ih ((tag, nodes) :: opened) h []
    | close =>
      match opened with
      | [] => cases h
      | [(tag, earlier)] => exact @ih [] h (.element tag nodes.reverse :: earlier)
      | (tag, earlier) :: e :: opened =>
        exact @ih (e :: opened) h (.element tag nodes.reverse :: earlier)

lemma elementTag?_eq_some {piece : String} {tag : Tag} (h : elementTag? piece = some tag) :
    ∃ s node, piece.toList = '<' :: s ∧ (events piece).2 = .done ∧
      standing [] [] (events piece).1 = ([], [node]) ∧
      (node = .empty tag ∨ ∃ children, node = .element tag children) := by
  unfold elementTag? at h
  split at h
  case h_1 s found hpiece hevents =>
    rw [hevents]
    split at h
    case h_1 hstanding =>
      obtain rfl := Option.some.inj h
      exact ⟨s, _, hpiece, rfl, hstanding, Or.inl rfl⟩
    case h_2 children hstanding =>
      obtain rfl := Option.some.inj h
      exact ⟨s, _, hpiece, rfl, hstanding, Or.inr ⟨children, rfl⟩⟩
    case h_3 => cases h
  case h_2 => cases h

/-- A text that is one element adds that element wherever it stands. -/
lemma adds_element {piece : String} {tag : Tag} (h : elementTag? piece = some tag) :
    ∃ events node, Adds piece.toList events node ∧
      (node = .empty tag ∨ ∃ children, node = .element tag children ∧
        cutAmong? children = none) := by
  obtain ⟨s, node, hpiece, hdone, hstanding, hnode⟩ := elementTag?_eq_some h
  have hevents : events piece = scan [] 0 (.inText []) ('<' :: s) := by
    rw [Markup.events, hpiece]
    rfl
  rw [hevents] at hdone hstanding
  obtain ⟨chars, events, names, hscanned, hnest, hwithin⟩ := scan_within hdone
  -- the text ends with the tag of the element, so that nothing is left behind it
  obtain rfl : chars = [] := by
    rw [hscanned, standing_append] at hstanding
    by_contra hchars
    have hlast : textEvents chars = [.text (String.ofList chars.reverse)] := by
      rw [textEvents, if_neg (by simpa using hchars)]
    rw [hlast] at hstanding
    obtain ⟨-, hnodes⟩ := Prod.mk.inj hstanding
    obtain ⟨rfl, -⟩ := List.cons.inj hnodes
    rcases hnode with hnode | ⟨children, hnode⟩ <;> cases hnode
  rw [hscanned, textEvents_nil, List.append_nil] at hstanding
  obtain rfl : [] = names := by
    have hnames := @fullNames_standing [] _ _ hnest []
    rwa [hstanding] at hnames
  refine ⟨events, node, ⟨by rw [hpiece]; rfl, fun names place chars rest => ?_,
    fun opened nodes => ?_⟩, ?_⟩
  · obtain ⟨place', hrest⟩ := hwithin names place
    refine ⟨place', ?_⟩
    rw [List.nil_append] at hrest
    rw [hpiece, List.cons_append, scan_bracket, ← List.cons_append, hrest, prepend_prepend]
  · have hembed := @standing_embed opened nodes [] _ _ hnest []
    rw [hstanding] at hembed
    exact hembed
  · have huncut := (@uncut_standing [] [] (List.forall_mem_nil _) rfl events).2
    rw [hstanding] at huncut
    rcases hnode with hempty | ⟨children, rfl⟩
    · exact Or.inl hempty
    · exact Or.inr ⟨children, rfl, by simpa [cutAmong?, cutIn?] using huncut⟩

end RenderLayout.Markup
