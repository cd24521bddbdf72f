import RenderLayout.Markup.Element
import RenderLayout.Markup.Node
import RenderLayout.Proofs.Outcome
import RenderLayout.Proofs.Tables
import RenderLayout.Proofs.WrittenTags

/-!
Elements survive as markup.

The scan of a written element gives its events and stands behind it, in text; the events grow back
into the element. So the nodes of a written element are that element, and its tag has the attributes
that were written.
-/

namespace RenderLayout.Markup

/-! ### Characters -/

lemma not_mem_of_isNameChar {c : Char} {marks : List Char} (h : isNameChar c = true)
    (hmarks : marks.any isNameChar = false) : c ∉ marks := fun hmem =>
  absurd h (by simpa using List.any_eq_false.1 hmarks c hmem)

lemma not_isBlank_of_isNameChar {c : Char} (h : isNameChar c = true) : (!isBlank c) = true := by
  have hblanks : c ∉ [' ', '\t', '\n', '\r'] := not_mem_of_isNameChar h (by decide)
  simp only [List.mem_cons, List.not_mem_nil, or_false, not_or] at hblanks
  simp [isBlank, hblanks]

/-- The characters that end a text or a value. -/
def textMarks : List Char := ['<', '"', '\x27']

lemma not_mem_textMarks {c d : Char} (h : d ∈ escapeChar c) : d ∉ textMarks := by
  have hname : ∀ s : List Char, s.any (textMarks.contains ·) = false → d ∈ s → d ∉ textMarks :=
    fun s hs hd => by simpa using List.any_eq_false.1 hs d hd
  unfold escapeChar at h
  split at h
  · exact hname "&lt;".toList (by decide) h
  split at h
  · exact hname "&gt;".toList (by decide) h
  split at h
  · exact hname "&amp;".toList (by decide) h
  split at h
  · exact hname "&apos;".toList (by decide) h
  split at h
  · exact hname "&quot;".toList (by decide) h
  · rename_i hlt _ _ hapos hquot
    obtain rfl := List.mem_singleton.1 h
    simp [textMarks, hlt, hapos, hquot]

lemma escaped_not_mem {s : List Char} {c : Char} (h : c ∈ textMarks) :
    c ∉ s.flatMap escapeChar := by
  intro hc
  obtain ⟨d, -, hd⟩ := List.mem_flatMap.1 hc
  exact not_mem_textMarks hd h

/-! ### Start tags -/

/-- The tag that is read from a start tag. -/
def Opening.tag (opening : Opening) : Tag := ⟨opening.name.text, String.ofList opening.rest⟩

lemma Name.text_ne_empty (name : Name) : name.text ≠ "" := fun h =>
  name.ne_nil (String.toList_eq_nil_iff.2 h)

/-- An attribute of a start tag, its value in quotation marks. -/
def quotedAttribute (a : Name × String) : WrittenAttribute where
  key := a.1.text
  raw := escape a.2
  key_ne_empty := a.1.text_ne_empty
  key_chars := List.all_eq_true.2 fun c hc => by
    have hchar := a.1.isNameChar_of_mem hc
    have hmarks : c ∉ ['=', '>', '"', '\x27'] := not_mem_of_isNameChar hchar (by decide)
    simpa [isKeyChar, hmarks] using not_isBlank_of_isNameChar hchar
  gaps_blank := allBlank_nil_and_nil
  mark_quotes := doubleQuote_mem
  raw_unmarked := by
    rw [escape, String.toList_ofList]
    exact escaped_not_mem (by decide)

/-- A start tag as it is written: its attributes stand behind a blank each. -/
def Opening.writtenTag (opening : Opening) : WrittenTag where
  name := opening.name.text
  attributes := opening.attributes.map fun a => ([' '], quotedAttribute a)
  name_ne_empty := opening.name.text_ne_empty
  name_chars := List.all_eq_true.2 fun c hc => by
    have hchar := opening.name.isNameChar_of_mem hc
    have hmarks : c ∉ ['>', '"', '\x27', '/'] := not_mem_of_isNameChar hchar (by decide)
    simpa [isTagNameChar, hmarks] using not_isBlank_of_isNameChar hchar
  name_first := by
    cases hfirst : opening.name.text.toList.head? with
    | none => rfl
    | some first =>
      have hmarks : first ∉ ['!', '?'] := not_mem_of_isNameChar
        (opening.name.isNameChar_of_mem (List.mem_of_head? hfirst)) (by decide)
      simpa using hmarks
  blanks := by
    refine ⟨List.all_eq_true.2 fun c hc => ?_, rfl⟩
    rw [List.flatMap_map] at hc
    obtain ⟨a, -, hc⟩ := List.mem_flatMap.1 hc
    rw [List.mem_singleton.1 hc]
    rfl
  first_blank := by cases opening.attributes <;> rfl
  nodup := by
    rw [List.map_map]
    exact opening.nodup

lemma chars_quotedAttribute (a : Name × String) :
    [' '] ++ (quotedAttribute a).chars = attributeChars a := by
  simp [quotedAttribute, WrittenAttribute.chars, attributeChars, escape]

lemma rest_writtenTag (opening : Opening) : opening.writtenTag.rest = opening.rest := by
  rw [WrittenTag.rest, Opening.writtenTag, List.flatMap_map, List.append_nil]
  simp only [chars_quotedAttribute]
  rfl

lemma tag_writtenTag (opening : Opening) : opening.writtenTag.tag = opening.tag := by
  rw [WrittenTag.tag, rest_writtenTag]
  rfl

lemma text_writtenTag (opening : Opening) :
    opening.writtenTag.text.toList = '<' :: opening.content ++ ['>'] := by
  rw [WrittenTag.text, rest_writtenTag, String.toList_ofList]
  show '<' :: (opening.name.text.toList ++ opening.rest ++ []) ++ ['>'] = _
  rw [List.append_nil, Opening.content]

lemma scan_opening (opening : Opening) (names : List (List Char)) (place : Nat)
    (chars rest : List Char) :
    ∃ place', scan names place (.inText chars) ('<' :: opening.content ++ '>' :: rest) =
      prepend (textEvents chars ++ [.start opening.tag])
        (scan (opening.name.text.toList :: names) place' (.inText []) rest) := by
  have hscan := opening.writtenTag.scan_text names place chars rest
  rw [text_writtenTag, List.append_assoc, WrittenTag.event, tag_writtenTag] at hscan
  exact hscan

/-! ### End tags -/

lemma staysInTag_name (name : Name) : StaysInTag name.text.toList :=
  staysInTag_of_unmarked fun c hc =>
    not_mem_of_isNameChar (name.isNameChar_of_mem hc) (by decide)

lemma exists_last (name : Name) :
    ∃ others last, name.text.toList = others ++ [last] ∧ isNameChar last = true := by
  obtain ⟨others, last, h⟩ := (List.eq_nil_or_concat name.text.toList).resolve_left name.ne_nil
  rw [List.concat_eq_append] at h
  exact ⟨others, last, h, name.isNameChar_of_mem (by simp [h])⟩

lemma endName_name (name : Name) : endName name.text.toList = name.text.toList := by
  obtain ⟨others, last, hname, hlast⟩ := exists_last name
  have hblank := not_isBlank_of_isNameChar hlast
  have hself : (name.text.toList.reverse.dropWhile isBlank).reverse = name.text.toList := by
    rw [hname, List.reverse_append, List.reverse_singleton, List.singleton_append,
      List.dropWhile_cons_of_neg (by simpa using hblank), List.reverse_cons, List.reverse_reverse]
  unfold endName
  rw [hself]
  split
  · rfl
  · rfl

lemma readTag_name (names : List (List Char)) (name : Name) :
    readTag (name.text.toList :: names) ('/' :: name.text.toList) = .ok (.close, names) := by
  simp only [readTag, endName_name, if_true]

lemma scan_closing (name : Name) (names : List (List Char)) (place : Nat)
    (chars rest : List Char) :
    ∃ place', scan (name.text.toList :: names) place (.inText chars)
        ('<' :: '/' :: name.text.toList ++ '>' :: rest) =
      prepend (textEvents chars ++ [.close]) (scan names place' (.inText []) rest) :=
  scan_tag (by decide) (staysInTag_name name) (readTag_name names name) place chars rest

/-! ### Elements -/

/-- The text at the start of an element, as it is written. -/
def textNodes (text : String) : List Node := if text = "" then [] else [.text (escape text)]

mutual

/-- The node of an element. -/
def Element.node : Element → Node
  | .mk opening text children => .element opening.tag (textNodes text ++ nodesOf children)

def Element.nodesOf : List Element → List Node
  | [] => []
  | element :: elements => element.node :: nodesOf elements

end

mutual

/-- The events of an element. -/
def Element.events : Element → List Event
  | .mk opening text children =>
    .start opening.tag :: textEvents (text.toList.flatMap escapeChar).reverse ++
      eventsOf children ++ [.close]

def Element.eventsOf : List Element → List Event
  | [] => []
  | element :: elements => element.events ++ eventsOf elements

end

lemma textEvents_nil : textEvents [] = [] := rfl

/-- At a bracket the text before it is done. -/
lemma scan_bracket (names : List (List Char)) (place : Nat) (chars rest : List Char) :
    scan names place (.inText chars) ('<' :: rest) =
      prepend (textEvents chars) (scan names place (.inText []) ('<' :: rest)) := by
  rw [scan, if_pos rfl, scan, if_pos rfl, prepend_prepend, textEvents_nil, List.append_nil]

lemma scan_text {s : List Char} (h : '<' ∉ s) (names : List (List Char)) :
    ∀ place chars rest, ∃ place', scan names place (.inText chars) (s ++ rest) =
      scan names place' (.inText (s.reverse ++ chars)) rest := by
  refine collect fun c hc place chars rest => ⟨place + c.utf8Size, ?_⟩
  rw [scan, if_neg (ne_of_mem_of_not_mem hc h)]

lemma scan_charsOf (elements : List Element) (names : List (List Char)) (place : Nat)
    (chars rest : List Char) :
    scan names place (.inText chars) (Element.charsOf elements ++ '<' :: rest) =
      prepend (textEvents chars)
        (scan names place (.inText []) (Element.charsOf elements ++ '<' :: rest)) := by
  cases elements with
  | nil => exact scan_bracket names place chars rest
  | cons element elements =>
    obtain ⟨opening, text, children⟩ := element
    simp only [Element.charsOf, Element.chars, List.cons_append]
    exact scan_bracket names place chars _

lemma chars_append (opening : Opening) (text : String) (children : List Element)
    (rest : List Char) :
    (Element.mk opening text children).chars ++ rest =
      '<' :: opening.content ++ '>' :: (text.toList.flatMap escapeChar ++
        (Element.charsOf children ++ '<' :: ('/' :: opening.name.text.toList ++ '>' :: rest))) := by
  simp [Element.chars]

mutual

/-- A scan in text reads an element and stands behind it in text. -/
lemma scan_element (element : Element) (names : List (List Char)) (place : Nat)
    (rest : List Char) :
    ∃ place', scan names place (.inText []) (element.chars ++ rest) =
      prepend element.events (scan names place' (.inText []) rest) := by
  obtain ⟨opening, text, children⟩ := element
  obtain ⟨place₁, hopening⟩ := scan_opening opening names place []
    (text.toList.flatMap escapeChar ++ (Element.charsOf children ++
      '<' :: ('/' :: opening.name.text.toList ++ '>' :: rest)))
  obtain ⟨place₂, htext⟩ := scan_text (s := text.toList.flatMap escapeChar)
    (escaped_not_mem (by decide)) (opening.name.text.toList :: names) place₁ []
    (Element.charsOf children ++ '<' :: ('/' :: opening.name.text.toList ++ '>' :: rest))
  obtain ⟨place₃, hchildren⟩ := scan_elements children (opening.name.text.toList :: names) place₂
    ('<' :: ('/' :: opening.name.text.toList ++ '>' :: rest))
  obtain ⟨place', hclosing⟩ := scan_closing opening.name names place₃ [] rest
  refine ⟨place', ?_⟩
  rw [chars_append, hopening, htext, scan_charsOf, hchildren]
  rw [List.cons_append, List.cons_append] at hclosing
  rw [List.cons_append, hclosing, prepend_prepend, prepend_prepend, prepend_prepend]
  simp only [Element.events, textEvents_nil, List.append_nil, List.nil_append, List.cons_append,
    List.append_assoc]

lemma scan_elements (elements : List Element) (names : List (List Char)) (place : Nat)
    (rest : List Char) :
    ∃ place', scan names place (.inText []) (Element.charsOf elements ++ rest) =
      prepend (Element.eventsOf elements) (scan names place' (.inText []) rest) := by
  cases elements with
  | nil => exact ⟨place, rfl⟩
  | cons element elements =>
    obtain ⟨place₁, hfirst⟩ := scan_element element names place (Element.charsOf elements ++ rest)
    obtain ⟨place', hothers⟩ := scan_elements elements names place₁ rest
    refine ⟨place', ?_⟩
    rw [Element.charsOf, List.append_assoc, hfirst, hothers, prepend_prepend, Element.eventsOf]

end

lemma escapeChar_ne_nil (c : Char) : escapeChar c ≠ [] := by
  unfold escapeChar
  repeat' split
  all_goals simp

/-- The text of an element grows into its node, if there is one. -/
lemma grow_text (ending : Ending) (opened : List OpenElement) (nodes : List Node) (text : String)
    (rest : List Event) :
    grow ending opened nodes (textEvents (text.toList.flatMap escapeChar).reverse ++ rest) =
      grow ending opened ((textNodes text).reverse ++ nodes) rest := by
  unfold textNodes
  split
  case isTrue h =>
    rw [h]
    rfl
  case isFalse h =>
    have hne : text.toList.flatMap escapeChar ≠ [] := by
      intro hnil
      rw [List.flatMap_eq_nil_iff] at hnil
      refine h (String.toList_eq_nil_iff.1 (List.eq_nil_iff_forall_not_mem.2 fun c hc => ?_))
      exact escapeChar_ne_nil c (hnil c hc)
    rw [textEvents, if_neg (by simpa using hne), List.reverse_reverse]
    rfl

mutual

/-- The events of an element grow into its node. -/
lemma grow_element (element : Element) (ending : Ending) (opened : List OpenElement)
    (nodes : List Node) (rest : List Event) :
    grow ending opened nodes (element.events ++ rest) =
      grow ending opened (element.node :: nodes) rest := by
  obtain ⟨opening, text, children⟩ := element
  rw [Element.events, List.append_assoc, List.append_assoc, List.cons_append, grow, grow_text,
    grow_elements, List.singleton_append, grow, Element.node]
  simp

lemma grow_elements (elements : List Element) (ending : Ending) (opened : List OpenElement)
    (nodes : List Node) (rest : List Event) :
    grow ending opened nodes (Element.eventsOf elements ++ rest) =
      grow ending opened ((Element.nodesOf elements).reverse ++ nodes) rest := by
  cases elements with
  | nil => rfl
  | cons element elements =>
    rw [Element.eventsOf, List.append_assoc, grow_element element, grow_elements elements,
      Element.nodesOf, List.reverse_cons, List.append_assoc]
    rfl

end

/-- **The nodes of a written element are the element and the end of the text.** -/
theorem nodes_markup (element : Element) :
    nodes element.markup = [element.node, .cut .done] := by
  obtain ⟨place', h⟩ := scan_element element [] 0 []
  have hmark : dropMark element.chars = element.chars := by
    obtain ⟨opening, text, children⟩ := element
    simp only [Element.chars, List.cons_append]
    rfl
  unfold nodes events Element.markup
  rw [String.toList_ofList, hmark]
  rw [List.append_nil] at h
  rw [h]
  show grow .done [] [] (element.events ++ []) = _
  rw [grow_element]
  rfl

/-! ### Attributes -/

/-- An attribute as it is written. -/
def written (a : Name × String) : Attribute := ⟨a.1.text, escape a.2⟩

lemma localPart_name (name : Name) : localPart name.text.toList = name.text.toList := by
  have hcolon : name.text.toList.dropWhile (· ≠ ':') = [] := by
    rw [List.dropWhile_eq_nil_iff]
    intro c hc
    have hcolon : c ∉ [':'] := not_mem_of_isNameChar (name.isNameChar_of_mem hc) (by decide)
    simpa using hcolon
  unfold localPart
  rw [hcolon]

lemma localName_tag (opening : Opening) : opening.tag.localName = opening.name.text := by
  rw [Tag.localName, Opening.tag, localPart_name, String.ofList_toList]

/-- The names of the attributes of a start tag with their values. -/
def Opening.pairs (opening : Opening) : List (String × String) :=
  opening.attributes.map fun a => (a.1.text, a.2)

def Opening.values (opening : Opening) : Table String := .ofList opening.pairs

lemma find?_values {opening : Opening} {key value : String} (h : (key, value) ∈ opening.pairs) :
    opening.values.find? key = some value := by
  refine Table.find?_insertAll_of_mem .empty h ?_
  rw [Opening.pairs, List.map_map]
  exact opening.nodup

/-- **A start tag has the attributes that were written.** -/
theorem attributes_tag (opening : Opening) : opening.tag.attributes = .ok opening.values := by
  have hscan : opening.tag.scan = (opening.attributes.map written, none) := by
    rw [← tag_writtenTag, opening.writtenTag.scan_tag, WrittenTag.written, Opening.writtenTag,
      List.map_map, List.map_map]
    rfl
  have hvalues : (opening.attributes.map written).mapM (fun a : Attribute => do
      return (String.ofList (localPart a.key.toList), ← a.value)) =
      (.ok opening.pairs : Except TagFault (List (String × String))) := by
    rw [mapM_eq_ok_iff, Opening.pairs, List.forall₂_map_left_iff, List.forall₂_map_right_iff,
      List.forall₂_same]
    intro a _
    simp [written, Attribute.value, unescape_escape, localPart_name, Except.mapError, bind,
      Except.bind, pure, Except.pure]
  unfold Tag.attributes
  rw [hscan]
  dsimp only
  rw [hvalues]
  rfl

end RenderLayout.Markup
