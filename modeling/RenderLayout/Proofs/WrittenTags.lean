import Mathlib.Data.List.Nodup
import Mathlib.Data.List.TakeWhile
import Mathlib.Tactic.Common
import RenderLayout.Markup.Event

/-!
Start tags and empty tags as they may be written.

A tag is written with any keys, any marks around its values and any blanks where blanks may stand.
Whatever these are, one event comes of the tag, and its attributes are those that were written, in
their order.
-/

namespace RenderLayout.Markup

/-- A run that collects each character of a text comes to its end with the whole text. -/
lemma collect {σ R : Type} {run : Nat → σ → List Char → R} {state : List Char → σ} {s : List Char}
    (hstep : ∀ c ∈ s, ∀ place chars rest, ∃ place', run place (state chars) (c :: rest) =
      run place' (state (c :: chars)) rest) (place : Nat) (chars rest : List Char) :
    ∃ place', run place (state chars) (s ++ rest) =
      run place' (state (s.reverse ++ chars)) rest := by
  induction s generalizing place chars with
  | nil => exact ⟨place, rfl⟩
  | cons c s ih =>
    obtain ⟨place₁, hc⟩ := hstep c List.mem_cons_self place chars (s ++ rest)
    obtain ⟨place', hs⟩ := ih (fun d hd => hstep d (List.mem_cons_of_mem c hd)) place₁ (c :: chars)
    refine ⟨place', ?_⟩
    rw [List.cons_append, hc, hs, List.reverse_cons, List.append_assoc]
    rfl

/-! ### The scan of a tag -/

/-- A scan that is within a tag comes to the end of the text within it. -/
def StaysInTag (s : List Char) : Prop :=
  ∀ names place chars rest, ∃ place', scan names place (.inTag none chars) (s ++ rest) =
    scan names place' (.inTag none (s.reverse ++ chars)) rest

lemma StaysInTag.append {s t : List Char} (hs : StaysInTag s) (ht : StaysInTag t) :
    StaysInTag (s ++ t) := by
  intro names place chars rest
  obtain ⟨middle, hs⟩ := hs names place chars (t ++ rest)
  obtain ⟨place', ht⟩ := ht names middle (s.reverse ++ chars) rest
  refine ⟨place', ?_⟩
  rw [List.append_assoc, hs, ht, List.reverse_append, List.append_assoc]

lemma staysInTag_nil : StaysInTag [] := fun _ place _ _ => ⟨place, rfl⟩

lemma staysInTag_of_unmarked {s : List Char} (h : ∀ c ∈ s, c ∉ ['>', '"', '\x27']) :
    StaysInTag s := by
  refine fun names => collect fun c hc place chars rest => ⟨place + c.utf8Size, ?_⟩
  have hmarks := h c hc
  simp only [List.mem_cons, List.not_mem_nil, or_false, not_or] at hmarks
  rw [scan, if_neg hmarks.1, if_neg (not_or.2 hmarks.2)]

lemma staysInTag_singleton {c : Char} (h : c ∉ ['>', '"', '\x27']) : StaysInTag [c] :=
  staysInTag_of_unmarked fun d hd => by rwa [List.mem_singleton.1 hd]

/-- Within quotation marks nothing else ends a tag. -/
lemma scan_inMarks {s : List Char} {mark : Char} (h : mark ∉ s) (names : List (List Char)) :
    ∀ place chars rest, ∃ place', scan names place (.inTag (some mark) chars) (s ++ rest) =
      scan names place' (.inTag (some mark) (s.reverse ++ chars)) rest := by
  refine collect fun c hc place chars rest => ⟨place + c.utf8Size, ?_⟩
  rw [scan, if_neg (ne_of_mem_of_not_mem hc h)]

lemma prepend_prepend (events others : List Event) (scanned : List Event × Ending) :
    prepend events (prepend others scanned) = prepend (events ++ others) scanned := by
  simp [prepend]

/-- A tag is read at its end, if what stands in it stays within it. -/
lemma scan_tag {names names' : List (List Char)} {first : Char} {content : List Char}
    {event : Event} (hfirst : first ∉ ['!', '?', '>', '"', '\x27']) (hcontent : StaysInTag content)
    (hread : readTag names (first :: content) = .ok (event, names')) (place : Nat)
    (chars rest : List Char) :
    ∃ place', scan names place (.inText chars) ('<' :: first :: content ++ '>' :: rest) =
      prepend (textEvents chars ++ [event]) (scan names' place' (.inText []) rest) := by
  simp only [List.mem_cons, List.not_mem_nil, or_false, not_or] at hfirst
  obtain ⟨hbang, hquery, hend, hmarks⟩ := hfirst
  obtain ⟨place', hs⟩ := hcontent names (place + 1 + first.utf8Size) [first] ('>' :: rest)
  refine ⟨place' + 1, ?_⟩
  rw [List.cons_append, List.cons_append, scan, if_pos rfl, scan, if_neg hbang, if_neg hquery,
    if_neg hend, if_neg (not_or.2 hmarks), hs, scan, if_pos rfl, List.reverse_append,
    List.reverse_reverse, List.reverse_singleton, List.singleton_append, hread]
  exact prepend_prepend _ _ _

/-! ### Blanks -/

/-- Blanks of the markup grammar only. -/
def AllBlank (s : List Char) : Prop := s.all isBlank = true

lemma AllBlank.isBlank_of_mem {s : List Char} (h : AllBlank s) {c : Char} (hc : c ∈ s) :
    isBlank c = true := List.all_eq_true.1 h c hc

lemma allBlank_nil_and_nil : AllBlank [] ∧ AllBlank [] := ⟨rfl, rfl⟩

/-! ### Attributes -/

/-- A character that may stand in a key. -/
def isKeyChar (c : Char) : Bool := !isBlank c && !(['=', '>', '"', '\x27'].contains c)

/-- An attribute as it is written: blanks may stand around its equals sign. -/
structure WrittenAttribute where
  key : String
  /-- The blanks before and behind the equals sign. -/
  gaps : List Char × List Char := ([], [])
  mark : Char := '"'
  raw : String
  key_ne_empty : key ≠ "" := by decide
  key_chars : key.toList.all isKeyChar = true := by decide
  gaps_blank : AllBlank gaps.1 ∧ AllBlank gaps.2 := by exact ⟨rfl, rfl⟩
  mark_quotes : mark ∈ ['"', '\x27'] := by decide
  raw_unmarked : mark ∉ raw.toList := by decide

namespace WrittenAttribute

variable (a : WrittenAttribute)

def chars : List Char :=
  a.key.toList ++ (a.gaps.1 ++ '=' :: (a.gaps.2 ++ a.mark :: (a.raw.toList ++ [a.mark])))

lemma key_ne_nil : a.key.toList ≠ [] := fun h => a.key_ne_empty (String.toList_eq_nil_iff.1 h)

/-- What is read of the attribute. -/
def read : Attribute := ⟨a.key, a.raw⟩

end WrittenAttribute

lemma doubleQuote_mem : '"' ∈ ['"', '\x27'] := List.mem_cons_self

lemma WrittenAttribute.of_mem_key (a : WrittenAttribute) {c : Char} (h : c ∈ a.key.toList) :
    isBlank c = false ∧ c ∉ ['=', '>', '"', '\x27'] := by
  have hchar := List.all_eq_true.1 a.key_chars c h
  simpa [isKeyChar] using hchar

lemma AllBlank.staysInTag {s : List Char} (h : AllBlank s) : StaysInTag s := by
  refine staysInTag_of_unmarked fun c hc hmem => ?_
  have hblank := h.isBlank_of_mem hc
  simp only [List.mem_cons, List.not_mem_nil, or_false] at hmem
  obtain rfl | rfl | rfl := hmem <;> cases hblank

lemma staysInTag_marked {mark : Char} {s : List Char} (hmark : mark ∈ ['"', '\x27'])
    (h : mark ∉ s) : StaysInTag (mark :: (s ++ [mark])) := by
  intro names place chars rest
  obtain ⟨place', hs⟩ := scan_inMarks h names (place + mark.utf8Size) (mark :: chars) (mark :: rest)
  have hquotes : mark = '"' ∨ mark = '\x27' := by simpa using hmark
  have hbracket : mark ≠ '>' := by
    rintro rfl
    exact absurd hmark (by decide)
  refine ⟨place' + mark.utf8Size, ?_⟩
  rw [List.cons_append, List.append_assoc, List.singleton_append, scan, if_neg hbracket,
    if_pos hquotes, hs, scan, if_pos rfl]
  simp

lemma WrittenAttribute.getLast?_chars (a : WrittenAttribute) : a.chars.getLast? = some a.mark := by
  have hsplit : a.chars =
      (a.key.toList ++ (a.gaps.1 ++ '=' :: (a.gaps.2 ++ a.mark :: a.raw.toList))) ++ [a.mark] := by
    simp [chars]
  rw [hsplit, List.getLast?_concat]

lemma WrittenAttribute.staysInTag (a : WrittenAttribute) : StaysInTag a.chars := by
  have hkey : StaysInTag a.key.toList := staysInTag_of_unmarked fun c hc hmem =>
    (a.of_mem_key hc).2 (List.mem_cons_of_mem _ hmem)
  exact hkey.append (a.gaps_blank.1.staysInTag.append
    ((staysInTag_singleton (by decide)).append (a.gaps_blank.2.staysInTag.append
      (staysInTag_marked a.mark_quotes a.raw_unmarked))))

/-! ### The scan of attributes -/

lemma scanAttributes_key {s : List Char} (h : ∀ c ∈ s, c ≠ '=' ∧ isBlank c = false)
    (seen : List (List Char × Nat)) (start : Nat) :
    ∀ place key rest, ∃ place', scanAttributes seen place (.inKey start key) (s ++ rest) =
      scanAttributes seen place' (.inKey start (s.reverse ++ key)) rest := by
  refine collect fun c hc place key rest => ⟨place + c.utf8Size, ?_⟩
  rw [scanAttributes, if_neg (h c hc).1, (h c hc).2, if_neg (by decide)]

lemma scanAttributes_value {s : List Char} {mark : Char} (h : mark ∉ s)
    (seen : List (List Char × Nat)) (key : List Char) :
    ∀ place value rest, ∃ place',
      scanAttributes seen place (.inValue key mark value) (s ++ rest) =
        scanAttributes seen place' (.inValue key mark (s.reverse ++ value)) rest := by
  refine collect fun c hc place value rest => ⟨place + c.utf8Size, ?_⟩
  rw [scanAttributes, if_neg (ne_of_mem_of_not_mem hc h)]

lemma scanAttributes_blanks {s : List Char} (h : AllBlank s) (seen : List (List Char × Nat))
    (place : Nat) (rest : List Char) :
    ∃ place', scanAttributes seen place .between (s ++ rest) =
      scanAttributes seen place' .between rest :=
  @collect _ _ (scanAttributes seen) (fun _ => .between) s (fun c hc place chars rest =>
    ⟨place + 1, by rw [scanAttributes, if_pos (h.isBlank_of_mem hc)]⟩) place [] rest

/-- Behind a key that has not been seen, blanks and an equals sign are followed by a value. -/
lemma scanAttributes_equals {s : List Char} (h : AllBlank s) {seen : List (List Char × Nat)}
    {key : List Char} (hnew : seen.lookup key = none) (start place : Nat) (rest : List Char) :
    ∃ place', scanAttributes seen place (.inKey start key) (s ++ '=' :: rest) =
      scanAttributes ((key, start) :: seen) place' (.beforeValue key) rest := by
  cases s with
  | nil => exact ⟨place + 1, by rw [List.nil_append, scanAttributes, if_pos rfl, hnew]⟩
  | cons c s =>
    have hequals (c : Char) (hc : isBlank c = true) : c ≠ '=' := by
      rintro rfl
      cases hc
    have hblank (d : Char) (hd : d ∈ c :: s) : isBlank d = true := h.isBlank_of_mem hd
    obtain ⟨place', hs⟩ := @collect _ _ (scanAttributes seen) (fun _ => .behindKey start key) s
      (fun c hc place chars rest => ⟨place + 1, by
        have hc := hblank c (List.mem_cons_of_mem _ hc)
        rw [scanAttributes, if_neg (hequals c hc), if_pos hc]⟩)
      (place + 1) [] ('=' :: rest)
    refine ⟨place' + 1, ?_⟩
    have hc := hblank c List.mem_cons_self
    rw [List.cons_append, scanAttributes, if_neg (hequals c hc), if_pos hc, hs, scanAttributes,
      if_pos rfl, hnew]

/-- Behind an equals sign, blanks and a text in marks are the value. -/
lemma scanAttributes_marked {s value : List Char} {mark : Char} (h : AllBlank s)
    (hmark : mark ∈ ['"', '\x27']) (hvalue : mark ∉ value) (seen : List (List Char × Nat))
    (key : List Char) (place : Nat) (rest : List Char) :
    ∃ place', scanAttributes seen place (.beforeValue key) (s ++ mark :: (value ++ mark :: rest)) =
      (⟨String.ofList key.reverse, String.ofList value⟩ ::
          (scanAttributes seen place' .between rest).1,
        (scanAttributes seen place' .between rest).2) := by
  have hquotes : mark = '"' ∨ mark = '\x27' := by simpa using hmark
  have hblank (c : Char) (hc : c ∈ s) : ¬ (c = '"' ∨ c = '\x27') := by
    rintro (rfl | rfl) <;> exact absurd (h.isBlank_of_mem hc) (by decide)
  obtain ⟨place₁, hs⟩ := @collect _ _ (scanAttributes seen) (fun _ => .beforeValue key) s
    (fun c hc place chars rest => ⟨place + 1, by
      rw [scanAttributes, if_neg (hblank c hc), if_pos (h.isBlank_of_mem hc)]⟩)
    place [] (mark :: (value ++ mark :: rest))
  obtain ⟨place₂, hread⟩ := scanAttributes_value hvalue seen key (place₁ + 1) [] (mark :: rest)
  refine ⟨place₂ + 1, ?_⟩
  rw [hs, scanAttributes, if_pos hquotes, hread, scanAttributes, if_pos rfl]
  simp

/-- An attribute is read as it is written, and its key is kept. -/
lemma WrittenAttribute.scanAttributes (a : WrittenAttribute) {seen : List (List Char × Nat)}
    (hnew : seen.lookup a.key.toList.reverse = none) (place : Nat) (rest : List Char) :
    ∃ start place', Markup.scanAttributes seen place .between (a.chars ++ rest) =
      (a.read ::
          (Markup.scanAttributes ((a.key.toList.reverse, start) :: seen) place' .between rest).1,
        (Markup.scanAttributes ((a.key.toList.reverse, start) :: seen) place' .between rest).2) := by
  obtain ⟨first, others, hkey⟩ := List.exists_cons_of_ne_nil a.key_ne_nil
  have hchars (c : Char) (hc : c ∈ first :: others) : c ≠ '=' ∧ isBlank c = false := by
    rw [← hkey] at hc
    obtain ⟨hblank, hmarks⟩ := a.of_mem_key hc
    exact ⟨List.ne_of_not_mem_cons hmarks, hblank⟩
  have hreverse : a.key.toList.reverse = others.reverse ++ [first] := by
    rw [hkey, List.reverse_cons]
  obtain ⟨place₁, hothers⟩ := scanAttributes_key
    (fun c hc => hchars c (List.mem_cons_of_mem first hc)) seen place (place + first.utf8Size)
    [first] (a.gaps.1 ++ '=' :: (a.gaps.2 ++ a.mark :: (a.raw.toList ++ a.mark :: rest)))
  rw [hreverse] at hnew
  obtain ⟨place₂, hequals⟩ := scanAttributes_equals a.gaps_blank.1 hnew place place₁
    (a.gaps.2 ++ a.mark :: (a.raw.toList ++ a.mark :: rest))
  obtain ⟨place₃, hvalue⟩ := scanAttributes_marked a.gaps_blank.2 a.mark_quotes a.raw_unmarked
    ((others.reverse ++ [first], place) :: seen) (others.reverse ++ [first]) place₂ rest
  have htext : a.chars ++ rest = first :: (others ++
      (a.gaps.1 ++ '=' :: (a.gaps.2 ++ a.mark :: (a.raw.toList ++ a.mark :: rest)))) := by
    simp [chars, hkey]
  refine ⟨place, place₃, ?_⟩
  rw [htext, Markup.scanAttributes, (hchars first List.mem_cons_self).2, if_neg Bool.false_ne_true,
    hothers, hequals, hvalue, hreverse, ← hreverse, List.reverse_reverse]
  simp [read]

/-! ### Tags -/

/-- A character that may stand in the name of an element. -/
def isTagNameChar (c : Char) : Bool := !isBlank c && !(['>', '"', '\x27', '/'].contains c)

/-- A start tag or an empty tag as it is written: blanks stand before the first attribute, and may
stand before the others and at the end. No two keys are the same. -/
structure WrittenTag where
  name : String
  /-- The attributes, each with the blanks before it. -/
  attributes : List (List Char × WrittenAttribute) := []
  tail : List Char := []
  /-- Whether there is a slash at the end. -/
  closed : Bool := false
  name_ne_empty : name ≠ "" := by decide
  name_chars : name.toList.all isTagNameChar = true := by decide
  name_first : name.toList.head?.all (fun c => !(['!', '?'].contains c)) = true := by decide
  blanks : AllBlank (attributes.flatMap (·.1)) ∧ AllBlank tail := by exact ⟨rfl, rfl⟩
  first_blank : attributes.head?.all (!·.1.isEmpty) = true := by rfl
  nodup : (attributes.map (·.2.key)).Nodup := by decide

namespace WrittenTag

variable (t : WrittenTag)

lemma name_ne_nil : t.name.toList ≠ [] := fun h => t.name_ne_empty (String.toList_eq_nil_iff.1 h)

lemma of_mem_name {c : Char} (h : c ∈ t.name.toList) :
    isBlank c = false ∧ c ∉ ['>', '"', '\x27', '/'] := by
  have hchar := List.all_eq_true.1 t.name_chars c h
  simpa [isTagNameChar] using hchar

lemma blanks_before {a : List Char × WrittenAttribute} (h : a ∈ t.attributes) : AllBlank a.1 :=
  List.all_eq_true.2 fun _ hc => t.blanks.1.isBlank_of_mem (List.mem_flatMap.2 ⟨a, h, hc⟩)

/-- The attributes that are written. -/
def written : List WrittenAttribute := t.attributes.map (·.2)

/-- What stands behind the name. -/
def rest : List Char := t.attributes.flatMap (fun a => a.1 ++ a.2.chars) ++ t.tail

def text : String :=
  String.ofList ('<' :: (t.name.toList ++ t.rest ++ if t.closed then ['/'] else []) ++ ['>'])

/-- The tag that is read. -/
def tag : Tag := ⟨t.name, String.ofList t.rest⟩

/-- The event that comes of the tag. -/
def event : Event := if t.closed then .empty t.tag else .start t.tag

lemma staysInTag_rest : StaysInTag t.rest := by
  have hattributes {attributes : List (List Char × WrittenAttribute)}
      (h : ∀ a ∈ attributes, AllBlank a.1) :
      StaysInTag (attributes.flatMap fun a => a.1 ++ a.2.chars) := by
    induction attributes with
    | nil => exact staysInTag_nil
    | cons a attributes ih =>
      rw [List.flatMap_cons]
      obtain ⟨ha, hothers⟩ := List.forall_mem_cons.1 h
      exact (ha.staysInTag.append a.2.staysInTag).append (ih hothers)
  exact (hattributes fun _ => t.blanks_before).append t.blanks.2.staysInTag

/-- The name goes up to a blank or to the end. -/
lemma blank_of_head_rest {c : Char} (h : c ∈ t.rest.head?) : isBlank c = true := by
  unfold rest at h
  cases hattributes : t.attributes with
  | nil =>
    rw [hattributes, List.flatMap_nil, List.nil_append] at h
    exact t.blanks.2.isBlank_of_mem (List.mem_of_mem_head? h)
  | cons a attributes =>
    have ha : a ∈ t.attributes := by
      rw [hattributes]
      exact List.mem_cons_self
    have hfirst := t.first_blank
    rw [hattributes, List.head?_cons, Option.all_some, Bool.not_eq_true', List.isEmpty_eq_false_iff]
      at hfirst
    obtain ⟨blank, blanks, hblanks⟩ := List.exists_cons_of_ne_nil hfirst
    rw [hattributes, List.flatMap_cons, hblanks] at h
    obtain rfl := Option.some.inj h
    exact (t.blanks_before ha).isBlank_of_mem (by rw [hblanks]; exact List.mem_cons_self)

lemma ofContent : Tag.ofContent (t.name.toList ++ t.rest) = t.tag := by
  have hname : ∀ c ∈ t.name.toList, (!isBlank c) = true := fun c hc => by
    rw [(t.of_mem_name hc).1]
    rfl
  have hcut : t.rest.takeWhile (!isBlank ·) = [] ∧ t.rest.dropWhile (!isBlank ·) = t.rest := by
    cases hrest : t.rest with
    | nil => exact ⟨rfl, rfl⟩
    | cons c s =>
      have hc := t.blank_of_head_rest (c := c) (by rw [hrest]; rfl)
      simp [hc]
  rw [Tag.ofContent, List.takeWhile_append_of_pos hname, List.dropWhile_append_of_pos hname,
    hcut.1, hcut.2, List.append_nil, String.ofList_toList, tag]

/-- Without a slash behind it, a tag does not end with one. -/
lemma last_ne_slash : (t.name.toList ++ t.rest).getLast? ≠ some '/' := by
  unfold rest
  rcases List.eq_nil_or_concat' t.tail with htail | ⟨blanks, blank, htail⟩
  · rcases List.eq_nil_or_concat' t.attributes with hnil | ⟨attributes, a, hattributes⟩
    · rw [htail, hnil, List.flatMap_nil, List.append_nil, List.append_nil]
      intro hlast
      exact (t.of_mem_name (List.mem_of_getLast? hlast)).2 (by decide)
    · have hmark : a.2.mark ≠ '/' := fun heq => by
        have hquotes := a.2.mark_quotes
        rw [heq] at hquotes
        exact absurd hquotes (by decide)
      rw [htail, hattributes]
      simpa [List.getLast?_append, a.2.getLast?_chars] using hmark
  · have hblank : blank ≠ '/' := fun heq => by
      have hblank := t.blanks.2.isBlank_of_mem (c := blank) (by simp [htail])
      rw [heq] at hblank
      cases hblank
    rw [htail]
    simpa [List.getLast?_append] using hblank

lemma readTag (names : List (List Char)) :
    Markup.readTag names (t.name.toList ++ t.rest ++ if t.closed then ['/'] else []) =
      .ok (t.event, if t.closed then names else t.name.toList :: names) := by
  obtain ⟨first, others, hname⟩ := List.exists_cons_of_ne_nil t.name_ne_nil
  have hfirst : first ≠ '/' := by
    have hchar := (t.of_mem_name (by rw [hname]; exact List.mem_cons_self)).2
    rintro rfl
    exact hchar (by decide)
  unfold Markup.readTag
  split
  case h_1 heq =>
    rw [hname] at heq
    exact absurd (List.cons.inj heq).1 hfirst
  case h_2 =>
    unfold event
    cases t.closed with
    | true => simp [ofContent]
    | false =>
      simp only [Bool.false_eq_true, if_false, List.append_nil, if_neg t.last_ne_slash, ofContent]
      rfl

/-- **A written tag is one event.** -/
theorem scan_text (names : List (List Char)) (place : Nat) (chars rest : List Char) :
    ∃ place', scan names place (.inText chars) (t.text.toList ++ rest) =
      prepend (textEvents chars ++ [t.event])
        (scan (if t.closed then names else t.name.toList :: names) place' (.inText []) rest) := by
  obtain ⟨first, others, hname⟩ := List.exists_cons_of_ne_nil t.name_ne_nil
  have hchar {c : Char} (hc : c ∈ first :: others) : c ∉ ['>', '"', '\x27'] := by
    intro hmem
    rw [← hname] at hc
    exact (t.of_mem_name hc).2 (List.mem_append_left ['/'] hmem)
  have hfirst : first ∉ ['!', '?', '>', '"', '\x27'] := by
    have hbang := t.name_first
    have hmarks := hchar List.mem_cons_self
    rw [hname] at hbang
    simp only [List.head?_cons, Option.all_some, Bool.not_eq_true', List.contains_eq_mem,
      decide_eq_false_iff_not, List.mem_cons, List.not_mem_nil, or_false, not_or] at hbang hmarks ⊢
    exact ⟨hbang.1, hbang.2, hmarks⟩
  have hslash : StaysInTag (if t.closed then ['/'] else []) := by
    split
    · exact staysInTag_singleton (by decide)
    · exact staysInTag_nil
  have hothers : StaysInTag others :=
    staysInTag_of_unmarked fun c hc => hchar (List.mem_cons_of_mem first hc)
  have hread := t.readTag names
  have htext : t.text.toList ++ rest =
      '<' :: first :: (others ++ t.rest ++ if t.closed then ['/'] else []) ++ '>' :: rest := by
    simp [text, hname]
  rw [hname] at hread
  rw [htext, hname]
  exact scan_tag hfirst ((hothers.append t.staysInTag_rest).append hslash) hread place chars rest

lemma scanAttributes_written {attributes : List (List Char × WrittenAttribute)} {tail : List Char}
    {seen : List (List Char × Nat)} (hblanks : ∀ a ∈ attributes, AllBlank a.1)
    (htail : AllBlank tail) (hnodup : (attributes.map (·.2.key)).Nodup)
    (hnew : ∀ a ∈ attributes, seen.lookup a.2.key.toList.reverse = none) (place : Nat) :
    scanAttributes seen place .between (attributes.flatMap (fun a => a.1 ++ a.2.chars) ++ tail) =
      (attributes.map (·.2.read), none) := by
  induction attributes generalizing seen place with
  | nil =>
    obtain ⟨place', h⟩ := scanAttributes_blanks htail seen place []
    rw [List.append_nil] at h
    exact h
  | cons a attributes ih =>
    rw [List.map_cons, List.nodup_cons] at hnodup
    obtain ⟨hblank, hblanks⟩ := List.forall_mem_cons.1 hblanks
    obtain ⟨place₁, hgap⟩ := scanAttributes_blanks hblank seen place
      (a.2.chars ++ (attributes.flatMap (fun a => a.1 ++ a.2.chars) ++ tail))
    obtain ⟨start, place₂, ha⟩ := a.2.scanAttributes (hnew a List.mem_cons_self) place₁
      (attributes.flatMap (fun a => a.1 ++ a.2.chars) ++ tail)
    have hlater : ∀ b ∈ attributes,
        ((a.2.key.toList.reverse, start) :: seen).lookup b.2.key.toList.reverse = none := by
      intro b hb
      have hne : b.2.key.toList.reverse ≠ a.2.key.toList.reverse := by
        intro heq
        have hkey : b.2.key = a.2.key := String.toList_inj.1 (List.reverse_injective heq)
        exact hnodup.1 (hkey ▸ List.mem_map_of_mem hb)
      rw [List.lookup_cons, beq_false_of_ne hne]
      exact hnew b (List.mem_cons_of_mem a hb)
    rw [List.flatMap_cons, List.append_assoc, List.append_assoc, hgap, ha,
      ih hblanks hnodup.2 hlater, List.map_cons]

/-- **The attributes of a written tag are read as they are written, in their order.** -/
theorem scan_tag : t.tag.scan = (t.written.map (·.read), none) := by
  rw [Tag.scan, tag, String.toList_ofList, written, List.map_map]
  exact scanAttributes_written (fun _ => t.blanks_before) t.blanks.2 t.nodup (fun _ _ => rfl) _

end WrittenTag

end RenderLayout.Markup
