import RenderLayout.Proofs.ElementMarkup

/-!
A scan takes a text part by part.

At each character a scan goes on or breaks off, whatever comes behind it. So a text that is scanned
to its end in text can be cut off from what follows, and the places of its characters have no
influence on the events. The tag of an element is one such part, with any quotation in it.
-/

namespace RenderLayout.Markup

/-! ### Steps -/

/-- The names of the elements that are open behind events, the innermost first, if no event closes
more than is open. -/
def openNames? : List (List Char) → List Event → Option (List (List Char))
  | names, [] => some names
  | names, .start tag :: events => openNames? (tag.name.toList :: names) events
  | [], .close :: _ => none
  | _ :: names, .close :: events => openNames? names events
  | names, _ :: events => openNames? names events

lemma openNames?_append {names names' : List (List Char)} {events : List Event}
    (h : openNames? names events = some names') (others : List Event) :
    openNames? names (events ++ others) = openNames? names' others := by
  induction events generalizing names with
  | nil =>
    obtain rfl := Option.some.inj h
    rfl
  | cons event events ih =>
    cases event with
    | close =>
      cases names with
      | nil => cases h
      | cons _ _ => exact ih h
    | _ => exact ih h

lemma openNames?_textEvents (names : List (List Char)) (chars : List Char) :
    openNames? names (textEvents chars) = some names := by
  unfold textEvents
  split <;> rfl

/-- Behind a character a scan goes on in a state that is the same at every place and within whatever
further elements. -/
structure GoesOn (names : List (List Char)) (state : ScanState) (c : Char) (events : List Event)
    (names' : List (List Char)) (state' : ScanState) : Prop where
  nest : openNames? names events = some names'
  step : ∀ outer place, ∃ place', ∀ s, scan (names ++ outer) place state (c :: s) =
    prepend events (scan (names' ++ outer) place' state' s)

lemma GoesOn.alone {names names' : List (List Char)} {state state' : ScanState} {c : Char}
    {events : List Event} (h : GoesOn names state c events names' state') (place : Nat) :
    ∃ place', ∀ s, scan names place state (c :: s) =
      prepend events (scan names' place' state' s) := by
  simpa using h.step [] place

/-- At a character a scan ends with a fault that is the same at every place. -/
def Breaks (names : List (List Char)) (state : ScanState) (c : Char) (fault : Fault) : Prop :=
  ∀ place, ∃ place', ∀ s, scan names place state (c :: s) = ([], .broken place' fault)

/-- What is read of a construct that ends with a character decides whether the scan goes on. -/
lemma goesOn_or_breaks_of_read {names : List (List Char)} {state : ScanState} {c : Char}
    (read : Except Fault Event)
    (hread : ∀ event, read = .ok event → openNames? names [event] = some names)
    (h : ∀ names place s, scan names place state (c :: s) =
      proceed (place + 1) read (scan names (place + 1) (.inText []) s)) :
    (∃ events names' state', GoesOn names state c events names' state') ∨
      ∃ fault, Breaks names state c fault := by
  cases read with
  | ok event =>
    exact Or.inl ⟨[event], names, .inText [], hread event rfl, fun outer place =>
      ⟨place + 1, h (names ++ outer) place⟩⟩
  | error fault => exact Or.inr ⟨fault, fun place => ⟨place + 1, h names place⟩⟩

/-- A tag is read alike within whatever further elements, unless it is an end tag too many. -/
lemma readTag_append {names names' : List (List Char)} {content : List Char} {event : Event}
    (h : readTag names content = .ok (event, names')) :
    openNames? names [event] = some names' ∧
      ∀ outer, readTag (names ++ outer) content = .ok (event, names' ++ outer) := by
  unfold readTag at h ⊢
  split at h
  case h_1 rest =>
    cases names with
    | nil => cases h
    | cons expected names =>
      dsimp only at h
      split at h
      case isTrue hname =>
        obtain ⟨rfl, rfl⟩ := Prod.mk.inj (Except.ok.inj h)
        exact ⟨rfl, fun outer => if_pos hname⟩
      case isFalse => cases h
  case h_2 =>
    split at h
    case isTrue hlast =>
      obtain ⟨rfl, rfl⟩ := Prod.mk.inj (Except.ok.inj h)
      exact ⟨rfl, fun outer => if_pos hlast⟩
    case isFalse hlast =>
      obtain ⟨rfl, rfl⟩ := Prod.mk.inj (Except.ok.inj h)
      exact ⟨rfl, fun outer => if_neg hlast⟩

/-- What is read of a tag decides whether the scan goes on. -/
lemma goesOn_or_breaks_of_readTag {names : List (List Char)} {state : ScanState} {c : Char}
    (content : List Char)
    (h : ∀ names place s, scan names place state (c :: s) =
      match readTag names content with
      | .ok (event, names) => prepend [event] (scan names (place + 1) (.inText []) s)
      | .error fault => ([], .broken (place + 1) fault)) :
    (∃ events names' state', GoesOn names state c events names' state') ∨
      ∃ fault, Breaks names state c fault := by
  cases hread : readTag names content with
  | ok read =>
    obtain ⟨hnest, houter⟩ := readTag_append hread
    refine Or.inl ⟨[read.1], read.2, .inText [], hnest, fun outer place => ⟨place + 1, fun s => ?_⟩⟩
    rw [h, houter]
  | error fault =>
    refine Or.inr ⟨fault, fun place => ⟨place + 1, fun s => ?_⟩⟩
    rw [h, hread]

/-- A scan that only collects a character, or takes notice of it. -/
lemma goesOn_of_quiet {names : List (List Char)} {state state' : ScanState} {c : Char}
    (h : ∀ names place, ∃ place', ∀ s,
      scan names place state (c :: s) = scan names place' state' s) :
    (∃ events names' state', GoesOn names state c events names' state') ∨
      ∃ fault, Breaks names state c fault :=
  Or.inl ⟨[], names, state', rfl, fun outer place => h (names ++ outer) place⟩

/-- **The step of a scan**: at a character it goes on or breaks off, in the same way at every place
and whatever comes behind. -/
lemma goesOn_or_breaks (names : List (List Char)) (state : ScanState) (c : Char) :
    (∃ events names' state', GoesOn names state c events names' state') ∨
      ∃ fault, Breaks names state c fault := by
  cases state with
  | inText chars =>
    by_cases h : c = '<'
    · exact Or.inl ⟨textEvents chars, names, .opened, openNames?_textEvents names chars,
        fun outer place => ⟨place + 1, fun s => by rw [scan, if_pos h]⟩⟩
    · exact goesOn_of_quiet fun names place => ⟨_, fun s => by rw [scan, if_neg h]⟩
  | opened =>
    by_cases hbang : c = '!'
    · exact goesOn_of_quiet fun names place => ⟨_, fun s => by rw [scan, if_pos hbang]⟩
    by_cases hquery : c = '?'
    · exact goesOn_of_quiet fun names place => ⟨_, fun s => by
        rw [scan, if_neg hbang, if_pos hquery]⟩
    by_cases hend : c = '>'
    · exact goesOn_or_breaks_of_readTag [] fun names place s => by
        rcases hread : readTag names [] with fault | ⟨event, names'⟩ <;>
          rw [scan, if_neg hbang, if_neg hquery, if_pos hend, hread]
    · exact goesOn_of_quiet fun names place => ⟨_, fun s => by
        rw [scan, if_neg hbang, if_neg hquery, if_neg hend]⟩
  | inTag mark chars =>
    cases mark with
    | some mark => exact goesOn_of_quiet fun names place => ⟨_, fun s => by rw [scan]⟩
    | none =>
      by_cases h : c = '>'
      · exact goesOn_or_breaks_of_readTag chars.reverse fun names place s => by
          rcases hread : readTag names chars.reverse with fault | ⟨event, names'⟩ <;>
            rw [scan, if_pos h, hread]
      · exact goesOn_of_quiet fun names place => ⟨_, fun s => by rw [scan, if_neg h]⟩
  | inInstruction chars =>
    by_cases h : c = '>' ∧ chars.head? = some '?'
    · refine goesOn_or_breaks_of_read (readInstruction chars.reverse) (fun event hread => ?_)
        fun names place s => by rw [scan, if_pos h]
      unfold readInstruction at hread
      split at hread <;> cases hread
      rfl
    · exact goesOn_of_quiet fun names place => ⟨_, fun s => by rw [scan, if_neg h]⟩
  | declared =>
    by_cases hcomment : c = '-'
    · exact goesOn_of_quiet fun names place => ⟨_, fun s => by rw [scan, if_pos hcomment]⟩
    by_cases hliteral : c = '['
    · exact goesOn_of_quiet fun names place => ⟨_, fun s => by
        rw [scan, if_neg hcomment, if_pos hliteral]⟩
    by_cases hdoctype : c = 'D' ∨ c = 'd'
    · exact goesOn_of_quiet fun names place => ⟨_, fun s => by
        rw [scan, if_neg hcomment, if_neg hliteral, if_pos hdoctype]⟩
    · exact Or.inr ⟨.unknownDeclaration, fun place => ⟨place - 1, fun s => by
        rw [scan, if_neg hcomment, if_neg hliteral, if_neg hdoctype]⟩⟩
  | inComment chars =>
    by_cases h : c = '>' ∧ 5 ≤ chars.length ∧ chars.take 2 = ['-', '-']
    · refine goesOn_or_breaks_of_read (readComment chars.reverse) (fun event hread => ?_)
        fun names place s => by rw [scan, if_pos h]
      unfold readComment at hread
      split at hread <;> cases hread
      rfl
    · exact goesOn_of_quiet fun names place => ⟨_, fun s => by rw [scan, if_neg h]⟩
  | inLiteral chars =>
    by_cases h : c = '>' ∧ chars.take 2 = [']', ']']
    · refine goesOn_or_breaks_of_read (readLiteral chars.reverse) (fun event hread => ?_)
        fun names place s => by rw [scan, if_pos h]
      unfold readLiteral at hread
      split at hread <;> cases hread
      rfl
    · exact goesOn_of_quiet fun names place => ⟨_, fun s => by rw [scan, if_neg h]⟩
  | inDoctype depth chars =>
    by_cases hopen : c = '<'
    · exact goesOn_of_quiet fun names place => ⟨_, fun s => by rw [scan, if_pos hopen]⟩
    by_cases hend : c = '>'
    · by_cases hdepth : depth = 0
      · refine goesOn_or_breaks_of_read (readDoctype chars.reverse) (fun event hread => ?_)
          fun names place s => by rw [scan, if_neg hopen, if_pos hend, if_pos hdepth]
        unfold readDoctype at hread
        split at hread
        · split at hread <;> cases hread
          rfl
        · cases hread
      · exact goesOn_of_quiet fun names place => ⟨_, fun s => by
          rw [scan, if_neg hopen, if_pos hend, if_neg hdepth]⟩
    · exact goesOn_of_quiet fun names place => ⟨_, fun s => by
        rw [scan, if_neg hopen, if_neg hend]⟩

/-! ### Runs -/

/-- The events of a text do not depend on the place that it is scanned from. -/
lemma scan_place (names : List (List Char)) (place place' : Nat) (state : ScanState)
    (s : List Char) : (scan names place state s).1 = (scan names place' state s).1 := by
  induction s generalizing names place place' state with
  | nil => cases state <;> rfl
  | cons c s ih =>
    rcases goesOn_or_breaks names state c with ⟨events, names', state', h⟩ | ⟨fault, h⟩
    · obtain ⟨next, hnext⟩ := h.alone place
      obtain ⟨next', hnext'⟩ := h.alone place'
      rw [hnext, hnext']
      exact congrArg (events ++ ·) (ih names' next next' state')
    · obtain ⟨next, hnext⟩ := h place
      obtain ⟨next', hnext'⟩ := h place'
      rw [hnext, hnext']

/-- A text that a scan comes to the end of in text: within whatever further elements its events are
the same, and what is behind it is scanned from there. -/
lemma scan_within {names : List (List Char)} {place : Nat} {state : ScanState} {s : List Char}
    (h : (scan names place state s).2 = .done) :
    ∃ chars events names', (scan names place state s).1 = events ++ textEvents chars ∧
      openNames? names events = some names' ∧
      ∀ outer place, ∃ place', ∀ rest, scan (names ++ outer) place state (s ++ rest) =
        prepend events (scan (names' ++ outer) place' (.inText chars) rest) := by
  induction s generalizing names place state with
  | nil =>
    cases state with
    | inText chars =>
      exact ⟨chars, [], names, rfl, rfl, fun outer place => ⟨place, fun rest => rfl⟩⟩
    | _ => cases h
  | cons c s ih =>
    rcases goesOn_or_breaks names state c with ⟨events, names', state', hstep⟩ | ⟨fault, hstep⟩
    · obtain ⟨next, hnext⟩ := hstep.alone place
      rw [hnext] at h
      obtain ⟨chars, others, last, hothers, hnest, hrest⟩ := ih h
      refine ⟨chars, events ++ others, last, ?_, ?_, fun outer place => ?_⟩
      · rw [hnext, List.append_assoc, ← hothers]
        rfl
      · rw [openNames?_append hstep.nest, hnest]
      · obtain ⟨next, hnext⟩ := hstep.step outer place
        obtain ⟨place', hrest⟩ := hrest outer next
        refine ⟨place', fun rest => ?_⟩
        rw [List.cons_append, hnext, hrest, prepend_prepend]
    · obtain ⟨next, hnext⟩ := hstep place
      rw [hnext] at h
      cases h

/-- A text that a scan comes to the end of in text: what is behind it is scanned from there. -/
lemma scan_append {names : List (List Char)} {place : Nat} {state : ScanState} {s : List Char}
    (h : (scan names place state s).2 = .done) :
    ∃ names' place' chars events,
      (scan names place state s).1 = events ++ textEvents chars ∧
      ∀ rest, scan names place state (s ++ rest) =
        prepend events (scan names' place' (.inText chars) rest) := by
  obtain ⟨chars, events, names', hevents, -, hrest⟩ := scan_within h
  obtain ⟨place', hrest⟩ := hrest [] place
  rw [List.append_nil, List.append_nil] at hrest
  exact ⟨names', place', chars, events, hevents, hrest⟩

/-! ### Tags -/

/-- Every quotation in a text comes to its end, within a quotation mark if there is one, and no
bracket stands outside of them. -/
def quotesClose : Option Char → List Char → Bool
  | none, [] => true
  | some _, [] => false
  | some mark, c :: s => quotesClose (if c = mark then none else some mark) s
  | none, c :: s => c ≠ '>' && quotesClose (if c = '"' ∨ c = '\x27' then some c else none) s

lemma scan_quotesClose {mark : Option Char} {s : List Char} (h : quotesClose mark s = true)
    (names : List (List Char)) (place : Nat) (chars rest : List Char) :
    ∃ place', scan names place (.inTag mark chars) (s ++ rest) =
      scan names place' (.inTag none (s.reverse ++ chars)) rest := by
  induction s generalizing mark place chars with
  | nil =>
    cases mark with
    | none => exact ⟨place, rfl⟩
    | some mark => cases h
  | cons c s ih =>
    rw [List.reverse_cons, List.append_assoc, List.cons_append]
    cases mark with
    | none =>
      rw [quotesClose, Bool.and_eq_true, decide_eq_true_iff] at h
      rw [scan, if_neg h.1]
      exact ih h.2 _ (c :: chars)
    | some mark =>
      rw [quotesClose] at h
      rw [scan]
      exact ih h _ (c :: chars)

lemma staysInTag_of_quotesClose {s : List Char} (h : quotesClose none s = true) : StaysInTag s :=
  scan_quotesClose h

/-- The name in a tag. -/
def nameChars (content : List Char) : List Char := content.takeWhile (!isBlank ·)

/-- What can stand between the brackets of a start tag: a name without quotation marks, and behind
it anything that is quoted properly. -/
def isTagContent : List Char → Bool
  | [] => false
  | first :: s =>
    !(['!', '?', '/'].contains first) && (first :: s).getLast? != some '/' &&
      (nameChars (first :: s)).all (fun c => !(['"', '\x27'].contains c)) &&
      quotesClose none (first :: s)

/-- The parts of what stands between the brackets of a start tag. -/
structure TagContent (first : Char) (s : List Char) : Prop where
  first_ne : first ≠ '/'
  first_not_mem : first ∉ ['!', '?', '>', '"', '\x27']
  last_ne : (first :: s).getLast? ≠ some '/'
  name_unmarked : ∀ c ∈ nameChars (first :: s), c ∉ ['"', '\x27']
  quotes_close : quotesClose none s = true
  no_bracket : '>' ∉ nameChars (first :: s)

/-- No bracket stands in a text before its first quotation mark. -/
lemma bracket_not_mem {p : Char → Bool} {s : List Char} (h : quotesClose none s = true)
    (hmarks : ∀ c ∈ s.takeWhile p, c ∉ ['"', '\x27']) : '>' ∉ s.takeWhile p := by
  induction s with
  | nil => exact List.not_mem_nil
  | cons c s ih =>
    rw [quotesClose, Bool.and_eq_true, decide_eq_true_iff] at h
    by_cases hc : p c = true
    · rw [List.takeWhile_cons_of_pos hc] at hmarks ⊢
      have hmark := hmarks c List.mem_cons_self
      rw [if_neg (by simpa using hmark)] at h
      exact fun hmem => (List.mem_cons.1 hmem).elim (Ne.symm h.1)
        (ih h.2 fun d hd => hmarks d (List.mem_cons_of_mem c hd))
    · rw [List.takeWhile_cons_of_neg hc]
      exact List.not_mem_nil

lemma tagContent_of_isTagContent {content : List Char} (h : isTagContent content = true) :
    ∃ first s, content = first :: s ∧ TagContent first s := by
  cases content with
  | nil => cases h
  | cons first s =>
    simp only [isTagContent, Bool.and_eq_true, bne_iff_ne, Bool.not_eq_true',
      List.contains_eq_mem, decide_eq_false_iff_not, List.all_eq_true] at h
    obtain ⟨⟨⟨hfirst, hlast⟩, hname⟩, hclose⟩ := h
    -- a quotation mark at the start would be the first character of the name
    have hmark : first ∉ ['"', '\x27'] := by
      by_cases hblank : isBlank first = true
      · rintro hmem
        simp only [List.mem_cons, List.not_mem_nil, or_false] at hmem
        rcases hmem with rfl | rfl <;> cases hblank
      · exact hname first (by simp [nameChars, hblank])
    have hbracket : '>' ∉ nameChars (first :: s) := bracket_not_mem hclose hname
    rw [quotesClose, Bool.and_eq_true, decide_eq_true_iff, if_neg (by simpa using hmark)] at hclose
    simp only [List.mem_cons, List.not_mem_nil, or_false, not_or] at hfirst hmark
    refine ⟨first, s, rfl, hfirst.2.2, ?_, hlast, hname, hclose.2, hbracket⟩
    simp only [List.mem_cons, List.not_mem_nil, or_false, not_or]
    exact ⟨hfirst.1, hfirst.2.1, hclose.1, hmark⟩

lemma endName_nameChars (content : List Char) :
    endName (nameChars content) = nameChars content := by
  have hself : ((nameChars content).reverse.dropWhile isBlank).reverse = nameChars content := by
    rw [List.dropWhile_eq_self_iff.2, List.reverse_reverse]
    intro hpos
    have hmem := List.mem_reverse.1 (List.getElem_mem hpos)
    simpa using List.mem_takeWhile_imp hmem
  unfold endName
  rw [hself]
  split
  · rfl
  · rfl

lemma readTag_nameChars (names : List (List Char)) (content : List Char) :
    readTag (nameChars content :: names) ('/' :: nameChars content) = .ok (.close, names) := by
  simp only [readTag, endName_nameChars, if_true]

namespace TagContent

variable {first : Char} {s : List Char}

lemma readTag_empty (h : TagContent first s) (names : List (List Char)) :
    readTag names (first :: (s ++ ['/'])) = .ok (.empty (.ofContent (first :: s)), names) := by
  unfold readTag
  split
  case h_1 heq => exact absurd (List.cons.inj heq).1 h.first_ne
  case h_2 =>
    rw [← List.cons_append, if_pos List.getLast?_concat, List.dropLast_concat]

lemma readTag_start (h : TagContent first s) (names : List (List Char)) :
    readTag names (first :: s) =
      .ok (.start (.ofContent (first :: s)), nameChars (first :: s) :: names) := by
  unfold readTag
  split
  case h_1 heq => exact absurd (List.cons.inj heq).1 h.first_ne
  case h_2 =>
    rw [if_neg h.last_ne]
    dsimp only [Tag.ofContent]
    rw [String.toList_ofList]
    rfl

lemma staysInTag_nameChars (h : TagContent first s) : StaysInTag (nameChars (first :: s)) := by
  refine staysInTag_of_unmarked fun c hc => ?_
  rw [List.mem_cons, not_or]
  exact ⟨fun heq => h.no_bracket (heq ▸ hc), h.name_unmarked c hc⟩

/-- The tag of an empty element is one event. -/
lemma scan_empty (h : TagContent first s) (names : List (List Char)) (place : Nat)
    (chars rest : List Char) :
    ∃ place', scan names place (.inText chars) ('<' :: first :: s ++ '/' :: '>' :: rest) =
      prepend (textEvents chars ++ [.empty (.ofContent (first :: s))])
        (scan names place' (.inText []) rest) := by
  have hscan := scan_tag h.first_not_mem
    ((staysInTag_of_quotesClose h.quotes_close).append (staysInTag_singleton (by decide)))
    (h.readTag_empty names) place chars rest
  simpa using hscan

/-- A start tag and an end tag with nothing between them are two events. -/
lemma scan_startEnd (h : TagContent first s) (names : List (List Char)) (place : Nat)
    (chars rest : List Char) :
    ∃ place', scan names place (.inText chars) ('<' :: first :: s ++
        '>' :: '<' :: '/' :: nameChars (first :: s) ++ '>' :: rest) =
      prepend (textEvents chars ++ [.start (.ofContent (first :: s)), .close])
        (scan names place' (.inText []) rest) := by
  obtain ⟨middle, hstart⟩ := scan_tag h.first_not_mem
    (staysInTag_of_quotesClose h.quotes_close) (h.readTag_start names) place chars
    ('<' :: '/' :: nameChars (first :: s) ++ '>' :: rest)
  obtain ⟨place', hend⟩ := scan_tag (by decide) h.staysInTag_nameChars
    (readTag_nameChars names (first :: s)) middle [] rest
  refine ⟨place', ?_⟩
  rw [hend, prepend_prepend] at hstart
  simpa [textEvents_nil] using hstart

end TagContent

end RenderLayout.Markup
