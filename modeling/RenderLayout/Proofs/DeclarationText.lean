import Mathlib.Data.List.Infix
import RenderLayout.Proofs.Outcome
import RenderLayout.Style.Declarations

/-!
What is found in a text of declarations.

A color is found wherever its key, a colon and the color stand, whatever is before them. So in a text
that is put together from declarations, each search finds the first declaration whose key ends with
what it looks for. Colons and semicolons part the declarations, so no search goes across them.
-/

namespace RenderLayout

namespace Text

variable {α : Type} {pattern : List Char → Option α}

lemma firstMatch_cons (c : Char) (s : List Char) :
    firstMatch pattern (c :: s) = (pattern (c :: s)).or (firstMatch pattern s) := by
  rw [firstMatch]
  cases pattern (c :: s) <;> rfl

/-- A pattern that finds something behind the front of a text finds something in the text. -/
lemma isSome_firstMatch {before rest : List Char} (h : (pattern rest).isSome = true) :
    (firstMatch pattern (before ++ rest)).isSome = true := by
  induction before with
  | nil =>
    cases rest with
    | nil => exact h
    | cons c rest => rw [List.nil_append, firstMatch_cons, Option.isSome_or, h, Bool.true_or]
  | cons c before ih => rw [List.cons_append, firstMatch_cons, Option.isSome_or, ih, Bool.or_true]

lemma after?_append_left (key more s : List Char) :
    after? (key ++ more) s = after? key s >>= after? more := by
  induction key generalizing s with
  | nil => cases s <;> rfl
  | cons c key ih =>
    cases s with
    | nil => rfl
    | cons d s =>
      rw [List.cons_append, after?_cons, after?_cons]
      split
      · exact ih s
      · rfl

end Text

namespace Declarations

open Number Text

/-! ### Colors -/

/-- Six hexadecimal digits. -/
def IsHex (digits : List Char) : Prop :=
  digits.length = 6 ∧ ∀ c ∈ digits, (hexDigit? c).isSome = true

/-- Somewhere in the text the key has a color: `#` and six hexadecimal digits. -/
def HasColor (key : String) (s : String) : Prop :=
  ∃ digits, IsHex digits ∧ key.toList ++ [':', '#'] ++ digits <:+: s.toList

lemma hexByte?_isSome {high low : Char} :
    (hexByte? high low).isSome = true ↔
      (hexDigit? high).isSome = true ∧ (hexDigit? low).isSome = true := by
  unfold hexByte?
  cases hexDigit? high <;> cases hexDigit? low <;> simp

/-- The bytes of a color are read where its digits stand. -/
lemma hexBytes?_isSome {s : List Char} :
    (hexBytes? s).isSome = true ↔ ∃ digits, IsHex digits ∧ digits <+: s := by
  constructor
  · intro h
    unfold hexBytes? at h
    split at h
    case h_1 r₁ r₀ g₁ g₀ b₁ b₀ rest =>
      refine ⟨[r₁, r₀, g₁, g₀, b₁, b₀], ⟨rfl, ?_⟩, rest, rfl⟩
      obtain ⟨bytes, hbytes⟩ := Option.isSome_iff_exists.1 h
      obtain ⟨red, hred, hbytes⟩ := Option.bind_eq_some_iff.1 hbytes
      obtain ⟨green, hgreen, hbytes⟩ := Option.bind_eq_some_iff.1 hbytes
      obtain ⟨blue, hblue, -⟩ := Option.bind_eq_some_iff.1 hbytes
      have hr := hexByte?_isSome.1 (Option.isSome_of_eq_some hred)
      have hg := hexByte?_isSome.1 (Option.isSome_of_eq_some hgreen)
      have hb := hexByte?_isSome.1 (Option.isSome_of_eq_some hblue)
      simp [hr, hg, hb]
    case h_2 => cases h
  · rintro ⟨digits, ⟨hlength, hdigits⟩, rest, rfl⟩
    match digits, hlength with
    | [r₁, r₀, g₁, g₀, b₁, b₀], _ =>
      obtain ⟨red, hred⟩ := Option.isSome_iff_exists.1
        (hexByte?_isSome.2 ⟨hdigits r₁ (by simp), hdigits r₀ (by simp)⟩)
      obtain ⟨green, hgreen⟩ := Option.isSome_iff_exists.1
        (hexByte?_isSome.2 ⟨hdigits g₁ (by simp), hdigits g₀ (by simp)⟩)
      obtain ⟨blue, hblue⟩ := Option.isSome_iff_exists.1
        (hexByte?_isSome.2 ⟨hdigits b₁ (by simp), hdigits b₀ (by simp)⟩)
      simp [hexBytes?, hred, hgreen, hblue]

lemma bytes?_isSome {key s : String} : (bytes? key s.toList).isSome = true ↔ HasColor key s := by
  unfold bytes?
  constructor
  · intro h
    obtain ⟨bytes, hbytes⟩ := Option.isSome_iff_exists.1 h
    obtain ⟨before, rest, hs, hrest, -⟩ := firstMatch_eq_some_iff.1 hbytes
    obtain ⟨behind, hbehind, hread⟩ := Option.bind_eq_some_iff.1 hrest
    obtain ⟨digits, hdigits, more, rfl⟩ := hexBytes?_isSome.1 (Option.isSome_of_eq_some hread)
    refine ⟨digits, hdigits, before, more, ?_⟩
    rw [hs, eq_append_of_after? hbehind]
    simp
  · rintro ⟨digits, hdigits, before, more, hs⟩
    rw [← hs, List.append_assoc, List.append_assoc _ digits]
    refine isSome_firstMatch ?_
    rw [after?_append]
    exact hexBytes?_isSome.2 ⟨digits, hdigits, more, rfl⟩

lemma color?_isSome {key s : String} {color : Option Color} (h : color? key s.toList = .ok color) :
    color.isSome = true ↔ HasColor key s := by
  rw [← bytes?_isSome]
  unfold color? at h
  split at h
  case h_1 hbytes =>
    obtain rfl := Except.ok.inj h
    rw [hbytes]
    rfl
  case h_2 hbytes =>
    obtain ⟨opacity, -, hcolor⟩ := bind_eq_ok_iff.1 h
    obtain rfl := Except.ok.inj hcolor
    rw [hbytes]
    exact iff_of_true rfl rfl

lemma stroke?_isSome {s : String} {stroke : Option Edge} (h : stroke? s = .ok stroke) :
    stroke.isSome = true ↔ HasColor "stroke" s := by
  obtain ⟨color, hcolor, h⟩ := bind_eq_ok_iff.1 h
  rw [← color?_isSome hcolor]
  cases color with
  | none =>
    obtain rfl := Except.ok.inj h
    exact Iff.rfl
  | some color =>
    obtain ⟨width, -, h⟩ := bind_eq_ok_iff.1 h
    obtain rfl := Except.ok.inj h
    exact iff_of_true rfl rfl

/-- A style has a fill where its text has a color for it, and so for the stroke. -/
lemma ofDeclarations_isSome {s : String} {style : Style} (h : Style.ofDeclarations s = .ok style) :
    (style.fill.isSome = true ↔ HasColor "fill" s) ∧
      (style.stroke.isSome = true ↔ HasColor "stroke" s) := by
  obtain ⟨fill, hfill, h⟩ := bind_eq_ok_iff.1 h
  obtain ⟨stroke, hstroke, h⟩ := bind_eq_ok_iff.1 h
  obtain rfl := Except.ok.inj h
  exact ⟨color?_isSome hfill, stroke?_isSome hstroke⟩

end Declarations

/-! ### Declarations -/

namespace Declaration

/-- A small letter or a hyphen. -/
def isKeyChar (c : Char) : Bool := 'a' ≤ c && c ≤ 'z' || c = '-'

structure Key where
  name : String
  chars : name.toList.all isKeyChar = true
  deriving DecidableEq

/-- A text without the marks that part declarations. -/
structure Value where
  text : String
  unmarked : text.toList.all (fun c => c ≠ ';' && c ≠ ':') = true
  deriving DecidableEq

lemma not_mem_of_keyChars {s : List Char} {c : Char} (h : s.all isKeyChar = true)
    (hc : isKeyChar c = false) : c ∉ s := fun hmem => by
  rw [List.all_eq_true.1 h c hmem] at hc
  cases hc

lemma Key.ext_name {key key' : Key} (h : key.name = key'.name) : key = key' := by
  cases key
  cases key'
  cases h
  rfl

lemma Value.colon_not_mem (value : Value) : ':' ∉ value.text.toList := fun hmem => by
  simpa using List.all_eq_true.1 value.unmarked ':' hmem

end Declaration

structure Declaration where
  key : Declaration.Key
  value : Declaration.Value
  deriving DecidableEq

def Declaration.text (declaration : Declaration) : String :=
  declaration.key.name ++ ":" ++ declaration.value.text

namespace Declarations

open Declaration Number Text

def text (declarations : List Declaration) : String :=
  ";".intercalate (declarations.map Declaration.text)

/-! ### Searches -/

/-- Looks for a key and a colon, and reads what is behind. -/
def behind {α : Type} (key : List Char) (read : List Char → Option α) (s : List Char) : Option α :=
  after? (key ++ [':']) s >>= read

variable {α : Type} {key : List Char} (read : List Char → Option α)

/-- At the first colon of a text a key is behind all that is before the colon, or it is not there. -/
lemma behind_colon (hkey : key.all isKeyChar = true) {front : List Char} (hfront : ':' ∉ front)
    (s : List Char) :
    behind key read (front ++ ':' :: s) = if key = front then read s else none := by
  have hcolon : ':' ∉ key := not_mem_of_keyChars hkey (by decide)
  unfold behind
  split
  case isTrue h =>
    have hsplit : front ++ ':' :: s = (key ++ [':']) ++ s := by rw [h]; simp
    rw [hsplit, after?_append]
    rfl
  case isFalse h =>
    have hnone : after? (key ++ [':']) (front ++ ':' :: s) = none := by
      refine Option.eq_none_iff_forall_ne_some.2 fun rest hrest => h ?_
      have hsplit := eq_append_of_after? hrest
      rw [List.append_assoc, List.singleton_append] at hsplit
      have hcut (s : List Char) (hs : ':' ∉ s) (rest : List Char) :
          (s ++ ':' :: rest).takeWhile (· ≠ ':') = s := by
        have hne (c : Char) (hc : c ∈ s) : decide (c ≠ ':') = true :=
          decide_eq_true fun heq => hs (heq ▸ hc)
        rw [List.takeWhile_append_of_pos hne]
        simp
      rw [← hcut key hcolon rest, ← hsplit, hcut front hfront]
    rw [hnone]
    rfl

/-- No key is in a value, or begins in it. -/
lemma behind_value (hkey : key.all isKeyChar = true) {value tail : List Char} (hvalue : ':' ∉ value)
    (htail : ∀ c ∈ tail.head?, c = ';') : behind key read (value ++ tail) = none := by
  have hnone : after? (key ++ [':']) (value ++ tail) = none := by
    refine Option.eq_none_iff_forall_ne_some.2 fun rest hrest => ?_
    have hsplit := eq_append_of_after? hrest
    rw [List.append_assoc, List.singleton_append] at hsplit
    rcases List.append_eq_append_iff.1 hsplit with ⟨more, hmore, htail'⟩ | ⟨more, hmore, hrest'⟩
    · -- the key goes on behind the value, where a semicolon is
      cases more with
      | nil =>
        rw [htail'] at htail
        exact absurd (htail ':' rfl) (by decide)
      | cons c more =>
        rw [htail'] at htail
        obtain rfl := htail c rfl
        exact not_mem_of_keyChars hkey (by decide) (by rw [hmore]; simp : ';' ∈ key)
    · cases more with
      | nil =>
        rw [← List.nil_append tail, ← hrest'] at htail
        exact absurd (htail ':' rfl) (by decide)
      | cons c more =>
        obtain ⟨rfl, -⟩ := List.cons.inj hrest'
        exact hvalue (by rw [hmore]; simp)
  unfold behind
  rw [hnone]
  rfl

lemma firstMatch_value (hkey : key.all isKeyChar = true) {value tail : List Char}
    (hvalue : ':' ∉ value) (htail : ∀ c ∈ tail.head?, c = ';') :
    firstMatch (behind key read) (value ++ tail) = firstMatch (behind key read) tail.tail := by
  induction value with
  | nil =>
    cases tail with
    | nil => rfl
    | cons c tail =>
      have hnone := behind_value read hkey List.not_mem_nil htail
      rw [List.nil_append] at hnone ⊢
      rw [firstMatch_cons, hnone]
      rfl
  | cons c value ih =>
    rw [List.cons_append, firstMatch_cons, ← List.cons_append, behind_value read hkey hvalue htail]
    exact ih fun hmem => hvalue (List.mem_cons_of_mem c hmem)

/-- A key is found at the end of the key of a declaration. -/
lemma firstMatch_key (hkey : key.all isKeyChar = true) {name : List Char} (hname : ':' ∉ name)
    (s : List Char) :
    firstMatch (behind key read) (name ++ ':' :: s) =
      (if key <:+ name then read s else none).or (firstMatch (behind key read) s) := by
  induction name with
  | nil =>
    have hcolon := behind_colon read hkey List.not_mem_nil s
    rw [List.nil_append] at hcolon ⊢
    simp only [firstMatch_cons, hcolon, List.suffix_nil]
  | cons c name ih =>
    have hrest := ih fun hmem => hname (List.mem_cons_of_mem c hmem)
    rw [List.cons_append, firstMatch_cons, ← List.cons_append, behind_colon read hkey hname, hrest]
    by_cases hwhole : key = c :: name
    · have hshort : ¬ key <:+ name := fun h => by
        have hlength := hwhole ▸ h.length_le
        exact absurd hlength (Nat.not_succ_le_self _)
      rw [if_pos hwhole, if_neg hshort, if_pos (List.suffix_cons_iff.2 (Or.inl hwhole)),
        Option.none_or]
    · simp only [List.suffix_cons_iff, hwhole, if_false, false_or, Option.none_or]

/-- In the text of a declaration a search reads the value, if the key ends with what it looks for. -/
lemma firstMatch_declaration (hkey : key.all isKeyChar = true) (d : Declaration) {tail : List Char}
    (htail : ∀ c ∈ tail.head?, c = ';') :
    firstMatch (behind key read) (d.text.toList ++ tail) =
      (if key <:+ d.key.name.toList then read (d.value.text.toList ++ tail) else none).or
        (firstMatch (behind key read) tail.tail) := by
  have hname : ':' ∉ d.key.name.toList := not_mem_of_keyChars d.key.chars (by decide)
  have htext : d.text.toList ++ tail = d.key.name.toList ++ ':' :: (d.value.text.toList ++ tail) := by
    simp [Declaration.text]
  rw [htext, firstMatch_key read hkey hname, firstMatch_value read hkey d.value.colon_not_mem htail]

/-- **A search** in a text of declarations reads the value of the first one whose key ends with what
is looked for and whose value can be read. -/
lemma firstMatch_text (hkey : key.all isKeyChar = true)
    (hread : ∀ (value : Value) s, read (value.text.toList ++ ';' :: s) = read value.text.toList)
    (declarations : List Declaration) :
    firstMatch (behind key read) (text declarations).toList =
      declarations.findSome? fun d =>
        if key <:+ d.key.name.toList then read d.value.text.toList else none := by
  have hnil : firstMatch (behind key read) [] = none :=
    @behind_value _ _ read hkey [] [] List.not_mem_nil (by simp)
  unfold text
  rw [String.toList_intercalate, List.map_map]
  induction declarations with
  | nil => exact hnil
  | cons d rest ih =>
    rw [List.map_cons, ← List.singleton_append (l := rest), List.findSome?_append,
      List.findSome?_singleton]
    cases rest with
    | nil =>
      have hd := @firstMatch_declaration _ _ read hkey d [] (by simp)
      rw [List.append_nil, List.append_nil, List.tail_nil, hnil] at hd
      rw [List.map_nil, List.intercalate_singleton]
      exact hd
    | cons e rest =>
      rw [List.map_cons, List.intercalate_cons_cons, ← List.map_cons, List.append_assoc,
        ← ih, ← hread]
      exact firstMatch_declaration read hkey d (by simp)

/-! ### Colors and numbers of declarations -/

/-- The color of a value. -/
def hash? (s : List Char) : Option (UInt8 × UInt8 × UInt8) := after? ['#'] s >>= hexBytes?

lemma hexBytes?_append (value : List Char) (s : List Char) :
    hexBytes? (value ++ ';' :: s) = hexBytes? value := by
  by_cases hlong : 6 ≤ value.length
  · match value, hlong with
    | r₁ :: r₀ :: g₁ :: g₀ :: b₁ :: b₀ :: more, _ => rfl
  · -- too few digits, with a semicolon or without
    have hnone (t : List Char) (h : ∀ digits, IsHex digits → ¬ digits <+: t) :
        hexBytes? t = none := by
      rw [← Option.not_isSome_iff_eq_none, hexBytes?_isSome]
      exact fun ⟨digits, hdigits, hprefix⟩ => h digits hdigits hprefix
    rw [hnone value, hnone (value ++ ';' :: s)]
    · rintro digits ⟨hlength, hdigits⟩ hprefix
      have hmem : ';' ∈ digits := by
        refine (List.prefix_of_prefix_length_le (List.prefix_append (value ++ [';']) s) ?_ ?_).subset
          (by simp)
        · rwa [List.append_assoc]
        · simp
          omega
      exact absurd (hdigits ';' hmem) (by decide)
    · rintro digits ⟨hlength, -⟩ hprefix
      exact hlong (hlength ▸ hprefix.length_le)

lemma takeNumeral_append (value s : List Char) :
    takeNumeral (value ++ ';' :: s) = takeNumeral value := by
  have htake (t : List Char) : (t ++ ';' :: s).takeWhile isDecimal = t.takeWhile isDecimal := by
    induction t with
    | nil => rfl
    | cons c t ih => rw [List.cons_append, List.takeWhile_cons, List.takeWhile_cons, ih]
  have hdrop (t : List Char) :
      (t ++ ';' :: s).dropWhile isDecimal = t.dropWhile isDecimal ++ ';' :: s := by
    induction t with
    | nil => rfl
    | cons c t ih =>
      rw [List.cons_append, List.dropWhile_cons, List.dropWhile_cons, ih]
      split <;> rfl
  unfold takeNumeral
  dsimp only
  rw [htake, hdrop]
  cases value.dropWhile isDecimal with
  | nil => rfl
  | cons c rest =>
    by_cases hc : c = '.'
    · subst hc
      exact congrArg (fun t => value.takeWhile isDecimal ++ '.' :: t) (htake rest)
    · rw [List.cons_append]
      split
      case h_1 h => exact absurd (List.cons.inj h).1 hc
      case h_2 =>
        split
        case h_1 h => exact absurd (List.cons.inj h).1 hc
        case h_2 => rfl

/-- The color that is found for a key is that of the first declaration with such a key that has
one. -/
lemma bytes?_text {key : String} (hkey : key.toList.all isKeyChar = true)
    (declarations : List Declaration) :
    bytes? key (text declarations).toList = declarations.findSome? fun d =>
      if key.toList <:+ d.key.name.toList then hash? d.value.text.toList else none := by
  have hread (value : Value) (s : List Char) :
      hash? (value.text.toList ++ ';' :: s) = hash? value.text.toList := by
    unfold hash?
    cases value.text.toList with
    | nil => rfl
    | cons c rest =>
      rw [List.cons_append, after?_cons, after?_cons]
      split
      · exact hexBytes?_append rest s
      · rfl
  rw [← firstMatch_text hash? hkey hread]
  refine congrArg (firstMatch · _) (funext fun s => ?_)
  show after? (key.toList ++ ([':'] ++ ['#'])) s >>= hexBytes? = _
  rw [← List.append_assoc, after?_append_left, bind_assoc]
  rfl

/-- The numeral that is found for a key is that of the first declaration with such a key. -/
lemma numeral?_text {key : String} (hkey : key.toList.all isKeyChar = true)
    (declarations : List Declaration) :
    numeral? key (text declarations).toList = declarations.findSome? fun d =>
      if key.toList <:+ d.key.name.toList then some (takeNumeral d.value.text.toList) else none := by
  rw [← firstMatch_text (fun s => some (takeNumeral s)) hkey
    fun value s => congrArg some (takeNumeral_append value.text.toList s)]
  refine congrArg (firstMatch · _) (funext fun s => ?_)
  unfold behind
  cases after? (key.toList ++ [':']) s <;> rfl

end Declarations

end RenderLayout
