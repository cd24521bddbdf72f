import Mathlib.Data.List.Nodup
import RenderLayout.Proofs.DeclarationText

/-!
The order of declarations, and those that nothing is read from.

Neither should matter to the style of a text. But a search takes a key that ends with what it looks
for to be what it looks for, so that `-webkit-text-stroke` sets the stroke. Where there is no such key,
every search has one declaration to find or none, wherever it stands.
-/

namespace RenderLayout

/-- With at most one element that it finds something in, a search finds what is in any. -/
lemma findSome?_eq_some_iff_of_one {α β : Type} {f : α → Option β} {l : List α}
    (hone : ∀ a ∈ l, ∀ b ∈ l, (f a).isSome = true → (f b).isSome = true → a = b) {found : β} :
    l.findSome? f = some found ↔ ∃ a ∈ l, f a = some found := by
  refine ⟨List.exists_of_findSome?_eq_some, fun ⟨a, ha, hfound⟩ => ?_⟩
  have hsome : (l.findSome? f).isSome = true :=
    List.findSome?_isSome_iff.2 ⟨a, ha, Option.isSome_of_eq_some hfound⟩
  obtain ⟨other, hother⟩ := Option.isSome_iff_exists.1 hsome
  obtain ⟨b, hb, hbother⟩ := List.exists_of_findSome?_eq_some hother
  obtain rfl := hone a ha b hb (Option.isSome_of_eq_some hfound) (Option.isSome_of_eq_some hbother)
  rw [hother, ← hbother, hfound]

namespace Declarations

open Declaration Number Text

/-- The keys that a style is read from. -/
def readKeys : List String := ["fill", "fill-opacity", "stroke", "stroke-opacity", "stroke-width"]

/-- Only the key itself ends with the name. -/
def Alone (name : String) (keys : List Key) : Prop :=
  ∀ key ∈ keys, name.toList <:+ key.name.toList → key.name = name

instance (name : String) (keys : List Key) : Decidable (Alone name keys) :=
  inferInstanceAs (Decidable (∀ key ∈ keys, _ → _))

/-- No key ends with what is looked for but that key itself. Opacities and widths are looked for only
where there is the key of a color that they belong to. -/
structure Unmistakable (keys : List Key) : Prop where
  fill : Alone "fill" keys
  stroke : Alone "stroke" keys
  fillOpacity : (∃ key ∈ keys, key.name = "fill") → Alone "fill-opacity" keys
  strokeOpacity : (∃ key ∈ keys, key.name = "stroke") → Alone "stroke-opacity" keys
  strokeWidth : (∃ key ∈ keys, key.name = "stroke") → Alone "stroke-width" keys

lemma unmistakable_iff {keys : List Key} : Unmistakable keys ↔
    Alone "fill" keys ∧ Alone "stroke" keys ∧
      ((∃ key ∈ keys, key.name = "fill") → Alone "fill-opacity" keys) ∧
      ((∃ key ∈ keys, key.name = "stroke") →
        Alone "stroke-opacity" keys ∧ Alone "stroke-width" keys) :=
  ⟨fun h => ⟨h.fill, h.stroke, h.fillOpacity, fun hkey => ⟨h.strokeOpacity hkey, h.strokeWidth hkey⟩⟩,
    fun ⟨hfill, hstroke, hopacity, hedge⟩ =>
      ⟨hfill, hstroke, hopacity, fun hkey => (hedge hkey).1, fun hkey => (hedge hkey).2⟩⟩

instance (keys : List Key) : Decidable (Unmistakable keys) :=
  decidable_of_iff' _ unmistakable_iff

/-- Declarations with these keys, whatever their values, make the same style in every order, and
without those that nothing is read from. -/
structure OrderFree (keys : List Key) : Prop where
  order : ∀ declarations others : List Declaration, declarations.map (·.key) = keys →
    others.Perm declarations →
      Style.ofDeclarations (text others) = Style.ofDeclarations (text declarations)
  unread : ∀ declarations : List Declaration, declarations.map (·.key) = keys →
    Style.ofDeclarations (text (declarations.filter (·.key.name ∈ readKeys))) =
      Style.ofDeclarations (text declarations)

/-! ### Keys that cannot be mistaken -/

/-- The rest has no other declarations, and all those that a style is read from. -/
structure Keeps (declarations rest : List Declaration) : Prop where
  subset : rest ⊆ declarations
  read : ∀ d ∈ declarations, d.key.name ∈ readKeys → d ∈ rest

variable {declarations rest : List Declaration} {keys : List Key} {name : String} {s t : String}

/-- A search for a key that no other key ends with does not depend on the order. -/
lemma findSome?_keeps {α : Type} (hkeeps : Keeps declarations rest)
    (hnodup : (declarations.map (·.key)).Nodup) (hname : name ∈ readKeys)
    (halone : Alone name (declarations.map (·.key))) (find : Declaration → Option α) :
    (rest.findSome? fun d => if name.toList <:+ d.key.name.toList then find d else none) =
      declarations.findSome? fun d => if name.toList <:+ d.key.name.toList then find d else none := by
  have hkey {d : Declaration} (hd : d ∈ declarations)
      (h : (if name.toList <:+ d.key.name.toList then find d else none).isSome = true) :
      d.key.name = name := by
    split at h
    case isTrue hsuffix => exact halone d.key (List.mem_map_of_mem hd) hsuffix
    case isFalse => cases h
  have hone (d : Declaration) (hd : d ∈ declarations) (e : Declaration) (he : e ∈ declarations)
      (hfound : (if name.toList <:+ d.key.name.toList then find d else none).isSome = true)
      (hfound' : (if name.toList <:+ e.key.name.toList then find e else none).isSome = true) :
      d = e :=
    List.inj_on_of_nodup_map hnodup hd he
      (Key.ext_name ((hkey hd hfound).trans (hkey he hfound').symm))
  refine Option.ext fun found => ?_
  rw [findSome?_eq_some_iff_of_one hone, findSome?_eq_some_iff_of_one fun d hd e he =>
    hone d (hkeeps.subset hd) e (hkeeps.subset he)]
  constructor
  · rintro ⟨d, hd, hfound⟩
    exact ⟨d, hkeeps.subset hd, hfound⟩
  · rintro ⟨d, hd, hfound⟩
    have hread := hkey hd (Option.isSome_of_eq_some hfound)
    exact ⟨d, hkeeps.read d hd (hread ▸ hname), hfound⟩

lemma number?_congr (h : numeral? name s.toList = numeral? name t.toList) :
    number? name s.toList = number? name t.toList := by
  unfold number?
  rw [h]

/-- An opacity counts only with a color. -/
lemma color?_congr (hbytes : bytes? name s.toList = bytes? name t.toList)
    (hopacity : (bytes? name t.toList).isSome = true →
      numeral? (name ++ "-opacity") s.toList = numeral? (name ++ "-opacity") t.toList) :
    color? name s.toList = color? name t.toList := by
  unfold color?
  rw [hbytes]
  cases hfound : bytes? name t.toList with
  | none => rfl
  | some bytes => rw [number?_congr (hopacity (Option.isSome_of_eq_some hfound))]

/-- A width counts only with a color. -/
lemma stroke?_congr (hbytes : bytes? "stroke" s.toList = bytes? "stroke" t.toList)
    (hopacity : (bytes? "stroke" t.toList).isSome = true →
      numeral? "stroke-opacity" s.toList = numeral? "stroke-opacity" t.toList)
    (hwidth : (bytes? "stroke" t.toList).isSome = true →
      numeral? "stroke-width" s.toList = numeral? "stroke-width" t.toList) :
    stroke? s = stroke? t := by
  unfold stroke?
  rw [color?_congr hbytes hopacity]
  cases hcolor : color? "stroke" t.toList with
  | error fault => rfl
  | ok color =>
    cases color with
    | none => rfl
    | some color =>
      have hfound : (bytes? "stroke" t.toList).isSome = true :=
        bytes?_isSome.2 ((color?_isSome hcolor).1 rfl)
      rw [ok_bind, ok_bind, number?_congr (hwidth hfound)]

lemma bytes?_keeps (hkeeps : Keeps declarations rest) (hnodup : (declarations.map (·.key)).Nodup)
    (hchars : name.toList.all isKeyChar = true) (hname : name ∈ readKeys)
    (halone : Alone name (declarations.map (·.key))) :
    bytes? name (text rest).toList = bytes? name (text declarations).toList := by
  rw [bytes?_text hchars, bytes?_text hchars]
  exact findSome?_keeps hkeeps hnodup hname halone _

lemma numeral?_keeps (hkeeps : Keeps declarations rest) (hnodup : (declarations.map (·.key)).Nodup)
    (hchars : name.toList.all isKeyChar = true) (hname : name ∈ readKeys)
    (halone : Alone name (declarations.map (·.key))) :
    numeral? name (text rest).toList = numeral? name (text declarations).toList := by
  rw [numeral?_text hchars, numeral?_text hchars]
  exact findSome?_keeps hkeeps hnodup hname halone _

/-- A color that is found stands under its own key, if no other key ends with it. -/
lemma exists_key_of_bytes? (hchars : name.toList.all isKeyChar = true)
    (halone : Alone name (declarations.map (·.key)))
    (hfound : (bytes? name (text declarations).toList).isSome = true) :
    ∃ key ∈ declarations.map (·.key), key.name = name := by
  rw [bytes?_text hchars, List.findSome?_isSome_iff] at hfound
  obtain ⟨d, hd, hfound⟩ := hfound
  split at hfound
  case isTrue hsuffix =>
    have hmem := List.mem_map_of_mem (f := (·.key)) hd
    exact ⟨d.key, hmem, halone d.key hmem hsuffix⟩
  case isFalse => cases hfound

/-- With such keys nothing matters but the declarations that a style is read from. -/
lemma ofDeclarations_keeps (hkeeps : Keeps declarations rest)
    (hnodup : (declarations.map (·.key)).Nodup)
    (h : Unmistakable (declarations.map (·.key))) :
    Style.ofDeclarations (text rest) = Style.ofDeclarations (text declarations) := by
  have hfill : fill? (text rest) = fill? (text declarations) := by
    refine color?_congr (bytes?_keeps hkeeps hnodup (by decide) (by decide) h.fill) fun hfound => ?_
    have hkey := exists_key_of_bytes? (by decide) h.fill hfound
    exact numeral?_keeps hkeeps hnodup (by decide) (by decide) (h.fillOpacity hkey)
  have hstroke : stroke? (text rest) = stroke? (text declarations) := by
    refine stroke?_congr (bytes?_keeps hkeeps hnodup (by decide) (by decide) h.stroke)
      (fun hfound => ?_) fun hfound => ?_
    · have hkey := exists_key_of_bytes? (by decide) h.stroke hfound
      exact numeral?_keeps hkeeps hnodup (by decide) (by decide) (h.strokeOpacity hkey)
    · have hkey := exists_key_of_bytes? (by decide) h.stroke hfound
      exact numeral?_keeps hkeeps hnodup (by decide) (by decide) (h.strokeWidth hkey)
  unfold Style.ofDeclarations
  rw [hfill, hstroke]

/-! ### Keys that are mistaken -/

/-- Declarations of the keys, with a value for each. -/
def declare (value : Key → Value) (keys : List Key) : List Declaration :=
  keys.map fun key => ⟨key, value key⟩

lemma keys_declare (value : Key → Value) (keys : List Key) :
    (declare value keys).map (·.key) = keys := by
  unfold declare
  rw [List.map_map]
  exact List.map_id keys

lemma mem_declare {value : Key → Value} {d : Declaration} :
    d ∈ declare value keys ↔ d.key ∈ keys ∧ d.value = value d.key := by
  unfold declare
  rw [List.mem_map]
  constructor
  · rintro ⟨key, hkey, rfl⟩
    exact ⟨hkey, rfl⟩
  · rintro ⟨hkey, hvalue⟩
    exact ⟨d.key, hkey, by rw [← hvalue]⟩

/-- A color, and no number. -/
def black : Value := ⟨"#000000", by decide⟩

/-- A number, and no color. -/
def one : Value := ⟨"1", by decide⟩

/-- Neither a color nor a number. -/
def nothing : Value := ⟨"", by decide⟩

lemma isSome_hash?_black : (hash? black.text.toList).isSome = true := by decide

/-- A color for one key, and a number for every other. -/
def colorFor (color key : Key) : Value := if key = color then black else one

/-- Nothing for one key. -/
def nothingFor (stray color key : Key) : Value := if key = stray then nothing else colorFor color key

/-- A key that ends with another one that is read is not read itself. -/
lemma not_mem_readKeys {key : Key} (hname : name ∈ readKeys)
    (hsuffix : name.toList <:+ key.name.toList) (hne : key.name ≠ name) :
    key.name ∉ readKeys := by
  have hall : ∀ a ∈ readKeys, ∀ b ∈ readKeys, a.toList <:+ b.toList → b = a := by decide
  exact fun hmem => hne (hall name hname key.name hmem hsuffix)

lemma number?_one (name : String) (hchars : name.toList.all isKeyChar = true)
    (hvalues : ∀ d ∈ declarations, name.toList <:+ d.key.name.toList → d.value = one) :
    ∃ number, number? name (text declarations).toList = .ok number := by
  unfold number?
  cases hnumeral : numeral? name (text declarations).toList with
  | none => exact ⟨none, rfl⟩
  | some numeral =>
    rw [numeral?_text hchars] at hnumeral
    obtain ⟨d, hd, hfound⟩ := List.exists_of_findSome?_eq_some hnumeral
    split at hfound
    case isTrue hsuffix =>
      rw [hvalues d hd hsuffix] at hfound
      obtain rfl := Option.some.inj hfound
      have hread : (readFloat? (takeNumeral one.text.toList)).isSome = true := by decide +kernel
      obtain ⟨x, hx⟩ := Option.isSome_iff_exists.1 hread
      exact ⟨some x, by dsimp only; rw [hx]⟩
    case isFalse => cases hfound

lemma color?_one (name : String) (hchars : (name ++ "-opacity").toList.all isKeyChar = true)
    (hvalues : ∀ d ∈ declarations, (name ++ "-opacity").toList <:+ d.key.name.toList →
      d.value = one) :
    ∃ color, color? name (text declarations).toList = .ok color := by
  unfold color?
  cases bytes? name (text declarations).toList with
  | none => exact ⟨none, rfl⟩
  | some bytes =>
    obtain ⟨number, hnumber⟩ := number?_one (name ++ "-opacity") hchars hvalues
    dsimp only
    rw [hnumber]
    exact ⟨_, rfl⟩

/-- Numbers that are one, wherever there is a number, make a style. -/
lemma exists_ofDeclarations
    (hvalues : ∀ d ∈ declarations, d.value = one ∨ d.key.name ∈ ["fill", "stroke"]) :
    ∃ style, Style.ofDeclarations (text declarations) = .ok style := by
  have hone {name : String} (hother : ∀ color ∈ ["fill", "stroke"], ¬ name.toList <:+ color.toList)
      (d : Declaration) (hd : d ∈ declarations) (hsuffix : name.toList <:+ d.key.name.toList) :
      d.value = one :=
    (hvalues d hd).resolve_right fun hcolor => hother _ hcolor hsuffix
  obtain ⟨fill, hfill⟩ := color?_one "fill" (by decide) (hone (by decide))
  obtain ⟨color, hcolor⟩ := color?_one "stroke" (by decide) (hone (by decide))
  obtain ⟨width, hwidth⟩ := number?_one "stroke-width" (by decide) (hone (by decide))
  have hstroke : ∃ stroke, stroke? (text declarations) = .ok stroke := by
    unfold stroke?
    rw [hcolor, ok_bind]
    cases color with
    | none => exact ⟨none, rfl⟩
    | some color =>
      dsimp only
      rw [hwidth]
      exact ⟨_, rfl⟩
  obtain ⟨stroke, hstroke⟩ := hstroke
  refine ⟨{ align := some defaultAlign, fill, stroke }, ?_⟩
  unfold Style.ofDeclarations fill?
  rw [hfill, hstroke]
  rfl

/-- The text has a color for a key if a declaration with such a key has a color. -/
lemma hasColor_text (hchars : name.toList.all isKeyChar = true) :
    HasColor name (text declarations) ↔
      ∃ d ∈ declarations, name.toList <:+ d.key.name.toList ∧
        (hash? d.value.text.toList).isSome = true := by
  rw [← bytes?_isSome, bytes?_text hchars, List.findSome?_isSome_iff]
  refine exists_congr fun d => and_congr_right fun _ => ?_
  split
  case isTrue h => exact (and_iff_right h).symm
  case isFalse h => exact iff_of_false (fun hnone => nomatch hnone) fun hand => h hand.1

/-- Another key that ends with that of a color should not be read, but it sets the color. -/
lemma OrderFree.alone_color (h : OrderFree keys) (hname : name ∈ ["fill", "stroke"]) :
    Alone name keys := by
  have hread : name ∈ readKeys := by
    have hall : ∀ color ∈ ["fill", "stroke"], color ∈ readKeys := by decide
    exact hall name hname
  have hchars : name.toList.all isKeyChar = true := by
    have hall : ∀ color ∈ ["fill", "stroke"], color.toList.all isKeyChar = true := by decide
    exact hall name hname
  intro stray hstray hsuffix
  by_contra hne
  have hunread := not_mem_readKeys hread hsuffix hne
  have hsame := h.unread _ (keys_declare (colorFor stray) keys)
  have hones (d : Declaration)
      (hd : d ∈ (declare (colorFor stray) keys).filter (·.key.name ∈ readKeys)) :
      d.value = one := by
    obtain ⟨hmem, hkey⟩ := List.mem_filter.1 hd
    have hother : d.key ≠ stray := fun heq => hunread (heq ▸ of_decide_eq_true hkey)
    rw [(mem_declare.1 hmem).2]
    exact if_neg hother
  obtain ⟨style, hstyle⟩ := exists_ofDeclarations fun d hd => Or.inl (hones d hd)
  have hcolor : HasColor name (text (declare (colorFor stray) keys)) :=
    (hasColor_text hchars).2 ⟨⟨stray, black⟩, mem_declare.2 ⟨hstray, (if_pos rfl).symm⟩, hsuffix,
      isSome_hash?_black⟩
  have hnone : ¬ HasColor name
      (text ((declare (colorFor stray) keys).filter (·.key.name ∈ readKeys))) := by
    rw [hasColor_text hchars]
    rintro ⟨d, hd, -, hcolor⟩
    rw [hones d hd] at hcolor
    exact absurd hcolor (by decide)
  have hwith := ofDeclarations_isSome (hsame.symm.trans hstyle)
  have hwithout := ofDeclarations_isSome hstyle
  rcases List.mem_pair.1 hname with rfl | rfl
  · exact hnone (hwithout.1.1 (hwith.1.2 hcolor))
  · exact hnone (hwithout.2.1 (hwith.2.2 hcolor))

/-- A style with a color has been given the numbers that belong to it. -/
lemma number?_of_color (name : String) {color : Option Color} (h : color? name s.toList = .ok color)
    (hcolor : HasColor name s) :
    ∃ number, number? (name ++ "-opacity") s.toList = .ok number := by
  obtain ⟨bytes, hbytes⟩ := Option.isSome_iff_exists.1 (bytes?_isSome.2 hcolor)
  unfold color? at h
  rw [hbytes] at h
  obtain ⟨number, hnumber, -⟩ := bind_eq_ok_iff.1 h
  exact ⟨number, hnumber⟩

lemma numbers_of_ofDeclarations {style : Style} (h : Style.ofDeclarations s = .ok style) :
    (HasColor "fill" s → ∃ number, number? "fill-opacity" s.toList = .ok number) ∧
      (HasColor "stroke" s → (∃ number, number? "stroke-opacity" s.toList = .ok number) ∧
        ∃ number, number? "stroke-width" s.toList = .ok number) := by
  obtain ⟨fill, hfill, h⟩ := bind_eq_ok_iff.1 h
  obtain ⟨stroke, hstroke, -⟩ := bind_eq_ok_iff.1 h
  obtain ⟨color, hcolor, hstroke⟩ := bind_eq_ok_iff.1 hstroke
  refine ⟨number?_of_color "fill" hfill, fun hgiven =>
    ⟨number?_of_color "stroke" hcolor hgiven, ?_⟩⟩
  obtain ⟨color, rfl⟩ := Option.isSome_iff_exists.1 ((color?_isSome hcolor).2 hgiven)
  obtain ⟨width, hwidth, -⟩ := bind_eq_ok_iff.1 hstroke
  exact ⟨width, hwidth⟩

/-- A number that is read from nothing is none. -/
lemma number?_nothing (hchars : name.toList.all isKeyChar = true) {key : Key}
    (hsuffix : name.toList <:+ key.name.toList) (rest : List Declaration)
    (number : Option Float) :
    number? name (text (⟨key, nothing⟩ :: rest)).toList ≠ .ok number := by
  have hnumeral : numeral? name (text (⟨key, nothing⟩ :: rest)).toList = some [] := by
    rw [numeral?_text hchars, List.findSome?_cons, if_pos hsuffix]
    rfl
  have hread : readFloat? [] = none := by decide
  unfold number?
  rw [hnumeral]
  dsimp only
  rw [hread]
  exact nofun

/-- Another key that ends with that of a number should not be read, but the number is read from it
where it comes first. -/
lemma OrderFree.alone_number {color : String} (h : OrderFree keys)
    (hcolor : color ∈ ["fill", "stroke"]) (hname : name ∈ readKeys)
    (hchars : name.toList.all isKeyChar = true) (hother : ¬ name.toList <:+ color.toList)
    (hread : ∀ s style, Style.ofDeclarations s = .ok style → HasColor color s →
      ∃ number, number? name s.toList = .ok number)
    (hkey : ∃ key ∈ keys, key.name = color) : Alone name keys := by
  intro stray hstray hsuffix
  by_contra hne
  obtain ⟨key, hkey, rfl⟩ := hkey
  have hunread := not_mem_readKeys hname hsuffix hne
  have hkeys : key ≠ stray := fun heq => hother (heq ▸ hsuffix)
  have hvalues (d : Declaration)
      (hd : d ∈ (declare (nothingFor stray key) keys).filter (·.key.name ∈ readKeys)) :
      d.value = one ∨ d.key.name ∈ ["fill", "stroke"] := by
    obtain ⟨hmem, hread⟩ := List.mem_filter.1 hd
    have hd : d.key ≠ stray := fun heq => hunread (heq ▸ of_decide_eq_true hread)
    by_cases hown : d.key = key
    · exact Or.inr (hown ▸ hcolor)
    · left
      rw [(mem_declare.1 hmem).2, nothingFor, if_neg hd, colorFor, if_neg hown]
  obtain ⟨style, hstyle⟩ := exists_ofDeclarations hvalues
  rw [h.unread _ (keys_declare (nothingFor stray key) keys)] at hstyle
  -- with the other key first, the number is read from its value
  have hfirst : (⟨stray, nothing⟩ : Declaration) ∈ declare (nothingFor stray key) keys :=
    mem_declare.2 ⟨hstray, (if_pos rfl).symm⟩
  have hblack : (⟨key, black⟩ : Declaration) ∈ declare (nothingFor stray key) keys :=
    mem_declare.2 ⟨hkey, by rw [nothingFor, if_neg hkeys, colorFor, if_pos rfl]⟩
  have hperm := List.perm_cons_erase hfirst
  rw [← h.order _ _ (keys_declare (nothingFor stray key) keys) hperm.symm] at hstyle
  have hgiven : HasColor key.name
      (text (⟨stray, nothing⟩ ::
        (declare (nothingFor stray key) keys).erase ⟨stray, nothing⟩)) :=
    (hasColor_text key.chars).2 ⟨⟨key, black⟩, hperm.subset hblack, List.suffix_refl _,
      isSome_hash?_black⟩
  obtain ⟨number, hnumber⟩ := hread _ style hstyle hgiven
  exact number?_nothing hchars hsuffix _ number hnumber

/-- **Order and unread keys**: declarations with these keys make the same style in every order, and
without those that nothing is read from, whatever their values, just when no key can be mistaken. -/
theorem orderFree_iff (hnodup : keys.Nodup) : OrderFree keys ↔ Unmistakable keys := by
  constructor
  · intro h
    refine ⟨h.alone_color (by decide), h.alone_color (by decide), ?_, ?_, ?_⟩
    · exact h.alone_number (by decide) (by decide) (by decide) (by decide)
        fun s style hstyle => (numbers_of_ofDeclarations hstyle).1
    · exact h.alone_number (by decide) (by decide) (by decide) (by decide)
        fun s style hstyle hgiven => ((numbers_of_ofDeclarations hstyle).2 hgiven).1
    · exact h.alone_number (by decide) (by decide) (by decide) (by decide)
        fun s style hstyle hgiven => ((numbers_of_ofDeclarations hstyle).2 hgiven).2
  · intro h
    constructor
    · rintro declarations others rfl hperm
      exact ofDeclarations_keeps ⟨hperm.subset, fun d hd _ => hperm.mem_iff.2 hd⟩ hnodup h
    · rintro declarations rfl
      exact ofDeclarations_keeps ⟨List.filter_subset_self _, fun d hd hread =>
        List.mem_filter.2 ⟨hd, decide_eq_true hread⟩⟩ hnodup h

/-- A green fill that is half transparent, with a declaration that nothing is read from. -/
def veiled : List Declaration :=
  [⟨⟨"fill-opacity", by decide⟩, ⟨"0.5", by decide⟩⟩,
    ⟨⟨"display", by decide⟩, ⟨"inline", by decide⟩⟩,
    ⟨⟨"fill", by decide⟩, ⟨"#28a745", by decide⟩⟩]

/-- The fill is the same in the opposite order, and without the other declaration. -/
theorem orderFree_veiled :
    (veiled.map (·.key)).Nodup ∧ Unmistakable (veiled.map (·.key)) ∧
      Style.ofDeclarations "fill:#28a745;display:inline;fill-opacity:0.5" =
        Style.ofDeclarations "fill-opacity:0.5;display:inline;fill:#28a745" ∧
      Style.ofDeclarations "fill-opacity:0.5;fill:#28a745" =
        Style.ofDeclarations "fill-opacity:0.5;display:inline;fill:#28a745" := by
  have hnodup : (veiled.map (·.key)).Nodup := by decide
  have hkeys : Unmistakable (veiled.map (·.key)) := by decide
  have h := (orderFree_iff hnodup).2 hkeys
  exact ⟨hnodup, hkeys, h.order veiled veiled.reverse rfl (List.reverse_perm veiled),
    h.unread veiled rfl⟩

/-- A green stroke behind a red one of text. -/
def outlined : List Declaration :=
  [⟨⟨"-webkit-text-stroke", by decide⟩, ⟨"#ff0000", by decide⟩⟩,
    ⟨⟨"stroke", by decide⟩, ⟨"#00ff00", by decide⟩⟩]

/-- The color of the stroke, as text. -/
def strokeText? (s : String) : Option String :=
  ((Style.ofDeclarations s).toOption.bind (·.stroke)).map (·.color.text)

/-- The stroke is red unless the order is the opposite one or the other declaration is left out. -/
theorem stroke_mistaken :
    (outlined.map (·.key)).Nodup ∧
      text outlined = "-webkit-text-stroke:#ff0000;stroke:#00ff00" ∧
      outlined.reverse.Perm outlined ∧
      Style.ofDeclarations (text outlined.reverse) ≠ Style.ofDeclarations (text outlined) ∧
      outlined.filter (·.key.name ∈ readKeys) = [⟨⟨"stroke", by decide⟩, ⟨"#00ff00", by decide⟩⟩] ∧
      Style.ofDeclarations (text (outlined.filter (·.key.name ∈ readKeys))) ≠
        Style.ofDeclarations (text outlined) := by
  have hred : strokeText? (text outlined) = some "r1.000,g0.000,b0.000,a1.000" := by
    decide +kernel
  have hreverse : strokeText? (text outlined.reverse) = some "r0.000,g1.000,b0.000,a1.000" := by
    decide +kernel
  have hfilter : strokeText? (text (outlined.filter (·.key.name ∈ readKeys))) =
      some "r0.000,g1.000,b0.000,a1.000" := by decide +kernel
  refine ⟨by decide, by decide, List.reverse_perm outlined, fun heq => ?_, by decide, fun heq => ?_⟩
  · rw [strokeText?, heq, ← strokeText?, hred] at hreverse
    exact absurd hreverse (by decide)
  · rw [strokeText?, heq, ← strokeText?, hred] at hfilter
    exact absurd hfilter (by decide)

end Declarations

end RenderLayout
