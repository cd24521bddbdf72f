import RenderLayout.Layout.Json
import RenderLayout.Proofs.JsonNull
import RenderLayout.Proofs.Tables

/-!
Which numbers of a layout have to be finite for its text to hold no null.

The text of a layout holds a null if and only if it has a radius, a corner radius or a number of a
style that is not finite. Positions are texts: a coordinate that is not finite is a word in them.
-/

namespace RenderLayout

/-! ### Positions -/

namespace Number

/-- A sign, if there is one, digits, and three decimals. -/
def IsFixed (s : List Char) : Prop :=
  ∃ negative whole decimals, s = signed negative (whole ++ '.' :: decimals) ∧ whole ≠ [] ∧
    AreDigits whole ∧ AreDigits decimals ∧ decimals.length = 3

lemma length_padded {n : Nat} (h : n < 10 ^ 3) : (padded 3 n).length = 3 := by
  have hdigits : (digitsOf n).length ≤ 3 := by
    by_cases hzero : n = 0
    · rw [hzero]
      decide
    · have hle := pow_length_le hzero
      have hlt := (Nat.pow_lt_pow_iff_right (a := 10) (by decide)).1 (hle.trans_lt h)
      unfold digitsOf
      omega
  simp only [padded, List.length_append, List.length_replicate]
  omega

lemma isFixed_fixed {x : Float} (h : x.isFinite = true) : IsFixed (fixed 3 x) := by
  obtain ⟨negative, mantissa, scale, hx, -, -⟩ := ofFloat_of_isFinite h
  unfold fixed
  rw [hx]
  refine ⟨negative, _, _, rfl, ?_, areDigits_digitsOf _, ?_, length_padded ?_⟩
  · simp [digitsOf, Nat.toDigits_ne_nil]
  · exact (areDigits_zeros _).append (areDigits_digitsOf _)
  · exact Nat.mod_lt _ (by decide)

lemma IsFixed.chars {s : List Char} (h : IsFixed s) : ∀ c ∈ s, IsNumberChar c := by
  obtain ⟨negative, whole, decimals, rfl, -, hwhole, hdecimals, -⟩ := h
  refine isNumberChar_signed fun c hc => ?_
  rcases List.mem_append.1 hc with hc | hc
  · exact Or.inl (Or.inl (hwhole c hc))
  · rcases List.mem_cons.1 hc with rfl | hc
    · exact Or.inl (Or.inr rfl)
    · exact Or.inl (Or.inl (hdecimals c hc))

/-- What is not finite is written as a word. -/
lemma exists_letter_fixed {x : Float} (h : ¬ x.isFinite = true) :
    ∃ c ∈ fixed 3 x, c = 'n' ∨ c = 'N' := by
  unfold fixed
  split
  case h_1 => exact ⟨'N', by decide, Or.inr rfl⟩
  case h_2 negative hx => cases negative <;> exact ⟨'n', by decide, Or.inl rfl⟩
  case h_3 hx => exact absurd hx (ofFloat_ne_finite h _ _ _)

end Number

open Number

/-- Two decimals in brackets. -/
def IsPair (text : String) : Prop :=
  ∃ x y, IsFixed x ∧ IsFixed y ∧ text = String.ofList ('(' :: x ++ ',' :: y ++ [')'])

def Point.IsFinite (point : Point) : Prop := point.x.isFinite = true ∧ point.y.isFinite = true

lemma Point.isPair_text_iff {point : Point} : IsPair point.text ↔ point.IsFinite := by
  constructor
  · rintro ⟨x, y, hx, hy, htext⟩
    have hchars : ∀ c ∈ point.text.toList, IsNumberChar c ∨ c ∈ ['(', ',', ')'] := by
      rw [htext, String.toList_ofList]
      intro c hc
      simp only [List.cons_append, List.mem_cons, List.mem_append, List.not_mem_nil,
        or_false] at hc
      rcases hc with rfl | (hc | rfl | hc) | rfl
      · exact Or.inr (by decide)
      · exact Or.inl (hx.chars c hc)
      · exact Or.inr (by decide)
      · exact Or.inl (hy.chars c hc)
      · exact Or.inr (by decide)
    have hletter : ∀ c ∈ point.text.toList, ¬ (c = 'n' ∨ c = 'N') := by
      rintro c hc (rfl | rfl) <;> simpa [IsNumberChar, IsPlaceChar] using hchars _ hc
    constructor
    · by_contra hnot
      obtain ⟨c, hc, hword⟩ := exists_letter_fixed hnot
      exact hletter c (by simp [Point.text, hc]) hword
    · by_contra hnot
      obtain ⟨c, hc, hword⟩ := exists_letter_fixed hnot
      exact hletter c (by simp [Point.text, hc]) hword
  · intro h
    exact ⟨_, _, isFixed_fixed h.1, isFixed_fixed h.2, rfl⟩

/-! ### Objects -/

namespace Json

lemma object_eq (members : List (String × Json)) :
    object members = .obj (Table.ofList members).pairs := by
  have hfold : ∀ t : Table Json,
      members.foldl (fun sorted m => insertPair m.1 m.2 sorted) t.pairs =
        (t.insertAll members).pairs := by
    induction members with
    | nil => exact fun t => rfl
    | cons m members ih => exact fun t => ih (t.insert m.1 m.2)
  exact congrArg Json.obj (hfold .empty)

lemma find?_object (members : List (String × Json)) (key : String) :
    (object members).find? key = (Table.ofList members).find? key := by
  rw [object_eq]
  rfl

lemma nullFree_obj_iff {members : List (String × Json)} :
    (Json.obj members).nullFree = true ↔ ∀ m ∈ members, m.2.nullFree = true := by
  rw [nullFree]
  induction members with
  | nil => simp [nullFreeMembers]
  | cons m members ih =>
    rw [nullFreeMembers, Bool.and_eq_true, ih, List.forall_mem_cons, nullFreeMember]

lemma nullFree_arr_iff {items : List Json} :
    (Json.arr items).nullFree = true ↔ ∀ item ∈ items, item.nullFree = true := by
  rw [nullFree]
  induction items with
  | nil => simp [nullFreeItems]
  | cons item items ih => rw [nullFreeItems, Bool.and_eq_true, ih, List.forall_mem_cons]

lemma nullFree_object_iff {members : List (String × Json)} :
    (object members).nullFree = true ↔
      ∀ key value, (object members).find? key = some value → value.nullFree = true := by
  simp only [find?_object, Table.find?_eq_some_iff]
  rw [object_eq, nullFree_obj_iff]
  exact Prod.forall

/-- The members of an object with different keys are all in it. -/
lemma nullFree_object_iff_of_nodup {members : List (String × Json)}
    (h : (members.map (·.1)).Nodup) :
    (object members).nullFree = true ↔ ∀ m ∈ members, m.2.nullFree = true := by
  rw [nullFree_object_iff]
  simp only [find?_object]
  constructor
  · intro hall m hm
    exact hall m.1 m.2 (Table.find?_insertAll_of_mem .empty hm h)
  · intro hall key value hfound
    rcases Table.mem_or_of_find?_insertAll hfound with hmem | hempty
    · exact hall _ hmem
    · cases hempty

lemma nullFree_ofTable_iff {α : Type} {f : α → Json} {t : Table α} :
    (ofTable f t).nullFree = true ↔
      ∀ key value, t.find? key = some value → (f value).nullFree = true := by
  rw [ofTable, nullFree_obj_iff, Table.map]
  simp only [List.forall_mem_map, Prod.forall, Table.find?_eq_some_iff]

lemma keys_optional {α : Type} (key : String) (f : α → Json) (o : Option α) :
    ((optional key f o).map (·.1)).Sublist [key] := by
  cases o with
  | none => exact List.nil_sublist _
  | some a => exact List.Sublist.refl _

lemma mem_optional_iff {α : Type} {key : String} {f : α → Json} {o : Option α}
    {m : String × Json} : m ∈ optional key f o ↔ ∃ a, o = some a ∧ m = (key, f a) := by
  cases o <;> simp [optional]

end Json

open Json

/-! ### Styles -/

lemma Edge.nullFree_json_iff {edge : Edge} :
    edge.json.nullFree = true ↔ edge.distance.isFinite = true := by
  rw [Edge.json, nullFree_object_iff_of_nodup (by simp)]
  simp [nullFree, Color.json]

/-- The numbers of a style that are written as such are finite. -/
structure Style.IsFinite (style : Style) : Prop where
  stroke : ∀ edge, style.stroke = some edge → edge.distance.isFinite = true
  rotation : ∀ angle, style.rotation = some angle → angle.isFinite = true
  shadow : ∀ edge, style.shadow = some edge → edge.distance.isFinite = true

lemma Style.nullFree_json_iff {style : Style} :
    style.json.nullFree = true ↔ style.IsFinite := by
  have hkeys : ((optional "align" .str style.align ++ optional "stroke" Edge.json style.stroke ++
      optional "fill" Color.json style.fill ++ optional "rotation" .float style.rotation ++
      optional "shadow" Edge.json style.shadow).map (·.1)).Nodup := by
    simp only [List.map_append]
    refine List.Nodup.sublist (((((keys_optional _ _ _).append (keys_optional _ _ _)).append
      (keys_optional _ _ _)).append (keys_optional _ _ _)).append (keys_optional _ _ _)) ?_
    decide
  rw [Style.json, nullFree_object_iff_of_nodup hkeys]
  simp only [List.mem_append, mem_optional_iff]
  constructor
  · intro h
    exact ⟨fun edge hedge => Edge.nullFree_json_iff.1 (h ("stroke", edge.json) (by simp [hedge])),
      fun angle hangle => h ("rotation", .float angle) (by simp [hangle]),
      fun edge hedge => Edge.nullFree_json_iff.1 (h ("shadow", edge.json) (by simp [hedge]))⟩
  · rintro h m ((((⟨text, -, rfl⟩ | ⟨edge, hedge, rfl⟩) | ⟨color, -, rfl⟩) | ⟨angle, hangle, rfl⟩) |
      ⟨edge, hedge, rfl⟩)
    · rfl
    · exact Edge.nullFree_json_iff.2 (h.stroke edge hedge)
    · rfl
    · exact h.rotation angle hangle
    · exact Edge.nullFree_json_iff.2 (h.shadow edge hedge)

/-! ### Components -/

namespace Component

variable {c : Component}

lemma mem_boundMembers_iff {m : String × Json} : m ∈ c.boundMembers ↔
    ∃ property ∈ boundProperties, ∃ text, c.bindings.find? property = some text ∧
      m = (property, .str text) := by
  simp only [boundMembers, List.mem_flatMap, mem_optional_iff]

/-- The members of a component that has no bindings have different keys. -/
lemma nodup_ownMembers : (c.ownMembers.map (·.1)).Nodup := by
  have hkeys : (c.ownMembers.map (·.1)).Sublist (["type", "layer", "visible", "pos1"] ++ ["pos2"] ++
      ["corner_radius"] ++ ["radius"] ++ ["style"] ++ ["font"] ++ ["text"]) := by
    simp only [ownMembers, List.map_append]
    exact ((((((List.Sublist.refl _).append (keys_optional _ _ _)).append
      (keys_optional _ _ _)).append (keys_optional _ _ _)).append (keys_optional _ _ _)).append
      (keys_optional _ _ _)).append (keys_optional _ _ _)
  exact hkeys.nodup (by decide)

lemma find?_json (key : String) : c.json.find? key =
    ((Table.ofList c.ownMembers).insertAll c.boundMembers).find? key := by
  rw [json, find?_object, Table.ofList, Table.insertAll, List.foldl_append]
  rfl

/-- A value of its own that is not bound is written. -/
lemma find?_json_of_mem {key : String} {value : Json} (hm : (key, value) ∈ c.ownMembers)
    (hunbound : c.bindings.find? key = none ∨ key ∉ boundProperties) :
    c.json.find? key = some value := by
  rw [find?_json, Table.find?_insertAll_of_ne]
  · exact Table.find?_insertAll_of_mem .empty hm nodup_ownMembers
  · intro b hb hkey
    obtain ⟨property, hproperty, text, htext, rfl⟩ := mem_boundMembers_iff.1 hb
    rcases hunbound with hnone | hnot
    · rw [← hkey, htext] at hnone
      cases hnone
    · exact hnot (hkey ▸ hproperty)

/-- What is written is a value of its own or an expression. -/
lemma mem_of_find?_json {key : String} {value : Json} (h : c.json.find? key = some value) :
    (∃ text, c.bindings.find? key = some text ∧ value = .str text) ∨
      (key, value) ∈ c.ownMembers := by
  rw [find?_json] at h
  rcases Table.mem_or_of_find?_insertAll h with hbound | hown
  · obtain ⟨property, -, text, htext, heq⟩ := mem_boundMembers_iff.1 hbound
    obtain ⟨rfl, rfl⟩ := Prod.mk.inj heq
    exact Or.inl ⟨text, htext, rfl⟩
  · rcases Table.mem_or_of_find?_insertAll hown with hown | hempty
    · exact Or.inr hown
    · cases hempty

/-- The radii of a component are finite. -/
structure RadiiFinite (c : Component) : Prop where
  radius : ∀ r, c.radius = some r → r.isFinite = true
  cornerRadius : ∀ r, c.cornerRadius = some r → r.isFinite = true

lemma nullFree_json_iff : c.json.nullFree = true ↔ c.RadiiFinite := by
  constructor
  · intro h
    rw [json, nullFree_object_iff] at h
    refine ⟨fun r hr => ?_, fun r hr => ?_⟩
    · have hm : ("radius", Json.float r) ∈ c.ownMembers := by
        simp [ownMembers, mem_optional_iff, hr]
      exact h _ _ (find?_json_of_mem hm (Or.inr (by decide)))
    · have hm : ("corner_radius", Json.float r) ∈ c.ownMembers := by
        simp [ownMembers, mem_optional_iff, hr]
      exact h _ _ (find?_json_of_mem hm (Or.inr (by decide)))
  · intro h
    rw [json, nullFree_object_iff]
    intro key value hfound
    rcases mem_of_find?_json hfound with ⟨text, -, rfl⟩ | hown
    · rfl
    · simp only [ownMembers, List.mem_append, mem_optional_iff, List.mem_cons, List.not_mem_nil,
        or_false, Prod.mk.injEq] at hown
      rcases hown with ((((((⟨-, rfl⟩ | ⟨-, rfl⟩ | ⟨-, rfl⟩ | ⟨-, rfl⟩) | ⟨_, -, -, rfl⟩) |
        ⟨r, hr, -, rfl⟩) | ⟨r, hr, -, rfl⟩) | ⟨_, -, -, rfl⟩) | ⟨_, -, -, rfl⟩) | ⟨_, -, -, rfl⟩
      any_goals rfl
      · exact h.cornerRadius r hr
      · exact h.radius r hr

/-- Every position that is written and not bound is a pair of decimals. -/
def WritesPairs (c : Component) : Prop :=
  ∀ key ∈ ["pos1", "pos2"], c.bindings.find? key = none → ∀ value, c.json.find? key = some value →
    ∃ text, value = .str text ∧ IsPair text

/-- The positions of a component that are not bound are finite. -/
structure PositionsFinite (c : Component) : Prop where
  pos1 : c.bindings.find? "pos1" = none → c.pos1.IsFinite
  pos2 : c.bindings.find? "pos2" = none → ∀ point, c.pos2 = some point → point.IsFinite

lemma writesPairs_iff : c.WritesPairs ↔ c.PositionsFinite := by
  constructor
  · intro h
    refine ⟨fun hnone => ?_, fun hnone point hpoint => ?_⟩
    · have hm : ("pos1", Json.str c.pos1.text) ∈ c.ownMembers := by simp [ownMembers]
      obtain ⟨text, heq, htext⟩ := h _ (by simp) hnone _ (find?_json_of_mem hm (Or.inl hnone))
      obtain rfl := Json.str.inj heq
      exact Point.isPair_text_iff.1 htext
    · have hm : ("pos2", Json.str point.text) ∈ c.ownMembers := by
        simp [ownMembers, mem_optional_iff, hpoint]
      obtain ⟨text, heq, htext⟩ := h _ (by simp) hnone _ (find?_json_of_mem hm (Or.inl hnone))
      obtain rfl := Json.str.inj heq
      exact Point.isPair_text_iff.1 htext
  · intro h key hkey hnone value hfound
    rcases mem_of_find?_json hfound with ⟨text, htext, -⟩ | hown
    · rw [hnone] at htext
      cases htext
    simp only [List.mem_cons, List.not_mem_nil, or_false] at hkey
    rcases hkey with rfl | rfl
    · have hvalue : value = .str c.pos1.text := by
        simpa [ownMembers, mem_optional_iff] using hown
      exact ⟨_, hvalue, Point.isPair_text_iff.2 (h.pos1 hnone)⟩
    · obtain ⟨point, hpoint, hvalue⟩ : ∃ point, c.pos2 = some point ∧ value = .str point.text := by
        simpa [ownMembers, mem_optional_iff] using hown
      exact ⟨_, hvalue, Point.isPair_text_iff.2 (h.pos2 hnone point hpoint)⟩

end Component

/-! ### Layouts -/

lemma Page.nullFree_json_iff {page : Page} :
    (Page.json page).nullFree = true ↔ ∀ c ∈ page, c.RadiiFinite := by
  simp only [← Component.nullFree_json_iff]
  cases page with
  | nil => simp [Page.json, Json.object, nullFree, nullFreeMembers]
  | cons c page =>
    rw [Page.json, nullFree_object_iff_of_nodup (by simp)]
    simp [nullFree_arr_iff]

lemma nullFree_of_mem_filled {α : Type} {key : String} {f : α → Json} {t : Table α} :
    (∀ m ∈ filled key f t, m.2.nullFree = true) ↔
      ∀ name value, t.find? name = some value → (f value).nullFree = true := by
  unfold filled
  split
  case isTrue hempty =>
    have hnone : ∀ name, t.find? name = none := by
      intro name
      rw [Table.find?, List.isEmpty_iff.1 hempty]
      rfl
    simp [hnone]
  case isFalse => simp [nullFree_ofTable_iff]

namespace Layout

variable {layout : Layout}

/-- The numbers of a layout that are written as such are finite. -/
structure NumbersFinite (layout : Layout) : Prop where
  styles : ∀ name style, layout.styles.find? name = some style → style.IsFinite
  radii : ∀ name page, layout.pages.find? name = some page → ∀ c ∈ page, c.RadiiFinite

lemma keys_filled {α : Type} (key : String) (f : α → Json) (t : Table α) :
    ((filled key f t).map (·.1)).Sublist [key] := by
  unfold filled
  split
  · exact List.nil_sublist _
  · exact List.Sublist.refl _

lemma nullFree_json_iff : layout.json.nullFree = true ↔ layout.NumbersFinite := by
  have hkeys : ((filled "fonts" Font.json layout.fonts ++
      filled "styles" Style.json layout.styles ++
      filled "pages" Page.json layout.pages).map (·.1)).Nodup := by
    simp only [List.map_append]
    refine List.Nodup.sublist (((keys_filled _ _ _).append (keys_filled _ _ _)).append
      (keys_filled _ _ _)) ?_
    decide
  have hfont : ∀ font : Font, font.json.nullFree = true := by
    intro font
    rw [Font.json, nullFree_object_iff_of_nodup (by simp)]
    simp [nullFree]
  rw [json, nullFree_object_iff_of_nodup hkeys]
  simp only [List.forall_mem_append, nullFree_of_mem_filled, Style.nullFree_json_iff,
    Page.nullFree_json_iff, hfont, implies_true, true_and]
  exact ⟨fun h => ⟨h.1, h.2⟩, fun h => ⟨h.styles, h.radii⟩⟩

/-- **The text of a layout holds no null** if and only if its radii and the numbers of its styles
are finite. -/
theorem not_hasNull_text_iff : ¬ HasNull layout.text ↔ layout.NumbersFinite := by
  rw [text, hasNull_render_iff, Bool.not_eq_false, nullFree_json_iff]

end Layout

end RenderLayout
