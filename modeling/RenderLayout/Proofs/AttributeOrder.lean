import RenderLayout.Proofs.LikeTags
import RenderLayout.Proofs.Loading
import RenderLayout.Proofs.WrittenTags

/-!
The order of attributes.

Attributes are kept under the local parts of their keys, and of several with one local part the last
counts. So a tag may have its attributes in another order as long as the last values under the local
names that are read of its element stay the same, as they do where no two local parts are the same.
Where two keys with one local part change places, another value is read.
-/

namespace RenderLayout

open Markup

namespace Markup

/-! ### Values -/

/-- The local part of the key. -/
def WrittenAttribute.localName (a : WrittenAttribute) : String :=
  String.ofList (localPart a.key.toList)

/-- The entry that an attribute makes. -/
def WrittenAttribute.entry (a : WrittenAttribute) : Except TagFault (String × String) :=
  return (a.localName, ← a.read.value)

/-- The last values under each local name, as they are written. -/
def lastRaws (attributes : List WrittenAttribute) : Table String :=
  .ofList (attributes.map fun a => (a.localName, a.raw))

variable {attributes attributes' : List WrittenAttribute} {pairs : List (String × String)}

lemma WrittenAttribute.entry_eq_ok_iff {a : WrittenAttribute} {p : String × String} :
    a.entry = .ok p ↔ p.1 = a.localName ∧ unescape a.raw = .ok p.2 := by
  unfold entry Attribute.value read
  rw [bind_eq_ok_iff]
  constructor
  · rintro ⟨value, hvalue, hp⟩
    obtain rfl := Except.ok.inj hp
    exact ⟨rfl, mapError_eq_ok_iff.1 hvalue⟩
  · rintro ⟨hname, hvalue⟩
    exact ⟨p.2, mapError_eq_ok_iff.2 hvalue, by rw [← hname]; rfl⟩

lemma find?_entries (h : List.Forall₂ (fun a p => a.entry = .ok p) attributes pairs)
    (key : String) :
    (pairs.find? (·.1 = key)).map (·.2) =
      (((attributes.map fun a => (a.localName, a.raw)).find? (·.1 = key)).map (·.2)).bind
        fun raw => (unescape raw).toOption := by
  induction h with
  | nil => rfl
  | @cons a p attributes pairs hentry _ ih =>
    obtain ⟨hname, hvalue⟩ := WrittenAttribute.entry_eq_ok_iff.1 hentry
    rw [List.map_cons, List.find?_cons, List.find?_cons, hname]
    cases decide (a.localName = key) with
    | true => simp [hvalue, Except.toOption]
    | false => exact ih

/-- The values that are read are those that are written last. -/
lemma find?_ofList_entries (h : List.Forall₂ (fun a p => a.entry = .ok p) attributes pairs)
    (key : String) :
    (Table.ofList pairs).find? key =
      ((lastRaws attributes).find? key).bind fun raw => (unescape raw).toOption := by
  rw [lastRaws, Table.find?_ofList, Table.find?_ofList, ← List.map_reverse]
  exact find?_entries (List.forall₂_reverse_iff.2 h) key

lemma WrittenTag.attributes_tag (t : WrittenTag) :
    t.tag.attributes = Table.ofList <$> t.written.mapM WrittenAttribute.entry := by
  unfold Tag.attributes
  rw [t.scan_tag]
  dsimp only
  rw [List.mapM_map]
  exact (map_eq_pure_bind _ _).symm

/-- Attributes in another order, the last values that are read being the same. -/
lemma agree_entries {element : String} (hperm : attributes.Perm attributes')
    (hlast : SameRead element (lastRaws attributes) (lastRaws attributes')) :
    Agree (SameRead element) (Table.ofList <$> attributes.mapM WrittenAttribute.entry)
      (Table.ofList <$> attributes'.mapM WrittenAttribute.entry) := by
  have hfault : fault? (attributes.mapM WrittenAttribute.entry) = none ↔
      fault? (attributes'.mapM WrittenAttribute.entry) = none := by
    rw [fault?_mapM, fault?_mapM, List.findSome?_eq_none_iff, List.findSome?_eq_none_iff]
    exact forall_congr' fun a => by rw [hperm.mem_iff]
  cases hrun : attributes.mapM WrittenAttribute.entry with
  | error e =>
    cases hrun' : attributes'.mapM WrittenAttribute.entry with
    | error e' => exact .error e e'
    | ok pairs' =>
      rw [hrun, hrun'] at hfault
      cases hfault.2 rfl
  | ok pairs =>
    cases hrun' : attributes'.mapM WrittenAttribute.entry with
    | error e' =>
      rw [hrun, hrun'] at hfault
      cases hfault.1 rfl
    | ok pairs' =>
      refine .ok fun key hkey => ?_
      rw [find?_ofList_entries (mapM_eq_ok_iff.1 hrun), find?_ofList_entries (mapM_eq_ok_iff.1 hrun'),
        hlast key hkey]

/-- Where no two attributes have the same local name, each value is the last under its name. -/
lemma lastRaws_perm (hperm : attributes.Perm attributes')
    (hnodup : (attributes.map (·.localName)).Nodup) : lastRaws attributes = lastRaws attributes' :=
  Table.ofList_eq_of_perm (hperm.map _) (by rwa [List.map_map])

/-! ### Tags -/

/-- Two tags of one name and one kind with the same attributes in two orders, the last values that are
read being the same. Blanks do not matter. -/
structure WrittenTag.Reorders (t t' : WrittenTag) : Prop where
  name : t.name = t'.name
  closed : t.closed = t'.closed
  perm : t.written.Perm t'.written
  last : SameRead t.tag.localName (lastRaws t.written) (lastRaws t'.written)

variable {t t' : WrittenTag}

lemma WrittenTag.Reorders.of_nodup (hname : t.name = t'.name) (hclosed : t.closed = t'.closed)
    (hperm : t.written.Perm t'.written) (hnodup : (t.written.map (·.localName)).Nodup) :
    t.Reorders t' :=
  ⟨hname, hclosed, hperm, fun key _ => by rw [lastRaws_perm hperm hnodup]⟩

lemma WrittenTag.Reorders.likeTags (h : t.Reorders t') : LikeTags t.tag t'.tag where
  name := h.name
  attributes := by
    rw [t.attributes_tag, t'.attributes_tag]
    exact agree_entries h.perm h.last

lemma WrittenTag.Reorders.event (h : t.Reorders t') : RetaggedEvent t.event t'.event := by
  unfold WrittenTag.event
  rw [← h.closed]
  split
  · exact .empty h.likeTags
  · exact .start h.likeTags

/-- A tag behind a text that is scanned to its end in text. -/
lemma exists_scan_text {before : String} (hbefore : (events before).2 = .done) (after : String) :
    ∃ names, ∀ t : WrittenTag, ∃ place, events (before ++ t.text ++ after) =
      prepend ((events before).1 ++ [t.event])
        (scan (if t.closed then names else t.name.toList :: names) place (.inText [])
          after.toList) := by
  obtain ⟨names, place, chars, earlier, hearlier, hscan⟩ := scan_append hbefore
  refine ⟨names, fun t => ?_⟩
  obtain ⟨place', ht⟩ := t.scan_text names place chars after.toList
  have hmark : before.toList = [] → dropMark (t.text.toList ++ after.toList) =
      t.text.toList ++ after.toList := fun _ => by simp [WrittenTag.text, dropMark]
  refine ⟨place', ?_⟩
  rw [events, String.append_assoc, String.toList_append, String.toList_append, dropMark_append hmark,
    hscan, ht, prepend_prepend, events, hearlier, List.append_assoc]

/-- A tag in the place of another one with its attributes in another order. -/
lemma WrittenTag.Reorders.agree {before : String} (h : t.Reorders t')
    (hbefore : (events before).2 = .done) (after : String) :
    Agree Eq (Drawing.ofMarkup (before ++ t.text ++ after))
      (Drawing.ofMarkup (before ++ t'.text ++ after)) := by
  obtain ⟨names, hscan⟩ := exists_scan_text hbefore after
  obtain ⟨place, ht⟩ := hscan t
  obtain ⟨place', ht'⟩ := hscan t'
  have hmore := scan_place (if t.closed then names else t.name.toList :: names) place place'
    (.inText []) after.toList
  rw [← h.closed, ← h.name] at ht'
  unfold Drawing.ofMarkup nodes
  rw [ht, ht']
  simp only [prepend, hmore, List.append_assoc, List.singleton_append]
  rw [grow_append, grow_append]
  exact h.event.agree_ofNodes_grow _ _ _ _ _

end Markup

/-! ### Texts -/

/-- The second text is the first with one of its tags written anew, the attributes in another order but
the last values that are read being the same. -/
inductive Reordered : String → String → Prop
  | tag {before after : String} {t t' : WrittenTag} (hbefore : (events before).2 = .done)
    (h : t.Reorders t') : Reordered (before ++ t.text ++ after) (before ++ t'.text ++ after)

/-- **The order of attributes is not decoded**: when the attributes of any start tags and empty tags
are put in another order such that, under each local name that is read of the element, the last value
is the same as before, the same drawing comes of the markup, or none as before. -/
theorem ofMarkup_reordered {markup markup' : String}
    (h : Relation.ReflTransGen Reordered markup markup') (drawing : Drawing) :
    Drawing.ofMarkup markup = .ok drawing ↔ Drawing.ofMarkup markup' = .ok drawing := by
  have hagree : Agree Eq (Drawing.ofMarkup markup) (Drawing.ofMarkup markup') := by
    induction h with
    | refl => exact .self _
    | tail _ hlast ih =>
      obtain ⟨hbefore, hreorders⟩ := hlast
      exact ih.trans (hreorders.agree hbefore _)
  exact ⟨hagree.eq_ok, hagree.symm.eq_ok⟩

/-- The tag of a rectangle with two attributes. -/
def rectTag (first second : WrittenAttribute) (h : first.key ≠ second.key := by decide) :
    WrittenTag where
  name := "rect"
  attributes := [([' '], first), (['\n', ' '], second)]
  closed := true
  nodup := List.nodup_cons.2 ⟨fun hmem => h (List.mem_singleton.1 hmem), List.nodup_singleton _⟩

def leftEdge : WrittenAttribute := { key := "x", raw := "1" }

/-- Another attribute with a prefix, other marks, and blanks around its equals sign. -/
def topEdge : WrittenAttribute :=
  { key := "a:y", gaps := ([' '], ['\t']), mark := '\x27', raw := "2" }

/-- An attribute with the same local name as that of the left edge. -/
def prefixedEdge : WrittenAttribute := { key := "a:x", raw := "2" }

/-- A drawing of one tag in one layer. -/
def drawingOf (t : WrittenTag) : String :=
  "<svg width=\"9\" height=\"9\"><g>" ++ t.text ++ "</g></svg>"

theorem ofMarkup_reordered_rect :
    Relation.ReflTransGen Reordered (drawingOf (rectTag leftEdge topEdge))
        (drawingOf (rectTag topEdge leftEdge)) ∧
      ∃ drawing, Drawing.ofMarkup (drawingOf (rectTag leftEdge topEdge)) = .ok drawing ∧
        Drawing.ofMarkup (drawingOf (rectTag topEdge leftEdge)) = .ok drawing := by
  have hrect : Reordered (drawingOf (rectTag leftEdge topEdge))
      (drawingOf (rectTag topEdge leftEdge)) :=
    .tag (by decide +kernel) (.of_nodup rfl rfl (.swap _ _ _) (by decide +kernel))
  have hrun : (Drawing.ofMarkup (drawingOf (rectTag leftEdge topEdge))).toOption.isSome = true := by
    decide +kernel
  obtain ⟨drawing, hdrawing⟩ := Option.isSome_iff_exists.1 hrun
  have hmade := toOption_eq_some_iff.1 hdrawing
  exact ⟨.single hrect, drawing, hmade, (ofMarkup_reordered (.single hrect) drawing).1 hmade⟩

/-- The left edges of the rectangles, bit by bit. -/
def Drawing.leftEdges (drawing : Drawing) : List UInt64 :=
  drawing.layers.flatten.filterMap fun
    | .rect rect => some rect.x.toBits
    | _ => none

/-- **Prefixes do not keep attributes apart**: two attributes with different keys, one of which has a
prefix, are one to a rectangle. Their order tells where it is. -/
theorem attribute_order_counts :
    (rectTag leftEdge prefixedEdge).name = (rectTag prefixedEdge leftEdge).name ∧
      (rectTag leftEdge prefixedEdge).closed = (rectTag prefixedEdge leftEdge).closed ∧
      (rectTag leftEdge prefixedEdge).written.Perm (rectTag prefixedEdge leftEdge).written ∧
      leftEdge.key ≠ prefixedEdge.key ∧
      ∃ drawing drawing',
        Drawing.ofMarkup (drawingOf (rectTag leftEdge prefixedEdge)) = .ok drawing ∧
          Drawing.ofMarkup (drawingOf (rectTag prefixedEdge leftEdge)) = .ok drawing' ∧
          drawing ≠ drawing' := by
  have hdiffer : ((Drawing.ofMarkup (drawingOf (rectTag leftEdge prefixedEdge))).toOption.bind
      fun drawing => (Drawing.ofMarkup (drawingOf (rectTag prefixedEdge leftEdge))).toOption.map
        fun drawing' => decide (drawing.leftEdges = drawing'.leftEdges)) = some false := by
    decide +kernel
  obtain ⟨drawing, hdrawing, hdiffer⟩ := Option.bind_eq_some_iff.1 hdiffer
  obtain ⟨drawing', hdrawing', hdiffer⟩ := Option.map_eq_some_iff.1 hdiffer
  refine ⟨rfl, rfl, .swap _ _ _, by decide, drawing, drawing', toOption_eq_some_iff.1 hdrawing,
    toOption_eq_some_iff.1 hdrawing', ?_⟩
  rintro rfl
  exact of_decide_eq_false hdiffer rfl

end RenderLayout
