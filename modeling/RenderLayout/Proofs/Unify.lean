import RenderLayout.Proofs.Replacements

/-!
What unification leaves of a layout.

Every chain of replacements ends at the representative of its group, which is the only one of the
group that is left. Components keep what they stand for, and a second unification finds nothing.
-/

namespace RenderLayout

variable {classes : Names} {replaced : Table String} {a b name kept new : String}

/-! ### Chains of replacements -/

lemma follow_of_none (h : replaced.find? name = none) (steps : Nat) :
    follow replaced steps name = name := by
  cases steps with
  | zero => rfl
  | succ steps => rw [follow, h]

lemma follow_of_some (h : replaced.find? name = some new) (steps : Nat) :
    follow replaced (steps + 1) name = follow replaced steps new := by
  rw [follow, h]

lemma survivor_of_none (h : replaced.find? name = none) : survivor replaced name = name :=
  follow_of_none h _

namespace Layout

variable {layout : Layout}

/-- Every chain ends at the representative of its group. -/
lemma survivor_of_represents (h : Represents classes layout.styles name kept) :
    survivor (layout.replacements classes) name = kept := by
  have hself := h.alike.self
  have hend := find?_replacements_of_represents h
  obtain ⟨first, hfirst⟩ := exists_first hself
  unfold survivor
  rcases lt_trichotomy name kept with hlt | rfl | hgt
  · have hfk : first < kept := lt_of_le_of_lt (hfirst.2 hself) hlt
    have hlast : (layout.replacements classes).find? first = some kept := by
      refine replacements_of_replacedAt ?_ (h.transfer hfirst.1.symm) (.first hfk)
      rwa [← group_eq hfirst.1]
    rcases (hfirst.2 hself).eq_or_lt with rfl | hlt'
    · rw [follow_of_some hlast, follow_of_none hend]
    · -- two steps, which the number of replacements allows for
      have hstep := replacements_of_replacedAt hfirst h (.before hlt' hlt)
      have hpos := Table.size_pos (Table.contains_of_find? hlast)
      obtain ⟨steps, hsteps⟩ := Nat.exists_eq_add_of_lt hpos
      rw [follow_of_some hstep, show (layout.replacements classes).size = steps + 1 by omega,
        follow_of_some hlast, follow_of_none hend]
  · exact follow_of_none hend _
  · have hstep := replacements_of_replacedAt hfirst h (.after hgt)
    rw [follow_of_some hstep, follow_of_none hend]

lemma survivor_of_not_alike (h : ¬ Alike layout.styles name name) :
    survivor (layout.replacements classes) name = name :=
  survivor_of_none (find?_replacements_of_not_alike h)

/-! ### The layout that is left -/

lemma find?_styles_unify (name : String) :
    (layout.unify classes).styles.find? name =
      if (layout.replacements classes).contains name then none else layout.styles.find? name := by
  rw [unify, Table.find?_eraseAll]
  simp only [Table.mem_keys_iff]

lemma contains_styles_unify :
    (layout.unify classes).styles.contains name = true ↔
      layout.styles.contains name = true ∧ (layout.replacements classes).find? name = none := by
  rw [Table.contains, find?_styles_unify]
  cases h : (layout.replacements classes).contains name with
  | false => simp [Table.contains, Table.contains_eq_false_iff.1 h]
  | true =>
    obtain ⟨new, hnew⟩ := Table.contains_iff.1 h
    simp [hnew]

/-- Of a group only the representative is left. -/
lemma eq_of_left (h : (layout.unify classes).styles.contains name = true)
    (hkept : Represents classes layout.styles name kept) : name = kept := by
  rw [← survivor_of_represents hkept]
  exact (survivor_of_none (contains_styles_unify.1 h).2).symm

lemma represents_left (h : Represents classes layout.styles name kept) :
    (layout.unify classes).styles.contains kept = true :=
  contains_styles_unify.2 ⟨h.alike.symm.contains, find?_replacements_of_represents h⟩

/-- The styles that are left are as they were. -/
lemma find?_styles_of_unify {s : Style} (h : (layout.unify classes).styles.find? name = some s) :
    layout.styles.find? name = some s := by
  rw [find?_styles_unify] at h
  split at h
  · cases h
  · exact h

/-- The styles that are left are different from each other. -/
lemma eq_of_beq_left {s t : Style} (hs : (layout.unify classes).styles.find? a = some s)
    (ht : (layout.unify classes).styles.find? b = some t) (hst : (s == t) = true) : a = b := by
  have hab : Alike layout.styles a b :=
    ⟨s, t, find?_styles_of_unify hs, find?_styles_of_unify ht, hst⟩
  obtain ⟨kept, hkept⟩ := exists_represents classes hab.self
  calc a = kept := eq_of_left (Table.contains_of_find? hs) hkept
    _ = b := (eq_of_left (Table.contains_of_find? ht) (hkept.transfer hab.symm)).symm

/-- **Unification is canonical**: if no style holds NaN, the chain of replacements takes every style
name to the first class name of its group, or to the first name of a group without classes. So one
name of each group is left, the styles that are left are pairwise different, and no chain stops at a
name that is replaced. -/
theorem unify_canonical (classes : Names) (layout : Layout)
    (hnan : ∀ name style, layout.styles.find? name = some style → style.NaNFree) :
    (∀ name, layout.styles.contains name = true →
      Represents classes layout.styles name (survivor (layout.replacements classes) name)) ∧
    (∀ name, layout.styles.contains name = true →
      ∃! kept, (layout.unify classes).styles.contains kept = true ∧
        Alike layout.styles name kept) ∧
    (∀ a b s t, (layout.unify classes).styles.find? a = some s →
      (layout.unify classes).styles.find? b = some t → (s == t) = true → a = b) ∧
    (∀ name, (layout.replacements classes).find?
      (survivor (layout.replacements classes) name) = none) := by
  have hrep {name : String} (h : layout.styles.contains name = true) :
      Represents classes layout.styles name (survivor (layout.replacements classes) name) := by
    obtain ⟨style, hstyle⟩ := Table.contains_iff.1 h
    have hself := Alike.of_nanFree hstyle (hnan name style hstyle)
    obtain ⟨kept, hkept⟩ := exists_represents classes hself
    rwa [survivor_of_represents hkept]
  refine ⟨fun _ => hrep, ?_, fun _ _ _ _ => eq_of_beq_left, ?_⟩
  · intro name h
    refine ⟨_, ⟨represents_left (hrep h), (hrep h).alike⟩, ?_⟩
    rintro other ⟨hleft, halike⟩
    exact eq_of_left hleft ((hrep h).transfer halike.symm)
  · intro name
    by_cases hself : Alike layout.styles name name
    · exact find?_replacements_of_represents (hrep hself.contains)
    · rw [survivor_of_not_alike hself]
      exact find?_replacements_of_not_alike hself

/-- Four equal styles, of which the third is to be that of a class, and a different one. -/
def chain : Layout :=
  { styles := .ofList [("a", {}), ("b", {}), ("c", {}), ("d", {}), ("e", { rotation := some 0 })] }

lemma nanFree_chain (name : String) (style : Style) (h : chain.styles.find? name = some style) :
    style.NaNFree := by
  have hpairs : chain.styles.pairs =
      [("a", {}), ("b", {}), ("c", {}), ("d", {}), ("e", { rotation := some 0 })] := rfl
  rw [Table.find?_eq_some_iff, hpairs] at h
  simp only [List.mem_cons, Prod.mk.injEq, List.not_mem_nil, or_false] at h
  rcases h with ⟨-, rfl⟩ | ⟨-, rfl⟩ | ⟨-, rfl⟩ | ⟨-, rfl⟩ | ⟨-, rfl⟩
  all_goals
    refine ⟨?_, ?_, ?_, ?_⟩
    all_goals rintro _ ⟨⟩
  exact (by decide +kernel : (0 : Float).isNaN = false)

/-- From the second name the chain goes over the first one to the class. -/
theorem unify_canonical_chain :
    (∀ name style, chain.styles.find? name = some style → style.NaNFree) ∧
    (chain.replacements (Names.ofList ["c"])).pairs = [("a", "c"), ("b", "a"), ("d", "c")] ∧
    Represents (Names.ofList ["c"]) chain.styles "b" "c" := by
  refine ⟨nanFree_chain, by decide +kernel, ?_⟩
  have hend : survivor (chain.replacements (Names.ofList ["c"])) "b" = "c" := by decide +kernel
  have h := (unify_canonical (Names.ofList ["c"]) chain nanFree_chain).1 "b" (by decide +kernel)
  rwa [hend] at h

/-! ### What components refer to -/

/-- Of a component only the name of its style is new, and what it stands for is not: a name without
a style stays as it is, and the style of any other is the same entry or an equal one. -/
structure KeepsStyle (before after : Table Style) (old new : Component) : Prop where
  rest : new = { old with style := new.style }
  absent : old.style = none → new.style = none
  dangling : ∀ name, old.style = some name → before.contains name = false →
    new.style = some name ∧ after.contains name = false
  resolved : ∀ name style, old.style = some name → before.find? name = some style →
    ∃ name' style', new.style = some name' ∧ after.find? name' = some style' ∧
      (name' = name ∧ style' = style ∨ (style == style') = true)

lemma keepsStyle_rename (component : Component) :
    KeepsStyle layout.styles (layout.unify classes).styles component
      (component.renameStyle (survivor (layout.replacements classes))) where
  rest := rfl
  absent h := by rw [Component.renameStyle, h]; rfl
  dangling name h hname := by
    have hself : ¬ Alike layout.styles name name := fun hself => by
      rw [hself.contains] at hname
      cases hname
    refine ⟨?_, ?_⟩
    · rw [Component.renameStyle, h, Option.map_some, survivor_of_not_alike hself]
    · by_contra hleft
      have hleft : (layout.unify classes).styles.contains name = true := by simpa using hleft
      rw [(contains_styles_unify.1 hleft).1] at hname
      cases hname
  resolved name style h hstyle := by
    by_cases hself : Alike layout.styles name name
    · -- a style equal to itself goes by the name of the representative
      obtain ⟨kept, hkept⟩ := exists_represents classes hself
      obtain ⟨style', hstyle'⟩ := Table.contains_iff.1 (represents_left hkept)
      obtain ⟨s, t, hs, ht, hst⟩ := hkept.alike
      obtain rfl : style = s := Option.some.inj (hstyle.symm.trans hs)
      obtain rfl : style' = t := Option.some.inj ((find?_styles_of_unify hstyle').symm.trans ht)
      refine ⟨kept, style', ?_, hstyle', Or.inr hst⟩
      rw [Component.renameStyle, h, Option.map_some, survivor_of_represents hkept]
    · -- a style with NaN is not replaced
      have hnone : (layout.replacements classes).find? name = none :=
        find?_replacements_of_not_alike hself
      refine ⟨name, style, ?_, ?_, Or.inl ⟨rfl, rfl⟩⟩
      · rw [Component.renameStyle, h, Option.map_some, survivor_of_not_alike hself]
      · rw [find?_styles_unify, if_neg, hstyle]
        simp [Table.contains, hnone]

/-! ### A second unification -/

lemma replacements_unify : (layout.unify classes).replacements classes = .empty := by
  refine Table.ext_find? fun name => ?_
  rw [Table.find?_empty]
  refine Option.eq_none_iff_forall_ne_some.2 fun new hnew => ?_
  obtain ⟨x, y, h⟩ := find?_replacements.1 hnew
  obtain ⟨s, t, hs, ht, hst⟩ := h.alike_left.symm.trans h.alike_right
  exact absurd (eq_of_beq_left hs ht hst) (ne_of_lt h.lt)

lemma unify_of_no_replacements (h : layout.replacements classes = .empty) :
    layout.unify classes = layout := by
  have hrename : (fun page : Page => page.map (·.renameStyle (survivor .empty))) = id := by
    have hid : survivor (.empty : Table String) = id := funext fun name => survivor_of_none rfl
    funext page
    simp only [hid, Component.renameStyle, Option.map_id, id]
    exact List.map_id page
  unfold unify
  dsimp only
  rw [h, hrename, Table.map_id]
  rfl

lemma size_styles_unify :
    (layout.unify classes).styles.size + layout.unifiedCount classes = layout.styles.size := by
  have hlength : layout.unifiedCount classes = (layout.replacements classes).keys.length := by
    rw [unifiedCount, Table.keys, List.length_map, Table.size]
  rw [hlength, unify]
  refine Table.size_eraseAll _ (Table.nodup_keys _) fun name hname => ?_
  obtain ⟨new, hnew⟩ := Table.contains_iff.1 (Table.mem_keys_iff.1 hname)
  exact (replaces_self_of_find? hnew).contains

/-- **Unification keeps what is drawn**: the fonts, the pages and their components stay, except for
the style names of components, which stand for equal styles; the styles that are left are as they
were, the count is of those that are gone, and a second unification does nothing. -/
theorem unify_keeps (classes : Names) (layout : Layout) :
    (layout.unify classes).fonts = layout.fonts ∧
    (layout.unify classes).pages.keys = layout.pages.keys ∧
    (∀ name page, layout.pages.find? name = some page →
      ∃ page', (layout.unify classes).pages.find? name = some page' ∧
        List.Forall₂ (KeepsStyle layout.styles (layout.unify classes).styles) page page') ∧
    (∀ name style, (layout.unify classes).styles.find? name = some style →
      layout.styles.find? name = some style) ∧
    (layout.unify classes).styles.size + layout.unifiedCount classes = layout.styles.size ∧
    (layout.unify classes).unifiedCount classes = 0 ∧
    (layout.unify classes).unify classes = layout.unify classes := by
  refine ⟨rfl, ?_, ?_, fun _ _ => find?_styles_of_unify, size_styles_unify, ?_, ?_⟩
  · rw [unify, Table.keys_map]
  · intro name page h
    refine ⟨page.map (·.renameStyle (survivor (layout.replacements classes))), ?_, ?_⟩
    · rw [unify, Table.find?_map, h, Option.map_some]
    · rw [List.forall₂_map_right_iff]
      exact List.forall₂_same.2 fun component _ => keepsStyle_rename component
  · rw [unifiedCount, replacements_unify]
    rfl
  · exact unify_of_no_replacements replacements_unify

end Layout

end RenderLayout
