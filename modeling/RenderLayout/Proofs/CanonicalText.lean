import RenderLayout.Proofs.JsonAccepted
import RenderLayout.Proofs.JsonUnambiguous
import RenderLayout.Proofs.JsonWriting

/-!
The canonical text of JSON values.

A value is read back from its text, which stands for all texts that spell the value: neither blanks
nor escapes nor the order of members make a difference to what is read, and what is read has one text.
-/

namespace RenderLayout.Json

open Number Reader

/-! ### The order of members -/

/-- Members are alike if they are the same in any order. -/
def Kind.Alike : (k : Kind) → Option k.Meaning → Option k.Meaning → Prop
  | .value => Eq
  | .items => Eq
  | .members => Option.Rel List.Perm

lemma Kind.Alike.refl {k : Kind} (v : Option k.Meaning) : k.Alike v v := by
  cases k with
  | value | items => rfl
  | members =>
    cases v with
    | none => exact .none
    | some l => exact .some (.refl l)

lemma Kind.Alike.trans {k : Kind} {u v w : Option k.Meaning} (huv : k.Alike u v)
    (hvw : k.Alike v w) : k.Alike u w := by
  cases k with
  | value | items => exact Eq.trans huv hvw
  | members =>
    cases huv with
    | none => exact hvw
    | some hperm =>
      cases hvw with
      | some hperm' => exact .some (hperm.trans hperm')

/-- Members of different keys make one object in any order. -/
lemma object_eq_of_perm {members others : List (String × Json)} (h : members.Perm others)
    (hnodup : (members.map (·.1)).Nodup) : object members = object others := by
  rw [object_eq, object_eq, Table.ofList_eq_of_perm h hnodup]

namespace Tree

variable {k : Kind} {a b : Tree k}

lemma Reordered.keys_perm (h : Reordered a b) : a.keys.Perm b.keys := by
  induction h with
  | refl tree => exact .refl _
  | trans _ _ ihab ihbc => exact ihab.trans ihbc
  | swap key key' value value' members => exact .swap key' key _
  | arr | obj | item => exact .refl _
  | member _ _ _ ihs => exact ihs.cons _

lemma Reordered.keysDistinct (h : Reordered a b) (ha : a.KeysDistinct) : b.KeysDistinct := by
  induction h with
  | refl tree => exact ha
  | trans _ _ ihab ihbc => exact ihbc (ihab ha)
  | swap key key' value value' members => exact ⟨ha.2.1, ha.1, ha.2.2⟩
  | arr _ ih => exact ih ha
  | obj h ih => exact ⟨h.keys_perm.nodup_iff.1 ha.1, ih ha.2⟩
  | item _ _ ih ihs => exact ⟨ih ha.1, ihs ha.2⟩
  | member _ _ ih ihs => exact ⟨ih ha.1, ihs ha.2⟩

/-- **The order of members** makes no difference to the value. -/
theorem Reordered.alike (h : Reordered a b) (ha : a.KeysDistinct) (depth : Nat) :
    k.Alike (a.meaning? depth) (b.meaning? depth) := by
  induction h generalizing depth with
  | refl tree => exact .refl _
  | trans hab _ ihab ihbc => exact (ihab ha depth).trans (ihbc (hab.keysDistinct ha) depth)
  | swap key key' value value' members =>
    simp only [meaning?]
    cases value.meaning? depth with
    | none => cases value'.meaning? depth <;> exact .none
    | some v =>
      cases value'.meaning? depth with
      | none => exact .none
      | some v' =>
        cases members.meaning? depth with
        | none => exact .none
        | some ms => exact .some (.swap (key', v') (key, v) ms)
  | arr _ ih =>
    cases depth with
    | zero => rfl
    | succ depth => exact congrArg (Option.map Json.arr) (ih ha depth)
  | @obj a b _ ih =>
    cases depth with
    | zero => rfl
    | succ depth =>
      have halike : Option.Rel List.Perm (a.meaning? depth) (b.meaning? depth) := ih ha.2 depth
      show Option.map Json.object (a.meaning? depth) = Option.map Json.object (b.meaning? depth)
      generalize hms : a.meaning? depth = members at halike ⊢
      generalize b.meaning? depth = others at halike ⊢
      cases halike with
      | none => rfl
      | @some ms _ hperm =>
        have hnodup : (ms.map (·.1)).Nodup := by
          rw [keys_meaning? a hms]
          exact ha.1
        exact congrArg some (object_eq_of_perm hperm hnodup)
  | @item a b as bs _ _ ih ihs =>
    have hvalue : a.meaning? depth = b.meaning? depth := ih ha.1 depth
    have hitems : as.meaning? depth = bs.meaning? depth := ihs ha.2 depth
    simp only [meaning?, hvalue, hitems]
    rfl
  | @member key a b as bs _ _ ih ihs =>
    have hvalue : a.meaning? depth = b.meaning? depth := ih ha.1 depth
    have hmembers : Option.Rel List.Perm (as.meaning? depth) (bs.meaning? depth) := ihs ha.2 depth
    simp only [meaning?, hvalue]
    cases b.meaning? depth with
    | none => exact .none
    | some v =>
      generalize as.meaning? depth = members at hmembers ⊢
      generalize bs.meaning? depth = others at hmembers ⊢
      cases hmembers with
      | none => exact .none
      | some hperm => exact .some (hperm.cons (key, v))

end Tree

/-! ### Normal form -/

/-- **Canonical text is a normal form.** A value is read back from its text, which has no blanks
outside of strings and all keys in order; and texts without repeated keys have one canonical text if
they differ in blanks, in escapes and in the order of members alone. -/
theorem render_normal :
    (∀ v : Json, Plain 127 v →
      parse v.render = .ok v ∧
      (∀ c ∈ unquoted .outside v.render.toList, Text.isBlank c = false) ∧
      (∃ tree, Spells tree v.render) ∧
      ∀ tree, Spells tree v.render → tree.KeysIncreasing) ∧
    ∀ (text text' : String) (tree tree' : Tree .value), Spells tree text → Spells tree' text' →
      tree.KeysDistinct → tree.Reordered tree' →
      (parse text).toOption.map render = (parse text').toOption.map render := by
  refine ⟨fun v hv => ?_, fun text text' tree tree' h h' hdistinct hreordered => ?_⟩
  · have hspells : Spells (.ofJson v) v.render := by
      refine ⟨renderChars v, [], ?_, ?_, Blanks.refl []⟩
      · rw [render, String.toList_ofList]
        exact Blanks.refl _
      · have := hv.floatless.spelled_render []
        rwa [List.append_nil] at this
    refine ⟨parse_eq_ok_iff.2 ⟨_, hspells, hv.meaning?_ofJson⟩,
      fun c hc => not_isBlank_of_mem_unquoted hc, ⟨_, hspells⟩, fun tree h => ?_⟩
    rw [h.unique hspells]
    exact hv.keysIncreasing_ofJson
  · rw [parse_of_spells h, parse_of_spells h']
    exact congrArg (Option.map render) (hreordered.alike hdistinct 127)

theorem render_normal_respelled :
    Plain 127 (.obj [("a", .bool true), ("b", .null)]) ∧
      parse (Json.obj [("a", .bool true), ("b", .null)]).render =
        .ok (.obj [("a", .bool true), ("b", .null)]) ∧
      (parse "\x7b \"\\u0062\": null,\n\"a\":true\x7d").toOption.map render =
        some "\x7b\"a\":true,\"b\":null\x7d" := by
  have hplain : Plain 127 (.obj [("a", .bool true), ("b", .null)]) := by
    refine .obj (List.pairwise_pair.2 (by decide)) fun m hm => ?_
    simp only [List.mem_cons, List.not_mem_nil, or_false] at hm
    rcases hm with rfl | rfl
    · exact .bool true
    · exact .null
  have htext : (Json.obj [("a", .bool true), ("b", .null)]).render =
      "\x7b\"a\":true,\"b\":null\x7d" := by
    decide
  have hspells : Spells (.obj (.member "a" (.bool true) (.member "b" .null .noMembers)))
      "\x7b\"a\":true,\"b\":null\x7d" := by
    refine ⟨_, [], Blanks.refl _, .obj (.member (Blanks.refl _) (stringSpelled_escaped ['a'] _)
      (Blanks.refl _) (Blanks.refl _) (.bool true) ?_), Blanks.refl []⟩
    exact .member ⟨_, Blanks.refl _, Blanks.refl _⟩ (stringSpelled_escaped ['b'] _) (Blanks.refl _)
      (Blanks.refl _) .null (.noMembers (Blanks.refl _))
  have hrespelled : Spells (.obj (.member "b" .null (.member "a" (.bool true) .noMembers)))
      "\x7b \"\\u0062\": null,\n\"a\":true\x7d" := by
    have hcode : IsHex4 'b'.toNat ['0', '0', '6', '2'] := ⟨by simp, rfl⟩
    have hblank (s : List Char) : Blanks (' ' :: s) s := ⟨[' '], by simp [isBlank], rfl⟩
    refine ⟨_, [], Blanks.refl _, .obj (.member (hblank _) (.cons (.code hcode) .nil)
      (Blanks.refl _) (hblank _) .null ?_), Blanks.refl []⟩
    exact .member ⟨_, Blanks.refl _, ['\n'], by simp [isBlank], rfl⟩ (stringSpelled_escaped ['a'] _)
      (Blanks.refl _) (Blanks.refl _) (.bool true) (.noMembers (Blanks.refl _))
  have hread := (render_normal.1 _ hplain).1
  have hsame := render_normal.2 _ _ _ _ hspells hrespelled ⟨by decide, trivial, trivial, trivial⟩
    (.obj (.swap "a" "b" (.bool true) .null .noMembers))
  refine ⟨hplain, hread, ?_⟩
  rw [← hsame, ← htext, hread]
  rfl

end RenderLayout.Json
