import RenderLayout.Proofs.JsonLiterals

/-!
What is read from a JSON text.

From every text that spells a syntax tree the same value is read, that of the tree: an object has
the last member of each key. Nothing is read if lists and objects nest too deep, or if a number is
beyond all floats.
-/

namespace RenderLayout.Json

open Number Reader

variable {s t : List Char}

/-! ### Values -/

/-- What a syntax tree of a kind stands for. -/
abbrev Kind.Meaning : Kind → Type
  | .value => Json
  | .items => List Json
  | .members => List (String × Json)

/-- The value of a tree in which lists and objects nest at most so deep. -/
def Tree.meaning? : {k : Kind} → Nat → Tree k → Option k.Meaning
  | _, _, .null => some Json.null
  | _, _, .bool value => some (Json.bool value)
  | _, _, .number lit => lit.value?
  | _, _, .str s => some (Json.str s)
  | _, 0, .arr _ => none
  | _, depth + 1, .arr items => (items.meaning? depth).map Json.arr
  | _, 0, .obj _ => none
  | _, depth + 1, .obj members => (members.meaning? depth).map Json.object
  | _, _, .noItems => some ([] : List Json)
  | _, depth, .item value items =>
    (value.meaning? depth).bind fun (v : Json) =>
      (items.meaning? depth).map fun (vs : List Json) => v :: vs
  | _, _, .noMembers => some ([] : List (String × Json))
  | _, depth, .member key value members =>
    (value.meaning? depth).bind fun (v : Json) =>
      (members.meaning? depth).map fun (ms : List (String × Json)) => (key, v) :: ms
termination_by structural _ _ tree => tree

/-! ### Parts of lists and objects -/

lemma Blanks.refl (s : List Char) : Blanks s s := ⟨[], nofun, rfl⟩

lemma Blanks.length_le (h : Blanks s t) : t.length ≤ s.length := by
  obtain ⟨blanks, -, rfl⟩ := h
  simp

lemma gives_nextItem_end {first : Bool} (h : Blanks s (']' :: t)) :
    Gives (nextItem first) s t (some false) :=
  (gives_peekToken h (Text.stops_cons rfl t)).bind ((gives_eat ']' t).bind (gives_pure false t))

lemma gives_nextItem {first : Bool} {c : Char} (h : Separated first s (c :: t))
    (hblank : isBlank c = false) (hc : c ≠ ']') :
    Gives (nextItem first) s (c :: t) (some true) := by
  have hstops : Text.Stops isBlank (c :: t) := Text.stops_cons hblank t
  cases first with
  | true =>
    refine (gives_peekToken h hstops).bind ?_
    rw [List.head?_cons]
    split
    case h_1 hnone => cases hnone
    case h_2 hend => exact absurd (Option.some.inj hend) hc
    case h_3 =>
      rw [if_neg (by simp), if_pos rfl]
      exact gives_pure true _
  | false =>
    obtain ⟨m, hcomma, hblanks⟩ := h
    refine (gives_peekToken hcomma (Text.stops_cons rfl m)).bind ((gives_eat ',' m).bind ?_)
    refine (gives_peekToken hblanks hstops).bind ?_
    rw [List.head?_cons]
    split
    case h_1 hnone => cases hnone
    case h_2 hend => exact absurd (Option.some.inj hend) hc
    case h_3 => exact gives_pure true _

lemma gives_nextKey_end {first : Bool} (h : Blanks s ('\x7d' :: t)) :
    Gives (nextKey first) s t (some false) :=
  (gives_peekToken h (Text.stops_cons rfl t)).bind ((gives_eat '\x7d' t).bind (gives_pure false t))

lemma gives_nextKey {first : Bool} (h : Separated first s ('"' :: t)) :
    Gives (nextKey first) s ('"' :: t) (some true) := by
  have hstops : Text.Stops isBlank ('"' :: t) := Text.stops_cons rfl t
  cases first with
  | true => exact (gives_peekToken h hstops).bind (gives_pure true _)
  | false =>
    obtain ⟨m, hcomma, hblanks⟩ := h
    refine (gives_peekToken hcomma (Text.stops_cons rfl m)).bind ((gives_eat ',' m).bind ?_)
    exact (gives_peekToken hblanks hstops).bind (gives_pure true _)

lemma gives_readKey {key : String} {w : List Char} (hkey : StringSpelled key.toList s w)
    (hcolon : Blanks w (':' :: t)) : Gives readKey ('"' :: s) t (some key) := by
  have hread : Gives readColon w t (some ()) :=
    (gives_peekToken hcolon (Text.stops_cons rfl t)).bind (gives_eat ':' t)
  exact (gives_eat '"' s).bind ((gives_readString hkey).bind (hread.bind (gives_pure key t)))

/-! ### Steps -/

section Steps

variable {read : Reader Json} {bound : Nat} {first : Bool} {u m : List Char} {v : Option Json}

/-- One more item is read in front of the others. -/
lemma gives_readItems_item {vs : Option (List Json)} {c : Char}
    (hseparated : Separated first s (c :: u)) (hblank : isBlank c = false) (hc : c ≠ ']')
    (hvalue : Gives read (c :: u) m v) (hitems : Gives (readItems read bound false) m t vs) :
    Gives (readItems read (bound + 1) first) s t (v.bind fun v => vs.map (v :: ·)) := by
  refine (gives_nextItem hseparated hblank hc).bind ?_
  cases v with
  | none => exact hvalue.bind_none
  | some v => exact hvalue.bind (hitems.map _)

/-- One more member is put among those that have been read. -/
lemma gives_readMembers_member {key : String} {w x : List Char} {before : List (String × Json)}
    {members : Json → Option (List (String × Json))} (hseparated : Separated first s ('"' :: u))
    (hkey : StringSpelled key.toList u w) (hcolon : Blanks w (':' :: x)) (hvalue : Gives read x m v)
    (hmembers : ∀ v,
      Gives (readMembers read bound false (insertPair key v before)) m t (members v)) :
    Gives (readMembers read (bound + 1) first before) s t (v.bind members) := by
  refine (gives_nextKey hseparated).bind ((gives_readKey hkey hcolon).bind ?_)
  cases v with
  | none => exact hvalue.bind_none
  | some v => exact hvalue.bind (hmembers v)

end Steps

/-! ### Trees -/

lemma CharSpelled.length_lt {c : Char} (h : CharSpelled c s t) : t.length < s.length := by
  cases h <;> simp only [List.length_cons, List.length_append] <;> omega

lemma StringSpelled.length_lt {cs : List Char} (h : StringSpelled cs s t) :
    t.length < s.length := by
  induction h with
  | nil => simp
  | cons hc _ ih => exact ih.trans hc.length_lt

lemma Separated.length_le {first : Bool} (h : Separated first s t) : t.length ≤ s.length := by
  cases first with
  | true => exact Blanks.length_le h
  | false =>
    obtain ⟨m, hcomma, hblanks⟩ := h
    have hcomma := hcomma.length_le
    have hblanks := hblanks.length_le
    rw [List.length_cons] at hcomma
    omega

lemma Literal.exists_digit (lit : Literal) : ∃ c m, lit.body = c :: m ∧ c.isDigit = true := by
  obtain ⟨c, m, hc⟩ := List.exists_cons_of_ne_nil lit.some_digit
  refine ⟨c, m ++ (lit.fraction ++ lit.power), ?_, lit.are_digits c (by simp [hc])⟩
  rw [Literal.body, hc, List.cons_append]

lemma ne_of_isDigit {c d : Char} (hc : c.isDigit = true) (hd : d.isDigit = false) : c ≠ d := by
  rintro rfl
  rw [hc] at hd
  cases hd

lemma Literal.exists_head (lit : Literal) (t : List Char) :
    ∃ c m, lit.text ++ t = c :: m ∧ (c = '-' ∨ c.isDigit = true) := by
  obtain ⟨c, m, hbody, hc⟩ := lit.exists_digit
  unfold Literal.text signed
  split
  · exact ⟨'-', _, rfl, Or.inl rfl⟩
  · rw [hbody]
    exact ⟨c, _, rfl, Or.inr hc⟩

/-- Every part of a tree is spelled by some characters. -/
lemma Spelled.length_lt {k : Kind} {first : Bool} {tree : Tree k} (h : Spelled first tree s t) :
    t.length < s.length := by
  induction h with
  | null =>
    simp only [List.length_append]
    exact Nat.lt_add_of_pos_left (by decide)
  | bool value =>
    simp only [List.length_append]
    exact Nat.lt_add_of_pos_left (by cases value <;> decide)
  | @number _ t lit =>
    obtain ⟨c, m, hhead, -⟩ := lit.exists_head []
    rw [List.append_nil] at hhead
    rw [hhead, List.length_append, List.length_cons]
    omega
  | str h =>
    have := h.length_lt
    rw [List.length_cons]
    omega
  | arr _ ih | obj _ ih =>
    rw [List.length_cons]
    omega
  | noItems h | noMembers h =>
    have := h.length_le
    rw [List.length_cons] at this
    omega
  | item hseparated _ _ hvalue hitems =>
    have := hseparated.length_le
    omega
  | member hseparated hkey hcolon hblanks _ _ hvalue hmembers =>
    have hseparated := hseparated.length_le
    have hkey := hkey.length_lt
    have hcolon := hcolon.length_le
    have hblanks := hblanks.length_le
    rw [List.length_cons] at hseparated hcolon
    omega

/-- A value starts with a character that is neither a blank nor the end of a list. -/
lemma Spelled.exists_head {first : Bool} {tree : Tree .value} (h : Spelled first tree s t) :
    ∃ c m, s = c :: m ∧ isBlank c = false ∧ c ≠ ']' := by
  cases h with
  | null => exact ⟨'n', _, rfl, rfl, by decide⟩
  | bool value => cases value <;> exact ⟨_, _, rfl, rfl, by decide⟩
  | number lit =>
    obtain ⟨c, m, hhead, hc⟩ := lit.exists_head t
    refine ⟨c, m, hhead, ?_⟩
    rcases hc with rfl | hc
    · exact ⟨rfl, by decide⟩
    · have hne {d : Char} (hd : d.isDigit = false) : c ≠ d := ne_of_isDigit hc hd
      exact ⟨by simp [isBlank, hne], hne rfl⟩
  | str | arr | obj => exact ⟨_, _, rfl, rfl, by decide⟩

lemma endsNumber_cons {c : Char} (hc : c.isDigit = false ∧ c ≠ '.' ∧ c ≠ 'e' ∧ c ≠ 'E') :
    EndsNumber (c :: t) := by
  rintro d hd
  obtain rfl := Option.some.inj hd
  exact hc

/-- Blanks let no number go on. -/
lemma Blanks.endsNumber (h : Blanks s t) (ht : EndsNumber t) : EndsNumber s := by
  obtain ⟨blanks, hblanks, rfl⟩ := h
  cases blanks with
  | nil => exact ht
  | cons b blanks =>
    have hb := hblanks b List.mem_cons_self
    simp only [isBlank, Bool.or_eq_true, decide_eq_true_iff] at hb
    refine endsNumber_cons ?_
    rcases hb with ((rfl | rfl) | rfl) | rfl <;> decide

/-- No number goes on where another part of a list or an object begins or where it ends. -/
lemma Spelled.endsNumber {k : Kind} {tree : Tree k} (h : Spelled false tree s t) (hk : k ≠ .value) :
    EndsNumber s := by
  cases h with
  | null | bool | number | str | arr | obj => exact absurd rfl hk
  | noItems h | noMembers h => exact h.endsNumber (endsNumber_cons (by decide))
  | item hseparated | member hseparated =>
    obtain ⟨m, hcomma, -⟩ := hseparated
    exact hcomma.endsNumber (endsNumber_cons (by decide))

/-- What the reader of a part does with a text that spells it. -/
def Tree.IsRead : {k : Kind} → Bool → Tree k → List Char → List Char → Prop
  | .value, _, tree, s, t =>
    ∀ depth u, Blanks u s → EndsNumber t → Gives (readValue depth) u t (tree.meaning? depth)
  | .items, first, tree, s, t =>
    ∀ depth bound, s.length < bound →
      Gives (readItems (readValue depth) bound first) s t (tree.meaning? depth)
  | .members, first, tree, s, t =>
    ∀ depth bound, s.length < bound → ∀ before,
      Gives (readMembers (readValue depth) bound first before) s t
        ((tree.meaning? depth).map fun (members : List (String × Json)) =>
          members.foldl (fun sorted m => insertPair m.1 m.2 sorted) before)

/-! ### Reading values -/

variable {u : List Char} {item : Option (Reader Json)}

lemma gives_readWith_number (lit : Literal) (hu : Blanks u (lit.text ++ t)) (ht : EndsNumber t) :
    Gives (readWith item) u t lit.value? := by
  have hread := gives_readNumber lit ht
  obtain ⟨c, m, hbody, hc⟩ := lit.exists_digit
  have hne {d : Char} (hd : d.isDigit = false) : c ≠ d := ne_of_isDigit hc hd
  unfold Literal.text at hu
  cases hnegative : lit.negative with
  | true =>
    rw [hnegative] at hu hread
    exact (gives_peekToken hu (Text.stops_cons rfl _)).bind ((gives_eat '-' _).bind hread)
  | false =>
    rw [hnegative] at hu hread
    rw [hbody] at hu hread
    refine (gives_peekToken hu (Text.stops_cons (by simp [isBlank, hne]) _)).bind ?_
    have hhead : (signed false (c :: m) ++ t).head? = some c := rfl
    rw [hhead]
    split
    case h_9 d _ _ _ _ _ _ _ hd =>
      obtain rfl := Option.some.inj hd
      rw [if_pos hc]
      exact hread
    case h_1 hnone => cases hnone
    all_goals
      rename_i heq
      exact absurd (Option.some.inj heq) (hne rfl)

lemma exists_readWith (depth : Nat) : ∃ item, readValue depth = readWith item := by
  cases depth with
  | zero => exact ⟨none, rfl⟩
  | succ depth => exact ⟨some (readValue depth), rfl⟩

/-- **What spells a tree is read** as the value of the tree. -/
theorem Spelled.isRead {k : Kind} {first : Bool} {tree : Tree k} (h : Spelled first tree s t) :
    tree.IsRead first s t := by
  induction h with
  | @null _ t =>
    intro depth u hu _
    obtain ⟨item, hitem⟩ := exists_readWith depth
    rw [Tree.meaning?, hitem]
    exact (gives_peekToken hu (Text.stops_cons rfl _)).bind ((gives_eat 'n' _).bind
      ((gives_readWord "ull".toList t).bind (gives_pure Json.null t)))
  | @bool _ t value =>
    intro depth u hu _
    obtain ⟨item, hitem⟩ := exists_readWith depth
    rw [Tree.meaning?, hitem]
    cases value with
    | true =>
      exact (gives_peekToken hu (Text.stops_cons rfl _)).bind ((gives_eat 't' _).bind
        ((gives_readWord "rue".toList t).bind (gives_pure (Json.bool true) t)))
    | false =>
      exact (gives_peekToken hu (Text.stops_cons rfl _)).bind ((gives_eat 'f' _).bind
        ((gives_readWord "alse".toList t).bind (gives_pure (Json.bool false) t)))
  | number lit =>
    intro depth u hu ht
    obtain ⟨item, hitem⟩ := exists_readWith depth
    rw [Tree.meaning?, hitem]
    exact gives_readWith_number lit hu ht
  | @str _ s _ _ h =>
    intro depth u hu _
    obtain ⟨item, hitem⟩ := exists_readWith depth
    rw [Tree.meaning?, hitem]
    exact (gives_peekToken hu (Text.stops_cons rfl _)).bind ((gives_eat '"' _).bind
      ((gives_readString h).map Json.str))
  | @arr _ items s t h ih =>
    intro depth u hu _
    have hopen := gives_peekToken hu (Text.stops_cons rfl _)
    cases depth with
    | zero =>
      rw [Tree.meaning?]
      exact hopen.bind (gives_stopAhead .tooDeep)
    | succ depth =>
      rw [Tree.meaning?]
      exact hopen.bind ((gives_eat '[' s).bind ((gives_rest s).bind
        ((ih depth _ (Nat.lt_succ_self _)).map Json.arr)))
  | @obj _ members s t h ih =>
    intro depth u hu _
    have hopen := gives_peekToken hu (Text.stops_cons rfl _)
    cases depth with
    | zero =>
      rw [Tree.meaning?]
      exact hopen.bind (gives_stopAhead .tooDeep)
    | succ depth =>
      have hread := (ih depth _ (Nat.lt_succ_self _) []).map Json.obj
      rw [Option.map_map] at hread
      rw [Tree.meaning?]
      exact hopen.bind ((gives_eat '\x7b' s).bind ((gives_rest s).bind hread))
  | @noItems _ s t h =>
    intro depth bound hbound
    obtain ⟨bound, rfl⟩ : ∃ less, bound = less + 1 := ⟨bound - 1, by omega⟩
    rw [Tree.meaning?]
    exact (gives_nextItem_end h).bind (gives_pure [] t)
  | @item _ value items s u m t hseparated hvalue hitems ihvalue ihitems =>
    intro depth bound hbound
    obtain ⟨bound, rfl⟩ : ∃ less, bound = less + 1 := ⟨bound - 1, by omega⟩
    have hshorter := hseparated.length_le
    have hvalueShorter := hvalue.length_lt
    have hread := ihvalue depth u (Blanks.refl u) (hitems.endsNumber nofun)
    have hrest := ihitems depth bound (by omega)
    obtain ⟨c, _, rfl, hblank, hc⟩ := hvalue.exists_head
    rw [Tree.meaning?]
    exact gives_readItems_item hseparated hblank hc hread hrest
  | @noMembers _ s t h =>
    intro depth bound hbound before
    obtain ⟨bound, rfl⟩ : ∃ less, bound = less + 1 := ⟨bound - 1, by omega⟩
    rw [Tree.meaning?]
    exact (gives_nextKey_end h).bind (gives_pure before t)
  | @member _ key value members s u w x y m t hseparated hkey hcolon hblanks hvalue hmembers ihvalue
      ihmembers =>
    intro depth bound hbound before
    obtain ⟨bound, rfl⟩ : ∃ less, bound = less + 1 := ⟨bound - 1, by omega⟩
    have hread := ihvalue depth x hblanks (hmembers.endsNumber nofun)
    have hshorter : m.length < s.length := by
      have hseparated := hseparated.length_le
      have hkey := hkey.length_lt
      have hcolon := hcolon.length_le
      have hblanks := hblanks.length_le
      have hvalue := hvalue.length_lt
      rw [List.length_cons] at hseparated hcolon
      omega
    have hrest (v : Json) := ihmembers depth bound (by omega) (insertPair key v before)
    rw [Tree.meaning?, Option.map_bind]
    refine gives_readMembers_member hseparated hkey hcolon hread fun v => ?_
    rw [Function.comp_apply, Option.map_map]
    exact hrest v

lemma run_of_gives {r : Reader Json} {text : String} {result : Option Json}
    (h : Gives r text.toList s result) (hs : Blanks s []) : (r.run text).toOption = result := by
  have hend : Gives readEnd s [] (some ()) :=
    (gives_peekToken hs (Text.stops_nil _)).bind (gives_pure () [])
  have hwhole : Gives (do let value ← r; readEnd; return value) text.toList [] result := by
    cases result with
    | none => exact h.bind_none
    | some v => exact h.bind (hend.bind (gives_pure v []))
  have hstart := congrArg (Option.map Prod.fst) (hwhole .start)
  rw [Option.map_map, Option.map_map] at hstart
  have hresult : result.map (Prod.fst ∘ (·, ([] : List Char))) = result := by cases result <;> rfl
  rw [hresult] at hstart
  rw [← hstart]
  unfold Reader.run Cursor.ofText
  split <;> rename_i heq <;> rw [heq] <;> rfl

/-- **A text that spells a tree** is read as the value of the tree, and refused if that has none. -/
theorem parse_of_spells {tree : Tree .value} {text : String} (h : Spells tree text) :
    (parse text).toOption = tree.meaning? 127 := by
  obtain ⟨s, t, hbefore, hspelled, hbehind⟩ := h
  exact run_of_gives (hspelled.isRead 127 _ hbefore (hbehind.endsNumber nofun)) hbehind

end RenderLayout.Json
