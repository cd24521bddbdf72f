import RenderLayout.Proofs.JsonReading

/-!
A text spells one syntax tree.

The readers of the parts of a text are functions, so what they read in front of a text is unique,
and where they come to. What they do not tell, the digits of a number and the members of an object in
the order of the text, is found again part by part.
-/

namespace RenderLayout.Json

open Number Reader

variable {s t t' : List Char}

lemma Blanks.unique {u u' : List Char} (h : Blanks s u) (h' : Blanks s u')
    (hu : Text.Stops isBlank u) (hu' : Text.Stops isBlank u') : u = u' :=
  ((gives_peekToken h hu).unique (gives_peekToken h' hu')).2

lemma StringSpelled.unique {key key' : String} (h : StringSpelled key.toList s t)
    (h' : StringSpelled key'.toList s t') : key = key' ∧ t = t' :=
  (gives_readString h).unique (gives_readString h')

lemma run_unique {p : Char → Bool} {run run' : List Char} (hrun : ∀ c ∈ run, p c = true)
    (hrun' : ∀ c ∈ run', p c = true) (ht : Text.Stops p t) (ht' : Text.Stops p t')
    (h : run ++ t = run' ++ t') : run = run' ∧ t = t' := by
  have hgives := gives_takeWhile hrun' ht'
  rw [← h] at hgives
  exact (gives_takeWhile hrun ht).unique hgives

/-! ### Numbers -/

/-- A part that may be missing is there on both sides or on none, as what is behind it does not start
like it. -/
lemma part_cases {α : Type} {f : Option α → List Char} (hf : f none = []) {x x' : Option α}
    {u u' : List Char} (hu : ∀ a ∈ x', f (some a) ++ u' ≠ u)
    (hu' : ∀ a ∈ x, f (some a) ++ u ≠ u') (h : f x ++ u = f x' ++ u') :
    x = none ∧ x' = none ∧ u = u' ∨
      ∃ a a', x = some a ∧ x' = some a' ∧ f (some a) ++ u = f (some a') ++ u' := by
  cases x with
  | none =>
    rw [hf, List.nil_append] at h
    cases x' with
    | none =>
      rw [hf, List.nil_append] at h
      exact Or.inl ⟨rfl, rfl, h⟩
    | some a' => exact absurd h.symm (hu a' rfl)
  | some a =>
    cases x' with
    | none =>
      rw [hf, List.nil_append] at h
      exact absurd h (hu' a rfl)
    | some a' => exact Or.inr ⟨a, a', rfl, rfl, h⟩

lemma Exponent.sign_append_ne (e e' : Exponent) {c : Char} (hc : c ∈ e.sign) (u v : List Char) :
    [c] ++ u ≠ e'.digits ++ v := by
  intro h
  obtain ⟨digit, more, hmore⟩ := List.exists_cons_of_ne_nil e'.some_digit
  have hne := ne_of_isDigit (e'.are_digits digit (by simp [hmore])) (d := c)
    (by rcases e.sign_eq c hc with rfl | rfl <;> rfl)
  rw [hmore] at h
  exact hne (List.cons.inj h).1.symm

lemma Exponent.unique {e e' : Exponent} (ht : EndsNumber t) (ht' : EndsNumber t')
    (h : e.text ++ t = e'.text ++ t') : e = e' ∧ t = t' := by
  unfold Exponent.text at h
  rw [List.cons_append, List.cons_append, List.append_assoc, List.append_assoc] at h
  obtain ⟨hletter, h⟩ := List.cons.inj h
  have hsame : e.sign = e'.sign ∧ e.digits ++ t = e'.digits ++ t' := by
    rcases part_cases rfl (fun c hc => e'.sign_append_ne e hc _ _)
      (fun c hc => e.sign_append_ne e' hc _ _) h with ⟨hsign, hsign', h⟩ | ⟨c, c', hsign, hsign', h⟩
    · exact ⟨hsign.trans hsign'.symm, h⟩
    · obtain ⟨rfl, hdigits⟩ := List.cons.inj h
      exact ⟨hsign.trans hsign'.symm, hdigits⟩
  obtain ⟨hdigits, hrest⟩ := run_unique e.are_digits e'.are_digits ht.stops ht'.stops hsame.2
  exact ⟨Exponent.ext hletter hsame.1 hdigits, hrest⟩

/-- Behind the whole digits of a number or behind its decimals. -/
lemma Literal.power_unique {lit lit' : Literal} (ht : EndsNumber t) (ht' : EndsNumber t')
    (h : lit.power ++ t = lit'.power ++ t') : lit.exponent = lit'.exponent ∧ t = t' := by
  have hletter (e : Exponent) (u : List Char) {t : List Char} (ht : EndsNumber t) :
      e.text ++ u ≠ t := by
    rintro rfl
    have hhead := ht e.letter rfl
    rcases e.letter_eq with he | he
    · exact hhead.2.2.1 he
    · exact hhead.2.2.2 he
  rcases part_cases (f := fun x => x.elim [] Exponent.text) rfl (fun e _ => hletter e t' ht)
    (fun e _ => hletter e t ht') h with ⟨hnone, hnone', hrest⟩ | ⟨e, e', hsome, hsome', h⟩
  · exact ⟨hnone.trans hnone'.symm, hrest⟩
  · obtain ⟨rfl, hrest⟩ := Exponent.unique ht ht' h
    exact ⟨hsome.trans hsome'.symm, hrest⟩

lemma Literal.fraction_unique {lit lit' : Literal} (ht : EndsNumber t) (ht' : EndsNumber t')
    (h : lit.fraction ++ (lit.power ++ t) = lit'.fraction ++ (lit'.power ++ t')) :
    lit.decimals = lit'.decimals ∧ lit.power ++ t = lit'.power ++ t' := by
  have hpoint (lit : Literal) {t : List Char} (ht : EndsNumber t) (u : List Char) :
      '.' :: u ≠ lit.power ++ t := by
    intro h
    unfold Literal.power at h
    cases he : lit.exponent with
    | none =>
      rw [he, Option.elim_none, List.nil_append] at h
      exact (ht '.' (by rw [← h]; rfl)).2.1 rfl
    | some e =>
      rw [he] at h
      have hletter := (List.cons.inj h).1
      rcases e.letter_eq with heq | heq
      all_goals
        rw [heq] at hletter
        exact absurd hletter (by decide)
  rcases part_cases (f := fun x => x.elim [] ('.' :: ·)) rfl (fun _ _ => hpoint lit ht _)
    (fun _ _ => hpoint lit' ht' _) h with ⟨hnone, hnone', hrest⟩ | ⟨run, run', hsome, hsome', h⟩
  · exact ⟨hnone.trans hnone'.symm, hrest⟩
  · obtain ⟨rfl, hrest⟩ := run_unique (lit.are_decimals run hsome) (lit'.are_decimals run' hsome')
      (stops_power lit ht) (stops_power lit' ht') (List.cons.inj h).2
    exact ⟨hsome.trans hsome'.symm, hrest⟩

lemma Literal.unique {lit lit' : Literal} (ht : EndsNumber t) (ht' : EndsNumber t')
    (h : lit.text ++ t = lit'.text ++ t') : lit = lit' ∧ t = t' := by
  have hsign (lit : Literal) {u v : List Char} (h : lit.body ++ u = '-' :: v) : False := by
    obtain ⟨c, m, hbody, hc⟩ := lit.exists_digit
    rw [hbody, List.cons_append] at h
    exact ne_of_isDigit hc rfl (List.cons.inj h).1
  have hsame : lit.negative = lit'.negative ∧ lit.body ++ t = lit'.body ++ t' := by
    unfold Literal.text at h
    cases hnegative : lit.negative with
    | false =>
      cases hnegative' : lit'.negative with
      | false =>
        rw [hnegative, hnegative'] at h
        exact ⟨rfl, h⟩
      | true =>
        rw [hnegative, hnegative'] at h
        exact (hsign lit h).elim
    | true =>
      cases hnegative' : lit'.negative with
      | false =>
        rw [hnegative, hnegative'] at h
        exact (hsign lit' h.symm).elim
      | true =>
        rw [hnegative, hnegative'] at h
        exact ⟨rfl, (List.cons.inj h).2⟩
  obtain ⟨hnegative, hbody⟩ := hsame
  unfold Literal.body at hbody
  simp only [List.append_assoc] at hbody
  obtain ⟨hwhole, hrest⟩ := run_unique lit.are_digits lit'.are_digits (stops_fraction lit ht)
    (stops_fraction lit' ht') hbody
  obtain ⟨hdecimals, hrest⟩ := Literal.fraction_unique ht ht' hrest
  obtain ⟨hexponent, hrest⟩ := Literal.power_unique ht ht' hrest
  exact ⟨Literal.ext hnegative hwhole hdecimals hexponent, hrest⟩

/-! ### Trees -/

/-- The first character of a value, with a zero in place of all that begin a number. -/
def Tree.mark : Tree .value → Char
  | .null => 'n'
  | .bool value => if value then 't' else 'f'
  | .number _ => '0'
  | .str _ => '"'
  | .arr _ => '['
  | .obj _ => '\x7b'

lemma Spelled.mark_eq {first : Bool} {tree : Tree .value} (h : Spelled first tree s t) :
    ∃ c m, s = c :: m ∧ tree.mark = if c = '-' ∨ c.isDigit = true then '0' else c := by
  cases h with
  | null => exact ⟨'n', _, rfl, rfl⟩
  | bool value => cases value <;> exact ⟨_, _, rfl, rfl⟩
  | number lit =>
    obtain ⟨c, m, hhead, hc⟩ := lit.exists_head t
    exact ⟨c, m, hhead, (if_pos hc).symm⟩
  | str | arr | obj => exact ⟨_, _, rfl, rfl⟩

/-- A value starts at the same place behind blanks. -/
lemma Spelled.start_unique {first first' : Bool} {tree tree' : Tree .value} {u u' : List Char}
    (h : Spelled first tree u t) (h' : Spelled first' tree' u' t') (hu : Blanks s u)
    (hu' : Blanks s u') : u = u' := by
  obtain ⟨c, m, rfl, hblank, -⟩ := h.exists_head
  obtain ⟨c', m', rfl, hblank', -⟩ := h'.exists_head
  exact hu.unique hu' (Text.stops_cons hblank m) (Text.stops_cons hblank' m')

/-- The trees begin alike: one word, or a number, a string, a list or an object each. -/
inductive Tree.SameForm : Tree .value → Tree .value → Prop
  | null : SameForm .null .null
  | bool (value : Bool) : SameForm (.bool value) (.bool value)
  | number (lit lit' : Literal) : SameForm (.number lit) (.number lit')
  | str (key key' : String) : SameForm (.str key) (.str key')
  | arr (items items' : Tree .items) : SameForm (.arr items) (.arr items')
  | obj (members members' : Tree .members) : SameForm (.obj members) (.obj members')

lemma Tree.sameForm_of_mark {tree tree' : Tree .value} (h : tree.mark = tree'.mark) :
    SameForm tree tree' := by
  cases tree <;> cases tree' <;> simp only [mark] at h
  all_goals grind [SameForm]

lemma Spelled.sameForm {first : Bool} {tree tree' : Tree .value} (h : Spelled first tree s t)
    (h' : Spelled first tree' s t') : Tree.SameForm tree tree' := by
  obtain ⟨c, m, hs, hmark⟩ := h.mark_eq
  obtain ⟨c', m', hs', hmark'⟩ := h'.mark_eq
  obtain ⟨rfl, -⟩ := List.cons.inj (hs.symm.trans hs')
  exact Tree.sameForm_of_mark (hmark.trans hmark'.symm)

/-- **A text spells one tree**, and the tree is spelled by one part of it. -/
theorem Spelled.unique {k : Kind} {first : Bool} {tree tree' : Tree k}
    (h : Spelled first tree s t) (h' : Spelled first tree' s t') (ht : EndsNumber t)
    (ht' : EndsNumber t') : tree = tree' ∧ t = t' := by
  induction h generalizing t' with
  | @null _ t =>
    cases Spelled.null.sameForm h'
    generalize hs : "null".toList ++ t = s at h'
    cases h' with
    | null => exact ⟨rfl, List.append_cancel_left hs⟩
  | @bool _ t value =>
    cases (Spelled.bool value).sameForm h'
    generalize hs : (if value = true then "true" else "false").toList ++ t = s at h'
    cases h' with
    | bool => exact ⟨rfl, List.append_cancel_left hs⟩
  | @number _ t lit =>
    cases (Spelled.number lit).sameForm h'
    generalize hs : lit.text ++ t = s at h'
    cases h' with
    | number lit' =>
      obtain ⟨rfl, hrest⟩ := Literal.unique ht ht' hs
      exact ⟨rfl, hrest⟩
  | str h =>
    cases (Spelled.str h).sameForm h'
    cases h' with
    | str h' =>
      obtain ⟨rfl, hrest⟩ := h.unique h'
      exact ⟨rfl, hrest⟩
  | arr h ih =>
    cases (Spelled.arr h).sameForm h'
    cases h' with
    | arr h' =>
      obtain ⟨rfl, hrest⟩ := ih h' ht ht'
      exact ⟨rfl, hrest⟩
  | obj h ih =>
    cases (Spelled.obj h).sameForm h'
    cases h' with
    | obj h' =>
      obtain ⟨rfl, hrest⟩ := ih h' ht ht'
      exact ⟨rfl, hrest⟩
  | noItems h =>
    cases h' with
    | noItems h' =>
      have hend := h.unique h' (Text.stops_cons rfl _) (Text.stops_cons rfl _)
      exact ⟨rfl, (List.cons.inj hend).2⟩
    | item hseparated' hvalue' =>
      obtain ⟨c, m, rfl, hblank, hc⟩ := hvalue'.exists_head
      cases ((gives_nextItem_end h).unique (gives_nextItem hseparated' hblank hc)).1
  | item hseparated hvalue hitems ihvalue ihitems =>
    obtain ⟨c, m, rfl, hblank, hc⟩ := hvalue.exists_head
    have hnext := gives_nextItem hseparated hblank hc
    cases h' with
    | noItems h' => cases (hnext.unique (gives_nextItem_end h')).1
    | item hseparated' hvalue' hitems' =>
      obtain ⟨c', m', rfl, hblank', hc'⟩ := hvalue'.exists_head
      rw [← (hnext.unique (gives_nextItem hseparated' hblank' hc')).2] at hvalue'
      obtain ⟨rfl, rfl⟩ := ihvalue hvalue' (hitems.endsNumber nofun) (hitems'.endsNumber nofun)
      obtain ⟨rfl, hrest⟩ := ihitems hitems' ht ht'
      exact ⟨rfl, hrest⟩
  | noMembers h =>
    cases h' with
    | noMembers h' =>
      have hend := h.unique h' (Text.stops_cons rfl _) (Text.stops_cons rfl _)
      exact ⟨rfl, (List.cons.inj hend).2⟩
    | member hseparated' =>
      cases ((gives_nextKey_end h).unique (gives_nextKey hseparated')).1
  | member hseparated hkey hcolon hblanks hvalue hmembers ihvalue ihmembers =>
    have hnext := gives_nextKey hseparated
    cases h' with
    | noMembers h' => cases (hnext.unique (gives_nextKey_end h')).1
    | member hseparated' hkey' hcolon' hblanks' hvalue' hmembers' =>
      obtain ⟨-, hkeys⟩ := hnext.unique (gives_nextKey hseparated')
      obtain ⟨-, rfl⟩ := List.cons.inj hkeys
      obtain ⟨rfl, rfl⟩ := (gives_readKey hkey hcolon).unique (gives_readKey hkey' hcolon')
      obtain rfl := hvalue.start_unique hvalue' hblanks hblanks'
      obtain ⟨rfl, rfl⟩ := ihvalue hvalue' (hmembers.endsNumber nofun) (hmembers'.endsNumber nofun)
      obtain ⟨rfl, hrest⟩ := ihmembers hmembers' ht ht'
      exact ⟨rfl, hrest⟩

/-- **A text spells at most one tree.** -/
theorem Spells.unique {tree tree' : Tree .value} {text : String} (h : Spells tree text)
    (h' : Spells tree' text) : tree = tree' := by
  obtain ⟨s, t, hbefore, hspelled, hbehind⟩ := h
  obtain ⟨s', t', hbefore', hspelled', hbehind'⟩ := h'
  obtain rfl := hspelled.start_unique hspelled' hbefore hbefore'
  exact (hspelled.unique hspelled' (hbehind.endsNumber nofun) (hbehind'.endsNumber nofun)).1

end RenderLayout.Json
