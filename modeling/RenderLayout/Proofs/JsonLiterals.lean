import RenderLayout.Proofs.JsonSyntax
import RenderLayout.Proofs.Outcome
import RenderLayout.Proofs.TextParts

/-!
What is read from the literals of a JSON text.

A reader gives a result in front of a text, or stops, whatever its place is. A string is read as the
characters that are spelled, and a number by its digits: as a whole number or as a float, unless it is
beyond all floats.
-/

namespace RenderLayout.Json

open Number

/-! ### Readers -/

namespace Reader

variable {α β : Type} {r : Reader α} {f : α → Reader β} {a : α} {b : Option β} {s m t : List Char}

/-- In front of the first text the reader has this result and comes to the second one; without a
result it stops. -/
def Gives (r : Reader α) (s t : List Char) (result : Option α) : Prop :=
  ∀ place, (r ⟨s, place⟩).toOption.map (fun p => (p.1, p.2.rest)) = result.map (·, t)

lemma Gives.bind (h : Gives r s m (some a)) (hf : Gives (f a) m t b) : Gives (r >>= f) s t b := by
  intro place
  have hr := h place
  show ((r ⟨s, place⟩ >>= fun p => f p.1 p.2 : Except Stop (β × Cursor))).toOption.map _ = _
  cases hrun : r ⟨s, place⟩ with
  | error stop =>
    rw [hrun] at hr
    cases hr
  | ok p =>
    rw [hrun] at hr
    obtain ⟨value, rest, place'⟩ := p
    obtain ⟨rfl, rfl⟩ := Prod.mk.inj (Option.some.inj hr)
    exact hf place'

lemma Gives.bind_none (h : Gives r s m none) : Gives (r >>= f) s t none := by
  intro place
  have hr := h place
  show ((r ⟨s, place⟩ >>= fun p => f p.1 p.2 : Except Stop (β × Cursor))).toOption.map _ = _
  cases hrun : r ⟨s, place⟩ with
  | error stop => rfl
  | ok p =>
    rw [hrun] at hr
    cases hr

lemma gives_pure (a : α) (s : List Char) : Gives (pure a) s s (some a) := fun _ => rfl

lemma Gives.map {result : Option α} (h : Gives r s t result) (f : α → β) :
    Gives (r >>= fun a => pure (f a)) s t (result.map f) := by
  cases result with
  | none => exact h.bind_none
  | some a => exact h.bind (gives_pure (f a) t)

/-- A result is unique, and so is what is left of the text. -/
lemma Gives.unique {a' : α} {t' : List Char} (h : Gives r s t (some a))
    (h' : Gives r s t' (some a')) : a = a' ∧ t = t' :=
  Prod.mk.inj (Option.some.inj ((h .start).symm.trans (h' .start)))

lemma gives_stopHere (cause : Cause) : Gives (stopHere cause : Reader α) s t none := fun _ => rfl

lemma gives_stopAhead (cause : Cause) : Gives (stopAhead cause : Reader α) s t none := fun _ => rfl

lemma gives_peek (s : List Char) : Gives peek s s (some s.head?) := fun _ => rfl

lemma gives_rest (s : List Char) : Gives rest s s (some s) := fun _ => rfl

lemma gives_skip (run t : List Char) : Gives (skip run.length) (run ++ t) t (some ()) := by
  intro place
  show some ((), (run ++ t).drop run.length) = _
  rw [List.drop_left]
  rfl

lemma gives_eat (c : Char) (s : List Char) : Gives eat (c :: s) s (some ()) := fun _ => rfl

lemma gives_takeWhile {p : Char → Bool} {run : List Char} (hrun : ∀ c ∈ run, p c = true)
    (hstops : Text.Stops p t) : Gives (takeWhile p) (run ++ t) t (some run) := by
  refine (gives_rest _).bind ?_
  dsimp only
  rw [Text.takeWhile_append_stop hrun hstops]
  exact (gives_skip run t).bind (gives_pure run t)

lemma gives_peekToken (h : Blanks s t) (ht : Text.Stops isBlank t) :
    Gives peekToken s t (some t.head?) := by
  obtain ⟨blanks, hblanks, rfl⟩ := h
  exact (gives_takeWhile hblanks ht).bind (gives_peek t)

end Reader

open Reader

variable {s t : List Char}

/-! ### Words and strings -/

lemma gives_readWord (word t : List Char) : Gives (readWord word) (word ++ t) t (some ()) := by
  induction word with
  | nil => exact gives_pure () t
  | cons c word ih =>
    refine (gives_peek _).bind ?_
    rw [List.cons_append, List.head?_cons]
    dsimp only
    rw [if_pos rfl]
    exact (gives_eat c _).bind ih

lemma hexValue?_of_toLower {c : Char} {n : Nat} (hn : n < 16) (h : c.toLower = Nat.digitChar n) :
    hexValue? c = some n := by
  have htable : ∀ code < 128, ∀ n < 16, (Char.ofNat code).toLower = Nat.digitChar n →
      hexValue? (Char.ofNat code) = some n := by decide +kernel
  have hdigit : ∀ n < 16, (Nat.digitChar n).toNat < 128 := by decide
  have hcode : c.toNat < 128 := by
    have hlower : c.toLower.toNat < 128 := h ▸ hdigit n hn
    unfold Char.toLower at hlower
    split at hlower
    case isTrue hupper =>
      have : c.toNat ≤ 90 := hupper.2
      omega
    case isFalse => exact hlower
  have hc := htable c.toNat hcode n hn
  rw [Char.ofNat_toNat] at hc
  exact hc h

lemma IsHex4.length_eq {n : Nat} {digits : List Char} (h : IsHex4 n digits) :
    digits.length = 4 := by
  rw [← List.length_map (f := Char.toLower), h.2]
  rfl

lemma readHex4_eq {n : Nat} {digits : List Char} (h : IsHex4 n digits) (place : Place)
    (t : List Char) : readHex4 place (digits ++ t) = .ok n := by
  have hlength := h.length_eq
  obtain ⟨hn, hdigits⟩ := h
  match digits, hlength with
  | [a, b, c, d], _ =>
    simp only [List.map_cons, List.map_nil, List.cons.injEq, and_true] at hdigits
    obtain ⟨ha, hb, hc, hd⟩ := hdigits
    have hbytes : ¬ ([a, b, c, d] ++ t).foldr (fun c size => c.utf8Size + size) 0 < 4 := by
      have ha := a.utf8Size_pos
      have hb := b.utf8Size_pos
      have hc := c.utf8Size_pos
      have hd := d.utf8Size_pos
      simp only [List.cons_append, List.foldr_cons]
      omega
    unfold readHex4
    rw [if_neg hbytes]
    simp only [List.cons_append, hexValue?_of_toLower (by omega) ha,
      hexValue?_of_toLower (by omega) hb, hexValue?_of_toLower (by omega) hc,
      hexValue?_of_toLower (by omega) hd]
    congr 1
    omega

lemma not_surrogate (c : Char) :
    isLowSurrogate c.toNat = false ∧ isHighSurrogate c.toNat = false := by
  have hvalid : c.toNat < 0xd800 ∨ 0xdfff < c.toNat ∧ c.toNat < 0x110000 := c.valid
  simp only [isLowSurrogate, isHighSurrogate, Bool.and_eq_false_iff, decide_eq_false_iff_not]
  omega

/-- An escape is read with its length. -/
lemma readEscape_eq {c : Char} (h : CharSpelled c ('\\' :: s) t) (place : Place) :
    ∃ escape, s = escape ++ t ∧ readEscape place s = .ok (c, escape.length) := by
  generalize hs : '\\' :: s = text at h
  cases h with
  | itself _ hslash => exact absurd (List.cons.inj hs).1.symm hslash
  | letter hletter =>
    rename_i e
    obtain ⟨-, rfl⟩ := List.cons.inj hs
    refine ⟨[e], rfl, ?_⟩
    simp only [letterEscapes, List.mem_cons, Prod.mk.injEq, List.not_mem_nil, or_false] at hletter
    rcases hletter with ⟨rfl, rfl⟩ | ⟨rfl, rfl⟩ | ⟨rfl, rfl⟩ | ⟨rfl, rfl⟩ | ⟨rfl, rfl⟩ |
      ⟨rfl, rfl⟩ | ⟨rfl, rfl⟩ | ⟨rfl, rfl⟩ <;> rfl
  | code hhex =>
    rename_i digits
    obtain ⟨-, rfl⟩ := List.cons.inj hs
    refine ⟨'u' :: digits, rfl, ?_⟩
    obtain ⟨hlow, hhigh⟩ := not_surrogate c
    rw [readEscape, readHex4_eq hhex, ok_bind, if_neg (by rw [hlow]; decide),
      if_neg (by rw [hhigh]; decide), Char.ofNat_toNat, List.length_cons, hhex.length_eq]
    rfl
  | pair hhigh hlow hc hhex hhex' =>
    rename_i high low digits digits'
    obtain ⟨-, rfl⟩ := List.cons.inj hs
    refine ⟨'u' :: (digits ++ '\\' :: 'u' :: digits'), by simp, ?_⟩
    have hnot : isLowSurrogate high = false := by
      unfold isHighSurrogate isLowSurrogate at *
      grind
    have hdrop : (digits ++ '\\' :: 'u' :: (digits' ++ t)).drop 4 =
        '\\' :: 'u' :: (digits' ++ t) := by
      rw [← hhex.length_eq, List.drop_left]
    rw [readEscape, readHex4_eq hhex, ok_bind, if_neg (by rw [hnot]; decide), if_pos hhigh, hdrop,
      readLowHalf, readHex4_eq hhex', ok_bind, if_pos hlow, ← hc, Char.ofNat_toNat, List.length_cons,
      List.length_append, List.length_cons, List.length_cons, hhex.length_eq, hhex'.length_eq]
    rfl

lemma scanString_covered (covered : List Char) (place : Place) (t : List Char) :
    ∃ place', scanString covered.length place (covered ++ t) =
      (fun p => (p.1, p.2 + covered.length)) <$> scanString 0 place' t := by
  induction covered generalizing place with
  | nil => exact ⟨place, by simp⟩
  | cons c covered ih =>
    obtain ⟨place', hplace⟩ := ih (place.next c)
    refine ⟨place', ?_⟩
    rw [List.length_cons, List.cons_append, scanString, hplace]
    cases scanString 0 place' t <;> rfl

/-- A string is read to its end, with its length. -/
lemma scanString_eq {cs : List Char} (h : StringSpelled cs s t) (place : Place) :
    ∃ text, s = text ++ t ∧ scanString 0 place s = .ok (cs, text.length) := by
  induction h generalizing place with
  | nil => exact ⟨['"'], rfl, rfl⟩
  | @cons c cs s m t hc hcs ih =>
    by_cases hescape : ∃ behind, s = '\\' :: behind
    · obtain ⟨behind, rfl⟩ := hescape
      obtain ⟨escape, rfl, hread⟩ := readEscape_eq hc (place.next '\\')
      obtain ⟨place', hcovered⟩ := scanString_covered escape (place.next '\\') m
      obtain ⟨text, rfl, hscan⟩ := ih place'
      refine ⟨'\\' :: (escape ++ text), by simp, ?_⟩
      rw [scanString, if_neg (by decide), if_pos rfl, hread, ok_bind]
      dsimp only
      rw [hcovered, hscan, List.length_cons, List.length_append, Nat.add_comm escape.length]
      rfl
    · cases hc with
      | itself hquote hslash hprinted =>
        obtain ⟨text, rfl, hscan⟩ := ih (place.next c)
        refine ⟨c :: text, rfl, ?_⟩
        rw [scanString, if_neg hquote, if_neg hslash, if_neg (by omega), hscan]
        rfl
      | letter => exact absurd ⟨_, rfl⟩ hescape
      | code => exact absurd ⟨_, rfl⟩ hescape
      | pair => exact absurd ⟨_, rfl⟩ hescape

lemma gives_readString {key : String} (h : StringSpelled key.toList s t) :
    Gives readString s t (some key) := by
  intro place
  obtain ⟨text, rfl, hscan⟩ := scanString_eq h place
  unfold readString
  dsimp only
  rw [hscan]
  show some (String.ofList key.toList, (text ++ t).drop text.length) = some (key, t)
  rw [String.ofList_toList, List.drop_left]

/-! ### Numbers -/

/-- A number from its digits and its exponent of ten, unless it is beyond all floats. -/
def scaled? (negative : Bool) (digits : Nat) (exponent : Int) : Option Json :=
  (scaleFloat? digits exponent).map fun x => .float (if negative then -x else x)

/-- A number with an exponent behind its digits. -/
def Exponent.scaled? (e : Exponent) (negative : Bool) (digits : Nat) (exponent : Int) :
    Option Json :=
  match overflowAt? 0 0 e.digits with
  | some _ =>
    if digits ≠ 0 ∧ e.sign ≠ some '-' then none else some (.float (if negative then -0 else 0))
  | none =>
    Json.scaled? negative digits
      (if e.sign = some '-' then exponent - (ofDigits e.digits : Int)
        else exponent + (ofDigits e.digits : Int))

/-- What a number is read as. -/
def Literal.value? (lit : Literal) : Option Json :=
  let (digits, left) := absorbDigits 0 lit.whole
  match lit.decimals with
  | none =>
    match lit.exponent with
    | none =>
      if left = 0 then some (wholeNumber lit.negative digits)
      else Json.scaled? lit.negative digits left
    | some e => e.scaled? lit.negative digits left
  | some run =>
    let (digits, fewer) := absorbDigits digits run
    let exponent : Int := left - (run.length - fewer : Nat)
    match lit.exponent with
    | none => Json.scaled? lit.negative digits exponent
    | some e => e.scaled? lit.negative digits exponent

lemma gives_demandDigit {c : Char} (h : c.isDigit = true) (s : List Char) :
    Gives demandDigit (c :: s) (c :: s) (some ()) := by
  refine (gives_peek _).bind ?_
  rw [List.head?_cons]
  dsimp only
  rw [if_pos h]
  exact gives_pure () _

lemma gives_scaleNumber (negative : Bool) (digits : Nat) (exponent : Int) (t : List Char) :
    Gives (scaleNumber negative digits exponent) t t (scaled? negative digits exponent) := by
  unfold scaleNumber scaled?
  cases scaleFloat? digits exponent with
  | none => exact gives_stopHere _
  | some x => exact gives_pure _ t

lemma EndsNumber.stops (ht : EndsNumber t) : Text.Stops Char.isDigit t := fun c hc => (ht c hc).1

/-- A character that may be there is passed. -/
lemma gives_eat_optional {β : Type} {c : Prop} [Decidable c] {next : Unit → Reader β}
    {sign : Option Char} {m : List Char} {b : Option β} (hc : c ↔ sign.isSome = true)
    (h : Gives (next ()) m t b) :
    Gives (if c then eat >>= next else next ()) (sign.toList ++ m) t b := by
  cases sign with
  | none =>
    rw [if_neg (by simp [hc])]
    exact h
  | some d =>
    rw [if_pos (by simp [hc])]
    exact (gives_eat d m).bind h

lemma gives_readExponent (e : Exponent) (negative : Bool) (digits : Nat) (exponent : Int)
    (ht : EndsNumber t) : Gives (readExponent negative digits exponent) (e.text ++ t) t
      (e.scaled? negative digits exponent) := by
  obtain ⟨letter, sign, run, hletter, hsign, hsome, hrun⟩ := e
  obtain ⟨digit, more, hmore⟩ := List.exists_cons_of_ne_nil hsome
  have hdigit : digit.isDigit = true := hrun digit (by simp [hmore])
  have hhead (c : Char) (hc : c.isDigit = false) :
      (sign.toList ++ (run ++ t)).head? = some c ↔ sign = some c := by
    cases sign with
    | none =>
      rw [hmore]
      refine iff_of_false (fun h => ?_) nofun
      rw [Option.some.inj h, hc] at hdigit
      cases hdigit
    | some d => simp
  unfold readExponent Exponent.text
  rw [List.cons_append, List.append_assoc]
  refine (gives_eat letter _).bind ((gives_peek _).bind ((gives_peek _).bind ?_))
  dsimp only
  simp only [hhead '-' rfl, hhead '+' rfl]
  refine gives_eat_optional ?_ ?_
  · cases sign with
    | none => simp
    | some d => simpa using (hsign d rfl).symm
  · have hdemand : Gives demandDigit (run ++ t) (run ++ t) (some ()) := by
      rw [hmore]
      exact gives_demandDigit hdigit _
    refine hdemand.bind ((gives_rest _).bind ?_)
    rw [Text.takeWhile_append_stop hrun ht.stops]
    unfold Exponent.scaled?
    dsimp only
    cases overflowAt? 0 0 run with
    | some count =>
      dsimp only
      split
      · exact Gives.bind (m := (run ++ t).drop count) (fun _ => rfl) (gives_stopHere _)
      · exact (gives_skip run t).bind (gives_pure _ t)
    | none => exact (gives_skip run t).bind (gives_scaleNumber _ _ _ t)

/-- What is behind the decimals of a number. -/
lemma gives_power (lit : Literal) (digits : Nat) (exponent : Int) (ht : EndsNumber t) :
    Gives (do
      match ← peek with
      | some 'e' | some 'E' => readExponent lit.negative digits exponent
      | _ => scaleNumber lit.negative digits exponent) (lit.power ++ t) t
      (match lit.exponent with
        | none => scaled? lit.negative digits exponent
        | some e => e.scaled? lit.negative digits exponent) := by
  refine (gives_peek _).bind ?_
  unfold Literal.power
  cases lit.exponent with
  | none =>
    rw [Option.elim_none, List.nil_append]
    split
    case h_1 he => exact absurd rfl (ht 'e' he).2.2.1
    case h_2 he => exact absurd rfl (ht 'E' he).2.2.2
    case h_3 => exact gives_scaleNumber _ _ _ t
  | some e =>
    have hread := gives_readExponent e lit.negative digits exponent ht
    rw [Option.elim_some]
    obtain ⟨letter, sign, run, rfl | rfl, hsign, hsome, hrun⟩ := e
    · exact hread
    · exact hread

lemma stops_power (lit : Literal) (ht : EndsNumber t) :
    Text.Stops Char.isDigit (lit.power ++ t) := by
  unfold Literal.power
  cases lit.exponent with
  | none => exact ht.stops
  | some e =>
    obtain ⟨letter, sign, run, rfl | rfl, hsign, hsome, hrun⟩ := e
    · exact Text.stops_cons rfl _
    · exact Text.stops_cons rfl _

lemma stops_fraction (lit : Literal) (ht : EndsNumber t) :
    Text.Stops Char.isDigit (lit.fraction ++ (lit.power ++ t)) := by
  unfold Literal.fraction
  cases lit.decimals with
  | none => exact stops_power lit ht
  | some run => exact Text.stops_cons rfl _

lemma gives_readDecimals (lit : Literal) {run : List Char} (hsome : run ≠ []) (hrun : AreDigits run)
    (digits : Nat) (exponent : Int) (ht : EndsNumber t) :
    Gives (readDecimals lit.negative digits exponent) ('.' :: run ++ (lit.power ++ t)) t
      (match lit.exponent with
        | none => scaled? lit.negative (absorbDigits digits run).1
            (exponent - (run.length - (absorbDigits digits run).2 : Nat))
        | some e => e.scaled? lit.negative (absorbDigits digits run).1
            (exponent - (run.length - (absorbDigits digits run).2 : Nat))) := by
  unfold readDecimals
  refine (gives_eat '.' _).bind ((gives_takeWhile hrun (stops_power lit ht)).bind ?_)
  rw [if_neg (by simpa using hsome)]
  exact gives_power lit _ _ ht

/-- The digits in front of the point: a zero alone or a run that starts with another digit. -/
lemma gives_whole {β : Type} {next : List Char → Reader β} {run m : List Char} {b : Option β}
    (hrun : AreDigits run) (hzero : run.head? = some '0' → run = ['0']) (hsome : run ≠ [])
    (hm : Text.Stops Char.isDigit m) (h : Gives (next run) m t b) :
    Gives (if (run ++ m).head? = some '0' then do
        eat
        match ← peek with
        | some c =>
          if c.isDigit = true then stopAhead .invalidNumber >>= next else pure ['0'] >>= next
        | none => pure ['0'] >>= next
      else takeWhile Char.isDigit >>= next) (run ++ m) t b := by
  have hhead : (run ++ m).head? = run.head? := by
    obtain ⟨c, more, rfl⟩ := List.exists_cons_of_ne_nil hsome
    rfl
  rw [hhead]
  split
  case isTrue hz =>
    obtain rfl := hzero hz
    refine (gives_eat '0' m).bind ((gives_peek m).bind ?_)
    split
    case h_1 c hc =>
      rw [if_neg (by rw [hm c hc]; decide)]
      exact (gives_pure _ m).bind h
    case h_2 => exact (gives_pure _ m).bind h
  case isFalse => exact (gives_takeWhile hrun hm).bind h

/-- A number is read as its digits say. -/
lemma gives_readNumber (lit : Literal) (ht : EndsNumber t) :
    Gives (readNumber lit.negative) (lit.body ++ t) t lit.value? := by
  have hdemand : Gives demandDigit (lit.body ++ t) (lit.body ++ t) (some ()) := by
    obtain ⟨c, more, hmore⟩ := List.exists_cons_of_ne_nil lit.some_digit
    unfold Literal.body
    rw [hmore]
    exact gives_demandDigit (lit.are_digits c (by simp [hmore])) _
  unfold readNumber
  refine hdemand.bind ((gives_peek _).bind ?_)
  dsimp only
  unfold Literal.body
  rw [List.append_assoc, List.append_assoc]
  refine gives_whole lit.are_digits lit.no_zero lit.some_digit (stops_fraction lit ht) ?_
  unfold Literal.value?
  generalize absorbDigits 0 lit.whole = absorbed
  obtain ⟨digits, left⟩ := absorbed
  dsimp only
  unfold Literal.fraction
  refine (gives_peek _).bind ?_
  cases hdecimals : lit.decimals with
  | some run =>
    exact gives_readDecimals lit (lit.some_decimal run hdecimals) (lit.are_decimals run hdecimals)
      digits left ht
  | none =>
    rw [Option.elim_none, List.nil_append]
    unfold Literal.power
    cases lit.exponent with
    | some e =>
      have hread := gives_readExponent e lit.negative digits left ht
      rw [Option.elim_some]
      obtain ⟨letter, sign, run, rfl | rfl, hsign, hsome, hrun⟩ := e
      · exact hread
      · exact hread
    | none =>
      rw [Option.elim_none, List.nil_append]
      dsimp only
      split
      case h_1 hpoint => exact absurd rfl (ht '.' hpoint).2.1
      case h_2 he => exact absurd rfl (ht 'e' he).2.2.1
      case h_3 he => exact absurd rfl (ht 'E' he).2.2.2
      case h_4 =>
        split
        · exact gives_pure _ t
        · exact gives_scaleNumber _ _ _ t

end RenderLayout.Json
