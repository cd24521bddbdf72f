import RenderLayout.Proofs.JsonReading

/-!
Which JSON texts are read.

Whatever is read from a text is spelled by it. So a text is read exactly if it spells a syntax tree
that has a value, and as this value.
-/

namespace RenderLayout.Json

open Number Reader

/-! ### Readers -/

namespace Reader

variable {α β : Type} {r : Reader α} {f : α → Reader β} {a : α} {b : β} {s t : List Char}

/-- From the first text the reader comes to the second one with this result, at some place. -/
def Reads (r : Reader α) (s : List Char) (a : α) (t : List Char) : Prop :=
  ∃ place place', r ⟨s, place⟩ = .ok (a, ⟨t, place'⟩)

lemma Reads.of_bind (h : Reads (r >>= f) s b t) : ∃ a m, Reads r s a m ∧ Reads (f a) m b t := by
  obtain ⟨place, place', h⟩ := h
  obtain ⟨⟨a, m, middle⟩, hr, hf⟩ := bind_eq_ok_iff.1 h
  exact ⟨a, m, ⟨place, middle, hr⟩, middle, place', hf⟩

/-- What is read is what the reader gives. -/
lemma Reads.of_gives {m : List Char} {result : Option α} (h : Reads r s a t)
    (hgives : Gives r s m result) : result = some a ∧ t = m := by
  obtain ⟨place, place', h⟩ := h
  have hr := hgives place
  rw [h] at hr
  cases result with
  | none => cases hr
  | some a' =>
    obtain ⟨rfl, rfl⟩ := Prod.mk.inj (Option.some.inj hr)
    exact ⟨rfl, rfl⟩

/-- What is read behind a reader that gives this. -/
lemma Reads.behind {m : List Char} (h : Reads (r >>= f) s b t) (hgives : Gives r s m (some a)) :
    Reads (f a) m b t := by
  obtain ⟨a', m', hr, hf⟩ := h.of_bind
  obtain ⟨ha, rfl⟩ := hr.of_gives hgives
  obtain rfl := Option.some.inj ha
  exact hf

lemma Reads.of_pure {a' : α} (h : Reads (pure a') s a t) : a' = a ∧ s = t := by
  obtain ⟨ha, ht⟩ := h.of_gives (gives_pure a' s)
  exact ⟨Option.some.inj ha, ht.symm⟩

lemma not_reads_stopHere (cause : Cause) : ¬ Reads (stopHere cause) s a t := fun h => by
  cases (h.of_gives (gives_stopHere (t := t) cause)).1

lemma not_reads_stopAhead (cause : Cause) : ¬ Reads (stopAhead cause) s a t := fun h => by
  cases (h.of_gives (gives_stopAhead (t := t) cause)).1

lemma Reads.behind_takeWhile {p : Char → Bool} {f : List Char → Reader β}
    (h : Reads (takeWhile p >>= f) s b t) :
    ∃ run m, (∀ c ∈ run, p c = true) ∧ Text.Stops p m ∧ s = run ++ m ∧ Reads (f run) m b t := by
  obtain ⟨run, m, rfl, hrun, hm⟩ := Text.exists_run p s
  exact ⟨run, m, hrun, hm, rfl, h.behind (gives_takeWhile hrun hm)⟩

lemma Reads.behind_peekToken {f : Option Char → Reader β} (h : Reads (peekToken >>= f) s b t) :
    ∃ m, Blanks s m ∧ Reads (f m.head?) m b t := by
  obtain ⟨blanks, m, rfl, hblanks, hm⟩ := Text.exists_run isBlank s
  have hs : Blanks (blanks ++ m) m := ⟨blanks, hblanks, rfl⟩
  exact ⟨m, hs, h.behind (gives_peekToken hs hm)⟩

end Reader

variable {s t : List Char}

lemma Blanks.trans {m : List Char} (h : Blanks s m) (h' : Blanks m t) : Blanks s t := by
  obtain ⟨blanks, hblanks, rfl⟩ := h
  obtain ⟨blanks', hblanks', rfl⟩ := h'
  refine ⟨blanks ++ blanks', fun c hc => ?_, (List.append_assoc _ _ _).symm⟩
  exact (List.mem_append.1 hc).elim (hblanks c) (hblanks' c)

lemma Separated.blanks {first : Bool} {m : List Char} (h : Separated first s m)
    (h' : Blanks m t) : Separated first s t := by
  cases first with
  | true => exact Blanks.trans h h'
  | false =>
    obtain ⟨u, hcomma, hblanks⟩ := h
    exact ⟨u, hcomma, hblanks.trans h'⟩

/-! ### Words and strings -/

lemma Reader.Reads.of_readWord {word : List Char} {u : Unit} (h : Reads (readWord word) s u t) :
    s = word ++ t := by
  induction word generalizing s with
  | nil => exact h.of_pure.2
  | cons expected word ih =>
    replace h := h.behind (gives_peek s)
    cases s with
    | nil => exact absurd h (not_reads_stopHere _)
    | cons c s =>
      rw [List.head?_cons] at h
      dsimp only at h
      split at h
      case isTrue hc => rw [hc, ih (h.behind (gives_eat c s)), List.cons_append]
      case isFalse =>
        obtain ⟨place, place', h⟩ := h
        cases h

lemma hexValue?_eq_some {c : Char} {n : Nat} (h : hexValue? c = some n) :
    n < 16 ∧ c.toLower = Nat.digitChar n := by
  have htable : ∀ code < 128, ∀ n ∈ hexValue? (Char.ofNat code),
      n < 16 ∧ (Char.ofNat code).toLower = Nat.digitChar n := by
    decide +kernel
  have hcode : c.toNat < 128 := by
    unfold hexValue? at h
    split_ifs at h with hdigit hlower hupper
    · simp only [Char.isDigit, Bool.and_eq_true, decide_eq_true_iff] at hdigit
      have : c.toNat ≤ 57 := hdigit.2
      omega
    · have : c.toNat ≤ 102 := hlower.2
      omega
    · have : c.toNat ≤ 70 := hupper.2
      omega
  have hc := htable c.toNat hcode n
  rw [Char.ofNat_toNat] at hc
  exact hc h

lemma exists_of_readHex4 {place : Place} {n : Nat} (h : readHex4 place s = .ok n) :
    ∃ digits t, s = digits ++ t ∧ IsHex4 n digits := by
  unfold readHex4 at h
  split at h
  case isTrue => cases h
  case isFalse =>
    split at h
    case h_1 a b c d t _ =>
      split at h
      case h_1 w x y z ha hb hc hd =>
        obtain rfl := Except.ok.inj h
        obtain ⟨hw, ha⟩ := hexValue?_eq_some ha
        obtain ⟨hx, hb⟩ := hexValue?_eq_some hb
        obtain ⟨hy, hc⟩ := hexValue?_eq_some hc
        obtain ⟨hz, hd⟩ := hexValue?_eq_some hd
        refine ⟨[a, b, c, d], t, rfl, by omega, ?_⟩
        rw [show (4096 * w + 256 * x + 16 * y + z) / 4096 = w by omega,
          show (4096 * w + 256 * x + 16 * y + z) / 256 % 16 = x by omega,
          show (4096 * w + 256 * x + 16 * y + z) / 16 % 16 = y by omega,
          show (4096 * w + 256 * x + 16 * y + z) % 16 = z by omega]
        simp [ha, hb, hc, hd]
      case h_2 => cases h
    case h_2 => cases h

lemma exists_of_readLowHalf {high count : Nat} {place : Place} {c : Char}
    (h : readLowHalf high place s = .ok (c, count)) :
    ∃ digits low t, s = '\\' :: 'u' :: (digits ++ t) ∧ IsHex4 low digits ∧
      isLowSurrogate low = true ∧
      c = Char.ofNat (0x10000 + (high - 0xd800) * 0x400 + (low - 0xdc00)) ∧ count = 6 := by
  unfold readLowHalf at h
  split at h
  case h_3 s =>
    obtain ⟨low, hlow, h⟩ := bind_eq_ok_iff.1 h
    obtain ⟨digits, t, rfl, hhex⟩ := exists_of_readHex4 hlow
    split at h
    case isTrue hsurrogate =>
      obtain ⟨rfl, rfl⟩ := Prod.mk.inj (Except.ok.inj h)
      exact ⟨digits, low, t, rfl, hhex, hsurrogate, rfl, rfl⟩
    case isFalse => cases h
  all_goals cases h

/-- What is read behind a backslash spells the character. -/
lemma exists_of_readEscape {count : Nat} {place : Place} {c : Char}
    (h : readEscape place s = .ok (c, count)) :
    ∃ escape t, s = escape ++ t ∧ count = escape.length ∧ CharSpelled c ('\\' :: s) t := by
  unfold readEscape at h
  split at h
  case h_1 => cases h
  case h_2 s =>
    obtain ⟨n, hn, h⟩ := bind_eq_ok_iff.1 h
    obtain ⟨digits, t, rfl, hhex⟩ := exists_of_readHex4 hn
    have hlength := hhex.length_eq
    split at h
    case isTrue => cases h
    case isFalse hlow =>
      split at h
      case isTrue hhigh =>
        obtain ⟨⟨d, more⟩, hd, hdone⟩ := bind_eq_ok_iff.1 h
        rw [← hlength, List.drop_left] at hd
        obtain ⟨digits', low, t, rfl, hhex', hlow', hchar, hmore⟩ := exists_of_readLowHalf hd
        obtain ⟨rfl, rfl⟩ := Prod.mk.inj (Except.ok.inj hdone)
        have hvalid : (0x10000 + (n - 0xd800) * 0x400 + (low - 0xdc00)).isValidChar := by
          simp only [isHighSurrogate, isLowSurrogate, Bool.and_eq_true, decide_eq_true_iff] at *
          exact Or.inr ⟨by omega, by omega⟩
        refine ⟨'u' :: (digits ++ '\\' :: 'u' :: digits'), t, by simp, ?_, ?_⟩
        · simp [hlength, hhex'.length_eq, hmore]
        · exact .pair hhigh hlow' (by rw [hchar, Char.toNat_ofNat, if_pos hvalid]) hhex hhex'
      case isFalse hhigh =>
        obtain ⟨rfl, rfl⟩ := Prod.mk.inj (Except.ok.inj h)
        refine ⟨'u' :: digits, t, rfl, by simp [hlength], .code ?_⟩
        have hn := hhex.1
        simp only [isHighSurrogate, isLowSurrogate, Bool.and_eq_true, decide_eq_true_iff] at *
        rw [Char.toNat_ofNat, if_pos (by unfold Nat.isValidChar; omega)]
        exact hhex
  case h_3 e s _ =>
    split at h
    case h_1 meant hmeant =>
      obtain ⟨rfl, rfl⟩ := Prod.mk.inj (Except.ok.inj h)
      obtain ⟨before, behind, htable, -⟩ := List.lookup_eq_some_iff.1 hmeant
      exact ⟨[e], s, rfl, rfl, .letter (by simp [htable])⟩
    case h_2 => cases h

lemma exists_of_scanString {covered count : Nat} {place : Place} {cs : List Char}
    (h : scanString covered place s = .ok (cs, count)) :
    ∃ front text t, s = front ++ (text ++ t) ∧ front.length = covered ∧
      count = covered + text.length ∧ StringSpelled cs (text ++ t) t := by
  induction s generalizing covered place cs count with
  | nil => cases covered <;> cases h
  | cons c s ih =>
    cases covered with
    | succ covered =>
      rw [scanString] at h
      obtain ⟨⟨chars, fewer⟩, hscan, h⟩ := bind_eq_ok_iff.1 h
      obtain ⟨rfl, rfl⟩ := Prod.mk.inj (Except.ok.inj h)
      obtain ⟨front, text, t, rfl, rfl, rfl, hspelled⟩ := ih hscan
      exact ⟨c :: front, text, t, rfl, rfl, by omega, hspelled⟩
    | zero =>
      rw [scanString] at h
      split_ifs at h with hquote hslash hcontrol
      · obtain ⟨rfl, rfl⟩ := Prod.mk.inj (Except.ok.inj h)
        exact ⟨[], ['"'], s, by rw [hquote]; rfl, rfl, rfl, .nil⟩
      · obtain ⟨⟨meant, covered⟩, hescape, h⟩ := bind_eq_ok_iff.1 h
        obtain ⟨⟨chars, fewer⟩, hscan, h⟩ := bind_eq_ok_iff.1 h
        obtain ⟨rfl, rfl⟩ := Prod.mk.inj (Except.ok.inj h)
        obtain ⟨escape, m, hm, rfl, hchar⟩ := exists_of_readEscape hescape
        obtain ⟨front, text, t, hfront, hlength, rfl, hspelled⟩ := ih hscan
        obtain ⟨rfl, rfl⟩ := List.append_inj (hm.symm.trans hfront) hlength.symm
        refine ⟨[], '\\' :: (escape ++ text), t, ?_, rfl, ?_, ?_⟩
        · rw [hslash, hm, List.nil_append, List.cons_append, List.append_assoc]
        · rw [List.length_cons, List.length_append]
          omega
        · rw [List.cons_append, List.append_assoc, ← hm]
          exact .cons hchar hspelled
      · obtain ⟨⟨chars, fewer⟩, hscan, h⟩ := bind_eq_ok_iff.1 h
        obtain ⟨rfl, rfl⟩ := Prod.mk.inj (Except.ok.inj h)
        obtain ⟨front, text, t, rfl, hlength, rfl, hspelled⟩ := ih hscan
        obtain rfl := List.eq_nil_of_length_eq_zero hlength
        refine ⟨[], c :: text, t, rfl, rfl, by rw [List.length_cons]; omega, ?_⟩
        exact .cons (.itself hquote hslash (by omega)) hspelled

lemma Reader.Reads.stringSpelled {key : String} (h : Reads readString s key t) :
    StringSpelled key.toList s t := by
  obtain ⟨place, place', h⟩ := h
  obtain ⟨⟨chars, count⟩, hscan, hdone⟩ := bind_eq_ok_iff.1 h
  obtain ⟨hkey, hcursor⟩ := Prod.mk.inj (Except.ok.inj hdone)
  obtain ⟨front, text, m, hs, hlength, rfl, hspelled⟩ := exists_of_scanString hscan
  obtain rfl := List.eq_nil_of_length_eq_zero hlength
  obtain rfl : s = text ++ m := hs
  have ht : m = t := by
    have hrest := congrArg Cursor.rest hcursor
    simpa [Cursor.skip] using hrest
  rw [← hkey, String.toList_ofList, ← ht]
  exact hspelled

/-! ### Numbers -/

lemma Reader.Reads.behind_demandDigit {β : Type} {f : Unit → Reader β} {b : β}
    (h : Reads (demandDigit >>= f) s b t) :
    (∃ c m, s = c :: m ∧ c.isDigit = true) ∧ Reads (f ()) s b t := by
  cases s with
  | nil =>
    obtain ⟨_, _, hdemand, -⟩ := h.of_bind
    exact absurd (hdemand.behind (gives_peek [])) (not_reads_stopHere _)
  | cons c s =>
    by_cases hdigit : c.isDigit = true
    · exact ⟨⟨c, s, rfl, hdigit⟩, h.behind (gives_demandDigit hdigit s)⟩
    · obtain ⟨_, _, hdemand, -⟩ := h.of_bind
      replace hdemand := hdemand.behind (gives_peek _)
      rw [List.head?_cons] at hdemand
      dsimp only at hdemand
      rw [if_neg hdigit] at hdemand
      exact absurd hdemand (not_reads_stopAhead _)

lemma Reader.Reads.of_scaleNumber {negative : Bool} {digits : Nat} {exponent : Int} {v : Json}
    (h : Reads (scaleNumber negative digits exponent) s v t) : s = t := by
  have hgives := gives_scaleNumber negative digits exponent s
  exact (h.of_gives hgives).2.symm

/-- A run of digits is not empty if a digit is there. -/
lemma run_ne_nil {run m : List Char} (hdigit : ∃ c u, run ++ m = c :: u ∧ c.isDigit = true)
    (hm : Text.Stops Char.isDigit m) : run ≠ [] := by
  rintro rfl
  obtain ⟨c, u, hu, hc⟩ := hdigit
  have hstop := hm c (by rw [← List.nil_append m, hu]; rfl)
  rw [hc] at hstop
  cases hstop

/-- A sign that may be there. -/
lemma Reader.Reads.behind_sign {β : Type} {next : Unit → Reader β} {b : β}
    (h : Reads (if s.head? = some '-' ∨ s.head? = some '+' then eat >>= next else next ()) s b t) :
    ∃ sign : Option Char, ∃ m, (∀ c ∈ sign, c = '+' ∨ c = '-') ∧ s = sign.toList ++ m ∧
      Reads (next ()) m b t := by
  split at h
  case isTrue hsign =>
    cases s with
    | nil => rcases hsign with hsign | hsign <;> cases hsign
    | cons c s =>
      refine ⟨some c, s, ?_, rfl, h.behind (gives_eat c s)⟩
      rintro d ⟨⟩
      exact hsign.symm.imp Option.some.inj Option.some.inj
  case isFalse => exact ⟨none, s, nofun, rfl, h⟩

lemma exists_of_readExponent {negative : Bool} {digits : Nat} {exponent : Int} {letter : Char}
    {v : Json} (hletter : letter = 'e' ∨ letter = 'E')
    (h : Reads (readExponent negative digits exponent) (letter :: s) v t) :
    ∃ e : Exponent, letter :: s = e.text ++ t := by
  unfold readExponent at h
  replace h := ((h.behind (gives_eat letter s)).behind (gives_peek s)).behind (gives_peek s)
  obtain ⟨sign, m, hsign, hs, h⟩ := h.behind_sign
  obtain ⟨hdigit, h⟩ := h.behind_demandDigit
  replace h := h.behind (gives_rest m)
  obtain ⟨run, u, hrun, hdigits, hu⟩ := Text.exists_run Char.isDigit m
  rw [hrun] at hdigit
  rw [hrun, Text.takeWhile_append_stop hdigits hu] at h
  have hrest : u = t := by
    dsimp only at h
    split at h
    case h_1 =>
      split at h
      case isTrue =>
        obtain ⟨_, _, _, hstop⟩ := h.of_bind
        exact absurd hstop (not_reads_stopHere _)
      case isFalse => exact (h.behind (gives_skip run u)).of_pure.2
    case h_2 => exact (h.behind (gives_skip run u)).of_scaleNumber
  have hsome := run_ne_nil hdigit hu
  refine ⟨⟨letter, sign, run, hletter, hsign, hsome, hdigits⟩, ?_⟩
  rw [hs, hrun, hrest, Exponent.text, List.cons_append, List.append_assoc]

/-- What is read behind the decimals of a number. -/
lemma exists_of_power {negative : Bool} {digits : Nat} {exponent : Int} {v : Json}
    (h : Reads (do
      match ← peek with
      | some 'e' | some 'E' => readExponent negative digits exponent
      | _ => scaleNumber negative digits exponent) s v t) :
    ∃ e : Option Exponent, s = e.elim [] Exponent.text ++ t := by
  replace h := h.behind (gives_peek s)
  have hsome {letter : Char} (hletter : letter = 'e' ∨ letter = 'E')
      (hhead : s.head? = some letter) (h : Reads (readExponent negative digits exponent) s v t) :
      ∃ e : Option Exponent, s = e.elim [] Exponent.text ++ t := by
    obtain ⟨m, rfl⟩ := List.head?_eq_some_iff.1 hhead
    obtain ⟨e, he⟩ := exists_of_readExponent hletter h
    exact ⟨some e, he⟩
  split at h
  case h_1 hhead => exact hsome (Or.inl rfl) hhead h
  case h_2 hhead => exact hsome (Or.inr rfl) hhead h
  case h_3 => exact ⟨none, h.of_scaleNumber⟩

lemma exists_of_readDecimals {negative : Bool} {digits : Nat} {exponent : Int} {v : Json}
    (h : Reads (readDecimals negative digits exponent) ('.' :: s) v t) :
    ∃ run, run ≠ [] ∧ AreDigits run ∧ ∃ e : Option Exponent,
      s = run ++ (e.elim [] Exponent.text ++ t) := by
  unfold readDecimals at h
  obtain ⟨run, m, hrun, -, rfl, hnext⟩ := (h.behind (gives_eat '.' s)).behind_takeWhile
  split at hnext
  case isTrue =>
    replace hnext := hnext.behind (gives_peek m)
    split at hnext <;> exact absurd hnext (not_reads_stopAhead _)
  case isFalse hempty =>
    obtain ⟨e, rfl⟩ := exists_of_power hnext
    exact ⟨run, by simpa using hempty, hrun, e, rfl⟩

/-- The digits in front of the point. -/
lemma exists_of_whole {β : Type} {next : List Char → Reader β} {b : β}
    (hdigit : ∃ c m, s = c :: m ∧ c.isDigit = true)
    (h : Reads (if s.head? = some '0' then do
        eat
        match ← peek with
        | some c =>
          if c.isDigit = true then stopAhead .invalidNumber >>= next else pure ['0'] >>= next
        | none => pure ['0'] >>= next
      else takeWhile Char.isDigit >>= next) s b t) :
    ∃ run m, run ≠ [] ∧ AreDigits run ∧ (run.head? = some '0' → run = ['0']) ∧ s = run ++ m ∧
      Reads (next run) m b t := by
  split at h
  case isTrue hzero =>
    obtain ⟨m, rfl⟩ := List.head?_eq_some_iff.1 hzero
    replace h := (h.behind (gives_eat '0' m)).behind (gives_peek m)
    refine ⟨['0'], m, by simp, areDigits_zeros 1, fun _ => rfl, rfl, ?_⟩
    split at h
    case h_1 =>
      split at h
      case isTrue =>
        obtain ⟨_, _, hstop, -⟩ := h.of_bind
        exact absurd hstop (not_reads_stopAhead _)
      case isFalse => exact h.behind (gives_pure _ m)
    case h_2 => exact h.behind (gives_pure _ m)
  case isFalse hzero =>
    obtain ⟨run, m, hrun, hm, rfl, hnext⟩ := h.behind_takeWhile
    have hsome := run_ne_nil hdigit hm
    rw [List.head?_append_of_ne_nil _ hsome] at hzero
    exact ⟨run, m, hsome, hrun, fun h => absurd h hzero, rfl, hnext⟩

lemma exists_of_readNumber {negative : Bool} {v : Json} (h : Reads (readNumber negative) s v t) :
    ∃ lit : Literal, lit.negative = negative ∧ s = lit.body ++ t := by
  unfold readNumber at h
  obtain ⟨hdigit, h⟩ := h.behind_demandDigit
  replace h := h.behind (gives_peek s)
  obtain ⟨run, m, hsome, hrun, hzero, rfl, hnext⟩ := exists_of_whole hdigit h
  have hlit (decimals : Option (List Char)) (e : Option Exponent)
      (hdecimals : ∀ run ∈ decimals, run ≠ [] ∧ AreDigits run)
      (hm : m = decimals.elim [] ('.' :: ·) ++ (e.elim [] Exponent.text ++ t)) :
      ∃ lit : Literal, lit.negative = negative ∧ run ++ m = lit.body ++ t := by
    refine ⟨⟨negative, run, decimals, e, hsome, hrun, hzero, fun _ h => (hdecimals _ h).1,
      fun _ h => (hdecimals _ h).2⟩, rfl, ?_⟩
    rw [hm, Literal.body, Literal.fraction, Literal.power, List.append_assoc, List.append_assoc]
  have hexponent {letter : Char} (hletter : letter = 'e' ∨ letter = 'E')
      (hhead : m.head? = some letter) {digits : Nat} {exponent : Int}
      (h : Reads (readExponent negative digits exponent) m v t) :
      ∃ lit : Literal, lit.negative = negative ∧ run ++ m = lit.body ++ t := by
    obtain ⟨u, hu⟩ := List.head?_eq_some_iff.1 hhead
    rw [hu] at h
    obtain ⟨e, he⟩ := exists_of_readExponent hletter h
    exact hlit none (some e) (by simp) (hu.trans he)
  replace hnext := hnext.behind (gives_peek m)
  split at hnext
  case h_1 hhead =>
    obtain ⟨u, rfl⟩ := List.head?_eq_some_iff.1 hhead
    obtain ⟨decimals, hsome, hdecimals, e, rfl⟩ := exists_of_readDecimals hnext
    refine hlit (some decimals) e ?_ rfl
    rintro _ ⟨⟩
    exact ⟨hsome, hdecimals⟩
  case h_2 hhead => exact hexponent (Or.inl rfl) hhead hnext
  case h_3 hhead => exact hexponent (Or.inr rfl) hhead hnext
  case h_4 =>
    split at hnext
    case isTrue => exact hlit none none (by simp) hnext.of_pure.2
    case isFalse => exact hlit none none (by simp) hnext.of_scaleNumber

/-! ### Lists and objects -/

lemma Reader.Reads.of_nextItem {first more : Bool} (h : Reads (nextItem first) s more t) :
    if more = true then Separated first s t else Blanks s (']' :: t) := by
  unfold nextItem at h
  obtain ⟨m, hm, hnext⟩ := h.behind_peekToken
  split at hnext
  case h_1 => exact absurd hnext (not_reads_stopAhead _)
  case h_2 hhead =>
    obtain ⟨u, rfl⟩ := List.head?_eq_some_iff.1 hhead
    obtain ⟨rfl, rfl⟩ := (hnext.behind (gives_eat ']' u)).of_pure
    exact hm
  case h_3 c _ hhead =>
    obtain ⟨u, rfl⟩ := List.head?_eq_some_iff.1 hhead
    split at hnext
    case isTrue hcomma =>
      obtain ⟨rfl, hfirst⟩ := hcomma
      obtain ⟨w, hw, hbehind⟩ := (hnext.behind (gives_eat ',' u)).behind_peekToken
      split at hbehind
      case h_1 => exact absurd hbehind (not_reads_stopAhead _)
      case h_2 => exact absurd hbehind (not_reads_stopAhead _)
      case h_3 =>
        obtain ⟨rfl, rfl⟩ := hbehind.of_pure
        rw [if_pos rfl, show first = false by simpa using hfirst]
        exact ⟨u, hm, hw⟩
    case isFalse =>
      split at hnext
      case isTrue hfirst =>
        obtain ⟨rfl, rfl⟩ := hnext.of_pure
        rw [if_pos rfl, hfirst]
        exact hm
      case isFalse => exact absurd hnext (not_reads_stopAhead _)

lemma Reader.Reads.of_nextKey {first more : Bool} (h : Reads (nextKey first) s more t) :
    if more = true then ∃ u, t = '"' :: u ∧ Separated first s ('"' :: u)
    else Blanks s ('\x7d' :: t) := by
  unfold nextKey at h
  obtain ⟨m, hm, hnext⟩ := h.behind_peekToken
  split at hnext
  case h_1 => exact absurd hnext (not_reads_stopAhead _)
  case h_2 hhead =>
    obtain ⟨u, rfl⟩ := List.head?_eq_some_iff.1 hhead
    obtain ⟨rfl, rfl⟩ := (hnext.behind (gives_eat '\x7d' u)).of_pure
    exact hm
  case h_3 c _ hhead =>
    obtain ⟨u, rfl⟩ := List.head?_eq_some_iff.1 hhead
    split at hnext
    case isTrue hcomma =>
      obtain ⟨rfl, hfirst⟩ := hcomma
      obtain ⟨w, hw, hbehind⟩ := (hnext.behind (gives_eat ',' u)).behind_peekToken
      split at hbehind
      case h_3 hquote =>
        obtain ⟨x, rfl⟩ := List.head?_eq_some_iff.1 hquote
        obtain ⟨rfl, rfl⟩ := hbehind.of_pure
        rw [if_pos rfl, show first = false by simpa using hfirst]
        exact ⟨x, rfl, u, hm, hw⟩
      all_goals exact absurd hbehind (not_reads_stopAhead _)
    case isFalse =>
      split at hnext
      case isTrue => exact absurd hnext (not_reads_stopAhead _)
      case isFalse hfirst =>
        split at hnext
        case isTrue hquote =>
          obtain ⟨rfl, rfl⟩ := hnext.of_pure
          rw [if_pos rfl, show first = true by simpa using hfirst]
          exact ⟨u, by rw [hquote], hquote ▸ hm⟩
        case isFalse => exact absurd hnext (not_reads_stopAhead _)

lemma Reader.Reads.of_readKey {key : String} (h : Reads readKey ('"' :: s) key t) :
    ∃ m, StringSpelled key.toList s m ∧ Blanks m (':' :: t) := by
  unfold readKey at h
  obtain ⟨read, m, hkey, h⟩ := (h.behind (gives_eat '"' s)).of_bind
  obtain ⟨_, u, hcolon, h⟩ := h.of_bind
  obtain ⟨rfl, rfl⟩ := h.of_pure
  unfold readColon at hcolon
  obtain ⟨w, hw, hcolon⟩ := hcolon.behind_peekToken
  split at hcolon
  case h_2 hhead =>
    obtain ⟨x, rfl⟩ := List.head?_eq_some_iff.1 hhead
    obtain rfl := (hcolon.of_gives (gives_eat ':' x)).2
    exact ⟨m, hkey.stringSpelled, hw⟩
  all_goals exact absurd hcolon (not_reads_stopAhead _)

/-- What the reader reads is spelled, behind blanks. -/
def ReadsSpelled (item : Reader Json) : Prop :=
  ∀ s v t, Reads item s v t → ∃ m, ∃ tree : Tree .value, Blanks s m ∧ Spelled true tree m t

lemma exists_of_readItems {item : Reader Json} (hitem : ReadsSpelled item) {bound : Nat}
    {first : Bool} {vs : List Json} (h : Reads (readItems item bound first) s vs t) :
    ∃ tree : Tree .items, Spelled first tree s t := by
  induction bound generalizing first s vs with
  | zero => exact absurd h (not_reads_stopHere _)
  | succ bound ih =>
    rw [readItems] at h
    obtain ⟨more, m, hnext, h⟩ := h.of_bind
    replace hnext := hnext.of_nextItem
    cases more with
    | false =>
      obtain rfl := h.of_pure.2
      exact ⟨.noItems, .noItems hnext⟩
    | true =>
      obtain ⟨v, u, hv, h⟩ := h.of_bind
      obtain ⟨vs, w, hvs, h⟩ := h.of_bind
      obtain rfl := h.of_pure.2
      obtain ⟨x, value, hx, hvalue⟩ := hitem m v u hv
      obtain ⟨items, hitems⟩ := ih hvs
      exact ⟨.item value items, .item (Separated.blanks hnext hx) hvalue hitems⟩

lemma exists_of_readMembers {item : Reader Json} (hitem : ReadsSpelled item) {bound : Nat}
    {first : Bool} {before members : List (String × Json)}
    (h : Reads (readMembers item bound first before) s members t) :
    ∃ tree : Tree .members, Spelled first tree s t := by
  induction bound generalizing first s before with
  | zero => exact absurd h (not_reads_stopHere _)
  | succ bound ih =>
    rw [readMembers] at h
    obtain ⟨more, m, hnext, h⟩ := h.of_bind
    replace hnext := hnext.of_nextKey
    cases more with
    | false =>
      obtain rfl := h.of_pure.2
      exact ⟨.noMembers, .noMembers hnext⟩
    | true =>
      obtain ⟨u, rfl, hseparated⟩ := hnext
      obtain ⟨key, x, hkey, h⟩ := h.of_bind
      obtain ⟨v, w, hv, h⟩ := h.of_bind
      obtain ⟨y, hspelled, hcolon⟩ := hkey.of_readKey
      obtain ⟨z, value, hz, hvalue⟩ := hitem x v w hv
      obtain ⟨members, hmembers⟩ := ih h
      exact ⟨.member key value members, .member hseparated hspelled hcolon hz hvalue hmembers⟩

/-! ### Values -/

lemma readsSpelled_readWith {item : Option (Reader Json)} (hitem : ∀ r ∈ item, ReadsSpelled r) :
    ReadsSpelled (readWith item) := by
  intro s v t h
  unfold readWith at h
  obtain ⟨m, hm, h⟩ := h.behind_peekToken
  have hword {c : Char} {u word : List Char} {value : Json}
      (h : Reads (eat >>= fun _ => readWord word >>= fun _ => pure value) (c :: u) v t) :
      u = word ++ t := by
    obtain ⟨_, w, hword, hdone⟩ := (h.behind (gives_eat c u)).of_bind
    rw [hword.of_readWord, hdone.of_pure.2]
  split at h
  case h_1 => exact absurd h (not_reads_stopAhead _)
  case h_2 hhead =>
    obtain ⟨u, rfl⟩ := List.head?_eq_some_iff.1 hhead
    obtain rfl := hword h
    exact ⟨_, .null, hm, .null⟩
  case h_3 hhead =>
    obtain ⟨u, rfl⟩ := List.head?_eq_some_iff.1 hhead
    obtain rfl := hword h
    exact ⟨_, .bool true, hm, .bool true⟩
  case h_4 hhead =>
    obtain ⟨u, rfl⟩ := List.head?_eq_some_iff.1 hhead
    obtain rfl := hword h
    exact ⟨_, .bool false, hm, .bool false⟩
  case h_5 hhead =>
    obtain ⟨u, rfl⟩ := List.head?_eq_some_iff.1 hhead
    obtain ⟨key, w, hkey, h⟩ := (h.behind (gives_eat '"' u)).of_bind
    obtain rfl := h.of_pure.2
    exact ⟨_, .str key, hm, .str hkey.stringSpelled⟩
  case h_6 hhead =>
    obtain ⟨u, rfl⟩ := List.head?_eq_some_iff.1 hhead
    obtain ⟨lit, hsign, rfl⟩ := exists_of_readNumber (h.behind (gives_eat '-' u))
    have htext : '-' :: (lit.body ++ t) = lit.text ++ t := by
      rw [Literal.text, hsign]
      rfl
    exact ⟨_, .number lit, hm, htext ▸ .number lit⟩
  case h_7 hhead =>
    obtain ⟨u, rfl⟩ := List.head?_eq_some_iff.1 hhead
    cases item with
    | none => exact absurd h (not_reads_stopAhead _)
    | some r =>
      replace h := (h.behind (gives_eat '[' u)).behind (gives_rest u)
      obtain ⟨vs, w, hitems, h⟩ := h.of_bind
      obtain rfl := h.of_pure.2
      obtain ⟨items, hspelled⟩ := exists_of_readItems (hitem r rfl) hitems
      exact ⟨_, .arr items, hm, .arr hspelled⟩
  case h_8 hhead =>
    obtain ⟨u, rfl⟩ := List.head?_eq_some_iff.1 hhead
    cases item with
    | none => exact absurd h (not_reads_stopAhead _)
    | some r =>
      replace h := (h.behind (gives_eat '\x7b' u)).behind (gives_rest u)
      obtain ⟨ms, w, hmembers, h⟩ := h.of_bind
      obtain rfl := h.of_pure.2
      obtain ⟨members, hspelled⟩ := exists_of_readMembers (hitem r rfl) hmembers
      exact ⟨_, .obj members, hm, .obj hspelled⟩
  case h_9 =>
    split at h
    case isTrue =>
      obtain ⟨lit, hsign, rfl⟩ := exists_of_readNumber h
      have htext : lit.body ++ t = lit.text ++ t := by
        rw [Literal.text, hsign]
        rfl
      exact ⟨_, .number lit, hm, htext ▸ .number lit⟩
    case isFalse => exact absurd h (not_reads_stopAhead _)

lemma readsSpelled_readValue (depth : Nat) : ReadsSpelled (readValue depth) := by
  induction depth with
  | zero => exact readsSpelled_readWith nofun
  | succ depth ih =>
    refine readsSpelled_readWith ?_
    rintro r ⟨⟩
    exact ih

/-- A text that is read spells a tree. -/
theorem exists_spells_of_parse {text : String} {v : Json} (h : parse text = .ok v) :
    ∃ tree, Spells tree text := by
  unfold parse Reader.run at h
  split at h
  case h_1 hrun =>
    obtain ⟨value, s, hvalue, hbehind⟩ := Reads.of_bind ⟨_, _, hrun⟩
    obtain ⟨_, t, hend, -⟩ := hbehind.of_bind
    obtain ⟨m, tree, hm, hspelled⟩ := readsSpelled_readValue 127 _ _ _ hvalue
    unfold readEnd at hend
    obtain ⟨w, hw, hend⟩ := hend.behind_peekToken
    split at hend
    case h_1 hnone =>
      obtain rfl := List.head?_eq_none_iff.1 hnone
      exact ⟨tree, m, s, hm, hspelled, hw⟩
    case h_2 => exact absurd hend (not_reads_stopAhead _)
  all_goals cases h

/-- **The JSON texts** are those that spell a syntax tree with a value, and this value is read. -/
theorem parse_eq_ok_iff {text : String} {v : Json} :
    parse text = .ok v ↔ ∃ tree, Spells tree text ∧ tree.meaning? 127 = some v := by
  constructor
  · intro h
    obtain ⟨tree, hspells⟩ := exists_spells_of_parse h
    have hread := parse_of_spells hspells
    rw [h] at hread
    exact ⟨tree, hspells, hread.symm⟩
  · rintro ⟨tree, hspells, hmeaning⟩
    rw [← toOption_eq_some_iff, parse_of_spells hspells, hmeaning]

end RenderLayout.Json
