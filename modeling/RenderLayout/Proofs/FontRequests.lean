import Mathlib.Algebra.Order.Round
import Mathlib.Tactic.FieldSimp
import RenderLayout.Proofs.FontKeys
import RenderLayout.Proofs.RoundedNumbers

/-!
The font that declarations ask for, and the one that they get.

What is asked for is said without a search: a value stands behind the first key that has one, and goes
up to the first place where it may end. A font that does not stand in for another one is of the family
that is asked for, in a weight that is, and of the size that is, rounded to a whole number.
-/

namespace RenderLayout

/-! ### Whole numbers -/

namespace Number

variable {x : Float} {units : Nat}

lemma roundDiv_up_eq_round (num : Nat) {den : Nat} (hden : 0 < den) :
    (roundDiv .up num den : Int) = round (num / den : ℚ) := by
  have hlow := (roundDiv_near .up num hden).1
  have hhigh := lt_roundDiv_up num hden
  generalize roundDiv .up num den = n at hlow hhigh
  have hpos : (0 : ℚ) < den := Nat.cast_pos.2 hden
  have hlow : (2 * (n * den) : ℚ) ≤ 2 * num + den := by exact_mod_cast hlow
  have hhigh : (2 * num : ℚ) < 2 * (n * den) + den := by exact_mod_cast hhigh
  have hsplit : (num / den + 1 / 2 : ℚ) = (2 * num + den) / (2 * den) := by
    field_simp
  rw [round_eq, eq_comm, Int.floor_eq_iff, Int.cast_natCast, hsplit, le_div_iff₀ (by positivity),
    div_lt_iff₀ (by positivity)]
  constructor
  · linarith
  · linarith

/-- A count is rounded to the nearest whole number, a half upwards, unless that is too large. -/
lemma Counts.roundToInt64 (h : Counts x units) :
    roundToInt64 x = min (round (units / unitsPerOne : ℚ)) (2 ^ 63 - 1) := by
  obtain ⟨mantissa, scale, hx, rfl⟩ := h
  rw [← roundDiv_up_eq_round _ unitsPerOne_pos]
  unfold Number.roundToInt64
  rw [hx]
  rfl

/-- What a numeral says is a count or infinite. -/
lemma Numeral.value_counts (n : Numeral) :
    n.value = positiveInfinity ∨ ∃ units, Counts n.value units := by
  unfold value scaled
  rw [ofDecimal_eq_ofRatio]
  have hpos : 0 < 10 ^ (-(0 - n.places : Int)).toNat := Nat.pow_pos (by decide)
  exact (nearest_counts _ hpos).imp_right fun ⟨units, hcounts, _⟩ => ⟨units, hcounts⟩

end Number

namespace Font

open Text Number

/-! ### Values -/

/-- A value stands behind a key: it has a character, no line break, and goes up to the first place
behind its first character where it may end. -/
structure ValueAt (key : String) (ends : List Char → Bool) (rest raw behind : List Char) :
    Prop where
  parts : rest = key.toList ++ (raw ++ behind)
  some_char : raw ≠ []
  one_line : '\n' ∉ raw
  ended : ends behind = true
  first : ∀ early late, raw = early ++ late → early ≠ [] → late ≠ [] → ends (late ++ behind) = false

/-- The declarations have a value for a key: it is what stands behind the first key with something
behind it, trimmed. -/
def HasValue (key : String) (ends : List Char → Bool) (declarations : String)
    (value : List Char) : Prop :=
  ∃ before rest raw behind,
    FirstAt (fun rest => ∃ raw behind, ValueAt key ends rest raw behind) declarations.toList before
        rest ∧
      ValueAt key ends rest raw behind ∧ value = trim raw

lemma runUntil_eq_some_iff {stop : List Char → Bool} {s raw : List Char} :
    runUntil stop s = some raw ↔ ∃ behind, s = raw ++ behind ∧ raw ≠ [] ∧ '\n' ∉ raw ∧
      stop behind = true ∧
      ∀ early late, raw = early ++ late → early ≠ [] → late ≠ [] → stop (late ++ behind) = false := by
  induction s generalizing raw with
  | nil =>
    refine iff_of_false nofun ?_
    rintro ⟨behind, hparts, hne, -⟩
    exact hne (List.append_eq_nil_iff.1 hparts.symm).1
  | cons c rest ih =>
    rw [runUntil]
    constructor
    · intro h
      split_ifs at h with hline hstop
      · obtain rfl := Option.some.inj h
        refine ⟨rest, rfl, by simp, by simpa using Ne.symm hline, hstop, ?_⟩
        rintro early late hparts hearly hlate
        have hlength := congrArg List.length hparts
        have := List.length_pos_iff.2 hearly
        have := List.length_pos_iff.2 hlate
        simp only [List.length_singleton, List.length_append] at hlength
        omega
      · obtain ⟨tail, htail, rfl⟩ := Option.map_eq_some_iff.1 h
        obtain ⟨behind, rfl, hne, hlines, hended, hfirst⟩ := ih.1 htail
        refine ⟨behind, rfl, by simp, ?_, hended, fun early late hparts hearly hlate => ?_⟩
        · rw [List.mem_cons, not_or]
          exact ⟨Ne.symm hline, hlines⟩
        · obtain ⟨d, early, rfl⟩ := List.exists_cons_of_ne_nil hearly
          rw [List.cons_append, List.cons.injEq] at hparts
          obtain ⟨-, htail⟩ := hparts
          rcases early with _ | ⟨e, early⟩
          · rw [List.nil_append] at htail
            rw [← htail]
            exact Bool.eq_false_iff.2 hstop
          · exact hfirst _ late htail (by simp) hlate
    · rintro ⟨behind, hparts, hne, hlines, hended, hfirst⟩
      obtain ⟨d, tail, rfl⟩ := List.exists_cons_of_ne_nil hne
      rw [List.cons_append, List.cons.injEq] at hparts
      obtain ⟨rfl, rfl⟩ := hparts
      rw [List.mem_cons, not_or] at hlines
      rw [if_neg (Ne.symm hlines.1)]
      rcases List.eq_nil_or_concat tail with rfl | ⟨front, e, htail⟩
      · rw [List.nil_append, if_pos hended]
      · have hnil : tail ≠ [] := by simp [htail]
        rw [if_neg (by rw [hfirst [c] tail rfl (by simp) hnil]; exact Bool.false_ne_true)]
        refine Option.map_eq_some_iff.2 ⟨tail, ih.2 ⟨behind, rfl, hnil, hlines.2, hended, ?_⟩, rfl⟩
        exact fun early late hparts hearly hlate =>
          hfirst (c :: early) late (by rw [hparts, List.cons_append]) (by simp) hlate

lemma valueAt_iff {key : String} {ends : List Char → Bool} {rest raw : List Char} :
    (after? key.toList rest >>= runUntil ends) = some raw ↔ ∃ behind, ValueAt key ends rest raw behind := by
  rw [Option.bind_eq_bind, Option.bind_eq_some_iff]
  constructor
  · rintro ⟨s, hs, hraw⟩
    obtain ⟨behind, rfl, hne, hline, hended, hfirst⟩ := runUntil_eq_some_iff.1 hraw
    exact ⟨behind, eq_append_of_after? hs, hne, hline, hended, hfirst⟩
  · rintro ⟨behind, rfl, hne, hline, hended, hfirst⟩
    exact ⟨raw ++ behind, after?_append _ _,
      runUntil_eq_some_iff.2 ⟨behind, rfl, hne, hline, hended, hfirst⟩⟩

lemma value?_eq_some_iff {key declarations : String} {ends : List Char → Bool}
    {value : List Char} :
    value? key ends declarations.toList = some value ↔ HasValue key ends declarations value := by
  have hhere : (fun rest => (after? key.toList rest >>= runUntil ends).isSome = true) =
      fun rest => ∃ raw behind, ValueAt key ends rest raw behind := by
    refine funext fun rest => propext ?_
    rw [Option.isSome_iff_exists]
    exact exists_congr fun raw => valueAt_iff
  unfold value? HasValue
  rw [Option.map_eq_some_iff]
  simp only [firstMatch_eq_some_iff_firstAt, hhere]
  constructor
  · rintro ⟨raw, ⟨before, rest, hfirst, hraw⟩, rfl⟩
    obtain ⟨behind, hvalue⟩ := valueAt_iff.1 hraw
    exact ⟨before, rest, raw, behind, hfirst, hvalue, rfl⟩
  · rintro ⟨before, rest, raw, behind, hfirst, hvalue, rfl⟩
    exact ⟨raw, ⟨before, rest, hfirst, valueAt_iff.2 ⟨behind, hvalue⟩⟩, rfl⟩

/-! ### Requests -/

/-- A family is asked for. -/
def AsksFamily (declarations name : String) : Prop :=
  ∃ value, HasValue "font-family:" endsValue declarations value ∧
    name = String.ofList (unquote value)

/-- The specification ends with a word, or the weight is one. -/
def AsksWord (declarations ending word : String) : Prop :=
  (∃ value, HasValue "-inkscape-font-specification:'" endsQuote declarations value ∧
      ending.toList <:+ value) ∨
    HasValue "font-weight:" endsValue declarations word.toList

/-- A weight is asked for: the regular one if no other is. -/
def AsksWeight (declarations : String) : Weight → Prop
  | .regular => ¬ AsksWord declarations "Bold" "bold" ∧ ¬ AsksWord declarations "Light" "light"
  | .bold => AsksWord declarations "Bold" "bold"
  | .light => AsksWord declarations "Light" "light"

/-- A numeral stands behind the key for sizes, with the unit of pixels behind it. -/
def PixelsAt (rest : List Char) (n : Numeral) : Prop :=
  ∃ behind, rest = "font-size:".toList ++ (n.text ++ (['p', 'x'] ++ behind))

/-- A size is asked for. -/
def AsksPixels (declarations : String) (n : Numeral) : Prop :=
  ∃ before rest, FirstAt (fun rest => ∃ n, PixelsAt rest n) declarations.toList before rest ∧
    PixelsAt rest n

variable {declarations : String}

lemma family_eq_some_iff {name : String} :
    (Request.ofDeclarations declarations).family = some name ↔ AsksFamily declarations name := by
  unfold Request.ofDeclarations AsksFamily
  rw [Option.map_eq_some_iff]
  refine exists_congr fun value => ?_
  rw [value?_eq_some_iff, eq_comm (b := name)]
  rfl

lemma asksFor_iff {ending word : String} :
    asksFor (value? "-inkscape-font-specification:'" endsQuote declarations.toList)
        (value? "font-weight:" endsValue declarations.toList) ending word = true ↔
      AsksWord declarations ending word := by
  unfold asksFor AsksWord
  rw [Bool.or_eq_true]
  refine or_congr ?_ ?_
  · rw [Option.any_eq_true]
    refine exists_congr fun value => ?_
    rw [value?_eq_some_iff, List.isSuffixOf_iff_suffix]
  · rw [← value?_eq_some_iff, Option.any_eq_true]
    constructor
    · rintro ⟨value, hvalue, heq⟩
      rwa [← of_decide_eq_true heq]
    · exact fun h => ⟨_, h, decide_eq_true rfl⟩

lemma bold_iff : (Request.ofDeclarations declarations).bold = true ↔
    AsksWord declarations "Bold" "bold" := asksFor_iff

lemma light_iff : (Request.ofDeclarations declarations).light = true ↔
    AsksWord declarations "Light" "light" := asksFor_iff

/-! ### Sizes -/

lemma ends_pixels (n : Numeral) (behind : List Char) : n.Ends (['p', 'x'] ++ behind) where
  no_digit := stops_cons rfl _
  no_point _ c hc := by
    obtain rfl := Option.some.inj hc
    decide

lemma pixelsAt_iff {rest numeral : List Char} :
    (do
      let rest ← after? "font-size:".toList rest
      let numeral := takeNumeral rest
      let _ ← after? ['p', 'x'] (rest.drop numeral.length)
      return numeral) = some numeral ↔ ∃ n, PixelsAt rest n ∧ numeral = n.text := by
  simp only [Option.bind_eq_bind, Option.bind_eq_some_iff]
  constructor
  · rintro ⟨s, hs, behind, hbehind, hnumeral⟩
    obtain rfl := Option.some.inj hnumeral
    obtain ⟨n, t, rfl, hends⟩ := Numeral.exists_ends s
    rw [Numeral.takeNumeral_text hends, List.drop_left] at hbehind
    obtain rfl := eq_append_of_after? hbehind
    exact ⟨n, ⟨behind, eq_append_of_after? hs⟩, Numeral.takeNumeral_text hends⟩
  · rintro ⟨n, ⟨behind, rfl⟩, rfl⟩
    have htake := Numeral.takeNumeral_text (ends_pixels n behind)
    refine ⟨n.text ++ (['p', 'x'] ++ behind), after?_append _ _, behind, ?_, ?_⟩
    · rw [htake, List.drop_left, after?_append]
    · rw [htake]
      rfl

lemma pixels?_eq_some_iff {numeral : List Char} :
    pixels? declarations.toList = some numeral ↔
      ∃ n, AsksPixels declarations n ∧ numeral = n.text := by
  unfold pixels?
  rw [firstMatch_eq_some_iff_firstAt]
  simp only [Option.isSome_iff_exists, pixelsAt_iff]
  have hhere : (fun rest => ∃ numeral n, PixelsAt rest n ∧ numeral = n.text) =
      fun rest => ∃ n, PixelsAt rest n :=
    funext fun rest => propext
      ⟨fun ⟨_, n, hn, _⟩ => ⟨n, hn⟩, fun ⟨n, hn⟩ => ⟨n.text, n, hn, rfl⟩⟩
  rw [hhere]
  constructor
  · rintro ⟨before, rest, hfirst, n, hn, rfl⟩
    exact ⟨n, ⟨before, rest, hfirst, hn⟩, rfl⟩
  · rintro ⟨n, ⟨before, rest, hfirst, hn⟩, rfl⟩
    exact ⟨before, rest, hfirst, n, hn, rfl⟩

lemma size_eq_some_iff {size : Float} :
    (Request.ofDeclarations declarations).size = some size ↔
      ∃ n, AsksPixels declarations n ∧ size = sizeOf n.text := by
  unfold Request.ofDeclarations
  rw [Option.map_eq_some_iff]
  constructor
  · rintro ⟨numeral, hnumeral, rfl⟩
    obtain ⟨n, hn, rfl⟩ := pixels?_eq_some_iff.1 hnumeral
    exact ⟨n, hn, rfl⟩
  · rintro ⟨n, hn, rfl⟩
    exact ⟨n.text, pixels?_eq_some_iff.2 ⟨n, hn, rfl⟩, rfl⟩

/-- The largest size of a font. -/
def largestSize : Int := 2 ^ 63 - 1

/-- The size of a font for a numeral. What counts is the float nearest to the numeral. -/
inductive SizeFor (n : Numeral) : Int → Prop
  /-- The numeral says no number. -/
  | unread (h : ¬ n.Good) : SizeFor n defaultSize
  /-- The number has a nearest whole number, a half going up. -/
  | rounded {units : Nat} (h : n.Good) (counts : Counts n.value units) :
      SizeFor n (min (round (units / unitsPerOne : ℚ)) largestSize)
  /-- The number is beyond the floats. -/
  | infinite (h : n.Good) (beyond : n.value = positiveInfinity) : SizeFor n largestSize

lemma sizeFor_sizeOf (n : Numeral) : SizeFor n (roundToInt64 (sizeOf n.text)) := by
  unfold sizeOf
  cases hread : readFloat? n.text with
  | none =>
    rw [Option.getD_none, show roundToInt64 (ofRatio false defaultSize 1) = defaultSize by decide +kernel]
    refine .unread fun hgood => ?_
    rw [Numeral.readFloat?_eq_some_iff.2 ⟨hgood, rfl⟩] at hread
    cases hread
  | some x =>
    obtain ⟨hgood, rfl⟩ := Numeral.readFloat?_eq_some_iff.1 hread
    rw [Option.getD_some]
    obtain hinfinite | ⟨units, hcounts⟩ := n.value_counts
    · rw [hinfinite, show roundToInt64 positiveInfinity = largestSize by decide +kernel]
      exact .infinite hgood hinfinite
    · rw [hcounts.roundToInt64]
      exact .rounded hgood hcounts

/-! ### Choices -/

/-- The weight is one that the flags ask for. -/
def Weight.Meets (bold light : Bool) : Weight → Prop
  | .regular => bold = false ∧ light = false
  | .bold => bold = true
  | .light => light = true

lemma meets_iff {weight : Weight} :
    weight.Meets (Request.ofDeclarations declarations).bold
        (Request.ofDeclarations declarations).light ↔ AsksWeight declarations weight := by
  cases weight with
  | regular => exact and_congr (Bool.eq_false_iff.trans bold_iff.not) (Bool.eq_false_iff.trans light_iff.not)
  | bold => exact bold_iff
  | light => exact light_iff

lemma Family.weight?_cases (family : Family) (bold light : Bool) :
    (∃ weight ∈ family.weights, weight.Meets bold light ∧ family.weight? bold light = some weight) ∨
      family.weight? bold light = none ∧ ∀ weight ∈ family.weights, ¬ weight.Meets bold light := by
  obtain ⟨name, weights⟩ := family
  unfold weight? has
  simp only [List.contains_iff_mem, Bool.and_eq_true, Bool.not_eq_true']
  split_ifs with hregular hbold hlight
  · exact .inl ⟨.regular, hregular.2, hregular.1, rfl⟩
  · exact .inl ⟨.bold, hbold.2, hbold.1, rfl⟩
  · exact .inl ⟨.light, hlight.2, hlight.1, rfl⟩
  · refine .inr ⟨rfl, fun weight hweight hmeets => ?_⟩
    cases weight with
    | regular => exact hregular ⟨hmeets, hweight⟩
    | bold => exact hbold ⟨hmeets, hweight⟩
    | light => exact hlight ⟨hmeets, hweight⟩

/-- No two families share a name. -/
lemma family_eq_of_name :
    ∀ family ∈ catalog, ∀ other ∈ catalog, family.name = other.name → family = other := by
  decide

lemma chooseFamily_cases (name : String) (bold light : Bool) (size : Float) :
    (∃ family ∈ catalog, family.name = name ∧ ∃ weight ∈ family.weights, weight.Meets bold light ∧
        chooseFamily name bold light size =
          ⟨⟨weight.variantName name, roundToInt64 size⟩, false⟩) ∨
      chooseFamily name bold light size = ⟨fallback, true⟩ ∧
        ∀ family ∈ catalog, family.name = name → ∀ weight ∈ family.weights,
          ¬ weight.Meets bold light := by
  unfold chooseFamily
  cases hfamily : family? name with
  | none =>
    refine .inr ⟨rfl, fun family hmem hname => ?_⟩
    exact absurd hname (of_decide_eq_false (Bool.eq_false_iff.2 (List.find?_eq_none.1 hfamily family hmem)))
  | some family =>
    obtain ⟨hmem, hname⟩ := name_of_family? hfamily
    rw [Option.bind_eq_bind, Option.bind_some]
    obtain ⟨weight, hweight, hmeets, heq⟩ | ⟨heq, hnone⟩ := family.weight?_cases bold light
    · rw [heq]
      exact .inl ⟨family, hmem, hname, weight, hweight, hmeets, rfl⟩
    · rw [heq]
      refine .inr ⟨rfl, fun other hother hsame => ?_⟩
      rwa [family_eq_of_name other hother family hmem (hsame.trans hname.symm)]

lemma choose_of_forall_not (h : ∀ n, ¬ AsksPixels declarations n) :
    choose declarations = ⟨fallback, false⟩ := by
  have hsize : (Request.ofDeclarations declarations).size = none := by
    rw [Option.eq_none_iff_forall_ne_some]
    intro size hsize
    obtain ⟨n, hn, -⟩ := size_eq_some_iff.1 hsize
    exact h n hn
  unfold choose Request.choose
  rw [hsize]

lemma choose_of_asksPixels {n : Numeral} (h : AsksPixels declarations n) :
    (∃ family ∈ catalog, ∃ weight ∈ family.weights,
        AsksFamily declarations family.name ∧ AsksWeight declarations weight ∧
          choose declarations =
            ⟨⟨weight.variantName family.name, roundToInt64 (sizeOf n.text)⟩, false⟩) ∨
      choose declarations = ⟨fallback, true⟩ ∧
        ∀ family ∈ catalog, AsksFamily declarations family.name → ∀ weight ∈ family.weights,
          ¬ AsksWeight declarations weight := by
  unfold choose Request.choose
  rw [size_eq_some_iff.2 ⟨n, h, rfl⟩]
  cases hname : (Request.ofDeclarations declarations).family with
  | none =>
    refine .inr ⟨rfl, fun family _ hasks => ?_⟩
    rw [family_eq_some_iff.2 hasks] at hname
    cases hname
  | some name =>
    obtain ⟨family, hmem, rfl, weight, hweight, hmeets, heq⟩ | ⟨heq, hnone⟩ :=
      chooseFamily_cases name (Request.ofDeclarations declarations).bold
        (Request.ofDeclarations declarations).light (sizeOf n.text)
    · exact .inl ⟨family, hmem, weight, hweight, family_eq_some_iff.1 hname, meets_iff.1 hmeets, heq⟩
    · refine .inr ⟨heq, fun family hmem hasks weight hweight hmeets => ?_⟩
      have hsame := Option.some.inj (hname.symm.trans (family_eq_some_iff.2 hasks))
      exact hnone family hmem hsame.symm weight hweight (meets_iff.2 hmeets)

lemma SizeFor.le {n : Numeral} {size : Int} (h : SizeFor n size) : size ≤ largestSize := by
  cases h with
  | unread => decide
  | rounded => exact min_le_right _ _
  | infinite => exact le_refl _

lemma choice_key (choice : Choice) :
    choice.key = choice.font.name ++ "-" ++ toString choice.font.size := rfl

lemma key_fallback (substituted : Bool) :
    (Choice.mk fallback substituted).key = "RobotoMono-10" := rfl

lemma exists_variant (declarations : String) :
    ∃ family ∈ catalog, ∃ weight ∈ family.weights,
      (choose declarations).font.name = weight.variantName family.name ∧
        (choose declarations).font.size ≤ largestSize := by
  have hfallback : ∃ family ∈ catalog, ∃ weight ∈ family.weights,
      fallback.name = weight.variantName family.name ∧ fallback.size ≤ largestSize := by
    decide
  by_cases hasks : ∃ n, AsksPixels declarations n
  · obtain ⟨n, hn⟩ := hasks
    obtain ⟨family, hfamily, weight, hweight, -, -, heq⟩ | ⟨heq, -⟩ := choose_of_asksPixels hn
    · rw [heq]
      exact ⟨family, hfamily, weight, hweight, rfl, (sizeFor_sizeOf n).le⟩
    · rwa [heq]
  · rwa [choose_of_forall_not (not_exists.1 hasks)]

/-- **Declarations get the font that they ask for, or the default one**: the key of a choice is that
of a family of the catalog in a weight that it has, at a size that is a whole number from zero on of
at most 63 bits. A font that stands in for another one is the default one; it does so just where a
size is asked for but no family that has a weight that is asked for. Any other font for a size is of
the family and in a weight that are asked for. Where no size is asked for, the font is the default
one and does not stand in for another. -/
theorem choose_reads (declarations : String) :
    (∃ family ∈ catalog, ∃ weight ∈ family.weights, ∃ size : Int, 0 ≤ size ∧ size ≤ 2 ^ 63 - 1 ∧
        (choose declarations).key = weight.variantName family.name ++ "-" ++ toString size) ∧
      ((choose declarations).substituted = true →
        (choose declarations).key = "RobotoMono-10" ∧ (∃ n, AsksPixels declarations n) ∧
          ∀ family ∈ catalog, AsksFamily declarations family.name → ∀ weight ∈ family.weights,
            ¬ AsksWeight declarations weight) ∧
      (∀ n, (choose declarations).substituted = false → AsksPixels declarations n →
        ∃ family ∈ catalog, ∃ weight ∈ family.weights, ∃ size,
          AsksFamily declarations family.name ∧ AsksWeight declarations weight ∧ SizeFor n size ∧
            (choose declarations).key = weight.variantName family.name ++ "-" ++ toString size) ∧
      ((∀ n, ¬ AsksPixels declarations n) →
        (choose declarations).key = "RobotoMono-10" ∧ (choose declarations).substituted = false) := by
  refine ⟨?_, fun hsubstituted => ?_, fun n hkept hn => ?_, fun hnone => ?_⟩
  · obtain ⟨family, hfamily, weight, hweight, hname, hlarge⟩ := exists_variant declarations
    refine ⟨family, hfamily, weight, hweight, _, size_choose_nonneg declarations, hlarge, ?_⟩
    rw [choice_key, hname]
  · by_cases hasks : ∃ n, AsksPixels declarations n
    · obtain ⟨n, hn⟩ := hasks
      obtain ⟨_, _, _, _, -, -, heq⟩ | ⟨heq, hnone⟩ := choose_of_asksPixels hn
      · rw [heq] at hsubstituted
        cases hsubstituted
      · rw [heq]
        exact ⟨key_fallback true, ⟨n, hn⟩, hnone⟩
    · rw [choose_of_forall_not (not_exists.1 hasks)] at hsubstituted
      cases hsubstituted
  · obtain ⟨family, hfamily, weight, hweight, hasks, hmeets, heq⟩ | ⟨heq, -⟩ :=
      choose_of_asksPixels hn
    · rw [heq]
      exact ⟨family, hfamily, weight, hweight, _, hasks, hmeets, sizeFor_sizeOf n, rfl⟩
    · rw [heq] at hkept
      cases hkept
  · rw [choose_of_forall_not hnone]
    exact ⟨key_fallback false, rfl⟩

end Font

end RenderLayout
