import RenderLayout.Failure
import RenderLayout.Proofs.Cascade
import RenderLayout.Proofs.TextParts

/-!
Which rules a sheet has.

A sheet that is put together from rules, with any text between them in which there is no point, has
these rules and no others: whatever stands in the body of a rule, points and opening braces too, is
passed over up to its closing brace. So the styles of the classes are those of the last rules of their
names, unless the declarations of a rule cannot be read, and then the first such rule is told.
-/

namespace RenderLayout.Sheet

open Text

/-! ### Sheets put together -/

/-- A text without a point, where no rule begins. -/
structure Filler where
  text : String
  pointless : '.' ∉ text.toList

/-- A rule, with the blanks that stand before its body. -/
structure WrittenRule extends Rule where
  blanks : String
  named : className ≠ ""
  nameChars : ∀ c ∈ className.toList, isNameChar c = true
  allBlank : AllBlank blanks.toList
  unclosed : '\x7d' ∉ body.toList

def WrittenRule.text (rule : WrittenRule) : List Char :=
  '.' :: (rule.className.toList ++ (rule.blanks.toList ++ '\x7b' :: (rule.body.toList ++ ['\x7d'])))

/-- The sheet of some rules, each with the text before it, and of the text behind the last one. -/
def sheetOf (rules : List (Filler × WrittenRule)) (last : Filler) : String :=
  String.ofList (rules.flatMap (fun p => p.1.text.toList ++ p.2.text) ++ last.text.toList)

/-! ### The rule at a place -/

lemma rule?_of_ne {s : List Char} (h : s.head? ≠ some '.') : rule? s = none := by
  unfold rule?
  split
  · exact absurd rfl h
  · rfl

lemma isBlank_of_isNameChar {c : Char} (h : isNameChar c = true) : isBlank c = false := by
  simp only [isNameChar, Char.isAlphanum, Char.isAlpha, Char.isUpper, Char.isLower, Char.isDigit,
    Bool.or_eq_true, Bool.and_eq_true, decide_eq_true_eq, ge_iff_le] at h
  rcases h with (((⟨low, high⟩ | ⟨low, high⟩) | ⟨low, high⟩) | rfl) | rfl
  · exact isBlank_of_printed (le_trans (by decide) low) (le_trans high (by decide))
  · exact isBlank_of_printed (le_trans (by decide) low) (le_trans high (by decide))
  · exact isBlank_of_printed (le_trans (by decide) low) (le_trans high (by decide))
  · decide
  · decide

/-- A name ends where the blanks before a brace, or the brace itself, stand. -/
lemma stops_name {blanks : List Char} (hblanks : AllBlank blanks) (rest : List Char) :
    Stops isNameChar (blanks ++ '\x7b' :: rest) := by
  cases blanks with
  | nil => exact stops_cons (by decide) _
  | cons c blanks =>
    refine stops_cons (Bool.eq_false_iff.2 fun hname => ?_) _
    have hblank := hblanks c List.mem_cons_self
    rw [isBlank_of_isNameChar hname] at hblank
    cases hblank

/-- A rule is read up to the first closing brace behind its name. -/
lemma rule?_eq {name blanks body : List Char} (hne : name ≠ [])
    (hname : ∀ c ∈ name, isNameChar c = true) (hblanks : AllBlank blanks) (hbody : '\x7d' ∉ body)
    (rest : List Char) :
    rule? ('.' :: (name ++ (blanks ++ '\x7b' :: (body ++ '\x7d' :: rest)))) =
      some (⟨String.ofList name, String.ofList body⟩,
        name.length + blanks.length + body.length + 3) := by
  have hinner : ∀ c ∈ body, decide (c ≠ '\x7d') = true := fun c hc =>
    decide_eq_true fun heq => hbody (heq ▸ hc)
  have hopen := stops_name hblanks (body ++ '\x7d' :: rest)
  have hbrace : Stops isBlank ('\x7b' :: (body ++ '\x7d' :: rest)) := stops_cons (by decide) _
  have hclose : Stops (fun c => decide (c ≠ '\x7d')) ('\x7d' :: rest) := stops_cons (by decide) _
  obtain ⟨first, name, rfl⟩ := List.exists_cons_of_ne_nil hne
  rw [rule?, takeWhile_append_stop hname hopen, dropWhile_append_stop hname hopen,
    takeWhile_append_stop hblanks hbrace, dropWhile_append_stop hblanks hbrace]
  simp only [takeWhile_append_stop hinner hclose, dropWhile_append_stop hinner hclose]

/-- A written rule is read as it is. -/
lemma rule?_text (rule : WrittenRule) (rest : List Char) :
    rule? (rule.text ++ rest) = some (rule.toRule, rule.text.length) := by
  have hne : rule.className.toList ≠ [] := fun h => rule.named (String.toList_inj.1 h)
  have hrule := rule?_eq hne rule.nameChars rule.allBlank rule.unclosed rest
  rw [String.ofList_toList, String.ofList_toList] at hrule
  have htext : rule.text ++ rest = '.' :: (rule.className.toList ++ (rule.blanks.toList ++
      '\x7b' :: (rule.body.toList ++ '\x7d' :: rest))) := by simp [WrittenRule.text]
  have hlength : rule.text.length =
      rule.className.toList.length + rule.blanks.toList.length + rule.body.toList.length + 3 := by
    simp [WrittenRule.text]
    omega
  rw [htext, hrule, hlength]

/-! ### All rules -/

/-- Behind a find the search goes on. -/
lemma matchesFrom_covered {α : Type} (pattern : List Char → Option (α × Nat)) (s rest : List Char) :
    matchesFrom pattern s.length (s ++ rest) = matchesFrom pattern 0 rest := by
  induction s with
  | nil => rfl
  | cons c s ih => exact ih

lemma matchesFrom_filler {s : List Char} (hs : '.' ∉ s) (rest : List Char) :
    matchesFrom rule? 0 (s ++ rest) = matchesFrom rule? 0 rest := by
  induction s with
  | nil => rfl
  | cons c s ih =>
    have hc : (c :: (s ++ rest)).head? ≠ some '.' := fun h =>
      hs (List.mem_cons.2 (Or.inl (Option.some.inj h).symm))
    rw [List.cons_append, matchesFrom, rule?_of_ne hc]
    exact ih fun hmem => hs (List.mem_cons_of_mem c hmem)

lemma matchesFrom_rule (rule : WrittenRule) (rest : List Char) :
    matchesFrom rule? 0 (rule.text ++ rest) = rule.toRule :: matchesFrom rule? 0 rest := by
  have hrule := rule?_text rule rest
  rw [WrittenRule.text] at hrule ⊢
  rw [List.cons_append, matchesFrom, ← List.cons_append, hrule]
  dsimp only
  rw [List.length_cons, Nat.add_sub_cancel, matchesFrom_covered]

/-- **A sheet that is put together from rules has these rules.** -/
theorem rules_sheetOf (rules : List (Filler × WrittenRule)) (last : Filler) :
    Sheet.rules (sheetOf rules last) = rules.map (·.2.toRule) := by
  unfold Sheet.rules allMatches sheetOf
  rw [String.toList_ofList]
  induction rules with
  | nil =>
    have hnone := matchesFrom_filler last.pointless []
    rw [List.append_nil] at hnone
    exact hnone
  | cons p rules ih =>
    rw [List.flatMap_cons, List.append_assoc, List.append_assoc, matchesFrom_filler p.1.pointless,
      matchesFrom_rule, ih]
    rfl

/-! ### Class styles -/

variable {page : String}

lemma fault?_classStyles (sheets : List String) :
    fault? (classStyles page sheets) = (sheets.flatMap Sheet.rules).findSome? fun rule =>
      (fault? (Style.ofDeclarations rule.body)).map (⟨classStyleName page rule.className, ·⟩) := by
  rw [classStyles, bind_pure_comp, fault?_map, fault?_mapM]
  refine findSome?_congr fun rule _ => ?_
  unfold styleOf
  dsimp only
  cases Style.ofDeclarations rule.body <;> rfl

lemma exists_classStyles_iff {sheets : List String} :
    (∃ classes, classStyles page sheets = .ok classes) ↔
      ∀ rule ∈ sheets.flatMap Sheet.rules, ∃ style, Style.ofDeclarations rule.body = .ok style := by
  rw [← fault?_eq_none_iff, fault?_classStyles, List.findSome?_eq_none_iff]
  simp only [Option.map_eq_none_iff, fault?_eq_none_iff]

/-- The first rule whose declarations cannot be read is told, under the name of its class. -/
lemma classStyles_eq_error_iff {sheets : List String} {bad : BadStyle} :
    classStyles page sheets = .error bad ↔
      ∃ earlier rule later, sheets.flatMap Sheet.rules = earlier ++ rule :: later ∧
        (∀ other ∈ earlier, ∃ style, Style.ofDeclarations other.body = .ok style) ∧
        Style.ofDeclarations rule.body = .error bad.number ∧
        bad.name = classStyleName page rule.className := by
  rw [← fault?_eq_some_iff, fault?_classStyles, List.findSome?_eq_some_iff]
  simp only [Option.map_eq_some_iff, Option.map_eq_none_iff, fault?_eq_some_iff,
    fault?_eq_none_iff]
  constructor
  · rintro ⟨earlier, rule, later, hrules, ⟨number, hnumber, rfl⟩, hearlier⟩
    exact ⟨earlier, rule, later, hrules, hearlier, hnumber, rfl⟩
  · rintro ⟨earlier, rule, later, hrules, hearlier, hnumber, hname⟩
    exact ⟨earlier, rule, later, hrules, ⟨bad.number, hnumber, by rw [← hname]⟩, hearlier⟩

/-- A class has the style of the last rule of its name. -/
lemma find?_classStyles_eq_some_iff {sheets : List String} {classes : Table Style}
    (h : classStyles page sheets = .ok classes) {name : String} {style : Style} :
    classes.find? name = some style ↔
      ∃ earlier rule later, sheets.flatMap Sheet.rules = earlier ++ rule :: later ∧
        name = classStyleName page rule.className ∧ Style.ofDeclarations rule.body = .ok style ∧
        ∀ other ∈ later, other.className ≠ rule.className := by
  have hdrawing : ({ sheets } : Drawing).classStyles page = .ok classes := mapError_eq_ok_iff.2 h
  constructor
  · intro hfind
    obtain ⟨className, rfl⟩ :=
      Drawing.className_of_contains hdrawing (Table.contains_of_find? hfind)
    rw [Drawing.find?_classStyles hdrawing] at hfind
    obtain ⟨rule, hrule, hstyle⟩ := Option.bind_eq_some_iff.1 hfind
    obtain ⟨hname, earlier, later, hrules, hlater⟩ := find?_reverse_eq_some_iff.1 hrule
    obtain rfl := of_decide_eq_true hname
    exact ⟨earlier, rule, later, hrules, rfl, toOption_eq_some_iff.1 hstyle,
      fun other hother => of_decide_eq_false (hlater other hother)⟩
  · rintro ⟨earlier, rule, later, hrules, rfl, hstyle, hlater⟩
    have hlast : ((sheets.flatMap Sheet.rules).reverse.find?
        (·.className = rule.className)) = some rule :=
      find?_reverse_eq_some_iff.2 ⟨decide_eq_true rfl, earlier, later, hrules,
        fun other hother => decide_eq_false (hlater other hother)⟩
    rw [Drawing.find?_classStyles hdrawing]
    exact Option.bind_eq_some_iff.2 ⟨rule, hlast, toOption_eq_some_iff.2 hstyle⟩

/-- **The class styles of a sheet** that is put together from rules: there are such if the
declarations of every rule can be read, and then each class has the style of its last rule and there
are no others. Else the first rule whose declarations cannot be read is told, with its page. -/
theorem classStyles_sheetOf (page : String) (rules : List (Filler × WrittenRule)) (last : Filler) :
    ((∃ classes, classStyles page [sheetOf rules last] = .ok classes) ↔
      ∀ p ∈ rules, ∃ style, Style.ofDeclarations p.2.body = .ok style) ∧
    (∀ classes, classStyles page [sheetOf rules last] = .ok classes →
      ∀ name style, classes.find? name = some style ↔
        ∃ earlier rule later, rules.map (·.2.toRule) = earlier ++ rule :: later ∧
          name = classStyleName page rule.className ∧ Style.ofDeclarations rule.body = .ok style ∧
          ∀ other ∈ later, other.className ≠ rule.className) ∧
    (∀ bad, classStyles page [sheetOf rules last] = .error bad ↔
      ∃ earlier rule later, rules.map (·.2.toRule) = earlier ++ rule :: later ∧
        (∀ other ∈ earlier, ∃ style, Style.ofDeclarations other.body = .ok style) ∧
        Style.ofDeclarations rule.body = .error bad.number ∧
        bad.name = classStyleName page rule.className) ∧
    ∀ drawing : Drawing, drawing.sheets = [sheetOf rules last] →
      ∀ bad, classStyles page [sheetOf rules last] = .error bad →
        (drawing.classStyles page).mapError (Failure.page page) =
          .error (.page page (.badNumber bad.name bad.number)) := by
  have hrules : [sheetOf rules last].flatMap Sheet.rules = rules.map (·.2.toRule) := by
    rw [List.flatMap_singleton, rules_sheetOf]
  rw [exists_classStyles_iff, hrules, List.forall_mem_map]
  refine ⟨Iff.rfl, fun classes hclasses name style => ?_, fun bad => ?_, ?_⟩
  · rw [find?_classStyles_eq_some_iff hclasses, hrules]
  · rw [classStyles_eq_error_iff, hrules]
  · intro drawing hsheets bad hbad
    rw [Drawing.classStyles, hsheets, hbad]
    rfl

end RenderLayout.Sheet
