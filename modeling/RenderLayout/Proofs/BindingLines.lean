import RenderLayout.Binding
import RenderLayout.Proofs.Tables
import RenderLayout.Proofs.TextParts

/-!
Which lines of a text bind a property, and to what.

A line binds a property if the form of a binding is all that it holds between blanks at its ends. Of
several lines that bind a property the last one counts, so that a text goes over the text before it.
-/

namespace RenderLayout.Binding

open Text

/-! ### The form of a binding -/

/-- The form of an expression, `$name(body)`. The body may hold brackets, colons and blanks too. -/
def IsCall (s : List Char) : Prop :=
  ∃ name body, name ≠ [] ∧ (∀ c ∈ name, c.isAlphanum = true) ∧ body ≠ [] ∧
    s = '$' :: (name ++ '(' :: (body ++ [')']))

/-- The line is `property:expression` between blanks. -/
structure Binds (line : List Char) (property expression : String) : Prop where
  named : property ≠ ""
  chars : ∀ c ∈ property.toList, c.isLower = true ∨ c.isDigit = true
  call : IsCall expression.toList
  padded : ∃ before after, AllBlank before ∧ AllBlank after ∧
    line = before ++ (property.toList ++ ':' :: expression.toList) ++ after

/-- An expression is read up to the first bracket, and its last character has to close it. -/
lemma isExpression_dollar {name rest : List Char} (hname : ∀ c ∈ name, c.isAlphanum = true)
    (hrest : Stops Char.isAlphanum rest) :
    isExpression ('$' :: (name ++ rest)) = true ↔
      name ≠ [] ∧ ∃ body, body ≠ [] ∧ rest = '(' :: (body ++ [')']) := by
  rw [isExpression, takeWhile_append_stop hname hrest, dropWhile_append_stop hname hrest]
  split
  case h_1 => simp
  case h_2 inner hne =>
    rw [Bool.and_eq_true, decide_eq_true_iff, decide_eq_true_iff, List.getLast?_eq_some_iff]
    refine (and_iff_right hne).symm.trans (and_congr_right fun _ => ?_)
    constructor
    · rintro ⟨⟨body, rfl⟩, hlong⟩
      refine ⟨body, ?_, rfl⟩
      rintro rfl
      exact absurd hlong (by decide)
    · rintro ⟨body, hbody, heq⟩
      obtain rfl := (List.cons.inj heq).2
      have hpos := List.length_pos_iff.2 hbody
      refine ⟨⟨body, rfl⟩, ?_⟩
      rw [List.length_append, List.length_singleton]
      omega
  case h_3 hopen =>
    refine iff_of_false Bool.false_ne_true ?_
    rintro ⟨-, body, -, rfl⟩
    exact hopen _ rfl

lemma isExpression_iff {s : List Char} : isExpression s = true ↔ IsCall s := by
  constructor
  · intro h
    obtain ⟨rest, rfl⟩ : ∃ rest, s = '$' :: rest := by
      unfold isExpression at h
      split at h
      case h_1 rest => exact ⟨rest, rfl⟩
      case h_2 => cases h
    obtain ⟨name, rest, rfl, hname, hrest⟩ := exists_run Char.isAlphanum rest
    obtain ⟨hne, body, hbody, rfl⟩ := (isExpression_dollar hname hrest).1 h
    exact ⟨name, body, hne, hname, hbody, rfl⟩
  · rintro ⟨name, body, hne, hname, hbody, rfl⟩
    have hopen : Stops Char.isAlphanum ('(' :: (body ++ [')'])) := stops_cons (by decide) _
    exact (isExpression_dollar hname hopen).2 ⟨hne, body, hbody, rfl⟩

/-- A line is read up to the first colon, and the rest has to be an expression. -/
lemma ofLine?_run {name rest : List Char} (hname : ∀ c ∈ name, isPropertyChar c = true)
    (hrest : Stops isPropertyChar rest) {property expression : String} :
    ofLine? (name ++ rest) = some (property, expression) ↔
      name ≠ [] ∧ name = property.toList ∧ rest = ':' :: expression.toList ∧
        IsCall expression.toList := by
  unfold ofLine?
  rw [takeWhile_append_stop hname hrest, dropWhile_append_stop hname hrest]
  split
  case h_1 => simp
  case h_2 behind hne =>
    rw [← isExpression_iff]
    constructor
    · intro h
      split at h
      case isTrue hcall =>
        obtain ⟨rfl, rfl⟩ := Prod.mk.inj (Option.some.inj h)
        rw [String.toList_ofList, String.toList_ofList]
        exact ⟨hne, rfl, rfl, hcall⟩
      case isFalse => cases h
    · rintro ⟨-, rfl, heq, hcall⟩
      obtain rfl := (List.cons.inj heq).2
      rw [if_pos hcall, String.ofList_toList, String.ofList_toList]
  case h_3 hcolon =>
    refine iff_of_false nofun ?_
    rintro ⟨-, -, rfl, -⟩
    exact hcolon _ rfl

lemma ofLine?_eq_some_iff {line : List Char} {property expression : String} :
    ofLine? line = some (property, expression) ↔
      property ≠ "" ∧ (∀ c ∈ property.toList, c.isLower = true ∨ c.isDigit = true) ∧
        IsCall expression.toList ∧ line = property.toList ++ ':' :: expression.toList := by
  have hchar (c : Char) : isPropertyChar c = true ↔ c.isLower = true ∨ c.isDigit = true :=
    Bool.or_eq_true_iff
  constructor
  · intro h
    obtain ⟨name, rest, rfl, hname, hrest⟩ := exists_run isPropertyChar line
    obtain ⟨hne, rfl, rfl, hcall⟩ := (ofLine?_run hname hrest).1 h
    refine ⟨?_, fun c hc => (hchar c).1 (hname c hc), hcall, rfl⟩
    rintro rfl
    exact hne rfl
  · rintro ⟨hne, hname, hcall, rfl⟩
    have hcolon : Stops isPropertyChar (':' :: expression.toList) := stops_cons (by decide) _
    refine (ofLine?_run (fun c hc => (hchar c).2 (hname c hc)) hcolon).2 ⟨?_, rfl, rfl, hcall⟩
    exact fun hnil => hne (String.toList_inj.1 hnil)

/-! ### Lines -/

lemma isBlank_of_propertyChar {c : Char} (h : c.isLower = true ∨ c.isDigit = true) :
    isBlank c = false := by
  rcases h with h | h
  · have h : (decide (97 ≤ c.val) && decide (c.val ≤ 122)) = true := h
    rw [Bool.and_eq_true, decide_eq_true_iff, decide_eq_true_iff] at h
    have low : 97 ≤ c.toNat := h.1
    have high : c.toNat ≤ 122 := h.2
    exact isBlank_of_printed (by omega) (by omega)
  · have low : 48 ≤ c.toNat := (Char.isDigit_iff_toNat.1 h).1
    have high : c.toNat ≤ 57 := (Char.isDigit_iff_toNat.1 h).2
    exact isBlank_of_printed (by omega) (by omega)

lemma lines_eq_splitOn (text : String) : lines text = text.toList.splitOn '\n' :=
  split_eq_splitOnP _ _

/-- Blanks around a binding do not count. -/
lemma ofLine?_trim_eq_some_iff {line : List Char} {property expression : String} :
    ofLine? (trim line) = some (property, expression) ↔ Binds line property expression := by
  rw [ofLine?_eq_some_iff]
  constructor
  · rintro ⟨hne, hchars, hcall, htrim⟩
    obtain ⟨before, after, hbefore, hafter, hline⟩ := exists_trim line
    exact ⟨hne, hchars, hcall, before, after, hbefore, hafter, by rw [hline, htrim]⟩
  · rintro ⟨hne, hchars, hcall, before, after, hbefore, hafter, rfl⟩
    refine ⟨hne, hchars, hcall, trim_append hbefore hafter (by simp) ?_ ?_⟩
    · obtain ⟨c, name, hname⟩ := List.exists_cons_of_ne_nil fun h => hne (String.toList_inj.1 h)
      rw [hname]
      exact stops_cons (isBlank_of_propertyChar (hchars c (by simp [hname]))) _
    · -- an expression ends with a bracket
      obtain ⟨name, body, -, -, -, hcall⟩ := hcall
      have hsplit : property.toList ++ ':' :: expression.toList =
          property.toList ++ ':' :: '$' :: (name ++ '(' :: body) ++ [')'] := by
        rw [hcall]
        simp
      rw [hsplit, List.getLast?_concat]
      rintro c hc
      obtain rfl := Option.some.inj hc
      decide

/-- A property is bound to what the last line that binds it binds it to. -/
lemma find?_ofText_eq_some_iff {text property expression : String} :
    (ofText text).find? property = some expression ↔
      ∃ earlier line later, text.toList.splitOn '\n' = earlier ++ line :: later ∧
        Binds line property expression ∧ ∀ other ∈ later, ∀ e, ¬ Binds other property e := by
  rw [ofText, Table.find?_ofList_eq_some_iff_last, lines_eq_splitOn]
  constructor
  · rintro ⟨before, after, hpairs, hlast⟩
    obtain ⟨early, late, hlines, -, hlate⟩ := List.filterMap_eq_append_iff.1 hpairs
    obtain ⟨idle, line, later, rfl, -, hline, rfl⟩ := List.filterMap_eq_cons_iff.1 hlate
    refine ⟨early ++ idle, line, later, by rw [hlines, List.append_assoc],
      ofLine?_trim_eq_some_iff.1 hline, fun other hother e hbinds => ?_⟩
    have hmem : (property, e) ∈ later.filterMap fun line => ofLine? (trim line) :=
      List.mem_filterMap.2 ⟨other, hother, ofLine?_trim_eq_some_iff.2 hbinds⟩
    exact hlast _ hmem rfl
  · rintro ⟨earlier, line, later, hlines, hbinds, hlast⟩
    refine ⟨earlier.filterMap fun line => ofLine? (trim line),
      later.filterMap fun line => ofLine? (trim line), ?_, fun p hp hkey => ?_⟩
    · rw [hlines, List.filterMap_append, List.filterMap_cons, ofLine?_trim_eq_some_iff.2 hbinds]
    · obtain ⟨other, hother, hline⟩ := List.mem_filterMap.1 hp
      obtain ⟨key, e⟩ := p
      obtain rfl : key = property := hkey
      exact hlast other hother e (ofLine?_trim_eq_some_iff.1 hline)

lemma lines_append (text more : String) :
    lines (text ++ "\n" ++ more) = lines text ++ lines more := by
  rw [lines_eq_splitOn, lines_eq_splitOn, lines_eq_splitOn, String.toList_append,
    String.toList_append, List.append_assoc]
  exact List.splitOnP_append_cons _ _ (by decide)

/-- **The bindings of a text**: a property is bound to what the last line that binds it binds it to,
and the lines of a text that goes on count before those at its front. -/
theorem find?_ofText (text : String) :
    (∀ property expression, (ofText text).find? property = some expression ↔
      ∃ earlier line later, text.toList.splitOn '\n' = earlier ++ line :: later ∧
        Binds line property expression ∧ ∀ other ∈ later, ∀ e, ¬ Binds other property e) ∧
    ∀ more property, (ofText (text ++ "\n" ++ more)).find? property =
      ((ofText more).find? property).or ((ofText text).find? property) := by
  refine ⟨fun property expression => find?_ofText_eq_some_iff, fun more property => ?_⟩
  rw [ofText, lines_append, List.filterMap_append, Table.find?_ofList_append]
  rfl

end RenderLayout.Binding
