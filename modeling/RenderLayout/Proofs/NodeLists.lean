import RenderLayout.Drawing.Decode
import RenderLayout.Proofs.Outcome

/-!
Readers of lists of nodes.

A list that is read in two parts gives what the parts give, one behind the other.
-/

namespace RenderLayout

open Markup

lemma cutAmong?_eq_none_iff {nodes : List Node} :
    cutAmong? nodes = none ↔ ∀ node ∈ nodes, cutIn? node = none := by
  induction nodes with
  | nil => simp [cutAmong?]
  | cons node nodes ih => simp [cutAmong?, ih]

lemma cutAmong?_append (nodes others : List Node) :
    cutAmong? (nodes ++ others) = (cutAmong? nodes).or (cutAmong? others) := by
  induction nodes with
  | nil => rfl
  | cons node nodes ih =>
    rw [List.cons_append, cutAmong?, cutAmong?, ih]
    simp only [Option.orElse_eq_orElse, Option.orElse_eq_or, Option.or_assoc]

lemma textAmong_append (nodes others : List Node) :
    textAmong (nodes ++ others) = do
      let first ← textAmong nodes
      let rest ← textAmong others
      return first ++ rest := by
  induction nodes with
  | nil =>
    rw [List.nil_append, textAmong, ok_bind]
    cases textAmong others with
    | error fault => rfl
    | ok rest => simp [bind, Except.bind, pure, Except.pure]
  | cons node nodes ih =>
    rw [List.cons_append, textAmong, textAmong, ih]
    simp only [bind_assoc, pure_bind, String.append_assoc]

lemma Span.addNodes_eq_foldlM (span : Span) (nodes : List Node) :
    span.addNodes nodes = nodes.foldlM Span.addNode span := by
  induction nodes generalizing span with
  | nil => rfl
  | cons node nodes ih =>
    rw [addNodes, List.foldlM_cons]
    exact bind_congr ih

lemma Span.addNodes_append (span : Span) (nodes others : List Node) :
    span.addNodes (nodes ++ others) = (do (← span.addNodes nodes).addNodes others) := by
  simp only [addNodes_eq_foldlM, List.foldlM_append]

lemma Layer.ofNodes_append (nodes others : List Node) :
    Layer.ofNodes (nodes ++ others) = do
      let first ← Layer.ofNodes nodes
      let rest ← Layer.ofNodes others
      return first ++ rest := by
  unfold ofNodes
  rw [List.mapM_append]
  simp only [bind_assoc, pure_bind, List.filterMap_append]

/-- The root is the first element, so that what is before it does not change how two lists are
read. -/
lemma Drawing.ofNodes_before {nodes nodes' : List Node}
    (h : Agree Eq (ofNodes nodes) (ofNodes nodes')) (before : List Node) :
    Agree Eq (ofNodes (before ++ nodes)) (ofNodes (before ++ nodes')) := by
  induction before with
  | nil => exact h
  | cons node before ih =>
    cases node with
    | text raw => exact ih
    | literal raw => exact ih
    | aside => exact ih
    | empty tag =>
      rw [List.cons_append, List.cons_append, ofNodes, ofNodes]
      split
      · exact .self _
      · exact ih
    | element tag children => exact .self _
    | cut ending => exact .error _ _

end RenderLayout
