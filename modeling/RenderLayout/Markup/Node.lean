import RenderLayout.Markup.Event

/-!
Markup as a tree.

A text that ends too early, or that has a fault, is cut off there: the cut is the last of all
nodes, within the elements that were open.
-/

namespace RenderLayout.Markup

inductive Node where
  | text (raw : String)
  | literal (raw : String)
  | aside
  | empty (tag : Tag)
  | element (tag : Tag) (children : List Node)
  | cut (ending : Ending)
  deriving Inhabited

/-- An open element with the nodes before it, backwards. -/
abbrev OpenElement := Tag × List Node

/-- Closes open elements, the innermost first, around nodes that stand backwards. -/
def closeAll (nodes : List Node) : List OpenElement → List Node
  | [] => nodes.reverse
  | (tag, before) :: outer => closeAll (.element tag nodes.reverse :: before) outer

/-- The nodes of events, within open elements and behind nodes that stand backwards. -/
def grow (ending : Ending) : List OpenElement → List Node → List Event → List Node
  | opened, nodes, [] => closeAll (.cut ending :: nodes) opened
  | opened, nodes, .text raw :: events => grow ending opened (.text raw :: nodes) events
  | opened, nodes, .literal raw :: events => grow ending opened (.literal raw :: nodes) events
  | opened, nodes, .aside :: events => grow ending opened (.aside :: nodes) events
  | opened, nodes, .empty tag :: events => grow ending opened (.empty tag :: nodes) events
  | opened, nodes, .start tag :: events => grow ending ((tag, nodes) :: opened) [] events
  | [], nodes, .close :: events => grow ending [] nodes events
  | (tag, before) :: opened, nodes, .close :: events =>
    grow ending opened (.element tag nodes.reverse :: before) events

/-- The nodes of a markup text; the last one is a cut. -/
def nodes (markup : String) : List Node :=
  let (events, ending) := events markup
  grow ending [] [] events

end RenderLayout.Markup
