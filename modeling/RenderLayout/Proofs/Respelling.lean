import RenderLayout.Drawing.Decode
import RenderLayout.Proofs.ScanParts

/-!
Empty elements in two spellings.

An element without content is written as one empty tag, or as a start tag and an end tag. Two trees
that differ in this spelling, and in the place of the fault that cuts them off, are told apart
nowhere else. The two texts of an empty element give two such trees.
-/

namespace RenderLayout.Markup

/-! ### Trees -/

/-- The names of the elements that are shapes. -/
def shapeNames : List String := ["rect", "circle", "text"]

/-- Where a node stands. -/
structure Site where
  /-- The local names of the elements around it, the innermost first. -/
  path : List String := []
  /-- Whether an element that counts as the root stands before it among its siblings. -/
  rooted : Bool := false
  /-- Whether an element `desc` stands before it among its siblings. -/
  described : Bool := false
  deriving DecidableEq

namespace Site

/-- The site behind a node. An empty tag is no root unless it is an `svg`, and it describes
nothing. -/
def behind (site : Site) : Node → Site
  | .empty tag => { site with rooted := site.rooted || tag.localName = "svg" }
  | .element tag _ =>
    { site with rooted := true, described := site.described || tag.localName = "desc" }
  | _ => site

/-- The site of the first node in an element. -/
def inside (site : Site) (tag : Tag) : Site := { path := tag.localName :: site.path }

/-- Whether nodes at the site are those of a shape in a layer. -/
def inShape (site : Site) : Bool :=
  match site.path with
  | [shape, "g", "svg"] => shapeNames.contains shape
  | _ => false

/-- Where both spellings mean the same. Only an `svg` may be the root; and in a shape no element
`desc` may follow an earlier one. -/
structure Allows (site : Site) (tag : Tag) : Prop where
  root : site.path = [] → site.rooted = false → tag.localName = "svg"
  description : site.inShape = true → site.described = true → tag.localName ≠ "desc"

lemma path_foldl_behind (site : Site) (nodes : List Node) :
    (nodes.foldl behind site).path = site.path := by
  induction nodes generalizing site with
  | nil => rfl
  | cons node nodes ih =>
    rw [List.foldl_cons, ih]
    cases node <;> rfl

lemma path_behind (site : Site) (node : Node) : (site.behind node).path = site.path :=
  path_foldl_behind site [node]

lemma inShape_behind (site : Site) (node : Node) : (site.behind node).inShape = site.inShape := by
  unfold inShape
  rw [path_behind]

instance (site : Site) (tag : Tag) : Decidable (site.Allows tag) :=
  decidable_of_iff
    ((site.path = [] → site.rooted = false → tag.localName = "svg") ∧
      (site.inShape = true → site.described = true → tag.localName ≠ "desc"))
    ⟨fun h => ⟨h.1, h.2⟩, fun h => ⟨h.1, h.2⟩⟩

end Site

mutual

/-- The second of two nodes at a site has start tags and end tags where the first has empty tags,
at places that allow it. -/
inductive Respelled : Site → Node → Node → Prop
  | text {site : Site} (raw : String) : Respelled site (.text raw) (.text raw)
  | literal {site : Site} (raw : String) : Respelled site (.literal raw) (.literal raw)
  | aside {site : Site} : Respelled site .aside .aside
  | empty {site : Site} (tag : Tag) : Respelled site (.empty tag) (.empty tag)
  | spelled {site : Site} {tag : Tag} (h : site.Allows tag) :
    Respelled site (.empty tag) (.element tag [])
  | element {site : Site} {tag : Tag} {children children' : List Node}
    (h : RespelledAmong (site.inside tag) children children') :
    Respelled site (.element tag children) (.element tag children')
  | cut {site : Site} (ending ending' : Ending) : Respelled site (.cut ending) (.cut ending')

inductive RespelledAmong : Site → List Node → List Node → Prop
  | nil {site : Site} : RespelledAmong site [] []
  | cons {site : Site} {node node' : Node} {nodes nodes' : List Node}
    (head : Respelled site node node') (tail : RespelledAmong (site.behind node) nodes nodes') :
    RespelledAmong site (node :: nodes) (node' :: nodes')

end

mutual

lemma Respelled.refl (site : Site) (node : Node) : Respelled site node node := by
  cases node with
  | text raw => exact .text raw
  | literal raw => exact .literal raw
  | aside => exact .aside
  | empty tag => exact .empty tag
  | element tag children => exact .element (RespelledAmong.refl _ children)
  | cut ending => exact .cut ending ending

lemma RespelledAmong.refl (site : Site) (nodes : List Node) : RespelledAmong site nodes nodes := by
  cases nodes with
  | nil => exact .nil
  | cons node nodes => exact .cons (Respelled.refl _ node) (RespelledAmong.refl _ nodes)

end

namespace RespelledAmong

/-- Each node is respelled, behind whatever else. -/
lemma forall₂ {site : Site} {nodes nodes' : List Node} (h : RespelledAmong site nodes nodes') :
    List.Forall₂
      (fun node node' => ∃ other : Site, other.path = site.path ∧ Respelled other node node')
      nodes nodes' := by
  induction nodes generalizing site nodes' with
  | nil =>
    cases h
    exact .nil
  | cons node nodes ih =>
    cases h with
    | cons head tail =>
      exact .cons ⟨site, rfl, head⟩ (site.path_behind node ▸ ih tail)

lemma concat {site : Site} {nodes nodes' : List Node} {node node' : Node}
    (h : RespelledAmong site nodes nodes')
    (hnode : Respelled (nodes.foldl .behind site) node node') :
    RespelledAmong site (nodes ++ [node]) (nodes' ++ [node']) := by
  induction nodes generalizing site nodes' with
  | nil =>
    cases h
    exact .cons hnode .nil
  | cons first nodes ih =>
    cases h with
    | cons hfirst h => exact .cons hfirst (ih h hnode)

end RespelledAmong

/-! ### Growth -/

/-- The local names of open elements. -/
def pathOf (opened : List OpenElement) : List String := opened.map fun e => e.1.localName

/-- The same open elements, around respelled nodes. -/
inductive Surrounded : List OpenElement → List OpenElement → Prop
  | nil : Surrounded [] []
  | cons {tag : Tag} {before before' : List Node} {outer outer' : List OpenElement}
    (h : RespelledAmong { path := pathOf outer } before.reverse before'.reverse)
    (houter : Surrounded outer outer') :
    Surrounded ((tag, before) :: outer) ((tag, before') :: outer')

lemma Surrounded.refl (opened : List OpenElement) : Surrounded opened opened := by
  induction opened with
  | nil => exact .nil
  | cons e outer ih => exact .cons (.refl _ _) ih

/-- One more node behind others. -/
lemma RespelledAmong.push {site : Site} {nodes nodes' : List Node} {node node' : Node}
    (h : RespelledAmong site nodes.reverse nodes'.reverse)
    (hnode : Respelled (nodes.reverse.foldl .behind site) node node') :
    RespelledAmong site (node :: nodes).reverse (node' :: nodes').reverse := by
  rw [List.reverse_cons, List.reverse_cons]
  exact h.concat hnode

lemma RespelledAmong.push_element {site : Site} {tag : Tag}
    {before before' nodes nodes' : List Node}
    (hbefore : RespelledAmong site before.reverse before'.reverse)
    (h : RespelledAmong (site.inside tag) nodes.reverse nodes'.reverse) :
    RespelledAmong site (.element tag nodes.reverse :: before).reverse
      (.element tag nodes'.reverse :: before').reverse := by
  refine hbefore.push (.element ?_)
  rw [Site.inside, Site.path_foldl_behind]
  exact h

lemma closeAll_respelled {opened opened' : List OpenElement} {nodes nodes' : List Node}
    (hopened : Surrounded opened opened')
    (h : RespelledAmong { path := pathOf opened } nodes.reverse nodes'.reverse) :
    RespelledAmong {} (closeAll nodes opened) (closeAll nodes' opened') := by
  induction hopened generalizing nodes nodes' with
  | nil => exact h
  | cons hbefore _ ih => exact ih (hbefore.push_element h)

/-- The same events grow into respelled nodes around and behind respelled nodes. -/
lemma grow_respelled (ending ending' : Ending) {opened opened' : List OpenElement}
    {nodes nodes' : List Node} (hopened : Surrounded opened opened')
    (h : RespelledAmong { path := pathOf opened } nodes.reverse nodes'.reverse)
    (events : List Event) :
    RespelledAmong {} (grow ending opened nodes events) (grow ending' opened' nodes' events) := by
  induction events generalizing opened opened' nodes nodes' with
  | nil => exact closeAll_respelled hopened (h.push (.cut _ _))
  | cons event events ih =>
    cases event with
    | text raw => exact ih hopened (h.push (.refl _ _))
    | literal raw => exact ih hopened (h.push (.refl _ _))
    | empty tag => exact ih hopened (h.push (.refl _ _))
    | aside => exact ih hopened (h.push (.refl _ _))
    | start tag => exact ih (.cons h hopened) .nil
    | close =>
      cases hopened with
      | nil => exact ih .nil h
      | cons hbefore houter => exact ih houter (hbefore.push_element h)

/-- The open elements and the nodes, backwards, that events lead to. -/
def standing : List OpenElement → List Node → List Event → List OpenElement × List Node
  | opened, nodes, [] => (opened, nodes)
  | opened, nodes, .text raw :: events => standing opened (.text raw :: nodes) events
  | opened, nodes, .literal raw :: events => standing opened (.literal raw :: nodes) events
  | opened, nodes, .aside :: events => standing opened (.aside :: nodes) events
  | opened, nodes, .empty tag :: events => standing opened (.empty tag :: nodes) events
  | opened, nodes, .start tag :: events => standing ((tag, nodes) :: opened) [] events
  | [], nodes, .close :: events => standing [] nodes events
  | (tag, before) :: opened, nodes, .close :: events =>
    standing opened (.element tag nodes.reverse :: before) events

lemma standing_append (opened : List OpenElement) (nodes : List Node)
    (events others : List Event) :
    standing opened nodes (events ++ others) =
      standing (standing opened nodes events).1 (standing opened nodes events).2 others := by
  induction events generalizing opened nodes with
  | nil => rfl
  | cons event events ih =>
    cases event with
    | close =>
      cases opened with
      | nil => exact ih [] nodes
      | cons e opened => exact ih opened (.element e.1 nodes.reverse :: e.2)
    | _ => exact ih _ _

lemma grow_append (ending : Ending) (opened : List OpenElement) (nodes : List Node)
    (events others : List Event) :
    grow ending opened nodes (events ++ others) =
      grow ending (standing opened nodes events).1 (standing opened nodes events).2 others := by
  induction events generalizing opened nodes with
  | nil => rfl
  | cons event events ih =>
    cases event with
    | close =>
      cases opened with
      | nil => exact ih [] nodes
      | cons e opened => exact ih opened (.element e.1 nodes.reverse :: e.2)
    | _ => exact ih _ _

/-! ### Texts -/

/-- A byte order mark is at the start of a text, if anywhere. -/
lemma dropMark_append {s rest : List Char} (h : s = [] → dropMark rest = rest) :
    dropMark (s ++ rest) = dropMark s ++ rest := by
  cases s with
  | nil => exact h rfl
  | cons c s =>
    by_cases hc : c = '\ufeff'
    · rw [hc]
      rfl
    · unfold dropMark
      split <;> split <;> simp_all

/-- An element without content at its place in a text. -/
structure EmptyElement where
  before : String
  /-- What stands in its tag. -/
  content : String
  after : String
  before_done : (events before).2 = .done := by decide +kernel
  content_ok : isTagContent content.toList = true := by decide +kernel

namespace EmptyElement

def tag (e : EmptyElement) : Tag := .ofContent e.content.toList

/-- The text with an empty tag. -/
def selfClosing (e : EmptyElement) : String := e.before ++ "<" ++ e.content ++ "/>" ++ e.after

/-- The text with a start tag and an end tag. -/
def endTagged (e : EmptyElement) : String :=
  e.before ++ "<" ++ e.content ++ "></" ++ e.tag.name ++ ">" ++ e.after

/-- Where the element stands. -/
def site (e : EmptyElement) : Site :=
  let (opened, nodes) := standing [] [] (events e.before).1
  nodes.reverse.foldl .behind { path := pathOf opened }

/-- The events of the two texts differ in the element only. -/
lemma events_texts (e : EmptyElement) : ∃ more ending ending',
    events e.selfClosing = ((events e.before).1 ++ .empty e.tag :: more, ending) ∧
      events e.endTagged = ((events e.before).1 ++ .start e.tag :: .close :: more, ending') := by
  obtain ⟨first, s, hcontent, htag⟩ := tagContent_of_isTagContent e.content_ok
  obtain ⟨names, place, chars, earlier, hearlier, hbefore⟩ := scan_append e.before_done
  obtain ⟨place₁, hempty⟩ := htag.scan_empty names place chars e.after.toList
  obtain ⟨place₂, hpair⟩ := htag.scan_startEnd names place chars e.after.toList
  have hmore := scan_place names place₁ place₂ (.inText []) e.after.toList
  refine ⟨(scan names place₁ (.inText []) e.after.toList).1,
    (scan names place₁ (.inText []) e.after.toList).2,
    (scan names place₂ (.inText []) e.after.toList).2, ?_, ?_⟩
  · have htext : e.selfClosing.toList =
        e.before.toList ++ '<' :: (first :: s ++ '/' :: '>' :: e.after.toList) := by
      simp [selfClosing, hcontent]
    rw [events, htext, dropMark_append fun _ => rfl, hbefore]
    rw [List.cons_append] at hempty
    rw [hempty, prepend_prepend, events, hearlier]
    simp [prepend, tag, hcontent]
  · have htext : e.endTagged.toList =
        e.before.toList ++ '<' :: (first :: s ++ '>' :: '<' :: '/' :: nameChars (first :: s) ++
          '>' :: e.after.toList) := by
      simp [endTagged, hcontent, tag, Tag.ofContent, nameChars]
    rw [events, htext, dropMark_append fun _ => rfl, hbefore]
    rw [List.cons_append, List.cons_append] at hpair
    rw [hpair, prepend_prepend, events, hearlier, hmore]
    simp [prepend, tag, hcontent]

/-- **The two texts of an empty element differ in its spelling only.** -/
theorem nodes_respelled (e : EmptyElement) (h : e.site.Allows e.tag) :
    RespelledAmong {} (nodes e.selfClosing) (nodes e.endTagged) := by
  obtain ⟨more, ending, ending', hempty, hpair⟩ := e.events_texts
  unfold nodes
  rw [hempty, hpair]
  dsimp only
  rw [grow_append, grow_append]
  exact grow_respelled ending ending' (.refl _) (RespelledAmong.push (.refl _ _) (.spelled h)) more

end EmptyElement

end RenderLayout.Markup
