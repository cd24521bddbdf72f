import RenderLayout.Proofs.PageComponents

/-!
The font of a text.

A span may name a font of its own: a family of the catalog, in a weight that the family has, at a
size. Any other span should leave the text its font. But a span without a size asks for the fallback,
which is no substitute, and so it takes the font of the text away unless that is the fallback too.
-/

namespace RenderLayout

namespace Text

/-- A pattern that begins with a key is found only where the key stands. -/
lemma isInfix_of_firstMatch {α : Type} {key s : List Char} {next : List Char → Option α} {found : α}
    (h : firstMatch (fun s => after? key s >>= next) s = some found) : key <:+: s := by
  obtain ⟨before, rest, rfl, hrest, -⟩ := firstMatch_eq_some_iff.1 h
  obtain ⟨behind, hbehind, -⟩ := Option.bind_eq_some_iff.1 hrest
  exact ⟨before, behind, by rw [eq_append_of_after? hbehind, List.append_assoc]⟩

end Text

namespace Font

/-- The font that a request names: a family of the catalog, in a weight that it has, at a size. -/
def Request.named? (request : Request) : Option Font := do
  let size ← request.size
  let name ← request.family
  let family ← family? name
  let weight ← family.weight? request.bold request.light
  return ⟨weight.variantName name, Number.roundToInt64 size⟩

/-- A request gets the font that it names, or else the fallback, which stands in only for a request
with a size. -/
lemma Request.choose_eq (request : Request) :
    request.choose =
      match request.named? with
      | some font => ⟨font, false⟩
      | none => ⟨fallback, request.size.isSome⟩ := by
  obtain ⟨family, size, bold, light⟩ := request
  unfold choose named?
  cases size with
  | none => rfl
  | some size =>
    cases family with
    | none => rfl
    | some name =>
      show chooseFamily name bold light size = _
      unfold chooseFamily
      dsimp only [Option.bind_eq_bind, Option.bind_some]
      cases family? name with
      | none => rfl
      | some family =>
        dsimp only [Option.bind_some]
        cases family.weight? bold light <;> rfl

/-- No size is asked for where the word does not stand. -/
lemma size_eq_none {declarations : String} (h : ¬ "font-size:".toList <:+: declarations.toList) :
    (Request.ofDeclarations declarations).size = none := by
  rw [Request.ofDeclarations]
  dsimp only
  rw [Option.map_eq_none_iff, Option.eq_none_iff_forall_ne_some]
  exact fun numeral hnumeral => h (Text.isInfix_of_firstMatch hnumeral)

end Font

/-- The font of a text unless its span names one. -/
def fontFor (text : TextBox) (span : Span) : Font :=
  (Font.Request.ofDeclarations span.style).named?.getD (Font.choose text.style).font

/-- A span that neither names a font nor asks for a size takes the font of the text away, unless it
is the fallback. -/
lemma key_fontOf_eq_iff {text : TextBox} {span : Span} :
    (fontOf text span).key = (fontFor text span).key ↔
      (Font.Request.ofDeclarations span.style).size.isSome = true ∨
        (Font.choose text.style).key = Font.fallback.key := by
  unfold fontOf fontFor Font.Choice.key
  rw [show Font.choose span.style = (Font.Request.ofDeclarations span.style).choose from rfl,
    Font.Request.choose_eq]
  generalize Font.Request.ofDeclarations span.style = request
  cases hnamed : request.named? with
  | some font =>
    -- a named font has a size
    have hsize : request.size.isSome = true := by
      obtain ⟨size, hsize, -⟩ := Option.bind_eq_some_iff.1 hnamed
      rw [hsize]
      rfl
    refine iff_of_true ?_ (Or.inl hsize)
    dsimp only [Option.getD_some]
    split
    case isTrue => rfl
    case isFalse hsame =>
      rw [Bool.not_false, and_iff_left rfl, not_not] at hsame
      exact hsame.symm
  | none =>
    dsimp only [Option.getD_none]
    cases request.size.isSome with
    | true => simp
    | false =>
      by_cases hkey : Font.fallback.key = (Font.choose text.style).font.key
      · simp [hkey]
      · simp [hkey, Ne.symm hkey]

lemma PageContext.font_made {context : PageContext} {layer index number : Nat} {text : TextBox}
    {component : Component} (h : context.made ⟨layer, index, .text text⟩ number = .ok component) :
    ∃ span, text.spans = [span] ∧ component.font = some (fontOf text span).key := by
  obtain ⟨hcheck, -, rfl⟩ := made_eq_ok_iff.1 h
  obtain ⟨span, hspan, -⟩ := bind_eq_ok_iff.1 hcheck
  have hspans := (TextBox.singleSpan_eq_ok_iff.1 hspan).1
  exact ⟨span, hspans, by simp [Placed.drawn, hspans]⟩

/-- **The font of a text**: a text of a page is drawn in its own font, or in the one that its span
names, just when the span asks for a size or the font of the text is the fallback. A span that says
nothing of fonts keeps the font of the text only if that is the fallback. -/
theorem Draft.text_font_iff (draft : Draft) (page : String) (drawing : Drawing)
    (h : (draft.addDrawing page drawing).1 = .ok ()) {n i : Nat} {layer : Layer} {text : TextBox}
    (hlayer : drawing.layers[n]? = some layer) (htext : layer[i]? = some (.text text)) :
    ∃ components component span,
      (draft.addDrawing page drawing).2.pages.find? page = some components ∧
      components[drawing.shapesBefore n + i]? = some component ∧ text.spans = [span] ∧
      (component.font = some (fontFor text span).key ↔
        (Font.Request.ofDeclarations span.style).size.isSome = true ∨
          (Font.choose text.style).key = Font.fallback.key) ∧
      (¬ "font-family:".toList <:+: span.style.toList →
        ¬ "font-size:".toList <:+: span.style.toList →
        (component.font = some (Font.choose text.style).key ↔
          (Font.choose text.style).key = Font.fallback.key)) := by
  obtain ⟨components, classes, component, hpage, -, hcomponent, hmade⟩ :=
    exists_component h hlayer htext
  obtain ⟨span, hspans, hfont⟩ := PageContext.font_made hmade
  refine ⟨components, component, span, hpage, hcomponent, hspans, ?_, ?_⟩
  · rw [hfont, Option.some_inj]
    exact key_fontOf_eq_iff
  · intro _ hsilent
    have hsize := Font.size_eq_none hsilent
    have hfontFor : fontFor text span = (Font.choose text.style).font := by
      unfold fontFor Font.Request.named?
      rw [hsize]
      rfl
    have hiff := @key_fontOf_eq_iff text span
    rw [hfontFor, hsize] at hiff
    rw [hfont, Option.some_inj]
    simpa [Font.Choice.key] using hiff

/-- A text in a font of its own, with one span. -/
def caption (declarations : String) : TextBox where
  style := "font-size:12px;font-family:Play"
  spans := [{ style := declarations }]

/-- The span of the first text names another font, that of the second a family that there is not,
and that of the third says nothing of fonts. -/
def captions : Drawing where
  layers := [[
    .text (caption "font-size:14px;font-family:FiraMono"),
    .text (caption "font-size:14px;font-family:Arial"),
    .text (caption "fill:#ff0000")]]

lemma captions_added : (({} : Draft).addDrawing "p" captions).1 = .ok () := by
  have hrun : (({} : Draft).addDrawing "p" captions).1.toOption = some () := by decide +kernel
  exact toOption_eq_some_iff.1 hrun

/-- The second text is drawn in its own font. -/
theorem text_font_caption :
    (({} : Draft).addDrawing "p" captions).1 = .ok () ∧
      captions.layers.flatten[1]? = some (.text (caption "font-size:14px;font-family:Arial")) ∧
      ∃ components component,
        (({} : Draft).addDrawing "p" captions).2.pages.find? "p" = some components ∧
        components[1]? = some component ∧ component.font = some "Play-12" := by
  obtain ⟨components, component, span, hpage, hcomponent, hspans, hiff, -⟩ :=
    Draft.text_font_iff {} "p" captions captions_added (n := 0) (i := 1) rfl rfl
  obtain rfl := List.singleton_inj.1 hspans
  have hsize : (Font.Request.ofDeclarations "font-size:14px;font-family:Arial").size.isSome =
      true := by decide +kernel
  have hfont : (fontFor (caption "font-size:14px;font-family:Arial")
      { style := "font-size:14px;font-family:Arial" }).key = "Play-12" := by decide +kernel
  exact ⟨captions_added, rfl, components, component, hpage, hcomponent,
    hfont ▸ hiff.2 (Or.inl hsize)⟩

/-- The third text is not, but in the fallback, although its span says nothing of fonts. -/
theorem text_font_lost :
    (({} : Draft).addDrawing "p" captions).1 = .ok () ∧
      captions.layers.flatten[2]? = some (.text (caption "fill:#ff0000")) ∧
      ¬ "font-family:".toList <:+: "fill:#ff0000".toList ∧
      ¬ "font-size:".toList <:+: "fill:#ff0000".toList ∧
      (Font.choose (caption "fill:#ff0000").style).key = "Play-12" ∧
      ∃ components component,
        (({} : Draft).addDrawing "p" captions).2.pages.find? "p" = some components ∧
        components[2]? = some component ∧ component.font = some "RobotoMono-10" := by
  obtain ⟨components, classes, component, hpage, -, hcomponent, hmade⟩ :=
    Draft.exists_component captions_added (n := 0) (i := 2) rfl rfl
  obtain ⟨span, hspans, hfont⟩ := PageContext.font_made hmade
  obtain rfl := List.singleton_inj.1 hspans
  have hkey : (fontOf (caption "fill:#ff0000") { style := "fill:#ff0000" }).key =
      "RobotoMono-10" := by decide +kernel
  exact ⟨captions_added, rfl, by decide, by decide, by decide +kernel, components, component, hpage,
    hcomponent, hkey ▸ hfont⟩

end RenderLayout
