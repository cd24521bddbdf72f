import RenderLayout.Files.Convert
import RenderLayout.Proofs.FileTrees
import RenderLayout.Proofs.Tables

/-!
The order of inputs.

Every input makes a page by itself, and the pages of all inputs go into one table if no two of them
have a name in common. Neither part depends on the order of the inputs; only which fault is told
first does.
-/

namespace RenderLayout

/-! ### Inputs one by one -/

/-- What an input makes by itself: its drawing under the name of its page. -/
def loadPage (read : FileReader) (path : OsText) : Except Failure (String × Drawing) := do
  let page ← pageOf path
  let text ← (read path).mapError .file
  let drawing ← (Drawing.ofMarkup text).mapError (.page page)
  return (page, drawing)

variable {read : FileReader} {inputs others : List OsText} {drawings : Table Drawing}

/-- An input adds its page, unless there is one of that name. -/
lemma loadDrawing_eq (read : FileReader) (drawings : Table Drawing) (path : OsText) :
    loadDrawing read drawings path = (do
      let p ← loadPage read path
      if drawings.contains p.1 then throw (.duplicatePage p.1)
      return drawings.insert p.1 p.2) := by
  simp only [loadDrawing, loadPage, bind_assoc, pure_bind]

lemma loadDrawing_eq_ok_iff {path : OsText} {after : Table Drawing} :
    loadDrawing read drawings path = .ok after ↔
      ∃ p, loadPage read path = .ok p ∧ drawings.contains p.1 = false ∧
        after = drawings.insert p.1 p.2 := by
  rw [loadDrawing_eq, bind_eq_ok_iff]
  refine exists_congr fun p => and_congr_right fun _ => ?_
  cases drawings.contains p.1 with
  | true => exact iff_of_false nofun fun h => absurd h.1 (by decide)
  | false => simp [pure, Except.pure, eq_comm]

/-- The step of a run adds one page, and all steps together add pages of new and different names. -/
lemma foldlM_loadDrawing_eq_ok_iff {after : Table Drawing} :
    inputs.foldlM (loadDrawing read) drawings = .ok after ↔
      ∃ pages, inputs.mapM (loadPage read) = .ok pages ∧ (pages.map (·.1)).Nodup ∧
        (∀ name ∈ pages.map (·.1), drawings.contains name = false) ∧
        after = drawings.insertAll pages := by
  induction inputs generalizing drawings with
  | nil =>
    rw [List.foldlM_nil]
    constructor
    · intro h
      exact ⟨[], rfl, List.nodup_nil, nofun, (Except.ok.inj h).symm⟩
    · rintro ⟨pages, hpages, -, -, rfl⟩
      obtain rfl := Except.ok.inj hpages
      rfl
  | cons path inputs ih =>
    rw [List.foldlM_cons, bind_eq_ok_iff]
    constructor
    · rintro ⟨next, hnext, hrest⟩
      obtain ⟨p, hp, hnew, rfl⟩ := loadDrawing_eq_ok_iff.1 hnext
      obtain ⟨pages, hpages, hnodup, hothers, rfl⟩ := ih.1 hrest
      have hother (name : String) (hname : name ∈ pages.map (·.1)) :
          p.1 ≠ name ∧ drawings.contains name = false := by
        simpa [Table.contains_insert] using hothers name hname
      refine ⟨p :: pages, ?_, ?_, ?_, rfl⟩
      · rw [mapM_eq_ok_iff] at hpages ⊢
        exact .cons hp hpages
      · exact List.nodup_cons.2 ⟨fun hmem => (hother p.1 hmem).1 rfl, hnodup⟩
      · rw [List.map_cons, List.forall_mem_cons]
        exact ⟨hnew, fun name hname => (hother name hname).2⟩
    · rintro ⟨pages, hpages, hnodup, hothers, rfl⟩
      rw [mapM_eq_ok_iff] at hpages
      obtain ⟨p, pages, hp, hrest, rfl⟩ := List.forall₂_cons_left_iff.1 hpages
      rw [List.map_cons, List.forall_mem_cons] at hothers
      obtain ⟨hfirst, hnodup⟩ := List.nodup_cons.1 hnodup
      refine ⟨drawings.insert p.1 p.2, loadDrawing_eq_ok_iff.2 ⟨p, hp, hothers.1, rfl⟩,
        ih.2 ⟨pages, mapM_eq_ok_iff.2 hrest, hnodup, fun name hname => ?_, rfl⟩⟩
      have hne : p.1 ≠ name := ne_of_mem_of_not_mem hname hfirst |>.symm
      simp [Table.contains_insert, hne, hothers.2 name hname]

/-- **Loading input by input**: there are drawings if every input makes a page and no two of the
pages have the same name, and then they are those of the pages. -/
theorem loadDrawings_eq_ok_iff :
    loadDrawings read inputs = .ok drawings ↔
      ∃ pages, inputs.mapM (loadPage read) = .ok pages ∧ (pages.map (·.1)).Nodup ∧
        drawings = .ofList pages := by
  unfold loadDrawings
  rw [foldlM_loadDrawing_eq_ok_iff]
  refine exists_congr fun pages => and_congr_right fun _ => and_congr_right fun _ => ?_
  exact and_iff_right fun _ _ => rfl

/-! ### Inputs in another order -/

lemma loadDrawings_of_perm (h : inputs.Perm others)
    (hload : loadDrawings read inputs = .ok drawings) :
    loadDrawings read others = .ok drawings := by
  obtain ⟨pages, hpages, hnodup, rfl⟩ := loadDrawings_eq_ok_iff.1 hload
  obtain ⟨reordered, hreordered, hperm⟩ := List.perm_comp_forall₂ h.symm (mapM_eq_ok_iff.1 hpages)
  have hnames := hperm.map (·.1)
  refine loadDrawings_eq_ok_iff.2
    ⟨reordered, mapM_eq_ok_iff.2 hreordered, hnames.nodup_iff.2 hnodup, ?_⟩
  exact Table.ofList_eq_of_perm hperm.symm hnodup

lemma loadDrawings_perm (h : inputs.Perm others) :
    loadDrawings read inputs = .ok drawings ↔ loadDrawings read others = .ok drawings :=
  ⟨loadDrawings_of_perm h, loadDrawings_of_perm h.symm⟩

lemma size_loadDrawings (h : loadDrawings read inputs = .ok drawings) :
    drawings.size = inputs.length := by
  obtain ⟨pages, hpages, hnodup, rfl⟩ := loadDrawings_eq_ok_iff.1 h
  rw [Table.size_ofList hnodup, (mapM_eq_ok_iff.1 hpages).length_eq]

/-! ### Conversions -/

/-- A conversion comes to this layout, and can open its output at this place. -/
structure Prepares (tree : FileTree) (system : System) (canvas : Canvas) (inputs : List OsText)
    (output : OsText) (layout : Layout) (place : Place) : Prop where
  made : ∃ drawings, loadDrawings (system.read tree) inputs = .ok drawings ∧
    compile canvas drawings = .ok layout
  opened : tree.openPlace system output = .ok place

/-- A conversion comes to this layout, and can write all of its text at this place. -/
structure Converts (tree : FileTree) (system : System) (canvas : Canvas) (inputs : List OsText)
    (output : OsText) (layout : Layout) (place : Place) : Prop
    extends Prepares tree system canvas inputs output layout place where
  fits : tree.Fits system place layout.json.render.toUTF8

section Conversions

variable {tree after : FileTree} {system : System} {canvas : Canvas} {output : OsText}
variable {conversion : Conversion} {layout : Layout} {place : Place} {summary : Summary}

lemma Conversion.ofFiles_eq_ok_iff :
    Conversion.ofFiles read canvas inputs output = .ok conversion ↔
      ∃ drawings, loadDrawings read inputs = .ok drawings ∧
        compile canvas drawings = .ok conversion.layout ∧ conversion.output = output := by
  obtain ⟨path, layout⟩ := conversion
  unfold ofFiles
  simp only [bind_eq_ok_iff, pure, Except.pure, Except.ok.injEq, Conversion.mk.injEq]
  refine exists_congr fun drawings => and_congr_right fun _ => ?_
  constructor
  · rintro ⟨_, hlayout, rfl, rfl⟩
    exact ⟨hlayout, rfl⟩
  · rintro ⟨hlayout, rfl⟩
    exact ⟨layout, hlayout, rfl, rfl⟩

lemma Conversion.ofFiles_perm (h : inputs.Perm others) :
    Conversion.ofFiles read canvas inputs output = .ok conversion ↔
      Conversion.ofFiles read canvas others output = .ok conversion := by
  simp only [ofFiles_eq_ok_iff, loadDrawings_perm h]

/-- **A conversion succeeds** just when there is a layout of its inputs and a place with room for
the layout's text. -/
lemma FileTree.convertOn_eq_ok_iff :
    tree.convertOn system canvas inputs output = (.ok summary, after) ↔
      ∃ layout place, Converts tree system canvas inputs output layout place ∧
        summary = {
          output
          pages := layout.pages.keys
          styles := layout.styles.size
          fonts := layout.fonts.size
          digest := Sha256.hex layout.json.render.toUTF8.toList } ∧
        after = tree.filled place layout.json.render.toUTF8 := by
  constructor
  · intro h
    unfold convertOn at h
    cases hfiles : Conversion.ofFiles (system.read tree) canvas inputs output with
    | error failure =>
      rw [hfiles] at h
      cases h
    | ok conversion =>
      obtain ⟨drawings, hload, hlayout, rfl⟩ := Conversion.ofFiles_eq_ok_iff.1 hfiles
      rw [hfiles] at h
      dsimp only [store] at h
      obtain ⟨htold, rfl⟩ := Prod.mk.inj h
      cases hwritten : (tree.write system conversion.output conversion.content).1 with
      | error fault =>
        rw [hwritten] at htold
        cases htold
      | ok _ =>
        rw [hwritten] at htold
        obtain ⟨place, hopen, hfits, hafter⟩ := write_eq_ok_iff.1 (Prod.ext hwritten rfl)
        exact ⟨conversion.layout, place, ⟨⟨⟨drawings, hload, hlayout⟩, hopen⟩, hfits⟩,
          (Except.ok.inj htold).symm, hafter⟩
  · rintro ⟨layout, place, ⟨⟨⟨drawings, hload, hlayout⟩, hopen⟩, hfits⟩, rfl, rfl⟩
    have hfiles : Conversion.ofFiles (system.read tree) canvas inputs output =
        .ok ⟨output, layout⟩ :=
      Conversion.ofFiles_eq_ok_iff.2 ⟨drawings, hload, hlayout, rfl⟩
    have hwrite := write_eq_ok_iff.2 ⟨place, hopen, hfits, rfl⟩
    unfold convertOn
    rw [hfiles]
    dsimp only [store, Conversion.content, Layout.text]
    rw [hwrite]
    rfl

/-- **A conversion that fails** changes nothing, unless it has opened its output and there is not
enough room for the layout's text. -/
lemma FileTree.convertOn_eq_error {failure : Failure}
    (h : tree.convertOn system canvas inputs output = (.error failure, after)) :
    after = tree ∨ ∃ layout place, Prepares tree system canvas inputs output layout place ∧
      ¬ tree.Fits system place layout.json.render.toUTF8 ∧
      ∀ other, other ≠ place → after.find? other = tree.find? other := by
  unfold convertOn at h
  cases hfiles : Conversion.ofFiles (system.read tree) canvas inputs output with
  | error failure =>
    rw [hfiles] at h
    exact Or.inl (congrArg Prod.snd h).symm
  | ok conversion =>
    obtain ⟨drawings, hload, hlayout, rfl⟩ := Conversion.ofFiles_eq_ok_iff.1 hfiles
    rw [hfiles] at h
    dsimp only [store] at h
    obtain ⟨htold, rfl⟩ := Prod.mk.inj h
    cases hwritten : (tree.write system conversion.output conversion.content).1 with
    | ok _ =>
      rw [hwritten] at htold
      cases htold
    | error fault =>
      refine (write_eq_error (Prod.ext hwritten rfl)).imp id ?_
      rintro ⟨place, hopen, hfits, size, hafter⟩
      refine ⟨conversion.layout, place, ⟨⟨drawings, hload, hlayout⟩, hopen⟩, hfits, ?_⟩
      intro other hne
      exact (congrArg (find? · other) hafter).trans (find?_filled hopen _ hne)

/-- In another order the same comes about, or another failure before anything is written. -/
lemma FileTree.convertOn_perm (h : inputs.Perm others) (tree : FileTree) (system : System)
    (canvas : Canvas) (output : OsText) :
    tree.convertOn system canvas inputs output = tree.convertOn system canvas others output ∨
      ∃ failure failure', tree.convertOn system canvas inputs output = (.error failure, tree) ∧
        tree.convertOn system canvas others output = (.error failure', tree) := by
  have hperm (conversion : Conversion) :
      Conversion.ofFiles (system.read tree) canvas inputs output = .ok conversion ↔
        Conversion.ofFiles (system.read tree) canvas others output = .ok conversion :=
    Conversion.ofFiles_perm h
  unfold convertOn
  cases hfiles : Conversion.ofFiles (system.read tree) canvas inputs output with
  | ok conversion =>
    rw [(hperm conversion).1 hfiles]
    exact Or.inl rfl
  | error failure =>
    cases hother : Conversion.ofFiles (system.read tree) canvas others output with
    | ok conversion =>
      rw [(hperm conversion).2 hother] at hfiles
      cases hfiles
    | error failure' => exact Or.inr ⟨failure, failure', rfl, rfl⟩

/-- **The order of inputs does not matter**: in any order the same drawings are loaded, as many as
there are inputs, or none. A conversion to the same output then ends with the same summary and the
same bytes at the output, which are those of the layout's text and have the digest that is told; or
it fails in either order, and what it leaves behind is the same. -/
theorem convert_perm {inputs others : List OsText} (h : inputs.Perm others) (read : FileReader)
    (tree : FileTree) (system : System) (canvas : Canvas) (output : OsText) :
    (∀ drawings, loadDrawings read inputs = .ok drawings ↔
      loadDrawings read others = .ok drawings) ∧
    (∀ drawings, loadDrawings read inputs = .ok drawings → drawings.size = inputs.length) ∧
    ((∃ layout place summary after, Converts tree system canvas inputs output layout place ∧
        tree.convertOn system canvas inputs output = (.ok summary, after) ∧
        tree.convertOn system canvas others output = (.ok summary, after) ∧
        summary.digest = Sha256.hex layout.json.render.toUTF8.toList ∧
        (tree.find? place ≠ some .sink → after.readBytes output = .ok layout.json.render.toUTF8) ∧
        ∀ other, other ≠ place → after.find? other = tree.find? other) ∨
      (∀ layout place, ¬ Converts tree system canvas inputs output layout place) ∧
        ∃ failure failure' after,
          tree.convertOn system canvas inputs output = (.error failure, after) ∧
          tree.convertOn system canvas others output = (.error failure', after)) := by
  refine ⟨fun drawings => loadDrawings_perm h, fun drawings => size_loadDrawings, ?_⟩
  have hfails {failure : Failure} {after : FileTree}
      (hresult : tree.convertOn system canvas inputs output = (.error failure, after))
      (layout : Layout) (place : Place) :
      ¬ Converts tree system canvas inputs output layout place := by
    intro hconverts
    rw [FileTree.convertOn_eq_ok_iff.2 ⟨layout, place, hconverts, rfl, rfl⟩] at hresult
    cases hresult
  rcases FileTree.convertOn_perm h tree system canvas output with
    hsame | ⟨failure, failure', hresult, hother⟩
  · rw [← hsame]
    rcases hresult : tree.convertOn system canvas inputs output with ⟨failure | summary, after⟩
    · exact Or.inr ⟨hfails hresult, failure, failure, after, rfl, rfl⟩
    · obtain ⟨layout, place, hconverts, rfl, rfl⟩ := FileTree.convertOn_eq_ok_iff.1 hresult
      exact Or.inl ⟨layout, place, _, _, hconverts, rfl, rfl, rfl,
        fun hsink => FileTree.readBytes_filled hconverts.opened hsink _,
        fun other hne => FileTree.find?_filled hconverts.opened _ hne⟩
  · exact Or.inr ⟨hfails hresult, failure, failure', tree, hresult, hother⟩

end Conversions

/-- Two files of drawings. -/
def twoPages : FileTree :=
  (FileTree.addFile {} "a.svg" "<svg width=\"1024\" height=\"613\"/>".toUTF8).addFile "b.svg"
    "<svg width=\"1024px\" height=\"613\"><g><rect width=\"2\"/></g></svg>".toUTF8

/-- Both files make the same layout in either order, also by ways back and by paths from the
root. -/
theorem convert_perm_twoPages :
    (["../work/b.svg", "a.svg"] : List OsText).Perm ["a.svg", "../work/b.svg"] ∧
    ∃ layout : Layout, ∃ summary after,
      twoPages.convertOn {} {} ["../work/b.svg", "a.svg"] "/tmp/out.json" = (.ok summary, after) ∧
      twoPages.convertOn {} {} ["a.svg", "../work/b.svg"] "/tmp/out.json" = (.ok summary, after) ∧
      summary.digest = Sha256.hex layout.json.render.toUTF8.toList ∧
      after.readBytes "/tmp/out.json" = .ok layout.json.render.toUTF8 := by
  have hperm : (["../work/b.svg", "a.svg"] : List OsText).Perm ["a.svg", "../work/b.svg"] :=
    .swap _ _ _
  have hsome : (twoPages.convertOn {} {}
      ["../work/b.svg", "a.svg"] "/tmp/out.json").1.toOption.isSome = true := by
    decide +kernel
  have hopen : twoPages.openPlace {} "/tmp/out.json" = .ok ["tmp", "out.json"] := by decide +kernel
  have hsink : twoPages.find? ["tmp", "out.json"] ≠ some .sink := by decide +kernel
  rcases (convert_perm hperm twoPages.readText twoPages {} {} "/tmp/out.json").2.2 with
    ⟨layout, place, summary, after, hconverts, hresult, hother, hdigest, hread, -⟩ |
    ⟨-, failure, -, after, hresult, -⟩
  · obtain rfl : _ = place := Except.ok.inj (hopen.symm.trans hconverts.opened)
    exact ⟨hperm, layout, summary, after, hresult, hother, hdigest, hread hsink⟩
  · rw [hresult] at hsome
    cases hsome

end RenderLayout
