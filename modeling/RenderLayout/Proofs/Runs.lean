import RenderLayout.Command.Run
import RenderLayout.Proofs.JsonWriting
import RenderLayout.Proofs.Loading

/-!
What a run changes, and what it tells.

A run writes at most one file, and that only at its end. After a conversion that succeeds the
output holds the text of the layout of its inputs, nothing else has changed, and what is printed
spells what is so of the layout. After any other run all files are as they were, unless the output
has been opened already: then there may be no room for all bytes, or no way to tell what has been
written.
-/

namespace RenderLayout

/-! ### Reports -/

/-- The members of a summary in the order of their keys. -/
lemma Summary.json_eq (summary : Summary) :
    summary.json = .obj [("digest", .str summary.digest), ("fonts", .int summary.fonts),
      ("output", .str summary.output.shown), ("pages", .arr (summary.pages.map .str)),
      ("styles", .int summary.styles)] := by
  simp (disch := decide) only [Summary.json, Json.object, List.foldl_cons, List.foldl_nil,
    insertPair, if_pos, if_neg]

namespace CommandLine

/-- What a conversion prints when it has succeeded. -/
def report (output : OsText) (layout : Layout) : String :=
  (reportJson (Conversion.mk output layout).summary.json).pretty ++ "\n"

/-- What is told: success, the version, and of the layout its file, the names of its pages, how many
styles and fonts it has, and the digest of its text. -/
def reportTree (output : String) (layout : Layout) (content : ByteArray) : Json.Tree .value :=
  .obj <|
    .member "success" (.bool true) <|
    .member "summary"
      (.obj <|
        .member "digest" (.str (Sha256.hex content.toList)) <|
        .member "fonts" (.number (.ofInt layout.fonts.size)) <|
        .member "output" (.str output) <|
        .member "pages" (.arr (.ofItems (layout.pages.keys.map .str))) <|
        .member "styles" (.number (.ofInt layout.styles.size)) .noMembers) <|
    .member "version" (.str version) .noMembers

lemma reportJson_eq (summary : Json) :
    reportJson summary =
      .obj [("success", .bool true), ("summary", summary), ("version", .str version)] := by
  simp (disch := decide) only [reportJson, Json.object, List.foldl_cons, List.foldl_nil, insertPair,
    if_pos, if_neg]

lemma floatless_reportJson (summary : Summary) : (reportJson summary.json).Floatless := by
  have hpages : (Json.arr (summary.pages.map .str)).Floatless :=
    .arr (List.forall_mem_map.2 fun page _ => .str page)
  rw [reportJson_eq, Summary.json_eq]
  refine .obj ?_
  simp only [List.forall_mem_cons, List.not_mem_nil, false_imp_iff, implies_true, and_true]
  refine ⟨.bool true, .obj ?_, .str version⟩
  simp only [List.forall_mem_cons, List.not_mem_nil, false_imp_iff, implies_true, and_true]
  exact ⟨.str _, .int _, .str _, hpages, .int _⟩

/-- **What is printed** spells what is so of the layout and of the bytes of its text. -/
lemma spells_report {output : OsText} {path : String} (h : output.text? = some path)
    (layout : Layout) :
    Json.Spells (reportTree path layout layout.json.render.toUTF8) (report output layout) := by
  have hshown : output.shown = path := by rw [OsText.shown, h, Option.getD_some]
  have htree : Json.Tree.ofJson (reportJson (Conversion.mk output layout).summary.json) =
      reportTree path layout layout.json.render.toUTF8 := by
    rw [reportJson_eq, Summary.json_eq, ← hshown]
    rfl
  rw [← htree]
  exact (floatless_reportJson _).spells_pretty

/-- There is a text for what a conversion has done, and all of it can be printed. -/
structure Tellable (system : System) (output : OsText) (layout : Layout) : Prop where
  named : output.text?.isSome = true
  printable : printed system.paper (report output layout) = report output layout

/-! ### Ends of runs -/

variable {tree : FileTree} {words : List OsText} {system : System} {config : Option OsText}
variable {inputs : List OsText} {output : OsText} {layout : Layout}

lemma exit_reply_ofFailure (paper : Option Nat) (failure : Failure) :
    ((Ending.ofFailure failure).reply paper).exit ≠ 0 := by
  rw [Ending.ofFailure, Ending.reply]
  split
  · exact Nat.one_ne_zero
  · exact Nat.succ_ne_zero 100

lemma ofConversion_eq (output : OsText) (layout : Layout) :
    Ending.ofConversion (.ok (Conversion.mk output layout).summary) =
      if output.text?.isSome then .line 0 (report output layout) else .panic := by
  rw [Ending.ofConversion, Summary.json?,
    show (Conversion.mk output layout).summary.output = output from rfl]
  cases output.text? with
  | none => rfl
  | some path => rfl

/-- A conversion that has succeeded ends well if it can be told what has been done. -/
lemma reply_ofConversion (system : System) (output : OsText) (layout : Layout) :
    Tellable system output layout ∧
        (Ending.ofConversion (.ok (Conversion.mk output layout).summary)).reply system.paper =
          ⟨0, report output layout⟩ ∨
      ¬ Tellable system output layout ∧
        ((Ending.ofConversion (.ok (Conversion.mk output layout).summary)).reply
          system.paper).exit = panicked := by
  rw [ofConversion_eq]
  by_cases hnamed : output.text?.isSome = true
  · rw [if_pos hnamed, Ending.reply]
    by_cases hprinted : printed system.paper (report output layout) = report output layout
    · exact Or.inl ⟨⟨hnamed, hprinted⟩, if_pos hprinted⟩
    · exact Or.inr ⟨fun h => hprinted h.printable, by rw [if_neg hprinted]⟩
  · rw [if_neg hnamed]
    exact Or.inr ⟨fun h => hnamed h.named, rfl⟩

/-! ### Runs -/

/-- A run that is no conversion changes nothing. -/
lemma run_of_not_convert
    (h : ∀ config inputs output, read words ≠ .run config (.convert inputs output)) :
    (run tree words system).2 = tree := by
  have hplan : ∃ ending, plan (system.read tree) words = .finish ending := by
    unfold plan
    cases hread : read words with
    | misuse => exact ⟨_, rfl⟩
    | version => exact ⟨_, rfl⟩
    | help level => exact ⟨_, rfl⟩
    | run config command =>
      cases command with
      | convert inputs output => exact absurd hread (h config inputs output)
      | fonts =>
        dsimp only [planRun, planCommand]
        cases loadSettings (system.read tree) config with
        | error failure => exact ⟨_, rfl⟩
        | ok settings => exact ⟨_, rfl⟩
  obtain ⟨ending, hplan⟩ := hplan
  unfold run
  rw [hplan]

/-- **The run of a conversion** loads the settings, and tells how the conversion has gone. -/
theorem run_convert (h : read words = .run config (.convert inputs output)) :
    run tree words system =
      match loadSettings (system.read tree) config with
      | .error failure => ((Ending.ofFailure failure).reply system.paper, tree)
      | .ok settings =>
        let (told, after) := tree.convertOn system settings.canvas inputs output
        ((Ending.ofConversion told).reply system.paper, after) := by
  unfold run plan
  rw [h]
  dsimp only [planRun, planCommand]
  cases loadSettings (system.read tree) config with
  | error failure => rfl
  | ok settings =>
    dsimp only [ok_bind, FileTree.convertOn]
    cases Conversion.ofFiles (system.read tree) settings.canvas inputs output with
    | error failure => rfl
    | ok conversion => rfl

variable {settings : Settings} {place : Place}

/-- A conversion that succeeds has filled its output, and ends as far as it can be told. -/
lemma run_of_converts (hread : read words = .run config (.convert inputs output))
    (hload : loadSettings (system.read tree) config = .ok settings)
    (hconverts : Converts tree system settings.canvas inputs output layout place) :
    run tree words system =
      ((Ending.ofConversion (.ok (Conversion.mk output layout).summary)).reply system.paper,
        tree.filled place layout.json.render.toUTF8) := by
  have hresult : tree.convertOn system settings.canvas inputs output =
      (.ok (Conversion.mk output layout).summary, tree.filled place layout.json.render.toUTF8) :=
    FileTree.convertOn_eq_ok_iff.2 ⟨layout, place, hconverts, rfl, rfl⟩
  rw [run_convert hread, hload]
  dsimp only
  rw [hresult]

/-- A conversion succeeds, or it ends badly; then what it may have changed is its output, for which
there is not enough room. -/
lemma converts_or_exit_ne_zero (tree : FileTree) (system : System)
    (hread : read words = .run config (.convert inputs output)) :
    (∃ settings layout place, loadSettings (system.read tree) config = .ok settings ∧
        Converts tree system settings.canvas inputs output layout place) ∨
      (run tree words system).1.exit ≠ 0 ∧
        ((run tree words system).2 = tree ∨ ∃ settings layout place,
          loadSettings (system.read tree) config = .ok settings ∧
          Prepares tree system settings.canvas inputs output layout place ∧
          ¬ tree.Fits system place layout.json.render.toUTF8 ∧
          ∀ other, other ≠ place → (run tree words system).2.find? other = tree.find? other) := by
  rw [run_convert hread]
  cases hload : loadSettings (system.read tree) config with
  | error failure =>
    -- without settings nothing has been opened
    exact Or.inr ⟨exit_reply_ofFailure _ failure, Or.inl rfl⟩
  | ok settings =>
    dsimp only
    rcases hresult : tree.convertOn system settings.canvas inputs output with
      ⟨failure | summary, after⟩
    · refine Or.inr ⟨exit_reply_ofFailure _ failure, ?_⟩
      refine (FileTree.convertOn_eq_error hresult).imp id ?_
      rintro ⟨layout, place, hprepares, hfits, hothers⟩
      exact ⟨settings, layout, place, rfl, hprepares, hfits, hothers⟩
    · obtain ⟨layout, place, hconverts, -, -⟩ := FileTree.convertOn_eq_ok_iff.1 hresult
      exact Or.inl ⟨settings, layout, place, rfl, hconverts⟩

/-- Only the output of a conversion changes. -/
lemma openPlace_of_changed (hread : read words = .run config (.convert inputs output))
    (hchanged : (run tree words system).2.find? place ≠ tree.find? place) :
    tree.openPlace system output = .ok place := by
  rcases converts_or_exit_ne_zero tree system hread with
    ⟨settings, layout, target, hload, hconverts⟩ |
    ⟨-, hsame | ⟨settings, layout, target, -, hprepares, -, hothers⟩⟩
  · rw [run_of_converts hread hload hconverts] at hchanged
    obtain rfl : place = target := by
      by_contra hne
      exact hchanged (FileTree.find?_filled hconverts.opened _ hne)
    exact hconverts.opened
  · exact absurd (congrArg (·.find? place) hsame) hchanged
  · obtain rfl : place = target := by
      by_contra hne
      exact hchanged (hothers place hne)
    exact hprepares.opened

/-- A conversion that ends badly changes nothing, unless its output has been opened. -/
lemma eq_or_prepares_of_exit_ne_zero (hread : read words = .run config (.convert inputs output))
    (hexit : (run tree words system).1.exit ≠ 0) :
    (run tree words system).2 = tree ∨ ∃ settings layout place,
      loadSettings (system.read tree) config = .ok settings ∧
      Prepares tree system settings.canvas inputs output layout place ∧
      ¬ (tree.Fits system place layout.json.render.toUTF8 ∧ Tellable system output layout) := by
  rcases converts_or_exit_ne_zero tree system hread with
    ⟨settings, layout, place, hload, hconverts⟩ |
    ⟨-, hsame | ⟨settings, layout, place, hload, hprepares, hfits, -⟩⟩
  · -- all has been written, so it is the telling that has failed
    rw [run_of_converts hread hload hconverts] at hexit
    rcases reply_ofConversion system output layout with ⟨-, hreply⟩ | ⟨huntold, -⟩
    · rw [hreply] at hexit
      exact absurd rfl hexit
    · exact Or.inr ⟨settings, layout, place, hload, hconverts.toPrepares, fun h => huntold h.2⟩
  · exact Or.inl hsame
  · exact Or.inr ⟨settings, layout, place, hload, hprepares, fun h => hfits h.1⟩

/-- What a conversion has done that ends well. -/
lemma converts_of_exit_eq_zero (hread : read words = .run config (.convert inputs output))
    (hexit : (run tree words system).1.exit = 0) :
    ∃ settings layout place path, loadSettings (system.read tree) config = .ok settings ∧
      Converts tree system settings.canvas inputs output layout place ∧
      (∀ other, other ≠ place → (run tree words system).2.find? other = tree.find? other) ∧
      (tree.find? place ≠ some .sink →
        (run tree words system).2.readBytes output = .ok layout.json.render.toUTF8) ∧
      output.text? = some path ∧
      Json.Spells (reportTree path layout layout.json.render.toUTF8)
        (run tree words system).1.output := by
  rcases converts_or_exit_ne_zero tree system hread with
    ⟨settings, layout, place, hload, hconverts⟩ | ⟨hbad, -⟩
  · rw [run_of_converts hread hload hconverts] at hexit ⊢
    rcases reply_ofConversion system output layout with ⟨htellable, hreply⟩ | ⟨-, hpanicked⟩
    · obtain ⟨path, hpath⟩ := Option.isSome_iff_exists.1 htellable.named
      refine ⟨settings, layout, place, path, hload, hconverts, fun other hother => ?_,
        fun hsink => ?_, hpath, ?_⟩
      · exact FileTree.find?_filled hconverts.opened _ hother
      · exact FileTree.readBytes_filled hconverts.opened hsink _
      · rw [hreply]
        exact spells_report hpath layout
    · exact absurd (hpanicked.symm.trans hexit) (Nat.succ_ne_zero 100)
  · exact absurd hexit hbad

/-- A conversion that can do all ends well. -/
lemma exit_eq_zero_of_converts (hread : read words = .run config (.convert inputs output))
    (hload : loadSettings (system.read tree) config = .ok settings)
    (hconverts : Converts tree system settings.canvas inputs output layout place)
    (htellable : Tellable system output layout) : (run tree words system).1.exit = 0 := by
  rw [run_of_converts hread hload hconverts]
  rcases reply_ofConversion system output layout with ⟨-, hreply⟩ | ⟨huntold, -⟩
  · rw [hreply]
  · exact absurd htellable huntold

/-- **A run does all or nothing.** If anything changes, it is the output of a conversion. If the run
ends badly, nothing has changed, unless a conversion has opened its output and there is no room for
all bytes, or no way to tell what has been done. If a conversion ends well, its inputs have a layout
under the loaded settings, the output holds the bytes of the layout's text, unless it is the null
device, nothing else has changed, and what is printed spells what is so of the layout and of these
bytes. It ends well if all of it can be done. -/
theorem run_all_or_nothing (tree : FileTree) (words : List OsText) (system : System) :
    (∀ place, (run tree words system).2.find? place ≠ tree.find? place →
      ∃ config inputs output, read words = .run config (.convert inputs output) ∧
        tree.openPlace system output = .ok place) ∧
    ((run tree words system).1.exit ≠ 0 → (run tree words system).2 = tree ∨
      ∃ config inputs output settings layout place,
        read words = .run config (.convert inputs output) ∧
        loadSettings (system.read tree) config = .ok settings ∧
        Prepares tree system settings.canvas inputs output layout place ∧
        ¬ (tree.Fits system place layout.json.render.toUTF8 ∧ Tellable system output layout)) ∧
    ∀ config inputs output, read words = .run config (.convert inputs output) →
      ((run tree words system).1.exit = 0 → ∃ settings layout place path,
        loadSettings (system.read tree) config = .ok settings ∧
        Converts tree system settings.canvas inputs output layout place ∧
        (∀ other, other ≠ place → (run tree words system).2.find? other = tree.find? other) ∧
        (tree.find? place ≠ some .sink →
          (run tree words system).2.readBytes output = .ok layout.json.render.toUTF8) ∧
        output.text? = some path ∧
        Json.Spells (reportTree path layout layout.json.render.toUTF8)
          (run tree words system).1.output) ∧
      ∀ settings layout place, loadSettings (system.read tree) config = .ok settings →
        Converts tree system settings.canvas inputs output layout place →
        Tellable system output layout → (run tree words system).1.exit = 0 := by
  by_cases hline : ∃ config inputs output, read words = .run config (.convert inputs output)
  · obtain ⟨config, inputs, output, hread⟩ := hline
    refine ⟨fun place hchanged => ?_, fun hexit => ?_, ?_⟩
    · exact ⟨config, inputs, output, hread, openPlace_of_changed hread hchanged⟩
    · refine (eq_or_prepares_of_exit_ne_zero hread hexit).imp id ?_
      rintro ⟨settings, layout, place, hload, hprepares, hnot⟩
      exact ⟨config, inputs, output, settings, layout, place, hread, hload, hprepares, hnot⟩
    · intro config inputs output hread
      exact ⟨converts_of_exit_eq_zero hread,
        fun settings layout place => exit_eq_zero_of_converts hread⟩
  · have hsame : (run tree words system).2 = tree :=
      run_of_not_convert fun config inputs output hread => hline ⟨config, inputs, output, hread⟩
    refine ⟨fun place hchanged => ?_, fun _ => Or.inl hsame, fun config inputs output hread => ?_⟩
    · exact absurd (congrArg (·.find? place) hsame) hchanged
    · exact absurd ⟨config, inputs, output, hread⟩ hline

/-- A conversion over one of its inputs changes that file alone, and one into a folder that is not
there changes none. -/
theorem run_over_input :
    (∃ settings layout place path,
      CommandLine.read ["convert", "-i", "b.svg", "-i", "a.svg", "-o", "./a.svg"] =
        .run none (.convert ["b.svg", "a.svg"] "./a.svg") ∧
      Converts twoPages {} settings ["b.svg", "a.svg"] "./a.svg" layout place ∧
      (run twoPages ["convert", "-i", "b.svg", "-i", "a.svg", "-o", "./a.svg"]).2.readBytes
        "./a.svg" = .ok layout.json.render.toUTF8 ∧
      Json.Spells (reportTree path layout layout.json.render.toUTF8)
        (run twoPages ["convert", "-i", "b.svg", "-i", "a.svg", "-o", "./a.svg"]).1.output) ∧
    (run twoPages ["convert", "-i", "a.svg", "-o", "new/a.svg"]).1.exit ≠ 0 ∧
      (run twoPages ["convert", "-i", "a.svg", "-o", "new/a.svg"]).2 = twoPages := by
  constructor
  · have hread : CommandLine.read ["convert", "-i", "b.svg", "-i", "a.svg", "-o", "./a.svg"] =
        .run none (.convert ["b.svg", "a.svg"] "./a.svg") := by decide +kernel
    have hsome : (twoPages.convertOn {} {}
        ["b.svg", "a.svg"] "./a.svg").1.toOption.isSome = true := by
      decide +kernel
    have hexit : (run twoPages
        ["convert", "-i", "b.svg", "-i", "a.svg", "-o", "./a.svg"]).1.exit = 0 := by
      rcases hresult : twoPages.convertOn {} {} ["b.svg", "a.svg"] "./a.svg" with
        ⟨failure | summary, after⟩
      · rw [hresult] at hsome
        cases hsome
      · obtain ⟨layout, place, hconverts, -, -⟩ := FileTree.convertOn_eq_ok_iff.1 hresult
        exact ((run_all_or_nothing twoPages _ {}).2.2 _ _ _ hread).2 {} layout place rfl hconverts
          ⟨by decide +kernel, rfl⟩
    have hopen : twoPages.openPlace {} "./a.svg" = .ok ["tmp", "work", "a.svg"] := by decide +kernel
    have hsink : twoPages.find? ["tmp", "work", "a.svg"] ≠ some .sink := by decide +kernel
    obtain ⟨settings, layout, place, path, -, hconverts, -, hbytes, -, hspells⟩ :=
      ((run_all_or_nothing twoPages _ {}).2.2 _ _ _ hread).1 hexit
    obtain rfl : _ = place := Except.ok.inj (hopen.symm.trans hconverts.opened)
    exact ⟨settings.canvas, layout, _, path, hread, hconverts, hbytes hsink, hspells⟩
  · have hread : CommandLine.read ["convert", "-i", "a.svg", "-o", "new/a.svg"] =
        .run none (.convert ["a.svg"] "new/a.svg") := by decide +kernel
    have hexit : (run twoPages ["convert", "-i", "a.svg", "-o", "new/a.svg"]).1.exit ≠ 0 := by
      decide +kernel
    have hopen : twoPages.openPlace {} "new/a.svg" = .error .missing := by decide +kernel
    refine ⟨hexit, ((run_all_or_nothing twoPages _ {}).2.1 hexit).resolve_right ?_⟩
    rintro ⟨config, inputs, output, settings, layout, place, hline, -, hprepares, -⟩
    rw [hread, Request.run.injEq, Command.convert.injEq] at hline
    obtain ⟨-, -, rfl⟩ := hline
    cases hopen.symm.trans hprepares.opened

/-- Nothing is kept of a layout that is written to the null device, and a request for help writes
nothing. A conversion that ends badly has written part of its output if there is no room for more,
and all of it if the path of the output is no text, or if no line can be printed. -/
theorem run_not_all_or_nothing :
    ((run twoPages ["convert", "-i", "a.svg", "-o", "/dev/null"]).1.exit = 0 ∧
      (run twoPages ["convert", "-i", "a.svg", "-o", "/dev/null"]).2.readBytes "/dev/null" =
        .ok .empty ∧
      ((loadDrawings twoPages.readText ["a.svg"]).bind (compile {})).toOption.map Layout.text =
        some "\x7b\"pages\":\x7b\"a\":\x7b\x7d\x7d\x7d") ∧
    ((run twoPages ["convert", "-i", "a.svg", "-o", "a.json", "--help"]).1.exit = 0 ∧
      (run twoPages ["convert", "-i", "a.svg", "-o", "a.json", "--help"]).2 = twoPages) ∧
    ((run twoPages ["convert", "-i", "a.svg", "-o", "a.json"]
        { room := some (1, .other "No space left on device (os error 28)") }).1.exit = 1 ∧
      (run twoPages ["convert", "-i", "a.svg", "-o", "a.json"]
        { room := some (1, .other "No space left on device (os error 28)") }).2.readBytes "a.json" =
        .ok "\x7b".toUTF8) ∧
    ((run twoPages ["convert", "-i", "a.svg", "-o", ⟨[0x61, 0xff]⟩]).1.exit = 101 ∧
      (run twoPages ["convert", "-i", "a.svg", "-o", ⟨[0x61, 0xff]⟩]).2.readBytes ⟨[0x61, 0xff]⟩ =
        .ok "\x7b\"pages\":\x7b\"a\":\x7b\x7d\x7d\x7d".toUTF8) ∧
    (run twoPages ["convert", "-i", "a.svg", "-o", "a.json"] { paper := some 0 }).1.exit = 101 ∧
      (run twoPages ["convert", "-i", "a.svg", "-o", "a.json"] { paper := some 0 }).2.readBytes
        "a.json" = .ok "\x7b\"pages\":\x7b\"a\":\x7b\x7d\x7d\x7d".toUTF8 := by
  refine ⟨⟨?_, ?_, ?_⟩, ⟨?_, ?_⟩, ⟨?_, ?_⟩, ⟨?_, ?_⟩, ?_, ?_⟩
  all_goals decide +kernel

end CommandLine

end RenderLayout
