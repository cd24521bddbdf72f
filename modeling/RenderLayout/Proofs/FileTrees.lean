import Mathlib.Data.List.DropRight
import RenderLayout.Files.Tree
import RenderLayout.Proofs.Outcome

/-!
Files that are written and read.

A file is written where a path leads to a name in a folder. It can be opened there, and the bytes
fit, or only so many of them do, or none are kept since it is the null device. What is written is
read under the same path, and no other place changes.
-/

namespace RenderLayout.FileTree

variable {tree after : FileTree} {system : System} {path : OsText} {place next last : Place}
variable {content : ByteArray} {fault : FileFault}

/-! ### Places of files -/

lemma enter_eq_ok_iff : tree.enter place = .ok () ↔ tree.find? place = some .folder := by
  unfold enter
  cases tree.find? place with
  | none => simp
  | some entry => cases entry <;> simp

lemma walk_cons_eq_ok_iff {part : OsText} {rest : List OsText} :
    tree.walk place (part :: rest) = .ok last ↔
      tree.find? place = some .folder ∧ tree.walk (step place part) rest = .ok last := by
  rw [walk, bind_eq_ok_iff, ← enter_eq_ok_iff]
  exact ⟨fun ⟨_, hfolder, h⟩ => ⟨hfolder, h⟩, fun ⟨hfolder, h⟩ => ⟨(), hfolder, h⟩⟩

lemma walk_append {parts rest : List OsText} :
    tree.walk place (parts ++ rest) = .ok last ↔
      ∃ middle, tree.walk place parts = .ok middle ∧ tree.walk middle rest = .ok last := by
  induction parts generalizing place with
  | nil => simp [walk]
  | cons part parts ih =>
    rw [List.cons_append, walk_cons_eq_ok_iff, ih]
    simp only [walk_cons_eq_ok_iff, and_assoc, exists_and_left]

/-- A path without a slash at its end has no empty part there. -/
lemma dropSlashes_of_not {parts : List OsText} (h : (dropSlashes parts).2 = false) :
    (dropSlashes parts).1 = parts := by
  have hprefix : (dropSlashes parts).1 <+: parts := List.rdropWhile_prefix OsText.isEmpty parts
  refine hprefix.eq_of_length (Nat.le_antisymm hprefix.length_le ?_)
  simpa [dropSlashes] using h

/-- A file can be written where a path leads to a name in a folder, and no folder is there yet. -/
lemma target_eq_ok (h : tree.target path = .ok place) :
    ∃ outer name folder, path.isEmpty = false ∧ parts path = outer ++ [name] ∧
      tree.walk (tree.start path) outer = .ok folder ∧ tree.find? folder = some .folder ∧
      place = step folder name ∧ tree.find? place ≠ some .folder := by
  unfold target at h
  cases hempty : path.isEmpty with
  | true =>
    rw [hempty] at h
    cases h
  | false =>
    rw [hempty, if_neg Bool.false_ne_true] at h
    dsimp only at h
    obtain ⟨folder, hwalk, h⟩ := bind_eq_ok_iff.1 h
    obtain ⟨⟨⟩, henter, h⟩ := bind_eq_ok_iff.1 h
    split at h
    case h_1 => cases h
    case h_2 name hlast =>
      split at h
      case isTrue => cases h
      case isFalse hslash =>
        simp only [Bool.or_eq_true, not_or, Bool.not_eq_true] at hslash
        rw [dropSlashes_of_not hslash.1.1] at hlast hwalk
        split at h
        case isTrue => cases h
        case isFalse hfile =>
          obtain rfl := Except.ok.inj h
          exact ⟨_, name, folder, rfl, (List.dropLast_append_getLast? name hlast).symm, hwalk,
            enter_eq_ok_iff.1 henter, rfl, hfile⟩

lemma openPlace_eq_ok_iff :
    tree.openPlace system path = .ok place ↔
      system.refuses .writing path = none ∧ tree.target path = .ok place := by
  unfold openPlace
  cases system.refuses .writing path <;> simp

/-! ### What is put at a place -/

lemma ne_nil_of_not_folder (h : tree.find? place ≠ some .folder) : place ≠ [] := by
  rintro rfl
  exact h rfl

/-- Folders are left as they are by a file that is put where there is none. -/
lemma find?_put_folder {other : Place} (hfile : tree.find? place ≠ some .folder) (entry : FileEntry)
    (h : tree.find? other = some .folder) : (tree.put place entry).find? other = some .folder := by
  rw [find?_put tree (ne_nil_of_not_folder hfile), if_neg]
  · exact h
  · rintro rfl
    exact hfile h

lemma walk_put {start : Place} {parts : List OsText} (hfile : tree.find? place ≠ some .folder)
    (entry : FileEntry) (h : tree.walk start parts = .ok last) :
    (tree.put place entry).walk start parts = .ok last := by
  induction parts generalizing start with
  | nil => exact h
  | cons part rest ih =>
    obtain ⟨hfolder, hwalk⟩ := walk_cons_eq_ok_iff.1 h
    exact walk_cons_eq_ok_iff.2 ⟨find?_put_folder hfile entry hfolder, ih hwalk⟩

/-- What is put where a path leads is read there. -/
lemma readBytes_put (h : tree.target path = .ok place) (content : ByteArray) :
    (tree.put place (.file content)).readBytes path = .ok content := by
  obtain ⟨outer, name, folder, hempty, hparts, hwalk, hfolder, hplace, hfile⟩ := target_eq_ok h
  have hlocate : (tree.put place (.file content)).locate path = .ok place := by
    rw [locate, hempty, if_neg Bool.false_ne_true, hparts]
    refine walk_append.2 ⟨folder, walk_put hfile _ hwalk, walk_cons_eq_ok_iff.2 ?_⟩
    exact ⟨find?_put_folder hfile _ hfolder, by rw [hplace]; rfl⟩
  unfold readBytes
  rw [hlocate, ok_bind, find?_put tree (ne_nil_of_not_folder hfile), if_pos rfl]
  rfl

/-! ### Writing -/

/-- There is room for the bytes at a place. -/
def Fits (tree : FileTree) (system : System) (place : Place) (content : ByteArray) : Prop :=
  tree.find? place = some .sink ∨ ∀ bound ∈ system.room, content.size ≤ bound.1

/-- The tree with the bytes at a place, unless that is the null device. -/
def filled (tree : FileTree) (place : Place) (content : ByteArray) : FileTree :=
  if tree.find? place = some .sink then tree else tree.put place (.file content)

/-- All bytes are written, or those for which there is room. -/
lemma fill_eq (tree : FileTree) (system : System) (place : Place) (content : ByteArray) :
    tree.Fits system place content ∧
        tree.fill system.room place content = (.ok (), tree.filled place content) ∨
      ¬ tree.Fits system place content ∧ ∃ fault size,
        tree.fill system.room place content =
          (.error fault, tree.filled place (content.extract 0 size)) := by
  unfold fill filled Fits
  by_cases hsink : tree.find? place = some .sink
  · exact Or.inl ⟨Or.inl hsink, by simp only [if_pos hsink]⟩
  · simp only [if_neg hsink]
    cases hroom : system.room with
    | none => exact Or.inl ⟨Or.inr nofun, rfl⟩
    | some bound =>
      obtain ⟨size, fault⟩ := bound
      dsimp only
      by_cases hsize : content.size ≤ size
      · exact Or.inl ⟨Or.inr (by simpa using hsize), if_pos hsize⟩
      · exact Or.inr ⟨by simpa [hsink] using hsize, fault, size, if_neg hsize⟩

/-- **Writing whole**: the file can be opened, and there is room for all bytes. -/
lemma write_eq_ok_iff :
    tree.write system path content = (.ok (), after) ↔
      ∃ place, tree.openPlace system path = .ok place ∧ tree.Fits system place content ∧
        after = tree.filled place content := by
  unfold write
  cases tree.openPlace system path with
  | error fault => simp
  | ok place =>
    simp only [Except.ok.injEq, exists_eq_left']
    rcases tree.fill_eq system place content with ⟨hfits, hfill⟩ | ⟨hfits, fault, size, hfill⟩
    · simp [hfill, hfits, eq_comm]
    · simp [hfill, hfits]

/-- **Writing in part**: if a write fails, the file cannot be opened, and nothing changes; or there
is no room for all bytes, and the file has the first ones of them. -/
lemma write_eq_error (h : tree.write system path content = (.error fault, after)) :
    after = tree ∨ ∃ place, tree.openPlace system path = .ok place ∧
      ¬ tree.Fits system place content ∧
      ∃ size, after = tree.filled place (content.extract 0 size) := by
  unfold write at h
  cases hopen : tree.openPlace system path with
  | error fault =>
    rw [hopen] at h
    exact Or.inl (congrArg Prod.snd h).symm
  | ok place =>
    rw [hopen] at h
    rcases tree.fill_eq system place content with ⟨-, hfill⟩ | ⟨hfits, fault', size, hfill⟩
    · cases hfill.symm.trans h
    · exact Or.inr ⟨place, rfl, hfits, size, (congrArg Prod.snd (hfill.symm.trans h)).symm⟩

variable (hopen : tree.openPlace system path = .ok place)
include hopen

lemma readBytes_filled (hsink : tree.find? place ≠ some .sink) (content : ByteArray) :
    (tree.filled place content).readBytes path = .ok content := by
  rw [filled, if_neg hsink]
  exact readBytes_put (openPlace_eq_ok_iff.1 hopen).2 content

lemma find?_filled (content : ByteArray) {other : Place} (hother : other ≠ place) :
    (tree.filled place content).find? other = tree.find? other := by
  unfold filled
  split
  · rfl
  · obtain ⟨-, -, -, -, -, -, -, -, hfile⟩ := target_eq_ok (openPlace_eq_ok_iff.1 hopen).2
    rw [find?_put tree (ne_nil_of_not_folder hfile), if_neg hother]

end RenderLayout.FileTree
