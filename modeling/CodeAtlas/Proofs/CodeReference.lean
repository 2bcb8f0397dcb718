import CodeAtlas.CodeReference
import CodeAtlas.Proofs.Results

/-!
# Capturing and loading code

A file can be captured exactly when a regular file stands where its path leads, and its text can
be loaded exactly when the bytes of that file are a text.
-/

namespace CodeAtlas

namespace Disk

variable {disk : Disk} {path : String} {content : ByteArray}

theorem isFile_iff :
    disk.isFile path = true ↔ ∃ content modified, disk.entry path = .ok (.file content modified) := by
  unfold isFile
  cases disk.entry path with
  | error fault => simp
  | ok found => cases found <;> simp

theorem modified_eq_ok_iff {modified : Instant} :
    disk.modified path = .ok modified ↔
      ∃ content, disk.entry path = .ok (.file content modified) := by
  unfold Disk.modified
  cases disk.entry path with
  | error fault => simp [bind, Except.bind]
  | ok found => cases found <;> simp [bind, Except.bind]

theorem read_eq_ok_iff :
    disk.read path = .ok content ↔ ∃ modified, disk.entry path = .ok (.file content modified) := by
  unfold read
  cases disk.entry path with
  | error fault => simp [bind, Except.bind]
  | ok found => cases found <;> simp [bind, Except.bind]

theorem isFile_iff_read : disk.isFile path = true ↔ ∃ content, disk.read path = .ok content := by
  simp only [isFile_iff, read_eq_ok_iff]

theorem readText_eq_ok_iff {text : String} :
    disk.readText path = .ok text ↔
      ∃ content, disk.read path = .ok content ∧ String.fromUTF8? content = some text := by
  unfold readText
  cases disk.read path with
  | error fault => simp [bind, Except.bind]
  | ok content =>
      cases decoded : String.fromUTF8? content <;> simp [bind, Except.bind, decoded]

end Disk

theorem Digest.sha256_ne_empty (content : ByteArray) : Digest.sha256 content ≠ "" := by
  intro empty
  have characters := congrArg String.toList empty
  simp only [Digest.sha256, String.toList_ofList, List.flatMap_cons, Digest.hexWord] at characters
  have digits := (List.append_eq_nil_iff.mp (List.append_eq_nil_iff.mp characters).1)
  rw [digits.2] at digits
  exact absurd digits.1 (by decide)

namespace CodeReference

variable {disk : Disk} {root path : String}

theorem captureBetween_eq_ok_iff {earlier later : Disk} {lines : Option LineRange}
    {reference : CodeReference} :
    captureBetween earlier later root path lines = .ok reference ↔
      ∃ modified content, earlier.modified (Path.resolve root path) = .ok modified ∧
        later.read (Path.resolve root path) = .ok content ∧
        reference = ⟨path, Digest.sha256 content, modified, lines⟩ := by
  rw [captureBetween]
  simp only [bind_eq_ok_iff, mapError_eq_ok_iff]
  constructor
  · rintro ⟨modified, isModified, content, isContent, returned⟩
    cases returned
    exact ⟨modified, content, isModified, isContent, rfl⟩
  · rintro ⟨modified, content, isModified, isContent, rfl⟩
    exact ⟨modified, isModified, content, isContent, rfl⟩

theorem capture_eq_ok_iff {lines : Option LineRange} {reference : CodeReference} :
    capture disk root path lines = .ok reference ↔
      ∃ content modified, disk.entry (Path.resolve root path) = .ok (.file content modified) ∧
        reference = ⟨path, Digest.sha256 content, modified, lines⟩ := by
  simp only [capture, captureBetween_eq_ok_iff, Disk.modified_eq_ok_iff, Disk.read_eq_ok_iff]
  constructor
  · rintro ⟨modified, content, ⟨held, entry⟩, ⟨again, entryAgain⟩, rfl⟩
    rw [entry] at entryAgain
    cases entryAgain
    exact ⟨content, modified, entry, rfl⟩
  · rintro ⟨content, modified, entry, rfl⟩
    exact ⟨modified, content, ⟨content, entry⟩, ⟨modified, entry⟩, rfl⟩

theorem path_of_capture {lines : Option LineRange} {reference : CodeReference}
    (captured : capture disk root path lines = .ok reference) : reference.path = path := by
  obtain ⟨_, _, _, rfl⟩ := capture_eq_ok_iff.mp captured
  rfl

theorem lines_of_capture {lines : Option LineRange} {reference : CodeReference}
    (captured : capture disk root path lines = .ok reference) : reference.lines = lines := by
  obtain ⟨_, _, _, rfl⟩ := capture_eq_ok_iff.mp captured
  rfl

theorem capture_succeeds_iff {lines : Option LineRange} :
    (∃ reference, capture disk root path lines = .ok reference) ↔
      disk.isFile (Path.resolve root path) = true := by
  rw [Disk.isFile_iff]
  simp only [capture_eq_ok_iff]
  constructor
  · intro success
    obtain ⟨_, content, modified, entry, _⟩ := success
    exact ⟨content, modified, entry⟩
  · intro isFile
    obtain ⟨content, modified, entry⟩ := isFile
    exact ⟨_, content, modified, entry, rfl⟩

/-- A reference to a whole file loads the text of the file. -/
theorem load_eq_ok_iff {reference : CodeReference} (whole : reference.lines = none)
    {text : String} :
    reference.load disk root = .ok text ↔
      disk.readText (Path.resolve root reference.path) = .ok text := by
  rw [load, bind_eq_ok_iff, whole]
  simp only [mapError_eq_ok_iff]
  constructor
  · intro success
    obtain ⟨loaded, read, same⟩ := success
    cases same
    exact read
  · intro read
    exact ⟨text, read, rfl⟩

end CodeReference

end CodeAtlas
