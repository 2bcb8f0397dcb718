import CodeAtlas.Proofs.CodeReference
import CodeAtlas.Proofs.Disk.Directories
import Mathlib.Logic.Relation

/-!
# Checking files that are being edited

A reference is captured in two reads, of the time and then of the content, and checked in two more.
The file may be edited between any two of them.  As long as an edit never gives it a time that it
has had before, a check answers that the file is fresh exactly when it has not been edited since
its time was captured, and whenever it answers that the file is not stale, the content at some
moment of the check is the one whose digest was captured.
-/

namespace CodeAtlas

/-! ## Versions of a file -/

/-- What a file holds from one edit to the next. -/
structure Version where
  content : ByteArray
  modified : Instant

namespace Disk

variable {disk after : Disk} {path : String} {version : Version} {modified : Instant}
  {content : ByteArray}

/-- The version of a file that stands on a disk. -/
def version? (disk : Disk) (path : String) : Option Version :=
  match disk.entry path with
  | .ok (.file content modified) => some ⟨content, modified⟩
  | _ => none

theorem version?_eq_some_iff :
    disk.version? path = some version ↔
      disk.entry path = .ok (.file version.content version.modified) := by
  obtain ⟨content, modified⟩ := version
  unfold version?
  cases disk.entry path with
  | error fault => simp
  | ok found => cases found <;> simp

theorem modified_eq_ok_iff_version? :
    disk.modified path = .ok modified ↔
      ∃ version, disk.version? path = some version ∧ version.modified = modified := by
  rw [modified_eq_ok_iff]
  constructor
  · rintro ⟨content, entry⟩
    exact ⟨⟨content, modified⟩, version?_eq_some_iff.mpr entry, rfl⟩
  · rintro ⟨version, stands, rfl⟩
    exact ⟨version.content, version?_eq_some_iff.mp stands⟩

theorem read_eq_ok_iff_version? :
    disk.read path = .ok content ↔
      ∃ version, disk.version? path = some version ∧ version.content = content := by
  rw [read_eq_ok_iff]
  constructor
  · rintro ⟨modified, entry⟩
    exact ⟨⟨content, modified⟩, version?_eq_some_iff.mpr entry, rfl⟩
  · rintro ⟨version, stands, rfl⟩
    exact ⟨version.modified, version?_eq_some_iff.mp stands⟩

/-- What has been written is what stands there. -/
theorem version?_of_write (written : disk.write path content modified = .ok after) :
    after.version? path = some ⟨content, modified⟩ := by
  rw [write, bind_eq_ok_iff] at written
  obtain ⟨reached, located, written⟩ := written
  have notDirectory : disk.entryAt? reached ≠ some .directory := by
    intro isDirectory
    rw [isDirectory] at written
    cases written
  have notTop : reached ≠ [] := by
    rintro rfl
    exact notDirectory rfl
  split at written
  · cases written
  · cases written
    have kept : (disk.setEntry reached (.file content modified)).locate path = .ok reached :=
      (keepsDirectories_setEntry notDirectory).locate located
    rw [version?_eq_some_iff, entry, kept]
    simp only [bind, Except.bind, entryAt?_setEntry notTop]
  · cases written

end Disk

/-! ## Edits -/

/-- A disk, and the versions that a file has had on it, the last one first. -/
structure Versioned where
  disk : Disk
  versions : List Version

namespace Versioned

variable {target : String} {before after first second : Versioned} {version other : Version}

/-- A disk before the first edit. -/
def start (target : String) (disk : Disk) : Versioned := ⟨disk, (disk.version? target).toList⟩

/-- A change of the disk.  Either the file gets a version with a time that it has never had, or
it stays as it is or goes away, whatever else is changed. -/
inductive Edit (target : String) : Versioned → Versioned → Prop
  | write {before : Versioned} {disk : Disk} {version : Version} :
      disk.version? target = some version →
      (∀ past ∈ before.versions, past.modified ≠ version.modified) →
      Edit target before ⟨disk, version :: before.versions⟩
  | leave {before : Versioned} {disk : Disk} :
      (∀ version, disk.version? target = some version →
        before.disk.version? target = some version) →
      Edit target before ⟨disk, before.versions⟩

/-- Any number of edits. -/
abbrev Edits (target : String) : Versioned → Versioned → Prop :=
  Relation.ReflTransGen (Edit target)

/-- Writing the file at a time that it has never had is an edit. -/
theorem Edit.of_write {disk : Disk}
    (written : before.disk.write target version.content version.modified = .ok disk)
    (new : ∀ past ∈ before.versions, past.modified ≠ version.modified) :
    Edit target before ⟨disk, version :: before.versions⟩ :=
  .write (Disk.version?_of_write written) new

/-- The versions that a file has had: what stands on the disk is the last one, and no two have
one time. -/
structure IsSound (target : String) (state : Versioned) : Prop where
  last : ∀ version, state.disk.version? target = some version →
    state.versions.head? = some version
  distinct : state.versions.Pairwise fun later earlier => earlier.modified ≠ later.modified

theorem isSound_start (disk : Disk) : (start target disk).IsSound target where
  last version stands := by
    rw [start] at stands ⊢
    rw [stands]
    rfl
  distinct := by
    rw [start]
    cases disk.version? target with
    | none => exact .nil
    | some version => exact List.pairwise_singleton _ _

theorem IsSound.edit (sound : before.IsSound target) (edit : Edit target before after) :
    after.IsSound target := by
  cases edit with
  | write stands new =>
      refine ⟨fun version again => ?_, List.pairwise_cons.mpr ⟨new, sound.distinct⟩⟩
      rw [← again, stands]
      rfl
  | leave stayed => exact ⟨fun version stands => sound.last version (stayed version stands),
      sound.distinct⟩

theorem IsSound.edits (sound : before.IsSound target) (edits : Edits target before after) :
    after.IsSound target := by
  induction edits with
  | refl => exact sound
  | tail _ edit induction => exact induction.edit edit

theorem isSound_of_edits {disk : Disk} (edits : Edits target (start target disk) after) :
    after.IsSound target :=
  (isSound_start disk).edits edits

/-- Versions are only added. -/
theorem isSuffix_of_edits (edits : Edits target before after) :
    before.versions <:+ after.versions := by
  induction edits with
  | refl => exact List.suffix_rfl
  | tail _ edit induction =>
      cases edit with
      | write => exact induction.trans (List.suffix_cons _ _)
      | leave => exact induction

/-- A file that has the same time at two moments has not been edited between them. -/
theorem versions_eq_of_modified_eq (sound : second.IsSound target)
    (edits : first.versions <:+ second.versions)
    (before : first.versions.head? = some version)
    (after : second.disk.version? target = some other)
    (same : version.modified = other.modified) : first.versions = second.versions := by
  obtain ⟨new, whole⟩ := edits
  cases new with
  | nil => exact whole
  | cons latest new =>
      -- Otherwise the earlier version is a past one of the later one, with the same time.
      have distinct := sound.distinct
      have latestIs : latest = other := by
        have head := sound.last other after
        rw [← whole] at head
        exact Option.some.inj head
      rw [← whole, List.cons_append, List.pairwise_cons] at distinct
      have past : version ∈ new ++ first.versions :=
        List.mem_append_right _ (List.mem_of_head? before)
      exact absurd (same.trans (congrArg Version.modified latestIs.symm)) (distinct.1 version past)

/-- Without an edit the same version stands at two moments. -/
theorem eq_of_versions_eq (firstSound : first.IsSound target) (secondSound : second.IsSound target)
    (same : first.versions = second.versions) (before : first.disk.version? target = some version)
    (after : second.disk.version? target = some other) : version = other := by
  have heads := (firstSound.last version before).symm.trans
    (same ▸ secondSound.last other after)
  exact Option.some.inj heads

end Versioned

/-! ## Captures and checks -/

namespace CodeReference

open Versioned

variable {earlier later : Disk} {root path : String} {lines : Option LineRange}
  {reference : CodeReference}

theorem captureBetween_eq_ok_iff_version? :
    captureBetween earlier later root path lines = .ok reference ↔
      ∃ timed hashed, earlier.version? (Path.resolve root path) = some timed ∧
        later.version? (Path.resolve root path) = some hashed ∧
        reference = ⟨path, Digest.sha256 hashed.content, timed.modified, lines⟩ := by
  simp only [captureBetween_eq_ok_iff, Disk.modified_eq_ok_iff_version?,
    Disk.read_eq_ok_iff_version?]
  constructor
  · rintro ⟨_, _, ⟨timed, first, rfl⟩, ⟨hashed, second, rfl⟩, rfl⟩
    exact ⟨timed, hashed, first, second, rfl⟩
  · rintro ⟨timed, hashed, first, second, rfl⟩
    exact ⟨_, _, ⟨timed, first, rfl⟩, ⟨hashed, second, rfl⟩, rfl⟩

theorem checkBetween_eq_fresh_iff :
    reference.checkBetween earlier later root = .fresh ↔
      ∃ version, earlier.version? (Path.resolve root reference.path) = some version ∧
        version.modified = reference.modified := by
  rw [← Disk.modified_eq_ok_iff_version?, checkBetween]
  cases timed : earlier.modified (Path.resolve root reference.path) with
  | error fault => simp
  | ok modified =>
      by_cases same : modified = reference.modified
      · simp [same]
      · cases later.read (Path.resolve root reference.path) with
        | error fault => simp [same]
        | ok content =>
            by_cases hashed : Digest.sha256 content = reference.hash <;> simp [same, hashed]

theorem checkBetween_eq_touched_iff :
    reference.checkBetween earlier later root = .touched ↔
      (∃ version, earlier.version? (Path.resolve root reference.path) = some version ∧
        version.modified ≠ reference.modified) ∧
      ∃ version, later.version? (Path.resolve root reference.path) = some version ∧
        Digest.sha256 version.content = reference.hash := by
  have timed : (∃ version, earlier.version? (Path.resolve root reference.path) = some version ∧
      version.modified ≠ reference.modified) ↔
      ∃ modified, earlier.modified (Path.resolve root reference.path) = .ok modified ∧
        modified ≠ reference.modified := by
    simp only [Disk.modified_eq_ok_iff_version?]
    constructor
    · rintro ⟨version, stands, different⟩
      exact ⟨_, ⟨version, stands, rfl⟩, different⟩
    · rintro ⟨_, ⟨version, stands, rfl⟩, different⟩
      exact ⟨version, stands, different⟩
  have hashed : (∃ version, later.version? (Path.resolve root reference.path) = some version ∧
      Digest.sha256 version.content = reference.hash) ↔
      ∃ content, later.read (Path.resolve root reference.path) = .ok content ∧
        Digest.sha256 content = reference.hash := by
    simp only [Disk.read_eq_ok_iff_version?]
    constructor
    · rintro ⟨version, stands, isHash⟩
      exact ⟨_, ⟨version, stands, rfl⟩, isHash⟩
    · rintro ⟨_, ⟨version, stands, rfl⟩, isHash⟩
      exact ⟨version, stands, isHash⟩
  rw [timed, hashed, checkBetween]
  cases earlier.modified (Path.resolve root reference.path) with
  | error fault => simp
  | ok modified =>
      by_cases same : modified = reference.modified
      · simp [same]
      · cases later.read (Path.resolve root reference.path) with
        | error fault => simp [same]
        | ok content =>
            by_cases isHash : Digest.sha256 content = reference.hash <;> simp [same, isHash]

/-- While a file is captured and checked, it is edited any number of times before, between and
after the four reads.  The check answers that it is fresh exactly if it stands there and has not
been edited since its time was captured.  So a reference captured across an edit is never fresh,
and what is fresh or touched held, at a moment of the check, the content that was hashed. -/
theorem checkBetween_while_edited {disk : Disk} {first second third fourth : Versioned}
    (before : Edits (Path.resolve root path) (start (Path.resolve root path) disk) first)
    (within : Edits (Path.resolve root path) first second)
    (since : Edits (Path.resolve root path) second third)
    (during : Edits (Path.resolve root path) third fourth)
    (captured : captureBetween first.disk second.disk root path lines = .ok reference) :
    (reference.checkBetween third.disk fourth.disk root = .fresh ↔
        third.disk.isFile (Path.resolve root path) = true ∧ third.versions = first.versions) ∧
      (second.versions ≠ first.versions →
        reference.checkBetween third.disk fourth.disk root ≠ .fresh) ∧
      (reference.checkBetween third.disk fourth.disk root = .fresh ∨
          reference.checkBetween third.disk fourth.disk root = .touched →
        ∃ moment content, Edits (Path.resolve root path) third moment ∧
          Edits (Path.resolve root path) moment fourth ∧
          moment.disk.read (Path.resolve root path) = .ok content ∧
          Digest.sha256 content = reference.hash) := by
  obtain ⟨timed, hashed, timedStands, hashedStands, isReference⟩ :=
    captureBetween_eq_ok_iff_version?.mp captured
  obtain rfl : reference.path = path := congrArg CodeReference.path isReference
  have isTime : reference.modified = timed.modified := congrArg CodeReference.modified isReference
  have isHash : reference.hash = Digest.sha256 hashed.content := congrArg hash isReference
  have firstSound := isSound_of_edits before
  have secondSound := firstSound.edits within
  have thirdSound := secondSound.edits since
  have grown := isSuffix_of_edits (within.trans since)
  -- The versions at the second read lie between those at the first and at the third.
  have still (same : third.versions = first.versions) : second.versions = first.versions :=
    (List.IsSuffix.eq_of_length (isSuffix_of_edits within)
      (Nat.le_antisymm (isSuffix_of_edits within).length_le
        (same ▸ (isSuffix_of_edits since).length_le))).symm
  have fresh : reference.checkBetween third.disk fourth.disk root = .fresh ↔
      third.disk.isFile (Path.resolve root reference.path) = true ∧
        third.versions = first.versions := by
    rw [checkBetween_eq_fresh_iff, Disk.isFile_iff_read, isTime]
    constructor
    · rintro ⟨version, stands, same⟩
      exact ⟨⟨version.content, Disk.read_eq_ok_iff_version?.mpr ⟨version, stands, rfl⟩⟩,
        (versions_eq_of_modified_eq thirdSound grown (firstSound.last timed timedStands) stands
          same.symm).symm⟩
    · rintro ⟨⟨content, read⟩, same⟩
      obtain ⟨version, stands, -⟩ := Disk.read_eq_ok_iff_version?.mp read
      exact ⟨version, stands, congrArg Version.modified
        (eq_of_versions_eq thirdSound firstSound same stands timedStands)⟩
  refine ⟨fresh, fun edited isFresh => edited (still (fresh.mp isFresh).2), ?_⟩
  rintro (isFresh | isTouched)
  · obtain ⟨isFile, same⟩ := fresh.mp isFresh
    obtain ⟨content, read⟩ := Disk.isFile_iff_read.mp isFile
    obtain ⟨version, stands, rfl⟩ := Disk.read_eq_ok_iff_version?.mp read
    have unchanged : version = hashed := eq_of_versions_eq thirdSound secondSound
      (same.trans (still same).symm) stands hashedStands
    exact ⟨third, version.content, .refl, during, read, by rw [isHash, unchanged]⟩
  · obtain ⟨-, version, stands, sameHash⟩ := checkBetween_eq_touched_iff.mp isTouched
    exact ⟨fourth, version.content, during, .refl,
      Disk.read_eq_ok_iff_version?.mpr ⟨version, stands, rfl⟩, sameHash⟩

def draft : Version := ⟨"x = 1\n".toUTF8, ⟨1, 0⟩⟩

def redraft : Version := ⟨"x = 2\n".toUTF8, ⟨2, 0⟩⟩

/-- A disk with one file. -/
def draftDisk : Disk := ⟨.ofList [("a.py", .file draft.content draft.modified)], []⟩

theorem check_draft_captured_across_edit :
    ∃ edited reference,
      draftDisk.write (Path.resolve "/" "a.py") redraft.content redraft.modified = .ok edited ∧
        captureBetween draftDisk edited "/" "a.py" none = .ok reference ∧
        reference.checkBetween edited edited "/" ≠ .fresh ∧
        reference.checkBetween edited edited "/" = .touched ∧
        ∃ moment content, Edits (Path.resolve "/" "a.py") ⟨edited, [redraft, draft]⟩ moment ∧
          moment.disk.read (Path.resolve "/" "a.py") = .ok content ∧
          Digest.sha256 content = reference.hash := by
  have located : draftDisk.locate (Path.resolve "/" "a.py") = .ok ["a.py"] := by decide +kernel
  have before : draftDisk.version? (Path.resolve "/" "a.py") = some draft := by
    rw [Disk.version?_eq_some_iff, Disk.entry, located]
    rfl
  obtain ⟨edited, isEdited⟩ : ∃ edited, (draftDisk.write (Path.resolve "/" "a.py")
      redraft.content redraft.modified).toOption = some edited :=
    Option.isSome_iff_exists.mp (by decide +kernel)
  have written := toOption_eq_some_iff.mp isEdited
  have after := Disk.version?_of_write written
  obtain ⟨reference, isReference⟩ : ∃ reference : CodeReference, reference =
      ⟨"a.py", Digest.sha256 redraft.content, draft.modified, none⟩ := ⟨_, rfl⟩
  have captured : captureBetween draftDisk edited "/" "a.py" none = .ok reference :=
    captureBetween_eq_ok_iff_version?.mpr ⟨_, _, before, after, isReference⟩
  have begun : (start (Path.resolve "/" "a.py") draftDisk).versions = [draft] := by
    rw [start, before]
    rfl
  have edit : Edits (Path.resolve "/" "a.py") (start (Path.resolve "/" "a.py") draftDisk)
      ⟨edited, [redraft, draft]⟩ := by
    rw [← begun]
    refine .single (.of_write written fun past member => ?_)
    rw [begun, List.mem_singleton] at member
    rw [member]
    decide
  have touched : reference.checkBetween edited edited "/" = .touched := by
    rw [checkBetween_eq_touched_iff, isReference]
    exact ⟨⟨_, after, by decide⟩, _, after, rfl⟩
  obtain ⟨-, across, held⟩ := checkBetween_while_edited .refl edit .refl .refl captured
  obtain ⟨moment, content, later, -, read, isHash⟩ := held (.inr touched)
  exact ⟨edited, reference, written, captured, across (by rw [begun]; simp), touched, moment,
    content, later, read, isHash⟩

end CodeReference

end CodeAtlas
