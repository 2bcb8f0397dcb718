import CodeAtlas.Proofs.Keyed
import CodeAtlas.Proofs.Walk
import Mathlib.Data.List.Induction

/-!
# Disks that are trees

On a disk where every entry has a name and stands in a directory, what a relative path leads to
from a directory is the entry at the location that the path spells out.
-/

namespace CodeAtlas

/-- The name of an entry of a directory: neither the directory itself nor the one around it. -/
def Path.IsEntryName (name : String) : Prop := IsName name ∧ name ≠ "." ∧ name ≠ ".."

instance (name : String) : Decidable (Path.IsEntryName name) :=
  inferInstanceAs (Decidable (Path.IsName name ∧ name ≠ "." ∧ name ≠ ".."))

namespace Disk

instance (found : Option DiskEntry) : Decidable (found = some .directory) :=
  match found with
  | some .directory => isTrue rfl
  | some (.file _ _) => isFalse (by simp)
  | none => isFalse (by simp)

/-- A disk whose entries have names, each in a directory. -/
structure IsTree (disk : Disk) : Prop where
  working : ∀ name ∈ disk.working, Path.IsName name
  named : ∀ place ∈ disk.entries.keys, ∀ name ∈ Path.segments place, Path.IsEntryName name
  inDirectory : ∀ place ∈ disk.entries.keys,
    disk.entryAt? ((Path.segments place).reverse.drop 1) = some .directory

theorem isTree_iff {disk : Disk} :
    ((∀ name ∈ disk.working, Path.IsName name) ∧
      (∀ place ∈ disk.entries.keys, ∀ name ∈ Path.segments place, Path.IsEntryName name) ∧
      ∀ place ∈ disk.entries.keys,
        disk.entryAt? ((Path.segments place).reverse.drop 1) = some .directory) ↔ disk.IsTree :=
  ⟨fun parts => ⟨parts.1, parts.2.1, parts.2.2⟩,
    fun tree => ⟨tree.working, tree.named, tree.inDirectory⟩⟩

instance (disk : Disk) : Decidable disk.IsTree := decidable_of_iff _ isTree_iff

variable {disk : Disk} {reached names : List String}

theorem entryAt?_cons (name : String) (reached : List String) :
    disk.entryAt? (name :: reached) = disk.entries.get? (location (name :: reached)) :=
  rfl

/-- What holds an entry is a directory. -/
theorem IsTree.directory_above (tree : disk.IsTree) {name : String} {entry : DiskEntry}
    (namedAll : ∀ other ∈ name :: reached, Path.IsName other)
    (found : disk.entryAt? (name :: reached) = some entry) :
    disk.entryAt? reached = some .directory := by
  rw [entryAt?_cons] at found
  have above := tree.inDirectory _ (Keyed.mem_keys_iff.mpr ⟨entry, found⟩)
  rwa [segments_location (List.cons_ne_nil _ _) namedAll, List.reverse_reverse,
    List.drop_one, List.tail_cons] at above

theorem follow_entryName {name : String} (proper : Path.IsEntryName name) {next : List String} :
    disk.follow reached name = .ok next ↔
      disk.entryAt? reached = some .directory ∧ next = name :: reached := by
  obtain ⟨⟨notEmpty, _⟩, notPoint, notPoints⟩ := proper
  rw [follow.eq_def]
  cases entry : disk.entryAt? reached with
  | none => simp
  | some found =>
      cases found with
      | file content modified => simp
      | directory => simp [notEmpty, notPoint, notPoints, eq_comm]

theorem foldlM_follow_entryNames (proper : ∀ name ∈ names, Path.IsEntryName name)
    {next : List String} (success : names.foldlM disk.follow reached = .ok next) :
    next = names.reverse ++ reached := by
  induction names generalizing reached with
  | nil =>
      cases success
      rfl
  | cons name rest induction =>
      obtain ⟨properFirst, properRest⟩ := List.forall_mem_cons.mp proper
      rw [List.foldlM_cons] at success
      obtain ⟨middle, first, later⟩ := bind_eq_ok_iff.mp success
      obtain ⟨_, rfl⟩ := (follow_entryName properFirst).mp first
      rw [induction properRest later, List.reverse_cons, List.append_assoc, List.singleton_append]

/-- In a tree an entry is reached by following its names. -/
theorem IsTree.foldlM_follow (tree : disk.IsTree)
    (proper : ∀ name ∈ names, Path.IsEntryName name)
    (named : ∀ name ∈ reached, Path.IsName name) {entry : DiskEntry}
    (found : disk.entryAt? (names.reverse ++ reached) = some entry) :
    names.foldlM disk.follow reached = .ok (names.reverse ++ reached) := by
  -- The induction is from the last name on, as each entry tells of the directory above it.
  induction names using List.reverseRecOn generalizing entry with
  | nil => rfl
  | append_singleton front last induction =>
      have properFront : ∀ name ∈ front, Path.IsEntryName name := fun name member =>
        proper name (List.mem_append_left _ member)
      have properLast := proper last (List.mem_append_right _ List.mem_cons_self)
      rw [List.reverse_append, List.reverse_singleton, List.singleton_append,
        List.cons_append] at found ⊢
      have above : disk.entryAt? (front.reverse ++ reached) = some .directory := by
        refine tree.directory_above ?_ found
        intro other member
        rcases List.mem_cons.mp member with rfl | member
        · exact properLast.1
        · rcases List.mem_append.mp member with inFront | inReached
          · exact (properFront other (List.mem_reverse.mp inFront)).1
          · exact named other inReached
      rw [List.foldlM_append, bind_eq_ok_iff]
      refine ⟨_, induction properFront above, ?_⟩
      rw [List.foldlM_cons, bind_eq_ok_iff]
      exact ⟨_, (follow_entryName properLast).mpr ⟨above, rfl⟩, rfl⟩

end Disk

namespace Path

variable {root path : String}

theorem segments_empty : segments "" = [""] := rfl

theorem endsWith_slash_iff : root.endsWith "/" = true ↔ ∃ front, root = front ++ "/" := by
  rw [String.endsWith_eq_endsWith_toSlice, String.Slice.endsWith_string_iff, String.copy_toSlice]
  constructor
  · intro suffix
    obtain ⟨front, split⟩ := suffix
    exact ⟨String.ofList front, String.toList_injective (by simp [← split])⟩
  · intro split
    obtain ⟨front, rfl⟩ := split
    exact ⟨front.toList, by simp⟩

/-- A relative path below a directory begins with a slash exactly when that directory does. -/
theorem startsWith_resolve (some : root ≠ "") (relative : path.startsWith "/" = false) :
    (resolve root path).startsWith "/" = root.startsWith "/" := by
  have begins (rest : String) : (root ++ rest).startsWith "/" = root.startsWith "/" := by
    rw [Bool.eq_iff_iff, String.startsWith_string_iff, String.startsWith_string_iff,
      String.toList_append]
    cases characters : root.toList with
    | nil => exact absurd (String.toList_injective characters) some
    | cons c others => simp
  rw [resolve, if_neg (by simp [relative]), if_neg some]
  split
  · exact begins path
  · rw [String.append_assoc]
    exact begins ("/" ++ path)

theorem startsWith_slash_eq_false {names : List String}
    (named : ∀ name ∈ names, IsName name) : (ofSegments names).startsWith "/" = false := by
  rw [← Bool.not_eq_true, String.startsWith_string_iff]
  cases names with
  | nil => simp [ofSegments]
  | cons name rest =>
      obtain ⟨notEmpty, plain⟩ := named name List.mem_cons_self
      intro begins
      have first : '/' ∈ name.toList := by
        cases characters : name.toList with
        | nil => exact absurd (String.toList_injective characters) notEmpty
        | cons c others =>
            have same : c = '/' := by
              cases rest with
              | nil =>
                  simpa [ofSegments, String.toList_intercalate, characters, eq_comm] using begins
              | cons other more =>
                  simpa [ofSegments, String.toList_intercalate, characters, eq_comm,
                    List.intercalate] using begins
            exact same ▸ List.mem_cons_self
      exact plain first

end Path

namespace Disk

variable {disk : Disk} {root : String} {reached names : List String}

theorem isDirectory_iff :
    disk.isDirectory root = true ↔
      ∃ reached, disk.locate root = .ok reached ∧ disk.entryAt? reached = some .directory := by
  rw [isDirectory, entry]
  cases located : disk.locate root with
  | error fault => simp [bind, Except.bind]
  | ok reached =>
      cases found : disk.entryAt? reached with
      | none => simp [bind, Except.bind, found]
      | some entry => cases entry <;> simp [bind, Except.bind, found]

/-- A relative path below a place begins with segments that lead to that place. -/
theorem exists_segments_resolve (located : disk.locate root = .ok reached) {path : String}
    (relative : path.startsWith "/" = false) :
    ∃ front, front.foldlM disk.follow (disk.startOf (Path.resolve root path)) = .ok reached ∧
      Path.segments (Path.resolve root path) = front ++ Path.segments path ∧
      Path.resolve root path ≠ "" := by
  have rootSome : root ≠ "" := by
    intro empty
    rw [locate, if_pos empty] at located
    cases located
  rw [locate, if_neg rootSome] at located
  have start : disk.startOf (Path.resolve root path) = disk.startOf root := by
    rw [startOf, startOf, Path.startsWith_resolve rootSome relative]
  have nonempty : Path.resolve root path ≠ "" := by
    rw [Path.resolve, if_neg (by simp [relative]), if_neg rootSome]
    split <;> simp [rootSome]
  rw [start]
  rw [Path.resolve, if_neg (by simp [relative]), if_neg rootSome] at nonempty ⊢
  split
  next ends =>
    -- The empty segment at the end of the root stays where it is.
    obtain ⟨front, rfl⟩ := Path.endsWith_slash_iff.mp ends
    rw [← String.append_empty (s := front ++ "/"), Path.segments_append, Path.segments_empty,
      List.foldlM_append, bind_eq_ok_iff] at located
    obtain ⟨before, frontReached, stays⟩ := located
    rw [List.foldlM_cons, bind_eq_ok_iff] at stays
    obtain ⟨after, step, same⟩ := stays
    cases same
    have unmoved : before = reached := by
      rw [follow.eq_def] at step
      cases entry : disk.entryAt? before with
      | none => simp [entry] at step
      | some found => cases found <;> simp_all
    rw [String.append_empty] at frontReached
    rw [if_pos ends] at nonempty
    exact ⟨Path.segments front, unmoved ▸ frontReached, Path.segments_append .., nonempty⟩
  next notEnding =>
    rw [if_neg notEnding] at nonempty
    exact ⟨Path.segments root, located, Path.segments_append .., nonempty⟩

/-- From a place, a relative path leads where its segments lead. -/
theorem locate_resolve (located : disk.locate root = .ok reached) {path : String}
    (relative : path.startsWith "/" = false) :
    disk.locate (Path.resolve root path) = (Path.segments path).foldlM disk.follow reached := by
  obtain ⟨front, leads, segments, nonempty⟩ := exists_segments_resolve located relative
  rw [locate, if_neg nonempty, segments, List.foldlM_append, leads]
  rfl

/-- In a tree, the files that relative paths without points name from a place are those at the
locations below it. -/
theorem IsTree.read_resolve_iff (tree : disk.IsTree) (located : disk.locate root = .ok reached)
    (some : names ≠ []) (proper : ∀ name ∈ names, Path.IsEntryName name)
    (content : ByteArray) :
    disk.read (Path.resolve root (Path.ofSegments names)) = .ok content ↔
      ∃ modified, disk.entryAt? (names.reverse ++ reached) = .some (.file content modified) := by
  have target := locate_resolve located
    (Path.startsWith_slash_eq_false fun name member => (proper name member).1)
  rw [Path.segments_ofSegments some fun name member => (proper name member).1.2] at target
  rw [read, entry, target]
  constructor
  · intro success
    obtain ⟨found, success, isFile⟩ := bind_eq_ok_iff.mp success
    obtain ⟨next, followed, atNext⟩ := bind_eq_ok_iff.mp success
    rw [foldlM_follow_entryNames proper followed] at atNext
    split at atNext
    next present =>
      cases atNext
      cases found with
      | directory => cases isFile
      | file own modified =>
          cases isFile
          exact ⟨modified, present⟩
    next => cases atNext
  · intro present
    obtain ⟨modified, present⟩ := present
    rw [tree.foldlM_follow proper (locate_names located tree.working) present]
    simp [bind, Except.bind, present]

end Disk

end CodeAtlas
