import CodeAtlas.Proofs.Indexing.Link
import CodeAtlas.Proofs.Path

/-!
# Packages and paths

The path of a source file has an extension, and so a point.  The packages that imports of Python,
C and C++ lead to have no point; those of the other languages may be written like the path of a
file.
-/

namespace CodeAtlas

/-! ## Points in paths -/

namespace Path

theorem mem_segments_of_components {path name : String} (member : name ∈ components path)
    (notRoot : name ≠ "/") (notHere : name ≠ ".") : name ∈ segments path := by
  have filtered (others : name ∈ (segments path).filter fun segment =>
      segment != "" && segment != ".") : name ∈ segments path :=
    (List.mem_filter.mp others).1
  unfold components at member
  split at member
  next =>
    rcases List.mem_cons.mp member with same | others
    · exact absurd same notRoot
    · exact filtered others
  next =>
    rcases List.mem_cons.mp member with same | others
    · exact absurd same notHere
    · exact filtered others
  next =>
    rcases List.mem_cons.mp member with same | others
    · exact absurd same notHere
    · exact filtered others
  next => exact filtered member

theorem mem_segments_of_fileName? {path name : String} (named : fileName? path = some name) :
    name ∈ segments path := by
  unfold fileName? at named
  split at named
  next last isLast =>
    split at named
    next => cases named
    next ordinary =>
      cases named
      simp only [not_or] at ordinary
      exact mem_segments_of_components (List.mem_of_getLast? isLast) ordinary.1 ordinary.2.1
  next => cases named

theorem point_mem_of_extension? {path extension : String}
    (has : extension? path = some extension) : '.' ∈ path.toList := by
  rw [extension?, Option.bind_eq_bind, Option.bind_eq_some_iff] at has
  obtain ⟨name, named, rest⟩ := has
  by_contra absent
  have none : Text.splitLast? '.' name.toList = none :=
    Text.splitLast?_eq_none fun within =>
      absent (mem_of_mem_segments (mem_segments_of_fileName? named) within)
  rw [none] at rest
  cases rest

theorem point_mem_of_language {path : String} {language : Language}
    (has : Language.ofPath? path = some language) : '.' ∈ path.toList := by
  rw [Language.ofPath?, Option.bind_eq_bind, Option.bind_eq_some_iff] at has
  obtain ⟨extension, found, _⟩ := has
  exact point_mem_of_extension? found

end Path

/-! ## Points in packages -/

namespace Resolution

theorem ofPaths_ne_external (paths : List String) (package : String) :
    ofPaths paths ≠ .external package := by
  cases paths <;> simp [ofPaths]

theorem not_mem_firstPieces_one (separator : Char) (text : String) :
    separator ∉ (firstPieces separator 1 text).toList := by
  obtain ⟨piece, pieces, split⟩ :=
    List.exists_cons_of_ne_nil (List.splitOn_ne_nil separator text.toList)
  rw [firstPieces, Text.splitOn_eq, split]
  intro within
  have member : piece ∈ text.toList.splitOn separator := split ▸ List.mem_cons_self
  exact (Text.mem_of_mem_splitOn member (by simpa [Text.joinWith] using within)).2 rfl

theorem point_not_mem_of_dotted {importer package : String} {found : Import} {index : FileIndex}
    (answer : Dotted.resolve importer found index = .external package) :
    '.' ∉ package.toList := by
  unfold Dotted.resolve at answer
  split at answer
  next =>
    unfold Dotted.resolveRelative at answer
    split at answer
    next => cases answer
    next =>
      split at answer
      next =>
        dsimp only at answer
        split at answer
        · exact absurd answer (ofPaths_ne_external _ _)
        · cases answer
      next =>
        split at answer
        · cases answer
        · cases answer
  next =>
    dsimp only at answer
    split at answer
    next => cases answer
    next =>
      split at answer
      next => cases answer
      next =>
        split at answer
        next => cases answer
        next =>
          rw [← external.inj answer]
          intro within
          have outside := List.mem_takeWhile_imp (by simpa using within)
          simp at outside

theorem point_not_mem_of_include {importer package : String} {found : Import}
    {index : FileIndex} (answer : resolveInclude importer found index = .external package) :
    '.' ∉ package.toList := by
  unfold resolveInclude at answer
  dsimp only at answer
  split at answer
  next => cases answer
  next =>
    split at answer
    next =>
      split at answer
      next => cases answer
      next => split at answer <;> cases answer
    next =>
      split at answer
      next => cases answer
      next =>
        split at answer
        next => cases answer
        next =>
          rw [← external.inj answer]
          exact not_mem_firstPieces_one '.' _

theorem withoutImporter_eq_external_iff {resolution : Resolution} {importer package : String} :
    resolution.withoutImporter importer = .external package ↔ resolution = .external package := by
  rw [← package?_eq_some_iff, package?_withoutImporter, package?_eq_some_iff]

end Resolution

/-- The languages whose packages have no point in their names. -/
def Language.hasPlainPackages : Language → Bool
  | .python | .c | .cpp => true
  | .rust | .typeScript | .javaScript | .go | .java => false

theorem Import.point_not_mem_of_external {language : Language} {importer package : String}
    {index : FileIndex} {found : Import} (plain : language.hasPlainPackages = true)
    (leads : found.resolve language importer index = .external package) :
    '.' ∉ package.toList := by
  unfold Import.resolve at leads
  rw [Resolution.withoutImporter_eq_external_iff] at leads
  cases language with
  | python => exact Resolution.point_not_mem_of_dotted leads
  | c => exact Resolution.point_not_mem_of_include leads
  | cpp => exact Resolution.point_not_mem_of_include leads
  | rust => cases plain
  | typeScript => cases plain
  | javaScript => cases plain
  | go => cases plain
  | java => cases plain

end CodeAtlas
