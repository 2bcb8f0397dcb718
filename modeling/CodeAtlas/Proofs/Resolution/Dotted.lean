import CodeAtlas.Proofs.Resolution.Files

/-!
# Names of Python imports

An import that brings in two lists of names leads where two imports with one list each lead.  The
exception is an import out of the importer's own packages, with dots alone: the file of such a
package counts only where no name is one of its modules, so it is lost when a list that names a
module is joined to one that does not.
-/

namespace CodeAtlas

theorem FileIndex.firstExisting?_singleton_eq_some_iff {index : FileIndex}
    {candidate path : String} :
    index.firstExisting? [candidate] = some path ↔
      path = candidate ∧ index.contains path = true := by
  rw [firstExisting?, List.find?_cons, List.find?_nil]
  split
  next known => simp only [Option.some.injEq]; grind
  next unknown => simp only [reduceCtorEq]; grind

namespace Import

/-- The directory of the package that an import with dots alone brings its names in from. -/
def ownPackage? (importer : String) (found : Import) : Option String :=
  if 0 < found.level ∧ found.module = "" then
    Resolution.Dotted.ancestor? (Path.parent importer) (found.level - 1)
  else none

/-- An import with two lists of names leads to the files that the imports with one of them lead
to. -/
def SplitsInto (found : Import) (importer : String) (index : FileIndex)
    (first second : List String) : Prop :=
  ∀ path, path ∈ ((found.naming (first ++ second)).resolve .python importer index).paths ↔
    path ∈ ((found.naming first).resolve .python importer index).paths ∨
      path ∈ ((found.naming second).resolve .python importer index).paths

end Import

namespace Resolution.Dotted

variable {index : FileIndex} {importer : String} {found : Import}

/-- The file of the package in a directory. -/
def packageFile (directory : String) : String := Path.join directory "__init__.py"

/-- A list of names has one that is a module of the package in a directory. -/
def NamesModule (index : FileIndex) (directory : String) (names : List String) : Prop :=
  ∃ name ∈ names, ∃ path, moduleFile? index (Path.join directory name) = some path

/-- Every name other than `*` adds its module, if the file is that of a package. -/
theorem mem_withModules_iff {file path : String} {names : List String} :
    path ∈ withModules index file names ↔
      path = file ∨ file.endsWith "__init__.py" = true ∧ ∃ name ∈ names, name ≠ "*" ∧
        moduleFile? index (Path.join (Path.parent file) name) = some path := by
  unfold withModules
  split
  next isPackage =>
    simp only [isPackage, true_and]
    induction names using List.reverseRecOn with
    | nil => simp
    | append_singleton names name induction =>
        rw [List.filter_append, List.foldl_append]
        generalize (names.filter (· != "*")).foldl _ [file] = paths at induction ⊢
        by_cases everything : name = "*"
        · simp [everything, induction]
        · cases isModule : moduleFile? index (Path.join (Path.parent file) name) with
          | none => simp [everything, isModule, induction]
          | some module =>
              by_cases known : module ∈ paths <;> simp [everything, isModule, known] <;> grind
  next noPackage => simp [noPackage]

/-- With dots alone the modules among the names are found, or else the file of the package. -/
theorem mem_paths_resolve_of_ownPackage {directory path : String} {names : List String}
    (own : found.ownPackage? importer = some directory) :
    path ∈ (resolve importer (found.naming names) index).paths ↔
      (∃ name ∈ names, moduleFile? index (Path.join directory name) = some path) ∨
        ¬NamesModule index directory names ∧
          path = packageFile directory ∧ index.contains path = true := by
  rw [Import.ownPackage?] at own
  split at own
  next bare =>
    rw [resolve, if_pos (show 0 < (found.naming names).level from bare.1), resolveRelative]
    simp only [Import.naming, own, bare.2, if_true]
    split
    next none =>
      rw [List.isEmpty_iff, List.filterMap_eq_nil_iff] at none
      rw [mem_paths_ofPath?_iff, FileIndex.firstExisting?_singleton_eq_some_iff]
      have unnamed : ¬NamesModule index directory names := by
        intro named
        obtain ⟨name, member, module, isModule⟩ := named
        rw [none name member] at isModule
        cases isModule
      have noModule : ¬∃ name ∈ names,
          moduleFile? index (Path.join directory name) = some path :=
        fun named => unnamed (named.imp fun _ => .imp_right fun isModule => ⟨path, isModule⟩)
      simp [noModule, unnamed, packageFile]
    next some =>
      have named : NamesModule index directory names := by
        by_contra unnamed
        refine some (List.isEmpty_iff.mpr (List.filterMap_eq_nil_iff.mpr ?_))
        intro name member
        refine Option.eq_none_iff_forall_ne_some.mpr fun module isModule => ?_
        exact unnamed ⟨name, member, module, isModule⟩
      simp [Resolution.paths, List.mem_filterMap, named]
  next => cases own

/-- Any other import leads to one file that the names do not decide, and to the modules that are
named out of it, or to no file at all. -/
theorem resolve_of_not_ownPackage (index : FileIndex)
    (other : found.ownPackage? importer = none) :
    (∃ file, ∀ names, resolve importer (found.naming names) index =
      .internal (withModules index file names)) ∨
    ∀ names, (resolve importer (found.naming names) index).paths = [] := by
  simp only [resolve, resolveRelative, Import.naming]
  -- None of the tests reads the names, so each of them is decided for all names at once.
  by_cases relative : 0 < found.level
  · simp only [relative, if_true]
    cases above : ancestor? (Path.parent importer) (found.level - 1) with
    | none => exact .inr fun _ => rfl
    | some directory =>
        have named : found.module ≠ "" := by
          intro bare
          rw [Import.ownPackage?, if_pos ⟨relative, bare⟩, above] at other
          cases other
        simp only [named, if_false]
        cases moduleFile? index (Path.join directory (dottedPath found.module)) with
        | some file => exact .inl ⟨file, fun _ => rfl⟩
        | none => exact .inr fun _ => rfl
  · simp only [relative, if_false]
    cases sourceRoots.findSome? fun root =>
        moduleFile? index (Path.join root (dottedPath found.module)) with
    | some file => exact .inl ⟨file, fun _ => rfl⟩
    | none =>
        by_cases isStandard : Standard.isPython
            (String.ofList (found.module.toList.takeWhile (· ≠ '.'))) = true
        · simp only [isStandard, reduceIte]
          exact .inr fun _ => rfl
        · simp only [isStandard]
          cases (index.suffixMatch? (dottedPath found.module ++ ".py")).or
              (index.suffixMatch? (dottedPath found.module ++ "/__init__.py")) with
          | some file => exact .inl ⟨file, fun _ => rfl⟩
          | none => exact .inr fun _ => rfl

end Resolution.Dotted

namespace Import

open Resolution.Dotted

variable {found : Import} {importer : String} {index : FileIndex} {first second : List String}

theorem mem_paths_naming_iff {names : List String} {path : String} :
    path ∈ ((found.naming names).resolve .python importer index).paths ↔
      path ∈ (Resolution.Dotted.resolve importer (found.naming names) index).paths ∧
        path ≠ importer :=
  mem_paths_resolve_iff

theorem splitsInto_of_not_ownPackage (other : found.ownPackage? importer = none) :
    found.SplitsInto importer index first second := by
  intro path
  simp only [mem_paths_naming_iff]
  rcases resolve_of_not_ownPackage index other with ⟨file, leads⟩ | nowhere
  · simp only [leads, Resolution.paths, mem_withModules_iff, List.mem_append]
    grind
  · simp [nowhere]

/-- Where a package has a file beside the importer that no name stands for, an import with dots
alone splits exactly when both lists name a module of the package or neither does. -/
theorem splitsInto_iff_of_ownPackage {directory : String}
    (own : found.ownPackage? importer = some directory) :
    found.SplitsInto importer index first second ↔
      (index.contains (packageFile directory) = true → packageFile directory ≠ importer →
        (∀ name ∈ first ++ second,
          moduleFile? index (Path.join directory name) ≠ some (packageFile directory)) →
        (NamesModule index directory first ↔ NamesModule index directory second)) := by
  have joined : NamesModule index directory (first ++ second) ↔
      NamesModule index directory first ∨ NamesModule index directory second := by
    simp only [NamesModule, List.mem_append, or_and_right, exists_or]
  simp only [SplitsInto, mem_paths_naming_iff, mem_paths_resolve_of_ownPackage own, joined,
    List.mem_append]
  constructor
  · intro splits known notImporter unnamed
    -- Only the file of the package tells the two sides apart.
    have atPackage := splits (packageFile directory)
    grind
  · intro alike path
    by_cases isPackage : path = packageFile directory ∧ index.contains path = true ∧
        path ≠ importer ∧ ∀ name, name ∈ first ∨ name ∈ second →
          moduleFile? index (Path.join directory name) ≠ some path
    · obtain ⟨rfl, known, notImporter, unnamed⟩ := isPackage
      have same := alike known notImporter unnamed
      grind
    · grind

/-- An import with two lists of names leads where two imports lead that bring in one list each,
unless it has dots alone and exactly one of the lists names a module of its package: then the file
of the package is lost, if there is one beside the importer that no name stands for. -/
theorem splitsInto_iff (found : Import) (importer : String) (index : FileIndex)
    (first second : List String) :
    found.SplitsInto importer index first second ↔
      ∀ directory, found.ownPackage? importer = some directory →
        index.contains (packageFile directory) = true → packageFile directory ≠ importer →
        (∀ name ∈ first ++ second,
          moduleFile? index (Path.join directory name) ≠ some (packageFile directory)) →
        (NamesModule index directory first ↔ NamesModule index directory second) := by
  cases own : found.ownPackage? importer with
  | none => exact iff_of_true (splitsInto_of_not_ownPackage own) nofun
  | some directory =>
      rw [splitsInto_iff_of_ownPackage own]
      constructor
      · intro alike _ same
        cases same
        exact alike
      · intro alike
        exact alike directory rfl

/-- A package with a module beside the importer. -/
def packageFiles : FileIndex :=
  .ofPaths ["pkg/__init__.py", "pkg/main.py", "pkg/util.py"] none

/-- An import out of the package of the importer. -/
def ofOwnPackage : Import := ⟨"", none, ["util", "VERSION"], 1, .fromImport, 1⟩

/-- A name of the package alone leads to its file, and together with a module it does not. -/
theorem ofOwnPackage_not_splitsInto :
    (ofOwnPackage.naming ["util"]).resolve .python "pkg/main.py" packageFiles =
        .internal ["pkg/util.py"] ∧
      (ofOwnPackage.naming ["VERSION"]).resolve .python "pkg/main.py" packageFiles =
        .internal ["pkg/__init__.py"] ∧
      ofOwnPackage.resolve .python "pkg/main.py" packageFiles = .internal ["pkg/util.py"] ∧
      ¬ofOwnPackage.SplitsInto "pkg/main.py" packageFiles ["util"] ["VERSION"] := by
  have module : (ofOwnPackage.naming ["util"]).resolve .python "pkg/main.py" packageFiles =
      .internal ["pkg/util.py"] := by decide +kernel
  have constant : (ofOwnPackage.naming ["VERSION"]).resolve .python "pkg/main.py" packageFiles =
      .internal ["pkg/__init__.py"] := by decide +kernel
  have both : ofOwnPackage.resolve .python "pkg/main.py" packageFiles =
      .internal ["pkg/util.py"] := by decide +kernel
  refine ⟨module, constant, both, ?_⟩
  intro splits
  have lost := (splits "pkg/__init__.py").mpr (.inr (by rw [constant]; decide))
  rw [show ofOwnPackage.naming (["util"] ++ ["VERSION"]) = ofOwnPackage from rfl, both] at lost
  exact absurd lost (by decide)

end Import

end CodeAtlas
