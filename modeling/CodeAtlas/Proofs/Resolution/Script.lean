import CodeAtlas.Proofs.Resolution.Files
import CodeAtlas.Proofs.Resolution.Package

/-!
# Relative specifiers

A specifier that begins with `.` or `..` names a path from the directory of its importer, and
leads to a file or nowhere.  Only when nothing follows those points is it taken for a package.
-/

namespace CodeAtlas

namespace Resolution

theorem withoutImporter_ofPath? (importer : String) (path? : Option String) :
    (ofPath? path?).withoutImporter importer = ofPath? (path?.filter (· != importer)) := by
  cases path? with
  | none => rfl
  | some path =>
      by_cases same : path = importer <;>
        simp [ofPath?, ofPaths, withoutImporter, Option.filter, List.eraseDups_cons, same]

theorem ofPath?_eq_internal_iff {path? : Option String} {paths : List String} :
    ofPath? path? = .internal paths ↔ ∃ path, paths = [path] ∧ path? = some path := by
  cases path? <;> simp [ofPath?, ofPaths, eq_comm]

theorem ofPath?_ne_standard (path? : Option String) : ofPath? path? ≠ .standard := by
  cases path? <;> simp [ofPath?, ofPaths]

theorem ofPath?_eq_unresolved_iff {path? : Option String} :
    ofPath? path? = .unresolved ↔ path? = none := by
  cases path? <;> simp [ofPath?, ofPaths]

namespace Script

/-- A specifier as it is looked up, without what a question mark or a hash begins. -/
def bare (specifier : String) : String :=
  String.ofList (specifier.toList.takeWhile fun c => c ≠ '?' && c ≠ '#')

/-- The first segment of a specifier is a point or two. -/
def IsRelative (specifier : String) : Prop :=
  (Path.segments specifier).head? = some "." ∨ (Path.segments specifier).head? = some ".."

/-- The file that a specifier means, from the directory of its importer: of the path itself, the
sources it may be compiled from, the path with each extension and the indexes of a directory, the
first that exists. -/
def Means (index : FileIndex) (importer specifier file : String) : Prop :=
  ∃ base, Path.normalize? (Path.join (Path.parent importer) specifier) = some base ∧
    index.IsFirst (candidates base) file

/-- An answer leads to the file that a specifier means, and else nowhere. -/
structure LeadsFrom (index : FileIndex) (importer specifier : String) (resolution : Resolution) :
    Prop where
  internal_iff : ∀ paths, resolution = .internal paths ↔
    ∃ file, paths = [file] ∧ Means index importer specifier file ∧ file ≠ importer
  unresolved_iff : resolution = .unresolved ↔
    ∀ file, Means index importer specifier file → file = importer
  aboveRoot : Path.normalize? (Path.join (Path.parent importer) specifier) = none →
    resolution = .unresolved
  notExternal : ∀ package, resolution ≠ .external package
  notStandard : resolution ≠ .standard

variable {index : FileIndex} {importer : String}

theorem cases_of_isRelative {specifier : String} (relative : IsRelative specifier) :
    (specifier = "." ∨ specifier = "..") ∨
      specifier.startsWith "./" = true ∨ specifier.startsWith "../" = true := by
  have begins {front rest : String} : (front ++ "/" ++ rest).startsWith (front ++ "/") = true := by
    rw [String.startsWith_string_iff, String.toList_append (s := front ++ "/")]
    exact List.prefix_append _ _
  rcases relative with here | above
  · rcases Path.eq_or_eq_append_of_head?_segments here with alone | ⟨rest, rfl⟩
    · exact .inl (.inl alone)
    · exact .inr (.inl begins)
  · rcases Path.eq_or_eq_append_of_head?_segments above with alone | ⟨rest, rfl⟩
    · exact .inl (.inr alone)
    · exact .inr (.inr begins)

/-- The file that a path means is the one that is looked up. -/
theorem means_iff {specifier file : String} :
    Means index importer specifier file ↔
      (Path.normalize? (Path.join (Path.parent importer) specifier)).bind (file? index) =
        some file := by
  simp only [Means, Option.bind_eq_some_iff, file?, FileIndex.firstExisting?_eq_some_iff]

/-- A specifier that goes on after its points is looked up from the directory of its importer. -/
theorem resolve_of_startsWith {found : Import}
    (goesOn : (bare found.module).startsWith "./" = true ∨
      (bare found.module).startsWith "../" = true) :
    resolve importer found index =
      ofPath? ((Path.normalize? (Path.join (Path.parent importer) (bare found.module))).bind
        (file? index)) := by
  rw [resolve, ← bare]
  generalize bare found.module = specifier at goesOn ⊢
  have some : specifier ≠ "" := by
    intro empty
    rw [empty] at goesOn
    revert goesOn
    decide +kernel
  have notRoot : specifier.startsWith "/" = false := by
    rw [← Bool.not_eq_true]
    rw [String.startsWith_string_iff] at goesOn ⊢
    rw [String.startsWith_string_iff] at goesOn
    rintro ⟨rest, same⟩
    rw [← same] at goesOn
    simp at goesOn
  have lookedUp : (specifier.startsWith "./" || specifier.startsWith "../" ||
      specifier.startsWith "/") = true := by
    rw [Bool.or_eq_true, Bool.or_eq_true]
    exact .inl goesOn
  rw [if_neg some, if_pos lookedUp, if_neg (by simp [notRoot])]

theorem leadsFrom_ofPath? (specifier : String) :
    LeadsFrom index importer specifier
      ((ofPath? ((Path.normalize? (Path.join (Path.parent importer) specifier)).bind
        (file? index))).withoutImporter importer) := by
  rw [withoutImporter_ofPath?]
  refine {
    internal_iff := ?internal
    unresolved_iff := ?unresolved
    aboveRoot := ?above
    notExternal := fun package => ofPaths_ne_external _ package
    notStandard := ofPath?_ne_standard _ }
  case internal =>
    intro paths
    rw [ofPath?_eq_internal_iff]
    simp only [means_iff, Option.filter_eq_some_iff, bne_iff_ne]
  case unresolved =>
    simp only [ofPath?_eq_unresolved_iff, means_iff, Option.filter_eq_none_iff]
    grind
  case above =>
    intro above
    rw [above]
    rfl

/-- Points with nothing after them are taken for the name of a package. -/
theorem resolve_of_points {found : Import}
    (points : bare found.module = "." ∨ bare found.module = "..") :
    resolve importer found index = .external (bare found.module) := by
  rw [resolve, ← bare]
  generalize bare found.module = specifier at points ⊢
  have named : ∀ points ∈ [".", ".."], points ≠ "" ∧
      (points.startsWith "./" || points.startsWith "../" || points.startsWith "/") = false ∧
      afterAlias? points = none ∧ Standard.isScript points = false ∧ '/' ∉ points.toList ∧
      packageName points = points := by
    decide +kernel
  obtain ⟨some, notPath, noAlias, notStandard, noSlash, package⟩ :=
    named specifier (by simpa using points)
  rw [if_neg some, if_neg (by simp [notPath]), noAlias]
  simp [notStandard, noSlash, package]

end Script

end Resolution

namespace Import

open Resolution.Script

theorem lookUp_of_script {found : Import} {language : Language} {importer : String}
    {index : FileIndex} (script : language = .typeScript ∨ language = .javaScript) :
    found.lookUp language importer index = Resolution.Script.resolve importer found index := by
  rcases script with rfl | rfl <;> rfl

/-- A relative specifier of a script leads to the file that it means, and else nowhere, exactly
when something follows the points that it begins with; these alone are taken for a package. -/
theorem resolve_relative_iff {found : Import} {language : Language} {importer : String}
    {index : FileIndex} (script : language = .typeScript ∨ language = .javaScript)
    (relative : IsRelative (bare found.module)) :
    (LeadsFrom index importer (bare found.module) (found.resolve language importer index) ↔
      bare found.module ≠ "." ∧ bare found.module ≠ "..") ∧
    (bare found.module = "." ∨ bare found.module = ".." →
      found.resolve language importer index = .external (bare found.module)) := by
  rw [resolve_eq, lookUp_of_script script]
  rcases cases_of_isRelative relative with points | goesOn
  · rw [resolve_of_points points]
    refine ⟨iff_of_false ?_ ?_, fun _ => rfl⟩
    · intro leads
      exact leads.notExternal _ rfl
    · rwa [← not_or, not_not]
  · have closed : ∀ points ∈ [".", ".."],
        ¬(points.startsWith "./" = true ∨ points.startsWith "../" = true) := by
      decide +kernel
    have notPoints : ¬(bare found.module = "." ∨ bare found.module = "..") :=
      fun points => closed _ (by simpa using points) goesOn
    rw [resolve_of_startsWith goesOn]
    exact ⟨iff_of_true (leadsFrom_ofPath? _) (not_or.mp notPoints),
      fun points => absurd points notPoints⟩

/-- A directory with an index. -/
def indexFiles : FileIndex := .ofPaths ["src/app.ts", "src/index.ts", "src/util/math.ts"] none

/-- A specifier with redundant segments, for a source that is compiled from another file. -/
def redundant : Import := .new "../.././src//util/math.js?raw" .importStatement 1

theorem redundant_leadsFrom :
    IsRelative (bare redundant.module) ∧
      LeadsFrom indexFiles "src/util/deep/main.ts" (bare redundant.module)
        (redundant.resolve .typeScript "src/util/deep/main.ts" indexFiles) := by
  have relative : IsRelative (bare redundant.module) := .inr (by decide +kernel)
  exact ⟨relative, (resolve_relative_iff (.inl rfl) relative).1.mpr (by decide +kernel)⟩

/-- The directory of the importer, for the index in it. -/
def ownDirectory : Import := .new "." .importStatement 1

theorem ownDirectory_not_leadsFrom :
    IsRelative (bare ownDirectory.module) ∧
      Means indexFiles "src/app.ts" (bare ownDirectory.module) "src/index.ts" ∧
      ownDirectory.resolve .typeScript "src/app.ts" indexFiles = .external "." ∧
      ¬LeadsFrom indexFiles "src/app.ts" (bare ownDirectory.module)
        (ownDirectory.resolve .typeScript "src/app.ts" indexFiles) := by
  have points : bare ownDirectory.module = "." := by decide +kernel
  have leads : ownDirectory.resolve .typeScript "src/app.ts" indexFiles = .external "." := by
    rw [resolve_eq, lookUp_of_script (.inl rfl), resolve_of_points (.inl points), points]
    rfl
  refine ⟨.inl (by decide +kernel), means_iff.mpr (by decide +kernel), leads, ?_⟩
  intro below
  exact below.notExternal _ leads

end Import

end CodeAtlas
