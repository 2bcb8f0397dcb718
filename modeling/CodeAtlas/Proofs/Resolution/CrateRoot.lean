import CodeAtlas.Proofs.Resolution.Crate

/-!
# Paths from the root of a crate

A path that begins with `crate` is looked up below the nearest directory around the importer that
holds the root file of a crate.  It leads to a file there, be it to the root file itself: it is
unresolved only outside of all crates, or where that file is the importer.  It leads elsewhere for
an empty name only, which stands for that directory as if it were a module.
-/

namespace CodeAtlas

namespace Path

theorem ofSegments_ne_empty {names : List String} (nonempty : names ≠ [])
    (named : names ≠ [""]) : ofSegments names ≠ "" := by
  cases names with
  | nil => exact absurd rfl nonempty
  | cons first others =>
      cases others with
      | nil =>
          intro empty
          exact named (congrArg ([·]) empty)
      | cons second others =>
          intro empty
          have within : '/' ∈ (ofSegments (first :: second :: others)).toList := by
            simp [ofSegments, String.toList_intercalate, List.intercalate]
          rw [empty] at within
          exact List.not_mem_nil within

theorem isAbove_empty_iff {directory : String} : IsAbove directory "" ↔ directory = "" := by
  constructor
  · intro above
    exact String.toList_injective (List.length_eq_zero_iff.mp (Nat.le_zero.mp above.length_le))
  · exact .inl

/-- Of the directories above a path no two are as long. -/
theorem IsAbove.eq_of_length_eq {first second path : String} (above : IsAbove first path)
    (other : IsAbove second path) (same : first.length = second.length) : first = second := by
  rcases above with rfl | ⟨rest, split⟩
  · exact (String.toList_injective (List.length_eq_zero_iff.mp same.symm)).symm
  · rcases other with rfl | ⟨otherRest, otherSplit⟩
    · exact String.toList_injective (List.length_eq_zero_iff.mp same)
    · have whole := congrArg String.toList (split.symm.trans otherSplit)
      simp only [String.toList_append, List.append_assoc] at whole
      exact String.toList_injective (List.append_inj whole same).1

end Path

namespace Resolution.Crate

variable {index : FileIndex} {importer directory root base file : String}
  {path names : List String}

/-- A directory holds the root file of a crate. -/
def IsRoot (index : FileIndex) (directory : String) : Prop :=
  index.contains (Path.join directory "lib.rs") = true ∨
    index.contains (Path.join directory "main.rs") = true

/-- The longest directory above a file that holds the root file of a crate. -/
structure IsRootAbove (index : FileIndex) (importer root : String) : Prop where
  above : Path.IsAbove root importer
  isRoot : IsRoot index root
  longest : ∀ other, Path.IsAbove other importer → IsRoot index other → other.length ≤ root.length

theorem IsRootAbove.unique (first : IsRootAbove index importer root)
    (second : IsRootAbove index importer directory) : root = directory :=
  first.above.eq_of_length_eq second.above
    (Nat.le_antisymm (second.longest _ first.above first.isRoot)
      (first.longest _ second.above second.isRoot))

/-- The search outwards from a directory stops at the first root, which is the longest one. -/
theorem crateRootFrom?_spec (index : FileIndex) (directory : String) :
    (∀ root, crateRootFrom? index directory = some root →
      (root = directory ∨ Path.IsAbove root directory) ∧ IsRoot index root ∧
        ∀ other, other = directory ∨ Path.IsAbove other directory → IsRoot index other →
          other.length ≤ root.length) ∧
    (crateRootFrom? index directory = none →
      ∀ other, other = directory ∨ Path.IsAbove other directory → ¬IsRoot index other) := by
  induction directory using crateRootFrom?.induct index with
  | case1 directory here =>
      rw [crateRootFrom?, if_pos here]
      refine ⟨?_, nofun⟩
      intro root same
      cases same
      refine ⟨.inl rfl, by simpa [IsRoot] using here, ?_⟩
      rintro other (rfl | above) _
      · exact Nat.le_refl _
      · exact above.length_le
  | case2 directory notHere below induction =>
      have noRoot : ¬IsRoot index directory := by simpa [IsRoot] using notHere
      have outer (other : String) (around : other = directory ∨ Path.IsAbove other directory)
          (isRoot : IsRoot index other) :
          other = Path.parent directory ∨ Path.IsAbove other (Path.parent directory) := by
        rcases around with rfl | above
        · exact absurd isRoot noRoot
        · exact Path.isAbove_iff.mp above
      rw [crateRootFrom?, if_neg notHere, dif_pos below]
      constructor
      · intro root found
        obtain ⟨around, isRoot, longest⟩ := induction.1 root found
        exact ⟨.inr (Path.isAbove_iff.mpr around), isRoot,
          fun other otherAround otherRoot =>
            longest other (outer other otherAround otherRoot) otherRoot⟩
      · intro missing other around isRoot
        exact induction.2 missing other (outer other around isRoot) isRoot
  | case3 directory notHere atRoot =>
      have empty : directory = "" := not_not.mp atRoot
      rw [crateRootFrom?, if_neg notHere, dif_neg atRoot]
      refine ⟨nofun, ?_⟩
      rintro _ other (rfl | above) isRoot
      · exact notHere (by simpa [IsRoot] using isRoot)
      · rw [empty, Path.isAbove_empty_iff] at above
        rw [above, ← empty] at isRoot
        exact notHere (by simpa [IsRoot] using isRoot)

theorem crateRoot?_eq_some_iff :
    crateRoot? index importer = some root ↔ IsRootAbove index importer root := by
  obtain ⟨found, missing⟩ := crateRootFrom?_spec index (Path.parent importer)
  simp only [← Path.isAbove_iff] at found missing
  constructor
  · intro same
    obtain ⟨above, isRoot, longest⟩ := found root same
    exact ⟨above, isRoot, longest⟩
  · intro isRootAbove
    cases search : crateRoot? index importer with
    | none => exact absurd isRootAbove.isRoot (missing search root isRootAbove.above)
    | some other =>
        obtain ⟨above, isRoot, longest⟩ := found other search
        rw [isRootAbove.unique ⟨above, isRoot, longest⟩]

theorem crateRoot?_eq_none_iff :
    crateRoot? index importer = none ↔
      ∀ directory, Path.IsAbove directory importer → ¬IsRoot index directory := by
  obtain ⟨found, missing⟩ := crateRootFrom?_spec index (Path.parent importer)
  simp only [← Path.isAbove_iff] at found missing
  constructor
  · exact missing
  · intro noRoot
    refine Option.eq_none_iff_forall_ne_some.mpr fun root same => ?_
    obtain ⟨above, isRoot, _⟩ := found root same
    exact noRoot root above isRoot

/-! ## Files below the root -/

theorem isAbove_append (isAbove : Path.IsAbove base file) (ending : String) :
    Path.IsAbove base (file ++ ending) := by
  rcases isAbove with rfl | ⟨rest, rfl⟩
  · exact .inl rfl
  · exact .inr ⟨rest ++ ending, String.append_assoc⟩

theorem isAbove_of_moduleFile? {rest : String} (nonempty : rest ≠ "")
    (found : moduleFile? index (Path.join base rest) = some file) : Path.IsAbove base file := by
  have candidate := List.mem_of_find?_eq_some found
  simp only [List.mem_cons, List.not_mem_nil, or_false] at candidate
  rcases candidate with rfl | rfl
  · exact isAbove_append (Path.isAbove_join nonempty) _
  · exact isAbove_append (Path.isAbove_join nonempty) _

/-- A file beside a directory is not below it. -/
theorem not_isAbove_beside (inner : base ≠ "") : ¬Path.IsAbove base (base ++ ".rs") := by
  rintro (top | ⟨rest, same⟩)
  · exact inner top
  · have characters := congrArg String.toList same
    simp [String.toList_append] at characters

theorem ne_empty_of_mem_go {segment characters : List Char} {name : String}
    (member : name ∈ pathSegments.go segment characters) : name ≠ "" := by
  have ofSegment {segment : List Char} (member : name ∈ pathSegments.ofSegment segment) :
      name ≠ "" := by
    rw [pathSegments.ofSegment] at member
    split at member
    next => cases member
    next some =>
      rw [List.mem_singleton.mp member]
      simpa using some
  induction segment, characters using pathSegments.go.induct with
  | case1 segment =>
      rw [pathSegments.go] at member
      exact ofSegment member
  | case2 segment rest induction =>
      rw [pathSegments.go] at member
      rcases List.mem_append.mp member with here | later
      · exact ofSegment here
      · exact induction later
  | case3 segment c rest noSeparator induction =>
      rw [pathSegments.go] at member
      · exact induction member
      · exact noSeparator

theorem ne_empty_of_mem_pathSegments {text name : String} (member : name ∈ pathSegments text) :
    name ≠ "" :=
  ne_empty_of_mem_go member

/-- Below a root every path leads to some module, at least to that of the root file. -/
theorem exists_deepestModule? (isRoot : IsRoot index base)
    (named : ∀ name ∈ path, name ≠ "") :
    ∃ file, deepestModule? index base path = some file ∧ Path.IsAbove base file := by
  rw [deepestModule?]
  cases along : ((List.range path.length).reverse.map (· + 1)).findSome? fun depth =>
      moduleFile? index (Path.join base (Path.ofSegments (path.take depth))) with
  | some file =>
      obtain ⟨depth, member, isFile⟩ := List.exists_of_findSome?_eq_some along
      have front : Path.ofSegments (path.take depth) ≠ "" := by
        apply Path.ofSegments_ne_empty
        · simp only [List.mem_map, List.mem_reverse, List.mem_range] at member
          obtain ⟨shorter, bound, rfl⟩ := member
          rw [ne_eq, List.take_eq_nil_iff, ← List.length_eq_zero_iff]
          omega
        · intro same
          have within : "" ∈ path.take depth := same ▸ List.mem_singleton_self _
          exact named "" (List.mem_of_mem_take within) rfl
      exact ⟨file, rfl, isAbove_of_moduleFile? front isFile⟩
  | none =>
      have library : Path.IsAbove base (Path.join base "lib.rs") := Path.isAbove_join (by decide)
      have program : Path.IsAbove base (Path.join base "main.rs") := Path.isAbove_join (by decide)
      rw [Option.none_or, FileIndex.firstExisting?, List.find?_cons]
      cases hasLibrary : index.contains (Path.join base "lib.rs") with
      | true => exact ⟨_, rfl, library⟩
      | false =>
          have hasProgram : index.contains (Path.join base "main.rs") = true :=
            isRoot.resolve_left (by simp [hasLibrary])
          exact ⟨_, by simp [hasProgram], program⟩

/-- The file that an empty name directly below a directory stands for: the one of the directory's
own name, beside it. -/
def Beside (index : FileIndex) (base file : String) (path names : List String) : Prop :=
  path = [] ∧ "" ∈ names ∧ file = base ++ ".rs" ∧ index.contains file = true

theorem moduleOfName?_empty : moduleOfName? index base [] "" = moduleFile? index base := by
  have same : Path.join base "" = base := by
    rw [Path.join, if_pos rfl]
    split
    next top => exact top.symm
    next => rfl
  change moduleFile? index (Path.join base "") = _
  rw [same]

theorem mem_filesWithin_of_beside (beside : Beside index base file path names) :
    file ∈ filesWithin index base path names := by
  obtain ⟨rfl, member, rfl, isFile⟩ := beside
  refine mem_filesWithin_iff.mpr (.inl ⟨"", member, ?_⟩)
  rw [moduleOfName?_empty, moduleFile?, FileIndex.firstExisting?, List.find?_cons, isFile]

/-- Whatever is found stands below the root, or beside it for an empty name. -/
theorem isAbove_or_beside (isRoot : IsRoot index base) (pathNamed : ∀ name ∈ path, name ≠ "")
    (member : file ∈ filesWithin index base path names) :
    Path.IsAbove base file ∨ Beside index base file path names := by
  rcases mem_filesWithin_iff.mp member with ⟨name, within, isModule⟩ | ⟨_, deepest⟩
  · by_cases alone : path ++ [name] = [""]
    · obtain ⟨rfl, single⟩ := (List.append_eq_singleton_iff.mp alone).resolve_right (by simp)
      obtain rfl := List.singleton_inj.mp single
      rw [moduleOfName?_empty] at isModule
      have candidate := List.mem_of_find?_eq_some isModule
      simp only [List.mem_cons, List.not_mem_nil, or_false] at candidate
      rcases candidate with rfl | rfl
      · exact .inr ⟨rfl, within, rfl, List.find?_some isModule⟩
      · exact .inl (.inr ⟨"mod.rs", by rw [String.append_assoc]; rfl⟩)
    · rw [moduleOfName?] at isModule
      split at isModule
      next => cases isModule
      next =>
        exact .inl (isAbove_of_moduleFile? (Path.ofSegments_ne_empty (by simp) alone) isModule)
  · obtain ⟨other, found, above⟩ := exists_deepestModule? isRoot pathNamed
    rw [deepest] at found
    cases found
    exact .inl above

theorem filesWithin_ne_nil (isRoot : IsRoot index base) (pathNamed : ∀ name ∈ path, name ≠ "") :
    filesWithin index base path names ≠ [] := by
  obtain ⟨deepest, found, _⟩ := exists_deepestModule? isRoot pathNamed
  have some : ∃ file, file ∈ filesWithin index base path names := by
    simp only [mem_filesWithin_iff]
    cases names with
    | nil => exact ⟨deepest, .inr ⟨.inl rfl, found⟩⟩
    | cons name others =>
        cases isModule : moduleOfName? index base path name with
        | some file => exact ⟨file, .inl ⟨name, List.mem_cons_self, isModule⟩⟩
        | none =>
            exact ⟨deepest, .inr ⟨.inr ⟨name, List.mem_cons_self, isModule⟩, found⟩⟩
  obtain ⟨file, member⟩ := some
  exact List.ne_nil_of_mem member

end Resolution.Crate

theorem eq_singleton_of_nodup {α : Type} {items : List α} {item : α} (nonempty : items ≠ [])
    (once : items.Nodup) (only : ∀ other ∈ items, other = item) : items = [item] := by
  cases items with
  | nil => exact absurd rfl nonempty
  | cons first others =>
      obtain ⟨rfl, only⟩ := List.forall_mem_cons.mp only
      have alone : others = [] := by
        refine List.eq_nil_iff_forall_not_mem.mpr fun other member => ?_
        rw [only other member] at member
        exact (List.nodup_cons.mp once).1 member
      rw [alone]

/-! ## Leaving out the importer -/

namespace Resolution

variable {files : List String} {importer path : String}

theorem withoutImporter_internal_eq (files : List String) (importer : String) :
    (internal files).withoutImporter importer =
      .ofPaths (files.filter (· != importer)).eraseDups := rfl

theorem withoutImporter_internal_ne_external (package : String) :
    (internal files).withoutImporter importer ≠ .external package := by
  rw [withoutImporter_internal_eq]
  exact ofPaths_ne_external _ package

theorem withoutImporter_internal_ne_standard :
    (internal files).withoutImporter importer ≠ .standard := by
  rw [withoutImporter_internal_eq, ofPaths]
  split <;> simp

theorem mem_paths_withoutImporter_internal_iff :
    path ∈ ((internal files).withoutImporter importer).paths ↔ path ∈ files ∧ path ≠ importer := by
  rw [paths_withoutImporter, List.mem_eraseDups]
  simp [paths]

/-- Files are lost without the importer only if there is no other one. -/
theorem withoutImporter_internal_eq_unresolved_iff (nonempty : files ≠ []) (once : files.Nodup) :
    (internal files).withoutImporter importer = .unresolved ↔
      internal files = internal [importer] := by
  constructor
  · intro nowhere
    have only : ∀ other ∈ files, other = importer := by
      intro other member
      by_contra different
      have left := mem_paths_withoutImporter_internal_iff.mpr ⟨member, different⟩
      rw [nowhere] at left
      exact List.not_mem_nil left
    rw [eq_singleton_of_nodup nonempty once only]
  · intro same
    rw [same]
    apply withoutImporter_eq_unresolved
    intro path
    exact List.mem_singleton

end Resolution

namespace Import

open Resolution.Crate

variable {found : Import} {importer root : String} {index : FileIndex}

/-- An import names its crate's own directory, by an empty name directly below `crate`, and beside
this directory stands a file of its name. -/
structure NamesBeside (found : Import) (root : String) (index : FileIndex) : Prop where
  direct : pathSegments found.module = ["crate"]
  unnamed : "" ∈ found.names
  inner : root ≠ ""
  isFile : index.contains (root ++ ".rs") = true

/-- Outside of all crates a path from the root of one leads nowhere. -/
theorem lookUp_outside_crates (isUse : found.kind = .useDeclaration)
    (begins : (pathSegments found.module).head? = some "crate")
    (noRoot : ∀ directory, Path.IsAbove directory importer → ¬IsRoot index directory) :
    found.lookUp .rust importer index = .unresolved := by
  obtain ⟨rest, segments⟩ := List.head?_eq_some_iff.mp begins
  have notMod : found.kind ≠ .modDeclaration := by
    rw [isUse]
    decide
  simp only [lookUp, Resolution.Crate.resolve, notMod, if_false, segments, if_true,
    crateRoot?_eq_none_iff.mpr noRoot]

/-- What is found for a path from the root of a crate. -/
theorem lookUp_of_crate (isUse : found.kind = .useDeclaration)
    (begins : (pathSegments found.module).head? = some "crate")
    (isRoot : IsRootAbove index importer root) :
    ∃ files, found.lookUp .rust importer index = .internal files ∧ files ≠ [] ∧ files.Nodup ∧
      (∀ file ∈ files, Path.IsAbove root file ∨
        found.NamesBeside root index ∧ file = root ++ ".rs") ∧
      (found.NamesBeside root index → root ++ ".rs" ∈ files) := by
  obtain ⟨rest, segments⟩ := List.head?_eq_some_iff.mp begins
  have notMod : found.kind ≠ .modDeclaration := by
    rw [isUse]
    decide
  have pathNamed : ∀ name ∈ rest, name ≠ "" := by
    intro name member
    have within : name ∈ pathSegments found.module := by
      rw [segments]
      exact List.mem_cons_of_mem _ member
    exact ne_empty_of_mem_pathSegments within
  have someOnce : (filesWithin index root rest found.names).eraseDups ≠ [] := by
    obtain ⟨file, member⟩ :=
      List.exists_mem_of_ne_nil _ (filesWithin_ne_nil isRoot.isRoot pathNamed)
    exact List.ne_nil_of_mem (List.mem_eraseDups.mpr member)
  refine ⟨_, ?found, someOnce, nodup_eraseDups _, ?around, ?beside⟩
  case found =>
    simp only [lookUp, Resolution.Crate.resolve, notMod, if_false, segments, if_true,
      crateRoot?_eq_some_iff.mpr isRoot]
    exact Resolution.ofPaths_eq_internal_iff.mpr ⟨rfl, someOnce⟩
  case around =>
    intro file member
    by_cases top : root = ""
    · exact .inl (.inl top)
    · apply (isAbove_or_beside isRoot.isRoot pathNamed (List.mem_eraseDups.mp member)).imp_right
      rintro ⟨rfl, unnamed, rfl, isFile⟩
      exact ⟨⟨segments, unnamed, top, isFile⟩, rfl⟩
  case beside =>
    intro names
    have direct : rest = [] := (List.cons.inj (segments.symm.trans names.direct)).2
    apply List.mem_eraseDups.mpr
    exact mem_filesWithin_of_beside ⟨direct, names.unnamed, rfl, names.isFile⟩

/-- Where a path from the root of a crate leads.  Outside of all crates it leads nowhere.  Within
one it leads to files below the longest directory around the importer that holds a root file,
unless the one file that it leads to is the importer itself; and beside this directory exactly if
it names the directory itself and a file there has its name. -/
theorem resolve_below_crate_root (isUse : found.kind = .useDeclaration)
    (begins : (pathSegments found.module).head? = some "crate") (importer : String)
    (index : FileIndex) :
    ((∀ directory, Path.IsAbove directory importer → ¬IsRoot index directory) →
      found.resolve .rust importer index = .unresolved) ∧
    ∀ root, IsRootAbove index importer root →
      (∀ package, found.resolve .rust importer index ≠ .external package) ∧
      found.resolve .rust importer index ≠ .standard ∧
      (∀ path ∈ (found.resolve .rust importer index).paths,
        Path.IsAbove root path ∨ path = root ++ ".rs") ∧
      ((∀ path ∈ (found.resolve .rust importer index).paths, Path.IsAbove root path) ↔
        ¬found.NamesBeside root index) ∧
      (found.resolve .rust importer index = .unresolved ↔
        found.lookUp .rust importer index = .internal [importer]) := by
  constructor
  · intro noRoot
    rw [resolve_eq, lookUp_outside_crates isUse begins noRoot]
    rfl
  · intro root isRoot
    obtain ⟨files, isFound, nonempty, once, around, beside⟩ := lookUp_of_crate isUse begins isRoot
    rw [resolve_eq, isFound]
    simp only [Resolution.mem_paths_withoutImporter_internal_iff]
    refine ⟨fun _ => Resolution.withoutImporter_internal_ne_external _,
      Resolution.withoutImporter_internal_ne_standard, ?around, ⟨?inside, ?below⟩,
      Resolution.withoutImporter_internal_eq_unresolved_iff nonempty once⟩
    case around =>
      intro path kept
      exact (around path kept.1).imp_right And.right
    case inside =>
      intro below names
      have notAbove := not_isAbove_beside names.inner
      -- The importer is below the root, so that the file beside it is kept.
      have notImporter : root ++ ".rs" ≠ importer := fun same => notAbove (same ▸ isRoot.above)
      exact notAbove (below _ ⟨beside names, notImporter⟩)
    case below =>
      intro notBeside path kept
      exact (around path kept.1).resolve_right fun named => notBeside named.1

/-- A crate within the directory of another one. -/
def nestedCrates : FileIndex :=
  .ofPaths ["src/lib.rs", "src/graph.rs", "src/tool/main.rs", "src/tool/graph/mod.rs",
    "src/tool/graph/view.rs"] none

/-- A module, a name that is none, and everything. -/
def ofGraph : Import :=
  { Import.new "crate::graph" .useDeclaration 1 with names := ["view", "Graph", "*"] }

theorem resolve_below_nestedCrates :
    ofGraph.kind = .useDeclaration ∧ (pathSegments ofGraph.module).head? = some "crate" ∧
      IsRootAbove nestedCrates "src/tool/graph/view.rs" "src/tool" ∧
      ofGraph.resolve .rust "src/tool/graph/view.rs" nestedCrates =
        .internal ["src/tool/graph/mod.rs"] ∧
      Path.IsAbove "src/tool" "src/tool/graph/mod.rs" := by
  have begins : (pathSegments ofGraph.module).head? = some "crate" := by decide +kernel
  have isRoot : IsRootAbove nestedCrates "src/tool/graph/view.rs" "src/tool" :=
    crateRoot?_eq_some_iff.mp (by decide +kernel)
  have files : ofGraph.resolve .rust "src/tool/graph/view.rs" nestedCrates =
      .internal ["src/tool/graph/mod.rs"] := by
    decide +kernel
  have inner : ¬ofGraph.NamesBeside "src/tool" nestedCrates := fun names =>
    absurd names.unnamed (by decide)
  obtain ⟨-, within⟩ :=
    resolve_below_crate_root rfl begins "src/tool/graph/view.rs" nestedCrates
  obtain ⟨-, -, -, below, -⟩ := within "src/tool" isRoot
  exact ⟨rfl, begins, isRoot, files,
    below.mpr inner _ (by rw [files]; exact List.mem_singleton_self _)⟩

/-- A crate whose directory has a file of its name beside it. -/
def shadowedCrate : FileIndex :=
  .ofPaths ["src/tool.rs", "src/tool/a.rs", "src/tool/main.rs"] none

/-- Nothing directly below `crate`, as if it were a name. -/
def ofNothing : Import := { Import.new "crate" .useDeclaration 1 with names := [""] }

/-- An empty name leads out of the crate. -/
theorem resolve_beside_shadowedCrate :
    ofNothing.kind = .useDeclaration ∧ (pathSegments ofNothing.module).head? = some "crate" ∧
      IsRootAbove shadowedCrate "src/tool/a.rs" "src/tool" ∧
      ofNothing.resolve .rust "src/tool/a.rs" shadowedCrate = .internal ["src/tool.rs"] ∧
      ¬Path.IsAbove "src/tool" "src/tool.rs" :=
  ⟨rfl, by decide +kernel, crateRoot?_eq_some_iff.mp (by decide +kernel), by decide +kernel,
    not_isAbove_beside (by decide)⟩

end Import

end CodeAtlas
