import CodeAtlas.Proofs.FileIndex
import CodeAtlas.Proofs.Path
import CodeAtlas.Proofs.Source.Java.ImportLine
import CodeAtlas.Proofs.Source.Java.Reading
import CodeAtlas.Resolution.Import

/-!
# Imports of classes

A class has one file, whose path ends with its name.  An import of the class or of a static member
leads to that file.  An import of all static members is looked up as one of all classes of a package
and so becomes an external package.
-/

namespace CodeAtlas

namespace Resolution

open Source.Java FileIndex

variable {index : FileIndex} {name member : List Char} {importer file : String}

/-- The file of a class is the only one whose path ends with its name, and there are no files of
Java in a directory of that name. -/
structure IsClassFile (index : FileIndex) (name : List Char) (file : String) : Prop where
  known : file ∈ index.paths
  ends : Ends (dottedPath (String.ofList name) ++ ".java") file
  only : ∀ other ∈ index.paths,
    Ends (dottedPath (String.ofList name) ++ ".java") other → other = file
  noPackage : ∀ other ∈ index.paths, other.endsWith ".java" = true →
    ¬Ends (dottedPath (String.ofList name)) (Path.parent other)

theorem dottedPath_append (plain : '.' ∉ member) :
    dottedPath (String.ofList (name ++ '.' :: member)) =
      dottedPath (String.ofList name) ++ "/" ++ String.ofList member := by
  have unchanged : Text.replaceChar '.' ['/'] member = member := by
    rw [Text.replaceChar]
    induction member with
    | nil => rfl
    | cons c member induction =>
        rw [List.mem_cons, not_or] at plain
        rw [List.flatMap_cons, if_neg (Ne.symm plain.1), induction plain.2]
        rfl
  apply String.toList_injective
  simp only [dottedPath, String.toList_append, String.toList_ofList]
  rw [Text.replaceChar, List.flatMap_append, List.flatMap_cons, if_pos rfl,
    show member.flatMap (fun c => if c = '.' then ['/'] else [c]) = member from unchanged]
  simp [Text.replaceChar]

theorem suffixMatch?_of_isClassFile (isClass : IsClassFile index name file) :
    index.suffixMatch? (dottedPath (String.ofList name) ++ ".java") = some file := by
  refine suffixMatch?_of_only ?_ isClass.known isClass.ends isClass.only
  rw [ne_eq, String.append_eq_empty_iff]
  rintro ⟨_, ending⟩
  exact absurd ending (by decide)

/-! ## Imports of the three forms -/

theorem mem_of_splitLast? {separator c : Char} {characters front back : List Char}
    (split : Text.splitLast? separator characters = some (front, back)) (within : c ∈ back) :
    c ∈ characters := by
  rw [Text.splitLast?, Text.splitOnce?] at split
  split at split
  next => cases split
  next =>
    cases split
    exact List.mem_reverse.mp (List.takeWhile_subset _ (List.mem_reverse.mp within))

variable {form : ImportForm} {number : Nat}

theorem module_importAt :
    (importAt number (form.captures name)).module = String.ofList (form.path name) := by
  cases form <;> rfl

theorem names_importAt_ofAllMembers :
    (importAt number (ImportForm.captures name .ofAllMembers)).names = ["*"] := rfl

/-- No part of a path is a star. -/
theorem names_importAt (single : form ≠ .ofAllMembers)
    (parts : ∀ c ∈ form.path name, isPathPart c = true) :
    (importAt number (form.captures name)).names.contains "*" = false := by
  have named : (importAt number (form.captures name)).names =
      [String.ofList (((Text.splitLast? '.' (form.path name)).map (·.2)).getD
        (form.path name))] := by
    cases form with
    | ofClass | ofMember => rfl
    | ofAllMembers => exact absurd rfl single
  have part : ∀ c ∈ ((Text.splitLast? '.' (form.path name)).map (·.2)).getD (form.path name),
      isPathPart c = true := by
    intro c member
    cases split : Text.splitLast? '.' (form.path name) with
    | none =>
        rw [split] at member
        exact parts c member
    | some halves =>
        rw [split] at member
        exact parts c (mem_of_splitLast? split member)
  have noStar : isPathPart '*' = false := by decide
  rw [named, ← Bool.not_eq_true, List.contains_iff_mem, List.mem_singleton]
  intro same
  have starred :
      '*' ∈ ((Text.splitLast? '.' (form.path name)).map (·.2)).getD (form.path name) := by
    rw [← String.toList_ofList (l := ((Text.splitLast? '.' (form.path name)).map (·.2)).getD _),
      ← same]
    exact List.mem_singleton_self _
  rw [part '*' starred] at noStar
  cases noStar

theorem resolveJava_of_single {found : Import} (foreign : Standard.isJava found.module = false)
    (single : found.names.contains "*" = false)
    (leads : (index.suffixMatch? (dottedPath found.module ++ ".java")).or
      (index.suffixMatch? (Path.parent (dottedPath found.module) ++ ".java")) = some file) :
    resolveJava found index = .internal [file] := by
  simp only [resolveJava, foreign, single, leads, Bool.false_eq_true, if_false]
  rfl

theorem resolveJava_importAt_ofClass (isClass : IsClassFile index name file)
    (parts : ∀ c ∈ ImportForm.path name .ofClass, isPathPart c = true)
    (foreign : Standard.isJava (String.ofList (ImportForm.path name .ofClass)) = false) :
    resolveJava (importAt number (ImportForm.captures name .ofClass)) index =
      .internal [file] := by
  refine resolveJava_of_single ?_ (names_importAt nofun parts) ?_
  · rw [module_importAt]
    exact foreign
  · rw [module_importAt, ImportForm.path, suffixMatch?_of_isClassFile isClass]
    rfl

theorem resolveJava_importAt_ofMember (isClass : IsClassFile index name file)
    (plain : '.' ∉ member)
    (parts : ∀ c ∈ ImportForm.path name (.ofMember member), isPathPart c = true)
    (foreign : Standard.isJava (String.ofList (ImportForm.path name (.ofMember member))) = false) :
    resolveJava (importAt number (ImportForm.captures name (.ofMember member))) index =
      .internal [file] := by
  have noSlash : '/' ∉ member := by
    intro within
    have part := parts '/' (List.mem_append_right _ (List.mem_cons_of_mem _ within))
    exact absurd part (by decide)
  -- The member has no file of its own.
  have noFile : index.suffixMatch?
      (dottedPath (String.ofList name) ++ "/" ++ String.ofList member ++ ".java") = none := by
    rw [suffixMatch?_eq_none_iff (by simp [String.append_eq_empty_iff])]
    intro other known ends
    have inside : Ends (dottedPath (String.ofList name) ++ "/" ++ (String.ofList member ++ ".java"))
        other := by
      rw [← String.append_assoc]
      exact ends
    refine isClass.noPackage other known ends.endsWith (inside.parent ?_)
    simpa using noSlash
  refine resolveJava_of_single ?_ (names_importAt nofun parts) ?_
  · rw [module_importAt]
    exact foreign
  · rw [module_importAt, ImportForm.path, dottedPath_append plain, noFile, Option.none_or,
      Path.parent_append (by simpa using noSlash), suffixMatch?_of_isClassFile isClass]

theorem resolveJava_importAt_ofAllMembers (isClass : IsClassFile index name file)
    (foreign : Standard.isJava (String.ofList name) = false) :
    resolveJava (importAt number (ImportForm.captures name .ofAllMembers)) index =
      .external (firstPieces '.' 3 (String.ofList name)) := by
  have noFile : (index.filesInSuffix (dottedPath (String.ofList name))).filter
      (·.endsWith ".java") = [] := by
    rw [List.filter_eq_nil_iff]
    intro other member source
    obtain ⟨known, within⟩ := List.mem_filter.mp member
    refine isClass.noPackage other known source ?_
    simpa [Ends] using within
  simp only [resolveJava, module_importAt, ImportForm.path, foreign, names_importAt_ofAllMembers,
    noFile, Bool.false_eq_true, if_false]
  rfl

/-! ## Lines with imports -/

/-- A name of a class, and of a member of it, as it may stand in an import. -/
structure IsDotted (name : List Char) (form : ImportForm) : Prop where
  nonempty : name ≠ []
  solid : ∀ c ∈ form.path name, Text.isBlank c = false ∧ c ≠ ';' ∧ c ≠ '*'
  simple : ∀ member, form = .ofMember member → '.' ∉ member

theorem withoutImporter_single (other : importer ≠ file) :
    withoutImporter importer (.internal [file]) = .internal [file] := by
  have kept : [file].filter (· != importer) = [file] :=
    List.filter_cons_of_pos (by simpa using Ne.symm other)
  rw [withoutImporter, kept]
  rfl

theorem resolve_importAt_ofAllMembers (foreign : Standard.isJava (String.ofList name) = false)
    (isClass : IsClassFile index name file) :
    (importAt number (ImportForm.captures name .ofAllMembers)).resolve .java importer index =
      .external (firstPieces '.' 3 (String.ofList name)) := by
  rw [Import.resolve, resolveJava_importAt_ofAllMembers isClass foreign]
  rfl

theorem resolve_importAt_iff (dotted : IsDotted name form)
    (foreign : Standard.isJava (String.ofList name) = false)
    (isClass : IsClassFile index name file) (other : importer ≠ file)
    (parts : ∀ c ∈ form.path name, isPathPart c = true) :
    (importAt number (form.captures name)).resolve .java importer index = .internal [file] ↔
      form ≠ .ofAllMembers ∧ Standard.isJava (String.ofList (form.path name)) = false := by
  cases form with
  | ofClass =>
      rw [Import.resolve, resolveJava_importAt_ofClass isClass parts foreign]
      exact iff_of_true (withoutImporter_single other) ⟨nofun, foreign⟩
  | ofMember member =>
      cases platform :
          Standard.isJava (String.ofList (ImportForm.path name (.ofMember member))) with
      | true =>
          have standard :
              resolveJava (importAt number (ImportForm.captures name (.ofMember member))) index =
                .standard := by
            rw [resolveJava, module_importAt, platform, if_pos rfl]
          rw [Import.resolve, standard]
          exact iff_of_false nofun nofun
      | false =>
          rw [Import.resolve, resolveJava_importAt_ofMember isClass (dotted.simple member rfl) parts
            platform]
          exact iff_of_true (withoutImporter_single other) ⟨nofun, rfl⟩
  | ofAllMembers =>
      rw [resolve_importAt_ofAllMembers foreign isClass]
      exact iff_of_false nofun fun single => single.1 rfl

/-- The import of a class or of a member leads to the file of the class exactly if its path consists
of words and is not one of the platform.  The import of all members becomes a package. -/
theorem resolve_importOfClass {text : String} {before after : List (List Char)}
    (dotted : IsDotted name form) (foreign : Standard.isJava (String.ofList name) = false)
    (isClass : IsClassFile index name file) (other : importer ≠ file)
    (split : Text.lines text.toList = before ++ form.line name :: after)
    (outside : (before.foldl Reading.take .start).braces.depth = 0) :
    ((importsOn (outline text) (before.length + 1)).map
        (Import.resolve .java importer index) = [.internal [file]] ↔
      form ≠ .ofAllMembers ∧ (∀ c ∈ form.path name, isPathPart c = true) ∧
        Standard.isJava (String.ofList (form.path name)) = false) ∧
    (form = .ofAllMembers → (∀ c ∈ name, isPathPart c = true) →
      (importsOn (outline text) (before.length + 1)).map (Import.resolve .java importer index) =
        [.external (firstPieces '.' 3 (String.ofList name))]) := by
  rw [importsOn_outline split outside]
  by_cases parts : ∀ c ∈ form.path name, isPathPart c = true
  · rw [ImportForm.match?_line dotted.nonempty parts]
    constructor
    · rw [and_iff_right parts]
      exact List.singleton_inj.trans (resolve_importAt_iff dotted foreign isClass other parts)
    · rintro rfl _
      exact congrArg ([·]) (resolve_importAt_ofAllMembers foreign isClass)
  · have noImport : importLine.match? (form.line name) = none := by
      refine Option.eq_none_iff_forall_ne_some.mpr fun result found => ?_
      exact parts (ImportForm.isPathPart_of_match?_line found dotted.solid)
    rw [noImport]
    constructor
    · constructor
      · nofun
      · rintro ⟨_, nameParts, _⟩
        exact absurd nameParts parts
    · rintro rfl nameParts
      exact absurd nameParts parts

/-- The importer, and a class with a static member. -/
def shopIndex : FileIndex :=
  .ofPaths ["src/App.java", "src/com/shop/core/Money.java"] none

theorem resolve_importOfClass_money :
    ((importsOn (outline "import static com.shop.core.Money.zero;\n") 1).map
        (Import.resolve .java "src/App.java" shopIndex) =
          [.internal ["src/com/shop/core/Money.java"]] ↔
      ImportForm.ofMember "zero".toList ≠ .ofAllMembers ∧
        (∀ c ∈ ImportForm.path "com.shop.core.Money".toList (.ofMember "zero".toList),
          isPathPart c = true) ∧
        Standard.isJava "com.shop.core.Money.zero" = false) ∧
    (ImportForm.ofMember "zero".toList = .ofAllMembers →
      (∀ c ∈ "com.shop.core.Money".toList, isPathPart c = true) →
      (importsOn (outline "import static com.shop.core.Money.zero;\n") 1).map
        (Import.resolve .java "src/App.java" shopIndex) = [.external "com.shop.core"]) := by
  have isClass : IsClassFile shopIndex "com.shop.core.Money".toList
      "src/com/shop/core/Money.java" := by
    constructor <;> decide +kernel
  have dotted : IsDotted "com.shop.core.Money".toList (.ofMember "zero".toList) := by
    refine ⟨by decide +kernel, List.all_iff_forall_prop.mp (by decide +kernel), ?_⟩
    rintro _ ⟨⟩
    decide +kernel
  have split : Text.lines "import static com.shop.core.Money.zero;\n".toList =
      [] ++ ImportForm.line "com.shop.core.Money".toList (.ofMember "zero".toList) :: [] := by
    decide +kernel
  exact resolve_importOfClass dotted (by decide +kernel) isClass (by decide +kernel) split rfl

/-- An import of all static members does not lead to the file of the class. -/
theorem importOfAllMembers_leaves_project :
    IsDotted "com.shop.core.Money".toList .ofAllMembers ∧
    Standard.isJava "com.shop.core.Money" = false ∧
    IsClassFile shopIndex "com.shop.core.Money".toList "src/com/shop/core/Money.java" ∧
    (importsOn (outline "import static com.shop.core.Money.*;\n") 1).map
      (Import.resolve .java "src/App.java" shopIndex) = [.external "com.shop.core"] := by
  have dotted : IsDotted "com.shop.core.Money".toList .ofAllMembers :=
    ⟨by decide +kernel, List.all_iff_forall_prop.mp (by decide +kernel), nofun⟩
  have foreign : Standard.isJava "com.shop.core.Money" = false := by decide +kernel
  have isClass : IsClassFile shopIndex "com.shop.core.Money".toList
      "src/com/shop/core/Money.java" := by
    constructor <;> decide +kernel
  have split : Text.lines "import static com.shop.core.Money.*;\n".toList =
      [] ++ ImportForm.line "com.shop.core.Money".toList .ofAllMembers :: [] := by
    decide +kernel
  refine ⟨dotted, foreign, isClass, ?_⟩
  have imports := importsOn_outline split rfl
  rw [ImportForm.match?_line dotted.nonempty (List.all_iff_forall_prop.mp (by decide +kernel))] at imports
  rw [show ([] : List (List Char)).length + 1 = 1 from rfl] at imports
  rw [imports]
  exact congrArg ([·]) (resolve_importAt_ofAllMembers foreign isClass)

end Resolution

end CodeAtlas
