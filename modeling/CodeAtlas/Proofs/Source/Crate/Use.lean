import CodeAtlas.Proofs.Resolution.Crate
import CodeAtlas.Source.Lexeme
import CodeAtlas.Source.Crate.Use

/-!
# Leaves of use trees and their imports

The leaves with the same path before their last name become one import, which leads where the
leaves lead one by one.  A leaf of one name is an import without names, though, and when leaves
below it are added to that import, it no longer leads where the leaf itself does.
-/

namespace CodeAtlas.Source.Crate

namespace UseLeaf

/-- The import of a leaf on its own. -/
def ownImport (line : Nat) (leaf : UseLeaf) : Import :=
  if leaf.parent.isEmpty then
    { Import.new (String.ofList leaf.name) .useDeclaration line with localName := leaf.localName }
  else
    { Import.new (String.ofList leaf.parent) .useDeclaration line with
      names := [String.ofList leaf.name], localName := leaf.localName }

/-- A leaf without a local name is a path, or stands directly below it. -/
def concerns (path : List Char) (leaf : UseLeaf) : Bool :=
  leaf.localName.isNone && (leaf.parent == path || leaf.parent.isEmpty && leaf.name == path)

/-- A leaf of one name comes before some leaves, and all of these stand below it. -/
def Heads (leaves : List UseLeaf) (leaf : UseLeaf) : Prop :=
  leaf.parent = [] ∧ ∃ below, leaves = leaf :: below ∧ below ≠ [] ∧
    ∀ other ∈ below, other.parent ≠ []

/-- Of the leaves that concern its path a leaf is the first, and all others stand below it. -/
def IsOvertaken (leaves : List UseLeaf) (leaf : UseLeaf) : Prop :=
  Heads (leaves.filter (concerns leaf.name)) leaf

end UseLeaf

/-- The imports of a path name it as their module and have no local name. -/
def isOf (path : List Char) (found : Import) : Bool :=
  found.module == String.ofList path && found.localName.isNone

/-- The import that collects names of a path. -/
def collecting (line : Nat) (path : List Char) (names : List String) : Import :=
  (Import.new (String.ofList path) .useDeclaration line).naming names

/-- The names of the leaves that stand below a path. -/
def namesBelow (leaves : List UseLeaf) : List String :=
  (leaves.filter fun leaf => !leaf.parent.isEmpty).map fun leaf => String.ofList leaf.name

/-- What follows from the leaves that concern a path: in the place of the first one an import
that collects all names below the path, and an import for each later one that is the path. -/
def grouped (line : Nat) (path : List Char) : List UseLeaf → List Import
  | [] => []
  | first :: later =>
      collecting line path (namesBelow (first :: later)) ::
        (later.filter (·.parent.isEmpty)).map (UseLeaf.ownImport line)

variable {line : Nat} {path : List Char} {imports : List Import} {leaf : UseLeaf}
  {leaves : List UseLeaf}

theorem UseLeaf.concerns_of_alone_iff (nonempty : path ≠ []) (alone : leaf.parent = []) :
    leaf.concerns path = true ↔ leaf.localName = none ∧ leaf.name = path := by
  simp [concerns, alone, nonempty]

theorem UseLeaf.concerns_of_below_iff (below : leaf.parent ≠ []) :
    leaf.concerns path = true ↔ leaf.localName = none ∧ leaf.parent = path := by
  simp [concerns, below]

theorem isOf_iff {found : Import} :
    isOf path found = true ↔ found.module = String.ofList path ∧ found.localName = none := by
  simp [isOf]

@[simp]
theorem isOf_naming (path : List Char) (found : Import) (names : List String) :
    isOf path (found.naming names) = isOf path found := rfl

/-! ## One leaf -/

theorem addName?_eq_none {name : String}
    (missing : addName? (String.ofList path) name imports = none) :
    imports.filter (isOf path) = [] := by
  induction imports with
  | nil => rfl
  | cons found rest induction =>
      rw [addName?] at missing
      split at missing
      next => cases missing
      next other =>
        rw [List.filter_cons_of_neg (by simpa [isOf] using other)]
        exact induction (Option.map_eq_none_iff.mp missing)

/-- A name is added to the first import of its path. -/
theorem exists_of_addName? {name : String} {changed : List Import}
    (added : addName? (String.ofList path) name imports = some changed) :
    ∃ before found after, imports = before ++ found :: after ∧
      changed = before ++ found.naming (found.names ++ [name]) :: after ∧
      isOf path found = true ∧ before.filter (isOf path) = [] := by
  induction imports generalizing changed with
  | nil => cases added
  | cons first rest induction =>
      rw [addName?] at added
      split at added
      next here =>
        cases added
        exact ⟨[], first, rest, rfl, rfl, by simpa [isOf] using here, rfl⟩
      next other =>
        obtain ⟨later, laterAdded, rfl⟩ := Option.map_eq_some_iff.mp added
        obtain ⟨before, found, after, rfl, rfl, isOfPath, apart⟩ := induction laterAdded
        refine ⟨first :: before, found, after, rfl, rfl, isOfPath, ?_⟩
        rw [List.filter_cons_of_neg (by simpa [isOf] using other), apart]

/-- A leaf is an import of its own, unless it has no local name and stands below a path that
another import without a local name is one of: then the first of these gets its name. -/
theorem addLeaf_cases (line : Nat) (imports : List Import) (leaf : UseLeaf) :
    (addLeaf line imports leaf = imports ++ [leaf.ownImport line] ∧
      (leaf.localName = none → leaf.parent ≠ [] → imports.filter (isOf leaf.parent) = [])) ∨
    (leaf.localName = none ∧ leaf.parent ≠ [] ∧ ∃ before found after,
      imports = before ++ found :: after ∧
      addLeaf line imports leaf =
        before ++ found.naming (found.names ++ [String.ofList leaf.name]) :: after ∧
      isOf leaf.parent found = true ∧ before.filter (isOf leaf.parent) = []) := by
  by_cases alone : leaf.parent = []
  · simp [addLeaf, UseLeaf.ownImport, alone]
  · cases localName : leaf.localName with
    | some _ => simp [addLeaf, UseLeaf.ownImport, alone, localName]
    | none =>
        have value : addLeaf line imports leaf =
            (addName? (String.ofList leaf.parent) (String.ofList leaf.name) imports).getD
              (imports ++ [leaf.ownImport line]) := by
          simp [addLeaf, UseLeaf.ownImport, alone, localName]
        rw [value]
        cases added : addName? (String.ofList leaf.parent) (String.ofList leaf.name) imports with
        | none => exact .inl ⟨rfl, fun _ _ => addName?_eq_none added⟩
        | some changed =>
            obtain ⟨before, found, after, rfl, rfl, isOfPath, apart⟩ := exists_of_addName? added
            exact .inr ⟨rfl, alone, before, found, after, rfl, rfl, isOfPath, apart⟩

theorem addLeaf_nil (line : Nat) (leaf : UseLeaf) :
    addLeaf line [] leaf = [leaf.ownImport line] := by
  rcases addLeaf_cases line [] leaf with ⟨added, -⟩ | ⟨-, -, _, _, _, imports, -⟩
  · exact added
  · simp at imports

theorem isOf_ownImport (nonempty : path ≠ []) (leaf : UseLeaf) :
    isOf path (leaf.ownImport line) = leaf.concerns path := by
  rw [Bool.eq_iff_iff]
  by_cases alone : leaf.parent = []
  · simp [isOf, UseLeaf.ownImport, UseLeaf.concerns, alone, Import.new, nonempty,
      String.ofList_inj, and_comm]
  · simp [isOf, UseLeaf.ownImport, UseLeaf.concerns, alone, Import.new, String.ofList_inj,
      and_comm]

theorem ownImport_of_alone (nonempty : path ≠ []) (concerns : leaf.concerns path = true)
    (alone : leaf.parent = []) : leaf.ownImport line = collecting line path [] := by
  obtain ⟨noLocalName, isName⟩ := (UseLeaf.concerns_of_alone_iff nonempty alone).mp concerns
  simp [UseLeaf.ownImport, alone, noLocalName, isName, collecting, Import.new, Import.naming]

theorem ownImport_of_below (concerns : leaf.concerns path = true) (below : leaf.parent ≠ []) :
    leaf.ownImport line = collecting line path [String.ofList leaf.name] := by
  obtain ⟨noLocalName, isParent⟩ := (UseLeaf.concerns_of_below_iff below).mp concerns
  simp [UseLeaf.ownImport, below, noLocalName, ← isParent, collecting, Import.new, Import.naming]

theorem filter_addLeaf_of_not_concerns (nonempty : path ≠ [])
    (apart : leaf.concerns path = false) :
    (addLeaf line imports leaf).filter (isOf path) = imports.filter (isOf path) := by
  rcases addLeaf_cases line imports leaf with
    ⟨added, -⟩ | ⟨noLocalName, below, before, found, after, rfl, added, isOfParent, -⟩
  · rw [added, List.filter_append, List.filter_singleton, isOf_ownImport nonempty, apart]
    exact List.append_nil _
  · have isOther : isOf path found ≠ true := by
      intro isOfPath
      have sameText := (isOf_iff.mp isOfParent).1.symm.trans (isOf_iff.mp isOfPath).1
      have concerns : leaf.concerns path = true :=
        (UseLeaf.concerns_of_below_iff below).mpr ⟨noLocalName, String.ofList_injective sameText⟩
      rw [apart] at concerns
      cases concerns
    rw [added, List.filter_append, List.filter_append, List.filter_cons_of_neg isOther,
      List.filter_cons_of_neg (by rwa [isOf_naming])]

theorem filter_addLeaf_of_alone (nonempty : path ≠ []) (concerns : leaf.concerns path = true)
    (alone : leaf.parent = []) :
    (addLeaf line imports leaf).filter (isOf path) =
      imports.filter (isOf path) ++ [leaf.ownImport line] := by
  rcases addLeaf_cases line imports leaf with ⟨added, -⟩ | ⟨-, below, -⟩
  · rw [added, List.filter_append, List.filter_singleton, isOf_ownImport nonempty, concerns]
    rfl
  · exact absurd alone below

/-- The first import of a path gets the names below it. -/
theorem filter_addLeaf_of_below (nonempty : path ≠ []) (concerns : leaf.concerns path = true)
    (below : leaf.parent ≠ []) :
    (addLeaf line imports leaf).filter (isOf path) =
      match imports.filter (isOf path) with
      | [] => [collecting line path [String.ofList leaf.name]]
      | found :: others =>
          found.naming (found.names ++ [String.ofList leaf.name]) :: others := by
  obtain ⟨noLocalName, rfl⟩ := (UseLeaf.concerns_of_below_iff below).mp concerns
  rcases addLeaf_cases line imports leaf with
    ⟨added, noneBefore⟩ | ⟨-, -, before, found, after, rfl, added, isOfParent, apart⟩
  · rw [added, List.filter_append, noneBefore noLocalName below, List.filter_singleton,
      isOf_ownImport nonempty, concerns, ownImport_of_below concerns below]
    rfl
  · rw [added, List.filter_append, List.filter_append, apart, List.filter_cons_of_pos isOfParent,
      List.filter_cons_of_pos (by rwa [isOf_naming])]
    rfl

/-! ## The imports of one path -/

theorem namesBelow_append (leaves later : List UseLeaf) :
    namesBelow (leaves ++ later) = namesBelow leaves ++ namesBelow later := by
  rw [namesBelow, List.filter_append, List.map_append]
  rfl

theorem grouped_cons_append (first : UseLeaf) (later others : List UseLeaf) :
    grouped line path (first :: later ++ others) =
      collecting line path (namesBelow (first :: later) ++ namesBelow others) ::
        ((later ++ others).filter (·.parent.isEmpty)).map (UseLeaf.ownImport line) := by
  rw [← namesBelow_append]
  rfl

/-- Of the imports of a use tree, those of a path follow from the leaves that concern it. -/
theorem filter_isOf_foldl (nonempty : path ≠ []) (leaves : List UseLeaf) :
    (leaves.foldl (addLeaf line) []).filter (isOf path) =
      grouped line path (leaves.filter (·.concerns path)) := by
  induction leaves using List.reverseRecOn with
  | nil => rfl
  | append_singleton leaves leaf induction =>
      rw [List.foldl_concat, List.filter_append, List.filter_singleton]
      cases concerns : leaf.concerns path with
      | false =>
          rw [filter_addLeaf_of_not_concerns nonempty concerns, induction]
          simp
      | true =>
          by_cases alone : leaf.parent = []
          · rw [filter_addLeaf_of_alone nonempty concerns alone, induction]
            have noName : namesBelow [leaf] = [] := by simp [namesBelow, alone]
            cases leaves.filter (·.concerns path) with
            | nil => simp [grouped, noName, ownImport_of_alone nonempty concerns alone]
            | cons first later =>
                simp only [cond_true, grouped_cons_append, noName, List.append_nil,
                  List.filter_append, List.map_append]
                simp [grouped, alone]
          · rw [filter_addLeaf_of_below nonempty concerns alone, induction]
            have name : namesBelow [leaf] = [String.ofList leaf.name] := by
              simp [namesBelow, alone]
            cases leaves.filter (·.concerns path) with
            | nil => simp [grouped, name]
            | cons first later =>
                simp only [cond_true, grouped_cons_append, name, List.filter_append]
                simp [grouped, collecting, Import.naming, alone]

/-! ## Imports of no path -/

/-- An import with a local name, or without a module, gets no further names. -/
def isApart (found : Import) : Bool := found.localName.isSome || found.module == ""

/-- A leaf with a local name, or without a name, concerns no path. -/
def UseLeaf.isApart (leaf : UseLeaf) : Bool :=
  leaf.localName.isSome || leaf.parent.isEmpty && leaf.name.isEmpty

theorem isApart_ownImport (leaf : UseLeaf) :
    isApart (leaf.ownImport line) = leaf.isApart := by
  rw [Bool.eq_iff_iff]
  by_cases alone : leaf.parent = []
  · simp [isApart, UseLeaf.ownImport, UseLeaf.isApart, alone, Import.new]
  · simp [isApart, UseLeaf.ownImport, UseLeaf.isApart, alone, Import.new]

theorem not_isApart_of_isOf (nonempty : path ≠ []) {found : Import}
    (isOfPath : isOf path found = true) : isApart found = false := by
  obtain ⟨module, noLocalName⟩ := isOf_iff.mp isOfPath
  simp [isApart, module, noLocalName, nonempty]

theorem exists_isOf_of_not_isApart {found : Import} (ofPath : isApart found = false) :
    ∃ path, path ≠ [] ∧ isOf path found = true := by
  obtain ⟨noLocalName, named⟩ : found.localName = none ∧ found.module ≠ "" := by
    simpa [isApart] using ofPath
  refine ⟨found.module.toList, fun empty => named (String.toList_eq_nil_iff.mp empty), ?_⟩
  exact isOf_iff.mpr ⟨String.ofList_toList.symm, noLocalName⟩

theorem exists_concerns_of_not_isApart (ofPath : leaf.isApart = false) :
    ∃ path, path ≠ [] ∧ leaf.concerns path = true := by
  obtain ⟨noLocalName, named⟩ : leaf.localName = none ∧ (leaf.parent = [] → leaf.name ≠ []) := by
    simpa [UseLeaf.isApart] using ofPath
  by_cases alone : leaf.parent = []
  · exact ⟨leaf.name, named alone,
      (UseLeaf.concerns_of_alone_iff (named alone) alone).mpr ⟨noLocalName, rfl⟩⟩
  · exact ⟨leaf.parent, alone, (UseLeaf.concerns_of_below_iff alone).mpr ⟨noLocalName, rfl⟩⟩

/-- Of the imports of a use tree, those of no path are the own ones of the leaves that concern
none. -/
theorem filter_isApart_foldl (leaves : List UseLeaf) :
    (leaves.foldl (addLeaf line) []).filter isApart =
      (leaves.filter (·.isApart)).map (UseLeaf.ownImport line) := by
  induction leaves using List.reverseRecOn with
  | nil => rfl
  | append_singleton leaves leaf induction =>
      rw [List.foldl_concat, List.filter_append, List.map_append, ← induction,
        List.filter_singleton]
      rcases addLeaf_cases line (leaves.foldl (addLeaf line) []) leaf with
        ⟨added, -⟩ | ⟨noLocalName, below, before, found, after, imports, added, isOfParent, -⟩
      · rw [added, List.filter_append, List.filter_singleton, isApart_ownImport]
        cases leaf.isApart <;> rfl
      · have isOfNone : isApart found = false := not_isApart_of_isOf below isOfParent
        have concerns : leaf.isApart = false := by simp [UseLeaf.isApart, noLocalName, below]
        have stillOfNone (names : List String) : ¬isApart (found.naming names) = true := by
          rw [Bool.not_eq_true]
          exact isOfNone
        rw [added, imports, concerns, List.filter_append, List.filter_append,
          List.filter_cons_of_neg (stillOfNone _), List.filter_cons_of_neg (by simp [isOfNone])]
        exact (List.append_nil _).symm

/-! ## Where the imports lead -/

section LeadsTo

variable {importer : String} {index : FileIndex} {place : Place}

theorem leadsTo_collecting_iff {names : List String} (nonempty : names ≠ []) :
    (collecting line path names).LeadsTo importer index place ↔
      ∃ name ∈ names, (collecting line path [name]).LeadsTo importer index place :=
  Import.leadsTo_naming_iff (by simp [Import.new]) nonempty

/-- An import with the names below a path leads where the leaves below it lead. -/
theorem leadsTo_collecting_namesBelow_iff (name : namesBelow leaves ≠ [])
    (concern : ∀ leaf ∈ leaves, leaf.concerns path = true) :
    (collecting line path (namesBelow leaves)).LeadsTo importer index place ↔
      ∃ leaf ∈ leaves, leaf.parent ≠ [] ∧ (leaf.ownImport line).LeadsTo importer index place := by
  rw [leadsTo_collecting_iff name]
  constructor
  · rintro ⟨name, member, leads⟩
    obtain ⟨leaf, ⟨leafMember, below⟩, rfl⟩ : ∃ leaf, (leaf ∈ leaves ∧ leaf.parent ≠ []) ∧
        String.ofList leaf.name = name := by
      simpa [namesBelow] using member
    rw [← ownImport_of_below (concern leaf leafMember) below] at leads
    exact ⟨leaf, leafMember, below, leads⟩
  · rintro ⟨leaf, member, below, leads⟩
    rw [ownImport_of_below (concern leaf member) below] at leads
    refine ⟨String.ofList leaf.name, ?_, leads⟩
    simpa [namesBelow] using ⟨leaf, ⟨member, below⟩, rfl⟩

theorem heads_cons_iff {first : UseLeaf} {later : List UseLeaf} :
    UseLeaf.Heads (first :: later) leaf ↔
      leaf = first ∧ first.parent = [] ∧ later ≠ [] ∧ ∀ other ∈ later, other.parent ≠ [] := by
  constructor
  · rintro ⟨alone, below, leaves, nonempty, allBelow⟩
    obtain ⟨rfl, rfl⟩ := List.cons.inj leaves
    exact ⟨rfl, alone, nonempty, allBelow⟩
  · rintro ⟨rfl, alone, nonempty, allBelow⟩
    exact ⟨alone, later, rfl, nonempty, allBelow⟩

/-- A first leaf of one name that does not head the others is there a second time, if any stands
below it. -/
theorem exists_alone_of_not_heads {first : UseLeaf} {later : List UseLeaf}
    (notHeads : ¬UseLeaf.Heads (first :: later) first) (alone : first.parent = [])
    (name : namesBelow (first :: later) ≠ []) : ∃ other ∈ later, other.parent = [] := by
  by_contra allBelow
  have laterBelow : ∀ other ∈ later, other.parent ≠ [] :=
    fun other member otherAlone => allBelow ⟨other, member, otherAlone⟩
  have notSingle : later ≠ [] := by
    rintro rfl
    exact name (by simp [namesBelow, alone])
  exact notHeads (heads_cons_iff.mpr ⟨rfl, alone, notSingle, laterBelow⟩)

theorem not_heads_of_namesBelow_eq_nil (noName : namesBelow leaves = []) (leaf : UseLeaf) :
    ¬UseLeaf.Heads leaves leaf := by
  rintro ⟨-, below, rfl, nonempty, allBelow⟩
  obtain ⟨other, member⟩ := List.exists_mem_of_ne_nil below nonempty
  have allAlone : leaf.parent = [] ∧ ∀ other ∈ below, other.parent = [] := by
    simpa [namesBelow] using noName
  exact allBelow other member (allAlone.2 other member)

theorem leadsTo_grouped_cons_iff {first : UseLeaf} {later : List UseLeaf} :
    (∃ found ∈ grouped line path (first :: later), found.LeadsTo importer index place) ↔
      (collecting line path (namesBelow (first :: later))).LeadsTo importer index place ∨
        ∃ leaf ∈ later, leaf.parent = [] ∧
          (leaf.ownImport line).LeadsTo importer index place := by
  simp [grouped, and_assoc]

/-- Leaves that are a path all keep their imports. -/
theorem leadsTo_grouped_iff_of_alone (nonempty : path ≠ [])
    (concern : ∀ leaf ∈ leaves, leaf.concerns path = true) (noName : namesBelow leaves = []) :
    (∃ found ∈ grouped line path leaves, found.LeadsTo importer index place) ↔
      ∃ leaf ∈ leaves, (leaf.ownImport line).LeadsTo importer index place := by
  cases leaves with
  | nil => simp [grouped]
  | cons first later =>
      have allAlone : ∀ leaf ∈ first :: later, leaf.parent = [] := by
        simpa [namesBelow] using noName
      have firstOwn : first.ownImport line = collecting line path [] :=
        ownImport_of_alone nonempty (concern first List.mem_cons_self)
          (allAlone first List.mem_cons_self)
      rw [leadsTo_grouped_cons_iff, noName, ← firstOwn]
      constructor
      · rintro (leads | ⟨leaf, member, -, leads⟩)
        · exact ⟨first, List.mem_cons_self, leads⟩
        · exact ⟨leaf, List.mem_cons_of_mem first member, leads⟩
      · rintro ⟨leaf, member, leads⟩
        rcases List.mem_cons.mp member with rfl | isLater
        · exact .inl leads
        · exact .inr ⟨leaf, isLater, allAlone leaf member, leads⟩

/-- With a name below the path, a first leaf that is the path keeps an import only if another one
is the path, too. -/
theorem leadsTo_grouped_iff_of_name (nonempty : path ≠ [])
    (concern : ∀ leaf ∈ leaves, leaf.concerns path = true) (name : namesBelow leaves ≠ []) :
    (∃ found ∈ grouped line path leaves, found.LeadsTo importer index place) ↔
      ∃ leaf ∈ leaves, ¬UseLeaf.Heads leaves leaf ∧
        (leaf.ownImport line).LeadsTo importer index place := by
  cases leaves with
  | nil => simp [grouped]
  | cons first later =>
      rw [leadsTo_grouped_cons_iff, leadsTo_collecting_namesBelow_iff name concern]
      constructor
      · rintro (⟨leaf, member, below, leads⟩ | ⟨leaf, member, alone, leads⟩)
        · exact ⟨leaf, member, fun heads => below heads.1, leads⟩
        · refine ⟨leaf, List.mem_cons_of_mem first member, ?_, leads⟩
          rw [heads_cons_iff]
          exact fun ⟨_, _, _, allBelow⟩ => allBelow leaf member alone
      · rintro ⟨leaf, member, notHeads, leads⟩
        by_cases alone : leaf.parent = []
        · rcases List.mem_cons.mp member with rfl | isLater
          · obtain ⟨other, otherMember, otherAlone⟩ :=
              exists_alone_of_not_heads notHeads alone name
            have otherConcerns := concern other (List.mem_cons_of_mem leaf otherMember)
            rw [ownImport_of_alone nonempty (concern leaf member) alone,
              ← ownImport_of_alone nonempty otherConcerns otherAlone] at leads
            exact .inr ⟨other, otherMember, otherAlone, leads⟩
          · exact .inr ⟨leaf, isLater, alone, leads⟩
        · exact .inl ⟨leaf, member, alone, leads⟩

/-- The imports that follow from leaves that concern a path lead where those leaves lead, save for
a first one that all others stand below. -/
theorem leadsTo_grouped_iff (nonempty : path ≠ [])
    (concern : ∀ leaf ∈ leaves, leaf.concerns path = true) :
    (∃ found ∈ grouped line path leaves, found.LeadsTo importer index place) ↔
      ∃ leaf ∈ leaves, ¬UseLeaf.Heads leaves leaf ∧
        (leaf.ownImport line).LeadsTo importer index place := by
  by_cases noName : namesBelow leaves = []
  · simpa only [not_heads_of_namesBelow_eq_nil noName, not_false_eq_true, true_and] using
      leadsTo_grouped_iff_of_alone nonempty concern noName
  · exact leadsTo_grouped_iff_of_name nonempty concern noName

/-- A leaf of one name is overtaken among the leaves that concern its path. -/
theorem isOvertaken_iff_heads (nonempty : path ≠ []) (concerns : leaf.concerns path = true) :
    UseLeaf.IsOvertaken leaves leaf ↔
      UseLeaf.Heads (leaves.filter (·.concerns path)) leaf := by
  by_cases alone : leaf.parent = []
  · obtain ⟨-, rfl⟩ := (UseLeaf.concerns_of_alone_iff nonempty alone).mp concerns
    rfl
  · exact iff_of_false (fun overtaken => alone overtaken.1) fun heads => alone heads.1

theorem not_isOvertaken_of_isApart (apart : leaf.isApart = true) :
    ¬UseLeaf.IsOvertaken leaves leaf := by
  rintro ⟨alone, below, concerning, nonempty, allBelow⟩
  have concern {other : UseLeaf} (member : other ∈ leaf :: below) :
      other.concerns leaf.name = true := by
    rw [← concerning] at member
    exact (List.mem_filter.mp member).2
  have noLocalName : leaf.localName = none := by
    have concerns := concern List.mem_cons_self
    simp only [UseLeaf.concerns, Bool.and_eq_true, Option.isNone_iff_eq_none] at concerns
    exact concerns.1
  have noName : leaf.name = [] := by
    simpa [UseLeaf.isApart, noLocalName, alone] using apart
  obtain ⟨other, member⟩ := List.exists_mem_of_ne_nil below nonempty
  have concerns := concern (List.mem_cons_of_mem leaf member)
  have otherBelow := allBelow other member
  simp [UseLeaf.concerns, noName, otherBelow] at concerns

theorem mem_of_isOvertaken (overtaken : UseLeaf.IsOvertaken leaves leaf) : leaf ∈ leaves := by
  obtain ⟨-, below, concerning, -, -⟩ := overtaken
  have member : leaf ∈ leaves.filter (·.concerns leaf.name) := by
    rw [concerning]
    exact List.mem_cons_self
  exact List.mem_of_mem_filter member

/-- The imports of a use tree lead where those of its leaves that are not overtaken lead. -/
theorem leadsTo_foldl_iff (leaves : List UseLeaf) :
    (∃ found ∈ leaves.foldl (addLeaf line) [], found.LeadsTo importer index place) ↔
      ∃ leaf ∈ leaves, ¬UseLeaf.IsOvertaken leaves leaf ∧
        (leaf.ownImport line).LeadsTo importer index place := by
  constructor
  · rintro ⟨found, member, leads⟩
    cases apart : isApart found with
    | true =>
        have own := List.mem_filter.mpr ⟨member, apart⟩
        rw [filter_isApart_foldl] at own
        obtain ⟨leaf, leafMember, rfl⟩ := List.mem_map.mp own
        obtain ⟨leafMember, leafApart⟩ := List.mem_filter.mp leafMember
        exact ⟨leaf, leafMember, not_isOvertaken_of_isApart leafApart, leads⟩
    | false =>
        obtain ⟨path, nonempty, isOfPath⟩ := exists_isOf_of_not_isApart apart
        have ofPath := List.mem_filter.mpr ⟨member, isOfPath⟩
        rw [filter_isOf_foldl nonempty] at ofPath
        obtain ⟨leaf, leafMember, notHeads, leads⟩ :=
          (leadsTo_grouped_iff nonempty fun _ => List.of_mem_filter).mp ⟨found, ofPath, leads⟩
        obtain ⟨leafMember, concerns⟩ := List.mem_filter.mp leafMember
        rw [← isOvertaken_iff_heads nonempty concerns] at notHeads
        exact ⟨leaf, leafMember, notHeads, leads⟩
  · rintro ⟨leaf, member, notOvertaken, leads⟩
    cases apart : leaf.isApart with
    | true =>
        have own := List.mem_map_of_mem (f := UseLeaf.ownImport line)
          (List.mem_filter.mpr ⟨member, apart⟩)
        rw [← filter_isApart_foldl] at own
        exact ⟨leaf.ownImport line, (List.mem_filter.mp own).1, leads⟩
    | false =>
        obtain ⟨path, nonempty, concerns⟩ := exists_concerns_of_not_isApart apart
        rw [isOvertaken_iff_heads nonempty concerns] at notOvertaken
        obtain ⟨found, foundMember, leads⟩ :=
          (leadsTo_grouped_iff nonempty fun _ => List.of_mem_filter).mpr
            ⟨leaf, List.mem_filter.mpr ⟨member, concerns⟩, notOvertaken, leads⟩
        rw [← filter_isOf_foldl nonempty] at foundMember
        exact ⟨found, (List.mem_filter.mp foundMember).1, leads⟩

/-- The imports of a use tree lead where its leaves lead, each grouped alone. -/
def LeadsLikeLeaves (importer : String) (index : FileIndex) (source : Array Char) (line : Nat)
    (tree : List Token) : Prop :=
  ∀ place, (∃ found ∈ useImports source line tree, found.LeadsTo importer index place) ↔
    ∃ found ∈ (useLeaves source tree).flatMap (addLeaf line []),
      found.LeadsTo importer index place

/-- The imports of a use tree lead nowhere else than its leaves, and they lead everywhere that
these lead exactly when each overtaken leaf leads where other leaves lead as well. -/
theorem leadsLikeLeaves_iff (importer : String) (index : FileIndex) (source : Array Char)
    (line : Nat) (tree : List Token) :
    (∀ found ∈ useImports source line tree, ∀ place, found.LeadsTo importer index place →
      ∃ leaf ∈ useLeaves source tree, (leaf.ownImport line).LeadsTo importer index place) ∧
    (LeadsLikeLeaves importer index source line tree ↔
      ∀ leaf, UseLeaf.IsOvertaken (useLeaves source tree) leaf →
        ∀ place, (leaf.ownImport line).LeadsTo importer index place →
          ∃ other ∈ useLeaves source tree,
            ¬UseLeaf.IsOvertaken (useLeaves source tree) other ∧
              (other.ownImport line).LeadsTo importer index place) := by
  have keeps (place : Place) :
      (∃ found ∈ useImports source line tree, found.LeadsTo importer index place) ↔
        ∃ leaf ∈ useLeaves source tree, ¬UseLeaf.IsOvertaken (useLeaves source tree) leaf ∧
          (leaf.ownImport line).LeadsTo importer index place :=
    leadsTo_foldl_iff (useLeaves source tree)
  constructor
  · intro found member place leads
    obtain ⟨leaf, leafMember, -, leads⟩ := (keeps place).mp ⟨found, member, leads⟩
    exact ⟨leaf, leafMember, leads⟩
  simp only [LeadsLikeLeaves, keeps, addLeaf_nil, List.mem_flatMap, List.mem_singleton]
  constructor
  · intro alike leaf overtaken place leads
    have isLeaf : leaf ∈ useLeaves source tree := mem_of_isOvertaken overtaken
    exact (alike place).mpr ⟨_, ⟨leaf, isLeaf, rfl⟩, leads⟩
  · intro others place
    constructor
    · rintro ⟨leaf, member, -, leads⟩
      exact ⟨_, ⟨leaf, member, rfl⟩, leads⟩
    · rintro ⟨_, ⟨leaf, member, rfl⟩, leads⟩
      by_cases overtaken : UseLeaf.IsOvertaken (useLeaves source tree) leaf
      · exact others leaf overtaken place leads
      · exact ⟨leaf, member, overtaken, leads⟩

end LeadsTo

/-- Two crates of a workspace. -/
def workspaceFiles : FileIndex :=
  .ofPaths ["app/src/main.rs", "helper/src/lib.rs", "helper/src/math.rs"] none

/-- A crate and, after it, a module in it. -/
def crateThenModule : List Char := "{helper, helper::math}".toList

/-- The file of the crate is lost, although its leaf leads there. -/
theorem crateThenModule_not_leadsLikeLeaves :
    useImports crateThenModule.toArray 1 (tokens crateThenModule) =
        [collecting 1 "helper".toList ["math"]] ∧
      (useLeaves crateThenModule.toArray (tokens crateThenModule)).flatMap (addLeaf 1 []) =
        [collecting 1 "helper".toList [], collecting 1 "helper".toList ["math"]] ∧
      (collecting 1 "helper".toList []).resolve .rust "app/src/main.rs" workspaceFiles =
        .internal ["helper/src/lib.rs"] ∧
      (collecting 1 "helper".toList ["math"]).resolve .rust "app/src/main.rs" workspaceFiles =
        .internal ["helper/src/math.rs"] ∧
      ¬LeadsLikeLeaves "app/src/main.rs" workspaceFiles crateThenModule.toArray 1
        (tokens crateThenModule) := by
  have together : useImports crateThenModule.toArray 1 (tokens crateThenModule) =
      [collecting 1 "helper".toList ["math"]] := by
    rw [tokens, Lexeme.readAll_eq_readUpTo]
    decide +kernel
  have alone : (useLeaves crateThenModule.toArray (tokens crateThenModule)).flatMap
      (addLeaf 1 []) =
        [collecting 1 "helper".toList [], collecting 1 "helper".toList ["math"]] := by
    rw [tokens, Lexeme.readAll_eq_readUpTo]
    decide +kernel
  have crate : (collecting 1 "helper".toList []).resolve .rust "app/src/main.rs" workspaceFiles =
      .internal ["helper/src/lib.rs"] := by decide +kernel
  have module : (collecting 1 "helper".toList ["math"]).resolve .rust "app/src/main.rs"
      workspaceFiles = .internal ["helper/src/math.rs"] := by decide +kernel
  refine ⟨together, alone, crate, module, ?_⟩
  intro alike
  have leadsThere : (collecting 1 "helper".toList []).LeadsTo "app/src/main.rs" workspaceFiles
      (.file "helper/src/lib.rs") := by
    rw [Import.LeadsTo, crate]
    exact List.mem_singleton_self _
  obtain ⟨found, member, leads⟩ := (alike (.file "helper/src/lib.rs")).mpr
    ⟨_, by rw [alone]; exact List.mem_cons_self, leadsThere⟩
  rw [together, List.mem_singleton] at member
  rw [member, Import.LeadsTo, module] at leads
  have samePath := List.mem_singleton.mp leads
  exact absurd samePath (by decide)

end CodeAtlas.Source.Crate
