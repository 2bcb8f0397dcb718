import CodeAtlas.Proofs.Disk.Below
import CodeAtlas.Proofs.Disk.Outside
import CodeAtlas.Proofs.Store.Document

/-!
# The documents of a project

The documents of a project stand in its data directory and in two directories inside of it, each
under a name of its own.  Writing one of them, whether or not it succeeds, leaves all others as
they are, and everything outside of the data directory; what could be written before can be
written afterwards.
-/

namespace CodeAtlas

namespace Store

theorem isEntryName_dataDirectoryName : Path.IsEntryName dataDirectoryName := by decide

/-- Where the data directory of a project stands. -/
def dataPlace (base : List String) : List String := dataDirectoryName :: base

/-- The directories that documents stand in. -/
inductive Shelf
  | data
  | features
  | plans
deriving DecidableEq, Repr

namespace Shelf

/-- The names that lead to a shelf from the root of a project. -/
def names : Shelf → List String
  | .data => [dataDirectoryName]
  | .features => [dataDirectoryName, "features"]
  | .plans => [dataDirectoryName, "plans"]

def path (store : Store) : Shelf → String
  | .data => store.dataDirectory
  | .features => Path.resolve store.dataDirectory "features"
  | .plans => Path.resolve store.dataDirectory "plans"

def place (shelf : Shelf) (base : List String) : List String := shelf.names.reverse ++ base

theorem isEntryName_of_mem {shelf : Shelf} : ∀ name ∈ shelf.names, Path.IsEntryName name := by
  cases shelf <;> decide

theorem isPlain_path (store : Store) (shelf : Shelf) : Path.IsPlain (shelf.path store) := by
  cases shelf <;> exact Path.isPlain_resolve (by decide)

end Shelf

/-- A document: the shelf that it stands in, and its name there. -/
@[ext] structure Document where
  shelf : Shelf
  name : String
  proper : Path.IsEntryName name
  ending : ".json".toList <:+ name.toList
deriving DecidableEq

namespace Document

def path (store : Store) (document : Document) : String :=
  Path.resolve (document.shelf.path store) document.name

/-- The names that lead to a document from the root of a project. -/
def names (document : Document) : List String := document.shelf.names ++ [document.name]

def place (document : Document) (base : List String) : List String :=
  document.name :: document.shelf.place base

/-- The place beside a document where its new text is written first. -/
def beside (document : Document) (base : List String) : List String :=
  Disk.temporary document.name :: document.shelf.place base

/-- The text of a document of the project at a place. -/
def text (document : Document) (disk : Disk) (base : List String) : Except DiskFault String :=
  disk.textBelow base document.names

/-- No directory stands in the way of a document, and no file in that of its shelf. -/
structure IsWritable (document : Document) (disk : Disk) (base : List String) : Prop where
  clear : disk.IsClear base document.shelf.names
  free : disk.IsFree (document.shelf.place base) document.name

def graph : Document := ⟨.data, "graph.json", isEntryName_graph, by decide⟩

def knowledge : Document := ⟨.data, "knowledge.json", isEntryName_knowledge, by decide⟩

variable {document other : Document} {base : List String}

/-- A document is no file beside one. -/
theorem ne_temporary (document other : Document) : document.name ≠ Disk.temporary other.name := by
  intro same
  obtain ⟨front, split⟩ := document.ending
  rw [same, Disk.temporary, String.toList_append] at split
  have last := congrArg List.getLast? split
  simp at last

theorem not_mem_names (document : Document) (shelf : Shelf) : document.name ∉ shelf.names := by
  have differs {name : String} (notDocument : ¬".json".toList <:+ name.toList) :
      document.name ≠ name := by
    rintro rfl
    exact notDocument document.ending
  cases shelf <;>
    simp only [Shelf.names, dataDirectoryName, List.mem_cons, List.not_mem_nil, or_false, not_or]
  · exact differs (by decide)
  · exact ⟨differs (by decide), differs (by decide)⟩
  · exact ⟨differs (by decide), differs (by decide)⟩

theorem temporary_not_mem_names (document : Document) (shelf : Shelf) :
    Disk.temporary document.name ∉ shelf.names := by
  have differs {name : String} (notBeside : ¬".tmp".toList <:+ name.toList) :
      Disk.temporary document.name ≠ name := by
    rintro rfl
    exact notBeside ⟨document.name.toList, by rw [Disk.temporary, String.toList_append]⟩
  cases shelf <;>
    simp only [Shelf.names, dataDirectoryName, List.mem_cons, List.not_mem_nil, or_false, not_or]
  · exact differs (by decide)
  · exact ⟨differs (by decide), differs (by decide)⟩
  · exact ⟨differs (by decide), differs (by decide)⟩

end Document

/-- The root of a project leads to a directory of a tree. -/
structure IsHome (store : Store) (disk : Disk) (base : List String) : Prop where
  located : disk.locate store.root = .ok base
  isDirectory : disk.entryAt? base = some .directory
  tree : disk.IsTree

/-- What a disk and a later one have in common if at most one document of a project was written in
between. -/
structure Touches (document : Document) (base : List String) (before after : Disk) : Prop where
  keeps : before.KeepsDirectories after
  tree : after.IsTree
  /-- At other places nothing but directories appears. -/
  kept : ∀ reached, (∀ name ∈ reached, Path.IsName name) → reached ≠ document.place base →
    reached ≠ document.beside base → Disk.KeepsOrMakes before after reached
  /-- No directory appears under any name but those of shelves. -/
  unmade : ∀ name reached, (∀ shelf : Shelf, name ∉ shelf.names) →
    (∀ other ∈ name :: reached, Path.IsName other) →
    after.entryAt? (name :: reached) = some .directory →
    before.entryAt? (name :: reached) = some .directory
  agrees : before.AgreesOutside after (dataPlace base)

namespace Shelf

theorem named_place {base : List String} (named : ∀ name ∈ base, Path.IsName name)
    (shelf : Shelf) : ∀ name ∈ shelf.place base, Path.IsName name := by
  intro name member
  rcases List.mem_append.mp member with inShelf | inBase
  · exact (isEntryName_of_mem name (List.mem_reverse.mp inShelf)).1
  · exact named name inBase

/-- What stands in a shelf lies below the data directory. -/
theorem isBelow_location_place (shelf : Shelf) {base : List String}
    (named : ∀ name ∈ base, Path.IsName name) (name : String) :
    Disk.isBelow (Disk.location (dataPlace base))
      (Disk.location (name :: shelf.place base)) = true := by
  have namedData : ∀ other ∈ dataPlace base, Path.IsName other :=
    List.forall_mem_cons.mpr ⟨isEntryName_dataDirectoryName.1, named⟩
  have inner (directory : String) : Disk.isBelow (Disk.location (dataPlace base))
      (Disk.location (name :: directory :: dataPlace base)) = true := by
    refine (Disk.isBelow_location_iff namedData).mpr ⟨directory ++ "/" ++ name, ?_⟩
    rw [Disk.location_cons_eq, Disk.beginning, if_neg (by simp), Disk.location_cons_eq]
    simp only [String.append_assoc]
  cases shelf with
  | data => exact Disk.isBelow_location_cons name (dataPlace base)
  | features => exact inner "features"
  | plans => exact inner "plans"

end Shelf

theorem Touches.step {document : Document} {base : List String} {before between after : Disk}
    (touches : Touches document base before between)
    (named : ∀ name ∈ base, Path.IsName name) (keeps : between.KeepsDirectories after)
    (back : after.KeepsDirectories between) (tree : after.IsTree)
    (same : ∀ place, place ≠ Disk.location (document.place base) →
      place ≠ Disk.location (document.beside base) →
      after.entries.get? place = between.entries.get? place) :
    Touches document base before after := by
  have namedPlace (name : String) (isName : Path.IsName name) :
      ∀ other ∈ name :: document.shelf.place base, Path.IsName other :=
    List.forall_mem_cons.mpr ⟨isName, Shelf.named_place named document.shelf⟩
  have elsewhere {reached : List String} (isNamed : ∀ name ∈ reached, Path.IsName name)
      (notPlace : reached ≠ document.place base) (notBeside : reached ≠ document.beside base) :
      after.entryAt? reached = between.entryAt? reached := by
    rw [Disk.entryAt?, Disk.entryAt?]
    split
    · rfl
    · refine same _ (fun equal => notPlace ?_) fun equal => notBeside ?_
      · exact Disk.location_injective isNamed (namedPlace _ document.proper.1) equal
      · exact Disk.location_injective isNamed
          (namedPlace _ (Disk.isEntryName_temporary document.proper).1) equal
  refine ⟨touches.keeps.trans keeps, tree, fun reached isNamed notPlace notBeside => ?_,
    fun name reached notShelf isNamed found =>
      touches.unmade name reached notShelf isNamed (back.directory found),
    touches.agrees.trans ⟨keeps, fun place outside => ?_⟩⟩
  · rw [Disk.KeepsOrMakes, elsewhere isNamed notPlace notBeside]
    exact touches.kept reached isNamed notPlace notBeside
  · have different (name : String) : place ≠ Disk.location (name :: document.shelf.place base) := by
      rintro rfl
      rw [document.shelf.isBelow_location_place named] at outside
      cases outside
    rw [Disk.fileAt?, Disk.fileAt?, same place (different _) (different _)]

namespace Touches

variable {document other : Document} {base : List String} {before after : Disk}
  (touches : Touches document base before after)

include touches

/-- A shelf is no document that was written. -/
theorem kept_shelf (named : ∀ name ∈ base, Path.IsName name) (shelf : Shelf) (front : List String)
    (isPrefix : front <+: shelf.names) :
    Disk.KeepsOrMakes before after (front.reverse ++ base) := by
  have differs {name : String} {inner : List String} (notShelf : name ∉ shelf.names) :
      front.reverse ++ base ≠ name :: (inner ++ base) := by
    intro same
    rw [← List.cons_append] at same
    have reversed := List.append_cancel_right same
    have member : name ∈ front := List.mem_reverse.mp (reversed ▸ List.mem_cons_self)
    exact notShelf (isPrefix.subset member)
  refine touches.kept _ (fun name member => ?_) (differs (document.not_mem_names shelf))
    (differs (document.temporary_not_mem_names shelf))
  rcases List.mem_append.mp member with inFront | inBase
  · exact (Shelf.isEntryName_of_mem name (isPrefix.subset (List.mem_reverse.mp inFront))).1
  · exact named name inBase

/-- What stands under a name that is neither that of a shelf nor that of the document stays. -/
theorem entryAt?_eq {name : String} {reached : List String}
    (isNamed : ∀ other ∈ name :: reached, Path.IsName other)
    (notShelf : ∀ shelf : Shelf, name ∉ shelf.names)
    (notPlace : name :: reached ≠ document.place base)
    (notBeside : name :: reached ≠ document.beside base) :
    after.entryAt? (name :: reached) = before.entryAt? (name :: reached) := by
  obtain same | ⟨absent, made⟩ := touches.kept _ isNamed notPlace notBeside
  · exact same
  · have old := touches.unmade _ _ notShelf isNamed made
    rw [absent] at old
    cases old

/-- What stands in a shelf is read as before if its entry stays. -/
theorem textBelow_eq (tree : before.IsTree) (named : ∀ name ∈ base, Path.IsName name)
    (shelf : Shelf) {name : String} (proper : Path.IsEntryName name)
    (same : after.entryAt? (name :: shelf.place base) =
      before.entryAt? (name :: shelf.place base)) :
    after.textBelow base (shelf.names ++ [name]) =
      before.textBelow base (shelf.names ++ [name]) := by
  have place : (shelf.names ++ [name]).reverse ++ base = name :: shelf.place base := by
    simp [Shelf.place]
  have allProper : ∀ other ∈ shelf.names ++ [name], Path.IsEntryName other :=
    List.forall_mem_append.mpr ⟨Shelf.isEntryName_of_mem, by simpa using proper⟩
  rw [← place] at same
  refine tree.textBelow_eq named allProper (fun front isPrefix => ?_) same
  rcases List.prefix_concat_iff.mp isPrefix with rfl | inShelf
  · exact .inl same
  · exact touches.kept_shelf named shelf front inShelf

/-- A document whose entry stays is read as before. -/
theorem text_eq (tree : before.IsTree) (named : ∀ name ∈ base, Path.IsName name)
    (same : after.entryAt? (other.place base) = before.entryAt? (other.place base)) :
    other.text after base = other.text before base :=
  touches.textBelow_eq tree named other.shelf other.proper same

theorem entryAt?_of_ne (named : ∀ name ∈ base, Path.IsName name) (different : other ≠ document) :
    after.entryAt? (other.place base) = before.entryAt? (other.place base) := by
  have isNamed : ∀ name ∈ other.place base, Path.IsName name :=
    List.forall_mem_cons.mpr ⟨other.proper.1, Shelf.named_place named other.shelf⟩
  refine touches.entryAt?_eq isNamed other.not_mem_names (fun same => ?_) fun same =>
    other.ne_temporary document (List.cons.inj same).1
  obtain ⟨sameName, samePlace⟩ := List.cons.inj same
  have sameNames := List.reverse_injective (List.append_cancel_right samePlace)
  refine different (Document.ext ?_ sameName)
  generalize other.shelf = first at sameNames
  generalize document.shelf = second at sameNames
  revert sameNames
  cases first <;> cases second <;> decide

/-- All other documents are read as before. -/
theorem text_of_ne (tree : before.IsTree) (named : ∀ name ∈ base, Path.IsName name)
    (other : Document) (different : other ≠ document) :
    other.text after base = other.text before base :=
  touches.text_eq tree named (touches.entryAt?_of_ne named different)

/-- What could be written can be written. -/
theorem isWritable (named : ∀ name ∈ base, Path.IsName name)
    (writable : other.IsWritable before base) : other.IsWritable after base := by
  have isNamed {name : String} (isName : Path.IsName name) :
      ∀ each ∈ name :: other.shelf.place base, Path.IsName each :=
    List.forall_mem_cons.mpr ⟨isName, Shelf.named_place named other.shelf⟩
  refine ⟨writable.clear.of_keepsOrMakes (touches.kept_shelf named other.shelf), ?_, ?_⟩
  · exact fun taken => writable.free.document
      (touches.unmade _ _ other.not_mem_names (isNamed other.proper.1) taken)
  · exact fun taken => writable.free.beside (touches.unmade _ _ other.temporary_not_mem_names
      (isNamed (Disk.isEntryName_temporary other.proper).1) taken)

end Touches

/-- What comes of writing a document: it holds the new text, or it could not be written and is read
as before. -/
structure Writes (document : Document) (base : List String) (value : Json) (before : Disk)
    (result : Except Problem Unit) (after : Disk) : Prop where
  touches : Touches document base before after
  outcome :
    result = .ok () ∧ document.IsWritable before base ∧
        document.text after base = .ok value.pretty ∨
      (∃ fault, result = .error (.inputOutput fault)) ∧ ¬document.IsWritable before base ∧
        document.text after base = document.text before base

namespace IsHome

variable {store : Store} {disk made after : Disk} {base : List String} {document : Document}
  {value : Json} {now : Instant}

section

variable (home : store.IsHome disk base)

include home

theorem named : ∀ name ∈ base, Path.IsName name := Disk.locate_names home.located home.tree.working

theorem keeps (keeps : disk.KeepsDirectories after) (tree : after.IsTree) :
    store.IsHome after base :=
  ⟨keeps.locate home.located, keeps.directory home.isDirectory, tree⟩

theorem leadsBelow_shelf (shelf : Shelf) :
    disk.LeadsBelow (shelf.path store) base shelf.names := by
  have data : disk.LeadsBelow store.dataDirectory base [dataDirectoryName] :=
    Disk.leadsBelow_resolve home.located isEntryName_dataDirectoryName
  cases shelf with
  | data => exact data
  | features => exact data.resolve store.isPlain_dataDirectory (by decide)
  | plans => exact data.resolve store.isPlain_dataDirectory (by decide)

theorem readText_eq (document : Document) :
    disk.readText (document.path store) = document.text disk base :=
  ((home.leadsBelow_shelf document.shelf).resolve (Shelf.isPlain_path store _)
    document.proper).readText_eq

/-- The directory of a shelf can be made exactly if no file stands in the way. -/
theorem makeDirectories_succeeds_iff (shelf : Shelf) :
    (∃ made, disk.makeDirectories (shelf.path store) = .ok made) ↔
      disk.IsClear base shelf.names := by
  rw [← Disk.foldlM_makeStep_succeeds_iff home.isDirectory Shelf.isEntryName_of_mem]
  exact exists_congr fun made =>
    (home.leadsBelow_shelf shelf).makeDirectories_eq_ok_iff home.isDirectory

/-- Making the directory of a shelf changes nothing under the names of documents. -/
theorem makes_shelf (shelf : Shelf) (success : disk.makeDirectories (shelf.path store) = .ok made) :
    disk.Makes made (shelf.path store) (shelf.place base) ∧ made.IsTree ∧
      ∀ name reached, name ∉ shelf.names → (∀ other ∈ name :: reached, Path.IsName other) →
        made.entryAt? (name :: reached) = disk.entryAt? (name :: reached) := by
  have below := home.leadsBelow_shelf shelf
  obtain ⟨reached, makes⟩ := Disk.exists_makes (Shelf.isPlain_path store shelf) success
  obtain ⟨next, steps⟩ := (below.makeDirectories_eq_ok_iff home.isDirectory).mp success
  obtain ⟨rfl, tree, others⟩ := Disk.foldlM_makeStep_names home.tree home.named
    home.isDirectory Shelf.isEntryName_of_mem steps
  have follows := (Disk.foldlM_makeStep_spec home.isDirectory steps).2.2.2
  have located := (makes.grown.keepsDirectories.leadsBelow below).locate.trans follows
  cases located.symm.trans makes.located
  exact ⟨makes, tree, others⟩

theorem touches_refl (document : Document) : Touches document base disk disk :=
  ⟨⟨rfl, id⟩, home.tree, fun _ _ _ _ => .inl rfl, fun _ _ _ _ => id, .refl disk _⟩

theorem touches_made (document : Document)
    (success : disk.makeDirectories (document.shelf.path store) = .ok made) :
    Touches document base disk made := by
  obtain ⟨makes, tree, others⟩ := home.makes_shelf document.shelf success
  refine ⟨makes.grown.keepsDirectories, tree,
    fun reached _ _ _ => makes.grown.keepsOrMakes reached,
    fun name reached notShelf isNamed found => ?_, makes.grown.agreesOutside _⟩
  rwa [others name reached (notShelf document.shelf) isNamed] at found

section

variable (document : Document)
  (success : disk.makeDirectories (document.shelf.path store) = .ok made)

include success

/-- The new text stands beside the document. -/
theorem touches_prepared (content : ByteArray) (now : Instant)
    (beside : made.entryAt? (document.beside base) ≠ some .directory) :
    Touches document base disk
      (made.prepared (document.shelf.place base) document.name content now) := by
  obtain ⟨makes, tree, -⟩ := home.makes_shelf document.shelf success
  have named := Shelf.named_place home.named document.shelf
  apply (home.touches_made document success).step home.named
  · exact Disk.keepsDirectories_prepared content now beside
  · exact Disk.keepsDirectories_of_prepared ..
  · exact tree.prepared named document.proper makes.isDirectory beside content now
  · exact fun place _ notBeside => (Disk.get?_prepared place).trans (if_neg notBeside)

/-- The new text has taken the place of the document. -/
theorem touches_replaced (content : ByteArray) (now : Instant)
    (free : made.IsFree (document.shelf.place base) document.name) :
    Touches document base disk
      (made.replaced (document.shelf.place base) document.name content now) := by
  obtain ⟨makes, tree, -⟩ := home.makes_shelf document.shelf success
  have named := Shelf.named_place home.named document.shelf
  apply (home.touches_made document success).step home.named
  · exact free.keepsDirectories
  · exact Disk.keepsDirectories_of_replaced ..
  · exact tree.replaced named document.proper makes.isDirectory free content now
  · exact fun place notPlace notBeside =>
      (Disk.get?_replaced place).trans ((if_neg notPlace).trans (if_neg notBeside))

/-- Making the directory leaves what stands in the place of the document and beside it. -/
theorem entryAt?_made :
    made.entryAt? (document.place base) = disk.entryAt? (document.place base) ∧
      made.entryAt? (document.beside base) = disk.entryAt? (document.beside base) := by
  obtain ⟨-, -, others⟩ := home.makes_shelf document.shelf success
  have named := Shelf.named_place home.named document.shelf
  constructor
  · exact others _ _ (document.not_mem_names document.shelf)
      (List.forall_mem_cons.mpr ⟨document.proper.1, named⟩)
  · exact others _ _ (document.temporary_not_mem_names document.shelf)
      (List.forall_mem_cons.mpr ⟨(Disk.isEntryName_temporary document.proper).1, named⟩)

end

/-- Writing a document writes that document or nothing. -/
theorem writes (document : Document) (value : Json) (now : Instant) :
    Writes document base value disk
      ((writeDocument (document.path store) value now).runOn disk).1
      ((writeDocument (document.path store) value now).runOn disk).2 := by
  have plain := Shelf.isPlain_path store document.shelf
  rw [writeDocument, DiskAction.runOn_perform, Document.path]
  cases success : disk.makeDirectories (document.shelf.path store) with
  | error fault =>
      have notClear : ¬disk.IsClear base document.shelf.names := by
        rw [← home.makeDirectories_succeeds_iff document.shelf, success]
        simp
      rw [Disk.runAll_documentSteps_error plain document.proper success]
      exact ⟨home.touches_refl document,
        .inr ⟨⟨_, rfl⟩, fun writable => notClear writable.clear, rfl⟩⟩
  | ok made =>
      have clear := (home.makeDirectories_succeeds_iff document.shelf).mp ⟨made, success⟩
      obtain ⟨makes, -, -⟩ := home.makes_shelf document.shelf success
      obtain ⟨sameDocument, sameBeside⟩ := home.entryAt?_made document success
      rw [Disk.runAll_documentSteps plain document.proper makes, ← Document.beside,
        ← Document.place]
      by_cases beside : made.entryAt? (document.beside base) = some .directory
      · rw [if_pos beside]
        have touches := home.touches_made document success
        refine ⟨touches, .inr ⟨⟨_, rfl⟩, fun writable => ?_, ?_⟩⟩
        · exact writable.free.beside (sameBeside ▸ beside)
        · exact touches.text_eq home.tree home.named sameDocument
      rw [if_neg beside]
      by_cases taken : made.entryAt? (document.place base) = some .directory
      · rw [if_pos taken]
        have touches := home.touches_prepared document success value.pretty.toUTF8 now beside
        refine ⟨touches, .inr ⟨⟨_, rfl⟩, fun writable => ?_, ?_⟩⟩
        · exact writable.free.document (sameDocument ▸ taken)
        · exact touches.text_eq home.tree home.named ((Disk.entryAt?_prepared_of_ne
            (Disk.temporary_ne document.name).symm).trans sameDocument)
      rw [if_neg taken]
      have free : made.IsFree (document.shelf.place base) document.name := ⟨taken, beside⟩
      have touches := home.touches_replaced document success value.pretty.toUTF8 now free
      refine ⟨touches, .inl ⟨rfl, ⟨clear, sameDocument ▸ taken, sameBeside ▸ beside⟩, ?_⟩⟩
      rw [← (home.keeps touches.keeps touches.tree).readText_eq document]
      exact Disk.readText_replaced plain document.proper makes.located makes.isDirectory free

theorem exists_writes (document : Document) (value : Json) (now : Instant) :
    ∃ result after, (writeDocument (document.path store) value now).runOn disk = (result, after) ∧
      Writes document base value disk result after := by
  have writes := home.writes document value now
  generalize (writeDocument (document.path store) value now).runOn disk = done at writes ⊢
  exact ⟨done.1, done.2, rfl, writes⟩

theorem canWrite_iff (document : Document) :
    CanWrite disk (document.path store) ↔ document.IsWritable disk base := by
  constructor
  · intro canWrite
    obtain ⟨result, after, written, writes⟩ := home.exists_writes document .null default
    have success := canWrite .null default
    rw [written] at success
    cases success
    obtain ⟨-, writable, -⟩ | ⟨failure, -⟩ := writes.outcome
    · exact writable
    · obtain ⟨_, isFault⟩ := failure
      cases isFault
  · intro writable value now
    obtain ⟨result, after, written, writes⟩ := home.exists_writes document value now
    obtain ⟨success, -⟩ | ⟨-, blocked, -⟩ := writes.outcome
    · exact (congrArg Prod.fst written).trans success
    · exact absurd writable blocked

end

end IsHome

end Store

end CodeAtlas
