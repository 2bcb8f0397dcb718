import CodeAtlas.Proofs.Store.Document

/-!
# The documents of the graph and of the knowledge

Both stand in the data directory.  Once the directory is there and nothing is in their way, each
step of replacing one of them leaves the other as it is, and leaves both free to be replaced again.
-/

namespace CodeAtlas

namespace DiskStep

variable {first second : List DiskStep} {disk after : Disk} {now : Instant}

theorem runAll_append (first second : List DiskStep) (disk : Disk) (now : Instant) :
    runAll now (first ++ second) disk =
      if (runAll now first disk).2 = none then runAll now second (runAll now first disk).1
      else runAll now first disk := by
  induction first generalizing disk with
  | nil => rfl
  | cons step rest hypothesis =>
      rw [List.cons_append, runAll, runAll]
      cases step.run disk now with
      | error fault => rfl
      | ok changed => exact hypothesis changed

theorem runAll_append_of_complete (complete : runAll now first disk = (after, none)) :
    runAll now (first ++ second) disk = runAll now second after := by
  rw [runAll_append, complete, if_pos rfl]

end DiskStep

namespace Store

variable {store : Store} {disk : Disk} {reached : List String} {name other text : String}
  {content : ByteArray} {now : Instant} {count : Nat}

/-- The names of the two documents. -/
def documentNames : List String := ["knowledge.json", "graph.json"]

theorem isEntryName_of_mem (member : name ∈ documentNames) : Path.IsEntryName name := by
  rcases List.mem_pair.mp member with rfl | rfl
  · exact isEntryName_knowledge
  · exact isEntryName_graph

theorem ne_temporary_of_mem (member : name ∈ documentNames) (otherMember : other ∈ documentNames) :
    other ≠ Disk.temporary name ∧ Disk.temporary other ≠ name := by
  rcases List.mem_pair.mp member with rfl | rfl <;>
    rcases List.mem_pair.mp otherMember with rfl | rfl <;> decide

theorem temporary_injective (same : Disk.temporary name = Disk.temporary other) : name = other := by
  have characters := congrArg String.toList same
  simp only [Disk.temporary, String.toList_append] at characters
  exact String.toList_inj.mp (List.append_cancel_right characters)

/-- The data directory stands at a place, and nothing is in the way of the two documents. -/
structure IsReady (store : Store) (disk : Disk) (reached : List String) : Prop where
  located : disk.locate store.dataDirectory = .ok reached
  isDirectory : disk.entryAt? reached = some .directory
  free : ∀ name ∈ documentNames, disk.IsFree reached name

namespace IsReady

variable (ready : store.IsReady disk reached)

include ready

theorem makes : disk.Makes disk store.dataDirectory reached :=
  Disk.makes_of_directory ready.located ready.isDirectory

theorem prepared (member : name ∈ documentNames) (content : ByteArray) (now : Instant) :
    store.IsReady (disk.prepared reached name content now) reached := by
  have keeps := Disk.keepsDirectories_prepared content now (ready.free name member).beside
  refine ⟨keeps.locate ready.located, keeps.directory ready.isDirectory,
    fun other otherMember => ⟨?_, ?_⟩⟩
  · rw [Disk.entryAt?_prepared_of_ne (ne_temporary_of_mem member otherMember).1]
    exact (ready.free other otherMember).document
  · by_cases same : Disk.temporary other = Disk.temporary name
    · rw [same, Disk.prepared, Disk.entryAt?_setEntry (by simp)]
      simp
    · rw [Disk.entryAt?_prepared_of_ne same]
      exact (ready.free other otherMember).beside

theorem replaced (member : name ∈ documentNames) (content : ByteArray) (now : Instant) :
    store.IsReady (disk.replaced reached name content now) reached := by
  have keeps : disk.KeepsDirectories (disk.replaced reached name content now) :=
    (ready.free name member).keepsDirectories
  refine ⟨keeps.locate ready.located, keeps.directory ready.isDirectory,
    fun other otherMember => ?_⟩
  by_cases same : other = name
  · exact same ▸ Disk.isFree_replaced
  · have apart := ne_temporary_of_mem member otherMember
    constructor
    · rw [Disk.entryAt?_replaced_of_ne same apart.1]
      exact (ready.free other otherMember).document
    · rw [Disk.entryAt?_replaced_of_ne apart.2 fun equal => same (temporary_injective equal)]
      exact (ready.free other otherMember).beside

/-- What stands beside a document is not read. -/
theorem readText_prepared (member : name ∈ documentNames) (otherMember : other ∈ documentNames) :
    (disk.prepared reached name content now).readText (Path.resolve store.dataDirectory other) =
      disk.readText (Path.resolve store.dataDirectory other) :=
  Disk.readText_resolve_congr store.isPlain_dataDirectory (isEntryName_of_mem otherMember)
    ready.located ready.isDirectory
    (Disk.keepsDirectories_prepared content now (ready.free name member).beside)
    (Disk.entryAt?_prepared_of_ne (ne_temporary_of_mem member otherMember).1)

theorem readText_replaced (member : name ∈ documentNames) :
    (disk.replaced reached name text.toUTF8 now).readText
      (Path.resolve store.dataDirectory name) = .ok text :=
  Disk.readText_replaced store.isPlain_dataDirectory (isEntryName_of_mem member) ready.located
    ready.isDirectory (ready.free name member)

theorem readText_replaced_of_ne (member : name ∈ documentNames) (otherMember : other ∈ documentNames)
    (different : other ≠ name) :
    (disk.replaced reached name content now).readText (Path.resolve store.dataDirectory other) =
      disk.readText (Path.resolve store.dataDirectory other) :=
  Disk.readText_replaced_of_ne store.isPlain_dataDirectory (isEntryName_of_mem otherMember)
    ready.located ready.isDirectory (ready.free name member) different
    (ne_temporary_of_mem member otherMember).1

/-- Replacing a document succeeds. -/
theorem runAll_documentSteps (member : name ∈ documentNames) :
    DiskStep.runAll now (documentSteps (Path.resolve store.dataDirectory name) text) disk =
      (disk.replaced reached name text.toUTF8 now, none) := by
  rw [Disk.runAll_documentSteps store.isPlain_dataDirectory (isEntryName_of_mem member)
    ready.makes, if_neg (ready.free name member).beside, if_neg (ready.free name member).document]

/-- The disk after the first steps of replacing a document. -/
theorem runAll_take_documentSteps (member : name ∈ documentNames) (count : Nat) :
    DiskStep.runAll now ((documentSteps (Path.resolve store.dataDirectory name) text).take count)
        disk =
      (if count ≤ 1 then disk
        else if count = 2 then disk.prepared reached name text.toUTF8 now
        else disk.replaced reached name text.toUTF8 now, none) := by
  have proper := isEntryName_of_mem member
  have plain := store.isPlain_dataDirectory
  have made : (DiskStep.makeDirectories (Path.parent (Path.resolve store.dataDirectory name))).run
      disk now = .ok disk := by
    rw [Path.parent_resolve plain proper, DiskStep.run, ready.makes.success]
  have written : (DiskStep.write (temporaryPath (Path.resolve store.dataDirectory name)) text).run
      disk now = .ok (disk.prepared reached name text.toUTF8 now) := by
    rw [Disk.temporaryPath_resolve plain proper, DiskStep.run,
      Disk.write_resolve plain (Disk.isEntryName_temporary proper) ready.located ready.isDirectory,
      if_neg (ready.free name member).beside]
    rfl
  obtain _ | _ | _ | count := count
  · rfl
  · rw [documentSteps, List.take_succ_cons, List.take_zero, DiskStep.runAll, made]
    rfl
  · rw [documentSteps, List.take_succ_cons, List.take_succ_cons, List.take_zero, DiskStep.runAll,
      made]
    dsimp only
    rw [DiskStep.runAll, written]
    rfl
  · rw [List.take_of_length_le (by simp [documentSteps]), ready.runAll_documentSteps member]
    simp

/-- After some of the steps of replacing a document it is as before or has been replaced, and the
other document is as before. -/
theorem exists_take_documentSteps (member : name ∈ documentNames) (text : String) (now : Instant)
    (count : Nat) :
    ∃ after, DiskStep.runAll now
        ((documentSteps (Path.resolve store.dataDirectory name) text).take count) disk =
          (after, none) ∧
      store.IsReady after reached ∧
      (∀ other ∈ documentNames, other ≠ name →
        after.readText (Path.resolve store.dataDirectory other) =
          disk.readText (Path.resolve store.dataDirectory other)) ∧
      (after.readText (Path.resolve store.dataDirectory name) =
          disk.readText (Path.resolve store.dataDirectory name) ∨
        after.readText (Path.resolve store.dataDirectory name) = .ok text) := by
  rw [ready.runAll_take_documentSteps member]
  split_ifs
  · exact ⟨disk, rfl, ready, fun _ _ _ => rfl, .inl rfl⟩
  · exact ⟨_, rfl, ready.prepared member _ now,
      fun other otherMember _ => ready.readText_prepared member otherMember,
      .inl (ready.readText_prepared member member)⟩
  · exact ⟨_, rfl, ready.replaced member _ now,
      fun other otherMember different => ready.readText_replaced_of_ne member otherMember different,
      .inr (ready.readText_replaced member)⟩

end IsReady

/-- Where a document is read and both can be written, both are ready. -/
theorem exists_isReady (member : name ∈ documentNames)
    (document : disk.readText (Path.resolve store.dataDirectory name) = .ok text)
    (writable : ∀ other ∈ documentNames, ∃ made reached,
      disk.Makes made store.dataDirectory reached ∧ made.IsFree reached other) :
    ∃ reached, store.IsReady disk reached := by
  obtain ⟨_, modified, located, -⟩ :=
    Disk.read_eq_ok_iff_entryAt?.mp (Disk.readText_eq_ok_iff_read.mp document)
  obtain ⟨reached, isLocated, isDirectory, rfl⟩ := (Disk.locate_resolve_eq_ok_iff
    store.isPlain_dataDirectory (isEntryName_of_mem member)).mp located
  refine ⟨reached, isLocated, isDirectory, fun other otherMember => ?_⟩
  obtain ⟨made, place, makes, free⟩ := writable other otherMember
  -- The directory is there, so making it changes nothing.
  have same := (Disk.makeDirectories_of_directory isLocated isDirectory).symm.trans makes.success
  cases same
  have samePlace := isLocated.symm.trans makes.located
  cases samePlace
  exact free

end Store

end CodeAtlas
