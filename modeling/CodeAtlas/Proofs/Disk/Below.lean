import CodeAtlas.Proofs.Disk.Replace

/-!
# Names below a directory

A path may lead to a directory and go on with the names of entries.  What it is read as then
depends on the entries that stand under those names, and a directory that is made on the way
changes nothing: where there is none, nothing stands below it.
-/

namespace CodeAtlas.Disk

variable {disk before after made : Disk} {base reached names : List String}
  {path directory root name : String} {entry : DiskEntry} {content : ByteArray} {now : Instant}

/-! ## Trees stay trees -/

theorem location_injective {first second : List String}
    (firstNamed : ∀ name ∈ first, Path.IsName name)
    (secondNamed : ∀ name ∈ second, Path.IsName name) (same : location first = location second) :
    first = second := by
  by_cases top : first = []
  · rw [(location_eq_empty_iff firstNamed).mpr top] at same
    exact top.trans ((location_eq_empty_iff secondNamed).mp same.symm).symm
  · have notTop : second ≠ [] := by
      rintro rfl
      exact top ((location_eq_empty_iff firstNamed).mp same)
    have segments := congrArg Path.segments same
    rw [segments_location top firstNamed, segments_location notTop secondNamed] at segments
    exact List.reverse_injective segments

theorem entryAt?_removeEntry_of_ne {next : List String}
    (different : location next ≠ location reached) :
    (disk.removeEntry reached).entryAt? next = disk.entryAt? next := by
  rw [entryAt?, entryAt?, removeEntry, Keyed.get?_erase, if_neg different]

theorem location_cons_eq (name : String) (reached : List String) :
    location (name :: reached) = beginning reached ++ name := by
  rw [location_cons, beginning]
  by_cases top : reached = [] <;> simp [top]

/-- Where files take the place of files or of nothing, no directory appears. -/
theorem keepsDirectories_of_prepared (disk : Disk) (reached : List String) (name : String)
    (content : ByteArray) (now : Instant) :
    (disk.prepared reached name content now).KeepsDirectories disk where
  working := rfl
  directory := by
    intro other found
    cases other with
    | nil => rfl
    | cons last above =>
        rw [entryAt?_cons, get?_prepared] at found
        split at found
        next => cases found
        next => exact found

theorem keepsDirectories_of_replaced (disk : Disk) (reached : List String) (name : String)
    (content : ByteArray) (now : Instant) :
    (disk.replaced reached name content now).KeepsDirectories disk where
  working := rfl
  directory := by
    intro other found
    cases other with
    | nil => rfl
    | cons last above =>
        rw [entryAt?_cons, get?_replaced] at found
        split at found
        next => cases found
        next =>
          split at found
          next => cases found
          next => exact found

namespace IsTree

variable (tree : disk.IsTree)

include tree

/-- An entry that is not at the top is reached by names of entries. -/
theorem isEntryName (named : ∀ other ∈ reached, Path.IsName other)
    (found : disk.entryAt? reached = some entry) : ∀ name ∈ reached, Path.IsEntryName name := by
  by_cases top : reached = []
  · simp [top]
  · rw [entryAt?, if_neg (by simpa using top)] at found
    have proper := tree.named _ (Keyed.mem_keys_iff.mpr ⟨entry, found⟩)
    rw [segments_location top named] at proper
    exact fun name member => proper name (List.mem_reverse.mpr member)

/-- A tree stays one when an entry is put into a directory. -/
theorem setEntry (proper : Path.IsEntryName name) (named : ∀ other ∈ reached, Path.IsName other)
    (above : disk.entryAt? reached = some .directory)
    (free : disk.entryAt? (name :: reached) ≠ some .directory) (entry : DiskEntry) :
    (disk.setEntry (name :: reached) entry).IsTree := by
  have keeps : disk.KeepsDirectories (disk.setEntry (name :: reached) entry) :=
    keepsDirectories_setEntry free
  have namedAll : ∀ other ∈ name :: reached, Path.IsName other :=
    List.forall_mem_cons.mpr ⟨proper.1, named⟩
  have segments : Path.segments (location (name :: reached)) = (name :: reached).reverse :=
    segments_location (List.cons_ne_nil _ _) namedAll
  have isOld {place : String} (member : place ∈ (disk.setEntry (name :: reached) entry).entries.keys)
      (different : place ≠ location (name :: reached)) : place ∈ disk.entries.keys := by
    obtain ⟨found, isFound⟩ := Keyed.mem_keys_iff.mp member
    rw [Disk.setEntry, Keyed.get?_insert, if_neg different] at isFound
    exact Keyed.mem_keys_iff.mpr ⟨found, isFound⟩
  refine ⟨tree.working, fun place member => ?_, fun place member => ?_⟩
  · by_cases new : place = location (name :: reached)
    · rw [new, segments]
      intro other isName
      rcases List.mem_cons.mp (List.mem_reverse.mp isName) with rfl | outer
      · exact proper
      · exact tree.isEntryName named above other outer
    · exact tree.named place (isOld member new)
  · by_cases new : place = location (name :: reached)
    · rw [new, segments, List.reverse_reverse, List.drop_one, List.tail_cons]
      exact keeps.directory above
    · exact keeps.directory (tree.inDirectory place (isOld member new))

/-- A tree stays one when something that is no directory is taken out. -/
theorem removeEntry (notDirectory : disk.entryAt? reached ≠ some .directory) :
    (disk.removeEntry reached).IsTree := by
  have isOld {place : String} (member : place ∈ (disk.removeEntry reached).entries.keys) :
      place ∈ disk.entries.keys := by
    obtain ⟨found, isFound⟩ := Keyed.mem_keys_iff.mp member
    rw [Disk.removeEntry, Keyed.get?_erase] at isFound
    split at isFound
    next => cases isFound
    next => exact Keyed.mem_keys_iff.mpr ⟨found, isFound⟩
  exact ⟨tree.working, fun place member => tree.named place (isOld member), fun place member =>
    (keepsDirectories_removeEntry notDirectory).directory (tree.inDirectory place (isOld member))⟩

variable (named : ∀ other ∈ reached, Path.IsName other) (proper : Path.IsEntryName name)
  (above : disk.entryAt? reached = some .directory)

include named proper above

theorem prepared (beside : disk.entryAt? (temporary name :: reached) ≠ some .directory)
    (content : ByteArray) (now : Instant) : (disk.prepared reached name content now).IsTree :=
  tree.setEntry (isEntryName_temporary proper) named above beside _

theorem replaced (free : disk.IsFree reached name) (content : ByteArray) (now : Instant) :
    (disk.replaced reached name content now).IsTree := by
  have keeps := keepsDirectories_prepared content now free.beside
  have written : (disk.prepared reached name content now).entryAt? (temporary name :: reached) =
      some (.file content now) := entryAt?_setEntry (List.cons_ne_nil _ _)
  have isFile : (disk.prepared reached name content now).entryAt? (temporary name :: reached) ≠
      some .directory := by
    rw [written]
    simp
  have still := keepsDirectories_removeEntry isFile
  refine ((tree.prepared named proper above free.beside content now).removeEntry isFile).setEntry
    proper named (still.directory (keeps.directory above)) ?_ _
  rw [entryAt?_removeEntry_of_ne, entryAt?_prepared_of_ne (temporary_ne name).symm]
  · exact free.document
  · exact fun same => temporary_ne name (location_cons_injective same).symm

end IsTree

/-- A path to an entry below a root leads through the root, which is a directory. -/
theorem exists_locate_of_resolve (some : root ≠ "") (proper : Path.IsEntryName name)
    (located : disk.locate (Path.resolve root name) = .ok next) :
    ∃ base, disk.locate root = .ok base ∧ disk.entryAt? base = .some .directory := by
  have relative := Path.startsWith_entryName proper
  by_cases ends : root.endsWith "/" = true
  · have start : disk.startOf (Path.resolve root name) = disk.startOf root := by
      rw [startOf, startOf, Path.startsWith_resolve some relative]
    obtain ⟨front, rfl⟩ := Path.endsWith_slash_iff.mp ends
    have whole : Path.resolve (front ++ "/") name = front ++ "/" ++ name := by
      rw [Path.resolve, if_neg (by simp [relative]), if_neg some, if_pos ends]
    rw [locate, if_neg (by rw [whole]; simp), start, whole, Path.segments_append,
      Path.segments_entryName proper, List.foldlM_append, bind_eq_ok_iff] at located
    obtain ⟨base, leads, step⟩ := located
    obtain ⟨_, followed, -⟩ := bind_eq_ok_iff.mp step
    have isDirectory := (follow_eq_ok_iff.mp followed).1
    refine ⟨base, ?_, isDirectory⟩
    -- The root ends in a slash, so an empty segment follows, and that stays where it is.
    have stays : disk.follow base "" = .ok base := follow_eq_ok_iff.mpr ⟨isDirectory, rfl⟩
    have segments : Path.segments (front ++ "/") = Path.segments front ++ [""] := by
      rw [← String.append_empty (s := front ++ "/"), Path.segments_append, Path.segments_empty]
    rw [locate, if_neg some, segments, List.foldlM_append]
    exact bind_eq_ok_iff.mpr ⟨base, leads, bind_eq_ok_iff.mpr ⟨base, stays, rfl⟩⟩
  · obtain ⟨base, isLocated, isDirectory, -⟩ :=
      (locate_resolve_eq_ok_iff ⟨some, by simpa using ends⟩ proper).mp located
    exact ⟨base, isLocated, isDirectory⟩

/-! ## Where a path goes on with names -/

/-- A path leads to a place and goes on with names. -/
structure LeadsBelow (disk : Disk) (path : String) (base names : List String) : Prop where
  nonempty : path ≠ ""
  leads : ∃ front, Path.segments path = front ++ names ∧
    front.foldlM disk.follow (disk.startOf path) = .ok base

theorem leadsBelow_resolve (located : disk.locate root = .ok base)
    (proper : Path.IsEntryName name) : disk.LeadsBelow (Path.resolve root name) base [name] := by
  obtain ⟨front, leads, segments, nonempty⟩ :=
    exists_segments_resolve located (Path.startsWith_entryName proper)
  exact ⟨nonempty, front, segments.trans (by rw [Path.segments_entryName proper]), leads⟩

namespace LeadsBelow

variable (below : disk.LeadsBelow path base names)

include below

theorem resolve (plain : Path.IsPlain path) (proper : Path.IsEntryName name) :
    disk.LeadsBelow (Path.resolve path name) base (names ++ [name]) := by
  obtain ⟨front, segments, leads⟩ := below.leads
  refine ⟨(Path.isPlain_resolve proper).1, front, ?_, ?_⟩
  · rw [Path.resolve_entryName plain proper, Path.segments_append, segments,
      Path.segments_entryName proper, List.append_assoc]
  · rw [startOf, Path.startsWith_resolve plain.1 (Path.startsWith_entryName proper)]
    exact leads

theorem locate : disk.locate path = names.foldlM disk.follow base := by
  obtain ⟨front, segments, leads⟩ := below.leads
  rw [Disk.locate, if_neg below.nonempty, segments, List.foldlM_append, leads]
  rfl

theorem makeDirectories_eq_ok_iff (isDirectory : disk.entryAt? base = some .directory) :
    disk.makeDirectories path = .ok made ↔
      ∃ reached, names.foldlM makeStep (disk, base) = .ok (made, reached) := by
  obtain ⟨front, segments, leads⟩ := below.leads
  rw [Disk.makeDirectories_eq_ok_iff below.nonempty, segments, List.foldlM_append,
    foldlM_makeStep_of_follow leads isDirectory]
  rfl

end LeadsBelow

theorem KeepsDirectories.leadsBelow (keeps : before.KeepsDirectories after)
    (below : before.LeadsBelow path base names) : after.LeadsBelow path base names := by
  obtain ⟨front, segments, leads⟩ := below.leads
  have start : after.startOf path = before.startOf path := by
    rw [startOf, startOf, keeps.working]
  exact ⟨below.nonempty, front, segments, start ▸ keeps.foldlM_follow leads⟩

/-! ## Directories that are made -/

/-- What stands at a place is as before, or there is a directory where there was nothing. -/
def KeepsOrMakes (before after : Disk) (reached : List String) : Prop :=
  after.entryAt? reached = before.entryAt? reached ∨
    before.entryAt? reached = none ∧ after.entryAt? reached = some .directory

theorem Extends.keepsOrMakes (grown : before.Extends after) (reached : List String) :
    KeepsOrMakes before after reached := by
  cases old : before.entryAt? reached with
  | some entry => exact .inl ((grown.entryAt? old).trans old.symm)
  | none =>
      cases reached with
      | nil => cases old
      | cons name above =>
          cases new : after.entryAt? (name :: above) with
          | none => exact .inl (new.trans old.symm)
          | some entry =>
              rw [entryAt?_cons] at old new
              obtain kept | rfl := grown.added new
              · rw [old] at kept
                cases kept
              · exact .inr ⟨old, new⟩

/-- In a directory, the next one is made if nothing has its name. -/
theorem makeStep_entryName (proper : Path.IsEntryName name)
    (isDirectory : disk.entryAt? base = some .directory) : makeStep (disk, base) name =
      match disk.entryAt? (name :: base) with
      | some .directory => .ok (disk, name :: base)
      | some (.file _ _) => .error .notDirectory
      | none => .ok (disk.setEntry (name :: base) .directory, name :: base) := by
  rw [makeStep, (follow_entryName proper).mpr ⟨isDirectory, rfl⟩]
  rfl

/-- Directories that are made by names make up a tree, and nothing of another name has changed. -/
theorem foldlM_makeStep_names {next : List String} (tree : disk.IsTree)
    (named : ∀ name ∈ base, Path.IsName name) (isDirectory : disk.entryAt? base = some .directory)
    (proper : ∀ name ∈ names, Path.IsEntryName name)
    (success : names.foldlM makeStep (disk, base) = .ok (made, next)) :
    next = names.reverse ++ base ∧ made.IsTree ∧
      ∀ name reached, name ∉ names → (∀ other ∈ name :: reached, Path.IsName other) →
        made.entryAt? (name :: reached) = disk.entryAt? (name :: reached) := by
  induction names generalizing disk base with
  | nil =>
      cases success
      exact ⟨rfl, tree, fun _ _ _ _ => rfl⟩
  | cons segment rest induction =>
      obtain ⟨properFirst, properRest⟩ := List.forall_mem_cons.mp proper
      have namedAll : ∀ other ∈ segment :: base, Path.IsName other :=
        List.forall_mem_cons.mpr ⟨properFirst.1, named⟩
      rw [List.foldlM_cons, makeStep_entryName properFirst isDirectory] at success
      split at success
      next found =>
        obtain ⟨isNext, isTree, others⟩ := induction tree namedAll found properRest success
        exact ⟨isNext.trans (by simp), isTree, fun name reached absent =>
          others name reached fun member => absent (List.mem_cons_of_mem _ member)⟩
      next => cases success
      next absent =>
        have grown := tree.setEntry properFirst named isDirectory (by simp [absent]) .directory
        obtain ⟨isNext, isTree, others⟩ :=
          induction grown namedAll (entryAt?_setEntry (List.cons_ne_nil _ _)) properRest success
        refine ⟨isNext.trans (by simp), isTree, fun name reached missing isNamed => ?_⟩
        obtain ⟨notFirst, notLater⟩ := not_or.mp (List.mem_cons.not.mp missing)
        refine (others name reached notLater isNamed).trans (entryAt?_setEntry_of_ne fun same => ?_)
        exact notFirst (List.cons.inj (location_injective isNamed namedAll same)).1

/-- No file stands where directories are to be made. -/
def IsClear (disk : Disk) (base names : List String) : Prop :=
  ∀ front, front <+: names → ∀ content modified,
    disk.entryAt? (front.reverse ++ base) ≠ some (.file content modified)

theorem isClear_cons_iff : disk.IsClear base (name :: names) ↔
    (∀ content modified, disk.entryAt? base ≠ some (.file content modified)) ∧
      disk.IsClear (name :: base) names := by
  constructor
  · intro clear
    refine ⟨clear [] (List.nil_prefix ..), fun front isPrefix => ?_⟩
    simpa using clear (name :: front) (List.cons_prefix_cons.mpr ⟨rfl, isPrefix⟩)
  · rintro ⟨first, rest⟩ front isPrefix
    cases front with
    | nil => exact first
    | cons other front =>
        obtain ⟨rfl, shorter⟩ := List.cons_prefix_cons.mp isPrefix
        simpa using rest front shorter

/-- What is made is no file, and what is kept is not either. -/
theorem IsClear.of_keepsOrMakes (clear : before.IsClear base names)
    (kept : ∀ front, front <+: names → KeepsOrMakes before after (front.reverse ++ base)) :
    after.IsClear base names := by
  intro front isPrefix content modified isFile
  obtain same | ⟨-, directory⟩ := kept front isPrefix
  · exact clear front isPrefix content modified (same.symm.trans isFile)
  · rw [directory] at isFile
    cases isFile

/-- Directories can be made exactly where no file stands in the way. -/
theorem foldlM_makeStep_succeeds_iff (isDirectory : disk.entryAt? base = some .directory)
    (proper : ∀ name ∈ names, Path.IsEntryName name) :
    (∃ made next, names.foldlM makeStep (disk, base) = .ok (made, next)) ↔
      disk.IsClear base names := by
  induction names generalizing disk base with
  | nil =>
      refine iff_of_true ⟨disk, base, rfl⟩ fun front isPrefix content modified isFile => ?_
      rw [List.prefix_nil.mp isPrefix, List.reverse_nil, List.nil_append, isDirectory] at isFile
      cases isFile
  | cons name rest induction =>
      obtain ⟨properFirst, properRest⟩ := List.forall_mem_cons.mp proper
      rw [isClear_cons_iff, isDirectory, List.foldlM_cons,
        makeStep_entryName properFirst isDirectory]
      simp only [ne_eq, Option.some.injEq, reduceCtorEq, not_false_eq_true, implies_true, true_and]
      split
      next found => exact induction found properRest
      next content modified found =>
        refine iff_of_false ?_ fun clear => clear [] (List.nil_prefix ..) content modified found
        rintro ⟨made, next, success⟩
        cases success
      next absent =>
        refine (induction (entryAt?_setEntry (List.cons_ne_nil _ _)) properRest).trans ?_
        have grown := (extends_setEntry_directory absent).keepsOrMakes
        constructor
        · intro clear front isPrefix content modified isFile
          obtain same | ⟨nothing, -⟩ := grown (front.reverse ++ name :: base)
          · exact clear front isPrefix content modified (same.trans isFile)
          · rw [nothing] at isFile
            cases isFile
        · exact fun clear => clear.of_keepsOrMakes fun front _ => grown _

/-! ## What is read -/

/-- The text of what stands at a place. -/
def textOf : Option DiskEntry → Except DiskFault String
  | some (.file content _) =>
      match String.fromUTF8? content with
      | some text => .ok text
      | none => .error .notText
  | some .directory => .error .isDirectory
  | none => .error .missing

/-- The text that names lead to from a place. -/
def textBelow (disk : Disk) (base names : List String) : Except DiskFault String := do
  textOf (disk.entryAt? (← names.foldlM disk.follow base))

theorem LeadsBelow.readText_eq (below : disk.LeadsBelow path base names) :
    disk.readText path = disk.textBelow base names := by
  rw [readText, read, entry, below.locate, textBelow]
  cases names.foldlM disk.follow base with
  | error fault => rfl
  | ok reached =>
      simp only [bind, Except.bind]
      cases disk.entryAt? reached with
      | none => rfl
      | some found => cases found <;> rfl

theorem textBelow_cons (proper : Path.IsEntryName name) :
    disk.textBelow base (name :: names) =
      match disk.entryAt? base with
      | some .directory => disk.textBelow (name :: base) names
      | some (.file _ _) => .error .notDirectory
      | none => .error .missing := by
  obtain ⟨⟨notEmpty, _⟩, notPoint, notPoints⟩ := proper
  rw [textBelow, List.foldlM_cons, follow.eq_def]
  cases disk.entryAt? base with
  | none => rfl
  | some found =>
      cases found with
      | file content modified => rfl
      | directory =>
          simp only [notEmpty, notPoint, notPoints, or_self, if_false]
          rfl

/-- Where a tree has nothing, nothing is read below, whatever directories are made. -/
theorem IsTree.textBelow_eq_missing (tree : before.IsTree)
    (named : ∀ name ∈ base, Path.IsName name) (proper : ∀ name ∈ names, Path.IsEntryName name)
    (absent : before.entryAt? base = none)
    (kept : ∀ front, front <+: names → KeepsOrMakes before after (front.reverse ++ base))
    (same : after.entryAt? (names.reverse ++ base) = before.entryAt? (names.reverse ++ base)) :
    after.textBelow base names = .error .missing := by
  induction names generalizing base with
  | nil =>
      have none : after.entryAt? base = none := same.trans absent
      rw [textBelow, List.foldlM_nil]
      simp only [pure_bind, none]
      rfl
  | cons name rest induction =>
      obtain ⟨properFirst, properRest⟩ := List.forall_mem_cons.mp proper
      have namedAll : ∀ other ∈ name :: base, Path.IsName other :=
        List.forall_mem_cons.mpr ⟨properFirst.1, named⟩
      have absentBelow : before.entryAt? (name :: base) = none := by
        cases found : before.entryAt? (name :: base) with
        | none => rfl
        | some entry =>
            rw [tree.directory_above namedAll found] at absent
            cases absent
      rw [textBelow_cons properFirst]
      obtain nothing | ⟨-, directory⟩ := kept [] (List.nil_prefix ..)
      · rw [List.reverse_nil, List.nil_append, absent] at nothing
        rw [nothing]
      · rw [List.reverse_nil, List.nil_append] at directory
        rw [directory]
        refine induction namedAll properRest absentBelow (fun front isPrefix => ?_) ?_
        · simpa using kept (name :: front) (List.cons_prefix_cons.mpr ⟨rfl, isPrefix⟩)
        · simpa using same

/-- In a tree, what is read under names is as before if the entry is, whatever directories are made
on the way. -/
theorem IsTree.textBelow_eq (tree : before.IsTree) (named : ∀ name ∈ base, Path.IsName name)
    (proper : ∀ name ∈ names, Path.IsEntryName name)
    (kept : ∀ front, front <+: names → KeepsOrMakes before after (front.reverse ++ base))
    (same : after.entryAt? (names.reverse ++ base) = before.entryAt? (names.reverse ++ base)) :
    after.textBelow base names = before.textBelow base names := by
  induction names generalizing base with
  | nil =>
      rw [textBelow, textBelow, List.foldlM_nil, List.foldlM_nil]
      exact congrArg textOf same
  | cons name rest induction =>
      obtain ⟨properFirst, properRest⟩ := List.forall_mem_cons.mp proper
      obtain unchanged | ⟨absent, -⟩ := kept [] (List.nil_prefix ..)
      · rw [List.reverse_nil, List.nil_append] at unchanged
        rw [textBelow_cons properFirst, textBelow_cons properFirst, unchanged]
        split
        · refine induction (List.forall_mem_cons.mpr ⟨properFirst.1, named⟩) properRest
            (fun front isPrefix => ?_) ?_
          · simpa using kept (name :: front) (List.cons_prefix_cons.mpr ⟨rfl, isPrefix⟩)
          · simpa using same
        · rfl
        · rfl
      · rw [List.reverse_nil, List.nil_append] at absent
        rw [tree.textBelow_eq_missing named proper absent kept same]
        exact (tree.textBelow_eq_missing named proper absent (fun _ _ => .inl rfl) rfl).symm

end CodeAtlas.Disk
