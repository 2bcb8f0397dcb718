import CodeAtlas.FileIndex
import CodeAtlas.Proofs.Keyed
import CodeAtlas.Proofs.Path
import CodeAtlas.Proofs.Text.Utf8

/-!
# Lookups among the files of a project

Whatever a lookup yields is one of the files.  Of the files whose paths end with a given one at a
slash, the search for it yields the one with the fewest bytes, and of those the first in the order
of their bytes.  So neither the look at the file of that very path nor the order in which the files
came makes a difference.
-/

namespace CodeAtlas.FileIndex

variable {index : FileIndex} {path ending : String}

theorem mem_paths_iff : path ∈ index.paths ↔ index.contains path = true :=
  Keyed.contains_iff_mem_keys.symm

theorem contains_of_firstExisting? {candidates : List String}
    (found : index.firstExisting? candidates = some path) : index.contains path = true :=
  List.find?_some found

/-- A path is the first of some candidates that is a file. -/
def IsFirst (index : FileIndex) (candidates : List String) (path : String) : Prop :=
  ∃ before after, candidates = before ++ path :: after ∧ index.contains path = true ∧
    ∀ other ∈ before, index.contains other = false

theorem firstExisting?_eq_some_iff {candidates : List String} :
    index.firstExisting? candidates = some path ↔ index.IsFirst candidates path := by
  simp only [firstExisting?, List.find?_eq_some_iff_append, IsFirst, Bool.not_eq_true',
    ← exists_and_left]
  exact exists_congr fun before => exists_congr fun after => and_left_comm

theorem mem_of_best? {paths : List String} (found : best? paths = some path) : path ∈ paths := by
  induction paths generalizing path with
  | nil => cases found
  | cons first rest induction =>
      rw [best?] at found
      split at found
      next other better =>
        cases found
        split
        · exact List.mem_cons_of_mem _ (induction better)
        · exact List.mem_cons_self
      next =>
        cases found
        exact List.mem_cons_self

theorem contains_of_suffixMatch?
    (found : index.suffixMatch? ending = some path) : index.contains path = true := by
  unfold suffixMatch? at found
  split at found
  next => cases found
  next =>
    split at found
    next known =>
      cases found
      exact known
    next => exact mem_paths_iff.mp (List.mem_filter.mp (mem_of_best? found)).1

theorem contains_of_mem_filesIn {directory : String} (member : path ∈ index.filesIn directory) :
    index.contains path = true :=
  mem_paths_iff.mp (List.mem_filter.mp member).1

theorem contains_of_mem_filesInSuffix {directory : String}
    (member : path ∈ index.filesInSuffix directory) : index.contains path = true :=
  mem_paths_iff.mp (List.mem_filter.mp member).1

/-! ## Endings -/

/-- A path is a given one, or ends with it after a slash. -/
def Ends (ending path : String) : Prop := path = ending ∨ endsBelow ending path = true

instance : Decidable (Ends ending path) :=
  inferInstanceAs (Decidable (path = ending ∨ endsBelow ending path = true))

theorem ends_iff : Ends ending path ↔ path = ending ∨ ∃ front, path = front ++ "/" ++ ending := by
  rw [Ends, endsBelow, List.isSuffixOf_iff_suffix]
  refine or_congr_right ⟨?_, ?_⟩
  · rintro ⟨front, split⟩
    exact ⟨String.ofList front, String.toList_injective (by simp [← split])⟩
  · rintro ⟨front, rfl⟩
    exact ⟨front.toList, by simp⟩

theorem Ends.parent {name : String} (plain : '/' ∉ name.toList)
    (ends : Ends (ending ++ "/" ++ name) path) : Ends ending (Path.parent path) := by
  rw [ends_iff] at ends ⊢
  rcases ends with rfl | ⟨front, rfl⟩
  · exact .inl (Path.parent_append plain)
  · refine .inr ⟨front, ?_⟩
    have whole :
        front ++ "/" ++ (ending ++ "/" ++ name) = front ++ "/" ++ ending ++ "/" ++ name := by
      simp only [String.append_assoc]
    rw [whole, Path.parent_append plain]

theorem Ends.endsWith {suffix : String} (ends : Ends (ending ++ suffix) path) :
    path.endsWith suffix = true := by
  rw [String.endsWith_eq_endsWith_toSlice, String.Slice.endsWith_string_iff, String.copy_toSlice]
  rcases ends_iff.mp ends with rfl | ⟨front, rfl⟩
  · exact ⟨ending.toList, by simp⟩
  · exact ⟨(front ++ "/" ++ ending).toList, by simp⟩

theorem best?_isSome {paths : List String} (nonempty : paths ≠ []) :
    ∃ path, best? paths = some path := by
  cases paths with
  | nil => exact absurd rfl nonempty
  | cons first rest =>
      rw [best?]
      split
      · exact ⟨_, rfl⟩
      · exact ⟨first, rfl⟩

theorem ends_of_suffixMatch? (found : index.suffixMatch? ending = some path) :
    Ends ending path := by
  rw [suffixMatch?] at found
  split at found
  next => cases found
  next =>
    split at found
    next =>
      cases found
      exact .inl rfl
    next => exact .inr (List.mem_filter.mp (mem_of_best? found)).2

theorem suffixMatch?_eq_none_iff (some : ending ≠ "") :
    index.suffixMatch? ending = none ↔ ∀ path ∈ index.paths, ¬Ends ending path := by
  constructor
  · intro missing path known ends
    rw [suffixMatch?, if_neg some] at missing
    split at missing
    next => cases missing
    next absent =>
      rcases ends with rfl | below
      · exact absent (mem_paths_iff.mp known)
      · have member : path ∈ index.paths.filter (endsBelow ending) :=
          List.mem_filter.mpr ⟨known, below⟩
        obtain ⟨best, found⟩ := best?_isSome (List.ne_nil_of_mem member)
        rw [found] at missing
        cases missing
  · intro noneEnds
    refine Option.eq_none_iff_forall_ne_some.mpr fun path found => ?_
    exact noneEnds path (mem_paths_iff.mpr (contains_of_suffixMatch? found))
      (ends_of_suffixMatch? found)

/-- The only file whose path ends with a given one is the match. -/
theorem suffixMatch?_of_only (some : ending ≠ "") (known : path ∈ index.paths)
    (ends : Ends ending path) (only : ∀ other ∈ index.paths, Ends ending other → other = path) :
    index.suffixMatch? ending = .some path := by
  cases found : index.suffixMatch? ending with
  | none => exact absurd ends ((suffixMatch?_eq_none_iff some).mp found path known)
  | some other =>
      rw [only other (mem_paths_iff.mpr (contains_of_suffixMatch? found))
        (ends_of_suffixMatch? found)]

/-! ## The best match of an ending -/

section Match

open Text

variable {paths : List String} {other third : String}

/-- One path is no worse a match than another: it has fewer bytes, or as many and is not greater
byte by byte. -/
def IsNoWorse (path other : String) : Prop :=
  (bytes path).length < (bytes other).length ∨
    (bytes path).length = (bytes other).length ∧ bytes path ≤ bytes other

theorem isNoWorse_iff : IsNoWorse path other ↔
    path.utf8ByteSize < other.utf8ByteSize ∨
      path.utf8ByteSize = other.utf8ByteSize ∧ path ≤ other := by
  have order : bytes path ≤ bytes other ↔ path ≤ other := by
    rw [← List.not_lt, ← String.not_lt, lt_iff_bytes_lt]
  rw [IsNoWorse, order]
  rfl

theorem IsNoWorse.refl (path : String) : IsNoWorse path path :=
  isNoWorse_iff.mpr (.inr ⟨rfl, String.le_refl path⟩)

theorem IsNoWorse.trans (first : IsNoWorse path other) (second : IsNoWorse other third) :
    IsNoWorse path third := by
  rw [isNoWorse_iff] at *
  rcases first with shorter | ⟨first, before⟩ <;> rcases second with alsoShorter | ⟨second, after⟩
  · exact .inl (by omega)
  · exact .inl (by omega)
  · exact .inl (by omega)
  · exact .inr ⟨first.trans second, String.le_trans before after⟩

theorem IsNoWorse.antisymm (first : IsNoWorse path other) (second : IsNoWorse other path) :
    path = other := by
  rw [isNoWorse_iff] at *
  rcases first with shorter | ⟨first, before⟩ <;> rcases second with alsoShorter | ⟨second, after⟩
  · omega
  · omega
  · omega
  · exact String.le_antisymm before after

theorem isNoWorse_of_isBetter (better : isBetter path other = true) : IsNoWorse path other := by
  rw [isBetter, Bool.or_eq_true, Bool.and_eq_true, decide_eq_true_eq, decide_eq_true_eq,
    decide_eq_true_eq] at better
  refine isNoWorse_iff.mpr (better.imp_right fun ⟨same, less⟩ => ⟨same, ?_⟩)
  exact String.not_lt.mp (String.lt_asymm less)

theorem isNoWorse_of_not_isBetter (noBetter : ¬isBetter path other = true) :
    IsNoWorse other path := by
  rw [isBetter, Bool.or_eq_true, Bool.and_eq_true, decide_eq_true_eq, decide_eq_true_eq,
    decide_eq_true_eq, not_or, not_and, String.not_lt] at noBetter
  rcases Nat.lt_or_eq_of_le (Nat.not_lt.mp noBetter.1) with shorter | same
  · exact isNoWorse_iff.mpr (.inl shorter)
  · exact isNoWorse_iff.mpr (.inr ⟨same, noBetter.2 same.symm⟩)

/-- The best of some paths is no worse than any. -/
theorem isNoWorse_of_best? (found : best? paths = some path) (member : other ∈ paths) :
    IsNoWorse path other := by
  induction paths generalizing path with
  | nil => cases member
  | cons first rest induction =>
      rw [best?] at found
      cases later : best? rest with
      | none =>
          have alone : rest = [] := by
            by_contra some
            obtain ⟨best, exists_best⟩ := best?_isSome some
            rw [later] at exists_best
            cases exists_best
          subst alone
          cases found
          rw [List.mem_singleton.mp member]
          exact .refl _
      | some best =>
          rw [later] at found
          dsimp only at found
          split at found
          next better =>
            cases found
            rcases List.mem_cons.mp member with rfl | member
            · exact isNoWorse_of_isBetter better
            · exact induction later member
          next noBetter =>
            cases found
            rcases List.mem_cons.mp member with rfl | member
            · exact .refl _
            · exact (isNoWorse_of_not_isBetter noBetter).trans (induction later member)

/-- The answer that some paths have for an ending: the best of those that end with it, and none
where there are none or nothing is asked for. -/
def IsAnswer (paths : List String) (ending : String) : Option String → Prop
  | some path => ending ≠ "" ∧ path ∈ paths ∧ Ends ending path ∧
      ∀ other ∈ paths, Ends ending other → IsNoWorse path other
  | none => ending = "" ∨ ∀ path ∈ paths, ¬Ends ending path

/-- There is one answer. -/
theorem IsAnswer.unique {first second : Option String} (isFirst : IsAnswer paths ending first)
    (isSecond : IsAnswer paths ending second) : first = second := by
  match first, second with
  | none, none => rfl
  | none, some path =>
      obtain ⟨some, known, ends, _⟩ := isSecond
      exact (isFirst.elim some fun missing => missing path known ends).elim
  | some path, none =>
      obtain ⟨some, known, ends, _⟩ := isFirst
      exact (isSecond.elim some fun missing => missing path known ends).elim
  | some path, some other =>
      obtain ⟨_, known, ends, best⟩ := isFirst
      obtain ⟨_, otherKnown, otherEnds, otherBest⟩ := isSecond
      exact congrArg some ((best other otherKnown otherEnds).antisymm (otherBest path known ends))

theorem IsAnswer.congr {others : List String} {answer : Option String}
    (same : ∀ path, path ∈ paths ↔ path ∈ others) (isAnswer : IsAnswer paths ending answer) :
    IsAnswer others ending answer := by
  cases answer with
  | none =>
      exact isAnswer.imp_right fun missing path member => missing path ((same path).mpr member)
  | some path =>
      obtain ⟨some, known, ends, best⟩ := isAnswer
      exact ⟨some, (same path).mp known, ends,
        fun other member => best other ((same other).mpr member)⟩

/-- A path that goes on to an ending after a slash is longer than it. -/
theorem Ends.isNoWorse (ends : Ends ending path) : IsNoWorse ending path := by
  rcases ends_iff.mp ends with rfl | ⟨front, rfl⟩
  · exact .refl _
  · refine isNoWorse_iff.mpr (.inl ?_)
    have slash : ("/" : String).utf8ByteSize = 1 := rfl
    rw [String.utf8ByteSize_append, String.utf8ByteSize_append, slash]
    omega

theorem isAnswer_suffixMatch? (index : FileIndex) (ending : String) :
    IsAnswer index.paths ending (index.suffixMatch? ending) := by
  cases found : index.suffixMatch? ending with
  | none =>
      by_cases nothing : ending = ""
      · exact .inl nothing
      · exact .inr ((suffixMatch?_eq_none_iff nothing).mp found)
  | some path =>
      have some : ending ≠ "" := by
        rintro rfl
        rw [suffixMatch?, if_pos rfl] at found
        cases found
      refine ⟨some, mem_paths_iff.mpr (contains_of_suffixMatch? found),
        ends_of_suffixMatch? found, fun other known ends => ?_⟩
      rw [suffixMatch?, if_neg some] at found
      split at found
      next =>
        cases found
        exact ends.isNoWorse
      next absent =>
        refine isNoWorse_of_best? found (List.mem_filter.mpr ⟨known, ?_⟩)
        exact ends.resolve_left fun same => absent (mem_paths_iff.mp (same ▸ known))

/-- The search without a look at the file of that very path. -/
def scan? (index : FileIndex) (ending : String) : Option String :=
  if ending = "" then none else best? (index.paths.filter fun path => Ends ending path)

theorem isAnswer_scan? (index : FileIndex) (ending : String) :
    IsAnswer index.paths ending (index.scan? ending) := by
  by_cases nothing : ending = ""
  · rw [scan?, if_pos nothing]
    exact .inl nothing
  · rw [scan?, if_neg nothing]
    cases found : best? (index.paths.filter fun path => Ends ending path) with
    | none =>
        refine .inr fun path known ends => ?_
        have member : path ∈ index.paths.filter fun path => Ends ending path :=
          List.mem_filter.mpr ⟨known, decide_eq_true ends⟩
        obtain ⟨best, isBest⟩ := best?_isSome (List.ne_nil_of_mem member)
        rw [found] at isBest
        cases isBest
    | some path =>
        obtain ⟨known, ends⟩ := List.mem_filter.mp (mem_of_best? found)
        refine ⟨nothing, known, of_decide_eq_true ends, fun other otherKnown otherEnds => ?_⟩
        exact isNoWorse_of_best? found
          (List.mem_filter.mpr ⟨otherKnown, decide_eq_true otherEnds⟩)

theorem mem_paths_ofPaths {goModule : Option String} :
    path ∈ (ofPaths paths goModule).paths ↔ path ∈ paths := by
  rw [FileIndex.paths, ofPaths, Keyed.mem_keys_ofList, List.map_map]
  simp

/-- The search for an ending gives the answer that the files have for it, with or without a look at
the file of that very path, and in whatever order, and however often, the files were put in. -/
theorem suffixMatch?_answers (index : FileIndex) (ending : String) :
    (∀ answer, index.suffixMatch? ending = answer ↔ IsAnswer index.paths ending answer) ∧
      index.suffixMatch? ending = index.scan? ending ∧
      ∀ (added : List String) (goModule : Option String),
        (∀ path, path ∈ added ↔ path ∈ index.paths) →
          (ofPaths added goModule).suffixMatch? ending = index.suffixMatch? ending := by
  have isAnswer := isAnswer_suffixMatch? index ending
  refine ⟨fun answer => ⟨?_, isAnswer.unique⟩, isAnswer.unique (isAnswer_scan? index ending), ?_⟩
  · rintro rfl
    exact isAnswer
  · intro added goModule same
    have whole : IsAnswer index.paths ending ((ofPaths added goModule).suffixMatch? ending) :=
      (isAnswer_suffixMatch? (ofPaths added goModule) ending).congr fun path =>
        mem_paths_ofPaths.trans (same path)
    exact whole.unique isAnswer

/-- Paths that end alike, some of them of one length. -/
def utilityFiles : FileIndex :=
  .ofPaths ["b/x/util.py", "a/util.py", "c/util.py", "util.py.bak"] none

theorem suffixMatch?_utilityFiles :
    (∀ path, path ∈ ["util.py.bak", "c/util.py", "a/util.py", "c/util.py", "b/x/util.py"] ↔
        path ∈ utilityFiles.paths) ∧
      (ofPaths ["util.py.bak", "c/util.py", "a/util.py", "c/util.py", "b/x/util.py"]
        none).suffixMatch? "util.py" = some "a/util.py" := by
  have same : ∀ path,
      path ∈ ["util.py.bak", "c/util.py", "a/util.py", "c/util.py", "b/x/util.py"] ↔
        path ∈ utilityFiles.paths := by
    intro path
    rw [utilityFiles, mem_paths_ofPaths]
    simp only [List.mem_cons, List.not_mem_nil, or_false]
    tauto
  refine ⟨same, ((suffixMatch?_answers utilityFiles "util.py").2.2 _ none same).trans ?_⟩
  decide +kernel

end Match

end CodeAtlas.FileIndex
