import CodeAtlas.Path
import CodeAtlas.Proofs.Text.Cut
import Mathlib.Data.List.Lex

/-!
# Laws of paths

A path is its segments with slashes between them, and segments without slashes can be read back.
Paths that begin alike are ordered by what follows.  Following the segments of a path either climbs
out of the root at some segment, or comes to a path of names alone that can take its place.
-/

namespace CodeAtlas

namespace Path

/-- The name of a file or of a directory. -/
def IsName (name : String) : Prop := name ≠ "" ∧ '/' ∉ name.toList

instance (name : String) : Decidable (IsName name) :=
  inferInstanceAs (Decidable (name ≠ "" ∧ '/' ∉ name.toList))

theorem segments_eq (path : String) :
    segments path = (path.toList.splitOn '/').map String.ofList := by
  rw [segments, Text.splitOn_eq]

theorem segments_ne_nil (path : String) : segments path ≠ [] := by
  simp [segments_eq]

theorem segments_append (front back : String) :
    segments (front ++ "/" ++ back) = segments front ++ segments back := by
  simp only [segments_eq, String.toList_append, List.append_assoc]
  rw [← List.map_append, ← List.splitOn_append_cons_self]
  rfl

theorem ofSegments_segments (path : String) : ofSegments (segments path) = path := by
  refine String.toList_injective ?_
  rw [ofSegments, String.toList_intercalate, segments_eq, List.map_map]
  have unchanged : String.toList ∘ String.ofList = id := by
    funext characters
    simp
  rw [unchanged, List.map_id]
  exact List.intercalate_splitOn '/'

theorem segments_ofSegments {names : List String} (some : names ≠ [])
    (plain : ∀ name ∈ names, '/' ∉ name.toList) : segments (ofSegments names) = names := by
  have pieces : (names.map String.toList).map String.ofList = names := by simp
  have split : (['/'].intercalate (names.map String.toList)).splitOn '/' =
      names.map String.toList := by
    refine List.splitOn_intercalate '/' ?_ (by simpa using some)
    intro piece member
    obtain ⟨name, nameMember, rfl⟩ := List.mem_map.mp member
    exact plain name nameMember
  rw [segments_eq, ofSegments, String.toList_intercalate]
  exact (congrArg (List.map String.ofList) split).trans pieces

/-- A path is its first segment alone, or goes on after a slash. -/
theorem eq_or_eq_append_of_head?_segments {path first : String}
    (begins : (segments path).head? = some first) :
    path = first ∨ ∃ rest, path = first ++ "/" ++ rest := by
  obtain ⟨others, split⟩ := List.head?_eq_some_iff.mp begins
  have whole : path = "/".intercalate (first :: others) := by
    rw [← split]
    exact (ofSegments_segments path).symm
  cases others with
  | nil => exact .inl whole
  | cons second others =>
      refine .inr ⟨"/".intercalate (second :: others), ?_⟩
      rw [whole]
      exact String.toList_injective (by simp [String.toList_intercalate])

theorem not_mem_of_mem_segments {path name : String} (member : name ∈ segments path) :
    '/' ∉ name.toList := by
  rw [segments_eq] at member
  obtain ⟨piece, pieceMember, rfl⟩ := List.mem_map.mp member
  intro within
  exact (Text.mem_of_mem_splitOn pieceMember (by simpa using within)).2 rfl

theorem mem_of_mem_segments {path name : String} {c : Char} (member : name ∈ segments path)
    (within : c ∈ name.toList) : c ∈ path.toList := by
  rw [segments_eq] at member
  obtain ⟨piece, pieceMember, rfl⟩ := List.mem_map.mp member
  exact (Text.mem_of_mem_splitOn pieceMember (by simpa using within)).1

/-! ## Directories above a path -/

/-- A directory holds a path, in itself or further below; the root is written empty. -/
def IsAbove (directory path : String) : Prop :=
  directory = "" ∨ ∃ rest, path = directory ++ "/" ++ rest

theorem parent_append {directory name : String} (plain : '/' ∉ name.toList) :
    parent (directory ++ "/" ++ name) = directory := by
  have whole : (directory ++ "/" ++ name).toList = directory.toList ++ '/' :: name.toList := by
    simp
  rw [parent, whole, Text.splitLast?_append plain]
  exact String.ofList_toList

/-- A path is a name at the root, or a name in its directory. -/
theorem parent_cases (path : String) :
    ('/' ∉ path.toList ∧ parent path = "") ∨
      ∃ name : String, '/' ∉ name.toList ∧ path = parent path ++ "/" ++ name := by
  by_cases within : '/' ∈ path.toList
  · obtain ⟨name, directory, reversed, plain⟩ :=
      List.eq_append_cons_of_mem (List.mem_reverse.mpr within)
    have whole : path.toList = directory.reverse ++ '/' :: name.reverse := by
      simpa using congrArg List.reverse reversed
    have named : '/' ∉ name.reverse := by simpa using plain
    refine .inr ⟨String.ofList name.reverse, by simpa using plain, ?_⟩
    rw [parent, whole, Text.splitLast?_append named]
    exact String.toList_injective (by simp [whole])
  · rw [parent, Text.splitLast?_eq_none within]
    exact .inl ⟨within, rfl⟩

/-- The directories above a path are its own and those above that one. -/
theorem isAbove_iff {directory path : String} :
    IsAbove directory path ↔ directory = parent path ∨ IsAbove directory (parent path) := by
  constructor
  · rintro (rfl | ⟨rest, rfl⟩)
    · exact .inr (.inl rfl)
    · rcases parent_cases rest with ⟨plain, _⟩ | ⟨name, plain, split⟩
      · exact .inl (parent_append plain).symm
      · have whole : directory ++ "/" ++ rest =
            directory ++ "/" ++ parent rest ++ "/" ++ name := by
          refine (congrArg (directory ++ "/" ++ ·) split).trans ?_
          simp only [String.append_assoc]
        rw [whole, parent_append plain]
        exact .inr (.inr ⟨parent rest, rfl⟩)
  · rintro (rfl | rfl | ⟨rest, below⟩)
    · rcases parent_cases path with ⟨_, root⟩ | ⟨name, _, split⟩
      · exact .inl root
      · exact .inr ⟨name, split⟩
    · exact .inl rfl
    · rcases parent_cases path with ⟨_, root⟩ | ⟨name, _, split⟩
      · rw [below, String.append_eq_empty_iff] at root
        exact .inl (String.append_eq_empty_iff.mp root.1).1
      · refine .inr ⟨rest ++ "/" ++ name, ?_⟩
        rw [split, below]
        simp only [String.append_assoc]

theorem IsAbove.length_le {directory path : String} (above : IsAbove directory path) :
    directory.length ≤ path.length := by
  rcases above with rfl | ⟨rest, rfl⟩
  · exact Nat.zero_le _
  · simp only [String.length_append]
    omega

theorem isAbove_join {directory rest : String} (some : rest ≠ "") :
    IsAbove directory (join directory rest) := by
  by_cases root : directory = ""
  · exact .inl root
  · rw [join, if_neg root, if_neg some]
    exact .inr ⟨rest, rfl⟩

theorem append_lt_append_iff {front first second : String} :
    front ++ first < front ++ second ↔ first < second := by
  rw [String.lt_iff, String.lt_iff, String.toList_append, String.toList_append]
  induction front.toList with
  | nil => rfl
  | cons c rest induction => rwa [List.cons_append, List.cons_append, List.cons_lt_cons_self]

/-! ## Following segments -/

/-- A segment that goes down: neither empty nor `.` nor `..`. -/
def IsOrdinary (segment : String) : Prop :=
  segment ≠ "" ∧ segment ≠ "." ∧ segment ≠ ".."

instance : DecidablePred IsOrdinary := fun segment =>
  inferInstanceAs (Decidable (segment ≠ "" ∧ segment ≠ "." ∧ segment ≠ ".."))

/-- Some first segments climb further than they go down from a depth. -/
def ClimbsPast (depth : Nat) (segments : List String) : Prop :=
  ∃ front, front <+: segments ∧ depth + front.countP IsOrdinary < front.count ".."

/-- Some first segments of a path climb more often than they go down. -/
def ClimbsOut (path : String) : Prop :=
  ∃ front, front <+: segments path ∧ front.countP IsOrdinary < front.count ".."

section Follow

variable {segment : String} {segments reached final names : List String} {depth : Nat}

theorem followSegment?_of_ordinary (ordinary : IsOrdinary segment) :
    followSegment? reached segment = some (segment :: reached) := by
  obtain ⟨named, noPoint, noPoints⟩ := ordinary
  simp [followSegment?, named, noPoint, noPoints]

theorem followSegment?_of_skipped (skipped : segment = "" ∨ segment = ".") :
    followSegment? reached segment = some reached :=
  if_pos skipped

theorem segment_cases (segment : String) :
    (segment = "" ∨ segment = ".") ∨ segment = ".." ∨ IsOrdinary segment := by
  unfold IsOrdinary
  tauto

theorem climbsPast_cons_iff : ClimbsPast depth (segment :: segments) ↔
    ∃ front, front <+: segments ∧
      depth + (segment :: front).countP IsOrdinary < (segment :: front).count ".." := by
  constructor
  · rintro ⟨front, begins, climbs⟩
    rcases List.prefix_cons_iff.mp begins with rfl | ⟨rest, rfl, restBegins⟩
    · simp at climbs
    · exact ⟨rest, restBegins, climbs⟩
  · rintro ⟨front, begins, climbs⟩
    exact ⟨segment :: front, List.prefix_cons_iff.mpr (.inr ⟨front, rfl, begins⟩), climbs⟩

theorem climbsPast_of_ordinary (ordinary : IsOrdinary segment) :
    ClimbsPast depth (segment :: segments) ↔ ClimbsPast (depth + 1) segments := by
  rw [climbsPast_cons_iff, ClimbsPast]
  refine exists_congr fun front => and_congr_right fun _ => ?_
  rw [List.countP_cons_of_pos (by simpa using ordinary),
    List.count_cons_of_ne ordinary.2.2]
  omega

theorem climbsPast_of_skipped (skipped : segment = "" ∨ segment = ".") :
    ClimbsPast depth (segment :: segments) ↔ ClimbsPast depth segments := by
  have noName : ¬IsOrdinary segment := by
    unfold IsOrdinary
    tauto
  have noClimb : segment ≠ ".." := by
    rcases skipped with rfl | rfl <;> decide
  rw [climbsPast_cons_iff, ClimbsPast]
  refine exists_congr fun front => and_congr_right fun _ => ?_
  rw [List.countP_cons_of_neg (by simpa using noName), List.count_cons_of_ne noClimb]

theorem climbsPast_zero_of_up : ClimbsPast 0 (".." :: segments) :=
  climbsPast_cons_iff.mpr ⟨[], List.nil_prefix, by decide⟩

theorem climbsPast_succ_of_up :
    ClimbsPast (depth + 1) (".." :: segments) ↔ ClimbsPast depth segments := by
  have noName : ¬IsOrdinary ".." := by decide
  rw [climbsPast_cons_iff, ClimbsPast]
  refine exists_congr fun front => and_congr_right fun _ => ?_
  rw [List.countP_cons_of_neg (by simpa using noName), List.count_cons_self]
  omega

/-- Following fails exactly when the segments climb past the names reached before them. -/
theorem foldlM_followSegment?_eq_none_iff :
    segments.foldlM followSegment? reached = none ↔ ClimbsPast reached.length segments := by
  induction segments generalizing reached with
  | nil => simp [ClimbsPast]
  | cons segment segments induction =>
      rw [List.foldlM_cons]
      rcases segment_cases segment with skipped | rfl | ordinary
      · rw [followSegment?_of_skipped skipped, climbsPast_of_skipped skipped]
        exact induction
      · cases reached with
        | nil => exact iff_of_true rfl climbsPast_zero_of_up
        | cons last outer =>
            rw [List.length_cons, climbsPast_succ_of_up]
            exact induction
      · rw [followSegment?_of_ordinary ordinary, climbsPast_of_ordinary ordinary]
        exact induction

/-- Only names of the segments are reached. -/
theorem mem_of_foldlM_followSegment? (follows : segments.foldlM followSegment? reached = some final)
    {name : String} (member : name ∈ final) :
    name ∈ reached ∨ name ∈ segments ∧ IsOrdinary name := by
  induction segments generalizing reached with
  | nil =>
      cases follows
      exact .inl member
  | cons segment segments induction =>
      rw [List.foldlM_cons, Option.bind_eq_bind, Option.bind_eq_some_iff] at follows
      obtain ⟨next, step, follows⟩ := follows
      have later (kept : name ∈ next → name ∈ reached) :
          name ∈ reached ∨ name ∈ segment :: segments ∧ IsOrdinary name :=
        (induction follows).imp kept fun ⟨within, ordinary⟩ =>
          ⟨List.mem_cons_of_mem _ within, ordinary⟩
      rcases segment_cases segment with skipped | rfl | ordinary
      · rw [followSegment?_of_skipped skipped] at step
        cases step
        exact later id
      · cases reached with
        | nil => cases step
        | cons last outer =>
            cases step
            exact later (List.mem_cons_of_mem _)
      · rw [followSegment?_of_ordinary ordinary] at step
        cases step
        rcases induction follows with known | ⟨within, named⟩
        · rcases List.mem_cons.mp known with rfl | known
          · exact .inr ⟨List.mem_cons_self, ordinary⟩
          · exact .inl known
        · exact .inr ⟨List.mem_cons_of_mem _ within, named⟩

theorem foldlM_followSegment?_of_ordinary (ordinary : ∀ name ∈ names, IsOrdinary name) :
    names.foldlM followSegment? reached = some (names.reverse ++ reached) := by
  induction names generalizing reached with
  | nil => rfl
  | cons name names induction =>
      obtain ⟨here, later⟩ := List.forall_mem_cons.mp ordinary
      rw [List.foldlM_cons, followSegment?_of_ordinary here, List.reverse_cons, List.append_assoc]
      exact induction later

end Follow

/-! ## The normal form -/

section Normal

variable {path normal rest : String} {names reached : List String}

/-- Plain names written as a path are followed to themselves. -/
theorem follow_ofSegments (ordinary : ∀ name ∈ names, IsOrdinary name)
    (plain : ∀ name ∈ names, '/' ∉ name.toList) :
    (segments (ofSegments names)).foldlM followSegment? [] = some names.reverse := by
  cases names with
  | nil => decide
  | cons name names =>
      rw [segments_ofSegments (List.cons_ne_nil _ _) plain,
        foldlM_followSegment?_of_ordinary ordinary, List.append_nil]

theorem normalize?_eq_some_iff : normalize? path = some normal ↔
    ∃ reached, (segments path).foldlM followSegment? [] = some reached ∧
      ofSegments reached.reverse = normal :=
  Option.map_eq_some_iff

theorem normalize?_eq_none_iff : normalize? path = none ↔ ClimbsOut path := by
  rw [normalize?, Option.map_eq_none_iff, foldlM_followSegment?_eq_none_iff, ClimbsPast, ClimbsOut]
  simp

/-- The names of a normal form. -/
theorem exists_names_of_normalize? (found : normalize? path = some normal) :
    ∃ names, (segments path).foldlM followSegment? [] = some names.reverse ∧
      normal = ofSegments names ∧ (∀ name ∈ names, IsOrdinary name) ∧
      ∀ name ∈ names, '/' ∉ name.toList := by
  obtain ⟨reached, follows, rfl⟩ := normalize?_eq_some_iff.mp found
  have fromPath {name : String} (member : name ∈ reached.reverse) :
      name ∈ segments path ∧ IsOrdinary name :=
    (mem_of_foldlM_followSegment? follows (List.mem_reverse.mp member)).resolve_left
      List.not_mem_nil
  refine ⟨reached.reverse, by rw [List.reverse_reverse, follows], rfl, ?_, ?_⟩
  · exact fun name member => (fromPath member).2
  · exact fun name member => not_mem_of_mem_segments (fromPath member).1

/-- The normal form of a path leads on as the path does. -/
theorem normalize?_append_congr
    (same : (segments path).foldlM followSegment? [] =
      (segments normal).foldlM followSegment? []) (rest : String) :
    normalize? (path ++ "/" ++ rest) = normalize? (normal ++ "/" ++ rest) := by
  rw [normalize?, normalize?, segments_append, segments_append, List.foldlM_append,
    List.foldlM_append, same]

theorem normalize?_join (directory rest : String) :
    normalize? (join directory rest) = normalize? (directory ++ "/" ++ rest) := by
  have skips (reached : List String) : followSegment? reached "" = some reached :=
    followSegment?_of_skipped (.inl rfl)
  have empty : segments "" = [""] := by decide
  rw [join]
  split
  next root =>
    rw [root, normalize?, normalize?, segments_append, empty, List.foldlM_append, List.foldlM_cons,
      skips]
    rfl
  next =>
    split
    next none =>
      rw [none, normalize?, normalize?, segments_append, empty, List.foldlM_append]
      cases (segments directory).foldlM followSegment? [] with
      | none => rfl
      | some reached =>
          refine congrArg (Option.map _) ?_
          exact (skips reached).symm
    next => rfl

/-- What a normal form is to its path: names alone, a normal form itself, and the same way onwards,
also as the directory that a relative path is joined to. -/
structure IsNormalOf (path normal : String) : Prop where
  names : normal = "" ∨ ∀ segment ∈ segments normal, IsOrdinary segment
  settled : normalize? normal = some normal
  stepwise : ∀ rest, normalize? (path ++ "/" ++ rest) = normalize? (normal ++ "/" ++ rest)
  joined : ∀ rest, normalize? (join path rest) = normalize? (join normal rest)

theorem isNormalOf_of_normalize? (found : normalize? path = some normal) :
    IsNormalOf path normal := by
  obtain ⟨names, follows, rfl, ordinary, plain⟩ := exists_names_of_normalize? found
  have again := follow_ofSegments ordinary plain
  have stepwise := normalize?_append_congr (follows.trans again.symm)
  refine ⟨?_, ?_, stepwise, fun rest => ?_⟩
  · cases names with
    | nil => exact .inl rfl
    | cons name names =>
        rw [segments_ofSegments (List.cons_ne_nil _ _) plain]
        exact .inr ordinary
  · exact normalize?_eq_some_iff.mpr ⟨_, again, by rw [List.reverse_reverse]⟩
  · rw [normalize?_join, normalize?_join, stepwise]

end Normal

/-- A path has no normal form exactly when it climbs out of the root, and otherwise its normal form
can take its place. -/
theorem normalize?_follows_segments (path : String) :
    (normalize? path = none ↔ ClimbsOut path) ∧
      ∀ normal, normalize? path = some normal → IsNormalOf path normal :=
  ⟨normalize?_eq_none_iff, fun _ => isNormalOf_of_normalize?⟩

theorem normalize?_follows_nested :
    normalize? "src//a/../b/./c.ts" = some "src/b/c.ts" ∧
      IsNormalOf "src//a/../b/./c.ts" "src/b/c.ts" := by
  have found : normalize? "src//a/../b/./c.ts" = some "src/b/c.ts" := by decide +kernel
  exact ⟨found, (normalize?_follows_segments _).2 _ found⟩

example : ClimbsOut "a/../../b" := by
  rw [← normalize?_eq_none_iff]
  decide +kernel

end Path

end CodeAtlas
