import CodeAtlas.Text.Split
import CodeAtlas.Text.Case

/-!
# Paths

Paths are texts with `/` between their segments.  Module paths are relative to the root of
their project.  `Path.normalize?` follows `.` and `..`; a path that climbs above the root has
no normal form.
-/

namespace CodeAtlas.Path

/-- The segments between the slashes, empty ones included. -/
def segments (path : String) : List String :=
  (Text.splitOn '/' path.toList).map String.ofList

/-- Segments written with slashes between them. -/
def ofSegments (segments : List String) : String :=
  "/".intercalate segments

/-- The last segment. -/
def basename (path : String) : String :=
  match Text.splitLast? '/' path.toList with
  | some (_, last) => String.ofList last
  | none => path

/-- The directory of a path, empty at the root. -/
def parent (path : String) : String :=
  match Text.splitLast? '/' path.toList with
  | some (directory, _) => String.ofList directory
  | none => ""

/-- Climbing from directory to directory comes to an end. -/
theorem length_parent_lt {path : String} (some : path ≠ "") :
    (parent path).length < path.length := by
  have positive : 0 < path.length := by
    rw [← String.length_toList]
    exact List.length_pos_iff.mpr (by simpa using some)
  unfold parent
  split
  next directory last split =>
    obtain ⟨parts, found, same⟩ := Option.map_eq_some_iff.mp split
    have count := Text.length_splitOnce? found
    cases same
    rw [List.length_reverse, String.length_toList] at count
    rw [String.length_ofList, List.length_reverse]
    omega
  next => simpa using positive

/-- The last segment up to its first point. -/
def stem (path : String) : String :=
  let base := basename path
  match Text.splitOnce? '.' base.toList with
  | some (before, _) => String.ofList before
  | none => base

/-- A path below a directory; an empty part adds nothing. -/
def join (directory rest : String) : String :=
  if directory = "" then rest
  else if rest = "" then directory
  else directory ++ "/" ++ rest

/-- The segments that name something: a slash at the beginning stands for the root, a point at
the beginning for the current directory, and empty segments and other points are skipped. -/
def components (path : String) : List String :=
  let named := (segments path).filter fun segment => segment != "" && segment != "."
  match path.toList with
  | '/' :: _ => "/" :: named
  | ['.'] => "." :: named
  | '.' :: '/' :: _ => "." :: named
  | _ => named

/-- The name of the file a path leads to; none for a root or a parent directory. -/
def fileName? (path : String) : Option String :=
  match (components path).getLast? with
  | some last => if last = "/" ∨ last = "." ∨ last = ".." then none else some last
  | none => none

/-- The part of a file name after its last point, unless that point begins the name. -/
def extension? (path : String) : Option String := do
  let name ← fileName? path
  let (before, after) ← Text.splitLast? '.' name.toList
  if before.isEmpty then none else some (String.ofList after)

/-- The path of a file relative to a root that contains it. -/
def relative? (root path : String) : Option String :=
  let base := components root
  let whole := components path
  if base.isPrefixOf whole then
    match whole.drop base.length with
    | [] => none
    | rest => some (ofSegments rest)
  else none

/-- Follow one segment from the segments reached so far, the last one first. -/
def followSegment? (reached : List String) (segment : String) : Option (List String) :=
  if segment = "" ∨ segment = "." then some reached
  else if segment = ".." then
    match reached with
    | [] => none
    | _ :: outer => some outer
  else some (segment :: reached)

/-- The path without empty, `.` and `..` segments; none when it climbs above the root. -/
def normalize? (path : String) : Option String :=
  ((segments path).foldlM followSegment? []).map fun reached => ofSegments reached.reverse

/-- The path that `rest` names from a directory; an absolute path stands for itself. -/
def resolve (directory rest : String) : String :=
  if rest.startsWith "/" then rest
  else if directory = "" then rest
  else if directory.endsWith "/" then directory ++ rest
  else directory ++ "/" ++ rest

end CodeAtlas.Path
