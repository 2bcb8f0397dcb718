import CodeAtlas.Source.Braces
import CodeAtlas.Source.Outline
import Mathlib.Data.List.Basic

/-!
# What is compared of outlines

Two texts are compared by what is read from their code: the imports, and the names, kinds, members
and lines of the declarations.  Documentation is left out.
-/

namespace CodeAtlas.Source

/-- What is compared of a declaration: its line only if lines are compared. -/
structure Entry where
  name : String
  kind : InterfaceKind
  members : List String
  line : Option Nat
deriving DecidableEq

namespace Entry

/-- The entry with further members after so many. -/
def insert (count : Nat) (extra : List String) (entry : Entry) : Entry :=
  { entry with members := entry.members.take count ++ extra ++ entry.members.drop count }

theorem insert_nil (count : Nat) : insert count [] = id := by
  funext entry
  simp [insert]

end Entry

/-- The entry of a declaration. -/
def entryOf (lined : Bool) (declaration : Declaration) : Entry :=
  ⟨declaration.name, declaration.kind, declaration.members,
    if lined then some declaration.line else none⟩

def entriesOf (lined : Bool) (declarations : List Declaration) : List Entry :=
  declarations.map (entryOf lined)

theorem length_entriesOf {lined : Bool} {declarations : List Declaration} :
    (entriesOf lined declarations).length = declarations.length := List.length_map _

/-- What is read from the code of a text, without its documentation. -/
def codeOf (outline : Outline) : List Import × List Entry :=
  (outline.imports, entriesOf true outline.declarations)

/-! ## Members of the last declaration -/

/-- Declarations, the last one first, with a further member of the last one. -/
def withMember (name : String) : List Declaration → List Declaration
  | last :: others => { last with members := last.members ++ [name] } :: others
  | [] => []

theorem withMember_eq_nil_iff {name : String} {declarations : List Declaration} :
    withMember name declarations = [] ↔ declarations = [] := by
  cases declarations <;> simp [withMember]

theorem entriesOf_withMember {lined : Bool} {name : String} {first second : List Declaration}
    (same : entriesOf lined first = entriesOf lined second) :
    entriesOf lined (withMember name first) = entriesOf lined (withMember name second) := by
  cases first with
  | nil =>
      cases second with
      | nil => rfl
      | cons => cases same
  | cons last others =>
      cases second with
      | nil => cases same
      | cons similar rest =>
          simp only [entriesOf, List.map_cons, List.cons.injEq, entryOf, Entry.mk.injEq] at same
          obtain ⟨⟨sameName, kind, members, line⟩, sameOthers⟩ := same
          simp only [withMember, entriesOf, List.map_cons, entryOf, sameName, kind, members, line]
          exact congrArg _ sameOthers

/-! ## How much is read -/

/-- The number of imports, declarations and members. -/
def countFound (imports : List Import) (declarations : List Declaration) : Nat :=
  imports.length + declarations.length + (declarations.flatMap (·.members)).length

theorem countFound_cons {imports : List Import} {declaration : Declaration}
    {declarations : List Declaration} :
    countFound imports (declaration :: declarations) =
      countFound imports declarations + (1 + declaration.members.length) := by
  simp only [countFound, List.length_cons, List.flatMap_cons, List.length_append]
  omega

theorem countFound_reverse {imports : List Import} {declarations : List Declaration} :
    countFound imports.reverse declarations.reverse = countFound imports declarations := by
  simp [countFound, List.length_flatMap]

theorem countFound_withMember {name : String} {imports : List Import}
    {declarations : List Declaration} :
    countFound imports (withMember name declarations) =
      countFound imports declarations + if declarations = [] then 0 else 1 := by
  cases declarations with
  | nil => rfl
  | cons last others =>
      simp only [withMember, countFound_cons, List.length_append, List.length_cons,
        List.length_nil, reduceCtorEq, if_false]
      omega

theorem countFound_congr {imports others : List Import} {first second : List Declaration}
    (sameImports : imports = others) (same : entriesOf true first = entriesOf true second) :
    countFound imports first = countFound others second := by
  have counted (declarations : List Declaration) :
      declarations.flatMap (·.members) = (entriesOf true declarations).flatMap (·.members) := by
    rw [entriesOf, List.flatMap_map]
    rfl
  have length : first.length = second.length := by
    simpa [length_entriesOf] using congrArg List.length same
  rw [countFound, countFound, sameImports, length, counted, counted, same]

/-! ## Lines inside of comments -/

/-- What a line does to the code that is read from a text. -/
inductive Effect
  /-- Nothing is read from it. -/
  | nothing
  /-- An import, a declaration or a member is read from it. -/
  | finding
  /-- Nothing is read from it, but the lines after it are read as something else. -/
  | turning
deriving DecidableEq, Repr

/-- A line inside of a comment that does not end it leaves the braces alone. -/
theorem Braces.advance_of_inComment {braces : Braces} {line : List Char}
    (inComment : braces.inComment = true) (goesOn : Text.isInfix ['*', '/'] line = false) :
    braces.advance line = braces := by
  rw [advance]
  induction line with
  | nil => rfl
  | cons c rest induction =>
      rw [Text.isInfix, Bool.or_eq_false_iff] at goesOn
      cases rest with
      | nil => simp [advanceFrom, inComment]
      | cons next rest =>
          have noEnd : ¬(c = '*' && next = '/') = true := by
            intro isEnd
            obtain ⟨rfl, rfl⟩ : c = '*' ∧ next = '/' := by simpa using isEnd
            simp at goesOn
          rw [advanceFrom, if_pos inComment, if_neg noEnd]
          exact induction goesOn.2

/-! ## How deep braces are -/

namespace Braces

theorem depth_advance_le (braces : Braces) (line : List Char) :
    (braces.advance line).depth ≤ braces.depth + line.length := by
  rw [advance]
  -- Every character opens at most one brace.
  fun_induction advanceFrom braces none line
  all_goals
    simp only [List.length_cons, List.length_nil] at *
    omega

/-- If no line opens more braces than it has characters, neither do several lines. -/
theorem depth_foldl_le {take : Braces → List Char → Braces}
    (bounded : ∀ braces line, (take braces line).depth ≤ braces.depth + line.length)
    (braces : Braces) (lines : List (List Char)) :
    (lines.foldl take braces).depth ≤ braces.depth + lines.flatten.length := by
  induction lines generalizing braces with
  | nil => exact Nat.le_refl _
  | cons line lines induction =>
      have first := bounded braces line
      have others := induction (take braces line)
      rw [List.foldl_cons, List.flatten_cons, List.length_append]
      omega

end Braces

end CodeAtlas.Source
