import CodeAtlas.Source.Comment

/-!
# Documentation above declarations

What stands at the top level of a file is a sequence of siblings, and the comments directly above
a declaration document it.
-/

namespace CodeAtlas.Source

/-- What a sibling is to the declarations near it. -/
inductive Role
  | comment
  | attribute
  | other
deriving DecidableEq, Repr

/-- A comment, attribute, declaration or statement at the top level of a file. -/
structure Sibling where
  role : Role
  text : List Char
  /-- How many lines precede its beginning. -/
  row : Nat
  /-- How many lines precede its end. -/
  endRow : Nat
deriving Repr

namespace Sibling

/-- The documentation comments above a row, without their marks.  `before` holds the siblings
before it, the nearest one first, and `done` the comments found so far, the uppermost one first.
Attributes may stand between, and a comment must end on the line before what it documents or on
that line itself. -/
def docLines (accept : List Char → Bool) (row : Nat) (done : List (List Char)) :
    List Sibling → List (List Char)
  | [] => done
  | sibling :: before =>
      match sibling.role with
      | .attribute => docLines accept sibling.row done before
      | .comment =>
          if accept sibling.text && row ≤ sibling.endRow + 1 then
            docLines accept sibling.row (stripComment sibling.text :: done) before
          else done
      | .other => done

/-- The documentation above a row. -/
def docAbove (accept : List Char → Bool) (row : Nat) (before : List Sibling) : String :=
  String.ofList (joinLines (docLines accept row [] before))

end Sibling

end CodeAtlas.Source
