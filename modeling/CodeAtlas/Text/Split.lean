import CodeAtlas.Text.Character

/-!
# Cutting texts

Splitting at a character, lines, and the removal of blanks, on lists of characters.  Texts of
documents are `String`s; these functions are the view on which the rules are stated.
-/

namespace CodeAtlas.Text

/-- Put a character in front of pieces: a separator begins a new piece. -/
def pushPiece (separator : Char) (c : Char) (pieces : List (List Char)) : List (List Char) :=
  if c = separator then [] :: pieces
  else match pieces with
    | piece :: others => (c :: piece) :: others
    | [] => [[c]]

/-- The pieces between the separators; `n` separators make `n + 1` pieces. -/
def splitOn (separator : Char) (characters : List Char) : List (List Char) :=
  characters.foldr (pushPiece separator) [[]]

@[simp] theorem splitOn_nil (separator : Char) : splitOn separator [] = [[]] := rfl

theorem splitOn_cons (separator c : Char) (rest : List Char) :
    splitOn separator (c :: rest) = pushPiece separator c (splitOn separator rest) := rfl

theorem splitOn_ne_nil (separator : Char) (characters : List Char) :
    splitOn separator characters ≠ [] := by
  cases characters with
  | nil => simp
  | cons c rest =>
      simp only [splitOn_cons, pushPiece]
      split
      · simp
      · split <;> simp

/-- The pieces written with a separator between them. -/
def joinWith (separator : List Char) : List (List Char) → List Char
  | [] => []
  | [piece] => piece
  | piece :: next :: pieces => piece ++ separator ++ joinWith separator (next :: pieces)

theorem joinWith_cons_cons (separator piece next : List Char) (pieces : List (List Char)) :
    joinWith separator (piece :: next :: pieces) =
      piece ++ separator ++ joinWith separator (next :: pieces) := rfl

/-- Splitting loses nothing. -/
theorem joinWith_splitOn (separator : Char) (characters : List Char) :
    joinWith [separator] (splitOn separator characters) = characters := by
  induction characters with
  | nil => rfl
  | cons c rest ih =>
      cases pieces : splitOn separator rest with
      | nil => exact absurd pieces (splitOn_ne_nil separator rest)
      | cons piece others =>
          rw [pieces] at ih
          simp only [splitOn_cons, pieces, pushPiece]
          split
          next same => simp [joinWith_cons_cons, ih, same]
          next other =>
            cases others with
            | nil => simpa [joinWith] using ih
            | cons next others =>
                simp only [joinWith_cons_cons, List.cons_append] at ih ⊢
                rw [ih]

/-- What follows a given beginning. -/
def afterPrefix? : List Char → List Char → Option (List Char)
  | [], characters => some characters
  | p :: beginning, c :: characters =>
      if p = c then afterPrefix? beginning characters else none
  | _ :: _, [] => none

theorem afterPrefix?_eq_some_iff {beginning characters rest : List Char} :
    afterPrefix? beginning characters = some rest ↔ characters = beginning ++ rest := by
  induction beginning generalizing characters with
  | nil => simp [afterPrefix?, eq_comm]
  | cons p beginning ih =>
      cases characters with
      | nil => simp [afterPrefix?]
      | cons c characters =>
          simp only [afterPrefix?, List.cons_append, List.cons.injEq]
          split
          next same => simp [ih, same]
          next other => simp [Ne.symm other]

/-- Without the blanks at the beginning. -/
def trimStart (characters : List Char) : List Char :=
  characters.dropWhile isBlank

/-- Without the characters of a class at the end. -/
def dropEndWhile (drop : Char → Bool) (characters : List Char) : List Char :=
  (characters.reverse.dropWhile drop).reverse

/-- Without the blanks at the end. -/
def trimEnd (characters : List Char) : List Char :=
  dropEndWhile isBlank characters

/-- Without the blanks at either end. -/
def trim (characters : List Char) : List Char :=
  trimEnd (trimStart characters)

/-- Without one carriage return at the end. -/
def dropReturn (characters : List Char) : List Char :=
  match characters.reverse with
  | '\r' :: rest => rest.reverse
  | _ => characters

/-- The lines of a text, without their ends: a line feed ends a line, together with a carriage
return before it, and the last line need not be ended. -/
def lines (characters : List Char) : List (List Char) :=
  let pieces := splitOn '\n' characters
  let last := pieces.getLast?.getD []
  pieces.dropLast.map dropReturn ++ (if last.isEmpty then [] else [last])

@[simp] theorem lines_nil : lines [] = [] := rfl

/-- The words of a text: the runs of characters that are not blank. -/
def words (characters : List Char) : List (List Char) :=
  go [] characters
where
  /-- The words, given the characters of the current one in reverse. -/
  go (word : List Char) : List Char → List (List Char)
    | [] => if word.isEmpty then [] else [word.reverse]
    | c :: rest =>
        if isBlank c then
          if word.isEmpty then go [] rest else word.reverse :: go [] rest
        else go (c :: word) rest

/-- Every run of blanks made one blank, and none at the ends. -/
def collapse (characters : List Char) : List Char :=
  joinWith [' '] (words characters)

/-- Whether a text occurs in another. -/
def isInfix (part : List Char) : List Char → Bool
  | [] => part.isEmpty
  | c :: rest => part.isPrefixOf (c :: rest) || isInfix part rest

/-- The text with every occurrence of a character replaced. -/
def replaceChar (old : Char) (new : List Char) (characters : List Char) : List Char :=
  characters.flatMap fun c => if c = old then new else [c]

/-- The part before the first separator and the part after it. -/
def splitOnce? (separator : Char) (characters : List Char) : Option (List Char × List Char) :=
  match characters.dropWhile (· != separator) with
  | [] => none
  | _ :: after => some (characters.takeWhile (· != separator), after)

theorem length_splitOnce? {separator : Char} {characters before after : List Char}
    (split : splitOnce? separator characters = some (before, after)) :
    before.length + after.length + 1 = characters.length := by
  unfold splitOnce? at split
  split at split
  next => cases split
  next c rest found =>
    cases split
    have whole := congrArg List.length
      (List.takeWhile_append_dropWhile (p := fun c => c != separator) (l := characters))
    rw [found] at whole
    simpa [Nat.add_assoc] using whole

/-- The part before the last separator and the part after it. -/
def splitLast? (separator : Char) (characters : List Char) : Option (List Char × List Char) :=
  (splitOnce? separator characters.reverse).map fun parts =>
    (parts.2.reverse, parts.1.reverse)

/-- The part before a text's first occurrence and the part after it. -/
def splitAt? (part : List Char) : List Char → Option (List Char × List Char)
  | [] => if part.isEmpty then some ([], []) else none
  | c :: rest =>
      match afterPrefix? part (c :: rest) with
      | some after => some ([], after)
      | none => (splitAt? part rest).map fun parts => (c :: parts.1, parts.2)

end CodeAtlas.Text
