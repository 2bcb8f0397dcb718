import CodeAtlas.Proofs.Keyed
import CodeAtlas.Proofs.Text.Character
import CodeAtlas.Search.Token
import Mathlib.Data.List.Basic

/-!
# Names in any style

A name is made of words, and its style says how they are put together: with a sign between them or
with a capital letter at the beginning of each.  The tokens of a name are its words in every style.
The tokens of an ASCII text, with blanks between them, are a text of the same tokens.
-/

namespace CodeAtlas.Search

open CodeAtlas.Text

variable {c previous : Char} {run word rest part capitals digits : List Char}
  {separator : String} {pieces : List String}

/-! ## The parts of a name -/

theorem splitAfter_cons_of_begins (begins : beginsPart previous c rest = true) :
    splitAfter previous part (c :: rest) = part.reverse :: splitAfter c [c] rest := by
  rw [splitAfter, if_pos begins]

theorem splitAfter_cons_of_not_begins (goesOn : beginsPart previous c rest = false) :
    splitAfter previous part (c :: rest) = splitAfter c (c :: part) rest := by
  rw [splitAfter, if_neg (Bool.eq_false_iff.mp goesOn)]

/-- No part begins at a small character. -/
theorem splitAfter_append (small : ∀ c ∈ run, IsSmall c) :
    splitAfter previous part (run ++ rest) =
      splitAfter (run.getLastD previous) (run.reverse ++ part) rest := by
  induction run generalizing previous part with
  | nil => rfl
  | cons c run hypothesis =>
      obtain ⟨isSmall, areSmall⟩ := List.forall_mem_cons.mp small
      have goesOn : beginsPart previous c (run ++ rest) = false := by
        rw [beginsPart, isUpper_eq_false_of_isSmall isSmall, Bool.false_and]
      rw [List.cons_append, splitAfter_cons_of_not_begins goesOn, hypothesis areSmall,
        List.getLastD_cons, List.reverse_cons, List.append_assoc, List.singleton_append]

theorem splitAfter_of_small (small : ∀ c ∈ run, IsSmall c) :
    splitAfter previous part run = [part.reverse ++ run] := by
  rw [← List.append_nil run, splitAfter_append small, splitAfter]
  simp

/-- No part begins among capitals unless a small letter follows the last of them. -/
theorem splitAfter_capitals (isCapital : IsCapital previous)
    (areCapitals : ∀ c ∈ capitals, IsCapital c)
    (areDigits : ∀ c ∈ digits, c.isDigit = true) :
    splitAfter previous part (capitals ++ digits) = [part.reverse ++ capitals ++ digits] := by
  induction capitals generalizing previous part with
  | nil =>
      rw [List.nil_append, splitAfter_of_small fun c member => .inr (areDigits c member),
        List.append_nil]
  | cons c capitals hypothesis =>
      obtain ⟨isNext, areRest⟩ := List.forall_mem_cons.mp areCapitals
      have noSmall : (capitals ++ digits).head?.any isLower = false := by
        cases capitals with
        | cons next capitals => exact (areRest next List.mem_cons_self).isLower
        | nil =>
            cases digits with
            | nil => rfl
            | cons digit digits =>
                exact isLower_eq_false_of_isDigit (areDigits digit List.mem_cons_self)
      have goesOn : beginsPart previous c (capitals ++ digits) = false := by
        rw [beginsPart, isCapital.isLower, isCapital.isNumeric, noSmall]
        simp
      rw [List.cons_append, splitAfter_cons_of_not_begins goesOn, hypothesis isNext areRest]
      simp

/-- A name of small characters is one part. -/
theorem nameParts_of_small (some : word ≠ []) (small : ∀ c ∈ word, IsSmall c) :
    nameParts word = [word] := by
  obtain ⟨c, run, rfl⟩ := List.exists_cons_of_ne_nil some
  exact splitAfter_of_small (List.forall_mem_cons.mp small).2

theorem nameParts_of_capitals (some : capitals ≠ []) (areCapitals : ∀ c ∈ capitals, IsCapital c)
    (areDigits : ∀ c ∈ digits, c.isDigit = true) :
    nameParts (capitals ++ digits) = [capitals ++ digits] := by
  obtain ⟨c, capitals, rfl⟩ := List.exists_cons_of_ne_nil some
  obtain ⟨isFirst, areRest⟩ := List.forall_mem_cons.mp areCapitals
  rw [List.cons_append, nameParts, splitAfter_capitals isFirst areRest areDigits]
  rfl

/-! ## The parts of a text -/

/-- The parts of all names in a text, given the characters of the current name in reverse. -/
def partsFrom (run text : List Char) : List (List Char) := (runsFrom run text).flatMap nameParts

theorem partsFrom_nil (run : List Char) : partsFrom run [] = nameParts run.reverse := by
  simp [partsFrom, runsFrom]

theorem partsFrom_append (name : ∀ c ∈ word, isAlphanumeric c = true) :
    partsFrom run (word ++ rest) = partsFrom (word.reverse ++ run) rest := by
  induction word generalizing run with
  | nil => rfl
  | cons c word hypothesis =>
      obtain ⟨isName, areName⟩ := List.forall_mem_cons.mp name
      have step : partsFrom run (c :: (word ++ rest)) = partsFrom (c :: run) (word ++ rest) := by
        rw [partsFrom, runsFrom, if_pos isName, partsFrom]
      rw [List.cons_append, step, hypothesis areName]
      simp

theorem partsFrom_of_name (name : ∀ c ∈ word, isAlphanumeric c = true) :
    partsFrom [] word = nameParts word := by
  rw [← List.append_nil word, partsFrom_append name, partsFrom_nil]
  simp

theorem partsFrom_cons_of_not_alphanumeric (ends : isAlphanumeric c = false) :
    partsFrom run (c :: rest) = nameParts run.reverse ++ partsFrom [] rest := by
  rw [partsFrom, runsFrom, if_neg (Bool.eq_false_iff.mp ends), List.flatMap_cons, partsFrom]

/-- A text that is something and has no letters and no digits. -/
def IsSeparator (separator : String) : Prop :=
  separator ≠ "" ∧ ∀ c ∈ separator.toList, isAlphanumeric c = false

instance (separator : String) : Decidable (IsSeparator separator) :=
  decidable_of_iff (separator ≠ "" ∧ separator.toList.all (!isAlphanumeric ·) = true)
    (by simp [IsSeparator])

theorem partsFrom_separator (isSeparator : IsSeparator separator) :
    partsFrom run (separator.toList ++ rest) = nameParts run.reverse ++ partsFrom [] rest := by
  obtain ⟨some, ends⟩ := isSeparator
  have notNil : separator.toList ≠ [] := by simpa using some
  obtain ⟨c, more, split⟩ := List.exists_cons_of_ne_nil notNil
  rw [split] at ends ⊢
  clear split some
  induction more generalizing run c with
  | nil => exact partsFrom_cons_of_not_alphanumeric (ends c List.mem_cons_self)
  | cons next more hypothesis =>
      obtain ⟨isEnd, areEnds⟩ := List.forall_mem_cons.mp ends
      rw [List.cons_append, partsFrom_cons_of_not_alphanumeric isEnd, hypothesis next areEnds]
      rfl

/-- A name in ASCII that is one part. -/
structure IsPart (word : List Char) : Prop where
  ascii : ∀ c ∈ word, IsAscii c
  alphanumeric : ∀ c ∈ word, isAlphanumeric c = true
  single : nameParts word = [word]

theorem isPart_of_small (some : word ≠ []) (small : ∀ c ∈ word, IsSmall c) : IsPart word :=
  ⟨fun c member => (small c member).isAscii,
    fun c member => isAlphanumeric_of_isSmall (small c member), nameParts_of_small some small⟩

theorem isPart_of_capitals (some : capitals ≠ []) (areCapitals : ∀ c ∈ capitals, IsCapital c)
    (areDigits : ∀ c ∈ digits, c.isDigit = true) : IsPart (capitals ++ digits) where
  ascii := List.forall_mem_append.mpr ⟨fun c member => (areCapitals c member).ascii,
    fun c member => isAscii_of_isDigit (areDigits c member)⟩
  alphanumeric := List.forall_mem_append.mpr ⟨fun c member => (areCapitals c member).isAlphanumeric,
    fun c member => isAlphanumeric_of_isSmall (.inr (areDigits c member))⟩
  single := nameParts_of_capitals some areCapitals areDigits

/-- Parts with separators between them are the parts of the whole. -/
theorem partsFrom_intercalate (isSeparator : IsSeparator separator)
    (areParts : ∀ piece ∈ pieces, IsPart piece.toList) :
    partsFrom [] (separator.intercalate pieces).toList = pieces.map String.toList := by
  induction pieces with
  | nil => rfl
  | cons piece pieces hypothesis =>
      obtain ⟨isPart, areRest⟩ := List.forall_mem_cons.mp areParts
      cases pieces with
      | nil =>
          rw [String.intercalate_singleton, partsFrom_of_name isPart.alphanumeric, isPart.single]
          rfl
      | cons next pieces =>
          rw [String.intercalate_cons_cons, String.toList_append, String.toList_append,
            List.append_assoc, partsFrom_append isPart.alphanumeric,
            partsFrom_separator isSeparator, hypothesis areRest, List.append_nil,
            List.reverse_reverse, isPart.single]
          rfl

/-! ## The tokens of ASCII names -/

/-- The parts of a text are ASCII, and in lowercase they are the given words. -/
structure Spells (text : String) (words : List (List Char)) : Prop where
  ascii : ∀ part ∈ partsFrom [] text.toList, ∀ c ∈ part, IsAscii c
  lowered : (partsFrom [] text.toList).map (·.map Char.toLower) = words

theorem mem_tokens_iff {text token : String} :
    token ∈ tokens text ↔ ∃ part ∈ partsFrom [] text.toList,
      2 ≤ part.length ∧ lowercase (String.ofList part) = token := by
  rw [tokens, Keyed.mem_keys_ofList, parts, ← partsFrom]
  simp [and_assoc]

/-- The tokens of a text are the words that it spells, but for those of one character. -/
theorem Spells.mem_tokens_iff {text token : String} {words : List (List Char)}
    (spells : Spells text words) :
    token ∈ tokens text ↔ ∃ word ∈ words, 2 ≤ word.length ∧ String.ofList word = token := by
  rw [Search.mem_tokens_iff, ← spells.lowered]
  constructor
  · rintro ⟨part, member, long, rfl⟩
    refine ⟨_, List.mem_map_of_mem member, by rwa [List.length_map], ?_⟩
    exact (lowercase_of_ascii (spells.ascii part member)).symm
  · rintro ⟨word, member, long, rfl⟩
    obtain ⟨part, isPart, rfl⟩ := List.mem_map.mp member
    refine ⟨part, isPart, by rwa [List.length_map] at long, ?_⟩
    exact lowercase_of_ascii (spells.ascii part isPart)

theorem spells_intercalate (isSeparator : IsSeparator separator)
    (areParts : ∀ piece ∈ pieces, IsPart piece.toList) :
    Spells (separator.intercalate pieces)
      (pieces.map fun piece => piece.toList.map Char.toLower) := by
  have parts := partsFrom_intercalate isSeparator areParts
  constructor
  · rw [parts]
    intro part member
    obtain ⟨piece, isPiece, rfl⟩ := List.mem_map.mp member
    exact (areParts piece isPiece).ascii
  · rw [parts, List.map_map]
    rfl

theorem map_toLower_of_small (small : ∀ c ∈ word, IsSmall c) : word.map Char.toLower = word :=
  (List.map_congr_left fun c member => toLower_of_isSmall (small c member)).trans (List.map_id word)

/-! ## Words and styles -/

/-- A word that names are made of: small letters and then digits, at least two characters
together. -/
structure NameWord where
  letters : List Char
  digits : List Char
  areLetters : ∀ c ∈ letters, c.isLower = true
  areDigits : ∀ c ∈ digits, c.isDigit = true
  lettered : letters ≠ []
  long : 2 ≤ (letters ++ digits).length

namespace NameWord

def text (word : NameWord) : String := String.ofList (word.letters ++ word.digits)

/-- The word with capitals for all its letters. -/
def inCapitals (word : NameWord) : String :=
  String.ofList ((word.letters ++ word.digits).map Char.toUpper)

/-- The word with a capital for its first letter. -/
def capitalized (word : NameWord) : String :=
  match word.letters ++ word.digits with
  | [] => ""
  | c :: rest => String.ofList (c.toUpper :: rest)

end NameWord

/-- The ways of writing a name that is made of words. -/
inductive NamingStyle
  | snake
  | kebab
  | screamingSnake
  | camel
  | pascal
  | slashed
  | dotted
  /-- With one blank more than the given number between two words. -/
  | spaced (more : Nat)
deriving DecidableEq, Repr

/-- A name made of words, in a style. -/
def NamingStyle.spell : NamingStyle → List NameWord → String
  | .snake, words => "_".intercalate (words.map NameWord.text)
  | .kebab, words => "-".intercalate (words.map NameWord.text)
  | .screamingSnake, words => "_".intercalate (words.map NameWord.inCapitals)
  | .camel, [] => ""
  | .camel, first :: others => first.text ++ String.join (others.map NameWord.capitalized)
  | .pascal, words => String.join (words.map NameWord.capitalized)
  | .slashed, words => "/".intercalate (words.map NameWord.text)
  | .dotted, words => ".".intercalate (words.map NameWord.text)
  | .spaced more, words =>
      (String.ofList (List.replicate (more + 1) ' ')).intercalate (words.map NameWord.text)

variable (nameWord : NameWord) {words : List NameWord}

namespace NameWord

theorem small : ∀ c ∈ nameWord.letters ++ nameWord.digits, IsSmall c :=
  List.forall_mem_append.mpr ⟨fun c member => .inl (nameWord.areLetters c member),
    fun c member => .inr (nameWord.areDigits c member)⟩

theorem isPart_text : IsPart nameWord.text.toList := by
  rw [text, String.toList_ofList]
  exact isPart_of_small (by simp [nameWord.lettered]) nameWord.small

theorem toLower_text : nameWord.text.toList.map Char.toLower = nameWord.text.toList := by
  rw [text, String.toList_ofList]
  exact map_toLower_of_small nameWord.small

theorem toList_inCapitals :
    nameWord.inCapitals.toList = nameWord.letters.map Char.toUpper ++ nameWord.digits := by
  rw [inCapitals, String.toList_ofList, List.map_append]
  congr 1
  exact (List.map_congr_left fun c member => toUpper_of_isDigit (nameWord.areDigits c member)).trans
    (List.map_id _)

theorem isPart_inCapitals : IsPart nameWord.inCapitals.toList := by
  rw [toList_inCapitals]
  apply isPart_of_capitals
  · simp [nameWord.lettered]
  · intro c member
    obtain ⟨letter, isLetter, rfl⟩ := List.mem_map.mp member
    exact isCapital_toUpper (nameWord.areLetters letter isLetter)
  · exact nameWord.areDigits

theorem toLower_inCapitals :
    nameWord.inCapitals.toList.map Char.toLower = nameWord.text.toList := by
  have letters : (nameWord.letters.map Char.toUpper).map Char.toLower = nameWord.letters := by
    rw [List.map_map]
    refine (List.map_congr_left fun c member => ?_).trans (List.map_id _)
    exact toLower_toUpper (nameWord.areLetters c member)
  have digits := map_toLower_of_small fun c member => Or.inr (nameWord.areDigits c member)
  rw [toList_inCapitals, List.map_append, letters, digits, text, String.toList_ofList]

/-- A word begins with a letter, and more follows. -/
theorem exists_tail : ∃ c tail, nameWord.text.toList = c :: tail ∧
    nameWord.capitalized.toList = c.toUpper :: tail ∧ c.isLower = true ∧ tail ≠ [] ∧
      ∀ other ∈ tail, IsSmall other := by
  obtain ⟨c, letters, split⟩ := List.exists_cons_of_ne_nil nameWord.lettered
  have whole : nameWord.letters ++ nameWord.digits = c :: (letters ++ nameWord.digits) := by
    rw [split, List.cons_append]
  have small := nameWord.small
  have long := nameWord.long
  rw [whole] at small long
  refine ⟨c, letters ++ nameWord.digits, ?_, ?_, ?_, ?_, (List.forall_mem_cons.mp small).2⟩
  · rw [text, whole, String.toList_ofList]
  · rw [capitalized, whole]
    exact String.toList_ofList
  · exact nameWord.areLetters c (split ▸ List.mem_cons_self)
  · rintro none
    rw [none] at long
    exact absurd long (Nat.not_le.mpr Nat.one_lt_two)

theorem alphanumeric_capitalized : ∀ c ∈ nameWord.capitalized.toList, isAlphanumeric c = true := by
  obtain ⟨c, tail, -, split, lower, -, small⟩ := nameWord.exists_tail
  rw [split]
  refine List.forall_mem_cons.mpr ?_
  exact ⟨(isCapital_toUpper lower).isAlphanumeric,
    fun other member => isAlphanumeric_of_isSmall (small other member)⟩

theorem ascii_capitalized : ∀ c ∈ nameWord.capitalized.toList, IsAscii c := by
  obtain ⟨c, tail, -, split, lower, -, small⟩ := nameWord.exists_tail
  rw [split]
  refine List.forall_mem_cons.mpr ?_
  exact ⟨(isCapital_toUpper lower).ascii, fun other member => (small other member).isAscii⟩

theorem toLower_capitalized :
    nameWord.capitalized.toList.map Char.toLower = nameWord.text.toList := by
  obtain ⟨c, tail, isText, split, lower, -, small⟩ := nameWord.exists_tail
  rw [split, isText, List.map_cons, toLower_toUpper lower, map_toLower_of_small small]

end NameWord

/-- A word that goes on after a character ends in a small letter or a digit. -/
theorem ends_getLastD (some : run ≠ []) (small : ∀ c ∈ run, IsSmall c) (c : Char) :
    (isLower (run.getLastD c) || isNumeric (run.getLastD c)) = true := by
  obtain ⟨next, others, rfl⟩ := List.exists_cons_of_ne_nil some
  rw [List.getLastD_cons]
  exact isLower_or_isNumeric_of_isSmall (small _ List.getLastD_mem_cons)

/-- After the end of a word every word that begins with a capital is a part. -/
theorem splitAfter_capitalized (words : List NameWord)
    (ends : (isLower previous || isNumeric previous) = true) :
    splitAfter previous part (words.flatMap (·.capitalized.toList)) =
      part.reverse :: words.map (·.capitalized.toList) := by
  induction words generalizing previous part with
  | nil => rfl
  | cons nameWord words hypothesis =>
      obtain ⟨c, tail, -, split, lower, some, small⟩ := nameWord.exists_tail
      have begins (following : List Char) : beginsPart previous c.toUpper following = true := by
        rw [beginsPart, (isCapital_toUpper lower).isUpper, ends]
        rfl
      rw [List.flatMap_cons, split, List.cons_append, splitAfter_cons_of_begins (begins _),
        splitAfter_append small, hypothesis (ends_getLastD some small _), List.map_cons, split]
      simp

/-- Words that begin with capitals are the parts of what they make, and so is what stands before
them if it ends like a word. -/
theorem nameParts_capitalized (words : List NameWord) (some : run ≠ [])
    (small : ∀ c ∈ run, IsSmall c) :
    nameParts (c :: run ++ words.flatMap (·.capitalized.toList)) =
      (c :: run) :: words.map (·.capitalized.toList) := by
  rw [List.cons_append, nameParts, splitAfter_append small,
    splitAfter_capitalized words (ends_getLastD some small c)]
  simp

theorem alphanumeric_join (words : List NameWord) :
    ∀ c ∈ words.flatMap (·.capitalized.toList), isAlphanumeric c = true := by
  intro c member
  obtain ⟨nameWord, -, within⟩ := List.mem_flatMap.mp member
  exact nameWord.alphanumeric_capitalized c within

theorem toList_join (words : List NameWord) :
    (String.join (words.map NameWord.capitalized)).toList =
      words.flatMap (·.capitalized.toList) := by
  rw [String.toList_join, List.flatMap_map]

theorem spells_pascal (words : List NameWord) :
    Spells (NamingStyle.pascal.spell words) (words.map (·.text.toList)) := by
  have parts : partsFrom [] (NamingStyle.pascal.spell words).toList =
      words.map (·.capitalized.toList) := by
    rw [NamingStyle.spell, toList_join, partsFrom_of_name (alphanumeric_join words)]
    cases words with
    | nil => rfl
    | cons first others =>
        obtain ⟨c, tail, -, split, -, some, small⟩ := first.exists_tail
        rw [List.flatMap_cons, List.map_cons, split]
        exact nameParts_capitalized others some small
  constructor
  · rw [parts]
    intro part member
    obtain ⟨nameWord, -, rfl⟩ := List.mem_map.mp member
    exact nameWord.ascii_capitalized
  · rw [parts, List.map_map]
    exact List.map_congr_left fun nameWord _ => nameWord.toLower_capitalized

theorem spells_camel (words : List NameWord) :
    Spells (NamingStyle.camel.spell words) (words.map (·.text.toList)) := by
  cases words with
  | nil => exact ⟨nofun, rfl⟩
  | cons first others =>
      have parts : partsFrom [] (NamingStyle.camel.spell (first :: others)).toList =
          first.text.toList :: others.map (·.capitalized.toList) := by
        have name : ∀ c ∈ first.text.toList ++ others.flatMap (·.capitalized.toList),
            isAlphanumeric c = true :=
          List.forall_mem_append.mpr ⟨first.isPart_text.alphanumeric, alphanumeric_join others⟩
        obtain ⟨c, tail, split, -, -, some, small⟩ := first.exists_tail
        rw [NamingStyle.spell, String.toList_append, toList_join, partsFrom_of_name name, split]
        exact nameParts_capitalized others some small
      constructor
      · rw [parts]
        refine List.forall_mem_cons.mpr ⟨first.isPart_text.ascii, fun part member => ?_⟩
        obtain ⟨nameWord, -, rfl⟩ := List.mem_map.mp member
        exact nameWord.ascii_capitalized
      · rw [parts, List.map_cons, first.toLower_text, List.map_cons, List.map_map]
        congr 1
        exact List.map_congr_left fun nameWord _ => nameWord.toLower_capitalized

/-- Words with separators between them are spelled, in whichever case. -/
theorem spells_separated {render : NameWord → String} (isSeparator : IsSeparator separator)
    (areParts : ∀ nameWord, IsPart (render nameWord).toList)
    (lowered : ∀ nameWord, (render nameWord).toList.map Char.toLower = nameWord.text.toList)
    (words : List NameWord) :
    Spells (separator.intercalate (words.map render)) (words.map (·.text.toList)) := by
  have rendered : ∀ piece ∈ words.map render, IsPart piece.toList := by
    intro piece member
    obtain ⟨nameWord, -, rfl⟩ := List.mem_map.mp member
    exact areParts nameWord
  have spells := spells_intercalate isSeparator rendered
  rw [List.map_map] at spells
  have same : words.map ((fun piece => piece.toList.map Char.toLower) ∘ render) =
      words.map (·.text.toList) :=
    List.map_congr_left fun nameWord _ => lowered nameWord
  rwa [same] at spells

theorem isSeparator_blanks (more : Nat) :
    IsSeparator (String.ofList (List.replicate (more + 1) ' ')) := by
  constructor
  · simp [String.ext_iff]
  · rw [String.toList_ofList]
    intro c member
    rw [List.eq_of_mem_replicate member]
    decide

/-- A name spells its words in every style. -/
theorem spells_spell (style : NamingStyle) (words : List NameWord) :
    Spells (style.spell words) (words.map (·.text.toList)) := by
  have inSmall {separator : String} (isSeparator : IsSeparator separator) :=
    spells_separated isSeparator NameWord.isPart_text NameWord.toLower_text words
  cases style with
  | snake => exact inSmall (by decide)
  | kebab => exact inSmall (by decide)
  | screamingSnake =>
      exact spells_separated (by decide) NameWord.isPart_inCapitals NameWord.toLower_inCapitals
        words
  | camel => exact spells_camel words
  | pascal => exact spells_pascal words
  | slashed => exact inSmall (by decide)
  | dotted => exact inSmall (by decide)
  | spaced more => exact inSmall (isSeparator_blanks more)

/-! ## The set of tokens -/

/-- Texts with the same tokens have them in the same order. -/
theorem tokens_eq_of_mem_iff {first second : String}
    (same : ∀ token, token ∈ tokens first ↔ token ∈ tokens second) :
    tokens first = tokens second :=
  eq_of_ascending (Keyed.pairwise_keys _) (Keyed.pairwise_keys _) same

theorem mem_tokens_spell_iff (style : NamingStyle) (words : List NameWord) (token : String) :
    token ∈ tokens (style.spell words) ↔ token ∈ words.map NameWord.text := by
  rw [(spells_spell style words).mem_tokens_iff, List.mem_map]
  constructor
  · rintro ⟨_, member, -, rfl⟩
    obtain ⟨nameWord, isWord, rfl⟩ := List.mem_map.mp member
    exact ⟨nameWord, isWord, String.ofList_toList.symm⟩
  · rintro ⟨nameWord, isWord, rfl⟩
    refine ⟨_, List.mem_map_of_mem isWord, ?_, String.ofList_toList⟩
    rw [NameWord.text, String.toList_ofList]
    exact nameWord.long

/-! ## The tokens of the tokens -/

theorem mem_of_mem_splitAfter {piece : List Char} (isPiece : piece ∈ splitAfter previous part rest)
    (within : c ∈ piece) : c ∈ part ∨ c ∈ rest := by
  induction rest generalizing previous part with
  | nil =>
      rw [splitAfter, List.mem_singleton] at isPiece
      exact .inl (List.mem_reverse.mp (isPiece ▸ within))
  | cons next rest hypothesis =>
      rw [splitAfter] at isPiece
      split at isPiece
      · rcases List.mem_cons.mp isPiece with rfl | later
        · exact .inl (List.mem_reverse.mp within)
        · rcases hypothesis later with first | inRest
          · exact .inr (List.mem_singleton.mp first ▸ List.mem_cons_self)
          · exact .inr (List.mem_cons_of_mem _ inRest)
      · rcases hypothesis isPiece with inPart | inRest
        · rcases List.mem_cons.mp inPart with rfl | inPart
          · exact .inr List.mem_cons_self
          · exact .inl inPart
        · exact .inr (List.mem_cons_of_mem _ inRest)

theorem mem_of_mem_nameParts {piece : List Char} (isPiece : piece ∈ nameParts word)
    (within : c ∈ piece) : c ∈ word := by
  cases word with
  | nil => cases isPiece
  | cons first rest =>
      rcases mem_of_mem_splitAfter isPiece within with inFirst | inRest
      · exact List.mem_singleton.mp inFirst ▸ List.mem_cons_self
      · exact List.mem_cons_of_mem _ inRest

theorem mem_of_mem_runsFrom {text name : List Char} (isName : name ∈ runsFrom run text)
    (within : c ∈ name) : c ∈ run ∨ c ∈ text ∧ isAlphanumeric c = true := by
  induction text generalizing run with
  | nil =>
      rw [runsFrom, List.mem_singleton] at isName
      exact .inl (List.mem_reverse.mp (isName ▸ within))
  | cons first rest hypothesis =>
      rw [runsFrom] at isName
      split at isName
      next alphanumeric =>
        rcases hypothesis isName with inRun | ⟨inRest, isNameCharacter⟩
        · rcases List.mem_cons.mp inRun with rfl | inRun
          · exact .inr ⟨List.mem_cons_self, alphanumeric⟩
          · exact .inl inRun
        · exact .inr ⟨List.mem_cons_of_mem _ inRest, isNameCharacter⟩
      next =>
        rcases List.mem_cons.mp isName with rfl | later
        · exact .inl (List.mem_reverse.mp within)
        · rcases hypothesis later with inNone | ⟨inRest, isNameCharacter⟩
          · cases inNone
          · exact .inr ⟨List.mem_cons_of_mem _ inRest, isNameCharacter⟩

/-- The characters of the parts are letters and digits of the text. -/
theorem mem_of_mem_partsFrom {text piece : List Char} (isPiece : piece ∈ partsFrom [] text)
    (within : c ∈ piece) : c ∈ text ∧ isAlphanumeric c = true := by
  obtain ⟨name, isName, isPart⟩ := List.mem_flatMap.mp isPiece
  rcases mem_of_mem_runsFrom isName (mem_of_mem_nameParts isPart within) with inNone | inText
  · cases inNone
  · exact inText

/-- A token of an ASCII text has at least two characters, and all are small. -/
theorem small_of_mem_tokens {text token : String} (ascii : ∀ c ∈ text.toList, IsAscii c)
    (member : token ∈ tokens text) :
    2 ≤ token.toList.length ∧ ∀ c ∈ token.toList, IsSmall c := by
  obtain ⟨part, isPart, long, rfl⟩ := mem_tokens_iff.mp member
  have asciiPart : ∀ c ∈ part, IsAscii c := fun c within =>
    ascii c (mem_of_mem_partsFrom isPart within).1
  rw [lowercase_of_ascii asciiPart, String.toList_ofList, List.length_map]
  refine ⟨long, fun c within => ?_⟩
  obtain ⟨old, isOld, rfl⟩ := List.mem_map.mp within
  exact isSmall_toLower (asciiPart old isOld) (mem_of_mem_partsFrom isPart isOld).2

/-- The tokens of an ASCII text with blanks between them have the tokens of the text. -/
theorem mem_tokens_joined_iff {text : String} (ascii : ∀ c ∈ text.toList, IsAscii c)
    (token : String) : token ∈ tokens (" ".intercalate (tokens text)) ↔ token ∈ tokens text := by
  have small {piece : String} (member : piece ∈ tokens text) := small_of_mem_tokens ascii member
  have areParts : ∀ piece ∈ tokens text, IsPart piece.toList := by
    intro piece member
    obtain ⟨long, areSmall⟩ := small member
    exact isPart_of_small (List.ne_nil_of_length_pos (Nat.lt_of_lt_of_le Nat.two_pos long)) areSmall
  have lowered : ∀ piece ∈ tokens text, piece.toList.map Char.toLower = piece.toList :=
    fun piece member => map_toLower_of_small (small member).2
  rw [(spells_intercalate (by decide) areParts).mem_tokens_iff, List.map_congr_left lowered]
  constructor
  · rintro ⟨_, member, -, rfl⟩
    obtain ⟨piece, isPiece, rfl⟩ := List.mem_map.mp member
    rwa [String.ofList_toList]
  · intro member
    exact ⟨_, List.mem_map_of_mem member, (small member).1, String.ofList_toList⟩

/-- A name has the same tokens in every style, which are its words, and the tokens of an ASCII text
are those of the text in which they stand with blanks between them. -/
theorem tokens_of_every_style :
    (∀ (style : NamingStyle) (words : List NameWord),
      (tokens (style.spell words)).Pairwise (· < ·) ∧
        (∀ token, token ∈ tokens (style.spell words) ↔ token ∈ words.map NameWord.text) ∧
        ∀ other : NamingStyle, tokens (other.spell words) = tokens (style.spell words)) ∧
      ∀ text : String, (∀ c ∈ text.toList, IsAscii c) →
        tokens (" ".intercalate (tokens text)) = tokens text := by
  refine ⟨fun style words => ⟨Keyed.pairwise_keys _, mem_tokens_spell_iff style words,
    fun other => ?_⟩, fun text ascii => ?_⟩
  · apply tokens_eq_of_mem_iff
    intro token
    rw [mem_tokens_spell_iff, mem_tokens_spell_iff]
  · apply tokens_eq_of_mem_iff
    exact mem_tokens_joined_iff ascii

/-- The words `parse` and `http2`. -/
def demoWords : List NameWord :=
  [⟨['p', 'a', 'r', 's', 'e'], [], List.all_eq_true.mp (by decide), List.all_eq_true.mp (by decide),
      by decide, by decide⟩,
    ⟨['h', 't', 't', 'p'], ['2'], List.all_eq_true.mp (by decide), List.all_eq_true.mp (by decide),
      by decide, by decide⟩]

/-- A text with a capital run and a word that is too short. -/
def demoText : List Char := ['x', ' ', 'H', 'T', 'T', 'P', 'R', 'u', 'n']

/-- A name in two styles, and the tokens of a text. -/
theorem tokens_of_demoWords :
    NamingStyle.camel.spell demoWords = "parseHttp2" ∧
      NamingStyle.screamingSnake.spell demoWords = "PARSE_HTTP2" ∧
      tokens "PARSE_HTTP2" = tokens "parseHttp2" ∧
      (∀ c ∈ demoText, IsAscii c) ∧
      tokens (" ".intercalate (tokens (String.ofList demoText))) =
        tokens (String.ofList demoText) := by
  obtain ⟨styles, joined⟩ := tokens_of_every_style
  have camel : NamingStyle.camel.spell demoWords = "parseHttp2" := by decide +kernel
  have screaming : NamingStyle.screamingSnake.spell demoWords = "PARSE_HTTP2" := by decide +kernel
  have same := (styles .camel demoWords).2.2 .screamingSnake
  rw [camel, screaming] at same
  have ascii : ∀ c ∈ demoText, IsAscii c := by simp [demoText, IsAscii]
  refine ⟨camel, screaming, same, ascii, joined _ ?_⟩
  rw [String.toList_ofList]
  exact ascii

end CodeAtlas.Search
