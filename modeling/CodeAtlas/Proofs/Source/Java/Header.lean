import CodeAtlas.Proofs.Text.Cut
import CodeAtlas.Source.Java
import Mathlib.Data.Bool.AllAny
import Mathlib.Data.List.Basic

/-!
# Headers of classes

The header of a Java class names its supertypes after the words `extends` and `implements`.  Types
have lists of arguments in angle brackets, nested to any depth, so that commas and the word
`extends` also stand inside of types and of the bounds of type parameters.
-/

namespace CodeAtlas.Source.Java

open CodeAtlas.Text

/-! ## The grammar of headers -/

/-- The word before the class that a class extends. -/
def extendsWord : List Char := "extends".toList

/-- The word before the interfaces that a class implements. -/
def implementsWord : List Char := "implements".toList

theorem toList_extends : "extends".toList = extendsWord := rfl

theorem toList_implements : "implements".toList = implementsWord := rfl

/-- Signs of headers that belong to no name. -/
def headerSigns : List Char := ['<', '>', ',', '?', '&', '{']

/-- Characters of names: neither blanks nor signs of headers. -/
def isNamePart (c : Char) : Bool := !isBlank c && !headerSigns.contains c

/-- The name of a type, with points where wanted. -/
@[ext]
structure TypeName where
  characters : List Char
  nonempty : characters ≠ [] := by decide
  parts : characters.all isNamePart = true := by decide
  notExtends : characters ≠ extendsWord := by decide
  notImplements : characters ≠ implementsWord := by decide

/-- What an argument says of its type. -/
inductive Variance
  /-- It is the type. -/
  | exact
  /-- It is a type below it, `? extends T`. -/
  | upper
  /-- It is a type above it, `? super T`. -/
  | lower
deriving DecidableEq

def Variance.words : Variance → List Char
  | .exact => []
  | .upper => "? extends ".toList
  | .lower => "? super ".toList

/-- An argument of a type. -/
inductive TypeArgument
  /-- Any type at all, `?`. -/
  | any
  | type (variance : Variance) (name : TypeName) (arguments : List TypeArgument)

/-- A comma, and a number of spaces. -/
def separator (gap : ℕ) : List Char := ',' :: List.replicate gap ' '

/-- A list in angle brackets, if it is not empty. -/
def bracketed (gap : ℕ) : List (List Char) → List Char
  | [] => []
  | first :: others => '<' :: (joinWith (separator gap) (first :: others) ++ ['>'])

namespace TypeArgument

/-- The arguments of the type of an argument. -/
def arguments : TypeArgument → List TypeArgument
  | .any => []
  | .type _ _ arguments => arguments

/-- Whether an argument is of the form `? extends T`. -/
def isUpper : TypeArgument → Bool
  | .any => false
  | .type variance _ _ => variance = .upper

mutual

/-- The text of an argument, with a number of spaces after every comma. -/
def text (gap : ℕ) : TypeArgument → List Char
  | .any => ['?']
  | .type variance name arguments =>
      variance.words ++ (name.characters ++ bracketed gap (texts gap arguments))

def texts (gap : ℕ) : List TypeArgument → List (List Char)
  | [] => []
  | argument :: arguments => argument.text gap :: texts gap arguments

end

mutual

/-- Whether an argument or one inside of it passes a test. -/
def someWithin (test : TypeArgument → Bool) : TypeArgument → Bool
  | .any => test .any
  | .type variance name arguments =>
      test (.type variance name arguments) || someAmong test arguments

def someAmong (test : TypeArgument → Bool) : List TypeArgument → Bool
  | [] => false
  | argument :: arguments => argument.someWithin test || someAmong test arguments

end

/-- Whether a list of arguments in an argument has more than one entry. -/
def several : TypeArgument → Bool := someWithin fun argument => 2 ≤ argument.arguments.length

/-- Whether `? extends T` stands in an argument. -/
def hasUpper : TypeArgument → Bool := someWithin isUpper

/-- What an argument has if the arguments of its type have it, all arguments have. -/
@[elab_as_elim]
theorem induct {motive : TypeArgument → Prop} (any : motive .any)
    (type : ∀ variance name arguments, (∀ argument ∈ arguments, motive argument) →
      motive (.type variance name arguments)) (argument : TypeArgument) : motive argument :=
  match argument with
  | .any => any
  | .type variance name arguments =>
      type variance name arguments fun argument _ => induct any type argument
termination_by argument
decreasing_by
  have smaller := List.sizeOf_lt_of_mem ‹argument ∈ arguments›
  simp only [TypeArgument.type.sizeOf_spec]
  omega

variable {gap : ℕ} {test : TypeArgument → Bool} {arguments : List TypeArgument}

theorem texts_eq_map : texts gap arguments = arguments.map (text gap) := by
  induction arguments with
  | nil => rfl
  | cons argument arguments induction => rw [texts, induction, List.map_cons]

theorem someAmong_eq_any : someAmong test arguments = arguments.any (someWithin test) := by
  induction arguments with
  | nil => rfl
  | cons argument arguments induction => rw [someAmong, induction, List.any_cons]

theorem several_type (variance : Variance) (name : TypeName) :
    (type variance name arguments).several =
      (decide (2 ≤ arguments.length) || arguments.any several) := by
  rw [several, someWithin, someAmong_eq_any]
  rfl

theorem hasUpper_type (variance : Variance) (name : TypeName) :
    (type variance name arguments).hasUpper =
      (decide (variance = .upper) || arguments.any hasUpper) := by
  rw [hasUpper, someWithin, someAmong_eq_any]
  rfl

end TypeArgument

/-- A type with arguments, as a bound or as what a class extends or implements. -/
structure ClassType where
  name : TypeName
  arguments : List TypeArgument

namespace ClassType

/-- The type as an argument of another. -/
def argument (type : ClassType) : TypeArgument := .type .exact type.name type.arguments

def text (gap : ℕ) (type : ClassType) : List Char := type.argument.text gap

/-- Whether a list of arguments in the type has more than one entry. -/
def several (type : ClassType) : Bool := type.argument.several

/-- Whether `? extends T` stands in the type. -/
def hasUpper (type : ClassType) : Bool := type.argument.hasUpper

end ClassType

/-- A parameter of a class and its bounds, `T extends B & C`. -/
structure TypeParameter where
  name : TypeName
  bounds : List ClassType

/-- The bounds of a parameter. -/
def boundText (gap : ℕ) : List ClassType → List Char
  | [] => []
  | first :: others =>
      spaced extendsWord ++ joinWith " & ".toList ((first :: others).map (ClassType.text gap))

def TypeParameter.text (gap : ℕ) (parameter : TypeParameter) : List Char :=
  parameter.name.characters ++ boundText gap parameter.bounds

/-- Words, each with a space after it. -/
def spelled (words : List String) : List Char := words.flatMap fun word => word.toList ++ [' ']

/-- The header of a class. -/
structure ClassHeader where
  modifiers : List String
  areModifiers : ∀ modifier ∈ modifiers, modifier ∈ modifierWords := by decide
  name : TypeName
  parameters : List TypeParameter
  superclass : Option ClassType
  interfaces : List ClassType

namespace ClassHeader

/-- The words before the name of a class. -/
def words (header : ClassHeader) : List Char := spelled (header.modifiers ++ ["class"])

/-- What precedes the supertypes of a class. -/
def front (gap : ℕ) (header : ClassHeader) : List Char :=
  header.words ++
    (header.name.characters ++ bracketed gap (header.parameters.map (TypeParameter.text gap)))

/-- The class that a class extends, after its word. -/
def extension (gap : ℕ) : Option ClassType → List Char
  | none => []
  | some type => spaced extendsWord ++ type.text gap

/-- The interfaces that a class implements, after their word. -/
def implementation (gap : ℕ) : List ClassType → List Char
  | [] => []
  | first :: others =>
      spaced implementsWord ++
        joinWith (separator gap) ((first :: others).map (ClassType.text gap))

/-- The line of a header, which ends in a brace and what follows it. -/
def line (gap : ℕ) (header : ClassHeader) (rest : List Char) : List Char :=
  header.front gap ++ (extension gap header.superclass ++
    (implementation gap header.interfaces ++ ' ' :: '{' :: rest))

/-- The types that a class extends and implements, without their arguments. -/
def supertypes (header : ClassHeader) : List String :=
  (header.superclass.toList ++ header.interfaces).map fun type =>
    String.ofList type.name.characters

end ClassHeader

/-! ## Texts of headers -/

section Texts

variable {c : Char} {front back text more : List Char} {texts : List (List Char)} {gap : ℕ}

/-- A text begins, after blanks, with more than a list of arguments. -/
def Opens (text : List Char) : Prop := ∃ c ∈ (trimStart text).head?, c ≠ '<'

/-- There is a name at the beginning of a text and after each of its commas. -/
def Enumerates (text : List Char) : Prop := ∀ piece ∈ splitOn ',' text, Opens piece

/-- There is a name after each comma of a text. -/
def Continues (text : List Char) : Prop := ∀ piece ∈ (splitOn ',' text).tail, Opens piece

theorem Opens.spec (opens : Opens text) :
    ∃ c rest, trimStart text = c :: rest ∧ isBlank c = false ∧ c ≠ '<' := by
  obtain ⟨c, first, different⟩ := opens
  obtain ⟨rest, trimmed⟩ := List.head?_eq_some_iff.mp first
  have stops := List.head?_dropWhile_not isBlank text
  rw [trimStart] at first
  rw [Option.mem_def.mp first] at stops
  exact ⟨c, rest, trimmed, Bool.eq_false_iff.mpr (by simpa using stops), different⟩

theorem Opens.append (opens : Opens text) (more : List Char) : Opens (text ++ more) := by
  obtain ⟨c, rest, trimmed, solid, different⟩ := opens.spec
  have first : c ∈ trimStart text := by
    rw [trimmed]
    exact List.mem_cons_self
  have member : c ∈ text := (List.dropWhile_sublist isBlank).subset first
  refine ⟨c, ?_, different⟩
  rw [trimStart_append member solid, trimmed]
  rfl

theorem Continues.append (continues : Continues text) (continuesMore : Continues more) :
    Continues (text ++ more) := by
  obtain ⟨early, last, first, late, split, splitMore, whole⟩ :=
    exists_splitOn_append ',' text more
  rw [Continues, split] at continues
  rw [Continues, splitMore] at continuesMore
  intro piece member
  rw [whole] at member
  cases early with
  | nil => exact continuesMore piece member
  | cons head early =>
      rcases List.mem_append.mp member with before | after
      · exact continues piece (List.mem_append_left _ before)
      · rcases List.mem_cons.mp after with rfl | after
        · exact (continues last (by simp)).append first
        · exact continuesMore piece after

theorem continues_comma_iff : Continues (',' :: text) ↔ Enumerates text := by
  rw [Continues, splitOn_cons_self, List.tail_cons]
  rfl

theorem Enumerates.append (enumerates : Enumerates text) (continues : Continues more) :
    Enumerates (text ++ more) :=
  continues_comma_iff.mp ((continues_comma_iff.mpr enumerates).append continues)

theorem Enumerates.continues (enumerates : Enumerates text) : Continues text :=
  fun piece member => enumerates piece (List.mem_of_mem_tail member)

theorem continues_of_notMem (absent : ',' ∉ text) : Continues text := by
  rw [Continues, splitOn_of_notMem absent]
  exact fun piece member => nomatch member

theorem Continues.cons (continues : Continues text) (different : c ≠ ',') :
    Continues (c :: text) :=
  have single : Continues [c] := continues_of_notMem (by simpa using different.symm)
  single.append continues

/-- Blanks do not matter before the first name. -/
theorem Enumerates.space (enumerates : Enumerates text) : Enumerates (' ' :: text) := by
  have different : ' ' ≠ ',' := by decide
  obtain ⟨piece, pieces, split, splitMore⟩ := exists_splitOn_cons_of_ne different text
  rw [Enumerates, split] at enumerates
  rw [Enumerates, splitMore]
  obtain ⟨opens, others⟩ := List.forall_mem_cons.mp enumerates
  exact List.forall_mem_cons.mpr ⟨opens, others⟩

/-- A part of a header that has no word for interfaces in it. -/
structure IsHeaderText (text : List Char) : Prop where
  continues : Continues text
  closed : '{' ∉ text
  lacks : Lacks implementsWord text

/-- A part of a header that begins with a type. -/
structure IsTypeText (text : List Char) : Prop where
  enumerates : Enumerates text
  closed : '{' ∉ text
  lacks : Lacks implementsWord text

theorem IsTypeText.isHeaderText (isText : IsTypeText text) : IsHeaderText text :=
  ⟨isText.enumerates.continues, isText.closed, isText.lacks⟩

/-- Signs after which the text of a header goes on. -/
def joints : List Char := ['<', '>', '&']

theorem joints_plain (joint : c ∈ joints) :
    c ≠ ',' ∧ c ≠ '{' ∧ c ≠ ' ' ∧ c ∉ extendsWord ∧ c ∉ implementsWord := by
  have all : ∀ c ∈ joints,
      c ≠ ',' ∧ c ≠ '{' ∧ c ≠ ' ' ∧ c ∉ extendsWord ∧ c ∉ implementsWord :=
    List.all_iff_forall_prop.mp (by decide)
  exact all c joint

namespace IsHeaderText

theorem of_word (noComma : ',' ∉ text) (closed : '{' ∉ text) (solid : ' ' ∉ text)
    (different : text ≠ implementsWord) : IsHeaderText text :=
  ⟨continues_of_notMem noComma, closed, lacks_of_ne solid different⟩

theorem nil : IsHeaderText [] := of_word (by simp) (by simp) (by simp) (by decide)

theorem joint (inFront : IsHeaderText front) (joint : c ∈ joints) (inBack : IsHeaderText back) :
    IsHeaderText (front ++ c :: back) := by
  obtain ⟨noComma, noBrace, noSpace, -, noLetter⟩ := joints_plain joint
  refine ⟨inFront.continues.append (inBack.continues.cons noComma), ?_,
    inFront.lacks.sign inBack.lacks noLetter noSpace⟩
  simp [inFront.closed, inBack.closed, noBrace.symm]

theorem space (inFront : IsHeaderText front) (inBack : IsHeaderText back) :
    IsHeaderText (front ++ ' ' :: back) := by
  refine ⟨inFront.continues.append (inBack.continues.cons (by decide)), ?_,
    lacks_space_iff.mpr ⟨inFront.lacks, inBack.lacks⟩⟩
  simp [inFront.closed, inBack.closed]

end IsHeaderText

namespace IsTypeText

theorem joint (inFront : IsTypeText front) (joint : c ∈ joints) (inBack : IsHeaderText back) :
    IsTypeText (front ++ c :: back) := by
  have whole := inFront.isHeaderText.joint joint inBack
  obtain ⟨noComma, -⟩ := joints_plain joint
  exact ⟨inFront.enumerates.append (inBack.continues.cons noComma), whole.closed, whole.lacks⟩

theorem space (inFront : IsTypeText front) (inBack : IsHeaderText back) :
    IsTypeText (front ++ ' ' :: back) := by
  have whole := inFront.isHeaderText.space inBack
  exact ⟨inFront.enumerates.append (inBack.continues.cons (by decide)), whole.closed, whole.lacks⟩

theorem spaces (isText : IsTypeText text) (count : ℕ) :
    IsTypeText (List.replicate count ' ' ++ text) := by
  induction count with
  | zero => exact isText
  | succ count induction =>
      exact ⟨induction.enumerates.space, (IsHeaderText.nil.space induction.isHeaderText).closed,
        (IsHeaderText.nil.space induction.isHeaderText).lacks⟩

theorem comma (inFront : IsTypeText front) (inBack : IsTypeText back) :
    IsTypeText (front ++ (separator gap ++ back)) := by
  have spaced := inBack.spaces gap
  refine ⟨inFront.enumerates.append (continues_comma_iff.mpr spaced.enumerates), ?_,
    inFront.lacks.sign spaced.lacks (by decide) (by decide)⟩
  rw [separator, List.cons_append, List.mem_append, List.mem_cons]
  simp [inFront.closed, spaced.closed]

end IsTypeText

theorem IsTypeText.joined (some : texts ≠ []) (all : ∀ text ∈ texts, IsTypeText text) :
    IsTypeText (joinWith (separator gap) texts) :=
  joinWith_induct some all fun _ _ => .comma

theorem IsTypeText.bracketed (isText : IsTypeText text) (all : ∀ text ∈ texts, IsTypeText text) :
    IsTypeText (text ++ bracketed gap texts) := by
  cases texts with
  | nil => rwa [Java.bracketed, List.append_nil]
  | cons first others =>
      have joined : IsTypeText (joinWith (separator gap) (first :: others)) :=
        .joined (List.cons_ne_nil _ _) all
      exact isText.joint (by decide) (joined.joint (by decide) IsHeaderText.nil).isHeaderText

theorem comma_mem_joinWith_iff :
    ',' ∈ joinWith (separator gap) texts ↔ 2 ≤ texts.length ∨ ∃ text ∈ texts, ',' ∈ text := by
  match texts with
  | [] => simp [joinWith]
  | [text] => simp [joinWith]
  | text :: next :: texts => simp [joinWith_cons_cons, separator]

theorem comma_mem_bracketed_iff :
    ',' ∈ bracketed gap texts ↔ 2 ≤ texts.length ∨ ∃ text ∈ texts, ',' ∈ text := by
  cases texts with
  | nil => simp [bracketed]
  | cons text texts =>
      have inside : ',' ∈ joinWith (separator gap) (text :: texts) ↔ _ := comma_mem_joinWith_iff
      rw [bracketed, List.mem_cons, List.mem_append, inside]
      simp

end Texts

section Types

variable {gap : ℕ} {name : TypeName} {argument : TypeArgument}
  {arguments : List TypeArgument} {variance : Variance} {type : ClassType}
  {types : List ClassType} {parameter : TypeParameter}

theorem isNamePart_spec {c : Char} (part : isNamePart c = true) :
    isBlank c = false ∧ ∀ sign ∈ headerSigns, c ≠ sign := by
  rw [isNamePart, Bool.and_eq_true, Bool.not_eq_true', Bool.not_eq_true'] at part
  refine ⟨part.1, fun sign member same => ?_⟩
  rw [same, List.contains_iff_mem.mpr member] at part
  exact absurd part.2 (by decide)

theorem TypeName.isBlank_eq_false {c : Char} (member : c ∈ name.characters) : isBlank c = false :=
  (isNamePart_spec (List.all_eq_true.mp name.parts c member)).1

theorem TypeName.sign_notMem {sign : Char} (isSign : sign ∈ headerSigns) :
    sign ∉ name.characters := fun member =>
  (isNamePart_spec (List.all_eq_true.mp name.parts sign member)).2 sign isSign rfl

theorem TypeName.space_notMem : ' ' ∉ name.characters := fun member =>
  absurd (name.isBlank_eq_false member) (by decide)

theorem TypeName.isTypeText : IsTypeText name.characters := by
  have noComma : ',' ∉ name.characters := TypeName.sign_notMem (by decide)
  have word : IsHeaderText name.characters :=
    .of_word noComma (TypeName.sign_notMem (by decide)) TypeName.space_notMem name.notImplements
  refine ⟨?_, word.closed, word.lacks⟩
  rw [Enumerates, splitOn_of_notMem noComma, List.forall_mem_singleton]
  obtain ⟨c, others, begins⟩ := List.exists_cons_of_ne_nil name.nonempty
  have member : c ∈ name.characters := by simp [begins]
  have solid := TypeName.isBlank_eq_false member
  have noBracket : '<' ∉ name.characters := TypeName.sign_notMem (by decide)
  have different : c ≠ '<' := by
    rintro rfl
    exact noBracket member
  exact ⟨c, by simp [trimStart, begins, solid], different⟩

theorem TypeName.lacks : Lacks extendsWord name.characters :=
  lacks_of_ne TypeName.space_notMem name.notExtends

theorem isTypeText_question : IsTypeText ['?'] where
  enumerates := by
    have pieces : splitOn ',' ['?'] = [['?']] := by decide
    rw [Enumerates, pieces, List.forall_mem_singleton]
    exact ⟨'?', by decide, by decide⟩
  closed := by decide
  lacks := lacks_of_ne (by decide) (by decide)

theorem isHeaderText_extends : IsHeaderText extendsWord :=
  .of_word (by decide) (by decide) (by decide) (by decide)

theorem Variance.isTypeText {text : List Char} (isText : IsTypeText text) :
    IsTypeText (variance.words ++ text) := by
  have super : IsHeaderText "super".toList :=
    .of_word (by decide) (by decide) (by decide) (by decide)
  cases variance with
  | exact => exact isText
  | upper => exact isTypeText_question.space (isHeaderText_extends.space isText.isHeaderText)
  | lower => exact isTypeText_question.space (super.space isText.isHeaderText)

theorem TypeArgument.isTypeText (argument : TypeArgument) : IsTypeText (argument.text gap) := by
  induction argument using TypeArgument.induct with
  | any => exact isTypeText_question
  | type variance name arguments induction =>
      rw [TypeArgument.text, texts_eq_map]
      exact Variance.isTypeText (TypeName.isTypeText.bracketed (List.forall_mem_map.mpr induction))

theorem TypeArgument.isTypeText_joinWith (some : arguments ≠ []) :
    IsTypeText (joinWith (separator gap) (arguments.map (text gap))) :=
  .joined (by simpa using some) (List.forall_mem_map.mpr fun argument _ => argument.isTypeText)

theorem ClassType.isTypeText (type : ClassType) : IsTypeText (type.text gap) :=
  type.argument.isTypeText

/-- What follows the first bound of a parameter. -/
theorem IsTypeText.bounds {text : List Char} (isText : IsTypeText text) (types : List ClassType) :
    IsTypeText (text ++ types.flatMap fun type => " & ".toList ++ type.text gap) := by
  induction types generalizing text with
  | nil => simpa using isText
  | cons type types induction =>
      have next : IsTypeText (text ++ " & ".toList ++ type.text gap) := by
        rw [List.append_assoc]
        exact isText.space (IsHeaderText.nil.joint (by decide)
          (IsHeaderText.nil.space type.isTypeText.isHeaderText))
      rw [List.flatMap_cons, ← List.append_assoc, ← List.append_assoc]
      exact induction next

/-- The commas of a type stand in its lists of arguments. -/
theorem TypeArgument.comma_mem_text_iff : ',' ∈ argument.text gap ↔ argument.several = true := by
  induction argument using TypeArgument.induct with
  | any => exact (by decide : ',' ∈ ['?'] ↔ TypeArgument.any.several = true)
  | type variance name arguments induction =>
      have noWord : ',' ∉ variance.words := by cases variance <;> decide
      have noName : ',' ∉ name.characters := TypeName.sign_notMem (by decide)
      rw [text, List.mem_append, or_iff_right noWord, List.mem_append, or_iff_right noName,
        texts_eq_map, comma_mem_bracketed_iff, several_type, Bool.or_eq_true, decide_eq_true_eq,
        List.length_map, List.any_eq_true]
      refine or_congr_right ?_
      simp only [List.mem_map, exists_exists_and_eq_and]
      exact exists_congr fun argument => and_congr_right fun member => induction argument member

/-! ### The word for the class -/

/-- Whether a text mentions the word before the class that a class extends. -/
inductive Tells : Bool → List Char → Prop
  | not {text : List Char} : Lacks extendsWord text → Tells false text
  /-- What follows the word for the first time begins with a type. -/
  | first {front back : List Char} : Lacks extendsWord front → IsTypeText back →
      Tells true (front ++ (spaced extendsWord ++ back))

namespace Tells

variable {c : Char} {front back text : List Char} {inFront inBack tells : Bool}

theorem sign (before : Tells inFront front) (after : Tells inBack back) (absent : c ∉ extendsWord)
    (solid : c ≠ ' ') (goesOn : ∀ text, IsTypeText text → IsTypeText (text ++ c :: back)) :
    Tells (inFront || inBack) (front ++ c :: back) := by
  cases before with
  | first lacks isText =>
      rw [List.append_assoc, List.append_assoc]
      exact .first lacks (goesOn _ isText)
  | not lacks =>
      cases after with
      | not lacksAfter => exact .not (lacks.sign lacksAfter absent solid)
      | first lacksAfter isText =>
          rw [← List.cons_append, ← List.append_assoc]
          exact .first (lacks.sign lacksAfter absent solid) isText

theorem joint (before : Tells inFront front) (joint : c ∈ joints) (after : Tells inBack back)
    (isText : IsHeaderText back) : Tells (inFront || inBack) (front ++ c :: back) := by
  obtain ⟨-, -, noSpace, noLetter, -⟩ := joints_plain joint
  exact before.sign after noLetter noSpace fun _ isFront => isFront.joint joint isText

/-- Words that are no word for a class may precede a text. -/
theorem space (lacks : Lacks extendsWord front) (after : Tells tells back) :
    Tells tells (front ++ ' ' :: back) := by
  cases after with
  | not lacksAfter => exact .not (lacks_space_iff.mpr ⟨lacks, lacksAfter⟩)
  | first lacksAfter isText =>
      rw [← List.cons_append, ← List.append_assoc]
      exact .first (lacks_space_iff.mpr ⟨lacks, lacksAfter⟩) isText

/-- A space at the end does not matter. -/
theorem append_space (before : Tells tells front) : Tells tells (front ++ [' ']) := by
  cases before with
  | not lacks => exact .not (lacks_space_iff.mpr ⟨lacks, lacks_nil (by decide)⟩)
  | first lacks isText =>
      rw [List.append_assoc, List.append_assoc]
      exact .first lacks (isText.space .nil)

theorem spaces (after : Tells tells back) (count : ℕ) :
    Tells tells (List.replicate count ' ' ++ back) := by
  induction count with
  | zero => exact after
  | succ count induction => exact space (lacks_nil (by decide)) induction

theorem comma (before : Tells inFront front) (after : Tells inBack back)
    (isText : IsTypeText back) : Tells (inFront || inBack) (front ++ (separator gap ++ back)) :=
  before.sign (after.spaces gap) (by decide) (by decide) fun _ isFront => isFront.comma isText

theorem joined (some : arguments ≠ [])
    (all : ∀ argument ∈ arguments, Tells argument.hasUpper (argument.text gap)) :
    Tells (arguments.any TypeArgument.hasUpper)
      (joinWith (separator gap) (arguments.map (TypeArgument.text gap))) := by
  induction arguments with
  | nil => exact absurd rfl some
  | cons argument arguments induction =>
      obtain ⟨here, later⟩ := List.forall_mem_cons.mp all
      cases arguments with
      | nil => simpa [joinWith] using here
      | cons next arguments =>
          have others := induction (List.cons_ne_nil _ _) later
          rw [List.any_cons, List.map_cons, List.map_cons, joinWith_cons_cons, List.append_assoc]
          exact here.comma others (TypeArgument.isTypeText_joinWith (List.cons_ne_nil _ _))

end Tells

/-- A type mentions the word exactly if it stands before a bound in the type. -/
theorem TypeArgument.tells (argument : TypeArgument) :
    Tells argument.hasUpper (argument.text gap) := by
  have question : Lacks extendsWord ['?'] := lacks_of_ne (by decide) (by decide)
  have super : Lacks extendsWord "super".toList := lacks_of_ne (by decide) (by decide)
  induction argument using TypeArgument.induct with
  | any => exact .not question
  | type variance name arguments induction =>
      have named : Tells (arguments.any hasUpper)
          (name.characters ++ bracketed gap (arguments.map (text gap))) := by
        cases arguments with
        | nil => simpa [bracketed] using Tells.not name.lacks
        | cons argument arguments =>
            have closing : Tells false [] := .not (lacks_nil (by decide))
            have some : argument :: arguments ≠ [] := List.cons_ne_nil _ _
            have bracket : '>' ∈ joints := by decide
            have inside := (Tells.joined some induction).joint bracket closing .nil
            rw [Bool.or_false] at inside
            exact (Tells.not name.lacks).joint (by decide) inside
              ((isTypeText_joinWith some).joint (by decide) .nil).isHeaderText
      rw [hasUpper_type, text, texts_eq_map]
      cases variance with
      | exact => exact named
      | upper =>
          have isText : IsTypeText ((type .exact name arguments).text gap) := isTypeText _
          rw [text, texts_eq_map] at isText
          exact .first question isText
      | lower => exact .space question (.space super named)

/-! ### What precedes the supertypes -/

variable {header : ClassHeader} {rest : List Char}

theorem TypeParameter.text_of_unbounded (unbounded : parameter.bounds = []) :
    parameter.text gap = parameter.name.characters := by
  rw [text, unbounded, boundText, List.append_nil]

theorem TypeParameter.isTypeText (parameter : TypeParameter) : IsTypeText (parameter.text gap) := by
  rw [text]
  cases parameter.bounds with
  | nil => simpa [boundText] using TypeName.isTypeText
  | cons first others =>
      have bound : IsTypeText (first.text gap) := first.isTypeText
      rw [boundText, List.map_cons, joinWith_cons, List.flatMap_map]
      exact TypeName.isTypeText.space
        (isHeaderText_extends.space (bound.bounds others).isHeaderText)

/-- Further parameters may follow a type. -/
theorem IsTypeText.parameters {text : List Char} (isText : IsTypeText text)
    (parameters : List TypeParameter) : IsTypeText
      (text ++ parameters.flatMap fun parameter => separator gap ++ parameter.text gap) := by
  induction parameters generalizing text with
  | nil => simpa using isText
  | cons parameter parameters induction =>
      rw [List.flatMap_cons, ← List.append_assoc]
      exact induction (isText.comma parameter.isTypeText)

theorem lacks_comma {front back : List Char} (inFront : Lacks extendsWord front)
    (inBack : Lacks extendsWord back) : Lacks extendsWord (front ++ (separator gap ++ back)) :=
  inFront.sign (inBack.spaces (by decide) gap) (by decide) (by decide)

theorem lacks_bracketed {front : List Char} {texts : List (List Char)}
    (lacks : Lacks extendsWord front) (all : ∀ text ∈ texts, Lacks extendsWord text) :
    Lacks extendsWord (front ++ bracketed gap texts) := by
  cases texts with
  | nil => rwa [bracketed, List.append_nil]
  | cons first others =>
      have joined : Lacks extendsWord (joinWith (separator gap) (first :: others)) :=
        joinWith_induct (List.cons_ne_nil _ _) all fun _ _ => lacks_comma
      exact lacks.sign (joined.sign (lacks_nil (by decide)) (by decide) (by decide)) (by decide)
        (by decide)

theorem lacks_names (names : List TypeName) (lacks : Lacks extendsWord rest) :
    Lacks extendsWord (names.flatMap (fun name => name.characters ++ separator gap) ++ rest) := by
  induction names with
  | nil => exact lacks
  | cons name names induction =>
      rw [List.flatMap_cons, List.append_assoc, List.append_assoc]
      exact lacks_comma name.lacks induction

namespace ClassHeader

/-- The words before the name of a class are none of the words before supertypes. -/
theorem word_plain {word : String} (member : word ∈ header.modifiers ++ ["class"]) :
    IsHeaderText word.toList ∧ Lacks extendsWord word.toList := by
  have plain : ∀ word ∈ modifierWords ++ ["class"],
      ',' ∉ word.toList ∧ '{' ∉ word.toList ∧ ' ' ∉ word.toList ∧
        word.toList ≠ implementsWord ∧ word.toList ≠ extendsWord := by
    decide
  have isWord : word ∈ modifierWords ++ ["class"] := by
    rcases List.mem_append.mp member with modifier | last
    · exact List.mem_append_left _ (header.areModifiers word modifier)
    · exact List.mem_append_right _ last
  obtain ⟨noComma, closed, solid, notImplements, notExtends⟩ := plain word isWord
  exact ⟨.of_word noComma closed solid notImplements, lacks_of_ne solid notExtends⟩

/-- What a text has if it follows a word and a space, it has after the words of a header. -/
theorem words_induct {motive : List Char → Prop}
    (word : ∀ word rest, IsHeaderText word → Lacks extendsWord word → motive rest →
      motive (word ++ ' ' :: rest)) (holds : motive rest) : motive (header.words ++ rest) := by
  have all : ∀ word ∈ header.modifiers ++ ["class"],
      IsHeaderText word.toList ∧ Lacks extendsWord word.toList := fun _ => word_plain
  rw [words, spelled]
  generalize header.modifiers ++ ["class"] = words at all
  induction words with
  | nil => exact holds
  | cons first words induction =>
      obtain ⟨⟨isText, lacks⟩, others⟩ := List.forall_mem_cons.mp all
      rw [List.flatMap_cons, List.append_assoc, List.append_assoc]
      exact word _ _ isText lacks (induction others)

theorem isHeaderText_front (header : ClassHeader) : IsHeaderText (header.front gap) := by
  have named : IsTypeText (header.name.characters ++
      bracketed gap (header.parameters.map (TypeParameter.text gap))) :=
    TypeName.isTypeText.bracketed
      (List.forall_mem_map.mpr fun parameter _ => parameter.isTypeText)
  exact words_induct (fun _ _ isText _ => isText.space) named.isHeaderText

/-- Without bounds of parameters, what precedes the supertypes does not mention the word. -/
theorem lacks_front (unbounded : ∀ parameter ∈ header.parameters, parameter.bounds = []) :
    Lacks extendsWord (header.front gap) := by
  have named : Lacks extendsWord (header.name.characters ++
      bracketed gap (header.parameters.map (TypeParameter.text gap))) := by
    refine lacks_bracketed header.name.lacks (List.forall_mem_map.mpr fun parameter member => ?_)
    rw [TypeParameter.text_of_unbounded (unbounded parameter member)]
    exact parameter.name.lacks
  exact words_induct (fun _ _ _ lacks more => lacks_space_iff.mpr ⟨lacks, more⟩) named

end ClassHeader

/-- What follows the word for bounds where it stands first in a list of parameters. -/
def boundListing (gap : ℕ) (first : ClassType) (others : List ClassType)
    (late : List TypeParameter) : List Char :=
  first.text gap ++ (others.flatMap fun type => " & ".toList ++ type.text gap) ++
    (late.flatMap fun parameter => separator gap ++ parameter.text gap) ++ ['>']

theorem isTypeText_boundListing (first : ClassType) (others : List ClassType)
    (late : List TypeParameter) : IsTypeText (boundListing gap first others late) :=
  ((first.isTypeText.bounds others).parameters late).joint (by decide) .nil

/-- A header mentions the word for the first time at its first bound. -/
theorem ClassHeader.front_of_bounded (gap : ℕ) {early late : List TypeParameter}
    {first : ClassType} {others : List ClassType}
    (split : header.parameters = early ++ parameter :: late)
    (unbounded : ∀ parameter ∈ early, parameter.bounds = [])
    (bounded : parameter.bounds = first :: others) :
    ∃ before, Lacks extendsWord before ∧
      header.front gap =
        before ++ (spaced extendsWord ++ boundListing gap first others late) := by
  have names : early.map (TypeParameter.text gap) =
      (early.map TypeParameter.name).map TypeName.characters := by
    rw [List.map_map]
    exact List.map_congr_left fun parameter member =>
      TypeParameter.text_of_unbounded (unbounded parameter member)
  have joined : joinWith (separator gap) (header.parameters.map (TypeParameter.text gap)) =
      (early.map TypeParameter.name).flatMap (fun name => name.characters ++ separator gap) ++
        (parameter.name.characters ++ (spaced extendsWord ++ (first.text gap ++
          (others.flatMap fun type => " & ".toList ++ type.text gap) ++
            late.flatMap fun parameter => separator gap ++ parameter.text gap))) := by
    rw [split, List.map_append, List.map_cons, names, joinWith_append_cons, TypeParameter.text,
      bounded, boundText, List.map_cons, joinWith_cons]
    simp only [List.flatMap_map, List.append_assoc]
  have lacks : Lacks extendsWord (header.words ++ (header.name.characters ++ '<' ::
      ((early.map TypeParameter.name).flatMap (fun name => name.characters ++ separator gap) ++
        parameter.name.characters))) :=
    words_induct (fun _ _ _ lacks more => lacks_space_iff.mpr ⟨lacks, more⟩)
      (header.name.lacks.sign (lacks_names _ parameter.name.lacks) (by decide) (by decide))
  refine ⟨_, lacks, ?_⟩
  have bracket : bracketed gap (header.parameters.map (TypeParameter.text gap)) =
      '<' :: (joinWith (separator gap) (header.parameters.map (TypeParameter.text gap)) ++
        ['>']) := by
    rw [split]
    cases early <;> rfl
  rw [front, bracket, joined, boundListing]
  simp only [List.append_assoc, List.cons_append]

end Types

end CodeAtlas.Source.Java
