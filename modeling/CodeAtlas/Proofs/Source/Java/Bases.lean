import CodeAtlas.Proofs.Source.Java.Header
import Mathlib.Data.List.TakeWhile

/-!
# Bases in headers

The bases of a class are cut out of its header at words, commas and brackets.  They are the
supertypes that the header names exactly if no list of arguments of a supertype has a comma, and if
the word `extends` stands before the superclass first.
-/

namespace CodeAtlas.Source.Java

open CodeAtlas.Text

/-! ## Lists of types -/

section Listed

variable {front back text piece rest : List Char} {texts : List (List Char)} {gap : ℕ}
  {type : ClassType} {types : List ClassType} {name : TypeName}

/-- What is read of a piece between commas. -/
def baseOf (piece : List Char) : List Char := (trim piece).takeWhile (· ≠ '<')

/-- What is read of a list of types. -/
def basesOf (listed : List Char) : List (List Char) :=
  ((splitOn ',' listed).map baseOf).filter (!·.isEmpty)

theorem baseOf_ne_nil (opens : Opens piece) : baseOf piece ≠ [] := by
  obtain ⟨c, rest, trimmed, solid, different⟩ := opens.spec
  rw [baseOf, trim, trimmed, ← List.nil_append (c :: rest), trimEnd_append_cons solid]
  simp [different]

theorem basesOf_comma (front back : List Char) :
    basesOf (front ++ ',' :: back) = basesOf front ++ basesOf back := by
  simp only [basesOf, splitOn_append_cons, List.map_append, List.filter_append]

theorem basesOf_cons_space (text : List Char) : basesOf (' ' :: text) = basesOf text := by
  have different : ' ' ≠ ',' := by decide
  obtain ⟨piece, pieces, split, splitMore⟩ := exists_splitOn_cons_of_ne different text
  simp only [basesOf, split, splitMore, List.map_cons, baseOf, trim_cons_space]

theorem basesOf_append_space (text : List Char) : basesOf (text ++ [' ']) = basesOf text := by
  obtain ⟨early, last, first, late, split, splitMore, whole⟩ := exists_splitOn_append ',' text [' ']
  obtain ⟨rfl, rfl⟩ := List.cons.inj (splitMore : [[' ']] = first :: late)
  simp only [basesOf, split, whole, List.map_append, List.map_cons, baseOf, trim_append_space]

theorem basesOf_separator (front back : List Char) :
    basesOf (front ++ (separator gap ++ back)) = basesOf front ++ basesOf back := by
  have spaces : basesOf (List.replicate gap ' ' ++ back) = basesOf back := by
    induction gap with
    | zero => rfl
    | succ gap induction => exact (basesOf_cons_space _).trans induction
  rw [separator, List.cons_append, basesOf_comma, spaces]

theorem basesOf_joinWith (texts : List (List Char)) :
    basesOf (joinWith (separator gap) texts) = texts.flatMap basesOf := by
  induction texts with
  | nil => rfl
  | cons text texts induction =>
      cases texts with
      | nil => simp [joinWith]
      | cons next texts =>
          rw [joinWith_cons_cons, List.append_assoc, basesOf_separator, induction]
          rfl

/-- A list has as many bases as types if it has a name after every comma. -/
theorem length_basesOf (enumerates : Enumerates text) :
    (basesOf text).length = (splitOn ',' text).length := by
  rw [basesOf, List.filter_eq_self.mpr, List.length_map]
  intro base member
  obtain ⟨piece, inside, rfl⟩ := List.mem_map.mp member
  simpa using baseOf_ne_nil (enumerates piece inside)

theorem basesOf_ne_nil (enumerates : Enumerates text) : basesOf text ≠ [] := by
  rw [← List.length_pos_iff, length_basesOf enumerates, List.length_pos_iff]
  exact splitOn_ne_nil ',' text

theorem basesOf_of_notMem (enumerates : Enumerates text) (noComma : ',' ∉ text) :
    basesOf text = [baseOf text] := by
  rw [Enumerates, splitOn_of_notMem noComma, List.forall_mem_singleton] at enumerates
  rw [basesOf, splitOn_of_notMem noComma, List.map_singleton]
  exact List.filter_cons_of_pos (by simpa using baseOf_ne_nil enumerates)

/-- A list with a comma has at least two bases. -/
theorem two_le_length_basesOf (enumerates : Enumerates text) (comma : ',' ∈ text) :
    2 ≤ (basesOf text).length := by
  obtain ⟨front, back, rfl⟩ := List.append_of_mem comma
  have before := List.length_pos_iff.mpr (splitOn_ne_nil ',' front)
  have after := List.length_pos_iff.mpr (splitOn_ne_nil ',' back)
  rw [length_basesOf enumerates, splitOn_append_cons, List.length_append]
  omega

theorem baseOf_name (name : TypeName) : baseOf name.characters = name.characters := by
  rw [baseOf, trim_of_solid fun _ => TypeName.isBlank_eq_false, List.takeWhile_eq_self_iff]
  intro c member
  rw [decide_eq_true_eq]
  rintro rfl
  exact TypeName.sign_notMem (by decide) member

/-- A base is read up to its arguments. -/
theorem baseOf_append {c : Char} (name : TypeName) (between back : List Char)
    (noBracket : '<' ∉ between) (solid : isBlank c = false) :
    baseOf (name.characters ++ (between ++ c :: back)) =
      name.characters ++ (between ++ (c :: trimEnd back).takeWhile (· ≠ '<')) := by
  obtain ⟨first, others, begins⟩ := List.exists_cons_of_ne_nil name.nonempty
  have member : first ∈ name.characters := by simp [begins]
  have trimmed : trim (name.characters ++ (between ++ c :: back)) =
      (name.characters ++ between) ++ c :: trimEnd back := by
    rw [← List.append_assoc, begins, List.cons_append,
      trim_append_cons (TypeName.isBlank_eq_false member) solid]
  rw [baseOf, trimmed, List.takeWhile_append_of_pos, List.append_assoc]
  intro c inFront
  rw [decide_eq_true_eq]
  rintro rfl
  rcases List.mem_append.mp inFront with inName | inBetween
  · exact TypeName.sign_notMem (by decide) inName
  · exact noBracket inBetween

theorem baseOf_name_append (name : TypeName) (arguments : List Char) :
    baseOf (name.characters ++ '<' :: arguments) = name.characters := by
  have solid : isBlank '<' = false := by decide
  simpa using baseOf_append name [] arguments List.not_mem_nil solid

theorem ClassType.text_eq (type : ClassType) : type.text gap =
    type.name.characters ++ bracketed gap (type.arguments.map (TypeArgument.text gap)) := by
  rw [text, argument, TypeArgument.text, TypeArgument.texts_eq_map]
  rfl

theorem ClassType.comma_notMem_text_iff : ',' ∉ type.text gap ↔ type.several = false :=
  (not_congr TypeArgument.comma_mem_text_iff).trans Bool.eq_false_iff.symm

/-- A type without a comma is read as its name. -/
theorem basesOf_text (single : type.several = false) :
    basesOf (type.text gap) = [type.name.characters] := by
  have noComma : ',' ∉ type.text gap := ClassType.comma_notMem_text_iff.mpr single
  have base : baseOf (type.text gap) = type.name.characters := by
    rw [type.text_eq]
    cases type.arguments with
    | nil => rw [List.map_nil, bracketed, List.append_nil, baseOf_name]
    | cons first others => exact baseOf_name_append _ _
  rw [basesOf, splitOn_of_notMem noComma, List.map_singleton, base]
  exact List.filter_cons_of_pos (by simpa using type.name.nonempty)

theorem two_le_length_basesOf_text (several : type.several = true) :
    2 ≤ (basesOf (type.text gap)).length :=
  two_le_length_basesOf type.isTypeText.enumerates (TypeArgument.comma_mem_text_iff.mpr several)

/-- Types are read as their names exactly if none of them has a comma. -/
theorem flatMap_basesOf_eq_iff (gap : ℕ) (types : List ClassType) :
    types.length ≤ (types.flatMap fun type => basesOf (type.text gap)).length ∧
      ((types.flatMap fun type => basesOf (type.text gap)) =
        types.map (fun type => type.name.characters) ↔
          ∀ type ∈ types, type.several = false) := by
  induction types with
  | nil => simp
  | cons type types induction =>
      obtain ⟨atLeast, exactly⟩ := induction
      simp only [List.flatMap_cons, List.map_cons, List.length_cons, List.length_append,
        List.forall_mem_cons]
      cases several : type.several with
      | false =>
          rw [basesOf_text several]
          refine ⟨by rw [List.length_singleton]; omega, ?_⟩
          rw [List.singleton_append, List.cons.injEq, exactly]
          simp
      | true =>
          have two : 2 ≤ (basesOf (type.text gap)).length := two_le_length_basesOf_text several
          refine ⟨by omega, ?_, by simp⟩
          intro same
          have lengths := congrArg List.length same
          rw [List.length_append, List.length_cons, List.length_map] at lengths
          omega

end Listed

/-! ## Clauses of headers -/

section Clauses

variable {gap : ℕ} {header : ClassHeader} {text front back rest : List Char}
  {types : List ClassType}

/-- What precedes the word for interfaces, or all of a text without it. -/
def upToInterfaces (text : List Char) : List Char :=
  ((splitAt? (spaced implementsWord) text).map (·.1)).getD text

variable {keyword : String} {word : List Char}

theorem toList_spaced (same : keyword.toList = word) :
    (" " ++ keyword ++ " ").toList = spaced word := by
  rw [String.toList_append, String.toList_append, same]
  rfl

theorem basesAfter_append (same : keyword.toList = word) (plain : ' ' ∉ word)
    (lacks : Lacks word front) (back : List Char) :
    basesAfter keyword (front ++ (spaced word ++ back)) =
      (basesOf (upToInterfaces back)).map String.ofList := by
  rw [basesAfter, toList_spaced same, splitAt?_spaced plain lacks]
  rfl

theorem basesAfter_of_lacks (same : keyword.toList = word) (plain : ' ' ∉ word)
    (lacks : Lacks word text) : basesAfter keyword text = [] := by
  rw [basesAfter, toList_spaced same, splitAt?_of_lacks plain lacks]

/-- The interfaces of a class do not add to the types before them. -/
theorem basesOf_upToInterfaces (lacks : Lacks implementsWord text) :
    basesOf (upToInterfaces (text ++ (ClassHeader.implementation gap types ++ [' ']))) =
      basesOf text := by
  rw [upToInterfaces]
  cases types with
  | nil =>
      have ended : Lacks implementsWord (text ++ [' ']) :=
        lacks_space_iff.mpr ⟨lacks, lacks_nil (by decide)⟩
      rw [ClassHeader.implementation, List.nil_append, splitAt?_of_lacks (by decide) ended]
      exact basesOf_append_space text
  | cons first others =>
      rw [ClassHeader.implementation, List.append_assoc, splitAt?_spaced (by decide) lacks]
      rfl

namespace ClassHeader

theorem map_text (types : List ClassType) : types.map (ClassType.text gap) =
    (types.map ClassType.argument).map (TypeArgument.text gap) := List.map_map.symm

theorem isTypeText_interfaces (gap : ℕ) (some : types ≠ []) :
    IsTypeText (joinWith (separator gap) (types.map (ClassType.text gap))) := by
  rw [map_text]
  exact TypeArgument.isTypeText_joinWith (by simpa using some)

theorem isHeaderText_extended (gap : ℕ) (header : ClassHeader) :
    IsHeaderText (header.front gap ++ extension gap header.superclass) := by
  have front : IsHeaderText (header.front gap) := header.isHeaderText_front
  cases header.superclass with
  | none => rwa [extension, List.append_nil]
  | some type => exact front.space (isHeaderText_extends.space type.isTypeText.isHeaderText)

/-- What is read of a header is what precedes its brace. -/
theorem takeWhile_line (header : ClassHeader) (rest : List Char) :
    (header.line gap rest).takeWhile (· ≠ '{') =
      header.front gap ++ (extension gap header.superclass ++
        (implementation gap header.interfaces ++ [' '])) := by
  have extended := (header.isHeaderText_extended gap).closed
  have closed : '{' ∉ implementation gap header.interfaces := by
    cases interfaces : header.interfaces with
    | nil => exact List.not_mem_nil
    | cons first others =>
        have joined := (isTypeText_interfaces gap (List.cons_ne_nil first others)).closed
        have noWord : '{' ∉ spaced implementsWord := by decide
        rw [implementation, List.mem_append, not_or]
        exact ⟨noWord, joined⟩
  have line : header.line gap rest = (header.front gap ++ (extension gap header.superclass ++
      (implementation gap header.interfaces ++ [' ']))) ++ '{' :: rest := by
    rw [ClassHeader.line]
    simp only [List.append_assoc, List.singleton_append]
  rw [line, List.takeWhile_append_of_pos, List.takeWhile_cons_of_neg (by decide), List.append_nil]
  intro c member
  rw [decide_eq_true_eq]
  rintro rfl
  rw [← List.append_assoc] at member
  rcases List.mem_append.mp member with early | member
  · exact extended early
  · rcases List.mem_append.mp member with inside | last
    · exact closed inside
    · exact absurd last (by decide)

/-- The interfaces of a class are read one after the other. -/
theorem basesAfter_implements_line (header : ClassHeader) (rest : List Char) :
    basesAfter "implements" ((header.line gap rest).takeWhile (· ≠ '{')) =
      (header.interfaces.flatMap fun type => basesOf (type.text gap)).map String.ofList := by
  have extended := (header.isHeaderText_extended gap).lacks
  rw [takeWhile_line, ← List.append_assoc]
  cases interfaces : header.interfaces with
  | nil =>
      exact basesAfter_of_lacks toList_implements (by decide)
        (lacks_space_iff.mpr ⟨extended, lacks_nil (by decide)⟩)
  | cons first others =>
      have joined := (isTypeText_interfaces gap (List.cons_ne_nil first others)).lacks
      have listed : basesOf (upToInterfaces (_ ++ (implementation gap [] ++ [' ']))) = _ :=
        basesOf_upToInterfaces joined
      rw [implementation, List.nil_append] at listed
      rw [implementation, List.append_assoc (spaced implementsWord),
        basesAfter_append toList_implements (by decide) extended, listed, basesOf_joinWith,
        List.flatMap_map]

end ClassHeader

/-! ## The superclass -/

section Superclass

variable {type first : ClassType} {others : List ClassType} {parameter : TypeParameter}
  {early late : List TypeParameter}

/-- Without bounds of parameters the superclass is read first. -/
theorem basesAfter_extends_line (superclass : header.superclass = some type)
    (unbounded : ∀ parameter ∈ header.parameters, parameter.bounds = []) :
    basesAfter "extends" ((header.line gap rest).takeWhile (· ≠ '{')) =
      (basesOf (type.text gap)).map String.ofList := by
  rw [ClassHeader.takeWhile_line, superclass, ClassHeader.extension,
    List.append_assoc (spaced extendsWord),
    basesAfter_append toList_extends (by decide) (header.lacks_front unbounded),
    basesOf_upToInterfaces type.isTypeText.lacks]

theorem isTypeText_boundListing_extension (gap : ℕ) (first : ClassType) (others : List ClassType)
    (late : List TypeParameter) (superclass : Option ClassType) :
    IsTypeText (boundListing gap first others late ++ ClassHeader.extension gap superclass) := by
  have listing : IsTypeText (boundListing gap first others late) := isTypeText_boundListing ..
  cases superclass with
  | none => rwa [ClassHeader.extension, List.append_nil]
  | some type => exact listing.space (isHeaderText_extends.space type.isTypeText.isHeaderText)

/-- The first bound of a parameter is read instead of the superclass. -/
theorem basesAfter_extends_line_of_bounded (split : header.parameters = early ++ parameter :: late)
    (unbounded : ∀ parameter ∈ early, parameter.bounds = [])
    (bounded : parameter.bounds = first :: others) :
    basesAfter "extends" ((header.line gap rest).takeWhile (· ≠ '{')) =
      (basesOf (boundListing gap first others late ++
        ClassHeader.extension gap header.superclass)).map String.ofList := by
  obtain ⟨before, lacks, front⟩ := ClassHeader.front_of_bounded gap split unbounded bounded
  have isText := isTypeText_boundListing_extension gap first others late header.superclass
  rw [ClassHeader.takeWhile_line, front, List.append_assoc, List.append_assoc,
    basesAfter_append toList_extends (by decide) lacks, ← List.append_assoc,
    basesOf_upToInterfaces isText.lacks]

/-- Without a superclass and without bounds of parameters, the word is read at the first bound of
an argument of an interface. -/
theorem tells_line (gap : ℕ) (rest : List Char) (superclass : header.superclass = none)
    (unbounded : ∀ parameter ∈ header.parameters, parameter.bounds = []) :
    Tells (header.interfaces.any ClassType.hasUpper)
      ((header.line gap rest).takeWhile (· ≠ '{')) := by
  have front : Lacks extendsWord (header.front gap) := header.lacks_front unbounded
  rw [ClassHeader.takeWhile_line, superclass, ClassHeader.extension, List.nil_append]
  cases header.interfaces with
  | nil => exact (Tells.not front).append_space
  | cons type types =>
      have word : Lacks extendsWord implementsWord := lacks_of_ne (by decide) (by decide)
      have joined : Tells (((type :: types).map ClassType.argument).any TypeArgument.hasUpper)
          (joinWith (separator gap) ((type :: types).map (ClassType.text gap))) := by
        rw [ClassHeader.map_text]
        exact Tells.joined (by simp) fun argument _ => argument.tells
      rw [List.any_map] at joined
      have listed : Tells ((type :: types).any ClassType.hasUpper) _ :=
        Tells.space front (Tells.space word joined)
      simpa only [ClassHeader.implementation, spaced, List.append_assoc, List.cons_append,
        List.nil_append] using listed.append_space

theorem basesAfter_extends_line_of_none (superclass : header.superclass = none)
    (unbounded : ∀ parameter ∈ header.parameters, parameter.bounds = []) :
    basesAfter "extends" ((header.line gap rest).takeWhile (· ≠ '{')) = [] ↔
      ∀ type ∈ header.interfaces, type.hasUpper = false := by
  have tells := tells_line gap rest superclass unbounded
  have any : (∀ type ∈ header.interfaces, type.hasUpper = false) ↔
      header.interfaces.any ClassType.hasUpper = false := by
    rw [List.any_eq_false]
    exact forall₂_congr fun _ _ => Bool.eq_false_iff
  rw [any]
  generalize header.interfaces.any ClassType.hasUpper = upper at tells
  generalize (header.line gap rest).takeWhile (· ≠ '{') = read at tells
  cases tells with
  | not lacks => exact iff_of_true (basesAfter_of_lacks toList_extends (by decide) lacks) rfl
  | first lacks isText =>
      refine iff_of_false ?_ (by decide)
      rw [basesAfter_append toList_extends (by decide) lacks, List.map_eq_nil_iff]
      -- No interfaces follow the bound.
      have alone : splitAt? (spaced implementsWord) _ = none :=
        splitAt?_of_lacks (by decide) isText.lacks
      rw [upToInterfaces, alone]
      exact basesOf_ne_nil isText.enumerates

/-- The commas of bounds and of what follows them stand in types or before parameters. -/
theorem comma_notMem_boundListing_iff :
    ',' ∉ boundListing gap first others late ++ ClassHeader.extension gap (some type) ↔
      late = [] ∧ (∀ bound ∈ first :: others, bound.several = false) ∧ type.several = false := by
  have inOthers : ',' ∉ others.flatMap (fun bound => " & ".toList ++ bound.text gap) ↔
      ∀ bound ∈ others, bound.several = false := by
    have noComma : ',' ∉ " & ".toList := by decide
    simp only [List.mem_flatMap, List.mem_append, noComma, false_or, not_exists, not_and,
      ClassType.comma_notMem_text_iff]
  have inLate : ',' ∉ late.flatMap (fun parameter => separator gap ++ parameter.text gap) ↔
      late = [] := by
    cases late <;> simp [separator]
  rw [boundListing, ClassHeader.extension, List.mem_append, List.mem_append, List.mem_append,
    List.mem_append, List.mem_append, not_or, not_or, not_or, not_or, not_or, inOthers, inLate,
    ClassType.comma_notMem_text_iff, ClassType.comma_notMem_text_iff, List.forall_mem_cons]
  tauto

/-- A bound without arguments is not all that is read. -/
theorem baseOf_boundListing_ne (noArguments : first.arguments = []) (name : TypeName)
    (more : List Char) : baseOf (boundListing gap first others [] ++ more) ≠ name.characters := by
  have bound : first.text gap = first.name.characters := by
    rw [first.text_eq, noArguments, List.map_nil, bracketed, List.append_nil]
  -- A sign follows the name of the bound.
  have goesOn : ∃ between sign back, '<' ∉ between ∧ isBlank sign = false ∧ sign ≠ '<' ∧
      sign ∈ headerSigns ∧ boundListing gap first others [] ++ more =
        first.name.characters ++ (between ++ sign :: back) := by
    rw [boundListing, bound]
    cases others with
    | nil => exact ⟨[], '>', more, by decide, by decide, by decide, by decide, by simp⟩
    | cons second others =>
        exact ⟨[' '], '&', ' ' :: (second.text gap ++
          ((others.flatMap fun type => " & ".toList ++ type.text gap) ++ '>' :: more)),
          by decide, by decide, by decide, by decide, by simp⟩
  obtain ⟨between, sign, back, noBracket, solid, different, isSign, text⟩ := goesOn
  intro same
  rw [text, baseOf_append _ _ _ noBracket solid, List.takeWhile_cons_of_pos (by simpa)] at same
  have inside : sign ∈ name.characters := same ▸ by simp
  exact TypeName.sign_notMem isSign inside

/-- The first bound of a parameter is read as the superclass only if it has its name. -/
theorem basesOf_boundListing_eq_iff :
    basesOf (boundListing gap first others late ++ ClassHeader.extension gap (some type)) =
        [type.name.characters] ↔
      late = [] ∧ (∀ bound ∈ first :: others, bound.several = false) ∧ type.several = false ∧
        first.arguments ≠ [] ∧ first.name = type.name := by
  have enumerates :=
    (isTypeText_boundListing_extension gap first others late (some type)).enumerates
  by_cases comma : ',' ∈ boundListing gap first others late ++ ClassHeader.extension gap (some type)
  · refine iff_of_false ?_ ?_
    · intro same
      have two := two_le_length_basesOf enumerates comma
      rw [same, List.length_singleton] at two
      omega
    · rintro ⟨last, bounds, single, -⟩
      exact comma_notMem_boundListing_iff.mpr ⟨last, bounds, single⟩ comma
  · obtain ⟨rfl, bounds, single⟩ := comma_notMem_boundListing_iff.mp comma
    rw [basesOf_of_notMem enumerates comma, List.cons.injEq, and_iff_left rfl]
    cases arguments : first.arguments with
    | nil =>
        refine iff_of_false (baseOf_boundListing_ne arguments _ _) ?_
        rintro ⟨-, -, -, some, -⟩
        exact some rfl
    | cons argument more =>
        have base : baseOf (boundListing gap first others [] ++
            ClassHeader.extension gap (some type)) = first.name.characters := by
          rw [boundListing, first.text_eq, arguments, List.map_cons, bracketed]
          simp only [List.append_assoc, List.cons_append]
          exact baseOf_name_append ..
        rw [base]
        constructor
        · intro same
          exact ⟨rfl, bounds, single, List.cons_ne_nil _ _, TypeName.ext same⟩
        · rintro ⟨-, -, -, -, same⟩
          rw [same]

/-- The class that a class extends, if any, is what is read after the first word for it. -/
inductive ClassHeader.ReadsClass (header : ClassHeader) : Option ClassType → Prop
  /-- The word does not stand in the header. -/
  | absent : (∀ parameter ∈ header.parameters, parameter.bounds = []) →
      (∀ type ∈ header.interfaces, type.hasUpper = false) → ReadsClass header none
  | direct {type : ClassType} : (∀ parameter ∈ header.parameters, parameter.bounds = []) →
      type.several = false → ReadsClass header (some type)
  /-- The bounds of the last parameter, and of no other, are read up to the name of the first one,
  which is that of the class. -/
  | namesake {type first : ClassType} {others : List ClassType} {early : List TypeParameter}
      {parameter : TypeParameter} : header.parameters = early ++ [parameter] →
      (∀ parameter ∈ early, parameter.bounds = []) → parameter.bounds = first :: others →
      (∀ bound ∈ first :: others, bound.several = false) → type.several = false →
      first.arguments ≠ [] → first.name = type.name → ReadsClass header (some type)

theorem map_ofList_inj {first second : List (List Char)} :
    first.map String.ofList = second.map String.ofList ↔ first = second :=
  (List.map_injective_iff.mpr fun _ _ => String.ofList_injective).eq_iff

/-- Parameters with bounds have a first one with bounds. -/
theorem exists_first_bounded {parameters : List TypeParameter}
    (bounded : ¬ ∀ parameter ∈ parameters, parameter.bounds = []) :
    ∃ early parameter late first others, parameters = early ++ parameter :: late ∧
      (∀ parameter ∈ early, parameter.bounds = []) ∧ parameter.bounds = first :: others := by
  induction parameters with
  | nil => simp at bounded
  | cons parameter parameters induction =>
      cases bounds : parameter.bounds with
      | cons first others =>
          exact ⟨[], parameter, parameters, first, others, rfl, by simp, bounds⟩
      | nil =>
          obtain ⟨early, next, late, first, others, rfl, unbounded, nextBounds⟩ :=
            induction fun all => bounded (List.forall_mem_cons.mpr ⟨bounds, all⟩)
          exact ⟨parameter :: early, next, late, first, others, rfl,
            List.forall_mem_cons.mpr ⟨bounds, unbounded⟩, nextBounds⟩

theorem basesAfter_extends_line_of_readsClass (reads : header.ReadsClass header.superclass) :
    basesAfter "extends" ((header.line gap rest).takeWhile (· ≠ '{')) =
      (header.superclass.toList.map fun type => type.name.characters).map String.ofList := by
  cases superclass : header.superclass with
  | none =>
      rw [superclass] at reads
      cases reads with
      | absent unbounded noUpper =>
          exact (basesAfter_extends_line_of_none superclass unbounded).mpr noUpper
  | some type =>
      rw [superclass] at reads
      cases reads with
      | direct unbounded single =>
          rw [basesAfter_extends_line superclass unbounded, basesOf_text single]
          rfl
      | namesake split unbounded bounded single singleClass some same =>
          rw [basesAfter_extends_line_of_bounded split unbounded bounded, superclass,
            basesOf_boundListing_eq_iff.mpr ⟨rfl, single, singleClass, some, same⟩]
          rfl

theorem basesAfter_extends_line_eq_iff (gap : ℕ) (header : ClassHeader) (rest : List Char) :
    basesAfter "extends" ((header.line gap rest).takeWhile (· ≠ '{')) =
        (header.superclass.toList.map fun type => type.name.characters).map String.ofList ↔
      header.ReadsClass header.superclass := by
  refine ⟨fun same => ?_, basesAfter_extends_line_of_readsClass⟩
  by_cases unbounded : ∀ parameter ∈ header.parameters, parameter.bounds = []
  · cases superclass : header.superclass with
    | none =>
        rw [superclass] at same
        exact .absent unbounded ((basesAfter_extends_line_of_none superclass unbounded).mp same)
    | some type =>
        rw [basesAfter_extends_line superclass unbounded, superclass, map_ofList_inj] at same
        refine .direct unbounded (Bool.eq_false_iff.mpr fun several => ?_)
        have two : 2 ≤ (basesOf (type.text gap)).length := two_le_length_basesOf_text several
        rw [same] at two
        exact absurd two (by simp)
  · obtain ⟨early, parameter, late, first, others, split, noBounds, bounds⟩ :=
      exists_first_bounded unbounded
    rw [basesAfter_extends_line_of_bounded split noBounds bounds, map_ofList_inj] at same
    cases superclass : header.superclass with
    | none =>
        rw [superclass] at same
        exact absurd same
          (basesOf_ne_nil (isTypeText_boundListing_extension gap first others late none).enumerates)
    | some type =>
        rw [superclass] at same
        obtain ⟨rfl, single, singleClass, some, name⟩ := basesOf_boundListing_eq_iff.mp same
        exact .namesake split noBounds bounds single singleClass some name

theorem length_superclass_le (gap : ℕ) (header : ClassHeader) (rest : List Char) :
    header.superclass.toList.length ≤
      (basesAfter "extends" ((header.line gap rest).takeWhile (· ≠ '{'))).length := by
  cases superclass : header.superclass with
  | none => exact Nat.zero_le _
  | some type =>
      rw [Option.toList_some, List.length_singleton, Nat.one_le_iff_ne_zero, ne_eq,
        List.length_eq_zero_iff]
      by_cases unbounded : ∀ parameter ∈ header.parameters, parameter.bounds = []
      · rw [basesAfter_extends_line superclass unbounded, List.map_eq_nil_iff]
        exact basesOf_ne_nil type.isTypeText.enumerates
      · obtain ⟨early, parameter, late, first, others, split, noBounds, bounds⟩ :=
          exists_first_bounded unbounded
        rw [basesAfter_extends_line_of_bounded split noBounds bounds, List.map_eq_nil_iff]
        exact basesOf_ne_nil (isTypeText_boundListing_extension ..).enumerates

/-- The bases of a header are its supertypes exactly if the class that it extends is read, and no
interface has a list of arguments with more than one entry. -/
theorem bases_line_eq_iff : bases (header.line gap rest) = header.supertypes ↔
    header.ReadsClass header.superclass ∧ ∀ type ∈ header.interfaces, type.several = false := by
  obtain ⟨atLeast, exactly⟩ := flatMap_basesOf_eq_iff gap header.interfaces
  have supertypes : header.supertypes =
      (header.superclass.toList.map fun type => type.name.characters).map String.ofList ++
        (header.interfaces.map fun type => type.name.characters).map String.ofList := by
    rw [ClassHeader.supertypes, List.map_append, List.map_map, List.map_map]
    rfl
  have read : bases (header.line gap rest) =
      basesAfter "extends" ((header.line gap rest).takeWhile (· ≠ '{')) ++
        (header.interfaces.flatMap fun type => basesOf (type.text gap)).map String.ofList := by
    rw [bases, ← ClassHeader.basesAfter_implements_line header rest]
  rw [read, supertypes, ← basesAfter_extends_line_eq_iff gap header rest, ← exactly,
    ← map_ofList_inj]
  constructor
  · intro same
    have classAtLeast := length_superclass_le gap header rest
    have lengths := congrArg List.length same
    simp only [List.length_append, List.length_map] at lengths
    refine List.append_inj same ?_
    rw [List.length_map, List.length_map]
    omega
  · rintro ⟨sameClass, sameInterfaces⟩
    rw [sameClass, sameInterfaces]

end Superclass

end Clauses

end CodeAtlas.Source.Java
