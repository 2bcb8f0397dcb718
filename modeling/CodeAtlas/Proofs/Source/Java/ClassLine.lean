import CodeAtlas.Proofs.Source.Java.Bases
import CodeAtlas.Proofs.Source.Java.Comment
import CodeAtlas.Proofs.Source.Java.ImportLine
import CodeAtlas.Proofs.Source.Java.Reading
import CodeAtlas.Proofs.Text.Character
import CodeAtlas.Proofs.Text.Pattern

/-!
# Lines of classes

The line of a class outside of all braces is read as a class if its name begins with a letter, a
digit or an underscore.  The bases of the class are then its supertypes exactly if the first word
`extends` stands before the superclass and no list of arguments of a supertype has a comma.
-/

namespace CodeAtlas.Source.Java

open CodeAtlas.Text CodeAtlas.Text.Pattern

/-! ## The pattern -/

section Line

variable {text rest more spaces first second middle : List Char} {words : List String}
  {captures between after : Captures}

/-- The words for the kinds of types. -/
def kindWords : List String := ["class", "interface", "enum", "record", "@interface"]

/-- A word that may stand before the word for a type. -/
def modifier : Pattern := .seq (word modifierWords) gap

/-- The word for a type, and its name. -/
def kindAndName : Pattern :=
  sequence [.capture 1 (word kindWords), gap, .capture 2 name]

theorem typeLine_eq :
    typeLine = .seq blanks (.seq (.many true annotation)
      (.seq (.many true modifier) kindAndName)) :=
  rfl

theorem eq_nil_of_blank (blank : ∀ c ∈ spaces, isBlank c = true)
    (stops : ∀ c ∈ (spaces ++ rest).head?, isBlank c = false) : spaces = [] := by
  cases spaces with
  | nil => rfl
  | cons c spaces =>
      have solid := stops c rfl
      rw [blank c List.mem_cons_self] at solid
      cases solid

/-- No blanks are read where none stand. -/
theorem eq_of_leads_blanks (stops : ∀ c ∈ text.head?, isBlank c = false)
    (leads : Leads blanks text captures rest after) : rest = text ∧ after = captures := by
  obtain ⟨front, blank, rfl, same⟩ := leads_run_iff.mp leads
  obtain rfl := eq_nil_of_blank blank stops
  exact ⟨rfl, same⟩

/-- Texts that begin with a word and blanks begin with the same word only. -/
theorem word_unique (solidFirst : ∀ c ∈ first, isBlank c = false)
    (solidSecond : ∀ c ∈ second, isBlank c = false) (some : spaces ≠ [])
    (blank : ∀ c ∈ spaces, isBlank c = true) (stops : ∀ c ∈ rest.head?, isBlank c = false)
    (same : first ++ ' ' :: rest = second ++ (spaces ++ more)) : second = first ∧ more = rest := by
  obtain ⟨c, spaces, rfl⟩ := List.exists_cons_of_ne_nil some
  obtain ⟨blankFirst, blank⟩ := List.forall_mem_cons.mp blank
  have words := congrArg (List.takeWhile fun c => !isBlank c) same
  rw [List.cons_append, List.takeWhile_append_of_pos (by simpa using solidFirst),
    List.takeWhile_append_of_pos (by simpa using solidSecond),
    List.takeWhile_cons_of_neg (by decide), List.takeWhile_cons_of_neg (by simpa),
    List.append_nil, List.append_nil] at words
  subst words
  obtain ⟨-, rfl⟩ := List.cons.inj (List.append_cancel_left same)
  obtain rfl := eq_nil_of_blank blank stops
  exact ⟨rfl, rfl⟩

/-- No word before a type and no word for a type has blanks. -/
theorem solid_words : ∀ word ∈ modifierWords ++ kindWords,
    ∀ c ∈ word.toList, isBlank c = false := by
  have solid : ∀ word ∈ modifierWords ++ kindWords, word.toList.all (!isBlank ·) = true := by
    decide
  intro word member c within
  simpa using List.all_eq_true.mp (solid word member) c within

theorem isBlank_of_mem_space : ∀ c ∈ [' '], isBlank c = true :=
  List.forall_mem_singleton.mpr (by decide)

theorem kindWords_disjoint : ∀ kind ∈ kindWords, kind ∉ modifierWords := by decide

theorem leads_modifier_iff : Leads modifier text captures rest after ↔
    ∃ part ∈ modifierWords, ∃ spaces, spaces ≠ [] ∧ (∀ c ∈ spaces, isBlank c = true) ∧
      text = part.toList ++ (spaces ++ rest) ∧ after = captures := by
  rw [modifier, leads_seq_iff]
  simp only [leads_word_iff (by decide : modifierWords ≠ []), gap, leads_several_iff]
  constructor
  · rintro ⟨_, _, ⟨part, member, rfl, rfl⟩, spaces, some, blank, rfl, rfl⟩
    exact ⟨part, member, spaces, some, blank, rfl, rfl⟩
  · rintro ⟨part, member, spaces, some, blank, rfl, rfl⟩
    exact ⟨_, _, ⟨part, member, rfl, rfl⟩, spaces, some, blank, rfl, rfl⟩

theorem leads_kindAndName_iff : Leads kindAndName text captures rest after ↔
    ∃ kind ∈ kindWords, ∃ spaces named, spaces ≠ [] ∧ (∀ c ∈ spaces, isBlank c = true) ∧
      named ≠ [] ∧ (∀ c ∈ named, isWord c = true) ∧
        text = kind.toList ++ (spaces ++ (named ++ rest)) ∧
          after = (2, named) :: (1, kind.toList) :: captures := by
  simp only [kindAndName, sequence_cons, sequence_nil, leads_seq_iff, leads_capture_iff,
    leads_word_iff (by decide : kindWords ≠ []), gap, name, leads_several_iff, leads_nothing_iff]
  constructor
  · rintro ⟨_, _, ⟨front, _, rfl, ⟨kind, member, split, rfl⟩, rfl⟩, _, _,
      ⟨spaces, some, blank, rfl, rfl⟩, _, _, ⟨named, _, rfl, ⟨again, nonempty, parts, same, rfl⟩,
        rfl⟩, rfl, rfl⟩
    obtain rfl := List.append_cancel_right split
    obtain rfl := List.append_cancel_right same
    exact ⟨kind, member, spaces, named, some, blank, nonempty, parts, rfl, rfl⟩
  · rintro ⟨kind, member, spaces, named, some, blank, nonempty, parts, rfl, rfl⟩
    exact ⟨_, _, ⟨_, _, rfl, ⟨kind, member, rfl, rfl⟩, rfl⟩, _, _,
      ⟨spaces, some, blank, rfl, rfl⟩, _, _,
      ⟨named, _, rfl, ⟨named, nonempty, parts, rfl, rfl⟩, rfl⟩, rfl, rfl⟩

theorem spelled_cons_append (first : String) (words : List String) (rest : List Char) :
    spelled (first :: words) ++ rest = first.toList ++ ' ' :: (spelled words ++ rest) := by
  simp [spelled]

/-- The words and the name of a class. -/
def named (words : List String) (rest : List Char) : List Char :=
  spelled words ++ ("class".toList ++ ' ' :: rest)

/-- How the words and the name of a class begin. -/
theorem exists_named_eq_cons (areModifiers : ∀ word ∈ words, word ∈ modifierWords)
    (rest : List Char) :
    ∃ c others, named words rest = c :: others ∧ isBlank c = false ∧ c ≠ '@' ∧ c ≠ 'i' := by
  have starts : ∀ word ∈ modifierWords,
      word.toList.head?.any (fun c => isBlank c = false ∧ c ≠ '@' ∧ c ≠ 'i') = true := by
    decide
  cases words with
  | nil => exact ⟨'c', _, rfl, by decide, by decide, by decide⟩
  | cons word words =>
      obtain ⟨c, head, plain⟩ :=
        (Option.any_eq_true _ _).mp (starts word (areModifiers word List.mem_cons_self))
      rw [decide_eq_true_eq] at plain
      obtain ⟨others, begins⟩ := List.head?_eq_some_iff.mp head
      exact ⟨c, others ++ ' ' :: named words rest,
        by rw [named, spelled_cons_append, begins]; rfl, plain⟩

theorem isBlank_head?_named (areModifiers : ∀ word ∈ words, word ∈ modifierWords) :
    ∀ c ∈ (named words rest).head?, isBlank c = false := by
  obtain ⟨c, others, begins, solid, -⟩ := exists_named_eq_cons areModifiers rest
  rw [begins]
  intro first head
  obtain rfl : c = first := Option.some.inj head
  exact solid

theorem named_cons (word : String) (words : List String) (rest : List Char) :
    named (word :: words) rest = word.toList ++ ' ' :: named words rest :=
  spelled_cons_append ..

/-- The modifiers of a class are read as such, and no more than they. -/
theorem eq_of_leads_modifiers (areModifiers : ∀ word ∈ words, word ∈ modifierWords)
    (stops : ∀ c ∈ rest.head?, isBlank c = false)
    (leads : Leads (.many true modifier) (named words rest) captures middle between)
    (leadsOn : Leads kindAndName middle between more after) :
    middle = named [] rest ∧ between = captures := by
  have solidModifier : ∀ word ∈ modifierWords, ∀ c ∈ word.toList, isBlank c = false :=
    fun word member => solid_words word (List.mem_append_left _ member)
  have solidKind : ∀ word ∈ kindWords, ∀ c ∈ word.toList, isBlank c = false :=
    fun word member => solid_words word (List.mem_append_right _ member)
  have class_mem : "class" ∈ kindWords := by decide
  induction words with
  | nil =>
      rcases leads_many_iff.mp leads with ⟨rfl, rfl⟩ | ⟨_, _, read, -, -⟩
      · exact ⟨rfl, rfl⟩
      · obtain ⟨part, member, spaces, some, blank, split, -⟩ := leads_modifier_iff.mp read
        obtain ⟨same, -⟩ := word_unique (solidKind _ class_mem) (solidModifier part member) some
          blank stops split
        rw [String.toList_inj.mp same] at member
        exact absurd member (kindWords_disjoint _ class_mem)
  | cons word words induction =>
      obtain ⟨isModifier, others⟩ := List.forall_mem_cons.mp areModifiers
      rw [named_cons] at leads
      rcases leads_many_iff.mp leads with ⟨rfl, rfl⟩ | ⟨_, _, read, -, again⟩
      · obtain ⟨kind, member, spaces, name, some, blank, -, -, split, -⟩ :=
          leads_kindAndName_iff.mp leadsOn
        obtain ⟨same, -⟩ := word_unique (solidModifier word isModifier) (solidKind kind member) some
          blank (isBlank_head?_named others) split
        rw [String.toList_inj.mp same] at member
        exact absurd isModifier (kindWords_disjoint word member)
      · obtain ⟨part, member, spaces, some, blank, split, rfl⟩ := leads_modifier_iff.mp read
        obtain ⟨-, rfl⟩ := word_unique (solidModifier word isModifier) (solidModifier part member)
          some blank (isBlank_head?_named others) split
        exact induction others again

theorem leads_modifiers (areModifiers : ∀ word ∈ words, word ∈ modifierWords) :
    Leads (.many true modifier) (named words rest) captures (named [] rest) captures := by
  induction words with
  | nil => exact .done
  | cons word words induction =>
      obtain ⟨isModifier, others⟩ := List.forall_mem_cons.mp areModifiers
      have read : Leads modifier (word.toList ++ ' ' :: named words rest) captures
          (named words rest) captures :=
        leads_modifier_iff.mpr ⟨word, isModifier, [' '], by simp, isBlank_of_mem_space, rfl, rfl⟩
      have shorter : (named words rest).length <
          (word.toList ++ ' ' :: named words rest).length := by
        simp only [List.length_append, List.length_cons]
        omega
      rw [named_cons]
      exact .again read shorter (induction others)

theorem leads_typeLine_iff (areModifiers : ∀ word ∈ words, word ∈ modifierWords)
    (stops : ∀ c ∈ rest.head?, isBlank c = false) :
    Leads typeLine (named words rest) [] more after ↔
      Leads kindAndName (named [] rest) [] more after := by
  obtain ⟨c, others, begins, -, noAnnotation, -⟩ :=
    exists_named_eq_cons areModifiers rest
  rw [typeLine_eq, leads_seq_iff]
  constructor
  · rintro ⟨_, _, indent, unindented⟩
    obtain ⟨rfl, rfl⟩ := eq_of_leads_blanks (isBlank_head?_named areModifiers) indent
    obtain ⟨_, _, annotations, declared⟩ := leads_seq_iff.mp unindented
    obtain ⟨_, _, modifiers, leads⟩ := leads_seq_iff.mp declared
    rcases leads_many_iff.mp annotations with ⟨rfl, rfl⟩ | ⟨_, _, annotated, -, -⟩
    · obtain ⟨rfl, rfl⟩ := eq_of_leads_modifiers areModifiers stops modifiers leads
      exact leads
    · -- No annotation stands before the first word.
      unfold annotation at annotated
      rw [sequence_cons, leads_seq_iff] at annotated
      obtain ⟨_, _, sign, -⟩ := annotated
      obtain ⟨sign, -⟩ := leads_literal_iff.mp sign
      rw [begins] at sign
      exact absurd (List.cons.inj sign).1 noAnnotation
  · intro leads
    exact ⟨_, _, .run [] (List.forall_mem_nil _), leads_seq_iff.mpr ⟨_, _, .done,
      leads_seq_iff.mpr ⟨_, _, leads_modifiers areModifiers, leads⟩⟩⟩

/-- What is read of the words of a class and what follows them. -/
theorem leads_kindAndName_class_iff (stops : ∀ c ∈ rest.head?, isBlank c = false) :
    Leads kindAndName (named [] rest) [] more after ↔
      ∃ name, name ≠ [] ∧ (∀ c ∈ name, isWord c = true) ∧ rest = name ++ more ∧
        after = [(2, name), (1, "class".toList)] := by
  have solid : ∀ word ∈ kindWords, ∀ c ∈ word.toList, isBlank c = false :=
    fun word member => solid_words word (List.mem_append_right _ member)
  have class_mem : "class" ∈ kindWords := by decide
  rw [leads_kindAndName_iff]
  constructor
  · rintro ⟨kind, member, spaces, name, some, blank, nonempty, parts, split, rfl⟩
    obtain ⟨same, rfl⟩ := word_unique (solid _ class_mem) (solid kind member) some blank stops split
    exact ⟨name, nonempty, parts, rfl, by rw [same]⟩
  · rintro ⟨name, nonempty, parts, rfl, rfl⟩
    exact ⟨"class", class_mem, [' '], name, by simp, isBlank_of_mem_space, nonempty, parts, rfl,
      rfl⟩

end Line

/-! ## Headers -/

section Headers

variable {header : ClassHeader} {gap : ℕ} {rest : List Char}

/-- The name of a class begins with a letter, a digit or an underscore. -/
def ClassHeader.IsNamed (header : ClassHeader) : Prop :=
  ∃ c ∈ header.name.characters.head?, isWord c = true

theorem ClassHeader.exists_line_eq (gap : ℕ) (header : ClassHeader) (rest : List Char) :
    ∃ more, header.line gap rest = named header.modifiers (header.name.characters ++ more) := by
  refine ⟨bracketed gap (header.parameters.map (TypeParameter.text gap)) ++
    (extension gap header.superclass ++
      (implementation gap header.interfaces ++ ' ' :: '{' :: rest)), ?_⟩
  have word : spelled ["class"] = "class".toList ++ [' '] := by decide
  rw [line, front, words, spelled, List.flatMap_append, ← spelled, ← spelled, word, named]
  simp only [List.append_assoc, List.cons_append, List.nil_append]

theorem importLine_match?_line : importLine.match? (header.line gap rest) = none := by
  obtain ⟨more, line⟩ := header.exists_line_eq gap rest
  obtain ⟨c, others, begins, -, -, noImport⟩ :=
    exists_named_eq_cons header.areModifiers (header.name.characters ++ more)
  refine Option.eq_none_iff_forall_ne_some.mpr fun captures found => ?_
  obtain ⟨final, leads⟩ := exists_leads_of_match? found
  rw [line, importLine_eq, leads_seq_iff] at leads
  obtain ⟨_, _, indent, declared⟩ := leads
  obtain ⟨rfl, rfl⟩ := eq_of_leads_blanks (isBlank_head?_named header.areModifiers) indent
  obtain ⟨_, _, word, -⟩ := leads_seq_iff.mp declared
  obtain ⟨word, -⟩ := leads_literal_iff.mp word
  rw [begins] at word
  exact noImport (List.cons.inj word).1

theorem ClassHeader.isBlank_head?_name (more : List Char) :
    ∀ c ∈ (header.name.characters ++ more).head?, isBlank c = false := by
  obtain ⟨first, others, begins⟩ := List.exists_cons_of_ne_nil header.name.nonempty
  intro c head
  rw [begins] at head
  obtain rfl : first = c := Option.some.inj head
  have member : first ∈ header.name.characters := by simp [begins]
  exact TypeName.isBlank_eq_false member

/-- The line of a class is read as one if the name of the class can be read. -/
theorem exists_typeLine_match?_line (gap : ℕ) (rest : List Char) (isNamed : header.IsNamed) :
    ∃ captures, typeLine.match? (header.line gap rest) = some captures ∧
      part captures 1 = "class".toList := by
  obtain ⟨more, line⟩ := header.exists_line_eq gap rest
  have stops : ∀ c ∈ (header.name.characters ++ more).head?, isBlank c = false :=
    ClassHeader.isBlank_head?_name more
  obtain ⟨c, head, letter⟩ := isNamed
  obtain ⟨others, begins⟩ := List.head?_eq_some_iff.mp head
  have leads : Leads typeLine (header.line gap rest) [] (others ++ more)
      [(2, [c]), (1, "class".toList)] := by
    rw [line, leads_typeLine_iff header.areModifiers stops, leads_kindAndName_class_iff stops]
    exact ⟨[c], by simp, by simpa using letter, by rw [begins]; rfl, rfl⟩
  obtain ⟨captures, found⟩ :=
    Option.isSome_iff_exists.mp (isSome_match?_iff.mpr ⟨_, _, leads⟩)
  obtain ⟨final, way⟩ := exists_leads_of_match? found
  rw [line, leads_typeLine_iff header.areModifiers stops, leads_kindAndName_class_iff stops] at way
  obtain ⟨name, -, -, -, rfl⟩ := way
  exact ⟨_, found, rfl⟩

theorem typeLine_match?_line_eq_none (unnamed : ¬ header.IsNamed) :
    typeLine.match? (header.line gap rest) = none := by
  obtain ⟨more, line⟩ := header.exists_line_eq gap rest
  have stops : ∀ c ∈ (header.name.characters ++ more).head?, isBlank c = false :=
    ClassHeader.isBlank_head?_name more
  refine Option.eq_none_iff_forall_ne_some.mpr fun captures found => unnamed ?_
  obtain ⟨final, way⟩ := exists_leads_of_match? found
  rw [line, leads_typeLine_iff header.areModifiers stops, leads_kindAndName_class_iff stops] at way
  obtain ⟨name, nonempty, parts, split, -⟩ := way
  obtain ⟨first, others, begins⟩ := List.exists_cons_of_ne_nil header.name.nonempty
  obtain ⟨c, letters, rfl⟩ := List.exists_cons_of_ne_nil nonempty
  rw [begins] at split
  obtain ⟨rfl, -⟩ := List.cons.inj split
  exact ⟨first, by simp [begins], parts first List.mem_cons_self⟩

end Headers

/-! ## The bases of a file -/

/-- The bases of a class, with the number of its line. -/
def numberedBases? (declaration : Declaration) : Option (ℕ × List String) :=
  match declaration.detail with
  | .classBases bases => some (declaration.line, bases)
  | _ => none

/-- The bases of the classes on the line with a number. -/
def basesOn (outline : Outline) (number : ℕ) : List (List String) :=
  ((outline.declarations.filterMap numberedBases?).filter (·.1 = number)).map (·.2)

namespace Reading

/-- The bases that have been read, the last ones first. -/
def numberedBases (reading : Reading) : List (ℕ × List String) :=
  reading.declarations.filterMap numberedBases?

/-- The bases that a line adds. -/
def addedBases (reading : Reading) (raw : List Char) : List (ℕ × List String) :=
  match found? reading.braces.depth raw with
  | some (.declared captures) =>
      if part captures 1 ∈ ["interface", "@interface", "enum"].map String.toList then []
      else [(reading.count + 1, bases raw)]
  | _ => []

theorem numberedBases_addType (reading : Reading) (raw : List Char) (captures : Captures) :
    (reading.addType raw captures).numberedBases =
      (if part captures 1 ∈ ["interface", "@interface", "enum"].map String.toList then []
        else [(reading.count + 1, bases raw)]) ++ reading.numberedBases := by
  unfold addType
  dsimp only
  simp only [List.map_cons, List.map_nil, List.mem_cons, List.not_mem_nil, or_false]
  split
  next interface =>
    rw [Bool.or_eq_true, decide_eq_true_eq, decide_eq_true_eq] at interface
    rw [if_pos (by tauto)]
    rfl
  next noInterface =>
    rw [Bool.or_eq_true, decide_eq_true_eq, decide_eq_true_eq, not_or] at noInterface
    split
    next enum =>
      rw [if_pos (.inr (.inr enum))]
      rfl
    next noEnum =>
      rw [if_neg (by tauto)]
      rfl

theorem numberedBases_withMember (name : String) (declarations : List Declaration) :
    (withMember name declarations).filterMap numberedBases? =
      declarations.filterMap numberedBases? := by
  cases declarations <;> rfl

theorem grows_numberedBases : Grows numberedBases Prod.fst addedBases where
  start := rfl
  take reading raw := by
    rw [take_eq, addedBases]
    match found? reading.braces.depth raw with
    | none => rfl
    | some (.imported captures) => rfl
    | some (.declared captures) => exact reading.numberedBases_addType raw captures
    | some (.member name) => exact numberedBases_withMember _ _
  numbered reading raw item member := by
    rw [addedBases] at member
    split at member
    · split at member
      · cases member
      · rw [List.mem_singleton.mp member]
    · cases member

end Reading

section Supertypes

variable {text : String} {before after : List (List Char)} {raw rest : List Char}
  {header : ClassHeader} {gap : ℕ}

/-- The bases of the classes on a line are those that the line adds. -/
theorem basesOn_outline (split : lines text.toList = before ++ raw :: after) :
    basesOn (outline text) (before.length + 1) =
      ((before.foldl Reading.take .start).addedBases raw).map (·.2) := by
  have declarations : (outline text).declarations =
      ((lines text.toList).foldl Reading.take .start).declarations.reverse := rfl
  have found := Reading.grows_numberedBases.filter_foldl before after raw
  rw [Reading.numberedBases] at found
  rw [basesOn, declarations, List.filterMap_reverse, List.filter_reverse, split, found]
  have single : ∀ reading : Reading,
      (reading.addedBases raw).reverse = reading.addedBases raw := by
    intro reading
    rw [Reading.addedBases]
    split
    · split <;> rfl
    · rfl
  rw [single]

theorem found?_line : Reading.found? 0 (header.line gap rest) =
    (typeLine.match? (header.line gap rest)).map Reading.Found.declared := by
  rw [Reading.found?, if_pos rfl, importLine_match?_line]

theorem depth_foldl_take (outside : (before.foldl Braces.advance .start).depth = 0) :
    (before.foldl Reading.take .start).braces.depth = 0 := by
  rw [Reading.braces_foldl]
  exact outside

/-- The bases of a class outside of all braces are cut out of its header. -/
theorem basesOn_outline_line (split : lines text.toList = before ++ header.line gap rest :: after)
    (outside : (before.foldl Braces.advance .start).depth = 0) (isNamed : header.IsNamed) :
    basesOn (outline text) (before.length + 1) = [bases (header.line gap rest)] := by
  obtain ⟨captures, found, word⟩ := exists_typeLine_match?_line gap rest isNamed
  rw [basesOn_outline split, Reading.addedBases, depth_foldl_take outside, found?_line, found,
    Option.map_some]
  dsimp only
  rw [word, if_neg (by decide)]
  rfl

theorem basesOn_outline_line_eq_nil
    (split : lines text.toList = before ++ header.line gap rest :: after)
    (outside : (before.foldl Braces.advance .start).depth = 0) (unnamed : ¬ header.IsNamed) :
    basesOn (outline text) (before.length + 1) = [] := by
  rw [basesOn_outline split, Reading.addedBases, depth_foldl_take outside, found?_line,
    typeLine_match?_line_eq_none unnamed, Option.map_none]
  rfl

/-- What makes the supertypes of a header readable. -/
structure ClassHeader.IsReadable (header : ClassHeader) : Prop where
  isNamed : header.IsNamed
  superclass : header.ReadsClass header.superclass
  interfaces : ∀ type ∈ header.interfaces, type.several = false

/-- The bases of a class outside of all braces are its supertypes, in their order and without their
arguments, exactly if its header can be read. -/
theorem basesOn_outline_eq_supertypes_iff
    (split : lines text.toList = before ++ header.line gap rest :: after)
    (outside : (before.foldl Braces.advance .start).depth = 0) :
    basesOn (outline text) (before.length + 1) = [header.supertypes] ↔ header.IsReadable := by
  by_cases isNamed : header.IsNamed
  · rw [basesOn_outline_line split outside isNamed, List.cons.injEq, and_iff_left rfl,
      bases_line_eq_iff]
    exact ⟨fun ⟨superclass, interfaces⟩ => ⟨isNamed, superclass, interfaces⟩,
      fun readable => ⟨readable.superclass, readable.interfaces⟩⟩
  · rw [basesOn_outline_line_eq_nil split outside isNamed]
    exact iff_of_false (List.cons_ne_nil _ _).symm fun readable => isNamed readable.isNamed

end Supertypes

/-- The header `class Shop extends Base<List<Order>> implements Closeable, Comparable<Shop> {`. -/
def shopHeader : ClassHeader where
  modifiers := []
  name := { characters := "Shop".toList }
  parameters := []
  superclass := some ⟨{ characters := "Base".toList },
    [.type .exact { characters := "List".toList }
      [.type .exact { characters := "Order".toList } []]]⟩
  interfaces := [⟨{ characters := "Closeable".toList }, []⟩,
    ⟨{ characters := "Comparable".toList }, [.type .exact { characters := "Shop".toList } []]⟩]

/-- A file with the class. -/
def shopFile : String :=
  "import java.util.List;\n\n" ++
    "class Shop extends Base<List<Order>> implements Closeable, Comparable<Shop> \x7b\n\x7d\n"

theorem shop_bases :
    lines shopFile.toList =
        ["import java.util.List;".toList, []] ++ shopHeader.line 1 [] :: [['}']] ∧
      shopHeader.IsReadable ∧
        basesOn (outline shopFile) 3 = [["Base", "Closeable", "Comparable"]] := by
  have split : lines shopFile.toList =
      ["import java.util.List;".toList, []] ++ shopHeader.line 1 [] :: [['}']] := by
    decide
  have readable : shopHeader.IsReadable :=
    ⟨⟨'S', by decide, by decide⟩, .direct (List.forall_mem_nil _) (by decide), by decide⟩
  exact ⟨split, readable, (basesOn_outline_eq_supertypes_iff split rfl).mpr readable⟩

/-- The header `class Index extends HashMap<K, V> {`. -/
def indexHeader : ClassHeader where
  modifiers := []
  name := { characters := "Index".toList }
  parameters := []
  superclass := some ⟨{ characters := "HashMap".toList },
    [.type .exact { characters := "K".toList } [], .type .exact { characters := "V".toList } []]⟩
  interfaces := []

/-- A file with the class. -/
def indexFile : String := "class Index extends HashMap<K, V> \x7b\n\x7d\n"

/-- The second argument of a superclass is read as a base. -/
theorem index_bases :
    lines indexFile.toList = [indexHeader.line 1 [], ['}']] ∧
      indexHeader.supertypes = ["HashMap"] ∧
        basesOn (outline indexFile) 1 = [["HashMap", "V>"]] := by
  have split : lines indexFile.toList = [] ++ indexHeader.line 1 [] :: [['}']] := by decide
  have read := basesOn_outline_line split rfl ⟨'I', by decide, by decide⟩
  have cut : bases (indexHeader.line 1 []) = ["HashMap", "V>"] := by decide
  rw [cut] at read
  exact ⟨split, by decide, read⟩

end CodeAtlas.Source.Java
