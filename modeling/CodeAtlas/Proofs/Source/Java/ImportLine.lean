import CodeAtlas.Proofs.Text.Character
import CodeAtlas.Proofs.Text.Pattern
import CodeAtlas.Source.Java
import Mathlib.Data.Bool.AllAny

/-!
# Lines with imports of Java

An import names a path of words and points, and may be static or end in a star.  Such a line outside
of all braces gives one import, and no other line gives an import with its number.
-/

namespace CodeAtlas.Source.Java

open CodeAtlas.Text CodeAtlas.Text.Pattern

/-! ## The pattern -/

section Line

/-- Characters of the path of an import. -/
def isPathPart (c : Char) : Bool := isWord c || c = '.'

/-- What may follow the path of an import. -/
def importEnd : Pattern :=
  sequence [optional (.capture 3 (literal ".*")), blanks, literal ";"]

/-- The path of an import and what follows it. -/
def importTarget : Pattern :=
  .seq (.capture 2 (.seq (.one isPathPart) (.run false isPathPart))) importEnd

theorem importLine_eq :
    importLine = .seq blanks (.seq (literal "import") (.seq gap
      (.seq (optional (.seq (literal "static") gap)) importTarget))) := rfl

variable {path text rest : List Char} {captures after : Captures} {next : Continuation}

theorem isBlank_eq_false_of_isPathPart {c : Char} (part : isPathPart c = true) :
    isBlank c = false := by
  rw [isPathPart, Bool.or_eq_true, decide_eq_true_eq] at part
  rcases part with word | rfl
  · exact isBlank_eq_false_of_isWord word
  · decide

theorem exists_of_leads_importEnd (leads : Leads importEnd text captures rest after) :
    ∃ star spaces, (star = [] ∨ star = ".*".toList) ∧ (∀ c ∈ spaces, isBlank c = true) ∧
      text = star ++ (spaces ++ ';' :: rest) := by
  simp only [importEnd, blanks, sequence_cons, sequence_nil, leads_seq_iff, leads_optional_iff,
    leads_capture_iff, leads_literal_iff, leads_run_iff, leads_nothing_iff] at leads
  obtain ⟨_, _, starred, _, _, ⟨spaces, blank, rfl, _⟩, _, _, ⟨rfl, _⟩, rfl, _⟩ := leads
  rcases starred with ⟨_, _, _, ⟨rfl, _⟩, _⟩ | ⟨rfl, _⟩
  · exact ⟨".*".toList, spaces, .inr rfl, blank, rfl⟩
  · exact ⟨[], spaces, .inl rfl, blank, rfl⟩

/-- No part of a path ends an import. -/
theorem importEnd_matchThen_eq_none {c : Char} {others ending : List Char}
    (part : isPathPart c = true) (parts : ∀ c ∈ others, isPathPart c = true)
    (plain : ending.head? ≠ some '*') :
    importEnd.matchThen (c :: others ++ ending) captures next = none := by
  refine matchThen_eq_none fun rest after leads => ?_
  exfalso
  obtain ⟨star, spaces, rfl | rfl, blank, split⟩ := exists_of_leads_importEnd leads
  · cases spaces with
    | nil =>
        cases split
        exact absurd part (by decide)
    | cons space spaces =>
        obtain ⟨rfl, _⟩ := List.cons.inj split
        have noBlank := isBlank_eq_false_of_isPathPart part
        rw [blank c List.mem_cons_self] at noBlank
        cases noBlank
  · -- A star would follow the first character.
    have starred : others ++ ending = '*' :: (spaces ++ ';' :: rest) := (List.cons.inj split).2
    cases others with
    | nil =>
        rw [List.nil_append] at starred
        exact plain (by rw [starred]; rfl)
    | cons other others =>
        have same : other = '*' := (List.cons.inj starred).1
        exact absurd (parts other List.mem_cons_self) (by rw [same]; decide)

/-- A path is captured whole, and no more than the path. -/
theorem importTarget_matchThen {ending : List Char} {result : Captures} (nonempty : path ≠ [])
    (parts : ∀ c ∈ path, isPathPart c = true) (plain : ending.head? ≠ some '*')
    (follows : importEnd.matchThen ending ((2, path) :: captures) next = some result) :
    importTarget.matchThen (path ++ ending) captures next = some result := by
  cases path with
  | nil => exact absurd rfl nonempty
  | cons c others =>
      obtain ⟨part, otherParts⟩ := List.forall_mem_cons.mp parts
      rw [importTarget, matchThen, matchThen, matchThen, List.cons_append, matchThen, if_pos part,
        matchThen, runLazy_append otherParts]
      · apply runLazy_of_eq_some
        rw [← List.cons_append, List.length_append, Nat.add_sub_cancel, List.take_left]
        exact follows
      · intro before after split some
        cases after with
        | nil => exact absurd rfl some
        | cons other after =>
            have afterParts : ∀ c ∈ other :: after, isPathPart c = true := fun c member =>
              otherParts c (split ▸ List.mem_append_right _ member)
            obtain ⟨otherPart, afterParts⟩ := List.forall_mem_cons.mp afterParts
            exact importEnd_matchThen_eq_none otherPart afterParts plain

/-- Before the semicolon of an import stand blanks, words, points and stars. -/
theorem exists_of_leads_importLine (leads : Leads importLine text captures rest after) :
    ∃ front, text = front ++ ';' :: rest ∧
      ∀ c ∈ front, isBlank c = true ∨ isPathPart c = true ∨ c = '*' := by
  rw [importLine_eq] at leads
  simp only [importTarget, blanks, gap, leads_seq_iff, leads_optional_iff, leads_several_iff,
    leads_capture_iff, leads_literal_iff, leads_run_iff, leads_one_iff] at leads
  obtain ⟨_, _, ⟨first, firstBlank, rfl, rfl⟩, _, _, ⟨rfl, rfl⟩, _, _,
    ⟨second, -, secondBlank, rfl, rfl⟩, _, _, static, _, _,
    ⟨_, _, -, ⟨_, _, ⟨c, part, rfl, rfl⟩, others, otherParts, rfl, rfl⟩, rfl⟩, ending⟩ := leads
  obtain ⟨star, third, starred, thirdBlank, rfl⟩ := exists_of_leads_importEnd ending
  have importWord : ∀ c ∈ "import".toList, isPathPart c = true :=
    List.all_iff_forall_prop.mp (by decide)
  have staticWord : ∀ c ∈ "static".toList, isPathPart c = true :=
    List.all_iff_forall_prop.mp (by decide)
  have starPart : ∀ c ∈ star, isPathPart c = true ∨ c = '*' := by
    rcases starred with rfl | rfl
    · exact List.all_iff_forall_prop.mp (by decide)
    · exact List.all_iff_forall_prop.mp (by decide)
  rcases static with ⟨_, _, ⟨rfl, rfl⟩, fourth, -, fourthBlank, rfl, rfl⟩ | ⟨rfl, rfl⟩
  · refine ⟨first ++ ("import".toList ++ (second ++ ("static".toList ++ (fourth ++
      (c :: others ++ (star ++ third)))))), by simp, ?_⟩
    simp only [List.mem_append, List.mem_cons]
    grind
  · refine ⟨first ++ ("import".toList ++ (second ++ (c :: others ++ (star ++ third)))),
      by simp, ?_⟩
    simp only [List.mem_append, List.mem_cons]
    grind

/-- No word `static` with blanks after it begins a path. -/
theorem static_matchThen_eq_none
    (solid : ∀ c ∈ text, isBlank c = false) :
    (Pattern.seq (literal "static") gap).matchThen text captures next = none := by
  refine matchThen_eq_none fun rest after leads => ?_
  exfalso
  simp only [gap, leads_seq_iff, leads_literal_iff, leads_several_iff] at leads
  obtain ⟨_, _, ⟨rfl, rfl⟩, blanks, some, blank, rfl, rfl⟩ := leads
  cases blanks with
  | nil => exact some rfl
  | cons c blanks =>
      have solidHere := solid c (by simp)
      rw [blank c List.mem_cons_self] at solidHere
      cases solidHere

theorem importLine_match?_append (stops : ∀ c ∈ text.head?, isBlank c = false) :
    importLine.match? ("import ".toList ++ text) =
      (Pattern.seq (.optional (.seq (literal "static") gap)) importTarget).matchThen text []
        fun _ captures => some captures := by
  have words : "import ".toList ++ text = "import".toList ++ ' ' :: text := rfl
  have noBlank : isBlank 'i' = false := by decide
  rw [match?, words, importLine_eq, matchThen, blanks, matchThen,
    runGreedy_of_stops (by simp [noBlank]),
    matchThen, matchThen_literal, matchThen, matchThen_gap stops]

theorem importLine_match?_static {result : Captures}
    (stops : ∀ c ∈ text.head?, isBlank c = false)
    (target : importTarget.matchThen text [] (fun _ captures => some captures) = some result) :
    importLine.match? ("import static ".toList ++ text) = some result := by
  have words : "import static ".toList ++ text =
      "import ".toList ++ ("static".toList ++ ' ' :: text) := rfl
  have noBlank : isBlank 's' = false := by decide
  rw [words, importLine_match?_append (by simp [noBlank]), matchThen, Pattern.optional, matchThen,
    matchThen, matchThen, matchThen_literal, matchThen_gap stops, target, firstOf]

end Line

/-! ## Three kinds of lines -/

/-- What an import names of a class. -/
inductive ImportForm
  /-- The class. -/
  | ofClass
  /-- A static member of the class. -/
  | ofMember (member : List Char)
  /-- All static members of the class. -/
  | ofAllMembers
deriving DecidableEq

namespace ImportForm

def words : ImportForm → List Char
  | .ofClass => "import ".toList
  | .ofMember _ | .ofAllMembers => "import static ".toList

def path (name : List Char) : ImportForm → List Char
  | .ofMember member => name ++ '.' :: member
  | .ofClass | .ofAllMembers => name

def star : ImportForm → List Char
  | .ofAllMembers => ".*".toList
  | .ofClass | .ofMember _ => []

/-- The line of an import of a class. -/
def line (name : List Char) (form : ImportForm) : List Char :=
  form.words ++ (form.path name ++ (form.star ++ [';']))

/-- What the line of an import remembers. -/
def captures (name : List Char) (form : ImportForm) : Captures :=
  match form with
  | .ofAllMembers => [(3, ".*".toList), (2, form.path name)]
  | .ofClass | .ofMember _ => [(2, form.path name)]

variable {name : List Char} {form : ImportForm}

theorem path_ne_nil (nonempty : name ≠ []) : form.path name ≠ [] := by
  cases form <;> simp [path, nonempty]

theorem target_matchThen (nonempty : name ≠ [])
    (parts : ∀ c ∈ form.path name, isPathPart c = true) :
    importTarget.matchThen (form.path name ++ (form.star ++ [';'])) []
      (fun _ captures => some captures) = some (form.captures name) := by
  apply importTarget_matchThen (path_ne_nil nonempty) parts
  · cases form <;> simp [star]
  · cases form <;>
      simp [importEnd, star, captures, Pattern.optional, literal, matchThen, firstOf, blanks,
        runGreedy, isBlank]

theorem match?_line (nonempty : name ≠ []) (parts : ∀ c ∈ form.path name, isPathPart c = true) :
    importLine.match? (form.line name) = some (form.captures name) := by
  have target := target_matchThen nonempty parts
  have solid : ∀ c ∈ form.path name ++ (form.star ++ [';']), isBlank c = false := by
    intro c member
    rcases List.mem_append.mp member with part | ending
    · exact isBlank_eq_false_of_isPathPart (parts c part)
    · have noBlank : ∀ c ∈ ".*;".toList, isBlank c = false :=
        List.all_iff_forall_prop.mp (by decide)
      apply noBlank
      cases form <;> simp_all [star]
  have stops : ∀ c ∈ (form.path name ++ (form.star ++ [';'])).head?, isBlank c = false :=
    fun c first => solid c (List.mem_of_head? first)
  cases form with
  | ofClass =>
      refine (importLine_match?_append stops).trans ?_
      rw [matchThen, Pattern.optional, matchThen, static_matchThen_eq_none solid, firstOf,
        matchThen]
      exact target
  | ofMember | ofAllMembers => exact importLine_match?_static stops target

theorem semicolon_notMem_words : ';' ∉ form.words := by
  cases form with
  | ofClass => exact (by decide : ';' ∉ "import ".toList)
  | ofMember | ofAllMembers => exact (by decide : ';' ∉ "import static ".toList)

theorem semicolon_notMem_star : ';' ∉ form.star := by
  cases form <;> simp [star]

/-- A line that gives an import has a path of words and points. -/
theorem isPathPart_of_match?_line {result : Captures}
    (found : importLine.match? (form.line name) = some result)
    (solid : ∀ c ∈ form.path name, isBlank c = false ∧ c ≠ ';' ∧ c ≠ '*') :
    ∀ c ∈ form.path name, isPathPart c = true := by
  obtain ⟨rest, leads⟩ := exists_leads_of_match? found
  obtain ⟨front, split, parts⟩ := exists_of_leads_importLine leads
  -- The only semicolon of the line is at its end.
  have before : ';' ∉ form.words ++ (form.path name ++ form.star) := by
    intro member
    rcases List.mem_append.mp member with word | member
    · exact semicolon_notMem_words word
    · rcases List.mem_append.mp member with part | ending
      · exact (solid _ part).2.1 rfl
      · exact semicolon_notMem_star ending
  have whole : form.words ++ (form.path name ++ form.star) ++ ';' :: [] = front ++ ';' :: rest := by
    rw [← split, line]
    simp only [List.append_assoc]
  have last : form.words ++ (form.path name ++ form.star) = front :=
    ((List.append_cons_inj_of_notMem before List.not_mem_nil).mp whole).1
  intro c member
  obtain ⟨noBlank, _, noStar⟩ := solid c member
  have within : c ∈ front := by
    rw [← last]
    exact List.mem_append_right _ (List.mem_append_left _ member)
  rcases parts c within with blank | part | rfl
  · rw [noBlank] at blank
    cases blank
  · exact part
  · exact absurd rfl noStar

end ImportForm

end CodeAtlas.Source.Java
