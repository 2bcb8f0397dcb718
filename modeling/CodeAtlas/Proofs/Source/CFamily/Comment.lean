import CodeAtlas.Proofs.Source.CFamily.Reading
import CodeAtlas.Proofs.Text.Pattern

/-!
# Comments of C and C++ files

A line inside of a comment is matched like any other one, and also tells whether the record on the
line before it is open.  If it leaves that alone, it leaves what is read alone exactly if nothing
new is found on it.
-/

namespace CodeAtlas.Source.CFamily

open CodeAtlas.Text CodeAtlas.Text.Pattern

/-- Whether a line begins with the brace of a record on the line before it. -/
def startsWithBrace (line : List Char) : Bool := ['{'].isPrefixOf (trimStart line)

section

variable {raw front : List Char} {mark : Char} {rest : List Char} {captures : Captures}

theorem startsWithBrace_append (blank : ∀ c ∈ front, isBlank c = true)
    (solid : isBlank mark = false) (brace : mark ≠ '{') :
    startsWithBrace (front ++ mark :: rest) = false := by
  rw [startsWithBrace, trimStart, List.dropWhile_append_of_pos blank,
    List.dropWhile_cons_of_neg (by simp [solid])]
  simp [List.isPrefixOf, brace.symm]

theorem startsWithBrace_of_scope (scope : scopeLine.match? raw = some captures) :
    startsWithBrace raw = false := by
  obtain ⟨rest, leads⟩ := exists_leads_of_match? scope
  simp only [scopeLine, blanks, sequence_cons, leads_seq_iff, leads_run_iff, leads_either_iff,
    leads_literal_iff] at leads
  obtain ⟨_, _, ⟨front, blank, rfl, rfl⟩, _, _, scope, _⟩ := leads
  rcases scope with ⟨_, _, ⟨rfl, _⟩, _⟩ | ⟨_, _, ⟨rfl, _⟩, _⟩
  · exact startsWithBrace_append blank (by decide) (by decide)
  · exact startsWithBrace_append blank (by decide) (by decide)

theorem startsWithBrace_of_include (included : includeLine.match? raw = some captures) :
    startsWithBrace raw = false := by
  obtain ⟨rest, leads⟩ := exists_leads_of_match? included
  simp only [includeLine, directive, blanks, sequence_cons, leads_seq_iff, leads_run_iff,
    leads_literal_iff] at leads
  obtain ⟨_, _, ⟨_, _, ⟨front, blank, rfl, rfl⟩, _, _, ⟨rfl, _⟩, _⟩, _⟩ := leads
  exact startsWithBrace_append blank (by decide) (by decide)

end

namespace Reading

variable {language : Language} {reading : Reading} {raw next other line : List Char}

/-! ## The line before -/

/-- A reading with the body of another declaration open. -/
def withOpened (reading : Reading) (opened : Option Nat) : Reading :=
  { reading with opened := opened }

/-- Of the line that follows depends only which body is open, unless one brace is open. -/
theorem exists_opened_take (language : Language) (reading : Reading) (raw next other : List Char) :
    ∃ opened,
    reading.take language raw next = (reading.take language raw other).withOpened opened ∧
      ((reading.take language raw other).braces.depth = 1 →
        opened = (reading.take language raw other).opened) := by
  have same (kept : reading.take language raw next = reading.take language raw other) :
      ∃ opened,
        reading.take language raw next = (reading.take language raw other).withOpened opened ∧
          ((reading.take language raw other).braces.depth = 1 →
            opened = (reading.take language raw other).opened) :=
    ⟨_, kept, fun _ => rfl⟩
  cases scope : scopeLine.match? raw with
  | some captures =>
      have isScope : (scopeLine.match? raw).isSome = true := by rw [scope]; rfl
      exact same (by rw [take_of_scope isScope, take_of_scope isScope])
  | none =>
      cases included : includeLine.match? raw with
      | some captures =>
          exact same (by rw [take_of_include scope included, take_of_include scope included])
      | none =>
          rcases Nat.lt_trichotomy reading.braces.depth 1 with outside | inside | deep
          · have outside := Nat.lt_one_iff.mp outside
            rw [take_of_outside scope included outside, take_of_outside scope included outside]
            cases outside? language raw with
            | none => exact ⟨_, rfl, fun _ => rfl⟩
            | some found =>
                rw [putAll, putAll, put, put]
                split
                · refine ⟨_, rfl, fun inside => ?_⟩
                  have depth : (reading.advancing raw).closing.braces.depth = 1 := by
                    rwa [passing, braces_addOnce] at inside
                  simp only [opens, depth, passing, decide_true, Bool.true_or]
                · exact ⟨_, rfl, fun _ => rfl⟩
          · exact same
              (by rw [take_of_inside scope included inside, take_of_inside scope included inside])
          · exact same (by rw [take_of_deep scope included deep, take_of_deep scope included deep])

end Reading

theorem exists_opened_readBefore (language : Language) (next other : List Char)
    (reading : Reading) (lines : List (List Char)) : ∃ opened,
      readBefore language next reading lines =
        (readBefore language other reading lines).withOpened opened ∧
        ((readBefore language other reading lines).braces.depth = 1 ∨
            startsWithBrace next = startsWithBrace other →
          opened = (readBefore language other reading lines).opened) := by
  by_cases same : startsWithBrace next = startsWithBrace other
  · rw [readBefore_congr same reading lines]
    exact ⟨_, rfl, fun _ => rfl⟩
  · induction lines generalizing reading with
    | nil => exact ⟨_, rfl, fun _ => rfl⟩
    | cons line lines induction =>
        cases lines with
        | nil =>
            obtain ⟨opened, taken, kept⟩ :=
              Reading.exists_opened_take language reading line next other
            exact ⟨opened, taken, fun one => kept (one.resolve_right same)⟩
        | cons => exact induction _

/-! ## Two readings before a line -/

/-- Two readings that are alike, but for further members, and go on alike if this line follows. -/
structure AheadBefore (next : List Char) (position count : Nat) (extra : List String)
    (first second : Reading) : Prop extends Ahead true position count extra first second where
  opened : first.opened = second.opened ∨ startsWithBrace next = true ∧ second.braces.depth = 0

namespace AheadBefore

variable {language : Language} {next : List Char} {position count : Nat} {extra : List String}
  {first second third : Reading}

theorem of_same (braces : first.braces = second.braces) (counts : first.count = second.count)
    (imports : first.imports = second.imports)
    (entries : entriesOf true first.declarations = entriesOf true second.declarations)
    (opened : first.opened = second.opened ∨
      startsWithBrace next = true ∧ second.braces.depth = 0) :
    AheadBefore next 0 0 [] first second where
  braces := braces
  entries := by rw [Entry.insert_nil, List.modify_id, entries]
  early _ _ := Nat.zero_le _
  within := .inl ⟨rfl, rfl⟩
  lines _ := ⟨counts, imports⟩
  opened := opened

theorem of_alike (ahead : AheadBefore next position count extra first third)
    (alike : AheadBefore next 0 0 [] second third) :
    AheadBefore next position count extra first second where
  braces := ahead.braces.trans alike.braces.symm
  entries := by rw [ahead.entries, alike.entries_eq_iff.mpr rfl]
  early := by
    rw [alike.entries_eq_iff.mpr rfl]
    exact ahead.early
  within := ahead.within.imp_right fun within => alike.length_eq ▸ within
  lines _ := ⟨(ahead.lines rfl).1.trans (alike.lines rfl).1.symm,
    (ahead.lines rfl).2.trans (alike.lines rfl).2.symm⟩
  opened := by
    rw [alike.braces]
    rcases ahead.opened with same | closes
    · exact alike.opened.imp_left fun opened => same.trans opened.symm
    · exact .inr closes

/-- A brace at the beginning of the next line closes what is open. -/
theorem readLines (language : Language) {lines : List (List Char)}
    (ahead : AheadBefore (lines.headD []) position count extra first second) :
    Ahead true position count extra (CFamily.readLines language first lines)
      (CFamily.readLines language second lines) := by
  cases lines with
  | nil => exact ahead.toAhead
  | cons line rest =>
      rcases ahead.opened with opened | ⟨brace, outside⟩
      · have alike : AheadOpen true position count extra first second := ⟨ahead.toAhead, opened⟩
        exact (alike.readLines (line :: rest)).toAhead
      · have brace : startsWithBrace line = true := brace
        have noScope : scopeLine.match? line = none := by
          refine Option.eq_none_iff_forall_ne_some.mpr fun captures scope => ?_
          rw [startsWithBrace_of_scope scope] at brace
          cases brace
        have noInclude : includeLine.match? line = none := by
          refine Option.eq_none_iff_forall_ne_some.mpr fun captures included => ?_
          rw [startsWithBrace_of_include included] at brace
          cases brace
        have closed : AheadOpen true position count extra
            (first.take language line (rest.headD [])) (second.take language line (rest.headD [])) :=
          .of_outside ahead.toAhead noScope noInclude outside
        exact (closed.readLines rest).toAhead

end AheadBefore

/-! ## What is found on the line with a number -/

/-- How many imports and declarations of a line have been read. -/
def onLine (number : Nat) (reading : Reading) : Nat :=
  reading.imports.countP (·.line = number) + (placesOf reading).countP (·.2 = number)

theorem onLine_congr (number : Nat) {first second : Reading}
    (imports : first.imports = second.imports)
    (entries : entriesOf true first.declarations = entriesOf true second.declarations) :
    onLine number first = onLine number second := by
  have places (reading : Reading) : placesOf reading =
      (entriesOf true reading.declarations).map fun entry => (entry.kind, entry.line.getD 0) := by
    rw [entriesOf, List.map_map]
    rfl
  rw [onLine, onLine, imports, places, places, entries]

theorem onLine_readLines {language : Language} {number : Nat} {reading : Reading}
    (lines : List (List Char)) (past : number ≤ reading.count) :
    onLine number (readLines language reading lines) = onLine number reading := by
  induction lines generalizing reading with
  | nil => rfl
  | cons line lines induction =>
      obtain ⟨places, addedPlaces, placesThere⟩ :=
        Reading.placesOf_take language reading line (lines.headD [])
      obtain ⟨imports, addedImports, importsThere⟩ :=
        Reading.imports_take language reading line (lines.headD [])
      have noPlace : places.countP (·.2 = number) = 0 := by
        refine List.countP_eq_zero.mpr fun place member => ?_
        rw [(placesThere place member).1, decide_eq_true_eq]
        omega
      have noImport : imports.countP (·.line = number) = 0 := by
        refine List.countP_eq_zero.mpr fun found member => ?_
        rw [importsThere found member, decide_eq_true_eq]
        omega
      rw [readLines, induction (Nat.le_succ_of_le past), onLine, onLine, addedPlaces, addedImports,
        List.countP_append, List.countP_append, noPlace, noImport]
      omega

/-! ## Lines inside of comments -/

namespace Reading

variable {language : Language} {reading : Reading} {raw next other line : List Char}
  {opened : Option Nat}

/-- Whether a declaration of this kind and name has been read. -/
def isKnown (reading : Reading) (found : Found) : Bool :=
  reading.declarations.any fun d => d.kind == found.kind && d.name == String.ofList found.name

/-- The names that a line declares in the body that is open. -/
def memberNames (reading : Reading) (raw : List Char) : List (List Char) :=
  match reading.opened.bind (reading.declarations[·]?) with
  | some declaration => membersOf declaration.kind raw
  | none => []

/-- What a line inside of a comment does, if this body is open when it follows. -/
def effect (language : Language) (reading : Reading) (opened : Option Nat) (raw : List Char) :
    Effect :=
  if (scopeLine.match? raw).isSome then
    if reading.braces.depth = 0 ∧ reading.opened ≠ none then .turning else .nothing
  else if (includeLine.match? raw).isSome then .finding
  else if reading.braces.depth = 0 then
    match outside? language raw with
    | some found => if reading.isKnown found then .nothing else .finding
    | none => .nothing
  else if reading.braces.depth = 1 then
    if reading.memberNames raw = [] then .nothing else .finding
  else if opened ≠ reading.opened then .turning else .nothing

/-- A reading after a line inside of a comment on which nothing is found. -/
def settled (reading : Reading) : Reading :=
  { reading with
    count := reading.count + 1
    opened := if reading.braces.depth = 0 then none else reading.opened }

theorem addOnce_of_known {found : Found} (known : reading.isKnown found = true) :
    ∃ position, reading.addOnce
      (reading.declaration found.name found.kind found.signature found.detail) =
        (reading, position) := by
  rw [addOnce]
  split
  next position _ => exact ⟨position, rfl⟩
  next unknown =>
    rw [List.findIdx?_eq_none_iff] at unknown
    obtain ⟨declaration, member, same⟩ := List.any_eq_true.mp known
    exact absurd same (Bool.not_eq_true _ ▸ unknown declaration member)

theorem onLine_addOnce_of_new (reading : Reading) {found : Found}
    (new : ¬reading.isKnown found = true) :
    onLine (reading.count + 1) (reading.addOnce
      (reading.declaration found.name found.kind found.signature found.detail)).1 =
        onLine (reading.count + 1) reading + 1 := by
  rw [addOnce]
  split
  next position there =>
    obtain ⟨within, same, _⟩ := List.findIdx?_eq_some_iff_getElem.mp there
    exact absurd (List.any_eq_true.mpr ⟨_, List.getElem_mem within, same⟩) new
  next =>
    rw [onLine, onLine, placesOf, List.map_append, List.countP_append, ← placesOf, Nat.add_assoc]
    simp [declaration]

/-- What is known already only opens its body, and only if the next line begins with a brace. -/
theorem exists_opened_put {found : Found} (next : List Char) (outside : reading.braces.depth = 0)
    (known : reading.isKnown found = true) : ∃ body,
      (reading.withOpened none).put next found = reading.withOpened body ∧
        (body = none ∨ startsWithBrace next = true) := by
  have isKnown : (reading.withOpened none).isKnown found = true := known
  obtain ⟨position, same⟩ := addOnce_of_known isKnown
  rw [put, same]
  split
  · refine ⟨_, rfl, ?_⟩
    cases brace : startsWithBrace next with
    | true => exact .inr rfl
    | false =>
        have closed : (reading.withOpened none).opens next = false := by
          have notOne : decide (reading.braces.depth = 1) = false := by simp [outside]
          exact Bool.or_eq_false_iff.mpr ⟨notOne, brace⟩
        rw [closed]
        exact .inl rfl
  · exact ⟨none, rfl, .inl rfl⟩

theorem onLine_put {found : Found} (new : ¬reading.isKnown found = true) :
    onLine (reading.count + 1) ((reading.withOpened none).put next found) =
      onLine (reading.count + 1) reading + 1 := by
  have added := onLine_addOnce_of_new (reading.withOpened none) new
  rw [put]
  split
  · exact added
  · exact added

/-- A line of a body adds the names that it declares. -/
theorem exists_ahead_takeMember (reading : Reading) (raw : List Char) : ∃ position count,
    AheadOpen true position count ((reading.memberNames raw).map String.ofList)
      (reading.takeMember raw) reading := by
  cases opened : reading.opened with
  | none =>
      have noNames : reading.memberNames raw = [] := by rw [memberNames, opened]; rfl
      rw [noNames, takeMember_of_none opened]
      exact ⟨0, 0, .refl reading⟩
  | some position =>
      cases here : reading.declarations[position]? with
      | none =>
          have noNames : reading.memberNames raw = [] := by
            rw [memberNames, opened, Option.bind_some, here]
          have kept : reading.declarations.modify position (extendWith raw) =
              reading.declarations := by
            have same : reading.declarations.modify position (extendWith raw) =
                reading.declarations.modify position id :=
              modify_eq_of_eq (by rw [here]; nofun)
            rwa [List.modify_id] at same
          rw [noNames, takeMember_of_some opened, kept]
          exact ⟨0, 0, .refl reading⟩
      | some declaration =>
          have names : reading.memberNames raw = membersOf declaration.kind raw := by
            rw [memberNames, opened, Option.bind_some, here]
          have there : (entriesOf true reading.declarations)[position]? =
              some (entryOf true declaration) := by
            rw [entriesOf, List.getElem?_map, here]
            rfl
          rw [names, takeMember_of_some opened]
          refine ⟨position, declaration.members.length, ⟨rfl, ?_, ?_, ?_, fun _ => ⟨rfl, rfl⟩⟩, rfl⟩
          · have extended : entriesOf true (reading.declarations.modify position (extendWith raw)) =
                (entriesOf true reading.declarations).modify position (extendEntry raw) :=
              map_modify fun _ => rfl
            rw [extended]
            refine modify_eq_of_eq fun entry member => ?_
            rw [there] at member
            cases member
            simp [extendEntry, Entry.insert, entryOf]
          · intro entry member
            rw [there] at member
            cases member
            exact Nat.le_refl _
          · exact .inr (List.getElem?_eq_some_iff.mp here).1

/-- Something is read from a line that is not read from it otherwise. -/
def Finds (next : List Char) (reading after : Reading) : Prop :=
  onLine (reading.count + 1) after = onLine (reading.count + 1) reading + 1 ∨
    ∃ position count extra, extra ≠ [] ∧
      AheadBefore next position count extra after reading.settled

/-- What an effect tells of the readings before and after a line: that nothing is read from it, or
that something is. -/
inductive Tells (next : List Char) (reading after : Reading) : Effect → Prop
  | nothing (settles : AheadBefore next 0 0 [] after reading.settled) :
      Tells next reading after .nothing
  | finding (finds : Finds next reading after) : Tells next reading after .finding

/-! ### The kinds of lines -/

theorem tells_of_scope (isScope : (scopeLine.match? line).isSome = true)
    (same : opened = reading.opened) (stays : reading.effect language opened line ≠ .turning) :
    Tells next reading ((reading.withOpened opened).take language line next)
      (reading.effect language opened line) := by
  have effect : reading.effect language opened line =
      if reading.braces.depth = 0 ∧ reading.opened ≠ none then .turning else .nothing :=
    if_pos isScope
  rw [effect] at stays ⊢
  have closed : ¬(reading.braces.depth = 0 ∧ reading.opened ≠ none) :=
    fun turning => stays (if_pos turning)
  rw [if_neg closed, take_of_scope isScope]
  refine .nothing (.of_same rfl rfl rfl rfl (.inl ?_))
  show opened = if reading.braces.depth = 0 then none else reading.opened
  rw [same]
  split
  next outside =>
    by_contra other
    exact closed ⟨outside, other⟩
  next => rfl

section

variable (noScope : scopeLine.match? line = none)
  (still : (reading.withOpened opened).advancing line = reading.withOpened opened)

include noScope still

theorem tells_of_include {captures : Captures}
    (included : includeLine.match? line = some captures) :
    Tells next reading ((reading.withOpened opened).take language line next)
      (reading.effect language opened line) := by
  have effect : reading.effect language opened line = .finding := by
    simp [effect, noScope, included]
  rw [effect, take_of_include noScope included, still]
  refine .finding (.inl ?_)
  show ((_ :: reading.imports).countP _) + _ = _
  rw [List.countP_cons_of_pos (by exact decide_eq_true rfl), Nat.add_right_comm]
  rfl

variable (noInclude : includeLine.match? line = none)

include noInclude

theorem tells_of_outside (outside : reading.braces.depth = 0) :
    Tells next reading ((reading.withOpened opened).take language line next)
      (reading.effect language opened line) := by
  have closed : none = reading.settled.opened := (if_pos outside).symm
  have effect : reading.effect language opened line =
      match outside? language line with
      | some found => if reading.isKnown found then .nothing else .finding
      | none => .nothing := by
    simp [effect, noScope, noInclude, outside]
  have depth : (reading.withOpened opened).braces.depth = 0 := outside
  rw [effect, take_of_outside noScope noInclude depth, still]
  cases outside? language line with
  | none => exact .nothing (.of_same rfl rfl rfl rfl (.inl closed))
  | some found =>
      by_cases known : reading.isKnown found = true
      · obtain ⟨body, same, opens⟩ := exists_opened_put next outside known
        simp only [known, if_true]
        refine .nothing ?_
        show AheadBefore next 0 0 []
          (passing _ line ((reading.withOpened none).put next found)) _
        rw [same]
        refine .of_same rfl rfl rfl rfl ?_
        exact opens.imp (fun none => none.trans closed) fun brace => ⟨brace, outside⟩
      · simp only [if_neg known]
        exact .finding (.inl (onLine_put known))

theorem tells_of_inside (inside : reading.braces.depth = 1) (same : opened = reading.opened) :
    Tells next reading ((reading.withOpened opened).take language line next)
      (reading.effect language opened line) := by
  have effect : reading.effect language opened line =
      if reading.memberNames line = [] then .nothing else .finding := by
    simp [effect, noScope, noInclude, inside]
  have depth : (reading.withOpened opened).braces.depth = 1 := inside
  rw [effect, take_of_inside noScope noInclude depth, still]
  subst same
  have stillOpen : reading.opened = reading.settled.opened :=
    (if_neg (by omega : ¬reading.braces.depth = 0)).symm
  obtain ⟨position, count, ahead⟩ := reading.exists_ahead_takeMember line
  have settles : AheadBefore next position count
      ((reading.memberNames line).map String.ofList)
      (passing reading line (reading.takeMember line)) reading.settled :=
    ⟨⟨ahead.braces, ahead.entries, ahead.early, ahead.within,
      fun _ => ⟨rfl, (ahead.lines rfl).2⟩⟩, .inl (ahead.opened.trans stillOpen)⟩
  by_cases none : reading.memberNames line = []
  · rw [if_pos none]
    rw [none] at settles
    exact .nothing (.of_same settles.braces (settles.lines rfl).1 (settles.lines rfl).2
      (settles.entries_eq_iff.mpr rfl) settles.opened)
  · rw [if_neg none]
    exact .finding (.inr ⟨position, count, _, by simpa using none, settles⟩)

theorem tells_of_deep (deep : 1 < reading.braces.depth)
    (stays : reading.effect language opened line ≠ .turning) :
    Tells next reading ((reading.withOpened opened).take language line next)
      (reading.effect language opened line) := by
  have notOutside : ¬reading.braces.depth = 0 := by omega
  have notInside : ¬reading.braces.depth = 1 := by omega
  have effect : reading.effect language opened line =
      if opened ≠ reading.opened then .turning else .nothing := by
    simp [effect, noScope, noInclude, notOutside, notInside]
  have depth : 1 < (reading.withOpened opened).braces.depth := deep
  rw [effect] at stays ⊢
  have same : ¬opened ≠ reading.opened := fun other => stays (if_pos other)
  rw [if_neg same, take_of_deep noScope noInclude depth, still]
  refine .nothing (.of_same rfl rfl rfl rfl (.inl ?_))
  exact (not_not.mp same).trans (if_neg notOutside).symm

end

/-- Inside of a comment the effect of a line that opens and closes nothing tells what is read. -/
theorem tells_of_inComment (inComment : reading.braces.inComment = true)
    (goesOn : isInfix ['*', '/'] line = false)
    (kept : reading.braces.depth = 1 ∨ startsWithBrace line = false → opened = reading.opened)
    (stays : reading.effect language opened line ≠ .turning) :
    Tells next reading ((reading.withOpened opened).take language line next)
      (reading.effect language opened line) := by
  have still : (reading.withOpened opened).advancing line = reading.withOpened opened := by
    have braces : reading.braces.advance line = reading.braces :=
      Braces.advance_of_inComment inComment goesOn
    simp only [advancing, withOpened, braces]
  cases scope : scopeLine.match? line with
  | some captures =>
      exact tells_of_scope (by rw [scope]; rfl) (kept (.inr (startsWithBrace_of_scope scope))) stays
  | none =>
      cases included : includeLine.match? line with
      | some captures => exact tells_of_include scope still included
      | none =>
          rcases Nat.lt_trichotomy reading.braces.depth 1 with outside | inside | deep
          · exact tells_of_outside scope still included (Nat.lt_one_iff.mp outside)
          · exact tells_of_inside scope still included inside (kept (.inl inside))
          · exact tells_of_deep scope still included deep stays

end Reading

/-- What a line inside of a comment does after other lines. -/
def effectAfter (language : Language) (before : List (List Char)) (line : List Char) : Effect :=
  (readBefore language [] .start before).effect language
    (readBefore language line .start before).opened line

/-- The code of a text is what has been read after all its lines. -/
theorem codeOf_outline_eq_iff {language : Language} {first second : String}
    (isFamily : language = .c ∨ language = .cpp) :
    codeOf (outline language first) = codeOf (outline language second) ↔
      (readLines language .start (lines first.toList)).imports =
          (readLines language .start (lines second.toList)).imports ∧
        entriesOf true (readLines language .start (lines first.toList)).declarations =
          entriesOf true (readLines language .start (lines second.toList)).declarations := by
  rw [← outline_declarations isFamily, ← outline_declarations isFamily,
    ← List.reverse_injective.eq_iff]
  exact Prod.ext_iff

/-- Inside of a comment a line for another one, on which nothing is found, changes the code that is
read exactly if something is found on it, unless it opens or closes a body. -/
theorem codeOf_eq_iff {language : Language} {first second : String}
    {before after : List (List Char)} {line other : List Char}
    (isFamily : language = .c ∨ language = .cpp)
    (firstLines : lines first.toList = before ++ line :: after)
    (secondLines : lines second.toList = before ++ other :: after)
    (inComment : (before.foldl bracesAfterLine .start).inComment = true)
    (lineGoesOn : isInfix ['*', '/'] line = false) (otherGoesOn : isInfix ['*', '/'] other = false)
    (lineStays : effectAfter language before line ≠ .turning)
    (otherNothing : effectAfter language before other = .nothing) :
    codeOf (outline language first) = codeOf (outline language second) ↔
      effectAfter language before line = .nothing := by
  have readingInComment : (readBefore language [] .start before).braces.inComment = true := by
    rw [braces_readBefore]
    exact inComment
  -- What stands on the line decides only which body is open before it.
  have tells {line : List Char} (goesOn : isInfix ['*', '/'] line = false)
      (stays : effectAfter language before line ≠ .turning) :
      (readBefore language [] .start before).Tells (after.headD [])
        ((readBefore language line .start before).take language line (after.headD []))
        (effectAfter language before line) := by
    obtain ⟨opened, read, kept⟩ :=
      exists_opened_readBefore language line [] .start before
    rw [effectAfter] at stays ⊢
    rw [read] at stays ⊢
    exact Reading.tells_of_inComment readingInComment goesOn kept stays
  have read {text : String} {line : List Char}
      (textLines : lines text.toList = before ++ line :: after) :
      readLines language .start (lines text.toList) = readLines language
        ((readBefore language line .start before).take language line (after.headD [])) after := by
    rw [textLines, readLines_append, readLines]
  have otherTells := tells otherGoesOn (by rw [otherNothing]; decide)
  have lineTells := tells lineGoesOn lineStays
  rw [otherNothing] at otherTells
  obtain ⟨otherSettles⟩ := otherTells
  rw [codeOf_outline_eq_iff isFamily, read firstLines, read secondLines]
  generalize effectAfter language before line = effect at lineTells ⊢
  rcases lineTells with settles | found | ⟨position, count, extra, some, settles⟩
  · have final := (settles.of_alike otherSettles).readLines language
    exact iff_of_true ⟨(final.lines rfl).2, final.entries_eq_iff.mpr rfl⟩ rfl
  · refine iff_of_false (fun same => ?_) (by decide)
    have counted := onLine_congr ((readBefore language [] .start before).count + 1) same.1 same.2
    have past {line : List Char} : (readBefore language [] .start before).count + 1 ≤
        ((readBefore language line .start before).take language line (after.headD [])).count := by
      obtain ⟨opened, read, _⟩ :=
        exists_opened_readBefore language line [] .start before
      rw [read, Reading.count_take]
      exact Nat.le_refl _
    have otherFound := onLine_congr ((readBefore language [] .start before).count + 1)
      (otherSettles.lines rfl).2 (otherSettles.entries_eq_iff.mpr rfl)
    rw [onLine_readLines _ past, onLine_readLines _ past, found, otherFound] at counted
    exact Nat.succ_ne_self _ counted
  · refine iff_of_false (fun same => ?_) (by decide)
    have final := (settles.of_alike otherSettles).readLines language
    exact some (final.entries_eq_iff.mp same.2)

end CodeAtlas.Source.CFamily
