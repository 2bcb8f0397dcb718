import CodeAtlas.Text.Pattern
import Mathlib.Data.List.Basic

/-!
# Ways through a text

`Leads` says which ways through a text a pattern allows.  Matching looks for the first of them that
leaves what follows a match, so it succeeds exactly when there is one.
-/

namespace CodeAtlas.Text.Pattern

/-! ## Ways -/

/-- A pattern leads from a text to what a match leaves of it, and from the parts remembered so far
to those remembered then. -/
inductive Leads : Pattern → List Char → Captures → List Char → Captures → Prop
  | nothing {text : List Char} {captures : Captures} :
      Leads .nothing text captures text captures
  | one {test : Char → Bool} {c : Char} {rest : List Char} {captures : Captures} :
      test c = true → Leads (.one test) (c :: rest) captures rest captures
  | run {greedy : Bool} {test : Char → Bool} {rest : List Char} {captures : Captures}
      (front : List Char) :
      (∀ c ∈ front, test c = true) →
      Leads (.run greedy test) (front ++ rest) captures rest captures
  | seq {first second : Pattern} {text middle rest : List Char}
      {captures between after : Captures} :
      Leads first text captures middle between → Leads second middle between rest after →
      Leads (.seq first second) text captures rest after
  | left {first second : Pattern} {text rest : List Char} {captures after : Captures} :
      Leads first text captures rest after → Leads (.either first second) text captures rest after
  | right {first second : Pattern} {text rest : List Char} {captures after : Captures} :
      Leads second text captures rest after →
      Leads (.either first second) text captures rest after
  | done {greedy : Bool} {pattern : Pattern} {text : List Char} {captures : Captures} :
      Leads (.many greedy pattern) text captures text captures
  | again {greedy : Bool} {pattern : Pattern} {text middle rest : List Char}
      {captures between after : Captures} :
      Leads pattern text captures middle between → middle.length < text.length →
      Leads (.many greedy pattern) middle between rest after →
      Leads (.many greedy pattern) text captures rest after
  | capture {index : Nat} {pattern : Pattern} {rest : List Char} {captures after : Captures}
      (front : List Char) :
      Leads pattern (front ++ rest) captures rest after →
      Leads (.capture index pattern) (front ++ rest) captures rest ((index, front) :: after)
  | atEnd {captures : Captures} : Leads .atEnd [] captures [] captures
  | before {test : Char → Bool} {text : List Char} {captures : Captures} :
      text.head?.any test = false → Leads (.before test) text captures text captures

variable {pattern first second : Pattern} {test : Char → Bool} {text rest : List Char}
  {captures after : Captures}
  {next : Continuation} {result : Captures}

@[simp]
theorem leads_nothing_iff :
    Leads .nothing text captures rest after ↔ rest = text ∧ after = captures := by
  constructor
  · rintro ⟨⟩
    exact ⟨rfl, rfl⟩
  · rintro ⟨rfl, rfl⟩
    exact .nothing

@[simp]
theorem leads_one_iff :
    Leads (.one test) text captures rest after ↔
      ∃ c, test c = true ∧ text = c :: rest ∧ after = captures := by
  constructor
  · rintro ⟨⟩
    exact ⟨_, ‹_›, rfl, rfl⟩
  · rintro ⟨c, fits, rfl, rfl⟩
    exact .one fits

@[simp]
theorem leads_run_iff {greedy : Bool} :
    Leads (.run greedy test) text captures rest after ↔
      ∃ front, (∀ c ∈ front, test c = true) ∧ text = front ++ rest ∧ after = captures := by
  constructor
  · rintro ⟨⟩
    exact ⟨_, ‹_›, rfl, rfl⟩
  · rintro ⟨front, all, rfl, rfl⟩
    exact .run front all

@[simp]
theorem leads_seq_iff :
    Leads (.seq first second) text captures rest after ↔
      ∃ middle between, Leads first text captures middle between ∧
        Leads second middle between rest after := by
  constructor
  · rintro ⟨⟩
    exact ⟨_, _, ‹_›, ‹_›⟩
  · rintro ⟨_, _, leads, leadsOn⟩
    exact .seq leads leadsOn

@[simp]
theorem leads_either_iff :
    Leads (.either first second) text captures rest after ↔
      Leads first text captures rest after ∨ Leads second text captures rest after := by
  constructor
  · intro leads
    cases leads with
    | left leads => exact .inl leads
    | right leads => exact .inr leads
  · rintro (leads | leads)
    · exact .left leads
    · exact .right leads

@[simp]
theorem leads_capture_iff {index : Nat} :
    Leads (.capture index pattern) text captures rest after ↔
      ∃ front between, text = front ++ rest ∧ Leads pattern text captures rest between ∧
        after = (index, front) :: between := by
  constructor
  · rintro ⟨⟩
    exact ⟨_, _, rfl, ‹_›, rfl⟩
  · rintro ⟨front, between, rfl, leads, rfl⟩
    exact .capture front leads

@[simp]
theorem leads_atEnd_iff :
    Leads .atEnd text captures rest after ↔ text = [] ∧ rest = [] ∧ after = captures := by
  constructor
  · rintro ⟨⟩
    exact ⟨rfl, rfl, rfl⟩
  · rintro ⟨rfl, rfl, rfl⟩
    exact .atEnd

@[simp]
theorem sequence_nil : sequence [] = .nothing := rfl

@[simp]
theorem sequence_cons (pattern : Pattern) (patterns : List Pattern) :
    sequence (pattern :: patterns) = .seq pattern (sequence patterns) := rfl

@[simp]
theorem leads_literal_iff {part : String} :
    Leads (literal part) text captures rest after ↔
      text = part.toList ++ rest ∧ after = captures := by
  rw [literal]
  induction part.toList generalizing text with
  | nil => simp [eq_comm]
  | cons c part induction => simp [induction]

@[simp]
theorem leads_optional_iff :
    Leads (optional pattern) text captures rest after ↔
      Leads pattern text captures rest after ∨ rest = text ∧ after = captures := by
  rw [optional, leads_either_iff, leads_nothing_iff]

@[simp]
theorem leads_several_iff :
    Leads (several test) text captures rest after ↔
      ∃ front, front ≠ [] ∧ (∀ c ∈ front, test c = true) ∧ text = front ++ rest ∧
        after = captures := by
  rw [several, leads_seq_iff]
  constructor
  · intro leads
    obtain ⟨middle, between, one, others⟩ := leads
    obtain ⟨c, fits, rfl, rfl⟩ := leads_one_iff.mp one
    obtain ⟨front, all, rfl, rfl⟩ := leads_run_iff.mp others
    exact ⟨c :: front, List.cons_ne_nil _ _, List.forall_mem_cons.mpr ⟨fits, all⟩, rfl, rfl⟩
  · rintro ⟨front, nonempty, all, rfl, rfl⟩
    cases front with
    | nil => exact absurd rfl nonempty
    | cons c front =>
        obtain ⟨fits, all⟩ := List.forall_mem_cons.mp all
        exact ⟨front ++ rest, after, .one fits, .run front all⟩

theorem leads_word_iff {words : List String} (some : words ≠ []) :
    Leads (word words) text captures rest after ↔
      ∃ part ∈ words, text = part.toList ++ rest ∧ after = captures := by
  rw [word]
  induction words with
  | nil => exact absurd rfl some
  | cons part words induction =>
      cases words with
      | nil => simp [choice]
      | cons next words =>
          have others := induction (List.cons_ne_nil _ _)
          rw [List.map_cons] at others ⊢
          rw [List.map_cons, choice, leads_either_iff, others, leads_literal_iff]
          · simp only [List.mem_cons, exists_eq_or_imp]
          · exact List.cons_ne_nil _ _

theorem leads_many_iff {greedy : Bool} :
    Leads (.many greedy pattern) text captures rest after ↔
      rest = text ∧ after = captures ∨
        ∃ middle between, Leads pattern text captures middle between ∧
          middle.length < text.length ∧ Leads (.many greedy pattern) middle between rest after := by
  constructor
  · intro leads
    cases leads with
    | done => exact .inl ⟨rfl, rfl⟩
    | again leads shorter leadsOn => exact .inr ⟨_, _, leads, shorter, leadsOn⟩
  · rintro (⟨rfl, rfl⟩ | ⟨middle, between, leads, shorter, leadsOn⟩)
    · exact .done
    · exact .again leads shorter leadsOn

theorem Leads.exists_append (leads : Leads pattern text captures rest after) :
    ∃ front, text = front ++ rest := by
  induction leads with
  | nothing | done | atEnd | before => exact ⟨[], rfl⟩
  | @one _ c => exact ⟨[c], rfl⟩
  | run front | capture front => exact ⟨front, rfl⟩
  | seq _ _ first second =>
      obtain ⟨front, rfl⟩ := first
      obtain ⟨back, rfl⟩ := second
      exact ⟨front ++ back, (List.append_assoc ..).symm⟩
  | left _ induction | right _ induction => exact induction
  | again _ _ _ first second =>
      obtain ⟨front, rfl⟩ := first
      obtain ⟨back, rfl⟩ := second
      exact ⟨front ++ back, (List.append_assoc ..).symm⟩

/-! ## Matching -/

theorem firstOf_eq_some {first : Option Captures} {second : Unit → Option Captures}
    (found : firstOf first second = some result) :
    first = some result ∨ second () = some result := by
  cases first with
  | some captures => exact .inl found
  | none => exact .inr found

theorem exists_run_of_runGreedy
    (found : runGreedy test captures next text = some result) :
    ∃ front rest, text = front ++ rest ∧ (∀ c ∈ front, test c = true) ∧
      next rest captures = some result := by
  induction text with
  | nil => exact ⟨[], [], rfl, by simp, found⟩
  | cons c text induction =>
      rw [runGreedy] at found
      split at found
      next fits =>
        rcases firstOf_eq_some found with longer | here
        · obtain ⟨front, rest, rfl, all, follows⟩ := induction longer
          exact ⟨c :: front, rest, rfl, by simpa [fits] using all, follows⟩
        · exact ⟨[], c :: text, rfl, by simp, here⟩
      next => exact ⟨[], c :: text, rfl, by simp, found⟩

theorem exists_run_of_runLazy
    (found : runLazy test captures next text = some result) :
    ∃ front rest, text = front ++ rest ∧ (∀ c ∈ front, test c = true) ∧
      next rest captures = some result := by
  induction text with
  | nil => exact ⟨[], [], rfl, by simp, found⟩
  | cons c text induction =>
      rw [runLazy] at found
      rcases firstOf_eq_some found with here | longer
      · exact ⟨[], c :: text, rfl, by simp, here⟩
      · split at longer
        next fits =>
          obtain ⟨front, rest, rfl, all, follows⟩ := induction longer
          exact ⟨c :: front, rest, rfl, by simpa [fits] using all, follows⟩
        next => cases longer

/-- Matches of repetitions follow ways if matches of what is repeated do. -/
theorem exists_leads_of_many {greedy : Bool} {inner : Pattern}
    (follow : ∀ {text : List Char} {captures : Captures} {next : Continuation},
      inner.matchThen text captures next = some result →
        ∃ rest after, Leads inner text captures rest after ∧ next rest after = some result)
    (found : (many greedy inner).matchThen text captures next = some result) :
    ∃ rest after, Leads (.many greedy inner) text captures rest after ∧
      next rest after = some result := by
  -- Every repetition shortens the text.
  induction bound : text.length using Nat.strongRecOn generalizing text captures with
  | _ bound induction =>
      rw [matchThen] at found
      have ways : (inner.matchThen text captures fun rest captures =>
            if rest.length < text.length then (many greedy inner).matchThen rest captures next
            else none) = some result ∨ next text captures = some result := by
        dsimp only at found
        split at found
        · exact firstOf_eq_some found
        · exact (firstOf_eq_some found).symm
      rcases ways with repeated | stopped
      · obtain ⟨middle, between, leads, continues⟩ := follow repeated
        split at continues
        next shorter =>
          obtain ⟨rest, after, leadsOn, follows⟩ :=
            induction middle.length (bound ▸ shorter) continues rfl
          exact ⟨rest, after, .again leads shorter leadsOn, follows⟩
        next => cases continues
      · exact ⟨text, captures, .done, stopped⟩

/-- A match follows a way through the text that leaves what follows a match. -/
theorem exists_leads_of_matchThen (found : pattern.matchThen text captures next = some result) :
    ∃ rest after, Leads pattern text captures rest after ∧ next rest after = some result := by
  induction pattern generalizing text captures next with
  | nothing =>
      rw [matchThen] at found
      exact ⟨text, captures, .nothing, found⟩
  | one test =>
      cases text with
      | nil =>
          rw [matchThen] at found
          cases found
      | cons c rest =>
          rw [matchThen] at found
          split at found
          next fits => exact ⟨rest, captures, .one fits, found⟩
          next => cases found
  | run greedy test =>
      have way : ∃ front rest, text = front ++ rest ∧ (∀ c ∈ front, test c = true) ∧
          next rest captures = some result := by
        cases greedy with
        | true => exact exists_run_of_runGreedy (by rwa [matchThen] at found)
        | false => exact exists_run_of_runLazy (by rwa [matchThen] at found)
      obtain ⟨front, rest, rfl, all, follows⟩ := way
      exact ⟨rest, captures, .run front all, follows⟩
  | seq first second firstInduction secondInduction =>
      rw [matchThen] at found
      obtain ⟨middle, between, leads, continues⟩ := firstInduction found
      obtain ⟨rest, after, leadsOn, follows⟩ := secondInduction continues
      exact ⟨rest, after, .seq leads leadsOn, follows⟩
  | either first second firstInduction secondInduction =>
      rw [matchThen] at found
      rcases firstOf_eq_some found with found | found
      · obtain ⟨rest, after, leads, follows⟩ := firstInduction found
        exact ⟨rest, after, .left leads, follows⟩
      · obtain ⟨rest, after, leads, follows⟩ := secondInduction found
        exact ⟨rest, after, .right leads, follows⟩
  | many greedy inner innerInduction =>
      exact exists_leads_of_many innerInduction found
  | capture index inner induction =>
      rw [matchThen] at found
      obtain ⟨rest, after, leads, follows⟩ := induction found
      obtain ⟨front, rfl⟩ := leads.exists_append
      have same : (front ++ rest).take ((front ++ rest).length - rest.length) = front := by
        simp
      rw [same] at follows
      exact ⟨rest, _, .capture front leads, follows⟩
  | atEnd =>
      rw [matchThen] at found
      split at found
      next empty =>
        rw [List.isEmpty_iff] at empty
        subst empty
        exact ⟨[], captures, .atEnd, found⟩
      next => cases found
  | before test =>
      rw [matchThen] at found
      split at found
      next => cases found
      next absent => exact ⟨text, captures, .before (by simpa using absent), found⟩

theorem isSome_firstOf {first : Option Captures} {second : Unit → Option Captures} :
    (firstOf first second).isSome = true ↔ first.isSome = true ∨ (second ()).isSome = true := by
  cases first <;> simp [firstOf]

theorem isSome_runGreedy {front : List Char}
    (all : ∀ c ∈ front, test c = true) (follows : (next rest captures).isSome = true) :
    (runGreedy test captures next (front ++ rest)).isSome = true := by
  induction front with
  | nil =>
      cases rest with
      | nil => exact follows
      | cons c rest =>
          rw [List.nil_append, runGreedy]
          split
          · exact isSome_firstOf.mpr (.inr follows)
          · exact follows
  | cons c front induction =>
      obtain ⟨fits, all⟩ := List.forall_mem_cons.mp all
      rw [List.cons_append, runGreedy, if_pos fits]
      exact isSome_firstOf.mpr (.inl (induction all))

theorem isSome_runLazy {front : List Char}
    (all : ∀ c ∈ front, test c = true) (follows : (next rest captures).isSome = true) :
    (runLazy test captures next (front ++ rest)).isSome = true := by
  induction front with
  | nil =>
      cases rest with
      | nil => exact follows
      | cons c rest => exact isSome_firstOf.mpr (.inl follows)
  | cons c front induction =>
      obtain ⟨fits, all⟩ := List.forall_mem_cons.mp all
      rw [List.cons_append, runLazy, isSome_firstOf, if_pos fits]
      exact .inr (induction all)

/-- Where some way leaves what follows a match, there is a match. -/
theorem Leads.isSome_matchThen (leads : Leads pattern text captures rest after)
    (follows : (next rest after).isSome = true) :
    (pattern.matchThen text captures next).isSome = true := by
  induction leads generalizing next with
  | nothing => rwa [matchThen]
  | one fits => rwa [matchThen, if_pos fits]
  | @run greedy _ _ _ front all =>
      cases greedy with
      | true =>
          rw [matchThen]
          exact isSome_runGreedy all follows
      | false =>
          rw [matchThen]
          exact isSome_runLazy all follows
  | seq _ _ first second =>
      rw [matchThen]
      exact first (second follows)
  | left _ induction =>
      rw [matchThen, isSome_firstOf]
      exact .inl (induction follows)
  | right _ induction =>
      rw [matchThen, isSome_firstOf]
      exact .inr (induction follows)
  | done =>
      rw [matchThen]
      dsimp only
      split
      · exact isSome_firstOf.mpr (.inr follows)
      · exact isSome_firstOf.mpr (.inl follows)
  | @again greedy inner text middle _ captures between _ _ shorter _ first second =>
      rw [matchThen]
      let onwards : Continuation := fun rest captures =>
        if rest.length < text.length then (many greedy inner).matchThen rest captures next
        else none
      have repeated : (inner.matchThen text captures onwards).isSome = true := by
        apply first
        rw [show onwards middle between = _ from if_pos shorter]
        exact second follows
      dsimp only
      split
      · exact isSome_firstOf.mpr (.inl repeated)
      · exact isSome_firstOf.mpr (.inr repeated)
  | capture _ _ induction =>
      rw [matchThen]
      apply induction
      simpa using follows
  | atEnd => rwa [matchThen, if_pos List.isEmpty_nil]
  | before absent =>
      rw [matchThen]
      simpa [absent] using follows

theorem exists_leads_of_match? (found : pattern.match? text = some result) :
    ∃ rest, Leads pattern text [] rest result := by
  obtain ⟨rest, after, leads, follows⟩ := exists_leads_of_matchThen found
  cases follows
  exact ⟨rest, leads⟩

theorem isSome_match?_iff :
    (pattern.match? text).isSome = true ↔ ∃ rest after, Leads pattern text [] rest after := by
  constructor
  · intro found
    obtain ⟨result, found⟩ := Option.isSome_iff_exists.mp found
    obtain ⟨rest, leads⟩ := exists_leads_of_match? found
    exact ⟨rest, result, leads⟩
  · intro ⟨rest, after, leads⟩
    exact leads.isSome_matchThen rfl

theorem matchThen_eq_none
    (fails : ∀ rest after, Leads pattern text captures rest after → next rest after = none) :
    pattern.matchThen text captures next = none := by
  refine Option.eq_none_iff_forall_ne_some.mpr fun result found => ?_
  obtain ⟨rest, after, leads, follows⟩ := exists_leads_of_matchThen found
  rw [fails rest after leads] at follows
  cases follows

/-! ## One way -/

@[simp]
theorem matchThen_literal (part : String) :
    (literal part).matchThen (part.toList ++ rest) captures next = next rest captures := by
  rw [literal]
  induction part.toList with
  | nil => simp [matchThen]
  | cons c part induction => simpa [matchThen] using induction

theorem runGreedy_of_stops (stops : ∀ c ∈ text.head?, test c = false) :
    runGreedy test captures next text = next text captures := by
  cases text with
  | nil => rfl
  | cons c text => rw [runGreedy, if_neg (by simp [stops c rfl])]

theorem runLazy_of_eq_some (follows : next text captures = some result) :
    runLazy test captures next text = some result := by
  cases text with
  | nil => exact follows
  | cons c text => rw [runLazy, follows, firstOf]

theorem matchThen_gap (stops : ∀ c ∈ text.head?, isBlank c = false) :
    gap.matchThen (' ' :: text) captures next = next text captures := by
  have blank : isBlank ' ' = true := by decide
  rw [gap, several, matchThen, matchThen, if_pos blank, matchThen, runGreedy_of_stops stops]

/-- As few characters as possible go at least so far as nothing else fits before. -/
theorem runLazy_append {front : List Char} (all : ∀ c ∈ front, test c = true)
    (early : ∀ before after, front = before ++ after → after ≠ [] →
      next (after ++ rest) captures = none) :
    runLazy test captures next (front ++ rest) = runLazy test captures next rest := by
  induction front with
  | nil => rfl
  | cons c front induction =>
      obtain ⟨fits, all⟩ := List.forall_mem_cons.mp all
      have here : next (c :: (front ++ rest)) captures = none :=
        early [] (c :: front) rfl (List.cons_ne_nil _ _)
      rw [List.cons_append, runLazy, here, firstOf, if_pos fits]
      apply induction all
      intro before after split nonempty
      exact early (c :: before) after (by rw [split, List.cons_append]) nonempty

/-! ## Parts of every match -/

/-- Whether every match of a pattern remembers a part under a number. -/
def remembers (index : Nat) : Pattern → Bool
  | .seq first second => first.remembers index || second.remembers index
  | .either first second => first.remembers index && second.remembers index
  | .capture other pattern => index == other || pattern.remembers index
  | _ => false

/-- What is remembered before a pattern or by it is remembered after it. -/
theorem Leads.isSome_part? {index : Nat} (leads : Leads pattern text captures rest after)
    (remembered : pattern.remembers index = true ∨ (part? captures index).isSome = true) :
    (part? after index).isSome = true := by
  induction leads with
  | nothing | one | run | done | atEnd | before => simpa [remembers] using remembered
  | seq _ _ first second =>
      rw [remembers, Bool.or_eq_true, or_assoc] at remembered
      rcases remembered with byFirst | bySecond | already
      · exact second (.inr (first (.inl byFirst)))
      · exact second (.inl bySecond)
      · exact second (.inr (first (.inr already)))
  | left _ induction =>
      rw [remembers, Bool.and_eq_true] at remembered
      exact induction (remembered.imp_left (·.1))
  | right _ induction =>
      rw [remembers, Bool.and_eq_true] at remembered
      exact induction (remembered.imp_left (·.2))
  | again _ _ _ first second =>
      exact second (.inr (first (.inr (remembered.resolve_left (by simp [remembers])))))
  | @capture other _ _ _ _ front _ induction =>
      rw [part?, List.lookup_cons]
      split
      next => rfl
      next different =>
        rw [remembers, different, Bool.false_or] at remembered
        exact induction remembered

/-- A match of a pattern that remembers a part has it. -/
theorem isSome_part?_of_match? {index : Nat} (remembers : pattern.remembers index = true)
    (found : pattern.match? text = some result) : (part? result index).isSome = true := by
  obtain ⟨rest, leads⟩ := exists_leads_of_match? found
  exact leads.isSome_part? (.inl remembers)

end CodeAtlas.Text.Pattern
