import CodeAtlas.Proofs.Text.Pattern

/-!
# Matches in a longer text

What follows a text changes no match in it as long as nothing that is matched last reaches into what
follows.
-/

namespace CodeAtlas.Text.Pattern

/-- A pattern that asks nowhere what comes next or whether the text ends. -/
def isOpen : Pattern → Bool
  | .nothing | .one _ | .run _ _ => true
  | .seq first second | .either first second => first.isOpen && second.isOpen
  | .many _ inner | .capture _ inner => inner.isOpen
  | .atEnd | .before _ => false

/-- What is tried next takes no notice of what follows a text, and fails within it. -/
structure Ignores (ending : List Char) (longer shorter : Continuation) : Prop where
  same : ∀ rest captures, longer (rest ++ ending) captures = shorter rest captures
  within : ∀ front rest captures, ending = front ++ rest → front ≠ [] →
    longer rest captures = none

variable {pattern : Pattern} {test : Char → Bool} {text ending : List Char} {captures : Captures}
  {longer shorter : Continuation}

namespace Ignores

theorem matchThen_within {front rest : List Char} (ignores : Ignores ending longer shorter)
    (split : ending = front ++ rest) (nonempty : front ≠ []) :
    pattern.matchThen rest captures longer = none := by
  refine matchThen_eq_none fun later after leads => ?_
  obtain ⟨passed, rfl⟩ := leads.exists_append
  refine ignores.within (front ++ passed) later after ?_ (by simp [nonempty])
  rw [split, List.append_assoc]

theorem runGreedy_eq (ignores : Ignores ending longer shorter) :
    runGreedy test captures longer (text ++ ending) = runGreedy test captures shorter text := by
  induction text with
  | nil =>
      have here : longer ending captures = shorter [] captures := ignores.same [] captures
      cases ending with
      | nil => exact here
      | cons c rest =>
          have later : (Pattern.run true test).matchThen rest captures longer = none :=
            ignores.matchThen_within (show c :: rest = [c] ++ rest from rfl) (List.cons_ne_nil _ _)
          rw [matchThen] at later
          rw [List.nil_append, runGreedy, runGreedy, later, here, firstOf, ite_self]
  | cons c text induction =>
      rw [List.cons_append, runGreedy, runGreedy, induction, ← List.cons_append, ignores.same]

theorem runLazy_eq (ignores : Ignores ending longer shorter) :
    runLazy test captures longer (text ++ ending) = runLazy test captures shorter text := by
  induction text with
  | nil =>
      have here : longer ending captures = shorter [] captures := ignores.same [] captures
      cases ending with
      | nil => exact here
      | cons c rest =>
          have later : (Pattern.run false test).matchThen rest captures longer = none :=
            ignores.matchThen_within (show c :: rest = [c] ++ rest from rfl) (List.cons_ne_nil _ _)
          rw [matchThen] at later
          rw [List.nil_append, runLazy, runLazy, later, here, ite_self]
          cases shorter [] captures <;> rfl
  | cons c text induction =>
      rw [List.cons_append, runLazy, runLazy, induction, ← List.cons_append, ignores.same]

theorem matchThen_many_eq {greedy : Bool} {inner : Pattern}
    (ignores : Ignores ending longer shorter)
    (takesNoNotice : ∀ {longer shorter : Continuation}, Ignores ending longer shorter →
      ∀ text captures, inner.matchThen (text ++ ending) captures longer =
        inner.matchThen text captures shorter) :
    (Pattern.many greedy inner).matchThen (text ++ ending) captures longer =
      (Pattern.many greedy inner).matchThen text captures shorter := by
  -- Every repetition shortens the text.
  induction bound : text.length using Nat.strongRecOn generalizing text captures with
  | _ bound induction =>
      let onwards (text : List Char) (next : Continuation) : Continuation :=
        fun rest captures =>
          if rest.length < text.length then
            (Pattern.many greedy inner).matchThen rest captures next
          else none
      have again : Ignores ending (onwards (text ++ ending) longer) (onwards text shorter) := by
        constructor
        · intro rest captures
          simp only [onwards, List.length_append, Nat.add_lt_add_iff_right]
          split
          next shorter => exact induction rest.length (bound ▸ shorter) rfl
          next => rfl
        · intro front rest captures split nonempty
          simp only [onwards, ignores.matchThen_within split nonempty, ite_self]
      have repeated := takesNoNotice again text captures
      simp only [onwards] at repeated
      rw [matchThen, matchThen]
      dsimp only
      rw [repeated, ignores.same]

theorem matchThen_eq (ignores : Ignores ending longer shorter) (isOpen : pattern.isOpen = true)
    (text : List Char) (captures : Captures) :
    pattern.matchThen (text ++ ending) captures longer =
      pattern.matchThen text captures shorter := by
  induction pattern generalizing text captures longer shorter with
  | nothing =>
      rw [matchThen, matchThen]
      exact ignores.same text captures
  | one test =>
      cases text with
      | nil =>
          cases ending with
          | nil => rw [List.nil_append, matchThen, matchThen]
          | cons c rest =>
              rw [List.nil_append, matchThen, matchThen,
                ignores.within [c] rest captures rfl (List.cons_ne_nil _ _), ite_self]
      | cons c text =>
          rw [List.cons_append, matchThen, matchThen, ignores.same]
  | run greedy test =>
      cases greedy with
      | true =>
          rw [matchThen, matchThen]
          exact ignores.runGreedy_eq
      | false =>
          rw [matchThen, matchThen]
          exact ignores.runLazy_eq
  | seq first second firstInduction secondInduction =>
      obtain ⟨firstOpen, secondOpen⟩ := Bool.and_eq_true_iff.mp isOpen
      rw [matchThen, matchThen]
      refine firstInduction ⟨secondInduction ignores secondOpen, ?_⟩ firstOpen text captures
      exact fun _ _ _ split nonempty => ignores.matchThen_within split nonempty
  | either first second firstInduction secondInduction =>
      obtain ⟨firstOpen, secondOpen⟩ := Bool.and_eq_true_iff.mp isOpen
      rw [matchThen, matchThen, firstInduction ignores firstOpen,
        secondInduction ignores secondOpen]
  | many greedy inner innerInduction =>
      exact ignores.matchThen_many_eq fun again => innerInduction again isOpen
  | capture index inner induction =>
      rw [matchThen, matchThen]
      refine induction ?_ isOpen text captures
      constructor
      · intro rest captures
        rw [ignores.same, List.length_append, List.length_append, Nat.add_sub_add_right,
          List.take_append_of_le_length (Nat.sub_le _ _)]
      · intro front rest captures split nonempty
        exact ignores.within front rest _ split nonempty
  | atEnd | before => cases isOpen

theorem before {first second : Pattern}
    (ignores : Ignores ending (second.matchThen · · longer) (second.matchThen · · shorter))
    (isOpen : first.isOpen = true) :
    Ignores ending ((Pattern.seq first second).matchThen · · longer)
      ((Pattern.seq first second).matchThen · · shorter) where
  same text captures := by
    rw [matchThen, matchThen]
    exact ignores.matchThen_eq isOpen text captures
  within front rest captures split nonempty := by
    rw [matchThen]
    exact ignores.matchThen_within split nonempty

end Ignores

/-! ## Patterns that stop before an ending -/

/-- A pattern does not reach into an ending, whatever is tried after it. -/
def StopsBefore (ending : List Char) (pattern : Pattern) : Prop :=
  ∀ longer shorter : Continuation,
    (∀ rest captures, longer (rest ++ ending) captures = shorter rest captures) →
      Ignores ending (pattern.matchThen · · longer) (pattern.matchThen · · shorter)

theorem stopsBefore_one (rejects : ∀ c ∈ ending, test c = false) :
    StopsBefore ending (.one test) := by
  intro longer shorter same
  have within {front rest : List Char} (captures : Captures) (split : ending = front ++ rest) :
      (Pattern.one test).matchThen rest captures longer = none := by
    cases rest with
    | nil => rw [matchThen]
    | cons c rest =>
        have rejected : test c = false :=
          rejects c (split ▸ List.mem_append_right _ List.mem_cons_self)
        rw [matchThen, if_neg (by simp [rejected])]
  refine ⟨?_, fun front rest captures split _ => within captures split⟩
  intro text captures
  cases text with
  | nil => rw [List.nil_append, within captures (List.nil_append ending).symm, matchThen]
  | cons c text => rw [List.cons_append, matchThen, matchThen, same]

namespace StopsBefore

/-- What a pattern that stops leaves may be matched in any way that does not depend on the
ending. -/
theorem ignores {second : Pattern} (stops : StopsBefore ending pattern)
    (same : ∀ rest captures, second.matchThen (rest ++ ending) captures longer =
      second.matchThen rest captures shorter) :
    Ignores ending ((Pattern.seq pattern second).matchThen · · longer)
      ((Pattern.seq pattern second).matchThen · · shorter) := by
  have stopped := stops (second.matchThen · · longer) (second.matchThen · · shorter) same
  constructor
  · intro text captures
    rw [matchThen, matchThen]
    exact stopped.same text captures
  · intro front rest captures split nonempty
    rw [matchThen]
    exact stopped.within front rest captures split nonempty

theorem last (stops : StopsBefore ending pattern) : StopsBefore ending (.seq pattern .nothing) := by
  intro longer shorter same
  refine stops.ignores fun rest captures => ?_
  rw [matchThen, matchThen, same]

end StopsBefore

theorem runGreedy_append_eq (rejects : ∀ c ∈ ending, test c = false)
    (same : ∀ rest captures, longer (rest ++ ending) captures = shorter rest captures) :
    runGreedy test captures longer (text ++ ending) = runGreedy test captures shorter text := by
  induction text with
  | nil =>
      have stops : ∀ c ∈ ending.head?, test c = false :=
        fun c first => rejects c (List.mem_of_head? first)
      rw [List.nil_append, runGreedy_of_stops stops, runGreedy, ← same, List.nil_append]
  | cons c text induction =>
      rw [List.cons_append, runGreedy, runGreedy, induction, ← List.cons_append, same]

theorem stopsBefore_several (rejects : ∀ c ∈ ending, test c = false) :
    StopsBefore ending (several test) := by
  intro longer shorter same
  refine (stopsBefore_one rejects).ignores fun rest captures => ?_
  rw [matchThen, matchThen]
  exact runGreedy_append_eq rejects same

namespace StopsBefore

theorem capture (stops : StopsBefore ending pattern) (index : Nat) :
    StopsBefore ending (.capture index pattern) := by
  intro longer shorter same
  constructor
  · intro text captures
    rw [matchThen, matchThen]
    refine (stops _ _ ?_).same text captures
    intro rest captures
    rw [same, List.length_append, List.length_append, Nat.add_sub_add_right,
      List.take_append_of_le_length (Nat.sub_le _ _)]
  · intro front rest captures split nonempty
    rw [matchThen]
    exact (stops _ _ fun _ _ => rfl).within front rest captures split nonempty

/-- What comes before a pattern that stops may read on as far as it likes. -/
theorem after {first : Pattern} (stops : StopsBefore ending pattern)
    (isOpen : first.isOpen = true) : StopsBefore ending (.seq first pattern) :=
  fun longer shorter same => (stops longer shorter same).before isOpen

theorem match?_append (stops : StopsBefore ending pattern) (text : List Char) :
    pattern.match? (text ++ ending) = pattern.match? text :=
  (stops _ _ fun _ _ => rfl).same text []

end StopsBefore

end CodeAtlas.Text.Pattern
