import CodeAtlas.Text.Split
import Mathlib.Data.List.Basic
import Mathlib.Data.List.TakeWhile

/-!
# Cutting texts

The pieces of a text between the places of a character, the words between its spaces, the place
where a word stands first, and what is left of a text without the blanks at its ends.
-/

namespace CodeAtlas.Text

/-! ## Pieces -/

theorem splitOn_eq (separator : Char) (characters : List Char) :
    splitOn separator characters = characters.splitOn separator := by
  induction characters with
  | nil => rfl
  | cons c rest induction =>
      obtain ⟨piece, pieces, split⟩ :=
        List.exists_cons_of_ne_nil (List.splitOn_ne_nil separator rest)
      rw [splitOn_cons, induction, List.splitOn_cons_eq_if_modifyHead, split]
      by_cases same : c = separator <;> simp [pushPiece, same]

/-- The characters of a piece are those of the whole, and none is the separator. -/
theorem mem_of_mem_splitOn {separator c : Char} {characters piece : List Char}
    (member : piece ∈ characters.splitOn separator) (within : c ∈ piece) :
    c ∈ characters ∧ c ≠ separator := by
  induction characters generalizing piece with
  | nil => simp_all
  | cons first rest induction =>
      obtain ⟨front, pieces, split⟩ :=
        List.exists_cons_of_ne_nil (List.splitOn_ne_nil separator rest)
      have later {other : List Char} (otherMember : other ∈ front :: pieces)
          (otherWithin : c ∈ other) : c ∈ first :: rest ∧ c ≠ separator := by
        obtain ⟨old, different⟩ := induction (split ▸ otherMember) otherWithin
        exact ⟨List.mem_cons_of_mem _ old, different⟩
      rw [List.splitOn_cons_eq_if_modifyHead, split] at member
      by_cases same : first = separator
      · simp only [same, beq_self_eq_true, if_true, List.mem_cons] at member
        rcases member with rfl | member
        · simp at within
        · exact later (List.mem_cons.mpr member) within
      · simp only [beq_iff_eq, same, if_false, List.modifyHead_cons, List.mem_cons] at member
        rcases member with rfl | member
        · rcases List.mem_cons.mp within with rfl | within
          · exact ⟨List.mem_cons_self, same⟩
          · exact later List.mem_cons_self within
        · exact later (List.mem_cons_of_mem _ member) within

/-- What stands before the first of some marks is the same in equal texts. -/
theorem front_eq_of_append_cons_eq {mark : Char} {first second rest others : List Char}
    (split : first ++ mark :: rest = second ++ mark :: others) (firstPlain : mark ∉ first)
    (secondPlain : mark ∉ second) : first = second := by
  rcases List.append_eq_append_iff.mp split with ⟨more, rfl, marked⟩ | ⟨more, rfl, marked⟩
  · cases more with
    | nil => exact (List.append_nil first).symm
    | cons c more =>
        obtain ⟨rfl, _⟩ := List.cons.inj marked
        exact absurd (List.mem_append_right _ List.mem_cons_self) secondPlain
  · cases more with
    | nil => exact List.append_nil second
    | cons c more =>
        obtain ⟨rfl, _⟩ := List.cons.inj marked
        exact absurd (List.mem_append_right _ List.mem_cons_self) firstPlain

/-- A text without the separator is not split. -/
theorem splitLast?_eq_none {separator : Char} {characters : List Char}
    (absent : separator ∉ characters) : splitLast? separator characters = none := by
  have rest : characters.reverse.dropWhile (· != separator) = [] := by
    rw [List.dropWhile_eq_nil_iff]
    intro c member
    have different : c ≠ separator := by
      intro same
      subst same
      exact absent (List.mem_reverse.mp member)
    simpa using different
  rw [splitLast?, splitOnce?, rest]
  rfl

theorem splitLast?_append {separator : Char} {front back : List Char}
    (absent : separator ∉ back) :
    splitLast? separator (front ++ separator :: back) = some (front, back) := by
  have kept : ∀ c ∈ back.reverse, (c != separator) = true := by
    intro c member
    rw [bne_iff_ne]
    rintro rfl
    exact absent (List.mem_reverse.mp member)
  rw [splitLast?, splitOnce?, List.reverse_append, List.reverse_cons, List.append_assoc,
    List.dropWhile_append_of_pos kept, List.takeWhile_append_of_pos kept, List.singleton_append,
    List.dropWhile_cons_of_neg (by simp), List.takeWhile_cons_of_neg (by simp)]
  simp

variable {separator c : Char} {word front back text : List Char}

/-- Texts that are put together share the piece at which they meet. -/
theorem exists_splitOn_append (separator : Char) (text more : List Char) :
    ∃ front last first back, splitOn separator text = front ++ [last] ∧
      splitOn separator more = first :: back ∧
      splitOn separator (text ++ more) = front ++ (last ++ first) :: back := by
  induction text with
  | nil =>
      obtain ⟨first, back, split⟩ := List.exists_cons_of_ne_nil (splitOn_ne_nil separator more)
      exact ⟨[], [], first, back, rfl, split, split⟩
  | cons c text induction =>
      obtain ⟨front, last, first, back, split, splitMore, whole⟩ := induction
      rw [List.cons_append, splitOn_cons, splitOn_cons, split, whole]
      by_cases same : c = separator
      · exact ⟨[] :: front, last, first, back, by simp [pushPiece, same], splitMore,
          by simp [pushPiece, same]⟩
      · cases front with
        | nil => exact ⟨[], c :: last, first, back, by simp [pushPiece, same], splitMore,
            by simp [pushPiece, same]⟩
        | cons piece front => exact ⟨(c :: piece) :: front, last, first, back,
            by simp [pushPiece, same], splitMore, by simp [pushPiece, same]⟩

theorem splitOn_append_cons (separator : Char) (text more : List Char) :
    splitOn separator (text ++ separator :: more) =
      splitOn separator text ++ splitOn separator more := by
  simp only [splitOn_eq, List.splitOn_append_cons_self]

theorem splitOn_of_notMem (absent : separator ∉ text) : splitOn separator text = [text] := by
  rw [splitOn_eq]
  exact List.splitOn_eq_singleton absent

theorem splitOn_cons_self (separator : Char) (text : List Char) :
    splitOn separator (separator :: text) = [] :: splitOn separator text :=
  splitOn_append_cons separator [] text

/-- A character that does not separate belongs to the first piece. -/
theorem exists_splitOn_cons_of_ne (different : c ≠ separator) (text : List Char) :
    ∃ piece pieces, splitOn separator text = piece :: pieces ∧
      splitOn separator (c :: text) = (c :: piece) :: pieces := by
  obtain ⟨piece, pieces, split⟩ := List.exists_cons_of_ne_nil (splitOn_ne_nil separator text)
  exact ⟨piece, pieces, split, by simp [splitOn_cons, split, pushPiece, different]⟩

/-! ## Joining -/

/-- What holds of texts and is kept by joining two of them holds of all that are joined. -/
@[elab_as_elim]
theorem joinWith_induct {motive : List Char → Prop} {glue : List Char} {texts : List (List Char)}
    (some : texts ≠ []) (all : ∀ text ∈ texts, motive text)
    (joins : ∀ front back, motive front → motive back → motive (front ++ (glue ++ back))) :
    motive (joinWith glue texts) := by
  induction texts with
  | nil => exact absurd rfl some
  | cons text texts induction =>
      obtain ⟨first, others⟩ := List.forall_mem_cons.mp all
      cases texts with
      | nil => exact first
      | cons next texts =>
          rw [joinWith_cons_cons, List.append_assoc]
          exact joins _ _ first (induction (List.cons_ne_nil _ _) others)

theorem joinWith_cons (glue text : List Char) (texts : List (List Char)) :
    joinWith glue (text :: texts) = text ++ texts.flatMap (glue ++ ·) := by
  induction texts generalizing text with
  | nil => simp [joinWith]
  | cons next texts induction =>
      rw [joinWith_cons_cons, induction, List.flatMap_cons, List.append_assoc, List.append_assoc]

theorem joinWith_append_cons (glue text : List Char) (early late : List (List Char)) :
    joinWith glue (early ++ text :: late) =
      early.flatMap (· ++ glue) ++ (text ++ late.flatMap (glue ++ ·)) := by
  induction early with
  | nil => exact joinWith_cons glue text late
  | cons first early induction =>
      rw [List.flatMap_cons, List.append_assoc, ← induction]
      cases early <;> exact joinWith_cons_cons ..

/-! ## Words between spaces -/

/-- A word does not stand between the spaces of a text. -/
def Lacks (word text : List Char) : Prop := word ∉ splitOn ' ' text

/-- A text without spaces is one word. -/
theorem lacks_of_ne (solid : ' ' ∉ text) (different : text ≠ word) : Lacks word text := by
  rw [Lacks, splitOn_of_notMem solid, List.mem_singleton]
  exact different.symm

theorem lacks_nil (some : word ≠ []) : Lacks word [] := lacks_of_ne List.not_mem_nil some.symm

theorem lacks_space_iff :
    Lacks word (front ++ ' ' :: back) ↔ Lacks word front ∧ Lacks word back := by
  rw [Lacks, splitOn_append_cons, List.mem_append, not_or]
  rfl

/-- No word reaches over a sign that is not of the word. -/
theorem Lacks.sign (inFront : Lacks word front) (inBack : Lacks word back) (absent : c ∉ word)
    (solid : c ≠ ' ') : Lacks word (front ++ c :: back) := by
  obtain ⟨early, last, first, late, split, splitBack, whole⟩ :=
    exists_splitOn_append ' ' front (c :: back)
  obtain ⟨piece, pieces, splitRest, splitMore⟩ := exists_splitOn_cons_of_ne solid back
  obtain ⟨rfl, rfl⟩ := List.cons.inj (splitMore.symm.trans splitBack)
  rw [Lacks, split, List.mem_append] at inFront
  rw [Lacks, splitRest, List.mem_cons] at inBack
  rw [Lacks, whole, List.mem_append, List.mem_cons]
  rintro (member | rfl | member)
  · exact inFront (.inl member)
  · exact absent (by simp)
  · exact inBack (.inr member)

theorem Lacks.spaces (lacks : Lacks word text) (some : word ≠ []) (count : ℕ) :
    Lacks word (List.replicate count ' ' ++ text) := by
  induction count with
  | zero => exact lacks
  | succ count induction => exact lacks_space_iff.mpr ⟨lacks_nil some, induction⟩

/-- A word with a space on either side. -/
def spaced (word : List Char) : List Char := ' ' :: (word ++ [' '])

/-- A text that begins with a word between spaces has it as its second piece. -/
theorem mem_tail_of_afterPrefix? (plain : ' ' ∉ word)
    (found : afterPrefix? (spaced word) text = some back) : word ∈ (splitOn ' ' text).tail := by
  rw [afterPrefix?_eq_some_iff.mp found, spaced, List.cons_append, splitOn_cons_self,
    List.append_assoc, List.singleton_append, splitOn_append_cons, splitOn_of_notMem plain]
  exact List.mem_cons_self

/-- What follows a place where a text is not cut does not matter before the next space. -/
theorem mem_splitOn_of_append_eq {after : List Char} (plain : ' ' ∉ word)
    (same : front ++ ' ' :: back = word ++ ' ' :: after) : word ∈ splitOn ' ' front := by
  by_cases within : ' ' ∈ front
  · obtain ⟨first, rest, rfl, solid⟩ := List.eq_append_cons_of_mem within
    rw [List.append_assoc, List.cons_append] at same
    obtain rfl := front_eq_of_append_cons_eq same solid plain
    rw [splitOn_append_cons, splitOn_of_notMem solid]
    exact List.mem_cons_self
  · obtain rfl := front_eq_of_append_cons_eq same within plain
    rw [splitOn_of_notMem within]
    exact List.mem_cons_self

theorem mem_tail_splitOn_cons (member : word ∈ (splitOn ' ' text).tail) :
    word ∈ (splitOn ' ' (c :: text)).tail := by
  by_cases space : c = ' '
  · rw [space, splitOn_cons_self]
    exact List.mem_of_mem_tail member
  · obtain ⟨piece, pieces, split, splitMore⟩ := exists_splitOn_cons_of_ne space text
    rw [split] at member
    rwa [splitMore]

/-- A text is cut at a word where the word stands first. -/
theorem splitAt?_spaced (plain : ' ' ∉ word) (lacks : Lacks word front) (back : List Char) :
    splitAt? (spaced word) (front ++ (spaced word ++ back)) = some (front, back) := by
  -- What precedes the first space of the rest may well be the end of another word.
  have weaker : word ∉ (splitOn ' ' front).tail := fun member => lacks (List.mem_of_mem_tail member)
  clear lacks
  induction front with
  | nil =>
      have here : afterPrefix? (spaced word) (' ' :: (word ++ [' '] ++ back)) = some back :=
        afterPrefix?_eq_some_iff.mpr rfl
      rw [List.nil_append, spaced, List.cons_append, splitAt?, ← spaced, here]
  | cons c front induction =>
      have notHere : afterPrefix? (spaced word) (c :: (front ++ (spaced word ++ back))) = none := by
        refine Option.eq_none_iff_forall_ne_some.mpr fun after found => ?_
        simp only [afterPrefix?_eq_some_iff, spaced, List.cons_append, List.append_assoc,
          List.nil_append] at found
        obtain ⟨rfl, same⟩ := List.cons.inj found
        rw [splitOn_cons_self, List.tail_cons] at weaker
        exact weaker (mem_splitOn_of_append_eq plain same)
      rw [List.cons_append, splitAt?, notHere]
      simp only [induction fun member => weaker (mem_tail_splitOn_cons member), Option.map_some]

/-- A text that lacks a word is not cut at it. -/
theorem splitAt?_of_lacks (plain : ' ' ∉ word) (lacks : Lacks word text) :
    splitAt? (spaced word) text = none := by
  have weaker : word ∉ (splitOn ' ' text).tail := fun member => lacks (List.mem_of_mem_tail member)
  clear lacks
  induction text with
  | nil => rfl
  | cons c text induction =>
      have notHere : afterPrefix? (spaced word) (c :: text) = none :=
        Option.eq_none_iff_forall_ne_some.mpr fun after found =>
          weaker (mem_tail_of_afterPrefix? plain found)
      rw [splitAt?, notHere]
      simp only [induction fun member => weaker (mem_tail_splitOn_cons member), Option.map_none]

/-! ## Blanks at the ends -/

theorem mem_trimStart {c : Char} (member : c ∈ text) (solid : isBlank c = false) :
    c ∈ trimStart text := by
  rw [← List.takeWhile_append_dropWhile (p := isBlank) (l := text), List.mem_append] at member
  rcases member with skipped | kept
  · rw [List.mem_takeWhile_imp skipped] at solid
    cases solid
  · exact kept

theorem trimStart_append {c : Char} (member : c ∈ text) (solid : isBlank c = false)
    (ending : List Char) : trimStart (text ++ ending) = trimStart text ++ ending := by
  have some : (text.dropWhile isBlank).isEmpty = false := by
    rw [← Bool.not_eq_true, List.isEmpty_iff]
    exact List.ne_nil_of_mem (mem_trimStart member solid)
  rw [trimStart, List.dropWhile_append, some, if_neg Bool.false_ne_true, trimStart]

theorem exists_trimEnd (text : List Char) :
    ∃ spaces, (∀ c ∈ spaces, isBlank c = true) ∧ text = trimEnd text ++ spaces := by
  refine ⟨(text.reverse.takeWhile isBlank).reverse, ?_, ?_⟩
  · intro c member
    exact List.mem_takeWhile_imp (List.mem_reverse.mp member)
  · rw [trimEnd, dropEndWhile, ← List.reverse_append, List.takeWhile_append_dropWhile,
      List.reverse_reverse]

theorem trimEnd_append_cons {c : Char} (solid : isBlank c = false) (front back : List Char) :
    trimEnd (front ++ c :: back) = front ++ c :: trimEnd back := by
  rw [trimEnd, dropEndWhile, List.reverse_append, List.reverse_cons, List.append_assoc,
    List.dropWhile_append]
  cases dropped : back.reverse.dropWhile isBlank with
  | nil => simp [trimEnd, dropEndWhile, dropped, solid]
  | cons first others => simp [trimEnd, dropEndWhile, dropped]

theorem trim_cons_space (text : List Char) : trim (' ' :: text) = trim text := by
  have blank : isBlank ' ' = true := by decide
  rw [trim, trimStart, List.dropWhile_cons_of_pos blank]
  rfl

theorem trim_append_space (text : List Char) : trim (text ++ [' ']) = trim text := by
  have blank : isBlank ' ' = true := by decide
  rw [trim, trim, trimStart, trimStart, List.dropWhile_append]
  cases dropped : text.dropWhile isBlank with
  | nil => simp [trimEnd, dropEndWhile, blank]
  | cons first others => simp [trimEnd, dropEndWhile, blank]

/-- Nothing is removed before a character that is no blank. -/
theorem trim_append_cons {c first : Char} {front : List Char} (solidFirst : isBlank first = false)
    (solid : isBlank c = false) (back : List Char) :
    trim (first :: front ++ c :: back) = first :: front ++ c :: trimEnd back := by
  rw [trim, trimStart, List.cons_append, List.dropWhile_cons_of_neg (by simp [solidFirst]),
    ← List.cons_append, trimEnd_append_cons solid]

theorem trim_of_solid {text : List Char} (solid : ∀ c ∈ text, isBlank c = false) :
    trim text = text := by
  have keeps : ∀ text : List Char, (∀ c ∈ text, isBlank c = false) →
      text.dropWhile isBlank = text := by
    intro text solid
    cases text with
    | nil => rfl
    | cons c text => exact List.dropWhile_cons_of_neg (by simp [solid c])
  rw [trim, trimStart, keeps text solid, trimEnd, dropEndWhile, keeps text.reverse,
    List.reverse_reverse]
  exact fun c member => solid c (List.mem_reverse.mp member)

end CodeAtlas.Text
