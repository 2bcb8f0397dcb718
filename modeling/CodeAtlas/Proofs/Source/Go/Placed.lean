import CodeAtlas.Proofs.Source.Go.Comment
import CodeAtlas.Proofs.Source.Numbered
import CodeAtlas.Proofs.Text.Pattern

/-!
# Places in Go files

A line of Go gives at most one import or declaration, of a kind that Go has, and numbers it.  While
the block of a type is open nothing else is declared, so the position that was noted for the type
is that of the last declaration.
-/

namespace CodeAtlas.Source.Go

open CodeAtlas.Text CodeAtlas.Text.Pattern

/-- Whether a block holds the fields of a struct or the methods of an interface. -/
def Block.isOfType : Block → Bool
  | .imports | .constants => false
  | .fields | .methods => true

namespace Reading

variable {reading : Reading} {raw : List Char} {block : Block} {depth after : ℕ}
  {name : List Char} {kind : InterfaceKind} {signature : String} {detail : DeclarationDetail}

/-! ## What is declared on a line -/

theorem declared_of_foundIn?
    (found : foundIn? block depth after raw = some (.declared name kind signature detail)) :
    block = .constants ∧ kind = .const := by
  cases block with
  | imports => simp [foundIn?] at found
  | constants =>
      simp only [foundIn?] at found
      split at found
      · cases found
      · obtain ⟨captures, _, same⟩ := Option.map_eq_some_iff.mp found
        cases same
        exact ⟨rfl, rfl⟩
  | fields => simp [foundIn?] at found
  | methods => simp [foundIn?] at found

/-- What is read on a line outside of all blocks: what is declared has a kind that Go has, and the
block of a type opens only on the line that declares it. -/
structure IsOutside (read : Option Found × Option Block) : Prop where
  admitted : ∀ {name kind signature detail},
    read.1 = some (.declared name kind signature detail) → Language.go.admits kind = true
  declared : ∀ {block}, read.2 = some block → block.isOfType = true →
    ∃ name kind signature detail, read.1 = some (.declared name kind signature detail)

theorem isOutside_of_declared (admitted : Language.go.admits kind = true)
    (opened : Option Block) : IsOutside (some (.declared name kind signature detail), opened) where
  admitted same := by
    cases same
    exact admitted
  declared _ _ := ⟨name, kind, signature, detail, rfl⟩

theorem isOutside_of_not_declared {found : Option Found} {opened : Option Block}
    (other : ∀ name kind signature detail, found ≠ some (.declared name kind signature detail))
    (unopened : opened.any (·.isOfType) = false) : IsOutside (found, opened) where
  admitted same := absurd same (other _ _ _ _)
  declared same isOfType := by
    dsimp only at same
    rw [same, Option.any_some, isOfType] at unopened
    cases unopened

theorem isOutside_foundFunction (captures : Captures) :
    IsOutside (some (foundFunction raw captures), none) := by
  rw [foundFunction]
  split
  · exact isOutside_of_not_declared (by simp) rfl
  · exact isOutside_of_declared rfl none

theorem isOutside_foundType (captures : Captures) : IsOutside (foundType after raw captures) := by
  rw [foundType]
  split
  · split
    · exact isOutside_of_declared rfl _
    · exact isOutside_of_declared rfl _
  · exact isOutside_of_declared rfl none

theorem isOutside_foundOutside : IsOutside (foundOutside after raw) := by
  rw [foundOutside]
  split
  · exact isOutside_of_not_declared (by simp) rfl
  · split
    · exact isOutside_of_not_declared (by simp) rfl
    · split
      · exact isOutside_of_not_declared (by simp) rfl
      · split
        · exact isOutside_of_declared rfl none
        · split
          · exact isOutside_foundFunction _
          · split
            · exact isOutside_foundType _
            · exact isOutside_of_not_declared (by simp) rfl

theorem reads_none : reads none depth after raw =
    if depth = 0 then foundOutside after raw else (none, none) := rfl

theorem reads_some : reads (some block) depth after raw =
    (foundIn? block depth after raw, if closes block after raw then none else some block) := rfl

theorem admits_of_readsOf
    (found : (reading.readsOf raw).1 = some (.declared name kind signature detail)) :
    Language.go.admits kind = true := by
  rw [readsOf] at found
  cases blocked : reading.block with
  | some block =>
      rw [blocked] at found
      rw [(declared_of_foundIn? found).2]
      rfl
  | none =>
      rw [blocked, reads_none] at found
      split at found
      · exact isOutside_foundOutside.admitted found
      · cases found

/-! ## Places -/

/-- What has been read has its numbers, and kinds that Go has. -/
def IsPlaced (reading : Reading) : Prop :=
  Placed .go reading.count (reading.imports.map (·.line)).reverse
    (reading.declarations.map (·.place)).reverse

theorem isPlaced_take (placed : reading.IsPlaced) : (reading.take raw).IsPlaced := by
  rw [take_eq]
  match isRead : (reading.readsOf raw).1 with
  | none => exact placed.passing
  | some (.method _ _) => exact placed.passing
  | some (.imported _) =>
      have read := placed.importing
      rw [← List.reverse_cons] at read
      exact read
  | some (.declared _ _ _ _) =>
      have read := placed.declaring (admits_of_readsOf isRead)
      rw [← List.reverse_cons] at read
      exact read
  | some (.member name) =>
      have read := placed.passing
      rw [← places_withMember (String.ofList name)] at read
      rw [put, addMember_eq]
      exact read

theorem isPlaced_foldl (placed : reading.IsPlaced) (lines : List (List Char)) :
    (lines.foldl take reading).IsPlaced := by
  induction lines generalizing reading with
  | nil => exact placed
  | cons line lines induction => exact induction (isPlaced_take placed)

@[simp]
theorem count_take : (reading.take raw).count = reading.count + 1 := rfl

theorem count_foldl (lines : List (List Char)) :
    (lines.foldl take reading).count = reading.count + lines.length := by
  induction lines generalizing reading with
  | nil => rfl
  | cons line lines induction =>
      rw [List.foldl_cons, induction, count_take, List.length_cons]
      omega

/-! ## The position of the type whose block is open -/

/-- The position that is noted after a line: that of the declaration on the line if the line opens
the block of a type, and the same as before as long as the block is open. -/
def noted (reading : Reading) (opened : Option ℕ) (raw : List Char) : Option ℕ :=
  if (reading.take raw).block.any (·.isOfType) then some (opened.getD reading.declarations.length)
  else none

/-- A position is noted while the block of a type is open, and it is that of the last
declaration. -/
structure IsNoted (reading : Reading) (opened : Option ℕ) : Prop where
  isSome : opened.isSome = reading.block.any (·.isOfType)
  last : ∀ position ∈ opened, position + 1 = reading.declarations.length

theorem block_take : (reading.take raw).block = (reading.readsOf raw).2 := by
  rw [take_eq]
  rfl

theorem declarations_take :
    (reading.take raw).declarations =
      ((reading.advancing raw).put (reading.readsOf raw).1).declarations := by
  rw [take_eq]
  rfl

theorem length_put_of_not_declared {found : Option Found}
    (other : ∀ name kind signature detail, found ≠ some (.declared name kind signature detail)) :
    (reading.put found).declarations.length = reading.declarations.length := by
  match found with
  | none | some (.imported _) | some (.method _ _) => rfl
  | some (.declared name kind signature detail) =>
      exact absurd rfl (other name kind signature detail)
  | some (.member name) =>
      rw [put, addMember_eq]
      cases reading.declarations <;> rfl

/-- Outside of blocks the block of a type opens with a declaration. -/
theorem length_of_opens (unblocked : reading.block = none)
    (opens : (reading.take raw).block.any (·.isOfType) = true) :
    (reading.take raw).declarations.length = reading.declarations.length + 1 := by
  obtain ⟨block, isBlock, isOfType⟩ := (Option.any_eq_true _ _).mp opens
  rw [block_take, readsOf, unblocked, reads_none] at isBlock
  split at isBlock
  next outside =>
    obtain ⟨_, _, _, _, found⟩ := isOutside_foundOutside.declared isBlock isOfType
    rw [declarations_take, readsOf, unblocked, reads_none, if_pos outside, found]
    rfl
  next => cases isBlock

/-- In the block of a type nothing is declared. -/
theorem length_of_inside (blocked : reading.block = some block)
    (isOfType : block.isOfType = true) :
    (reading.take raw).declarations.length = reading.declarations.length := by
  rw [declarations_take]
  refine length_put_of_not_declared fun name kind signature detail found => ?_
  rw [readsOf, blocked] at found
  rw [(declared_of_foundIn? found).1] at isOfType
  cases isOfType

theorem isOfType_of_blocked (blocked : reading.block = some block)
    (opens : (reading.take raw).block.any (·.isOfType) = true) : block.isOfType = true := by
  obtain ⟨other, isBlock, isOfType⟩ := (Option.any_eq_true _ _).mp opens
  rw [block_take, readsOf, blocked, reads_some] at isBlock
  split at isBlock
  · cases isBlock
  · rwa [Option.some_inj.mp isBlock]

theorem isNoted_noted {opened : Option ℕ} (isNoted : reading.IsNoted opened) :
    (reading.take raw).IsNoted (reading.noted opened raw) := by
  by_cases opens : (reading.take raw).block.any (·.isOfType) = true
  · rw [noted, if_pos opens]
    refine ⟨opens.symm, fun position isPosition => ?_⟩
    rw [← Option.some_inj.mp isPosition]
    have isSome := isNoted.isSome
    cases blocked : reading.block with
    | none =>
        rw [blocked, Option.any_none, Option.isSome_eq_false_iff, Option.isNone_iff_eq_none]
          at isSome
        rw [isSome, Option.getD_none, length_of_opens blocked opens]
    | some block =>
        have isOfType := isOfType_of_blocked blocked opens
        rw [blocked, Option.any_some, isOfType] at isSome
        obtain ⟨position, rfl⟩ := Option.isSome_iff_exists.mp isSome
        rw [Option.getD_some, length_of_inside blocked isOfType, isNoted.last position rfl]
  · rw [noted, if_neg opens]
    exact ⟨(Bool.eq_false_iff.mpr opens).symm, nofun⟩

/-- The position that is noted after lines. -/
def notedAfter (reading : Reading) (opened : Option ℕ) : List (List Char) → Option ℕ
  | [] => opened
  | line :: lines => notedAfter (reading.take line) (reading.noted opened line) lines

theorem isNoted_foldl {opened : Option ℕ} (isNoted : reading.IsNoted opened)
    (lines : List (List Char)) :
    (lines.foldl take reading).IsNoted (reading.notedAfter opened lines) := by
  induction lines generalizing reading opened with
  | nil => exact isNoted
  | cons line lines induction => exact induction (isNoted_noted isNoted)

end Reading

theorem places_attach {declarations : List Declaration} (methods : List (String × String)) :
    (attach methods declarations).map (·.place) = declarations.map (·.place) := by
  induction declarations generalizing methods with
  | nil => rfl
  | cons declaration declarations induction =>
      rw [attach_cons]
      split
      · rw [List.map_cons, induction, List.map_cons]
        rfl
      · rw [List.map_cons, induction, List.map_cons]

theorem isPlaced_start : Reading.start.IsPlaced := .nil

theorem wellFormed_outline (text : String) : (outline text).WellFormed .go := by
  have placed := Reading.isPlaced_foldl isPlaced_start (lines text.toList)
  rw [Reading.IsPlaced, Reading.count_foldl, ← List.map_reverse, ← List.map_reverse] at placed
  refine Placed.wellFormed ?_ (by simp)
  rwa [places_attach, ← Nat.zero_add (Outline.countLines text.toList)]

theorem isNoted_start : Reading.start.IsNoted none := ⟨rfl, nofun⟩

/-- The position that is noted lies among the declarations. -/
theorem lt_of_mem_notedAfter {position : ℕ} {lines : List (List Char)}
    (noted : position ∈ Reading.start.notedAfter none lines) :
    position < (lines.foldl Reading.take .start).declarations.length := by
  have isNoted := Reading.isNoted_foldl isNoted_start lines
  exact Nat.lt_of_succ_le (Nat.le_of_eq (isNoted.last position noted))

/-- The parts of matches that are used without asking whether they are there. -/
def partsTaken : List (Pattern × ℕ) :=
  [(importLine, 2), (.seq blanks importSpec, 2), (constantLine, 1), (functionLine, 2),
    (typeLine, 1), (blockName, 1), (methodSpec, 1)]

theorem remembers_partsTaken : ∀ taken ∈ partsTaken, taken.1.remembers taken.2 = true := by
  decide +kernel

end CodeAtlas.Source.Go
