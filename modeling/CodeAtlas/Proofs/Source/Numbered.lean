import CodeAtlas.Proofs.Source.Entry

/-!
# The lines of what is found

A reader that takes line after line gives what it finds on a line the number of the line.  If it
finds at most one import and one declaration on each, their numbers increase.  A declaration that
gets a member keeps its kind and its line.
-/

namespace CodeAtlas

/-- Strictly increasing numbers of some of the first `count` lines. -/
structure Numbered (count : ℕ) (numbers : List ℕ) : Prop where
  increasing : numbers.Pairwise (· < ·)
  within : ∀ number ∈ numbers, 1 ≤ number ∧ number ≤ count

namespace Numbered

variable {count : ℕ} {numbers : List ℕ}

theorem nil : Numbered count [] := ⟨.nil, List.forall_mem_nil _⟩

theorem passing (numbered : Numbered count numbers) : Numbered (count + 1) numbers :=
  ⟨numbered.increasing, fun number member => (numbered.within number member).imp_right (by omega)⟩

theorem adding (numbered : Numbered count numbers) :
    Numbered (count + 1) (numbers ++ [count + 1]) where
  increasing := by
    refine List.pairwise_append.mpr ⟨numbered.increasing, List.pairwise_singleton _ _, ?_⟩
    intro number member next isNext
    rw [List.mem_singleton.mp isNext]
    exact Nat.lt_succ_of_le (numbered.within number member).2
  within := by
    refine List.forall_mem_append.mpr ⟨numbered.passing.within, ?_⟩
    exact List.forall_mem_singleton.mpr ⟨Nat.le_add_left _ _, Nat.le_refl _⟩

theorem lineNumber_of_mem (numbered : Numbered count numbers) (narrow : count < Nat.pow 2 32)
    {number : ℕ} (member : number ∈ numbers) : lineNumber number = number :=
  Nat.mod_eq_of_lt (Nat.lt_of_le_of_lt (numbered.within number member).2 narrow)

end Numbered

/-- The kind and the line of a declaration. -/
def Declaration.place (declaration : Declaration) : InterfaceKind × ℕ :=
  (declaration.kind, declaration.line)

namespace Source

theorem places_withMember (name : String) {declarations : List Declaration} :
    (withMember name declarations).map (·.place) = declarations.map (·.place) := by
  cases declarations <;> rfl

/-- What is found on the first `count` lines of a file: the lines of the imports and the places of
the declarations, in their order. -/
structure Placed (language : Language) (count : ℕ) (imports : List ℕ)
    (places : List (InterfaceKind × ℕ)) : Prop where
  imports : Numbered count imports
  declarations : Numbered count (places.map (·.2))
  admitted : ∀ place ∈ places, language.admits place.1 = true

namespace Placed

variable {language : Language} {count : ℕ} {imports : List ℕ} {places : List (InterfaceKind × ℕ)}
  {kind : InterfaceKind}

theorem nil : Placed language count [] [] := ⟨.nil, .nil, List.forall_mem_nil _⟩

theorem passing (placed : Placed language count imports places) :
    Placed language (count + 1) imports places :=
  ⟨placed.imports.passing, placed.declarations.passing, placed.admitted⟩

theorem importing (placed : Placed language count imports places) :
    Placed language (count + 1) (imports ++ [count + 1]) places :=
  ⟨placed.imports.adding, placed.declarations.passing, placed.admitted⟩

theorem declaring (placed : Placed language count imports places)
    (admitted : language.admits kind = true) :
    Placed language (count + 1) imports (places ++ [(kind, count + 1)]) where
  imports := placed.imports.passing
  declarations := by
    rw [List.map_append]
    exact placed.declarations.adding
  admitted := List.forall_mem_append.mpr
    ⟨placed.admitted, List.forall_mem_singleton.mpr admitted⟩

end Placed

end Source

/-- What holds of the outline of every file that is read line by line. -/
structure Outline.WellFormed (language : Language) (outline : Outline) : Prop where
  imports : Numbered outline.lineCount (outline.imports.map (·.line))
  declarations : Numbered outline.lineCount (outline.declarations.map (·.line))
  admitted : ∀ declaration ∈ outline.declarations, language.admits declaration.kind = true
  /-- No two declarations have the same kind and name. -/
  distinct : language = .c ∨ language = .cpp →
    (outline.declarations.map fun declaration => (declaration.kind, declaration.name)).Nodup

/-- The numbers of all lines of an outline fit in 32 bits. -/
structure Outline.HasNarrowLines (outline : Outline) : Prop where
  imports : ∀ found ∈ outline.imports, lineNumber found.line = found.line
  declarations : ∀ declaration ∈ outline.declarations,
    declaration.toInterface.line = declaration.line
  lineCount : lineNumber outline.lineCount = outline.lineCount

theorem Outline.WellFormed.hasNarrowLines {language : Language} {outline : Outline}
    (wellFormed : outline.WellFormed language) (narrow : outline.lineCount < Nat.pow 2 32) :
    outline.HasNarrowLines where
  imports _ member := wellFormed.imports.lineNumber_of_mem narrow (List.mem_map_of_mem member)
  declarations _ member :=
    wellFormed.declarations.lineNumber_of_mem narrow (List.mem_map_of_mem member)
  lineCount := Nat.mod_eq_of_lt narrow

/-- The outline of what is found on all lines is well formed. -/
theorem Source.Placed.wellFormed {language : Language} {source doc : List Char}
    {imports : List Import} {declarations : List Declaration}
    (placed : Placed language (Outline.countLines source) (imports.map (·.line))
      (declarations.map (·.place)))
    (distinct : language = .c ∨ language = .cpp →
      (declarations.map fun declaration => (declaration.kind, declaration.name)).Nodup) :
    (Outline.ofParts source doc imports declarations).WellFormed language where
  imports := placed.imports
  declarations := by
    have numbered := placed.declarations
    rw [List.map_map] at numbered
    exact numbered
  admitted declaration member := placed.admitted declaration.place (List.mem_map_of_mem member)
  distinct := distinct

end CodeAtlas
