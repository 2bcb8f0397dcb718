import CodeAtlas.Proofs.Store.Home

/-!
# The file names of features and plans

The document of a feature is named by the characters of its name that a file name may hold, and
that of a plan by two such names with dashes between them.  Different names can so come to share
one document.  Plain names stay as they are, and two of them are told from the name that they are
joined to where one of them does not reach into the dashes.
-/

namespace CodeAtlas

namespace Store

variable {name other : String}

/-- A character that stays in a file name. -/
def IsPlainCharacter (c : Char) : Prop := c.isAlphanum = true ∨ c = '_' ∨ c = '.' ∨ c = '-'

instance (c : Char) : Decidable (IsPlainCharacter c) :=
  inferInstanceAs (Decidable (c.isAlphanum = true ∨ c = '_' ∨ c = '.' ∨ c = '-'))

/-- What stands for a character in a file name. -/
def slugCharacter (c : Char) : Char := if c.isAlphanum || c = '_' || c = '.' then c else '-'

theorem toList_slug (some : name ≠ "") : (slug name).toList = name.toList.map slugCharacter := by
  rw [slug, if_neg some, String.toList_map]
  rfl

theorem slugCharacter_eq_self {c : Char} (plain : IsPlainCharacter c) : slugCharacter c = c := by
  obtain letter | rfl | rfl | rfl := plain
  · rw [slugCharacter, letter]
    rfl
  · rfl
  · rfl
  · rfl

theorem isPlainCharacter_slugCharacter (c : Char) : IsPlainCharacter (slugCharacter c) := by
  rw [slugCharacter]
  split
  next kept =>
    simp only [Bool.or_eq_true, decide_eq_true_eq] at kept
    obtain (letter | rfl) | rfl := kept
    · exact .inl letter
    · exact .inr (.inl rfl)
    · exact .inr (.inr (.inl rfl))
  next => exact .inr (.inr (.inr rfl))

theorem isPlainCharacter_of_mem_slug (name : String) :
    ∀ c ∈ (slug name).toList, IsPlainCharacter c := by
  by_cases empty : name = ""
  · subst empty
    simpa using (by decide : (slug "").toList.all (decide <| IsPlainCharacter ·) = true)
  · rw [toList_slug empty]
    intro c member
    obtain ⟨old, -, rfl⟩ := List.mem_map.mp member
    exact isPlainCharacter_slugCharacter old

/-- A name that is something, of characters that stay in a file name. -/
def IsPlainName (name : String) : Prop := name ≠ "" ∧ ∀ c ∈ name.toList, IsPlainCharacter c

instance (name : String) : Decidable (IsPlainName name) :=
  decidable_of_iff (name ≠ "" ∧ name.toList.all (decide <| IsPlainCharacter ·) = true)
    (by simp [IsPlainName])

/-- A plain name stays as it is. -/
theorem slug_eq_self (plain : IsPlainName name) : slug name = name := by
  refine String.toList_injective ?_
  rw [toList_slug plain.1]
  exact (List.map_congr_left fun c member => slugCharacter_eq_self (plain.2 c member)).trans
    (List.map_id _)

theorem not_isPlainCharacter_slash : ¬IsPlainCharacter '/' := by decide

/-- Plain characters make the name of a document. -/
theorem isEntryName_json {front : String} (plain : ∀ c ∈ front.toList, IsPlainCharacter c) :
    Path.IsEntryName (front ++ ".json") := by
  have long {word : String} (short : word.length < 5) : front ++ ".json" ≠ word := by
    rintro rfl
    rw [String.length_append] at short
    exact absurd short (Nat.not_lt.mpr (Nat.le_add_left 5 front.length))
  refine ⟨⟨long (by decide), ?_⟩, long (by decide), long (by decide)⟩
  rw [String.toList_append, List.mem_append, not_or]
  exact ⟨fun member => not_isPlainCharacter_slash (plain '/' member), by decide⟩

theorem isSuffix_json (front : String) : ".json".toList <:+ (front ++ ".json").toList :=
  ⟨front.toList, (String.toList_append ..).symm⟩

namespace Document

def feature (name : String) : Document :=
  ⟨.features, slug name ++ ".json", isEntryName_json (isPlainCharacter_of_mem_slug name),
    isSuffix_json _⟩

/-- The name of the document of a plan, without its ending. -/
def planName (feature target : String) : String := slug feature ++ "--" ++ slug target

theorem isPlainCharacter_of_mem_planName (feature target : String) :
    ∀ c ∈ (planName feature target).toList, IsPlainCharacter c := by
  have dashes : ∀ c ∈ "--".toList, IsPlainCharacter c := by simp [IsPlainCharacter]
  intro c member
  rw [planName, String.toList_append, String.toList_append] at member
  rcases List.mem_append.mp member with front | inTarget
  · rcases List.mem_append.mp front with inFeature | between
    · exact isPlainCharacter_of_mem_slug feature c inFeature
    · exact dashes c between
  · exact isPlainCharacter_of_mem_slug target c inTarget

def plan (feature target : String) : Document :=
  ⟨.plans, planName feature target ++ ".json",
    isEntryName_json (isPlainCharacter_of_mem_planName feature target), isSuffix_json _⟩

theorem path_feature (store : Store) (name : String) :
    (feature name).path store = store.featurePath name :=
  rfl

theorem path_plan (store : Store) (feature target : String) :
    (plan feature target).path store = store.planPath feature target :=
  rfl

/-- Features share a document exactly if their names look alike in a file name. -/
theorem feature_eq_iff : feature name = feature other ↔ slug name = slug other := by
  rw [Document.ext_iff]
  refine (and_iff_right rfl).trans ?_
  exact String.append_left_inj ".json"

/-- Plans share a document exactly if what their names are joined to is the same. -/
theorem plan_eq_iff {first second third fourth : String} :
    plan first second = plan third fourth ↔ planName first second = planName third fourth := by
  rw [Document.ext_iff]
  refine (and_iff_right rfl).trans ?_
  exact String.append_left_inj ".json"

theorem path_eq_iff (store : Store) {document other : Document}
    (sameShelf : document.shelf = other.shelf) :
    document.path store = other.path store ↔ document.name = other.name := by
  have plain := Shelf.isPlain_path store document.shelf
  rw [path, path, ← sameShelf, Path.resolve_entryName plain document.proper,
    Path.resolve_entryName plain other.proper, String.append_right_inj]

theorem planPath_eq_iff (store : Store) {first second third fourth : String} :
    store.planPath first second = store.planPath third fourth ↔
      plan first second = plan third fourth := by
  have sameShelf : (plan first second).shelf = (plan third fourth).shelf := rfl
  rw [← path_plan, ← path_plan, path_eq_iff store sameShelf, Document.ext_iff]
  exact (and_iff_right sameShelf).symm

end Document

/-! ## Two names with dashes between them -/

/-- With a dash after it, a name holds no two dashes that follow each other. -/
def EndsBeforeDashes (name : String) : Prop := ¬['-', '-'] <:+: name.toList ++ ['-']

instance (name : String) : Decidable (EndsBeforeDashes name) :=
  inferInstanceAs (Decidable ¬['-', '-'] <:+: name.toList ++ ['-'])

/-- With a dash before it, a name holds no two dashes that follow each other. -/
def StartsAfterDashes (name : String) : Prop := ¬['-', '-'] <:+: '-' :: name.toList

instance (name : String) : Decidable (StartsAfterDashes name) :=
  inferInstanceAs (Decidable ¬['-', '-'] <:+: '-' :: name.toList)

section Twice

variable {α : Type} {separator : α} {first second rest other : List α}

/-- Nothing stands before the first two separators that follow each other. -/
theorem eq_nil_of_append_twice {front between : List α}
    (ends : ¬[separator, separator] <:+: (front ++ between) ++ [separator])
    (follows : separator :: separator :: rest = between ++ separator :: other) : between = [] := by
  cases between with
  | nil => rfl
  | cons head tail =>
      obtain ⟨rfl, later⟩ := List.cons.inj follows
      refine absurd ?_ ends
      cases tail with
      | nil => exact ⟨front, [], by simp⟩
      | cons next tail =>
          obtain ⟨rfl, -⟩ := List.cons.inj later
          exact ⟨front, tail ++ [separator], by simp⟩

/-- A list ends where the first two separators that follow each other begin. -/
theorem eq_of_append_twice (firstEnds : ¬[separator, separator] <:+: first ++ [separator])
    (secondEnds : ¬[separator, separator] <:+: second ++ [separator])
    (same : first ++ separator :: separator :: rest = second ++ separator :: separator :: other) :
    first = second := by
  obtain ⟨between, longer, follows⟩ | ⟨between, longer, follows⟩ :=
    List.append_eq_append_iff.mp same
  · rw [longer] at secondEnds
    rw [longer, eq_nil_of_append_twice secondEnds follows, List.append_nil]
  · rw [longer] at firstEnds
    rw [longer, eq_nil_of_append_twice firstEnds follows, List.append_nil]

end Twice

/-- Two names that are joined by dashes. -/
def joined (feature target : String) : String := feature ++ "--" ++ target

theorem toList_joined (feature target : String) :
    (joined feature target).toList = feature.toList ++ '-' :: '-' :: target.toList := by
  simp [joined]

/-- Joined names are told apart where the first of them, or the second, does not reach into the
dashes between them. -/
theorem joined_eq_iff {first second third fourth : String}
    (told : EndsBeforeDashes first ∧ EndsBeforeDashes third ∨
      StartsAfterDashes second ∧ StartsAfterDashes fourth) :
    joined first second = joined third fourth ↔ first = third ∧ second = fourth := by
  constructor
  · intro same
    have lists := congrArg String.toList same
    rw [toList_joined, toList_joined] at lists
    obtain ⟨firstEnds, thirdEnds⟩ | ⟨secondStarts, fourthStarts⟩ := told
    · have sameFirst := eq_of_append_twice firstEnds thirdEnds lists
      rw [sameFirst] at lists
      have sameSecond := (List.append_cancel_left lists)
      simp only [List.cons.injEq, true_and] at sameSecond
      exact ⟨String.toList_injective sameFirst, String.toList_injective sameSecond⟩
    · have reversed := congrArg List.reverse lists
      simp only [List.reverse_append, List.reverse_cons, List.append_assoc, List.cons_append,
        List.nil_append] at reversed
      have ends {name : String} (starts : StartsAfterDashes name) :
          ¬['-', '-'] <:+: name.toList.reverse ++ ['-'] := by
        rw [← List.reverse_cons, ← List.reverse_infix, List.reverse_reverse]
        exact starts
      have sameSecond := eq_of_append_twice (ends secondStarts) (ends fourthStarts) reversed
      rw [sameSecond] at reversed
      have sameFirst := List.append_cancel_left reversed
      simp only [List.cons.injEq, true_and] at sameFirst
      exact ⟨String.toList_injective (List.reverse_injective sameFirst),
        String.toList_injective (List.reverse_injective sameSecond)⟩
  · rintro ⟨rfl, rfl⟩
    rfl

theorem Document.planName_eq_joined {feature target : String} (isFeature : IsPlainName feature)
    (isTarget : IsPlainName target) : planName feature target = joined feature target := by
  rw [planName, slug_eq_self isFeature, slug_eq_self isTarget, joined]

end Store

end CodeAtlas
