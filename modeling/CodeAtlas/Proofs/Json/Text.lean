import CodeAtlas.Proofs.Json.Number
import CodeAtlas.Proofs.Json.Scan

/-!
# Written values are read back

The text of a value is cut into the tokens that the value was written with, and the tokens build
the value again.  Only its numbers are those that their texts stand for.
-/

namespace CodeAtlas.Json

/-! ## Reading a written value -/

mutual

/-- The value that the text of a value stands for. -/
def reread : Json → Json
  | .null => .null
  | .bool value => .bool value
  | .number found => found.reread
  | .string text => .string text
  | .array items => .array (rereadItems items)
  | .object members => .object (rereadMembers members)
  | .unreadable => .null

/-- The items that the texts of items stand for. -/
def rereadItems : List Json → List Json
  | [] => []
  | item :: rest => item.reread :: rereadItems rest

/-- The members that the texts of members stand for. -/
def rereadMembers : List (String × Json) → List (String × Json)
  | [] => []
  | (name, value) :: rest => (name, value.reread) :: rereadMembers rest

end

@[simp] theorem reread_array (items : List Json) :
    (array items).reread = .array (items.map reread) := by
  rw [reread]
  congr 1
  induction items with
  | nil => rfl
  | cons item rest induction => rw [rereadItems, induction, List.map_cons]

@[simp] theorem reread_object (members : List (String × Json)) :
    (object members).reread = .object (members.map fun member => (member.1, member.2.reread)) := by
  rw [reread]
  congr 1
  induction members with
  | nil => rfl
  | cons member rest induction => rw [rereadMembers, induction, List.map_cons]

@[simp] theorem reread_string (text : String) : (string text).reread = .string text := by
  rw [reread]

@[simp] theorem reread_null : null.reread = .null := by
  rw [reread]

mutual

/-- The tokens of the text of a value. -/
def tokens : Json → List Token
  | .null => [.value .null]
  | .bool value => [.value (.bool value)]
  | .number found => [.value found.reread]
  | .string text => [.text (some text)]
  | .array [] => [.openArray, .closeArray]
  | .array (item :: rest) => .openArray :: (item.tokens ++ (itemTokens rest ++ [.closeArray]))
  | .object [] => [.openObject, .closeObject]
  | .object ((name, value) :: rest) =>
      .openObject :: .text (some name) :: .colon ::
        (value.tokens ++ (memberTokens rest ++ [.closeObject]))
  | .unreadable => [.value .null]

/-- The tokens of the items of an array after the first. -/
def itemTokens : List Json → List Token
  | [] => []
  | item :: rest => .comma :: (item.tokens ++ itemTokens rest)

/-- The tokens of the members of an object after the first. -/
def memberTokens : List (String × Json) → List Token
  | [] => []
  | (name, value) :: rest =>
      .comma :: .text (some name) :: .colon :: (value.tokens ++ memberTokens rest)

end

/-! ## Tokens -/

@[simp] theorem Layout.beforeItem_indented (level : Nat) :
    Layout.indented.beforeItem level = newLine (level + 1) := rfl

@[simp] theorem Layout.beforeEnd_indented (level : Nat) :
    Layout.indented.beforeEnd level = newLine level := rfl

@[simp] theorem Layout.afterName_indented : Layout.indented.afterName = [':', ' '] := rfl

namespace Token

variable {done : List Token} {rest : List Char}

theorem isSpace_of_mem_blank : ∀ c ∈ [' '], isSpace c = true := by simp [isSpace]

theorem isSpace_of_mem_newLine {level : Nat} : ∀ c ∈ Layout.newLine level, isSpace c = true := by
  intro c member
  rcases List.mem_cons.mp member with rfl | space
  · rfl
  · rw [List.eq_of_mem_replicate space]
    rfl

theorem scan_newLine (level : Nat) :
    scan .between done (Layout.newLine level ++ rest) = scan .between done rest :=
  scan_spaces isSpace_of_mem_newLine

theorem endsBare_newLine (level : Nat) : EndsBare (Layout.newLine level ++ rest) := by
  intro c isHead
  cases isHead
  exact .inl rfl

theorem endsBare_comma : EndsBare (',' :: rest) := by
  intro c isHead
  cases isHead
  exact .inr ⟨.comma, rfl⟩

theorem endsBare_itemCharacters {layout : Layout} {level : Nat} (items : List Json)
    (ends : EndsBare rest) : EndsBare (itemCharacters layout level items ++ rest) := by
  cases items with
  | nil => exact ends
  | cons item others => exact endsBare_comma

theorem endsBare_memberCharacters {layout : Layout} {level : Nat}
    (members : List (String × Json)) (ends : EndsBare rest) :
    EndsBare (memberCharacters layout level members ++ rest) := by
  cases members with
  | nil => exact ends
  | cons member others => exact endsBare_comma

theorem scan_word (word : List Char) {found : Json} (bare : ∀ c ∈ word, isBare c = true)
    (known : bareValue? word = some found) (ends : EndsBare rest) :
    scan .between done (word ++ rest) = scan .between (.value found :: done) rest := by
  cases word with
  | nil => cases known
  | cons c word =>
      have isBareHead := bare c List.mem_cons_self
      have notSpace : isSpace c = false := by
        rw [Bool.eq_false_iff]
        intro space
        simp only [isSpace, Bool.or_eq_true, decide_eq_true_eq] at space
        rcases space with ((rfl | rfl) | rfl) | rfl <;> cases isBareHead
      have notQuote : c ≠ '"' := by
        rintro rfl
        cases isBareHead
      rw [List.cons_append, scan]
      simp only [notSpace, notQuote, isBareHead, Bool.false_eq_true, ↓reduceIte]
      exact scan_bare (fun c member => bare c (List.mem_cons_of_mem _ member)) [c]
        (by simpa using known) ends

mutual

/-- The text of a value is cut into its tokens. -/
theorem scan_characters (value : Json) (level : Nat) {done : List Token} {rest : List Char}
    (ends : EndsBare rest) :
    scan .between done (value.characters .indented level ++ rest) =
      scan .between (value.tokens.reverse ++ done) rest := by
  match value with
  | .null => exact scan_word nullCharacters (List.all_eq_true.mp rfl) rfl ends
  | .bool true => exact scan_word ['t', 'r', 'u', 'e'] (List.all_eq_true.mp rfl) rfl ends
  | .bool false =>
      exact scan_word ['f', 'a', 'l', 's', 'e'] (List.all_eq_true.mp rfl) rfl ends
  | .number found =>
      exact scan_word _ (fun _ => JsonNumber.isBare_of_mem_numberCharacters)
        found.exists_bareValue? ends
  | .unreadable => exact scan_word nullCharacters (List.all_eq_true.mp rfl) rfl ends
  | .string content => exact scan_quoted content
  | .array [] =>
      exact (scan_punctuation _ (rfl : punctuation? '[' = some .openArray)).trans
        (scan_punctuation _ (rfl : punctuation? ']' = some .closeArray))
  | .array (item :: others) =>
      rw [characters, tokens, List.cons_append, scan_punctuation .openArray rfl]
      simp only [Layout.beforeItem_indented, Layout.beforeEnd_indented,
        List.append_assoc, List.reverse_cons, List.reverse_append]
      rw [scan_newLine, scan_characters item (level + 1)
          (endsBare_itemCharacters others (endsBare_newLine level)),
        scan_itemCharacters others level (endsBare_newLine level), scan_newLine,
        List.singleton_append, scan_punctuation .closeArray rfl]
      simp
  | .object [] =>
      exact (scan_punctuation _ (rfl : punctuation? '{' = some .openObject)).trans
        (scan_punctuation _ (rfl : punctuation? '}' = some .closeObject))
  | .object ((name, member) :: others) =>
      rw [characters, tokens, List.cons_append, scan_punctuation .openObject rfl]
      simp only [Layout.beforeItem_indented, Layout.beforeEnd_indented, Layout.afterName_indented,
        List.append_assoc, List.reverse_cons, List.reverse_append]
      rw [scan_newLine, scan_quoted]
      rw [List.cons_append, scan_punctuation .colon rfl,
        scan_spaces isSpace_of_mem_blank,
        scan_characters member (level + 1)
          (endsBare_memberCharacters others (endsBare_newLine level)),
        scan_memberCharacters others level (endsBare_newLine level), scan_newLine,
        List.singleton_append, scan_punctuation .closeObject rfl]
      simp

theorem scan_itemCharacters (items : List Json) (level : Nat) {done : List Token}
    {rest : List Char} (ends : EndsBare rest) :
    scan .between done (itemCharacters .indented level items ++ rest) =
      scan .between ((itemTokens items).reverse ++ done) rest := by
  match items with
  | [] => rfl
  | item :: others =>
      rw [itemCharacters, itemTokens, List.cons_append, scan_punctuation .comma rfl]
      simp only [Layout.beforeItem_indented,
        List.append_assoc, List.reverse_cons, List.reverse_append]
      rw [scan_newLine, scan_characters item (level + 1) (endsBare_itemCharacters others ends),
        scan_itemCharacters others level ends]
      simp

theorem scan_memberCharacters (members : List (String × Json)) (level : Nat)
    {done : List Token} {rest : List Char} (ends : EndsBare rest) :
    scan .between done (memberCharacters .indented level members ++ rest) =
      scan .between ((memberTokens members).reverse ++ done) rest := by
  match members with
  | [] => rfl
  | (name, member) :: others =>
      rw [memberCharacters, memberTokens, List.cons_append,
        scan_punctuation .comma rfl]
      simp only [Layout.beforeItem_indented, Layout.afterName_indented,
        List.append_assoc, List.reverse_cons, List.reverse_append]
      rw [scan_newLine, scan_quoted]
      rw [List.cons_append, scan_punctuation .colon rfl,
        scan_spaces isSpace_of_mem_blank,
        scan_characters member (level + 1) (endsBare_memberCharacters others ends),
        scan_memberCharacters others level ends]
      simp

end

/-- The text of a value is cut into its tokens and nothing else. -/
theorem scan_pretty (value : Json) : scan .between [] value.pretty.toList = some value.tokens := by
  have whole := @scan_characters value 0 [] [] endsBare_nil
  rw [List.append_nil, List.append_nil] at whole
  rw [pretty, String.toList_ofList, whole, scan, List.reverse_reverse]

end Token

/-! ## Building -/

namespace Builder

variable {stack : List Frame} {phase : Phase} {rest : List Token}

/-- A phase in which a value may begin. -/
def TakesItem (phase : Phase) : Prop := phase = .item ∨ phase = .itemOrEnd

theorem step?_value (takes : TakesItem phase) (value : Json) :
    step? ⟨stack, phase⟩ (.value value) = some (put stack value) := by
  rcases takes with rfl | rfl <;> rfl

theorem step?_text (takes : TakesItem phase) (text : String) :
    step? ⟨stack, phase⟩ (.text (some text)) = some (put stack (.string text)) := by
  rcases takes with rfl | rfl <;> rfl

theorem step?_openArray (takes : TakesItem phase) :
    step? ⟨stack, phase⟩ .openArray = some ⟨.array [] :: stack, .itemOrEnd⟩ := by
  rcases takes with rfl | rfl <;> rfl

theorem step?_openObject (takes : TakesItem phase) :
    step? ⟨stack, phase⟩ .openObject = some ⟨.object [] "" false :: stack, .nameOrEnd⟩ := by
  rcases takes with rfl | rfl <;> rfl

mutual

/-- The tokens of a value put the value where they begin. -/
theorem foldlM_tokens (value : Json) {stack : List Frame} {phase : Phase} {rest : List Token}
    (takes : TakesItem phase) :
    (value.tokens ++ rest).foldlM step? ⟨stack, phase⟩ =
      rest.foldlM step? (put stack value.reread) := by
  match value with
  | .null => rw [tokens, reread, List.singleton_append, List.foldlM_cons, step?_value takes]; rfl
  | .bool value =>
      rw [tokens, reread, List.singleton_append, List.foldlM_cons, step?_value takes]; rfl
  | .number found =>
      rw [tokens, reread, List.singleton_append, List.foldlM_cons, step?_value takes]; rfl
  | .unreadable =>
      rw [tokens, reread, List.singleton_append, List.foldlM_cons, step?_value takes]; rfl
  | .string text =>
      rw [tokens, reread_string, List.singleton_append, List.foldlM_cons, step?_text takes]; rfl
  | .array [] =>
      rw [tokens, reread, List.cons_append, List.foldlM_cons, step?_openArray takes]
      rfl
  | .array (item :: others) =>
      rw [tokens, reread, List.cons_append, List.foldlM_cons, step?_openArray takes]
      simp only [List.append_assoc, Option.bind_eq_bind, Option.bind_some]
      rw [foldlM_tokens item (.inr rfl), put, foldlM_itemTokens others, List.singleton_append,
        List.foldlM_cons]
      simp [step?, closeArray?, rereadItems]
  | .object [] =>
      rw [tokens, reread, List.cons_append, List.foldlM_cons, step?_openObject takes]
      rfl
  | .object ((name, member) :: others) =>
      rw [tokens, reread, List.cons_append, List.foldlM_cons, step?_openObject takes]
      simp only [List.append_assoc, List.cons_append, Option.bind_eq_bind, Option.bind_some,
        List.foldlM_cons, step?, nameMember?]
      obtain ⟨last, same⟩ := foldlM_memberTokens others [(name, member.reread)] name
      rw [foldlM_tokens member (.inl rfl), put, same, List.foldlM_cons]
      simp [step?, closeObject?, rereadMembers]

theorem foldlM_itemTokens (items : List Json) {stack : List Frame} {rest : List Token}
    (done : List Json) :
    (itemTokens items ++ rest).foldlM step? ⟨.array done :: stack, .separator⟩ =
      rest.foldlM step? ⟨.array ((rereadItems items).reverse ++ done) :: stack, .separator⟩ := by
  match items with
  | [] => rfl
  | item :: others =>
      rw [itemTokens, rereadItems, List.cons_append, List.foldlM_cons]
      simp only [List.append_assoc, Option.bind_eq_bind, Option.bind_some, step?]
      rw [foldlM_tokens item (.inl rfl), put, foldlM_itemTokens others]
      simp

/-- The name of the last member stays in the frame; nothing reads it there. -/
theorem foldlM_memberTokens (members : List (String × Json)) {stack : List Frame}
    {rest : List Token} (done : List (String × Json)) (name : String) :
    ∃ last, (memberTokens members ++ rest).foldlM step?
        ⟨.object done name false :: stack, .separator⟩ =
      rest.foldlM step?
        ⟨.object ((rereadMembers members).reverse ++ done) last false :: stack, .separator⟩ := by
  match members with
  | [] => exact ⟨name, rfl⟩
  | (next, member) :: others =>
      obtain ⟨last, same⟩ := foldlM_memberTokens others ((next, member.reread) :: done) next
      refine ⟨last, ?_⟩
      rw [memberTokens, rereadMembers, List.cons_append, List.foldlM_cons]
      simp only [List.append_assoc, List.cons_append, Option.bind_eq_bind, Option.bind_some,
        List.foldlM_cons, step?, nameMember?]
      rw [foldlM_tokens member (.inl rfl), put, same]
      simp

end

end Builder

/-- A written value is read back, its numbers as their texts stand for them. -/
theorem ofText?_pretty (value : Json) : ofText? value.pretty = some value.reread := by
  have built := @Builder.foldlM_tokens value [] .item [] (.inl rfl)
  rw [List.append_nil] at built
  rw [ofText?, Token.scan_pretty, Option.bind_eq_bind, Option.bind_some, built]
  rfl

end CodeAtlas.Json
