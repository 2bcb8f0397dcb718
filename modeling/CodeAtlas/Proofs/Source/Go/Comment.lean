import CodeAtlas.Source.Go
import CodeAtlas.Proofs.Source.Entry

/-!
# Comments of Go files

A line inside of a comment is matched like any other one, and may also open or close a block.  If
it does neither open nor close one, it leaves what is read alone exactly if nothing is found on
it, where a method is found only if its receiver is a struct of the file.
-/

namespace CodeAtlas.Source.Go

open CodeAtlas.Text CodeAtlas.Text.Pattern

namespace Reading

/-! ## What a line adds -/

/-- What is found on a line. -/
inductive Found
  | imported (captures : Captures)
  | declared (name : List Char) (kind : InterfaceKind) (signature : String)
      (detail : DeclarationDetail)
  | member (name : List Char)
  | method (receiver name : String)

/-- Whether a block ends with a line; `after` is the depth after the line. -/
def closes (block : Block) (after : Nat) (raw : List Char) : Bool :=
  match block with
  | .imports | .constants => [')'].isPrefixOf (trim raw)
  | .fields | .methods => after = 0

/-- What is found on a line of a block. -/
def foundIn? (block : Block) (depth after : Nat) (raw : List Char) : Option Found :=
  let member? (pattern : Pattern) : Option Found :=
    if closes block after raw || depth ≠ 1 || "//".toList.isPrefixOf (trim raw) then none
    else (pattern.match? raw).map fun captures => .member (part captures 1)
  match block with
  | .imports => ((Pattern.seq blanks importSpec).match? raw).map .imported
  | .constants =>
      if closes block after raw || "//".toList.isPrefixOf (trim raw) then none
      else (blockName.match? raw).map fun captures =>
        .declared (part captures 1) .const (String.ofList (trim raw)) .plain
  | .fields => member? blockName
  | .methods => member? methodSpec

def foundFunction (raw : List Char) (captures : Captures) : Found :=
  match part? captures 1 with
  | some receiver => .method (String.ofList receiver) (String.ofList (part captures 2))
  | none => .declared (part captures 2) .function (lineHeader raw) (.functionAsync false)

/-- The type of a line, and the block that it opens. -/
def foundType (after : Nat) (raw : List Char) (captures : Captures) :
    Option Found × Option Block :=
  let declared (kind : InterfaceKind) : Option Found :=
    some (.declared (part captures 1) kind (lineHeader raw) .plain)
  let opened (block : Block) : Option Block := if after = 0 then none else some block
  match part? captures 3 with
  | some word =>
      if word = "struct".toList then (declared .struct, opened .fields)
      else (declared .interface, opened .methods)
  | none => (declared .typeAlias, none)

/-- What is found on a line outside of all blocks and braces, and the block that it opens. -/
def foundOutside (after : Nat) (raw : List Char) : Option Found × Option Block :=
  if trim raw = "import (".toList then (none, some .imports)
  else match importLine.match? raw with
    | some captures => (some (.imported captures), none)
    | none =>
        if trim raw = "const (".toList then (none, some .constants)
        else match constantLine.match? raw with
          | some captures =>
              (some (.declared (part captures 1) .const (String.ofList (trim raw)) .plain), none)
          | none =>
              match functionLine.match? raw with
              | some captures => (some (foundFunction raw captures), none)
              | none =>
                  match typeLine.match? raw with
                  | some captures => foundType after raw captures
                  | none => (none, none)

/-- What is found on a line, and the block that is open after it. -/
def reads (block : Option Block) (depth after : Nat) (raw : List Char) :
    Option Found × Option Block :=
  match block with
  | some block =>
      (foundIn? block depth after raw, if closes block after raw then none else some block)
  | none => if depth = 0 then foundOutside after raw else (none, none)

/-- Add what is found on a line. -/
def put (reading : Reading) : Option Found → Reading
  | some (.imported captures) => reading.addImport captures
  | some (.declared name kind signature detail) => reading.declare name kind signature detail
  | some (.member name) => reading.addMember name
  | some (.method receiver name) =>
      { reading with methods := (receiver, name) :: reading.methods }
  | none => reading

/-- What is left of a line: its number, and its text for the comments above what follows. -/
def passing (reading : Reading) (raw : List Char) (read : Reading) : Reading :=
  { read with count := reading.count + 1, before := raw :: reading.before }

/-- A reading after the braces of a line. -/
def advancing (reading : Reading) (raw : List Char) : Reading :=
  { reading with braces := reading.braces.advance raw }

/-- What a reading finds on a line, and the block that is open after it. -/
def readsOf (reading : Reading) (raw : List Char) : Option Found × Option Block :=
  reads reading.block reading.braces.depth (reading.braces.advance raw).depth raw

variable {reading first second : Reading} {raw line other : List Char}

theorem put_unless (skipped : Bool) (matched : Option Captures) (found : Captures → Found) :
    (match matched with
      | some captures => if skipped then reading else reading.put (some (found captures))
      | none => reading) = reading.put (if skipped then none else matched.map found) := by
  cases skipped <;> cases matched <;> rfl

/-- A reading with another block open. -/
def withBlock (reading : Reading) (block : Option Block) : Reading :=
  { reading with block := block }

theorem withBlock_self {block : Option Block} (same : reading.block = block) :
    reading.withBlock block = reading := by
  subst same
  rfl

theorem withBlock_put {block : Option Block} (same : reading.block = block)
    (found : Option Found) : (reading.put found).withBlock block = reading.put found := by
  apply withBlock_self
  match found with
  | some (.imported _) | some (.declared _ _ _ _) | some (.method _ _) | none => exact same
  | some (.member _) =>
      rw [put, addMember]
      split <;> exact same

theorem takeInBlock_eq (block : Block) (depth : Nat) :
    reading.takeInBlock block depth raw =
      (reading.put (foundIn? block depth reading.braces.depth raw)).withBlock
        (if closes block reading.braces.depth raw then none else some block) := by
  cases block with
  | imports =>
      simp only [takeInBlock, foundIn?, closes]
      cases (Pattern.seq blanks importSpec).match? raw <;> rfl
  | constants =>
      simp only [takeInBlock, foundIn?, ← put_unless]
      rfl
  | fields =>
      simp only [takeInBlock, foundIn?, ← put_unless]
      rfl
  | methods =>
      simp only [takeInBlock, foundIn?, ← put_unless]
      rfl

theorem takeFunction_eq (captures : Captures) :
    reading.takeFunction raw captures = reading.put (some (foundFunction raw captures)) := by
  rw [takeFunction, foundFunction]
  cases part? captures 1 <;> rfl

theorem takeType_eq (unblocked : reading.block = none) (captures : Captures) :
    reading.takeType raw captures =
      (reading.put (foundType reading.braces.depth raw captures).1).withBlock
        (foundType reading.braces.depth raw captures).2 := by
  rw [takeType, foundType]
  cases part? captures 3 with
  | none =>
      exact (withBlock_put unblocked (some (.declared (part captures 1) .typeAlias _ _))).symm
  | some word =>
      simp only
      split <;> rfl

theorem takeOutside_eq (unblocked : reading.block = none) :
    reading.takeOutside raw =
      (reading.put (foundOutside reading.braces.depth raw).1).withBlock
        (foundOutside reading.braces.depth raw).2 := by
  rw [takeOutside, foundOutside]
  split
  · rfl
  · cases importLine.match? raw with
    | some captures => exact (withBlock_put unblocked (some (.imported captures))).symm
    | none =>
        simp only
        split
        · rfl
        · cases constantLine.match? raw with
          | some captures =>
              exact (withBlock_put unblocked (some (.declared (part captures 1) .const _ _))).symm
          | none =>
              cases functionLine.match? raw with
              | some captures =>
                  exact (takeFunction_eq captures).trans (withBlock_put unblocked _).symm
              | none =>
                  cases typeLine.match? raw with
                  | some captures => exact takeType_eq unblocked captures
                  | none => exact (withBlock_put unblocked none).symm

theorem take_eq :
    reading.take raw = reading.passing raw
      (((reading.advancing raw).put (reading.readsOf raw).1).withBlock
        (reading.readsOf raw).2) := by
  have taken : reading.take raw = reading.passing raw
      (match (reading.advancing raw).block with
        | some block => (reading.advancing raw).takeInBlock block reading.braces.depth raw
        | none =>
            if reading.braces.depth = 0 then (reading.advancing raw).takeOutside raw
            else reading.advancing raw) := rfl
  rw [taken, readsOf]
  apply congrArg (reading.passing raw)
  cases blocked : reading.block with
  | some block =>
      have current : (reading.advancing raw).block = some block := blocked
      rw [current]
      exact takeInBlock_eq block _
  | none =>
      have current : (reading.advancing raw).block = none := blocked
      simp only [current, reads]
      split
      · exact takeOutside_eq current
      · exact (withBlock_put current none).symm

theorem braces_take : (reading.take raw).braces = reading.braces.advance raw := by
  rw [take_eq]
  match (reading.readsOf raw).1 with
  | some (.imported _) | some (.declared _ _ _ _) | some (.method _ _) | none => rfl
  | some (.member _) =>
      rw [put, addMember]
      split <;> rfl

theorem braces_foldl (lines : List (List Char)) :
    (lines.foldl take reading).braces = lines.foldl Braces.advance reading.braces :=
  (List.foldl_hom Reading.braces fun _ _ => braces_take.symm).symm

end Reading

/-! ## Methods of structs -/

/-- The names of the structs among declarations. -/
def structNames (declarations : List Declaration) : List String :=
  (declarations.filter (·.kind = .struct)).map (·.name)

theorem structNames_cons {declaration : Declaration} {declarations : List Declaration} :
    structNames (declaration :: declarations) =
      if declaration.kind = .struct then declaration.name :: structNames declarations
      else structNames declarations := by
  rw [structNames, List.filter_cons]
  split
  next isStruct => simp only [decide_eq_true_eq] at isStruct; rw [if_pos isStruct]; rfl
  next noStruct => simp only [decide_eq_true_eq] at noStruct; rw [if_neg noStruct]; rfl

theorem structNames_withMember {name : String} {declarations : List Declaration} :
    structNames (withMember name declarations) = structNames declarations := by
  cases declarations with
  | nil => rfl
  | cons last others => simp only [withMember, structNames_cons]

theorem structNames_congr {first second : List Declaration}
    (same : entriesOf true first = entriesOf true second) :
    structNames first = structNames second := by
  have named (declarations : List Declaration) : structNames declarations =
      ((entriesOf true declarations).filter (·.kind = .struct)).map (·.name) := by
    rw [entriesOf, List.filter_map, List.map_map]
    rfl
  rw [named, named, same]

theorem attach_cons {methods : List (String × String)} {declaration : Declaration}
    {declarations : List Declaration} :
    attach methods (declaration :: declarations) =
      if declaration.kind = .struct then
        { declaration with
          members := declaration.members ++
            (methods.filter fun method => method.1 = declaration.name).map (·.2) } ::
          attach (methods.filter fun method => !decide (method.1 = declaration.name)) declarations
      else declaration :: attach methods declarations := by
  rw [attach]
  split
  · rw [List.partition_eq_filter_filter]
    rfl
  · rfl

theorem structNames_attach {declarations : List Declaration} (methods : List (String × String)) :
    structNames (attach methods declarations) = structNames declarations := by
  induction declarations generalizing methods with
  | nil => rfl
  | cons declaration declarations induction =>
      rw [attach_cons, structNames_cons]
      split
      next isStruct => simp only [structNames_cons, isStruct, if_true, induction]
      next noStruct => simp only [structNames_cons, noStruct, if_false, induction]

/-- Methods of other types are attached to nothing. -/
theorem attach_filter {p : String → Bool} {declarations : List Declaration}
    (methods : List (String × String)) (all : ∀ name ∈ structNames declarations, p name = true) :
    attach (methods.filter fun method => p method.1) declarations =
      attach methods declarations := by
  induction declarations generalizing methods with
  | nil => rfl
  | cons declaration declarations induction =>
      rw [structNames_cons] at all
      rw [attach_cons, attach_cons]
      split
      next isStruct =>
        rw [if_pos isStruct, List.forall_mem_cons] at all
        have own : (methods.filter fun method => p method.1).filter
            (fun method => method.1 = declaration.name) =
            methods.filter fun method => method.1 = declaration.name := by
          rw [List.filter_filter]
          refine List.filter_congr fun method _ => ?_
          by_cases named : method.1 = declaration.name
          · simp [named, all.1]
          · simp [named]
        rw [own, List.filter_filter]
        simp only [Bool.and_comm _ (p _)]
        rw [← List.filter_filter, induction _ all.2]
      next noStruct =>
        rw [if_neg noStruct] at all
        rw [induction _ all]

/-- Each method of a declared struct is one member more. -/
theorem countFound_attach {imports : List Import} {declarations : List Declaration}
    (methods : List (String × String)) :
    countFound imports (attach methods declarations) =
      countFound imports declarations +
        methods.countP fun method => (structNames declarations).contains method.1 := by
  induction declarations generalizing methods with
  | nil => simp [attach, structNames]
  | cons declaration declarations induction =>
      rw [attach_cons, structNames_cons]
      split
      next isStruct =>
        rw [countFound_cons, induction, countFound_cons, List.length_append, List.length_map,
          List.countP_eq_countP_filter_add methods _ fun method => method.1 = declaration.name]
        have own : (methods.filter fun method => method.1 = declaration.name).countP
            (fun method => (declaration.name :: structNames declarations).contains method.1) =
            (methods.filter fun method => method.1 = declaration.name).length := by
          refine List.countP_eq_length.mpr fun method member => ?_
          simp_all
        have others : (methods.filter fun method => !decide (method.1 = declaration.name)).countP
            (fun method => (declaration.name :: structNames declarations).contains method.1) =
            (methods.filter fun method => !decide (method.1 = declaration.name)).countP
              fun method => (structNames declarations).contains method.1 := by
          refine List.countP_congr fun method member => ?_
          simp_all
        rw [own, others]
        omega
      next noStruct =>
        rw [countFound_cons, induction, countFound_cons]
        omega

theorem entriesOf_attach {first second : List Declaration}
    (methods : List (String × String)) (same : entriesOf true first = entriesOf true second) :
    entriesOf true (attach methods first) = entriesOf true (attach methods second) := by
  induction first generalizing second methods with
  | nil =>
      cases second with
      | nil => rfl
      | cons => cases same
  | cons declaration declarations induction =>
      cases second with
      | nil => cases same
      | cons similar rest =>
          simp only [entriesOf, List.map_cons, List.cons.injEq] at same
          obtain ⟨heads, tails⟩ := same
          simp only [entryOf, Entry.mk.injEq] at heads
          obtain ⟨name, kind, members, line⟩ := heads
          rw [attach_cons, attach_cons, name, kind]
          split
          · simp only [entriesOf, List.map_cons, entryOf, members, line]
            exact congrArg _ (induction _ tails)
          · simp only [entriesOf, List.map_cons, entryOf, name, kind, members, line]
            exact congrArg _ (induction _ tails)

/-! ## Two readings -/

namespace Reading

variable {structs : List String} {reading first second : Reading} {raw line other : List Char}

theorem addMember_eq (name : List Char) : reading.addMember name =
    { reading with declarations := withMember (String.ofList name) reading.declarations } := by
  cases reading with
  | mk count before braces block imports declarations methods => cases declarations <;> rfl

/-- How much a reading grows by what is found on a line if the file declares these structs. -/
def gain (structs : List String) (reading : Reading) : Option Found → Nat
  | some (.imported _) | some (.declared _ _ _ _) => 1
  | some (.member _) => if reading.declarations = [] then 0 else 1
  | some (.method receiver _) => if structs.contains receiver then 1 else 0
  | none => 0

/-- How much has been found. -/
def size (structs : List String) (reading : Reading) : Nat :=
  countFound reading.imports reading.declarations +
    reading.methods.countP fun method => structs.contains method.1

theorem size_put (found : Option Found) :
    (reading.put found).size structs = reading.size structs + reading.gain structs found := by
  match found with
  | some (.imported _) =>
      simp only [put, addImport, size, gain, countFound, List.length_cons]
      omega
  | some (.declared _ _ _ _) =>
      simp only [put, declare, size, gain, countFound_cons, List.length_nil]
      omega
  | some (.member _) =>
      simp only [put, addMember_eq, size, gain, countFound_withMember]
      omega
  | some (.method _ _) =>
      simp only [put, size, gain, List.countP_cons]
      omega
  | none => rfl

/-- The methods of the structs. -/
def methodsOf (structs : List String) (reading : Reading) : List (String × String) :=
  reading.methods.filter fun method => structs.contains method.1

/-- Two readings of the same code, if the file declares these structs. -/
structure Alike (structs : List String) (first second : Reading) : Prop where
  count : first.count = second.count
  braces : first.braces = second.braces
  block : first.block = second.block
  imports : first.imports = second.imports
  entries : entriesOf true first.declarations = entriesOf true second.declarations
  methods : first.methodsOf structs = second.methodsOf structs

namespace Alike

theorem symm (alike : Alike structs first second) : Alike structs second first :=
  ⟨alike.count.symm, alike.braces.symm, alike.block.symm, alike.imports.symm, alike.entries.symm,
    alike.methods.symm⟩

theorem trans {third : Reading} (alike : Alike structs first second)
    (onwards : Alike structs second third) : Alike structs first third :=
  ⟨alike.count.trans onwards.count, alike.braces.trans onwards.braces,
    alike.block.trans onwards.block, alike.imports.trans onwards.imports,
    alike.entries.trans onwards.entries, alike.methods.trans onwards.methods⟩

theorem put (alike : Alike structs first second) (found : Option Found) :
    Alike structs (first.put found) (second.put found) := by
  match found with
  | some (.imported captures) =>
      refine ⟨alike.count, alike.braces, alike.block, ?_, alike.entries, alike.methods⟩
      simp only [Reading.put, addImport, Reading.line, alike.count, alike.imports]
  | some (.declared _ _ _ _) =>
      refine ⟨alike.count, alike.braces, alike.block, alike.imports, ?_, alike.methods⟩
      simp only [Reading.put, declare, entriesOf, List.map_cons, entryOf, Reading.line, alike.count]
      exact congrArg _ alike.entries
  | some (.member name) =>
      rw [Reading.put, Reading.put, addMember_eq, addMember_eq]
      exact ⟨alike.count, alike.braces, alike.block, alike.imports,
        entriesOf_withMember alike.entries, alike.methods⟩
  | some (.method receiver name) =>
      refine ⟨alike.count, alike.braces, alike.block, alike.imports, alike.entries, ?_⟩
      simp only [Reading.put, methodsOf, List.filter_cons]
      rw [← methodsOf, ← methodsOf, alike.methods]
  | none => exact alike

theorem advancing (alike : Alike structs first second)
    (braces : first.braces.advance line = second.braces.advance other) :
    Alike structs (first.advancing line) (second.advancing other) :=
  ⟨alike.count, braces, alike.block, alike.imports, alike.entries, alike.methods⟩

theorem passing {firstBefore secondBefore : Reading} (alike : Alike structs first second)
    (counts : firstBefore.count = secondBefore.count) (block : Option Block) :
    Alike structs (firstBefore.passing line (first.withBlock block))
      (secondBefore.passing other (second.withBlock block)) :=
  ⟨congrArg (· + 1) counts, alike.braces, rfl, alike.imports, alike.entries, alike.methods⟩

theorem take (alike : Alike structs first second) :
    Alike structs (first.take raw) (second.take raw) := by
  have reads : first.readsOf raw = second.readsOf raw := by
    rw [readsOf, readsOf, alike.braces, alike.block]
  rw [take_eq, take_eq, reads]
  exact (alike.advancing (by rw [alike.braces])).put _ |>.passing alike.count _

theorem foldl (alike : Alike structs first second) (lines : List (List Char)) :
    Alike structs (lines.foldl Reading.take first) (lines.foldl Reading.take second) :=
  List.foldl_rel alike fun _ _ _ _ onwards => onwards.take

end Alike

/-- What adds nothing leaves the code that is read alone. -/
theorem alike_put {found : Option Found} (nothing : reading.gain structs found = 0) :
    Alike structs (reading.put found) reading := by
  match found with
  | some (.imported _) | some (.declared _ _ _ _) => cases nothing
  | some (.member _) =>
      have empty : reading.declarations = [] := by
        by_contra declared
        simp [gain, declared] at nothing
      rw [put, addMember_eq]
      refine ⟨rfl, rfl, rfl, rfl, ?_, rfl⟩
      rw [empty, withMember]
  | some (.method receiver _) =>
      have noStruct : structs.contains receiver = false := by
        simpa [gain] using nothing
      refine ⟨rfl, rfl, rfl, rfl, rfl, ?_⟩
      simp only [put, methodsOf, List.filter_cons, noStruct, Bool.false_eq_true, if_false]
  | none => exact ⟨rfl, rfl, rfl, rfl, rfl, rfl⟩

/-- The first reading has found more, and will not find less. -/
structure Beyond (structs : List String) (first second : Reading) : Prop where
  braces : first.braces = second.braces
  block : first.block = second.block
  declared : first.declarations = [] → second.declarations = []
  named : structNames second.declarations ⊆ structNames first.declarations
  more : second.size structs < first.size structs

namespace Beyond

theorem gain_le (beyond : Beyond structs first second) (found : Option Found) :
    second.gain structs found ≤ first.gain structs found := by
  match found with
  | some (.imported _) | some (.declared _ _ _ _) | some (.method _ _) | none =>
      exact Nat.le_refl _
  | some (.member _) =>
      rw [gain, gain]
      split
      next => exact Nat.zero_le _
      next some => exact Nat.le_of_eq (if_neg fun none => some (beyond.declared none)).symm

theorem put (beyond : Beyond structs first second) (found : Option Found) :
    Beyond structs (first.put found) (second.put found) := by
  have more : (second.put found).size structs < (first.put found).size structs := by
    rw [size_put, size_put]
    exact Nat.add_lt_add_of_lt_of_le beyond.more (beyond.gain_le found)
  match found with
  | some (.imported _) | some (.method _ _) | none =>
      exact ⟨beyond.braces, beyond.block, beyond.declared, beyond.named, more⟩
  | some (.declared _ _ _ _) =>
      refine ⟨beyond.braces, beyond.block, nofun, ?_, more⟩
      simp only [Reading.put, declare, structNames_cons]
      split
      · exact List.cons_subset_cons _ beyond.named
      · exact beyond.named
  | some (.member _) =>
      simp only [Reading.put, addMember_eq] at more ⊢
      refine ⟨beyond.braces, beyond.block, ?_, ?_, more⟩
      · rw [withMember_eq_nil_iff, withMember_eq_nil_iff]
        exact beyond.declared
      · rw [structNames_withMember, structNames_withMember]
        exact beyond.named

theorem advancing (beyond : Beyond structs first second)
    (braces : first.braces.advance line = second.braces.advance other) :
    Beyond structs (first.advancing line) (second.advancing other) :=
  ⟨braces, beyond.block, beyond.declared, beyond.named, beyond.more⟩

theorem passing {firstBefore secondBefore : Reading} (beyond : Beyond structs first second)
    (block : Option Block) :
    Beyond structs (firstBefore.passing line (first.withBlock block))
      (secondBefore.passing other (second.withBlock block)) :=
  ⟨beyond.braces, rfl, beyond.declared, beyond.named, beyond.more⟩

theorem take (beyond : Beyond structs first second) :
    Beyond structs (first.take raw) (second.take raw) := by
  have reads : first.readsOf raw = second.readsOf raw := by
    rw [readsOf, readsOf, beyond.braces, beyond.block]
  rw [take_eq, take_eq, reads]
  exact (beyond.advancing (by rw [beyond.braces])).put _ |>.passing _

theorem foldl (beyond : Beyond structs first second) (lines : List (List Char)) :
    Beyond structs (lines.foldl Reading.take first) (lines.foldl Reading.take second) :=
  List.foldl_rel beyond fun _ _ _ _ onwards => onwards.take

end Beyond

/-! ## Lines inside of comments -/

/-- What a line inside of a comment does in a file that declares these structs. -/
def effect (structs : List String) (reading : Reading) (raw : List Char) : Effect :=
  if (reading.readsOf raw).2 ≠ (reading.readsOf []).2 then .turning
  else if reading.gain structs (reading.readsOf raw).1 = 0 then .nothing
  else .finding

/-- What adds something leaves a reading that is beyond. -/
theorem beyond_put {found : Option Found} (something : reading.gain structs found ≠ 0) :
    Beyond structs (reading.put found) reading := by
  have more : reading.size structs < (reading.put found).size structs := by
    rw [size_put]
    omega
  match found with
  | some (.imported _) | some (.method _ _) => exact ⟨rfl, rfl, id, List.Subset.refl _, more⟩
  | some (.declared _ _ _ _) =>
      refine ⟨rfl, rfl, nofun, ?_, more⟩
      simp only [put, declare, structNames_cons]
      split
      · exact List.subset_cons_self _ _
      · exact List.Subset.refl _
  | some (.member _) =>
      simp only [put, addMember_eq] at more ⊢
      exact ⟨rfl, rfl, withMember_eq_nil_iff.mp, structNames_withMember ▸ List.Subset.refl _, more⟩
  | none => exact absurd rfl something

theorem Beyond.of_alike {third : Reading} (beyond : Beyond structs first second)
    (alike : Alike structs second third) : Beyond structs first third where
  braces := beyond.braces.trans alike.braces
  block := beyond.block.trans alike.block
  declared empty := by
    have same := alike.entries
    rw [beyond.declared empty] at same
    exact List.map_eq_nil_iff.mp same.symm
  named := structNames_congr alike.entries ▸ beyond.named
  more := by
    have size : second.size structs = third.size structs := by
      rw [Reading.size, Reading.size, List.countP_eq_length_filter, List.countP_eq_length_filter,
        ← methodsOf, ← methodsOf, alike.methods, countFound_congr alike.imports alike.entries]
    exact size ▸ beyond.more

/-- Of two lines inside of a comment that leave blocks alone, nothing is found on the second one,
so the readings differ exactly by what is found on the first. -/
theorem alike_or_beyond (inComment : reading.braces.inComment = true)
    (lineGoesOn : isInfix ['*', '/'] line = false) (otherGoesOn : isInfix ['*', '/'] other = false)
    (lineStays : reading.effect structs line ≠ .turning)
    (otherNothing : reading.effect structs other = .nothing) :
    reading.effect structs line = .nothing ∧
        Alike structs (reading.take line) (reading.take other) ∨
      reading.effect structs line ≠ .nothing ∧
        Beyond structs (reading.take line) (reading.take other) := by
  have kept {raw : List Char} (goesOn : isInfix ['*', '/'] raw = false) :
      reading.advancing raw = reading := by
    rw [advancing, Braces.advance_of_inComment inComment goesOn]
  have lineBlock : (reading.readsOf line).2 = (reading.readsOf []).2 := by
    by_contra turned
    exact lineStays (if_pos turned)
  have otherBlock : (reading.readsOf other).2 = (reading.readsOf []).2 := by
    by_contra turned
    rw [effect, if_pos turned] at otherNothing
    cases otherNothing
  have otherGain : reading.gain structs (reading.readsOf other).1 = 0 := by
    by_contra something
    rw [effect, if_neg (not_not.mpr otherBlock), if_neg something] at otherNothing
    cases otherNothing
  rw [take_eq, take_eq, kept lineGoesOn, kept otherGoesOn, lineBlock, otherBlock, effect,
    if_neg (not_not.mpr lineBlock)]
  have other : Alike structs reading (reading.put (reading.readsOf other).1) :=
    (alike_put otherGain).symm
  by_cases nothing : reading.gain structs (reading.readsOf line).1 = 0
  · rw [if_pos nothing]
    exact .inl ⟨rfl, ((alike_put nothing).trans other).passing rfl _⟩
  · rw [if_neg nothing]
    exact .inr ⟨nofun, ((beyond_put nothing).of_alike other).passing _⟩

/-- The declarations of a file that has been read. -/
def attached (reading : Reading) : List Declaration :=
  attach reading.methods.reverse reading.declarations.reverse

theorem structNames_reverse {declarations : List Declaration} :
    structNames declarations.reverse = (structNames declarations).reverse := by
  rw [structNames, List.filter_reverse, List.map_reverse, structNames]

theorem structNames_attached :
    structNames reading.attached = (structNames reading.declarations).reverse := by
  rw [attached, structNames_attach, structNames_reverse]

theorem Alike.entriesOf_attached (alike : Alike structs first second)
    (named : structs = structNames second.attached) :
    entriesOf true first.attached = entriesOf true second.attached := by
  have reversed := congrArg List.reverse alike.entries
  rw [entriesOf, entriesOf, ← List.map_reverse, ← List.map_reverse] at reversed
  have kept (reading : Reading) :
      attach (reading.methodsOf structs).reverse second.declarations.reverse =
        attach reading.methods.reverse second.declarations.reverse := by
    rw [methodsOf, ← List.filter_reverse]
    refine attach_filter _ fun name member => ?_
    rw [named, attached, structNames_attach]
    exact List.contains_iff_mem.mpr member
  rw [attached, attached, Go.entriesOf_attach _ reversed, ← kept first, ← kept second,
    alike.methods]

theorem countFound_attached : countFound reading.imports.reverse reading.attached =
    reading.size (structNames reading.attached) := by
  rw [attached, countFound_attach, countFound_reverse, List.countP_reverse, structNames_attach,
    size]

theorem size_mono {more : List String} (among : structs ⊆ more) :
    reading.size structs ≤ reading.size more := by
  refine Nat.add_le_add_left (List.countP_mono_left fun method _ member => ?_) _
  exact List.contains_iff_mem.mpr (among (List.contains_iff_mem.mp member))

end Reading

/-- Inside of a comment a line for another one, on which nothing is found, changes the code that is
read exactly if something is found on it, unless it opens or closes a block. -/
theorem codeOf_eq_iff {first second : String} {before after : List (List Char)}
    {line other : List Char} {structs : List String}
    (firstLines : lines first.toList = before ++ line :: after)
    (secondLines : lines second.toList = before ++ other :: after)
    (inComment : (before.foldl Braces.advance .start).inComment = true)
    (lineGoesOn : isInfix ['*', '/'] line = false) (otherGoesOn : isInfix ['*', '/'] other = false)
    (named : structs = structNames (outline second).declarations)
    (lineStays : (before.foldl Reading.take .start).effect structs line ≠ .turning)
    (otherNothing : (before.foldl Reading.take .start).effect structs other = .nothing) :
    codeOf (outline first) = codeOf (outline second) ↔
      (before.foldl Reading.take .start).effect structs line = .nothing := by
  have read {text : String} {line : List Char}
      (textLines : lines text.toList = before ++ line :: after) :
      (outline text).imports = (after.foldl Reading.take
          ((before.foldl Reading.take .start).take line)).imports.reverse ∧
        (outline text).declarations = (after.foldl Reading.take
          ((before.foldl Reading.take .start).take line)).attached := by
    rw [outline, textLines, List.foldl_append, List.foldl_cons]
    exact ⟨rfl, rfl⟩
  obtain ⟨firstImports, firstDeclarations⟩ := read firstLines
  obtain ⟨secondImports, secondDeclarations⟩ := read secondLines
  rw [codeOf, codeOf, firstImports, firstDeclarations, secondImports, secondDeclarations]
  rw [secondDeclarations] at named
  have readingInComment :
      (before.foldl Reading.take .start).braces.inComment = true := by
    rw [Reading.braces_foldl]
    exact inComment
  rcases Reading.alike_or_beyond readingInComment lineGoesOn otherGoesOn lineStays otherNothing with
    ⟨nothing, alike⟩ | ⟨something, beyond⟩
  · have final := alike.foldl after
    rw [final.imports, final.entriesOf_attached named]
    exact iff_of_true rfl nothing
  · have final := beyond.foldl after
    refine iff_of_false (fun same => ?_) something
    obtain ⟨imports, entries⟩ := Prod.mk.inj same
    have counted := countFound_congr imports entries
    rw [Reading.countFound_attached, Reading.countFound_attached, ← named] at counted
    refine Nat.ne_of_gt (Nat.lt_of_lt_of_le final.more (Reading.size_mono ?_)) counted
    rw [named, Reading.structNames_attached, Reading.structNames_attached]
    simpa using final.named

end CodeAtlas.Source.Go
