import CodeAtlas.Proofs.Indexing.Assembly
import CodeAtlas.Proofs.Instant
import CodeAtlas.Proofs.Json.Storable
import CodeAtlas.Proofs.Knowledge.Document
import CodeAtlas.Store

/-!
# The document of a graph

A graph that is written is kept as a value and read back as it was.  The document has no member
for learnings.
-/

namespace CodeAtlas

open Json

/-! ## Values of which documents are made -/

namespace Json

variable {limit : Nat}

theorem isStorable_ofNat {value : Nat} (fits : value < 2 ^ 64) : (ofNat value).IsStorable limit :=
  .number limit ⟨by omega, by omega⟩

theorem isStorable_ofList {α : Type} {encode : α → Json} {items : List α}
    (kept : ∀ item ∈ items, (encode item).IsStorable limit) :
    (array (items.map encode)).IsStorable (limit + 1) := by
  refine .array fun value member => ?_
  obtain ⟨item, isItem, rfl⟩ := List.mem_map.mp member
  exact kept item isItem

theorem isStorable_ofStrings (texts : List String) : (ofStrings texts).IsStorable (limit + 1) :=
  isStorable_ofList fun text _ => .string limit text

theorem isStorable_ofKeyed {α : Type} {encode : α → Json} {map : Keyed α}
    (kept : ∀ value ∈ map.values, (encode value).IsStorable limit) :
    (ofKeyed encode map).IsStorable (limit + 1) := by
  refine .object fun member isMember => ?_
  obtain ⟨entry, isEntry, rfl⟩ := List.mem_map.mp isMember
  exact kept entry.2 (List.mem_map_of_mem isEntry)

end Json

variable {carry : Json → Json} {limit : Nat}

theorem Language.ofJson?_carry (carries : Carries carry) (language : Language) :
    Language.ofJson? (carry language.toJson) = some language := by
  rw [Language.ofJson?, Language.toJson, carries.asChoice?]
  exact Language.ofName?_name language

theorem InterfaceKind.ofJson?_carry (carries : Carries carry) (kind : InterfaceKind) :
    InterfaceKind.ofJson? (carry kind.toJson) = some kind := by
  rw [InterfaceKind.ofJson?, InterfaceKind.toJson, carries.asChoice?]
  exact InterfaceKind.ofName?_name kind

theorem EdgeKind.ofJson?_carry (carries : Carries carry) (kind : EdgeKind) :
    EdgeKind.ofJson? (carry kind.toJson) = some kind := by
  rw [EdgeKind.ofJson?, EdgeKind.toJson, carries.asChoice?]
  exact EdgeKind.ofName?_name kind

/-- A list of texts that is left out when it is empty is read as the empty list then. -/
theorem Json.Carries.defaulted_nonEmptyStrings (carries : Carries carry) {names : List String}
    {before after : List (String × Json)} {record : Record} {name : String} {texts : List String}
    (holds : Carries.Holds carry names (before ++ (nonEmptyStrings name texts ++ after)) record)
    (known : name ∈ names) (elsewhere : name ∉ before.map (·.1) ∧ name ∉ after.map (·.1)) :
    record.defaulted name [] Json.asStrings? = some texts := by
  cases texts with
  | nil =>
      refine holds.defaulted_absent _ _ known ?_
      rw [List.map_append, List.map_append, List.mem_append, List.mem_append]
      rintro (inBefore | none | inAfter)
      · exact elsewhere.1 inBefore
      · cases none
      · exact elsewhere.2 inAfter
  | cons text rest =>
      exact holds.defaulted name [] known
        (List.mem_append_right _ (List.mem_append_left _ List.mem_cons_self))
        (carries.asStrings? (text :: rest))

/-! ## Interfaces and edges -/

theorem distinct_nonEmptyStrings {before after : List (String × Json)} {name : String}
    {texts : List String} (distinct : ((before ++ (name, .null) :: after).map (·.1)).Nodup) :
    ((before ++ (nonEmptyStrings name texts ++ after)).map (·.1)).Nodup := by
  cases texts with
  | nil =>
      refine distinct.sublist (List.Sublist.map _ ?_)
      exact (List.sublist_cons_self _ _).append_left before
  | cons text rest =>
      have same : ((before ++ (nonEmptyStrings name (text :: rest) ++ after)).map (·.1)) =
          (before ++ (name, .null) :: after).map (·.1) := by
        rw [List.map_append, List.map_append, List.map_append]
        rfl
      rwa [same]

namespace Interface

variable {interface : Interface}

theorem ofJson?_carry (carries : Carries carry) (line : interface.line < 2 ^ 32) :
    ofJson? (carry interface.toJson) = some interface := by
  obtain ⟨record, isRecord, holds⟩ := carries.record?
    ([("name", .string interface.name), ("kind", interface.kind.toJson),
      ("signature", .string interface.signature), ("doc", .string interface.doc)] ++
      (nonEmptyStrings "members" interface.members ++ [("line", .ofNat interface.line)]))
    (distinct_nonEmptyStrings (by simp)) ["name", "kind", "signature", "doc", "members", "line"]
  have name := holds.required "name" (by simp) (by simp) (carries.asString? interface.name)
  have kind := holds.required "kind" (by simp) (by simp)
    (InterfaceKind.ofJson?_carry carries interface.kind)
  have signature := holds.required "signature" (by simp) (by simp)
    (carries.asString? interface.signature)
  have doc := holds.defaulted "doc" "" (by simp) (by simp) (carries.asString? interface.doc)
  have members := carries.defaulted_nonEmptyStrings holds (by simp) (by simp)
  have position := holds.required "line" (by simp) (by simp) (carries.asNat32? line)
  rw [ofJson?, toJson, List.append_assoc, isRecord]
  simp only [Option.bind_eq_bind, Option.bind_some, name, kind, signature, doc, members, position]
  rfl

end Interface

theorem Json.forall_nonEmptyStrings {holds : Json → Prop} {name : String} {texts : List String}
    (all : holds (.ofStrings texts)) : ∀ member ∈ nonEmptyStrings name texts, holds member.2 := by
  cases texts with
  | nil => exact nofun
  | cons text rest =>
      intro member isMember
      cases List.mem_singleton.mp isMember
      exact all

theorem Interface.isStorable_toJson {interface : Interface} (line : interface.line < 2 ^ 32) :
    interface.toJson.IsStorable (limit + 2) := by
  refine .object fun member isMember => ?_
  rw [List.mem_append, List.mem_append] at isMember
  obtain (first | members) | last := isMember
  · simp only [List.mem_cons, List.not_mem_nil, or_false] at first
    rcases first with rfl | rfl | rfl | rfl <;> exact .string _ _
  · exact forall_nonEmptyStrings (isStorable_ofStrings _) member members
  · cases List.mem_singleton.mp last
    exact isStorable_ofNat (line.trans (by decide))

theorem Edge.ofJson?_carry (carries : Carries carry) (edge : Edge) :
    Edge.ofJson? (carry edge.toJson) = some edge := by
  obtain ⟨record, isRecord, holds⟩ := carries.record?
    ([("source", .string edge.source), ("target", .string edge.target),
      ("kind", edge.kind.toJson)] ++ (nonEmptyStrings "specifics" edge.specifics ++ []))
    (distinct_nonEmptyStrings (by simp)) ["source", "target", "kind", "specifics"]
  have source := holds.required "source" (by simp) (by simp) (carries.asString? edge.source)
  have target := holds.required "target" (by simp) (by simp) (carries.asString? edge.target)
  have kind := holds.required "kind" (by simp) (by simp) (EdgeKind.ofJson?_carry carries edge.kind)
  have specifics := carries.defaulted_nonEmptyStrings holds (by simp) (by simp)
  rw [List.append_nil] at isRecord
  rw [Edge.ofJson?, Edge.toJson, isRecord]
  simp only [Option.bind_eq_bind, Option.bind_some, source, target, kind, specifics]
  rfl

theorem Edge.isStorable_toJson (edge : Edge) : edge.toJson.IsStorable (limit + 2) := by
  refine .object fun member isMember => ?_
  obtain first | specifics := List.mem_append.mp isMember
  · simp only [List.mem_cons, List.not_mem_nil, or_false] at first
    rcases first with rfl | rfl | rfl <;> exact .string _ _
  · exact forall_nonEmptyStrings (isStorable_ofStrings _) member specifics

/-! ## Modules -/

theorem lineNumber_lt (count : Nat) : lineNumber count < 2 ^ 32 :=
  Nat.mod_lt _ (Nat.two_pow_pos 32)

namespace Module

/-- Lines are counted in 32 bits. -/
structure IsRepresentable (module : Module) : Prop where
  lines : module.lines < 2 ^ 32
  interfaces : ∀ interface ∈ module.interfaces, interface.line < 2 ^ 32

variable {module : Module}

theorem ofJson?_carry (carries : Carries carry) (representable : module.IsRepresentable) :
    ofJson? (carry module.toJson) = some module := by
  obtain ⟨record, isRecord, holds⟩ := carries.record?
    [("path", .string module.path), ("language", module.language.toJson),
      ("lines", .ofNat module.lines), ("summary", .string module.summary),
      ("interfaces", .array (module.interfaces.map Interface.toJson)),
      ("internal_deps", .ofStrings module.internalDeps),
      ("external_deps", .ofStrings module.externalDeps)]
    (by simp)
    ["path", "language", "lines", "summary", "interfaces", "internal_deps", "external_deps"]
  have path := holds.required "path" (by simp) (by simp) (carries.asString? module.path)
  have language := holds.required "language" (by simp) (by simp)
    (Language.ofJson?_carry carries module.language)
  have lines := holds.required "lines" (by simp) (by simp) (carries.asNat32? representable.lines)
  have summary := holds.required "summary" (by simp) (by simp)
    (carries.asString? module.summary)
  have interfaces := holds.required "interfaces" (by simp) (by simp)
    (carries.asList? fun interface member =>
      Interface.ofJson?_carry carries (representable.interfaces interface member))
  have internal := holds.required "internal_deps" (by simp) (by simp)
    (carries.asStrings? module.internalDeps)
  have external := holds.required "external_deps" (by simp) (by simp)
    (carries.asStrings? module.externalDeps)
  rw [ofJson?, toJson, isRecord]
  simp only [Option.bind_eq_bind, Option.bind_some, path, language, lines, summary, interfaces,
    internal, external]
  rfl

theorem isStorable_toJson (representable : module.IsRepresentable) :
    module.toJson.IsStorable (limit + 4) := by
  refine .object fun member isMember => ?_
  simp only [List.mem_cons, List.not_mem_nil, or_false] at isMember
  rcases isMember with rfl | rfl | rfl | rfl | rfl | rfl | rfl
  · exact .string _ _
  · exact .string _ _
  · exact isStorable_ofNat (representable.lines.trans (by decide))
  · exact .string _ _
  · exact isStorable_ofList fun interface member =>
      Interface.isStorable_toJson (representable.interfaces interface member)
  · exact isStorable_ofStrings _
  · exact isStorable_ofStrings _

end Module

/-! ## Graphs -/

namespace Graph

/-- All parts can be held by a document. -/
structure IsRepresentable (graph : Graph) : Prop where
  version : graph.version < 2 ^ 32
  indexedAt : graph.indexedAt.IsValid
  modules : ∀ module ∈ graph.modules.values, module.IsRepresentable

variable {graph : Graph}

/-- A graph that is written is read back. -/
theorem ofJson?_carry (carries : Carries carry) (representable : graph.IsRepresentable) :
    ofJson? (carry graph.toJson) = some graph := by
  obtain ⟨record, isRecord, holds⟩ := carries.record?
    [("project", .string graph.project), ("version", .ofNat graph.version),
      ("indexed_at", graph.indexedAt.toJson), ("modules", .ofKeyed Module.toJson graph.modules),
      ("edges", .array (graph.edges.map Edge.toJson))]
    (by simp) ["project", "version", "indexed_at", "modules", "edges"]
  have project := holds.required "project" (by simp) (by simp)
    (carries.asString? graph.project)
  have version := holds.required "version" (by simp) (by simp)
    (carries.asNat32? representable.version)
  have time := holds.required "indexed_at" (by simp) (by simp)
    (Instant.ofJson?_carry carries representable.indexedAt)
  have modules := holds.required "modules" (by simp) (by simp)
    (carries.asKeyed? fun module member =>
      Module.ofJson?_carry carries (representable.modules module member))
  have edges := holds.required "edges" (by simp) (by simp)
    (carries.asList? fun edge (_ : edge ∈ graph.edges) => Edge.ofJson?_carry carries edge)
  rw [ofJson?, toJson, isRecord]
  simp only [Option.bind_eq_bind, Option.bind_some, project, version, time, modules, edges]
  rfl

theorem isStorable_toJson (representable : graph.IsRepresentable) :
    graph.toJson.IsStorable (limit + 6) := by
  refine .object fun member isMember => ?_
  simp only [List.mem_cons, List.not_mem_nil, or_false] at isMember
  rcases isMember with rfl | rfl | rfl | rfl | rfl
  · exact .string _ _
  · exact isStorable_ofNat (representable.version.trans (by decide))
  · exact .string _ _
  · exact isStorable_ofKeyed fun module member =>
      Module.isStorable_toJson (representable.modules module member)
  · exact isStorable_ofList fun edge _ => edge.isStorable_toJson

/-- The document of a graph, kept as a value and read. -/
theorem ofJson?_ofText_pretty (representable : graph.IsRepresentable) :
    (Json.ofText graph.toJson.pretty).bind ofJson? = some graph := by
  have storable : graph.toJson.IsStorable depthLimit := isStorable_toJson representable
  rw [storable.ofText_pretty, Option.bind_some,
    ofJson?_carry carries_merged_reread representable]

/-! ## Graphs of files -/

/-- The graph of files can be written. -/
theorem isRepresentable_ofFiles {project : String} {now : Instant} {index : FileIndex}
    {files : List ReadFile} (valid : now.IsValid) :
    (ofFiles project now index files).IsRepresentable where
  version := by
    rw [ofFiles, foldl_addFile]
    exact Nat.one_lt_two_pow (by decide)
  indexedAt := by
    rw [ofFiles, foldl_addFile]
    exact valid
  modules := by
    intro module member
    obtain ⟨path, isModule⟩ := Keyed.mem_values_iff.mp member
    obtain ⟨file, -, -, rfl⟩ := exists_file_of_module? isModule
    refine ⟨lineNumber_lt _, fun interface isInterface => ?_⟩
    obtain ⟨declaration, -, rfl⟩ := List.mem_map.mp isInterface
    exact lineNumber_lt _

end Graph

end CodeAtlas
