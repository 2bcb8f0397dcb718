import CodeAtlas.Proofs.Graph.Document
import CodeAtlas.Proofs.Store.Home
import CodeAtlas.Proofs.Store.Migration

/-!
# The graph document of a project

A graph that is saved is loaded again.  Its document embeds no learnings, so that nothing is moved
out of it when the graph is saved anew.
-/

namespace CodeAtlas

/-- The document of a graph has no member for learnings. -/
theorem Graph.member?_toJson_legacyKey (graph : Graph) :
    graph.toJson.member? Store.legacyKey = none := by
  simp [Graph.toJson, Json.member?, Store.legacyKey, List.lookup_cons]

namespace Store

variable {store : Store} {disk before after : Disk} {base : List String} {graph : Graph}
  {text project : String} {now : Instant}

/-! ## What depends on a document -/

theorem readValue_congr {path : String} (same : after.readText path = before.readText path) :
    readValue after path = readValue before path := by
  rw [readValue, readValue, readDocument, readDocument, same]

theorem readAs_congr {α : Type} {kind : DocumentKind} {decode : Json → Option α} {path : String}
    (same : after.readText path = before.readText path) :
    readAs kind decode after path = readAs kind decode before path := by
  rw [readAs, readAs, readDocument, readDocument, same]

theorem loadGraph_congr (same : after.readText store.graphPath = before.readText store.graphPath) :
    store.loadGraph after = store.loadGraph before := by
  rw [loadGraph, loadGraph, readValue_congr same]

theorem loadKnowledge_congr
    (same : after.readText store.knowledgePath = before.readText store.knowledgePath) :
    store.loadKnowledge after project now = store.loadKnowledge before project now := by
  rw [loadKnowledge, loadKnowledge, readAs_congr same]

namespace IsHome

variable {document : Document} (home : store.IsHome before base)
  (touches : Touches document base before after)

include home touches

theorem touched : store.IsHome after base := home.keeps touches.keeps touches.tree

theorem readText_of_ne (other : Document) (different : other ≠ document) :
    after.readText (other.path store) = before.readText (other.path store) := by
  rw [(home.touched touches).readText_eq, home.readText_eq]
  exact touches.text_of_ne home.tree home.named other different

theorem loadGraph_of_ne (different : .graph ≠ document) :
    store.loadGraph after = store.loadGraph before :=
  loadGraph_congr (home.readText_of_ne touches .graph different)

theorem loadKnowledge_of_ne (different : .knowledge ≠ document) :
    store.loadKnowledge after project now = store.loadKnowledge before project now :=
  loadKnowledge_congr (home.readText_of_ne touches .knowledge different)

end IsHome

/-! ## Graphs that were written -/

theorem loadGraph_of_written (representable : graph.IsRepresentable)
    (document : disk.readText store.graphPath = .ok graph.toJson.pretty) :
    store.loadGraph disk = .ok (some graph) := by
  obtain ⟨value, isValue, decoded⟩ :=
    Option.bind_eq_some_iff.mp (Graph.ofJson?_ofText_pretty representable)
  rw [loadGraph, readValue_eq_ok_some_iff.mpr ⟨_, document, isValue⟩]
  simp only [bind, Except.bind, decoded]
  rfl

theorem embedsNothing_of_written (representable : graph.IsRepresentable)
    (document : disk.readText store.graphPath = .ok graph.toJson.pretty) :
    store.EmbedsNothing disk :=
  embedsNothing_of_readText document (Graph.isStorable_toJson representable) (by simp)
    graph.member?_toJson_legacyKey

theorem embedsNothing_of_missing (absent : disk.readText store.graphPath = .error .missing) :
    store.EmbedsNothing disk := by
  refine .inl ?_
  rw [readValue, readDocument, absent]
  rfl

/-- Where nothing is embedded, saving a graph writes its document. -/
theorem runOn_saveGraph_of_embedsNothing (nothing : store.EmbedsNothing disk) (graph : Graph)
    (now : Instant) : (store.saveGraph graph now).runOn disk =
      (writeDocument store.graphPath graph.toJson now).runOn disk := by
  rw [saveGraph, DiskAction.runOn_bind, runOn_migrateLegacyKnowledge_of_embedsNothing nothing]

/-! ## After migration -/

/-- Migration that succeeds leaves a tree in which nothing is embedded and no directory is new. -/
theorem migrated_of_success {report : Migration} (tree : disk.IsTree)
    (success : (store.migrateLegacyKnowledge now).runOn disk = (.ok report, after)) :
    after.IsTree ∧ after.KeepsDirectories disk ∧ store.EmbedsNothing after := by
  obtain ⟨nothing, rfl⟩ | ⟨graph, legacy, learnings, knowledge, reached, embeds, ready, rfl⟩ :=
    embedsNothing_or_embeds_of_success success
  · exact ⟨tree, ⟨rfl, id⟩, nothing⟩
  · let plan := planOf graph learnings knowledge now
    have named := Disk.locate_names ready.located tree.working
    have adopted := ready.adoptedOn plan now
    have firstTree : (adoptedOn disk reached plan now).IsTree :=
      tree.replaced named isEntryName_knowledge ready.isDirectory (ready.free _ mem_knowledge) _ now
    refine ⟨firstTree.replaced named isEntryName_graph adopted.isDirectory
      (adopted.free _ mem_graph) _ now, ?_,
      embeds.embedsNothing (ready.readText_migratedOn plan now).1⟩
    exact (Disk.keepsDirectories_of_replaced ..).trans (Disk.keepsDirectories_of_replaced ..)

/-- Migration that succeeds leaves knowledge that can be written if the knowledge before was
finite. -/
theorem isFinite_of_migrated {report : Migration} (valid : now.IsValid)
    (finite : ∀ project knowledge, store.loadKnowledge disk project now = .ok knowledge →
      knowledge.IsFinite)
    (success : (store.migrateLegacyKnowledge now).runOn disk = (.ok report, after))
    {knowledge : Knowledge} (loaded : store.loadKnowledge after project now = .ok knowledge) :
    knowledge.IsFinite := by
  obtain ⟨-, rfl⟩ | ⟨graph, legacy, learnings, held, reached, embeds, ready, rfl⟩ :=
    embedsNothing_or_embeds_of_success success
  · exact finite project knowledge loaded
  · have document := (ready.readText_migratedOn (planOf graph learnings held now) now).2
    obtain ⟨representable, limited, isFinite⟩ :=
      embeds.isSound_plan valid (finite _ _ embeds.isKnowledge)
    rw [loadKnowledge_of_written document valid representable limited isFinite] at loaded
    cases loaded
    exact isFinite

end Store

end CodeAtlas
