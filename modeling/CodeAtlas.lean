import CodeAtlas.Number.Decimal
import CodeAtlas.Text.Case
import CodeAtlas.Keyed
import CodeAtlas.Json.Writer
import CodeAtlas.Json.Reader
import CodeAtlas.Json.Record
import CodeAtlas.Instant
import CodeAtlas.Language
import CodeAtlas.Graph.Ordering
import CodeAtlas.Graph.Impact
import CodeAtlas.Toml.Reader
import CodeAtlas.Settings
import CodeAtlas.Registry
import CodeAtlas.Digest
import CodeAtlas.CodeReference
import CodeAtlas.Knowledge
import CodeAtlas.Feature
import CodeAtlas.Store
import CodeAtlas.Source.Outline
import CodeAtlas.Source.Comment
import CodeAtlas.Source.Lexeme
import CodeAtlas.Source.Indented.Outline
import CodeAtlas.Source.Nesting
import CodeAtlas.Source.Sibling
import CodeAtlas.Source.Crate.Lexer
import CodeAtlas.Source.Crate.Item
import CodeAtlas.Source.Crate.Use
import CodeAtlas.Source.Crate.Outline
import CodeAtlas.Source.Script.Lexer
import CodeAtlas.Source.Script.Statement
import CodeAtlas.Source.Script.Import
import CodeAtlas.Source.Script.Member
import CodeAtlas.Source.Script.Variable
import CodeAtlas.Source.Script.Outline
import CodeAtlas.Text.Pattern
import CodeAtlas.Source.Braces
import CodeAtlas.Source.Go
import CodeAtlas.Source.Java
import CodeAtlas.Source.CFamily
import CodeAtlas.Source.Reader
import CodeAtlas.Standard
import CodeAtlas.FileIndex
import CodeAtlas.Resolution.Basic
import CodeAtlas.Resolution.Dotted
import CodeAtlas.Resolution.Crate
import CodeAtlas.Resolution.Script
import CodeAtlas.Resolution.Native
import CodeAtlas.Resolution.Import
import CodeAtlas.Search.Token
import CodeAtlas.Search.Ranking
import CodeAtlas.Extraction
import CodeAtlas.Transplant
import CodeAtlas.Walk
import CodeAtlas.Indexing
import CodeAtlas.Command.Run
import CodeAtlas.Command.Usage
import CodeAtlas.Disk.Change
import CodeAtlas.Main
import CodeAtlas.Proofs.Graph.Reachability
import CodeAtlas.Proofs.Graph.Order
import CodeAtlas.Proofs.CodeReference
import CodeAtlas.Proofs.FirstOccurrence
import CodeAtlas.Proofs.Extraction
import CodeAtlas.Proofs.Indexing.Assembly
import CodeAtlas.Proofs.Indexing.Consistency
import CodeAtlas.Proofs.Indexing.Locality
import CodeAtlas.Proofs.Indexing.ReadBack
import CodeAtlas.Proofs.Indexing.Coverage
import CodeAtlas.Proofs.Instant
import CodeAtlas.Proofs.Json.Literal
import CodeAtlas.Proofs.Json.Scan
import CodeAtlas.Proofs.Number.Boundary
import CodeAtlas.Proofs.Number.ReadBack
import CodeAtlas.Proofs.Disk.Directories
import CodeAtlas.Proofs.Disk.Replace
import CodeAtlas.Proofs.Json.Carry
import CodeAtlas.Proofs.Json.Read
import CodeAtlas.Proofs.Knowledge.Confidence
import CodeAtlas.Proofs.Knowledge.Document
import CodeAtlas.Proofs.Knowledge.Read
import CodeAtlas.Proofs.Store.Document
import CodeAtlas.Proofs.Store.Reload
import CodeAtlas.Proofs.Disk.Outside
import CodeAtlas.Proofs.Command.Failure
import CodeAtlas.Proofs.Command.History
import CodeAtlas.Proofs.Graph.Document
import CodeAtlas.Proofs.Knowledge.Timeless
import CodeAtlas.Proofs.Store.Crash
import CodeAtlas.Proofs.Store.Persistence
import CodeAtlas.Proofs.Store.Reindex
import CodeAtlas.Proofs.Store.Saves
import CodeAtlas.Proofs.Resolution.Files
import CodeAtlas.Proofs.Knowledge.Staleness
import CodeAtlas.Proofs.Transplant
import CodeAtlas.Proofs.Graph.Impact
import CodeAtlas.Proofs.Resolution.Dotted
import CodeAtlas.Proofs.Resolution.Script
import CodeAtlas.Proofs.Source.Crate.Use
import CodeAtlas.Proofs.Resolution.CrateRoot
import CodeAtlas.Proofs.Resolution.ClassFile
import CodeAtlas.Proofs.Source.CFamily.Placement
import CodeAtlas.Proofs.Source.Comment
import CodeAtlas.Proofs.Freshness
import CodeAtlas.Proofs.Search.Ranking
import CodeAtlas.Proofs.Search.Relevance
import CodeAtlas.Proofs.Source.WellFormed
import CodeAtlas.Proofs.Search.Naming
import CodeAtlas.Proofs.Store.Version
import CodeAtlas.Proofs.LineRange
import CodeAtlas.Proofs.Store.Confinement
import CodeAtlas.Proofs.Graph.View
import CodeAtlas.Proofs.Source.Java.Header
import CodeAtlas.Proofs.Source.Java.Bases
import CodeAtlas.Proofs.Source.Java.ClassLine
