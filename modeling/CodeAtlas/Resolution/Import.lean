import CodeAtlas.Resolution.Native
import CodeAtlas.Resolution.Dotted
import CodeAtlas.Resolution.Crate
import CodeAtlas.Resolution.Script

/-!
# Resolving imports of all languages
-/

namespace CodeAtlas.Import

/-- Where an import of a file in a language leads. -/
def resolve (language : Language) (importer : String) (index : FileIndex) (found : Import) :
    Resolution :=
  let resolution := match language with
    | .python => Resolution.Dotted.resolve importer found index
    | .rust => Resolution.Crate.resolve importer found index
    | .typeScript | .javaScript => Resolution.Script.resolve importer found index
    | .go => Resolution.resolveGo found index
    | .java => Resolution.resolveJava found index
    | .c | .cpp => Resolution.resolveInclude importer found index
  resolution.withoutImporter importer

end CodeAtlas.Import
