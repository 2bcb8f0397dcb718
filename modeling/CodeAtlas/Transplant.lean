import CodeAtlas.Feature

/-!
# Planning transplants

How a feature lands in another project: its interfaces are matched by name with those of the
target, and the packages that the target lacks are added to its manifest.
-/

namespace CodeAtlas

namespace Feature

/-- Where an interface of a feature goes.  Names that begin with an underscore stay behind. -/
def mapInterface (feature : Feature) (target : Keyed (List Graph.Location))
    (provided : ProvidedInterface) : Mapping :=
  let mapped (targetInterface targetModule : Option String) (action : MappingAction) : Mapping :=
    ⟨provided.name, feature.primary, targetInterface, targetModule, action⟩
  if provided.name.startsWith "_" then mapped none none .skip
  else match (target.get? (Text.lowercase provided.name)).bind List.head? with
    | some location => mapped (some location.interface.name) (some location.module) .adapt
    | none => mapped none (some (Path.basename feature.primary)) .create

/-- The manifest that packages are added to: that of the most common language of the target, or
else of the language of the primary module. -/
def manifestIn (feature : Feature) (target : Graph) : String :=
  let language := target.dominantLanguage?.or (Language.ofPath? feature.primary)
  (language.map Language.manifest).getD Language.python.manifest

/-- The plan of landing a feature in a project. -/
def plan (feature : Feature) (target : Graph) (project : String) : TransplantPlan :=
  let index := target.interfaceIndex
  let present := target.externalPackages
  let manifest := feature.manifestIn target
  let lacking := feature.requires.filter fun package => !present.contains package
  { featureName := feature.name
    sourceProject := feature.sourceProject
    targetProject := project
    mappings := feature.provides.map (feature.mapInterface index)
    wiring := lacking.map fun package => ⟨manifest, package⟩
    generationOrder := feature.components
    ordering := feature.ordering }

end Feature

end CodeAtlas
