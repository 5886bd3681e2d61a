import KNex.Composition.InstalledPlugins
import KNex.Composition.RequiredGraph

/-!
# The deterministic resolver

`resolvePlatformPluginGraph` of `packages/composition/src/deterministic-resolver.ts`: from the
requests of an application, its explicit providers and the installed manifests to the graph of
active plugins. The passes stand in the source's order: index the installed manifests, activate
the requested plugins and the explicit providers, check the ranges, collect dependencies, select
a provider for each capability, check conflicts, refuse required cycles, order the nodes.
-/
namespace KNex.Composition

open KNex.Core

/-! ## Inputs and results -/

/-- mirrors packages/composition/src/deterministic-resolver.ts:62-66 -/
structure ResolveOptions where
  plugins : List PlatformPluginRequest
  providers : JsMap String PlatformProviderRequest
  installed : List InstalledEntry

/-- mirrors packages/composition/src/deterministic-resolver.ts:39-47 -/
structure ResolvedNode where
  id : String
  kind : String
  package : String
  version : String
  integrity : String
  required : List String
  optional : List String
  deriving DecidableEq, Repr

/-- mirrors packages/composition/src/deterministic-resolver.ts:49-53 -/
structure ResolvedCapabilityProvider where
  capability : String
  plugin : String
  version : String
  deriving DecidableEq, Repr

/-- mirrors packages/composition/src/deterministic-resolver.ts:55-60 -/
structure ResolvedGraph where
  resolverVersion : String
  plugins : List ResolvedNode
  capabilityProviders : List ResolvedCapabilityProvider
  registrationOrder : List String
  deriving DecidableEq, Repr

/-- mirrors packages/composition/src/deterministic-resolver.ts:10 -/
def resolverVersion : String := "1.0.0"

/-- mirrors packages/composition/src/deterministic-resolver.ts:81-84 -/
structure CapabilityRequirement where
  consumer : String
  range : String
  deriving DecidableEq, Repr

/-- mirrors packages/composition/src/deterministic-resolver.ts:86-89 -/
structure CapabilitySelection where
  plugin : String
  version : String
  deriving DecidableEq, Repr

abbrev Requirements := JsMap String (List CapabilityRequirement)

abbrev Selections := JsMap String CapabilitySelection

/-- `requirements.get(capability) ?? []`. -/
def Requirements.of (requirements : Requirements) (capability : String) :
    List CapabilityRequirement :=
  (requirements.get? capability).getD []

/-! ## Activation -/

structure Activation where
  explicitlyRequestedIds : List String
  activeById : JsMap String InstalledEntry

/-- mirrors packages/composition/src/deterministic-resolver.ts:529-533 -/
def activatePlugin (ix : Indexes) (s : Activation) (request : PlatformPluginRequest) :
    Result Activation := do
  let entry ← reconcileIdentity (identityFromPluginRequest request) ix.byId ix.byPackage
    (requestLabel "plugin" request.id none)
  return {
    explicitlyRequestedIds := JsMap.addSet s.explicitlyRequestedIds request.id
    activeById := if request.enabled then s.activeById.set entry.id entry else s.activeById }

structure ProviderActivation where
  activeById : JsMap String InstalledEntry
  explicitProviders : JsMap String InstalledEntry
  providerIdentityByPlugin : JsMap String String

/-- mirrors packages/composition/src/deterministic-resolver.ts:538-549 -/
def activateProvider (ix : Indexes) (s : ProviderActivation)
    (entry : String × PlatformProviderRequest) : Result ProviderActivation := do
  let identity := identityFromProviderRequest entry.2
  let identityKey := joinNul [identity.packageName, identity.version]
  if ((s.providerIdentityByPlugin.get? identity.id).filter (· ≠ "")).any (· ≠ identityKey) then
    fail .requestDuplicate
      ("Provider requests for plugin " ++ identity.id ++ " use different identities.") [identity.id]
  else
    let installed ← reconcileIdentity identity ix.byId ix.byPackage
      (requestLabel "provider" entry.2.plugin (some entry.1))
    return {
      activeById := s.activeById.set installed.id installed
      explicitProviders := s.explicitProviders.set entry.1 installed
      providerIdentityByPlugin := s.providerIdentityByPlugin.set identity.id identityKey }

/-! ## Ranges and dependencies -/

variable (sv : Semver)

/-- mirrors packages/composition/src/deterministic-resolver.ts:258-267 -/
def checkRange (entry : InstalledEntry) (dependency : Dependency) : Result Unit :=
  if isValidRange sv dependency.version then .ok ()
  else fail .manifestRangeInvalid
    ("Plugin " ++ entry.id ++ " declares an invalid version range for " ++ dependency.target ++ ".")
    [entry.id, dependency.target]

/-- mirrors packages/composition/src/deterministic-resolver.ts:251-269 -/
def validateRangeDependencies (active : List InstalledEntry) : Result Unit :=
  forM active fun entry =>
    forM (sortedDependencies entry.manifest.requires ++ sortedDependencies entry.manifest.optional ++
      sortedDependencies entry.manifest.conflicts) (checkRange sv entry)

/-- mirrors packages/composition/src/deterministic-resolver.ts:553-556 -/
structure Collected where
  requiredEdges : Edges
  optionalEdges : Edges
  requiredCapabilities : Requirements
  optionalCapabilities : Requirements

/-- One required dependency of an active plugin.
mirrors packages/composition/src/deterministic-resolver.ts:561-592 -/
def collectRequired (ix : Indexes) (a : Activation) (entry : InstalledEntry) (s : Collected) :
    Dependency → Result Collected
  | .plugin id range =>
    match ix.byId.get? id with
    | none =>
      fail .dependencyMissing ("Plugin " ++ entry.id ++ " requires missing plugin " ++ id ++ ".")
        [entry.id, id]
    | some targetInstalled =>
      match a.activeById.get? id with
      | none =>
        if sv.prerelease targetInstalled.version ∧
            targetInstalled.id ∉ a.explicitlyRequestedIds then
          fail .prereleaseNotExplicit ("Plugin " ++ id ++ " is an unrequested prerelease dependency.")
            [entry.id, id]
        else
          fail .dependencyMissing
            ("Plugin " ++ entry.id ++ " requires inactive plugin " ++ id ++ ".") [entry.id, id]
      | some target =>
        if sv.satisfies target.version range then
          .ok { s with requiredEdges := s.requiredEdges.addTo entry.id target.id }
        else
          fail .dependencyVersionUnsatisfied
            ("Plugin " ++ entry.id ++ " requires " ++ id ++ " in range " ++ range ++ ".")
            [entry.id, id]
  | .capability id range =>
    .ok { s with requiredCapabilities := s.requiredCapabilities.push id ⟨entry.id, range⟩ }

/-- One optional dependency of an active plugin.
mirrors packages/composition/src/deterministic-resolver.ts:594-603 -/
def collectOptional (a : Activation) (entry : InstalledEntry) (s : Collected) :
    Dependency → Collected
  | .plugin id range =>
    match a.activeById.get? id with
    | none => s
    | some target =>
      if sv.satisfies target.version range then
        { s with optionalEdges := s.optionalEdges.addTo entry.id target.id }
      else s
  | .capability id range =>
    { s with optionalCapabilities := s.optionalCapabilities.push id ⟨entry.id, range⟩ }

/-- mirrors packages/composition/src/deterministic-resolver.ts:557-604 -/
def collectEntry (ix : Indexes) (a : Activation) (s : Collected) (entry : InstalledEntry) :
    Result Collected := do
  let opened := { s with
    requiredEdges := s.requiredEdges.set entry.id []
    optionalEdges := s.optionalEdges.set entry.id [] }
  let s ← (sortedDependencies entry.manifest.requires).foldlM (collectRequired sv ix a entry) opened
  return (sortedDependencies entry.manifest.optional).foldl (collectOptional sv a entry) s

/-! ## Capabilities -/

/-- mirrors packages/composition/src/deterministic-resolver.ts:342-344 -/
def selectProvidedVersion (entry : InstalledEntry) (capability : String) (ranges : List String) :
    Option String :=
  (providedVersions entry capability).find? fun version =>
    ranges.all fun range => sv.satisfies version range

/-- mirrors packages/composition/src/deterministic-resolver.ts:346-348 -/
def activeProviders (active : List InstalledEntry) (capability : String) : List InstalledEntry :=
  sortBy InstalledEntry.id (active.filter fun entry => !(providedVersions entry capability).isEmpty)

/-- `!version` is also true of an empty string. -/
def truthy (version : Option String) : Option String := version.filter (· ≠ "")

/-- The provider selected for one required capability.
mirrors packages/composition/src/deterministic-resolver.ts:360-415 -/
def selectRequired (active installed : List InstalledEntry)
    (explicitProviders : JsMap String InstalledEntry) (explicitlyRequestedIds : List String)
    (capability : String) (ranges : List String) : Result CapabilitySelection :=
  match explicitProviders.get? capability with
  | some entry =>
    match truthy (selectProvidedVersion sv entry capability ranges) with
    | some version => .ok ⟨entry.id, version⟩
    | none =>
      if (providedVersions entry capability).isEmpty then
        fail .providerSelectionInvalid
          ("Provider " ++ entry.id ++ " does not provide capability " ++ capability ++ ".")
          [capability, entry.id]
      else
        fail .capabilityVersionUnsatisfied
          ("Selected provider " ++ entry.id ++ " cannot satisfy capability " ++ capability ++ ".")
          [capability, entry.id]
  | none =>
    let candidates := (activeProviders active capability).filter fun entry =>
      (selectProvidedVersion sv entry capability ranges).isSome
    match candidates with
    | [] =>
      if !(activeProviders active capability).isEmpty then
        fail .capabilityVersionUnsatisfied
          ("No active provider satisfies capability " ++ capability ++ ".") [capability]
      else if installed.any fun entry => sv.prerelease entry.version &&
          !explicitlyRequestedIds.contains entry.id &&
          !(providedVersions entry capability).isEmpty then
        fail .prereleaseNotExplicit
          ("Capability " ++ capability ++ " is provided only by an unrequested prerelease plugin.")
          [capability]
      else
        fail .capabilityMissing ("No active provider supplies capability " ++ capability ++ ".")
          [capability]
    | [entry] =>
      match truthy (selectProvidedVersion sv entry capability ranges) with
      | some version => .ok ⟨entry.id, version⟩
      | none =>
        fail .capabilityVersionUnsatisfied
          ("No active provider satisfies capability " ++ capability ++ ".") [capability]
    | _ =>
      fail .capabilityAmbiguous
        ("Capability " ++ capability ++ " has multiple compatible active providers.")
        (capability :: candidates.map InstalledEntry.id)

/-- One required capability: the selection is recorded, and each consumer requires its provider.
mirrors packages/composition/src/deterministic-resolver.ts:359-423 -/
def resolveRequiredCapability (requirements : Requirements) (active installed : List InstalledEntry)
    (explicitProviders : JsMap String InstalledEntry) (explicitlyRequestedIds : List String)
    (s : Edges × Selections) (capability : String) : Result (Edges × Selections) := do
  let entries := requirements.of capability
  let selected ← selectRequired sv active installed explicitProviders explicitlyRequestedIds
    capability (entries.map CapabilityRequirement.range)
  return (entries.foldl (fun edges requirement => edges.addTo requirement.consumer selected.plugin)
    s.1, s.2.set capability selected)

/-- mirrors packages/composition/src/deterministic-resolver.ts:350-424 -/
def resolveRequiredCapabilities (requirements : Requirements)
    (active installed : List InstalledEntry) (explicitProviders : JsMap String InstalledEntry)
    (explicitlyRequestedIds : List String) (s : Edges × Selections) : Result (Edges × Selections) :=
  (sortStrings requirements.keys).foldlM
    (resolveRequiredCapability sv requirements active installed explicitProviders
      explicitlyRequestedIds) s

/-- mirrors packages/composition/src/deterministic-resolver.ts:435-441 -/
def addCompatibleEdges (requirements : List CapabilityRequirement) (edges : Edges)
    (selected : CapabilitySelection) : Edges :=
  requirements.foldl (fun edges requirement =>
    if sv.satisfies selected.version requirement.range then
      edges.addTo requirement.consumer selected.plugin
    else edges) edges

/-- The first version of a list that one of the requirements accepts. -/
def anySatisfied (requirements : List CapabilityRequirement) (version : String) : Bool :=
  requirements.any fun requirement => sv.satisfies version requirement.range

/-- The provider selected for an optional capability that has none yet, if there is one.
mirrors packages/composition/src/deterministic-resolver.ts:448-489 -/
def selectOptional (active : List InstalledEntry) (explicitProviders : JsMap String InstalledEntry)
    (capability : String) (requirements : List CapabilityRequirement) :
    Result (Option CapabilitySelection) :=
  match explicitProviders.get? capability with
  | some entry =>
    match providedVersions entry capability with
    | [] =>
      fail .providerSelectionInvalid
        ("Provider " ++ entry.id ++ " does not provide capability " ++ capability ++ ".")
        [capability, entry.id]
    | first :: rest =>
      let version := ((first :: rest).find? (anySatisfied sv requirements)).getD first
      .ok (some ⟨entry.id, version⟩)
  | none =>
    let providers := (activeProviders active capability).filter fun provider =>
      (providedVersions provider capability).any (anySatisfied sv requirements)
    match providers with
    | [] => .ok none
    | [provider] =>
      match truthy ((providedVersions provider capability).find? (anySatisfied sv requirements)) with
      | none => .ok none
      | some version => .ok (some ⟨provider.id, version⟩)
    | _ =>
      fail .capabilityAmbiguous
        ("Capability " ++ capability ++
          " has multiple active providers for an optional dependency.")
        (capability :: providers.map InstalledEntry.id)

/-- mirrors packages/composition/src/deterministic-resolver.ts:433-490 -/
def resolveOptionalCapability (requirements : Requirements) (active : List InstalledEntry)
    (explicitProviders : JsMap String InstalledEntry) (s : Edges × Selections)
    (capability : String) : Result (Edges × Selections) :=
  let entries := requirements.of capability
  match s.2.get? capability with
  | some selected =>
    if active.any fun entry => entry.id = selected.plugin then
      .ok (addCompatibleEdges sv entries s.1 selected, s.2)
    else .ok s
  | none => do
    match ← selectOptional sv active explicitProviders capability entries with
    | none => return s
    | some selection =>
      return (addCompatibleEdges sv entries s.1 selection, s.2.set capability selection)

/-- mirrors packages/composition/src/deterministic-resolver.ts:426-491 -/
def resolveOptionalCapabilities (requirements : Requirements) (active : List InstalledEntry)
    (explicitProviders : JsMap String InstalledEntry) (s : Edges × Selections) :
    Result (Edges × Selections) :=
  (sortStrings requirements.keys).foldlM
    (resolveOptionalCapability sv requirements active explicitProviders) s

/-- An explicit provider of a capability that nobody required.
mirrors packages/composition/src/deterministic-resolver.ts:609-622 -/
def selectRemaining (optionalCapabilities : Requirements) (selections : Selections)
    (explicit : String × InstalledEntry) : Result Selections :=
  if (selections.get? explicit.1).isSome then .ok selections
  else
    match providedVersions explicit.2 explicit.1 with
    | [] =>
      fail .providerSelectionInvalid
        ("Provider " ++ explicit.2.id ++ " does not provide capability " ++ explicit.1 ++ ".")
        [explicit.1, explicit.2.id]
    | first :: _ =>
      if (optionalCapabilities.get? explicit.1).isSome then .ok selections
      else .ok (selections.set explicit.1 ⟨explicit.2.id, first⟩)

/-! ## Conflicts -/

/-- mirrors packages/composition/src/deterministic-resolver.ts:495-514 -/
def checkConflict (active : List InstalledEntry) (activeById : JsMap String InstalledEntry)
    (entry : InstalledEntry) : Dependency → Result Unit
  | .plugin id range =>
    if (activeById.get? id).any fun target => sv.satisfies target.version range then
      fail .conflict ("Plugin " ++ entry.id ++ " conflicts with plugin " ++ id ++ ".") [entry.id, id]
    else .ok ()
  | .capability id range =>
    forM (activeProviders active id) fun provider =>
      match truthy (selectProvidedVersion sv provider id [range]) with
      | none => .ok ()
      | some _ =>
        fail .conflict ("Plugin " ++ entry.id ++ " conflicts with capability " ++ id ++ ".")
          [entry.id, id, provider.id]

/-- mirrors packages/composition/src/deterministic-resolver.ts:493-516 -/
def validateConflicts (active : List InstalledEntry) (activeById : JsMap String InstalledEntry) :
    Result Unit :=
  forM active fun entry =>
    forM (sortedDependencies entry.manifest.conflicts) (checkConflict sv active activeById entry)

/-! ## The graph -/

/-- mirrors packages/composition/src/deterministic-resolver.ts:628-640 -/
def resolvedNode (requiredEdges optionalEdges : Edges) (entry : InstalledEntry) : ResolvedNode where
  id := entry.id
  kind := entry.manifest.kind
  package := entry.packageName
  version := entry.version
  integrity := entry.package.integrity
  required := (sortStrings (requiredEdges.of entry.id)).eraseDups
  optional := (sortStrings (optionalEdges.of entry.id)).eraseDups

def capabilityProviderKey (p : ResolvedCapabilityProvider) : String :=
  joinNul [p.capability, p.plugin, p.version]

/-- mirrors packages/composition/src/deterministic-resolver.ts:641-643 -/
def capabilityProviders (selections : Selections) : List ResolvedCapabilityProvider :=
  sortBy capabilityProviderKey
    (selections.entries.map fun s => ⟨s.1, s.2.plugin, s.2.version⟩)

/-- mirrors packages/composition/src/deterministic-resolver.ts:628-647 -/
def resolvedGraph (active : List InstalledEntry) (requiredEdges optionalEdges : Edges)
    (selections : Selections) : ResolvedGraph where
  resolverVersion
  plugins := active.map (resolvedNode requiredEdges optionalEdges)
  capabilityProviders := capabilityProviders selections
  registrationOrder := dependencyFirstOrder (active.map InstalledEntry.id) requiredEdges

/-- The requested plugins and the explicit providers.
mirrors packages/composition/src/deterministic-resolver.ts:526-550 -/
def activate (options : ResolveOptions) (ix : Indexes) :
    Result (Activation × JsMap String InstalledEntry) := do
  let requested ← (sortBy requestKey options.plugins).foldlM (activatePlugin ix) ⟨[], .empty⟩
  let provided ← (sortBy Prod.fst options.providers.entries).foldlM (activateProvider ix)
    ⟨requested.activeById, .empty, .empty⟩
  return (⟨requested.explicitlyRequestedIds, provided.activeById⟩, provided.explicitProviders)

/-- `[...activeById.values()].sort(…)`.
mirrors packages/composition/src/deterministic-resolver.ts:551 -/
def activeEntries (activeById : JsMap String InstalledEntry) : List InstalledEntry :=
  sortBy InstalledEntry.id (activeById.entries.map Prod.snd)

/-- The edges, the selections of providers and what conflicts with them.
mirrors packages/composition/src/deterministic-resolver.ts:552-624 -/
def resolveEdges (ix : Indexes) (a : Activation) (explicitProviders : JsMap String InstalledEntry)
    (active : List InstalledEntry) : Result (Edges × Edges × Selections) := do
  validateRangeDependencies sv active
  let c ← active.foldlM (collectEntry sv ix a) ⟨.empty, .empty, .empty, .empty⟩
  let required ← resolveRequiredCapabilities sv c.requiredCapabilities active ix.entries
    explicitProviders a.explicitlyRequestedIds (c.requiredEdges, .empty)
  let optional ← resolveOptionalCapabilities sv c.optionalCapabilities active explicitProviders
    (c.optionalEdges, required.2)
  let selections ← explicitProviders.entries.foldlM (selectRemaining c.optionalCapabilities)
    optional.2
  validateConflicts sv active a.activeById
  return (required.1, optional.1, selections)

/-- mirrors packages/composition/src/deterministic-resolver.ts:518-648 -/
def resolvePlatformPluginGraph (options : ResolveOptions) : Result ResolvedGraph := do
  let ix ← buildInstalledIndexes options.installed
  validatePluginRequestDuplicates options.plugins
  let (a, explicitProviders) ← activate options ix
  let active := activeEntries a.activeById
  let (requiredEdges, optionalEdges, selections) ← resolveEdges sv ix a explicitProviders active
  match shortestRequiredCycle requiredEdges with
  | some cycle =>
    fail .requiredCycle
      ("Required plugin dependency cycle: " ++ String.intercalate " -> " cycle ++ ".") cycle
  | none => return resolvedGraph active requiredEdges optionalEdges selections

end KNex.Composition
