import KNex.Contracts.Semver
import KNex.Core.Except
import KNex.Core.JsMap
import Mathlib.Data.List.Induction

/-!
# Release transitions

`packages/contracts/src/platform-release-transition-manifest.ts`: the checks of a transition
manifest and of the two release manifests it joins, and `validatePlatformReleaseTransition`. What
the shapes of the schemas refuse is a value `none`; the refinements on top of the shapes are
modelled with the issues they add.

`validated_closure`: an accepted transition carries the source closure to the target closure.
The three lists have no package twice, so a mapping found under a name is the only one of that
name (`JsMap.get?_ofList`), and the loop over the names of both closures says for each name which
of the four dispositions it has.
-/
namespace KNex.Contracts

open KNex.Core

/-! ## Manifests -/

/-- A text that `ExactSemverSchema` accepts. -/
abbrev ExactVersion := { version : String // exactSemverOk version = true }

structure FrameworkTuple where
  core : ExactVersion
  payload : ExactVersion
  node : ExactVersion
  pnpm : ExactVersion
  deriving DecidableEq

inductive ReleaseRole where
  | core | plugin | provider | builder | theme | tooling
  deriving DecidableEq

structure ReleasePackage where
  package : String
  version : ExactVersion
  role : ReleaseRole
  integrity : String
  peerCompatibility : FrameworkTuple
  deriving DecidableEq

structure PackageReleaseManifest where
  release : ExactVersion
  framework : FrameworkTuple
  packages : List ReleasePackage
  /-- The first of `supportWindow.supportedReleases`, which has one element. -/
  supportedRelease : ExactVersion
  deriving DecidableEq

structure ReleaseIdentity where
  release : ExactVersion
  manifestDigest : String
  deriving DecidableEq

structure PackageEndpoint where
  version : ExactVersion
  integrity : String
  deriving DecidableEq

/-- Only a plugin's identity has a plugin id. -/
inductive PackageIdentity where
  | plugin (package pluginId : String)
  | other (package : String) (role : { role : ReleaseRole // role ≠ .plugin })
  deriving DecidableEq

def PackageIdentity.package : PackageIdentity → String
  | .plugin package _ | .other package _ => package

def PackageIdentity.role : PackageIdentity → ReleaseRole
  | .plugin _ _ => .plugin
  | .other _ role => role

def PackageIdentity.pluginId : PackageIdentity → Option String
  | .plugin _ pluginId => some pluginId
  | .other _ _ => none

inductive PackageTransition where
  | upgrade (identity : PackageIdentity) (source target : PackageEndpoint)
  | addForGenerator (identity : PackageIdentity) (target : PackageEndpoint)
  | remove (identity : PackageIdentity) (source : PackageEndpoint)
  | replacementRequired (identity : PackageIdentity) (source : PackageEndpoint)
  deriving DecidableEq

def PackageTransition.identity : PackageTransition → PackageIdentity
  | .upgrade identity _ _ | .addForGenerator identity _ | .remove identity _
  | .replacementRequired identity _ => identity

def PackageTransition.package (mapping : PackageTransition) : String := mapping.identity.package

def PackageTransition.role (mapping : PackageTransition) : ReleaseRole := mapping.identity.role

/-- `"source" in mapping`, with the source. -/
def PackageTransition.source : PackageTransition → Option PackageEndpoint
  | .upgrade _ source _ | .remove _ source | .replacementRequired _ source => some source
  | .addForGenerator _ _ => none

/-- `"target" in mapping`, with the target. -/
def PackageTransition.target : PackageTransition → Option PackageEndpoint
  | .upgrade _ _ target | .addForGenerator _ target => some target
  | .remove _ _ | .replacementRequired _ _ => none

def PackageTransition.disposition : PackageTransition → String
  | .upgrade .. => "upgrade"
  | .addForGenerator .. => "add-for-generator"
  | .remove .. => "remove"
  | .replacementRequired .. => "replacement-required"

inductive MigrationPhase where
  | onlineExpand | onlineBackfill | postRetirementContract | offlineRequired
  deriving DecidableEq

/-- `phaseOrder.indexOf(phase)`. -/
def MigrationPhase.order : MigrationPhase → Nat
  | .onlineExpand => 0
  | .onlineBackfill => 1
  | .postRetirementContract => 2
  | .offlineRequired => 3

inductive Compatibility where
  | compatible | migrationRequired | unsupported
  deriving DecidableEq

inductive Revocation where
  | active
  | revoked (revokedAt reasonCode : String)
  deriving DecidableEq

structure GeneratorTransition where
  package : String
  sourceVersion : ExactVersion
  targetVersion : ExactVersion
  sourceSchemaVersion : Nat
  targetSchemaVersion : Nat
  deriving DecidableEq

structure MigrationStep where
  id : String
  phase : MigrationPhase
  deriving DecidableEq

/-- The fields of a transition manifest that the refinements and the validation read. -/
structure PlatformReleaseTransitionManifest where
  transitionId : String
  source : ReleaseIdentity
  target : ReleaseIdentity
  directPredecessor : ExactVersion
  packages : List PackageTransition
  generator : GeneratorTransition
  applicationSourceSchemaVersion : Nat
  applicationTargetSchemaVersion : Nat
  frameworkSource : FrameworkTuple
  frameworkTarget : FrameworkTuple
  phases : List MigrationPhase
  steps : List MigrationStep
  maintenanceRequired : Bool
  sourceRestoreRequired : Bool
  storedDocuments : Compatibility
  settings : Compatibility
  themeProfiles : Compatibility
  freshBackupRequired : Bool
  cleanRestoreDrillRequired : Bool
  publishedAt : String
  expiresAt : String
  revocation : Revocation
  deriving DecidableEq

structure PlatformReleaseTransitionEndpoint where
  /-- What the shape of `PackageReleaseManifestSchema` makes of the manifest. -/
  manifest : Option PackageReleaseManifest
  digest : String

/-- The datetimes that `z.iso.datetime({ offset: true })` accepts and `Date.parse`, where `none` is
`NaN`. -/
structure DateHost where
  datetime : String → Bool
  parse : String → Option Int

/-- `Date.parse(left) < Date.parse(right)`. -/
def DateHost.before (host : DateHost) (left right : String) : Bool :=
  match host.parse left, host.parse right with
  | some left, some right => left < right
  | _, _ => false

/-- `Date.parse(left) >= Date.parse(right)`. -/
def DateHost.notBefore (host : DateHost) (left right : String) : Bool :=
  match host.parse left, host.parse right with
  | some left, some right => right ≤ left
  | _, _ => false

/-! ## Issues -/

inductive PathItem where
  | key (name : String)
  | index (i : Nat)
  deriving DecidableEq

structure SchemaIssue where
  path : List PathItem
  message : String
  deriving DecidableEq

def issueIf (condition : Bool) (path : List PathItem) (message : String) : List SchemaIssue :=
  if condition then [⟨path, message⟩] else []

@[simp] theorem issueIf_eq_nil {condition : Bool} {path : List PathItem} {message : String} :
    issueIf condition path message = [] ↔ condition = false := by
  unfold issueIf
  split <;> simp_all

/-- `for (const [index, entry] of list.entries())`: the body is given the entries gone through,
from which the sets and the index of the source's loops can be read. -/
def forEntries {α β : Type} (body : List α → α → List β) : List α → List α → List β
  | _, [] => []
  | gone, entry :: rest => body gone entry ++ forEntries body (gone ++ [entry]) rest

/-- mirrors packages/contracts/src/package-release-manifest.ts:45-54 -/
def releaseIssues (manifest : PackageReleaseManifest) : List SchemaIssue :=
  forEntries (fun gone entry =>
    issueIf (entry.package ∈ gone.map ReleasePackage.package)
      [.key "packages", .index gone.length, .key "package"]
      ("Release package is duplicated: " ++ entry.package ++ ".") ++
    issueIf (entry.peerCompatibility ≠ manifest.framework)
      [.key "packages", .index gone.length, .key "peerCompatibility"]
      "Release package peer compatibility must equal the exact release framework tuple.")
    [] manifest.packages ++
  issueIf (manifest.supportedRelease ≠ manifest.release)
    [.key "supportWindow", .key "supportedReleases", .index 0]
    "The current supported release must equal release.version."

/-- `compareExactSemverPrecedence(left, right) >= 0`; the comparison does not throw on exact
versions. -/
def notPrecedes (left right : ExactVersion) : Bool :=
  match compareExactSemverPrecedence left right with
  | .ok .lt => false
  | _ => true

/-- The loop over the mappings.
mirrors packages/contracts/src/platform-release-transition-manifest.ts:119-130 -/
def mappingIssues (manifest : PlatformReleaseTransitionManifest) : List SchemaIssue :=
  forEntries (fun gone mapping =>
    let at_ := [PathItem.key "packages", .index gone.length]
    issueIf (mapping.package ∈ gone.map PackageTransition.package)
      (at_ ++ [.key "identity", .key "package"])
      ("Transition package is duplicated: " ++ mapping.package ++ ".") ++
    issueIf (mapping.source.any fun source => source.version ≠ manifest.source.release)
      (at_ ++ [.key "source", .key "version"])
      "First-party source package version must equal source.release." ++
    issueIf (mapping.target.any fun target => target.version ≠ manifest.target.release)
      (at_ ++ [.key "target", .key "version"])
      "First-party target package version must equal target.release." ++
    match mapping.identity.pluginId with
    | some pluginId =>
      issueIf (pluginId ∈ gone.filterMap fun entry => entry.identity.pluginId)
        (at_ ++ [.key "identity", .key "pluginId"])
        ("Transition plugin is duplicated: " ++ pluginId ++ ".")
    | none => [])
    [] manifest.packages

/-- mirrors packages/contracts/src/platform-release-transition-manifest.ts:132-135 -/
def generatorReconciles (manifest : PlatformReleaseTransitionManifest) : Bool :=
  match manifest.packages.find? fun mapping => mapping.package = manifest.generator.package with
  | some (.upgrade _ source target) =>
    source.version = manifest.generator.sourceVersion ∧
      target.version = manifest.generator.targetVersion
  | _ => false

/-- mirrors packages/contracts/src/platform-release-transition-manifest.ts:139-159 -/
def migrationIssues (manifest : PlatformReleaseTransitionManifest) : List SchemaIssue :=
  issueIf (MigrationPhase.offlineRequired ∈ manifest.phases ∧ ¬ manifest.maintenanceRequired)
    [.key "migrations", .key "deliveryClassification"]
    "Offline-required migration work must be maintenance-required." ++
  forEntries (fun gone phase => issueIf (gone.getLast?.any fun previous =>
      phase.order ≤ previous.order)
    [.key "migrations", .key "phases", .index gone.length]
    "Migration phases must use canonical execution order.") [] manifest.phases ++
  forEntries (fun gone step => issueIf (step.id ∈ gone.map MigrationStep.id)
    [.key "migrations", .key "steps", .index gone.length, .key "id"]
    ("Migration step is duplicated: " ++ step.id ++ ".")) [] manifest.steps ++
  issueIf ((manifest.steps.map MigrationStep.phase).eraseDups ≠ manifest.phases)
    [.key "migrations", .key "phases"]
    "Migration phases must equal the ordered phases used by migration steps." ++
  issueIf (manifest.sourceRestoreRequired ∧ ¬ manifest.cleanRestoreDrillRequired)
    [.key "protection", .key "cleanRestoreDrill"]
    "Restore-required rollback requires a clean restore drill."

/-- mirrors packages/contracts/src/platform-release-transition-manifest.ts:160-164 -/
def highRisk (manifest : PlatformReleaseTransitionManifest) : Bool :=
  let frameworkChanged := manifest.frameworkSource ≠ manifest.frameworkTarget
  let schemaChanged :=
    manifest.generator.sourceSchemaVersion ≠ manifest.generator.targetSchemaVersion ∨
      manifest.applicationSourceSchemaVersion ≠ manifest.applicationTargetSchemaVersion
  let dataChanged := manifest.storedDocuments = .migrationRequired ∨
    manifest.settings = .migrationRequired ∨ manifest.themeProfiles = .migrationRequired
  let destructive := MigrationPhase.postRetirementContract ∈ manifest.phases ∨
    MigrationPhase.offlineRequired ∈ manifest.phases
  frameworkChanged ∨ schemaChanged ∨ dataChanged ∨ destructive ∨ manifest.maintenanceRequired

/-- mirrors packages/contracts/src/platform-release-transition-manifest.ts:108-173 -/
def transitionIssues (host : DateHost) (manifest : PlatformReleaseTransitionManifest) :
    List SchemaIssue :=
  issueIf (notPrecedes manifest.source.release manifest.target.release)
    [.key "target", .key "release"]
    "Target release must have greater SemVer precedence than source release." ++
  issueIf (manifest.directPredecessor ≠ manifest.source.release)
    [.key "directPredecessors", .index 0]
    "A direct transition must name source.release as its only predecessor." ++
  issueIf (host.notBefore manifest.publishedAt manifest.expiresAt)
    [.key "lifecycle", .key "expiresAt"] "Transition expiry must be after publication." ++
  mappingIssues manifest ++
  issueIf (!generatorReconciles manifest) [.key "generator"]
    "Generator must reconcile to one exact package transition mapping." ++
  issueIf (manifest.frameworkSource.core ≠ manifest.source.release ∨
      manifest.frameworkTarget.core ≠ manifest.target.release) [.key "framework"]
    "Framework core versions must equal their source and target train releases." ++
  migrationIssues manifest ++
  issueIf (highRisk manifest ∧ ¬ manifest.freshBackupRequired)
    [.key "protection", .key "preUpgradeBackup"]
    ("Framework, schema, data, destructive, offline, or maintenance transitions require a fresh " ++
      "pre-upgrade backup.") ++
  issueIf (highRisk manifest ∧
      (¬ manifest.cleanRestoreDrillRequired ∨ ¬ manifest.sourceRestoreRequired))
    [.key "protection"]
    ("Maintenance and high-risk transitions require a clean restore drill and " ++
      "source-restore-required rollback.") ++
  match manifest.revocation with
  | .revoked revokedAt _ => issueIf (host.before revokedAt manifest.publishedAt)
      [.key "lifecycle", .key "revocation", .key "revokedAt"]
      "Revocation cannot predate publication."
  | .active => []

/-! ## Validation -/

inductive ValidationError where
  /-- The shape of a schema refused the value. -/
  | refused (schema : String)
  | issues (issues : List SchemaIssue)
  | typeError (message : String)
  deriving DecidableEq

/-- `Schema.parse(value)`: the shape, the datetimes in it and the refinement. -/
def parseWith {α : Type} (schema : String) (refine : α → List SchemaIssue) :
    Option α → Except ValidationError α
  | none => .error (.refused schema)
  | some value => if refine value = [] then .ok value else .error (.issues (refine value))

/-- The datetimes of a manifest, which its shape checks. -/
def PlatformReleaseTransitionManifest.datetimes (manifest : PlatformReleaseTransitionManifest) :
    List String :=
  [manifest.publishedAt, manifest.expiresAt] ++
    match manifest.revocation with
    | .revoked revokedAt _ => [revokedAt]
    | .active => []

def parseTransition (host : DateHost) (value : Option PlatformReleaseTransitionManifest) :
    Except ValidationError PlatformReleaseTransitionManifest :=
  parseWith "PlatformReleaseTransitionManifestSchema" (transitionIssues host)
    (value.filter fun manifest => manifest.datetimes.all host.datetime)

def parseRelease (value : Option PackageReleaseManifest) :
    Except ValidationError PackageReleaseManifest :=
  parseWith "PackageReleaseManifestSchema" releaseIssues value

def errorIf (condition : Bool) (message : String) : List String :=
  if condition then [message] else []

@[simp] theorem errorIf_eq_nil {condition : Bool} {message : String} :
    errorIf condition message = [] ↔ condition = false := by
  unfold errorIf
  split <;> simp_all

/-- mirrors packages/contracts/src/platform-release-transition-manifest.ts:224-230 -/
def endpointErrors (host : DateHost) (transition : PlatformReleaseTransitionManifest)
    (source : PackageReleaseManifest) (sourceDigest : String) (target : PackageReleaseManifest)
    (targetDigest evaluationTime : String) : List String :=
  errorIf (transition.source.release ≠ source.release ∨
      transition.source.manifestDigest ≠ sourceDigest)
    ("source release identity or manifest digest does not match the verified source endpoint") ++
  errorIf (transition.target.release ≠ target.release ∨
      transition.target.manifestDigest ≠ targetDigest)
    ("target release identity or manifest digest does not match the verified target endpoint") ++
  errorIf (transition.revocation ≠ .active) "transition is revoked" ++
  errorIf (host.before evaluationTime transition.publishedAt) "transition is not yet published" ++
  errorIf (host.notBefore evaluationTime transition.expiresAt) "transition is expired" ++
  errorIf (transition.frameworkSource ≠ source.framework)
    "source framework tuple does not match the verified source release" ++
  errorIf (transition.frameworkTarget ≠ target.framework)
    "target framework tuple does not match the verified target release"

/-- The entry of a release that an endpoint of the mapping has to equal. -/
def exactEntry (mapping : PackageTransition) (endpoint : Option PackageEndpoint)
    (entry : ReleasePackage) : Bool :=
  endpoint = some ⟨entry.version, entry.integrity⟩ ∧ mapping.role = entry.role

/-- The disposition of a name that is in the source, in the target or in both.
mirrors packages/contracts/src/platform-release-transition-manifest.ts:244-247 -/
def dispositionErrors (packageName : String) (source target : Option ReleasePackage)
    (mapping : PackageTransition) : List String :=
  let expected := if source.isSome ∧ target.isSome then some "upgrade"
    else if source.isNone then some "add-for-generator" else none
  match expected with
  | none =>
    errorIf (mapping.disposition ≠ "remove" ∧ mapping.disposition ≠ "replacement-required")
      ("source-only package " ++ packageName ++ " must be remove or replacement-required")
  | some disposition => errorIf (mapping.disposition ≠ disposition)
      ("package " ++ packageName ++ " disposition must be " ++ disposition)

/-- mirrors packages/contracts/src/platform-release-transition-manifest.ts:237-251 -/
def packageErrors (sourcePackages targetPackages : JsMap String ReleasePackage)
    (mappings : JsMap String PackageTransition) (packageName : String) : List String :=
  let source := sourcePackages.get? packageName
  let target := targetPackages.get? packageName
  match mappings.get? packageName with
  | none => ["package " ++ packageName ++ " is missing from the transition mapping"]
  | some mapping =>
    let inexact := "package " ++ packageName ++
      " mapping does not equal the exact source and target release entries"
    dispositionErrors packageName source target mapping ++
    errorIf (source.any fun entry => !exactEntry mapping mapping.source entry) inexact ++
    errorIf (target.any fun entry => !exactEntry mapping mapping.target entry) inexact

/-- mirrors packages/contracts/src/platform-release-transition-manifest.ts:232-253 -/
def closureErrors (transition : PlatformReleaseTransitionManifest)
    (source target : PackageReleaseManifest) : List String :=
  let sourcePackages := JsMap.ofList ReleasePackage.package source.packages
  let targetPackages := JsMap.ofList ReleasePackage.package target.packages
  let mappings := JsMap.ofList PackageTransition.package transition.packages
  let packageNames := (sourcePackages.keys ++ targetPackages.keys).eraseDups
  packageNames.flatMap (packageErrors sourcePackages targetPackages mappings) ++
  mappings.keys.flatMap fun packageName => errorIf (packageName ∉ packageNames)
    ("package " ++ packageName ++ " is not present in either verified release closure")

/-- mirrors packages/contracts/src/platform-release-transition-manifest.ts:212-257 -/
def validatePlatformReleaseTransition (host : DateHost)
    (value : Option PlatformReleaseTransitionManifest)
    (sourceEndpoint targetEndpoint : PlatformReleaseTransitionEndpoint) (evaluatedAt : String) :
    Except ValidationError PlatformReleaseTransitionManifest := do
  let transition ← parseTransition host value
  failIf (host.datetime evaluatedAt = false) (.refused "z.iso.datetime")
  let sourceManifest ← parseRelease sourceEndpoint.manifest
  let targetManifest ← parseRelease targetEndpoint.manifest
  let errors := endpointErrors host transition sourceManifest sourceEndpoint.digest targetManifest
      targetEndpoint.digest evaluatedAt ++ closureErrors transition sourceManifest targetManifest
  failIf (errors ≠ []) (.typeError
    ("Platform release transition does not reconcile: " ++ "; ".intercalate errors ++ "."))
  return transition

/-! ## What the checks leave -/

theorem forEntries_eq_nil {α β : Type} {body : List α → α → List β} : ∀ {gone l : List α},
    forEntries body gone l = [] ↔
      ∀ before entry rest, l = before ++ entry :: rest → body (gone ++ before) entry = []
  | gone, [] => by simp [forEntries]
  | gone, a :: l => by
    rw [forEntries, List.append_eq_nil_iff, forEntries_eq_nil]
    constructor
    · intro ⟨ha, hl⟩ before entry rest heq
      cases before with
      | nil =>
        cases heq
        rwa [List.append_nil]
      | cons b before =>
        cases heq
        simpa using hl before entry rest rfl
    · intro h
      refine ⟨by simpa using h [] a l rfl, fun before entry rest heq => ?_⟩
      simpa using h (a :: before) entry rest (by rw [heq]; rfl)

/-- A loop that looks for each key among those before finds none twice. -/
theorem nodup_of_fresh {α κ : Type} {key : α → κ} {l : List α}
    (h : ∀ before entry rest, l = before ++ entry :: rest → key entry ∉ before.map key) :
    (l.map key).Nodup := by
  induction l using List.reverseRecOn with
  | nil => exact List.nodup_nil
  | append_singleton l a ih =>
    rw [List.map_append, List.nodup_append']
    refine ⟨ih fun before entry rest heq => h before entry (rest ++ [a]) (by simp [heq]),
      List.nodup_singleton _, ?_⟩
    simpa using h l a [] rfl

theorem releaseIssues_nodup {manifest : PackageReleaseManifest} (h : releaseIssues manifest = []) :
    (manifest.packages.map ReleasePackage.package).Nodup ∧
      ∀ entry ∈ manifest.packages, entry.peerCompatibility = manifest.framework := by
  unfold releaseIssues at h
  rw [List.append_eq_nil_iff, forEntries_eq_nil] at h
  have hbody : ∀ before entry rest, manifest.packages = before ++ entry :: rest →
      entry.package ∉ before.map ReleasePackage.package ∧
        entry.peerCompatibility = manifest.framework := by
    intro before entry rest heq
    have := h.1 before entry rest heq
    rw [List.append_eq_nil_iff, issueIf_eq_nil, issueIf_eq_nil] at this
    simpa using this
  refine ⟨nodup_of_fresh fun before entry rest heq => (hbody before entry rest heq).1, ?_⟩
  intro entry hentry
  obtain ⟨before, rest, heq⟩ := List.append_of_mem hentry
  exact (hbody before entry rest heq).2

theorem mappingIssues_nodup {manifest : PlatformReleaseTransitionManifest}
    (h : mappingIssues manifest = []) :
    (manifest.packages.map PackageTransition.package).Nodup := by
  unfold mappingIssues at h
  rw [forEntries_eq_nil] at h
  refine nodup_of_fresh fun before entry rest heq => ?_
  have := h before entry rest heq
  simp only [List.append_eq_nil_iff, issueIf_eq_nil] at this
  simpa using this.1.1.1

theorem parseWith_eq_ok {α : Type} {schema : String} {refine : α → List SchemaIssue}
    {value : Option α} {a : α} :
    parseWith schema refine value = .ok a ↔ value = some a ∧ refine a = [] := by
  unfold parseWith
  split
  · simp
  · split
    · rename_i b hb
      constructor
      · intro h
        cases h
        exact ⟨rfl, hb⟩
      · intro h
        cases h.1
        rfl
    · rename_i b hb
      refine iff_of_false (by simp) fun h => hb ?_
      cases h.1
      exact h.2

/-- What the checks of a validation that returns have found. -/
structure Validated (host : DateHost) (transition : PlatformReleaseTransitionManifest)
    (source target : PackageReleaseManifest) (evaluatedAt : String) : Prop where
  mappings_nodup : (transition.packages.map PackageTransition.package).Nodup
  source_nodup : (source.packages.map ReleasePackage.package).Nodup
  target_nodup : (target.packages.map ReleasePackage.package).Nodup
  target_peers : ∀ entry ∈ target.packages, entry.peerCompatibility = target.framework
  datetimes : ∀ text ∈ evaluatedAt :: transition.datetimes, host.datetime text = true
  published : host.before evaluatedAt transition.publishedAt = false
  unexpired : host.notBefore evaluatedAt transition.expiresAt = false
  unrevoked : transition.revocation = .active
  targetFramework : transition.frameworkTarget = target.framework
  closure : closureErrors transition source target = []

theorem validatePlatformReleaseTransition_ok {host : DateHost}
    {value : Option PlatformReleaseTransitionManifest}
    {sourceEndpoint targetEndpoint : PlatformReleaseTransitionEndpoint} {evaluatedAt : String}
    {transition : PlatformReleaseTransitionManifest}
    (h : validatePlatformReleaseTransition host value sourceEndpoint targetEndpoint evaluatedAt =
      .ok transition) :
    value = some transition ∧ ∃ source target, sourceEndpoint.manifest = some source ∧
      targetEndpoint.manifest = some target ∧
      Validated host transition source target evaluatedAt := by
  unfold validatePlatformReleaseTransition at h
  obtain ⟨t, ht, h⟩ := bind_eq_ok.mp h
  obtain ⟨⟨⟩, hat, h⟩ := bind_eq_ok.mp h
  obtain ⟨source, hs, h⟩ := bind_eq_ok.mp h
  obtain ⟨target, htg, h⟩ := bind_eq_ok.mp h
  obtain ⟨⟨⟩, herr, h⟩ := bind_eq_ok.mp h
  cases h
  unfold parseTransition at ht
  unfold parseRelease at hs htg
  rw [parseWith_eq_ok] at ht hs htg
  rw [Option.filter_eq_some_iff] at ht
  rw [failIf_eq_ok] at hat herr
  rw [not_not, List.append_eq_nil_iff] at herr
  obtain ⟨⟨hvalue, hdates⟩, htissues⟩ := ht
  have hends := herr.1
  simp only [endpointErrors, List.append_eq_nil_iff, errorIf_eq_nil, decide_eq_false_iff_not,
    ne_eq, not_not] at hends
  obtain ⟨⟨⟨⟨⟨⟨-, -⟩, hrevoked⟩, hpublished⟩, hexpired⟩, -⟩, hframework⟩ := hends
  simp only [transitionIssues, List.append_eq_nil_iff] at htissues
  refine ⟨hvalue, source, target, hs.1, htg.1, ?_⟩
  exact
    { mappings_nodup := mappingIssues_nodup htissues.1.1.1.1.1.1.2
      source_nodup := (releaseIssues_nodup hs.2).1
      target_nodup := (releaseIssues_nodup htg.2).1
      target_peers := (releaseIssues_nodup htg.2).2
      datetimes := by
        intro text htext
        rcases List.mem_cons.mp htext with rfl | htext
        · simpa using hat
        · exact List.all_eq_true.mp hdates text htext
      published := hpublished
      unexpired := hexpired
      unrevoked := hrevoked
      targetFramework := hframework
      closure := herr.2 }

/-! ## The closures -/

/-- The package that a mapping brings into the target closure. -/
def arrival (transition : PlatformReleaseTransitionManifest) (mapping : PackageTransition) :
    Option ReleasePackage :=
  mapping.target.map fun target =>
    { package := mapping.package, version := target.version, role := mapping.role
      integrity := target.integrity, peerCompatibility := transition.frameworkTarget }

/-- The mapping by which a package leaves the source closure: that of its name, which has to state
its version, role and integrity. -/
def departure (transition : PlatformReleaseTransitionManifest) (entry : ReleasePackage) :
    Option PackageTransition :=
  transition.packages.find? fun mapping =>
    mapping.package = entry.package ∧ exactEntry mapping mapping.source entry

/-- The mappings applied to a closure. Each package becomes what the mapping it leaves by brings,
if anything, and what a mapping without a source brings is added. `none` where a package has no
mapping to leave by. -/
def applyTransition (transition : PlatformReleaseTransitionManifest)
    (closure : List ReleasePackage) : Option (List ReleasePackage) := do
  let moved ← closure.mapM fun entry => (departure transition entry).map (arrival transition)
  return moved.reduceOption ++
    (transition.packages.filter fun mapping => mapping.source.isNone).filterMap (arrival transition)

/-- The mappings partition the two closures: each package of either is stated exactly by one
mapping, the only one of its name, and a mapping states nothing else. -/
structure Partitions (transition : PlatformReleaseTransitionManifest)
    (source target : List ReleasePackage) : Prop where
  source_covered : ∀ entry ∈ source, ∃ mapping ∈ transition.packages,
    mapping.package = entry.package ∧ exactEntry mapping mapping.source entry = true ∧
      ∀ other ∈ transition.packages, other.package = entry.package → other = mapping
  target_covered : ∀ entry ∈ target, ∃ mapping ∈ transition.packages,
    mapping.package = entry.package ∧ exactEntry mapping mapping.target entry = true ∧
      ∀ other ∈ transition.packages, other.package = entry.package → other = mapping
  source_only : ∀ mapping ∈ transition.packages, mapping.source.isSome →
    ∃ entry ∈ source, entry.package = mapping.package ∧
      exactEntry mapping mapping.source entry = true
  target_only : ∀ mapping ∈ transition.packages, mapping.target.isSome →
    ∃ entry ∈ target, entry.package = mapping.package ∧
      exactEntry mapping mapping.target entry = true

theorem mapM_eq_some_map {α β : Type} {f : α → Option β} {g : α → β} : ∀ {l : List α},
    (∀ a ∈ l, f a = some (g a)) → l.mapM f = some (l.map g)
  | [], _ => rfl
  | a :: l, h => by
    rw [List.mapM_cons, h a List.mem_cons_self,
      mapM_eq_some_map fun b hb => h b (List.mem_cons_of_mem a hb)]
    rfl

theorem map_filterMap_sublist {α β κ : Type} {f : α → Option β} {key : α → κ} {key' : β → κ} :
    ∀ {l : List α}, (∀ a ∈ l, ∀ b, f a = some b → key' b = key a) →
      ((l.filterMap f).map key').Sublist (l.map key)
  | [], _ => List.Sublist.slnil
  | a :: l, h => by
    have hrest := map_filterMap_sublist fun b hb => h b (List.mem_cons_of_mem a hb)
    rw [List.filterMap_cons, List.map_cons]
    split
    · exact hrest.cons _
    · rename_i b hb
      rw [List.map_cons, h a List.mem_cons_self b hb]
      exact hrest.cons_cons _

section Closure

variable {transition : PlatformReleaseTransitionManifest} {source target : PackageReleaseManifest}

/-- The disposition says on which sides a mapping has an endpoint. -/
theorem dispositionErrors_nil {packageName : String} {s t : Option ReleasePackage}
    {mapping : PackageTransition} (h : dispositionErrors packageName s t mapping = [])
    (hst : s.isSome ∨ t.isSome) :
    (mapping.source.isSome ↔ s.isSome) ∧ (mapping.target.isSome ↔ t.isSome) := by
  unfold dispositionErrors at h
  cases s <;> cases t <;> cases mapping <;>
    simp_all [PackageTransition.disposition, PackageTransition.source, PackageTransition.target]

/-- What the loop over the names has found of a name of either closure. -/
structure NameChecked (transition : PlatformReleaseTransitionManifest)
    (source target : PackageReleaseManifest) (mapping : PackageTransition) : Prop where
  mem : mapping ∈ transition.packages
  source_iff : mapping.source.isSome ↔ ∃ entry ∈ source.packages, entry.package = mapping.package
  target_iff : mapping.target.isSome ↔ ∃ entry ∈ target.packages, entry.package = mapping.package
  source_exact : ∀ entry ∈ source.packages, entry.package = mapping.package →
    exactEntry mapping mapping.source entry = true
  target_exact : ∀ entry ∈ target.packages, entry.package = mapping.package →
    exactEntry mapping mapping.target entry = true

theorem packageErrors_nil {packageName : String}
    (hm : (transition.packages.map PackageTransition.package).Nodup)
    (hs : (source.packages.map ReleasePackage.package).Nodup)
    (ht : (target.packages.map ReleasePackage.package).Nodup)
    (hname : packageName ∈ source.packages.map ReleasePackage.package ∨
      packageName ∈ target.packages.map ReleasePackage.package)
    (h : packageErrors (.ofList ReleasePackage.package source.packages)
      (.ofList ReleasePackage.package target.packages)
      (.ofList PackageTransition.package transition.packages) packageName = []) :
    ∃ mapping, mapping.package = packageName ∧ NameChecked transition source target mapping := by
  have found : ∀ {l : List ReleasePackage}, (l.map ReleasePackage.package).Nodup →
      (((JsMap.ofList ReleasePackage.package l).get? packageName).isSome ↔
        ∃ entry ∈ l, entry.package = packageName) := by
    intro l hl
    rw [Option.isSome_iff_exists]
    exact exists_congr fun entry => JsMap.get?_ofList hl
  unfold packageErrors at h
  split at h
  · cases h
  · rename_i mapping hget
    obtain ⟨hmem, rfl⟩ := (JsMap.get?_ofList hm).mp hget
    simp only [List.append_eq_nil_iff, errorIf_eq_nil, Option.any_eq_false, Bool.not_eq_false'] at h
    obtain ⟨⟨hdisposition, hsource⟩, htarget⟩ := h
    obtain ⟨hsides, hsidet⟩ := dispositionErrors_nil hdisposition (by
      rw [found hs, found ht]
      simpa using hname)
    exact ⟨mapping, rfl, hmem, hsides.trans (found hs), hsidet.trans (found ht),
      fun entry he hp => hsource entry ((JsMap.get?_ofList hs).mpr ⟨he, hp⟩),
      fun entry he hp => htarget entry ((JsMap.get?_ofList ht).mpr ⟨he, hp⟩)⟩

theorem closureErrors_nil (hm : (transition.packages.map PackageTransition.package).Nodup)
    (hs : (source.packages.map ReleasePackage.package).Nodup)
    (ht : (target.packages.map ReleasePackage.package).Nodup)
    (h : closureErrors transition source target = []) :
    (∀ mapping ∈ transition.packages, NameChecked transition source target mapping) ∧
      ∀ packageName, packageName ∈ source.packages.map ReleasePackage.package ∨
        packageName ∈ target.packages.map ReleasePackage.package →
        ∃ mapping ∈ transition.packages, mapping.package = packageName := by
  unfold closureErrors at h
  simp only [List.append_eq_nil_iff, List.flatMap_eq_nil_iff, errorIf_eq_nil, List.mem_eraseDups,
    List.mem_append, JsMap.mem_keys_ofList, decide_eq_false_iff_not, not_not] at h
  have hcheck := fun packageName hname =>
    packageErrors_nil hm hs ht hname (h.1 packageName hname)
  constructor
  · intro mapping hmem
    obtain ⟨other, hpackage, hchecked⟩ :=
      hcheck mapping.package (h.2 mapping.package (List.mem_map_of_mem hmem))
    rwa [List.inj_on_of_nodup_map hm hmem hchecked.mem hpackage.symm]
  · intro packageName hname
    obtain ⟨mapping, hpackage, hchecked⟩ := hcheck packageName hname
    exact ⟨mapping, hchecked.mem, hpackage⟩

section Checked

variable (hchecked : ∀ mapping ∈ transition.packages, NameChecked transition source target mapping)
  (hcovered : ∀ packageName, packageName ∈ source.packages.map ReleasePackage.package ∨
    packageName ∈ target.packages.map ReleasePackage.package →
    ∃ mapping ∈ transition.packages, mapping.package = packageName)
  (hm : (transition.packages.map PackageTransition.package).Nodup)

include hchecked hcovered hm

theorem partitions : Partitions transition source.packages target.packages where
  source_covered := by
    intro entry hentry
    obtain ⟨mapping, hmem, hpackage⟩ := hcovered entry.package
      (.inl (List.mem_map_of_mem hentry))
    refine ⟨mapping, hmem, hpackage, (hchecked mapping hmem).source_exact entry hentry
      hpackage.symm, fun other hother heq => ?_⟩
    exact List.inj_on_of_nodup_map hm hother hmem (heq.trans hpackage.symm)
  target_covered := by
    intro entry hentry
    obtain ⟨mapping, hmem, hpackage⟩ := hcovered entry.package
      (.inr (List.mem_map_of_mem hentry))
    refine ⟨mapping, hmem, hpackage, (hchecked mapping hmem).target_exact entry hentry
      hpackage.symm, fun other hother heq => ?_⟩
    exact List.inj_on_of_nodup_map hm hother hmem (heq.trans hpackage.symm)
  source_only := by
    intro mapping hmem hsome
    obtain ⟨entry, hentry, hpackage⟩ := (hchecked mapping hmem).source_iff.mp hsome
    exact ⟨entry, hentry, hpackage, (hchecked mapping hmem).source_exact entry hentry hpackage⟩
  target_only := by
    intro mapping hmem hsome
    obtain ⟨entry, hentry, hpackage⟩ := (hchecked mapping hmem).target_iff.mp hsome
    exact ⟨entry, hentry, hpackage, (hchecked mapping hmem).target_exact entry hentry hpackage⟩

omit hcovered hm in
/-- What a checked mapping brings is the target's entry of its name. -/
theorem arrival_eq_some (hpeers : ∀ entry ∈ target.packages,
    entry.peerCompatibility = transition.frameworkTarget) {mapping : PackageTransition}
    (hmem : mapping ∈ transition.packages) {entry : ReleasePackage} :
    arrival transition mapping = some entry ↔
      entry ∈ target.packages ∧ entry.package = mapping.package := by
  have hc := hchecked mapping hmem
  have hback : ∀ e ∈ target.packages, e.package = mapping.package →
      arrival transition mapping = some e := by
    intro e he hp
    have hexact := hc.target_exact e he hp
    unfold exactEntry at hexact
    rw [decide_eq_true_eq] at hexact
    unfold arrival
    rw [hexact.1, hexact.2, ← hp, ← hpeers e he]
    rfl
  constructor
  · intro h
    have hsome : mapping.target.isSome := by
      unfold arrival at h
      rw [Option.map_eq_some_iff] at h
      obtain ⟨endpoint, htarget, -⟩ := h
      rw [htarget]
      rfl
    obtain ⟨e, he, hp⟩ := hc.target_iff.mp hsome
    rw [hback e he hp] at h
    cases h
    exact ⟨he, hp⟩
  · intro h
    exact hback entry h.1 h.2

/-- Each source package leaves by the mapping of its name. -/
theorem departure_eq_some {entry : ReleasePackage} (hentry : entry ∈ source.packages) :
    ∃ mapping ∈ transition.packages, departure transition entry = some mapping ∧
      mapping.package = entry.package := by
  obtain ⟨mapping, hmem, hpackage, hexact, honly⟩ :=
    (partitions hchecked hcovered hm).source_covered entry hentry
  cases hfind : departure transition entry with
  | none =>
    have hno := List.find?_eq_none.mp hfind mapping hmem
    exact absurd (by simpa using ⟨hpackage, hexact⟩) hno
  | some other =>
    have hother := List.mem_of_find?_eq_some hfind
    have hp : other.package = entry.package := by
      have := List.find?_some hfind
      simp only [decide_eq_true_eq] at this
      exact this.1
    exact ⟨other, hother, rfl, hp⟩

/-- The mappings carry the source closure to the target closure. -/
theorem applyTransition_perm (hs : (source.packages.map ReleasePackage.package).Nodup)
    (ht : (target.packages.map ReleasePackage.package).Nodup)
    (hpeers : ∀ entry ∈ target.packages,
      entry.peerCompatibility = transition.frameworkTarget) :
    ∃ closure, applyTransition transition source.packages = some closure ∧
      closure.Perm target.packages := by
  let moved (entry : ReleasePackage) := (departure transition entry).bind (arrival transition)
  let adding := transition.packages.filter fun mapping => mapping.source.isNone
  have hmapM : source.packages.mapM (fun entry =>
      (departure transition entry).map (arrival transition)) = some (source.packages.map moved) :=
    mapM_eq_some_map fun entry hentry => by
      obtain ⟨mapping, -, hleaves, -⟩ := departure_eq_some hchecked hcovered hm hentry
      simp only [moved, hleaves, Option.map_some, Option.bind_some]
  have hmoved : ∀ entry ∈ source.packages, ∀ result, moved entry = some result →
      result ∈ target.packages ∧ result.package = entry.package := by
    intro entry hentry result hresult
    obtain ⟨mapping, hmem, hleaves, hpackage⟩ := departure_eq_some hchecked hcovered hm hentry
    simp only [moved, hleaves, Option.bind_some] at hresult
    rw [← hpackage]
    exact (arrival_eq_some hchecked hpeers hmem).mp hresult
  have hadded : ∀ mapping ∈ adding, ∀ result, arrival transition mapping = some result →
      result ∈ target.packages ∧ result.package = mapping.package := fun mapping hmapping result =>
    (arrival_eq_some hchecked hpeers (List.mem_of_mem_filter hmapping)).mp
  have hnodup : ((source.packages.filterMap moved ++
      adding.filterMap (arrival transition)).map ReleasePackage.package).Nodup := by
    rw [List.map_append, List.nodup_append']
    refine ⟨(map_filterMap_sublist fun e he r hr => (hmoved e he r hr).2).nodup hs,
      ((map_filterMap_sublist fun m hmem r hr => (hadded m hmem r hr).2).trans
        (List.filter_sublist.map _)).nodup hm, ?_⟩
    -- a name that is in the source has a mapping with a source, so it is not added
    intro name hleft hright
    obtain ⟨result, hresult, rfl⟩ := List.mem_map.mp hleft
    obtain ⟨entry, hentry, hmv⟩ := List.mem_filterMap.mp hresult
    obtain ⟨other, hother, hname⟩ := List.mem_map.mp hright
    obtain ⟨mapping, hmapping, harr⟩ := List.mem_filterMap.mp hother
    obtain ⟨hmem, hnone⟩ := List.mem_filter.mp hmapping
    have hpackage : entry.package = mapping.package := by
      rw [← (hmoved entry hentry result hmv).2, ← hname, (hadded mapping hmapping other harr).2]
    have hsome := (hchecked mapping hmem).source_iff.mpr ⟨entry, hentry, hpackage⟩
    rw [Option.isNone_iff_eq_none.mp hnone] at hsome
    cases hsome
  refine ⟨source.packages.filterMap moved ++ adding.filterMap (arrival transition), ?_, ?_⟩
  · unfold applyTransition
    rw [hmapM]
    simp only [Option.bind_eq_bind, Option.bind_some, List.reduceOption, List.filterMap_map,
      Function.id_comp]
    rfl
  · refine (List.perm_ext_iff_of_nodup hnodup.of_map ht.of_map).mpr fun result => ?_
    rw [List.mem_append, List.mem_filterMap, List.mem_filterMap]
    constructor
    · rintro (⟨entry, hentry, hmv⟩ | ⟨mapping, hmapping, harr⟩)
      · exact (hmoved entry hentry result hmv).1
      · exact (hadded mapping hmapping result harr).1
    · intro hresult
      obtain ⟨mapping, hmem, hpackage⟩ := hcovered result.package
        (.inr (List.mem_map_of_mem hresult))
      have harr := (arrival_eq_some hchecked hpeers hmem).mpr ⟨hresult, hpackage.symm⟩
      by_cases hsome : mapping.source.isSome
      · obtain ⟨entry, hentry, hname⟩ := (hchecked mapping hmem).source_iff.mp hsome
        obtain ⟨other, hother, hleaves, hpackage'⟩ :=
          departure_eq_some hchecked hcovered hm hentry
        obtain rfl : other = mapping :=
          List.inj_on_of_nodup_map hm hother hmem (hpackage'.trans hname)
        exact .inl ⟨entry, hentry, by simp only [moved, hleaves, Option.bind_some, harr]⟩
      · exact .inr ⟨mapping, List.mem_filter.mpr ⟨hmem, by simpa using hsome⟩, harr⟩

end Checked

end Closure

/-- The evaluation time lies in the window of the transition. -/
def DateHost.InWindow (host : DateHost) (transition : PlatformReleaseTransitionManifest)
    (evaluatedAt : String) : Prop :=
  ∃ published evaluated expires, host.parse transition.publishedAt = some published ∧
    host.parse evaluatedAt = some evaluated ∧ host.parse transition.expiresAt = some expires ∧
    published ≤ evaluated ∧ evaluated < expires

theorem inWindow_of_validated {host : DateHost}
    (hparse : ∀ text, host.datetime text = true → ∃ time, host.parse text = some time)
    {transition : PlatformReleaseTransitionManifest} {source target : PackageReleaseManifest}
    {evaluatedAt : String} (h : Validated host transition source target evaluatedAt) :
    host.InWindow transition evaluatedAt := by
  obtain ⟨published, hp⟩ := hparse transition.publishedAt
    (h.datetimes _ (by simp [PlatformReleaseTransitionManifest.datetimes]))
  obtain ⟨expires, hx⟩ := hparse transition.expiresAt
    (h.datetimes _ (by simp [PlatformReleaseTransitionManifest.datetimes]))
  obtain ⟨evaluated, he⟩ := hparse evaluatedAt (h.datetimes _ List.mem_cons_self)
  have hpublished := h.published
  have hunexpired := h.unexpired
  simp only [DateHost.before, he, hp, decide_eq_false_iff_not] at hpublished
  simp only [DateHost.notBefore, he, hx, decide_eq_false_iff_not] at hunexpired
  exact ⟨published, evaluated, expires, hp, he, hx, by omega, by omega⟩

/-- **Release transition closure.** A transition that the validation returns is the one given,
partitions the packages of the two releases, carries the source closure to the target closure,
and is in force at the evaluation time: published, not expired and not revoked. Every accepted
datetime is assumed to have a time. -/
theorem validated_closure {host : DateHost}
    (hparse : ∀ text, host.datetime text = true → ∃ time, host.parse text = some time)
    {value : Option PlatformReleaseTransitionManifest}
    {sourceEndpoint targetEndpoint : PlatformReleaseTransitionEndpoint} {evaluatedAt : String}
    {transition : PlatformReleaseTransitionManifest}
    (h : validatePlatformReleaseTransition host value sourceEndpoint targetEndpoint evaluatedAt =
      .ok transition) :
    value = some transition ∧ ∃ source target, sourceEndpoint.manifest = some source ∧
      targetEndpoint.manifest = some target ∧
      Partitions transition source.packages target.packages ∧
      (∃ closure, applyTransition transition source.packages = some closure ∧
        closure.Perm target.packages) ∧
      host.InWindow transition evaluatedAt ∧ transition.revocation = .active := by
  obtain ⟨hvalue, source, target, hsource, htarget, hv⟩ := validatePlatformReleaseTransition_ok h
  obtain ⟨hchecked, hcovered⟩ :=
    closureErrors_nil hv.mappings_nodup hv.source_nodup hv.target_nodup hv.closure
  refine ⟨hvalue, source, target, hsource, htarget,
    partitions hchecked hcovered hv.mappings_nodup, ?_, inWindow_of_validated hparse hv,
    hv.unrevoked⟩
  exact applyTransition_perm hchecked hcovered hv.mappings_nodup hv.source_nodup hv.target_nodup
    fun entry hentry => (hv.target_peers entry hentry).trans hv.targetFramework.symm

namespace Hop

def version (text : String) (h : exactSemverOk text = true := by decide) : ExactVersion := ⟨text, h⟩

def framework (core : ExactVersion) : FrameworkTuple :=
  ⟨core, version "3.88.0", version "24.19.0", version "11.9.0"⟩

def package (name : String) (release : ExactVersion) (role : ReleaseRole) (integrity : String) :
    ReleasePackage :=
  ⟨name, release, role, integrity, framework release⟩

/-- The core is upgraded, an old theme removed and a provider added. -/
def source : PackageReleaseManifest where
  release := version "1.0.0"
  framework := framework (version "1.0.0")
  packages := [package "core" (version "1.0.0") .core "sha512-a",
    package "old" (version "1.0.0") .theme "sha512-b"]
  supportedRelease := version "1.0.0"

def target : PackageReleaseManifest where
  release := version "1.1.0"
  framework := framework (version "1.1.0")
  packages := [package "new" (version "1.1.0") .provider "sha512-d",
    package "core" (version "1.1.0") .core "sha512-c"]
  supportedRelease := version "1.1.0"

def transition : PlatformReleaseTransitionManifest where
  transitionId := "hop.1.1.0"
  source := ⟨version "1.0.0", "sha256:1"⟩
  target := ⟨version "1.1.0", "sha256:2"⟩
  directPredecessor := version "1.0.0"
  packages := [
    .upgrade (.other "core" ⟨.core, by decide⟩) ⟨version "1.0.0", "sha512-a"⟩
      ⟨version "1.1.0", "sha512-c"⟩,
    .remove (.other "old" ⟨.theme, by decide⟩) ⟨version "1.0.0", "sha512-b"⟩,
    .addForGenerator (.other "new" ⟨.provider, by decide⟩) ⟨version "1.1.0", "sha512-d"⟩]
  generator := ⟨"core", version "1.0.0", version "1.1.0", 1, 1⟩
  applicationSourceSchemaVersion := 1
  applicationTargetSchemaVersion := 1
  frameworkSource := framework (version "1.0.0")
  frameworkTarget := framework (version "1.1.0")
  phases := [.onlineExpand]
  steps := [⟨"step.one", .onlineExpand⟩]
  maintenanceRequired := true
  sourceRestoreRequired := true
  storedDocuments := .compatible
  settings := .compatible
  themeProfiles := .compatible
  freshBackupRequired := true
  cleanRestoreDrillRequired := true
  publishedAt := "2026-01-01T00:00:00Z"
  expiresAt := "2026-01-03T00:00:00Z"
  revocation := .active

/-- Three days, in days. -/
def host : DateHost where
  datetime text := text ∈ ["2026-01-01T00:00:00Z", "2026-01-02T00:00:00Z", "2026-01-03T00:00:00Z"]
  parse text :=
    if text = "2026-01-01T00:00:00Z" then some 1
    else if text = "2026-01-02T00:00:00Z" then some 2
    else if text = "2026-01-03T00:00:00Z" then some 3
    else none

theorem host_parses (text : String) (h : host.datetime text = true) :
    ∃ time, host.parse text = some time := by
  simp only [host, List.mem_cons, List.not_mem_nil, or_false, decide_eq_true_eq] at h
  rcases h with rfl | rfl | rfl
  · exact ⟨1, by decide⟩
  · exact ⟨2, by decide⟩
  · exact ⟨3, by decide⟩

end Hop

theorem validated_closure_hop :
    validatePlatformReleaseTransition Hop.host (some Hop.transition) ⟨some Hop.source, "sha256:1"⟩
        ⟨some Hop.target, "sha256:2"⟩ "2026-01-02T00:00:00Z" = .ok Hop.transition ∧
      ∃ closure, applyTransition Hop.transition Hop.source.packages = some closure ∧
        closure.Perm Hop.target.packages := by
  have hok : validatePlatformReleaseTransition Hop.host (some Hop.transition)
      ⟨some Hop.source, "sha256:1"⟩ ⟨some Hop.target, "sha256:2"⟩ "2026-01-02T00:00:00Z" =
        .ok Hop.transition := by
    decide
  obtain ⟨-, source, target, hs, ht, -, hclosure, -⟩ := validated_closure Hop.host_parses hok
  cases hs
  cases ht
  exact ⟨hok, hclosure⟩

end KNex.Contracts
