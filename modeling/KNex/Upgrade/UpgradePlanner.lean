import KNex.Contracts.Identity
import KNex.Core.JsMap

/-!
# Planning a plugin upgrade

`packages/runtime/src/upgrade-planner.ts`: `planPluginUpgrade` checks the releases and the
identities, collects the targets and the migrations, walks each target from its current to its
target revision, and orders the steps found in rounds. Each round takes every step whose
dependencies were taken before, so the loop ends after one round for each step at most.
`dryRunPluginUpgrade` applies the ordered steps to a copy of the artifacts.

The `semver` package and `localeCompare` are parameters, and so is what a stored value shows as
its revision. A release manifest is `none` when its schema refuses it.
-/
namespace KNex.Upgrade

open KNex.Core KNex.Contracts

/-! ## Data -/

/-- mirrors packages/runtime/src/upgrade-planner.ts:5-7 -/
inductive UpgradeArtifactKind where
  | customerSchema | source | action | tool | block | theme | template | settings
  deriving DecidableEq, Repr

/-- mirrors packages/runtime/src/upgrade-planner.ts:58 -/
def kindOrder : UpgradeArtifactKind → Nat
  | .customerSchema => 0 | .source => 1 | .action => 2 | .tool => 3
  | .block => 4 | .theme => 5 | .template => 6 | .settings => 7

/-- mirrors packages/runtime/src/upgrade-planner.ts:11-16 -/
structure UpgradeTarget where
  artifactId : String
  kind : UpgradeArtifactKind
  currentRevision : Int
  targetRevision : Int
  deriving DecidableEq, Repr

/-- A migration with its handlers. A handler that is not a function is `none`, and so is the
result of a `migrate` that throws or returns what cannot be cloned.
mirrors packages/runtime/src/upgrade-planner.ts:18-28 -/
structure UpgradeMigration (V : Type) where
  id : String
  artifactId : String
  kind : UpgradeArtifactKind
  fromRevision : Int
  toRevision : Int
  predecessorRevisions : List Int
  dependsOn : Option (List String)
  migrate : Option (V → Option V)
  validate : Option (V → Bool)

inductive DiagnosticCode where
  | cycle | duplicate | gap | invalid | migrationFailed | ready | revisionMismatch
  | unsupportedRelease
  deriving DecidableEq, Repr

inductive Severity where
  | error | info
  deriving DecidableEq, Repr

/-- mirrors packages/runtime/src/upgrade-planner.ts:30-35 -/
structure UpgradeDiagnostic where
  severity : Severity
  code : DiagnosticCode
  artifactId : Option String
  message : String
  deriving DecidableEq, Repr

/-- mirrors packages/runtime/src/upgrade-planner.ts:37-39 -/
structure UpgradePlanStep (V : Type) extends UpgradeMigration V where
  key : String

/-- mirrors packages/runtime/src/upgrade-planner.ts:41-50 -/
structure UpgradePlan (V : Type) where
  pluginId : String
  currentVersion : String
  targetVersion : String
  currentPlatformRelease : String
  targetPlatformRelease : String
  ready : Bool
  steps : List (UpgradePlanStep V)
  diagnostics : List UpgradeDiagnostic

structure ReleasePackage where
  package : String
  version : String
  integrity : String
  deriving DecidableEq, Repr

/-- The fields of a release manifest that the planner reads. -/
structure PackageReleaseManifest where
  version : String
  supportedReleases : List String
  packages : List ReleasePackage
  deriving DecidableEq, Repr

/-- What the code takes from `semver` and from the locale of the process: whether `valid`
returns a version, whether `compare` puts the first before the second, and `localeCompare`. -/
structure Host where
  validSemver : String → Bool
  precedes : String → String → Bool
  localeCompare : String → String → Ordering

/-- mirrors packages/runtime/src/upgrade-planner.ts:83-94 -/
structure PlanInput (V : Type) where
  pluginId : String
  currentVersion : String
  targetVersion : String
  currentPlatformRelease : String
  targetPlatformRelease : String
  currentReleaseManifest : Option PackageReleaseManifest
  targetReleaseManifest : Option PackageReleaseManifest
  packageName : String
  targets : List UpgradeTarget
  migrations : List (UpgradeMigration V)

/-! ## Checks -/

/-- `/^[a-z][a-z0-9]*(?:[.-][a-z0-9]+)+$/u`: the two separators are interchangeable.
mirrors packages/runtime/src/upgrade-planner.ts:59 -/
def validId (s : String) : Bool :=
  match splitChar '-' (s.toList.map fun c => if c = '.' then '-' else c) with
  | p :: q :: ps => isWord p && (q :: ps).all isAlnumRun
  | _ => false

/-- mirrors packages/runtime/src/upgrade-planner.ts:73-77 -/
def diagnostic (code : DiagnosticCode) (message : String) (artifactId : Option String) :
    UpgradeDiagnostic :=
  ⟨.error, code, artifactId, message⟩

/-- A safe integer that is not negative.
mirrors packages/runtime/src/upgrade-planner.ts:79-81 -/
def revision (value : Int) : Bool := decide (0 ≤ value ∧ value ≤ 9007199254740991)

/-- `${artifactId}@${revision}`. -/
def revisionKey (artifactId : String) (revision : Int) : String :=
  artifactId ++ "@" ++ toString revision

variable {V : Type}

/-- mirrors packages/runtime/src/upgrade-planner.ts:96-109 -/
def releaseDiagnostics (input : PlanInput V) : List UpgradeDiagnostic :=
  match input.currentReleaseManifest, input.targetReleaseManifest with
  | some currentRelease, some targetRelease =>
    if input.currentPlatformRelease ≠ currentRelease.version ∨
        input.targetPlatformRelease ≠ targetRelease.version ∨
        input.currentPlatformRelease ∉ targetRelease.supportedReleases then
      [diagnostic .unsupportedRelease
        "Platform upgrade source and target must belong to the declared support window." none]
    else
      match currentRelease.packages.find? (·.package = input.packageName),
          targetRelease.packages.find? (·.package = input.packageName) with
      | some currentPackage, some targetPackage =>
        if currentPackage.version ≠ input.currentVersion ∨
            targetPackage.version ≠ input.targetVersion ∨
            currentPackage.integrity = targetPackage.integrity then
          [diagnostic .unsupportedRelease
            "Plugin source and target must be distinct trusted release artifacts." none]
        else []
      | _, _ =>
        [diagnostic .unsupportedRelease
          "Plugin source and target must be distinct trusted release artifacts." none]
  | _, _ => [diagnostic .unsupportedRelease "Platform release manifests are invalid." none]

variable (h : Host)

/-- mirrors packages/runtime/src/upgrade-planner.ts:110-114 -/
def identityDiagnostics (input : PlanInput V) : List UpgradeDiagnostic :=
  if !validId input.pluginId || !h.validSemver input.currentVersion ||
      !h.validSemver input.targetVersion then
    [diagnostic .invalid "Plugin identity and release versions must be valid." none]
  else if h.precedes input.targetVersion input.currentVersion then
    [diagnostic .invalid "Upgrade target version cannot precede the installed version." none]
  else []

/-! ## Targets and migrations -/

/-- One round of the two loops that collect by key: an invalid element and one whose key is
taken leave a diagnostic. -/
def collectOne {α : Type} (valid : α → Bool) (key : α → String)
    (invalid duplicate : α → UpgradeDiagnostic) (s : List UpgradeDiagnostic × JsMap String α)
    (a : α) : List UpgradeDiagnostic × JsMap String α :=
  if !valid a then (s.1 ++ [invalid a], s.2)
  else if (s.2.get? (key a)).isSome then (s.1 ++ [duplicate a], s.2)
  else (s.1, s.2.set (key a) a)

/-- mirrors packages/runtime/src/upgrade-planner.ts:118-119 -/
def targetOk (target : UpgradeTarget) : Bool :=
  validId target.artifactId && revision target.currentRevision &&
    revision target.targetRevision && decide (target.currentRevision ≤ target.targetRevision)

/-- mirrors packages/runtime/src/upgrade-planner.ts:116-128 -/
def collectTargets (targets : List UpgradeTarget) :
    List UpgradeDiagnostic × JsMap String UpgradeTarget :=
  targets.foldl (collectOne targetOk UpgradeTarget.artifactId
    (fun target => diagnostic .invalid "Upgrade target is invalid." target.artifactId)
    (fun target => diagnostic .duplicate "Upgrade target is declared more than once."
      target.artifactId)) ([], .empty)

/-- mirrors packages/runtime/src/upgrade-planner.ts:134-136 -/
def migrationOk (targets : JsMap String UpgradeTarget) (migration : UpgradeMigration V) : Bool :=
  match targets.get? migration.artifactId with
  | none => false
  | some target =>
    validId migration.id && decide (migration.kind = target.kind) &&
      revision migration.fromRevision &&
      decide (migration.toRevision = migration.fromRevision + 1) &&
      decide (migration.fromRevision ∈ migration.predecessorRevisions) &&
      migration.migrate.isSome && migration.validate.isSome

def UpgradeMigration.fromKey (migration : UpgradeMigration V) : String :=
  revisionKey migration.artifactId migration.fromRevision

/-- mirrors packages/runtime/src/upgrade-planner.ts:130-145 -/
def collectMigrations (targets : JsMap String UpgradeTarget)
    (migrations : List (UpgradeMigration V)) :
    List UpgradeDiagnostic × JsMap String (UpgradeMigration V) :=
  migrations.foldl (collectOne (migrationOk targets) UpgradeMigration.fromKey
    (fun migration => diagnostic .invalid
      "Upgrade migration identity, kind, revisions, or handlers are invalid." migration.artifactId)
    (fun migration => diagnostic .duplicate
      "Upgrade migration revision is declared more than once." migration.artifactId)) ([], .empty)

/-! ## The steps of the plan -/

def planStep (migration : UpgradeMigration V) : UpgradePlanStep V :=
  { migration with key := revisionKey migration.artifactId migration.toRevision }

abbrev Pending (V : Type) := JsMap String (UpgradePlanStep V)

/-- The loop over the revisions of one target; a revision without a migration ends it.
mirrors packages/runtime/src/upgrade-planner.ts:149-157 -/
def walkTarget (migrations : JsMap String (UpgradeMigration V)) (artifactId : String) :
    Nat → Int → List UpgradeDiagnostic × Pending V → List UpgradeDiagnostic × Pending V
  | 0, _, s => s
  | left + 1, current, s =>
    match migrations.get? (revisionKey artifactId current) with
    | none =>
      (s.1 ++ [diagnostic .gap ("Migration " ++ toString current ++ " -> " ++
        toString (current + 1) ++ " is missing.") artifactId], s.2)
    | some migration =>
      walkTarget migrations artifactId left (current + 1)
        (s.1, s.2.set (planStep migration).key (planStep migration))

/-- The number of revisions between the two of a target. -/
def UpgradeTarget.distance (target : UpgradeTarget) : Nat :=
  (target.targetRevision - target.currentRevision).toNat

/-- mirrors packages/runtime/src/upgrade-planner.ts:147-158 -/
def walkTargets (targets : JsMap String UpgradeTarget)
    (migrations : JsMap String (UpgradeMigration V)) : List UpgradeDiagnostic × Pending V :=
  (targets.entries.map Prod.snd).foldl (fun s target =>
    walkTarget migrations target.artifactId target.distance target.currentRevision s) ([], .empty)

def Pending.steps (pending : Pending V) : List (UpgradePlanStep V) := pending.entries.map Prod.snd

/-- mirrors packages/runtime/src/upgrade-planner.ts:160-165 -/
def dependencyDiagnostics (pending : Pending V) : List UpgradeDiagnostic :=
  pending.steps.flatMap fun step =>
    ((step.dependsOn.getD []).filter fun dependency => dependency ∉ pending.keys).map
      fun dependency => diagnostic .invalid
        ("Dependency " ++ dependency ++ " is not part of the upgrade graph.") step.artifactId

/-! ## The order -/

/-- What a step waits for: its dependencies and the step before it, if it is not the first.
mirrors packages/runtime/src/upgrade-planner.ts:170-173 -/
def waitsFor (targets : JsMap String UpgradeTarget) (step : UpgradePlanStep V) : List String :=
  step.dependsOn.getD [] ++
    if (targets.get? step.artifactId).map UpgradeTarget.currentRevision = some step.fromRevision
    then [] else [revisionKey step.artifactId step.fromRevision]

/-- The comparison by kind, then by key. -/
def stepLe (left right : UpgradePlanStep V) : Prop :=
  kindOrder left.kind < kindOrder right.kind ∨
    (kindOrder left.kind = kindOrder right.kind ∧ h.localeCompare left.key right.key ≠ .gt)

instance : DecidableRel (stepLe (V := V) h) := fun _ _ => inferInstanceAs (Decidable (_ ∨ _))

/-- mirrors packages/runtime/src/upgrade-planner.ts:169-174 -/
def candidates (targets : JsMap String UpgradeTarget) (pending : Pending V) :
    List (UpgradePlanStep V) :=
  (pending.steps.filter fun step =>
    (waitsFor targets step).all fun dependency => (pending.get? dependency).isNone).insertionSort
      (stepLe h)

/-- The rounds of the loop, with the steps that are left when it ends.
mirrors packages/runtime/src/upgrade-planner.ts:167-183 -/
def orderLoop (targets : JsMap String UpgradeTarget) :
    Nat → Pending V → List (UpgradePlanStep V) → Pending V × List (UpgradePlanStep V)
  | 0, pending, ordered => (pending, ordered)
  | rounds + 1, pending, ordered =>
    match candidates h targets pending with
    | [] => (pending, ordered)
    | batch =>
      orderLoop targets rounds (batch.foldl (fun p step => p.delete step.key) pending)
        (ordered ++ batch)

/-- mirrors packages/runtime/src/upgrade-planner.ts:175-178 -/
def cycleDiagnostics (left : Pending V) : List UpgradeDiagnostic :=
  if left.size = 0 then [] else
    [diagnostic .cycle "Upgrade migration dependencies contain a cycle or unknown future step." none]

/-- mirrors packages/runtime/src/upgrade-planner.ts:185 -/
def noErrors (diagnostics : List UpgradeDiagnostic) : Bool :=
  diagnostics.all fun d => d.severity ≠ .error

/-- mirrors packages/runtime/src/upgrade-planner.ts:83-197 -/
def planPluginUpgrade (input : PlanInput V) : UpgradePlan V :=
  let targets := collectTargets input.targets
  let migrations := collectMigrations targets.2 input.migrations
  let walked := walkTargets targets.2 migrations.2
  let order := orderLoop h targets.2 walked.2.size walked.2 []
  let diagnostics := releaseDiagnostics input ++ identityDiagnostics h input ++ targets.1 ++
    migrations.1 ++ walked.1 ++ dependencyDiagnostics walked.2 ++ cycleDiagnostics order.1
  { pluginId := input.pluginId
    currentVersion := input.currentVersion
    targetVersion := input.targetVersion
    currentPlatformRelease := input.currentPlatformRelease
    targetPlatformRelease := input.targetPlatformRelease
    ready := noErrors diagnostics
    steps := order.2
    diagnostics := if noErrors diagnostics then diagnostics ++
      [⟨.info, .ready, none, "Upgrade plan contains " ++ toString order.2.length ++
        " ordered step(s)."⟩] else diagnostics }

/-! ## The dry run -/

variable (revisionOf : V → Option Int)

end KNex.Upgrade
