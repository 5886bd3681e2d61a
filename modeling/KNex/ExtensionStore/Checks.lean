import KNex.ExtensionStore.Transaction

/-!
# Checks of the runtime extension store

The pure checks of `packages/payload-adapter/src/runtime-extension-store.ts`: what a stage, a
plan and the evidence of a transition must satisfy. The version functions of the contracts are
fields of `Host`.
-/
namespace KNex.Store

open KNex.Core KNex.Contracts

/-- The configuration of a store, and the functions it takes from elsewhere. -/
structure Host where
  leaseMs : Nat
  maxConcurrentOperations : Nat
  reconciliationBatchSize : Nat
  hostInventoryDigest : String
  hasProjector : Bool
  exactSemverOk : String → Bool
  compareExactSemverPrecedence : String → String → Ordering
  authorityDigest : Authority → String

/-! ## Checks -/

def check (c : Prop) [Decidable c] (code : ErrorCode) (message : String) :
    Except StoreError Unit :=
  if c then .ok () else .error ⟨code, message⟩

theorem check_ok {c : Prop} [Decidable c] {code : ErrorCode} {message : String} {u : Unit} :
    check c code message = .ok u ↔ c := by
  unfold check
  by_cases h : c <;> simp [h]

def throwing {α : Type} (code : ErrorCode) (message : String) : Except StoreError α :=
  .error ⟨code, message⟩

/-- `/^[A-Za-z0-9][A-Za-z0-9._:-]{7,159}$/u` -/
def leaseTokenOk (s : String) : Bool :=
  match s.toList with
  | [] => false
  | c :: cs => c.isAlphanum && decide (7 ≤ cs.length ∧ cs.length ≤ 159) &&
      cs.all fun c => c.isAlphanum || ['.', '_', ':', '-'].contains c

/-- mirrors packages/runtime/src/plugin-manager.ts:143-151 -/
structure GenerationReadinessLease where
  generationId : String
  leaseToken : String
  readyAt : Nat
  expiresAt : Nat
  serverGenerationId : String
  uiGenerationId : String
  storageGenerationId : String
  deriving DecidableEq, Repr

/-- mirrors packages/runtime/src/plugin-manager.ts:153-161 -/
structure StagedGenerationActivation where
  authority : Authority
  version : String
  readiness : GenerationReadinessLease
  compatibility : Compatibility
  activation : Activation
  deriving DecidableEq

def Activation.json (a : Activation) : Json :=
  .obj [("metadata", .obj a.metadata), ("settings", .obj a.settings),
    ("storageSchemaVersions", .obj (a.storageSchemaVersions.map fun (k, n) => (k, .num n)))]

def Compatibility.ok (now : Nat) : Compatibility → Bool
  | .compatible windowId closesAt migrationDigest dataRevision =>
    digestOk migrationDigest && decide (dataRevision ≤ maxRevision) && recordIdOk windowId &&
      decide (now < closesAt)
  | .irreversible decisionId reason migrationDigest dataRevision =>
    digestOk migrationDigest && decide (dataRevision ≤ maxRevision) && recordIdOk decisionId &&
      decide (1 ≤ jsLength reason ∧ jsLength reason ≤ 512)

/-- mirrors packages/payload-adapter/src/runtime-extension-store.ts:307-337 -/
def assertStage (host : Host) (stage : StagedGenerationActivation) (now : Nat)
    (validateCompatibility : Bool) : Except StoreError Unit := do
  let r := stage.readiness
  let id := stage.authority.generationId
  check (r.generationId = id ∧ r.serverGenerationId = id ∧ r.uiGenerationId = id ∧
    r.storageGenerationId = id ∧ recordIdOk id) .generationMismatch
    "Server, UI, storage, and artifact generation identities must match."
  check (leaseTokenOk r.leaseToken ∧ r.readyAt ≤ now ∧ now < r.expiresAt ∧
    r.expiresAt - now ≤ 300000) .readinessExpired
    "Generation readiness lease is invalid or expired."
  check (host.exactSemverOk stage.version) .stateInvalid "Generation version is invalid."
  let a := stage.activation
  check (a.metadata.length ≤ 128 ∧ a.settings.length ≤ 128 ∧
    a.storageSchemaVersions.length ≤ 128 ∧ (Json.canonicalJson a.json).utf8ByteSize ≤ 131072 ∧
    ∀ v ∈ a.storageSchemaVersions, 1 ≤ v.2 ∧ v.2 ≤ maxRevision) .stateInvalid
    "Generation activation changes exceed their bounded contract."
  check (validateCompatibility → stage.compatibility.ok now) .stateInvalid
    "Generation migration compatibility record is invalid."

/-- mirrors packages/payload-adapter/src/runtime-extension-store.ts:370-375 -/
def ownsAuthority (identity : Identity) (authority : Authority) : Bool :=
  identity.deliveryClass ≠ .platformPlugin ∧ authority.applicationId = identity.applicationId ∧
    authority.environment = identity.environment ∧
    authority.deliveryClass = identity.deliveryClass ∧ authority.extensionId = identity.extensionId

def assertAuthorityOwner (identity : Identity) (authority : Authority) : Except StoreError Unit :=
  check (ownsAuthority identity authority) .generationMismatch
    "Verified generation authority belongs to a different runtime extension owner."

/-- mirrors packages/payload-adapter/src/runtime-extension-store.ts:377-381 -/
def stateCurrentGenerationId (state : ExtensionRow) : Option String :=
  state.activeGenerationId <|> state.retainedGeneration.map (·.generationId)

/-- mirrors packages/payload-adapter/src/runtime-extension-store.ts:433-449 -/
def staticRetainedGeneration (host : Host) (retained : Generation) (hostInventoryDigest : String) :
    Except StoreError StaticRetainedGeneration :=
  match retained with
  | .verifiedBundle _ =>
    throwing .generationMismatch "Retained Platform Plugin evidence is invalid."
  | .staticBuild g =>
    if recordIdOk g.generationId ∧ host.exactSemverOk g.version ∧ fullShaOk g.sourceCommit ∧
        digestOk g.compositionChangePlanDigest ∧ digestOk g.buildEvidenceDigest ∧
        digestOk g.applicationDigest ∧ digestOk g.imageDigest ∧ 1 ≤ g.workerFencingToken ∧
        recordIdOk g.receiptId ∧ digestOk hostInventoryDigest then
      .ok ⟨g, hostInventoryDigest⟩
    else throwing .generationMismatch "Retained Platform Plugin evidence is invalid."

/-- A live plan that re-enables a Platform Plugin. -/
def retainedStaticEnable (row : OperationRow) (plan : PluginManagerPlan) : Bool :=
  row.identity.deliveryClass = .platformPlugin ∧ row.operationKind = .install ∧
    plan.isLive ∧ plan.retainedStaticGeneration.isSome

/-- The part of `assertPlanIdentity` that depends on the operation.
mirrors packages/payload-adapter/src/runtime-extension-store.ts:408-430 -/
def assertPlanTarget (host : Host) (row : OperationRow) (plan : PluginManagerPlan)
    (state : ExtensionRow) : Except StoreError Unit :=
  let target := plan.plan.targetGenerationId
  let current := stateCurrentGenerationId state
  if retainedStaticEnable row plan then
    match state.retainedGeneration, plan.retainedStaticGeneration with
    | some retained, some planned => do
      let actual ← staticRetainedGeneration host retained planned.hostInventoryDigest
      check (state.disposition = .disabled ∧ actual = planned ∧
        plan.sourceCommit = planned.generation.sourceCommit ∧
        plan.generationId = planned.generation.generationId ∧
        plan.plan.version = planned.generation.version) .generationMismatch
        "Retained Platform Plugin enable plan does not match the disabled host generation."
    | _, _ => throwing .generationMismatch
        "Retained Platform Plugin enable plan does not match the disabled host generation."
  else if row.operationKind = .install ∨ row.operationKind = .update then
    check (target ≠ state.activeGenerationId ∧ target ≠ state.rollbackGenerationId)
      .generationMismatch "Install and update target generations must be fresh."
  else if row.operationKind = .rollback then
    check (state.activeGenerationId.isSome ∧ target = state.rollbackGenerationId)
      .generationMismatch "Rollback plan must target the retained inventory generation."
  else if row.identity.deliveryClass = .platformPlugin ∧ row.operationKind = .uninstall then
    check (current.isSome ∧ target ≠ current ∧ target ≠ state.rollbackGenerationId)
      .generationMismatch "Static uninstall plan must target a fresh application generation."
  else
    check (target = current) .generationMismatch
      "Disable plan must remain bound to the active inventory generation."

/-- mirrors packages/payload-adapter/src/runtime-extension-store.ts:383-431 -/
def assertPlanIdentity (host : Host) (row : OperationRow) (plan : PluginManagerPlan)
    (state : ExtensionRow) : Except StoreError Unit := do
  let planned := plan.plan
  check (plan.operationId = row.operationId ∧ planned.operationId = row.operationId ∧
    planned.operation = row.operationKind ∧ planned.deliveryClass = row.identity.deliveryClass ∧
    planned.id = row.identity.extensionId ∧ planned.expectedRevision = row.expectedRevision ∧
    planned.currentGenerationId = stateCurrentGenerationId state ∧
    planned.targetGenerationId = some plan.generationId) .generationMismatch
    "Persisted plan does not bind this operation to the current inventory generation."
  check ((row.identity.deliveryClass = .platformPlugin ∧
      (row.operationKind = .disable ∨ retainedStaticEnable row plan)) ↔
    (plan.isLive ∧ planned.deliveryClass = .platformPlugin)) .generationMismatch
    "Platform Plugin execution class does not match its lifecycle operation."
  check (row.identity.deliveryClass ≠ .platformPlugin → plan.isLive) .generationMismatch
    "Dynamic extension operation cannot use static release authority."
  check (plan.quarantineRecovery = none ∨ plan.quarantineRecovery =
    some (decide (row.operationKind = .update ∧ state.disposition = .quarantined)))
    .generationMismatch
    "Static quarantine recovery authority does not match durable lifecycle state."
  assertPlanTarget host row plan state

/-! ## Evidence of a transition -/

/-- mirrors packages/payload-adapter/src/runtime-extension-store.ts:583-605 -/
def retainedHotApplicationEvidence (row : OperationRow) (retained : Generation) :
    Except StoreError TransitionEvidence :=
  match retained with
  | .staticBuild _ => throwing .generationMismatch
      "Retained Hot Application generation evidence does not bind the exact verified extension owner."
  | .verifiedBundle g =>
    if g.owner = row.identity ∧ recordIdOk g.generationId ∧ fullShaOk g.sourceCommit ∧
        digestOk g.artifactDigest ∧ digestOk g.manifestDigest ∧ digestOk g.catalogDigest ∧
        digestOk g.provenanceDigest ∧ digestOk g.sbomDigest then
      .ok (.bundle ⟨g.sourceCommit, g.artifactDigest, g.generationId, some g.manifestDigest,
        some g.catalogDigest, some g.provenanceDigest, some g.sbomDigest⟩)
    else throwing .generationMismatch
      "Retained Hot Application generation evidence does not bind the exact verified extension owner."

/-- The evidence of a static release. -/
def staticEvidence (change : SourceChange) (generationId : String)
    (deployment : Option DeploymentRequest) (receipt : Option StaticDeploymentReceipt) :
    TransitionEvidence :=
  .platform ⟨change.targetSourceCommit, change.planDigest, generationId,
    deployment.map (·.buildRequestDigest), receipt.map (·.buildEvidenceDigest),
    receipt.map (·.applicationDigest), receipt.map (·.imageDigest)⟩

/-- The evidence of a live plan of an extension that is no Platform Plugin. -/
def bundleEvidence (plan : PluginManagerPlan) : Option Authority → TransitionEvidence
  | some a => .bundle ⟨a.sourceCommit, a.artifactDigest, a.generationId, some a.manifestDigest,
      some a.catalogDigest, some a.provenanceDigest, some a.sbomDigest⟩
  | none => .bundle ⟨plan.sourceCommit, plan.plan.artifactDigest, plan.generationId, none, none,
      none, none⟩

/-- The evidence of a live plan of a Platform Plugin: the static generation it runs on. -/
def retainedPlatformEvidence : Option Generation → Except StoreError TransitionEvidence
  | some (.staticBuild g) => .ok (.platform ⟨g.sourceCommit, g.compositionChangePlanDigest,
      g.generationId, none, some g.buildEvidenceDigest, some g.applicationDigest,
      some g.imageDigest⟩)
  | _ => throwing .stateInvalid
      "Runtime-only Platform Plugin transition is missing its retained static generation evidence."

/-- mirrors packages/payload-adapter/src/runtime-extension-store.ts:537-581 -/
def transitionEvidence (row : OperationRow) (authority : Option Authority)
    (receipt : Option StaticDeploymentReceipt) (retained : Option Generation) :
    Except StoreError TransitionEvidence :=
  match row.planJson with
  | none => throwing .stateInvalid "A lifecycle transition requires a persisted plan."
  | some plan =>
    match plan.executionClass with
    | .staticRelease .impactOnly _ => throwing .stateInvalid
        "Static lifecycle transitions require source preparation evidence."
    | .staticRelease (.sourceReady change) _ =>
      .ok (staticEvidence change plan.generationId none receipt)
    | .staticRelease (.prepared change deployment) _ =>
      .ok (staticEvidence change plan.generationId (some deployment) receipt)
    | .liveGeneration _ =>
      if row.identity.deliveryClass = .platformPlugin then retainedPlatformEvidence retained
      else
        match authority, retained with
        | none, some generation =>
          if row.identity.deliveryClass = .hotApplication then
            retainedHotApplicationEvidence row generation
          else .ok (bundleEvidence plan none)
        | authority, _ => .ok (bundleEvidence plan authority)

/-- mirrors packages/payload-adapter/src/runtime-extension-store.ts:607-613 -/
def lifecycleState : OperationPhase → LifecycleState
  | .planning => .planning
  | .downloading => .downloading
  | .verified => .verified
  | .staged => .staged
  | .waitingConfiguration => .waitingConfiguration
  | .waitingApproval => .waitingApproval
  | .warming => .warming
  | .completed | .rollbackWindowOpen => .active
  | .failed => .quarantined
  | _ => .planning

/-- mirrors packages/payload-adapter/src/runtime-extension-store.ts:615-634 -/
def allowedTransitions : OperationPhase → List OperationPhase
  | .planning => [.downloading, .sourceChangeRequired, .failed]
  | .downloading => [.verified, .failed]
  | .verified => [.staged, .failed]
  | .staged => [.waitingConfiguration, .waitingApproval, .warming, .failed]
  | .waitingConfiguration => [.waitingApproval, .warming, .failed]
  | .waitingApproval => [.warming, .failed]
  | .warming => [.completed, .failed]
  | .sourceChangeRequired => [.sourceChangeReady, .failed]
  | .sourceChangeReady => [.buildAttested, .failed]
  | .buildAttested => [.zeroDowntimeEligible, .maintenanceRequired, .unsupported, .failed]
  | .zeroDowntimeEligible => [.rollbackWindowOpen, .completed, .failed]
  | .maintenanceRequired => [.completed, .failed]
  | .unsupported => [.failed]
  | .rollbackWindowOpen => [.rollbackWindowClosed, .failed]
  | .rollbackWindowClosed => [.contractCleanupEligible, .completed, .failed]
  | .contractCleanupEligible => [.completed, .failed]
  | .completed | .failed => []

/-! ## Generation copies -/

/-- mirrors packages/payload-adapter/src/runtime-extension-store.ts:2056-2073 -/
def bundleGenerationEvidence (generationId : String) (g : GenerationRow) (receiptId : String) :
    Generation :=
  .verifiedBundle ⟨⟨g.authorityJson.applicationId, g.authorityJson.environment,
    g.authorityJson.deliveryClass, g.authorityJson.extensionId⟩, generationId, g.version,
    g.authorityJson.sourceCommit, g.authorityJson.artifactDigest, g.authorityJson.manifestDigest,
    g.authorityJson.catalogDigest, g.authorityJson.provenanceDigest, g.authorityJson.sbomDigest,
    receiptId⟩

/-- mirrors packages/payload-adapter/src/runtime-extension-store.ts:2075-2089 -/
def staticGenerationEvidence (plan : PluginManagerPlan) (receipt : StaticDeploymentReceipt) :
    Generation :=
  .staticBuild ⟨receipt.activeGenerationId, plan.plan.version, receipt.sourceCommit,
    receipt.compositionChangePlanDigest, receipt.buildEvidenceDigest, receipt.applicationDigest,
    receipt.imageDigest, receipt.migrationRevision, receipt.workerFencingToken, receipt.receiptId⟩

/-- `receipt-${suffix}` with the operation's suffix and the revision.
mirrors packages/payload-adapter/src/runtime-extension-store.ts:339-342 -/
def evidenceReceiptId (row : OperationRow) (revision : Nat) : String :=
  "receipt-" ++ String.ofList (row.operationId.toList.drop 10) ++ "-" ++ toString revision

/-- mirrors packages/payload-adapter/src/runtime-extension-store.ts:344-346 -/
def operationId (requestDigest : String) : String :=
  "operation-" ++ String.ofList ((requestDigest.toList.drop 7).take 32)

/-- The part of `assertStaticPreparation` between the two preparations.
mirrors packages/payload-adapter/src/runtime-extension-store.ts:519-534 -/
def preparationFollows : Preparation → Preparation → Bool
  | .impactOnly, .sourceReady _ => true
  | .sourceReady change, .prepared change' deployment =>
    change' = change ∧ deployment.sourceCommit = change'.targetSourceCommit
  | _, _ => false

/-- mirrors packages/payload-adapter/src/runtime-extension-store.ts:511-535 -/
def assertStaticPreparation (row : OperationRow) (plan : PluginManagerPlan) :
    Except StoreError Unit :=
  match row.planJson with
  | none => throwing .phaseConflict
      "Static release preparation does not match the persisted impact plan."
  | some previous =>
    match previous.executionClass, plan.executionClass with
    | .staticRelease before recovery, .staticRelease after recovery' => do
      check (row.phase = .planning ∧ previous.operationId = plan.operationId ∧
        previous.plan = plan.plan ∧ previous.sourceCommit = plan.sourceCommit ∧
        previous.generationId = plan.generationId ∧ recovery = recovery') .phaseConflict
        "Static release preparation does not match the persisted impact plan."
      check (preparationFollows before after) .phaseConflict
        "Static release preparation transition is invalid."
    | _, _ => throwing .phaseConflict
        "Static release preparation does not match the persisted impact plan."

end KNex.Store
