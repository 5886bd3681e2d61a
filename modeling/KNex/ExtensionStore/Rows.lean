import KNex.Contracts.Extension
import KNex.Core.JsMap
import KNex.Core.Json

/-!
# Rows of the runtime extension store

The values that `packages/payload-adapter/src/runtime-extension-store.ts` keeps in its tables
and takes from its callers. A JSON column holds the value it was written from; a column that may
be `null` is an `Option`. Instants are milliseconds.

Left out: columns no modelled query reads back (`state_digest`, `last_receipt_id`, the settings
columns, `updated_at`), and the transition receipt and audit rows, which hold the event of the
outbox row written with them.
-/
namespace KNex.Store

open KNex.Core KNex.Contracts

/-! ## Identities -/

structure Scope where
  applicationId : String
  environment : String
  deriving DecidableEq, Repr

/-- mirrors packages/payload-adapter/src/runtime-extension-store.ts:350-355 -/
structure Identity where
  applicationId : String
  environment : String
  deliveryClass : DeliveryClass
  extensionId : String
  deriving DecidableEq, Repr

def Identity.scope (i : Identity) : Scope := ⟨i.applicationId, i.environment⟩

/-! ## Generations -/

/-- mirrors packages/runtime/src/plugin-manager.ts:121-133 -/
structure Authority where
  applicationId : String
  environment : String
  deliveryClass : DeliveryClass
  extensionId : String
  generationId : String
  sourceCommit : String
  artifactDigest : String
  manifestDigest : String
  catalogDigest : String
  provenanceDigest : String
  sbomDigest : String
  deriving DecidableEq, Repr

/-- What `bundleGenerationEvidence` writes. -/
structure BundleGeneration where
  owner : Identity
  generationId : String
  version : String
  sourceCommit : String
  artifactDigest : String
  manifestDigest : String
  catalogDigest : String
  provenanceDigest : String
  sbomDigest : String
  receiptId : String
  deriving DecidableEq, Repr

/-- What `staticGenerationEvidence` writes. -/
structure StaticGeneration where
  generationId : String
  version : String
  sourceCommit : String
  compositionChangePlanDigest : String
  buildEvidenceDigest : String
  applicationDigest : String
  imageDigest : String
  migrationRevision : Nat
  workerFencingToken : Nat
  receiptId : String
  deriving DecidableEq, Repr

/-- The JSON copy of a generation; its field `authority` tells the two kinds apart. -/
inductive Generation where
  | verifiedBundle (g : BundleGeneration)
  | staticBuild (g : StaticGeneration)
  deriving DecidableEq, Repr

def Generation.generationId : Generation → String
  | .verifiedBundle g => g.generationId
  | .staticBuild g => g.generationId

def Generation.version : Generation → String
  | .verifiedBundle g => g.version
  | .staticBuild g => g.version

/-- mirrors packages/runtime/src/plugin-manager.ts:137-139 -/
inductive Compatibility where
  | compatible (windowId : String) (closesAt : Nat) (migrationDigest : String) (dataRevision : Nat)
  | irreversible (decisionId reason migrationDigest : String) (dataRevision : Nat)
  deriving DecidableEq, Repr

def Compatibility.isCompatible : Compatibility → Bool
  | .compatible .. => true
  | .irreversible .. => false

/-! ## Plans and requests -/

/-- The fields of an `ExtensionInstallPlan` that the store compares. -/
structure InstallPlan where
  operationId : String
  operation : OperationKind
  deliveryClass : DeliveryClass
  id : String
  version : String
  artifactDigest : String
  expectedRevision : Nat
  currentGenerationId : Option String
  targetGenerationId : Option String
  deriving DecidableEq, Repr

/-- mirrors packages/runtime/src/plugin-manager.ts:516-528 -/
structure StaticRetainedGeneration where
  generation : StaticGeneration
  hostInventoryDigest : String
  deriving DecidableEq, Repr

/-- `StaticCompositionChangeResult`; `change` is compared only. -/
structure SourceChange where
  planDigest : String
  targetSourceCommit : String
  change : Json
  deriving DecidableEq

structure DeploymentRequest where
  buildRequestDigest : String
  sourceCommit : String
  deriving DecidableEq, Repr

inductive Preparation where
  | impactOnly
  | sourceReady (sourceChange : SourceChange)
  | prepared (sourceChange : SourceChange) (deployment : DeploymentRequest)
  deriving DecidableEq

inductive ExecutionClass where
  | liveGeneration (retainedStaticGeneration : Option StaticRetainedGeneration)
  | staticRelease (preparation : Preparation) (quarantineRecovery : Bool)
  deriving DecidableEq

/-- mirrors packages/runtime/src/plugin-manager.ts:293-307 -/
structure PluginManagerPlan where
  operationId : String
  plan : InstallPlan
  sourceCommit : String
  generationId : String
  executionClass : ExecutionClass
  deriving DecidableEq

def PluginManagerPlan.isLive (p : PluginManagerPlan) : Bool :=
  match p.executionClass with
  | .liveGeneration _ => true
  | .staticRelease .. => false

/-- A static plan that has no source change yet; no lifecycle event can stand for it. -/
def PluginManagerPlan.isImpactOnly (p : PluginManagerPlan) : Bool :=
  match p.executionClass with
  | .staticRelease .impactOnly _ => true
  | _ => false

/-- The retained generation of a plan that re-enables a Platform Plugin. -/
def PluginManagerPlan.retainedStaticGeneration (p : PluginManagerPlan) :
    Option StaticRetainedGeneration :=
  match p.executionClass with
  | .liveGeneration r => r
  | .staticRelease .. => none

/-- The quarantine recovery flag of a static plan. -/
def PluginManagerPlan.quarantineRecovery (p : PluginManagerPlan) : Option Bool :=
  match p.executionClass with
  | .liveGeneration _ => none
  | .staticRelease _ recovery => some recovery

structure ChangeRequest where
  identity : Identity
  operation : OperationKind
  targetVersion : String
  expectedRevision : Nat
  idempotencyKey : String
  deriving DecidableEq, Repr

/-! ## Receipts -/

inductive RollbackReport where
  | available | unavailable | blockedIrreversible
  deriving DecidableEq, Repr

structure ActivationReceipt where
  receiptId : String
  operationId : String
  operation : OperationKind
  generationId : String
  previousGenerationId : Option String
  revisionBefore : Nat
  revisionAfter : Nat
  inventoryRevision : Nat
  compatibility : Compatibility
  rollback : RollbackReport
  occurredAt : Nat
  deriving DecidableEq, Repr

inductive Disposition where
  | active | disabled | quarantined | retirementPending | removed
  deriving DecidableEq, Repr

structure DispositionReceipt where
  receiptId : String
  operationId : String
  operation : OperationKind
  disposition : Disposition
  previousGenerationId : Option String
  revisionBefore : Nat
  revisionAfter : Nat
  inventoryRevision : Nat
  occurredAt : Nat
  deriving DecidableEq, Repr

structure EnableReceipt where
  receiptId : String
  operationId : String
  generation : StaticRetainedGeneration
  revisionBefore : Nat
  revisionAfter : Nat
  inventoryRevision : Nat
  occurredAt : Nat
  deriving DecidableEq, Repr

inductive DeploymentOperation where
  | promote | rollback | reserveRollbackRetirement | closeRollback
  deriving DecidableEq, Repr

inductive RollbackWindow where
  | open_ (closesAt : Nat) | closed | retirementReserved
  deriving DecidableEq, Repr

/-- mirrors packages/contracts/src/extension-runtime.ts:473-522 -/
structure StaticDeploymentReceipt where
  receiptId : String
  applicationId : String
  environment : String
  operation : DeploymentOperation
  activeGenerationId : String
  previousGenerationId : Option String
  sourceCommit : String
  compositionChangePlanDigest : String
  buildEvidenceDigest : String
  applicationDigest : String
  imageDigest : String
  migrationRevision : Nat
  workerFencingToken : Nat
  rollbackWindow : RollbackWindow
  occurredAt : Nat
  deriving DecidableEq, Repr

/-- mirrors packages/runtime/src/plugin-manager.ts:251 -/
inductive ManagerReceipt where
  | activation (r : ActivationReceipt)
  | disposition (r : DispositionReceipt)
  | enable (r : EnableReceipt)
  | static (r : StaticDeploymentReceipt)
  deriving DecidableEq, Repr

/-- `result_json.operation === row.operation_kind`: the operation of a deployment receipt is
compared with that of the row as a text. -/
def ManagerReceipt.operationIs : ManagerReceipt → OperationKind → Bool
  | .activation r, k => r.operation = k
  | .disposition r, k => r.operation = k
  | .enable _, k => k = .install
  | .static r, k => r.operation = .rollback ∧ k = .rollback

/-! ## Table rows -/

/-- mirrors packages/payload-adapter/src/runtime-extension-store.ts:109-127 -/
structure OperationRow where
  operationId : String
  identity : Identity
  operationKind : OperationKind
  idempotencyKey : String
  requestDigest : String
  expectedRevision : Nat
  phase : OperationPhase
  leaseOwner : String
  leaseToken : String
  leaseExpiresAt : Nat
  planJson : Option PluginManagerPlan
  authorityJson : Option Authority
  resultJson : Option ManagerReceipt
  executionRequestDigest : Option String
  deriving DecidableEq

/-- `phase in ('completed','failed')` -/
def terminal : OperationPhase → Bool
  | .completed | .failed => true
  | _ => false

def OperationRow.live (row : OperationRow) : Bool := !terminal row.phase

/-- mirrors packages/payload-adapter/src/runtime-extension-store.ts:133-148 -/
structure ExtensionRow where
  revision : Nat
  disposition : Disposition
  activeGenerationId : Option String
  rollbackGenerationId : Option String
  activeGeneration : Option Generation
  rollbackGeneration : Option Generation
  rollbackCompatibilityJson : Option Compatibility
  retainedGeneration : Option Generation
  lastOperationId : Option String
  deriving DecidableEq, Repr

/-- The row a claim inserts. -/
def ExtensionRow.initial : ExtensionRow := ⟨0, .removed, none, none, none, none, none, none, none⟩

structure Activation where
  metadata : List (String × Json)
  settings : List (String × Json)
  storageSchemaVersions : List (String × Nat)
  deriving DecidableEq

inductive GenerationState where
  | staged | warming | active | rollback | retired
  deriving DecidableEq, Repr

/-- mirrors packages/payload-adapter/src/runtime-extension-store.ts:150-165 -/
structure GenerationRow where
  version : String
  authorityJson : Authority
  authorityDigest : String
  state : GenerationState
  serverGenerationId : Option String
  uiGenerationId : Option String
  storageGenerationId : Option String
  activationJson : Option Activation
  compatibilityJson : Option Compatibility
  readinessToken : Option String
  readinessExpiresAt : Option Nat
  stagedRevision : Option Nat
  receiptId : Option String
  deriving DecidableEq

structure Budget where
  activeCount : Nat
  maxCount : Nat
  deriving DecidableEq, Repr

/-! ## Events -/

/-- mirrors packages/contracts/src/runtime-extension-state.ts:56-64 -/
structure BundleTransitionEvidence where
  sourceCommit : String
  artifactDigest : String
  generationId : String
  manifestDigest : Option String
  catalogDigest : Option String
  provenanceDigest : Option String
  sbomDigest : Option String
  deriving DecidableEq, Repr

/-- mirrors packages/contracts/src/runtime-extension-state.ts:66-74 -/
structure PlatformTransitionEvidence where
  sourceCommit : String
  compositionChangePlanDigest : String
  generationId : String
  buildRequestDigest : Option String
  buildEvidenceDigest : Option String
  applicationDigest : Option String
  imageDigest : Option String
  deriving DecidableEq, Repr

inductive TransitionEvidence where
  | bundle (e : BundleTransitionEvidence)
  | platform (e : PlatformTransitionEvidence)
  deriving DecidableEq, Repr

def optionalDigestOk (d : Option String) : Bool := d.all digestOk

/-- The evidence schema of a delivery class; the two shapes are strict objects.
mirrors packages/contracts/src/runtime-extension-state.ts:76-80 -/
def TransitionEvidence.schemaOk (c : DeliveryClass) : TransitionEvidence → Bool
  | .bundle e => decide (c ≠ .platformPlugin) && fullShaOk e.sourceCommit &&
      digestOk e.artifactDigest && recordIdOk e.generationId && optionalDigestOk e.manifestDigest &&
      optionalDigestOk e.catalogDigest && optionalDigestOk e.provenanceDigest &&
      optionalDigestOk e.sbomDigest
  | .platform e => decide (c = .platformPlugin) && fullShaOk e.sourceCommit &&
      digestOk e.compositionChangePlanDigest && recordIdOk e.generationId &&
      optionalDigestOk e.buildRequestDigest && optionalDigestOk e.buildEvidenceDigest &&
      optionalDigestOk e.applicationDigest && optionalDigestOk e.imageDigest

/-- What an outbox row says happened. -/
inductive EventBody where
  | lifecycle (operationId : String) (operation : OperationKind) (phase : OperationPhase)
      (lifecycleState : LifecycleState) (evidence : TransitionEvidence)
  | securityQuarantine (securityTransitionId generationId : String)
  | sharedStaticRebind (receiptId : String) (previousGenerationId : Option String)
      (generationId : String)
  deriving DecidableEq, Repr

/-- A row of `runtime_extension_outbox`. -/
structure OutboxRow where
  identity : Identity
  revision : Nat
  inventoryRevision : Nat
  body : EventBody
  deriving DecidableEq, Repr

/-- The receipt of a security or runner quarantine. -/
structure QuarantineReceipt where
  receiptId : String
  transitionId : String
  generationId : String
  revisionBefore : Nat
  revisionAfter : Nat
  inventoryRevision : Nat
  occurredAt : Nat
  deriving DecidableEq, Repr

/-! ## The database -/

/-- The tables, each a map from its primary key; the quarantine receipts are found by the digest
of the request they answer. -/
structure Db where
  extensions : JsMap Identity ExtensionRow
  inventoryRevisions : JsMap Scope Nat
  operations : JsMap String OperationRow
  budgets : JsMap Scope Budget
  generations : JsMap (Identity × String) GenerationRow
  outbox : List OutboxRow
  quarantineReceipts : JsMap String QuarantineReceipt

def Db.empty : Db :=
  ⟨JsMap.empty, JsMap.empty, JsMap.empty, JsMap.empty, JsMap.empty, [], JsMap.empty⟩

end KNex.Store
