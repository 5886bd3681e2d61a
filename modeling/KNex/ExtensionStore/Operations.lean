import KNex.ExtensionStore.Checks

/-!
# The runtime extension store

`packages/payload-adapter/src/runtime-extension-store.ts`, transaction by transaction, and the
SQL function that rebinds the Platform Plugins of a shared static application. The readings of
the clock in a transaction are numbered in the order of its calls of `clock.now()`.

Advisory and row locks only order transactions, which are atomic here; the one that is tried and
not waited for is `lockHeld`. The authorization projector and the tables the rebind reads beside
the extensions belong to other components: whether they accept is a field of `Ambient`.
-/
namespace KNex.Store

open KNex.Core KNex.Contracts

/-- mirrors packages/payload-adapter/src/runtime-extension-store.ts:89-94 -/
structure ExecutionRequestBinding where
  operationId : String
  scope : Scope
  requestDigest : String
  deriving DecidableEq, Repr

/-- What one transaction gets from outside the store's tables. -/
structure Ambient where
  clock : Nat → Nat
  uuid : Nat → String
  /-- the authorization projector returns -/
  projects : Bool
  /-- the deployment tables hold the receipt -/
  deploymentCommitted : Bool
  /-- the authorization rows follow the rebind -/
  authorizationRebinds : Bool
  /-- a theme profile refers to the extension -/
  themeReferenced : Bool
  lockHeld : Identity → Bool
  executionRequest : Option ExecutionRequestBinding

/-! ## Statements shared by the transactions -/

/-- The row of an operation, locked by the holder of its lease.
mirrors packages/payload-adapter/src/runtime-extension-store.ts:1971-1977 -/
def lockOperation (a : Ambient) (reading : Nat) (id token : String) : Tx OperationRow := do
  let db ← read
  let row ← require (db.operations.get? id) .operationNotFound
    "Runtime extension operation is unavailable."
  ensure (row.leaseToken = token ∧ a.clock reading < row.leaseExpiresAt) .leaseConflict
    "Runtime extension operation lease is stale."
  pure row

/-- mirrors packages/payload-adapter/src/runtime-extension-store.ts:1979-1988 -/
def readOperationIdentity (id : String) : Tx OperationRow := do
  let db ← read
  require (db.operations.get? id) .operationNotFound "Runtime extension operation is unavailable."

/-- mirrors packages/payload-adapter/src/runtime-extension-store.ts:2046-2054 -/
def advanceInventoryRevision (s : Scope) : Tx Nat := do
  let db ← read
  let revision ← require (db.inventoryRevisions.get? s) .stateInvalid
    "Runtime extension inventory revision update failed."
  write (·.setInventoryRevision s (revision + 1))
  pure (revision + 1)

/-- mirrors packages/payload-adapter/src/runtime-extension-store.ts:2139-2193 -/
def writeTransitionEvidence (row : OperationRow) (phase : OperationPhase)
    (authority : Option Authority) (revision inventoryRevision : Nat) (lifecycle : LifecycleState)
    (receipt : Option StaticDeploymentReceipt) (retained : Option Generation) : Tx OutboxRow := do
  let evidence ← lift (transitionEvidence row (authority <|> row.authorityJson) receipt retained)
  ensure (evidence.schemaOk row.identity.deliveryClass) .zodError
    "Lifecycle event does not match its schema."
  let event : OutboxRow := ⟨row.identity, revision, inventoryRevision,
    .lifecycle row.operationId row.operationKind phase lifecycle evidence⟩
  write (·.emit event)
  pure event

/-- mirrors packages/payload-adapter/src/runtime-extension-store.ts:2124-2137 -/
def appendTransition (row : OperationRow) (phase : OperationPhase) (authority : Option Authority)
    (retained : Option Generation) : Tx OutboxRow := do
  let db ← read
  let state ← require (db.extensions.get? row.identity) .stateInvalid
    "Runtime extension revision update failed."
  write (·.setExtension row.identity
    { state with revision := state.revision + 1, lastOperationId := some row.operationId })
  let inventoryRevision ← advanceInventoryRevision row.identity.scope
  writeTransitionEvidence row phase authority (state.revision + 1) inventoryRevision
    (lifecycleState phase) none retained

/-- `active_count=greatest(active_count-1,0)` -/
def releaseSlot (s : Scope) (db : Db) : Db :=
  match db.budgets.get? s with
  | none => db
  | some b => db.setBudget s { b with activeCount := b.activeCount - 1 }

def releaseBudget (s : Scope) : Tx Unit := write (releaseSlot s)

def releaseBudgetIfTerminal (phase : OperationPhase) (s : Scope) : Tx Unit :=
  if terminal phase then releaseBudget s else pure ()

/-- mirrors packages/payload-adapter/src/runtime-extension-store.ts:2091-2122 -/
def completeOperation (a : Ambient) (row : OperationRow) (receipt : ManagerReceipt) : Tx Unit := do
  ensure (∀ b ∈ a.executionRequest, b.operationId = row.operationId ∧
    b.scope = row.identity.scope) .stateInvalid
    "Runtime extension execution request does not bind the completing operation."
  ensure (∀ b ∈ a.executionRequest, ∀ d ∈ row.executionRequestDigest, d = b.requestDigest)
    .leaseConflict "Runtime extension completion lease or execution request changed."
  write (·.setOperation { row with
    phase := .completed
    resultJson := some receipt
    executionRequestDigest :=
      a.executionRequest.map (·.requestDigest) <|> row.executionRequestDigest })
  releaseBudget row.identity.scope

/-- The receipt of an operation that has completed before.
mirrors packages/payload-adapter/src/runtime-extension-store.ts:2032-2044 -/
def completedReceipt (id : String) (expected : List OperationKind) :
    Tx (Option ManagerReceipt) := do
  let db ← read
  match db.operations.get? id with
  | none => pure none
  | some row =>
    if row.phase ≠ .completed then pure none
    else do
      let receipt ← require row.resultJson .stateInvalid
        "Completed runtime extension operation has no matching persisted receipt."
      ensure (row.operationKind ∈ expected ∧ receipt.operationIs row.operationKind) .stateInvalid
        "Completed runtime extension operation has no matching persisted receipt."
      pure (some receipt)

/-- mirrors packages/payload-adapter/src/runtime-extension-store.ts:1922-1939 -/
def projectAuthorizationLifecycle (host : Host) (a : Ambient) (i : Identity) : Tx Unit :=
  ensure (i.deliveryClass = .themeSkin ∨ (host.hasProjector ∧ a.projects)) .stateInvalid
    "Platform Plugin and Hot Application terminal transitions require an authorization lifecycle projector."

/-! ## Claims and plans -/

inductive ClaimStatus where
  | claimed | replay
  deriving DecidableEq, Repr

/-- The statements of a claim that finds no replay.
mirrors packages/payload-adapter/src/runtime-extension-store.ts:864-906 -/
def claimFresh (host : Host) (a : Ambient) (request : ChangeRequest)
    (requestDigest workerId : String) : Tx (ClaimStatus × OperationRow) := do
  let db ← read
  let i := request.identity
  let state ← require (db.extensions.get? i) .revisionConflict
    "Runtime extension revision differs from the requested revision."
  ensure (state.revision = request.expectedRevision) .revisionConflict
    "Runtime extension revision differs from the requested revision."
  ensure (request.operation = .install ∨ request.operation = .update →
    ∀ g ∈ state.activeGeneration,
      host.compareExactSemverPrecedence request.targetVersion g.version ≠ .lt) .versionDowngrade
    "Install and update cannot downgrade the active extension version."
  ensure (¬ db.operations.entries.any fun e => e.2.identity = i ∧ e.2.live) .operationInProgress
    "Another operation owns this extension identity."
  let budget := (db.budgets.get? i.scope).getD ⟨0, host.maxConcurrentOperations⟩
  ensure (budget.activeCount < budget.maxCount) .globalBudgetExhausted
    "Runtime extension operation budget is exhausted."
  write (·.setBudget i.scope { budget with activeCount := budget.activeCount + 1 })
  let row : OperationRow := {
    operationId := operationId requestDigest
    identity := i
    operationKind := request.operation
    idempotencyKey := request.idempotencyKey
    requestDigest := requestDigest
    expectedRevision := request.expectedRevision
    phase := .planning
    leaseOwner := workerId
    leaseToken := a.uuid 0
    leaseExpiresAt := a.clock 0 + host.leaseMs
    planJson := none
    authorityJson := none
    resultJson := none
    executionRequestDigest := none }
  -- the primary key of the operations
  ensure ((db.operations.get? row.operationId).isNone) .databaseError "duplicate key"
  write (·.setOperation row)
  pure (.claimed, row)

/-- The operation that an earlier request with the same key started.
mirrors packages/payload-adapter/src/runtime-extension-store.ts:855-858 -/
def replayOf (db : Db) (request : ChangeRequest) : Option OperationRow :=
  (db.operations.entries.find? fun e => e.2.identity = request.identity ∧
    e.2.operationKind = request.operation ∧ e.2.idempotencyKey = request.idempotencyKey).map (·.2)

/-- mirrors packages/payload-adapter/src/runtime-extension-store.ts:833-908 -/
def claimOperation (host : Host) (a : Ambient) (request : ChangeRequest)
    (requestDigest workerId : String) : Tx (ClaimStatus × OperationRow) := do
  let i := request.identity
  write fun db => { db with
    extensions := insertIfAbsent db.extensions i ExtensionRow.initial
    inventoryRevisions := insertIfAbsent db.inventoryRevisions i.scope 0 }
  let db ← read
  match replayOf db request with
  | some row => do
    ensure (row.requestDigest = requestDigest) .idempotencyConflict
      "Idempotency key was reused with a different request."
    pure (.replay, row)
  | none => claimFresh host a request requestDigest workerId

/-- mirrors packages/payload-adapter/src/runtime-extension-store.ts:910-926 -/
def resumeOperation (host : Host) (a : Ambient) (id workerId : String) : Tx OperationRow := do
  let row ← readOperationIdentity id
  if terminal row.phase then pure row
  else do
    ensure (row.leaseExpiresAt ≤ a.clock 0 ∨ row.leaseOwner = workerId) .leaseConflict
      "Runtime extension operation has a live lease."
    let resumed := { row with
      leaseOwner := workerId
      leaseToken := a.uuid 0
      leaseExpiresAt := a.clock 0 + host.leaseMs }
    write (·.setOperation resumed)
    pure resumed

/-- mirrors packages/payload-adapter/src/runtime-extension-store.ts:928-953 -/
def savePlan (host : Host) (a : Ambient) (id token : String) (plan : PluginManagerPlan) :
    Tx OperationRow := do
  let row ← lockOperation a 0 id token
  let db ← read
  let current ← require (db.extensions.get? row.identity) .revisionConflict
    "Runtime extension revision changed before planning."
  ensure (current.revision = row.expectedRevision) .revisionConflict
    "Runtime extension revision changed before planning."
  lift (assertPlanIdentity host row plan current)
  let saved := { row with planJson := some plan }
  write (·.setOperation saved)
  if plan.isImpactOnly then pure saved
  else do
    let reenable := retainedStaticEnable row plan
    let retained := if reenable then current.retainedGeneration else current.activeGeneration
    ensure (reenable → retained.isSome) .generationMismatch
      "Platform Plugin re-enable lost its retained host generation."
    let _ ← appendTransition saved .planning none retained
    pure saved

/-- mirrors packages/payload-adapter/src/runtime-extension-store.ts:955-966 -/
def saveStaticPreparation (a : Ambient) (id token : String) (plan : PluginManagerPlan) :
    Tx OperationRow := do
  let row ← lockOperation a 0 id token
  lift (assertStaticPreparation row plan)
  let saved := { row with planJson := some plan }
  write (·.setOperation saved)
  pure saved

/-- A static plan that is not prepared. -/
def unprepared (plan : PluginManagerPlan) : Bool :=
  match plan.executionClass with
  | .liveGeneration _ => false
  | .staticRelease (.prepared ..) _ => false
  | .staticRelease .. => true

/-- mirrors packages/payload-adapter/src/runtime-extension-store.ts:968-994 -/
def transition (a : Ambient) (id token : String) (expectedPhase phase : OperationPhase)
    (authority : Option Authority) : Tx (OperationRow × OutboxRow) := do
  let row ← lockOperation a 0 id token
  ensure (∀ plan ∈ row.planJson, unprepared plan = false) .phaseConflict
    "Static lifecycle transitions require a prepared source/build plan."
  ensure (row.phase = expectedPhase) .phaseConflict "Runtime extension operation phase changed."
  ensure (phase ∈ allowedTransitions row.phase) .phaseConflict
    "Runtime extension transition is invalid."
  ensure (∀ x ∈ authority, ownsAuthority row.identity x) .generationMismatch
    "Verified generation authority belongs to a different runtime extension owner."
  let saved := { row with phase := phase, authorityJson := authority <|> row.authorityJson }
  write (·.setOperation saved)
  let event ← appendTransition saved phase authority none
  releaseBudgetIfTerminal phase saved.identity.scope
  pure (saved, event)

/-! ## Live generations -/

def OperationRow.livePlan (row : OperationRow) : Option PluginManagerPlan :=
  row.planJson.filter (·.isLive)

/-- The row a stage inserts, or what it leaves of the row of the same artifact.
mirrors packages/payload-adapter/src/runtime-extension-store.ts:1010-1026 -/
def stagedRow (old : Option GenerationRow) (stage : StagedGenerationActivation) (digest : String) :
    GenerationRow :=
  let id := stage.authority.generationId
  let base := old.getD ⟨stage.version, stage.authority, digest, .warming, some id, some id, some id,
    none, none, none, none, none, none⟩
  { base with
    state := .warming
    activationJson := some stage.activation
    compatibilityJson := some stage.compatibility
    readinessToken := some stage.readiness.leaseToken
    readinessExpiresAt := some stage.readiness.expiresAt }

/-- mirrors packages/payload-adapter/src/runtime-extension-store.ts:996-1043 -/
def stageGeneration (host : Host) (a : Ambient) (id token : String)
    (stage : StagedGenerationActivation) : Tx (OperationRow × OutboxRow) := do
  lift (assertStage host stage (a.clock 0) true)
  let row ← lockOperation a 1 id token
  let plan ← require row.livePlan .phaseConflict
    "Only a staged live generation can enter warm-up."
  let authority ← require row.authorityJson .phaseConflict
    "Only a staged live generation can enter warm-up."
  ensure (row.phase = .staged) .phaseConflict "Only a staged live generation can enter warm-up."
  lift (assertStage host stage (a.clock 2) true)
  lift (assertAuthorityOwner row.identity stage.authority)
  ensure (stage.authority = authority ∧ stage.version = plan.plan.version) .generationMismatch
    "Prepared generation authority differs from the verified operation authority."
  let digest := host.authorityDigest stage.authority
  let generationId := stage.authority.generationId
  let db ← read
  let old := db.generations.get? (row.identity, generationId)
  ensure (∀ g ∈ old, g.authorityDigest = digest) .generationMismatch
    "A different artifact already owns this generation identity."
  let saved := { row with phase := .warming }
  write (·.setOperation saved)
  let event ← appendTransition saved .warming (some stage.authority) none
  write (·.setGeneration row.identity generationId
    { stagedRow old stage digest with stagedRevision := some event.revision })
  pure (saved, event)

/-- mirrors packages/payload-adapter/src/runtime-extension-store.ts:1045-1072 -/
def refreshGenerationReadiness (host : Host) (a : Ambient) (id token : String)
    (stage : StagedGenerationActivation) : Tx OperationRow := do
  let row ← lockOperation a 0 id token
  let plan ← require row.livePlan .phaseConflict
    "Only a warming live generation can refresh readiness."
  let authority ← require row.authorityJson .phaseConflict
    "Only a warming live generation can refresh readiness."
  ensure (row.phase = .warming) .phaseConflict
    "Only a warming live generation can refresh readiness."
  lift (assertStage host stage (a.clock 1) true)
  lift (assertAuthorityOwner row.identity stage.authority)
  ensure (stage.authority = authority ∧ stage.version = plan.plan.version) .generationMismatch
    "Refreshed generation authority differs from the verified operation authority."
  let generationId := stage.authority.generationId
  let db ← read
  let g ← require (db.generations.get? (row.identity, generationId)) .revisionConflict
    "Warming generation changed before readiness refresh."
  let state ← require (db.extensions.get? row.identity) .revisionConflict
    "Warming generation changed before readiness refresh."
  ensure (g.state = .warming ∧ g.stagedRevision = some state.revision ∧
    g.authorityDigest = host.authorityDigest stage.authority) .revisionConflict
    "Warming generation changed before readiness refresh."
  write (·.setGeneration row.identity generationId { g with
    activationJson := some stage.activation
    compatibilityJson := some stage.compatibility
    readinessToken := some stage.readiness.leaseToken
    readinessExpiresAt := some stage.readiness.expiresAt })
  pure row

/-- The generation a pointer change takes its evidence from.
mirrors packages/payload-adapter/src/runtime-extension-store.ts:1107 -/
def previousGeneration (state : ExtensionRow) : Option Generation :=
  state.activeGeneration <|> state.retainedGeneration

/-- mirrors packages/payload-adapter/src/runtime-extension-store.ts:1108 -/
def previousGenerationId (state : ExtensionRow) : Option String :=
  if (previousGeneration state).isSome then state.activeGenerationId else none

/-- mirrors packages/payload-adapter/src/runtime-extension-store.ts:1110 -/
def rollbackAvailable (state : ExtensionRow) (compatibility : Compatibility) : Bool :=
  state.disposition ≠ .quarantined ∧ (previousGeneration state).isSome ∧
    compatibility.isCompatible

/-- The pointers an activation writes.
mirrors packages/payload-adapter/src/runtime-extension-store.ts:1117-1128 -/
def activatedRow (state : ExtensionRow) (generationId : String) (generation : Generation)
    (compatibility : Compatibility) (operation : String) : ExtensionRow :=
  let available := rollbackAvailable state compatibility
  { revision := state.revision + 1
    disposition := .active
    activeGenerationId := some generationId
    activeGeneration := some generation
    rollbackGenerationId := if available then previousGenerationId state else none
    rollbackGeneration := if available then previousGeneration state else none
    rollbackCompatibilityJson := if available then some compatibility else none
    retainedGeneration := none
    lastOperationId := some operation }

/-- One generation becomes active, another one the rollback target.
mirrors packages/payload-adapter/src/runtime-extension-store.ts:1130-1135 -/
def swapGenerations (i : Identity) (active : String) (rollback : Option String) (receiptId : String)
    (db : Db) : Db :=
  let set := fun (db : Db) (id : String) (f : GenerationRow → GenerationRow) =>
    match db.generations.get? (i, id) with
    | none => db
    | some g => db.setGeneration i id (f g)
  let db := match rollback with
    | none => db
    | some id => set db id fun g => { g with state := .rollback }
  set db active fun g => { g with state := .active, receiptId := some receiptId }

def rollbackReport (compatibility : Compatibility) (available : Bool) : RollbackReport :=
  if ¬ compatibility.isCompatible then .blockedIrreversible
  else if available then .available else .unavailable

/-- The statements of an activation that is not a replay.
mirrors packages/payload-adapter/src/runtime-extension-store.ts:1079-1149 -/
def activateFresh (host : Host) (a : Ambient) (id token : String) : Tx ManagerReceipt := do
  let row ← lockOperation a 0 id token
  let _ ← require row.livePlan .phaseConflict "Only a warming live generation can activate."
  let authority ← require row.authorityJson .phaseConflict
    "Only a warming live generation can activate."
  ensure (row.phase = .warming ∧ (row.operationKind = .install ∨ row.operationKind = .update))
    .phaseConflict "Only a warming live generation can activate."
  lift (assertAuthorityOwner row.identity authority)
  let db ← read
  let state ← require (db.extensions.get? row.identity) .stateInvalid
    "Runtime extension state is unavailable."
  let generationId := authority.generationId
  let g ← require (db.generations.get? (row.identity, generationId)) .generationMismatch
    "Staged server, UI, storage, and extension revisions do not form one generation."
  ensure (g.stagedRevision = some state.revision ∧ g.serverGenerationId = some generationId ∧
    g.uiGenerationId = some generationId ∧ g.storageGenerationId = some generationId)
    .generationMismatch
    "Staged server, UI, storage, and extension revisions do not form one generation."
  lift (assertAuthorityOwner row.identity g.authorityJson)
  ensure (∃ t ∈ g.readinessExpiresAt, a.clock 1 < t) .readinessExpired
    "Generation readiness expired before activation."
  let compatibility ← require g.compatibilityJson .stateInvalid
    "Generation activation evidence is incomplete."
  ensure (g.activationJson.isSome) .stateInvalid "Generation activation evidence is incomplete."
  let revision := state.revision + 1
  let inventoryRevision ← advanceInventoryRevision row.identity.scope
  let receiptId := evidenceReceiptId row revision
  let available := rollbackAvailable state compatibility
  ensure (row.operationKind = .update → (previousGeneration state).isSome) .stateInvalid
    "Update has no active immutable generation evidence."
  write (·.setExtension row.identity (activatedRow state generationId
    (bundleGenerationEvidence generationId g receiptId) compatibility row.operationId))
  write (swapGenerations row.identity generationId (previousGenerationId state) receiptId)
  let _ ← writeTransitionEvidence row .completed (some authority) revision inventoryRevision
    (lifecycleState .completed) none none
  projectAuthorizationLifecycle host a row.identity
  let receipt : ActivationReceipt := ⟨receiptId, row.operationId, row.operationKind, generationId,
    previousGenerationId state, state.revision, revision, inventoryRevision, compatibility,
    rollbackReport compatibility available, a.clock 2⟩
  completeOperation a row (.activation receipt)
  pure (.activation receipt)

/-- mirrors packages/payload-adapter/src/runtime-extension-store.ts:1074-1150 -/
def activateGeneration (host : Host) (a : Ambient) (id token : String) : Tx ManagerReceipt := do
  let _ ← readOperationIdentity id
  match ← completedReceipt id [.install, .update] with
  | some receipt => pure receipt
  | none => activateFresh host a id token

/-- mirrors packages/payload-adapter/src/runtime-extension-store.ts:1179-1186 -/
def enabledRow (state : ExtensionRow) (generationId : String) (generation : Generation)
    (operation : String) : ExtensionRow :=
  { revision := state.revision + 1
    disposition := .active
    activeGenerationId := some generationId
    activeGeneration := some generation
    rollbackGenerationId := none
    rollbackGeneration := none
    rollbackCompatibilityJson := none
    retainedGeneration := none
    lastOperationId := some operation }

/-- The statements of a re-enabling that is not a replay.
mirrors packages/payload-adapter/src/runtime-extension-store.ts:1157-1207 -/
def enableFresh (host : Host) (a : Ambient) (id token : String) : Tx ManagerReceipt := do
  let row ← lockOperation a 0 id token
  let plan ← require row.livePlan .phaseConflict
    "Only a retained disabled Platform Plugin generation can be enabled live."
  let planned ← require plan.retainedStaticGeneration .phaseConflict
    "Only a retained disabled Platform Plugin generation can be enabled live."
  ensure (row.phase = .planning ∧ row.identity.deliveryClass = .platformPlugin ∧
    row.operationKind = .install) .phaseConflict
    "Only a retained disabled Platform Plugin generation can be enabled live."
  let db ← read
  let state ← require (db.extensions.get? row.identity) .revisionConflict
    "Disabled Platform Plugin changed before re-enable."
  let generation ← require state.retainedGeneration .revisionConflict
    "Disabled Platform Plugin changed before re-enable."
  ensure (state.revision = row.expectedRevision + 1 ∧ state.disposition = .disabled ∧
    state.activeGenerationId = none) .revisionConflict
    "Disabled Platform Plugin changed before re-enable."
  let retained ← lift (staticRetainedGeneration host generation host.hostInventoryDigest)
  let generationId := retained.generation.generationId
  ensure (retained = planned ∧ plan.sourceCommit = retained.generation.sourceCommit ∧
    plan.generationId = generationId ∧ plan.plan.targetGenerationId = some generationId ∧
    plan.plan.currentGenerationId = some generationId ∧
    plan.plan.version = retained.generation.version) .generationMismatch
    "Retained Platform Plugin or current host inventory does not match the enable plan."
  let revision := state.revision + 1
  let inventoryRevision ← advanceInventoryRevision row.identity.scope
  write (·.setExtension row.identity (enabledRow state generationId generation row.operationId))
  let receiptId := evidenceReceiptId row revision
  write (swapGenerations row.identity generationId none receiptId)
  let _ ← writeTransitionEvidence row .completed none revision inventoryRevision .active none
    (some generation)
  projectAuthorizationLifecycle host a row.identity
  let receipt : EnableReceipt :=
    ⟨receiptId, row.operationId, retained, state.revision, revision, inventoryRevision, a.clock 1⟩
  completeOperation a row (.enable receipt)
  pure (.enable receipt)

/-- mirrors packages/payload-adapter/src/runtime-extension-store.ts:1152-1208 -/
def enableGeneration (host : Host) (a : Ambient) (id token : String) : Tx ManagerReceipt := do
  let _ ← readOperationIdentity id
  match ← completedReceipt id [.install] with
  | some receipt => pure receipt
  | none => enableFresh host a id token

/-- The rollback target is the exact retained generation, freshly prepared.
mirrors packages/payload-adapter/src/runtime-extension-store.ts:1254-1276 -/
def rollbackTargetMatches (host : Host) (row : OperationRow) (plan : PluginManagerPlan)
    (state : ExtensionRow) (targetId : String) (target : GenerationRow)
    (stage : StagedGenerationActivation) : Bool :=
  target.state = .rollback ∧ target.serverGenerationId = some targetId ∧
    target.uiGenerationId = some targetId ∧ target.storageGenerationId = some targetId ∧
    target.version = plan.plan.version ∧ stage.version = target.version ∧
    stage.authority = target.authorityJson ∧
    host.authorityDigest stage.authority = target.authorityDigest ∧
    target.activationJson = some stage.activation ∧
    (∃ receiptId ∈ target.receiptId, recordIdOk receiptId ∧
      state.rollbackGeneration = some (bundleGenerationEvidence targetId target receiptId)) ∧
    plan.sourceCommit = stage.authority.sourceCommit ∧
    plan.plan.artifactDigest = stage.authority.artifactDigest ∧
    ownsAuthority row.identity target.authorityJson

def compatibilityOpen (now : Nat) : Compatibility → Bool
  | .irreversible .. => false
  | .compatible windowId closesAt migrationDigest dataRevision =>
    recordIdOk windowId && digestOk migrationDigest && decide (dataRevision ≤ maxRevision) &&
      decide (now < closesAt)

/-- The active generation and the rollback target change places.
mirrors packages/payload-adapter/src/runtime-extension-store.ts:1287-1292 -/
def rolledBackRow (state : ExtensionRow) (targetId : String) (target : Generation)
    (activeId : String) (active : Generation) (operation : String) : ExtensionRow :=
  { state with
    revision := state.revision + 1
    activeGenerationId := some targetId
    activeGeneration := some target
    rollbackGenerationId := some activeId
    rollbackGeneration := some active
    lastOperationId := some operation }

/-- The statements of a rollback that is not a replay.
mirrors packages/payload-adapter/src/runtime-extension-store.ts:1217-1317 -/
def rollbackFresh (host : Host) (a : Ambient) (id token : String)
    (stage : StagedGenerationActivation) : Tx ManagerReceipt := do
  let row ← lockOperation a 1 id token
  let plan ← require row.livePlan .phaseConflict
    "Only a planned live-generation rollback can commit."
  ensure (row.phase = .planning ∧ row.operationKind = .rollback) .phaseConflict
    "Only a planned live-generation rollback can commit."
  lift (assertStage host stage (a.clock 2) false)
  lift (assertAuthorityOwner row.identity stage.authority)
  let db ← read
  let state ← require (db.extensions.get? row.identity) .revisionConflict
    "Rollback expected revision does not match the planned active state."
  ensure (state.revision = row.expectedRevision + 1) .revisionConflict
    "Rollback expected revision does not match the planned active state."
  ensure (∀ c ∈ state.rollbackCompatibilityJson, c.isCompatible) .rollbackBlocked
    "Rollback is blocked by irreversible migration decision."
  lift (assertPlanIdentity host row plan state)
  let activeId ← require state.activeGenerationId .rollbackBlocked
    "No active generation is available for rollback."
  let active ← require state.activeGeneration .rollbackBlocked
    "No active generation is available for rollback."
  let targetId ← require state.rollbackGenerationId .rollbackBlocked
    "No compatible prior generation is retained."
  ensure (state.rollbackGeneration.isSome) .rollbackBlocked
    "No compatible prior generation is retained."
  let target ← require (db.generations.get? (row.identity, targetId)) .rollbackBlocked
    "Rollback generation evidence is incomplete."
  let compatibility ← require state.rollbackCompatibilityJson .rollbackBlocked
    "Rollback generation evidence is incomplete."
  lift (assertStage host stage (a.clock 3) false)
  ensure (compatibilityOpen (a.clock 4) compatibility) .rollbackBlocked
    "Rollback compatibility window is closed or invalid."
  ensure (some stage.readiness.leaseToken ≠ target.readinessToken) .readinessExpired
    "Rollback readiness lease was not freshly prepared."
  ensure (rollbackTargetMatches host row plan state targetId target stage) .generationMismatch
    "Rollback stage does not bind the exact retained immutable generation."
  let revision := state.revision + 1
  write (·.setGeneration row.identity targetId { target with
    readinessToken := some stage.readiness.leaseToken
    readinessExpiresAt := some stage.readiness.expiresAt
    stagedRevision := some state.revision })
  let inventoryRevision ← advanceInventoryRevision row.identity.scope
  let receiptId := evidenceReceiptId row revision
  write (·.setExtension row.identity (rolledBackRow state targetId
    (bundleGenerationEvidence targetId target receiptId) activeId active row.operationId))
  write (swapGenerations row.identity targetId (some activeId) receiptId)
  let _ ← writeTransitionEvidence row .completed (some target.authorityJson) revision
    inventoryRevision (lifecycleState .completed) none none
  projectAuthorizationLifecycle host a row.identity
  let receipt : ActivationReceipt := ⟨receiptId, row.operationId, .rollback, targetId,
    some activeId, state.revision, revision, inventoryRevision, compatibility, .available,
    a.clock 5⟩
  completeOperation a row (.activation receipt)
  pure (.activation receipt)

/-- mirrors packages/payload-adapter/src/runtime-extension-store.ts:1210-1318 -/
def rollbackGeneration (host : Host) (a : Ambient) (id token : String)
    (stage : StagedGenerationActivation) : Tx ManagerReceipt := do
  lift (assertStage host stage (a.clock 0) false)
  let identity ← readOperationIdentity id
  lift (assertAuthorityOwner identity.identity stage.authority)
  match ← completedReceipt id [.rollback] with
  | some receipt => pure receipt
  | none => rollbackFresh host a id token stage

/-! ## Static releases -/

/-- The Platform Plugins that follow a shared static generation: active, under an operation of
their own, beside the one that the release is for.
mirrors packages/payload-adapter/src/runtime-extension-schema-migrations.ts:1384-1394 -/
def rebindTargets (db : Db) (s : Scope) (excluded : Identity) : List Identity :=
  sortBy (·.extensionId) ((db.extensions.entries.filter fun (i, row) =>
    i.scope = s ∧ i.deliveryClass = .platformPlugin ∧ row.disposition = .active ∧ i ≠ excluded ∧
      ∃ o ∈ row.lastOperationId, ∃ r ∈ db.operations.get? o, r.identity = i).map (·.1))

/-- The static generation that an active row runs on, when it is the previous shared one. -/
def sharedGeneration (previous : Option String) (row : ExtensionRow) : Option StaticGeneration :=
  match row.activeGeneration with
  | some (.staticBuild g) =>
    if previous = some g.generationId ∧ row.activeGenerationId = previous then some g else none
  | _ => none

/-- mirrors packages/payload-adapter/src/runtime-extension-schema-migrations.ts:1130-1150 -/
def reboundRow (state : ExtensionRow) (g : StaticGeneration) (receipt : StaticDeploymentReceipt) :
    ExtensionRow :=
  { state with
    revision := state.revision + 1
    activeGenerationId := some receipt.activeGenerationId
    activeGeneration := some (.staticBuild ⟨receipt.activeGenerationId, g.version,
      receipt.sourceCommit, receipt.compositionChangePlanDigest, receipt.buildEvidenceDigest,
      receipt.applicationDigest, receipt.imageDigest, receipt.migrationRevision,
      receipt.workerFencingToken, receipt.receiptId⟩)
    rollbackGenerationId := receipt.previousGenerationId
    rollbackGeneration := state.activeGeneration
    retainedGeneration := none }

/-- mirrors packages/payload-adapter/src/runtime-extension-schema-migrations.ts:1118-1165 -/
def rebindOne (receipt : StaticDeploymentReceipt) (i : Identity) : Tx Unit := do
  let db ← read
  let state ← require (db.extensions.get? i) .databaseError "no row"
  let g ← require (sharedGeneration receipt.previousGenerationId state) .databaseError
    "Retained Platform Plugin does not bind the prior shared generation."
  let inventoryRevision ← advanceInventoryRevision i.scope
  write (·.setExtension i (reboundRow state g receipt))
  write (·.emit ⟨i, state.revision + 1, inventoryRevision,
    .sharedStaticRebind receipt.receiptId receipt.previousGenerationId receipt.activeGenerationId⟩)

def rebindAll (receipt : StaticDeploymentReceipt) : List Identity → Tx Unit
  | [] => pure ()
  | i :: is => do
    rebindOne receipt i
    rebindAll receipt is

/-- The excluded Platform Plugin as the completion has just left it.
mirrors packages/payload-adapter/src/runtime-extension-schema-migrations.ts:1352-1382 -/
def ownedByRelease (row : OperationRow) (state : ExtensionRow) (receipt : StaticDeploymentReceipt) :
    Bool :=
  state.lastOperationId = some row.operationId ∧
    if row.operationKind = .uninstall then
      state.disposition = .removed ∧ state.activeGenerationId = none ∧
        receipt.previousGenerationId.isSome ∧
        state.retainedGeneration.map (·.generationId) = receipt.previousGenerationId
    else state.disposition = .active ∧ state.activeGenerationId = some receipt.activeGenerationId

/-- `k_nex_static_shared_generation_rebind`.
mirrors packages/payload-adapter/src/runtime-extension-schema-migrations.ts:1276-1394 -/
def rebind (a : Ambient) (row : OperationRow) (receipt : StaticDeploymentReceipt) : Tx Unit := do
  let db ← read
  ensure a.deploymentCommitted .databaseError
    "Shared static generation rebind is not bound to the committed deployment receipt."
  let state ← require (db.extensions.get? row.identity) .databaseError
    "Excluded Platform Plugin is not owned by the admitted lifecycle operation."
  ensure (ownedByRelease row state receipt) .databaseError
    "Excluded Platform Plugin is not owned by the admitted lifecycle operation."
  let targets := rebindTargets db row.identity.scope row.identity
  ensure (targets = [] ∨ a.authorizationRebinds) .databaseError
    "Retained Platform Plugin authorization generation does not bind the prior shared generation."
  rebindAll receipt targets

def RollbackWindow.isOpen : RollbackWindow → Bool
  | .open_ _ => true
  | _ => false

/-- mirrors packages/payload-adapter/src/runtime-extension-store.ts:1345-1363 -/
def releasedRow (row : OperationRow) (plan : PluginManagerPlan) (state : ExtensionRow)
    (receipt : StaticDeploymentReceipt) : ExtensionRow :=
  let previous := previousGeneration state
  let active : Bool := row.operationKind ≠ .disable ∧ row.operationKind ≠ .uninstall
  let rollback :=
    if active ∧ state.disposition ≠ .quarantined ∧ receipt.rollbackWindow.isOpen then previous
    else none
  { state with
    revision := state.revision + 1
    disposition := if row.operationKind = .disable then .disabled
      else if row.operationKind = .uninstall then .removed else .active
    activeGenerationId := if active then some receipt.activeGenerationId else none
    activeGeneration := if active then some (staticGenerationEvidence plan receipt) else none
    rollbackGenerationId := rollback.map (·.generationId)
    rollbackGeneration := rollback
    retainedGeneration := if active then none else previous
    lastOperationId := some row.operationId }

/-- The receipt is the one of the planned operation.
mirrors packages/payload-adapter/src/runtime-extension-store.ts:1327-1333 -/
def receiptMatches (row : OperationRow) (plan : PluginManagerPlan) (change : SourceChange)
    (receipt : StaticDeploymentReceipt) : Bool :=
  (⟨receipt.applicationId, receipt.environment⟩ : Scope) = row.identity.scope ∧
    receipt.activeGenerationId = plan.generationId ∧
    receipt.sourceCommit = change.targetSourceCommit ∧
    receipt.compositionChangePlanDigest = change.planDigest ∧
    receipt.operation = (if row.operationKind = .rollback then .rollback else .promote) ∧
    (row.operationKind = .uninstall →
      receipt.previousGenerationId = plan.plan.currentGenerationId ∧
        some receipt.activeGenerationId ≠ receipt.previousGenerationId)

/-- The change of a static plan whose build was requested. -/
def PluginManagerPlan.preparedChange (p : PluginManagerPlan) : Option SourceChange :=
  match p.executionClass with
  | .staticRelease (.prepared change _) _ => some change
  | _ => none

/-- The statements of a static completion that is not a replay.
mirrors packages/payload-adapter/src/runtime-extension-store.ts:1318-1389 -/
def completeStaticFresh (host : Host) (a : Ambient) (id token : String)
    (receipt : StaticDeploymentReceipt) : Tx StaticDeploymentReceipt := do
  let row ← lockOperation a 0 id token
  let plan ← require row.planJson .phaseConflict
    "Static deployment receipt cannot complete this runtime operation."
  let change ← require plan.preparedChange .phaseConflict
    "Static deployment receipt cannot complete this runtime operation."
  ensure (row.identity.deliveryClass = .platformPlugin ∧
    row.phase ∈ [.sourceChangeReady, .buildAttested, .zeroDowntimeEligible, .rollbackWindowOpen])
    .phaseConflict "Static deployment receipt cannot complete this runtime operation."
  ensure (receiptMatches row plan change receipt) .generationMismatch
    "Static deployment receipt does not bind the planned runtime operation."
  let db ← read
  let state ← require (db.extensions.get? row.identity) .stateInvalid
    "Runtime extension state is unavailable."
  lift (assertPlanIdentity host row plan state)
  let revision := state.revision + 1
  let inventoryRevision ← advanceInventoryRevision row.identity.scope
  let released := releasedRow row plan state receipt
  write (·.setExtension row.identity released)
  let lifecycle := match released.disposition with
    | .removed => LifecycleState.removed
    | .disabled => .disabled
    | _ => .active
  let _ ← writeTransitionEvidence row .completed none revision inventoryRevision lifecycle
    (some receipt) none
  ensure (row.operationKind = .update → (previousGeneration state).isSome) .stateInvalid
    "Static update has no active immutable generation evidence."
  rebind a row receipt
  ensure (released.activeGenerationId.isSome ∨ (stateCurrentGenerationId state).isSome)
    .stateInvalid "Static disposition has no prior plugin generation."
  projectAuthorizationLifecycle host a row.identity
  completeOperation a row (.static receipt)
  pure receipt

/-- mirrors packages/payload-adapter/src/runtime-extension-store.ts:1320-1390 -/
def completeStaticRelease (host : Host) (a : Ambient) (id token : String)
    (receipt : StaticDeploymentReceipt) : Tx StaticDeploymentReceipt := do
  let durable ← readOperationIdentity id
  ensure (durable.identity.deliveryClass = .platformPlugin ∧
    (⟨receipt.applicationId, receipt.environment⟩ : Scope) = durable.identity.scope)
    .generationMismatch
    "Static deployment receipt does not bind the durable runtime operation scope."
  if durable.phase = .completed then do
    ensure (durable.resultJson = some (.static receipt) ∧
      (∃ plan ∈ durable.planJson, plan.isLive = false)) .stateInvalid
      "Completed static release operation has a different persisted receipt."
    pure receipt
  else completeStaticFresh host a id token receipt

/-! ## Disable and uninstall -/

/-- mirrors packages/payload-adapter/src/runtime-extension-store.ts:1600-1612 -/
def disposedRow (state : ExtensionRow) (disposition : Disposition) (operation : String) :
    ExtensionRow :=
  { revision := state.revision + 1
    disposition := disposition
    activeGenerationId := none
    activeGeneration := none
    rollbackGenerationId := none
    rollbackGeneration := none
    rollbackCompatibilityJson := none
    retainedGeneration := if disposition = .disabled then state.activeGeneration else none
    lastOperationId := some operation }

/-- mirrors packages/payload-adapter/src/runtime-extension-store.ts:1614-1629 -/
def disposeGenerations (i : Identity) (disposition : Disposition) (db : Db) : Db :=
  if disposition = .removed then
    { db with generations := db.generations.filter fun k _ => k.1 ≠ i }
  else
    { db with generations := db.generations.mapValues fun k g =>
        if k.1 = i ∧ (g.state = .active ∨ g.state = .rollback) then { g with state := .retired }
        else g }

/-- The statements of a disable or an uninstall that is not a replay.
mirrors packages/payload-adapter/src/runtime-extension-store.ts:1562-1649 -/
def changeFresh (host : Host) (a : Ambient) (id token : String) (kind : OperationKind)
    (disposition : Disposition) : Tx ManagerReceipt := do
  let row ← lockOperation a 0 id token
  let _ ← require row.livePlan .phaseConflict "Only a planned live-generation change can commit."
  ensure (row.phase = .planning ∧ row.operationKind = kind) .phaseConflict
    "Only a planned live-generation change can commit."
  ensure (¬ (row.identity.deliveryClass = .platformPlugin ∧ kind = .uninstall)) .phaseConflict
    "Platform Plugin uninstall requires static source/build authority."
  let db ← read
  let state ← require (db.extensions.get? row.identity) .revisionConflict
    "Expected revision does not match the planned state."
  ensure (state.revision = row.expectedRevision + 1) .revisionConflict
    "Expected revision does not match the planned state."
  ensure (kind = .disable → state.disposition = .active ∧ state.activeGenerationId.isSome ∧
    state.activeGeneration.isSome) .stateInvalid "Only an active extension can be disabled."
  ensure (¬ (kind = .uninstall ∧ state.disposition = .removed)) .stateInvalid
    "Removed extension cannot be uninstalled again."
  ensure (¬ (row.identity.deliveryClass = .themeSkin ∧ a.themeReferenced)) .referenceConflict
    "Theme Skin is still referenced by a durable Theme Profile revision."
  let previous := previousGeneration state
  let revision := state.revision + 1
  let inventoryRevision ← advanceInventoryRevision row.identity.scope
  write (·.setExtension row.identity (disposedRow state disposition row.operationId))
  write (disposeGenerations row.identity disposition)
  let _ ← writeTransitionEvidence row .completed none revision inventoryRevision
    (if disposition = .disabled then .disabled else .removed) none previous
  ensure (row.identity.deliveryClass ≠ .themeSkin → previous.isSome) .stateInvalid
    "The operation has no current runtime generation."
  projectAuthorizationLifecycle host a row.identity
  let receipt : DispositionReceipt := ⟨evidenceReceiptId row revision, row.operationId, kind,
    disposition, previous.map (·.generationId), state.revision, revision, inventoryRevision,
    a.clock 1⟩
  completeOperation a row (.disposition receipt)
  pure (.disposition receipt)

/-- mirrors packages/payload-adapter/src/runtime-extension-store.ts:1549-1650 -/
def changeDisposition (host : Host) (a : Ambient) (id token : String) (kind : OperationKind)
    (disposition : Disposition) : Tx ManagerReceipt := do
  let durable ← readOperationIdentity id
  ensure (durable.operationKind = kind) .phaseConflict
    "Runtime extension operation is of another kind."
  match ← completedReceipt id [kind] with
  | some receipt => pure receipt
  | none => changeFresh host a id token kind disposition

def disableGeneration (host : Host) (a : Ambient) (id token : String) : Tx ManagerReceipt :=
  changeDisposition host a id token .disable .disabled

def uninstallGeneration (host : Host) (a : Ambient) (id token : String) : Tx ManagerReceipt :=
  changeDisposition host a id token .uninstall .removed

/-! ## Quarantine -/

/-- `/^[a-z0-9][a-z0-9.-]{0,159}$/u` -/
def signerIdentityOk (s : String) : Bool :=
  let ok := fun c : Char => c.isDigit || c.isLower
  match s.toList with
  | [] => false
  | c :: cs => ok c && decide (cs.length ≤ 159) && cs.all fun c => ok c || c = '.' || c = '-'

structure SecurityRelease where
  deliveryClass : DeliveryClass
  id : String
  version : String
  sourceCommit : String
  artifactDigest : String
  manifestDigest : String
  provenanceDigest : String
  sbomDigest : String
  deriving DecidableEq, Repr

/-- The input of `quarantineActiveGeneration`; its disposition is one of ten literals that no
statement distinguishes. -/
structure SecurityQuarantineInput where
  identity : Identity
  expectedRevision : Nat
  generationId : String
  catalogDigest : String
  catalogSignerIdentity : String
  catalogSequence : Nat
  disposition : String
  release : SecurityRelease
  deriving DecidableEq, Repr

/-- mirrors packages/payload-adapter/src/runtime-extension-store.ts:1401-1420 -/
def SecurityQuarantineInput.ok (input : SecurityQuarantineInput) : Bool :=
  recordIdOk input.generationId ∧ input.identity.deliveryClass = input.release.deliveryClass ∧
    input.identity.deliveryClass ≠ .platformPlugin ∧
    input.identity.extensionId = input.release.id ∧ digestOk input.catalogDigest ∧
    1 ≤ input.catalogSequence ∧ signerIdentityOk input.catalogSignerIdentity

/-- mirrors packages/payload-adapter/src/runtime-extension-store.ts:1780-1791 -/
def securityDecisionMatches (input : SecurityQuarantineInput) (active : Generation) : Bool :=
  match active with
  | .staticBuild _ => false
  | .verifiedBundle g =>
    let r := input.release
    g.generationId = input.generationId ∧ g.version = r.version ∧
      g.sourceCommit = r.sourceCommit ∧ g.artifactDigest = r.artifactDigest ∧
      g.manifestDigest = r.manifestDigest ∧ g.provenanceDigest = r.provenanceDigest ∧
      g.sbomDigest = r.sbomDigest ∧ g.owner.deliveryClass = r.deliveryClass ∧
      g.owner.extensionId = r.id

/-- mirrors packages/payload-adapter/src/runtime-extension-store.ts:1447-1454 -/
def quarantinedRow (state : ExtensionRow) (transitionId : String) : ExtensionRow :=
  { revision := state.revision + 1
    disposition := .quarantined
    activeGenerationId := none
    activeGeneration := none
    rollbackGenerationId := none
    rollbackGeneration := none
    rollbackCompatibilityJson := none
    retainedGeneration := state.activeGeneration
    lastOperationId := some transitionId }

def retireGeneration (i : Identity) (id : String) (db : Db) : Db :=
  match db.generations.get? (i, id) with
  | some g => if g.state = .active then db.setGeneration i id { g with state := .retired } else db
  | none => db

/-- The statements that both quarantines share: the active generation leaves its pointer.
mirrors packages/payload-adapter/src/runtime-extension-store.ts:1438-1466 -/
def quarantine (a : Ambient) (i : Identity) (state : ExtensionRow) (generationId transitionId
    receiptId digest : String) (body : EventBody) : Tx QuarantineReceipt := do
  let revision := state.revision + 1
  let inventoryRevision ← advanceInventoryRevision i.scope
  write (·.setExtension i (quarantinedRow state transitionId))
  write (retireGeneration i generationId)
  let receipt : QuarantineReceipt := ⟨receiptId, transitionId, generationId, state.revision,
    revision, inventoryRevision, a.clock 0⟩
  write fun db => { db with quarantineReceipts := db.quarantineReceipts.set digest receipt }
  write (·.emit ⟨i, revision, inventoryRevision, body⟩)
  pure receipt

/-- `${prefix}${suffix}` of a digest. -/
def digestId (head digest : String) : String :=
  head ++ String.ofList ((digest.toList.drop 7).take 32)

/-- mirrors packages/payload-adapter/src/runtime-extension-store.ts:1400-1484 -/
def quarantineActiveGeneration (host : Host) (a : Ambient) (input : SecurityQuarantineInput)
    (digest : String) : Tx QuarantineReceipt := do
  ensure input.ok .stateInvalid "Security quarantine decision is invalid."
  let db ← read
  match db.quarantineReceipts.get? digest with
  | some receipt => pure receipt
  | none => do
    let state ← require (db.extensions.get? input.identity) .revisionConflict
      "Runtime extension revision changed before security quarantine."
    ensure (state.revision = input.expectedRevision) .revisionConflict
      "Runtime extension revision changed before security quarantine."
    let active ← require state.activeGeneration .generationMismatch
      "Security quarantine no longer targets the active generation."
    ensure (state.disposition = .active ∧ state.activeGenerationId = some input.generationId)
      .generationMismatch "Security quarantine no longer targets the active generation."
    ensure (securityDecisionMatches input active) .generationMismatch
      "Current security decision does not bind the exact active immutable release."
    let transitionId := digestId "security-quarantine-" digest
    let receipt ← quarantine a input.identity state input.generationId transitionId
      (digestId "security-receipt-" digest) digest
      (.securityQuarantine transitionId input.generationId)
    projectAuthorizationLifecycle host a input.identity
    pure receipt

/-- The input of `quarantineRunnerGeneration`, whose reason is one of five literals. -/
structure RunnerQuarantineInput where
  applicationId : String
  environment : String
  appId : String
  generationId : String
  expectedRevision : Nat
  reason : String
  deriving DecidableEq, Repr

def RunnerQuarantineInput.identity (input : RunnerQuarantineInput) : Identity :=
  ⟨input.applicationId, input.environment, .hotApplication, input.appId⟩

/-- mirrors packages/payload-adapter/src/runtime-extension-store.ts:1487-1493 -/
def RunnerQuarantineInput.ok (input : RunnerQuarantineInput) : Bool :=
  recordIdOk input.applicationId && environmentOk input.environment &&
    hotApplicationIdOk input.appId && recordIdOk input.generationId

/-- mirrors packages/payload-adapter/src/runtime-extension-store.ts:1486-1547 -/
def quarantineRunnerGeneration (host : Host) (a : Ambient) (input : RunnerQuarantineInput)
    (digest : String) : Tx QuarantineReceipt := do
  ensure input.ok .stateInvalid "Runner quarantine request is invalid."
  let db ← read
  match db.quarantineReceipts.get? digest with
  | some receipt => pure receipt
  | none => do
    let i := input.identity
    let state ← require (db.extensions.get? i) .revisionConflict
      "Runtime extension revision changed before runner quarantine."
    ensure (state.revision = input.expectedRevision) .revisionConflict
      "Runtime extension revision changed before runner quarantine."
    let last ← require state.lastOperationId .generationMismatch
      "Runner quarantine no longer targets the active generation."
    ensure (state.disposition = .active ∧ state.activeGenerationId = some input.generationId ∧
      state.activeGeneration.isSome) .generationMismatch
      "Runner quarantine no longer targets the active generation."
    let row ← require (db.operations.get? last) .stateInvalid
      "Runner quarantine cannot reconstruct its authoritative lifecycle evidence."
    ensure (row.identity.deliveryClass = .hotApplication ∧
      row.identity.extensionId = input.appId) .stateInvalid
      "Runner quarantine cannot reconstruct its authoritative lifecycle evidence."
    let evidence ← lift (transitionEvidence row row.authorityJson none none)
    ensure (evidence.schemaOk .hotApplication) .zodError
      "Lifecycle event does not match its schema."
    let transitionId := digestId "runner-quarantine-" digest
    let receipt ← quarantine a i state input.generationId transitionId
      (digestId "runner-receipt-" digest) digest
      (.lifecycle row.operationId row.operationKind .failed .quarantined evidence)
    projectAuthorizationLifecycle host a i
    pure receipt

/-! ## Expired operations -/

/-- The batch of a reconciliation.
mirrors packages/payload-adapter/src/runtime-extension-store.ts:792-799 -/
def expiredOperations (host : Host) (db : Db) (s : Scope) (now : Nat) : List OperationRow :=
  let expired := (db.operations.entries.map (·.2)).filter fun row =>
    row.identity.scope = s ∧ row.live ∧ row.leaseExpiresAt ≤ now
  ((sortBy (·.operationId) expired).insertionSort fun r r' =>
    r.leaseExpiresAt ≤ r'.leaseExpiresAt).take host.reconciliationBatchSize

/-- The evidence of the failure, when the operation has reached the evidence boundary.
mirrors packages/payload-adapter/src/runtime-extension-store.ts:819-822 -/
def recordFailure (row : OperationRow) : Tx Unit :=
  match row.planJson with
  | none => pure ()
  | some plan =>
    if plan.isImpactOnly then pure ()
    else do
      let _ ← appendTransition row .failed none none
      pure ()

/-- mirrors packages/payload-adapter/src/runtime-extension-store.ts:811-813 -/
def failedRow (row : OperationRow) (token : String) (now : Nat) : OperationRow :=
  { row with
    phase := .failed
    leaseOwner := "expired-operation-reconciler"
    leaseToken := token
    leaseExpiresAt := now }

/-- One candidate; the number of operations it reclaims.
mirrors packages/payload-adapter/src/runtime-extension-store.ts:801-828 -/
def reconcileOne (a : Ambient) (now : Nat) (token : String) (candidate : OperationRow) :
    Tx Nat := do
  if a.lockHeld candidate.identity then pure 0
  else do
    let db ← read
    match db.operations.get? candidate.operationId with
    | none => pure 0
    | some row =>
      if terminal row.phase ∨ now < row.leaseExpiresAt then pure 0
      else do
        write (·.setOperation (failedRow row token now))
        recordFailure (failedRow row token now)
        releaseBudget row.identity.scope
        pure 1

def reconcileAll (a : Ambient) (now : Nat) : Nat → List OperationRow → Tx Nat
  | _, [] => pure 0
  | k, candidate :: rest => do
    let n ← reconcileOne a now (a.uuid k) candidate
    let m ← reconcileAll a now (k + 1) rest
    pure (n + m)

/-- mirrors packages/payload-adapter/src/runtime-extension-store.ts:789-831 -/
def reconcileExpiredOperations (host : Host) (a : Ambient) (s : Scope) : Tx Nat := do
  let db ← read
  reconcileAll a (a.clock 0) 0 (expiredOperations host db s (a.clock 0))

end KNex.Store
