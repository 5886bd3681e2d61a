import KNex.Contracts.Authorization
import KNex.Core.Except

/-!
# Planning authorization generations

`packages/runtime/src/authorization-lifecycle.ts`: from one committed extension transition and
the existing generation rows of that extension, the planner computes the next rows, the
administrative catalog snapshots and the store mutations. `planAuthorizationLifecycle` serves
the lifecycle operations, `planPendingAuthorizationGeneration` reserves a row for a Hot
Application that is not active yet.

Rows, descriptors and events are values after their schema has fixed their shape; what the
schema checks beyond the shape is `schemaOk`. The hash of a snapshot's id is a parameter.
-/
namespace KNex.Runtime.AuthorizationLifecycle

open KNex.Core KNex.Contracts

/-! ## Inputs and results -/

/-- mirrors packages/runtime/src/authorization-lifecycle.ts:21-26 -/
inductive ErrorCode where
  | invalidInput | identityMismatch | revisionConflict | ambiguousGeneration
  | unsupportedTransition
  deriving DecidableEq, Repr

structure LifecycleError where
  code : ErrorCode
  message : String
  deriving DecidableEq, Repr

abbrev Result := Except LifecycleError

def fail {α : Type} (code : ErrorCode) (message : String) : Result α := .error ⟨code, message⟩

/-- mirrors packages/runtime/src/authorization-store.ts:125-131 -/
structure ExpectedRevision where
  applicationId : String
  environment : String
  authorizationRevision : Nat
  lifecycleRevision : Nat
  deriving DecidableEq, Repr

inductive Operation where
  | install | update | rollback | disable | uninstall | quarantine
  deriving DecidableEq, Repr

/-- mirrors packages/runtime/src/authorization-lifecycle.ts:69-78 -/
structure Transition where
  applicationId : String
  deliveryClass : DeliveryClass
  extensionId : String
  operation : Operation
  lifecycleState : LifecycleState
  expectedRevision : Nat
  revision : Nat
  runtimeGenerationId : String
  deriving DecidableEq, Repr

inductive CommittedEvent where
  | lifecycle (e : LifecycleEvent)
  | quarantine (e : SecurityQuarantineEvent)
  deriving DecidableEq, Repr

inductive Compatibility where
  | compatible | incompatible
  deriving DecidableEq, Repr

/-- mirrors packages/runtime/src/authorization-lifecycle.ts:35-50 -/
structure PlanInput where
  expected : ExpectedRevision
  transition : CommittedEvent
  existingGenerations : List GenerationRow
  descriptors : List PermissionDescriptor
  priorGenerationDescriptors : Option (List PermissionDescriptor)
  runtimeGenerationIds : List String
  updateCompatibility : Option Compatibility

/-- mirrors packages/runtime/src/authorization-lifecycle.ts:62-67 -/
structure PendingPlanInput where
  expected : ExpectedRevision
  extensionId : String
  runtimeGenerationId : String
  existingGenerations : List GenerationRow

inductive Mutation where
  | extensionGeneration (g : GenerationRow)
  | catalogSnapshot (s : CatalogSnapshot)
  deriving DecidableEq, Repr

/-- mirrors packages/runtime/src/authorization-lifecycle.ts:52-60 -/
structure Plan where
  applicationId : String
  authorizationRevision : Nat
  lifecycleRevision : Nat
  generations : List GenerationRow
  snapshots : List CatalogSnapshot
  mutations : List Mutation
  replayed : Bool
  deriving DecidableEq, Repr

/-! ## Parsing -/

def parseExpectedRevision (e : ExpectedRevision) : Result ExpectedRevision :=
  if applicationIdOk e.applicationId ∧ environmentOk e.environment ∧
      e.authorizationRevision ≤ maxRevision ∧ e.lifecycleRevision ≤ maxRevision then .ok e
  else fail .revisionConflict "Authorization expected revision is invalid."

def operationOf : OperationKind → Operation
  | .install => .install | .update => .update | .rollback => .rollback
  | .disable => .disable | .uninstall => .uninstall

/-- The state a committed lifecycle event must carry. -/
def committedState : OperationKind → LifecycleState
  | .disable => .disabled
  | .uninstall => .removed
  | _ => .active

/-- A lifecycle event; a failed operation that left the extension quarantined counts as one.
mirrors packages/runtime/src/authorization-lifecycle.ts:243-274 -/
def parseLifecycleEvent (e : LifecycleEvent) : Result Transition :=
  if e.deliveryClass = .themeSkin then
    fail .unsupportedTransition "Theme Skins cannot own authorization generations."
  else if e.operationPhase = .failed ∧ e.lifecycleState = .quarantined then
    .ok ⟨e.applicationId, e.deliveryClass, e.id, .quarantine, .quarantined, e.expectedRevision,
      e.revision, e.generationId⟩
  else if e.lifecycleState ≠ committedState e.operation then
    fail .unsupportedTransition "Lifecycle transition does not have a committed terminal state."
  else .ok ⟨e.applicationId, e.deliveryClass, e.id, operationOf e.operation, e.lifecycleState,
    e.expectedRevision, e.revision, e.generationId⟩

/-- mirrors packages/runtime/src/authorization-lifecycle.ts:242-288 -/
def parseTransition : CommittedEvent → Result Transition
  | .lifecycle e =>
    if e.schemaOk then parseLifecycleEvent e
    else fail .invalidInput "Lifecycle transition is not a canonical committed Phase 9 event."
  | .quarantine e =>
    if ¬ e.schemaOk then
      fail .invalidInput "Lifecycle transition is not a canonical committed Phase 9 event."
    else if e.deliveryClass = .themeSkin then
      fail .unsupportedTransition "Theme Skins cannot own authorization generations."
    else .ok ⟨e.applicationId, e.deliveryClass, e.id, .quarantine, .quarantined,
      e.expectedRevision, e.revision, e.generationId⟩

/-- mirrors packages/runtime/src/authorization-lifecycle.ts:453-455 -/
def strictlySorted : List String → Bool
  | a :: b :: l => decide (¬ StrLe b a) && strictlySorted (b :: l)
  | _ => true

def Transition.owner (t : Transition) (generation : Nat) : ExtensionOwner :=
  ⟨t.deliveryClass, t.extensionId, generation⟩

/-- mirrors packages/runtime/src/authorization-lifecycle.ts:290-306 -/
def parseRuntimeGenerationIds (ids : List String) (t : Transition) : Result (List String) :=
  let staticUninstall := t.deliveryClass = .platformPlugin ∧ t.operation = .uninstall
  if ids = [] ∨ 16 < ids.length ∨ ¬ strictlySorted ids ∨
      (¬ staticUninstall ∧ t.runtimeGenerationId ∉ ids) then
    fail .invalidInput "Runtime generation IDs must be sorted, unique, bounded, and include the committed generation."
  else if ¬ GenerationRow.schemaOk ⟨t.applicationId, t.owner 1, ids, .current, 0, 0⟩ then
    fail .invalidInput "Runtime generation IDs are not canonical."
  else .ok ids

/-- mirrors packages/runtime/src/authorization-lifecycle.ts:308-319 -/
def parseDescriptors (ds : List PermissionDescriptor) (t : Transition) :
    Result (List PermissionDescriptor) :=
  if 256 < ds.length then
    fail .invalidInput "Authorization descriptors must be a bounded array."
  else if ¬ ds.all fun d =>
      d.schemaOk && decide (d.publisher = .extension t.deliveryClass t.extensionId) then
    fail .identityMismatch "Authorization descriptor publisher must exactly match the transitioned extension namespace."
  else if ¬ strictlySorted (ds.map (·.id)) then
    fail .invalidInput "Authorization descriptors must be sorted and unique by ID."
  else .ok ds

/-- mirrors packages/runtime/src/authorization-lifecycle.ts:448-451 -/
def nextLifecycleRevision (expected : ExpectedRevision) : Result Nat :=
  if maxRevision ≤ expected.lifecycleRevision then
    fail .revisionConflict "Lifecycle revision cannot advance further."
  else .ok (expected.lifecycleRevision + 1)

/-- The checks on one existing row.
mirrors packages/runtime/src/authorization-lifecycle.ts:323-333 -/
def parseRow (t : Transition) (expected : ExpectedRevision) (row : GenerationRow) :
    Result GenerationRow :=
  if ¬ row.schemaOk then fail .invalidInput "Existing authorization generation is not canonical."
  else if row.applicationId ≠ t.applicationId ∨ row.owner.deliveryClass ≠ t.deliveryClass ∨
      row.owner.extensionId ≠ t.extensionId then
    fail .identityMismatch "Existing authorization generation belongs to another extension identity."
  else if ¬ strictlySorted row.runtimeGenerationIds then
    fail .invalidInput "Existing authorization generation runtime IDs must be sorted and unique."
  else if expected.authorizationRevision < row.authorizationRevision then
    fail .revisionConflict "Existing authorization generation is newer than the committed transition."
  else
    nextLifecycleRevision expected >>= fun next =>
      if next < row.lifecycleRevision then
        fail .revisionConflict "Existing authorization generation is newer than the committed transition."
      else .ok row

/-- mirrors packages/runtime/src/authorization-lifecycle.ts:411-413 -/
def canonicalRows (rows : List GenerationRow) : List GenerationRow :=
  rows.insertionSort fun a b => a.owner.generation ≤ b.owner.generation

def numbers (rows : List GenerationRow) : List Nat := rows.map (·.owner.generation)

def runtimeIds (rows : List GenerationRow) : List String := rows.flatMap (·.runtimeGenerationIds)

/-- mirrors packages/runtime/src/authorization-lifecycle.ts:321-339 -/
def parseExistingGenerations (rows : List GenerationRow) (t : Transition)
    (expected : ExpectedRevision) : Result (List GenerationRow) :=
  rows.mapM (parseRow t expected) >>= fun rows =>
    if ¬ (numbers rows).Nodup ∨ ¬ (runtimeIds rows).Nodup then
      fail .ambiguousGeneration "Authorization generations cannot duplicate a numeric or runtime generation fence."
    else .ok (canonicalRows rows)

/-- At most one row of a state.
mirrors packages/runtime/src/authorization-lifecycle.ts:341-351 -/
def onlyRow (state : GenerationState) (message : String) (rows : List GenerationRow) :
    Result (Option GenerationRow) :=
  match rows.filter (·.state = state) with
  | [] => .ok none
  | [row] => .ok (some row)
  | _ => fail .ambiguousGeneration message

def currentGeneration : List GenerationRow → Result (Option GenerationRow) :=
  onlyRow .current "An extension may have only one current authorization generation."

def pendingGeneration : List GenerationRow → Result (Option GenerationRow) :=
  onlyRow .pendingConfiguration "An extension may have only one pending configuration generation."

/-! ## Building rows and snapshots -/

/-- The revisions a plan writes. -/
structure Target where
  transition : Transition
  authorizationRevision : Nat
  lifecycleRevision : Nat

/-- mirrors packages/runtime/src/authorization-lifecycle.ts:353-372 -/
def generation (x : Target) (number : Nat) (state : GenerationState) (ids : List String) :
    Result GenerationRow :=
  let row : GenerationRow := ⟨x.transition.applicationId, x.transition.owner number, ids, state,
    x.authorizationRevision, x.lifecycleRevision⟩
  if row.schemaOk then .ok row else fail .invalidInput "Authorization generation is not canonical."

/-- mirrors packages/runtime/src/authorization-lifecycle.ts:457-459 -/
def deterministicId (sha256Hex : String → String) (kind : String) (parts : List String) : String :=
  "authorization." ++ kind ++ "." ++ sha256Hex (Json.canonicalJson (.arr (parts.map .str)))

/-- mirrors packages/runtime/src/authorization-lifecycle.ts:374-396 -/
def createSnapshots (sha256Hex : String → String) (descriptors : List PermissionDescriptor)
    (owner : ExtensionOwner) (applicationId : String) (state : SnapshotState) (revision : Nat) :
    Result (List CatalogSnapshot) :=
  descriptors.mapM fun permission =>
    let snapshot : CatalogSnapshot :=
      ⟨deterministicId sha256Hex "authorization-snapshot" [owner.deliveryClass.text,
        owner.extensionId, toString owner.generation, permission.id, state.text],
        applicationId, permission, state, owner, revision⟩
    if snapshot.schemaOk then .ok snapshot
    else fail .invalidInput "Administrative permission snapshot is not canonical."

/-- mirrors packages/runtime/src/authorization-lifecycle.ts:398-404 -/
def removedDescriptors (prior target : List PermissionDescriptor) : List PermissionDescriptor :=
  prior.filter fun d => d.id ∉ target.map (·.id)

/-- mirrors packages/runtime/src/authorization-lifecycle.ts:407-409 -/
def replaceGeneration (rows : List GenerationRow) (next : GenerationRow) : List GenerationRow :=
  canonicalRows (rows.filter (·.owner.generation ≠ next.owner.generation) ++ [next])

/-- `canonicalJson(left) === canonicalJson(right)`: arrays of strings with one text are equal.
mirrors packages/runtime/src/authorization-lifecycle.ts:421-423 -/
def sameRuntimeGenerationIds (left right : List String) : Bool := left = right

/-- mirrors packages/runtime/src/authorization-lifecycle.ts:415-419 -/
def assertExactRuntimeGeneration (current : GenerationRow) (ids : List String) : Result Unit :=
  if sameRuntimeGenerationIds current.runtimeGenerationIds ids then .ok ()
  else fail .identityMismatch "Disable, uninstall, and quarantine must retain the current runtime generation IDs exactly."

/-- mirrors packages/runtime/src/authorization-lifecycle.ts:425-427 -/
def assertState (t : Transition) (expected : LifecycleState) : Result Unit :=
  if t.lifecycleState = expected then .ok ()
  else fail .unsupportedTransition "Lifecycle transition state is not valid for this authorization operation."

/-- mirrors packages/runtime/src/authorization-lifecycle.ts:441-445 -/
def nextGenerationNumber (rows : List GenerationRow) : Result Nat :=
  let maximum := (numbers rows).foldl max 0
  if maxGeneration ≤ maximum then
    fail .revisionConflict "Authorization generation cannot advance further."
  else .ok (maximum + 1)

/-- Rows and snapshots of one branch of the planner. -/
abbrev Branch := Result (List GenerationRow × List CatalogSnapshot)

/-! ## The branches of the planner -/

variable (sha256Hex : String → String)

/-- mirrors packages/runtime/src/authorization-lifecycle.ts:114-120 -/
def disablePlan (x : Target) (existing : List GenerationRow) (current : Option GenerationRow)
    (ids : List String) (descriptors : List PermissionDescriptor) : Branch := do
  assertState x.transition .disabled
  match current with
  | none => fail .revisionConflict "Disable requires one current authorization generation."
  | some current =>
    assertExactRuntimeGeneration current ids
    let next ← generation x current.owner.generation .current current.runtimeGenerationIds
    let snapshots ← createSnapshots sha256Hex descriptors next.owner x.transition.applicationId
      .inactiveExtensionDisabled x.lifecycleRevision
    .ok (replaceGeneration existing next, snapshots)

def retireSnapshotState (op : Operation) : SnapshotState :=
  if op = .uninstall then .orphanedAfterRemoval else .inactiveGenerationRetired

def Operation.text : Operation → String
  | .install => "install" | .update => "update" | .rollback => "rollback"
  | .disable => "disable" | .uninstall => "uninstall" | .quarantine => "quarantine"

/-- A current row retires; an uninstall without one advances the retired row it names, or finds
that this was done already.
mirrors packages/runtime/src/authorization-lifecycle.ts:121-138 -/
def retirePlan (x : Target) (existing : List GenerationRow) (current : Option GenerationRow)
    (ids : List String) (descriptors : List PermissionDescriptor) : Branch := do
  let op := x.transition.operation
  assertState x.transition (if op = .uninstall then .removed else .quarantined)
  let snapshots := fun owner => createSnapshots sha256Hex descriptors owner
    x.transition.applicationId (retireSnapshotState op) x.lifecycleRevision
  match current with
  | some current =>
    let retired ← generation x current.owner.generation .retired current.runtimeGenerationIds
    assertExactRuntimeGeneration current ids
    .ok (replaceGeneration existing retired, ← snapshots retired.owner)
  | none =>
    match existing.find? fun row =>
        row.state = .retired ∧ sameRuntimeGenerationIds row.runtimeGenerationIds ids with
    | none => fail .revisionConflict (op.text ++ " requires one current authorization generation.")
    | some row =>
      if op ≠ .uninstall then
        fail .revisionConflict "Only uninstall can advance an already retired authorization generation."
      else if row.lifecycleRevision = x.lifecycleRevision then
        .ok (existing, ← snapshots row.owner)
      else
        let retired ← generation x row.owner.generation .retired row.runtimeGenerationIds
        .ok (replaceGeneration existing retired, ← snapshots retired.owner)

/-- The update of an activation. `prior` is the prior descriptors of an update. -/
structure Activation where
  update : Bool
  incompatible : Bool
  prior : List PermissionDescriptor

/-- The current row, retired, when there is one. -/
def retireCurrent (x : Target) : Option GenerationRow → Result (List GenerationRow)
  | none => .ok []
  | some current => do
    .ok [← generation x current.owner.generation .retired current.runtimeGenerationIds]

/-- The snapshots of the prior descriptors under the current row's owner. -/
def retiredSnapshots (x : Target) (prior : List PermissionDescriptor) :
    Option GenerationRow → Result (List CatalogSnapshot)
  | none => .ok []
  | some current => createSnapshots sha256Hex prior current.owner x.transition.applicationId
      .inactiveGenerationRetired x.lifecycleRevision

/-- The snapshots of a promotion. -/
def promoteSnapshots (x : Target) (a : Activation) (current : Option GenerationRow) :
    Result (List CatalogSnapshot) :=
  if a.update then retiredSnapshots sha256Hex x a.prior current else .ok []

def withoutCurrent (rows : List GenerationRow) : Option GenerationRow → List GenerationRow
  | none => rows
  | some current => rows.filter (·.owner.generation ≠ current.owner.generation)

/-- The reserved row of a Hot Application becomes current.
mirrors packages/runtime/src/authorization-lifecycle.ts:141-152 -/
def promotePlan (x : Target) (existing : List GenerationRow) (current : Option GenerationRow)
    (pending : GenerationRow) (ids : List String) (a : Activation) : Branch := do
  if x.transition.deliveryClass ≠ .hotApplication ∨
      ¬ sameRuntimeGenerationIds pending.runtimeGenerationIds ids then
    fail .identityMismatch "Activation must promote the exact reserved Hot Application runtime generation."
  else
    let promoted ← generation x pending.owner.generation .current pending.runtimeGenerationIds
    let retired ← retireCurrent x current
    let rest := withoutCurrent (existing.filter (·.owner.generation ≠ pending.owner.generation)) current
    let snapshots ← promoteSnapshots sha256Hex x a current
    .ok (canonicalRows (rest ++ retired ++ [promoted]), snapshots)

/-- The current row is kept and takes the runtime ids of the input.
mirrors packages/runtime/src/authorization-lifecycle.ts:155-166 -/
def keepPlan (x : Target) (existing : List GenerationRow) (current : GenerationRow)
    (ids : List String) (descriptors : List PermissionDescriptor) (a : Activation) : Branch := do
  let next ← generation x current.owner.generation .current ids
  let removed := if a.update then removedDescriptors a.prior descriptors else []
  let snapshots ← createSnapshots sha256Hex removed current.owner x.transition.applicationId
    .deprecated x.lifecycleRevision
  .ok (replaceGeneration existing next, snapshots)

/-- A new generation; the current one retires with the runtime ids it has.
mirrors packages/runtime/src/authorization-lifecycle.ts:168-176 -/
def freshPlan (x : Target) (existing : List GenerationRow) (current : Option GenerationRow)
    (ids : List String) (a : Activation) : Branch := do
  if a.update ∧ ¬ a.incompatible then
    fail .revisionConflict "A compatible update requires the current authorization generation it preserves."
  else
    let number ← nextGenerationNumber existing
    let fresh ← generation x number .current ids
    let retired ← retireCurrent x current
    let snapshots ← retiredSnapshots sha256Hex x a.prior current
    .ok (canonicalRows (withoutCurrent existing current ++ retired ++ [fresh]), snapshots)

/-- mirrors packages/runtime/src/authorization-lifecycle.ts:139-177 -/
def activatePlan (x : Target) (existing : List GenerationRow)
    (current pending : Option GenerationRow) (ids : List String)
    (descriptors : List PermissionDescriptor) (a : Activation) : Branch := do
  assertState x.transition .active
  match pending, current with
  | some pending, current => promotePlan sha256Hex x existing current pending ids a
  | none, some current =>
    if a.incompatible ∧ sameRuntimeGenerationIds current.runtimeGenerationIds ids ∧
        current.lifecycleRevision = x.lifecycleRevision then .ok (existing, [])
    else if ¬ a.incompatible then keepPlan sha256Hex x existing current ids descriptors a
    else freshPlan sha256Hex x existing (some current) ids a
  | none, none => freshPlan sha256Hex x existing none ids a

/-! ## The planners -/

/-- mirrors packages/runtime/src/authorization-lifecycle.ts:429-435 -/
def changedRows (before after : List GenerationRow) : List GenerationRow :=
  after.filter fun row =>
    (before.find? (·.owner.generation = row.owner.generation)) ≠ some row

/-- The branch of the operation. -/
def branchPlan (x : Target) (existing : List GenerationRow) (current pending : Option GenerationRow)
    (ids : List String) (descriptors : List PermissionDescriptor) (a : Activation) : Branch :=
  match x.transition.operation with
  | .disable => disablePlan sha256Hex x existing current ids descriptors
  | .uninstall | .quarantine => retirePlan sha256Hex x existing current ids descriptors
  | _ => activatePlan sha256Hex x existing current pending ids descriptors a

/-- mirrors packages/runtime/src/authorization-lifecycle.ts:86-198 -/
def planAuthorizationLifecycle (input : PlanInput) : Result Plan := do
  let expected ← parseExpectedRevision input.expected
  let t ← parseTransition input.transition
  if t.applicationId ≠ expected.applicationId then
    fail .identityMismatch "Lifecycle transition belongs to another application."
  else if t.revision ≠ t.expectedRevision + 1 then
    fail .revisionConflict "Committed Phase 9 lifecycle transition does not advance its extension revision exactly once."
  else if ¬ (t.operation = .update ↔ input.updateCompatibility.isSome = true) then
    fail .invalidInput "Update compatibility is required only for update transitions."
  else
    let ids ← parseRuntimeGenerationIds input.runtimeGenerationIds t
    let existing ← parseExistingGenerations input.existingGenerations t expected
    let current ← currentGeneration existing
    let pending ← pendingGeneration existing
    let descriptors ← parseDescriptors input.descriptors t
    if ¬ (t.operation = .update ↔ input.priorGenerationDescriptors.isSome = true) then
      fail .invalidInput "Prior-generation descriptors are required only for update transitions."
    else
      let prior ← parseDescriptors (input.priorGenerationDescriptors.getD []) t
      let targetRevision ← nextLifecycleRevision expected
      let x : Target := ⟨t, expected.authorizationRevision, targetRevision⟩
      let a : Activation := ⟨t.operation = .update,
        t.operation = .update ∧ input.updateCompatibility = some .incompatible, prior⟩
      let (nextRows, snapshots) ← branchPlan sha256Hex x existing current pending ids descriptors a
      -- `isReplay` compares canonical texts of equally shaped rows
      let replayed : Bool := existing = nextRows
      if ¬ replayed ∧ existing.any (·.lifecycleRevision = targetRevision) then
        fail .revisionConflict "A different lifecycle transition already occupies this target revision."
      else .ok {
        applicationId := expected.applicationId
        authorizationRevision := expected.authorizationRevision
        lifecycleRevision := targetRevision
        generations := nextRows
        snapshots := snapshots
        mutations := if replayed then [] else
          (changedRows existing nextRows).map .extensionGeneration ++
            snapshots.map .catalogSnapshot
        replayed := replayed }

/-- The transition a reservation stands for. -/
def pendingTransition (input : PendingPlanInput) : Transition where
  applicationId := input.expected.applicationId
  deliveryClass := .hotApplication
  extensionId := input.extensionId
  operation := .install
  lifecycleState := .active
  expectedRevision := 0
  revision := 1
  runtimeGenerationId := input.runtimeGenerationId

/-- The pending row that already reserves the runtime generation. -/
def matchingPending (ids : List String) (rows : List GenerationRow) : Option GenerationRow :=
  rows.find? fun row =>
    row.state = .pendingConfiguration ∧ sameRuntimeGenerationIds row.runtimeGenerationIds ids

/-- mirrors packages/runtime/src/authorization-lifecycle.ts:200-240 -/
def planPendingAuthorizationGeneration (input : PendingPlanInput) : Result Plan := do
  let expected ← parseExpectedRevision input.expected
  let t := pendingTransition input
  let ids ← parseRuntimeGenerationIds [input.runtimeGenerationId] t
  let existing ← parseExistingGenerations input.existingGenerations t expected
  match matchingPending ids existing with
  | some _ => .ok ⟨expected.applicationId, expected.authorizationRevision,
      expected.lifecycleRevision, existing, [], [], true⟩
  | none =>
    let pending ← pendingGeneration existing
    match pending with
    | some _ => fail .revisionConflict "Another runtime generation already owns the pending configuration fence."
    | none =>
      let lifecycleRevision ← nextLifecycleRevision expected
      let number ← nextGenerationNumber existing
      let reserved ← generation ⟨t, expected.authorizationRevision, lifecycleRevision⟩ number
        .pendingConfiguration ids
      .ok ⟨expected.applicationId, expected.authorizationRevision, lifecycleRevision,
        canonicalRows (existing ++ [reserved]), [], [.extensionGeneration reserved], false⟩

end KNex.Runtime.AuthorizationLifecycle
