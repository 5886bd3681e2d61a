import KNex.Contracts.Identity

/-!
# Extension contracts

The enumerations and value patterns shared by the runtime extension store, its manager and the
authorization planner: `packages/contracts/src/extension-runtime.ts` and
`packages/contracts/src/runtime-extension-state.ts`. Events are modelled after their schema has
split them by kind; `schemaOk` is what the schema still checks of the fields that are kept.
-/
namespace KNex.Contracts

open KNex.Core

/-- mirrors packages/contracts/src/extension-runtime.ts:8 -/
inductive DeliveryClass where
  | platformPlugin | hotApplication | themeSkin
  deriving DecidableEq, Repr

/-- mirrors packages/contracts/src/extension-runtime.ts:13 -/
inductive OperationKind where
  | install | update | disable | rollback | uninstall
  deriving DecidableEq, Repr

/-- mirrors packages/contracts/src/runtime-extension-state.ts:18-23 -/
inductive OperationPhase where
  | planning | downloading | verified | staged | waitingConfiguration | waitingApproval | warming
  | sourceChangeRequired | sourceChangeReady | buildAttested | zeroDowntimeEligible
  | maintenanceRequired | unsupported | rollbackWindowOpen | rollbackWindowClosed
  | contractCleanupEligible | completed | failed
  deriving DecidableEq, Repr

/-- mirrors packages/contracts/src/extension-runtime.ts:9-12 -/
inductive LifecycleState where
  | catalogAvailable | planning | downloading | verified | staged | waitingConfiguration
  | waitingApproval | warming | active | disabled | updateAvailable | rollbackAvailable
  | quarantined | retirementPending | removed
  deriving DecidableEq, Repr

/-- The largest revision a schema accepts. -/
def maxRevision : Nat := 1000000000

/-- `/^[a-z][a-z0-9-]{2,127}$/u`: record ids, and application ids of the extension contracts. -/
def recordIdOk : String → Bool := runtimeGenerationIdOk

def hexDigitOk (c : Char) : Bool := c.isDigit || ('a' ≤ c && c ≤ 'f')

/-- `/^[0-9a-f]{40}$/u`. -/
def fullShaOk (s : String) : Bool := decide (s.toList.length = 40) && s.toList.all hexDigitOk

/-- `/^sha256:[0-9a-f]{64}$/u`. -/
def digestOk (s : String) : Bool :=
  decide (s.toList.take 7 = "sha256:".toList) && decide ((s.toList.drop 7).length = 64) &&
    (s.toList.drop 7).all hexDigitOk

/-- The identifier pattern of a delivery class. -/
def extensionIdOk : DeliveryClass → String → Bool
  | .platformPlugin => pluginIdOk
  | .hotApplication => hotApplicationIdOk
  | .themeSkin => themeSkinIdOk

def positiveRevisionOk (n : Nat) : Bool := 1 ≤ n ∧ n ≤ maxRevision

/-! ## Committed events -/

/-- The fields of `ExtensionLifecycleEvent` that its consumers read.
mirrors packages/contracts/src/runtime-extension-state.ts:32-80 -/
structure LifecycleEvent where
  applicationId : String
  deliveryClass : DeliveryClass
  id : String
  operation : OperationKind
  operationPhase : OperationPhase
  lifecycleState : LifecycleState
  expectedRevision : Nat
  revision : Nat
  generationId : String
  deriving DecidableEq, Repr

def LifecycleEvent.schemaOk (e : LifecycleEvent) : Bool :=
  recordIdOk e.applicationId && extensionIdOk e.deliveryClass e.id &&
    decide (e.expectedRevision ≤ maxRevision) && positiveRevisionOk e.revision &&
    recordIdOk e.generationId

/-- mirrors packages/contracts/src/runtime-extension-state.ts:114-135 -/
structure SecurityQuarantineEvent where
  applicationId : String
  deliveryClass : DeliveryClass
  id : String
  expectedRevision : Nat
  revision : Nat
  generationId : String
  deriving DecidableEq, Repr

def SecurityQuarantineEvent.schemaOk (e : SecurityQuarantineEvent) : Bool :=
  recordIdOk e.applicationId && decide (e.deliveryClass ≠ .platformPlugin) &&
    extensionIdOk e.deliveryClass e.id && decide (e.expectedRevision ≤ maxRevision) &&
    positiveRevisionOk e.revision && recordIdOk e.generationId

end KNex.Contracts
