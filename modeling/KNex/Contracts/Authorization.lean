import KNex.Contracts.Extension
import KNex.Core.Json

/-!
# Authorization contracts

`packages/contracts/src/authorization.ts`, as far as the lifecycle planner uses it: permission
descriptors with their publisher, the rows that bind a numeric authorization generation to
runtime generation ids, and the administrative catalog snapshots.
-/
namespace KNex.Contracts

open KNex.Core

/-! ## Publishers and owners -/

/-- mirrors packages/contracts/src/authorization.ts:43-53 -/
inductive PermissionPublisher where
  | platform
  | extension (deliveryClass : DeliveryClass) (extensionId : String)
  deriving DecidableEq, Repr

/-- The part after the first dot. -/
def afterDot (cs : List Char) : List Char :=
  if '.' ∈ cs then (cs.dropWhile (· ≠ '.')).drop 1 else cs

/-- mirrors packages/contracts/src/authorization.ts:88-90 -/
def permissionPublisherNamespace : PermissionPublisher → List Char
  | .platform => "system".toList
  | .extension _ id => afterDot id.toList

/-- mirrors packages/contracts/src/authorization.ts:92-96 -/
def hasReservedSystemNamespace : PermissionPublisher → Bool
  | .platform => false
  | .extension c id =>
    let ns := permissionPublisherNamespace (.extension c id)
    ns = "system".toList || "system.".toList.isPrefixOf ns

/-- mirrors packages/contracts/src/authorization.ts:98-102 -/
def isPermissionOwnedByPublisher (publisher : PermissionPublisher) (permissionId : String) : Bool :=
  !hasReservedSystemNamespace publisher && resourceIdOk permissionId &&
    (permissionPublisherNamespace publisher ++ ['.']).isPrefixOf permissionId.toList

/-- A publisher the union of the schema accepts. -/
def PermissionPublisher.schemaOk (p : PermissionPublisher) : Bool :=
  !hasReservedSystemNamespace p && match p with
    | .platform => true
    | .extension .platformPlugin id => pluginIdOk id
    | .extension .hotApplication id => hotApplicationIdOk id
    | .extension .themeSkin _ => false

/-- `ExtensionAuthorizationOwnerRef`: the publisher with the numeric generation.
mirrors packages/contracts/src/authorization.ts:66-84 -/
structure ExtensionOwner where
  deliveryClass : DeliveryClass
  extensionId : String
  generation : Nat
  deriving DecidableEq, Repr

def ExtensionOwner.publisher (o : ExtensionOwner) : PermissionPublisher :=
  .extension o.deliveryClass o.extensionId

def maxGeneration : Nat := 9007199254740991

def ExtensionOwner.schemaOk (o : ExtensionOwner) : Bool :=
  o.publisher.schemaOk && decide (1 ≤ o.generation ∧ o.generation ≤ maxGeneration)

/-! ## Permission descriptors -/

/-- mirrors packages/contracts/src/authorization.ts:126-129 -/
inductive PermissionAudience where
  | authenticated | service | system
  deriving DecidableEq, Repr

inductive PermissionOperation where
  | read | write | manage | execute
  deriving DecidableEq, Repr

inductive PermissionScope where
  | application | record | field
  deriving DecidableEq, Repr

/-- mirrors packages/contracts/src/authorization.ts:131-146 -/
structure PermissionDescriptor where
  id : String
  publisher : PermissionPublisher
  title : String
  description : String
  audience : PermissionAudience
  resource : String
  operation : PermissionOperation
  scope : PermissionScope
  deriving DecidableEq, Repr

def lengthWithin (s : String) (max : Nat) : Bool := 1 ≤ jsLength s ∧ jsLength s ≤ max

def PermissionDescriptor.schemaOk (d : PermissionDescriptor) : Bool :=
  resourceIdOk d.id && d.publisher.schemaOk && lengthWithin d.title 120 &&
    lengthWithin d.description 240 && resourceIdOk d.resource &&
    isPermissionOwnedByPublisher d.publisher d.id

/-! ## Generation rows -/

inductive GenerationState where
  | pendingConfiguration | current | retired
  deriving DecidableEq, Repr

/-- `ExtensionAuthorizationGeneration`.
mirrors packages/contracts/src/authorization.ts:316-335 -/
structure GenerationRow where
  applicationId : String
  owner : ExtensionOwner
  runtimeGenerationIds : List String
  state : GenerationState
  authorizationRevision : Nat
  lifecycleRevision : Nat
  deriving DecidableEq, Repr

def runtimeIdsOk (ids : List String) : Bool :=
  ids.all runtimeGenerationIdOk && decide ids.Nodup && decide (1 ≤ ids.length ∧ ids.length ≤ 16)

def GenerationRow.schemaOk (g : GenerationRow) : Bool :=
  applicationIdOk g.applicationId && g.owner.schemaOk && runtimeIdsOk g.runtimeGenerationIds &&
    decide (g.authorizationRevision ≤ maxRevision) && decide (g.lifecycleRevision ≤ maxRevision) &&
    decide (g.state = .pendingConfiguration →
      g.owner.deliveryClass = .hotApplication ∧ g.runtimeGenerationIds.length = 1)

/-! ## Catalog snapshots -/

inductive SnapshotState where
  | inactiveExtensionDisabled | inactiveExtensionNotReady | inactiveGenerationRetired
  | deprecated | orphanedAfterRemoval
  deriving DecidableEq, Repr

def SnapshotState.text : SnapshotState → String
  | .inactiveExtensionDisabled => "inactive-extension-disabled"
  | .inactiveExtensionNotReady => "inactive-extension-not-ready"
  | .inactiveGenerationRetired => "inactive-generation-retired"
  | .deprecated => "deprecated"
  | .orphanedAfterRemoval => "orphaned-after-removal"

def DeliveryClass.text : DeliveryClass → String
  | .platformPlugin => "platform-plugin"
  | .hotApplication => "hot-application"
  | .themeSkin => "theme-skin"

/-- `PermissionCatalogSnapshot` with an extension owner.
mirrors packages/contracts/src/authorization.ts:300-314 -/
structure CatalogSnapshot where
  id : String
  applicationId : String
  permission : PermissionDescriptor
  state : SnapshotState
  owner : ExtensionOwner
  revision : Nat
  deriving DecidableEq, Repr

/-- A letter or digit, then letters, digits and the six punctuation marks; at most 160
characters.
mirrors packages/contracts/src/authorization.ts:17-18 -/
def identifierOk (s : String) : Bool :=
  match s.toList with
  | [] => false
  | c :: cs => c.isAlphanum && decide (cs.length < 160) &&
      cs.all fun c => c.isAlphanum || ['.', '_', ':', '@', '/', '-'].contains c

def CatalogSnapshot.schemaOk (s : CatalogSnapshot) : Bool :=
  identifierOk s.id && applicationIdOk s.applicationId && s.permission.schemaOk &&
    s.owner.schemaOk && decide (s.revision ≤ maxRevision) &&
    isPermissionOwnedByPublisher s.owner.publisher s.permission.id &&
    decide (s.owner.publisher = s.permission.publisher)

end KNex.Contracts
