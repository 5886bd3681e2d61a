import KNex.Core.Except
import KNex.Runtime.EffectiveAuthority
import Mathlib.Data.List.Flatten

/-!
# Effective authorization catalogs

`packages/runtime/src/authorization-registry.ts`: a catalog is built from the contributions of the
extensions and from trusted policy executables. It lists the permissions of the platform and of
the active contributions with their owners, and the policy bindings with theirs; `execute` runs
the executable bound to a permission. What an executable answers is a parameter of a call; role
templates are no part of an authorization decision and are left out.

`Coherent` is what the checks establish: a permission id has one entry, a binding stands under the
owner of its permission, and what runs for a permission is the executable of its binding
(`catalog_coherent`).
-/
namespace KNex.Runtime.AuthorizationRegistry

open KNex.Core KNex.Contracts
open KNex.Runtime.EffectiveAuthority (OwnerRef)

/-! ## Errors -/

inductive RegistryErrorCode where
  | invalidInput | invalidDescriptor | invalidBinding | invalidLifecycle | duplicateDescriptor
  | duplicateBinding | duplicateExecutable | missingExecutable | undeclaredExecutable
  | ownerMismatch | referenceMismatch | scopeMismatch
  deriving DecidableEq, Repr

/-- mirrors packages/runtime/src/authorization-registry.ts:47-52 -/
structure AuthorizationRegistryError where
  code : RegistryErrorCode
  message : String
  deriving DecidableEq, Repr

abbrev Result (α : Type) := Except AuthorizationRegistryError α

def fail {α : Type} (code : RegistryErrorCode) (message : String) : Result α :=
  .error ⟨code, message⟩

/-- `if (…) fail(…)`. -/
def check (ok : Prop) [Decidable ok] (code : RegistryErrorCode) (message : String) : Result Unit :=
  if ok then .ok () else fail code message

theorem check_ok {ok : Prop} [Decidable ok] {code : RegistryErrorCode} {message : String} {u : Unit}
    (h : check ok code message = .ok u) : ok := by
  unfold check at h
  split at h
  · assumption
  · cases h

/-! ## Contributions -/

/-- mirrors packages/contracts/src/authorization.ts:147-162 -/
structure PermissionPolicyBinding where
  id : String
  publisher : PermissionPublisher
  permissionId : String
  policyReference : String
  scope : PermissionScope
  timeoutMs : Nat
  deriving DecidableEq, Repr

def PermissionPolicyBinding.schemaOk (b : PermissionPolicyBinding) : Bool :=
  resourceIdOk b.id && b.publisher.schemaOk && resourceIdOk b.permissionId &&
    resourceIdOk b.policyReference && decide (1 ≤ b.timeoutMs ∧ b.timeoutMs ≤ 5000) &&
    isPermissionOwnedByPublisher b.publisher b.id &&
    isPermissionOwnedByPublisher b.publisher b.permissionId &&
    isPermissionOwnedByPublisher b.publisher b.policyReference

/-- The fields of the authoritative source that are compared.
mirrors packages/runtime/src/authorization-registry.ts:480-487 -/
structure HotApplicationSource where
  applicationId : String
  environment : String
  extensionId : String
  generationId : String
  sourceCommit : String
  artifactDigest : String
  manifestDigest : String
  deriving DecidableEq, Repr

/-- A contribution, with the source it was made from when it is a Hot Application's. -/
structure Contribution where
  owner : ExtensionOwner
  generation : GenerationRow
  enabled : Bool
  ready : Bool
  descriptors : List PermissionDescriptor
  bindings : List PermissionPolicyBinding
  source : Option HotApplicationSource
  deriving DecidableEq, Repr

/-- mirrors packages/runtime/src/authorization-registry.ts:265-274 -/
structure ParsedContribution where
  applicationId : String
  owner : ExtensionOwner
  active : Bool
  lifecycleRevision : Nat
  descriptors : List PermissionDescriptor
  bindings : List PermissionPolicyBinding
  source : Option HotApplicationSource
  deriving DecidableEq, Repr

/-- mirrors packages/runtime/src/authorization-registry.ts:281 -/
def ownerKey (o : ExtensionOwner) : String :=
  DeliveryClass.text o.deliveryClass ++ ":" ++ o.extensionId ++ ":" ++ toString o.generation

def parseDescriptor (d : PermissionDescriptor) : Result PermissionDescriptor :=
  if d.schemaOk then .ok d else fail .invalidDescriptor "Permission descriptor is not canonical."

def parseBinding (b : PermissionPolicyBinding) : Result PermissionPolicyBinding :=
  if b.schemaOk then .ok b else fail .invalidBinding "Policy binding is not canonical."

/-- `if (seen.has(id)) fail(…); seen.add(id)`. -/
def addUnique (code : RegistryErrorCode) (message : String → String) (seen : List String)
    (id : String) : Result (List String) :=
  if seen.contains id then fail code (message id) else .ok (seen ++ [id])

/-- The binding ids and the permission ids bound so far. -/
structure Bound where
  bindingIds : List String
  permissionIds : List String

/-- A binding that no other one shadows; `place` ends the message. -/
def takeBinding (place : String) (seen : Bound) (b : PermissionPolicyBinding) : Result Bound :=
  if seen.bindingIds.contains b.id || seen.permissionIds.contains b.permissionId then
    fail .duplicateBinding ("Policy binding " ++ b.id ++
      " is duplicate or ambiguously targets one permission" ++ place ++ ".")
  else .ok ⟨seen.bindingIds ++ [b.id], seen.permissionIds ++ [b.permissionId]⟩

/-- mirrors packages/runtime/src/authorization-registry.ts:434-441 -/
def checkBinding (descriptors : List PermissionDescriptor) (seen : Bound)
    (b : PermissionPolicyBinding) : Result Bound := do
  let seen ← takeBinding "" seen b
  match descriptors.find? fun d => d.id = b.permissionId with
  | none =>
    fail .invalidBinding ("Policy binding " ++ b.id ++ " targets an undeclared permission.")
  | some d =>
    if b.scope = d.scope then .ok seen
    else fail .scopeMismatch ("Policy binding " ++ b.id ++ " scope does not match " ++ d.id ++ ".")

/-- mirrors packages/runtime/src/authorization-registry.ts:411-455 -/
def parseContribution (c : Contribution) : Result ParsedContribution := do
  check (c.owner.schemaOk ∧ c.generation.schemaOk ∧ ownerKey c.owner = ownerKey c.generation.owner)
    .ownerMismatch "Extension contribution owner must exactly match its authorization generation."
  let descriptors ← c.descriptors.mapM parseDescriptor
  let bindings ← c.bindings.mapM parseBinding
  check (∀ d ∈ descriptors, d.publisher = c.owner.publisher) .ownerMismatch
    "Permission descriptor publisher does not match its extension owner."
  check (∀ b ∈ bindings, b.publisher = c.owner.publisher) .ownerMismatch
    "Policy binding publisher does not match its extension owner."
  let _ ← (descriptors.map (·.id)).foldlM (addUnique .duplicateDescriptor fun id =>
    "Permission descriptor " ++ id ++ " is duplicate.") []
  let _ ← bindings.foldlM (checkBinding descriptors) ⟨[], []⟩
  return {
    applicationId := c.generation.applicationId
    owner := c.owner
    active := c.generation.state = .current && c.enabled && c.ready
    lifecycleRevision := c.generation.lifecycleRevision
    descriptors := descriptors
    bindings := bindings
    source := c.source }

/-! ## Executables -/

/-- A trusted executable; `source` is the authoritative source behind a gateway.
mirrors packages/runtime/src/authorization-registry.ts:85-101 -/
structure TrustedPolicyExecutable where
  kind : DeliveryClass
  deliveryClass : DeliveryClass
  extensionId : String
  bindingId : String
  policyReference : String
  source : Option HotApplicationSource
  deriving DecidableEq, Repr

structure BoundExecutable where
  executable : TrustedPolicyExecutable
  binding : PermissionPolicyBinding
  owner : ExtensionOwner
  deriving DecidableEq, Repr

/-- mirrors packages/runtime/src/authorization-registry.ts:282 and 476-478 -/
def executionKey (deliveryClass : DeliveryClass) (extensionId bindingId : String) : String :=
  DeliveryClass.text deliveryClass ++ ":" ++ extensionId ++ ":" ++ bindingId

def TrustedPolicyExecutable.key (e : TrustedPolicyExecutable) : String :=
  executionKey e.deliveryClass e.extensionId e.bindingId

/-- The publisher of a binding is its contribution's owner, without the generation. -/
def bindingKey (entry : PermissionPolicyBinding × ExtensionOwner) : String :=
  executionKey entry.2.deliveryClass entry.2.extensionId entry.1.id

def addExecutable (m : JsMap String TrustedPolicyExecutable) (e : TrustedPolicyExecutable) :
    Result (JsMap String TrustedPolicyExecutable) :=
  match m.get? e.key with
  | some _ =>
    fail .duplicateExecutable ("Policy executable " ++ e.bindingId ++ " is duplicate.")
  | none => .ok (m.set e.key e)

def samePublisher (o : ExtensionOwner) (e : TrustedPolicyExecutable) : Bool :=
  o.deliveryClass = e.deliveryClass ∧ o.extensionId = e.extensionId

/-- mirrors packages/runtime/src/authorization-registry.ts:611-629 -/
def bindExecutable (executables : List TrustedPolicyExecutable)
    (executableByBinding : JsMap String TrustedPolicyExecutable)
    (hotSourceByOwner : JsMap String HotApplicationSource) (m : JsMap String BoundExecutable)
    (entry : PermissionPolicyBinding × ExtensionOwner) : Result (JsMap String BoundExecutable) :=
  match executableByBinding.get? (bindingKey entry) with
  | none =>
    if executables.any fun e => e.bindingId = entry.1.id then
      fail .ownerMismatch ("Policy executable " ++ entry.1.id ++ " belongs to another publisher.")
    else fail .missingExecutable
      ("Policy binding " ++ entry.1.id ++ " has no trusted executable implementation.")
  | some e =>
    if samePublisher entry.2 e = false ∨ e.policyReference ≠ entry.1.policyReference ∨
        e.kind ≠ entry.2.deliveryClass then
      fail (if e.policyReference ≠ entry.1.policyReference then .referenceMismatch
          else .ownerMismatch)
        ("Policy executable " ++ entry.1.id ++ " does not exactly match its declaration.")
    else if e.kind = .hotApplication ∧
        (e.source = none ∨ hotSourceByOwner.get? (ownerKey entry.2) ≠ e.source) then
      fail .ownerMismatch ("Hot Application policy executable " ++ entry.1.id ++
        " belongs to another verified generation.")
    else .ok (m.set (bindingKey entry) ⟨e, entry.1, entry.2⟩)

/-! ## Catalogs -/

def platformPermission (id title description resource : String) (operation : PermissionOperation) :
    PermissionDescriptor where
  id := id
  publisher := .platform
  title := title
  description := description
  audience := .authenticated
  resource := resource
  operation := operation
  scope := .application

/-- mirrors packages/runtime/src/authorization-registry.ts:212-245 -/
def platformPermissionDescriptors : List PermissionDescriptor :=
  [ platformPermission "system.permissions.read" "Read permissions"
      "View active permission definitions." "system.permissions" .read
  , platformPermission "system.roles.read" "Read roles"
      "View customer roles and their grants." "system.roles" .read
  , platformPermission "system.roles.manage" "Manage roles"
      "Create and change customer roles and grants." "system.roles" .manage
  , platformPermission "system.role-assignments.read" "Read role assignments"
      "View active and revoked role assignments." "system.role-assignments" .read
  , platformPermission "system.role-assignments.manage" "Manage role assignments"
      "Create and revoke role assignments." "system.role-assignments" .manage
  , platformPermission "system.authorization.audit.read" "Read authorization audit"
      "View authorization audit records." "system.authorization.audit" .read
  , platformPermission "system.extensions.read" "Read extensions"
      "View extension state and inventory." "system.extensions" .read
  , platformPermission "system.catalog.refresh" "Refresh catalog"
      "Refresh the verified extension catalog." "system.catalog" .execute
  , platformPermission "system.extensions.plan" "Plan extension changes"
      "Preview extension lifecycle changes." "system.extensions" .manage
  , platformPermission "system.extensions.install-live" "Install live extensions"
      "Install a verified Hot Application or Theme Skin generation." "system.extensions" .execute
  , platformPermission "system.extensions.deploy-platform-plugin" "Deploy Platform Plugins"
      "Request a verified Platform Plugin deployment." "system.extensions" .execute
  , platformPermission "system.extensions.enable" "Enable extensions"
      "Enable a ready extension generation." "system.extensions" .execute
  , platformPermission "system.extensions.disable" "Disable extensions"
      "Disable an extension generation." "system.extensions" .execute
  , platformPermission "system.extensions.update" "Update extensions"
      "Request an extension update." "system.extensions" .execute
  , platformPermission "system.extensions.rollback" "Roll back extensions"
      "Request an extension rollback." "system.extensions" .execute
  , platformPermission "system.extensions.uninstall" "Uninstall extensions"
      "Request an extension uninstall." "system.extensions" .execute
  , platformPermission "system.extensions.quarantine" "Quarantine extensions"
      "Quarantine an unsafe extension generation." "system.extensions" .execute
  , platformPermission "system.settings.read" "Read system settings"
      "View system settings." "system.settings" .read
  , platformPermission "system.settings.manage" "Manage system settings"
      "Change system settings." "system.settings" .manage
  , platformPermission "system.themes.read" "Read themes"
      "View themes and theme profiles." "system.themes" .read
  , platformPermission "system.themes.manage" "Manage themes"
      "Change active themes and theme settings." "system.themes" .manage
  , platformPermission "system.workspace-pages.read" "Read workspace pages"
      "View authorized workspace pages." "system.workspace-pages" .read
  , platformPermission "system.workspace-pages.create" "Create workspace pages"
      "Create customer workspace pages." "system.workspace-pages" .write
  , platformPermission "system.workspace-pages.edit" "Edit workspace pages"
      "Edit authorized workspace page working copies." "system.workspace-pages" .write
  , platformPermission "system.workspace-pages.publish" "Publish workspace pages"
      "Publish or roll back authorized workspace pages." "system.workspace-pages" .execute
  , platformPermission "system.workspace-pages.access.manage" "Manage workspace page access"
      ("View only the bounded role and user subject projection needed for page ACL selection, " ++
        "and grant or revoke exact page access.") "system.workspace-pages" .manage
  , platformPermission "system.operations.read" "Read operations"
      "View operations, health, and receipts." "system.operations" .read
  , platformPermission "system.operations.backup" "Request backups"
      "Request a protected backup operation." "system.operations" .execute
  , platformPermission "system.operations.restore-drill" "Request restore drills"
      "Request a clean-environment restore drill." "system.operations" .execute ]

/-- mirrors packages/runtime/src/authorization-registry.ts:247-248 -/
structure EffectivePermissionDescriptor where
  descriptor : PermissionDescriptor
  owner : OwnerRef
  deriving DecidableEq, Repr

structure EffectivePolicyBinding where
  binding : PermissionPolicyBinding
  owner : ExtensionOwner
  deriving DecidableEq, Repr

structure EffectiveAuthorizationCatalog where
  applicationId : String
  lifecycleRevision : Nat
  permissions : List EffectivePermissionDescriptor
  policyBindings : List EffectivePolicyBinding
  executableByPermission : JsMap String BoundExecutable

structure CatalogInput where
  applicationId : String
  lifecycleRevision : Nat
  extensions : List Contribution
  executables : List TrustedPolicyExecutable

/-- The four sets that the contributions are checked against. -/
structure Seen where
  contributionKeys : List String
  descriptorIds : List String
  bound : Bound

/-- mirrors packages/runtime/src/authorization-registry.ts:581-593 -/
def checkContribution (applicationId : String) (seen : Seen) (c : ParsedContribution) :
    Result Seen := do
  check (c.applicationId = applicationId) .ownerMismatch
    "Extension contribution belongs to another application."
  let keys ← addUnique .ownerMismatch (fun _ =>
    "An extension generation may contribute only one catalog declaration.") seen.contributionKeys
    (ownerKey c.owner)
  let ids ← (c.descriptors.map (·.id)).foldlM (addUnique .duplicateDescriptor fun id =>
    "Permission descriptor " ++ id ++ " is duplicate across extension contributions.")
    seen.descriptorIds
  let bound ← c.bindings.foldlM (takeBinding " across extension contributions") seen.bound
  return ⟨keys, ids, bound⟩

def hotSources (contributions : List ParsedContribution) : JsMap String HotApplicationSource :=
  contributions.foldl (fun m c =>
    match c.source with
    | some source => m.set (ownerKey c.owner) source
    | none => m) .empty

def ParsedContribution.entries (c : ParsedContribution) :
    List (PermissionPolicyBinding × ExtensionOwner) :=
  c.bindings.map fun b => (b, c.owner)

def ParsedContribution.permissions (c : ParsedContribution) : List EffectivePermissionDescriptor :=
  c.descriptors.map fun d => ⟨d, .extension c.owner⟩

/-- mirrors packages/runtime/src/authorization-registry.ts:632-644 -/
def assemble (input : CatalogInput) (contributions : List ParsedContribution)
    (boundExecutables : JsMap String BoundExecutable) : EffectiveAuthorizationCatalog :=
  let active := contributions.filter (·.active)
  let platformPermissions := platformPermissionDescriptors.map fun d =>
    EffectivePermissionDescriptor.mk d .platform
  let policyBindings := sortBy (·.binding.id) ((active.flatMap (·.entries)).map fun entry =>
    EffectivePolicyBinding.mk entry.1 entry.2)
  { applicationId := input.applicationId
    lifecycleRevision := input.lifecycleRevision
    permissions := sortBy (·.descriptor.id) (platformPermissions ++ active.flatMap (·.permissions))
    policyBindings := policyBindings
    executableByPermission := policyBindings.foldl (fun m b =>
      match boundExecutables.get? (bindingKey (b.binding, b.owner)) with
      | some x => m.set b.binding.permissionId x
      | none => m) .empty }

/-- mirrors packages/runtime/src/authorization-registry.ts:562-672 -/
def createEffectiveAuthorizationCatalog (input : CatalogInput) :
    Result EffectiveAuthorizationCatalog := do
  check (isKebab input.applicationId.toList ∧ input.lifecycleRevision ≤ maxRevision) .invalidInput
    "Effective catalog input is invalid."
  let contributions ← input.extensions.mapM parseContribution
  let _ ← contributions.foldlM (checkContribution input.applicationId) ⟨[], [], ⟨[], []⟩⟩
  check (∀ c ∈ contributions, c.lifecycleRevision ≤ input.lifecycleRevision) .invalidLifecycle
    "Extension generation cannot be newer than its effective catalog."
  let executableByBinding ← input.executables.foldlM addExecutable .empty
  let boundExecutables ← (contributions.flatMap (·.entries)).foldlM
    (bindExecutable input.executables executableByBinding (hotSources contributions)) .empty
  check (∀ k ∈ executableByBinding.keys, (boundExecutables.get? k).isSome) .undeclaredExecutable
    "Trusted policy executable has no declared policy binding."
  return assemble input contributions boundExecutables

/-! ## Execution -/

inductive SubjectKind where
  | user | service
  deriving DecidableEq, Repr

structure AuthorizationSubject where
  kind : SubjectKind
  id : String
  deriving DecidableEq, Repr

/-- mirrors packages/contracts/src/authorization.ts:358-362 -/
inductive AuthorizationScope where
  | application (resource : String)
  | record (resource recordId : String)
  | field (resource recordId fieldId : String)
  deriving DecidableEq, Repr

def AuthorizationScope.kind : AuthorizationScope → PermissionScope
  | .application _ => .application
  | .record _ _ => .record
  | .field _ _ _ => .field

def AuthorizationScope.resource : AuthorizationScope → String
  | .application resource => resource
  | .record resource _ => resource
  | .field resource _ _ => resource

structure AuthorizationDelegation where
  delegationId : String
  delegator : AuthorizationSubject
  deriving DecidableEq, Repr

/-- The facts only reach the executable.
mirrors packages/runtime/src/authorization-registry.ts:54-66 -/
structure AuthorizationPolicyEvaluationInput where
  applicationId : String
  authorizationRevision : Nat
  lifecycleRevision : Nat
  permissionId : String
  scope : AuthorizationScope
  principal : AuthorizationSubject
  effectiveActor : AuthorizationSubject
  delegation : Option AuthorizationDelegation
  deriving DecidableEq, Repr

/-- How a run of an executable ends. -/
inductive Answer where
  | outcome (allow : Bool)
  | malformed | failure | timeout | aborted
  deriving DecidableEq, Repr

inductive ExecutionReason where
  | allowed | policyDenied | noPolicyBinding | invalidInput | aborted | timeout | failure
  deriving DecidableEq, Repr

structure AuthorizationPolicyExecutionResult where
  allow : Bool
  reason : ExecutionReason
  deriving DecidableEq, Repr

/-- mirrors packages/runtime/src/authorization-registry.ts:530-552 -/
def invokeBound : Answer → AuthorizationPolicyExecutionResult
  | .outcome true => ⟨true, .allowed⟩
  | .outcome false => ⟨false, .policyDenied⟩
  | .malformed => ⟨false, .failure⟩
  | .failure => ⟨false, .failure⟩
  | .timeout => ⟨false, .timeout⟩
  | .aborted => ⟨false, .aborted⟩

/-- `execute` of a catalog, on an input that `parseEvaluation` accepts.
mirrors packages/runtime/src/authorization-registry.ts:649-661 -/
def EffectiveAuthorizationCatalog.execute (cat : EffectiveAuthorizationCatalog)
    (evaluation : AuthorizationPolicyEvaluationInput) (answer : Answer) :
    AuthorizationPolicyExecutionResult :=
  if evaluation.applicationId ≠ cat.applicationId then ⟨false, .invalidInput⟩
  else match cat.executableByPermission.get? evaluation.permissionId with
  | none => ⟨false, .noPolicyBinding⟩
  | some x =>
    match cat.permissions.find? fun e => e.descriptor.id = evaluation.permissionId with
    | none => ⟨false, .invalidInput⟩
    | some e =>
      if e.descriptor.scope ≠ x.binding.scope ∨ evaluation.scope.kind ≠ e.descriptor.scope ∨
          evaluation.scope.resource ≠ e.descriptor.resource then ⟨false, .invalidInput⟩
      else invokeBound answer

theorem execute_allow {cat : EffectiveAuthorizationCatalog}
    {evaluation : AuthorizationPolicyEvaluationInput} {answer : Answer}
    (h : (cat.execute evaluation answer).allow = true) : answer = .outcome true := by
  unfold EffectiveAuthorizationCatalog.execute at h
  split at h
  · cases h
  · split at h
    · cases h
    · split at h
      · cases h
      · split at h
        · cases h
        · cases answer with
          | outcome allow =>
            cases allow with
            | true => rfl
            | false => cases h
          | _ => cases h

/-! ## What the checks establish -/

structure Coherent (cat : EffectiveAuthorizationCatalog) : Prop where
  permissions : ∀ e ∈ cat.permissions, ∀ e' ∈ cat.permissions,
    e.descriptor.id = e'.descriptor.id → e = e'
  binding : ∀ b ∈ cat.policyBindings, ∃ e ∈ cat.permissions,
    e.descriptor.id = b.binding.permissionId ∧ e.owner = .extension b.owner ∧
      b.binding.scope = e.descriptor.scope
  executable : ∀ b ∈ cat.policyBindings, ∃ x,
    cat.executableByPermission.get? b.binding.permissionId = some x ∧ x.binding = b.binding ∧
      x.owner = b.owner

/-! ### Sets that grow -/

theorem addUnique_fold {code : RegistryErrorCode} {message : String → String} :
    ∀ {l seen seen' : List String}, l.foldlM (addUnique code message) seen = .ok seen' →
      seen' = seen ++ l ∧ (seen.Nodup → seen'.Nodup)
  | [], seen, seen', h => by
    obtain rfl := Except.ok.inj h
    simp
  | id :: l, seen, seen', h => by
    rw [List.foldlM_cons] at h
    obtain ⟨s₁, h₁, h⟩ := bind_eq_ok.mp h
    unfold addUnique at h₁
    split at h₁
    · cases h₁
    · rename_i hnew
      obtain rfl := Except.ok.inj h₁
      obtain ⟨rfl, hnodup⟩ := addUnique_fold h
      refine ⟨by simp, fun hs => hnodup ?_⟩
      rw [List.nodup_append]
      refine ⟨hs, List.nodup_singleton id, fun a ha b hb hab => hnew ?_⟩
      obtain rfl := List.mem_singleton.mp hb
      rw [← hab]
      simpa using ha

structure Bound.Nodup (s : Bound) : Prop where
  bindingIds : s.bindingIds.Nodup
  permissionIds : s.permissionIds.Nodup

theorem takeBinding_ok {place : String} {seen seen' : Bound} {b : PermissionPolicyBinding}
    (h : takeBinding place seen b = .ok seen') :
    seen' = ⟨seen.bindingIds ++ [b.id], seen.permissionIds ++ [b.permissionId]⟩ ∧
      (seen.Nodup → seen'.Nodup) := by
  unfold takeBinding at h
  split at h
  · cases h
  · rename_i hnew
    simp only [Bool.or_eq_true, List.contains_iff_mem, not_or] at hnew
    obtain rfl := Except.ok.inj h
    refine ⟨rfl, fun hs => ⟨?_, ?_⟩⟩
    · rw [List.nodup_append]
      exact ⟨hs.bindingIds, List.nodup_singleton _, fun a ha c hc hac =>
        hnew.1 (List.mem_singleton.mp hc ▸ hac ▸ ha)⟩
    · rw [List.nodup_append]
      exact ⟨hs.permissionIds, List.nodup_singleton _, fun a ha c hc hac =>
        hnew.2 (List.mem_singleton.mp hc ▸ hac ▸ ha)⟩

theorem takeBinding_fold {place : String} :
    ∀ {l : List PermissionPolicyBinding} {seen seen' : Bound},
      l.foldlM (takeBinding place) seen = .ok seen' →
      seen' = ⟨seen.bindingIds ++ l.map (·.id), seen.permissionIds ++ l.map (·.permissionId)⟩ ∧
        (seen.Nodup → seen'.Nodup)
  | [], seen, seen', h => by
    obtain rfl := Except.ok.inj h
    simp
  | b :: l, seen, seen', h => by
    rw [List.foldlM_cons] at h
    obtain ⟨s₁, h₁, h⟩ := bind_eq_ok.mp h
    obtain ⟨rfl, hn₁⟩ := takeBinding_ok h₁
    obtain ⟨rfl, hn⟩ := takeBinding_fold h
    exact ⟨by simp, fun hs => hn (hn₁ hs)⟩

/-- Each binding of a contribution has its descriptor there. -/
theorem checkBinding_fold {descriptors : List PermissionDescriptor} :
    ∀ {l : List PermissionPolicyBinding} {seen seen' : Bound},
      l.foldlM (checkBinding descriptors) seen = .ok seen' →
      ∀ b ∈ l, ∃ d ∈ descriptors, d.id = b.permissionId ∧ b.scope = d.scope
  | [], _, _, _, b, hb => by cases hb
  | a :: l, seen, seen', h, b, hb => by
    rw [List.foldlM_cons] at h
    obtain ⟨s₁, h₁, h⟩ := bind_eq_ok.mp h
    rcases List.mem_cons.mp hb with rfl | hb
    · unfold checkBinding at h₁
      obtain ⟨s₂, -, h₂⟩ := bind_eq_ok.mp h₁
      split at h₂
      · cases h₂
      · rename_i d hd
        split at h₂
        · rename_i hscope
          exact ⟨d, List.mem_of_find?_eq_some hd, by simpa using List.find?_some hd, hscope⟩
        · cases h₂
    · exact checkBinding_fold h b hb

/-- What a parsed contribution holds. -/
structure ParsedContribution.Wf (c : ParsedContribution) : Prop where
  owner : c.owner.schemaOk = true
  owned : ∀ d ∈ c.descriptors, isPermissionOwnedByPublisher c.owner.publisher d.id = true
  bindings : ∀ b ∈ c.bindings, ∃ d ∈ c.descriptors, d.id = b.permissionId ∧ b.scope = d.scope

theorem parseContribution_wf {c : Contribution} {p : ParsedContribution}
    (h : parseContribution c = .ok p) : p.Wf := by
  unfold parseContribution at h
  obtain ⟨_, howner, h⟩ := bind_eq_ok.mp h
  obtain ⟨descriptors, hd, h⟩ := bind_eq_ok.mp h
  obtain ⟨bindings, hb, h⟩ := bind_eq_ok.mp h
  obtain ⟨_, hpublisher, h⟩ := bind_eq_ok.mp h
  obtain ⟨_, -, h⟩ := bind_eq_ok.mp h
  obtain ⟨_, -, h⟩ := bind_eq_ok.mp h
  obtain ⟨_, hcheck, h⟩ := bind_eq_ok.mp h
  obtain rfl := Except.ok.inj h
  refine ⟨(check_ok howner).1, fun d hdm => ?_, checkBinding_fold hcheck⟩
  have hparse : ∀ a b, parseDescriptor a = .ok b → b = a ∧ a.schemaOk = true := by
    intro a b hab
    unfold parseDescriptor at hab
    split at hab
    · rename_i hok
      exact ⟨(Except.ok.inj hab).symm, hok⟩
    · cases hab
  obtain ⟨rfl, hall⟩ := (mapM_eq_ok_of_check fun a b hab => (hparse a b hab).1).mp hd
  have hschema := (hparse d d (hall d hdm)).2
  unfold PermissionDescriptor.schemaOk at hschema
  simp only [Bool.and_eq_true] at hschema
  rw [← check_ok hpublisher d hdm]
  exact hschema.2

theorem parsed_wf : ∀ {l : List Contribution} {l' : List ParsedContribution},
    l.mapM parseContribution = .ok l' → ∀ p ∈ l', p.Wf
  | [], l', h, p, hp => by
    rw [List.mapM_nil] at h
    obtain rfl := Except.ok.inj h
    cases hp
  | c :: l, l', h, p, hp => by
    rw [List.mapM_cons] at h
    obtain ⟨p₁, h₁, h⟩ := bind_eq_ok.mp h
    obtain ⟨rest, hrest, h⟩ := bind_eq_ok.mp h
    obtain rfl := Except.ok.inj h
    rcases List.mem_cons.mp hp with rfl | hp
    · exact parseContribution_wf h₁
    · exact parsed_wf hrest p hp

/-- The ids of all contributions, in order. -/
structure Disjoint (contributions : List ParsedContribution) : Prop where
  descriptorIds : (contributions.flatMap fun c => c.descriptors.map (·.id)).Nodup
  bindingIds : (contributions.flatMap fun c => c.bindings.map (·.id)).Nodup
  permissionIds : (contributions.flatMap fun c => c.bindings.map (·.permissionId)).Nodup

theorem Disjoint.sublist {l l' : List ParsedContribution} (h : Disjoint l) (hs : l'.Sublist l) :
    Disjoint l' where
  descriptorIds := (hs.flatMap _).nodup h.descriptorIds
  bindingIds := (hs.flatMap _).nodup h.bindingIds
  permissionIds := (hs.flatMap _).nodup h.permissionIds

theorem checkContribution_fold {applicationId : String} :
    ∀ {l : List ParsedContribution} {seen seen' : Seen},
      l.foldlM (checkContribution applicationId) seen = .ok seen' →
      seen'.descriptorIds = seen.descriptorIds ++ l.flatMap (fun c => c.descriptors.map (·.id)) ∧
      seen'.bound.bindingIds = seen.bound.bindingIds ++ l.flatMap (fun c => c.bindings.map (·.id)) ∧
      seen'.bound.permissionIds =
        seen.bound.permissionIds ++ l.flatMap (fun c => c.bindings.map (·.permissionId)) ∧
      (seen.descriptorIds.Nodup ∧ seen.bound.Nodup → seen'.descriptorIds.Nodup ∧ seen'.bound.Nodup)
  | [], seen, seen', h => by
    obtain rfl := Except.ok.inj h
    simp
  | c :: l, seen, seen', h => by
    rw [List.foldlM_cons] at h
    obtain ⟨s₁, h₁, h⟩ := bind_eq_ok.mp h
    unfold checkContribution at h₁
    obtain ⟨_, -, h₁⟩ := bind_eq_ok.mp h₁
    obtain ⟨keys, -, h₁⟩ := bind_eq_ok.mp h₁
    obtain ⟨ids, hids, h₁⟩ := bind_eq_ok.mp h₁
    obtain ⟨bound, hbound, h₁⟩ := bind_eq_ok.mp h₁
    obtain rfl := Except.ok.inj h₁
    obtain ⟨hd, hb, hp, hn⟩ := checkContribution_fold h
    obtain ⟨rfl, hnids⟩ := addUnique_fold hids
    obtain ⟨rfl, hnb⟩ := takeBinding_fold hbound
    refine ⟨?_, ?_, ?_, fun hs => hn ⟨hnids hs.1, hnb hs.2⟩⟩
    · rw [hd, List.flatMap_cons, List.append_assoc]
    · rw [hb, List.flatMap_cons, List.append_assoc]
    · rw [hp, List.flatMap_cons, List.append_assoc]

theorem disjoint_of_check {applicationId : String} {l : List ParsedContribution} {seen : Seen}
    (h : l.foldlM (checkContribution applicationId) ⟨[], [], ⟨[], []⟩⟩ = .ok seen) :
    Disjoint l := by
  obtain ⟨hd, hb, hp, hn⟩ := checkContribution_fold h
  obtain ⟨hnd, hnb⟩ := hn ⟨List.nodup_nil, List.nodup_nil, List.nodup_nil⟩
  rw [List.nil_append] at hd hb hp
  exact ⟨hd ▸ hnd, hb ▸ hnb.bindingIds, hp ▸ hnb.permissionIds⟩

/-! ### Namespaces -/

/-- No extension owns an id of the platform. -/
theorem not_platform_of_extension {c : DeliveryClass} {extensionId id : String}
    (h : isPermissionOwnedByPublisher (.extension c extensionId) id = true) :
    isPermissionOwnedByPublisher .platform id = false := by
  by_contra hp
  unfold isPermissionOwnedByPublisher at h hp
  simp only [Bool.and_eq_true, Bool.not_eq_true', List.isPrefixOf_iff_prefix,
    Bool.not_eq_false] at h hp
  obtain ⟨⟨hreserved, -⟩, hns⟩ := h
  have hsystem : "system".toList ++ ['.'] <+: id.toList := hp.2
  simp only [hasReservedSystemNamespace, Bool.or_eq_false_iff, decide_eq_false_iff_not] at hreserved
  have hnot : ¬ "system.".toList <+: permissionPublisherNamespace (.extension c extensionId) := by
    rw [← List.isPrefixOf_iff_prefix, hreserved.2]
    exact Bool.false_ne_true
  rcases List.prefix_or_prefix_of_prefix hns hsystem with hle | hle
  · rcases List.prefix_concat_iff.mp hle with heq | hlt
    · exact hreserved.1 (List.append_inj_left' heq rfl)
    · have hdot : '.' ∈ "system".toList := hlt.subset (by simp)
      exact absurd hdot (by decide)
  · rcases List.prefix_concat_iff.mp hle with heq | hlt
    · exact hreserved.1 (List.append_inj_left' heq rfl).symm
    · exact hnot hlt

theorem platform_owned : ∀ d ∈ platformPermissionDescriptors,
    isPermissionOwnedByPublisher .platform d.id = true := by
  decide

theorem platform_nodup : (platformPermissionDescriptors.map (·.id)).Nodup := by
  decide

/-! ### Entries -/

section Entries

variable {α β κ : Type}

/-- A key that is not repeated over all lists tells the place of an element. -/
theorem eq_of_nodup_flatMap {l : List α} {f : α → List β} {key : β → κ}
    (h : (l.flatMap fun c => (f c).map key).Nodup) {c c' : α} {d d' : β} (hc : c ∈ l) (hc' : c' ∈ l)
    (hd : d ∈ f c) (hd' : d' ∈ f c') (heq : key d = key d') : c = c' ∧ d = d' := by
  have hpairs : ((l.flatMap fun c => (f c).map fun d => (c, d)).map fun e => key e.2).Nodup := by
    rw [List.map_flatMap]
    simpa [Function.comp_def] using h
  have hmem : ∀ {c d}, c ∈ l → d ∈ f c → (c, d) ∈ l.flatMap fun c => (f c).map fun d => (c, d) :=
    fun hc hd => List.mem_flatMap.mpr ⟨_, hc, List.mem_map.mpr ⟨_, hd, rfl⟩⟩
  exact Prod.mk.inj (List.inj_on_of_nodup_map hpairs (hmem hc hd) (hmem hc' hd') heq)

end Entries

theorem colon_cancel {a b x y : String} (ha : ':' ∉ a.toList) (hb : ':' ∉ b.toList)
    (h : a ++ ":" ++ x = b ++ ":" ++ y) : x = y := by
  have hl := congrArg String.toList h
  simp only [String.toList_append, List.append_assoc] at hl
  exact String.toList_inj.mp (append_sep_cancel ha hb hl).2

theorem separator_colon : Separator ':' := by
  unfold Separator; decide

theorem extensionId_noColon {o : ExtensionOwner} (h : o.schemaOk = true) :
    ':' ∉ o.extensionId.toList := by
  unfold ExtensionOwner.schemaOk ExtensionOwner.publisher PermissionPublisher.schemaOk at h
  simp only [Bool.and_eq_true] at h
  have hid := h.1.2
  split at hid
  · rename_i heq
    cases heq
  · rename_i id heq
    obtain ⟨-, rfl⟩ := PermissionPublisher.extension.inj heq
    simp only [pluginIdOk, boundedBy, Bool.and_eq_true] at hid
    refine dotted_notin separator_colon (fun p hp => ?_) hid.2
    simp only [pluginKinds, List.any_cons, List.any_nil, Bool.or_false, Bool.or_eq_true,
      decide_eq_true_eq] at hp
    rcases hp with rfl | rfl | rfl | rfl | rfl | rfl <;> decide
  · rename_i id heq
    obtain ⟨-, rfl⟩ := PermissionPublisher.extension.inj heq
    simp only [hotApplicationIdOk, boundedBy, Bool.and_eq_true] at hid
    refine dotted_notin separator_colon (fun p hp => ?_) hid.2
    obtain rfl := of_decide_eq_true hp
    decide
  · cases hid

/-- Bindings of valid owners with the same key have the same id. -/
theorem bindingKey_id {a b : PermissionPolicyBinding × ExtensionOwner} (ha : a.2.schemaOk = true)
    (hb : b.2.schemaOk = true) (h : bindingKey a = bindingKey b) : a.1.id = b.1.id := by
  unfold bindingKey executionKey at h
  rw [String.append_assoc, String.append_assoc, String.append_assoc, String.append_assoc,
    String.append_assoc, String.append_assoc] at h
  have hclass : ∀ o : ExtensionOwner, ':' ∉ (DeliveryClass.text o.deliveryClass).toList :=
    fun o => EffectiveAuthority.colon_not_mem_text _
  have h1 := colon_cancel (hclass a.2) (hclass b.2) (by simpa [String.append_assoc] using h)
  exact colon_cancel (extensionId_noColon ha) (extensionId_noColon hb)
    (by simpa [String.append_assoc] using h1)

theorem bindExecutable_ok {executables : List TrustedPolicyExecutable}
    {byBinding : JsMap String TrustedPolicyExecutable} {sources : JsMap String HotApplicationSource}
    {m m' : JsMap String BoundExecutable} {entry : PermissionPolicyBinding × ExtensionOwner}
    (h : bindExecutable executables byBinding sources m entry = .ok m') :
    ∃ e, m' = m.set (bindingKey entry) ⟨e, entry.1, entry.2⟩ := by
  unfold bindExecutable at h
  split at h
  · split at h <;> cases h
  · rename_i e _
    split at h
    · cases h
    · split at h
      · cases h
      · exact ⟨e, (Except.ok.inj h).symm⟩

/-- Under distinct keys every binding keeps what it was bound to. -/
theorem bindExecutable_fold {executables : List TrustedPolicyExecutable}
    {byBinding : JsMap String TrustedPolicyExecutable}
    {sources : JsMap String HotApplicationSource} :
    ∀ {l : List (PermissionPolicyBinding × ExtensionOwner)} {m m' : JsMap String BoundExecutable},
      l.foldlM (bindExecutable executables byBinding sources) m = .ok m' →
      (l.map bindingKey).Nodup →
      (∀ entry ∈ l, ∃ e, m'.get? (bindingKey entry) = some ⟨e, entry.1, entry.2⟩) ∧
        ∀ k, k ∉ l.map bindingKey → m'.get? k = m.get? k
  | [], m, m', h, _ => by
    obtain rfl := Except.ok.inj h
    exact ⟨fun _ he => absurd he List.not_mem_nil, fun _ _ => rfl⟩
  | a :: l, m, m', h, hn => by
    rw [List.foldlM_cons] at h
    obtain ⟨m₁, h₁, h⟩ := bind_eq_ok.mp h
    obtain ⟨e, rfl⟩ := bindExecutable_ok h₁
    rw [List.map_cons, List.nodup_cons] at hn
    obtain ⟨hall, hother⟩ := bindExecutable_fold h hn.2
    refine ⟨fun entry hentry => ?_, fun k hk => ?_⟩
    · rcases List.mem_cons.mp hentry with rfl | hentry
      · exact ⟨e, by rw [hother _ hn.1, JsMap.get?_set_self]⟩
      · exact hall entry hentry
    · rw [List.map_cons, List.mem_cons, not_or] at hk
      rw [hother k hk.2, JsMap.get?_set_ne _ _ hk.1]

/-- The last map of `assemble`, under distinct permission ids. -/
theorem executableByPermission_fold {bound : JsMap String BoundExecutable} :
    ∀ {l : List EffectivePolicyBinding} {m : JsMap String BoundExecutable},
      (l.map (·.binding.permissionId)).Nodup →
      (∀ b ∈ l, (bound.get? (bindingKey (b.binding, b.owner))).isSome) →
      (∀ b ∈ l, (l.foldl (fun m b =>
        match bound.get? (bindingKey (b.binding, b.owner)) with
        | some x => m.set b.binding.permissionId x
        | none => m) m).get? b.binding.permissionId =
          bound.get? (bindingKey (b.binding, b.owner))) ∧
      ∀ k, k ∉ l.map (·.binding.permissionId) → (l.foldl (fun m b =>
        match bound.get? (bindingKey (b.binding, b.owner)) with
        | some x => m.set b.binding.permissionId x
        | none => m) m).get? k = m.get? k
  | [], m, _, _ => ⟨fun _ hb => absurd hb List.not_mem_nil, fun _ _ => rfl⟩
  | a :: l, m, hn, hbound => by
    rw [List.map_cons, List.nodup_cons] at hn
    obtain ⟨x, hx⟩ := Option.isSome_iff_exists.mp (hbound a List.mem_cons_self)
    obtain ⟨hall, hother⟩ := executableByPermission_fold (m := m.set a.binding.permissionId x) hn.2
      fun b hb => hbound b (List.mem_cons_of_mem _ hb)
    rw [List.foldl_cons, hx]
    refine ⟨fun b hb => ?_, fun k hk => ?_⟩
    · rcases List.mem_cons.mp hb with rfl | hb
      · rw [hother _ hn.1, JsMap.get?_set_self, hx]
      · exact hall b hb
    · rw [List.map_cons, List.mem_cons, not_or] at hk
      rw [hother k hk.2, JsMap.get?_set_ne _ _ hk.1]

/-! ### Catalogs that are built -/

section Catalog

variable {contributions : List ParsedContribution}

theorem entry_mem (entry : PermissionPolicyBinding × ExtensionOwner) :
    entry ∈ contributions.flatMap (·.entries) ↔
      ∃ c ∈ contributions, entry.1 ∈ c.bindings ∧ entry.2 = c.owner := by
  obtain ⟨binding, owner⟩ := entry
  simp only [List.mem_flatMap, ParsedContribution.entries, List.mem_map, Prod.mk.injEq]
  constructor
  · rintro ⟨c, hc, b, hb, rfl, rfl⟩
    exact ⟨c, hc, hb, rfl⟩
  · rintro ⟨c, hc, hb, rfl⟩
    exact ⟨c, hc, binding, hb, rfl, rfl⟩

theorem bindingKeys_nodup (hwf : ∀ c ∈ contributions, c.Wf) (hdisjoint : Disjoint contributions) :
    ((contributions.flatMap (·.entries)).map bindingKey).Nodup := by
  have hids : ((contributions.flatMap (·.entries)).map fun entry => entry.1.id).Nodup := by
    have h := hdisjoint.bindingIds
    rw [List.map_flatMap]
    simpa [ParsedContribution.entries, Function.comp_def] using h
  have howner : ∀ entry ∈ contributions.flatMap (·.entries), entry.2.schemaOk = true := by
    intro entry hentry
    obtain ⟨c, hc, -, hc'⟩ := (entry_mem _).mp hentry
    rw [hc']
    exact (hwf c hc).owner
  refine List.Nodup.map_on (fun a ha b hb hab => ?_) (List.Nodup.of_map _ hids)
  exact List.inj_on_of_nodup_map hids ha hb (bindingKey_id (howner a ha) (howner b hb) hab)

/-- A permission id stands in one place. -/
theorem permissions_unique (hwf : ∀ c ∈ contributions, c.Wf) (hdisjoint : Disjoint contributions)
    {e e' : EffectivePermissionDescriptor}
    (he : e ∈ platformPermissionDescriptors.map (fun d => ⟨d, .platform⟩) ++
      contributions.flatMap (·.permissions))
    (he' : e' ∈ platformPermissionDescriptors.map (fun d => ⟨d, .platform⟩) ++
      contributions.flatMap (·.permissions))
    (hid : e.descriptor.id = e'.descriptor.id) : e = e' := by
  have hplace : ∀ e ∈ platformPermissionDescriptors.map (fun d => ⟨d, .platform⟩) ++
      contributions.flatMap (·.permissions),
      (e.descriptor ∈ platformPermissionDescriptors ∧ e.owner = .platform) ∨
        ∃ c ∈ contributions, e.descriptor ∈ c.descriptors ∧ e.owner = .extension c.owner := by
    intro e he
    rcases List.mem_append.mp he with he | he
    · obtain ⟨d, hd, rfl⟩ := List.mem_map.mp he
      exact .inl ⟨hd, rfl⟩
    · obtain ⟨c, hc, he⟩ := List.mem_flatMap.mp he
      obtain ⟨d, hd, rfl⟩ := List.mem_map.mp he
      exact .inr ⟨c, hc, hd, rfl⟩
  have hclash : ∀ {d d' : PermissionDescriptor} {c : ParsedContribution},
      d ∈ platformPermissionDescriptors → c ∈ contributions → d' ∈ c.descriptors → d.id ≠ d'.id := by
    intro d d' c hd hc hd' heq
    have hnot := not_platform_of_extension ((hwf c hc).owned d' hd')
    rw [← heq, platform_owned d hd] at hnot
    cases hnot
  obtain ⟨d, o⟩ := e
  obtain ⟨d', o'⟩ := e'
  simp only at hid hplace
  rcases hplace _ he with ⟨hd, ho⟩ | ⟨c, hc, hd, ho⟩ <;>
    rcases hplace _ he' with ⟨hd', ho'⟩ | ⟨c', hc', hd', ho'⟩
  · obtain rfl := List.inj_on_of_nodup_map platform_nodup hd hd' hid
    obtain rfl : o = o' := ho.trans ho'.symm
    rfl
  · exact absurd hid (hclash hd hc' hd')
  · exact absurd hid.symm (hclash hd' hc hd)
  · obtain ⟨rfl, rfl⟩ := eq_of_nodup_flatMap hdisjoint.descriptorIds hc hc' hd hd' hid
    obtain rfl : o = o' := ho.trans ho'.symm
    rfl

variable {input : CatalogInput} {bound : JsMap String BoundExecutable}

theorem mem_permissions {e : EffectivePermissionDescriptor} :
    e ∈ (assemble input contributions bound).permissions ↔
      e ∈ platformPermissionDescriptors.map (fun d => ⟨d, .platform⟩) ++
        (contributions.filter (·.active)).flatMap (·.permissions) := by
  unfold assemble
  simp only [mem_sortBy]

theorem mem_policyBindings {b : EffectivePolicyBinding} :
    b ∈ (assemble input contributions bound).policyBindings ↔
      ∃ c ∈ contributions.filter (·.active), b.binding ∈ c.bindings ∧ b.owner = c.owner := by
  rw [← entry_mem (b.binding, b.owner)]
  show b ∈ sortBy _ _ ↔ _
  rw [mem_sortBy, List.mem_map]
  constructor
  · rintro ⟨entry, hentry, rfl⟩
    exact hentry
  · intro h
    exact ⟨_, h, rfl⟩

theorem policyBindings_nodup (hdisjoint : Disjoint (contributions.filter (·.active))) :
    ((assemble input contributions bound).policyBindings.map (·.binding.permissionId)).Nodup := by
  refine (((sortBy_perm_self _ _).map _).nodup_iff).mpr ?_
  have h := hdisjoint.permissionIds
  rw [List.map_map, List.map_flatMap]
  simpa [ParsedContribution.entries, Function.comp_def] using h

/-- **Every catalog is coherent.** -/
theorem catalog_coherent {cat : EffectiveAuthorizationCatalog}
    (h : createEffectiveAuthorizationCatalog input = .ok cat) : Coherent cat := by
  unfold createEffectiveAuthorizationCatalog at h
  obtain ⟨_, -, h⟩ := bind_eq_ok.mp h
  obtain ⟨contributions, hparse, h⟩ := bind_eq_ok.mp h
  obtain ⟨_, hcheck, h⟩ := bind_eq_ok.mp h
  obtain ⟨_, -, h⟩ := bind_eq_ok.mp h
  obtain ⟨byBinding, -, h⟩ := bind_eq_ok.mp h
  obtain ⟨bound, hbound, h⟩ := bind_eq_ok.mp h
  obtain ⟨_, -, h⟩ := bind_eq_ok.mp h
  obtain rfl := Except.ok.inj h
  have hwf := parsed_wf hparse
  have hdisjoint := disjoint_of_check hcheck
  have hactive : (contributions.filter (·.active)).Sublist contributions := List.filter_sublist
  have hdisjoint' := hdisjoint.sublist hactive
  have hexecutables := (bindExecutable_fold hbound (bindingKeys_nodup hwf hdisjoint)).1
  have hget : ∀ b ∈ (assemble input contributions bound).policyBindings,
      ∃ e, bound.get? (bindingKey (b.binding, b.owner)) = some ⟨e, b.binding, b.owner⟩ := by
    intro b hb
    obtain ⟨c, hc, hbc, ho⟩ := mem_policyBindings.mp hb
    exact hexecutables (b.binding, b.owner) ((entry_mem _).mpr ⟨c, hactive.subset hc, hbc, ho⟩)
  refine ⟨fun e he e' he' hid => ?_, fun b hb => ?_, fun b hb => ?_⟩
  · exact permissions_unique (fun c hc => hwf c (hactive.subset hc)) hdisjoint'
      (mem_permissions.mp he) (mem_permissions.mp he') hid
  · obtain ⟨c, hc, hbc, ho⟩ := mem_policyBindings.mp hb
    obtain ⟨d, hd, hid, hscope⟩ := (hwf c (hactive.subset hc)).bindings _ hbc
    have hplace : (⟨d, .extension c.owner⟩ : EffectivePermissionDescriptor) ∈
        (contributions.filter (·.active)).flatMap (·.permissions) :=
      List.mem_flatMap.mpr ⟨c, hc, List.mem_map.mpr ⟨d, hd, rfl⟩⟩
    exact ⟨_, mem_permissions.mpr (List.mem_append_right _ hplace), hid, by rw [ho], hscope⟩
  · obtain ⟨e, he⟩ := hget b hb
    have hfold := (executableByPermission_fold (m := .empty) (policyBindings_nodup hdisjoint')
      fun b hb => Option.isSome_iff_exists.mpr ⟨_, (hget b hb).choose_spec⟩).1 b hb
    exact ⟨⟨e, b.binding, b.owner⟩, hfold.trans he, rfl, rfl⟩

end Catalog

end KNex.Runtime.AuthorizationRegistry
