import KNex.Core.Calls
import KNex.Core.LTS
import KNex.Runtime.AuthorizationRegistry

/-!
# `EffectiveAuthorityResolver`: what an allow stands for

`packages/runtime/src/effective-authority.ts`. `authorize` reads the revisions of the application,
asks for the catalog of the lifecycle revision, takes the authorities of the principal and of the
effective actor from the cache or from a read transaction at exactly these revisions, and decides.
Everything between two awaits is one step; calls interleave with each other and with the
transactions of the store, each of which raises the revision of what it changes
(`packages/payload-adapter/src/authorization-store.ts:276-296`). A read transaction is one
repeatable-read snapshot, so it is one step as well.

The cache is keyed by a text whose parts tell everything in it apart; here the key is the parts.
The facts of a request only reach the policy executable, whose answer comes with the step. The row
that a call's `readState` saw and the rows the store has held are history.

`Sound` is what an allow promises about that row. It holds of every decision of every run
(`allow_sound`), because a decision made through the cache is the one that its own row gives
(`decision_eq_recomputed`).
-/
namespace KNex.Runtime.AuthorityResolver

open KNex.Core KNex.Contracts
open KNex.Runtime.EffectiveAuthority hiding ownerKey
open KNex.Runtime.AuthorizationRegistry hiding ownerKey Result fail

/-! ## Errors -/

inductive EffectiveAuthorityErrorCode where
  | untrustedSession | untrustedCatalogProvider | invalidRequest | authorityUnavailable
  deriving DecidableEq, Repr

/-- A rejection: one of the resolver's own errors, the error of a promise that it does not catch,
or the error of the decision's schema. -/
inductive AuthorizeError where
  | authority (code : EffectiveAuthorityErrorCode) (message : String)
  | rejected
  | schema
  deriving DecidableEq, Repr

abbrev Result (α : Type) := Except AuthorizeError α

def fail {α : Type} (code : EffectiveAuthorityErrorCode) (message : String) : Result α :=
  .error (.authority code message)

/-! ## Sessions and requests -/

def AuthorizationSubject.schemaOk (s : AuthorizationSubject) : Bool := identifierOk s.id

def AuthorizationDelegation.schemaOk (d : AuthorizationDelegation) : Bool :=
  identifierOk d.delegationId && AuthorizationSubject.schemaOk d.delegator

def AuthorizationScope.schemaOk : AuthorizationScope → Bool
  | .application resource => resourceIdOk resource
  | .record resource recordId => resourceIdOk resource && identifierOk recordId
  | .field resource recordId fieldId =>
    resourceIdOk resource && identifierOk recordId && resourceIdOk fieldId

structure SessionInput where
  applicationId : String
  environment : String
  correlationId : String
  principal : AuthorizationSubject
  effectiveActor : AuthorizationSubject
  delegation : Option AuthorizationDelegation
  deriving DecidableEq, Repr

/-- mirrors packages/runtime/src/effective-authority.ts:136-149 -/
structure SessionInput.Valid (s : SessionInput) : Prop where
  schema : applicationIdOk s.applicationId ∧ environmentOk s.environment ∧
    identifierOk s.correlationId ∧ AuthorizationSubject.schemaOk s.principal ∧
    AuthorizationSubject.schemaOk s.effectiveActor
  delegator : ∀ d ∈ s.delegation, AuthorizationDelegation.schemaOk d ∧ d.delegator = s.principal
  actor : s.delegation = none → s.principal = s.effectiveActor

/-- A session that `createTrustedAuthorizationSession` minted. -/
structure TrustedAuthorizationSession extends SessionInput where
  valid : toSessionInput.Valid

structure RequestInput where
  decisionId : String
  permissionId : String
  scope : AuthorizationScope
  deriving DecidableEq, Repr

/-- A request that `createEffectiveAuthorizationRequest` minted; the decision id is any string.
mirrors packages/runtime/src/effective-authority.ts:159-169 -/
structure EffectiveAuthorizationRequest extends RequestInput where
  valid : resourceIdOk permissionId ∧ AuthorizationScope.schemaOk scope

/-! ## The store -/

structure Assignment where
  principal : AuthorizationSubject
  roleId : String
  state : AssignmentState
  deriving DecidableEq, Repr

/-- What the store holds for an application. -/
structure Row where
  authorizationRevision : Nat
  lifecycleRevision : Nat
  roles : List Role
  grants : List RolePermissionGrant
  assignments : List Assignment
  generations : List GenerationRow
  deriving DecidableEq, Repr

/-- `listAssignments(applicationId, principal)`. -/
def Row.listAssignments (r : Row) (principal : AuthorizationSubject) : List RoleAssignment :=
  (r.assignments.filter (·.principal = principal)).map fun a => ⟨a.roleId, a.state⟩

def Row.revisions (r : Row) : Nat × Nat := (r.authorizationRevision, r.lifecycleRevision)

/-- A transaction raises the revision of what it changes.
mirrors packages/payload-adapter/src/authorization-store.ts:194-200 -/
structure Raises (old new : Row) : Prop where
  authorization : old.authorizationRevision ≤ new.authorizationRevision
  lifecycle : old.lifecycleRevision ≤ new.lifecycleRevision
  authorizationData : old.authorizationRevision = new.authorizationRevision →
    old.roles = new.roles ∧ old.grants = new.grants ∧ old.assignments = new.assignments
  lifecycleData : old.lifecycleRevision = new.lifecycleRevision → old.generations = new.generations

instance (old new : Row) : Decidable (Raises old new) :=
  decidable_of_iff (old.authorizationRevision ≤ new.authorizationRevision ∧
      old.lifecycleRevision ≤ new.lifecycleRevision ∧
      (old.authorizationRevision = new.authorizationRevision →
        old.roles = new.roles ∧ old.grants = new.grants ∧ old.assignments = new.assignments) ∧
      (old.lifecycleRevision = new.lifecycleRevision → old.generations = new.generations))
    ⟨fun h => ⟨h.1, h.2.1, h.2.2.1, h.2.2.2⟩,
      fun h => ⟨h.authorization, h.lifecycle, h.authorizationData, h.lifecycleData⟩⟩

/-- `AuthorizationState`. -/
structure AuthorizationState where
  applicationId : String
  environment : String
  authorizationRevision : Nat
  lifecycleRevision : Nat
  deriving DecidableEq, Repr

def Row.state (r : Row) (applicationId environment : String) : AuthorizationState :=
  ⟨applicationId, environment, r.authorizationRevision, r.lifecycleRevision⟩

/-- A catalog that `createEffectiveAuthorizationCatalog` built. -/
structure BrandedCatalog where
  catalog : EffectiveAuthorizationCatalog
  input : CatalogInput
  built : createEffectiveAuthorizationCatalog input = .ok catalog

def brand (input : CatalogInput) : Option BrandedCatalog :=
  match h : createEffectiveAuthorizationCatalog input with
  | .ok catalog => some ⟨catalog, input, h⟩
  | .error _ => none

/-- An answer of the catalog provider; a catalog without the brand is `none`. -/
structure CatalogValue where
  applicationId : String
  lifecycleRevision : Nat
  catalog : Option BrandedCatalog

/-! ## Authorities -/

structure AuthoritySnapshot where
  principal : CachedAuthority
  effectiveActor : CachedAuthority
  intersection : JsMap String (List OwnerRef)

/-- The owners both sides have.
mirrors packages/runtime/src/effective-authority.ts:213-221 -/
def intersect (left right : CachedAuthority) : JsMap String (List OwnerRef) :=
  left.ownersByPermission.entries.foldl (fun result e =>
    let rightOwners := (right.ownersByPermission.get? e.1).getD []
    let common := e.2.filter fun owner => rightOwners.any fun candidate => sameOwner owner candidate
    if 0 < common.length then result.set e.1 common else result) .empty

/-- `localeLe` is `localeCompare(…) <= 0`. -/
structure Config where
  maxCacheEntries : Nat
  bounded : 1 ≤ maxCacheEntries ∧ maxCacheEntries ≤ 4096
  localeLe : String → String → Bool

variable (cfg : Config)

def Config.sort (owners : List OwnerRef) : List OwnerRef :=
  owners.insertionSort fun left right =>
    cfg.localeLe (EffectiveAuthority.ownerKey left) (EffectiveAuthority.ownerKey right)

/-- mirrors packages/runtime/src/effective-authority.ts:268-280 -/
def snapshotOf (row : Row) (principal effectiveActor : AuthorizationSubject) : AuthoritySnapshot :=
  let left := authority cfg.sort (row.listAssignments principal) row.roles row.grants
    row.generations
  let right := if principal = effectiveActor then left
    else authority cfg.sort (row.listAssignments effectiveActor) row.roles row.grants
      row.generations
  ⟨left, right, intersect left right⟩

/-! ## The cache -/

/-- The parts of the key's text.
mirrors packages/runtime/src/effective-authority.ts:261 -/
structure Key where
  applicationId : String
  environment : String
  principal : AuthorizationSubject
  effectiveActor : AuthorizationSubject
  delegationId : Option String
  authorizationRevision : Nat
  lifecycleRevision : Nat
  deriving DecidableEq, Repr

def keyOf (current : AuthorizationState) (session : SessionInput) : Key where
  applicationId := current.applicationId
  environment := current.environment
  principal := session.principal
  effectiveActor := session.effectiveActor
  delegationId := session.delegation.map (·.delegationId)
  authorizationRevision := current.authorizationRevision
  lifecycleRevision := current.lifecycleRevision

/-- `while (size >= max) delete(keys().next().value)`. -/
def evictList {α : Type} (max : Nat) : List α → List α
  | [] => []
  | e :: l => if max ≤ (e :: l).length then evictList max l else e :: l

theorem evictList_sublist {α : Type} (max : Nat) : ∀ l : List α, (evictList max l).Sublist l
  | [] => List.Sublist.slnil
  | e :: l => by
    unfold evictList
    split
    · exact (evictList_sublist max l).cons e
    · exact List.Sublist.refl _

theorem evictList_length {α : Type} {max : Nat} (h : 1 ≤ max) :
    ∀ l : List α, (evictList max l).length < max
  | [] => h
  | e :: l => by
    unfold evictList
    split
    · exact evictList_length h l
    · omega

abbrev Cache := JsMap Key AuthoritySnapshot

def evict (max : Nat) (cache : Cache) : Cache where
  entries := evictList max cache.entries
  nodup := ((evictList_sublist max cache.entries).map Prod.fst).nodup cache.nodup

/-! ## Decisions -/

inductive Outcome where
  | allow | deny
  deriving DecidableEq, Repr

/-- mirrors packages/contracts/src/authorization.ts:370-379 -/
inductive DecisionReason where
  | granted | permissionNotGranted | ownerNotEffective | assignmentRevoked | delegationReduced
  | approvalRequired | reauthenticationRequired | policyDenied
  deriving DecidableEq, Repr

inductive Requirement where
  | notRequired | required | satisfied
  deriving DecidableEq, Repr

/-- mirrors packages/contracts/src/authorization.ts:383-401 -/
structure AuthorizationDecision where
  decisionId : String
  correlationId : String
  applicationId : String
  environment : String
  permissionId : String
  owner : OwnerRef
  principal : AuthorizationSubject
  effectiveActor : AuthorizationSubject
  delegation : Option AuthorizationDelegation
  scope : AuthorizationScope
  authorizationRevision : Nat
  lifecycleRevision : Nat
  outcome : Outcome
  reason : DecisionReason
  approval : Requirement
  reauthentication : Requirement
  deriving DecidableEq, Repr

def ownerPublisher : OwnerRef → PermissionPublisher
  | .platform => .platform
  | .extension o => o.publisher

/-- The parts of the schema that the session and the request have not passed already.
mirrors packages/contracts/src/authorization.ts:401-406 and 434-445 -/
def AuthorizationDecision.schemaOk (d : AuthorizationDecision) : Bool :=
  identifierOk d.decisionId && isPermissionOwnedByPublisher (ownerPublisher d.owner) d.permissionId &&
    decide (d.outcome = .allow ↔ d.reason = .granted) &&
    !decide (d.outcome = .allow ∧ (d.approval = .required ∨ d.reauthentication = .required))

structure Verdict where
  outcome : Outcome
  reason : DecisionReason
  deriving DecidableEq, Repr

def deny (reason : DecisionReason) : Verdict := ⟨.deny, reason⟩

/-- Why an owner that is not effective for both sides is denied.
mirrors packages/runtime/src/effective-authority.ts:297-300 -/
def ungranted (session : SessionInput) (snapshot : AuthoritySnapshot) (permissionId : String)
    (owner : OwnerRef) : Verdict :=
  let candidates := (snapshot.principal.ownersByPermission.get? permissionId).getD []
  let inactive := (snapshot.principal.ineffectiveOwnersByPermission.get? permissionId).getD []
  if session.delegation.isSome ∧ candidates.any (sameOwner · owner) then deny .delegationReduced
  else if 0 < candidates.length ∨ 0 < inactive.length then deny .ownerNotEffective
  else if snapshot.principal.activeAssignments = 0 ∧ 0 < snapshot.principal.revokedAssignments then
    deny .assignmentRevoked
  else deny .permissionNotGranted

def evaluationOf (current : AuthorizationState) (session : SessionInput) (request : RequestInput) :
    AuthorizationPolicyEvaluationInput where
  applicationId := session.applicationId
  authorizationRevision := current.authorizationRevision
  lifecycleRevision := current.lifecycleRevision
  permissionId := request.permissionId
  scope := request.scope
  principal := session.principal
  effectiveActor := session.effectiveActor
  delegation := session.delegation

/-- Scope, resource and policy of a permission whose owner is effective.
mirrors packages/runtime/src/effective-authority.ts:301-319 -/
def applyPolicy (current : AuthorizationState) (catalog : EffectiveAuthorizationCatalog)
    (session : SessionInput) (request : RequestInput) (e : EffectivePermissionDescriptor)
    (answer : Answer) : Verdict :=
  if e.descriptor.scope ≠ request.scope.kind ∨ e.descriptor.resource ≠ request.scope.resource then
    deny .policyDenied
  else
    match catalog.policyBindings.find? fun b =>
      b.binding.permissionId = request.permissionId && sameOwner (.extension b.owner) e.owner with
    | none => if e.descriptor.scope ≠ .application then deny .policyDenied else ⟨.allow, .granted⟩
    | some _ =>
      if (catalog.execute (evaluationOf current session request) answer).allow then
        ⟨.allow, .granted⟩
      else deny .policyDenied

def verdict (current : AuthorizationState) (catalog : EffectiveAuthorizationCatalog)
    (session : SessionInput) (request : RequestInput) (snapshot : AuthoritySnapshot)
    (owner : OwnerRef) (answer : Answer) : Verdict :=
  match catalog.permissions.find? fun e => e.descriptor.id = request.permissionId with
  | none => ungranted session snapshot request.permissionId owner
  | some e =>
    if ((snapshot.intersection.get? request.permissionId).getD []).any (sameOwner · owner) then
      applyPolicy current catalog session request e answer
    else ungranted session snapshot request.permissionId owner

def decisionOf (current : AuthorizationState) (session : SessionInput) (request : RequestInput)
    (owner : OwnerRef) (v : Verdict) : AuthorizationDecision where
  decisionId := request.decisionId
  correlationId := session.correlationId
  applicationId := current.applicationId
  environment := current.environment
  permissionId := request.permissionId
  owner := owner
  principal := session.principal
  effectiveActor := session.effectiveActor
  delegation := session.delegation
  scope := request.scope
  authorizationRevision := current.authorizationRevision
  lifecycleRevision := current.lifecycleRevision
  outcome := v.outcome
  reason := v.reason
  approval := .notRequired
  reauthentication := .notRequired

def parseDecision (d : AuthorizationDecision) : Result AuthorizationDecision :=
  if d.schemaOk then .ok d else .error .schema

/-- `#decide`; `answer` is how the policy executable's run ends, when one is run.
mirrors packages/runtime/src/effective-authority.ts:287-321 -/
def decideAuthority (current : AuthorizationState) (catalog : EffectiveAuthorizationCatalog)
    (session : SessionInput) (request : RequestInput) (snapshot : AuthoritySnapshot)
    (answer : Answer) : Result AuthorizationDecision :=
  let descriptor := catalog.permissions.find? fun e => e.descriptor.id = request.permissionId
  let candidates := (snapshot.principal.ownersByPermission.get? request.permissionId).getD []
  match (descriptor.map (·.owner)).or candidates.head? with
  | none =>
    fail .invalidRequest "Requested permission is not in the current authoritative catalog."
  | some owner =>
    parseDecision (decisionOf current session request owner
      (verdict current catalog session request snapshot owner answer))

/-! ## State -/

/-- A decision with what it was made from: the catalog and the answer are history. -/
structure Decided where
  current : AuthorizationState
  catalog : BrandedCatalog
  answer : Answer
  result : Result AuthorizationDecision

/-- Where a call stands. -/
inductive Phase where
  | reading
  | catalog (current : AuthorizationState)
  | loading (current : AuthorizationState) (catalog : BrandedCatalog)
  | loaded (current : AuthorizationState) (catalog : BrandedCatalog) (snapshot : AuthoritySnapshot)
  | deciding (current : AuthorizationState) (catalog : BrandedCatalog) (snapshot : AuthoritySnapshot)
  | failed (error : AuthorizeError)
  | decided (d : Decided)

/-- `seen` is the row that `readState` saw. -/
structure Call where
  session : TrustedAuthorizationSession
  request : EffectiveAuthorizationRequest
  seen : Option Row
  phase : Phase

/-- `past` lists every row the store has held, with its application. -/
structure St where
  store : JsMap String Row
  cache : Cache
  calls : List Call
  past : List (String × Row)

/-- A resolver over a store with any content. -/
def Init (s : St) : Prop := s.cache = .empty ∧ s.calls = [] ∧ s.past = s.store.entries

def St.put (s : St) (i : Nat) (c : Call) : St := { s with calls := s.calls.set i c }

inductive Ev where
  | change (applicationId : String) (row : Row)
  | authorize (session : TrustedAuthorizationSession) (request : EffectiveAuthorizationRequest)
  | readState (i : Nat)
  | catalog (i : Nat) (value : Option CatalogValue)
  | readTransaction (i : Nat)
  | keep (i : Nat)
  | decide (i : Nat) (answer : Answer)
  | reject (i : Nat)

/-- A transaction of the store. -/
def change (s : St) (applicationId : String) (row : Row) : Option St :=
  if ∀ old ∈ s.store.get? applicationId, Raises old row then
    some { s with
      store := s.store.set applicationId row
      past := s.past ++ [(applicationId, row)] }
  else none

def unavailable (c : Call) (message : String) : Call :=
  { c with phase := .failed (.authority .authorityUnavailable message) }

/-- mirrors packages/runtime/src/effective-authority.ts:242-244 -/
def readState (s : St) (i : Nat) (c : Call) : St :=
  match s.store.get? c.session.applicationId with
  | none => s.put i (unavailable c "Authorization state is unavailable.")
  | some row => s.put i { c with
      seen := some row
      phase := .catalog (row.state c.session.applicationId c.session.environment) }

/-- The catalog that passes the checks.
mirrors packages/runtime/src/effective-authority.ts:245-248 -/
def trustedCatalog (current : AuthorizationState) (session : SessionInput) :
    Option CatalogValue → Option BrandedCatalog
  | none => none
  | some value =>
    if value.applicationId ≠ session.applicationId ∨
        value.lifecycleRevision ≠ current.lifecycleRevision then none
    else value.catalog.filter fun b => b.catalog.applicationId = session.applicationId ∧
      b.catalog.lifecycleRevision = current.lifecycleRevision

/-- The catalog arrives, and the cache is asked.
mirrors packages/runtime/src/effective-authority.ts:245-267 -/
def takeCatalog (s : St) (i : Nat) (c : Call) (current : AuthorizationState)
    (value : Option CatalogValue) : St :=
  match trustedCatalog current c.session.toSessionInput value with
  | none => s.put i (unavailable c "Current effective authorization catalog is unavailable.")
  | some b =>
    let key := keyOf current c.session.toSessionInput
    match s.cache.get? key with
    | some cached => { s with cache := (s.cache.delete key).set key cached }.put i
        { c with phase := .deciding current b cached }
    | none => s.put i { c with phase := .loading current b }

/-- mirrors packages/runtime/src/effective-authority.ts:268-281, with the revision check of
packages/payload-adapter/src/authorization-store.ts:231-239 -/
def readTransaction (s : St) (i : Nat) (c : Call) (current : AuthorizationState)
    (b : BrandedCatalog) : St :=
  match (s.store.get? current.applicationId).filter fun row =>
      row.revisions = (current.authorizationRevision, current.lifecycleRevision) with
  | none => s.put i (unavailable c "Current authorization data is unavailable.")
  | some row => s.put i { c with
      phase := .loaded current b (snapshotOf cfg row c.session.principal c.session.effectiveActor) }

/-- mirrors packages/runtime/src/effective-authority.ts:282-284 -/
def keepSnapshot (s : St) (i : Nat) (c : Call) (current : AuthorizationState) (b : BrandedCatalog)
    (snapshot : AuthoritySnapshot) : St :=
  let key := keyOf current c.session.toSessionInput
  { s with cache := (evict cfg.maxCacheEntries s.cache).set key snapshot }.put i
    { c with phase := .deciding current b snapshot }

def decideCall (s : St) (i : Nat) (c : Call) (current : AuthorizationState) (b : BrandedCatalog)
    (snapshot : AuthoritySnapshot) (answer : Answer) : St :=
  s.put i { c with phase := .decided ⟨current, b, answer, decideAuthority current b.catalog
    c.session.toSessionInput c.request.toRequestInput snapshot answer⟩ }

/-- A promise of the store or of the provider rejects; only `readTransaction` stands under a
`catch`. -/
def rejectCall (s : St) (i : Nat) (c : Call) : Option St :=
  match c.phase with
  | .reading | .catalog _ => some (s.put i { c with phase := .failed .rejected })
  | .loading _ _ => some (s.put i (unavailable c "Current authorization data is unavailable."))
  | _ => none

def step (s : St) : Ev → Option St
  | .change applicationId row => change s applicationId row
  | .authorize session request =>
    some { s with calls := s.calls ++ [⟨session, request, none, .reading⟩] }
  | .readState i =>
    match s.calls[i]? with
    | some c => match c.phase with
      | .reading => some (readState s i c)
      | _ => none
    | none => none
  | .catalog i value =>
    match s.calls[i]? with
    | some c => match c.phase with
      | .catalog current => some (takeCatalog s i c current value)
      | _ => none
    | none => none
  | .readTransaction i =>
    match s.calls[i]? with
    | some c => match c.phase with
      | .loading current b => some (readTransaction cfg s i c current b)
      | _ => none
    | none => none
  | .keep i =>
    match s.calls[i]? with
    | some c => match c.phase with
      | .loaded current b snapshot => some (keepSnapshot cfg s i c current b snapshot)
      | _ => none
    | none => none
  | .decide i answer =>
    match s.calls[i]? with
    | some c => match c.phase with
      | .deciding current b snapshot => some (decideCall s i c current b snapshot answer)
      | _ => none
    | none => none
  | .reject i =>
    match s.calls[i]? with
    | some c => rejectCall s i c
    | none => none

def lts : LTS St Ev := .ofFn Init (step cfg)

/-! ### What a step can do -/

/-- The steps with what enables each of them. -/
inductive Stepped (s : St) : St → Prop
  | change {a : String} {row : Row} {s' : St} (hs : change s a row = some s') : Stepped s s'
  | authorize (session : TrustedAuthorizationSession) (request : EffectiveAuthorizationRequest) :
    Stepped s { s with calls := s.calls ++ [⟨session, request, none, .reading⟩] }
  | readState {i : Nat} {c : Call} (hc : s.calls[i]? = some c) (hp : c.phase = .reading) :
    Stepped s (readState s i c)
  | catalog {i : Nat} {c : Call} {current : AuthorizationState} (value : Option CatalogValue)
    (hc : s.calls[i]? = some c) (hp : c.phase = .catalog current) :
    Stepped s (takeCatalog s i c current value)
  | readTransaction {i : Nat} {c : Call} {current : AuthorizationState} {b : BrandedCatalog}
    (hc : s.calls[i]? = some c) (hp : c.phase = .loading current b) :
    Stepped s (readTransaction cfg s i c current b)
  | keep {i : Nat} {c : Call} {current : AuthorizationState} {b : BrandedCatalog}
    {snapshot : AuthoritySnapshot} (hc : s.calls[i]? = some c)
    (hp : c.phase = .loaded current b snapshot) :
    Stepped s (keepSnapshot cfg s i c current b snapshot)
  | decide {i : Nat} {c : Call} {current : AuthorizationState} {b : BrandedCatalog}
    {snapshot : AuthoritySnapshot} (answer : Answer) (hc : s.calls[i]? = some c)
    (hp : c.phase = .deciding current b snapshot) :
    Stepped s (decideCall s i c current b snapshot answer)
  | reject {i : Nat} {c : Call} {s' : St} (hc : s.calls[i]? = some c)
    (hs : rejectCall s i c = some s') : Stepped s s'

theorem step_cases {s s' : St} {ev : Ev} (h : step cfg s ev = some s') : Stepped cfg s s' := by
  unfold step at h
  cases ev with
  | change a row => exact .change h
  | authorize session request =>
    obtain rfl := Option.some.inj h
    exact .authorize session request
  | readState i =>
    dsimp only at h
    split at h
    · rename_i c hc
      split at h
      · rename_i hp
        obtain rfl := Option.some.inj h
        exact .readState hc hp
      · cases h
    · cases h
  | catalog i value =>
    dsimp only at h
    split at h
    · rename_i c hc
      split at h
      · rename_i current hp
        obtain rfl := Option.some.inj h
        exact .catalog value hc hp
      · cases h
    · cases h
  | readTransaction i =>
    dsimp only at h
    split at h
    · rename_i c hc
      split at h
      · rename_i current b hp
        obtain rfl := Option.some.inj h
        exact .readTransaction hc hp
      · cases h
    · cases h
  | keep i =>
    dsimp only at h
    split at h
    · rename_i c hc
      split at h
      · rename_i current b snapshot hp
        obtain rfl := Option.some.inj h
        exact .keep hc hp
      · cases h
    · cases h
  | decide i answer =>
    dsimp only at h
    split at h
    · rename_i c hc
      split at h
      · rename_i current b snapshot hp
        obtain rfl := Option.some.inj h
        exact .decide answer hc hp
      · cases h
    · cases h
  | reject i =>
    dsimp only at h
    split at h
    · rename_i c hc
      exact .reject hc h
    · cases h

/-! ## The laws -/

/-- The subject has an active assignment to an existing role that holds a grant of the permission
for exactly this owner. -/
def Holds (row : Row) (subject : AuthorizationSubject) (permissionId : String) (owner : OwnerRef) :
    Prop :=
  ∃ a ∈ row.assignments, a.principal = subject ∧ a.state = .active ∧
    (∃ role ∈ row.roles, role.id = a.roleId) ∧
    ∃ grant ∈ row.grants, grant.roleId = a.roleId ∧ grant.permissionId = permissionId ∧
      grant.owner = owner

/-- The platform, or a generation with a current row. -/
def Effective (row : Row) : OwnerRef → Prop
  | .platform => True
  | .extension o => ∃ g ∈ row.generations, g.state = .current ∧ g.owner = o

/-- What an allow promises. -/
structure Sound (row : Row) (session : SessionInput) (request : RequestInput) (d : Decided)
    (e : EffectivePermissionDescriptor) : Prop where
  revisions : d.current = row.state session.applicationId session.environment
  catalog : d.catalog.catalog.applicationId = session.applicationId ∧
    d.catalog.catalog.lifecycleRevision = row.lifecycleRevision
  listed : e ∈ d.catalog.catalog.permissions
  permission : e.descriptor.id = request.permissionId
  scope : e.descriptor.scope = request.scope.kind
  resource : e.descriptor.resource = request.scope.resource
  principal : Holds row session.principal request.permissionId e.owner
  effectiveActor : Holds row session.effectiveActor request.permissionId e.owner
  effective : Effective row e.owner
  policy : ∀ b ∈ d.catalog.catalog.policyBindings, b.binding.permissionId = request.permissionId →
    e.owner = .extension b.owner ∧ d.answer = .outcome true ∧
      ∃ x, d.catalog.catalog.executableByPermission.get? request.permissionId = some x ∧
        x.binding = b.binding ∧ x.owner = b.owner
  bound : request.scope.kind ≠ .application →
    ∃ b ∈ d.catalog.catalog.policyBindings, b.binding.permissionId = request.permissionId

/-! ## One decision -/

theorem Config.sort_perm (l : List OwnerRef) : (cfg.sort l).Perm l := List.perm_insertionSort _ l

variable {cfg}

/-- An owner in the intersection is effective on both sides. -/
theorem mem_intersect {left right : CachedAuthority} {p : String} {os : List OwnerRef}
    {owner : OwnerRef} (h : (intersect left right).get? p = some os) (ho : owner ∈ os) :
    (∃ l, left.ownersByPermission.get? p = some l ∧ owner ∈ l) ∧
      ∃ r, right.ownersByPermission.get? p = some r ∧ owner ∈ r := by
  have hfold : ∀ (l : List (String × List OwnerRef)) (m : JsMap String (List OwnerRef)),
      (∀ e ∈ l, e ∈ left.ownersByPermission.entries) →
      Filed (fun p owner => (∃ l, left.ownersByPermission.get? p = some l ∧ owner ∈ l) ∧
        ∃ r, right.ownersByPermission.get? p = some r ∧ owner ∈ r) m →
      Filed (fun p owner => (∃ l, left.ownersByPermission.get? p = some l ∧ owner ∈ l) ∧
        ∃ r, right.ownersByPermission.get? p = some r ∧ owner ∈ r)
        (l.foldl (fun result e =>
          let rightOwners := (right.ownersByPermission.get? e.1).getD []
          let common := e.2.filter fun owner =>
            rightOwners.any fun candidate => sameOwner owner candidate
          if 0 < common.length then result.set e.1 common else result) m) := by
    intro l
    induction l with
    | nil => exact fun m _ h => h
    | cons e l ih =>
      intro m hl hm
      refine ih _ (fun e' he' => hl e' (List.mem_cons_of_mem _ he')) ?_
      dsimp only
      split
      · intro p os hp o ho
        rw [JsMap.get?_set] at hp
        split at hp
        · rename_i hpe
          subst hpe
          cases hp
          obtain ⟨hmem, hany⟩ := List.mem_filter.mp ho
          obtain ⟨o', ho', hsame⟩ := List.any_eq_true.mp hany
          obtain rfl := sameOwner_iff.mp hsame
          refine ⟨⟨e.2, JsMap.get?_eq_some.mpr (hl e List.mem_cons_self), hmem⟩, ?_⟩
          cases hr : right.ownersByPermission.get? e.1 with
          | none => rw [hr] at ho'; cases ho'
          | some r => rw [hr] at ho'; exact ⟨r, rfl, ho'⟩
        · exact hm p os hp o ho
      · exact hm
  refine hfold left.ownersByPermission.entries .empty (fun _ h => h) ?_ p os h owner ho
  intro p os h
  simp at h

theorem holds_of_granted {row : Row} {subject : AuthorizationSubject} {p : String}
    {owner : OwnerRef} (h : Granted (row.listAssignments subject) row.roles row.grants
      row.generations p owner) :
    Holds row subject p owner ∧ generationCurrent owner row.generations = true := by
  obtain ⟨grant, hgrant, hp, ho, hrole, hcur⟩ := h
  obtain ⟨a, ha, hactive, hr, role, hrole, hid⟩ := mem_roleIds.mp hrole
  obtain ⟨b, hb, rfl⟩ := List.mem_map.mp ha
  obtain ⟨hb, hsubject⟩ := List.mem_filter.mp hb
  refine ⟨⟨b, hb, by simpa using hsubject, hactive, ⟨role, hrole, hid.trans hr.symm⟩,
    grant, hgrant, hr.symm, hp, ho⟩, hcur⟩

theorem effective_of_current {row : Row} {owner : OwnerRef}
    (h : generationCurrent owner row.generations = true) : Effective row owner := by
  cases owner with
  | platform => trivial
  | extension o => exact generationCurrent_extension.mp h

/-- The join of both actors. -/
theorem holds_of_intersection {row : Row} {session : SessionInput} {p : String}
    {os : List OwnerRef} {owner : OwnerRef}
    (h : (snapshotOf cfg row session.principal session.effectiveActor).intersection.get? p = some os)
    (ho : owner ∈ os) :
    Holds row session.principal p owner ∧ Holds row session.effectiveActor p owner ∧
      Effective row owner := by
  obtain ⟨⟨l, hl, hol⟩, r, hr, hor⟩ := mem_intersect h ho
  have hleft := holds_of_granted (authority_granted cfg.sort_perm _ _ _ _ p l hl owner hol)
  refine ⟨hleft.1, ?_, effective_of_current hleft.2⟩
  split at hr
  · rename_i hsame
    rw [← hsame]
    exact hleft.1
  · exact (holds_of_granted (authority_granted cfg.sort_perm _ _ _ _ p r hr owner hor)).1

/-- What an allow of the last branch needs. -/
theorem applyPolicy_allow {current : AuthorizationState} {b : BrandedCatalog}
    {session : SessionInput} {request : RequestInput} {e : EffectivePermissionDescriptor}
    {answer : Answer} (hlisted : e ∈ b.catalog.permissions)
    (hid : e.descriptor.id = request.permissionId)
    (h : (applyPolicy current b.catalog session request e answer).outcome = .allow) :
    e.descriptor.scope = request.scope.kind ∧ e.descriptor.resource = request.scope.resource ∧
      (∀ p ∈ b.catalog.policyBindings, p.binding.permissionId = request.permissionId →
        e.owner = .extension p.owner ∧ answer = .outcome true ∧
          ∃ x, b.catalog.executableByPermission.get? request.permissionId = some x ∧
            x.binding = p.binding ∧ x.owner = p.owner) ∧
      (request.scope.kind ≠ .application →
        ∃ p ∈ b.catalog.policyBindings, p.binding.permissionId = request.permissionId) := by
  have hcoherent := catalog_coherent b.built
  have howner : ∀ p ∈ b.catalog.policyBindings, p.binding.permissionId = request.permissionId →
      e.owner = .extension p.owner := by
    intro p hp hpid
    obtain ⟨e', he', hid', ho, -⟩ := hcoherent.binding p hp
    obtain rfl := hcoherent.permissions e hlisted e' he' (hid.trans (hpid.symm.trans hid'.symm))
    exact ho
  unfold applyPolicy at h
  split at h
  · cases h
  rename_i hscope
  rw [not_or, not_not, not_not] at hscope
  refine ⟨hscope.1, hscope.2, ?_⟩
  split at h
  · -- no binding of the permission is the owner's, and the others do not exist
    rename_i hnone
    have hno : ∀ p ∈ b.catalog.policyBindings, p.binding.permissionId ≠ request.permissionId := by
      intro p hp hpid
      have hp' := List.find?_eq_none.mp hnone p hp
      rw [howner p hp hpid] at hp'
      simp [hpid, sameOwner_iff] at hp'
    refine ⟨fun p hp hpid => absurd hpid (hno p hp), fun hkind => ?_⟩
    split at h
    · cases h
    · rename_i happ
      rw [not_not] at happ
      exact absurd (hscope.1.symm.trans happ) hkind
  · rename_i p hsome
    have hfound := List.find?_some hsome
    rw [Bool.and_eq_true, decide_eq_true_eq] at hfound
    refine ⟨fun q hq hqid => ?_, fun _ => ⟨p, List.mem_of_find?_eq_some hsome, hfound.1⟩⟩
    split at h
    · rename_i hallow
      obtain ⟨x, hx, hbinding, hxowner⟩ := hcoherent.executable q hq
      rw [hqid] at hx
      exact ⟨howner q hq hqid, execute_allow hallow, x, hx, hbinding, hxowner⟩
    · cases h

/-- The one branch that allows. -/
theorem decideAuthority_allow {current : AuthorizationState} {b : BrandedCatalog}
    {session : SessionInput} {request : RequestInput} {snapshot : AuthoritySnapshot}
    {answer : Answer} {dec : AuthorizationDecision}
    (h : decideAuthority current b.catalog session request snapshot answer = .ok dec)
    (hallow : dec.outcome = .allow) :
    ∃ e ∈ b.catalog.permissions, e.descriptor.id = request.permissionId ∧ dec.owner = e.owner ∧
      (∃ os, snapshot.intersection.get? request.permissionId = some os ∧ e.owner ∈ os) ∧
      (applyPolicy current b.catalog session request e answer).outcome = .allow := by
  unfold decideAuthority at h
  dsimp only at h
  split at h
  · cases h
  rename_i owner howner
  unfold parseDecision at h
  split at h
  swap
  · cases h
  obtain rfl := Except.ok.inj h
  have hungranted : ∀ p, (ungranted session snapshot p owner).outcome = .deny := by
    intro p
    unfold ungranted
    dsimp only
    split
    · rfl
    · split
      · rfl
      · split <;> rfl
  have hverdict : (verdict current b.catalog session request snapshot owner answer).outcome =
      .allow := hallow
  unfold verdict at hverdict
  split at hverdict
  · rw [hungranted] at hverdict
    cases hverdict
  · rename_i e he
    rw [he] at howner
    obtain rfl : e.owner = owner := Option.some.inj howner
    split at hverdict
    · rename_i hany
      refine ⟨e, List.mem_of_find?_eq_some he, by simpa using List.find?_some he, rfl, ?_, hverdict⟩
      obtain ⟨o, ho, hsame⟩ := List.any_eq_true.mp hany
      obtain rfl := sameOwner_iff.mp hsame
      cases hget : snapshot.intersection.get? request.permissionId with
      | none => rw [hget] at ho; cases ho
      | some os => rw [hget] at ho; exact ⟨os, rfl, ho⟩
    · rw [hungranted] at hverdict
      cases hverdict

/-! ## What holds in every run -/

structure PastInv (s : St) : Prop where
  current : ∀ a row, s.store.get? a = some row → (a, row) ∈ s.past
  below : ∀ a row, (a, row) ∈ s.past → ∃ cur, s.store.get? a = some cur ∧
    row.authorizationRevision ≤ cur.authorizationRevision ∧
    row.lifecycleRevision ≤ cur.lifecycleRevision
  unique : ∀ a r r', (a, r) ∈ s.past → (a, r') ∈ s.past → r.revisions = r'.revisions → r = r'

/-- The row that a call saw. -/
structure Saw (past : List (String × Row)) (c : Call) (current : AuthorizationState) (row : Row) :
    Prop where
  seen : c.seen = some row
  past : (c.session.applicationId, row) ∈ past
  state : current = row.state c.session.applicationId c.session.environment

theorem Saw.phase {past : List (String × Row)} {c : Call} {current : AuthorizationState} {row : Row}
    (h : Saw past c current row) (phase : Phase) :
    Saw past { c with phase := phase } current row :=
  ⟨h.seen, h.past, h.state⟩

def Trusted (c : Call) (current : AuthorizationState) (b : BrandedCatalog) : Prop :=
  b.catalog.applicationId = c.session.applicationId ∧
    b.catalog.lifecycleRevision = current.lifecycleRevision

variable (cfg) in
/-- The authorities of the call's own row. -/
def recomputed (c : Call) (row : Row) : AuthoritySnapshot :=
  snapshotOf cfg row c.session.principal c.session.effectiveActor

variable (cfg) in
def CallInv (past : List (String × Row)) (c : Call) : Prop :=
  match c.phase with
  | .reading | .failed _ => True
  | .catalog current => ∃ row, Saw past c current row
  | .loading current b => ∃ row, Saw past c current row ∧ Trusted c current b
  | .loaded current b snapshot | .deciding current b snapshot =>
    ∃ row, Saw past c current row ∧ Trusted c current b ∧ snapshot = recomputed cfg c row
  | .decided d => ∃ row, Saw past c d.current row ∧ Trusted c d.current d.catalog ∧
    d.result = decideAuthority d.current d.catalog.catalog c.session.toSessionInput
      c.request.toRequestInput (recomputed cfg c row) d.answer

variable (cfg) in
/-- A cached snapshot is that of a row with the revisions of its key. -/
def CacheInv (past : List (String × Row)) (key : Key) (snapshot : AuthoritySnapshot) : Prop :=
  ∃ row, (key.applicationId, row) ∈ past ∧
    row.revisions = (key.authorizationRevision, key.lifecycleRevision) ∧
    snapshot = snapshotOf cfg row key.principal key.effectiveActor

variable (cfg) in
structure Inv (s : St) : Prop where
  past : PastInv s
  cache : ∀ key snapshot, s.cache.get? key = some snapshot → CacheInv cfg s.past key snapshot
  calls : ∀ c ∈ s.calls, CallInv cfg s.past c

theorem CallInv.mono {past past' : List (String × Row)} (hsub : ∀ e ∈ past, e ∈ past') {c : Call}
    (h : CallInv cfg past c) : CallInv cfg past' c := by
  have hsaw : ∀ {current row}, Saw past c current row → Saw past' c current row :=
    fun h => ⟨h.seen, hsub _ h.past, h.state⟩
  unfold CallInv at h ⊢
  split at h
  · trivial
  · trivial
  · obtain ⟨row, h⟩ := h
    exact ⟨row, hsaw h⟩
  · obtain ⟨row, h, ht⟩ := h
    exact ⟨row, hsaw h, ht⟩
  · obtain ⟨row, h, ht⟩ := h
    exact ⟨row, hsaw h, ht⟩
  · obtain ⟨row, h, ht⟩ := h
    exact ⟨row, hsaw h, ht⟩
  · obtain ⟨row, h, ht⟩ := h
    exact ⟨row, hsaw h, ht⟩

theorem mem_put {calls : List Call} {i : Nat} {c c' : Call} (h : c' ∈ calls.set i c) :
    c' = c ∨ c' ∈ calls := by
  rcases List.mem_or_eq_of_mem_set h with h | h
  · exact .inr h
  · exact .inl h

/-- A step that moves one call only. -/
theorem inv_put {s : St} (h : Inv cfg s) {i : Nat} {c : Call} (hc : CallInv cfg s.past c) :
    Inv cfg (s.put i c) where
  past := ⟨h.past.current, h.past.below, h.past.unique⟩
  cache := h.cache
  calls c' hc' := by
    rcases mem_put hc' with rfl | hc'
    · exact hc
    · exact h.calls c' hc'

theorem inv_cache {s : St} (h : Inv cfg s) {cache : Cache}
    (hcache : ∀ key snapshot, cache.get? key = some snapshot → CacheInv cfg s.past key snapshot) :
    Inv cfg { s with cache := cache } where
  past := ⟨h.past.current, h.past.below, h.past.unique⟩
  cache := hcache
  calls := h.calls

theorem inv_change {s s' : St} (h : Inv cfg s) {a : String} {row : Row}
    (hs : change s a row = some s') : Inv cfg s' := by
  unfold change at hs
  split at hs
  swap
  · cases hs
  rename_i hraises
  obtain rfl := Option.some.inj hs
  have hsub : ∀ e ∈ s.past, e ∈ s.past ++ [(a, row)] := fun e he => List.mem_append_left _ he
  -- a row of the same application with the new row's revisions is the new row
  have hnew : ∀ r, (a, r) ∈ s.past → r.revisions = row.revisions → r = row := by
    intro r hr hrev
    obtain ⟨cur, hcur, hauth, hlife⟩ := h.past.below a r hr
    have hup := hraises cur hcur
    have hra : r.authorizationRevision = row.authorizationRevision := (Prod.mk.inj hrev).1
    have hrl : r.lifecycleRevision = row.lifecycleRevision := (Prod.mk.inj hrev).2
    have hca : cur.authorizationRevision = row.authorizationRevision := by
      have := hup.authorization
      omega
    have hcl : cur.lifecycleRevision = row.lifecycleRevision := by
      have := hup.lifecycle
      omega
    obtain ⟨hroles, hgrants, hassignments⟩ := hup.authorizationData hca
    have hgenerations := hup.lifecycleData hcl
    have hcurrow : cur = row := by
      cases cur
      cases row
      simp only at hca hcl hroles hgrants hassignments hgenerations
      rw [hca, hcl, hroles, hgrants, hassignments, hgenerations]
    refine (h.past.unique a r cur hr (h.past.current a cur hcur) ?_).trans hcurrow
    rw [hrev, hcurrow]
  refine ⟨⟨fun b r hb => ?_, fun b r hb => ?_, fun b r r' hr hr' hrev => ?_⟩, fun key snapshot hk => ?_,
    fun c hc => (h.calls c hc).mono hsub⟩
  · rw [JsMap.get?_set] at hb
    split at hb
    · rename_i heq
      rw [heq, Option.some.inj hb]
      exact List.mem_append_right _ (List.mem_singleton.mpr rfl)
    · exact hsub _ (h.past.current b r hb)
  · show ∃ cur, (s.store.set a row).get? b = some cur ∧ _
    rw [JsMap.get?_set]
    rcases List.mem_append.mp hb with hb | hb
    · obtain ⟨cur, hcur, hauth, hlife⟩ := h.past.below b r hb
      split
      · rename_i heq
        rw [heq] at hcur
        have hup := hraises cur hcur
        exact ⟨row, rfl, hauth.trans hup.authorization, hlife.trans hup.lifecycle⟩
      · exact ⟨cur, hcur, hauth, hlife⟩
    · obtain ⟨rfl, rfl⟩ := Prod.mk.inj (List.mem_singleton.mp hb)
      rw [if_pos rfl]
      exact ⟨r, rfl, Nat.le_refl _, Nat.le_refl _⟩
  · rcases List.mem_append.mp hr with hold | hlast
    · rcases List.mem_append.mp hr' with hold' | hlast'
      · exact h.past.unique b r r' hold hold' hrev
      · obtain ⟨rfl, rfl⟩ := Prod.mk.inj (List.mem_singleton.mp hlast')
        exact hnew r hold hrev
    · obtain ⟨rfl, rfl⟩ := Prod.mk.inj (List.mem_singleton.mp hlast)
      rcases List.mem_append.mp hr' with hold' | hlast'
      · exact (hnew r' hold' hrev.symm).symm
      · exact (Prod.mk.inj (List.mem_singleton.mp hlast')).2.symm
  · obtain ⟨r, hr, hrev, hsnap⟩ := h.cache key snapshot hk
    exact ⟨r, hsub _ hr, hrev, hsnap⟩

/-- A row with the revisions that a call saw is the row it saw. -/
theorem saw_unique {s : St} (h : PastInv s) {c : Call} {current : AuthorizationState} {row r : Row}
    (hsaw : Saw s.past c current row) (hr : (c.session.applicationId, r) ∈ s.past)
    (hrev : r.revisions = (current.authorizationRevision, current.lifecycleRevision)) : r = row := by
  refine h.unique _ r row hr hsaw.past ?_
  rw [hrev, hsaw.state]
  rfl

theorem inv_readState {s : St} (h : Inv cfg s) {i : Nat} {c : Call} :
    Inv cfg (readState s i c) := by
  unfold readState
  split
  · exact inv_put h trivial
  · rename_i row hrow
    exact inv_put h ⟨row, rfl, h.past.current _ row hrow, rfl⟩

theorem trusted_of_some {c : Call} {current : AuthorizationState} {value : Option CatalogValue}
    {b : BrandedCatalog} (h : trustedCatalog current c.session.toSessionInput value = some b) :
    Trusted c current b := by
  unfold trustedCatalog at h
  split at h
  · cases h
  · split at h
    · cases h
    · obtain ⟨-, hb⟩ := Option.filter_eq_some_iff.mp h
      simpa [Trusted] using hb

theorem inv_takeCatalog {s : St} (h : Inv cfg s) {i : Nat} {c : Call} {current : AuthorizationState}
    {value : Option CatalogValue} (hc : CallInv cfg s.past c) (hp : c.phase = .catalog current) :
    Inv cfg (takeCatalog s i c current value) := by
  unfold CallInv at hc
  rw [hp] at hc
  obtain ⟨row, hsaw⟩ := hc
  unfold takeCatalog
  split
  · exact inv_put h trivial
  rename_i b hb
  have htrusted := trusted_of_some hb
  dsimp only
  split
  · rename_i cached hcached
    obtain ⟨r, hr, hrev, hsnap⟩ := h.cache _ cached hcached
    rw [show (keyOf current c.session.toSessionInput).applicationId = c.session.applicationId by
      rw [hsaw.state]; rfl] at hr
    obtain rfl := saw_unique h.past hsaw hr hrev
    refine inv_put (inv_cache h fun key snapshot hk => ?_) ⟨r, hsaw.phase _, htrusted, hsnap⟩
    -- the entry only moves to the end
    rw [JsMap.get?_set] at hk
    split at hk
    · rename_i heq
      obtain rfl := Option.some.inj hk
      rw [heq]
      exact h.cache _ cached hcached
    · rename_i hne
      rw [JsMap.get?_delete, if_neg hne] at hk
      exact h.cache key snapshot hk
  · exact inv_put h ⟨row, hsaw.phase _, htrusted⟩

theorem inv_readTransaction {s : St} (h : Inv cfg s) {i : Nat} {c : Call}
    {current : AuthorizationState} {b : BrandedCatalog} (hc : CallInv cfg s.past c)
    (hp : c.phase = .loading current b) : Inv cfg (readTransaction cfg s i c current b) := by
  unfold CallInv at hc
  rw [hp] at hc
  obtain ⟨row, hsaw, htrusted⟩ := hc
  unfold readTransaction
  split
  · exact inv_put h trivial
  · rename_i r hr
    obtain ⟨hget, hrev⟩ := Option.filter_eq_some_iff.mp hr
    have happ : current.applicationId = c.session.applicationId := by
      rw [hsaw.state]
      rfl
    rw [happ] at hget
    obtain rfl := saw_unique h.past hsaw (h.past.current _ r hget) (of_decide_eq_true hrev)
    exact inv_put h ⟨r, hsaw.phase _, htrusted, rfl⟩

theorem get?_evict {max : Nat} {cache : Cache} {key : Key} {snapshot : AuthoritySnapshot}
    (h : (evict max cache).get? key = some snapshot) : cache.get? key = some snapshot := by
  rw [JsMap.get?_eq_some] at h ⊢
  exact (evictList_sublist max cache.entries).subset h

theorem inv_keepSnapshot {s : St} (h : Inv cfg s) {i : Nat} {c : Call}
    {current : AuthorizationState} {b : BrandedCatalog} {snapshot : AuthoritySnapshot}
    (hc : CallInv cfg s.past c) (hp : c.phase = .loaded current b snapshot) :
    Inv cfg (keepSnapshot cfg s i c current b snapshot) := by
  unfold CallInv at hc
  rw [hp] at hc
  obtain ⟨row, hsaw, htrusted, hsnap⟩ := hc
  refine inv_put (inv_cache h fun key snapshot' hk => ?_)
    ⟨row, hsaw.phase _, htrusted, hsnap⟩
  rw [JsMap.get?_set] at hk
  split at hk
  · rename_i heq
    obtain rfl := Option.some.inj hk
    subst heq
    rw [hsaw.state]
    exact ⟨row, hsaw.past, rfl, hsnap⟩
  · exact h.cache key snapshot' (get?_evict hk)

theorem inv_decideCall {s : St} (h : Inv cfg s) {i : Nat} {c : Call} {current : AuthorizationState}
    {b : BrandedCatalog} {snapshot : AuthoritySnapshot} {answer : Answer}
    (hc : CallInv cfg s.past c) (hp : c.phase = .deciding current b snapshot) :
    Inv cfg (decideCall s i c current b snapshot answer) := by
  unfold CallInv at hc
  rw [hp] at hc
  obtain ⟨row, hsaw, htrusted, hsnap⟩ := hc
  subst hsnap
  exact inv_put h ⟨row, hsaw.phase _, htrusted, rfl⟩

theorem inv_rejectCall {s s' : St} (h : Inv cfg s) {i : Nat} {c : Call}
    (hs : rejectCall s i c = some s') : Inv cfg s' := by
  unfold rejectCall at hs
  split at hs
  · obtain rfl := Option.some.inj hs
    exact inv_put h trivial
  · obtain rfl := Option.some.inj hs
    exact inv_put h trivial
  · obtain rfl := Option.some.inj hs
    exact inv_put h trivial
  · cases hs

theorem inv_step {s s' : St} {ev : Ev} (h : Inv cfg s) (hs : step cfg s ev = some s') :
    Inv cfg s' := by
  cases step_cases cfg hs with
  | change hs => exact inv_change h hs
  | authorize session request =>
    refine ⟨⟨h.past.current, h.past.below, h.past.unique⟩, h.cache, fun c hc => ?_⟩
    rcases List.mem_append.mp hc with hc | hc
    · exact h.calls c hc
    · rw [List.mem_singleton.mp hc]
      trivial
  | readState hc hp => exact inv_readState h
  | catalog value hc hp => exact inv_takeCatalog h (h.calls _ (List.mem_of_getElem? hc)) hp
  | readTransaction hc hp => exact inv_readTransaction h (h.calls _ (List.mem_of_getElem? hc)) hp
  | keep hc hp => exact inv_keepSnapshot h (h.calls _ (List.mem_of_getElem? hc)) hp
  | decide answer hc hp => exact inv_decideCall h (h.calls _ (List.mem_of_getElem? hc)) hp
  | reject hc hs => exact inv_rejectCall h hs

theorem inv_init {s : St} (h : Init s) : Inv cfg s := by
  obtain ⟨hcache, hcalls, hpast⟩ := h
  refine ⟨⟨fun a row hrow => ?_, fun a row hrow => ?_, fun a r r' hr hr' _ => ?_⟩,
    fun key snapshot hk => ?_, fun c hc => ?_⟩
  · rw [hpast]
    exact JsMap.get?_eq_some.mp hrow
  · rw [hpast] at hrow
    exact ⟨row, JsMap.get?_eq_some.mpr hrow, Nat.le_refl _, Nat.le_refl _⟩
  · rw [hpast] at hr hr'
    rw [← JsMap.get?_eq_some] at hr hr'
    exact Option.some.inj (hr.symm.trans hr')
  · rw [hcache] at hk
    cases hk
  · rw [hcalls] at hc
    cases hc

theorem inductive_inv : (lts cfg).Inductive (Inv cfg) where
  init _ h := inv_init h
  step _ _ _ h hs := inv_step h hs

/-! ### A run -/

section Example

def salesOwner : ExtensionOwner := ⟨.platformPlugin, "module.sales", 1⟩

def leadsRead : PermissionDescriptor where
  id := "sales.leads.read"
  publisher := salesOwner.publisher
  title := "Read leads"
  description := "View leads."
  audience := .authenticated
  resource := "sales.leads"
  operation := .read
  scope := .record

def leadsPolicy : PermissionPolicyBinding where
  id := "sales.policy.leads"
  publisher := salesOwner.publisher
  permissionId := "sales.leads.read"
  policyReference := "sales.policy.leads"
  scope := .record
  timeoutMs := 1000

def salesGeneration : GenerationRow := ⟨"acme", salesOwner, ["gen-1"], .current, 1, 2⟩

def salesCatalog : CatalogInput where
  applicationId := "acme"
  lifecycleRevision := 2
  extensions := [⟨salesOwner, salesGeneration, true, true, [leadsRead], [leadsPolicy], none⟩]
  executables := [⟨.platformPlugin, .platformPlugin, "module.sales", "sales.policy.leads",
    "sales.policy.leads", none⟩]

def alice : AuthorizationSubject := ⟨.user, "alice"⟩

def salesRow : Row where
  authorizationRevision := 3
  lifecycleRevision := 2
  roles := [⟨"reader"⟩]
  grants := [⟨"reader", "sales.leads.read", .extension salesOwner⟩]
  assignments := [⟨alice, "reader", .active⟩]
  generations := [salesGeneration]

def aliceSession : TrustedAuthorizationSession where
  applicationId := "acme"
  environment := "production"
  correlationId := "request-1"
  principal := alice
  effectiveActor := alice
  delegation := none
  valid := ⟨by decide, (fun _ h => by cases h), fun _ => rfl⟩

def readLead : EffectiveAuthorizationRequest where
  decisionId := "decision-1"
  permissionId := "sales.leads.read"
  scope := .record "sales.leads" "lead-7"
  valid := by decide

def twoEntries : Config := ⟨2, by decide, fun left right => decide (left ≤ right)⟩

def started : St := ⟨.empty, .empty, [], []⟩

/-- The first call loads the authorities, the second finds them in the cache. -/
def readTwice : List Ev :=
  [ .change "acme" salesRow, .authorize aliceSession readLead, .readState 0
  , .catalog 0 (some ⟨"acme", 2, brand salesCatalog⟩), .readTransaction 0, .keep 0
  , .decide 0 (.outcome true), .authorize aliceSession readLead, .readState 1
  , .catalog 1 (some ⟨"acme", 2, brand salesCatalog⟩), .decide 1 (.outcome true) ]

/-- The decision of a call. -/
def allowedDecision (s : St) (i : Nat) : Option (Call × Decided × AuthorizationDecision) :=
  match s.calls[i]? with
  | none => none
  | some c =>
    match c.phase with
    | .decided d =>
      match d.result with
      | .ok dec => if dec.outcome = .allow then some (c, d, dec) else none
      | .error _ => none
    | _ => none

theorem allowedDecision_eq_some {s : St} {i : Nat} {c : Call} {d : Decided}
    {dec : AuthorizationDecision} (h : allowedDecision s i = some (c, d, dec)) :
    c ∈ s.calls ∧ c.phase = .decided d ∧ d.result = .ok dec ∧ dec.outcome = .allow := by
  unfold allowedDecision at h
  split at h
  · cases h
  rename_i c₁ hc
  split at h
  swap
  · cases h
  rename_i d₁ hd
  split at h
  swap
  · cases h
  rename_i dec₁ hdec
  split at h
  · rename_i hallow
    cases h
    exact ⟨List.mem_of_getElem? hc, hd, hdec, hallow⟩
  · cases h

theorem readTwice_allowed : ((LTS.exec (step twoEntries) started readTwice).bind fun s =>
    allowedDecision s 1).isSome = true := by
  decide

/-- The state after `readTwice`, with its second decision. -/
theorem exists_cached_allow : ∃ s c d dec, (lts twoEntries).Reachable s ∧
    c ∈ s.calls ∧ c.phase = .decided d ∧ d.result = .ok dec ∧ dec.outcome = .allow := by
  obtain ⟨⟨c, d, dec⟩, hrun⟩ := Option.isSome_iff_exists.mp readTwice_allowed
  obtain ⟨s, hs, hallowed⟩ := Option.bind_eq_some_iff.mp hrun
  exact ⟨s, c, d, dec, ⟨started, readTwice, ⟨rfl, rfl, rfl⟩, LTS.run_of_exec hs⟩,
    allowedDecision_eq_some hallowed⟩

end Example

/-! ## The results -/

/-- **Cached authority agrees with recomputation.** Whatever calls and store transactions came
before, and whatever the cache bound, a decision is the one that the row its call read gives. -/
theorem decision_eq_recomputed {s : St} (h : (lts cfg).Reachable s) {c : Call} (hc : c ∈ s.calls)
    {d : Decided} (hd : c.phase = .decided d) :
    ∃ row, c.seen = some row ∧ (c.session.applicationId, row) ∈ s.past ∧
      d.current = row.state c.session.applicationId c.session.environment ∧
      d.result = decideAuthority d.current d.catalog.catalog c.session.toSessionInput
        c.request.toRequestInput
        (snapshotOf cfg row c.session.principal c.session.effectiveActor) d.answer := by
  have hinv := (inductive_inv.reachable s h).calls c hc
  unfold CallInv at hinv
  rw [hd] at hinv
  obtain ⟨row, hsaw, -, hresult⟩ := hinv
  exact ⟨row, hsaw.seen, hsaw.past, hsaw.state, hresult⟩

theorem decision_eq_recomputed_twice : ∃ s c d dec, (lts twoEntries).Reachable s ∧ c ∈ s.calls ∧
    c.phase = .decided d ∧ d.result = .ok dec ∧ dec.outcome = .allow ∧
    ∃ row, c.seen = some row ∧ d.result = decideAuthority d.current d.catalog.catalog
      c.session.toSessionInput c.request.toRequestInput
      (snapshotOf twoEntries row c.session.principal c.session.effectiveActor) d.answer := by
  obtain ⟨s, c, d, dec, hs, hc, hd, hr, hallow⟩ := exists_cached_allow
  obtain ⟨row, hseen, -, -, heq⟩ := decision_eq_recomputed hs hc hd
  exact ⟨s, c, d, dec, hs, hc, hd, hr, hallow, row, hseen, heq⟩

/-- **Every allow is sound**, made from a cached authority or not. -/
theorem allow_sound {s : St} (h : (lts cfg).Reachable s) {c : Call} (hc : c ∈ s.calls)
    {d : Decided} (hd : c.phase = .decided d) {dec : AuthorizationDecision}
    (hr : d.result = .ok dec) (hallow : dec.outcome = .allow) :
    ∃ row e, c.seen = some row ∧ dec.owner = e.owner ∧
      Sound row c.session.toSessionInput c.request.toRequestInput d e := by
  have hinv := (inductive_inv.reachable s h).calls c hc
  unfold CallInv at hinv
  rw [hd] at hinv
  obtain ⟨row, hsaw, htrusted, hresult⟩ := hinv
  obtain ⟨e, hlisted, hid, howner, ⟨os, hos, hmem⟩, happly⟩ :=
    decideAuthority_allow (hresult.symm.trans hr) hallow
  obtain ⟨hprincipal, hactor, heffective⟩ := holds_of_intersection hos hmem
  obtain ⟨hscope, hresource, hpolicy, hbound⟩ := applyPolicy_allow hlisted hid happly
  have hlifecycle : d.current.lifecycleRevision = row.lifecycleRevision := by
    rw [hsaw.state]
    rfl
  exact ⟨row, e, hsaw.seen, howner, hsaw.state, ⟨htrusted.1, htrusted.2.trans hlifecycle⟩, hlisted,
    hid, hscope, hresource, hprincipal, hactor, heffective, hpolicy, hbound⟩

theorem allow_sound_twice : ∃ s c d dec, (lts twoEntries).Reachable s ∧ c ∈ s.calls ∧
    c.phase = .decided d ∧ d.result = .ok dec ∧ dec.outcome = .allow ∧
    ∃ row e, c.seen = some row ∧ dec.owner = e.owner ∧
      Sound row c.session.toSessionInput c.request.toRequestInput d e := by
  obtain ⟨s, c, d, dec, hs, hc, hd, hr, hallow⟩ := exists_cached_allow
  exact ⟨s, c, d, dec, hs, hc, hd, hr, hallow, allow_sound hs hc hd hr hallow⟩

/-! ## The bound of the cache -/

variable (cfg) in
theorem size_evict_lt (cache : Cache) : (evict cfg.maxCacheEntries cache).size < cfg.maxCacheEntries :=
  evictList_length cfg.bounded.1 cache.entries

theorem size_takeCatalog {s : St} (h : s.cache.size ≤ cfg.maxCacheEntries) (i : Nat) (c : Call)
    (current : AuthorizationState) (value : Option CatalogValue) :
    (takeCatalog s i c current value).cache.size ≤ cfg.maxCacheEntries := by
  unfold takeCatalog
  split
  · exact h
  · dsimp only
    split
    · rename_i cached hcached
      have hset := (s.cache.delete (keyOf current c.session.toSessionInput)).size_set_le
        (keyOf current c.session.toSessionInput) cached
      have hdelete := JsMap.size_delete_lt hcached
      show JsMap.size (JsMap.set _ _ _) ≤ _
      omega
    · exact h

theorem size_keepSnapshot {s : St} (i : Nat) (c : Call) (current : AuthorizationState)
    (b : BrandedCatalog) (snapshot : AuthoritySnapshot) :
    (keepSnapshot cfg s i c current b snapshot).cache.size ≤ cfg.maxCacheEntries := by
  have hset := (evict cfg.maxCacheEntries s.cache).size_set_le
    (keyOf current c.session.toSessionInput) snapshot
  have hevict := size_evict_lt cfg s.cache
  show JsMap.size (JsMap.set _ _ _) ≤ _
  omega

theorem size_step {s s' : St} {ev : Ev} (h : s.cache.size ≤ cfg.maxCacheEntries)
    (hs : step cfg s ev = some s') : s'.cache.size ≤ cfg.maxCacheEntries := by
  cases step_cases cfg hs with
  | change hs =>
    unfold change at hs
    split at hs
    · obtain rfl := Option.some.inj hs
      exact h
    · cases hs
  | authorize session request => exact h
  | readState hc hp =>
    unfold readState
    split <;> exact h
  | catalog value hc hp => exact size_takeCatalog h _ _ _ _
  | readTransaction hc hp =>
    unfold readTransaction
    split <;> exact h
  | keep hc hp => exact size_keepSnapshot _ _ _ _ _
  | decide answer hc hp => exact h
  | reject hc hs =>
    unfold rejectCall at hs
    split at hs
    all_goals first
      | (obtain rfl := Option.some.inj hs; exact h)
      | cases hs

/-- **The cache keeps its bound.** -/
theorem cache_bounded {s : St} (h : (lts cfg).Reachable s) : s.cache.size ≤ cfg.maxCacheEntries := by
  have hind : (lts cfg).Inductive fun s => s.cache.size ≤ cfg.maxCacheEntries :=
    ⟨fun s hs => by rw [hs.1]; exact Nat.zero_le _, fun _ _ _ h hs => size_step h hs⟩
  exact hind.reachable s h

end KNex.Runtime.AuthorityResolver
