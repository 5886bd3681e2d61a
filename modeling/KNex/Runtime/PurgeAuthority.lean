import KNex.Contracts.Extension
import KNex.Core.Calls
import KNex.Core.Except
import KNex.Core.JsMap
import KNex.Core.Json
import KNex.Core.LTS

/-!
# `createPluginPurgeAuthority` and `executePluginPurge`: one purge for an approval

`packages/runtime/src/plugin-data-lifecycle.ts:375-455`. A call of `plan` awaits five scans,
draws up its diagnostics, tests the approval against `usedApprovals`, awaits `authorize`, and
only then marks the approval as used and enters the plan in the `WeakMap` of authoritative
plans. `executePluginPurge` takes the plan's binding out of the map, awaits the scans again,
compares them with the binding, and runs the purge transaction. Everything between two awaits is
one step; what the dependencies and the transaction answer is part of the label.

Plans are objects, so a plan is its number in `plans`; an object that `plan` did not return is
`none`. The receipts of the archive, backup and restore executors enter through the bindings
that their own `WeakMap`s hold (`none` for a receipt no executor issued). SHA-256 is a parameter.

`Safe` says of a state what the authority is for: one ready plan an approval, one execution a
plan, and no purge transaction without scans that agree with what was approved. Two calls with
one approval may both pass the test before either is authorized (`replayed`), so the first part
can fail; it holds throughout exactly the runs in which each approval that `authorize` grants is
still unused (`safe_iff`).
-/
namespace KNex.Runtime.PurgeAuthority

open KNex.Core KNex.Contracts

/-! ## Data -/

inductive PluginDataLifecycleDiagnosticCode where
  | accessDenied | archiveRequired | backupRequired | dependencyPresent | migrationRequired
  | purgeUnsupported | referencePresent | retentionBlocked
  deriving DecidableEq, Repr

structure PluginDataLifecycleDiagnostic where
  code : PluginDataLifecycleDiagnosticCode
  message : String
  deriving DecidableEq, Repr

inductive PurgeError where
  /-- a schema of the contracts rejects a value -/
  | schema
  | error (message : String)
  /-- a dependency of the authority rejects -/
  | dependency
  /-- a method of the purge transaction rejects -/
  | transaction
  deriving DecidableEq, Repr

def identityInvalid : PurgeError :=
  .error "Purge actor, session, or approval identity is invalid."

def notAuthoritative : PurgeError := .error "Plugin purge plan is not authoritative or ready."

def stateChanged : PurgeError := .error "Plugin purge authority state changed after approval."

def unsupportedMigration : PurgeError := .error "$.migration contains unsupported undefined."

inductive OperationSupport where
  | supported | unsupported
  deriving DecidableEq, Repr

/-- The fields of a parsed manifest that a purge reads. -/
structure PluginManifest where
  id : String
  purge : OperationSupport
  id_valid : pluginIdOk id = true

inductive ReferenceKind where
  | dependency | document | event | integration | job
  deriving DecidableEq, Repr

def ReferenceKind.text : ReferenceKind → String
  | .dependency => "dependency"
  | .document => "document"
  | .event => "event"
  | .integration => "integration"
  | .job => "job"

/-- mirrors packages/runtime/src/plugin-lifecycle.ts:58-62 -/
structure PlatformPluginReference where
  kind : ReferenceKind
  id : String
  pluginId : String
  deriving DecidableEq, Repr

structure ReferenceState where
  revision : String
  references : List PlatformPluginReference
  deriving DecidableEq, Repr

structure DependentState where
  revision : String
  pluginIds : List String
  deriving DecidableEq, Repr

structure RetentionState where
  revision : String
  satisfied : Bool
  deriving DecidableEq, Repr

/-- The four scans that are made for a plan and again for its execution. -/
structure Scans where
  references : ReferenceState
  dependents : DependentState
  retention : RetentionState
  migrationRevision : Int
  deriving DecidableEq, Repr

structure Migration where
  id : String
  expectedPredecessorRevision : Int
  targetRevision : Int
  deriving DecidableEq, Repr

/-- What `archiveReceipts` holds for a receipt, as far as a purge reads it. -/
structure EvidenceBinding where
  applicationId : String
  pluginId : String
  migrationRevision : Int
  contentDigest : String
  deriving DecidableEq, Repr

/-- What `backupReceipts` and `restoreReceipts` hold for a receipt. -/
structure BackupBinding extends EvidenceBinding where
  backupId : String
  deriving DecidableEq, Repr

/-- mirrors packages/runtime/src/plugin-data-lifecycle.ts:190-202; `manifest` is `none` when its
schema rejects it. -/
structure PlanInput where
  manifest : Option PluginManifest
  applicationId : String
  actorId : String
  sessionId : String
  approvalId : String
  migrationId : String
  archive : Option EvidenceBinding
  backup : Option BackupBinding
  restore : Option BackupBinding

/-- mirrors packages/runtime/src/plugin-data-lifecycle.ts:129-140 -/
structure PluginPurgePlan where
  applicationId : String
  pluginId : String
  migrationId : String
  expectedPredecessorRevision : Int
  targetRevision : Int
  approvalId : String
  authorityRevision : String
  inputDigest : String
  ready : Bool
  diagnostics : List PluginDataLifecycleDiagnostic
  deriving DecidableEq, Repr

/-- mirrors packages/runtime/src/plugin-data-lifecycle.ts:205-211 -/
structure PurgeBinding where
  referenceRevision : String
  dependencyRevision : String
  retentionRevision : String
  migrationRevision : Int
  deriving DecidableEq, Repr

def Scans.binding (scans : Scans) : PurgeBinding where
  referenceRevision := scans.references.revision
  dependencyRevision := scans.dependents.revision
  retentionRevision := scans.retention.revision
  migrationRevision := scans.migrationRevision

/-! ### Identities -/

/-- `/^[a-zA-Z0-9][a-zA-Z0-9._:-]{7,255}$/u` -/
def sessionIdOk (s : String) : Bool :=
  match s.toList with
  | [] => false
  | c :: cs => c.isAlphanum && cs.all (fun c => c.isAlphanum || "._:-".toList.contains c) &&
      decide (7 ≤ cs.length ∧ cs.length ≤ 255)

/-- `/^approval:[a-zA-Z0-9._-]{3,128}$/u` -/
def approvalIdOk (s : String) : Bool :=
  let rest := s.toList.drop 9
  decide (s.toList.take 9 = "approval:".toList) &&
    rest.all (fun c => c.isAlphanum || "._-".toList.contains c) &&
    decide (3 ≤ rest.length ∧ rest.length ≤ 128)

/-- mirrors packages/runtime/src/plugin-data-lifecycle.ts:247-249 -/
def validRevision (revision : Int) : Bool :=
  decide (0 ≤ revision ∧ revision ≤ Json.maxSafeInteger)

/-! ## References -/

def PlatformPluginReference.key (reference : PlatformPluginReference) : String :=
  joinNul [reference.kind.text, reference.id, reference.pluginId]

/-- The loop over the references. -/
def collectReferences (pluginId : String) : List PlatformPluginReference →
    JsMap String PlatformPluginReference → Except PurgeError (JsMap String PlatformPluginReference)
  | [], found => .ok found
  | reference :: references, found =>
    if resourceIdOk reference.id = false ∨ resourceIdOk reference.pluginId = false then
      .error .schema
    else if reference.pluginId ≠ pluginId then collectReferences pluginId references found
    else collectReferences pluginId references (found.set reference.key reference)

/-- mirrors packages/runtime/src/plugin-lifecycle.ts:267-278 -/
def scanPlatformPluginReferences (pluginId : String) (references : List PlatformPluginReference) :
    Except PurgeError (List PlatformPluginReference) :=
  if resourceIdOk pluginId = false then .error .schema
  else do
    let found ← collectReferences pluginId references .empty
    .ok ((sortBy Prod.fst found.entries).map Prod.snd)

theorem collectReferences_nil {pluginId : String} : ∀ {references : List PlatformPluginReference}
    {found found' : JsMap String PlatformPluginReference},
    collectReferences pluginId references found = .ok found' → found'.entries = [] →
    found.entries = [] ∧ ∀ r ∈ references, r.pluginId ≠ pluginId
  | [], found, found', h, hnil => by
    obtain rfl := Except.ok.inj h
    exact ⟨hnil, fun r hr => by cases hr⟩
  | r :: references, found, found', h, hnil => by
    unfold collectReferences at h
    split at h
    · cases h
    split at h
    · rename_i hne
      obtain ⟨hf, hrest⟩ := collectReferences_nil h hnil
      exact ⟨hf, List.forall_mem_cons.mpr ⟨hne, hrest⟩⟩
    · obtain ⟨hf, -⟩ := collectReferences_nil h hnil
      have hget := found.get?_set_self r.key r
      rw [JsMap.get?_eq_some, hf] at hget
      cases hget

/-- An empty scan: nothing refers to the plugin. -/
theorem scan_nil {pluginId : String} {references : List PlatformPluginReference}
    (h : scanPlatformPluginReferences pluginId references = .ok []) :
    ∀ r ∈ references, r.pluginId ≠ pluginId := by
  unfold scanPlatformPluginReferences at h
  split at h
  · cases h
  obtain ⟨found, hfound, hnil⟩ := bind_eq_ok.mp h
  have hlen := congrArg List.length (Except.ok.inj hnil)
  rw [List.length_map, length_sortBy] at hlen
  exact (collectReferences_nil hfound (List.eq_nil_of_length_eq_zero hlen)).2

/-! ## Planning -/

def issue (code : PluginDataLifecycleDiagnosticCode) (message : String) :
    PluginDataLifecycleDiagnostic := ⟨code, message⟩

/-- `if (condition) diagnostics.push(…)` -/
def issueWhen (condition : Prop) [Decidable condition] (code : PluginDataLifecycleDiagnosticCode)
    (message : String) : List PluginDataLifecycleDiagnostic :=
  if condition then [issue code message] else []

/-- mirrors packages/runtime/src/plugin-data-lifecycle.ts:251-255 -/
def validArchiveBinding (receipt : Option EvidenceBinding) (applicationId pluginId : String)
    (migrationRevision : Int) : Bool :=
  match receipt with
  | some b => decide (b.applicationId = applicationId ∧ b.pluginId = pluginId ∧
      b.migrationRevision = migrationRevision)
  | none => false

/-- mirrors packages/runtime/src/plugin-data-lifecycle.ts:366-372 -/
def backupIsRestorable (backup restore : Option BackupBinding) : Bool :=
  match backup, restore with
  | some b, some r => decide (b.backupId = r.backupId ∧ b.applicationId = r.applicationId ∧
      b.pluginId = r.pluginId ∧ b.migrationRevision = r.migrationRevision ∧
      b.contentDigest = r.contentDigest)
  | _, _ => false

/-- `[...new Set(pluginIds)]`, each parsed. -/
def dependentsOf (pluginIds : List String) : Except PurgeError (List String) :=
  let dependents := pluginIds.eraseDups
  if dependents.all resourceIdOk then .ok dependents else .error .schema

def Migration.json (m : Migration) : Json :=
  .obj [("id", .str m.id), ("expectedPredecessorRevision", .num m.expectedPredecessorRevision),
    ("targetRevision", .num m.targetRevision)]

/-- A migration that is `undefined` is no JSON.
mirrors packages/runtime/src/plugin-data-lifecycle.ts:409-411 -/
def inputDigest (sha256 : String → String) (input : PlanInput) (pluginId : String) (scans : Scans)
    (migration : Option Migration) : Except PurgeError String :=
  match input.archive, input.backup with
  | some archive, some backup =>
    if digestOk archive.contentDigest ∧ digestOk backup.contentDigest then
      match migration with
      | none => .error unsupportedMigration
      | some migration => .ok ("sha256:" ++ sha256 (Json.canonicalJson (.obj [
          ("applicationId", .str input.applicationId), ("pluginId", .str pluginId),
          ("migration", migration.json), ("migrationRevision", .num scans.migrationRevision),
          ("referenceRevision", .str scans.references.revision),
          ("dependencyRevision", .str scans.dependents.revision),
          ("retentionRevision", .str scans.retention.revision),
          ("archiveDigest", .str archive.contentDigest),
          ("backupDigest", .str backup.contentDigest), ("actorId", .str input.actorId),
          ("sessionId", .str input.sessionId), ("approvalId", .str input.approvalId)])))
    else .ok ("sha256:" ++ String.ofList (List.replicate 64 '0'))
  | _, _ => .ok ("sha256:" ++ String.ofList (List.replicate 64 '0'))

def authorityRevision (scans : Scans) : String :=
  "refs:" ++ scans.references.revision ++ ";deps:" ++ scans.dependents.revision ++
    ";retention:" ++ scans.retention.revision ++ ";migration:" ++ toString scans.migrationRevision

/-- mirrors packages/runtime/src/plugin-data-lifecycle.ts:397-400 -/
def validMigration (input : PlanInput) (scans : Scans) : Option Migration → Bool
  | some m => decide (m.id = input.migrationId) && validRevision m.expectedPredecessorRevision &&
      decide (m.targetRevision = m.expectedPredecessorRevision + 1 ∧
        m.expectedPredecessorRevision = scans.migrationRevision)
  | none => false

/-- The plan as it stands before its authorization.
mirrors packages/runtime/src/plugin-data-lifecycle.ts:389-411,418-423 -/
def draft (sha256 : String → String) (input : PlanInput) (manifest : PluginManifest)
    (scans : Scans) (migration : Option Migration) : Except PurgeError PluginPurgePlan := do
  let references ← scanPlatformPluginReferences manifest.id scans.references.references
  let dependents ← dependentsOf scans.dependents.pluginIds
  let valid := validMigration input scans migration
  let expectedRevision :=
    if valid then (migration.map (·.expectedPredecessorRevision)).getD (-1) else -1
  let digest ← inputDigest sha256 input manifest.id scans migration
  .ok {
    applicationId := input.applicationId
    pluginId := manifest.id
    migrationId := (migration.map (·.id)).getD "unavailable"
    expectedPredecessorRevision := (migration.map (·.expectedPredecessorRevision)).getD (-1)
    targetRevision := (migration.map (·.targetRevision)).getD (-1)
    approvalId := input.approvalId
    authorityRevision := authorityRevision scans
    inputDigest := digest
    ready := false
    diagnostics :=
      issueWhen (manifest.purge ≠ .supported) .purgeUnsupported
        "Plugin manifest does not support purge." ++
      issueWhen (0 < references.length) .referencePresent
        (toString references.length ++ " active plugin reference(s) remain.") ++
      issueWhen (0 < dependents.length) .dependencyPresent
        (toString dependents.length ++ " dependent plugin(s) remain.") ++
      issueWhen (scans.retention.satisfied = false) .retentionBlocked
        "Retention or legal-hold requirements are unresolved." ++
      issueWhen (valid = false) .migrationRequired
        "A registry-issued sequential customer purge migration is required." ++
      issueWhen (validArchiveBinding input.archive input.applicationId manifest.id
          expectedRevision = false) .archiveRequired
        "An executor-verified, restore-read plugin archive is required." ++
      issueWhen (backupIsRestorable input.backup input.restore = false ∨
          validArchiveBinding (input.backup.map (·.toEvidenceBinding)) input.applicationId
            manifest.id expectedRevision = false) .backupRequired
        "The verified backup and clean restore must match this application, plugin, and migration revision." }

/-! ## State -/

/-- A call of `plan`: suspended at one of its awaits, or settled. -/
inductive PlanCall where
  | scanning (input : PlanInput) (manifest : PluginManifest)
  | authorizing (draft : PluginPurgePlan) (scans : Scans)
  | returned (plan : Nat)
  | rejected (error : PurgeError)

/-- A plan that was returned, with the scans it was drawn up from. -/
structure Issued where
  plan : PluginPurgePlan
  scans : Scans
  deriving DecidableEq

/-- Where the purge transaction of an execution stands. -/
inductive Stage where
  | beginning | applying | committing | committed
  | rollingBack (error : PurgeError)
  | failed (error : PurgeError)
  deriving DecidableEq

inductive Phase where
  | validating (binding : PurgeBinding)
  | refused (error : PurgeError)
  /-- the transaction has been begun, after these scans -/
  | purging (scans : Scans) (stage : Stage)
  deriving DecidableEq

/-- A call of `executePluginPurge`; `taken` when it found the plan in the map. -/
structure Execution where
  plan : Option Nat
  taken : Bool
  phase : Phase
  deriving DecidableEq

structure St where
  usedApprovals : List String
  plans : List Issued
  authoritativePurgePlans : JsMap Nat PurgeBinding
  calls : List PlanCall
  executions : List Execution

def init : St := ⟨[], [], .empty, [], []⟩

inductive Ev where
  | plan (input : PlanInput)
  /-- the five scans of a plan resolve -/
  | scanned (c : Nat) (scans : Scans) (migration : Option Migration)
  | scanFails (c : Nat)
  | authorized (c : Nat) (answer : Bool)
  | authorizeFails (c : Nat)
  | execute (plan : Option Nat)
  /-- the four scans of an execution resolve -/
  | rescanned (e : Nat) (scans : Scans)
  | rescanFails (e : Nat)
  /-- the method of the transaction that the execution awaits resolves or rejects -/
  | transaction (e : Nat) (ok : Bool)

/-! ## Steps -/

def St.settle (s : St) (c : Nat) (call : PlanCall) : St := { s with calls := s.calls.set c call }

/-- mirrors packages/runtime/src/plugin-data-lifecycle.ts:379-384 -/
def start (s : St) (input : PlanInput) : St :=
  { s with calls := s.calls ++ [match input.manifest with
    | none => .rejected .schema
    | some manifest =>
      if resourceIdOk input.applicationId = false ∨ resourceIdOk input.actorId = false then
        .rejected .schema
      else if sessionIdOk input.sessionId = false ∨ approvalIdOk input.approvalId = false then
        .rejected identityInvalid
      else .scanning input manifest] }

/-- The plan is complete.
mirrors packages/runtime/src/plugin-data-lifecycle.ts:416-429 -/
def finish (s : St) (c : Nat) (draft : PluginPurgePlan) (scans : Scans) (authorized : Bool) : St :=
  let diagnostics := draft.diagnostics ++ issueWhen (authorized = false) .accessDenied
    "Authority-bound single-use purge approval is required."
  let ready := diagnostics.isEmpty
  let plan := { draft with ready := ready, diagnostics := diagnostics }
  { s with
    usedApprovals := if ready then plan.approvalId :: s.usedApprovals else s.usedApprovals
    plans := s.plans ++ [⟨plan, scans⟩]
    authoritativePurgePlans :=
      if ready then s.authoritativePurgePlans.set s.plans.length scans.binding
      else s.authoritativePurgePlans
    calls := s.calls.set c (.returned s.plans.length) }

/-- `authorize` is called only for a plan without diagnostics whose approval is not yet used.
mirrors packages/runtime/src/plugin-data-lifecycle.ts:389-415 -/
def scanned (sha256 : String → String) (s : St) (c : Nat) (input : PlanInput)
    (manifest : PluginManifest) (scans : Scans) (migration : Option Migration) : St :=
  match draft sha256 input manifest scans migration with
  | .error error => s.settle c (.rejected error)
  | .ok draft =>
    if draft.diagnostics = [] ∧ draft.approvalId ∉ s.usedApprovals then
      s.settle c (.authorizing draft scans)
    else finish s c draft scans false

/-- mirrors packages/runtime/src/plugin-data-lifecycle.ts:432-435 -/
def execute (s : St) (plan : Option Nat) : St :=
  match plan.bind fun i => s.authoritativePurgePlans.get? i with
  | none => { s with executions := s.executions ++ [⟨plan, false, .refused notAuthoritative⟩] }
  | some binding =>
    { s with
      authoritativePurgePlans := (plan.map s.authoritativePurgePlans.delete).getD
        s.authoritativePurgePlans
      executions := s.executions ++ [⟨plan, true, .validating binding⟩] }

/-- The comparison with the binding; a scan whose references do not parse throws.
mirrors packages/runtime/src/plugin-data-lifecycle.ts:440-442 -/
def validate (pluginId : String) (binding : PurgeBinding) (scans : Scans) : Except PurgeError Unit :=
  if scans.references.revision ≠ binding.referenceRevision then .error stateChanged
  else do
    let references ← scanPlatformPluginReferences pluginId scans.references.references
    if 0 < references.length ∨ scans.dependents.revision ≠ binding.dependencyRevision ∨
        0 < scans.dependents.pluginIds.length ∨
        scans.retention.revision ≠ binding.retentionRevision ∨ scans.retention.satisfied = false ∨
        scans.migrationRevision ≠ binding.migrationRevision then
      .error stateChanged
    else .ok ()

/-- mirrors packages/runtime/src/plugin-data-lifecycle.ts:443-454 -/
def advance : Stage → Bool → Option Stage
  | .beginning, true => some .applying
  | .beginning, false => some (.failed .transaction)
  | .applying, true => some .committing
  | .applying, false => some (.rollingBack .transaction)
  | .committing, true => some .committed
  | .committing, false => some (.rollingBack .transaction)
  -- the purge failure is kept, whatever `rollback` does
  | .rollingBack error, _ => some (.failed error)
  | .committed, _ => none
  | .failed _, _ => none

def St.setPhase (s : St) (e : Nat) (x : Execution) (phase : Phase) : St :=
  { s with executions := s.executions.set e { x with phase := phase } }

/-- The plan of an execution, which is an object of its own when `plan` did not return it. -/
def St.issued (s : St) (plan : Option Nat) : Option Issued := plan.bind fun i => s.plans[i]?

/-- One resumption of an execution. -/
def resume (s : St) (e : Nat) (x : Execution) (ev : Ev) : Option St :=
  match ev, x.phase with
  | .rescanned _ scans, .validating binding =>
    (s.issued x.plan).map fun issued =>
      match validate issued.plan.pluginId binding scans with
      | .error error => s.setPhase e x (.refused error)
      | .ok () => s.setPhase e x (.purging scans .beginning)
  | .rescanFails _, .validating _ => some (s.setPhase e x (.refused .dependency))
  | .transaction _ ok, .purging scans stage =>
    (advance stage ok).map fun stage => s.setPhase e x (.purging scans stage)
  | _, _ => none

def step (sha256 : String → String) (s : St) (ev : Ev) : Option St :=
  match ev with
  | .plan input => some (start s input)
  | .scanned c scans migration =>
    match s.calls[c]? with
    | some (.scanning input manifest) => some (scanned sha256 s c input manifest scans migration)
    | _ => none
  | .scanFails c =>
    match s.calls[c]? with
    | some (.scanning _ _) => some (s.settle c (.rejected .dependency))
    | _ => none
  | .authorized c answer =>
    match s.calls[c]? with
    | some (.authorizing draft scans) => some (finish s c draft scans answer)
    | _ => none
  | .authorizeFails c =>
    match s.calls[c]? with
    | some (.authorizing _ _) => some (s.settle c (.rejected .dependency))
    | _ => none
  | .execute plan => if ∀ i ∈ plan, i < s.plans.length then some (execute s plan) else none
  | .rescanned e _ => s.executions[e]?.bind fun x => resume s e x ev
  | .rescanFails e => s.executions[e]?.bind fun x => resume s e x ev
  | .transaction e _ => s.executions[e]?.bind fun x => resume s e x ev

def lts (sha256 : String → String) : LTS St Ev := .ofFn (· = init) (step sha256)

/-! ## What the authority is for -/

/-- At most one ready plan an approval. -/
def SingleUse (plans : List Issued) : Prop :=
  ∀ (i j : Nat) (a b : Issued), plans[i]? = some a → plans[j]? = some b → a.plan.ready = true →
    b.plan.ready = true → a.plan.approvalId = b.plan.approvalId → i = j

/-- The execution has begun its purge transaction. -/
def Execution.purges (x : Execution) : Prop := ∃ scans stage, x.phase = .purging scans stage

/-- Nothing stands against the purge of the plugin. -/
structure Unblocked (plan : PluginPurgePlan) (scans : Scans) : Prop where
  references : ∀ r ∈ scans.references.references, r.pluginId ≠ plan.pluginId
  dependents : scans.dependents.pluginIds = []
  retention : scans.retention.satisfied = true

/-- These scans agree with the ones that the plan was approved on. -/
def Validated (plans : List Issued) (plan : Option Nat) (scans : Scans) : Prop :=
  ∃ i issued, plan = some i ∧ plans[i]? = some issued ∧ issued.plan.ready = true ∧
    scans.binding = issued.scans.binding ∧ Unblocked issued.plan scans

structure Safe (s : St) : Prop where
  singleUse : SingleUse s.plans
  once : ∀ (e f : Nat) (x y : Execution), s.executions[e]? = some x → s.executions[f]? = some y →
    x.purges → y.purges → x.plan = y.plan → e = f
  validated : ∀ x ∈ s.executions, ∀ scans stage, x.phase = .purging scans stage →
    Validated s.plans x.plan scans

/-- `authorize` grants an approval that is still unused. -/
def Unused (s : St) (ev : Ev) : Prop :=
  ∀ c draft scans, ev = .authorized c true → s.calls[c]? = some (.authorizing draft scans) →
    draft.approvalId ∉ s.usedApprovals

/-! ## Invariant -/

/-- What an execution that has not been refused has to go by. -/
def Sound (plans : List Issued) (x : Execution) : Prop :=
  match x.phase with
  | .refused _ => True
  | .validating binding => x.taken = true ∧ ∃ i issued, x.plan = some i ∧
      plans[i]? = some issued ∧ issued.plan.ready = true ∧ binding = issued.scans.binding
  | .purging scans _ => x.taken = true ∧ Validated plans x.plan scans

structure Inv (s : St) : Prop where
  singleUse : SingleUse s.plans
  used : ∀ issued ∈ s.plans, issued.plan.ready = true → issued.plan.approvalId ∈ s.usedApprovals
  spent : ∀ a ∈ s.usedApprovals, ∃ issued ∈ s.plans, issued.plan.ready = true ∧
    issued.plan.approvalId = a
  drafts : ∀ draft scans, .authorizing draft scans ∈ s.calls → draft.diagnostics = []
  bound : ∀ i b, s.authoritativePurgePlans.get? i = some b → ∃ issued, s.plans[i]? = some issued ∧
    issued.plan.ready = true ∧ b = issued.scans.binding
  untaken : ∀ i b, s.authoritativePurgePlans.get? i = some b → ∀ x ∈ s.executions,
    x.taken = true → x.plan ≠ some i
  known : ∀ x ∈ s.executions, ∀ i ∈ x.plan, i < s.plans.length
  sound : ∀ x ∈ s.executions, Sound s.plans x
  once : ∀ (e f : Nat) (x y : Execution), s.executions[e]? = some x → s.executions[f]? = some y →
    x.taken = true → y.taken = true → x.plan = y.plan → e = f

theorem inv_init : Inv init := by
  refine ⟨?_, ?_, ?_, ?_, ?_, ?_, ?_, ?_, ?_⟩ <;> simp [init, SingleUse]

variable {sha256 : String → String} {s s' : St} {ev : Ev}

theorem Validated.append {plans plans' : List Issued} {plan : Option Nat} {scans : Scans}
    (h : Validated plans plan scans) : Validated (plans ++ plans') plan scans := by
  obtain ⟨i, issued, hp, hi, hrest⟩ := h
  exact ⟨i, issued, hp, getElem?_append_of_some hi, hrest⟩

theorem Sound.append {plans plans' : List Issued} {x : Execution} (h : Sound plans x) :
    Sound (plans ++ plans') x := by
  unfold Sound at h ⊢
  split
  · trivial
  · rename_i heq
    rw [heq] at h
    obtain ⟨ht, i, issued, hp, hi, hrest⟩ := h
    exact ⟨ht, i, issued, hp, getElem?_append_of_some hi, hrest⟩
  · rename_i heq
    rw [heq] at h
    exact ⟨h.1, h.2.append⟩

theorem safe_of_inv (h : Inv s) : Safe s where
  singleUse := h.singleUse
  once e f x y hx hy hpx hpy heq := by
    have taken : ∀ z ∈ s.executions, z.purges → z.taken = true := by
      intro z hz hpz
      obtain ⟨scans, stage, hphase⟩ := hpz
      have hsound := h.sound z hz
      unfold Sound at hsound
      rw [hphase] at hsound
      exact hsound.1
    exact h.once e f x y hx hy (taken x (List.mem_of_getElem? hx) hpx)
      (taken y (List.mem_of_getElem? hy) hpy) heq
  validated x hx scans stage hphase := by
    have hsound := h.sound x hx
    unfold Sound at hsound
    rw [hphase] at hsound
    exact hsound.2

/-! ### Plans -/

/-- A call that is suspended elsewhere, or settled, leaves the plans alone. -/
theorem inv_calls (h : Inv s) {calls : List PlanCall}
    (hd : ∀ draft scans, .authorizing draft scans ∈ calls → draft.diagnostics = []) :
    Inv { s with calls := calls } :=
  ⟨h.singleUse, h.used, h.spent, hd, h.bound, h.untaken, h.known, h.sound, h.once⟩

theorem inv_settle (h : Inv s) {c : Nat} {call : PlanCall}
    (hd : ∀ draft scans, call = .authorizing draft scans → draft.diagnostics = []) :
    Inv (s.settle c call) := by
  refine inv_calls h fun draft scans hm => ?_
  rcases List.mem_or_eq_of_mem_set hm with hm | heq
  · exact h.drafts draft scans hm
  · exact hd draft scans heq.symm

theorem inv_start (h : Inv s) (input : PlanInput) : Inv (start s input) := by
  refine inv_calls h fun draft scans hm => ?_
  rcases List.mem_append.mp hm with hm | hm
  · exact h.drafts draft scans hm
  · have heq := List.mem_singleton.mp hm
    repeat' split at heq
    all_goals cases heq

/-- A plan that is not ready is of no consequence. -/
theorem inv_unready (h : Inv s) {issued : Issued} (hr : issued.plan.ready = false)
    {calls : List PlanCall}
    (hd : ∀ draft scans, .authorizing draft scans ∈ calls → draft.diagnostics = []) :
    Inv { s with plans := s.plans ++ [issued], calls := calls } where
  singleUse i j a b ha hb hra hrb hab := by
    have old : ∀ {k : Nat} {x : Issued}, (s.plans ++ [issued])[k]? = some x →
        x.plan.ready = true → s.plans[k]? = some x := by
      intro k x hk hrx
      rw [List.getElem?_append] at hk
      split at hk
      · exact hk
      · have heq := List.mem_singleton.mp (List.mem_of_getElem? hk)
        rw [heq, hr] at hrx
        cases hrx
    exact h.singleUse i j a b (old ha hra) (old hb hrb) hra hrb hab
  used x hx hrx := by
    rcases List.mem_append.mp hx with hx | hx
    · exact h.used x hx hrx
    · rw [List.mem_singleton.mp hx, hr] at hrx
      cases hrx
  spent a ha := by
    obtain ⟨x, hx, hrest⟩ := h.spent a ha
    exact ⟨x, List.mem_append_left _ hx, hrest⟩
  drafts := hd
  bound i b hb := by
    obtain ⟨x, hx, hrest⟩ := h.bound i b hb
    exact ⟨x, getElem?_append_of_some hx, hrest⟩
  untaken := h.untaken
  known x hx i hi := by
    rw [List.length_append]
    have := h.known x hx i hi
    omega
  sound x hx := (h.sound x hx).append
  once := h.once

/-- A ready plan with an unused approval enters the authoritative plans. -/
theorem inv_ready (h : Inv s) (issued : Issued) (hr : issued.plan.ready = true)
    (hu : issued.plan.approvalId ∉ s.usedApprovals) {calls : List PlanCall}
    (hd : ∀ draft scans, .authorizing draft scans ∈ calls → draft.diagnostics = []) :
    Inv { s with
      usedApprovals := issued.plan.approvalId :: s.usedApprovals
      plans := s.plans ++ [issued]
      authoritativePurgePlans := s.authoritativePurgePlans.set s.plans.length issued.scans.binding
      calls := calls } where
  singleUse i j a b ha hb hra hrb hab := by
    have other : ∀ {k : Nat} {x : Issued}, s.plans[k]? = some x → x.plan.ready = true →
        x.plan.approvalId ≠ issued.plan.approvalId := by
      intro k x hk hrx heq
      exact hu (heq ▸ h.used x (List.mem_of_getElem? hk) hrx)
    rw [List.getElem?_append] at ha hb
    split at ha <;> split at hb
    · exact h.singleUse i j a b ha hb hra hrb hab
    · rw [← List.mem_singleton.mp (List.mem_of_getElem? hb)] at other
      exact absurd hab (other ha hra)
    · rw [← List.mem_singleton.mp (List.mem_of_getElem? ha)] at other
      exact absurd hab.symm (other hb hrb)
    · obtain ⟨hi, -⟩ := List.getElem?_eq_some_iff.mp ha
      obtain ⟨hj, -⟩ := List.getElem?_eq_some_iff.mp hb
      rw [List.length_singleton] at hi hj
      omega
  used x hx hrx := by
    rcases List.mem_append.mp hx with hx | hx
    · exact List.mem_cons_of_mem _ (h.used x hx hrx)
    · rw [List.mem_singleton.mp hx]
      exact List.mem_cons_self
  spent a ha := by
    rcases List.mem_cons.mp ha with rfl | ha
    · exact ⟨issued, List.mem_append_right _ (List.mem_singleton.mpr rfl), hr, rfl⟩
    · obtain ⟨x, hx, hrest⟩ := h.spent a ha
      exact ⟨x, List.mem_append_left _ hx, hrest⟩
  drafts := hd
  bound i b hb := by
    rw [JsMap.get?_set] at hb
    split at hb
    · rename_i heq
      obtain rfl := Option.some.inj hb
      subst heq
      exact ⟨issued, by simp, hr, rfl⟩
    · obtain ⟨x, hx, hrest⟩ := h.bound i b hb
      exact ⟨x, getElem?_append_of_some hx, hrest⟩
  untaken i b hb x hx htaken := by
    rw [JsMap.get?_set] at hb
    split at hb
    · rename_i heq
      intro hp
      have := h.known x hx i hp
      omega
    · exact h.untaken i b hb x hx htaken
  known x hx i hi := by
    rw [List.length_append]
    have := h.known x hx i hi
    omega
  sound x hx := (h.sound x hx).append
  once := h.once

theorem inv_finish (h : Inv s) {c : Nat} {draft : PluginPurgePlan} {scans : Scans}
    {authorized : Bool}
    (hu : draft.diagnostics = [] → authorized = true → draft.approvalId ∉ s.usedApprovals) :
    Inv (finish s c draft scans authorized) := by
  have hd : ∀ draft scans, .authorizing draft scans ∈ s.calls.set c (.returned s.plans.length) →
      draft.diagnostics = [] := by
    intro draft scans hm
    rcases List.mem_or_eq_of_mem_set hm with hm | heq
    · exact h.drafts draft scans hm
    · cases heq
  unfold finish
  dsimp only
  split
  · rename_i hr
    obtain ⟨hnil, hissue⟩ := List.append_eq_nil_iff.mp (List.isEmpty_iff.mp hr)
    have hauth : authorized = true := by
      unfold issueWhen at hissue
      split at hissue
      · cases hissue
      · rename_i hne
        simpa using hne
    exact inv_ready h ⟨{ draft with ready := _, diagnostics := _ }, scans⟩ hr (hu hnil hauth) hd
  · rename_i hr
    exact inv_unready h (by simpa using hr) hd

theorem inv_scanned (h : Inv s) (c : Nat) (input : PlanInput) (manifest : PluginManifest)
    (scans : Scans) (migration : Option Migration) :
    Inv (scanned sha256 s c input manifest scans migration) := by
  unfold scanned
  split
  · exact inv_settle h fun draft scans heq => by cases heq
  · split
    · rename_i hok
      refine inv_settle h fun draft scans heq => ?_
      cases heq
      exact hok.1
    · exact inv_finish h fun _ hauth => by cases hauth

/-! ### Executions -/

/-- An execution that is added to the list without having taken a plan. -/
theorem inv_refused (h : Inv s) {plan : Option Nat} (hp : ∀ i ∈ plan, i < s.plans.length)
    (error : PurgeError) :
    Inv { s with executions := s.executions ++ [⟨plan, false, .refused error⟩] } where
  singleUse := h.singleUse
  used := h.used
  spent := h.spent
  drafts := h.drafts
  bound := h.bound
  untaken i b hb x hx htaken := by
    rcases List.mem_append.mp hx with hx | hx
    · exact h.untaken i b hb x hx htaken
    · rw [List.mem_singleton.mp hx] at htaken
      cases htaken
  known x hx := by
    rcases List.mem_append.mp hx with hx | hx
    · exact h.known x hx
    · rw [List.mem_singleton.mp hx]
      exact hp
  sound x hx := by
    rcases List.mem_append.mp hx with hx | hx
    · exact h.sound x hx
    · rw [List.mem_singleton.mp hx]
      trivial
  once e f x y hx hy htx hty heq := by
    have old : ∀ {k : Nat} {z : Execution},
        (s.executions ++ [⟨plan, false, .refused error⟩])[k]? = some z → z.taken = true →
        s.executions[k]? = some z := by
      intro k z hk htz
      rw [List.getElem?_append] at hk
      split at hk
      · exact hk
      · rw [List.mem_singleton.mp (List.mem_of_getElem? hk)] at htz
        cases htz
    exact h.once e f x y (old hx htx) (old hy hty) htx hty heq

/-- An execution that takes its plan out of the map is the only one to have taken it. -/
theorem inv_taken (h : Inv s) {i : Nat} {binding : PurgeBinding}
    (hb : s.authoritativePurgePlans.get? i = some binding) :
    Inv { s with
      authoritativePurgePlans := s.authoritativePurgePlans.delete i
      executions := s.executions ++ [⟨some i, true, .validating binding⟩] } where
  singleUse := h.singleUse
  used := h.used
  spent := h.spent
  drafts := h.drafts
  bound j b hj := by
    rw [JsMap.get?_delete] at hj
    split at hj
    · cases hj
    · exact h.bound j b hj
  untaken j b hj x hx htaken := by
    rw [JsMap.get?_delete] at hj
    split at hj
    · cases hj
    rename_i hne
    rcases List.mem_append.mp hx with hx | hx
    · exact h.untaken j b hj x hx htaken
    · rw [List.mem_singleton.mp hx]
      intro heq
      exact hne (Option.some.inj heq).symm
  known x hx j hj := by
    rcases List.mem_append.mp hx with hx | hx
    · exact h.known x hx j hj
    · rw [List.mem_singleton.mp hx] at hj
      obtain rfl := Option.some.inj hj
      obtain ⟨issued, hi, -⟩ := h.bound i binding hb
      obtain ⟨hlt, -⟩ := List.getElem?_eq_some_iff.mp hi
      exact hlt
  sound x hx := by
    rcases List.mem_append.mp hx with hx | hx
    · exact h.sound x hx
    · rw [List.mem_singleton.mp hx]
      obtain ⟨issued, hi, hready, heq⟩ := h.bound i binding hb
      exact ⟨rfl, i, issued, rfl, hi, hready, heq⟩
  once e f x y hx hy htx hty heq := by
    have other : ∀ {k : Nat} {z : Execution}, s.executions[k]? = some z → z.taken = true →
        z.plan ≠ some i :=
      fun hk htz => h.untaken i binding hb _ (List.mem_of_getElem? hk) htz
    rw [List.getElem?_append] at hx hy
    split at hx <;> split at hy
    · exact h.once e f x y hx hy htx hty heq
    · rw [List.mem_singleton.mp (List.mem_of_getElem? hy)] at heq
      exact absurd heq (other hx htx)
    · rw [List.mem_singleton.mp (List.mem_of_getElem? hx)] at heq
      exact absurd heq.symm (other hy hty)
    · obtain ⟨he, -⟩ := List.getElem?_eq_some_iff.mp hx
      obtain ⟨hf, -⟩ := List.getElem?_eq_some_iff.mp hy
      rw [List.length_singleton] at he hf
      omega

theorem inv_execute (h : Inv s) {plan : Option Nat} (hp : ∀ i ∈ plan, i < s.plans.length) :
    Inv (execute s plan) := by
  unfold execute
  split
  · exact inv_refused h hp notAuthoritative
  · rename_i binding hb
    obtain ⟨i, rfl, hi⟩ := Option.bind_eq_some_iff.mp hb
    exact inv_taken h hi

/-- An execution that goes on keeps its plan. -/
theorem inv_setPhase (h : Inv s) {e : Nat} {x : Execution} (hx : s.executions[e]? = some x)
    {phase : Phase} (hs : Sound s.plans { x with phase := phase }) : Inv (s.setPhase e x phase) := by
  have hmem := List.mem_of_getElem? hx
  have old : ∀ {k : Nat} {z : Execution}, (s.executions.set e { x with phase := phase })[k]? =
      some z → ∃ z', s.executions[k]? = some z' ∧ z'.plan = z.plan ∧ z'.taken = z.taken := by
    intro k z hk
    by_cases heq : e = k
    · subst heq
      have hz := List.mem_of_getElem? hk
      rw [List.getElem?_set_self (List.getElem?_eq_some_iff.mp hx).1] at hk
      obtain rfl := Option.some.inj hk
      exact ⟨x, hx, rfl, rfl⟩
    · rw [List.getElem?_set_ne heq] at hk
      exact ⟨z, hk, rfl, rfl⟩
  refine ⟨h.singleUse, h.used, h.spent, h.drafts, h.bound, fun i b hb z hz htaken => ?_,
    fun z hz => ?_, fun z hz => ?_, fun k l z w hz hw htz htw heq => ?_⟩
  · rcases List.mem_or_eq_of_mem_set hz with hz | rfl
    · exact h.untaken i b hb z hz htaken
    · exact h.untaken i b hb x hmem htaken
  · rcases List.mem_or_eq_of_mem_set hz with hz | rfl
    · exact h.known z hz
    · exact h.known x hmem
  · rcases List.mem_or_eq_of_mem_set hz with hz | rfl
    · exact h.sound z hz
    · exact hs
  · obtain ⟨z', hz', hzp, hzt⟩ := old hz
    obtain ⟨w', hw', hwp, hwt⟩ := old hw
    exact h.once k l z' w' hz' hw' (hzt.trans htz) (hwt.trans htw) (hzp.trans (heq.trans hwp.symm))

/-- The comparison passes only when nothing has changed and nothing stands against the purge. -/
theorem validate_ok {plan : PluginPurgePlan} {binding : PurgeBinding} {scans : Scans}
    (h : validate plan.pluginId binding scans = .ok ()) :
    scans.binding = binding ∧ Unblocked plan scans := by
  unfold validate at h
  split at h
  · cases h
  rename_i href
  obtain ⟨references, hscan, hrest⟩ := bind_eq_ok.mp h
  split at hrest
  · cases hrest
  rename_i hok
  simp only [not_or, Nat.not_lt, Nat.le_zero, Decidable.not_not, List.length_eq_zero_iff,
    Bool.not_eq_false] at hok href
  obtain ⟨rfl, hdep, hnone, hret, hsat, hmig⟩ := hok
  refine ⟨?_, scan_nil hscan, hnone, hsat⟩
  simp only [Scans.binding, href, hdep, hret, hmig]

theorem inv_resume (h : Inv s) {e : Nat} {x : Execution} (hx : s.executions[e]? = some x)
    (hr : resume s e x ev = some s') : Inv s' := by
  have hsound := h.sound x (List.mem_of_getElem? hx)
  unfold Sound at hsound
  unfold resume at hr
  split at hr
  · rename_i scans binding hphase
    rw [hphase] at hsound
    obtain ⟨htaken, i, issued, hplan, hi, hready, hbind⟩ := hsound
    obtain ⟨issued', hissued, hs'⟩ := Option.map_eq_some_iff.mp hr
    have heq : issued' = issued := by
      rw [hplan] at hissued
      exact Option.some.inj (hissued.symm.trans hi)
    subst hs' heq
    split
    · exact inv_setPhase h hx trivial
    · rename_i hv
      obtain ⟨hb, hun⟩ := validate_ok hv
      exact inv_setPhase h hx ⟨htaken, i, issued', hplan, hi, hready, hb.trans hbind, hun⟩
  · obtain rfl := Option.some.inj hr
    exact inv_setPhase h hx trivial
  · rename_i hphase
    rw [hphase] at hsound
    obtain ⟨stage', -, hs'⟩ := Option.map_eq_some_iff.mp hr
    subst hs'
    exact inv_setPhase h hx hsound
  · cases hr

/-! ## Steps -/

theorem inv_step (h : Inv s) (hs : step sha256 s ev = some s') (hu : Unused s ev) : Inv s' := by
  unfold step at hs
  cases ev with
  | plan input =>
    obtain rfl := Option.some.inj hs
    exact inv_start h input
  | scanned c scans migration =>
    dsimp only at hs
    split at hs
    · obtain rfl := Option.some.inj hs
      exact inv_scanned h c _ _ scans migration
    · cases hs
  | scanFails c =>
    dsimp only at hs
    split at hs
    · obtain rfl := Option.some.inj hs
      exact inv_settle h fun draft scans heq => by cases heq
    · cases hs
  | authorized c answer =>
    dsimp only at hs
    split at hs
    · rename_i draft scans hc
      obtain rfl := Option.some.inj hs
      refine inv_finish h fun _ hans => ?_
      subst hans
      exact hu c draft scans rfl hc
    · cases hs
  | authorizeFails c =>
    dsimp only at hs
    split at hs
    · obtain rfl := Option.some.inj hs
      exact inv_settle h fun draft scans heq => by cases heq
    · cases hs
  | execute plan =>
    dsimp only at hs
    split at hs
    · rename_i hp
      obtain rfl := Option.some.inj hs
      exact inv_execute h hp
    · cases hs
  | rescanned e scans =>
    obtain ⟨x, hx, hr⟩ := Option.bind_eq_some_iff.mp hs
    exact inv_resume h hx hr
  | rescanFails e =>
    obtain ⟨x, hx, hr⟩ := Option.bind_eq_some_iff.mp hs
    exact inv_resume h hx hr
  | transaction e ok =>
    obtain ⟨x, hx, hr⟩ := Option.bind_eq_some_iff.mp hs
    exact inv_resume h hx hr

/-- A grant of a used approval makes a second plan ready for it. -/
theorem unused_of_safe (h : Inv s) (hs : step sha256 s ev = some s') (hsafe : Safe s') :
    Unused s ev := by
  intro c draft scans hev hc hmem
  subst hev
  obtain ⟨issued, hi, hready, happ⟩ := h.spent _ hmem
  obtain ⟨i, hlt, hget⟩ := List.getElem_of_mem hi
  have hnil := h.drafts draft scans (List.mem_of_getElem? hc)
  simp only [step, hc] at hs
  obtain rfl := Option.some.inj hs
  have hold : (finish s c draft scans true).plans[i]? = some issued := by
    refine getElem?_append_of_some ?_
    rw [List.getElem?_eq_getElem hlt, hget]
  have hnew : (finish s c draft scans true).plans[s.plans.length]? =
      some ⟨{ draft with ready := true }, scans⟩ := by
    simp [finish, hnil, issueWhen]
  have := hsafe.singleUse i s.plans.length _ _ hold hnew hready rfl happ
  omega

/-! ## Headline properties -/

/-- **One purge for an approval.** Every state of a run has at most one ready plan an approval and
at most one execution a plan, and purges only what was validated again, exactly when each approval
that `authorize` grants is still unused. -/
theorem safe_iff (sha256 : String → String) (ls : List Ev) (s : St) :
    ((lts sha256).guard fun _ _ s' => Safe s').Run init ls s ↔
      ((lts sha256).guard fun s ev _ => Unused s ev).Run init ls s :=
  LTS.guard_run_iff (I := Inv) (fun _ _ _ h hs hu => inv_step h hs hu)
    (fun _ _ _ h hs => ⟨unused_of_safe h hs, fun hu => safe_of_inv (inv_step h hs hu)⟩) inv_init

/-! ### An approval that is authorized twice -/

theorem idEx_ok : pluginIdOk "module.sales" = true := by decide

def manifestEx : PluginManifest := ⟨"module.sales", .supported, idEx_ok⟩

def evidenceEx : EvidenceBinding where
  applicationId := "customer.alpha"
  pluginId := "module.sales"
  migrationRevision := 7
  contentDigest := "sha256:" ++ String.ofList (List.replicate 64 'a')

def backupEx : BackupBinding := { evidenceEx with backupId := "backup.sales" }

def inputEx : PlanInput where
  manifest := some manifestEx
  applicationId := "customer.alpha"
  actorId := "actor.admin"
  sessionId := "session:admin-1234"
  approvalId := "approval:single-use"
  migrationId := "sales.purge.v1"
  archive := some evidenceEx
  backup := some backupEx
  restore := some backupEx

def scansEx : Scans := ⟨⟨"refs-1", []⟩, ⟨"deps-1", []⟩, ⟨"retention-1", true⟩, 7⟩

def migrationEx : Option Migration := some ⟨"sales.purge.v1", 7, 8⟩

def digestEx : String → String := fun _ => String.ofList (List.replicate 64 'b')

/-- Both calls test the approval before either is authorized. -/
def traceReplayed : List Ev :=
  [.plan inputEx, .plan inputEx, .scanned 0 scansEx migrationEx, .scanned 1 scansEx migrationEx,
    .authorized 0 true]

theorem replayed : ∃ s s', (lts digestEx).Reachable s ∧
    (lts digestEx).step s (.authorized 1 true) s' ∧
    s'.plans.map (fun issued => (issued.plan.ready, issued.plan.approvalId)) =
      [(true, "approval:single-use"), (true, "approval:single-use")] ∧ ¬ Safe s' := by
  have hrun : LTS.exec (step digestEx) init traceReplayed = some _ := rfl
  have hr : (lts digestEx).Reachable _ := LTS.Reachable.run (.init rfl) (LTS.run_of_exec hrun)
  refine ⟨_, _, hr, rfl, rfl, fun hsafe => ?_⟩
  have h01 := hsafe.singleUse 0 1 _ _ rfl rfl rfl rfl rfl
  omega

end KNex.Runtime.PurgeAuthority
