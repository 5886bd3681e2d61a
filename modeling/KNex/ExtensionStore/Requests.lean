import KNex.ExtensionStore.Operations
import KNex.Core.LTS

/-!
# Requests to the store

The store as its workers use it: any sequence of requests, each one transaction, in the order in
which the transactions commit. The clock never goes back from one request to the next; within a
request its readings are any values in between. A request that throws leaves no trace.
-/
namespace KNex.Store

open KNex.Core KNex.Contracts

inductive Request where
  | claim (request : ChangeRequest) (requestDigest workerId : String)
  | resume (id workerId : String)
  | savePlan (id token : String) (plan : PluginManagerPlan)
  | saveStaticPreparation (id token : String) (plan : PluginManagerPlan)
  | transition (id token : String) (expectedPhase phase : OperationPhase)
      (authority : Option Authority)
  | stage (id token : String) (stage : StagedGenerationActivation)
  | refresh (id token : String) (stage : StagedGenerationActivation)
  | activate (id token : String)
  | enable (id token : String)
  | rollback (id token : String) (stage : StagedGenerationActivation)
  | disable (id token : String)
  | uninstall (id token : String)
  | completeStatic (id token : String) (receipt : StaticDeploymentReceipt)
  | quarantine (input : SecurityQuarantineInput) (digest : String)
  | quarantineRunner (input : RunnerQuarantineInput) (digest : String)
  | reconcile (s : Scope)
  deriving DecidableEq

inductive Reply where
  | claim (status : ClaimStatus) (row : OperationRow)
  | operation (row : OperationRow)
  | transition (row : OperationRow) (event : OutboxRow)
  | receipt (r : ManagerReceipt)
  | quarantine (r : QuarantineReceipt)
  | reclaimed (n : Nat)
  deriving DecidableEq

def perform (host : Host) (a : Ambient) : Request → Tx Reply
  | .claim request digest worker => do
    let r ← claimOperation host a request digest worker
    pure (.claim r.1 r.2)
  | .resume id worker => do
    let row ← resumeOperation host a id worker
    pure (.operation row)
  | .savePlan id token plan => do
    let row ← savePlan host a id token plan
    pure (.operation row)
  | .saveStaticPreparation id token plan => do
    let row ← saveStaticPreparation a id token plan
    pure (.operation row)
  | .transition id token expected phase authority => do
    let r ← transition a id token expected phase authority
    pure (.transition r.1 r.2)
  | .stage id token stage => do
    let r ← stageGeneration host a id token stage
    pure (.transition r.1 r.2)
  | .refresh id token stage => do
    let row ← refreshGenerationReadiness host a id token stage
    pure (.operation row)
  | .activate id token => do
    let r ← activateGeneration host a id token
    pure (.receipt r)
  | .enable id token => do
    let r ← enableGeneration host a id token
    pure (.receipt r)
  | .rollback id token stage => do
    let r ← rollbackGeneration host a id token stage
    pure (.receipt r)
  | .disable id token => do
    let r ← disableGeneration host a id token
    pure (.receipt r)
  | .uninstall id token => do
    let r ← uninstallGeneration host a id token
    pure (.receipt r)
  | .completeStatic id token receipt => do
    let r ← completeStaticRelease host a id token receipt
    pure (.receipt (.static r))
  | .quarantine input digest => do
    let r ← quarantineActiveGeneration host a input digest
    pure (.quarantine r)
  | .quarantineRunner input digest => do
    let r ← quarantineRunnerGeneration host a input digest
    pure (.quarantine r)
  | .reconcile s => do
    let n ← reconcileExpiredOperations host a s
    pure (.reclaimed n)

/-- The operation and the lease token that a request comes with. -/
def Request.lease : Request → Option (String × String)
  | .savePlan id token _ | .saveStaticPreparation id token _ | .transition id token _ _ _
  | .stage id token _ | .refresh id token _ | .activate id token | .enable id token
  | .rollback id token _ | .disable id token | .uninstall id token
  | .completeStatic id token _ => some (id, token)
  | _ => none

/-! ## Runs -/

structure World where
  db : Db
  now : Nat

structure Call where
  ambient : Ambient
  request : Request
  reply : Reply

def store (host : Host) : LTS World Call where
  init w := w = ⟨Db.empty, 0⟩
  step w c w' :=
    (∀ k, w.now ≤ c.ambient.clock k ∧ c.ambient.clock k ≤ w'.now) ∧
      perform host c.ambient c.request w.db = .ok (c.reply, w'.db)

/-- The world after requests that each read one time from the clock, when none of them throws. -/
def replay (host : Host) : World → List (Nat × Ambient × Request) → Option World
  | w, [] => some w
  | w, (t, a, r) :: rest =>
    if w.now ≤ t then
      match perform host { a with clock := fun _ => t } r w.db with
      | .ok (_, db') => replay host ⟨db', t⟩ rest
      | .error _ => none
    else none

theorem run_replay {host : Host} {requests : List (Nat × Ambient × Request)} {w w' : World}
    (h : replay host w requests = some w') : ∃ calls, (store host).Run w calls w' := by
  induction requests generalizing w with
  | nil =>
    obtain rfl := Option.some.inj h
    exact ⟨[], .nil _⟩
  | cons request rest ih =>
    obtain ⟨t, a, r⟩ := request
    rw [replay] at h
    split at h
    · rename_i hle
      split at h
      · rename_i reply db' hok
        obtain ⟨calls, hr⟩ := ih h
        exact ⟨⟨{ a with clock := fun _ => t }, r, reply⟩ :: calls,
          .cons ⟨fun _ => ⟨hle, le_refl t⟩, hok⟩ hr⟩
      · cases h
    · cases h

theorem reachable_replay {host : Host} {requests : List (Nat × Ambient × Request)} {w : World}
    (h : replay host ⟨Db.empty, 0⟩ requests = some w) : (store host).Reachable w := by
  obtain ⟨calls, hr⟩ := run_replay h
  exact ⟨_, calls, rfl, hr⟩

/-! ## A store to run -/

/-- A store whose versions are single digits, with one slot of a minute's lease per scope. -/
def sampleHost : Host where
  leaseMs := 60000
  maxConcurrentOperations := 1
  reconciliationBatchSize := 8
  hostInventoryDigest := "sha256:" ++ String.ofList (List.replicate 64 'f')
  hasProjector := true
  exactSemverOk v := ["1.0.0", "2.0.0", "3.0.0"].contains v
  compareExactSemverPrecedence a b := compare a b
  authorityDigest a := a.artifactDigest

/-- The outside of a transaction when every other component accepts it; the tokens are those of
one worker. -/
def sampleAmbient (token : String) : Ambient where
  clock _ := 0
  uuid _ := token
  projects := true
  deploymentCommitted := true
  authorizationRebinds := true
  themeReferenced := false
  lockHeld _ := false
  executionRequest := none

def sampleIdentity (c : DeliveryClass) (id : String) : Identity := ⟨"app-1", "production", c, id⟩

/-- The digest of a request, in the format that operation identifiers are cut from. -/
def sampleDigest (c : Char) : String := "sha256:" ++ String.ofList (List.replicate 64 c)

end KNex.Store
