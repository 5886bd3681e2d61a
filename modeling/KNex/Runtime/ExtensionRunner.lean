import KNex.Contracts.Extension
import KNex.Core.Calls
import KNex.Core.JsMap
import KNex.Core.LTS
import KNex.Runtime.RevisionConsumer
import Mathlib.Logic.Relation

/-!
# `DockerHotApplicationSandboxSupervisor`: fencing of invocations

`packages/extension-runner/src/index.ts`. `invoke` awaits the startup, the durable admission, the
artifact, the admission again, the container, the containment of a quarantine and the stop
observation; invalidations, quarantines and drains arrive at any of these awaits. Everything
between two awaits is one step, and any number of calls interleave.

The exchange with a container is reduced to what settles it: the frames that matter, and the faults
(`Fault`), which may come at any time after the container was launched. What the host's own
functions answer is part of the label. `started` (on a call) and `delivered` are history.

`fencing`: a call returns a value only at or above every invalidation delivered so far and out of
quarantine; the active count of a generation is the number of its running calls, within the
limit, and can always go down to zero; a quarantined generation starts no call again.
-/
namespace KNex.Runtime.ExtensionRunner

open KNex.Core KNex.Contracts
open KNex.Runtime.RevisionConsumer (AuthorizationRevisionInvalidation maxSafeInteger)

/-! ## Data -/

inductive Code where
  | runnerUnavailable | generationDraining | generationQuarantined | authorizationRevoked
  | concurrencyExhausted | invocationInvalid | invocationTimeout | outputBudgetExceeded
  | protocolViolation | policyUnavailable | policyViolation | containerFailed | applicationFailed
  deriving DecidableEq, Repr

/-- mirrors packages/extension-runner/src/index.ts:85-92 -/
structure RunnerInvocationError where
  code : Code
  message : String
  cleanupFailed : Bool := false
  deriving DecidableEq, Repr

/-- What `invoke` rejects with: its own errors, the `TypeError` of a bad identity, or what a
function of the host has thrown. -/
inductive Failure where
  | runner (error : RunnerInvocationError)
  | type (message : String)
  | host
  deriving DecidableEq, Repr

/-- mirrors packages/extension-runner/src/index.ts:21-26 -/
structure RunnerGenerationIdentity where
  applicationId : String
  environment : String
  appId : String
  generationId : String
  deriving DecidableEq, Repr

/-- mirrors packages/extension-runner/src/index.ts:28-39 -/
structure RunnerInvocationLimits where
  cpuMilliCores : Int
  memoryMiB : Int
  processes : Int
  openFiles : Int
  tempBytes : Int
  wallTimeMs : Int
  inputBytes : Int
  outputBytes : Int
  logBytes : Int
  maxConcurrency : Int
  deriving DecidableEq, Repr

/-- mirrors packages/extension-bundler/src/store.ts:8-13 -/
structure RunnerArtifactOwner where
  applicationId : String
  environment : String
  extensionId : String
  deliveryClass : DeliveryClass
  deriving DecidableEq, Repr

/-- `inputBytes` is the length of the input as JSON, `none` when it is not JSON.
mirrors packages/extension-runner/src/index.ts:41-54 -/
structure RunnerInvocationRequest where
  owner : RunnerArtifactOwner
  generationId : String
  artifactDigest : String
  serverEntrypoint : String
  invocationId : String
  drainLeaseId : String
  token : String
  authorizationRevision : Int
  lifecycleRevision : Int
  inputBytes : Option Int
  limits : RunnerInvocationLimits
  deriving DecidableEq, Repr

/-- What the gateway reads from a token. -/
structure Claims where
  drainLeaseId : String
  authorizationRevision : Int
  lifecycleRevision : Int
  deriving DecidableEq, Repr

/-- mirrors packages/extension-runner/src/index.ts:56-61 -/
structure RunnerHealth where
  accepting : Bool
  activeInvocations : Int
  quarantined : Bool
  failures : Nat
  deriving DecidableEq, Repr

/-! ## Patterns and checks -/

/-- `/^[a-z][a-z0-9-]{low,high}$/u`. -/
def isLabel (low high : Nat) (s : String) : Bool :=
  match s.toList with
  | [] => false
  | c :: cs => c.isLower && cs.all (fun c => lowerAlnum c || c == '-') &&
      decide (low ≤ cs.length ∧ cs.length ≤ high)

/-- mirrors packages/extension-runner/src/index.ts:136-141 -/
def applicationPattern : String → Bool := isLabel 2 127
def environmentPattern : String → Bool := isLabel 1 63
def appPattern (s : String) : Bool := isDotted (fun p => p = "app".toList) s.toList
def recordPattern : String → Bool := isLabel 2 127

def isHex (n : Nat) (cs : List Char) : Bool :=
  decide (cs.length = n) && cs.all fun c => c.isDigit || ('a' ≤ c && c ≤ 'f')

def drainLeasePattern (s : String) : Bool :=
  match splitChar '-' s.toList with
  | [head, a, b, c, d, e] => decide (head = "lease".toList) && isHex 8 a && isHex 4 b &&
      isHex 4 c && isHex 4 d && isHex 12 e
  | _ => false

/-- `server/`, characters of `[a-zA-Z0-9._]`, dashes and slashes, `.mjs`, and no `..`.
mirrors packages/extension-runner/src/index.ts:170 -/
def serverEntrypointOk (s : String) : Bool :=
  let cs := s.toList
  decide ("server/".toList <+: cs) && decide (".mjs".toList <:+ cs) && decide (12 ≤ cs.length) &&
    cs.all (fun c => c.isAlphanum || c == '.' || c == '_' || c == '/' || c == '-') &&
    !decide ("..".toList <:+: cs)

/-- mirrors packages/extension-runner/src/index.ts:143-145 -/
def generationKey (i : RunnerGenerationIdentity) : String :=
  i.applicationId ++ "/" ++ (i.environment ++ "/" ++ (i.appId ++ "/" ++ i.generationId))

/-- mirrors packages/extension-runner/src/index.ts:147-149 -/
def environmentKey (applicationId environment : String) : String :=
  applicationId ++ "/" ++ environment

/-- mirrors packages/extension-runner/src/index.ts:151-153 -/
def identity (r : RunnerInvocationRequest) : RunnerGenerationIdentity :=
  ⟨r.owner.applicationId, r.owner.environment, r.owner.extensionId, r.generationId⟩

/-- mirrors packages/extension-runner/src/index.ts:155-159 -/
def validateIdentity (i : RunnerGenerationIdentity) : Except Failure Unit :=
  if applicationPattern i.applicationId ∧ environmentPattern i.environment ∧ appPattern i.appId ∧
      recordPattern i.generationId then .ok ()
  else .error (.type "Runner generation identity is invalid.")

def between (low high value : Int) : Bool := decide (low ≤ value ∧ value ≤ high)

/-- mirrors packages/extension-runner/src/index.ts:174-183 and isolation-profile.ts:8-14 -/
def limitsOk (l : RunnerInvocationLimits) : Bool :=
  between 1 2000 l.cpuMilliCores && between 16 512 l.memoryMiB && between 1 256 l.processes &&
    between 16 4096 l.openFiles && between 4096 268435456 l.tempBytes &&
    between 1 30000 l.wallTimeMs && between 1 1048576 l.inputBytes &&
    between 1 4194304 l.outputBytes && between 1 1048576 l.logBytes && between 1 64 l.maxConcurrency

def invocationInvalid (message : String) : Failure := .runner ⟨.invocationInvalid, message, false⟩

/-- mirrors packages/extension-runner/src/index.ts:165-185 -/
def validateRequest (r : RunnerInvocationRequest) : Except Failure Unit :=
  match validateIdentity (identity r) with
  | .error e => .error e
  | .ok _ =>
    let invalid := invocationInvalid "Runner invocation identity or limits are invalid."
    if recordPattern r.invocationId ∧ r.owner.deliveryClass = .hotApplication ∧
        digestOk r.artifactDigest ∧ serverEntrypointOk r.serverEntrypoint ∧
        drainLeasePattern r.drainLeaseId ∧ 32 ≤ jsLength r.token ∧ jsLength r.token ≤ 8192 ∧
        between 0 maxSafeInteger r.authorizationRevision ∧
        between 0 maxSafeInteger r.lifecycleRevision then
      match r.inputBytes with
      | none => .error (invocationInvalid "Runner invocation payload must be JSON.")
      | some n => if n ≤ r.limits.inputBytes ∧ limitsOk r.limits then .ok () else .error invalid
    else .error invalid

/-- mirrors packages/extension-runner/src/index.ts:212-214 -/
def isTerminalQuarantineReason : Code → Bool
  | .invocationTimeout | .outputBudgetExceeded | .protocolViolation | .containerFailed
  | .policyViolation => true
  | _ => false

/-- `k-nex-${appId}-${generationId}-${suffix}`, cut at 120.
mirrors packages/extension-runner/src/index.ts:312 -/
def containerNameOf (i : RunnerGenerationIdentity) (suffix : String) : String :=
  let dashed := i.appId.toList.map fun c => if c = '.' then '-' else c
  String.ofList (("k-nex-".toList ++ dashed ++ '-' :: i.generationId.toList ++ '-' :: suffix.toList)
    |>.take 120)

/-! ## Faults of an exchange -/

/-- What makes an exchange fail on its own, apart from the frames. -/
inductive Fault where
  | aborted | timedOut | stdin | stderrBudget | protocolBudget | logBudget | resultBudget
  | malformed | invalidFrame | invalidAck | beforeAck | beforeCapabilities | queue | unavailable
  | inspection (message : String) | uninspected | observation | closedEarly (message : String)
  | exitedCleanly | policy | exited
  deriving DecidableEq, Repr

/-- mirrors packages/extension-runner/src/index.ts:470-485 and 529-669 -/
def Fault.error (acknowledged : Bool) : Fault → RunnerInvocationError
  | .aborted =>
    if acknowledged then ⟨.invocationTimeout, "Runner invocation was aborted.", false⟩
    else ⟨.policyUnavailable,
      "Runner invocation aborted before the runner acknowledged source handoff.", false⟩
  | .timedOut =>
    if acknowledged then
      ⟨.invocationTimeout, "Runner invocation exceeded its wall-time budget.", false⟩
    else ⟨.policyUnavailable,
      "Runner invocation timed out before the runner acknowledged source handoff.", false⟩
  | .stdin =>
    if acknowledged then
      ⟨.containerFailed, "Runner stdin could not accept a protocol frame.", false⟩
    else ⟨.policyUnavailable, "Runner stdin closed before acknowledging the invocation.", false⟩
  | .stderrBudget => ⟨.outputBudgetExceeded, "Runner stderr exceeded its log budget.", false⟩
  | .protocolBudget => ⟨.outputBudgetExceeded, "Runner protocol output exceeded its budget.", false⟩
  | .logBudget => ⟨.outputBudgetExceeded, "Runner logs exceeded their budget.", false⟩
  | .resultBudget => ⟨.outputBudgetExceeded, "Runner result exceeded its output budget.", false⟩
  | .malformed => ⟨.protocolViolation, "Runner emitted malformed JSON.", false⟩
  | .invalidFrame => ⟨.protocolViolation, "Runner emitted an invalid protocol frame.", false⟩
  | .invalidAck =>
    ⟨.protocolViolation, "Runner emitted an invalid invocation acknowledgement.", false⟩
  | .beforeAck => ⟨.protocolViolation,
      "Runner emitted a protocol frame before acknowledging the invocation.", false⟩
  | .beforeCapabilities => ⟨.protocolViolation,
      "Runner emitted a terminal frame before accepted capability calls settled.", false⟩
  | .queue => ⟨.containerFailed, "Runner capability queue failed.", false⟩
  | .unavailable => ⟨.runnerUnavailable, "Docker runner is unavailable.", false⟩
  | .inspection message => ⟨.policyUnavailable, message, false⟩
  | .uninspected => ⟨.containerFailed, "Runner container observation failed.", false⟩
  | .observation => ⟨.policyUnavailable,
      "Runner start observation did not complete before source handoff.", false⟩
  | .closedEarly message => ⟨.policyUnavailable, message, false⟩
  | .exitedCleanly => ⟨.protocolViolation, "Runner exited without a result.", false⟩
  | .policy => ⟨.policyViolation, "Runner was terminated by the enforced isolation policy.", false⟩
  | .exited => ⟨.containerFailed, "Runner container exited unsuccessfully.", false⟩

def revoked (message : String) : RunnerInvocationError := ⟨.authorizationRevoked, message, false⟩

def quarantinedError (message : String) : RunnerInvocationError :=
  ⟨.generationQuarantined, message, false⟩

def draining : RunnerInvocationError :=
  ⟨.generationDraining, "Runner generation is draining.", false⟩

def containerFailed (message : String) : RunnerInvocationError := ⟨.containerFailed, message, false⟩

/-! ## State -/

/-- Where a call of `invoke` is suspended; `name` is its container. -/
inductive Phase (α : Type) where
  | starting
  | retrying
  | admitting
  | loading
  | readmitting
  | exchanging
  | containing (name : String) (error : RunnerInvocationError)
  | stopping (name : String) (result : Except RunnerInvocationError α)
  | done (result : Except Failure α)

/-- A call whose request was accepted by `validateRequest`. -/
structure Call (α : Type) where
  request : RunnerInvocationRequest
  valid : validateRequest request = .ok ()
  phase : Phase α
  started : Bool

/-- The state of `exchange`; `terminal` is what the promise will settle with. -/
structure Exchange (α : Type) where
  containerName : String
  policyInspected : Bool
  invokeSent : Bool
  invokeAcknowledged : Bool
  terminal : Option (Except RunnerInvocationError α)

/-- An entry of `invocations`: its container and the call that `cancel` fails. -/
structure Registration where
  containerName : String
  call : Nat
  deriving DecidableEq, Repr

/-- mirrors packages/extension-runner/src/index.ts:105-119 -/
structure GenerationState where
  identity : RunnerGenerationIdentity
  accepting : Bool
  active : Int
  failures : Nat
  quarantined : Bool
  containers : JsMap String Unit
  invocations : JsMap String Registration
  terminalQuarantine : Option Code
  deriving DecidableEq

/-- mirrors packages/extension-runner/src/index.ts:400 -/
def fresh (i : RunnerGenerationIdentity) : GenerationState :=
  ⟨i, true, 0, 0, false, .empty, .empty, none⟩

inductive DrainPhase where
  | polling
  | killing (terminated : Nat)
  | done (result : Option (Bool × Nat))
  deriving DecidableEq, Repr

structure Drain where
  identity : RunnerGenerationIdentity
  phase : DrainPhase
  deriving DecidableEq, Repr

/-- `exchanges` is addressed by the number of the call; `startup` is how `start` has settled. -/
structure St (α : Type) where
  generations : JsMap String GenerationState
  authorizationRevisions : JsMap String Int
  lifecycleRevisions : JsMap String Int
  startup : Option Bool
  calls : List (Call α)
  exchanges : JsMap Nat (Exchange α)
  drains : List Drain
  delivered : List AuthorizationRevisionInvalidation

variable {α : Type}

def init : St α := ⟨.empty, .empty, .empty, none, [], .empty, [], []⟩

def Call.identity (c : Call α) : RunnerGenerationIdentity :=
  ExtensionRunner.identity c.request

def Phase.running : Phase α → Bool
  | .loading | .readmitting | .exchanging | .containing _ _ => true
  | _ => false

/-- mirrors packages/extension-runner/src/index.ts:393-404 -/
def St.generation (s : St α) (i : RunnerGenerationIdentity) : GenerationState :=
  (s.generations.get? (generationKey i)).getD (fresh i)

def St.update (s : St α) (i : RunnerGenerationIdentity) (f : GenerationState → GenerationState) :
    St α :=
  { s with generations := s.generations.set (generationKey i) (f (s.generation i)) }

def St.advance (s : St α) (i : Nat) (c : Call α) (phase : Phase α) : St α :=
  { s with calls := s.calls.set i { c with phase := phase } }

/-- The frames of a container that matter. `refused` is one that a check turns into a fault. -/
inductive Line (α : Type) where
  | ack
  | result (value : α)
  | applicationFailed
  | refused (fault : Fault)

inductive Ev (α : Type) where
  | invoke (request : RunnerInvocationRequest) (aborted : Bool)
  | startup (ok : Bool)
  /-- `start` has settled; what `assertInvocationIdentity` returns, `none` when it throws -/
  | begun (i : Nat) (claims : Option Claims)
  | retried (i : Nat) (failed : Bool)
  /-- the answer of `admit`, `none` when it rejects -/
  | admitted (i : Nat) (answer : Option Bool)
  | loaded (i : Nat) (ok : Bool)
  | readmitted (i : Nat) (answer : Option Bool) (suffix : String) (spawned : Bool)
  /-- `inspectSecurity` returns, or throws this -/
  | inspected (i : Nat) (problem : Option Fault)
  | observed (i : Nat) (ok : Bool)
  | line (i : Nat) (line : Line α)
  | fault (i : Nat) (fault : Fault)
  /-- the promise of `runContainer` settles, its container reaped or not -/
  | exchanged (i : Nat) (reaped : Bool)
  | contained (i : Nat) (failed : Bool)
  | stopped (i : Nat) (ok : Bool)
  | invalidate (invalidation : AuthorizationRevisionInvalidation)
  | drain (identity : RunnerGenerationIdentity) (timeoutMs : Int)
  | drainPolled (j : Nat) (expired : Bool)
  | drainKilled (j : Nat) (ok : Bool)

/-! ## Floors and exchanges -/

/-- mirrors packages/extension-runner/src/index.ts:187-193 and 406-408 -/
def St.revisionAtLeast (s : St α) (r : RunnerInvocationRequest) : Bool :=
  (match s.authorizationRevisions.get? r.owner.applicationId with
    | none => true
    | some floor => decide (floor ≤ r.authorizationRevision)) &&
  (match s.lifecycleRevisions.get? (environmentKey r.owner.applicationId r.owner.environment) with
    | none => true
    | some floor => decide (floor ≤ r.lifecycleRevision))

def invocationKey (containerName invocationId : String) : String :=
  joinNul [containerName, invocationId]

/-- The first result counts; the exchange leaves the registry.
mirrors packages/extension-runner/src/index.ts:486-522 -/
def settle (s : St α) (i : Nat) (result : Except RunnerInvocationError α) : St α :=
  match s.calls[i]?, s.exchanges.get? i with
  | some c, some x =>
    if x.terminal.isSome then s
    else
      let key := invocationKey x.containerName c.request.invocationId
      { s.update c.identity (fun g => { g with invocations := g.invocations.delete key }) with
        exchanges := s.exchanges.set i { x with terminal := some result } }
  | _, _ => s

/-- The codes of a cancellation are not terminal, so `fail` only settles. -/
def cancel (s : St α) (entries : List Registration) (error : RunnerInvocationError) : St α :=
  entries.foldl (fun s r => settle s r.call (.error error)) s

/-- mirrors packages/extension-runner/src/index.ts:786-799 -/
def publishTerminalQuarantine (s : St α) (i : RunnerGenerationIdentity) (reason : Code)
    (currentContainer : String) : St α :=
  let s := s.update i fun g => { g with
    quarantined := true
    accepting := false
    terminalQuarantine := some (g.terminalQuarantine.getD reason) }
  let others := ((s.generation i).invocations.entries.map Prod.snd).filter fun r =>
    r.containerName ≠ currentContainer
  cancel s others (quarantinedError
    "Runner generation was quarantined while this invocation was running.")

/-- mirrors packages/extension-runner/src/index.ts:466-469 -/
def fail (s : St α) (i : Nat) (error : RunnerInvocationError) : St α :=
  match s.calls[i]?, s.exchanges.get? i with
  | some c, some x =>
    let s := if x.invokeAcknowledged && isTerminalQuarantineReason error.code then
        publishTerminalQuarantine s c.identity error.code x.containerName
      else s
    settle s i (.error error)
  | _, _ => s

def revokedBeforeHandoff : RunnerInvocationError :=
  revoked "Runner invocation authorization was revoked before source handoff."

/-- mirrors packages/extension-runner/src/index.ts:619-635 -/
def inspect (s : St α) (i : Nat) (c : Call α) (x : Exchange α) (problem : Option Fault) : St α :=
  match problem with
  | some fault =>
    if x.terminal.isSome then s else fail s i (Fault.error x.invokeAcknowledged fault)
  | none =>
    if x.terminal.isSome then s
    else if s.revisionAtLeast c.request = false then fail s i revokedBeforeHandoff
    else { s with exchanges := s.exchanges.set i { x with policyInspected := true } }

/-- mirrors packages/extension-runner/src/index.ts:636-643 -/
def observe (s : St α) (i : Nat) (c : Call α) (x : Exchange α) (ok : Bool) : St α :=
  if ok = false then fail s i (Fault.error x.invokeAcknowledged .observation)
  else if x.terminal.isSome then s
  else if s.revisionAtLeast c.request = false then fail s i revokedBeforeHandoff
  else { s with exchanges := s.exchanges.set i { x with invokeSent := true } }

/-- mirrors packages/extension-runner/src/index.ts:572-618 -/
def receive (s : St α) (i : Nat) (c : Call α) (x : Exchange α) (line : Line α) : St α :=
  match x.terminal with
  | some terminal =>
    match terminal, line with
    -- a second result turns the first one into an error
    | .ok _, .result _ => { s with exchanges := s.exchanges.set i { x with
        terminal := some (.error
          ⟨.protocolViolation, "Runner emitted a duplicate terminal frame.", false⟩) } }
    | _, _ => s
  | none =>
    if (s.generation c.identity).quarantined then fail s i (quarantinedError
      "Runner generation was quarantined while this invocation was running.")
    else match line with
    | .ack =>
      if x.invokeSent = false ∨ x.invokeAcknowledged = true then
        fail s i (Fault.error x.invokeAcknowledged .invalidAck)
      else { s with exchanges := s.exchanges.set i { x with invokeAcknowledged := true } }
    | .result value =>
      if x.invokeAcknowledged = false then fail s i (Fault.error false .beforeAck)
      else settle s i (.ok value)
    | .applicationFailed =>
      if x.invokeAcknowledged = false then fail s i (Fault.error false .beforeAck)
      else fail s i ⟨.applicationFailed, "Hot Application invocation failed.", false⟩
    | .refused fault =>
      if x.invokeAcknowledged = false then fail s i (Fault.error false .beforeAck)
      else fail s i (Fault.error true fault)

/-! ## Calls -/

/-- mirrors packages/extension-runner/src/index.ts:272-275 -/
def invoke (request : RunnerInvocationRequest) (aborted : Bool) : Except Failure (Call α) :=
  match h : validateRequest request with
  | .error e => .error e
  | .ok () =>
    if aborted then
      .error (.runner ⟨.invocationTimeout, "Runner invocation was aborted.", false⟩)
    else .ok ⟨request, h, .starting, false⟩

def rejected (error : RunnerInvocationError) : Phase α := .done (.error (.runner error))

def preadmission : RunnerInvocationError :=
  revoked "Runner invocation authorization predates its invalidation floor."

def revokedError : RunnerInvocationError := revoked "Runner invocation authorization was revoked."

def notAdmitted : RunnerInvocationError :=
  quarantinedError "Runner generation is not authoritatively admitted."

/-- mirrors packages/extension-runner/src/index.ts:277-288 -/
def begun (s : St α) (i : Nat) (c : Call α) (claims : Option Claims) : St α :=
  if (s.generation c.identity).quarantined then s.advance i c .retrying
  else match claims with
  | none => s.advance i c (.done (.error .host))
  | some claims =>
    if claims.drainLeaseId ≠ c.request.drainLeaseId then
      s.advance i c (.done (.error (invocationInvalid
        "Runner invocation drain lease does not match its token.")))
    else if claims.authorizationRevision ≠ c.request.authorizationRevision ∨
        claims.lifecycleRevision ≠ c.request.lifecycleRevision then
      s.advance i c (.done (.error (invocationInvalid
        "Runner invocation authorization revision does not match its token.")))
    else if s.revisionAtLeast c.request = false then s.advance i c (rejected preadmission)
    else s.advance i c .admitting

/-- `state.active += 1`. -/
def start (s : St α) (i : Nat) (c : Call α) : St α :=
  (s.update c.identity fun g => { g with active := g.active + 1 }).advance i { c with started := true }
    .loading

/-- mirrors packages/extension-runner/src/index.ts:289-293 -/
def admitted (s : St α) (i : Nat) (c : Call α) (answer : Option Bool) : St α :=
  match answer with
  | none => s.advance i c (.done (.error .host))
  | some false => s.advance i c (rejected notAdmitted)
  | some true =>
    let g := s.generation c.identity
    if s.revisionAtLeast c.request = false then s.advance i c (rejected revokedError)
    else if g.accepting = false then s.advance i c (rejected draining)
    else if c.request.limits.maxConcurrency ≤ g.active then
      s.advance i c (rejected
        ⟨.concurrencyExhausted, "Runner generation concurrency is exhausted.", false⟩)
    else start s i c

/-- The `finally` block of a call that has no container: nothing is awaited.
mirrors packages/extension-runner/src/index.ts:328-330 and 345 -/
def release (s : St α) (i : Nat) (c : Call α) (error : RunnerInvocationError) : St α :=
  (s.update c.identity fun g => { g with active := g.active - 1 }).advance i c (rejected error)

/-- The `finally` block up to its `await`.
mirrors packages/extension-runner/src/index.ts:328-332 -/
def releaseContainer (s : St α) (i : Nat) (c : Call α) (name : String)
    (result : Except RunnerInvocationError α) : St α :=
  (s.update c.identity fun g => { g with
    active := g.active - 1
    containers := g.containers.delete name }).advance i c (.stopping name result)

def countFailure (s : St α) (c : Call α) (error : RunnerInvocationError) : St α :=
  if error.code = .authorizationRevoked then s
  else s.update c.identity fun g => { g with failures := g.failures + 1 }

/-- mirrors packages/extension-runner/src/index.ts:320 -/
def quarantineReason (error : RunnerInvocationError) : Option Code :=
  if isTerminalQuarantineReason error.code then some error.code
  else if error.cleanupFailed then some .containerFailed
  else none

/-- The `catch` block of a call that has no container.
mirrors packages/extension-runner/src/index.ts:317-321 and 327 -/
def caught (s : St α) (i : Nat) (c : Call α) (error : RunnerInvocationError) : St α :=
  release (countFailure s c error) i c error

/-- mirrors packages/extension-runner/src/index.ts:317-327 -/
def caughtContainer (s : St α) (i : Nat) (c : Call α) (name : String)
    (error : RunnerInvocationError) : St α :=
  let s := countFailure s c error
  match quarantineReason error with
  | some reason =>
    (publishTerminalQuarantine s c.identity reason name).advance i c (.containing name error)
  | none => releaseContainer s i c name (.error error)

/-- The checks that stand between two awaits of the `try` block. -/
def blocked (s : St α) (c : Call α) : Option RunnerInvocationError :=
  let g := s.generation c.identity
  if s.revisionAtLeast c.request = false then some revokedError
  else if g.quarantined then some (quarantinedError "Runner generation is quarantined.")
  else if g.accepting = false then some draining
  else none

/-- mirrors packages/extension-runner/src/index.ts:300-305 -/
def loaded (s : St α) (i : Nat) (c : Call α) (ok : Bool) : St α :=
  if ok = false then caught s i c
    ⟨.invocationInvalid, "Runner artifact identity is not present in the verified inventory.", false⟩
  else match blocked s c with
  | some error => caught s i c error
  | none => s.advance i c .readmitting

/-- `state.containers.add(containerName)`. -/
def addContainer (s : St α) (c : Call α) (name : String) : St α :=
  s.update c.identity fun g => { g with containers := g.containers.set name () }

/-- `state.invocations.set(invocationKey, …)`. -/
def register (s : St α) (i : Nat) (c : Call α) (name : String) : St α :=
  s.update c.identity fun g => { g with
    invocations := g.invocations.set (invocationKey name c.request.invocationId) ⟨name, i⟩ }

/-- `runContainer` up to its first event: the exchange is registered, and fails at once below the
floor.
mirrors packages/extension-runner/src/index.ts:410-433 and 524-538 -/
def launch (s : St α) (i : Nat) (c : Call α) (name : String) : St α :=
  let s := register s i c name
  let s := { s with exchanges := s.exchanges.set i ⟨name, false, false, false, none⟩ }
  let s := s.advance i c .exchanging
  if s.revisionAtLeast c.request = false then fail s i revokedBeforeHandoff else s

/-- mirrors packages/extension-runner/src/index.ts:306-314; the floor is read twice. -/
def readmitted (s : St α) (i : Nat) (c : Call α) (answer : Option Bool) (suffix : String)
    (spawned : Bool) : St α :=
  match answer with
  | none => caught s i c (containerFailed "Runner container failed.")
  | some false => caught s i c notAdmitted
  | some true =>
    match blocked s c with
    | some error => caught s i c error
    | none =>
      let name := containerNameOf c.identity suffix
      let s := addContainer s c name
      if spawned then launch s i c name
      else caughtContainer s i c name (containerFailed "Runner container failed.")

/-- mirrors packages/extension-runner/src/index.ts:509-522 and 314-318 -/
def exchanged (s : St α) (i : Nat) (c : Call α) (name : String)
    (terminal : Except RunnerInvocationError α) (reaped : Bool) : St α :=
  match terminal with
  | .error error =>
    caughtContainer s i c name (if reaped then error else { error with cleanupFailed := true })
  | .ok value =>
    if reaped = false then
      caughtContainer s i c name
        (containerFailed "Runner container could not be forcibly terminated.")
    else if s.revisionAtLeast c.request = false then caughtContainer s i c name revokedError
    else if (s.generation c.identity).quarantined then
      caughtContainer s i c name (quarantinedError
        "Runner generation was quarantined while this invocation was running.")
    else releaseContainer s i c name (.ok value)

/-- mirrors packages/extension-runner/src/index.ts:332-346 -/
def stopped (s : St α) (i : Nat) (c : Call α) (result : Except RunnerInvocationError α) (ok : Bool) :
    St α :=
  match result with
  | .error error => s.advance i c (rejected (if ok then error else { error with
      cleanupFailed := true }))
  | .ok value =>
    if ok = false then
      s.advance i c (rejected (containerFailed "Runner container stop observation failed."))
    else if s.revisionAtLeast c.request = false then s.advance i c (rejected revokedError)
    else if (s.generation c.identity).quarantined then
      s.advance i c (rejected (quarantinedError
        "Runner generation was quarantined while this invocation was stopping."))
    else s.advance i c (.done (.ok value))

/-! ## Invalidations and drains -/

/-- mirrors packages/extension-runner/src/index.ts:357-360 -/
def invalidationOk (v : AuthorizationRevisionInvalidation) : Bool :=
  applicationPattern v.applicationId && environmentPattern v.environment &&
    between 0 maxSafeInteger v.authorizationRevision && between 0 maxSafeInteger v.lifecycleRevision

/-- The invocations of the generations in the scope of the invalidation. -/
def inScope (s : St α) (scope : RunnerGenerationIdentity → Bool) : List Registration :=
  s.generations.entries.flatMap fun e =>
    if scope e.2.identity then e.2.invocations.entries.map Prod.snd else []

/-- mirrors packages/extension-runner/src/index.ts:356-372 -/
def invalidateAuthorization (s : St α) (v : AuthorizationRevisionInvalidation) : St α :=
  if invalidationOk v = false then s
  else
    let s := { s with delivered := v :: s.delivered }
    match v.scope with
    | .application =>
      if v.authorizationRevision ≤ (s.authorizationRevisions.get? v.applicationId).getD 0 then s
      else
        let s := { s with authorizationRevisions :=
          s.authorizationRevisions.set v.applicationId v.authorizationRevision }
        cancel s (inScope s fun i => i.applicationId = v.applicationId) revokedError
    | .environment =>
      let key := environmentKey v.applicationId v.environment
      if v.lifecycleRevision ≤ (s.lifecycleRevisions.get? key).getD 0 then s
      else
        let s := { s with lifecycleRevisions := s.lifecycleRevisions.set key v.lifecycleRevision }
        cancel s (inScope s fun i => i.applicationId = v.applicationId ∧
          i.environment = v.environment) revokedError

/-- mirrors packages/extension-runner/src/index.ts:349-353 -/
def health (s : St α) (i : RunnerGenerationIdentity) : Except Failure RunnerHealth :=
  match validateIdentity i with
  | .error e => .error e
  | .ok _ =>
    let g := s.generation i
    .ok ⟨g.accepting, g.active, g.quarantined, g.failures⟩

/-- One turn of the loop of `drain`, and what follows it.
mirrors packages/extension-runner/src/index.ts:386-390 -/
def drainTurn (g : GenerationState) (expired : Bool) : DrainPhase :=
  if g.active = 0 then .done (some (true, 0))
  else if expired then .killing g.containers.size
  else .polling

/-- mirrors packages/extension-runner/src/index.ts:380-391 -/
def drain (s : St α) (i : RunnerGenerationIdentity) (timeoutMs : Int) : St α :=
  match validateIdentity i with
  | .error _ => s
  | .ok _ =>
    if between 1 30000 timeoutMs = false then s
    else
      let s := s.update i fun g => { g with accepting := false }
      { s with drains := s.drains ++ [⟨i, drainTurn (s.generation i) false⟩] }

def St.setDrain (s : St α) (j : Nat) (d : Drain) (phase : DrainPhase) : St α :=
  { s with drains := s.drains.set j { d with phase := phase } }

def step (s : St α) : Ev α → Option (St α)
  | .invoke request aborted =>
    match invoke request aborted with
    | .error _ => some s
    | .ok c => some { s with calls := s.calls ++ [c] }
  | .startup ok =>
    match s.startup with
    | some _ => none
    | none => some { s with startup := some ok }
  | .begun i claims =>
    match s.calls[i]?, s.startup with
    | some c, some ok =>
      match c.phase with
      | .starting => some (if ok then begun s i c claims else s.advance i c (.done (.error .host)))
      | _ => none
    | _, _ => none
  | .retried i failed => s.calls[i]?.bind fun c =>
    match c.phase with
    | .retrying => some (s.advance i c (rejected
        ⟨.generationQuarantined, "Runner generation is quarantined.", failed⟩))
    | _ => none
  | .admitted i answer => s.calls[i]?.bind fun c =>
    match c.phase with
    | .admitting => some (admitted s i c answer)
    | _ => none
  | .loaded i ok => s.calls[i]?.bind fun c =>
    match c.phase with
    | .loading => some (loaded s i c ok)
    | _ => none
  | .readmitted i answer suffix spawned => s.calls[i]?.bind fun c =>
    match c.phase with
    | .readmitting => some (readmitted s i c answer suffix spawned)
    | _ => none
  | .inspected i problem =>
    match s.calls[i]?, s.exchanges.get? i with
    | some c, some x => if x.policyInspected then none else some (inspect s i c x problem)
    | _, _ => none
  | .observed i ok =>
    match s.calls[i]?, s.exchanges.get? i with
    | some c, some x => if x.policyInspected then some (observe s i c x ok) else none
    | _, _ => none
  | .line i line =>
    match s.calls[i]?, s.exchanges.get? i with
    | some c, some x => some (receive s i c x line)
    | _, _ => none
  | .fault i fault =>
    match s.exchanges.get? i with
    | some x => some (fail s i (Fault.error x.invokeAcknowledged fault))
    | none => none
  | .exchanged i reaped => s.calls[i]?.bind fun c =>
    match c.phase, s.exchanges.get? i with
    | .exchanging, some x => x.terminal.map fun t => exchanged s i c x.containerName t reaped
    | _, _ => none
  | .contained i failed => s.calls[i]?.bind fun c =>
    match c.phase with
    | .containing name error => some (releaseContainer s i c name (.error { error with
        cleanupFailed := error.cleanupFailed || failed }))
    | _ => none
  | .stopped i ok => s.calls[i]?.bind fun c =>
    match c.phase with
    | .stopping _ result => some (stopped s i c result ok)
    | _ => none
  | .invalidate v => some (invalidateAuthorization s v)
  | .drain i timeoutMs => some (drain s i timeoutMs)
  | .drainPolled j expired => s.drains[j]?.bind fun d =>
    match d.phase with
    | .polling => some (s.setDrain j d (drainTurn (s.generation d.identity) expired))
    | _ => none
  | .drainKilled j ok => s.drains[j]?.bind fun d =>
    match d.phase with
    | .killing n => some (s.setDrain j d (.done (if ok then some (false, n) else none)))
    | _ => none

def lts (α : Type) : LTS (St α) (Ev α) := .ofFn (· = init) step

/-! ## What the fences are for -/

/-- The request is at or above what the invalidation asks of its scope. -/
def Covers (r : RunnerInvocationRequest) (v : AuthorizationRevisionInvalidation) : Prop :=
  match v.scope with
  | .application => v.applicationId = r.owner.applicationId →
    v.authorizationRevision ≤ r.authorizationRevision
  | .environment => v.applicationId = r.owner.applicationId →
    v.environment = r.owner.environment → v.lifecycleRevision ≤ r.lifecycleRevision

def Returned (s : St α) (i : Nat) (c : Call α) : Prop :=
  ∃ value, s.calls[i]? = some c ∧ c.phase = .done (.ok value)

/-- A value that a step returns is above the floors, out of quarantine. -/
def ReturnsFenced (s s' : St α) : Prop :=
  ∀ i c, Returned s' i c → ¬ Returned s i c →
    (∀ v ∈ s'.delivered, Covers c.request v) ∧
      ∃ h, health s' c.identity = .ok h ∧ h.quarantined = false

/-- The running calls of a generation. -/
def running (s : St α) (g : RunnerGenerationIdentity) : Nat :=
  s.calls.countP fun c => c.phase.running && decide (c.identity = g)

/-- The limit of a generation bounds what its started calls have asked for. -/
def Limit (s : St α) (g : RunnerGenerationIdentity) (limit : Int) : Prop :=
  0 ≤ limit ∧ ∀ c ∈ s.calls, c.started = true → c.identity = g →
    c.request.limits.maxConcurrency ≤ limit

def Balanced (s : St α) : Prop :=
  ∀ g h, health s g = .ok h → h.activeInvocations = running s g ∧
    ∀ limit, Limit s g limit → h.activeInvocations ≤ limit

/-- A quarantine is for good, and nothing of the generation starts under it: no call, no
container. -/
def StaysQuarantined (s s' : St α) : Prop :=
  ∀ g h, health s g = .ok h → h.quarantined = true →
    (∃ h', health s' g = .ok h' ∧ h'.quarantined = true) ∧
      ∀ (i : Nat) (c' : Call α), s'.calls[i]? = some c' → c'.identity = g →
        (c'.started = true → ∃ c, s.calls[i]? = some c ∧ c.started = true) ∧
        ((s'.exchanges.get? i).isSome → (s.exchanges.get? i).isSome)

/-- Without further calls, each generation can get rid of its running ones. -/
def ReturnsToZero (s : St α) : Prop :=
  ∃ ls s', (lts α).Run s ls s' ∧ s'.calls.length = s.calls.length ∧
    ∀ g h, health s' g = .ok h → h.activeInvocations = 0

/-! ## Keys -/

theorem isLabel_noSlash {low high : Nat} {s : String} (h : isLabel low high s = true) :
    '/' ∉ s.toList := by
  unfold isLabel at h
  split at h
  · cases h
  · rename_i c cs hs
    simp only [Bool.and_eq_true] at h
    rw [hs]
    exact kebabRun_notin separator_slash h.1.1 h.1.2

theorem slash_cancel {a b c d : String} (ha : '/' ∉ a.toList) (hb : '/' ∉ b.toList)
    (h : a ++ "/" ++ c = b ++ "/" ++ d) : a = b ∧ c = d := by
  have hl := congrArg String.toList h
  simp only [String.toList_append, List.append_assoc] at hl
  obtain ⟨h1, h2⟩ := append_sep_cancel ha hb hl
  exact ⟨String.toList_inj.mp h1, String.toList_inj.mp h2⟩

theorem validIdentity {i : RunnerGenerationIdentity} (h : validateIdentity i = .ok ()) :
    applicationPattern i.applicationId = true ∧ environmentPattern i.environment = true ∧
      appPattern i.appId = true ∧ recordPattern i.generationId = true := by
  unfold validateIdentity at h
  split at h
  · assumption
  · cases h

theorem generationKey_injective {i j : RunnerGenerationIdentity} (hi : validateIdentity i = .ok ())
    (hj : validateIdentity j = .ok ()) (h : generationKey i = generationKey j) : i = j := by
  obtain ⟨ha, he, hp, -⟩ := validIdentity hi
  obtain ⟨ha', he', hp', -⟩ := validIdentity hj
  have happ : ∀ {s : String}, appPattern s = true → '/' ∉ s.toList := by
    intro s hs
    refine dotted_notin separator_slash (fun p hhead => ?_) hs
    obtain rfl := of_decide_eq_true hhead
    decide
  obtain ⟨h1, h⟩ := slash_cancel (isLabel_noSlash ha) (isLabel_noSlash ha') h
  obtain ⟨h2, h⟩ := slash_cancel (isLabel_noSlash he) (isLabel_noSlash he') h
  obtain ⟨h3, h4⟩ := slash_cancel (happ hp) (happ hp') h
  cases i
  cases j
  simp_all

/-! ## Generations -/

variable {s s' s'' : St α} {c : Call α} {i : Nat} {g j : RunnerGenerationIdentity}

theorem generation_congr (h : generationKey g = generationKey j) :
    s.generation g = { s.generation j with identity := (s.generation g).identity } := by
  unfold St.generation
  rw [h]
  cases s.generations.get? (generationKey j) <;> rfl

theorem generation_update (f : GenerationState → GenerationState) :
    (s.update j f).generation g =
      if generationKey g = generationKey j then f (s.generation j) else s.generation g := by
  unfold St.update
  by_cases h : generationKey g = generationKey j
  · rw [if_pos h]
    show (JsMap.get? _ (generationKey g)).getD _ = _
    rw [h, JsMap.get?_set_self]
    rfl
  · rw [if_neg h]
    show (JsMap.get? _ (generationKey g)).getD _ = _
    rw [JsMap.get?_set_ne _ _ h]
    rfl

/-- What an exchange, a quarantine and a drain leave alone in a generation: its count; a quarantine
is for good and closes the generation. -/
structure Keeps (g g' : GenerationState) : Prop where
  active : g'.active = g.active
  quarantined : g.quarantined = true → g'.quarantined = true
  accepting : g'.accepting = true → g.accepting = true
  closed : g'.quarantined = true → g.quarantined = true ∨ g'.accepting = false

theorem Keeps.refl (g : GenerationState) : Keeps g g := ⟨rfl, id, id, .inl⟩

theorem Keeps.trans {a b c : GenerationState} (h : Keeps a b) (h' : Keeps b c) : Keeps a c where
  active := h'.active.trans h.active
  quarantined hq := h'.quarantined (h.quarantined hq)
  accepting ha := h.accepting (h'.accepting ha)
  closed hq := by
    rcases h'.closed hq with hb | hc
    · rcases h.closed hb with ha | hb
      · exact .inl ha
      · refine .inr (Bool.eq_false_iff.mpr fun hc => ?_)
        rw [h'.accepting hc] at hb
        cases hb
    · exact .inr hc

/-! ## Moves -/

/-- Calls, floors and containers stay as they are. -/
structure Frame (s s' : St α) : Prop where
  calls : s'.calls = s.calls
  delivered : s'.delivered = s.delivered
  authorization : s'.authorizationRevisions = s.authorizationRevisions
  lifecycle : s'.lifecycleRevisions = s.lifecycleRevisions
  exchanges : ∀ i, (s'.exchanges.get? i).isSome = (s.exchanges.get? i).isSome
  generations : ∀ g, Keeps (s.generation g) (s'.generation g)

theorem Frame.refl (s : St α) : Frame s s :=
  ⟨rfl, rfl, rfl, rfl, fun _ => rfl, fun _ => .refl _⟩

theorem Frame.trans (h : Frame s s') (h' : Frame s' s'') : Frame s s'' :=
  ⟨h'.calls.trans h.calls, h'.delivered.trans h.delivered, h'.authorization.trans h.authorization,
    h'.lifecycle.trans h.lifecycle, fun i => (h'.exchanges i).trans (h.exchanges i),
    fun g => (h.generations g).trans (h'.generations g)⟩

theorem frame_update (f : GenerationState → GenerationState)
    (hf : Keeps (s.generation j) (f (s.generation j))) : Frame s (s.update j f) := by
  refine ⟨rfl, rfl, rfl, rfl, fun _ => rfl, fun g => ?_⟩
  rw [generation_update]
  split
  · rename_i h
    rw [generation_congr h]
    exact ⟨hf.active, hf.quarantined, hf.accepting, hf.closed⟩
  · exact .refl _

/-- An exchange goes on. -/
theorem frame_exchange {x : Exchange α} (hx : s.exchanges.get? i = some x) (x' : Exchange α) :
    Frame s { s with exchanges := s.exchanges.set i x' } := by
  refine ⟨rfl, rfl, rfl, rfl, fun k => ?_, fun _ => .refl _⟩
  show ((s.exchanges.set i x').get? k).isSome = _
  rw [JsMap.get?_set]
  split
  · rename_i hk
    rw [hk, hx]
    rfl
  · rfl

theorem frame_settle (result : Except RunnerInvocationError α) : Frame s (settle s i result) := by
  unfold settle
  split
  · split
    · exact .refl s
    · rename_i x _ hx _
      refine (frame_update (j := _) (f := _) ?_).trans (frame_exchange (x := x) ?_ _)
      · exact ⟨rfl, id, id, .inl⟩
      · exact hx
  · exact .refl s

theorem frame_cancel (error : RunnerInvocationError) : ∀ (entries : List Registration) (s : St α),
    Frame s (cancel s entries error)
  | [], s => .refl s
  | r :: entries, s => by
    show Frame s (cancel (settle s r.call (.error error)) entries error)
    exact (frame_settle _).trans (frame_cancel error entries _)

theorem frame_publish (reason : Code) (name : String) :
    Frame s (publishTerminalQuarantine s j reason name) := by
  unfold publishTerminalQuarantine
  refine (frame_update _ ?_).trans (frame_cancel _ _ _)
  exact ⟨rfl, fun _ => rfl, (fun ha => by cases ha), fun _ => .inr rfl⟩

theorem frame_fail (error : RunnerInvocationError) : Frame s (fail s i error) := by
  unfold fail
  split
  · dsimp only
    split
    · exact (frame_publish _ _).trans (frame_settle _)
    · exact frame_settle _
  · exact .refl s

theorem frame_inspect {x : Exchange α} (hx : s.exchanges.get? i = some x) (problem : Option Fault) :
    Frame s (inspect s i c x problem) := by
  unfold inspect
  split
  · split
    · exact .refl s
    · exact frame_fail _
  · split
    · exact .refl s
    · split
      · exact frame_fail _
      · exact frame_exchange hx _

theorem frame_observe {x : Exchange α} (hx : s.exchanges.get? i = some x) (ok : Bool) :
    Frame s (observe s i c x ok) := by
  unfold observe
  split
  · exact frame_fail _
  · split
    · exact .refl s
    · split
      · exact frame_fail _
      · exact frame_exchange hx _

theorem frame_receive {x : Exchange α} (hx : s.exchanges.get? i = some x) (line : Line α) :
    Frame s (receive s i c x line) := by
  unfold receive
  split
  · split
    · exact frame_exchange hx _
    · exact .refl s
  · split
    · exact frame_fail _
    · split
      · split
        · exact frame_fail _
        · exact frame_exchange hx _
      · split
        · exact frame_fail _
        · exact frame_settle _
      · split
        · exact frame_fail _
        · exact frame_fail _
      · split
        · exact frame_fail _
        · exact frame_fail _

/-- The floor of the invalidation's scope is at or above it. -/
def Floored (s : St α) (v : AuthorizationRevisionInvalidation) : Prop :=
  match v.scope with
  | .application =>
    v.authorizationRevision ≤ (s.authorizationRevisions.get? v.applicationId).getD 0
  | .environment => v.lifecycleRevision ≤
    (s.lifecycleRevisions.get? (environmentKey v.applicationId v.environment)).getD 0

def Silent (phase : Phase α) : Prop := ∀ value, phase ≠ .done (.ok value)

/-- What a step is made of, apart from the return of a value. -/
inductive Move : St α → St α → Prop
  | frame {s s' : St α} (h : Frame s s') : Move s s'
  | arrive {s : St α} (c : Call α) (hphase : c.phase = .starting) (hstarted : c.started = false) :
      Move s { s with calls := s.calls ++ [c] }
  | advance {s : St α} {i : Nat} {c : Call α} (phase : Phase α) (hc : s.calls[i]? = some c)
      (hrun : phase.running = c.phase.running) (hphase : Silent phase)
      (hexchange : phase = .exchanging → (s.exchanges.get? i).isSome) :
      Move s (s.advance i c phase)
  | start {s : St α} {i : Nat} {c : Call α} (hc : s.calls[i]? = some c)
      (hrun : c.phase.running = false) (haccepting : (s.generation c.identity).accepting = true)
      (hactive : (s.generation c.identity).active < c.request.limits.maxConcurrency) :
      Move s (start s i c)
  | launch {s : St α} {i : Nat} {c : Call α} (x : Exchange α) (hc : s.calls[i]? = some c)
      (hquarantined : (s.generation c.identity).quarantined = false) :
      Move s { s with exchanges := s.exchanges.set i x }
  | finish {s : St α} {i : Nat} {c : Call α} (f : GenerationState → GenerationState)
      (phase : Phase α) (hc : s.calls[i]? = some c) (hrun : c.phase.running = true)
      (hphase : phase.running = false ∧ Silent phase)
      (hf : Keeps { s.generation c.identity with active := (s.generation c.identity).active - 1 }
        (f (s.generation c.identity))) :
      Move s ((s.update c.identity f).advance i c phase)
  | invalidate {s s' : St α} (v : AuthorizationRevisionInvalidation) (hv : Floored s' v)
      (hcalls : s'.calls = s.calls) (hexchanges : s'.exchanges = s.exchanges)
      (hgenerations : s'.generations = s.generations) (hdelivered : s'.delivered = v :: s.delivered)
      (hauthorization : ∀ k, (s.authorizationRevisions.get? k).getD 0 ≤
        (s'.authorizationRevisions.get? k).getD 0)
      (hlifecycle : ∀ k, (s.lifecycleRevisions.get? k).getD 0 ≤
        (s'.lifecycleRevisions.get? k).getD 0) : Move s s'

abbrev Moves : St α → St α → Prop := Relation.ReflTransGen Move

theorem Moves.of_frame (h : Frame s s') : Moves s s' := .single (.frame h)

theorem Moves.silent (phase : Phase α) (hc : s.calls[i]? = some c)
    (hrun : phase.running = c.phase.running) (hphase : Silent phase)
    (hexchange : phase ≠ .exchanging) : Moves s (s.advance i c phase) :=
  .single (.advance phase hc hrun hphase fun he => absurd he hexchange)

theorem silent_error (failure : Failure) : Silent (.done (.error failure) : Phase α) := by
  intro value h
  cases h

/-- A call that does not run is turned away. -/
theorem Moves.reject (failure : Failure) (hc : s.calls[i]? = some c)
    (hrun : c.phase.running = false) : Moves s (s.advance i c (.done (.error failure))) :=
  .silent _ hc (by rw [hrun]; rfl) (silent_error failure) (by rintro ⟨⟩)

theorem moves_begun (hc : s.calls[i]? = some c) (hrun : c.phase.running = false)
    (claims : Option Claims) : Moves s (begun s i c claims) := by
  unfold begun
  split
  · exact .silent _ hc (by rw [hrun]; rfl) (by rintro _ ⟨⟩) (by rintro ⟨⟩)
  · split
    · exact .reject _ hc hrun
    · split
      · exact .reject _ hc hrun
      · split
        · exact .reject _ hc hrun
        · split
          · exact .reject _ hc hrun
          · exact .silent _ hc (by rw [hrun]; rfl) (by rintro _ ⟨⟩) (by rintro ⟨⟩)

theorem moves_admitted (hc : s.calls[i]? = some c) (hrun : c.phase.running = false)
    (answer : Option Bool) : Moves s (admitted s i c answer) := by
  unfold admitted
  split
  · exact .reject _ hc hrun
  · exact .reject _ hc hrun
  · dsimp only
    split
    · exact .reject _ hc hrun
    · split
      · exact .reject _ hc hrun
      · rename_i haccepting
        split
        · exact .reject _ hc hrun
        · rename_i hactive
          exact .single (.start hc hrun (by simpa using haccepting) (by omega))

theorem frame_countFailure (error : RunnerInvocationError) : Frame s (countFailure s c error) := by
  unfold countFailure
  split
  · exact .refl s
  · exact frame_update _ ⟨rfl, id, id, .inl⟩

theorem moves_caught (hc : s.calls[i]? = some c) (hrun : c.phase.running = true)
    (error : RunnerInvocationError) : Moves s (caught s i c error) := by
  have hf := frame_countFailure (s := s) (c := c) error
  refine (Moves.of_frame hf).tail (.finish _ _ ?_ hrun ⟨rfl, silent_error _⟩ (.refl _))
  rw [hf.calls]
  exact hc

theorem moves_releaseContainer (hc : s.calls[i]? = some c) (hrun : c.phase.running = true)
    (name : String) (result : Except RunnerInvocationError α) :
    Moves s (releaseContainer s i c name result) :=
  .single (.finish _ _ hc hrun ⟨rfl, by rintro _ ⟨⟩⟩ ⟨rfl, id, id, .inl⟩)

theorem moves_caughtContainer (hc : s.calls[i]? = some c) (hrun : c.phase.running = true)
    (name : String) (error : RunnerInvocationError) :
    Moves s (caughtContainer s i c name error) := by
  have hf := frame_countFailure (s := s) (c := c) error
  have hc' : (countFailure s c error).calls[i]? = some c := by
    rw [hf.calls]
    exact hc
  refine (Moves.of_frame hf).trans ?_
  unfold caughtContainer
  dsimp only
  split
  · rename_i reason _
    have hp := frame_publish (s := countFailure s c error) (j := c.identity) reason name
    refine (Moves.of_frame hp).trans (Moves.silent _ ?_ ?_ (by rintro _ ⟨⟩) (by rintro ⟨⟩))
    · rw [hp.calls]
      exact hc'
    · rw [hrun]
      rfl
  · exact moves_releaseContainer hc' hrun name _

theorem moves_loaded (hc : s.calls[i]? = some c) (hrun : c.phase.running = true) (ok : Bool) :
    Moves s (loaded s i c ok) := by
  unfold loaded
  split
  · exact moves_caught hc hrun _
  · split
    · exact moves_caught hc hrun _
    · exact .silent _ hc (by rw [hrun]; rfl) (by rintro _ ⟨⟩) (by rintro ⟨⟩)

theorem blocked_none (h : blocked s c = none) : (s.generation c.identity).quarantined = false := by
  unfold blocked at h
  dsimp only at h
  split at h
  · cases h
  · split at h
    · cases h
    · rename_i hq
      simpa using hq

theorem moves_launch (hc : s.calls[i]? = some c) (hrun : c.phase.running = true)
    (hq : (s.generation c.identity).quarantined = false) (name : String) :
    Moves s (launch s i c name) := by
  have hregister : Frame s (register s i c name) := frame_update _ ⟨rfl, id, id, .inl⟩
  have hq' : ((register s i c name).generation c.identity).quarantined = false := by
    unfold register
    rw [generation_update, if_pos rfl]
    exact hq
  have hlaunch := Move.launch (s := register s i c name) ⟨name, false, false, false, none⟩ hc hq'
  refine (((Moves.of_frame hregister).tail hlaunch).tail
    (.advance .exchanging hc (by rw [hrun]; rfl) (by rintro _ ⟨⟩) fun _ => ?_)).trans ?_
  · show ((JsMap.set _ i _).get? i).isSome
    rw [JsMap.get?_set_self]
    rfl
  unfold launch
  dsimp only
  split
  · exact Moves.of_frame (frame_fail _)
  · exact .refl

theorem moves_readmitted (hc : s.calls[i]? = some c) (hrun : c.phase.running = true)
    (answer : Option Bool) (suffix : String) (spawned : Bool) :
    Moves s (readmitted s i c answer suffix spawned) := by
  unfold readmitted
  split
  · exact moves_caught hc hrun _
  · exact moves_caught hc hrun _
  · split
    · exact moves_caught hc hrun _
    · rename_i hblocked
      dsimp only
      have hadd : Frame s (addContainer s c (containerNameOf c.identity suffix)) :=
        frame_update _ ⟨rfl, id, id, .inl⟩
      have hc' : (addContainer s c (containerNameOf c.identity suffix)).calls[i]? = some c := hc
      refine (Moves.of_frame hadd).trans ?_
      split
      · refine moves_launch hc' hrun ?_ _
        unfold addContainer
        rw [generation_update, if_pos rfl]
        exact blocked_none hblocked
      · exact moves_caughtContainer hc' hrun _ _

theorem moves_exchanged (hc : s.calls[i]? = some c) (hrun : c.phase.running = true) (name : String)
    (terminal : Except RunnerInvocationError α) (reaped : Bool) :
    Moves s (exchanged s i c name terminal reaped) := by
  unfold exchanged
  split
  · exact moves_caughtContainer hc hrun _ _
  · split
    · exact moves_caughtContainer hc hrun _ _
    · split
      · exact moves_caughtContainer hc hrun _ _
      · split
        · exact moves_caughtContainer hc hrun _ _
        · exact moves_releaseContainer hc hrun _ _

/-- A floor that is raised. -/
theorem floor_set (m : JsMap String Int) {k : String} {revision : Int}
    (h : ¬ revision ≤ (m.get? k).getD 0) :
    revision ≤ ((m.set k revision).get? k).getD 0 ∧
      ∀ k', (m.get? k').getD 0 ≤ ((m.set k revision).get? k').getD 0 := by
  refine ⟨?_, fun k' => ?_⟩
  · rw [JsMap.get?_set_self]
    exact Int.le_refl _
  · rw [JsMap.get?_set]
    split
    · rename_i hk
      subst hk
      show _ ≤ revision
      omega
    · exact Int.le_refl _

theorem moves_invalidate (v : AuthorizationRevisionInvalidation) :
    Moves s (invalidateAuthorization s v) := by
  unfold invalidateAuthorization
  split
  · exact .refl
  dsimp only
  have hrefl : ∀ (m : JsMap String Int) k, (m.get? k).getD 0 ≤ (m.get? k).getD 0 :=
    fun _ _ => Int.le_refl _
  split
  · rename_i hscope
    split
    · rename_i hle
      refine .single (.invalidate v ?_ rfl rfl rfl rfl (hrefl _) (hrefl _))
      unfold Floored
      rw [hscope]
      exact hle
    · rename_i hlt
      obtain ⟨hself, hmono⟩ := floor_set _ hlt
      have hm : Move s { s with
          delivered := v :: s.delivered
          authorizationRevisions :=
            s.authorizationRevisions.set v.applicationId v.authorizationRevision } := by
        refine .invalidate v ?_ rfl rfl rfl rfl hmono (hrefl _)
        unfold Floored
        rw [hscope]
        exact hself
      exact (Relation.ReflTransGen.single hm).trans (Moves.of_frame (frame_cancel _ _ _))
  · rename_i hscope
    split
    · rename_i hle
      refine .single (.invalidate v ?_ rfl rfl rfl rfl (hrefl _) (hrefl _))
      unfold Floored
      rw [hscope]
      exact hle
    · rename_i hlt
      obtain ⟨hself, hmono⟩ := floor_set _ hlt
      have hm : Move s { s with
          delivered := v :: s.delivered
          lifecycleRevisions := s.lifecycleRevisions.set
            (environmentKey v.applicationId v.environment) v.lifecycleRevision } := by
        refine .invalidate v ?_ rfl rfl rfl rfl (hrefl _) hmono
        unfold Floored
        rw [hscope]
        exact hself
      exact (Relation.ReflTransGen.single hm).trans (Moves.of_frame (frame_cancel _ _ _))

theorem frame_drain (g : RunnerGenerationIdentity) (timeoutMs : Int) :
    Frame s (drain s g timeoutMs) := by
  unfold drain
  split
  · exact .refl s
  · split
    · exact .refl s
    · have hf : Frame s (s.update g fun g => { g with accepting := false }) :=
        frame_update _ ⟨rfl, id, (fun ha => by cases ha), .inl⟩
      exact ⟨rfl, rfl, rfl, rfl, fun _ => rfl, hf.generations⟩

/-- A value is returned, out of quarantine and at or above the floors. -/
def Delivers (s s' : St α) : Prop :=
  ∃ i c value, s.calls[i]? = some c ∧ c.phase.running = false ∧
    s.revisionAtLeast c.request = true ∧ (s.generation c.identity).quarantined = false ∧
    s' = s.advance i c (.done (.ok value))

theorem moves_stopped (hc : s.calls[i]? = some c) (hrun : c.phase.running = false)
    (result : Except RunnerInvocationError α) (ok : Bool) :
    Moves s (stopped s i c result ok) ∨ Delivers s (stopped s i c result ok) := by
  unfold stopped
  split
  · exact .inl (Moves.reject _ hc hrun)
  · rename_i value
    split
    · exact .inl (Moves.reject _ hc hrun)
    · split
      · exact .inl (Moves.reject _ hc hrun)
      · rename_i hfloor
        split
        · exact .inl (Moves.reject _ hc hrun)
        · rename_i hq
          exact .inr ⟨i, c, value, hc, hrun, by simpa using hfloor, by simpa using hq, rfl⟩

theorem invoke_call {request : RunnerInvocationRequest} {aborted : Bool}
    (h : invoke request aborted = .ok c) : c.phase = .starting ∧ c.started = false := by
  unfold invoke at h
  split at h
  · cases h
  · split at h
    · cases h
    · obtain rfl := Except.ok.inj h
      exact ⟨rfl, rfl⟩

theorem step_moves (ev : Ev α) (hs : step s ev = some s') : Moves s s' ∨ Delivers s s' := by
  cases ev with
  | invoke request aborted =>
    simp only [step] at hs
    split at hs
    · obtain rfl := Option.some.inj hs
      exact .inl .refl
    · rename_i c hc
      obtain rfl := Option.some.inj hs
      obtain ⟨hphase, hstarted⟩ := invoke_call hc
      exact .inl (.single (.arrive c hphase hstarted))
  | startup ok =>
    simp only [step] at hs
    split at hs
    · cases hs
    · obtain rfl := Option.some.inj hs
      exact .inl (Moves.of_frame ⟨rfl, rfl, rfl, rfl, fun _ => rfl, fun _ => .refl _⟩)
  | begun i claims =>
    simp only [step] at hs
    split at hs
    · rename_i c ok hc hstartup
      split at hs
      · rename_i hphase
        obtain rfl := Option.some.inj hs
        have hrun : c.phase.running = false := by rw [hphase]; rfl
        refine .inl ?_
        split
        · exact moves_begun hc hrun claims
        · exact Moves.reject _ hc hrun
      · cases hs
    · cases hs
  | retried i failed =>
    obtain ⟨c, hc, hs⟩ := Option.bind_eq_some_iff.mp hs
    split at hs
    · rename_i hphase
      obtain rfl := Option.some.inj hs
      exact .inl (Moves.reject _ hc (by rw [hphase]; rfl))
    · cases hs
  | admitted i answer =>
    obtain ⟨c, hc, hs⟩ := Option.bind_eq_some_iff.mp hs
    split at hs
    · rename_i hphase
      obtain rfl := Option.some.inj hs
      exact .inl (moves_admitted hc (by rw [hphase]; rfl) answer)
    · cases hs
  | loaded i ok =>
    obtain ⟨c, hc, hs⟩ := Option.bind_eq_some_iff.mp hs
    split at hs
    · rename_i hphase
      obtain rfl := Option.some.inj hs
      exact .inl (moves_loaded hc (by rw [hphase]; rfl) ok)
    · cases hs
  | readmitted i answer suffix spawned =>
    obtain ⟨c, hc, hs⟩ := Option.bind_eq_some_iff.mp hs
    split at hs
    · rename_i hphase
      obtain rfl := Option.some.inj hs
      exact .inl (moves_readmitted hc (by rw [hphase]; rfl) answer suffix spawned)
    · cases hs
  | inspected i problem =>
    simp only [step] at hs
    split at hs
    · rename_i c x hc hx
      split at hs
      · cases hs
      · obtain rfl := Option.some.inj hs
        exact .inl (Moves.of_frame (frame_inspect hx problem))
    · cases hs
  | observed i ok =>
    simp only [step] at hs
    split at hs
    · rename_i c x hc hx
      split at hs
      · obtain rfl := Option.some.inj hs
        exact .inl (Moves.of_frame (frame_observe hx ok))
      · cases hs
    · cases hs
  | line i line =>
    simp only [step] at hs
    split at hs
    · rename_i c x hc hx
      obtain rfl := Option.some.inj hs
      exact .inl (Moves.of_frame (frame_receive hx line))
    · cases hs
  | fault i fault =>
    simp only [step] at hs
    split at hs
    · obtain rfl := Option.some.inj hs
      exact .inl (Moves.of_frame (frame_fail _))
    · cases hs
  | exchanged i reaped =>
    obtain ⟨c, hc, hs⟩ := Option.bind_eq_some_iff.mp hs
    split at hs
    · rename_i x hphase hx
      obtain ⟨terminal, -, rfl⟩ := Option.map_eq_some_iff.mp hs
      exact .inl (moves_exchanged hc (by rw [hphase]; rfl) _ terminal reaped)
    · cases hs
  | contained i failed =>
    obtain ⟨c, hc, hs⟩ := Option.bind_eq_some_iff.mp hs
    split at hs
    · rename_i hphase
      obtain rfl := Option.some.inj hs
      exact .inl (moves_releaseContainer hc (by rw [hphase]; rfl) _ _)
    · cases hs
  | stopped i ok =>
    obtain ⟨c, hc, hs⟩ := Option.bind_eq_some_iff.mp hs
    split at hs
    · rename_i hphase
      obtain rfl := Option.some.inj hs
      exact moves_stopped hc (by rw [hphase]; rfl) _ ok
    · cases hs
  | invalidate v =>
    obtain rfl := Option.some.inj hs
    exact .inl (moves_invalidate v)
  | drain g timeoutMs =>
    obtain rfl := Option.some.inj hs
    exact .inl (Moves.of_frame (frame_drain g timeoutMs))
  | drainPolled j expired =>
    obtain ⟨d, hd, hs⟩ := Option.bind_eq_some_iff.mp hs
    split at hs
    · obtain rfl := Option.some.inj hs
      exact .inl (Moves.of_frame ⟨rfl, rfl, rfl, rfl, fun _ => rfl, fun _ => .refl _⟩)
    · cases hs
  | drainKilled j ok =>
    obtain ⟨d, hd, hs⟩ := Option.bind_eq_some_iff.mp hs
    split at hs
    · obtain rfl := Option.some.inj hs
      exact .inl (Moves.of_frame ⟨rfl, rfl, rfl, rfl, fun _ => rfl, fun _ => .refl _⟩)
    · cases hs

/-! ## Invariant -/

def Call.runsFor (g : RunnerGenerationIdentity) (c : Call α) : Bool :=
  c.phase.running && decide (generationKey c.identity = generationKey g)

structure Inv (s : St α) : Prop where
  active : ∀ g, (s.generation g).active = (s.calls.countP (Call.runsFor g) : Nat)
  bounded : ∀ g limit, 0 ≤ limit → (∀ c ∈ s.calls, c.started = true →
    generationKey c.identity = generationKey g → c.request.limits.maxConcurrency ≤ limit) →
    (s.generation g).active ≤ limit
  started : ∀ c ∈ s.calls, c.phase.running = true → c.started = true
  closed : ∀ g, (s.generation g).quarantined = true → (s.generation g).accepting = false
  floors : ∀ v ∈ s.delivered, Floored s v
  exchanges : ∀ i, (s.exchanges.get? i).isSome → i < s.calls.length
  exchanging : ∀ (i : Nat) (c : Call α), s.calls[i]? = some c → c.phase = .exchanging →
    (s.exchanges.get? i).isSome

theorem inv_init : Inv (init : St α) := by
  refine ⟨fun g => rfl, fun g limit hl _ => hl, ?_, fun g hq => ?_, ?_, ?_, ?_⟩
  · intro c hc
    cases hc
  · exact absurd hq (by show ¬ (fresh g).quarantined = true; simp [fresh])
  · intro v hv
    cases hv
  · intro i hi
    simp [init] at hi
  · intro i c hc
    cases hc

theorem Floored.mono {v : AuthorizationRevisionInvalidation} (h : Floored s v)
    (hauthorization : ∀ k, (s.authorizationRevisions.get? k).getD 0 ≤
      (s'.authorizationRevisions.get? k).getD 0)
    (hlifecycle : ∀ k, (s.lifecycleRevisions.get? k).getD 0 ≤
      (s'.lifecycleRevisions.get? k).getD 0) : Floored s' v := by
  unfold Floored at h ⊢
  cases hscope : v.scope with
  | application =>
    rw [hscope] at h
    exact Int.le_trans h (hauthorization _)
  | environment =>
    rw [hscope] at h
    exact Int.le_trans h (hlifecycle _)

theorem inv_frame (h : Inv s) (hf : Frame s s') : Inv s' := by
  refine ⟨fun g => ?_, fun g limit hl hall => ?_, ?_, fun g hq => ?_, fun v hv => ?_, fun i hi => ?_,
    fun i c hc hphase => ?_⟩
  · rw [(hf.generations g).active, hf.calls]
    exact h.active g
  · rw [(hf.generations g).active]
    rw [hf.calls] at hall
    exact h.bounded g limit hl hall
  · rw [hf.calls]
    exact h.started
  · rcases (hf.generations g).closed hq with hq | ha
    · refine Bool.eq_false_iff.mpr fun ha => ?_
      have hold := (hf.generations g).accepting ha
      rw [h.closed g hq] at hold
      cases hold
    · exact ha
  · rw [hf.delivered] at hv
    refine (h.floors v hv).mono (fun k => ?_) fun k => ?_
    · rw [hf.authorization]
    · rw [hf.lifecycle]
  · rw [hf.exchanges] at hi
    rw [hf.calls]
    exact h.exchanges i hi
  · rw [hf.calls] at hc
    rw [hf.exchanges]
    exact h.exchanging i c hc hphase

/-- A call changes, and with it the count of its generation. -/
theorem inv_call (h : Inv s) (c' : Call α) {f : GenerationState → GenerationState}
    (hc : s.calls[i]? = some c) (hid : c'.identity = c.identity)
    (hlimit : c'.request = c.request) (hmono : c.started = true → c'.started = true)
    (hstarted : c'.phase.running = true → c'.started = true)
    (hactive : (f (s.generation c.identity)).active + (if c.phase.running then 1 else 0) =
      (s.generation c.identity).active + (if c'.phase.running then 1 else 0))
    (hbound : (f (s.generation c.identity)).active ≤ (s.generation c.identity).active ∨
      c'.started = true ∧
        (f (s.generation c.identity)).active ≤ c.request.limits.maxConcurrency)
    (hclosed : (f (s.generation c.identity)).quarantined = true →
      (f (s.generation c.identity)).accepting = false)
    (hexchange : c'.phase = .exchanging → (s.exchanges.get? i).isSome) :
    Inv { s.update c.identity f with calls := s.calls.set i c' } := by
  have hlt := (List.getElem?_eq_some_iff.mp hc).1
  have hget : ∀ (g : RunnerGenerationIdentity),
      St.generation { s.update c.identity f with calls := s.calls.set i c' } g =
        if generationKey g = generationKey c.identity then f (s.generation c.identity)
        else s.generation g := fun g => generation_update f
  have hmem : c' ∈ s.calls.set i c' := List.mem_of_getElem? (List.getElem?_set_self hlt)
  -- what started before has started
  have hold : ∀ (P : Call α → Prop), (∀ a ∈ s.calls.set i c', a.started = true → P a) →
      (∀ b b' : Call α, b.request = b'.request → (P b ↔ P b')) →
      ∀ a ∈ s.calls, a.started = true → P a := by
    intro P hall hP a ha hs
    by_cases hac : a = c
    · subst hac
      exact (hP c' a hlimit).mp (hall c' hmem (hmono hs))
    · exact hall a (mem_set_of_ne hc ha hac) hs
  refine ⟨fun g => ?_, fun g limit hl hall => ?_, fun a ha hrun => ?_, fun g hq => ?_,
    fun v hv => h.floors v hv, fun k hk => ?_, fun k a ha hphase => ?_⟩
  · have hcount := countP_set (Call.runsFor g) (c := c') hc
    have hg := h.active g
    rw [hget]
    split
    · rename_i hkey
      have hcg := h.active c.identity
      have hsame : Call.runsFor (α := α) c.identity = Call.runsFor g := by
        funext a
        unfold Call.runsFor
        rw [hkey]
      rw [hsame] at hcg
      have hp : Call.runsFor g c = c.phase.running := by simp [Call.runsFor, hkey]
      have hp' : Call.runsFor g c' = c'.phase.running := by simp [Call.runsFor, hid, hkey]
      rw [hp, hp'] at hcount
      show _ = ((List.countP (Call.runsFor g) (s.calls.set i c') : Nat) : Int)
      cases hr : c.phase.running <;> cases hr' : c'.phase.running <;>
        simp only [hr, hr', Bool.false_eq_true, if_true, if_false] at hactive hcount <;> omega
    · rename_i hkey
      have hne : ¬ generationKey c.identity = generationKey g := fun he => hkey he.symm
      have hp : Call.runsFor g c = false := by simp [Call.runsFor, hne]
      have hp' : Call.runsFor g c' = false := by simp [Call.runsFor, hid, hne]
      rw [hp, hp'] at hcount
      show _ = ((List.countP (Call.runsFor g) (s.calls.set i c') : Nat) : Int)
      simp only [Bool.false_eq_true, if_false] at hcount
      omega
  · have hb := h.bounded g limit hl fun a ha hs hkey =>
      hold (fun a => generationKey a.identity = generationKey g →
        a.request.limits.maxConcurrency ≤ limit) (fun a ha hs => hall a ha hs)
        (fun b b' hbb => by unfold Call.identity; rw [hbb]) a ha hs hkey
    rw [hget]
    split
    · rename_i hkey
      have hcong := congrArg GenerationState.active (generation_congr (s := s) hkey)
      rcases hbound with hle | ⟨hs', hle⟩
      · simp only at hcong
        omega
      · have hlim := hall c' hmem hs' (by rw [hid, hkey])
        rw [hlimit] at hlim
        omega
    · exact hb
  · rcases List.mem_or_eq_of_mem_set ha with ha | rfl
    · exact h.started a ha hrun
    · exact hstarted hrun
  · rw [hget] at hq ⊢
    split
    · rename_i hkey
      rw [if_pos hkey] at hq
      exact hclosed hq
    · rename_i hkey
      rw [if_neg hkey] at hq
      exact h.closed g hq
  · show k < (s.calls.set i c').length
    rw [List.length_set]
    exact h.exchanges k hk
  · rcases getElem?_set_cases ha with ⟨-, ha⟩ | ⟨rfl, rfl⟩
    · exact h.exchanging k a ha hphase
    · exact hexchange hphase

theorem inv_advance (h : Inv s) {phase : Phase α} (hc : s.calls[i]? = some c)
    (hrun : phase.running = c.phase.running)
    (hexchange : phase = .exchanging → (s.exchanges.get? i).isSome) :
    Inv (s.advance i c phase) := by
  have hcall := inv_call h { c with phase := phase } (f := id) hc rfl rfl id
    (fun hr => h.started c (List.mem_of_getElem? hc) (hrun ▸ hr)) (by rw [hrun]; rfl)
    (.inl (Int.le_refl _)) (h.closed c.identity) hexchange
  refine inv_frame hcall ⟨rfl, rfl, rfl, rfl, fun _ => rfl, fun g => ?_⟩
  show Keeps ((s.update c.identity id).generation g) (s.generation g)
  rw [generation_update]
  split
  · rename_i hkey
    rw [generation_congr hkey]
    exact ⟨rfl, id, id, .inl⟩
  · exact .refl _

theorem inv_move (h : Inv s) (hm : Move s s') : Inv s' := by
  cases hm with
  | frame hf => exact inv_frame h hf
  | arrive c hphase hstarted =>
    refine ⟨fun g => ?_, fun g limit hl hall => ?_, fun a ha hrun => ?_, h.closed, h.floors,
      fun k hk => ?_, fun k a ha hrun => ?_⟩
    · have hnot : Call.runsFor g c = false := by simp [Call.runsFor, hphase, Phase.running]
      show (s.generation g).active = _
      rw [h.active g, List.countP_append, List.countP_singleton, hnot]
      rfl
    · exact h.bounded g limit hl fun a ha => hall a (List.mem_append_left _ ha)
    · rcases List.mem_append.mp ha with ha | ha
      · exact h.started a ha hrun
      · obtain rfl := List.mem_singleton.mp ha
        rw [hphase] at hrun
        cases hrun
    · show k < (s.calls ++ [c]).length
      have := h.exchanges k hk
      rw [List.length_append]
      omega
    · rcases getElem?_snoc ha with ha | ⟨-, rfl⟩
      · exact h.exchanging k a ha hrun
      · rw [hphase] at hrun
        cases hrun
  | advance phase hc hrun hphase hexchange => exact inv_advance h hc hrun hexchange
  | start hc hrun haccepting hactive =>
    rename_i i c
    refine inv_call h { c with started := true, phase := .loading } hc rfl rfl
      (fun _ => rfl) (fun _ => rfl) ?_ (.inr ⟨rfl, ?_⟩) (fun hq => ?_) (by rintro ⟨⟩)
    · rw [hrun]
      simp [Phase.running]
    · show (s.generation c.identity).active + 1 ≤ _
      omega
    · rw [h.closed c.identity hq] at haccepting
      cases haccepting
  | launch x hc hquarantined =>
    rename_i i c
    refine ⟨h.active, h.bounded, h.started, h.closed, h.floors, fun k hk => ?_,
      fun k a ha hphase => ?_⟩
    · change ((s.exchanges.set i x).get? k).isSome at hk
      rw [JsMap.get?_set] at hk
      split at hk
      · rename_i hki
        rw [hki]
        exact (List.getElem?_eq_some_iff.mp hc).1
      · exact h.exchanges k hk
    · show ((s.exchanges.set i x).get? k).isSome
      rw [JsMap.get?_set]
      split
      · rfl
      · exact h.exchanging k a ha hphase
  | finish f phase hc hrun hphase hf =>
    rename_i i c
    have hactive : (f (s.generation c.identity)).active = (s.generation c.identity).active - 1 :=
      hf.active
    refine inv_call h { c with phase := phase } hc rfl rfl id (fun hr => ?_) ?_ (.inl ?_)
      (fun hq => ?_) fun he => ?_
    · rw [hphase.1] at hr
      cases hr
    · rw [hrun, hphase.1, hactive]
      simp
    · omega
    · rcases hf.closed hq with hq | ha
      · refine Bool.eq_false_iff.mpr fun ha => ?_
        have hold : (s.generation c.identity).accepting = true := hf.accepting ha
        rw [h.closed c.identity hq] at hold
        cases hold
      · exact ha
    · change phase = .exchanging at he
      have hnot := hphase.1
      rw [he] at hnot
      cases hnot
  | invalidate v hv hcalls hexchanges hgenerations hdelivered hauthorization hlifecycle =>
    have hget : ∀ g, s'.generation g = s.generation g := by
      intro g
      unfold St.generation
      rw [hgenerations]
    refine ⟨fun g => ?_, fun g => ?_, ?_, fun g => ?_, fun w hw => ?_, ?_, ?_⟩
    · rw [hget, hcalls]
      exact h.active g
    · rw [hget, hcalls]
      exact h.bounded g
    · rw [hcalls]
      exact h.started
    · rw [hget]
      exact h.closed g
    · rw [hdelivered] at hw
      rcases List.mem_cons.mp hw with rfl | hw
      · exact hv
      · exact (h.floors w hw).mono hauthorization hlifecycle
    · rw [hcalls, hexchanges]
      exact h.exchanges
    · rw [hcalls, hexchanges]
      exact h.exchanging

theorem inv_moves (h : Inv s) (hm : Moves s s') : Inv s' := by
  induction hm with
  | refl => exact h
  | tail _ hm ih => exact inv_move ih hm

theorem inv_step (h : Inv s) (ev : Ev α) (hs : step s ev = some s') : Inv s' := by
  rcases step_moves ev hs with hm | ⟨i, c, value, hc, hrun, -, -, rfl⟩
  · exact inv_moves h hm
  · exact inv_advance h hc (by rw [hrun]; rfl) (by rintro ⟨⟩)

/-! ## Returns -/

theorem Returned.of_set (c' : Call α) {a : Call α} {k : Nat} (hsilent : Silent c'.phase)
    (hs : s'.calls = s.calls.set i c') (h : Returned s' k a) : Returned s k a := by
  obtain ⟨value, hk, hphase⟩ := h
  rw [hs] at hk
  rcases getElem?_set_cases hk with ⟨-, hk⟩ | ⟨-, rfl⟩
  · exact ⟨value, hk, hphase⟩
  · exact absurd hphase (hsilent value)

theorem Returned.of_move (hm : Move s s') {k : Nat} {a : Call α} (h : Returned s' k a) :
    Returned s k a := by
  cases hm with
  | frame hf =>
    obtain ⟨value, hk, hphase⟩ := h
    rw [hf.calls] at hk
    exact ⟨value, hk, hphase⟩
  | arrive c hphase _ =>
    obtain ⟨value, hk, hdone⟩ := h
    rcases getElem?_snoc hk with hk | ⟨-, rfl⟩
    · exact ⟨value, hk, hdone⟩
    · rw [hphase] at hdone
      cases hdone
  | advance phase hc hrun hsilent hexchange =>
    rename_i i c
    exact h.of_set { c with phase := phase } hsilent rfl
  | start hc hrun haccepting hactive =>
    rename_i i c
    exact h.of_set { c with started := true, phase := .loading } (by rintro _ ⟨⟩) rfl
  | launch x _ _ => exact h
  | finish f phase hc hrun hphase hf =>
    rename_i i c
    exact h.of_set { c with phase := phase } hphase.2 rfl
  | invalidate v _ hcalls _ _ _ _ _ =>
    obtain ⟨value, hk, hphase⟩ := h
    rw [hcalls] at hk
    exact ⟨value, hk, hphase⟩

theorem Returned.of_moves (hm : Moves s s') {k : Nat} {a : Call α} (h : Returned s' k a) :
    Returned s k a := by
  induction hm with
  | refl => exact h
  | tail _ hm ih => exact ih (h.of_move hm)

theorem request_revisions (h : validateRequest c.request = .ok ()) :
    validateIdentity c.identity = .ok () ∧ 0 ≤ c.request.authorizationRevision ∧
      0 ≤ c.request.lifecycleRevision := by
  unfold validateRequest at h
  split at h
  · cases h
  · rename_i u hid
    dsimp only at h
    split at h
    · rename_i hhead
      obtain ⟨-, -, -, -, -, -, -, ha, hl⟩ := hhead
      simp only [between, decide_eq_true_eq] at ha hl
      exact ⟨hid, ha.1, hl.1⟩
    · cases h

/-- Above the floors is above every invalidation delivered. -/
theorem covers_of_floored {r : RunnerInvocationRequest} {v : AuthorizationRevisionInvalidation}
    (hv : Floored s v) (hr : s.revisionAtLeast r = true) (ha : 0 ≤ r.authorizationRevision)
    (hl : 0 ≤ r.lifecycleRevision) : Covers r v := by
  unfold St.revisionAtLeast at hr
  simp only [Bool.and_eq_true] at hr
  unfold Floored at hv
  unfold Covers
  split at hv
  · intro heq
    rw [heq] at hv
    have hfloor := hr.1
    split at hfloor
    · rename_i hnone
      rw [hnone] at hv
      exact Int.le_trans hv ha
    · rename_i floor hsome
      rw [hsome] at hv
      exact Int.le_trans hv (of_decide_eq_true hfloor)
  · intro happ henv
    rw [happ, henv] at hv
    have hfloor := hr.2
    split at hfloor
    · rename_i hnone
      rw [hnone] at hv
      exact Int.le_trans hv hl
    · rename_i floor hsome
      rw [hsome] at hv
      exact Int.le_trans hv (of_decide_eq_true hfloor)

theorem health_ok {h : RunnerHealth} (hh : health s g = .ok h) :
    validateIdentity g = .ok () ∧ h.activeInvocations = (s.generation g).active ∧
      h.quarantined = (s.generation g).quarantined := by
  unfold health at hh
  split at hh
  · cases hh
  · rename_i u hid
    obtain rfl := Except.ok.inj hh
    exact ⟨hid, rfl, rfl⟩

theorem health_of_valid (h : validateIdentity g = .ok ()) : ∃ r, health s g = .ok r ∧
    r.quarantined = (s.generation g).quarantined := by
  unfold health
  rw [h]
  exact ⟨_, rfl, rfl⟩

theorem step_returns (h : Inv s) (ev : Ev α) (hs : step s ev = some s') : ReturnsFenced s s' := by
  intro k a hret hnew
  rcases step_moves ev hs with hm | ⟨i, c, value, hc, -, hfloor, hq, rfl⟩
  · exact absurd (hret.of_moves hm) hnew
  · obtain ⟨value', hk, hphase⟩ := hret
    rcases getElem?_set_cases hk with ⟨-, hk⟩ | ⟨rfl, rfl⟩
    · exact absurd ⟨value', hk, hphase⟩ hnew
    · obtain ⟨hid, ha, hl⟩ := request_revisions c.valid
      refine ⟨fun v hv => covers_of_floored (h.floors v hv) hfloor ha hl, ?_⟩
      obtain ⟨r, hr, hrq⟩ := health_of_valid
        (s := s.advance k c (.done (.ok value))) (g := c.identity) hid
      exact ⟨r, hr, hrq.trans hq⟩

/-! ## Counts -/

theorem running_eq (hg : validateIdentity g = .ok ()) :
    running s g = s.calls.countP (Call.runsFor g) := by
  unfold running
  refine List.countP_congr fun c _ => ?_
  unfold Call.runsFor
  simp only [Bool.and_eq_true, decide_eq_true_eq, and_congr_right_iff]
  intro _
  constructor
  · intro heq
    rw [heq]
  · exact generationKey_injective (request_revisions c.valid).1 hg

theorem balanced (h : Inv s) : Balanced s := by
  intro g r hr
  obtain ⟨hg, hactive, -⟩ := health_ok hr
  rw [hactive]
  refine ⟨?_, fun limit hlimit => h.bounded g limit hlimit.1 fun c hc hs hkey => ?_⟩
  · rw [running_eq hg]
    exact h.active g
  · exact hlimit.2 c hc hs (generationKey_injective (request_revisions c.valid).1 hg hkey)

/-! ## Quarantined generations -/

/-- `StaysQuarantined` by keys, and with the call that a started one was. -/
def Stays (s s' : St α) : Prop :=
  ∀ g, (s.generation g).quarantined = true → (s'.generation g).quarantined = true ∧
    ∀ (i : Nat) (c' : Call α), s'.calls[i]? = some c' →
      generationKey c'.identity = generationKey g →
      (c'.started = true ∨ (s'.exchanges.get? i).isSome) →
      ∃ c, s.calls[i]? = some c ∧ generationKey c.identity = generationKey g ∧
        (c'.started = true → c.started = true) ∧
        ((s'.exchanges.get? i).isSome → (s.exchanges.get? i).isSome)

theorem Stays.refl (s : St α) : Stays s s :=
  fun _ hq => ⟨hq, fun _ c hc hkey _ => ⟨c, hc, hkey, id, id⟩⟩

theorem Stays.trans (h : Stays s s') (h' : Stays s' s'') : Stays s s'' := by
  intro g hq
  obtain ⟨hq', hold⟩ := h g hq
  obtain ⟨hq'', hold'⟩ := h' g hq'
  refine ⟨hq'', fun i c'' hc'' hkey hor => ?_⟩
  obtain ⟨c', hc', hkey', hs', hx'⟩ := hold' i c'' hc'' hkey hor
  obtain ⟨c, hc, hkeyc, hs, hx⟩ := hold i c' hc' hkey' (hor.imp hs' hx')
  exact ⟨c, hc, hkeyc, fun hst => hs (hs' hst), fun hsome => hx (hx' hsome)⟩

/-- One call goes on, as started as it was. -/
theorem stays_call (c' : Call α) (hc : s.calls[i]? = some c) (hid : c'.identity = c.identity)
    (hstarted : c'.started = true → c.started = true) (hcalls : s'.calls = s.calls.set i c')
    (hx : s'.exchanges = s.exchanges)
    (hq : ∀ g, (s.generation g).quarantined = true → (s'.generation g).quarantined = true) :
    Stays s s' := by
  refine fun g hg => ⟨hq g hg, fun k a ha hkey _ => ?_⟩
  rw [hcalls] at ha
  rw [hx]
  rcases getElem?_set_cases ha with ⟨-, ha⟩ | ⟨rfl, rfl⟩
  · exact ⟨a, ha, hkey, id, id⟩
  · exact ⟨c, hc, hid ▸ hkey, hstarted, id⟩

theorem quarantined_update {f : GenerationState → GenerationState}
    (hf : (s.generation j).quarantined = true → (f (s.generation j)).quarantined = true) :
    (s.generation g).quarantined = true → ((s.update j f).generation g).quarantined = true := by
  intro hq
  rw [generation_update]
  split
  · rename_i hkey
    rw [generation_congr hkey] at hq
    exact hf hq
  · exact hq

theorem stays_move (h : Inv s) (hm : Move s s') : Stays s s' := by
  cases hm with
  | frame hf =>
    refine fun g hq => ⟨(hf.generations g).quarantined hq, fun k a ha hkey _ => ?_⟩
    rw [hf.calls] at ha
    rw [hf.exchanges]
    exact ⟨a, ha, hkey, id, id⟩
  | arrive c hphase hstarted =>
    refine fun g hq => ⟨hq, fun k a ha hkey hor => ?_⟩
    rcases getElem?_snoc ha with ha | ⟨rfl, rfl⟩
    · exact ⟨a, ha, hkey, id, id⟩
    · rcases hor with hs | hx
      · rw [hstarted] at hs
        cases hs
      · exact absurd (h.exchanges _ hx) (by omega)
  | advance phase hc hrun hphase hexchange =>
    rename_i i c
    exact stays_call { c with phase := phase } hc rfl id rfl rfl fun _ => id
  | start hc hrun haccepting hactive =>
    rename_i i c
    refine fun g hq => ⟨?_, fun k a ha hkey _ => ?_⟩
    · exact quarantined_update (j := c.identity) (f := fun e => { e with active := e.active + 1 })
        id hq
    rcases getElem?_set_cases ha with ⟨-, ha⟩ | ⟨rfl, rfl⟩
    · exact ⟨a, ha, hkey, id, id⟩
    · -- the generation accepts, so it is not the quarantined one
      have hclosed := h.closed g hq
      rw [generation_congr (s := s) (g := c.identity) (j := g) hkey] at haccepting
      change (s.generation g).accepting = true at haccepting
      rw [hclosed] at haccepting
      cases haccepting
  | launch x hc hquarantined =>
    rename_i i c
    refine fun g hq => ⟨hq, fun k a ha hkey _ => ⟨a, ha, hkey, id, fun hx => ?_⟩⟩
    change ((s.exchanges.set i x).get? k).isSome at hx
    rw [JsMap.get?_set] at hx
    split at hx
    · rename_i hki
      subst hki
      obtain rfl := Option.some.inj (ha.symm.trans hc)
      rw [generation_congr (s := s) (g := a.identity) (j := g) hkey] at hquarantined
      change (s.generation g).quarantined = false at hquarantined
      rw [hq] at hquarantined
      cases hquarantined
    · exact hx
  | finish f phase hc hrun hphase hf =>
    rename_i i c
    exact stays_call { c with phase := phase } hc rfl id rfl rfl
      fun _ => quarantined_update hf.quarantined
  | invalidate v _ hcalls hexchanges hgenerations _ _ _ =>
    refine fun g hq => ⟨?_, fun k a ha hkey _ => ?_⟩
    · unfold St.generation
      rw [hgenerations]
      exact hq
    · rw [hcalls] at ha
      rw [hexchanges]
      exact ⟨a, ha, hkey, id, id⟩

theorem stays_moves (h : Inv s) (hm : Moves s s') : Stays s s' := by
  induction hm with
  | refl => exact .refl s
  | tail hms hm ih => exact ih.trans (stays_move (inv_moves h hms) hm)

theorem stays_step (h : Inv s) (ev : Ev α) (hs : step s ev = some s') : Stays s s' := by
  rcases step_moves ev hs with hm | ⟨i, c, value, hc, -, -, -, rfl⟩
  · exact stays_moves h hm
  · exact stays_call { c with phase := .done (.ok value) } hc rfl id rfl rfl fun _ => id

theorem staysQuarantined (h : Stays s s') : StaysQuarantined s s' := by
  intro g r hr hquarantined
  obtain ⟨hg, -, hq⟩ := health_ok hr
  obtain ⟨hq', hold⟩ := h g (hq ▸ hquarantined)
  obtain ⟨r', hr', hrq'⟩ := health_of_valid (s := s') hg
  refine ⟨⟨r', hr', hrq'.trans hq'⟩, fun i c' hc' hid => ⟨fun hs => ?_, fun hx => ?_⟩⟩
  · obtain ⟨c, hc, -, hst, -⟩ := hold i c' hc' (by rw [hid]) (.inl hs)
    exact ⟨c, hc, hst hs⟩
  · obtain ⟨c, -, -, -, hsome⟩ := hold i c' hc' (by rw [hid]) (.inr hx)
    exact hsome hx

/-! ## Calls end -/

/-- The other calls are as they were. -/
structure Only (i : Nat) (s s' : St α) : Prop where
  length : s'.calls.length = s.calls.length
  others : ∀ k, k ≠ i → s'.calls[k]? = s.calls[k]?

theorem Only.refl (i : Nat) (s : St α) : Only i s s := ⟨rfl, fun _ _ => rfl⟩

theorem Only.trans (h : Only i s s') (h' : Only i s' s'') : Only i s s'' :=
  ⟨h'.length.trans h.length, fun k hk => (h'.others k hk).trans (h.others k hk)⟩

theorem Only.of_set {c' : Call α} (h : s'.calls = s.calls.set i c') : Only i s s' := by
  refine ⟨by rw [h, List.length_set], fun k hk => ?_⟩
  rw [h]
  exact List.getElem?_set_ne fun he => hk he.symm

def Call.Done (c : Call α) : Prop := ∃ result, c.phase = .done result

/-- The call can be brought to its end, the others staying where they are. -/
def Ends (i : Nat) (s : St α) : Prop :=
  ∃ ls s', (lts α).Run s ls s' ∧ Only i s s' ∧ ∃ c, s'.calls[i]? = some c ∧ c.Done

theorem ends_after {ev : Ev α} (hs : step s ev = some s') (ho : Only i s s') (h : Ends i s') :
    Ends i s := by
  obtain ⟨ls, s'', hr, ho', hc⟩ := h
  exact ⟨ev :: ls, s'', .cons hs hr, ho.trans ho', hc⟩

/-- A step after which the call is at another phase. -/
theorem ends_at (phase : Phase α) {ev : Ev α} (hs : step s ev = some s')
    (hc : s.calls[i]? = some c) (hset : s'.calls = s.calls.set i { c with phase := phase })
    (h : s'.calls[i]? = some { c with phase := phase } → Ends i s') : Ends i s := by
  refine ends_after hs (.of_set hset) (h ?_)
  rw [hset]
  exact List.getElem?_set_self (List.getElem?_eq_some_iff.mp hc).1

theorem ends_done (hc : s.calls[i]? = some c) (hdone : c.Done) : Ends i s :=
  ⟨[], s, .nil s, .refl i s, c, hc, hdone⟩

theorem caught_calls (error : RunnerInvocationError) :
    (caught s i c error).calls = s.calls.set i { c with phase := rejected error } := by
  unfold caught release St.advance
  show (countFailure s c error).calls.set i _ = _
  rw [(frame_countFailure error).calls]

theorem caughtContainer_calls (name : String) (error : RunnerInvocationError) :
    (caughtContainer s i c name error).calls =
        s.calls.set i { c with phase := .containing name error } ∨
      (caughtContainer s i c name error).calls =
        s.calls.set i { c with phase := .stopping name (.error error) } := by
  unfold caughtContainer
  dsimp only
  split
  · refine .inl ?_
    show (publishTerminalQuarantine _ _ _ _).calls.set i _ = _
    rw [(frame_publish _ _).calls, (frame_countFailure error).calls]
  · refine .inr ?_
    show (countFailure s c error).calls.set i _ = _
    rw [(frame_countFailure error).calls]

/-- A step after which the call has failed. -/
theorem ends_failed (failure : Failure) {ev : Ev α} (hs : step s ev = some s')
    (hc : s.calls[i]? = some c)
    (hset : s'.calls = s.calls.set i { c with phase := .done (.error failure) }) : Ends i s :=
  ends_at _ hs hc hset fun hc' => ends_done hc' ⟨_, rfl⟩

theorem ends_stopping {name : String} {result : Except RunnerInvocationError α}
    (hc : s.calls[i]? = some c) (hphase : c.phase = .stopping name result) : Ends i s := by
  have hs : step s (.stopped i false) = some (stopped s i c result false) := by
    simp only [step, hc, Option.bind_some, hphase]
  cases result with
  | error error => exact ends_failed (.runner { error with cleanupFailed := true }) hs hc rfl
  | ok value =>
    exact ends_failed (.runner (containerFailed "Runner container stop observation failed."))
      hs hc rfl

theorem ends_containing {name : String} {error : RunnerInvocationError}
    (hc : s.calls[i]? = some c) (hphase : c.phase = .containing name error) : Ends i s := by
  have hs : step s (.contained i false) = some (releaseContainer s i c name
      (.error { error with cleanupFailed := error.cleanupFailed || false })) := by
    simp only [step, hc, Option.bind_some, hphase]
  exact ends_at (.stopping name _) hs hc rfl fun hc' => ends_stopping hc' rfl

theorem ends_caughtContainer {name : String} (error : RunnerInvocationError) {ev : Ev α}
    (hc : s.calls[i]? = some c) (hs : step s ev = some (caughtContainer s i c name error)) :
    Ends i s := by
  rcases caughtContainer_calls (s := s) (i := i) (c := c) name error with heq | heq
  · exact ends_at _ hs hc heq fun hc' => ends_containing hc' rfl
  · exact ends_at _ hs hc heq fun hc' => ends_stopping hc' rfl

/-- A container that is not reaped ends its call. -/
theorem ends_terminal {x : Exchange α} {t : Except RunnerInvocationError α}
    (hc : s.calls[i]? = some c) (hphase : c.phase = .exchanging)
    (hx : s.exchanges.get? i = some x) (ht : x.terminal = some t) : Ends i s := by
  have hs : step s (.exchanged i false) = some (exchanged s i c x.containerName t false) := by
    simp only [step, hc, Option.bind_some, hphase, hx, ht, Option.map_some]
  cases t with
  | error error =>
    exact ends_caughtContainer { error with cleanupFailed := true } hc hs
  | ok value =>
    exact ends_caughtContainer
      (containerFailed "Runner container could not be forcibly terminated.") hc hs

theorem ends_exchanging (hc : s.calls[i]? = some c) (hphase : c.phase = .exchanging)
    (hx : (s.exchanges.get? i).isSome) : Ends i s := by
  obtain ⟨x, hx⟩ := Option.isSome_iff_exists.mp hx
  cases ht : x.terminal with
  | some t => exact ends_terminal hc hphase hx ht
  | none =>
    let error := Fault.error x.invokeAcknowledged .unavailable
    have hs : step s (.fault i .unavailable) = some (settle s i (.error error)) := by
      simp only [step, hx, fail, hc]
      cases x.invokeAcknowledged <;> rfl
    have hf : Frame s (settle s i (.error error)) := frame_settle _
    refine ends_after hs ⟨by rw [hf.calls], fun k _ => by rw [hf.calls]⟩ (ends_terminal
      (x := { x with terminal := some (.error error) }) (hf.calls ▸ hc) hphase ?_ rfl)
    simp only [settle, hc, hx, ht, Option.isSome_none, Bool.false_eq_true, if_false,
      JsMap.get?_set_self]

theorem ends_readmitting (hc : s.calls[i]? = some c) (hphase : c.phase = .readmitting) :
    Ends i s := by
  have hs : step s (.readmitted i none "" false) =
      some (caught s i c (containerFailed "Runner container failed.")) := by
    simp only [step, hc, Option.bind_some, hphase, readmitted]
  exact ends_failed _ hs hc (caught_calls _)

theorem ends_loading (hc : s.calls[i]? = some c) (hphase : c.phase = .loading) : Ends i s := by
  have hs : step s (.loaded i false) = some (caught s i c ⟨.invocationInvalid,
      "Runner artifact identity is not present in the verified inventory.", false⟩) := by
    simp only [step, hc, Option.bind_some, hphase, loaded, if_true]
  exact ends_failed _ hs hc (caught_calls _)

theorem ends_retrying (hc : s.calls[i]? = some c) (hphase : c.phase = .retrying) : Ends i s := by
  have hs : step s (.retried i false) = some (s.advance i c (rejected
      ⟨.generationQuarantined, "Runner generation is quarantined.", false⟩)) := by
    simp only [step, hc, Option.bind_some, hphase]
  exact ends_failed _ hs hc rfl

theorem ends_admitting (hc : s.calls[i]? = some c) (hphase : c.phase = .admitting) : Ends i s := by
  have hs : step s (.admitted i none) = some (s.advance i c (.done (.error .host))) := by
    simp only [step, hc, Option.bind_some, hphase, admitted]
  exact ends_failed _ hs hc rfl

theorem ends_started (ok : Bool) (hc : s.calls[i]? = some c) (hphase : c.phase = .starting)
    (hok : s.startup = some ok) : Ends i s := by
  have hs : step s (.begun i none) =
      some (if ok then begun s i c none else s.advance i c (.done (.error .host))) := by
    simp only [step, hc, hok, hphase]
  cases ok with
  | false => exact ends_failed .host hs hc rfl
  | true =>
    simp only [if_true, begun] at hs
    split at hs
    · exact ends_at .retrying hs hc rfl fun hc' => ends_retrying hc' rfl
    · exact ends_failed .host hs hc rfl

theorem ends_starting (hc : s.calls[i]? = some c) (hphase : c.phase = .starting) : Ends i s := by
  cases hok : s.startup with
  | some ok => exact ends_started ok hc hphase hok
  | none =>
    have hs : step s (.startup true) = some { s with startup := some true } := by
      simp only [step, hok]
    refine ends_after hs ⟨rfl, fun _ _ => rfl⟩ ?_
    exact ends_started true hc hphase rfl

theorem ends (h : Inv s) (hc : s.calls[i]? = some c) : Ends i s := by
  cases hphase : c.phase with
  | starting => exact ends_starting hc hphase
  | retrying => exact ends_retrying hc hphase
  | admitting => exact ends_admitting hc hphase
  | loading => exact ends_loading hc hphase
  | readmitting => exact ends_readmitting hc hphase
  | exchanging => exact ends_exchanging hc hphase (h.exchanging i c hc hphase)
  | containing name error => exact ends_containing hc hphase
  | stopping name result => exact ends_stopping hc hphase
  | done result => exact ends_done hc ⟨result, hphase⟩

theorem inductive_inv (α : Type) : (lts α).Inductive Inv where
  init := by
    rintro s rfl
    exact inv_init
  step _ ev _ h hs := inv_step h ev hs

/-- One call after the other. -/
theorem all_end (h : Inv s) : ∀ n, n ≤ s.calls.length → ∃ ls s', (lts α).Run s ls s' ∧
    s'.calls.length = s.calls.length ∧
      ∀ (k : Nat) (a : Call α), k < n → s'.calls[k]? = some a → a.Done
  | 0, _ => ⟨[], s, .nil s, rfl, fun k a hk => absurd hk (by omega)⟩
  | n + 1, hn => by
    obtain ⟨ls, s₁, hr, hlen, hdone⟩ := all_end h n (by omega)
    have hlt : n < s₁.calls.length := by omega
    obtain ⟨ls', s₂, hr', ho, c, hc, hd⟩ :=
      ends ((inductive_inv α).run hr h) (List.getElem?_eq_getElem hlt)
    refine ⟨ls ++ ls', s₂, hr.append hr', ho.length.trans hlen, fun k a hk ha => ?_⟩
    by_cases hkn : k = n
    · subst hkn
      obtain rfl := Option.some.inj (hc.symm.trans ha)
      exact hd
    · rw [ho.others k hkn] at ha
      exact hdone k a (by omega) ha

theorem returnsToZero (h : Inv s) : ReturnsToZero s := by
  obtain ⟨ls, s', hr, hlen, hdone⟩ := all_end h s.calls.length (Nat.le_refl _)
  refine ⟨ls, s', hr, hlen, fun g r hr' => ?_⟩
  obtain ⟨hcount, -⟩ := balanced ((inductive_inv α).run hr h) g r hr'
  rw [hcount]
  have hzero : running s' g = 0 := by
    unfold running
    rw [List.countP_eq_zero]
    intro c hc
    obtain ⟨k, hk, hget⟩ := List.getElem_of_mem hc
    obtain ⟨result, hphase⟩ := hdone k c (by omega) (by rw [List.getElem?_eq_getElem hk, hget])
    rw [hphase]
    simp [Phase.running]
  rw [hzero]
  rfl

/-! ## Headline properties -/

/-- **Fencing.** In every reachable state the counts are balanced, within the limits, and can go
down to zero; every step returns values only above the floors and out of quarantine; and along
every run from it a quarantined generation stays quarantined and starts nothing. -/
theorem fencing (α : Type) (s : St α) (h : (lts α).Reachable s) :
    Balanced s ∧ ReturnsToZero s ∧ (∀ ev s', (lts α).step s ev s' → ReturnsFenced s s') ∧
      ∀ ls s', (lts α).Run s ls s' → StaysQuarantined s s' := by
  have hinv := (inductive_inv α).reachable s h
  refine ⟨balanced hinv, returnsToZero hinv, fun ev s' hs => step_returns hinv ev hs,
    fun ls s' hr => staysQuarantined ?_⟩
  exact (inductive_inv α).run_rel .refl (fun _ _ _ => .trans)
    (fun _ ev _ hi hs => stays_step hi ev hs) hr hinv

/-! ### A run that returns a value -/

def requestEx : RunnerInvocationRequest where
  owner := ⟨"shop", "production", "app.notes", .hotApplication⟩
  generationId := "generation-1"
  artifactDigest := "sha256:" ++ String.ofList (List.replicate 64 '0')
  serverEntrypoint := "server/main.mjs"
  invocationId := "invocation-1"
  drainLeaseId := "lease-00000000-0000-0000-0000-000000000000"
  token := String.ofList (List.replicate 32 't')
  authorizationRevision := 3
  lifecycleRevision := 2
  inputBytes := some 2
  limits := ⟨1000, 64, 16, 64, 4096, 1000, 1024, 1024, 1024, 1⟩

def traceEx : List (Ev Nat) :=
  [.invoke requestEx false, .startup true, .begun 0 (some ⟨requestEx.drainLeaseId, 3, 2⟩),
    .admitted 0 (some true), .loaded 0 true, .readmitted 0 (some true) "0f0f0f0f" true,
    .inspected 0 none, .observed 0 true, .line 0 .ack, .line 0 (.result 7), .exchanged 0 true,
    .invalidate ⟨"shop", "production", .application, 3, 0⟩]

def Phase.value? : Phase α → Option α
  | .done (.ok value) => some value
  | _ => none

theorem traceEx_value : ((LTS.exec step init traceEx).bind fun s =>
    (step s (.stopped 0 true)).bind fun s' => s'.calls[0]?.bind fun c => c.phase.value?) =
      some 7 := by
  decide +kernel

theorem fencing_trace : ∃ s s' c, (lts Nat).Reachable s ∧ step s (.stopped 0 true) = some s' ∧
    s'.calls[0]? = some c ∧ c.phase.value? = some 7 ∧ ReturnsFenced s s' := by
  obtain ⟨s, hexec, h⟩ := Option.bind_eq_some_iff.mp traceEx_value
  obtain ⟨s', hs, h⟩ := Option.bind_eq_some_iff.mp h
  obtain ⟨c, hc, hvalue⟩ := Option.bind_eq_some_iff.mp h
  have hr : (lts Nat).Reachable s := LTS.Reachable.run (.init rfl) (LTS.run_of_exec hexec)
  exact ⟨s, s', c, hr, hs, hc, hvalue, (fencing Nat s hr).2.2.1 (.stopped 0 true) s' hs⟩

end KNex.Runtime.ExtensionRunner
