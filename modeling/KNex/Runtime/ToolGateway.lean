import KNex.Core.LTS
import KNex.Core.Json

/-!
# `ToolExecutionGateway.execute`: who releases the lease, who ends the claim

`execute` (packages/runtime/src/tool-gateway.ts:251-340) awaits about a dozen stages, each of
which may return, throw or never settle, under two abort signals. It owns two resources: the
budget lease, released by the `finally` of the call until the handler is dispatched and by the
`finally` of the handler afterwards; and the idempotency claim, ended by `complete`, by
`fail()` (the key may be retried) or by `fail({ retain: true })`.

The model is one state with the main flow (`Pc`), the dispatched handler (`Handler`) and the
reconciliation that runs behind the handler (`Recon`), which outlives the main flow when the
race is lost to an abort. A step runs one of them from an `await` to the next; which one, and
what the awaited stage did, is the label. Code between two awaits that cannot be observed is at
places split in two steps (the input validator, the problem serializer, the last `finally`),
which only adds interleavings.

The values the stages exchange are kept as far as `execute` looks at them (the descriptor, the
replayed envelope, the errors); `acquired`, `releases` and `calls` are histories.

`execute_cleanup`: in every reachable state the lease was released at most once and not while
the handler runs, no `fail()` follows a dispatch, and when both flows have finished the lease
was released exactly once and the claim ended in exactly one of the three ways; and a state
that is not finished has a step towards the end (`rank`).
-/
namespace KNex.Runtime.ToolGateway

open KNex.Core

/-! ## Errors -/

/-- mirrors packages/runtime/src/tool-gateway.ts:145-155 -/
structure ToolGatewayError where
  code : String
  status : Nat
  title : String
  safeDetail : String := title
  deriving DecidableEq, Repr

/-- What a stage throws: a `ToolGatewayError`, or `none` for any other value. -/
abbrev Thrown := Option ToolGatewayError

/-- mirrors packages/runtime/src/tool-gateway.ts:201-205 -/
def normalizedError : Thrown → ToolGatewayError
  | some e => e
  | none => { code := "INTERNAL_ERROR", status := 500, title := "Tool request failed." }

/-- mirrors packages/runtime/src/tool-gateway.ts:229-233 -/
def abortedError (callerAborted : Bool) : ToolGatewayError :=
  if callerAborted then
    { code := "TOOL_CANCELLED", status := 499, title := "The tool request was cancelled." }
  else { code := "TOOL_TIMEOUT", status := 504, title := "The tool request timed out." }

def toolNotFound : ToolGatewayError :=
  { code := "TOOL_NOT_FOUND", status := 404, title := "Tool was not found." }

def auditUnavailable : ToolGatewayError :=
  { code := "AUDIT_UNAVAILABLE", status := 503, title := "Tool audit is unavailable." }

def resultInvalid : ToolGatewayError :=
  { code := "IDEMPOTENCY_RESULT_INVALID", status := 500, title := "The idempotent result is invalid." }

/-! ## Envelopes -/

/-- The fields of the `AgentToolDescriptor` that `execute` reads. -/
structure Descriptor where
  id : String
  version : Int
  deriving DecidableEq, Repr

/-- mirrors packages/runtime/src/tool-gateway.ts:288-295 -/
def successEnvelope (correlationId : String) (d : Descriptor) (data : Json) : Json :=
  .obj [("schemaVersion", .num 1), ("correlationId", .str correlationId),
    ("tool", .obj [("id", .str d.id), ("version", .num d.version)]),
    ("provenance", .str "k-nex-tool"), ("trust", .str "structured-untrusted-content"),
    ("data", data)]

def validCorrelation : Option Json → Bool
  | some (.str c) => 1 ≤ jsLength c ∧ jsLength c ≤ 128
  | _ => false

def sameTool (d : Descriptor) : Option Json → Bool
  | some tool => tool.get? "id" = some (.str d.id) ∧ tool.get? "version" = some (.num d.version)
  | none => false

/-- mirrors packages/runtime/src/tool-gateway.ts:211-227 -/
def replayEnvelope (value : Json) (d : Descriptor) : Except ToolGatewayError Json :=
  if ¬ value.isObject ∨ joinNul (sortStrings value.keys) ≠
      joinNul ["correlationId", "data", "provenance", "schemaVersion", "tool", "trust"] then
    .error resultInvalid
  else if value.get? "schemaVersion" ≠ some (.num 1) ∨
      value.get? "provenance" ≠ some (.str "k-nex-tool") ∨
      value.get? "trust" ≠ some (.str "structured-untrusted-content") ∨
      ¬ validCorrelation (value.get? "correlationId") ∨ ¬ sameTool d (value.get? "tool") then
    .error resultInvalid
  else .ok value

/-! ## State -/

/-- `ToolIdempotencyClaim`: a claim without a replay was acquired by this call. -/
structure Claim where
  replay : Option Json
  deriving DecidableEq, Repr

/-- A settled call of the claim; `complete` says whether it returned. -/
inductive ClaimCall where
  | complete (recorded : Bool)
  | fail
  | failRetain
  deriving DecidableEq, Repr

/-- The stages of `authorize`, in order.
mirrors packages/runtime/src/tool-gateway.ts:396-412 -/
inductive AuthorizeStage where
  | principal | agentClient | delegation | catalog | input | authorization | budget
  deriving DecidableEq, Repr

inductive Response where
  | ok (body : Json)
  | problem (e : ToolGatewayError)
  /-- the returned promise rejects: the serializer or the last release threw -/
  | rejected
  deriving DecidableEq

/-- What the main flow awaits. `leaving` stands before the `finally`. -/
inductive Pc where
  | authorize (stage : AuthorizeStage)
  | approval
  | claim
  | replayAudit (body : Json)
  | beforeDispatch
  | race
  | reconcile
  | failClaim (e : ToolGatewayError)
  | failAudit (e : ToolGatewayError)
  | respond (e : ToolGatewayError)
  | leaving (r : Response)
  | done (r : Response)
  deriving DecidableEq

/-- `handlerSettled`: `settling` is the `finally` that holds the lease. -/
inductive Handler where
  | idle
  | queued
  | running
  | settling (r : Except Thrown Json)
  | settled (r : Except Thrown Json)
  deriving DecidableEq

/-- `reconciliation`. -/
inductive Recon where
  | idle
  | waiting
  | redacting
  | completing (body : Json)
  | auditing (body : Json)
  | failing (e : Thrown)
  | finished (r : Except Thrown Json)
  deriving DecidableEq

structure St where
  pc : Pc
  descriptor : Descriptor
  lease : Bool
  claim : Option Claim
  dispatchStarted : Bool
  handler : Handler
  recon : Recon
  leaseAborted : Bool
  callerAborted : Bool
  /-- the rejection of the abort branch of the race -/
  raceAbort : Option ToolGatewayError
  acquired : Bool
  releases : Nat
  calls : List ClaimCall

/-- `beforeDispatch`: the audit decorator has the stage. -/
structure Cfg where
  correlationId : String
  beforeDispatch : Bool

def init (d : Descriptor) (callerAborted : Bool) : St where
  pc := .authorize .principal
  descriptor := d
  lease := false
  claim := none
  dispatchStarted := false
  handler := .idle
  recon := .idle
  leaseAborted := false
  callerAborted := callerAborted
  raceAbort := none
  acquired := false
  releases := 0
  calls := []

inductive Outcome where
  | returned
  | threw (e : Thrown)

/-- One label per await that settles. -/
inductive Ev where
  | abortCaller
  | abortLease
  /-- the stage awaited by the main flow, when its value is not looked at -/
  | stage (o : Outcome)
  | lookup (d : Option Descriptor)
  | claimed (c : Claim)
  | dispatchBegins
  | dispatchSettles (r : Except Thrown Json)
  | handlerReleases (o : Outcome)
  | raceSettles
  | raceAborts
  | validates (o : Outcome)
  | redacts (r : Except Thrown Json)
  | completes (o : Outcome)
  | audits (o : Outcome)
  | failSettles (o : Outcome)
  | reconciled
  | responds (threw : Bool)
  | leaves (threw : Bool)

def Ev.isAbort : Ev → Bool
  | .abortCaller | .abortLease => true
  | _ => false

/-! ## Steps -/

/-- The `catch` of `execute`, up to its first await.
mirrors packages/runtime/src/tool-gateway.ts:322-334 -/
def catchCause (s : St) (cause : Thrown) : St :=
  if s.dispatchStarted = false ∧ s.claim.isSome = true then
    { s with calls := s.calls ++ [.fail], pc := .failClaim (normalizedError cause) }
  else { s with pc := .failAudit (normalizedError cause) }

/-- The stage after a stage of `authorize`; the budget stage hands over the lease. -/
def authorizeNext (s : St) : AuthorizeStage → St
  | .principal => { s with pc := .authorize .agentClient }
  | .agentClient => { s with pc := .authorize .delegation }
  | .delegation => { s with pc := .authorize .catalog }
  | .catalog => { s with pc := .authorize .input }
  | .input => { s with pc := .authorize .authorization }
  | .authorization => { s with pc := .authorize .budget }
  | .budget => { s with pc := .approval, lease := true, acquired := true }

/-- From the claim to the next await.
mirrors packages/runtime/src/tool-gateway.ts:263-277 -/
def afterClaim (cfg : Cfg) (s : St) (c : Claim) : St :=
  let s := { s with claim := some c }
  if s.leaseAborted = true ∨ s.callerAborted = true then
    catchCause s (some (abortedError s.callerAborted))
  else match c.replay with
    | some value =>
      match replayEnvelope value s.descriptor with
      | .error e => catchCause s (some e)
      | .ok body => { s with pc := .replayAudit body }
    | none =>
      if cfg.beforeDispatch then { s with pc := .beforeDispatch }
      else catchCause s (some auditUnavailable)

/-- From the audit stage before the dispatch to the race: the handler takes the lease over.
mirrors packages/runtime/src/tool-gateway.ts:278-318, 235-249 -/
def afterBeforeDispatch (s : St) : St :=
  let s := { s with
    dispatchStarted := true, lease := false, handler := .queued, recon := .waiting }
  if s.leaseAborted = true then catchCause s (some (abortedError s.callerAborted))
  else { s with pc := .race }

/-- A stage of the main flow settles.
mirrors packages/runtime/src/tool-gateway.ts:255-277, 322-334 -/
def stageStep (s : St) (o : Outcome) : Option St :=
  match s.pc, o with
  | .authorize .catalog, .returned => none
  | .authorize stage, .returned => some (authorizeNext s stage)
  | .approval, .returned => some { s with pc := .claim }
  | .replayAudit body, .returned => some { s with pc := .leaving (.ok body) }
  | .beforeDispatch, .returned => some (afterBeforeDispatch s)
  | .authorize _, .threw e => some (catchCause s e)
  | .approval, .threw e => some (catchCause s e)
  | .claim, .threw e => some (catchCause s e)
  | .replayAudit _, .threw e => some (catchCause s e)
  | .beforeDispatch, .threw e => some (catchCause s e)
  | .failClaim e, _ => some { s with pc := .failAudit e }
  | .failAudit e, _ => some { s with pc := .respond e }
  | _, _ => none

/-- A step of the reconciliation.
mirrors packages/runtime/src/tool-gateway.ts:284-317 -/
def reconStep (cfg : Cfg) (s : St) : Ev → Option St
  | .validates o =>
    match s.recon, s.handler, o with
    | .waiting, .settled (.ok _), .returned => some { s with recon := .redacting }
    | .waiting, .settled (.ok _), .threw e => some { s with recon := .failing e }
    | .waiting, .settled (.error e), _ => some { s with recon := .failing e }
    | _, _, _ => none
  | .redacts r =>
    match s.recon, r with
    | .redacting, .ok data =>
      some { s with recon := .completing (successEnvelope cfg.correlationId s.descriptor data) }
    | .redacting, .error e => some { s with recon := .failing e }
    | _, _ => none
  | .completes o =>
    match s.recon, o with
    | .completing body, .returned =>
      some { s with recon := .auditing body, calls := s.calls ++ [.complete true] }
    | .completing _, .threw e =>
      some { s with recon := .failing e, calls := s.calls ++ [.complete false] }
    | _, _ => none
  | .audits o =>
    match s.recon, o with
    | .auditing body, .returned => some { s with recon := .finished (.ok body) }
    | .auditing _, .threw e => some { s with recon := .failing e }
    | _, _ => none
  | .failSettles _ =>
    match s.recon with
    | .failing e => some { s with recon := .finished (.error e), calls := s.calls ++ [.failRetain] }
    | _ => none
  | _ => none

/-- mirrors packages/runtime/src/tool-gateway.ts:251-340 -/
def step (cfg : Cfg) (s : St) : Ev → Option St
  | .abortCaller => some { s with callerAborted := true }
  | .abortLease =>
    if s.acquired = true ∧ s.leaseAborted = false then
      some { s with leaseAborted := true,
                    raceAbort := if s.pc = .race then some (abortedError s.callerAborted) else none }
    else none
  | .stage o => stageStep s o
  | .lookup d =>
    if s.pc = .authorize .catalog then
      match d with
      | some d => some (authorizeNext { s with descriptor := d } .catalog)
      | none => some (catchCause s (some toolNotFound))
    else none
  | .claimed c => if s.pc = .claim then some (afterClaim cfg s c) else none
  | .dispatchBegins =>
    if s.handler = .queued then some { s with handler := .running } else none
  | .dispatchSettles r =>
    if s.handler = .running then some { s with handler := .settling r } else none
  | .handlerReleases o =>
    match s.handler with
    | .settling r =>
      some { s with
        releases := s.releases + 1,
        handler := .settled (match o with | .returned => r | .threw e => .error e) }
    | _ => none
  | .raceSettles =>
    match s.pc, s.handler with
    | .race, .settled (.ok _) => some { s with pc := .reconcile }
    | .race, .settled (.error e) => some (catchCause s e)
    | _, _ => none
  | .raceAborts =>
    match s.pc, s.raceAbort with
    | .race, some e => some (catchCause s (some e))
    | _, _ => none
  | .reconciled =>
    match s.pc, s.recon with
    | .reconcile, .finished (.ok body) => some { s with pc := .leaving (.ok body) }
    | .reconcile, .finished (.error e) => some (catchCause s e)
    | _, _ => none
  | .responds threw =>
    match s.pc with
    | .respond e => some { s with pc := .leaving (if threw then .rejected else .problem e) }
    | _ => none
  | .leaves threw =>
    match s.pc with
    | .leaving r =>
      if s.lease = true then
        some { s with
          lease := false, pc := .done (if threw then .rejected else r), releases := s.releases + 1 }
      else some { s with pc := .done r }
    | _ => none
  | ev => reconStep cfg s ev

def lts (cfg : Cfg) : LTS St Ev := LTS.ofFn (fun s => ∃ d a, s = init d a) (step cfg)

/-! ## How a claim ends

The claim of a coordinator ignores every call after the first effective one (`if (settled)
return`), so a history of calls ends it in one way. -/

inductive ClaimOutcome where
  | open | completed | released | retained
  deriving DecidableEq, Repr

/-- mirrors packages/runtime/src/tool-idempotency.ts:207-228 -/
def settle : ClaimOutcome → ClaimCall → ClaimOutcome
  | .open, .complete true => .completed
  | .open, .complete false => .open
  | .open, .fail => .released
  | .open, .failRetain => .retained
  | o, _ => o

def claimOutcome (calls : List ClaimCall) : ClaimOutcome := calls.foldl settle .open

/-! ## Invariant -/

/-- The handler's `finally` will release the lease. -/
def Handler.holds : Handler → Bool
  | .queued | .running | .settling _ => true
  | _ => false

def Handler.isSettled : Handler → Bool
  | .settled _ => true
  | _ => false

/-- The calls of the claim that the reconciliation has made so far. -/
def ReconCalls (s : St) : Prop :=
  match s.recon with
  | .idle => False
  | .waiting => s.calls = []
  | .redacting => s.handler.isSettled = true ∧ s.calls = []
  | .completing _ => s.handler.isSettled = true ∧ s.calls = []
  | .auditing _ => s.handler.isSettled = true ∧ s.calls = [.complete true]
  | .failing _ => s.handler.isSettled = true ∧
      (s.calls = [] ∨ ∃ b, s.calls = [.complete b])
  | .finished (.ok _) => s.handler.isSettled = true ∧ s.calls = [.complete true]
  | .finished (.error _) => s.handler.isSettled = true ∧
      (s.calls = [.failRetain] ∨ ∃ b, s.calls = [.complete b, .failRetain])

/-- The part that does not look at the main flow: the lease is held in one place or was
released, and the handler's side works on an acquired claim. -/
structure Inv (s : St) : Prop where
  account : s.releases + s.lease.toNat + s.handler.holds.toNat = s.acquired.toNat
  idle : s.dispatchStarted = false → s.handler = .idle ∧ s.recon = .idle
  started : s.dispatchStarted = true → s.lease = false ∧ s.claim = some ⟨none⟩ ∧
    s.handler ≠ .idle ∧ ReconCalls s

/-- A call that never dispatched has given its claim back. -/
def GivenBack (s : St) : Prop := s.claim = some ⟨none⟩ → s.calls = [.fail]

/-- What the main flow has done, by what it awaits. -/
def Main (s : St) : Prop :=
  match s.pc with
  | .authorize _ => s.dispatchStarted = false ∧ s.lease = s.acquired ∧ s.acquired = false ∧
      s.claim = none ∧ s.calls = []
  | .approval | .claim => s.dispatchStarted = false ∧ s.lease = s.acquired ∧ s.acquired = true ∧
      s.claim = none ∧ s.calls = []
  | .replayAudit _ => s.dispatchStarted = false ∧ s.lease = s.acquired ∧
      s.claim ≠ some ⟨none⟩ ∧ s.calls = []
  | .beforeDispatch => s.dispatchStarted = false ∧ s.lease = s.acquired ∧ s.acquired = true ∧
      s.claim = some ⟨none⟩ ∧ s.calls = []
  | .race => s.dispatchStarted = true
  | .reconcile => s.dispatchStarted = true ∧ s.handler.isSettled = true
  | .failClaim _ | .failAudit _ | .respond _ | .leaving _ =>
      s.dispatchStarted = false → s.lease = s.acquired ∧ GivenBack s
  | .done _ => s.lease = false ∧ (s.dispatchStarted = false → GivenBack s)

theorem inv_init (d : Descriptor) (a : Bool) : Inv (init d a) ∧ Main (init d a) :=
  ⟨⟨rfl, fun _ => ⟨rfl, rfl⟩, fun h => by cases h⟩, rfl, rfl, rfl, rfl, rfl⟩

/-! ### The main flow -/

/-- The `catch` changes the claim's calls and the program counter only. -/
theorem catchCause_frame (s : St) (e : Thrown) :
    (catchCause s e).lease = s.lease ∧ (catchCause s e).claim = s.claim ∧
    (catchCause s e).dispatchStarted = s.dispatchStarted ∧
    (catchCause s e).handler = s.handler ∧ (catchCause s e).recon = s.recon ∧
    (catchCause s e).acquired = s.acquired ∧ (catchCause s e).releases = s.releases := by
  unfold catchCause; split <;> exact ⟨rfl, rfl, rfl, rfl, rfl, rfl, rfl⟩

/-- After the dispatch the `catch` leaves the claim to the reconciliation. -/
theorem catchCause_started {s : St} (h : s.dispatchStarted = true) (e : Thrown) :
    catchCause s e = { s with pc := .failAudit (normalizedError e) } := by
  unfold catchCause; rw [if_neg (by simp [h])]

theorem catchCause_inv {s : St} (I : Inv s)
    (h : s.dispatchStarted = false → s.lease = s.acquired ∧ s.calls = []) (e : Thrown) :
    Inv (catchCause s e) ∧ Main (catchCause s e) := by
  cases hd : s.dispatchStarted with
  | true =>
    rw [catchCause_started hd]
    exact ⟨⟨I.account, I.idle, I.started⟩, fun h' => by rw [hd] at h'; cases h'⟩
  | false =>
    obtain ⟨hl, hc⟩ := h hd
    unfold catchCause
    split
    · refine ⟨⟨I.account, I.idle, fun h' => by rw [hd] at h'; cases h'⟩, fun _ => ⟨hl, ?_⟩⟩
      intro _; simp [hc]
    · rename_i hn
      refine ⟨⟨I.account, I.idle, I.started⟩, fun _ => ⟨hl, ?_⟩⟩
      intro hclaim
      exact absurd ⟨hd, by simp only at hclaim; rw [hclaim]; rfl⟩ hn

theorem authorizeNext_inv {s : St} {stage : AuthorizeStage} (I : Inv s)
    (h : s.dispatchStarted = false ∧ s.lease = s.acquired ∧ s.acquired = false ∧
      s.claim = none ∧ s.calls = []) :
    Inv (authorizeNext s stage) ∧ Main (authorizeNext s stage) := by
  obtain ⟨hd, hl, ha, hc, hk⟩ := h
  cases stage with
  | budget =>
    obtain ⟨hh, hr⟩ := I.idle hd
    have hacc := I.account
    rw [hl, ha, hh] at hacc
    refine ⟨⟨?_, I.idle, fun h' => by simp only [authorizeNext] at h'; rw [hd] at h'; cases h'⟩,
      hd, rfl, rfl, hc, hk⟩
    simp only [authorizeNext, hh, Handler.holds, Bool.toNat_false, Bool.toNat_true] at hacc ⊢
    omega
  | _ => exact ⟨⟨I.account, I.idle, I.started⟩, hd, hl, ha, hc, hk⟩

theorem afterClaim_inv (cfg : Cfg) {s : St} (I : Inv s) (c : Claim)
    (h : s.dispatchStarted = false ∧ s.lease = s.acquired ∧ s.acquired = true ∧
      s.claim = none ∧ s.calls = []) :
    Inv (afterClaim cfg s c) ∧ Main (afterClaim cfg s c) := by
  obtain ⟨hd, hl, ha, -, hk⟩ := h
  have I' : Inv { s with claim := some c } :=
    ⟨I.account, I.idle, fun h' => by simp only at h'; rw [hd] at h'; cases h'⟩
  have hcatch := fun e => catchCause_inv I' (fun _ => ⟨hl, hk⟩) e
  unfold afterClaim
  dsimp only
  split
  · exact hcatch _
  · split
    · rename_i value hv
      split
      · exact hcatch _
      · refine ⟨⟨I'.account, I'.idle, I'.started⟩, hd, hl, ?_, hk⟩
        intro hn
        simp only [Option.some.injEq] at hn
        rw [hn] at hv; cases hv
    · rename_i hv
      split
      · obtain ⟨r⟩ := c
        cases hv
        exact ⟨⟨I'.account, I'.idle, I'.started⟩, hd, hl, ha, rfl, hk⟩
      · exact hcatch _

/-- The dispatch moves the lease from the main flow to the handler. -/
theorem afterBeforeDispatch_inv {s : St} (I : Inv s)
    (h : s.dispatchStarted = false ∧ s.lease = s.acquired ∧ s.acquired = true ∧
      s.claim = some ⟨none⟩ ∧ s.calls = []) :
    Inv (afterBeforeDispatch s) ∧ Main (afterBeforeDispatch s) := by
  obtain ⟨hd, hl, ha, hc, hk⟩ := h
  obtain ⟨hh, -⟩ := I.idle hd
  have hacc := I.account
  rw [hl, hh, ha] at hacc
  have I' : Inv { s with
      dispatchStarted := true, lease := false, handler := .queued, recon := .waiting } := by
    refine ⟨?_, (fun h' => by cases h'), fun _ => ⟨rfl, hc, (by intro h'; cases h'), hk⟩⟩
    simp only [Handler.holds, ha, Bool.toNat_false, Bool.toNat_true] at hacc ⊢
    omega
  unfold afterBeforeDispatch
  dsimp only
  split
  · exact catchCause_inv I' (fun h' => by cases h') _
  · exact ⟨⟨I'.account, I'.idle, I'.started⟩, rfl⟩

theorem stageStep_inv {s s' : St} {o : Outcome} (I : Inv s) (M : Main s)
    (hst : stageStep s o = some s') : Inv s' ∧ Main s' := by
  unfold stageStep at hst
  unfold Main at M
  split at hst
  · cases hst
  all_goals rename_i hpc
  all_goals try (simp only [hpc] at M)
  all_goals simp only [Option.some.injEq, reduceCtorEq] at hst
  all_goals subst hst
  · exact authorizeNext_inv I M
  · exact ⟨⟨I.account, I.idle, I.started⟩, M⟩
  · exact ⟨⟨I.account, I.idle, I.started⟩, fun _ => ⟨M.2.1, fun h => absurd h M.2.2.1⟩⟩
  · exact afterBeforeDispatch_inv I M
  · exact catchCause_inv I (fun _ => ⟨M.2.1, M.2.2.2.2⟩) _
  · exact catchCause_inv I (fun _ => ⟨M.2.1, M.2.2.2.2⟩) _
  · exact catchCause_inv I (fun _ => ⟨M.2.1, M.2.2.2.2⟩) _
  · exact catchCause_inv I (fun _ => ⟨M.2.1, M.2.2.2⟩) _
  · exact catchCause_inv I (fun _ => ⟨M.2.1, M.2.2.2.2⟩) _
  · exact ⟨⟨I.account, I.idle, I.started⟩, M⟩
  · exact ⟨⟨I.account, I.idle, I.started⟩, M⟩

/-! ### The handler and the reconciliation -/

/-- A step of the handler's side keeps the program counter's facts when it keeps what they
mention; only a dispatched call has a handler. -/
theorem main_of_started {s s' : St} (M : Main s) (hd : s.dispatchStarted = true)
    (hpc : s'.pc = s.pc) (hs : s'.dispatchStarted = s.dispatchStarted) (hl : s'.lease = s.lease)
    (hh : s.handler.isSettled = true → s'.handler.isSettled = true) : Main s' := by
  unfold Main at M ⊢
  rw [hpc]
  cases h : s.pc <;> simp only [h, hd, hs, hl, Bool.true_eq_false, false_and,
    false_implies, true_and, and_true] at M ⊢
  · exact hh M
  · exact M

theorem reconStep_frame {cfg : Cfg} {s s' : St} {ev : Ev} (h : reconStep cfg s ev = some s') :
    s'.pc = s.pc ∧ s'.lease = s.lease ∧ s'.claim = s.claim ∧
    s'.dispatchStarted = s.dispatchStarted ∧ s'.handler = s.handler ∧
    s'.acquired = s.acquired ∧ s'.releases = s.releases ∧ s.recon ≠ .idle := by
  unfold reconStep at h
  cases ev with
  | validates o =>
    simp only at h
    split at h <;> simp only [Option.some.injEq, reduceCtorEq] at h
    all_goals subst h; rename_i hr _; simp [hr]
  | redacts r =>
    simp only at h
    split at h <;> simp only [Option.some.injEq, reduceCtorEq] at h
    all_goals subst h; rename_i hr; simp [hr]
  | completes o =>
    simp only at h
    split at h <;> simp only [Option.some.injEq, reduceCtorEq] at h
    all_goals subst h; rename_i hr; simp [hr]
  | audits o =>
    simp only at h
    split at h <;> simp only [Option.some.injEq, reduceCtorEq] at h
    all_goals subst h; rename_i hr; simp [hr]
  | failSettles o =>
    simp only at h
    split at h <;> simp only [Option.some.injEq, reduceCtorEq] at h
    all_goals subst h; rename_i hr; simp [hr]
  | _ => cases h

/-- Each step of the reconciliation adds the call that the source makes there. -/
theorem reconStep_calls {cfg : Cfg} {s s' : St} {ev : Ev} (hr : ReconCalls s)
    (h : reconStep cfg s ev = some s') : ReconCalls s' := by
  unfold ReconCalls at hr
  unfold reconStep at h
  cases ev with
  | validates o =>
    simp only at h
    split at h <;> simp only [Option.some.injEq, reduceCtorEq] at h
    all_goals subst h; rename_i hrec hh; simp only [hrec] at hr
    · exact ⟨by simp [hh, Handler.isSettled], hr⟩
    · exact ⟨by simp [hh, Handler.isSettled], .inl hr⟩
    · exact ⟨by simp [hh, Handler.isSettled], .inl hr⟩
  | redacts r =>
    simp only at h
    split at h <;> simp only [Option.some.injEq, reduceCtorEq] at h
    all_goals subst h; rename_i hrec; simp only [hrec] at hr
    · exact hr
    · exact ⟨hr.1, .inl hr.2⟩
  | completes o =>
    simp only at h
    split at h <;> simp only [Option.some.injEq, reduceCtorEq] at h
    all_goals subst h; rename_i hrec; simp only [hrec] at hr
    · exact ⟨hr.1, by simp [hr.2]⟩
    · exact ⟨hr.1, .inr ⟨false, by simp [hr.2]⟩⟩
  | audits o =>
    simp only at h
    split at h <;> simp only [Option.some.injEq, reduceCtorEq] at h
    all_goals subst h; rename_i hrec; simp only [hrec] at hr
    · exact hr
    · exact ⟨hr.1, .inr ⟨true, hr.2⟩⟩
  | failSettles o =>
    simp only at h
    split at h <;> simp only [Option.some.injEq, reduceCtorEq] at h
    subst h; rename_i hrec; simp only [hrec] at hr
    refine ⟨hr.1, ?_⟩
    rcases hr.2 with hc | ⟨b, hc⟩
    · exact .inl (by simp [hc])
    · exact .inr ⟨b, by simp [hc]⟩
  | _ => cases h

theorem reconStep_inv {cfg : Cfg} {s s' : St} {ev : Ev} (I : Inv s) (M : Main s)
    (h : reconStep cfg s ev = some s') : Inv s' ∧ Main s' := by
  obtain ⟨hpc, hl, hc, hd, hh, ha, hrel, hrec⟩ := reconStep_frame h
  have hstarted : s.dispatchStarted = true := by
    cases hs : s.dispatchStarted with
    | true => rfl
    | false => exact absurd (I.idle hs).2 hrec
  obtain ⟨i1, i2, i3, i4⟩ := I.started hstarted
  refine ⟨⟨by rw [hrel, hl, hh, ha]; exact I.account, ?_, fun _ => ?_⟩,
    main_of_started M hstarted hpc hd hl (by rw [hh]; exact id)⟩
  · intro hs; rw [hd, hstarted] at hs; cases hs
  · rw [hl, hc, hh]; exact ⟨i1, i2, i3, reconStep_calls i4 h⟩

/-- The handler is dispatched once the call has started. -/
theorem started_of_handler {s : St} (I : Inv s) (h : s.handler ≠ .idle) :
    s.dispatchStarted = true := by
  cases hs : s.dispatchStarted with
  | true => rfl
  | false => exact absurd (I.idle hs).1 h

/-- A move of the handler that does not settle it yet. -/
theorem handler_inv {s : St} (I : Inv s) (M : Main s) {h : Handler} (hold : s.handler.holds = true)
    (hnew : h.holds = true) : Inv { s with handler := h } ∧ Main { s with handler := h } := by
  have hne : s.handler ≠ .idle := by intro e; rw [e] at hold; cases hold
  have hns : s.handler.isSettled = false := by cases hh : s.handler <;> simp [hh, Handler.holds,
    Handler.isSettled] at hold ⊢
  have hd := started_of_handler I hne
  obtain ⟨i1, i2, -, i4⟩ := I.started hd
  refine ⟨⟨?_, ?_, fun _ => ⟨i1, i2, ?_, ?_⟩⟩, main_of_started M hd rfl rfl rfl ?_⟩
  · have := I.account; simp only [hold] at this; simpa [hnew] using this
  · intro hs; simp only at hs; rw [hd] at hs; cases hs
  · intro e; simp only at e; rw [e] at hnew; cases hnew
  · unfold ReconCalls at i4 ⊢
    cases hr : s.recon with
    | waiting => simpa [hr] using i4
    | finished r => cases r <;> simp [hr, hns] at i4
    | _ => simp [hr, hns] at i4
  · intro hs; rw [hns] at hs; cases hs

/-- The `finally` of the handler releases the lease and settles it. -/
theorem handlerReleases_inv {s : St} (I : Inv s) (M : Main s) {r r' : Except Thrown Json}
    (hh : s.handler = .settling r) :
    Inv { s with releases := s.releases + 1, handler := .settled r' } ∧
    Main { s with releases := s.releases + 1, handler := .settled r' } := by
  have hd := started_of_handler I (by rw [hh]; simp)
  obtain ⟨i1, i2, -, i4⟩ := I.started hd
  refine ⟨⟨?_, ?_, fun _ => ⟨i1, i2, by simp, ?_⟩⟩, main_of_started M hd rfl rfl rfl fun _ => rfl⟩
  · have := I.account
    simp only [hh, Handler.holds, Bool.toNat_true, Bool.toNat_false] at this ⊢; omega
  · intro hs; simp only at hs; rw [hd] at hs; cases hs
  · unfold ReconCalls at i4 ⊢
    cases hr : s.recon with
    | finished r => cases r <;> simp [hr, hh, Handler.isSettled] at i4
    | _ => simp_all [Handler.isSettled]

theorem leaves_inv {s s' : St} {threw : Bool} {cfg : Cfg} (I : Inv s) (M : Main s)
    (hst : step cfg s (.leaves threw) = some s') : Inv s' ∧ Main s' := by
  simp only [step] at hst
  split at hst
  · rename_i r hpc
    simp only [Main, hpc] at M
    split at hst
    all_goals simp only [Option.some.injEq] at hst; subst hst; rename_i hl
    · have hd : s.dispatchStarted = false := by
        cases hs : s.dispatchStarted with
        | false => rfl
        | true => have := (I.started hs).1; rw [hl] at this; cases this
      have hacc := I.account
      rw [hl] at hacc
      refine ⟨⟨?_, I.idle, fun h => by simp only at h; rw [hd] at h; cases h⟩, rfl,
        fun _ => (M hd).2⟩
      simp only [Bool.toNat_true, Bool.toNat_false] at hacc ⊢; omega
    · exact ⟨⟨I.account, I.idle, I.started⟩, by simpa using hl, fun h => (M h).2⟩
  · cases hst

/-- The abort events touch only the flags. -/
theorem abort_inv {s : St} (I : Inv s) (M : Main s) (l c : Bool) (r : Option ToolGatewayError) :
    Inv { s with leaseAborted := l, callerAborted := c, raceAbort := r } ∧
    Main { s with leaseAborted := l, callerAborted := c, raceAbort := r } :=
  ⟨⟨I.account, I.idle, I.started⟩, M⟩

theorem inv_step (cfg : Cfg) (s : St) (ev : Ev) (s' : St) (I : Inv s ∧ Main s)
    (hst : step cfg s ev = some s') : Inv s' ∧ Main s' := by
  obtain ⟨I, M⟩ := I
  cases ev with
  | abortCaller =>
    simp only [step, Option.some.injEq] at hst; subst hst
    exact abort_inv I M s.leaseAborted true s.raceAbort
  | abortLease =>
    simp only [step] at hst
    split at hst <;> simp only [Option.some.injEq, reduceCtorEq] at hst
    subst hst
    exact abort_inv I M true s.callerAborted _
  | stage o => exact stageStep_inv I M hst
  | lookup d =>
    simp only [step] at hst
    split at hst
    · rename_i hpc
      simp only [Main, hpc] at M
      cases d with
      | some d =>
        simp only [Option.some.injEq] at hst; subst hst
        exact authorizeNext_inv (s := { s with descriptor := d })
          ⟨I.account, I.idle, I.started⟩ M
      | none =>
        simp only [Option.some.injEq] at hst; subst hst
        exact catchCause_inv I (fun _ => ⟨M.2.1, M.2.2.2.2⟩) _
    · cases hst
  | claimed c =>
    simp only [step] at hst
    split at hst
    · rename_i hpc
      simp only [Main, hpc] at M
      simp only [Option.some.injEq] at hst; subst hst
      exact afterClaim_inv cfg I c M
    · cases hst
  | dispatchBegins =>
    simp only [step] at hst
    split at hst <;> simp only [Option.some.injEq, reduceCtorEq] at hst
    subst hst; rename_i hh
    exact handler_inv I M (by rw [hh]; rfl) rfl
  | dispatchSettles r =>
    simp only [step] at hst
    split at hst <;> simp only [Option.some.injEq, reduceCtorEq] at hst
    subst hst; rename_i hh
    exact handler_inv I M (by rw [hh]; rfl) rfl
  | handlerReleases o =>
    simp only [step] at hst
    split at hst <;> simp only [Option.some.injEq, reduceCtorEq] at hst
    subst hst; rename_i hh
    exact handlerReleases_inv I M hh
  | raceSettles =>
    simp only [step] at hst
    split at hst <;> simp only [Option.some.injEq, reduceCtorEq] at hst
    all_goals subst hst; rename_i hpc hh; simp only [Main, hpc] at M
    · exact ⟨⟨I.account, I.idle, I.started⟩, M, by simp [hh, Handler.isSettled]⟩
    · exact catchCause_inv I (fun h => by rw [M] at h; cases h) _
  | raceAborts =>
    simp only [step] at hst
    split at hst <;> simp only [Option.some.injEq, reduceCtorEq] at hst
    subst hst; rename_i hpc _; simp only [Main, hpc] at M
    exact catchCause_inv I (fun h => by rw [M] at h; cases h) _
  | reconciled =>
    simp only [step] at hst
    split at hst <;> simp only [Option.some.injEq, reduceCtorEq] at hst
    all_goals subst hst; rename_i hpc _; simp only [Main, hpc] at M
    · exact ⟨⟨I.account, I.idle, I.started⟩, fun h => by simp only at h; rw [M.1] at h; cases h⟩
    · exact catchCause_inv I (fun h => by rw [M.1] at h; cases h) _
  | responds threw =>
    simp only [step] at hst
    split at hst <;> simp only [Option.some.injEq, reduceCtorEq] at hst
    subst hst; rename_i hpc; simp only [Main, hpc] at M
    exact ⟨⟨I.account, I.idle, I.started⟩, M⟩
  | leaves threw => exact leaves_inv I M hst
  | _ => simp only [step] at hst; exact reconStep_inv I M hst

theorem inv_inductive (cfg : Cfg) : (lts cfg).Inductive (fun s => Inv s ∧ Main s) where
  init := by rintro s ⟨d, a, rfl⟩; exact inv_init d a
  step := inv_step cfg

/-! ## Progress

Every step that is not an abort brings both flows closer to their ends, and a call that has not
finished has such a step. -/

/-- Both flows are over: the reconciliation outlives the main flow after an abort. -/
def Finished (s : St) : Prop :=
  (∃ r, s.pc = .done r) ∧ (s.dispatchStarted = true → ∃ r, s.recon = .finished r)

def AuthorizeStage.rank : AuthorizeStage → Nat
  | .principal => 6 | .agentClient => 5 | .delegation => 4 | .catalog => 3
  | .input => 2 | .authorization => 1 | .budget => 0

def Pc.rank : Pc → Nat
  | .authorize stage => 10 + stage.rank
  | .approval => 9 | .claim => 8 | .replayAudit _ => 7 | .beforeDispatch => 7
  | .race => 6 | .reconcile => 5 | .failClaim _ => 4 | .failAudit _ => 3
  | .respond _ => 2 | .leaving _ => 1 | .done _ => 0

def Handler.rank : Handler → Nat
  | .idle => 4 | .queued => 3 | .running => 2 | .settling _ => 1 | .settled _ => 0

def Recon.rank : Recon → Nat
  | .idle => 6 | .waiting => 5 | .redacting => 4 | .completing _ => 3 | .auditing _ => 2
  | .failing _ => 1 | .finished _ => 0

def rank (s : St) : Nat := s.pc.rank + s.handler.rank + s.recon.rank

theorem catchCause_rank (s : St) (e : Thrown) (h : 5 ≤ s.pc.rank) :
    rank (catchCause s e) < rank s := by
  unfold catchCause rank
  split
  · show 4 + s.handler.rank + s.recon.rank < _; omega
  · show 3 + s.handler.rank + s.recon.rank < _; omega

theorem afterClaim_rank (cfg : Cfg) (s : St) (c : Claim) (h : s.pc = .claim) :
    rank (afterClaim cfg s c) < rank s := by
  have hcatch := fun e => catchCause_rank { s with claim := some c } e (by simp [h, Pc.rank])
  unfold afterClaim
  dsimp only
  split
  · exact hcatch _
  · split
    · split
      · exact hcatch _
      · simp [rank, h, Pc.rank]
    · split
      · simp [rank, h, Pc.rank]
      · exact hcatch _

theorem afterBeforeDispatch_rank {s : St} (I : Inv s) (hd : s.dispatchStarted = false)
    (h : s.pc = .beforeDispatch) : rank (afterBeforeDispatch s) < rank s := by
  obtain ⟨hh, hr⟩ := I.idle hd
  unfold afterBeforeDispatch catchCause rank
  dsimp only
  split
  · simp [hh, hr, h, Pc.rank, Handler.rank, Recon.rank]
  · simp [hh, hr, h, Pc.rank, Handler.rank, Recon.rank]

theorem authorizeNext_rank (s : St) (stage : AuthorizeStage) (h : s.pc = .authorize stage) :
    rank (authorizeNext s stage) < rank s := by
  cases stage <;> simp [rank, authorizeNext, h, Pc.rank, AuthorizeStage.rank]

theorem stageStep_rank {s s' : St} {o : Outcome} (I : Inv s) (M : Main s)
    (hst : stageStep s o = some s') : rank s' < rank s := by
  unfold stageStep at hst
  split at hst
  · cases hst
  all_goals simp only [Option.some.injEq, reduceCtorEq] at hst
  all_goals subst hst; rename_i hpc
  · exact authorizeNext_rank s _ hpc
  · simp [rank, hpc, Pc.rank]
  · simp [rank, hpc, Pc.rank]
  · simp only [Main, hpc] at M
    exact afterBeforeDispatch_rank I M.1 hpc
  · exact catchCause_rank s _ (by rw [hpc]; simp only [Pc.rank]; omega)
  · exact catchCause_rank s _ (by rw [hpc]; decide)
  · exact catchCause_rank s _ (by rw [hpc]; decide)
  · exact catchCause_rank s _ (by rw [hpc]; simp [Pc.rank])
  · exact catchCause_rank s _ (by rw [hpc]; decide)
  · simp [rank, hpc, Pc.rank]
  · simp [rank, hpc, Pc.rank]

theorem reconStep_rank {cfg : Cfg} {s s' : St} {ev : Ev} (h : reconStep cfg s ev = some s') :
    rank s' < rank s := by
  obtain ⟨hpc, -, -, -, hh, -, -, -⟩ := reconStep_frame h
  have hr : s'.recon.rank < s.recon.rank := by
    unfold reconStep at h
    cases ev with
    | validates o =>
      simp only at h
      split at h <;> simp only [Option.some.injEq, reduceCtorEq] at h
      all_goals subst h; rename_i hr _; simp [hr, Recon.rank]
    | redacts r =>
      simp only at h
      split at h <;> simp only [Option.some.injEq, reduceCtorEq] at h
      all_goals subst h; rename_i hr; simp [hr, Recon.rank]
    | completes o =>
      simp only at h
      split at h <;> simp only [Option.some.injEq, reduceCtorEq] at h
      all_goals subst h; rename_i hr; simp [hr, Recon.rank]
    | audits o =>
      simp only at h
      split at h <;> simp only [Option.some.injEq, reduceCtorEq] at h
      all_goals subst h; rename_i hr; simp [hr, Recon.rank]
    | failSettles o =>
      simp only at h
      split at h <;> simp only [Option.some.injEq, reduceCtorEq] at h
      subst h; rename_i hr; simp [hr, Recon.rank]
    | _ => cases h
  unfold rank; rw [hpc, hh]; omega

/-- **Termination.** Apart from the two aborts, a step of a reachable state lowers the rank, so
a call settles at most twenty-six awaits. -/
theorem step_rank (cfg : Cfg) (s : St) (hr : (lts cfg).Reachable s) (ev : Ev) (s' : St)
    (ha : ev.isAbort = false) (hst : step cfg s ev = some s') : rank s' < rank s := by
  obtain ⟨I, M⟩ := (inv_inductive cfg).reachable s hr
  cases ev with
  | abortCaller => cases ha
  | abortLease => cases ha
  | stage o => exact stageStep_rank I M hst
  | lookup d =>
    simp only [step] at hst
    split at hst
    · rename_i hpc
      cases d with
      | some d =>
        simp only [Option.some.injEq] at hst; subst hst
        exact authorizeNext_rank { s with descriptor := d } _ hpc
      | none =>
        simp only [Option.some.injEq] at hst; subst hst
        exact catchCause_rank s _ (by rw [hpc]; decide)
    · cases hst
  | claimed c =>
    simp only [step] at hst
    split at hst
    · rename_i hpc
      simp only [Option.some.injEq] at hst; subst hst
      exact afterClaim_rank cfg s c hpc
    · cases hst
  | dispatchBegins =>
    simp only [step] at hst
    split at hst <;> simp only [Option.some.injEq, reduceCtorEq] at hst
    subst hst; rename_i hh; simp [rank, hh, Handler.rank]
  | dispatchSettles r =>
    simp only [step] at hst
    split at hst <;> simp only [Option.some.injEq, reduceCtorEq] at hst
    subst hst; rename_i hh; simp [rank, hh, Handler.rank]
  | handlerReleases o =>
    simp only [step] at hst
    split at hst <;> simp only [Option.some.injEq, reduceCtorEq] at hst
    subst hst; rename_i hh; simp [rank, hh, Handler.rank]
  | raceSettles =>
    simp only [step] at hst
    split at hst <;> simp only [Option.some.injEq, reduceCtorEq] at hst
    all_goals subst hst; rename_i hpc _
    · simp [rank, hpc, Pc.rank]
    · exact catchCause_rank s _ (by rw [hpc]; decide)
  | raceAborts =>
    simp only [step] at hst
    split at hst <;> simp only [Option.some.injEq, reduceCtorEq] at hst
    subst hst; rename_i hpc _
    exact catchCause_rank s _ (by rw [hpc]; decide)
  | reconciled =>
    simp only [step] at hst
    split at hst <;> simp only [Option.some.injEq, reduceCtorEq] at hst
    all_goals subst hst; rename_i hpc _
    · simp [rank, hpc, Pc.rank]
    · exact catchCause_rank s _ (by rw [hpc]; decide)
  | responds threw =>
    simp only [step] at hst
    split at hst <;> simp only [Option.some.injEq, reduceCtorEq] at hst
    subst hst; rename_i hpc; simp [rank, hpc, Pc.rank]
  | leaves threw =>
    simp only [step] at hst
    split at hst
    · rename_i hpc
      split at hst <;> simp only [Option.some.injEq] at hst <;> subst hst <;>
        simp [rank, hpc, Pc.rank]
    · cases hst
  | _ => simp only [step] at hst; exact reconStep_rank hst

/-- The handler's side of a dispatched call is never stuck. -/
theorem recon_progress (cfg : Cfg) {s : St} (I : Inv s) (hd : s.dispatchStarted = true)
    (hf : ∀ r, s.recon ≠ .finished r) : ∃ ev s', ev.isAbort = false ∧ step cfg s ev = some s' := by
  obtain ⟨-, -, hne, hr⟩ := I.started hd
  unfold ReconCalls at hr
  cases hh : s.handler with
  | idle => exact absurd hh hne
  | queued => exact ⟨.dispatchBegins, _, rfl, by simp [step, hh]; rfl⟩
  | running => exact ⟨.dispatchSettles (.error none), _, rfl, by simp [step, hh]; rfl⟩
  | settling r => exact ⟨.handlerReleases .returned, _, rfl, by simp [step, hh]; rfl⟩
  | settled r =>
    cases hrec : s.recon with
    | idle => simp [hrec] at hr
    | waiting =>
      cases r with
      | ok d => exact ⟨.validates .returned, _, rfl, by simp [step, reconStep, hh, hrec]; rfl⟩
      | error e => exact ⟨.validates .returned, _, rfl, by simp [step, reconStep, hh, hrec]; rfl⟩
    | redacting => exact ⟨.redacts (.error none), _, rfl, by simp [step, reconStep, hrec]; rfl⟩
    | completing b => exact ⟨.completes .returned, _, rfl, by simp [step, reconStep, hrec]; rfl⟩
    | auditing b => exact ⟨.audits .returned, _, rfl, by simp [step, reconStep, hrec]; rfl⟩
    | failing e => exact ⟨.failSettles .returned, _, rfl, by simp [step, reconStep, hrec]; rfl⟩
    | finished r => exact absurd hrec (hf r)

theorem progress (cfg : Cfg) {s : St} (I : Inv s) (M : Main s) (hf : ¬ Finished s) :
    ∃ ev s', ev.isAbort = false ∧ step cfg s ev = some s' := by
  by_cases hd : s.dispatchStarted = true ∧ ∀ r, s.recon ≠ .finished r
  · exact recon_progress cfg I hd.1 hd.2
  have hrec : s.dispatchStarted = true → ∃ r, s.recon = .finished r := by
    intro h; by_contra hn; exact hd ⟨h, fun r hr => hn ⟨r, hr⟩⟩
  unfold Main at M
  cases hpc : s.pc with
  | authorize stage =>
    by_cases hc : stage = .catalog
    · subst hc
      exact ⟨.lookup (some s.descriptor), _, rfl, by simp [step, hpc]; rfl⟩
    · exact ⟨.stage .returned, authorizeNext s stage, rfl, by
        simp only [step, stageStep, hpc]⟩
  | approval => exact ⟨.stage .returned, _, rfl, by simp [step, stageStep, hpc]; rfl⟩
  | claim => exact ⟨.claimed ⟨none⟩, _, rfl, by simp [step, hpc]; rfl⟩
  | replayAudit b => exact ⟨.stage .returned, _, rfl, by simp [step, stageStep, hpc]; rfl⟩
  | beforeDispatch => exact ⟨.stage .returned, _, rfl, by simp [step, stageStep, hpc]; rfl⟩
  | race =>
    simp only [hpc] at M
    obtain ⟨-, -, hne, hr⟩ := I.started M
    obtain ⟨r, hr'⟩ := hrec M
    have hset : s.handler.isSettled = true := by
      unfold ReconCalls at hr
      cases r <;> simp only [hr'] at hr <;> exact hr.1
    cases hh : s.handler with
    | settled r =>
      cases r with
      | ok d => exact ⟨.raceSettles, _, rfl, by simp [step, hpc, hh]; rfl⟩
      | error e => exact ⟨.raceSettles, _, rfl, by simp [step, hpc, hh]; rfl⟩
    | _ => rw [hh] at hset; cases hset
  | reconcile =>
    simp only [hpc] at M
    obtain ⟨r, hr⟩ := hrec M.1
    cases r with
    | ok b => exact ⟨.reconciled, _, rfl, by simp [step, hpc, hr]; rfl⟩
    | error e => exact ⟨.reconciled, _, rfl, by simp [step, hpc, hr]; rfl⟩
  | failClaim e => exact ⟨.stage .returned, _, rfl, by simp [step, stageStep, hpc]; rfl⟩
  | failAudit e => exact ⟨.stage .returned, _, rfl, by simp [step, stageStep, hpc]; rfl⟩
  | respond e => exact ⟨.responds false, _, rfl, by simp [step, hpc]; rfl⟩
  | leaving r =>
    cases hl : s.lease with
    | true => exact ⟨.leaves false, _, rfl, by simp [step, hpc, hl]; rfl⟩
    | false => exact ⟨.leaves false, _, rfl, by simp [step, hpc, hl]; rfl⟩
  | done r => exact absurd ⟨⟨r, hpc⟩, hrec⟩ hf

/-! ## Headline properties -/

/-- The ways an acquired claim ends: completed by the reconciliation, given back by a call that
never dispatched, or retained because the outcome of the dispatch is not recorded. -/
def ClaimEnded (s : St) : Prop :=
  (claimOutcome s.calls = .completed ∧ s.dispatchStarted = true ∧
    ClaimCall.complete true ∈ s.calls) ∨
  (claimOutcome s.calls = .released ∧ s.dispatchStarted = false ∧ s.calls = [.fail]) ∨
  (claimOutcome s.calls = .retained ∧ s.dispatchStarted = true ∧
    ClaimCall.failRetain ∈ s.calls ∧ ClaimCall.complete true ∉ s.calls)

/-- What holds of lease and claim while a call is under way, and when it has finished. -/
structure Cleanup (s : St) : Prop where
  once : s.releases ≤ s.acquired.toNat
  after_handler : s.dispatchStarted = true → 0 < s.releases → s.handler.isSettled = true
  no_retry : s.dispatchStarted = true → ClaimCall.fail ∉ s.calls
  released : Finished s → s.releases = s.acquired.toNat
  claim : Finished s → s.claim = some ⟨none⟩ → ClaimEnded s

theorem reconCalls_no_fail {s : St} (h : ReconCalls s) : ClaimCall.fail ∉ s.calls := by
  unfold ReconCalls at h
  cases hr : s.recon with
  | finished r =>
    cases r with
    | ok b => simp only [hr] at h; simp [h.2]
    | error e =>
      simp only [hr] at h
      rcases h.2 with hc | ⟨b, hc⟩ <;> simp [hc]
  | failing e =>
    simp only [hr] at h
    rcases h.2 with hc | ⟨b, hc⟩ <;> simp [hc]
  | idle => simp [hr] at h
  | waiting => simp only [hr] at h; simp [h]
  | redacting => simp only [hr] at h; simp [h.2]
  | completing b => simp only [hr] at h; simp [h.2]
  | auditing b => simp only [hr] at h; simp [h.2]

/-- A finished reconciliation completed the claim or retained it. -/
theorem reconCalls_ended {s : St} (hd : s.dispatchStarted = true) (h : ReconCalls s)
    {r : Except Thrown Json} (hr : s.recon = .finished r) : ClaimEnded s := by
  unfold ReconCalls at h
  cases r with
  | ok b => simp only [hr] at h; exact .inl ⟨by rw [h.2]; rfl, hd, by simp [h.2]⟩
  | error e =>
    simp only [hr] at h
    rcases h.2 with hc | ⟨b, hc⟩
    · exact .inr (.inr ⟨by rw [hc]; rfl, hd, by simp [hc], by simp [hc]⟩)
    · cases b with
      | true => exact .inl ⟨by rw [hc]; rfl, hd, by simp [hc]⟩
      | false => exact .inr (.inr ⟨by rw [hc]; rfl, hd, by simp [hc], by simp [hc]⟩)

theorem cleanup_of_inv {s : St} (I : Inv s) (M : Main s) : Cleanup s where
  once := by have := I.account; omega
  after_handler := by
    intro hd hpos
    obtain ⟨-, -, hne, -⟩ := I.started hd
    have hacc := I.account
    have hle : s.acquired.toNat ≤ 1 := Bool.toNat_le _
    cases hh : s.handler with
    | idle => exact absurd hh hne
    | settled r => rfl
    | _ => simp only [hh, Handler.holds, Bool.toNat_true] at hacc; omega
  no_retry := fun hd => reconCalls_no_fail (I.started hd).2.2.2
  released := by
    rintro ⟨⟨r, hpc⟩, hrec⟩
    simp only [Main, hpc] at M
    have hacc := I.account
    have hh : s.handler.holds = false := by
      cases hd : s.dispatchStarted with
      | false => rw [(I.idle hd).1]; rfl
      | true =>
        obtain ⟨-, -, -, hc⟩ := I.started hd
        obtain ⟨r, hr⟩ := hrec hd
        unfold ReconCalls at hc
        have hset : s.handler.isSettled = true := by
          cases r <;> simp only [hr] at hc <;> exact hc.1
        cases hh : s.handler <;> simp_all [Handler.isSettled, Handler.holds]
    rw [M.1, hh] at hacc; simpa using hacc
  claim := by
    rintro ⟨⟨r, hpc⟩, hrec⟩ hcl
    simp only [Main, hpc] at M
    cases hd : s.dispatchStarted with
    | true =>
      obtain ⟨r, hr⟩ := hrec hd
      exact reconCalls_ended hd (I.started hd).2.2.2 hr
    | false => exact .inr (.inl ⟨by rw [M.2 hd hcl]; rfl, hd, M.2 hd hcl⟩)

/-- **Cleanup of a tool execution.** In every reachable state of `execute`, for all outcomes of
the stages and all abort times: the lease was released at most once, and after a dispatch only
once the handler had settled; the claim is not given back after a dispatch; when both flows
have finished, an acquired lease was released exactly once and an acquired claim ended in
exactly one way; and until then the call can go on, towards its end. -/
theorem execute_cleanup (cfg : Cfg) (s : St) (hr : (lts cfg).Reachable s) :
    Cleanup s ∧ (Finished s ∨
      ∃ ev s', ev.isAbort = false ∧ step cfg s ev = some s' ∧ rank s' < rank s) := by
  obtain ⟨I, M⟩ := (inv_inductive cfg).reachable s hr
  refine ⟨cleanup_of_inv I M, ?_⟩
  by_cases hf : Finished s
  · exact .inl hf
  · obtain ⟨ev, s', ha, hst⟩ := progress cfg I M hf
    exact .inr ⟨ev, s', ha, hst, step_rank cfg s hr ev s' ha hst⟩

/-- A write that times out while its handler runs: the response is out before the handler
settles, the lease is released after it, and the late result completes the claim. -/
def traceLate : List Ev :=
  [.stage .returned, .stage .returned, .stage .returned, .lookup (some ⟨"sales.task", 1⟩),
   .stage .returned, .stage .returned, .stage .returned, .stage .returned, .claimed ⟨none⟩,
   .stage .returned, .dispatchBegins, .abortLease, .raceAborts, .stage .returned,
   .responds false, .leaves false, .dispatchSettles (.ok .null), .handlerReleases .returned,
   .validates .returned, .redacts (.ok .null), .completes .returned, .audits .returned]

def cfgEx : Cfg := ⟨"correlation-1", true⟩

theorem execute_cleanup_late : ∃ s, (lts cfgEx).Reachable s ∧ Cleanup s ∧ Finished s ∧
    s.releases = 1 ∧ s.calls = [.complete true] ∧
    s.pc = .done (.problem (abortedError false)) := by
  have hrun : LTS.exec (step cfgEx) (init ⟨"sales.task", 1⟩ false) traceLate = some _ := rfl
  have hr : (lts cfgEx).Reachable _ :=
    LTS.Reachable.run (.init ⟨_, _, rfl⟩) (LTS.run_of_exec hrun)
  exact ⟨_, hr, (execute_cleanup cfgEx _ hr).1, ⟨⟨_, rfl⟩, fun _ => ⟨_, rfl⟩⟩, rfl, rfl, rfl⟩

end KNex.Runtime.ToolGateway
