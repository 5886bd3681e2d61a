import KNex.Core.JsMap
import KNex.Core.Json
import KNex.Core.LTS
import KNex.Core.LeasedJob

/-!
# Outbox processor

`processNextPayloadOutboxEvent` (packages/payload-adapter/src/outbox-processor.ts) run by any number
of workers over one `k_nex_outbox` table. Every SQL statement is one step; between two statements of
a worker the others take theirs and the clock goes on. A worker stalls by taking no step. Which of
the eligible rows a statement gets is left open: `SKIP LOCKED` passes over the rows that a
concurrent statement has locked, and it may pass over all of them.

The rows are those of the migration, less the columns that processing never reads; `history` lists
what was done to which event, and is read by no step except that tokens are never drawn twice
(`randomUUID`).
-/
namespace KNex.Outbox

open KNex.Core LeasedJob

/-! ## The table -/

inductive Status where
  | pending | processing | delivered | deadLetter
  deriving DecidableEq, Repr

/-- mirrors packages/payload-adapter/src/event-outbox-schema-migration.ts:8-36 -/
structure Row where
  applicationId : String
  /-- `payload->>'environment'`. -/
  environment : Option String
  pluginId : String
  eventType : String
  status : Status
  attemptCount : Nat
  availableAt : Nat
  claimedAt : Option Nat
  leaseExpiresAt : Option Nat
  claimToken : Option String
  checkpoint : Option Json
  lastErrorCode : Option String
  deadLetteredAt : Option Nat
  processedAt : Option Nat
  deriving DecidableEq

/-- By `event_id`, which is unique. -/
abbrev Rows := JsMap String Row

/-- `claim_state_check` and `status_timestamps_check`.
mirrors packages/payload-adapter/src/event-outbox-schema-migration.ts:43-53 -/
def Row.Valid (row : Row) : Prop :=
  (if row.status = .processing
    then row.claimedAt.isSome ∧ row.leaseExpiresAt.isSome ∧ row.claimToken.isSome
    else row.claimedAt = none ∧ row.leaseExpiresAt = none ∧ row.claimToken = none) ∧
  (row.processedAt.isSome ↔ row.status = .delivered) ∧
  (row.deadLetteredAt.isSome ↔ row.status = .deadLetter)

/-- The row of an event that was just written.
mirrors packages/payload-adapter/src/transactional-outbox.ts:38-52 -/
def inserted (applicationId : String) (environment : Option String) (pluginId eventType : String)
    (now : Nat) : Row :=
  ⟨applicationId, environment, pluginId, eventType, .pending, 0, now, none, none, none, none, none,
    none, none⟩

/-! ## Workers -/

structure Consumer where
  applicationId : String
  environment : String
  pluginId : String
  eventTypes : List String
  deriving DecidableEq

/-- The options in which workers differ. -/
structure Options where
  leaseMs : Nat
  backoffMs : Nat
  consumer : Option Consumer
  deriving DecidableEq

structure ClaimedEvent where
  attemptCount : Nat
  eventId : String
  checkpoint : Option Json
  token : String
  deriving DecidableEq

inductive ResultStatus where
  | deadLettered | delivered | idle | leaseLost | retryScheduled
  deriving DecidableEq, Repr

structure Result where
  eventId : Option String
  status : ResultStatus
  deriving DecidableEq

/-- What a worker does next: the sweep, the claim, the subscriber, the statement after it. -/
inductive Phase where
  | sweeping
  | claiming
  | running
  | returned
  | threw
  | done (result : Result)
  deriving DecidableEq

structure Worker where
  options : Options
  claimed : Option ClaimedEvent
  phase : Phase
  deriving DecidableEq

def DELIVERY_ERROR_CODE : String := "DELIVERY_FAILED"

def MAX_DURATION_MS : Nat := 60 * 60 * 1000

/-- mirrors packages/payload-adapter/src/outbox-processor.ts:110-116 -/
def consumerPredicate (scope : Option Consumer) (row : Row) : Bool :=
  match scope with
  | none => true
  | some scope => row.applicationId = scope.applicationId &&
    row.environment = some scope.environment && row.pluginId = scope.pluginId &&
    scope.eventTypes.contains row.eventType

/-- `"lease_expires_at" <= now()`. -/
def Row.expired (row : Row) (now : Nat) : Bool := row.leaseExpiresAt.any (· ≤ now)

/-! ## Statements -/

/-- The candidates of `deadLetterExhaustedClaim`.
mirrors packages/payload-adapter/src/outbox-processor.ts:170-175 -/
def exhausted (maxAttempts now : Nat) (scope : Option Consumer) (row : Row) : Bool :=
  maxAttempts ≤ row.attemptCount &&
    (row.status = .pending || (row.status = .processing && row.expired now)) &&
    consumerPredicate scope row

/-- mirrors packages/payload-adapter/src/outbox-processor.ts:181-187 -/
def Row.buried (row : Row) (now : Nat) : Row :=
  { row with
    status := .deadLetter, lastErrorCode := some DELIVERY_ERROR_CODE, deadLetteredAt := some now,
    claimedAt := none, leaseExpiresAt := none, claimToken := none }

/-- The candidates of `claim`.
mirrors packages/payload-adapter/src/outbox-processor.ts:199-203 -/
def claimable (maxAttempts now : Nat) (scope : Option Consumer) (row : Row) : Bool :=
  row.attemptCount < maxAttempts &&
    ((row.status = .pending && row.availableAt ≤ now) ||
      (row.status = .processing && row.expired now)) &&
    consumerPredicate scope row

/-- mirrors packages/payload-adapter/src/outbox-processor.ts:209-212 -/
def Row.claimedBy (row : Row) (now leaseMs : Nat) (token : String) : Row :=
  { row with
    status := .processing, claimedAt := some now, leaseExpiresAt := some (now + leaseMs),
    claimToken := some token, attemptCount := row.attemptCount + 1 }

/-- `WHERE "event_id" = … AND "status" = 'processing' AND "claim_token" = …`. -/
def leased (claimed : ClaimedEvent) (rows : Rows) : Option Row :=
  (rows.get? claimed.eventId).filter fun row =>
    row.status = .processing && row.claimToken = some claimed.token

/-- An update of the row that the claim holds, and whether there was one.
mirrors packages/payload-adapter/src/outbox-processor.ts:220-223 -/
def updateWithLease (claimed : ClaimedEvent) (rows : Rows) (set : Row → Row) : Bool × Rows :=
  match leased claimed rows with
  | some row => (true, rows.set claimed.eventId (set row))
  | none => (false, rows)

/-- mirrors packages/payload-adapter/src/outbox-processor.ts:240-243 -/
def Row.checkpointed (row : Row) (now leaseMs : Nat) (value : Json) : Row :=
  { row with checkpoint := some value, leaseExpiresAt := some (now + leaseMs) }

/-- mirrors packages/payload-adapter/src/outbox-processor.ts:262-265 -/
def Row.markedDelivered (row : Row) (now : Nat) : Row :=
  { row with
    status := .delivered, processedAt := some now, claimedAt := none, leaseExpiresAt := none,
    claimToken := none, lastErrorCode := none }

/-- `hostNow` is the `new Date()` of the worker's own clock.
mirrors packages/payload-adapter/src/outbox-processor.ts:273-279 -/
def Row.failed (row : Row) (deadLetter : Bool) (now hostNow delay : Nat) : Row :=
  { row with
    status := if deadLetter then .deadLetter else .pending
    lastErrorCode := some DELIVERY_ERROR_CODE
    availableAt := now + if deadLetter then 0 else delay
    deadLetteredAt := if deadLetter then some hostNow else none
    claimedAt := none, leaseExpiresAt := none, claimToken := none }

/-! ## Runs -/

/-- `bounded` is what `boundedInteger` checks; `payloadOk` is `EventPayloadSchema`, which returns
what it accepts unchanged. -/
structure Host where
  maxAttempts : Nat
  bounded : 1 ≤ maxAttempts ∧ maxAttempts ≤ 20
  payloadOk : Json → Bool

structure St where
  now : Nat
  rows : Rows
  workers : List Worker
  history : List (String × Act String Json)

inductive Ev where
  | tick (now : Nat)
  | insert (eventId applicationId : String) (environment : Option String)
      (pluginId eventType : String)
  | begin (options : Options)
  /-- The sweep finds the event, or none. -/
  | sweep (w : Nat) (candidate : Option String)
  | claim (w : Nat) (candidate : Option String) (token : String)
  /-- The subscriber of `w`, or what it left behind, saves a checkpoint. -/
  | saveCheckpoint (w : Nat) (value : Json)
  /-- The subscriber returns, or something before the last statement throws. -/
  | settle (w : Nat) (ok : Bool)
  | finish (w : Nat) (hostNow : Nat)

/-- What was done to an event, in order. -/
def St.acts (s : St) (id : String) : List (Act String Json) :=
  s.history.filterMap fun e => if e.1 = id then some e.2 else none

def St.setWorker (s : St) (w : Nat) (worker : Worker) : St :=
  { s with workers := s.workers.set w worker }

/-- mirrors packages/payload-adapter/src/outbox-processor.ts:168-193 and 231-232 -/
def sweep (host : Host) (s : St) (w : Nat) (worker : Worker) : Option String → Option St
  | none => some (s.setWorker w { worker with phase := .claiming })
  | some id => do
    let row ← s.rows.get? id
    guard (exhausted host.maxAttempts s.now worker.options.consumer row)
    some { s.setWorker w { worker with phase := .done ⟨some id, .deadLettered⟩ } with
            rows := s.rows.set id (row.buried s.now)
            history := s.history ++ [(id, .sweep)] }

/-- mirrors packages/payload-adapter/src/outbox-processor.ts:195-218 and 233-234 -/
def claim (host : Host) (s : St) (w : Nat) (worker : Worker) (token : String) :
    Option String → Option St
  | none => some (s.setWorker w { worker with phase := .done ⟨none, .idle⟩ })
  | some id => do
    let row ← s.rows.get? id
    guard (claimable host.maxAttempts s.now worker.options.consumer row)
    guard (token ∉ tokens (s.history.map Prod.snd))
    let row' := row.claimedBy s.now worker.options.leaseMs token
    let claimed : ClaimedEvent := ⟨row'.attemptCount, id, row'.checkpoint, token⟩
    some { s.setWorker w { worker with claimed := some claimed, phase := .running } with
            rows := s.rows.set id row'
            history := s.history ++ [(id, .claim token row.checkpoint)] }

/-- The result of the call, and the table after it.
mirrors packages/payload-adapter/src/outbox-processor.ts:237-247 -/
def saveCheckpoint (host : Host) (now leaseMs : Nat) (claimed : ClaimedEvent) (value : Json)
    (rows : Rows) : Except String Unit × Rows :=
  if host.payloadOk value then
    match updateWithLease claimed rows (·.checkpointed now leaseMs value) with
    | (true, rows) => (.ok (), rows)
    | (false, rows) => (.error "Outbox lease was lost before checkpoint persistence.", rows)
  else (.error "ZodError", rows)

/-- The statement after the subscriber returned.
mirrors packages/payload-adapter/src/outbox-processor.ts:261-268 -/
def deliver (now : Nat) (claimed : ClaimedEvent) (rows : Rows) : ResultStatus × Rows :=
  match updateWithLease claimed rows (·.markedDelivered now) with
  | (true, rows) => (.delivered, rows)
  | (false, rows) => (.leaseLost, rows)

/-- The last attempt fails for good.
mirrors packages/payload-adapter/src/outbox-processor.ts:270 -/
def lastAttempt (host : Host) (claimed : ClaimedEvent) : Bool :=
  host.maxAttempts ≤ claimed.attemptCount

/-- The `catch` branch.
mirrors packages/payload-adapter/src/outbox-processor.ts:269-285 -/
def fail (host : Host) (now hostNow backoffMs : Nat) (claimed : ClaimedEvent) (rows : Rows) :
    ResultStatus × Rows :=
  let deadLetter := lastAttempt host claimed
  let delay := min (backoffMs * 2 ^ (claimed.attemptCount - 1)) MAX_DURATION_MS
  match updateWithLease claimed rows (·.failed deadLetter now hostNow delay) with
  | (true, rows) => (if deadLetter then .deadLettered else .retryScheduled, rows)
  | (false, rows) => (.leaseLost, rows)

/-- The act of a statement that found the row of the claim. -/
def actOf (claimed : ClaimedEvent) (rows : Rows) (act : Act String Json) :
    List (String × Act String Json) :=
  if (leased claimed rows).isSome then [(claimed.eventId, act)] else []

/-- What the last statement of a call does: `deliver` after a subscriber that returned, `fail`
after one that threw. -/
def finish (host : Host) (s : St) (hostNow : Nat) (worker : Worker) (claimed : ClaimedEvent) :
    Option ((ResultStatus × Rows) × Act String Json) :=
  match worker.phase with
  | .returned => some (deliver s.now claimed s.rows, .deliver claimed.token)
  | .threw => some (fail host s.now hostNow worker.options.backoffMs claimed s.rows,
      if lastAttempt host claimed then .bury claimed.token else .release claimed.token)
  | _ => none

def step (host : Host) (s : St) : Ev → Option St
  | .tick now => if s.now ≤ now then some { s with now := now } else none
  | .insert id applicationId environment pluginId eventType =>
    match s.rows.get? id with
    | some _ => none
    | none =>
      some { s with rows := s.rows.set id
                      (inserted applicationId environment pluginId eventType s.now) }
  | .begin options => some { s with workers := s.workers ++ [⟨options, none, .sweeping⟩] }
  | .sweep w candidate => do
    let worker ← s.workers[w]?
    guard (worker.phase = .sweeping)
    sweep host s w worker candidate
  | .claim w candidate token => do
    let worker ← s.workers[w]?
    guard (worker.phase = .claiming)
    claim host s w worker token candidate
  | .saveCheckpoint w value => do
    let worker ← s.workers[w]?
    let claimed ← worker.claimed
    some { s with
            rows := (saveCheckpoint host s.now worker.options.leaseMs claimed value s.rows).2
            history := s.history ++
              if host.payloadOk value then actOf claimed s.rows (.save claimed.token value)
              else [] }
  | .settle w ok => do
    let worker ← s.workers[w]?
    guard (worker.phase = .running ∨ (worker.phase = .returned ∧ ok = false))
    some (s.setWorker w { worker with phase := if ok then .returned else .threw })
  | .finish w hostNow => do
    let worker ← s.workers[w]?
    let claimed ← worker.claimed
    let ((status, rows), act) ← finish host s hostNow worker claimed
    some { s.setWorker w { worker with phase := .done ⟨some claimed.eventId, status⟩ } with
            rows := rows
            history := s.history ++ actOf claimed s.rows act }

/-- A table before the first event. -/
def initial (s : St) : Prop := s.rows = .empty ∧ s.workers = [] ∧ s.history = []

def lts (host : Host) : LTS St Ev := .ofFn initial (step host)

end KNex.Outbox
