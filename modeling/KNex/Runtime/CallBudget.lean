import KNex.Core.Except
import KNex.Core.JsMap
import KNex.Core.Json
import KNex.Core.LTS
import KNex.Core.TokenBucket

/-!
# Call budgets of tools and data sources

`BoundedToolRiskBudgetEvaluator` of `packages/runtime/src/tool-budget.ts` and
`BoundedQueryBudgetEvaluator` of `packages/runtime/src/data-source-budget.ts`. Each admits a call
after checks on the call itself, a check of the calls of its key that are still active, and a
token bucket of its key; the lease it returns takes the call off the active ones when it is
released. The two keep the same maps and move them in the same way, which is the `Meter` here; the
checks before it differ, and the tool evaluator also counts the calls of an agent run.

Numbers are exact. A clock reading is any rational, so readings may repeat or step backwards; a
reading that is no number is left out, and so are the signals with their timeouts. What
`JSON.stringify` prints is taken for its length in bytes, a parameter.

Beside the maps the meter keeps a log of the consultations of the buckets, which nothing reads.
-/
namespace KNex.Runtime.CallBudget

open KNex.Core KNex.Core.TokenBucket

/-! ## Limits -/

inductive DataSourceCostClass where
  | low | medium | high
  deriving DecidableEq, Repr

structure ClassCeiling where
  concurrency : Nat
  ratePerMinute : Nat
  baseCost : Nat

/-- mirrors packages/runtime/src/tool-budget.ts:15-19, packages/runtime/src/data-source-budget.ts:20-24 -/
def classCeilings : DataSourceCostClass → ClassCeiling
  | .low => ⟨64, 600, 1⟩
  | .medium => ⟨16, 300, 5⟩
  | .high => ⟨4, 60, 10⟩

/-- What a call is held to: the concurrency, the rate per minute and the burst. -/
structure RateLimits where
  concurrency : Nat
  rate : Nat
  capacity : Nat
  deriving DecidableEq, Repr

/-- Tokens per millisecond. -/
def RateLimits.perMs (limits : RateLimits) : ℚ := limits.rate / 60000

/-! ## The maps of an evaluator -/

/-- The closure of a lease: the key, and the variable that says whether it was released. -/
structure Lease where
  key : String
  released : Bool
  deriving DecidableEq, Repr

/-- One consultation of a bucket. -/
structure Consult where
  key : String
  limits : RateLimits
  now : ℚ
  admitted : Bool
  deriving DecidableEq, Repr

structure Meter where
  active : JsMap String Int
  buckets : JsMap String (Bucket ℚ)
  leases : List Lease
  log : List Consult

def Meter.empty : Meter := ⟨.empty, .empty, [], []⟩

/-- `this.active.get(key) ?? 0`. -/
def Meter.current (m : Meter) (key : String) : Int := (m.active.get? key).getD 0

/-- The bucket of the key is asked for a token, and an admitted call becomes active.
mirrors packages/runtime/src/tool-budget.ts:97-106, packages/runtime/src/data-source-budget.ts:185-193 -/
def charge (limits : RateLimits) (key : String) (now : ℚ) (m : Meter) : Bool × Meter :=
  let previous := (m.buckets.get? key).getD (.fresh limits.capacity now)
  let asked := previous.consult (limits.capacity : ℚ) limits.perMs now
  let buckets := m.buckets.set key asked.2
  let log := m.log ++ [⟨key, limits, now, asked.1⟩]
  if asked.1 then
    (true, { buckets, log
             active := m.active.set key (m.current key + 1)
             leases := m.leases ++ [⟨key, false⟩] })
  else (false, { m with buckets, log })

/-- mirrors packages/runtime/src/tool-budget.ts:115-121, packages/runtime/src/data-source-budget.ts:197-203 -/
def release (lease : Nat) (m : Meter) : Meter :=
  match m.leases[lease]? with
  | none => m
  | some l =>
    if l.released then m
    else
      let remaining := (m.active.get? l.key).getD 1 - 1
      { m with
        leases := m.leases.set lease { l with released := true }
        active := if remaining ≤ 0 then m.active.delete l.key
          else m.active.set l.key remaining }

/-! ## Depth of JSON -/

mutual

/-- mirrors packages/runtime/src/tool-budget.ts:58-68, packages/runtime/src/data-source-budget.ts:56-65 -/
def jsonDepth : Json → Nat
  | .arr xs => max 1 (depthItems xs)
  | .obj fields => max 1 (depthFields fields)
  | _ => 0

def depthItems : List Json → Nat
  | [] => 0
  | x :: xs => max (1 + jsonDepth x) (depthItems xs)

def depthFields : List (String × Json) → Nat
  | [] => 0
  | (_, x) :: fields => max (1 + jsonDepth x) (depthFields fields)

end

/-! ## Tools -/

namespace Tool

/-- mirrors packages/runtime/src/tool-budget.ts:5-13 -/
structure Ceilings where
  inputBytes : Nat := 1048576
  depth : Nat := 8
  concurrency : Nat := 64
  ratePerMinute : Nat := 600
  burst : Nat := 60
  maxCallsPerRun : Nat := 100

def toolBudgetCeilings : Ceilings := {}

inductive ErrorCode where
  | cancelled | inputDepthExceeded | inputTooLarge | costExceeded | contextInvalid
  | runLimitExceeded | concurrencyExceeded | rateExceeded
  deriving DecidableEq, Repr

/-- The detail is the same for every code. -/
structure ToolGatewayError where
  code : ErrorCode
  status : Nat := 429
  deriving DecidableEq, Repr

structure Limits where
  maxConcurrency : Nat
  ratePerMinute : Nat
  burst : Nat
  costClass : DataSourceCostClass
  maxCost : Nat
  deriving DecidableEq, Repr

structure AgentToolDescriptor where
  id : String
  version : String
  limits : Limits
  deriving DecidableEq, Repr

structure ToolBudgetScope where
  principalId : String
  agentRunId : String
  deriving DecidableEq, Repr

/-- What a call brings, with what the scope resolver answers for it. -/
structure Context where
  aborted : Bool
  input : Json
  descriptor : AgentToolDescriptor
  scope : ToolBudgetScope

/-- `/^[A-Za-z0-9][A-Za-z0-9._:-]*$/` within 128 characters.
mirrors packages/runtime/src/tool-budget.ts:43-45 -/
def validId (value : String) : Bool :=
  match value.toList with
  | [] => false
  | c :: cs => c.isAlphanum && decide (cs.length < 128) &&
      cs.all fun c => c.isAlphanum || ['.', '_', ':', '-'].contains c

/-- A call that passed the checks before the clock is read. -/
structure Ticket where
  key : String
  runKey : String
  calls : Nat
  limits : RateLimits

structure State where
  meter : Meter
  runCalls : JsMap String Nat

def State.empty : State := ⟨.empty, .empty⟩

structure ToolBudgetLease where
  principalId : String
  agentRunId : String
  cost : Nat
  lease : Nat
  deriving DecidableEq, Repr

variable (jsonBytes : Json → Nat)

/-- mirrors packages/runtime/src/tool-budget.ts:90, 95-96 -/
def effectiveLimits (limits : Limits) : RateLimits where
  concurrency := min (min limits.maxConcurrency (classCeilings limits.costClass).concurrency)
    toolBudgetCeilings.concurrency
  rate := min (min limits.ratePerMinute (classCeilings limits.costClass).ratePerMinute)
    toolBudgetCeilings.ratePerMinute
  capacity := min limits.burst toolBudgetCeilings.burst

/-- mirrors packages/runtime/src/tool-budget.ts:78-92 -/
def check (context : Context) (s : State) : Except ToolGatewayError Ticket := do
  failIf (context.aborted = true) { code := .cancelled, status := 499 }
  failIf (jsonDepth context.input > toolBudgetCeilings.depth)
    { code := .inputDepthExceeded, status := 400 }
  failIf (jsonBytes context.input > toolBudgetCeilings.inputBytes)
    { code := .inputTooLarge, status := 413 }
  let descriptor := context.descriptor
  let classLimit := classCeilings descriptor.limits.costClass
  failIf (classLimit.baseCost > descriptor.limits.maxCost) { code := .costExceeded }
  let scope := context.scope
  failIf (!validId scope.principalId ∨ !validId scope.agentRunId)
    { code := .contextInvalid, status := 401 }
  let key := joinNul [scope.principalId, descriptor.id, descriptor.version]
  let runKey := joinNul [scope.principalId, scope.agentRunId]
  let calls := (s.runCalls.get? runKey).getD 0
  failIf (calls ≥ toolBudgetCeilings.maxCallsPerRun) { code := .runLimitExceeded }
  let limits := effectiveLimits descriptor.limits
  failIf (s.meter.current key ≥ limits.concurrency) { code := .concurrencyExceeded }
  return { key, runKey, calls, limits }

/-- `Number.isSafeInteger(now)`. -/
def isSafeInteger (now : ℚ) : Bool := decide (now.den = 1 ∧ |now.num| ≤ 2 ^ 53 - 1)

/-- mirrors packages/runtime/src/tool-budget.ts:77-123 -/
def evaluate (context : Context) (now : ℚ) (s : State) :
    State × Except ToolGatewayError ToolBudgetLease :=
  match check jsonBytes context s with
  | .error e => (s, .error e)
  | .ok ticket =>
    if !isSafeInteger now then (s, .error { code := .contextInvalid, status := 500 })
    else
      let charged := charge ticket.limits ticket.key now s.meter
      if charged.1 then
        ({ meter := charged.2, runCalls := s.runCalls.set ticket.runKey (ticket.calls + 1) },
          .ok { principalId := context.scope.principalId
                agentRunId := context.scope.agentRunId
                cost := (classCeilings context.descriptor.limits.costClass).baseCost
                lease := s.meter.leases.length })
      else ({ s with meter := charged.2 }, .error { code := .rateExceeded })

/-- A call with the reading of the clock at it, or a release. -/
inductive Ev where
  | evaluate (context : Context) (now : ℚ)
  | release (lease : Nat)

def step (s : State) : Ev → Option State
  | .evaluate context now => some (evaluate jsonBytes context now s).1
  | .release lease => some { s with meter := release lease s.meter }

def lts : LTS State Ev := .ofFn (· = .empty) (step jsonBytes)

end Tool

/-! ## Data sources -/

namespace Query

/-- mirrors packages/contracts/src/data-source.ts:15-28 -/
structure Ceilings where
  selectedFields : Nat := 64
  pageSize : Nat := 100
  filters : Nat := 32
  sorts : Nat := 16
  depth : Nat := 8
  concurrency : Nat := 64
  ratePerMinute : Nat := 600
  burst : Nat := 60

def dataSourcePlatformCeilings : Ceilings := {}

inductive ErrorCode where
  | queryCancelled | invalidQueryControls | selectedFieldLimitExceeded | filterLimitExceeded
  | sortLimitExceeded | queryOperationNotDeclared | queryPaginationRequired
  | queryPaginationNotSupported | pageLimitExceeded | filterNotAllowed | filterFieldForbidden
  | sortNotAllowed | sortFieldForbidden | queryDepthExceeded | queryBodyTooLarge
  | queryCostExceeded | invalidActorContext | queryConcurrencyExceeded | queryRateExceeded
  deriving DecidableEq, Repr

structure DataSourceGatewayError where
  code : ErrorCode
  status : Nat
  detail : String
  deriving DecidableEq, Repr

abbrev Result (α : Type) := Except DataSourceGatewayError α

def fail {α : Type} (code : ErrorCode) (status : Nat) (detail : String) : Result α :=
  .error ⟨code, status, detail⟩

/-- mirrors packages/contracts/src/data-source.ts:45-59 -/
inductive FilterOperator where
  | eq | neq | isIn | notIn | contains | startsWith | endsWith | gt | gte | lt | lte | isNull
  | isNotNull
  deriving DecidableEq, Repr

inductive PaginationMode where
  | offset | cursor
  deriving DecidableEq, Repr

structure DataSourceFilterQuery where
  field : String
  operator : FilterOperator
  deriving DecidableEq, Repr

structure DataSourceSortQuery where
  field : String
  deriving DecidableEq, Repr

/-- The parsed controls, as far as the budget reads them: of a page and of a cursor the size. -/
structure DataSourceQueryControls where
  page : Option Nat
  cursor : Option Nat
  filters : List DataSourceFilterQuery
  sort : List DataSourceSortQuery
  deriving DecidableEq, Repr

/-- `controls.page ?? controls.cursor`. -/
def DataSourceQueryControls.pagination (controls : DataSourceQueryControls) : Option Nat :=
  controls.page.or controls.cursor

structure OutputField where
  id : String
  sortable : Bool
  filterOperators : List FilterOperator
  deriving DecidableEq, Repr

structure Limits where
  maxSelectedFields : Nat
  maxPageSize : Nat
  maxFilters : Nat
  maxSorts : Nat
  maxBodyBytes : Nat
  maxDepth : Nat
  maxConcurrency : Nat
  ratePerMinute : Nat
  burst : Nat
  costClass : DataSourceCostClass
  maxCost : Nat
  deriving DecidableEq, Repr

inductive PrimaryContract where
  | metricScalar | tableRecords
  deriving DecidableEq, Repr

structure DataSourceDescriptor where
  id : String
  primaryContract : PrimaryContract
  outputFields : Option (List OutputField)
  paginationModes : List PaginationMode
  limits : Limits
  deriving DecidableEq, Repr

/-- mirrors packages/runtime/src/data-source-authorization.ts:15 -/
inductive DataSourceActorKind where
  | isPublic | publicSession | user | service | systemJob
  deriving DecidableEq, Repr

def DataSourceActorKind.text : DataSourceActorKind → String
  | .isPublic => "public"
  | .publicSession => "public-session"
  | .user => "user"
  | .service => "service"
  | .systemJob => "system-job"

structure DataSourceActorIdentity where
  kind : DataSourceActorKind
  id : String
  deriving DecidableEq, Repr

structure Impersonation where
  reason : String
  approvedBy : String
  deriving DecidableEq, Repr

structure DataSourceActorContext where
  principal : DataSourceActorIdentity
  effectiveActor : DataSourceActorIdentity
  impersonation : Option Impersonation
  deriving DecidableEq, Repr

/-- mirrors packages/runtime/src/data-source-authorization.ts:51-58 -/
def actorIdentity (candidate : DataSourceActorIdentity) : Bool :=
  decide (1 ≤ jsLength candidate.id ∧ jsLength candidate.id ≤ 128)

/-- mirrors packages/runtime/src/data-source-authorization.ts:60-76 -/
def isDataSourceActorContext (candidate : DataSourceActorContext) : Bool :=
  if !actorIdentity candidate.principal ∨ !actorIdentity candidate.effectiveActor then false
  else
    let changedActor := decide (candidate.principal ≠ candidate.effectiveActor)
    match candidate.impersonation with
    | none => !changedActor
    | some impersonation => changedActor &&
        decide (1 ≤ jsLength impersonation.reason ∧ jsLength impersonation.reason ≤ 256) &&
        decide (1 ≤ jsLength impersonation.approvedBy ∧ jsLength impersonation.approvedBy ≤ 128)

/-- What a query brings: `controls` is none where the schema refuses them, and `body` is the JSON
of the input, the parsed controls and the selected fields together. -/
structure Call where
  aborted : Bool
  controls : Option DataSourceQueryControls
  descriptor : DataSourceDescriptor
  selectedFields : List String
  body : Json
  actor : DataSourceActorContext

/-- mirrors packages/runtime/src/data-source-budget.ts:85-94 -/
def validateLimits (descriptor : DataSourceDescriptor) (controls : DataSourceQueryControls)
    (selectedFields : List String) : Result Unit := do
  let limits := descriptor.limits
  failIf (selectedFields.length > limits.maxSelectedFields ∨
      selectedFields.length > dataSourcePlatformCeilings.selectedFields)
    ⟨.selectedFieldLimitExceeded, 400, "Too many fields were selected."⟩
  failIf (controls.filters.length > limits.maxFilters ∨
      controls.filters.length > dataSourcePlatformCeilings.filters)
    ⟨.filterLimitExceeded, 400, "Too many filters were requested."⟩
  failIf (controls.sort.length > limits.maxSorts ∨
      controls.sort.length > dataSourcePlatformCeilings.sorts)
    ⟨.sortLimitExceeded, 400, "Too many sort fields were requested."⟩

/-- mirrors packages/runtime/src/data-source-budget.ts:102-110 -/
def validatePagination (descriptor : DataSourceDescriptor) (controls : DataSourceQueryControls) :
    Result Unit := do
  match controls.pagination with
  | none => fail .queryPaginationRequired 400 "Exactly one page or cursor request is required."
  | some size =>
    let paginationMode := if controls.page.isNone then PaginationMode.cursor else .offset
    failIf (!descriptor.paginationModes.contains paginationMode)
      ⟨.queryPaginationNotSupported, 400,
        "The requested pagination mode is not supported by the source."⟩
    failIf (size > descriptor.limits.maxPageSize ∨ size > dataSourcePlatformCeilings.pageSize)
      ⟨.pageLimitExceeded, 400, "The requested page is too large."⟩

/-- `fields.get(id)`: of two fields of one identifier the later. -/
def fieldOf (descriptor : DataSourceDescriptor) (id : String) : Option OutputField :=
  ((descriptor.outputFields.getD []).reverse).find? fun field => field.id = id

/-- mirrors packages/runtime/src/data-source-budget.ts:114-120 -/
def validateFilter (descriptor : DataSourceDescriptor) (selectedFields : List String)
    (filter : DataSourceFilterQuery) : Result Unit := do
  failIf (!(fieldOf descriptor filter.field).any fun field =>
      field.filterOperators.contains filter.operator)
    ⟨.filterNotAllowed, 400, "A requested filter is not declared by the source."⟩
  failIf (!selectedFields.contains filter.field)
    ⟨.filterFieldForbidden, 403, "A requested filter field is unavailable."⟩

/-- mirrors packages/runtime/src/data-source-budget.ts:122-129 -/
def validateSort (descriptor : DataSourceDescriptor) (selectedFields : List String)
    (sortedFields : List String) (sort : DataSourceSortQuery) : Result (List String) := do
  failIf (!((fieldOf descriptor sort.field).any OutputField.sortable) ∨
      sortedFields.contains sort.field)
    ⟨.sortNotAllowed, 400, "A requested sort is not declared by the source."⟩
  failIf (!selectedFields.contains sort.field)
    ⟨.sortFieldForbidden, 403, "A requested sort field is unavailable."⟩
  return JsMap.addSet sortedFields sort.field

/-- mirrors packages/runtime/src/data-source-budget.ts:80-130 -/
def validateOperations (descriptor : DataSourceDescriptor) (controls : DataSourceQueryControls)
    (selectedFields : List String) : Result Unit := do
  validateLimits descriptor controls selectedFields
  if descriptor.primaryContract = .metricScalar then
    failIf (controls.page.isSome ∨ controls.cursor.isSome ∨ controls.filters.length > 0 ∨
        controls.sort.length > 0)
      ⟨.queryOperationNotDeclared, 400, "The source does not declare tabular query operations."⟩
  else
    validatePagination descriptor controls
    controls.filters.forM (validateFilter descriptor selectedFields)
    let _ ← controls.sort.foldlM (validateSort descriptor selectedFields) []

/-- mirrors packages/runtime/src/data-source-budget.ts:132-141 -/
def queryCost (descriptor : DataSourceDescriptor) (controls : DataSourceQueryControls)
    (selectedFields : List String) : Nat :=
  let pageCost := match controls.pagination with
    | none => 0
    | some size => (size + 24) / 25
  (classCeilings descriptor.limits.costClass).baseCost + selectedFields.length +
    controls.filters.length * 2 + controls.sort.length + pageCost

/-- mirrors packages/runtime/src/data-source-budget.ts:178, 183-184 -/
def effectiveLimits (limits : Limits) : RateLimits where
  concurrency := min (min limits.maxConcurrency (classCeilings limits.costClass).concurrency)
    dataSourcePlatformCeilings.concurrency
  rate := min (min limits.ratePerMinute (classCeilings limits.costClass).ratePerMinute)
    dataSourcePlatformCeilings.ratePerMinute
  capacity := min limits.burst dataSourcePlatformCeilings.burst

structure Ticket where
  key : String
  limits : RateLimits

variable (jsonBytes : Json → Nat)

/-- mirrors packages/runtime/src/data-source-budget.ts:157-180 -/
def check (call : Call) (m : Meter) : Result Ticket := do
  failIf (call.aborted = true) ⟨.queryCancelled, 499, "The query was cancelled."⟩
  match call.controls with
  | none => fail .invalidQueryControls 400 "Query controls are invalid."
  | some controls =>
    let descriptor := call.descriptor
    validateOperations descriptor controls call.selectedFields
    let depth := jsonDepth call.body
    failIf (depth > descriptor.limits.maxDepth ∨ depth > dataSourcePlatformCeilings.depth)
      ⟨.queryDepthExceeded, 400, "The query body is too deeply nested."⟩
    failIf (jsonBytes call.body > descriptor.limits.maxBodyBytes)
      ⟨.queryBodyTooLarge, 413, "The query body is too large."⟩
    failIf (queryCost descriptor controls call.selectedFields > descriptor.limits.maxCost)
      ⟨.queryCostExceeded, 429, "The query cost budget was exceeded."⟩
    failIf (!isDataSourceActorContext call.actor)
      ⟨.invalidActorContext, 401, "Authentication context is invalid."⟩
    let actor := call.actor.effectiveActor
    let key := joinNul [actor.kind.text, actor.id, descriptor.id]
    let limits := effectiveLimits descriptor.limits
    failIf (m.current key ≥ limits.concurrency)
      ⟨.queryConcurrencyExceeded, 429, "Too many source queries are running."⟩
    return { key, limits }

/-- The lease is the index of the closure.
mirrors packages/runtime/src/data-source-budget.ts:151-212 -/
def evaluate (call : Call) (now : ℚ) (m : Meter) : Meter × Result Nat :=
  match check jsonBytes call m with
  | .error e => (m, .error e)
  | .ok ticket =>
    let charged := charge ticket.limits ticket.key now m
    if charged.1 then (charged.2, .ok m.leases.length)
    else (charged.2, fail .queryRateExceeded 429 "The source query rate was exceeded.")

/-- A query with the reading of the clock at it, or a release. -/
inductive Ev where
  | evaluate (call : Call) (now : ℚ)
  | release (lease : Nat)

def step (m : Meter) : Ev → Option Meter
  | .evaluate call now => some (evaluate jsonBytes call now m).1
  | .release lease => some (release lease m)

def lts : LTS Meter Ev := .ofFn (· = .empty) (step jsonBytes)

end Query

end KNex.Runtime.CallBudget
