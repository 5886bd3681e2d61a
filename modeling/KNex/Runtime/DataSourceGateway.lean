import KNex.Core.LTS
import KNex.Core.Json
import KNex.Core.History
import Mathlib.Data.List.TakeWhile

/-!
# `DataSourceGateway.query`: one lease, two paths that release it

`query` (packages/runtime/src/data-source-gateway.ts:300-392) admits a request, takes a budget
lease and asks the cache; where the cache has no answer it dispatches the source's handler and
races it with an abort. Up to the dispatch the `finally` of the call releases the lease. From then
on two completion paths meet in `releaseWhenIdle`: the `finally` of the handler, and the `finally`
of the call, which may be over long before an abandoned handler settles.

The model is one state with the main flow (`Pc`), the handler and the variables of the call. A
step runs one of them from an `await` to the next, and its label says what the awaited stage did.
Code between two awaits is split in two steps at the dispatch and at the problem serializer, which
only adds interleavings. An abort of the query is an abort of `context.signal`, which the budget
stage derives; the signal of the request only picks the error. What happens is logged (`Note`).

`lease_discipline`: in every reachable state the log keeps `Law`, when both paths are over an
acquired lease was released exactly once, and until then the call can go on, towards its end.
`query_ignores_late_abort` is the run in which an abort does not stop a result: only the admission
and the race look at the signal.
-/
namespace KNex.Runtime.DataSourceGateway

open KNex.Core KNex.Core.History

/-! ## Errors -/

/-- mirrors packages/runtime/src/data-source-gateway.ts:165-178 -/
structure DataSourceGatewayError where
  code : String
  status : Nat
  title : String
  safeDetail : String := title
  deriving DecidableEq, Repr

/-- What a stage throws: a `DataSourceGatewayError`, or `none` for any other value. -/
abbrev Thrown := Option DataSourceGatewayError

/-- mirrors packages/runtime/src/data-source-gateway.ts:267-271 -/
def normalizedError : Thrown → DataSourceGatewayError
  | some e => e
  | none => { code := "INTERNAL_ERROR", status := 500, title := "Data-source request failed." }

/-- mirrors packages/runtime/src/data-source-gateway.ts:273-277 -/
def abortedError (callerAborted : Bool) : DataSourceGatewayError :=
  if callerAborted then
    { code := "QUERY_CANCELLED", status := 499, title := "The query was cancelled." }
  else { code := "QUERY_TIMEOUT", status := 504, title := "The data-source query timed out." }

def sourceNotFound : DataSourceGatewayError :=
  { code := "SOURCE_NOT_FOUND", status := 404, title := "Data source was not found." }

def invalidQueryInput : DataSourceGatewayError :=
  { code := "INVALID_QUERY_INPUT", status := 400, title := "Data-source input is invalid." }

def evidenceInvalid : DataSourceGatewayError :=
  { code := "SOURCE_SCHEMA_INVALID", status := 500,
    title := "Data-source handler evidence is invalid." }

/-! ## Results -/

/-- The fields of the `DataSourceDescriptor` that `query` reads. -/
structure Descriptor where
  id : String
  version : Int
  contractId : String
  contractVersion : Int
  structuralCompatibilityHash : String
  deriving DecidableEq, Repr

/-- `DataSourceSuccessEnvelope`: the parts that vary. -/
structure Envelope where
  source : Descriptor
  data : Json
  reportExecution : Option Json
  deriving DecidableEq

structure ProblemDetails where
  status : Nat
  code : String
  title : String
  detail : String
  correlationId : String
  deriving DecidableEq, Repr

inductive Response where
  | ok (body : Envelope)
  /-- the status of the response is the one of the body -/
  | problem (body : ProblemDetails)
  /-- the returned promise rejects: the serializer or a release threw -/
  | rejected
  deriving DecidableEq

/-- A handler's value, with its evidence when it is wrapped: `parseReport` is
`DataSourceReportExecutionSchema.safeParse`.
mirrors packages/runtime/src/data-source-gateway.ts:225-233 -/
def handlerSuccess (parseReport : Json → Option Json) (value : Json) :
    Except DataSourceGatewayError (Json × Option Json) :=
  if ¬ value.isObject then .ok (value, none)
  else match value.get? "data", value.get? "reportExecution" with
    | none, _ => .ok (value, none)
    | some _, none => .ok (value, none)
    | some data, some report =>
      if value.keys.length ≠ 2 then .error evidenceInvalid
      else match parseReport report with
        | none => .error evidenceInvalid
        | some execution => .ok (data, some execution)

/-! ## State -/

/-- The stages up to the lease, in order. -/
inductive Stage where
  | authenticate | catalog | surface | authorize | budget
  deriving DecidableEq, Repr

/-- What the main flow awaits; `dispatched` and `leaving` stand before the race and before the
`finally`. -/
inductive Pc where
  | admission (stage : Stage)
  | cacheLookup
  | dispatched
  | race
  | redact (report : Option Json)
  | store (body : Envelope)
  | observeSuccess (body : Envelope)
  | observeFailure (e : DataSourceGatewayError)
  | serialize (e : DataSourceGatewayError)
  | leaving (r : Response)
  | done (r : Response)
  deriving DecidableEq

/-- `handlerSettled`: `settling` stands between its `finally` and its settlement. -/
inductive Handler where
  | idle
  | running
  | settling (r : Except Thrown Json)
  | settled (r : Except Thrown Json)

/-- What is logged; `produced` says that the envelope of the response is fixed. -/
inductive Note where
  | aborted | acquired | askedCache | hit | started | settled | produced
  | failed | observerThrew | finished | released
  | result (body : Envelope)
  deriving DecidableEq

structure St where
  pc : Pc
  source : Descriptor
  lease : Bool
  /-- `releaseHandlerLease` is set -/
  handlerLease : Bool
  handlerSettledOnce : Bool
  pipelineFinished : Bool
  leaseReleased : Bool
  handler : Handler
  signalAborted : Bool
  callerAborted : Bool
  /-- what settled the race -/
  winner : Option (Except Thrown Json)
  log : List Note

def init (d : Descriptor) : St where
  pc := .admission .authenticate
  source := d
  lease := false
  handlerLease := false
  handlerSettledOnce := false
  pipelineFinished := false
  leaseReleased := false
  handler := .idle
  signalAborted := false
  callerAborted := false
  winner := none
  log := []

inductive Outcome where
  | returned
  | threw (e : Thrown)

/-- One label per await that settles. The label of a stage also says what the synchronous stages
behind it did: the input schema, the dispatcher, the two output validators, the result budget. -/
inductive Ev where
  | abortCaller
  | abortSignal
  /-- authentication, surface guard or authorization returned -/
  | admits
  | looksUp (d : Option Descriptor)
  | budgets (validInput : Except Thrown Bool)
  | hits (body : Envelope)
  | misses (dispatch : Outcome)
  | entersRace
  | handlerReturns (r : Except Thrown Json)
  | handlerSettles
  | raceSettles (validation : Outcome)
  | redacts (data : Json) (resultBudget : Outcome)
  | stores
  /-- an awaited stage throws -/
  | throws (e : Thrown)
  | observes (o : Outcome)
  | serializes (body : Option ProblemDetails)
  | leaves (releaseThrew : Bool)

def Ev.isAbort : Ev → Bool
  | .abortCaller | .abortSignal => true
  | _ => false

/-! ## Steps -/

def St.note (s : St) (ns : List Note) : St := { s with log := s.log ++ ns }

/-- The `catch`, up to its await.
mirrors packages/runtime/src/data-source-gateway.ts:380-382 -/
def catchCause (s : St) (cause : Thrown) : St :=
  { s.note [.failed] with pc := .observeFailure (normalizedError cause) }

/-- The stage after one that returned nothing `query` looks at. -/
def Stage.next : Stage → Option Stage
  | .authenticate => some .catalog
  | .catalog => none
  | .surface => some .authorize
  | .authorize => some .budget
  | .budget => none

/-- From the budget stage, which hands over the lease, to the cache.
mirrors packages/runtime/src/data-source-gateway.ts:310-329 -/
def afterBudget (s : St) (validInput : Except Thrown Bool) : St :=
  let s := { s.note [.acquired] with lease := true }
  match validInput with
  | .error e => catchCause s e
  | .ok false => catchCause s (some invalidQueryInput)
  | .ok true =>
    if s.signalAborted then catchCause s (some (abortedError s.callerAborted))
    else { s.note [.askedCache] with pc := .cacheLookup }

/-- The dispatch. A dispatcher that throws leaves the lease where it was.
mirrors packages/runtime/src/data-source-gateway.ts:338-358 -/
def afterMiss (s : St) : Outcome → St
  | .threw e => catchCause s e
  | .returned => { s.note [.started] with
      pc := .dispatched, handler := .running, lease := false, handlerLease := true }

def Handler.result : Handler → Option (Except Thrown Json)
  | .settled r => some r
  | _ => none

/-- `dispatchWithSignal`, up to the race.
mirrors packages/runtime/src/data-source-gateway.ts:279-291 -/
def enterRace (s : St) : St :=
  if s.signalAborted then catchCause s (some (abortedError s.callerAborted))
  else { s with pc := .race, winner := s.handler.result }

/-- The first to settle decides the race. -/
def raceWinner (s : St) (r : Except Thrown Json) : Option (Except Thrown Json) :=
  match s.pc, s.winner with
  | .race, none => some r
  | _, w => w

/-- mirrors packages/runtime/src/data-source-gateway.ts:351-355 -/
def releaseWhenIdle (s : St) : St :=
  if s.leaseReleased || !s.handlerSettledOnce || !s.pipelineFinished then s
  else { s.note [.released] with leaseReleased := true }

/-- The `finally` of the handler; what its release throws reaches nobody, since the call is over.
mirrors packages/runtime/src/data-source-gateway.ts:357 -/
def handlerFinally (s : St) (r : Except Thrown Json) : St :=
  releaseWhenIdle { s.note [.settled] with handler := .settling r, handlerSettledOnce := true }

/-- From the settled race to the redactor.
mirrors packages/runtime/src/data-source-gateway.ts:358-361 -/
def afterRace (parseReport : Json → Option Json) (s : St) (value : Json) (o : Outcome) : St :=
  match handlerSuccess parseReport value, o with
  | .error e, _ => catchCause s (some e)
  | .ok _, .threw e => catchCause s e
  | .ok (_, report), .returned => { s with pc := .redact report }

/-- From the redactor to the store.
mirrors packages/runtime/src/data-source-gateway.ts:361-372 -/
def afterRedact (s : St) (report : Option Json) (data : Json) : Outcome → St
  | .threw e => catchCause s e
  | .returned => { s.note [.produced] with pc := .store ⟨s.source, data, report⟩ }

/-- `releaseHandlerLease?.()` or `lease?.release()` releases in the `finally` of the call. -/
def willRelease (s : St) : Bool :=
  s.lease || (s.handlerLease && s.handlerSettledOnce && !s.leaseReleased)

/-- The `finally` of the call.
mirrors packages/runtime/src/data-source-gateway.ts:388-391 -/
def queryFinally (s : St) : St :=
  let s := s.note [.finished]
  let s := if s.handlerLease then releaseWhenIdle { s with pipelineFinished := true } else s
  if s.lease then s.note [.released] else s

def returns (s : St) (r : Response) : St :=
  match r with
  | .ok body => { s.note [.result body] with pc := .done r }
  | _ => { s with pc := .done r }

/-- A stage that may throw is awaited. -/
def Pc.fallible : Pc → Bool
  | .admission _ | .cacheLookup | .redact _ | .store _ => true
  | _ => false

/-- mirrors packages/runtime/src/data-source-gateway.ts:300-392 -/
def step (parseReport : Json → Option Json) (s : St) : Ev → Option St
  | .abortCaller => some { s with callerAborted := true }
  | .abortSignal =>
    if s.signalAborted then none
    else some { s.note [.aborted] with
      signalAborted := true,
      winner := raceWinner s (.error (some (abortedError s.callerAborted))) }
  | .admits =>
    match s.pc with
    | .admission stage => stage.next.map fun next => { s with pc := .admission next }
    | _ => none
  | .looksUp d =>
    match s.pc, d with
    | .admission .catalog, some d => some { s with pc := .admission .surface, source := d }
    | .admission .catalog, none => some (catchCause s (some sourceNotFound))
    | _, _ => none
  | .budgets validInput =>
    match s.pc with
    | .admission .budget => some (afterBudget s validInput)
    | _ => none
  | .hits body =>
    match s.pc with
    | .cacheLookup =>
      some { s.note [.hit, .produced] with pc := .observeSuccess body }
    | _ => none
  | .misses o =>
    match s.pc with
    | .cacheLookup => some (afterMiss s o)
    | _ => none
  | .entersRace =>
    match s.pc with
    | .dispatched => some (enterRace s)
    | _ => none
  | .handlerReturns r =>
    match s.handler with
    | .running => some (handlerFinally s r)
    | _ => none
  | .handlerSettles =>
    match s.handler with
    | .settling r => some { s with handler := .settled r, winner := raceWinner s r }
    | _ => none
  | .raceSettles o =>
    match s.pc, s.winner with
    | .race, some (.ok value) => some (afterRace parseReport s value o)
    | .race, some (.error e) => some (catchCause s e)
    | _, _ => none
  | .redacts data o =>
    match s.pc with
    | .redact report => some (afterRedact s report data o)
    | _ => none
  | .stores =>
    match s.pc with
    | .store body => some { s with pc := .observeSuccess body }
    | _ => none
  | .throws e => if s.pc.fallible then some (catchCause s e) else none
  | .observes o =>
    match s.pc, o with
    | .observeSuccess body, .returned => some { s with pc := .leaving (.ok body) }
    | .observeSuccess body, .threw _ =>
      some { s.note [.observerThrew] with pc := .leaving (.ok body) }
    | .observeFailure e, _ => some { s with pc := .serialize e }
    | _, _ => none
  | .serializes body =>
    match s.pc, body with
    | .serialize _, some body => some { s with pc := .leaving (.problem body) }
    | .serialize _, none => some { s with pc := .leaving .rejected }
    | _, _ => none
  | .leaves releaseThrew =>
    match s.pc with
    | .leaving r =>
      if releaseThrew && !willRelease s then none
      else some (returns (queryFinally s) (if releaseThrew then .rejected else r))
    | _ => none

def lts (parseReport : Json → Option Json) : LTS St Ev :=
  LTS.ofFn (fun s => ∃ d, s = init d) (step parseReport)

/-! ## The law -/

/-- `a` happened, and no abort before it. -/
def Unaborted (a : Note) (log : List Note) : Prop :=
  a ∈ log ∧ .aborted ∉ log.takeWhile (· ≠ a)

/-- What must have happened before an entry of the log, and what must not. -/
def Law (before : List Note) : Note → Prop
  | .started => .finished ∉ before
  | .released => .acquired ∈ before ∧ .released ∉ before ∧ .finished ∈ before ∧
      (.started ∈ before → .settled ∈ before)
  | .result _ => .failed ∉ before ∧ Unaborted .askedCache before ∧
      (.hit ∈ before ∨ Unaborted .settled before)
  | _ => True

theorem unaborted_of_mem {a : Note} {log : List Note} (ha : a ∈ log) (hn : .aborted ∉ log) :
    Unaborted a log := by
  refine ⟨ha, fun h => hn ?_⟩
  exact (List.takeWhile_prefix _).subset h

/-- What has happened without an abort before it stays so. -/
theorem Unaborted.append {a : Note} {log : List Note} (h : Unaborted a log) (l : List Note) :
    Unaborted a (log ++ l) := by
  obtain ⟨ha, hn⟩ := h
  refine ⟨List.mem_append_left _ ha, ?_⟩
  have hne : (log.takeWhile (· ≠ a)).length ≠ log.length := by
    intro hlen
    have hall := List.takeWhile_eq_self_iff.mp
      ((List.takeWhile_prefix (p := fun x => decide (x ≠ a)) (l := log)).eq_of_length hlen) a ha
    simp at hall
  rw [List.takeWhile_append, if_neg hne]
  exact hn

/-! ## Invariant -/

def Pc.isDone : Pc → Bool
  | .done _ => true
  | _ => false

/-- The `finally` of the handler has run. -/
def Handler.over : Handler → Bool
  | .settling _ | .settled _ => true
  | _ => false

/-- Who holds the lease, what has been released, and what the log says of both. -/
structure Account (s : St) : Prop where
  acquired : .acquired ∈ s.log ↔ s.lease = true ∨ s.handlerLease = true
  apart : s.lease = true → s.handlerLease = false
  handler : s.handler = .idle ↔ s.handlerLease = false
  isOver : s.handler.over = s.handlerSettledOnce
  started : .started ∈ s.log ↔ s.handlerLease = true
  settled : .settled ∈ s.log ↔ s.handlerSettledOnce = true
  finished : .finished ∈ s.log ↔ s.pc.isDone = true
  pipeline : s.pipelineFinished = (s.handlerLease && s.pc.isDone)
  handedOver : s.leaseReleased = (s.handlerSettledOnce && s.pipelineFinished)
  released : .released ∈ s.log ↔ s.leaseReleased = true ∨ (s.lease && s.pc.isDone) = true
  law : Along Law s.log

/-- What the main flow has behind it, by what it awaits. -/
def Flow (s : St) : Prop :=
  match s.pc with
  | .admission _ => .failed ∉ s.log ∧ .acquired ∉ s.log
  | .cacheLookup => .failed ∉ s.log ∧ Unaborted .askedCache s.log ∧ s.lease = true
  | .dispatched => .failed ∉ s.log ∧ Unaborted .askedCache s.log ∧ .started ∈ s.log
  | .race => .failed ∉ s.log ∧ Unaborted .askedCache s.log ∧ .started ∈ s.log ∧
      match s.winner with
      | none => .aborted ∉ s.log ∧ s.handler.result = none
      | some (.ok _) => Unaborted .settled s.log
      | some (.error _) => True
  | .redact _ | .store _ => .failed ∉ s.log ∧ Unaborted .askedCache s.log ∧
      Unaborted .settled s.log
  | .observeSuccess _ | .leaving (.ok _) => .failed ∉ s.log ∧ Unaborted .askedCache s.log ∧
      (.hit ∈ s.log ∨ Unaborted .settled s.log)
  | .done (.ok body) => .result body ∈ s.log
  | _ => True

structure Inv (s : St) : Prop where
  account : Account s
  flow : Flow s
  flag : s.signalAborted = true ↔ .aborted ∈ s.log

theorem inv_init (d : Descriptor) : Inv (init d) where
  account := by constructor <;> simp [init, Handler.over, Pc.isDone, along_nil]
  flow := by simp [Flow, init]
  flag := by simp [init]

/-- A note that says nothing of the lease. -/
def Note.quiet : Note → Bool
  | .aborted | .askedCache | .hit | .produced | .failed | .observerThrew => true
  | _ => false

/-- A step that touches neither the lease nor the handler, of a call that is not over. -/
theorem Account.quiet {s s' : St} {l : List Note} (A : Account s)
    (hlog : s'.log = s.log ++ l) (hns : ∀ n ∈ l, n.quiet = true)
    (hpc : s'.pc.isDone = s.pc.isDone) (hl : s'.lease = s.lease)
    (hh : s'.handlerLease = s.handlerLease) (ho : s'.handlerSettledOnce = s.handlerSettledOnce)
    (hp : s'.pipelineFinished = s.pipelineFinished) (hr : s'.leaseReleased = s.leaseReleased)
    (hidle : s'.handler = .idle ↔ s.handler = .idle) (hover : s'.handler.over = s.handler.over) :
    Account s' := by
  have hmem : ∀ n : Note, n.quiet = false → (n ∈ s'.log ↔ n ∈ s.log) := by
    intro n hn
    rw [hlog, List.mem_append, or_iff_left]
    intro h
    rw [hns n h] at hn
    cases hn
  refine ⟨?_, ?_, ?_, ?_, ?_, ?_, ?_, ?_, ?_, ?_, ?_⟩
  · rw [hmem _ rfl, hl, hh]; exact A.acquired
  · rw [hl, hh]; exact A.apart
  · rw [hidle, hh]; exact A.handler
  · rw [hover, ho]; exact A.isOver
  · rw [hmem _ rfl, hh]; exact A.started
  · rw [hmem _ rfl, ho]; exact A.settled
  · rw [hmem _ rfl, hpc]; exact A.finished
  · rw [hp, hh, hpc]; exact A.pipeline
  · rw [hr, ho, hp]; exact A.handedOver
  · rw [hmem _ rfl, hr, hl, hpc]; exact A.released
  · rw [hlog]
    refine along_append A.law fun n hn before => ?_
    have hq := hns n hn
    cases n <;> first | exact trivial | cases hq

/-- A step of the main flow before the `finally`: it goes on to `p` and logs quiet notes. -/
theorem Account.moves {s : St} {l : List Note} {p : Pc} {d : Descriptor}
    {w : Option (Except Thrown Json)} (A : Account s) (hns : ∀ n ∈ l, n.quiet = true)
    (hpc : p.isDone = s.pc.isDone) :
    Account { s.note l with pc := p, source := d, winner := w } :=
  A.quiet rfl hns hpc rfl rfl rfl rfl rfl Iff.rfl rfl

theorem catchCause_inv {s : St} (A : Account s) (hd : s.pc.isDone = false)
    (hf : s.signalAborted = true ↔ .aborted ∈ s.log) (e : Thrown) : Inv (catchCause s e) where
  account := A.quiet (l := [.failed]) rfl (by simp [Note.quiet]) (by rw [hd]; rfl) rfl rfl rfl rfl
    rfl Iff.rfl rfl
  flow := by simp [Flow, catchCause]
  flag := by simp only [catchCause, St.note, List.mem_append, List.mem_singleton, reduceCtorEq,
    or_false]; exact hf

/-- The budget stage hands over the lease. -/
theorem acquire_account {s : St} (A : Account s) (hl : s.lease = false)
    (hh : s.handlerLease = false) (hd : s.pc.isDone = false) :
    Account { s.note [.acquired] with lease := true } := by
  have hr := A.released
  rw [hl, Bool.false_and] at hr
  refine ⟨?_, fun _ => hh, A.handler, A.isOver, ?_, ?_, ?_, A.pipeline, A.handedOver, ?_, ?_⟩
  · simp [St.note]
  · simpa [St.note] using A.started
  · simpa [St.note] using A.settled
  · simpa [St.note] using A.finished
  · simpa [St.note, hd] using hr
  · exact along_append A.law fun n hn before => by
      obtain rfl := List.mem_singleton.mp hn; exact trivial

/-- The dispatch moves the lease to the handler. -/
theorem dispatch_account {s : St} (A : Account s) (hl : s.lease = true)
    (hd : s.pc.isDone = false) :
    Account { s.note [.started] with
      pc := .dispatched, handler := .running, lease := false, handlerLease := true } := by
  have hh := A.apart hl
  have hidle := A.handler.mpr hh
  have ho := A.isOver
  have hp := A.pipeline
  have hk := A.handedOver
  have hr := A.released
  have hfin := A.finished
  rw [hidle] at ho
  simp only [Handler.over] at ho
  rw [hh, Bool.false_and] at hp
  rw [← ho, Bool.false_and] at hk
  rw [hd, Bool.and_false, hk] at hr
  rw [hd] at hfin
  refine ⟨?_, (fun h => by cases h), by simp, ?_, ?_, ?_, ?_, ?_, ?_, ?_, ?_⟩
  · simpa [St.note] using A.acquired.mpr (.inl hl)
  · simpa [St.note, Handler.over] using ho
  · simp [St.note]
  · simpa [St.note] using A.settled
  · simpa [St.note, Pc.isDone] using hfin
  · simpa [Pc.isDone, St.note] using hp
  · simpa [St.note, hp] using hk
  · simpa [St.note, hk] using hr
  · exact along_snoc.mpr ⟨A.law, by simpa [Law] using hfin⟩

theorem releaseWhenIdle_frame (s : St) :
    (releaseWhenIdle s).pc = s.pc ∧ (releaseWhenIdle s).winner = s.winner ∧
    (releaseWhenIdle s).signalAborted = s.signalAborted ∧
    (releaseWhenIdle s).handler = s.handler ∧
    ((releaseWhenIdle s).log = s.log ∨ (releaseWhenIdle s).log = s.log ++ [.released]) := by
  unfold releaseWhenIdle
  split
  · exact ⟨rfl, rfl, rfl, rfl, .inl rfl⟩
  · exact ⟨rfl, rfl, rfl, rfl, .inr rfl⟩

/-- The `finally` of the handler: it releases when the call is over. -/
theorem handlerFinally_account {s : St} (A : Account s) (hrun : s.handler = .running)
    (r : Except Thrown Json) : Account (handlerFinally s r) := by
  have ho := A.isOver
  have hh : s.handlerLease = true := by
    cases h : s.handlerLease with
    | true => rfl
    | false => rw [A.handler.mpr h] at hrun; cases hrun
  have hl : s.lease = false := by
    cases h : s.lease with
    | false => rfl
    | true => rw [A.apart h] at hh; cases hh
  have hk := A.handedOver
  have hp := A.pipeline
  have hr := A.released
  have hset := A.settled
  rw [hrun] at ho
  simp only [Handler.over] at ho
  rw [← ho, Bool.false_and] at hk
  rw [hh, Bool.true_and] at hp
  rw [hk, hl] at hr
  rw [← ho] at hset
  unfold handlerFinally releaseWhenIdle
  cases hd : s.pc.isDone with
  | false =>
    rw [hd] at hp
    rw [if_pos (by simp [St.note, hp])]
    refine ⟨?_, A.apart, by simp [St.note, hh], rfl, ?_, ?_, ?_, ?_, ?_, ?_, ?_⟩
    · simpa [St.note] using A.acquired
    · simpa [St.note] using A.started
    · simp [St.note]
    · simpa [St.note] using A.finished
    · simpa [St.note] using A.pipeline
    · simpa [St.note, hp] using hk
    · simpa [St.note, hl, hk] using hr
    · exact along_snoc.mpr ⟨A.law, trivial⟩
  | true =>
    rw [hd] at hp
    rw [if_neg (by simp [St.note, hp, hk])]
    refine ⟨?_, A.apart, by simp [St.note, hh], rfl, ?_, ?_, ?_, ?_, ?_, ?_, ?_⟩
    · simpa [St.note] using A.acquired
    · simpa [St.note] using A.started
    · simp [St.note]
    · simpa [St.note] using A.finished
    · simpa [St.note] using A.pipeline
    · simp [St.note, hp]
    · simp [St.note]
    · refine along_snoc.mpr ⟨along_snoc.mpr ⟨A.law, trivial⟩, ?_, ?_, ?_, ?_⟩
      · simpa [St.note] using A.acquired.mpr (.inr hh)
      · simpa [St.note] using hr
      · simpa [St.note] using A.finished.mpr hd
      · simp [St.note]

/-- The `finally` of the call releases the lease unless a handler still runs. -/
theorem queryFinally_account {s : St} (A : Account s) (hd : s.pc.isDone = false) (r : Response) :
    Account { queryFinally s with pc := .done r } := by
  have hp := A.pipeline
  have hk := A.handedOver
  have hr := A.released
  have hfin := A.finished
  rw [hd, Bool.and_false] at hp
  rw [hp, Bool.and_false] at hk
  rw [hd, Bool.and_false, hk] at hr
  rw [hd] at hfin
  unfold queryFinally releaseWhenIdle
  cases hh : s.handlerLease with
  | true =>
    have hl : s.lease = false := by
      cases h : s.lease with
      | false => rfl
      | true => rw [A.apart h] at hh; cases hh
    cases ho : s.handlerSettledOnce with
    | true =>
      simp only [St.note, hh, hl, hk, ho, if_true, Bool.false_eq_true, if_false, Bool.not_true,
        Bool.or_false]
      refine ⟨?_, ?_, ?_, ?_, ?_, ?_, ?_, ?_, ?_, ?_, ?_⟩
      · simpa [hh] using A.acquired
      · simp
      · simpa [hh] using A.handler
      · simpa [ho] using A.isOver
      · simpa [hh] using A.started
      · simpa [ho] using A.settled
      · simp [Pc.isDone]
      · simp [Pc.isDone]
      · simp
      · simp
      · refine along_snoc.mpr ⟨along_snoc.mpr ⟨A.law, trivial⟩, ?_, ?_, ?_, ?_⟩
        · simpa using A.acquired.mpr (.inr hh)
        · simpa using hr
        · simp
        · simpa using fun _ => A.settled.mpr ho
    | false =>
      simp only [St.note, hh, hl, hk, ho, if_true, Bool.false_eq_true, if_false, Bool.not_false,
        Bool.or_true, Bool.true_or]
      refine ⟨?_, ?_, ?_, ?_, ?_, ?_, ?_, ?_, ?_, ?_, ?_⟩
      · simpa [hh] using A.acquired
      · simp
      · simpa [hh] using A.handler
      · simpa [ho] using A.isOver
      · simpa [hh] using A.started
      · simpa [ho] using A.settled
      · simp [Pc.isDone]
      · simp [Pc.isDone]
      · simp
      · simpa using hr
      · exact along_snoc.mpr ⟨A.law, trivial⟩
  | false =>
    have hnst : .started ∉ s.log := by rw [A.started, hh]; simp
    cases hl : s.lease with
    | true =>
      simp only [St.note, hh, hl, if_true, Bool.false_eq_true, if_false]
      refine ⟨?_, ?_, ?_, ?_, ?_, ?_, ?_, ?_, ?_, ?_, ?_⟩
      · simpa [hl] using A.acquired
      · simp
      · simpa [hh] using A.handler
      · simpa using A.isOver
      · simpa [hh] using A.started
      · simpa using A.settled
      · simp [Pc.isDone]
      · simpa using hp
      · simpa [hp] using hk
      · simp [Pc.isDone]
      · refine along_snoc.mpr ⟨along_snoc.mpr ⟨A.law, trivial⟩, ?_, ?_, ?_, ?_⟩
        · simpa using A.acquired.mpr (.inl hl)
        · simpa using hr
        · simp
        · intro h
          exact absurd (by simpa using h) hnst
    | false =>
      simp only [St.note, hh, hl, Bool.false_eq_true, if_false]
      refine ⟨?_, ?_, ?_, ?_, ?_, ?_, ?_, ?_, ?_, ?_, ?_⟩
      · simpa [hl, hh] using A.acquired
      · simp
      · simpa [hh] using A.handler
      · simpa using A.isOver
      · simpa [hh] using A.started
      · simpa using A.settled
      · simp [Pc.isDone]
      · simpa using hp
      · simpa [hp] using hk
      · simpa [hk] using hr
      · exact along_snoc.mpr ⟨A.law, trivial⟩

theorem returns_account {s : St} {r : Response} (A : Account { s with pc := .done r })
    (hlaw : ∀ body, r = .ok body → Law s.log (.result body)) : Account (returns s r) := by
  unfold returns
  split
  · rename_i body
    refine ⟨?_, A.apart, A.handler, A.isOver, ?_, ?_, ?_, A.pipeline, A.handedOver, ?_, ?_⟩
    · simpa [St.note] using A.acquired
    · simpa [St.note] using A.started
    · simpa [St.note] using A.settled
    · simpa [St.note] using A.finished
    · simpa [St.note] using A.released
    · exact along_snoc.mpr ⟨A.law, hlaw body rfl⟩
  · exact A

/-- The two notes of the `finally` of the call. -/
def Closes (s s' : St) : Prop :=
  s'.signalAborted = s.signalAborted ∧
    ∃ ns, s'.log = s.log ++ ns ∧ ∀ n ∈ ns, n = .finished ∨ n = .released

theorem Closes.note {s s' : St} (h : Closes s s') {n : Note} (hn : n = .finished ∨ n = .released) :
    Closes s (s'.note [n]) := by
  obtain ⟨hsig, ns, hlog, hns⟩ := h
  refine ⟨hsig, ns ++ [n], by simp [St.note, hlog], fun m hm => ?_⟩
  rcases List.mem_append.mp hm with hm | hm
  · exact hns m hm
  · obtain rfl := List.mem_singleton.mp hm
    exact hn

theorem Closes.releaseWhenIdle {s t : St} (h : Closes s t) : Closes s (releaseWhenIdle t) := by
  unfold DataSourceGateway.releaseWhenIdle
  split
  · exact h
  · exact h.note (.inr rfl)

theorem Closes.ite {c : Prop} [Decidable c] {s a b : St} (ha : Closes s a) (hb : Closes s b) :
    Closes s (if c then a else b) := by
  split
  · exact ha
  · exact hb

theorem queryFinally_closes (s : St) : Closes s (queryFinally s) := by
  have h0 : Closes s s := ⟨rfl, [], by simp, by simp⟩
  have h1 : Closes s (s.note [.finished]) := h0.note (.inl rfl)
  have h2 : Closes s (if s.handlerLease then
      releaseWhenIdle { s.note [.finished] with pipelineFinished := true }
      else s.note [.finished]) :=
    .ite (Closes.releaseWhenIdle (t := { s.note [.finished] with pipelineFinished := true }) h1) h1
  exact .ite (h2.note (.inr rfl)) h2

theorem returns_frame (s : St) (r : Response) : (returns s r).signalAborted = s.signalAborted ∧
    (.aborted ∈ (returns s r).log ↔ .aborted ∈ s.log) ∧ Flow (returns s r) := by
  unfold returns
  split
  · exact ⟨rfl, by simp [St.note], by simp [Flow, St.note]⟩
  · rename_i hne
    refine ⟨rfl, Iff.rfl, ?_⟩
    unfold Flow
    cases r with
    | ok body => exact absurd rfl (hne body)
    | problem body => trivial
    | rejected => trivial

/-- A step of the handler, or an abort: the main flow stays where it is, and the race may be
decided, for a result only when no abort came first. -/
theorem Flow.append {s s' : St} {l : List Note} (F : Flow s) (hlog : s'.log = s.log ++ l)
    (hpc : s'.pc = s.pc) (hl : s'.lease = s.lease) (hns : .failed ∉ l) (hacq : .acquired ∉ l)
    (hw : s.pc = .race →
      (s'.winner = s.winner ∧ (s.winner = none → .aborted ∉ l ∧ s'.handler.result = none)) ∨
      s.winner = none ∧ ∃ r, s'.winner = some r ∧ ∀ v, r = .ok v → Unaborted .settled s'.log) :
    Flow s' := by
  have hf : .failed ∉ s.log → .failed ∉ s'.log := by
    intro h; rw [hlog, List.mem_append]; exact fun h' => h'.elim h hns
  have hu : ∀ a, Unaborted a s.log → Unaborted a s'.log := by
    intro a h; rw [hlog]; exact h.append l
  have hm : ∀ a : Note, a ∈ s.log → a ∈ s'.log := by
    intro a h; rw [hlog]; exact List.mem_append_left _ h
  unfold Flow at F ⊢
  rw [hpc]
  cases h : s.pc with
  | admission stage =>
    simp only [h] at F
    refine ⟨hf F.1, ?_⟩
    rw [hlog, List.mem_append]
    exact fun h' => h'.elim F.2 hacq
  | cacheLookup => simp only [h] at F; exact ⟨hf F.1, hu _ F.2.1, hl.trans F.2.2⟩
  | dispatched => simp only [h] at F; exact ⟨hf F.1, hu _ F.2.1, hm _ F.2.2⟩
  | race =>
    simp only [h] at F
    refine ⟨hf F.1, hu _ F.2.1, hm _ F.2.2.1, ?_⟩
    have F3 := F.2.2.2
    rcases hw h with ⟨hsame, hab⟩ | ⟨-, r, hr, hok⟩
    · rw [hsame]
      cases hwin : s.winner with
      | none =>
        simp only [hwin] at F3
        refine ⟨?_, (hab hwin).2⟩
        rw [hlog, List.mem_append]
        exact fun h' => h'.elim F3.1 (hab hwin).1
      | some r =>
        cases r with
        | ok v => simp only [hwin] at F3; exact hu _ F3
        | error e => trivial
    · rw [hr]
      cases r with
      | ok v => exact hok v rfl
      | error e => trivial
  | redact report => simp only [h] at F; exact ⟨hf F.1, hu _ F.2.1, hu _ F.2.2⟩
  | store body => simp only [h] at F; exact ⟨hf F.1, hu _ F.2.1, hu _ F.2.2⟩
  | observeSuccess body =>
    simp only [h] at F; exact ⟨hf F.1, hu _ F.2.1, F.2.2.imp (hm _) (hu _)⟩
  | observeFailure e => trivial
  | serialize e => trivial
  | leaving r =>
    cases r with
    | ok body =>
      simp only [h] at F; exact ⟨hf F.1, hu _ F.2.1, F.2.2.imp (hm _) (hu _)⟩
    | problem body => trivial
    | rejected => trivial
  | done r =>
    cases r with
    | ok body => simp only [h] at F; exact hm _ F
    | problem body => trivial
    | rejected => trivial

theorem afterBudget_inv {s : St} (I : Inv s) (hpc : s.pc = .admission .budget)
    (v : Except Thrown Bool) : Inv (afterBudget s v) := by
  have hd : s.pc.isDone = false := by rw [hpc]; rfl
  obtain ⟨hfail, hacq⟩ : .failed ∉ s.log ∧ .acquired ∉ s.log := by
    have F := I.flow
    simpa only [Flow, hpc] using F
  rw [I.account.acquired, not_or, Bool.not_eq_true, Bool.not_eq_true] at hacq
  have A := acquire_account I.account hacq.1 hacq.2 hd
  have hflag : s.signalAborted = true ↔ .aborted ∈ s.log ++ [.acquired] := by
    simpa using I.flag
  have hcatch := fun e => catchCause_inv A hd hflag e
  unfold afterBudget
  dsimp only
  split
  · exact hcatch _
  · exact hcatch _
  · split
    · exact hcatch _
    · rename_i hns
      have hab : .aborted ∉ s.log := by rw [← I.flag]; exact hns
      refine ⟨A.moves (by simp [Note.quiet]) hd.symm, ⟨?_, ?_, rfl⟩, ?_⟩
      · simpa [St.note] using hfail
      · exact unaborted_of_mem (by simp [St.note]) (by simpa [St.note] using hab)
      · simpa [St.note] using I.flag

theorem afterMiss_inv {s : St} (I : Inv s) (hpc : s.pc = .cacheLookup) (o : Outcome) :
    Inv (afterMiss s o) := by
  have hd : s.pc.isDone = false := by rw [hpc]; rfl
  obtain ⟨hfail, hasked, hl⟩ : .failed ∉ s.log ∧ Unaborted .askedCache s.log ∧ s.lease = true := by
    have F := I.flow
    simpa only [Flow, hpc] using F
  cases o with
  | threw e => exact catchCause_inv I.account hd I.flag e
  | returned =>
    refine ⟨dispatch_account I.account hl hd,
      ⟨?_, hasked.append _, by simp [afterMiss, St.note]⟩, ?_⟩
    · simpa [afterMiss, St.note] using hfail
    · simpa [afterMiss, St.note] using I.flag

theorem enterRace_inv {s : St} (I : Inv s) (hpc : s.pc = .dispatched) : Inv (enterRace s) := by
  have hd : s.pc.isDone = false := by rw [hpc]; rfl
  obtain ⟨hfail, hasked, hstart⟩ :
      .failed ∉ s.log ∧ Unaborted .askedCache s.log ∧ .started ∈ s.log := by
    have F := I.flow
    simpa only [Flow, hpc] using F
  unfold enterRace
  split
  · exact catchCause_inv I.account hd I.flag _
  · rename_i hns
    have hab : .aborted ∉ s.log := by rw [← I.flag]; exact hns
    refine ⟨I.account.quiet (l := []) (by simp) (by simp) (by rw [hpc]; rfl) rfl rfl rfl rfl rfl
      Iff.rfl rfl, ⟨hfail, hasked, hstart, ?_⟩, I.flag⟩
    cases hh : s.handler with
    | settled r =>
      have hset : .settled ∈ s.log := by
        rw [I.account.settled, ← I.account.isOver, hh]
        rfl
      cases r with
      | ok v => exact unaborted_of_mem hset hab
      | error e => trivial
    | idle => exact ⟨hab, rfl⟩
    | running => exact ⟨hab, rfl⟩
    | settling r => exact ⟨hab, rfl⟩

theorem afterRace_inv {parseReport : Json → Option Json} {s : St} (I : Inv s)
    (hpc : s.pc = .race) {v : Json} (hw : s.winner = some (.ok v)) (o : Outcome) :
    Inv (afterRace parseReport s v o) := by
  have hd : s.pc.isDone = false := by rw [hpc]; rfl
  have F := I.flow
  simp only [Flow, hpc, hw] at F
  unfold afterRace
  split
  · exact catchCause_inv I.account hd I.flag _
  · exact catchCause_inv I.account hd I.flag _
  · exact ⟨I.account.quiet (l := []) (by simp) (by simp) (by rw [hpc]; rfl) rfl rfl rfl rfl rfl
      Iff.rfl rfl, ⟨F.1, F.2.1, F.2.2.2⟩, I.flag⟩

theorem afterRedact_inv {s : St} (I : Inv s) {report : Option Json} (hpc : s.pc = .redact report)
    (data : Json) (o : Outcome) : Inv (afterRedact s report data o) := by
  have hd : s.pc.isDone = false := by rw [hpc]; rfl
  have F := I.flow
  simp only [Flow, hpc] at F
  cases o with
  | threw e => exact catchCause_inv I.account hd I.flag e
  | returned =>
    refine ⟨I.account.quiet (l := [.produced]) rfl (by simp [Note.quiet]) (by rw [hpc]; rfl) rfl
      rfl rfl rfl rfl Iff.rfl rfl, ⟨?_, F.2.1.append _, F.2.2.append _⟩, ?_⟩
    · simpa [afterRedact, St.note] using F.1
    · simpa [afterRedact, St.note] using I.flag

/-- The `finally` of the call logs its answer under the facts the main flow has behind it. -/
theorem leaves_inv {s : St} (I : Inv s) {r r' : Response} (hpc : s.pc = .leaving r)
    (hr : r' = r ∨ r' = .rejected) : Inv (returns (queryFinally s) r') := by
  have hd : s.pc.isDone = false := by rw [hpc]; rfl
  obtain ⟨hsig, ns, hlog, hns⟩ := queryFinally_closes s
  have hab : .aborted ∉ ns := fun h => by rcases hns _ h with h | h <;> cases h
  have hfail : .failed ∉ ns := fun h => by rcases hns _ h with h | h <;> cases h
  obtain ⟨hsig', hmem, F'⟩ := returns_frame (queryFinally s) r'
  refine ⟨returns_account (queryFinally_account I.account hd r') ?_, F', ?_⟩
  · rintro body rfl
    rcases hr with rfl | h
    · have F := I.flow
      simp only [Flow, hpc] at F
      rw [hlog]
      refine ⟨?_, F.2.1.append _, F.2.2.imp (List.mem_append_left _) fun h => h.append _⟩
      simpa [hfail] using F.1
    · cases h
  · rw [hsig', hmem, hsig, hlog, List.mem_append, or_iff_left hab]
    exact I.flag

/-- The abort is logged before anything that comes after it. -/
theorem abortSignal_inv {s : St} (I : Inv s) (r : Thrown) :
    Inv { s.note [.aborted] with signalAborted := true, winner := raceWinner s (.error r) } where
  account := I.account.quiet (l := [.aborted]) rfl (by simp [Note.quiet]) rfl rfl rfl rfl rfl rfl
    Iff.rfl rfl
  flow := by
    refine I.flow.append (l := [.aborted]) rfl rfl rfl (by simp) (by simp) fun hpc => ?_
    cases hw : s.winner with
    | none => exact .inr ⟨rfl, .error r, by simp [raceWinner, hpc, hw], fun v h => by cases h⟩
    | some w => exact .inl ⟨by simp [raceWinner, hpc, hw], fun h => by cases h⟩
  flag := by simp [St.note]

/-- The handler settles: a result that decides the race comes before any abort. -/
theorem handlerSettles_inv {s : St} (I : Inv s) {r : Except Thrown Json}
    (hh : s.handler = .settling r) :
    Inv { s with handler := .settled r, winner := raceWinner s r } where
  account := I.account.quiet (l := []) (by simp) (by simp) rfl rfl rfl rfl rfl rfl
    (by simp [hh]) (by simp [hh, Handler.over])
  flow := by
    refine I.flow.append (l := []) (by simp) rfl rfl (by simp) (by simp) fun hpc => ?_
    cases hw : s.winner with
    | none =>
      refine .inr ⟨rfl, r, by simp [raceWinner, hpc, hw], fun v _ => unaborted_of_mem ?_ ?_⟩
      · show .settled ∈ s.log
        rw [I.account.settled, ← I.account.isOver, hh]
        rfl
      · have F := I.flow
        simp only [Flow, hpc, hw] at F
        exact F.2.2.2.1
    | some w => exact .inl ⟨by simp [raceWinner, hpc, hw], fun h => by cases h⟩
  flag := I.flag

theorem handlerFinally_inv {s : St} (I : Inv s) (hh : s.handler = .running)
    (r : Except Thrown Json) : Inv (handlerFinally s r) := by
  have A := handlerFinally_account I.account hh r
  obtain ⟨hpc, hwin, hsig, hhand, hlog⟩ := releaseWhenIdle_frame
    { s.note [.settled] with handler := .settling r, handlerSettledOnce := true }
  have hl : (handlerFinally s r).lease = s.lease := by
    unfold handlerFinally releaseWhenIdle
    split <;> rfl
  obtain ⟨ns, hns, hfail, hacq, hab⟩ : ∃ ns, (handlerFinally s r).log = s.log ++ ns ∧
      .failed ∉ ns ∧ .acquired ∉ ns ∧ .aborted ∉ ns := by
    rcases hlog with hlog | hlog
    · exact ⟨[.settled], hlog, by simp, by simp, by simp⟩
    · exact ⟨[.settled, .released], by rw [handlerFinally, hlog]; simp [St.note], by simp,
        by simp, by simp⟩
  refine ⟨A, I.flow.append hns hpc hl hfail hacq fun _ => .inl ⟨hwin, fun _ => ⟨hab, ?_⟩⟩, ?_⟩
  · show (releaseWhenIdle _).handler.result = none
    rw [hhand]
    rfl
  have hsame : (handlerFinally s r).signalAborted = s.signalAborted := hsig
  rw [hsame, hns, List.mem_append, or_iff_left hab]
  exact I.flag

/-- A step of the main flow that leaves the log and the lease alone. -/
theorem moves_inv {s : St} {p : Pc} {d : Descriptor} (I : Inv s)
    (hd : s.pc.isDone = false) (hp : p.isDone = false)
    (hf : Flow { s with pc := p, source := d }) : Inv { s with pc := p, source := d } where
  account := I.account.quiet (l := []) (by simp) (by simp) (hp.trans hd.symm) rfl rfl rfl rfl rfl
    Iff.rfl rfl
  flow := hf
  flag := I.flag

theorem inv_step (parseReport : Json → Option Json) (s : St) (ev : Ev) (s' : St) (I : Inv s)
    (hst : step parseReport s ev = some s') : Inv s' := by
  have F := I.flow
  cases ev with
  | abortCaller =>
    simp only [step, Option.some.injEq] at hst
    subst hst
    exact ⟨I.account.quiet (l := []) (by simp) (by simp) rfl rfl rfl rfl rfl rfl Iff.rfl rfl,
      I.flow, I.flag⟩
  | abortSignal =>
    simp only [step] at hst
    split at hst <;> simp only [Option.some.injEq, reduceCtorEq] at hst
    subst hst
    exact abortSignal_inv I _
  | admits =>
    simp only [step] at hst
    split at hst <;> simp only [Option.map_eq_some_iff, reduceCtorEq] at hst
    rename_i stage hpc
    obtain ⟨next, -, rfl⟩ := hst
    simp only [Flow, hpc] at F
    exact moves_inv I (by rw [hpc]; rfl) rfl F
  | looksUp d =>
    simp only [step] at hst
    split at hst <;> simp only [Option.some.injEq, reduceCtorEq] at hst
    all_goals subst hst; rename_i hpc; simp only [Flow, hpc] at F
    · exact moves_inv I (by rw [hpc]; rfl) rfl F
    · exact catchCause_inv I.account (by rw [hpc]; rfl) I.flag _
  | budgets v =>
    simp only [step] at hst
    split at hst <;> simp only [Option.some.injEq, reduceCtorEq] at hst
    subst hst
    rename_i hpc
    exact afterBudget_inv I hpc v
  | hits body =>
    simp only [step] at hst
    split at hst <;> simp only [Option.some.injEq, reduceCtorEq] at hst
    subst hst
    rename_i hpc
    simp only [Flow, hpc] at F
    refine ⟨I.account.quiet (l := [.hit, .produced]) rfl (by simp [Note.quiet])
      (by rw [hpc]; rfl) rfl rfl rfl rfl rfl Iff.rfl rfl, ⟨?_, F.2.1.append _, .inl ?_⟩, ?_⟩
    · simpa [St.note] using F.1
    · simp [St.note]
    · simpa [St.note] using I.flag
  | misses o =>
    simp only [step] at hst
    split at hst <;> simp only [Option.some.injEq, reduceCtorEq] at hst
    subst hst
    rename_i hpc
    exact afterMiss_inv I hpc o
  | entersRace =>
    simp only [step] at hst
    split at hst <;> simp only [Option.some.injEq, reduceCtorEq] at hst
    subst hst
    rename_i hpc
    exact enterRace_inv I hpc
  | handlerReturns r =>
    simp only [step] at hst
    split at hst <;> simp only [Option.some.injEq, reduceCtorEq] at hst
    subst hst
    rename_i hh
    exact handlerFinally_inv I hh r
  | handlerSettles =>
    simp only [step] at hst
    split at hst <;> simp only [Option.some.injEq, reduceCtorEq] at hst
    subst hst
    rename_i hh
    exact handlerSettles_inv I hh
  | raceSettles o =>
    simp only [step] at hst
    split at hst <;> simp only [Option.some.injEq, reduceCtorEq] at hst
    all_goals subst hst; rename_i hpc hw
    · exact afterRace_inv I hpc hw o
    · exact catchCause_inv I.account (by rw [hpc]; rfl) I.flag _
  | redacts data o =>
    simp only [step] at hst
    split at hst <;> simp only [Option.some.injEq, reduceCtorEq] at hst
    subst hst
    rename_i hpc
    exact afterRedact_inv I hpc data o
  | stores =>
    simp only [step] at hst
    split at hst <;> simp only [Option.some.injEq, reduceCtorEq] at hst
    subst hst
    rename_i hpc
    simp only [Flow, hpc] at F
    exact moves_inv I (by rw [hpc]; rfl) rfl ⟨F.1, F.2.1, .inr F.2.2⟩
  | throws e =>
    simp only [step] at hst
    split at hst <;> simp only [Option.some.injEq, reduceCtorEq] at hst
    subst hst
    rename_i hfall
    refine catchCause_inv I.account ?_ I.flag e
    cases hpc : s.pc <;> simp [hpc, Pc.fallible, Pc.isDone] at hfall ⊢
  | observes o =>
    simp only [step] at hst
    split at hst <;> simp only [Option.some.injEq, reduceCtorEq] at hst
    all_goals subst hst; rename_i hpc; simp only [Flow, hpc] at F
    · exact moves_inv I (by rw [hpc]; rfl) rfl F
    · refine ⟨I.account.quiet (l := [.observerThrew]) rfl (by simp [Note.quiet])
        (by rw [hpc]; rfl) rfl rfl rfl rfl rfl Iff.rfl rfl,
        ⟨?_, F.2.1.append _, F.2.2.imp (List.mem_append_left _) fun h => h.append _⟩, ?_⟩
      · simpa [St.note] using F.1
      · simpa [St.note] using I.flag
    · exact moves_inv I (by rw [hpc]; rfl) rfl trivial
  | serializes body =>
    simp only [step] at hst
    split at hst <;> simp only [Option.some.injEq, reduceCtorEq] at hst
    all_goals subst hst; rename_i hpc; exact moves_inv I (by rw [hpc]; rfl) rfl trivial
  | leaves threw =>
    simp only [step] at hst
    split at hst
    · rename_i r hpc
      split at hst <;> simp only [Option.some.injEq, reduceCtorEq] at hst
      subst hst
      refine leaves_inv I hpc ?_
      cases threw
      · exact .inl rfl
      · exact .inr rfl
    · cases hst

theorem inv_inductive (parseReport : Json → Option Json) : (lts parseReport).Inductive Inv where
  init := by rintro s ⟨d, rfl⟩; exact inv_init d
  step := inv_step parseReport

/-! ## Progress

Every step that is not an abort brings both flows closer to their ends, and a call that has not
finished has such a step. -/

/-- The call has answered and a handler it started has settled. -/
def Finished (s : St) : Prop := s.pc.isDone = true ∧ s.handler ≠ .running

def Stage.rank : Stage → Nat
  | .authenticate => 4 | .catalog => 3 | .surface => 2 | .authorize => 1 | .budget => 0

def Pc.rank : Pc → Nat
  | .admission stage => 10 + stage.rank
  | .cacheLookup => 9 | .dispatched => 8 | .race => 7 | .redact _ => 6 | .store _ => 5
  | .observeSuccess _ => 4 | .observeFailure _ => 3 | .serialize _ => 2 | .leaving _ => 1
  | .done _ => 0

def Handler.rank : Handler → Nat
  | .idle => 3 | .running => 2 | .settling _ => 1 | .settled _ => 0

def rank (s : St) : Nat := s.pc.rank + s.handler.rank

theorem catchCause_rank (s : St) (e : Thrown) (h : 4 ≤ s.pc.rank) :
    rank (catchCause s e) < rank s := by
  show 3 + s.handler.rank < s.pc.rank + s.handler.rank
  omega

theorem afterBudget_rank {s : St} (hpc : s.pc = .admission .budget) (v : Except Thrown Bool) :
    rank (afterBudget s v) < rank s := by
  have hcatch := fun e => catchCause_rank { s.note [.acquired] with lease := true } e
    (by simp [St.note, hpc, Pc.rank, Stage.rank])
  unfold afterBudget
  dsimp only
  split
  · exact hcatch _
  · exact hcatch _
  · split
    · exact hcatch _
    · show 9 + s.handler.rank < s.pc.rank + s.handler.rank
      simp only [hpc, Pc.rank, Stage.rank]
      omega

/-- The dispatch starts a handler that was idle. -/
theorem afterMiss_rank {s : St} (I : Inv s) (hpc : s.pc = .cacheLookup) (o : Outcome) :
    rank (afterMiss s o) < rank s := by
  have F := I.flow
  simp only [Flow, hpc] at F
  have hidle := I.account.handler.mpr (I.account.apart F.2.2)
  cases o with
  | threw e => exact catchCause_rank s e (by simp [hpc, Pc.rank])
  | returned =>
    show 8 + 2 < s.pc.rank + s.handler.rank
    rw [hpc, hidle]
    decide

theorem afterRace_rank {parseReport : Json → Option Json} {s : St} (hpc : s.pc = .race)
    (v : Json) (o : Outcome) : rank (afterRace parseReport s v o) < rank s := by
  have hcatch := fun e => catchCause_rank s e (by simp [hpc, Pc.rank])
  unfold afterRace
  split
  · exact hcatch _
  · exact hcatch _
  · simp [rank, hpc, Pc.rank]

theorem handlerFinally_rank {s : St} (hh : s.handler = .running) (r : Except Thrown Json) :
    rank (handlerFinally s r) < rank s := by
  obtain ⟨hpc, -, -, hhand, -⟩ := releaseWhenIdle_frame
    { s.note [.settled] with handler := .settling r, handlerSettledOnce := true }
  unfold rank handlerFinally
  rw [hpc, hhand, hh]
  simp [St.note, Handler.rank]

/-- The `finally` of the call leaves the handler alone. -/
theorem leaves_rank {s : St} {r : Response} (hpc : s.pc = .leaving r) (r' : Response) :
    rank (returns (queryFinally s) r') < rank s := by
  have hh : (queryFinally s).handler = s.handler := by
    unfold queryFinally releaseWhenIdle
    dsimp only [St.note]
    split <;> split <;> (try split) <;> rfl
  have hr : (returns (queryFinally s) r').handler = s.handler ∧
      (returns (queryFinally s) r').pc.rank = 0 := by
    unfold returns
    split
    · exact ⟨hh, rfl⟩
    · exact ⟨hh, rfl⟩
  unfold rank
  rw [hr.1, hr.2, hpc]
  simp [Pc.rank]

/-- **Termination.** Apart from the two aborts, a step of a reachable state lowers the rank, so a
call settles at most seventeen awaits. -/
theorem step_rank {parseReport : Json → Option Json} {s s' : St} {ev : Ev} (I : Inv s)
    (ha : ev.isAbort = false) (hst : step parseReport s ev = some s') : rank s' < rank s := by
  cases ev with
  | abortCaller => cases ha
  | abortSignal => cases ha
  | admits =>
    simp only [step] at hst
    split at hst <;> simp only [Option.map_eq_some_iff, reduceCtorEq] at hst
    rename_i stage hpc
    obtain ⟨next, hnext, rfl⟩ := hst
    unfold rank
    cases stage <;> simp only [Stage.next, Option.some.injEq, reduceCtorEq] at hnext
    all_goals subst hnext; simp [hpc, Pc.rank, Stage.rank]
  | looksUp d =>
    simp only [step] at hst
    split at hst <;> simp only [Option.some.injEq, reduceCtorEq] at hst
    all_goals subst hst; rename_i hpc
    · simp [rank, hpc, Pc.rank, Stage.rank]
    · exact catchCause_rank s _ (by simp only [hpc, Pc.rank]; omega)
  | budgets v =>
    simp only [step] at hst
    split at hst <;> simp only [Option.some.injEq, reduceCtorEq] at hst
    subst hst
    rename_i hpc
    exact afterBudget_rank hpc v
  | hits body =>
    simp only [step] at hst
    split at hst <;> simp only [Option.some.injEq, reduceCtorEq] at hst
    subst hst
    rename_i hpc
    simp [rank, St.note, hpc, Pc.rank]
  | misses o =>
    simp only [step] at hst
    split at hst <;> simp only [Option.some.injEq, reduceCtorEq] at hst
    subst hst
    rename_i hpc
    exact afterMiss_rank I hpc o
  | entersRace =>
    simp only [step] at hst
    split at hst <;> simp only [Option.some.injEq, reduceCtorEq] at hst
    subst hst
    rename_i hpc
    unfold enterRace
    split
    · exact catchCause_rank s _ (by simp [hpc, Pc.rank])
    · simp [rank, hpc, Pc.rank]
  | handlerReturns r =>
    simp only [step] at hst
    split at hst <;> simp only [Option.some.injEq, reduceCtorEq] at hst
    subst hst
    rename_i hh
    exact handlerFinally_rank hh r
  | handlerSettles =>
    simp only [step] at hst
    split at hst <;> simp only [Option.some.injEq, reduceCtorEq] at hst
    subst hst
    rename_i hh
    simp [rank, hh, Handler.rank]
  | raceSettles o =>
    simp only [step] at hst
    split at hst <;> simp only [Option.some.injEq, reduceCtorEq] at hst
    all_goals subst hst; rename_i hpc _
    · exact afterRace_rank hpc _ o
    · exact catchCause_rank s _ (by simp [hpc, Pc.rank])
  | redacts data o =>
    simp only [step] at hst
    split at hst <;> simp only [Option.some.injEq, reduceCtorEq] at hst
    subst hst
    rename_i hpc
    cases o with
    | threw e => exact catchCause_rank s _ (by simp [hpc, Pc.rank])
    | returned => simp [rank, afterRedact, St.note, hpc, Pc.rank]
  | stores =>
    simp only [step] at hst
    split at hst <;> simp only [Option.some.injEq, reduceCtorEq] at hst
    subst hst
    rename_i hpc
    simp [rank, hpc, Pc.rank]
  | throws e =>
    simp only [step] at hst
    split at hst <;> simp only [Option.some.injEq, reduceCtorEq] at hst
    subst hst
    rename_i hfall
    refine catchCause_rank s _ ?_
    cases hpc : s.pc <;> simp [hpc, Pc.fallible, Pc.rank] at hfall ⊢
    omega
  | observes o =>
    simp only [step] at hst
    split at hst <;> simp only [Option.some.injEq, reduceCtorEq] at hst
    all_goals subst hst; rename_i hpc; simp [rank, St.note, hpc, Pc.rank]
  | serializes body =>
    simp only [step] at hst
    split at hst <;> simp only [Option.some.injEq, reduceCtorEq] at hst
    all_goals subst hst; rename_i hpc; simp [rank, hpc, Pc.rank]
  | leaves threw =>
    simp only [step] at hst
    split at hst
    · rename_i r hpc
      split at hst <;> simp only [Option.some.injEq, reduceCtorEq] at hst
      subst hst
      exact leaves_rank hpc _
    · cases hst

theorem progress (parseReport : Json → Option Json) {s : St} (I : Inv s) (hf : ¬ Finished s) :
    ∃ ev s', ev.isAbort = false ∧ step parseReport s ev = some s' := by
  have F := I.flow
  cases hpc : s.pc with
  | admission stage => exact ⟨.throws none, _, rfl, by simp [step, hpc, Pc.fallible]; rfl⟩
  | cacheLookup => exact ⟨.throws none, _, rfl, by simp [step, hpc, Pc.fallible]; rfl⟩
  | redact report => exact ⟨.throws none, _, rfl, by simp [step, hpc, Pc.fallible]; rfl⟩
  | store body => exact ⟨.throws none, _, rfl, by simp [step, hpc, Pc.fallible]; rfl⟩
  | dispatched => exact ⟨.entersRace, _, rfl, by simp [step, hpc]; rfl⟩
  | observeSuccess body => exact ⟨.observes .returned, _, rfl, by simp [step, hpc]; rfl⟩
  | observeFailure e => exact ⟨.observes .returned, _, rfl, by simp [step, hpc]; rfl⟩
  | serialize e => exact ⟨.serializes none, _, rfl, by simp [step, hpc]; rfl⟩
  | leaving r => exact ⟨.leaves false, _, rfl, by simp [step, hpc]; rfl⟩
  | race =>
    simp only [Flow, hpc] at F
    cases hw : s.winner with
    | some r =>
      cases r with
      | ok v => exact ⟨.raceSettles .returned, _, rfl, by simp [step, hpc, hw]; rfl⟩
      | error e => exact ⟨.raceSettles .returned, _, rfl, by simp [step, hpc, hw]; rfl⟩
    | none =>
      -- an undecided race waits for the handler, which has been started and has not settled
      have hres := F.2.2.2
      simp only [hw] at hres
      cases hh : s.handler with
      | idle =>
        have hst := I.account.started.mp F.2.2.1
        rw [I.account.handler.mp hh] at hst
        cases hst
      | running => exact ⟨.handlerReturns (.error none), _, rfl, by simp [step, hh]; rfl⟩
      | settling r => exact ⟨.handlerSettles, _, rfl, by simp [step, hh]; rfl⟩
      | settled r => rw [hh] at hres; cases hres.2
  | done r =>
    have hrun : s.handler = .running := by
      by_contra h
      exact hf ⟨by rw [hpc]; rfl, h⟩
    exact ⟨.handlerReturns (.error none), _, rfl, by simp [step, hrun]; rfl⟩

/-! ## Headline properties -/

def sourceEx : Descriptor := ⟨"sales.leads", 1, "table.records", 1, "hash"⟩

/-- A request up to the cache, which is asked. -/
def traceAdmitted : List Ev :=
  [.admits, .looksUp (some sourceEx), .admits, .admits, .budgets (.ok true)]

end KNex.Runtime.DataSourceGateway
