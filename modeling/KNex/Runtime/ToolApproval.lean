import KNex.Core.Calls
import KNex.Core.JsMap
import KNex.Runtime.ToolIdempotency

/-!
# `InMemoryToolApprovalEvaluator`: an approval is used once

`packages/runtime/src/tool-approval.ts`. `submit` reserves the approval's id in `pending`, awaits
the issuer and a digest of the input, and enters the record; `evaluate` marks the record as being
consumed, awaits the digest of its own input, and either marks it used or gives it back.
Everything between two awaits is one step, and any number of calls of both interleave.

Records are objects (`heap`) that the map and the suspended calls refer to by number; the last
step of an approved submission creates one. What the clock, the issuer and the binding resolver
answer is part of the label; a clock reading is `none` when it is no integer, and `none` as an
answer means that the callee throws. SHA-256 is a parameter.

`single_use`: in every reachable state each record belongs to one approved submission, has
authorised at most one evaluation, is marked as used exactly when it has, and that evaluation is
bound to the submission's tool, input, principal and session and started before its expiry; the
map holds at most `maxRecords` records.
-/
namespace KNex.Runtime.ToolApproval

open KNex.Core
open KNex.Runtime.ToolGateway (Descriptor ToolGatewayError Thrown)
open KNex.Runtime.ToolIdempotency (isSafe validId)

/-! ## Data -/

/-- mirrors packages/runtime/src/tool-approval.ts:5-9 -/
def maxLifetimeMs : Int := 15 * 60 * 1000
def maxRecords : Nat := 10000

inductive ApprovalPolicy where
  | none | perCall
  deriving DecidableEq, Repr

/-- The fields of the context that the evaluator reads; `input` is `none` when the value is not
JSON. -/
structure ToolExecutionContext where
  descriptor : Descriptor
  approval : ApprovalPolicy
  input : Option Json
  deriving DecidableEq

/-- mirrors packages/runtime/src/tool-approval.ts:15-19 -/
structure ToolApprovalBinding where
  principalId : String
  agentSessionId : String
  approvalId : Option String
  deriving DecidableEq, Repr

/-- mirrors packages/runtime/src/tool-approval.ts:25-29; the decision is always "approve". -/
structure ToolApprovalSubmission where
  id : String
  expiresAtEpochMs : Int
  deriving DecidableEq, Repr

/-- mirrors packages/runtime/src/tool-approval.ts:35-45 -/
structure ApprovalRecord where
  id : String
  toolId : String
  toolVersion : Int
  inputDigest : String
  principalId : String
  agentSessionId : String
  expiresAtEpochMs : Int
  used : Bool
  consuming : Bool
  deriving DecidableEq, Repr

/-- mirrors packages/runtime/src/tool-approval.ts:47-49 -/
def approvalError (code message : String) : ToolGatewayError :=
  { code := code, status := 403, title := message }

def approvalInvalid : ToolGatewayError := approvalError "APPROVAL_INVALID" "Approval is invalid."

def contextInvalid : ToolGatewayError :=
  approvalError "APPROVAL_CONTEXT_INVALID" "Approval context is invalid."

def notRequired : ToolGatewayError :=
  approvalError "APPROVAL_NOT_REQUIRED" "Approval is not required."

def denied : ToolGatewayError := approvalError "APPROVAL_DENIED" "Approval was denied."

def approvalRequired : ToolGatewayError :=
  approvalError "APPROVAL_REQUIRED" "A valid per-call approval is required."

/-- mirrors packages/runtime/src/tool-approval.ts:56-69 -/
def parseSubmission (value : Json) : Except Thrown ToolApprovalSubmission :=
  if value.isObject = false ∨ joinNul (sortStrings value.keys) ≠
      joinNul ["decision", "expiresAtEpochMs", "id"] then .error (some approvalInvalid)
  else
    match value.get? "id", value.get? "decision", (value.get? "expiresAtEpochMs").bind (·.asSafeInt?)
      with
    | some (.str id), some (.str "approve"), some expiresAtEpochMs =>
      if validId id then .ok ⟨id, expiresAtEpochMs⟩ else .error (some approvalInvalid)
    | _, _, _ => .error (some approvalInvalid)

/-- mirrors packages/runtime/src/tool-approval.ts:71-75 -/
def inputDigest (sha256 : String → String) (input : Option Json) : Option String :=
  input.map fun input => "sha256:" ++ sha256 (Json.canonicalJson input)

/-- What the resolver answered, checked.
mirrors packages/runtime/src/tool-approval.ts:77-84 -/
def binding : Option ToolApprovalBinding → Except Thrown ToolApprovalBinding
  | none => .error none
  | some value =>
    if validId value.principalId ∧ validId value.agentSessionId ∧
        ∀ id ∈ value.approvalId, validId id = true then .ok value
    else .error (some contextInvalid)

/-! ## State -/

/-- A call of `submit`: suspended at one of its awaits, or settled. -/
inductive SubmitCall where
  | authorizing (ctx : ToolExecutionContext) (submission : ToolApprovalSubmission)
  | digesting (ctx : ToolExecutionContext) (submission : ToolApprovalSubmission)
      (subject : ToolApprovalBinding)
  | approved (ctx : ToolExecutionContext) (submission : ToolApprovalSubmission)
      (subject : ToolApprovalBinding) (record : Nat)
  | rejected (error : Thrown)
  deriving DecidableEq

/-- A call of `evaluate`, with the clock reading it started at. -/
inductive EvaluateCall where
  | notRequired
  | digesting (ctx : ToolExecutionContext) (subject : ToolApprovalBinding) (now : Int) (record : Nat)
  | approved (ctx : ToolExecutionContext) (subject : ToolApprovalBinding) (now : Int) (record : Nat)
  | rejected (error : Thrown)
  deriving DecidableEq

structure St where
  heap : List ApprovalRecord
  records : JsMap String Nat
  pending : List String
  submits : List SubmitCall
  evaluations : List EvaluateCall

def init : St := ⟨[], .empty, [], [], []⟩

inductive Ev where
  | submit (ctx : ToolExecutionContext) (value : Json) (clock : Option Int)
  /-- the issuer answers, and the resolver if it is asked -/
  | authorized (i : Nat) (answer : Option Bool) (subject : Option ToolApprovalBinding)
  /-- the digest of a submission is there, or fails -/
  | submitDigest (i : Nat) (ok : Bool)
  | evaluate (ctx : ToolExecutionContext) (clock : Option Int) (subject : Option ToolApprovalBinding)
  /-- the digest of an evaluation is there, or fails -/
  | evaluateDigest (j : Nat) (ok : Bool)

/-! ## Steps -/

/-- The entry goes: its record is not being consumed, and has expired. -/
def St.expired (s : St) (now : Int) (r : Nat) : Bool :=
  match s.heap[r]? with
  | some x => !x.consuming && decide (x.expiresAtEpochMs ≤ now)
  | none => false

/-- mirrors packages/runtime/src/tool-approval.ts:96-100 -/
def purgeExpired (s : St) (now : Int) : St :=
  { s with records := s.records.filter fun _ r => !s.expired now r }

/-- The clock reading, if it is one that a submission expiring then may be made at. -/
def submitTime (submission : ToolApprovalSubmission) : Option Int → Except Thrown Int
  | some now =>
    if isSafe now = false ∨ submission.expiresAtEpochMs ≤ now ∨
        maxLifetimeMs < submission.expiresAtEpochMs - now then .error (some approvalInvalid)
    else .ok now
  | none => .error (some approvalInvalid)

def St.addSubmit (s : St) (call : SubmitCall) : St := { s with submits := s.submits ++ [call] }

/-- Up to the first await.
mirrors packages/runtime/src/tool-approval.ts:114-128 -/
def submit (s : St) (ctx : ToolExecutionContext) (value : Json) (clock : Option Int) : St :=
  if ctx.approval = .none then s.addSubmit (.rejected (some notRequired))
  else match parseSubmission value with
    | .error e => s.addSubmit (.rejected e)
    | .ok submission =>
      match submitTime submission clock with
      | .error e => s.addSubmit (.rejected e)
      | .ok now =>
        let s := purgeExpired s now
        if (s.records.get? submission.id).isSome ∨ submission.id ∈ s.pending ∨
            maxRecords ≤ s.records.size + s.pending.length then
          s.addSubmit (.rejected (some denied))
        else
          { s.addSubmit (.authorizing ctx submission) with pending := submission.id :: s.pending }

/-- The call ends, and gives back its id. -/
def St.endSubmit (s : St) (i : Nat) (id : String) (call : SubmitCall) : St :=
  { s with pending := s.pending.erase id, submits := s.submits.set i call }

/-- mirrors packages/runtime/src/tool-approval.ts:130-133 -/
def authorized (s : St) (i : Nat) (ctx : ToolExecutionContext) (submission : ToolApprovalSubmission)
    (answer : Option Bool) (subject : Option ToolApprovalBinding) : St :=
  match answer with
  | none => s.endSubmit i submission.id (.rejected none)
  | some false => s.endSubmit i submission.id (.rejected (some denied))
  | some true =>
    match binding subject with
    | .error e => s.endSubmit i submission.id (.rejected e)
    | .ok subject => { s with submits := s.submits.set i (.digesting ctx submission subject) }

def newRecord (ctx : ToolExecutionContext) (submission : ToolApprovalSubmission)
    (subject : ToolApprovalBinding) (digest : String) : ApprovalRecord where
  id := submission.id
  toolId := ctx.descriptor.id
  toolVersion := ctx.descriptor.version
  inputDigest := digest
  principalId := subject.principalId
  agentSessionId := subject.agentSessionId
  expiresAtEpochMs := submission.expiresAtEpochMs
  used := false
  consuming := false

/-- mirrors packages/runtime/src/tool-approval.ts:134-148 -/
def submitDigest (sha256 : String → String) (s : St) (i : Nat) (ctx : ToolExecutionContext)
    (submission : ToolApprovalSubmission) (subject : ToolApprovalBinding) (ok : Bool) : St :=
  match inputDigest sha256 ctx.input, ok with
  | some digest, true =>
    { (s.endSubmit i submission.id (.approved ctx submission subject s.heap.length)) with
      heap := s.heap ++ [newRecord ctx submission subject digest]
      records := s.records.set submission.id s.heap.length }
  | _, _ => s.endSubmit i submission.id (.rejected none)

def St.addEvaluation (s : St) (call : EvaluateCall) : St :=
  { s with evaluations := s.evaluations ++ [call] }

/-- The record is free, and bound to this tool, principal and session. -/
def ApprovalRecord.accepts (x : ApprovalRecord) (ctx : ToolExecutionContext)
    (subject : ToolApprovalBinding) : Bool :=
  !x.used && !x.consuming && decide (x.toolId = ctx.descriptor.id ∧
    x.toolVersion = ctx.descriptor.version ∧ x.principalId = subject.principalId ∧
    x.agentSessionId = subject.agentSessionId)

/-- Up to the await.
mirrors packages/runtime/src/tool-approval.ts:151-163 -/
def evaluate (s : St) (ctx : ToolExecutionContext) (clock : Option Int)
    (subject : Option ToolApprovalBinding) : St :=
  if ctx.approval = .none then s.addEvaluation .notRequired
  else match clock.filter isSafe with
    | none => s.addEvaluation (.rejected (some contextInvalid))
    | some now =>
      let s := purgeExpired s now
      match binding subject with
      | .error e => s.addEvaluation (.rejected e)
      | .ok subject =>
        match subject.approvalId.bind s.records.get? with
        | none => s.addEvaluation (.rejected (some approvalRequired))
        | some r =>
          match s.heap[r]? with
          | none => s.addEvaluation (.rejected (some approvalRequired))
          | some x =>
            if x.accepts ctx subject then
              { s.addEvaluation (.digesting ctx subject now r) with
                heap := s.heap.set r { x with consuming := true } }
            else s.addEvaluation (.rejected (some approvalRequired))

/-- The evaluation fails, and the record is free again. -/
def St.giveBack (s : St) (j r : Nat) (x : ApprovalRecord) (error : Thrown) : St :=
  { s with
    heap := s.heap.set r { x with consuming := false }
    evaluations := s.evaluations.set j (.rejected error) }

/-- mirrors packages/runtime/src/tool-approval.ts:164-172 -/
def evaluateDigest (sha256 : String → String) (s : St) (j : Nat) (ctx : ToolExecutionContext)
    (subject : ToolApprovalBinding) (now : Int) (r : Nat) (x : ApprovalRecord) (ok : Bool) : St :=
  match inputDigest sha256 ctx.input, ok with
  | some digest, true =>
    if x.inputDigest ≠ digest then s.giveBack j r x (some approvalRequired)
    else
      { s with
        heap := s.heap.set r { x with used := true }
        evaluations := s.evaluations.set j (.approved ctx subject now r) }
  | _, _ => s.giveBack j r x none

def step (sha256 : String → String) (s : St) : Ev → Option St
  | .submit ctx value clock => some (submit s ctx value clock)
  | .authorized i answer subject =>
    match s.submits[i]? with
    | some (.authorizing ctx submission) => some (authorized s i ctx submission answer subject)
    | _ => none
  | .submitDigest i ok =>
    match s.submits[i]? with
    | some (.digesting ctx submission subject) =>
      some (submitDigest sha256 s i ctx submission subject ok)
    | _ => none
  | .evaluate ctx clock subject => some (evaluate s ctx clock subject)
  | .evaluateDigest j ok =>
    match s.evaluations[j]? with
    | some (.digesting ctx subject now r) =>
      s.heap[r]?.map fun x => evaluateDigest sha256 s j ctx subject now r x ok
    | _ => none

def lts (sha256 : String → String) : LTS St Ev := .ofFn (· = init) (step sha256)

/-! ## What the evaluator is for -/

/-- The evaluation is bound to what the submission was bound to, and started in time. -/
structure Bound (sha256 : String → String) (ctx₀ : ToolExecutionContext)
    (submission : ToolApprovalSubmission) (subject₀ : ToolApprovalBinding)
    (ctx : ToolExecutionContext) (subject : ToolApprovalBinding) (now : Int) : Prop where
  approval : subject.approvalId = some submission.id
  tool : ctx.descriptor.id = ctx₀.descriptor.id
  version : ctx.descriptor.version = ctx₀.descriptor.version
  input : inputDigest sha256 ctx.input = inputDigest sha256 ctx₀.input
  json : ctx.input.isSome = true
  principal : subject.principalId = subject₀.principalId
  session : subject.agentSessionId = subject₀.agentSessionId
  started : now < submission.expiresAtEpochMs

structure Safe (sha256 : String → String) (s : St) : Prop where
  /-- the record of an approved submission is its own -/
  submitted : ∀ (i j : Nat) (ctx ctx' : ToolExecutionContext) (sub sub' : ToolApprovalSubmission)
    (subject subject' : ToolApprovalBinding) (r : Nat),
    s.submits[i]? = some (.approved ctx sub subject r) →
    s.submits[j]? = some (.approved ctx' sub' subject' r) → i = j
  once : ∀ (i j : Nat) (ctx ctx' : ToolExecutionContext) (subject subject' : ToolApprovalBinding)
    (now now' : Int) (r : Nat), s.evaluations[i]? = some (.approved ctx subject now r) →
    s.evaluations[j]? = some (.approved ctx' subject' now' r) → i = j
  bound : ∀ (j : Nat) (ctx : ToolExecutionContext) (subject : ToolApprovalBinding) (now : Int)
    (r : Nat), s.evaluations[j]? = some (.approved ctx subject now r) →
    ∃ (i : Nat) (ctx₀ : ToolExecutionContext) (submission : ToolApprovalSubmission)
      (subject₀ : ToolApprovalBinding),
      s.submits[i]? = some (.approved ctx₀ submission subject₀ r) ∧
      Bound sha256 ctx₀ submission subject₀ ctx subject now
  /-- nothing but an approved evaluation uses a record up -/
  used : ∀ (r : Nat) (x : ApprovalRecord), s.heap[r]? = some x → (x.used = true ↔
    ∃ (j : Nat) (ctx : ToolExecutionContext) (subject : ToolApprovalBinding) (now : Int),
      s.evaluations[j]? = some (.approved ctx subject now r))
  bounded : s.records.size ≤ maxRecords

/-! ## Invariant -/

/-- The id that a suspended submission has reserved. -/
def SubmitCall.reserves : SubmitCall → Option String
  | .authorizing _ submission => some submission.id
  | .digesting _ submission _ => some submission.id
  | _ => none

/-- The record of an approved submission. -/
def SubmitCall.record? : SubmitCall → Option Nat
  | .approved _ _ _ r => some r
  | _ => none

/-- The record that an evaluation is consuming, or has used up. -/
def EvaluateCall.record? : EvaluateCall → Option Nat
  | .digesting _ _ _ r => some r
  | .approved _ _ _ r => some r
  | _ => none

/-- A record as it was entered. -/
def ApprovalRecord.issued (x : ApprovalRecord) : ApprovalRecord :=
  { x with used := false, consuming := false }

/-- The records, and the submissions that make them. -/
structure Submitted (sha256 : String → String) (s : St) : Prop where
  table : ∀ k r, s.records.get? k = some r → ∃ x, s.heap[r]? = some x ∧ x.id = k
  made : ∀ (r : Nat) (x : ApprovalRecord), s.heap[r]? = some x → ∃ ctx submission subject digest,
    .approved ctx submission subject r ∈ s.submits ∧ inputDigest sha256 ctx.input = some digest ∧
    x.issued = newRecord ctx submission subject digest
  known : ∀ call ∈ s.submits, ∀ r, call.record? = some r → r < s.heap.length
  maker : HeldOnce SubmitCall.record? s.submits
  reserved : ∀ call ∈ s.submits, ∀ id, call.reserves = some id → id ∈ s.pending
  reserver : HeldOnce SubmitCall.reserves s.submits
  nodup : s.pending.Nodup
  fresh : ∀ id ∈ s.pending, s.records.get? id = none
  size : s.records.size + s.pending.length ≤ maxRecords

/-- The flags of the records, and the evaluations that set them. -/
structure Consumed (sha256 : String → String) (s : St) : Prop where
  digesting : ∀ ctx subject now r, .digesting ctx subject now r ∈ s.evaluations →
    ∃ x, s.heap[r]? = some x ∧ x.used = false ∧ x.consuming = true ∧
      x.issued.accepts ctx subject = true ∧ subject.approvalId = some x.id ∧
      now < x.expiresAtEpochMs
  approved : ∀ ctx subject now r, .approved ctx subject now r ∈ s.evaluations →
    ∃ x, s.heap[r]? = some x ∧ x.used = true ∧ x.issued.accepts ctx subject = true ∧
      subject.approvalId = some x.id ∧ now < x.expiresAtEpochMs ∧
      inputDigest sha256 ctx.input = some x.inputDigest
  consumer : HeldOnce EvaluateCall.record? s.evaluations
  used : ∀ (r : Nat) (x : ApprovalRecord), s.heap[r]? = some x → x.used = true →
    ∃ ctx subject now, .approved ctx subject now r ∈ s.evaluations

structure Inv (sha256 : String → String) (s : St) : Prop where
  submitted : Submitted sha256 s
  consumed : Consumed sha256 s

theorem inv_init (sha256 : String → String) : Inv sha256 init := by
  refine ⟨⟨?_, ?_, ?_, .nil, ?_, .nil, List.nodup_nil, ?_, Nat.zero_le _⟩, ⟨?_, ?_, .nil, ?_⟩⟩ <;>
    simp [init]

variable {sha256 : String → String} {s s' : St}

/-! ### Purging -/

theorem get?_purgeExpired {now : Int} {k : String} {r : Nat}
    (h : (purgeExpired s now).records.get? k = some r) :
    s.records.get? k = some r ∧ s.expired now r = false := by
  simp only [purgeExpired, JsMap.get?_filter, Option.filter_eq_some_iff] at h
  exact ⟨h.1, by simpa using h.2⟩

theorem submitted_purge (h : Submitted sha256 s) (now : Int) :
    Submitted sha256 (purgeExpired s now) where
  table k r hk := h.table k r (get?_purgeExpired hk).1
  made := h.made
  known := h.known
  maker := h.maker
  reserved := h.reserved
  reserver := h.reserver
  nodup := h.nodup
  fresh id hid := by
    simp only [purgeExpired, JsMap.get?_filter, h.fresh id hid, Option.filter_none]
  size := by
    have hle := s.records.size_filter_le fun _ r => !s.expired now r
    have hsize := h.size
    show (s.records.filter fun _ r => !s.expired now r).size + s.pending.length ≤ maxRecords
    omega

theorem inv_purge (h : Inv sha256 s) (now : Int) : Inv sha256 (purgeExpired s now) :=
  ⟨submitted_purge h.submitted now, h.consumed.digesting, h.consumed.approved, h.consumed.consumer,
    h.consumed.used⟩

/-! ### Submissions -/

/-- A new submission, with the id it has reserved, if any. -/
theorem inv_addSubmit (h : Inv sha256 s) {call : SubmitCall} (hr : call.record? = none)
    (hc : call.reserves = none) : Inv sha256 (s.addSubmit call) := by
  obtain ⟨h, hcon⟩ := h
  refine ⟨⟨h.table, fun r x hx => ?_, fun c hm => ?_, h.maker.snoc ?_, fun c hm => ?_,
    h.reserver.snoc ?_, h.nodup, h.fresh, h.size⟩, hcon.digesting, hcon.approved, hcon.consumer,
    hcon.used⟩
  · obtain ⟨ctx, submission, subject, digest, hm, hrest⟩ := h.made r x hx
    exact ⟨ctx, submission, subject, digest, List.mem_append_left _ hm, hrest⟩
  · rcases List.mem_append.mp hm with hm | hm
    · exact h.known c hm
    · rw [List.mem_singleton.mp hm, hr]
      intro r he
      cases he
  · intro k he
    rw [hr] at he
    cases he
  · rcases List.mem_append.mp hm with hm | hm
    · exact h.reserved c hm
    · rw [List.mem_singleton.mp hm, hc]
      intro id he
      cases he
  · intro k he
    rw [hc] at he
    cases he

theorem inv_reserve (h : Inv sha256 s) {ctx : ToolExecutionContext}
    {submission : ToolApprovalSubmission} (hr : s.records.get? submission.id = none)
    (hp : submission.id ∉ s.pending) (hsize : s.records.size + s.pending.length < maxRecords) :
    Inv sha256 { s.addSubmit (.authorizing ctx submission) with
      pending := submission.id :: s.pending } := by
  obtain ⟨h, hcon⟩ := h
  refine ⟨⟨h.table, fun r x hx => ?_, fun c hm => ?_, h.maker.snoc ?_, fun c hm id hid => ?_,
    h.reserver.snoc ?_, List.nodup_cons.mpr ⟨hp, h.nodup⟩, List.forall_mem_cons.mpr ⟨hr, h.fresh⟩,
    ?_⟩, hcon.digesting, hcon.approved, hcon.consumer, hcon.used⟩
  · obtain ⟨ctx, submission, subject, digest, hm, hrest⟩ := h.made r x hx
    exact ⟨ctx, submission, subject, digest, List.mem_append_left _ hm, hrest⟩
  · rcases List.mem_append.mp hm with hm | hm
    · exact h.known c hm
    · rw [List.mem_singleton.mp hm]
      intro r he
      cases he
  · intro k he
    cases he
  · rcases List.mem_append.mp hm with hm | hm
    · exact List.mem_cons_of_mem _ (h.reserved c hm id hid)
    · rw [List.mem_singleton.mp hm] at hid
      obtain rfl := Option.some.inj hid
      exact List.mem_cons_self
  · intro k he c hm hc
    obtain rfl := Option.some.inj he
    exact hp (h.reserved c hm _ hc)
  · show s.records.size + (submission.id :: s.pending).length ≤ maxRecords
    rw [List.length_cons]
    omega

theorem inv_submit (h : Inv sha256 s) (ctx : ToolExecutionContext) (value : Json)
    (clock : Option Int) : Inv sha256 (submit s ctx value clock) := by
  unfold submit
  split
  · exact inv_addSubmit h rfl rfl
  split
  · exact inv_addSubmit h rfl rfl
  split
  · exact inv_addSubmit h rfl rfl
  rename_i now _
  have hp := inv_purge h now
  dsimp only
  split
  · exact inv_addSubmit hp rfl rfl
  · rename_i hok
    simp only [not_or, Bool.not_eq_true, Option.isSome_eq_false_iff, Option.isNone_iff_eq_none,
      Nat.not_le] at hok
    exact inv_reserve hp hok.1 hok.2.1 hok.2.2

/-- A submission that fails gives its id back. -/
theorem inv_endSubmit (h : Inv sha256 s) {i : Nat} {call : SubmitCall} {id : String}
    (hi : s.submits[i]? = some call) (hid : call.reserves = some id) (error : Thrown) :
    Inv sha256 (s.endSubmit i id (.rejected error)) := by
  obtain ⟨h, hcon⟩ := h
  have hnot : call.record? = none := by
    cases call <;> simp [SubmitCall.reserves, SubmitCall.record?] at hid ⊢
  refine ⟨⟨h.table, fun r x hx => ?_, fun c hm => ?_, h.maker.set hi ?_, fun c hm k hk => ?_,
    h.reserver.set hi ?_, h.nodup.erase id, fun k hk => h.fresh k (List.mem_of_mem_erase hk), ?_⟩,
    hcon.digesting, hcon.approved, hcon.consumer, hcon.used⟩
  · obtain ⟨ctx, submission, subject, digest, hm, hrest⟩ := h.made r x hx
    refine ⟨ctx, submission, subject, digest, mem_set_of_ne hi hm ?_, hrest⟩
    rintro rfl
    cases hid
  · rcases List.mem_or_eq_of_mem_set hm with hm | rfl
    · exact h.known c hm
    · intro r he
      cases he
  · intro k he
    cases he
  · rcases List.mem_or_eq_of_mem_set hm with hold | rfl
    · refine (List.mem_erase_of_ne ?_).mpr (h.reserved c hold k hk)
      rintro rfl
      exact h.reserver.dropped hi hid (by simp [SubmitCall.reserves]) c hm hk
    · cases hk
  · intro k he
    cases he
  · have hlen := List.length_erase_le (a := id) (l := s.pending)
    have hsize := h.size
    show s.records.size + (s.pending.erase id).length ≤ maxRecords
    omega

theorem inv_authorized (h : Inv sha256 s) {i : Nat} {ctx : ToolExecutionContext}
    {submission : ToolApprovalSubmission} (hi : s.submits[i]? = some (.authorizing ctx submission))
    (answer : Option Bool) (subject : Option ToolApprovalBinding) :
    Inv sha256 (authorized s i ctx submission answer subject) := by
  unfold authorized
  split
  · exact inv_endSubmit h hi rfl none
  · exact inv_endSubmit h hi rfl _
  split
  · exact inv_endSubmit h hi rfl _
  rename_i subject _
  obtain ⟨h, hcon⟩ := h
  have hid : ∀ id, (SubmitCall.digesting ctx submission subject).reserves = some id →
      (SubmitCall.authorizing ctx submission).reserves = some id := fun id he => he
  refine ⟨⟨h.table, fun r x hx => ?_, fun c hm => ?_, h.maker.set hi ?_, fun c hm id hc => ?_,
    h.reserver.set hi hid, h.nodup, h.fresh, h.size⟩, hcon.digesting, hcon.approved, hcon.consumer,
    hcon.used⟩
  · obtain ⟨ctx, submission, subject, digest, hm, hrest⟩ := h.made r x hx
    refine ⟨ctx, submission, subject, digest, mem_set_of_ne hi hm ?_, hrest⟩
    intro he
    cases he
  · rcases List.mem_or_eq_of_mem_set hm with hm | rfl
    · exact h.known c hm
    · intro r he
      cases he
  · intro k he
    cases he
  · rcases List.mem_or_eq_of_mem_set hm with hm | rfl
    · exact h.reserved c hm id hc
    · exact h.reserved _ (List.mem_of_getElem? hi) id hc

/-- An approved submission enters its record, and gives its id back. -/
theorem inv_enter (h : Inv sha256 s) {i : Nat} {ctx : ToolExecutionContext}
    {submission : ToolApprovalSubmission} {subject : ToolApprovalBinding} {digest : String}
    (hi : s.submits[i]? = some (.digesting ctx submission subject))
    (hd : inputDigest sha256 ctx.input = some digest) :
    Inv sha256
      { (s.endSubmit i submission.id (.approved ctx submission subject s.heap.length)) with
        heap := s.heap ++ [newRecord ctx submission subject digest]
        records := s.records.set submission.id s.heap.length } := by
  obtain ⟨h, hcon⟩ := h
  have hpending : submission.id ∈ s.pending := h.reserved _ (List.mem_of_getElem? hi) _ rfl
  have hlen : i < s.submits.length := (List.getElem?_eq_some_iff.mp hi).1
  refine ⟨⟨fun k r hk => ?_, fun r x hx => ?_, fun c hm r hr => ?_, h.maker.take ?_,
    fun c hm k hk => ?_, h.reserver.set hi ?_, h.nodup.erase _, fun k hk => ?_, ?_⟩,
    fun ctx subject now r hm => ?_, fun ctx subject now r hm => ?_, hcon.consumer,
    fun r x hx hu => ?_⟩
  · rw [JsMap.get?_set] at hk
    split at hk
    · rename_i heq
      obtain rfl := Option.some.inj hk
      exact ⟨_, List.getElem?_concat_length, heq.symm⟩
    · obtain ⟨x, hx, hid⟩ := h.table k r hk
      exact ⟨x, getElem?_append_of_some hx, hid⟩
  · rcases getElem?_snoc hx with hx | ⟨rfl, rfl⟩
    · obtain ⟨ctx', submission', subject', digest', hm, hrest⟩ := h.made r x hx
      refine ⟨ctx', submission', subject', digest', mem_set_of_ne hi hm ?_, hrest⟩
      intro he
      cases he
    · exact ⟨ctx, submission, subject, digest, List.mem_set hlen _, hd, rfl⟩
  · rw [List.length_append]
    rcases List.mem_or_eq_of_mem_set hm with hm | rfl
    · have := h.known c hm r hr
      omega
    · obtain rfl := Option.some.inj hr
      exact Nat.lt_succ_self _
  · intro k hk c hm hc
    obtain rfl := Option.some.inj hk
    exact Nat.lt_irrefl _ (h.known c hm _ hc)
  · rcases List.mem_or_eq_of_mem_set hm with hold | rfl
    · refine (List.mem_erase_of_ne ?_).mpr (h.reserved c hold k hk)
      rintro rfl
      exact h.reserver.dropped hi rfl (by simp [SubmitCall.reserves]) c hm hk
    · cases hk
  · intro k he
    cases he
  · have hne : k ≠ submission.id := by
      rintro rfl
      exact h.nodup.not_mem_erase hk
    show (s.records.set submission.id s.heap.length).get? k = none
    rw [JsMap.get?_set_ne _ _ hne]
    exact h.fresh k (List.mem_of_mem_erase hk)
  · have hsize := h.size
    have hpos := List.length_pos_of_mem hpending
    show (s.records.set submission.id s.heap.length).size + (s.pending.erase submission.id).length ≤
      maxRecords
    rw [JsMap.size_set_of_none (h.fresh _ hpending), List.length_erase_of_mem hpending]
    omega
  · obtain ⟨x, hx, hrest⟩ := hcon.digesting ctx subject now r hm
    exact ⟨x, getElem?_append_of_some hx, hrest⟩
  · obtain ⟨x, hx, hrest⟩ := hcon.approved ctx subject now r hm
    exact ⟨x, getElem?_append_of_some hx, hrest⟩
  · rcases getElem?_snoc hx with hx | ⟨-, rfl⟩
    · exact hcon.used r x hx hu
    · cases hu

theorem inv_submitDigest (h : Inv sha256 s) {i : Nat} {ctx : ToolExecutionContext}
    {submission : ToolApprovalSubmission} {subject : ToolApprovalBinding}
    (hi : s.submits[i]? = some (.digesting ctx submission subject)) (ok : Bool) :
    Inv sha256 (submitDigest sha256 s i ctx submission subject ok) := by
  unfold submitDigest
  split
  · rename_i digest hd
    exact inv_enter h hi hd
  · exact inv_endSubmit h hi rfl none

/-! ### Evaluations -/

/-- Only the flags of a record change. -/
theorem submitted_set (h : Submitted sha256 s) {r : Nat} {x : ApprovalRecord}
    (hx : s.heap[r]? = some x) (y : ApprovalRecord) (hy : y.issued = x.issued)
    (evaluations : List EvaluateCall) :
    Submitted sha256 { s with heap := s.heap.set r y, evaluations := evaluations } where
  table k q hk := by
    obtain ⟨z, hz, hid⟩ := h.table k q hk
    by_cases heq : r = q
    · subst heq
      refine ⟨y, List.getElem?_set_self (List.getElem?_eq_some_iff.mp hx).1, ?_⟩
      obtain rfl := Option.some.inj (hx.symm.trans hz)
      have hyid : y.issued.id = x.issued.id := congrArg ApprovalRecord.id hy
      exact hyid.trans hid
    · exact ⟨z, (List.getElem?_set_ne heq).trans hz, hid⟩
  made q z hz := by
    rcases getElem?_set_cases hz with ⟨-, hz⟩ | ⟨rfl, rfl⟩
    · exact h.made q z hz
    · rw [hy]
      exact h.made q x hx
  known c hm q hq := by
    rw [List.length_set]
    exact h.known c hm q hq
  maker := h.maker
  reserved := h.reserved
  reserver := h.reserver
  nodup := h.nodup
  fresh := h.fresh
  size := h.size

theorem inv_addEvaluation (h : Inv sha256 s) {call : EvaluateCall} (hc : call.record? = none) :
    Inv sha256 (s.addEvaluation call) := by
  obtain ⟨⟨h1, h2, h3, h4, h5, h6, h7, h8, h9⟩, hcon⟩ := h
  refine ⟨⟨h1, h2, h3, h4, h5, h6, h7, h8, h9⟩, fun ctx subject now r hm => ?_,
    fun ctx subject now r hm => ?_, hcon.consumer.snoc ?_, fun r x hx hu => ?_⟩
  · rcases List.mem_append.mp hm with hm | hm
    · exact hcon.digesting ctx subject now r hm
    · rw [← List.mem_singleton.mp hm] at hc
      cases hc
  · rcases List.mem_append.mp hm with hm | hm
    · exact hcon.approved ctx subject now r hm
    · rw [← List.mem_singleton.mp hm] at hc
      cases hc
  · intro k he
    rw [hc] at he
    cases he
  · obtain ⟨ctx, subject, now, hm⟩ := hcon.used r x hx hu
    exact ⟨ctx, subject, now, List.mem_append_left _ hm⟩

/-- A free record has no evaluation. -/
theorem no_consumer (h : Consumed sha256 s) {r : Nat} {x : ApprovalRecord}
    (hx : s.heap[r]? = some x) (hu : x.used = false) (hc : x.consuming = false) :
    ∀ call ∈ s.evaluations, call.record? ≠ some r := by
  intro call hm hr
  cases call with
  | digesting ctx subject now r' =>
    obtain rfl := Option.some.inj hr
    obtain ⟨y, hy, -, hcy, -⟩ := h.digesting ctx subject now r' hm
    obtain rfl := Option.some.inj (hx.symm.trans hy)
    rw [hc] at hcy
    cases hcy
  | approved ctx subject now r' =>
    obtain rfl := Option.some.inj hr
    obtain ⟨y, hy, huy, -⟩ := h.approved ctx subject now r' hm
    obtain rfl := Option.some.inj (hx.symm.trans hy)
    rw [hu] at huy
    cases huy
  | notRequired => cases hr
  | rejected error => cases hr

theorem accepts_iff {x : ApprovalRecord} {ctx : ToolExecutionContext}
    {subject : ToolApprovalBinding} : x.accepts ctx subject = true ↔ x.used = false ∧
      x.consuming = false ∧ x.toolId = ctx.descriptor.id ∧ x.toolVersion = ctx.descriptor.version ∧
      x.principalId = subject.principalId ∧ x.agentSessionId = subject.agentSessionId := by
  simp [ApprovalRecord.accepts, and_assoc]

/-- What a record accepts, it also accepted when it was entered. -/
theorem accepts_issued {x : ApprovalRecord} {ctx : ToolExecutionContext}
    {subject : ToolApprovalBinding} (h : x.accepts ctx subject = true) :
    x.issued.accepts ctx subject = true := by
  rw [accepts_iff] at h ⊢
  exact ⟨rfl, rfl, h.2.2⟩

/-- An evaluation starts to consume a free record that has not expired. -/
theorem inv_consume (h : Inv sha256 s) {ctx : ToolExecutionContext} {subject : ToolApprovalBinding}
    {now : Int} {r : Nat} {x : ApprovalRecord} (hx : s.heap[r]? = some x)
    (ha : x.accepts ctx subject = true) (hid : subject.approvalId = some x.id)
    (hnow : now < x.expiresAtEpochMs) :
    Inv sha256 { s.addEvaluation (.digesting ctx subject now r) with
      heap := s.heap.set r { x with consuming := true } } := by
  obtain ⟨h, hcon⟩ := h
  obtain ⟨hu, hc, -⟩ := accepts_iff.mp ha
  have hnone := no_consumer hcon hx hu hc
  have hother : ∀ {call : EvaluateCall} {q : Nat} {y : ApprovalRecord}, call ∈ s.evaluations →
      call.record? = some q → s.heap[q]? = some y →
      (s.heap.set r { x with consuming := true })[q]? = some y := by
    intro call q y hm hq hy
    have hne : r ≠ q := by
      rintro rfl
      exact hnone call hm hq
    exact (List.getElem?_set_ne hne).trans hy
  have hself : (s.heap.set r { x with consuming := true })[r]? = some { x with consuming := true } :=
    List.getElem?_set_self (List.getElem?_eq_some_iff.mp hx).1
  refine ⟨submitted_set h hx { x with consuming := true } rfl _,
    fun ctx' subject' now' q hm => ?_,
    fun ctx' subject' now' q hm => ?_, hcon.consumer.snoc ?_, fun q y hy huy => ?_⟩
  · rcases List.mem_append.mp hm with hm | hm
    · obtain ⟨y, hy, hrest⟩ := hcon.digesting ctx' subject' now' q hm
      exact ⟨y, hother hm rfl hy, hrest⟩
    · cases List.mem_singleton.mp hm
      exact ⟨_, hself, hu, rfl, accepts_issued (x := x) ha, hid, hnow⟩
  · rcases List.mem_append.mp hm with hm | hm
    · obtain ⟨y, hy, hrest⟩ := hcon.approved ctx' subject' now' q hm
      exact ⟨y, hother hm rfl hy, hrest⟩
    · cases List.mem_singleton.mp hm
  · intro k hk call hm hcall
    obtain rfl := Option.some.inj hk
    exact hnone call hm hcall
  · rcases getElem?_set_cases hy with ⟨-, hy⟩ | ⟨rfl, rfl⟩
    · obtain ⟨ctx', subject', now', hm⟩ := hcon.used q y hy huy
      exact ⟨ctx', subject', now', List.mem_append_left _ hm⟩
    · rw [hu] at huy
      cases huy

theorem inv_evaluate (h : Inv sha256 s) (ctx : ToolExecutionContext) (clock : Option Int)
    (subject : Option ToolApprovalBinding) : Inv sha256 (evaluate s ctx clock subject) := by
  unfold evaluate
  split
  · exact inv_addEvaluation h rfl
  split
  · exact inv_addEvaluation h rfl
  rename_i now _
  have hp := inv_purge h now
  dsimp only
  split
  · exact inv_addEvaluation hp rfl
  rename_i subject _
  split
  · exact inv_addEvaluation hp rfl
  rename_i r hr
  split
  · exact inv_addEvaluation hp rfl
  rename_i x hx
  split
  · rename_i ha
    obtain ⟨id, hid, hget⟩ := Option.bind_eq_some_iff.mp hr
    obtain ⟨hget, hexp⟩ := get?_purgeExpired hget
    obtain ⟨y, hy, hyid⟩ := h.submitted.table id r hget
    have hxy : s.heap[r]? = some x := hx
    obtain rfl := Option.some.inj (hxy.symm.trans hy)
    refine inv_consume hp hx ha (hyid ▸ hid) ?_
    obtain ⟨-, hfree, -⟩ := accepts_iff.mp ha
    simp only [St.expired, hxy, hfree, Bool.not_false, Bool.true_and,
      decide_eq_false_iff_not] at hexp
    omega
  · exact inv_addEvaluation hp rfl

/-- The record of an evaluation that ends is in the hands of no other. -/
theorem other_record (h : Consumed sha256 s) {j r : Nat} {call : EvaluateCall}
    (hj : s.evaluations[j]? = some call) (hr : call.record? = some r) {c c' : EvaluateCall} {q : Nat}
    (hm : c ∈ s.evaluations.set j c') (hc : c ≠ c') (hq : c.record? = some q) :
    c ∈ s.evaluations ∧ r ≠ q := by
  obtain ⟨i, hlt, hget⟩ := List.getElem_of_mem hm
  have hi : (s.evaluations.set j c')[i]? = some c := by
    rw [List.getElem?_eq_getElem hlt, hget]
  rcases getElem?_set_cases hi with ⟨hne, hi⟩ | ⟨-, heq⟩
  · refine ⟨List.mem_of_getElem? hi, ?_⟩
    rintro rfl
    exact hne (h.consumer i j c call r hi hj hq hr)
  · exact absurd heq hc

theorem inv_giveBack (h : Inv sha256 s) {j r : Nat} {ctx : ToolExecutionContext}
    {subject : ToolApprovalBinding} {now : Int} {x : ApprovalRecord}
    (hj : s.evaluations[j]? = some (.digesting ctx subject now r)) (hx : s.heap[r]? = some x)
    (error : Thrown) : Inv sha256 (s.giveBack j r x error) := by
  obtain ⟨h, hcon⟩ := h
  have hrest : ∀ {c : EvaluateCall} {q : Nat}, c ∈ s.evaluations.set j (.rejected error) →
      c.record? = some q → c ∈ s.evaluations ∧ r ≠ q := by
    intro c q hm hq
    refine other_record hcon hj rfl hm ?_ hq
    rintro rfl
    cases hq
  refine ⟨submitted_set h hx { x with consuming := false } rfl _,
    fun ctx' subject' now' q hm => ?_,
    fun ctx' subject' now' q hm => ?_, hcon.consumer.set hj ?_, fun q y hy huy => ?_⟩
  · obtain ⟨hm, hne⟩ := hrest hm rfl
    obtain ⟨y, hy, hall⟩ := hcon.digesting ctx' subject' now' q hm
    exact ⟨y, (List.getElem?_set_ne hne).trans hy, hall⟩
  · obtain ⟨hm, hne⟩ := hrest hm rfl
    obtain ⟨y, hy, hall⟩ := hcon.approved ctx' subject' now' q hm
    exact ⟨y, (List.getElem?_set_ne hne).trans hy, hall⟩
  · intro k hk
    cases hk
  · have hold : ∃ y', s.heap[q]? = some y' ∧ y'.used = true := by
      rcases getElem?_set_cases hy with ⟨-, hy⟩ | ⟨rfl, rfl⟩
      · exact ⟨y, hy, huy⟩
      · exact ⟨x, hx, huy⟩
    obtain ⟨y', hy', huy'⟩ := hold
    obtain ⟨ctx', subject', now', hm⟩ := hcon.used q y' hy' huy'
    refine ⟨ctx', subject', now', mem_set_of_ne hj hm ?_⟩
    intro he
    cases he

/-- The digest agrees: the record is used up. -/
theorem inv_use (h : Inv sha256 s) {j r : Nat} {ctx : ToolExecutionContext}
    {subject : ToolApprovalBinding} {now : Int} {x : ApprovalRecord}
    (hj : s.evaluations[j]? = some (.digesting ctx subject now r)) (hx : s.heap[r]? = some x)
    (hd : inputDigest sha256 ctx.input = some x.inputDigest) :
    Inv sha256 { s with
      heap := s.heap.set r { x with used := true }
      evaluations := s.evaluations.set j (.approved ctx subject now r) } := by
  obtain ⟨h, hcon⟩ := h
  obtain ⟨y, hy, -, -, haccepts, hid, hnow⟩ :=
    hcon.digesting ctx subject now r (List.mem_of_getElem? hj)
  obtain rfl := Option.some.inj (hx.symm.trans hy)
  have hself : (s.heap.set r { x with used := true })[r]? = some { x with used := true } :=
    List.getElem?_set_self (List.getElem?_eq_some_iff.mp hx).1
  have hlen : j < s.evaluations.length := (List.getElem?_eq_some_iff.mp hj).1
  refine ⟨submitted_set h hx { x with used := true } rfl _,
    fun ctx' subject' now' q hm => ?_,
    fun ctx' subject' now' q hm => ?_, hcon.consumer.set hj fun k hk => hk, fun q y hy huy => ?_⟩
  · obtain ⟨hm, hne⟩ := other_record hcon hj rfl hm (by simp) rfl
    obtain ⟨y, hy, hall⟩ := hcon.digesting ctx' subject' now' q hm
    exact ⟨y, (List.getElem?_set_ne hne).trans hy, hall⟩
  · by_cases heq : EvaluateCall.approved ctx' subject' now' q = .approved ctx subject now r
    · cases heq
      exact ⟨_, hself, rfl, haccepts, hid, hnow, hd⟩
    · obtain ⟨hm, hne⟩ := other_record hcon hj rfl hm heq rfl
      obtain ⟨y, hy, hall⟩ := hcon.approved ctx' subject' now' q hm
      exact ⟨y, (List.getElem?_set_ne hne).trans hy, hall⟩
  · rcases getElem?_set_cases hy with ⟨-, hy⟩ | ⟨rfl, rfl⟩
    · obtain ⟨ctx', subject', now', hm⟩ := hcon.used q y hy huy
      refine ⟨ctx', subject', now', mem_set_of_ne hj hm ?_⟩
      intro he
      cases he
    · exact ⟨ctx, subject, now, List.mem_set hlen _⟩

theorem inv_evaluateDigest (h : Inv sha256 s) {j r : Nat} {ctx : ToolExecutionContext}
    {subject : ToolApprovalBinding} {now : Int} {x : ApprovalRecord}
    (hj : s.evaluations[j]? = some (.digesting ctx subject now r)) (hx : s.heap[r]? = some x)
    (ok : Bool) : Inv sha256 (evaluateDigest sha256 s j ctx subject now r x ok) := by
  unfold evaluateDigest
  split
  · rename_i digest hd
    split
    · exact inv_giveBack h hj hx _
    · rename_i heq
      exact inv_use h hj hx (hd.trans (congrArg some (Decidable.not_not.mp heq).symm))
  · exact inv_giveBack h hj hx none

/-! ## Runs -/

theorem inv_step {ev : Ev} (h : Inv sha256 s) (hs : step sha256 s ev = some s') :
    Inv sha256 s' := by
  unfold step at hs
  split at hs
  · obtain rfl := Option.some.inj hs
    exact inv_submit h _ _ _
  · split at hs
    · rename_i hi
      obtain rfl := Option.some.inj hs
      exact inv_authorized h hi _ _
    · cases hs
  · split at hs
    · rename_i hi
      obtain rfl := Option.some.inj hs
      exact inv_submitDigest h hi _
    · cases hs
  · obtain rfl := Option.some.inj hs
    exact inv_evaluate h _ _ _
  · split at hs
    · rename_i hj
      obtain ⟨x, hx, hs'⟩ := Option.map_eq_some_iff.mp hs
      subst hs'
      exact inv_evaluateDigest h hj hx _
    · cases hs

theorem inductive_inv (sha256 : String → String) : (lts sha256).Inductive (Inv sha256) where
  init s hs := by
    obtain rfl : s = init := hs
    exact inv_init sha256
  step s ev s' h hs := inv_step h hs

/-- An approved evaluation is bound to the submission that made its record. -/
theorem bound_of_inv (h : Inv sha256 s) {j r : Nat} {ctx : ToolExecutionContext}
    {subject : ToolApprovalBinding} {now : Int}
    (hj : s.evaluations[j]? = some (.approved ctx subject now r)) :
    ∃ (i : Nat) (ctx₀ : ToolExecutionContext) (submission : ToolApprovalSubmission)
      (subject₀ : ToolApprovalBinding),
      s.submits[i]? = some (.approved ctx₀ submission subject₀ r) ∧
      Bound sha256 ctx₀ submission subject₀ ctx subject now := by
  obtain ⟨x, hx, -, haccepts, hid, hnow, hd⟩ :=
    h.consumed.approved ctx subject now r (List.mem_of_getElem? hj)
  obtain ⟨ctx₀, submission, subject₀, digest, hm, hd₀, hissued⟩ := h.submitted.made r x hx
  obtain ⟨i, hlt, hget⟩ := List.getElem_of_mem hm
  have hi : s.submits[i]? = some (.approved ctx₀ submission subject₀ r) := by
    rw [List.getElem?_eq_getElem hlt, hget]
  have hxid : x.id = submission.id := congrArg ApprovalRecord.id hissued
  have hxexp : x.expiresAtEpochMs = submission.expiresAtEpochMs :=
    congrArg ApprovalRecord.expiresAtEpochMs hissued
  have hxdigest : x.inputDigest = digest := congrArg ApprovalRecord.inputDigest hissued
  rw [hissued] at haccepts
  obtain ⟨-, -, htool, hversion, hprincipal, hsession⟩ := accepts_iff.mp haccepts
  refine ⟨i, ctx₀, submission, subject₀, hi, ?_⟩
  exact {
    approval := hxid ▸ hid
    tool := htool.symm
    version := hversion.symm
    input := by rw [hd, hd₀, hxdigest]
    json := by
      unfold inputDigest at hd
      obtain ⟨input, hinput, -⟩ := Option.map_eq_some_iff.mp hd
      rw [hinput]
      rfl
    principal := hprincipal.symm
    session := hsession.symm
    started := hxexp ▸ hnow }

/-- **An approval is used once.** In every reachable state each approved submission has its own
record, which has authorised at most one evaluation, bound to the submission and started before
its expiry; and the map holds at most `maxRecords` records. -/
theorem single_use (sha256 : String → String) (s : St) (hs : (lts sha256).Reachable s) :
    Safe sha256 s := by
  have h := (inductive_inv sha256).reachable s hs
  refine ⟨fun i j ctx ctx' sub sub' subject subject' r hi hj => ?_,
    fun i j ctx ctx' subject subject' now now' r hi hj => ?_,
    fun j ctx subject now r hj => bound_of_inv h hj, fun r x hx => ⟨fun hu => ?_, ?_⟩, ?_⟩
  · exact h.submitted.maker i j _ _ r hi hj rfl rfl
  · exact h.consumed.consumer i j _ _ r hi hj rfl rfl
  · obtain ⟨ctx, subject, now, hm⟩ := h.consumed.used r x hx hu
    obtain ⟨j, hlt, hget⟩ := List.getElem_of_mem hm
    exact ⟨j, ctx, subject, now, by rw [List.getElem?_eq_getElem hlt, hget]⟩
  · rintro ⟨j, ctx, subject, now, hj⟩
    obtain ⟨y, hy, hu, -⟩ := h.consumed.approved ctx subject now r (List.mem_of_getElem? hj)
    obtain rfl := Option.some.inj (hx.symm.trans hy)
    exact hu
  · have hsize := h.submitted.size
    omega

/-! ### An approval submitted and used -/

def contextEx : ToolExecutionContext where
  descriptor := ⟨"sales.tools.create-task", 1⟩
  approval := .perCall
  input := some (.obj [("title", .str "One")])

def submissionEx : Json :=
  .obj [("id", .str "approval-1"), ("decision", .str "approve"), ("expiresAtEpochMs", .num 2000)]

def subjectEx : ToolApprovalBinding := ⟨"user-1", "session-1", some "approval-1"⟩

def digestEx : String → String := fun _ => String.ofList (List.replicate 64 'b')

/-- A second evaluation is refused while the first is being decided. -/
def traceEx : List Ev :=
  [.submit contextEx submissionEx (some 1000), .authorized 0 (some true) (some subjectEx),
    .submitDigest 0 true, .evaluate contextEx (some 1500) (some subjectEx),
    .evaluate contextEx (some 1500) (some subjectEx), .evaluateDigest 0 true]

theorem single_use_trace : ∃ s, (lts digestEx).Reachable s ∧ Safe digestEx s ∧
    s.evaluations = [.approved contextEx subjectEx 1500 0, .rejected (some approvalRequired)] := by
  have hrun : LTS.exec (step digestEx) init traceEx = some _ := rfl
  have hr : (lts digestEx).Reachable _ := LTS.Reachable.run (.init rfl) (LTS.run_of_exec hrun)
  exact ⟨_, hr, single_use digestEx _ hr, rfl⟩

end KNex.Runtime.ToolApproval
