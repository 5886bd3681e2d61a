import KNex.Core.JsMap
import KNex.Runtime.ToolGateway

/-!
# `InMemoryToolIdempotencyCoordinator`: one claim per key

`claim` (packages/runtime/src/tool-idempotency.ts:164-237) purges the table, awaits a digest of
the input, looks the key up, awaits a digest of the key, and writes the record without looking
again. Each call is a value of `Call` and advances by its own labels: `start`, `checkTable`
(after the first await), `insert` (after the second); the returned claim is used by `complete`
and `fail`. Everything between two awaits is one step; any number of calls interleave.

Records are objects (`heap`) that the table refers to by identity, since a claim compares the
record in the table with its own. SHA-256 is a parameter. A clock reading is `none` when it is
no integer. `purged` is the history of the records that were removed because their retention
had passed.

`Good` says of one step what the coordinator is for: a key has at most one claim that neither
failed nor expired (`Held`), a call that finds a held key is answered with its state, a replay
returns the output of a completed claim, and the table stays below `maxRecords`. Two calls may
both find a key absent before either writes it, so this can fail (`two_claims`); it holds in
exactly the runs in which each `insert` still finds no record of a live claim and a free slot
(`exclusive_iff`).
-/
namespace KNex.Runtime.ToolIdempotency

open KNex.Core
open KNex.Runtime.ToolGateway (Descriptor ToolGatewayError)

/-! ## Data -/

/-- mirrors packages/runtime/src/tool-idempotency.ts:10-15 -/
def maxRetentionMs : Int := 24 * 60 * 60 * 1000
def maxKeyLength : Nat := 128
def maxRecordLimit : Nat := 10000

/-- The constructor's parameters, with the checks it makes.
mirrors packages/runtime/src/tool-idempotency.ts:151-162 -/
structure Cfg where
  sha256 : String → String
  retentionMs : Int
  maxRecords : Nat
  retention_valid : 1 ≤ retentionMs ∧ retentionMs ≤ maxRetentionMs
  records_valid : 1 ≤ maxRecords ∧ maxRecords ≤ maxRecordLimit

inductive ToolEffect where
  | readOnly | write | destructive | external
  deriving DecidableEq, Repr

/-- The fields of the context that the coordinator reads; `input` is `none` when the value is
not JSON. -/
structure ToolExecutionContext where
  effect : ToolEffect
  delegation : Json
  idempotencyKey : Option String
  tool : Descriptor
  descriptor : Descriptor
  input : Option Json

/-! ### Errors -/

def clockInvalid : ToolGatewayError :=
  { code := "IDEMPOTENCY_CLOCK_INVALID", status := 500, title := "The idempotency clock is invalid." }

def resultInvalid : ToolGatewayError :=
  { code := "IDEMPOTENCY_RESULT_INVALID", status := 500,
    title := "The idempotent result must be structured data." }

def inputInvalid : ToolGatewayError :=
  { code := "IDEMPOTENCY_INPUT_INVALID", status := 400,
    title := "The idempotent input must be bounded JSON." }

def subjectInvalid : ToolGatewayError :=
  { code := "IDEMPOTENCY_CONTEXT_INVALID", status := 500,
    title := "The idempotency subject is invalid." }

def toolContextInvalid : ToolGatewayError :=
  { code := "IDEMPOTENCY_CONTEXT_INVALID", status := 500,
    title := "The idempotency tool context is inconsistent." }

def keyRequired : ToolGatewayError :=
  { code := "IDEMPOTENCY_KEY_REQUIRED", status := 400,
    title := "A bounded idempotency key is required for writes." }

def capacityExceeded : ToolGatewayError :=
  { code := "IDEMPOTENCY_CAPACITY_EXCEEDED", status := 429,
    title := "The idempotency record limit was reached." }

/-- mirrors packages/runtime/src/tool-idempotency.ts:26-35 -/
def inProgress (reference : String) : ToolGatewayError :=
  { code := "IDEMPOTENCY_IN_PROGRESS", status := 409,
    title := "An idempotent request is already in progress.",
    safeDetail := "The idempotent request is already in progress: " ++ reference ++ "." }

/-- mirrors packages/runtime/src/tool-idempotency.ts:37-41 -/
def conflict : ToolGatewayError :=
  { code := "IDEMPOTENCY_KEY_REUSED", status := 409,
    title := "The idempotency key was already used with different request data." }

/-! ### Scope and key -/

def idStart (c : Char) : Bool := c.isAlphanum

def idRest (c : Char) : Bool := c.isAlphanum ∨ c = '.' ∨ c = '_' ∨ c = ':' ∨ c = '-'

/-- `/^[A-Za-z0-9][A-Za-z0-9._:-]*$/` on at most 128 characters.
mirrors packages/runtime/src/tool-idempotency.ts:47-50 -/
def validId (value : String) : Bool :=
  match value.toList with
  | [] => false
  | c :: cs => idStart c && cs.all idRest && decide (cs.length < maxKeyLength)

structure IdempotencyScope where
  principalId : String
  applicationId : String
  deriving DecidableEq, Repr

/-- mirrors packages/runtime/src/tool-idempotency.ts:107-116 -/
def scopeOf (ctx : ToolExecutionContext) : Except ToolGatewayError IdempotencyScope :=
  match ctx.delegation.get? "principalId", ctx.delegation.get? "applicationId" with
  | some (.str p), some (.str a) =>
    if validId p ∧ validId a then .ok ⟨p, a⟩ else .error subjectInvalid
  | _, _ => .error subjectInvalid

/-- The second length check of the source repeats `validId`'s and is never reached.
mirrors packages/runtime/src/tool-idempotency.ts:118-128 -/
def keyOf (ctx : ToolExecutionContext) : Except ToolGatewayError String :=
  match ctx.idempotencyKey with
  | some key =>
    if ¬ validId key then .error keyRequired
    else if ctx.tool ≠ ctx.descriptor then .error toolContextInvalid
    else .ok key
  | none => .error keyRequired

/-! ### Records and calls -/

inductive EntryState where
  | pending | completed | uncertain
  deriving DecidableEq, Repr

/-- mirrors packages/runtime/src/tool-idempotency.ts:94-105; `expiresAt` is `none` for
`Number.POSITIVE_INFINITY`. -/
structure IdempotencyEntry where
  storageKey : String
  reference : String
  scope : IdempotencyScope
  toolId : String
  toolVersion : Int
  idempotencyKey : String
  inputDigest : String
  state : EntryState
  expiresAt : Option Int
  result : Option Json
  deriving DecidableEq

/-- What a call has computed before it looks at the table. -/
structure Prepared where
  scope : IdempotencyScope
  descriptor : Descriptor
  idempotencyKey : String
  inputDigest : String
  deriving DecidableEq

/-- mirrors packages/runtime/src/tool-idempotency.ts:172-178 -/
def Prepared.storageKey (p : Prepared) : String :=
  joinNul [p.scope.applicationId, p.scope.principalId, p.descriptor.id,
    toString p.descriptor.version, p.idempotencyKey]

/-- mirrors packages/runtime/src/tool-idempotency.ts:190-195 -/
def Prepared.reference (cfg : Cfg) (p : Prepared) : String :=
  cfg.sha256 (Json.canonicalJson (.obj [("applicationId", .str p.scope.applicationId),
    ("idempotencyKey", .str p.idempotencyKey), ("principalId", .str p.scope.principalId),
    ("tool", .obj [("id", .str p.descriptor.id), ("version", .num p.descriptor.version)])]))

/-- `settled` of a claim, with what settled it. -/
inductive Settlement where
  | open | completed | failed
  deriving DecidableEq, Repr

/-- A call of `claim`: suspended at one of its awaits, or answered. A claim refers to its
record. -/
inductive Call where
  | awaitDigest (p : Prepared)
  | awaitReference (p : Prepared)
  | notApplicable
  | claimed (e : Nat) (settled : Settlement)
  | replayed (e : Nat) (result : Option Json)
  | rejected (error : ToolGatewayError)
  deriving DecidableEq

structure St where
  heap : List IdempotencyEntry
  entries : JsMap String Nat
  calls : List Call
  purged : List Nat
  deriving DecidableEq

def init : St := ⟨[], .empty, [], []⟩

inductive Ev where
  | start (ctx : ToolExecutionContext) (clock : Option Int)
  | checkTable (i : Nat)
  | insert (i : Nat)
  /-- `result` is `none` when `structuredClone` rejects it -/
  | complete (i : Nat) (result : Option Json) (clock : Option Int)
  | fail (i : Nat) (retain : Bool) (clock : Option Int)

/-! ## Steps -/

def isSafe (n : Int) : Bool := -Json.maxSafeInteger ≤ n ∧ n ≤ Json.maxSafeInteger

/-- mirrors packages/runtime/src/tool-idempotency.ts:52-56 -/
def clockNow (clock : Option Int) : Except ToolGatewayError Int :=
  match clock with
  | some now => if isSafe now then .ok now else .error clockInvalid
  | none => .error clockInvalid

/-- `clockNow(this.clock) + this.retentionMs`, checked. -/
def expiry (cfg : Cfg) (clock : Option Int) : Except ToolGatewayError Int := do
  let now ← clockNow clock
  if isSafe (now + cfg.retentionMs) then .ok (now + cfg.retentionMs) else .error clockInvalid

/-- mirrors packages/runtime/src/tool-idempotency.ts:166-171 -/
def prepare (cfg : Cfg) (ctx : ToolExecutionContext) : Except ToolGatewayError Prepared := do
  let scope ← scopeOf ctx
  let key ← keyOf ctx
  match ctx.input with
  | some input => .ok ⟨scope, ctx.descriptor, key, cfg.sha256 (Json.canonicalJson input)⟩
  | none => .error inputInvalid

/-- The retention of a settled record has passed at this reading. -/
def IdempotencyEntry.expired (x : IdempotencyEntry) (now : Int) : Bool :=
  match x.state, x.expiresAt with
  | .pending, _ => false
  | _, some t => t ≤ now
  | _, none => false

def St.expired (s : St) (now : Int) (e : Nat) : Bool :=
  match s.heap[e]? with
  | some x => x.expired now
  | none => false

/-- mirrors packages/runtime/src/tool-idempotency.ts:232-236 -/
def purge (s : St) (now : Int) : St :=
  { s with entries := s.entries.filter fun _ e => !s.expired now e,
           purged := s.purged ++ ((s.entries.entries.map Prod.snd).filter (s.expired now)) }

def St.answer (s : St) (i : Nat) (c : Call) : St := { s with calls := s.calls.set i c }

/-- Up to the first await.
mirrors packages/runtime/src/tool-idempotency.ts:164-171 -/
def start (cfg : Cfg) (s : St) (ctx : ToolExecutionContext) (clock : Option Int) : St :=
  if ctx.effect = .readOnly then { s with calls := s.calls ++ [.notApplicable] }
  else match clockNow clock with
    | .error e => { s with calls := s.calls ++ [.rejected e] }
    | .ok now =>
      let s := purge s now
      match prepare cfg ctx with
      | .error e => { s with calls := s.calls ++ [.rejected e] }
      | .ok p => { s with calls := s.calls ++ [.awaitDigest p] }

/-- What the table says to a prepared call: an answer, or the second await.
mirrors packages/runtime/src/tool-idempotency.ts:179-190 -/
def lookupAnswer (cfg : Cfg) (s : St) (p : Prepared) : Option Call :=
  match s.entries.get? p.storageKey with
  | some e =>
    match s.heap[e]? with
    | some x =>
      if x.inputDigest ≠ p.inputDigest then some (.rejected conflict)
      else if x.state ≠ .completed then some (.rejected (inProgress x.reference))
      else some (.replayed e x.result)
    | none => none
  | none =>
    if cfg.maxRecords ≤ s.entries.size then some (.rejected capacityExceeded)
    else some (.awaitReference p)

def newEntry (cfg : Cfg) (p : Prepared) : IdempotencyEntry where
  storageKey := p.storageKey
  reference := p.reference cfg
  scope := p.scope
  toolId := p.descriptor.id
  toolVersion := p.descriptor.version
  idempotencyKey := p.idempotencyKey
  inputDigest := p.inputDigest
  state := .pending
  expiresAt := none
  result := none

/-- After the second await: the record is written whatever the table now holds.
mirrors packages/runtime/src/tool-idempotency.ts:196-206 -/
def insert (cfg : Cfg) (s : St) (i : Nat) (p : Prepared) : St :=
  { s with heap := s.heap ++ [newEntry cfg p],
           entries := s.entries.set p.storageKey s.heap.length,
           calls := s.calls.set i (.claimed s.heap.length .open) }

/-- The claim's record is the one in the table and still pending. -/
def St.current (s : St) (e : Nat) (x : IdempotencyEntry) : Bool :=
  s.entries.get? x.storageKey = some e ∧ x.state = .pending

/-- The claim's `complete`; a throw leaves the state as it is.
mirrors packages/runtime/src/tool-idempotency.ts:209-218 -/
def complete (cfg : Cfg) (s : St) (i : Nat) (result : Option Json) (clock : Option Int) :
    Option (Except ToolGatewayError St) :=
  match s.calls[i]? with
  | some (.claimed e settled) =>
    match s.heap[e]? with
    | some x =>
      if settled ≠ .open ∨ s.current e x = false then some (.ok s)
      else match result, expiry cfg clock with
        | none, _ => some (.error resultInvalid)
        | some _, .error err => some (.error err)
        | some stored, .ok expiresAt => some (.ok { s with
            heap := s.heap.set e { x with
              result := some stored, state := .completed, expiresAt := some expiresAt },
            calls := s.calls.set i (.claimed e .completed) })
    | none => none
  | _ => none

/-- The claim's `fail`: it is settled before the clock is read.
mirrors packages/runtime/src/tool-idempotency.ts:219-229 -/
def fail (cfg : Cfg) (s : St) (i : Nat) (retain : Bool) (clock : Option Int) :
    Option (St × Except ToolGatewayError Unit) :=
  match s.calls[i]? with
  | some (.claimed e settled) =>
    match s.heap[e]? with
    | some x =>
      if settled ≠ .open then some (s, .ok ())
      else
        let s' := s.answer i (.claimed e .failed)
        if s.current e x = false then some (s', .ok ())
        else if retain then
          match expiry cfg clock with
          | .error err => some (s', .error err)
          | .ok expiresAt => some ({ s' with
              heap := s.heap.set e { x with state := .uncertain, expiresAt := some expiresAt } },
              .ok ())
        else some ({ s' with entries := s.entries.delete x.storageKey }, .ok ())
    | none => none
  | _ => none

def step (cfg : Cfg) (s : St) : Ev → Option St
  | .start ctx clock => some (start cfg s ctx clock)
  | .checkTable i =>
    match s.calls[i]? with
    | some (.awaitDigest p) => (lookupAnswer cfg s p).map (s.answer i)
    | _ => none
  | .insert i =>
    match s.calls[i]? with
    | some (.awaitReference p) => some (insert cfg s i p)
    | _ => none
  | .complete i result clock =>
    (complete cfg s i result clock).map fun r => match r with | .ok s' => s' | .error _ => s
  | .fail i retain clock => (fail cfg s i retain clock).map Prod.fst

def lts (cfg : Cfg) : LTS St Ev := LTS.ofFn (· = init) (step cfg)

/-! ## What the coordinator is for -/

/-- Call `i` was answered `claimed` for the key `k` and has neither failed nor expired. -/
def Held (s : St) (i : Nat) (k : String) : Prop :=
  ∃ (e : Nat) (st : Settlement) (x : IdempotencyEntry), s.calls[i]? = some (.claimed e st) ∧
    s.heap[e]? = some x ∧ x.storageKey = k ∧ st ≠ .failed ∧ e ∉ s.purged

/-- The answer that the claim `i` calls for: a conflict for another digest, the output once it
has completed, and in progress until then. -/
def AnswerFor (s : St) (i : Nat) (p : Prepared) (c : Call) : Prop :=
  ∃ (e : Nat) (st : Settlement) (x : IdempotencyEntry), s.calls[i]? = some (.claimed e st) ∧
    s.heap[e]? = some x ∧
    c = if x.inputDigest ≠ p.inputDigest then .rejected conflict
      else if st = .completed then .replayed e x.result
      else .rejected (inProgress x.reference)

/-- What one step of the coordinator should satisfy. -/
structure Good (cfg : Cfg) (s : St) (ev : Ev) (s' : St) : Prop where
  exclusive : ∀ (i j : Nat) (k : String), Held s' i k → Held s' j k → i = j
  answers : ∀ (i j : Nat) (p : Prepared), Held s i p.storageKey → ev = .checkTable j →
    s.calls[j]? = some (.awaitDigest p) → ∃ c, s'.calls[j]? = some c ∧ AnswerFor s i p c
  replays : ∀ (j e : Nat) (r : Option Json), s'.calls[j]? = some (.replayed e r) →
    ∃ (i : Nat) (x : IdempotencyEntry), s'.calls[i]? = some (.claimed e .completed) ∧ s'.heap[e]? = some x ∧ x.result = r
  bounded : s'.entries.size ≤ cfg.maxRecords

/-- The table, at the moment of an insert, has a free slot for the key, or a record whose claim
has failed. -/
def InsertClear (cfg : Cfg) (s : St) (ev : Ev) : Prop :=
  ∀ (j : Nat) (p : Prepared), ev = .insert j → s.calls[j]? = some (.awaitReference p) →
    match s.entries.get? p.storageKey with
    | none => s.entries.size < cfg.maxRecords
    | some e => ∃ i : Nat, s.calls[i]? = some (.claimed e .failed)

/-! ## Invariant -/

/-- The states of a record and of the claim that wrote it; a claim whose `fail` found the clock
broken leaves its record pending. -/
def Matches : EntryState → Settlement → Prop
  | .pending, .open => True
  | .pending, .failed => True
  | .completed, .completed => True
  | .uncertain, .failed => True
  | _, _ => False

structure Inv (cfg : Cfg) (s : St) : Prop where
  /-- a record in the table belongs to a claim -/
  table : ∀ (k : String) (e : Nat), s.entries.get? k = some e →
    ∃ (x : IdempotencyEntry) (i : Nat) (st : Settlement), s.heap[e]? = some x ∧ x.storageKey = k ∧
    e ∉ s.purged ∧ s.calls[i]? = some (.claimed e st) ∧ Matches x.state st
  /-- a claim has a record, in the table unless it failed or expired -/
  claims : ∀ (i e : Nat) (st : Settlement), s.calls[i]? = some (.claimed e st) →
    ∃ x : IdempotencyEntry, s.heap[e]? = some x ∧
    (st = .completed → x.state = .completed) ∧
    (st ≠ .failed → e ∉ s.purged → s.entries.get? x.storageKey = some e ∧ Matches x.state st)
  owner : ∀ (i j e : Nat) (st st' : Settlement), s.calls[i]? = some (.claimed e st) →
    s.calls[j]? = some (.claimed e st') → i = j
  purged_lt : ∀ e ∈ s.purged, e < s.heap.length
  replays : ∀ (j e : Nat) (r : Option Json), s.calls[j]? = some (.replayed e r) →
    ∃ (i : Nat) (x : IdempotencyEntry), s.calls[i]? = some (.claimed e .completed) ∧ s.heap[e]? = some x ∧ x.result = r
  size : s.entries.size ≤ cfg.maxRecords

theorem inv_init (cfg : Cfg) : Inv cfg init := by
  refine ⟨?_, ?_, ?_, ?_, ?_, Nat.zero_le _⟩
  · intro k e h; simp [init] at h
  · intro i e st h; simp [init] at h
  · intro i j e st st' h; simp [init] at h
  · intro e h; simp [init] at h
  · intro j e r h; simp [init] at h

/-- A held claim owns the record of its key. -/
theorem held_get {cfg : Cfg} {s : St} (I : Inv cfg s) {i : Nat} {k : String} (h : Held s i k) :
    ∃ (e : Nat) (st : Settlement) (x : IdempotencyEntry), s.calls[i]? = some (.claimed e st) ∧
      s.heap[e]? = some x ∧ x.storageKey = k ∧ st ≠ .failed ∧ s.entries.get? k = some e ∧ Matches x.state st := by
  obtain ⟨e, st, x, hc, hx, hk, hf, hp⟩ := h
  obtain ⟨x', hx', -, hlive⟩ := I.claims i e st hc
  rw [hx] at hx'; cases hx'
  obtain ⟨hget, hm⟩ := hlive hf hp
  exact ⟨e, st, x, hc, hx, hk, hf, hk ▸ hget, hm⟩

theorem inv_exclusive {cfg : Cfg} {s : St} (I : Inv cfg s) {i j : Nat} {k : String}
    (hi : Held s i k) (hj : Held s j k) : i = j := by
  obtain ⟨e, st, x, hc, -, -, -, hget, -⟩ := held_get I hi
  obtain ⟨e', st', x', hc', -, -, -, hget', -⟩ := held_get I hj
  rw [hget] at hget'; cases hget'
  exact I.owner i j e st st' hc hc'

/-! ### Adding and changing calls -/

/-- `c` says nothing about a record. -/
def Call.isPlain : Call → Bool
  | .claimed _ _ => false
  | .replayed _ _ => false
  | _ => true

theorem getElem?_append_singleton {α : Type*} {l : List α} {a b : α} {i : Nat}
    (h : (l ++ [a])[i]? = some b) : l[i]? = some b ∨ (i = l.length ∧ b = a) := by
  rcases Nat.lt_trichotomy i l.length with hi | rfl | hi
  · rw [List.getElem?_append_left hi] at h; exact .inl h
  · simp at h; exact .inr ⟨rfl, h.symm⟩
  · rw [List.getElem?_eq_none (by simp; omega)] at h; cases h

theorem getElem?_append_of_some {α : Type*} {l : List α} {a b : α} {i : Nat}
    (h : l[i]? = some b) : (l ++ [a])[i]? = some b := by
  rw [List.getElem?_append_left (List.getElem?_eq_some_iff.mp h).1]; exact h

theorem getElem?_set_cases {α : Type*} {l : List α} {a b : α} {i j : Nat}
    (h : (l.set i a)[j]? = some b) : (j = i ∧ b = a) ∨ (j ≠ i ∧ l[j]? = some b) := by
  by_cases hij : i = j
  · subst hij
    have hlt : i < l.length := by simpa using (List.getElem?_eq_some_iff.mp h).1
    rw [List.getElem?_set_self hlt] at h
    exact .inl ⟨rfl, (Option.some.inj h).symm⟩
  · rw [List.getElem?_set_ne hij] at h
    exact .inr ⟨fun e => hij e.symm, h⟩

theorem getElem?_set_of_ne {α : Type*} {l : List α} {a b : α} {i j : Nat} (hij : j ≠ i)
    (h : l[j]? = some b) : (l.set i a)[j]? = some b := by
  rw [List.getElem?_set_ne (fun e => hij e.symm)]; exact h

theorem getElem?_set_same {α : Type*} {l : List α} {a b : α} {i : Nat} (h : l[i]? = some b) :
    (l.set i a)[i]? = some a :=
  List.getElem?_set_self (List.getElem?_eq_some_iff.mp h).1

/-- A new call without a record. -/
theorem inv_push {cfg : Cfg} {s : St} (I : Inv cfg s) {c : Call} (hc : c.isPlain = true) :
    Inv cfg { s with calls := s.calls ++ [c] } := by
  refine ⟨?_, ?_, ?_, I.purged_lt, ?_, I.size⟩
  · intro k e h
    obtain ⟨x, i, st, h1, h2, h3, h4, h5⟩ := I.table k e h
    exact ⟨x, i, st, h1, h2, h3, getElem?_append_of_some h4, h5⟩
  · intro i e st h
    rcases getElem?_append_singleton h with h | ⟨-, rfl⟩
    · exact I.claims i e st h
    · cases hc
  · intro i j e st st' h h'
    rcases getElem?_append_singleton h with h | ⟨-, rfl⟩
    · rcases getElem?_append_singleton h' with h' | ⟨-, rfl⟩
      · exact I.owner i j e st st' h h'
      · cases hc
    · cases hc
  · intro j e r h
    rcases getElem?_append_singleton h with h | ⟨-, rfl⟩
    · obtain ⟨i, x, h1, h2, h3⟩ := I.replays j e r h
      exact ⟨i, x, getElem?_append_of_some h1, h2, h3⟩
    · cases hc

/-- An answer to a suspended call that makes no claim; a replay needs its completed claim. -/
theorem inv_answer {cfg : Cfg} {s : St} (I : Inv cfg s) {i : Nat} {old c : Call}
    (hold : s.calls[i]? = some old) (hplain : old.isPlain = true)
    (hc : ∀ e st, c ≠ .claimed e st) (hr : ∀ e r, c = .replayed e r →
      ∃ (i : Nat) (x : IdempotencyEntry), s.calls[i]? = some (.claimed e .completed) ∧ s.heap[e]? = some x ∧ x.result = r) :
    Inv cfg (s.answer i c) := by
  -- a claim sits at another index
  have keep : ∀ {j e : Nat} {st : Settlement}, s.calls[j]? = some (.claimed e st) →
      (s.calls.set i c)[j]? = some (.claimed e st) := by
    intro j e st h
    refine getElem?_set_of_ne ?_ h
    rintro rfl; rw [hold] at h; cases h; cases hplain
  have back : ∀ {j e : Nat} {st : Settlement}, (s.calls.set i c)[j]? = some (.claimed e st) →
      s.calls[j]? = some (.claimed e st) := by
    intro j e st h
    rcases getElem?_set_cases h with ⟨-, h⟩ | ⟨-, h⟩
    · exact absurd h.symm (hc e st)
    · exact h
  refine ⟨?_, ?_, ?_, I.purged_lt, ?_, I.size⟩
  · intro k e h
    obtain ⟨x, j, st, h1, h2, h3, h4, h5⟩ := I.table k e h
    exact ⟨x, j, st, h1, h2, h3, keep h4, h5⟩
  · intro j e st h; exact I.claims j e st (back h)
  · intro j j' e st st' h h'; exact I.owner j j' e st st' (back h) (back h')
  · intro j e r h
    rcases getElem?_set_cases h with ⟨-, h⟩ | ⟨-, h⟩
    · obtain ⟨i', x, h1, h2, h3⟩ := hr e r h.symm
      exact ⟨i', x, keep h1, h2, h3⟩
    · obtain ⟨i', x, h1, h2, h3⟩ := I.replays j e r h
      exact ⟨i', x, keep h1, h2, h3⟩

/-! ### Purge and insert -/

theorem mem_purge {s : St} {now : Int} {e : Nat} :
    e ∈ (purge s now).purged ↔
      e ∈ s.purged ∨ (e ∈ s.entries.entries.map Prod.snd ∧ s.expired now e = true) := by
  simp only [purge, List.mem_append, List.mem_filter]

theorem purge_get? {s : St} {now : Int} {k : String} {e : Nat} :
    (purge s now).entries.get? k = some e ↔ s.entries.get? k = some e ∧ s.expired now e = false := by
  simp only [purge, JsMap.get?_filter, Option.filter_eq_some_iff, Bool.not_eq_eq_eq_not,
    Bool.not_true]

theorem inv_purge {cfg : Cfg} {s : St} (I : Inv cfg s) (now : Int) : Inv cfg (purge s now) := by
  refine ⟨?_, ?_, I.owner, ?_, I.replays, ?_⟩
  · intro k e h
    rw [purge_get?] at h
    obtain ⟨x, i, st, h1, h2, h3, h4, h5⟩ := I.table k e h.1
    refine ⟨x, i, st, h1, h2, ?_, h4, h5⟩
    rw [mem_purge]
    rintro (hp | ⟨-, hp⟩)
    · exact h3 hp
    · rw [h.2] at hp; cases hp
  · intro i e st h
    obtain ⟨x, h1, h2, h3⟩ := I.claims i e st h
    refine ⟨x, h1, h2, fun hf hp => ?_⟩
    rw [mem_purge, not_or] at hp
    obtain ⟨hget, hm⟩ := h3 hf hp.1
    refine ⟨?_, hm⟩
    rw [purge_get?]
    refine ⟨hget, ?_⟩
    cases hx : s.expired now e with
    | false => rfl
    | true =>
      have hmem := JsMap.get?_eq_some.mp hget
      exact absurd ⟨List.mem_map_of_mem (f := Prod.snd) hmem, hx⟩ hp.2
  · intro e h
    rw [mem_purge] at h
    rcases h with h | ⟨h, -⟩
    · exact I.purged_lt e h
    · obtain ⟨⟨k, e'⟩, hm, rfl⟩ := List.mem_map.mp h
      obtain ⟨x, -, -, h1, -⟩ := I.table k e' (JsMap.get?_eq_some.mpr hm)
      exact (List.getElem?_eq_some_iff.mp h1).1
  · exact Nat.le_trans (s.entries.size_filter_le _) I.size

theorem claim_lt {cfg : Cfg} {s : St} (I : Inv cfg s) {i e : Nat} {st : Settlement}
    (h : s.calls[i]? = some (.claimed e st)) : e < s.heap.length := by
  obtain ⟨x, hx, -⟩ := I.claims i e st h
  exact (List.getElem?_eq_some_iff.mp hx).1

/-- A clear insert replaces no record of a live claim. -/
theorem inv_insert {cfg : Cfg} {s : St} (I : Inv cfg s) {i : Nat} {p : Prepared}
    (hi : s.calls[i]? = some (.awaitReference p)) (hclear : InsertClear cfg s (.insert i)) :
    Inv cfg (insert cfg s i p) := by
  have hclear := hclear i p rfl hi
  have hnew : (s.heap ++ [newEntry cfg p])[s.heap.length]? = some (newEntry cfg p) := by simp
  have keep : ∀ {j : Nat} {c : Call}, j ≠ i → s.calls[j]? = some c →
      (insert cfg s i p).calls[j]? = some c := fun hj h => getElem?_set_of_ne hj h
  have ne_of_claim : ∀ {j e : Nat} {st : Settlement}, s.calls[j]? = some (.claimed e st) → j ≠ i := by
    rintro j e st h rfl; rw [hi] at h; cases h
  refine ⟨?_, ?_, ?_, ?_, ?_, ?_⟩
  · intro k e h
    simp only [insert, JsMap.get?_set] at h
    split at h
    · rename_i hk
      cases h
      refine ⟨newEntry cfg p, i, .open, hnew, hk.symm, ?_, getElem?_set_same hi, trivial⟩
      intro hp; exact absurd (I.purged_lt _ hp) (Nat.lt_irrefl _)
    · obtain ⟨x, j, st, h1, h2, h3, h4, h5⟩ := I.table k e h
      exact ⟨x, j, st, getElem?_append_of_some h1, h2, h3, keep (ne_of_claim h4) h4, h5⟩
  · intro j e st h
    rcases getElem?_set_cases h with ⟨-, h⟩ | ⟨-, h⟩
    · cases h
      exact ⟨newEntry cfg p, hnew, (fun h => by cases h),
        fun _ _ => ⟨JsMap.get?_set_self _ _ _, trivial⟩⟩
    · obtain ⟨x, h1, h2, h3⟩ := I.claims j e st h
      refine ⟨x, getElem?_append_of_some h1, h2, fun hf hp => ?_⟩
      obtain ⟨hget, hm⟩ := h3 hf hp
      refine ⟨?_, hm⟩
      have hne : x.storageKey ≠ p.storageKey := by
        intro hk
        rw [hk] at hget
        simp only [hget] at hclear
        obtain ⟨j', hj'⟩ := hclear
        obtain rfl := I.owner j j' e st .failed h hj'
        rw [h] at hj'; cases hj'
        exact hf rfl
      simp only [insert, JsMap.get?_set_ne _ _ hne]; exact hget
  · intro j j' e st st' h h'
    rcases getElem?_set_cases h with ⟨hj, h⟩ | ⟨-, h⟩
    · rcases getElem?_set_cases h' with ⟨hj', -⟩ | ⟨-, h'⟩
      · rw [hj, hj']
      · cases h; exact absurd (claim_lt I h') (Nat.lt_irrefl _)
    · rcases getElem?_set_cases h' with ⟨-, h'⟩ | ⟨-, h'⟩
      · cases h'; exact absurd (claim_lt I h) (Nat.lt_irrefl _)
      · exact I.owner j j' e st st' h h'
  · intro e h
    have := I.purged_lt e h
    simp only [insert, List.length_append, List.length_singleton]; omega
  · intro j e r h
    rcases getElem?_set_cases h with ⟨-, h⟩ | ⟨-, h⟩
    · cases h
    · obtain ⟨i', x, h1, h2, h3⟩ := I.replays j e r h
      exact ⟨i', x, keep (ne_of_claim h1) h1, getElem?_append_of_some h2, h3⟩
  · cases hget : s.entries.get? p.storageKey with
    | none =>
      simp only [hget] at hclear
      simp only [insert, JsMap.size_set_of_none hget]; omega
    | some e => simp only [insert, JsMap.size_set_of_some hget]; exact I.size

/-! ### Settling a claim -/

/-- The record and the claim change together: the record keeps its key, and matches the claim
when it is the one in the table. -/
theorem inv_settle {cfg : Cfg} {s : St} (I : Inv cfg s) {i e : Nat} {x x' : IdempotencyEntry}
    {st : Settlement} (hi : s.calls[i]? = some (.claimed e .open)) (hx : s.heap[e]? = some x)
    (hk : x'.storageKey = x.storageKey)
    (hm : s.entries.get? x.storageKey = some e → Matches x'.state st)
    (hst : st = .failed ∨ (x'.state = .completed ∧ s.entries.get? x.storageKey = some e)) :
    Inv cfg { s with heap := s.heap.set e x', calls := s.calls.set i (.claimed e st) } := by
  have hheap : (s.heap.set e x')[e]? = some x' := getElem?_set_same hx
  have other : ∀ {j e' : Nat} {st' : Settlement}, j ≠ i → s.calls[j]? = some (.claimed e' st') →
      e' ≠ e := by
    rintro j e' st' hj h rfl; exact hj (I.owner j i e' st' .open h hi)
  refine ⟨?_, ?_, ?_, ?_, ?_, I.size⟩
  · intro k e' h
    obtain ⟨y, j, st', h1, h2, h3, h4, h5⟩ := I.table k e' h
    by_cases hj : j = i
    · subst hj
      rw [hi] at h4; cases h4
      rw [hx] at h1; cases h1
      subst h2
      exact ⟨x', j, st, hheap, hk, h3, getElem?_set_same hi, hm h⟩
    · exact ⟨y, j, st', getElem?_set_of_ne (other hj h4) h1, h2, h3, getElem?_set_of_ne hj h4, h5⟩
  · intro j e' st' h
    rcases getElem?_set_cases h with ⟨-, h⟩ | ⟨hj, h⟩
    · cases h
      rcases hst with rfl | ⟨hs, hget⟩
      · exact ⟨x', hheap, (fun h => by cases h), fun h => absurd rfl h⟩
      · exact ⟨x', hheap, fun _ => hs, fun _ _ => ⟨hk ▸ hget, hm hget⟩⟩
    · obtain ⟨y, h1, h2, h3⟩ := I.claims j e' st' h
      exact ⟨y, getElem?_set_of_ne (other hj h) h1, h2, h3⟩
  · have back : ∀ {j e' : Nat} {st' : Settlement},
        (s.calls.set i (.claimed e st))[j]? = some (.claimed e' st') →
        ∃ st'', s.calls[j]? = some (.claimed e' st'') := by
      intro j e' st' h
      rcases getElem?_set_cases h with ⟨hj, hc⟩ | ⟨-, h⟩
      · cases hc; exact ⟨_, hj ▸ hi⟩
      · exact ⟨_, h⟩
    intro j j' e' st' st'' h h'
    obtain ⟨_, h⟩ := back h
    obtain ⟨_, h'⟩ := back h'
    exact I.owner j j' e' _ _ h h'
  · intro e' h
    simp only [List.length_set]; exact I.purged_lt e' h
  · intro j e' r h
    rcases getElem?_set_cases h with ⟨-, h⟩ | ⟨-, h⟩
    · cases h
    · obtain ⟨i', y, h1, h2, h3⟩ := I.replays j e' r h
      have hi' : i' ≠ i := by rintro rfl; rw [hi] at h1; cases h1
      exact ⟨i', y, getElem?_set_of_ne hi' h1, getElem?_set_of_ne (other hi' h1) h2, h3⟩

/-- Only the claim's flag changes. -/
theorem inv_settle_failed {cfg : Cfg} {s : St} (I : Inv cfg s) {i e : Nat} {x : IdempotencyEntry}
    (hi : s.calls[i]? = some (.claimed e .open)) (hx : s.heap[e]? = some x)
    (hm : s.entries.get? x.storageKey = some e → x.state = .pending) :
    Inv cfg (s.answer i (.claimed e .failed)) := by
  have h : Inv cfg { s with
      heap := s.heap.set e x, calls := s.calls.set i (.claimed e .failed) } :=
    inv_settle I hi hx rfl (fun hget => by rw [hm hget]; trivial) (.inl rfl)
  have hset : s.heap.set e x = s.heap := by
    obtain ⟨hlt, rfl⟩ := List.getElem?_eq_some_iff.mp hx
    exact List.set_getElem_self hlt
  rw [hset] at h
  exact h

/-- The record of a failed claim may leave the table. -/
theorem inv_delete {cfg : Cfg} {s : St} (I : Inv cfg s) {i e : Nat} {k : String}
    (hi : s.calls[i]? = some (.claimed e .failed)) (hk : s.entries.get? k = some e) :
    Inv cfg { s with entries := s.entries.delete k } := by
  refine ⟨?_, ?_, I.owner, I.purged_lt, I.replays, ?_⟩
  · intro k' e' h
    simp only [JsMap.get?_delete] at h
    split at h
    · cases h
    · exact I.table k' e' h
  · intro j e' st h
    obtain ⟨x, h1, h2, h3⟩ := I.claims j e' st h
    refine ⟨x, h1, h2, fun hf hp => ?_⟩
    obtain ⟨hget, hm⟩ := h3 hf hp
    refine ⟨?_, hm⟩
    have hne : x.storageKey ≠ k := by
      rintro rfl
      rw [hk] at hget; cases hget
      obtain rfl := I.owner j i e st .failed h hi
      rw [hi] at h; cases h
      exact hf rfl
    simp only [JsMap.get?_delete, if_neg hne]; exact hget
  · exact Nat.le_trans (s.entries.size_delete_le k) I.size

theorem current_iff {s : St} {e : Nat} {x : IdempotencyEntry} :
    s.current e x = true ↔ s.entries.get? x.storageKey = some e ∧ x.state = .pending := by
  simp [St.current]

theorem inv_complete {cfg : Cfg} {s s' : St} {i : Nat} {result : Option Json} {clock : Option Int}
    (I : Inv cfg s) (h : complete cfg s i result clock = some (.ok s')) : Inv cfg s' := by
  unfold complete at h
  split at h
  · rename_i e settled hi
    split at h
    · rename_i x hx
      split at h
      · cases h; exact I
      · rename_i hopen
        simp only [not_or, ne_eq, not_not, Bool.not_eq_false] at hopen
        obtain ⟨rfl, hcur⟩ := hopen
        obtain ⟨hget, -⟩ := current_iff.mp hcur
        split at h <;> cases h
        exact inv_settle I hi hx rfl (fun _ => trivial) (.inr ⟨rfl, hget⟩)
    · cases h
  · cases h

/-- An open claim's record is pending while it is in the table. -/
theorem open_pending {cfg : Cfg} {s : St} (I : Inv cfg s) {i e : Nat} {x : IdempotencyEntry}
    (hi : s.calls[i]? = some (.claimed e .open)) (hx : s.heap[e]? = some x)
    (hget : s.entries.get? x.storageKey = some e) : x.state = .pending := by
  obtain ⟨y, j, st, h1, -, -, h4, h5⟩ := I.table _ e hget
  rw [hx] at h1; cases h1
  obtain rfl := I.owner j i e st .open h4 hi
  rw [hi] at h4; cases h4
  cases hs : x.state with
  | pending => rfl
  | _ => rw [hs] at h5; exact absurd h5 id

theorem inv_fail {cfg : Cfg} {s s' : St} {i : Nat} {retain : Bool} {clock : Option Int}
    {r : Except ToolGatewayError Unit} (I : Inv cfg s)
    (h : fail cfg s i retain clock = some (s', r)) : Inv cfg s' := by
  unfold fail at h
  split at h
  · rename_i e settled hi
    split at h
    · rename_i x hx
      split at h
      · cases h; exact I
      · rename_i hopen
        simp only [ne_eq, not_not] at hopen
        subst hopen
        have I' := inv_settle_failed I hi hx (open_pending I hi hx)
        dsimp only at h
        split at h
        · cases h; exact I'
        · rename_i hcur
          obtain ⟨hget, -⟩ := current_iff.mp (by simpa using hcur)
          split at h
          · split at h <;> cases h
            · exact I'
            · exact inv_settle I hi hx rfl (fun _ => trivial) (.inl rfl)
          · cases h
            exact inv_delete I' (getElem?_set_same hi) hget
    · cases h
  · cases h

/-! ## Steps -/

theorem inv_start {cfg : Cfg} {s : St} (I : Inv cfg s) (ctx : ToolExecutionContext)
    (clock : Option Int) : Inv cfg (start cfg s ctx clock) := by
  unfold start
  split
  · exact inv_push I rfl
  · split
    · exact inv_push I rfl
    · dsimp only
      split
      · exact inv_push (inv_purge I _) rfl
      · exact inv_push (inv_purge I _) rfl

/-- The look-up answers without a claim, and replays only what a claim completed. -/
theorem inv_checkTable {cfg : Cfg} {s : St} (I : Inv cfg s) {i : Nat} {p : Prepared} {c : Call}
    (hi : s.calls[i]? = some (.awaitDigest p)) (h : lookupAnswer cfg s p = some c) :
    Inv cfg (s.answer i c) := by
  unfold lookupAnswer at h
  split at h
  · rename_i e hget
    split at h
    · rename_i x hx
      obtain ⟨y, j, st, h1, -, -, h4, h5⟩ := I.table _ e hget
      rw [hx] at h1; cases h1
      split at h
      · cases h; exact inv_answer I hi rfl (fun e st h => by cases h) (fun e r h => by cases h)
      · split at h <;> cases h
        · exact inv_answer I hi rfl (fun e st h => by cases h) (fun e r h => by cases h)
        · rename_i hc
          have hst : st = .completed := by
            simp only [ne_eq, not_not] at hc
            rw [hc] at h5
            cases st with
            | completed => rfl
            | _ => exact absurd h5 id
          refine inv_answer I hi rfl (fun e st h => by cases h) (fun e r h => ?_)
          cases h
          exact ⟨j, x, hst ▸ h4, hx, rfl⟩
    · cases h
  · split at h <;> cases h
    · exact inv_answer I hi rfl (fun e st h => by cases h) (fun e r h => by cases h)
    · exact inv_answer I hi rfl (fun e st h => by cases h) (fun e r h => by cases h)

theorem inv_step {cfg : Cfg} {s s' : St} {ev : Ev} (I : Inv cfg s)
    (hst : step cfg s ev = some s') (hclear : InsertClear cfg s ev) : Inv cfg s' := by
  cases ev with
  | start ctx clock =>
    simp only [step, Option.some.injEq] at hst; subst hst
    exact inv_start I ctx clock
  | checkTable i =>
    simp only [step] at hst
    split at hst
    · rename_i p hi
      simp only [Option.map_eq_some_iff] at hst
      obtain ⟨c, hc, rfl⟩ := hst
      exact inv_checkTable I hi hc
    · cases hst
  | insert i =>
    simp only [step] at hst
    split at hst
    · rename_i p hi
      simp only [Option.some.injEq] at hst; subst hst
      exact inv_insert I hi hclear
    · cases hst
  | complete i result clock =>
    simp only [step, Option.map_eq_some_iff] at hst
    obtain ⟨r, hr, rfl⟩ := hst
    cases r with
    | error e => exact I
    | ok s' => exact inv_complete I hr
  | fail i retain clock =>
    simp only [step, Option.map_eq_some_iff] at hst
    obtain ⟨⟨s', r⟩, hr, rfl⟩ := hst
    exact inv_fail I hr

/-- A held key answers for its claim. -/
theorem lookupAnswer_held {cfg : Cfg} {s : St} (I : Inv cfg s) {i : Nat} {p : Prepared} {c : Call}
    (hheld : Held s i p.storageKey) (h : lookupAnswer cfg s p = some c) : AnswerFor s i p c := by
  obtain ⟨e, st, x, hc, hx, -, hf, hget, hm⟩ := held_get I hheld
  refine ⟨e, st, x, hc, hx, ?_⟩
  have hstate : x.state = .completed ↔ st = .completed := by
    cases hs : x.state <;> cases st <;> simp_all [Matches]
  simp only [lookupAnswer, hget, hx, ne_eq, hstate] at h
  by_cases hd : x.inputDigest = p.inputDigest
  · by_cases hcomp : st = .completed <;> simp_all
  · simp_all

theorem good_of_inv {cfg : Cfg} {s s' : St} {ev : Ev} (I : Inv cfg s) (I' : Inv cfg s')
    (hst : step cfg s ev = some s') : Good cfg s ev s' where
  exclusive := fun _ _ _ hi hj => inv_exclusive I' hi hj
  answers := by
    rintro i j p hheld rfl hj
    simp only [step, hj, Option.map_eq_some_iff] at hst
    obtain ⟨c, hc, rfl⟩ := hst
    exact ⟨c, getElem?_set_same hj, lookupAnswer_held I hheld hc⟩
  replays := I'.replays
  bounded := I'.size

/-- An insert over the record of a live claim makes a second one, and an insert into a full
table passes the limit. -/
theorem clear_of_good {cfg : Cfg} {s s' : St} {ev : Ev} (I : Inv cfg s)
    (hst : step cfg s ev = some s') (hg : Good cfg s ev s') : InsertClear cfg s ev := by
  rintro j p rfl hj
  simp only [step, hj, Option.some.injEq] at hst; subst hst
  cases hget : s.entries.get? p.storageKey with
  | none =>
    have := hg.bounded
    simp only [insert, JsMap.size_set_of_none hget] at this
    show s.entries.size < cfg.maxRecords
    omega
  | some e =>
    obtain ⟨x, i, st, h1, h2, h3, h4, -⟩ := I.table _ e hget
    refine ⟨i, ?_⟩
    by_cases hf : st = .failed
    · rw [← hf]; exact h4
    · have hne : i ≠ j := by rintro rfl; rw [hj] at h4; cases h4
      have hi : Held (insert cfg s j p) i p.storageKey :=
        ⟨e, st, x, getElem?_set_of_ne hne h4, getElem?_append_of_some h1, h2, hf, h3⟩
      have hj' : Held (insert cfg s j p) j p.storageKey :=
        ⟨s.heap.length, .open, newEntry cfg p, getElem?_set_same hj, by simp [insert], rfl,
          (fun h => by cases h), fun hp => Nat.lt_irrefl _ (I.purged_lt _ hp)⟩
      exact absurd (hg.exclusive i j _ hi hj') hne

/-! ## Headline properties -/

/-- **Exclusive claims.** A run keeps the guarantees of the coordinator at every step exactly
when each of its inserts finds, at the moment it writes, a free slot for the key or the record
of a failed claim. -/
theorem exclusive_iff (cfg : Cfg) (ls : List Ev) (s : St) :
    ((lts cfg).guard (Good cfg)).Run init ls s ↔
      ((lts cfg).guard fun s ev _ => InsertClear cfg s ev).Run init ls s :=
  LTS.guard_run_iff (I := Inv cfg) (fun _ _ _ I hst hc => inv_step I hst hc)
    (fun _ _ _ I hst => ⟨clear_of_good I hst,
      fun hc => good_of_inv I (inv_step I hst hc) hst⟩)
    (inv_init cfg)

/-! ### Two claims of one key -/

def cfgEx (sha256 : String → String) : Cfg :=
  ⟨sha256, 900000, 10000, by decide, by decide⟩

def ctxEx : ToolExecutionContext where
  effect := .write
  delegation := .obj [("principalId", .str "user-1"), ("applicationId", .str "app-1")]
  idempotencyKey := some "create-1"
  tool := ⟨"sales.task.create", 1⟩
  descriptor := ⟨"sales.task.create", 1⟩
  input := some (.obj [])

/-- Both calls look the key up before either writes it. -/
def traceRace : List Ev :=
  [.start ctxEx (some 1000), .start ctxEx (some 1000), .checkTable 0, .checkTable 1,
   .insert 0, .insert 1]

theorem race (sha256 : String → String) : ∃ s k,
    (lts (cfgEx sha256)).Reachable s ∧ s.calls = [.claimed 0 .open, .claimed 1 .open] ∧
    Held s 0 k ∧ Held s 1 k := by
  have hrun : LTS.exec (step (cfgEx sha256)) init traceRace = some _ := rfl
  have hr : (lts (cfgEx sha256)).Reachable _ :=
    LTS.Reachable.run (.init rfl) (LTS.run_of_exec hrun)
  exact ⟨_, _, hr, rfl, ⟨0, .open, _, rfl, rfl, rfl, by decide, List.not_mem_nil⟩,
    ⟨1, .open, _, rfl, rfl, rfl, by decide, List.not_mem_nil⟩⟩

theorem two_claims : ∃ s k,
    (lts (cfgEx id)).Reachable s ∧ s.calls = [.claimed 0 .open, .claimed 1 .open] ∧
    Held s 0 k ∧ Held s 1 k :=
  race id

end KNex.Runtime.ToolIdempotency
