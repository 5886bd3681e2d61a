import KNex.Core.Json
import KNex.Core.LTS

/-!
# `WorkspaceEditorSession`

`packages/builder-puck/src/workspace-editor-session.ts`. Every piece of code between two awaits is
one step: the calls of the editor, the timer, the continuation of a `flush` whose save has settled,
and the responses of the persistence. A call that throws changes nothing but what it did before it
threw. Listeners are told of a new state and do not call back.

`saving` names the save whose promise the field holds; `inflight` lists the saves that run, so that
there is one at a time is a theorem, not a choice of the model. `tasks` are the calls that wait:
for a save, between `flush` and the rest of `publish`, or for the persistence. `calls` is the
history of the calls of the persistence; a save is named by the place of its call there.

`acknowledged`, `seen`, `received` and `unsaved` are history too. `acknowledged` is the working
copy that the session last took over from the server: the one it opened with, one whose write was
answered, one it reloaded. `seen` holds every such copy as the server sent it, `received` the copy
that came with a conflict. `unsaved` is the last local change that was neither acknowledged nor
discarded.
-/
namespace KNex.Editor

open KNex.Core

/-! ## Documents -/

/-- The documents of a page, and what the host's profile does with them; `none` is a throw. -/
structure Profile (δ : Type) where
  parse : δ → Option δ
  withVersion : δ → Int → δ
  toPuckData : δ → Bool
  validateChange : δ → δ → Option δ
  validateDocument : δ → Bool
  canonicalJson : δ → String

variable {δ : Type}

/-- mirrors packages/builder-puck/src/workspace-editor-session.ts:53-58 -/
def exactDocument (profile : Profile δ) (value : δ) (revision : Int) : Option δ := do
  let parsed ← profile.parse value
  let document ← profile.parse (profile.withVersion parsed revision)
  if profile.toPuckData document then some document else none

/-- The second document is the first, brought to other revisions. -/
inductive Carries (profile : Profile δ) (d : δ) : δ → Prop
  | refl : Carries profile d d
  | exact {a b : δ} {revision : Int} (h : Carries profile d a)
      (hb : exactDocument profile a revision = some b) : Carries profile d b

/-! ## Data -/

structure WorkingCopy (δ : Type) where
  revision : Int
  document : δ

/-- mirrors packages/builder-puck/src/workspace-editor-session.ts:10-12 -/
inductive SaveResult (δ : Type) where
  | saved (workingCopy : WorkingCopy δ)
  | conflict (workingCopy : WorkingCopy δ)

/-- mirrors packages/builder-puck/src/workspace-editor-session.ts:24 -/
inductive Status where
  | idle | dirty | saving | saved | conflict | publishing | published | rollingBack | rolledBack
  | error
  deriving DecidableEq, Repr

inductive Operation where
  | autosave | publish | rollback
  deriving DecidableEq, Repr

structure AutosaveInput (δ : Type) where
  expectedRevision : Int
  editorSessionId : String
  idempotencyKey : String
  document : δ

/-- A call of the persistence. -/
inductive Call (δ : Type) where
  | autosave (input : AutosaveInput δ)
  | publish (workingCopyRevision : Int) (idempotencyKey : String)
  | rollback (revisionId idempotencyKey : String)

def Call.key : Call δ → String
  | .autosave input => input.idempotencyKey
  | .publish _ key => key
  | .rollback _ key => key

/-- mirrors packages/builder-puck/src/workspace-editor-session.ts:34-38 -/
structure PendingSave (δ : Type) where
  generation : Nat
  input : AutosaveInput δ
  attempts : Nat

/-- What waits: a `flush` for a save, which it started itself or found running (`again`), the rest
of `publish` behind its `flush`, and the calls of `publish` and `rollback`. -/
inductive Task where
  | flushing (save : Nat) (again publish : Bool)
  | flushed
  | publishing
  | rollingBack
  deriving DecidableEq

/-- mirrors packages/builder-puck/src/workspace-editor-session.ts:40-48 -/
structure Options (δ : Type) where
  profile : Profile δ
  editorSessionId : String
  issueIdempotencyKey : Operation → Nat → String

/-- mirrors packages/builder-puck/src/workspace-editor-session.ts:26-32, 61-73 -/
structure Session (δ : Type) where
  status : Status
  document : δ
  workingCopyRevision : Int
  conflict : Option (WorkingCopy δ)
  generation : Nat
  sequence : Nat
  dirty : Bool
  timer : Bool
  pending : Option (PendingSave δ)
  saving : Option Nat
  closed : Bool
  inflight : List (Nat × PendingSave δ)
  tasks : List Task
  calls : List (Call δ)
  acknowledged : WorkingCopy δ
  seen : List (WorkingCopy δ)
  received : Option (WorkingCopy δ)
  unsaved : Option δ

/-! ## Calls -/

variable (o : Options δ)

/-- mirrors packages/builder-puck/src/workspace-editor-session.ts:75-83 -/
def openSession (workingCopy : WorkingCopy δ) : Option (Session δ) :=
  (exactDocument o.profile workingCopy.document workingCopy.revision).map fun document => {
    status := .idle
    document := document
    workingCopyRevision := workingCopy.revision
    conflict := none
    generation := 0
    sequence := 0
    dirty := false
    timer := false
    pending := none
    saving := none
    closed := false
    inflight := []
    tasks := []
    calls := []
    acknowledged := ⟨workingCopy.revision, document⟩
    seen := [workingCopy]
    received := none
    unsaved := none }

/-- mirrors packages/builder-puck/src/workspace-editor-session.ts:92-101 -/
def change (s : Session δ) (value : δ) : Session δ :=
  if s.closed = true ∨ s.conflict.isSome = true then s
  else
    match exactDocument o.profile value s.workingCopyRevision with
    | none => s
    | some next =>
      match o.profile.validateChange s.document next with
      | none => s
      | some document => { s with
          generation := s.generation + 1
          dirty := true
          status := .dirty
          document := document
          timer := true
          unsaved := some document }

/-- The pending write, or a new one for the document; `none` when that throws.
mirrors packages/builder-puck/src/workspace-editor-session.ts:111-123 -/
def ensurePending (s : Session δ) : Option (Session δ × PendingSave δ) :=
  match s.pending with
  | some pending => some (s, pending)
  | none =>
    (exactDocument o.profile s.document (s.workingCopyRevision + 1)).map fun document =>
      ({ s with sequence := s.sequence + 1 }, {
        generation := s.generation
        attempts := 0
        input := {
          expectedRevision := s.workingCopyRevision
          editorSessionId := o.editorSessionId
          idempotencyKey := o.issueIdempotencyKey .autosave (s.sequence + 1)
          document := document } })

/-- `flush()` has returned; inside `publish` the rest of it comes next. -/
def returned (s : Session δ) (publish : Bool) : Session δ :=
  if publish then { s with tasks := s.tasks ++ [.flushed] } else s

/-- The first attempt or another one.
mirrors packages/builder-puck/src/workspace-editor-session.ts:124-129 -/
def startSave (s : Session δ) (pending : PendingSave δ) (publish : Bool) : Session δ :=
  let attempt := { pending with attempts := pending.attempts + 1 }
  { s with
    pending := some attempt
    status := .saving
    saving := some s.calls.length
    inflight := s.inflight ++ [(s.calls.length, attempt)]
    calls := s.calls ++ [.autosave attempt.input]
    tasks := s.tasks ++ [.flushing s.calls.length false publish] }

/-- `flush()` up to its first await; `publish` tells whether `publish()` called it.
mirrors packages/builder-puck/src/workspace-editor-session.ts:103-129 -/
def flush (s : Session δ) (publish : Bool) : Session δ :=
  if s.closed then s
  else
    let s := { s with timer := false }
    if s.conflict.isSome = true ∨ s.dirty = false ∧ s.pending.isNone = true then returned s publish
    else
      match s.saving with
      | some n => { s with tasks := s.tasks ++ [.flushing n true publish] }
      | none =>
        match ensurePending o s with
        | none => s
        | some (s, pending) => startSave s pending publish

/-- mirrors packages/builder-puck/src/workspace-editor-session.ts:212-215 -/
def validateWorkingCopy (value : WorkingCopy δ) : Option (WorkingCopy δ) :=
  if -Json.maxSafeInteger ≤ value.revision ∧ value.revision ≤ Json.maxSafeInteger ∧
      1 ≤ value.revision
  then (exactDocument o.profile value.document value.revision).map fun document =>
    ⟨value.revision, document⟩
  else none

/-- The branch of a write that was answered as saved; `Except.error` holds the state at a throw.
mirrors packages/builder-puck/src/workspace-editor-session.ts:140-150 -/
def onSaved (s : Session δ) (pending : PendingSave δ) (workingCopy : WorkingCopy δ) :
    Except (Session δ) (Session δ) :=
  match validateWorkingCopy o workingCopy with
  | none => .error s
  | some saved =>
    if saved.revision ≠ pending.input.expectedRevision + 1 ∨
        o.profile.canonicalJson saved.document ≠ o.profile.canonicalJson pending.input.document
    then .error s
    else
      let s := { s with
        pending := none
        acknowledged := saved
        seen := s.seen ++ [workingCopy] }
      if s.generation ≠ pending.generation then
        match exactDocument o.profile s.document saved.revision with
        | none => .error s
        | some document => .ok { s with
            dirty := true
            status := .dirty
            document := document
            workingCopyRevision := saved.revision
            conflict := none
            timer := true }
      else .ok { s with
        dirty := false
        status := .saved
        document := saved.document
        workingCopyRevision := saved.revision
        conflict := none
        unsaved := none }

/-- mirrors packages/builder-puck/src/workspace-editor-session.ts:134-139 -/
def onConflict (s : Session δ) (pending : PendingSave δ) (workingCopy : WorkingCopy δ) :
    Except (Session δ) (Session δ) :=
  match validateWorkingCopy o workingCopy with
  | none => .error s
  | some conflict =>
    if conflict.revision ≤ pending.input.expectedRevision then .error s
    else .ok { s with
      status := .conflict
      conflict := some conflict
      received := some workingCopy }

/-- `performSave` behind its await, with the response, or `none` for a rejection.
mirrors packages/builder-puck/src/workspace-editor-session.ts:131-158 -/
def settleSave (s : Session δ) (pending : PendingSave δ) (result : Option (SaveResult δ)) :
    Session δ :=
  let outcome : Except (Session δ) (Session δ) := match result with
    | none => .error s
    | some (.conflict workingCopy) => onConflict o s pending workingCopy
    | some (.saved workingCopy) => onSaved o s pending workingCopy
  let s := match outcome with
    | .ok s => s
    | .error s =>
      if s.closed then s
      else { s with
        status := .error
        timer := s.timer || decide (pending.attempts = 1) }
  { s with saving := none }

/-- mirrors packages/builder-puck/src/workspace-editor-session.ts:160-169 -/
def reloadConflict (s : Session δ) : Session δ :=
  if s.closed then s
  else
    match s.conflict with
    | none => s
    | some conflict => { s with
        pending := none
        dirty := false
        generation := s.generation + 1
        status := .saved
        document := conflict.document
        workingCopyRevision := conflict.revision
        conflict := none
        acknowledged := conflict
        seen := s.seen ++ s.received.toList
        unsaved := none }

/-- mirrors packages/builder-puck/src/workspace-editor-session.ts:171-175 -/
def retryAutosave (s : Session δ) : Session δ :=
  if s.closed = true ∨ s.pending.isNone = true ∨ s.conflict.isSome = true then s
  else { s with timer := true }

/-- mirrors packages/builder-puck/src/workspace-editor-session.ts:217-222 -/
def ready (s : Session δ) : Bool :=
  !s.closed && s.conflict.isNone && !s.dirty && s.pending.isNone && s.saving.isNone

/-- `publish` behind its `flush`.
mirrors packages/builder-puck/src/workspace-editor-session.ts:181-187 -/
def startPublish (s : Session δ) : Session δ :=
  if ready s && o.profile.validateDocument s.document then { s with
    status := .publishing
    sequence := s.sequence + 1
    calls := s.calls ++
      [.publish s.workingCopyRevision (o.issueIdempotencyKey .publish (s.sequence + 1))]
    tasks := s.tasks ++ [.publishing] }
  else s

/-- mirrors packages/builder-puck/src/workspace-editor-session.ts:196-200 -/
def rollback (s : Session δ) (revisionId : String) : Session δ :=
  if ready s && decide (revisionId ≠ "") then { s with
    status := .rollingBack
    sequence := s.sequence + 1
    calls := s.calls ++ [.rollback revisionId (o.issueIdempotencyKey .rollback (s.sequence + 1))]
    tasks := s.tasks ++ [.rollingBack] }
  else s

/-- The response of `publish` or `rollback`, whose status is `done`.
mirrors packages/builder-puck/src/workspace-editor-session.ts:188-192, 201-205 -/
def settlePublication (s : Session δ) (done : Status) (ok : Bool) : Session δ :=
  if ok then { s with status := done }
  else if s.closed then s
  else { s with status := .error }

/-- mirrors packages/builder-puck/src/workspace-editor-session.ts:207-211 -/
def dispose (s : Session δ) : Session δ := { s with timer := false, closed := true }

/-! ## Steps -/

inductive Ev (δ : Type) where
  | change (value : δ)
  | flush
  | timer
  | retryAutosave
  | reloadConflict
  | publish
  | rollback (revisionId : String)
  | resume (task : Nat)
  | saveSettled (save : Nat) (result : Option (SaveResult δ))
  | publicationSettled (task : Nat) (ok : Bool)
  | dispose

def dropTask (s : Session δ) (task : Nat) : Session δ :=
  { s with tasks := s.tasks.eraseIdx task }

/-- The state in which the response of a running save is taken. -/
def withoutSave (s : Session δ) (save : Nat) : Session δ :=
  { s with inflight := s.inflight.filter fun f => f.1 ≠ save }

/-- A task goes on: a `flush` whose save has settled, or `publish` behind its `flush`. A `flush`
that found another save running tries again.
mirrors packages/builder-puck/src/workspace-editor-session.ts:106-110 -/
def resume (s : Session δ) (task : Nat) : Option (Session δ) :=
  match s.tasks[task]? with
  | some (.flushing save again publish) =>
    if save ∈ s.inflight.map Prod.fst then none
    else
      let s := dropTask s task
      if again = true ∧ s.dirty = true ∧ s.conflict.isNone = true ∧ s.status ≠ .error
      then some (flush o s publish)
      else some (returned s publish)
  | some .flushed => some (startPublish o (dropTask s task))
  | _ => none

def step (s : Session δ) : Ev δ → Option (Session δ)
  | .change value => some (change o s value)
  | .flush => some (flush o s false)
  | .timer => if s.timer then some (flush o { s with timer := false } false) else none
  | .retryAutosave => some (retryAutosave s)
  | .reloadConflict => some (reloadConflict s)
  | .publish => some (flush o s true)
  | .rollback revisionId => some (rollback o s revisionId)
  | .resume task => resume o s task
  | .saveSettled save result =>
    match s.inflight.find? fun f => f.1 = save with
    | none => none
    | some (_, pending) => some (settleSave o (withoutSave s save) pending result)
  | .publicationSettled task ok =>
    match s.tasks[task]? with
    | some .publishing => some (settlePublication (dropTask s task) .published ok)
    | some .rollingBack => some (settlePublication (dropTask s task) .rolledBack ok)
    | _ => none
  | .dispose => some (dispose s)

/-! ## What holds of a session -/

/-- The save that `saving` names is the one that runs; it runs for the pending write, and there is
no conflict. -/
def Flight (s : Session δ) : Prop :=
  match s.saving with
  | none => s.inflight = []
  | some n => ∃ p, s.inflight = [(n, p)] ∧ s.pending = some p ∧ s.conflict = none ∧
      s.calls[n]? = some (.autosave p.input)

structure Inv (s : Session δ) : Prop where
  flight : Flight s
  dirty : s.pending.isSome = true → s.dirty = true
  generation : ∀ p, s.pending = some p → p.generation ≤ s.generation
  expected : ∀ p, s.pending = some p → p.input.expectedRevision = s.workingCopyRevision
  clean : s.dirty = false → s.document = s.acknowledged.document ∧
    s.workingCopyRevision = s.acknowledged.revision
  unsavedDirty : s.unsaved.isSome = true → s.dirty = true
  carries : ∀ d, s.unsaved = some d → Carries o.profile d s.document
  pendingCarries : ∀ p d, s.pending = some p → p.generation = s.generation →
    s.unsaved = some d → Carries o.profile d p.input.document
  seen : ∃ c ∈ s.seen, c.revision = s.workingCopyRevision
  received : ∀ c, s.conflict = some c → ∃ raw, s.received = some raw ∧ raw.revision = c.revision

variable {o} {s s' : Session δ}

theorem inv_open {workingCopy : WorkingCopy δ} (h : openSession o workingCopy = some s) :
    Inv o s := by
  simp only [openSession, Option.map_eq_some_iff] at h
  obtain ⟨document, -, rfl⟩ := h
  refine ⟨rfl, ?_, ?_, ?_, fun _ => ⟨rfl, rfl⟩, ?_, ?_, ?_, ⟨workingCopy, by simp, rfl⟩, ?_⟩ <;> simp

/-- The invariant does not speak of the status, the timer, the tasks and the later calls. -/
theorem Inv.frame (hI : Inv o s) (status : Status) (sequence : Nat) (timer closed : Bool)
    (tasks : List Task) (calls : List (Call δ))
    (hcalls : ∀ (n : Nat) (c : Call δ), s.calls[n]? = some c → calls[n]? = some c) : Inv o { s with
      status := status
      sequence := sequence
      timer := timer
      closed := closed
      tasks := tasks
      calls := calls } := by
  refine ⟨?_, hI.dirty, hI.generation, hI.expected, hI.clean, hI.unsavedDirty, hI.carries,
    hI.pendingCarries, hI.seen, hI.received⟩
  have hflight := hI.flight
  unfold Flight at hflight ⊢
  dsimp only
  split
  · rename_i hs
    rw [hs] at hflight
    exact hflight
  · rename_i n hs
    rw [hs] at hflight
    obtain ⟨p, h1, h2, h3, h4⟩ := hflight
    exact ⟨p, h1, h2, h3, hcalls n _ h4⟩

/-- No save runs while there is a conflict. -/
theorem Inv.idle (hI : Inv o s) (h : s.conflict.isSome = true) :
    s.saving = none ∧ s.inflight = [] := by
  have hflight := hI.flight
  unfold Flight at hflight
  split at hflight
  · rename_i hs
    exact ⟨hs, hflight⟩
  · obtain ⟨p, -, -, hc, -⟩ := hflight
    rw [hc] at h
    cases h

theorem getElem?_snoc {α : Type} {l : List α} {x : α} {n : Nat} {c : α} (h : l[n]? = some c) :
    (l ++ [x])[n]? = some c := by
  obtain ⟨hn, -⟩ := List.getElem?_eq_some_iff.mp h
  rw [List.getElem?_append_left hn, h]

theorem inv_change (hI : Inv o s) (document : δ) : Inv o { s with
    generation := s.generation + 1
    dirty := true
    status := .dirty
    document := document
    timer := true
    unsaved := some document } := by
  refine ⟨hI.flight, fun _ => rfl, fun p hp => ?_, hI.expected, nofun, fun _ => rfl,
    fun d hd => ?_, fun p d hp hg => ?_, hI.seen, hI.received⟩
  · have := hI.generation p hp
    dsimp only
    omega
  · cases hd
    exact .refl
  · have := hI.generation p hp
    dsimp only at hg
    omega

/-- What a write is made of: the pending one, or a new one for the document as it stands. -/
theorem ensurePending_cases {p : PendingSave δ} (h : ensurePending o s = some (s', p)) :
    s' = s ∧ s.pending = some p ∨
    s.pending = none ∧ s' = { s with sequence := s.sequence + 1 } ∧
      p.generation = s.generation ∧ p.input.expectedRevision = s.workingCopyRevision ∧
      p.input.idempotencyKey = o.issueIdempotencyKey .autosave (s.sequence + 1) ∧
      exactDocument o.profile s.document (s.workingCopyRevision + 1) = some p.input.document := by
  unfold ensurePending at h
  split at h
  · rename_i hp
    cases h
    exact .inl ⟨rfl, hp⟩
  · rename_i hp
    rw [Option.map_eq_some_iff] at h
    obtain ⟨document, hd, he⟩ := h
    cases he
    exact .inr ⟨hp, rfl, rfl, rfl, rfl, hd⟩

/-- `flush` starts a save only when none runs, for a dirty document without a conflict. -/
theorem flush_cases (o : Options δ) (s : Session δ) (publish : Bool) :
    (∃ timer tasks, flush o s publish = { s with timer := timer, tasks := tasks }) ∨
    (s.closed = false ∧ s.conflict = none ∧ (s.dirty = true ∨ s.pending.isSome = true) ∧
      s.saving = none ∧ ∃ s₁ p, ensurePending o { s with timer := false } = some (s₁, p) ∧
      flush o s publish = startSave s₁ p publish) := by
  unfold flush
  split
  · exact .inl ⟨s.timer, s.tasks, rfl⟩
  · rename_i hopen
    dsimp only
    split
    · left
      unfold returned
      split
      · exact ⟨_, _, rfl⟩
      · exact ⟨false, s.tasks, rfl⟩
    · rename_i hwork
      rw [not_or] at hwork
      split
      · exact .inl ⟨_, _, rfl⟩
      · rename_i hsaving
        split
        · exact .inl ⟨false, s.tasks, rfl⟩
        · rename_i s₁ p hp
          refine .inr ⟨by simpa using hopen, by simpa using hwork.1, ?_, hsaving, s₁, p, hp, rfl⟩
          have := hwork.2
          cases hd : s.dirty with
          | true => exact .inl rfl
          | false =>
            right
            cases hq : s.pending with
            | none => exact absurd ⟨hd, by rw [hq]; rfl⟩ this
            | some q => rfl

theorem inv_save (hI : Inv o s) {s₁ : Session δ} {p : PendingSave δ} {timer publish : Bool}
    {tasks : List Task} (hconflict : s.conflict = none)
    (hwork : s.dirty = true ∨ s.pending.isSome = true) (hsaving : s.saving = none)
    (hp : ensurePending o { s with timer := timer, tasks := tasks } = some (s₁, p)) :
    Inv o (startSave s₁ p publish) := by
  have hdirty : s.dirty = true := hwork.elim id hI.dirty
  have hempty : s.inflight = [] := by
    have := hI.flight
    unfold Flight at this
    rwa [hsaving] at this
  rcases ensurePending_cases hp with ⟨rfl, hpending⟩ | ⟨hpending, rfl, hgen, hexp, -, hdoc⟩
  · have hpending : s.pending = some p := hpending
    refine ⟨⟨_, by simp [startSave, hempty], rfl, hconflict, by simp [startSave]⟩, fun _ => hdirty,
      fun q hq => ?_, fun q hq => ?_, hI.clean, hI.unsavedDirty, hI.carries,
      fun q d hq hg hd => ?_, hI.seen, hI.received⟩
    · cases hq
      exact hI.generation p hpending
    · cases hq
      exact hI.expected p hpending
    · cases hq
      exact hI.pendingCarries p d hpending hg hd
  · refine ⟨⟨_, by simp [startSave, hempty], rfl, hconflict, by simp [startSave]⟩, fun _ => hdirty,
      fun q hq => ?_, fun q hq => ?_, hI.clean, hI.unsavedDirty, hI.carries,
      fun q d hq hg hd => ?_, hI.seen, hI.received⟩
    · cases hq
      exact Nat.le_of_eq hgen
    · cases hq
      exact hexp
    · cases hq
      exact .exact (hI.carries d hd) hdoc

theorem validateWorkingCopy_some {value valid : WorkingCopy δ}
    (h : validateWorkingCopy o value = some valid) : valid.revision = value.revision := by
  unfold validateWorkingCopy at h
  split at h
  · rw [Option.map_eq_some_iff] at h
    obtain ⟨document, -, rfl⟩ := h
    rfl
  · cases h

/-- A write that the server answered as saved: the copy it sent has the next revision. -/
structure Accepted (o : Options δ) (p : PendingSave δ) (copy saved : WorkingCopy δ) : Prop where
  valid : validateWorkingCopy o copy = some saved
  revision : saved.revision = p.input.expectedRevision + 1
  same : o.profile.canonicalJson saved.document = o.profile.canonicalJson p.input.document

/-- The five ends of a save. -/
inductive Settled (o : Options δ) (s : Session δ) (p : PendingSave δ) :
    Option (SaveResult δ) → Session δ → Prop
  | failed (result : Option (SaveResult δ)) (status : Status) (timer : Bool)
      (hstatus : status = .error ∨ s.closed = true ∧ status = s.status) :
      Settled o s p result { s with saving := none, status := status, timer := timer }
  | conflict {copy conflict : WorkingCopy δ} (hvalid : validateWorkingCopy o copy = some conflict)
      (hnewer : p.input.expectedRevision < conflict.revision) :
      Settled o s p (some (.conflict copy)) { s with
        saving := none
        status := .conflict
        conflict := some conflict
        received := some copy }
  | threw {copy saved : WorkingCopy δ} (h : Accepted o p copy saved)
      (hnewer : s.generation ≠ p.generation) (status : Status) (timer : Bool)
      (hstatus : status = .error ∨ s.closed = true ∧ status = s.status) :
      Settled o s p (some (.saved copy)) { s with
        saving := none
        pending := none
        acknowledged := saved
        seen := s.seen ++ [copy]
        status := status
        timer := timer }
  | behind {copy saved : WorkingCopy δ} {document : δ} (h : Accepted o p copy saved)
      (hnewer : s.generation ≠ p.generation)
      (hdoc : exactDocument o.profile s.document saved.revision = some document) :
      Settled o s p (some (.saved copy)) { s with
        saving := none
        pending := none
        acknowledged := saved
        seen := s.seen ++ [copy]
        dirty := true
        status := .dirty
        document := document
        workingCopyRevision := saved.revision
        conflict := none
        timer := true }
  | saved {copy saved : WorkingCopy δ} (h : Accepted o p copy saved)
      (hsame : s.generation = p.generation) :
      Settled o s p (some (.saved copy)) { s with
        saving := none
        pending := none
        acknowledged := saved
        seen := s.seen ++ [copy]
        dirty := false
        status := .saved
        document := saved.document
        workingCopyRevision := saved.revision
        conflict := none
        unsaved := none }

theorem settleSave_settled (o : Options δ) (s : Session δ) (p : PendingSave δ) (result : Option (SaveResult δ)) :
    Settled o s p result (settleSave o s p result) := by
  have hfailed : ∀ r, Settled o s p r { (if s.closed then s else { s with
      status := .error
      timer := s.timer || decide (p.attempts = 1) }) with saving := none } := by
    intro r
    split
    · rename_i hc
      exact .failed r s.status s.timer (.inr ⟨hc, rfl⟩)
    · exact .failed r .error _ (.inl rfl)
  cases result with
  | none => exact hfailed none
  | some result =>
    cases result with
    | conflict copy =>
      simp only [settleSave, onConflict]
      cases hvalid : validateWorkingCopy o copy with
      | none => exact hfailed _
      | some conflict =>
        dsimp only
        by_cases hle : conflict.revision ≤ p.input.expectedRevision
        · rw [if_pos hle]
          exact hfailed _
        · rw [if_neg hle]
          exact .conflict hvalid (by omega)
    | saved copy =>
      simp only [settleSave, onSaved]
      cases hvalid : validateWorkingCopy o copy with
      | none => exact hfailed _
      | some saved =>
        dsimp only
        by_cases hmatch : saved.revision ≠ p.input.expectedRevision + 1 ∨
            o.profile.canonicalJson saved.document ≠ o.profile.canonicalJson p.input.document
        · rw [if_pos hmatch]
          exact hfailed _
        · rw [if_neg hmatch]
          rw [not_or, not_not, not_not] at hmatch
          have hacc : Accepted o p copy saved := ⟨hvalid, hmatch.1, hmatch.2⟩
          by_cases hgen : s.generation ≠ p.generation
          · rw [if_pos hgen]
            cases hdoc : exactDocument o.profile s.document saved.revision with
            | none =>
              dsimp only
              split
              · rename_i hc
                exact .threw hacc hgen s.status s.timer (.inr ⟨hc, rfl⟩)
              · exact .threw hacc hgen .error _ (.inl rfl)
            | some document => exact .behind hacc hgen hdoc
          · rw [if_neg hgen]
            exact .saved hacc (not_not.mp hgen)

/-- The save that has settled is the one that ran, for the pending write. -/
theorem Inv.settled (hI : Inv o s) {save n : Nat} {p : PendingSave δ}
    (h : s.inflight.find? (fun f => f.1 = save) = some (n, p)) :
    n = save ∧ s.pending = some p ∧ s.conflict = none ∧
      s.calls[save]? = some (.autosave p.input) ∧ withoutSave s save = { s with inflight := [] } := by
  have hflight := hI.flight
  unfold Flight at hflight
  have hn : n = save := by simpa using List.find?_some h
  have hm := List.mem_of_find?_eq_some h
  split at hflight
  · rw [hflight] at hm
    cases hm
  · obtain ⟨q, h1, h2, h3, h4⟩ := hflight
    rw [h1, List.mem_singleton] at hm
    cases hm
    subst hn
    exact ⟨rfl, h2, h3, h4, by simp [withoutSave, h1]⟩

theorem inv_settle (hI : Inv o s) {p : PendingSave δ} (hp : s.pending = some p)
    {result : Option (SaveResult δ)}
    (h : Settled o { s with inflight := [] } p result s') : Inv o s' := by
  have hdirty : s.dirty = true := hI.dirty (by rw [hp]; rfl)
  cases h with
  | failed _ status timer =>
    exact ⟨rfl, hI.dirty, hI.generation, hI.expected, hI.clean, hI.unsavedDirty, hI.carries,
      hI.pendingCarries, hI.seen, hI.received⟩
  | conflict hvalid _ =>
    refine ⟨rfl, hI.dirty, hI.generation, hI.expected, hI.clean, hI.unsavedDirty, hI.carries,
      hI.pendingCarries, hI.seen, fun c hc => ?_⟩
    cases hc
    exact ⟨_, rfl, (validateWorkingCopy_some hvalid).symm⟩
  | threw h hnewer status timer =>
    obtain ⟨c, hc, hrev⟩ := hI.seen
    refine ⟨rfl, nofun, nofun, nofun, fun hd => ?_, hI.unsavedDirty, hI.carries, nofun,
      ⟨c, List.mem_append_left _ hc, hrev⟩, hI.received⟩
    rw [hdirty] at hd
    cases hd
  | @behind copy saved document h hnewer hdoc =>
    refine ⟨rfl, nofun, nofun, nofun, nofun, fun _ => rfl, fun d hd => .exact (hI.carries d hd) hdoc,
      nofun, ⟨copy, by simp, (validateWorkingCopy_some h.valid).symm⟩, nofun⟩
  | @saved copy saved h hsame =>
    refine ⟨rfl, nofun, nofun, nofun, fun _ => ⟨rfl, rfl⟩, nofun, nofun, nofun,
      ⟨copy, by simp, (validateWorkingCopy_some h.valid).symm⟩, nofun⟩

theorem inv_reload (hI : Inv o s) {conflict : WorkingCopy δ} (hconflict : s.conflict = some conflict) :
    Inv o { s with
      pending := none
      dirty := false
      generation := s.generation + 1
      status := .saved
      document := conflict.document
      workingCopyRevision := conflict.revision
      conflict := none
      acknowledged := conflict
      seen := s.seen ++ s.received.toList
      unsaved := none } := by
  obtain ⟨hsaving, hempty⟩ := hI.idle (by rw [hconflict]; rfl)
  obtain ⟨raw, hraw, hrev⟩ := hI.received conflict hconflict
  refine ⟨?_, nofun, nofun, nofun, fun _ => ⟨rfl, rfl⟩, nofun, nofun, nofun,
    ⟨raw, by simp [hraw], hrev⟩, nofun⟩
  unfold Flight
  dsimp only
  rw [hsaving]
  exact hempty

/-! ## What a step can do -/

/-- The effects of a step: it starts a save or another call, takes a change or a response, reloads,
or touches neither the documents nor the write. -/
inductive Effect (o : Options δ) (s : Session δ) : Ev δ → Session δ → Prop
  | rest (e : Ev δ) (status : Status) (timer closed : Bool) (tasks : List Task)
      (hstatus : status = s.status ∨ status = .error ∨ ∃ task, e = .publicationSettled task true) :
      Effect o s e { s with status := status, timer := timer, closed := closed, tasks := tasks }
  | change (value document : δ) : Effect o s (.change value) { s with
      generation := s.generation + 1
      dirty := true
      status := .dirty
      document := document
      timer := true
      unsaved := some document }
  | save (e : Ev δ) {s₁ : Session δ} {p : PendingSave δ} (timer publish : Bool) (tasks : List Task)
      (hconflict : s.conflict = none) (hwork : s.dirty = true ∨ s.pending.isSome = true)
      (hsaving : s.saving = none)
      (hp : ensurePending o { s with timer := timer, tasks := tasks } = some (s₁, p)) :
      Effect o s e (startSave s₁ p publish)
  | call (e : Ev δ) (status : Status) (op : Operation) (c : Call δ) (tasks : List Task)
      (hstatus : status = .publishing ∨ status = .rollingBack)
      (hkey : c.key = o.issueIdempotencyKey op (s.sequence + 1))
      (hcall : ∀ input, c ≠ .autosave input) : Effect o s e { s with
        status := status
        sequence := s.sequence + 1
        calls := s.calls ++ [c]
        tasks := tasks }
  | reload {conflict : WorkingCopy δ} (hconflict : s.conflict = some conflict) :
      Effect o s .reloadConflict { s with
        pending := none
        dirty := false
        generation := s.generation + 1
        status := .saved
        document := conflict.document
        workingCopyRevision := conflict.revision
        conflict := none
        acknowledged := conflict
        seen := s.seen ++ s.received.toList
        unsaved := none }
  | settled {save n : Nat} {p : PendingSave δ} {result : Option (SaveResult δ)} {s' : Session δ}
      (hfind : s.inflight.find? (fun f => f.1 = save) = some (n, p))
      (h : Settled o (withoutSave s save) p result s') : Effect o s (.saveSettled save result) s'

/-- A step that does nothing. -/
theorem Effect.none (o : Options δ) (s : Session δ) (e : Ev δ) : Effect o s e s :=
  .rest e s.status s.timer s.closed s.tasks (.inl rfl)

theorem flush_effect (o : Options δ) (s : Session δ) (e : Ev δ) (timer publish : Bool)
    (tasks : List Task) :
    Effect o s e (flush o { s with timer := timer, tasks := tasks } publish) := by
  rcases flush_cases o { s with timer := timer, tasks := tasks } publish with
    ⟨timer', tasks', h⟩ | ⟨-, hconflict, hwork, hsaving, s₁, p, hp, h⟩
  · rw [h]
    exact .rest e _ timer' s.closed tasks' (.inl rfl)
  · rw [h]
    exact .save e false publish tasks hconflict hwork hsaving hp

theorem resume_effect {task : Nat} (h : resume o s task = some s') :
    Effect o s (.resume task) s' := by
  unfold resume at h
  split at h
  · split at h
    · cases h
    · dsimp only at h
      split at h
      · cases h
        exact flush_effect o s _ s.timer _ _
      · cases h
        unfold returned
        split
        · exact .rest _ _ s.timer s.closed _ (.inl rfl)
        · exact .rest _ _ s.timer s.closed _ (.inl rfl)
  · cases h
    unfold startPublish
    split
    · exact .call _ _ .publish _ _ (.inl rfl) rfl nofun
    · exact .rest _ _ s.timer s.closed _ (.inl rfl)
  · cases h

theorem settlePublication_effect (o : Options δ) (s : Session δ) (task : Nat) (done : Status)
    (ok : Bool) :
    Effect o s (.publicationSettled task ok) (settlePublication (dropTask s task) done ok) := by
  unfold settlePublication
  split
  · rename_i hok
    subst hok
    exact .rest _ _ s.timer s.closed _ (.inr (.inr ⟨task, rfl⟩))
  · split
    · exact .rest _ _ s.timer s.closed _ (.inl rfl)
    · exact .rest _ _ s.timer s.closed _ (.inr (.inl rfl))

theorem step_effect {e : Ev δ} (h : step o s e = some s') : Effect o s e s' := by
  cases e with
  | change value =>
    cases h
    unfold change
    split
    · exact .none o s _
    · split
      · exact .none o s _
      · split
        · exact .none o s _
        · exact .change value _
  | flush =>
    cases h
    exact flush_effect o s _ s.timer false s.tasks
  | timer =>
    simp only [step] at h
    split at h
    · cases h
      exact flush_effect o s _ false false s.tasks
    · cases h
  | retryAutosave =>
    cases h
    unfold retryAutosave
    split
    · exact .none o s _
    · exact .rest _ _ true s.closed s.tasks (.inl rfl)
  | reloadConflict =>
    cases h
    unfold reloadConflict
    split
    · exact .none o s _
    · split
      · exact .none o s _
      · rename_i conflict hconflict
        exact .reload hconflict
  | publish =>
    cases h
    exact flush_effect o s _ s.timer true s.tasks
  | rollback revisionId =>
    cases h
    unfold rollback
    split
    · exact .call _ _ .rollback _ _ (.inr rfl) rfl nofun
    · exact .none o s _
  | resume task => exact resume_effect h
  | saveSettled save result =>
    simp only [step] at h
    split at h
    · cases h
    · rename_i n p hfind
      cases h
      exact .settled hfind (settleSave_settled o _ p result)
  | publicationSettled task ok =>
    simp only [step] at h
    split at h
    · cases h
      exact settlePublication_effect o s task _ ok
    · cases h
      exact settlePublication_effect o s task _ ok
    · cases h
  | dispose =>
    cases h
    exact .rest _ _ false true s.tasks (.inl rfl)

theorem inv_step {e : Ev δ} (hI : Inv o s) (h : step o s e = some s') : Inv o s' := by
  cases step_effect h with
  | rest => exact hI.frame _ _ _ _ _ _ fun _ _ h => h
  | change value document => exact inv_change hI document
  | save _ _ _ _ hconflict hwork hsaving hp => exact inv_save hI hconflict hwork hsaving hp
  | call => exact hI.frame _ _ _ _ _ _ fun _ _ h => getElem?_snoc h
  | reload hconflict => exact inv_reload hI hconflict
  | settled hfind hset =>
    obtain ⟨-, hp, -, -, hs⟩ := hI.settled hfind
    exact inv_settle hI hp (hs ▸ hset)

end KNex.Editor
