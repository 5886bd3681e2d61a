import KNex.Core.Calls
import KNex.Core.LTS

/-!
# `SourceConvergenceController`: what the state shows

`packages/runtime/src/source-convergence.ts`. A refresh awaits `authorize`, awaits `fetch`, and
writes the state, each time unless its signal has been aborted; a timer races it, aborts it and
writes an error. Callers that find a refresh in flight join it. Everything between two awaits is
one step; a sync throw of `authorize` is a rejection that comes at once. `clearTimeout` runs in the
microtasks behind the end of `runRefresh`, before any timer can fire, so a refresh that ends
disarms its timer; `refreshPromise` is cleared by a later step (`release`).

A refresh keeps as history the number of authorization invalidations that came before its start,
whether it was authorized, and the snapshot it has shown. `invalidations` are those accepted since
the state was last cleared (by an authorization invalidation, a denial or a failure of `authorize`,
or a timeout). Clock readings and revisions are integers.

`Fresh` says of a step what the controller is for. The timer of a refresh that an authorization
invalidation has aborted still writes its error (`aborted_timer`); the guarantees hold in exactly
the runs in which no timer of an aborted refresh fires (`fresh_iff_unaborted`).
-/
namespace KNex.Runtime.SourceConvergence

open KNex.Core

/-! ## Data -/

inductive SourceFreshnessClass where
  | live | standard | background
  deriving DecidableEq, Repr

/-- mirrors packages/runtime/src/source-convergence.ts:1-5 -/
def sourceFreshnessIntervalsMs : SourceFreshnessClass → Int
  | .live => 15000
  | .standard => 60000
  | .background => 300000

inductive Surface where
  | workspace | other
  deriving DecidableEq, Repr

inductive SourceConvergenceReason where
  | initial | invalidation | authorization | reconnect | focus | periodic
  deriving DecidableEq, Repr

inductive Status where
  | error | forbidden | idle | ready | stale
  deriving DecidableEq, Repr

structure AuthoritativeSourceSnapshot (α : Type) where
  data : α
  revision : Int
  deriving DecidableEq, Repr

/-- mirrors packages/runtime/src/source-convergence.ts:15-20 -/
structure SourceConvergenceState (α : Type) where
  data : Option α
  lastValidatedAt : Option Int
  revision : Option Int
  status : Status
  deriving DecidableEq, Repr

structure Dependencies where
  freshness : SourceFreshnessClass
  surface : Surface

/-- mirrors packages/runtime/src/source-convergence.ts:38-41 -/
def revisionOk (value : Int) : Bool := decide (0 ≤ value ∧ value ≤ 9007199254740991)

inductive Pc where
  | authorizing | fetching | done
  deriving DecidableEq, Repr

/-- A run of `runRefresh` with its timer and its signal. -/
structure Refresh (α : Type) where
  reason : SourceConvergenceReason
  pc : Pc
  timer : Bool
  aborted : Bool
  epoch : Nat
  authorized : Bool
  shown : Option (AuthoritativeSourceSnapshot α)
  deriving DecidableEq, Repr

/-- `waiting` holds the refreshes behind which `handleAuthorizationInvalidation` has put another;
`epoch` counts its calls, and `source` is the refresh that has written the data. -/
structure St (α : Type) where
  state : SourceConvergenceState α
  refreshPromise : Option Nat
  refreshController : Option Nat
  minimumRevision : Int
  refreshes : List (Refresh α)
  waiting : List Nat
  epoch : Nat
  invalidations : List Int
  source : Option Nat
  deriving DecidableEq, Repr

variable {α : Type}

def init : St α := ⟨⟨none, none, none, .idle⟩, none, none, 0, [], [], 0, [], none⟩

inductive Ev (α : Type) where
  | initial
  | invalidation (nextRevision : Int)
  | authorizationInvalidation (now : Int)
  | reconnect
  | windowFocus (now : Int)
  | periodicTick (now : Int)
  /-- `authorize` answers, or throws (`none`) -/
  | authorized (k : Nat) (answer : Option Bool) (now : Int)
  /-- `fetch` answers, or rejects (`none`) -/
  | fetched (k : Nat) (answer : Option (AuthoritativeSourceSnapshot α)) (now : Int)
  | timer (k : Nat) (now : Int)
  /-- the `finally` of the refresh in flight -/
  | release
  /-- the refresh put behind a released one -/
  | resume (j : Nat)
  deriving DecidableEq, Repr

/-- The refresh that an event continues. -/
def Ev.refresh? : Ev α → Option Nat
  | .authorized k _ _ => some k
  | .fetched k _ _ => some k
  | .timer k _ => some k
  | _ => none

/-! ## Steps -/

/-- Private state is gone. -/
def cleared (now : Int) (status : Status) : SourceConvergenceState α :=
  ⟨none, some now, none, status⟩

def St.withStatus (s : St α) (status : Status) : SourceConvergenceState α :=
  { s.state with status := status }

/-- mirrors packages/runtime/src/source-convergence.ts:136-157 -/
def refresh (s : St α) (reason : SourceConvergenceReason) : St α :=
  match s.refreshPromise with
  | some _ => s
  | none =>
    { s with
      refreshPromise := some s.refreshes.length
      refreshController := some s.refreshes.length
      refreshes := s.refreshes ++ [⟨reason, .authorizing, true, false, s.epoch, false, none⟩] }

/-- mirrors packages/runtime/src/source-convergence.ts:99-105 -/
def handleInvalidation (s : St α) (nextRevision : Int) : St α :=
  if revisionOk nextRevision = false then s
  else
    let s := { s with invalidations := nextRevision :: s.invalidations }
    if ∃ shown ∈ s.state.revision, nextRevision ≤ shown then s
    else refresh { s with
      minimumRevision := max s.minimumRevision nextRevision
      state := s.withStatus .stale } .invalidation

/-- `this.refreshController?.abort()` -/
def abort (s : St α) : List (Refresh α) :=
  match s.refreshController with
  | some k => s.refreshes.modify k fun r => { r with aborted := true }
  | none => s.refreshes

/-- mirrors packages/runtime/src/source-convergence.ts:108-114 -/
def handleAuthorizationInvalidation (s : St α) (now : Int) : St α :=
  let s := { s with
    minimumRevision := 0
    state := cleared now .stale
    refreshes := abort s
    epoch := s.epoch + 1
    invalidations := [] }
  match s.refreshPromise with
  | some k => { s with waiting := s.waiting ++ [k] }
  | none => refresh s .authorization

/-- mirrors packages/runtime/src/source-convergence.ts:116-119 -/
def handleReconnect (s : St α) : St α := refresh { s with state := s.withStatus .stale } .reconnect

/-- `this.age() < interval`; the age is infinite before the first validation.
mirrors packages/runtime/src/source-convergence.ts:131-133 -/
def youngerThan (s : St α) (now interval : Int) : Prop :=
  ∃ t ∈ s.state.lastValidatedAt, max 0 (now - t) < interval

instance (s : St α) (now interval : Int) : Decidable (youngerThan s now interval) :=
  inferInstanceAs (Decidable (∃ t ∈ s.state.lastValidatedAt, _))

/-- mirrors packages/runtime/src/source-convergence.ts:121-124 -/
def handleWindowFocus (d : Dependencies) (s : St α) (now : Int) : St α :=
  if d.surface ≠ .workspace ∨ youngerThan s now (sourceFreshnessIntervalsMs .live) then s
  else refresh s .focus

/-- mirrors packages/runtime/src/source-convergence.ts:126-129 -/
def handlePeriodicTick (d : Dependencies) (s : St α) (now : Int) : St α :=
  if youngerThan s now (sourceFreshnessIntervalsMs d.freshness) then s else refresh s .periodic

/-- `runRefresh` returns, having written this state. -/
def settle (s : St α) (k : Nat) (r : Refresh α) (state : SourceConvergenceState α) : St α :=
  { s with
    state := state
    refreshes := s.refreshes.set k { r with pc := .done, timer := false } }

/-- mirrors packages/runtime/src/source-convergence.ts:160-174 -/
def authorizeAnswers (s : St α) (k : Nat) (r : Refresh α) (answer : Option Bool) (now : Int) :
    St α :=
  if r.aborted then settle s k r s.state
  else match answer with
    | none => { settle s k r (cleared now .error) with invalidations := [] }
    | some false =>
      { settle s k r (cleared now .forbidden) with minimumRevision := 0, invalidations := [] }
    | some true =>
      { s with refreshes := s.refreshes.set k { r with pc := .fetching, authorized := true } }

/-- mirrors packages/runtime/src/source-convergence.ts:175-199 -/
def fetchAnswers (s : St α) (k : Nat) (r : Refresh α)
    (answer : Option (AuthoritativeSourceSnapshot α)) (now : Int) : St α :=
  if r.aborted then settle s k r s.state
  else match answer with
    | none => settle s k r (s.withStatus .error)
    | some snapshot =>
      if revisionOk snapshot.revision = false then settle s k r (s.withStatus .error)
      else if ∃ shown ∈ s.state.revision, snapshot.revision < shown then
        settle s k r (s.withStatus .error)
      else
        let status : Status := if snapshot.revision < s.minimumRevision then .stale else .ready
        { settle s k { r with shown := some snapshot }
            ⟨some snapshot.data, some now, some snapshot.revision, status⟩ with
          minimumRevision := if status = .ready then 0 else s.minimumRevision
          source := some k }

/-- The timeout callback looks at no signal.
mirrors packages/runtime/src/source-convergence.ts:142-147 -/
def timeout (s : St α) (k : Nat) (r : Refresh α) (now : Int) : St α :=
  { s with
    state := cleared now .error
    refreshes := s.refreshes.set k { r with timer := false, aborted := true }
    invalidations := [] }

/-- mirrors packages/runtime/src/source-convergence.ts:152-155 -/
def release (s : St α) (k : Nat) : St α :=
  { s with
    refreshPromise := none
    refreshController := if s.refreshController = some k then none else s.refreshController }

def step (d : Dependencies) (s : St α) : Ev α → Option (St α)
  | .initial => some (refresh s .initial)
  | .invalidation nextRevision => some (handleInvalidation s nextRevision)
  | .authorizationInvalidation now => some (handleAuthorizationInvalidation s now)
  | .reconnect => some (handleReconnect s)
  | .windowFocus now => some (handleWindowFocus d s now)
  | .periodicTick now => some (handlePeriodicTick d s now)
  | .authorized k answer now =>
    match s.refreshes[k]? with
    | some r => if r.pc = .authorizing then some (authorizeAnswers s k r answer now) else none
    | none => none
  | .fetched k answer now =>
    match s.refreshes[k]? with
    | some r => if r.pc = .fetching then some (fetchAnswers s k r answer now) else none
    | none => none
  | .timer k now =>
    match s.refreshes[k]? with
    | some r => if r.timer then some (timeout s k r now) else none
    | none => none
  | .release =>
    match s.refreshPromise with
    | some k =>
      match s.refreshes[k]? with
      -- the race is settled: the refresh has returned, or its timer has fired
      | some r => if r.timer then none else some (release s k)
      | none => none
    | none => none
  | .resume j =>
    match s.waiting[j]? with
    | some k =>
      if s.refreshPromise = some k then none
      else some (refresh { s with waiting := s.waiting.eraseIdx j } .authorization)
    | none => none

def lts (α : Type) (d : Dependencies) : LTS (St α) (Ev α) := .ofFn (· = init) (step d)

/-! ## What the controller is for -/

/-- The data that is shown as ready came from an authorized refresh of the current epoch, at or
above every invalidation. -/
def Current (s : St α) : Prop :=
  ∃ k r snapshot, s.source = some k ∧ s.refreshes[k]? = some r ∧ r.authorized = true ∧
    r.epoch = s.epoch ∧ r.shown = some snapshot ∧ s.state.data = some snapshot.data ∧
    s.state.revision = some snapshot.revision ∧ ∀ n ∈ s.invalidations, n ≤ snapshot.revision

structure Fresh (s : St α) (ev : Ev α) (s' : St α) : Prop where
  ready : s'.state.status = .ready → Current s'
  monotone : ∀ v ∈ s.state.revision, ∀ v' ∈ s'.state.revision, v ≤ v'
  ended : ∀ k r, ev.refresh? = some k → s.refreshes[k]? = some r →
    (r.aborted = true ∨ r.pc = .done ∨ s.refreshPromise ≠ some k) → s'.state = s.state

/-- A timer that fires belongs to a refresh that was not aborted. -/
def Unaborted (s : St α) (ev : Ev α) : Prop :=
  ∀ k now r, ev = .timer k now → s.refreshes[k]? = some r → r.timer = true → r.aborted = false

/-! ## Invariant -/

structure Inv (s : St α) : Prop where
  running : ∀ (k : Nat) (r : Refresh α), s.refreshes[k]? = some r → r.pc ≠ .done →
    r.aborted = false → s.refreshPromise = some k ∧ s.refreshController = some k ∧
    r.epoch = s.epoch ∧ r.timer = true
  armed : ∀ (k : Nat) (r : Refresh α), s.refreshes[k]? = some r → r.timer = true →
    s.refreshPromise = some k ∧ r.pc ≠ .done
  fetching : ∀ r ∈ s.refreshes, r.pc = .fetching → r.authorized = true
  waiting : ∀ r ∈ s.refreshes, r.timer = true → r.aborted = true → s.state.status = .stale
  covered : ∀ n ∈ s.invalidations, n ≤ s.minimumRevision ∨ ∃ v ∈ s.state.revision, n ≤ v
  ready : s.state.status = .ready → Current s

theorem inv_init : Inv (init : St α) := by
  refine ⟨?_, ?_, ?_, ?_, ?_, ?_⟩ <;> simp [init]

variable {d : Dependencies} {s s' : St α} {ev : Ev α}

/-- The refresh that has written the data is only changed in its flags. -/
theorem Current.keep (h : Current s) (hdata : s'.state.data = s.state.data)
    (hrev : s'.state.revision = s.state.revision) (hsource : s'.source = s.source)
    (hepoch : s'.epoch = s.epoch) (hinv : ∀ n ∈ s'.invalidations, n ∈ s.invalidations ∨
      ∃ v ∈ s.state.revision, n ≤ v)
    (hkeep : ∀ (k : Nat) (r : Refresh α), s.refreshes[k]? = some r → ∃ r',
      s'.refreshes[k]? = some r' ∧ (r.authorized = true → r'.authorized = true) ∧
      r'.epoch = r.epoch ∧ r'.shown = r.shown) : Current s' := by
  obtain ⟨k, r, snapshot, hs, hk, hauth, he, hshown, hd, hr, hall⟩ := h
  obtain ⟨r', hk', hauth', he', hshown'⟩ := hkeep k r hk
  refine ⟨k, r', snapshot, hsource.trans hs, hk', hauth' hauth, he'.trans (he.trans hepoch.symm),
    hshown'.trans hshown, hdata.trans hd, hrev.trans hr, fun n hn => ?_⟩
  rcases hinv n hn with hn | ⟨v, hv, hle⟩
  · exact hall n hn
  · obtain rfl := Option.some.inj (hr.symm.trans hv)
    exact hle

/-- One refresh is replaced by one with the same history. -/
theorem keep_set {k : Nat} {r r' : Refresh α} (hk : s.refreshes[k]? = some r)
    (hauth : r.authorized = true → r'.authorized = true) (hepoch : r'.epoch = r.epoch)
    (hshown : r'.shown = r.shown) : ∀ (j : Nat) (q : Refresh α), s.refreshes[j]? = some q → ∃ q',
      (s.refreshes.set k r')[j]? = some q' ∧ (q.authorized = true → q'.authorized = true) ∧
      q'.epoch = q.epoch ∧ q'.shown = q.shown := by
  intro j q hj
  by_cases heq : k = j
  · subst heq
    obtain rfl := Option.some.inj (hk.symm.trans hj)
    exact ⟨r', List.getElem?_set_self (List.getElem?_eq_some_iff.mp hk).1, hauth, hepoch, hshown⟩
  · exact ⟨q, (List.getElem?_set_ne heq).trans hj, id, rfl, rfl⟩

/-! ### Refreshes that start -/

theorem inv_refresh (h : Inv s) (reason : SourceConvergenceReason) : Inv (refresh s reason) := by
  unfold refresh
  split
  · exact h
  rename_i hnone
  have hold : ∀ (k : Nat) (r : Refresh α), s.refreshes[k]? = some r → r.timer = false := by
    intro k r hk
    by_contra ht
    have hp := (h.armed k r hk (by simpa using ht)).1
    rw [hnone] at hp
    cases hp
  refine ⟨fun k r hk hpc ha => ?_, fun k r hk ht => ?_, fun r hr hpc => ?_, fun r hr ht ha => ?_,
    h.covered, fun hst => ?_⟩
  · rcases getElem?_snoc hk with hk | ⟨rfl, rfl⟩
    · have hrun := (h.running k r hk hpc ha).1
      rw [hnone] at hrun
      cases hrun
    · exact ⟨rfl, rfl, rfl, rfl⟩
  · rcases getElem?_snoc hk with hk | ⟨rfl, rfl⟩
    · rw [hold k r hk] at ht
      cases ht
    · exact ⟨rfl, by simp⟩
  · rcases List.mem_append.mp hr with hr | hr
    · exact h.fetching r hr hpc
    · rw [List.mem_singleton.mp hr] at hpc
      cases hpc
  · rcases List.mem_append.mp hr with hr | hr
    · exact h.waiting r hr ht ha
    · rw [List.mem_singleton.mp hr] at ha
      cases ha
  · exact (h.ready hst).keep rfl rfl rfl rfl (fun n hn => .inl hn)
      fun k r hk => ⟨r, getElem?_append_of_some hk, id, rfl, rfl⟩

theorem inv_waiting (h : Inv s) (waiting : List Nat) : Inv { s with waiting := waiting } :=
  ⟨h.running, h.armed, h.fetching, h.waiting, h.covered, h.ready⟩

/-- The data stays, as stale. -/
theorem inv_stale (h : Inv s) {m : Int} {l : List Int}
    (hcov : ∀ n ∈ l, n ≤ m ∨ ∃ v ∈ s.state.revision, n ≤ v) :
    Inv { s with state := s.withStatus .stale, minimumRevision := m, invalidations := l } :=
  ⟨h.running, h.armed, h.fetching, fun _ _ _ _ => rfl, hcov, fun hst => by cases hst⟩

theorem inv_invalidation (h : Inv s) (nextRevision : Int) :
    Inv (handleInvalidation s nextRevision) := by
  unfold handleInvalidation
  split
  · exact h
  dsimp only
  split
  · rename_i hshown
    refine ⟨h.running, h.armed, h.fetching, h.waiting,
      List.forall_mem_cons.mpr ⟨.inr hshown, h.covered⟩, fun hst => ?_⟩
    refine (h.ready hst).keep rfl rfl rfl rfl (fun n hn => ?_)
      fun k r hk => ⟨r, hk, id, rfl, rfl⟩
    rcases List.mem_cons.mp hn with rfl | hn
    · exact .inr hshown
    · exact .inl hn
  · refine inv_refresh (inv_stale (s := s) h ?_) _
    intro n hn
    rcases List.mem_cons.mp hn with rfl | hn
    · exact .inl (Int.le_max_right _ _)
    · rcases h.covered n hn with hle | hv
      · exact .inl (Int.le_trans hle (Int.le_max_left _ _))
      · exact .inr hv

/-- The refresh in flight is aborted, and nothing is left of the state. -/
theorem inv_aborted (h : Inv s) (now : Int) (waiting : List Nat) :
    Inv { s with
      minimumRevision := 0
      state := cleared now .stale
      refreshes := abort s
      epoch := s.epoch + 1
      invalidations := []
      waiting := waiting } := by
  have habort : ∀ {k : Nat} {r : Refresh α}, (abort s)[k]? = some r → ∃ q, s.refreshes[k]? = some q ∧
      (r = q ∧ s.refreshController ≠ some k ∨ r = { q with aborted := true }) := by
    intro k r hk
    unfold abort at hk
    split at hk
    · rename_i c hc
      rw [List.getElem?_modify] at hk
      obtain ⟨q, hq, heq⟩ := Option.map_eq_some_iff.mp hk
      split at heq
      · exact ⟨q, hq, .inr heq.symm⟩
      · rename_i hne
        refine ⟨q, hq, .inl ⟨heq.symm, ?_⟩⟩
        intro he
        rw [hc] at he
        exact hne (Option.some.inj he)
    · rename_i hc
      refine ⟨r, hk, .inl ⟨rfl, ?_⟩⟩
      rw [hc]
      intro he
      cases he
  refine ⟨fun k r hk hpc ha => ?_, fun k r hk ht => ?_, fun r hr hpc => ?_, fun _ _ _ _ => rfl,
    fun n hn => (by cases hn), fun hst => (by cases hst)⟩
  · obtain ⟨q, hq, ⟨rfl, hne⟩ | rfl⟩ := habort hk
    · exact absurd (h.running k r hq hpc ha).2.1 hne
    · cases ha
  · obtain ⟨q, hq, ⟨rfl, -⟩ | rfl⟩ := habort hk
    · exact h.armed k r hq ht
    · exact h.armed k q hq ht
  · obtain ⟨k, hlt, hget⟩ := List.getElem_of_mem hr
    have hk : (abort s)[k]? = some r := by
      rw [List.getElem?_eq_getElem hlt, hget]
    obtain ⟨q, hq, ⟨rfl, -⟩ | rfl⟩ := habort hk
    · exact h.fetching r (List.mem_of_getElem? hq) hpc
    · exact h.fetching q (List.mem_of_getElem? hq) hpc

theorem inv_authorizationInvalidation (h : Inv s) (now : Int) :
    Inv (handleAuthorizationInvalidation s now) := by
  unfold handleAuthorizationInvalidation
  dsimp only
  split
  · exact inv_aborted h now _
  · exact inv_refresh (inv_aborted h now s.waiting) _

/-! ### Refreshes that go on -/

/-- A refresh that ends, or is timed out; it writes the state only when it is the one in flight. -/
theorem inv_write (h : Inv s) {k : Nat} {r' : Refresh α} {state : SourceConvergenceState α}
    {m : Int} {l : List Int} {source : Option Nat}
    (ht : r'.timer = false) (hend : r'.pc = .done ∨ r'.aborted = true)
    (hfetch : r'.pc = .fetching → r'.authorized = true)
    (hwrite : s.refreshPromise = some k ∨ state = s.state)
    (hcov : ∀ n ∈ l, n ≤ m ∨ ∃ v ∈ state.revision, n ≤ v)
    (hready : state.status = .ready → Current { s with
      state := state, minimumRevision := m, invalidations := l, source := source
      refreshes := s.refreshes.set k r' }) :
    Inv { s with
      state := state, minimumRevision := m, invalidations := l, source := source
      refreshes := s.refreshes.set k r' } := by
  refine ⟨fun j q hj hpc ha => ?_, fun j q hj htq => ?_, fun q hq hpc => ?_, fun q hq htq ha => ?_,
    hcov, hready⟩
  · rcases getElem?_set_cases hj with ⟨-, hj⟩ | ⟨-, rfl⟩
    · exact h.running j q hj hpc ha
    · rcases hend with hdone | habort
      · exact absurd hdone hpc
      · rw [habort] at ha
        cases ha
  · rcases getElem?_set_cases hj with ⟨-, hj⟩ | ⟨-, rfl⟩
    · exact h.armed j q hj htq
    · rw [ht] at htq
      cases htq
  · rcases List.mem_or_eq_of_mem_set hq with hq | rfl
    · exact h.fetching q hq hpc
    · exact hfetch hpc
  · obtain ⟨j, hlt, hget⟩ := List.getElem_of_mem hq
    have hj : (s.refreshes.set k r')[j]? = some q := by
      rw [List.getElem?_eq_getElem hlt, hget]
    rcases getElem?_set_cases hj with ⟨hne, hj⟩ | ⟨-, rfl⟩
    · rcases hwrite with hcur | hst
      · have harmed := (h.armed j q hj htq).1
        rw [hcur] at harmed
        exact absurd (Option.some.inj harmed).symm hne
      · show state.status = .stale
        rw [hst]
        exact h.waiting q (List.mem_of_getElem? hj) htq ha
    · rw [ht] at htq
      cases htq

/-- A refresh that returns without writing. -/
theorem inv_returned (h : Inv s) {k : Nat} {r : Refresh α} (hk : s.refreshes[k]? = some r) :
    Inv (settle s k r s.state) :=
  inv_write h rfl (.inl rfl) (fun hpc => by cases hpc) (.inr rfl) h.covered fun hst =>
    (h.ready hst).keep rfl rfl rfl rfl (fun _ hn => .inl hn) (keep_set hk id rfl rfl)

theorem inv_authorizeAnswers (h : Inv s) {k : Nat} {r : Refresh α} (hk : s.refreshes[k]? = some r)
    (hpc : r.pc = .authorizing) (answer : Option Bool) (now : Int) :
    Inv (authorizeAnswers s k r answer now) := by
  unfold authorizeAnswers
  split
  · exact inv_returned h hk
  rename_i ha
  have ha' : r.aborted = false := by simpa using ha
  have hrun := h.running k r hk (by rw [hpc]; simp) ha'
  split
  · exact inv_write h rfl (.inl rfl) (fun hpc => by cases hpc) (.inl hrun.1)
      (fun n hn => by cases hn) fun hst => by cases hst
  · exact inv_write h rfl (.inl rfl) (fun hpc => by cases hpc) (.inl hrun.1)
      (fun n hn => by cases hn) fun hst => by cases hst
  · refine ⟨fun j q hj hq haq => ?_, fun j q hj htq => ?_, fun q hq hpcq => ?_,
      fun q hq htq haq => ?_, h.covered, fun hst => (h.ready hst).keep rfl rfl rfl rfl
        (fun _ hn => .inl hn) (keep_set hk (fun _ => rfl) rfl rfl)⟩
    · rcases getElem?_set_cases hj with ⟨-, hj⟩ | ⟨rfl, rfl⟩
      · exact h.running j q hj hq haq
      · exact hrun
    · rcases getElem?_set_cases hj with ⟨-, hj⟩ | ⟨rfl, rfl⟩
      · exact h.armed j q hj htq
      · exact ⟨hrun.1, by simp⟩
    · rcases List.mem_or_eq_of_mem_set hq with hq | rfl
      · exact h.fetching q hq hpcq
      · rfl
    · rcases List.mem_or_eq_of_mem_set hq with hq | rfl
      · exact h.waiting q hq htq haq
      · rw [ha'] at haq
        cases haq

theorem inv_fetchAnswers (h : Inv s) {k : Nat} {r : Refresh α} (hk : s.refreshes[k]? = some r)
    (hpc : r.pc = .fetching) (answer : Option (AuthoritativeSourceSnapshot α)) (now : Int) :
    Inv (fetchAnswers s k r answer now) := by
  unfold fetchAnswers
  split
  · exact inv_returned h hk
  rename_i ha
  have hrun := h.running k r hk (by rw [hpc]; simp) (by simpa using ha)
  have herror : Inv (settle s k r (s.withStatus .error)) :=
    inv_write h rfl (.inl rfl) (fun hpc => by cases hpc) (.inl hrun.1) h.covered
      fun hst => by cases hst
  split
  · exact herror
  rename_i snapshot
  split
  · exact herror
  split
  · exact herror
  rename_i hshown
  -- what was shown is not above the snapshot
  have hle : ∀ v ∈ s.state.revision, v ≤ snapshot.revision := by
    intro v hv
    by_contra hlt
    exact hshown ⟨v, hv, by omega⟩
  have hall : ∀ n ∈ s.invalidations, n ≤ s.minimumRevision ∨ n ≤ snapshot.revision := by
    intro n hn
    rcases h.covered n hn with hm | ⟨v, hv, hn⟩
    · exact .inl hm
    · exact .inr (Int.le_trans hn (hle v hv))
  by_cases hlow : snapshot.revision < s.minimumRevision
  · simp only [if_pos hlow]
    refine inv_write h rfl (.inl rfl) (fun hpc => by cases hpc) (.inl hrun.1) (fun n hn => ?_)
      fun hst => by cases hst
    rcases hall n hn with hm | hv
    · exact .inl hm
    · exact .inr ⟨snapshot.revision, rfl, hv⟩
  · simp only [if_neg hlow]
    have hcur : ∀ n ∈ s.invalidations, n ≤ snapshot.revision := by
      intro n hn
      have := hall n hn
      omega
    refine inv_write h rfl (.inl rfl) (fun hpc => by cases hpc) (.inl hrun.1)
      (fun n hn => .inr ⟨snapshot.revision, rfl, hcur n hn⟩) fun _ => ?_
    exact ⟨k, _, snapshot, rfl, List.getElem?_set_self (List.getElem?_eq_some_iff.mp hk).1,
      h.fetching r (List.mem_of_getElem? hk) hpc, hrun.2.2.1, rfl, rfl, rfl, hcur⟩

theorem inv_timeout (h : Inv s) {k : Nat} {r : Refresh α} (hk : s.refreshes[k]? = some r)
    (ht : r.timer = true) (now : Int) : Inv (timeout s k r now) :=
  inv_write h rfl (.inr rfl) (h.fetching r (List.mem_of_getElem? hk)) (.inl (h.armed k r hk ht).1)
    (fun n hn => by cases hn) fun hst => by cases hst

theorem inv_release (h : Inv s) {k : Nat} {r : Refresh α} (hp : s.refreshPromise = some k)
    (hk : s.refreshes[k]? = some r) (ht : r.timer = false) : Inv (release s k) := by
  have idle : ∀ (j : Nat) (q : Refresh α), s.refreshes[j]? = some q → q.timer = false := by
    intro j q hj
    by_contra htq
    have harmed := (h.armed j q hj (by simpa using htq)).1
    obtain rfl := Option.some.inj (hp.symm.trans harmed)
    obtain rfl := Option.some.inj (hk.symm.trans hj)
    exact htq (by simpa using ht)
  refine ⟨fun j q hj hq haq => ?_, fun j q hj htq => ?_, h.fetching, h.waiting, h.covered,
    fun hst => (h.ready hst).keep rfl rfl rfl rfl (fun _ hn => .inl hn)
      fun j q hj => ⟨q, hj, id, rfl, rfl⟩⟩
  · have hrun := (h.running j q hj hq haq).2.2.2
    rw [idle j q hj] at hrun
    cases hrun
  · rw [idle j q hj] at htq
    cases htq

/-! ## Steps -/

theorem inv_step (h : Inv s) (hs : step d s ev = some s') : Inv s' := by
  cases ev with
  | initial =>
    obtain rfl := Option.some.inj hs
    exact inv_refresh h _
  | invalidation nextRevision =>
    obtain rfl := Option.some.inj hs
    exact inv_invalidation h nextRevision
  | authorizationInvalidation now =>
    obtain rfl := Option.some.inj hs
    exact inv_authorizationInvalidation h now
  | reconnect =>
    obtain rfl := Option.some.inj hs
    exact inv_refresh (inv_stale h h.covered) _
  | windowFocus now =>
    obtain rfl := Option.some.inj hs
    unfold handleWindowFocus
    split
    · exact h
    · exact inv_refresh h _
  | periodicTick now =>
    obtain rfl := Option.some.inj hs
    unfold handlePeriodicTick
    split
    · exact h
    · exact inv_refresh h _
  | authorized k answer now =>
    simp only [step] at hs
    split at hs
    · rename_i r hk
      split at hs
      · rename_i hpc
        obtain rfl := Option.some.inj hs
        exact inv_authorizeAnswers h hk hpc answer now
      · cases hs
    · cases hs
  | fetched k answer now =>
    simp only [step] at hs
    split at hs
    · rename_i r hk
      split at hs
      · rename_i hpc
        obtain rfl := Option.some.inj hs
        exact inv_fetchAnswers h hk hpc answer now
      · cases hs
    · cases hs
  | timer k now =>
    simp only [step] at hs
    split at hs
    · rename_i r hk
      split at hs
      · rename_i ht
        obtain rfl := Option.some.inj hs
        exact inv_timeout h hk ht now
      · cases hs
    · cases hs
  | release =>
    simp only [step] at hs
    split at hs
    · rename_i k hp
      split at hs
      · rename_i r hk
        split at hs
        · cases hs
        · rename_i ht
          obtain rfl := Option.some.inj hs
          exact inv_release h hp hk (by simpa using ht)
      · cases hs
    · cases hs
  | resume j =>
    simp only [step] at hs
    split at hs
    · split at hs
      · cases hs
      · obtain rfl := Option.some.inj hs
        exact inv_refresh (inv_waiting h _) _
    · cases hs

@[simp] theorem refresh_state (reason : SourceConvergenceReason) :
    (refresh s reason).state = s.state := by
  unfold refresh
  split <;> rfl

/-- What a write does to the revision that is shown. -/
def Raised (s s' : St α) : Prop :=
  s'.state.revision = s.state.revision ∨ s'.state.revision = none ∨
    ∃ v', s'.state.revision = some v' ∧ ∀ v ∈ s.state.revision, v ≤ v'

theorem raised_fetchAnswers (k : Nat) (r : Refresh α)
    (answer : Option (AuthoritativeSourceSnapshot α)) (now : Int) :
    Raised s (fetchAnswers s k r answer now) := by
  unfold fetchAnswers
  split
  · exact .inl rfl
  split
  · exact .inl rfl
  rename_i snapshot
  split
  · exact .inl rfl
  split
  · exact .inl rfl
  rename_i hshown
  refine .inr (.inr ⟨snapshot.revision, rfl, fun v hv => ?_⟩)
  by_contra hlt
  exact hshown ⟨v, hv, by omega⟩

theorem raised_step (hs : step d s ev = some s') : Raised s s' := by
  cases ev with
  | initial =>
    obtain rfl := Option.some.inj hs
    exact .inl (by rw [refresh_state])
  | invalidation nextRevision =>
    obtain rfl := Option.some.inj hs
    unfold handleInvalidation
    split
    · exact .inl rfl
    · dsimp only
      split
      · exact .inl rfl
      · exact .inl (by rw [refresh_state]; rfl)
  | authorizationInvalidation now =>
    obtain rfl := Option.some.inj hs
    unfold handleAuthorizationInvalidation
    dsimp only
    split
    · exact .inr (.inl rfl)
    · exact .inr (.inl (by rw [refresh_state]; rfl))
  | reconnect =>
    obtain rfl := Option.some.inj hs
    unfold handleReconnect
    exact .inl (by rw [refresh_state]; rfl)
  | windowFocus now =>
    obtain rfl := Option.some.inj hs
    unfold handleWindowFocus
    split
    · exact .inl rfl
    · exact .inl (by rw [refresh_state])
  | periodicTick now =>
    obtain rfl := Option.some.inj hs
    unfold handlePeriodicTick
    split
    · exact .inl rfl
    · exact .inl (by rw [refresh_state])
  | authorized k answer now =>
    simp only [step] at hs
    split at hs
    · split at hs
      · obtain rfl := Option.some.inj hs
        unfold authorizeAnswers
        split
        · exact .inl rfl
        · split
          · exact .inr (.inl rfl)
          · exact .inr (.inl rfl)
          · exact .inl rfl
      · cases hs
    · cases hs
  | fetched k answer now =>
    simp only [step] at hs
    split at hs
    · split at hs
      · obtain rfl := Option.some.inj hs
        exact raised_fetchAnswers k _ answer now
      · cases hs
    · cases hs
  | timer k now =>
    simp only [step] at hs
    split at hs
    · split at hs
      · obtain rfl := Option.some.inj hs
        exact .inr (.inl rfl)
      · cases hs
    · cases hs
  | release =>
    simp only [step] at hs
    split at hs
    · split at hs
      · split at hs
        · cases hs
        · obtain rfl := Option.some.inj hs
          exact .inl rfl
      · cases hs
    · cases hs
  | resume j =>
    simp only [step] at hs
    split at hs
    · split at hs
      · cases hs
      · obtain rfl := Option.some.inj hs
        exact .inl (by rw [refresh_state])
    · cases hs

/-- Only the refresh in flight writes, unless the timer of an aborted one does. -/
theorem ended_step (h : Inv s) (hs : step d s ev = some s') (hu : Unaborted s ev) {k : Nat}
    {r : Refresh α} (hev : ev.refresh? = some k) (hk : s.refreshes[k]? = some r)
    (hend : r.aborted = true ∨ r.pc = .done ∨ s.refreshPromise ≠ some k) :
    s'.state = s.state := by
  have haborted : r.pc ≠ .done → r.aborted = true := by
    intro hpc
    rcases hend with ha | hdone | hne
    · exact ha
    · exact absurd hdone hpc
    · by_contra ha
      exact hne (h.running k r hk hpc (by simpa using ha)).1
  cases ev with
  | authorized k' answer now =>
    obtain rfl := Option.some.inj hev
    simp only [step, hk] at hs
    split at hs
    · rename_i hpc
      obtain rfl := Option.some.inj hs
      unfold authorizeAnswers
      rw [if_pos (haborted (by rw [hpc]; simp))]
      rfl
    · cases hs
  | fetched k' answer now =>
    obtain rfl := Option.some.inj hev
    simp only [step, hk] at hs
    split at hs
    · rename_i hpc
      obtain rfl := Option.some.inj hs
      unfold fetchAnswers
      rw [if_pos (haborted (by rw [hpc]; simp))]
      rfl
    · cases hs
  | timer k' now =>
    obtain rfl := Option.some.inj hev
    simp only [step, hk] at hs
    split at hs
    · rename_i ht
      have ha := haborted (h.armed _ r hk ht).2
      rw [hu _ now r rfl hk ht] at ha
      cases ha
    · cases hs
  | _ => cases hev

theorem step_fresh (h : Inv s) (hs : step d s ev = some s') (hu : Unaborted s ev) :
    Fresh s ev s' where
  ready := (inv_step h hs).ready
  monotone v hv v' hv' := by
    rcases raised_step hs with heq | hnone | ⟨w, hw, hle⟩
    · rw [heq] at hv'
      obtain rfl := Option.some.inj (hv.symm.trans hv')
      exact Int.le_refl _
    · rw [hnone] at hv'
      cases hv'
    · obtain rfl := Option.some.inj (hw.symm.trans hv')
      exact hle v hv
  ended k r := ended_step h hs hu

end KNex.Runtime.SourceConvergence
