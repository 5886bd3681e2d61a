import KNex.Core.LTS

/-!
# `RuntimeAuthorizationRevisionConsumer`: what becomes the snapshot

`packages/runtime/src/authorization-revision-consumer.ts`. A poll reads the authoritative state,
tests it against the snapshot and the floor, awaits `onAdvance`, and writes the snapshot without
testing again; an invalidation raises the floor at any time. Polls that find one in flight join
it, so at most one observation runs. Everything between two awaits is one step.

Revisions are integers, since `isRevision` rejects every other number. `start`, `stop` and the
timer only decide when `poll` is called. Each state that was read carries the number of its
observation, `failed` holds the observations whose `onAdvance` failed, and `accepted` the
invalidations that `invalidate` has answered with `true`; all three are history.

`Fresh` says of one step what the consumer is for. An invalidation accepted while `onAdvance` is
pending lets a state below it become the snapshot (`overtaken`); the guarantees hold in exactly
the runs in which each completed `onAdvance` finds its state still at the floor (`fresh_iff`).
-/
namespace KNex.Runtime.RevisionConsumer

open KNex.Core

/-! ## Data -/

inductive InvalidationScope where
  | application | environment
  deriving DecidableEq, Repr

/-- mirrors packages/runtime/src/authorization-revision-consumer.ts:1-7 -/
structure AuthorizationRevisionInvalidation where
  applicationId : String
  environment : String
  scope : InvalidationScope
  authorizationRevision : Int
  lifecycleRevision : Int
  deriving DecidableEq, Repr

/-- mirrors packages/runtime/src/authorization-revision-consumer.ts:9-14 -/
structure AuthorizationRevisionState where
  applicationId : String
  environment : String
  authorizationRevision : Int
  lifecycleRevision : Int
  deriving DecidableEq, Repr

def maxSafeInteger : Int := 9007199254740991

/-- mirrors packages/runtime/src/authorization-revision-consumer.ts:137-140 -/
def isRevision (authorizationRevision lifecycleRevision : Int) : Bool :=
  decide (0 ≤ authorizationRevision ∧ authorizationRevision ≤ maxSafeInteger) &&
    decide (0 ≤ lifecycleRevision ∧ lifecycleRevision ≤ maxSafeInteger)

/-- At or above in both components. -/
def Above (authorizationRevision lifecycleRevision : Int) (value : AuthorizationRevisionState) :
    Prop :=
  authorizationRevision ≤ value.authorizationRevision ∧ lifecycleRevision ≤ value.lifecycleRevision

instance (a l : Int) (value : AuthorizationRevisionState) : Decidable (Above a l value) :=
  inferInstanceAs (Decidable (_ ∧ _))

/-- mirrors packages/runtime/src/authorization-revision-consumer.ts:142-147 -/
def isAtLeast (value : AuthorizationRevisionState) (minimum : Option AuthorizationRevisionState) :
    Prop :=
  ∀ m ∈ minimum, Above m.authorizationRevision m.lifecycleRevision value

instance (value : AuthorizationRevisionState) (minimum : Option AuthorizationRevisionState) :
    Decidable (isAtLeast value minimum) :=
  inferInstanceAs (Decidable (∀ m ∈ minimum, _))

/-- mirrors packages/runtime/src/authorization-revision-consumer.ts:149-154 -/
def sameRevision (left : Option AuthorizationRevisionState) (right : AuthorizationRevisionState) :
    Prop :=
  ∃ l ∈ left, l.authorizationRevision = right.authorizationRevision ∧
    l.lifecycleRevision = right.lifecycleRevision

instance (left : Option AuthorizationRevisionState) (right : AuthorizationRevisionState) :
    Decidable (sameRevision left right) :=
  inferInstanceAs (Decidable (∃ l ∈ left, _))

/-- A state, and the observation that has read it. -/
structure Observed where
  state : AuthorizationRevisionState
  observation : Nat
  deriving DecidableEq, Repr

inductive Polling where
  | idle
  /-- `await source.readState(…)` -/
  | reading
  /-- `await onAdvance(next)` -/
  | advancing (next : Observed)
  /-- the observation has ended, and `poll` has not yet cleared `polling` -/
  | settled
  deriving DecidableEq, Repr

structure Consumer where
  applicationId : String
  environment : String

structure St where
  current : Option Observed
  minimum : Option AuthorizationRevisionState
  polling : Polling
  observations : Nat
  failed : List Nat
  accepted : List AuthorizationRevisionInvalidation

def init : St := ⟨none, none, .idle, 0, [], []⟩

/-! ## Steps -/

/-- mirrors packages/runtime/src/authorization-revision-consumer.ts:119-122 -/
def Consumer.ownsInvalidation (c : Consumer) (value : AuthorizationRevisionInvalidation) : Bool :=
  decide (value.applicationId = c.applicationId) &&
    (decide (value.scope = .application) || decide (value.environment = c.environment))

/-- mirrors packages/runtime/src/authorization-revision-consumer.ts:115-117 -/
def Consumer.ownsState (c : Consumer) (value : AuthorizationRevisionState) : Bool :=
  decide (value.applicationId = c.applicationId) && decide (value.environment = c.environment)

/-- `this.minimum ?? this.current` -/
def St.base (s : St) : Option AuthorizationRevisionState := s.minimum <|> s.current.map (·.state)

/-- The floor after an invalidation. -/
def Consumer.raised (c : Consumer) (base : Option AuthorizationRevisionState)
    (invalidation : AuthorizationRevisionInvalidation) : AuthorizationRevisionState where
  applicationId := c.applicationId
  environment := c.environment
  authorizationRevision :=
    max ((base.map (·.authorizationRevision)).getD 0) invalidation.authorizationRevision
  lifecycleRevision := max ((base.map (·.lifecycleRevision)).getD 0) invalidation.lifecycleRevision

/-- The answer, and the state after it.
mirrors packages/runtime/src/authorization-revision-consumer.ts:59-72 -/
def invalidate (c : Consumer) (s : St) (invalidation : AuthorizationRevisionInvalidation) :
    Bool × St :=
  if c.ownsInvalidation invalidation = false ∨
      isRevision invalidation.authorizationRevision invalidation.lifecycleRevision = false then
    (false, s)
  else
    let next := c.raised s.base invalidation
    if sameRevision s.base next then (false, s)
    else (true, { s with minimum := some next, accepted := invalidation :: s.accepted })

/-- `this.current = next`, and the floor it satisfies. -/
def adopt (s : St) (next : Observed) : St :=
  { s with
    current := some next
    minimum := if isAtLeast next.state s.minimum then none else s.minimum
    polling := .settled }

/-- The observation after its read.
mirrors packages/runtime/src/authorization-revision-consumer.ts:104-113 -/
def read (c : Consumer) (s : St) (state : Option AuthorizationRevisionState) : St :=
  match state with
  | none => { s with polling := .settled }
  | some state =>
    if c.ownsState state = false ∨
        isRevision state.authorizationRevision state.lifecycleRevision = false ∨
        ¬ isAtLeast state (s.current.map (·.state)) ∨ ¬ isAtLeast state s.minimum then
      { s with polling := .settled }
    else
      let next : Observed := ⟨state, s.observations⟩
      let s := { s with observations := s.observations + 1 }
      if sameRevision (s.current.map (·.state)) state then adopt s next
      else { s with polling := .advancing next }

inductive Ev where
  | invalidate (invalidation : AuthorizationRevisionInvalidation)
  /-- a call of `poll`; it starts an observation or joins the one in flight -/
  | poll
  /-- `readState` resolves -/
  | read (state : Option AuthorizationRevisionState)
  /-- `readState` rejects -/
  | readFails
  /-- `onAdvance` resolves, or there is none -/
  | advanced
  /-- `onAdvance` throws or rejects -/
  | advanceFails
  /-- the `finally` of `poll` -/
  | release
  deriving DecidableEq, Repr

def step (c : Consumer) (s : St) (ev : Ev) : Option St :=
  match ev, s.polling with
  | .invalidate invalidation, _ => some (invalidate c s invalidation).2
  | .poll, .idle => some { s with polling := .reading }
  | .poll, _ => some s
  | .read state, .reading => some (read c s state)
  | .readFails, .reading => some { s with polling := .settled }
  | .advanced, .advancing next => some (adopt s next)
  | .advanceFails, .advancing next =>
    some { s with polling := .settled, failed := next.observation :: s.failed }
  | .release, .settled => some { s with polling := .idle }
  | _, _ => none

def lts (c : Consumer) : LTS St Ev := .ofFn (· = init) (step c)

/-! ## What the consumer is for -/

/-- `snapshot()` -/
def St.snapshot (s : St) : Option AuthorizationRevisionState := s.current.map (·.state)

/-- The guarantees of one step. -/
structure Fresh (s s' : St) : Prop where
  monotone : ∀ state ∈ s.snapshot, ∃ state' ∈ s'.snapshot,
    Above state.authorizationRevision state.lifecycleRevision state'
  floored : s'.snapshot ≠ s.snapshot → ∀ state' ∈ s'.snapshot, ∀ i ∈ s.accepted,
    Above i.authorizationRevision i.lifecycleRevision state'
  released : ∀ m ∈ s.minimum, s'.minimum = none → ∃ next ∈ s'.current,
    s'.current ≠ s.current ∧ Above m.authorizationRevision m.lifecycleRevision next.state
  advanced : ∀ next ∈ s'.current, next.observation ∉ s'.failed

/-- A completed `onAdvance` finds its state at the floor. -/
def AtFloor (s : St) (ev : Ev) : Prop :=
  ∀ next, ev = .advanced → s.polling = .advancing next → isAtLeast next.state s.minimum

/-! ## The invariant -/

/-- A component of the floor is no higher than the invalidations and the snapshot make it. -/
def Tight (s : St) (f : AuthorizationRevisionState → Int)
    (g : AuthorizationRevisionInvalidation → Int) : Prop :=
  ∀ m ∈ s.minimum, (∃ i ∈ s.accepted, f m ≤ g i) ∨ ∃ state ∈ s.snapshot, f m ≤ f state

/-- The floor, or else the snapshot, is above every accepted invalidation; what waits for
`onAdvance` would advance the snapshot. -/
structure Inv (s : St) : Prop where
  covered : ∀ i ∈ s.accepted, ∃ f ∈ s.base, Above i.authorizationRevision i.lifecycleRevision f
  authorizationTight : Tight s (·.authorizationRevision) (·.authorizationRevision)
  lifecycleTight : Tight s (·.lifecycleRevision) (·.lifecycleRevision)
  advancing : ∀ next, s.polling = .advancing next → isAtLeast next.state s.snapshot ∧
    ¬ sameRevision s.snapshot next.state ∧ next.observation < s.observations ∧
    next.observation ∉ s.failed ∧ ∀ cur ∈ s.current, cur.observation ≠ next.observation
  failed : ∀ o ∈ s.failed, o < s.observations
  current : ∀ cur ∈ s.current, cur.observation < s.observations ∧ cur.observation ∉ s.failed

theorem inv_init : Inv init where
  covered i hi := by cases hi
  authorizationTight m hm := by cases hm
  lifecycleTight m hm := by cases hm
  advancing next h := by cases h
  failed o ho := by cases ho
  current cur hc := by cases hc

variable {c : Consumer} {s s' : St} {ev : Ev}

/-- A step that writes neither revisions nor history, and has nothing to adopt afterwards. -/
theorem inv_polling (h : Inv s) {polling : Polling} (hp : ∀ next, polling ≠ .advancing next) :
    Inv { s with polling := polling } :=
  ⟨h.covered, h.authorizationTight, h.lifecycleTight, fun next hn => absurd hn (hp next),
    h.failed, h.current⟩

theorem isAtLeast_some {value m : AuthorizationRevisionState} :
    isAtLeast value (some m) ↔ Above m.authorizationRevision m.lifecycleRevision value := by
  unfold isAtLeast
  constructor
  · intro h
    exact h m rfl
  · intro h m' hm
    cases hm
    exact h

theorem isAtLeast_none {value : AuthorizationRevisionState} : isAtLeast value none :=
  fun m hm => by cases hm

theorem base_some {m : AuthorizationRevisionState} (h : s.minimum = some m) : s.base = some m := by
  unfold St.base
  rw [h]
  rfl

theorem base_none (h : s.minimum = none) : s.base = s.snapshot := by
  unfold St.base
  rw [h]
  rfl

theorem Above.trans {a l : Int} {value value' : AuthorizationRevisionState} (h : Above a l value)
    (h' : Above value.authorizationRevision value.lifecycleRevision value') :
    Above a l value' := by
  unfold Above at h h' ⊢
  omega

/-! ### Invalidations -/

/-- Each component of a raised floor is that of the invalidation or of the floor's base. -/
theorem tight_raise {f : AuthorizationRevisionState → Int}
    {g : AuthorizationRevisionInvalidation → Int} {i : AuthorizationRevisionInvalidation}
    {next : AuthorizationRevisionState} (h : Tight s f g) (hpos : 0 ≤ g i)
    (hnext : f next = max ((s.base.map f).getD 0) (g i)) :
    Tight { s with minimum := some next, accepted := i :: s.accepted } f g := by
  intro m hm
  obtain rfl := Option.some.inj hm
  by_cases hle : (s.base.map f).getD 0 ≤ g i
  · exact .inl ⟨i, List.mem_cons_self, by omega⟩
  cases hmin : s.minimum with
  | some m =>
    rw [base_some hmin, Option.map_some, Option.getD_some] at hnext hle
    rcases h m hmin with ⟨j, hj, hj'⟩ | ⟨state, hst, hst'⟩
    · exact .inl ⟨j, List.mem_cons_of_mem _ hj, by omega⟩
    · exact .inr ⟨state, hst, by omega⟩
  | none =>
    rw [base_none hmin] at hnext hle
    cases hcur : s.snapshot with
    | none =>
      rw [hcur, Option.map_none, Option.getD_none] at hle
      omega
    | some state =>
      rw [hcur, Option.map_some, Option.getD_some] at hnext hle
      exact .inr ⟨state, hcur, by omega⟩

theorem inv_invalidate (h : Inv s) (i : AuthorizationRevisionInvalidation) :
    Inv (invalidate c s i).2 := by
  unfold invalidate
  split
  · exact h
  rename_i hok
  have hrev : isRevision i.authorizationRevision i.lifecycleRevision = true := by
    simpa using (not_or.mp hok).2
  simp only [isRevision, Bool.and_eq_true, decide_eq_true_eq] at hrev
  dsimp only
  split
  · exact h
  have hbase : ∀ f ∈ s.base, Above f.authorizationRevision f.lifecycleRevision
      (c.raised s.base i) := by
    intro f hf
    have hb : s.base = some f := hf
    simp only [Above, Consumer.raised, hb, Option.map_some, Option.getD_some]
    omega
  have htop : Above i.authorizationRevision i.lifecycleRevision (c.raised s.base i) := by
    simp only [Above, Consumer.raised]
    omega
  refine ⟨?_, tight_raise h.authorizationTight hrev.1.1 rfl,
    tight_raise h.lifecycleTight hrev.2.1 rfl, h.advancing, h.failed, h.current⟩
  intro j hj
  refine ⟨c.raised s.base i, rfl, ?_⟩
  rcases List.mem_cons.mp hj with rfl | hj
  · exact htop
  · obtain ⟨f, hf, hle⟩ := h.covered j hj
    exact hle.trans (hbase f hf)

theorem fresh_invalidate (h : Inv s) (i : AuthorizationRevisionInvalidation) :
    Fresh s (invalidate c s i).2 := by
  have hcur : (invalidate c s i).2.current = s.current ∧
      (invalidate c s i).2.failed = s.failed := by
    unfold invalidate
    split
    · exact ⟨rfl, rfl⟩
    · dsimp only
      split <;> exact ⟨rfl, rfl⟩
  have hsnap : (invalidate c s i).2.snapshot = s.snapshot := by
    unfold St.snapshot
    rw [hcur.1]
  refine ⟨fun state hst => ⟨state, hsnap ▸ hst, Int.le_refl _, Int.le_refl _⟩,
    fun hne => absurd hsnap hne, fun m hm hnone => ?_, fun next hn => ?_⟩
  · unfold invalidate at hnone
    split at hnone
    · rw [hm] at hnone
      cases hnone
    · dsimp only at hnone
      split at hnone
      · rw [hm] at hnone
        cases hnone
      · cases hnone
  · rw [hcur.1] at hn
    rw [hcur.2]
    exact (h.current next hn).2

/-! ### A new snapshot -/

/-- What makes a state fit to become the snapshot. -/
structure Fit (s : St) (next : Observed) : Prop where
  current : isAtLeast next.state s.snapshot
  floor : isAtLeast next.state s.minimum
  known : next.observation < s.observations
  new : ∀ cur ∈ s.current, cur.observation ≠ next.observation
  succeeded : next.observation ∉ s.failed

theorem above_accepted (h : Inv s) {next : Observed} (hf : Fit s next) :
    ∀ i ∈ s.accepted, Above i.authorizationRevision i.lifecycleRevision next.state := by
  intro i hi
  obtain ⟨f, hb, hle⟩ := h.covered i hi
  cases hmin : s.minimum with
  | some m =>
    obtain rfl := Option.some.inj ((base_some hmin).symm.trans hb)
    exact hle.trans (hf.floor m hmin)
  | none => exact hle.trans (hf.current f (base_none hmin ▸ hb))

theorem inv_adopt (h : Inv s) {next : Observed} (hf : Fit s next) : Inv (adopt s next) := by
  have hmin : (adopt s next).minimum = none := by
    unfold adopt
    rw [if_pos hf.floor]
  refine ⟨fun i hi => ⟨next.state, ?_, above_accepted h hf i hi⟩, fun m hm => ?_, fun m hm => ?_,
    fun n hn => (by cases hn), h.failed, fun cur hc => ?_⟩
  · unfold St.base
    rw [hmin]
    rfl
  · rw [hmin] at hm
    cases hm
  · rw [hmin] at hm
    cases hm
  · obtain rfl := Option.some.inj hc
    exact ⟨hf.known, hf.succeeded⟩

theorem fresh_adopt (h : Inv s) {next : Observed} (hf : Fit s next) : Fresh s (adopt s next) where
  monotone state hst := ⟨next.state, rfl, hf.current state hst⟩
  floored _ state' hst' := by
    obtain rfl := Option.some.inj hst'
    exact above_accepted h hf
  released m hm _ := by
    refine ⟨next, rfl, fun heq => ?_, hf.floor m hm⟩
    exact hf.new next heq.symm rfl
  advanced n hn := by
    obtain rfl := Option.some.inj hn
    exact hf.succeeded

/-- The floor may have risen above what `onAdvance` was called for. -/
theorem fit_of_advancing (h : Inv s) {next : Observed} (hp : s.polling = .advancing next)
    (hf : isAtLeast next.state s.minimum) : Fit s next := by
  obtain ⟨hcur, -, hlt, hfail, hnew⟩ := h.advancing next hp
  exact ⟨hcur, hf, hlt, hnew, hfail⟩

/-! ### A read -/

/-- The count of observations goes up before a state is tested against the snapshot. -/
def St.observed (s : St) : St := { s with observations := s.observations + 1 }

theorem inv_observed (h : Inv s) (hp : s.polling = .reading) : Inv s.observed where
  covered := h.covered
  authorizationTight := h.authorizationTight
  lifecycleTight := h.lifecycleTight
  advancing next hn := by
    have hn' : s.polling = .advancing next := hn
    rw [hp] at hn'
    cases hn'
  failed o ho := Nat.lt_succ_of_lt (h.failed o ho)
  current cur hc := ⟨Nat.lt_succ_of_lt (h.current cur hc).1, (h.current cur hc).2⟩

/-- A state that passes the tests of a read is fit to become the snapshot. -/
theorem read_cases (h : Inv s) (state : Option AuthorizationRevisionState) :
    read c s state = { s with polling := .settled } ∨ ∃ next, Fit s.observed next ∧
      (read c s state = adopt s.observed next ∨ (¬ sameRevision s.snapshot next.state ∧
        read c s state = { s.observed with polling := .advancing next })) := by
  unfold read
  cases state with
  | none => exact .inl rfl
  | some state =>
    dsimp only
    split
    · exact .inl rfl
    rename_i hok
    simp only [not_or, Decidable.not_not] at hok
    obtain ⟨-, -, hcur, hmin⟩ := hok
    refine .inr ⟨⟨state, s.observations⟩, ?_, ?_⟩
    · refine ⟨hcur, hmin, Nat.lt_succ_self _, fun cur hc => ?_, fun hmem => ?_⟩
      · exact Nat.ne_of_lt (h.current cur hc).1
      · exact Nat.lt_irrefl _ (h.failed _ hmem)
    · split
      · exact .inl rfl
      · rename_i hne
        exact .inr ⟨hne, rfl⟩

theorem inv_read (h : Inv s) (hp : s.polling = .reading)
    (state : Option AuthorizationRevisionState) : Inv (read c s state) := by
  have ho := inv_observed h hp
  rcases read_cases (c := c) h state with heq | ⟨next, hf, heq | ⟨hne, heq⟩⟩
  · rw [heq]
    exact inv_polling h fun next hn => by cases hn
  · rw [heq]
    exact inv_adopt ho hf
  · rw [heq]
    refine ⟨ho.covered, ho.authorizationTight, ho.lifecycleTight, fun n hn => ?_, ho.failed,
      ho.current⟩
    obtain rfl : next = n := by
      simpa using hn
    exact ⟨hf.current, hne, hf.known, hf.succeeded, hf.new⟩

/-! ## Steps -/

/-- A step that leaves the revisions alone. -/
theorem fresh_unchanged (hc : s'.current = s.current) (hm : s'.minimum = s.minimum)
    (hf : ∀ next ∈ s.current, next.observation ∉ s'.failed) : Fresh s s' := by
  have hsnap : s'.snapshot = s.snapshot := by
    unfold St.snapshot
    rw [hc]
  refine ⟨fun state hst => ⟨state, hsnap ▸ hst, Int.le_refl _, Int.le_refl _⟩,
    fun hne => absurd hsnap hne, fun m hmin hnone => ?_, fun next hn => hf next (hc ▸ hn)⟩
  rw [hm, hmin] at hnone
  cases hnone

theorem fresh_polling (h : Inv s) {polling : Polling} : Fresh s { s with polling := polling } :=
  fresh_unchanged rfl rfl fun next hn => (h.current next hn).2

theorem fresh_read (h : Inv s) (hp : s.polling = .reading)
    (state : Option AuthorizationRevisionState) : Fresh s (read c s state) := by
  rcases read_cases (c := c) h state with heq | ⟨next, hf, heq | ⟨-, heq⟩⟩
  · rw [heq]
    exact fresh_polling h
  · rw [heq]
    have ha := fresh_adopt (inv_observed h hp) hf
    exact ⟨ha.monotone, ha.floored, ha.released, ha.advanced⟩
  · rw [heq]
    exact fresh_unchanged rfl rfl fun next hn => (h.current next hn).2

/-- A step keeps the invariant and the guarantees, as long as it adopts nothing below the floor. -/
theorem step_fresh (h : Inv s) (hs : step c s ev = some s') (hc : AtFloor s ev) :
    Inv s' ∧ Fresh s s' := by
  unfold step at hs
  split at hs
  · rename_i i
    obtain rfl := Option.some.inj hs
    exact ⟨inv_invalidate h i, fresh_invalidate h i⟩
  · obtain rfl := Option.some.inj hs
    exact ⟨inv_polling h (fun next hn => by cases hn), fresh_polling h⟩
  · obtain rfl := Option.some.inj hs
    exact ⟨h, fresh_unchanged rfl rfl fun next hn => (h.current next hn).2⟩
  · rename_i state hp
    obtain rfl := Option.some.inj hs
    exact ⟨inv_read h hp state, fresh_read h hp state⟩
  · obtain rfl := Option.some.inj hs
    exact ⟨inv_polling h (fun next hn => by cases hn), fresh_polling h⟩
  · rename_i next hp
    obtain rfl := Option.some.inj hs
    have hf := fit_of_advancing h hp (hc next rfl hp)
    exact ⟨inv_adopt h hf, fresh_adopt h hf⟩
  · rename_i next hp
    obtain rfl := Option.some.inj hs
    obtain ⟨-, -, hlt, -, hnew⟩ := h.advancing next hp
    have hcur : ∀ cur ∈ s.current, cur.observation ∉ next.observation :: s.failed := by
      intro cur hcur hmem
      rcases List.mem_cons.mp hmem with heq | hmem
      · exact hnew cur hcur heq
      · exact (h.current cur hcur).2 hmem
    refine ⟨⟨h.covered, h.authorizationTight, h.lifecycleTight, fun n hn => (by cases hn),
      fun o ho => ?_, fun cur hc => ⟨(h.current cur hc).1, hcur cur hc⟩⟩,
      fresh_unchanged rfl rfl hcur⟩
    rcases List.mem_cons.mp ho with rfl | ho
    · exact hlt
    · exact h.failed o ho
  · obtain rfl := Option.some.inj hs
    exact ⟨inv_polling h (fun next hn => by cases hn), fresh_polling h⟩
  · cases hs

/-- A state that is adopted below the floor is below an accepted invalidation, since it is not
below the snapshot. -/
theorem atFloor_of_fresh (h : Inv s) (hs : step c s ev = some s') (hf : Fresh s s') :
    AtFloor s ev := by
  rintro next rfl hp m hm
  have hs' : s' = adopt s next := by
    simp only [step, hp] at hs
    exact (Option.some.inj hs).symm
  obtain ⟨hcur, hne, -⟩ := h.advancing next hp
  have hsnap : s'.snapshot = some next.state := by
    rw [hs']
    rfl
  have hchanged : s'.snapshot ≠ s.snapshot := by
    intro heq
    refine hne ⟨next.state, ?_, rfl, rfl⟩
    rw [← heq]
    exact hsnap
  have habove := hf.floored hchanged next.state hsnap
  refine ⟨?_, ?_⟩
  · rcases h.authorizationTight m hm with ⟨i, hi, hle⟩ | ⟨state, hst, hle⟩
    · exact Int.le_trans hle (habove i hi).1
    · exact Int.le_trans hle (hcur state hst).1
  · rcases h.lifecycleTight m hm with ⟨i, hi, hle⟩ | ⟨state, hst, hle⟩
    · exact Int.le_trans hle (habove i hi).2
    · exact Int.le_trans hle (hcur state hst).2

/-! ## Headline properties -/

/-- **The snapshot.** A run keeps the guarantees of the consumer at every step exactly when each
completed `onAdvance` finds its state still at or above the floor. -/
theorem fresh_iff (c : Consumer) (ls : List Ev) (s : St) :
    ((lts c).guard fun s _ s' => Fresh s s').Run init ls s ↔
      ((lts c).guard fun s ev _ => AtFloor s ev).Run init ls s :=
  LTS.guard_run_iff (I := Inv) (fun _ _ _ h hs hc => (step_fresh h hs hc).1)
    (fun _ _ _ h hs => ⟨atFloor_of_fresh h hs, fun hc => (step_fresh h hs hc).2⟩) inv_init

/-! ### An invalidation during `onAdvance` -/

def consumerEx : Consumer := ⟨"app-1", "production"⟩

def stateEx : AuthorizationRevisionState := ⟨"app-1", "production", 1, 1⟩

def invalidationEx : AuthorizationRevisionInvalidation := ⟨"app-1", "production", .application, 2, 2⟩

/-- The invalidation is accepted between the test of the state and its adoption. -/
def traceOvertaken : List Ev :=
  [.poll, .read (some stateEx), .invalidate invalidationEx, .advanced]

theorem overtaken : ∃ s s', (lts consumerEx).Reachable s ∧
    (lts consumerEx).step s .advanced s' ∧ s.accepted = [invalidationEx] ∧
    s.snapshot = none ∧ s'.snapshot = some stateEx ∧ ¬ Fresh s s' := by
  have hrun : LTS.exec (step consumerEx) init (traceOvertaken.take 3) = some _ := rfl
  have hr : (lts consumerEx).Reachable _ :=
    LTS.Reachable.run (.init rfl) (LTS.run_of_exec hrun)
  refine ⟨_, _, hr, rfl, rfl, rfl, rfl, fun hf => ?_⟩
  have habove := hf.floored (by decide) stateEx rfl invalidationEx (by decide)
  revert habove
  decide

end KNex.Runtime.RevisionConsumer
