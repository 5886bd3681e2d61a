import KNex.Contracts.Identity
import KNex.Core.JsMap
import KNex.Core.LTS

/-!
# `WorkspacePageSessionRegistry`: no open session below a watermark

`packages/payload-adapter/src/workspace-page-service.ts:148-204`. The registry files open sessions
under application, environment, page and session id, and keeps for each page and for each
application environment the highest revisions it was told of. Every method runs without a pause, so
it is one step; a call that throws leaves the state as it is.

A session handle is an object of its own: `handles` lists every handle `open` returned, with
whether its signal is aborted and whether its `close` was called. `delivered` is the history of the
calls of `invalidate`. Keys are the texts of `canonicalJson` on arrays of strings, which differ for
different arrays; here they are the arrays.

`close` deletes whatever is filed under the handle's key. A late `close` of an aborted handle so
takes a new session of the same key out of the registry, and no invalidation reaches that session
any more (`late_close`). In a run without such a call the law holds in every state
(`lawful_of_closesOwn`).
-/
namespace KNex.Pages.PageSessions

open KNex.Core KNex.Contracts

/-! ## Data -/

/-- mirrors packages/contracts/src/workspace-page.ts:43 -/
abbrev PageId := {id : String // resourceIdOk id = true}

structure WorkspacePageScope where
  applicationId : String
  environment : String
  deriving DecidableEq, Repr

structure Revisions where
  authorization : Nat
  lifecycle : Nat
  access : Nat
  page : Nat
  deriving DecidableEq, Repr

/-- Each revision at or below the other's. -/
def Revisions.Le (a b : Revisions) : Prop :=
  a.authorization ≤ b.authorization ∧ a.lifecycle ≤ b.lifecycle ∧ a.access ≤ b.access ∧
    a.page ≤ b.page

instance (a b : Revisions) : Decidable (a.Le b) := inferInstanceAs (Decidable (_ ∧ _))

/-- mirrors packages/payload-adapter/src/workspace-page-service.ts:109-115 -/
structure WorkspacePageSessionInvalidation extends WorkspacePageScope where
  pageId : Option PageId
  authorizationRevision : Nat
  lifecycleRevision : Nat
  accessRevision : Option Nat
  pageRevision : Option Nat
  deriving DecidableEq

/-- The revisions that comparisons use. -/
def WorkspacePageSessionInvalidation.revisions (i : WorkspacePageSessionInvalidation) : Revisions :=
  ⟨i.authorizationRevision, i.lifecycleRevision, i.accessRevision.getD 0, i.pageRevision.getD 0⟩

/-- What the key of a session is made of. -/
structure SessionKey extends WorkspacePageScope where
  pageId : PageId
  sessionId : String
  deriving DecidableEq

/-- The input of `open`. -/
structure OpenInput extends SessionKey where
  authorizationRevision : Nat
  lifecycleRevision : Nat
  accessRevision : Option Nat
  pageRevision : Option Nat

def OpenInput.revisions (i : OpenInput) : Revisions :=
  ⟨i.authorizationRevision, i.lifecycleRevision, i.accessRevision.getD 0, i.pageRevision.getD 0⟩

/-- mirrors packages/payload-adapter/src/workspace-page-service.ts:117-125 -/
structure OpenSession where
  owner : SessionKey
  controller : Nat
  revisions : Revisions
  deriving DecidableEq

/-- What a caller of `open` holds. -/
structure Handle where
  key : SessionKey
  revisions : Revisions
  aborted : Bool
  closed : Bool
  deriving DecidableEq

inductive WorkspacePageServiceErrorCode where
  | invalidInput | accessDenied
  deriving DecidableEq, Repr

/-! ## State -/

structure St where
  sessions : JsMap SessionKey OpenSession
  watermarks : JsMap (String × String × String) WorkspacePageSessionInvalidation
  handles : List Handle
  delivered : List WorkspacePageSessionInvalidation

def initial : St := ⟨.empty, .empty, [], []⟩

/-- mirrors packages/payload-adapter/src/workspace-page-service.ts:197-199 -/
def scopeKey (scope : WorkspacePageScope) (pageId : Option PageId) : String × String × String :=
  (scope.applicationId, scope.environment, (pageId.map Subtype.val).getD "*")

/-- mirrors packages/payload-adapter/src/workspace-page-service.ts:187-190 -/
def invalidates (invalidation : WorkspacePageSessionInvalidation) (session : Revisions) : Bool :=
  invalidation.authorizationRevision > session.authorization ||
    invalidation.lifecycleRevision > session.lifecycle ||
    invalidation.accessRevision.getD 0 > session.access ||
    invalidation.pageRevision.getD 0 > session.page

/-- mirrors packages/payload-adapter/src/workspace-page-service.ts:192-195 -/
def newer (left right : WorkspacePageSessionInvalidation) : Bool :=
  left.authorizationRevision > right.authorizationRevision ||
    left.lifecycleRevision > right.lifecycleRevision ||
    left.accessRevision.getD 0 > right.accessRevision.getD 0 ||
    left.pageRevision.getD 0 > right.pageRevision.getD 0

/-- mirrors packages/payload-adapter/src/workspace-page-service.ts:152-163 -/
def openSession (s : St) (input : OpenInput) : Except WorkspacePageServiceErrorCode St :=
  let key := input.toSessionKey
  let stale := fun scope =>
    (s.watermarks.get? scope).any fun watermark => invalidates watermark input.revisions
  if (s.sessions.get? key).isSome then .error .invalidInput
  else if stale (scopeKey key.toWorkspacePageScope (some key.pageId)) ∨
      stale (scopeKey key.toWorkspacePageScope none) then .error .accessDenied
  else .ok { s with
    sessions := s.sessions.set key ⟨key, s.handles.length, input.revisions⟩
    handles := s.handles ++ [⟨key, input.revisions, false, false⟩] }

/-- `if (this.sessions.delete(key)) controller.abort();`
mirrors packages/payload-adapter/src/workspace-page-service.ts:162 -/
def closeHandle (s : St) (n : Nat) (h : Handle) : St :=
  { s with
    sessions := s.sessions.delete h.key
    handles := s.handles.set n { h with
      closed := true
      aborted := h.aborted || (s.sessions.get? h.key).isSome } }

/-- The revisions of two optional fields: absent only when both are. -/
def mergeRevision (input previous : Option Nat) : Option Nat :=
  if input.isNone ∧ previous.isNone then none else some (max (input.getD 0) (previous.getD 0))

/-- mirrors packages/payload-adapter/src/workspace-page-service.ts:169-175 -/
def mergeWatermark (input : WorkspacePageSessionInvalidation)
    (previous : Option WorkspacePageSessionInvalidation) : WorkspacePageSessionInvalidation :=
  { input with
    authorizationRevision := max input.authorizationRevision
      ((previous.map fun p => p.authorizationRevision).getD 0)
    lifecycleRevision := max input.lifecycleRevision
      ((previous.map fun p => p.lifecycleRevision).getD 0)
    accessRevision := mergeRevision input.accessRevision (previous.bind fun p => p.accessRevision)
    pageRevision := mergeRevision input.pageRevision (previous.bind fun p => p.pageRevision) }

/-- The sessions that the loop of `invalidate` deletes and aborts.
mirrors packages/payload-adapter/src/workspace-page-service.ts:179 -/
def hit (input watermark : WorkspacePageSessionInvalidation) (session : OpenSession) : Bool :=
  session.owner.applicationId = input.applicationId ∧
    session.owner.environment = input.environment ∧
    (input.pageId.isNone ∨ input.pageId = some session.owner.pageId) ∧
    invalidates watermark session.revisions

/-- Returns the number of sessions ended.
mirrors packages/payload-adapter/src/workspace-page-service.ts:165-185 -/
def invalidate (s : St) (input : WorkspacePageSessionInvalidation) : St × Nat :=
  let key := scopeKey input.toWorkspacePageScope input.pageId
  let previous := s.watermarks.get? key
  let delivered := s.delivered ++ [input]
  if previous.any fun previous => !newer input previous then ({ s with delivered }, 0)
  else
    let watermark := mergeWatermark input previous
    let ended := s.sessions.filter fun _ session => hit input watermark session
    ({ s with
        watermarks := s.watermarks.set key watermark
        sessions := s.sessions.filter fun _ session => !hit input watermark session
        handles := s.handles.mapIdx fun n h =>
          if ended.entries.any fun e => e.2.controller = n then { h with aborted := true } else h
        delivered }, ended.size)

inductive Ev where
  | «open» (input : OpenInput)
  | close (n : Nat)
  | invalidate (input : WorkspacePageSessionInvalidation)

/-- `none`: there is no such handle to close. -/
def step (s : St) : Ev → Option St
  | .open input =>
    match openSession s input with
    | .ok s' => some s'
    | .error _ => some s
  | .close n => (s.handles[n]?).map (closeHandle s n)
  | .invalidate input => some (invalidate s input).1

def lts : LTS St Ev := .ofFn (· = initial) step

/-! ## The law -/

/-- The invalidation is for the session's page or for its whole application environment. -/
def WorkspacePageSessionInvalidation.Covers (i : WorkspacePageSessionInvalidation)
    (key : SessionKey) : Prop :=
  i.applicationId = key.applicationId ∧ i.environment = key.environment ∧
    ∀ id, i.pageId = some id → id = key.pageId

/-- A live handle is at or above every invalidation delivered for it, and a session below one is
not opened. -/
structure Lawful (s : St) : Prop where
  live : ∀ h ∈ s.handles, h.aborted = false → h.closed = false →
    ∀ i ∈ s.delivered, i.Covers h.key → i.revisions.Le h.revisions
  admits : ∀ input s', openSession s input = .ok s' →
    ∀ i ∈ s.delivered, i.Covers input.toSessionKey → i.revisions.Le input.revisions

/-- A `close` finds its own session or none under its key. -/
def ClosesOwn (s : St) : Ev → St → Prop
  | .close n, _ => ∀ h o, s.handles[n]? = some h → s.sessions.get? h.key = some o →
      o.controller = n
  | _, _ => True

/-! ## Watermarks -/

theorem not_invalidates {i : WorkspacePageSessionInvalidation} {r : Revisions}
    (h : invalidates i r = false) : i.revisions.Le r := by
  simp only [invalidates, Bool.or_eq_false_iff, decide_eq_false_iff_not, Nat.not_lt, gt_iff_lt] at h
  obtain ⟨⟨⟨h1, h2⟩, h3⟩, h4⟩ := h
  exact ⟨h1, h2, h3, h4⟩

theorem not_newer {i w : WorkspacePageSessionInvalidation} (h : newer i w = false) :
    i.revisions.Le w.revisions := by
  simp only [newer, Bool.or_eq_false_iff, decide_eq_false_iff_not, Nat.not_lt, gt_iff_lt] at h
  obtain ⟨⟨⟨h1, h2⟩, h3⟩, h4⟩ := h
  exact ⟨h1, h2, h3, h4⟩

theorem Revisions.Le.trans {a b c : Revisions} (h : a.Le b) (h' : b.Le c) : a.Le c :=
  ⟨Nat.le_trans h.1 h'.1, Nat.le_trans h.2.1 h'.2.1, Nat.le_trans h.2.2.1 h'.2.2.1,
    Nat.le_trans h.2.2.2 h'.2.2.2⟩

theorem getD_mergeRevision (a b : Option Nat) :
    (mergeRevision a b).getD 0 = max (a.getD 0) (b.getD 0) := by
  cases a <;> cases b <;> simp [mergeRevision]

/-- The merged watermark is at or above the input and the previous one. -/
theorem le_mergeWatermark (i : WorkspacePageSessionInvalidation)
    (previous : Option WorkspacePageSessionInvalidation) :
    i.revisions.Le (mergeWatermark i previous).revisions ∧
      ∀ p, previous = some p → p.revisions.Le (mergeWatermark i previous).revisions := by
  refine ⟨⟨?_, ?_, ?_, ?_⟩, ?_⟩
  · exact Nat.le_max_left _ _
  · exact Nat.le_max_left _ _
  · show _ ≤ (mergeRevision i.accessRevision (previous.bind fun p => p.accessRevision)).getD 0
    rw [getD_mergeRevision]
    exact Nat.le_max_left _ _
  · show _ ≤ (mergeRevision i.pageRevision (previous.bind fun p => p.pageRevision)).getD 0
    rw [getD_mergeRevision]
    exact Nat.le_max_left _ _
  · rintro p rfl
    refine ⟨Nat.le_max_right _ _, Nat.le_max_right _ _, ?_, ?_⟩
    · show _ ≤ (mergeRevision i.accessRevision p.accessRevision).getD 0
      rw [getD_mergeRevision]
      exact Nat.le_max_right _ _
    · show _ ≤ (mergeRevision i.pageRevision p.pageRevision).getD 0
      rw [getD_mergeRevision]
      exact Nat.le_max_right _ _

/-- A page id is never the mark of a whole application. -/
theorem PageId.ne_star (id : PageId) : id.val ≠ "*" := by
  intro h
  have hid := id.property
  rw [h] at hid
  exact absurd hid (by decide)

/-- The watermark under `mark` is about the session. -/
def MarkCovers (mark : String × String × String) (key : SessionKey) : Prop :=
  mark = scopeKey key.toWorkspacePageScope (some key.pageId) ∨
    mark = scopeKey key.toWorkspacePageScope none

theorem markCovers_iff {i : WorkspacePageSessionInvalidation} {key : SessionKey} :
    MarkCovers (scopeKey i.toWorkspacePageScope i.pageId) key ↔ i.Covers key := by
  simp only [MarkCovers, scopeKey, WorkspacePageSessionInvalidation.Covers, Prod.mk.injEq]
  cases hp : i.pageId with
  | none =>
    simp only [Option.map_none, Option.getD_none, Option.map_some, Option.getD_some, and_true,
      reduceCtorEq, false_implies, implies_true]
    constructor
    · intro h
      rcases h with ⟨h1, h2, -⟩ | ⟨h1, h2⟩
      · exact ⟨h1, h2⟩
      · exact ⟨h1, h2⟩
    · intro h
      exact .inr h
  | some id =>
    simp only [Option.map_some, Option.getD_some, Option.map_none, Option.getD_none,
      Option.some.injEq, forall_eq', id.ne_star, and_false, or_false, Subtype.val_inj]

/-! ## The invariant -/

structure Inv (s : St) : Prop where
  registered : ∀ n h, s.handles[n]? = some h → h.aborted = false → h.closed = false →
    ∃ o, s.sessions.get? h.key = some o ∧ o.controller = n ∧ o.revisions = h.revisions
  filed : ∀ key o, s.sessions.get? key = some o → o.owner = key
  marked : ∀ key o, s.sessions.get? key = some o → ∀ mark w, s.watermarks.get? mark = some w →
    MarkCovers mark key → w.revisions.Le o.revisions
  delivered : ∀ i ∈ s.delivered, ∃ w,
    s.watermarks.get? (scopeKey i.toWorkspacePageScope i.pageId) = some w ∧
      i.revisions.Le w.revisions

theorem openSession_ok {s s' : St} {input : OpenInput} (h : openSession s input = .ok s') :
    s.sessions.get? input.toSessionKey = none ∧
    (∀ mark w, s.watermarks.get? mark = some w → MarkCovers mark input.toSessionKey →
      w.revisions.Le input.revisions) ∧
    s' = { s with
      sessions := s.sessions.set input.toSessionKey
        ⟨input.toSessionKey, s.handles.length, input.revisions⟩
      handles := s.handles ++ [⟨input.toSessionKey, input.revisions, false, false⟩] } := by
  unfold openSession at h
  dsimp only at h
  split at h
  · cases h
  · rename_i hfree
    split at h
    · cases h
    · rename_i hfresh
      cases h
      refine ⟨Option.not_isSome_iff_eq_none.mp hfree, fun mark w hw hcov => ?_, rfl⟩
      rw [not_or] at hfresh
      apply not_invalidates
      rcases hcov with rfl | rfl
      · simpa [hw] using hfresh.1
      · simpa [hw] using hfresh.2

theorem inv_open {s s' : St} {input : OpenInput} (hI : Inv s) (h : openSession s input = .ok s') :
    Inv s' := by
  obtain ⟨hfree, hfresh, rfl⟩ := openSession_ok h
  refine ⟨fun n h hn ha hc => ?_, fun key o ho => ?_, fun key o ho mark w hw hcov => ?_,
    hI.delivered⟩
  · rw [List.getElem?_append] at hn
    split at hn
    · obtain ⟨o, ho, h'⟩ := hI.registered n h hn ha hc
      refine ⟨o, ?_, h'⟩
      rw [JsMap.get?_set_ne _ _ fun he => ?_, ho]
      rw [he, hfree] at ho
      cases ho
    · rename_i hlen
      rw [List.getElem?_singleton] at hn
      split at hn
      · rename_i hidx
        cases hn
        exact ⟨_, JsMap.get?_set_self _ _ _, by dsimp only; omega, rfl⟩
      · cases hn
  · rw [JsMap.get?_set] at ho
    split at ho
    · rename_i hk
      cases ho
      exact hk.symm
    · exact hI.filed key o ho
  · rw [JsMap.get?_set] at ho
    split at ho
    · rename_i hk
      cases ho
      rw [hk] at hcov
      exact hfresh mark w hw hcov
    · exact hI.marked key o ho mark w hw hcov

theorem inv_close {s : St} {n : Nat} {h : Handle} (hI : Inv s)
    (hown : ∀ o, s.sessions.get? h.key = some o → o.controller = n) : Inv (closeHandle s n h) := by
  have hdel : ∀ key o, (s.sessions.delete h.key).get? key = some o →
      s.sessions.get? key = some o := by
    intro key o ho
    rw [JsMap.get?_delete] at ho
    split at ho
    · cases ho
    · exact ho
  refine ⟨fun m h' hm ha hc => ?_, fun key o ho => hI.filed key o (hdel key o ho),
    fun key o ho => hI.marked key o (hdel key o ho), hI.delivered⟩
  unfold closeHandle at hm
  rw [List.getElem?_set] at hm
  split at hm
  · -- the closed handle itself
    split at hm
    · cases hm
      cases hc
    · cases hm
  · rename_i hne
    obtain ⟨o, ho, hctl, hrev⟩ := hI.registered m h' hm ha hc
    refine ⟨o, ?_, hctl, hrev⟩
    unfold closeHandle
    dsimp only
    rw [JsMap.get?_delete, if_neg, ho]
    intro hk
    rw [hk] at ho
    exact hne ((hown o ho).symm.trans hctl)

theorem inv_invalidate {s : St} {input : WorkspacePageSessionInvalidation} (hI : Inv s) :
    Inv (invalidate s input).1 := by
  unfold invalidate
  dsimp only
  split
  · rename_i hold
    -- an input that brings nothing newer is already covered by its watermark
    refine ⟨hI.registered, hI.filed, hI.marked, fun i hi => ?_⟩
    rcases List.mem_append.mp hi with hi | hi
    · exact hI.delivered i hi
    · rw [List.mem_singleton] at hi
      subst hi
      cases hw : s.watermarks.get? (scopeKey i.toWorkspacePageScope i.pageId) with
      | none =>
        rw [hw] at hold
        cases hold
      | some w =>
        rw [hw] at hold
        exact ⟨w, rfl, not_newer (by simpa using hold)⟩
  · obtain ⟨hin, hprev⟩ := le_mergeWatermark input
      (s.watermarks.get? (scopeKey input.toWorkspacePageScope input.pageId))
    generalize hwdef : mergeWatermark input
      (s.watermarks.get? (scopeKey input.toWorkspacePageScope input.pageId)) = w at hin hprev
    have hkeep : ∀ key o, (s.sessions.filter fun _ o => !hit input w o).get? key = some o →
        s.sessions.get? key = some o ∧ hit input w o = false := by
      intro key o ho
      rw [JsMap.get?_filter, Option.filter_eq_some_iff] at ho
      exact ⟨ho.1, by simpa using ho.2⟩
    refine ⟨fun n h hn ha hc => ?_, fun key o ho => hI.filed key o (hkeep key o ho).1,
      fun key o ho mark w' hw' hcov => ?_, fun i hi => ?_⟩
    · dsimp only at hn
      rw [List.getElem?_mapIdx, Option.map_eq_some_iff] at hn
      obtain ⟨h₀, hn₀, rfl⟩ := hn
      split at ha
      · cases ha
      · rename_i hnot
        rw [if_neg hnot] at hc ⊢
        obtain ⟨o, ho, hctl, hrev⟩ := hI.registered n h₀ hn₀ ha hc
        refine ⟨o, ?_, hctl, hrev⟩
        dsimp only
        rw [JsMap.get?_filter, ho, Option.filter_some, if_pos]
        -- a session that was hit would have aborted this handle
        rw [Bool.not_eq_true']
        rw [← Bool.not_eq_true]
        intro hhit
        apply hnot
        rw [List.any_eq_true]
        refine ⟨(h₀.key, o), ?_, by simpa using hctl⟩
        rw [← JsMap.get?_eq_some, JsMap.get?_filter, ho, Option.filter_some, if_pos hhit]
    · obtain ⟨ho', hnot⟩ := hkeep key o ho
      dsimp only at hw'
      rw [JsMap.get?_set] at hw'
      split at hw'
      · rename_i hmark
        cases hw'
        rw [hmark, markCovers_iff] at hcov
        apply not_invalidates
        rw [← Bool.not_eq_true]
        intro hinv
        rw [← Bool.not_eq_true] at hnot
        apply hnot
        have howner : o.owner = key := hI.filed key o ho'
        simp only [hit, howner, decide_eq_true_eq]
        refine ⟨hcov.1.symm, hcov.2.1.symm, ?_, hinv⟩
        cases hp : input.pageId with
        | none => exact .inl rfl
        | some id => exact .inr (by rw [hcov.2.2 id hp])
      · exact hI.marked key o ho' mark w' hw' hcov
    · dsimp only
      rw [JsMap.get?_set]
      split
      · rename_i hmark
        refine ⟨w, rfl, ?_⟩
        rcases List.mem_append.mp hi with hi | hi
        · obtain ⟨w₀, hw₀, hle⟩ := hI.delivered i hi
          rw [hmark] at hw₀
          exact hle.trans (hprev w₀ hw₀)
        · rw [List.mem_singleton] at hi
          rw [hi]
          exact hin
      · rename_i hmark
        rcases List.mem_append.mp hi with hi | hi
        · exact hI.delivered i hi
        · rw [List.mem_singleton] at hi
          rw [hi] at hmark
          exact absurd rfl hmark

theorem inv_step {s s' : St} {e : Ev} (hI : Inv s) (h : step s e = some s')
    (hown : ClosesOwn s e s') : Inv s' := by
  cases e with
  | «open» input =>
    simp only [step] at h
    split at h
    · rename_i s₁ hopen
      cases h
      exact inv_open hI hopen
    · cases h
      exact hI
  | close n =>
    simp only [step, Option.map_eq_some_iff] at h
    obtain ⟨hd, hn, rfl⟩ := h
    exact inv_close hI fun o ho => hown hd o hn ho
  | invalidate input =>
    cases h
    exact inv_invalidate hI

theorem inv_initial : Inv initial := by
  refine ⟨?_, ?_, ?_, ?_⟩ <;> simp [initial]

theorem Inv.lawful {s : St} (hI : Inv s) : Lawful s := by
  refine ⟨fun h hm ha hc i hi hcov => ?_, fun input s' hopen i hi hcov => ?_⟩
  · obtain ⟨n, hn⟩ := List.mem_iff_getElem?.mp hm
    obtain ⟨o, ho, -, hrev⟩ := hI.registered n h hn ha hc
    obtain ⟨w, hw, hle⟩ := hI.delivered i hi
    rw [← hrev]
    exact hle.trans (hI.marked h.key o ho _ w hw (markCovers_iff.mpr hcov))
  · obtain ⟨w, hw, hle⟩ := hI.delivered i hi
    exact hle.trans ((openSession_ok hopen).2.1 _ w hw (markCovers_iff.mpr hcov))

/-- **No open session below a delivered watermark**, in every state of a run in which no `close`
takes another session of the same key out of the registry. -/
theorem lawful_of_closesOwn (ls : List Ev) (s : St) (h : (lts.guard ClosesOwn).Run initial ls s) :
    Lawful s := by
  have hstep : ∀ s e s', Inv s → (lts.guard ClosesOwn).step s e s' → Inv s' :=
    fun _ _ _ hI hs => inv_step hI hs.1 hs.2
  exact (h.preserves hstep inv_initial).lawful

/-! ## A late close -/

def examplePage : PageId := ⟨"pages.home", by decide⟩

/-- The editor session of a page at its first revisions, with the page revision `n`. -/
def exampleOpen (n : Nat) : OpenInput where
  applicationId := "app"
  environment := "production"
  pageId := examplePage
  sessionId := "editor-1"
  authorizationRevision := 1
  lifecycleRevision := 1
  accessRevision := none
  pageRevision := some n

def exampleInvalidation (n : Nat) : WorkspacePageSessionInvalidation where
  applicationId := "app"
  environment := "production"
  pageId := some examplePage
  authorizationRevision := 1
  lifecycleRevision := 1
  accessRevision := none
  pageRevision := some n

theorem lawful_of_closesOwn_example :
    ∃ s, lts.Run initial [.open (exampleOpen 1), .invalidate (exampleInvalidation 2), .close 0,
      .open (exampleOpen 2)] s ∧ Lawful s := by
  refine ⟨_, .cons rfl (.cons rfl (.cons rfl (.cons rfl (.nil _)))),
    lawful_of_closesOwn [.open (exampleOpen 1), .invalidate (exampleInvalidation 2), .close 0,
      .open (exampleOpen 2)] _
      (.cons ⟨rfl, trivial⟩ (.cons ⟨rfl, trivial⟩ (.cons ⟨rfl, ?_⟩ (.cons ⟨rfl, trivial⟩
        (.nil _)))))⟩
  intro h o hn ho
  cases hn
  cases ho

/-- The handle of an aborted session is closed after its key was opened again: the new session
stays open below the invalidation that follows. -/
theorem late_close : ∃ ls s, lts.Run initial ls s ∧ ¬ Lawful s := by
  refine ⟨[.open (exampleOpen 1), .invalidate (exampleInvalidation 2), .open (exampleOpen 2),
    .close 0, .invalidate (exampleInvalidation 3)], _,
    .cons rfl (.cons rfl (.cons rfl (.cons rfl (.cons rfl (.nil _))))), fun h => ?_⟩
  have hlive := h.live ⟨(exampleOpen 2).toSessionKey, (exampleOpen 2).revisions, false, false⟩
    (by decide) rfl rfl (exampleInvalidation 3) (by decide)
    ⟨rfl, rfl, fun id hid => (Option.some.inj hid).symm⟩
  exact absurd hlive.2.2.2 (by decide)

end KNex.Pages.PageSessions
