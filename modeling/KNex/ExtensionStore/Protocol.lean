import KNex.Core.LTS
import KNex.ExtensionStore.Rows
import Mathlib.Logic.Function.Basic

/-!
# The operation protocol

The rows of the store as the workers share them, and the few ways they change. An operation is
admitted under a slot of its scope's budget, is worked on, and finishes once, when it gives the
slot back. An extension changes by a bump of its revision, which takes the next inventory revision
of its scope and records one event. A transaction of the store is a short list of such moves.
-/
namespace KNex.Store

open KNex.Core KNex.Contracts

structure Protocol where
  extension : Identity → Option ExtensionRow
  inventory : Scope → Option Nat
  operations : JsMap String OperationRow
  budget : Scope → Option Budget
  outbox : List OutboxRow

/-- What the database holds of the protocol. -/
def Db.protocol (db : Db) : Protocol :=
  ⟨db.extensions.get?, db.inventoryRevisions.get?, db.operations, db.budgets.get?, db.outbox⟩

inductive Move where
  /-- the rows that a claim inserts before it looks at them -/
  | enroll (i : Identity)
  /-- a claim takes a slot; `maxCount` is the size of a budget it creates -/
  | start (row : OperationRow) (maxCount : Nat)
  | work (before after : OperationRow)
  | finish (before after : OperationRow)
  | bump (before after : ExtensionRow) (event : OutboxRow)

def Budget.take (b : Budget) : Budget := { b with activeCount := b.activeCount + 1 }

def Budget.release (b : Budget) : Budget := { b with activeCount := b.activeCount - 1 }

/-- The columns of an operation that no update names. -/
def OperationRow.Continues (after before : OperationRow) : Prop :=
  after.operationId = before.operationId ∧ after.identity = before.identity ∧
    after.operationKind = before.operationKind ∧ after.expectedRevision = before.expectedRevision

namespace Protocol

def liveCount (p : Protocol) (s : Scope) : Nat :=
  p.operations.count fun _ row => row.identity.scope = s && row.live

def activeCount (p : Protocol) (s : Scope) : Nat := ((p.budget s).map (·.activeCount)).getD 0

/-- The budget of a scope, as a claim finds or creates it. -/
def claimBudget (p : Protocol) (s : Scope) (maxCount : Nat) : Budget :=
  (p.budget s).getD ⟨0, maxCount⟩

def apply (p : Protocol) : Move → Protocol
  | .enroll i => { p with
      extension := Function.update p.extension i (some ((p.extension i).getD ExtensionRow.initial))
      inventory := Function.update p.inventory i.scope (some ((p.inventory i.scope).getD 0)) }
  | .start row maxCount => { p with
      operations := p.operations.set row.operationId row
      budget := Function.update p.budget row.identity.scope
        (some (p.claimBudget row.identity.scope maxCount).take) }
  | .work _ after => { p with operations := p.operations.set after.operationId after }
  | .finish _ after => { p with
      operations := p.operations.set after.operationId after
      budget := Function.update p.budget after.identity.scope
        ((p.budget after.identity.scope).map Budget.release) }
  | .bump _ after event => { p with
      extension := Function.update p.extension event.identity (some after)
      inventory := Function.update p.inventory event.identity.scope (some event.inventoryRevision)
      outbox := p.outbox ++ [event] }

def enabled (p : Protocol) : Move → Prop
  | .enroll _ => True
  | .start row maxCount => row.live ∧ p.operations.get? row.operationId = none ∧
      (∀ id other, p.operations.get? id = some other → other.live →
        other.identity ≠ row.identity) ∧
      (∃ state, p.extension row.identity = some state ∧ state.revision = row.expectedRevision) ∧
      (p.claimBudget row.identity.scope maxCount).activeCount <
        (p.claimBudget row.identity.scope maxCount).maxCount
  | .work before after => p.operations.get? before.operationId = some before ∧ before.live ∧
      after.Continues before ∧ after.live
  | .finish before after => p.operations.get? before.operationId = some before ∧ before.live ∧
      after.Continues before ∧ after.live = false
  | .bump before after event => p.extension event.identity = some before ∧
      after.revision = before.revision + 1 ∧ event.revision = after.revision ∧
      ∃ n, p.inventory event.identity.scope = some n ∧ event.inventoryRevision = n + 1

def system : LTS Protocol Move where
  init p := p = Db.empty.protocol
  step p m p' := p.enabled m ∧ p' = p.apply m

/-! ## The invariant -/

/-- One operation at a time owns an extension, a budget counts the operations that run, an
extension row stands behind each operation, and the events are numbered in order. -/
structure Consistent (p : Protocol) : Prop where
  keyed : ∀ id row, p.operations.get? id = some row → row.operationId = id
  exclusive : ∀ id id' row row', p.operations.get? id = some row →
    p.operations.get? id' = some row' → row.live → row'.live → row.identity = row'.identity →
    id = id'
  counted : ∀ s, p.activeCount s = p.liveCount s
  bounded : ∀ s b, p.budget s = some b → b.activeCount ≤ b.maxCount
  started : ∀ id row, p.operations.get? id = some row →
    ∃ state, p.extension row.identity = some state ∧ row.expectedRevision ≤ state.revision
  inventoried : ∀ i, (p.extension i).isSome → (p.inventory i.scope).isSome
  recorded : ∀ e ∈ p.outbox,
    (∃ state, p.extension e.identity = some state ∧ e.revision ≤ state.revision) ∧
    ∃ n, p.inventory e.identity.scope = some n ∧ e.inventoryRevision ≤ n
  ordered : p.outbox.Pairwise fun e e' =>
    (e.identity = e'.identity → e.revision < e'.revision) ∧
    (e.identity.scope = e'.identity.scope → e.inventoryRevision < e'.inventoryRevision)

theorem consistent_empty : Db.empty.protocol.Consistent where
  keyed id row h := by simp [Db.protocol, Db.empty] at h
  exclusive id id' row row' h := by simp [Db.protocol, Db.empty] at h
  counted s := rfl
  bounded s b h := by simp [Db.protocol, Db.empty] at h
  started id row h := by simp [Db.protocol, Db.empty] at h
  inventoried i h := by simp [Db.protocol, Db.empty] at h
  recorded e h := by simp [Db.protocol, Db.empty] at h
  ordered := List.Pairwise.nil

variable {p p' : Protocol}

theorem consistent_enroll (h : p.Consistent) (i : Identity) :
    (p.apply (.enroll i)).Consistent where
  keyed := h.keyed
  exclusive := h.exclusive
  counted := h.counted
  bounded := h.bounded
  started id row hr := by
    obtain ⟨state, hs, hle⟩ := h.started id row hr
    refine ⟨state, ?_, hle⟩
    simp only [apply, Function.update_apply]
    split
    · rename_i he; rw [← he, hs]; rfl
    · exact hs
  inventoried j hj := by
    simp only [apply, Function.update_apply] at hj ⊢
    split at hj
    · rename_i he; simp [he]
    · have := h.inventoried j hj
      split
      · rfl
      · exact this
  recorded e he := by
    obtain ⟨⟨state, hs, hle⟩, n, hn, hle'⟩ := h.recorded e he
    refine ⟨⟨state, ?_, hle⟩, n, ?_, hle'⟩
    · simp only [apply, Function.update_apply]
      split
      · rename_i hi; rw [← hi, hs]; rfl
      · exact hs
    · simp only [apply, Function.update_apply]
      split
      · rename_i hi; rw [← hi, hn]; rfl
      · exact hn
  ordered := h.ordered

theorem consistent_start (h : p.Consistent) {row : OperationRow} {maxCount : Nat}
    (he : p.enabled (.start row maxCount)) : (p.apply (.start row maxCount)).Consistent := by
  obtain ⟨hl, hfresh, hown, ⟨state, hs, hrev⟩, hroom⟩ := he
  -- the rows of the table after the claim
  have hget : ∀ id r, (p.operations.set row.operationId row).get? id = some r →
      (id = row.operationId ∧ r = row) ∨ p.operations.get? id = some r := by
    intro id r hr
    rw [JsMap.get?_set] at hr
    split at hr
    · rename_i hid; exact .inl ⟨hid, (Option.some.inj hr).symm⟩
    · exact .inr hr
  refine ⟨?_, ?_, ?_, ?_, ?_, h.inventoried, h.recorded, h.ordered⟩
  · intro id r hr
    rcases hget id r hr with ⟨rfl, rfl⟩ | hr
    · rfl
    · exact h.keyed id r hr
  · intro id id' r r' hr hr' hlive hlive' hi
    rcases hget id r hr with ⟨hid, hrow⟩ | hold <;> rcases hget id' r' hr' with ⟨hid', hrow'⟩ | hold'
    · rw [hid, hid']
    · exact absurd (hrow ▸ hi.symm) (hown id' r' hold' hlive')
    · exact absurd (hrow' ▸ hi) (hown id r hold hlive)
    · exact h.exclusive id id' r r' hold hold' hlive hlive' hi
  · intro s
    have hc := h.counted s
    have hcount := JsMap.count_set_of_none hfresh row fun _ r => r.identity.scope = s && r.live
    simp only [activeCount, liveCount, apply, Function.update_apply] at hc hcount ⊢
    rw [hcount]
    split
    · rename_i hsc
      have hb : (p.claimBudget row.identity.scope maxCount).activeCount =
          ((p.budget row.identity.scope).map (·.activeCount)).getD 0 := by
        simp only [claimBudget]
        cases p.budget row.identity.scope <;> rfl
      rw [hsc] at hc ⊢
      simp only [Option.map_some, Option.getD_some, Budget.take, hb, hc, decide_true, hl,
        Bool.and_self, if_true]
    · rename_i hsc
      have hne : ¬ row.identity.scope = s := fun hcon => hsc hcon.symm
      simp only [hne, decide_false, Bool.false_and, Bool.false_eq_true, if_false]
      omega
  · intro s b hb
    simp only [apply, Function.update_apply] at hb
    split at hb
    · cases hb
      simp only [Budget.take]
      omega
    · exact h.bounded s b hb
  · intro id r hr
    rcases hget id r hr with ⟨rfl, rfl⟩ | hr
    · exact ⟨state, hs, hrev.ge⟩
    · exact h.started id r hr

/-- An operation row that is written over, with what it says about its owner kept. -/
theorem operations_set {before after : OperationRow}
    (hb : p.operations.get? before.operationId = some before) (hc : after.Continues before)
    {id : String} {row : OperationRow}
    (h : (p.operations.set after.operationId after).get? id = some row) :
    ∃ old, p.operations.get? id = some old ∧ row.Continues old ∧
      (row = old ∨ id = after.operationId ∧ old = before ∧ row = after) := by
  rw [JsMap.get?_set] at h
  split at h
  · rename_i hid
    obtain rfl := Option.some.inj h
    rw [hid, hc.1]
    exact ⟨before, hb, hc, .inr ⟨rfl, rfl, rfl⟩⟩
  · exact ⟨row, h, ⟨rfl, rfl, rfl, rfl⟩, .inl rfl⟩

/-- Writing over the row of a running operation keeps who owns what. -/
theorem consistent_write (h : p.Consistent) {before after : OperationRow}
    (hb : p.operations.get? before.operationId = some before) (hlive : before.live)
    (hc : after.Continues before) (b : Scope → Option Budget)
    (hcounted : ∀ s, ((b s).map (·.activeCount)).getD 0 =
      (p.operations.set after.operationId after).count
        fun _ row => row.identity.scope = s && row.live)
    (hbounded : ∀ s x, b s = some x → x.activeCount ≤ x.maxCount) :
    Consistent { p with
      operations := p.operations.set after.operationId after
      budget := b } := by
  refine ⟨?_, ?_, hcounted, hbounded, ?_, h.inventoried, h.recorded, h.ordered⟩
  · intro id row hr
    obtain ⟨old, ho, hcont, -⟩ := operations_set hb hc hr
    rw [hcont.1]
    exact h.keyed id old ho
  · intro id id' row row' hr hr' hl hl' hi
    obtain ⟨old, ho, hcont, hcase⟩ := operations_set hb hc hr
    obtain ⟨old', ho', hcont', hcase'⟩ := operations_set hb hc hr'
    have hlive_old : old.live := by
      rcases hcase with rfl | ⟨-, rfl, -⟩
      · exact hl
      · exact hlive
    have hlive_old' : old'.live := by
      rcases hcase' with rfl | ⟨-, rfl, -⟩
      · exact hl'
      · exact hlive
    refine h.exclusive id id' old old' ho ho' hlive_old hlive_old' ?_
    rw [← hcont.2.1, hi, hcont'.2.1]
  · intro id row hr
    obtain ⟨old, ho, hcont, -⟩ := operations_set hb hc hr
    rw [hcont.2.1, hcont.2.2.2]
    exact h.started id old ho

theorem consistent_work (h : p.Consistent) {before after : OperationRow}
    (he : p.enabled (.work before after)) : (p.apply (.work before after)).Consistent := by
  obtain ⟨hb, hlive, hc, hlive'⟩ := he
  refine consistent_write h hb hlive hc p.budget (fun s => ?_) h.bounded
  have hcount := JsMap.count_set_of_some (hc.1.symm ▸ hb) after
    fun _ row => row.identity.scope = s && row.live
  simp only [hc.2.1, hlive, hlive'] at hcount
  have := h.counted s
  simp only [activeCount, liveCount] at this
  omega

theorem consistent_finish (h : p.Consistent) {before after : OperationRow}
    (he : p.enabled (.finish before after)) : (p.apply (.finish before after)).Consistent := by
  obtain ⟨hb, hlive, hc, hlive'⟩ := he
  refine consistent_write h hb hlive hc _ (fun s => ?_) (fun s x hx => ?_)
  · have hcount := JsMap.count_set_of_some (hc.1.symm ▸ hb) after
      fun _ row => row.identity.scope = s && row.live
    have hcs := h.counted s
    simp only [activeCount, liveCount, Function.update_apply] at hcs ⊢
    simp only [hc.2.1, hlive, hlive', Bool.and_true, Bool.and_false, Bool.false_eq_true,
      decide_eq_true_eq, if_false, Nat.add_zero] at hcount
    split
    · rename_i hs
      rw [hc.2.1] at hs
      rw [if_pos hs.symm] at hcount
      have hrel : (((p.budget after.identity.scope).map Budget.release).map
          (·.activeCount)).getD 0 = ((p.budget s).map (·.activeCount)).getD 0 - 1 := by
        rw [hc.2.1, ← hs]
        cases p.budget s <;> rfl
      omega
    · rename_i hs
      rw [hc.2.1] at hs
      rw [if_neg fun hcon => hs hcon.symm] at hcount
      omega
  · simp only [Function.update_apply] at hx
    split at hx
    · obtain ⟨b, hb', rfl⟩ := Option.map_eq_some_iff.mp hx
      have := h.bounded _ b hb'
      simp only [Budget.release]
      omega
    · exact h.bounded s x hx

theorem consistent_bump (h : p.Consistent) {before after : ExtensionRow} {event : OutboxRow}
    (he : p.enabled (.bump before after event)) :
    (p.apply (.bump before after event)).Consistent := by
  obtain ⟨hb, hrev, hevent, n, hn, hinv⟩ := he
  -- the rows only grow
  have hext : ∀ i r, (∃ state, p.extension i = some state ∧ r ≤ state.revision) →
      ∃ state, Function.update p.extension event.identity (some after) i = some state ∧
        r ≤ state.revision := by
    rintro i r ⟨state, hs, hle⟩
    rw [Function.update_apply]
    split
    · rename_i hi
      rw [hi, hb, Option.some.injEq] at hs
      subst hs
      exact ⟨after, rfl, by omega⟩
    · exact ⟨state, hs, hle⟩
  have hinvt : ∀ s k, (∃ m, p.inventory s = some m ∧ k ≤ m) →
      ∃ m, Function.update p.inventory event.identity.scope (some event.inventoryRevision) s =
        some m ∧ k ≤ m := by
    rintro s k ⟨m, hm, hle⟩
    rw [Function.update_apply]
    split
    · rename_i hs
      rw [hs, hn, Option.some.injEq] at hm
      exact ⟨event.inventoryRevision, rfl, by omega⟩
    · exact ⟨m, hm, hle⟩
  refine ⟨h.keyed, h.exclusive, h.counted, h.bounded, ?_, ?_, ?_, ?_⟩
  · intro id row hr
    exact hext _ _ (h.started id row hr)
  · intro i hi
    have hold : (p.inventory i.scope).isSome := by
      simp only [apply, Function.update_apply] at hi
      split at hi
      · rename_i he; rw [he, hn]; rfl
      · exact h.inventoried i hi
    simp only [apply, Function.update_apply]
    split
    · rfl
    · exact hold
  · intro e he
    rcases List.mem_append.mp he with he | he
    · obtain ⟨h1, h2⟩ := h.recorded e he
      exact ⟨hext _ _ h1, hinvt _ _ h2⟩
    · obtain rfl := List.mem_singleton.mp he
      exact ⟨⟨after, by simp [apply], hevent.le⟩, e.inventoryRevision, by simp [apply], le_refl _⟩
  · refine List.pairwise_append.mpr ⟨h.ordered, List.pairwise_singleton _ _, ?_⟩
    intro e he e' he'
    obtain rfl := List.mem_singleton.mp he'
    obtain ⟨⟨state, hs, hle⟩, m, hm, hle'⟩ := h.recorded e he
    constructor
    · intro hi
      rw [hi, hb, Option.some.injEq] at hs
      subst hs
      omega
    · intro hi
      rw [hi, hn, Option.some.injEq] at hm
      omega

theorem consistent : system.Inductive Consistent where
  init p h := h ▸ consistent_empty
  step p m p' h hs := by
    obtain ⟨he, rfl⟩ := hs
    cases m with
    | enroll i => exact consistent_enroll h i
    | start row maxCount => exact consistent_start h he
    | work before after => exact consistent_work h he
    | finish before after => exact consistent_finish h he
    | bump before after event => exact consistent_bump h he

/-! ## What a move changes -/

/-- The event a move records. -/
def event : Move → Option OutboxRow
  | .bump _ _ e => some e
  | _ => none

/-- The row of a running operation that a move writes over, and what it becomes. -/
def change : Move → Option (OperationRow × OperationRow)
  | .work before after | .finish before after => some (before, after)
  | _ => none

def revision (p : Protocol) (i : Identity) : Nat := ((p.extension i).map (·.revision)).getD 0

theorem step_outbox {m : Move} (hs : system.step p m p') :
    p'.outbox = p.outbox ++ (event m).toList := by
  obtain ⟨-, rfl⟩ := hs
  cases m <;> simp [apply, event]

theorem step_revision {m : Move} (hs : system.step p m p') (i : Identity) :
    p'.revision i = p.revision i + (event m).toList.countP (·.identity = i) := by
  obtain ⟨he, rfl⟩ := hs
  cases m with
  | enroll j =>
    simp only [revision, apply, Function.update_apply, event, Option.toList, List.countP_nil]
    split
    · rename_i hi
      rw [hi]
      cases p.extension j <;> rfl
    · rfl
  | start row maxCount => rfl
  | work before after => rfl
  | finish before after => rfl
  | bump before after e =>
    obtain ⟨hb, hrev, -⟩ := he
    simp only [revision, apply, Function.update_apply, event, Option.toList, List.countP_cons,
      List.countP_nil, decide_eq_true_eq]
    by_cases hi : i = e.identity
    · subst hi
      simp only [hb, Option.map_some, Option.getD_some, if_true]
      omega
    · have hne : ¬ e.identity = i := fun hcon => hi hcon.symm
      simp only [hi, hne, if_false]
      omega

/-- The row of an extension; one that no claim has named yet is as a claim would insert it. -/
def row (p : Protocol) (i : Identity) : ExtensionRow :=
  (p.extension i).getD ExtensionRow.initial

/-- A row of the table is what a move writes over, or is still there after it. -/
theorem step_operation {m : Move} (hs : system.step p m p') {id : String}
    {row : OperationRow} (h : p.operations.get? id = some row) :
    (∃ after, change m = some (row, after) ∧ row.live ∧ p'.operations.get? id = some after) ∨
      p'.operations.get? id = some row := by
  obtain ⟨he, rfl⟩ := hs
  have hwrite : ∀ before after : OperationRow,
      p.operations.get? before.operationId = some before → after.Continues before →
      before.live → (before = row ∧ row.live ∧
        (p.operations.set after.operationId after).get? id = some after) ∨
      (p.operations.set after.operationId after).get? id = some row := by
    intro before after hb hc hl
    by_cases hid : id = before.operationId
    · rw [hid, hb] at h
      obtain rfl := Option.some.inj h
      rw [hid, ← hc.1]
      exact .inl ⟨rfl, hl, JsMap.get?_set_self _ _ _⟩
    · rw [hc.1, JsMap.get?_set_ne _ _ hid]
      exact .inr h
  cases m with
  | enroll i => exact .inr h
  | start r maxCount =>
    have hne : id ≠ r.operationId := fun hid => by rw [hid, he.2.1] at h; cases h
    exact .inr (by simp only [apply, JsMap.get?_set_ne _ _ hne, h])
  | work before after =>
    rcases hwrite before after he.1 he.2.2.1 he.2.1 with ⟨rfl, hl, hget⟩ | hget
    · exact .inl ⟨after, rfl, hl, hget⟩
    · exact .inr hget
  | finish before after =>
    rcases hwrite before after he.1 he.2.2.1 he.2.1 with ⟨rfl, hl, hget⟩ | hget
    · exact .inl ⟨after, rfl, hl, hget⟩
    · exact .inr hget
  | bump before after e => exact .inr h

/-- A row of the table was there before a move, or the move has just written it. -/
theorem step_operation_back {m : Move} (hs : system.step p m p') {id : String}
    {row : OperationRow} (h : p'.operations.get? id = some row) :
    p.operations.get? id = some row ∨ (∃ before, m = .finish before row) ∨ row.live := by
  obtain ⟨he, rfl⟩ := hs
  have hset : ∀ after : OperationRow,
      (p.operations.set after.operationId after).get? id = some row →
      row = after ∨ p.operations.get? id = some row := by
    intro after hr
    rw [JsMap.get?_set] at hr
    split at hr
    · exact .inl (Option.some.inj hr).symm
    · exact .inr hr
  cases m with
  | enroll i => exact .inl h
  | start r maxCount =>
    rcases hset r h with rfl | hold
    · exact .inr (.inr he.1)
    · exact .inl hold
  | work before after =>
    rcases hset after h with rfl | hold
    · exact .inr (.inr he.2.2.2)
    · exact .inl hold
  | finish before after =>
    rcases hset after h with rfl | hold
    · exact .inr (.inl ⟨before, rfl⟩)
    · exact .inl hold
  | bump before after e => exact .inl h

/-! ## Runs -/

/-- The events of a list of moves, in order. -/
def events (ms : List Move) : List OutboxRow := ms.filterMap event

/-- The operations that a list of moves writes over. -/
def written (ms : List Move) : List String := (ms.filterMap change).map (·.1.operationId)

theorem events_cons (m : Move) (ms : List Move) :
    events (m :: ms) = (event m).toList ++ events ms := by
  simp only [events, List.filterMap_cons]
  cases event m <;> rfl

@[simp] theorem events_nil : events [] = [] := rfl

@[simp] theorem written_nil : written [] = [] := rfl

theorem written_cons (m : Move) (ms : List Move) :
    written (m :: ms) = (change m).toList.map (·.1.operationId) ++ written ms := by
  simp only [written, List.filterMap_cons]
  cases change m <;> rfl

theorem written_append (ms ms' : List Move) : written (ms ++ ms') = written ms ++ written ms' := by
  rw [written, written, written, List.filterMap_append, List.map_append]

theorem events_append (ms ms' : List Move) : events (ms ++ ms') = events ms ++ events ms' :=
  List.filterMap_append

theorem run_enabled {ms : List Move} (hr : system.Run p ms p') {m : Move} (hm : m ∈ ms) :
    ∃ q : Protocol, q.enabled m := by
  induction hr with
  | nil => cases hm
  | cons hs _ ih =>
    rcases List.mem_cons.mp hm with rfl | hm
    · exact ⟨_, hs.1⟩
    · exact ih hm

theorem run_outbox {ms : List Move} (hr : system.Run p ms p') :
    p'.outbox = p.outbox ++ events ms := by
  induction hr with
  | nil => simp [events]
  | cons hs _ ih => rw [ih, step_outbox hs, events_cons, List.append_assoc]

/-- A revision grows by the number of events recorded for its extension. -/
theorem run_revision {ms : List Move} (hr : system.Run p ms p') (i : Identity) :
    p'.revision i = p.revision i + (events ms).countP (·.identity = i) := by
  induction hr with
  | nil => simp [events]
  | cons hs _ ih => rw [ih, step_revision hs, events_cons, List.countP_append, Nat.add_assoc]

theorem run_revision_le {ms : List Move} (hr : system.Run p ms p') (i : Identity) :
    p.revision i ≤ p'.revision i := by
  rw [run_revision hr i]
  omega

/-- An event is recorded under a revision above the one the run started from. -/
theorem run_event_revision {ms : List Move} (hr : system.Run p ms p') :
    ∀ e ∈ events ms, p.revision e.identity < e.revision := by
  induction hr with
  | nil => intro e he; simp [events] at he
  | @cons p p₁ p' m ms hs hr ih =>
    intro e hmem
    have hstep := step_revision hs e.identity
    rw [events_cons, List.mem_append, Option.mem_toList] at hmem
    rcases hmem with hmem | hmem
    · cases m with
      | bump before after e₁ =>
        obtain rfl := Option.some.inj hmem
        obtain ⟨⟨hb, hrev, hevent, -⟩, -⟩ := hs
        simp only [revision, hb, Option.map_some, Option.getD_some]
        omega
      | _ => cases hmem
    · have := ih e hmem
      omega

/-- A row that a run changed was written over by one of its moves. -/
theorem run_change {ms : List Move} (hr : system.Run p ms p') {id : String}
    {row row' : OperationRow} (h : p.operations.get? id = some row)
    (h' : p'.operations.get? id = some row') :
    row' = row ∨ row.live ∧ ∃ m ∈ ms, ∃ after, change m = some (row, after) := by
  induction hr with
  | nil => exact .inl (Option.some.inj (h'.symm.trans h))
  | @cons p p₁ p' m ms hs _ ih =>
    rcases step_operation hs h with ⟨after, ha, hl, -⟩ | h₁
    · exact .inr ⟨hl, m, List.mem_cons_self, after, ha⟩
    · rcases ih h₁ h' with heq | ⟨hl, m', hm', hex⟩
      · exact .inl heq
      · exact .inr ⟨hl, m', List.mem_cons_of_mem _ hm', hex⟩

theorem of_mem_events {ms : List Move} {e : OutboxRow} (h : e ∈ events ms) :
    ∃ before after, .bump before after e ∈ ms := by
  obtain ⟨m, hm, he⟩ := List.mem_filterMap.mp h
  cases m with
  | bump before after e' =>
    obtain rfl := Option.some.inj he
    exact ⟨before, after, hm⟩
  | _ => cases he

theorem of_mem_written {ms : List Move} {id : String} (h : id ∈ written ms) :
    ∃ m ∈ ms, ∃ before after, change m = some (before, after) ∧ before.operationId = id := by
  obtain ⟨⟨before, after⟩, hc, rfl⟩ := List.mem_map.mp h
  obtain ⟨m, hm, hc⟩ := List.mem_filterMap.mp hc
  exact ⟨m, hm, before, after, hc, rfl⟩

theorem mem_written {ms : List Move} {m : Move} {before after : OperationRow} (hm : m ∈ ms)
    (hc : change m = some (before, after)) : before.operationId ∈ written ms := by
  refine List.mem_map.mpr ⟨(before, after), ?_, rfl⟩
  exact List.mem_filterMap.mpr ⟨m, hm, hc⟩

/-- In a run that writes over no operation twice, a row that changed is what one move made of
it. -/
theorem run_change_once {ms : List Move} (hr : system.Run p ms p') {id : String}
    {row row' : OperationRow} (hk : p.Consistent) (hn : (written ms).Nodup)
    (h : p.operations.get? id = some row) (h' : p'.operations.get? id = some row') :
    row' = row ∨ row.live ∧ ∃ m ∈ ms, change m = some (row, row') := by
  induction hr with
  | nil => exact .inl (Option.some.inj (h'.symm.trans h))
  | @cons p p₁ p' m ms hs hr ih =>
    have hk₁ := consistent.step _ _ _ hk hs
    have hn' : (written ms).Nodup := by
      rw [written, List.filterMap_cons] at hn
      split at hn
      · exact hn
      · exact (List.nodup_cons.mp hn).2
    rcases step_operation hs h with ⟨after, ha, hl, h₁⟩ | h₁
    · right
      rcases run_change hr h₁ h' with rfl | ⟨-, m', hm', after', ha'⟩
      · exact ⟨hl, m, List.mem_cons_self, ha⟩
      · -- the rest of the run would write over the row again
        have hrow := hk.keyed id row h
        have hafter := hk₁.keyed id after h₁
        have hmem := mem_written hm' ha'
        rw [written, List.filterMap_cons, ha] at hn
        rw [hafter, ← hrow] at hmem
        exact absurd hmem (List.nodup_cons.mp hn).1
    · rcases ih hk₁ hn' h₁ h' with heq | ⟨hl, m', hm', hex⟩
      · exact .inl heq
      · exact .inr ⟨hl, m', List.mem_cons_of_mem _ hm', hex⟩

/-- No run removes an operation. -/
theorem run_operation {ms : List Move} (hr : system.Run p ms p') {id : String}
    {row : OperationRow} (h : p.operations.get? id = some row) :
    ∃ row', p'.operations.get? id = some row' := by
  induction hr generalizing row with
  | nil => exact ⟨row, h⟩
  | cons hs _ ih =>
    rcases step_operation hs h with ⟨after, -, -, ha⟩ | h₁
    · exact ih ha
    · exact ih h₁

/-- A finished operation is never written over. -/
theorem run_finished {ms : List Move} (hr : system.Run p ms p') {id : String} {row : OperationRow}
    (h : p.operations.get? id = some row) (hd : row.live = false) :
    p'.operations.get? id = some row := by
  obtain ⟨row', h'⟩ := run_operation hr h
  rcases run_change hr h h' with rfl | ⟨hl, -⟩
  · exact h'
  · rw [hd] at hl
    cases hl

/-- A finished operation of the last state was finished in the first, or a move finished it. -/
theorem run_finished_back {ms : List Move} (hr : system.Run p ms p') {id : String}
    {row : OperationRow} (h : p'.operations.get? id = some row) (hd : row.live = false) :
    p.operations.get? id = some row ∨ ∃ before, .finish before row ∈ ms := by
  induction hr with
  | nil => exact .inl h
  | @cons p p₁ p' m ms hs _ ih =>
    rcases ih h with h₁ | ⟨before, hb⟩
    · rcases step_operation_back hs h₁ with h₀ | ⟨before, rfl⟩ | hl
      · exact .inl h₀
      · exact .inr ⟨before, List.mem_cons_self⟩
      · rw [hd] at hl
        cases hl
    · exact .inr ⟨before, List.mem_cons_of_mem _ hb⟩

end Protocol

end KNex.Store
