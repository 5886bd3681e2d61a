import KNex.ExtensionStore.Rows
import KNex.Core.Except

/-!
# Transactions

`transaction` runs its work between `begin` and `commit` and rolls back when the work throws. A
transaction is a computation over the database that may throw; it changes the database only when
it returns. Transactions of different workers are atomic, so what one reads under its locks no
other one writes.

The lemmas take a transaction that returned apart: the database after each statement, and the
conditions its checks found true.
-/
namespace KNex.Store

open KNex.Core KNex.Contracts

/-- mirrors packages/payload-adapter/src/runtime-extension-store.ts:106-111, and the schema
errors of `zod` -/
inductive ErrorCode where
  | revisionConflict | idempotencyConflict | operationInProgress | operationNotFound
  | leaseConflict | phaseConflict | globalBudgetExhausted | generationMismatch | versionDowngrade
  | readinessExpired | rollbackBlocked | referenceConflict | stateInvalid
  | zodError | databaseError
  deriving DecidableEq, Repr

structure StoreError where
  code : ErrorCode
  message : String
  deriving DecidableEq, Repr

abbrev Tx := StateT Db (Except StoreError)

/-! ## Statements -/

def fail {α : Type} (code : ErrorCode) (message : String) : Tx α :=
  fun _ => .error ⟨code, message⟩

/-- `if (!c) fail(code, message)` -/
def ensure (c : Prop) [Decidable c] (code : ErrorCode) (message : String) : Tx Unit :=
  fun db => if c then .ok ((), db) else .error ⟨code, message⟩

/-- The value, or `fail(code, message)` where there is none. -/
def require {α : Type} (o : Option α) (code : ErrorCode) (message : String) : Tx α :=
  fun db => match o with
    | some a => .ok (a, db)
    | none => .error ⟨code, message⟩

/-- A pure check inside a transaction. -/
def lift {α : Type} (x : Except StoreError α) : Tx α := fun db => x.map fun a => (a, db)

def read : Tx Db := fun db => .ok (db, db)

def write (f : Db → Db) : Tx Unit := fun db => .ok ((), f db)

variable {α β : Type} {db db' : Db}

theorem tx_bind {x : Tx α} {f : α → Tx β} {b : β} :
    (x >>= f) db = .ok (b, db') ↔ ∃ a db₁, x db = .ok (a, db₁) ∧ f a db₁ = .ok (b, db') := by
  have h : (x >>= f) db = (x db >>= fun r => f r.1 r.2) := rfl
  rw [h, bind_eq_ok]
  constructor
  · rintro ⟨⟨a, db₁⟩, h1, h2⟩
    exact ⟨a, db₁, h1, h2⟩
  · rintro ⟨a, db₁, h1, h2⟩
    exact ⟨(a, db₁), h1, h2⟩

theorem tx_pure {a b : α} : (pure a : Tx α) db = .ok (b, db') ↔ b = a ∧ db = db' := by
  have h : (pure a : Tx α) db = .ok (a, db) := rfl
  rw [h]
  simp [eq_comm]

/-- A transaction whose result is wrapped. -/
theorem tx_wrap {x : Tx α} {g : α → β} {b : β} :
    (x >>= fun a => pure (g a)) db = .ok (b, db') ↔ ∃ a, x db = .ok (a, db') ∧ b = g a := by
  simp only [tx_bind, tx_pure]
  constructor
  · rintro ⟨a, _, h, rfl, rfl⟩
    exact ⟨a, h, rfl⟩
  · rintro ⟨a, h, rfl⟩
    exact ⟨a, db', h, rfl, rfl⟩

theorem fail_ok {code : ErrorCode} {message : String} {a : α} :
    (fail code message : Tx α) db = .ok (a, db') ↔ False := by
  simp [fail]

theorem ensure_ok {c : Prop} [Decidable c] {code : ErrorCode} {message : String} {u : Unit} :
    ensure c code message db = .ok (u, db') ↔ c ∧ db = db' := by
  unfold ensure
  by_cases h : c <;> simp [h, eq_comm]

theorem ensure_bind {c : Prop} [Decidable c] {code : ErrorCode} {message : String}
    {f : Unit → Tx β} {b : β} : (ensure c code message >>= f) db = .ok (b, db') ↔
      c ∧ f () db = .ok (b, db') := by
  simp only [tx_bind, ensure_ok]
  constructor
  · rintro ⟨_, _, ⟨hc, rfl⟩, h⟩
    exact ⟨hc, h⟩
  · rintro ⟨hc, h⟩
    exact ⟨(), db, ⟨hc, rfl⟩, h⟩

theorem require_ok {o : Option α} {code : ErrorCode} {message : String} {a : α} :
    require o code message db = .ok (a, db') ↔ o = some a ∧ db = db' := by
  unfold require
  cases o <;> simp [eq_comm]

theorem require_bind {o : Option α} {code : ErrorCode} {message : String} {f : α → Tx β} {b : β} :
    (require o code message >>= f) db = .ok (b, db') ↔
      ∃ a, o = some a ∧ f a db = .ok (b, db') := by
  simp [tx_bind, require_ok]

theorem lift_bind {x : Except StoreError α} {f : α → Tx β} {b : β} :
    (lift x >>= f) db = .ok (b, db') ↔ ∃ a, x = .ok a ∧ f a db = .ok (b, db') := by
  rw [tx_bind]
  unfold lift
  cases x <;> simp [Except.map]

theorem read_bind {f : Db → Tx β} {b : β} :
    (read >>= f) db = .ok (b, db') ↔ f db db = .ok (b, db') := by
  simp [tx_bind, read]

theorem write_ok {f : Db → Db} {u : Unit} : write f db = .ok (u, db') ↔ db' = f db := by
  simp [write, eq_comm]

theorem write_bind {g : Db → Db} {f : Unit → Tx β} {b : β} :
    (write g >>= f) db = .ok (b, db') ↔ f () (g db) = .ok (b, db') := by
  simp only [tx_bind, write_ok]
  constructor
  · rintro ⟨_, _, rfl, h⟩
    exact h
  · intro h
    exact ⟨(), _, rfl, h⟩

/-! ## Rows -/

def Db.setExtension (db : Db) (i : Identity) (row : ExtensionRow) : Db :=
  { db with extensions := db.extensions.set i row }

def Db.setInventoryRevision (db : Db) (s : Scope) (revision : Nat) : Db :=
  { db with inventoryRevisions := db.inventoryRevisions.set s revision }

def Db.setOperation (db : Db) (row : OperationRow) : Db :=
  { db with operations := db.operations.set row.operationId row }

def Db.setBudget (db : Db) (s : Scope) (b : Budget) : Db :=
  { db with budgets := db.budgets.set s b }

def Db.setGeneration (db : Db) (i : Identity) (id : String) (g : GenerationRow) : Db :=
  { db with generations := db.generations.set (i, id) g }

def Db.emit (db : Db) (event : OutboxRow) : Db := { db with outbox := db.outbox ++ [event] }

/-- `insert … on conflict do nothing` -/
def insertIfAbsent {κ ν : Type} [DecidableEq κ] (m : JsMap κ ν) (k : κ) (v : ν) : JsMap κ ν :=
  if (m.get? k).isSome then m else m.set k v

end KNex.Store
