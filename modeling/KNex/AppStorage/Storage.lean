import KNex.Contracts.Identity
import KNex.Core.JsMap
import KNex.Core.Json
import KNex.Core.Work

/-!
# `PostgresAppStorage`

`packages/payload-adapter/src/app-storage.ts`: the tables of namespaces and records, the statements
on them, and the calls that write. A call takes the number of awaits that go through before its
signal aborts or its connection fails. The application's advisory lock is taken first and held to
the end of the transaction, so calls on one application run one after another.

Numbers are integers here: what is not an integer fails the same check as one out of range. An
`unknown` value is a JSON value, or `none` for one that `canonicalJson` refuses. The validator, the
secret guard and the digest are the host's. `jsonb` may store the fields of an object in another
order, which `canonicalJson` does not see; here the value is stored as it is given.
-/
namespace KNex.AppStorage

open KNex.Core KNex.Contracts

/-! ## Errors -/

/-- mirrors packages/payload-adapter/src/app-storage.ts:47-52 -/
inductive ErrorCode where
  | namespaceConflict | namespaceNotFound | revisionConflict | quotaExceeded | keyInvalid
  | backupInvalid
  deriving DecidableEq, Repr

/-- What a call throws: its own errors, what a host function threw, an aborted signal or failed
connection, a violated constraint. -/
inductive Failure where
  | app (code : ErrorCode) (message : String)
  | typeError (message : String)
  | host (message : String)
  | interrupted
  | constraint
  deriving DecidableEq, Repr

abbrev Unknown := Option Json

/-! ## Tables -/

structure AppStorageNamespace where
  applicationId : String
  environment : String
  appId : String
  schemaId : String
  deriving DecidableEq, Repr

structure NamespaceRow where
  schemaVersion : Int
  quotaBytes : Int
  usedBytes : Int
  revision : Int
  deriving DecidableEq, Repr

structure RecordRow where
  value : Json
  valueBytes : Int
  revision : Int
  deriving DecidableEq, Repr

abbrev RecordKey := AppStorageNamespace × String

structure Db where
  namespaces : JsMap AppStorageNamespace NamespaceRow
  records : JsMap RecordKey RecordRow
  deriving DecidableEq

def Db.empty : Db := ⟨.empty, .empty⟩

/-- mirrors packages/payload-adapter/src/app-storage.ts:54-60 -/
structure AppStorageRecord where
  key : String
  value : Json
  revision : Int
  bytes : Int
  deriving DecidableEq, Repr

/-! ## Patterns -/

/-- `/^[a-z][a-z0-9._:-]{0,159}$/u` -/
def keyOk (s : String) : Bool :=
  match s.toList with
  | [] => false
  | c :: cs => c.isLower && cs.all (fun c => lowerAlnum c || ['.', '_', ':', '-'].contains c) &&
      decide (cs.length ≤ 159)

/-- `/^[a-z][a-z0-9]*(?:[.-][a-z0-9]+)*$/u` -/
def schemaIdOk (s : String) : Bool :=
  match splitChar '-' (s.toList.map fun c => if c = '.' then '-' else c) with
  | [] => false
  | p :: ps => isWord p && ps.all isAlnumRun

/-- `/^app(?:\.[a-z][a-z0-9]*(?:-[a-z0-9]+)*)+$/u` -/
def appIdOk (s : String) : Bool := isDotted (fun p => p = "app".toList) s.toList

/-- `/^[a-z][a-z0-9-]{low,high}$/u` -/
def slugOk (low high : Nat) (s : String) : Bool :=
  match s.toList with
  | [] => false
  | c :: cs => c.isLower && cs.all (fun c => lowerAlnum c || c == '-') &&
      decide (low ≤ cs.length ∧ cs.length ≤ high)

def AppStorageNamespace.wellFormed (n : AppStorageNamespace) : Bool :=
  slugOk 2 127 n.applicationId && slugOk 1 63 n.environment && appIdOk n.appId &&
    schemaIdOk n.schemaId

/-! ## Constraints -/

/-- The constraints of a row of namespaces; its key is checked by `assertNamespace` too, but for
the lengths of the columns.
mirrors packages/payload-adapter/src/runtime-extension-schema-migrations.ts:174-191 -/
def NamespaceRow.Admissible (n : AppStorageNamespace) (row : NamespaceRow) : Prop :=
  n.wellFormed = true ∧ n.appId.length ≤ 128 ∧ n.schemaId.length ≤ 128 ∧
    (1 ≤ row.schemaVersion ∧ row.schemaVersion ≤ 1000000000) ∧
    (1 ≤ row.quotaBytes ∧ row.quotaBytes ≤ 268435456) ∧
    (0 ≤ row.usedBytes ∧ row.usedBytes ≤ row.quotaBytes) ∧
    (0 ≤ row.revision ∧ row.revision ≤ 1000000000)

instance (n : AppStorageNamespace) (row : NamespaceRow) : Decidable (row.Admissible n) :=
  inferInstanceAs (Decidable (_ ∧ _))

/-- mirrors packages/payload-adapter/src/runtime-extension-schema-migrations.ts:193-208 -/
def RecordRow.Admissible (key : String) (row : RecordRow) : Prop :=
  keyOk key = true ∧ (1 ≤ row.valueBytes ∧ row.valueBytes ≤ 1048576) ∧
    (1 ≤ row.revision ∧ row.revision ≤ 1000000000)

instance (key : String) (row : RecordRow) : Decidable (row.Admissible key) :=
  inferInstanceAs (Decidable (_ ∧ _))

/-! ## Statements -/

abbrev Statement (α : Type) := Db → Except Failure (α × Db)

def selectNamespace (n : AppStorageNamespace) : Statement (Option NamespaceRow) := fun db =>
  .ok (db.namespaces.get? n, db)

def insertNamespace (n : AppStorageNamespace) (row : NamespaceRow) : Statement Unit := fun db =>
  if db.namespaces.get? n = none ∧ row.Admissible n
  then .ok ((), { db with namespaces := db.namespaces.set n row })
  else .error .constraint

/-- `update … set … where application_id=$1 and …`: without a row it updates none. -/
def updateNamespace (n : AppStorageNamespace) (f : NamespaceRow → NamespaceRow) :
    Statement Unit := fun db =>
  match db.namespaces.get? n with
  | none => .ok ((), db)
  | some row =>
    if (f row).Admissible n then .ok ((), { db with namespaces := db.namespaces.set n (f row) })
    else .error .constraint

/-- Whether the namespace is one of the application's app. -/
def AppStorageNamespace.ofApp (applicationId environment appId : String)
    (n : AppStorageNamespace) : Bool :=
  decide (n.applicationId = applicationId ∧ n.environment = environment ∧ n.appId = appId)

/-- `delete … where application_id=$1 and environment=$2 and app_id=$3`; the records of a deleted
namespace go with it. -/
def deleteNamespaces (applicationId environment appId : String) : Statement Unit := fun db =>
  .ok ((), {
    namespaces := db.namespaces.filter fun n _ => !n.ofApp applicationId environment appId
    records := db.records.filter fun k _ => !k.1.ofApp applicationId environment appId })

def selectRecord (n : AppStorageNamespace) (key : String) : Statement (Option RecordRow) :=
  fun db => .ok (db.records.get? (n, key), db)

def RecordRow.record (key : String) (row : RecordRow) : AppStorageRecord where
  key := key
  value := row.value
  revision := row.revision
  bytes := row.valueBytes

/-- `insert … on conflict … do update … returning …` -/
def upsertRecord (n : AppStorageNamespace) (key : String) (row : RecordRow) :
    Statement AppStorageRecord := fun db =>
  if (db.namespaces.get? n).isSome ∧ row.Admissible key
  then .ok (row.record key, { db with records := db.records.set (n, key) row })
  else .error .constraint

def deleteRecord (n : AppStorageNamespace) (key : String) : Statement Unit := fun db =>
  .ok ((), { db with records := db.records.delete (n, key) })

def insertRecord (n : AppStorageNamespace) (db : Db) (entry : String × RecordRow) :
    Except Failure Db :=
  if db.records.get? (n, entry.1) = none ∧ (db.namespaces.get? n).isSome ∧
      entry.2.Admissible entry.1
  then .ok { db with records := db.records.set (n, entry.1) entry.2 }
  else .error .constraint

/-- `insert … values (…), (…)`: all rows or none. -/
def insertRecords (n : AppStorageNamespace) (entries : List (String × RecordRow)) :
    Statement Unit := fun db => (entries.foldlM (insertRecord n) db).map fun db' => ((), db')

/-! ## Transactions -/

abbrev Tx := Work Failure Db

def throwIfAborted : Tx Unit := Work.await .interrupted

/-- mirrors packages/payload-adapter/src/app-storage.ts:301-307 -/
def query {α : Type} (s : Statement α) : Tx α := do
  throwIfAborted
  let result ← Work.statement s
  throwIfAborted
  pure result

/-- A lock, `begin`: a statement that changes no table. -/
def silent : Statement Unit := fun db => .ok ((), db)

/-- The first and the last awaits are those around `connect` and before `commit`.
mirrors packages/payload-adapter/src/app-storage.ts:296-319 -/
def transaction {α : Type} (work : Tx α) : Tx α := do
  throwIfAborted
  throwIfAborted
  query silent
  let result ← work
  throwIfAborted
  pure result

def fail {α : Type} (code : ErrorCode) (message : String) : Except Failure α :=
  .error (.app code message)

/-! ## Host -/

structure BackupNamespace where
  schemaId : String
  schemaVersion : Int
  quotaBytes : Int
  revision : Int
  records : List AppStorageRecord

/-- mirrors packages/payload-adapter/src/app-storage.ts:62-75, but for the digest -/
structure BackupBody where
  applicationId : String
  environment : String
  appId : String
  namespaces : List BackupNamespace

/-- The namespace of a backup's entry. -/
def BackupBody.namespace (body : BackupBody) (ns : BackupNamespace) : AppStorageNamespace :=
  ⟨body.applicationId, body.environment, body.appId, ns.schemaId⟩

structure AppStorageBackup extends BackupBody where
  digest : String

/-- mirrors packages/payload-adapter/src/app-storage.ts:6-12, 82-85 -/
structure Host where
  validate : String → Unknown → Except Failure Unknown
  assertSafe : Unknown → Except Failure Unit
  digest : BackupBody → String

/-! ## Checks -/

/-- `Buffer.byteLength(canonicalJson(value))` -/
def canonicalLength (value : Json) : Int := (Json.canonicalJson value).utf8ByteSize

/-- mirrors packages/payload-adapter/src/app-storage.ts:87-93 -/
def valueBytes (value : Unknown) : Except Failure (Json × Int) :=
  match value with
  | none => fail .backupInvalid "App storage values must be canonical JSON."
  | some json =>
    if canonicalLength json < 1 ∨ 1048576 < canonicalLength json
    then fail .quotaExceeded "App storage record exceeds its byte limit."
    else .ok (json, canonicalLength json)

/-- mirrors packages/payload-adapter/src/app-storage.ts:95-98 -/
def assertNamespace (n : AppStorageNamespace) : Except Failure Unit :=
  if n.wellFormed then .ok () else .error (.typeError "App storage namespace is invalid.")

/-- mirrors packages/payload-adapter/src/app-storage.ts:338 -/
def assertKey (key : String) : Except Failure Unit :=
  if keyOk key then .ok () else fail .keyInvalid "App storage key is invalid."

def safeInteger (n : Int) : Prop := -Json.maxSafeInteger ≤ n ∧ n ≤ Json.maxSafeInteger

instance (n : Int) : Decidable (safeInteger n) := inferInstanceAs (Decidable (_ ∧ _))

/-- The validated value, checked by the secret guard, and its length. -/
def Host.accept (host : Host) (schemaId : String) (value : Unknown) :
    Except Failure (Json × Int) := do
  let validated ← host.validate schemaId value
  host.assertSafe validated
  valueBytes validated

/-! ## Calls -/

def lockApplication : Tx Unit := query silent

def lockNamespace : Tx Unit := query silent

/-- mirrors packages/payload-adapter/src/app-storage.ts:103-122 -/
def ensureNamespace (n : AppStorageNamespace) (schemaVersion quotaBytes : Int) : Tx Unit := do
  Work.lift (assertNamespace n)
  Work.check (safeInteger schemaVersion ∧ 1 ≤ schemaVersion ∧ schemaVersion ≤ 1000000000 ∧
    safeInteger quotaBytes ∧ 1 ≤ quotaBytes ∧ quotaBytes ≤ 268435456)
    (.typeError "App storage namespace limits are invalid.")
  transaction do
    lockApplication
    lockNamespace
    let current ← query (selectNamespace n)
    match current with
    | none => query (insertNamespace n ⟨schemaVersion, quotaBytes, 0, 0⟩)
    | some row =>
      Work.check (row.schemaVersion = schemaVersion ∧ row.quotaBytes = quotaBytes)
        (.app .namespaceConflict
          "App storage namespace already exists with different immutable limits.")

/-- The revision that a caller has to name: `row?.revision ?? 0`. -/
def currentRevision (row : Option RecordRow) : Int := (row.map RecordRow.revision).getD 0

/-- mirrors packages/payload-adapter/src/app-storage.ts:137-164 -/
def put (host : Host) (n : AppStorageNamespace) (key : String) (value : Unknown)
    (expectedRevision : Int) : Tx AppStorageRecord := do
  throwIfAborted
  Work.lift (assertNamespace n)
  Work.lift (assertKey key)
  Work.check (safeInteger expectedRevision ∧ 0 ≤ expectedRevision)
    (.app .revisionConflict "App storage expected revision is invalid.")
  let (validated, bytes) ← Work.lift (host.accept n.schemaId value)
  transaction do
    lockApplication
    lockNamespace
    let state ← query (selectNamespace n)
    let state ← Work.require state
      (.app .namespaceNotFound "App storage namespace is unavailable.")
    let row ← query (selectRecord n key)
    Work.check (currentRevision row = expectedRevision)
      (.app .revisionConflict "App storage record revision changed.")
    let usedBytes := state.usedBytes - (row.map RecordRow.valueBytes).getD 0 + bytes
    Work.check (usedBytes ≤ state.quotaBytes)
      (.app .quotaExceeded "App storage namespace quota is exhausted.")
    let result ← query (upsertRecord n key ⟨validated, bytes, expectedRevision + 1⟩)
    query (updateNamespace n fun s => { s with
      usedBytes := usedBytes
      revision := s.revision + 1 })
    pure result

/-- mirrors packages/payload-adapter/src/app-storage.ts:166-192 -/
def delete (n : AppStorageNamespace) (key : String) (expectedRevision : Int) : Tx Unit := do
  throwIfAborted
  Work.lift (assertNamespace n)
  Work.lift (assertKey key)
  transaction do
    lockApplication
    lockNamespace
    let state ← query (selectNamespace n)
    let _ ← Work.require state (.app .namespaceNotFound "App storage namespace is unavailable.")
    let row ← query (selectRecord n key)
    let row ← Work.require (row.filter fun row => row.revision = expectedRevision)
      (.app .revisionConflict "App storage record revision changed.")
    query (deleteRecord n key)
    query (updateNamespace n fun s => { s with
      usedBytes := s.usedBytes - row.valueBytes
      revision := s.revision + 1 })

/-- One record of a backup: the bytes so far and the keys seen.
mirrors packages/payload-adapter/src/app-storage.ts:264-273 -/
def checkRecord (host : Host) (schemaId : String) (seen : Int × List String)
    (record : AppStorageRecord) : Except Failure (Int × List String) := do
  assertKey record.key
  if record.key ∈ seen.2 ∨ ¬ safeInteger record.revision ∨ record.revision < 1 then
    fail .backupInvalid "App storage backup record is invalid."
  let (_, bytes) ← host.accept schemaId (some record.value)
  if bytes ≠ record.bytes then
    fail .backupInvalid "App storage backup byte evidence is invalid."
  pure (seen.1 + bytes, seen.2 ++ [record.key])

def backupPageSize : Nat := 1000

/-- The slices from `0`, `backupPageSize`, `2 * backupPageSize`, … -/
def pages {α : Type} (l : List α) : List (List α) :=
  (List.range ((l.length + (backupPageSize - 1)) / backupPageSize)).map fun i =>
    (l.drop (i * backupPageSize)).take backupPageSize

/-- The row that a record of a backup is inserted as. -/
def AppStorageRecord.entry (record : AppStorageRecord) : String × RecordRow :=
  (record.key, ⟨record.value, record.bytes, record.revision⟩)

/-- One namespace of a backup, after the schemas seen.
mirrors packages/payload-adapter/src/app-storage.ts:259-292 -/
def restoreNamespace (host : Host) (body : BackupBody) (schemaIds : List String)
    (ns : BackupNamespace) : Tx (List String) := do
  Work.check (schemaIdOk ns.schemaId = true ∧ ns.schemaId ∉ schemaIds ∧
    safeInteger ns.schemaVersion ∧ 1 ≤ ns.schemaVersion ∧ safeInteger ns.quotaBytes ∧
    1 ≤ ns.quotaBytes ∧ ns.quotaBytes ≤ 268435456 ∧ safeInteger ns.revision ∧ 0 ≤ ns.revision)
    (.app .backupInvalid "App storage backup namespace is invalid.")
  let (usedBytes, _) ← Work.lift (ns.records.foldlM (checkRecord host ns.schemaId) (0, []))
  Work.check (usedBytes ≤ ns.quotaBytes)
    (.app .quotaExceeded "App storage backup exceeds its namespace quota.")
  let n := body.namespace ns
  query (insertNamespace n ⟨ns.schemaVersion, ns.quotaBytes, usedBytes, ns.revision⟩)
  forM (pages ns.records) fun records =>
    query (insertRecords n (records.map AppStorageRecord.entry))
  pure (schemaIds ++ [ns.schemaId])

/-- mirrors packages/payload-adapter/src/app-storage.ts:249-294 -/
def restoreBackup (host : Host) (backup : AppStorageBackup) : Tx Unit := do
  Work.check (host.digest backup.toBackupBody = backup.digest)
    (.app .backupInvalid "App storage backup digest is invalid.")
  Work.lift (assertNamespace
    ⟨backup.applicationId, backup.environment, backup.appId, "backup.probe"⟩)
  Work.check (backup.namespaces.length ≤ 16)
    (.app .backupInvalid "App storage backup namespace inventory is invalid.")
  transaction do
    lockApplication
    query (deleteNamespaces backup.applicationId backup.environment backup.appId)
    let _ ← backup.namespaces.foldlM (restoreNamespace host backup.toBackupBody) []

/-- A call and its arguments. -/
inductive Call where
  | ensureNamespace (n : AppStorageNamespace) (schemaVersion quotaBytes : Int)
  | put (n : AppStorageNamespace) (key : String) (value : Unknown) (expectedRevision : Int)
  | delete (n : AppStorageNamespace) (key : String) (expectedRevision : Int)
  | restoreBackup (backup : AppStorageBackup)

def Call.work (host : Host) : Call → Tx (Option AppStorageRecord)
  | .ensureNamespace n v q => do AppStorage.ensureNamespace n v q; pure none
  | .put n key value r => do
    let record ← AppStorage.put host n key value r
    pure (some record)
  | .delete n key r => do AppStorage.delete n key r; pure none
  | .restoreBackup backup => do AppStorage.restoreBackup host backup; pure none

/-- A call and the number of its awaits that go through. -/
structure Ev where
  call : Call
  left : Option Nat := none

def perform (host : Host) (e : Ev) (db : Db) : Except Failure (Option AppStorageRecord) × Db :=
  (e.call.work host).run e.left db

/-! ## What a call did -/

variable {α β : Type} {db db' : Db} {host : Host} {n : AppStorageNamespace}

theorem query_ok {s : Statement α} {a : α} (h : Work.Yields (query s) db a db') :
    s db = .ok (a, db') := by
  unfold query at h
  have h1 := Work.Yields.await_bind h
  obtain ⟨a', db₁, hs, h2⟩ := h1.bind
  obtain ⟨rfl, rfl⟩ := (Work.Yields.await_bind h2).pure_eq
  exact hs.statement

theorem query_bind {s : Statement α} {f : α → Tx β} {b : β}
    (h : Work.Yields (query s >>= f) db b db') :
    ∃ a db₁, s db = .ok (a, db₁) ∧ (f a).Yields db₁ b db' := by
  obtain ⟨a, db₁, hs, hf⟩ := h.bind
  exact ⟨a, db₁, query_ok hs, hf⟩

theorem silent_bind {f : Unit → Tx β} {b : β} (h : Work.Yields (query silent >>= f) db b db') :
    (f ()).Yields db b db' := by
  obtain ⟨_, db₁, hs, hf⟩ := query_bind h
  cases hs
  exact hf

theorem transaction_ok {work : Tx α} {a : α} (h : Work.Yields (transaction work) db a db') :
    work.Yields db a db' := by
  unfold transaction at h
  have h1 := silent_bind (Work.Yields.await_bind (Work.Yields.await_bind h))
  obtain ⟨a', db₁, hw, h2⟩ := h1.bind
  obtain ⟨rfl, rfl⟩ := (Work.Yields.await_bind h2).pure_eq
  exact hw

theorem insertNamespace_ok {row : NamespaceRow} {u : Unit}
    (h : insertNamespace n row db = .ok (u, db')) : db.namespaces.get? n = none ∧
      row.Admissible n ∧ db' = { db with namespaces := db.namespaces.set n row } := by
  unfold insertNamespace at h
  split at h
  · rename_i hc
    cases h
    exact ⟨hc.1, hc.2, rfl⟩
  · cases h

theorem updateNamespace_ok {row : NamespaceRow} {f : NamespaceRow → NamespaceRow} {u : Unit}
    (h : updateNamespace n f db = .ok (u, db')) (hrow : db.namespaces.get? n = some row) :
    (f row).Admissible n ∧ db' = { db with namespaces := db.namespaces.set n (f row) } := by
  unfold updateNamespace at h
  rw [hrow] at h
  dsimp only at h
  split at h
  · rename_i hc
    cases h
    exact ⟨hc, rfl⟩
  · cases h

theorem upsertRecord_ok {key : String} {row : RecordRow} {r : AppStorageRecord}
    (h : upsertRecord n key row db = .ok (r, db')) : row.Admissible key ∧ r = row.record key ∧
      db' = { db with records := db.records.set (n, key) row } := by
  unfold upsertRecord at h
  split at h
  · rename_i hc
    cases h
    exact ⟨hc.2, rfl, rfl⟩
  · cases h

theorem insertRecord_ok {entry : String × RecordRow} (h : insertRecord n db entry = .ok db') :
    db.records.get? (n, entry.1) = none ∧ entry.2.Admissible entry.1 ∧
      db' = { db with records := db.records.set (n, entry.1) entry.2 } := by
  unfold insertRecord at h
  split at h
  · rename_i hc
    cases h
    exact ⟨hc.1, hc.2.2, rfl⟩
  · cases h

theorem valueBytes_ok {value : Unknown} {r : Json × Int} (h : valueBytes value = .ok r) :
    value = some r.1 ∧ r.2 = canonicalLength r.1 := by
  unfold valueBytes at h
  split at h
  · cases h
  · split at h
    · cases h
    · cases h
      exact ⟨rfl, rfl⟩

/-- An accepted value is what the validator returned, with its canonical length. -/
theorem accept_ok {schemaId : String} {value : Unknown} {r : Json × Int}
    (h : host.accept schemaId value = .ok r) :
    host.validate schemaId value = .ok (some r.1) ∧ r.2 = canonicalLength r.1 := by
  unfold Host.accept at h
  simp only [bind_eq_ok] at h
  obtain ⟨v, hv, _, _, hb⟩ := h
  obtain ⟨rfl, hlen⟩ := valueBytes_ok hb
  exact ⟨hv, hlen⟩

/-- `ensureNamespace` creates an empty namespace or changes nothing. -/
theorem ensureNamespace_ok {v q : Int} {u : Unit}
    (h : Work.Yields (ensureNamespace n v q) db u db') : db' = db ∨
      db.namespaces.get? n = none ∧ 1 ≤ q ∧
        db' = { db with namespaces := db.namespaces.set n ⟨v, q, 0, 0⟩ } := by
  unfold ensureNamespace at h
  obtain ⟨_, -, h⟩ := h.lift_bind
  obtain ⟨hlimits, h⟩ := h.check_bind
  obtain ⟨current, db₁, hsel, h⟩ := query_bind (silent_bind (silent_bind (transaction_ok h)))
  cases hsel
  split at h
  · rename_i hnone
    obtain ⟨-, -, rfl⟩ := insertNamespace_ok (query_ok h)
    exact .inr ⟨hnone, hlimits.2.2.2.2.1, rfl⟩
  · exact .inl h.check.2

/-- `put` writes the accepted value one revision above the one it was told, and charges the
namespace for it. -/
theorem put_ok {key : String} {value : Unknown} {r : Int} {rec : AppStorageRecord}
    (h : Work.Yields (put host n key value r) db rec db') :
    ∃ state json,
      db.namespaces.get? n = some state ∧
      host.validate n.schemaId value = .ok (some json) ∧
      currentRevision (db.records.get? (n, key)) = r ∧ 0 ≤ r ∧
      state.usedBytes - ((db.records.get? (n, key)).map RecordRow.valueBytes).getD 0 +
        canonicalLength json ≤ state.quotaBytes ∧
      rec = ⟨key, json, r + 1, canonicalLength json⟩ ∧
      db' = {
        namespaces := db.namespaces.set n { state with
          usedBytes := state.usedBytes -
            ((db.records.get? (n, key)).map RecordRow.valueBytes).getD 0 + canonicalLength json
          revision := state.revision + 1 }
        records := db.records.set (n, key) ⟨json, canonicalLength json, r + 1⟩ } := by
  unfold put at h
  obtain ⟨_, -, h⟩ := (Work.Yields.await_bind h).lift_bind
  obtain ⟨_, -, h⟩ := h.lift_bind
  obtain ⟨hr, h⟩ := h.check_bind
  obtain ⟨⟨json, bytes⟩, hacc, h⟩ := h.lift_bind
  obtain ⟨hval, hbytes⟩ := accept_ok hacc
  dsimp only at hval hbytes
  subst hbytes
  obtain ⟨_, db₁, hsel, h⟩ := query_bind (silent_bind (silent_bind (transaction_ok h)))
  cases hsel
  obtain ⟨state, hstate, h⟩ := h.require_bind
  obtain ⟨_, db₁, hsel, h⟩ := query_bind h
  cases hsel
  obtain ⟨hrev, h⟩ := h.check_bind
  obtain ⟨hquota, h⟩ := h.check_bind
  obtain ⟨result, db₁, hup, h⟩ := query_bind h
  obtain ⟨-, rfl, rfl⟩ := upsertRecord_ok hup
  obtain ⟨_, db₂, hupdate, h⟩ := query_bind h
  obtain ⟨-, rfl⟩ := updateNamespace_ok hupdate hstate
  obtain ⟨rfl, rfl⟩ := h.pure_eq
  exact ⟨state, json, hstate, hval, hrev, hr.2, hquota, rfl, rfl⟩

/-- `delete` removes the record at the revision it was told, and credits the namespace. -/
theorem delete_ok {key : String} {r : Int} {u : Unit}
    (h : Work.Yields (delete n key r) db u db') :
    ∃ state row,
      db.namespaces.get? n = some state ∧ db.records.get? (n, key) = some row ∧
      row.revision = r ∧
      db' = {
        namespaces := db.namespaces.set n { state with
          usedBytes := state.usedBytes - row.valueBytes
          revision := state.revision + 1 }
        records := db.records.delete (n, key) } := by
  unfold delete at h
  obtain ⟨_, -, h⟩ := (Work.Yields.await_bind h).lift_bind
  obtain ⟨_, -, h⟩ := h.lift_bind
  obtain ⟨_, db₁, hsel, h⟩ := query_bind (silent_bind (silent_bind (transaction_ok h)))
  cases hsel
  obtain ⟨state, hstate, h⟩ := h.require_bind
  obtain ⟨_, db₁, hsel, h⟩ := query_bind h
  cases hsel
  obtain ⟨row, hrow, h⟩ := h.require_bind
  rw [Option.filter_eq_some_iff, decide_eq_true_eq] at hrow
  obtain ⟨_, db₁, hdel, h⟩ := query_bind h
  cases hdel
  obtain ⟨-, rfl⟩ := updateNamespace_ok (query_ok h) hstate
  exact ⟨state, row, hstate, hrow.1, hrow.2, rfl⟩

/-- A call that throws leaves the tables as they were, at whatever await it stopped. -/
theorem perform_error {e : Ev} {err : Failure} (h : (perform host e db).1 = .error err) :
    (perform host e db).2 = db :=
  Work.run_error (Prod.ext h rfl : perform host e db = (.error err, (perform host e db).2))

theorem perform_ok {e : Ev} {r : Option AppStorageRecord} (h : (perform host e db).1 = .ok r) :
    Work.Yields (e.call.work host) db r (perform host e db).2 :=
  Work.run_ok (Prod.ext h rfl : perform host e db = (.ok r, (perform host e db).2))

/-- The call returned. -/
def Call.Did (host : Host) (db db' : Db) : Call → Prop
  | .ensureNamespace n v q => Work.Yields (AppStorage.ensureNamespace n v q) db () db'
  | .put n key value r => ∃ rec, Work.Yields (AppStorage.put host n key value r) db rec db'
  | .delete n key r => Work.Yields (AppStorage.delete n key r) db () db'
  | .restoreBackup backup => Work.Yields (AppStorage.restoreBackup host backup) db () db'

theorem Call.did {c : Call} {r : Option AppStorageRecord}
    (h : Work.Yields (c.work host) db r db') : c.Did host db db' := by
  cases c <;> unfold Call.work at h <;> obtain ⟨x, db₁, hw, h⟩ := h.bind <;>
    obtain ⟨-, rfl⟩ := h.pure_eq
  · exact hw
  · exact ⟨x, hw⟩
  · exact hw
  · exact hw

/-- A call throws and changes nothing, or returns. -/
theorem perform_cases (host : Host) (e : Ev) (db : Db) :
    (∃ err, (perform host e db).1 = .error err ∧ (perform host e db).2 = db) ∨
      ∃ r, (perform host e db).1 = .ok r ∧ e.call.Did host db (perform host e db).2 := by
  cases h : (perform host e db).1 with
  | error err => exact .inl ⟨err, rfl, perform_error h⟩
  | ok r => exact .inr ⟨r, rfl, Call.did (perform_ok h)⟩

end KNex.AppStorage
