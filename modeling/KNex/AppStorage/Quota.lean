import KNex.AppStorage.Storage
import KNex.Core.LTS

/-!
# App storage: what a namespace has used

In every state of a run, `used_bytes` of a namespace is the sum of `value_bytes` of its records and
within its quota, `value_bytes` of a record is the canonical length of its value, and a call that
throws changed nothing (`Accounted`, `Lawful`).

The sums hold whatever the host does (`booked_perform`). The lengths do not: `restoreBackup`
validates the value of a record, compares the length of what the validator returned with the
backup's `bytes`, and then stores the value it was given, where `put` stores what the validator
returned. A validator that changes a value so makes `restoreBackup` store a value of another length
(`restored_length`). `lawful_iff_normal`: a run is lawful in all its states exactly when every
backup that was restored holds values whose length the validator keeps.
-/
namespace KNex.AppStorage

open KNex.Core

/-! ## The law -/

def weight (n : AppStorageNamespace) (k : RecordKey) (row : RecordRow) : Int :=
  if k.1 = n then row.valueBytes else 0

/-- The sum of `value_bytes` over the records of a namespace. -/
def Db.stored (db : Db) (n : AppStorageNamespace) : Int := db.records.sum (weight n)

structure Accounted (db : Db) : Prop where
  used : ∀ n row, db.namespaces.get? n = some row → row.usedBytes = db.stored n
  quota : ∀ n row, db.namespaces.get? n = some row → row.usedBytes ≤ row.quotaBytes
  canonical : ∀ k row, db.records.get? k = some row → row.valueBytes = canonicalLength row.value

def lts (host : Host) : LTS Db Ev :=
  .ofFn (· = .empty) fun db e => some (perform host e db).2

/-- The state reached is accounted, and a call that threw left the state as it was. -/
def Lawful (host : Host) (db : Db) (e : Ev) (db' : Db) : Prop :=
  Accounted db' ∧ ∀ err, (perform host e db).1 = .error err → db' = db

/-- Each record's value has the length that its validated form has. -/
def BackupBody.Normal (host : Host) (body : BackupBody) : Prop :=
  ∀ ns ∈ body.namespaces, ∀ r ∈ ns.records, ∀ json,
    host.validate ns.schemaId (some r.value) = .ok (some json) →
      canonicalLength json = canonicalLength r.value

/-- A backup that is restored is normal. -/
def Normal (host : Host) (db : Db) (e : Ev) (_ : Db) : Prop :=
  match e.call with
  | .restoreBackup backup =>
    (∃ r, (perform host e db).1 = .ok r) → backup.toBackupBody.Normal host
  | _ => True

/-! ## Books -/

/-- The part of the law that no host can break, and constraints of the table of records. -/
structure Booked (db : Db) : Prop where
  used : ∀ n row, db.namespaces.get? n = some row → row.usedBytes = db.stored n
  quota : ∀ n row, db.namespaces.get? n = some row → row.usedBytes ≤ row.quotaBytes
  owned : ∀ k row, db.records.get? k = some row → (db.namespaces.get? k.1).isSome
  positive : ∀ k row, db.records.get? k = some row → 0 ≤ row.valueBytes

variable {db db' : Db} {host : Host} {n : AppStorageNamespace}

theorem booked_empty : Booked .empty := by
  refine ⟨?_, ?_, ?_, ?_⟩ <;> simp [Db.empty]

theorem Booked.stored_eq_zero (hB : Booked db) (hn : db.namespaces.get? n = none) :
    db.stored n = 0 := by
  refine JsMap.sum_eq_zero fun k row hk => ?_
  unfold weight
  rw [if_neg]
  intro he
  have := hB.owned k row hk
  rw [he, hn] at this
  cases this

theorem weight_ne {m : AppStorageNamespace} {key : String} (row : RecordRow) (h : m ≠ n) :
    weight m (n, key) row = 0 := if_neg fun he => h he.symm

@[simp] theorem weight_self (key : String) (row : RecordRow) :
    weight n (n, key) row = row.valueBytes := if_pos rfl

/-- The charge of an insert or an overwrite. -/
theorem stored_set (db : Db) (key : String) (row : RecordRow) :
    Db.stored { db with records := db.records.set (n, key) row } n =
      db.stored n - ((db.records.get? (n, key)).map RecordRow.valueBytes).getD 0 +
        row.valueBytes := by
  unfold Db.stored
  cases h : db.records.get? (n, key) with
  | none =>
    rw [JsMap.sum_set_of_none h]
    simp
  | some old =>
    rw [JsMap.sum_set_of_some h]
    simp

theorem stored_set_ne (db : Db) (key : String) (row : RecordRow) {m : AppStorageNamespace}
    (hm : m ≠ n) :
    Db.stored { db with records := db.records.set (n, key) row } m = db.stored m := by
  unfold Db.stored
  cases h : db.records.get? (n, key) with
  | none => rw [JsMap.sum_set_of_none h, weight_ne row hm, Int.add_zero]
  | some old => rw [JsMap.sum_set_of_some h, weight_ne row hm, weight_ne old hm]; omega

theorem stored_delete {key : String} {old : RecordRow}
    (h : db.records.get? (n, key) = some old) (m : AppStorageNamespace) :
    Db.stored { db with records := db.records.delete (n, key) } m =
      db.stored m - weight m (n, key) old :=
  JsMap.sum_delete h (weight m)

/-- The tables after the row of a namespace and its records were changed together. -/
theorem Booked.change (hB : Booked db) {row : NamespaceRow} {records : JsMap RecordKey RecordRow}
    (hused : row.usedBytes = records.sum (weight n)) (hquota : row.usedBytes ≤ row.quotaBytes)
    (hother : ∀ m, m ≠ n → records.sum (weight m) = db.stored m)
    (hrecords : ∀ k r, records.get? k = some r →
      db.records.get? k = some r ∨ k.1 = n ∧ 0 ≤ r.valueBytes) :
    Booked ⟨db.namespaces.set n row, records⟩ := by
  refine ⟨fun m r hm => ?_, fun m r hm => ?_, fun k r hk => ?_, fun k r hk => ?_⟩
  · dsimp only at hm
    rw [JsMap.get?_set] at hm
    split at hm
    · rename_i he
      cases hm
      rw [he, hused]
      rfl
    · rename_i hne
      rw [hB.used m r hm]
      exact (hother m hne).symm
  · dsimp only at hm
    rw [JsMap.get?_set] at hm
    split at hm
    · cases hm
      exact hquota
    · exact hB.quota m r hm
  · dsimp only
    rw [JsMap.get?_set]
    split
    · rfl
    · rename_i hne
      exact (hrecords k r hk).elim (hB.owned k r) fun h => absurd h.1 hne
  · exact (hrecords k r hk).elim (hB.positive k r) fun h => h.2

theorem Booked.ensureNamespace {v q : Int} {u : Unit} (hB : Booked db)
    (h : Work.Yields (ensureNamespace n v q) db u db') : Booked db' := by
  rcases ensureNamespace_ok h with rfl | ⟨hnone, hq, rfl⟩
  · exact hB
  · exact hB.change (hB.stored_eq_zero hnone).symm (by dsimp only; omega) (fun _ _ => rfl)
      fun _ _ => .inl

theorem Booked.put {key : String} {value : Unknown} {r : Int} {rec : AppStorageRecord}
    (hB : Booked db) (h : Work.Yields (put host n key value r) db rec db') : Booked db' := by
  obtain ⟨state, json, hstate, -, -, -, hquota, -, rfl⟩ := put_ok h
  refine hB.change ?_ hquota (fun m hm => stored_set_ne db key _ hm) fun k row hk => ?_
  · have := stored_set (n := n) db key ⟨json, canonicalLength json, r + 1⟩
    rw [← hB.used n state hstate] at this
    exact this.symm
  · rw [JsMap.get?_set] at hk
    split at hk
    · rename_i he
      cases hk
      exact .inr ⟨by rw [he], Int.natCast_nonneg _⟩
    · exact .inl hk

theorem Booked.delete {key : String} {r : Int} {u : Unit} (hB : Booked db)
    (h : Work.Yields (delete n key r) db u db') : Booked db' := by
  obtain ⟨state, row, hstate, hrow, -, rfl⟩ := delete_ok h
  refine hB.change ?_ ?_ (fun m hm => ?_) fun k r' hk => ?_
  · have := stored_delete hrow n
    rw [weight_self, ← hB.used n state hstate] at this
    exact this.symm
  · have hpos := hB.positive _ row hrow
    have hquota := hB.quota n state hstate
    dsimp only
    omega
  · have := stored_delete hrow m
    rw [weight_ne row hm, Int.sub_zero] at this
    exact this
  · rw [JsMap.get?_delete] at hk
    split at hk
    · cases hk
    · exact .inl hk

/-! ## Restoring a backup -/

/-- What inserting rows into a namespace did. -/
structure Inserted (n : AppStorageNamespace) (rows : List (String × RecordRow)) (db db' : Db) :
    Prop where
  namespaces : db'.namespaces = db.namespaces
  kept : ∀ k row, db.records.get? k = some row → db'.records.get? k = some row
  added : ∀ e ∈ rows, db'.records.get? (n, e.1) = some e.2 ∧ 0 ≤ e.2.valueBytes
  only : ∀ k row, db'.records.get? k = some row →
    db.records.get? k = some row ∨ ∃ e ∈ rows, k = (n, e.1) ∧ row = e.2
  stored : db'.stored n = db.stored n + (rows.map fun e => e.2.valueBytes).sum
  others : ∀ m, m ≠ n → db'.stored m = db.stored m

theorem Inserted.refl : Inserted n [] db db :=
  ⟨rfl, fun _ _ h => h, fun _ h => absurd h List.not_mem_nil, fun _ _ => .inl, by simp,
    fun _ _ => rfl⟩

theorem Inserted.trans {db₁ : Db} {rows rows' : List (String × RecordRow)}
    (h : Inserted n rows db db₁) (h' : Inserted n rows' db₁ db') :
    Inserted n (rows ++ rows') db db' := by
  refine ⟨h'.namespaces.trans h.namespaces, fun k row hk => h'.kept k row (h.kept k row hk),
    fun e he => ?_, fun k row hk => ?_, ?_, fun m hm => (h'.others m hm).trans (h.others m hm)⟩
  · rcases List.mem_append.mp he with he | he
    · exact ⟨h'.kept _ _ (h.added e he).1, (h.added e he).2⟩
    · exact h'.added e he
  · rcases h'.only k row hk with hk | ⟨e, he, heq⟩
    · rcases h.only k row hk with hk | ⟨e, he, heq⟩
      · exact .inl hk
      · exact .inr ⟨e, List.mem_append_left _ he, heq⟩
    · exact .inr ⟨e, List.mem_append_right _ he, heq⟩
  · rw [h'.stored, h.stored, List.map_append, List.sum_append]
    omega

theorem inserted_one {e : String × RecordRow} (h : insertRecord n db e = .ok db') :
    Inserted n [e] db db' := by
  obtain ⟨hnone, hadm, rfl⟩ := insertRecord_ok h
  refine ⟨rfl, fun k row hk => ?_, fun e' he => ?_, fun k row hk => ?_, ?_,
    fun m hm => stored_set_ne db e.1 e.2 hm⟩
  · dsimp only
    rw [JsMap.get?_set_ne _ _ fun he => ?_, hk]
    rw [he, hnone] at hk
    cases hk
  · rw [List.mem_singleton] at he
    subst he
    have := hadm.2.1.1
    exact ⟨JsMap.get?_set_self _ _ _, by omega⟩
  · dsimp only at hk
    rw [JsMap.get?_set] at hk
    split at hk
    · rename_i he
      cases hk
      exact .inr ⟨e, List.mem_singleton_self e, he, rfl⟩
    · exact .inl hk
  · rw [stored_set, hnone]
    simp

theorem inserted_rows {rows : List (String × RecordRow)} {u : Unit}
    (h : insertRecords n rows db = .ok (u, db')) : Inserted n rows db db' := by
  unfold insertRecords at h
  obtain ⟨d, hd, he⟩ := map_eq_ok.mp h
  cases he
  refine foldlM_eq_ok (P := fun gone d => Inserted n gone db d) hd .refl ?_
  intro gone e rest d d' _ hgone hstep
  exact hgone.trans (inserted_one hstep)

/-- The pages are the list, cut into pieces. -/
theorem flatten_pages {α : Type} (l : List α) : (pages l).flatten = l := by
  have htake : ∀ k, ((List.range k).map fun i =>
      (l.drop (i * backupPageSize)).take backupPageSize).flatten = l.take (k * backupPageSize) := by
    intro k
    induction k with
    | zero => simp
    | succ k ih =>
      rw [List.range_succ, List.map_append, List.flatten_append, ih, Nat.succ_mul, List.take_add]
      simp
  rw [pages, htake]
  refine List.take_of_length_le ?_
  unfold backupPageSize
  omega

theorem inserted_pages {records : List AppStorageRecord} {u : Unit}
    (h : Work.Yields (forM (pages records) fun page =>
      query (insertRecords n (page.map AppStorageRecord.entry))) db u db') :
    Inserted n (records.map AppStorageRecord.entry) db db' := by
  have hall : Inserted n ((pages records).flatten.map AppStorageRecord.entry) db db' := by
    refine h.forM (P := fun gone d => Inserted n (gone.flatten.map AppStorageRecord.entry) db d)
      .refl ?_
    intro gone page rest d d' _ hgone hpage
    have := hgone.trans (inserted_rows (query_ok hpage))
    rwa [List.flatten_append, List.map_append, List.flatten_singleton]
  rwa [flatten_pages] at hall

/-- The bytes of a record of a backup are the length of its validated value. -/
def AppStorageRecord.Checked (host : Host) (schemaId : String) (r : AppStorageRecord) : Prop :=
  ∃ json, host.validate schemaId (some r.value) = .ok (some json) ∧ r.bytes = canonicalLength json

theorem checkRecord_ok {schemaId : String} {r : AppStorageRecord} {seen seen' : Int × List String}
    (h : checkRecord host schemaId seen r = .ok seen') :
    r.Checked host schemaId ∧ seen'.1 = seen.1 + r.bytes := by
  unfold checkRecord at h
  simp only [bind_eq_ok] at h
  obtain ⟨_, -, h⟩ := h
  split at h
  · cases h
  · obtain ⟨⟨json, bytes⟩, hacc, h⟩ := bind_eq_ok.mp h
    obtain ⟨hval, hlen⟩ := accept_ok hacc
    dsimp only at hval hlen h
    split at h
    · cases h
    · rename_i hbytes
      rw [not_not] at hbytes
      cases h
      exact ⟨⟨json, hval, hbytes ▸ hlen⟩, by dsimp only; omega⟩

theorem checkRecords_ok {schemaId : String} {records : List AppStorageRecord}
    {seen : Int × List String}
    (h : records.foldlM (checkRecord host schemaId) (0, []) = .ok seen) :
    (∀ r ∈ records, r.Checked host schemaId) ∧
      seen.1 = (records.map AppStorageRecord.bytes).sum := by
  refine foldlM_eq_ok (P := fun gone s => (∀ r ∈ gone, r.Checked host schemaId) ∧
    s.1 = (gone.map AppStorageRecord.bytes).sum) h ⟨by simp, rfl⟩ ?_
  intro gone r rest s s' _ ⟨hgone, hsum⟩ hr
  obtain ⟨hchecked, hs⟩ := checkRecord_ok hr
  refine ⟨fun r' hr' => ?_, by simp [hs, hsum]⟩
  rcases List.mem_append.mp hr' with hr' | hr'
  · exact hgone r' hr'
  · rw [List.mem_singleton] at hr'
    exact hr' ▸ hchecked

/-- What restoring some namespaces of a backup did: their records are in the table as they stand
in the backup, and nothing else was added. -/
structure Restored (host : Host) (body : BackupBody) (done : List BackupNamespace) (db db' : Db) :
    Prop where
  checked : ∀ ns ∈ done, ∀ r ∈ ns.records, r.Checked host ns.schemaId
  added : ∀ ns ∈ done, ∀ r ∈ ns.records,
    db'.records.get? (body.namespace ns, r.key) = some r.entry.2
  only : ∀ k row, db'.records.get? k = some row → db.records.get? k = some row ∨
    ∃ ns ∈ done, ∃ r ∈ ns.records, row = r.entry.2

theorem restoreNamespace_ok {body : BackupBody} {ids ids' : List String} {ns : BackupNamespace}
    (hB : Booked db) (h : Work.Yields (restoreNamespace host body ids ns) db ids' db') :
    Booked db' ∧ (∀ r ∈ ns.records, r.Checked host ns.schemaId) ∧ ∃ db₁,
      db₁.records = db.records ∧
      Inserted (body.namespace ns) (ns.records.map AppStorageRecord.entry) db₁ db' := by
  unfold restoreNamespace at h
  obtain ⟨-, h⟩ := h.check_bind
  obtain ⟨⟨used, keys⟩, hrecords, h⟩ := h.lift_bind
  obtain ⟨hchecked, hused⟩ := checkRecords_ok hrecords
  obtain ⟨hquota, h⟩ := h.check_bind
  dsimp only at hused hquota h
  obtain ⟨_, db₁, hns, h⟩ := query_bind h
  obtain ⟨hnone, -, rfl⟩ := insertNamespace_ok hns
  obtain ⟨_, db₂, hpages, h⟩ := h.bind
  obtain ⟨-, rfl⟩ := h.pure_eq
  have hins := inserted_pages hpages
  refine ⟨?_, hchecked, _, ?_, hins⟩
  rotate_left
  · rfl
  have hbytes : (ns.records.map AppStorageRecord.entry).map (fun e => e.2.valueBytes) =
      ns.records.map AppStorageRecord.bytes := by simp [AppStorageRecord.entry]
  -- no record belonged to the namespace before its row was inserted
  have hzero := hB.stored_eq_zero hnone
  have hstored : db'.stored (body.namespace ns) = used := by
    rw [hins.stored, hbytes, ← hused]
    show db.stored (body.namespace ns) + used = used
    omega
  have hdb : db' = ⟨db.namespaces.set (body.namespace ns)
      ⟨ns.schemaVersion, ns.quotaBytes, used, ns.revision⟩, db'.records⟩ := by
    rw [show db.namespaces.set (body.namespace ns) _ = db'.namespaces from hins.namespaces.symm]
  rw [hdb]
  refine hB.change hstored.symm hquota (fun m hm => hins.others m hm) fun k r hk => ?_
  rcases hins.only k r hk with hk | ⟨e, he, rfl, rfl⟩
  · exact .inl hk
  · exact .inr ⟨rfl, (hins.added e he).2⟩

theorem Restored.snoc {body : BackupBody} {done : List BackupNamespace} {ns : BackupNamespace}
    {db₁ db₂ : Db} (hR : Restored host body done db db₁)
    (hchecked : ∀ r ∈ ns.records, r.Checked host ns.schemaId) (hrecords : db₂.records = db₁.records)
    (hins : Inserted (body.namespace ns) (ns.records.map AppStorageRecord.entry) db₂ db') :
    Restored host body (done ++ [ns]) db db' := by
  have hmem : ∀ x ∈ done ++ [ns], x ∈ done ∨ x = ns := by
    intro x hx
    simpa using hx
  refine ⟨fun x hx r hr => ?_, fun x hx r hr => ?_, fun k row hk => ?_⟩
  · rcases hmem x hx with hx | rfl
    · exact hR.checked x hx r hr
    · exact hchecked r hr
  · rcases hmem x hx with hx | rfl
    · refine hins.kept _ _ ?_
      rw [hrecords]
      exact hR.added x hx r hr
    · exact (hins.added r.entry (List.mem_map_of_mem hr)).1
  · rcases hins.only k row hk with hk | ⟨e, he, -, rfl⟩
    · rw [hrecords] at hk
      rcases hR.only k row hk with hk | ⟨x, hx, hrow⟩
      · exact .inl hk
      · exact .inr ⟨x, List.mem_append_left _ hx, hrow⟩
    · obtain ⟨r, hr, rfl⟩ := List.mem_map.mp he
      exact .inr ⟨ns, by simp, r, hr, rfl⟩

theorem Booked.deleteNamespaces {app env id : String} {u : Unit} (hB : Booked db)
    (h : deleteNamespaces app env id db = .ok (u, db')) : Booked db' ∧
      ∀ k row, db'.records.get? k = some row → db.records.get? k = some row := by
  cases h
  have hns : ∀ m row, (db.namespaces.filter fun n _ => !n.ofApp app env id).get? m = some row →
      db.namespaces.get? m = some row ∧ m.ofApp app env id = false := by
    intro m row hm
    rw [JsMap.get?_filter, Option.filter_eq_some_iff] at hm
    exact ⟨hm.1, by simpa using hm.2⟩
  have hrec : ∀ k row, (db.records.filter fun k _ => !k.1.ofApp app env id).get? k = some row →
      db.records.get? k = some row ∧ k.1.ofApp app env id = false := by
    intro k row hk
    rw [JsMap.get?_filter, Option.filter_eq_some_iff] at hk
    exact ⟨hk.1, by simpa using hk.2⟩
  refine ⟨⟨fun m row hm => ?_, fun m row hm => hB.quota m row (hns m row hm).1, fun k row hk => ?_,
    fun k row hk => hB.positive k row (hrec k row hk).1⟩, fun k row hk => (hrec k row hk).1⟩
  · obtain ⟨hm, hkeep⟩ := hns m row hm
    rw [hB.used m row hm]
    refine (JsMap.sum_filter _ _ _ fun k r hk => ?_).symm
    -- a deleted record is of another namespace
    unfold weight
    rw [if_neg]
    intro he
    rw [he, hkeep] at hk
    cases hk
  · obtain ⟨hk, hkeep⟩ := hrec k row hk
    have hown := hB.owned k row hk
    dsimp only
    rw [JsMap.get?_filter]
    obtain ⟨state, hstate⟩ := Option.isSome_iff_exists.mp hown
    rw [hstate, Option.filter_some, hkeep]
    rfl

/-- A restored backup: the books are right, and its records are the application's. -/
theorem restoreBackup_ok {backup : AppStorageBackup} {u : Unit} (hB : Booked db)
    (h : Work.Yields (restoreBackup host backup) db u db') : Booked db' ∧
      Restored host backup.toBackupBody backup.namespaces db db' := by
  unfold restoreBackup at h
  obtain ⟨-, h⟩ := h.check_bind
  obtain ⟨_, -, h⟩ := h.lift_bind
  obtain ⟨-, h⟩ := h.check_bind
  obtain ⟨_, db₁, hdel, h⟩ := query_bind (silent_bind (transaction_ok h))
  obtain ⟨hB₁, hkept⟩ := hB.deleteNamespaces hdel
  obtain ⟨_, db₂, hfold, h⟩ := h.bind
  obtain ⟨-, rfl⟩ := h.pure_eq
  refine hfold.foldlM (P := fun done _ d => Booked d ∧ Restored host backup.toBackupBody done db d)
    ⟨hB₁, by simp, by simp, fun k row hk => .inl (hkept k row hk)⟩ ?_
  intro gone ns rest ids ids' d d' _ ⟨hBd, hR⟩ hstep
  obtain ⟨hBd', hchecked, d₁, hd₁, hins⟩ := restoreNamespace_ok hBd hstep
  exact ⟨hBd', hR.snoc hchecked hd₁ hins⟩

/-! ## Every call -/

/-- `value_bytes` is the canonical length of the value. -/
def Canonical (db : Db) : Prop :=
  ∀ k row, db.records.get? k = some row → row.valueBytes = canonicalLength row.value

theorem accounted_iff (hB : Booked db) : Accounted db ↔ Canonical db :=
  ⟨fun h => h.canonical, fun h => ⟨hB.used, hB.quota, h⟩⟩

theorem booked_did {c : Call} (hB : Booked db) (h : c.Did host db db') : Booked db' := by
  cases c with
  | ensureNamespace n v q => exact hB.ensureNamespace h
  | put n key value r =>
    obtain ⟨rec, h⟩ := h
    exact hB.put h
  | delete n key r => exact hB.delete h
  | restoreBackup backup => exact (restoreBackup_ok hB h).1

theorem booked_perform (hB : Booked db) (e : Ev) : Booked (perform host e db).2 := by
  rcases perform_cases host e db with ⟨err, -, h⟩ | ⟨r, -, h⟩
  · rw [h]
    exact hB
  · exact booked_did hB h

/-- Every call but a restore keeps the lengths; a restore does if its backup is normal. -/
theorem canonical_did {c : Call} (hB : Booked db) (hC : Canonical db) (h : c.Did host db db')
    (hnormal : ∀ backup, c = .restoreBackup backup → backup.toBackupBody.Normal host) :
    Canonical db' := by
  intro k row hk
  cases c with
  | ensureNamespace n v q =>
    rcases ensureNamespace_ok h with rfl | ⟨-, -, rfl⟩
    · exact hC k row hk
    · exact hC k row hk
  | put n key value r =>
    obtain ⟨rec, h⟩ := h
    obtain ⟨state, json, -, -, -, -, -, -, rfl⟩ := put_ok h
    dsimp only at hk
    rw [JsMap.get?_set] at hk
    split at hk
    · cases hk; rfl
    · exact hC k row hk
  | delete n key r =>
    obtain ⟨state, old, -, -, -, rfl⟩ := delete_ok h
    dsimp only at hk
    rw [JsMap.get?_delete] at hk
    split at hk
    · cases hk
    · exact hC k row hk
  | restoreBackup backup =>
    obtain ⟨-, hR⟩ := restoreBackup_ok hB h
    rcases hR.only k row hk with hk | ⟨ns, hns, r, hr, rfl⟩
    · exact hC k row hk
    · obtain ⟨json, hval, hbytes⟩ := hR.checked ns hns r hr
      show r.bytes = canonicalLength r.value
      rw [hbytes, hnormal backup rfl ns hns r hr json hval]

/-- A restore that kept the lengths restored a normal backup. -/
theorem normal_of_canonical {backup : AppStorageBackup} (hB : Booked db)
    (h : (Call.restoreBackup backup).Did host db db') (hC : Canonical db') :
    backup.toBackupBody.Normal host := by
  intro ns hns r hr json hval
  obtain ⟨-, hR⟩ := restoreBackup_ok hB h
  obtain ⟨json', hval', hbytes⟩ := hR.checked ns hns r hr
  rw [hval] at hval'
  cases hval'
  rw [← hbytes]
  exact hC _ _ (hR.added ns hns r hr)

theorem lawful_iff {e : Ev} (hB : Booked db) (hC : Canonical db) :
    Lawful host db e (perform host e db).2 ↔ Normal host db e (perform host e db).2 := by
  unfold Lawful Normal
  rw [accounted_iff (booked_perform hB e)]
  constructor
  · intro hlaw
    split
    · rename_i backup hcall
      intro hret
      rcases perform_cases host e db with ⟨err, herr, -⟩ | ⟨r, -, hdid⟩
      · obtain ⟨r, hr⟩ := hret
        rw [herr] at hr
        cases hr
      · rw [hcall] at hdid
        exact normal_of_canonical hB hdid hlaw.1
    · trivial
  · intro hnormal
    refine ⟨?_, fun err herr => perform_error herr⟩
    rcases perform_cases host e db with ⟨err, -, h⟩ | ⟨r, hr, hdid⟩
    · rw [h]
      exact hC
    · refine canonical_did hB hC hdid fun backup hcall => ?_
      rw [hcall] at hnormal
      exact hnormal ⟨r, hr⟩

/-- **Quota accounting.** In a run each state is accounted and each call that throws changes
nothing, exactly when every backup that the run restores is normal. -/
theorem lawful_iff_normal (host : Host) (es : List Ev) (db : Db) :
    ((lts host).guard (Lawful host)).Run .empty es db ↔
      ((lts host).guard (Normal host)).Run .empty es db := by
  have hpres : ∀ d e d', (Booked d ∧ Canonical d) → (lts host).step d e d' →
      Normal host d e d' → Booked d' ∧ Canonical d' := by
    intro d e d' ⟨hB, hC⟩ hs hn
    cases hs
    exact ⟨booked_perform hB e, ((lawful_iff hB hC).mpr hn).1.canonical⟩
  refine LTS.guard_run_iff hpres ?_ ⟨booked_empty, fun k row hk => ?_⟩
  · intro d e d' ⟨hB, hC⟩ hs
    cases hs
    exact lawful_iff hB hC
  · cases hk

/-! ## A validator that fills in a default -/

/-- A host whose documents are objects; it reads `null` as the empty one. -/
def exampleHost : Host where
  validate _ value :=
    match value with
    | some .null => .ok (some (.obj []))
    | some (.obj fields) => .ok (some (.obj fields))
    | _ => .error (.host "document is invalid")
  assertSafe _ := .ok ()
  digest _ := "sha256:notes"

def exampleBackup : AppStorageBackup where
  applicationId := "customer"
  environment := "production"
  appId := "app.notes"
  namespaces := [⟨"notes", 1, 100, 0, [⟨"first", .null, 1, 3⟩]⟩]
  digest := "sha256:notes"

/-- The record is charged three bytes, the length of the empty object, and holds `null`, of five. -/
theorem restored_length : ∃ host es db, (lts host).Run .empty es db ∧ ¬ Accounted db := by
  refine ⟨exampleHost, [⟨.restoreBackup exampleBackup, none⟩], _, .cons rfl (.nil _), fun h => ?_⟩
  have hlen := h.canonical (⟨"customer", "production", "app.notes", "notes"⟩, "first")
    ⟨.null, 3, 1⟩ (by decide)
  exact absurd hlen (by decide)

end KNex.AppStorage
