import KNex.AppStorage.Storage
import KNex.Core.LTS
import Mathlib.Data.List.Induction

/-!
# App storage: what a revision stands for

A caller that read a record names its revision in `put` and `delete`; the call is refused when the
record has another one. `history` lists the changes of records, in the order of their transactions;
the records a run starts with are its first entries. The law (`Lawful`): no key has had two values
under one revision, and a call that returned had named a revision that the record has had at no
earlier point after which it was changed.

`put` counts up from the revision it was told and `delete` removes the row, revision and all. A key
that is deleted and created again so starts at revision 1 again, and a caller that still holds the
first revision 1 overwrites the second (`recreated`). `lawful_iff_createsNew`: a run is lawful in
all its steps exactly when no `put` creates a record under a key that had one before.
-/
namespace KNex.AppStorage.Revisions

open KNex.Core

/-! ## Histories -/

/-- A write of a revision and a value under a key, or a deletion. -/
structure Change where
  key : RecordKey
  row : Option (Int × Json)
  deriving DecidableEq

def Change.revision (c : Change) : Int := (c.row.map Prod.fst).getD 0

/-- The revision of a key after some changes; `0` when there is no record. -/
def revisionAfter (h : List Change) (k : RecordKey) : Int :=
  h.foldl (fun r c => if c.key = k then c.revision else r) 0

@[simp] theorem revisionAfter_nil (k : RecordKey) : revisionAfter [] k = 0 := rfl

theorem revisionAfter_snoc (h : List Change) (c : Change) (k : RecordKey) :
    revisionAfter (h ++ [c]) k = if c.key = k then c.revision else revisionAfter h k := by
  simp [revisionAfter]

/-- Whether the key was ever changed. -/
def Touched (h : List Change) (k : RecordKey) : Prop := ∃ c ∈ h, c.key = k

theorem touched_snoc {h : List Change} {c : Change} {k : RecordKey} :
    Touched (h ++ [c]) k ↔ Touched h k ∨ c.key = k := by
  unfold Touched
  constructor
  · intro ⟨d, hd, hk⟩
    rcases List.mem_append.mp hd with hd | hd
    · exact .inl ⟨d, hd, hk⟩
    · rw [List.mem_singleton] at hd
      exact .inr (hd ▸ hk)
  · intro hor
    rcases hor with ⟨d, hd, hk⟩ | hk
    · exact ⟨d, List.mem_append_left _ hd, hk⟩
    · exact ⟨c, by simp, hk⟩

theorem revisionAfter_append {since : List Change} {k : RecordKey} (before : List Change)
    (hk : ¬ Touched since k) : revisionAfter (before ++ since) k = revisionAfter before k := by
  induction since using List.reverseRecOn with
  | nil => rw [List.append_nil]
  | append_singleton since c ih =>
    rw [touched_snoc, not_or] at hk
    rw [← List.append_assoc, revisionAfter_snoc, if_neg hk.2, ih hk.1]

theorem revisionAfter_untouched {h : List Change} {k : RecordKey} (hk : ¬ Touched h k) :
    revisionAfter h k = 0 :=
  revisionAfter_append [] hk

/-- No key has had two values under one revision. -/
def Unambiguous (h : List Change) : Prop :=
  ∀ c ∈ h, ∀ d ∈ h, c.key = d.key → ∀ r v w, c.row = some (r, v) → d.row = some (r, w) → v = w

/-- The revision named for the key is one of no earlier point after which it was changed. -/
def Fresh (h : List Change) (k : RecordKey) (named : Int) : Prop :=
  ∀ before since, h = before ++ since → revisionAfter before k = named → ¬ Touched since k

/-! ## Runs -/

structure St where
  db : Db
  history : List Change

/-- The key and the revision that a call names. -/
def Call.named : Call → Option (RecordKey × Int)
  | .put n key _ r => some ((n, key), r)
  | .delete n key r => some ((n, key), r)
  | _ => none

/-- The change that a returned call made. -/
def Call.change : Call → Option AppStorageRecord → Option Change
  | .put n key _ _, some rec => some ⟨(n, key), some (rec.revision, rec.value)⟩
  | .delete n key _, _ => some ⟨(n, key), none⟩
  | _, _ => none

/-- One call; restores are no part of these runs. -/
def step (host : Host) (s : St) (e : Ev) : Option St :=
  match e.call with
  | .restoreBackup _ => none
  | call =>
    match perform host e s.db with
    | (.ok r, db) => some ⟨db, s.history ++ (Call.change call r).toList⟩
    | (.error _, db) => some ⟨db, s.history⟩

/-- Tables that satisfy their constraints, with the history of the records in them. -/
def initial (s : St) : Prop :=
  (∀ k row, s.db.records.get? k = some row → 1 ≤ row.revision) ∧
    s.history = s.db.records.entries.map fun e => ⟨e.1, some (e.2.revision, e.2.value)⟩

def lts (host : Host) : LTS St Ev := .ofFn initial (step host)

def Lawful (host : Host) (s : St) (e : Ev) (s' : St) : Prop :=
  Unambiguous s'.history ∧ ∀ r, (perform host e s.db).1 = .ok r →
    ∀ k named, Call.named e.call = some (k, named) → Fresh s.history k named

/-- A `put` that creates a record does it under a key that never had one. -/
def CreatesNew (host : Host) (s : St) (e : Ev) (_ : St) : Prop :=
  ∀ n key value, e.call = .put n key value 0 → ∀ r, (perform host e s.db).1 = .ok r →
    ¬ Touched s.history (n, key)

/-! ## Revisions that count up -/

/-- What a change adds to a history: a write goes above the revision before it, and creates under
a key that never had a record; a deletion finds one. -/
structure Next (h : List Change) (c : Change) : Prop where
  write : ∀ r v, c.row = some (r, v) → revisionAfter h c.key < r ∧
    (revisionAfter h c.key = 0 → ¬ Touched h c.key)
  delete : c.row = none → 1 ≤ revisionAfter h c.key

def Counting (h : List Change) : Prop := ∀ before c since, h = before ++ c :: since → Next before c

theorem counting_nil : Counting [] := by
  intro before c since h
  exact absurd h (by simp)

theorem counting_snoc {h : List Change} {c : Change} :
    Counting (h ++ [c]) ↔ Counting h ∧ Next h c := by
  constructor
  · intro hc
    refine ⟨fun before d since he => hc before d (since ++ [c]) (by simp [he]), hc h c [] rfl⟩
  · intro ⟨hc, hn⟩ before d since he
    rcases List.eq_nil_or_concat since with rfl | ⟨since, x, rfl⟩
    · obtain ⟨rfl, hd⟩ := List.append_inj' he rfl
      cases hd
      exact hn
    · rw [List.concat_eq_append, ← List.cons_append, ← List.append_assoc] at he
      obtain ⟨rfl, -⟩ := List.append_inj' he rfl
      exact hc before d since rfl

variable {h : List Change}

theorem Counting.nonneg (hc : Counting h) (k : RecordKey) : 0 ≤ revisionAfter h k := by
  induction h using List.reverseRecOn with
  | nil => exact le_refl 0
  | append_singleton h c ih =>
    rw [counting_snoc] at hc
    have ih := ih hc.1
    rw [revisionAfter_snoc]
    split
    · rename_i he
      cases hrow : c.row with
      | none => simp [Change.revision, hrow]
      | some rv =>
        have := (hc.2.write rv.1 rv.2 hrow).1
        rw [he] at this
        simp only [Change.revision, hrow, Option.map_some, Option.getD_some]
        omega
    · exact ih

/-- A key that was changed has no record now, or a later revision than before. -/
theorem Counting.changed {before since : List Change} (hc : Counting (before ++ since))
    {k : RecordKey} (ht : Touched since k) : revisionAfter (before ++ since) k = 0 ∨
      revisionAfter before k < revisionAfter (before ++ since) k := by
  induction since using List.reverseRecOn with
  | nil =>
    obtain ⟨c, hm, -⟩ := ht
    cases hm
  | append_singleton since c ih =>
    rw [← List.append_assoc] at hc ⊢
    rw [counting_snoc] at hc
    rw [touched_snoc] at ht
    rw [revisionAfter_snoc]
    by_cases he : c.key = k
    · rw [if_pos he]
      cases hrow : c.row with
      | none => exact .inl (by simp [Change.revision, hrow])
      | some rv =>
        right
        obtain ⟨hlt, hnew⟩ := hc.2.write rv.1 rv.2 hrow
        rw [he] at hlt hnew
        simp only [Change.revision, hrow, Option.map_some, Option.getD_some]
        by_cases hs : Touched since k
        · rcases ih hc.1 hs with h0 | hlt'
          · -- a record that was deleted is not created again
            obtain ⟨d, hd, hk⟩ := hs
            exact absurd ⟨d, List.mem_append_right _ hd, hk⟩ (hnew h0)
          · omega
        · rw [revisionAfter_append before hs] at hlt
          exact hlt
    · rw [if_neg he]
      exact ih hc.1 (ht.resolve_right he)

/-- A write of the history is of the current revision or an earlier one, while there is one. -/
theorem Counting.written (hc : Counting h) {c : Change} (hm : c ∈ h) {r : Int} {v : Json}
    (hrow : c.row = some (r, v)) : revisionAfter h c.key = 0 ∨ r ≤ revisionAfter h c.key := by
  obtain ⟨before, since, rfl⟩ := List.append_of_mem hm
  have hsplit : before ++ c :: since = (before ++ [c]) ++ since := by simp
  have hrev : revisionAfter (before ++ [c]) c.key = r := by
    rw [revisionAfter_snoc, if_pos rfl]
    simp [Change.revision, hrow]
  rw [hsplit] at hc ⊢
  by_cases ht : Touched since c.key
  · rcases hc.changed ht with h0 | hlt
    · exact .inl h0
    · right; omega
  · rw [revisionAfter_append _ ht, hrev]
    exact .inr (le_refl r)

theorem Counting.unambiguous (hc : Counting h) : Unambiguous h := by
  induction h using List.reverseRecOn with
  | nil =>
    intro c hm
    cases hm
  | append_singleton h x ih =>
    rw [counting_snoc] at hc
    -- a write of an earlier change and the last change are of different revisions
    have hnew : ∀ c ∈ h, c.key = x.key → ∀ r v w, c.row = some (r, v) → x.row = some (r, w) →
        False := by
      intro c hm hk r v w hrow hx
      obtain ⟨hlt, hfresh⟩ := hc.2.write r w hx
      rw [← hk] at hlt hfresh
      rcases hc.1.written hm hrow with h0 | hle
      · exact hfresh h0 ⟨c, hm, rfl⟩
      · omega
    intro c hmc d hmd hk r v w hcr hdr
    rcases List.mem_append.mp hmc with hmc | hmc
    · rcases List.mem_append.mp hmd with hmd | hmd
      · exact ih hc.1 c hmc d hmd hk r v w hcr hdr
      · rw [List.mem_singleton] at hmd
        exact (hnew c hmc (hmd ▸ hk) r v w hcr (hmd ▸ hdr)).elim
    · rw [List.mem_singleton] at hmc
      subst hmc
      rcases List.mem_append.mp hmd with hmd | hmd
      · exact (hnew d hmd hk.symm r w v hdr hcr).elim
      · rw [List.mem_singleton] at hmd
        subst hmd
        rw [hcr] at hdr
        cases hdr
        rfl

/-- While there is a record, its revision is one of no earlier point followed by a change. -/
theorem Counting.fresh (hc : Counting h) {k : RecordKey} (hpos : revisionAfter h k ≠ 0) :
    Fresh h k (revisionAfter h k) := by
  intro before since he hnamed ht
  subst he
  rcases hc.changed ht with h0 | hlt
  · exact hpos h0
  · omega

/-! ## The invariant -/

structure Inv (s : St) : Prop where
  counting : Counting s.history
  current : ∀ k, revisionAfter s.history k = currentRevision (s.db.records.get? k)
  positive : ∀ k row, s.db.records.get? k = some row → 1 ≤ row.revision

theorem inv_initial {s : St} (h : initial s) : Inv s := by
  obtain ⟨hpos, hhist⟩ := h
  have hkeys : ∀ {l : List (RecordKey × RecordRow)} {k : RecordKey}, k ∉ l.map Prod.fst →
      ¬ Touched (l.map fun e => ⟨e.1, some (e.2.revision, e.2.value)⟩) k := by
    intro l k hk ⟨c, hc, he⟩
    obtain ⟨e, hm, rfl⟩ := List.mem_map.mp hc
    exact hk (List.mem_map.mpr ⟨e, hm, he⟩)
  have hnodup := s.db.records.nodup
  refine ⟨fun before c since he => ?_, fun k => ?_, hpos⟩
  · rw [hhist] at he
    obtain ⟨l₁, l₂, hl, rfl, hl₂⟩ := List.map_eq_append_iff.mp he
    obtain ⟨e, l₃, rfl, rfl, rfl⟩ := List.map_eq_cons_iff.mp hl₂
    rw [hl, List.map_append, List.map_cons, List.nodup_append] at hnodup
    have hun := hkeys (l := l₁) (k := e.1) fun hm => hnodup.2.2 _ hm _ List.mem_cons_self rfl
    have hrow : s.db.records.get? e.1 = some e.2 := by
      rw [JsMap.get?_eq_some, hl]
      simp
    refine ⟨fun r v hr => ?_, fun hr => ?_⟩
    · cases hr
      have := hpos e.1 e.2 hrow
      exact ⟨by rw [revisionAfter_untouched hun]; omega, fun _ => hun⟩
    · cases hr
  · rw [hhist]
    cases hk : s.db.records.get? k with
    | none =>
      rw [revisionAfter_untouched (hkeys (JsMap.get?_eq_none.mp hk))]
      rfl
    | some row =>
      obtain ⟨l₁, l₂, hl⟩ := List.append_of_mem (JsMap.get?_eq_some.mp hk)
      rw [hl, List.map_append, List.map_cons, List.nodup_append, List.nodup_cons] at hnodup
      rw [hl, List.map_append, List.map_cons, List.append_cons,
        revisionAfter_append _ (hkeys hnodup.2.1.1), revisionAfter_snoc, if_pos rfl]
      rfl

theorem Inv.current_eq_zero {s : St} (hI : Inv s) {k : RecordKey} :
    revisionAfter s.history k = 0 ↔ s.db.records.get? k = none := by
  rw [hI.current]
  cases hk : s.db.records.get? k with
  | none => simp [currentRevision]
  | some row =>
    have := hI.positive k row hk
    simp only [currentRevision, Option.map_some, Option.getD_some]
    constructor
    · intro h; omega
    · intro h; cases h

/-- A returned call named the current revision; only a `put` can name revision 0. -/
theorem named_current {host : Host} {s : St} {e : Ev} (hI : Inv s) {r : Option AppStorageRecord}
    (h : (perform host e s.db).1 = .ok r) {k : RecordKey} {named : Int}
    (hn : Call.named e.call = some (k, named)) : named = revisionAfter s.history k ∧
      (named = 0 → ∃ n key value, e.call = .put n key value 0 ∧ k = (n, key)) := by
  have hdid := Call.did (perform_ok h)
  rw [hI.current]
  cases hcall : e.call with
  | ensureNamespace n v q =>
    rw [hcall] at hn
    cases hn
  | restoreBackup backup =>
    rw [hcall] at hn
    cases hn
  | put n key value x =>
    rw [hcall] at hn hdid
    cases hn
    obtain ⟨rec, hput⟩ := hdid
    obtain ⟨state, json, -, -, hcur, -⟩ := put_ok hput
    exact ⟨hcur.symm, fun h0 => ⟨n, key, value, by rw [h0], rfl⟩⟩
  | delete n key x =>
    rw [hcall] at hn hdid
    cases hn
    obtain ⟨state, row, -, hrow, hrev, -⟩ := delete_ok hdid
    refine ⟨by rw [hrow, ← hrev]; rfl, fun h0 => ?_⟩
    have := hI.positive _ row hrow
    omega

/-- One change at a time: the tables after a change of the key `k`. -/
theorem Inv.change {s : St} (hI : Inv s) {k : RecordKey} (row : Option RecordRow) {db : Db}
    (hnext : Next s.history ⟨k, row.map fun row => (row.revision, row.value)⟩)
    (hdb : ∀ k', db.records.get? k' = if k' = k then row else s.db.records.get? k')
    (hpos : ∀ new, row = some new → 1 ≤ new.revision) :
    Inv ⟨db, s.history ++ [⟨k, row.map fun row => (row.revision, row.value)⟩]⟩ := by
  refine ⟨counting_snoc.mpr ⟨hI.counting, hnext⟩, fun k' => ?_, fun k' row' hk' => ?_⟩
  · rw [revisionAfter_snoc, hdb]
    by_cases he : k' = k
    · rw [if_pos he.symm, if_pos he]
      cases row <;> rfl
    · rw [if_neg fun h => he h.symm, if_neg he]
      exact hI.current k'
  · dsimp only at hk'
    rw [hdb] at hk'
    split at hk'
    · exact hpos row' hk'
    · exact hI.positive k' row' hk'

theorem inv_step {host : Host} {s s' : St} {e : Ev} (hI : Inv s) (h : step host s e = some s')
    (hnew : CreatesNew host s e s') : Inv s' := by
  unfold step at h
  split at h
  · cases h
  · rename_i call hcall
    split at h
    · rename_i r db hr
      cases h
      have hok : (perform host e s.db).1 = .ok r := by rw [hr]
      have hy := perform_ok hok
      rw [hr] at hy
      cases hc : e.call with
      | restoreBackup backup => exact absurd hc (hcall backup)
      | ensureNamespace n v q =>
        rw [hc] at hy
        rcases ensureNamespace_ok (Call.did hy) with rfl | ⟨-, -, rfl⟩
        · simpa [Call.change] using hI
        · refine ⟨by simpa [Call.change] using hI.counting, ?_, hI.positive⟩
          simpa [Call.change] using hI.current
      | put n key value x =>
        rw [hc] at hy
        obtain ⟨rec, db₁, hput, hpure⟩ := Work.Yields.bind hy
        obtain ⟨rfl, rfl⟩ := hpure.pure_eq
        obtain ⟨state, json, -, -, hcur, hx, -, rfl, rfl⟩ := put_ok hput
        rw [← hI.current] at hcur
        refine hI.change (some ⟨json, canonicalLength json, x + 1⟩) ⟨fun r v hrv => ?_,
          fun hrv => ?_⟩ (fun k' => JsMap.get?_set _ _ _ _) fun new hn => ?_
        · cases hrv
          dsimp only
          refine ⟨by omega, fun h0 => ?_⟩
          rw [h0] at hcur
          exact hnew n key value (hcur ▸ hc) _ hok
        · cases hrv
        · cases hn
          dsimp only
          omega
      | delete n key x =>
        rw [hc] at hy
        obtain ⟨_, db₁, hdel, hpure⟩ := Work.Yields.bind hy
        obtain ⟨rfl, rfl⟩ := hpure.pure_eq
        obtain ⟨state, old, -, hold, hrev, rfl⟩ := delete_ok hdel
        have hcur := hI.current (n, key)
        have hpos := hI.positive _ old hold
        rw [hold] at hcur
        refine hI.change none ⟨fun r v hrv => ?_, fun _ => ?_⟩
          (fun k' => JsMap.get?_delete _ _ _) fun new hn => ?_
        · cases hrv
        · dsimp only
          rw [hcur]
          exact hpos
        · cases hn
    · rename_i err db herr
      cases h
      have hfail : (perform host e s.db).1 = .error err := by rw [herr]
      have hdb := perform_error hfail
      rw [herr] at hdb
      dsimp only at hdb
      rw [hdb]
      exact hI

theorem lawful_iff {host : Host} {s s' : St} {e : Ev} (hI : Inv s) (h : step host s e = some s') :
    Lawful host s e s' ↔ CreatesNew host s e s' := by
  constructor
  · intro hlaw n key value hcall r hr
    have := hlaw.2 r hr (n, key) 0 (by rw [hcall]; rfl)
    exact this [] s.history rfl rfl
  · intro hnew
    refine ⟨(inv_step hI h hnew).counting.unambiguous, fun r hr k named hn => ?_⟩
    obtain ⟨hcur, hzero⟩ := named_current hI hr hn
    by_cases h0 : named = 0
    · obtain ⟨n, key, value, hcall, rfl⟩ := hzero h0
      have huntouched := hnew n key value hcall r hr
      intro before since he _ ⟨c, hc, hk⟩
      exact huntouched ⟨c, he ▸ List.mem_append_right _ hc, hk⟩
    · rw [hcur] at h0 ⊢
      exact hI.counting.fresh h0

/-- **A revision stands for one value**, and for a record that was not changed since, in all the
steps of a run exactly when no `put` of the run creates a record anew. -/
theorem lawful_iff_createsNew (host : Host) (start : St) (hstart : initial start) (es : List Ev)
    (s : St) : ((lts host).guard (Lawful host)).Run start es s ↔
      ((lts host).guard (CreatesNew host)).Run start es s := by
  have hpres : ∀ s e s', Inv s → (lts host).step s e s' → CreatesNew host s e s' → Inv s' :=
    fun _ _ _ hI hs hn => inv_step hI hs hn
  have hiff : ∀ s e s', Inv s → (lts host).step s e s' →
      (Lawful host s e s' ↔ CreatesNew host s e s') := fun _ _ _ hI hs => lawful_iff hI hs
  exact LTS.guard_run_iff hpres hiff (inv_initial hstart)

/-! ## A key created twice -/

/-- A host that takes every value as it is. -/
def exampleHost : Host where
  validate _ value := .ok value
  assertSafe _ := .ok ()
  digest _ := "sha256:notes"

def exampleNamespace : AppStorageNamespace := ⟨"customer", "production", "app.notes", "notes"⟩

def examplePut (value : Json) (expectedRevision : Int) : Ev :=
  ⟨.put exampleNamespace "first" (some value) expectedRevision, none⟩

def exampleDelete (expectedRevision : Int) : Ev :=
  ⟨.delete exampleNamespace "first" expectedRevision, none⟩

/-- Nothing stored, no changes. -/
def empty : St := ⟨.empty, []⟩

theorem initial_empty : initial empty := by
  refine ⟨?_, rfl⟩
  intro k row h
  cases h

def exampleCreate : List Ev :=
  [⟨.ensureNamespace exampleNamespace 1 100, none⟩, examplePut (.bool true) 0]

/-- A record is created and then written once more, by a caller that read it. -/
theorem lawful_iff_createsNew_example : ∃ s,
    ((lts exampleHost).guard (Lawful exampleHost)).Run empty
      (exampleCreate ++ [examplePut .null 1]) s := by
  refine ⟨_, (lawful_iff_createsNew exampleHost empty initial_empty _ _).mpr
    (.cons ⟨rfl, ?_⟩ (.cons ⟨rfl, ?_⟩ (.cons ⟨rfl, ?_⟩ (.nil _))))⟩
  · intro n key value h
    cases h
  · intro n key value h r _ ⟨c, hc, _⟩
    cases hc
  · intro n key value h
    cases h

/-- The record is deleted and created again, at revision 1 again; the caller that holds the first
revision 1 overwrites the second. -/
theorem recreated : ∃ s rec, (lts exampleHost).Run empty
    (exampleCreate ++ [exampleDelete 1, examplePut (.bool false) 0]) s ∧
    ¬ Unambiguous s.history ∧ (perform exampleHost (examplePut .null 1) s.db).1 = .ok (some rec) ∧
    ¬ Fresh s.history (exampleNamespace, "first") 1 := by
  refine ⟨_, _, .cons rfl (.cons rfl (.cons rfl (.cons rfl (.nil _)))), fun h => ?_, rfl,
    fun h => ?_⟩
  · have := h ⟨(exampleNamespace, "first"), some (1, .bool true)⟩ (by decide)
      ⟨(exampleNamespace, "first"), some (1, .bool false)⟩ (by decide +kernel) rfl 1 _ _ rfl rfl
    exact absurd this (by decide)
  · exact h [⟨(exampleNamespace, "first"), some (1, .bool true)⟩] _ rfl rfl
      ⟨⟨(exampleNamespace, "first"), none⟩, by decide, rfl⟩

end KNex.AppStorage.Revisions
