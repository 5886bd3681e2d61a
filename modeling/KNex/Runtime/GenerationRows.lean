import KNex.Runtime.AuthorizationLifecycle

/-!
# Legal generation rows and how a plan changes them

`parseExistingGenerations` refuses rows that share a generation number or a runtime generation
id; the planners refuse more than one current or pending row. `Legal` collects these checks,
and `nextAccepts_iff` ties them to what a later call computes.

Every branch of the planner takes a few rows out and puts a few in; `Change` has a constructor
for each way of doing so, with the condition under which legal rows stay legal
(`change_legal_iff`). Numbers and states always come out right. The runtime ids do when the rows
put in carry the ids of the rows taken out, or when the ids written are free.
-/
namespace KNex.Runtime.AuthorizationLifecycle

open KNex.Core KNex.Contracts

/-! ## What the parsers accept -/

/-- The extension whose rows are planned. -/
structure Identity where
  applicationId : String
  deliveryClass : DeliveryClass
  extensionId : String
  deriving DecidableEq, Repr

def Transition.identity (t : Transition) : Identity :=
  ⟨t.applicationId, t.deliveryClass, t.extensionId⟩

def rowIdentity (r : GenerationRow) : Identity :=
  ⟨r.applicationId, r.owner.deliveryClass, r.owner.extensionId⟩

/-- The checks on a row that do not depend on the revisions of a call. -/
structure RowLegal (id : Identity) (r : GenerationRow) : Prop where
  schema : r.schemaOk = true
  identity : rowIdentity r = id
  sorted : strictlySorted r.runtimeGenerationIds = true

/-- The row is not newer than the committed transition. -/
structure Covered (e : ExpectedRevision) (r : GenerationRow) : Prop where
  authorization : r.authorizationRevision ≤ e.authorizationRevision
  open_ : e.lifecycleRevision < maxRevision
  lifecycle : r.lifecycleRevision ≤ e.lifecycleRevision + 1

theorem nextLifecycleRevision_eq_ok {e : ExpectedRevision} {n : Nat} :
    nextLifecycleRevision e = .ok n ↔ e.lifecycleRevision < maxRevision ∧ n = e.lifecycleRevision + 1 := by
  unfold nextLifecycleRevision fail
  split
  · rename_i h; simp; omega
  · rename_i h; simp [eq_comm]; omega

theorem parseRow_eq_ok {t : Transition} {e : ExpectedRevision} {r r' : GenerationRow} :
    parseRow t e r = .ok r' ↔ r' = r ∧ RowLegal t.identity r ∧ Covered e r := by
  unfold parseRow fail
  constructor
  · intro h
    split at h
    · cases h
    rename_i h1
    split at h
    · cases h
    rename_i h2
    split at h
    · cases h
    rename_i h3
    split at h
    · cases h
    rename_i h4
    obtain ⟨n, hn, h⟩ := bind_eq_ok.mp h
    obtain ⟨hlt, rfl⟩ := nextLifecycleRevision_eq_ok.mp hn
    split at h
    · cases h
    rename_i h5
    cases h
    simp only [not_or, not_not] at h1 h2 h3
    obtain ⟨ha, hc, hx⟩ := h2
    exact ⟨rfl, ⟨h1, by simp [rowIdentity, Transition.identity, ha, hc, hx], h3⟩,
      ⟨by omega, hlt, by omega⟩⟩
  · rintro ⟨rfl, ⟨h1, h2, h3⟩, ⟨h4, h5, h6⟩⟩
    simp only [rowIdentity, Transition.identity, Identity.mk.injEq] at h2
    obtain ⟨ha, hc, hx⟩ := h2
    rw [if_neg (by simp [h1]), if_neg (by simp [ha, hc, hx]), if_neg (by simp [h3]),
      if_neg (by omega)]
    refine bind_eq_ok.mpr ⟨_, nextLifecycleRevision_eq_ok.mpr ⟨h5, rfl⟩, ?_⟩
    rw [if_neg (by omega)]

theorem canonicalRows_perm (rows : List GenerationRow) : (canonicalRows rows).Perm rows :=
  List.perm_insertionSort _ rows

theorem numbers_perm {rows rows' : List GenerationRow} (h : rows.Perm rows') :
    (numbers rows).Perm (numbers rows') := h.map _

theorem runtimeIds_perm {rows rows' : List GenerationRow} (h : rows.Perm rows') :
    (runtimeIds rows).Perm (runtimeIds rows') := List.Perm.flatMap_right _ h

theorem parseExistingGenerations_eq_ok {rows rows' : List GenerationRow} {t : Transition}
    {e : ExpectedRevision} : parseExistingGenerations rows t e = .ok rows' ↔
      rows' = canonicalRows rows ∧ (∀ r ∈ rows, RowLegal t.identity r ∧ Covered e r) ∧
      (numbers rows).Nodup ∧ (runtimeIds rows).Nodup := by
  unfold parseExistingGenerations fail
  rw [bind_eq_ok]
  simp only [mapM_eq_ok_of_check fun a b h => (parseRow_eq_ok.mp h).1]
  constructor
  · rintro ⟨rows'', ⟨rfl, hrows⟩, h⟩
    split at h
    · cases h
    · rename_i hn
      simp only [not_or, not_not] at hn
      cases h
      exact ⟨rfl, fun r hr => (parseRow_eq_ok.mp (hrows r hr)).2, hn.1, hn.2⟩
  · rintro ⟨rfl, hrows, hn, hi⟩
    refine ⟨rows, ⟨rfl, fun r hr => parseRow_eq_ok.mpr ⟨rfl, hrows r hr⟩⟩, ?_⟩
    rw [if_neg (by simp [hn, hi])]

theorem onlyRow_eq_ok {st : GenerationState} {m : String} {rows : List GenerationRow}
    {o : Option GenerationRow} :
    onlyRow st m rows = .ok o ↔ rows.filter (·.state = st) = o.toList := by
  unfold onlyRow fail
  split
  · rename_i h; rw [h]; cases o <;> simp
  · rename_i r h; rw [h]; cases o <;> simp [eq_comm]
  · rename_i h1 h2
    simp only [reduceCtorEq, false_iff]
    intro h
    cases o with
    | none => exact h1 h
    | some r => exact h2 r h

/-- The number of rows of a state. -/
def cnt (st : GenerationState) (rows : List GenerationRow) : Nat :=
  (rows.filter (·.state = st)).length

@[simp] theorem cnt_cons (st : GenerationState) (r : GenerationRow) (rows : List GenerationRow) :
    cnt st (r :: rows) = (if r.state = st then 1 else 0) + cnt st rows := by
  unfold cnt
  by_cases h : r.state = st <;> simp [h, Nat.add_comm]

theorem cnt_perm {s : GenerationState} {rows rows' : List GenerationRow} (h : rows.Perm rows') :
    cnt s rows = cnt s rows' := (h.filter _).length_eq

/-- At most one row of the state. -/
def AtMostOne (st : GenerationState) (rows : List GenerationRow) : Prop := cnt st rows ≤ 1

theorem onlyRow_isOk {st : GenerationState} {m : String} {rows : List GenerationRow} :
    (∃ o, onlyRow st m rows = .ok o) ↔ AtMostOne st rows := by
  unfold AtMostOne cnt
  simp only [onlyRow_eq_ok]
  constructor
  · rintro ⟨o, h⟩; rw [h]; cases o <;> simp
  · intro h
    rcases hf : rows.filter (·.state = st) with _ | ⟨r, _ | ⟨r', l⟩⟩
    · exact ⟨none, hf⟩
    · exact ⟨some r, hf⟩
    · rw [hf] at h; simp at h

theorem atMostOne_perm {st : GenerationState} {rows rows' : List GenerationRow}
    (h : rows.Perm rows') : AtMostOne st rows ↔ AtMostOne st rows' := by
  unfold AtMostOne; rw [cnt_perm h]

/-- Rows that a planner call can take, apart from its revisions. -/
structure Legal (id : Identity) (rows : List GenerationRow) : Prop where
  each : ∀ r ∈ rows, RowLegal id r
  numbers : (numbers rows).Nodup
  runtime : (runtimeIds rows).Nodup
  current : AtMostOne .current rows
  pending : AtMostOne .pendingConfiguration rows

theorem legal_perm {id : Identity} {rows rows' : List GenerationRow} (h : rows.Perm rows') :
    Legal id rows ↔ Legal id rows' := by
  constructor
  · rintro ⟨h1, h2, h3, h4, h5⟩
    exact ⟨fun r hr => h1 r (h.mem_iff.mpr hr), (numbers_perm h).nodup_iff.mp h2,
      (runtimeIds_perm h).nodup_iff.mp h3, (atMostOne_perm h).mp h4, (atMostOne_perm h).mp h5⟩
  · rintro ⟨h1, h2, h3, h4, h5⟩
    exact ⟨fun r hr => h1 r (h.mem_iff.mp hr), (numbers_perm h).nodup_iff.mpr h2,
      (runtimeIds_perm h).nodup_iff.mpr h3, (atMostOne_perm h).mpr h4, (atMostOne_perm h).mpr h5⟩

/-- The rows are a legal input of every later call for the extension: its parser returns, and
so do the checks for one current and one pending row. -/
def NextAccepts (id : Identity) (e : ExpectedRevision) (rows : List GenerationRow) : Prop :=
  ∀ t e', Transition.identity t = id → e.authorizationRevision ≤ e'.authorizationRevision →
    e.lifecycleRevision ≤ e'.lifecycleRevision → e'.lifecycleRevision < maxRevision →
    ∃ rows', parseExistingGenerations rows t e' = .ok rows' ∧
      (∃ c, currentGeneration rows' = .ok c) ∧ (∃ p, pendingGeneration rows' = .ok p)

theorem nextAccepts_iff {id : Identity} {e : ExpectedRevision} {rows : List GenerationRow}
    (he : e.lifecycleRevision < maxRevision)
    (hc : ∀ r ∈ rows, r.authorizationRevision ≤ e.authorizationRevision ∧
      r.lifecycleRevision ≤ e.lifecycleRevision + 1) :
    NextAccepts id e rows ↔ Legal id rows := by
  constructor
  · intro h
    obtain ⟨rows', hp, hcur, hpen⟩ := h
      ⟨id.applicationId, id.deliveryClass, id.extensionId, .install, .active, 0, 1, ""⟩ e rfl
      (Nat.le_refl _) (Nat.le_refl _) he
    obtain ⟨rfl, hr, hn, hi⟩ := parseExistingGenerations_eq_ok.mp hp
    exact ⟨fun r hm => (hr r hm).1, hn, hi,
      (atMostOne_perm (canonicalRows_perm rows)).mp (onlyRow_isOk.mp hcur),
      (atMostOne_perm (canonicalRows_perm rows)).mp (onlyRow_isOk.mp hpen)⟩
  · rintro ⟨hr, hn, hi, hcur, hpen⟩ t e' rfl ha hl hmax
    refine ⟨canonicalRows rows, parseExistingGenerations_eq_ok.mpr ⟨rfl, ?_, hn, hi⟩,
      onlyRow_isOk.mpr ((atMostOne_perm (canonicalRows_perm rows)).mpr hcur),
      onlyRow_isOk.mpr ((atMostOne_perm (canonicalRows_perm rows)).mpr hpen)⟩
    intro r hm
    obtain ⟨h1, h2⟩ := hc r hm
    exact ⟨hr r hm, ⟨by omega, hmax, by omega⟩⟩

/-! ## Rows taken out and put in -/

theorem perm_cons_filter {rows : List GenerationRow} (hn : (numbers rows).Nodup)
    {r : GenerationRow} (hr : r ∈ rows) :
    rows.Perm (r :: rows.filter (·.owner.generation ≠ r.owner.generation)) := by
  induction rows with
  | nil => cases hr
  | cons s rows ih =>
    simp only [numbers, List.map_cons, List.nodup_cons] at hn
    rcases List.mem_cons.mp hr with rfl | hr
    · have hrest : rows.filter (·.owner.generation ≠ r.owner.generation) = rows := by
        refine List.filter_eq_self.mpr fun q hq => ?_
        simp only [ne_eq, decide_not, Bool.not_eq_eq_eq_not, Bool.not_true, decide_eq_false_iff_not]
        intro he; exact hn.1 (List.mem_map.mpr ⟨q, hq, he⟩)
      simp only [List.filter_cons, ne_eq, not_true_eq_false, decide_false, Bool.false_eq_true,
        if_false]
      rw [hrest]
    · have hne : s.owner.generation ≠ r.owner.generation :=
        fun he => hn.1 (List.mem_map.mpr ⟨r, hr, he.symm⟩)
      simp only [List.filter_cons, ne_eq, hne, not_false_eq_true, decide_true, if_true]
      exact ((ih hn.2 hr).cons s).trans (List.Perm.swap r s _)

theorem replaceGeneration_perm (rows : List GenerationRow) (next : GenerationRow) :
    (replaceGeneration rows next).Perm
      (next :: rows.filter (·.owner.generation ≠ next.owner.generation)) :=
  (canonicalRows_perm _).trans (List.perm_append_singleton next _)

theorem generation_eq_ok {x : Target} {n : Nat} {st : GenerationState} {ids : List String}
    {r : GenerationRow} : generation x n st ids = .ok r ↔
      r = ⟨x.transition.applicationId, x.transition.owner n, ids, st, x.authorizationRevision,
        x.lifecycleRevision⟩ ∧ r.schemaOk = true := by
  unfold generation fail
  dsimp only
  split
  · rename_i h
    constructor
    · intro h'; cases h'; exact ⟨rfl, h⟩
    · rintro ⟨rfl, -⟩; rfl
  · rename_i h
    simp only [reduceCtorEq, false_iff]
    rintro ⟨rfl, h'⟩; exact h h'

/-- No id of the list is one of a row's. -/
def IdsFree (ids : List String) (rows : List GenerationRow) : Prop :=
  ∀ r ∈ rows, ∀ i ∈ ids, i ∉ r.runtimeGenerationIds

/-- How a planner changes legal rows, and what it takes for the result to be legal again. -/
inductive Change (x : Target) (ids : List String) (existing : List GenerationRow) :
    List GenerationRow → Prop → Prop
  | same : Change x ids existing existing True
  /-- a current or retired row gets new revisions, and may retire -/
  | restate {r r' : GenerationRow} {st : GenerationState} (hr : r ∈ existing)
      (hb : generation x r.owner.generation st r.runtimeGenerationIds = .ok r')
      (hs : (r.state = .current ∧ st = .current) ∨
        ((r.state = .current ∨ r.state = .retired) ∧ st = .retired)) :
      Change x ids existing (replaceGeneration existing r') True
  /-- the pending row becomes current, the current one retires -/
  | promote {p p' : GenerationRow} {c : Option GenerationRow} {cs : List GenerationRow}
      (hp : existing.filter (·.state = .pendingConfiguration) = [p])
      (hc : existing.filter (·.state = .current) = c.toList)
      (hb : generation x p.owner.generation .current p.runtimeGenerationIds = .ok p')
      (hcs : retireCurrent x c = .ok cs) :
      Change x ids existing (canonicalRows (withoutCurrent
        (existing.filter (·.owner.generation ≠ p.owner.generation)) c ++ cs ++ [p'])) True
  /-- the current row takes the ids of the input -/
  | keep {c c' : GenerationRow} (hc : existing.filter (·.state = .current) = [c])
      (hb : generation x c.owner.generation .current ids = .ok c') :
      Change x ids existing (replaceGeneration existing c')
        (IdsFree ids (existing.filter (·.state ≠ .current)))
  /-- a new current row has the ids of the input, the current one retires -/
  | fresh {c : Option GenerationRow} {cs : List GenerationRow} {f : GenerationRow} {n : Nat}
      (hc : existing.filter (·.state = .current) = c.toList)
      (hn : nextGenerationNumber existing = .ok n) (hb : generation x n .current ids = .ok f)
      (hcs : retireCurrent x c = .ok cs) :
      Change x ids existing (canonicalRows (withoutCurrent existing c ++ cs ++ [f]))
        (IdsFree ids existing)
  /-- a new pending row has the ids of the input -/
  | reserve {g : GenerationRow} {n : Nat}
      (hp : existing.filter (·.state = .pendingConfiguration) = [])
      (hn : nextGenerationNumber existing = .ok n)
      (hb : generation x n .pendingConfiguration ids = .ok g) :
      Change x ids existing (canonicalRows (existing ++ [g])) (IdsFree ids existing)

theorem retireCurrent_eq_ok {x : Target} {c : Option GenerationRow} {cs : List GenerationRow} :
    retireCurrent x c = .ok cs ↔ (c = none ∧ cs = []) ∨
      ∃ r r', c = some r ∧ cs = [r'] ∧
        generation x r.owner.generation .retired r.runtimeGenerationIds = .ok r' := by
  unfold retireCurrent
  cases c with
  | none => simp [eq_comm]
  | some r =>
    simp only [bind_eq_ok, reduceCtorEq, false_and, Option.some.injEq, false_or]
    constructor
    · rintro ⟨r', hr', h⟩
      exact ⟨r, r', rfl, (Except.ok.inj h).symm, hr'⟩
    · rintro ⟨_, r', rfl, rfl, hr'⟩
      exact ⟨r', hr', rfl⟩

theorem foldl_max_ge : ∀ {l : List Nat} {a : Nat}, a ≤ l.foldl max a ∧ ∀ n ∈ l, n ≤ l.foldl max a
  | [], a => ⟨Nat.le_refl a, by simp⟩
  | b :: l, a => by
    obtain ⟨h1, h2⟩ := @foldl_max_ge l (max a b)
    simp only [List.foldl_cons, List.forall_mem_cons]
    exact ⟨by omega, by omega, h2⟩

/-- A new number is above every existing one. -/
theorem nextGenerationNumber_gt {rows : List GenerationRow} {n : Nat}
    (h : nextGenerationNumber rows = .ok n) : ∀ m ∈ numbers rows, m < n := by
  unfold nextGenerationNumber fail at h
  dsimp only at h
  split at h
  · cases h
  · cases h
    intro m hm
    exact Nat.lt_succ_of_le (foldl_max_ge.2 m hm)

/-! ## Legal results -/

theorem built_legal {x : Target} {n : Nat} {st : GenerationState} {is : List String}
    {r : GenerationRow} (h : generation x n st is = .ok r) (hs : strictlySorted is = true) :
    RowLegal x.transition.identity r := by
  obtain ⟨rfl, hok⟩ := generation_eq_ok.mp h
  exact ⟨hok, rfl, hs⟩

theorem built_fields {x : Target} {n : Nat} {st : GenerationState} {is : List String}
    {r : GenerationRow} (h : generation x n st is = .ok r) :
    r.owner.generation = n ∧ r.state = st ∧ r.runtimeGenerationIds = is := by
  obtain ⟨rfl, -⟩ := generation_eq_ok.mp h
  exact ⟨rfl, rfl, rfl⟩

theorem numbers_cons (r : GenerationRow) (rows : List GenerationRow) :
    numbers (r :: rows) = r.owner.generation :: numbers rows := rfl

theorem runtimeIds_cons (r : GenerationRow) (rows : List GenerationRow) :
    runtimeIds (r :: rows) = r.runtimeGenerationIds ++ runtimeIds rows := rfl

theorem ids_nodup {r : GenerationRow} (h : r.schemaOk = true) : r.runtimeGenerationIds.Nodup := by
  simp only [GenerationRow.schemaOk, runtimeIdsOk, Bool.and_eq_true, decide_eq_true_eq] at h
  exact h.1.1.1.2.1.2

/-- Free ids may be added in front. -/
theorem nodup_append_ids {ids : List String} {rows : List GenerationRow} (hids : ids.Nodup)
    (hrows : (runtimeIds rows).Nodup) : (ids ++ runtimeIds rows).Nodup ↔ IdsFree ids rows := by
  rw [List.nodup_append]
  constructor
  · rintro ⟨-, -, h⟩ r hr i hi hm
    exact h i hi i (List.mem_flatMap.mpr ⟨r, hr, hm⟩) rfl
  · intro h
    refine ⟨hids, hrows, ?_⟩
    rintro i hi j hj rfl
    obtain ⟨r, hr, hm⟩ := List.mem_flatMap.mp hj
    exact h r hr i hi hm

theorem idsFree_perm {ids : List String} {rows rows' : List GenerationRow} (h : rows.Perm rows') :
    IdsFree ids rows ↔ IdsFree ids rows' :=
  ⟨fun hf r hr => hf r (h.mem_iff.mpr hr), fun hf r hr => hf r (h.mem_iff.mp hr)⟩

theorem mem_of_filter_eq {rows : List GenerationRow} {p : GenerationRow → Bool}
    {r : GenerationRow} {l : List GenerationRow} (h : rows.filter p = r :: l) :
    r ∈ rows ∧ p r = true := by
  have : r ∈ rows.filter p := by rw [h]; exact List.mem_cons_self
  exact List.mem_filter.mp this

theorem cnt_of_filter {st : GenerationState} {rows l : List GenerationRow}
    (h : rows.filter (·.state = st) = l) : cnt st rows = l.length := by rw [cnt, h]

theorem state_of_cnt_zero {st : GenerationState} {rows : List GenerationRow} (h : cnt st rows = 0) :
    ∀ r ∈ rows, r.state ≠ st := by
  intro r hr he
  have : r ∈ rows.filter (·.state = st) := by simp [hr, he]
  rw [List.length_eq_zero_iff.mp h] at this
  cases this

/-- One row is replaced by one of the same number: what is left to check. -/
theorem legal_replace {id : Identity} {rows rest : List GenerationRow} {r r' : GenerationRow}
    (L : Legal id rows) (hp : rows.Perm (r :: rest)) (hr' : RowLegal id r')
    (hn : r'.owner.generation = r.owner.generation)
    (hc : r'.state = .current → cnt .current rest = 0)
    (hpen : r'.state = .pendingConfiguration → cnt .pendingConfiguration rest = 0) :
    Legal id (r' :: rest) ↔ IdsFree r'.runtimeGenerationIds rest := by
  obtain ⟨h1, h2, h3, h4, h5⟩ := (legal_perm hp).mp L
  rw [runtimeIds_cons] at h3
  have hrest := (List.nodup_append.mp h3).2.1
  rw [← nodup_append_ids (ids_nodup hr'.schema) hrest]
  constructor
  · intro L'; exact L'.runtime
  · intro hids
    simp only [AtMostOne, cnt_cons] at h4 h5
    refine ⟨?_, ?_, hids, ?_, ?_⟩
    · intro q hq
      rcases List.mem_cons.mp hq with rfl | hq
      · exact hr'
      · exact h1 q (List.mem_cons_of_mem _ hq)
    · rw [numbers_cons, hn]; exact h2
    · simp only [AtMostOne, cnt_cons]
      split
      · rename_i h; rw [hc h]
      · omega
    · simp only [AtMostOne, cnt_cons]
      split
      · rename_i h; rw [hpen h]
      · omega

/-- The ids of the row taken out are free again. -/
theorem idsFree_rest {id : Identity} {rows rest : List GenerationRow} {r : GenerationRow}
    (L : Legal id rows) (hp : rows.Perm (r :: rest)) : IdsFree r.runtimeGenerationIds rest := by
  obtain ⟨h1, -, h3, -, -⟩ := (legal_perm hp).mp L
  rw [runtimeIds_cons] at h3
  exact (nodup_append_ids (List.nodup_append.mp h3).1 (List.nodup_append.mp h3).2.1).mp h3

/-- A row with a new number is added. -/
theorem legal_add {id : Identity} {rows : List GenerationRow} {g : GenerationRow}
    (L : Legal id rows) (hg : RowLegal id g) (hn : ∀ m ∈ numbers rows, m < g.owner.generation)
    (hc : g.state = .current → cnt .current rows = 0)
    (hpen : g.state = .pendingConfiguration → cnt .pendingConfiguration rows = 0) :
    Legal id (g :: rows) ↔ IdsFree g.runtimeGenerationIds rows := by
  rw [← nodup_append_ids (ids_nodup hg.schema) L.runtime]
  constructor
  · intro L'; exact L'.runtime
  · intro hids
    refine ⟨?_, ?_, hids, ?_, ?_⟩
    · intro q hq
      rcases List.mem_cons.mp hq with rfl | hq
      · exact hg
      · exact L.each q hq
    · rw [numbers_cons, List.nodup_cons]
      exact ⟨fun hm => Nat.lt_irrefl _ (hn _ hm), L.numbers⟩
    · have := L.current
      simp only [AtMostOne, cnt_cons] at this ⊢
      split
      · rename_i h; rw [hc h]
      · omega
    · have := L.pending
      simp only [AtMostOne, cnt_cons] at this ⊢
      split
      · rename_i h; rw [hpen h]
      · omega

/-- A current row retires. -/
theorem legal_retire {id : Identity} {x : Target} {rows : List GenerationRow}
    {r r' : GenerationRow} (L : Legal id rows) (hid : x.transition.identity = id) (hr : r ∈ rows)
    (hb : generation x r.owner.generation .retired r.runtimeGenerationIds = .ok r') :
    Legal id (r' :: rows.filter (·.owner.generation ≠ r.owner.generation)) := by
  have hp := perm_cons_filter L.numbers hr
  obtain ⟨hn, hs, hi⟩ := built_fields hb
  refine (legal_replace L hp (hid ▸ built_legal hb (L.each r hr).sorted) hn ?_ ?_).mpr ?_
  · intro h; rw [hs] at h; cases h
  · intro h; rw [hs] at h; cases h
  · rw [hi]; exact idsFree_rest L hp

theorem idsFree_cons {ids : List String} {r : GenerationRow} {rows : List GenerationRow} :
    IdsFree ids (r :: rows) ↔ (∀ i ∈ ids, i ∉ r.runtimeGenerationIds) ∧ IdsFree ids rows :=
  List.forall_mem_cons

/-- The rows beside the one row of a state are the rows that are not in it. -/
theorem filter_ne_perm {rows rest : List GenerationRow} {r : GenerationRow} {st : GenerationState}
    (hp : rows.Perm (r :: rest)) (hs : r.state = st) (hc : cnt st rest = 0) :
    (rows.filter (·.state ≠ st)).Perm rest := by
  refine (hp.filter _).trans ?_
  rw [List.filter_cons, if_neg (by simp [hs]), List.filter_eq_self.mpr]
  intro q hq
  simpa using state_of_cnt_zero hc q hq

/-- The pending row becomes current. -/
theorem legal_promote {id : Identity} {x : Target} {rows : List GenerationRow}
    {p p' : GenerationRow} (L : Legal id rows) (hid : x.transition.identity = id) (hp : p ∈ rows)
    (hc : cnt .current rows = 0)
    (hb : generation x p.owner.generation .current p.runtimeGenerationIds = .ok p') :
    Legal id (p' :: rows.filter (·.owner.generation ≠ p.owner.generation)) := by
  have hperm := perm_cons_filter L.numbers hp
  obtain ⟨hn, hs, hi⟩ := built_fields hb
  have hc' := cnt_perm (s := .current) hperm
  rw [hc, cnt_cons] at hc'
  refine (legal_replace L hperm (hid ▸ built_legal hb (L.each p hp).sorted) hn
    (fun _ => by omega) (fun h => ?_)).mpr ?_
  · rw [hs] at h; cases h
  · rw [hi]; exact idsFree_rest L hperm

/-- **What a change needs.** From legal rows a change leads to legal rows exactly when the ids
it writes over the current row, or under a new number, are free. -/
theorem change_legal_iff {id : Identity} {x : Target} {ids : List String}
    {existing next : List GenerationRow} {need : Prop} (h : Change x ids existing next need)
    (L : Legal id existing) (hid : x.transition.identity = id) (hids : strictlySorted ids = true) :
    Legal id next ↔ need := by
  cases h with
  | same => exact iff_of_true L trivial
  | @restate r r' st hr hb hs =>
    refine iff_of_true ?_ trivial
    have hp := perm_cons_filter L.numbers hr
    obtain ⟨hn, hst, hi⟩ := built_fields hb
    have hnext := replaceGeneration_perm existing r'
    rw [hn] at hnext
    refine (legal_perm hnext).mpr ((legal_replace L hp (hid ▸ built_legal hb (L.each r hr).sorted)
      hn ?_ ?_).mpr (by rw [hi]; exact idsFree_rest L hp))
    · intro hcur
      rcases hs with ⟨hrs, -⟩ | ⟨-, hret⟩
      · have hle := (atMostOne_perm hp).mp L.current
        simp only [AtMostOne, cnt_cons, hrs, if_true] at hle; omega
      · rw [hst, hret] at hcur; cases hcur
    · intro hpen
      rw [hst] at hpen
      rcases hs with ⟨-, h⟩ | ⟨-, h⟩ <;> rw [h] at hpen <;> cases hpen
  | @promote p p' c cs hp hc hb hcs =>
    refine iff_of_true ?_ trivial
    obtain ⟨hpm, hps⟩ := mem_of_filter_eq hp
    simp only [decide_eq_true_eq] at hps
    have hnext := (canonicalRows_perm (withoutCurrent
      (existing.filter (·.owner.generation ≠ p.owner.generation)) c ++ cs ++ [p'])).trans
      (List.perm_append_singleton p' _)
    rcases retireCurrent_eq_ok.mp hcs with ⟨rfl, rfl⟩ | ⟨r, r', rfl, rfl, hr'⟩
    · have hc0 : cnt .current existing = 0 := cnt_of_filter hc
      rw [legal_perm hnext]
      simp only [withoutCurrent, List.append_nil]
      exact legal_promote L hid hpm hc0 hb
    · obtain ⟨hrm, hrs⟩ := mem_of_filter_eq hc
      simp only [decide_eq_true_eq] at hrs
      obtain ⟨hrn, hrst, -⟩ := built_fields hr'
      have L1 := legal_retire L hid hrm hr'
      have hpr := perm_cons_filter L.numbers hrm
      -- `p` is another row than the current one
      have hne : p.owner.generation ≠ r.owner.generation := by
        intro he
        have hmem := hpr.mem_iff.mp hpm
        rcases List.mem_cons.mp hmem with rfl | hmem
        · rw [hps] at hrs; cases hrs
        · simp [he] at hmem
      have hpm1 : p ∈ r' :: existing.filter (·.owner.generation ≠ r.owner.generation) :=
        List.mem_cons_of_mem _ (by simp [hpm, hne])
      have hc1 : cnt .current
          (r' :: existing.filter (·.owner.generation ≠ r.owner.generation)) = 0 := by
        have h1 := cnt_perm (s := .current) hpr
        rw [cnt_of_filter hc, cnt_cons, if_pos hrs] at h1
        simp only [Option.toList_some, List.length_singleton] at h1
        rw [cnt_cons, if_neg (by rw [hrst]; decide)]
        omega
      have L2 := legal_promote L1 hid hpm1 hc1 hb
      rw [legal_perm hnext]
      refine (legal_perm (List.Perm.cons p' ?_)).mp L2
      rw [List.filter_cons, if_pos (by simpa [hrn] using fun h => hne h.symm)]
      simp only [withoutCurrent]
      refine List.Perm.trans ?_ (List.perm_append_singleton r' _).symm
      rw [List.filter_filter, List.filter_filter]
      exact List.Perm.cons r' (by simp only [Bool.and_comm]; exact List.Perm.refl _)
  | @keep c c' hc hb =>
    obtain ⟨hcm, hcs⟩ := mem_of_filter_eq hc
    simp only [decide_eq_true_eq] at hcs
    have hp := perm_cons_filter L.numbers hcm
    obtain ⟨hn, hst, hi⟩ := built_fields hb
    have hnext := replaceGeneration_perm existing c'
    rw [hn] at hnext
    have hc0 : cnt .current (existing.filter (·.owner.generation ≠ c.owner.generation)) = 0 := by
      have h1 := cnt_perm (s := .current) hp
      rw [cnt_of_filter hc, cnt_cons, if_pos hcs] at h1
      simp only [List.length_singleton] at h1; omega
    rw [legal_perm hnext, legal_replace L hp (hid ▸ built_legal hb hids) hn (fun _ => hc0)
      (fun h => by rw [hst] at h; cases h), hi]
    exact (idsFree_perm (filter_ne_perm hp hcs hc0)).symm
  | @fresh c cs f n hc hn hb hcs =>
    obtain ⟨hfn, hfs, hfi⟩ := built_fields hb
    have hgt := nextGenerationNumber_gt hn
    have hnext := (canonicalRows_perm (withoutCurrent existing c ++ cs ++ [f])).trans
      (List.perm_append_singleton f _)
    have hf := hid ▸ built_legal hb hids
    rcases retireCurrent_eq_ok.mp hcs with ⟨rfl, rfl⟩ | ⟨r, r', rfl, rfl, hr'⟩
    · have hc0 : cnt .current existing = 0 := cnt_of_filter hc
      simp only [withoutCurrent, List.append_nil] at hnext ⊢
      rw [legal_perm hnext, legal_add L hf (by rw [hfn]; exact hgt) (fun _ => hc0)
        (fun h => by rw [hfs] at h; cases h), hfi]
    · obtain ⟨hrm, hrs⟩ := mem_of_filter_eq hc
      simp only [decide_eq_true_eq] at hrs
      obtain ⟨hrn, hrst, hri⟩ := built_fields hr'
      have L1 := legal_retire L hid hrm hr'
      have hp := perm_cons_filter L.numbers hrm
      have hgt1 : ∀ m ∈ numbers (r' :: existing.filter
          (·.owner.generation ≠ r.owner.generation)), m < f.owner.generation := by
        rw [numbers_cons, hrn, ← numbers_cons, hfn]
        exact fun m hm => hgt m ((numbers_perm hp).mem_iff.mpr hm)
      have hc1 : cnt .current
          (r' :: existing.filter (·.owner.generation ≠ r.owner.generation)) = 0 := by
        have h1 := cnt_perm (s := .current) hp
        rw [cnt_of_filter hc, cnt_cons, if_pos hrs] at h1
        simp only [Option.toList_some, List.length_singleton] at h1
        rw [cnt_cons, if_neg (by rw [hrst]; decide)]
        omega
      simp only [withoutCurrent] at hnext ⊢
      have hnext' := hnext.trans (List.Perm.cons f (List.perm_append_singleton r' _))
      rw [legal_perm hnext', legal_add L1 hf hgt1 (fun _ => hc1)
        (fun h => by rw [hfs] at h; cases h), hfi, idsFree_cons, hri, ← idsFree_cons]
      exact (idsFree_perm hp).symm
  | @reserve g n hp hn hb =>
    obtain ⟨hgn, hgs, hgi⟩ := built_fields hb
    have hnext := (canonicalRows_perm (existing ++ [g])).trans (List.perm_append_singleton g _)
    rw [legal_perm hnext, legal_add L (hid ▸ built_legal hb hids)
      (by rw [hgn]; exact nextGenerationNumber_gt hn) (fun h => by rw [hgs] at h; cases h)
      (fun _ => cnt_of_filter hp), hgi]

/-- The rows after a change are existing rows or carry the revisions of the plan. -/
theorem change_revisions {x : Target} {ids : List String} {existing next : List GenerationRow}
    {need : Prop} (h : Change x ids existing next need) :
    ∀ r ∈ next, r ∈ existing ∨ (r.authorizationRevision = x.authorizationRevision ∧
      r.lifecycleRevision = x.lifecycleRevision) := by
  have built : ∀ {n st is r}, generation x n st is = .ok r →
      r.authorizationRevision = x.authorizationRevision ∧
        r.lifecycleRevision = x.lifecycleRevision := by
    intro n st is r hb
    obtain ⟨rfl, -⟩ := generation_eq_ok.mp hb
    exact ⟨rfl, rfl⟩
  have replaced : ∀ {r' : GenerationRow}, (r'.authorizationRevision = x.authorizationRevision ∧
      r'.lifecycleRevision = x.lifecycleRevision) → ∀ r ∈ replaceGeneration existing r',
      r ∈ existing ∨ (r.authorizationRevision = x.authorizationRevision ∧
        r.lifecycleRevision = x.lifecycleRevision) := by
    intro r' hb r hr
    rcases List.mem_cons.mp ((replaceGeneration_perm existing r').mem_iff.mp hr) with rfl | hr
    · exact .inr hb
    · exact .inl (List.mem_filter.mp hr).1
  have rest : ∀ {rows : List GenerationRow} {c : Option GenerationRow} {r : GenerationRow},
      r ∈ withoutCurrent rows c → r ∈ rows := by
    intro rows c r hr
    cases c with
    | none => exact hr
    | some c => exact (List.mem_filter.mp hr).1
  have retired : ∀ {c cs}, retireCurrent x c = .ok cs → ∀ r ∈ cs,
      r.authorizationRevision = x.authorizationRevision ∧
        r.lifecycleRevision = x.lifecycleRevision := by
    intro c cs hcs r hr
    rcases retireCurrent_eq_ok.mp hcs with ⟨-, rfl⟩ | ⟨_, r', -, rfl, hr'⟩
    · cases hr
    · rw [List.mem_singleton.mp hr]; exact built hr'
  cases h with
  | same => exact fun r hr => .inl hr
  | restate hr hb hs => exact replaced (built hb)
  | keep hc hb => exact replaced (built hb)
  | promote hp hc hb hcs =>
    intro r hr
    simp only [(canonicalRows_perm _).mem_iff, List.mem_append, List.mem_singleton] at hr
    rcases hr with (hr | hr) | rfl
    · exact .inl (List.mem_filter.mp (rest hr)).1
    · exact .inr (retired hcs r hr)
    · exact .inr (built hb)
  | fresh hc hn hb hcs =>
    intro r hr
    simp only [(canonicalRows_perm _).mem_iff, List.mem_append, List.mem_singleton] at hr
    rcases hr with (hr | hr) | rfl
    · exact .inl (rest hr)
    · exact .inr (retired hcs r hr)
    · exact .inr (built hb)
  | reserve hp hn hb =>
    intro r hr
    simp only [(canonicalRows_perm _).mem_iff, List.mem_append, List.mem_singleton] at hr
    rcases hr with hr | rfl
    · exact .inl hr
    · exact .inr (built hb)

end KNex.Runtime.AuthorizationLifecycle
