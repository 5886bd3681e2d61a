import KNex.Runtime.GenerationRows
import KNex.Core.LTS

/-!
# The rows a plan leaves are the rows the next plan reads

The rows of an accepted plan are the next call's existing rows, so a plan that leaves illegal
rows ends the life of the extension's authorization: no later call is accepted.

An activation that writes the ids of its input over the current row, or under a new number,
compares them with no other row, and a retired row keeps its ids. `closure_iff` says that this
is the only way to fail, for single calls and for runs; `rollback_stuck` is a run that fails: an
incompatible update retires the row of a runtime generation, and a rollback brings that
generation back under the current row.
-/
namespace KNex.Runtime.AuthorizationLifecycle

open KNex.Core KNex.Contracts

/-! ## The changes of the planners -/

/-- The operations that bring a generation up. -/
def activates : Operation → Bool
  | .install | .update | .rollback => true
  | _ => false

/-- An incompatible update that is already in the rows. -/
def Repeats (e : ExpectedRevision) (ids : List String) (rows : List GenerationRow) : Prop :=
  ∃ r ∈ rows, r.state = .current ∧ r.runtimeGenerationIds = ids ∧
    r.lifecycleRevision = e.lifecycleRevision + 1

/-- An activation that neither promotes a pending row nor repeats an update finds its runtime
ids in no row, but for the current row that it keeps. -/
def IdsClear (op : Operation) (incompatible : Bool) (e : ExpectedRevision) (ids : List String)
    (rows : List GenerationRow) : Prop :=
  activates op = true → (∀ r ∈ rows, r.state ≠ .pendingConfiguration) →
    ¬ (incompatible = true ∧ Repeats e ids rows) →
    ∀ r ∈ rows, (r.state = .current ∧ incompatible = false) ∨ ∀ i ∈ ids, i ∉ r.runtimeGenerationIds

section branches

variable {sha256Hex : String → String} {x : Target} {existing next : List GenerationRow}
  {current pending : Option GenerationRow} {ids : List String} {ds : List PermissionDescriptor}
  {snaps : List CatalogSnapshot} {a : Activation}

theorem disablePlan_change (hc : existing.filter (·.state = .current) = current.toList)
    (h : disablePlan sha256Hex x existing current ids ds = .ok (next, snaps)) :
    Change x ids existing next True := by
  unfold disablePlan at h
  obtain ⟨-, -, h⟩ := bind_eq_ok.mp h
  cases current with
  | none => cases h
  | some c =>
    obtain ⟨-, -, h⟩ := bind_eq_ok.mp h
    obtain ⟨c', hb, h⟩ := bind_eq_ok.mp h
    obtain ⟨_, -, h⟩ := bind_eq_ok.mp h
    cases h
    obtain ⟨hm, hs⟩ := mem_of_filter_eq hc
    exact .restate hm hb (.inl ⟨by simpa using hs, rfl⟩)

theorem retirePlan_change (hc : existing.filter (·.state = .current) = current.toList)
    (h : retirePlan sha256Hex x existing current ids ds = .ok (next, snaps)) :
    Change x ids existing next True := by
  unfold retirePlan at h
  obtain ⟨-, -, h⟩ := bind_eq_ok.mp h
  cases current with
  | some c =>
    obtain ⟨c', hb, h⟩ := bind_eq_ok.mp h
    obtain ⟨-, -, h⟩ := bind_eq_ok.mp h
    obtain ⟨_, -, h⟩ := bind_eq_ok.mp h
    cases h
    obtain ⟨hm, hs⟩ := mem_of_filter_eq hc
    exact .restate hm hb (.inr ⟨.inl (by simpa using hs), rfl⟩)
  | none =>
    dsimp only at h
    split at h
    · cases h
    · rename_i row hfind
      have hm := List.mem_of_find?_eq_some hfind
      have hs := List.find?_some hfind
      simp only [Bool.decide_and, Bool.and_eq_true, decide_eq_true_eq] at hs
      split at h
      · cases h
      · split at h
        · obtain ⟨_, -, h⟩ := bind_eq_ok.mp h
          cases h
          exact .same
        · obtain ⟨r', hb, h⟩ := bind_eq_ok.mp h
          obtain ⟨_, -, h⟩ := bind_eq_ok.mp h
          cases h
          exact .restate hm hb (.inr ⟨.inr hs.1, rfl⟩)

theorem promotePlan_change {p : GenerationRow}
    (hc : existing.filter (·.state = .current) = current.toList)
    (hp : existing.filter (·.state = .pendingConfiguration) = [p])
    (h : promotePlan sha256Hex x existing current p ids a = .ok (next, snaps)) :
    Change x ids existing next True := by
  unfold promotePlan at h
  split at h
  · cases h
  · obtain ⟨p', hb, h⟩ := bind_eq_ok.mp h
    obtain ⟨cs, hcs, h⟩ := bind_eq_ok.mp h
    obtain ⟨_, -, h⟩ := bind_eq_ok.mp h
    cases h
    exact .promote hp hc hb hcs

theorem keepPlan_change {c : GenerationRow} (hc : existing.filter (·.state = .current) = [c])
    (h : keepPlan sha256Hex x existing c ids ds a = .ok (next, snaps)) :
    Change x ids existing next (IdsFree ids (existing.filter (·.state ≠ .current))) := by
  unfold keepPlan at h
  obtain ⟨c', hb, h⟩ := bind_eq_ok.mp h
  obtain ⟨_, -, h⟩ := bind_eq_ok.mp h
  cases h
  exact .keep hc hb

theorem freshPlan_change (hc : existing.filter (·.state = .current) = current.toList)
    (h : freshPlan sha256Hex x existing current ids a = .ok (next, snaps)) :
    Change x ids existing next (IdsFree ids existing) := by
  unfold freshPlan at h
  split at h
  · cases h
  · obtain ⟨n, hn, h⟩ := bind_eq_ok.mp h
    obtain ⟨f, hb, h⟩ := bind_eq_ok.mp h
    obtain ⟨cs, hcs, h⟩ := bind_eq_ok.mp h
    obtain ⟨_, -, h⟩ := bind_eq_ok.mp h
    cases h
    exact .fresh hc hn hb hcs

theorem mem_state_iff {st : GenerationState} {rows : List GenerationRow} {o : Option GenerationRow}
    (h : rows.filter (·.state = st) = o.toList) {r : GenerationRow} :
    (r ∈ rows ∧ r.state = st) ↔ o = some r := by
  have : r ∈ rows.filter (·.state = st) ↔ r ∈ o.toList := by rw [h]
  simpa [List.mem_filter, Option.mem_toList, eq_comm] using this

/-- An activation needs its ids to be clear. -/
theorem activatePlan_change {e : ExpectedRevision} {op : Operation} (hop : activates op = true)
    (hrev : x.lifecycleRevision = e.lifecycleRevision + 1)
    (hc : existing.filter (·.state = .current) = current.toList)
    (hp : existing.filter (·.state = .pendingConfiguration) = pending.toList)
    (h : activatePlan sha256Hex x existing current pending ids ds a = .ok (next, snaps)) :
    ∃ need, Change x ids existing next need ∧
      (need ↔ IdsClear op a.incompatible e ids existing) := by
  unfold activatePlan at h
  obtain ⟨-, -, h⟩ := bind_eq_ok.mp h
  cases pending with
  | some p =>
    refine ⟨True, promotePlan_change hc hp h, iff_of_true trivial ?_⟩
    intro _ hno
    obtain ⟨hm, hs⟩ := mem_of_filter_eq hp
    exact absurd (by simpa using hs) (hno p hm)
  | none =>
    have hnone : ∀ r ∈ existing, r.state ≠ .pendingConfiguration := by
      intro r hr hs
      have := (mem_state_iff hp).mp ⟨hr, hs⟩
      cases this
    cases current with
    | none =>
      refine ⟨_, freshPlan_change hc h, ?_⟩
      have hnc : ∀ r ∈ existing, r.state ≠ .current := by
        intro r hr hs
        have := (mem_state_iff hc).mp ⟨hr, hs⟩
        cases this
      constructor
      · intro hf _ _ _ r hr; exact .inr (hf r hr)
      · intro hcl r hr
        have hrep : ¬ (a.incompatible = true ∧ Repeats e ids existing) := by
          rintro ⟨-, q, hq, hqs, -⟩; exact hnc q hq hqs
        rcases hcl hop hnone hrep r hr with ⟨hs, -⟩ | hf
        · exact absurd hs (hnc r hr)
        · exact hf
    | some c =>
      obtain ⟨hcm, hcs⟩ := mem_of_filter_eq hc
      simp only [decide_eq_true_eq] at hcs
      dsimp only at h
      split at h
      · rename_i hrep
        cases h
        refine ⟨True, .same, iff_of_true trivial ?_⟩
        intro _ _ hn
        simp only [sameRuntimeGenerationIds, decide_eq_true_eq] at hrep
        exact absurd ⟨hrep.1, c, hcm, hcs, hrep.2.1, hrep.2.2.trans hrev⟩ hn
      · rename_i hnrep
        have hnr : ¬ (a.incompatible = true ∧ Repeats e ids existing) := by
          rintro ⟨hi, q, hq, hqs, hqi, hqr⟩
          cases (mem_state_iff hc).mp ⟨hq, hqs⟩
          exact hnrep ⟨hi, by simp [sameRuntimeGenerationIds, hqi], hqr.trans hrev.symm⟩
        split at h
        · rename_i hcomp
          simp only [Bool.not_eq_true] at hcomp
          refine ⟨_, keepPlan_change hc h, ?_⟩
          constructor
          · intro hf _ _ _ r hr
            by_cases hrs : r.state = .current
            · exact .inl ⟨hrs, hcomp⟩
            · exact .inr (hf r (by simp [hr, hrs]))
          · intro hcl r hr
            simp only [ne_eq, decide_not, List.mem_filter, Bool.not_eq_eq_eq_not, Bool.not_true,
              decide_eq_false_iff_not] at hr
            rcases hcl hop hnone hnr r hr.1 with ⟨hs, -⟩ | hf
            · exact absurd hs hr.2
            · exact hf
        · rename_i hinc
          simp only [Bool.not_eq_true, Bool.not_eq_false] at hinc
          refine ⟨_, freshPlan_change hc h, ?_⟩
          constructor
          · intro hf _ _ _ r hr; exact .inr (hf r hr)
          · intro hcl r hr
            rcases hcl hop hnone hnr r hr with ⟨-, hs⟩ | hf
            · rw [hinc] at hs; cases hs
            · exact hf

theorem branchPlan_change {e : ExpectedRevision}
    (hrev : x.lifecycleRevision = e.lifecycleRevision + 1)
    (hc : existing.filter (·.state = .current) = current.toList)
    (hp : existing.filter (·.state = .pendingConfiguration) = pending.toList)
    (h : branchPlan sha256Hex x existing current pending ids ds a = .ok (next, snaps)) :
    ∃ need, Change x ids existing next need ∧
      (need ↔ IdsClear x.transition.operation a.incompatible e ids existing) := by
  unfold branchPlan at h
  cases hop : x.transition.operation <;> simp only [hop] at h
  case disable => exact ⟨True, disablePlan_change hc h, iff_of_true trivial (fun h => by cases h)⟩
  case uninstall => exact ⟨True, retirePlan_change hc h, iff_of_true trivial (fun h => by cases h)⟩
  case quarantine => exact ⟨True, retirePlan_change hc h, iff_of_true trivial (fun h => by cases h)⟩
  all_goals exact activatePlan_change rfl hrev hc hp h

end branches

/-! ## Accepted plans -/

/-- What an accepted call says about its rows: the plan's rows are a change of the existing
ones, under revisions that cover both. -/
structure Planned (t : Transition) (e : ExpectedRevision) (ids : List String)
    (rows next : List GenerationRow) (need : Prop) : Prop where
  unexhausted : e.lifecycleRevision < maxRevision
  sorted : strictlySorted ids = true
  each : ∀ r ∈ rows, RowLegal t.identity r ∧ Covered e r
  numbers : (numbers rows).Nodup
  runtime : (runtimeIds rows).Nodup
  change : Change ⟨t, e.authorizationRevision, e.lifecycleRevision + 1⟩ ids (canonicalRows rows)
    next need

theorem parseExpectedRevision_eq_ok {e e' : ExpectedRevision}
    (h : parseExpectedRevision e = .ok e') : e' = e := by
  unfold parseExpectedRevision fail at h
  split at h
  · exact (Except.ok.inj h).symm
  · cases h

theorem parseRuntimeGenerationIds_eq_ok {ids ids' : List String} {t : Transition}
    (h : parseRuntimeGenerationIds ids t = .ok ids') : ids' = ids ∧ strictlySorted ids = true := by
  unfold parseRuntimeGenerationIds fail at h
  dsimp only at h
  split at h
  · cases h
  · rename_i h1
    split at h
    · cases h
    · simp only [not_or, not_not] at h1
      exact ⟨(Except.ok.inj h).symm, h1.2.2.1⟩

theorem repeats_perm {e : ExpectedRevision} {ids : List String} {rows rows' : List GenerationRow}
    (h : rows.Perm rows') : Repeats e ids rows ↔ Repeats e ids rows' := by
  unfold Repeats
  simp only [h.mem_iff]

theorem idsClear_perm {op : Operation} {b : Bool} {e : ExpectedRevision} {ids : List String}
    {rows rows' : List GenerationRow} (h : rows.Perm rows') :
    IdsClear op b e ids rows ↔ IdsClear op b e ids rows' := by
  unfold IdsClear
  simp only [h.mem_iff, repeats_perm h]

/-- The update is declared incompatible. -/
def PlanInput.incompatible (input : PlanInput) (t : Transition) : Bool :=
  t.operation = .update ∧ input.updateCompatibility = some .incompatible

theorem planAuthorizationLifecycle_planned {sha256Hex : String → String} {input : PlanInput}
    {plan : Plan} (h : planAuthorizationLifecycle sha256Hex input = .ok plan) :
    ∃ t need, parseTransition input.transition = .ok t ∧
      t.applicationId = input.expected.applicationId ∧
      AtMostOne .current input.existingGenerations ∧
      AtMostOne .pendingConfiguration input.existingGenerations ∧
      Planned t input.expected input.runtimeGenerationIds input.existingGenerations
        plan.generations need ∧
      (need ↔ IdsClear t.operation (input.incompatible t) input.expected
        input.runtimeGenerationIds input.existingGenerations) := by
  unfold planAuthorizationLifecycle fail at h
  obtain ⟨e, he, h⟩ := bind_eq_ok.mp h
  obtain rfl := parseExpectedRevision_eq_ok he
  obtain ⟨t, ht, h⟩ := bind_eq_ok.mp h
  split at h
  · cases h
  rename_i happ
  split at h
  · cases h
  split at h
  · cases h
  obtain ⟨ids, hids, h⟩ := bind_eq_ok.mp h
  obtain ⟨rfl, hsorted⟩ := parseRuntimeGenerationIds_eq_ok hids
  obtain ⟨existing, hex, h⟩ := bind_eq_ok.mp h
  obtain ⟨rfl, hrows, hn, hi⟩ := parseExistingGenerations_eq_ok.mp hex
  obtain ⟨current, hc, h⟩ := bind_eq_ok.mp h
  obtain ⟨pending, hp, h⟩ := bind_eq_ok.mp h
  obtain ⟨ds, -, h⟩ := bind_eq_ok.mp h
  split at h
  · cases h
  obtain ⟨prior, -, h⟩ := bind_eq_ok.mp h
  obtain ⟨rev, hrev, h⟩ := bind_eq_ok.mp h
  obtain ⟨hmax, rfl⟩ := nextLifecycleRevision_eq_ok.mp hrev
  obtain ⟨⟨next, snaps⟩, hb, h⟩ := bind_eq_ok.mp h
  dsimp only at h
  split at h
  · cases h
  cases h
  have hperm := canonicalRows_perm input.existingGenerations
  obtain ⟨need, hch, hneed⟩ := branchPlan_change (e := input.expected) rfl
    (onlyRow_eq_ok.mp hc) (onlyRow_eq_ok.mp hp) hb
  exact ⟨t, need, ht, not_not.mp happ, (atMostOne_perm hperm).mp (onlyRow_isOk.mp ⟨_, hc⟩),
    (atMostOne_perm hperm).mp (onlyRow_isOk.mp ⟨_, hp⟩), ⟨hmax, hsorted, hrows, hn, hi, hch⟩,
    hneed.trans (idsClear_perm hperm)⟩

/-- A pending row already reserves the runtime generation. -/
def Reserved (ids : List String) (rows : List GenerationRow) : Prop :=
  ∃ r ∈ rows, r.state = .pendingConfiguration ∧ r.runtimeGenerationIds = ids

/-- A reservation finds its runtime id in no row, unless the only pending row is the
reservation; the planner does not count the current rows. -/
def PendingClear (id : String) (rows : List GenerationRow) : Prop :=
  AtMostOne .current rows ∧
    ((Reserved [id] rows ∧ AtMostOne .pendingConfiguration rows) ∨
      (¬ Reserved [id] rows ∧ IdsFree [id] rows))

theorem matchingPending_isSome {ids : List String} {rows : List GenerationRow} :
    (matchingPending ids rows).isSome = true ↔ Reserved ids rows := by
  unfold matchingPending Reserved sameRuntimeGenerationIds
  rw [List.find?_isSome]
  simp

theorem reserved_perm {ids : List String} {rows rows' : List GenerationRow} (h : rows.Perm rows') :
    Reserved ids rows ↔ Reserved ids rows' := by
  unfold Reserved
  simp only [h.mem_iff]

theorem planPendingAuthorizationGeneration_planned {input : PendingPlanInput} {plan : Plan}
    (h : planPendingAuthorizationGeneration input = .ok plan) :
    ∃ need, Planned (pendingTransition input) input.expected [input.runtimeGenerationId]
        input.existingGenerations plan.generations need ∧
      ((Reserved [input.runtimeGenerationId] input.existingGenerations ∧
          plan.generations.Perm input.existingGenerations) ∨
        (¬ Reserved [input.runtimeGenerationId] input.existingGenerations ∧
          AtMostOne .pendingConfiguration input.existingGenerations ∧
          (∃ g, plan.generations.Perm (g :: input.existingGenerations)) ∧
          (need ↔ IdsFree [input.runtimeGenerationId] input.existingGenerations))) := by
  have hperm := canonicalRows_perm input.existingGenerations
  unfold planPendingAuthorizationGeneration fail at h
  obtain ⟨e, he, h⟩ := bind_eq_ok.mp h
  obtain rfl := parseExpectedRevision_eq_ok he
  obtain ⟨ids, hids, h⟩ := bind_eq_ok.mp h
  obtain ⟨rfl, hsorted⟩ := parseRuntimeGenerationIds_eq_ok hids
  obtain ⟨existing, hex, h⟩ := bind_eq_ok.mp h
  obtain ⟨rfl, hrows, hn, hi⟩ := parseExistingGenerations_eq_ok.mp hex
  cases hm : matchingPending [input.runtimeGenerationId]
      (canonicalRows input.existingGenerations) with
  | some row =>
    simp only [hm] at h
    cases h
    have hres := (reserved_perm hperm).mp (matchingPending_isSome.mp (by rw [hm]; rfl))
    -- the reserving row was parsed, so the revision is not exhausted
    have hmax : input.expected.lifecycleRevision < maxRevision := by
      obtain ⟨r, hr, -⟩ := hres
      exact (hrows r hr).2.open_
    exact ⟨True, ⟨hmax, hsorted, hrows, hn, hi, .same⟩, .inl ⟨hres, hperm⟩⟩
  | none =>
    simp only [hm] at h
    have hres : ¬ Reserved [input.runtimeGenerationId] input.existingGenerations := by
      intro hr
      have := matchingPending_isSome.mpr ((reserved_perm hperm).mpr hr)
      rw [hm] at this
      cases this
    obtain ⟨pending, hp, h⟩ := bind_eq_ok.mp h
    cases pending with
    | some _ => cases h
    | none =>
      obtain ⟨rev, hrev, h⟩ := bind_eq_ok.mp h
      obtain ⟨hmax, rfl⟩ := nextLifecycleRevision_eq_ok.mp hrev
      obtain ⟨n, hnum, h⟩ := bind_eq_ok.mp h
      obtain ⟨g, hg, h⟩ := bind_eq_ok.mp h
      cases h
      exact ⟨_, ⟨hmax, hsorted, hrows, hn, hi, .reserve (onlyRow_eq_ok.mp hp) hnum hg⟩,
        .inr ⟨hres, (atMostOne_perm hperm).mp (onlyRow_isOk.mp ⟨_, hp⟩),
          ⟨g, (canonicalRows_perm _).trans ((List.perm_append_singleton g _).trans
            (hperm.cons g))⟩, idsFree_perm hperm⟩⟩

/-! ## The next call -/

section next

variable {t : Transition} {e : ExpectedRevision} {ids : List String}
  {rows next : List GenerationRow} {need : Prop}

/-- The later calls for the extension accept the plan's rows exactly when they are legal. -/
theorem planned_accepts_iff (h : Planned t e ids rows next need) :
    NextAccepts t.identity e next ↔ Legal t.identity next := by
  refine nextAccepts_iff h.unexhausted fun r hr => ?_
  rcases change_revisions h.change r hr with hr | ⟨ha, hl⟩
  · have hc := (h.each r ((canonicalRows_perm rows).mem_iff.mp hr)).2
    exact ⟨hc.authorization, hc.lifecycle⟩
  · exact ⟨by rw [ha], by rw [hl]⟩

/-- From rows with one current and one pending row at most, the need of the change decides. -/
theorem planned_legal_iff (h : Planned t e ids rows next need) (hc : AtMostOne .current rows)
    (hp : AtMostOne .pendingConfiguration rows) : Legal t.identity next ↔ need := by
  have L : Legal t.identity rows :=
    ⟨fun r hr => (h.each r hr).1, h.numbers, h.runtime, hc, hp⟩
  exact change_legal_iff h.change ((legal_perm (canonicalRows_perm rows)).mpr L) rfl h.sorted

theorem atMostOne_of_cons {st : GenerationState} {g : GenerationRow} {rows : List GenerationRow}
    (h : AtMostOne st (g :: rows)) : AtMostOne st rows := by
  simp only [AtMostOne, cnt_cons] at h ⊢
  omega

/-- The rows of an accepted lifecycle plan are accepted again exactly when the ids are clear. -/
theorem lifecycle_accepts_iff {sha256Hex : String → String} {input : PlanInput} {plan : Plan}
    (h : planAuthorizationLifecycle sha256Hex input = .ok plan) {t : Transition}
    (ht : parseTransition input.transition = .ok t) :
    NextAccepts t.identity input.expected plan.generations ↔
      IdsClear t.operation (input.incompatible t) input.expected input.runtimeGenerationIds
        input.existingGenerations := by
  obtain ⟨t', need, ht', -, hc, hp, hpl, hneed⟩ := planAuthorizationLifecycle_planned h
  rw [ht] at ht'
  cases ht'
  rw [planned_accepts_iff hpl, planned_legal_iff hpl hc hp, hneed]

/-- The rows of an accepted reservation are accepted again exactly when the id is clear. -/
theorem pending_accepts_iff {input : PendingPlanInput} {plan : Plan}
    (h : planPendingAuthorizationGeneration input = .ok plan) :
    NextAccepts (pendingTransition input).identity input.expected plan.generations ↔
      PendingClear input.runtimeGenerationId input.existingGenerations := by
  obtain ⟨need, hpl, hcase⟩ := planPendingAuthorizationGeneration_planned h
  rw [planned_accepts_iff hpl]
  rcases hcase with ⟨hres, hperm⟩ | ⟨hres, hp, ⟨g, hperm⟩, hneed⟩
  · rw [legal_perm hperm]
    constructor
    · intro L
      exact ⟨L.current, .inl ⟨hres, L.pending⟩⟩
    · rintro ⟨hc, ⟨-, hp⟩ | ⟨hn, -⟩⟩
      · exact ⟨fun r hr => (hpl.each r hr).1, hpl.numbers, hpl.runtime, hc, hp⟩
      · exact absurd hres hn
  · constructor
    · intro L
      have hc := atMostOne_of_cons ((atMostOne_perm hperm).mp L.current)
      exact ⟨hc, .inr ⟨hres, hneed.mp ((planned_legal_iff hpl hc hp).mp L)⟩⟩
    · rintro ⟨hc, ⟨hr, -⟩ | ⟨-, hfree⟩⟩
      · exact absurd hr hres
      · exact (planned_legal_iff hpl hc hp).mpr (hneed.mpr hfree)

end next

/-! ## Runs -/

/-- A call of one of the two planners. -/
inductive Call
  | lifecycle (input : PlanInput)
  | pending (input : PendingPlanInput)

def Call.rows : Call → List GenerationRow
  | .lifecycle input => input.existingGenerations
  | .pending input => input.existingGenerations

def Call.expected : Call → ExpectedRevision
  | .lifecycle input => input.expected
  | .pending input => input.expected

/-- The transition a call is planned for. -/
def Call.transition : Call → Result Transition
  | .lifecycle input => parseTransition input.transition
  | .pending input => .ok (pendingTransition input)

def Call.plan (sha256Hex : String → String) : Call → Result Plan
  | .lifecycle input => planAuthorizationLifecycle sha256Hex input
  | .pending input => planPendingAuthorizationGeneration input

/-- The condition on an accepted call under which its rows are accepted again. -/
def Call.Clear : Call → Prop
  | .lifecycle input => ∀ t, parseTransition input.transition = .ok t →
      IdsClear t.operation (input.incompatible t) input.expected input.runtimeGenerationIds
        input.existingGenerations
  | .pending input => PendingClear input.runtimeGenerationId input.existingGenerations

/-- The planners over one extension: the rows of an accepted plan are the next call's existing
rows. -/
def lts (sha256Hex : String → String) (id : Identity) : LTS (List GenerationRow) Call where
  init := (· = [])
  step rows c rows' := c.rows = rows ∧ (∃ t, c.transition = .ok t ∧ t.identity = id) ∧
    ∃ plan, c.plan sha256Hex = .ok plan ∧ plan.generations = rows'

theorem step_accepts_iff {sha256Hex : String → String} {id : Identity}
    {rows rows' : List GenerationRow} {c : Call} (h : (lts sha256Hex id).step rows c rows') :
    NextAccepts id c.expected rows' ↔ c.Clear := by
  obtain ⟨rfl, ⟨t, ht, rfl⟩, plan, hplan, rfl⟩ := h
  cases c with
  | lifecycle input =>
    refine (lifecycle_accepts_iff hplan ht).trans ⟨?_, fun h => h t ht⟩
    intro hclear t' ht'
    rw [Call.transition, ht'] at ht
    cases ht
    exact hclear
  | pending input =>
    cases ht
    exact pending_accepts_iff hplan

theorem step_legal {sha256Hex : String → String} {id : Identity} {rows rows' : List GenerationRow}
    {c : Call} (h : (lts sha256Hex id).step rows c rows') (hc : c.Clear) : Legal id rows' := by
  have hacc := (step_accepts_iff h).mpr hc
  obtain ⟨rfl, ⟨t, ht, rfl⟩, plan, hplan, rfl⟩ := h
  cases c with
  | lifecycle input =>
    obtain ⟨t', need, ht', -, -, -, hpl, -⟩ := planAuthorizationLifecycle_planned hplan
    rw [Call.transition, ht'] at ht
    cases ht
    exact (planned_accepts_iff hpl).mp hacc
  | pending input =>
    cases ht
    obtain ⟨need, hpl, -⟩ := planPendingAuthorizationGeneration_planned hplan
    exact (planned_accepts_iff hpl).mp hacc

/-- **Closure of the planners.** The rows of an accepted plan are a legal input of the next call
exactly when the call finds its runtime ids clear; and a run of accepted calls leaves legal rows
at every step exactly when each of its calls does. -/
theorem closure_iff (sha256Hex : String → String) :
    (∀ input plan t, planAuthorizationLifecycle sha256Hex input = .ok plan →
      parseTransition input.transition = .ok t →
      (NextAccepts t.identity input.expected plan.generations ↔
        IdsClear t.operation (input.incompatible t) input.expected input.runtimeGenerationIds
          input.existingGenerations)) ∧
    (∀ input plan, planPendingAuthorizationGeneration input = .ok plan →
      (NextAccepts (pendingTransition input).identity input.expected plan.generations ↔
        PendingClear input.runtimeGenerationId input.existingGenerations)) ∧
    (∀ id rows calls rows',
      ((lts sha256Hex id).guard fun _ c next => NextAccepts id c.expected next).Run
          rows calls rows' ↔
        ((lts sha256Hex id).guard fun _ c _ => c.Clear).Run rows calls rows') ∧
    (∀ id calls rows, ((lts sha256Hex id).guard fun _ c _ => c.Clear).Run [] calls rows →
      Legal id rows) := by
  refine ⟨fun input plan t h ht => lifecycle_accepts_iff h ht,
    fun input plan h => pending_accepts_iff h, ?_, ?_⟩
  · intro id rows calls rows'
    exact LTS.guard_run_iff (I := fun _ => True) (fun _ _ _ _ _ _ => trivial)
      (fun _ _ _ _ h => step_accepts_iff h) trivial
  · intro id calls rows h
    have hnil : Legal id [] := ⟨by simp, by simp [numbers], by simp [runtimeIds],
      by simp [AtMostOne, cnt], by simp [AtMostOne, cnt]⟩
    refine LTS.Run.preserves (I := Legal id) (fun _ _ _ _ hs => ?_) h hnil
    exact step_legal hs.1 hs.2

/-! ## A run that ends -/

/-- A committed event of a Platform Plugin. -/
def moduleEvent (op : OperationKind) (revision : Nat) (generationId : String) : CommittedEvent :=
  .lifecycle ⟨"customer-a", .platformPlugin, "module.sales", op, .completed, .active, revision,
    revision + 1, generationId⟩

/-- The call for it: no descriptors, one runtime generation. -/
def moduleCall (op : OperationKind) (revision : Nat) (generationId : String)
    (rows : List GenerationRow) : PlanInput where
  expected := ⟨"customer-a", "production", 1, revision⟩
  transition := moduleEvent op revision generationId
  existingGenerations := rows
  descriptors := []
  priorGenerationDescriptors := if op = .update then some [] else none
  runtimeGenerationIds := [generationId]
  updateCompatibility := if op = .update then some .incompatible else none

def moduleRow (number : Nat) (generationId : String) (state : GenerationState) (revision : Nat) :
    GenerationRow :=
  ⟨"customer-a", ⟨.platformPlugin, "module.sales", number⟩, [generationId], state, 1, revision⟩

theorem closure_iff_install :
    NextAccepts ⟨"customer-a", .platformPlugin, "module.sales"⟩
        ⟨"customer-a", "production", 1, 0⟩ [moduleRow 1 "runtime-1" .current 1] ↔
      IdsClear .install false ⟨"customer-a", "production", 1, 0⟩ ["runtime-1"] [] :=
  (closure_iff fun s => s).1 (moduleCall .install 0 "runtime-1" [])
    ⟨"customer-a", 1, 1, [moduleRow 1 "runtime-1" .current 1], [],
      [.extensionGeneration (moduleRow 1 "runtime-1" .current 1)], false⟩
    ⟨"customer-a", .platformPlugin, "module.sales", .install, .active, 0, 1, "runtime-1"⟩
    (by decide) (by decide)

/-- A call that is accepted reads rows with distinct runtime ids. -/
theorem plan_runtime_nodup {sha256Hex : String → String} {c : Call} {plan : Plan}
    (h : c.plan sha256Hex = .ok plan) : (runtimeIds c.rows).Nodup := by
  cases c with
  | lifecycle input =>
    obtain ⟨_, _, -, -, -, -, hpl, -⟩ := planAuthorizationLifecycle_planned h
    exact hpl.runtime
  | pending input =>
    obtain ⟨_, hpl, -⟩ := planPendingAuthorizationGeneration_planned h
    exact hpl.runtime

/-- A step of the extension `module.sales`. -/
theorem module_step {c : PlanInput} {rows rows' : List GenerationRow} (plan : Plan)
    (hrows : c.existingGenerations = rows) (ht : ∃ t, parseTransition c.transition = .ok t ∧
      t.identity = ⟨"customer-a", .platformPlugin, "module.sales"⟩)
    (hplan : planAuthorizationLifecycle (fun s => s) c = .ok plan)
    (hnext : plan.generations = rows') :
    (lts (fun s => s) ⟨"customer-a", .platformPlugin, "module.sales"⟩).step rows (.lifecycle c)
      rows' :=
  ⟨hrows, ht, plan, hplan, hnext⟩

/-- The incompatible update retires the first runtime generation. -/
theorem module_update :
    (lts (fun s => s) ⟨"customer-a", .platformPlugin, "module.sales"⟩).step
      [moduleRow 1 "runtime-1" .current 1]
      (.lifecycle (moduleCall .update 1 "runtime-2" [moduleRow 1 "runtime-1" .current 1]))
      [moduleRow 1 "runtime-1" .retired 2, moduleRow 2 "runtime-2" .current 2] :=
  module_step ⟨"customer-a", 1, 2,
    [moduleRow 1 "runtime-1" .retired 2, moduleRow 2 "runtime-2" .current 2], [],
    [.extensionGeneration (moduleRow 1 "runtime-1" .retired 2),
      .extensionGeneration (moduleRow 2 "runtime-2" .current 2)], false⟩
    rfl ⟨_, rfl, rfl⟩ (by decide) rfl

/-- The rollback brings it back under the second row. -/
theorem module_rollback :
    (lts (fun s => s) ⟨"customer-a", .platformPlugin, "module.sales"⟩).step
      [moduleRow 1 "runtime-1" .retired 2, moduleRow 2 "runtime-2" .current 2]
      (.lifecycle (moduleCall .rollback 2 "runtime-1"
        [moduleRow 1 "runtime-1" .retired 2, moduleRow 2 "runtime-2" .current 2]))
      [moduleRow 1 "runtime-1" .retired 2, moduleRow 2 "runtime-1" .current 3] :=
  module_step ⟨"customer-a", 1, 3,
    [moduleRow 1 "runtime-1" .retired 2, moduleRow 2 "runtime-1" .current 3], [],
    [.extensionGeneration (moduleRow 2 "runtime-1" .current 3)], false⟩
    rfl ⟨_, rfl, rfl⟩ (by decide) rfl

/-- **The closure fails.** Install, an incompatible update and a rollback to the first runtime
generation are all accepted, and no call is accepted after them: the rolled-back id stands in
the retired row and in the current one. -/
theorem rollback_stuck :
    (lts (fun s => s) ⟨"customer-a", .platformPlugin, "module.sales"⟩).Run []
      [.lifecycle (moduleCall .install 0 "runtime-1" []),
        .lifecycle (moduleCall .update 1 "runtime-2" [moduleRow 1 "runtime-1" .current 1]),
        .lifecycle (moduleCall .rollback 2 "runtime-1"
          [moduleRow 1 "runtime-1" .retired 2, moduleRow 2 "runtime-2" .current 2])]
      [moduleRow 1 "runtime-1" .retired 2, moduleRow 2 "runtime-1" .current 3] ∧
    ∀ c : Call, c.rows =
        [moduleRow 1 "runtime-1" .retired 2, moduleRow 2 "runtime-1" .current 3] →
      ∀ plan, c.plan (fun s => s) ≠ .ok plan := by
  refine ⟨.cons ?_ (.cons module_update (.cons module_rollback (.nil _))), ?_⟩
  · exact module_step ⟨"customer-a", 1, 1, [moduleRow 1 "runtime-1" .current 1], [],
      [.extensionGeneration (moduleRow 1 "runtime-1" .current 1)], false⟩
      rfl ⟨_, rfl, rfl⟩ (by decide) rfl
  · intro c hc plan h
    have hn := plan_runtime_nodup h
    rw [hc] at hn
    exact absurd hn (by decide)

end KNex.Runtime.AuthorizationLifecycle
