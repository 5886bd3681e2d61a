import KNex.Runtime.GenerationClosure
import Mathlib.Data.Bool.AllAny
import Mathlib.Data.List.Pairwise

/-!
# A plan that is planned again

A caller that lost the answer of `planAuthorizationLifecycle` plans the same transition again,
at the same expected revision, over the rows that the first plan left. The second plan is a
replay when it writes nothing and leaves the same rows.

* An activation ends with a current row that has the ids of the input and the revisions of the
  plan, and planning it again restates that row (`activate_again`); a disabled or removed
  extension is recognised by its one row (`disable_again`, `uninstall_again`).
* A quarantine is not: the branch it shares with uninstall finds the retired row, and then
  refuses every operation but uninstall (`quarantine_refused`).

`replay_iff` puts this together with the rows that no later call can read (`closure_iff`).
-/
namespace KNex.Runtime.AuthorizationLifecycle

open KNex.Core KNex.Contracts

/-! ## What an accepted call passed -/

def PlanInput.target (input : PlanInput) (t : Transition) : Target :=
  ⟨t, input.expected.authorizationRevision, input.expected.lifecycleRevision + 1⟩

def PlanInput.prior (input : PlanInput) : List PermissionDescriptor :=
  input.priorGenerationDescriptors.getD []

def PlanInput.activation (input : PlanInput) (t : Transition) : Activation :=
  ⟨t.operation = .update, input.incompatible t, input.prior⟩

/-- The steps of a call that was accepted, in their order. -/
structure Accepted (sha256Hex : String → String) (input : PlanInput) (t : Transition)
    (current pending : Option GenerationRow) (next : List GenerationRow)
    (snaps : List CatalogSnapshot) : Prop where
  expected : parseExpectedRevision input.expected = .ok input.expected
  transition : parseTransition input.transition = .ok t
  application : t.applicationId = input.expected.applicationId
  revision : t.revision = t.expectedRevision + 1
  compatibility : t.operation = .update ↔ input.updateCompatibility.isSome = true
  ids : parseRuntimeGenerationIds input.runtimeGenerationIds t = .ok input.runtimeGenerationIds
  rows : parseExistingGenerations input.existingGenerations t input.expected =
    .ok (canonicalRows input.existingGenerations)
  currentRow : currentGeneration (canonicalRows input.existingGenerations) = .ok current
  pendingRow : pendingGeneration (canonicalRows input.existingGenerations) = .ok pending
  descriptors : parseDescriptors input.descriptors t = .ok input.descriptors
  priorGiven : t.operation = .update ↔ input.priorGenerationDescriptors.isSome = true
  prior : parseDescriptors input.prior t = .ok input.prior
  room : nextLifecycleRevision input.expected = .ok (input.expected.lifecycleRevision + 1)
  branch : branchPlan sha256Hex (input.target t) (canonicalRows input.existingGenerations) current
    pending input.runtimeGenerationIds input.descriptors (input.activation t) = .ok (next, snaps)
  unoccupied : canonicalRows input.existingGenerations = next ∨
    ∀ r ∈ canonicalRows input.existingGenerations,
      r.lifecycleRevision ≠ input.expected.lifecycleRevision + 1

/-- The plan an accepted call returns. -/
def PlanInput.plan (input : PlanInput) (next : List GenerationRow) (snaps : List CatalogSnapshot) :
    Plan where
  applicationId := input.expected.applicationId
  authorizationRevision := input.expected.authorizationRevision
  lifecycleRevision := input.expected.lifecycleRevision + 1
  generations := next
  snapshots := snaps
  mutations := if canonicalRows input.existingGenerations = next then [] else
    (changedRows (canonicalRows input.existingGenerations) next).map .extensionGeneration ++
      snaps.map .catalogSnapshot
  replayed := canonicalRows input.existingGenerations = next

theorem parseDescriptors_eq_ok {ds ds' : List PermissionDescriptor} {t : Transition}
    (h : parseDescriptors ds t = .ok ds') : ds' = ds ∧ ∀ d ∈ ds, d.schemaOk = true ∧
      d.publisher = .extension t.deliveryClass t.extensionId := by
  unfold parseDescriptors fail at h
  split at h
  · cases h
  split at h
  · cases h
  rename_i hall
  split at h
  · cases h
  cases h
  simp only [not_not, List.all_eq_true, Bool.and_eq_true, decide_eq_true_eq] at hall
  exact ⟨rfl, hall⟩

section plan

variable {sha256Hex : String → String} {input : PlanInput} {t : Transition}
  {current pending : Option GenerationRow} {next : List GenerationRow}
  {snaps : List CatalogSnapshot}

/-- A call is accepted exactly when it passes every step. -/
theorem planAuthorizationLifecycle_eq_ok {plan : Plan} :
    planAuthorizationLifecycle sha256Hex input = .ok plan ↔
      ∃ t current pending next snaps, Accepted sha256Hex input t current pending next snaps ∧
        plan = input.plan next snaps := by
  constructor
  · intro h
    unfold planAuthorizationLifecycle fail at h
    obtain ⟨e, he, h⟩ := bind_eq_ok.mp h
    obtain rfl := parseExpectedRevision_eq_ok he
    obtain ⟨t, ht, h⟩ := bind_eq_ok.mp h
    split at h
    · cases h
    rename_i happ
    split at h
    · cases h
    rename_i hrevision
    split at h
    · cases h
    rename_i hcompat
    obtain ⟨ids, hids, h⟩ := bind_eq_ok.mp h
    obtain ⟨rfl, -⟩ := parseRuntimeGenerationIds_eq_ok hids
    obtain ⟨existing, hex, h⟩ := bind_eq_ok.mp h
    obtain ⟨rfl, -⟩ := parseExistingGenerations_eq_ok.mp hex
    obtain ⟨current, hc, h⟩ := bind_eq_ok.mp h
    obtain ⟨pending, hp, h⟩ := bind_eq_ok.mp h
    obtain ⟨ds, hds, h⟩ := bind_eq_ok.mp h
    obtain ⟨rfl, -⟩ := parseDescriptors_eq_ok hds
    split at h
    · cases h
    rename_i hgiven
    obtain ⟨prior, hprior, h⟩ := bind_eq_ok.mp h
    obtain ⟨rfl, -⟩ := parseDescriptors_eq_ok hprior
    obtain ⟨rev, hrev, h⟩ := bind_eq_ok.mp h
    obtain ⟨-, rfl⟩ := nextLifecycleRevision_eq_ok.mp hrev
    obtain ⟨⟨next, snaps⟩, hb, h⟩ := bind_eq_ok.mp h
    dsimp only at h
    split at h
    · cases h
    rename_i hfree
    cases h
    refine ⟨t, current, pending, next, snaps, ⟨he, ht, not_not.mp happ, not_not.mp hrevision,
      not_not.mp hcompat, hids, hex, hc, hp, hds, not_not.mp hgiven, hprior, hrev, hb, ?_⟩, ?_⟩
    · by_cases hsame : canonicalRows input.existingGenerations = next
      · exact .inl hsame
      · refine .inr fun r hr hlr => hfree ⟨by simpa using hsame, ?_⟩
        rw [List.any_eq_true]
        exact ⟨r, hr, by simpa using hlr⟩
    · simp [PlanInput.plan]
  · rintro ⟨t, current, pending, next, snaps, h, rfl⟩
    unfold planAuthorizationLifecycle
    refine bind_eq_ok.mpr ⟨_, h.expected, bind_eq_ok.mpr ⟨_, h.transition, ?_⟩⟩
    rw [if_neg (not_not.mpr h.application), if_neg (not_not.mpr h.revision),
      if_neg (not_not.mpr h.compatibility)]
    refine bind_eq_ok.mpr ⟨_, h.ids, bind_eq_ok.mpr ⟨_, h.rows, bind_eq_ok.mpr ⟨_, h.currentRow,
      bind_eq_ok.mpr ⟨_, h.pendingRow, bind_eq_ok.mpr ⟨_, h.descriptors, ?_⟩⟩⟩⟩⟩
    rw [if_neg (not_not.mpr h.priorGiven)]
    refine bind_eq_ok.mpr ⟨_, h.prior, bind_eq_ok.mpr ⟨_, h.room, bind_eq_ok.mpr
      ⟨_, h.branch, ?_⟩⟩⟩
    dsimp only
    rw [if_neg]
    · simp [PlanInput.plan]
    · rintro ⟨hne, hany⟩
      rcases h.unoccupied with hsame | hfree
      · exact hne (by simpa using hsame)
      · obtain ⟨r, hr, hlr⟩ := List.any_eq_true.mp hany
        exact hfree r hr (by simpa using hlr)

end plan

/-! ## Rows in their order -/

/-- The rows stand in the order of their numbers. -/
def Ordered (rows : List GenerationRow) : Prop :=
  rows.Pairwise fun a b => a.owner.generation ≤ b.owner.generation

theorem canonicalRows_ordered (rows : List GenerationRow) : Ordered (canonicalRows rows) :=
  List.pairwise_insertionSort (fun a b : GenerationRow => a.owner.generation ≤ b.owner.generation)
    rows

/-- Rows with distinct numbers have one order. -/
theorem canonicalRows_of_perm {rows next : List GenerationRow} (ho : Ordered next)
    (hn : (numbers next).Nodup) (h : rows.Perm next) : canonicalRows rows = next := by
  refine List.Perm.eq_of_pairwise ?_ (canonicalRows_ordered rows) ho
    ((canonicalRows_perm rows).trans h)
  intro a b ha hb hab hba
  have ha' : a ∈ next := h.mem_iff.mp ((canonicalRows_perm rows).mem_iff.mp ha)
  have heq : a.owner.generation = b.owner.generation := by omega
  exact List.inj_on_of_nodup_map hn ha' hb heq

/-- Putting a row in its own place changes nothing. -/
theorem replaceGeneration_self {next : List GenerationRow} (ho : Ordered next)
    (hn : (numbers next).Nodup) {r : GenerationRow} (hr : r ∈ next) :
    replaceGeneration next r = next :=
  canonicalRows_of_perm ho hn
    ((List.perm_append_singleton r _).trans (perm_cons_filter hn hr).symm)

theorem change_ordered {x : Target} {ids : List String} {existing next : List GenerationRow}
    {need : Prop} (h : Change x ids existing next need) (ho : Ordered existing) : Ordered next := by
  cases h with
  | same => exact ho
  | restate => exact canonicalRows_ordered _
  | promote => exact canonicalRows_ordered _
  | keep => exact canonicalRows_ordered _
  | fresh => exact canonicalRows_ordered _
  | reserve => exact canonicalRows_ordered _

/-- A row that the target built is built again. -/
theorem generation_again {x : Target} {n : Nat} {st : GenerationState} {is : List String}
    {r : GenerationRow} (h : generation x n st is = .ok r) :
    generation x r.owner.generation r.state r.runtimeGenerationIds = .ok r := by
  obtain ⟨hn, hs, hi⟩ := built_fields h
  rw [hn, hs, hi]
  exact h

/-- Two legal rows with the same runtime ids are one row. -/
theorem row_unique {id : Identity} {next : List GenerationRow} (L : Legal id next)
    {r q : GenerationRow} (hr : r ∈ next) (hq : q ∈ next)
    (h : r.runtimeGenerationIds = q.runtimeGenerationIds) : r = q := by
  have hschema := (L.each r hr).schema
  simp only [GenerationRow.schemaOk, runtimeIdsOk, Bool.and_eq_true, decide_eq_true_eq] at hschema
  have hlen : 1 ≤ r.runtimeGenerationIds.length := hschema.1.1.1.2.2.1
  obtain ⟨i, hi⟩ := List.exists_mem_of_length_pos hlen
  by_contra hne
  have hdisj := (List.nodup_flatMap.mp L.runtime).2
  have : Std.Symm (Function.onFun List.Disjoint
      fun x : GenerationRow => x.runtimeGenerationIds) := ⟨fun _ _ hd _ h₁ h₂ => hd h₂ h₁⟩
  have hfar : List.Disjoint r.runtimeGenerationIds q.runtimeGenerationIds :=
    hdisj.forall hr hq hne
  rw [← h] at hfar
  exact hfar hi hi

theorem mem_replaceGeneration {rows : List GenerationRow} {r r' : GenerationRow} :
    r ∈ replaceGeneration rows r' ↔
      r = r' ∨ (r ∈ rows ∧ r.owner.generation ≠ r'.owner.generation) := by
  rw [(replaceGeneration_perm rows r').mem_iff, List.mem_cons, List.mem_filter]
  simp

/-! ## Snapshots -/

/-- What a SHA-256 digest looks like in hexadecimal. -/
def HexDigest (sha256Hex : String → String) : Prop :=
  ∀ s, (sha256Hex s).toList.length = 64 ∧ ∀ c ∈ (sha256Hex s).toList, hexDigitOk c = true

theorem hexDigitOk_isAlphanum {c : Char} (h : hexDigitOk c = true) : c.isAlphanum = true := by
  simp only [hexDigitOk, Bool.or_eq_true, Bool.and_eq_true, decide_eq_true_eq] at h
  simp only [Char.isAlphanum, Char.isAlpha, Char.isLower, Bool.or_eq_true, decide_eq_true_eq,
    Bool.and_eq_true]
  rcases h with hd | ⟨ha, hf⟩
  · exact .inr hd
  · exact .inl (.inr ⟨ha, le_trans hf (by decide)⟩)

theorem snapshotId_ok {sha256Hex : String → String} (hsha : HexDigest sha256Hex)
    (parts : List String) :
    identifierOk (deterministicId sha256Hex "authorization-snapshot" parts) = true := by
  obtain ⟨hlen, hhex⟩ := hsha (Json.canonicalJson (.arr (parts.map .str)))
  unfold deterministicId identifierOk
  simp only [String.toList_append]
  rw [show "authorization.".toList = 'a' :: "uthorization.".toList from rfl]
  simp only [List.cons_append, Bool.and_eq_true, List.all_append, List.length_append, hlen]
  refine ⟨⟨by decide, by decide⟩, ?_⟩
  refine ⟨⟨⟨by decide, by decide⟩, by decide⟩, List.all_eq_true.mpr fun c hc => ?_⟩
  rw [hexDigitOk_isAlphanum (hhex c hc), Bool.true_or]

/-- The snapshots of parsed descriptors under a row's owner can be written. -/
theorem createSnapshots_isOk {sha256Hex : String → String} (hsha : HexDigest sha256Hex)
    {ds : List PermissionDescriptor} {r : GenerationRow} (hr : r.schemaOk = true)
    (hds : ∀ d ∈ ds, d.schemaOk = true ∧ d.publisher = r.owner.publisher) (st : SnapshotState) :
    ∃ snaps, createSnapshots sha256Hex ds r.owner r.applicationId st r.lifecycleRevision =
      .ok snaps := by
  simp only [GenerationRow.schemaOk, Bool.and_eq_true, decide_eq_true_eq] at hr
  obtain ⟨⟨⟨⟨⟨happ, howner⟩, -⟩, -⟩, hrev⟩, -⟩ := hr
  refine mapM_isOk fun d hd => ⟨_, if_pos ?_⟩
  obtain ⟨hok, hpub⟩ := hds d hd
  have howned := hok
  simp only [PermissionDescriptor.schemaOk, Bool.and_eq_true] at howned
  simp only [CatalogSnapshot.schemaOk, Bool.and_eq_true, decide_eq_true_eq]
  exact ⟨⟨⟨⟨⟨⟨snapshotId_ok hsha _, happ⟩, hok⟩, howner⟩, hrev⟩, by rw [← hpub]; exact howned.2⟩,
    hpub.symm⟩

/-! ## The branches, once more -/

section again

variable {sha256Hex : String → String} {x : Target} {id : Identity}
  {existing next : List GenerationRow} {current pending current' pending' : Option GenerationRow}
  {ids : List String} {ds : List PermissionDescriptor} {snaps : List CatalogSnapshot}
  {a : Activation}

theorem current_eq {st : GenerationState} {o : Option GenerationRow}
    (h : next.filter (·.state = st) = o.toList) {r : GenerationRow} (hr : r ∈ next)
    (hs : r.state = st) : o = some r :=
  (mem_state_iff h).mp ⟨hr, hs⟩

theorem current_none {st : GenerationState} {o : Option GenerationRow}
    (h : next.filter (·.state = st) = o.toList) (hno : ∀ r ∈ next, r.state ≠ st) : o = none := by
  cases o with
  | none => rfl
  | some r =>
    obtain ⟨hr, hs⟩ := (mem_state_iff h).mpr rfl
    exact absurd hs (hno r hr)

theorem onlyRow_unique {st : GenerationState} {o o' : Option GenerationRow}
    (h : next.filter (·.state = st) = o.toList) (h' : next.filter (·.state = st) = o'.toList) :
    o = o' := by
  cases o' with
  | none => exact current_none h fun r hr hs => by cases current_eq h' hr hs
  | some r =>
    obtain ⟨hr, hs⟩ := (mem_state_iff h').mpr rfl
    exact current_eq h hr hs

/-- Disabling again restates the disabled row. -/
theorem disable_again (L : Legal id next) (ho : Ordered next)
    (hc' : next.filter (·.state = .current) = current'.toList)
    (h : disablePlan sha256Hex x existing current ids ds = .ok (next, snaps)) :
    disablePlan sha256Hex x next current' ids ds = .ok (next, snaps) := by
  unfold disablePlan at h
  obtain ⟨⟨⟩, hstate, h⟩ := bind_eq_ok.mp h
  cases current with
  | none => cases h
  | some c =>
    obtain ⟨⟨⟩, hexact, h⟩ := bind_eq_ok.mp h
    obtain ⟨c', hb, h⟩ := bind_eq_ok.mp h
    obtain ⟨snaps', hsnaps, h⟩ := bind_eq_ok.mp h
    cases h
    obtain ⟨-, hs, hi⟩ := built_fields hb
    have hmem : c' ∈ replaceGeneration existing c' := mem_replaceGeneration.mpr (.inl rfl)
    obtain rfl := current_eq hc' hmem hs
    have hb' := generation_again hb
    rw [hs] at hb'
    unfold assertExactRuntimeGeneration at hexact
    rw [← hi] at hexact
    unfold disablePlan
    refine bind_eq_ok.mpr ⟨(), hstate, bind_eq_ok.mpr ⟨(), hexact, bind_eq_ok.mpr ⟨c', hb',
      bind_eq_ok.mpr ⟨_, hsnaps, ?_⟩⟩⟩⟩
    rw [replaceGeneration_self ho L.numbers hmem]

/-- No row is left in a state that the row put in does not have and the row taken out had. -/
theorem replaced_none {st : GenerationState} {c r' : GenerationRow}
    (hc : ∀ r ∈ existing, r.state = st → r.owner.generation = c.owner.generation)
    (hn : r'.owner.generation = c.owner.generation) (hs : r'.state ≠ st) :
    ∀ r ∈ replaceGeneration existing r', r.state ≠ st := by
  intro r hr hrs
  rcases mem_replaceGeneration.mp hr with rfl | ⟨hr, hne⟩
  · exact hs hrs
  · exact hne ((hc r hr hrs).trans hn.symm)

/-- An uninstall finds the row that it retired, at its own revision. -/
theorem retired_again (L : Legal id next) (hop : x.transition.operation = .uninstall)
    (hstate : assertState x.transition .removed = .ok ())
    (hnone : ∀ r ∈ next, r.state ≠ .current)
    (hc' : next.filter (·.state = .current) = current'.toList) {r' : GenerationRow}
    (hr' : r' ∈ next) (hs : r'.state = .retired) (hi : r'.runtimeGenerationIds = ids)
    (hrev : r'.lifecycleRevision = x.lifecycleRevision)
    (hsnaps : createSnapshots sha256Hex ds r'.owner x.transition.applicationId
      (retireSnapshotState .uninstall) x.lifecycleRevision = .ok snaps) :
    retirePlan sha256Hex x next current' ids ds = .ok (next, snaps) := by
  obtain rfl := current_none hc' hnone
  have hfind : next.find? (fun row => row.state = .retired ∧
      sameRuntimeGenerationIds row.runtimeGenerationIds ids) = some r' := by
    cases hf : next.find? (fun row => row.state = .retired ∧
        sameRuntimeGenerationIds row.runtimeGenerationIds ids) with
    | none =>
      rw [List.find?_eq_none] at hf
      exact absurd (hf r' hr') (by simp [hs, hi, sameRuntimeGenerationIds])
    | some q =>
      have hq := List.find?_some hf
      simp only [sameRuntimeGenerationIds, decide_eq_true_eq] at hq
      rw [row_unique L (List.mem_of_find?_eq_some hf) hr' (hq.2.trans hi.symm)]
  unfold retirePlan
  simp only [hop, if_true, hstate, hfind, ne_eq, not_true_eq_false, if_false, hrev, hsnaps]
  rfl

/-- Uninstalling again finds the retired row. -/
theorem uninstall_again (L : Legal id next) (hop : x.transition.operation = .uninstall)
    (hc : existing.filter (·.state = .current) = current.toList)
    (hc' : next.filter (·.state = .current) = current'.toList)
    (h : retirePlan sha256Hex x existing current ids ds = .ok (next, snaps)) :
    retirePlan sha256Hex x next current' ids ds = .ok (next, snaps) := by
  have h₀ := h
  unfold retirePlan at h
  obtain ⟨⟨⟩, hstate, h⟩ := bind_eq_ok.mp h
  rw [hop, if_pos rfl] at hstate
  cases current with
  | some c =>
    obtain ⟨r', hb, h⟩ := bind_eq_ok.mp h
    obtain ⟨⟨⟩, hexact, h⟩ := bind_eq_ok.mp h
    obtain ⟨snaps', hsnaps, h⟩ := bind_eq_ok.mp h
    cases h
    rw [hop] at hsnaps
    obtain ⟨hnum, hs, hi⟩ := built_fields hb
    have hids : c.runtimeGenerationIds = ids := by
      unfold assertExactRuntimeGeneration fail at hexact
      split at hexact
      · rename_i hsame
        simpa [sameRuntimeGenerationIds] using hsame
      · cases hexact
    refine retired_again L hop hstate (replaced_none (c := c) ?_ hnum (by rw [hs]; decide)) hc'
      (mem_replaceGeneration.mpr (.inl rfl)) hs (hi.trans hids) ?_ hsnaps
    · intro r hr hrs
      rw [Option.some.inj (current_eq hc hr hrs)]
    · obtain ⟨rfl, -⟩ := generation_eq_ok.mp hb
      rfl
  | none =>
    have hno : ∀ r ∈ existing, r.state ≠ .current := by
      intro r hr hrs
      cases current_eq hc hr hrs
    dsimp only at h
    split at h
    · cases h
    · rename_i row hfind
      have hrow := List.find?_some hfind
      simp only [sameRuntimeGenerationIds, decide_eq_true_eq] at hrow
      split at h
      · cases h
      · split at h
        · -- the first call already found the row at its revision
          obtain ⟨snaps', hsnaps, h⟩ := bind_eq_ok.mp h
          cases h
          obtain rfl := current_none hc' hno
          exact h₀
        · obtain ⟨r', hb, h⟩ := bind_eq_ok.mp h
          obtain ⟨snaps', hsnaps, h⟩ := bind_eq_ok.mp h
          cases h
          rw [hop] at hsnaps
          obtain ⟨hnum, hs, hi⟩ := built_fields hb
          refine retired_again L hop hstate ?_ hc' (mem_replaceGeneration.mpr (.inl rfl)) hs
            (hi.trans hrow.2) ?_ hsnaps
          · exact replaced_none (c := row) (fun r hr hrs => absurd hrs (hno r hr)) hnum
              (by rw [hs]; decide)
          · obtain ⟨rfl, -⟩ := generation_eq_ok.mp hb
            rfl

/-- Activating again restates the current row that carries the ids of the input. -/
theorem activate_again (hsha : HexDigest sha256Hex) (ho : Ordered next)
    (hn : (numbers next).Nodup) (hstate : assertState x.transition .active = .ok ())
    (hprior : ∀ d ∈ a.prior, d.schemaOk = true ∧
      d.publisher = .extension x.transition.deliveryClass x.transition.extensionId)
    (hc' : next.filter (·.state = .current) = current'.toList)
    (hp' : next.filter (·.state = .pendingConfiguration) = pending'.toList)
    (hnone : ∀ r ∈ next, r.state ≠ .pendingConfiguration) {n : Nat} {c' : GenerationRow}
    (hmem : c' ∈ next) (hb : generation x n .current ids = .ok c') :
    ∃ snaps', activatePlan sha256Hex x next current' pending' ids ds a = .ok (next, snaps') := by
  obtain rfl := current_none hp' hnone
  obtain ⟨hnum, hs, hi⟩ := built_fields hb
  obtain rfl := current_eq hc' hmem hs
  have hb' := generation_again hb
  rw [hs, hi] at hb'
  obtain ⟨hrow, hok⟩ := generation_eq_ok.mp hb
  by_cases hrep : a.incompatible ∧ sameRuntimeGenerationIds c'.runtimeGenerationIds ids ∧
      c'.lifecycleRevision = x.lifecycleRevision
  · refine ⟨[], ?_⟩
    unfold activatePlan
    refine bind_eq_ok.mpr ⟨(), hstate, ?_⟩
    dsimp only
    rw [if_pos hrep]
  · have hcomp : ¬ a.incompatible := by
      intro hin
      exact hrep ⟨hin, by simp [sameRuntimeGenerationIds, hi], by rw [hrow]⟩
    have hremoved : ∀ d ∈ (if a.update then removedDescriptors a.prior ds else []),
        d.schemaOk = true ∧ d.publisher = c'.owner.publisher := by
      intro d hd
      split at hd
      · rw [hrow]
        exact hprior d (List.mem_filter.mp hd).1
      · cases hd
    obtain ⟨snaps', hsnaps⟩ := createSnapshots_isOk hsha hok hremoved .deprecated
    rw [show c'.applicationId = x.transition.applicationId by rw [hrow],
      show c'.lifecycleRevision = x.lifecycleRevision by rw [hrow]] at hsnaps
    refine ⟨snaps', ?_⟩
    unfold activatePlan
    refine bind_eq_ok.mpr ⟨(), hstate, ?_⟩
    dsimp only
    rw [if_neg hrep, if_pos hcomp]
    unfold keepPlan
    refine bind_eq_ok.mpr ⟨c', hb', bind_eq_ok.mpr ⟨snaps', hsnaps, ?_⟩⟩
    rw [replaceGeneration_self ho hn hmem]

/-- What an activation that is not a repetition leaves. -/
structure Activated (x : Target) (ids : List String) (next : List GenerationRow) : Prop where
  current : ∃ n c', c' ∈ next ∧ generation x n .current ids = .ok c'
  nonePending : ∀ r ∈ next, r.state ≠ .pendingConfiguration

theorem retired_state {cs : List GenerationRow} (h : retireCurrent x current = .ok cs) :
    ∀ r ∈ cs, r.state = .retired := by
  intro r hr
  rcases retireCurrent_eq_ok.mp h with ⟨-, rfl⟩ | ⟨_, r', -, rfl, hb⟩
  · cases hr
  · rw [List.mem_singleton.mp hr]
    exact (built_fields hb).2.1

theorem mem_withoutCurrent {rows : List GenerationRow} {r : GenerationRow}
    (h : r ∈ withoutCurrent rows current) : r ∈ rows := by
  cases current with
  | none => exact h
  | some c => exact (List.mem_filter.mp h).1

/-- The rows of an activation under a new or promoted row, none of them pending. -/
theorem activated_append {n : Nat} {rest cs : List GenerationRow} {c' : GenerationRow}
    (hb : generation x n .current ids = .ok c') (hcs : retireCurrent x current = .ok cs)
    (hrest : ∀ r ∈ rest, r.state ≠ .pendingConfiguration) :
    Activated x ids (canonicalRows (withoutCurrent rest current ++ cs ++ [c'])) := by
  refine ⟨⟨n, c', ?_, hb⟩, fun r hr hrs => ?_⟩
  · rw [(canonicalRows_perm _).mem_iff]
    simp
  · rw [(canonicalRows_perm _).mem_iff, List.mem_append, List.mem_append, List.mem_singleton] at hr
    rcases hr with (hr | hr) | rfl
    · exact hrest r (mem_withoutCurrent hr) hrs
    · rw [retired_state hcs r hr] at hrs
      cases hrs
    · rw [(built_fields hb).2.1] at hrs
      cases hrs

theorem freshPlan_activated (hnone : ∀ r ∈ existing, r.state ≠ .pendingConfiguration)
    (h : freshPlan sha256Hex x existing current ids a = .ok (next, snaps)) :
    Activated x ids next := by
  unfold freshPlan at h
  split at h
  · cases h
  · obtain ⟨n, -, h⟩ := bind_eq_ok.mp h
    obtain ⟨f, hb, h⟩ := bind_eq_ok.mp h
    obtain ⟨cs, hcs, h⟩ := bind_eq_ok.mp h
    obtain ⟨_, -, h⟩ := bind_eq_ok.mp h
    cases h
    exact activated_append hb hcs hnone

/-- An activation leaves its row, unless it finds it. -/
theorem activatePlan_activated
    (hp : existing.filter (·.state = .pendingConfiguration) = pending.toList)
    (h : activatePlan sha256Hex x existing current pending ids ds a = .ok (next, snaps)) :
    assertState x.transition .active = .ok () ∧ (next = existing ∨ Activated x ids next) := by
  unfold activatePlan at h
  obtain ⟨⟨⟩, hstate, h⟩ := bind_eq_ok.mp h
  refine ⟨hstate, ?_⟩
  cases pending with
  | some p =>
    dsimp only at h
    unfold promotePlan at h
    split at h
    · cases h
    · rename_i hsame
      simp only [not_or, not_not, sameRuntimeGenerationIds, decide_eq_true_eq] at hsame
      obtain ⟨p', hb, h⟩ := bind_eq_ok.mp h
      obtain ⟨cs, hcs, h⟩ := bind_eq_ok.mp h
      obtain ⟨_, -, h⟩ := bind_eq_ok.mp h
      cases h
      rw [hsame.2] at hb
      refine .inr (activated_append hb hcs fun r hr hrs => ?_)
      -- the promoted row was the only pending one
      rw [List.mem_filter, decide_eq_true_eq] at hr
      rw [Option.some.inj (current_eq hp hr.1 hrs)] at hr
      exact hr.2 rfl
  | none =>
    have hnone : ∀ r ∈ existing, r.state ≠ .pendingConfiguration := by
      intro r hr hrs
      cases current_eq hp hr hrs
    cases current with
    | none => exact .inr (freshPlan_activated hnone h)
    | some c =>
      dsimp only at h
      split at h
      · cases h
        exact .inl rfl
      · split at h
        · unfold keepPlan at h
          obtain ⟨c', hb, h⟩ := bind_eq_ok.mp h
          obtain ⟨_, -, h⟩ := bind_eq_ok.mp h
          cases h
          refine .inr ⟨⟨_, c', mem_replaceGeneration.mpr (.inl rfl), hb⟩, fun r hr hrs => ?_⟩
          rcases mem_replaceGeneration.mp hr with rfl | ⟨hr, -⟩
          · rw [(built_fields hb).2.1] at hrs
            cases hrs
          · exact hnone r hr hrs
        · exact .inr (freshPlan_activated hnone h)

/-- Every operation but a quarantine, planned again over legal rows of its own, leaves them. -/
theorem branch_again (hsha : HexDigest sha256Hex) (L : Legal id next) (ho : Ordered next)
    (hop : x.transition.operation ≠ .quarantine)
    (hprior : ∀ d ∈ a.prior, d.schemaOk = true ∧
      d.publisher = .extension x.transition.deliveryClass x.transition.extensionId)
    (hc : existing.filter (·.state = .current) = current.toList)
    (hp : existing.filter (·.state = .pendingConfiguration) = pending.toList)
    (hc' : next.filter (·.state = .current) = current'.toList)
    (hp' : next.filter (·.state = .pendingConfiguration) = pending'.toList)
    (h : branchPlan sha256Hex x existing current pending ids ds a = .ok (next, snaps)) :
    ∃ snaps', branchPlan sha256Hex x next current' pending' ids ds a = .ok (next, snaps') := by
  have activates : ∀ {snaps}, activatePlan sha256Hex x existing current pending ids ds a =
      .ok (next, snaps) → ∃ snaps',
        activatePlan sha256Hex x next current' pending' ids ds a = .ok (next, snaps') := by
    intro snaps h
    obtain ⟨hstate, rfl | hact⟩ := activatePlan_activated hp h
    · rw [onlyRow_unique hc' hc, onlyRow_unique hp' hp]
      exact ⟨snaps, h⟩
    · obtain ⟨n, c', hmem, hb⟩ := hact.current
      exact activate_again hsha ho L.numbers hstate hprior hc' hp' hact.nonePending hmem hb
  unfold branchPlan at h ⊢
  cases hx : x.transition.operation <;> simp only [hx] at h ⊢
  case disable => exact ⟨snaps, disable_again L ho hc' h⟩
  case uninstall => exact ⟨snaps, uninstall_again L hx hc hc' h⟩
  case quarantine => exact absurd hx hop
  all_goals exact activates h

/-- A quarantine over the rows it left is refused: only uninstall may find a retired row. -/
theorem quarantine_refused (hop : x.transition.operation = .quarantine)
    (hc : existing.filter (·.state = .current) = current.toList)
    (hc' : next.filter (·.state = .current) = current'.toList)
    (h : branchPlan sha256Hex x existing current pending ids ds a = .ok (next, snaps))
    (result : List GenerationRow × List CatalogSnapshot) :
    branchPlan sha256Hex x next current' pending' ids ds a ≠ .ok result := by
  unfold branchPlan at h ⊢
  simp only [hop] at h ⊢
  unfold retirePlan at h
  obtain ⟨-, -, h⟩ := bind_eq_ok.mp h
  cases current with
  | none =>
    dsimp only at h
    split at h
    · cases h
    · rw [if_pos (by rw [hop]; decide)] at h
      cases h
  | some c =>
    obtain ⟨r', hb, h⟩ := bind_eq_ok.mp h
    obtain ⟨-, -, h⟩ := bind_eq_ok.mp h
    obtain ⟨_, -, h⟩ := bind_eq_ok.mp h
    cases h
    obtain ⟨hnum, hs, -⟩ := built_fields hb
    obtain rfl := current_none hc' (replaced_none (c := c)
      (fun r hr hrs => by rw [Option.some.inj (current_eq hc hr hrs)]) hnum (by rw [hs]; decide))
    intro h'
    unfold retirePlan at h'
    obtain ⟨-, -, h'⟩ := bind_eq_ok.mp h'
    dsimp only at h'
    split at h'
    · cases h'
    · rw [if_pos (by rw [hop]; decide)] at h'
      cases h'

end again

/-! ## Replays -/

/-- Planning the input again over the rows of the plan writes nothing and leaves these rows. -/
def Replays (sha256Hex : String → String) (input : PlanInput) (plan : Plan) : Prop :=
  ∃ again, planAuthorizationLifecycle sha256Hex
      { input with existingGenerations := plan.generations } = .ok again ∧
    again.replayed = true ∧ again.mutations = [] ∧ again.generations = plan.generations

/-- **Replay of an accepted plan.** A plan is recognised when it is planned again exactly when
it is not a quarantine and its runtime ids were clear. -/
theorem replay_iff {sha256Hex : String → String} (hsha : HexDigest sha256Hex) {input : PlanInput}
    {plan : Plan} (h : planAuthorizationLifecycle sha256Hex input = .ok plan) {t : Transition}
    (ht : parseTransition input.transition = .ok t) :
    Replays sha256Hex input plan ↔ t.operation ≠ .quarantine ∧
      IdsClear t.operation (input.incompatible t) input.expected input.runtimeGenerationIds
        input.existingGenerations := by
  obtain ⟨t', need, ht', -, hcur, hpen, hpl, hneed⟩ := planAuthorizationLifecycle_planned h
  obtain rfl : t = t' := Except.ok.inj (ht.symm.trans ht')
  obtain ⟨t', current, pending, next, snaps, hacc, rfl⟩ :=
    planAuthorizationLifecycle_eq_ok.mp h
  obtain rfl : t = t' := Except.ok.inj (ht.symm.trans hacc.transition)
  have ho : Ordered next := change_ordered hpl.change (canonicalRows_ordered _)
  constructor
  · rintro ⟨again, hagain, -, -, -⟩
    have hplan := hagain
    obtain ⟨t', current', pending', next', snaps', hacc', rfl⟩ :=
      planAuthorizationLifecycle_eq_ok.mp hagain
    obtain rfl : t = t' := Except.ok.inj (ht.symm.trans hacc'.transition)
    obtain ⟨_, _, ht'', -, hcur', hpen', hpl', -⟩ := planAuthorizationLifecycle_planned hplan
    obtain rfl := Except.ok.inj (ht.symm.trans ht'')
    have L : Legal t.identity next :=
      ⟨fun r hr => (hpl'.each r hr).1, hpl'.numbers, hpl'.runtime, hcur', hpen'⟩
    refine ⟨fun hop => ?_, hneed.mp ((planned_legal_iff hpl hcur hpen).mp L)⟩
    have hb' : branchPlan sha256Hex (input.target t) (canonicalRows next) current' pending'
        input.runtimeGenerationIds input.descriptors (input.activation t) = .ok (next', snaps') :=
      hacc'.branch
    have hc' : (canonicalRows next).filter (·.state = .current) = current'.toList :=
      onlyRow_eq_ok.mp hacc'.currentRow
    rw [show canonicalRows next = next from canonicalRows_of_perm ho L.numbers (.refl _)]
      at hb' hc'
    exact quarantine_refused hop (onlyRow_eq_ok.mp hacc.currentRow) hc' hacc.branch _ hb'
  · rintro ⟨hop, hclear⟩
    have L : Legal t.identity next := (planned_legal_iff hpl hcur hpen).mpr (hneed.mpr hclear)
    have hcanon : canonicalRows next = next := canonicalRows_of_perm ho L.numbers (.refl _)
    -- the rows of the plan pass the parsers again
    obtain ⟨rows', hrows', ⟨current', hc'⟩, ⟨pending', hp'⟩⟩ := (planned_accepts_iff hpl).mpr L t
      input.expected rfl (Nat.le_refl _) (Nat.le_refl _) hpl.unexhausted
    obtain ⟨rfl, -⟩ := parseExistingGenerations_eq_ok.mp hrows'
    have hc'' : (canonicalRows next).filter (·.state = .current) = current'.toList :=
      onlyRow_eq_ok.mp hc'
    have hp'' : (canonicalRows next).filter (·.state = .pendingConfiguration) = pending'.toList :=
      onlyRow_eq_ok.mp hp'
    rw [hcanon] at hc'' hp''
    obtain ⟨snaps', hagain⟩ := branch_again hsha L ho hop (parseDescriptors_eq_ok hacc.prior).2
      (onlyRow_eq_ok.mp hacc.currentRow) (onlyRow_eq_ok.mp hacc.pendingRow) hc'' hp'' hacc.branch
    refine ⟨PlanInput.plan { input with existingGenerations := next } next snaps',
      planAuthorizationLifecycle_eq_ok.mpr ⟨t, current', pending', next, snaps',
        ⟨hacc.expected, hacc.transition, hacc.application, hacc.revision, hacc.compatibility,
          hacc.ids, hrows', hc', hp', hacc.descriptors, hacc.priorGiven, hacc.prior, hacc.room,
          ?_, .inl hcanon⟩, rfl⟩, ?_, ?_, rfl⟩
    · show branchPlan sha256Hex (input.target t) (canonicalRows next) current' pending'
        input.runtimeGenerationIds input.descriptors (input.activation t) = .ok (next, snaps')
      rw [hcanon]
      exact hagain
    · simp [PlanInput.plan, hcanon]
    · simp [PlanInput.plan, hcanon]

/-! ## A quarantine that cannot be repeated -/

/-- The digest of the empty text. -/
def emptyDigest (_ : String) : String :=
  "e3b0c44298fc1c149afbf4c8996fb92427ae41e4649b934ca495991b7852b855"

theorem emptyDigest_hex : HexDigest emptyDigest := by
  intro s
  unfold emptyDigest
  exact ⟨by decide, List.all_iff_forall_prop.mp (by decide)⟩

/-- An install is replayed: its runtime id stands in no row. -/
theorem replay_iff_install :
    Replays emptyDigest (moduleCall .install 0 "runtime-1" [])
        ⟨"customer-a", 1, 1, [moduleRow 1 "runtime-1" .current 1], [],
          [.extensionGeneration (moduleRow 1 "runtime-1" .current 1)], false⟩ ↔
      Operation.install ≠ .quarantine ∧ IdsClear .install false
        ⟨"customer-a", "production", 1, 0⟩ ["runtime-1"] [] :=
  replay_iff (t := ⟨"customer-a", .platformPlugin, "module.sales", .install, .active, 0, 1,
    "runtime-1"⟩) emptyDigest_hex (by decide) (by decide)

/-- The runner quarantines the extension after a failed install. -/
def quarantineCall (rows : List GenerationRow) : PlanInput where
  expected := ⟨"customer-a", "production", 1, 1⟩
  transition := .lifecycle ⟨"customer-a", .platformPlugin, "module.sales", .install, .failed,
    .quarantined, 1, 2, "runtime-1"⟩
  existingGenerations := rows
  descriptors := []
  priorGenerationDescriptors := none
  runtimeGenerationIds := ["runtime-1"]
  updateCompatibility := none

/-- **A quarantine is not replayed.** The call that retired the row is refused over the retired
row. -/
theorem quarantine_not_replayed :
    planAuthorizationLifecycle emptyDigest
        (quarantineCall [moduleRow 1 "runtime-1" .current 1]) =
      .ok ⟨"customer-a", 1, 2, [moduleRow 1 "runtime-1" .retired 2], [],
        [.extensionGeneration (moduleRow 1 "runtime-1" .retired 2)], false⟩ ∧
    planAuthorizationLifecycle emptyDigest
        (quarantineCall [moduleRow 1 "runtime-1" .retired 2]) =
      .error ⟨.revisionConflict,
        "Only uninstall can advance an already retired authorization generation."⟩ := by
  constructor <;> decide

end KNex.Runtime.AuthorizationLifecycle
