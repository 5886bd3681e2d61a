import KNex.Core.Digraph
import KNex.Core.Except
import KNex.Upgrade.UpgradePlanner

/-!
# When an upgrade plan is ready

`ready_iff`: a plan is ready exactly when every check passes, the migrations cover each target's
revisions without a gap, each dependency names a step of the plan, and the steps do not depend on
each other in a circle. Its steps are then the migrations between the two revisions of the
targets, each once, after all they depend on (`plan_steps`).

The passes are taken in the source's order. Each has a lemma that says when it leaves no error
and what it has then collected (`collect_spec`, `walkTargets_spec`, `orderLoop_spec`).
-/
namespace KNex.Upgrade

open KNex.Core KNex.Contracts KNex.Core.Digraph

/-! ## Keys -/

theorem validId_no_at {s : String} (h : validId s = true) : '@' ∉ s.toList := by
  intro hat
  unfold validId at h
  have hmem : '@' ∈ s.toList.map fun c => if c = '.' then '-' else c :=
    List.mem_map.mpr ⟨'@', hat, by decide⟩
  obtain ⟨p, hp, hc⟩ := mem_splitChar (s := '-') hmem (by decide)
  split at h
  · rename_i q r rs hs
    rw [hs] at hp
    simp only [Bool.and_eq_true, List.all_eq_true] at h
    rcases List.mem_cons.mp hp with rfl | hp
    · have hw := h.1
      unfold isWord at hw
      split at hw
      · cases hc
      · simp only [Bool.and_eq_true, List.all_eq_true] at hw
        rcases List.mem_cons.mp hc with rfl | hc
        · exact absurd hw.1 (by decide)
        · exact absurd (hw.2 _ hc) (by decide)
    · have hr := h.2 p hp
      simp only [isAlnumRun, Bool.and_eq_true, List.all_eq_true] at hr
      exact absurd (hr.2 _ hc) (by decide)
  · cases h

/-- Keys of valid artifacts name the artifact and the revision. -/
theorem revisionKey_injective {a b : String} {r s : Int} (ha : '@' ∉ a.toList)
    (hb : '@' ∉ b.toList) (hr : 0 ≤ r) (hs : 0 ≤ s) (h : revisionKey a r = revisionKey b s) :
    a = b ∧ r = s := by
  obtain ⟨m, rfl⟩ := Int.eq_ofNat_of_zero_le hr
  obtain ⟨n, rfl⟩ := Int.eq_ofNat_of_zero_le hs
  have hl := congrArg String.toList h
  simp only [revisionKey, String.toList_append, List.append_assoc] at hl
  obtain ⟨h1, h2⟩ := append_sep_cancel (z := '@') ha hb hl
  refine ⟨String.toList_inj.mp h1, ?_⟩
  have h3 : toString m = toString n := String.toList_inj.mp h2
  rw [toString_nat_injective h3]

/-! ## Errors -/

@[simp] theorem noErrors_append (a b : List UpgradeDiagnostic) :
    noErrors (a ++ b) = (noErrors a && noErrors b) := List.all_append

@[simp] theorem noErrors_diagnostic (code : DiagnosticCode) (message : String)
    (artifactId : Option String) : noErrors [diagnostic code message artifactId] = false := rfl

/-! ## Collecting by key -/

section collect

variable {α : Type} {valid : α → Bool} {key : α → String} {invalid duplicate : α → UpgradeDiagnostic}

/-- Every element is valid, and no two have one key. -/
def Clean (valid : α → Bool) (key : α → String) (l : List α) : Prop :=
  (∀ a ∈ l, valid a = true) ∧ (l.map key).Nodup

theorem clean_snoc {l : List α} {a : α} :
    Clean valid key (l ++ [a]) ↔ Clean valid key l ∧ valid a = true ∧ key a ∉ l.map key := by
  unfold Clean
  rw [List.map_append, List.nodup_append']
  simp only [List.forall_mem_append, List.forall_mem_singleton, List.map_cons, List.map_nil,
    List.nodup_singleton, true_and, List.disjoint_singleton]
  tauto

/-- The loop leaves no error exactly when the elements are clean, and has then filed each under
its key. -/
theorem collect_spec (hinvalid : ∀ a, noErrors [invalid a] = false)
    (hduplicate : ∀ a, noErrors [duplicate a] = false) (l : List α) :
    (noErrors (l.foldl (collectOne valid key invalid duplicate) ([], .empty)).1 = true ↔
        Clean valid key l) ∧
      (Clean valid key l → (l.foldl (collectOne valid key invalid duplicate) ([], .empty)).2.entries
        = l.map fun a => (key a, a)) := by
  refine foldl_rule (P := fun gone (s : List UpgradeDiagnostic × JsMap String α) =>
    (noErrors s.1 = true ↔ Clean valid key gone) ∧
      (Clean valid key gone → s.2.entries = gone.map fun a => (key a, a))) ?_ ?_
  · exact ⟨by simp [noErrors, Clean], fun _ => rfl⟩
  · intro gone a rest s _ ⟨herr, hfiled⟩
    unfold collectOne
    rw [clean_snoc]
    by_cases hv : valid a = true
    · rw [if_neg (by simp [hv])]
      cases hget : s.2.get? (key a) with
      | some b =>
        rw [if_pos (by simp)]
        have hno : ¬ (Clean valid key gone ∧ valid a = true ∧ key a ∉ gone.map key) := by
          rintro ⟨hc, -, hnot⟩
          rw [JsMap.get?_eq_some, hfiled hc, List.mem_map] at hget
          obtain ⟨c, hc', heq⟩ := hget
          exact hnot (List.mem_map.mpr ⟨c, hc', congrArg Prod.fst heq⟩)
        refine ⟨iff_of_false ?_ hno, fun hc => absurd hc hno⟩
        rw [noErrors_append, hduplicate]
        simp
      | none =>
        rw [if_neg (by simp)]
        have hfresh : Clean valid key gone → key a ∉ gone.map key := by
          intro hc hin
          rw [JsMap.get?_eq_none, JsMap.keys, hfiled hc, List.map_map] at hget
          exact hget hin
        refine ⟨herr.trans ⟨fun hc => ⟨hc, hv, hfresh hc⟩, fun hc => hc.1⟩, fun hc => ?_⟩
        rw [JsMap.entries_set_of_none hget, hfiled hc.1, List.map_append]
        rfl
    · rw [if_pos (by simpa using hv)]
      refine ⟨iff_of_false ?_ (fun hc => hv hc.2.1), fun hc => absurd hc.2.1 hv⟩
      rw [noErrors_append, hinvalid]
      simp

theorem collectTargets_spec (l : List UpgradeTarget) :
    (noErrors (collectTargets l).1 = true ↔ Clean targetOk UpgradeTarget.artifactId l) ∧
      (Clean targetOk UpgradeTarget.artifactId l →
        (collectTargets l).2.entries = l.map fun t => (t.artifactId, t)) :=
  collect_spec (fun _ => rfl) (fun _ => rfl) l

theorem collectMigrations_spec {V : Type} (targets : JsMap String UpgradeTarget)
    (l : List (UpgradeMigration V)) :
    (noErrors (collectMigrations targets l).1 = true ↔
        Clean (migrationOk targets) UpgradeMigration.fromKey l) ∧
      (Clean (migrationOk targets) UpgradeMigration.fromKey l →
        (collectMigrations targets l).2.entries = l.map fun m => (m.fromKey, m)) :=
  collect_spec (fun _ => rfl) (fun _ => rfl) l

end collect

/-! ## What is planned -/

variable {V : Type}

/-- A step for the target's artifact, with its revisions and its handlers. -/
structure MigrationOk (target : UpgradeTarget) (migration : UpgradeMigration V) : Prop where
  artifact : migration.artifactId = target.artifactId
  kind : migration.kind = target.kind
  id : validId migration.id = true
  fromRevision : revision migration.fromRevision = true
  toRevision : migration.toRevision = migration.fromRevision + 1
  predecessor : migration.fromRevision ∈ migration.predecessorRevisions
  migrate : migration.migrate.isSome = true
  validate : migration.validate.isSome = true

/-- The checks of the planner that look at no two steps together. -/
structure Checked (h : Host) (input : PlanInput V) : Prop where
  release : releaseDiagnostics input = []
  identity : identityDiagnostics h input = []
  targets : ∀ t ∈ input.targets, targetOk t = true
  artifacts : (input.targets.map UpgradeTarget.artifactId).Nodup
  migrations : ∀ m ∈ input.migrations, ∃ t ∈ input.targets, MigrationOk t m
  revisions : (input.migrations.map fun m => (m.artifactId, m.fromRevision)).Nodup

/-- The step lies between the two revisions of the target. -/
def InRange (target : UpgradeTarget) (migration : UpgradeMigration V) : Prop :=
  migration.artifactId = target.artifactId ∧ target.currentRevision ≤ migration.fromRevision ∧
    migration.fromRevision < target.targetRevision

instance (target : UpgradeTarget) (migration : UpgradeMigration V) :
    Decidable (InRange target migration) := inferInstanceAs (Decidable (_ ∧ _))

/-- A step that the plan needs. -/
def Planned (input : PlanInput V) (migration : UpgradeMigration V) : Prop :=
  migration ∈ input.migrations ∧ ∃ t ∈ input.targets, InRange t migration

/-- There is a step for every revision of the target. -/
def Covered (input : PlanInput V) (target : UpgradeTarget) : Prop :=
  ∀ r, target.currentRevision ≤ r → r < target.targetRevision →
    ∃ m ∈ input.migrations, m.artifactId = target.artifactId ∧ m.fromRevision = r

/-- The key under which other steps name the step. -/
def UpgradeMigration.toKey (migration : UpgradeMigration V) : String :=
  revisionKey migration.artifactId migration.toRevision

/-- The step of the first key waits for the step of the second: it depends on it, or follows it
on the same artifact. -/
def Needs (input : PlanInput V) (k k' : String) : Prop :=
  ∃ m, Planned input m ∧ m.toKey = k ∧ (k' ∈ m.dependsOn.getD [] ∨
    (∃ t ∈ input.targets, InRange t m ∧ t.currentRevision ≠ m.fromRevision) ∧
      k' = revisionKey m.artifactId m.fromRevision)

/-- Each dependency names a step of the plan. -/
def Resolvable (input : PlanInput V) : Prop :=
  ∀ m, Planned input m → ∀ k ∈ m.dependsOn.getD [], ∃ m', Planned input m' ∧ m'.toKey = k

section maps

variable {h : Host} {input : PlanInput V}

theorem Checked.target_no_at (C : Checked h input) {t : UpgradeTarget} (ht : t ∈ input.targets) :
    '@' ∉ t.artifactId.toList := by
  have hok := C.targets t ht
  simp only [targetOk, Bool.and_eq_true] at hok
  exact validId_no_at hok.1.1.1

theorem Checked.current_nonneg (C : Checked h input) {t : UpgradeTarget}
    (ht : t ∈ input.targets) : 0 ≤ t.currentRevision ∧ t.currentRevision ≤ t.targetRevision := by
  have hok := C.targets t ht
  simp only [targetOk, revision, Bool.and_eq_true, decide_eq_true_eq] at hok
  exact ⟨hok.1.1.2.1, hok.2⟩

theorem Checked.migration_no_at (C : Checked h input) {m : UpgradeMigration V}
    (hm : m ∈ input.migrations) : '@' ∉ m.artifactId.toList := by
  obtain ⟨t, ht, hok⟩ := C.migrations m hm
  rw [hok.artifact]
  exact C.target_no_at ht

theorem Checked.from_nonneg (C : Checked h input) {m : UpgradeMigration V}
    (hm : m ∈ input.migrations) : 0 ≤ m.fromRevision := by
  obtain ⟨t, -, hok⟩ := C.migrations m hm
  have := hok.fromRevision
  simp only [revision, decide_eq_true_eq] at this
  exact this.1

theorem Checked.to_eq (C : Checked h input) {m : UpgradeMigration V}
    (hm : m ∈ input.migrations) : m.toRevision = m.fromRevision + 1 := by
  obtain ⟨t, -, hok⟩ := C.migrations m hm
  exact hok.toRevision

/-- A step is known by its artifact and the revision that it leaves. -/
theorem Checked.unique (C : Checked h input) {m m' : UpgradeMigration V}
    (hm : m ∈ input.migrations) (hm' : m' ∈ input.migrations)
    (ha : m.artifactId = m'.artifactId) (hr : m.fromRevision = m'.fromRevision) : m = m' :=
  List.inj_on_of_nodup_map C.revisions hm hm' (by rw [ha, hr])

theorem Checked.unique_toKey (C : Checked h input) {m m' : UpgradeMigration V}
    (hm : m ∈ input.migrations) (hm' : m' ∈ input.migrations) (hk : m.toKey = m'.toKey) :
    m = m' := by
  have hf := C.from_nonneg hm
  have hf' := C.from_nonneg hm'
  have ht := C.to_eq hm
  have ht' := C.to_eq hm'
  obtain ⟨ha, hr⟩ := revisionKey_injective (C.migration_no_at hm) (C.migration_no_at hm')
    (by omega) (by omega) hk
  exact C.unique hm hm' ha (by omega)

theorem Checked.unique_target (C : Checked h input) {t t' : UpgradeTarget}
    (ht : t ∈ input.targets) (ht' : t' ∈ input.targets) (ha : t.artifactId = t'.artifactId) :
    t = t' :=
  List.inj_on_of_nodup_map C.artifacts ht ht' ha

/-- The maps that the two loops leave. -/
structure Maps (input : PlanInput V) (targets : JsMap String UpgradeTarget)
    (migrations : JsMap String (UpgradeMigration V)) : Prop where
  targets : targets.entries = input.targets.map fun t => (t.artifactId, t)
  migrations : migrations.entries = input.migrations.map fun m => (m.fromKey, m)

variable {targets : JsMap String UpgradeTarget} {migrations : JsMap String (UpgradeMigration V)}

theorem get?_of_entries {α : Type} {map : JsMap String α} {l : List α} {key : α → String}
    (he : map.entries = l.map fun a => (key a, a)) {k : String} {a : α} :
    map.get? k = some a ↔ a ∈ l ∧ key a = k := by
  rw [JsMap.get?_eq_some, he, List.mem_map]
  constructor
  · rintro ⟨b, hb, heq⟩
    cases heq
    exact ⟨hb, rfl⟩
  · rintro ⟨ha, rfl⟩
    exact ⟨a, ha, rfl⟩

theorem Maps.get?_migration (hmaps : Maps input targets migrations) (C : Checked h input)
    {a : String} {r : Int} (ha : '@' ∉ a.toList) (hr : 0 ≤ r) {m : UpgradeMigration V} :
    migrations.get? (revisionKey a r) = some m ↔
      m ∈ input.migrations ∧ m.artifactId = a ∧ m.fromRevision = r := by
  rw [get?_of_entries hmaps.migrations]
  constructor
  · rintro ⟨hm, hk⟩
    exact ⟨hm, revisionKey_injective (C.migration_no_at hm) ha (C.from_nonneg hm) hr hk⟩
  · rintro ⟨hm, rfl, rfl⟩
    exact ⟨hm, rfl⟩

/-- `migrationOk` looks the target up. -/
theorem migrationOk_iff (he : targets.entries = input.targets.map fun t => (t.artifactId, t))
    {m : UpgradeMigration V} :
    migrationOk targets m = true ↔ ∃ t ∈ input.targets, MigrationOk t m := by
  unfold migrationOk
  constructor
  · intro hok
    split at hok
    · cases hok
    · rename_i t ht
      obtain ⟨hm, hid⟩ := (get?_of_entries he).mp ht
      simp only [Bool.and_eq_true, decide_eq_true_eq] at hok
      obtain ⟨⟨⟨⟨⟨⟨h1, h2⟩, h3⟩, h4⟩, h5⟩, h6⟩, h7⟩ := hok
      exact ⟨t, hm, ⟨hid.symm, h2, h1, h3, h4, h5, h6, h7⟩⟩
  · rintro ⟨t, hm, hok⟩
    have ht := (get?_of_entries he).mpr ⟨hm, hok.artifact.symm⟩
    rw [ht]
    simp only [Bool.and_eq_true, decide_eq_true_eq]
    exact ⟨⟨⟨⟨⟨⟨hok.id, hok.kind⟩, hok.fromRevision⟩, hok.toRevision⟩, hok.predecessor⟩,
      hok.migrate⟩, hok.validate⟩

/-! ## Walking the targets -/

/-- The map holds the steps of `S`, each under its own key. -/
def Holds (S : UpgradeMigration V → Prop) (pending : Pending V) : Prop :=
  ∀ k step, pending.get? k = some step ↔ ∃ m, S m ∧ step = planStep m ∧ k = m.toKey

theorem Holds.congr {S S' : UpgradeMigration V → Prop} {pending : Pending V}
    (hS : Holds S pending) (h : ∀ m, S m ↔ S' m) : Holds S' pending := by
  intro k step
  rw [hS]
  exact exists_congr fun m => and_congr_left fun _ => h m

theorem Holds.set (C : Checked h input) {S : UpgradeMigration V → Prop} {pending : Pending V}
    (hS : Holds S pending) (hmem : ∀ m, S m → m ∈ input.migrations) {m : UpgradeMigration V}
    (hm : m ∈ input.migrations) :
    Holds (fun m' => S m' ∨ m' = m) (pending.set (planStep m).key (planStep m)) := by
  intro k step
  rw [JsMap.get?_set]
  constructor
  · intro hget
    split at hget
    · rename_i hk
      exact ⟨m, .inr rfl, (Option.some.inj hget).symm, hk⟩
    · obtain ⟨m', hm', hstep, hk⟩ := (hS k step).mp hget
      exact ⟨m', .inl hm', hstep, hk⟩
  · rintro ⟨m', hm', rfl, rfl⟩
    split
    · rename_i hk
      -- one key, one step
      have hin : m' ∈ input.migrations := by
        rcases hm' with hm' | rfl
        · exact hmem m' hm'
        · exact hm
      rw [C.unique_toKey hin hm hk]
    · rename_i hk
      rcases hm' with hm' | rfl
      · exact (hS _ _).mpr ⟨m', hm', rfl, rfl⟩
      · exact absurd rfl hk

theorem walkTarget_spec (hmaps : Maps input targets migrations) (C : Checked h input) {a : String}
    (ha : '@' ∉ a.toList) : ∀ (left : Nat) (current : Int), 0 ≤ current →
    ∀ (s : List UpgradeDiagnostic × Pending V) (S : UpgradeMigration V → Prop),
    (∀ m, S m → m ∈ input.migrations) →
    (noErrors (walkTarget migrations a left current s).1 = true ↔ noErrors s.1 = true ∧
        ∀ r, current ≤ r → r < current + left →
          ∃ m ∈ input.migrations, m.artifactId = a ∧ m.fromRevision = r) ∧
      (noErrors (walkTarget migrations a left current s).1 = true → Holds S s.2 →
        Holds (fun m => S m ∨ (m ∈ input.migrations ∧ m.artifactId = a ∧
          current ≤ m.fromRevision ∧ m.fromRevision < current + left))
          (walkTarget migrations a left current s).2)
  | 0, current, _, s, S, _ => by
    unfold walkTarget
    refine ⟨⟨fun he => ⟨he, fun r h1 h2 => ?_⟩, fun he => he.1⟩, fun _ hS => hS.congr fun m => ?_⟩
    · omega
    · refine ⟨.inl, fun hm => hm.resolve_right ?_⟩
      rintro ⟨-, -, h1, h2⟩
      omega
  | left + 1, current, hcur, s, S, hmem => by
    unfold walkTarget
    cases hget : migrations.get? (revisionKey a current) with
    | none =>
      dsimp only
      rw [noErrors_append, noErrors_diagnostic, Bool.and_false]
      refine ⟨iff_of_false (by simp) ?_, fun he => by cases he⟩
      rintro ⟨-, hall⟩
      obtain ⟨m, hm, hma, hmr⟩ := hall current (Int.le_refl _) (by omega)
      rw [(hmaps.get?_migration C ha hcur).mpr ⟨hm, hma, hmr⟩] at hget
      cases hget
    | some m =>
      obtain ⟨hm, hma, hmr⟩ := (hmaps.get?_migration C ha hcur).mp hget
      dsimp only
      obtain ⟨hok, hholds⟩ := walkTarget_spec hmaps C ha left (current + 1) (by omega)
        (s.1, s.2.set (planStep m).key (planStep m)) (fun m' => S m' ∨ m' = m) (by
          rintro m' (hm' | rfl)
          · exact hmem m' hm'
          · exact hm)
      refine ⟨hok.trans (and_congr_right fun _ => ⟨fun hall r h1 h2 => ?_, fun hall r h1 h2 => ?_⟩),
        fun he hS => (hholds he (hS.set C hmem hm)).congr fun m' => ?_⟩
      · by_cases hr : r = current
        · exact ⟨m, hm, hma, by omega⟩
        · exact hall r (by omega) (by omega)
      · exact hall r (by omega) (by omega)
      · constructor
        · rintro ((hm' | rfl) | ⟨h1, h2, h3, h4⟩)
          · exact .inl hm'
          · exact .inr ⟨hm, hma, by omega, by omega⟩
          · exact .inr ⟨h1, h2, by omega, by omega⟩
        · rintro (hm' | ⟨h1, h2, h3, h4⟩)
          · exact .inl (.inl hm')
          · by_cases hr : m'.fromRevision = current
            · exact .inl (.inr (C.unique h1 hm (by rw [h2, hma]) (by rw [hr, hmr])))
            · exact .inr ⟨h1, h2, by omega, by omega⟩

/-- The walk leaves no error exactly when every target is covered, and has then collected the
steps that are planned. -/
theorem walkTargets_spec (hmaps : Maps input targets migrations) (C : Checked h input) :
    (noErrors (walkTargets targets migrations).1 = true ↔ ∀ t ∈ input.targets, Covered input t) ∧
      (noErrors (walkTargets targets migrations).1 = true →
        Holds (Planned input) (walkTargets targets migrations).2) := by
  have hlist : targets.entries.map Prod.snd = input.targets := by
    rw [hmaps.targets, List.map_map]
    exact List.map_id' _
  unfold walkTargets
  rw [hlist]
  refine foldl_rule (P := fun gone (s : List UpgradeDiagnostic × Pending V) =>
    (noErrors s.1 = true ↔ ∀ t ∈ gone, Covered input t) ∧ (noErrors s.1 = true →
      Holds (fun m => m ∈ input.migrations ∧ ∃ t ∈ gone, InRange t m) s.2)) ?_ ?_
  · refine ⟨by simp [noErrors], fun _ k step => ?_⟩
    rw [JsMap.get?_empty]
    simp
  · intro gone t rest s hl ⟨hok, hholds⟩
    have ht : t ∈ input.targets := by rw [hl]; simp
    obtain ⟨hnonneg, hle⟩ := C.current_nonneg ht
    have hdist : t.currentRevision + (t.distance : Int) = t.targetRevision := by
      unfold UpgradeTarget.distance
      omega
    obtain ⟨hwalk, hwalked⟩ := walkTarget_spec hmaps C (C.target_no_at ht) t.distance
      t.currentRevision hnonneg s (fun m => m ∈ input.migrations ∧ ∃ t ∈ gone, InRange t m)
      fun m hm => hm.1
    rw [hdist] at hwalk hwalked
    constructor
    · rw [hwalk, hok, List.forall_mem_append, List.forall_mem_singleton]
      exact Iff.rfl
    · intro he
      refine (hwalked he (hholds (hwalk.mp he).1)).congr fun m => ?_
      simp only [List.mem_append, List.mem_singleton, InRange]
      constructor
      · rintro (⟨hm, t', ht', hr⟩ | ⟨hm, hr⟩)
        · exact ⟨hm, t', .inl ht', hr⟩
        · exact ⟨hm, t, .inr rfl, hr⟩
      · rintro ⟨hm, t', ht' | rfl, hr⟩
        · exact .inl ⟨hm, t', ht', hr⟩
        · exact .inr ⟨hm, hr⟩

end maps

/-! ## Dependencies -/

theorem Holds.mem_steps {S : UpgradeMigration V → Prop} {pending : Pending V}
    (hS : Holds S pending) {step : UpgradePlanStep V} :
    step ∈ pending.steps ↔ ∃ m, S m ∧ step = planStep m := by
  unfold Pending.steps
  rw [List.mem_map]
  constructor
  · rintro ⟨⟨k, st⟩, he, rfl⟩
    obtain ⟨m, hm, hstep, -⟩ := (hS k st).mp (JsMap.get?_eq_some.mpr he)
    exact ⟨m, hm, hstep⟩
  · rintro ⟨m, hm, rfl⟩
    exact ⟨(m.toKey, planStep m), JsMap.get?_eq_some.mp ((hS _ _).mpr ⟨m, hm, rfl, rfl⟩), rfl⟩

theorem Holds.mem_keys {S : UpgradeMigration V → Prop} {pending : Pending V}
    (hS : Holds S pending) {k : String} : k ∈ pending.keys ↔ ∃ m, S m ∧ m.toKey = k := by
  rw [JsMap.mem_keys]
  constructor
  · rintro ⟨st, hget⟩
    obtain ⟨m, hm, -, hk⟩ := (hS k st).mp hget
    exact ⟨m, hm, hk.symm⟩
  · rintro ⟨m, hm, rfl⟩
    exact ⟨planStep m, (hS _ _).mpr ⟨m, hm, rfl, rfl⟩⟩

/-- The steps of the map, by their keys, are its entries. -/
theorem Holds.map_key {S : UpgradeMigration V → Prop} {pending : Pending V}
    (hS : Holds S pending) : pending.steps.map UpgradePlanStep.key = pending.keys := by
  unfold Pending.steps JsMap.keys
  rw [List.map_map]
  refine List.map_congr_left fun e he => ?_
  obtain ⟨m, -, hstep, hk⟩ := (hS e.1 e.2).mp (JsMap.get?_eq_some.mpr he)
  rw [Function.comp_apply, hstep, hk]
  rfl

theorem dependencyDiagnostics_spec {pending : Pending V} (hS : Holds (Planned input) pending) :
    noErrors (dependencyDiagnostics pending) = true ↔ Resolvable input := by
  have hnone : noErrors (dependencyDiagnostics pending) = true ↔
      ∀ step ∈ pending.steps, ∀ k ∈ step.dependsOn.getD [], k ∈ pending.keys := by
    unfold noErrors dependencyDiagnostics
    rw [List.all_flatMap, List.all_eq_true]
    refine forall₂_congr fun step _ => ?_
    rw [List.all_map, List.all_filter, List.all_eq_true]
    refine forall₂_congr fun k _ => ?_
    by_cases hk : k ∈ pending.keys <;> simp [hk, diagnostic]
  rw [hnone]
  unfold Resolvable
  constructor
  · intro hall m hm k hk
    exact hS.mem_keys.mp (hall _ (hS.mem_steps.mpr ⟨m, hm, rfl⟩) k hk)
  · intro hall step hstep k hk
    obtain ⟨m, hm, rfl⟩ := hS.mem_steps.mp hstep
    exact hS.mem_keys.mpr (hall m hm k hk)

section order

variable {h : Host} {input : PlanInput V} {targets : JsMap String UpgradeTarget}

/-- What the loop lets a step wait for is what the step needs. -/
theorem mem_waitsFor (C : Checked h input)
    (he : targets.entries = input.targets.map fun t => (t.artifactId, t))
    {m : UpgradeMigration V} (hm : Planned input m) {k : String} :
    k ∈ waitsFor targets (planStep m) ↔ Needs input m.toKey k := by
  obtain ⟨hmem, t, ht, hrange⟩ := hm
  have hget : targets.get? m.artifactId = some t :=
    (get?_of_entries he).mpr ⟨ht, hrange.1.symm⟩
  have hwaits : k ∈ waitsFor targets (planStep m) ↔ k ∈ m.dependsOn.getD [] ∨
      (t.currentRevision ≠ m.fromRevision ∧ k = revisionKey m.artifactId m.fromRevision) := by
    unfold waitsFor planStep
    dsimp only
    rw [hget, List.mem_append]
    by_cases hfirst : t.currentRevision = m.fromRevision <;> simp [hfirst]
  rw [hwaits]
  constructor
  · rintro (hk | ⟨hne, hk⟩)
    · exact ⟨m, ⟨hmem, t, ht, hrange⟩, rfl, .inl hk⟩
    · exact ⟨m, ⟨hmem, t, ht, hrange⟩, rfl, .inr ⟨⟨t, ht, hrange, hne⟩, hk⟩⟩
  · rintro ⟨m', hm', hkey, hk⟩
    obtain rfl := C.unique_toKey hm'.1 hmem hkey
    rcases hk with hk | ⟨⟨t', ht', hrange', hne⟩, hk⟩
    · exact .inl hk
    · obtain rfl := C.unique_target ht' ht (hrange'.1.symm.trans hrange.1)
      exact .inr ⟨hne, hk⟩

/-- What a step needs is a step of the plan. -/
theorem needs_closed (C : Checked h input) (hcov : ∀ t ∈ input.targets, Covered input t)
    (hres : Resolvable input) {k k' : String} (hn : Needs input k k') :
    ∃ m, Planned input m ∧ m.toKey = k' := by
  obtain ⟨m, hm, -, hk | ⟨⟨t, ht, hrange, hne⟩, rfl⟩⟩ := hn
  · exact hres m hm k' hk
  · -- the step before it on the same artifact
    obtain ⟨ha, hlo, hhi⟩ := hrange
    obtain ⟨m', hm', ha', hr'⟩ := hcov t ht (m.fromRevision - 1) (by omega) (by omega)
    refine ⟨m', ⟨hm', t, ht, ha', by omega, by omega⟩, ?_⟩
    unfold UpgradeMigration.toKey
    rw [ha', ← ha, C.to_eq hm', hr', Int.sub_add_cancel]

/-- The state of the loop: what is left are the planned steps that were not taken, and what was
taken stands after all it needs. -/
structure Placing (input : PlanInput V) (pending : Pending V)
    (ordered : List (UpgradePlanStep V)) : Prop where
  left : Holds (fun m => Planned input m ∧ m.toKey ∉ ordered.map UpgradePlanStep.key) pending
  placed : ∀ step ∈ ordered, ∃ m, Planned input m ∧ step = planStep m
  nodup : (ordered.map UpgradePlanStep.key).Nodup
  first : DependencyFirst (Needs input) (ordered.map UpgradePlanStep.key)

theorem mem_candidates {pending : Pending V} {step : UpgradePlanStep V} :
    step ∈ candidates h targets pending ↔
      step ∈ pending.steps ∧ ∀ k ∈ waitsFor targets step, pending.get? k = none := by
  unfold candidates
  rw [List.mem_insertionSort, List.mem_filter, List.all_eq_true]
  simp only [Option.isNone_iff_eq_none]

theorem get?_deleteAll {pending : Pending V} {batch : List (UpgradePlanStep V)} {k : String}
    {step : UpgradePlanStep V} :
    (batch.foldl (fun p s => p.delete s.key) pending).get? k = some step ↔
      pending.get? k = some step ∧ k ∉ batch.map UpgradePlanStep.key := by
  induction batch generalizing pending with
  | nil => simp
  | cons s batch ih =>
    rw [List.foldl_cons, ih, JsMap.get?_delete]
    by_cases hk : k = s.key
    · simp [hk]
    · simp [hk]

theorem size_deleteAll_le (batch : List (UpgradePlanStep V)) (pending : Pending V) :
    (batch.foldl (fun p s => p.delete s.key) pending).size ≤ pending.size := by
  induction batch generalizing pending with
  | nil => exact Nat.le_refl _
  | cons s batch ih =>
    rw [List.foldl_cons]
    exact Nat.le_trans (ih (pending.delete s.key)) (JsMap.size_delete_le pending s.key)

/-- A round takes the steps that wait for nothing. -/
theorem placing_round (C : Checked h input)
    (he : targets.entries = input.targets.map fun t => (t.artifactId, t))
    (hcov : ∀ t ∈ input.targets, Covered input t) (hres : Resolvable input)
    {pending : Pending V} {ordered : List (UpgradePlanStep V)} (P : Placing input pending ordered) :
    Placing input ((candidates h targets pending).foldl (fun p s => p.delete s.key) pending)
      (ordered ++ candidates h targets pending) := by
  let batch := candidates h targets pending
  have hbatch : ∀ step ∈ batch, ∃ m, (Planned input m ∧
      m.toKey ∉ ordered.map UpgradePlanStep.key) ∧ step = planStep m := by
    intro step hstep
    exact P.left.mem_steps.mp (mem_candidates.mp hstep).1
  refine ⟨fun k step => ?_, ?_, ?_, ?_⟩
  · rw [get?_deleteAll, P.left k step, List.map_append]
    constructor
    · rintro ⟨⟨m, ⟨hm, hno⟩, rfl, rfl⟩, hk⟩
      refine ⟨m, ⟨hm, fun hin => ?_⟩, rfl, rfl⟩
      rcases List.mem_append.mp hin with hin | hin
      · exact hno hin
      · exact hk hin
    · rintro ⟨m, ⟨hm, hno⟩, rfl, rfl⟩
      rw [List.mem_append, not_or] at hno
      exact ⟨⟨m, ⟨hm, hno.1⟩, rfl, rfl⟩, hno.2⟩
  · intro step hstep
    rcases List.mem_append.mp hstep with hstep | hstep
    · exact P.placed step hstep
    · obtain ⟨m, hm, hs⟩ := hbatch step hstep
      exact ⟨m, hm.1, hs⟩
  · rw [List.map_append, List.nodup_append']
    refine ⟨P.nodup, ?_, ?_⟩
    · have hperm : (batch.map UpgradePlanStep.key).Perm ((pending.steps.filter fun step =>
          (waitsFor targets step).all fun dependency => (pending.get? dependency).isNone).map
            UpgradePlanStep.key) := (List.perm_insertionSort _ _).map _
      rw [hperm.nodup_iff]
      refine List.Nodup.sublist (List.filter_sublist.map _) ?_
      rw [P.left.map_key]
      exact pending.nodup
    · intro k hk hk'
      obtain ⟨step, hstep, rfl⟩ := List.mem_map.mp hk'
      obtain ⟨m, hm, rfl⟩ := hbatch step hstep
      exact hm.2 hk
  · rw [List.map_append]
    refine P.first.append fun n hn b hneed => ?_
    obtain ⟨step, hstep, rfl⟩ := List.mem_map.mp hn
    obtain ⟨m, hm, rfl⟩ := hbatch step hstep
    have hnone := (mem_candidates.mp hstep).2 b ((mem_waitsFor C he hm.1).mpr hneed)
    -- a needed step that was not taken would still be pending
    by_contra hb
    obtain ⟨m', hm', rfl⟩ := needs_closed C hcov hres hneed
    rw [(P.left _ _).mpr ⟨m', ⟨hm', hb⟩, rfl, rfl⟩] at hnone
    cases hnone

/-- The loop ends in the given rounds, with nothing left or nothing to take. -/
theorem orderLoop_spec (C : Checked h input)
    (he : targets.entries = input.targets.map fun t => (t.artifactId, t))
    (hcov : ∀ t ∈ input.targets, Covered input t) (hres : Resolvable input) :
    ∀ {rounds : Nat} {pending : Pending V} {ordered : List (UpgradePlanStep V)},
      Placing input pending ordered → pending.size ≤ rounds →
      Placing input (orderLoop h targets rounds pending ordered).1
          (orderLoop h targets rounds pending ordered).2 ∧
        ((orderLoop h targets rounds pending ordered).1.size = 0 ∨
          candidates h targets (orderLoop h targets rounds pending ordered).1 = [])
  | 0, pending, ordered, P, hsize => ⟨P, .inl (Nat.le_zero.mp hsize)⟩
  | rounds + 1, pending, ordered, P, hsize => by
    unfold orderLoop
    split
    · rename_i hnone
      exact ⟨P, .inr hnone⟩
    · rename_i batch hne
      refine orderLoop_spec C he hcov hres (placing_round C he hcov hres P) ?_
      obtain ⟨s, rest, hb⟩ := List.exists_cons_of_ne_nil hne
      have hmem : s ∈ candidates h targets pending := by rw [hb]; exact List.mem_cons_self
      obtain ⟨m, hm, hs⟩ := P.left.mem_steps.mp (mem_candidates.mp hmem).1
      have hget : pending.get? s.key = some s := (P.left _ _).mpr ⟨m, hm, hs, by rw [hs]; rfl⟩
      rw [hb, List.foldl_cons]
      have h1 := size_deleteAll_le rest (pending.delete s.key)
      have h2 := JsMap.size_delete_lt hget
      omega

/-- Steps that do not need each other in a circle are never stuck. -/
theorem not_stuck (C : Checked h input)
    (he : targets.entries = input.targets.map fun t => (t.artifactId, t))
    (hacyclic : Acyclic (Needs input)) {pending : Pending V}
    {ordered : List (UpgradePlanStep V)} (P : Placing input pending ordered)
    (hstuck : candidates h targets pending = []) : pending.size = 0 := by
  by_contra hsize
  have hkeys : pending.keys ≠ [] := by
    intro hnil
    apply hsize
    rw [JsMap.size, ← List.length_map Prod.fst]
    exact List.length_eq_zero_iff.mpr hnil
  obtain ⟨k, hk, hsink⟩ := hacyclic.exists_sink hkeys
  obtain ⟨m, hm, rfl⟩ := P.left.mem_keys.mp hk
  have hcand : planStep m ∈ candidates h targets pending := by
    refine mem_candidates.mpr ⟨P.left.mem_steps.mpr ⟨m, hm, rfl⟩, fun d hd => ?_⟩
    rw [JsMap.get?_eq_none]
    exact fun hin => hsink d hin ((mem_waitsFor C he hm.1).mp hd)
  rw [hstuck] at hcand
  cases hcand

/-- Nothing left: every planned step was taken. -/
theorem placed_all {pending : Pending V} {ordered : List (UpgradePlanStep V)}
    (P : Placing input pending ordered) (hsize : pending.size = 0) {m : UpgradeMigration V}
    (hm : Planned input m) : m.toKey ∈ ordered.map UpgradePlanStep.key := by
  by_contra hno
  have hget := (P.left _ _).mpr ⟨m, ⟨hm, hno⟩, rfl, rfl⟩
  rw [JsMap.get?_eq_some, List.length_eq_zero_iff.mp hsize] at hget
  cases hget

end order

/-! ## Readiness -/

/-- The steps take the target through every revision exactly once. -/
def ExactlyOnce (input : PlanInput V) (target : UpgradeTarget) : Prop :=
  ∀ r, target.currentRevision ≤ r → r < target.targetRevision →
    (input.migrations.filter fun m =>
      m.artifactId = target.artifactId ∧ m.fromRevision = r).length = 1

/-- Every check passes, the steps cover each target, and they can be put in order. -/
structure Ready (h : Host) (input : PlanInput V) : Prop where
  checked : Checked h input
  covered : ∀ t ∈ input.targets, ExactlyOnce input t
  resolvable : Resolvable input
  acyclic : Acyclic (Needs input)

section ready

variable {h : Host} {input : PlanInput V}

theorem exactlyOnce_iff (C : Checked h input) {t : UpgradeTarget} :
    ExactlyOnce input t ↔ Covered input t := by
  unfold ExactlyOnce Covered
  refine forall_congr' fun r => forall₂_congr fun _ _ => ?_
  have hmem : ∀ m, m ∈ (input.migrations.filter fun m =>
      m.artifactId = t.artifactId ∧ m.fromRevision = r) ↔
        m ∈ input.migrations ∧ m.artifactId = t.artifactId ∧ m.fromRevision = r := by
    intro m
    rw [List.mem_filter, decide_eq_true_eq]
  have hnodup : (input.migrations.filter fun m =>
      m.artifactId = t.artifactId ∧ m.fromRevision = r).Nodup :=
    (List.Nodup.of_map _ C.revisions).filter _
  constructor
  · intro hone
    obtain ⟨m, hm⟩ := List.length_eq_one_iff.mp hone
    have := (hmem m).mp (by rw [hm]; exact List.mem_singleton_self m)
    exact ⟨m, this.1, this.2⟩
  · rintro ⟨m, hm, ha, hr⟩
    have hsub : (input.migrations.filter fun m =>
        m.artifactId = t.artifactId ∧ m.fromRevision = r) ⊆ [m] := by
      intro m' hm'
      obtain ⟨h1, h2, h3⟩ := (hmem m').mp hm'
      rw [C.unique h1 hm (h2.trans ha.symm) (h3.trans hr.symm)]
      exact List.mem_singleton_self m
    have hle := (List.subperm_of_subset hnodup hsub).length_le
    have hpos := List.length_pos_of_mem ((hmem m).mpr ⟨hm, ha, hr⟩)
    rw [List.length_singleton] at hle
    omega

theorem Checked.clean_migrations (C : Checked h input) {targets : JsMap String UpgradeTarget}
    (he : targets.entries = input.targets.map fun t => (t.artifactId, t)) :
    Clean (migrationOk targets) UpgradeMigration.fromKey input.migrations := by
  refine ⟨fun m hm => (migrationOk_iff he).mpr (C.migrations m hm), ?_⟩
  have hkeys := C.revisions
  rw [List.Nodup, List.pairwise_map] at hkeys ⊢
  refine hkeys.imp_of_mem fun ha hb hne heq => hne ?_
  obtain ⟨h1, h2⟩ := revisionKey_injective (C.migration_no_at ha) (C.migration_no_at hb)
    (C.from_nonneg ha) (C.from_nonneg hb) heq
  rw [h1, h2]

/-- The two collecting loops leave no error exactly when the targets and the steps are checked. -/
theorem clean_iff (hrelease : releaseDiagnostics input = [])
    (hidentity : identityDiagnostics h input = []) :
    (noErrors (collectTargets input.targets).1 = true ∧
        noErrors (collectMigrations (collectTargets input.targets).2 input.migrations).1 = true) ↔
      Checked h input := by
  obtain ⟨htargets, hfiled⟩ := collectTargets_spec input.targets
  obtain ⟨hmigrations, -⟩ := collectMigrations_spec (collectTargets input.targets).2 input.migrations
  rw [htargets]
  constructor
  · rintro ⟨ht, hm⟩
    have hm' := hmigrations.mp hm
    have hall : ∀ m ∈ input.migrations, ∃ t ∈ input.targets, MigrationOk t m := fun m hmem =>
      (migrationOk_iff (hfiled ht)).mp (hm'.1 m hmem)
    refine ⟨hrelease, hidentity, ht.1, ht.2, hall, ?_⟩
    -- two steps with one artifact and revision would have one key
    have hkeys := hm'.2
    rw [List.Nodup, List.pairwise_map] at hkeys ⊢
    refine hkeys.imp fun hne heq => hne ?_
    rw [Prod.mk.injEq] at heq
    rw [UpgradeMigration.fromKey, UpgradeMigration.fromKey, heq.1, heq.2]
  · intro C
    have ht : Clean targetOk UpgradeTarget.artifactId input.targets := ⟨C.targets, C.artifacts⟩
    exact ⟨ht, hmigrations.mpr (C.clean_migrations (hfiled ht))⟩

theorem Checked.maps (C : Checked h input) :
    Maps input (collectTargets input.targets).2
      (collectMigrations (collectTargets input.targets).2 input.migrations).2 := by
  have ht : (collectTargets input.targets).2.entries =
      input.targets.map fun t => (t.artifactId, t) :=
    (collectTargets_spec input.targets).2 ⟨C.targets, C.artifacts⟩
  exact ⟨ht, (collectMigrations_spec _ input.migrations).2 (C.clean_migrations ht)⟩

theorem placing_start {pending : Pending V} (hS : Holds (Planned input) pending) :
    Placing input pending [] := by
  refine ⟨hS.congr fun m => ?_, ?_, List.nodup_nil, DependencyFirst.nil⟩
  · simp
  · intro step hstep
    cases hstep

/-- The plan's steps, and whether the loop took all of them. -/
theorem order_spec (C : Checked h input) (hcov : ∀ t ∈ input.targets, Covered input t)
    (hres : Resolvable input) {targets : JsMap String UpgradeTarget}
    (he : targets.entries = input.targets.map fun t => (t.artifactId, t)) {pending : Pending V}
    (hS : Holds (Planned input) pending) :
    let order := orderLoop h targets pending.size pending []
    Placing input order.1 order.2 ∧ (order.1.size = 0 ↔ Acyclic (Needs input)) := by
  obtain ⟨P, hend⟩ := orderLoop_spec C he hcov hres (placing_start hS) (Nat.le_refl _)
  refine ⟨P, fun hsize => ?_, fun hacyclic => hend.elim id (not_stuck C he hacyclic P)⟩
  refine P.first.acyclic P.nodup fun k k' hneed => ?_
  obtain ⟨m, hm, rfl, -⟩ := hneed
  exact placed_all P hsize hm

theorem noErrors_cycle {left : Pending V} :
    noErrors (cycleDiagnostics left) = true ↔ left.size = 0 := by
  unfold cycleDiagnostics
  split
  · rename_i hsize
    simp [noErrors, hsize]
  · rename_i hsize
    simp [hsize]

theorem noErrors_release :
    noErrors (releaseDiagnostics input) = true ↔ releaseDiagnostics input = [] := by
  unfold releaseDiagnostics
  split
  · split
    · simp
    · split
      · split <;> simp [noErrors, diagnostic]
      · simp
  · simp

theorem noErrors_identity :
    noErrors (identityDiagnostics h input) = true ↔ identityDiagnostics h input = [] := by
  unfold identityDiagnostics
  split
  · simp
  · split <;> simp [noErrors, diagnostic]

/-- **Readiness of a plan.** -/
theorem ready_iff : (planPluginUpgrade h input).ready = true ↔ Ready h input := by
  unfold planPluginUpgrade
  simp only [noErrors_append, Bool.and_eq_true]
  constructor
  · rintro ⟨⟨⟨⟨⟨⟨hrelease, hidentity⟩, htargets⟩, hmigrations⟩, hwalked⟩, hdeps⟩, hcycle⟩
    have C := (clean_iff (noErrors_release.mp hrelease) (noErrors_identity.mp hidentity)).mp
      ⟨htargets, hmigrations⟩
    obtain ⟨hwalk, hholds⟩ := walkTargets_spec C.maps C
    have hS := hholds hwalked
    have hcov := hwalk.mp hwalked
    have hres := (dependencyDiagnostics_spec hS).mp hdeps
    exact ⟨C, fun t ht => (exactlyOnce_iff C).mpr (hcov t ht), hres,
      (order_spec C hcov hres C.maps.targets hS).2.mp (noErrors_cycle.mp hcycle)⟩
  · rintro ⟨C, hone, hres, hacyclic⟩
    obtain ⟨htargets, hmigrations⟩ := (clean_iff C.release C.identity).mpr C
    obtain ⟨hwalk, hholds⟩ := walkTargets_spec C.maps C
    have hcov : ∀ t ∈ input.targets, Covered input t := fun t ht =>
      (exactlyOnce_iff C).mp (hone t ht)
    have hwalked := hwalk.mpr hcov
    have hS := hholds hwalked
    exact ⟨⟨⟨⟨⟨⟨noErrors_release.mpr C.release, noErrors_identity.mpr C.identity⟩, htargets⟩,
      hmigrations⟩, hwalked⟩, (dependencyDiagnostics_spec hS).mpr hres⟩,
      noErrors_cycle.mpr ((order_spec C hcov hres C.maps.targets hS).2.mpr hacyclic)⟩

/-- The steps that are planned, in the order of the input. -/
def plannedSteps (input : PlanInput V) : List (UpgradeMigration V) :=
  input.migrations.filter fun m => input.targets.any fun t => InRange t m

theorem mem_plannedSteps {m : UpgradeMigration V} : m ∈ plannedSteps input ↔ Planned input m := by
  simp [plannedSteps, Planned]

/-- **The steps of a ready plan** are the planned steps, each once, after all they need. -/
theorem plan_steps (hready : (planPluginUpgrade h input).ready = true) :
    (planPluginUpgrade h input).steps.Perm ((plannedSteps input).map planStep) ∧
      DependencyFirst (Needs input)
        ((planPluginUpgrade h input).steps.map UpgradePlanStep.key) := by
  obtain ⟨C, hone, hres, hacyclic⟩ := ready_iff.mp hready
  have hcov : ∀ t ∈ input.targets, Covered input t := fun t ht =>
    (exactlyOnce_iff C).mp (hone t ht)
  obtain ⟨hwalk, hholds⟩ := walkTargets_spec C.maps C
  obtain ⟨P, hall⟩ := order_spec C hcov hres C.maps.targets (hholds (hwalk.mpr hcov))
  refine ⟨?_, P.first⟩
  have hnodup : (plannedSteps input).Nodup := (List.Nodup.of_map _ C.revisions).filter _
  refine (List.perm_ext_iff_of_nodup (List.Nodup.of_map _ P.nodup) (hnodup.map_on ?_)).mpr ?_
  · intro m hm m' hm' heq
    exact C.unique_toKey (mem_plannedSteps.mp hm).1 (mem_plannedSteps.mp hm').1
      (congrArg UpgradePlanStep.key heq)
  · intro step
    rw [List.mem_map]
    constructor
    · intro hstep
      obtain ⟨m, hm, rfl⟩ := P.placed step hstep
      exact ⟨m, mem_plannedSteps.mpr hm, rfl⟩
    · rintro ⟨m, hm, rfl⟩
      have hm := mem_plannedSteps.mp hm
      -- the step that was placed under the key is this one
      obtain ⟨step, hstep, hkey⟩ := List.mem_map.mp (placed_all P (hall.mpr hacyclic) hm)
      obtain ⟨m', hm', rfl⟩ := P.placed step hstep
      rw [C.unique_toKey hm.1 hm'.1 hkey.symm]
      exact hstep

/-! ## The order of the input -/

/-- The same request, with the migrations in another order. -/
theorem planned_perm {migrations : List (UpgradeMigration V)}
    (hp : migrations.Perm input.migrations) {m : UpgradeMigration V} :
    Planned { input with migrations } m ↔ Planned input m :=
  and_congr_left fun _ => hp.mem_iff

theorem needs_perm {migrations : List (UpgradeMigration V)}
    (hp : migrations.Perm input.migrations) :
    Needs { input with migrations } = Needs input := by
  funext k k'
  exact propext (exists_congr fun m => and_congr_left fun _ => planned_perm hp)

theorem ready_of_perm {migrations : List (UpgradeMigration V)}
    (hp : migrations.Perm input.migrations) (R : Ready h input) :
    Ready h { input with migrations } where
  checked :=
    { release := R.checked.release
      identity := R.checked.identity
      targets := R.checked.targets
      artifacts := R.checked.artifacts
      migrations := fun m hm => R.checked.migrations m (hp.mem_iff.mp hm)
      revisions := (hp.map _).nodup_iff.mpr R.checked.revisions }
  covered t ht r h1 h2 := (hp.filter _).length_eq.trans (R.covered t ht r h1 h2)
  resolvable m hm k hk := by
    obtain ⟨m', hm', hkey⟩ := R.resolvable m ((planned_perm hp).mp hm) k hk
    exact ⟨m', (planned_perm hp).mpr hm', hkey⟩
  acyclic := by
    rw [needs_perm hp]
    exact R.acyclic

/-- **Upgrade step planning.** A plan is ready exactly when every check passes, the steps cover
each target exactly once, and they can be put in order; a ready plan has exactly the planned
steps, after all they need; and neither depends on the order in which the steps are listed. -/
theorem plan_upgrade (h : Host) (input : PlanInput V) :
    ((planPluginUpgrade h input).ready = true ↔ Ready h input) ∧
    ((planPluginUpgrade h input).ready = true →
      (planPluginUpgrade h input).steps.Perm ((plannedSteps input).map planStep) ∧
        DependencyFirst (Needs input)
          ((planPluginUpgrade h input).steps.map UpgradePlanStep.key)) ∧
    ∀ migrations : List (UpgradeMigration V), migrations.Perm input.migrations →
      (planPluginUpgrade h { input with migrations }).ready = (planPluginUpgrade h input).ready ∧
      ((planPluginUpgrade h input).ready = true →
        (planPluginUpgrade h { input with migrations }).steps.Perm
          (planPluginUpgrade h input).steps) := by
  refine ⟨ready_iff, plan_steps, fun migrations hp => ?_⟩
  have hready : (planPluginUpgrade h { input with migrations }).ready =
      (planPluginUpgrade h input).ready := by
    rw [Bool.eq_iff_iff, ready_iff, ready_iff]
    refine ⟨fun R => ?_, ready_of_perm hp⟩
    have back : Ready h { { input with migrations } with migrations := input.migrations } :=
      ready_of_perm hp.symm R
    exact back
  refine ⟨hready, fun hr => ?_⟩
  have hsteps := (plan_steps (hready.trans hr)).1
  exact hsteps.trans (((hp.filter _).map planStep).trans (plan_steps hr).1.symm)

end ready

/-! ## A step outside every target -/

/-- A step that does nothing but count. -/
def countStep (from_ : Int) : UpgradeMigration Int where
  id := "sales.step"
  artifactId := "sales.orders"
  kind := .source
  fromRevision := from_
  toRevision := from_ + 1
  predecessorRevisions := [from_]
  dependsOn := none
  migrate := some fun v => some (v + 1)
  validate := some fun _ => true

def release (integrity version : String) : PackageReleaseManifest :=
  ⟨"1.0.0", ["1.0.0"], [⟨"@acme/sales", version, integrity⟩]⟩

/-- The artifact goes from revision 1 to 2, and the step from 0 to 1 is listed twice. -/
def pastStepTwice : PlanInput Int where
  pluginId := "module.sales"
  currentVersion := "0.9.0"
  targetVersion := "1.0.0"
  currentPlatformRelease := "1.0.0"
  targetPlatformRelease := "1.0.0"
  currentReleaseManifest := some (release "sha512-a" "0.9.0")
  targetReleaseManifest := some (release "sha512-b" "1.0.0")
  packageName := "@acme/sales"
  targets := [⟨"sales.orders", .source, 1, 2⟩]
  migrations := [countStep 0, countStep 0, countStep 1]

/-- `semver` and the locale on the versions and keys of `pastStepTwice`. -/
def exampleHost : Host := ⟨fun _ => true, fun _ _ => false, fun _ _ => .eq⟩

theorem planned_pastStepTwice {m : UpgradeMigration Int} (hm : Planned pastStepTwice m) :
    m = countStep 1 := by
  obtain ⟨hmem, t, ht, -, hlo, -⟩ := hm
  obtain rfl := List.mem_singleton.mp ht
  simp only [pastStepTwice, List.mem_cons, List.not_mem_nil, or_false] at hmem
  rcases hmem with rfl | rfl | rfl
  · exact absurd hlo (by decide)
  · exact absurd hlo (by decide)
  · rfl

/-- **Covering the revisions is not enough.** The listed steps cover the target exactly once and
depend on nothing, and the plan is not ready: a step that the target does not need is listed
twice. -/
theorem covered_not_ready :
    (releaseDiagnostics pastStepTwice = [] ∧ identityDiagnostics exampleHost pastStepTwice = [] ∧
      ∀ t ∈ pastStepTwice.targets, targetOk t = true) ∧
    (∀ t ∈ pastStepTwice.targets, ExactlyOnce pastStepTwice t) ∧ Resolvable pastStepTwice ∧
    Acyclic (Needs pastStepTwice) ∧
    (planPluginUpgrade exampleHost pastStepTwice).ready = false := by
  refine ⟨⟨by decide, by decide, by decide⟩, ?_, ?_, ?_,
    by decide⟩
  · intro t ht r hlo hhi
    obtain rfl := List.mem_singleton.mp ht
    obtain rfl : r = 1 := by
      have h1 : (1 : Int) ≤ r := hlo
      have h2 : r < (2 : Int) := hhi
      omega
    decide
  · intro m hm k hk
    rw [planned_pastStepTwice hm] at hk
    cases hk
  · intro k hw
    obtain ⟨k', ⟨m, hm, -, hk | ⟨⟨t, ht, -, hne⟩, -⟩⟩, -⟩ := Relation.TransGen.head'_iff.mp hw
    · rw [planned_pastStepTwice hm] at hk
      cases hk
    · obtain rfl := List.mem_singleton.mp ht
      rw [planned_pastStepTwice hm] at hne
      exact hne rfl

end KNex.Upgrade
