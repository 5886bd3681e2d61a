import KNex.Runtime.GenerationClosure
import KNex.Runtime.EffectiveAuthority

/-!
# Generation numbers over a run

A row is never removed, only restated under its number; a retired row stays retired; a new row
has a number above every number there is. `Evolves` says this of two row sets, every `Change`
does it, and it is transitive, so it relates any two points of a run (`run_evolves`).

A grant names an owner with its number, and is effective while a row of that owner is current
(`authority_allCurrent`). So what was granted to a generation is gone for good once the
generation has retired (`no_resurrection`).
-/
namespace KNex.Runtime.AuthorizationLifecycle

open KNex.Core KNex.Contracts KNex.Runtime.EffectiveAuthority

/-! ## Evolution of a row set -/

/-- The same number, and retired if it was. -/
def Continues (r r' : GenerationRow) : Prop :=
  r'.owner.generation = r.owner.generation ∧ (r.state = .retired → r'.state = .retired)

structure Evolves (rows rows' : List GenerationRow) : Prop where
  /-- the row of a number is still there, and retired if it was -/
  kept : ∀ r ∈ rows, ∃ r' ∈ rows', Continues r r'
  /-- the other rows have numbers above all earlier ones -/
  fresh : ∀ r' ∈ rows', r'.owner.generation ∈ numbers rows ∨
    ∀ m ∈ numbers rows, m < r'.owner.generation

theorem Evolves.refl (rows : List GenerationRow) : Evolves rows rows :=
  ⟨fun r hr => ⟨r, hr, rfl, id⟩, fun _ hr => .inl (List.mem_map.mpr ⟨_, hr, rfl⟩)⟩

/-- Numbers are never given up. -/
theorem Evolves.numbers_subset {rows rows' : List GenerationRow} (h : Evolves rows rows') :
    numbers rows ⊆ numbers rows' := by
  intro n hn
  obtain ⟨r, hr, rfl⟩ := List.mem_map.mp hn
  obtain ⟨r', hr', he, -⟩ := h.kept r hr
  exact List.mem_map.mpr ⟨r', hr', he⟩

theorem Evolves.trans {rows rows' rows'' : List GenerationRow} (h : Evolves rows rows')
    (h' : Evolves rows' rows'') : Evolves rows rows'' := by
  refine ⟨?_, ?_⟩
  · intro r hr
    obtain ⟨r₁, hr₁, he₁, hs₁⟩ := h.kept r hr
    obtain ⟨r₂, hr₂, he₂, hs₂⟩ := h'.kept r₁ hr₁
    exact ⟨r₂, hr₂, he₂.trans he₁, fun hs => hs₂ (hs₁ hs)⟩
  · intro r hr
    rcases h'.fresh r hr with hm | hgt
    · obtain ⟨r₁, hr₁, he₁⟩ := List.mem_map.mp hm
      rw [← he₁]
      exact h.fresh r₁ hr₁
    · exact .inr fun m hm => hgt m (h.numbers_subset hm)

/-- With one row a number, the row of a retired number is retired ever after. -/
theorem Evolves.retired {rows rows' : List GenerationRow} (h : Evolves rows rows')
    (hn : (numbers rows').Nodup) {r r' : GenerationRow} (hr : r ∈ rows) (hs : r.state = .retired)
    (hr' : r' ∈ rows') (he : r'.owner.generation = r.owner.generation) : r'.state = .retired := by
  obtain ⟨q, hq, heq, hret⟩ := h.kept r hr
  have hsame : r' = q := List.inj_on_of_nodup_map hn hr' hq (he.trans heq.symm)
  rw [hsame]
  exact hret hs

/-! ## Every change is an evolution -/

/-- Some rows are restated under their numbers and at most one is new. -/
structure Restates (rows rows' : List GenerationRow) : Prop where
  evolves : Evolves rows rows'
  nodup : (numbers rows').Nodup

theorem numbers_of_continues {out put : List GenerationRow} (h : List.Forall₂ Continues out put) :
    numbers put = numbers out := by
  induction h with
  | nil => rfl
  | cons h _ ih => simp only [numbers_cons, h.1, ih]

theorem exists_continues {out put : List GenerationRow} (h : List.Forall₂ Continues out put)
    {r : GenerationRow} (hr : r ∈ out) : ∃ r' ∈ put, Continues r r' := by
  induction h with
  | nil => cases hr
  | cons h _ ih =>
    rcases List.mem_cons.mp hr with rfl | hr
    · exact ⟨_, List.mem_cons_self, h⟩
    · obtain ⟨r', hr', h'⟩ := ih hr
      exact ⟨r', List.mem_cons_of_mem _ hr', h'⟩

/-- The rows `out` become `put`, the rows `new` are added. -/
theorem restates_of_perm {rows next rest : List GenerationRow} (out put new : List GenerationRow)
    (hn : (numbers rows).Nodup) (hrows : rows.Perm (out ++ rest))
    (hnext : next.Perm (new ++ (put ++ rest))) (hput : List.Forall₂ Continues out put)
    (hnew : ∀ g ∈ new, ∀ m ∈ numbers rows, m < g.owner.generation) (hone : (numbers new).Nodup) :
    Restates rows next := by
  have hpr : (numbers (put ++ rest)).Perm (numbers rows) := by
    have happ : numbers (put ++ rest) = numbers (out ++ rest) := by
      have h := numbers_of_continues hput
      simp only [numbers, List.map_append] at h ⊢
      rw [h]
    rw [happ]
    exact (numbers_perm hrows).symm
  refine ⟨⟨?_, ?_⟩, ?_⟩
  · intro r hr
    rcases List.mem_append.mp (hrows.mem_iff.mp hr) with hr | hr
    · obtain ⟨r', hr', h'⟩ := exists_continues hput hr
      exact ⟨r', hnext.mem_iff.mpr (by simp [hr']), h'⟩
    · exact ⟨r, hnext.mem_iff.mpr (by simp [hr]), rfl, id⟩
  · intro r hr
    rcases List.mem_append.mp (hnext.mem_iff.mp hr) with hr | hr
    · exact .inr (hnew r hr)
    · exact .inl (hpr.mem_iff.mp (List.mem_map.mpr ⟨r, hr, rfl⟩))
  · refine (numbers_perm hnext).nodup_iff.mpr ?_
    have happ : numbers (new ++ (put ++ rest)) = numbers new ++ numbers (put ++ rest) :=
      List.map_append
    rw [happ, List.nodup_append]
    refine ⟨hone, hpr.nodup_iff.mpr hn, ?_⟩
    rintro a ha b hb rfl
    obtain ⟨g, hg, rfl⟩ := List.mem_map.mp ha
    exact Nat.lt_irrefl _ (hnew g hg _ (hpr.mem_iff.mp hb))

theorem change_restates {x : Target} {ids : List String} {existing next : List GenerationRow}
    {need : Prop} (h : Change x ids existing next need) (hn : (numbers existing).Nodup) :
    Restates existing next := by
  -- a row replaced under its number
  have replaced : ∀ {r r' : GenerationRow}, r ∈ existing →
      Continues r r' → Restates existing (replaceGeneration existing r') := by
    intro r r' hr hc
    have hnext := replaceGeneration_perm existing r'
    rw [hc.1] at hnext
    exact restates_of_perm [r] [r'] [] hn (perm_cons_filter hn hr) hnext (.cons hc .nil)
      (by simp) (by simp [numbers])
  cases h with
  | same => exact ⟨.refl existing, hn⟩
  | @restate r r' st hr hb hs =>
    obtain ⟨he, hst, -⟩ := built_fields hb
    refine replaced hr ⟨he, fun hret => ?_⟩
    rcases hs with ⟨hcur, -⟩ | ⟨-, hst'⟩
    · rw [hret] at hcur; cases hcur
    · rw [hst, hst']
  | @keep c c' hc hb =>
    obtain ⟨he, -, -⟩ := built_fields hb
    obtain ⟨hcm, hcs⟩ := mem_of_filter_eq hc
    simp only [decide_eq_true_eq] at hcs
    exact replaced hcm ⟨he, fun hret => by rw [hret] at hcs; cases hcs⟩
  | @reserve g n hp hnum hb =>
    obtain ⟨hg, -, -⟩ := built_fields hb
    refine restates_of_perm [] [] [g] hn (List.Perm.refl existing)
      ((canonicalRows_perm _).trans (List.perm_append_singleton g existing)) .nil ?_
      (by simp [numbers])
    intro g' hg' m hm
    rw [List.mem_singleton.mp hg', hg]
    exact nextGenerationNumber_gt hnum m hm
  | @fresh c cs f n hc hnum hb hcs =>
    obtain ⟨hf, -, -⟩ := built_fields hb
    have hnew : ∀ g ∈ [f], ∀ m ∈ numbers existing, m < g.owner.generation := by
      intro g hg m hm
      rw [List.mem_singleton.mp hg, hf]
      exact nextGenerationNumber_gt hnum m hm
    have hnext := (canonicalRows_perm (withoutCurrent existing c ++ cs ++ [f])).trans
      (List.perm_append_singleton f _)
    rcases retireCurrent_eq_ok.mp hcs with ⟨rfl, rfl⟩ | ⟨r, r', rfl, rfl, hr'⟩
    · simp only [withoutCurrent, List.append_nil] at hnext ⊢
      exact restates_of_perm [] [] [f] hn (List.Perm.refl existing) hnext .nil hnew
        (by simp [numbers])
    · obtain ⟨hrm, -⟩ := mem_of_filter_eq hc
      obtain ⟨hrn, hrs, -⟩ := built_fields hr'
      exact restates_of_perm [r] [r'] [f] hn (perm_cons_filter hn hrm)
        (hnext.trans (List.Perm.cons f (List.perm_append_singleton r' _)))
        (.cons ⟨hrn, fun _ => hrs⟩ .nil) hnew (by simp [numbers])
  | @promote p p' c cs hp hc hb hcs =>
    obtain ⟨hpm, hps⟩ := mem_of_filter_eq hp
    simp only [decide_eq_true_eq] at hps
    obtain ⟨hpn, -, -⟩ := built_fields hb
    have hpp : Continues p p' := ⟨hpn, fun hret => by rw [hret] at hps; cases hps⟩
    have hnext := (canonicalRows_perm (withoutCurrent
      (existing.filter (·.owner.generation ≠ p.owner.generation)) c ++ cs ++ [p'])).trans
      (List.perm_append_singleton p' _)
    have hperm := perm_cons_filter hn hpm
    rcases retireCurrent_eq_ok.mp hcs with ⟨rfl, rfl⟩ | ⟨r, r', rfl, rfl, hr'⟩
    · simp only [withoutCurrent, List.append_nil] at hnext ⊢
      exact restates_of_perm [p] [p'] [] hn hperm hnext (.cons hpp .nil) (by simp)
        (by simp [numbers])
    · obtain ⟨hrm, hrs⟩ := mem_of_filter_eq hc
      simp only [decide_eq_true_eq] at hrs
      obtain ⟨hrn, hrst, -⟩ := built_fields hr'
      -- the current row is among the rows beside the pending one
      have hrest : r ∈ existing.filter (·.owner.generation ≠ p.owner.generation) := by
        rcases List.mem_cons.mp (hperm.mem_iff.mp hrm) with rfl | hm
        · rw [hrs] at hps; cases hps
        · exact hm
      have hn' : (numbers (existing.filter (·.owner.generation ≠ p.owner.generation))).Nodup :=
        hn.sublist ((List.filter_sublist).map _)
      refine restates_of_perm [p, r] [p', r'] [] hn
        (hperm.trans (List.Perm.cons p (perm_cons_filter hn' hrest)))
        (hnext.trans (List.Perm.cons p' (List.perm_append_singleton r' _)))
        (.cons hpp (.cons ⟨hrn, fun _ => hrst⟩ .nil)) (by simp) (by simp [numbers])

/-! ## Runs -/

variable {sha256Hex : String → String} {id : Identity} {rows rows' : List GenerationRow}

theorem step_restates {c : Call} (h : (lts sha256Hex id).step rows c rows') :
    (numbers rows).Nodup ∧ Restates rows rows' := by
  obtain ⟨rfl, -, plan, hplan, rfl⟩ := h
  have planned : ∀ {t e ids need}, Planned t e ids c.rows plan.generations need →
      (numbers c.rows).Nodup ∧ Restates c.rows plan.generations := by
    intro t e ids need hpl
    have hperm := canonicalRows_perm c.rows
    have hr := change_restates hpl.change ((numbers_perm hperm).nodup_iff.mpr hpl.numbers)
    refine ⟨hpl.numbers, ⟨⟨?_, ?_⟩, hr.nodup⟩⟩
    · intro r hm
      exact hr.evolves.kept r (hperm.mem_iff.mpr hm)
    · intro r hm
      simpa only [(numbers_perm hperm).mem_iff] using hr.evolves.fresh r hm
  cases c with
  | lifecycle input =>
    obtain ⟨_, _, -, -, -, -, hpl, -⟩ := planAuthorizationLifecycle_planned hplan
    exact planned hpl
  | pending input =>
    obtain ⟨_, hpl, -⟩ := planPendingAuthorizationGeneration_planned hplan
    exact planned hpl

theorem run_restates {calls : List Call} (h : (lts sha256Hex id).Run rows calls rows')
    (hn : (numbers rows).Nodup) : Restates rows rows' := by
  induction h with
  | nil rows => exact ⟨.refl rows, hn⟩
  | cons hs _ ih =>
    have h1 := (step_restates hs).2
    have h2 := ih h1.nodup
    exact ⟨h1.evolves.trans h2.evolves, h2.nodup⟩

/-- **No resurrection.** Between any two points of a run of accepted calls, from any rows: each
row set has distinct numbers; no number is given up; a number that is new at the later point is
above every number of the earlier one; a number that was retired is retired; and the owner of
such a number is among the effective owners of no permission, whoever asks. -/
theorem no_resurrection {c : Call} {calls : List Call}
    (h : (lts sha256Hex id).Run rows (c :: calls) rows') :
    (numbers rows).Nodup ∧ (numbers rows').Nodup ∧ numbers rows ⊆ numbers rows' ∧
    (∀ n ∈ numbers rows', n ∈ numbers rows ∨ ∀ m ∈ numbers rows, m < n) ∧
    (∀ r ∈ rows, r.state = .retired →
      ∀ r' ∈ rows', r'.owner.generation = r.owner.generation → r'.state = .retired) ∧
    (∀ (sort : List OwnerRef → List OwnerRef) assignments roles grants generations,
      (∀ l, (sort l).Perm l) →
      (∀ g ∈ generations, g.owner.deliveryClass = id.deliveryClass →
        g.owner.extensionId = id.extensionId → g ∈ rows') →
      ∀ r ∈ rows, r.state = .retired → ∀ permission owners,
        (authority sort assignments roles grants generations).ownersByPermission.get? permission =
          some owners →
        .extension ⟨id.deliveryClass, id.extensionId, r.owner.generation⟩ ∉ owners) := by
  have hn : (numbers rows).Nodup := by
    cases h with
    | cons hs _ => exact (step_restates hs).1
  have hr := run_restates h hn
  have hret : ∀ r ∈ rows, r.state = .retired →
      ∀ r' ∈ rows', r'.owner.generation = r.owner.generation → r'.state = .retired :=
    fun r hm hs r' hm' he => hr.evolves.retired hr.nodup hm hs hm' he
  refine ⟨hn, hr.nodup, hr.evolves.numbers_subset, ?_, hret, ?_⟩
  · intro n hm
    obtain ⟨r', hr', rfl⟩ := List.mem_map.mp hm
    exact hr.evolves.fresh r' hr'
  · intro sort assignments roles grants generations hsort hgen r hm hs permission owners hget ho
    have hcur := authority_allCurrent hsort assignments roles grants generations permission
      owners hget _ ho
    obtain ⟨g, hg, hgs, hgo⟩ := generationCurrent_extension.mp hcur
    have hmem := hgen g hg (by rw [hgo]) (by rw [hgo])
    have := hret r hm hs g hmem (by rw [hgo])
    rw [hgs] at this
    cases this

theorem no_resurrection_rollback :
    (numbers [moduleRow 1 "runtime-1" .retired 2, moduleRow 2 "runtime-2" .current 2]).Nodup ∧
      (numbers [moduleRow 1 "runtime-1" .retired 2, moduleRow 2 "runtime-1" .current 3]).Nodup ∧
      (∀ r' ∈ [moduleRow 1 "runtime-1" .retired 2, moduleRow 2 "runtime-1" .current 3],
        r'.owner.generation = 1 → r'.state = .retired) :=
  have h := no_resurrection (.cons module_rollback (.nil _))
  ⟨h.1, h.2.1, h.2.2.2.2.1 (moduleRow 1 "runtime-1" .retired 2) List.mem_cons_self rfl⟩

end KNex.Runtime.AuthorizationLifecycle
