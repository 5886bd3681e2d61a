import KNex.Core.Except
import KNex.Core.JsMap
import Mathlib.Data.List.Nodup
import Mathlib.Data.List.Perm.Subperm
import Mathlib.Logic.Relation

/-!
# Propagation to a fixpoint

Nodes that are bad in themselves spoil the nodes with an edge to them, those spoil the nodes with
an edge to them, and so on. `propagate` goes over the map of edges, in its order, until a pass
marks nothing. Whatever that order is, it marks the nodes with a walk of at least one edge to a
bad node (`mem_propagate`), and no more passes than there are nodes with edges mark anything
(`propagate_enough`, `pass_propagate`).
-/
namespace KNex.Core.Propagation

variable {α : Type} [DecidableEq α]

/-- The marked nodes, and whether the pass has marked one. -/
structure Marking (α : Type) where
  marked : List α
  changed : Bool

/-- One node of a pass. -/
def mark (bad : α → Bool) (s : Marking α) (entry : α × List α) : Marking α :=
  if s.marked.contains entry.1 || !entry.2.any fun b => s.marked.contains b || bad b then s
  else ⟨s.marked ++ [entry.1], true⟩

def pass (bad : α → Bool) (edges : JsMap α (List α)) (marked : List α) : Marking α :=
  edges.entries.foldl (mark bad) ⟨marked, false⟩

/-- Passes until one marks nothing, and at most `fuel` of them. -/
def propagate (bad : α → Bool) (edges : JsMap α (List α)) : Nat → List α → List α
  | 0, marked => marked
  | fuel + 1, marked =>
    let s := pass bad edges marked
    if s.changed then propagate bad edges fuel s.marked else s.marked

/-- Some walk of at least one edge from `a` ends at a bad node. -/
def Spoiled (bad : α → Bool) (edges : JsMap α (List α)) (a : α) : Prop :=
  ∃ q, Relation.TransGen edges.Filed a q ∧ bad q = true

section Pass

variable {bad : α → Bool} {edges : JsMap α (List α)} {marked : List α}

/-- The marks are nodes of the map, once each, with a reason. -/
structure Justified (bad : α → Bool) (edges : JsMap α (List α)) (marked : List α) : Prop where
  nodup : marked.Nodup
  keys : ∀ a ∈ marked, a ∈ edges.keys
  spoiled : ∀ a ∈ marked, Spoiled bad edges a

theorem Justified.length_le (h : Justified bad edges marked) : marked.length ≤ edges.size := by
  have := (List.subperm_of_subset h.nodup fun a ha => h.keys a ha).length_le
  simpa [JsMap.keys, JsMap.size] using this

/-- A node is marked only with a bad or a marked node behind one of its edges. -/
theorem justified_mark {s : Marking α} {entry : α × List α} (h : Justified bad edges s.marked)
    (he : entry ∈ edges.entries) : Justified bad edges (mark bad s entry).marked := by
  unfold mark
  split
  · exact h
  · rename_i hnew
    simp only [Bool.or_eq_true, Bool.not_eq_true', List.contains_iff_mem, not_or, Bool.not_eq_false,
      List.any_eq_true] at hnew
    obtain ⟨hin, b, hb, hbad⟩ := hnew
    have hE : edges.Filed entry.1 b := ⟨entry.2, JsMap.get?_eq_some.mpr he, hb⟩
    refine ⟨?_, fun a ha => ?_, fun a ha => ?_⟩
    · show (s.marked ++ [entry.1]).Nodup
      rw [List.nodup_append']
      exact ⟨h.nodup, List.nodup_singleton _, List.disjoint_singleton.mpr hin⟩
    · rcases List.mem_append.mp ha with ha | ha
      · exact h.keys a ha
      · rw [List.mem_singleton.mp ha]
        exact List.mem_map_of_mem he
    · rcases List.mem_append.mp ha with ha | ha
      · exact h.spoiled a ha
      · rw [List.mem_singleton.mp ha]
        rcases hbad with hm | hbad
        · obtain ⟨q, hw, hq⟩ := h.spoiled b hm
          exact ⟨q, .head hE hw, hq⟩
        · exact ⟨b, .single hE, hbad⟩

theorem justified_pass (h : Justified bad edges marked) :
    Justified bad edges (pass bad edges marked).marked :=
  foldl_rule (P := fun _ (s : Marking α) => Justified bad edges s.marked) h
    fun _ _ _ _ hl hs => justified_mark hs (by rw [hl]; simp)

/-- Every node with an edge to a bad or a marked node is marked. -/
def Closed (bad : α → Bool) (edges : JsMap α (List α)) (marked : List α) : Prop :=
  ∀ a b, edges.Filed a b → b ∈ marked ∨ bad b = true → a ∈ marked

/-- A pass adds marks, and says whether it did; one that adds none has found the marks closed. -/
theorem pass_spec (bad : α → Bool) (edges : JsMap α (List α)) (marked : List α) :
    ((pass bad edges marked).changed = true → marked.length < (pass bad edges marked).marked.length) ∧
    ((pass bad edges marked).changed = false →
      (pass bad edges marked).marked = marked ∧ Closed bad edges marked) := by
  have h := foldl_rule (P := fun gone (s : Marking α) =>
      marked.length ≤ s.marked.length ∧ (s.changed = true → marked.length < s.marked.length) ∧
      (s.changed = false → s.marked = marked ∧ ∀ entry ∈ gone, ∀ b ∈ entry.2,
        b ∈ marked ∨ bad b = true → entry.1 ∈ marked))
    (f := mark bad) (l := edges.entries) (s := ⟨marked, false⟩)
    ⟨Nat.le_refl _, fun h => (by cases h), fun _ => ⟨rfl, fun _ h => absurd h List.not_mem_nil⟩⟩ (by
      intro gone entry rest s _ ⟨hle, hlt, hsame⟩
      unfold mark
      split
      · rename_i hskip
        refine ⟨hle, hlt, fun hc => ?_⟩
        obtain ⟨hs, hgone⟩ := hsame hc
        refine ⟨hs, fun e he b hb hbad => ?_⟩
        rcases List.mem_append.mp he with he | he
        · exact hgone e he b hb hbad
        · obtain rfl := List.mem_singleton.mp he
          rw [hs] at hskip
          simp only [Bool.or_eq_true, Bool.not_eq_true', List.contains_iff_mem,
            List.any_eq_false] at hskip
          rcases hskip with hin | hnone
          · exact hin
          · exact absurd hbad (hnone b hb)
      · have hlen : (s.marked ++ [entry.1]).length = s.marked.length + 1 := by simp
        refine ⟨?_, fun _ => ?_, fun hc => by cases hc⟩
        · show marked.length ≤ (s.marked ++ [entry.1]).length
          omega
        · show marked.length < (s.marked ++ [entry.1]).length
          omega)
  refine ⟨h.2.1, fun hc => ⟨(h.2.2 hc).1, fun a b hab hb => ?_⟩⟩
  obtain ⟨l, hl, hbl⟩ := hab
  exact (h.2.2 hc).2 (a, l) (JsMap.get?_eq_some.mp hl) b hbl hb

theorem Closed.spoiled (h : Closed bad edges marked) {a : α} (ha : Spoiled bad edges a) :
    a ∈ marked := by
  obtain ⟨q, hw, hq⟩ := ha
  induction hw using Relation.TransGen.head_induction_on with
  | single hE => exact h _ _ hE (.inr hq)
  | head hE _ ih => exact h _ _ hE (.inl ih)

/-- With more passes than nodes left to mark, the last pass marks nothing. -/
theorem propagate_closed : ∀ {fuel : Nat} {marked : List α}, Justified bad edges marked →
    edges.size < fuel + marked.length →
    Justified bad edges (propagate bad edges fuel marked) ∧
      Closed bad edges (propagate bad edges fuel marked)
  | 0, marked, h, hfuel => by
    have := h.length_le
    omega
  | fuel + 1, marked, h, hfuel => by
    obtain ⟨hlt, hsame⟩ := pass_spec bad edges marked
    unfold propagate
    dsimp only
    split
    · rename_i hc
      have := hlt hc
      exact propagate_closed (justified_pass h) (by omega)
    · rename_i hc
      obtain ⟨hm, hclosed⟩ := hsame (by simpa using hc)
      rw [hm]
      exact ⟨h, hclosed⟩

theorem justified_nil (bad : α → Bool) (edges : JsMap α (List α)) : Justified bad edges [] :=
  ⟨List.nodup_nil, fun _ h => absurd h List.not_mem_nil, fun _ h => absurd h List.not_mem_nil⟩

theorem propagate_nil {fuel : Nat} (hfuel : edges.size < fuel) :
    Justified bad edges (propagate bad edges fuel []) ∧
      Closed bad edges (propagate bad edges fuel []) :=
  propagate_closed (justified_nil bad edges) (by simpa using hfuel)

/-- **The fixpoint.** Marked are the nodes with a walk to a bad node. -/
theorem mem_propagate {fuel : Nat} (hfuel : edges.size < fuel) {a : α} :
    a ∈ propagate bad edges fuel [] ↔ Spoiled bad edges a := by
  obtain ⟨hjust, hclosed⟩ := propagate_nil hfuel
  exact ⟨hjust.spoiled a, hclosed.spoiled⟩

/-- A pass over closed marks ends the loop. -/
theorem pass_of_closed (h : Closed bad edges marked) (hjust : Justified bad edges marked) :
    pass bad edges marked = ⟨marked, false⟩ := by
  cases hs : pass bad edges marked with
  | mk m c =>
    obtain ⟨hlt, hsame⟩ := pass_spec bad edges marked
    rw [hs] at hlt hsame
    cases c with
    | false =>
      obtain rfl : m = marked := (hsame rfl).1
      rfl
    | true =>
      -- what a pass marks is spoiled, so it was marked
      have hpass := justified_pass hjust
      rw [hs] at hpass
      have hsub : m ⊆ marked := fun a ha => h.spoiled (hpass.spoiled a ha)
      have hle : m.length ≤ marked.length := (List.subperm_of_subset hpass.nodup hsub).length_le
      have hgt : marked.length < m.length := hlt rfl
      omega

theorem pass_propagate {fuel : Nat} (hfuel : edges.size < fuel) :
    pass bad edges (propagate bad edges fuel []) = ⟨propagate bad edges fuel [], false⟩ := by
  obtain ⟨hjust, hclosed⟩ := propagate_nil hfuel
  exact pass_of_closed hclosed hjust

/-- More passes than enough change nothing. -/
theorem propagate_add {extra : Nat} : ∀ {fuel : Nat} {marked : List α}, Justified bad edges marked →
    edges.size < fuel + marked.length →
    propagate bad edges (fuel + extra) marked = propagate bad edges fuel marked
  | 0, marked, h, hfuel => by
    have := h.length_le
    omega
  | fuel + 1, marked, h, hfuel => by
    rw [Nat.add_right_comm]
    unfold propagate
    dsimp only
    split
    · rename_i hc
      have := (pass_spec bad edges marked).1 hc
      exact propagate_add (justified_pass h) (by omega)
    · rfl

theorem propagate_enough {fuel fuel' : Nat} (hfuel : edges.size < fuel) (hle : fuel ≤ fuel') :
    propagate bad edges fuel' [] = propagate bad edges fuel [] := by
  obtain ⟨extra, rfl⟩ := Nat.exists_eq_add_of_le hle
  exact propagate_add (justified_nil bad edges) (by simpa using hfuel)

end Pass

end KNex.Core.Propagation
