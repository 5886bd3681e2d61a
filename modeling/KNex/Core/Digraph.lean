import Mathlib

/-!
# Finite directed graphs

What an order of a dependency graph rests on, for any edge relation `E`, where `E a b` reads
"`a` depends on `b`". Taking nodes off a frontier of satisfied nodes ends with every node of an
acyclic graph, dependencies first (`Frontier.complete`).
-/
namespace KNex.Core.Digraph

universe u

variable {α : Type u} {E : α → α → Prop}

/-- No walk returns to the node it started from. -/
def Acyclic (E : α → α → Prop) : Prop := ∀ a, ¬ Relation.TransGen E a a

/-- A nonempty finite part of an acyclic graph has a node without an edge into the part. -/
theorem Acyclic.exists_sink (hE : Acyclic E) {l : List α} (hl : l ≠ []) :
    ∃ a ∈ l, ∀ b ∈ l, ¬ E a b := by
  let R : {a // a ∈ l} → {a // a ∈ l} → Prop := fun x y => Relation.TransGen E y.1 x.1
  have : Std.Irrefl R := ⟨fun x => hE x.1⟩
  have : IsTrans _ R := ⟨fun _ _ _ hxy hyz => hyz.trans hxy⟩
  have : Finite {a // a ∈ l} := List.finite_toSet l
  have hwf : WellFounded R := Finite.wellFounded_of_trans_of_irrefl R
  obtain ⟨a, ha⟩ := List.exists_mem_of_ne_nil l hl
  obtain ⟨m, -, hm⟩ := hwf.has_min Set.univ ⟨⟨a, ha⟩, Set.mem_univ _⟩
  exact ⟨m.1, m.2, fun b hb hmb => hm ⟨b, hb⟩ (Set.mem_univ _) (.single hmb)⟩

/-! ## Dependencies first -/

/-- Each node of the list stands after all nodes it depends on. -/
def DependencyFirst (E : α → α → Prop) (l : List α) : Prop :=
  ∀ before a after, l = before ++ a :: after → ∀ b, E a b → b ∈ before

theorem DependencyFirst.nil : DependencyFirst E [] := by
  intro before a after h
  simp at h

theorem DependencyFirst.snoc {l : List α} {n : α} (h : DependencyFirst E l)
    (hn : ∀ b, E n b → b ∈ l) : DependencyFirst E (l ++ [n]) := by
  intro before a after heq b hE
  rcases List.eq_nil_or_concat after with rfl | ⟨after', z, rfl⟩
  · have heq' : l ++ [n] = before ++ [a] := heq
    obtain ⟨h1, h2⟩ := List.append_inj' heq' rfl
    subst h1
    obtain rfl : n = a := by simpa using h2
    exact hn b hE
  · have heq' : l ++ [n] = (before ++ a :: after') ++ [z] := by simpa using heq
    obtain ⟨h1, -⟩ := List.append_inj' heq' rfl
    exact h before a after' h1 b hE

/-- Nodes that depend on the ones before them only may follow in any order. -/
theorem DependencyFirst.append {l : List α} (h : DependencyFirst E l) : ∀ {batch : List α},
    (∀ n ∈ batch, ∀ b, E n b → b ∈ l) → DependencyFirst E (l ++ batch)
  | [], _ => by simpa using h
  | n :: batch, hb => by
    have hn := h.snoc (hb n List.mem_cons_self)
    have hrest : DependencyFirst E ((l ++ [n]) ++ batch) := hn.append fun m hm b hE =>
      List.mem_append_left _ (hb m (List.mem_cons_of_mem _ hm) b hE)
    simpa using hrest

/-- An order with dependencies first, of every node that has an edge, shows that no walk
returns. -/
theorem DependencyFirst.acyclic {l : List α} (h : DependencyFirst E l) (hl : l.Nodup)
    (hsource : ∀ a b, E a b → a ∈ l) : Acyclic E := by
  classical
  have hdown : ∀ a b, E a b → l.idxOf b < l.idxOf a := by
    intro a b hE
    obtain ⟨before, after, rfl⟩ := List.append_of_mem (hsource a b hE)
    have hb : b ∈ before := h before a after rfl b hE
    have ha : a ∉ before := fun ha => (List.nodup_append'.mp hl).2.2 ha List.mem_cons_self
    rw [List.idxOf_append_of_mem hb, List.idxOf_append_of_notMem ha]
    have := List.idxOf_lt_length_of_mem hb
    omega
  have hwalk : ∀ a b, Relation.TransGen E a b → l.idxOf b < l.idxOf a := by
    intro a b hw
    induction hw with
    | single hE => exact hdown _ _ hE
    | tail _ hE ih => exact Nat.lt_trans (hdown _ _ hE) ih
  exact fun a hw => Nat.lt_irrefl _ (hwalk a a hw)

/-- The nodes placed so far, and the ones whose dependencies are all placed. -/
structure Frontier (E : α → α → Prop) (nodes order ready : List α) : Prop where
  nodup : (order ++ ready).Nodup
  mem : ∀ n, n ∈ order ++ ready ↔ n ∈ nodes ∧ ∀ b, E n b → b ∈ order
  first : DependencyFirst E order

theorem Frontier.perm {nodes order ready ready' : List α} (h : Frontier E nodes order ready)
    (hp : ready.Perm ready') : Frontier E nodes order ready' where
  nodup := (hp.append_left order).nodup_iff.mp h.nodup
  mem n := by rw [← (hp.append_left order).mem_iff, h.mem]
  first := h.first

/-- Placing a ready node makes ready the nodes that waited for it alone. -/
theorem Frontier.place {nodes order rest new : List α} {n : α}
    (h : Frontier E nodes order (n :: rest)) (hnew : new.Nodup)
    (hmem : ∀ m, m ∈ new ↔ m ∈ nodes ∧ m ∉ order ++ n :: rest ∧ ∀ b, E m b → b ∈ order ++ [n]) :
    Frontier E nodes (order ++ [n]) (rest ++ new) where
  nodup := by
    rw [show order ++ [n] ++ (rest ++ new) = (order ++ n :: rest) ++ new by simp,
      List.nodup_append']
    exact ⟨h.nodup, hnew, fun m hm hm' => ((hmem m).mp hm').2.1 hm⟩
  mem m := by
    rw [show order ++ [n] ++ (rest ++ new) = (order ++ n :: rest) ++ new by simp,
      List.mem_append, hmem]
    constructor
    · intro hm
      rcases hm with hm | ⟨hm, -, hb⟩
      · obtain ⟨hm, hb⟩ := (h.mem m).mp hm
        exact ⟨hm, fun b hE => List.mem_append_left _ (hb b hE)⟩
      · exact ⟨hm, hb⟩
    · intro ⟨hm, hb⟩
      by_cases hin : m ∈ order ++ n :: rest
      · exact .inl hin
      · exact .inr ⟨hm, hin, hb⟩
  first := h.first.snoc ((h.mem n).mp (by simp)).2

/-- When nothing is ready any more, every node has been placed. -/
theorem Frontier.complete {nodes order : List α} (h : Frontier E nodes order [])
    (hnodes : nodes.Nodup) (hE : Acyclic E) (hclosed : ∀ a ∈ nodes, ∀ b, E a b → b ∈ nodes) :
    order.Perm nodes := by
  classical
  have hmem : ∀ n, n ∈ order ↔ n ∈ nodes ∧ ∀ b, E n b → b ∈ order := by
    intro n
    simpa using h.mem n
  have hall : ∀ n ∈ nodes, n ∈ order := by
    by_contra hne
    have hwait : (nodes.filter fun n => n ∉ order) ≠ [] := by
      intro he
      apply hne
      intro n hn
      by_contra hno
      have : n ∈ nodes.filter fun n => n ∉ order := by simp [hn, hno]
      rw [he] at this
      exact List.not_mem_nil this
    obtain ⟨a, ha, hsink⟩ := hE.exists_sink hwait
    rw [List.mem_filter, decide_eq_true_eq] at ha
    -- what `a` still waits for would be waiting itself
    refine ha.2 ((hmem a).mpr ⟨ha.1, fun b hab => ?_⟩)
    by_contra hb
    refine hsink b ?_ hab
    rw [List.mem_filter, decide_eq_true_eq]
    exact ⟨hclosed a ha.1 b hab, hb⟩
  have hnodup : order.Nodup := by simpa using h.nodup
  exact (List.perm_ext_iff_of_nodup hnodup hnodes).mpr fun n =>
    ⟨fun hn => ((hmem n).mp hn).1, hall n⟩

end KNex.Core.Digraph
