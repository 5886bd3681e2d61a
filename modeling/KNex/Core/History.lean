import Mathlib

/-!
# Histories

A component that logs what it does, in order. A law about its runs is often one about each entry of
the log and what came before it (`Along`); such a law is proved entry by entry (`along_snoc`), and a
log that has it has it at every earlier time (`Along.of_append`).
-/
namespace KNex.Core.History

universe u

variable {α : Type u} {P Q : List α → α → Prop} {h : List α} {a : α}

/-- Every entry stands to the entries before it as `P` says. -/
def Along (P : List α → α → Prop) (h : List α) : Prop :=
  ∀ before a after, h = before ++ a :: after → P before a

theorem along_nil : Along P [] := by
  intro before a after h
  exact absurd h (by simp)

theorem along_snoc : Along P (h ++ [a]) ↔ Along P h ∧ P h a := by
  constructor
  · intro hp
    refine ⟨fun before b after he => hp before b (after ++ [a]) (by simp [he]), hp h a [] rfl⟩
  · intro ⟨hp, ha⟩ before b after he
    rcases List.eq_nil_or_concat after with rfl | ⟨after, x, rfl⟩
    · obtain ⟨rfl, hd⟩ := List.append_inj' he rfl
      cases hd
      exact ha
    · rw [List.concat_eq_append, ← List.cons_append, ← List.append_assoc] at he
      obtain ⟨rfl, -⟩ := List.append_inj' he rfl
      exact hp before b after rfl

theorem along_pair {b : α} : Along P (h ++ [a, b]) ↔ Along P h ∧ P h a ∧ P (h ++ [a]) b := by
  have hlist : h ++ [a, b] = (h ++ [a]) ++ [b] := by rw [List.append_assoc]; rfl
  rw [hlist, along_snoc, along_snoc, and_assoc]

/-- Entries of which `P` holds whatever came before. -/
theorem along_append {l : List α} (hp : Along P h) (hl : ∀ a ∈ l, ∀ before, P before a) :
    Along P (h ++ l) := by
  induction l using List.reverseRecOn with
  | nil => rwa [List.append_nil]
  | append_singleton l a ih =>
    rw [← List.append_assoc, along_snoc]
    refine ⟨ih fun b hb => hl b (List.mem_append_left _ hb), ?_⟩
    exact hl a (List.mem_append_right _ (List.mem_singleton_self a)) _

theorem Along.of_append {h' : List α} (hp : Along P (h ++ h')) : Along P h := by
  intro before a after he
  refine hp before a (after ++ h') ?_
  rw [he, List.append_assoc, List.cons_append]

theorem Along.mono (hp : Along P h) (hpq : ∀ before a, P before a → Q before a) : Along Q h :=
  fun before a after he => hpq before a (hp before a after he)

end KNex.Core.History
