import Mathlib

/-!
# Calls that hold something

The calls of an asynchronous function are a list, addressed by number, and a call that goes on is
replaced in place. `HeldOnce f` says that no two of them hold the same thing, where `f` gives
what a call holds (the key it has reserved, the record it is consuming); `countP_set` is what one
call does to a count of calls.
-/
namespace KNex.Core

universe u v

variable {α : Type u} {κ : Type v} {f : α → Option κ} {l : List α}

def HeldOnce (f : α → Option κ) (l : List α) : Prop :=
  ∀ (i j : Nat) (a b : α) (k : κ), l[i]? = some a → l[j]? = some b → f a = some k →
    f b = some k → i = j

theorem HeldOnce.nil : HeldOnce f [] := by
  intro i j a b k ha
  cases ha

theorem getElem?_append_of_some {l' : List α} {i : Nat} {a : α} (h : l[i]? = some a) :
    (l ++ l')[i]? = some a := by
  obtain ⟨hlt, -⟩ := List.getElem?_eq_some_iff.mp h
  rw [List.getElem?_append_left hlt]
  exact h

/-- The element at a place of a list with one more element: an old one, or the new one. -/
theorem getElem?_snoc {c a : α} {i : Nat} (h : (l ++ [c])[i]? = some a) :
    l[i]? = some a ∨ i = l.length ∧ a = c := by
  rw [List.getElem?_append] at h
  split at h
  · exact .inl h
  · obtain ⟨hlt, -⟩ := List.getElem?_eq_some_iff.mp h
    rw [List.length_singleton] at hlt
    exact .inr ⟨by omega, List.mem_singleton.mp (List.mem_of_getElem? h)⟩

/-- The element at a place of a list with one element replaced. -/
theorem getElem?_set_cases {c a : α} {i j : Nat} (h : (l.set i c)[j]? = some a) :
    (j ≠ i ∧ l[j]? = some a) ∨ j = i ∧ a = c := by
  by_cases heq : i = j
  · subst heq
    obtain ⟨hlt, -⟩ := List.getElem?_eq_some_iff.mp h
    rw [List.length_set] at hlt
    rw [List.getElem?_set_self hlt] at h
    exact .inr ⟨rfl, (Option.some.inj h).symm⟩
  · rw [List.getElem?_set_ne heq] at h
    exact .inl ⟨fun he => heq he.symm, h⟩

/-- The other elements stay when one is replaced. -/
theorem mem_set_of_ne {a b c : α} {i : Nat} (hi : l[i]? = some b) (ha : a ∈ l) (hne : a ≠ b) :
    a ∈ l.set i c := by
  obtain ⟨j, hlt, hget⟩ := List.getElem_of_mem ha
  have hj : l[j]? = some a := by
    rw [List.getElem?_eq_getElem hlt, hget]
  have hij : i ≠ j := by
    rintro rfl
    exact hne (Option.some.inj (hj.symm.trans hi))
  rw [← List.getElem?_set_ne hij] at hj
  exact List.mem_of_getElem? hj

/-- What one replaced element does to a count. -/
theorem countP_set (p : α → Bool) {a c : α} : ∀ {l : List α} {i : Nat}, l[i]? = some a →
    (l.set i c).countP p + (if p a then 1 else 0) = l.countP p + (if p c then 1 else 0)
  | [], _, h => by cases h
  | b :: l, 0, h => by
    obtain rfl := Option.some.inj h
    rw [List.set_cons_zero, List.countP_cons, List.countP_cons]
    omega
  | b :: l, i + 1, h => by
    have ih := countP_set p (c := c) (l := l) (i := i) h
    rw [List.set_cons_succ, List.countP_cons, List.countP_cons]
    omega

/-- A new call that holds nothing any other call holds. -/
theorem HeldOnce.snoc (h : HeldOnce f l) {c : α}
    (hc : ∀ k, f c = some k → ∀ a ∈ l, f a ≠ some k) : HeldOnce f (l ++ [c]) := by
  intro i j a b k ha hb hfa hfb
  rcases getElem?_snoc ha with hl | ⟨hi, rfl⟩
  · rcases getElem?_snoc hb with hl' | ⟨-, rfl⟩
    · exact h i j a b k hl hl' hfa hfb
    · exact absurd hfa (hc k hfb a (List.mem_of_getElem? hl))
  · rcases getElem?_snoc hb with hl' | ⟨hj, -⟩
    · exact absurd hfb (hc k hfa b (List.mem_of_getElem? hl'))
    · omega

/-- A call that goes on with what it held, or drops it. -/
theorem HeldOnce.set (h : HeldOnce f l) {i : Nat} {a c : α} (hi : l[i]? = some a)
    (hc : ∀ k, f c = some k → f a = some k) : HeldOnce f (l.set i c) := by
  intro j j' b b' k hb hb' hfb hfb'
  rcases getElem?_set_cases hb with ⟨-, hl⟩ | ⟨rfl, rfl⟩
  · rcases getElem?_set_cases hb' with ⟨-, hl'⟩ | ⟨rfl, rfl⟩
    · exact h j j' b b' k hl hl' hfb hfb'
    · exact h j j' b a k hl hi hfb (hc k hfb')
  · rcases getElem?_set_cases hb' with ⟨-, hl'⟩ | ⟨rfl, -⟩
    · exact h j j' a b' k hi hl' (hc k hfb) hfb'
    · rfl

/-- A call that takes something that no call holds. -/
theorem HeldOnce.take (h : HeldOnce f l) {i : Nat} {c : α}
    (hc : ∀ k, f c = some k → ∀ a ∈ l, f a ≠ some k) : HeldOnce f (l.set i c) := by
  intro j j' b b' k hb hb' hfb hfb'
  rcases getElem?_set_cases hb with ⟨-, hl⟩ | ⟨rfl, rfl⟩
  · rcases getElem?_set_cases hb' with ⟨-, hl'⟩ | ⟨rfl, rfl⟩
    · exact h j j' b b' k hl hl' hfb hfb'
    · exact absurd hfb (hc k hfb' b (List.mem_of_getElem? hl))
  · rcases getElem?_set_cases hb' with ⟨-, hl'⟩ | ⟨rfl, -⟩
    · exact absurd hfb' (hc k hfb b' (List.mem_of_getElem? hl'))
    · rfl

/-- After a call has dropped what it held, no call holds it. -/
theorem HeldOnce.dropped (h : HeldOnce f l) {i : Nat} {a c : α} {k : κ} (hi : l[i]? = some a)
    (ha : f a = some k) (hc : f c ≠ some k) : ∀ b ∈ l.set i c, f b ≠ some k := by
  intro b hb hfb
  obtain ⟨j, hlt, hget⟩ := List.getElem_of_mem hb
  have hj : (l.set i c)[j]? = some b := by
    rw [List.getElem?_eq_getElem hlt, hget]
  rcases getElem?_set_cases hj with ⟨hne, hj⟩ | ⟨-, rfl⟩
  · exact hne (h j i b a k hj hi hfb ha)
  · exact hc hfb

end KNex.Core
