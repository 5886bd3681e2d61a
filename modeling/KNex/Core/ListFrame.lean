import Mathlib

/-!
# What edits leave of a list

A list after some edits against the list before: each element comes from one of before
(`origin`), two from different ones; what nothing comes from was removed; and those that may not be
moved stand in the order they had. Positions, not elements, are compared, so the elements may
repeat. The relation holds of one removal, one move and of edits in place (`eraseIdx`, `move`,
`of_forall₂`), and passes from edits to the next (`trans`).
-/
namespace KNex.Core

universe u

variable {α : Type u} {R : α → α → Prop} {gone fixed : α → Prop} {l l' : List α}

/-- `origin` says where the elements of the list after come from. -/
structure KeptFrom (R : α → α → Prop) (gone fixed : α → Prop) (l l' : List α)
    (origin : Fin l'.length → Fin l.length) : Prop where
  injective : Function.Injective origin
  related : ∀ k, R (l.get (origin k)) (l'.get k)
  removed : ∀ i, (∀ k, origin k ≠ i) → gone (l.get i)
  ordered : ∀ j k, j < k → fixed (l'.get j) → fixed (l'.get k) → origin j < origin k

/-- The elements of `l'` come from different ones of `l`, each related to its own; those of `l` that
none comes from are `gone`, and the `fixed` ones are in their order. -/
def ListFrame (R : α → α → Prop) (gone fixed : α → Prop) (l l' : List α) : Prop :=
  ∃ origin, KeptFrom R gone fixed l l' origin

namespace ListFrame

/-- Edits in place. -/
theorem of_forall₂ (h : List.Forall₂ R l l') : ListFrame R gone fixed l l' := by
  have hlen := h.length_eq
  refine ⟨Fin.cast hlen.symm, fun j k hjk => ?_, fun k => ?_, fun i hi => ?_,
    fun j k hjk _ _ => ?_⟩
  · have hval := congrArg Fin.val hjk
    exact Fin.ext hval
  · exact (List.forall₂_iff_get.mp h).2 k.1 (by rw [hlen]; exact k.2) k.2
  · exact absurd rfl (hi (Fin.cast hlen i))
  · exact hjk

/-- One element removed. -/
theorem eraseIdx (hR : ∀ a, R a a) {i : Nat} (hi : i < l.length) (hgone : gone l[i]) :
    ListFrame R gone fixed l (l.eraseIdx i) := by
  have hlen : (l.eraseIdx i).length = l.length - 1 := List.length_eraseIdx_of_lt hi
  refine ⟨fun k => ⟨if k.1 < i then k.1 else k.1 + 1, by have := k.2; split <;> omega⟩, ?_, ?_, ?_, ?_⟩
  · intro j k hjk
    have hjk := congrArg Fin.val hjk
    dsimp only at hjk
    refine Fin.ext ?_
    split at hjk <;> split at hjk <;> omega
  · intro k
    have hk := k.2
    have hget : (l.eraseIdx i).get k = l.get ⟨if k.1 < i then k.1 else k.1 + 1, by
        split <;> omega⟩ := by
      simp only [List.get_eq_getElem, List.getElem_eraseIdx]
      split <;> rfl
    rw [hget]
    exact hR _
  · intro j hj
    have hji : j.1 = i := by
      by_contra hne
      rcases Nat.lt_or_gt_of_ne hne with hlt | hgt
      · refine hj ⟨j.1, by omega⟩ (Fin.ext ?_)
        simp only
        rw [if_pos hlt]
      · refine hj ⟨j.1 - 1, by have := j.2; omega⟩ (Fin.ext ?_)
        simp only
        rw [if_neg (by omega)]
        omega
    have hget : l.get j = l[i] := by simp only [List.get_eq_getElem, hji]
    rwa [hget]
  · intro j k hjk _ _
    show (if j.1 < i then j.1 else j.1 + 1) < if k.1 < i then k.1 else k.1 + 1
    have : j.1 < k.1 := hjk
    split <;> split <;> omega

/-- Where the element at `k` stood before the one at `i` was put in at `b` of the rest. -/
def movedFrom (i b k : Nat) : Nat :=
  if k = b then i
  else if k < b then if k < i then k else k + 1
  else if k ≤ i then k - 1 else k

theorem getElem?_moved {i b : Nat} (hi : i < l.length) (hb : b ≤ (l.eraseIdx i).length) (k : Nat) :
    ((l.eraseIdx i).insertIdx b l[i])[k]? = l[movedFrom i b k]? := by
  rw [List.getElem?_insertIdx]
  unfold movedFrom
  by_cases hlt : k < b
  · rw [if_pos hlt, if_neg (by omega), if_pos hlt, List.getElem?_eraseIdx]
    split <;> rfl
  · by_cases heq : k = b
    · rw [if_neg hlt, if_pos heq, if_pos (by omega), if_pos heq, List.getElem?_eq_getElem hi]
    · rw [if_neg hlt, if_neg heq, if_neg heq, if_neg hlt, List.getElem?_eraseIdx]
      by_cases hk : k ≤ i
      · rw [if_pos (by omega), if_pos hk]
      · rw [if_neg (by omega), if_neg hk, show k - 1 + 1 = k by omega]

/-- One element taken out and put in elsewhere. -/
theorem move (hR : ∀ a, R a a) {i b : Nat} (hi : i < l.length) (hb : b ≤ (l.eraseIdx i).length)
    (hfixed : ¬ fixed l[i]) : ListFrame R gone fixed l ((l.eraseIdx i).insertIdx b l[i]) := by
  have herase : (l.eraseIdx i).length = l.length - 1 := List.length_eraseIdx_of_lt hi
  have hlen : ((l.eraseIdx i).insertIdx b l[i]).length = l.length := by
    rw [List.length_insertIdx_of_le_length hb]
    omega
  have hlt : ∀ k < l.length, movedFrom i b k < l.length := by
    intro k hk
    unfold movedFrom
    repeat' split
    all_goals omega
  have hget : ∀ k, (h : k < ((l.eraseIdx i).insertIdx b l[i]).length) →
      ((l.eraseIdx i).insertIdx b l[i])[k] = l.get ⟨movedFrom i b k, hlt k (by omega)⟩ := by
    intro k h
    refine Option.some.inj ?_
    rw [← List.getElem?_eq_getElem, List.get_eq_getElem, ← List.getElem?_eq_getElem]
    exact getElem?_moved hi hb k
  refine ⟨fun k => ⟨movedFrom i b k, hlt k (by omega)⟩, ?_, ?_, ?_, ?_⟩
  · intro j k hjk
    have hjk := congrArg Fin.val hjk
    dsimp only [movedFrom] at hjk
    refine Fin.ext ?_
    repeat' split at hjk
    all_goals omega
  · intro k
    rw [List.get_eq_getElem, List.get_eq_getElem, hget k k.2]
    exact hR _
  · -- every position is one of those before
    intro j hj
    have hto : ∃ k < l.length, movedFrom i b k = j := by
      by_cases hji : j = i
      · exact ⟨b, by omega, by rw [movedFrom, if_pos rfl, hji]⟩
      · refine ⟨if j.1 < i then if j.1 < b then j.1 else j.1 + 1
          else if j.1 - 1 < b then j.1 - 1 else j.1, ?_, ?_⟩
        · have := j.2
          repeat' split
          all_goals omega
        · unfold movedFrom
          repeat' split
          all_goals omega
    obtain ⟨k, hk, hkj⟩ := hto
    exact absurd (Fin.ext hkj) (hj ⟨k, by omega⟩)
  · -- the one that was moved is not fixed, and the others keep their order
    intro j k hjk hj hk
    rw [List.get_eq_getElem, hget j j.2] at hj
    rw [List.get_eq_getElem, hget k k.2] at hk
    have hne : ∀ m, (h : m < l.length) → fixed (l.get ⟨movedFrom i b m, hlt m h⟩) → m ≠ b := by
      intro m h hm hmb
      refine hfixed ?_
      have hat : movedFrom i b m = i := by rw [movedFrom, if_pos hmb]
      simpa only [hat, List.get_eq_getElem] using hm
    have hjb := hne j (by omega) hj
    have hkb := hne k (by omega) hk
    have hlt' : j.1 < k.1 := hjk
    show movedFrom i b j < movedFrom i b k
    unfold movedFrom
    repeat' split
    all_goals omega

/-- Edits after edits. -/
theorem trans {l'' : List α} {S T : α → α → Prop}
    (hgone : ∀ a b, R a b → gone b → gone a) (hfixed : ∀ b c, S b c → fixed c → fixed b)
    (hT : ∀ a b c, R a b → S b c → T a c) (h : ListFrame R gone fixed l l')
    (h' : ListFrame S gone fixed l' l'') : ListFrame T gone fixed l l'' := by
  obtain ⟨origin, ho⟩ := h
  obtain ⟨origin', ho'⟩ := h'
  refine ⟨origin ∘ origin', ho.injective.comp ho'.injective, fun k => ?_, fun i hi => ?_, ?_⟩
  · exact hT _ _ _ (ho.related (origin' k)) (ho'.related k)
  · by_cases hex : ∃ j, origin j = i
    · obtain ⟨j, rfl⟩ := hex
      have hj : ∀ k, origin' k ≠ j := fun k hk => hi k (congrArg origin hk)
      exact hgone _ _ (ho.related j) (ho'.removed j hj)
    · exact ho.removed i fun j hj => hex ⟨j, hj⟩
  · intro j k hjk hj hk
    exact ho.ordered _ _ (ho'.ordered j k hjk hj hk) (hfixed _ _ (ho'.related j) hj)
      (hfixed _ _ (ho'.related k) hk)

end ListFrame

end KNex.Core
