import KNex.Core.JsonText
import Mathlib.Data.List.Basic
import Mathlib.Data.List.Pairwise
import Mathlib.Data.List.Nodup

/-!
# Keys compared by their joined text

A program that compares lists by joining them with a separator may take two lists for one, when an
element holds the separator. `mem_of_joined` says when it does not matter: the names it compares with
do not hold it, and all of them but one are known to be elements.
-/
namespace KNex.Core

variable {α : Type} [DecidableEq α] {x : α}

theorem splitOn_joined : ∀ {keys : List (List α)}, keys ≠ [] →
    ([x].intercalate keys).splitOn x = keys.flatMap fun key => key.splitOn x
  | [key], _ => by
    rw [List.flatMap_singleton]
    simp [List.intercalate]
  | key :: key' :: keys, _ => by
    have ih := splitOn_joined (List.cons_ne_nil key' keys)
    have hcons : [x].intercalate (key :: key' :: keys) =
        key ++ x :: [x].intercalate (key' :: keys) := by
      simp [List.intercalate]
    rw [hcons, List.splitOn_append_cons_self, ih]
    rfl

/-- Elements whose joined text is that of the names are names. -/
theorem mem_of_joined {keys names : List (List α)} (optional : List α) (hnodup : names.Nodup)
    (hsep : ∀ name ∈ names, x ∉ name) (hnames : names ≠ []) (hkeys : keys ≠ [])
    (hjoined : [x].intercalate keys = [x].intercalate names)
    (hmem : ∀ name ∈ names, name ≠ optional → name ∈ keys) : ∀ key ∈ keys, key ∈ names := by
  intro key hkey
  have hsplit : (keys.flatMap fun key => key.splitOn x) = names := by
    rw [← splitOn_joined hkeys, hjoined, List.splitOn_intercalate x hsep hnames]
  have hpieces : ∀ piece ∈ key.splitOn x, piece ∈ names := fun piece hpiece => by
    rw [← hsplit]
    exact List.mem_flatMap.mpr ⟨key, hkey, hpiece⟩
  rw [← hsplit, List.nodup_flatMap] at hnodup
  by_cases hother : ∃ piece ∈ key.splitOn x, piece ≠ optional
  · obtain ⟨piece, hpiece, hne⟩ := hother
    have hname := hpieces piece hpiece
    have hself : piece.splitOn x = [piece] := List.splitOn_eq_singleton (hsep piece hname)
    by_cases heq : key = piece
    · rwa [heq]
    · have : Std.Symm (Function.onFun List.Disjoint fun key => List.splitOn x key) :=
        ⟨fun _ _ h _ hmem hmem' => h hmem' hmem⟩
      have hdisjoint := hnodup.2.forall hkey (hmem piece hname hne) heq
      have hown : piece ∈ piece.splitOn x := by
        rw [hself]
        exact List.mem_singleton_self piece
      exact absurd hown (hdisjoint hpiece)
  · -- nothing but the optional name is left, and it is there once
    have hall : ∀ piece ∈ key.splitOn x, piece = optional := by
      intro piece hpiece
      by_contra hne
      exact hother ⟨piece, hpiece, hne⟩
    have hone : key.splitOn x = [optional] := by
      have hn := hnodup.1 key hkey
      have hne := List.splitOn_ne_nil x key
      match hpiece : key.splitOn x with
      | [] => exact absurd hpiece hne
      | [piece] => rw [hall piece (hpiece ▸ List.mem_singleton_self piece)]
      | first :: second :: rest =>
        have h1 := hall first (hpiece ▸ List.mem_cons_self)
        have h2 := hall second (hpiece ▸ List.mem_cons_of_mem _ List.mem_cons_self)
        rw [hpiece, h1, h2] at hn
        exact absurd List.mem_cons_self (List.nodup_cons.mp hn).1
    have hkeyeq : [x].intercalate (key.splitOn x) = key := List.intercalate_splitOn x
    rw [hone] at hkeyeq
    have hoptional : optional = key := by
      rw [← hkeyeq]
      simp [List.intercalate]
    rw [← hoptional]
    exact hpieces optional (by rw [hone]; exact List.mem_singleton_self _)

/-! ## Sorted keys -/

open JsonText

/-- `keys.sort()`. -/
def sortKeys (keys : List Str) : List Str := keys.insertionSort JsonText.StrLe

/-- `keys.sort().join("\0")`. -/
def keyText (keys : List Str) : Str := List.intercalate [0] (sortKeys keys)

theorem sortKeys_perm (keys : List Str) : (sortKeys keys).Perm keys := List.perm_insertionSort _ keys

theorem sortKeys_eq {keys keys' : List Str} (h : keys.Perm keys') : sortKeys keys = sortKeys keys' := by
  have : Std.Total JsonText.StrLe := ⟨fun _ _ => JsonText.StrLe.total _ _⟩
  have : IsTrans Str JsonText.StrLe := ⟨fun _ _ _ h h' => h.trans h'⟩
  exact List.Perm.eq_of_pairwise (fun _ _ _ _ hab hba => hab.antisymm hba)
    (List.pairwise_insertionSort _ keys) (List.pairwise_insertionSort _ keys')
    (((sortKeys_perm keys).trans h).trans (sortKeys_perm keys').symm)

end KNex.Core
