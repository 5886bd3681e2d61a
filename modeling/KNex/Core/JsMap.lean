import Mathlib

/-!
# Insertion-ordered maps

The `Map` of ECMAScript: an association list without repeated keys, in insertion order.
`set` keeps the place of a key that is present and appends one that is not, `delete` and
`filter` keep the order of the rest. That the keys are distinct is a field, so a map with
two values for a key cannot be built.
-/
namespace KNex.Core

universe u v

structure JsMap (κ : Type u) (ν : Type v) where
  entries : List (κ × ν)
  nodup : (entries.map Prod.fst).Nodup

namespace JsMap

variable {κ : Type u} {ν : Type v}

instance [DecidableEq κ] [DecidableEq ν] : DecidableEq (JsMap κ ν) := fun a b =>
  decidable_of_iff (a.entries = b.entries) ⟨fun h => by cases a; cases b; cases h; rfl,
    fun h => h ▸ rfl⟩

def empty : JsMap κ ν := ⟨[], List.nodup_nil⟩

def keys (m : JsMap κ ν) : List κ := m.entries.map Prod.fst

def size (m : JsMap κ ν) : Nat := m.entries.length

def filter (m : JsMap κ ν) (p : κ → ν → Bool) : JsMap κ ν where
  entries := m.entries.filter fun e => p e.1 e.2
  nodup := (List.filter_sublist.map Prod.fst).nodup m.nodup

/-- The number of entries that satisfy `p`. -/
def count (m : JsMap κ ν) (p : κ → ν → Bool) : Nat := m.entries.countP fun e => p e.1 e.2

@[simp] theorem size_empty : (empty : JsMap κ ν).size = 0 := rfl

@[simp] theorem count_empty (p : κ → ν → Bool) : (empty : JsMap κ ν).count p = 0 := rfl

theorem size_filter_le (m : JsMap κ ν) (p : κ → ν → Bool) : (m.filter p).size ≤ m.size :=
  List.length_filter_le _ _

variable [DecidableEq κ]

def get? (m : JsMap κ ν) (k : κ) : Option ν := (m.entries.find? fun e => e.1 = k).map Prod.snd

def delete (m : JsMap κ ν) (k : κ) : JsMap κ ν := m.filter fun k' _ => k' ≠ k

/-- The entries with the value at `k` replaced. -/
def replace (l : List (κ × ν)) (k : κ) (v : ν) : List (κ × ν) :=
  l.map fun e => if e.1 = k then (k, v) else e

theorem map_fst_replace (l : List (κ × ν)) (k : κ) (v : ν) :
    (replace l k v).map Prod.fst = l.map Prod.fst := by
  rw [replace, List.map_map]
  refine List.map_congr_left fun e _ => ?_
  by_cases h : e.1 = k <;> simp [h]

def set (m : JsMap κ ν) (k : κ) (v : ν) : JsMap κ ν :=
  if h : k ∈ m.keys then ⟨replace m.entries k v, by rw [map_fst_replace]; exact m.nodup⟩
  else ⟨m.entries ++ [(k, v)], by
    rw [List.map_append, List.map_cons, List.map_nil, List.nodup_append]
    refine ⟨m.nodup, List.nodup_singleton k, ?_⟩
    intro a ha b hb e
    rw [List.mem_singleton] at hb; subst hb e
    exact h ha⟩

/-! ## Lookup -/

theorem find?_fst_nodup {l : List (κ × ν)} (hn : (l.map Prod.fst).Nodup) {k : κ} {v : ν} :
    l.find? (fun e => e.1 = k) = some (k, v) ↔ (k, v) ∈ l := by
  constructor
  · exact List.mem_of_find?_eq_some
  · intro h
    induction l with
    | nil => cases h
    | cons e l ih =>
      simp only [List.map_cons, List.nodup_cons] at hn
      rcases List.mem_cons.mp h with rfl | h
      · simp
      · have hne : e.1 ≠ k := fun he => hn.1 (he ▸ List.mem_map_of_mem (f := Prod.fst) h)
        simp only [List.find?_cons, hne, decide_false]
        exact ih hn.2 h

theorem get?_eq_some {m : JsMap κ ν} {k : κ} {v : ν} :
    m.get? k = some v ↔ (k, v) ∈ m.entries := by
  rw [← find?_fst_nodup m.nodup, get?, Option.map_eq_some_iff]
  constructor
  · rintro ⟨⟨k', v'⟩, hf, rfl⟩
    have hk : k' = k := by simpa using List.find?_some hf
    rw [hf, hk]
  · intro hf; exact ⟨(k, v), hf, rfl⟩

theorem get?_eq_none {m : JsMap κ ν} {k : κ} : m.get? k = none ↔ k ∉ m.keys := by
  simp only [get?, keys, Option.map_eq_none_iff, List.find?_eq_none, decide_eq_true_eq,
    List.mem_map, not_exists, not_and]

@[simp] theorem get?_empty (k : κ) : (empty : JsMap κ ν).get? k = none := rfl

theorem get?_filter (m : JsMap κ ν) (p : κ → ν → Bool) (k : κ) :
    (m.filter p).get? k = (m.get? k).filter (p k) := by
  refine Option.ext fun v => ?_
  rw [get?_eq_some, Option.filter_eq_some_iff, get?_eq_some]
  simp [filter]

theorem get?_delete (m : JsMap κ ν) (k k' : κ) :
    (m.delete k).get? k' = if k' = k then none else m.get? k' := by
  rw [delete, get?_filter]
  by_cases h : k' = k
  · simp [h]
  · cases m.get? k' <;> simp [h]

@[simp] theorem get?_delete_self (m : JsMap κ ν) (k : κ) : (m.delete k).get? k = none := by
  simp [get?_delete]

theorem mem_replace {l : List (κ × ν)} {k k' : κ} {v v' : ν} :
    (k', v') ∈ replace l k v ↔
      (k' = k ∧ v' = v ∧ k ∈ l.map Prod.fst) ∨ (k' ≠ k ∧ (k', v') ∈ l) := by
  simp only [replace, List.mem_map]
  constructor
  · rintro ⟨e, he, h⟩
    by_cases hk : e.1 = k
    · rw [if_pos hk] at h; cases h
      exact .inl ⟨rfl, rfl, e, he, hk⟩
    · rw [if_neg hk] at h; subst h
      exact .inr ⟨hk, he⟩
  · rintro (⟨rfl, rfl, e, he, hk⟩ | ⟨hk, he⟩)
    · exact ⟨e, he, by rw [if_pos hk]⟩
    · exact ⟨(k', v'), he, by rw [if_neg hk]⟩

theorem get?_set (m : JsMap κ ν) (k k' : κ) (v : ν) :
    (m.set k v).get? k' = if k' = k then some v else m.get? k' := by
  refine Option.ext fun w => ?_
  rw [get?_eq_some]
  unfold set
  split
  · rename_i hk
    rw [mem_replace]
    by_cases h : k' = k
    · subst h; simp only [ne_eq, not_true_eq_false, false_and, or_false, true_and, if_true,
        Option.some.injEq]
      exact ⟨fun h => h.1.symm, fun h => ⟨h.symm, hk⟩⟩
    · simp [h, get?_eq_some]
  · rename_i hk
    rw [List.mem_append, List.mem_singleton, Prod.mk.injEq]
    by_cases h : k' = k
    · subst h
      have : (k', w) ∉ m.entries := fun hm => hk (List.mem_map_of_mem (f := Prod.fst) hm)
      simp [this, eq_comm]
    · simp [h, get?_eq_some]

@[simp] theorem get?_set_self (m : JsMap κ ν) (k : κ) (v : ν) :
    (m.set k v).get? k = some v := by simp [get?_set]

theorem get?_set_ne (m : JsMap κ ν) {k k' : κ} (v : ν) (h : k' ≠ k) :
    (m.set k v).get? k' = m.get? k' := by simp [get?_set, h]

/-- Setting what is there. -/
theorem set_of_get? {m : JsMap κ ν} {k : κ} {v : ν} (h : m.get? k = some v) : m.set k v = m := by
  have hk : k ∈ m.keys := List.mem_map_of_mem (f := Prod.fst) (get?_eq_some.mp h)
  have hentries : replace m.entries k v = m.entries := by
    refine (List.map_congr_left fun e he => ?_).trans (List.map_id m.entries)
    by_cases hkey : e.1 = k
    · have hv : m.get? e.1 = some e.2 := get?_eq_some.mpr he
      rw [hkey, h] at hv
      rw [if_pos hkey]
      exact Prod.ext hkey.symm (Option.some.inj hv)
    · rw [if_neg hkey, id]
  unfold set
  rw [dif_pos hk]
  cases m
  congr

/-- Maps with the same values have the same entries. -/
theorem perm_of_get?_eq {m m' : JsMap κ ν} (h : ∀ k, m.get? k = m'.get? k) :
    m.entries.Perm m'.entries := by
  refine (List.perm_ext_iff_of_nodup m.nodup.of_map m'.nodup.of_map).mpr fun e => ?_
  rw [show e = (e.1, e.2) from rfl, ← get?_eq_some, ← get?_eq_some, h]

theorem get?_eq_of_perm {m m' : JsMap κ ν} (h : m.entries.Perm m'.entries) (k : κ) :
    m.get? k = m'.get? k := by
  refine Option.ext fun v => ?_
  rw [get?_eq_some, get?_eq_some, h.mem_iff]

/-- The same keys with other values. -/
def mapValues (m : JsMap κ ν) (f : κ → ν → ν) : JsMap κ ν where
  entries := m.entries.map fun e => (e.1, f e.1 e.2)
  nodup := by
    have h := m.nodup
    simpa [Function.comp_def] using h

theorem get?_mapValues (m : JsMap κ ν) (f : κ → ν → ν) (k : κ) :
    (m.mapValues f).get? k = (m.get? k).map (f k) := by
  refine Option.ext fun v => ?_
  rw [get?_eq_some, Option.map_eq_some_iff]
  simp only [mapValues, List.mem_map, Prod.mk.injEq, Prod.exists, get?_eq_some]
  constructor
  · rintro ⟨k', w, hm, rfl, rfl⟩
    exact ⟨w, hm, rfl⟩
  · rintro ⟨w, hm, rfl⟩
    exact ⟨k, w, hm, rfl, rfl⟩

/-! ## Size -/

theorem size_delete_le (m : JsMap κ ν) (k : κ) : (m.delete k).size ≤ m.size :=
  m.size_filter_le _

theorem size_set_of_none {m : JsMap κ ν} {k : κ} (h : m.get? k = none) (v : ν) :
    (m.set k v).size = m.size + 1 := by
  rw [get?_eq_none] at h
  simp [set, h, size]

theorem size_set_of_some {m : JsMap κ ν} {k : κ} {w : ν} (h : m.get? k = some w) (v : ν) :
    (m.set k v).size = m.size := by
  have hk : k ∈ m.keys := by
    rw [get?_eq_some] at h
    exact List.mem_map_of_mem (f := Prod.fst) h
  simp [set, hk, size, replace]

theorem size_set_le (m : JsMap κ ν) (k : κ) (v : ν) : (m.set k v).size ≤ m.size + 1 := by
  cases h : m.get? k with
  | none => exact Nat.le_of_eq (size_set_of_none h v)
  | some w => rw [size_set_of_some h]; omega

theorem size_delete_lt {m : JsMap κ ν} {k : κ} {v : ν} (h : m.get? k = some v) :
    (m.delete k).size < m.size := by
  unfold size delete filter
  rw [List.length_filter_lt_length_iff_exists]
  exact ⟨(k, v), get?_eq_some.mp h, by simp⟩

/-! ## Counting -/

theorem count_set_of_none {m : JsMap κ ν} {k : κ} (h : m.get? k = none) (v : ν)
    (p : κ → ν → Bool) : (m.set k v).count p = m.count p + (if p k v then 1 else 0) := by
  rw [get?_eq_none] at h
  simp [set, h, count, List.countP_append, List.countP_cons]

theorem countP_replace {l : List (κ × ν)} (hn : (l.map Prod.fst).Nodup) {k : κ} {w : ν}
    (h : (k, w) ∈ l) (v : ν) (p : κ × ν → Bool) :
    (replace l k v).countP p + (if p (k, w) then 1 else 0) =
      l.countP p + (if p (k, v) then 1 else 0) := by
  induction l with
  | nil => cases h
  | cons e l ih =>
    simp only [List.map_cons, List.nodup_cons] at hn
    rcases List.mem_cons.mp h with rfl | h
    · -- the keys are distinct, so the rest of the list is not replaced
      have hrest : replace l k v = l := by
        refine (List.map_congr_left fun e he => ?_).trans (List.map_id l)
        have hne : e.1 ≠ k := fun hk => hn.1 (List.mem_map.mpr ⟨e, he, hk⟩)
        simp [hne]
      have hcons : replace ((k, w) :: l) k v = (k, v) :: replace l k v := by simp [replace]
      rw [hcons, hrest, List.countP_cons, List.countP_cons]
      omega
    · have hne : e.1 ≠ k := fun hk => hn.1 (hk ▸ List.mem_map_of_mem (f := Prod.fst) h)
      have hcons : replace (e :: l) k v = e :: replace l k v := by simp [replace, hne]
      have := ih hn.2 h
      rw [hcons, List.countP_cons, List.countP_cons]
      omega

theorem count_set_of_some {m : JsMap κ ν} {k : κ} {w : ν} (h : m.get? k = some w) (v : ν)
    (p : κ → ν → Bool) : (m.set k v).count p + (if p k w then 1 else 0) =
      m.count p + (if p k v then 1 else 0) := by
  rw [get?_eq_some] at h
  have hk : k ∈ m.keys := List.mem_map_of_mem (f := Prod.fst) h
  simp only [set, hk, dif_pos, count]
  exact countP_replace m.nodup h v fun e => p e.1 e.2

/-! ## Keys in order -/

theorem mem_keys {m : JsMap κ ν} {k : κ} : k ∈ m.keys ↔ ∃ v, m.get? k = some v := by
  rw [← Option.isSome_iff_exists, Option.isSome_iff_ne_none, ne_eq, get?_eq_none, not_not]

theorem entries_set_of_none {m : JsMap κ ν} {k : κ} (h : m.get? k = none) (v : ν) :
    (m.set k v).entries = m.entries ++ [(k, v)] := by
  rw [get?_eq_none] at h
  unfold set
  rw [dif_neg h]

theorem keys_set_of_none {m : JsMap κ ν} {k : κ} (h : m.get? k = none) (v : ν) :
    (m.set k v).keys = m.keys ++ [k] := by
  rw [keys, entries_set_of_none h, List.map_append]
  rfl

theorem keys_set_of_some {m : JsMap κ ν} {k : κ} {w : ν} (h : m.get? k = some w) (v : ν) :
    (m.set k v).keys = m.keys := by
  unfold set
  rw [dif_pos (mem_keys.mpr ⟨w, h⟩)]
  exact map_fst_replace m.entries k v

theorem mem_keys_set {m : JsMap κ ν} {k k' : κ} {v : ν} :
    k' ∈ (m.set k v).keys ↔ k' = k ∨ k' ∈ m.keys := by
  rw [mem_keys, mem_keys, get?_set]
  by_cases h : k' = k <;> simp [h]

/-! ## From a list -/

/-- `new Map(list.map((a) => [key(a), a]))`. -/
def ofList {α : Type v} (key : α → κ) (l : List α) : JsMap κ α :=
  l.foldl (fun m a => m.set (key a) a) .empty

theorem mem_keys_foldl_set {α : Type v} (key : α → κ) (k : κ) : ∀ (l : List α) (m : JsMap κ α),
    k ∈ (l.foldl (fun m a => m.set (key a) a) m).keys ↔ k ∈ m.keys ∨ k ∈ l.map key
  | [], m => by simp
  | a :: l, m => by
    rw [List.foldl_cons, mem_keys_foldl_set key k l, mem_keys_set, List.map_cons, List.mem_cons]
    tauto

theorem mem_keys_ofList {α : Type v} {key : α → κ} {l : List α} {k : κ} :
    k ∈ (ofList key l).keys ↔ k ∈ l.map key := by
  unfold ofList
  rw [mem_keys_foldl_set]
  simp [keys, empty]

theorem get?_foldl_set_of_nodup {α : Type v} {key : α → κ} {k : κ} {a : α} :
    ∀ {l : List α} {m : JsMap κ α}, (l.map key).Nodup → (∀ b ∈ l, key b ∉ m.keys) →
      ((l.foldl (fun m a => m.set (key a) a) m).get? k = some a ↔
        m.get? k = some a ∨ a ∈ l ∧ key a = k)
  | [], m, _, _ => by simp
  | b :: l, m, hn, hm => by
    rw [List.map_cons, List.nodup_cons] at hn
    have hfresh : ∀ c ∈ l, key c ∉ (m.set (key b) b).keys := by
      intro c hc hin
      rcases mem_keys_set.mp hin with h | h
      · exact hn.1 (h ▸ List.mem_map_of_mem hc)
      · exact hm c (List.mem_cons_of_mem b hc) h
    rw [List.foldl_cons, get?_foldl_set_of_nodup hn.2 hfresh, get?_set, List.mem_cons]
    by_cases hk : k = key b
    · have hnone : m.get? k = none := get?_eq_none.mpr (hk ▸ hm b List.mem_cons_self)
      rw [if_pos hk, hnone]
      constructor
      · rintro (h | h)
        · cases h
          exact .inr ⟨.inl rfl, hk.symm⟩
        · exact .inr ⟨.inr h.1, h.2⟩
      · rintro (h | ⟨rfl | h, hka⟩)
        · cases h
        · exact .inl rfl
        · exact .inr ⟨h, hka⟩
    · rw [if_neg hk]
      refine or_congr_right ⟨fun h => ⟨.inr h.1, h.2⟩, fun h => ⟨h.1.resolve_left ?_, h.2⟩⟩
      rintro rfl
      exact hk h.2.symm

/-- Where the keys tell the elements apart, each is found under its own. -/
theorem get?_ofList {α : Type v} {key : α → κ} {l : List α} (hn : (l.map key).Nodup) {k : κ}
    {a : α} : (ofList key l).get? k = some a ↔ a ∈ l ∧ key a = k := by
  unfold ofList
  rw [get?_foldl_set_of_nodup hn (by simp [keys, empty])]
  simp

/-! ## Sums -/

/-- The sum of `f` over the entries. -/
def sum (m : JsMap κ ν) (f : κ → ν → Int) : Int := (m.entries.map fun e => f e.1 e.2).sum

theorem sum_set_of_none {m : JsMap κ ν} {k : κ} (h : m.get? k = none) (v : ν)
    (f : κ → ν → Int) : (m.set k v).sum f = m.sum f + f k v := by
  simp [sum, entries_set_of_none h]

theorem sum_replace {l : List (κ × ν)} (hn : (l.map Prod.fst).Nodup) {k : κ} {w : ν}
    (h : (k, w) ∈ l) (v : ν) (f : κ → ν → Int) :
    ((replace l k v).map fun e => f e.1 e.2).sum =
      (l.map fun e => f e.1 e.2).sum - f k w + f k v := by
  induction l with
  | nil => cases h
  | cons e l ih =>
    simp only [List.map_cons, List.nodup_cons] at hn
    rcases List.mem_cons.mp h with rfl | h
    · have hrest : replace l k v = l := by
        refine (List.map_congr_left fun e he => ?_).trans (List.map_id l)
        have hne : e.1 ≠ k := fun hk => hn.1 (List.mem_map.mpr ⟨e, he, hk⟩)
        simp [hne]
      have hcons : replace ((k, w) :: l) k v = (k, v) :: replace l k v := by simp [replace]
      rw [hcons, hrest, List.map_cons, List.sum_cons, List.map_cons, List.sum_cons]
      dsimp only
      omega
    · have hne : e.1 ≠ k := fun hk => hn.1 (hk ▸ List.mem_map_of_mem (f := Prod.fst) h)
      have hcons : replace (e :: l) k v = e :: replace l k v := by simp [replace, hne]
      have := ih hn.2 h
      rw [hcons, List.map_cons, List.sum_cons, List.map_cons, List.sum_cons]
      omega

theorem sum_set_of_some {m : JsMap κ ν} {k : κ} {w : ν} (h : m.get? k = some w) (v : ν)
    (f : κ → ν → Int) : (m.set k v).sum f = m.sum f - f k w + f k v := by
  rw [get?_eq_some] at h
  have hk : k ∈ m.keys := List.mem_map_of_mem (f := Prod.fst) h
  simp only [set, hk, dif_pos, sum]
  exact sum_replace m.nodup h v f

omit [DecidableEq κ] in
/-- Entries of weight zero do not count. -/
theorem sum_filter (m : JsMap κ ν) (p : κ → ν → Bool) (f : κ → ν → Int)
    (h : ∀ k v, p k v = false → f k v = 0) : (m.filter p).sum f = m.sum f := by
  unfold sum filter
  dsimp only
  induction m.entries with
  | nil => rfl
  | cons e l ih =>
    rw [List.filter_cons]
    split
    · rw [List.map_cons, List.map_cons, List.sum_cons, List.sum_cons, ih]
    · rename_i hp
      rw [List.map_cons, List.sum_cons, h e.1 e.2 (by simpa using hp), ih]
      omega

theorem sum_delete {m : JsMap κ ν} {k : κ} {w : ν} (h : m.get? k = some w) (f : κ → ν → Int) :
    (m.delete k).sum f = m.sum f - f k w := by
  rw [get?_eq_some] at h
  have hn := m.nodup
  unfold sum delete filter
  dsimp only
  revert h hn
  induction m.entries with
  | nil => intro h; cases h
  | cons e l ih =>
    intro h hn
    simp only [List.map_cons, List.nodup_cons] at hn
    rcases List.mem_cons.mp h with rfl | h
    · -- the keys are distinct, so nothing else is deleted
      have hrest : l.filter (fun e => decide (e.1 ≠ k)) = l := by
        refine List.filter_eq_self.mpr fun e he => ?_
        exact decide_eq_true fun hk => hn.1 (List.mem_map.mpr ⟨e, he, hk⟩)
      rw [List.filter_cons, if_neg (by simp), hrest, List.map_cons, List.sum_cons]
      dsimp only
      omega
    · have hne : e.1 ≠ k := fun hk => hn.1 (hk ▸ List.mem_map_of_mem (f := Prod.fst) h)
      have := ih h hn.2
      rw [List.filter_cons, if_pos (by simpa using hne), List.map_cons, List.sum_cons,
        List.map_cons, List.sum_cons]
      omega

theorem sum_eq_zero {m : JsMap κ ν} {f : κ → ν → Int}
    (h : ∀ k v, m.get? k = some v → f k v = 0) : m.sum f = 0 := by
  have hzero : m.entries.map (fun e => f e.1 e.2) = m.entries.map fun _ => 0 :=
    List.map_congr_left fun e he => h e.1 e.2 (get?_eq_some.mpr he)
  rw [sum, hzero]
  simp

/-! ## Lists and sets as values -/

section Filed

variable {α : Type v}

/-- `v` is among the values filed under `k`. -/
def Filed (m : JsMap κ (List α)) (k : κ) (v : α) : Prop := ∃ l, m.get? k = some l ∧ v ∈ l

theorem not_filed_empty (k : κ) (v : α) : ¬ (empty : JsMap κ (List α)).Filed k v := by
  intro ⟨l, hl, _⟩
  cases hl

theorem filed_iff_getD {m : JsMap κ (List α)} {k : κ} {v : α} :
    m.Filed k v ↔ v ∈ (m.get? k).getD [] := by
  unfold Filed
  cases m.get? k <;> simp

/-- `const values = m.get(k) ?? []; values.push(v); m.set(k, values)`. -/
def push (m : JsMap κ (List α)) (k : κ) (v : α) : JsMap κ (List α) :=
  m.set k ((m.get? k).getD [] ++ [v])

theorem filed_push {m : JsMap κ (List α)} {k k' : κ} {v v' : α} :
    (m.push k v).Filed k' v' ↔ m.Filed k' v' ∨ k' = k ∧ v' = v := by
  rw [filed_iff_getD, filed_iff_getD, push, get?_set]
  by_cases h : k' = k
  · subst h; simp
  · simp [h]

/-- Every value is a set. -/
def Sets (m : JsMap κ (List α)) : Prop := ∀ k l, m.get? k = some l → l.Nodup

theorem Sets.empty : (empty : JsMap κ (List α)).Sets := by
  intro k l h
  cases h

theorem Sets.set {m : JsMap κ (List α)} (h : m.Sets) (k : κ) {l : List α} (hl : l.Nodup) :
    (m.set k l).Sets := by
  intro k' l' h'
  rw [get?_set] at h'
  split at h'
  · cases h'; exact hl
  · exact h k' l' h'

theorem Sets.getD {m : JsMap κ (List α)} (h : m.Sets) (k : κ) : ((m.get? k).getD []).Nodup := by
  cases hk : m.get? k with
  | none => exact List.nodup_nil
  | some l => exact h k l hk

variable [DecidableEq α]

/-- `set.add(v)` on a set kept in insertion order. -/
def addSet (l : List α) (v : α) : List α := if v ∈ l then l else l ++ [v]

theorem mem_addSet {l : List α} {v w : α} : w ∈ addSet l v ↔ w ∈ l ∨ w = v := by
  unfold addSet
  split
  · rename_i h
    exact ⟨.inl, fun hw => hw.elim id fun he => he ▸ h⟩
  · simp

theorem nodup_addSet {l : List α} (h : l.Nodup) (v : α) : (addSet l v).Nodup := by
  unfold addSet
  split
  · exact h
  · rename_i hv
    rw [List.nodup_append']
    exact ⟨h, List.nodup_singleton v, List.disjoint_singleton.mpr hv⟩

/-- `const values = m.get(k) ?? new Set(); values.add(v); m.set(k, values)`. -/
def addNew (m : JsMap κ (List α)) (k : κ) (v : α) : JsMap κ (List α) :=
  m.set k (addSet ((m.get? k).getD []) v)

theorem filed_addNew {m : JsMap κ (List α)} {k k' : κ} {v v' : α} :
    (m.addNew k v).Filed k' v' ↔ m.Filed k' v' ∨ k' = k ∧ v' = v := by
  rw [filed_iff_getD, filed_iff_getD, addNew, get?_set]
  by_cases h : k' = k
  · subst h; simp [mem_addSet]
  · simp [h]

theorem Sets.addNew {m : JsMap κ (List α)} (h : m.Sets) (k : κ) (v : α) : (m.addNew k v).Sets :=
  h.set k (nodup_addSet (h.getD k) v)

/-- `m.get(k)?.add(v)`. -/
def addTo (m : JsMap κ (List α)) (k : κ) (v : α) : JsMap κ (List α) :=
  match m.get? k with
  | none => m
  | some l => m.set k (addSet l v)

theorem keys_addTo (m : JsMap κ (List α)) (k : κ) (v : α) : (m.addTo k v).keys = m.keys := by
  unfold addTo
  split
  · rfl
  · rename_i h; exact keys_set_of_some h _

theorem filed_addTo {m : JsMap κ (List α)} {k k' : κ} {v v' : α} :
    (m.addTo k v).Filed k' v' ↔ m.Filed k' v' ∨ k' = k ∧ v' = v ∧ k ∈ m.keys := by
  unfold addTo
  split
  · rename_i hk
    rw [get?_eq_none] at hk
    simp [hk]
  · rename_i l hl
    have hk : k ∈ m.keys := mem_keys.mpr ⟨l, hl⟩
    rw [filed_iff_getD, filed_iff_getD, get?_set]
    by_cases h : k' = k
    · subst h; simp [hl, hk, mem_addSet]
    · simp [h]

theorem Sets.addTo {m : JsMap κ (List α)} (h : m.Sets) (k : κ) (v : α) : (m.addTo k v).Sets := by
  unfold JsMap.addTo
  split
  · exact h
  · rename_i l hl
    exact h.set k (nodup_addSet (h k l hl) v)

end Filed

end JsMap

end KNex.Core
