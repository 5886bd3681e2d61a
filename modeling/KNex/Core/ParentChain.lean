import KNex.Core.Digraph
import Mathlib.Data.List.Perm.Subperm

/-!
# Chains of parents

Elements each with at most one parent, of which only those in a finite list have one. A loop that
goes from parent to parent ends in fewer rounds than the list has elements, unless the chain returns
to where it was; a loop that keeps what it has seen ends always, and says whether the chain returns
(`climb_terminates`, `climb_top_iff`). Without cycles the loop that collects the ancestors collects
all of them (`ancestors_isSome`, `mem_ancestors`), and the recursion that asks each ancestor asks all
of them (`allAbove_eq_true`).
-/
namespace KNex.Core.ParentChain

open Relation Digraph

universe u

variable {κ : Type u}

/-- `b` is the parent of `a`. -/
def Up (parent : κ → Option κ) (a b : κ) : Prop := parent a = some b

variable {parent : κ → Option κ}

theorem Up.unique {a b c : κ} (h : Up parent a b) (h' : Up parent a c) : b = c :=
  Option.some.inj (h.symm.trans h')

/-- The ancestors, from the parent up; `none` when there are more than `n`. -/
def ancestors (parent : κ → Option κ) : Nat → κ → Option (List κ)
  | 0, _ => none
  | n + 1, a =>
    match parent a with
    | none => some []
    | some p => (ancestors parent n p).map (p :: ·)

theorem ancestors_eq_some {n : Nat} {a : κ} {l : List κ} :
    ancestors parent (n + 1) a = some l ↔ (parent a = none ∧ l = []) ∨
      ∃ p l', parent a = some p ∧ ancestors parent n p = some l' ∧ l = p :: l' := by
  rw [ancestors]
  cases hp : parent a with
  | none => simp [eq_comm]
  | some p =>
    dsimp only
    rw [Option.map_eq_some_iff]
    constructor
    · rintro ⟨l', hl', rfl⟩
      exact .inr ⟨p, l', rfl, hl', rfl⟩
    · rintro (⟨h, -⟩ | ⟨q, l', hq, hl', rfl⟩)
      · cases h
      · cases hq
        exact ⟨l', hl', rfl⟩

theorem transGen_up {a b : κ} :
    TransGen (Up parent) a b ↔ ∃ p, parent a = some p ∧ (b = p ∨ TransGen (Up parent) p b) := by
  rw [TransGen.head'_iff]
  exact exists_congr fun p => and_congr_right fun _ => reflTransGen_iff_eq_or_transGen

theorem mem_ancestors {b : κ} : ∀ {n : Nat} {a : κ} {l : List κ}, ancestors parent n a = some l →
    (b ∈ l ↔ TransGen (Up parent) a b)
  | 0, _, _, h => by cases h
  | n + 1, a, l, h => by
    rw [transGen_up]
    rcases ancestors_eq_some.mp h with ⟨hp, rfl⟩ | ⟨p, l', hp, hl', rfl⟩
    · simp [hp]
    · rw [List.mem_cons, mem_ancestors hl', hp]
      simp

/-- A chain that ends does not return. -/
theorem not_cyclic : ∀ {n : Nat} {a : κ} {l : List κ}, ancestors parent n a = some l →
    ¬ TransGen (Up parent) a a
  | 0, _, _, h => by cases h
  | n + 1, a, l, h => by
    intro hcycle
    obtain ⟨p, hp, hrest⟩ := TransGen.head'_iff.mp hcycle
    rcases ancestors_eq_some.mp h with ⟨hnone, -⟩ | ⟨q, l', hq, hl', -⟩
    · cases hnone.symm.trans hp
    · cases Up.unique hp hq
      exact not_cyclic hl' (TransGen.tail' hrest hp)

theorem ancestors_mono : ∀ {n m : Nat} {a : κ} {l : List κ}, n ≤ m →
    ancestors parent n a = some l → ancestors parent m a = some l
  | 0, _, _, _, _, h => by cases h
  | n + 1, 0, _, _, hle, _ => by omega
  | n + 1, m + 1, a, l, hle, h => by
    rw [ancestors_eq_some] at h ⊢
    rcases h with h | ⟨p, l', hp, hl', rfl⟩
    · exact .inl h
    · exact .inr ⟨p, l', hp, ancestors_mono (by omega) hl', rfl⟩

section Finite

variable {keys : List κ}

/-- Without cycles, as many rounds are enough as there are elements with a parent. -/
theorem ancestors_isSome (hkeys : ∀ a p, Up parent a p → a ∈ keys) (hacyclic : Acyclic (Up parent)) :
    ∀ {n : Nat} {a : κ}, keys.length < n → ∃ l, ancestors parent n a = some l := by
  suffices H : ∀ (n : Nat) (visited : List κ) (a : κ), visited.Nodup → visited ⊆ keys →
      (∀ v ∈ visited, TransGen (Up parent) v a) → keys.length < visited.length + n →
      ∃ l, ancestors parent n a = some l from fun {n a} hn =>
    H n [] a List.nodup_nil (List.nil_subset _) (fun _ h => absurd h List.not_mem_nil) (by simpa using hn)
  intro n
  induction n with
  | zero =>
    intro visited a hnodup hsub _ hlen
    have hle := (List.subperm_of_subset hnodup hsub).length_le
    omega
  | succ n ih =>
    intro visited a hnodup hsub habove hlen
    cases hp : parent a with
    | none => exact ⟨[], ancestors_eq_some.mpr (.inl ⟨hp, rfl⟩)⟩
    | some p =>
      have hnew : a ∉ visited := fun hmem => hacyclic a (habove a hmem)
      obtain ⟨l, hl⟩ := ih (a :: visited) p (List.nodup_cons.mpr ⟨hnew, hnodup⟩)
        (List.cons_subset.mpr ⟨hkeys a p hp, hsub⟩)
        (List.forall_mem_cons.mpr ⟨TransGen.single hp, fun v hv => (habove v hv).tail hp⟩)
        (by rw [List.length_cons]; omega)
      exact ⟨p :: l, ancestors_eq_some.mpr (.inr ⟨p, l, hp, hl, rfl⟩)⟩

end Finite

/-! ## The recursion over the ancestors -/

/-- Whether an element and each of its ancestors pass; `none` when the rounds are used up. -/
def allAbove (parent : κ → Option κ) (passes : κ → Bool) : Nat → κ → Option Bool
  | 0, _ => none
  | n + 1, a =>
    if passes a then
      match parent a with
      | none => some true
      | some p => allAbove parent passes n p
    else some false

theorem allAbove_of_ancestors {passes : κ → Bool} : ∀ {n : Nat} {a : κ} {l : List κ},
    ancestors parent n a = some l → allAbove parent passes n a = some ((a :: l).all passes)
  | 0, _, _, h => by cases h
  | n + 1, a, l, h => by
    rw [allAbove]
    split
    · rename_i hpass
      rcases ancestors_eq_some.mp h with ⟨hp, rfl⟩ | ⟨p, l', hp, hl', rfl⟩
      · simp [hp, hpass]
      · rw [hp]
        dsimp only
        rw [allAbove_of_ancestors hl', List.all_cons (a := a), hpass, Bool.true_and]
    · rename_i hpass
      simp [hpass]

/-- Where the chains end, the recursion asks every ancestor. -/
theorem allAbove_eq (passes : κ → Bool) {n : Nat} {a : κ} {l : List κ}
    (h : ancestors parent n a = some l) :
    ∃ b, allAbove parent passes n a = some b ∧
      (b = true ↔ ∀ c, ReflTransGen (Up parent) a c → passes c = true) := by
  refine ⟨_, allAbove_of_ancestors h, ?_⟩
  rw [List.all_eq_true, List.forall_mem_cons]
  constructor
  · rintro ⟨hself, habove⟩ c hc
    rcases reflTransGen_iff_eq_or_transGen.mp hc with rfl | hc
    · exact hself
    · exact habove c ((mem_ancestors h).mpr hc)
  · intro hall
    exact ⟨hall a ReflTransGen.refl, fun c hc => hall c ((mem_ancestors h).mp hc).to_reflTransGen⟩

/-! ## The loop that keeps what it has seen -/

variable [DecidableEq κ]

/-- `while (parentId !== undefined)`, from the parent: whether the top was reached rather than an
element that was seen; `none` when the rounds are used up. -/
def climb (parent : κ → Option κ) : Nat → List κ → Option κ → Option Bool
  | _, _, none => some true
  | 0, _, some _ => none
  | n + 1, visited, some p =>
    if p ∈ visited then some false else climb parent n (p :: visited) (parent p)

theorem climb_terminates {keys : List κ} (hkeys : ∀ a p, Up parent a p → a ∈ keys) {n : Nat} {a : κ}
    (hn : keys.length < n) : ∃ top, climb parent n [a] (parent a) = some top := by
  suffices H : ∀ (n : Nat) (c : κ) (rest : List κ), (c :: rest).Nodup → rest ⊆ keys →
      keys.length < rest.length + n → ∃ top, climb parent n (c :: rest) (parent c) = some top from
    H n a [] (List.nodup_singleton a) (List.nil_subset _) (by simpa using hn)
  intro n
  induction n with
  | zero =>
    intro c rest hnodup hsub hlen
    have hle := (List.subperm_of_subset (List.nodup_cons.mp hnodup).2 hsub).length_le
    omega
  | succ n ih =>
    intro c rest hnodup hsub hlen
    cases hp : parent c with
    | none => exact ⟨true, rfl⟩
    | some p =>
      rw [climb]
      split
      · exact ⟨false, rfl⟩
      · rename_i hnew
        exact ih p (c :: rest) (List.nodup_cons.mpr ⟨hnew, hnodup⟩)
          (List.cons_subset.mpr ⟨hkeys c p hp, hsub⟩) (by rw [List.length_cons]; omega)

/-- The chain ends where the loop reaches the top. -/
theorem ancestors_of_climb : ∀ {n : Nat} {visited : List κ} {c : κ},
    climb parent n visited (parent c) = some true → ∃ m l, ancestors parent m c = some l
  | n, visited, c, h => by
    cases hp : parent c with
    | none => exact ⟨1, [], ancestors_eq_some.mpr (.inl ⟨hp, rfl⟩)⟩
    | some p =>
      rw [hp] at h
      match n with
      | 0 => cases h
      | n + 1 =>
        rw [climb] at h
        split at h
        · cases h
        · obtain ⟨m, l, hl⟩ := ancestors_of_climb h
          exact ⟨m + 1, p :: l, ancestors_eq_some.mpr (.inr ⟨p, l, hp, hl, rfl⟩)⟩

/-- What was seen again is on a cycle. -/
theorem cycle_of_climb : ∀ {n : Nat} {visited : List κ} {c : κ},
    (∀ v ∈ visited, ReflTransGen (Up parent) v c) → climb parent n visited (parent c) = some false →
    ∃ b, TransGen (Up parent) b b
  | n, visited, c, habove, h => by
    cases hp : parent c with
    | none =>
      rw [hp] at h
      cases n <;> cases h
    | some p =>
      rw [hp] at h
      match n with
      | 0 => cases h
      | n + 1 =>
        rw [climb] at h
        split at h
        · rename_i hseen
          exact ⟨p, TransGen.tail' (habove p hseen) hp⟩
        · exact cycle_of_climb (List.forall_mem_cons.mpr
            ⟨ReflTransGen.refl, fun v hv => (habove v hv).tail hp⟩) h

/-- From every element that has a parent the loop reaches the top, exactly when there is no cycle. -/
theorem climb_top_iff {keys : List κ} (hkeys : ∀ a p, Up parent a p → a ∈ keys) {n : Nat}
    (hn : keys.length < n) :
    (∀ a ∈ keys, climb parent n [a] (parent a) = some true) ↔ Acyclic (Up parent) := by
  constructor
  · intro h a hcycle
    obtain ⟨p, hp, -⟩ := TransGen.head'_iff.mp hcycle
    obtain ⟨m, l, hl⟩ := ancestors_of_climb (h a (hkeys a p hp))
    exact not_cyclic hl hcycle
  · intro hacyclic a _
    obtain ⟨top, htop⟩ := climb_terminates hkeys hn (a := a)
    cases top with
    | true => exact htop
    | false =>
      obtain ⟨b, hb⟩ := cycle_of_climb (List.forall_mem_singleton.mpr ReflTransGen.refl) htop
      exact absurd hb (hacyclic b)

end KNex.Core.ParentChain
