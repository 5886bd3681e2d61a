import Mathlib

/-!
# Labelled transition systems

The stores, caches and coordinators of the platform are modelled as a state type, a label
type (one label per transaction, or per piece of an asynchronous function between two
`await`s) and a step relation. This module holds the part that does not depend on the
component: runs, reachability, inductive invariants, and the comparison of two conditions
on the steps of a run (`guard_run_iff`), which is how "the component is right exactly in
the runs whose steps meet this condition" is stated.
-/
namespace KNex.Core

universe u v

structure LTS (σ : Type u) (lab : Type v) where
  init : σ → Prop
  step : σ → lab → σ → Prop

namespace LTS

variable {σ : Type u} {lab : Type v}

/-- The system of a partial step function: `none` means that the label is not enabled. -/
def ofFn (i : σ → Prop) (f : σ → lab → Option σ) : LTS σ lab where
  init := i
  step s l s' := f s l = some s'

@[simp] theorem ofFn_init (i : σ → Prop) (f : σ → lab → Option σ) : (ofFn i f).init = i := rfl

@[simp] theorem ofFn_step (i : σ → Prop) (f : σ → lab → Option σ) (s : σ) (l : lab) (s' : σ) :
    (ofFn i f).step s l s' ↔ f s l = some s' := Iff.rfl

/-- A finite run, with the labels it takes. -/
inductive Run (L : LTS σ lab) : σ → List lab → σ → Prop
  | nil (s : σ) : Run L s [] s
  | cons {s s₁ s' : σ} {l : lab} {ls : List lab} (h : L.step s l s₁) (hr : Run L s₁ ls s') :
      Run L s (l :: ls) s'

def Reachable (L : LTS σ lab) (s' : σ) : Prop := ∃ s ls, L.init s ∧ L.Run s ls s'

theorem Run.append {L : LTS σ lab} {s s₁ s' : σ} {ls ls' : List lab} (h : L.Run s ls s₁)
    (h' : L.Run s₁ ls' s') : L.Run s (ls ++ ls') s' := by
  induction h with
  | nil => exact h'
  | cons hs _ ih => exact .cons hs (ih h')

theorem Reachable.init {L : LTS σ lab} {s : σ} (h : L.init s) : L.Reachable s :=
  ⟨s, [], h, .nil s⟩

theorem Reachable.run {L : LTS σ lab} {s s' : σ} {ls : List lab} (h : L.Reachable s)
    (hr : L.Run s ls s') : L.Reachable s' := by
  obtain ⟨s₀, ls₀, h₀, hr₀⟩ := h
  exact ⟨s₀, ls₀ ++ ls, h₀, hr₀.append hr⟩

theorem Reachable.step {L : LTS σ lab} {s s' : σ} {l : lab} (h : L.Reachable s)
    (hs : L.step s l s') : L.Reachable s' :=
  h.run (.cons hs (.nil s'))

/-! ## Invariants -/

/-- An invariant: it holds initially and every step keeps it. -/
structure Inductive (L : LTS σ lab) (I : σ → Prop) : Prop where
  init : ∀ s, L.init s → I s
  step : ∀ s l s', I s → L.step s l s' → I s'

theorem Run.preserves {L : LTS σ lab} {I : σ → Prop}
    (hstep : ∀ s l s', I s → L.step s l s' → I s') {s s' : σ} {ls : List lab}
    (hr : L.Run s ls s') (h : I s) : I s' := by
  induction hr with
  | nil => exact h
  | cons hs _ ih => exact ih (hstep _ _ _ h hs)

theorem Inductive.run {L : LTS σ lab} {I : σ → Prop} (hI : L.Inductive I) {s s' : σ}
    {ls : List lab} (hr : L.Run s ls s') (h : I s) : I s' :=
  hr.preserves hI.step h

theorem Inductive.reachable {L : LTS σ lab} {I : σ → Prop} (hI : L.Inductive I) (s : σ)
    (h : L.Reachable s) : I s := by
  obtain ⟨s₀, ls, h₀, hr⟩ := h
  exact hI.run hr (hI.init s₀ h₀)

/-- What every step relates is related along a whole run: `R` is a preorder (a counter that
only grows, an object that is never changed again), `I` an invariant its step lemma may use. -/
theorem Inductive.run_rel {L : LTS σ lab} {I : σ → Prop} (hI : L.Inductive I)
    {R : σ → σ → Prop} (hrefl : ∀ s, R s s) (htrans : ∀ a b c, R a b → R b c → R a c)
    (hstep : ∀ s l s', I s → L.step s l s' → R s s') {s s' : σ} {ls : List lab}
    (hr : L.Run s ls s') (h : I s) : R s s' := by
  induction hr with
  | nil => exact hrefl _
  | cons hs _ ih => exact htrans _ _ _ (hstep _ _ _ h hs) (ih (hI.step _ _ _ h hs))

/-! ## Conditions on the steps of a run -/

/-- The runs of `L` each of whose steps satisfies `G`. -/
def guard (L : LTS σ lab) (G : σ → lab → σ → Prop) : LTS σ lab where
  init := L.init
  step s l s' := L.step s l s' ∧ G s l s'

theorem guard_run {L : LTS σ lab} {G : σ → lab → σ → Prop} {s s' : σ} {ls : List lab}
    (h : (L.guard G).Run s ls s') : L.Run s ls s' := by
  induction h with
  | nil => exact .nil _
  | cons hs _ ih => exact .cons hs.1 ih

/-- Two conditions that agree on every step from a state with the invariant, which the steps
meeting the second one keep, select the same runs. -/
theorem guard_run_iff {L : LTS σ lab} {I : σ → Prop} {G C : σ → lab → σ → Prop}
    (hpres : ∀ s l s', I s → L.step s l s' → C s l s' → I s')
    (hiff : ∀ s l s', I s → L.step s l s' → (G s l s' ↔ C s l s')) {s s' : σ} {ls : List lab}
    (h : I s) : (L.guard G).Run s ls s' ↔ (L.guard C).Run s ls s' := by
  constructor
  · intro hr
    induction hr with
    | nil => exact .nil _
    | cons hs _ ih =>
      have hc := (hiff _ _ _ h hs.1).mp hs.2
      exact .cons ⟨hs.1, hc⟩ (ih (hpres _ _ _ h hs.1 hc))
  · intro hr
    induction hr with
    | nil => exact .nil _
    | cons hs _ ih =>
      exact .cons ⟨hs.1, (hiff _ _ _ h hs.1).mpr hs.2⟩ (ih (hpres _ _ _ h hs.1 hs.2))

/-! ## Concrete runs of a step function -/

/-- The state after the labels, when each of them is enabled. -/
def exec (f : σ → lab → Option σ) : σ → List lab → Option σ
  | s, [] => some s
  | s, l :: ls => (f s l).bind fun s' => exec f s' ls

theorem run_of_exec {i : σ → Prop} {f : σ → lab → Option σ} :
    ∀ {s : σ} {ls : List lab} {s' : σ}, exec f s ls = some s' → (ofFn i f).Run s ls s'
  | s, [], s', h => by
    simp only [exec, Option.some.injEq] at h; subst h; exact .nil _
  | s, l :: ls, s', h => by
    simp only [exec, Option.bind_eq_some_iff] at h
    obtain ⟨s₁, h₁, h₂⟩ := h
    exact .cons h₁ (run_of_exec h₂)

theorem exec_of_run {i : σ → Prop} {f : σ → lab → Option σ} {s s' : σ} {ls : List lab}
    (h : (ofFn i f).Run s ls s') : exec f s ls = some s' := by
  induction h with
  | nil => rfl
  | cons hs _ ih => simp only [exec, Option.bind_eq_some_iff]; exact ⟨_, hs, ih⟩

end LTS

end KNex.Core
