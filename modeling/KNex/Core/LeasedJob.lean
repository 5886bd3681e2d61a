import KNex.Core.LTS
import Mathlib.Data.List.Induction

/-!
# Leased jobs

A job is claimed under a token, at most `max` times. The holder of the token may save a checkpoint,
deliver the job, or release it for another claim; after the last claim it may bury it, and so may
anyone (`sweep`). A claim takes the job over from a holder that stalls. Nothing here tells when a
claim may take over or a sweep may come; that is for the implementation.

`Runs max acts j`: the acts, in this order, lead from a fresh job to `j`. What follows about the
acts themselves is what an implementation gets from the refinement: each act of a holder was made
under the token of the last claim, no act comes after the last one, and the attempts are the claims.
-/
namespace KNex.Core.LeasedJob

variable {τ κ : Type} [DecidableEq τ] [DecidableEq κ]

inductive Act (τ κ : Type) where
  /-- `start` is the checkpoint that the attempt starts from. -/
  | claim (token : τ) (start : Option κ)
  | save (token : τ) (checkpoint : κ)
  | deliver (token : τ)
  | release (token : τ)
  | bury (token : τ)
  | sweep
  deriving DecidableEq

/-- The token under which a holder acts. -/
def Act.holder? : Act τ κ → Option τ
  | .save t _ | .deliver t | .release t | .bury t => some t
  | .claim _ _ | .sweep => none

def Act.isClaim : Act τ κ → Bool
  | .claim _ _ => true
  | _ => false

def Act.isDeliver : Act τ κ → Bool
  | .deliver _ => true
  | _ => false

inductive Fate where
  | delivered | dead
  deriving DecidableEq, Repr

structure Job (τ κ : Type) where
  holder : Option τ
  attempts : Nat
  checkpoint : Option κ
  fate : Option Fate
  deriving DecidableEq

def fresh : Job τ κ := ⟨none, 0, none, none⟩

def next (max : Nat) (j : Job τ κ) : Act τ κ → Option (Job τ κ)
  | .claim t start =>
    if j.fate = none ∧ j.attempts < max ∧ start = j.checkpoint
    then some { j with holder := some t, attempts := j.attempts + 1 } else none
  | .save t c => if j.holder = some t then some { j with checkpoint := some c } else none
  | .deliver t =>
    if j.holder = some t then some { j with holder := none, fate := some .delivered } else none
  | .release t => if j.holder = some t then some { j with holder := none } else none
  | .bury t =>
    if j.holder = some t ∧ j.attempts = max
    then some { j with holder := none, fate := some .dead } else none
  | .sweep =>
    if j.fate = none ∧ j.attempts = max
    then some { j with holder := none, fate := some .dead } else none

section Rules

variable {max : Nat} {j : Job τ κ} {t : τ}

theorem next_claim (hf : j.fate = none) (ha : j.attempts < max) :
    next max j (.claim t j.checkpoint) =
      some { j with holder := some t, attempts := j.attempts + 1 } :=
  if_pos ⟨hf, ha, rfl⟩

theorem next_save (h : j.holder = some t) (c : κ) :
    next max j (.save t c) = some { j with checkpoint := some c } :=
  if_pos h

theorem next_deliver (h : j.holder = some t) :
    next max j (.deliver t) = some { j with holder := none, fate := some .delivered } :=
  if_pos h

theorem next_release (h : j.holder = some t) :
    next max j (.release t) = some { j with holder := none } :=
  if_pos h

theorem next_bury (h : j.holder = some t) (ha : j.attempts = max) :
    next max j (.bury t) = some { j with holder := none, fate := some .dead } :=
  if_pos ⟨h, ha⟩

theorem next_sweep (hf : j.fate = none) (ha : j.attempts = max) :
    next max j .sweep = some { j with holder := none, fate := some .dead } :=
  if_pos ⟨hf, ha⟩

end Rules

/-! ## Histories -/

/-- The token of the claim that is in force after the acts. -/
def holder (acts : List (Act τ κ)) : Option τ :=
  acts.foldl (fun h a => match a with
    | .claim t _ => some t
    | .save _ _ => h
    | _ => none) none

def claims (acts : List (Act τ κ)) : Nat := acts.countP Act.isClaim

def lastSaved (acts : List (Act τ κ)) : Option κ :=
  acts.foldl (fun c a => match a with
    | .save _ c' => some c'
    | _ => c) none

/-- The tokens of the claims. -/
def tokens (acts : List (Act τ κ)) : List τ :=
  acts.filterMap fun a => match a with
    | .claim t _ => some t
    | _ => none

def Runs (max : Nat) (acts : List (Act τ κ)) (j : Job τ κ) : Prop :=
  acts.foldlM (next max) fresh = some j

variable {max : Nat} {acts : List (Act τ κ)} {j j' : Job τ κ}

theorem runs_nil : Runs max ([] : List (Act τ κ)) fresh := rfl

theorem runs_snoc {a : Act τ κ} :
    Runs max (acts ++ [a]) j' ↔ ∃ j, Runs max acts j ∧ next max j a = some j' := by
  unfold Runs
  rw [List.foldlM_append]
  simp only [List.foldlM_cons, List.foldlM_nil]
  cases hj : acts.foldlM (next max) fresh with
  | none => simp
  | some j =>
    cases hn : next max j a <;> simp [hn]

theorem Runs.init {before after : List (Act τ κ)} (h : Runs max (before ++ after) j) :
    ∃ j₀, Runs max before j₀ := by
  unfold Runs at h
  rw [List.foldlM_append] at h
  cases hj : before.foldlM (next max) fresh with
  | none => rw [hj] at h; cases h
  | some j₀ => exact ⟨j₀, hj⟩

/-- An act in the history was possible where it stands. -/
theorem Runs.act {before after : List (Act τ κ)} {a : Act τ κ}
    (h : Runs max (before ++ a :: after) j) :
    ∃ j₀ j₁, Runs max before j₀ ∧ next max j₀ a = some j₁ ∧ Runs max (before ++ [a]) j₁ := by
  rw [List.append_cons] at h
  obtain ⟨j₁, h₁⟩ := h.init
  obtain ⟨j₀, h₀, hn⟩ := runs_snoc.mp h₁
  exact ⟨j₀, j₁, h₀, hn, h₁⟩

omit [DecidableEq τ] [DecidableEq κ] in
theorem holder_snoc (acts : List (Act τ κ)) (a : Act τ κ) : holder (acts ++ [a]) =
    match a with
    | .claim t _ => some t
    | .save _ _ => holder acts
    | _ => none := by
  simp [holder]

omit [DecidableEq τ] [DecidableEq κ] in
theorem lastSaved_snoc (acts : List (Act τ κ)) (a : Act τ κ) : lastSaved (acts ++ [a]) =
    match a with
    | .save _ c => some c
    | _ => lastSaved acts := by
  simp [lastSaved]

/-! ## What a history tells -/

structure Agrees (max : Nat) (acts : List (Act τ κ)) (j : Job τ κ) : Prop where
  holder : j.holder = holder acts
  attempts : j.attempts = claims acts
  bounded : j.attempts ≤ max
  checkpoint : j.checkpoint = lastSaved acts
  free : j.fate ≠ none → j.holder = none
  dead : j.fate = some .dead → j.attempts = max
  delivered : acts.countP Act.isDeliver = if j.fate = some .delivered then 1 else 0

theorem Runs.agrees (h : Runs max acts j) : Agrees max acts j := by
  induction acts using List.reverseRecOn generalizing j with
  | nil =>
    cases h
    refine ⟨rfl, rfl, Nat.zero_le _, rfl, fun h => absurd rfl h, nofun, rfl⟩
  | append_singleton acts a ih =>
    obtain ⟨j₀, h₀, hn⟩ := runs_snoc.mp h
    obtain ⟨h1, h2, h3, h4, h5, h6, h7⟩ := ih h₀
    cases a with
    | claim t start =>
      simp only [next] at hn
      split at hn
      · rename_i hc
        cases hn
        refine ⟨by simp [holder_snoc], by simp [claims, Act.isClaim] at h2 ⊢; omega, ?_,
          by simp [lastSaved_snoc, h4], fun hf => absurd hc.1 hf, fun hf => ?_, ?_⟩
        · dsimp only
          omega
        · dsimp only at hf
          rw [hc.1] at hf
          cases hf
        · simpa [List.countP_append, Act.isDeliver] using h7
      · cases hn
    | save t c =>
      simp only [next] at hn
      split at hn
      · cases hn
        exact ⟨by simp [holder_snoc, h1], by simpa [claims, Act.isClaim] using h2, h3,
          by simp [lastSaved_snoc], h5, h6, by simpa [List.countP_append, Act.isDeliver] using h7⟩
      · cases hn
    | deliver t =>
      simp only [next] at hn
      split at hn
      · rename_i hc
        cases hn
        -- the job was held, so it had no fate yet
        have hfate : j₀.fate = none := by
          by_contra hf
          rw [h5 hf] at hc
          cases hc
        refine ⟨by simp [holder_snoc], by simpa [claims, Act.isClaim] using h2, h3,
          by simp [lastSaved_snoc, h4], fun _ => rfl, nofun, ?_⟩
        rw [hfate] at h7
        simp [List.countP_append, Act.isDeliver] at h7 ⊢
        omega
      · cases hn
    | release t =>
      simp only [next] at hn
      split at hn
      · cases hn
        exact ⟨by simp [holder_snoc], by simpa [claims, Act.isClaim] using h2, h3,
          by simp [lastSaved_snoc, h4], fun _ => rfl, h6,
          by simpa [List.countP_append, Act.isDeliver] using h7⟩
      · cases hn
    | bury t =>
      simp only [next] at hn
      split at hn
      · rename_i hc
        cases hn
        have hfate : j₀.fate = none := by
          by_contra hf
          have := h5 hf
          rw [this] at hc
          cases hc.1
        refine ⟨by simp [holder_snoc], by simpa [claims, Act.isClaim] using h2, h3,
          by simp [lastSaved_snoc, h4], fun _ => rfl, fun _ => hc.2, ?_⟩
        rw [hfate] at h7
        simpa [List.countP_append, Act.isDeliver] using h7
      · cases hn
    | sweep =>
      simp only [next] at hn
      split at hn
      · rename_i hc
        cases hn
        refine ⟨by simp [holder_snoc], by simpa [claims, Act.isClaim] using h2, h3,
          by simp [lastSaved_snoc, h4], fun _ => rfl, fun _ => hc.2, ?_⟩
        rw [hc.1] at h7
        simpa [List.countP_append, Act.isDeliver] using h7
      · cases hn

/-- An act of a holder was made under the token of the claim in force. -/
theorem Runs.fenced {before after : List (Act τ κ)} {a : Act τ κ} {t : τ}
    (h : Runs max (before ++ a :: after) j) (ha : a.holder? = some t) : holder before = some t := by
  obtain ⟨j₀, j₁, h₀, hn, -⟩ := h.act
  rw [← h₀.agrees.holder]
  cases a with
  | claim t' start => cases ha
  | sweep => cases ha
  | save t' c =>
    cases ha
    simp only [next] at hn
    split at hn
    · assumption
    · cases hn
  | deliver t' =>
    cases ha
    simp only [next] at hn
    split at hn
    · assumption
    · cases hn
  | release t' =>
    cases ha
    simp only [next] at hn
    split at hn
    · assumption
    · cases hn
  | bury t' =>
    cases ha
    simp only [next] at hn
    split at hn
    · rename_i hc
      exact hc.1
    · cases hn

/-- An attempt starts from the last checkpoint saved before it. -/
theorem Runs.started {before after : List (Act τ κ)} {t : τ} {start : Option κ}
    (h : Runs max (before ++ .claim t start :: after) j) : start = lastSaved before := by
  obtain ⟨j₀, j₁, h₀, hn, -⟩ := h.act
  simp only [next] at hn
  split at hn
  · rename_i hc
    rw [hc.2.2, h₀.agrees.checkpoint]
  · cases hn

omit [DecidableEq τ] [DecidableEq κ] in
/-- A holder whose claim was followed by another claim, or by an act that ended it, does not hold
the job any more. -/
theorem holder_ne_of_lost {before after : List (Act τ κ)} {t : τ} {start : Option κ}
    (hn : (tokens (before ++ .claim t start :: after)).Nodup)
    (hlost : ∃ a ∈ after, ∀ t' c, a ≠ .save t' c) :
    holder (before ++ .claim t start :: after) ≠ some t := by
  induction after using List.reverseRecOn with
  | nil =>
    obtain ⟨a, ha, -⟩ := hlost
    cases ha
  | append_singleton after a ih =>
    rw [← List.cons_append, ← List.append_assoc] at hn ⊢
    rw [holder_snoc]
    have hprefix : (tokens (before ++ .claim t start :: after)).Nodup := by
      unfold tokens at hn ⊢
      rw [List.filterMap_append] at hn
      exact (List.nodup_append.mp hn).1
    cases a with
    | claim t' start' =>
      dsimp only
      intro he
      cases he
      -- its token would have been claimed twice
      unfold tokens at hn
      rw [List.filterMap_append, List.nodup_append] at hn
      exact hn.2.2 t (by simp) t (by simp) rfl
    | save t' c =>
      obtain ⟨b, hb, hne⟩ := hlost
      rcases List.mem_append.mp hb with hb | hb
      · exact ih hprefix ⟨b, hb, hne⟩
      · rw [List.mem_singleton] at hb
        exact absurd hb (hne t' c)
    | deliver t' => exact nofun
    | release t' => exact nofun
    | bury t' => exact nofun
    | sweep => exact nofun

omit [DecidableEq τ] [DecidableEq κ] in
/-- The claims before a claim whose holder still holds the job are all but that one. -/
theorem claims_of_held {before after : List (Act τ κ)} {t : τ} {start : Option κ}
    (hn : (tokens (before ++ .claim t start :: after)).Nodup)
    (hh : holder (before ++ .claim t start :: after) = some t) :
    claims (before ++ .claim t start :: after) = claims before + 1 := by
  have hsaves : ∀ a ∈ after, Act.isClaim a = false := by
    intro a ha
    by_contra hc
    refine holder_ne_of_lost hn ⟨a, ha, fun t' c he => hc ?_⟩ hh
    rw [he]
    rfl
  have hzero : after.countP Act.isClaim = 0 := List.countP_eq_zero.mpr fun a ha => by
    simp [hsaves a ha]
  unfold claims
  rw [List.countP_append, List.countP_cons, hzero]
  simp [Act.isClaim]

end KNex.Core.LeasedJob
