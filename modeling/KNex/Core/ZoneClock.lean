import Mathlib

/-!
# Wall clocks

A time zone shifts instants (milliseconds) by a piecewise-constant offset of whole seconds and less
than a day; what the clock on the wall shows is `wall`. As transitions are a week apart, in a shorter
span of time the clock changes once at most (`Zone.window`). The instant at which the clock shows a
given reading is sought by `settle`, which corrects a guess by the offset found there: it finds none
where the clock skips the reading (`settle_skips`), one of two where the clock is turned back over it
(`settle_turnsBack`), and otherwise the one that divides time (`settle_divides`).
-/
namespace KNex.Core.ZoneClock

def dayMs : Int := 86400000

def weekMs : Int := 604800000

structure Zone where
  offset : Int → Int
  whole : ∀ t, offset t % 1000 = 0
  day : ∀ t, -dayMs < offset t ∧ offset t < dayMs
  week : ∀ t t', offset (t - 1) ≠ offset t → offset (t' - 1) ≠ offset t' → t < t' → t + weekMs ≤ t'

namespace Zone

variable (z : Zone)

def wall (t : Int) : Int := t + z.offset t

/-- At `t` the clock goes forward over `e`. -/
def Skips (e t : Int) : Prop := t + z.offset (t - 1) ≤ e ∧ e < t + z.offset t

/-- At `t` the clock, having passed `e`, goes back to `e` or before it. -/
def TurnsBack (e t : Int) : Prop := t + z.offset t ≤ e ∧ e < t + z.offset (t - 1)

/-! ## One transition at a time -/

variable {z}

theorem offset_eq_of_steady {lo : Int} : ∀ (n : Nat),
    (∀ t, lo < t → t ≤ lo + n → z.offset (t - 1) = z.offset t) → z.offset (lo + n) = z.offset lo
  | 0, _ => by simp
  | n + 1, h => by
    have ih := offset_eq_of_steady n fun t h₁ h₂ => h t h₁ (by push_cast; omega)
    have hlast := h (lo + (n + 1 : Nat)) (by push_cast; omega) le_rfl
    rw [← hlast, ← ih]
    congr 1
    push_cast
    omega

theorem offset_eq_of_steady' {lo hi : Int} (h : ∀ t, lo < t → t ≤ hi → z.offset (t - 1) = z.offset t)
    {t : Int} (hlo : lo ≤ t) (hhi : t ≤ hi) : z.offset t = z.offset lo := by
  have heq : lo + ((t - lo).toNat : Int) = t := by omega
  have := @offset_eq_of_steady z lo (t - lo).toNat fun s h₁ h₂ => h s h₁ (by omega)
  rwa [heq] at this

variable (z) in
/-- Within less than a week the clock changes once at most. -/
theorem window {lo hi : Int} (hle : lo ≤ hi) (hweek : hi < lo + weekMs) :
    ∃ T, lo ≤ T ∧ T ≤ hi ∧ ∀ t, lo ≤ t → t ≤ hi →
      z.offset t = if t < T then z.offset (T - 1) else z.offset T := by
  by_cases hsteady : ∀ t, lo < t → t ≤ hi → z.offset (t - 1) = z.offset t
  · refine ⟨lo, le_rfl, hle, fun t hlo hhi => ?_⟩
    rw [if_neg (by omega)]
    exact offset_eq_of_steady' hsteady hlo hhi
  · push Not at hsteady
    obtain ⟨T, hloT, hThi, hT⟩ := hsteady
    have honly : ∀ t, lo < t → t ≤ hi → t ≠ T → z.offset (t - 1) = z.offset t := by
      intro t h₁ h₂ hne
      by_contra ht
      rcases lt_or_gt_of_ne hne with hlt | hgt
      · have := z.week t T ht hT hlt
        omega
      · have := z.week T t hT ht hgt
        omega
    refine ⟨T, by omega, hThi, fun t hlo hhi => ?_⟩
    split
    · rename_i hlt
      have hbefore : ∀ s, lo < s → s ≤ T - 1 → z.offset (s - 1) = z.offset s :=
        fun s h₁ h₂ => honly s h₁ (by omega) (by omega)
      rw [offset_eq_of_steady' hbefore hlo (by omega),
        offset_eq_of_steady' hbefore (show lo ≤ T - 1 by omega) le_rfl]
    · exact offset_eq_of_steady' (fun s h₁ h₂ => honly s (by omega) h₂ (by omega)) (by omega) hhi

/-- The clock around a reading `e`: the one transition `T` within two days of it. -/
structure Around (z : Zone) (e T : Int) : Prop where
  offset_eq : ∀ t, e - 2 * dayMs ≤ t → t ≤ e + 2 * dayMs →
    z.offset t = if t < T then z.offset (T - 1) else z.offset T
  only : ∀ t, z.Skips e t ∨ z.TurnsBack e t → t = T

variable (z) in
theorem exists_around (e : Int) : ∃ T, Around z e T := by
  obtain ⟨T, hlo, hhi, hoffset⟩ :=
    z.window (show e - 2 * dayMs ≤ e + 2 * dayMs by unfold dayMs; omega)
      (show e + 2 * dayMs < e - 2 * dayMs + weekMs by unfold dayMs weekMs; omega)
  refine ⟨T, hoffset, fun t ht => ?_⟩
  have hday := z.day t
  have hday' := z.day (t - 1)
  have hnear : e - dayMs < t ∧ t < e + dayMs := by
    rcases ht with ⟨h₁, h₂⟩ | ⟨h₁, h₂⟩ <;> omega
  have hchange : z.offset (t - 1) ≠ z.offset t := by
    rcases ht with ⟨h₁, h₂⟩ | ⟨h₁, h₂⟩ <;> omega
  have hb := hoffset (t - 1) (by unfold dayMs at *; omega) (by unfold dayMs at *; omega)
  have ha := hoffset t (by unfold dayMs at *; omega) (by unfold dayMs at *; omega)
  by_contra hne
  rcases lt_or_gt_of_ne hne with hlt | hgt
  · rw [if_pos (by omega)] at hb ha
    exact hchange (hb.trans ha.symm)
  · rw [if_neg (by omega)] at hb ha
    exact hchange (hb.trans ha.symm)

/-! ## Passing a reading -/

/-- The reading `e` divides time at `s`. -/
def Divides (z : Zone) (e s : Int) : Prop := ∀ t, s ≤ t ↔ e ≤ z.wall t

/-- It is enough to look within two days of the reading. -/
theorem divides_of_near {e s : Int} (hs : e - dayMs < s ∧ s < e + dayMs)
    (h : ∀ t, e - 2 * dayMs ≤ t → t ≤ e + 2 * dayMs → (s ≤ t ↔ e ≤ z.wall t)) :
    Divides z e s := by
  intro t
  have hday := z.day t
  by_cases hlo : e - 2 * dayMs ≤ t
  · by_cases hhi : t ≤ e + 2 * dayMs
    · exact h t hlo hhi
    · unfold wall dayMs at *
      omega
  · unfold wall dayMs at *
    omega

theorem Divides.near {e s : Int} (h : Divides z e s) : e - dayMs < s ∧ s < e + dayMs := by
  have h₁ := (h s).mp le_rfl
  have h₂ := mt (h (s - 1)).mpr (by omega)
  have hday := z.day s
  have hday' := z.day (s - 1)
  unfold wall at h₁ h₂
  omega

/-! ## Looking for the instant of a reading -/

def settle (z : Zone) (e : Int) : Nat → Int → Option Int
  | 0, _ => none
  | attempts + 1, candidate =>
    if z.wall candidate = e then some candidate else settle z e attempts (e - z.offset candidate)

theorem wall_of_settle {e : Int} : ∀ {attempts : Nat} {candidate s : Int},
    settle z e attempts candidate = some s → z.wall s = e
  | 0, _, _, h => by cases h
  | attempts + 1, candidate, s, h => by
    rw [settle] at h
    split at h
    · rename_i hwall
      cases h
      exact hwall
    · exact wall_of_settle h

theorem near_of_wall {e s : Int} (h : z.wall s = e) : e - dayMs < s ∧ s < e + dayMs := by
  have hday := z.day s
  unfold wall at h
  omega

/-- The offset at an instant where the clock is within a day of the reading. -/
theorem Around.offset_near {e T t : Int} (h : Around z e T) (ht : e - dayMs < t ∧ t < e + dayMs) :
    z.offset t = if t < T then z.offset (T - 1) else z.offset T :=
  h.offset_eq t (by unfold dayMs at *; omega) (by unfold dayMs at *; omega)

theorem wall_ne_of_skips {e T : Int} (h : z.Skips e T) (t : Int) : z.wall t ≠ e := by
  obtain ⟨T', haround⟩ := z.exists_around e
  obtain rfl := haround.only T (.inl h)
  intro ht
  have hday := z.day t
  unfold wall at ht
  have hoffset := haround.offset_near (t := t) (by omega)
  obtain ⟨h₁, h₂⟩ := h
  split at hoffset <;> omega

theorem settle_skips {e T : Int} (h : z.Skips e T) : ∀ (n : Nat) (c : Int), settle z e n c = none
  | 0, _ => rfl
  | n + 1, c => by rw [settle, if_neg (wall_ne_of_skips h c), settle_skips h n]

/-- Two guesses do where the offset at the second is that at the first. -/
theorem settle_two {e : Int} (n : Nat) (h : z.offset (e - z.offset e) = z.offset e) :
    settle z e (n + 2) e = some (e - z.offset e) := by
  have hself : z.wall (e - z.offset e) = e := by
    unfold wall
    omega
  rw [settle]
  split
  · rename_i hwall
    unfold wall at hwall
    congr 1
    omega
  · rw [settle, if_pos hself]

theorem settle_turnsBack {e T : Int} (h : z.TurnsBack e T) (n : Nat) :
    settle z e (n + 2) e = some (if e < T then e - z.offset (T - 1) else e - z.offset T) := by
  obtain ⟨T', haround⟩ := z.exists_around e
  obtain rfl := haround.only T (.inr h)
  obtain ⟨h₁, h₂⟩ := h
  have hday := z.day e
  have hself := haround.offset_near (t := e) (by unfold dayMs; omega)
  have hnext := haround.offset_near (t := e - z.offset e) (by omega)
  split
  · rename_i hlt
    rw [if_pos hlt] at hself
    rw [if_pos (by omega), ← hself] at hnext
    rw [settle_two n hnext, hself]
  · rename_i hge
    rw [if_neg hge] at hself
    rw [if_neg (by omega), ← hself] at hnext
    rw [settle_two n hnext, hself]

/-- Where the clock, turned back, shows the reading itself, the earlier instant divides time. -/
theorem divides_of_turnsBack {e T : Int} (h : z.TurnsBack e T) (hback : T + z.offset T = e) :
    Divides z e (e - z.offset (T - 1)) := by
  obtain ⟨T', haround⟩ := z.exists_around e
  obtain rfl := haround.only T (.inr h)
  have hday := z.day (T - 1)
  obtain ⟨h₁, h₂⟩ := h
  refine divides_of_near (by omega) fun t hlo hhi => ?_
  have ht := haround.offset_eq t hlo hhi
  unfold wall
  split at ht <;> omega

/-- Before the clock is turned back over the reading, the earlier instant divides time. -/
theorem reading_before {e T : Int} (h : z.TurnsBack e T) {t : Int} (ht : t < T) :
    e - z.offset (T - 1) ≤ t ↔ e ≤ z.wall t := by
  obtain ⟨T', haround⟩ := z.exists_around e
  obtain rfl := haround.only T (.inr h)
  have hday := z.day (T - 1)
  have hday' := z.day t
  obtain ⟨h₁, h₂⟩ := h
  unfold wall
  by_cases hlo : e - 2 * dayMs ≤ t
  · rw [haround.offset_eq t hlo (by have := z.day T; unfold dayMs at *; omega), if_pos ht]
    omega
  · unfold dayMs at *
    omega

/-- After it, the later one does. -/
theorem reading_after {e T : Int} (h : z.TurnsBack e T) {t : Int} (ht : T ≤ t) :
    e - z.offset T ≤ t ↔ e ≤ z.wall t := by
  obtain ⟨T', haround⟩ := z.exists_around e
  obtain rfl := haround.only T (.inr h)
  have hday := z.day T
  have hday' := z.day t
  obtain ⟨h₁, h₂⟩ := h
  unfold wall
  by_cases hhi : t ≤ e + 2 * dayMs
  · rw [haround.offset_eq t (by have := z.day (T - 1); unfold dayMs at *; omega) hhi,
      if_neg (by omega)]
    omega
  · unfold dayMs at *
    omega

theorem settle_divides {e : Int} (hskips : ∀ T, ¬ z.Skips e T) (hback : ∀ T, ¬ z.TurnsBack e T)
    (n : Nat) : ∃ s, settle z e (n + 3) e = some s ∧ Divides z e s := by
  obtain ⟨T, haround⟩ := z.exists_around e
  have hself := haround.offset_near (t := e) (by unfold dayMs; omega)
  have hday := z.day (T - 1)
  have hday' := z.day T
  have hs := hskips T
  have hb := hback T
  unfold Skips at hs
  unfold TurnsBack at hb
  -- the guess reaches the side of the transition on which the reading is
  have hfound : ∀ s, z.offset s = e - s → z.offset (e - z.offset e) = e - s →
      settle z e (n + 3) e = some s := by
    intro s hoffset hnext
    have hwall : z.wall s = e := by
      unfold wall
      omega
    have hagain : settle z e (n + 1) s = some s := by rw [settle, if_pos hwall]
    rw [settle]
    split
    · rename_i heq
      unfold wall at heq
      have hzero : z.offset e = 0 := by omega
      rw [hzero, sub_zero, hzero] at hnext
      congr 1
      omega
    · rw [settle]
      split
      · rename_i heq
        unfold wall at heq
        congr 1
        omega
      · rw [hnext, sub_sub_cancel, hagain]
  by_cases hside : e < T + z.offset (T - 1)
  · have hafter : e < T + z.offset T := by omega
    refine ⟨e - z.offset (T - 1), hfound _ ?_ ?_, divides_of_near (by omega) fun t hlo hhi => ?_⟩
    · rw [haround.offset_near (by omega), if_pos (by omega)]
      omega
    · rw [haround.offset_near (by split at hself <;> omega),
        if_pos (by split at hself <;> omega)]
      omega
    · have ht := haround.offset_eq t hlo hhi
      unfold wall
      split at ht <;> omega
  · have hafter : T + z.offset T ≤ e := by omega
    refine ⟨e - z.offset T, hfound _ ?_ ?_, divides_of_near (by omega) fun t hlo hhi => ?_⟩
    · rw [haround.offset_near (by omega), if_neg (by omega)]
      omega
    · rw [haround.offset_near (by split at hself <;> omega),
        if_neg (by split at hself <;> omega)]
      omega
    · have ht := haround.offset_eq t hlo hhi
      unfold wall
      split at ht <;> omega

end Zone

end KNex.Core.ZoneClock
