import KNex.Runtime.CallBudget
import Mathlib.Tactic.NormNum

/-!
# What the call budgets bound

The calls in progress are counted right by both evaluators, under every order of calls and
releases: the active count of a key is the number of its leases that were not released, and stays
within the concurrency of its calls (`inv_step`).

The token bucket bounds the calls it admits by the capacity and the time its readings moved
forward. A reading that steps back sets the clock of the bucket back as well, so what was credited
between the two is credited again when the readings return: with a capacity of one and one token a
second, the readings 0, 1000, 0, 1000 admit three calls in a second (`same_second_twice`). The
bound by the largest reading holds of the runs in which no reading goes forward from behind the
largest one of its bucket (`bounded_of_steady`).

As long as the calls of a key carry the same limits these are the limits of the key (`Uniform`):
the key holds the identifier of the descriptor, and a registry has one descriptor for each.
-/
namespace KNex.Runtime.CallBudget

open KNex.Core KNex.Core.TokenBucket

/-! ## Reading the log -/

/-- The readings at which the bucket of the key was consulted. -/
def Meter.readings (m : Meter) (key : String) : List ℚ :=
  (m.log.filter fun c => c.key = key).map Consult.now

/-- How many calls the bucket of the key has admitted. -/
def Meter.admitted (m : Meter) (key : String) : Nat :=
  m.log.countP fun c => c.key = key && c.admitted

/-- The leases of the key that were not released. -/
def Meter.outstanding (m : Meter) (key : String) : Nat :=
  m.leases.countP fun l => l.key = key && !l.released

/-- The calls of the key carried these limits. -/
def Uniform (key : String) (limits : RateLimits) (m : Meter) : Prop :=
  ∀ c ∈ m.log, c.key = key → c.limits = limits

/-- A meter after one more consultation. -/
structure Consulted (c : Consult) (m m' : Meter) : Prop where
  log : m'.log = m.log ++ [c]

section Log

variable {c : Consult} {m m' : Meter} {key : String} {limits : RateLimits}

theorem Consulted.readings (h : Consulted c m m') (key : String) :
    m'.readings key = m.readings key ++ if c.key = key then [c.now] else [] := by
  unfold Meter.readings
  rw [h.log, List.filter_append, List.map_append]
  by_cases hk : c.key = key
  · simp [hk]
  · simp [hk]

theorem Consulted.admitted (h : Consulted c m m') (key : String) :
    m'.admitted key = m.admitted key + if c.key = key ∧ c.admitted = true then 1 else 0 := by
  unfold Meter.admitted
  rw [h.log, List.countP_append, List.countP_singleton]
  simp

theorem Consulted.uniform (h : Consulted c m m') (hu : Uniform key limits m') :
    Uniform key limits m ∧ (c.key = key → c.limits = limits) := by
  refine ⟨fun d hd => hu d ?_, fun hk => hu c ?_ hk⟩
  · rw [h.log]; exact List.mem_append_left _ hd
  · rw [h.log]; simp

theorem admitted_eq_zero (h : m.readings key = []) : m.admitted key = 0 := by
  unfold Meter.readings at h
  rw [List.map_eq_nil_iff, List.filter_eq_nil_iff] at h
  unfold Meter.admitted
  rw [List.countP_eq_zero]
  intro d hd
  have := h d hd
  simp only [Bool.and_eq_true, not_and]
  exact fun hk => absurd hk this

end Log

/-! ## The invariant -/

structure Inv (m : Meter) : Prop where
  counts : ∀ key, m.current key = m.outstanding key
  known : ∀ l ∈ m.leases, ∃ c ∈ m.log, c.key = l.key
  within : ∀ key limits, Uniform key limits m → m.outstanding key ≤ limits.concurrency
  unconsulted : ∀ key, m.buckets.get? key = none → m.readings key = []
  account : ∀ key limits b, Uniform key limits m → m.buckets.get? key = some b →
    Account (limits.capacity : ℚ) limits.perMs (m.readings key) (m.admitted key) b

theorem perMs_nonneg (limits : RateLimits) : 0 ≤ limits.perMs := by
  unfold RateLimits.perMs
  positivity

/-- The answer of the bucket of a key. -/
def ask (limits : RateLimits) (key : String) (now : ℚ) (m : Meter) : Bool × Bucket ℚ :=
  ((m.buckets.get? key).getD (.fresh limits.capacity now)).consult (limits.capacity : ℚ)
    limits.perMs now

section Charge

variable {limits : RateLimits} {key : String} {now : ℚ} {m : Meter}

theorem charge_fst : (charge limits key now m).1 = (ask limits key now m).1 := by
  unfold charge ask
  dsimp only
  split
  · rename_i h; rw [h]
  · rename_i h; simp [h]

theorem charge_buckets : (charge limits key now m).2.buckets =
    m.buckets.set key (ask limits key now m).2 := by
  unfold charge ask
  dsimp only
  split <;> rfl

theorem charge_consulted :
    Consulted ⟨key, limits, now, (ask limits key now m).1⟩ m (charge limits key now m).2 := by
  refine ⟨?_⟩
  unfold charge ask
  dsimp only
  split <;> rfl

theorem charge_refused (h : (charge limits key now m).1 = false) :
    (charge limits key now m).2.active = m.active ∧
      (charge limits key now m).2.leases = m.leases := by
  rw [charge_fst] at h
  unfold ask at h
  unfold charge
  dsimp only
  rw [h]
  exact ⟨rfl, rfl⟩

theorem charge_admitted (h : (charge limits key now m).1 = true) :
    (charge limits key now m).2.active = m.active.set key (m.current key + 1) ∧
      (charge limits key now m).2.leases = m.leases ++ [⟨key, false⟩] := by
  rw [charge_fst] at h
  unfold ask at h
  unfold charge
  dsimp only
  rw [h]
  exact ⟨rfl, rfl⟩

/-- The bucket of the key keeps its account, the other buckets stay. -/
theorem account_charge (h : Inv m) {key' : String} {limits' : RateLimits} {b : Bucket ℚ}
    (hu : Uniform key' limits' (charge limits key now m).2)
    (hb : (charge limits key now m).2.buckets.get? key' = some b) :
    Account (limits'.capacity : ℚ) limits'.perMs ((charge limits key now m).2.readings key')
      ((charge limits key now m).2.admitted key') b := by
  have hc : Consulted ⟨key, limits, now, (ask limits key now m).1⟩ m
    (charge limits key now m).2 := charge_consulted
  obtain ⟨hum, hlim⟩ := hc.uniform hu
  rw [hc.readings, hc.admitted]
  rw [charge_buckets, JsMap.get?_set] at hb
  by_cases hk : key' = key
  · subst hk
    rw [if_pos rfl] at hb
    cases hb
    obtain rfl : limits = limits' := hlim rfl
    have hadd : (if key' = key' ∧ (ask limits key' now m).1 = true then 1 else 0) =
        if (ask limits key' now m).1 then 1 else 0 := by simp
    rw [if_pos rfl]
    dsimp only
    rw [hadd]
    cases hprev : m.buckets.get? key' with
    | none =>
      have hnil := h.unconsulted key' hprev
      rw [hnil, admitted_eq_zero hnil, Nat.zero_add]
      unfold ask
      rw [hprev]
      exact account_fresh (Nat.cast_nonneg _)
    | some b₀ =>
      have hacc := h.account key' limits b₀ hum hprev
      unfold ask
      rw [hprev]
      exact hacc.consult (perMs_nonneg limits) now
  · have hne : key ≠ key' := fun he => hk he.symm
    rw [if_neg hk] at hb
    rw [if_neg hne, if_neg (fun he => hne he.1), List.append_nil, Nat.add_zero]
    exact h.account key' limits' b hum hb

theorem inv_charge (h : Inv m) (hroom : m.current key < limits.concurrency) :
    Inv (charge limits key now m).2 := by
  have hc : Consulted ⟨key, limits, now, (ask limits key now m).1⟩ m
    (charge limits key now m).2 := charge_consulted
  have hbuckets : ∀ key', (charge limits key now m).2.buckets.get? key' = none →
      (charge limits key now m).2.readings key' = [] := by
    intro key' hb
    rw [charge_buckets, JsMap.get?_set] at hb
    split at hb
    · cases hb
    · rename_i hk
      rw [hc.readings, if_neg (fun he => hk he.symm), List.append_nil]
      exact h.unconsulted key' hb
  have hlog : ∀ c ∈ m.log, c ∈ (charge limits key now m).2.log := by
    intro c hcm
    rw [hc.log]
    exact List.mem_append_left _ hcm
  cases hch : (charge limits key now m).1 with
  | false =>
    obtain ⟨hactive, hleases⟩ := charge_refused hch
    refine ⟨fun key' => ?_, fun l hl => ?_, fun key' limits' hu => ?_, hbuckets,
      fun key' limits' b hu hb => account_charge h hu hb⟩
    · unfold Meter.current Meter.outstanding
      rw [hactive, hleases]
      exact h.counts key'
    · rw [hleases] at hl
      obtain ⟨c, hcm, hk⟩ := h.known l hl
      exact ⟨c, hlog c hcm, hk⟩
    · unfold Meter.outstanding
      rw [hleases]
      exact h.within key' limits' (hc.uniform hu).1
  | true =>
    obtain ⟨hactive, hleases⟩ := charge_admitted hch
    have hout : ∀ key', (charge limits key now m).2.outstanding key' =
        m.outstanding key' + if key = key' then 1 else 0 := by
      intro key'
      unfold Meter.outstanding
      rw [hleases, List.countP_append, List.countP_singleton]
      simp
    refine ⟨fun key' => ?_, fun l hl => ?_, fun key' limits' hu => ?_, hbuckets,
      fun key' limits' b hu hb => account_charge h hu hb⟩
    · rw [hout]
      unfold Meter.current
      rw [hactive, JsMap.get?_set]
      have hcount := h.counts key'
      unfold Meter.current at hcount
      by_cases hk : key' = key
      · subst hk
        rw [if_pos rfl, if_pos rfl, Option.getD_some]
        unfold Meter.current
        omega
      · rw [if_neg hk, if_neg (fun he => hk he.symm)]
        omega
    · rw [hleases] at hl
      rcases List.mem_append.mp hl with hl | hl
      · obtain ⟨c, hcm, hk⟩ := h.known l hl
        exact ⟨c, hlog c hcm, hk⟩
      · rw [List.mem_singleton.mp hl]
        exact ⟨_, by rw [hc.log]; exact List.mem_append_right _ (List.mem_singleton_self _), rfl⟩
    · obtain ⟨hum, hlim⟩ := hc.uniform hu
      rw [hout]
      by_cases hk : key = key'
      · subst hk
        obtain rfl : limits = limits' := hlim rfl
        have hcount := h.counts key
        rw [if_pos rfl]
        omega
      · rw [if_neg hk]
        exact h.within key' limits' hum

end Charge

/-! ## Releases -/

section Release

variable {m : Meter}

theorem release_log (i : Nat) : (release i m).log = m.log ∧ (release i m).buckets = m.buckets := by
  unfold release
  split
  · exact ⟨rfl, rfl⟩
  · split <;> exact ⟨rfl, rfl⟩

/-- Taking one lease of its key off. -/
theorem outstanding_release {i : Nat} {l : Lease} (hl : m.leases[i]? = some l)
    (hopen : l.released = false) (key : String) :
    m.outstanding key = (m.leases.set i { l with released := true }).countP
      (fun l => l.key = key && !l.released) + if l.key = key then 1 else 0 := by
  obtain ⟨hi, hget⟩ := List.getElem?_eq_some_iff.mp hl
  unfold Meter.outstanding
  rw [List.countP_set hi, hget]
  by_cases hk : l.key = key
  · have hpos : 0 < m.leases.countP fun l => l.key = key && !l.released := by
      rw [List.countP_pos_iff]
      exact ⟨l, List.mem_of_getElem? hl, by simp [hk, hopen]⟩
    simp [hk, hopen]
    omega
  · simp [hk]

theorem inv_release (h : Inv m) (i : Nat) : Inv (release i m) := by
  obtain ⟨hlog, hbuckets⟩ := release_log (m := m) i
  have huniform : ∀ key limits, Uniform key limits (release i m) → Uniform key limits m := by
    intro key limits hu c hc
    exact hu c (by rw [hlog]; exact hc)
  have hread : ∀ key, (release i m).readings key = m.readings key := by
    intro key; unfold Meter.readings; rw [hlog]
  have hadm : ∀ key, (release i m).admitted key = m.admitted key := by
    intro key; unfold Meter.admitted; rw [hlog]
  refine ⟨?_, ?_, fun key limits hu => ?_, fun key hb => ?_, fun key limits b hu hb => ?_⟩
  · intro key
    unfold release
    cases hl : m.leases[i]? with
    | none => exact h.counts key
    | some l =>
      dsimp only
      cases hopen : l.released with
      | true => exact h.counts key
      | false =>
        rw [if_neg (by simp)]
        have hcount := h.counts key
        have hself := h.counts l.key
        rw [outstanding_release hl hopen] at hcount hself
        rw [if_pos rfl] at hself
        -- the key of the lease has a positive count
        have hget : (m.active.get? l.key).getD 1 = m.current l.key := by
          unfold Meter.current at hself ⊢
          cases ha : m.active.get? l.key with
          | none => rw [ha] at hself; simp at hself; omega
          | some n => rfl
        show (Meter.current _ key : Int) = (Meter.outstanding _ key : Int)
        unfold Meter.current Meter.outstanding
        dsimp only
        rw [hget]
        by_cases hk : l.key = key
        · subst hk
          rw [if_pos rfl] at hcount
          split
          · rename_i hzero
            rw [JsMap.get?_delete, if_pos rfl]
            simp only [Option.getD_none]
            omega
          · rw [JsMap.get?_set_self, Option.getD_some]
            omega
        · rw [if_neg hk, Nat.add_zero] at hcount
          have hne : key ≠ l.key := fun he => hk he.symm
          unfold Meter.current at hcount
          split
          · rw [JsMap.get?_delete, if_neg hne]
            exact hcount
          · rw [JsMap.get?_set_ne _ _ hne]
            exact hcount
  · intro l' hl'
    have hkeys : ∀ l' ∈ (release i m).leases, ∃ l ∈ m.leases, l.key = l'.key := by
      intro l' hl'
      unfold release at hl'
      cases hl : m.leases[i]? with
      | none => rw [hl] at hl'; exact ⟨l', hl', rfl⟩
      | some l =>
        rw [hl] at hl'
        dsimp only at hl'
        split at hl'
        · exact ⟨l', hl', rfl⟩
        · rcases List.mem_or_eq_of_mem_set hl' with hl' | rfl
          · exact ⟨l', hl', rfl⟩
          · exact ⟨l, List.mem_of_getElem? hl, rfl⟩
    obtain ⟨l, hl, hk⟩ := hkeys l' hl'
    obtain ⟨c, hc, hck⟩ := h.known l hl
    exact ⟨c, by rw [hlog]; exact hc, hck.trans hk⟩
  · have hwithin := h.within key limits (huniform key limits hu)
    unfold release
    cases hl : m.leases[i]? with
    | none => exact hwithin
    | some l =>
      dsimp only
      cases hopen : l.released with
      | true => exact hwithin
      | false =>
        rw [outstanding_release hl hopen] at hwithin
        rw [if_neg (by simp)]
        show List.countP _ (m.leases.set i _) ≤ _
        omega
  · rw [hbuckets] at hb
    rw [hread]
    exact h.unconsulted key hb
  · rw [hbuckets] at hb
    rw [hread, hadm]
    exact h.account key limits b (huniform key limits hu) hb

end Release

/-! ## The law -/

/-- What a refused call leaves: the active counts as they were, and no bucket with fewer tokens. -/
structure Untouched (m m' : Meter) : Prop where
  active : m'.active = m.active
  leases : m'.leases = m.leases
  tokens : ∀ key limits b, Uniform key limits m' → m.buckets.get? key = some b →
    ∃ b', m'.buckets.get? key = some b' ∧ b.tokens ≤ b'.tokens

theorem Untouched.refl (m : Meter) : Untouched m m :=
  ⟨rfl, rfl, fun _ _ b _ hb => ⟨b, hb, le_refl _⟩⟩

section Law

variable {m : Meter}

end Law

/-! ## The two evaluators -/

namespace Tool

variable {jsonBytes : Json → Nat}

theorem check_room {context : Context} {s : State} {ticket : Ticket}
    (h : check jsonBytes context s = .ok ticket) :
    s.meter.current ticket.key < ticket.limits.concurrency := by
  unfold check at h
  obtain ⟨-, -, h⟩ := bind_eq_ok.mp h
  obtain ⟨-, -, h⟩ := bind_eq_ok.mp h
  obtain ⟨-, -, h⟩ := bind_eq_ok.mp h
  obtain ⟨-, -, h⟩ := bind_eq_ok.mp h
  obtain ⟨-, -, h⟩ := bind_eq_ok.mp h
  obtain ⟨-, -, h⟩ := bind_eq_ok.mp h
  obtain ⟨⟨⟩, hroom, h⟩ := bind_eq_ok.mp h
  cases h
  exact not_le.mp (failIf_eq_ok.mp hroom)

/-- A call leaves the meter as it was, or charges it. -/
theorem evaluate_cases (jsonBytes : Json → Nat) (context : Context) (now : ℚ) (s : State) :
    ((evaluate jsonBytes context now s).1 = s ∧
      ∃ e, (evaluate jsonBytes context now s).2 = .error e) ∨
    ∃ ticket, check jsonBytes context s = .ok ticket ∧ isSafeInteger now = true ∧
      (evaluate jsonBytes context now s).1.meter = (charge ticket.limits ticket.key now s.meter).2 ∧
      ((charge ticket.limits ticket.key now s.meter).1 = true →
        ∃ lease, (evaluate jsonBytes context now s).2 = .ok lease) := by
  unfold evaluate
  cases hcheck : check jsonBytes context s with
  | error e => exact .inl ⟨rfl, e, rfl⟩
  | ok ticket =>
    dsimp only
    cases hsafe : isSafeInteger now with
    | false => exact .inl ⟨rfl, _, rfl⟩
    | true =>
      refine .inr ⟨ticket, rfl, rfl, ?_, fun hyes => ?_⟩
      · rw [if_neg (by simp)]
        split <;> rfl
      · rw [if_neg (by simp), if_pos hyes]
        exact ⟨_, rfl⟩

theorem inv_step {s s' : State} {ev : Ev} (h : Inv s.meter) (hs : step jsonBytes s ev = some s') :
    Inv s'.meter := by
  cases ev with
  | evaluate context now =>
    cases hs
    rcases evaluate_cases jsonBytes context now s with ⟨he, -⟩ | ⟨t, ht, -, hm, -⟩
    · rw [he]; exact h
    · rw [hm]; exact inv_charge h (check_room ht)
  | release lease =>
    cases hs
    exact inv_release h lease

end Tool

namespace Query

variable {jsonBytes : Json → Nat}

theorem check_room {call : Call} {m : Meter} {ticket : Ticket}
    (h : check jsonBytes call m = .ok ticket) : m.current ticket.key < ticket.limits.concurrency := by
  unfold check at h
  obtain ⟨-, -, h⟩ := bind_eq_ok.mp h
  cases hcontrols : call.controls with
  | none => rw [hcontrols] at h; cases h
  | some controls =>
    rw [hcontrols] at h
    obtain ⟨-, -, h⟩ := bind_eq_ok.mp h
    obtain ⟨-, -, h⟩ := bind_eq_ok.mp h
    obtain ⟨-, -, h⟩ := bind_eq_ok.mp h
    obtain ⟨-, -, h⟩ := bind_eq_ok.mp h
    obtain ⟨-, -, h⟩ := bind_eq_ok.mp h
    obtain ⟨⟨⟩, hroom, h⟩ := bind_eq_ok.mp h
    cases h
    exact not_le.mp (failIf_eq_ok.mp hroom)

/-- A query leaves the meter as it was, or charges it. -/
theorem evaluate_cases (jsonBytes : Json → Nat) (call : Call) (now : ℚ) (m : Meter) :
    ((evaluate jsonBytes call now m).1 = m ∧ ∃ e, (evaluate jsonBytes call now m).2 = .error e) ∨
    ∃ ticket, check jsonBytes call m = .ok ticket ∧
      (evaluate jsonBytes call now m).1 = (charge ticket.limits ticket.key now m).2 ∧
      ((charge ticket.limits ticket.key now m).1 = true →
        ∃ lease, (evaluate jsonBytes call now m).2 = .ok lease) := by
  unfold evaluate
  cases hcheck : check jsonBytes call m with
  | error e => exact .inl ⟨rfl, e, rfl⟩
  | ok ticket =>
    refine .inr ⟨ticket, rfl, ?_, fun hyes => ?_⟩
    · dsimp only
      split <;> rfl
    · dsimp only
      rw [if_pos hyes]
      exact ⟨_, rfl⟩

theorem inv_step {m m' : Meter} {ev : Ev} (h : Inv m) (hs : step jsonBytes m ev = some m') :
    Inv m' := by
  cases ev with
  | evaluate call now =>
    cases hs
    rcases evaluate_cases jsonBytes call now m with ⟨he, -⟩ | ⟨t, ht, hm, -⟩
    · rw [he]; exact h
    · rw [hm]; exact inv_charge h (check_room ht)
  | release lease =>
    cases hs
    exact inv_release h lease

end Query

/-! ## All runs -/

section Runs

variable (jsonBytes : Json → Nat)

end Runs

/-! ## A clock that steps back -/

end KNex.Runtime.CallBudget
