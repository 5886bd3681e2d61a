import KNex.Core.Except

/-!
# Transactions that may stop at any await

A transaction reads and writes a database through statements, each behind an await. Between two
statements a signal may abort it or the connection may fail, so a session counts the awaits that
still go through. `Work.run` is `begin`, the work and `commit`; when the work throws, the database
is the one at `begin`.

`Yields` says what a transaction that was not stopped did. Its lemmas take the work apart from the
front: every check of it held, and every statement answered.
-/
namespace KNex.Core

/-- The database as the transaction sees it, and the number of awaits that still go through
(`none`: all of them). -/
structure Session (δ : Type) where
  db : δ
  left : Option Nat

abbrev Work (ε δ α : Type) := StateT (Session δ) (Except ε) α

namespace Work

variable {ε δ α β : Type}

/-! ## Operations -/

/-- `if (!c) throw e` -/
def check (c : Prop) [Decidable c] (e : ε) : Work ε δ Unit :=
  fun s => if c then .ok ((), s) else .error e

/-- Code that does not touch the session. -/
def lift (x : Except ε α) : Work ε δ α := fun s => x.map fun a => (a, s)

/-- The value, or the error where there is none. -/
def require (o : Option α) (e : ε) : Work ε δ α := lift (match o with
  | some a => .ok a
  | none => .error e)

/-- A point at which the transaction may be stopped. -/
def await (e : ε) : Work ε δ Unit := fun s =>
  match s.left with
  | none => .ok ((), s)
  | some 0 => .error e
  | some (n + 1) => .ok ((), { s with left := some n })

def statement (f : δ → Except ε (α × δ)) : Work ε δ α :=
  fun s => (f s.db).map fun r => (r.1, { s with db := r.2 })

/-- Commit when the work returns, roll back when it throws. -/
def run (work : Work ε δ α) (left : Option Nat) (db : δ) : Except ε α × δ :=
  match work ⟨db, left⟩ with
  | .ok (a, s) => (.ok a, s.db)
  | .error e => (.error e, db)

/-! ## What a transaction did -/

/-- The work, begun at `db`, returns `a` with the database at `db'`. -/
def Yields (x : Work ε δ α) (db : δ) (a : α) (db' : δ) : Prop :=
  ∃ left left', x ⟨db, left⟩ = .ok (a, ⟨db', left'⟩)

theorem run_error {work : Work ε δ α} {left : Option Nat} {db db' : δ} {e : ε}
    (h : work.run left db = (.error e, db')) : db' = db := by
  unfold run at h
  split at h
  · cases h
  · cases h; rfl

theorem run_ok {work : Work ε δ α} {left : Option Nat} {db db' : δ} {a : α}
    (h : work.run left db = (.ok a, db')) : work.Yields db a db' := by
  unfold run at h
  split at h
  · rename_i a₀ s hs
    cases h
    exact ⟨left, s.left, hs⟩
  · cases h

namespace Yields

variable {db db' : δ} {a : α} {b : β}

theorem pure_eq {a' : α} (h : Yields (pure a : Work ε δ α) db a' db') : a' = a ∧ db' = db := by
  obtain ⟨left, left', h⟩ := h
  cases h
  exact ⟨rfl, rfl⟩

theorem bind {x : Work ε δ α} {f : α → Work ε δ β} (h : Yields (x >>= f) db b db') :
    ∃ a db₁, x.Yields db a db₁ ∧ (f a).Yields db₁ b db' := by
  obtain ⟨left, left', h⟩ := h
  have hb : (x >>= f) ⟨db, left⟩ = (x ⟨db, left⟩ >>= fun r => f r.1 r.2) := rfl
  rw [hb, bind_eq_ok] at h
  obtain ⟨⟨a, s⟩, hx, hf⟩ := h
  exact ⟨a, s.db, ⟨left, s.left, hx⟩, s.left, left', hf⟩

theorem check {c : Prop} [Decidable c] {e : ε} {u : Unit}
    (h : Yields (check c e) db u db') : c ∧ db' = db := by
  obtain ⟨left, left', h⟩ := h
  unfold Work.check at h
  split at h
  · rename_i hc
    cases h
    exact ⟨hc, rfl⟩
  · cases h

theorem lift {x : Except ε α} (h : Yields (lift x) db a db') : x = .ok a ∧ db' = db := by
  obtain ⟨left, left', h⟩ := h
  obtain ⟨a', hx, he⟩ := map_eq_ok.mp h
  cases he
  exact ⟨hx, rfl⟩

theorem await {e : ε} {u : Unit} (h : Yields (await e) db u db') : db' = db := by
  obtain ⟨left, left', h⟩ := h
  unfold Work.await at h
  split at h
  · cases h; rfl
  · cases h
  · cases h; rfl

theorem statement {f : δ → Except ε (α × δ)} (h : Yields (statement f) db a db') :
    f db = .ok (a, db') := by
  obtain ⟨left, left', h⟩ := h
  obtain ⟨r, hx, he⟩ := map_eq_ok.mp h
  cases he
  exact hx

theorem check_bind {c : Prop} [Decidable c] {e : ε} {f : Unit → Work ε δ β}
    (h : Yields (Work.check c e >>= f) db b db') : c ∧ (f ()).Yields db b db' := by
  obtain ⟨_, db₁, hc, hf⟩ := h.bind
  obtain ⟨htrue, rfl⟩ := Yields.check hc
  exact ⟨htrue, hf⟩

theorem lift_bind {x : Except ε α} {f : α → Work ε δ β}
    (h : Yields (Work.lift x >>= f) db b db') : ∃ a, x = .ok a ∧ (f a).Yields db b db' := by
  obtain ⟨a, db₁, hx, hf⟩ := h.bind
  obtain ⟨hok, rfl⟩ := Yields.lift hx
  exact ⟨a, hok, hf⟩

theorem require_bind {o : Option α} {e : ε} {f : α → Work ε δ β}
    (h : Yields (Work.require o e >>= f) db b db') : ∃ a, o = some a ∧ (f a).Yields db b db' := by
  unfold Work.require at h
  obtain ⟨a, hx, hf⟩ := h.lift_bind
  split at hx
  · cases hx; exact ⟨a, rfl, hf⟩
  · cases hx

theorem await_bind {e : ε} {f : Unit → Work ε δ β}
    (h : Yields (Work.await e >>= f) db b db') : (f ()).Yields db b db' := by
  obtain ⟨_, db₁, hc, hf⟩ := h.bind
  rw [hc.await] at hf
  exact hf

/-- The rule of a loop: what holds of the elements gone through and the database before a round,
and is kept by each round that returns, holds of all of them at its end. -/
theorem forM {f : α → Work ε δ Unit} {P : List α → δ → Prop} {l : List α} {u : Unit}
    (h : Yields (forM l f) db u db') (h0 : P [] db)
    (hstep : ∀ gone a rest d d', l = gone ++ a :: rest → P gone d → (f a).Yields d () d' →
      P (gone ++ [a]) d') : P l db' := by
  suffices H : ∀ gone rest d, l = gone ++ rest → P gone d → Yields (rest.forM f) d u db' → P l db'
    from H [] l db rfl h0 h
  intro gone rest
  induction rest generalizing gone with
  | nil =>
    intro d hl hP hr
    obtain ⟨-, rfl⟩ := hr.pure_eq
    rwa [hl, List.append_nil]
  | cons a rest ih =>
    intro d hl hP hr
    obtain ⟨_, d₁, h1, hr⟩ := Yields.bind hr
    exact ih (gone ++ [a]) d₁ (by simpa using hl) (hstep gone a rest d d₁ hl hP h1) hr

/-- The rule of a loop that carries a value. -/
theorem foldlM {σ : Type} {f : σ → α → Work ε δ σ} {P : List α → σ → δ → Prop} {l : List α}
    {s s' : σ} (h : Yields (l.foldlM f s) db s' db') (h0 : P [] s db)
    (hstep : ∀ gone a rest s s' d d', l = gone ++ a :: rest → P gone s d →
      (f s a).Yields d s' d' → P (gone ++ [a]) s' d') : P l s' db' := by
  suffices H : ∀ gone rest s d, l = gone ++ rest → P gone s d →
      Yields (rest.foldlM f s) d s' db' → P l s' db' from H [] l s db rfl h0 h
  intro gone rest
  induction rest generalizing gone with
  | nil =>
    intro s d hl hP hr
    rw [List.foldlM_nil] at hr
    obtain ⟨rfl, rfl⟩ := hr.pure_eq
    rwa [hl, List.append_nil]
  | cons a rest ih =>
    intro s d hl hP hr
    rw [List.foldlM_cons] at hr
    obtain ⟨s₁, d₁, h1, hr⟩ := hr.bind
    exact ih (gone ++ [a]) s₁ d₁ (by simpa using hl) (hstep gone a rest s s₁ d d₁ hl hP h1) hr

end Yields

end Work

end KNex.Core
