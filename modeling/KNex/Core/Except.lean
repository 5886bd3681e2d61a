import Mathlib

/-!
# Computations that may throw

The source throws where the model returns `Except.error`. These lemmas take a computation that
returned apart: each bind of it returned, and each element of a traversal did.
-/
namespace KNex.Core

variable {ε α β : Type}

theorem bind_eq_ok {x : Except ε α} {f : α → Except ε β} {b : β} :
    (x >>= f) = .ok b ↔ ∃ a, x = .ok a ∧ f a = .ok b := by
  cases x with
  | error e => simp [bind, Except.bind]
  | ok a => simp [bind, Except.bind]

/-- A check that passed, and what came after it. -/
theorem check_bind_eq_ok {x : Except ε Unit} {f : Unit → Except ε β} {b : β} :
    (x >>= f) = .ok b ↔ x = .ok () ∧ f () = .ok b := by
  rw [bind_eq_ok]
  exact ⟨fun ⟨(), h⟩ => h, fun h => ⟨(), h⟩⟩

theorem map_eq_ok {x : Except ε α} {f : α → β} {b : β} :
    (f <$> x) = .ok b ↔ ∃ a, x = .ok a ∧ f a = b := by
  cases x with
  | error e => simp [Functor.map, Except.map]
  | ok a => simp [Functor.map, Except.map]

/-- `if (condition) throw error;`. -/
def failIf (condition : Prop) [Decidable condition] (error : ε) : Except ε Unit :=
  if condition then .error error else .ok ()

theorem failIf_eq_ok {condition : Prop} [Decidable condition] {error : ε} {u : Unit} :
    failIf condition error = .ok u ↔ ¬ condition := by
  unfold failIf
  split <;> simp [*]

/-- A check that returns what it is given. -/
theorem mapM_eq_ok_of_check {f : α → Except ε α} (hf : ∀ a b, f a = .ok b → b = a) :
    ∀ {l l' : List α}, l.mapM f = .ok l' ↔ l' = l ∧ ∀ a ∈ l, f a = .ok a
  | [], l' => by
    rw [List.mapM_nil, show (pure [] : Except ε (List α)) = .ok [] from rfl]
    simp [eq_comm]
  | a :: l, l' => by
    simp only [List.mapM_cons, bind_eq_ok, mapM_eq_ok_of_check hf, List.forall_mem_cons]
    constructor
    · rintro ⟨b, hb, l'', ⟨rfl, hl⟩, h⟩
      obtain rfl := hf a b hb
      exact ⟨(Except.ok.inj h).symm, hb, hl⟩
    · rintro ⟨rfl, ha, hl⟩
      exact ⟨a, ha, l, ⟨rfl, hl⟩, rfl⟩

/-- A traversal returned when each of its calls did. -/
theorem mapM_eq_ok {f : α → Except ε β} : ∀ {l : List α} {l' : List β},
    l.mapM f = .ok l' ↔ List.Forall₂ (fun a b => f a = .ok b) l l'
  | [], l' => by
    rw [List.mapM_nil, List.forall₂_nil_left_iff]
    exact ⟨fun h => (Except.ok.inj h).symm, fun h => h ▸ rfl⟩
  | a :: l, l' => by
    rw [List.mapM_cons, List.forall₂_cons_left_iff]
    simp only [bind_eq_ok, mapM_eq_ok]
    constructor
    · rintro ⟨b, hb, bs, hbs, heq⟩
      exact ⟨b, bs, hb, hbs, (Except.ok.inj heq).symm⟩
    · rintro ⟨b, bs, hb, hbs, rfl⟩
      exact ⟨b, hb, bs, hbs, rfl⟩

/-- A traversal in another order returns the same in another order. -/
theorem mapM_perm {f : α → Except ε β} {l l' : List α} (h : l.Perm l') : ∀ {bs : List β},
    l.mapM f = .ok bs → ∃ bs', l'.mapM f = .ok bs' ∧ bs.Perm bs' := by
  induction h with
  | nil => exact fun h => ⟨_, h, List.Perm.refl _⟩
  | cons a _ ih =>
    intro bs h
    rw [mapM_eq_ok, List.forall₂_cons_left_iff] at h
    obtain ⟨b, bs₁, hb, hbs, rfl⟩ := h
    obtain ⟨bs', hbs', hperm⟩ := ih (mapM_eq_ok.mpr hbs)
    exact ⟨b :: bs', mapM_eq_ok.mpr (List.Forall₂.cons hb (mapM_eq_ok.mp hbs')), hperm.cons b⟩
  | swap a a' l =>
    intro bs h
    rw [mapM_eq_ok, List.forall₂_cons_left_iff] at h
    obtain ⟨b, bs₁, hb, hbs, rfl⟩ := h
    obtain ⟨b', bs₂, hb', hrest, rfl⟩ := List.forall₂_cons_left_iff.mp hbs
    exact ⟨b' :: b :: bs₂, mapM_eq_ok.mpr (List.Forall₂.cons hb' (List.Forall₂.cons hb hrest)),
      List.Perm.swap b' b bs₂⟩
  | trans _ _ ih ih' =>
    intro bs h
    obtain ⟨bs₁, h₁, hperm⟩ := ih h
    obtain ⟨bs₂, h₂, hperm'⟩ := ih' h₁
    exact ⟨bs₂, h₂, hperm.trans hperm'⟩

/-- A traversal returns when each of its calls does. -/
theorem mapM_isOk {f : α → Except ε β} : ∀ {l : List α}, (∀ a ∈ l, ∃ b, f a = .ok b) →
    ∃ bs, l.mapM f = .ok bs
  | [], _ => ⟨[], rfl⟩
  | a :: l, h => by
    obtain ⟨b, hb⟩ := h a List.mem_cons_self
    obtain ⟨bs, hbs⟩ := mapM_isOk fun a ha => h a (List.mem_cons_of_mem _ ha)
    exact ⟨b :: bs, by rw [List.mapM_cons]; exact bind_eq_ok.mpr ⟨b, hb, bind_eq_ok.mpr
      ⟨bs, hbs, rfl⟩⟩⟩

/-- The rule of a loop that may throw: what holds of the elements gone through and the state
before it, and is kept by each round, holds of all elements and the state after it. -/
theorem foldlM_eq_ok {σ : Type} {f : σ → α → Except ε σ} {P : List α → σ → Prop} {l : List α}
    {s s' : σ} (h : l.foldlM f s = .ok s') (h0 : P [] s)
    (hstep : ∀ gone a rest s s', l = gone ++ a :: rest → P gone s → f s a = .ok s' →
      P (gone ++ [a]) s') : P l s' := by
  suffices H : ∀ gone rest s, l = gone ++ rest → P gone s → rest.foldlM f s = .ok s' → P l s' from
    H [] l s rfl h0 h
  intro gone rest
  induction rest generalizing gone with
  | nil =>
    intro s hl hP hr
    rw [List.foldlM_nil] at hr
    cases hr
    rwa [hl, List.append_nil]
  | cons a rest ih =>
    intro s hl hP hr
    rw [List.foldlM_cons, bind_eq_ok] at hr
    obtain ⟨s₁, h1, hr⟩ := hr
    exact ih (gone ++ [a]) s₁ (by simpa using hl) (hstep gone a rest s s₁ hl hP h1) hr

/-- A loop none of whose rounds throws: the invariant has to give the next round. -/
theorem foldlM_ok {σ : Type} {f : σ → α → Except ε σ} {P : List α → σ → Prop} {l : List α} {s : σ}
    (h0 : P [] s)
    (hstep : ∀ gone a rest s, l = gone ++ a :: rest → P gone s →
      ∃ s', f s a = .ok s' ∧ P (gone ++ [a]) s') : ∃ s', l.foldlM f s = .ok s' ∧ P l s' := by
  suffices H : ∀ gone rest s, l = gone ++ rest → P gone s →
      ∃ s', rest.foldlM f s = .ok s' ∧ P l s' from H [] l s rfl h0
  intro gone rest
  induction rest generalizing gone with
  | nil =>
    intro s hl hP
    rw [List.append_nil] at hl
    rw [hl]
    exact ⟨s, rfl, hP⟩
  | cons a rest ih =>
    intro s hl hP
    obtain ⟨s₁, h1, hP₁⟩ := hstep gone a rest s hl hP
    obtain ⟨s', hr, hP'⟩ := ih (gone ++ [a]) s₁ (by simpa using hl) hP₁
    refine ⟨s', ?_, hP'⟩
    rw [List.foldlM_cons, bind_eq_ok]
    exact ⟨s₁, h1, hr⟩

theorem forM_eq_ok {f : α → Except ε Unit} {l : List α} {u : Unit} :
    forM l f = .ok u ↔ ∀ a ∈ l, f a = .ok () := by
  induction l with
  | nil => simp [pure, Except.pure]
  | cons a l ih =>
    simp only [List.forM_cons, bind_eq_ok, ih, List.forall_mem_cons]
    constructor
    · intro ⟨_, ha, hl⟩
      exact ⟨ha, hl⟩
    · intro ⟨ha, hl⟩
      exact ⟨(), ha, hl⟩

/-- The rule of a loop that does not throw. -/
theorem foldl_rule {σ : Type} {f : σ → α → σ} {P : List α → σ → Prop} {l : List α} {s : σ}
    (h0 : P [] s)
    (hstep : ∀ gone a rest s, l = gone ++ a :: rest → P gone s → P (gone ++ [a]) (f s a)) :
    P l (l.foldl f s) := by
  suffices H : ∀ gone rest s, l = gone ++ rest → P gone s → P l (rest.foldl f s) from
    H [] l s rfl h0
  intro gone rest
  induction rest generalizing gone with
  | nil =>
    intro s hl hP
    rwa [hl, List.append_nil]
  | cons a rest ih =>
    intro s hl hP
    exact ih (gone ++ [a]) (f s a) (by simpa using hl) (hstep gone a rest s hl hP)

/-! ## Errors that do not occur -/

theorem bind_ne_error {x : Except ε α} {f : α → Except ε β} {e : ε} (hx : x ≠ .error e)
    (hf : ∀ a, x = .ok a → f a ≠ .error e) : (x >>= f) ≠ .error e := by
  cases x with
  | error e' => exact fun h => hx (congrArg _ (Except.error.inj h))
  | ok a => exact hf a rfl

theorem failIf_ne_error {condition : Prop} [Decidable condition] {error e : ε} (h : error ≠ e) :
    failIf condition error ≠ .error e := by
  unfold failIf
  split
  · exact fun heq => h (Except.error.inj heq)
  · exact fun heq => by cases heq

theorem mapM_ne_error {f : α → Except ε β} {e : ε} : ∀ {l : List α},
    (∀ a ∈ l, f a ≠ .error e) → l.mapM f ≠ .error e
  | [], _ => fun h => by cases h
  | a :: l, h => by
    rw [List.forall_mem_cons] at h
    rw [List.mapM_cons]
    refine bind_ne_error h.1 fun b _ => bind_ne_error (mapM_ne_error h.2) fun bs _ heq => ?_
    cases heq

theorem forM_ne_error {f : α → Except ε Unit} {e : ε} : ∀ {l : List α},
    (∀ a ∈ l, f a ≠ .error e) → forM l f ≠ .error e
  | [], _ => fun h => by cases h
  | a :: l, h => by
    rw [List.forall_mem_cons] at h
    rw [List.forM_cons]
    exact bind_ne_error h.1 fun _ _ => forM_ne_error h.2

theorem foldlM_ne_error {σ : Type} {f : σ → α → Except ε σ} {e : ε} : ∀ {l : List α} {s : σ},
    (∀ s, ∀ a ∈ l, f s a ≠ .error e) → l.foldlM f s ≠ .error e
  | [], _, _ => fun h => by cases h
  | a :: l, s, h => by
    rw [List.foldlM_cons]
    exact bind_ne_error (h s a List.mem_cons_self) fun _ _ =>
      foldlM_ne_error fun s' a' ha' => h s' a' (List.mem_cons_of_mem _ ha')

end KNex.Core
