import KNex.Editor.EditorSession

/-!
# The editor's clean statuses

`idle`, `saved`, `published` and `rolled-back` tell the user that nothing is unsaved. The law
(`Honest`): in a state with such a status the session is not dirty, has no pending write, and its
document is the one last acknowledged, at `workingCopyRevision`.

`performSave` compares generations before it says `saved`. `publish` and `rollback` check the
session before they call the persistence and do not look again when it answers: a change made in
between is dirty, or already on its way in a save, when the status becomes `published`
(`published_over_change`). `honest_iff_quiet`: every state of a run is honest exactly when each
publication or rollback is confirmed while the session is not dirty.
-/
namespace KNex.Editor

open KNex.Core

/-! ## The law -/

variable {δ : Type}

/-- The statuses that say that nothing is unsaved. -/
def Status.clean : Status → Bool
  | .idle | .saved | .published | .rolledBack => true
  | _ => false

structure NothingUnsaved (s : Session δ) : Prop where
  dirty : s.dirty = false
  pending : s.pending = none
  document : s.document = s.acknowledged.document
  revision : s.workingCopyRevision = s.acknowledged.revision

def Honest (s : Session δ) : Prop := s.status.clean = true → NothingUnsaved s

def lts (o : Options δ) (copy : WorkingCopy δ) : LTS (Session δ) (Ev δ) :=
  .ofFn (fun s => openSession o copy = some s) (step o)

/-- A publication or rollback is confirmed while the session is not dirty. -/
def Quiet (s : Session δ) (e : Ev δ) (_ : Session δ) : Prop :=
  match e with
  | .publicationSettled _ true => s.dirty = false
  | _ => True

/-! ## Steps -/

/-- A clean status, and not dirty. -/
def CleanNotDirty (s : Session δ) : Prop := s.status.clean = true → s.dirty = false

variable {o : Options δ} {s s' : Session δ}

/-- Once the session is not dirty there is nothing pending, and its document is acknowledged. -/
theorem Inv.honest_iff (hI : Inv o s) : Honest s ↔ CleanNotDirty s := by
  constructor
  · intro h hc
    exact (h hc).dirty
  · intro h hc
    have hd := h hc
    refine ⟨hd, ?_, (hI.clean hd).1, (hI.clean hd).2⟩
    cases hp : s.pending with
    | none => rfl
    | some p =>
      have := hI.dirty (by rw [hp]; rfl)
      rw [hd] at this
      cases this

theorem cleanNotDirty_settle {p : PendingSave δ} {result : Option (SaveResult δ)}
    (h : CleanNotDirty s) (hs : Settled o s p result s') : CleanNotDirty s' := by
  have hkept : ∀ status, (status = .error ∨ s.closed = true ∧ status = s.status) →
      status.clean = true → s.dirty = false := by
    intro status hor hc
    rcases hor with rfl | ⟨-, rfl⟩
    · cases hc
    · exact h hc
  cases hs with
  | failed _ status timer hstatus => exact hkept status hstatus
  | conflict hvalid _ => nofun
  | threw _ _ status timer hstatus => exact hkept status hstatus
  | behind _ _ _ => nofun
  | saved _ _ => exact fun _ => rfl

theorem cleanNotDirty_step {e : Ev δ} (hC : CleanNotDirty s) (h : step o s e = some s')
    (hq : Quiet s e s') : CleanNotDirty s' := by
  cases step_effect h with
  | rest _ _ _ _ _ hstatus =>
    intro hc
    rcases hstatus with rfl | rfl | ⟨task, rfl⟩
    · exact hC hc
    · cases hc
    · exact hq
  | change value document => nofun
  | save => nofun
  | call _ _ _ _ _ hstatus =>
    intro hc
    rcases hstatus with rfl | rfl <;> cases hc
  | reload hconflict => exact fun _ => rfl
  | settled hfind hset => exact cleanNotDirty_settle (s := withoutSave s _) hC hset

/-- A confirmed publication or rollback has a clean status, dirty or not. -/
theorem quiet_of_cleanNotDirty {e : Ev δ} (h : step o s e = some s') (hC : CleanNotDirty s') :
    Quiet s e s' := by
  unfold Quiet
  split
  · rename_i task
    simp only [step] at h
    split at h
    · cases h
      exact hC rfl
    · cases h
      exact hC rfl
    · cases h
  · trivial

/-- **A clean status covers no unsaved work**, in all states of a run exactly when every
publication and rollback of the run is confirmed while the session is not dirty. -/
theorem honest_iff_quiet (o : Options δ) (copy : WorkingCopy δ) (start : Session δ)
    (hstart : openSession o copy = some start) (es : List (Ev δ)) (s : Session δ) :
    ((lts o copy).guard fun _ _ s' => Honest s').Run start es s ↔
      ((lts o copy).guard Quiet).Run start es s := by
  have hpres : ∀ s e s', (Inv o s ∧ CleanNotDirty s) → (lts o copy).step s e s' →
      Quiet s e s' → Inv o s' ∧ CleanNotDirty s' :=
    fun _ _ _ hI hs hq => ⟨inv_step hI.1 hs, cleanNotDirty_step hI.2 hs hq⟩
  have hiff : ∀ s e s', (Inv o s ∧ CleanNotDirty s) → (lts o copy).step s e s' →
      (Honest s' ↔ Quiet s e s') := by
    intro s e s' hI hs
    rw [(inv_step hI.1 hs).honest_iff]
    exact ⟨quiet_of_cleanNotDirty hs, cleanNotDirty_step hI.2 hs⟩
  refine LTS.guard_run_iff hpres hiff ⟨inv_open hstart, fun _ => ?_⟩
  simp only [openSession, Option.map_eq_some_iff] at hstart
  obtain ⟨document, -, rfl⟩ := hstart
  rfl

/-! ## A change while a publication runs -/

/-- Documents are a version and a text; the profile takes every one. -/
def exampleOptions : Options (Int × String) where
  profile := {
    parse := some
    withVersion := fun d revision => (revision, d.2)
    toPuckData := fun _ => true
    validateChange := fun _ next => some next
    validateDocument := fun _ => true
    canonicalJson := Prod.snd }
  editorSessionId := "editor-1"
  issueIdempotencyKey operation sequence :=
    match operation with
    | .autosave => "autosave-" ++ toString sequence
    | .publish => "publish-" ++ toString sequence
    | .rollback => "rollback-" ++ toString sequence

def exampleCopy : WorkingCopy (Int × String) := ⟨1, (1, "first")⟩

theorem honest_iff_quiet_example : ∃ start s, openSession exampleOptions exampleCopy = some start ∧
    ((lts exampleOptions exampleCopy).guard fun _ _ s' => Honest s').Run start
      [.change (1, "second"), .flush, .saveSettled 0 (some (.saved ⟨2, (2, "second")⟩)), .publish,
        .resume 1, .publicationSettled 1 true] s := by
  refine ⟨_, _, rfl, (honest_iff_quiet exampleOptions exampleCopy _ rfl _ _).mpr
    (.cons ⟨rfl, trivial⟩ (.cons ⟨rfl, trivial⟩ (.cons ⟨rfl, trivial⟩ (.cons ⟨rfl, trivial⟩
      (.cons ⟨rfl, trivial⟩ (.cons ⟨rfl, rfl⟩ (.nil _)))))))⟩

/-- The page changes while it is published; the answer sets the status to `published`. -/
theorem published_over_change : ∃ start es s, openSession exampleOptions exampleCopy = some start ∧
    (lts exampleOptions exampleCopy).Run start es s ∧ ¬ Honest s := by
  refine ⟨_, [.publish, .resume 0, .change (1, "second"), .publicationSettled 0 true], _, rfl,
    .cons rfl (.cons rfl (.cons rfl (.cons rfl (.nil _)))), fun h => ?_⟩
  have hdirty := (h rfl).dirty
  cases hdirty

end KNex.Editor
