import KNex.Ui.RemoteUiSessions

/-!
# `RemoteUiGenerationSessions`: drains

When another generation of an owner becomes active, the sessions of the one before it stay until its
drain runs out; several generations may drain at once, and each may become active again.

`generation_drain`: in every reachable state a live session belongs to the active generation of its
owner or to one that drains, and a drain is one of a generation that is not active (`Drained`). A
drain that runs out leaves no live session, nor does any run after it that does not observe the
generation as active again; a drain that was cancelled does nothing when its timer comes. Every step
keeps the revisions of observations, opens sessions of active generations only, ends everything of
an owner that is withdrawn, and cancels the drain of a generation that becomes active, and no other
(`DrainStep`).

A revocation at or below the last one, or below the admission, is ignored, and what is live stays
(`ignored_revocation`).
-/
namespace KNex.Ui.RemoteUiSessions

open KNex.Core KNex.Contracts

abbrev RemoteUiGenerationSnapshot.ownerKey (a : RemoteUiGenerationSnapshot) : String :=
  remoteUiGenerationOwnerKey a.toRemoteUiGenerationOwner

abbrev RemoteUiGenerationSnapshot.key (a : RemoteUiGenerationSnapshot) : String :=
  remoteUiGenerationKey a.toRemoteUiGenerationOwner a.generationId

abbrev RemoteUiHostSession.ownerKey (x : RemoteUiHostSession) : String :=
  remoteUiGenerationOwnerKey x.toRemoteUiGenerationOwner

/-! ## The law -/

/-- The session is one of the generation. -/
def RemoteUiHostSession.Of (x : RemoteUiHostSession) (owner : RemoteUiGenerationOwner)
    (generationId : String) : Prop :=
  x.toRemoteUiGenerationOwner = owner ∧ x.generationId = generationId

/-- The drain of the generation is the one of the timer, and still pending. -/
def Draining (s : St) (k : Nat) (snapshot : RemoteUiGenerationSnapshot) : Prop :=
  s.timers[k]? = some snapshot ∧ s.pendingRetirements.get? snapshot.key = some k

/-- The event observes the generation as active. -/
def Reactivates (snapshot : RemoteUiGenerationSnapshot) (ev : Ev) : Prop :=
  ∃ again drainMs, ev = .observe again drainMs ∧ again.disposition = .active ∧
    again.toRemoteUiGenerationOwner = snapshot.toRemoteUiGenerationOwner ∧
    again.generationId = snapshot.generationId

structure Drained (s : St) : Prop where
  live : ∀ x ∈ s.objects, x.closed = false → ∃ a, s.active.get? x.ownerKey = some a ∧
    (x.Of a.toRemoteUiGenerationOwner a.generationId ∨
      ∃ k snapshot, Draining s k snapshot ∧
        x.Of snapshot.toRemoteUiGenerationOwner snapshot.generationId)
  superseded : ∀ key k, s.pendingRetirements.get? key = some k → ∃ snapshot a,
    snapshot.key = key ∧ Draining s k snapshot ∧ s.active.get? snapshot.ownerKey = some a ∧
      a.toRemoteUiGenerationOwner = snapshot.toRemoteUiGenerationOwner ∧
      a.generationId ≠ snapshot.generationId
  /-- After a drain ran out. -/
  stays : ∀ k snapshot, Draining s k snapshot → ∀ evs s', lts.Run s (.timer k :: evs) s' →
    (∀ ev ∈ evs, ¬ Reactivates snapshot ev) →
    ∀ x ∈ s'.objects, x.Of snapshot.toRemoteUiGenerationOwner snapshot.generationId →
      x.closed = true
  /-- After a drain was cancelled. -/
  cancelled : ∀ k snapshot, s.timers[k]? = some snapshot → ¬ Draining s k snapshot →
    ∀ evs s', lts.Run s evs s' → step s' (.timer k) = some s'

/-- The event takes the owner's generations away: an observation that is accepted, or a revocation
that is not ignored. -/
inductive Withdraws (s : St) (owner : RemoteUiGenerationOwner) : Ev → Prop
  | observed (snapshot : RemoteUiGenerationSnapshot) (drainMs : Int) (s' : St)
      (accepted : observe s snapshot drainMs = .ok s') (inactive : snapshot.disposition ≠ .active)
      (same : snapshot.toRemoteUiGenerationOwner = owner) :
      Withdraws s owner (.observe snapshot drainMs)
  | revoked (invalidation : RemoteUiAuthorizationInvalidation)
      (valid : remoteUiAuthorizationInvalidation invalidation = .ok invalidation)
      (counts : ¬ s.ignores invalidation)
      (same : invalidation.toRemoteUiAuthorizationScope = owner.toRemoteUiAuthorizationScope) :
      Withdraws s owner (.revoke invalidation)

structure DrainStep (s : St) (ev : Ev) (s' : St) : Prop where
  observed : ∀ k o, s.observed.get? k = some o →
    ∃ o', s'.observed.get? k = some o' ∧ o.revision ≤ o'.revision
  opened : ∀ (i : Nat) x, s.objects[i]? = none → s'.objects[i]? = some x →
    ∃ a, s.active.get? x.ownerKey = some a ∧ a.disposition = .active ∧
      x.Of a.toRemoteUiGenerationOwner a.generationId ∧ x.artifactDigest = a.artifactDigest
  drained : ∀ k snapshot, ev = .timer k → Draining s k snapshot →
    ∀ x ∈ s'.objects, x.Of snapshot.toRemoteUiGenerationOwner snapshot.generationId →
      x.closed = true
  withdrawn : ∀ owner, ownerOk owner = true → Withdraws s owner ev →
    (∀ x ∈ s'.objects, x.toRemoteUiGenerationOwner = owner → x.closed = true) ∧
      ∀ k snapshot, Draining s' k snapshot → snapshot.toRemoteUiGenerationOwner ≠ owner
  rollback : ∀ snapshot drainMs k, ev = .observe snapshot drainMs →
    observe s snapshot drainMs = .ok s' → snapshot.disposition = .active →
    s.pendingRetirements.get? snapshot.key = some k →
    s'.pendingRetirements.get? snapshot.key = none ∧
      (∀ key j, key ≠ snapshot.key → s.pendingRetirements.get? key = some j →
        s'.pendingRetirements.get? key = some j) ∧ s'.objects = s.objects

/-! ## Keys -/

def Valid (owner : RemoteUiGenerationOwner) (generationId : String) : Prop :=
  ownerOk owner = true ∧ validRecordId generationId = true

theorem owner_ext {owner owner' : RemoteUiGenerationOwner}
    (h : [owner.applicationId, owner.environment, owner.appId] =
      [owner'.applicationId, owner'.environment, owner'.appId]) : owner = owner' := by
  simp only [List.cons.injEq, and_true] at h
  obtain ⟨⟨a, b⟩, c⟩ := owner
  obtain ⟨⟨a', b'⟩, c'⟩ := owner'
  dsimp only at h
  obtain ⟨rfl, rfl, rfl⟩ := h
  rfl

theorem ownerKey_injective {owner owner' : RemoteUiGenerationOwner} (h : ownerOk owner = true)
    (h' : ownerOk owner' = true)
    (heq : remoteUiGenerationOwnerKey owner = remoteUiGenerationOwnerKey owner') :
    owner = owner' :=
  owner_ext (joinNul_injective rfl (owner_nulFree h) (owner_nulFree h') heq)

theorem generation_nulFree {owner : RemoteUiGenerationOwner} {generationId : String}
    (h : Valid owner generationId) :
    ∀ a ∈ [owner.applicationId, owner.environment, owner.appId, generationId], NulFree a := by
  have hs := owner_nulFree h.1
  simp only [List.forall_mem_cons] at hs ⊢
  exact ⟨hs.1, hs.2.1, hs.2.2.1, runtimeGenerationIdOk_nulFree h.2, fun a ha => by cases ha⟩

theorem generationKey_injective {owner owner' : RemoteUiGenerationOwner} {g g' : String}
    (h : Valid owner g) (h' : Valid owner' g')
    (heq : remoteUiGenerationKey owner g = remoteUiGenerationKey owner' g') :
    owner = owner' ∧ g = g' := by
  have hl := joinNul_injective (l := [owner.applicationId, owner.environment, owner.appId, g])
    (m := [owner'.applicationId, owner'.environment, owner'.appId, g']) rfl (generation_nulFree h)
    (generation_nulFree h') heq
  simp only [List.cons.injEq, and_true] at hl
  obtain ⟨h1, h2, h3, h4⟩ := hl
  exact ⟨owner_ext (by rw [h1, h2, h3]), h4⟩

theorem generationKey_below_owner {owner owner' : RemoteUiGenerationOwner} {g : String}
    (h : ownerOk owner = true) (h' : Valid owner' g) :
    below (remoteUiGenerationOwnerKey owner) (remoteUiGenerationKey owner' g) = true ↔
      owner = owner' := by
  unfold below remoteUiGenerationOwnerKey remoteUiGenerationKey
  rw [startsWith_joinNul (by simp) (by simp) (owner_nulFree h) (generation_nulFree h')]
  constructor
  · intro hp
    rw [List.prefix_iff_eq_take] at hp
    exact owner_ext hp
  · intro he
    subst he
    exact ⟨[g], rfl⟩

/-! ## The invariant -/

structure Tied (s : St) : Prop where
  observed : ∀ k o, s.observed.get? k = some o →
    k = o.ownerKey ∧ Valid o.toRemoteUiGenerationOwner o.generationId
  active : ∀ k a, s.active.get? k = some a → s.observed.get? k = some a ∧
    a.disposition = .active ∧
    (s.admissions.get? (remoteUiAuthorizationScopeKey a.toRemoteUiAuthorizationScope)).isSome
  draining : ∀ key k, s.pendingRetirements.get? key = some k → ∃ snapshot a,
    s.timers[k]? = some snapshot ∧ key = snapshot.key ∧
      Valid snapshot.toRemoteUiGenerationOwner snapshot.generationId ∧
      s.active.get? snapshot.ownerKey = some a ∧ a.generationId ≠ snapshot.generationId
  registered : Registered s
  live : ∀ x ∈ s.objects, x.closed = false → Valid x.toRemoteUiGenerationOwner x.generationId ∧
    ∃ a, s.active.get? x.ownerKey = some a ∧
      (a.generationId = x.generationId ∨ (s.pendingRetirements.get? x.key).isSome)

theorem tied_init : Tied init := by
  refine ⟨nofun, nofun, nofun, nofun, nofun⟩

/-- The active generation of an owner is the observed one. -/
theorem Tied.activeOwner (h : Tied s) {owner : RemoteUiGenerationOwner}
    {a : RemoteUiGenerationSnapshot} (ho : ownerOk owner = true)
    (ha : s.active.get? (remoteUiGenerationOwnerKey owner) = some a) :
    a.toRemoteUiGenerationOwner = owner ∧ Valid owner a.generationId := by
  obtain ⟨hobs, -, -⟩ := h.active _ a ha
  obtain ⟨hkey, hv⟩ := h.observed _ a hobs
  have he := ownerKey_injective ho hv.1 hkey
  subst he
  exact ⟨rfl, hv⟩

/-- No session of the generation is live unless it is active or drains. -/
theorem Tied.closed (h : Tied s) {owner : RemoteUiGenerationOwner} {g : String}
    (ha : ∀ a, s.active.get? (remoteUiGenerationOwnerKey owner) = some a → a.generationId ≠ g)
    (hp : s.pendingRetirements.get? (remoteUiGenerationKey owner g) = none) :
    ∀ x ∈ s.objects, x.Of owner g → x.closed = true := by
  intro x hx hof
  obtain ⟨rfl, rfl⟩ := hof
  by_contra hl
  rw [Bool.not_eq_true] at hl
  obtain ⟨-, a, hact, hgen | hpend⟩ := h.live x hx hl
  · exact ha a hact hgen
  · unfold RemoteUiHostSession.key at hpend
    rw [hp] at hpend
    cases hpend

/-- Without an active generation nothing of the owner is live or drains. -/
theorem Tied.none_of_inactive (h : Tied s) {owner : RemoteUiGenerationOwner}
    (ha : s.active.get? (remoteUiGenerationOwnerKey owner) = none) :
    (∀ x ∈ s.objects, x.toRemoteUiGenerationOwner = owner → x.closed = true) ∧
      ∀ k snapshot, Draining s k snapshot → snapshot.toRemoteUiGenerationOwner ≠ owner := by
  constructor
  · intro x hx he
    subst he
    by_contra hl
    rw [Bool.not_eq_true] at hl
    obtain ⟨-, a, hact, -⟩ := h.live x hx hl
    rw [ha] at hact
    cases hact
  · intro k snapshot ⟨ht, hp⟩ he
    subst he
    obtain ⟨snapshot', a, ht', -, -, hact, -⟩ := h.draining _ k hp
    rw [ht] at ht'
    cases ht'
    rw [ha] at hact
    cases hact

/-! ## Steps -/

/-- The sessions whose keys are in `p` end, and their drains are dropped; the active generations
change under these keys only. -/
theorem tied_cut (h : Tied s) (p : String → Bool) (hobjects : s'.objects = (dropSessions s p).objects)
    (hsessions : s'.sessions = (dropSessions s p).sessions) (htimers : s'.timers = s.timers)
    (hpending : ∀ key, s'.pendingRetirements.get? key =
      if p key then none else s.pendingRetirements.get? key)
    (hobserved : ∀ k o, s'.observed.get? k = some o →
      k = o.ownerKey ∧ Valid o.toRemoteUiGenerationOwner o.generationId)
    (hactive : ∀ k a, s'.active.get? k = some a → s'.observed.get? k = some a ∧
      a.disposition = .active ∧
      (s'.admissions.get? (remoteUiAuthorizationScopeKey a.toRemoteUiAuthorizationScope)).isSome)
    (hkeep : ∀ owner g, Valid owner g → p (remoteUiGenerationKey owner g) = false →
      s'.active.get? (remoteUiGenerationOwnerKey owner) =
        s.active.get? (remoteUiGenerationOwnerKey owner)) : Tied s' := by
  refine ⟨hobserved, hactive, fun key k hk => ?_, fun i x hx hl => ?_, fun x hx hl => ?_⟩
  · rw [hpending] at hk
    split at hk
    · cases hk
    · rename_i hp
      obtain ⟨snapshot, a, ht, hkey, hv, hact, hne⟩ := h.draining key k hk
      rw [Bool.not_eq_true, hkey] at hp
      exact ⟨snapshot, a, htimers ▸ ht, hkey, hv, (hkeep _ _ hv hp).trans hact, hne⟩
  · rw [hobjects] at hx
    rw [hsessions]
    exact registered_drop h.registered p i x hx hl
  · rw [hobjects] at hx
    obtain ⟨hold, hp⟩ := live_drop_mem h.registered hx hl
    obtain ⟨hv, a, hact, hor⟩ := h.live x hold hl
    refine ⟨hv, a, (hkeep _ _ hv hp).trans hact, ?_⟩
    rw [hpending, if_neg (by rw [hp]; exact Bool.false_ne_true)]
    exact hor

theorem tied_retireKey (h : Tied s) (key : String) : Tied (retireKey s key).2 := by
  refine tied_cut h (· = key) rfl rfl rfl (fun k => ?_) h.observed h.active fun _ _ _ _ => rfl
  show (s.pendingRetirements.delete key).get? k = _
  rw [JsMap.get?_delete]
  simp only [decide_eq_true_eq]

/-- The timer of a drain that is not pending does nothing. -/
theorem expire_of_not_draining {k : Nat} {snapshot : RemoteUiGenerationSnapshot}
    (ht : s.timers[k]? = some snapshot) (hd : ¬ Draining s k snapshot) :
    expire s k snapshot = s := by
  unfold expire
  dsimp only
  rw [if_pos fun hp => hd ⟨ht, hp⟩]

/-- A drain that runs out is one of a generation that is not active. -/
theorem expire_of_draining (h : Tied s) {k : Nat} {snapshot : RemoteUiGenerationSnapshot}
    (hd : Draining s k snapshot) : expire s k snapshot =
      (retireKey { s with pendingRetirements := s.pendingRetirements.delete snapshot.key }
        snapshot.key).2 := by
  obtain ⟨snapshot', a, ht, -, -, ha, hne⟩ := h.draining _ k hd.2
  rw [hd.1] at ht
  cases ht
  unfold expire
  dsimp only
  rw [if_neg (not_not_intro hd.2), ha, if_pos]
  intro he
  exact hne (Option.some.inj he)

theorem tied_expire (h : Tied s) {k : Nat} {snapshot : RemoteUiGenerationSnapshot}
    (ht : s.timers[k]? = some snapshot) : Tied (expire s k snapshot) := by
  by_cases hd : Draining s k snapshot
  · rw [expire_of_draining h hd]
    refine tied_cut h (· = snapshot.key) rfl rfl rfl (fun key => ?_) h.observed h.active
      fun _ _ _ _ => rfl
    show ((s.pendingRetirements.delete snapshot.key).delete snapshot.key).get? key = _
    rw [JsMap.get?_delete, JsMap.get?_delete]
    simp only [decide_eq_true_eq]
    split <;> rfl
  · rw [expire_of_not_draining ht hd]
    exact h

theorem tied_dispose (h : Tied s) (i : Nat) (x : RemoteUiHostSession) : Tied (dispose s i x) := by
  have hreg := registered_dispose h.registered i x
  have live : ∀ {y : RemoteUiHostSession}, y ∈ (dispose s i x).objects → y.closed = false →
      y ∈ s.objects := by
    intro y hy hl
    obtain ⟨j, hj⟩ := List.getElem?_of_mem hy
    exact List.mem_of_getElem? (live_dispose hj hl)
  obtain ⟨sessions, objects, heq⟩ := dispose_rest s i x
  rw [heq] at hreg live ⊢
  exact ⟨h.observed, h.active, h.draining, hreg, fun y hy hl => h.live y (live hy hl) hl⟩

theorem tied_register (h : Tied s) {a : RemoteUiGenerationSnapshot}
    (request : RemoteUiSessionRequest) (presentation : RemoteUiHostPresentation)
    (ha : s.active.get? a.ownerKey = some a) : Tied (register s a request presentation) := by
  refine ⟨h.observed, h.active, h.draining,
    registered_register h.registered a request presentation, fun x hx hl => ?_⟩
  rcases List.mem_append.mp hx with hx | hx
  · exact h.live x hx hl
  · rw [List.mem_singleton.mp hx]
    exact ⟨(h.observed _ a (h.active _ a ha).1).2, a, ha, .inl rfl⟩

/-- What `reopen` leaves: the active generations, and the observed ones of the scope. -/
theorem reopen_keeps {scopeKey k : String} {a : RemoteUiGenerationSnapshot} :
    ∀ {entries : List (String × RemoteUiGenerationSnapshot)}
      {active : JsMap String RemoteUiGenerationSnapshot},
      (∀ e ∈ entries, e.1 = k → e.2 = a) → active.get? k = some a →
      (reopen scopeKey active entries).get? k = some a
  | [], active, _, ha => ha
  | (ownerKey, snapshot) :: entries, active, he, ha => by
    have hrest := fun e hm => he e (List.mem_cons_of_mem _ hm)
    unfold reopen
    split
    · refine reopen_keeps hrest ?_
      rw [JsMap.get?_set]
      split
      · rename_i heq
        exact congrArg some (he _ List.mem_cons_self heq.symm)
      · exact ha
    · exact reopen_keeps hrest ha

theorem tied_admit (h : Tied s) {admission : RemoteUiAuthorizationAdmission}
    (hscope : scopeOk admission.toRemoteUiAuthorizationScope = true)
    (hs : admitParsed s admission = .ok s') : Tied s' := by
  unfold admitParsed at hs
  dsimp only at hs
  split at hs
  · cases hs
  split at hs
  · cases hs
  split at hs
  · split at hs
    · obtain rfl := Except.ok.inj hs
      exact h
    · cases hs
  obtain rfl := Except.ok.inj hs
  have hkeep : ∀ k a, s.active.get? k = some a → (reopen (remoteUiAuthorizationScopeKey
      admission.toRemoteUiAuthorizationScope) s.active s.observed.entries).get? k = some a := by
    intro k a ha
    refine reopen_keeps (fun e he hk => ?_) ha
    -- what is active is what was observed
    have hobs := (h.active k a ha).1
    have hget := JsMap.get?_eq_some.mpr he
    subst hk
    rw [hobs] at hget
    exact (Option.some.inj hget).symm
  have some_set : ∀ {k : String}, (s.admissions.get? k).isSome → ((s.admissions.set
      (remoteUiAuthorizationScopeKey admission.toRemoteUiAuthorizationScope) admission).get?
        k).isSome := by
    intro k hk
    rw [JsMap.get?_set]
    split
    · rfl
    · exact hk
  refine ⟨h.observed, ?_, fun key k hk => ?_, h.registered, fun x hx hl => ?_⟩
  · refine reopen_get? (fun k a hk => ?_) fun e he hb hd => ?_
    · obtain ⟨hobs, hd, hadm⟩ := h.active k a hk
      exact ⟨hobs, hd, some_set hadm⟩
    · have hobs := JsMap.get?_eq_some.mpr he
      obtain ⟨hkey, hv⟩ := h.observed e.1 e.2 hobs
      rw [hkey, ownerKey_below hscope hv.1] at hb
      refine ⟨hobs, hd, ?_⟩
      rw [← hb, JsMap.get?_set_self]
      rfl
  · obtain ⟨snapshot, a, ht, hkey, hv, ha, hne⟩ := h.draining key k hk
    exact ⟨snapshot, a, ht, hkey, hv, hkeep _ a ha, hne⟩
  · obtain ⟨hv, a, ha, hor⟩ := h.live x hx hl
    exact ⟨hv, a, hkeep _ a ha, hor⟩

theorem scopeOk_of_ownerOk {owner : RemoteUiGenerationOwner} (h : ownerOk owner = true) :
    scopeOk owner.toRemoteUiAuthorizationScope = true := by
  unfold ownerOk at h
  rw [Bool.and_eq_true] at h
  exact h.1

/-- A revocation that counts ends every session of its scope. -/
theorem tied_withdraw (h : Tied s) {i : RemoteUiAuthorizationInvalidation}
    (hscope : scopeOk i.toRemoteUiAuthorizationScope = true) : Tied (withdraw s i).2 := by
  have hactive : ∀ k, (withdraw s i).2.active.get? k = (s.active.get? k).filter fun _ =>
      !below (remoteUiAuthorizationScopeKey i.toRemoteUiAuthorizationScope) k := by
    intro k
    exact JsMap.get?_filter _ _ _
  refine tied_cut h (below (remoteUiAuthorizationScopeKey i.toRemoteUiAuthorizationScope)) rfl rfl
    rfl (fun key => ?_) h.observed (fun k a hk => ?_) fun owner g hv hp => ?_
  · show (s.pendingRetirements.filter _).get? key = _
    rw [JsMap.get?_filter]
    cases below (remoteUiAuthorizationScopeKey i.toRemoteUiAuthorizationScope) key <;>
      cases s.pendingRetirements.get? key <;> rfl
  · rw [hactive, Option.filter_eq_some_iff] at hk
    obtain ⟨hk, hb⟩ := hk
    obtain ⟨hobs, hd, hadm⟩ := h.active k a hk
    obtain ⟨hkey, hv⟩ := h.observed k a hobs
    refine ⟨hobs, hd, ?_⟩
    show ((s.admissions.delete _).get? _).isSome = true
    rw [JsMap.get?_delete, if_neg]
    · exact hadm
    · intro he
      have hsame := scopeKey_injective (scopeOk_of_ownerOk hv.1) hscope he
      rw [hkey, (ownerKey_below hscope hv.1).mpr hsame.symm] at hb
      cases hb
  · have hne : i.toRemoteUiAuthorizationScope ≠ owner.toRemoteUiAuthorizationScope := by
      intro he
      rw [(generationKey_below hscope hv.1 hv.2).mpr he] at hp
      cases hp
    have hb : below (remoteUiAuthorizationScopeKey i.toRemoteUiAuthorizationScope)
        (remoteUiGenerationOwnerKey owner) = false := by
      by_contra hb
      rw [Bool.not_eq_false, ownerKey_below hscope hv.1] at hb
      exact hne hb
    rw [hactive, hb]
    cases s.active.get? (remoteUiGenerationOwnerKey owner) <;> rfl

/-! ## Observations -/

/-- The observation is recorded. -/
def St.recorded (s : St) (snapshot : RemoteUiGenerationSnapshot) : St :=
  { s with observed := s.observed.set snapshot.ownerKey snapshot }

/-- The generation becomes active, and its drain is cancelled. -/
def St.advanced (s : St) (snapshot : RemoteUiGenerationSnapshot) : St :=
  { s.recorded snapshot with
    active := s.active.set snapshot.ownerKey snapshot
    pendingRetirements := s.pendingRetirements.delete snapshot.key }

theorem advanced_pending (s : St) (snapshot : RemoteUiGenerationSnapshot) (key : String) :
    (s.advanced snapshot).pendingRetirements.get? key =
      if key = snapshot.key then none else s.pendingRetirements.get? key :=
  JsMap.get?_delete _ _ _

/-- What an accepted observation does. -/
inductive Observed (s : St) (snapshot : RemoteUiGenerationSnapshot) : St → Prop
  | same (seen : s.observed.get? snapshot.ownerKey = some snapshot) : Observed s snapshot s
  | inactive (disposition : snapshot.disposition ≠ .active) :
      Observed s snapshot (disposeOwner
        { s.recorded snapshot with active := s.active.delete snapshot.ownerKey }
        snapshot.toRemoteUiGenerationOwner)
  | unadmitted (disposition : snapshot.disposition = .active)
      (admission : s.admissions.get? (remoteUiAuthorizationScopeKey
        snapshot.toRemoteUiAuthorizationScope) = none) :
      Observed s snapshot (s.recorded snapshot)
  | advanced (disposition : snapshot.disposition = .active)
      (admission : (s.admissions.get? (remoteUiAuthorizationScopeKey
        snapshot.toRemoteUiAuthorizationScope)).isSome)
      (active : ∀ a, s.active.get? snapshot.ownerKey = some a →
        a.generationId = snapshot.generationId) : Observed s snapshot (s.advanced snapshot)
  | superseded (a : RemoteUiGenerationSnapshot) (disposition : snapshot.disposition = .active)
      (admission : (s.admissions.get? (remoteUiAuthorizationScopeKey
        snapshot.toRemoteUiAuthorizationScope)).isSome)
      (active : s.active.get? snapshot.ownerKey = some a)
      (other : a.generationId ≠ snapshot.generationId) :
      Observed s snapshot (drain (s.advanced snapshot) a)

theorem observeSnapshot_cases {snapshot : RemoteUiGenerationSnapshot} {drainMs : Int}
    (hs : observeSnapshot s snapshot drainMs = .ok s') : Observed s snapshot s' ∧
      ∀ o, s.observed.get? snapshot.ownerKey = some o → o.revision ≤ snapshot.revision := by
  unfold observeSnapshot at hs
  dsimp only at hs
  split at hs
  · cases hs
  split at hs
  · cases hs
  rename_i hlow
  have hrev : ∀ o, s.observed.get? snapshot.ownerKey = some o → o.revision ≤ snapshot.revision := by
    intro o ho
    by_contra hlt
    exact hlow ⟨o, ho, by omega⟩
  refine ⟨?_, hrev⟩
  split at hs
  · split at hs
    · rename_i hsame
      obtain rfl := Except.ok.inj hs
      exact .same hsame
    · cases hs
  split at hs
  · cases hs
  split at hs
  · rename_i hd
    obtain rfl := Except.ok.inj hs
    exact .inactive hd
  rename_i hd
  rw [Decidable.not_not] at hd
  split at hs
  · rename_i hadm
    obtain rfl := Except.ok.inj hs
    exact .unadmitted hd (by simpa using hadm)
  rename_i hadm
  have hadm : (s.admissions.get? (remoteUiAuthorizationScopeKey
      snapshot.toRemoteUiAuthorizationScope)).isSome := by
    simpa [Option.isSome_iff_ne_none] using hadm
  split at hs
  · rename_i a ha
    split at hs
    · rename_i hne
      obtain rfl := Except.ok.inj hs
      exact .superseded a hd hadm ha hne
    · rename_i hsame
      obtain rfl := Except.ok.inj hs
      refine .advanced hd hadm fun a' ha' => ?_
      rw [ha] at ha'
      cases ha'
      exact Decidable.not_not.mp hsame
  · rename_i ha
    obtain rfl := Except.ok.inj hs
    refine .advanced hd hadm fun a' ha' => ?_
    rw [ha] at ha'
    cases ha'

/-- The lookups of the owner keys after one was set. -/
theorem get?_set_owner {m : JsMap String RemoteUiGenerationSnapshot}
    {snapshot : RemoteUiGenerationSnapshot} {owner : RemoteUiGenerationOwner}
    (h : ownerOk snapshot.toRemoteUiGenerationOwner = true) (ho : ownerOk owner = true) :
    (m.set snapshot.ownerKey snapshot).get? (remoteUiGenerationOwnerKey owner) =
      if owner = snapshot.toRemoteUiGenerationOwner then some snapshot
      else m.get? (remoteUiGenerationOwnerKey owner) := by
  rw [JsMap.get?_set]
  by_cases he : owner = snapshot.toRemoteUiGenerationOwner
  · subst he
    rw [if_pos rfl, if_pos rfl]
  · rw [if_neg he, if_neg fun hk => he (ownerKey_injective ho h hk)]

section Observations

variable {snapshot : RemoteUiGenerationSnapshot}

theorem Tied.recorded (h : Tied s)
    (hv : Valid snapshot.toRemoteUiGenerationOwner snapshot.generationId) (k : String)
    (o : RemoteUiGenerationSnapshot) (ho : (s.recorded snapshot).observed.get? k = some o) :
    k = o.ownerKey ∧ Valid o.toRemoteUiGenerationOwner o.generationId := by
  unfold St.recorded at ho
  rw [JsMap.get?_set] at ho
  split at ho
  · rename_i hk
    cases ho
    exact ⟨hk, hv⟩
  · exact h.observed k o ho

theorem tied_inactive (h : Tied s)
    (hv : Valid snapshot.toRemoteUiGenerationOwner snapshot.generationId) :
    Tied (disposeOwner { s.recorded snapshot with active := s.active.delete snapshot.ownerKey }
      snapshot.toRemoteUiGenerationOwner) := by
  refine tied_cut h (below snapshot.ownerKey) rfl rfl rfl (fun key => ?_) (h.recorded hv)
    (fun k a hk => ?_) fun owner g hv' hp => ?_
  · show (s.pendingRetirements.filter _).get? key = _
    rw [JsMap.get?_filter]
    cases below snapshot.ownerKey key <;> cases s.pendingRetirements.get? key <;> rfl
  · replace hk : (s.active.delete snapshot.ownerKey).get? k = some a := hk
    rw [JsMap.get?_delete] at hk
    split at hk
    · cases hk
    · rename_i hne
      obtain ⟨hobs, hd, hadm⟩ := h.active k a hk
      refine ⟨?_, hd, hadm⟩
      show (s.observed.set snapshot.ownerKey snapshot).get? k = some a
      rw [JsMap.get?_set_ne _ _ hne]
      exact hobs
  · show (s.active.delete snapshot.ownerKey).get? _ = _
    rw [JsMap.get?_delete, if_neg]
    intro he
    have hsame := ownerKey_injective hv'.1 hv.1 he
    rw [(generationKey_below_owner hv.1 hv').mpr hsame.symm] at hp
    cases hp

/-- Without an admission the owner has no active generation. -/
theorem tied_unadmitted (h : Tied s)
    (hv : Valid snapshot.toRemoteUiGenerationOwner snapshot.generationId)
    (hadm : s.admissions.get? (remoteUiAuthorizationScopeKey
      snapshot.toRemoteUiAuthorizationScope) = none) : Tied (s.recorded snapshot) := by
  refine ⟨h.recorded hv, fun k a hk => ?_, h.draining, h.registered, h.live⟩
  obtain ⟨hobs, hd, hsome⟩ := h.active k a hk
  refine ⟨?_, hd, hsome⟩
  unfold St.recorded
  rw [JsMap.get?_set, if_neg]
  · exact hobs
  · intro he
    subst he
    obtain ⟨he, -⟩ := h.activeOwner hv.1 hk
    rw [he, hadm] at hsome
    cases hsome

/-- The generation becomes active; `s'` also has the drain of the one before it. -/
theorem tied_advance (h : Tied s)
    (hv : Valid snapshot.toRemoteUiGenerationOwner snapshot.generationId)
    (hd : snapshot.disposition = .active)
    (hadm : (s.admissions.get? (remoteUiAuthorizationScopeKey
      snapshot.toRemoteUiAuthorizationScope)).isSome)
    {pending : JsMap String Nat} {timers : List RemoteUiGenerationSnapshot}
    (htimers : ∀ (k : Nat) t, s.timers[k]? = some t → timers[k]? = some t)
    (hpending : ∀ key k, pending.get? key = some k →
      (s.pendingRetirements.get? key = some k ∧ key ≠ snapshot.key) ∨
        ∃ a, s.active.get? snapshot.ownerKey = some a ∧ a.generationId ≠ snapshot.generationId ∧
          key = a.key ∧ timers[k]? = some a)
    (hkeep : ∀ key, key ≠ snapshot.key → (s.pendingRetirements.get? key).isSome →
      (pending.get? key).isSome)
    (hdrain : ∀ a, s.active.get? snapshot.ownerKey = some a →
      a.generationId ≠ snapshot.generationId → (pending.get? a.key).isSome) :
    Tied { s.advanced snapshot with pendingRetirements := pending, timers := timers } := by
  refine ⟨h.recorded hv, fun k a hk => ?_, fun key k hk => ?_, h.registered, fun x hx hl => ?_⟩
  · replace hk : (s.active.set snapshot.ownerKey snapshot).get? k = some a := hk
    show (s.observed.set snapshot.ownerKey snapshot).get? k = some a ∧ _ ∧ _
    rw [JsMap.get?_set] at hk ⊢
    split at hk
    · cases hk
      rw [if_pos ‹_›]
      exact ⟨rfl, hd, hadm⟩
    · rw [if_neg ‹_›]
      exact h.active k a hk
  · show ∃ t a, timers[k]? = some t ∧ _ ∧ _ ∧
      (s.active.set snapshot.ownerKey snapshot).get? t.ownerKey = some a ∧ _
    rcases hpending key k hk with ⟨hold, hne⟩ | ⟨a, ha, hne, hkey, ht⟩
    · obtain ⟨t, a, ht, hkey, hvt, ha, hgen⟩ := h.draining key k hold
      refine ⟨t, ?_⟩
      rw [get?_set_owner hv.1 hvt.1]
      split
      · rename_i he
        refine ⟨snapshot, htimers k t ht, hkey, hvt, rfl, fun hg => hne ?_⟩
        rw [hkey, RemoteUiGenerationSnapshot.key, he, ← hg]
      · exact ⟨a, htimers k t ht, hkey, hvt, ha, hgen⟩
    · obtain ⟨hown, hva⟩ := h.activeOwner hv.1 ha
      refine ⟨a, snapshot, ht, hkey, ?_, ?_, hne.symm⟩
      · rw [hown]
        exact hva
      · have hok : a.ownerKey = snapshot.ownerKey := congrArg remoteUiGenerationOwnerKey hown
        rw [hok, JsMap.get?_set_self]
  · obtain ⟨hvx, a, ha, hor⟩ := h.live x hx hl
    refine ⟨hvx, ?_⟩
    show ∃ a, (s.active.set snapshot.ownerKey snapshot).get? x.ownerKey = some a ∧
      (a.generationId = x.generationId ∨ (pending.get? x.key).isSome)
    rw [get?_set_owner hv.1 hvx.1]
    split
    · rename_i he
      refine ⟨snapshot, rfl, ?_⟩
      by_cases hg : snapshot.generationId = x.generationId
      · exact .inl hg
      · refine .inr ?_
        have hne : x.key ≠ snapshot.key := fun hk =>
          hg (generationKey_injective hvx hv hk).2.symm
        rcases hor with hgen | hpend
        · -- it was the active generation, which drains now
          rw [RemoteUiHostSession.ownerKey, he] at ha
          have hgen' : a.generationId ≠ snapshot.generationId := fun hk => hg (hk ▸ hgen)
          have hdr := hdrain a ha hgen'
          rw [RemoteUiGenerationSnapshot.key, (h.activeOwner hv.1 ha).1, ← he, hgen] at hdr
          exact hdr
        · exact hkeep _ hne hpend
    · rename_i he
      refine ⟨a, ha, hor.imp id fun hpend => hkeep _ (fun hk => ?_) hpend⟩
      exact he (generationKey_injective hvx hv hk).1

theorem tied_observed (h : Tied s)
    (hv : Valid snapshot.toRemoteUiGenerationOwner snapshot.generationId)
    (hs : Observed s snapshot s') : Tied s' := by
  cases hs with
  | same => exact h
  | inactive hd => exact tied_inactive h hv
  | unadmitted hd hadm => exact tied_unadmitted h hv hadm
  | advanced hd hadm hact =>
    refine tied_advance h hv hd hadm (fun k t ht => ht) (fun key k hk => ?_) (fun key hne hk => ?_)
      fun a ha hne => absurd (hact a ha) hne
    · rw [JsMap.get?_delete] at hk
      split at hk
      · cases hk
      · exact .inl ⟨hk, ‹_›⟩
    · rw [JsMap.get?_delete, if_neg hne]
      exact hk
  | superseded a hd hadm ha hne =>
    refine tied_advance h hv hd hadm (fun k t ht => ?_) (fun key k hk => ?_) (fun key hne hk => ?_)
      fun a' ha' hne' => ?_
    · exact List.getElem?_append_left (List.getElem?_eq_some_iff.mp ht).1 ▸ ht
    · rw [JsMap.get?_set] at hk
      split at hk
      · cases hk
        exact .inr ⟨a, ha, hne, ‹_›, List.getElem?_concat_length⟩
      · rw [advanced_pending] at hk
        split at hk
        · cases hk
        · exact .inl ⟨hk, ‹_›⟩
    · rw [JsMap.get?_set]
      split
      · rfl
      · rw [advanced_pending, if_neg hne]
        exact hk
    · rw [ha] at ha'
      cases ha'
      rw [JsMap.get?_set_self]
      rfl

end Observations

/-! ## Every step -/

theorem observe_cases {snapshot : RemoteUiGenerationSnapshot} {drainMs : Int}
    (hs : observe s snapshot drainMs = .ok s') :
    Valid snapshot.toRemoteUiGenerationOwner snapshot.generationId ∧ Observed s snapshot s' ∧
      ∀ o, s.observed.get? snapshot.ownerKey = some o → o.revision ≤ snapshot.revision := by
  obtain ⟨parsed, hp, hobs⟩ := bind_eq_ok.mp hs
  obtain ⟨rfl, hv⟩ := snapshot_ok hp
  exact ⟨hv, observeSnapshot_cases hobs⟩

/-- What a call of `open` does: it throws, or registers a session of the active generation. -/
theorem open_cases {snapshot : RemoteUiGenerationSnapshot} {request : RemoteUiSessionRequest}
    (hs : openSession s snapshot request = .ok s') : ∃ presentation,
      s.active.get? snapshot.ownerKey = some snapshot ∧ snapshot.disposition = .active ∧
        s' = register s snapshot request presentation := by
  obtain ⟨parsed, hp, hopen⟩ := bind_eq_ok.mp hs
  obtain ⟨rfl, -⟩ := snapshot_ok hp
  unfold openSnapshot at hopen
  split at hopen
  · rename_i a ha
    split at hopen
    · cases hopen
    rename_i hsame
    rw [not_or, Decidable.not_not, Decidable.not_not] at hsame
    obtain ⟨hd, rfl⟩ := hsame
    split at hopen
    · cases hopen
    · obtain ⟨presentation, -, rfl⟩ := map_eq_ok.mp hopen
      exact ⟨presentation, ha, hd, rfl⟩
  · cases hopen

/-- What an event does. -/
inductive Effect (s : St) : Ev → St → Prop
  /-- A call that throws, or an authorization that changes nothing of the generations. -/
  | quiet (ev : Ev) : Effect s ev s
  | ignored (i : RemoteUiAuthorizationInvalidation) (ignored : s.ignores i) :
      Effect s (.revoke i) { s with delivered := i :: s.delivered }
  | observed (snapshot : RemoteUiGenerationSnapshot) (drainMs : Int) (s' : St)
      (accepted : observe s snapshot drainMs = .ok s') : Effect s (.observe snapshot drainMs) s'
  | opened (snapshot : RemoteUiGenerationSnapshot) (request : RemoteUiSessionRequest)
      (presentation : RemoteUiHostPresentation)
      (active : s.active.get? snapshot.ownerKey = some snapshot)
      (disposition : snapshot.disposition = .active) :
      Effect s (.openSession snapshot request) (register s snapshot request presentation)
  | retired (owner : RemoteUiGenerationOwner) (generationId : String) :
      Effect s (.retire owner generationId)
        (retireKey s (remoteUiGenerationKey owner generationId)).2
  | revoked (i : RemoteUiAuthorizationInvalidation)
      (valid : scopeOk i.toRemoteUiAuthorizationScope = true) :
      Effect s (.revoke i) (withdraw { s with delivered := i :: s.delivered } i).2
  | admitted (admission : RemoteUiAuthorizationAdmission) (s' : St)
      (valid : scopeOk admission.toRemoteUiAuthorizationScope = true)
      (parsed : admitParsed s admission = .ok s') : Effect s (.admitted admission) s'
  | timer (k : Nat) (snapshot : RemoteUiGenerationSnapshot)
      (scheduled : s.timers[k]? = some snapshot) : Effect s (.timer k) (expire s k snapshot)
  | disposed (i : Nat) (x : RemoteUiHostSession) : Effect s (.dispose i) (dispose s i x)

theorem step_effect (hs : step s ev = some s') : Effect s ev s' := by
  cases ev with
  | observe snapshot drainMs =>
    simp only [step] at hs
    split at hs
    · rename_i r hr
      obtain rfl := Option.some.inj hs
      exact .observed snapshot drainMs r hr
    · obtain rfl := Option.some.inj hs
      exact .quiet _
  | openSession snapshot request =>
    simp only [step] at hs
    split at hs
    · rename_i r hr
      obtain rfl := Option.some.inj hs
      obtain ⟨presentation, hact, hd, rfl⟩ := open_cases hr
      exact .opened snapshot request presentation hact hd
    · obtain rfl := Option.some.inj hs
      exact .quiet _
  | retire owner generationId =>
    simp only [step] at hs
    split at hs
    · rename_i r hr
      obtain rfl := Option.some.inj hs
      obtain ⟨parsed, hp, hret⟩ := bind_eq_ok.mp hr
      obtain ⟨rfl, -⟩ := owner_ok hp
      split at hret
      · obtain rfl := Except.ok.inj hret
        exact .retired _ generationId
      · cases hret
    · obtain rfl := Option.some.inj hs
      exact .quiet _
  | revoke i =>
    rcases revoke_cases hs with ⟨rfl, -⟩ | ⟨hscope, -, ⟨hi, rfl⟩ | ⟨-, rfl⟩⟩
    · exact .quiet _
    · exact .ignored i hi
    · exact .revoked i hscope
  | admitted admission =>
    simp only [step] at hs
    split at hs
    · rename_i r hr
      obtain rfl := Option.some.inj hs
      obtain ⟨parsed, hp, hadm⟩ := bind_eq_ok.mp hr
      obtain ⟨rfl, hscope⟩ := admission_ok hp
      exact .admitted _ r hscope hadm
    · obtain rfl := Option.some.inj hs
      exact .quiet _
  | timer k =>
    obtain ⟨snapshot, ht, rfl⟩ := Option.map_eq_some_iff.mp hs
    exact .timer k snapshot ht
  | dispose i =>
    obtain ⟨x, -, rfl⟩ := Option.map_eq_some_iff.mp hs
    exact .disposed i x

theorem tied_step (h : Tied s) (hs : step s ev = some s') : Tied s' := by
  cases step_effect hs with
  | quiet => exact h
  | ignored => exact ⟨h.observed, h.active, h.draining, h.registered, h.live⟩
  | observed snapshot drainMs _ hobs =>
    obtain ⟨hv, hcases, -⟩ := observe_cases hobs
    exact tied_observed h hv hcases
  | opened snapshot request presentation hact hd => exact tied_register h request presentation hact
  | retired owner generationId => exact tied_retireKey h _
  | revoked i hscope =>
    have hd : Tied { s with delivered := i :: s.delivered } :=
      ⟨h.observed, h.active, h.draining, h.registered, h.live⟩
    exact tied_withdraw hd hscope
  | admitted admission _ hscope hadm => exact tied_admit h hscope hadm
  | timer k snapshot ht => exact tied_expire h ht
  | disposed i x => exact tied_dispose h i x

theorem tied_run {evs : List Ev} (h : Tied s) (hr : lts.Run s evs s') : Tied s' := by
  have hstep : ∀ s ev s', Tied s → lts.step s ev s' → Tied s' := fun _ _ _ => tied_step
  exact hr.preserves hstep h

/-! ## Drains over a run -/

/-- No timer is dropped, and a new drain has the symbol of a new timer and is one of a generation
that was active. -/
theorem pending_step (hs : step s ev = some s') :
    (∀ (k : Nat) t, s.timers[k]? = some t → s'.timers[k]? = some t) ∧
      ∀ key k, s'.pendingRetirements.get? key = some k →
        s.pendingRetirements.get? key = some k ∨
          k = s.timers.length ∧ ∃ snapshot drainMs a, ev = .observe snapshot drainMs ∧
            s.active.get? snapshot.ownerKey = some a ∧ a.key = key := by
  have hfilter : ∀ (p : String → Nat → Bool) key k,
      (s.pendingRetirements.filter p).get? key = some k →
        s.pendingRetirements.get? key = some k := by
    intro p key k hk
    rw [JsMap.get?_filter, Option.filter_eq_some_iff] at hk
    exact hk.1
  have hdelete : ∀ key key' k, (s.pendingRetirements.delete key').get? key = some k →
      s.pendingRetirements.get? key = some k := fun key key' k hk => hfilter _ key k hk
  cases step_effect hs with
  | quiet => exact ⟨fun _ _ ht => ht, fun _ _ hk => .inl hk⟩
  | ignored => exact ⟨fun _ _ ht => ht, fun _ _ hk => .inl hk⟩
  | opened => exact ⟨fun _ _ ht => ht, fun _ _ hk => .inl hk⟩
  | retired => exact ⟨fun _ _ ht => ht, fun key k hk => .inl (hdelete key _ k hk)⟩
  | revoked => exact ⟨fun _ _ ht => ht, fun key k hk => .inl (hfilter _ key k hk)⟩
  | admitted admission _ hscope hadm =>
    unfold admitParsed at hadm
    dsimp only at hadm
    split at hadm
    · cases hadm
    split at hadm
    · cases hadm
    split at hadm
    · split at hadm
      · obtain rfl := Except.ok.inj hadm
        exact ⟨fun _ _ ht => ht, fun _ _ hk => .inl hk⟩
      · cases hadm
    obtain rfl := Except.ok.inj hadm
    exact ⟨fun _ _ ht => ht, fun _ _ hk => .inl hk⟩
  | timer k snapshot ht =>
    unfold expire
    dsimp only
    split
    · exact ⟨fun _ _ ht => ht, fun _ _ hk => .inl hk⟩
    split
    · refine ⟨fun _ _ ht => ht, fun key k hk => .inl ?_⟩
      refine hdelete key snapshot.key k ?_
      replace hk : ((s.pendingRetirements.delete _).delete _).get? key = some k := hk
      rw [JsMap.get?_delete] at hk
      split at hk
      · cases hk
      · exact hk
    · exact ⟨fun _ _ ht => ht, fun key k hk => .inl (hdelete key _ k hk)⟩
  | disposed i x =>
    obtain ⟨sessions, objects, heq⟩ := dispose_rest s i x
    rw [heq]
    exact ⟨fun _ _ ht => ht, fun _ _ hk => .inl hk⟩
  | observed snapshot drainMs _ hobs =>
    cases (observe_cases hobs).2.1 with
    | same => exact ⟨fun _ _ ht => ht, fun _ _ hk => .inl hk⟩
    | inactive => exact ⟨fun _ _ ht => ht, fun key k hk => .inl (hfilter _ key k hk)⟩
    | unadmitted => exact ⟨fun _ _ ht => ht, fun _ _ hk => .inl hk⟩
    | advanced => exact ⟨fun _ _ ht => ht, fun key k hk => .inl (hdelete key _ k hk)⟩
    | superseded a hd hadm ha hne =>
      constructor
      · intro k t ht
        exact List.getElem?_append_left (List.getElem?_eq_some_iff.mp ht).1 ▸ ht
      · intro key k hk
        replace hk : ((s.advanced snapshot).pendingRetirements.set a.key s.timers.length).get? key =
          some k := hk
        rw [JsMap.get?_set] at hk
        split at hk
        · cases hk
          exact .inr ⟨rfl, snapshot, drainMs, a, rfl, ha, ‹key = a.key›.symm⟩
        · exact .inl (hdelete key _ k hk)

/-- A drain that was cancelled stays so. -/
theorem not_draining_run {evs : List Ev} (hr : lts.Run s evs s') {k : Nat}
    {snapshot : RemoteUiGenerationSnapshot} (ht : s.timers[k]? = some snapshot)
    (hd : ¬ Draining s k snapshot) :
    s'.timers[k]? = some snapshot ∧ ¬ Draining s' k snapshot := by
  have hstep : ∀ s ev s', (s.timers[k]? = some snapshot ∧ ¬ Draining s k snapshot) →
      lts.step s ev s' → s'.timers[k]? = some snapshot ∧ ¬ Draining s' k snapshot := by
    intro s ev s' ⟨ht, hd⟩ hs
    obtain ⟨htimers, hpending⟩ := pending_step hs
    refine ⟨htimers k snapshot ht, fun hd' => ?_⟩
    rcases hpending _ _ hd'.2 with hold | ⟨hnew, -⟩
    · exact hd ⟨ht, hold⟩
    · have := (List.getElem?_eq_some_iff.mp ht).1
      omega
  exact hr.preserves hstep ⟨ht, hd⟩

/-- The generation is not observed as active, and does not drain. -/
structure Dormant (s : St) (snapshot : RemoteUiGenerationSnapshot) : Prop where
  valid : Valid snapshot.toRemoteUiGenerationOwner snapshot.generationId
  observed : ∀ o, s.observed.get? snapshot.ownerKey = some o → o.disposition = .active →
    o.generationId ≠ snapshot.generationId
  pending : s.pendingRetirements.get? snapshot.key = none

theorem Dormant.closed {snapshot : RemoteUiGenerationSnapshot} (hd : Dormant s snapshot)
    (h : Tied s) : ∀ x ∈ s.objects,
      x.Of snapshot.toRemoteUiGenerationOwner snapshot.generationId → x.closed = true := by
  refine h.closed (fun a ha => ?_) hd.pending
  obtain ⟨hobs, hdisp, -⟩ := h.active _ a ha
  exact hd.observed a hobs hdisp

/-- What is observed after a step was observed before, or by the step. -/
theorem observed_step (hs : step s ev = some s') : (s'.observed = s.observed) ∨
    ∃ snapshot drainMs, ev = .observe snapshot drainMs ∧
      ownerOk snapshot.toRemoteUiGenerationOwner = true ∧
      s'.observed = s.observed.set snapshot.ownerKey snapshot ∧
      ∀ o, s.observed.get? snapshot.ownerKey = some o → o.revision ≤ snapshot.revision := by
  cases step_effect hs with
  | quiet => exact .inl rfl
  | ignored => exact .inl rfl
  | opened => exact .inl rfl
  | retired => exact .inl rfl
  | revoked => exact .inl rfl
  | admitted admission _ hscope hadm =>
    unfold admitParsed at hadm
    dsimp only at hadm
    split at hadm
    · cases hadm
    split at hadm
    · cases hadm
    split at hadm
    · split at hadm
      · obtain rfl := Except.ok.inj hadm
        exact .inl rfl
      · cases hadm
    obtain rfl := Except.ok.inj hadm
    exact .inl rfl
  | timer k snapshot ht =>
    unfold expire
    dsimp only
    split
    · exact .inl rfl
    split <;> exact .inl rfl
  | disposed i x =>
    obtain ⟨sessions, objects, heq⟩ := dispose_rest s i x
    rw [heq]
    exact .inl rfl
  | observed snapshot drainMs _ hobs =>
    obtain ⟨hv, hcases, hrev⟩ := observe_cases hobs
    cases hcases with
    | same => exact .inl rfl
    | inactive => exact .inr ⟨snapshot, drainMs, rfl, hv.1, rfl, hrev⟩
    | unadmitted => exact .inr ⟨snapshot, drainMs, rfl, hv.1, rfl, hrev⟩
    | advanced => exact .inr ⟨snapshot, drainMs, rfl, hv.1, rfl, hrev⟩
    | superseded => exact .inr ⟨snapshot, drainMs, rfl, hv.1, rfl, hrev⟩

theorem dormant_step {snapshot : RemoteUiGenerationSnapshot} (h : Tied s)
    (hd : Dormant s snapshot) (hs : step s ev = some s') (hev : ¬ Reactivates snapshot ev) :
    Dormant s' snapshot := by
  obtain ⟨hv, hobs, hpend⟩ := hd
  refine ⟨hv, fun o ho hdisp hg => ?_, ?_⟩
  · rcases observed_step hs with heq | ⟨again, drainMs, he, hok, heq, -⟩
    · rw [heq] at ho
      exact hobs o ho hdisp hg
    · rw [heq, get?_set_owner hok hv.1] at ho
      split at ho
      · rename_i hown
        cases ho
        exact hev ⟨o, drainMs, he, hdisp, hown.symm, hg⟩
      · exact hobs o ho hdisp hg
  · cases hk : s'.pendingRetirements.get? snapshot.key with
    | none => rfl
    | some k =>
      exfalso
      rcases (pending_step hs).2 _ k hk with hold | ⟨-, again, drainMs, a, he, ha, hkey⟩
      · rw [hpend] at hold
        cases hold
      · -- the drain of a generation that was active
        obtain ⟨hobs', hdisp, -⟩ := h.active _ a ha
        obtain ⟨hk', hva⟩ := h.observed _ a hobs'
        obtain ⟨hown, hg⟩ := generationKey_injective hva hv hkey
        refine hobs a ?_ hdisp hg
        have hok : snapshot.ownerKey = a.ownerKey := congrArg remoteUiGenerationOwnerKey hown.symm
        rw [hok, ← hk']
        exact hobs'

theorem dormant_run {snapshot : RemoteUiGenerationSnapshot} {evs : List Ev} (h : Tied s)
    (hd : Dormant s snapshot) (hr : lts.Run s evs s')
    (hevs : ∀ ev ∈ evs, ¬ Reactivates snapshot ev) : Tied s' ∧ Dormant s' snapshot := by
  induction hr with
  | nil => exact ⟨h, hd⟩
  | cons hs _ ih =>
    rw [List.forall_mem_cons] at hevs
    exact ih (tied_step h hs) (dormant_step h hd hs hevs.1) hevs.2

/-- A drain that ran out leaves the generation dormant. -/
theorem dormant_of_drained (h : Tied s) {k : Nat} {snapshot : RemoteUiGenerationSnapshot}
    (hd : Draining s k snapshot) (hs : step s (.timer k) = some s') : Dormant s' snapshot := by
  obtain ⟨t, a, ht, hkey, hv, ha, hne⟩ := h.draining _ k hd.2
  rw [hd.1] at ht
  cases ht
  simp only [step, hd.1, Option.map_some, Option.some.injEq] at hs
  subst hs
  rw [expire_of_draining h hd]
  refine ⟨hv, fun o ho _ => ?_, ?_⟩
  · obtain ⟨hobs, -, -⟩ := h.active _ a ha
    replace ho : s.observed.get? snapshot.ownerKey = some o := ho
    rw [hobs] at ho
    cases ho
    exact hne
  · show ((s.pendingRetirements.delete snapshot.key).delete snapshot.key).get? snapshot.key = none
    exact JsMap.get?_delete_self _ _

/-! ## Sessions that begin -/

theorem length_closeAll (ids : List Nat) (objects : List RemoteUiHostSession) :
    (closeAll ids objects).length = objects.length := by
  unfold closeAll
  exact List.length_mapIdx

theorem length_dispose (s : St) (i : Nat) (x : RemoteUiHostSession) :
    (dispose s i x).objects.length = s.objects.length := by
  unfold dispose
  split
  · rfl
  unfold unregister
  dsimp only
  split <;> exact List.length_set

theorem length_observed {snapshot : RemoteUiGenerationSnapshot} (h : Observed s snapshot s') :
    s'.objects.length = s.objects.length := by
  cases h with
  | same => rfl
  | inactive => exact length_closeAll _ _
  | unadmitted => rfl
  | advanced => rfl
  | superseded => rfl

/-- Only `open` makes a session. -/
theorem opened_step (hs : step s ev = some s') (i : Nat) (x : RemoteUiHostSession)
    (hnone : s.objects[i]? = none) (hx : s'.objects[i]? = some x) :
    ∃ a, s.active.get? x.ownerKey = some a ∧ a.disposition = .active ∧
      x.Of a.toRemoteUiGenerationOwner a.generationId ∧ x.artifactDigest = a.artifactDigest := by
  have hlen : s'.objects.length ≠ s.objects.length := by
    intro hlen
    rw [List.getElem?_eq_none_iff] at hnone
    have := (List.getElem?_eq_some_iff.mp hx).1
    omega
  cases step_effect hs with
  | quiet => exact absurd rfl hlen
  | ignored => exact absurd rfl hlen
  | observed snapshot drainMs _ hobs =>
    exact absurd (length_observed (observe_cases hobs).2.1) hlen
  | opened snapshot request presentation hact hd =>
    rcases getElem?_snoc hx with hx | ⟨-, rfl⟩
    · rw [hnone] at hx
      cases hx
    · exact ⟨snapshot, hact, hd, ⟨rfl, rfl⟩, rfl⟩
  | retired => exact absurd (length_closeAll _ _) hlen
  | revoked => exact absurd (length_closeAll _ _) hlen
  | admitted admission _ hscope hadm =>
    unfold admitParsed at hadm
    dsimp only at hadm
    split at hadm
    · cases hadm
    split at hadm
    · cases hadm
    split at hadm
    · split at hadm
      · obtain rfl := Except.ok.inj hadm
        exact absurd rfl hlen
      · cases hadm
    obtain rfl := Except.ok.inj hadm
    exact absurd rfl hlen
  | timer k snapshot ht =>
    refine absurd ?_ hlen
    unfold expire
    dsimp only
    split
    · rfl
    split
    · exact length_closeAll _ _
    · rfl
  | disposed j y => exact absurd (length_dispose s j y) hlen

/-! ## The law of every step -/

theorem withdrawn_step (h : Tied s) (hs : step s ev = some s') (owner : RemoteUiGenerationOwner)
    (ho : ownerOk owner = true) (hw : Withdraws s owner ev) :
    (∀ x ∈ s'.objects, x.toRemoteUiGenerationOwner = owner → x.closed = true) ∧
      ∀ k snapshot, Draining s' k snapshot → snapshot.toRemoteUiGenerationOwner ≠ owner := by
  refine (tied_step h hs).none_of_inactive ?_
  cases hw with
  | observed snapshot drainMs r hobs hd hsame =>
    simp only [step, hobs, Option.some.injEq] at hs
    subst hs
    subst hsame
    cases (observe_cases hobs).2.1 with
    | same hseen =>
      -- an owner that was observed inactive has no active generation
      cases ha : s.active.get? snapshot.ownerKey with
      | none => rfl
      | some a =>
        obtain ⟨hobs', hdisp, -⟩ := h.active _ a ha
        rw [hseen] at hobs'
        cases hobs'
        exact absurd hdisp hd
    | inactive => exact JsMap.get?_delete_self _ _
    | unadmitted hd' => exact absurd hd' hd
    | advanced hd' => exact absurd hd' hd
    | superseded a hd' => exact absurd hd' hd
  | revoked i hvalid hi hsame =>
    obtain ⟨-, hscope, hrev⟩ := invalidation_ok.mp hvalid
    rcases revoke_cases hs with ⟨-, hbad⟩ | ⟨-, -, ⟨hi', -⟩ | ⟨-, rfl⟩⟩
    · exact absurd ⟨hscope, hrev⟩ hbad
    · exact absurd hi' hi
    · have hb := (ownerKey_below hscope ho).mpr hsame
      show (s.active.filter _).get? _ = none
      rw [JsMap.get?_filter, hb]
      cases s.active.get? (remoteUiGenerationOwnerKey owner) <;> rfl

theorem rollback_step (h : Tied s) (hs : step s ev = some s')
    (snapshot : RemoteUiGenerationSnapshot) (drainMs : Int) (k : Nat)
    (_ : ev = .observe snapshot drainMs) (hobs : observe s snapshot drainMs = .ok s')
    (hd : snapshot.disposition = .active)
    (hk : s.pendingRetirements.get? snapshot.key = some k) :
    s'.pendingRetirements.get? snapshot.key = none ∧
      (∀ key j, key ≠ snapshot.key → s.pendingRetirements.get? key = some j →
        s'.pendingRetirements.get? key = some j) ∧ s'.objects = s.objects := by
  obtain ⟨hv, hcases, -⟩ := observe_cases hobs
  obtain ⟨t, a, -, hkey, hvt, ha, hne⟩ := h.draining _ k hk
  obtain ⟨hown, hg⟩ := generationKey_injective hv hvt hkey
  have hok : snapshot.ownerKey = t.ownerKey := congrArg remoteUiGenerationOwnerKey hown
  rw [← hok] at ha
  rw [← hg] at hne
  obtain ⟨hobs', hdisp, hadm⟩ := h.active _ a ha
  have hta : a.toRemoteUiGenerationOwner = snapshot.toRemoteUiGenerationOwner :=
    (h.activeOwner hv.1 ha).1
  cases hcases with
  | same hseen =>
    -- the observed generation is the active one, and that does not drain
    rw [hseen] at hobs'
    cases hobs'
    exact absurd rfl hne
  | inactive hd' => exact absurd hd hd'
  | unadmitted _ hnone =>
    rw [hta, hnone] at hadm
    cases hadm
  | advanced _ _ hact => exact absurd (hact a ha) hne
  | superseded b _ _ hb hneb =>
    rw [ha] at hb
    cases hb
    have hne' : snapshot.key ≠ a.key := fun he =>
      hne (generationKey_injective hv (hta ▸ (h.activeOwner hv.1 ha).2) he).2.symm
    refine ⟨?_, fun key j hkey' hj => ?_, rfl⟩
    · show ((s.advanced snapshot).pendingRetirements.set a.key _).get? snapshot.key = none
      rw [JsMap.get?_set_ne _ _ hne', advanced_pending, if_pos rfl]
    · show ((s.advanced snapshot).pendingRetirements.set a.key _).get? key = some j
      rw [JsMap.get?_set, if_neg, advanced_pending, if_neg hkey']
      · exact hj
      · -- the active generation does not drain
        intro he
        obtain ⟨t', a', -, hkt, hvt', ha', hne''⟩ := h.draining key j hj
        have hva : Valid a.toRemoteUiGenerationOwner a.generationId :=
          hta ▸ (h.activeOwner hv.1 ha).2
        obtain ⟨ho', hg'⟩ := generationKey_injective hvt' hva (hkt.symm.trans he)
        have hok' : t'.ownerKey = snapshot.ownerKey :=
          congrArg remoteUiGenerationOwnerKey (ho'.trans hta)
        rw [hok', ha] at ha'
        cases ha'
        exact hne'' hg'.symm

theorem drain_step (h : Tied s) (hs : step s ev = some s') : DrainStep s ev s' where
  observed := by
    intro k o ho
    rcases observed_step hs with heq | ⟨snapshot, drainMs, -, -, heq, hrev⟩
    · exact ⟨o, by rw [heq, ho], Int.le_refl _⟩
    · rw [heq, JsMap.get?_set]
      split
      · rename_i hk
        subst hk
        exact ⟨snapshot, rfl, hrev o ho⟩
      · exact ⟨o, ho, Int.le_refl _⟩
  opened := opened_step hs
  drained := by
    intro k snapshot he hd
    subst he
    exact (dormant_of_drained h hd hs).closed (tied_step h hs)
  withdrawn := withdrawn_step h hs
  rollback := rollback_step h hs

/-! ## The law of every state -/

theorem Tied.drained (h : Tied s) : Drained s where
  live := by
    intro x hx hl
    obtain ⟨hv, a, ha, hor⟩ := h.live x hx hl
    refine ⟨a, ha, ?_⟩
    rcases hor with hg | hp
    · exact .inl ⟨(h.activeOwner hv.1 ha).1.symm, hg.symm⟩
    · obtain ⟨k, hk⟩ := Option.isSome_iff_exists.mp hp
      obtain ⟨t, a', ht, hkey, hvt, -, -⟩ := h.draining _ k hk
      obtain ⟨hown, hg⟩ := generationKey_injective hv hvt hkey
      exact .inr ⟨k, t, ⟨ht, hkey ▸ hk⟩, hown, hg⟩
  superseded := by
    intro key k hk
    obtain ⟨t, a, ht, hkey, hvt, ha, hne⟩ := h.draining _ k hk
    exact ⟨t, a, hkey.symm, ⟨ht, hkey ▸ hk⟩, ha, (h.activeOwner hvt.1 ha).1, hne⟩
  stays := by
    intro k snapshot hd evs s' hr hevs
    cases hr with
    | cons hs hr =>
      have hs : step s (.timer k) = some _ := hs
      obtain ⟨htied, hdormant⟩ :=
        dormant_run (tied_step h hs) (dormant_of_drained h hd hs) hr hevs
      exact hdormant.closed htied
  cancelled := by
    intro k snapshot ht hd evs s' hr
    obtain ⟨ht', hd'⟩ := not_draining_run hr ht hd
    simp only [step, ht', Option.map_some, expire_of_not_draining ht' hd']

/-- **Drains.** Every reachable state has the law, and so does every step from one. -/
theorem generation_drain : (∀ s, lts.Reachable s → Drained s) ∧
    ∀ s ev s', lts.Reachable s → step s ev = some s' → DrainStep s ev s' := by
  have hinv : lts.Inductive Tied := by
    refine ⟨fun s hs => ?_, fun s ev s' h hs => tied_step h hs⟩
    obtain rfl : s = init := hs
    exact tied_init
  constructor
  · intro s hr
    exact (hinv.reachable s hr).drained
  · intro s ev s' hr hs
    exact drain_step (hinv.reachable s hr) hs

/-! ### A revocation that is ignored -/

/-- A session is opened under the admission of revision 3. -/
def traceAdmitted : List Ev :=
  [.observe snapshotEx 100, .admitted (admissionEx 3), .openSession snapshotEx requestEx]

theorem generation_drain_example : ∃ s, lts.Run init traceAdmitted s ∧ Drained s ∧
    ∀ ev s', step s ev = some s' → DrainStep s ev s' := by
  have hrun : LTS.exec step init traceAdmitted = some _ := rfl
  have hr : lts.Run init traceAdmitted _ := LTS.run_of_exec hrun
  have hreach : lts.Reachable _ := LTS.Reachable.run (.init rfl) hr
  exact ⟨_, hr, generation_drain.1 _ hreach, fun ev s' => generation_drain.2 _ ev s' hreach⟩

/-- Revision 2 is revoked after revision 3 was admitted: the session stays live. -/
theorem ignored_revocation : ∃ s s', lts.Run init traceAdmitted s ∧
    revokeAuthorization s revocationEx = .ok (0, s') ∧ step s (.revoke revocationEx) = some s' ∧
    ∃ x ∈ s'.objects, x.closed = false ∧
      x.toRemoteUiAuthorizationScope = revocationEx.toRemoteUiAuthorizationScope := by
  have hrun : LTS.exec step init traceAdmitted = some _ := rfl
  exact ⟨_, _, LTS.run_of_exec hrun, rfl, rfl, _, List.mem_cons_self, rfl, rfl⟩

end KNex.Ui.RemoteUiSessions
