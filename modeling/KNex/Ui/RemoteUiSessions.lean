import KNex.Contracts.Extension
import KNex.Core.Calls
import KNex.Core.Except
import KNex.Core.JsMap
import KNex.Core.LTS

/-!
# `RemoteUiGenerationSessions`: which sessions a revocation ends

`packages/ui-runtime/src/remote-ui-host.ts:268-450`. The manager keeps, under NUL-joined keys, the
observed and the active generation of each owner, the live sessions of each generation, and for
each application environment the current authorization admission and the last revision that was
revoked. Every method is one step, and so is a drain timer and the end of a session (by the host,
or by a failure of the protocol). A method that throws leaves the state as it is.

Sessions are objects; the model keeps the identity of each, whether it is closed, and as history
the revision of the admission that it was opened under. `delivered` is the history of the
revocations that `revokeAuthorization` has returned from.

`Withdrawn` says that no live session was opened under a revision below a delivered revocation.
A revocation below the current admission is ignored, although sessions opened under an earlier
admission are still live (`late_revocation`); the law holds throughout exactly the runs in which
such a revocation finds no session of that kind (`withdrawn_iff`).
-/
namespace KNex.Ui.RemoteUiSessions

open KNex.Core KNex.Contracts

/-! ## Data -/

structure RemoteUiAuthorizationScope where
  applicationId : String
  environment : String
  deriving DecidableEq, Repr

structure RemoteUiGenerationOwner extends RemoteUiAuthorizationScope where
  appId : String
  deriving DecidableEq, Repr

structure RemoteUiAuthorizationInvalidation extends RemoteUiAuthorizationScope where
  authorizationRevision : Int
  deriving DecidableEq, Repr

structure RemoteUiAuthorizationAdmission extends RemoteUiAuthorizationInvalidation where
  authorizationProof : String
  deriving DecidableEq, Repr

inductive RemoteUiGenerationDisposition where
  | active | disabled | quarantined | removed
  deriving DecidableEq, Repr

structure RemoteUiGenerationSnapshot extends RemoteUiGenerationOwner where
  generationId : String
  artifactDigest : String
  revision : Int
  disposition : RemoteUiGenerationDisposition
  deriving DecidableEq, Repr

inductive PresentationSurface where
  | admin | «public»
  deriving DecidableEq, Repr

inductive PresentationMode where
  | light | dark | system
  deriving DecidableEq, Repr

structure RemoteUiHostPresentation where
  profileRevisionId : String
  themeId : String
  themeVersion : String
  surface : PresentationSurface
  mode : PresentationMode
  deriving DecidableEq, Repr

/-- The fields of a request that decide whether a session is opened. -/
structure RemoteUiSessionRequest where
  sessionId : String
  presentation : RemoteUiHostPresentation
  deriving DecidableEq, Repr

inductive RemoteUiError where
  | typeError (message : String)
  | protocol (code message : String)
  deriving DecidableEq, Repr

/-- A session object; `openedUnder` is the revision of the admission of its scope at the time. -/
structure RemoteUiHostSession extends RemoteUiGenerationOwner where
  sessionId : String
  generationId : String
  artifactDigest : String
  presentation : RemoteUiHostPresentation
  closed : Bool
  openedUnder : Option Int
  deriving DecidableEq, Repr

/-! ### Identities -/

/-- mirrors packages/ui-runtime/src/remote-ui-host.ts:445-446 -/
def validRecordId : String → Bool := recordIdOk

/-- `/^[a-z][a-z0-9-]{1,63}$/u` -/
def environmentIdOk (s : String) : Bool :=
  match s.toList with
  | [] => false
  | c :: cs => c.isLower && cs.all (fun c => lowerAlnum c || c == '-') &&
      decide (1 ≤ cs.length ∧ cs.length ≤ 63)

/-- `/^app(?:\.[a-z][a-z0-9]*(?:-[a-z0-9]+)*)+$/u` -/
def appIdOk (s : String) : Bool := isDotted (fun p => p = "app".toList) s.toList

def revisionOk (revision : Int) : Bool := decide (0 ≤ revision ∧ revision ≤ 9007199254740991)

def scopeOk (scope : RemoteUiAuthorizationScope) : Bool :=
  validRecordId scope.applicationId && environmentIdOk scope.environment

def ownerOk (owner : RemoteUiGenerationOwner) : Bool :=
  scopeOk owner.toRemoteUiAuthorizationScope && appIdOk owner.appId

/-- mirrors packages/ui-runtime/src/remote-ui-host.ts:405-408 -/
def remoteUiAuthorizationScope (scope : RemoteUiAuthorizationScope) :
    Except RemoteUiError RemoteUiAuthorizationScope :=
  if scopeOk scope then .ok scope
  else .error (.typeError "Remote UI authorization scope is invalid.")

/-- mirrors packages/ui-runtime/src/remote-ui-host.ts:399-403 -/
def remoteUiGenerationOwner (owner : RemoteUiGenerationOwner) :
    Except RemoteUiError RemoteUiGenerationOwner := do
  let _ ← remoteUiAuthorizationScope owner.toRemoteUiAuthorizationScope
  if appIdOk owner.appId then .ok owner
  else .error (.typeError "Remote UI generation owner is invalid.")

/-- mirrors packages/ui-runtime/src/remote-ui-host.ts:410-414 -/
def remoteUiAuthorizationInvalidation (invalidation : RemoteUiAuthorizationInvalidation) :
    Except RemoteUiError RemoteUiAuthorizationInvalidation := do
  let _ ← remoteUiAuthorizationScope invalidation.toRemoteUiAuthorizationScope
  if revisionOk invalidation.authorizationRevision then .ok invalidation
  else .error (.typeError "Remote UI authorization revision is invalid.")

/-- mirrors packages/ui-runtime/src/remote-ui-host.ts:416-420 -/
def remoteUiAuthorizationAdmission (admission : RemoteUiAuthorizationAdmission) :
    Except RemoteUiError RemoteUiAuthorizationAdmission := do
  let _ ← remoteUiAuthorizationInvalidation admission.toRemoteUiAuthorizationInvalidation
  if 1 ≤ jsLength admission.authorizationProof ∧ jsLength admission.authorizationProof ≤ 512 then
    .ok admission
  else .error (.typeError "Remote UI authorization proof is invalid.")

/-- mirrors packages/ui-runtime/src/remote-ui-host.ts:422-426 -/
def remoteUiGenerationSnapshot (snapshot : RemoteUiGenerationSnapshot) :
    Except RemoteUiError RemoteUiGenerationSnapshot := do
  let _ ← remoteUiGenerationOwner snapshot.toRemoteUiGenerationOwner
  if validRecordId snapshot.generationId ∧ digestOk snapshot.artifactDigest ∧
      revisionOk snapshot.revision then .ok snapshot
  else .error (.typeError "Remote UI generation snapshot is invalid.")

/-- `/^theme(?:\.[a-z][a-z0-9-]*)+$/u` -/
def themeIdOk (s : String) : Bool :=
  match splitChar '.' s.toList with
  | head :: part :: parts => decide (head = "theme".toList) && (part :: parts).all fun p =>
      match p with
      | [] => false
      | c :: cs => c.isLower && cs.all fun c => lowerAlnum c || c == '-'
  | _ => false

def versionTail (cs : List Char) : Bool :=
  !cs.isEmpty && cs.all fun c => c.isAlphanum || c == '.' || c == '-'

/-- `/^\d+\.\d+\.\d+(?:-[0-9A-Za-z.-]+)?(?:\+[0-9A-Za-z.-]+)?$/u` -/
def themeVersionOk (s : String) : Bool :=
  match splitChar '+' s.toList with
  | [] => false
  | main :: build =>
    let core := main.takeWhile (· ≠ '-')
    let prerelease := main.drop core.length
    let parts := splitChar '.' core
    decide (parts.length = 3) && parts.all (fun p => !p.isEmpty && p.all Char.isDigit) &&
      (prerelease.isEmpty || versionTail prerelease.tail) &&
      decide (build.length ≤ 1) && build.all versionTail

/-- mirrors packages/ui-runtime/src/remote-ui-host.ts:428-435 -/
def remoteUiHostPresentation (input : RemoteUiHostPresentation) :
    Except RemoteUiError RemoteUiHostPresentation :=
  if validRecordId input.profileRevisionId ∧ themeIdOk input.themeId ∧
      themeVersionOk input.themeVersion then .ok input
  else .error (.typeError "Remote UI host presentation is invalid.")

/-! ### Keys -/

/-- mirrors packages/ui-runtime/src/remote-ui-host.ts:448 -/
def remoteUiAuthorizationScopeKey (scope : RemoteUiAuthorizationScope) : String :=
  joinNul [scope.applicationId, scope.environment]

/-- mirrors packages/ui-runtime/src/remote-ui-host.ts:447 -/
def remoteUiGenerationOwnerKey (owner : RemoteUiGenerationOwner) : String :=
  joinNul [owner.applicationId, owner.environment, owner.appId]

/-- mirrors packages/ui-runtime/src/remote-ui-host.ts:449 -/
def remoteUiGenerationKey (owner : RemoteUiGenerationOwner) (generationId : String) : String :=
  joinNul [owner.applicationId, owner.environment, owner.appId, generationId]

/-- The keys that belong to a key: those that start with it and a NUL. -/
def below (key k : String) : Bool := startsWith (key ++ String.singleton nul) k

/-! ## State -/

structure St where
  active : JsMap String RemoteUiGenerationSnapshot
  observed : JsMap String RemoteUiGenerationSnapshot
  sessions : JsMap String (List Nat)
  pendingRetirements : JsMap String Nat
  admissions : JsMap String RemoteUiAuthorizationAdmission
  revokedRevisions : JsMap String Int
  objects : List RemoteUiHostSession
  /-- the scheduled drains; the symbol of one is its place -/
  timers : List RemoteUiGenerationSnapshot
  delivered : List RemoteUiAuthorizationInvalidation

def init : St := ⟨.empty, .empty, .empty, .empty, .empty, .empty, [], [], []⟩

inductive Ev where
  | observe (snapshot : RemoteUiGenerationSnapshot) (drainMs : Int)
  | openSession (snapshot : RemoteUiGenerationSnapshot) (request : RemoteUiSessionRequest)
  | retire (owner : RemoteUiGenerationOwner) (generationId : String)
  | revoke (invalidation : RemoteUiAuthorizationInvalidation)
  | admitted (admission : RemoteUiAuthorizationAdmission)
  | timer (k : Nat)
  | dispose (i : Nat)
  deriving DecidableEq, Repr

/-! ## Steps -/

/-- The sessions under the keys that `p` selects. -/
def St.selected (s : St) (p : String → Bool) : List Nat :=
  (s.sessions.entries.filter fun e => p e.1).flatMap Prod.snd

def closeAll (ids : List Nat) (objects : List RemoteUiHostSession) : List RemoteUiHostSession :=
  objects.mapIdx fun i x => if i ∈ ids then { x with closed := true } else x

/-- The sets under these keys are removed, and their sessions disposed of. -/
def dropSessions (s : St) (p : String → Bool) : St :=
  { s with
    sessions := s.sessions.filter fun k _ => !p k
    objects := closeAll (s.selected p) s.objects }

/-- mirrors packages/ui-runtime/src/remote-ui-host.ts:380-388 -/
def disposeOwner (s : St) (owner : RemoteUiGenerationOwner) : St :=
  let key := remoteUiGenerationOwnerKey owner
  dropSessions
    { s with pendingRetirements := s.pendingRetirements.filter fun k _ => !below key k } (below key)

/-- mirrors packages/ui-runtime/src/remote-ui-host.ts:369-378 -/
def drain (s : St) (snapshot : RemoteUiGenerationSnapshot) : St :=
  { s with
    pendingRetirements := s.pendingRetirements.set
      (remoteUiGenerationKey snapshot.toRemoteUiGenerationOwner snapshot.generationId)
      s.timers.length
    timers := s.timers ++ [snapshot] }

/-- `observe` of a snapshot that parses.
mirrors packages/ui-runtime/src/remote-ui-host.ts:280-300 -/
def observeSnapshot (s : St) (snapshot : RemoteUiGenerationSnapshot) (drainMs : Int) :
    Except RemoteUiError St :=
  let ownerKey := remoteUiGenerationOwnerKey snapshot.toRemoteUiGenerationOwner
  let previous := s.observed.get? ownerKey
  let active := s.active.get? ownerKey
  if drainMs < 1 ∨ 30000 < drainMs then
    .error (.typeError "Remote UI generation drain is invalid.")
  else if ∃ p ∈ previous, snapshot.revision < p.revision then
    .error (.typeError "Remote UI generation observations must advance monotonically.")
  else if ∃ p ∈ previous, snapshot.revision = p.revision then
    if previous = some snapshot then .ok s
    else .error
      (.typeError "Remote UI generation observations with the same revision must match.")
  else if ∃ a ∈ active, snapshot.disposition = .active ∧ a.generationId = snapshot.generationId ∧
      a.artifactDigest ≠ snapshot.artifactDigest then
    .error (.typeError "An immutable Remote UI generation cannot change artifact digest.")
  else
    let s := { s with observed := s.observed.set ownerKey snapshot }
    if snapshot.disposition ≠ .active then
      .ok (disposeOwner { s with active := s.active.delete ownerKey }
        snapshot.toRemoteUiGenerationOwner)
    else if (s.admissions.get? (remoteUiAuthorizationScopeKey
        snapshot.toRemoteUiAuthorizationScope)).isNone then .ok s
    else
      let s := { s with
        active := s.active.set ownerKey snapshot
        pendingRetirements := s.pendingRetirements.delete
          (remoteUiGenerationKey snapshot.toRemoteUiGenerationOwner snapshot.generationId) }
      match active with
      | some a => if a.generationId ≠ snapshot.generationId then .ok (drain s a) else .ok s
      | none => .ok s

/-- mirrors packages/ui-runtime/src/remote-ui-host.ts:278-300 -/
def observe (s : St) (snapshotInput : RemoteUiGenerationSnapshot) (drainMs : Int) :
    Except RemoteUiError St := do
  let snapshot ← remoteUiGenerationSnapshot snapshotInput
  observeSnapshot s snapshot drainMs

/-- The session object is registered under its generation.
mirrors packages/ui-runtime/src/remote-ui-host.ts:308-314 -/
def register (s : St) (active : RemoteUiGenerationSnapshot) (request : RemoteUiSessionRequest)
    (presentation : RemoteUiHostPresentation) : St :=
  let key := remoteUiGenerationKey active.toRemoteUiGenerationOwner active.generationId
  { s with
    sessions := s.sessions.set key ((s.sessions.get? key).getD [] ++ [s.objects.length])
    objects := s.objects ++ [{
      toRemoteUiGenerationOwner := active.toRemoteUiGenerationOwner
      sessionId := request.sessionId
      generationId := active.generationId
      artifactDigest := active.artifactDigest
      presentation := presentation
      closed := false
      openedUnder := (s.admissions.get? (remoteUiAuthorizationScopeKey
        active.toRemoteUiAuthorizationScope)).map (·.authorizationRevision) }] }

/-- `open` of a snapshot that parses.
mirrors packages/ui-runtime/src/remote-ui-host.ts:304-315 -/
def openSnapshot (s : St) (snapshot : RemoteUiGenerationSnapshot)
    (request : RemoteUiSessionRequest) : Except RemoteUiError St :=
  match s.active.get? (remoteUiGenerationOwnerKey snapshot.toRemoteUiGenerationOwner) with
  | some active =>
    if active.disposition ≠ .active ∨ active ≠ snapshot then
      .error (.protocol "IDENTITY_MISMATCH"
        "New Remote UI sessions require the current active generation snapshot.")
    else if validRecordId request.sessionId = false then
      .error (.protocol "IDENTITY_MISMATCH" "Remote UI session identity is invalid.")
    else (remoteUiHostPresentation request.presentation).map (register s active request)
  | none => .error (.protocol "IDENTITY_MISMATCH"
      "New Remote UI sessions require the current active generation snapshot.")

/-- mirrors packages/ui-runtime/src/remote-ui-host.ts:302-315 -/
def openSession (s : St) (snapshotInput : RemoteUiGenerationSnapshot)
    (request : RemoteUiSessionRequest) : Except RemoteUiError St := do
  let snapshot ← remoteUiGenerationSnapshot snapshotInput
  openSnapshot s snapshot request

def retireKey (s : St) (key : String) : Nat × St :=
  let s := { s with pendingRetirements := s.pendingRetirements.delete key }
  ((s.selected (· = key)).length, dropSessions s (· = key))

/-- mirrors packages/ui-runtime/src/remote-ui-host.ts:317-328 -/
def retire (s : St) (ownerInput : RemoteUiGenerationOwner) (generationId : String) :
    Except RemoteUiError (Nat × St) := do
  let owner ← remoteUiGenerationOwner ownerInput
  if validRecordId generationId then .ok (retireKey s (remoteUiGenerationKey owner generationId))
  else .error (.typeError "Remote UI generation retirement is invalid.")

/-- The revocation says nothing new: it is at most the last one, or below the admission. -/
def St.ignores (s : St) (invalidation : RemoteUiAuthorizationInvalidation) : Prop :=
  let scopeKey := remoteUiAuthorizationScopeKey invalidation.toRemoteUiAuthorizationScope
  (∃ revoked ∈ s.revokedRevisions.get? scopeKey, invalidation.authorizationRevision ≤ revoked) ∨
    ∃ admission ∈ s.admissions.get? scopeKey,
      invalidation.authorizationRevision < admission.authorizationRevision

instance (s : St) (invalidation : RemoteUiAuthorizationInvalidation) :
    Decidable (s.ignores invalidation) := inferInstanceAs (Decidable (_ ∨ _))

/-- Ends the live realms of a scope.
mirrors packages/ui-runtime/src/remote-ui-host.ts:337-352 -/
def withdraw (s : St) (invalidation : RemoteUiAuthorizationInvalidation) : Nat × St :=
  let scopeKey := remoteUiAuthorizationScopeKey invalidation.toRemoteUiAuthorizationScope
  let s := { s with
    revokedRevisions := s.revokedRevisions.set scopeKey invalidation.authorizationRevision
    admissions := s.admissions.delete scopeKey
    active := s.active.filter fun k _ => !below scopeKey k
    pendingRetirements := s.pendingRetirements.filter fun k _ => !below scopeKey k }
  ((s.selected (below scopeKey)).length, dropSessions s (below scopeKey))

/-- mirrors packages/ui-runtime/src/remote-ui-host.ts:331-352 -/
def revokeAuthorization (s : St) (invalidationInput : RemoteUiAuthorizationInvalidation) :
    Except RemoteUiError (Nat × St) := do
  let invalidation ← remoteUiAuthorizationInvalidation invalidationInput
  let s := { s with delivered := invalidation :: s.delivered }
  if s.ignores invalidation then .ok (0, s) else .ok (withdraw s invalidation)

/-- The observed active generations of the scope become active. -/
def reopen (scopeKey : String) (active : JsMap String RemoteUiGenerationSnapshot) :
    List (String × RemoteUiGenerationSnapshot) → JsMap String RemoteUiGenerationSnapshot
  | [] => active
  | (ownerKey, snapshot) :: rest =>
    if below scopeKey ownerKey ∧ snapshot.disposition = .active then
      reopen scopeKey (active.set ownerKey snapshot) rest
    else reopen scopeKey active rest

/-- `admitAuthorization` of an admission that parses.
mirrors packages/ui-runtime/src/remote-ui-host.ts:357-367 -/
def admitParsed (s : St) (admission : RemoteUiAuthorizationAdmission) : Except RemoteUiError St :=
  let scopeKey := remoteUiAuthorizationScopeKey admission.toRemoteUiAuthorizationScope
  let current := s.admissions.get? scopeKey
  if ∃ revoked ∈ s.revokedRevisions.get? scopeKey, admission.authorizationRevision < revoked then
    .error (.typeError "Remote UI authorization admission regresses a revoked revision.")
  else if ∃ c ∈ current, admission.authorizationRevision < c.authorizationRevision then
    .error (.typeError "Remote UI authorization admissions must advance monotonically.")
  else if ∃ c ∈ current, admission.authorizationRevision = c.authorizationRevision then
    if ∃ c ∈ current, c.authorizationProof = admission.authorizationProof then .ok s
    else .error (.typeError
      "Remote UI authorization admission proof conflicts at the same revision.")
  else .ok { s with
    admissions := s.admissions.set scopeKey admission
    active := reopen scopeKey s.active s.observed.entries }

/-- mirrors packages/ui-runtime/src/remote-ui-host.ts:355-367 -/
def admitAuthorization (s : St) (admissionInput : RemoteUiAuthorizationAdmission) :
    Except RemoteUiError St := do
  let admission ← remoteUiAuthorizationAdmission admissionInput
  admitParsed s admission

/-- A drain that has run out.
mirrors packages/ui-runtime/src/remote-ui-host.ts:373-377 -/
def expire (s : St) (k : Nat) (snapshot : RemoteUiGenerationSnapshot) : St :=
  let key := remoteUiGenerationKey snapshot.toRemoteUiGenerationOwner snapshot.generationId
  if s.pendingRetirements.get? key ≠ some k then s
  else
    let s := { s with pendingRetirements := s.pendingRetirements.delete key }
    if (s.active.get? (remoteUiGenerationOwnerKey snapshot.toRemoteUiGenerationOwner)).map
        (·.generationId) ≠ some snapshot.generationId then (retireKey s key).2
    else s

/-- mirrors packages/ui-runtime/src/remote-ui-host.ts:390-396 -/
def unregister (s : St) (i : Nat) (session : RemoteUiHostSession) : St :=
  let key := remoteUiGenerationKey session.toRemoteUiGenerationOwner session.generationId
  match s.sessions.get? key with
  | none => s
  | some sessions =>
    let sessions := sessions.erase i
    { s with sessions :=
        if sessions = [] then s.sessions.delete key else s.sessions.set key sessions }

/-- `session.dispose()`
mirrors packages/ui-runtime/src/remote-ui-host.ts:175-191 -/
def dispose (s : St) (i : Nat) (session : RemoteUiHostSession) : St :=
  if session.closed then s
  else unregister { s with objects := s.objects.set i { session with closed := true } } i session

/-- A call that throws changes nothing. -/
def step (s : St) : Ev → Option St
  | .observe snapshot drainMs =>
    match observe s snapshot drainMs with
    | .ok s' => some s'
    | .error _ => some s
  | .openSession snapshot request =>
    match openSession s snapshot request with
    | .ok s' => some s'
    | .error _ => some s
  | .retire owner generationId =>
    match retire s owner generationId with
    | .ok r => some r.2
    | .error _ => some s
  | .revoke invalidation =>
    match revokeAuthorization s invalidation with
    | .ok r => some r.2
    | .error _ => some s
  | .admitted admission =>
    match admitAuthorization s admission with
    | .ok s' => some s'
    | .error _ => some s
  | .timer k => s.timers[k]?.map (expire s k)
  | .dispose i => s.objects[i]?.map (dispose s i)

def lts : LTS St Ev := .ofFn (· = init) step

/-! ## The law -/

/-- No live session was opened under a revision below a delivered revocation of its scope. -/
def Withdrawn (s : St) : Prop :=
  ∀ x ∈ s.objects, x.closed = false → ∀ i ∈ s.delivered,
    i.toRemoteUiAuthorizationScope = x.toRemoteUiAuthorizationScope →
    ∃ revision ∈ x.openedUnder, i.authorizationRevision ≤ revision

/-- A revocation below the admission of its scope finds every live session of the scope opened
under that revision or a later one. -/
def Covered (s : St) (ev : Ev) : Prop :=
  ∀ i, ev = .revoke i → scopeOk i.toRemoteUiAuthorizationScope = true →
    revisionOk i.authorizationRevision = true →
    ∀ admission ∈ s.admissions.get? (remoteUiAuthorizationScopeKey i.toRemoteUiAuthorizationScope),
      i.authorizationRevision < admission.authorizationRevision →
      ∀ x ∈ s.objects, x.closed = false →
        i.toRemoteUiAuthorizationScope = x.toRemoteUiAuthorizationScope →
        ∃ revision ∈ x.openedUnder, i.authorizationRevision ≤ revision

/-! ## Parsing -/

theorem invalidation_ok {x y : RemoteUiAuthorizationInvalidation} :
    remoteUiAuthorizationInvalidation x = .ok y ↔ y = x ∧
      scopeOk x.toRemoteUiAuthorizationScope = true ∧ revisionOk x.authorizationRevision = true := by
  unfold remoteUiAuthorizationInvalidation remoteUiAuthorizationScope
  rw [bind_eq_ok]
  constructor
  · rintro ⟨scope, hs, hx⟩
    split at hs
    · split at hx
      · exact ⟨(Except.ok.inj hx).symm, ‹_›, ‹_›⟩
      · cases hx
    · cases hs
  · rintro ⟨rfl, hs, hr⟩
    exact ⟨y.toRemoteUiAuthorizationScope, by rw [if_pos hs], by rw [if_pos hr]⟩

theorem admission_ok {x y : RemoteUiAuthorizationAdmission}
    (h : remoteUiAuthorizationAdmission x = .ok y) :
    y = x ∧ scopeOk x.toRemoteUiAuthorizationScope = true := by
  unfold remoteUiAuthorizationAdmission at h
  obtain ⟨i, hi, hx⟩ := bind_eq_ok.mp h
  split at hx
  · exact ⟨(Except.ok.inj hx).symm, (invalidation_ok.mp hi).2.1⟩
  · cases hx

theorem owner_ok {x y : RemoteUiGenerationOwner} (h : remoteUiGenerationOwner x = .ok y) :
    y = x ∧ ownerOk x = true := by
  unfold remoteUiGenerationOwner remoteUiAuthorizationScope at h
  obtain ⟨scope, hs, hx⟩ := bind_eq_ok.mp h
  split at hs
  · rename_i hscope
    split at hx
    · rename_i happ
      exact ⟨(Except.ok.inj hx).symm, by rw [ownerOk, hscope, happ]; rfl⟩
    · cases hx
  · cases hs

theorem snapshot_ok {x y : RemoteUiGenerationSnapshot} (h : remoteUiGenerationSnapshot x = .ok y) :
    y = x ∧ ownerOk x.toRemoteUiGenerationOwner = true ∧ validRecordId x.generationId = true := by
  unfold remoteUiGenerationSnapshot at h
  obtain ⟨owner, ho, hx⟩ := bind_eq_ok.mp h
  split at hx
  · rename_i hok
    exact ⟨(Except.ok.inj hx).symm, (owner_ok ho).2, hok.1⟩
  · cases hx

/-! ## Keys -/

theorem environmentIdOk_nulFree {s : String} (h : environmentIdOk s = true) : NulFree s := by
  unfold environmentIdOk at h
  unfold NulFree
  split at h
  · cases h
  · rename_i c cs hs
    simp only [Bool.and_eq_true] at h
    rw [hs]
    exact kebabRun_notin separator_nul h.1.1 h.1.2

theorem appIdOk_nulFree {s : String} (h : appIdOk s = true) : NulFree s := by
  refine dotted_notin separator_nul ?_ h
  intro p hp
  rw [of_decide_eq_true hp]
  decide

theorem scope_nulFree {scope : RemoteUiAuthorizationScope} (h : scopeOk scope = true) :
    ∀ a ∈ [scope.applicationId, scope.environment], NulFree a := by
  simp only [scopeOk, Bool.and_eq_true] at h
  intro a ha
  rcases List.mem_cons.mp ha with rfl | ha
  · exact runtimeGenerationIdOk_nulFree h.1
  · rw [List.mem_singleton.mp ha]
    exact environmentIdOk_nulFree h.2

theorem owner_nulFree {owner : RemoteUiGenerationOwner} (h : ownerOk owner = true) :
    ∀ a ∈ [owner.applicationId, owner.environment, owner.appId], NulFree a := by
  simp only [ownerOk, Bool.and_eq_true] at h
  have hs := scope_nulFree h.1
  simp only [List.forall_mem_cons] at hs ⊢
  exact ⟨hs.1, hs.2.1, appIdOk_nulFree h.2, fun a ha => by cases ha⟩

theorem scope_ext {scope scope' : RemoteUiAuthorizationScope}
    (h : [scope.applicationId, scope.environment] = [scope'.applicationId, scope'.environment]) :
    scope = scope' := by
  simp only [List.cons.injEq] at h
  cases scope
  cases scope'
  simp_all

theorem scopeKey_injective {scope scope' : RemoteUiAuthorizationScope} (h : scopeOk scope = true)
    (h' : scopeOk scope' = true)
    (heq : remoteUiAuthorizationScopeKey scope = remoteUiAuthorizationScopeKey scope') :
    scope = scope' :=
  scope_ext (joinNul_injective rfl (scope_nulFree h) (scope_nulFree h') heq)

theorem ownerKey_below {scope : RemoteUiAuthorizationScope} {owner : RemoteUiGenerationOwner}
    (h : scopeOk scope = true) (ho : ownerOk owner = true) :
    below (remoteUiAuthorizationScopeKey scope) (remoteUiGenerationOwnerKey owner) = true ↔
      scope = owner.toRemoteUiAuthorizationScope := by
  unfold below remoteUiAuthorizationScopeKey remoteUiGenerationOwnerKey
  rw [startsWith_joinNul (by simp) (by simp) (scope_nulFree h) (owner_nulFree ho)]
  constructor
  · intro hp
    rw [List.prefix_iff_eq_take] at hp
    exact scope_ext hp
  · rintro rfl
    exact ⟨[owner.appId], rfl⟩

theorem generationKey_below {scope : RemoteUiAuthorizationScope} {owner : RemoteUiGenerationOwner}
    {generationId : String} (h : scopeOk scope = true) (ho : ownerOk owner = true)
    (hg : validRecordId generationId = true) :
    below (remoteUiAuthorizationScopeKey scope) (remoteUiGenerationKey owner generationId) = true ↔
      scope = owner.toRemoteUiAuthorizationScope := by
  have hn : ∀ a ∈ [owner.applicationId, owner.environment, owner.appId, generationId],
      NulFree a := by
    have hs := owner_nulFree ho
    simp only [List.forall_mem_cons] at hs ⊢
    exact ⟨hs.1, hs.2.1, hs.2.2.1, runtimeGenerationIdOk_nulFree hg, fun a ha => by cases ha⟩
  unfold below remoteUiAuthorizationScopeKey remoteUiGenerationKey
  rw [startsWith_joinNul (by simp) (by simp) (scope_nulFree h) hn]
  constructor
  · intro hp
    rw [List.prefix_iff_eq_take] at hp
    exact scope_ext hp
  · rintro rfl
    exact ⟨[owner.appId, generationId], rfl⟩

/-! ## Invariant -/

def RemoteUiHostSession.key (x : RemoteUiHostSession) : String :=
  remoteUiGenerationKey x.toRemoteUiGenerationOwner x.generationId

/-- Every live session is in the set of its generation. -/
def Registered (s : St) : Prop :=
  ∀ (i : Nat) (x : RemoteUiHostSession), s.objects[i]? = some x → x.closed = false →
    ∃ l, s.sessions.get? x.key = some l ∧ i ∈ l

/-- A delivered revocation is covered by the last one, or was ignored below the admission. -/
def Spent (s : St) (i : RemoteUiAuthorizationInvalidation) : Prop :=
  let scopeKey := remoteUiAuthorizationScopeKey i.toRemoteUiAuthorizationScope
  (∃ revoked ∈ s.revokedRevisions.get? scopeKey, i.authorizationRevision ≤ revoked) ∨
    ∃ admission ∈ s.admissions.get? scopeKey,
      i.authorizationRevision < admission.authorizationRevision

structure Inv (s : St) : Prop where
  activeOwner : ∀ k a, s.active.get? k = some a →
    k = remoteUiGenerationOwnerKey a.toRemoteUiGenerationOwner ∧
    ownerOk a.toRemoteUiGenerationOwner = true ∧ validRecordId a.generationId = true ∧
    (s.admissions.get? (remoteUiAuthorizationScopeKey a.toRemoteUiAuthorizationScope)).isSome
  observedOwner : ∀ k o, s.observed.get? k = some o →
    k = remoteUiGenerationOwnerKey o.toRemoteUiGenerationOwner ∧
    ownerOk o.toRemoteUiGenerationOwner = true ∧ validRecordId o.generationId = true
  regress : ∀ k a r, s.admissions.get? k = some a → s.revokedRevisions.get? k = some r →
    r ≤ a.authorizationRevision
  known : ∀ x ∈ s.objects, x.closed = false → ownerOk x.toRemoteUiGenerationOwner = true ∧
    validRecordId x.generationId = true ∧ ∃ u ∈ x.openedUnder, ∀ r ∈ s.revokedRevisions.get?
      (remoteUiAuthorizationScopeKey x.toRemoteUiAuthorizationScope), r ≤ u
  registered : Registered s
  delivered : ∀ i ∈ s.delivered, scopeOk i.toRemoteUiAuthorizationScope = true ∧ Spent s i
  withdrawn : Withdrawn s

theorem inv_init : Inv init := by
  refine ⟨?_, ?_, ?_, ?_, ?_, ?_, ?_⟩ <;> simp [init, Withdrawn, Registered]

variable {s s' : St} {ev : Ev}

/-- The drains have no part in it. -/
theorem inv_drains (h : Inv s) (pendingRetirements : JsMap String Nat)
    (timers : List RemoteUiGenerationSnapshot) :
    Inv { s with pendingRetirements := pendingRetirements, timers := timers } :=
  ⟨h.activeOwner, h.observedOwner, h.regress, h.known, h.registered, h.delivered, h.withdrawn⟩

/-! ### Sessions that end -/

theorem getElem?_closeAll {ids : List Nat} {objects : List RemoteUiHostSession} {i : Nat}
    {x : RemoteUiHostSession} (h : (closeAll ids objects)[i]? = some x) (hx : x.closed = false) :
    objects[i]? = some x ∧ i ∉ ids := by
  unfold closeAll at h
  rw [List.getElem?_mapIdx] at h
  obtain ⟨y, hy, heq⟩ := Option.map_eq_some_iff.mp h
  split at heq
  · rw [← heq] at hx
    cases hx
  · rename_i hi
    exact ⟨heq ▸ hy, hi⟩

theorem mem_selected {p : String → Bool} {k : String} {l : List Nat} {i : Nat}
    (hk : s.sessions.get? k = some l) (hp : p k = true) (hi : i ∈ l) : i ∈ s.selected p := by
  unfold St.selected
  rw [List.mem_flatMap]
  exact ⟨(k, l), List.mem_filter.mpr ⟨JsMap.get?_eq_some.mp hk, hp⟩, hi⟩

/-- A session that is live after sessions were dropped was live before, and not among them. -/
theorem live_drop (h : Registered s) {p : String → Bool} {i : Nat} {x : RemoteUiHostSession}
    (hx : (dropSessions s p).objects[i]? = some x) (hl : x.closed = false) :
    s.objects[i]? = some x ∧ p x.key = false := by
  obtain ⟨hold, hsel⟩ := getElem?_closeAll hx hl
  obtain ⟨l, hl', hmem⟩ := h i x hold hl
  refine ⟨hold, ?_⟩
  by_contra hp
  exact hsel (mem_selected hl' (by simpa using hp) hmem)

theorem live_drop_mem (h : Registered s) {p : String → Bool} {x : RemoteUiHostSession}
    (hx : x ∈ (dropSessions s p).objects) (hl : x.closed = false) :
    x ∈ s.objects ∧ p x.key = false := by
  obtain ⟨i, hlt, hget⟩ := List.getElem_of_mem hx
  have hi : (dropSessions s p).objects[i]? = some x := by
    rw [List.getElem?_eq_getElem hlt, hget]
  obtain ⟨hold, hp⟩ := live_drop h hi hl
  exact ⟨List.mem_of_getElem? hold, hp⟩

theorem registered_drop (h : Registered s) (p : String → Bool) :
    Registered (dropSessions s p) := by
  intro i x hx hl
  obtain ⟨hold, hp⟩ := live_drop h hx hl
  obtain ⟨l, hk, hmem⟩ := h i x hold hl
  refine ⟨l, ?_, hmem⟩
  unfold dropSessions
  rw [JsMap.get?_filter, hk, Option.filter_some, hp]
  rfl

theorem inv_drop (h : Inv s) (p : String → Bool) : Inv (dropSessions s p) where
  activeOwner := h.activeOwner
  observedOwner := h.observedOwner
  regress := h.regress
  known x hx hl := h.known x (live_drop_mem h.registered hx hl).1 hl
  registered := registered_drop h.registered p
  delivered := h.delivered
  withdrawn x hx hl := h.withdrawn x (live_drop_mem h.registered hx hl).1 hl

theorem inv_retireKey (h : Inv s) (key : String) : Inv (retireKey s key).2 :=
  inv_drop (inv_drains h (s.pendingRetirements.delete key) s.timers) _

theorem inv_expire (h : Inv s) (k : Nat) (snapshot : RemoteUiGenerationSnapshot) :
    Inv (expire s k snapshot) := by
  unfold expire
  dsimp only
  split
  · exact h
  have hd := inv_drains h (s.pendingRetirements.delete
    (remoteUiGenerationKey snapshot.toRemoteUiGenerationOwner snapshot.generationId)) s.timers
  split
  · exact inv_retireKey hd _
  · exact hd

/-- A session that is live after one ended was live before. -/
theorem live_dispose {i : Nat} {x : RemoteUiHostSession} {j : Nat} {y : RemoteUiHostSession}
    (hy : (dispose s i x).objects[j]? = some y) (hl : y.closed = false) :
    s.objects[j]? = some y := by
  unfold dispose at hy
  split at hy
  · exact hy
  have hobjects : (s.objects.set i { x with closed := true })[j]? = some y := by
    unfold unregister at hy
    dsimp only at hy
    split at hy <;> exact hy
  rcases getElem?_set_cases hobjects with ⟨-, hy⟩ | ⟨-, rfl⟩
  · exact hy
  · cases hl

/-- One session ends, and leaves the set of its generation. -/
theorem registered_dispose (h : Registered s) (i : Nat) (x : RemoteUiHostSession) :
    Registered (dispose s i x) := by
  unfold dispose
  split
  · exact h
  have hreg : ∀ {sessions : JsMap String (List Nat)}, (∀ (k : String) (l : List Nat) (j : Nat),
      s.sessions.get? k = some l → j ∈ l → j ≠ i → ∃ l', sessions.get? k = some l' ∧ j ∈ l') →
      Registered { s with
        sessions := sessions, objects := s.objects.set i { x with closed := true } } := by
    intro sessions hkeep j y hy hl
    rcases getElem?_set_cases hy with ⟨hne, hy⟩ | ⟨-, rfl⟩
    · obtain ⟨l, hk, hmem⟩ := h j y hy hl
      exact hkeep y.key l j hk hmem hne
    · cases hl
  unfold unregister
  dsimp only
  split
  · exact hreg fun k l j hk hj _ => ⟨l, hk, hj⟩
  · rename_i l hl
    refine hreg fun k l' j hk hj hne => ?_
    by_cases heq : k = remoteUiGenerationKey x.toRemoteUiGenerationOwner x.generationId
    · subst heq
      obtain rfl := Option.some.inj (hl.symm.trans hk)
      have hmem : j ∈ l.erase i := (List.mem_erase_of_ne hne).mpr hj
      rw [if_neg (List.ne_nil_of_mem hmem)]
      exact ⟨l.erase i, JsMap.get?_set_self _ _ _, hmem⟩
    · refine ⟨l', ?_, hj⟩
      split
      · rw [JsMap.get?_delete, if_neg heq]
        exact hk
      · rw [JsMap.get?_set_ne _ _ heq]
        exact hk

/-- The end of a session changes the objects and the sets of sessions only. -/
theorem dispose_rest (s : St) (i : Nat) (x : RemoteUiHostSession) :
    ∃ sessions objects, dispose s i x = { s with sessions := sessions, objects := objects } := by
  unfold dispose
  split
  · exact ⟨s.sessions, s.objects, rfl⟩
  unfold unregister
  dsimp only
  split
  · exact ⟨_, _, rfl⟩
  · exact ⟨_, _, rfl⟩

theorem inv_dispose (h : Inv s) (i : Nat) (x : RemoteUiHostSession) : Inv (dispose s i x) := by
  have live : ∀ {y : RemoteUiHostSession}, y ∈ (dispose s i x).objects → y.closed = false →
      y ∈ s.objects := by
    intro y hy hl
    obtain ⟨j, hj⟩ := List.getElem?_of_mem hy
    exact List.mem_of_getElem? (live_dispose hj hl)
  have hreg := registered_dispose h.registered i x
  obtain ⟨sessions, objects, heq⟩ := dispose_rest s i x
  rw [heq] at live hreg ⊢
  exact ⟨h.activeOwner, h.observedOwner, h.regress, fun y hy hl => h.known y (live hy hl) hl,
    hreg, h.delivered, fun y hy hl => h.withdrawn y (live hy hl) hl⟩

/-! ### Generations -/

/-- The active generations change, within the scopes that are admitted. -/
theorem inv_active (h : Inv s) {active : JsMap String RemoteUiGenerationSnapshot}
    (ha : ∀ k a, active.get? k = some a →
      k = remoteUiGenerationOwnerKey a.toRemoteUiGenerationOwner ∧
      ownerOk a.toRemoteUiGenerationOwner = true ∧ validRecordId a.generationId = true ∧
      (s.admissions.get? (remoteUiAuthorizationScopeKey a.toRemoteUiAuthorizationScope)).isSome) :
    Inv { s with active := active } :=
  ⟨ha, h.observedOwner, h.regress, h.known, h.registered, h.delivered, h.withdrawn⟩

theorem inv_observed (h : Inv s) {snapshot : RemoteUiGenerationSnapshot}
    (ho : ownerOk snapshot.toRemoteUiGenerationOwner = true)
    (hg : validRecordId snapshot.generationId = true) :
    Inv { s with
      observed := s.observed.set
        (remoteUiGenerationOwnerKey snapshot.toRemoteUiGenerationOwner) snapshot } := by
  refine ⟨h.activeOwner, fun k o hk => ?_, h.regress, h.known, h.registered, h.delivered,
    h.withdrawn⟩
  rw [JsMap.get?_set] at hk
  split at hk
  · rename_i heq
    obtain rfl := Option.some.inj hk
    exact ⟨heq, ho, hg⟩
  · exact h.observedOwner k o hk

theorem inv_observe (h : Inv s) {snapshot : RemoteUiGenerationSnapshot} {drainMs : Int}
    (ho : ownerOk snapshot.toRemoteUiGenerationOwner = true)
    (hg : validRecordId snapshot.generationId = true)
    (hs : observeSnapshot s snapshot drainMs = .ok s') : Inv s' := by
  have hobs := inv_observed h ho hg
  unfold observeSnapshot at hs
  dsimp only at hs
  split at hs
  · cases hs
  split at hs
  · cases hs
  split at hs
  · split at hs
    · obtain rfl := Except.ok.inj hs
      exact h
    · cases hs
  split at hs
  · cases hs
  split at hs
  · -- a generation that is no longer active ends its owner's sessions
    obtain rfl := Except.ok.inj hs
    refine inv_drop (inv_drains (inv_active hobs fun k a hk => ?_) _ s.timers) _
    rw [JsMap.get?_delete] at hk
    split at hk
    · cases hk
    · exact h.activeOwner k a hk
  split at hs
  · obtain rfl := Except.ok.inj hs
    exact hobs
  rename_i hadmitted
  have hset : Inv { s with
      observed := s.observed.set
        (remoteUiGenerationOwnerKey snapshot.toRemoteUiGenerationOwner) snapshot
      active := s.active.set
        (remoteUiGenerationOwnerKey snapshot.toRemoteUiGenerationOwner) snapshot } := by
    refine inv_active hobs fun k a hk => ?_
    rw [JsMap.get?_set] at hk
    split at hk
    · rename_i heq
      obtain rfl := Option.some.inj hk
      exact ⟨heq, ho, hg, by simpa [Option.isSome_iff_ne_none] using hadmitted⟩
    · exact h.activeOwner k a hk
  split at hs
  · split at hs
    · obtain rfl := Except.ok.inj hs
      exact inv_drains hset _ _
    · obtain rfl := Except.ok.inj hs
      exact inv_drains hset _ s.timers
  · obtain rfl := Except.ok.inj hs
    exact inv_drains hset _ s.timers

theorem registered_register (h : Registered s) (a : RemoteUiGenerationSnapshot)
    (request : RemoteUiSessionRequest) (presentation : RemoteUiHostPresentation) :
    Registered (register s a request presentation) := by
  intro i x hx hl
  unfold register at hx ⊢
  dsimp only at hx ⊢
  rcases getElem?_snoc hx with hx | ⟨rfl, rfl⟩
  · obtain ⟨l, hk, hmem⟩ := h i x hx hl
    rw [JsMap.get?_set]
    split
    · rename_i heq
      rw [← heq, hk]
      exact ⟨_, rfl, List.mem_append_left _ hmem⟩
    · exact ⟨l, hk, hmem⟩
  · exact ⟨_, JsMap.get?_set_self _ _ _, List.mem_append_right _ (List.mem_singleton.mpr rfl)⟩

theorem inv_register (h : Inv s) {a : RemoteUiGenerationSnapshot}
    {request : RemoteUiSessionRequest} {presentation : RemoteUiHostPresentation}
    (ha : s.active.get? (remoteUiGenerationOwnerKey a.toRemoteUiGenerationOwner) = some a) :
    Inv (register s a request presentation) := by
  obtain ⟨-, ho, hg, hsome⟩ := h.activeOwner _ a ha
  obtain ⟨admission, hadm⟩ := Option.isSome_iff_exists.mp hsome
  have hunder : (s.admissions.get? (remoteUiAuthorizationScopeKey
      a.toRemoteUiAuthorizationScope)).map (·.authorizationRevision) =
      some admission.authorizationRevision := by
    rw [hadm]
    rfl
  have hscope : scopeOk a.toRemoteUiAuthorizationScope = true := by
    simp only [ownerOk, Bool.and_eq_true] at ho
    exact ho.1
  refine ⟨h.activeOwner, h.observedOwner, h.regress, fun x hx hl => ?_,
    registered_register h.registered a request presentation, h.delivered,
    fun x hx hl i hi heq => ?_⟩
  · rcases List.mem_append.mp hx with hx | hx
    · exact h.known x hx hl
    · rw [List.mem_singleton.mp hx]
      exact ⟨ho, hg, admission.authorizationRevision, hunder,
        fun r hr => h.regress _ admission r hadm hr⟩
  · rcases List.mem_append.mp hx with hx | hx
    · exact h.withdrawn x hx hl i hi heq
    · rw [List.mem_singleton.mp hx] at heq ⊢
      refine ⟨admission.authorizationRevision, hunder, ?_⟩
      -- every delivered revocation of the scope is at most the admission
      have hadm' : s.admissions.get? (remoteUiAuthorizationScopeKey
          i.toRemoteUiAuthorizationScope) = some admission := by
        rw [heq]
        exact hadm
      rcases (h.delivered i hi).2 with ⟨revoked, hr, hle⟩ | ⟨admission', ha', hlt⟩
      · have := h.regress _ admission revoked hadm' hr
        omega
      · obtain rfl := Option.some.inj (hadm'.symm.trans ha')
        omega

theorem inv_open (h : Inv s) {snapshot : RemoteUiGenerationSnapshot}
    {request : RemoteUiSessionRequest} (hs : openSnapshot s snapshot request = .ok s') : Inv s' := by
  unfold openSnapshot at hs
  split at hs
  · rename_i a ha
    split at hs
    · cases hs
    rename_i hsame
    obtain rfl := Decidable.not_not.mp (not_or.mp hsame).2
    split at hs
    · cases hs
    · obtain ⟨presentation, -, rfl⟩ := map_eq_ok.mp hs
      exact inv_register h ha
  · cases hs

/-! ### Authorizations -/

theorem reopen_get? {scopeKey : String} {P : String → RemoteUiGenerationSnapshot → Prop} :
    ∀ {entries : List (String × RemoteUiGenerationSnapshot)}
      {active : JsMap String RemoteUiGenerationSnapshot},
      (∀ k a, active.get? k = some a → P k a) →
      (∀ e ∈ entries, below scopeKey e.1 = true → e.2.disposition = .active → P e.1 e.2) →
      ∀ k a, (reopen scopeKey active entries).get? k = some a → P k a
  | [], active, ha, _ => ha
  | (ownerKey, snapshot) :: entries, active, ha, he => by
    have hrest := fun e hm => he e (List.mem_cons_of_mem _ hm)
    unfold reopen
    split
    · rename_i hb
      refine reopen_get? (fun k a hk => ?_) hrest
      rw [JsMap.get?_set] at hk
      split at hk
      · rename_i heq
        obtain rfl := Option.some.inj hk
        subst heq
        exact he _ List.mem_cons_self hb.1 hb.2
      · exact ha k a hk
    · exact reopen_get? ha hrest

theorem inv_admit (h : Inv s) {admission : RemoteUiAuthorizationAdmission}
    (hscope : scopeOk admission.toRemoteUiAuthorizationScope = true)
    (hs : admitParsed s admission = .ok s') : Inv s' := by
  unfold admitParsed at hs
  dsimp only at hs
  split at hs
  · cases hs
  rename_i hrev
  split at hs
  · cases hs
  rename_i hlow
  split at hs
  · split at hs
    · obtain rfl := Except.ok.inj hs
      exact h
    · cases hs
  rename_i heq
  obtain rfl := Except.ok.inj hs
  have some_set : ∀ {k : String}, (s.admissions.get? k).isSome → ((s.admissions.set
      (remoteUiAuthorizationScopeKey admission.toRemoteUiAuthorizationScope) admission).get?
        k).isSome := by
    intro k hk
    rw [JsMap.get?_set]
    split
    · rfl
    · exact hk
  refine ⟨?_, h.observedOwner, fun k a r hk hr => ?_, h.known, h.registered,
    fun i hi => ⟨(h.delivered i hi).1, ?_⟩, h.withdrawn⟩
  · refine reopen_get? (fun k a hk => ?_) fun e he hb _ => ?_
    · obtain ⟨hkey, ho, hg, hadm⟩ := h.activeOwner k a hk
      exact ⟨hkey, ho, hg, some_set hadm⟩
    · obtain ⟨hkey, ho, hg⟩ := h.observedOwner e.1 e.2 (JsMap.get?_eq_some.mpr he)
      rw [hkey, ownerKey_below hscope ho] at hb
      refine ⟨hkey, ho, hg, ?_⟩
      rw [← hb, JsMap.get?_set_self]
      rfl
  · rw [JsMap.get?_set] at hk
    split at hk
    · rename_i hkey
      obtain rfl := Option.some.inj hk
      by_contra hlt
      exact hrev ⟨r, hkey ▸ hr, by omega⟩
    · exact h.regress k a r hk hr
  · rcases (h.delivered i hi).2 with hspent | ⟨a, ha, hlt⟩
    · exact .inl hspent
    · refine .inr ?_
      show ∃ c ∈ (s.admissions.set _ admission).get? _, _
      rw [JsMap.get?_set]
      split
      · rename_i hkey
        refine ⟨admission, rfl, ?_⟩
        by_contra hge
        exact hlow ⟨a, hkey ▸ ha, by omega⟩
      · exact ⟨a, ha, hlt⟩

/-- A revocation that is ignored is covered by the last one, or below the admission. -/
theorem inv_ignored (h : Inv s) {i : RemoteUiAuthorizationInvalidation}
    (hscope : scopeOk i.toRemoteUiAuthorizationScope = true) (hi : s.ignores i)
    (hw : ∀ x ∈ s.objects, x.closed = false →
      i.toRemoteUiAuthorizationScope = x.toRemoteUiAuthorizationScope →
      ∃ revision ∈ x.openedUnder, i.authorizationRevision ≤ revision) :
    Inv { s with delivered := i :: s.delivered } :=
  ⟨h.activeOwner, h.observedOwner, h.regress, h.known, h.registered,
    List.forall_mem_cons.mpr ⟨⟨hscope, hi⟩, h.delivered⟩,
    fun x hx hl => List.forall_mem_cons.mpr ⟨hw x hx hl, h.withdrawn x hx hl⟩⟩

/-- A revocation that counts ends every session of its scope. -/
theorem inv_withdraw (h : Inv s) {i : RemoteUiAuthorizationInvalidation}
    (hscope : scopeOk i.toRemoteUiAuthorizationScope = true) (hi : ¬ s.ignores i) :
    Inv (withdraw { s with delivered := i :: s.delivered } i).2 := by
  obtain ⟨hnew, hlow⟩ := not_or.mp hi
  have gone : ∀ x ∈ (withdraw { s with delivered := i :: s.delivered } i).2.objects,
      x.closed = false → x ∈ s.objects ∧
        i.toRemoteUiAuthorizationScope ≠ x.toRemoteUiAuthorizationScope := by
    intro x hx hl
    obtain ⟨hold, hp⟩ := live_drop_mem (s := s) h.registered hx hl
    obtain ⟨ho, hg, -⟩ := h.known x hold hl
    refine ⟨hold, fun heq => ?_⟩
    have hb := (generationKey_below hscope ho hg).mpr heq
    unfold RemoteUiHostSession.key at hp
    rw [hb] at hp
    cases hp
  have other : ∀ {scope : RemoteUiAuthorizationScope}, scopeOk scope = true →
      i.toRemoteUiAuthorizationScope ≠ scope → remoteUiAuthorizationScopeKey scope ≠
        remoteUiAuthorizationScopeKey i.toRemoteUiAuthorizationScope :=
    fun hok hne heq => hne (scopeKey_injective hok hscope heq).symm
  refine ⟨fun k a hk => ?_, h.observedOwner, fun k a r hk hr => ?_, fun x hx hl => ?_,
    (inv_drop h _).registered, List.forall_mem_cons.mpr ⟨⟨hscope, .inl ?_⟩, fun j hj => ?_⟩,
    fun x hx hl j hj heq => ?_⟩
  · unfold withdraw dropSessions at hk ⊢
    dsimp only at hk ⊢
    rw [JsMap.get?_filter, Option.filter_eq_some_iff] at hk
    obtain ⟨hkey, ho, hg, hadm⟩ := h.activeOwner k a hk.1
    have hscope' : scopeOk a.toRemoteUiAuthorizationScope = true := by
      simp only [ownerOk, Bool.and_eq_true] at ho
      exact ho.1
    have hne : i.toRemoteUiAuthorizationScope ≠ a.toRemoteUiAuthorizationScope := by
      intro heq
      have hb := (ownerKey_below hscope ho).mpr heq
      rw [← hkey] at hb
      simp [hb] at hk
    refine ⟨hkey, ho, hg, ?_⟩
    rw [JsMap.get?_delete, if_neg (other hscope' hne)]
    exact hadm
  · unfold withdraw dropSessions at hk hr
    dsimp only at hk hr
    rw [JsMap.get?_delete] at hk
    split at hk
    · cases hk
    · rename_i hne
      rw [JsMap.get?_set_ne _ _ hne] at hr
      exact h.regress k a r hk hr
  · obtain ⟨hold, hne⟩ := gone x hx hl
    obtain ⟨ho, hg, u, hu, hle⟩ := h.known x hold hl
    have hscope' : scopeOk x.toRemoteUiAuthorizationScope = true := by
      simp only [ownerOk, Bool.and_eq_true] at ho
      exact ho.1
    refine ⟨ho, hg, u, hu, fun r hr => ?_⟩
    unfold withdraw dropSessions at hr
    dsimp only at hr
    rw [JsMap.get?_set_ne _ _ (other hscope' hne)] at hr
    exact hle r hr
  · exact ⟨i.authorizationRevision, JsMap.get?_set_self _ _ _, Int.le_refl _⟩
  · obtain ⟨hj', hspent⟩ := h.delivered j hj
    refine ⟨hj', ?_⟩
    unfold Spent withdraw dropSessions
    dsimp only
    rw [JsMap.get?_set, JsMap.get?_delete]
    split
    · rename_i hkey
      refine .inl ⟨i.authorizationRevision, rfl, ?_⟩
      rcases hspent with ⟨r, hr, hle⟩ | ⟨a, ha, hlt⟩
      · have : ¬ i.authorizationRevision ≤ r := fun hge => hnew ⟨r, hkey ▸ hr, hge⟩
        omega
      · have : ¬ i.authorizationRevision < a.authorizationRevision :=
          fun hgt => hlow ⟨a, hkey ▸ ha, hgt⟩
        omega
    · exact hspent
  · obtain ⟨hold, hne⟩ := gone x hx hl
    rcases List.mem_cons.mp hj with rfl | hj
    · exact absurd heq hne
    · exact h.withdrawn x hold hl j hj heq

/-! ## Steps -/

/-- What a delivered revocation does. -/
theorem revoke_cases {i : RemoteUiAuthorizationInvalidation} (hs : step s (.revoke i) = some s') :
    (s' = s ∧ ¬ (scopeOk i.toRemoteUiAuthorizationScope = true ∧
      revisionOk i.authorizationRevision = true)) ∨
    (scopeOk i.toRemoteUiAuthorizationScope = true ∧ revisionOk i.authorizationRevision = true ∧
      (s.ignores i ∧ s' = { s with delivered := i :: s.delivered } ∨
        ¬ s.ignores i ∧ s' = (withdraw { s with delivered := i :: s.delivered } i).2)) := by
  unfold step revokeAuthorization at hs
  dsimp only at hs
  cases hp : remoteUiAuthorizationInvalidation i with
  | error e =>
    rw [hp] at hs
    refine .inl ⟨(Option.some.inj hs).symm, fun hok => ?_⟩
    have hparse := invalidation_ok.mpr ⟨rfl, hok⟩
    rw [hp] at hparse
    cases hparse
  | ok i' =>
    obtain ⟨rfl, hscope, hrev⟩ := invalidation_ok.mp hp
    rw [hp] at hs
    refine .inr ⟨hscope, hrev, ?_⟩
    by_cases hi : s.ignores i'
    · have hi' : ({ s with delivered := i' :: s.delivered } : St).ignores i' := hi
      simp only [bind, Except.bind, if_pos hi'] at hs
      exact .inl ⟨hi, (Option.some.inj hs).symm⟩
    · have hi' : ¬ ({ s with delivered := i' :: s.delivered } : St).ignores i' := hi
      simp only [bind, Except.bind, if_neg hi'] at hs
      exact .inr ⟨hi, (Option.some.inj hs).symm⟩

/-- An ignored revocation is harmless when it is covered, or no later than the last one. -/
theorem harmless (h : Inv s) {i : RemoteUiAuthorizationInvalidation}
    (hscope : scopeOk i.toRemoteUiAuthorizationScope = true)
    (hrev : revisionOk i.authorizationRevision = true) (hi : s.ignores i)
    (hc : Covered s (.revoke i)) : ∀ x ∈ s.objects, x.closed = false →
      i.toRemoteUiAuthorizationScope = x.toRemoteUiAuthorizationScope →
      ∃ revision ∈ x.openedUnder, i.authorizationRevision ≤ revision := by
  intro x hx hl heq
  rcases hi with ⟨revoked, hr, hle⟩ | ⟨admission, ha, hlt⟩
  · obtain ⟨-, -, u, hu, hmax⟩ := h.known x hx hl
    have := hmax revoked (heq ▸ hr)
    exact ⟨u, hu, by omega⟩
  · exact hc i rfl hscope hrev admission ha hlt x hx hl heq

theorem inv_step (h : Inv s) (hs : step s ev = some s') (hc : Covered s ev) : Inv s' := by
  cases ev with
  | observe snapshot drainMs =>
    simp only [step] at hs
    split at hs
    · rename_i r hr
      obtain rfl := Option.some.inj hs
      obtain ⟨parsed, hp, hobs⟩ := bind_eq_ok.mp hr
      obtain ⟨rfl, ho, hg⟩ := snapshot_ok hp
      exact inv_observe h ho hg hobs
    · obtain rfl := Option.some.inj hs
      exact h
  | openSession snapshot request =>
    simp only [step] at hs
    split at hs
    · rename_i r hr
      obtain rfl := Option.some.inj hs
      obtain ⟨parsed, -, hopen⟩ := bind_eq_ok.mp hr
      exact inv_open h hopen
    · obtain rfl := Option.some.inj hs
      exact h
  | retire owner generationId =>
    simp only [step] at hs
    split at hs
    · rename_i r hr
      obtain rfl := Option.some.inj hs
      obtain ⟨parsed, -, hret⟩ := bind_eq_ok.mp hr
      split at hret
      · obtain rfl := Except.ok.inj hret
        exact inv_retireKey h _
      · cases hret
    · obtain rfl := Option.some.inj hs
      exact h
  | revoke i =>
    rcases revoke_cases hs with ⟨rfl, -⟩ | ⟨hscope, hrev, ⟨hi, rfl⟩ | ⟨hi, rfl⟩⟩
    · exact h
    · exact inv_ignored h hscope hi (harmless h hscope hrev hi hc)
    · exact inv_withdraw h hscope hi
  | admitted admission =>
    simp only [step] at hs
    split at hs
    · rename_i r hr
      obtain rfl := Option.some.inj hs
      obtain ⟨parsed, hp, hadm⟩ := bind_eq_ok.mp hr
      obtain ⟨rfl, hscope⟩ := admission_ok hp
      exact inv_admit h hscope hadm
    · obtain rfl := Option.some.inj hs
      exact h
  | timer k =>
    obtain ⟨snapshot, -, hs'⟩ := Option.map_eq_some_iff.mp hs
    subst hs'
    exact inv_expire h k snapshot
  | dispose i =>
    obtain ⟨x, -, hs'⟩ := Option.map_eq_some_iff.mp hs
    subst hs'
    exact inv_dispose h i x

/-- A revocation below the admission changes nothing but the history. -/
theorem covered_of_withdrawn (hs : step s ev = some s') (hw : Withdrawn s') : Covered s ev := by
  intro i hev hscope hrev admission ha hlt x hx hl heq
  subst hev
  rcases revoke_cases hs with ⟨-, hbad⟩ | ⟨-, -, ⟨-, rfl⟩ | ⟨hi, -⟩⟩
  · exact absurd ⟨hscope, hrev⟩ hbad
  · exact hw x hx hl i List.mem_cons_self heq
  · exact absurd (.inr ⟨admission, ha, hlt⟩) hi

/-! ## Headline properties -/

/-- **No live session under a withdrawn authorization.** Every state of a run has the law exactly
when each revocation below the admission of its scope finds the live sessions of the scope opened
under that revision or a later one. -/
theorem withdrawn_iff (ls : List Ev) (s : St) :
    (lts.guard fun _ _ s' => Withdrawn s').Run init ls s ↔
      (lts.guard fun s ev _ => Covered s ev).Run init ls s :=
  LTS.guard_run_iff (I := Inv) (fun _ _ _ h hs hc => inv_step h hs hc)
    (fun _ _ _ h hs => ⟨covered_of_withdrawn hs, fun hc => (inv_step h hs hc).withdrawn⟩) inv_init

/-! ### A revocation that comes after a later admission -/

def snapshotEx : RemoteUiGenerationSnapshot where
  applicationId := "customer-alpha"
  environment := "production"
  appId := "app.sales-live"
  generationId := "sales-generation-1"
  artifactDigest := "sha256:" ++ String.ofList (List.replicate 64 'a')
  revision := 1
  disposition := .active

def requestEx : RemoteUiSessionRequest where
  sessionId := "remote-session-1"
  presentation := ⟨"sales-admin-profile-1", "theme.default", "1.0.0", .admin, .system⟩

def admissionEx (revision : Int) : RemoteUiAuthorizationAdmission :=
  ⟨⟨snapshotEx.toRemoteUiAuthorizationScope, revision⟩, "authorization-proof"⟩

def revocationEx : RemoteUiAuthorizationInvalidation :=
  ⟨snapshotEx.toRemoteUiAuthorizationScope, 2⟩

/-- The session is opened under revision 1, and revision 3 is admitted before 2 is revoked. -/
def traceLate : List Ev :=
  [.observe snapshotEx 100, .admitted (admissionEx 1), .openSession snapshotEx requestEx,
    .admitted (admissionEx 3)]

theorem late_revocation : ∃ s s', lts.Reachable s ∧ lts.step s (.revoke revocationEx) s' ∧
    s'.objects.map (fun x => (x.closed, x.openedUnder)) = [(false, some 1)] ∧
    s'.delivered = [revocationEx] ∧ ¬ Withdrawn s' := by
  have hrun : LTS.exec step init traceLate = some _ := rfl
  have hr : lts.Reachable _ := LTS.Reachable.run (.init rfl) (LTS.run_of_exec hrun)
  refine ⟨_, _, hr, rfl, rfl, rfl, fun hw => ?_⟩
  obtain ⟨revision, hu, hle⟩ := hw _ List.mem_cons_self rfl revocationEx List.mem_cons_self rfl
  obtain rfl := Option.some.inj hu
  revert hle
  decide

end KNex.Ui.RemoteUiSessions
