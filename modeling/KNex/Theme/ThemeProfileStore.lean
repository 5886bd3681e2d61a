import KNex.Contracts.Identity
import KNex.Core.Except
import KNex.Core.History
import KNex.Core.Json
import KNex.Core.LTS

/-!
# Theme profiles: the chain of publications

One row of `runtime_theme_profile_publications` is a theme profile: the active revision, the one
before it and at most one draft, each stored with its id. A call that stages, publishes or rolls
back locks the row for a transaction, so the calls on one profile are the steps of a run. A call
that throws, at whichever statement, leaves the tables as they were. The authorizer, the preview
validator, the skin generation, the clock and the connection answer with the call (`Ambient`).

`log` is a ghost list of what the calls did: the draft a `stageDraft` stored, and the receipt and
the profile of a `publish` or a `rollback`.

* `Chain`: the row's revision counts the publications of the log, the active and the previous
  profile are the last two of them, each receipt names the revisions before and after, and a
  publication has the content that was staged last under its id.
* `Immutable`: no revision id names two published contents. A draft is compared with the active
  revision and with the draft it replaces only, so the id of an older publication can be staged
  again for another content, after a rollback even with the same number (`second_content`).
* `publication_chain`: every run keeps `Chain`, and it has been `Immutable` exactly when no draft
  that was published had been staged under the id of an earlier publication of other content.
-/
namespace KNex.Theme

open KNex.Core KNex.Contracts KNex.Core.History

/-! ## Profiles -/

/-- mirrors packages/contracts/src/theme-profile.ts:9 -/
inductive ThemeSurface where
  | admin | «public»
  deriving DecidableEq

/-- mirrors packages/contracts/src/theme-profile.ts:10 -/
inductive ThemeMode where
  | light | dark | system
  deriving DecidableEq

/-- mirrors packages/contracts/src/theme-profile.ts:36-44 -/
structure ThemeSkinProfileSelection where
  id : String
  generationId : String
  version : String
  palette : String
  values : List (String × Json)
  deriving DecidableEq

inductive RevisionState where
  | draft
  | published (publishedAt : String)
  | archived (archivedAt : String)
  deriving DecidableEq

/-- mirrors packages/contracts/src/theme-profile.ts:46-57 -/
structure ThemeProfileRevision where
  id : String
  number : Nat
  createdAt : String
  previousRevisionId : Option String
  state : RevisionState
  deriving DecidableEq

/-- mirrors packages/contracts/src/theme-profile.ts:59-70 -/
structure ThemeProfile where
  id : String
  surface : ThemeSurface
  themeId : String
  themeVersion : String
  palette : String
  mode : ThemeMode
  values : List (String × Json)
  skin : Option ThemeSkinProfileSelection
  revision : ThemeProfileRevision
  deriving DecidableEq

def ThemeSurface.text : ThemeSurface → String
  | .admin => "admin"
  | .«public» => "public"

def ThemeMode.text : ThemeMode → String
  | .light => "light"
  | .dark => "dark"
  | .system => "system"

def optionalField (key : String) (value : Option Json) : List (String × Json) :=
  (value.map fun v => (key, v)).toList

def ThemeSkinProfileSelection.json (skin : ThemeSkinProfileSelection) : Json :=
  .obj [("id", .str skin.id), ("generationId", .str skin.generationId),
    ("version", .str skin.version), ("palette", .str skin.palette), ("values", .obj skin.values)]

def RevisionState.fields : RevisionState → List (String × Json)
  | .draft => [("state", .str "draft")]
  | .published publishedAt => [("state", .str "published"), ("publishedAt", .str publishedAt)]
  | .archived archivedAt => [("state", .str "archived"), ("archivedAt", .str archivedAt)]

/-- The fields of a revision but those of its state. -/
def ThemeProfileRevision.identity (revision : ThemeProfileRevision) : List (String × Json) :=
  [("id", .str revision.id), ("number", .num revision.number),
    ("createdAt", .str revision.createdAt)] ++
    optionalField "previousRevisionId" (revision.previousRevisionId.map .str)

/-- The profile as an object, with these fields for its revision. -/
def ThemeProfile.withRevision (profile : ThemeProfile) (revision : List (String × Json)) : Json :=
  .obj ([("schemaVersion", .num 1), ("id", .str profile.id),
      ("surface", .str profile.surface.text), ("themeId", .str profile.themeId),
      ("themeVersion", .str profile.themeVersion), ("palette", .str profile.palette),
      ("mode", .str profile.mode.text), ("values", .obj profile.values)] ++
    optionalField "skin" (profile.skin.map ThemeSkinProfileSelection.json) ++
    [("revision", .obj revision)])

def ThemeProfile.json (profile : ThemeProfile) : Json :=
  profile.withRevision (profile.revision.identity ++ profile.revision.state.fields)

/-- mirrors packages/payload-adapter/src/theme-profile-store.ts:140-147 -/
def publicationContent (profile : ThemeProfile) : String :=
  (profile.withRevision profile.revision.identity).canonicalJson

/-! ## The row, the outbox and the errors -/

/-- mirrors packages/payload-adapter/src/theme-profile-store.ts:13-20 -/
inductive ErrorCode where
  | accessDenied | profileInvalid | revisionConflict | draftConflict | draftNotFound
  | skinGenerationUnavailable | rollbackUnavailable
  deriving DecidableEq

/-- What a call throws: an error of the store, or what the event schema or the database throws. -/
inductive Failure where
  | store (code : ErrorCode) (message : String)
  | event
  | database
  deriving DecidableEq

/-- mirrors packages/payload-adapter/src/theme-profile-store.ts:53-56 -/
structure ThemeProfileScope where
  applicationId : String
  environment : String
  deriving DecidableEq

/-- mirrors packages/payload-adapter/src/theme-profile-store.ts:58-60 -/
structure ThemeProfileOwner extends ThemeProfileScope where
  profileId : String
  deriving DecidableEq

/-- mirrors packages/payload-adapter/src/theme-profile-store.ts:29-38 -/
structure PublicationRow where
  revision : Nat
  activeRevisionId : Option String
  activeProfile : Option ThemeProfile
  previousRevisionId : Option String
  previousProfile : Option ThemeProfile
  draftRevisionId : Option String
  draftProfile : Option ThemeProfile
  stateDigest : Option String
  deriving DecidableEq

/-- The row as it is inserted. -/
def PublicationRow.new : PublicationRow :=
  ⟨0, none, none, none, none, none, none, none⟩

inductive Operation where
  | publish | rollback
  deriving DecidableEq

def Operation.text : Operation → String
  | .publish => "publish"
  | .rollback => "rollback"

/-- mirrors packages/contracts/src/theme-profile.ts:75-91 -/
structure ThemeProfilePublicationReceipt where
  eventId : String
  operation : Operation
  owner : ThemeProfileOwner
  revisionBefore : Nat
  revisionAfter : Nat
  activeRevisionId : String
  previousRevisionId : Option String
  skinGenerationId : Option String
  occurredAt : String
  stateDigest : String
  deriving DecidableEq

/-- The row of the profile and the rows of the outbox. -/
structure Db where
  row : Option PublicationRow
  outbox : List ThemeProfilePublicationReceipt
  deriving DecidableEq

def Db.empty : Db := ⟨none, []⟩

/-- The row, or what `stageDraft` would insert. -/
def Db.current (db : Db) : PublicationRow := db.row.getD .new

/-- What the clock returns: no date, a date whose year has no four digits, or a date. -/
inductive ClockReading where
  | invalid
  | unprintable
  | time (iso : String)
  deriving DecidableEq

/-- What the environment answers during a call. `authorized` is the authorizer's answer before the
transaction, `stillAuthorized` the one before the write; `faulty` a statement that throws. -/
structure Ambient where
  authorized : Bool
  stillAuthorized : Bool
  skinActive : Bool
  validates : Bool
  clock : ClockReading
  faulty : Bool

/-- The hexadecimal digits of a SHA-256. -/
structure Host where
  digest : String → List Char

/-! ## Checks -/

def fail {α : Type} (code : ErrorCode) (message : String) : Except Failure α :=
  .error (.store code message)

def refuse (condition : Prop) [Decidable condition] (code : ErrorCode) (message : String) :
    Except Failure Unit :=
  failIf condition (.store code message)

/-- `/^[a-z][a-z0-9-]{low,high}$/u` -/
def isSlug (low high : Nat) (s : String) : Bool :=
  match s.toList with
  | [] => false
  | c :: cs => c.isLower && cs.all (fun c => lowerAlnum c || c == '-') &&
      decide (low ≤ cs.length ∧ cs.length ≤ high)

/-- mirrors packages/payload-adapter/src/theme-profile-store.ts:128-132 -/
def assertOwner (owner : ThemeProfileOwner) : Except Failure Unit := do
  refuse (¬ (isSlug 2 127 owner.applicationId ∧ isSlug 1 63 owner.environment)) .profileInvalid
    "Theme profile publication scope is invalid."
  refuse (¬ resourceIdOk owner.profileId) .profileInvalid
    "Theme profile publication owner is invalid."

def RevisionState.isDraft : RevisionState → Bool
  | .draft => true
  | _ => false

def RevisionState.isPublished : RevisionState → Bool
  | .published _ => true
  | _ => false

/-- What the schema makes of the value (`none` when it refuses), in the wanted state.
mirrors packages/payload-adapter/src/theme-profile-store.ts:134-138 -/
def parseProfile (value : Option ThemeProfile) (inState : RevisionState → Bool) (state : String) :
    Except Failure ThemeProfile :=
  match value.filter fun profile => inState profile.revision.state with
  | some profile => .ok profile
  | none => fail .profileInvalid ("Theme profile must be a valid " ++ state ++ " revision.")

def parseDraft (value : Option ThemeProfile) : Except Failure ThemeProfile :=
  parseProfile value RevisionState.isDraft "draft"

def parsePublished (value : Option ThemeProfile) : Except Failure ThemeProfile :=
  parseProfile value RevisionState.isPublished "published"

/-- mirrors packages/payload-adapter/src/theme-profile-store.ts:149-152 -/
def Host.sha256 (host : Host) (value : Json) : String :=
  "sha256:" ++ String.ofList (host.digest value.canonicalJson)

/-- mirrors packages/payload-adapter/src/theme-profile-store.ts:154-158 -/
def occurredAt : ClockReading → Except Failure String
  | .invalid => fail .profileInvalid "Theme profile publication clock is invalid."
  | .unprintable => .error .event
  | .time iso => .ok iso

/-- mirrors packages/payload-adapter/src/theme-profile-store.ts:402-409 -/
def authorize (answer : Bool) : Except Failure Unit :=
  refuse (answer = false) .accessDenied "Current authority denied the Theme Profile operation."

/-- mirrors packages/payload-adapter/src/theme-profile-store.ts:411-414 -/
def validatePreview (env : Ambient) : Except Failure Unit :=
  refuse (env.validates = false) .profileInvalid
    "Theme Profile failed installed-package, generation, or accessibility validation."

/-- mirrors packages/payload-adapter/src/theme-profile-store.ts:416-418 -/
def assertRevision (value : Int) (allowZero : Bool) : Except Failure Unit :=
  refuse (value < (if allowZero then 0 else 1) ∨ 999999999 < value) .revisionConflict
    "Theme profile expected revision is invalid."

/-- mirrors packages/payload-adapter/src/theme-profile-store.ts:359-370 -/
def assertSkinGeneration (env : Ambient) (profile : ThemeProfile) : Except Failure Unit :=
  refuse (profile.skin.isSome ∧ env.skinActive = false) .skinGenerationUnavailable
    "Theme Profile references a skin generation that is not exactly active."

/-- The checks between the reading of the row and the write, with the statements that throw. -/
def clearance (env : Ambient) (profile : ThemeProfile) : Except Failure Unit := do
  assertSkinGeneration env profile
  validatePreview env
  authorize env.stillAuthorized
  failIf (env.faulty = true) .database

/-! ## Operations -/

/-- What a publication or a rollback made active, with its receipt. -/
structure Publication where
  receipt : ThemeProfilePublicationReceipt
  profile : ThemeProfile
  deriving DecidableEq

def ThemeProfileOwner.fields (owner : ThemeProfileOwner) : List (String × Json) :=
  [("applicationId", .str owner.applicationId), ("environment", .str owner.environment),
    ("profileId", .str owner.profileId)]

def nullable (value : Option Json) : Json := value.getD .null

/-- The digest of the state after the commit. -/
def stateDigest (host : Host) (current : PublicationRow) (target : ThemeProfile) : String :=
  host.sha256 (.obj [("revision", .num (current.revision + 1 : Nat)),
    ("activeRevisionId", .str target.revision.id),
    ("previousRevisionId", nullable (current.activeRevisionId.map .str)),
    ("activeProfile", target.json),
    ("previousProfile", nullable (current.activeProfile.map ThemeProfile.json))])

/-- `slice(7, 39)` of the event's digest are the first 32 digits. -/
def eventId (host : Host) (owner : ThemeProfileOwner) (operation : Operation) (revision : Nat)
    (target : ThemeProfile) : String :=
  "theme-profile-event-" ++ String.ofList ((host.digest (Json.canonicalJson (.obj (owner.fields ++
    [("operation", .str operation.text), ("revision", .num revision),
      ("activeRevisionId", .str target.revision.id)])))).take 32)

/-- The receipt of a commit that makes `target` active.
mirrors packages/payload-adapter/src/theme-profile-store.ts:323-334 -/
def receipt (host : Host) (owner : ThemeProfileOwner) (current : PublicationRow)
    (target : ThemeProfile) (operation : Operation) (timestamp : String) :
    ThemeProfilePublicationReceipt where
  eventId := eventId host owner operation (current.revision + 1) target
  operation := operation
  owner := owner
  revisionBefore := current.revision
  revisionAfter := current.revision + 1
  activeRevisionId := target.revision.id
  previousRevisionId := current.activeRevisionId
  skinGenerationId := target.skin.map (·.generationId)
  occurredAt := timestamp
  stateDigest := stateDigest host current target

/-- The row after a commit: a publication takes the draft up.
mirrors packages/payload-adapter/src/theme-profile-store.ts:336-345 -/
def PublicationRow.commit (current : PublicationRow) (target : ThemeProfile)
    (operation : Operation) (stateDigest : String) : PublicationRow where
  revision := current.revision + 1
  activeRevisionId := some target.revision.id
  activeProfile := some target
  previousRevisionId := current.activeRevisionId
  previousProfile := current.activeProfile
  draftRevisionId := if operation = .publish then none else current.draftRevisionId
  draftProfile := if operation = .publish then none else current.draftProfile
  stateDigest := some stateDigest

/-- The constraints of the two tables: the bounds of a revision, the key of the outbox and its one
event for each revision. -/
def Db.Inserts (db : Db) (event : ThemeProfilePublicationReceipt) : Prop :=
  event.revisionAfter ≤ 1000000000 ∧
    ∀ r ∈ db.outbox, r.eventId ≠ event.eventId ∧ r.revisionAfter ≠ event.revisionAfter

instance (db : Db) (event : ThemeProfilePublicationReceipt) : Decidable (db.Inserts event) :=
  inferInstanceAs (Decidable (_ ∧ _))

/-- mirrors packages/payload-adapter/src/theme-profile-store.ts:308-357 -/
def commit (host : Host) (env : Ambient) (owner : ThemeProfileOwner) (db : Db)
    (target : ThemeProfile) (operation : Operation) : Except Failure (Db × Publication) := do
  let timestamp ← occurredAt env.clock
  let event := receipt host owner db.current target operation timestamp
  failIf (¬ db.Inserts event) .database
  .ok (⟨some (db.current.commit target operation event.stateDigest), db.outbox ++ [event]⟩,
    ⟨event, target⟩)

/-- The answer is the row; its draft stands for it.
mirrors packages/payload-adapter/src/theme-profile-store.ts:233-264 -/
def stageDraft (env : Ambient) (scope : ThemeProfileScope)
    (input : Option ThemeProfile) (db : Db) : Except Failure (Db × ThemeProfile) := do
  let profile ← parseDraft input
  assertOwner ⟨scope, profile.id⟩
  authorize env.authorized
  let current := db.current
  refuse (profile.revision.previousRevisionId ≠ current.activeRevisionId) .revisionConflict
    "Theme profile draft does not extend the active revision."
  let active ← current.activeProfile.mapM fun active => parsePublished (some active)
  refuse (some profile.revision.id = current.activeRevisionId ∨
      profile.revision.number ≠ (active.map (·.revision.number)).getD 0 + 1) .revisionConflict
    "Theme profile draft revision identity or number is not the next active revision."
  refuse (current.draftRevisionId = some profile.revision.id ∧
      ∃ draft ∈ current.draftProfile, draft.json.canonicalJson ≠ profile.json.canonicalJson)
    .draftConflict "A different draft already owns this immutable revision identity."
  clearance env profile
  .ok (⟨some { current with
    draftRevisionId := some profile.revision.id, draftProfile := some profile }, db.outbox⟩,
    profile)

/-- mirrors packages/payload-adapter/src/theme-profile-store.ts:266-286 -/
def publish (host : Host) (env : Ambient) (scope : ThemeProfileScope)
    (input : Option ThemeProfile) (expectedRevision : Int) (db : Db) :
    Except Failure (Db × Publication) := do
  let profile ← parsePublished input
  assertOwner ⟨scope, profile.id⟩
  authorize env.authorized
  assertRevision expectedRevision true
  refuse (db.row = none ∨ db.current.revision ≠ expectedRevision) .revisionConflict
    "Theme profile publication revision changed."
  refuse (db.current.draftProfile = none ∨
      db.current.draftRevisionId ≠ some profile.revision.id) .draftNotFound
    "The published revision has no matching staged draft."
  let draft ← parseDraft db.current.draftProfile
  refuse (publicationContent draft ≠ publicationContent profile) .draftConflict
    "Published Theme Profile content differs from its staged draft."
  refuse (profile.revision.previousRevisionId ≠ db.current.activeRevisionId) .revisionConflict
    "Theme profile publication does not extend the active revision."
  clearance env profile
  commit host env ⟨scope, profile.id⟩ db profile .publish

/-- mirrors packages/payload-adapter/src/theme-profile-store.ts:288-306 -/
def rollback (host : Host) (env : Ambient) (owner : ThemeProfileOwner) (expectedRevision : Int)
    (db : Db) : Except Failure (Db × Publication) := do
  assertOwner owner
  authorize env.authorized
  assertRevision expectedRevision false
  refuse (db.row = none ∨ db.current.revision ≠ expectedRevision) .revisionConflict
    "Theme profile publication revision changed."
  refuse (db.current.previousProfile = none ∨ db.current.previousRevisionId = none)
    .rollbackUnavailable "No previous Theme Profile revision is retained."
  let target ← parsePublished db.current.previousProfile
  clearance env target
  commit host env owner db target .rollback

/-! ## Runs -/

inductive Entry where
  | staged (profile : ThemeProfile)
  | committed (publication : Publication)
  deriving DecidableEq

structure St where
  db : Db
  log : List Entry
  deriving DecidableEq

inductive Call where
  | stageDraft (scope : ThemeProfileScope) (profile : Option ThemeProfile)
  | publish (scope : ThemeProfileScope) (profile : Option ThemeProfile) (expectedRevision : Int)
  | rollback (owner : ThemeProfileOwner) (expectedRevision : Int)

/-- The call names this profile. A value that the schema refuses names none. -/
def Call.Names (owner : ThemeProfileOwner) : Call → Prop
  | .stageDraft scope profile => ∀ p ∈ profile, ThemeProfileOwner.mk scope p.id = owner
  | .publish scope profile _ => ∀ p ∈ profile, ThemeProfileOwner.mk scope p.id = owner
  | .rollback o _ => o = owner

instance (owner : ThemeProfileOwner) (call : Call) : Decidable (call.Names owner) := by
  cases call <;> unfold Call.Names <;> infer_instance

def Call.perform (host : Host) (env : Ambient) : Call → Db → Except Failure (Db × Entry)
  | .stageDraft scope profile, db => do
    let (db, profile) ← Theme.stageDraft env scope profile db
    .ok (db, .staged profile)
  | .publish scope profile expectedRevision, db => do
    let (db, publication) ← Theme.publish host env scope profile expectedRevision db
    .ok (db, .committed publication)
  | .rollback owner expectedRevision, db => do
    let (db, publication) ← Theme.rollback host env owner expectedRevision db
    .ok (db, .committed publication)

structure Ev where
  call : Call
  env : Ambient

/-- A call on the profile; one that throws is rolled back. -/
def step (host : Host) (owner : ThemeProfileOwner) (s : St) (e : Ev) : Option St :=
  if e.call.Names owner then
    some (match e.call.perform host e.env s.db with
      | .error _ => s
      | .ok (db, entry) => ⟨db, s.log ++ [entry]⟩)
  else none

def lts (host : Host) (owner : ThemeProfileOwner) : LTS St Ev :=
  .ofFn (fun s => s = ⟨.empty, []⟩) (step host owner)

/-! ## The law -/

/-- What the calls made active, in order. -/
def publications (log : List Entry) : List Publication :=
  log.filterMap fun e => match e with
    | .staged _ => none
    | .committed publication => some publication

/-- The profile that was active after these calls, and the one before it. -/
def lastActive (log : List Entry) : Option ThemeProfile :=
  (publications log).getLast?.map (·.profile)

def lastPrevious (log : List Entry) : Option ThemeProfile :=
  (publications log).dropLast.getLast?.map (·.profile)

/-- The receipt counts the publications and names the revision that was active. -/
def Numbered (earlier : List Entry) : Entry → Prop
  | .staged _ => True
  | .committed publication =>
    publication.receipt.revisionBefore = (publications earlier).length ∧
      publication.receipt.revisionAfter = publication.receipt.revisionBefore + 1 ∧
      publication.receipt.activeRevisionId = publication.profile.revision.id ∧
      publication.receipt.previousRevisionId = (lastActive earlier).map (·.revision.id)

/-- The draft staged last under an id. -/
def StagedLast (log : List Entry) (id : String) (draft : ThemeProfile) : Prop :=
  ∃ before since, log = before ++ .staged draft :: since ∧ draft.revision.id = id ∧
    ∀ later, .staged later ∈ since → later.revision.id ≠ id

/-- A publication has the content staged last under its id, and a rollback makes the previous
profile active. -/
def Extends (earlier : List Entry) : Entry → Prop
  | .staged _ => True
  | .committed publication => match publication.receipt.operation with
    | .publish => ∃ draft, StagedLast earlier publication.profile.revision.id draft ∧
        publicationContent draft = publicationContent publication.profile
    | .rollback => lastPrevious earlier = some publication.profile

/-- The row and the outbox as the log has them. -/
structure Chain (s : St) : Prop where
  revision : s.db.current.revision = (publications s.log).length
  active : s.db.current.activeProfile = lastActive s.log
  activeId : s.db.current.activeRevisionId = (lastActive s.log).map (·.revision.id)
  previous : s.db.current.previousProfile = lastPrevious s.log
  previousId : s.db.current.previousRevisionId = (lastPrevious s.log).map (·.revision.id)
  outbox : s.db.outbox = (publications s.log).map (·.receipt)
  numbered : Along Numbered s.log
  extending : Along Extends s.log

/-- A revision id names one published content. -/
def Immutable (log : List Entry) : Prop :=
  ∀ p ∈ publications log, ∀ q ∈ publications log, p.profile.revision.id = q.profile.revision.id →
    publicationContent p.profile = publicationContent q.profile

def Entry.isRollback : Entry → Prop
  | .staged _ => False
  | .committed publication => publication.receipt.operation = .rollback

/-- The draft that waits for its publication, and the calls before it was staged. -/
def Waits (log before : List Entry) (draft : ThemeProfile) : Prop :=
  ∃ since, log = before ++ .staged draft :: since ∧ ∀ e ∈ since, e.isRollback

/-- An earlier publication has the draft's id and another content. -/
def Reuses (before : List Entry) (draft : ThemeProfile) : Prop :=
  ∃ p ∈ publications before, p.profile.revision.id = draft.revision.id ∧
    publicationContent p.profile ≠ publicationContent draft

/-- No published draft had been staged under the id of an earlier publication of other content. -/
def DraftsFresh (log : List Entry) : Prop :=
  Along (fun earlier e => ∀ publication, e = .committed publication →
    publication.receipt.operation = .publish →
      ∀ before draft, Waits earlier before draft → ¬ Reuses before draft) log

/-! ## Logs -/

section Logs

variable {log before : List Entry} {profile draft : ThemeProfile} {publication : Publication}

@[simp] theorem publications_nil : publications [] = [] := rfl

@[simp] theorem publications_append (log log' : List Entry) :
    publications (log ++ log') = publications log ++ publications log' :=
  List.filterMap_append

@[simp] theorem publications_staged : publications [.staged profile] = [] := rfl

@[simp] theorem publications_committed :
    publications [.committed publication] = [publication] := rfl

@[simp] theorem lastActive_committed :
    lastActive (log ++ [.committed publication]) = some publication.profile := by
  simp [lastActive]

@[simp] theorem lastPrevious_committed :
    lastPrevious (log ++ [.committed publication]) = lastActive log := by
  simp [lastPrevious, lastActive]

@[simp] theorem lastActive_staged : lastActive (log ++ [.staged profile]) = lastActive log := by
  simp [lastActive]

@[simp] theorem lastPrevious_staged :
    lastPrevious (log ++ [.staged profile]) = lastPrevious log := by
  simp [lastPrevious]

theorem lastPrevious_mem (h : lastPrevious log = some profile) :
    ∃ p ∈ publications log, p.profile = profile := by
  unfold lastPrevious at h
  rw [Option.map_eq_some_iff] at h
  obtain ⟨p, hp, rfl⟩ := h
  exact ⟨p, List.dropLast_subset _ (List.mem_of_getLast? hp), rfl⟩

theorem Waits.staged : Waits (log ++ [.staged draft]) log draft :=
  ⟨[], rfl, fun _ he => absurd he List.not_mem_nil⟩

theorem Waits.rollback (h : Waits log before draft)
    (hop : publication.receipt.operation = .rollback) :
    Waits (log ++ [.committed publication]) before draft := by
  obtain ⟨since, rfl, hs⟩ := h
  refine ⟨since ++ [.committed publication], by simp, fun e he => ?_⟩
  rcases List.mem_append.mp he with he | he
  · exact hs e he
  · rw [List.mem_singleton.mp he]
    exact hop

theorem Waits.stagedLast (h : Waits log before draft) : StagedLast log draft.revision.id draft := by
  obtain ⟨since, rfl, hs⟩ := h
  exact ⟨before, since, rfl, rfl, fun later hl => absurd (hs _ hl) id⟩

/-- Only one draft waits. -/
theorem Waits.unique {before' : List Entry} {draft' : ThemeProfile} (h : Waits log before draft)
    (h' : Waits log before' draft') : before = before' ∧ draft = draft' := by
  obtain ⟨since, hlog, hs⟩ := h
  obtain ⟨since', hlog', hs'⟩ := h'
  rw [hlog] at hlog'
  rcases List.append_eq_append_iff.mp hlog' with ⟨a, ha, hb⟩ | ⟨a, ha, hb⟩
  · cases a with
    | nil =>
      rw [List.nil_append, List.cons.injEq, Entry.staged.injEq] at hb
      exact ⟨by simpa using ha.symm, hb.1⟩
    | cons e a =>
      rw [List.cons_append, List.cons.injEq] at hb
      exact absurd (hs (.staged draft') (by rw [hb.2]; simp)) id
  · cases a with
    | nil =>
      rw [List.nil_append, List.cons.injEq, Entry.staged.injEq] at hb
      exact ⟨by simpa using ha, hb.1.symm⟩
    | cons e a =>
      rw [List.cons_append, List.cons.injEq] at hb
      exact absurd (hs' (.staged draft) (by rw [hb.2]; simp)) id

/-- A publication takes the waiting draft up. -/
def Takes (earlier : List Entry) : Entry → Prop
  | .staged _ => True
  | .committed publication => match publication.receipt.operation with
    | .publish => ∃ before draft, Waits earlier before draft ∧
        draft.revision.id = publication.profile.revision.id ∧
        publicationContent draft = publicationContent publication.profile
    | .rollback => lastPrevious earlier = some publication.profile

theorem takes_publish (hop : publication.receipt.operation = .publish) :
    Takes log (.committed publication) ↔ ∃ before draft, Waits log before draft ∧
      draft.revision.id = publication.profile.revision.id ∧
        publicationContent draft = publicationContent publication.profile := by
  simp only [Takes, hop]

theorem takes_rollback (hop : publication.receipt.operation = .rollback) :
    Takes log (.committed publication) ↔ lastPrevious log = some publication.profile := by
  simp only [Takes, hop]

theorem Takes.extends {e : Entry} (h : Takes log e) : Extends log e := by
  cases e with
  | staged profile => trivial
  | committed publication =>
    cases hop : publication.receipt.operation with
    | publish =>
      obtain ⟨before, draft, hw, hid, hc⟩ := (takes_publish hop).mp h
      simp only [Extends, hop]
      exact ⟨draft, hid ▸ hw.stagedLast, hc⟩
    | rollback =>
      simp only [Extends, hop]
      exact (takes_rollback hop).mp h

/-- Rollbacks make no new profile active. -/
theorem publications_rollbacks {since : List Entry} (ht : Along Takes (log ++ since))
    (hs : ∀ e ∈ since, e.isRollback) :
    ∀ p ∈ publications (log ++ since), ∃ q ∈ publications log, q.profile = p.profile := by
  induction since using List.reverseRecOn with
  | nil =>
    rw [List.append_nil]
    exact fun p hp => ⟨p, hp, rfl⟩
  | append_singleton since e ih =>
    rw [← List.append_assoc, along_snoc] at ht
    have hbefore := ih ht.1 fun e he => hs e (List.mem_append_left _ he)
    intro p hp
    rw [← List.append_assoc, publications_append] at hp
    rcases List.mem_append.mp hp with hp | hp
    · exact hbefore p hp
    · have he : e.isRollback := hs e (by simp)
      cases e with
      | staged profile => exact absurd he id
      | committed publication =>
        rw [publications_committed, List.mem_singleton] at hp
        subst hp
        obtain ⟨q, hq, hprofile⟩ := lastPrevious_mem ((takes_rollback he).mp ht.2)
        obtain ⟨r, hr, hsame⟩ := hbefore q hq
        exact ⟨r, hr, hsame.trans hprofile⟩

/-- What was published before a draft was taken up had been published before it was staged. -/
theorem Waits.published (h : Waits log before draft) (ht : Along Takes log) :
    ∀ p ∈ publications log, ∃ q ∈ publications before, q.profile = p.profile := by
  obtain ⟨since, rfl, hs⟩ := h
  have hlist : before ++ .staged draft :: since = (before ++ [.staged draft]) ++ since := by simp
  rw [hlist] at ht ⊢
  intro p hp
  obtain ⟨q, hq, hsame⟩ := publications_rollbacks ht hs p hp
  rw [publications_append, publications_staged, List.append_nil] at hq
  exact ⟨q, hq, hsame⟩

theorem mem_publications_snoc {p : Publication} :
    p ∈ publications (log ++ [.committed publication]) ↔ p ∈ publications log ∨ p = publication := by
  simp

/-- Ids name one content as long as no draft that is taken up reuses one. -/
theorem immutable_of_fresh (ht : Along Takes log) (hf : DraftsFresh log) : Immutable log := by
  induction log using List.reverseRecOn with
  | nil => exact fun p hp => absurd hp List.not_mem_nil
  | append_singleton log e ih =>
    obtain ⟨htlog, hlast⟩ := along_snoc.mp ht
    obtain ⟨hflog, hfresh⟩ := along_snoc.mp hf
    have hlog := ih htlog hflog
    cases e with
    | staged profile =>
      unfold Immutable
      rwa [publications_append, publications_staged, List.append_nil]
    | committed publication =>
      -- the new publication agrees with those before it
      have hnew : ∀ q ∈ publications log,
          q.profile.revision.id = publication.profile.revision.id →
            publicationContent q.profile = publicationContent publication.profile := by
        intro q hq hid
        cases hop : publication.receipt.operation with
        | publish =>
          obtain ⟨before, draft, hw, hdraft, hc⟩ := (takes_publish hop).mp hlast
          obtain ⟨r, hr, hsame⟩ := hw.published htlog q hq
          by_contra hne
          refine hfresh publication rfl hop before draft hw ⟨r, hr, ?_, ?_⟩
          · rw [hsame, hid, hdraft]
          · rwa [hsame, hc]
        | rollback =>
          obtain ⟨r, hr, hsame⟩ := lastPrevious_mem ((takes_rollback hop).mp hlast)
          rw [← hsame] at hid ⊢
          exact hlog q hq r hr hid
      intro p hp q hq hid
      rcases mem_publications_snoc.mp hp with hp' | hp' <;>
        rcases mem_publications_snoc.mp hq with hq' | hq'
      · exact hlog p hp' q hq' hid
      · rw [hq'] at hid ⊢
        exact hnew p hp' hid
      · rw [hp'] at hid ⊢
        exact (hnew q hq' hid.symm).symm
      · rw [hp', hq']

theorem fresh_of_immutable (ht : Along Takes log) (hi : Immutable log) : DraftsFresh log := by
  intro earlier e after hlog publication he hop before draft hw hr
  obtain ⟨p, hp, hid, hne⟩ := hr
  have htake := ht earlier e after hlog
  subst he
  obtain ⟨before', draft', hw', hdraft, hc⟩ := (takes_publish hop).mp htake
  obtain ⟨rfl, rfl⟩ := hw.unique hw'
  obtain ⟨since, hearlier, -⟩ := hw
  have hp' : p ∈ publications log := by
    rw [hlog, hearlier]
    simp [hp]
  have hpub : publication ∈ publications log := by
    rw [hlog, publications_append]
    exact List.mem_append_right _ List.mem_cons_self
  exact hne ((hi p hp' publication hpub (hid.trans hdraft)).trans hc.symm)

end Logs

/-! ## What a call did -/

section Calls

variable {host : Host} {env : Ambient} {owner : ThemeProfileOwner} {scope : ThemeProfileScope}
  {db : Db} {input : Option ThemeProfile} {expectedRevision : Int}

theorem refuse_ok {condition : Prop} [Decidable condition] {code : ErrorCode} {message : String}
    {u : Unit} : refuse condition code message = .ok u ↔ ¬ condition :=
  failIf_eq_ok

theorem parseProfile_ok {inState : RevisionState → Bool} {state : String} {profile : ThemeProfile}
    (h : parseProfile input inState state = .ok profile) :
    input = some profile ∧ inState profile.revision.state = true := by
  unfold parseProfile at h
  split at h
  · rename_i p hp
    cases h
    rwa [Option.filter_eq_some_iff] at hp
  · cases h

/-- What a commit did: the row's next revision has `target` active and the active profile
previous, and the receipt is in the outbox. -/
theorem commit_ok {target : ThemeProfile} {operation : Operation} {r : Db × Publication}
    (h : commit host env owner db target operation = .ok r) :
    ∃ timestamp, env.clock = .time timestamp ∧
      db.Inserts (receipt host owner db.current target operation timestamp) ∧
      r.2 = ⟨receipt host owner db.current target operation timestamp, target⟩ ∧
      r.1 = ⟨some (db.current.commit target operation r.2.receipt.stateDigest),
        db.outbox ++ [r.2.receipt]⟩ := by
  unfold commit at h
  obtain ⟨timestamp, hclock, h⟩ := bind_eq_ok.mp h
  obtain ⟨⟨⟩, hins, h⟩ := bind_eq_ok.mp h
  cases h
  refine ⟨timestamp, ?_, not_not.mp (failIf_eq_ok.mp hins), rfl, rfl⟩
  unfold occurredAt at hclock
  split at hclock
  · cases hclock
  · cases hclock
  · cases hclock
    rename_i h
    exact h

theorem stageDraft_ok {r : Db × ThemeProfile} (h : stageDraft env scope input db = .ok r) :
    input = some r.2 ∧ r.2.revision.state.isDraft = true ∧
      r.2.revision.previousRevisionId = db.current.activeRevisionId ∧
      some r.2.revision.id ≠ db.current.activeRevisionId ∧
      r.1 = ⟨some { db.current with
        draftRevisionId := some r.2.revision.id, draftProfile := some r.2 }, db.outbox⟩ := by
  unfold stageDraft at h
  obtain ⟨profile, hparse, h⟩ := bind_eq_ok.mp h
  obtain ⟨hinput, hstate⟩ := parseProfile_ok hparse
  obtain ⟨⟨⟩, -, h⟩ := bind_eq_ok.mp h
  obtain ⟨⟨⟩, -, h⟩ := bind_eq_ok.mp h
  obtain ⟨⟨⟩, hprev, h⟩ := bind_eq_ok.mp h
  obtain ⟨active, -, h⟩ := bind_eq_ok.mp h
  obtain ⟨⟨⟩, hnext, h⟩ := bind_eq_ok.mp h
  obtain ⟨⟨⟩, -, h⟩ := bind_eq_ok.mp h
  obtain ⟨⟨⟩, -, h⟩ := bind_eq_ok.mp h
  cases h
  rw [refuse_ok, not_or] at hnext
  exact ⟨hinput, hstate, not_not.mp (refuse_ok.mp hprev), hnext.1, rfl⟩

theorem publish_ok {r : Db × Publication}
    (h : publish host env scope input expectedRevision db = .ok r) :
    ∃ profile draft, input = some profile ∧ profile.revision.state.isPublished = true ∧
      db.current.revision = expectedRevision ∧
      db.current.draftProfile = some draft ∧
      db.current.draftRevisionId = some profile.revision.id ∧
      publicationContent draft = publicationContent profile ∧
      profile.revision.previousRevisionId = db.current.activeRevisionId ∧
      commit host env ⟨scope, profile.id⟩ db profile .publish = .ok r := by
  unfold publish at h
  obtain ⟨profile, hparse, h⟩ := bind_eq_ok.mp h
  obtain ⟨hinput, hstate⟩ := parseProfile_ok hparse
  obtain ⟨⟨⟩, -, h⟩ := bind_eq_ok.mp h
  obtain ⟨⟨⟩, -, h⟩ := bind_eq_ok.mp h
  obtain ⟨⟨⟩, -, h⟩ := bind_eq_ok.mp h
  obtain ⟨⟨⟩, hrev, h⟩ := bind_eq_ok.mp h
  obtain ⟨⟨⟩, hid, h⟩ := bind_eq_ok.mp h
  obtain ⟨draft, hdraft, h⟩ := bind_eq_ok.mp h
  obtain ⟨⟨⟩, hcontent, h⟩ := bind_eq_ok.mp h
  obtain ⟨⟨⟩, hprev, h⟩ := bind_eq_ok.mp h
  obtain ⟨⟨⟩, -, h⟩ := bind_eq_ok.mp h
  rw [refuse_ok, not_or] at hrev hid
  exact ⟨profile, draft, hinput, hstate, not_not.mp hrev.2, (parseProfile_ok hdraft).1,
    not_not.mp hid.2,
    not_not.mp (refuse_ok.mp hcontent), not_not.mp (refuse_ok.mp hprev), h⟩

theorem rollback_ok {r : Db × Publication}
    (h : rollback host env owner expectedRevision db = .ok r) :
    ∃ target, db.current.previousProfile = some target ∧
      target.revision.state.isPublished = true ∧ db.current.revision = expectedRevision ∧
      commit host env owner db target .rollback = .ok r := by
  unfold rollback at h
  obtain ⟨⟨⟩, -, h⟩ := bind_eq_ok.mp h
  obtain ⟨⟨⟩, -, h⟩ := bind_eq_ok.mp h
  obtain ⟨⟨⟩, -, h⟩ := bind_eq_ok.mp h
  obtain ⟨⟨⟩, hrev, h⟩ := bind_eq_ok.mp h
  obtain ⟨⟨⟩, -, h⟩ := bind_eq_ok.mp h
  obtain ⟨target, htarget, h⟩ := bind_eq_ok.mp h
  obtain ⟨⟨⟩, -, h⟩ := bind_eq_ok.mp h
  rw [refuse_ok, not_or] at hrev
  obtain ⟨hprev, hstate⟩ := parseProfile_ok htarget
  exact ⟨target, hprev, hstate, not_not.mp hrev.2, h⟩

end Calls

/-! ## The invariant -/

/-- The chain, with the draft the row holds. -/
structure Inv (s : St) : Prop extends Chain s where
  taken : Along Takes s.log
  draftId : s.db.current.draftRevisionId = s.db.current.draftProfile.map (·.revision.id)
  draft : ∀ d, s.db.current.draftProfile = some d → ∃ before, Waits s.log before d

theorem inv_stage {s : St} {env : Ambient} {scope : ThemeProfileScope}
    {input : Option ThemeProfile} {r : Db × ThemeProfile} (hs : Inv s)
    (h : stageDraft env scope input s.db = .ok r) : Inv ⟨r.1, s.log ++ [.staged r.2]⟩ := by
  obtain ⟨-, -, -, -, hdb⟩ := stageDraft_ok h
  rw [hdb]
  exact {
    revision := by
      rw [publications_append, publications_staged, List.append_nil]
      exact hs.revision
    active := hs.active.trans lastActive_staged.symm
    activeId := by
      rw [lastActive_staged]
      exact hs.activeId
    previous := hs.previous.trans lastPrevious_staged.symm
    previousId := by
      rw [lastPrevious_staged]
      exact hs.previousId
    outbox := by
      rw [publications_append, publications_staged, List.append_nil]
      exact hs.outbox
    numbered := along_snoc.mpr ⟨hs.numbered, trivial⟩
    extending := along_snoc.mpr ⟨hs.extending, trivial⟩
    taken := along_snoc.mpr ⟨hs.taken, trivial⟩
    draftId := rfl
    draft := fun d hd => ⟨s.log, Option.some.inj hd ▸ Waits.staged⟩ }

/-- A commit that takes up what it makes active, and keeps a draft only in a rollback. -/
theorem inv_commit {s : St} {host : Host} {env : Ambient} {owner : ThemeProfileOwner}
    {target : ThemeProfile} {operation : Operation} {r : Db × Publication} (hs : Inv s)
    (h : commit host env owner s.db target operation = .ok r)
    (htake : r.2.profile = target → r.2.receipt.operation = operation →
      Takes s.log (.committed r.2)) :
    Inv ⟨r.1, s.log ++ [.committed r.2]⟩ := by
  obtain ⟨timestamp, -, -, hr, hdb⟩ := commit_ok h
  have hprofile : r.2.profile = target := by rw [hr]
  have hop : r.2.receipt.operation = operation := by rw [hr]; rfl
  have ht := htake hprofile hop
  have hnumber : Numbered s.log (.committed r.2) := by
    rw [hr]
    exact ⟨hs.revision, rfl, rfl, hs.activeId⟩
  rw [hdb]
  exact {
    revision := by
      rw [publications_append, publications_committed, List.length_append, ← hs.revision]
      rfl
    active := by rw [lastActive_committed, hprofile]; rfl
    activeId := by rw [lastActive_committed, hprofile]; rfl
    previous := hs.active.trans lastPrevious_committed.symm
    previousId := by
      rw [lastPrevious_committed]
      exact hs.activeId
    outbox := by
      rw [publications_append, publications_committed, List.map_append, ← hs.outbox]
      rfl
    numbered := along_snoc.mpr ⟨hs.numbered, hnumber⟩
    extending := along_snoc.mpr ⟨hs.extending, ht.extends⟩
    taken := along_snoc.mpr ⟨hs.taken, ht⟩
    draftId := by
      show (if operation = .publish then none else s.db.current.draftRevisionId) =
        (if operation = .publish then none else s.db.current.draftProfile).map (·.revision.id)
      split
      · rfl
      · exact hs.draftId
    draft := by
      intro d hd
      change (if operation = .publish then none else s.db.current.draftProfile) = some d at hd
      split at hd
      · cases hd
      · rename_i hne
        obtain ⟨before, hw⟩ := hs.draft d hd
        refine ⟨before, hw.rollback ?_⟩
        cases operation with
        | publish => exact absurd rfl hne
        | rollback => exact hop }

theorem inv_step {host : Host} {owner : ThemeProfileOwner} {s s' : St} {e : Ev} (hs : Inv s)
    (h : step host owner s e = some s') : Inv s' := by
  unfold step at h
  split at h
  · cases h
    cases hperform : e.call.perform host e.env s.db with
    | error err => exact hs
    | ok r =>
      show Inv ⟨r.1, s.log ++ [r.2]⟩
      cases hcall : e.call with
      | stageDraft scope input =>
        rw [hcall] at hperform
        obtain ⟨r₁, h1, h2⟩ := bind_eq_ok.mp hperform
        cases h2
        exact inv_stage hs h1
      | publish scope input expectedRevision =>
        rw [hcall] at hperform
        obtain ⟨r₁, h1, h2⟩ := bind_eq_ok.mp hperform
        cases h2
        obtain ⟨profile, draft, -, -, -, hdraft, hid, hcontent, -, hcommit⟩ := publish_ok h1
        refine inv_commit hs hcommit fun hprofile hop => (takes_publish hop).mpr ?_
        obtain ⟨before, hw⟩ := hs.draft draft hdraft
        rw [hs.draftId, hdraft] at hid
        rw [hprofile]
        exact ⟨before, draft, hw, Option.some.inj hid, hcontent⟩
      | rollback owner expectedRevision =>
        rw [hcall] at hperform
        obtain ⟨r₁, h1, h2⟩ := bind_eq_ok.mp hperform
        cases h2
        obtain ⟨target, htarget, -, -, hcommit⟩ := rollback_ok h1
        refine inv_commit hs hcommit fun hprofile hop => (takes_rollback hop).mpr ?_
        rw [← hs.previous, htarget, hprofile]
  · cases h

theorem inv_inductive (host : Host) (owner : ThemeProfileOwner) :
    (lts host owner).Inductive Inv where
  init s hs := by
    cases hs
    exact {
      revision := rfl, active := rfl, activeId := rfl, previous := rfl, previousId := rfl,
      outbox := rfl, numbered := along_nil, extending := along_nil, taken := along_nil,
      draftId := rfl, draft := fun d hd => nomatch hd }
  step s e s' hs h := inv_step hs h

/-- **The chain of publications.** On every run of calls on one profile the row's revision counts
the publications, its previous revision is the one that was active before the last of them, and a
publication has the content staged last under its id. A revision id has named one published
content exactly when no published draft had been staged under the id of an earlier publication of
other content. -/
theorem publication_chain {host : Host} {owner : ThemeProfileOwner} {s : St}
    (h : (lts host owner).Reachable s) :
    Chain s ∧ (Immutable s.log ↔ DraftsFresh s.log) := by
  have hs := (inv_inductive host owner).reachable s h
  exact ⟨hs.toChain, fresh_of_immutable hs.taken, immutable_of_fresh hs.taken⟩

/-! ## A second content -/

/-- The low digits of the last 64 bytes, from the end. -/
def digits64 (text : String) : List Char :=
  (text.toByteArray.data.toList.reverse.take 64).map fun b => Json.hexDigit (b.toNat % 16)

def calm : Ambient := ⟨true, true, true, true, .time "2026-01-01T00:00:00.000Z", false⟩

def customer : ThemeProfileScope := ⟨"customer-one", "production"⟩

def mainProfile : ThemeProfileOwner := ⟨customer, "profile.main"⟩

def revised (mode : ThemeMode) (id : String) (number : Nat) (previous : Option String)
    (state : RevisionState) : ThemeProfile :=
  ⟨"profile.main", .admin, "theme.base", "1.0.0", "default", mode, [], none,
    ⟨id, number, "2026-01-01T00:00:00.000Z", previous, state⟩⟩

/-- A draft is staged and published. -/
def stagedAndPublished (mode : ThemeMode) (id : String) (number : Nat) (previous : Option String)
    (revision : Int) : List Ev :=
  [⟨.stageDraft customer (some (revised mode id number previous .draft)), calm⟩,
    ⟨.publish customer (some (revised mode id number previous
      (.published "2026-01-02T00:00:00.000Z"))) revision, calm⟩]

/-- The second revision is published, rolled back, and staged and published in another mode. -/
def reuse : List Ev :=
  stagedAndPublished .light "revision.first" 1 none 0 ++
    stagedAndPublished .light "revision.second" 2 (some "revision.first") 1 ++
    [⟨.rollback mainProfile 2, calm⟩] ++
    stagedAndPublished .dark "revision.second" 2 (some "revision.first") 3

theorem publication_chain_reuse : ∃ s, LTS.exec (step ⟨digits64⟩ mainProfile) ⟨.empty, []⟩ reuse =
    some s ∧ Chain s ∧ (Immutable s.log ↔ DraftsFresh s.log) := by
  obtain ⟨s, hs⟩ := Option.isSome_iff_exists.mp (show (LTS.exec (step ⟨digits64⟩ mainProfile)
    ⟨.empty, []⟩ reuse).isSome = true by decide)
  exact ⟨s, hs, publication_chain ⟨_, _, rfl, LTS.run_of_exec hs⟩⟩

/-- An id of two published contents. -/
theorem second_content : ¬ ∀ s, (lts ⟨digits64⟩ mainProfile).Reachable s → Immutable s.log := by
  intro h
  have hrun : (LTS.exec (step ⟨digits64⟩ mainProfile) ⟨.empty, []⟩ reuse).any (fun s : St =>
      decide (∃ p ∈ (publications s.log)[1]?, ∃ q ∈ (publications s.log)[3]?,
        p.profile.revision.id = q.profile.revision.id ∧
          publicationContent p.profile ≠ publicationContent q.profile)) = true := by
    decide +kernel
  rw [Option.any_eq_true] at hrun
  obtain ⟨s, hs, hd⟩ := hrun
  obtain ⟨p, hp, q, hq, hid, hne⟩ := of_decide_eq_true hd
  exact hne (h s ⟨_, _, rfl, LTS.run_of_exec hs⟩ p (List.mem_of_getElem? hp) q
    (List.mem_of_getElem? hq) hid)

end KNex.Theme
