import KNex.Contracts.JsonFields
import KNex.Core.JoinedKeys
import KNex.Core.TextCoding

/-!
# Audit histories of CRM records (`modules/sales/src/server.ts`)

Every record of a CRM collection carries its audit history. `workflowAuditHistory` reads it from the
first entry on, keeps the state of each axis and the last owner, and compares them at the end with the
record. The history of an opportunity that an earlier release created starts with a migration entry
that does not say the stage; it is taken from the next entry, or from the state that the caller asks
about (`translatedState`).
-/
namespace KNex.Sales.AuditHistory

open KNex.Core KNex.Core.JsonText KNex.Core.TextCoding KNex.Contracts.CanonicalJson

/-! ## Texts -/

def isLower (c : UInt16) : Bool := 97 ≤ c && c ≤ 122

def isLetter (c : UInt16) : Bool := isLower c || (65 ≤ c && c ≤ 90)

def isLowerHex (c : UInt16) : Bool := isDigit c || (97 ≤ c && c ≤ 102)

/-- `^[head][tail]*$` -/
def startsAndContinues (head tail : UInt16 → Bool) (s : Str) : Bool :=
  match s with
  | [] => false
  | c :: s => head c && s.all tail

/-- `/^[a-z][a-z0-9]*(?:-[a-z0-9]+)*$/u`, of at most 128 characters. -/
def isApplicationId (s : Str) : Bool :=
  s.length ≤ 128 && s.head?.any isLower && (s.splitOn 45).all fun part =>
    part ≠ [] && part.all fun c => isLower c || isDigit c

/-- `/^[a-z][a-z0-9-]*$/u`, of at most 64 characters. -/
def isEnvironment (s : Str) : Bool :=
  s.length ≤ 64 && startsAndContinues isLower (fun c => isLower c || isDigit c || c = 45) s

/-- A letter or digit, and then also full stops, underscores, colons, at signs, slashes and hyphens, of
at most 160 characters.
mirrors modules/sales/src/server.ts:2514 -/
def isActorId (s : Str) : Bool :=
  s.length ≤ 160 && startsAndContinues (fun c => isLetter c || isDigit c)
    (fun c => isLetter c || isDigit c || c ∈ units "._:@/-") s

/-- `/^[a-z][a-z0-9-]{2,127}$/u` -/
def isDurableId (s : Str) : Bool :=
  3 ≤ s.length && s.length ≤ 128 &&
    startsAndContinues isLower (fun c => isLower c || isDigit c || c = 45) s

/-- `/^sha256:[0-9a-f]{64}$/u` -/
def isDigest (s : Str) : Bool :=
  s.take 7 = units "sha256:" && s.length = 71 && (s.drop 7).all isLowerHex

/-- `/^[a-zA-Z0-9][a-zA-Z0-9._:-]*$/u`, of 1 to 128 characters. -/
def isLineageId (s : Str) : Bool :=
  s.length ≤ 128 && startsAndContinues (fun c => isLetter c || isDigit c)
    (fun c => isLetter c || isDigit c || c ∈ units "._:-") s

/-- The decimal numerals from 1 to 2147483647.
mirrors modules/sales/src/contracts.ts:21, 662 -/
def isSalesRecordId (s : Str) : Bool :=
  s.head?.any (· ≠ 48) && s.all isDigit && decimalValue s ≤ 2147483647

/-- mirrors modules/sales/src/server.ts:1301 -/
def isPipelineStageUuid (s : Str) : Bool :=
  match s.splitOn 45 with
  | [a, b, c, d, e] =>
    ([a, b, c, d, e].all fun part => part.all isLowerHex) &&
      [a, b, c, d, e].map List.length = [8, 4, 4, 4, 12] && c.head? = some 53 &&
      d.head?.any fun x => x ∈ units "89ab"
  | _ => false

/-- `Date.parse`, where `none` is no number, and `toISOString`. -/
structure Clock where
  dateParse : Str → Option Int
  toISOString : Int → Str

/-- mirrors modules/sales/src/server.ts:2517-2520 -/
def validAuditTimestamp (clock : Clock) (value : Str) : Bool :=
  (clock.dateParse value).any fun time => clock.toISOString time = value

/-! ## Actions -/

inductive Collection where
  | accounts | contacts | leads | opportunities | activities | notes | attachmentReferences
  deriving DecidableEq, Repr

inductive StateField where
  | status | stageId | archiveStatus
  deriving DecidableEq, Repr

/-- mirrors modules/sales/src/server.ts:2810-2832 -/
inductive WorkflowAction where
  | accountCreate | accountUpdate | accountArchive
  | contactCreate | contactUpdate | contactArchive
  | leadCreate | leadUpdate | leadQualify | leadDisqualify | leadArchive
  | opportunityCreate | opportunityUpdate | opportunityClose | opportunityArchive
  | activityCreate | activityComplete | activityCancel
  | noteCreate | attachmentLink | attachmentRemove
  deriving DecidableEq, Repr

namespace WorkflowAction

def text : WorkflowAction → String
  | accountCreate => "sales.account.create"
  | accountUpdate => "sales.account.update"
  | accountArchive => "sales.account.archive"
  | contactCreate => "sales.contact.create"
  | contactUpdate => "sales.contact.update"
  | contactArchive => "sales.contact.archive"
  | leadCreate => "sales.lead.create"
  | leadUpdate => "sales.lead.update"
  | leadQualify => "sales.lead.qualify"
  | leadDisqualify => "sales.lead.disqualify"
  | leadArchive => "sales.lead.archive"
  | opportunityCreate => "sales.opportunity.create"
  | opportunityUpdate => "sales.opportunity.update"
  | opportunityClose => "sales.opportunity.close"
  | opportunityArchive => "sales.opportunity.archive"
  | activityCreate => "sales.activity.create"
  | activityComplete => "sales.activity.complete"
  | activityCancel => "sales.activity.cancel"
  | noteCreate => "sales.note.create"
  | attachmentLink => "sales.attachment.link"
  | attachmentRemove => "sales.attachment.remove"

def collection : WorkflowAction → Collection
  | accountCreate | accountUpdate | accountArchive => .accounts
  | contactCreate | contactUpdate | contactArchive => .contacts
  | leadCreate | leadUpdate | leadQualify | leadDisqualify | leadArchive => .leads
  | opportunityCreate | opportunityUpdate | opportunityClose | opportunityArchive => .opportunities
  | activityCreate | activityComplete | activityCancel => .activities
  | noteCreate => .notes
  | attachmentLink | attachmentRemove => .attachmentReferences

def stateField : WorkflowAction → StateField
  | leadArchive | opportunityArchive => .archiveStatus
  | opportunityCreate | opportunityUpdate | opportunityClose => .stageId
  | _ => .status

/-- mirrors modules/sales/src/server.ts:3055 -/
def creates : WorkflowAction → Bool
  | accountCreate | contactCreate | leadCreate | opportunityCreate | activityCreate | noteCreate
  | attachmentLink => true
  | _ => false

end WorkflowAction

/-- The actions that an entry may name. -/
inductive AuditAction where
  | workflow (action : WorkflowAction)
  | stageUpdate | ownershipAssign | importCommit | mergeCommit
  deriving DecidableEq, Repr

def AuditAction.text : AuditAction → String
  | .workflow action => action.text
  | .stageUpdate => "sales.opportunity.stage.update"
  | .ownershipAssign => "sales.ownership.assign"
  | .importCommit => "sales.import.commit"
  | .mergeCommit => "sales.merge.commit"

def AuditAction.creates : AuditAction → Bool
  | .workflow action => action.creates
  | _ => false

open WorkflowAction in
def auditActions : List AuditAction :=
  [accountCreate, accountUpdate, accountArchive, contactCreate, contactUpdate, contactArchive,
    leadCreate, leadUpdate, leadQualify, leadDisqualify, leadArchive, opportunityCreate,
    opportunityUpdate, opportunityClose, opportunityArchive, activityCreate, activityComplete,
    activityCancel, noteCreate, attachmentLink, attachmentRemove].map .workflow ++
  [.stageUpdate, .ownershipAssign, .importCommit, .mergeCommit]

def auditActionOf (s : Str) : Option AuditAction :=
  auditActions.find? fun action => units action.text = s

/-- mirrors modules/sales/src/server.ts:3208-3214 -/
def workflowAuditStateField (action : AuditAction) (collection : Collection) : StateField :=
  match action with
  | .importCommit | .mergeCommit => .status
  | .stageUpdate => .stageId
  | .ownershipAssign | .workflow .leadQualify =>
    if collection = .opportunities then .stageId else .status
  | .workflow action => action.stateField

/-- mirrors modules/sales/src/server.ts:3232-3238 -/
def legalGenesis (action : AuditAction) (collection : Collection) (fromState toState : Str) : Bool :=
  fromState = units "absent" &&
    match action with
    | .importCommit =>
      if collection = .accounts ∨ collection = .contacts then toState = units "active"
      else collection = .leads && toState = units "new"
    | .workflow .leadQualify =>
      if collection = .opportunities then isPipelineStageUuid toState else toState = units "active"
    | .workflow .opportunityCreate => isPipelineStageUuid toState
    | .workflow .accountCreate | .workflow .contactCreate | .workflow .attachmentLink =>
      toState = units "active"
    | .workflow .leadCreate => toState = units "new"
    | .workflow .activityCreate => toState = units "scheduled"
    | .workflow .noteCreate => toState = units "recorded"
    | _ => false

/-- mirrors modules/sales/src/server.ts:3231-3251 -/
def legalWorkflowTransition (action : AuditAction) (collection : Collection) (fromState toState : Str)
    (genesis : Bool) : Bool :=
  if genesis then legalGenesis action collection fromState toState
  else
    match action with
    | .mergeCommit => (collection = .accounts || collection = .contacts) &&
        fromState = units "active" && (toState = units "active" || toState = units "merged")
    | .workflow .accountUpdate | .workflow .contactUpdate | .workflow .opportunityUpdate =>
      fromState = toState
    | .workflow .leadUpdate => (fromState = units "new" && toState = units "working") ||
        (fromState = units "working" && toState = units "working")
    | .workflow .leadQualify =>
      fromState ∈ [units "new", units "working"] && toState = units "qualified"
    | .workflow .leadDisqualify =>
      fromState ∈ [units "new", units "working"] && toState = units "disqualified"
    | .stageUpdate | .workflow .opportunityClose =>
      isPipelineStageUuid fromState && isPipelineStageUuid toState && fromState ≠ toState
    | .workflow .activityComplete =>
      fromState = units "scheduled" && toState = units "completed"
    | .workflow .activityCancel => fromState = units "scheduled" && toState = units "cancelled"
    | .workflow .attachmentRemove => fromState = units "active" && toState = units "removed"
    | .workflow .accountArchive | .workflow .contactArchive | .workflow .leadArchive
    | .workflow .opportunityArchive => fromState = units "active" && toState = units "archived"
    | .ownershipAssign => fromState = toState
    | _ => false

/-! ## Entries -/

structure Ownership where
  ownerId : Str
  teamId : Option Str
  deriving DecidableEq, Repr

section Values

variable {N : Type}

abbrev Fields (N : Type) := List (Str × JsonValue N)

/-- mirrors modules/sales/src/server.ts:2522-2524 -/
def exactKeys (fields : Fields N) (keys : List String) : Bool :=
  keyText (fields.map Prod.fst) = keyText (keys.map units)

def isRecord : JsonValue N → Option (Fields N)
  | .obj fields => some fields
  | _ => none

def textField (fields : Fields N) (key : String) : Option Str := (field? fields key).bind textOf

def isText (fields : Fields N) (key text : String) : Bool := textField fields key = some (units text)

/-- A team that may be null. -/
def teamOf (value : Option (JsonValue N)) : Option (Option Str) :=
  match value with
  | some .null => some none
  | some (.str s) => if isActorId s then some (some s) else none
  | _ => none

/-- mirrors modules/sales/src/server.ts:2526-2530 -/
def ownershipSnapshot (value : Option (JsonValue N)) : Option Ownership := do
  let fields ← value.bind isRecord
  guard (exactKeys fields ["ownerId", "teamId"])
  let ownerId ← textField fields "ownerId"
  guard (isActorId ownerId)
  let teamId ← teamOf (field? fields "teamId")
  return { ownerId, teamId }

/-- The entry of an opportunity that was migrated.
mirrors modules/sales/src/server.ts:2572-2578 -/
def validMigrationAudit (entry : Fields N) : Bool :=
  let genesisKey := if (field? entry "ownershipGenesis").isNone then [] else ["ownershipGenesis"]
  isText entry "kind" "phase-13-legacy-upgrade" &&
    (textField entry "receiptDigest").any isDigest &&
    ((field? entry "ownershipGenesis").isNone ||
      (ownershipSnapshot (field? entry "ownershipGenesis")).isSome) &&
    exactKeys entry (["kind", "receiptDigest", "legacyStage"] ++ genesisKey) &&
    (textField entry "legacyStage").any fun stage => 0 < stage.length && stage.length ≤ 64

/-- mirrors modules/sales/src/server.ts:3270 -/
def validLegacyImport (entry : Fields N) : Bool :=
  exactKeys entry ["kind", "receiptDigest", "ownershipGenesis"] &&
    isText entry "kind" "phase-13-legacy-import" && (textField entry "receiptDigest").any isDigest

structure AuditIdentity where
  id : Str
  applicationId : Str
  environment : Str
  revision : Int
  ownerId : Option Str
  teamId : Option Str
  status : Option Str
  stageId : Option Str
  archiveStatus : Option Str

/-- What is kept of an entry that passed its own checks. -/
structure AuditEntry where
  action : AuditAction
  fromState : Str
  toState : Str
  revision : Int
  idempotencyKey : Str
  genesis : Option Ownership
  ownership : Option (Ownership × Ownership)

inductive AuditError where
  /-- `Sales audit history is invalid.` -/
  | invalid
  /-- `Sales audit history exceeds its bounded contract.` -/
  | exceedsBounds
  /-- `Sales ownership genesis is invalid.` -/
  | genesisInvalid
  /-- `Sales ownership audit continuity is invalid.` -/
  | ownershipContinuity
  /-- `Sales audit history is not current.` -/
  | notCurrent
  deriving DecidableEq, Repr

variable (F : Integers N)

/-- A safe integer of the bounds. -/
def countField (fields : Fields N) (key : String) (low high : Int) : Option Int :=
  match field? fields key with
  | some (.num n) => (F.integerOf n).filter fun k => low ≤ k && k ≤ high
  | _ => none

/-- mirrors modules/sales/src/server.ts:3216-3229 -/
def validDataMovementAudit (value : Option (JsonValue N)) (collection : Collection) (genesis : Bool)
    (action : AuditAction) (entry : Fields N) : Bool :=
  match value.bind isRecord with
  | none => false
  | some fields =>
    if action = .importCommit then
      genesis && exactKeys fields ["kind", "importJobId", "oneBasedDataRow", "rowDigest"] &&
        isText fields "kind" "import" &&
        (countField F fields "importJobId" 1 9007199254740991).isSome &&
        (countField F fields "oneBasedDataRow" 1 10000).isSome &&
        (textField fields "rowDigest").any isDigest && isText entry "fromState" "absent" &&
        (if collection = .accounts ∨ collection = .contacts then isText entry "toState" "active"
         else collection = .leads && isText entry "toState" "new")
    else
      action = .mergeCommit && !genesis && (collection = .accounts || collection = .contacts) &&
        exactKeys fields ["kind", "lineageId", "role"] && isText fields "kind" "merge" &&
        (isText fields "role" "survivor" || isText fields "role" "merged") &&
        (textField fields "lineageId").any isLineageId && isText entry "fromState" "active" &&
        (if isText fields "role" "survivor" then isText entry "toState" "active"
         else isText entry "toState" "merged")

/-- mirrors modules/sales/src/server.ts:3278, 3284-3287 -/
def actionAllowed (collection : Collection) (genesis : Bool) (action : AuditAction)
    (entry : Fields N) : Bool :=
  match action with
  | .workflow a => a.collection = collection || (a = .leadQualify && genesis &&
      collection ∈ [Collection.accounts, .contacts, .opportunities])
  | .stageUpdate => collection = .opportunities
  | .importCommit | .mergeCommit =>
    validDataMovementAudit F (field? entry "dataMovement") collection genesis action entry
  | .ownershipAssign => collection ∈ [Collection.accounts, .contacts, .leads, .opportunities]

/-- mirrors modules/sales/src/server.ts:3283 -/
def allowedKeys (genesis : Bool) (action : AuditAction) : List String :=
  ["actionId", "resourceId", "applicationId", "environment", "fromState", "toState", "occurredAt",
    "actorId", "revision", "idempotencyKey"] ++
    (if genesis then ["ownershipGenesis"] else []) ++
    (if action = .ownershipAssign then ["ownership"] else []) ++
    (if action = .importCommit ∨ action = .mergeCommit then ["dataMovement"] else [])

/-- mirrors modules/sales/src/server.ts:3295-3298 -/
def ownershipChange (value : Option (JsonValue N)) : Option (Ownership × Ownership) := do
  let fields ← value.bind isRecord
  guard (exactKeys fields ["oldOwnerId", "newOwnerId", "oldTeamId", "newTeamId"])
  let oldOwnerId ← textField fields "oldOwnerId"
  let newOwnerId ← textField fields "newOwnerId"
  guard (isActorId oldOwnerId ∧ isActorId newOwnerId)
  let oldTeamId ← teamOf (field? fields "oldTeamId")
  let newTeamId ← teamOf (field? fields "newTeamId")
  return ({ ownerId := oldOwnerId, teamId := oldTeamId }, { ownerId := newOwnerId, teamId := newTeamId })

/-- The checks of an entry that need no earlier entry.
mirrors modules/sales/src/server.ts:3278-3304 -/
def readEntry (clock : Clock) (collection : Collection) (identity : AuditIdentity)
    (migration : Bool) (index : Nat) (value : JsonValue N) : Option AuditEntry := do
  let entry ← isRecord value
  let action ← (textField entry "actionId").bind auditActionOf
  let genesis := index = 0 && !migration
  guard (exactKeys entry (allowedKeys genesis action) ∧ actionAllowed F collection genesis action entry)
  guard (textField entry "resourceId" = some identity.id ∧ isSalesRecordId identity.id)
  guard (textField entry "applicationId" = some identity.applicationId ∧
    isApplicationId identity.applicationId)
  guard (textField entry "environment" = some identity.environment ∧ isEnvironment identity.environment)
  let revision ← countField F entry "revision" 1 1000000000
  guard (revision = index + 1)
  guard ((textField entry "occurredAt").any (validAuditTimestamp clock))
  guard ((textField entry "actorId").any isActorId)
  let fromState ← textField entry "fromState"
  let toState ← textField entry "toState"
  let idempotencyKey ← (textField entry "idempotencyKey").filter isDurableId
  let genesisFacts := ownershipSnapshot (field? entry "ownershipGenesis")
  guard (genesis → genesisFacts.isSome)
  let ownership := ownershipChange (field? entry "ownership")
  guard (action = .ownershipAssign → ownership.isSome)
  guard (¬ (action.creates ∧ index ≠ 0))
  guard (legalWorkflowTransition action collection fromState toState genesis)
  return {
    action, fromState, toState, revision, idempotencyKey
    genesis := if genesis then genesisFacts else none
    ownership := if action = .ownershipAssign then ownership else none }

/-! ## The loop -/

/-- The keys of the map of states. -/
structure States where
  status : Option Str
  stageId : Option Str
  archiveStatus : Option Str
  deriving DecidableEq

def States.get (states : States) : StateField → Option Str
  | .status => states.status
  | .stageId => states.stageId
  | .archiveStatus => states.archiveStatus

def States.set (states : States) (field : StateField) (state : Str) : States :=
  match field with
  | .status => { states with status := some state }
  | .stageId => { states with stageId := some state }
  | .archiveStatus => { states with archiveStatus := some state }

structure AuditState where
  states : States
  migration : Bool
  idempotencyKeys : List Str
  lastOwnership : Option Ownership
  lastRevision : Option Int

/-- mirrors modules/sales/src/server.ts:3255-3260 -/
def AuditState.start : AuditState where
  states := { status := none, stageId := none, archiveStatus := some (units "active") }
  migration := false
  idempotencyKeys := []
  lastOwnership := none
  lastRevision := none

/-- The stage that a migrated opportunity had.
mirrors modules/sales/src/server.ts:3266 -/
def translatedState (bounded : List (JsonValue N)) (currentState : Str) : Str :=
  match (bounded[1]?.bind isRecord).bind fun successor => textField successor "fromState" with
  | some fromState => if isPipelineStageUuid fromState then fromState else currentState
  | none => currentState

/-- The state after an opening entry of an earlier release, `none` for another entry.
mirrors modules/sales/src/server.ts:3263-3277 -/
def opening (collection : Collection) (bounded : List (JsonValue N)) (currentState : Str)
    (entry : JsonValue N) (st : AuditState) : Option (Except AuditError AuditState) := do
  let record ← isRecord entry
  let opened ←
    if collection = .opportunities ∧ validMigrationAudit record then
      some (StateField.stageId, translatedState bounded currentState)
    else if collection = .accounts ∧ validLegacyImport record then
      some (StateField.status, units "active")
    else none
  match ownershipSnapshot (field? record "ownershipGenesis") with
  | none => some (.error .genesisInvalid)
  | some genesis => some (.ok { st with
      migration := true
      states := st.states.set opened.1 opened.2
      lastOwnership := some genesis })

/-- mirrors modules/sales/src/server.ts:3305-3318 -/
def entryRound (clock : Clock) (collection : Collection) (identity : AuditIdentity) (index : Nat)
    (value : JsonValue N) (st : AuditState) : Except AuditError AuditState :=
  match readEntry F clock collection identity st.migration index value with
  | none => .error .invalid
  | some entry => do
    let stateField := workflowAuditStateField entry.action collection
    failIf (entry.idempotencyKey ∈ st.idempotencyKeys ∨
      entry.fromState ≠ (st.states.get stateField).getD (units "absent") ∨
      (index = 0 ∧ st.migration)) .invalid
    let lastOwnership := entry.genesis.or st.lastOwnership
    match entry.ownership with
    | none => return {
        st with
        states := st.states.set stateField entry.toState
        idempotencyKeys := st.idempotencyKeys ++ [entry.idempotencyKey]
        lastOwnership
        lastRevision := some entry.revision }
    | some change => do
      failIf (lastOwnership ≠ some change.1) .ownershipContinuity
      return {
        st with
        idempotencyKeys := st.idempotencyKeys ++ [entry.idempotencyKey]
        lastOwnership := some change.2
        lastRevision := some entry.revision }

/-- mirrors modules/sales/src/server.ts:3261-3319 -/
def auditRound (clock : Clock) (collection : Collection) (identity : AuditIdentity)
    (bounded : List (JsonValue N)) (currentState : Str) (st : AuditState)
    (entry : JsonValue N × Nat) : Except AuditError AuditState :=
  match if entry.2 = 0 then opening collection bounded currentState entry.1 st else none with
  | some opened => opened
  | none => entryRound F clock collection identity entry.2 entry.1 st

/-- mirrors modules/sales/src/server.ts:2538-2549 -/
def boundedAuditArray (value : JsonValue N) : Except AuditError (List (JsonValue N)) :=
  let bytes (v : JsonValue N) : Except AuditError Nat :=
    match canonicalJson F.toNumberFormat (ofParsed v) with
    | .ok text => .ok (byteLength text)
    | .error _ => .error .invalid
  match value with
  | .arr items _ => do
    failIf (items.length = 0 ∨ items.length > 100) .invalid
    let total ← bytes value
    failIf (total > 262144) .exceedsBounds
    items.forM fun item => do
      let size ← bytes item
      failIf (size > 4096) .exceedsBounds
    return items
  | _ => .error .invalid

/-- mirrors modules/sales/src/server.ts:3319-3323 -/
def checkCurrent (identity : AuditIdentity) (currentState : Str) (currentStateField : StateField)
    (st : AuditState) : Except AuditError Unit :=
  failIf (st.lastRevision.getD (if st.migration then 1 else 0) ≠ identity.revision ∨
    st.states.get currentStateField ≠ some currentState ∨
    (identity.status.isSome ∧ st.states.status ≠ identity.status) ∨
    (identity.stageId.isSome ∧ st.states.stageId ≠ identity.stageId) ∨
    (identity.archiveStatus.isSome ∧ st.states.archiveStatus ≠ identity.archiveStatus) ∨
    ¬ st.lastOwnership.any fun owned =>
      identity.ownerId = some owned.ownerId ∧ identity.teamId = owned.teamId) .notCurrent

/-- mirrors modules/sales/src/server.ts:3253-3324 -/
def workflowAuditHistory (clock : Clock) (value : JsonValue N) (collection : Collection)
    (identity : AuditIdentity) (currentState : Str) (currentStateField : StateField) :
    Except AuditError (List (JsonValue N)) := do
  let bounded ← boundedAuditArray F value
  let st ← bounded.zipIdx.foldlM (auditRound F clock collection identity bounded currentState) .start
  checkCurrent identity currentState currentStateField st
  return bounded

end Values

end KNex.Sales.AuditHistory
