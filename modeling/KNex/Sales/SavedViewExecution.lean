import KNex.Sales.SavedViewGateway

/-!
# Execution plans of saved views (`modules/sales/src/server.ts`)

`resolveSalesSavedViewExecution` turns a stored view and the answers of its persistence into a plan,
which `savedViewExecution` checks again when the gateway runs it. The first walks the entries of the
field authority and refuses one that grants too little, but does not count them, so a selected field
may have no entry; the second counts. `plan_executable_iff` says for which answers the plan is covered
and runs.
-/
namespace KNex.Sales.SavedViews

open KNex.Core KNex.Core.JsonText KNex.Contracts.CanonicalJson KNex.Sales.CalendarRange
  KNex.Runtime.CallBudget KNex.Runtime.QueryControls

/-! ## Views and answers -/

inductive ViewStatus where
  | active | archived
  deriving DecidableEq, Repr

inductive Visibility where
  | personal
  | team (teamId : Str)
  deriving DecidableEq, Repr

structure SalesSavedViewFieldAuthority where
  fieldId : Str
  select : Bool
  filter : Bool
  sort : Bool
  deriving DecidableEq, Repr

section Values

variable {N : Type}

/-- A stored view; its definition was read as JSON.
mirrors modules/sales/src/server.ts:1327-1330 -/
structure SalesPersistedSavedView (N : Type) where
  id : Numeric N
  revision : Numeric N
  applicationId : Str
  environment : Str
  ownerId : Str
  visibility : Visibility
  definition : JsonValue N
  status : ViewStatus
  clean : Clean definition

/-- mirrors modules/sales/src/server.ts:1331 -/
structure SalesSavedViewMetadataScope (N : Type) where
  applicationId : Str
  environment : Str
  savedViewId : Numeric N
  savedViewRevision : Numeric N
  ownerId : Str
  visibility : Visibility

/-- mirrors modules/sales/src/server.ts:1332 -/
structure SalesSavedViewTargetRecordScope (N : Type) where
  kind : Str
  filter : JsValue N

/-- What the persistence answers.
mirrors modules/sales/src/server.ts:1334-1345 -/
structure Persistence (N : Type) where
  lockSavedView : Numeric N → Option (SalesPersistedSavedView N)
  resolveDefaultSavedView : SourceId → Option (SalesPersistedSavedView N)
  authorizationRevision : Numeric N
  sourceRevision : SourceId → Numeric N
  authorizeView : SalesPersistedSavedView N → Bool
  authorizeTarget : SalesPersistedSavedView N → Bool
  authorizeFields : SalesPersistedSavedView N → Bool
  targetRecordScope : SalesPersistedSavedView N → Option (SalesSavedViewTargetRecordScope N)
  fieldAuthority : SalesPersistedSavedView N → List SalesSavedViewFieldAuthority
  reportingTimezone : ReportingTimezone

/-- mirrors modules/sales/src/server.ts:1346-1349 -/
structure ExecutionRequest (N : Type) where
  sourceId : SourceId
  bindingInput : JsonValue N
  selectedFields : List Str
  pageNumber : Numeric N
  applicationId : Str
  environment : Str

/-- A plan that is not empty, with what its fence repeats.
mirrors modules/sales/src/server.ts:1350-1353 -/
structure ExecutionPlan (N : Type) where
  savedViewId : Numeric N
  savedViewRevision : Numeric N
  metadataScope : SalesSavedViewMetadataScope N
  targetRecordScope : SalesSavedViewTargetRecordScope N
  fieldAuthority : List SalesSavedViewFieldAuthority
  selectedFields : List Str
  query : SavedQuery N
  sourceRevision : Numeric N
  authorizationRevision : Numeric N
  reportingTimezone : Option ReportingTimezone

inductive ResolvedExecution (N : Type) where
  | empty (selectedFields : List Str) (pageNumber : Numeric N)
  | plan (plan : ExecutionPlan N)

inductive ExecutionError where
  /-- `Sales saved-view binding input is invalid.` -/
  | bindingInvalid
  /-- `Sales saved view is unavailable.` -/
  | unavailable
  /-- The definition has no source. -/
  | noSource
  /-- `Sales saved-view revision fence is invalid.` -/
  | revisionFence
  /-- `Sales saved-view target authority is unavailable.` -/
  | targetAuthority
  /-- An error of the compilation. -/
  | definition (error : CompileError)
  /-- `The Sales source requires an authenticated application and environment identity.` -/
  | identityMissing
  /-- `Sales saved-view execution requires an exact ephemeral binding and page.` -/
  | bindingRequired
  /-- `Sales saved-view metadata authority is invalid.` -/
  | metadataAuthority
  /-- `Sales saved view changed before execution.` -/
  | stale
  /-- `Sales saved-view compiled query does not match its persisted definition.` -/
  | queryMismatch
  /-- `Sales saved-view execution authority is invalid.` -/
  | executionAuthority
  deriving DecidableEq, Repr

/-! ## The plan -/

variable (F : Integers N)

/-- `a === b` of two numbers. -/
def sameNumber [DecidableEq N] (a b : Numeric N) : Bool := toNumber F.toNumberFormat a = toNumber F.toNumberFormat b

/-- `Number.isSafeInteger(value) && value > 0`. -/
def positiveExecutionRevision (value : Numeric N) : Bool := (F.integerOf value).any positiveSafeInteger

/-- `definition.source.id`, where the access does not throw. -/
def sourceIdOf (definition : JsonValue N) : Except ExecutionError (Option (JsonValue N)) :=
  match definition with
  | .obj fields =>
    match field? fields "source" with
    | none | some .null => .error .noSource
    | some (.obj source) => .ok (field? source "id")
    | some _ => .ok none
  | _ => .error .noSource

/-- mirrors modules/sales/src/server.ts:1369 -/
def expectedScopeKind (definition : JsonValue N) : Option Str :=
  match definition with
  | .obj fields =>
    let kinds := [("sales.object.account", "sales.accounts"), ("sales.object.contact", "sales.contacts"),
      ("sales.object.lead", "sales.leads"), ("sales.object.opportunity", "sales.opportunities"),
      ("sales.object.task", "sales.tasks"), ("sales.object.activity", "sales.activities")]
    (kinds.find? fun kind => isText (field? fields "targetObjectId") kind.1).map fun kind => units kind.2
  | _ => none

def isRecord : JsValue N → Bool
  | .object _ _ => true
  | _ => false

/-- An entry that is for another field or grants less than the query uses.
mirrors modules/sales/src/server.ts:1371, 2323 -/
def entryRefused (selected filtered sorted : List Str) (entry : SalesSavedViewFieldAuthority) : Bool :=
  entry.fieldId ∉ selected || !entry.select || (entry.fieldId ∈ filtered && !entry.filter) ||
    (entry.fieldId ∈ sorted && !entry.sort)

/-- Whether two entries are for one field. -/
def fieldTwice (fieldAuthority : List SalesSavedViewFieldAuthority) : Bool :=
  fieldAuthority.length ≠ (fieldAuthority.map SalesSavedViewFieldAuthority.fieldId).dedup.length

/-- The view of the request. -/
def selectView (request : ExecutionRequest N) (p : Persistence N) :
    Except ExecutionError (Option (BindingInput N) × Option (SalesPersistedSavedView N)) :=
  match parseSalesSavedViewBindingInput F request.bindingInput with
  | none => .error .bindingInvalid
  | some none => .ok (none, p.resolveDefaultSavedView request.sourceId)
  | some (some binding) => .ok (some binding, p.lockSavedView binding.savedViewId)

/-- mirrors modules/sales/src/server.ts:1363-1364 -/
def checkView [DecidableEq N] (request : ExecutionRequest N) (p : Persistence N) (binding : Option (BindingInput N))
    (view : SalesPersistedSavedView N) : Except ExecutionError Unit := do
  failIf (view.status ≠ .active ∨ view.applicationId ≠ request.applicationId ∨
    view.environment ≠ request.environment ∨
    binding.any fun binding => !sameNumber F binding.expectedRevision view.revision) .unavailable
  let sourceId ← sourceIdOf view.definition
  failIf (¬ isText sourceId request.sourceId.text ∨ ¬ p.authorizeView view ∨ ¬ p.authorizeTarget view ∨
    ¬ p.authorizeFields view) .unavailable

/-- mirrors modules/sales/src/server.ts:1365, of the timezone -/
def timezoneOf (request : ExecutionRequest N) (p : Persistence N) : Option ReportingTimezone :=
  if request.sourceId = .calendar then some p.reportingTimezone else none

/-- mirrors modules/sales/src/server.ts:1365-1375 -/
def planOf (host : Host) (request : ExecutionRequest N) (p : Persistence N)
    (view : SalesPersistedSavedView N) : Except ExecutionError (ExecutionPlan N) :=
  let authorizationRevision := p.authorizationRevision
  let sourceRevision := p.sourceRevision request.sourceId
  let fieldAuthority := p.fieldAuthority view
  if ¬ positiveExecutionRevision F authorizationRevision ∨ ¬ positiveExecutionRevision F sourceRevision
    then .error .revisionFence
  else
    match compileSalesSavedViewDefinition F host view.definition request.sourceId
      request.selectedFields request.pageNumber (timezoneOf request p), p.targetRecordScope view with
    | .error e, _ => .error (.definition e)
    | .ok _, none => .error .targetAuthority
    | .ok compiled, some targetRecordScope =>
      let filtered := compiled.query.filters.map SavedFilter.field
      let sorted := compiled.query.sort.map SavedSort.field
      if some targetRecordScope.kind ≠ expectedScopeKind view.definition ∨
          ¬ isRecord targetRecordScope.filter ∨ fieldTwice fieldAuthority ∨
          fieldAuthority.any (entryRefused compiled.selectedFields filtered sorted) then
        .error .targetAuthority
      else .ok
        { savedViewId := view.id
          savedViewRevision := view.revision
          metadataScope :=
            { applicationId := view.applicationId
              environment := view.environment
              savedViewId := view.id
              savedViewRevision := view.revision
              ownerId := view.ownerId
              visibility := view.visibility }
          targetRecordScope := targetRecordScope
          fieldAuthority := fieldAuthority
          selectedFields := compiled.selectedFields
          query := compiled.query
          sourceRevision := sourceRevision
          authorizationRevision := authorizationRevision
          reportingTimezone := timezoneOf request p }

/-- mirrors modules/sales/src/server.ts:1356-1375 -/
def resolveSalesSavedViewExecution [DecidableEq N] (host : Host) (request : ExecutionRequest N)
    (p : Persistence N) : Except ExecutionError (ResolvedExecution N) := do
  match ← selectView F request p with
  | (_, none) => return .empty request.selectedFields request.pageNumber
  | (binding, some view) =>
    checkView F request p binding view
    let plan ← planOf F host request p view
    return .plan plan

/-! ## The execution -/

def Visibility.json : Visibility → JsonValue N
  | .personal => .obj [(units "kind", .str (units "personal"))]
  | .team teamId => .obj [(units "kind", .str (units "team")), (units "teamId", .str teamId)]

def SalesSavedViewMetadataScope.json (scope : SalesSavedViewMetadataScope N) : JsonValue N :=
  .obj [(units "applicationId", .str scope.applicationId),
    (units "environment", .str scope.environment), (units "savedViewId", .num scope.savedViewId),
    (units "savedViewRevision", .num scope.savedViewRevision), (units "ownerId", .str scope.ownerId),
    (units "visibility", scope.visibility.json)]

def SalesSavedViewTargetRecordScope.value (scope : SalesSavedViewTargetRecordScope N) : JsValue N :=
  .object .object [(.str (units "kind"), true, some (.string scope.kind)),
    (.str (units "where"), true, some scope.filter)]

/-- `canonicalJson(a) === canonicalJson(b)`, and neither throws. -/
def sameJson (a b : JsValue N) : Bool :=
  match canonicalJson F.toNumberFormat a, canonicalJson F.toNumberFormat b with
  | .ok text, .ok text' => text = text'
  | _, _ => false

/-- mirrors modules/sales/src/server.ts:827 -/
structure ExecutionAuthority (N : Type) where
  metadataScope : SalesSavedViewMetadataScope N
  targetRecordScope : SalesSavedViewTargetRecordScope N
  fieldAuthority : List SalesSavedViewFieldAuthority
  reportingTimezone : Option ReportingTimezone

/-- What the handler of the source gets, with the rows that its query finds. -/
structure ExecutionContext (N : Type) where
  input : JsonValue N
  applicationId : Str
  environment : Str
  authority : Option (ExecutionAuthority N)
  docs : List (SalesPersistedSavedView N)
  query : Controls N
  selectedFields : List Str
  recordScope : SalesSavedViewTargetRecordScope N

/-- mirrors modules/sales/src/server.ts:2304-2308 -/
def metadataRefused [DecidableEq N] (context : ExecutionContext N) (binding : BindingInput N)
    (metadata : SalesSavedViewMetadataScope N) : Bool :=
  metadata.applicationId ≠ context.applicationId || metadata.environment ≠ context.environment ||
    !sameNumber F metadata.savedViewId binding.savedViewId ||
    !sameNumber F metadata.savedViewRevision binding.expectedRevision ||
    metadata.ownerId.length < 1 || metadata.visibility = .team []

/-- mirrors modules/sales/src/server.ts:2321-2323 -/
def authorityRefused (context : ExecutionContext N) (binding : BindingInput N)
    (row : SalesPersistedSavedView N) (authority : ExecutionAuthority N) : Bool :=
  let expectedMetadata : SalesSavedViewMetadataScope N :=
    { applicationId := context.applicationId
      environment := context.environment
      savedViewId := binding.savedViewId
      savedViewRevision := binding.expectedRevision
      ownerId := row.ownerId
      visibility := row.visibility }
  let selected := context.selectedFields
  let filtered := context.query.filters.map FilterQuery.field
  let sorted := context.query.sort.map SortQuery.field
  !sameJson F (ofParsed authority.metadataScope.json) (ofParsed expectedMetadata.json) ||
    !sameJson F authority.targetRecordScope.value context.recordScope.value ||
    authority.fieldAuthority.length ≠ selected.dedup.length || fieldTwice authority.fieldAuthority ||
    authority.fieldAuthority.any (entryRefused selected filtered sorted)

/-- mirrors modules/sales/src/server.ts:2315-2324 -/
def executeRow [DecidableEq N] (host : Host) (context : ExecutionContext N) (sourceId : SourceId)
    (binding : BindingInput N) (page : PageQuery N) (authority : ExecutionAuthority N)
    (row : SalesPersistedSavedView N) : Except ExecutionError (JsonValue N × BindingInput N) :=
  if ¬ sameNumber F row.revision binding.expectedRevision ∨ row.status ≠ .active then .error .stale
  else
    match compileSalesSavedViewDefinition F host row.definition sourceId context.selectedFields
      page.number authority.reportingTimezone with
    | .error e => .error (.definition e)
    | .ok compiled => do
      failIf (¬ sameJson F (ofParsed compiled.query.json) (ofParsed context.query.json)) .queryMismatch
      failIf (authorityRefused F context binding row authority = true) .executionAuthority
      return (row.definition, binding)

/-- mirrors modules/sales/src/server.ts:2300-2325 -/
def savedViewExecution [DecidableEq N] (host : Host) (context : ExecutionContext N)
    (sourceId : SourceId) : Except ExecutionError (JsonValue N × BindingInput N) :=
  match parseSalesSavedViewBindingInput F context.input with
  | none => .error .bindingInvalid
  | some binding =>
    if context.applicationId = [] ∨ context.environment = [] then .error .identityMissing
    else
      match binding, context.query.page, context.authority with
      | none, _, _ | _, none, _ => .error .bindingRequired
      | _, _, none => .error .metadataAuthority
      | some binding, some page, some authority =>
        if metadataRefused F context binding authority.metadataScope then .error .metadataAuthority
        else
          match context.docs with
          | [row] => executeRow F host context sourceId binding page authority row
          | _ => .error .unavailable

/-! ## Coverage -/

variable {F}

/-- The field authority of a plan grants what its query uses, and nothing else. -/
structure Covered (plan : ExecutionPlan N) : Prop where
  selected : ∀ id ∈ plan.selectedFields, ∃ entry ∈ plan.fieldAuthority,
    entry.fieldId = id ∧ entry.select = true
  filtered : ∀ filter ∈ plan.query.filters, ∃ entry ∈ plan.fieldAuthority,
    entry.fieldId = filter.field ∧ entry.filter = true
  sorted : ∀ item ∈ plan.query.sort, ∃ entry ∈ plan.fieldAuthority,
    entry.fieldId = item.field ∧ entry.sort = true
  only : ∀ entry ∈ plan.fieldAuthority, entry.fieldId ∈ plan.selectedFields

theorem fieldTwice_eq_false {entries : List SalesSavedViewFieldAuthority} :
    fieldTwice entries = false ↔ (entries.map SalesSavedViewFieldAuthority.fieldId).Nodup := by
  unfold fieldTwice
  rw [decide_eq_false_iff_not, Decidable.not_not]
  constructor
  · intro h
    have hsame := (List.dedup_sublist (entries.map SalesSavedViewFieldAuthority.fieldId)).eq_of_length
      (by rw [← h, List.length_map])
    exact List.dedup_eq_self.mp hsame
  · intro h
    rw [h.dedup, List.length_map]

theorem entryRefused_eq_false {selected filtered sorted : List Str}
    {entry : SalesSavedViewFieldAuthority} : entryRefused selected filtered sorted entry = false ↔
      entry.fieldId ∈ selected ∧ entry.select = true ∧
        (entry.fieldId ∈ filtered → entry.filter = true) ∧
        (entry.fieldId ∈ sorted → entry.sort = true) := by
  unfold entryRefused
  simp only [Bool.or_eq_false_iff, Bool.and_eq_false_imp, decide_eq_false_iff_not, Decidable.not_not,
    Bool.not_eq_false', decide_eq_true_eq]
  tauto

/-- Entries for different fields of a list are as many as the list where each field has one. -/
theorem covers_iff {entries : List SalesSavedViewFieldAuthority} {fields : List Str}
    (hfields : fields.Nodup) (hentries : (entries.map SalesSavedViewFieldAuthority.fieldId).Nodup)
    (honly : ∀ entry ∈ entries, entry.fieldId ∈ fields) :
    entries.length = fields.length ↔ ∀ id ∈ fields, ∃ entry ∈ entries, entry.fieldId = id := by
  have hsub : entries.map SalesSavedViewFieldAuthority.fieldId ⊆ fields := by
    intro id hid
    obtain ⟨entry, hentry, rfl⟩ := List.mem_map.mp hid
    exact honly entry hentry
  have hsubperm := List.subperm_of_subset hentries hsub
  constructor
  · intro hlength id hid
    have hperm := hsubperm.perm_of_length_le (by rw [List.length_map, hlength])
    exact List.mem_map.mp (hperm.mem_iff.mpr hid)
  · intro hall
    have hback : fields ⊆ entries.map SalesSavedViewFieldAuthority.fieldId :=
      fun id hid => List.mem_map.mpr (hall id hid)
    have hle := (List.subperm_of_subset hfields hback).length_le
    have hge := hsubperm.length_le
    rw [List.length_map] at hle hge
    omega

/-- What `planOf` checked. -/
structure Planned (F : Integers N) (host : Host) (request : ExecutionRequest N) (p : Persistence N)
    (view : SalesPersistedSavedView N) (plan : ExecutionPlan N)
    (compiled : CompiledSalesSavedView N) : Prop where
  compiles : compileSalesSavedViewDefinition F host view.definition request.sourceId
    request.selectedFields request.pageNumber (timezoneOf request p) = .ok compiled
  metadata : plan.metadataScope = ⟨view.applicationId, view.environment, view.id, view.revision,
    view.ownerId, view.visibility⟩
  id : plan.savedViewId = view.id
  revision : plan.savedViewRevision = view.revision
  scope : p.targetRecordScope view = some plan.targetRecordScope
  authority : plan.fieldAuthority = p.fieldAuthority view
  fields : plan.selectedFields = compiled.selectedFields
  query : plan.query = compiled.query
  timezone : plan.reportingTimezone = timezoneOf request p
  once : (plan.fieldAuthority.map SalesSavedViewFieldAuthority.fieldId).Nodup
  granted : ∀ entry ∈ plan.fieldAuthority, entryRefused plan.selectedFields
    (plan.query.filters.map SavedFilter.field) (plan.query.sort.map SavedSort.field) entry = false

theorem planOf_eq_ok {host : Host} {request : ExecutionRequest N} {p : Persistence N}
    {view : SalesPersistedSavedView N} {plan : ExecutionPlan N}
    (h : planOf F host request p view = .ok plan) :
    ∃ compiled, Planned F host request p view plan compiled := by
  unfold planOf at h
  dsimp only at h
  split at h
  · cases h
  split at h
  · cases h
  · cases h
  rename_i compiled scope hcompile hscope
  split at h
  · cases h
  rename_i hchecks
  simp only [not_or, Bool.not_eq_true] at hchecks
  obtain ⟨-, -, honce, hgranted⟩ := hchecks
  cases h
  refine ⟨compiled, hcompile, rfl, rfl, rfl, hscope, rfl, rfl, rfl, rfl, ?_, ?_⟩
  · exact fieldTwice_eq_false.mp honce
  · exact fun entry hentry => by simpa using List.any_eq_false.mp hgranted entry hentry

/-- The same fields of a view that compiled, asked for at its own page, compile to it. -/
theorem compile_again {host : Host} {definition : JsonValue N} {sourceId : SourceId}
    {selectedFields : List Str} {pageNumber : Numeric N}
    {reportingTimezone : Option ReportingTimezone} {compiled : CompiledSalesSavedView N}
    (h : compileSalesSavedViewDefinition F host definition sourceId selectedFields pageNumber
      reportingTimezone = .ok compiled) :
    compileSalesSavedViewDefinition F host definition sourceId compiled.selectedFields
      compiled.query.number reportingTimezone = .ok compiled := by
  obtain ⟨view, lists, filters, dates, hs⟩ := compile_eq_ok.mp h
  obtain ⟨-, -, -, hsame⟩ := fieldsOf_eq_ok hs.fieldsRead
  obtain ⟨hnumber, -, -⟩ := definitionOf_eq_ok.mp hs.viewRead
  rw [← hs.queryNumber] at hnumber
  exact compile_page h hsame.symm hnumber

/-- The number of fields that a definition selects. -/
def fieldCount (definition : JsonValue N) : Nat :=
  match definition with
  | .obj fields => (((field? fields "fields").bind arrayOf).getD []).length
  | _ => 0

theorem compile_fields {host : Host} {definition : JsonValue N} {sourceId : SourceId}
    {selectedFields : List Str} {pageNumber : Numeric N}
    {reportingTimezone : Option ReportingTimezone} {compiled : CompiledSalesSavedView N}
    (h : compileSalesSavedViewDefinition F host definition sourceId selectedFields pageNumber
      reportingTimezone = .ok compiled) :
    compiled.selectedFields.Nodup ∧ compiled.selectedFields.length = fieldCount definition := by
  obtain ⟨view, lists, filters, dates, hs⟩ := compile_eq_ok.mp h
  obtain ⟨-, hview, -⟩ := definitionOf_eq_ok.mp hs.viewRead
  obtain ⟨rfl, -, -⟩ := objectWith_eq_some.mp hview
  obtain ⟨⟨extra, hfields⟩, -⟩ := fieldsOf_eq_ok hs.fieldsRead
  refine ⟨?_, ?_⟩
  · have hread := hs.fieldsRead
    unfold fieldsOf at hread
    split at hread
    · cases hread
    split at hread
    · cases hread
    rename_i hchecks
    simp only [not_or, Decidable.not_not] at hchecks
    obtain rfl := Except.ok.inj hread
    exact hchecks.2.2.1
  · unfold fieldCount
    dsimp only
    rw [hfields]
    show _ = (compiled.selectedFields.map _).length
    rw [List.length_map]

/-! ## The same context -/

/-- mirrors modules/sales/src/server.ts:1374 -/
def ExecutionPlan.gatewayInput (plan : ExecutionPlan N) : JsonValue N :=
  .obj [(units "saved-view-id", .num plan.savedViewId),
    (units "expected-revision", .num plan.savedViewRevision)]

/-- What the handler is told of the authority of a plan. -/
def ExecutionPlan.authority (plan : ExecutionPlan N) : ExecutionAuthority N :=
  { metadataScope := plan.metadataScope
    targetRecordScope := plan.targetRecordScope
    fieldAuthority := plan.fieldAuthority
    reportingTimezone := plan.reportingTimezone }

/-- What the handler gets for a plan, where the row of the view is what it was.
mirrors packages/composition/src/workspace-page-application-files.ts:1330-1342 -/
def ExecutionPlan.context (plan : ExecutionPlan N) (request : ExecutionRequest N)
    (view : SalesPersistedSavedView N) (controls : Controls N) : ExecutionContext N where
  input := plan.gatewayInput
  applicationId := request.applicationId
  environment := request.environment
  authority := some plan.authority
  docs := [view]
  query := controls
  selectedFields := plan.selectedFields
  recordScope := plan.targetRecordScope

theorem parse_gatewayInput (plan : ExecutionPlan N) :
    parseSalesSavedViewBindingInput F plan.gatewayInput =
      if positiveExecutionRevision F plan.savedViewId ∧
          positiveExecutionRevision F plan.savedViewRevision then
        some (some ⟨plan.savedViewId, plan.savedViewRevision⟩)
      else none := by
  have hkeys : keyText [units "saved-view-id", units "expected-revision"] =
      units "expected-revision" ++ 0 :: units "saved-view-id" := by decide
  unfold parseSalesSavedViewBindingInput ExecutionPlan.gatewayInput
  simp only [List.map_cons, List.map_nil]
  rw [hkeys, if_neg (by decide)]
  show (if _ ∧ _ ∧ _ then _ else _) = _
  simp only [true_and]
  rfl

theorem sameNumber_self [DecidableEq N] (n : Numeric N) : sameNumber F n n = true := decide_eq_true rfl

theorem sameJson_self {a : JsValue N} :
    sameJson F a a = true ↔ ∃ text, canonicalJson F.toNumberFormat a = .ok text := by
  unfold sameJson
  cases canonicalJson F.toNumberFormat a <;> simp

theorem metadata_canonical (scope : SalesSavedViewMetadataScope N) :
    sameJson F (ofParsed scope.json) (ofParsed scope.json) = true := by
  have hstray : NoStray (scope.json : JsonValue N) := by
    obtain ⟨_, _, _, _, _, visibility⟩ := scope
    cases visibility <;> exact ⟨trivial, trivial, trivial, trivial, trivial, by simp [Visibility.json,
      NoStray, NoStrayFields], trivial⟩
  exact sameJson_self.mpr ⟨_, canonicalJson_eq (assertJsonValue_ofParsed _ (units "$") hstray)⟩

/-- The answers with which a plan runs: the field authority has as many entries as the definition has
fields, and the identity, the view and its scope are well formed. -/
structure Executable (F : Integers N) (request : ExecutionRequest N) (p : Persistence N)
    (view : SalesPersistedSavedView N) : Prop where
  complete : (p.fieldAuthority view).length = fieldCount view.definition
  application : request.applicationId ≠ []
  environment : request.environment ≠ []
  id : positiveExecutionRevision F view.id = true
  revision : positiveExecutionRevision F view.revision = true
  owner : view.ownerId ≠ []
  team : view.visibility ≠ .team []
  scope : ∀ scope, p.targetRecordScope view = some scope →
    ∃ text, canonicalJson F.toNumberFormat scope.value = .ok text

section Plan

variable {host : Host} {request : ExecutionRequest N} {p : Persistence N}
  {view : SalesPersistedSavedView N} {plan : ExecutionPlan N} {compiled : CompiledSalesSavedView N}

/-- Nothing but the number of entries is left to check. -/
theorem Planned.covered_iff (h : Planned F host request p view plan compiled) :
    Covered plan ↔ (p.fieldAuthority view).length = fieldCount view.definition := by
  obtain ⟨hnodup, hcount⟩ := compile_fields h.compiles
  have hfacts := compiledFacts view.clean h.compiles
  have hgranted := fun entry hentry => entryRefused_eq_false.mp (h.granted entry hentry)
  have honly : ∀ entry ∈ plan.fieldAuthority, entry.fieldId ∈ plan.selectedFields :=
    fun entry hentry => (hgranted entry hentry).1
  rw [← hcount, ← h.fields, ← h.authority,
    covers_iff (h.fields ▸ hnodup) h.once honly]
  constructor
  · intro hcovered id hid
    obtain ⟨entry, hentry, hfield, -⟩ := hcovered.selected id hid
    exact ⟨entry, hentry, hfield⟩
  · intro hall
    refine ⟨fun id hid => ?_, fun filter hfilter => ?_, fun item hitem => ?_, honly⟩
    · obtain ⟨entry, hentry, rfl⟩ := hall id hid
      exact ⟨entry, hentry, rfl, (hgranted entry hentry).2.1⟩
    · have hselected := (hfacts.filters filter (h.query ▸ hfilter)).selected
      obtain ⟨entry, hentry, hfield⟩ := hall filter.field (h.fields ▸ hselected)
      refine ⟨entry, hentry, hfield, (hgranted entry hentry).2.2.1 ?_⟩
      rw [hfield]
      exact List.mem_map_of_mem hfilter
    · have hselected := (hfacts.sort item (h.query ▸ hitem)).selected
      obtain ⟨entry, hentry, hfield⟩ := hall item.field (h.fields ▸ hselected)
      refine ⟨entry, hentry, hfield, (hgranted entry hentry).2.2.2 ?_⟩
      rw [hfield]
      exact List.mem_map_of_mem hitem

/-- The last check of the execution, for the context of the plan. -/
theorem Planned.authorityRefused_iff (h : Planned F host request p view plan compiled)
    (happlication : view.applicationId = request.applicationId)
    (henvironment : view.environment = request.environment) :
    authorityRefused F (plan.context request view compiled.controls)
        ⟨plan.savedViewId, plan.savedViewRevision⟩ view plan.authority = false ↔
      (p.fieldAuthority view).length = fieldCount view.definition ∧
        ∀ scope, p.targetRecordScope view = some scope →
          ∃ text, canonicalJson F.toNumberFormat scope.value = .ok text := by
  obtain ⟨hnodup, hcount⟩ := compile_fields h.compiles
  have hmetadata : plan.metadataScope = ⟨request.applicationId, request.environment,
      plan.savedViewId, plan.savedViewRevision, view.ownerId, view.visibility⟩ := by
    rw [h.metadata, happlication, henvironment, h.id, h.revision]
  have hfiltered : compiled.controls.filters.map FilterQuery.field =
      plan.query.filters.map SavedFilter.field := by
    rw [h.query]
    exact List.map_map
  have hsorted : compiled.controls.sort.map SortQuery.field = plan.query.sort.map SavedSort.field := by
    rw [h.query]
    exact List.map_map
  have hrefused : plan.fieldAuthority.any (entryRefused plan.selectedFields
      (plan.query.filters.map SavedFilter.field) (plan.query.sort.map SavedSort.field)) = false :=
    List.any_eq_false.mpr fun entry hentry => by simp [h.granted entry hentry]
  unfold authorityRefused ExecutionPlan.context ExecutionPlan.authority
  dsimp only
  rw [hmetadata, metadata_canonical, hfiltered, hsorted, hrefused,
    fieldTwice_eq_false.mpr h.once, h.fields, hnodup.dedup, hcount, h.authority]
  simp only [Bool.not_true, Bool.false_or, Bool.or_false, Bool.or_eq_false_iff,
    Bool.not_eq_false', decide_eq_false_iff_not, Decidable.not_not, sameJson_self, h.scope,
    Option.some.injEq, forall_eq']
  exact and_comm

theorem resolve_eq_plan [DecidableEq N]
    (h : resolveSalesSavedViewExecution F host request p = .ok (.plan plan)) :
    ∃ binding view compiled, selectView F request p = .ok (binding, some view) ∧
      view.status = .active ∧ view.applicationId = request.applicationId ∧
      view.environment = request.environment ∧ Planned F host request p view plan compiled := by
  unfold resolveSalesSavedViewExecution at h
  obtain ⟨⟨binding, found⟩, hselect, h⟩ := bind_eq_ok.mp h
  cases found with
  | none => cases h
  | some view =>
    obtain ⟨hcheck, h⟩ := check_bind_eq_ok.mp h
    obtain ⟨plan', hplan, h⟩ := bind_eq_ok.mp h
    cases h
    obtain ⟨compiled, hplanned⟩ := planOf_eq_ok hplan
    unfold checkView at hcheck
    obtain ⟨hopen, -⟩ := check_bind_eq_ok.mp hcheck
    rw [failIf_eq_ok] at hopen
    simp only [not_or, Decidable.not_not] at hopen
    exact ⟨binding, view, compiled, hselect, hopen.1, hopen.2.1, hopen.2.2.1, hplanned⟩

theorem Planned.metadataRefused_iff [DecidableEq N] (h : Planned F host request p view plan compiled)
    (happlication : view.applicationId = request.applicationId)
    (henvironment : view.environment = request.environment) :
    metadataRefused F (plan.context request view compiled.controls)
        ⟨plan.savedViewId, plan.savedViewRevision⟩ plan.metadataScope = false ↔
      view.ownerId ≠ [] ∧ view.visibility ≠ .team [] := by
  unfold metadataRefused ExecutionPlan.context
  rw [h.metadata, h.id, h.revision]
  dsimp only
  rw [happlication, henvironment, sameNumber_self, sameNumber_self]
  simp

/-- The row of the view passes but for the authority. -/
theorem Planned.executeRow_iff [DecidableEq N] (h : Planned F host request p view plan compiled)
    (hactive : view.status = .active) :
    (∃ r, executeRow F host (plan.context request view compiled.controls) request.sourceId
        ⟨plan.savedViewId, plan.savedViewRevision⟩ compiled.page plan.authority view = .ok r) ↔
      authorityRefused F (plan.context request view compiled.controls)
        ⟨plan.savedViewId, plan.savedViewRevision⟩ view plan.authority = false := by
  have hfacts := compiledFacts view.clean h.compiles
  have hagain : compileSalesSavedViewDefinition F host view.definition request.sourceId
      plan.selectedFields compiled.page.number plan.reportingTimezone = .ok compiled := by
    rw [h.fields, h.timezone]
    exact compile_again h.compiles
  obtain ⟨text, htext, htext'⟩ := hfacts.canonical
  have hquery : sameJson F (ofParsed compiled.query.json) (ofParsed compiled.controls.json) = true := by
    unfold sameJson
    rw [htext, htext']
    exact decide_eq_true rfl
  have hfresh : ¬ (¬ sameNumber F view.revision plan.savedViewRevision = true ∨
      view.status ≠ .active) := by
    rw [h.revision, sameNumber_self, hactive]
    simp
  unfold executeRow
  rw [if_neg hfresh]
  show (∃ r, (match compileSalesSavedViewDefinition F host view.definition request.sourceId
    plan.selectedFields compiled.page.number plan.reportingTimezone with
    | .error e => _
    | .ok compiled' => _) = Except.ok r) ↔ _
  rw [hagain]
  constructor
  · intro ⟨r, hr⟩
    obtain ⟨-, hr⟩ := check_bind_eq_ok.mp hr
    obtain ⟨hauthority, -⟩ := check_bind_eq_ok.mp hr
    rwa [failIf_eq_ok, Bool.not_eq_true] at hauthority
  · intro hauthority
    exact ⟨_, check_bind_eq_ok.mpr ⟨failIf_eq_ok.mpr (not_not_intro hquery),
      check_bind_eq_ok.mpr ⟨failIf_eq_ok.mpr (by rw [hauthority]; decide), rfl⟩⟩⟩

theorem Planned.accepted_iff [DecidableEq N] (h : Planned F host request p view plan compiled)
    (hactive : view.status = .active) (happlication : view.applicationId = request.applicationId)
    (henvironment : view.environment = request.environment) :
    (∃ r, savedViewExecution F host (plan.context request view compiled.controls) request.sourceId =
      .ok r) ↔ Executable F request p view := by
  have hauthority := h.authorityRefused_iff happlication henvironment
  have hmetadata := h.metadataRefused_iff happlication henvironment
  have hrow := h.executeRow_iff hactive
  have hinput : (plan.context request view compiled.controls).input = plan.gatewayInput := rfl
  unfold savedViewExecution
  rw [hinput, parse_gatewayInput, h.id, h.revision]
  rw [h.id, h.revision] at hauthority hmetadata hrow
  by_cases hbinding : positiveExecutionRevision F view.id = true ∧
      positiveExecutionRevision F view.revision = true
  · rw [if_pos hbinding]
    show (∃ r, (if request.applicationId = [] ∨ request.environment = [] then _ else _) =
      Except.ok r) ↔ _
    by_cases hidentity : request.applicationId = [] ∨ request.environment = []
    · rw [if_pos hidentity]
      refine iff_of_false (fun ⟨r, hr⟩ => by cases hr) fun hok => ?_
      exact hidentity.elim hok.application hok.environment
    · rw [if_neg hidentity]
      show (∃ r, (if metadataRefused F (plan.context request view compiled.controls)
        ⟨view.id, view.revision⟩ plan.metadataScope = true then _ else executeRow F host
          (plan.context request view compiled.controls) request.sourceId ⟨view.id, view.revision⟩
          compiled.page plan.authority view) = Except.ok r) ↔ _
      rw [not_or] at hidentity
      by_cases hrefused : metadataRefused F (plan.context request view compiled.controls)
          ⟨view.id, view.revision⟩ plan.metadataScope = true
      · rw [if_pos hrefused]
        refine iff_of_false (fun ⟨r, hr⟩ => by cases hr) fun hok => ?_
        rw [hmetadata.mpr ⟨hok.owner, hok.team⟩] at hrefused
        cases hrefused
      · rw [if_neg hrefused, hrow, hauthority]
        obtain ⟨howner, hteam⟩ := hmetadata.mp (Bool.not_eq_true _ ▸ hrefused)
        exact ⟨fun hok => ⟨hok.1, hidentity.1, hidentity.2, hbinding.1, hbinding.2, howner, hteam,
          hok.2⟩, fun hok => ⟨hok.complete, hok.scope⟩⟩
  · rw [if_neg hbinding]
    exact iff_of_false (fun ⟨r, hr⟩ => by cases hr) fun hok => hbinding ⟨hok.id, hok.revision⟩

/-- **When a plan is covered and runs.** The field authority of a plan that was returned grants what
its query uses, and the handler runs the plan in the same context, exactly where the authority has as
many entries as the definition has fields and the identity, the view and its scope are well formed. -/
theorem plan_executable_iff [DecidableEq N]
    (h : resolveSalesSavedViewExecution F host request p = .ok (.plan plan)) :
    ∃ binding view controls, selectView F request p = .ok (binding, some view) ∧
      parseControls F plan.query.json = some controls ∧
      (Covered plan ∧ (∃ r, savedViewExecution F host (plan.context request view controls)
        request.sourceId = .ok r) ↔ Executable F request p view) := by
  obtain ⟨binding, view, compiled, hselect, hactive, happlication, henvironment, hplanned⟩ :=
    resolve_eq_plan h
  have hfacts := compiledFacts view.clean hplanned.compiles
  refine ⟨binding, view, compiled.controls, hselect, hplanned.query ▸ hfacts.parsed, ?_⟩
  rw [hplanned.accepted_iff hactive happlication henvironment, hplanned.covered_iff]
  exact ⟨fun hok => hok.2, fun hok => ⟨hok.complete, hok⟩⟩

end Plan

end Values

/-! ## A view of accounts -/

def accounts : SalesPersistedSavedView Nat where
  id := .finite 7
  revision := .finite 3
  applicationId := units "crm"
  environment := units "production"
  ownerId := units "seller-1"
  visibility := .personal
  definition := accountsView
  status := .active
  clean := accountsView_clean

/-- Every view is authorised, and the fields that are listed. -/
def answers (fieldAuthority : List SalesSavedViewFieldAuthority) : Persistence Nat where
  lockSavedView _ := some accounts
  resolveDefaultSavedView _ := some accounts
  authorizationRevision := .finite 1
  sourceRevision _ := .finite 1
  authorizeView _ := true
  authorizeTarget _ := true
  authorizeFields _ := true
  targetRecordScope _ := some ⟨units "sales.accounts", .object .object []⟩
  fieldAuthority _ := fieldAuthority
  reportingTimezone := ⟨units "UTC", 1⟩

def accountsRequest : ExecutionRequest Nat where
  sourceId := .table
  bindingInput := .obj []
  selectedFields := [units "name", units "revision"]
  pageNumber := .finite 1
  applicationId := units "crm"
  environment := units "production"

def bothFields : List SalesSavedViewFieldAuthority :=
  [⟨units "name", true, true, true⟩, ⟨units "revision", true, true, true⟩]

/-- The plan of the request, if there is one. -/
def accountsPlan (fieldAuthority : List SalesSavedViewFieldAuthority) : Option (ExecutionPlan Nat) :=
  match resolveSalesSavedViewExecution naturalNumbers.toIntegers noHost accountsRequest
    (answers fieldAuthority) with
  | .ok (.plan plan) => some plan
  | _ => none

theorem accountsPlan_eq_some {fieldAuthority : List SalesSavedViewFieldAuthority}
    {plan : ExecutionPlan Nat} (h : accountsPlan fieldAuthority = some plan) :
    resolveSalesSavedViewExecution naturalNumbers.toIntegers noHost accountsRequest
      (answers fieldAuthority) = .ok (.plan plan) := by
  unfold accountsPlan at h
  split at h
  · rename_i found hfound
    rw [hfound, Option.some.inj h]
  · cases h

theorem plan_executable_both : ∃ plan : ExecutionPlan Nat,
    resolveSalesSavedViewExecution naturalNumbers.toIntegers noHost accountsRequest
      (answers bothFields) = .ok (.plan plan) ∧ Covered plan := by
  have hplanned : (accountsPlan bothFields).isSome = true := by decide +kernel
  obtain ⟨plan, hplan⟩ := Option.isSome_iff_exists.mp hplanned
  have hresolve := accountsPlan_eq_some hplan
  obtain ⟨binding, view, controls, hview, -, hiff⟩ := plan_executable_iff hresolve
  have hselect : selectView naturalNumbers.toIntegers accountsRequest (answers bothFields) =
      .ok (none, some accounts) := rfl
  rw [hselect] at hview
  cases hview
  refine ⟨plan, hresolve, (hiff.mpr ⟨by decide, by decide, by decide, by decide, by decide,
    by decide, by decide, ?_⟩).1⟩
  intro scope hscope
  cases hscope
  exact ⟨_, rfl⟩

/-- With no field authority the plan is returned all the same, and the handler refuses it. -/
theorem plan_executable_none : ∃ (plan : ExecutionPlan Nat) (controls : Controls Nat),
    resolveSalesSavedViewExecution naturalNumbers.toIntegers noHost accountsRequest (answers []) =
      .ok (.plan plan) ∧ parseControls naturalNumbers.toIntegers plan.query.json = some controls ∧
    ¬ Covered plan ∧ ∀ r, savedViewExecution naturalNumbers.toIntegers noHost
      (plan.context accountsRequest accounts controls) .table ≠ .ok r := by
  have hreturned : (accountsPlan []).isSome = true := by decide +kernel
  obtain ⟨plan, hplan⟩ := Option.isSome_iff_exists.mp hreturned
  have hresolve := accountsPlan_eq_some hplan
  obtain ⟨binding, view, compiled, hview, hactive, happlication, henvironment, hplanned⟩ :=
    resolve_eq_plan hresolve
  have hselect : selectView naturalNumbers.toIntegers accountsRequest (answers []) =
      .ok (none, some accounts) := rfl
  rw [hselect] at hview
  cases hview
  have hmissing : ((answers []).fieldAuthority accounts).length ≠ fieldCount accounts.definition := by
    decide
  have hfacts := compiledFacts accounts.clean hplanned.compiles
  refine ⟨plan, compiled.controls, hresolve, hplanned.query ▸ hfacts.parsed,
    fun hcovered => hmissing (hplanned.covered_iff.mp hcovered), fun r hr => ?_⟩
  exact hmissing ((hplanned.accepted_iff hactive happlication henvironment).mp ⟨r, hr⟩).complete

end KNex.Sales.SavedViews
