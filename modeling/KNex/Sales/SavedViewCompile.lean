import KNex.Contracts.JsonFields
import KNex.Runtime.QueryControls
import KNex.Sales.CalendarRange
import KNex.Sales.SavedViewJson

/-!
# Saved views compiled to queries (`modules/sales/src/contracts.ts`)

`compileSalesSavedViewDefinition` checks a persisted definition against the descriptor of its source
and turns its filters, sorts and page size into the controls of a data-source query; a calendar adds
two filters for its range. `compileSalesSavedViewDefinition_eq_ok` says what it checked of a query
that it returned.
-/
namespace KNex.Sales.SavedViews

open KNex.Core KNex.Core.JsonText KNex.Core.ZoneClock KNex.Contracts.CanonicalJson
  KNex.Sales.CalendarRange
open KNex.Runtime.CallBudget.Query (FilterOperator)
open KNex.Runtime.QueryControls (operatorText)

/-! ## Descriptors -/

/-- mirrors packages/contracts/src/data-source.ts:30-44 -/
inductive FieldKind where
  | text | status | enum | resource | integer | number | percentage | duration | date | datetime
  | boolean | decimal | money
  deriving DecidableEq, Repr

structure SourceField where
  id : String
  kind : FieldKind
  required : Bool
  nullable : Bool
  sortable : Bool
  filterOperators : List FilterOperator

def textOps : List FilterOperator :=
  [.eq, .neq, .isIn, .notIn, .contains, .startsWith, .isNull, .isNotNull]

def enumOps : List FilterOperator := [.eq, .neq, .isIn, .notIn, .isNull, .isNotNull]

def orderedOps : List FilterOperator := [.eq, .neq, .gt, .gte, .lt, .lte, .isNull, .isNotNull]

/-- mirrors modules/sales/src/contracts.ts:217-220 -/
def viewField (id : String) (kind : FieldKind) (required nullable sortable : Bool)
    (operators : List FilterOperator) : SourceField :=
  { id, kind, required, nullable, sortable, filterOperators := operators }

/-- mirrors modules/sales/src/contracts.ts:224-237 -/
def salesSavedViewTableFields : List SourceField :=
  [viewField "name" .text false false true textOps,
   viewField "display-name" .text false false true textOps,
   viewField "title" .text false false true textOps,
   viewField "subject" .text false false true textOps,
   viewField "type" .enum false false true enumOps,
   viewField "source" .enum false false true enumOps,
   viewField "owner-id" .text false false false [],
   viewField "team-id" .text false true false [],
   viewField "status" .status false false true enumOps,
   viewField "archive-status" .status false false true enumOps,
   viewField "revision" .integer false false true orderedOps,
   viewField "account-id" .integer false true false orderedOps,
   viewField "primary-contact-id" .integer false true false [],
   viewField "pipeline-id" .integer false true false [],
   viewField "stage-id" .enum false true true enumOps,
   viewField "expected-close-date" .date false true true orderedOps,
   viewField "amount" .money false true false [],
   viewField "email" .text false true false [],
   viewField "phone" .text false true false [],
   viewField "due-date" .date false true true orderedOps,
   viewField "related-record-type" .enum false true false [],
   viewField "related-record-id" .integer false true false [],
   viewField "scheduled-at" .datetime false true true orderedOps,
   viewField "occurred-at" .datetime false true true orderedOps]

/-- mirrors modules/sales/src/contracts.ts:238-242 -/
def salesSavedViewKanbanFields : List SourceField :=
  [viewField "row-kind" .enum true false false [],
   viewField "name" .text true false true textOps,
   viewField "stage-id" .enum true false true enumOps,
   viewField "stage-metadata" .text false true false [],
   viewField "revision" .integer false true true orderedOps]

/-- mirrors modules/sales/src/contracts.ts:243-248 -/
def salesSavedViewCalendarFields : List SourceField :=
  [viewField "type" .enum true false true enumOps,
   viewField "subject" .text true false true textOps,
   viewField "status" .status true false true enumOps,
   viewField "scheduled-at" .datetime false true true orderedOps,
   viewField "occurred-at" .datetime false true true orderedOps,
   viewField "related-record-type" .enum true false false [],
   viewField "related-record-id" .integer true false false [],
   viewField "revision" .integer true false true orderedOps]

/-- mirrors modules/sales/src/contracts.ts:296 -/
inductive SourceId where
  | table | kanban | calendar
  deriving DecidableEq, Repr

def SourceId.kindText : SourceId → String
  | .table => "table"
  | .kanban => "kanban"
  | .calendar => "calendar"

def SourceId.text : SourceId → String
  | .table => "sales.saved-view.table"
  | .kanban => "sales.saved-view.kanban"
  | .calendar => "sales.saved-view.calendar"

/-- `descriptor.outputFields`. -/
def SourceId.fields : SourceId → List SourceField
  | .table => salesSavedViewTableFields
  | .kanban => salesSavedViewKanbanFields
  | .calendar => salesSavedViewCalendarFields

def SourceId.structuralCompatibilityHash : SourceId → String
  | .table => "sha256:9707080142ac16e3f0d540c439e7ae3bc8d2cc1f6fb5166a1879f355834c07d2"
  | .kanban => "sha256:c54433c895722e63dd499720e37e8f2ae9b1390c28bab9f0c5111c4f7ea1233a"
  | .calendar => "sha256:8d9e0bc1f7f3c53b53f3e006c51f2e5e41e2198284c3ad827e10cbf32431f5f9"

def SourceId.schemaText : SourceId → String
  | .table => "sales.saved-view.table.output"
  | .kanban => "sales.saved-view.kanban.output"
  | .calendar => "sales.saved-view.calendar.output"

/-- mirrors modules/sales/src/contracts.ts:319-322 -/
def SourceId.targets : SourceId → List String
  | .table => ["sales.object.account", "sales.object.contact", "sales.object.lead",
      "sales.object.opportunity", "sales.object.task", "sales.object.activity"]
  | .kanban => ["sales.object.opportunity"]
  | .calendar => ["sales.object.activity"]

/-! ## Reading JSON -/

section Values

variable {N : Type} (F : Integers N)

/-- mirrors modules/sales/src/contracts.ts:328 -/
def exactObject (value : JsonValue N) (allowed required : List String) :
    Option (List (Str × JsonValue N)) :=
  objectWith value allowed required

def isText (value : Option (JsonValue N)) (text : String) : Bool :=
  match value with
  | some (.str s) => s = units text
  | _ => false

/-- `values.includes(value)`. -/
def isOneOf (value : Option (JsonValue N)) (texts : List String) : Bool := texts.any (isText value)

inductive CompileError where
  /-- `Sales saved-view definition is invalid.` -/
  | definitionInvalid
  /-- `Sales saved-view source binding is stale or forged.` -/
  | sourceForged
  /-- `Sales saved-view selected fields are invalid.` -/
  | fieldsInvalid
  /-- `Sales saved-view query exceeds its bounds.` -/
  | queryTooLarge
  /-- `Sales saved-view filter is invalid.` -/
  | filterInvalid
  /-- `Sales saved-view filter value is invalid.` -/
  | filterValueInvalid
  /-- `Sales saved-view sort is invalid.` -/
  | sortInvalid
  /-- `Sales saved-view page size is invalid.` -/
  | pageSizeInvalid
  /-- `Sales table-view discriminator is invalid.` -/
  | tableInvalid
  /-- `Sales Kanban-view discriminator is invalid.` -/
  | kanbanInvalid
  /-- `Sales calendar-view discriminator is invalid.` -/
  | calendarInvalid
  /-- `Sales calendar-view range is invalid.` -/
  | rangeInvalid
  /-- `Invalid time value`, of `toISOString`. -/
  | invalidTime
  /-- An error of the conversion to the reporting timezone. -/
  | conversion (error : CalendarError)
  deriving DecidableEq, Repr

/-- The clock functions of the runtime: `Date.parse`, where `none` is no number, `toISOString` of
a time value, and the zones of the canonical IANA names. -/
structure Host where
  dateParse : Str → Option Int
  toISOString : Int → Str
  intl : Str → Option Zone

/-- The text has a digit where the mask has a zero, and is the mask elsewhere. -/
def matchesMask (mask : String) (s : Str) : Bool :=
  s.length = mask.length && (List.zip (units mask) s).all fun p =>
    if p.1 = 48 then isDigit p.2 else p.1 = p.2

/-- mirrors modules/sales/src/contracts.ts:330 -/
def instant (host : Host) (value : JsonValue N) : Except CompileError Bool :=
  match value with
  | .str s =>
    if matchesMask "0000-00-00T00:00:00.000Z" s then
      match host.dateParse s with
      | none => .error .invalidTime
      | some t => .ok (host.toISOString t = s)
    else .ok false
  | _ => .ok false

/-- mirrors modules/sales/src/crm-authority.ts:147-150 -/
def isSalesCalendarDate (host : Host) (value : JsonValue N) : Except CompileError Bool :=
  match value with
  | .str s =>
    if matchesMask "0000-00-00" s ∧ s.take 4 ≠ units "0000" then
      match host.dateParse (s ++ units "T00:00:00.000Z") with
      | none => .error .invalidTime
      | some t => .ok ((host.toISOString t).take 10 = s)
    else .ok false
  | _ => .ok false

/-- `^-?(?:0|[1-9][0-9]*)(?:\.[0-9]+)?$` -/
def isDecimalText (s : Str) : Bool :=
  let unsigned := if s.head? = some 45 then s.tail else s
  match unsigned.splitOn 46 with
  | [w] => whole w
  | [w, f] => whole w && f ≠ [] && f.all isDigit
  | _ => false
where
  whole (w : Str) : Bool := w = [48] || (w ≠ [] && w.head? ≠ some 48 && w.all isDigit)

/-- mirrors modules/sales/src/contracts.ts:374-384 -/
def savedScalar (host : Host) (field : SourceField) (value : JsonValue N) :
    Except CompileError Bool :=
  match value with
  | .null => .ok field.nullable
  | value =>
    match field.kind, value with
    | .text, .str s | .status, .str s | .enum, .str s | .resource, .str s =>
      .ok (byteLength s ≤ 512)
    | .integer, .num n => .ok (F.integerOf n).isSome
    | .number, .num _ | .percentage, .num _ | .duration, .num _ => .ok true
    | .date, value => isSalesCalendarDate host value
    | .datetime, value => instant host value
    | .boolean, .bool _ => .ok true
    | .decimal, .str s => .ok (isDecimalText s)
    | _, _ => .ok false

/-- `values.every((item) => savedScalar(field, item))`. -/
def everyScalar (host : Host) (field : SourceField) : List (JsonValue N) → Except CompileError Bool
  | [] => .ok true
  | item :: items => do
    if ← savedScalar F host field item then everyScalar host field items else return false

/-- `item === null ? "null" : typeof item`. -/
def itemType : JsonValue N → String
  | .null => "null"
  | .bool _ => "boolean"
  | .num _ => "number"
  | .str _ => "string"
  | .arr _ _ => "object"
  | .obj _ => "object"

/-! ## The compiled query -/

structure SavedFilter (N : Type) where
  field : Str
  operator : Str
  value : Option (JsonValue N)

structure SavedSort where
  field : Str
  direction : Str

structure SavedQuery (N : Type) where
  filters : List (SavedFilter N)
  sort : List SavedSort
  number : Numeric N
  size : Numeric N

/-- mirrors modules/sales/src/contracts.ts:313 -/
structure CompiledSalesSavedView (N : Type) where
  selectedFields : List Str
  query : SavedQuery N

def SavedFilter.json (filter : SavedFilter N) : JsonValue N :=
  .obj ([(units "field", .str filter.field), (units "operator", .str filter.operator)] ++
    (filter.value.map fun value => (units "value", value)).toList)

def SavedSort.json (sort : SavedSort) : JsonValue N :=
  .obj [(units "field", .str sort.field), (units "direction", .str sort.direction)]

def SavedQuery.json (query : SavedQuery N) : JsonValue N :=
  .obj [(units "filters", .arr (query.filters.map SavedFilter.json) []),
    (units "sort", .arr (query.sort.map SavedSort.json) []),
    (units "page", .obj [(units "number", .num query.number), (units "size", .num query.size)])]

/-! ## Parts of a definition -/

/-- mirrors modules/sales/src/contracts.ts:389, the size of the definition and the page number -/
def definitionOf (definition : JsonValue N) (pageNumber : Numeric N) :
    Except CompileError (List (Str × JsonValue N)) :=
  let pageNumberOk := (F.integerOf pageNumber).any fun k => positiveSafeInteger k && k ≤ 1000000
  match pageNumberOk, exactObject definition
      ["kind", "targetObjectId", "source", "fields", "filters", "sorts", "grouping", "calendarRange",
        "dateField", "presentation", "pageSize"]
      ["kind", "targetObjectId", "source", "fields", "filters", "sorts", "presentation", "pageSize"],
    canonicalSalesSavedViewJson F (ofParsed definition) with
  | true, some view, some text =>
    if byteLength text > 16384 then .error .definitionInvalid else .ok view
  | _, _, _ => .error .definitionInvalid

/-- mirrors modules/sales/src/contracts.ts:393, of `view.source` -/
def sourceBindingOk (sourceId : SourceId) (source : JsonValue N) : Bool :=
  let keys := ["id", "version", "sourceSchema", "structuralCompatibilityHash"]
  match exactObject source keys keys with
  | none => false
  | some source =>
    let sourceSchema : JsonValue N := .obj [(units "id", .str (units sourceId.schemaText)),
      (units "version", .num (.finite F.one))]
    isText (field? source "id") sourceId.text &&
      (match field? source "version" with
        | some (.num n) => F.integerOf n = some 1
        | _ => false) &&
      (match field? source "sourceSchema" with
        | some schema => decide (canonicalJson F.toNumberFormat (ofParsed schema) =
            canonicalJson F.toNumberFormat (ofParsed sourceSchema))
        | none => false) &&
      isText (field? source "structuralCompatibilityHash") sourceId.structuralCompatibilityHash

/-- mirrors modules/sales/src/contracts.ts:393 -/
def sourceOk (sourceId : SourceId) (view : List (Str × JsonValue N)) : Bool :=
  isText (field? view "kind") sourceId.kindText &&
    isOneOf (field? view "targetObjectId") sourceId.targets &&
    (field? view "source").any (sourceBindingOk F sourceId)

/-- mirrors modules/sales/src/contracts.ts:395 -/
def fieldsOf (sourceId : SourceId) (view : List (Str × JsonValue N)) (selectedFields : List Str) :
    Except CompileError (List Str) :=
  match ((field? view "fields").bind arrayOf).bind fun items => items.mapM textOf with
  | none => .error .fieldsInvalid
  | some fields =>
    if fields.length < 1 ∨ fields.length > 8 ∨ ¬ fields.Nodup ∨
        ¬ (∀ id ∈ fields, id ∈ sourceId.fields.map fun field => units field.id) ∨
        List.intercalate [0] selectedFields ≠ List.intercalate [0] fields ∨
        ¬ (∀ field ∈ sourceId.fields, field.required → units field.id ∈ fields) then
      .error .fieldsInvalid
    else .ok fields

/-- mirrors modules/sales/src/contracts.ts:396, the filters and the sorts -/
def queryListsOf (sourceId : SourceId) (view : List (Str × JsonValue N)) :
    Except CompileError (List (JsonValue N) × List (JsonValue N)) :=
  match (field? view "filters").bind arrayOf, (field? view "sorts").bind arrayOf with
  | some filters, some sorts =>
    if filters.length > (if sourceId = .calendar then 6 else 8) ∨ sorts.length > 2 then
      .error .queryTooLarge
    else .ok (filters, sorts)
  | _, _ => .error .queryTooLarge

/-- mirrors modules/sales/src/contracts.ts:405 -/
def filterValueOk (host : Host) (field : SourceField) (arrayOperator : Bool) (value : JsonValue N) :
    Except CompileError Bool :=
  if arrayOperator then
    match value with
    | .arr items _ =>
      if items.length < 1 ∨ items.length > 20 ∨ (items.map itemType).dedup.length ≠ 1 then .ok false
      else everyScalar F host field items
    | _ => .ok false
  else savedScalar F host field value

/-- mirrors modules/sales/src/contracts.ts:397-408 -/
def compileFilter (host : Host) (sourceId : SourceId) (fields : List Str) (filter : JsonValue N) :
    Except CompileError (SavedFilter N) :=
  match exactObject filter ["fieldId", "operator", "value"] ["fieldId", "operator"] with
  | none => .error .filterInvalid
  | some filter =>
    match field? filter "fieldId", field? filter "operator" with
    | some (.str fieldId), some (.str operator) =>
      let nullOperator := operator = units "is-null" || operator = units "is-not-null"
      let arrayOperator := operator = units "in" || operator = units "not-in"
      match sourceId.fields.find? fun field => units field.id = fieldId with
      | none => .error .filterInvalid
      | some field =>
        if fieldId ∉ fields ∨ ¬ field.filterOperators.any (fun op => operatorText op = operator) ∨
            nullOperator = (field? filter "value").isSome then .error .filterInvalid
        else
          match field? filter "value" with
          | none => .ok { field := fieldId, operator, value := none }
          | some value => do
            let accepted ← filterValueOk F host field arrayOperator value
            failIf (accepted = false) .filterValueInvalid
            return { field := fieldId, operator, value := some value }
    | _, _ => .error .filterInvalid

/-- mirrors modules/sales/src/contracts.ts:410-414, one round -/
def compileSort (sourceId : SourceId) (fields seenSorts : List Str) (item : JsonValue N) :
    Except CompileError SavedSort :=
  match exactObject item ["fieldId", "direction"] ["fieldId", "direction"] with
  | none => .error .sortInvalid
  | some item =>
    match field? item "fieldId", field? item "direction" with
    | some (.str fieldId), some (.str direction) =>
      if fieldId ∉ fields ∨ fieldId ∈ seenSorts ∨
          direction ∉ [units "asc", units "desc"] ∨
          ¬ (sourceId.fields.find? fun field => units field.id = fieldId).any SourceField.sortable then
        .error .sortInvalid
      else .ok { field := fieldId, direction }
    | _, _ => .error .sortInvalid

def compileSorts (sourceId : SourceId) (fields : List Str) :
    List Str → List (JsonValue N) → Except CompileError (List SavedSort)
  | _, [] => .ok []
  | seenSorts, item :: items => do
    let sort ← compileSort sourceId fields seenSorts item
    let rest ← compileSorts sourceId fields (seenSorts ++ [sort.field]) items
    return sort :: rest

/-- mirrors modules/sales/src/contracts.ts:415 -/
def pageSizeOf (sourceId : SourceId) (view : List (Str × JsonValue N)) :
    Except CompileError (Numeric N) :=
  match field? view "pageSize" with
  | some (.num size) =>
    if (F.integerOf size).any fun k =>
        positiveSafeInteger k && k ≤ 100 && !(sourceId = .kanban && k < 7) then .ok size
    else .error .pageSizeInvalid
  | _ => .error .pageSizeInvalid

/-- `exactObject(presentation, [key], [key])` with one of the values. -/
def presentationOk (view : List (Str × JsonValue N)) (key : String) (values : List String) : Bool :=
  match (field? view "presentation").bind fun value => exactObject value [key] [key] with
  | some presentation => isOneOf (field? presentation key) values
  | none => false

/-- mirrors modules/sales/src/contracts.ts:416-418 -/
def discriminatorOk (sourceId : SourceId) (view : List (Str × JsonValue N)) (fields : List Str) :
    Except CompileError Unit :=
  let densityOk := presentationOk view "density" ["comfortable", "compact"]
  match sourceId with
  | .table =>
    failIf ((field? view "grouping").isSome ∨ (field? view "calendarRange").isSome ∨
      (field? view "dateField").isSome ∨ ¬ densityOk) .tableInvalid
  | .kanban =>
    failIf (¬ isText (field? view "targetObjectId") "sales.object.opportunity" ∨
      ¬ isText (field? view "grouping") "stage-id" ∨ (field? view "calendarRange").isSome ∨
      (field? view "dateField").isSome ∨
      List.intercalate [0] fields ≠ List.intercalate [0]
        (["row-kind", "name", "stage-id", "stage-metadata", "revision"].map units) ∨
      ¬ densityOk) .kanbanInvalid
  | .calendar => .ok ()

/-- mirrors modules/sales/src/contracts.ts:421, but for the range and the timezone -/
def dateFieldOf (view : List (Str × JsonValue N)) (fields : List Str) : Except CompileError Str :=
  match field? view "dateField" with
  | some (.str dateField) =>
    if isText (field? view "targetObjectId") "sales.object.activity" ∧
        (field? view "grouping").isNone ∧ dateField ∈ [units "scheduled-at", units "occurred-at"] ∧
        dateField ∈ fields ∧ presentationOk view "mode" ["agenda", "month"] then .ok dateField
    else .error .calendarInvalid
  | _ => .error .calendarInvalid

structure SavedRange (N : Type) where
  start : JsonValue N
  stop : JsonValue N
  timezone : JsonValue N

/-- mirrors modules/sales/src/contracts.ts:421, `view.calendarRange` -/
def calendarRangeOf (view : List (Str × JsonValue N)) : Except CompileError (SavedRange N) :=
  let keys := ["start", "end", "timezone"]
  match (field? view "calendarRange").bind fun value => exactObject value keys keys with
  | none => .error .calendarInvalid
  | some range =>
    match field? range "start", field? range "end", field? range "timezone" with
    | some start, some stop, some timezone => .ok { start, stop, timezone }
    | _, _, _ => .error .calendarInvalid

/-- The days of a range of the reporting timezone that does not end before it starts.
mirrors modules/sales/src/contracts.ts:421-422 -/
def rangeDays (host : Host) (reportingTimezone : Option ReportingTimezone) (range : SavedRange N) :
    Except CompileError Int :=
  match reportingTimezone with
  | none => .error .calendarInvalid
  | some reporting =>
    match host.intl reporting.timezone, (textOf range.start).bind host.dateParse,
      (textOf range.stop).bind host.dateParse with
    | some zone, some start, some stop =>
      if ¬ positiveSafeInteger reporting.revision ∨
          textOf range.timezone ≠ some reporting.timezone then .error .calendarInvalid
      else
        match calendarDaysBetween start stop zone with
        | .error e => .error (.conversion e)
        | .ok days => if stop ≤ start then .error .rangeInvalid else .ok days
    | _, _, _ => .error .calendarInvalid

/-- The two filters that the range of a calendar adds.
mirrors modules/sales/src/contracts.ts:419-424 -/
def calendarFilters (host : Host) (reportingTimezone : Option ReportingTimezone)
    (view : List (Str × JsonValue N)) (fields : List Str) :
    Except CompileError (List (SavedFilter N)) := do
  let dateField ← dateFieldOf view fields
  let range ← calendarRangeOf view
  let startOk ← instant host range.start
  failIf (startOk = false) .calendarInvalid
  let stopOk ← instant host range.stop
  failIf (stopOk = false) .calendarInvalid
  let days ← rangeDays host reportingTimezone range
  failIf (days < 1 ∨ days > 31) .rangeInvalid
  return [{ field := dateField, operator := units "gte", value := some range.start },
    { field := dateField, operator := units "lt", value := some range.stop }]

def addedFilters (host : Host) (sourceId : SourceId) (reportingTimezone : Option ReportingTimezone)
    (view : List (Str × JsonValue N)) (fields : List Str) :
    Except CompileError (List (SavedFilter N)) :=
  if sourceId = .calendar then calendarFilters host reportingTimezone view fields else .ok []

/-- mirrors modules/sales/src/contracts.ts:386-426 -/
def compileSalesSavedViewDefinition (host : Host) (definition : JsonValue N) (sourceId : SourceId)
    (selectedFields : List Str) (pageNumber : Numeric N)
    (reportingTimezone : Option ReportingTimezone) :
    Except CompileError (CompiledSalesSavedView N) := do
  let view ← definitionOf F definition pageNumber
  failIf (sourceOk F sourceId view = false) .sourceForged
  let fields ← fieldsOf sourceId view selectedFields
  let lists ← queryListsOf sourceId view
  let filters ← lists.1.mapM (compileFilter F host sourceId fields)
  let sort ← compileSorts sourceId fields [] lists.2
  let size ← pageSizeOf F sourceId view
  discriminatorOk sourceId view fields
  let dates ← addedFilters host sourceId reportingTimezone view fields
  return { selectedFields := fields
           query := { filters := filters ++ dates, sort, number := pageNumber, size } }

/-! ## What was checked -/

variable {F}

/-- The steps of a compilation that returned. -/
structure Steps (F : Integers N) (host : Host) (definition : JsonValue N) (sourceId : SourceId)
    (selectedFields : List Str) (pageNumber : Numeric N)
    (reportingTimezone : Option ReportingTimezone) (compiled : CompiledSalesSavedView N)
    (view : List (Str × JsonValue N)) (lists : List (JsonValue N) × List (JsonValue N))
    (filters dates : List (SavedFilter N)) : Prop where
  viewRead : definitionOf F definition pageNumber = .ok view
  sourceBound : sourceOk F sourceId view = true
  fieldsRead : fieldsOf sourceId view selectedFields = .ok compiled.selectedFields
  listsRead : queryListsOf sourceId view = .ok lists
  filtersCompiled : lists.1.mapM (compileFilter F host sourceId compiled.selectedFields) = .ok filters
  sortCompiled : compileSorts sourceId compiled.selectedFields [] lists.2 = .ok compiled.query.sort
  sizeRead : pageSizeOf F sourceId view = .ok compiled.query.size
  discriminated : discriminatorOk sourceId view compiled.selectedFields = .ok ()
  datesAdded : addedFilters host sourceId reportingTimezone view compiled.selectedFields = .ok dates
  queryFilters : compiled.query.filters = filters ++ dates
  queryNumber : compiled.query.number = pageNumber

theorem compile_eq_ok {host : Host} {definition : JsonValue N} {sourceId : SourceId}
    {selectedFields : List Str} {pageNumber : Numeric N}
    {reportingTimezone : Option ReportingTimezone} {compiled : CompiledSalesSavedView N} :
    compileSalesSavedViewDefinition F host definition sourceId selectedFields pageNumber
      reportingTimezone = .ok compiled ↔ ∃ view lists filters dates, Steps F host definition sourceId
        selectedFields pageNumber reportingTimezone compiled view lists filters dates := by
  unfold compileSalesSavedViewDefinition
  constructor
  · intro h
    obtain ⟨view, hview, h⟩ := bind_eq_ok.mp h
    obtain ⟨hsource, h⟩ := check_bind_eq_ok.mp h
    obtain ⟨fields, hfields, h⟩ := bind_eq_ok.mp h
    obtain ⟨lists, hlists, h⟩ := bind_eq_ok.mp h
    obtain ⟨filters, hfilters, h⟩ := bind_eq_ok.mp h
    obtain ⟨sort, hsort, h⟩ := bind_eq_ok.mp h
    obtain ⟨size, hsize, h⟩ := bind_eq_ok.mp h
    obtain ⟨hdiscriminator, h⟩ := check_bind_eq_ok.mp h
    obtain ⟨dates, hdates, h⟩ := bind_eq_ok.mp h
    cases h
    exact ⟨view, lists, filters, dates, hview, by simpa using failIf_eq_ok.mp hsource, hfields,
      hlists, hfilters, hsort, hsize, hdiscriminator, hdates, rfl, rfl⟩
  · intro ⟨view, lists, filters, dates, h⟩
    obtain ⟨selectedFields', filters', sort, number, size⟩ := compiled
    obtain ⟨hview, hsource, hfields, hlists, hfilters, hsort, hsize, hdiscriminator, hdates, hquery,
      hnumber⟩ := h
    dsimp only at *
    subst hquery hnumber
    exact bind_eq_ok.mpr ⟨view, hview, check_bind_eq_ok.mpr
      ⟨failIf_eq_ok.mpr (by simp [hsource]), bind_eq_ok.mpr ⟨_, hfields, bind_eq_ok.mpr
      ⟨lists, hlists, bind_eq_ok.mpr ⟨filters, hfilters, bind_eq_ok.mpr ⟨sort, hsort,
      bind_eq_ok.mpr ⟨size, hsize, check_bind_eq_ok.mpr ⟨hdiscriminator,
      bind_eq_ok.mpr ⟨dates, hdates, rfl⟩⟩⟩⟩⟩⟩⟩⟩⟩

theorem definitionOf_eq_ok {definition : JsonValue N} {pageNumber : Numeric N}
    {view : List (Str × JsonValue N)} : definitionOf F definition pageNumber = .ok view ↔
      ((F.integerOf pageNumber).any fun k => positiveSafeInteger k && k ≤ 1000000) = true ∧
      exactObject definition
        ["kind", "targetObjectId", "source", "fields", "filters", "sorts", "grouping",
          "calendarRange", "dateField", "presentation", "pageSize"]
        ["kind", "targetObjectId", "source", "fields", "filters", "sorts", "presentation",
          "pageSize"] = some view ∧
      ∃ text, canonicalSalesSavedViewJson F (ofParsed definition) = some text ∧
        byteLength text ≤ 16384 := by
  unfold definitionOf
  dsimp only
  split
  · rename_i view' text hpage hview htext
    rw [hpage, hview, htext]
    split
    · rename_i hlong
      constructor
      · intro h
        cases h
      · rintro ⟨-, -, text', h, hshort⟩
        cases h
        omega
    · rename_i hshort
      constructor
      · intro h
        cases h
        exact ⟨rfl, rfl, text, rfl, by omega⟩
      · rintro ⟨-, h, -⟩
        cases h
        rfl
  · rename_i hnot
    constructor
    · intro h
      cases h
    · rintro ⟨hpage, hview, text, htext, -⟩
      exact absurd htext (hnot _ _ hpage hview)

/-- Another page of the same view: the compilation returns and differs in the page number only. -/
theorem compile_page {host : Host} {definition : JsonValue N} {sourceId : SourceId}
    {selectedFields selectedFields' : List Str} {pageNumber number : Numeric N}
    {reportingTimezone : Option ReportingTimezone} {compiled : CompiledSalesSavedView N}
    (h : compileSalesSavedViewDefinition F host definition sourceId selectedFields pageNumber
      reportingTimezone = .ok compiled)
    (hfields : List.intercalate [0] selectedFields' = List.intercalate [0] selectedFields)
    (hnumber : ((F.integerOf number).any fun k => positiveSafeInteger k && k ≤ 1000000) = true) :
    compileSalesSavedViewDefinition F host definition sourceId selectedFields' number
      reportingTimezone = .ok { compiled with query := { compiled.query with number } } := by
  obtain ⟨view, lists, filters, dates, hs⟩ := compile_eq_ok.mp h
  obtain ⟨-, hview, htext⟩ := definitionOf_eq_ok.mp hs.viewRead
  refine compile_eq_ok.mpr ⟨view, lists, filters, dates,
    { hs with
      viewRead := definitionOf_eq_ok.mpr ⟨hnumber, hview, htext⟩
      fieldsRead := ?_
      queryNumber := rfl }⟩
  have hsame := hs.fieldsRead
  unfold fieldsOf at hsame ⊢
  rw [hfields]
  exact hsame

end Values

end KNex.Sales.SavedViews
