import KNex.Contracts.JsonFields
import KNex.Runtime.CallBudget

/-!
# Query controls as JSON (`packages/contracts/src/data-source-query.ts`)

`DataSourceQueryControlsSchema` on parsed JSON, and what the budget of a source sees of a query that
comes as JSON: the parsed controls, the depth of the body and the bytes of its text.
-/
namespace KNex.Runtime.QueryControls

open KNex.Core KNex.Core.JsonText KNex.Core.TextCoding KNex.Contracts.CanonicalJson
  KNex.Runtime.CallBudget
open KNex.Runtime.CallBudget.Query (FilterOperator DataSourceDescriptor DataSourceActorContext)

/-! ## Parts of a query -/

/-- mirrors packages/contracts/src/data-source.ts:45-59 -/
def operatorText : FilterOperator → Str
  | .eq => units "eq"
  | .neq => units "neq"
  | .isIn => units "in"
  | .notIn => units "not-in"
  | .contains => units "contains"
  | .startsWith => units "starts-with"
  | .endsWith => units "ends-with"
  | .gt => units "gt"
  | .gte => units "gte"
  | .lt => units "lt"
  | .lte => units "lte"
  | .isNull => units "is-null"
  | .isNotNull => units "is-not-null"

def dataSourceFilterOperators : List FilterOperator :=
  [.eq, .neq, .isIn, .notIn, .contains, .startsWith, .endsWith, .gt, .gte, .lt, .lte, .isNull,
    .isNotNull]

/-- `/^[a-z][a-z0-9]*(?:-[a-z0-9]+)*$/`, of at most 64 characters.
mirrors packages/contracts/src/table-records.ts:21, 25-28 -/
def isTableFieldId (s : Str) : Bool :=
  s.length ≤ 64 && (s.head?.any fun c => 97 ≤ c && c ≤ 122) && (s.splitOn 45).all fun part =>
    part ≠ [] && part.all fun c => 97 ≤ c && c ≤ 122 || isDigit c

section Values

variable {N : Type}

structure FilterQuery (N : Type) where
  field : Str
  operator : FilterOperator
  value : Option (JsonValue N)

inductive Direction where
  | asc | desc
  deriving DecidableEq, Repr

def Direction.text : Direction → Str
  | .asc => units "asc"
  | .desc => units "desc"

structure SortQuery where
  field : Str
  direction : Direction

structure PageQuery (N : Type) where
  number : Numeric N
  size : Numeric N

structure CursorQuery (N : Type) where
  after : Option Str
  before : Option Str
  size : Numeric N

/-- mirrors packages/contracts/src/data-source-query.ts:54-58 -/
structure Controls (N : Type) where
  page : Option (PageQuery N)
  cursor : Option (CursorQuery N)
  filters : List (FilterQuery N)
  sort : List SortQuery

/-! ## The schema -/

variable (F : Integers N)

/-- mirrors packages/contracts/src/data-source-query.ts:6-11 -/
def filterScalar : JsonValue N → Bool
  | .null | .bool _ | .num _ => true
  | .str s => s.length ≤ 512
  | _ => false

/-- mirrors packages/contracts/src/data-source-query.ts:29 -/
def parseFilterValue : JsonValue N → Option (JsonValue N)
  | .arr items _ =>
    if 1 ≤ items.length ∧ items.length ≤ 20 ∧ items.all filterScalar then some (.arr items [])
    else none
  | v => if filterScalar v then some v else none

/-- mirrors packages/contracts/src/data-source-query.ts:26-39 -/
def parseFilter (value : JsonValue N) : Option (FilterQuery N) := do
  let fields ← objectWith value ["field", "operator", "value"] ["field", "operator"]
  let field ← (field? fields "field").bind textOf
  guard (isTableFieldId field)
  let text ← (field? fields "operator").bind textOf
  let operator ← dataSourceFilterOperators.find? fun op => operatorText op = text
  let nullOperator := operator = .isNull ∨ operator = .isNotNull
  match field? fields "value" with
  | none => if nullOperator then some { field, operator, value := none } else none
  | some value =>
    let value ← parseFilterValue value
    if nullOperator then none else some { field, operator, value := some value }

/-- mirrors packages/contracts/src/data-source-query.ts:41-44 -/
def parseSort (value : JsonValue N) : Option SortQuery := do
  let fields ← objectWith value ["field", "direction"] ["field", "direction"]
  let field ← (field? fields "field").bind textOf
  guard (isTableFieldId field)
  let directionText ← (field? fields "direction").bind textOf
  let direction ← [Direction.asc, .desc].find? fun d => d.text = directionText
  return { field, direction }

/-- `z.number().finite().int().min(1).max(bound)` -/
def parseCount (bound : Int) (value : JsonValue N) : Option (Numeric N) :=
  match value with
  | .num n => if (F.integerOf n).any fun k => 1 ≤ k && k ≤ bound then some n else none
  | _ => none

/-- mirrors packages/contracts/src/data-source-query.ts:13-16 -/
def parsePage (value : JsonValue N) : Option (PageQuery N) := do
  let fields ← objectWith value ["number", "size"] ["number", "size"]
  let number ← (field? fields "number").bind (parseCount F 1000000)
  let size ← (field? fields "size").bind (parseCount F 100)
  return { number, size }

def parseCursorText (value : JsonValue N) : Option Str :=
  (textOf value).filter fun s => 1 ≤ s.length && s.length ≤ 2048

/-- A field that may be missing. -/
def optional {α : Type} (field : Option (JsonValue N)) (parse : JsonValue N → Option α) :
    Option (Option α) :=
  match field with
  | none => some none
  | some value => (parse value).map some

/-- mirrors packages/contracts/src/data-source-query.ts:18-24 -/
def parseCursor (value : JsonValue N) : Option (CursorQuery N) := do
  let fields ← objectWith value ["after", "before", "size"] ["size"]
  let after ← optional (field? fields "after") parseCursorText
  let before ← optional (field? fields "before") parseCursorText
  let size ← (field? fields "size").bind (parseCount F 100)
  guard ¬ (after.isSome ∧ before.isSome)
  return { after, before, size }

/-- `z.array(item).max(bound).default([])` -/
def parseList {α : Type} (bound : Nat) (item : JsonValue N → Option α)
    (field : Option (JsonValue N)) : Option (List α) :=
  match field with
  | none => some []
  | some (.arr items _) => if items.length ≤ bound then items.mapM item else none
  | some _ => none

/-- `DataSourceQueryControlsSchema.safeParse(value)`.
mirrors packages/contracts/src/data-source-query.ts:46-52 -/
def parseControls (value : JsonValue N) : Option (Controls N) := do
  let fields ← objectWith value ["page", "cursor", "filters", "sort"] []
  let page ← optional (field? fields "page") (parsePage F)
  let cursor ← optional (field? fields "cursor") (parseCursor F)
  let filters ← parseList 32 parseFilter (field? fields "filters")
  let sort ← parseList 16 parseSort (field? fields "sort")
  guard ¬ (page.isSome ∧ cursor.isSome)
  return { page, cursor, filters, sort }

/-! ## What the schema returns, as JSON -/

variable {F}

/-- The fields that are there. -/
def present (fields : List (String × Option (JsonValue N))) : JsonValue N :=
  .obj (fields.filterMap fun f => f.2.map fun v => (units f.1, v))

def FilterQuery.json (filter : FilterQuery N) : JsonValue N :=
  present [("field", some (.str filter.field)), ("operator", some (.str
    (operatorText filter.operator))), ("value", filter.value)]

def SortQuery.json (sort : SortQuery) : JsonValue N :=
  .obj [(units "field", .str sort.field), (units "direction", .str sort.direction.text)]

def PageQuery.json (page : PageQuery N) : JsonValue N :=
  .obj [(units "number", .num page.number), (units "size", .num page.size)]

def CursorQuery.json (cursor : CursorQuery N) : JsonValue N :=
  present [("after", cursor.after.map .str), ("before", cursor.before.map .str),
    ("size", some (.num cursor.size))]

def Controls.json (controls : Controls N) : JsonValue N :=
  present [("page", controls.page.map PageQuery.json),
    ("cursor", controls.cursor.map CursorQuery.json),
    ("filters", some (.arr (controls.filters.map FilterQuery.json) [])),
    ("sort", some (.arr (controls.sort.map SortQuery.json) []))]

/-! ## The budget -/

/-- The characters of a text; a surrogate without its partner is replaced. -/
def characters (s : Str) : String := String.ofList (scalars s)

variable (F) in
/-- What the budget reads of the controls. -/
def Controls.budgeted (controls : Controls N) : Query.DataSourceQueryControls :=
  { page := controls.page.map fun page => ((F.integerOf page.size).getD 0).toNat
    cursor := controls.cursor.map fun cursor => ((F.integerOf cursor.size).getD 0).toNat
    filters := controls.filters.map fun filter =>
      { field := characters filter.field, operator := filter.operator }
    sort := controls.sort.map fun sort => { field := characters sort.field } }

mutual

/-- The parts of a value that `jsonDepth` looks at. -/
def shape : JsonValue N → Json
  | .arr items _ => .arr (shapeItems items)
  | .obj fields => .obj (shapeFields fields)
  | _ => .null

def shapeItems : List (JsonValue N) → List Json
  | [] => []
  | v :: items => shape v :: shapeItems items

def shapeFields : List (Str × JsonValue N) → List (String × Json)
  | [] => []
  | (k, v) :: fields => (characters k, shape v) :: shapeFields fields

end

/-- A request of the gateway with the query and its input as JSON. -/
structure GatewayQuery (N : Type) where
  aborted : Bool
  input : JsonValue N
  query : JsonValue N
  descriptor : DataSourceDescriptor
  selectedFields : List Str
  actor : DataSourceActorContext

/-- mirrors packages/runtime/src/data-source-budget.ts:164 -/
def GatewayQuery.body (request : GatewayQuery N) (controls : Controls N) : JsonValue N :=
  .obj [(units "input", request.input), (units "query", controls.json),
    (units "selectedFields", .arr (request.selectedFields.map .str) [])]

variable (F) in
def GatewayQuery.call (request : GatewayQuery N) : Query.Call :=
  let controls := parseControls F request.query
  { aborted := request.aborted
    controls := controls.map (Controls.budgeted F)
    descriptor := request.descriptor
    selectedFields := request.selectedFields.map characters
    body := (controls.map fun controls => shape (request.body controls)).getD .null
    actor := request.actor }

variable (F) in
/-- The bytes of `JSON.stringify(body)`. -/
def GatewayQuery.bodyBytes (request : GatewayQuery N) : Nat :=
  ((parseControls F request.query).map fun controls => jsonBytes F (request.body controls)).getD 0

variable (F) in
/-- `BoundedQueryBudgetEvaluator.evaluate` on a query that comes as JSON.
mirrors packages/runtime/src/data-source-budget.ts:151-212 -/
def GatewayQuery.evaluate (request : GatewayQuery N) (now : ℚ) (m : Meter) :
    Meter × Query.Result Nat :=
  Query.evaluate (fun _ => request.bodyBytes F) (request.call F) now m

/-! ## What the schema accepts -/

theorem find_operator (op : FilterOperator) :
    dataSourceFilterOperators.find? (fun o => operatorText o = operatorText op) = some op := by
  cases op <;> decide

theorem operatorText_injective {op op' : FilterOperator} (h : operatorText op = operatorText op') :
    op = op' := by
  have hself := find_operator op'
  rw [← h, find_operator op] at hself
  exact Option.some.inj hself

theorem operatorText_isNull {op : FilterOperator} :
    operatorText op = units "is-null" ∨ operatorText op = units "is-not-null" ↔
      op = .isNull ∨ op = .isNotNull := by
  constructor
  · rintro (h | h)
    · exact .inl (operatorText_injective h)
    · exact .inr (operatorText_injective h)
  · rintro (rfl | rfl)
    · exact .inl rfl
    · exact .inr rfl

theorem find_direction (d : Direction) :
    [Direction.asc, .desc].find? (fun e => e.text = d.text) = some d := by
  cases d <;> decide

/-- A scalar, or a list of one to twenty scalars. -/
def QueryValue (v : JsonValue N) : Prop :=
  filterScalar v = true ∨ ∃ items, v = .arr items [] ∧ 1 ≤ items.length ∧ items.length ≤ 20 ∧
    items.all filterScalar = true

theorem parseFilterValue_self {v : JsonValue N} (h : QueryValue v) : parseFilterValue v = some v := by
  rcases h with h | ⟨items, rfl, h₁, h₂, h₃⟩
  · cases v with
    | arr _ _ => cases h
    | _ =>
      unfold parseFilterValue
      exact if_pos h
  · unfold parseFilterValue
    exact if_pos ⟨h₁, h₂, h₃⟩

/-- A filter that the schema could have returned. -/
structure FilterQuery.Valid (filter : FilterQuery N) : Prop where
  field : isTableFieldId filter.field = true
  value : filter.value = none ↔ filter.operator = .isNull ∨ filter.operator = .isNotNull
  scalar : ∀ v, filter.value = some v → QueryValue v

theorem parseFilter_json {filter : FilterQuery N} (h : filter.Valid) :
    parseFilter filter.json = some filter := by
  obtain ⟨field, operator, value⟩ := filter
  obtain ⟨hfield, hvalue, hscalar⟩ := h
  dsimp only at hfield hvalue hscalar
  unfold parseFilter
  cases value with
  | none =>
    have hobject : objectWith (FilterQuery.json ⟨field, operator, none⟩) ["field", "operator", "value"]
        ["field", "operator"] = some [(units "field", .str field),
          (units "operator", (.str (operatorText operator) : JsonValue N))] := by
      refine objectWith_eq_some.mpr ⟨rfl, ?_, ?_⟩
      · simp only [List.forall_mem_cons, List.not_mem_nil, false_imp_iff, implies_true, and_true]
        decide
      · simp only [List.forall_mem_cons, List.not_mem_nil, false_imp_iff, implies_true, and_true]
        exact ⟨rfl, rfl⟩
    rw [hobject]
    show (do
      guard (isTableFieldId field)
      let o : FilterOperator ← dataSourceFilterOperators.find? fun op =>
        operatorText op = operatorText operator
      if o = FilterOperator.isNull ∨ o = FilterOperator.isNotNull then some (FilterQuery.mk field o none) else none) = _
    rw [find_operator, hfield]
    show (if _ then _ else _) = _
    rw [if_pos (hvalue.mp rfl)]
  | some v =>
    have hobject : objectWith (FilterQuery.json ⟨field, operator, some v⟩)
        ["field", "operator", "value"] ["field", "operator"] = some [(units "field", .str field),
          (units "operator", .str (operatorText operator)), (units "value", v)] := by
      refine objectWith_eq_some.mpr ⟨rfl, ?_, ?_⟩
      · simp only [List.forall_mem_cons, List.not_mem_nil, false_imp_iff, implies_true, and_true]
        decide
      · simp only [List.forall_mem_cons, List.not_mem_nil, false_imp_iff, implies_true, and_true]
        exact ⟨rfl, rfl⟩
    rw [hobject]
    show (do
      guard (isTableFieldId field)
      let o : FilterOperator ← dataSourceFilterOperators.find? fun op =>
        operatorText op = operatorText operator
      let value ← parseFilterValue v
      if o = FilterOperator.isNull ∨ o = FilterOperator.isNotNull then none else some (FilterQuery.mk field o (some value))) = _
    rw [find_operator, hfield, parseFilterValue_self (hscalar v rfl)]
    show (if _ then _ else _) = _
    rw [if_neg]
    intro hnull
    cases hvalue.mpr hnull

theorem parseSort_json {sort : SortQuery} (h : isTableFieldId sort.field = true) :
    parseSort (sort.json : JsonValue N) = some sort := by
  obtain ⟨field, direction⟩ := sort
  have hobject : objectWith (SortQuery.json ⟨field, direction⟩ : JsonValue N) ["field", "direction"]
      ["field", "direction"] = some [(units "field", .str field),
        (units "direction", .str direction.text)] := by
    refine objectWith_eq_some.mpr ⟨rfl, ?_, ?_⟩
    · simp only [List.forall_mem_cons, List.not_mem_nil, false_imp_iff, implies_true, and_true]
      decide
    · simp only [List.forall_mem_cons, List.not_mem_nil, false_imp_iff, implies_true, and_true]
      exact ⟨rfl, rfl⟩
  unfold parseSort
  rw [hobject]
  show (do
    guard (isTableFieldId field)
    let found : Direction ← [Direction.asc, .desc].find? fun d => d.text = direction.text
    return SortQuery.mk field found) = _
  rw [find_direction, show isTableFieldId field = true from h]
  rfl

/-- The JSON number is a whole number from one to the bound. -/
def IsCount (F : Integers N) (bound : Int) (n : Numeric N) : Prop :=
  ∃ k, F.integerOf n = some k ∧ 1 ≤ k ∧ k ≤ bound

theorem parseCount_num {bound : Int} {n : Numeric N} (h : IsCount F bound n) :
    parseCount F bound (.num n) = some n := by
  obtain ⟨k, hk, h₁, h₂⟩ := h
  unfold parseCount
  dsimp only
  rw [hk, Option.any_some, if_pos (by simp [h₁, h₂])]

theorem parsePage_json {page : PageQuery N} (hnumber : IsCount F 1000000 page.number)
    (hsize : IsCount F 100 page.size) : parsePage F page.json = some page := by
  obtain ⟨number, size⟩ := page
  have hobject : objectWith (PageQuery.json ⟨number, size⟩) ["number", "size"] ["number", "size"] =
      some [(units "number", .num number), (units "size", .num size)] := by
    refine objectWith_eq_some.mpr ⟨rfl, ?_, ?_⟩
    · simp only [List.forall_mem_cons, List.not_mem_nil, false_imp_iff, implies_true, and_true]
      decide
    · simp only [List.forall_mem_cons, List.not_mem_nil, false_imp_iff, implies_true, and_true]
      exact ⟨rfl, rfl⟩
  unfold parsePage
  rw [hobject]
  show (do
    let number ← parseCount F 1000000 (.num number)
    let size ← parseCount F 100 (.num size)
    return PageQuery.mk number size) = _
  rw [parseCount_num hnumber, parseCount_num hsize]
  rfl

theorem mapM_map_self {α β : Type} {f : α → β} {parse : β → Option α} {l : List α}
    (h : ∀ a ∈ l, parse (f a) = some a) : (l.map f).mapM parse = some l := by
  rw [mapM_eq_some, List.forall₂_map_left_iff]
  exact List.forall₂_same.mpr h

/-- Controls of an offset page, in the order in which a caller may write them. -/
def offsetJson (page : PageQuery N) (filters : List (FilterQuery N)) (sort : List SortQuery) :
    JsonValue N :=
  .obj [(units "filters", .arr (filters.map FilterQuery.json) []),
    (units "sort", .arr (sort.map SortQuery.json) []), (units "page", page.json)]

/-- What the schema asks of such controls. -/
structure ValidOffset (F : Integers N) (page : PageQuery N) (filters : List (FilterQuery N))
    (sort : List SortQuery) : Prop where
  number : IsCount F 1000000 page.number
  size : IsCount F 100 page.size
  filterValid : ∀ filter ∈ filters, filter.Valid
  filterCount : filters.length ≤ 32
  sortValid : ∀ item ∈ sort, isTableFieldId item.field = true
  sortCount : sort.length ≤ 16

theorem parseControls_offset {page : PageQuery N} {filters : List (FilterQuery N)}
    {sort : List SortQuery} (h : ValidOffset F page filters sort) :
    parseControls F (offsetJson page filters sort) =
      some { page := some page, cursor := none, filters, sort } := by
  have hobject : objectWith (offsetJson page filters sort) ["page", "cursor", "filters", "sort"] [] =
      some [(units "filters", .arr (filters.map FilterQuery.json) []),
        (units "sort", .arr (sort.map SortQuery.json) []), (units "page", page.json)] := by
    refine objectWith_eq_some.mpr ⟨rfl, ?_, fun _ h => absurd h List.not_mem_nil⟩
    simp only [List.forall_mem_cons, List.not_mem_nil, false_imp_iff, implies_true, and_true]
    decide
  have hfilters : parseList 32 parseFilter (some (.arr (filters.map FilterQuery.json) [])) =
      some filters := by
    unfold parseList
    dsimp only
    rw [if_pos (by rw [List.length_map]; exact h.filterCount)]
    exact mapM_map_self fun filter hfilter => parseFilter_json (h.filterValid filter hfilter)
  have hsort : parseList 16 parseSort (some (.arr (sort.map (@SortQuery.json N)) [])) =
      some sort := by
    unfold parseList
    dsimp only
    rw [if_pos (by rw [List.length_map]; exact h.sortCount)]
    exact mapM_map_self fun item hitem => parseSort_json (h.sortValid item hitem)
  unfold parseControls
  rw [hobject]
  show (do
    let page ← optional (some page.json) (parsePage F)
    let filters ← parseList 32 parseFilter (some (.arr (filters.map FilterQuery.json) []))
    let sort ← parseList 16 parseSort (some (.arr (sort.map SortQuery.json) []))
    guard ¬ (page.isSome ∧ (none : Option (CursorQuery N)).isSome)
    return Controls.mk page none filters sort) = _
  rw [hfilters, hsort]
  unfold optional
  dsimp only
  rw [parsePage_json h.number h.size]
  rfl

/-! ## The returned controls -/

theorem noStray_scalar {v : JsonValue N} (h : filterScalar v = true) : NoStray v := by
  cases v with
  | arr _ _ => cases h
  | obj _ => cases h
  | _ => trivial

theorem QueryValue.noStray {v : JsonValue N} (h : QueryValue v) : NoStray v := by
  rcases h with h | ⟨items, rfl, -, -, h⟩
  · exact noStray_scalar h
  · refine ⟨rfl, noStrayItems_iff.mpr fun item hitem => ?_⟩
    exact noStray_scalar (List.all_eq_true.mp h item hitem)

theorem FilterQuery.Valid.noStray {filter : FilterQuery N} (h : filter.Valid) :
    NoStray filter.json := by
  obtain ⟨field, operator, value⟩ := filter
  cases value with
  | none => exact ⟨trivial, trivial, trivial⟩
  | some v => exact ⟨trivial, trivial, (h.scalar v rfl).noStray, trivial⟩

theorem noStray_offset (page : PageQuery N) {filters : List (FilterQuery N)}
    (sort : List SortQuery) (h : ∀ filter ∈ filters, filter.Valid) :
    NoStray (offsetJson page filters sort) := by
  refine ⟨⟨rfl, noStrayItems_iff.mpr fun v hv => ?_⟩, ⟨rfl, noStrayItems_iff.mpr fun v hv => ?_⟩,
    ⟨trivial, trivial, trivial⟩, trivial⟩
  · obtain ⟨filter, hfilter, rfl⟩ := List.mem_map.mp hv
    exact (h filter hfilter).noStray
  · obtain ⟨item, -, rfl⟩ := List.mem_map.mp hv
    exact ⟨trivial, trivial, trivial⟩

/-- The schema returns such controls canonically unchanged. -/
theorem canonicalJson_offset (page : PageQuery N) {filters : List (FilterQuery N)}
    (sort : List SortQuery) (h : ∀ filter ∈ filters, filter.Valid) {G : NumberFormat N} :
    canonicalJson G (ofParsed (offsetJson page filters sort)) =
      canonicalJson G (ofParsed (Controls.json { page := some page, cursor := none, filters, sort })) :=
  by
  refine canonicalJson_perm ?_ ?_ (noStray_offset page sort h)
  · exact @List.perm_append_comm _ [_, _] [(units "page", page.json)]
  · show [units "filters", units "sort", units "page"].Nodup
    decide

/-! ## Depth -/

theorem depthItems_le {n : Nat} : ∀ {items : List (JsonValue N)},
    (∀ v ∈ items, jsonDepth (shape v) ≤ n) → depthItems (shapeItems items) ≤ n + 1
  | [], _ => Nat.zero_le _
  | v :: items, h => by
    have hv := h v List.mem_cons_self
    have ih := depthItems_le fun w hw => h w (List.mem_cons_of_mem v hw)
    rw [shapeItems, depthItems]
    omega

theorem depthFields_le {n : Nat} : ∀ {fields : List (Str × JsonValue N)},
    (∀ f ∈ fields, jsonDepth (shape f.2) ≤ n) → depthFields (shapeFields fields) ≤ n + 1
  | [], _ => Nat.zero_le _
  | (k, v) :: fields, h => by
    have hv := h (k, v) List.mem_cons_self
    have ih := depthFields_le fun w hw => h w (List.mem_cons_of_mem (k, v) hw)
    rw [shapeFields, depthFields]
    dsimp only at hv
    omega

theorem depth_arr_le {n : Nat} {items : List (JsonValue N)} {extra : List (Str × JsValue N)}
    (h : ∀ v ∈ items, jsonDepth (shape v) ≤ n) : jsonDepth (shape (.arr items extra)) ≤ n + 1 := by
  have hitems := depthItems_le h
  rw [shape, jsonDepth]
  omega

theorem depth_obj_le {n : Nat} {fields : List (Str × JsonValue N)}
    (h : ∀ f ∈ fields, jsonDepth (shape f.2) ≤ n) : jsonDepth (shape (.obj fields)) ≤ n + 1 := by
  have hfields := depthFields_le h
  rw [shape, jsonDepth]
  omega

theorem depth_scalar {v : JsonValue N} (h : filterScalar v = true) : jsonDepth (shape v) = 0 := by
  cases v with
  | arr _ _ => cases h
  | obj _ => cases h
  | _ => rfl

theorem QueryValue.depth {v : JsonValue N} (h : QueryValue v) : jsonDepth (shape v) ≤ 1 := by
  rcases h with h | ⟨items, rfl, -, -, h⟩
  · rw [depth_scalar h]
    exact Nat.zero_le 1
  · exact depth_arr_le fun item hitem => (depth_scalar (List.all_eq_true.mp h item hitem)).le

theorem FilterQuery.Valid.depth {filter : FilterQuery N} (h : filter.Valid) :
    jsonDepth (shape filter.json) ≤ 2 := by
  obtain ⟨field, operator, value⟩ := filter
  cases value with
  | none =>
    refine depth_obj_le fun f hf => ?_
    rcases List.mem_cons.mp hf with rfl | hf
    · exact Nat.zero_le 1
    · rw [List.mem_singleton.mp hf]
      exact Nat.zero_le 1
  | some v =>
    refine depth_obj_le fun f hf => ?_
    rcases List.mem_cons.mp hf with rfl | hf
    · exact Nat.zero_le 1
    · rcases List.mem_cons.mp hf with rfl | hf
      · exact Nat.zero_le 1
      · rw [List.mem_singleton.mp hf]
        exact (h.scalar v rfl).depth

theorem depth_offset {page : PageQuery N} {filters : List (FilterQuery N)} {sort : List SortQuery}
    (h : ∀ filter ∈ filters, filter.Valid) :
    jsonDepth (shape (Controls.json { page := some page, cursor := none, filters, sort })) ≤ 4 := by
  refine depth_obj_le fun f hf => ?_
  rcases List.mem_cons.mp hf with rfl | hf
  · exact Nat.le_add_left 1 2
  rcases List.mem_cons.mp hf with rfl | hf
  · refine depth_arr_le fun v hv => ?_
    obtain ⟨filter, hfilter, rfl⟩ := List.mem_map.mp hv
    exact (h filter hfilter).depth
  · rw [List.mem_singleton.mp hf]
    refine depth_arr_le fun v hv => ?_
    obtain ⟨item, -, rfl⟩ := List.mem_map.mp hv
    exact Nat.le_add_left 1 1

end Values

end KNex.Runtime.QueryControls
