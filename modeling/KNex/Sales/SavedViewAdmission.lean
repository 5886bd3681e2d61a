import KNex.Sales.SavedViewCompile

/-!
# Saved views at the gateway (`modules/sales/src/contracts.ts`, `packages/runtime/src/data-source-budget.ts`)

What `compileSalesSavedViewDefinition` returns goes to the data-source gateway as a query. Two
validators of other packages look at it there: the schema of query controls, and the budget of the
source with its bounds on fields, filters, sorts, page size, depth, bytes and cost. Their bounds
follow from those of the compilation (`compiled_admitted`).
-/
namespace KNex.Sales.SavedViews

open KNex.Core KNex.Core.JsonText KNex.Contracts.CanonicalJson KNex.Sales.CalendarRange
  KNex.Runtime.CallBudget KNex.Runtime.QueryControls
open KNex.Runtime.CallBudget.Query (FilterOperator)

/-! ## Sources -/

/-- mirrors modules/sales/src/contracts.ts:23-37 -/
def salesSourceLimits : Query.Limits where
  maxSelectedFields := 8
  maxPageSize := 100
  maxFilters := 8
  maxSorts := 2
  maxBodyBytes := 32768
  maxDepth := 6
  maxConcurrency := 4
  ratePerMinute := 300
  burst := 30
  costClass := .medium
  maxCost := 100

/-- mirrors modules/sales/src/contracts.ts:268-275 -/
def SourceId.descriptor (sourceId : SourceId) : Query.DataSourceDescriptor where
  id := sourceId.text
  primaryContract := .tableRecords
  outputFields := some (sourceId.fields.map fun field =>
    { id := field.id, sortable := field.sortable, filterOperators := field.filterOperators })
  paginationModes := [.offset]
  limits := salesSourceLimits

theorem field_facts : ∀ sourceId : SourceId, ∀ field ∈ sourceId.fields,
    isTableFieldId (units field.id) = true ∧ field.kind ≠ .decimal ∧
      characters (units field.id) = field.id := by
  intro sourceId
  cases sourceId <;> decide

/-- The budget finds the field that the source declares. -/
theorem fieldOf_descriptor : ∀ sourceId : SourceId, ∀ field ∈ sourceId.fields,
    Query.fieldOf sourceId.descriptor field.id =
      some ⟨field.id, field.sortable, field.filterOperators⟩ := by
  intro sourceId
  cases sourceId <;> decide

section Values

variable {N : Type} {F : Integers N} {host : Host} {sourceId : SourceId}

/-! ## Values of filters -/

theorem length_of_mask {mask : String} {s : Str} (h : matchesMask mask s = true) :
    s.length = mask.length := by
  unfold matchesMask at h
  rw [Bool.and_eq_true, decide_eq_true_eq] at h
  exact h.1

theorem text_of_instant {value : JsonValue N} (h : instant host value = .ok true) :
    ∃ s, value = .str s ∧ s.length = 24 := by
  unfold instant at h
  split at h
  · rename_i s
    split at h
    · rename_i hmask
      exact ⟨s, rfl, length_of_mask hmask⟩
    · cases h
  · cases h

theorem text_of_date {value : JsonValue N} (h : isSalesCalendarDate host value = .ok true) :
    ∃ s, value = .str s ∧ s.length = 10 := by
  unfold isSalesCalendarDate at h
  split at h
  · rename_i s
    split at h
    · rename_i hmask
      exact ⟨s, rfl, length_of_mask hmask.1⟩
    · cases h
  · cases h

theorem filterScalar_str {s : Str} (h : s.length ≤ 512) : filterScalar (.str s : JsonValue N) = true :=
  decide_eq_true h

/-- A value that a saved view may compare a field with is a scalar of a query. -/
theorem filterScalar_of_saved {field : SourceField} (hkind : field.kind ≠ .decimal)
    {value : JsonValue N} (h : savedScalar F host field value = .ok true) :
    filterScalar value = true := by
  unfold savedScalar at h
  split at h
  · rfl
  · split at h
    any_goals rfl
    any_goals cases h
    case h_1 | h_2 | h_3 | h_4 =>
      rename_i s _ _
      have hshort := of_decide_eq_true (Except.ok.inj h)
      exact filterScalar_str (le_trans (length_le_byteLength s) hshort)
    · obtain ⟨s, rfl, hlength⟩ := text_of_date h
      exact filterScalar_str (by omega)
    · obtain ⟨s, rfl, hlength⟩ := text_of_instant h
      exact filterScalar_str (by omega)
    · exact absurd ‹_› hkind

theorem everyScalar_eq_ok {field : SourceField} (hkind : field.kind ≠ .decimal) :
    ∀ {items : List (JsonValue N)}, everyScalar F host field items = .ok true →
      items.all filterScalar = true
  | [], _ => rfl
  | item :: items, h => by
    obtain ⟨accepted, haccepted, hrest⟩ := bind_eq_ok.mp h
    cases accepted with
    | false => cases hrest
    | true => rw [List.all_cons, filterScalar_of_saved hkind haccepted, everyScalar_eq_ok hkind hrest]; rfl

theorem queryValue_of_accepted {field : SourceField} (hkind : field.kind ≠ .decimal)
    {arrayOperator : Bool} {value : JsonValue N} (hstray : NoStray value)
    (h : filterValueOk F host field arrayOperator value = .ok true) : QueryValue value := by
  unfold filterValueOk at h
  split at h
  · split at h
    · rename_i items extra
      obtain rfl : extra = [] := hstray.1
      split at h
      · cases h
      · rename_i hbounds
        exact .inr ⟨items, rfl, by omega, by omega, everyScalar_eq_ok hkind h⟩
    · cases h
  · exact .inl (filterScalar_of_saved hkind h)

/-! ## Filters -/

/-- The filter as the schema returns it. -/
def SavedFilter.query (filter : SavedFilter N) : FilterQuery N where
  field := filter.field
  operator := (dataSourceFilterOperators.find? fun op => operatorText op = filter.operator).getD .eq
  value := filter.value

theorem SavedFilter.query_json {f : SavedFilter N} {op : FilterOperator}
    (h : operatorText op = f.operator) :
    f.query.operator = op ∧ f.query.json = f.json := by
  obtain ⟨field, operator, value⟩ := f
  dsimp only at h
  subst h
  have hop : (SavedFilter.mk field (operatorText op) value).query.operator = op := by
    show (dataSourceFilterOperators.find? fun o => operatorText o = operatorText op).getD .eq = op
    rw [find_operator]
    rfl
  refine ⟨hop, ?_⟩
  unfold FilterQuery.json
  rw [hop]
  cases value <;> rfl

/-- A filter of a compiled view: the schema accepts it, its field is selected and the source declares
it for the field. -/
structure Admitted (sourceId : SourceId) (fields : List Str) (filter : SavedFilter N) : Prop where
  json : filter.query.json = filter.json
  valid : filter.query.Valid
  selected : filter.field ∈ fields
  declared : ∃ field ∈ sourceId.fields, units field.id = filter.field ∧
    filter.query.operator ∈ field.filterOperators

/-- `fieldId` becomes `field`. -/
theorem jsonBytes_filter_le {fieldId operator : Str} {value : Option (JsonValue N)}
    {fields : List (Str × JsonValue N)} (hfield : field? fields "fieldId" = some (.str fieldId))
    (hoperator : field? fields "operator" = some (.str operator))
    (hvalue : field? fields "value" = value) :
    jsonBytes F (SavedFilter.json ⟨fieldId, operator, value⟩) ≤ jsonBytes F (.obj fields) := by
  have h₁ : byteLength (quote (units "field")) = 7 := by decide
  have h₂ : byteLength (quote (units "fieldId")) = 9 := by decide
  cases value with
  | none =>
    refine le_trans ?_ (@jsonBytes_obj_le _ F
      [(units "fieldId", .str fieldId), (units "operator", .str operator)] _
      (show [units "fieldId", units "operator"].Nodup by decide) ?_)
    · simp only [SavedFilter.json, Option.map_none, Option.toList_none, List.append_nil, jsonBytes,
        fieldsBytes, List.length_cons, h₁, h₂]
      omega
    · simp only [List.forall_mem_cons, List.not_mem_nil, false_imp_iff, implies_true, and_true]
      exact ⟨mem_of_field? hfield, mem_of_field? hoperator⟩
  | some v =>
    refine le_trans ?_ (@jsonBytes_obj_le _ F
      [(units "fieldId", .str fieldId), (units "operator", .str operator), (units "value", v)] _
      (show [units "fieldId", units "operator", units "value"].Nodup by decide) ?_)
    · simp only [SavedFilter.json, Option.map_some, Option.toList_some, List.cons_append,
        List.nil_append, jsonBytes, fieldsBytes, List.length_cons, h₁, h₂]
      omega
    · simp only [List.forall_mem_cons, List.not_mem_nil, false_imp_iff, implies_true, and_true]
      exact ⟨mem_of_field? hfield, mem_of_field? hoperator, mem_of_field? hvalue⟩

theorem compileFilter_eq_ok {fields : List Str} {value : JsonValue N} {filter : SavedFilter N}
    (hclean : Clean value) (h : compileFilter F host sourceId fields value = .ok filter) :
    Admitted sourceId fields filter ∧ jsonBytes F filter.json ≤ jsonBytes F value := by
  unfold compileFilter at h
  split at h
  · cases h
  rename_i props hprops
  obtain ⟨rfl, -, -⟩ := objectWith_eq_some.mp hprops
  split at h
  · rename_i fieldId operator hfieldId hoperator
    dsimp only at h
    split at h
    · cases h
    rename_i field hfield
    have hmem := List.mem_of_find?_eq_some hfield
    have hid := List.find?_some hfield
    rw [decide_eq_true_eq] at hid
    obtain ⟨hpattern, hkind, -⟩ := field_facts sourceId field hmem
    split at h
    · cases h
    rename_i hchecks
    simp only [not_or, Decidable.not_not] at hchecks
    obtain ⟨hselected, hoperators, hnull⟩ := hchecks
    obtain ⟨op, hop, htext⟩ := List.any_eq_true.mp hoperators
    replace htext := of_decide_eq_true htext
    have hadmit : ∀ v : Option (JsonValue N), field? props "value" = v →
        (∀ w, v = some w → QueryValue w) →
        Admitted sourceId fields (SavedFilter.mk fieldId operator v) ∧
          jsonBytes F (SavedFilter.json ⟨fieldId, operator, v⟩) ≤ jsonBytes F (.obj props) := by
      intro v hv hscalar
      obtain ⟨hquery, hjson⟩ := SavedFilter.query_json (f := SavedFilter.mk fieldId operator v)
        htext
      refine ⟨⟨hjson, ⟨hid ▸ hpattern, ?_, hscalar⟩, hselected, field, hmem, hid, ?_⟩,
        jsonBytes_filter_le hfieldId hoperator hv⟩
      · rw [hquery, ← operatorText_isNull, htext]
        show v = none ↔ _
        rw [hv] at hnull
        cases v with
        | none =>
          rw [Option.isSome_none, Bool.not_eq_false, Bool.or_eq_true, decide_eq_true_eq,
            decide_eq_true_eq] at hnull
          exact ⟨fun _ => hnull, fun _ => rfl⟩
        | some w =>
          rw [Option.isSome_some, Bool.not_eq_true, Bool.or_eq_false_iff, decide_eq_false_iff_not,
            decide_eq_false_iff_not] at hnull
          exact iff_of_false (Option.some_ne_none w) (not_or.mpr hnull)
      · rw [hquery]
        exact hop
    split at h
    · rename_i hvalue
      cases h
      exact hadmit none hvalue fun w hw => by cases hw
    · rename_i v hvalue
      obtain ⟨accepted, haccepted, h⟩ := bind_eq_ok.mp h
      obtain ⟨htrue, h⟩ := check_bind_eq_ok.mp h
      cases h
      rw [failIf_eq_ok, Bool.not_eq_false] at htrue
      rw [htrue] at haccepted
      refine hadmit (some v) hvalue fun w hw => ?_
      cases hw
      exact queryValue_of_accepted hkind (hclean.of_field? hvalue).2 haccepted
  · cases h

/-- The filters of a list, with the bytes they take. -/
theorem compileFilters_eq_ok {fields : List Str} : ∀ {values : List (JsonValue N)}
    {filters : List (SavedFilter N)}, (∀ v ∈ values, Clean v) →
    values.mapM (compileFilter F host sourceId fields) = .ok filters →
    (∀ filter ∈ filters, Admitted sourceId fields filter) ∧ filters.length = values.length ∧
      itemsBytes F (filters.map SavedFilter.json) ≤ itemsBytes F values
  | [], filters, _, h => by
    cases h
    exact ⟨fun _ h => absurd h List.not_mem_nil, rfl, le_rfl⟩
  | v :: values, filters, hclean, h => by
    rw [List.mapM_cons] at h
    obtain ⟨filter, hfilter, h⟩ := bind_eq_ok.mp h
    obtain ⟨rest, hrest, h⟩ := bind_eq_ok.mp h
    cases h
    obtain ⟨hone, hbytes⟩ := compileFilter_eq_ok (hclean v List.mem_cons_self) hfilter
    obtain ⟨hall, hlength, htotal⟩ :=
      compileFilters_eq_ok (fun w hw => hclean w (List.mem_cons_of_mem v hw)) hrest
    refine ⟨List.forall_mem_cons.mpr ⟨hone, hall⟩, congrArg (· + 1) hlength, ?_⟩
    rw [List.map_cons, itemsBytes, itemsBytes]
    omega

/-! ## Sorts -/

def SavedSort.query (sort : SavedSort) : SortQuery where
  field := sort.field
  direction := if sort.direction = units "desc" then .desc else .asc

structure AdmittedSort (sourceId : SourceId) (fields : List Str) (sort : SavedSort) : Prop where
  direction : sort.query.direction.text = sort.direction
  selected : sort.field ∈ fields
  sortable : ∃ field ∈ sourceId.fields, units field.id = sort.field ∧ field.sortable = true

theorem AdmittedSort.json {fields : List Str} {sort : SavedSort}
    (h : AdmittedSort sourceId fields sort) :
    (sort.query.json : JsonValue N) = sort.json := by
  have hdirection := h.direction
  unfold SortQuery.json SavedSort.json
  rw [hdirection]
  rfl

theorem compileSort_eq_ok {fields seenSorts : List Str} {value : JsonValue N} {sort : SavedSort}
    (h : compileSort sourceId fields seenSorts value = .ok sort) :
    AdmittedSort sourceId fields sort ∧ sort.field ∉ seenSorts ∧
      jsonBytes F (sort.json) ≤ jsonBytes F value := by
  unfold compileSort at h
  split at h
  · cases h
  rename_i props hprops
  obtain ⟨rfl, -, -⟩ := objectWith_eq_some.mp hprops
  split at h
  · rename_i fieldId direction hfieldId hdirection
    split at h
    · cases h
    rename_i hchecks
    simp only [not_or, Decidable.not_not] at hchecks
    obtain ⟨hselected, hfresh, hdir, hsortable⟩ := hchecks
    cases h
    rw [Option.any_eq_true] at hsortable
    obtain ⟨field, hfield, hsort⟩ := hsortable
    have hid := List.find?_some hfield
    rw [decide_eq_true_eq] at hid
    refine ⟨⟨?_, hselected, field, List.mem_of_find?_eq_some hfield, hid, hsort⟩, hfresh, ?_⟩
    · have htexts : ∀ d ∈ [units "asc", units "desc"],
          (if d = units "desc" then Direction.desc else .asc).text = d := by decide
      exact htexts direction hdir
    · have h₁ : byteLength (quote (units "field")) = 7 := by decide
      have h₂ : byteLength (quote (units "fieldId")) = 9 := by decide
      refine le_trans ?_ (@jsonBytes_obj_le _ F
        [(units "fieldId", .str fieldId), (units "direction", .str direction)] _
        (show [units "fieldId", units "direction"].Nodup by decide) ?_)
      · simp only [SavedSort.json, jsonBytes, fieldsBytes, List.length_cons, h₁, h₂]
        omega
      · simp only [List.forall_mem_cons, List.not_mem_nil, false_imp_iff, implies_true, and_true]
        exact ⟨mem_of_field? hfieldId, mem_of_field? hdirection⟩
  · cases h

theorem compileSorts_eq_ok {fields : List Str} : ∀ {values : List (JsonValue N)}
    {seenSorts : List Str} {sort : List SavedSort},
    compileSorts sourceId fields seenSorts values = .ok sort →
    (∀ item ∈ sort, AdmittedSort sourceId fields item ∧ item.field ∉ seenSorts) ∧
      (sort.map SavedSort.field).Nodup ∧ sort.length = values.length ∧
      itemsBytes F (sort.map SavedSort.json) ≤ itemsBytes F values
  | [], _, sort, h => by
    cases h
    exact ⟨fun _ h => absurd h List.not_mem_nil, List.nodup_nil, rfl, le_rfl⟩
  | v :: values, seenSorts, sort, h => by
    obtain ⟨item, hitem, h⟩ := bind_eq_ok.mp h
    obtain ⟨rest, hrest, h⟩ := bind_eq_ok.mp h
    cases h
    obtain ⟨hone, hfresh, hbytes⟩ := compileSort_eq_ok (F := F) hitem
    obtain ⟨hall, hnodup, hlength, htotal⟩ := compileSorts_eq_ok hrest
    have hnew : ∀ other ∈ rest, AdmittedSort sourceId fields other ∧
        other.field ∉ seenSorts ∧ other.field ≠ item.field := by
      intro other hother
      obtain ⟨hadmitted, hseen⟩ := hall other hother
      rw [List.mem_append, List.mem_singleton, not_or] at hseen
      exact ⟨hadmitted, hseen⟩
    refine ⟨List.forall_mem_cons.mpr ⟨⟨hone, hfresh⟩, fun other hother =>
      ⟨(hnew other hother).1, (hnew other hother).2.1⟩⟩, ?_, congrArg (· + 1) hlength, ?_⟩
    · rw [List.map_cons, List.nodup_cons]
      refine ⟨fun hmem => ?_, hnodup⟩
      obtain ⟨other, hother, heq⟩ := List.mem_map.mp hmem
      exact (hnew other hother).2.2 heq
    · rw [List.map_cons, itemsBytes, itemsBytes]
      omega

/-! ## The dates of a calendar -/

theorem calendar_dates : ∀ field ∈ [units "scheduled-at", units "occurred-at"],
    byteLength (quote field) ≤ 14 ∧ ∃ f ∈ SourceId.calendar.fields, units f.id = field ∧
      FilterOperator.gte ∈ f.filterOperators ∧ FilterOperator.lt ∈ f.filterOperators ∧
      isTableFieldId field = true := by
  decide

/-- The filter of one end of a range. -/
theorem admitted_date {fields : List Str} {dateField : Str} {op : FilterOperator}
    {value : JsonValue N} (hdate : dateField ∈ [units "scheduled-at", units "occurred-at"])
    (hselected : dateField ∈ fields) (hop : op = .gte ∨ op = .lt)
    (hinstant : instant host value = .ok true) :
    Admitted .calendar fields ⟨dateField, operatorText op, some value⟩ ∧
      jsonBytes F (SavedFilter.json ⟨dateField, operatorText op, some value⟩) ≤
        52 + jsonBytes F value := by
  obtain ⟨hbytes, field, hfield, hid, hgte, hlt, hpattern⟩ := calendar_dates dateField hdate
  obtain ⟨s, rfl, hlength⟩ := text_of_instant hinstant
  obtain ⟨hquery, hjson⟩ := SavedFilter.query_json
    (f := SavedFilter.mk dateField (operatorText op) (some (.str s : JsonValue N))) rfl
  refine ⟨⟨hjson, ⟨hpattern, ?_, ?_⟩, hselected, field, hfield, hid, ?_⟩, ?_⟩
  · rw [hquery]
    rcases hop with rfl | rfl <;> simp [SavedFilter.query]
  · intro v hv
    cases hv
    exact .inl (filterScalar_str (by omega))
  · rw [hquery]
    rcases hop with rfl | rfl
    · exact hgte
    · exact hlt
  · have h₁ : byteLength (quote (units "field")) = 7 := by decide
    have h₂ : byteLength (quote (units "operator")) = 10 := by decide
    have h₃ : byteLength (quote (units "value")) = 7 := by decide
    have h₄ : byteLength (quote (operatorText op)) ≤ 5 := by
      rcases hop with rfl | rfl <;> decide
    simp only [SavedFilter.json, Option.map_some, Option.toList_some, List.cons_append,
      List.nil_append, jsonBytes, fieldsBytes, List.length_cons, List.length_nil, h₁, h₂, h₃]
    omega

theorem calendarRangeOf_eq_ok {view : List (Str × JsonValue N)} {range : SavedRange N}
    (h : calendarRangeOf view = .ok range) : ∃ r, field? view "calendarRange" = some r ∧
      jsonBytes F range.start + jsonBytes F range.stop ≤ jsonBytes F r := by
  unfold calendarRangeOf at h
  dsimp only at h
  split at h
  · cases h
  rename_i props hprops
  obtain ⟨r, hr, hobject⟩ := Option.bind_eq_some_iff.mp hprops
  obtain ⟨rfl, -, -⟩ := objectWith_eq_some.mp hobject
  split at h
  · rename_i start stop timezone hstart hstop _
    cases h
    refine ⟨_, hr, le_trans ?_ (@jsonBytes_obj_le _ F [(units "start", start), (units "end", stop)] _
      (show [units "start", units "end"].Nodup by decide) ?_)⟩
    · rw [jsonBytes, fieldsBytes, fieldsBytes, fieldsBytes]
      dsimp only
      omega
    · simp only [List.forall_mem_cons, List.not_mem_nil, false_imp_iff, implies_true, and_true]
      exact ⟨mem_of_field? hstart, mem_of_field? hstop⟩
  · cases h

theorem dateFieldOf_eq_ok {view : List (Str × JsonValue N)} {fields : List Str} {dateField : Str}
    (h : dateFieldOf view fields = .ok dateField) :
    dateField ∈ [units "scheduled-at", units "occurred-at"] ∧ dateField ∈ fields := by
  unfold dateFieldOf at h
  split at h
  · split at h
    · rename_i hchecks
      cases h
      exact ⟨hchecks.2.2.1, hchecks.2.2.2.1⟩
    · cases h
  · cases h

/-- The filters that the source adds, and what they take. -/
structure Added (F : Integers N) (sourceId : SourceId) (view : List (Str × JsonValue N))
    (fields : List Str) (dates : List (SavedFilter N)) : Prop where
  admitted : ∀ date ∈ dates, Admitted sourceId fields date
  none : sourceId ≠ .calendar → dates = []
  two : sourceId = .calendar → dates.length = 2
  bytes : sourceId = .calendar → ∃ r, field? view "calendarRange" = some r ∧
    itemsBytes F (dates.map SavedFilter.json) ≤ 104 + jsonBytes F r

theorem addedFilters_eq_ok {reportingTimezone : Option ReportingTimezone}
    {view : List (Str × JsonValue N)} {fields : List Str} {dates : List (SavedFilter N)}
    (h : addedFilters host sourceId reportingTimezone view fields = .ok dates) :
    Added F sourceId view fields dates := by
  unfold addedFilters at h
  split at h
  · rename_i hcalendar
    subst hcalendar
    obtain ⟨dateField, hdate, h⟩ := bind_eq_ok.mp h
    obtain ⟨range, hrange, h⟩ := bind_eq_ok.mp h
    obtain ⟨startOk, hstart, h⟩ := bind_eq_ok.mp h
    obtain ⟨hstartOk, h⟩ := check_bind_eq_ok.mp h
    obtain ⟨stopOk, hstop, h⟩ := bind_eq_ok.mp h
    obtain ⟨hstopOk, h⟩ := check_bind_eq_ok.mp h
    obtain ⟨days, -, h⟩ := bind_eq_ok.mp h
    obtain ⟨-, h⟩ := check_bind_eq_ok.mp h
    cases h
    rw [failIf_eq_ok, Bool.not_eq_false] at hstartOk hstopOk
    subst hstartOk hstopOk
    obtain ⟨hfield, hselected⟩ := dateFieldOf_eq_ok hdate
    obtain ⟨r, hr, hbytes⟩ := calendarRangeOf_eq_ok (F := F) hrange
    obtain ⟨hadmitted, hfirst⟩ := admitted_date (F := F) hfield hselected (.inl rfl) hstart
    obtain ⟨hadmitted', hsecond⟩ := admitted_date (F := F) hfield hselected (.inr rfl) hstop
    refine ⟨List.forall_mem_cons.mpr ⟨hadmitted, List.forall_mem_singleton.mpr hadmitted'⟩,
      fun hne => absurd rfl hne, fun _ => rfl, fun _ => ⟨r, hr, ?_⟩⟩
    show jsonBytes F (SavedFilter.json ⟨dateField, operatorText .gte, some range.start⟩) +
      (jsonBytes F (SavedFilter.json ⟨dateField, operatorText .lt, some range.stop⟩) + 0) ≤ _
    omega
  · rename_i hother
    cases h
    exact ⟨fun _ h => absurd h List.not_mem_nil, fun _ => rfl, fun h => absurd h hother,
      fun h => absurd h hother⟩

/-! ## The parts of a view -/

theorem mapM_textOf : ∀ {items : List (JsonValue N)} {texts : List Str},
    items.mapM textOf = some texts → items = texts.map .str
  | [], texts, h => by
    cases h
    rfl
  | v :: items, texts, h => by
    rw [List.mapM_cons] at h
    obtain ⟨s, hs, h⟩ := Option.bind_eq_some_iff.mp h
    obtain ⟨rest, hrest, h⟩ := Option.bind_eq_some_iff.mp h
    cases h
    rw [textOf_eq_some.mp hs, mapM_textOf hrest]
    rfl

theorem fieldsOf_eq_ok {view : List (Str × JsonValue N)} {selectedFields fields : List Str}
    (h : fieldsOf sourceId view selectedFields = .ok fields) :
    (∃ extra, field? view "fields" = some (.arr (fields.map .str) extra)) ∧ fields.length ≤ 8 ∧
      (∀ id ∈ fields, ∃ field ∈ sourceId.fields, units field.id = id) ∧
      List.intercalate [0] selectedFields = List.intercalate [0] fields := by
  unfold fieldsOf at h
  split at h
  · cases h
  rename_i found hfound
  split at h
  · cases h
  rename_i hchecks
  simp only [not_or, Decidable.not_not] at hchecks
  cases h
  obtain ⟨items, hitems, htexts⟩ := Option.bind_eq_some_iff.mp hfound
  obtain ⟨v, hv, harr⟩ := Option.bind_eq_some_iff.mp hitems
  obtain ⟨extra, rfl⟩ := arrayOf_eq_some.mp harr
  refine ⟨⟨extra, by rw [hv, mapM_textOf htexts]⟩, by omega, fun id hid => ?_, hchecks.2.2.2.2.1⟩
  obtain ⟨field, hfield, heq⟩ := List.mem_map.mp (hchecks.2.2.2.1 id hid)
  exact ⟨field, hfield, heq⟩

theorem queryListsOf_eq_ok {view : List (Str × JsonValue N)}
    {lists : List (JsonValue N) × List (JsonValue N)}
    (h : queryListsOf sourceId view = .ok lists) :
    (∃ extra, field? view "filters" = some (.arr lists.1 extra)) ∧
      (∃ extra, field? view "sorts" = some (.arr lists.2 extra)) ∧
      lists.1.length ≤ (if sourceId = .calendar then 6 else 8) ∧ lists.2.length ≤ 2 := by
  unfold queryListsOf at h
  split at h
  · rename_i filters sorts hfilters hsorts
    by_cases hbounds : filters.length > (if sourceId = .calendar then 6 else 8) ∨ sorts.length > 2
    · rw [if_pos hbounds] at h
      cases h
    rw [if_neg hbounds] at h
    cases h
    obtain ⟨v, hv, harr⟩ := Option.bind_eq_some_iff.mp hfilters
    obtain ⟨extra, rfl⟩ := arrayOf_eq_some.mp harr
    obtain ⟨w, hw, harr'⟩ := Option.bind_eq_some_iff.mp hsorts
    obtain ⟨extra', rfl⟩ := arrayOf_eq_some.mp harr'
    rw [gt_iff_lt, gt_iff_lt, not_or, not_lt, not_lt] at hbounds
    exact ⟨⟨extra, hv⟩, ⟨extra', hw⟩, hbounds.1, hbounds.2⟩
  · cases h

theorem pageSizeOf_eq_ok {view : List (Str × JsonValue N)} {size : Numeric N}
    (h : pageSizeOf F sourceId view = .ok size) : IsCount F 100 size := by
  unfold pageSizeOf at h
  split at h
  · split at h
    · rename_i hsize
      cases h
      obtain ⟨k, hk, hbounds⟩ := (Option.any_eq_true _ _).mp hsize
      simp only [positiveSafeInteger, Bool.and_eq_true, decide_eq_true_eq] at hbounds
      exact ⟨k, hk, by omega, hbounds.1.2⟩
    · cases h
  · cases h

/-- The definition takes at most the bytes that its canonical text may take. -/
theorem jsonBytes_definition {definition : JsonValue N} {pageNumber : Numeric N}
    {view : List (Str × JsonValue N)} (hclean : Clean definition)
    (h : definitionOf F definition pageNumber = .ok view) :
    definition = .obj view ∧ IsCount F 1000000 pageNumber ∧ jsonBytes F definition ≤ 16384 := by
  obtain ⟨hpage, hview, text, htext, hbytes⟩ := definitionOf_eq_ok.mp h
  obtain ⟨hobject, -, -⟩ := objectWith_eq_some.mp hview
  refine ⟨hobject, ?_, ?_⟩
  · obtain ⟨k, hk, hbounds⟩ := (Option.any_eq_true _ _).mp hpage
    simp only [positiveSafeInteger, Bool.and_eq_true, decide_eq_true_eq] at hbounds
    exact ⟨k, hk, by omega, hbounds.2⟩
  · unfold canonicalSalesSavedViewJson at htext
    rw [canonicalJson_eq (assertJsonValue_ofParsed definition _ hclean.2)] at htext
    dsimp only at htext
    rw [parse_stringify (normal_norm definition hclean.1)] at htext
    cases htext
    rwa [byteLength_compact_norm F hclean.1] at hbytes

/-! ## The query of a compiled view -/

def CompiledSalesSavedView.page (compiled : CompiledSalesSavedView N) : PageQuery N where
  number := compiled.query.number
  size := compiled.query.size

def CompiledSalesSavedView.controls (compiled : CompiledSalesSavedView N) : Controls N where
  page := some compiled.page
  cursor := none
  filters := compiled.query.filters.map SavedFilter.query
  sort := compiled.query.sort.map SavedSort.query

/-- What holds of a compiled view. -/
structure CompiledFacts (F : Integers N) (sourceId : SourceId) (compiled : CompiledSalesSavedView N) :
    Prop where
  number : IsCount F 1000000 compiled.query.number
  size : IsCount F 100 compiled.query.size
  fieldCount : compiled.selectedFields.length ≤ 8
  fields : ∀ id ∈ compiled.selectedFields, ∃ field ∈ sourceId.fields, units field.id = id
  filterCount : compiled.query.filters.length ≤ 8
  filters : ∀ filter ∈ compiled.query.filters, Admitted sourceId compiled.selectedFields filter
  sortCount : compiled.query.sort.length ≤ 2
  sort : ∀ item ∈ compiled.query.sort, AdmittedSort sourceId compiled.selectedFields item
  sortOnce : (compiled.query.sort.map SavedSort.field).Nodup
  bytes : jsonBytes F (.arr (compiled.selectedFields.map .str) []) +
    jsonBytes F (.arr (compiled.query.filters.map SavedFilter.json) []) +
    jsonBytes F (.arr (compiled.query.sort.map SavedSort.json) []) ≤ 16500

theorem compiledFacts {definition : JsonValue N} (hclean : Clean definition)
    {selectedFields : List Str} {pageNumber : Numeric N}
    {reportingTimezone : Option ReportingTimezone} {compiled : CompiledSalesSavedView N}
    (h : compileSalesSavedViewDefinition F host definition sourceId selectedFields pageNumber
      reportingTimezone = .ok compiled) : CompiledFacts F sourceId compiled := by
  obtain ⟨view, lists, saved, dates, hs⟩ := compile_eq_ok.mp h
  obtain ⟨rfl, hnumber, hbytes⟩ := jsonBytes_definition hclean hs.viewRead
  obtain ⟨⟨extra, hfields⟩, hcount, hdeclared, -⟩ := fieldsOf_eq_ok hs.fieldsRead
  obtain ⟨⟨extra', hfilters⟩, ⟨extra'', hsorts⟩, hfilterCount, hsortCount⟩ :=
    queryListsOf_eq_ok hs.listsRead
  obtain ⟨hadmitted, hlength, hfilterBytes⟩ := compileFilters_eq_ok
    (fun v hv => (hclean.of_field? hfilters).of_item hv) hs.filtersCompiled
  obtain ⟨hsorted, honce, hsortLength, hsortBytes⟩ := compileSorts_eq_ok (F := F) hs.sortCompiled
  have hadded := addedFilters_eq_ok (F := F) hs.datesAdded
  have hquery := hs.queryFilters
  have hdateCount : dates.length = if sourceId = .calendar then 2 else 0 := by
    split
    · exact hadded.two ‹_›
    · rw [hadded.none ‹_›]
      rfl
  have hitems : itemsBytes F (compiled.query.filters.map SavedFilter.json) =
      itemsBytes F (saved.map SavedFilter.json) + itemsBytes F (dates.map SavedFilter.json) := by
    rw [hquery, List.map_append, itemsBytes_eq, List.map_append, List.sum_append, ← itemsBytes_eq,
      ← itemsBytes_eq]
  -- the three lists, and the range of a calendar, are parts of the definition
  have hparts : jsonBytes F (.arr (compiled.selectedFields.map .str) extra) +
      jsonBytes F (.arr lists.1 extra') + jsonBytes F (.arr lists.2 extra'') +
      itemsBytes F (dates.map SavedFilter.json) ≤ 16488 := by
    by_cases hcalendar : sourceId = .calendar
    · obtain ⟨r, hr, hrange⟩ := hadded.bytes hcalendar
      have hsome := @jsonBytes_obj_le _ F [(units "fields", .arr (compiled.selectedFields.map .str) extra),
        (units "filters", .arr lists.1 extra'), (units "sorts", .arr lists.2 extra''),
        (units "calendarRange", r)] view
        (show [units "fields", units "filters", units "sorts", units "calendarRange"].Nodup by decide) (by
          simp only [List.forall_mem_cons, List.not_mem_nil, false_imp_iff, implies_true, and_true]
          exact ⟨mem_of_field? hfields, mem_of_field? hfilters, mem_of_field? hsorts,
            mem_of_field? hr⟩)
      rw [jsonBytes, fieldsBytes, fieldsBytes, fieldsBytes, fieldsBytes, fieldsBytes] at hsome
      omega
    · have hsome := @jsonBytes_obj_le _ F [(units "fields", .arr (compiled.selectedFields.map .str) extra),
        (units "filters", .arr lists.1 extra'), (units "sorts", .arr lists.2 extra'')] view
        (show [units "fields", units "filters", units "sorts"].Nodup by decide) (by
          simp only [List.forall_mem_cons, List.not_mem_nil, false_imp_iff, implies_true, and_true]
          exact ⟨mem_of_field? hfields, mem_of_field? hfilters, mem_of_field? hsorts⟩)
      rw [jsonBytes, fieldsBytes, fieldsBytes, fieldsBytes, fieldsBytes] at hsome
      rw [hadded.none hcalendar, List.map_nil, itemsBytes]
      omega
  have hfilterTotal : compiled.query.filters.length = saved.length + dates.length := by
    rw [hquery, List.length_append]
  refine ⟨hs.queryNumber ▸ hnumber, pageSizeOf_eq_ok hs.sizeRead, hcount, hdeclared, ?_, ?_,
    by omega, fun item hitem => (hsorted item hitem).1, honce, ?_⟩
  · rw [hfilterTotal, hdateCount, hlength]
    split at hfilterCount <;> rename_i hcalendar
    · rw [if_pos hcalendar]
      omega
    · rw [if_neg hcalendar]
      omega
  · rw [hquery]
    intro filter hfilter
    rcases List.mem_append.mp hfilter with hfilter | hfilter
    · exact hadmitted filter hfilter
    · exact hadded.admitted filter hfilter
  · simp only [jsonBytes, List.length_map] at hparts ⊢
    rw [hitems, hfilterTotal, hdateCount, hsortLength, hlength]
    split <;> omega

theorem CompiledFacts.query_json {compiled : CompiledSalesSavedView N}
    (h : CompiledFacts F sourceId compiled) : compiled.query.json =
      offsetJson compiled.page (compiled.query.filters.map SavedFilter.query)
        (compiled.query.sort.map SavedSort.query) := by
  have hfilters : (compiled.query.filters.map SavedFilter.query).map FilterQuery.json =
      compiled.query.filters.map SavedFilter.json := by
    rw [List.map_map]
    exact List.map_congr_left fun filter hfilter => (h.filters filter hfilter).json
  have hsort : (compiled.query.sort.map SavedSort.query).map (@SortQuery.json N) =
      compiled.query.sort.map SavedSort.json := by
    rw [List.map_map]
    exact List.map_congr_left fun item hitem => (h.sort item hitem).json
  unfold offsetJson
  rw [hfilters, hsort]
  rfl

theorem CompiledFacts.filterValid {compiled : CompiledSalesSavedView N}
    (h : CompiledFacts F sourceId compiled) :
    ∀ filter ∈ compiled.query.filters.map SavedFilter.query, filter.Valid := by
  intro filter hfilter
  obtain ⟨saved, hsaved, rfl⟩ := List.mem_map.mp hfilter
  exact (h.filters saved hsaved).valid

/-- The schema accepts the query and returns its controls. -/
theorem CompiledFacts.parsed {compiled : CompiledSalesSavedView N}
    (h : CompiledFacts F sourceId compiled) :
    parseControls F compiled.query.json = some compiled.controls := by
  rw [h.query_json]
  refine parseControls_offset ⟨h.number, h.size, h.filterValid, ?_, ?_, ?_⟩
  · rw [List.length_map]
    exact le_trans h.filterCount (by decide)
  · intro item hitem
    obtain ⟨saved, hsaved, rfl⟩ := List.mem_map.mp hitem
    obtain ⟨field, hfield, hid, -⟩ := (h.sort saved hsaved).sortable
    show isTableFieldId saved.field = true
    rw [← hid]
    exact (field_facts sourceId field hfield).1
  · rw [List.length_map]
    exact le_trans h.sortCount (by decide)

/-! ## The operations that the budget validates -/

theorem validateFilter_admitted {fields : List Str} {filter : SavedFilter N}
    (h : Admitted sourceId fields filter) :
    Query.validateFilter sourceId.descriptor (fields.map characters)
      ⟨characters filter.field, filter.query.operator⟩ = .ok () := by
  obtain ⟨field, hfield, hid, hop⟩ := h.declared
  have hname : characters filter.field = field.id := by
    rw [← hid]
    exact (field_facts sourceId field hfield).2.2
  unfold Query.validateFilter
  refine check_bind_eq_ok.mpr ⟨failIf_eq_ok.mpr ?_, failIf_eq_ok.mpr ?_⟩
  · rw [hname, fieldOf_descriptor sourceId field hfield]
    simpa using hop
  · simpa using ⟨filter.field, h.selected, rfl⟩

theorem validateSorts_admitted {fields : List Str} {sort : List SavedSort}
    (h : ∀ item ∈ sort, AdmittedSort sourceId fields item)
    (honce : (sort.map SavedSort.field).Nodup) :
    ∃ seen, (sort.map fun item => Query.DataSourceSortQuery.mk (characters item.field)).foldlM
      (Query.validateSort sourceId.descriptor (fields.map characters)) [] = .ok seen := by
  have hname : ∀ item ∈ sort, ∃ field ∈ sourceId.fields, units field.id = item.field ∧
      characters item.field = field.id ∧ field.sortable = true := by
    intro item hitem
    obtain ⟨field, hfield, hid, hsortable⟩ := (h item hitem).sortable
    exact ⟨field, hfield, hid, hid ▸ (field_facts sourceId field hfield).2.2, hsortable⟩
  have hdistinct : (sort.map fun item => characters item.field).Nodup := by
    have hmap : sort.map (fun item => characters item.field) =
        (sort.map SavedSort.field).map characters := by rw [List.map_map]; rfl
    rw [hmap]
    refine List.Nodup.map_on (fun x hx y hy hxy => ?_) honce
    obtain ⟨item, hitem, rfl⟩ := List.mem_map.mp hx
    obtain ⟨other, hother, rfl⟩ := List.mem_map.mp hy
    obtain ⟨field, -, hid, hchars, -⟩ := hname item hitem
    obtain ⟨field', -, hid', hchars', -⟩ := hname other hother
    rw [← hid, ← hid', ← hchars, ← hchars', hxy]
  obtain ⟨seen, hseen, -⟩ := foldlM_ok
    (f := Query.validateSort sourceId.descriptor (fields.map characters))
    (P := fun gone seen => ∀ x ∈ seen, x ∈ gone.map Query.DataSourceSortQuery.field)
    (l := sort.map fun item => Query.DataSourceSortQuery.mk (characters item.field)) (s := [])
    (fun x hx => absurd hx List.not_mem_nil) (fun gone item rest seen hl hgone => by
      have hmem : item ∈ sort.map fun item => Query.DataSourceSortQuery.mk (characters item.field) := by
        rw [hl]
        exact List.mem_append_right _ List.mem_cons_self
      obtain ⟨saved, hsaved, rfl⟩ := List.mem_map.mp hmem
      obtain ⟨field, hfield, -, hchars, hsortable⟩ := hname saved hsaved
      have hfresh : characters saved.field ∉ seen := by
        intro hin
        have hnames := congrArg (List.map Query.DataSourceSortQuery.field) hl
        rw [List.map_map, List.map_append, List.map_cons] at hnames
        have hnodup : (gone.map Query.DataSourceSortQuery.field ++ characters saved.field ::
            rest.map Query.DataSourceSortQuery.field).Nodup := hnames ▸ hdistinct
        exact (List.nodup_append.mp hnodup).2.2 _ (hgone _ hin) _ List.mem_cons_self rfl
      refine ⟨JsMap.addSet seen (characters saved.field), ?_, fun x hx => ?_⟩
      · unfold Query.validateSort
        refine check_bind_eq_ok.mpr ⟨failIf_eq_ok.mpr ?_, check_bind_eq_ok.mpr
          ⟨failIf_eq_ok.mpr ?_, rfl⟩⟩
        · dsimp only
          rw [hchars, fieldOf_descriptor sourceId field hfield, ← hchars]
          simp [hsortable, hfresh]
        · simpa using ⟨saved.field, (h saved hsaved).selected, rfl⟩
      · rw [List.map_append, List.mem_append]
        rcases JsMap.mem_addSet.mp hx with hx | rfl
        · exact .inl (hgone x hx)
        · exact .inr (List.mem_singleton_self _))
  exact ⟨seen, hseen⟩

theorem size_toNat {n : Numeric N} {bound : Int} (h : IsCount F bound n) :
    (((F.integerOf n).getD 0).toNat : Int) ≤ bound ∧ 1 ≤ ((F.integerOf n).getD 0).toNat := by
  obtain ⟨k, hk, h₁, h₂⟩ := h
  rw [hk, Option.getD_some]
  omega

theorem CompiledFacts.operations {compiled : CompiledSalesSavedView N}
    (h : CompiledFacts F sourceId compiled) :
    Query.validateOperations sourceId.descriptor (compiled.controls.budgeted F)
      (compiled.selectedFields.map characters) = .ok () := by
  have hfields := h.fieldCount
  have hfilters := h.filterCount
  have hsorts := h.sortCount
  have hsize := size_toNat h.size
  unfold Query.validateOperations
  refine check_bind_eq_ok.mpr ⟨?_, ?_⟩
  · unfold Query.validateLimits
    refine check_bind_eq_ok.mpr ⟨failIf_eq_ok.mpr ?_, check_bind_eq_ok.mpr
      ⟨failIf_eq_ok.mpr ?_, failIf_eq_ok.mpr ?_⟩⟩
    · simp only [SourceId.descriptor, salesSourceLimits, Query.dataSourcePlatformCeilings,
        List.length_map]
      omega
    · simp only [SourceId.descriptor, salesSourceLimits, Query.dataSourcePlatformCeilings,
        Controls.budgeted, CompiledSalesSavedView.controls, List.length_map]
      omega
    · simp only [SourceId.descriptor, salesSourceLimits, Query.dataSourcePlatformCeilings,
        Controls.budgeted, CompiledSalesSavedView.controls, List.length_map]
      omega
  · rw [if_neg (by cases sourceId <;> decide)]
    refine check_bind_eq_ok.mpr ⟨?_, check_bind_eq_ok.mpr ⟨?_, ?_⟩⟩
    · unfold Query.validatePagination
      show (do
        failIf (!sourceId.descriptor.paginationModes.contains Query.PaginationMode.offset) _
        failIf (((F.integerOf compiled.query.size).getD 0).toNat > _ ∨ _) _) = Except.ok ()
      refine check_bind_eq_ok.mpr ⟨failIf_eq_ok.mpr ?_, failIf_eq_ok.mpr ?_⟩
      · cases sourceId <;> decide
      · simp only [SourceId.descriptor, salesSourceLimits, Query.dataSourcePlatformCeilings,
          CompiledSalesSavedView.page]
        omega
    · refine forM_eq_ok.mpr fun filter hfilter => ?_
      simp only [Controls.budgeted, CompiledSalesSavedView.controls, List.map_map] at hfilter
      obtain ⟨saved, hsaved, rfl⟩ := List.mem_map.mp hfilter
      exact validateFilter_admitted (h.filters saved hsaved)
    · obtain ⟨seen, hseen⟩ := validateSorts_admitted h.sort h.sortOnce
      refine bind_eq_ok.mpr ⟨seen, ?_, rfl⟩
      rw [← hseen]
      simp only [Controls.budgeted, CompiledSalesSavedView.controls, List.map_map]
      rfl

end Values

end KNex.Sales.SavedViews
