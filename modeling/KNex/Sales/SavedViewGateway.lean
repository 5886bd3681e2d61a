import KNex.Core.JoinedKeys
import KNex.Sales.SavedViewAdmission

/-!
# Execution of saved views at the gateway (`modules/sales/src/server.ts`)

The gateway is asked for the compiled query with the compiled fields selected and the binding of the
view as input. The schema of query controls returns the query, and the budget refuses it for its
caller or the load only (`compiled_admitted`).
-/
namespace KNex.Sales.SavedViews

open KNex.Core KNex.Core.JsonText KNex.Core.TextCoding KNex.Contracts.CanonicalJson
  KNex.Sales.CalendarRange KNex.Runtime.CallBudget KNex.Runtime.QueryControls

/-! ## The binding of a view -/

section Values

variable {N : Type}

structure BindingInput (N : Type) where
  savedViewId : Numeric N
  expectedRevision : Numeric N

/-- `none` where it throws.
mirrors modules/sales/src/contracts.ts:366-372 -/
def parseSalesSavedViewBindingInput (F : Integers N) (value : JsonValue N) :
    Option (Option (BindingInput N)) :=
  match value with
  | .obj fields =>
    let keys := keyText (fields.map Prod.fst)
    if keys = [] then some none
    else
      match field? fields "saved-view-id", field? fields "expected-revision" with
      | some (.num savedViewId), some (.num expectedRevision) =>
        if keys = units "expected-revision" ++ 0 :: units "saved-view-id" ∧
            (F.integerOf savedViewId).any positiveSafeInteger ∧
            (F.integerOf expectedRevision).any positiveSafeInteger then
          some (some { savedViewId, expectedRevision })
        else none
      | _, _ => none
  | _ => none

theorem length_intercalate_succ : ∀ {keys : List Str}, keys ≠ [] →
    (List.intercalate [0] keys).length + 1 = (keys.map fun key => key.length + 1).sum
  | [], h => absurd rfl h
  | [key], _ => by simp [List.intercalate]
  | key :: key' :: keys, _ => by
    have ih := length_intercalate_succ (List.cons_ne_nil key' keys)
    rw [List.intercalate_cons_cons, List.map_cons, List.sum_cons, ← ih]
    simp only [List.length_append, List.length_singleton]
    omega

/-- Two keys of the length of the joined keys are all the keys. -/
theorem fields_of_two {fields : List (Str × JsonValue N)} {key key' : String} {v w : JsonValue N}
    (hne : units key ≠ units key')
    (hv : field? fields key = some v) (hw : field? fields key' = some w)
    (hlength : (keyText (fields.map Prod.fst)).length =
      (units key).length + (units key').length + 1) :
    fields.Perm [(units key, v), (units key', w)] := by
  have hpair : ([(units key, v), (units key', w)].map Prod.fst).Nodup := by
    simpa using hne
  have hboth : [(units key, v), (units key', w)] ⊆ fields := by
    simp only [List.subset_def, List.forall_mem_cons, List.not_mem_nil, false_imp_iff, implies_true,
      and_true]
    exact ⟨mem_of_field? hv, mem_of_field? hw⟩
  obtain ⟨l, hperm, hsub⟩ := List.subperm_of_subset hpair.of_map hboth
  obtain ⟨rest, hrest⟩ := hsub.exists_perm_append
  have hall : fields.Perm ([(units key, v), (units key', w)] ++ rest) :=
    hrest.trans (hperm.append_right rest)
  have hkeys := (sortKeys_perm (fields.map Prod.fst)).trans (hall.map Prod.fst)
  have hnonempty : sortKeys (fields.map Prod.fst) ≠ [] := by
    intro hnil
    rw [hnil] at hkeys
    cases hkeys.nil_eq
  -- each key takes one more than its length in the joined keys
  have hsum := length_intercalate_succ hnonempty
  unfold keyText at hlength
  rw [hlength, (hkeys.map fun k => k.length + 1).sum_eq] at hsum
  simp only [List.map_cons, List.cons_append, List.nil_append, List.sum_cons, List.map_map] at hsum
  cases rest with
  | nil => exact hall
  | cons f rest =>
    simp only [List.map_cons, List.sum_cons, Function.comp_apply] at hsum
    omega

theorem jsonBytes_count {F : DecimalIntegers N} {bound : Int} {n : Numeric N}
    (h : IsCount F.toIntegers bound n) (width : Nat) (hwidth : 0 < width)
    (hbound : bound < (10 ^ width : Nat)) : jsonBytes F.toIntegers (.num n) ≤ width := by
  obtain ⟨k, hk, h₁, h₂⟩ := h
  refine DecimalIntegers.jsonBytes_num (k := k.toNat) ?_ hwidth ?_
  · rw [hk, Int.toNat_of_nonneg (by omega)]
  · omega

theorem isCount_of_positive {F : Integers N} {n : Numeric N}
    (h : (F.integerOf n).any positiveSafeInteger = true) : IsCount F 9007199254740991 n := by
  obtain ⟨k, hk, hpositive⟩ := (Option.any_eq_true _ _).mp h
  simp only [positiveSafeInteger, Bool.and_eq_true, decide_eq_true_eq] at hpositive
  exact ⟨k, hk, by omega, hpositive.2⟩

/-- The two numbers of an exact binding, and how deep and long it is at most. -/
theorem bindingInput_bounds {F : DecimalIntegers N} {input : JsonValue N} {binding : BindingInput N}
    (h : parseSalesSavedViewBindingInput F.toIntegers input = some (some binding)) :
    jsonDepth (shape input) ≤ 1 ∧ jsonBytes F.toIntegers input ≤ 71 := by
  unfold parseSalesSavedViewBindingInput at h
  split at h
  · rename_i fields
    dsimp only at h
    split at h
    · cases h
    split at h
    · rename_i savedViewId expectedRevision hid hrevision
      split at h
      · rename_i hchecks
        obtain ⟨hkeys, hpositive, hpositive'⟩ := hchecks
        have hperm := fields_of_two (by decide) hid hrevision (by rw [hkeys]; decide)
        constructor
        · refine depth_obj_le fun f hf => ?_
          rcases List.mem_cons.mp (hperm.mem_iff.mp hf) with rfl | hf
          · exact le_rfl
          · rw [List.mem_singleton.mp hf]
            exact le_rfl
        · have h₁ := jsonBytes_count (isCount_of_positive hpositive) 16 (by decide) (by decide)
          have h₂ := jsonBytes_count (isCount_of_positive hpositive') 16 (by decide) (by decide)
          have h₃ : byteLength (quote (units "saved-view-id")) = 15 := by decide
          have h₄ : byteLength (quote (units "expected-revision")) = 19 := by decide
          rw [jsonBytes, fieldsBytes_eq, (hperm.map _).sum_eq, hperm.length_eq]
          simp only [List.map_cons, List.map_nil, List.sum_cons, List.sum_nil, fieldBytes, h₃, h₄,
            List.length_cons, List.length_nil]
          omega
      · cases h
    · cases h
  · cases h

/-! ## The request -/

/-- The gateway is asked for the compiled query, with the compiled fields authorised. -/
def CompiledSalesSavedView.request (compiled : CompiledSalesSavedView N) (sourceId : SourceId)
    (aborted : Bool) (input : JsonValue N) (actor : Query.DataSourceActorContext) :
    GatewayQuery N where
  aborted := aborted
  input := input
  query := compiled.query.json
  descriptor := sourceId.descriptor
  selectedFields := compiled.selectedFields
  actor := actor

section Request

variable {F : DecimalIntegers N} {sourceId : SourceId} {compiled : CompiledSalesSavedView N}
  {input : JsonValue N}

theorem CompiledFacts.controls_json (h : CompiledFacts F.toIntegers sourceId compiled) :
    compiled.controls.json = .obj [(units "page", compiled.page.json),
      (units "filters", .arr (compiled.query.filters.map SavedFilter.json) []),
      (units "sort", .arr (compiled.query.sort.map SavedSort.json) [])] := by
  have hfilters : (compiled.query.filters.map SavedFilter.query).map FilterQuery.json =
      compiled.query.filters.map SavedFilter.json := by
    rw [List.map_map]
    exact List.map_congr_left fun filter hfilter => (h.filters filter hfilter).json
  have hsort : (compiled.query.sort.map SavedSort.query).map (@SortQuery.json N) =
      compiled.query.sort.map SavedSort.json := by
    rw [List.map_map]
    exact List.map_congr_left fun item hitem => (h.sort item hitem).json
  rw [← hfilters, ← hsort]
  rfl

theorem CompiledFacts.depth (h : CompiledFacts F.toIntegers sourceId compiled) (aborted : Bool)
    (actor : Query.DataSourceActorContext) (hinput : jsonDepth (shape input) ≤ 1) :
    jsonDepth (shape ((compiled.request sourceId aborted input actor).body compiled.controls)) ≤ 5 := by
  refine depth_obj_le fun f hf => ?_
  rcases List.mem_cons.mp hf with rfl | hf
  · exact le_trans hinput (by decide)
  rcases List.mem_cons.mp hf with rfl | hf
  · exact depth_offset h.filterValid
  · rw [List.mem_singleton.mp hf]
    refine le_trans (depth_arr_le (n := 0) fun v hv => ?_) (by decide)
    obtain ⟨id, -, rfl⟩ := List.mem_map.mp hv
    exact le_rfl

theorem CompiledFacts.bodyBytes (h : CompiledFacts F.toIntegers sourceId compiled) (aborted : Bool)
    (actor : Query.DataSourceActorContext) (hinput : jsonBytes F.toIntegers input ≤ 71) :
    jsonBytes F.toIntegers ((compiled.request sourceId aborted input actor).body compiled.controls) ≤
      32768 := by
  have hbytes := h.bytes
  have hnumber := jsonBytes_count h.number 7 (by decide) (by decide)
  have hsize := jsonBytes_count h.size 3 (by decide) (by decide)
  have h₁ : byteLength (quote (units "input")) = 7 := by decide
  have h₂ : byteLength (quote (units "query")) = 7 := by decide
  have h₃ : byteLength (quote (units "selectedFields")) = 16 := by decide
  have h₄ : byteLength (quote (units "page")) = 6 := by decide
  have h₅ : byteLength (quote (units "filters")) = 9 := by decide
  have h₆ : byteLength (quote (units "sort")) = 6 := by decide
  have h₇ : byteLength (quote (units "number")) = 8 := by decide
  have h₈ : byteLength (quote (units "size")) = 6 := by decide
  have hpage : jsonBytes F.toIntegers compiled.page.json ≤ 29 := by
    show jsonBytes F.toIntegers (.obj [(units "number", .num compiled.query.number),
      (units "size", .num compiled.query.size)]) ≤ 29
    rw [jsonBytes]
    simp only [fieldsBytes, List.length_cons, List.length_nil, h₇, h₈]
    omega
  unfold GatewayQuery.body
  rw [h.controls_json]
  show jsonBytes F.toIntegers (.obj [(units "input", input), (units "query", _),
    (units "selectedFields", .arr (compiled.selectedFields.map .str) [])]) ≤ _
  rw [jsonBytes, fieldsBytes, fieldsBytes, fieldsBytes, fieldsBytes, jsonBytes.eq_def _ (.obj _)]
  dsimp only
  simp only [fieldsBytes, List.length_cons, List.length_nil, h₁, h₂, h₃, h₄, h₅, h₆]
  omega

theorem CompiledFacts.cost (h : CompiledFacts F.toIntegers sourceId compiled) :
    Query.queryCost sourceId.descriptor (compiled.controls.budgeted F.toIntegers)
      (compiled.selectedFields.map characters) ≤ 100 := by
  have hfields := h.fieldCount
  have hfilters := h.filterCount
  have hsorts := h.sortCount
  have hsize := size_toNat h.size
  unfold Query.queryCost
  simp only [SourceId.descriptor, salesSourceLimits, classCeilings, Controls.budgeted,
    CompiledSalesSavedView.controls, CompiledSalesSavedView.page,
    Query.DataSourceQueryControls.pagination, List.length_map, Option.map_some, Option.some_or]
  omega

/-! ## The budget -/

/-- The errors that do not come from the query. -/
def callerErrors : List Query.ErrorCode :=
  [.queryCancelled, .invalidActorContext, .queryConcurrencyExceeded, .queryRateExceeded]

/-- Where the operations, the depth, the bytes and the cost are within the bounds, the budget refuses
for the caller or the load only. -/
theorem evaluate_error {jsonBytes : Json → Nat} {call : Query.Call} {now : ℚ} {m : Meter}
    {controls : Query.DataSourceQueryControls} (hcontrols : call.controls = some controls)
    (hoperations : Query.validateOperations call.descriptor controls call.selectedFields = .ok ())
    (hdepth : jsonDepth call.body ≤ call.descriptor.limits.maxDepth ∧
      jsonDepth call.body ≤ Query.dataSourcePlatformCeilings.depth)
    (hbytes : jsonBytes call.body ≤ call.descriptor.limits.maxBodyBytes)
    (hcost : Query.queryCost call.descriptor controls call.selectedFields ≤
      call.descriptor.limits.maxCost) {e : Query.DataSourceGatewayError}
    (h : (Query.evaluate jsonBytes call now m).2 = .error e) : e.code ∈ callerErrors := by
  unfold Query.evaluate at h
  split at h
  · rename_i e' hcheck
    obtain rfl : e = e' := (Except.error.inj h).symm
    unfold Query.check at hcheck
    rw [hcontrols] at hcheck
    by_contra hcode
    have hne : ∀ code ∈ callerErrors, ∀ status detail,
        Query.DataSourceGatewayError.mk code status detail ≠ e := by
      rintro code hmem status detail rfl
      exact hcode hmem
    have hpassed : ∀ {condition : Prop} [Decidable condition] {error : Query.DataSourceGatewayError},
        ¬ condition → failIf condition error ≠ .error e := by
      intro condition _ error hnot
      unfold failIf
      rw [if_neg hnot]
      exact fun h => by cases h
    refine bind_ne_error (failIf_ne_error (hne _ (by decide) _ _)) (fun _ _ => ?_) hcheck
    refine bind_ne_error (hoperations ▸ fun h => by cases h) fun _ _ => ?_
    refine bind_ne_error (hpassed (by omega)) fun _ _ => ?_
    refine bind_ne_error (hpassed (by omega)) fun _ _ => ?_
    refine bind_ne_error (hpassed (by omega)) fun _ _ => ?_
    refine bind_ne_error (failIf_ne_error (hne _ (by decide) _ _)) fun _ _ => ?_
    refine bind_ne_error (failIf_ne_error (hne _ (by decide) _ _)) fun _ _ => ?_
    exact fun h => by cases h
  · dsimp only at h
    split at h
    · cases h
    · cases h
      decide

end Request

/-! ## The equality check of the execution -/

/-- Whether the definition compiles to the controls that the execution was asked for.
mirrors modules/sales/src/server.ts:2318-2320 -/
def compilesTo (F : Integers N) (host : Host) (definition : JsonValue N) (sourceId : SourceId)
    (selectedFields : List Str) (controls : Controls N)
    (reportingTimezone : Option ReportingTimezone) : Bool :=
  match controls.page with
  | none => false
  | some page =>
    match compileSalesSavedViewDefinition F host definition sourceId selectedFields page.number
      reportingTimezone with
    | .error _ => false
    | .ok compiled =>
      match canonicalJson F.toNumberFormat (ofParsed compiled.query.json),
        canonicalJson F.toNumberFormat (ofParsed controls.json) with
      | .ok text, .ok text' => text = text'
      | _, _ => false

theorem CompiledFacts.canonical {F : Integers N} {sourceId : SourceId}
    {compiled : CompiledSalesSavedView N} (h : CompiledFacts F sourceId compiled) :
    ∃ text, canonicalJson F.toNumberFormat (ofParsed compiled.query.json) = .ok text ∧
      canonicalJson F.toNumberFormat (ofParsed compiled.controls.json) = .ok text := by
  have hsame := canonicalJson_offset compiled.page (compiled.query.sort.map SavedSort.query)
    h.filterValid (G := F.toNumberFormat)
  have htext := canonicalJson_eq (F := F.toNumberFormat) (assertJsonValue_ofParsed _ (units "$")
    (noStray_offset compiled.page (compiled.query.sort.map SavedSort.query) h.filterValid))
  rw [h.query_json]
  exact ⟨_, htext, hsame ▸ htext⟩

/-- **A view that compiled is always admitted.** The schema of query controls accepts its query and
returns it canonically unchanged, and the definition compiles to these controls again, as it does to
those of every other page; with a binding as input, the budget refuses the query only for a
cancellation, an invalid actor, the concurrency or the rate. -/
theorem compiled_admitted {F : DecimalIntegers N} {host : Host} {definition : JsonValue N}
    (hclean : Clean definition) {sourceId : SourceId} {selectedFields : List Str}
    {pageNumber : Numeric N} {reportingTimezone : Option ReportingTimezone}
    {compiled : CompiledSalesSavedView N}
    (h : compileSalesSavedViewDefinition F.toIntegers host definition sourceId selectedFields
      pageNumber reportingTimezone = .ok compiled) :
    (∃ controls, parseControls F.toIntegers compiled.query.json = some controls ∧
      canonicalJson F.toNumberFormat (ofParsed controls.json) =
        canonicalJson F.toNumberFormat (ofParsed compiled.query.json) ∧
      compilesTo F.toIntegers host definition sourceId compiled.selectedFields controls
        reportingTimezone = true) ∧
    (∀ aborted input binding actor now m e,
      parseSalesSavedViewBindingInput F.toIntegers input = some (some binding) →
      ((compiled.request sourceId aborted input actor).evaluate F.toIntegers now m).2 = .error e →
        e.code ∈ callerErrors) ∧
    ∀ number, IsCount F.toIntegers 1000000 number →
      compileSalesSavedViewDefinition F.toIntegers host definition sourceId compiled.selectedFields
        number reportingTimezone = .ok { compiled with query := { compiled.query with number } } := by
  have hfacts := compiledFacts hclean h
  have hpages : ∀ number, IsCount F.toIntegers 1000000 number →
      compileSalesSavedViewDefinition F.toIntegers host definition sourceId compiled.selectedFields
        number reportingTimezone = .ok { compiled with query := { compiled.query with number } } := by
    intro number ⟨k, hk, h₁, h₂⟩
    obtain ⟨view, lists, filters, dates, hs⟩ := compile_eq_ok.mp h
    obtain ⟨-, -, -, hsame⟩ := fieldsOf_eq_ok hs.fieldsRead
    refine compile_page h hsame.symm ?_
    rw [hk]
    simp only [Option.any_some, positiveSafeInteger, Bool.and_eq_true, decide_eq_true_eq]
    omega
  obtain ⟨text, htext, htext'⟩ := hfacts.canonical
  refine ⟨⟨compiled.controls, hfacts.parsed, htext'.trans htext.symm, ?_⟩, ?_, hpages⟩
  · have hagain := hpages compiled.query.number hfacts.number
    unfold compilesTo
    show (match compileSalesSavedViewDefinition F.toIntegers host definition sourceId
      compiled.selectedFields compiled.query.number reportingTimezone with
      | .error _ => false
      | .ok compiled' => _) = true
    rw [hagain]
    dsimp only
    rw [htext, htext']
    exact decide_eq_true rfl
  · intro aborted input binding actor now m e hbinding herror
    obtain ⟨hdepth, hbytes⟩ := bindingInput_bounds hbinding
    have hparsed := hfacts.parsed
    have hcall : (compiled.request sourceId aborted input actor).call F.toIntegers =
        { aborted, controls := some (compiled.controls.budgeted F.toIntegers)
          descriptor := sourceId.descriptor
          selectedFields := compiled.selectedFields.map characters
          body := shape ((compiled.request sourceId aborted input actor).body compiled.controls)
          actor } := by
      unfold GatewayQuery.call
      show Query.Call.mk _ ((parseControls F.toIntegers compiled.query.json).map _) _ _
        (((parseControls F.toIntegers compiled.query.json).map _).getD .null) _ = _
      rw [hparsed]
      rfl
    unfold GatewayQuery.evaluate at herror
    rw [hcall] at herror
    refine evaluate_error rfl hfacts.operations ?_ ?_ hfacts.cost herror
    · have hdeep := hfacts.depth aborted actor hdepth
      exact ⟨le_trans hdeep (show 5 ≤ 6 by decide), le_trans hdeep (show 5 ≤ 8 by decide)⟩
    · show ((parseControls F.toIntegers compiled.query.json).map _).getD 0 ≤ _
      rw [hparsed]
      exact hfacts.bodyBytes aborted actor hbytes

end Values

/-! ## A view of accounts -/

/-- Numbers that are natural. -/
def naturalNumbers : DecimalIntegers Nat where
  toNumberFormat := naturals
  one := 1
  integer n := some n
  integer_zero := rfl
  integer_one := rfl
  natural_text n k h := by
    rw [show n = k from Int.ofNat.inj (Option.some.inj h)]
    rfl

def noHost : Host where
  dateParse _ := none
  toISOString _ := []
  intl _ := none

def textValue (s : String) : JsonValue Nat := .str (units s)

def accountsView : JsonValue Nat :=
  .obj [(units "kind", textValue "table"),
    (units "targetObjectId", textValue "sales.object.account"),
    (units "source", .obj [(units "id", textValue SourceId.table.text),
      (units "version", .num (.finite 1)),
      (units "sourceSchema", .obj [(units "id", textValue SourceId.table.schemaText),
        (units "version", .num (.finite 1))]),
      (units "structuralCompatibilityHash",
        textValue SourceId.table.structuralCompatibilityHash)]),
    (units "fields", .arr [textValue "name", textValue "revision"] []),
    (units "filters", .arr [.obj [(units "fieldId", textValue "name"),
      (units "operator", textValue "in"), (units "value", .arr [textValue "a", textValue "b"] [])]] []),
    (units "sorts", .arr [.obj [(units "fieldId", textValue "revision"),
      (units "direction", textValue "asc")]] []),
    (units "presentation", .obj [(units "density", textValue "compact")]),
    (units "pageSize", .num (.finite 25))]

theorem accountsView_clean : Clean accountsView := by
  unfold accountsView Clean
  simp only [Distinct, DistinctFields, DistinctItems, NoStray, NoStrayFields, NoStrayItems,
    textValue, List.map_cons, List.map_nil, and_true, true_and]
  decide

theorem accountsView_compiles : ∃ compiled, compileSalesSavedViewDefinition
    naturalNumbers.toIntegers noHost accountsView .table [units "name", units "revision"] (.finite 3)
    none = .ok compiled := by
  have hreturns : (compileSalesSavedViewDefinition naturalNumbers.toIntegers noHost accountsView
    .table [units "name", units "revision"] (.finite 3) none).isOk = true := by decide +kernel
  cases hcompile : compileSalesSavedViewDefinition naturalNumbers.toIntegers noHost accountsView
    .table [units "name", units "revision"] (.finite 3) none with
  | ok compiled => exact ⟨compiled, rfl⟩
  | error e =>
    rw [hcompile] at hreturns
    cases hreturns

theorem compiled_admitted_accounts : ∃ (compiled : CompiledSalesSavedView Nat) (controls : Controls Nat),
    parseControls naturalNumbers.toIntegers compiled.query.json = some controls ∧
      compilesTo naturalNumbers.toIntegers noHost accountsView .table compiled.selectedFields controls
        none = true := by
  obtain ⟨compiled, hcompiled⟩ := accountsView_compiles
  obtain ⟨⟨controls, hcontrols, -, hequal⟩, -⟩ := compiled_admitted accountsView_clean hcompiled
  exact ⟨compiled, controls, hcontrols, hequal⟩

end KNex.Sales.SavedViews
