import KNex.Contracts.CompactJson
import KNex.Core.Except
import KNex.Core.JoinedKeys
import KNex.Core.JsMap
import KNex.Sales.Csv
import Mathlib.Data.List.Dedup

/-!
# The import dry run and the worker (`modules/sales/src/server.ts`, `fixtures/customer-gate-1/src/data-movement-host.ts`)

`parseSalesImportCsv` sorts the data rows of an upload into rows and diagnostics and cuts them into
chunks; the worker checks the mapping and every stored row of a chunk once more, with a validator of
its own (`validImportMapping`, `importValueCode`), and gives the chunk up when a row fails. Both look
at the same texts at different moments: the dry run looks for formulas before it normalises a cell,
the worker afterwards. `Normalization` says what the character tables promise about that; with it
every row that the dry run admits passes the worker (`dryRun_admitted`).
-/
namespace KNex.Sales.ImportDryRun

open KNex.Core KNex.Core.JsonText KNex.Core.TextCoding KNex.Sales.Csv
open KNex.Contracts.CanonicalJson (byteLength)

/-! ## Data -/

inductive Target where
  | lead | account | contact
  deriving DecidableEq, Repr

structure ImportMapping where
  header : Str
  fieldId : Str
  deriving DecidableEq

inductive DiagnosticCode where
  | importRequiredValue
  | importValueInvalid
  deriving DecidableEq, Repr

/-- A value of a stored row; `other` is any that no import writes. -/
inductive ImportScalar where
  | null
  | str (s : Str)
  | num (n : Nat)
  | other
  deriving DecidableEq

abbrev ImportValues := JsMap Str ImportScalar

structure ParsedRow where
  oneBasedDataRow : Nat
  values : ImportValues
  rowDigest : Str

structure Diagnostic where
  oneBasedDataRow : Nat
  code : DiagnosticCode

structure Chunk where
  chunkIndex : Nat
  rowStart : Nat
  rowEndExclusive : Nat

structure DryRun where
  headers : List Str
  rows : List ParsedRow
  diagnostics : List Diagnostic
  chunks : List Chunk
  uploadDigest : Str
  diagnosticDigest : Str
  acceptedRows : Nat
  rejectedRows : Nat

/-- What the platform provides: `String.prototype.normalize("NFC")` and SHA-256 of the canonical
JSON of a record or of bytes. -/
structure Host where
  nfc : Str → Str
  rowDigest : Target → ImportValues → Nat → Str
  uploadDigest : List UInt8 → Str
  diagnosticDigest : List Diagnostic → Str

/-- `=`, `+`, `-` and `@` -/
def isFormulaSign (c : UInt16) : Bool := c == 61 || c == 43 || c == 45 || c == 64

/-- What Unicode says of NFC: it is idempotent; the empty text is normal; white space and control
characters stand first in no composite, so that what follows them is normalised by itself; and no
other text is made to begin with one of them, or with a sign that it did not begin with. -/
structure Normalization (nfc : Str → Str) : Prop where
  idempotent : ∀ s, nfc (nfc s) = nfc s
  nil : nfc [] = []
  blank : ∀ c s, isMovementWhitespace c = true →
    ∃ d, isMovementWhitespace d = true ∧ nfc (c :: s) = d :: nfc s
  other : ∀ c s, isMovementWhitespace c = false →
    ∃ d rest, nfc (c :: s) = d :: rest ∧ isMovementWhitespace d = false ∧
      (isFormulaSign d = true → d = c)

/-! ## Targets -/

/-- mirrors modules/sales/src/server.ts:220-224 (`fields`) -/
def movementFields : Target → List Str
  | .lead => [units "displayName", units "source", units "email", units "phone"]
  | .account => [units "name"]
  | .contact => [units "displayName", units "accountId", units "email", units "phone"]

/-- mirrors modules/sales/src/server.ts:220-224 (`required`) -/
def movementRequired : Target → List Str
  | .lead => [units "displayName", units "source"]
  | .account => [units "name"]
  | .contact => [units "displayName", units "accountId"]

/-- mirrors modules/sales/src/server.ts:225 -/
def protectedImportFields : List Str :=
  ["ownerId", "teamId", "applicationId", "environment", "createdBy", "updatedBy", "audit", "revision",
    "status", "archiveStatus", "mergedIntoId", "mergeLineage"].map units

/-- mirrors fixtures/customer-gate-1/src/data-movement-host.ts:57-61 -/
def importFields : Target → List Str
  | .lead => [units "displayName", units "source", units "email", units "phone"]
  | .account => [units "name"]
  | .contact => [units "displayName", units "accountId", units "email", units "phone"]

/-- mirrors fixtures/customer-gate-1/src/data-movement-host.ts:62-66 -/
def requiredImportFields : Target → List Str
  | .lead => [units "displayName", units "source"]
  | .account => [units "name"]
  | .contact => [units "displayName", units "accountId"]

/-! ## The dry run -/

/-- The bytes after a byte order mark. -/
def withoutBom : List UInt8 → List UInt8
  | 0xef :: 0xbb :: 0xbf :: rest => rest
  | bytes => bytes

/-- `/^[1-9][0-9]{0,15}$/u.test(value)` -/
def accountIdPattern : Str → Bool
  | [] => false
  | c :: rest => 49 ≤ c && c ≤ 57 && rest.length ≤ 15 && rest.all fun d => 48 ≤ d && d ≤ 57

def maxSafeInteger : Nat := 9007199254740991

/-- mirrors modules/sales/src/server.ts:493 -/
def valueLimit (fieldId : Str) : Nat :=
  if fieldId = units "email" then 320 else if fieldId = units "phone" then 64 else 120

variable (host : Host)

/-- mirrors modules/sales/src/server.ts:490-497, one round -/
def mapCell (target : Target) (headers cells : List Str)
    (row : ImportValues × Option DiagnosticCode) (item : ImportMapping) :
    ImportValues × Option DiagnosticCode :=
  let (values, rowCode) := row
  let value := host.nfc ((cells[headers.idxOf item.header]?).getD [])
  if value = [] then
    (values.set item.fieldId .null,
      if item.fieldId ∈ movementRequired target then some .importRequiredValue else rowCode)
  else if item.fieldId = units "accountId" then
    if !accountIdPattern value || decimalValue value > maxSafeInteger then
      (values, some .importValueInvalid)
    else (values.set item.fieldId (.num (decimalValue value)), rowCode)
  else if byteLength value > valueLimit item.fieldId then (values, some .importValueInvalid)
  else (values.set item.fieldId (.str value), rowCode)

structure Sorted where
  rows : List ParsedRow
  diagnostics : List Diagnostic

/-- mirrors modules/sales/src/server.ts:485-501, one round -/
def readRow (target : Target) (mapping : List ImportMapping) (headers : List Str) (s : Sorted)
    (record : List Str × Nat) : Except DataMovementError Sorted := do
  let (cells, oneBasedDataRow) := record
  failIf (cells.length ≠ headers.length) .importInvalidCsv
  failIf (cells.any fun cell => byteLength cell > 16384) .importLimitExceeded
  failIf (cells.any formulaLeading) .importUnsafeFormula
  let (values, rowCode) := mapping.foldl (mapCell host target headers cells) (.empty, none)
  return match rowCode with
    | some code => { s with diagnostics := s.diagnostics ++ [{ oneBasedDataRow, code }] }
    | none => { s with rows := s.rows ++
        [{ oneBasedDataRow, values, rowDigest := host.rowDigest target values oneBasedDataRow }] }

/-- mirrors modules/sales/src/server.ts:502, for `n` data rows -/
def chunksOf (n : Nat) : List Chunk :=
  (List.range ((n + 249) / 250)).map fun chunkIndex =>
    { chunkIndex, rowStart := chunkIndex * 250, rowEndExclusive := min ((chunkIndex + 1) * 250) n }

/-- mirrors modules/sales/src/server.ts:476-479 -/
def checkHeaders (headers : List Str) : Except DataMovementError Unit := do
  failIf (headers.length < 1 ∨ headers.length > 64 ∨ ¬ headers.Nodup ∨
      headers.any fun header => header.isEmpty || byteLength header > 120)
    (if headers.length > 64 then .importLimitExceeded else .importInvalidCsv)
  failIf (headers.any formulaLeading) .importUnsafeFormula

/-- mirrors modules/sales/src/server.ts:480-483 -/
def checkMapping (target : Target) (headers : List Str) (mapping : List ImportMapping) :
    Except DataMovementError Unit := do
  failIf (mapping.length ≠ headers.length ∨ mapping.any fun item => host.nfc item.header != item.header)
    .importMappingInvalid
  let mappedHeaders := mapping.map ImportMapping.header
  let mappedFields := mapping.map ImportMapping.fieldId
  failIf (mappedFields.any protectedImportFields.contains) .importProtectedField
  failIf (mappedHeaders.dedup.length ≠ headers.length ∨ ¬ mappedFields.Nodup ∨
      (headers.any fun header => !mappedHeaders.contains header) ∨
      (mappedFields.any fun field => !(movementFields target).contains field) ∨
      (movementRequired target).any fun field => !mappedFields.contains field)
    .importMappingInvalid

/-- mirrors modules/sales/src/server.ts:475; `TextDecoder` drops a byte order mark as well -/
def decodeUpload (content : List UInt8) : Except DataMovementError Str :=
  match decode (withoutBom content) with
  | some text => .ok text
  | none => .error .importInvalidEncoding

/-- mirrors modules/sales/src/server.ts:471-504 -/
def parseSalesImportCsv (bytes : List UInt8) (target : Target) (mapping : List ImportMapping) :
    Except DataMovementError DryRun := do
  let content := withoutBom bytes
  failIf (content.length > 16777216) .importLimitExceeded
  let text ← decodeUpload content
  let records ← parseRfc4180 text
  failIf (records.length < 2 ∨ records.length > 10001)
    (if records.length > 10001 then .importLimitExceeded else .importInvalidCsv)
  let headers := (records.headD []).map host.nfc
  checkHeaders headers
  checkMapping host target headers mapping
  let sorted ← (records.tail.zipIdx 1).foldlM (readRow host target mapping headers) ⟨[], []⟩
  return {
    headers, rows := sorted.rows, diagnostics := sorted.diagnostics
    chunks := chunksOf (records.length - 1)
    uploadDigest := host.uploadDigest content
    diagnosticDigest := host.diagnosticDigest sorted.diagnostics
    acceptedRows := sorted.rows.length
    rejectedRows := sorted.diagnostics.length }

/-! ## The worker -/

/-- mirrors fixtures/customer-gate-1/src/data-movement-host.ts:70-75; the fields, unless an entry is
refused -/
def mappingFields (target : Target) : List ImportMapping → List Str → List Str → Option (List Str)
  | [], _, fields => some fields
  | { header, fieldId } :: rest, headers, fields =>
    if header.isEmpty || byteLength header > 120 || header != host.nfc header ||
        !(importFields target).contains fieldId || headers.contains header || fields.contains fieldId then
      none
    else mappingFields target rest (headers ++ [header]) (fields ++ [fieldId])

/-- mirrors fixtures/customer-gate-1/src/data-movement-host.ts:67-77 -/
def validImportMapping (target : Target) (value : List ImportMapping) : Bool :=
  if value.length < (requiredImportFields target).length ||
      value.length > (importFields target).length then false
  else
    match mappingFields host target value [] [] with
    | some fields => (requiredImportFields target).all fields.contains
    | none => false

/-- mirrors fixtures/customer-gate-1/src/data-movement-host.ts:88, the class of the expression -/
def isWorkerWhitespace (c : UInt16) : Bool :=
  c ≤ 0x20 || (0x7f ≤ c && c ≤ 0xa0) || c == 0x1680 || (0x2000 ≤ c && c ≤ 0x200a) || c == 0x2028 ||
    c == 0x2029 || c == 0x202f || c == 0x205f || c == 0x3000

def workerFormulaLeading (text : Str) : Bool :=
  match text.dropWhile isWorkerWhitespace with
  | c :: _ => isFormulaSign c
  | [] => false

/-- mirrors fixtures/customer-gate-1/src/data-movement-host.ts:83-89, one round -/
def scalarInvalid (target : Target) (field : Str) (scalar : ImportScalar) : Bool :=
  if !(importFields target).contains field then true
  else if field = units "accountId" then
    match scalar with
    | .num n => n > maxSafeInteger || n < 1
    | _ => true
  else if scalar = .null && (field = units "email" || field = units "phone") then false
  else
    match scalar with
    | .str s => s != host.nfc s || byteLength s > valueLimit field || s.isEmpty ||
        workerFormulaLeading s
    | _ => true

/-- A stored row: its values, if it is an object. -/
abbrev StoredRow := Option ImportValues

/-- mirrors fixtures/customer-gate-1/src/data-movement-host.ts:78-90 -/
def importValueCode (target : Target) (mapping : List ImportMapping) (value : StoredRow) :
    Option DiagnosticCode :=
  match value with
  | none => some .importValueInvalid
  | some record =>
    let keys := sortKeys record.keys
    let expected := sortKeys (mapping.map ImportMapping.fieldId)
    if keys.length != expected.length || keys != expected then some .importValueInvalid
    else if (requiredImportFields target).any fun field =>
        record.get? field == none || record.get? field == some .null then some .importRequiredValue
    else if record.entries.any fun e => scalarInvalid host target e.1 e.2 then
      some .importValueInvalid
    else none

/-- mirrors fixtures/customer-gate-1/src/data-movement-host.ts:567-571; `false` where it throws -/
def chunkAdmitted (target : Target) (mapping : List ImportMapping) (pending : List StoredRow) : Bool :=
  !(validImportMapping host target mapping &&
    pending.any fun row => importValueCode host target mapping row == some .importValueInvalid)

/-! ## Formulas and normalisation -/

section Formulas

variable {nfc : Str → Str} {host}

theorem formulaLeading_blank {c : UInt16} (hc : isMovementWhitespace c = true) (s : Str) :
    formulaLeading (c :: s) = formulaLeading s := by
  unfold formulaLeading
  rw [List.dropWhile_cons_of_pos hc]

theorem formulaLeading_other {c : UInt16} (hc : isMovementWhitespace c = false) (s : Str) :
    formulaLeading (c :: s) = isFormulaSign c := by
  unfold formulaLeading
  rw [List.dropWhile_cons_of_neg (by simp [hc])]
  rfl

/-- Normalising does not make a formula. -/
theorem Normalization.formulaLeading (h : Normalization nfc) : ∀ s : Str,
    formulaLeading (nfc s) = true → formulaLeading s = true
  | [], hs => by
    rw [h.nil] at hs
    exact hs
  | c :: s, hs => by
    cases hc : isMovementWhitespace c with
    | true =>
      obtain ⟨d, hd, heq⟩ := h.blank c s hc
      rw [heq, formulaLeading_blank hd] at hs
      rw [formulaLeading_blank hc]
      exact h.formulaLeading s hs
    | false =>
      obtain ⟨d, rest, heq, hd, hsign⟩ := h.other c s hc
      rw [heq, formulaLeading_other hd] at hs
      rw [formulaLeading_other hc, ← hsign hs]
      exact hs

theorem isWorkerWhitespace_eq (c : UInt16) : isWorkerWhitespace c = isMovementWhitespace c := by
  rw [Bool.eq_iff_iff]
  simp only [isWorkerWhitespace, isMovementWhitespace, Bool.or_eq_true, Bool.and_eq_true,
    decide_eq_true_eq, beq_iff_eq, UInt16.le_iff_toNat_le, ← UInt16.toNat_inj, UInt16.reduceToNat]
  omega

/-- The worker's expression finds the same formulas. -/
theorem workerFormulaLeading_eq (s : Str) : workerFormulaLeading s = formulaLeading s := by
  unfold workerFormulaLeading Csv.formulaLeading
  rw [funext isWorkerWhitespace_eq]
  rfl

end Formulas

/-! ## One cell -/

theorem le_foldl_decimal : ∀ (s : Str) (n : Nat),
    n ≤ s.foldl (fun n c => 10 * n + (c.toNat - 48)) n
  | [], n => le_refl n
  | c :: s, n => by
    have ih := le_foldl_decimal s (10 * n + (c.toNat - 48))
    rw [List.foldl_cons]
    omega

theorem decimalValue_pos {value : Str} (h : accountIdPattern value = true) :
    1 ≤ decimalValue value := by
  cases value with
  | nil => cases h
  | cons c rest =>
    simp only [accountIdPattern, Bool.and_eq_true, decide_eq_true_eq, UInt16.le_iff_toNat_le] at h
    have hc : 49 ≤ c.toNat := h.1.1.1
    have hle := le_foldl_decimal rest (10 * 0 + (c.toNat - 48))
    unfold decimalValue
    rw [List.foldl_cons]
    omega

theorem optional_fields (target : Target) : ∀ field ∈ movementFields target,
    field ∉ movementRequired target → field = units "email" ∨ field = units "phone" := by
  cases target <;> decide

variable {host}

/-- A cell that gives no code gives a value that the worker takes. -/
theorem mapCell_none (hnfc : Normalization host.nfc) {target : Target} {headers cells : List Str}
    (hcells : ∀ cell ∈ cells, formulaLeading cell = false)
    {row : ImportValues × Option DiagnosticCode} {item : ImportMapping}
    (hfield : item.fieldId ∈ movementFields target)
    (h : (mapCell host target headers cells row item).2 = none) :
    row.2 = none ∧ ∃ scalar,
      (mapCell host target headers cells row item).1 = row.1.set item.fieldId scalar ∧
      scalarInvalid host target item.fieldId scalar = false ∧
      (item.fieldId ∈ movementRequired target → scalar ≠ .null) := by
  obtain ⟨values, rowCode⟩ := row
  obtain ⟨raw, hraw⟩ : ∃ raw, raw = (cells[headers.idxOf item.header]?).getD [] := ⟨_, rfl⟩
  have hplain : formulaLeading raw = false := by
    rw [hraw]
    cases hget : cells[headers.idxOf item.header]? with
    | none => rfl
    | some cell => exact hcells cell (List.mem_of_getElem? hget)
  have himport : (importFields target).contains item.fieldId = true :=
    List.contains_iff_mem.mpr (by cases target <;> exact hfield)
  unfold mapCell at h ⊢
  dsimp only at h ⊢
  rw [← hraw] at h ⊢
  unfold scalarInvalid
  rw [himport]
  split at h
  · -- an empty cell, of a field that may be left out
    rename_i hempty
    dsimp only at h
    split at h
    · cases h
    · rename_i hoptional
      rw [if_pos hempty]
      refine ⟨h, .null, rfl, ?_, fun hrequired => absurd hrequired hoptional⟩
      have hne : ∀ field, field = units "email" ∨ field = units "phone" →
          field ≠ units "accountId" := by
        intro field hor
        rcases hor with rfl | rfl <;> decide
      have hor := optional_fields target _ hfield hoptional
      simp [hne _ hor, hor]
  · rename_i hvalue
    rw [if_neg hvalue]
    split at h
    · rename_i haccount
      rw [if_pos haccount]
      split at h
      · cases h
      · rename_i hgood
        rw [if_neg hgood]
        simp only [Bool.or_eq_true, Bool.not_eq_true', decide_eq_true_eq, not_or,
          Bool.not_eq_false] at hgood
        refine ⟨h, _, rfl, ?_, fun _ hnull => by cases hnull⟩
        have hpos := decimalValue_pos hgood.1
        simp [haccount]
        omega
    · rename_i haccount
      rw [if_neg haccount]
      split at h
      · cases h
      · rename_i hsize
        rw [if_neg hsize]
        refine ⟨h, _, rfl, ?_, fun _ hnull => by cases hnull⟩
        have hformula : workerFormulaLeading (host.nfc raw) = false := by
          rw [workerFormulaLeading_eq, ← Bool.not_eq_true]
          intro hlead
          rw [hnfc.formulaLeading raw hlead] at hplain
          cases hplain
        simp [haccount, hnfc.idempotent raw, hformula, hvalue]
        omega

/-! ## One row -/

/-- What the loop over the mapping keeps while it gives no code. -/
structure Mapped (host : Host) (target : Target) (gone : List ImportMapping)
    (values : ImportValues) : Prop where
  keys : values.keys = gone.map ImportMapping.fieldId
  valid : ∀ field scalar, values.get? field = some scalar →
    scalarInvalid host target field scalar = false ∧
      (field ∈ movementRequired target → scalar ≠ .null)

theorem mapped_empty (target : Target) : Mapped host target [] .empty where
  keys := rfl
  valid field scalar h := by
    rw [JsMap.get?_empty] at h
    cases h

theorem Mapped.set {target : Target} {gone : List ImportMapping} {values : ImportValues}
    (h : Mapped host target gone values) {item : ImportMapping} {scalar : ImportScalar}
    (hnew : item.fieldId ∉ gone.map ImportMapping.fieldId)
    (hvalid : scalarInvalid host target item.fieldId scalar = false)
    (hrequired : item.fieldId ∈ movementRequired target → scalar ≠ .null) :
    Mapped host target (gone ++ [item]) (values.set item.fieldId scalar) where
  keys := by
    have hnone : values.get? item.fieldId = none := by
      rw [JsMap.get?_eq_none, h.keys]
      exact hnew
    rw [JsMap.keys_set_of_none hnone, h.keys, List.map_append]
    rfl
  valid field s hs := by
    rw [JsMap.get?_set] at hs
    split at hs
    · rename_i heq
      cases hs
      rw [heq]
      exact ⟨hvalid, hrequired⟩
    · exact h.valid field s hs

theorem mapCells_none (hnfc : Normalization host.nfc) {target : Target} {headers cells : List Str}
    (hcells : ∀ cell ∈ cells, formulaLeading cell = false) {mapping : List ImportMapping}
    (hnodup : (mapping.map ImportMapping.fieldId).Nodup)
    (hfields : ∀ item ∈ mapping, item.fieldId ∈ movementFields target) {values : ImportValues}
    (h : mapping.foldl (mapCell host target headers cells) (.empty, none) = (values, none)) :
    Mapped host target mapping values := by
  have hrule := foldl_rule (f := mapCell host target headers cells) (l := mapping)
    (s := (.empty, none)) (P := fun gone row => row.2 = none → Mapped host target gone row.1)
    (fun _ => mapped_empty target) fun gone item rest row hl hrow hnone => by
      have hitem : item ∈ mapping := by
        rw [hl]
        simp
      obtain ⟨hbefore, scalar, heq, hvalid, hrequired⟩ :=
        mapCell_none hnfc hcells (hfields item hitem) hnone
      rw [heq]
      refine (hrow hbefore).set ?_ hvalid hrequired
      rw [hl, List.map_append, List.map_cons] at hnodup
      intro hmem
      exact (List.nodup_append.mp hnodup).2.2 _ hmem _ List.mem_cons_self rfl
  rw [h] at hrule
  exact hrule rfl

/-- Values that were mapped pass the worker's check. -/
theorem Mapped.importValueCode {target : Target} {mapping : List ImportMapping}
    {values : ImportValues} (h : Mapped host target mapping values)
    (hrequired : ∀ field ∈ movementRequired target, field ∈ mapping.map ImportMapping.fieldId) :
    importValueCode host target mapping (some values) = none := by
  unfold ImportDryRun.importValueCode
  dsimp only
  rw [h.keys, if_neg (by simp), if_neg, if_neg]
  · rw [List.any_eq_true]
    intro ⟨e, he, hbad⟩
    have hgood := (h.valid e.1 e.2 (JsMap.get?_eq_some.mpr he)).1
    rw [hgood] at hbad
    cases hbad
  · rw [List.any_eq_true]
    intro ⟨field, hfield, hbad⟩
    have hmove : field ∈ movementRequired target := by cases target <;> exact hfield
    have hkey : field ∈ values.keys := by
      rw [h.keys]
      exact hrequired field hmove
    obtain ⟨scalar, hget⟩ := JsMap.mem_keys.mp hkey
    have hne := (h.valid field scalar hget).2 hmove
    simp [hget, hne] at hbad

/-! ## The mapping -/

/-- What the dry run asks of headers and mapping. -/
structure Checked (host : Host) (target : Target) (headers : List Str)
    (mapping : List ImportMapping) : Prop where
  header : ∀ item ∈ mapping, item.header ≠ [] ∧ byteLength item.header ≤ 120 ∧
    host.nfc item.header = item.header
  headers : (mapping.map ImportMapping.header).Nodup
  fields : (mapping.map ImportMapping.fieldId).Nodup
  known : ∀ item ∈ mapping, item.fieldId ∈ movementFields target
  required : ∀ field ∈ movementRequired target, field ∈ mapping.map ImportMapping.fieldId

/-- Names that are as many as the headers and have every header among them are headers. -/
theorem mem_headers {headers names : List Str} (hheaders : headers.Nodup)
    (hlen : names.length = headers.length) (hsub : ∀ header ∈ headers, header ∈ names) :
    ∀ name ∈ names, name ∈ headers := by
  have hperm : headers.Perm names :=
    (List.subperm_of_subset hheaders hsub).perm_of_length_le (by omega)
  exact fun name hname => hperm.mem_iff.mpr hname

theorem checked_of_ok {target : Target} {headers : List Str} {mapping : List ImportMapping}
    (hheaders : checkHeaders headers = .ok ()) (hmapping : checkMapping host target headers mapping = .ok ()) :
    Checked host target headers mapping := by
  unfold checkHeaders at hheaders
  unfold checkMapping at hmapping
  dsimp only at hmapping
  simp only [check_bind_eq_ok, failIf_eq_ok, not_or, not_not, List.any_eq_true, not_exists, not_and,
    Bool.or_eq_true, bne_iff_ne, ne_eq, decide_eq_true_eq, Bool.not_eq_true', List.isEmpty_iff,
    List.contains_iff_mem, not_lt, List.forall_mem_map, Bool.not_eq_false] at hheaders hmapping
  obtain ⟨⟨-, -, hnodup, hbounds⟩, -⟩ := hheaders
  obtain ⟨⟨hlen, hnormal⟩, -, hdistinct, hfields, hsub, hknown, hrequired⟩ := hmapping
  have hself : (mapping.map ImportMapping.header).dedup = mapping.map ImportMapping.header := by
    refine (List.dedup_sublist _).eq_of_length ?_
    rw [hdistinct, List.length_map, hlen]
  have hmem := mem_headers hnodup (by rw [List.length_map, hlen]) hsub
  refine ⟨fun item hitem => ?_, List.dedup_eq_self.mp hself, hfields, hknown, hrequired⟩
  obtain ⟨hne, hsize⟩ := hbounds item.header (hmem _ (List.mem_map_of_mem hitem))
  exact ⟨hne, hsize, hnormal item hitem⟩

theorem mappingFields_eq {target : Target} : ∀ {mapping : List ImportMapping} {headers fields : List Str},
    (∀ item ∈ mapping, item.header ≠ [] ∧ byteLength item.header ≤ 120 ∧
      host.nfc item.header = item.header) →
    (∀ item ∈ mapping, item.fieldId ∈ importFields target) →
    (headers ++ mapping.map ImportMapping.header).Nodup →
    (fields ++ mapping.map ImportMapping.fieldId).Nodup →
    mappingFields host target mapping headers fields =
      some (fields ++ mapping.map ImportMapping.fieldId)
  | [], _, _, _, _, _, _ => by simp [mappingFields]
  | item :: mapping, headers, fields, hheader, hknown, hheaders, hfields => by
    obtain ⟨hne, hsize, hnormal⟩ := hheader item List.mem_cons_self
    have hfield := hknown item List.mem_cons_self
    rw [List.map_cons, List.append_cons] at hheaders hfields
    have hnew : item.header ∉ headers := fun hmem =>
      (List.nodup_append.mp (List.nodup_append.mp hheaders).1).2.2 _ hmem _ (by simp) rfl
    have hnew' : item.fieldId ∉ fields := fun hmem =>
      (List.nodup_append.mp (List.nodup_append.mp hfields).1).2.2 _ hmem _ (by simp) rfl
    rw [mappingFields, if_neg (by simp [hne, hsize, hnormal, hfield, hnew, hnew']),
      mappingFields_eq (fun i hi => hheader i (List.mem_cons_of_mem _ hi))
        (fun i hi => hknown i (List.mem_cons_of_mem _ hi)) hheaders hfields]
    simp

/-- **A mapping that the dry run takes is valid for the worker.** -/
theorem Checked.valid {target : Target} {headers : List Str} {mapping : List ImportMapping}
    (h : Checked host target headers mapping) : validImportMapping host target mapping = true := by
  have hknown : ∀ field ∈ mapping.map ImportMapping.fieldId, field ∈ importFields target := by
    intro field hfield
    obtain ⟨item, hitem, rfl⟩ := List.mem_map.mp hfield
    have := h.known item hitem
    cases target <;> exact this
  have hrequired : ∀ field ∈ requiredImportFields target,
      field ∈ mapping.map ImportMapping.fieldId := by
    intro field hfield
    exact h.required field (by cases target <;> exact hfield)
  have hmany : (requiredImportFields target).length ≤ mapping.length := by
    have hnodup : (requiredImportFields target).Nodup := by cases target <;> decide
    have := (List.subperm_of_subset hnodup hrequired).length_le
    rwa [List.length_map] at this
  have hfew : mapping.length ≤ (importFields target).length := by
    have := (List.subperm_of_subset h.fields hknown).length_le
    rwa [List.length_map] at this
  unfold validImportMapping
  rw [if_neg (by simp; omega), mappingFields_eq h.header
    (fun item hitem => hknown _ (List.mem_map_of_mem hitem)) h.headers h.fields]
  dsimp only
  rw [List.all_eq_true]
  exact fun field hfield => List.contains_iff_mem.mpr (hrequired field hfield)

/-! ## All rows -/

/-- What the loop over the records keeps: each index that it has passed is in one of the two lists,
and every row is mapped. -/
structure RowsRead (host : Host) (target : Target) (mapping : List ImportMapping) (gone : List Nat)
    (s : Sorted) : Prop where
  indices : (s.rows.map ParsedRow.oneBasedDataRow ++
    s.diagnostics.map Diagnostic.oneBasedDataRow).Perm gone
  mapped : ∀ row ∈ s.rows, Mapped host target mapping row.values

theorem readRow_step (hnfc : Normalization host.nfc) {target : Target} {headers : List Str}
    {mapping : List ImportMapping} (hchecked : Checked host target headers mapping)
    {gone : List Nat} {s s' : Sorted} (h : RowsRead host target mapping gone s)
    {record : List Str × Nat} (hs : readRow host target mapping headers s record = .ok s') :
    RowsRead host target mapping (gone ++ [record.2]) s' := by
  obtain ⟨cells, index⟩ := record
  unfold readRow at hs
  dsimp only at hs
  simp only [check_bind_eq_ok, failIf_eq_ok] at hs
  obtain ⟨-, -, hformula, hs⟩ := hs
  have hcells : ∀ cell ∈ cells, formulaLeading cell = false := by
    intro cell hcell
    rw [← Bool.not_eq_true]
    exact fun hlead => hformula (List.any_eq_true.mpr ⟨cell, hcell, hlead⟩)
  obtain ⟨⟨values, rowCode⟩, hrow⟩ : ∃ row,
      mapping.foldl (mapCell host target headers cells) (.empty, none) = row := ⟨_, rfl⟩
  rw [hrow] at hs
  cases rowCode with
  | some code =>
    obtain rfl := Except.ok.inj hs
    refine ⟨?_, h.mapped⟩
    rw [List.map_append, ← List.append_assoc]
    exact h.indices.append_right _
  | none =>
    obtain rfl := Except.ok.inj hs
    constructor
    · rw [List.map_append, List.append_assoc]
      refine (List.perm_append_comm.append_left _).trans ?_
      rw [← List.append_assoc]
      exact h.indices.append_right _
    · intro row hmem
      rcases List.mem_append.mp hmem with hmem | hmem
      · exact h.mapped row hmem
      · rw [List.mem_singleton.mp hmem]
        exact mapCells_none hnfc hcells hchecked.fields hchecked.known hrow

theorem readRows (hnfc : Normalization host.nfc) {target : Target} {headers : List Str}
    {mapping : List ImportMapping} (hchecked : Checked host target headers mapping)
    {records : List (List Str × Nat)} {s : Sorted}
    (h : records.foldlM (readRow host target mapping headers) ⟨[], []⟩ = .ok s) :
    RowsRead host target mapping (records.map Prod.snd) s :=
  foldlM_eq_ok (P := fun gone s => RowsRead host target mapping (gone.map Prod.snd) s) h
    ⟨List.Perm.refl _, fun _ hrow => absurd hrow List.not_mem_nil⟩
    fun gone record rest s s' _ hread hs => by
      rw [List.map_append]
      exact readRow_step hnfc hchecked hread hs

/-! ## Chunks -/

/-- The chunks of `n` rows: in order, none empty, none beyond the last row, and each row in one. -/
theorem chunksOf_partition (n : Nat) :
    (chunksOf n).map Chunk.chunkIndex = List.range (chunksOf n).length ∧
    (chunksOf n).Pairwise (fun a b => a.rowEndExclusive ≤ b.rowStart) ∧
    (∀ c ∈ chunksOf n, c.rowStart < c.rowEndExclusive) ∧
    ∀ i, i < n ↔ ∃ c ∈ chunksOf n, c.rowStart ≤ i ∧ i < c.rowEndExclusive := by
  refine ⟨by simp [chunksOf, Function.comp_def], ?_, ?_, ?_⟩
  · unfold chunksOf
    rw [List.pairwise_map]
    refine List.pairwise_lt_range.imp fun {a b} hlt => ?_
    show min ((a + 1) * 250) n ≤ b * 250
    omega
  · intro c hc
    obtain ⟨k, hk, rfl⟩ := List.mem_map.mp hc
    rw [List.mem_range] at hk
    show k * 250 < min ((k + 1) * 250) n
    omega
  · intro i
    constructor
    · intro hi
      refine ⟨_, List.mem_map.mpr ⟨i / 250, List.mem_range.mpr (by omega), rfl⟩, ?_, ?_⟩
      · show i / 250 * 250 ≤ i
        omega
      · show i < min ((i / 250 + 1) * 250) n
        omega
    · rintro ⟨c, hc, -, hlt⟩
      obtain ⟨k, -, rfl⟩ := List.mem_map.mp hc
      have hmin : i < min ((k + 1) * 250) n := hlt
      omega

/-! ## The dry run and the worker agree -/

/-- What a dry run promises about `n` data rows. -/
structure Agrees (host : Host) (target : Target) (mapping : List ImportMapping) (out : DryRun)
    (n : Nat) : Prop where
  counted : out.acceptedRows + out.rejectedRows = n
  /-- Each data row is in one of the two lists, once. -/
  indices : (out.rows.map ParsedRow.oneBasedDataRow ++
    out.diagnostics.map Diagnostic.oneBasedDataRow).Perm (List.range' 1 n)
  /-- The chunks are numbered, and none overlaps another. -/
  numbered : out.chunks.map Chunk.chunkIndex = List.range out.chunks.length
  disjoint : out.chunks.Pairwise fun a b => a.rowEndExclusive ≤ b.rowStart
  nonempty : ∀ c ∈ out.chunks, c.rowStart < c.rowEndExclusive
  covered : ∀ i, i < n ↔ ∃ c ∈ out.chunks, c.rowStart ≤ i ∧ i < c.rowEndExclusive
  mappingValid : validImportMapping host target mapping = true
  valid : ∀ row ∈ out.rows, importValueCode host target mapping (some row.values) = none
  admitted : ∀ c ∈ out.chunks, chunkAdmitted host target mapping
    ((out.rows.filter fun row => c.rowStart < row.oneBasedDataRow ∧
      row.oneBasedDataRow ≤ c.rowEndExclusive).map fun row => some row.values) = true

/-- **What the dry run admits, the worker admits.** -/
theorem dryRun_admitted (hnfc : Normalization host.nfc) (bytes : List UInt8) (target : Target)
    (mapping : List ImportMapping) (out : DryRun)
    (h : parseSalesImportCsv host bytes target mapping = .ok out) :
    ∃ text records, decodeUpload (withoutBom bytes) = .ok text ∧ parseRfc4180 text = .ok records ∧
      Agrees host target mapping out (records.length - 1) := by
  unfold parseSalesImportCsv at h
  dsimp only at h
  simp only [check_bind_eq_ok] at h
  obtain ⟨-, h⟩ := h
  obtain ⟨text, htext, h⟩ := bind_eq_ok.mp h
  obtain ⟨records, hrecords, h⟩ := bind_eq_ok.mp h
  simp only [check_bind_eq_ok] at h
  obtain ⟨-, hheaders, hmapping, h⟩ := h
  obtain ⟨s, hs, h⟩ := bind_eq_ok.mp h
  obtain rfl := Except.ok.inj h
  have hchecked := checked_of_ok hheaders hmapping
  have hread := readRows hnfc hchecked hs
  have hindices : (records.tail.zipIdx 1).map Prod.snd = List.range' 1 (records.length - 1) := by
    rw [List.zipIdx_map_snd, List.length_tail]
  rw [hindices] at hread
  obtain ⟨hnumbered, hdisjoint, hnonempty, hcovered⟩ := chunksOf_partition (records.length - 1)
  have hvalid : ∀ row ∈ s.rows, importValueCode host target mapping (some row.values) = none :=
    fun row hrow => (hread.mapped row hrow).importValueCode hchecked.required
  refine ⟨text, records, htext, hrecords, ?_, hread.indices, hnumbered, hdisjoint, hnonempty,
    hcovered, hchecked.valid, hvalid, ?_⟩
  · have hlen := hread.indices.length_eq
    simpa using hlen
  · intro c _
    unfold chunkAdmitted
    rw [Bool.not_eq_true', ← Bool.not_eq_true, Bool.and_eq_true, List.any_eq_true]
    rintro ⟨-, stored, hstored, hinvalid⟩
    obtain ⟨row, hrow, rfl⟩ := List.mem_map.mp hstored
    rw [hvalid row (List.mem_of_mem_filter hrow)] at hinvalid
    cases hinvalid

/-- A host on whose texts nothing is to normalise. -/
def asciiHost : Host where
  nfc := id
  rowDigest _ _ _ := []
  uploadDigest _ := []
  diagnosticDigest _ := []

theorem asciiHost_normalization : Normalization asciiHost.nfc where
  idempotent _ := rfl
  nil := rfl
  blank c _ hc := ⟨c, hc, rfl⟩
  other c s hc := ⟨c, s, rfl, hc, fun _ => rfl⟩

def accountCsv : Str := units "Name\r\nAcme\r\n"

theorem decodeUpload_accountCsv : decodeUpload (withoutBom (encode accountCsv)) = .ok accountCsv := by
  have hbom : withoutBom (encode accountCsv) = encode accountCsv := by decide
  unfold decodeUpload
  rw [hbom, hbom, decode_encode (by decide)]

theorem accountCsv_accepted : ∃ out, parseSalesImportCsv asciiHost (encode accountCsv) .account
    [⟨units "Name", units "name"⟩] = .ok out := by
  have hok : (parseSalesImportCsv asciiHost (encode accountCsv) .account
      [⟨units "Name", units "name"⟩]).isOk = true := by
    unfold parseSalesImportCsv
    dsimp only
    rw [decodeUpload_accountCsv]
    decide +kernel
  revert hok
  generalize parseSalesImportCsv asciiHost _ _ _ = result
  intro hok
  cases result with
  | error e => cases hok
  | ok out => exact ⟨out, rfl⟩

/-- One account by its name. -/
theorem dryRun_admitted_account :
    validImportMapping asciiHost .account [⟨units "Name", units "name"⟩] = true ∧
      ∃ out, parseSalesImportCsv asciiHost (encode accountCsv) .account
        [⟨units "Name", units "name"⟩] = .ok out := by
  obtain ⟨out, hout⟩ := accountCsv_accepted
  obtain ⟨_, _, _, _, hagrees⟩ := dryRun_admitted asciiHost_normalization _ _ _ out hout
  exact ⟨hagrees.mappingValid, out, hout⟩

end KNex.Sales.ImportDryRun
