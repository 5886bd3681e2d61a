import KNex.Contracts.ParsedJson
import KNex.Core.Rfc4180

/-!
# The CSV codec of data movement (`modules/sales/src/server.ts`)

`parseRfc4180` is one loop over the code units with two flags and one unit of look-ahead.
`readRfc4180_sound` says what stands before and behind the point it has reached, in each of its
modes, so that it accepts exactly the documents of the grammar (`parseRfc4180_iff`).
`buildSalesExportCsv` writes such a document and puts an apostrophe before every data cell that a
spreadsheet would take for a formula.
-/
namespace KNex.Sales.Csv

open KNex.Core KNex.Core.JsonText KNex.Core.TextCoding KNex.Core.Rfc4180
open KNex.Contracts.CanonicalJson (Whole whole_literal)

/-- The codes of `SalesDataMovementError` that are thrown for a text. -/
inductive DataMovementError where
  | importLimitExceeded
  | importInvalidEncoding
  | importInvalidCsv
  | importUnsafeFormula
  | importMappingInvalid
  | importProtectedField
  deriving DecidableEq, Repr

/-! ## Reading -/

structure Reader where
  records : List (List Str)
  record : List Str
  cell : Str
  quoted : Bool
  afterQuote : Bool

/-- mirrors modules/sales/src/server.ts:448-465 -/
def readRfc4180 : Reader → Str → Except DataMovementError (List (List Str))
  | r, [] =>
    if r.quoted || r.record != [] || r.cell != [] || r.afterQuote then .error .importInvalidCsv
    else .ok r.records
  | r, c :: rest =>
    if r.quoted then
      if c = 34 then
        match rest with
        | d :: rest' =>
          if d = 34 then readRfc4180 { r with cell := r.cell ++ [34] } rest'
          else readRfc4180 { r with quoted := false, afterQuote := true } (d :: rest')
        | [] => readRfc4180 { r with quoted := false, afterQuote := true } []
      else readRfc4180 { r with cell := r.cell ++ [c] } rest
    else if r.afterQuote && c != 44 && c != 13 then .error .importInvalidCsv
    else if c = 34 then
      if r.cell != [] || r.afterQuote then .error .importInvalidCsv
      else readRfc4180 { r with quoted := true } rest
    else if c = 44 then
      readRfc4180 { r with record := r.record ++ [r.cell], cell := [], afterQuote := false } rest
    else if c = 13 then
      match rest with
      | d :: rest' =>
        if d = 10 then
          readRfc4180
            { r with records := r.records ++ [r.record ++ [r.cell]], record := [], cell := [],
                     afterQuote := false } rest'
        else .error .importInvalidCsv
      | [] => .error .importInvalidCsv
    else if c = 10 then .error .importInvalidCsv
    else if r.afterQuote then .error .importInvalidCsv
    else readRfc4180 { r with cell := r.cell ++ [c] } rest

/-- The loop on one code unit. -/
theorem readRfc4180_cons (r : Reader) (c : UInt16) (rest : Str) : readRfc4180 r (c :: rest) =
    if r.quoted then
      if c = 34 then
        match rest with
        | d :: rest' =>
          if d = 34 then readRfc4180 { r with cell := r.cell ++ [34] } rest'
          else readRfc4180 { r with quoted := false, afterQuote := true } (d :: rest')
        | [] => readRfc4180 { r with quoted := false, afterQuote := true } []
      else readRfc4180 { r with cell := r.cell ++ [c] } rest
    else if r.afterQuote && c != 44 && c != 13 then .error .importInvalidCsv
    else if c = 34 then
      if r.cell != [] || r.afterQuote then .error .importInvalidCsv
      else readRfc4180 { r with quoted := true } rest
    else if c = 44 then
      readRfc4180 { r with record := r.record ++ [r.cell], cell := [], afterQuote := false } rest
    else if c = 13 then
      match rest with
      | d :: rest' =>
        if d = 10 then
          readRfc4180
            { r with records := r.records ++ [r.record ++ [r.cell]], record := [], cell := [],
                     afterQuote := false } rest'
        else .error .importInvalidCsv
      | [] => .error .importInvalidCsv
    else if c = 10 then .error .importInvalidCsv
    else if r.afterQuote then .error .importInvalidCsv
    else readRfc4180 { r with cell := r.cell ++ [c] } rest := by
  rw [readRfc4180.eq_def]
  rfl

/-- mirrors modules/sales/src/server.ts:446-468 -/
def parseRfc4180 (text : Str) : Except DataMovementError (List (List Str)) :=
  readRfc4180 { records := [], record := [], cell := [], quoted := false, afterQuote := false } text

/-! ## What was read is a document -/

/-- What follows the text of a field: the rest of its record, and the records behind it. -/
inductive Tail : Str → List Str → List (List Str) → Prop
  | comma {text rest : Str} {values : List Str} {records : List (List Str)}
    (h : Record text values) (tail : Document rest records) :
    Tail (44 :: (text ++ 13 :: 10 :: rest)) values records
  | line {rest : Str} {records : List (List Str)} (tail : Document rest records) :
    Tail (13 :: 10 :: rest) [] records

/-- A field and what follows it. -/
theorem Tail.record {text tail value : Str} {values : List Str} {records : List (List Str)}
    (hfield : Field text value) (h : Tail tail values records) :
    ∃ line rest, text ++ tail = line ++ 13 :: 10 :: rest ∧ Record line (value :: values) ∧
      Document rest records := by
  cases h with
  | comma h tail =>
    rename_i t rest
    exact ⟨text ++ 44 :: t, rest, by simp, .more hfield h, tail⟩
  | line tail =>
    rename_i rest
    exact ⟨text, rest, rfl, .last hfield, tail⟩

/-- The records of a reader that goes on with a value, the rest of its record and further records. -/
def Reader.finish (r : Reader) (value : Str) (values : List Str) (records : List (List Str)) :
    List (List Str) :=
  r.records ++ (r.record ++ value :: values) :: records

/-- What stands behind the point that a reader has reached, if it accepts. -/
def Ahead (r : Reader) (text : Str) (result : List (List Str)) : Prop :=
  if r.quoted then
    ∃ inner value tail values records, text = inner ++ 34 :: tail ∧ Quoted inner value ∧
      Tail tail values records ∧ result = r.finish (r.cell ++ value) values records
  else if r.afterQuote then
    ∃ values records, Tail text values records ∧ result = r.finish r.cell values records
  else
    (text = [] ∧ r.record = [] ∧ r.cell = [] ∧ result = r.records) ∨
    ∃ field value tail values records, text = field ++ tail ∧ Field field value ∧
      (r.cell ≠ [] → ∀ c ∈ field, isPlain c = true) ∧
      Tail tail values records ∧ result = r.finish (r.cell ++ value) values records

variable {r : Reader} {text : Str} {result : List (List Str)}

theorem ahead_quoted (h : r.quoted = true) : Ahead r text result ↔
    ∃ inner value tail values records, text = inner ++ 34 :: tail ∧ Quoted inner value ∧
      Tail tail values records ∧ result = r.finish (r.cell ++ value) values records := by
  unfold Ahead
  rw [if_pos h]

theorem ahead_afterQuote (h : r.quoted = false) (h' : r.afterQuote = true) :
    Ahead r text result ↔
      ∃ values records, Tail text values records ∧ result = r.finish r.cell values records := by
  unfold Ahead
  rw [if_neg (by simp [h]), if_pos h']

theorem ahead_open (h : r.quoted = false) (h' : r.afterQuote = false) : Ahead r text result ↔
    (text = [] ∧ r.record = [] ∧ r.cell = [] ∧ result = r.records) ∨
    ∃ field value tail values records, text = field ++ tail ∧ Field field value ∧
      (r.cell ≠ [] → ∀ c ∈ field, isPlain c = true) ∧
      Tail tail values records ∧ result = r.finish (r.cell ++ value) values records := by
  unfold Ahead
  rw [if_neg (by simp [h]), if_neg (by simp [h'])]

/-- At the end of a field there is nothing more of it ahead. -/
theorem ahead_of_tail {values : List Str} {records : List (List Str)} (h : r.quoted = false)
    (htail : Tail text values records) (hresult : result = r.finish r.cell values records) :
    Ahead r text result := by
  cases hafter : r.afterQuote with
  | true => exact (ahead_afterQuote h hafter).mpr ⟨values, records, htail, hresult⟩
  | false =>
    refine (ahead_open h hafter).mpr (.inr ⟨[], [], text, values, records, rfl, ?_, ?_, htail, ?_⟩)
    · exact .plain fun c hc => absurd hc List.not_mem_nil
    · exact fun _ c hc => absurd hc List.not_mem_nil
    · rw [List.append_nil]
      exact hresult

/-- **What a reader accepts lies ahead of it as the grammar says.** -/
theorem readRfc4180_sound (h : readRfc4180 r text = .ok result) : Ahead r text result := by
  fun_induction readRfc4180 r text with
  | case1 r hbad => cases h
  | case2 r hgood =>
    simp only [Bool.or_eq_true, bne_iff_ne, not_or, not_not, Bool.not_eq_true] at hgood
    obtain ⟨⟨⟨hquoted, hrecord⟩, hcell⟩, hafter⟩ := hgood
    exact (ahead_open hquoted hafter).mpr (.inl ⟨rfl, hrecord, hcell, (Except.ok.inj h).symm⟩)
  | case3 r hquoted rest ih =>
    -- a doubled quote is one quote of the value
    obtain ⟨inner, value, tail, values, records, rfl, hinner, htail, rfl⟩ :=
      (ahead_quoted (by exact hquoted)).mp (ih h)
    refine (ahead_quoted hquoted).mpr ⟨34 :: 34 :: inner, 34 :: value, tail, values, records, rfl,
      .doubled hinner, htail, ?_⟩
    simp [Reader.finish]
  | case4 r hquoted d rest hd ih =>
    obtain ⟨values, records, htail, rfl⟩ := (ahead_afterQuote rfl rfl).mp (ih h)
    refine (ahead_quoted hquoted).mpr ⟨[], [], _, values, records, rfl, .nil, htail, ?_⟩
    simp [Reader.finish]
  | case5 r hquoted ih =>
    obtain ⟨values, records, htail, rfl⟩ := (ahead_afterQuote rfl rfl).mp (ih h)
    refine (ahead_quoted hquoted).mpr ⟨[], [], _, values, records, rfl, .nil, htail, ?_⟩
    simp [Reader.finish]
  | case6 r c rest hquoted hc ih =>
    obtain ⟨inner, value, tail, values, records, rfl, hinner, htail, rfl⟩ :=
      (ahead_quoted (by exact hquoted)).mp (ih h)
    refine (ahead_quoted hquoted).mpr ⟨c :: inner, c :: value, tail, values, records, rfl,
      .plain hc hinner, htail, ?_⟩
    simp [Reader.finish]
  | case7 r c rest hquoted hbad => cases h
  | case8 r rest hquoted hbad hafter => cases h
  | case9 r rest hquoted hopen hafter ih =>
    obtain ⟨inner, value, tail, values, records, rfl, hinner, htail, rfl⟩ :=
      (ahead_quoted rfl).mp (ih h)
    simp only [Bool.or_eq_true, bne_iff_ne, not_or, not_not, Bool.not_eq_true] at hopen
    refine (ahead_open (by simpa using hquoted) hopen.2).mpr (.inr ⟨34 :: (inner ++ [34]), value,
      tail, values, records, by simp, .quoted hinner, fun hcell => absurd hopen.1 hcell, htail, rfl⟩)
  | case10 r rest hquoted hcode hafter ih =>
    have hquoted' : r.quoted = false := by simpa using hquoted
    rcases (ahead_open (by exact hquoted') rfl).mp (ih h) with ⟨-, hrecord, -⟩ |
      ⟨field, value, tail, values, records, rfl, hfield, -, htail, rfl⟩
    · exact absurd hrecord (by simp)
    · obtain ⟨line, behind, heq, hrecord, hdocument⟩ := htail.record hfield
      rw [heq]
      refine ahead_of_tail hquoted' (.comma hrecord hdocument) ?_
      simp [Reader.finish]
  | case11 r hquoted rest hcode hq hcomma ih =>
    have hquoted' : r.quoted = false := by simpa using hquoted
    rcases (ahead_open (by exact hquoted') rfl).mp (ih h) with ⟨rfl, -, -, rfl⟩ |
      ⟨field, value, tail, values, records, rfl, hfield, -, htail, rfl⟩
    · exact ahead_of_tail hquoted' (.line .nil) rfl
    · obtain ⟨line, behind, heq, hrecord, hdocument⟩ := htail.record hfield
      rw [heq]
      refine ahead_of_tail hquoted' (.line (.cons hrecord hdocument)) ?_
      simp [Reader.finish]
  | case12 r hquoted d rest hd hafter hq hcomma => cases h
  | case13 r hquoted hafter hq hcomma => cases h
  | case14 r rest hquoted hafter hq hcomma hcr => cases h
  | case15 r c rest hquoted hafter hq hcomma hcr hlf hbad => cases h
  | case16 r c rest hquoted hcode hq hcomma hcr hlf hafter ih =>
    have hquoted' : r.quoted = false := by simpa using hquoted
    have hafter' : r.afterQuote = false := by simpa using hafter
    rcases (ahead_open (by exact hquoted') (by exact hafter')).mp (ih h) with ⟨-, -, hcell, -⟩ |
      ⟨field, value, tail, values, records, rfl, hfield, hplain, htail, rfl⟩
    · exact absurd hcell (by simp)
    · have hfields : ∀ d ∈ field, isPlain d = true := hplain (by simp)
      obtain rfl := hfield.eq_of_plain hfields
      have hall : ∀ d ∈ c :: value, isPlain d = true := by
        refine List.forall_mem_cons.mpr ⟨?_, hfields⟩
        simp [isPlain, hq, hcomma, hcr, hlf]
      refine (ahead_open hquoted' hafter').mpr (.inr ⟨c :: value, c :: value, tail, values, records,
        rfl, .plain hall, fun _ => hall, htail, ?_⟩)
      simp [Reader.finish]

/-! ## A document is read -/

/-- A reader between two fields. -/
def start (records : List (List Str)) (record : List Str) : Reader :=
  { records, record, cell := [], quoted := false, afterQuote := false }

theorem readRfc4180_plain {p : Str} (hp : ∀ c ∈ p, isPlain c = true) (rest : Str)
    (records : List (List Str)) (record : List Str) (cell : Str) :
    readRfc4180 ⟨records, record, cell, false, false⟩ (p ++ rest) =
      readRfc4180 ⟨records, record, cell ++ p, false, false⟩ rest := by
  induction p generalizing cell with
  | nil => simp
  | cons c p ih =>
    have hc := hp c List.mem_cons_self
    simp only [isPlain, Bool.and_eq_true, bne_iff_ne] at hc
    obtain ⟨⟨⟨hquote, hcomma⟩, hcr⟩, hlf⟩ := hc
    rw [List.cons_append, readRfc4180_cons]
    simp only [Bool.false_eq_true, if_false, Bool.false_and, hquote, hcomma, hcr, hlf]
    rw [ih fun d hd => hp d (List.mem_cons_of_mem c hd)]
    simp

theorem readRfc4180_quoted {inner value : Str} (h : Quoted inner value) {rest : Str}
    (hrest : rest.head? ≠ some 34) (records : List (List Str)) (record : List Str) (cell : Str) :
    readRfc4180 ⟨records, record, cell, true, false⟩ (inner ++ 34 :: rest) =
      readRfc4180 ⟨records, record, cell ++ value, false, true⟩ rest := by
  induction h generalizing cell with
  | nil =>
    rw [List.nil_append, readRfc4180_cons, List.append_nil]
    cases rest with
    | nil => simp
    | cons d rest =>
      have hd : d ≠ 34 := fun heq => hrest (by rw [heq]; rfl)
      simp [hd]
  | plain hc _ ih =>
    rw [List.cons_append, readRfc4180_cons]
    simp only [if_true, hc, if_false]
    rw [ih]
    simp
  | doubled _ ih =>
    rw [List.cons_append, List.cons_append, readRfc4180_cons]
    simp only [if_true]
    rw [ih]
    simp

/-- The whole of a field, up to the comma or the line end behind it. -/
theorem readRfc4180_field {text value : Str} (h : Field text value) (rest : Str)
    (hrest : rest.head? ≠ some 34) (records : List (List Str)) (record : List Str) :
    ∃ after, readRfc4180 (start records record) (text ++ rest) =
      readRfc4180 ⟨records, record, value, false, after⟩ rest := by
  cases h with
  | plain h => exact ⟨false, readRfc4180_plain h rest records record []⟩
  | quoted h =>
    refine ⟨true, ?_⟩
    rw [List.cons_append, List.append_assoc, readRfc4180_cons]
    have hquoted := readRfc4180_quoted h hrest records record []
    simpa [start] using hquoted

theorem readRfc4180_comma (records : List (List Str)) (record : List Str) (cell : Str)
    (after : Bool) (rest : Str) : readRfc4180 ⟨records, record, cell, false, after⟩ (44 :: rest) =
      readRfc4180 (start records (record ++ [cell])) rest := by
  rw [readRfc4180_cons]
  simp [start]

theorem readRfc4180_line (records : List (List Str)) (record : List Str) (cell : Str)
    (after : Bool) (rest : Str) :
    readRfc4180 ⟨records, record, cell, false, after⟩ (13 :: 10 :: rest) =
      readRfc4180 (start (records ++ [record ++ [cell]]) []) rest := by
  rw [readRfc4180_cons]
  simp [start]

theorem readRfc4180_record {text : Str} {values : List Str} (h : Record text values) (rest : Str)
    (records : List (List Str)) (record : List Str) :
    readRfc4180 (start records record) (text ++ 13 :: 10 :: rest) =
      readRfc4180 (start (records ++ [record ++ values]) []) rest := by
  induction h generalizing record with
  | last h =>
    obtain ⟨after, hread⟩ := readRfc4180_field h (13 :: 10 :: rest) (by simp) records record
    rw [hread, readRfc4180_line]
  | more h _ ih =>
    rename_i text value tail values _
    obtain ⟨after, hread⟩ := readRfc4180_field h (44 :: (tail ++ 13 :: 10 :: rest)) (by simp)
      records record
    rw [List.append_assoc, List.cons_append, hread, readRfc4180_comma, ih]
    simp

theorem readRfc4180_document {text : Str} {records : List (List Str)} (h : Document text records)
    (before : List (List Str)) : readRfc4180 (start before []) text = .ok (before ++ records) := by
  induction h generalizing before with
  | nil => simp [readRfc4180, start]
  | cons h _ ih =>
    rw [readRfc4180_record h, ih]
    simp

/-- **`parseRfc4180` accepts exactly the documents, and returns their values.** -/
theorem parseRfc4180_iff (text : Str) (records : List (List Str)) :
    parseRfc4180 text = .ok records ↔ Document text records := by
  constructor
  · intro h
    rcases (ahead_open rfl rfl).mp (readRfc4180_sound h) with ⟨rfl, -, -, rfl⟩ |
      ⟨field, value, tail, values, behind, rfl, hfield, -, htail, rfl⟩
    · exact .nil
    · obtain ⟨line, rest, heq, hrecord, hdocument⟩ := htail.record hfield
      rw [heq]
      exact .cons hrecord hdocument
  · intro h
    exact readRfc4180_document h []

/-! ## Writing -/

/-- mirrors modules/sales/src/server.ts:216 (`movementWhitespace`, one character of it) -/
def isMovementWhitespace (c : UInt16) : Bool :=
  c ≤ 0x20 || (0x7f ≤ c && c ≤ 0x9f) || c == 0xa0 || c == 0x1680 || (0x2000 ≤ c && c ≤ 0x200a) ||
    c == 0x2028 || c == 0x2029 || c == 0x202f || c == 0x205f || c == 0x3000

/-- A text that a spreadsheet reads as a formula: `=`, `+`, `-` or `@` behind characters that it
ignores. -/
def formulaLeading (text : Str) : Bool :=
  match text.dropWhile isMovementWhitespace with
  | c :: _ => c == 61 || c == 43 || c == 45 || c == 64
  | [] => false

/-- What is exported for the text of a data cell. -/
def neutralized (text : Str) : Str := if formulaLeading text then 39 :: text else text

section Export

variable {V : Type} (string : V → Str)

/-- The text of a value; `none` is null or undefined, and `string` is `String`. -/
def cellText : Option V → Str
  | none => []
  | some v => string v

/-- mirrors modules/sales/src/server.ts:521, on the text of the value -/
def csvCell (text : Str) (neutralize : Bool) : Str :=
  writeField (if neutralize && formulaLeading text then 39 :: text else text)

def crlf : Str := [13, 10]

/-- mirrors modules/sales/src/server.ts:524 (`output`) -/
def exportText (selectedFields : List Str) (rows : List (Str → Option V)) : Str :=
  let header := joinComma (selectedFields.map fun field => csvCell field false) ++ crlf
  let line := fun row : Str → Option V =>
    joinComma (selectedFields.map fun field => csvCell (cellText string (row field)) true)
  if rows.isEmpty then header else header ++ crlf.intercalate (rows.map line) ++ crlf

/-- mirrors modules/sales/src/server.ts:522-526 -/
def buildSalesExportCsv (selectedFields : List Str) (rows : List (Str → Option V)) :
    Except DataMovementError (List UInt8) :=
  if selectedFields.length < 1 || selectedFields.length > 8 || !selectedFields.Nodup ||
      rows.length > 10000 then .error .importLimitExceeded
  else
    let bytes := encode (exportText string selectedFields rows)
    if bytes.length > 16777216 then .error .importLimitExceeded else .ok bytes

end Export

theorem formulaLeading_neutralized (text : Str) : formulaLeading (neutralized text) = false := by
  unfold neutralized
  split
  · rfl
  · rename_i h
    simpa using h

theorem csvCell_true (text : Str) : csvCell text true = writeField (neutralized text) := by
  unfold csvCell neutralized
  rw [Bool.true_and]

theorem csvCell_false (text : Str) : csvCell text false = writeField text := rfl

theorem intercalate_crlf : ∀ {lines : List Str}, lines ≠ [] →
    crlf.intercalate lines ++ crlf = endLines lines
  | [], h => absurd rfl h
  | [line], _ => by simp [endLines, crlf]
  | line :: line' :: lines, _ => by
    have ih := intercalate_crlf (List.cons_ne_nil line' lines)
    rw [List.intercalate_cons_cons, List.append_assoc, List.append_assoc, ih]
    simp [endLines, crlf]

/-! ## What is written can be decoded -/

theorem whole_of_wellFormed : ∀ {s : Str}, wellFormed s = true → Whole s
  | [], _ => ⟨rfl, rfl⟩
  | [c], h => by
    refine ⟨h, ?_⟩
    simp only [wellFormed, Bool.and_eq_true, Bool.not_eq_true'] at h
    exact h.2
  | c :: d :: s, h => by
    refine ⟨h, ?_⟩
    show isTrail c = false
    rw [wellFormed] at h
    split at h
    · rename_i hpair
      rw [Bool.and_eq_true, isLead_iff] at hpair
      rw [← Bool.not_eq_true, isTrail_iff]
      omega
    · simp only [Bool.and_eq_true, Bool.not_eq_true'] at h
      exact h.1.2

theorem whole_doubleQuotes : ∀ {s : Str}, wellFormed s = true → Whole (doubleQuotes s)
  | [], _ => ⟨rfl, rfl⟩
  | [c], h => by
    simp only [wellFormed, Bool.and_eq_true, Bool.not_eq_true'] at h
    simp only [doubleQuotes]
    split
    · exact whole_literal (by decide)
    · exact KNex.Contracts.CanonicalJson.whole_plain h.1 h.2
  | c :: d :: s, h => by
    have hne : ∀ {c : UInt16}, 0xD800 ≤ c.toNat → c ≠ 34 := by
      rintro c hc rfl
      exact absurd hc (by decide)
    rw [wellFormed] at h
    split at h
    · rename_i hpair
      have ih := whole_doubleQuotes h
      have hlead := isLead_iff.mp (Bool.and_eq_true_iff.mp hpair).1
      have htrail := isTrail_iff.mp (Bool.and_eq_true_iff.mp hpair).2
      have hc : c ≠ 34 := hne hlead.1
      have hd : d ≠ 34 := hne (by omega)
      rw [doubleQuotes, if_neg hc, doubleQuotes, if_neg hd]
      refine whole_of_wellFormed ?_
      rw [wellFormed, if_pos hpair]
      exact ih.1
    · simp only [Bool.and_eq_true, Bool.not_eq_true'] at h
      have ih := whole_doubleQuotes h.2
      rw [doubleQuotes]
      split
      · exact (whole_literal (s := [34, 34]) (by decide)).append ih
      · exact ih.cons h.1.1 h.1.2

theorem whole_writeField {s : Str} (h : wellFormed s = true) : Whole (writeField s) := by
  unfold writeField
  split
  · exact whole_of_wellFormed h
  · exact ((whole_doubleQuotes h).append (whole_literal (by decide))).cons (by decide) (by decide)

theorem wellFormed_neutralized {s : Str} (h : wellFormed s = true) :
    wellFormed (neutralized s) = true := by
  unfold neutralized
  split
  · exact ((whole_of_wellFormed h).cons (c := 39) (by decide) (by decide)).1
  · exact h

theorem whole_joinComma : ∀ {l : List Str}, (∀ s ∈ l, Whole s) → Whole (joinComma l)
  | [], _ => ⟨rfl, rfl⟩
  | [x], h => h x List.mem_cons_self
  | x :: y :: xs, h =>
    (h x List.mem_cons_self).append
      ((whole_joinComma fun s hs => h s (List.mem_cons_of_mem x hs)).cons (by decide) (by decide))

theorem whole_endLines : ∀ {l : List Str}, (∀ s ∈ l, Whole s) → Whole (endLines l)
  | [], _ => ⟨rfl, rfl⟩
  | x :: xs, h => by
    have htail := whole_endLines fun s hs => h s (List.mem_cons_of_mem x hs)
    exact ((h x List.mem_cons_self).append (whole_literal (by decide))).append htail

/-! ## The round trip -/

variable {V : Type} {string : V → Str}

/-- The rows that are read back from an export. -/
def exportedRows (string : V → Str) (selectedFields : List Str) (rows : List (Str → Option V)) :
    List (List Str) :=
  selectedFields ::
    rows.map fun row => selectedFields.map fun field => neutralized (cellText string (row field))

/-- An export is the document of its rows. -/
theorem exportText_eq (selectedFields : List Str) (rows : List (Str → Option V)) :
    exportText string selectedFields rows = endLines
      ((exportedRows string selectedFields rows).map fun values =>
        joinComma (values.map writeField)) := by
  have hline : ∀ row : Str → Option V,
      joinComma (selectedFields.map fun field => csvCell (cellText string (row field)) true) =
        joinComma ((selectedFields.map fun field =>
          neutralized (cellText string (row field))).map writeField) := fun row => by
    simp [csvCell_true, Function.comp_def]
  unfold exportText
  simp only [hline, csvCell_false, exportedRows, List.map_cons]
  cases rows with
  | nil => simp [endLines, crlf]
  | cons row rows =>
    rw [if_neg (by simp), List.append_assoc, intercalate_crlf (by simp)]
    simp [endLines, crlf, Function.comp_def]

theorem buildSalesExportCsv_eq_ok {selectedFields : List Str} {rows : List (Str → Option V)}
    {bytes : List UInt8} (h : buildSalesExportCsv string selectedFields rows = .ok bytes) :
    selectedFields ≠ [] ∧ bytes = encode (exportText string selectedFields rows) := by
  unfold buildSalesExportCsv at h
  split at h
  · cases h
  · rename_i hbounds
    simp only [Bool.or_eq_true, decide_eq_true_eq, not_or] at hbounds
    dsimp only at h
    split at h
    · cases h
    · refine ⟨?_, (Except.ok.inj h).symm⟩
      rintro rfl
      simp at hbounds

/-- An export reads back as it was written. -/
theorem export_roundTrip {selectedFields : List Str} {rows : List (Str → Option V)}
    {bytes : List UInt8} (hfields : ∀ field ∈ selectedFields, wellFormed field = true)
    (hrows : ∀ row ∈ rows, ∀ field ∈ selectedFields,
      wellFormed (cellText string (row field)) = true)
    (h : buildSalesExportCsv string selectedFields rows = .ok bytes) :
    ∃ text data, decode bytes = some text ∧ parseRfc4180 text = .ok (selectedFields :: data) ∧
      data = (rows.map fun row => selectedFields.map fun field =>
        if formulaLeading (cellText string (row field)) then 39 :: cellText string (row field)
        else cellText string (row field)) ∧
      ∀ cells ∈ data, ∀ cell ∈ cells, formulaLeading cell = false := by
  obtain ⟨hne, rfl⟩ := buildSalesExportCsv_eq_ok h
  rw [exportText_eq]
  have hwell : ∀ values ∈ exportedRows string selectedFields rows, ∀ v ∈ values,
      wellFormed v = true := by
    intro values hvalues v hv
    rcases List.mem_cons.mp hvalues with rfl | hvalues
    · exact hfields v hv
    · obtain ⟨row, hrow, rfl⟩ := List.mem_map.mp hvalues
      obtain ⟨field, hfield, rfl⟩ := List.mem_map.mp hv
      exact wellFormed_neutralized (hrows row hrow field hfield)
  have hwhole : Whole (endLines ((exportedRows string selectedFields rows).map fun values =>
      joinComma (values.map writeField))) := by
    refine whole_endLines fun line hline => ?_
    obtain ⟨values, hvalues, rfl⟩ := List.mem_map.mp hline
    refine whole_joinComma fun s hs => ?_
    obtain ⟨v, hv, rfl⟩ := List.mem_map.mp hs
    exact whole_writeField (hwell values hvalues v hv)
  have hnonempty : ∀ values ∈ exportedRows string selectedFields rows, values ≠ [] := by
    intro values hvalues
    rcases List.mem_cons.mp hvalues with rfl | hvalues
    · exact hne
    · obtain ⟨row, -, rfl⟩ := List.mem_map.mp hvalues
      simpa using hne
  refine ⟨_, _, decode_encode hwhole.1, (parseRfc4180_iff _ _).mpr (document_endLines hnonempty),
    rfl, ?_⟩
  intro cells hcells cell hcell
  obtain ⟨row, -, rfl⟩ := List.mem_map.mp hcells
  obtain ⟨field, -, rfl⟩ := List.mem_map.mp hcell
  exact formulaLeading_neutralized _

/-- **The CSV codec.** The parser accepts exactly the documents of RFC 4180 and returns their values.
The bytes of an export, of names and texts without lone surrogates, decode to a text that the parser
takes apart into the header row and one row for each input row, with one cell for each field: the
text of the value, with an apostrophe before it exactly when it is formula-leading. No data cell
is. -/
theorem csv_codec (string : V → Str) :
    (∀ text records, parseRfc4180 text = .ok records ↔ Document text records) ∧
    ∀ (selectedFields : List Str) (rows : List (Str → Option V)) (bytes : List UInt8),
      (∀ field ∈ selectedFields, wellFormed field = true) →
      (∀ row ∈ rows, ∀ field ∈ selectedFields,
        wellFormed (cellText string (row field)) = true) →
      buildSalesExportCsv string selectedFields rows = .ok bytes →
      ∃ text data, decode bytes = some text ∧ parseRfc4180 text = .ok (selectedFields :: data) ∧
        data = (rows.map fun row => selectedFields.map fun field =>
          if formulaLeading (cellText string (row field)) then 39 :: cellText string (row field)
          else cellText string (row field)) ∧
        ∀ cells ∈ data, ∀ cell ∈ cells, formulaLeading cell = false :=
  ⟨parseRfc4180_iff, fun _ _ _ hfields hrows h => export_roundTrip hfields hrows h⟩

/-- One cell with the text `=1`. -/
theorem csv_codec_formula : ∃ text, parseRfc4180 text = .ok [[units "a"], [units "'=1"]] := by
  obtain ⟨text, data, -, hparse, rfl, -⟩ := (csv_codec (id : Str → Str)).2 [units "a"]
    [fun _ => some (units "=1")] (encode (units "a\r\n'=1\r\n")) (by decide)
    (by decide) (by decide)
  exact ⟨text, hparse⟩

end KNex.Sales.Csv
