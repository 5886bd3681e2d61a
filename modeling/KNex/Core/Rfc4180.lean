import KNex.Core.JsonText

/-!
# Comma-separated values, as RFC 4180 has them

The grammar with its values: a document is a sequence of records, each ended by CRLF; a record is
one field or more with commas between; a field is a text without quote, comma, CR and LF that stands
for itself, or a quoted text in which every quote is doubled. `writeField` quotes where it must, and
what it writes is a field of the value (`field_writeField`); so are the records and documents that
are put together from such fields.
-/
namespace KNex.Core.Rfc4180

open KNex.Core.JsonText (Str)

/-! ## The grammar -/

/-- A character of a field without quotes. -/
def isPlain (c : UInt16) : Bool := c != 34 && c != 44 && c != 13 && c != 10

/-- The text between two quotes, and the value that it writes. -/
inductive Quoted : Str → Str → Prop
  | nil : Quoted [] []
  | plain {c : UInt16} {text value : Str} (hc : c ≠ 34) (rest : Quoted text value) :
    Quoted (c :: text) (c :: value)
  | doubled {text value : Str} (rest : Quoted text value) :
    Quoted (34 :: 34 :: text) (34 :: value)

inductive Field : Str → Str → Prop
  | plain {value : Str} (h : ∀ c ∈ value, isPlain c = true) : Field value value
  | quoted {text value : Str} (h : Quoted text value) : Field (34 :: (text ++ [34])) value

inductive Record : Str → List Str → Prop
  | last {text value : Str} (h : Field text value) : Record text [value]
  | more {text value rest : Str} {values : List Str} (h : Field text value)
    (tail : Record rest values) : Record (text ++ 44 :: rest) (value :: values)

inductive Document : Str → List (List Str) → Prop
  | nil : Document [] []
  | cons {text rest : Str} {values : List Str} {records : List (List Str)}
    (h : Record text values) (tail : Document rest records) :
    Document (text ++ 13 :: 10 :: rest) (values :: records)

/-- A field whose text is plain stands for itself. -/
theorem Field.eq_of_plain {field value : Str} (h : Field field value)
    (hplain : ∀ c ∈ field, isPlain c = true) : value = field := by
  cases h with
  | plain _ => rfl
  | quoted _ => exact absurd (hplain 34 List.mem_cons_self) (by decide)

/-! ## Writing -/

/-- `text.replaceAll('"', '""')` -/
def doubleQuotes : Str → Str
  | [] => []
  | c :: s => if c = 34 then 34 :: 34 :: doubleQuotes s else c :: doubleQuotes s

def writeField (value : Str) : Str :=
  if value.all isPlain then value else 34 :: (doubleQuotes value ++ [34])

/-- `fields.join(",")` -/
def joinComma : List Str → Str
  | [] => []
  | [x] => x
  | x :: y :: xs => x ++ 44 :: joinComma (y :: xs)

/-- `lines.join("\r\n")`, and the end of the last line. -/
def endLines (lines : List Str) : Str := lines.flatMap fun line => line ++ [13, 10]

theorem quoted_doubleQuotes : ∀ value : Str, Quoted (doubleQuotes value) value
  | [] => .nil
  | c :: s => by
    unfold doubleQuotes
    split
    · rename_i hc
      subst hc
      exact .doubled (quoted_doubleQuotes s)
    · rename_i hc
      exact .plain hc (quoted_doubleQuotes s)

theorem field_writeField (value : Str) : Field (writeField value) value := by
  unfold writeField
  split
  · rename_i h
    exact .plain (List.all_eq_true.mp h)
  · exact .quoted (quoted_doubleQuotes value)

theorem record_joinComma : ∀ {values : List Str}, values ≠ [] →
    Record (joinComma (values.map writeField)) values
  | [], h => absurd rfl h
  | [v], _ => .last (field_writeField v)
  | v :: w :: values, _ =>
    .more (field_writeField v) (record_joinComma (List.cons_ne_nil w values))

theorem document_endLines : ∀ {records : List (List Str)}, (∀ r ∈ records, r ≠ []) →
    Document (endLines (records.map fun values => joinComma (values.map writeField))) records
  | [], _ => .nil
  | values :: records, h => by
    have hrecord := record_joinComma (h values List.mem_cons_self)
    have htail := document_endLines fun r hr => h r (List.mem_cons_of_mem values hr)
    have hdocument := Document.cons hrecord htail
    simpa [endLines] using hdocument

end KNex.Core.Rfc4180
