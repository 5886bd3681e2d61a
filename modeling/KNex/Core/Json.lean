import KNex.Core.JsString
import Mathlib.Data.Rat.Floor

/-!
# JSON values and their canonical text

`packages/contracts/src/canonical-json.ts`. A `Json` is a value that `assertJsonValue`
accepts: numbers are finite (a double is the rational it denotes, so `-0` is `0`), arrays have
no holes, objects are plain data. The fields of an object are listed in its own property
order; the model never builds an object with a repeated key.

`canonicalJson` sorts the fields of every object by key and prints with an indentation of two.
`Object.fromEntries` puts array-index keys in front in numeric order whatever the order of
insertion (`ownOrder`), so the sort decides the order of the remaining keys only.
-/
namespace KNex.Core

inductive Json where
  | null
  | bool (b : Bool)
  | num (n : Rat)
  | str (s : String)
  | arr (xs : List Json)
  | obj (fields : List (String × Json))
  deriving Repr

namespace Json

/-! ## Equality -/

mutual

def beq : Json → Json → Bool
  | .null, .null => true
  | .bool a, .bool b => a == b
  | .num a, .num b => decide (a = b)
  | .str a, .str b => decide (a = b)
  | .arr xs, .arr ys => beqList xs ys
  | .obj xs, .obj ys => beqFields xs ys
  | _, _ => false

def beqList : List Json → List Json → Bool
  | [], [] => true
  | x :: xs, y :: ys => beq x y && beqList xs ys
  | _, _ => false

def beqFields : List (String × Json) → List (String × Json) → Bool
  | [], [] => true
  | (k, x) :: xs, (k', y) :: ys => decide (k = k') && (beq x y && beqFields xs ys)
  | _, _ => false

end

mutual

theorem beq_iff : ∀ a b : Json, beq a b = true ↔ a = b
  | .null, b => by cases b <;> simp [beq]
  | .bool a, b => by cases b <;> simp [beq]
  | .num a, b => by cases b <;> simp [beq]
  | .str a, b => by cases b <;> simp [beq]
  | .arr xs, b => by
    cases b with
    | arr ys => simp only [beq, beqList_iff xs ys, Json.arr.injEq]
    | _ => simp [beq]
  | .obj xs, b => by
    cases b with
    | obj ys => simp only [beq, beqFields_iff xs ys, Json.obj.injEq]
    | _ => simp [beq]

theorem beqList_iff : ∀ xs ys : List Json, beqList xs ys = true ↔ xs = ys
  | [], ys => by cases ys <;> simp [beqList]
  | x :: xs, ys => by
    cases ys with
    | nil => simp [beqList]
    | cons y ys =>
      simp only [beqList, Bool.and_eq_true, beq_iff x y, beqList_iff xs ys, List.cons.injEq]

theorem beqFields_iff : ∀ xs ys : List (String × Json), beqFields xs ys = true ↔ xs = ys
  | [], ys => by cases ys <;> simp [beqFields]
  | (k, x) :: xs, ys => by
    cases ys with
    | nil => simp [beqFields]
    | cons y ys =>
      obtain ⟨k', y⟩ := y
      simp only [beqFields, Bool.and_eq_true, decide_eq_true_eq, beq_iff x y, beqFields_iff xs ys,
        List.cons.injEq, Prod.mk.injEq, and_assoc]

end

instance : DecidableEq Json := fun a b => decidable_of_iff (beq a b = true) (beq_iff a b)

/-! ## Reading values -/

/-- `Object.keys(value)`; a value that is not a plain object has none here. -/
def keys : Json → List String
  | .obj fields => fields.map Prod.fst
  | _ => []

/-- `value.key` of a plain object. -/
def get? : Json → String → Option Json
  | .obj fields, k => (fields.find? fun f => f.1 = k).map Prod.snd
  | _, _ => none

def isObject : Json → Bool
  | .obj _ => true
  | _ => false

def asStr? : Json → Option String
  | .str s => some s
  | _ => none

/-- `Number.MAX_SAFE_INTEGER`. -/
def maxSafeInteger : Int := 9007199254740991

/-- The integer, when `Number.isSafeInteger` holds. -/
def asSafeInt? : Json → Option Int
  | .num q => if q.den = 1 ∧ -maxSafeInteger ≤ q.num ∧ q.num ≤ maxSafeInteger then some q.num else none
  | _ => none

/-! ## Number to string -/

/-- The double nearest to a positive rational, ties to even, by the exponent `e` of its last
place: `2^52 ≤ q / 2^e < 2^53`, at least `-1074`. -/
def roundAt (q : Rat) (e : Int) : Rat :=
  let m := q / (2 : Rat) ^ e
  let lo := m.floor
  let r := m - lo
  let n := if r < 1 / 2 then lo else if 1 / 2 < r then lo + 1 else if lo % 2 = 0 then lo else lo + 1
  n * (2 : Rat) ^ e

/-- The exponent of the last place, from `-1074` up. -/
def lastPlace (q : Rat) : Nat → Int → Int
  | 0, e => e
  | n + 1, e => if q / (2 : Rat) ^ e < 2 ^ 53 then e else lastPlace q n (e + 1)

def roundToDouble (q : Rat) : Rat := roundAt q (lastPlace q 2100 (-1074))

/-- The least `s` with `q < 10^s`, from `-330` up. -/
def decimalExponent (q : Rat) : Nat → Int → Int
  | 0, s => s
  | n + 1, s => if q < (10 : Rat) ^ s then s else decimalExponent q n (s + 1)

/-- The fewest digits `n` of a decimal `n * 10^(s - k)` that still reads as the double `q`, the
nearer of the two candidates when both do. -/
def shortestDigits (q : Rat) (s : Int) : Nat → Nat → Nat × Nat
  | 0, k => ((q / (10 : Rat) ^ (s - k)).floor.toNat, k)
  | fuel + 1, k =>
    let lo := (q / (10 : Rat) ^ (s - k)).floor
    let near := fun n : Int => roundToDouble (n * (10 : Rat) ^ (s - k)) = q
    let dist := fun n : Int => |n * (10 : Rat) ^ (s - k) - q|
    if near lo ∧ (¬ near (lo + 1) ∨ dist lo < dist (lo + 1) ∨ (dist lo = dist (lo + 1) ∧ lo % 2 = 0))
    then (lo.toNat, k)
    else if near (lo + 1) then ((lo + 1).toNat, k)
    else shortestDigits q s fuel (k + 1)

/-- The text of `n * 10^(s - k)`, `n` of `k` digits. -/
def layoutDigits (digits : String) (k : Nat) (s : Int) : String :=
  if (k : Int) ≤ s ∧ s ≤ 21 then digits ++ String.ofList (List.replicate (s - k).toNat '0')
  else if 0 < s ∧ s ≤ 21 then
    String.ofList (digits.toList.take s.toNat) ++ "." ++ String.ofList (digits.toList.drop s.toNat)
  else if -6 < s ∧ s ≤ 0 then
    "0." ++ String.ofList (List.replicate (-s).toNat '0') ++ digits
  else
    let e := s - 1
    let mantissa := if k = 1 then digits else
      String.ofList (digits.toList.take 1) ++ "." ++ String.ofList (digits.toList.drop 1)
    mantissa ++ "e" ++ (if e < 0 then "-" else "+") ++ toString e.natAbs

/-- `Number::toString` in radix 10. A safe integer prints as its digits, as the general rule
also has it. -/
def numberToString (q : Rat) : String :=
  if q.den = 1 ∧ -maxSafeInteger ≤ q.num ∧ q.num ≤ maxSafeInteger then toString q.num
  else
    let a := |q|
    let s := decimalExponent a 700 (-330)
    let (n, k) := shortestDigits a s 17 1
    -- ten to a power of `k` digits is the next exponent's one
    let text := if n = 10 ^ k then layoutDigits "1" 1 (s + 1) else layoutDigits (toString n) k s
    if q < 0 then "-" ++ text else text

/-! ## Stringify -/

def hexDigit (n : Nat) : Char := if n < 10 then Char.ofNat (48 + n) else Char.ofNat (87 + n)

/-- `QuoteJSONString` on one character. -/
def escapeChar (c : Char) : List Char :=
  if c = '"' then ['\\', '"']
  else if c = '\\' then ['\\', '\\']
  else if c = Char.ofNat 8 then ['\\', 'b']
  else if c = Char.ofNat 12 then ['\\', 'f']
  else if c = '\n' then ['\\', 'n']
  else if c = '\r' then ['\\', 'r']
  else if c = '\t' then ['\\', 't']
  else if c.toNat < 32 then ['\\', 'u', '0', '0', hexDigit (c.toNat / 16), hexDigit (c.toNat % 16)]
  else [c]

def quoteString (s : String) : String :=
  "\"" ++ String.ofList (s.toList.flatMap escapeChar) ++ "\""

def newline (indent : Nat) : String := "\n" ++ String.ofList (List.replicate indent ' ')

mutual

/-- `JSON.stringify(value, null, 2)` at a nesting of `indent` spaces. -/
def stringify (indent : Nat) : Json → String
  | .null => "null"
  | .bool b => if b then "true" else "false"
  | .num n => numberToString n
  | .str s => quoteString s
  | .arr [] => "[]"
  | .arr (x :: xs) =>
    "[" ++ newline (indent + 2) ++ stringify (indent + 2) x ++ stringifyItems (indent + 2) xs ++
      newline indent ++ "]"
  | .obj [] => "\x7b\x7d"
  | .obj ((k, v) :: fields) =>
    "\x7b" ++ newline (indent + 2) ++ quoteString k ++ ": " ++ stringify (indent + 2) v ++
      stringifyFields (indent + 2) fields ++ newline indent ++ "\x7d"

def stringifyItems (indent : Nat) : List Json → String
  | [] => ""
  | x :: xs => "," ++ newline indent ++ stringify indent x ++ stringifyItems indent xs

def stringifyFields (indent : Nat) : List (String × Json) → String
  | [] => ""
  | (k, v) :: fields =>
    "," ++ newline indent ++ quoteString k ++ ": " ++ stringify indent v ++
      stringifyFields indent fields

end

/-- A key that is an array index: the decimal text, without a leading zero, of a number below
`2^32 - 1`. -/
def arrayIndex? (k : String) : Option Nat :=
  let n := k.toList.foldl (fun n c => 10 * n + (c.toNat - 48)) 0
  if k.toList.all Char.isDigit ∧ k ≠ "" ∧ (k.toList.head? ≠ some '0' ∨ k = "0") ∧ n < 4294967295
  then some n else none

/-- The property order of an object built with these fields in this order. -/
def ownOrder {α : Type*} (fields : List (String × α)) : List (String × α) :=
  (fields.filter fun f => (arrayIndex? f.1).isSome).insertionSort
      (fun a b => (arrayIndex? a.1).getD 0 ≤ (arrayIndex? b.1).getD 0) ++
    fields.filter fun f => (arrayIndex? f.1).isNone

mutual

/-- mirrors packages/contracts/src/canonical-json.ts:37-42 -/
def sortValue : Json → Json
  | .arr xs => .arr (sortValues xs)
  | .obj fields => .obj (ownOrder (sortBy Prod.fst (sortFields fields)))
  | v => v

def sortValues : List Json → List Json
  | [] => []
  | x :: xs => sortValue x :: sortValues xs

def sortFields : List (String × Json) → List (String × Json)
  | [] => []
  | (k, v) :: fields => (k, sortValue v) :: sortFields fields

end

/-- mirrors packages/contracts/src/canonical-json.ts:44-47 -/
def canonicalJson (value : Json) : String := stringify 0 (sortValue value) ++ "\n"

end Json

end KNex.Core
