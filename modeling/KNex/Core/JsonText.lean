import KNex.Core.JsMap
import Mathlib.Data.Bool.AllAny
import Mathlib.Data.List.Lex
import Mathlib.Data.List.Sort

/-!
# `JSON.stringify` and `JSON.parse`

ECMAScript's serializer with an indentation of two, and its parser, on strings of UTF-16 code
units. A `Value` is what `JSON.stringify` can print: a number is finite and may be the negative
zero, and an array may own properties besides its elements, which nothing prints. How a number is
printed and read is a `NumberFormat`.

`parse_stringify` is the round trip: what is printed of a value in normal form is read as that
value. The parser's fuel is the length of its text, and that is always enough.
-/
namespace KNex.Core.JsonText

/-! ## Strings -/

/-- A string value: code units, surrogates with or without their partner. -/
abbrev Str := List UInt16

/-- A proof that definitions on strings use by name. -/
instance instLawfulBEqStr : LawfulBEq Str := inferInstance

def units (s : String) : Str := s.toList.map fun c => UInt16.ofNat c.toNat

/-- `left <= right`. -/
def StrLe (a b : Str) : Prop := a.map UInt16.toNat ≤ b.map UInt16.toNat

instance : DecidableRel StrLe := fun a b =>
  inferInstanceAs (Decidable (a.map UInt16.toNat ≤ b.map UInt16.toNat))

theorem StrLe.trans {a b c : Str} (h : StrLe a b) (h' : StrLe b c) : StrLe a c :=
  le_trans (α := List Nat) h h'

theorem StrLe.total (a b : Str) : StrLe a b ∨ StrLe b a :=
  le_total (a.map UInt16.toNat) (b.map UInt16.toNat)

theorem StrLe.antisymm {a b : Str} (h : StrLe a b) (h' : StrLe b a) : a = b :=
  List.map_injective_iff.mpr (fun _ _ => UInt16.toNat_inj.mp) (le_antisymm (α := List Nat) h h')

/-! ## Values -/

/-- A finite number; the zero of `N` is the positive one. -/
inductive Numeric (N : Type) where
  | finite (n : N)
  | negZero
  deriving DecidableEq

/-- `extra` lists what an array owns besides its elements and its length; `X` is anything. -/
inductive Value (N X : Type) where
  | null
  | bool (b : Bool)
  | num (n : Numeric N)
  | str (s : Str)
  | arr (items : List (Value N X)) (extra : List (Str × X))
  | obj (fields : List (Str × Value N X))

/-- `Number::toString` on finite numbers, and the number a text is read as. -/
structure NumberFormat (N : Type) where
  zero : N
  text : N → Str
  read : Str → Option (Numeric N)
  read_text : ∀ n, read (text n) = some (.finite n)
  units : ∀ n, ∀ c ∈ text n, c ∈ units "0123456789+-.eE"
  nonempty : ∀ n, text n ≠ []

section Text

variable {N X : Type} (F : NumberFormat N)

def NumberFormat.print : Numeric N → Str
  | .finite n => F.text n
  | .negZero => F.text F.zero

/-! ## Quoting -/

def isLead (c : UInt16) : Bool := 0xD800 ≤ c && c ≤ 0xDBFF

def isTrail (c : UInt16) : Bool := 0xDC00 ≤ c && c ≤ 0xDFFF

def startsTrail : Str → Bool
  | [] => false
  | c :: _ => isTrail c

def hexDigit (n : Nat) : UInt16 := UInt16.ofNat (if n < 10 then 48 + n else 87 + n)

/-- `UnicodeEscape`. -/
def unicodeEscape (c : UInt16) : Str :=
  [92, 117, hexDigit (c.toNat / 4096), hexDigit (c.toNat / 256 % 16), hexDigit (c.toNat / 16 % 16),
    hexDigit (c.toNat % 16)]

/-- A unit that is not the second half of a pair. -/
def quoteUnit (c : UInt16) (next : Bool) : Str :=
  if c = 8 then [92, 98]
  else if c = 9 then [92, 116]
  else if c = 10 then [92, 110]
  else if c = 12 then [92, 102]
  else if c = 13 then [92, 114]
  else if c = 34 then [92, 34]
  else if c = 92 then [92, 92]
  else if c < 32 ∨ isTrail c ∨ (isLead c ∧ next = false) then unicodeEscape c
  else [c]

/-- `paired` when the first unit is the second half of a pair. -/
def quoteUnits (paired : Bool) : Str → Str
  | [] => []
  | c :: cs =>
    (if paired then [c] else quoteUnit c (startsTrail cs)) ++
      quoteUnits (!paired && isLead c && startsTrail cs) cs

/-- `QuoteJSONString`. -/
def quote (s : Str) : Str := 34 :: (quoteUnits false s ++ [34])

/-! ## Printing -/

def newline (indent : Nat) : Str := 10 :: List.replicate indent 32

/-- The items after the first, and the end. -/
def itemsTail (close : UInt16) (indent : Nat) : List Str → Str
  | [] => newline indent ++ [close]
  | x :: xs => 44 :: (newline (indent + 2) ++ (x ++ itemsTail close indent xs))

def bracket (start close : UInt16) (indent : Nat) : List Str → Str
  | [] => [start, close]
  | x :: xs => start :: (newline (indent + 2) ++ (x ++ itemsTail close indent xs))

def member (key text : Str) : Str := quote key ++ 58 :: 32 :: text

mutual

/-- `SerializeJSONProperty`, with two spaces as the gap. -/
def stringify (indent : Nat) : Value N X → Str
  | .null => units "null"
  | .bool true => units "true"
  | .bool false => units "false"
  | .num n => F.print n
  | .str s => quote s
  | .arr items _ => bracket 91 93 indent (stringifyItems (indent + 2) items)
  | .obj fields => bracket 123 125 indent (stringifyFields (indent + 2) fields)

def stringifyItems (indent : Nat) : List (Value N X) → List Str
  | [] => []
  | v :: items => stringify indent v :: stringifyItems indent items

def stringifyFields (indent : Nat) : List (Str × Value N X) → List Str
  | [] => []
  | (k, v) :: fields => member k (stringify indent v) :: stringifyFields indent fields

end

/-! ## The property order of objects -/

def decimalValue (k : Str) : Nat := k.foldl (fun n c => 10 * n + (c.toNat - 48)) 0

/-- `/^(0|[1-9][0-9]*)$/`. -/
def isDecimal (k : Str) : Bool :=
  k ≠ [] && k.all (fun c => 48 ≤ c && c ≤ 57) && (k.head? ≠ some 48 || k = [48])

/-- A key that is an array index: below `2^32 - 1`. -/
def arrayIndex? (k : Str) : Option Nat :=
  if isDecimal k ∧ decimalValue k < 4294967295 then some (decimalValue k) else none

/-- Array indices first, in numeric order, then the other keys in the order of insertion. -/
def ownOrder {α : Type} (fields : List (Str × α)) : List (Str × α) :=
  (fields.filter fun f => (arrayIndex? f.1).isSome).insertionSort
      (fun a b => (arrayIndex? a.1).getD 0 ≤ (arrayIndex? b.1).getD 0) ++
    fields.filter fun f => (arrayIndex? f.1).isNone

/-- `Object.fromEntries`: each entry creates or overwrites an own property, `__proto__` too. -/
def fromEntries {α : Type} (entries : List (Str × α)) : List (Str × α) :=
  ownOrder (entries.foldl (fun m e => m.set e.1 e.2) (JsMap.empty : JsMap Str α)).entries

/-! ## Parsing -/

def isSpace (c : UInt16) : Bool := c = 32 || c = 9 || c = 10 || c = 13

def skipSpace (s : Str) : Str := s.dropWhile isSpace

/-- The text after `c`, when `c` comes first. -/
def expect (c : UInt16) (s : Str) : Option Str :=
  match skipSpace s with
  | [] => none
  | d :: r => if d = c then some r else none

def hexValue (c : UInt16) : Option Nat :=
  if 48 ≤ c ∧ c ≤ 57 then some (c.toNat - 48)
  else if 97 ≤ c ∧ c ≤ 102 then some (c.toNat - 87)
  else if 65 ≤ c ∧ c ≤ 70 then some (c.toNat - 55)
  else none

/-- The unit of four hexadecimal digits. -/
def hexUnit (a b c d : UInt16) : Option UInt16 :=
  match hexValue a, hexValue b, hexValue c, hexValue d with
  | some a, some b, some c, some d => some (UInt16.ofNat (4096 * a + 256 * b + 16 * c + d))
  | _, _, _, _ => none

/-- A one-letter escape. -/
def simpleEscape (c : UInt16) : Option UInt16 :=
  if c = 34 ∨ c = 92 ∨ c = 47 then some c
  else if c = 98 then some 8
  else if c = 102 then some 12
  else if c = 110 then some 10
  else if c = 114 then some 13
  else if c = 116 then some 9
  else none

/-- The rest of a string literal after its opening quote. -/
def readUnits : Str → Option (Str × Str)
  | [] => none
  | c :: cs =>
    if c = 34 then some ([], cs)
    else if c = 92 then
      match cs with
      | 117 :: a :: b :: d :: e :: rest =>
        match hexUnit a b d e with
        | some u => (readUnits rest).map fun r => (u :: r.1, r.2)
        | none => none
      | e :: rest =>
        match simpleEscape e with
        | some u => (readUnits rest).map fun r => (u :: r.1, r.2)
        | none => none
      | [] => none
    else if c < 32 then none
    else (readUnits cs).map fun r => (c :: r.1, r.2)

def isNumberUnit (c : UInt16) : Bool := (units "0123456789+-.eE").contains c

def readNumber (s : Str) : Option (Value N X × Str) :=
  (F.read (s.takeWhile isNumberUnit)).map fun n => (.num n, s.dropWhile isNumberUnit)

def keyword (word : Str) (v : Value N X) (s : Str) : Option (Value N X × Str) :=
  if s.take word.length = word then some (v, s.drop word.length) else none

mutual

def parseValue : Nat → Str → Option (Value N X × Str)
  | 0, _ => none
  | n + 1, s =>
    match skipSpace s with
    | [] => none
    | c :: r =>
      if c = 110 then keyword (units "ull") .null r
      else if c = 116 then keyword (units "rue") (.bool true) r
      else if c = 102 then keyword (units "alse") (.bool false) r
      else if c = 34 then (readUnits r).map fun t => (.str t.1, t.2)
      else if c = 91 then
        match expect 93 r with
        | some r' => some (.arr [] [], r')
        | none => (parseItems n r).map fun t => (.arr t.1 [], t.2)
      else if c = 123 then
        match expect 125 r with
        | some r' => some (.obj [], r')
        | none => (parseFields n r).map fun t => (.obj (fromEntries t.1), t.2)
      else readNumber F (c :: r)

def parseItems : Nat → Str → Option (List (Value N X) × Str)
  | 0, _ => none
  | n + 1, s =>
    match parseValue n s with
    | none => none
    | some (v, r) =>
      match expect 44 r with
      | some r' => (parseItems n r').map fun t => (v :: t.1, t.2)
      | none => (expect 93 r).map fun r' => ([v], r')

def parseFields : Nat → Str → Option (List (Str × Value N X) × Str)
  | 0, _ => none
  | n + 1, s =>
    match (expect 34 s).bind readUnits with
    | none => none
    | some (k, r) =>
      match (expect 58 r).bind (parseValue n) with
      | none => none
      | some (v, r') =>
        match expect 44 r' with
        | some r'' => (parseFields n r'').map fun t => ((k, v) :: t.1, t.2)
        | none => (expect 125 r').map fun r'' => ([(k, v)], r'')

end

/-- `JSON.parse`. -/
def parse (s : Str) : Option (Value N X) :=
  match parseValue F s.length s with
  | none => none
  | some (v, r) => if skipSpace r = [] then some v else none

end Text

/-! ## Property order -/

section Order

variable {α β : Type}

/-- The same keys with other values. -/
def mapSnd (f : α → β) (l : List (Str × α)) : List (Str × β) := l.map fun e => (e.1, f e.2)

theorem map_fst_mapSnd (f : α → β) (l : List (Str × α)) :
    (mapSnd f l).map Prod.fst = l.map Prod.fst := by
  simp [mapSnd, Function.comp_def]

theorem ownOrder_perm (l : List (Str × α)) : (ownOrder l).Perm l := by
  unfold ownOrder
  refine ((List.perm_insertionSort _ _).append_right _).trans ?_
  have h := List.filter_append_perm (fun f : Str × α => (arrayIndex? f.1).isSome) l
  simpa [Option.not_isSome] using h

theorem ownOrder_mapSnd (f : α → β) (l : List (Str × α)) :
    ownOrder (mapSnd f l) = mapSnd f (ownOrder l) := by
  unfold ownOrder mapSnd
  rw [List.map_append, List.filter_map, List.filter_map,
    List.map_insertionSort _ (fun a b : Str × β => (arrayIndex? a.1).getD 0 ≤ (arrayIndex? b.1).getD 0)
      _ _ fun _ _ _ _ => Iff.rfl]
  rfl

theorem ownOrder_idem (l : List (Str × α)) : ownOrder (ownOrder l) = ownOrder l := by
  obtain ⟨indexed, hindexed⟩ : ∃ indexed : List (Str × α), indexed =
    (l.filter fun f => (arrayIndex? f.1).isSome).insertionSort
      fun a b => (arrayIndex? a.1).getD 0 ≤ (arrayIndex? b.1).getD 0 := ⟨_, rfl⟩
  have hindex : ∀ e ∈ indexed, (arrayIndex? e.1).isSome = true := by
    intro e he
    rw [hindexed, List.mem_insertionSort] at he
    exact (List.mem_filter.mp he).2
  have hsorted : indexed.insertionSort
      (fun a b => (arrayIndex? a.1).getD 0 ≤ (arrayIndex? b.1).getD 0) = indexed := by
    have : Std.Total fun a b : Str × α => (arrayIndex? a.1).getD 0 ≤ (arrayIndex? b.1).getD 0 :=
      ⟨fun _ _ => Nat.le_total _ _⟩
    have : IsTrans (Str × α) fun a b => (arrayIndex? a.1).getD 0 ≤ (arrayIndex? b.1).getD 0 :=
      ⟨fun _ _ _ h h' => Nat.le_trans h h'⟩
    rw [hindexed]
    exact (List.pairwise_insertionSort _ _).insertionSort_eq
  have hboth : ∀ k, ¬ ((arrayIndex? k).isSome && (arrayIndex? k).isNone) = true := by
    intro k h
    cases hk : arrayIndex? k <;> simp [hk] at h
  have hsome : (indexed ++ l.filter fun f => (arrayIndex? f.1).isNone).filter
      (fun f => (arrayIndex? f.1).isSome) = indexed := by
    rw [List.filter_append, List.filter_eq_self.mpr hindex, List.filter_filter,
      List.filter_eq_nil_iff.mpr, List.append_nil]
    intro e _ h
    exact hboth e.1 h
  have hnone : (indexed ++ l.filter fun f => (arrayIndex? f.1).isNone).filter
      (fun f => (arrayIndex? f.1).isNone) = l.filter fun f => (arrayIndex? f.1).isNone := by
    rw [List.filter_append, List.filter_filter, List.filter_eq_nil_iff.mpr]
    · simp
    · intro e he h
      exact hboth e.1 ((Bool.and_eq_true _ _).mpr ⟨hindex e he, h⟩)
  have hown : ownOrder l = indexed ++ l.filter fun f => (arrayIndex? f.1).isNone := by
    rw [hindexed]
    rfl
  rw [hown]
  unfold ownOrder
  rw [hsome, hnone, hsorted]

theorem foldl_set_entries : ∀ (l : List (Str × α)) (m : JsMap Str α),
    (m.keys ++ l.map Prod.fst).Nodup →
    (l.foldl (fun m e => m.set e.1 e.2) m).entries = m.entries ++ l
  | [], m, _ => by simp
  | e :: l, m, h => by
    have hnew : e.1 ∉ m.keys := by
      intro hmem
      rw [List.map_cons, List.nodup_append] at h
      exact h.2.2 e.1 hmem e.1 List.mem_cons_self rfl
    have hset : (m.set e.1 e.2).entries = m.entries ++ [e] := by
      unfold JsMap.set
      rw [dif_neg hnew]
    have hkeys : (m.set e.1 e.2).keys = m.keys ++ [e.1] := by
      unfold JsMap.keys
      rw [hset, List.map_append]
      rfl
    rw [List.foldl_cons, foldl_set_entries l _ (by rw [hkeys]; simpa using h), hset]
    simp

theorem fromEntries_of_nodup {l : List (Str × α)} (h : (l.map Prod.fst).Nodup) :
    fromEntries l = ownOrder l := by
  unfold fromEntries
  rw [foldl_set_entries l .empty (by simpa [JsMap.keys, JsMap.empty] using h)]
  rfl

end Order

/-! ## Strings are read as they were quoted -/

theorem hexValue_hexDigit {n : Nat} (h : n < 16) : hexValue (hexDigit n) = some n := by
  have hall : ∀ n : Fin 16, hexValue (hexDigit n.val) = some n.val := by decide
  exact hall ⟨n, h⟩

theorem hexUnit_digits (c : UInt16) :
    hexUnit (hexDigit (c.toNat / 4096)) (hexDigit (c.toNat / 256 % 16))
      (hexDigit (c.toNat / 16 % 16)) (hexDigit (c.toNat % 16)) = some c := by
  have hlt := c.toNat_lt
  unfold hexUnit
  rw [hexValue_hexDigit (by omega), hexValue_hexDigit (by omega), hexValue_hexDigit (by omega),
    hexValue_hexDigit (by omega)]
  have hsum : 4096 * (c.toNat / 4096) + 256 * (c.toNat / 256 % 16) + 16 * (c.toNat / 16 % 16) +
      c.toNat % 16 = c.toNat := by omega
  simp only [hsum, UInt16.ofNat_toNat]

theorem readUnits_plain {c : UInt16} (hquote : c ≠ 34) (hslash : c ≠ 92) (hlow : ¬ c < 32) (s : Str) :
    readUnits (c :: s) = (readUnits s).map fun r => (c :: r.1, r.2) := by
  rw [readUnits.eq_def]
  dsimp only
  rw [if_neg hquote, if_neg hslash, if_neg hlow]

theorem readUnits_unicodeEscape (c : UInt16) (s : Str) :
    readUnits (unicodeEscape c ++ s) = (readUnits s).map fun r => (c :: r.1, r.2) := by
  unfold unicodeEscape
  simp only [List.cons_append, List.nil_append]
  rw [readUnits, if_neg (by decide), if_pos rfl]
  simp only [hexUnit_digits]

theorem readUnits_simple {e c : UInt16} (he : e ≠ 117) (h : simpleEscape e = some c) (s : Str) :
    readUnits (92 :: e :: s) = (readUnits s).map fun r => (c :: r.1, r.2) := by
  rw [readUnits, if_neg (by decide), if_pos rfl, h]
  intro a b d e' rest he'
  exact absurd he' he

theorem readUnits_quoteUnit (c : UInt16) (next : Bool) (s : Str) :
    readUnits (quoteUnit c next ++ s) = (readUnits s).map fun r => (c :: r.1, r.2) := by
  unfold quoteUnit
  split
  · rename_i h; subst h; exact readUnits_simple (by decide) rfl s
  split
  · rename_i h; subst h; exact readUnits_simple (by decide) rfl s
  split
  · rename_i h; subst h; exact readUnits_simple (by decide) rfl s
  split
  · rename_i h; subst h; exact readUnits_simple (by decide) rfl s
  split
  · rename_i h; subst h; exact readUnits_simple (by decide) rfl s
  split
  · rename_i h; subst h; exact readUnits_simple (by decide) rfl s
  split
  · rename_i h; subst h; exact readUnits_simple (by decide) rfl s
  split
  · exact readUnits_unicodeEscape c s
  · rename_i hquote hslash hlow
    exact readUnits_plain hquote hslash (fun h => hlow (.inl h)) s

theorem readUnits_trail {c : UInt16} (h : isTrail c = true) (s : Str) :
    readUnits (c :: s) = (readUnits s).map fun r => (c :: r.1, r.2) := by
  simp only [isTrail, Bool.and_eq_true, decide_eq_true_eq, UInt16.le_iff_toNat_le] at h
  refine readUnits_plain ?_ ?_ ?_ s
  · rintro rfl
    revert h
    decide
  · rintro rfl
    revert h
    decide
  · intro hlt
    rw [UInt16.lt_iff_toNat_lt] at hlt
    have h32 : (32 : UInt16).toNat = 32 := rfl
    have h56320 : (0xDC00 : UInt16).toNat = 0xDC00 := rfl
    omega

/-- What `quoteUnits` prints is read up to the closing quote. -/
theorem readUnits_quoteUnits : ∀ (s : Str) (paired : Bool) (rest : Str),
    (paired = true → startsTrail s = true) →
    readUnits (quoteUnits paired s ++ 34 :: rest) = some (s, rest)
  | [], paired, rest, _ => by
    unfold quoteUnits
    rw [List.nil_append, readUnits.eq_def]
    rfl
  | c :: cs, paired, rest, h => by
    have ih := readUnits_quoteUnits cs (!paired && isLead c && startsTrail cs) rest
      fun h => ((Bool.and_eq_true _ _).mp h).2
    unfold quoteUnits
    rw [List.append_assoc]
    cases paired with
    | true =>
      rw [if_pos rfl, List.singleton_append, readUnits_trail (h rfl), ih]
      rfl
    | false =>
      rw [if_neg (by decide), readUnits_quoteUnit, ih]
      rfl

theorem readUnits_quote (s rest : Str) :
    (expect 34 (quote s ++ rest)).bind readUnits = some (s, rest) := by
  unfold quote
  have hexpect : expect 34 (34 :: (quoteUnits false s ++ [34]) ++ rest) =
      some (quoteUnits false s ++ 34 :: rest) := by
    unfold expect skipSpace
    rw [List.cons_append, List.dropWhile_cons_of_neg (by decide)]
    simp
  rw [hexpect]
  exact readUnits_quoteUnits s false rest fun h => by cases h
/-! ## Spaces -/

theorem skipSpace_newline (indent : Nat) (s : Str) : skipSpace (newline indent ++ s) = skipSpace s := by
  unfold skipSpace newline
  refine List.dropWhile_append_of_pos fun c hc => ?_
  rcases List.mem_cons.mp hc with rfl | hc
  · rfl
  · rw [List.eq_of_mem_replicate hc]
    rfl

theorem skipSpace_cons {c : UInt16} (h : isSpace c = false) (s : Str) :
    skipSpace (c :: s) = c :: s := by
  unfold skipSpace
  rw [List.dropWhile_cons, h]
  rfl

theorem expect_newline (c : UInt16) (indent : Nat) (s : Str) :
    expect c (newline indent ++ s) = expect c s := by
  unfold expect
  rw [skipSpace_newline]

theorem expect_self {c : UInt16} (h : isSpace c = false) (s : Str) : expect c (c :: s) = some s := by
  unfold expect
  rw [skipSpace_cons h]
  exact if_pos rfl

theorem expect_ne {c d : UInt16} (h : isSpace d = false) (hne : d ≠ c) (s : Str) :
    expect c (d :: s) = none := by
  unfold expect
  rw [skipSpace_cons h]
  exact if_neg hne

section Text

variable {N X : Type} {F : NumberFormat N}

theorem parseValue_newline (n indent : Nat) (s : Str) :
    (parseValue F n (newline indent ++ s) : Option (Value N X × Str)) = parseValue F n s := by
  cases n with
  | zero => rfl
  | succ n =>
    unfold parseValue
    rw [skipSpace_newline]

theorem parseValue_space (n : Nat) (s : Str) :
    (parseValue F n (32 :: s) : Option (Value N X × Str)) = parseValue F n s := by
  cases n with
  | zero => rfl
  | succ n => rfl

/-! ## Numbers -/

/-- Nothing that could belong to a number comes next. -/
def Follow (rest : Str) : Prop := ∀ c ∈ rest.head?, isNumberUnit c = false

theorem span_append {p : UInt16 → Bool} {l r : Str} (hl : ∀ c ∈ l, p c = true)
    (hr : ∀ c ∈ r.head?, p c = false) :
    (l ++ r).takeWhile p = l ∧ (l ++ r).dropWhile p = r := by
  rw [List.takeWhile_append_of_pos hl, List.dropWhile_append_of_pos hl]
  cases r with
  | nil => simp
  | cons c r =>
    have hc := hr c rfl
    rw [List.takeWhile_cons, List.dropWhile_cons, hc]
    simp

theorem readNumber_text (n : N) {rest : Str} (h : Follow rest) :
    (readNumber F (F.text n ++ rest) : Option (Value N X × Str)) = some (.num (.finite n), rest) := by
  have hunits : ∀ c ∈ F.text n, isNumberUnit c = true := fun c hc => by
    simpa [isNumberUnit] using F.units n c hc
  obtain ⟨htake, hdrop⟩ := span_append hunits h
  unfold readNumber
  rw [htake, hdrop, F.read_text]
  rfl

/-- A unit that begins none of the other values, and no space. -/
theorem numberUnit_starts {c : UInt16} (h : c ∈ units "0123456789+-.eE") :
    isSpace c = false ∧ c ≠ 110 ∧ c ≠ 116 ∧ c ≠ 102 ∧ c ≠ 34 ∧ c ≠ 91 ∧ c ≠ 123 ∧ c ≠ 93 := by
  have hall : ∀ c ∈ units "0123456789+-.eE", isSpace c = false ∧ c ≠ 110 ∧ c ≠ 116 ∧ c ≠ 102 ∧
      c ≠ 34 ∧ c ≠ 91 ∧ c ≠ 123 ∧ c ≠ 93 :=
    List.all_iff_forall_prop.mp (by decide)
  exact hall c h

theorem parseValue_number {n : N} {fuel : Nat} (hfuel : (F.text n).length ≤ fuel) {rest : Str}
    (h : Follow rest) :
    (parseValue F fuel (F.text n ++ rest) : Option (Value N X × Str)) =
      some (.num (.finite n), rest) := by
  obtain ⟨c, t, htext⟩ := List.exists_cons_of_ne_nil (F.nonempty n)
  obtain ⟨hspace, hn, ht, hf, hquote, harr, hobj, -⟩ :=
    numberUnit_starts (F.units n c (by rw [htext]; exact List.mem_cons_self))
  have hread : (readNumber F (F.text n ++ rest) : Option (Value N X × Str)) = _ :=
    readNumber_text n h
  rw [htext] at hread hfuel ⊢
  cases fuel with
  | zero => simp at hfuel
  | succ fuel =>
    unfold parseValue
    rw [List.cons_append, skipSpace_cons hspace]
    dsimp only
    rw [if_neg hn, if_neg ht, if_neg hf, if_neg hquote, if_neg harr, if_neg hobj]
    exact hread

/-! ## The round trip -/

mutual

/-- What `JSON.parse` can return: no negative zero that was printed, no stray property, and every
object in its own property order. -/
def Normal : Value N X → Prop
  | .num n => n ≠ .negZero
  | .arr items extra => extra = [] ∧ NormalItems items
  | .obj fields => fromEntries fields = fields ∧ NormalFields fields
  | _ => True

def NormalItems : List (Value N X) → Prop
  | [] => True
  | v :: items => Normal v ∧ NormalItems items

def NormalFields : List (Str × Value N X) → Prop
  | [] => True
  | (_, v) :: fields => Normal v ∧ NormalFields fields

end

/-- No value starts with a space or a closing bracket. -/
theorem stringify_head (indent : Nat) (v : Value N X) :
    ∃ c t, stringify F indent v = c :: t ∧ isSpace c = false ∧ c ≠ 93 := by
  have hnumber : ∀ n, ∃ c t, F.text n = c :: t ∧ isSpace c = false ∧ c ≠ 93 := by
    intro n
    obtain ⟨c, t, htext⟩ := List.exists_cons_of_ne_nil (F.nonempty n)
    have h := numberUnit_starts (F.units n c (by rw [htext]; exact List.mem_cons_self))
    exact ⟨c, t, htext, h.1, h.2.2.2.2.2.2.2⟩
  have hbracket : ∀ start close l, ∃ t, bracket start close indent l = start :: t := by
    intro start close l
    cases l with
    | nil => exact ⟨_, rfl⟩
    | cons x xs => exact ⟨_, rfl⟩
  cases v with
  | null => exact ⟨_, _, rfl, by decide, by decide⟩
  | bool b => cases b <;> exact ⟨_, _, rfl, by decide, by decide⟩
  | num n =>
    cases n with
    | finite n => exact hnumber n
    | negZero => exact hnumber F.zero
  | str s => exact ⟨_, _, rfl, by decide, by decide⟩
  | arr items extra =>
    obtain ⟨t, ht⟩ := hbracket 91 93 (stringifyItems F (indent + 2) items)
    exact ⟨91, t, ht, by decide, by decide⟩
  | obj fields =>
    obtain ⟨t, ht⟩ := hbracket 123 125 (stringifyFields F (indent + 2) fields)
    exact ⟨123, t, ht, by decide, by decide⟩

theorem expect_stringify (indent k : Nat) (v : Value N X) (s : Str) :
    expect 93 (newline k ++ (stringify F indent v ++ s)) = none := by
  obtain ⟨c, t, htext, hspace, hne⟩ := stringify_head (F := F) indent v
  rw [expect_newline, htext, List.cons_append]
  exact expect_ne hspace hne _

theorem follow_tail (close : UInt16) (indent : Nat) (l : List Str) (s : Str) :
    Follow (itemsTail close indent l ++ s) := by
  intro c hc
  cases l with
  | nil => cases hc; decide
  | cons x xs => cases hc; decide

theorem exists_fuel {indent n : Nat} {v : Value N X} (h : (stringify F indent v).length ≤ n) :
    ∃ m, n = m + 1 := by
  obtain ⟨c, t, htext, -⟩ := stringify_head (F := F) indent v
  rw [htext, List.length_cons] at h
  exact ⟨n - 1, by omega⟩

mutual

/-- A printed value is read back, up to where it ends. -/
theorem parseValue_stringify : ∀ (v : Value N X) (indent n : Nat) (rest : Str), Normal v →
    (stringify F indent v).length ≤ n → Follow rest →
    parseValue F n (stringify F indent v ++ rest) = some (v, rest)
  | .null, indent, n, rest, _, hn, _ => by
    obtain ⟨m, rfl⟩ := exists_fuel hn
    rfl
  | .bool b, indent, n, rest, _, hn, _ => by
    obtain ⟨m, rfl⟩ := exists_fuel hn
    cases b <;> rfl
  | .num (.finite q), indent, n, rest, _, hn, hrest => parseValue_number hn hrest
  | .num .negZero, _, _, _, hv, _, _ => absurd rfl hv
  | .str s, indent, n, rest, _, hn, _ => by
    obtain ⟨m, rfl⟩ := exists_fuel hn
    have hread := readUnits_quoteUnits s false rest fun h => by cases h
    unfold parseValue stringify quote
    rw [List.cons_append, skipSpace_cons (by decide), List.append_assoc, List.singleton_append]
    dsimp only
    rw [if_neg (by decide), if_neg (by decide), if_neg (by decide), if_pos rfl, hread]
    rfl
  | .arr [] extra, indent, n, rest, hv, hn, _ => by
    obtain ⟨rfl, -⟩ := hv
    obtain ⟨m, rfl⟩ := exists_fuel hn
    rfl
  | .arr (v :: items) extra, indent, n, rest, hv, hn, _ => by
    obtain ⟨rfl, hitems⟩ := hv
    obtain ⟨m, rfl⟩ := exists_fuel hn
    have hlen : (stringify F indent (Value.arr (X := X) (v :: items) [])).length = 1 +
      (newline (indent + 2) ++ (stringify F (indent + 2) v ++
        itemsTail 93 indent (stringifyItems F (indent + 2) items))).length := by
      simp only [stringify, stringifyItems, bracket, List.length_cons]
      omega
    have hread := parseItems_stringify (v :: items) indent m rest hitems _ _ rfl (by omega)
    unfold parseValue stringify stringifyItems bracket
    rw [List.cons_append, skipSpace_cons (by decide)]
    dsimp only
    rw [if_neg (by decide), if_neg (by decide), if_neg (by decide), if_neg (by decide), if_pos rfl,
      List.append_assoc, List.append_assoc, expect_stringify]
    rw [List.append_assoc, List.append_assoc] at hread
    dsimp only
    rw [hread]
    rfl
  | .obj [], indent, n, rest, _, hn, _ => by
    obtain ⟨m, rfl⟩ := exists_fuel hn
    rfl
  | .obj ((k, v) :: fields), indent, n, rest, hv, hn, _ => by
    obtain ⟨hown, hfields⟩ := hv
    obtain ⟨m, rfl⟩ := exists_fuel hn
    have hlen : (stringify F indent (Value.obj (X := X) ((k, v) :: fields))).length = 1 +
      (newline (indent + 2) ++ (member k (stringify F (indent + 2) v) ++
        itemsTail 125 indent (stringifyFields F (indent + 2) fields))).length := by
      simp only [stringify, stringifyFields, bracket, List.length_cons]
      omega
    have hread := parseFields_stringify ((k, v) :: fields) indent m rest hfields _ _ rfl (by omega)
    have hquote : expect 125 (newline (indent + 2) ++ (member k (stringify F (indent + 2) v) ++
        (itemsTail 125 indent (stringifyFields F (indent + 2) fields) ++ rest))) = none := by
      rw [expect_newline]
      exact expect_ne (by decide) (by decide) _
    unfold parseValue stringify stringifyFields bracket
    rw [List.cons_append, skipSpace_cons (by decide)]
    dsimp only
    rw [if_neg (by decide), if_neg (by decide), if_neg (by decide), if_neg (by decide),
      if_neg (by decide), if_pos rfl, List.append_assoc, List.append_assoc, hquote]
    rw [List.append_assoc, List.append_assoc] at hread
    dsimp only
    rw [hread, Option.map_some, hown]

theorem parseItems_stringify : ∀ (items : List (Value N X)) (indent n : Nat) (rest : Str),
    NormalItems items → ∀ x xs, stringifyItems F (indent + 2) items = x :: xs →
    (newline (indent + 2) ++ (x ++ itemsTail 93 indent xs)).length ≤ n →
    parseItems F n (newline (indent + 2) ++ (x ++ itemsTail 93 indent xs) ++ rest) =
      some (items, rest)
  | [], _, _, _, _, _, _, h, _ => by cases h
  | v :: items, indent, n, rest, hv, x, xs, h, hn => by
    obtain ⟨rfl, rfl⟩ := List.cons.inj h
    have htail : 1 ≤ (itemsTail 93 indent (stringifyItems F (indent + 2) items)).length := by
      cases stringifyItems F (indent + 2) items with
      | nil => simp [itemsTail]
      | cons y ys => simp [itemsTail]
    rw [List.length_append, List.length_append] at hn
    obtain ⟨m, rfl⟩ : ∃ m, n = m + 1 := ⟨n - 1, by omega⟩
    have hv' := parseValue_stringify v (indent + 2) m
      (itemsTail 93 indent (stringifyItems F (indent + 2) items) ++ rest) hv.1 (by omega)
      (follow_tail 93 indent _ rest)
    unfold parseItems
    rw [List.append_assoc, List.append_assoc, parseValue_newline, hv']
    dsimp only
    cases items with
    | nil =>
      unfold stringifyItems itemsTail
      rw [List.append_assoc, expect_newline, expect_newline]
      rfl
    | cons w ws =>
      have hws := parseItems_stringify (w :: ws) indent m rest hv.2 _ _ rfl (by
        simp only [stringifyItems, itemsTail, List.length_cons] at hn
        omega)
      unfold stringifyItems itemsTail
      rw [List.cons_append, expect_self (by decide)]
      dsimp only
      rw [hws]
      rfl

theorem parseFields_stringify : ∀ (fields : List (Str × Value N X)) (indent n : Nat) (rest : Str),
    NormalFields fields → ∀ x xs, stringifyFields F (indent + 2) fields = x :: xs →
    (newline (indent + 2) ++ (x ++ itemsTail 125 indent xs)).length ≤ n →
    parseFields F n (newline (indent + 2) ++ (x ++ itemsTail 125 indent xs) ++ rest) =
      some (fields, rest)
  | [], _, _, _, _, _, _, h, _ => by cases h
  | (k, v) :: fields, indent, n, rest, hv, x, xs, h, hn => by
    obtain ⟨rfl, rfl⟩ := List.cons.inj h
    have htail : 1 ≤ (itemsTail 125 indent (stringifyFields F (indent + 2) fields)).length := by
      cases stringifyFields F (indent + 2) fields with
      | nil => simp [itemsTail]
      | cons y ys => simp [itemsTail]
    rw [List.length_append, List.length_append] at hn
    have hmember : (member k (stringify F (indent + 2) v)).length =
        (quote k).length + 2 + (stringify F (indent + 2) v).length := by
      simp only [member, List.length_append, List.length_cons]
      omega
    obtain ⟨m, rfl⟩ : ∃ m, n = m + 1 := ⟨n - 1, by omega⟩
    have hv' := parseValue_stringify v (indent + 2) m
      (itemsTail 125 indent (stringifyFields F (indent + 2) fields) ++ rest) hv.1 (by omega)
      (follow_tail 125 indent _ rest)
    unfold parseFields
    rw [List.append_assoc, List.append_assoc, expect_newline]
    unfold member
    rw [List.append_assoc, readUnits_quote]
    dsimp only
    rw [List.cons_append, List.cons_append, expect_self (by decide), Option.bind_some,
      parseValue_space, hv']
    dsimp only
    cases fields with
    | nil =>
      unfold stringifyFields itemsTail
      rw [List.append_assoc, expect_newline, expect_newline]
      rfl
    | cons f fs =>
      obtain ⟨k', w⟩ := f
      have hfs := parseFields_stringify ((k', w) :: fs) indent m rest hv.2
        (member k' (stringify F (indent + 2) w)) (stringifyFields F (indent + 2) fs) rfl (by
          simp only [stringifyFields, itemsTail, List.length_cons] at hn
          omega)
      unfold stringifyFields itemsTail
      rw [List.cons_append, expect_self (by decide)]
      dsimp only
      rw [hfs]
      rfl

end

/-- **What is printed of a normal value is read as that value.** -/
theorem parse_stringify {v : Value N X} (h : Normal v) :
    parse F (stringify F 0 v ++ [10]) = some v := by
  unfold parse
  rw [parseValue_stringify v 0 _ [10] h (by simp) (fun c hc => by cases hc; decide)]
  rfl

end Text

/-! ## Natural numbers -/

def isDigit (c : UInt16) : Bool := 48 ≤ c && c ≤ 57

theorem digit_unit {c : Char} (h : c.isDigit = true) :
    (UInt16.ofNat c.toNat).toNat = c.toNat ∧ isDigit (UInt16.ofNat c.toNat) = true := by
  rw [Char.isDigit_iff_toNat] at h
  have hlow : 48 ≤ c.toNat := h.1
  have hhigh : c.toNat ≤ 57 := h.2
  have hnat : (UInt16.ofNat c.toNat).toNat = c.toNat := by
    rw [UInt16.toNat_ofNat']
    omega
  refine ⟨hnat, ?_⟩
  simp only [isDigit, Bool.and_eq_true, decide_eq_true_eq, UInt16.le_iff_toNat_le, hnat]
  exact ⟨hlow, hhigh⟩

theorem decimalValue_units : ∀ (l : List Char) (n : Nat), (∀ c ∈ l, c.isDigit = true) →
    (l.map fun c => UInt16.ofNat c.toNat).foldl (fun n c => 10 * n + (c.toNat - 48)) n =
      Nat.ofDigitChars 10 l n
  | [], _, _ => by rw [Nat.ofDigitChars_nil]; rfl
  | c :: l, n, h => by
    rw [List.map_cons, List.foldl_cons, Nat.ofDigitChars_cons, (digit_unit (h c List.mem_cons_self)).1]
    exact decimalValue_units l _ fun d hd => h d (List.mem_cons_of_mem _ hd)

theorem toString_digits (n : Nat) :
    (toString n).toList = Nat.toDigits 10 n ∧ ∀ c ∈ Nat.toDigits 10 n, c.isDigit = true := by
  refine ⟨?_, fun c hc => Nat.isDigit_of_mem_toDigits (by decide) (by decide) hc⟩
  rw [Nat.toString_eq_repr, Nat.toList_repr]

theorem units_toString_digits (n : Nat) : ∀ c ∈ units (toString n), isDigit c = true := by
  obtain ⟨htext, hdigits⟩ := toString_digits n
  intro c hc
  unfold units at hc
  rw [htext] at hc
  obtain ⟨d, hd, rfl⟩ := List.mem_map.mp hc
  exact (digit_unit (hdigits d hd)).2

theorem units_toString_ne_nil (n : Nat) : units (toString n) ≠ [] := by
  unfold units
  rw [(toString_digits n).1]
  simp [Nat.toDigits_ne_nil]

/-- The numbers that are natural, in decimal. -/
def naturals : NumberFormat Nat where
  zero := 0
  text n := units (toString n)
  read s := if s ≠ [] ∧ s.all isDigit then some (.finite (decimalValue s)) else none
  read_text n := by
    obtain ⟨htext, hdigits⟩ := toString_digits n
    rw [if_pos ⟨units_toString_ne_nil n, List.all_eq_true.mpr (units_toString_digits n)⟩]
    unfold decimalValue units
    rw [htext, decimalValue_units _ _ hdigits, Nat.ofDigitChars_ten_toDigits]
  units n c hc := by
    have hdigit := units_toString_digits n c hc
    simp only [isDigit, Bool.and_eq_true, decide_eq_true_eq, UInt16.le_iff_toNat_le] at hdigit
    have hall : ∀ d : Fin 10, UInt16.ofNat (48 + d.val) ∈ units "0123456789+-.eE" := by decide
    have hlow : 48 ≤ c.toNat := hdigit.1
    have hhigh : c.toNat ≤ 57 := hdigit.2
    have hmem := hall ⟨c.toNat - 48, by omega⟩
    rw [show 48 + (c.toNat - 48) = c.toNat by omega, UInt16.ofNat_toNat] at hmem
    exact hmem
  nonempty n := units_toString_ne_nil n

end KNex.Core.JsonText
