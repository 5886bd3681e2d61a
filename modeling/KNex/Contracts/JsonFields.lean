import KNex.Contracts.CompactJson
import Mathlib.Algebra.Order.BigOperators.Group.List
import Mathlib.Data.Nat.Digits.Defs

/-!
# Fields of JSON objects

Reading the fields of a parsed object (`field?`, `objectWith`), and what neither the order of the
fields nor their canonical form changes: the canonical text (`canonicalJson_perm`) and the number of
bytes (`jsonBytes_norm`).
-/
namespace KNex.Contracts.CanonicalJson

open KNex.Core KNex.Core.JsonText KNex.Core.TextCoding

variable {N : Type}

/-! ## Reading -/

/-- `value[key]` of an own property. -/
def field? (fields : List (Str × JsonValue N)) (key : String) : Option (JsonValue N) :=
  (fields.find? fun f => f.1 = units key).map Prod.snd

/-- The fields of an object that has no keys but the allowed ones and has the required ones. -/
def objectWith (value : JsonValue N) (allowed required : List String) :
    Option (List (Str × JsonValue N)) :=
  match value with
  | .obj fields =>
    if (∀ f ∈ fields, f.1 ∈ allowed.map units) ∧ ∀ key ∈ required, (field? fields key).isSome then
      some fields
    else none
  | _ => none

/-- The elements of an array. -/
def arrayOf : JsonValue N → Option (List (JsonValue N))
  | .arr items _ => some items
  | _ => none

def textOf : JsonValue N → Option Str
  | .str s => some s
  | _ => none

theorem objectWith_eq_some {value : JsonValue N} {allowed required : List String}
    {fields : List (Str × JsonValue N)} : objectWith value allowed required = some fields ↔
      value = .obj fields ∧ (∀ f ∈ fields, f.1 ∈ allowed.map units) ∧
        ∀ key ∈ required, (field? fields key).isSome := by
  unfold objectWith
  cases value with
  | obj fields' =>
    dsimp only
    constructor
    · intro h
      split at h
      · rename_i hkeys
        cases h
        exact ⟨rfl, hkeys⟩
      · cases h
    · rintro ⟨h, hkeys⟩
      cases h
      rw [if_pos hkeys]
  | _ => simp

theorem mem_of_field? {fields : List (Str × JsonValue N)} {key : String} {v : JsonValue N}
    (h : field? fields key = some v) : (units key, v) ∈ fields := by
  unfold field? at h
  obtain ⟨f, hf, rfl⟩ := Option.map_eq_some_iff.mp h
  have hkey := List.find?_some hf
  rw [← of_decide_eq_true hkey]
  exact List.mem_of_find?_eq_some hf

theorem arrayOf_eq_some {v : JsonValue N} {items : List (JsonValue N)} :
    arrayOf v = some items ↔ ∃ extra, v = .arr items extra := by
  cases v <;> simp [arrayOf]

theorem textOf_eq_some {v : JsonValue N} {s : Str} : textOf v = some s ↔ v = .str s := by
  cases v <;> simp [textOf]

/-! ## Parts of clean values -/

theorem noStrayItems_iff {items : List (JsonValue N)} :
    NoStrayItems items ↔ ∀ v ∈ items, NoStray v := by
  induction items with
  | nil => simp [NoStrayItems]
  | cons v items ih => rw [NoStrayItems, ih, List.forall_mem_cons]

theorem Clean.of_mem {fields : List (Str × JsonValue N)} (h : Clean (.obj fields))
    {f : Str × JsonValue N} (hf : f ∈ fields) : Clean f.2 :=
  ⟨distinctFields_iff.mp h.1.2 f hf, noStrayFields_iff.mp h.2 f hf⟩

theorem Clean.of_field? {fields : List (Str × JsonValue N)} (h : Clean (.obj fields))
    {key : String} {v : JsonValue N} (hv : field? fields key = some v) : Clean v :=
  h.of_mem (mem_of_field? hv)

theorem Clean.of_item {items : List (JsonValue N)} {extra : List (Str × JsValue N)}
    (h : Clean (.arr items extra)) {v : JsonValue N} (hv : v ∈ items) : Clean v :=
  cleanItems_iff.mp ⟨h.1, h.2.2⟩ v hv

/-! ## The order of fields -/

section Canonical

variable {F : NumberFormat N}

theorem norm_perm {fields fields' : List (Str × JsonValue N)} (h : fields.Perm fields')
    (hn : (fields.map Prod.fst).Nodup) : norm F (.obj fields) = .obj (ownOrder (sortEntries
      (normFields F fields'))) := by
  have hperm : (normFields F fields).Perm (normFields F fields') := by
    unfold normFields mapSnd
    exact h.map _
  rw [norm_obj hn, sortEntries_eq hperm (by unfold normFields; rw [map_fst_mapSnd]; exact hn)]

/-- Fields in another order have the same canonical text. -/
theorem canonicalJson_perm {fields fields' : List (Str × JsonValue N)} (h : fields.Perm fields')
    (hn : (fields.map Prod.fst).Nodup) (hstray : NoStrayFields fields) :
    canonicalJson F (ofParsed (.obj fields)) = canonicalJson F (ofParsed (.obj fields')) := by
  have hn' : (fields'.map Prod.fst).Nodup := (h.map Prod.fst).nodup_iff.mp hn
  have hstray' : NoStrayFields fields' :=
    noStrayFields_iff.mpr fun f hf => noStrayFields_iff.mp hstray f (h.mem_iff.mpr hf)
  rw [canonicalJson_eq (assertJsonValue_ofParsed (.obj fields) _ hstray),
    canonicalJson_eq (assertJsonValue_ofParsed (.obj fields') _ hstray'),
    norm_perm h hn, norm_perm (List.Perm.refl _) hn']

end Canonical

/-! ## Bytes -/

theorem two_le_utf8Size {c : Char} (h : 128 ≤ c.toNat) : 2 ≤ c.utf8Size := by
  unfold Char.utf8Size
  dsimp only
  rw [if_neg]
  · split <;> [decide; (split <;> decide)]
  · rw [UInt32.le_iff_toNat_le]
    show ¬ c.toNat ≤ 127
    omega

/-- A text has no more characters than bytes. -/
theorem length_le_byteLength : ∀ s : Str, s.length ≤ byteLength s
  | [] => le_rfl
  | [c] => by
    have hpos := Char.utf8Size_pos (loneChar c)
    unfold byteLength encode
    rw [scalars, List.flatMap_singleton, String.length_utf8EncodeChar]
    exact hpos
  | c :: d :: s => by
    unfold byteLength encode
    rw [scalars]
    split
    · rename_i hpair
      rw [Bool.and_eq_true, isLead_iff, isTrail_iff] at hpair
      have hvalid : (0x10000 + (c.toNat - 0xD800) * 0x400 + (d.toNat - 0xDC00)).isValidChar := by
        show _ < 0xd800 ∨ 0xdfff < _ ∧ _ < 0x110000
        omega
      have hsize : 2 ≤ (pairChar c d).utf8Size := by
        refine two_le_utf8Size ?_
        unfold pairChar
        rw [toNat_ofNat_valid hvalid]
        omega
      have ih := length_le_byteLength s
      unfold byteLength encode at ih
      rw [List.flatMap_cons, List.length_append, String.length_utf8EncodeChar, List.length_cons,
        List.length_cons]
      omega
    · have hpos := Char.utf8Size_pos (loneChar c)
      have ih := length_le_byteLength (d :: s)
      unfold byteLength encode at ih
      rw [List.flatMap_cons, List.length_append, String.length_utf8EncodeChar, List.length_cons]
      omega

section Bytes

variable (F : Integers N)

def fieldBytes (f : Str × JsonValue N) : Nat := byteLength (quote f.1) + 1 + jsonBytes F f.2

theorem fieldsBytes_eq (fields : List (Str × JsonValue N)) :
    fieldsBytes F fields = (fields.map (fieldBytes F)).sum := by
  induction fields with
  | nil => rfl
  | cons field fields ih =>
    obtain ⟨k, v⟩ := field
    rw [fieldsBytes, ih, List.map_cons, List.sum_cons]
    rfl

theorem itemsBytes_eq (items : List (JsonValue N)) :
    itemsBytes F items = (items.map (jsonBytes F)).sum := by
  induction items with
  | nil => rfl
  | cons v items ih => rw [itemsBytes, ih, List.map_cons, List.sum_cons]

/-- Some of the fields take no more than all of them. -/
theorem fieldsBytes_le {some all : List (Str × JsonValue N)} (hn : (some.map Prod.fst).Nodup)
    (h : ∀ f ∈ some, f ∈ all) : fieldsBytes F some ≤ fieldsBytes F all := by
  obtain ⟨l, hperm, hsub⟩ := List.subperm_of_subset hn.of_map h
  rw [fieldsBytes_eq, fieldsBytes_eq, ← (hperm.map (fieldBytes F)).sum_eq]
  exact (hsub.map (fieldBytes F)).sum_le_sum fun _ _ => Nat.zero_le _

/-- An object of some of the fields takes no more than the object. -/
theorem jsonBytes_obj_le {some all : List (Str × JsonValue N)} (hn : (some.map Prod.fst).Nodup)
    (h : ∀ f ∈ some, f ∈ all) : jsonBytes F (.obj some) ≤ jsonBytes F (.obj all) := by
  have hbytes := fieldsBytes_le F hn h
  have hlength := (List.subperm_of_subset hn.of_map h).length_le
  rw [jsonBytes, jsonBytes]
  omega

mutual

/-- The canonical form takes as many bytes as the value. -/
theorem jsonBytes_norm : ∀ v : JsonValue N, Distinct v →
    jsonBytes F (norm F.toNumberFormat v) = jsonBytes F v
  | .null, _ => rfl
  | .bool true, _ => rfl
  | .bool false, _ => rfl
  | .num (.finite _), _ => rfl
  | .num .negZero, _ => rfl
  | .str _, _ => rfl
  | .arr items extra, h => by
    obtain ⟨hbytes, hlength⟩ := itemsBytes_norm items h
    rw [norm_arr, jsonBytes, jsonBytes, hbytes, hlength]
  | .obj fields, h => by
    have hperm : (ownOrder (sortEntries (normFields F.toNumberFormat fields))).Perm
        (normFields F.toNumberFormat fields) :=
      (ownOrder_perm _).trans (sortEntries_perm _)
    rw [norm_obj h.1, jsonBytes, jsonBytes, fieldsBytes_eq, (hperm.map _).sum_eq, hperm.length_eq,
      ← fieldsBytes_eq, fieldsBytes_norm fields h.2]
    simp [normFields, mapSnd]

theorem itemsBytes_norm : ∀ items : List (JsonValue N), DistinctItems items →
    itemsBytes F (plainItems F.toNumberFormat (sortValues items)) = itemsBytes F items ∧
      (plainItems F.toNumberFormat (sortValues items)).length = items.length
  | [], _ => ⟨rfl, rfl⟩
  | v :: items, h => by
    obtain ⟨hbytes, hlength⟩ := itemsBytes_norm items h.2
    have hv := jsonBytes_norm v h.1
    unfold norm at hv
    rw [sortValues, plainItems, itemsBytes, itemsBytes, hv, hbytes, List.length_cons, hlength]
    exact ⟨rfl, rfl⟩

theorem fieldsBytes_norm : ∀ fields : List (Str × JsonValue N), DistinctFields fields →
    fieldsBytes F (normFields F.toNumberFormat fields) = fieldsBytes F fields
  | [], _ => rfl
  | (k, v) :: fields, h => by
    show fieldsBytes F ((k, norm F.toNumberFormat v) :: normFields F.toNumberFormat fields) = _
    rw [fieldsBytes, fieldsBytes, jsonBytes_norm v h.1, fieldsBytes_norm fields h.2]

end

/-- The text that canonical JSON is read and printed to has the bytes of the value. -/
theorem byteLength_compact_norm {v : JsonValue N} (h : Distinct v) :
    byteLength (compact F (norm F.toNumberFormat v)) = jsonBytes F v := by
  rw [(byteLength_compact F _).2, jsonBytes_norm F v h]

end Bytes

/-! ## Decimal numbers -/

/-- A number format that prints a natural number as its decimal numeral. -/
structure DecimalIntegers (N : Type) extends Integers N where
  natural_text : ∀ (n : N) (k : Nat), integer n = some (k : Int) →
    text n = JsonText.units (toString k)

theorem DecimalIntegers.jsonBytes_num {F : DecimalIntegers N} {n : JsonText.Numeric N} {k width : Nat}
    (h : F.integerOf n = some (k : Int)) (hwidth : 0 < width) (hk : k < 10 ^ width) :
    jsonBytes F.toIntegers (.num n) ≤ width := by
  have hprint : F.print n = F.text (toNumber F.toNumberFormat n) := by cases n <;> rfl
  show (F.print n).length ≤ width
  rw [hprint, F.natural_text _ k h]
  unfold units
  rw [List.length_map, (toString_digits k).1]
  exact Nat.toDigits_length 10 k width hwidth hk

end KNex.Contracts.CanonicalJson
