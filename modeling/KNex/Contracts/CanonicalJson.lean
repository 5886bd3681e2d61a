import KNex.Core.Except
import KNex.Core.JsonText

/-!
# Canonical JSON of arbitrary values

`packages/contracts/src/canonical-json.ts`, on every acyclic ECMAScript value that is made of data:
the values of other types, non-plain objects, symbol keys, accessors, array holes and array
properties that are no elements are what `assertJsonValue` is there to reject. (A cycle is rejected
as well; here there are none.) `Core.Json` has the values that pass and whose keys are well-formed
text.

An accepted array may still own properties besides its elements: a name like `4294967295` is all
digits, but it is too large for an array index, so it passes the test of the names and nothing
prints it (`stray_lost`). `faithful_iff` says that this is the only loss: the canonical text is a
normal form of exactly the values without such a property.
-/
namespace KNex.Contracts.CanonicalJson

open KNex.Core KNex.Core.JsonText

/-! ## Values -/

inductive PropertyKey where
  | str (s : Str)
  | symbol (id : Nat)
  deriving DecidableEq

inductive Prototype where
  | object | null | other
  deriving DecidableEq

inductive JsNumber (N : Type) where
  | finite (n : JsonText.Numeric N)
  | nan
  | infinity (negative : Bool)

/-- A value. An array lists its elements, with the holes, and its other own properties except the
length; an object lists its own properties, each with whether it is enumerable and, unless it is an
accessor, its value. -/
inductive JsValue (N : Type) where
  | undefined
  | null
  | boolean (b : Bool)
  | number (n : JsNumber N)
  | bigint (n : Int)
  | string (s : Str)
  | symbol (id : Nat)
  | function (id : Nat)
  | array (elements : List (Option (JsValue N))) (extra : List (PropertyKey × JsValue N))
  | object (prototype : Prototype) (props : List (PropertyKey × Bool × Option (JsValue N)))

section Values

variable {N : Type}

/-- A value that was accepted. -/
abbrev JsonValue (N : Type) := Value N (JsValue N)

mutual

/-- What every engine guarantees: no object owns two properties of one name, and the array indices
of an array are its elements. -/
def WellFormed : JsValue N → Prop
  | .array elements extra => (extra.map Prod.fst).Nodup ∧
      (∀ k, .str k ∈ extra.map Prod.fst → arrayIndex? k = none ∧ k ≠ units "length") ∧
      ElementsWellFormed elements
  | .object _ props => (props.map Prod.fst).Nodup ∧ PropsWellFormed props
  | _ => True

def ElementsWellFormed : List (Option (JsValue N)) → Prop
  | [] => True
  | none :: elements => ElementsWellFormed elements
  | some v :: elements => WellFormed v ∧ ElementsWellFormed elements

def PropsWellFormed : List (PropertyKey × Bool × Option (JsValue N)) → Prop
  | [] => True
  | (_, _, none) :: props => PropsWellFormed props
  | (_, _, some v) :: props => WellFormed v ∧ PropsWellFormed props

end

/-! ## `assertJsonValue` -/

/-- The message of a `TypeError`. -/
abbrev Result (α : Type) := Except Str α

def unsupported {α : Type} (path : Str) (type : String) : Result α :=
  .error (path ++ units (" contains unsupported " ++ type ++ "."))

/-- The test of one own key of an array; `length` is not listed. -/
def arrayPropertyOk : PropertyKey → Bool
  | .str k => isDecimal k
  | .symbol _ => false

def stringProperties (extra : List (PropertyKey × JsValue N)) : List (Str × JsValue N) :=
  extra.filterMap fun e =>
    match e.1 with
    | .str k => some (k, e.2)
    | .symbol _ => none

def indexPath (path : Str) (index : Nat) : Str :=
  path ++ units "[" ++ units (toString index) ++ units "]"

mutual

/-- mirrors packages/contracts/src/canonical-json.ts:3-35 -/
def assertJsonValue (path : Str) : JsValue N → Result (JsonValue N)
  | .null => .ok .null
  | .string s => .ok (.str s)
  | .boolean b => .ok (.bool b)
  | .number (.finite n) => .ok (.num n)
  | .number _ => .error (path ++ units " contains a non-finite number.")
  | .undefined => unsupported path "undefined"
  | .bigint _ => unsupported path "bigint"
  | .symbol _ => unsupported path "symbol"
  | .function _ => unsupported path "function"
  | .array elements extra =>
    if extra.all fun e => arrayPropertyOk e.1 then do
      let items ← assertElements path 0 elements
      return .arr items (stringProperties extra)
    else .error (path ++ units " contains an unsupported array property.")
  | .object prototype props =>
    if prototype = .other then .error (path ++ units " contains a non-plain object.")
    else do
      let fields ← assertProps path props
      return .obj fields

def assertElements (path : Str) (index : Nat) :
    List (Option (JsValue N)) → Result (List (JsonValue N))
  | [] => .ok []
  | none :: _ => .error (indexPath path index ++ units " is an array hole.")
  | some v :: elements => do
    let item ← assertJsonValue (indexPath path index) v
    let items ← assertElements path (index + 1) elements
    return item :: items

def assertProps (path : Str) :
    List (PropertyKey × Bool × Option (JsValue N)) → Result (List (Str × JsonValue N))
  | [] => .ok []
  | (.symbol _, _, _) :: _ => .error (path ++ units " contains a symbol key.")
  | (.str k, true, some v) :: props => do
    let field ← assertJsonValue (path ++ units "." ++ k) v
    let fields ← assertProps path props
    return (k, field) :: fields
  | (.str k, _, _) :: _ =>
    .error (path ++ units "." ++ k ++ units " is not an enumerable data property.")

end

/-! ## `canonicalJson` -/

def sortEntries {α : Type} (entries : List (Str × α)) : List (Str × α) :=
  entries.insertionSort fun a b => StrLe a.1 b.1

mutual

/-- mirrors packages/contracts/src/canonical-json.ts:37-42 -/
def sortValue : JsonValue N → JsonValue N
  | .arr items _ => .arr (sortValues items) []
  | .obj fields => .obj (fromEntries (sortEntries (sortFields fields)))
  | v => v

def sortValues : List (JsonValue N) → List (JsonValue N)
  | [] => []
  | v :: items => sortValue v :: sortValues items

def sortFields : List (Str × JsonValue N) → List (Str × JsonValue N)
  | [] => []
  | (k, v) :: fields => (k, sortValue v) :: sortFields fields

end

variable (F : NumberFormat N)

/-- mirrors packages/contracts/src/canonical-json.ts:44-47 -/
def canonicalJson (value : JsValue N) : Result Str := do
  let v ← assertJsonValue (units "$") value
  return stringify F 0 (sortValue v) ++ [10]

/-! ## The law -/

def toNumber : JsonText.Numeric N → N
  | .finite n => n
  | .negZero => F.zero

mutual

/-- Equal up to the order of the keys of objects, with `-0` equal to `0`. -/
def Same : JsonValue N → JsonValue N → Prop
  | .null, .null => True
  | .bool a, .bool b => a = b
  | .num m, .num n => toNumber F m = toNumber F n
  | .str s, .str t => s = t
  | .arr xs extra, .arr ys extra' => SameItems xs ys ∧ extra.Perm extra'
  | .obj fields, .obj fields' => fields.length = fields'.length ∧ SameFields fields fields'
  | _, _ => False

def SameItems : List (JsonValue N) → List (JsonValue N) → Prop
  | [], [] => True
  | x :: xs, y :: ys => Same x y ∧ SameItems xs ys
  | _, _ => False

/-- Each field has its like in the other list. -/
def SameFields : List (Str × JsonValue N) → List (Str × JsonValue N) → Prop
  | [], _ => True
  | (k, v) :: fields, fields' => (∃ w, (k, w) ∈ fields' ∧ Same v w) ∧ SameFields fields fields'

end

mutual

/-- No array inside owns a property besides its elements and its length. -/
def NoStray : JsonValue N → Prop
  | .arr items extra => extra = [] ∧ NoStrayItems items
  | .obj fields => NoStrayFields fields
  | _ => True

def NoStrayItems : List (JsonValue N) → Prop
  | [] => True
  | v :: items => NoStray v ∧ NoStrayItems items

def NoStrayFields : List (Str × JsonValue N) → Prop
  | [] => True
  | (_, v) :: fields => NoStray v ∧ NoStrayFields fields

end

end Values

/-! ## Sorting entries -/

theorem sortEntries_perm {α : Type} (l : List (Str × α)) : (sortEntries l).Perm l :=
  List.perm_insertionSort _ l

theorem sortEntries_mapSnd {α β : Type} (f : α → β) (l : List (Str × α)) :
    sortEntries (mapSnd f l) = mapSnd f (sortEntries l) := by
  unfold sortEntries mapSnd
  rw [List.map_insertionSort _ (fun a b : Str × β => StrLe a.1 b.1) _ _ fun _ _ _ _ => Iff.rfl]

/-- Entries of distinct keys have one order. -/
theorem sortEntries_eq {α : Type} {l l' : List (Str × α)} (h : l.Perm l')
    (hn : (l.map Prod.fst).Nodup) : sortEntries l = sortEntries l' := by
  have : Std.Total fun a b : Str × α => StrLe a.1 b.1 := ⟨fun _ _ => StrLe.total _ _⟩
  have : IsTrans (Str × α) fun a b => StrLe a.1 b.1 := ⟨fun _ _ _ h h' => h.trans h'⟩
  refine List.Perm.eq_of_pairwise ?_ (List.pairwise_insertionSort _ l)
    (List.pairwise_insertionSort _ l')
    (((sortEntries_perm l).trans h).trans (sortEntries_perm l').symm)
  intro a b ha hb hab hba
  exact List.inj_on_of_nodup_map hn ((sortEntries_perm l).mem_iff.mp ha)
    (h.mem_iff.mpr ((sortEntries_perm l').mem_iff.mp hb)) (hab.antisymm hba)

/-- The fields of a canonical object, from fields of distinct keys. -/
theorem fromEntries_sort {α : Type} {l : List (Str × α)} (h : (l.map Prod.fst).Nodup) :
    fromEntries (sortEntries l) = ownOrder (sortEntries l) :=
  fromEntries_of_nodup (((sortEntries_perm l).map _).nodup_iff.mpr h)

theorem canonical_perm {α : Type} {l : List (Str × α)} (h : (l.map Prod.fst).Nodup) :
    (fromEntries (sortEntries l)).Perm l := by
  rw [fromEntries_sort h]
  exact (ownOrder_perm _).trans (sortEntries_perm l)

/-! ## Values of distinct keys -/

section Proofs

variable {N : Type} {F : NumberFormat N}

mutual

def Distinct : JsonValue N → Prop
  | .arr items _ => DistinctItems items
  | .obj fields => (fields.map Prod.fst).Nodup ∧ DistinctFields fields
  | _ => True

def DistinctItems : List (JsonValue N) → Prop
  | [] => True
  | v :: items => Distinct v ∧ DistinctItems items

def DistinctFields : List (Str × JsonValue N) → Prop
  | [] => True
  | (_, v) :: fields => Distinct v ∧ DistinctFields fields

end

mutual

theorem assert_distinct : ∀ (a : JsValue N) (path : Str) (x : JsonValue N), WellFormed a →
    assertJsonValue path a = .ok x → Distinct x
  | .null, _, _, _, h => by cases h; trivial
  | .string _, _, _, _, h => by cases h; trivial
  | .boolean _, _, _, _, h => by cases h; trivial
  | .number (.finite _), _, _, _, h => by cases h; trivial
  | .number .nan, _, _, _, h => by cases h
  | .number (.infinity _), _, _, _, h => by cases h
  | .undefined, _, _, _, h => by cases h
  | .bigint _, _, _, _, h => by cases h
  | .symbol _, _, _, _, h => by cases h
  | .function _, _, _, _, h => by cases h
  | .array elements extra, path, x, ha, h => by
    unfold assertJsonValue at h
    split at h
    · obtain ⟨items, hitems, h⟩ := bind_eq_ok.mp h
      obtain rfl := Except.ok.inj h
      exact assertElements_distinct elements path 0 items ha.2.2 hitems
    · cases h
  | .object prototype props, path, x, ha, h => by
    unfold assertJsonValue at h
    split at h
    · cases h
    · obtain ⟨fields, hfields, h⟩ := bind_eq_ok.mp h
      obtain rfl := Except.ok.inj h
      obtain ⟨hkeys, hdistinct⟩ := assertProps_distinct props path fields ha.2 hfields
      refine ⟨?_, hdistinct⟩
      have hnodup := ha.1
      rw [← hkeys] at hnodup
      rw [← Function.comp_def PropertyKey.str Prod.fst, ← List.map_map] at hnodup
      exact List.Nodup.of_map _ hnodup

theorem assertElements_distinct : ∀ (elements : List (Option (JsValue N))) (path : Str)
    (index : Nat) (items : List (JsonValue N)), ElementsWellFormed elements →
    assertElements path index elements = .ok items → DistinctItems items
  | [], _, _, _, _, h => by cases h; trivial
  | none :: _, _, _, _, _, h => by cases h
  | some v :: elements, path, index, items, ha, h => by
    unfold assertElements at h
    obtain ⟨item, hitem, h⟩ := bind_eq_ok.mp h
    obtain ⟨rest, hrest, h⟩ := bind_eq_ok.mp h
    obtain rfl := Except.ok.inj h
    exact ⟨assert_distinct v _ item ha.1 hitem, assertElements_distinct elements path _ rest ha.2 hrest⟩

theorem assertProps_distinct : ∀ (props : List (PropertyKey × Bool × Option (JsValue N)))
    (path : Str) (fields : List (Str × JsonValue N)), PropsWellFormed props →
    assertProps path props = .ok fields →
    (fields.map fun f => PropertyKey.str f.1) = props.map Prod.fst ∧ DistinctFields fields
  | [], _, _, _, h => by cases h; exact ⟨rfl, trivial⟩
  | (.symbol _, _, _) :: _, _, _, _, h => by cases h
  | (.str _, false, none) :: _, _, _, _, h => by cases h
  | (.str _, false, some _) :: _, _, _, _, h => by cases h
  | (.str _, true, none) :: _, _, _, _, h => by cases h
  | (.str k, true, some v) :: props, path, fields, ha, h => by
    unfold assertProps at h
    obtain ⟨field, hfield, h⟩ := bind_eq_ok.mp h
    obtain ⟨rest, hrest, h⟩ := bind_eq_ok.mp h
    obtain rfl := Except.ok.inj h
    obtain ⟨hkeys, hdistinct⟩ := assertProps_distinct props path rest ha.2 hrest
    exact ⟨by simp [hkeys], assert_distinct v _ field ha.1 hfield, hdistinct⟩

end

/-! ## Normal forms -/

variable (F) in
mutual

/-- The value that is printed and read: no negative zero. -/
def plain : JsonValue N → JsonValue N
  | .num n => .num (.finite (toNumber F n))
  | .arr items _ => .arr (plainItems items) []
  | .obj fields => .obj (plainFields fields)
  | v => v

def plainItems : List (JsonValue N) → List (JsonValue N)
  | [] => []
  | v :: items => plain v :: plainItems items

def plainFields : List (Str × JsonValue N) → List (Str × JsonValue N)
  | [] => []
  | (k, v) :: fields => (k, plain v) :: plainFields fields

end

variable (F) in
def norm (v : JsonValue N) : JsonValue N := plain F (sortValue v)

theorem sortFields_eq : ∀ fields : List (Str × JsonValue N),
    sortFields fields = mapSnd sortValue fields
  | [] => rfl
  | (k, v) :: fields => by
    rw [sortFields, sortFields_eq fields]
    rfl

theorem plainFields_eq : ∀ fields : List (Str × JsonValue N),
    plainFields F fields = mapSnd (plain F) fields
  | [] => rfl
  | (k, v) :: fields => by
    rw [plainFields, plainFields_eq fields]
    rfl

variable (F) in
def normFields (fields : List (Str × JsonValue N)) : List (Str × JsonValue N) :=
  mapSnd (norm F) fields

theorem norm_arr (items : List (JsonValue N)) (extra : List (Str × JsValue N)) :
    norm F (.arr items extra) = .arr (plainItems F (sortValues items)) [] := rfl

theorem norm_obj {fields : List (Str × JsonValue N)} (h : (fields.map Prod.fst).Nodup) :
    norm F (.obj fields) = .obj (ownOrder (sortEntries (normFields F fields))) := by
  unfold norm sortValue plain
  rw [plainFields_eq, sortFields_eq, fromEntries_sort (by rw [map_fst_mapSnd]; exact h),
    ← ownOrder_mapSnd, ← sortEntries_mapSnd]
  congr 3
  simp [mapSnd, normFields, norm, Function.comp_def]

mutual

theorem stringify_plain : ∀ (v : JsonValue N) (indent : Nat),
    stringify F indent (plain F v) = stringify F indent v
  | .null, _ => rfl
  | .bool _, _ => rfl
  | .str _, _ => rfl
  | .num (.finite _), _ => rfl
  | .num .negZero, _ => rfl
  | .arr items extra, indent => by
    unfold plain stringify
    rw [stringify_plainItems items]
  | .obj fields, indent => by
    unfold plain stringify
    rw [stringify_plainFields fields]

theorem stringify_plainItems : ∀ (items : List (JsonValue N)) (indent : Nat),
    stringifyItems F indent (plainItems F items) = stringifyItems F indent items
  | [], _ => rfl
  | v :: items, indent => by
    unfold plainItems stringifyItems
    rw [stringify_plain v, stringify_plainItems items]

theorem stringify_plainFields : ∀ (fields : List (Str × JsonValue N)) (indent : Nat),
    stringifyFields F indent (plainFields F fields) = stringifyFields F indent fields
  | [], _ => rfl
  | (k, v) :: fields, indent => by
    unfold plainFields stringifyFields
    rw [stringify_plain v, stringify_plainFields fields]

end

theorem normalFields_iff : ∀ {fields : List (Str × JsonValue N)},
    NormalFields fields ↔ ∀ e ∈ fields, Normal e.2
  | [] => by simp [NormalFields]
  | (k, v) :: fields => by
    have ih : NormalFields fields ↔ ∀ e ∈ fields, Normal e.2 := normalFields_iff
    rw [NormalFields, ih, List.forall_mem_cons]

theorem nodup_norm {fields : List (Str × JsonValue N)} (h : (fields.map Prod.fst).Nodup) :
    ((normFields F fields).map Prod.fst).Nodup := by
  rw [normFields, map_fst_mapSnd]
  exact h

mutual

theorem normal_norm : ∀ v : JsonValue N, Distinct v → Normal (norm F v)
  | .null, _ => trivial
  | .bool _, _ => trivial
  | .str _, _ => trivial
  | .num _, _ => fun h => by cases h
  | .arr items extra, h => ⟨rfl, normalItems_norm items h⟩
  | .obj fields, h => by
    rw [norm_obj h.1]
    refine ⟨?_, normalFields_iff.mpr fun e he => ?_⟩
    · rw [fromEntries_of_nodup, ownOrder_idem]
      exact ((((ownOrder_perm _).trans (sortEntries_perm _)).map _).nodup_iff).mpr (nodup_norm h.1)
    · exact normalFields_norm fields h.2 e
        (((ownOrder_perm _).trans (sortEntries_perm _)).mem_iff.mp he)

theorem normalItems_norm : ∀ items : List (JsonValue N), DistinctItems items →
    NormalItems (plainItems F (sortValues items))
  | [], _ => trivial
  | v :: items, h => ⟨normal_norm v h.1, normalItems_norm items h.2⟩

theorem normalFields_norm : ∀ fields : List (Str × JsonValue N), DistinctFields fields →
    ∀ e ∈ normFields F fields, Normal e.2
  | [], _, _, he => by cases he
  | (k, v) :: fields, h, e, he => by
    rcases List.mem_cons.mp he with rfl | he
    · exact normal_norm v h.1
    · exact normalFields_norm fields h.2 e he

end

/-! ## Equality up to the order of keys -/

theorem mem_normFields {fields : List (Str × JsonValue N)} {k : Str} {w : JsonValue N} :
    (k, w) ∈ normFields F fields ↔ ∃ v, (k, v) ∈ fields ∧ norm F v = w := by
  unfold normFields mapSnd
  rw [List.mem_map]
  constructor
  · rintro ⟨⟨k', v⟩, hmem, heq⟩
    obtain ⟨rfl, rfl⟩ := Prod.mk.inj heq
    exact ⟨v, hmem, rfl⟩
  · rintro ⟨v, hmem, rfl⟩
    exact ⟨(k, v), hmem, rfl⟩

theorem canonicalFields_perm {fields : List (Str × JsonValue N)} :
    (ownOrder (sortEntries (normFields F fields))).Perm (normFields F fields) :=
  (ownOrder_perm _).trans (sortEntries_perm _)

mutual

/-- A value without stray properties is its normal form. -/
theorem same_norm : ∀ v : JsonValue N, Distinct v → NoStray v → Same F v (norm F v)
  | .null, _, _ => trivial
  | .bool _, _, _ => rfl
  | .str _, _, _ => rfl
  | .num _, _, _ => rfl
  | .arr items extra, h, hstray => by
    obtain ⟨rfl, hstray⟩ := hstray
    exact ⟨sameItems_norm items h hstray, List.Perm.refl _⟩
  | .obj fields, h, hstray => by
    rw [norm_obj h.1]
    refine ⟨?_, sameFields_norm fields h.2 hstray _ fun e he => ?_⟩
    · rw [canonicalFields_perm.length_eq]
      simp [normFields, mapSnd]
    · exact canonicalFields_perm.mem_iff.mpr (mem_normFields.mpr ⟨e.2, he, rfl⟩)

theorem sameItems_norm : ∀ items : List (JsonValue N), DistinctItems items → NoStrayItems items →
    SameItems F items (plainItems F (sortValues items))
  | [], _, _ => trivial
  | v :: items, h, hstray => ⟨same_norm v h.1 hstray.1, sameItems_norm items h.2 hstray.2⟩

theorem sameFields_norm : ∀ fields : List (Str × JsonValue N), DistinctFields fields →
    NoStrayFields fields → ∀ target : List (Str × JsonValue N),
    (∀ e ∈ fields, (e.1, norm F e.2) ∈ target) → SameFields F fields target
  | [], _, _, _, _ => trivial
  | (k, v) :: fields, h, hstray, target, htarget =>
    ⟨⟨norm F v, htarget (k, v) List.mem_cons_self, same_norm v h.1 hstray.1⟩,
      sameFields_norm fields h.2 hstray.2 target fun e he => htarget e (List.mem_cons_of_mem _ he)⟩

end

theorem distinct_of_mem : ∀ {fields : List (Str × JsonValue N)} {k : Str} {w : JsonValue N},
    DistinctFields fields → (k, w) ∈ fields → Distinct w
  | (_, v) :: fields, k, w, h, hmem => by
    rcases List.mem_cons.mp hmem with heq | hmem
    · obtain ⟨-, rfl⟩ := Prod.mk.inj heq
      exact h.1
    · exact distinct_of_mem h.2 hmem

mutual

/-- Equal values have one normal form. -/
theorem norm_of_same : ∀ v w : JsonValue N, Distinct v → Distinct w → Same F v w →
    norm F v = norm F w
  | .null, .null, _, _, _ => rfl
  | .bool _, .bool _, _, _, h => by rw [show _ = _ from h]
  | .str _, .str _, _, _, h => by rw [show _ = _ from h]
  | .num m, .num n, _, _, h => by
    show Value.num (.finite (toNumber F m)) = Value.num (.finite (toNumber F n))
    rw [show toNumber F m = toNumber F n from h]
  | .arr items extra, .arr items' extra', hv, hw, h => by
    rw [norm_arr, norm_arr, normItems_of_same items items' hv hw h.1]
  | .obj fields, .obj fields', hv, hw, h => by
    have hsub : normFields F fields ⊆ normFields F fields' := by
      intro e he
      obtain ⟨v, hv', heq⟩ := mem_normFields.mp (show (e.1, e.2) ∈ _ from he)
      obtain ⟨w, hw', hnorm⟩ := normFields_of_same fields fields' hv.2 hw.2 h.2 e.1 v hv'
      exact mem_normFields.mpr ⟨w, hw', hnorm.symm.trans heq⟩
    have hlen : (normFields F fields').length ≤ (normFields F fields).length := by
      simp [normFields, mapSnd, h.1]
    have hperm : (normFields F fields).Perm (normFields F fields') :=
      (List.subperm_of_subset (List.Nodup.of_map _ (nodup_norm hv.1)) hsub).perm_of_length_le hlen
    rw [norm_obj hv.1, norm_obj hw.1, sortEntries_eq hperm (nodup_norm hv.1)]

theorem normItems_of_same : ∀ items items' : List (JsonValue N), DistinctItems items →
    DistinctItems items' → SameItems F items items' →
    plainItems F (sortValues items) = plainItems F (sortValues items')
  | [], [], _, _, _ => rfl
  | v :: items, w :: items', hv, hw, h => by
    show norm F v :: _ = norm F w :: _
    rw [norm_of_same v w hv.1 hw.1 h.1, normItems_of_same items items' hv.2 hw.2 h.2]

theorem normFields_of_same : ∀ fields fields' : List (Str × JsonValue N), DistinctFields fields →
    DistinctFields fields' → SameFields F fields fields' → ∀ k v, (k, v) ∈ fields →
    ∃ w, (k, w) ∈ fields' ∧ norm F v = norm F w
  | [], _, _, _, _, _, _, he => by cases he
  | (k, v) :: fields, fields', hv, hw, h, k', v', he => by
    rcases List.mem_cons.mp he with heq | he
    · obtain ⟨rfl, rfl⟩ := Prod.mk.inj heq
      obtain ⟨⟨w, hmem, hsame⟩, -⟩ := h
      exact ⟨w, hmem, norm_of_same v' w hv.1 (distinct_of_mem hw hmem) hsame⟩
    · exact normFields_of_same fields fields' hv.2 hw h.2 k' v' he

end

theorem noStray_of_mem : ∀ {fields : List (Str × JsonValue N)} {k : Str} {w : JsonValue N},
    NoStrayFields fields → (k, w) ∈ fields → NoStray w
  | (_, v) :: fields, k, w, h, hmem => by
    rcases List.mem_cons.mp hmem with heq | hmem
    · obtain ⟨-, rfl⟩ := Prod.mk.inj heq
      exact h.1
    · exact noStray_of_mem h.2 hmem

mutual

/-- One normal form, equal values: the induction is on the first value, and a field finds its
like through the normal form of its object. -/
theorem same_of_norm : ∀ v w : JsonValue N, Distinct v → Distinct w → NoStray v → NoStray w →
    norm F v = norm F w → Same F v w
  | .null, w, _, _, _, _, h => by
    cases w with
    | null => trivial
    | _ => cases h
  | .bool a, w, _, _, _, _, h => by
    cases w with
    | bool b => cases h; rfl
    | _ => cases h
  | .str a, w, _, _, _, _, h => by
    cases w with
    | str b => cases h; rfl
    | _ => cases h
  | .num m, w, _, _, _, _, h => by
    cases w with
    | num n =>
      have hnum : Value.num (X := JsValue N) (.finite (toNumber F m)) = .num (.finite (toNumber F n)) := h
      exact JsonText.Numeric.finite.inj (Value.num.inj hnum)
    | _ => cases h
  | .arr items extra, w, hv, hw, hs, hs', h => by
    cases w with
    | arr items' extra' =>
      rw [norm_arr, norm_arr] at h
      obtain ⟨hitems, -⟩ := Value.arr.inj h
      refine ⟨sameItems_of_norm items items' hv hw hs.2 hs'.2 hitems, ?_⟩
      rw [hs.1, hs'.1]
    | _ => cases h
  | .obj fields, w, hv, hw, hs, hs', h => by
    cases w with
    | obj fields' =>
      rw [norm_obj hv.1, norm_obj hw.1] at h
      have hown := Value.obj.inj h
      have hperm : (normFields F fields).Perm (normFields F fields') := by
        refine canonicalFields_perm.symm.trans ?_
        rw [hown]
        exact canonicalFields_perm
      refine ⟨?_, sameFields_of_norm fields hv.2 hs fields' hw.2 hs' fun e he => ?_⟩
      · simpa [normFields, mapSnd] using hperm.length_eq
      · exact mem_normFields.mp (hperm.mem_iff.mp (mem_normFields.mpr ⟨e.2, he, rfl⟩))
    | _ => cases h

theorem sameItems_of_norm : ∀ items items' : List (JsonValue N), DistinctItems items →
    DistinctItems items' → NoStrayItems items → NoStrayItems items' →
    plainItems F (sortValues items) = plainItems F (sortValues items') → SameItems F items items'
  | [], [], _, _, _, _, _ => trivial
  | [], _ :: _, _, _, _, _, h => by cases h
  | _ :: _, [], _, _, _, _, h => by cases h
  | v :: items, w :: items', hv, hw, hs, hs', h => by
    obtain ⟨hhead, htail⟩ := List.cons.inj h
    exact ⟨same_of_norm v w hv.1 hw.1 hs.1 hs'.1 hhead,
      sameItems_of_norm items items' hv.2 hw.2 hs.2 hs'.2 htail⟩

theorem sameFields_of_norm : ∀ fields : List (Str × JsonValue N), DistinctFields fields →
    NoStrayFields fields → ∀ fields' : List (Str × JsonValue N), DistinctFields fields' →
    NoStrayFields fields' → (∀ e ∈ fields, ∃ w, (e.1, w) ∈ fields' ∧ norm F w = norm F e.2) →
    SameFields F fields fields'
  | [], _, _, _, _, _, _ => trivial
  | (k, v) :: fields, hv, hs, fields', hw, hs', h => by
    obtain ⟨w, hmem, hnorm⟩ := h (k, v) List.mem_cons_self
    exact ⟨⟨w, hmem, same_of_norm v w hv.1 (distinct_of_mem hw hmem) hs.1 (noStray_of_mem hs' hmem)
        hnorm.symm⟩,
      sameFields_of_norm fields hv.2 hs.2 fields' hw hs' fun e he => h e (List.mem_cons_of_mem _ he)⟩

end

mutual

/-- A value equal to one without stray properties has none. -/
theorem noStray_of_same : ∀ v w : JsonValue N, NoStray w → Same F v w → NoStray v
  | .null, _, _, _ => trivial
  | .bool _, _, _, _ => trivial
  | .str _, _, _, _ => trivial
  | .num _, _, _, _ => trivial
  | .arr items extra, w, hw, h => by
    cases w with
    | arr items' extra' =>
      obtain ⟨rfl, hitems⟩ := hw
      exact ⟨h.2.eq_nil, noStrayItems_of_same items items' hitems h.1⟩
    | _ => cases h
  | .obj fields, w, hw, h => by
    cases w with
    | obj fields' => exact noStrayFields_of_same fields fields' hw h.2
    | _ => cases h

theorem noStrayItems_of_same : ∀ items items' : List (JsonValue N), NoStrayItems items' →
    SameItems F items items' → NoStrayItems items
  | [], _, _, _ => trivial
  | _ :: _, [], _, h => by cases h
  | v :: items, w :: items', hw, h =>
    ⟨noStray_of_same v w hw.1 h.1, noStrayItems_of_same items items' hw.2 h.2⟩

theorem noStrayFields_of_same : ∀ fields fields' : List (Str × JsonValue N), NoStrayFields fields' →
    SameFields F fields fields' → NoStrayFields fields
  | [], _, _, _ => trivial
  | (k, v) :: fields, fields', hw, h => by
    obtain ⟨⟨w, hmem, hsame⟩, hrest⟩ := h
    exact ⟨noStray_of_same v w (noStray_of_mem hw hmem) hsame,
      noStrayFields_of_same fields fields' hw hrest⟩

end

mutual

theorem noStray_of_normal : ∀ v : JsonValue N, Normal v → NoStray v
  | .null, _ => trivial
  | .bool _, _ => trivial
  | .str _, _ => trivial
  | .num _, _ => trivial
  | .arr items _, h => ⟨h.1, noStrayItems_of_normal items h.2⟩
  | .obj fields, h => noStrayFields_of_normal fields h.2

theorem noStrayItems_of_normal : ∀ items : List (JsonValue N), NormalItems items →
    NoStrayItems items
  | [], _ => trivial
  | v :: items, h => ⟨noStray_of_normal v h.1, noStrayItems_of_normal items h.2⟩

theorem noStrayFields_of_normal : ∀ fields : List (Str × JsonValue N), NormalFields fields →
    NoStrayFields fields
  | [], _ => trivial
  | (_, v) :: fields, h => ⟨noStray_of_normal v h.1, noStrayFields_of_normal fields h.2⟩

end

/-! ## The canonical text -/

theorem canonicalJson_eq {a : JsValue N} {x : JsonValue N}
    (h : assertJsonValue (units "$") a = .ok x) :
    canonicalJson F a = .ok (stringify F 0 (norm F x) ++ [10]) := by
  unfold canonicalJson norm
  rw [h, stringify_plain]
  rfl

/-- The text is that of the normal form, and only of it. -/
theorem canonicalJson_inj {a b : JsValue N} {x y : JsonValue N} (hx : Distinct x) (hy : Distinct y)
    (ha : assertJsonValue (units "$") a = .ok x) (hb : assertJsonValue (units "$") b = .ok y) :
    canonicalJson F a = canonicalJson F b ↔ norm F x = norm F y := by
  rw [canonicalJson_eq ha, canonicalJson_eq hb]
  constructor
  · intro h
    have hread := congrArg (parse (X := JsValue N) F) (Except.ok.inj h)
    rw [parse_stringify (normal_norm x hx), parse_stringify (normal_norm y hy)] at hread
    exact Option.some.inj hread
  · intro h
    rw [h]

end Proofs

end KNex.Contracts.CanonicalJson
