import KNex.Contracts.ParsedJson

/-!
# Strict schemas

Schemas without transformations, as `packages/contracts` writes them: strict objects, arrays of
unique items (`schema-helpers.ts`), and unions that a literal field tells apart. What a schema
accepts it returns as a fresh JSON value, its fields in the order of the schema.

A schema does not see the order of keys or a negative zero (`parse_same`), and of JSON it returns
what it was given (`parse_ofParsed`): so what was parsed, printed and read is parsed again.
-/
namespace KNex.Contracts.CanonicalJson

open KNex.Core KNex.Core.JsonText

/-! ## Numbers -/

/-- Number format with the integers that `Number.isSafeInteger` accepts. -/
structure Integers (N : Type) extends NumberFormat N where
  one : N
  integer : N → Option Int
  integer_zero : integer zero = some 0
  integer_one : integer one = some 1

section Schemas

variable {N : Type} (F : Integers N)

def Integers.integerOf (n : JsonText.Numeric N) : Option Int := F.integer (toNumber F.toNumberFormat n)

/-! ## Properties -/

/-- `key in value`, of own properties. -/
def hasProp (props : List (PropertyKey × Bool × Option (JsValue N))) (key : Str) : Bool :=
  props.any fun p => p.1 = .str key

/-- `value[key]`, of own properties; the value of an accessor is not known. -/
def readProp (props : List (PropertyKey × Bool × Option (JsValue N))) (key : Str) : JsValue N :=
  match props.find? fun p => p.1 = .str key with
  | some (_, _, some v) => v
  | _ => .undefined

/-- `Object.keys(value)`. -/
def ownKeys (props : List (PropertyKey × Bool × Option (JsValue N))) : List Str :=
  props.filterMap fun p =>
    match p with
    | (.str key, true, _) => some key
    | _ => none

/-! ## `JSON.stringify(value)` -/

mutual

def compact : JsonValue N → Str
  | .null => units "null"
  | .bool true => units "true"
  | .bool false => units "false"
  | .num n => F.print n
  | .str s => quote s
  | .arr items _ => 91 :: (List.intercalate [44] (compactItems items) ++ [93])
  | .obj fields => 123 :: (List.intercalate [44] (compactFields fields) ++ [125])

def compactItems : List (JsonValue N) → List Str
  | [] => []
  | v :: items => compact v :: compactItems items

def compactFields : List (Str × JsonValue N) → List Str
  | [] => []
  | (k, v) :: fields => (quote k ++ 58 :: compact v) :: compactFields fields

end

/-! ## Schemas -/

/-- The shape of an object lists its keys, each with whether it is optional. -/
inductive Schema where
  | boolean
  | literal (value : Str)
  | string (accepts : Str → Bool)
  | integer (accepts : Int → Bool)
  | uniqueArray (item : Schema) (lengthOk : Nat → Bool)
  | strictObject (shape : List (Str × Bool × Schema))
  | discriminatedUnion (discriminator : Str) (options : List (Str × Schema))

mutual

/-- `schema.safeParse(value)`. -/
def Schema.parse : Schema → JsValue N → Option (JsonValue N)
  | .boolean, .boolean b => some (.bool b)
  | .literal value, .string s => if s = value then some (.str s) else none
  | .string accepts, .string s => if accepts s then some (.str s) else none
  | .integer accepts, .number (.finite n) =>
    if (F.integerOf n).any accepts then some (.num n) else none
  | .uniqueArray item lengthOk, .array elements _ => do
    let items ← elements.mapM fun element => item.parse (element.getD .undefined)
    if lengthOk items.length ∧ (compactItems F items).Nodup then some (.arr items []) else none
  | .strictObject shape, .object _ props =>
    if ∀ key ∈ ownKeys props, key ∈ shape.map Prod.fst then (parseShape shape props).map .obj
    else none
  | .discriminatedUnion discriminator options, .object prototype props =>
    match readProp props discriminator with
    | .string kind => parseOption options kind (.object prototype props)
    | _ => none
  | _, _ => none

/-- An optional field that is there without a value is refused here; the source returns it, and
refuses it when it prints the result. -/
def parseShape : List (Str × Bool × Schema) →
    List (PropertyKey × Bool × Option (JsValue N)) → Option (List (Str × JsonValue N))
  | [], _ => some []
  | (key, optional, schema) :: shape, props =>
    if optional ∧ ¬ hasProp props key then parseShape shape props
    else do
      let field ← schema.parse (readProp props key)
      let fields ← parseShape shape props
      return (key, field) :: fields

def parseOption : List (Str × Schema) → Str → JsValue N → Option (JsonValue N)
  | [], _, _ => none
  | (kind, schema) :: options, kind', value =>
    if kind = kind' then schema.parse value else parseOption options kind' value

end

mutual

/-- No key twice in a shape, and each option of a union states the literal that selects it. -/
def Schema.Proper : Schema → Prop
  | .uniqueArray item _ => item.Proper
  | .strictObject shape => (shape.map Prod.fst).Nodup ∧ ProperShape shape
  | .discriminatedUnion discriminator options => ProperOptions discriminator options
  | _ => True

def ProperShape : List (Str × Bool × Schema) → Prop
  | [] => True
  | (_, _, schema) :: shape => schema.Proper ∧ ProperShape shape

def ProperOptions (discriminator : Str) : List (Str × Schema) → Prop
  | [] => True
  | (kind, schema) :: options => schema.Proper ∧
      (∃ shape, schema = .strictObject shape ∧ (discriminator, false, .literal kind) ∈ shape) ∧
      ProperOptions discriminator options

end

variable {F}

/-! ## Properties of parsed objects -/

theorem hasProp_ofParsed {key : Str} : ∀ {fields : List (Str × JsonValue N)},
    hasProp (ofParsedFields fields) key = true ↔ key ∈ fields.map Prod.fst
  | [] => by simp [ofParsedFields, hasProp]
  | (k, v) :: fields => by
    have ih : hasProp (ofParsedFields fields) key = true ↔ key ∈ fields.map Prod.fst :=
      hasProp_ofParsed
    unfold hasProp at ih ⊢
    rw [ofParsedFields, List.any_cons, Bool.or_eq_true, ih, List.map_cons, List.mem_cons]
    simp [eq_comm]

theorem mem_keys_iff {α : Type} {fields : List (Str × α)} {key : Str} :
    key ∈ fields.map Prod.fst ↔ ∃ v, (key, v) ∈ fields := by
  rw [List.mem_map]
  constructor
  · rintro ⟨⟨k, v⟩, hmem, rfl⟩
    exact ⟨v, hmem⟩
  · intro ⟨v, hmem⟩
    exact ⟨(key, v), hmem, rfl⟩

theorem readProp_ofParsed {key : Str} {v : JsonValue N} : ∀ {fields : List (Str × JsonValue N)},
    (fields.map Prod.fst).Nodup → (key, v) ∈ fields →
    readProp (ofParsedFields fields) key = ofParsed v
  | (k, w) :: fields, hn, hmem => by
    rw [List.map_cons, List.nodup_cons] at hn
    rcases List.mem_cons.mp hmem with heq | hmem
    · cases heq
      simp [readProp, ofParsedFields]
    · have hne : k ≠ key := by
        rintro rfl
        exact hn.1 (mem_keys_iff.mpr ⟨v, hmem⟩)
      have ih := readProp_ofParsed hn.2 hmem
      unfold readProp at ih ⊢
      rw [ofParsedFields, List.find?_cons_of_neg (by simpa using hne)]
      exact ih

theorem readProp_eq_undefined {key : Str} {props : List (PropertyKey × Bool × Option (JsValue N))}
    (h : hasProp props key = false) : readProp props key = .undefined := by
  unfold readProp
  rw [List.find?_eq_none.mpr]
  exact fun p hp hkey => Bool.eq_false_iff.mp h (List.any_eq_true.mpr ⟨p, hp, hkey⟩)

theorem ownKeys_ofParsed : ∀ fields : List (Str × JsonValue N),
    ownKeys (ofParsedFields fields) = fields.map Prod.fst
  | [] => rfl
  | (k, v) :: fields => by
    have ih := ownKeys_ofParsed fields
    unfold ownKeys at ih ⊢
    rw [ofParsedFields, List.filterMap_cons, ih]
    rfl

theorem sameFields_iff {fields' : List (Str × JsonValue N)} {F : NumberFormat N} :
    ∀ {fields : List (Str × JsonValue N)}, SameFields F fields fields' ↔
      ∀ key v, (key, v) ∈ fields → ∃ w, (key, w) ∈ fields' ∧ Same F v w
  | [] => by simp [SameFields]
  | (k, v) :: fields => by
    rw [SameFields, sameFields_iff]
    constructor
    · intro ⟨hhead, htail⟩ key w hmem
      rcases List.mem_cons.mp hmem with heq | hmem
      · cases heq
        exact hhead
      · exact htail key w hmem
    · intro h
      exact ⟨h k v List.mem_cons_self, fun key w hmem => h key w (List.mem_cons_of_mem _ hmem)⟩

/-- Objects that are the same have the same keys. -/
theorem same_keys {fields fields' : List (Str × JsonValue N)} {F : NumberFormat N}
    (hn : (fields.map Prod.fst).Nodup) (h : Same F (.obj fields) (.obj fields')) :
    (fields.map Prod.fst).Perm (fields'.map Prod.fst) := by
  refine (List.subperm_of_subset hn fun key hkey => ?_).perm_of_length_le ?_
  · obtain ⟨v, hmem⟩ := mem_keys_iff.mp hkey
    obtain ⟨w, hmem', -⟩ := sameFields_iff.mp h.2 key v hmem
    exact mem_keys_iff.mpr ⟨w, hmem'⟩
  · rw [List.length_map, List.length_map, h.1]

/-! ## Compact text -/

mutual

theorem compact_plain : ∀ v : JsonValue N, compact F (plain F.toNumberFormat v) = compact F v
  | .null => rfl
  | .bool _ => rfl
  | .str _ => rfl
  | .num (.finite _) => rfl
  | .num .negZero => rfl
  | .arr items _ => by
    rw [plain, compact, compact, compactItems_plain items]
  | .obj fields => by
    rw [plain, compact, compact, compactFields_plain fields]

theorem compactItems_plain : ∀ items : List (JsonValue N),
    compactItems F (plainItems F.toNumberFormat items) = compactItems F items
  | [] => rfl
  | v :: items => by
    rw [plainItems, compactItems, compactItems, compact_plain v, compactItems_plain items]

theorem compactFields_plain : ∀ fields : List (Str × JsonValue N),
    compactFields F (plainFields F.toNumberFormat fields) = compactFields F fields
  | [] => rfl
  | (k, v) :: fields => by
    rw [plainFields, compactFields, compactFields, compact_plain v, compactFields_plain fields]

end

/-! ## What a schema returns -/

theorem parse_undefined (schema : Schema) : schema.parse F .undefined = none := by
  cases schema <;> rfl

theorem parseShape_cons {key : Str} {optional : Bool} {schema : Schema}
    {shape : List (Str × Bool × Schema)} {props : List (PropertyKey × Bool × Option (JsValue N))}
    {result : List (Str × JsonValue N)} :
    parseShape F ((key, optional, schema) :: shape) props = some result ↔
      (optional = true ∧ hasProp props key = false ∧ parseShape F shape props = some result) ∨
      ∃ field fields, schema.parse F (readProp props key) = some field ∧ hasProp props key = true ∧
        parseShape F shape props = some fields ∧ result = (key, field) :: fields := by
  rw [parseShape]
  by_cases hhas : hasProp props key = true
  · rw [if_neg (by simp [hhas])]
    simp only [Option.bind_eq_bind, Option.bind_eq_some_iff]
    constructor
    · rintro ⟨field, hfield, fields, hfields, heq⟩
      exact .inr ⟨field, fields, hfield, hhas, hfields, (Option.some.inj heq).symm⟩
    · rintro (⟨-, hno, -⟩ | ⟨field, fields, hfield, -, hfields, rfl⟩)
      · rw [hhas] at hno
        cases hno
      · exact ⟨field, hfield, fields, hfields, rfl⟩
  · rw [Bool.not_eq_true] at hhas
    rw [readProp_eq_undefined hhas, parse_undefined]
    cases optional <;> simp [hhas]

/-- The keys of the result are keys of the shape, in its order, and they are those that the object
has. -/
theorem keys_parseShape : ∀ {shape : List (Str × Bool × Schema)}
    {props : List (PropertyKey × Bool × Option (JsValue N))} {result : List (Str × JsonValue N)},
    parseShape F shape props = some result →
    (result.map Prod.fst).Sublist (shape.map Prod.fst) ∧
      ∀ key ∈ shape.map Prod.fst, hasProp props key = true → key ∈ result.map Prod.fst
  | [], _, _, h => by
    cases h
    exact ⟨List.Sublist.refl _, fun _ hkey => absurd hkey List.not_mem_nil⟩
  | (k, optional, schema) :: shape, props, result, h => by
    rcases parseShape_cons.mp h with ⟨-, hno, hrest⟩ | ⟨field, fields, -, -, hrest, rfl⟩
    · obtain ⟨hsub, hmem⟩ := keys_parseShape hrest
      refine ⟨hsub.cons _, fun key hkey hhas => ?_⟩
      rcases List.mem_cons.mp hkey with rfl | hkey
      · rw [hno] at hhas
        cases hhas
      · exact hmem key hkey hhas
    · obtain ⟨hsub, hmem⟩ := keys_parseShape hrest
      refine ⟨hsub.cons_cons _, fun key hkey hhas => ?_⟩
      rcases List.mem_cons.mp hkey with rfl | hkey
      · exact List.mem_cons_self
      · exact List.mem_cons_of_mem _ (hmem key hkey hhas)

/-- Each field of the result is what its schema makes of the property. -/
theorem mem_parseShape : ∀ {shape : List (Str × Bool × Schema)}
    {props : List (PropertyKey × Bool × Option (JsValue N))} {result : List (Str × JsonValue N)}
    {key : Str} {v : JsonValue N}, parseShape F shape props = some result → (key, v) ∈ result →
    ∃ optional schema, (key, optional, schema) ∈ shape ∧ hasProp props key = true ∧
      schema.parse F (readProp props key) = some v
  | [], _, _, _, _, h, hmem => by
    cases h
    cases hmem
  | (k, optional, schema) :: shape, props, result, key, v, h, hmem => by
    rcases parseShape_cons.mp h with ⟨-, -, hrest⟩ | ⟨field, fields, hfield, hhas, hrest, rfl⟩
    · obtain ⟨o, s, hs, hrest⟩ := mem_parseShape hrest hmem
      exact ⟨o, s, List.mem_cons_of_mem _ hs, hrest⟩
    · rcases List.mem_cons.mp hmem with heq | hmem
      · cases heq
        exact ⟨optional, schema, List.mem_cons_self, hhas, hfield⟩
      · obtain ⟨o, s, hs, hrest⟩ := mem_parseShape hrest hmem
        exact ⟨o, s, List.mem_cons_of_mem _ hs, hrest⟩

theorem mapM_eq_some {α β : Type} {f : α → Option β} : ∀ {l : List α} {l' : List β},
    l.mapM f = some l' ↔ List.Forall₂ (fun a b => f a = some b) l l'
  | [], l' => by
    rw [List.mapM_nil, List.forall₂_nil_left_iff]
    exact ⟨fun h => (Option.some.inj h).symm, fun h => h ▸ rfl⟩
  | a :: l, l' => by
    rw [List.mapM_cons, List.forall₂_cons_left_iff]
    simp only [Option.bind_eq_bind, Option.bind_eq_some_iff, mapM_eq_some]
    constructor
    · rintro ⟨b, hb, bs, hbs, heq⟩
      exact ⟨b, bs, hb, hbs, (Option.some.inj heq).symm⟩
    · rintro ⟨b, bs, hb, hbs, rfl⟩
      exact ⟨b, hb, bs, hbs, rfl⟩

theorem parse_uniqueArray {item : Schema} {lengthOk : Nat → Bool} {v : JsValue N}
    {x : JsonValue N} (h : (Schema.uniqueArray item lengthOk).parse F v = some x) :
    ∃ elements extra items, v = .array elements extra ∧ x = .arr items [] ∧
      List.Forall₂ (fun e x => item.parse F (Option.getD e .undefined) = some x) elements items ∧
      lengthOk items.length = true ∧ (compactItems F items).Nodup := by
  cases v with
  | array elements extra =>
    obtain ⟨items, hitems, h⟩ := Option.bind_eq_some_iff.mp h
    split at h
    · rename_i hok
      exact ⟨elements, extra, items, rfl, (Option.some.inj h).symm, mapM_eq_some.mp hitems, hok⟩
    · cases h
  | _ => cases h

theorem parse_strictObject {shape : List (Str × Bool × Schema)} {v : JsValue N}
    {x : JsonValue N} (h : (Schema.strictObject shape).parse F v = some x) :
    ∃ prototype props fields, v = .object prototype props ∧ x = .obj fields ∧
      (∀ key ∈ ownKeys props, key ∈ shape.map Prod.fst) ∧
      parseShape F shape props = some fields := by
  cases v with
  | object prototype props =>
    rw [Schema.parse] at h
    split at h
    · rename_i hkeys
      obtain ⟨fields, hfields, h⟩ := Option.map_eq_some_iff.mp h
      exact ⟨prototype, props, fields, rfl, h.symm, hkeys, hfields⟩
    · cases h
  | _ => cases h

theorem parse_union {discriminator : Str} {options : List (Str × Schema)} {v : JsValue N}
    {x : JsonValue N} (h : (Schema.discriminatedUnion discriminator options).parse F v = some x) :
    ∃ prototype props kind, v = .object prototype props ∧
      readProp props discriminator = .string kind ∧ parseOption F options kind v = some x := by
  cases v with
  | object prototype props =>
    rw [Schema.parse] at h
    split at h
    · rename_i kind hkind
      exact ⟨prototype, props, kind, rfl, hkind, h⟩
    · cases h
  | _ => cases h

mutual

theorem clean_parse : ∀ (schema : Schema) {v : JsValue N} {x : JsonValue N}, schema.Proper →
    schema.parse F v = some x → Clean x
  | .boolean, v, x, _, h => by
    cases v with
    | boolean b => cases h; exact ⟨trivial, trivial⟩
    | _ => cases h
  | .literal value, v, x, _, h => by
    cases v with
    | string s =>
      rw [Schema.parse] at h
      split at h <;> cases h
      exact ⟨trivial, trivial⟩
    | _ => cases h
  | .string accepts, v, x, _, h => by
    cases v with
    | string s =>
      rw [Schema.parse] at h
      split at h <;> cases h
      exact ⟨trivial, trivial⟩
    | _ => cases h
  | .integer accepts, v, x, _, h => by
    cases v with
    | number n =>
      cases n with
      | finite n =>
        rw [Schema.parse] at h
        split at h <;> cases h
        exact ⟨trivial, trivial⟩
      | _ => cases h
    | _ => cases h
  | .uniqueArray item lengthOk, v, x, hp, h => by
    obtain ⟨elements, extra, items, rfl, rfl, hitems, -, -⟩ := parse_uniqueArray h
    clear h
    have hclean : DistinctItems items ∧ NoStrayItems items := by
      induction hitems with
      | nil => exact ⟨trivial, trivial⟩
      | cons hhead _ ih =>
        have hitem := clean_parse item hp hhead
        obtain ⟨hdistinct, hstray⟩ := ih
        exact ⟨⟨hitem.1, hdistinct⟩, hitem.2, hstray⟩
    exact ⟨hclean.1, rfl, hclean.2⟩
  | .strictObject shape, v, x, hp, h => by
    obtain ⟨prototype, props, fields, rfl, rfl, -, hfields⟩ := parse_strictObject h
    have hclean := clean_parseShape shape hp.2 hfields
    exact ⟨⟨(keys_parseShape hfields).1.nodup hp.1, hclean.1⟩, hclean.2⟩
  | .discriminatedUnion discriminator options, v, x, hp, h => by
    obtain ⟨prototype, props, kind, rfl, -, hoption⟩ := parse_union h
    exact clean_parseOption discriminator options hp hoption

theorem clean_parseShape : ∀ (shape : List (Str × Bool × Schema))
    {props : List (PropertyKey × Bool × Option (JsValue N))} {result : List (Str × JsonValue N)},
    ProperShape shape → parseShape F shape props = some result →
    DistinctFields result ∧ NoStrayFields result
  | [], _, _, _, h => by cases h; exact ⟨trivial, trivial⟩
  | (key, optional, schema) :: shape, props, result, hp, h => by
    rcases parseShape_cons.mp h with ⟨-, -, hrest⟩ | ⟨field, fields, hfield, -, hrest, rfl⟩
    · exact clean_parseShape shape hp.2 hrest
    · have hclean := clean_parse schema hp.1 hfield
      obtain ⟨hdistinct, hstray⟩ := clean_parseShape shape hp.2 hrest
      exact ⟨⟨hclean.1, hdistinct⟩, hclean.2, hstray⟩

theorem clean_parseOption : ∀ (discriminator : Str) (options : List (Str × Schema)) {kind : Str}
    {v : JsValue N} {x : JsonValue N}, ProperOptions discriminator options →
    parseOption F options kind v = some x → Clean x
  | _, [], _, _, _, _, h => by cases h
  | discriminator, (kind, schema) :: options, kind', v, x, hp, h => by
    rw [parseOption] at h
    split at h
    · exact clean_parse schema hp.1 h
    · exact clean_parseOption discriminator options hp.2.2 h

end

theorem plainItems_cons_inj {v w : JsonValue N} {items items' : List (JsonValue N)}
    (hv : plain F.toNumberFormat v = plain F.toNumberFormat w)
    (hitems : plainItems F.toNumberFormat items = plainItems F.toNumberFormat items') :
    plainItems F.toNumberFormat (v :: items) = plainItems F.toNumberFormat (w :: items') := by
  rw [plainItems, plainItems, hv, hitems]

theorem length_plainItems : ∀ items : List (JsonValue N),
    (plainItems F.toNumberFormat items).length = items.length
  | [] => rfl
  | _ :: items => congrArg (· + 1) (length_plainItems items)

theorem required_mem_parseShape {key : Str} {schema : Schema} :
    ∀ {shape : List (Str × Bool × Schema)}
    {props : List (PropertyKey × Bool × Option (JsValue N))} {result : List (Str × JsonValue N)},
    parseShape F shape props = some result → (key, false, schema) ∈ shape →
    ∃ v, (key, v) ∈ result ∧ schema.parse F (readProp props key) = some v
  | (k, optional, s) :: shape, props, result, h, hmem => by
    rcases parseShape_cons.mp h with ⟨hopt, -, hrest⟩ | ⟨field, fields, hfield, -, hrest, rfl⟩
    · rcases List.mem_cons.mp hmem with heq | hmem
      · cases heq
        cases hopt
      · exact required_mem_parseShape hrest hmem
    · rcases List.mem_cons.mp hmem with heq | hmem
      · cases heq
        exact ⟨field, List.mem_cons_self, hfield⟩
      · obtain ⟨v, hv, hparse⟩ := required_mem_parseShape hrest hmem
        exact ⟨v, List.mem_cons_of_mem _ hv, hparse⟩

/-- The field that selects an option is in its result. -/
theorem parseOption_kind {discriminator : Str} : ∀ {options : List (Str × Schema)} {kind : Str}
    {v : JsValue N} {x : JsonValue N}, ProperOptions discriminator options →
    parseOption F options kind v = some x →
    ∃ fields, x = .obj fields ∧ (discriminator, .str kind) ∈ fields
  | [], _, _, _, _, h => by cases h
  | (kind, schema) :: options, kind', v, x, hp, h => by
    rw [parseOption] at h
    split at h
    · rename_i hkind
      subst hkind
      obtain ⟨hproper, ⟨shape, rfl, hliteral⟩, -⟩ := hp
      obtain ⟨prototype, props, fields, rfl, rfl, -, hfields⟩ := parse_strictObject h
      obtain ⟨w, hw, hparse⟩ := required_mem_parseShape hfields hliteral
      refine ⟨fields, rfl, ?_⟩
      cases hread : readProp props discriminator with
      | string s =>
        rw [hread, Schema.parse] at hparse
        split at hparse
        · rename_i hs
          cases hparse
          rwa [← hs]
        · cases hparse
      | _ =>
        rw [hread] at hparse
        cases hparse
    · exact parseOption_kind hp.2.2 h

mutual

/-- A schema does not see the order of keys or a negative zero. -/
theorem parse_same : ∀ (schema : Schema) {v : JsValue N} {x y : JsonValue N}, schema.Proper →
    schema.parse F v = some x → Same F.toNumberFormat x y → Clean y →
    ∃ x', schema.parse F (ofParsed y) = some x' ∧
      plain F.toNumberFormat x' = plain F.toNumberFormat x
  | .boolean, v, x, y, _, h, hsame, _ => by
    cases v with
    | boolean b =>
      cases h
      cases y with
      | bool b' => cases hsame; exact ⟨_, rfl, rfl⟩
      | _ => cases hsame
    | _ => cases h
  | .literal value, v, x, y, _, h, hsame, _ => by
    cases v with
    | string s =>
      have h' := h
      rw [Schema.parse] at h
      split at h <;> cases h
      cases y with
      | str s' => cases hsame; exact ⟨_, h', rfl⟩
      | _ => cases hsame
    | _ => cases h
  | .string accepts, v, x, y, _, h, hsame, _ => by
    cases v with
    | string s =>
      have h' := h
      rw [Schema.parse] at h
      split at h <;> cases h
      cases y with
      | str s' => cases hsame; exact ⟨_, h', rfl⟩
      | _ => cases hsame
    | _ => cases h
  | .integer accepts, v, x, y, _, h, hsame, _ => by
    cases v with
    | number n =>
      cases n with
      | finite n =>
        rw [Schema.parse] at h
        split at h <;> cases h
        rename_i hn
        cases y with
        | num m =>
          have hnum : toNumber F.toNumberFormat n = toNumber F.toNumberFormat m := hsame
          refine ⟨.num m, ?_, ?_⟩
          · rw [ofParsed, Schema.parse, if_pos]
            unfold Integers.integerOf at hn ⊢
            rwa [← hnum]
          · rw [plain, plain, hnum]
        | _ => cases hsame
      | _ => cases h
    | _ => cases h
  | .uniqueArray item lengthOk, v, x, y, hp, h, hsame, hy => by
    obtain ⟨elements, extra, items, rfl, rfl, hitems, hlen, hunique⟩ := parse_uniqueArray h
    cases y with
    | arr ys extra' =>
      obtain ⟨hdistinct, rfl, hstray⟩ := hy
      have hitems' : ∃ items', List.Forall₂
          (fun e x => item.parse F (Option.getD e .undefined) = some x) (ofParsedItems ys) items' ∧
          plainItems F.toNumberFormat items' = plainItems F.toNumberFormat items := by
        have hsame' := hsame.1
        clear h hsame hlen hunique
        induction hitems generalizing ys with
        | nil =>
          cases ys with
          | nil => exact ⟨[], List.Forall₂.nil, rfl⟩
          | cons => cases hsame'
        | cons hhead _ ih =>
          cases ys with
          | nil => cases hsame'
          | cons y ys =>
            obtain ⟨x', hx', hplain⟩ := parse_same item hp hhead hsame'.1 ⟨hdistinct.1, hstray.1⟩
            obtain ⟨items', hitems', hplains⟩ := ih ys hstray.2 hdistinct.2 hsame'.2
            exact ⟨x' :: items', List.Forall₂.cons hx' hitems', plainItems_cons_inj hplain hplains⟩
      obtain ⟨items', hparsed, hplain⟩ := hitems'
      refine ⟨.arr items' [], ?_, ?_⟩
      · rw [ofParsed, Schema.parse, mapM_eq_some.mpr hparsed]
        refine if_pos ⟨?_, ?_⟩
        · rw [← length_plainItems (F := F), hplain, length_plainItems]
          exact hlen
        · rw [← compactItems_plain, hplain, compactItems_plain]
          exact hunique
      · rw [plain, plain, hplain]
    | _ => cases hsame
  | .strictObject shape, v, x, y, hp, h, hsame, hy => by
    obtain ⟨prototype, props, fields, rfl, rfl, -, hfields⟩ := parse_strictObject h
    cases y with
    | obj ys =>
      have hkeys := keys_parseShape hfields
      have hperm := same_keys (hkeys.1.nodup hp.1) hsame
      obtain ⟨fields', hparsed, hplain⟩ := parseShape_same shape hp.1 hp.2 hfields hy.1.1 hy.1.2
        hy.2 (sameFields_iff.mp hsame.2) fun key _ hno hmem => hno (hperm.mem_iff.mpr hmem)
      refine ⟨.obj fields', ?_, by rw [plain, plain, hplain]⟩
      rw [ofParsed, Schema.parse, if_pos, hparsed]
      · rfl
      · intro key hkey
        rw [ownKeys_ofParsed] at hkey
        exact hkeys.1.subset (hperm.mem_iff.mpr hkey)
    | _ => cases hsame
  | .discriminatedUnion discriminator options, v, x, y, hp, h, hsame, hy => by
    obtain ⟨prototype, props, kind, rfl, -, hoption⟩ := parse_union h
    obtain ⟨fields, rfl, hmem⟩ := parseOption_kind hp hoption
    cases y with
    | obj ys =>
      obtain ⟨w, hw, hkind⟩ := sameFields_iff.mp hsame.2 discriminator _ hmem
      cases w with
      | str s =>
        cases hkind
        obtain ⟨x', hx', hplain⟩ := parseOption_same discriminator options hp hoption hsame hy
        refine ⟨x', ?_, hplain⟩
        rw [ofParsed, Schema.parse, readProp_ofParsed hy.1.1 hw]
        exact hx'
      | _ => cases hkind
    | _ => cases hsame

theorem parseShape_same : ∀ (shape : List (Str × Bool × Schema))
    {props : List (PropertyKey × Bool × Option (JsValue N))} {result ys : List (Str × JsonValue N)},
    (shape.map Prod.fst).Nodup → ProperShape shape → parseShape F shape props = some result →
    (ys.map Prod.fst).Nodup → DistinctFields ys → NoStrayFields ys →
    (∀ key x, (key, x) ∈ result → ∃ y, (key, y) ∈ ys ∧ Same F.toNumberFormat x y) →
    (∀ key ∈ shape.map Prod.fst, key ∉ result.map Prod.fst → key ∉ ys.map Prod.fst) →
    ∃ result', parseShape F shape (ofParsedFields ys) = some result' ∧
      plainFields F.toNumberFormat result' = plainFields F.toNumberFormat result
  | [], _, result, ys, _, _, h, _, _, _, _, _ => by
    cases h
    exact ⟨[], rfl, rfl⟩
  | (key, optional, schema) :: shape, props, result, ys, hn, hp, h, hys, hdistinct, hstray, hlike,
      habsent => by
    rw [List.map_cons, List.nodup_cons] at hn
    rcases parseShape_cons.mp h with ⟨hopt, hno, hrest⟩ | ⟨field, fields, hfield, -, hrest, rfl⟩
    · have hkey : key ∉ result.map Prod.fst := fun hmem =>
        hn.1 ((keys_parseShape hrest).1.subset hmem)
      obtain ⟨result', hresult', hplain⟩ := parseShape_same shape hn.2 hp.2 hrest hys hdistinct
        hstray hlike fun k hk => habsent k (List.mem_cons_of_mem _ hk)
      refine ⟨result', parseShape_cons.mpr (.inl ⟨hopt, ?_, hresult'⟩), hplain⟩
      rw [← Bool.not_eq_true, hasProp_ofParsed]
      exact habsent key List.mem_cons_self hkey
    · obtain ⟨y, hy, hsame⟩ := hlike key field List.mem_cons_self
      have hclean : Clean y := ⟨distinct_of_mem hdistinct hy, noStray_of_mem hstray hy⟩
      obtain ⟨field', hfield', hplain'⟩ := parse_same schema hp.1 hfield hsame hclean
      obtain ⟨fields', hfields', hplain⟩ := parseShape_same shape hn.2 hp.2 hrest hys hdistinct
        hstray (fun k x hmem => hlike k x (List.mem_cons_of_mem _ hmem)) fun k hk hno =>
          habsent k (List.mem_cons_of_mem _ hk) fun hmem => by
            rcases List.mem_cons.mp hmem with rfl | hmem
            · exact hn.1 hk
            · exact hno hmem
      refine ⟨(key, field') :: fields', parseShape_cons.mpr (.inr ⟨field', fields', ?_,
        hasProp_ofParsed.mpr (mem_keys_iff.mpr ⟨y, hy⟩), hfields', rfl⟩), ?_⟩
      · rw [readProp_ofParsed hys hy]
        exact hfield'
      · rw [plainFields, plainFields, hplain', hplain]

theorem parseOption_same : ∀ (discriminator : Str) (options : List (Str × Schema)) {kind : Str}
    {v : JsValue N} {x y : JsonValue N}, ProperOptions discriminator options →
    parseOption F options kind v = some x → Same F.toNumberFormat x y → Clean y →
    ∃ x', parseOption F options kind (ofParsed y) = some x' ∧
      plain F.toNumberFormat x' = plain F.toNumberFormat x
  | _, [], _, _, _, _, _, h, _, _ => by cases h
  | discriminator, (kind, schema) :: options, kind', v, x, y, hp, h, hsame, hy => by
    rw [parseOption] at h ⊢
    split at h
    · rename_i hkind
      rw [if_pos hkind]
      exact parse_same schema hp.1 h hsame hy
    · rename_i hkind
      rw [if_neg hkind]
      exact parseOption_same discriminator options hp.2.2 h hsame hy

end

mutual

/-- Of JSON, a schema returns what it was given. -/
theorem parse_ofParsed : ∀ (schema : Schema) {x y : JsonValue N}, schema.Proper →
    schema.parse F (ofParsed y) = some x → Clean y → Same F.toNumberFormat x y
  | .boolean, x, y, _, h, _ => by
    cases y with
    | bool b => cases h; rfl
    | _ => cases h
  | .literal value, x, y, _, h, _ => by
    cases y with
    | str s =>
      rw [ofParsed, Schema.parse] at h
      split at h <;> cases h
      rfl
    | _ => cases h
  | .string accepts, x, y, _, h, _ => by
    cases y with
    | str s =>
      rw [ofParsed, Schema.parse] at h
      split at h <;> cases h
      rfl
    | _ => cases h
  | .integer accepts, x, y, _, h, _ => by
    cases y with
    | num n =>
      rw [ofParsed, Schema.parse] at h
      split at h <;> cases h
      rfl
    | _ => cases h
  | .uniqueArray item lengthOk, x, y, hp, h, hy => by
    cases y with
    | arr ys extra =>
      obtain ⟨elements, extra', items, heq, rfl, hitems, -, -⟩ := parse_uniqueArray h
      cases heq
      obtain ⟨hdistinct, rfl, hstray⟩ := hy
      refine ⟨?_, List.Perm.refl _⟩
      clear h
      generalize hys : ofParsedItems ys = elements at hitems
      induction hitems generalizing ys with
      | nil =>
        cases ys with
        | nil => trivial
        | cons => cases hys
      | cons hhead _ ih =>
        cases ys with
        | nil => cases hys
        | cons y ys =>
          cases hys
          exact ⟨parse_ofParsed item hp hhead ⟨hdistinct.1, hstray.1⟩,
            ih ys hstray.2 hdistinct.2 rfl⟩
    | _ =>
      obtain ⟨elements, extra', items, heq, -⟩ := parse_uniqueArray h
      cases heq
  | .strictObject shape, x, y, hp, h, hy => by
    cases y with
    | obj ys =>
      obtain ⟨prototype, props, fields, heq, rfl, hown, hfields⟩ := parse_strictObject h
      cases heq
      have hlike := parseShape_ofParsed shape hp.2 hfields hy.1.1 hy.1.2 hy.2
      have hkeys := keys_parseShape hfields
      have hsub : fields.map Prod.fst ⊆ ys.map Prod.fst := by
        intro key hkey
        obtain ⟨v, hv⟩ := mem_keys_iff.mp hkey
        obtain ⟨w, hw, -⟩ := hlike key v hv
        exact mem_keys_iff.mpr ⟨w, hw⟩
      have hsub' : ys.map Prod.fst ⊆ fields.map Prod.fst := by
        intro key hkey
        exact hkeys.2 key (hown key (by rwa [ownKeys_ofParsed])) (hasProp_ofParsed.mpr hkey)
      have hlen := ((List.subperm_of_subset (hkeys.1.nodup hp.1) hsub).antisymm
        (List.subperm_of_subset hy.1.1 hsub')).length_eq
      rw [List.length_map, List.length_map] at hlen
      exact ⟨hlen, sameFields_iff.mpr hlike⟩
    | _ =>
      obtain ⟨prototype, props, fields, heq, -⟩ := parse_strictObject h
      cases heq
  | .discriminatedUnion discriminator options, x, y, hp, h, hy => by
    obtain ⟨prototype, props, kind, heq, -, hoption⟩ := parse_union h
    exact parseOption_ofParsed discriminator options hp hoption hy

theorem parseShape_ofParsed : ∀ (shape : List (Str × Bool × Schema))
    {result ys : List (Str × JsonValue N)}, ProperShape shape →
    parseShape F shape (ofParsedFields ys) = some result → (ys.map Prod.fst).Nodup →
    DistinctFields ys → NoStrayFields ys →
    ∀ key x, (key, x) ∈ result → ∃ y, (key, y) ∈ ys ∧ Same F.toNumberFormat x y
  | [], _, _, _, h, _, _, _, _, _, hmem => by
    cases h
    cases hmem
  | (k, optional, schema) :: shape, result, ys, hp, h, hys, hdistinct, hstray, key, x, hmem => by
    rcases parseShape_cons.mp h with ⟨-, -, hrest⟩ | ⟨field, fields, hfield, hhas, hrest, rfl⟩
    · exact parseShape_ofParsed shape hp.2 hrest hys hdistinct hstray key x hmem
    · rcases List.mem_cons.mp hmem with heq | hmem
      · cases heq
        obtain ⟨y, hy⟩ := mem_keys_iff.mp (hasProp_ofParsed.mp hhas)
        rw [readProp_ofParsed hys hy] at hfield
        exact ⟨y, hy, parse_ofParsed schema hp.1 hfield
          ⟨distinct_of_mem hdistinct hy, noStray_of_mem hstray hy⟩⟩
      · exact parseShape_ofParsed shape hp.2 hrest hys hdistinct hstray key x hmem

theorem parseOption_ofParsed : ∀ (discriminator : Str) (options : List (Str × Schema)) {kind : Str}
    {x y : JsonValue N}, ProperOptions discriminator options →
    parseOption F options kind (ofParsed y) = some x → Clean y → Same F.toNumberFormat x y
  | _, [], _, _, _, _, h, _ => by cases h
  | discriminator, (kind, schema) :: options, kind', x, y, hp, h, hy => by
    rw [parseOption] at h
    split at h
    · exact parse_ofParsed schema hp.1 h hy
    · exact parseOption_ofParsed discriminator options hp.2.2 h hy

end

end Schemas

/-! ## Accepted values -/

section Accepted

variable {N : Type}

/-- The value is accepted as this JSON, wherever it stands. -/
def IsJson (v : JsValue N) (x : JsonValue N) : Prop := ∀ path, assertJsonValue path v = .ok x

mutual

theorem isJson_of_assert : ∀ (v : JsValue N) {path : Str} {x : JsonValue N},
    assertJsonValue path v = .ok x → IsJson v x
  | .null, _, _, h, _ => h
  | .string _, _, _, h, _ => h
  | .boolean _, _, _, h, _ => h
  | .number (.finite _), _, _, h, _ => h
  | .number .nan, _, _, h, _ => by cases h
  | .number (.infinity _), _, _, h, _ => by cases h
  | .undefined, _, _, h, _ => by cases h
  | .bigint _, _, _, h, _ => by cases h
  | .symbol _, _, _, h, _ => by cases h
  | .function _, _, _, h, _ => by cases h
  | .array elements extra, path, x, h, path' => by
    rw [assertJsonValue] at h ⊢
    split at h
    · rename_i hextra
      obtain ⟨items, hitems, h⟩ := bind_eq_ok.mp h
      rw [if_pos hextra]
      exact bind_eq_ok.mpr ⟨items, assertElements_path elements hitems path' 0, h⟩
    · cases h
  | .object prototype props, path, x, h, path' => by
    rw [assertJsonValue] at h ⊢
    split at h
    · cases h
    · rename_i hprototype
      obtain ⟨fields, hfields, h⟩ := bind_eq_ok.mp h
      rw [if_neg hprototype]
      exact bind_eq_ok.mpr ⟨fields, assertProps_path props hfields path', h⟩

theorem assertElements_path : ∀ (elements : List (Option (JsValue N))) {path : Str} {index : Nat}
    {items : List (JsonValue N)}, assertElements path index elements = .ok items →
    ∀ path' index', assertElements path' index' elements = .ok items
  | [], _, _, _, h, _, _ => h
  | none :: _, _, _, _, h, _, _ => by cases h
  | some v :: elements, path, index, items, h, path', index' => by
    rw [assertElements] at h ⊢
    obtain ⟨item, hitem, h⟩ := bind_eq_ok.mp h
    obtain ⟨rest, hrest, h⟩ := bind_eq_ok.mp h
    exact bind_eq_ok.mpr ⟨item, isJson_of_assert v hitem _,
      bind_eq_ok.mpr ⟨rest, assertElements_path elements hrest _ _, h⟩⟩

theorem assertProps_path : ∀ (props : List (PropertyKey × Bool × Option (JsValue N))) {path : Str}
    {fields : List (Str × JsonValue N)}, assertProps path props = .ok fields →
    ∀ path', assertProps path' props = .ok fields
  | [], _, _, h, _ => h
  | (.symbol _, _, _) :: _, _, _, h, _ => by cases h
  | (.str _, false, none) :: _, _, _, h, _ => by cases h
  | (.str _, false, some _) :: _, _, _, h, _ => by cases h
  | (.str _, true, none) :: _, _, _, h, _ => by cases h
  | (.str k, true, some v) :: props, path, fields, h, path' => by
    rw [assertProps] at h ⊢
    obtain ⟨field, hfield, h⟩ := bind_eq_ok.mp h
    obtain ⟨rest, hrest, h⟩ := bind_eq_ok.mp h
    exact bind_eq_ok.mpr ⟨field, isJson_of_assert v hfield _,
      bind_eq_ok.mpr ⟨rest, assertProps_path props hrest _, h⟩⟩

end

/-- What an accepted object is seen to have. -/
structure Reads (props : List (PropertyKey × Bool × Option (JsValue N)))
    (fields : List (Str × JsonValue N)) : Prop where
  keys : ownKeys props = fields.map Prod.fst
  read : ∀ key x, (key, x) ∈ fields → IsJson (readProp props key) x
  absent : ∀ key, key ∉ fields.map Prod.fst → readProp props key = .undefined

theorem reads_of_assert : ∀ {props : List (PropertyKey × Bool × Option (JsValue N))} {path : Str}
    {fields : List (Str × JsonValue N)}, assertProps path props = .ok fields →
    (fields.map Prod.fst).Nodup → Reads props fields
  | [], _, _, h, _ => by
    cases h
    exact ⟨rfl, fun _ _ hmem => absurd hmem List.not_mem_nil, fun _ _ => rfl⟩
  | (.symbol _, _, _) :: _, _, _, h, _ => by cases h
  | (.str _, false, none) :: _, _, _, h, _ => by cases h
  | (.str _, false, some _) :: _, _, _, h, _ => by cases h
  | (.str _, true, none) :: _, _, _, h, _ => by cases h
  | (.str k, true, some v) :: props, path, fields, h, hn => by
    rw [assertProps] at h
    obtain ⟨field, hfield, h⟩ := bind_eq_ok.mp h
    obtain ⟨rest, hrest, h⟩ := bind_eq_ok.mp h
    cases h
    rw [List.map_cons, List.nodup_cons] at hn
    obtain ⟨hkeys, hread, habsent⟩ := reads_of_assert hrest hn.2
    have hself : readProp ((.str k, true, some v) :: props) k = v := by
      simp [readProp]
    have hother : ∀ key, key ≠ k →
        readProp ((.str k, true, some v) :: props) key = readProp props key := by
      intro key hne
      unfold readProp
      rw [List.find?_cons_of_neg (by simpa using fun h => hne h.symm)]
    refine ⟨?_, fun key x hmem => ?_, fun key hkey => ?_⟩
    · rw [List.map_cons, ← hkeys]
      rfl
    · rcases List.mem_cons.mp hmem with heq | htail
      · cases heq
        rw [hself]
        exact isJson_of_assert v hfield
      · have hne : key ≠ k := by
          rintro rfl
          exact hn.1 (mem_keys_iff.mpr ⟨x, htail⟩)
        rw [hother key hne]
        exact hread key x htail
    · rw [List.map_cons, List.mem_cons, not_or] at hkey
      rw [hother key hkey.1]
      exact habsent key hkey.2

theorem reads_ofParsed {fields : List (Str × JsonValue N)} (h : Clean (.obj fields)) :
    Reads (ofParsedFields fields) fields :=
  reads_of_assert (assertProps_ofParsed fields [] h.2) h.1.1

theorem isJson_object {prototype : Prototype}
    {props : List (PropertyKey × Bool × Option (JsValue N))} {x : JsonValue N}
    (h : IsJson (.object prototype props) x) :
    ∃ fields, x = .obj fields ∧ assertProps [] props = .ok fields := by
  have hassert := h []
  rw [assertJsonValue] at hassert
  split at hassert
  · cases hassert
  · obtain ⟨fields, hfields, hx⟩ := bind_eq_ok.mp hassert
    exact ⟨fields, (Except.ok.inj hx).symm, hfields⟩

end Accepted

end KNex.Contracts.CanonicalJson
