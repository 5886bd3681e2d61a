import KNex.Contracts.CanonicalJson
import KNex.Core.TextCoding

/-!
# Parsed JSON

What `JSON.parse` gives is accepted by `assertJsonValue` as it is (`assertJsonValue_ofParsed`), and
what `canonicalJson` writes can be encoded: it has no surrogate without its partner, whatever the
strings of the value have (`canonicalJson_text`). The canonical text of what was read from a canonical
text is that text (`canonicalJson_ofParsed`).
-/
namespace KNex.Contracts.CanonicalJson

open KNex.Core KNex.Core.JsonText KNex.Core.TextCoding

/-! ## Values as `JSON.parse` gives them -/

section Values

variable {N : Type}

mutual

def ofParsed : JsonValue N → JsValue N
  | .null => .null
  | .bool b => .boolean b
  | .num n => .number (.finite n)
  | .str s => .string s
  | .arr items _ => .array (ofParsedItems items) []
  | .obj fields => .object .object (ofParsedFields fields)

def ofParsedItems : List (JsonValue N) → List (Option (JsValue N))
  | [] => []
  | v :: items => some (ofParsed v) :: ofParsedItems items

def ofParsedFields : List (Str × JsonValue N) → List (PropertyKey × Bool × Option (JsValue N))
  | [] => []
  | (k, v) :: fields => (.str k, true, some (ofParsed v)) :: ofParsedFields fields

end

mutual

theorem assertJsonValue_ofParsed : ∀ (v : JsonValue N) (path : Str), NoStray v →
    assertJsonValue path (ofParsed v) = .ok v
  | .null, _, _ => rfl
  | .bool _, _, _ => rfl
  | .num _, _, _ => rfl
  | .str _, _, _ => rfl
  | .arr items extra, path, h => by
    obtain ⟨rfl, h⟩ := h
    rw [ofParsed, assertJsonValue, assertElements_ofParsed items path 0 h]
    rfl
  | .obj fields, path, h => by
    rw [ofParsed, assertJsonValue, assertProps_ofParsed fields path h]
    rfl

theorem assertElements_ofParsed : ∀ (items : List (JsonValue N)) (path : Str) (index : Nat),
    NoStrayItems items → assertElements path index (ofParsedItems items) = .ok items
  | [], _, _, _ => rfl
  | v :: items, path, index, h => by
    rw [ofParsedItems, assertElements, assertJsonValue_ofParsed v _ h.1,
      assertElements_ofParsed items path _ h.2]
    rfl

theorem assertProps_ofParsed : ∀ (fields : List (Str × JsonValue N)) (path : Str),
    NoStrayFields fields → assertProps path (ofParsedFields fields) = .ok fields
  | [], _, _ => rfl
  | (k, v) :: fields, path, h => by
    rw [ofParsedFields, assertProps, assertJsonValue_ofParsed v _ h.1,
      assertProps_ofParsed fields path h.2]
    rfl

end

theorem map_fst_ofParsedFields : ∀ fields : List (Str × JsonValue N),
    (ofParsedFields fields).map Prod.fst = fields.map fun f => PropertyKey.str f.1
  | [] => rfl
  | (k, v) :: fields => by
    rw [ofParsedFields, List.map_cons, List.map_cons, map_fst_ofParsedFields fields]

mutual

theorem wellFormed_ofParsed : ∀ v : JsonValue N, Distinct v → WellFormed (ofParsed v)
  | .null, _ => trivial
  | .bool _, _ => trivial
  | .num _, _ => trivial
  | .str _, _ => trivial
  | .arr items _, h =>
    ⟨List.nodup_nil, fun _ hk => absurd hk List.not_mem_nil, elementsWellFormed_ofParsed items h⟩
  | .obj fields, h => by
    refine ⟨?_, propsWellFormed_ofParsed fields h.2⟩
    rw [map_fst_ofParsedFields, ← Function.comp_def PropertyKey.str Prod.fst, ← List.map_map]
    exact h.1.map fun _ _ => PropertyKey.str.inj

theorem elementsWellFormed_ofParsed : ∀ items : List (JsonValue N), DistinctItems items →
    ElementsWellFormed (ofParsedItems items)
  | [], _ => trivial
  | v :: items, h => ⟨wellFormed_ofParsed v h.1, elementsWellFormed_ofParsed items h.2⟩

theorem propsWellFormed_ofParsed : ∀ fields : List (Str × JsonValue N), DistinctFields fields →
    PropsWellFormed (ofParsedFields fields)
  | [], _ => trivial
  | (_, v) :: fields, h => ⟨wellFormed_ofParsed v h.1, propsWellFormed_ofParsed fields h.2⟩

end

/-! ## What `JSON.parse` can give -/

theorem distinctFields_iff : ∀ {fields : List (Str × JsonValue N)},
    DistinctFields fields ↔ ∀ f ∈ fields, Distinct f.2
  | [] => by simp [DistinctFields]
  | (k, v) :: fields => by
    rw [DistinctFields, distinctFields_iff, List.forall_mem_cons]

theorem noStrayFields_iff : ∀ {fields : List (Str × JsonValue N)},
    NoStrayFields fields ↔ ∀ f ∈ fields, NoStray f.2
  | [] => by simp [NoStrayFields]
  | (k, v) :: fields => by
    rw [NoStrayFields, noStrayFields_iff, List.forall_mem_cons]

theorem mem_foldl_set {α : Type} {e : Str × α} : ∀ {l : List (Str × α)} {m : JsMap Str α},
    e ∈ (l.foldl (fun m e => m.set e.1 e.2) m).entries → e ∈ m.entries ∨ e ∈ l
  | [], _, h => .inl h
  | (k, v) :: l, m, h => by
    rcases mem_foldl_set (l := l) h with h | h
    · rw [show e = (e.1, e.2) from rfl, ← JsMap.get?_eq_some, JsMap.get?_set] at h
      split at h
      · rename_i hk
        cases h
        exact .inr (List.mem_cons.mpr (.inl (Prod.ext hk rfl)))
      · exact .inl (JsMap.get?_eq_some.mp h)
    · exact .inr (List.mem_cons_of_mem _ h)

theorem mem_of_mem_fromEntries {α : Type} {e : Str × α} {l : List (Str × α)}
    (h : e ∈ fromEntries l) : e ∈ l := by
  rcases mem_foldl_set ((ownOrder_perm _).mem_iff.mp h) with h | h
  · cases h
  · exact h

theorem nodup_fromEntries {α : Type} (l : List (Str × α)) :
    ((fromEntries l).map Prod.fst).Nodup :=
  (((ownOrder_perm _).map Prod.fst).nodup_iff).mpr (JsMap.nodup _)

/-- No name twice in an object, no stray property on an array. -/
def Clean (v : JsonValue N) : Prop := Distinct v ∧ NoStray v

def CleanItems (items : List (JsonValue N)) : Prop := DistinctItems items ∧ NoStrayItems items

theorem clean_obj {entries : List (Str × JsonValue N)} (h : ∀ e ∈ entries, Clean e.2) :
    Clean (.obj (fromEntries entries)) :=
  ⟨⟨nodup_fromEntries entries,
      distinctFields_iff.mpr fun f hf => (h f (mem_of_mem_fromEntries hf)).1⟩,
    noStrayFields_iff.mpr fun f hf => (h f (mem_of_mem_fromEntries hf)).2⟩

theorem cleanItems_iff : ∀ {items : List (JsonValue N)}, CleanItems items ↔ ∀ v ∈ items, Clean v
  | [] => by simp [CleanItems, DistinctItems, NoStrayItems]
  | v :: items => by
    rw [List.forall_mem_cons, ← cleanItems_iff]
    unfold CleanItems Clean
    rw [DistinctItems, NoStrayItems]
    tauto

variable {F : NumberFormat N}

theorem clean_keyword {word s r : Str} {v w : JsonValue N}
    (h : keyword word w s = some (v, r)) (hw : Clean w) : Clean v := by
  unfold keyword at h
  split at h
  · cases h
    exact hw
  · cases h

/-- One round of each of the three functions that read, from the round below. -/
theorem parse_clean_step (n : Nat) :
    (∀ s (v : JsonValue N) r, parseValue F n s = some (v, r) → Clean v) ∧
    (∀ s (items : List (JsonValue N)) r, parseItems F n s = some (items, r) → CleanItems items) ∧
    ∀ s (fields : List (Str × JsonValue N)) r, parseFields F n s = some (fields, r) →
      ∀ f ∈ fields, Clean f.2 := by
  induction n with
  | zero =>
    refine ⟨?_, ?_, ?_⟩
    · intro s v r h
      cases h
    · intro s items r h
      cases h
    · intro s fields r h
      cases h
  | succ n ih =>
    obtain ⟨hvalue, hitems, hfields⟩ := ih
    refine ⟨?_, ?_, ?_⟩
    · intro s v r h
      unfold parseValue at h
      split at h
      · cases h
      · rename_i c text
        split at h
        · exact clean_keyword h ⟨trivial, trivial⟩
        split at h
        · exact clean_keyword h ⟨trivial, trivial⟩
        split at h
        · exact clean_keyword h ⟨trivial, trivial⟩
        split at h
        · obtain ⟨t, -, heq⟩ := Option.map_eq_some_iff.mp h
          cases heq
          exact ⟨trivial, trivial⟩
        split at h
        · split at h
          · cases h
            exact ⟨trivial, rfl, trivial⟩
          · obtain ⟨t, ht, heq⟩ := Option.map_eq_some_iff.mp h
            cases heq
            have hclean := hitems _ t.1 t.2 ht
            exact ⟨hclean.1, rfl, hclean.2⟩
        split at h
        · split at h
          · cases h
            exact ⟨⟨List.nodup_nil, trivial⟩, trivial⟩
          · obtain ⟨t, ht, heq⟩ := Option.map_eq_some_iff.mp h
            cases heq
            exact clean_obj (hfields _ t.1 t.2 ht)
        · obtain ⟨m, -, heq⟩ := Option.map_eq_some_iff.mp h
          cases heq
          exact ⟨trivial, trivial⟩
    · intro s items r h
      unfold parseItems at h
      split at h
      · cases h
      · rename_i v rest hv
        have hclean := hvalue _ _ _ hv
        split at h
        · obtain ⟨t, ht, heq⟩ := Option.map_eq_some_iff.mp h
          cases heq
          have hrest := hitems _ t.1 t.2 ht
          exact ⟨⟨hclean.1, hrest.1⟩, hclean.2, hrest.2⟩
        · obtain ⟨t, -, heq⟩ := Option.map_eq_some_iff.mp h
          cases heq
          exact ⟨⟨hclean.1, trivial⟩, hclean.2, trivial⟩
    · intro s fields r h
      unfold parseFields at h
      split at h
      · cases h
      · split at h
        · cases h
        · rename_i v rest hv
          obtain ⟨rest', -, hv⟩ := Option.bind_eq_some_iff.mp hv
          have hclean := hvalue _ _ _ hv
          split at h
          · obtain ⟨t, ht, heq⟩ := Option.map_eq_some_iff.mp h
            cases heq
            exact List.forall_mem_cons.mpr ⟨hclean, hfields _ t.1 t.2 ht⟩
          · obtain ⟨t, -, heq⟩ := Option.map_eq_some_iff.mp h
            cases heq
            exact List.forall_mem_singleton.mpr hclean

theorem parse_clean {s : Str} {v : JsonValue N} (h : parse F s = some v) : Clean v := by
  unfold parse at h
  split at h
  · cases h
  · rename_i w r hw
    split at h
    · cases h
      exact (parse_clean_step s.length).1 _ _ _ hw
    · cases h

/-! ## Normal forms of normal forms -/

mutual

theorem norm_norm : ∀ v : JsonValue N, Distinct v → norm F (norm F v) = norm F v
  | .null, _ => rfl
  | .bool _, _ => rfl
  | .num _, _ => rfl
  | .str _, _ => rfl
  | .arr items extra, h => by
    rw [norm_arr, norm_arr, normItems_norm items h]
  | .obj fields, h => by
    have hnodup : ((ownOrder (sortEntries (normFields F fields))).map Prod.fst).Nodup :=
      ((canonicalFields_perm.map Prod.fst).nodup_iff).mpr (nodup_norm h.1)
    have hagain : normFields F (normFields F fields) = normFields F fields :=
      normFields_norm fields h.2
    have hperm : (normFields F (ownOrder (sortEntries (normFields F fields)))).Perm
        (normFields F fields) := by
      have hmap : (normFields F (ownOrder (sortEntries (normFields F fields)))).Perm
          (normFields F (normFields F fields)) := canonicalFields_perm.map _
      rwa [hagain] at hmap
    rw [norm_obj h.1, norm_obj hnodup, sortEntries_eq hperm (nodup_norm hnodup)]

theorem normItems_norm : ∀ items : List (JsonValue N), DistinctItems items →
    plainItems F (sortValues (plainItems F (sortValues items))) = plainItems F (sortValues items)
  | [], _ => rfl
  | v :: items, h => by
    show norm F (norm F v) :: _ = norm F v :: _
    rw [norm_norm v h.1, normItems_norm items h.2]

theorem normFields_norm : ∀ fields : List (Str × JsonValue N), DistinctFields fields →
    normFields F (normFields F fields) = normFields F fields
  | [], _ => rfl
  | (k, v) :: fields, h => by
    show (k, norm F (norm F v)) :: _ = (k, norm F v) :: _
    rw [norm_norm v h.1]
    exact congrArg _ (normFields_norm fields h.2)

end

end Values

/-! ## Canonical text as bytes -/

/-- A text that can be encoded after any other and before any other such text. -/
def Whole (s : Str) : Prop := wellFormed s = true ∧ startsTrail s = false

theorem Whole.append {s t : Str} (hs : Whole s) (ht : Whole t) : Whole (s ++ t) := by
  refine ⟨?_, ?_⟩
  · rw [(scalars_append ht.2 s).2, hs.1, ht.1]
    rfl
  · cases s with
    | nil => exact ht.2
    | cons c s => exact hs.2

theorem whole_plain {c : UInt16} (hlead : isLead c = false) (htrail : isTrail c = false) :
    Whole [c] := by
  refine ⟨?_, htrail⟩
  rw [wellFormed, hlead, htrail]
  rfl

theorem Whole.cons {c : UInt16} {s : Str} (hlead : isLead c = false) (htrail : isTrail c = false)
    (hs : Whole s) : Whole (c :: s) :=
  (whole_plain hlead htrail).append hs

theorem whole_ascii {s : Str} (h : ∀ c ∈ s, c.toNat < 128) : Whole s := by
  refine ⟨(encode_ascii h).2, ?_⟩
  cases s with
  | nil => rfl
  | cons c s =>
    have hc := h c List.mem_cons_self
    rw [startsTrail, ← Bool.not_eq_true, isTrail_iff]
    omega

theorem whole_literal {s : Str} (h : (s.all fun c => c.toNat < 128) = true) : Whole s :=
  whole_ascii (List.all_iff_forall_prop.mp h)

theorem hexDigit_lt {n : Nat} (h : n < 16) : (hexDigit n).toNat < 128 := by
  have hall : ∀ m : Fin 16, (hexDigit m).toNat < 128 := by decide
  exact hall ⟨n, h⟩

theorem whole_unicodeEscape (c : UInt16) : Whole (unicodeEscape c) := by
  have hc := c.toNat_lt
  refine whole_ascii fun d hd => ?_
  simp only [unicodeEscape, List.mem_cons, List.not_mem_nil, or_false] at hd
  rcases hd with rfl | rfl | rfl | rfl | rfl | rfl
  · decide
  · decide
  · exact hexDigit_lt (by omega)
  · exact hexDigit_lt (by omega)
  · exact hexDigit_lt (by omega)
  · exact hexDigit_lt (by omega)

/-- A unit that does not begin a pair. -/
theorem whole_quoteUnit {c : UInt16} {next : Bool} (h : isLead c = true → next = false) :
    Whole (quoteUnit c next) := by
  unfold quoteUnit
  repeat' split
  all_goals first
    | exact whole_unicodeEscape c
    | exact whole_literal (by decide)
    | skip
  rename_i hplain
  rw [not_or, not_or, not_and, Bool.not_eq_true] at hplain
  refine whole_plain ?_ hplain.2.1
  rw [← Bool.not_eq_true]
  intro hlead
  exact hplain.2.2 hlead (h hlead)

theorem quoteUnit_lead {c : UInt16} (h : isLead c = true) : quoteUnit c true = [c] := by
  rw [isLead_iff] at h
  have hne : ∀ d : UInt16, d.toNat < 128 → c ≠ d := by
    intro d hd heq
    rw [heq] at h
    omega
  have htrail : ¬ isTrail c = true := by
    rw [isTrail_iff]
    omega
  have hlow : ¬ c < 32 := by
    rw [UInt16.lt_iff_toNat_lt]
    show ¬ c.toNat < 32
    omega
  unfold quoteUnit
  rw [if_neg (hne 8 (by decide)), if_neg (hne 9 (by decide)), if_neg (hne 10 (by decide)),
    if_neg (hne 12 (by decide)), if_neg (hne 13 (by decide)), if_neg (hne 34 (by decide)),
    if_neg (hne 92 (by decide)), if_neg]
  simp [hlow, htrail]

/-- A pair is printed as it is, and every other surrogate as an escape. -/
theorem whole_quoteUnits : ∀ s : Str, Whole (quoteUnits false s)
  | [] => ⟨rfl, rfl⟩
  | c :: s => by
    rw [quoteUnits, if_neg Bool.false_ne_true]
    by_cases hpair : (isLead c && startsTrail s) = true
    · rw [Bool.and_eq_true] at hpair
      match s, hpair with
      | d :: s, hpair =>
        have ih := whole_quoteUnits s
        have hpaired : (!false && isLead c && startsTrail (d :: s)) = true := by
          rw [hpair.1, hpair.2]
          rfl
        rw [hpaired, hpair.2, quoteUnit_lead hpair.1, quoteUnits, if_pos rfl]
        refine ⟨?_, ?_⟩
        · show wellFormed (c :: d :: quoteUnits false s) = true
          rw [wellFormed, if_pos (by rw [hpair.1]; exact hpair.2)]
          exact ih.1
        · show isTrail c = false
          rw [← Bool.not_eq_true, isTrail_iff]
          have hlead := isLead_iff.mp hpair.1
          omega
    · have hunpaired : (!false && isLead c && startsTrail s) = false := by
        rw [← Bool.not_eq_true]
        exact hpair
      rw [hunpaired]
      refine (whole_quoteUnit fun hlead => ?_).append (whole_quoteUnits s)
      rw [hlead, Bool.true_and, Bool.not_eq_true] at hpair
      exact hpair

theorem whole_quote (s : Str) : Whole (quote s) :=
  ((whole_quoteUnits s).append (whole_literal (s := [34]) (by decide))).cons
    (by decide) (by decide)

theorem whole_newline (indent : Nat) : Whole (newline indent) := by
  refine whole_ascii fun c hc => ?_
  rcases List.mem_cons.mp hc with rfl | hc
  · decide
  · rw [List.eq_of_mem_replicate hc]
    decide

theorem whole_itemsTail {close : UInt16} (hclose : close.toNat < 128) (indent : Nat) :
    ∀ {l : List Str}, (∀ s ∈ l, Whole s) → Whole (itemsTail close indent l)
  | [], _ => (whole_newline indent).append (whole_ascii (List.forall_mem_singleton.mpr hclose))
  | x :: xs, h =>
    ((whole_newline (indent + 2)).append ((h x List.mem_cons_self).append
      (whole_itemsTail hclose indent fun s hs => h s (List.mem_cons_of_mem x hs)))).cons
      (by decide) (by decide)

theorem whole_bracket {start close : UInt16} (hstart : start.toNat < 128)
    (hclose : close.toNat < 128) (indent : Nat) {l : List Str} (h : ∀ s ∈ l, Whole s) :
    Whole (bracket start close indent l) := by
  cases l with
  | nil =>
    exact Whole.append (s := [start]) (whole_ascii (List.forall_mem_singleton.mpr hstart))
      (whole_ascii (List.forall_mem_singleton.mpr hclose))
  | cons x xs =>
    refine Whole.append (s := [start]) (whole_ascii (List.forall_mem_singleton.mpr hstart)) ?_
    exact (whole_newline (indent + 2)).append ((h x List.mem_cons_self).append
      (whole_itemsTail hclose indent fun s hs => h s (List.mem_cons_of_mem x hs)))

section Text

variable {N : Type} {F : NumberFormat N}

theorem whole_number (n : N) : Whole (F.text n) := by
  have hall : ∀ c ∈ JsonText.units "0123456789+-.eE", c.toNat < 128 :=
    List.all_iff_forall_prop.mp (by decide)
  exact whole_ascii fun c hc => hall c (F.units n c hc)

mutual

theorem whole_stringify : ∀ (v : JsonValue N) (indent : Nat), Whole (stringify F indent v)
  | .null, _ => whole_literal (s := JsonText.units "null") (by decide)
  | .bool true, _ => whole_literal (s := JsonText.units "true") (by decide)
  | .bool false, _ => whole_literal (s := JsonText.units "false") (by decide)
  | .num (.finite n), _ => whole_number n
  | .num .negZero, _ => whole_number F.zero
  | .str s, _ => whole_quote s
  | .arr items _, indent =>
    whole_bracket (by decide) (by decide) indent (whole_stringifyItems items (indent + 2))
  | .obj fields, indent =>
    whole_bracket (by decide) (by decide) indent (whole_stringifyFields fields (indent + 2))

theorem whole_stringifyItems : ∀ (items : List (JsonValue N)) (indent : Nat),
    ∀ s ∈ stringifyItems F indent items, Whole s
  | [], _, _, h => by cases h
  | v :: items, indent, s, h => by
    rcases List.mem_cons.mp h with rfl | h
    · exact whole_stringify v indent
    · exact whole_stringifyItems items indent s h

theorem whole_stringifyFields : ∀ (fields : List (Str × JsonValue N)) (indent : Nat),
    ∀ s ∈ stringifyFields F indent fields, Whole s
  | [], _, _, h => by cases h
  | (k, v) :: fields, indent, s, h => by
    rcases List.mem_cons.mp h with rfl | h
    · exact (whole_quote k).append
        (((whole_stringify v indent).cons (by decide) (by decide)).cons (by decide) (by decide))
    · exact whole_stringifyFields fields indent s h

end

/-- A canonical text can be written as bytes, and is read as the normal form of its value. -/
theorem canonicalJson_text {a : JsValue N} {text : Str} (ha : WellFormed a)
    (h : canonicalJson F a = .ok text) :
    ∃ x, assertJsonValue (JsonText.units "$") a = .ok x ∧ Distinct x ∧
      text = stringify F 0 (norm F x) ++ [10] ∧ wellFormed text = true ∧
      parse F text = some (norm F x) := by
  obtain ⟨x, hx, -⟩ := bind_eq_ok.mp h
  have hdistinct := assert_distinct a _ x ha hx
  rw [canonicalJson_eq hx] at h
  cases h
  exact ⟨x, hx, hdistinct, rfl, ((whole_stringify _ 0).append (whole_literal (by decide))).1,
    parse_stringify (normal_norm x hdistinct)⟩

theorem clean_norm {x : JsonValue N} (h : Distinct x) : Clean (norm F x) :=
  parse_clean (F := F) (parse_stringify (normal_norm x h))

/-- The canonical text of what was read from a canonical text is that text. -/
theorem canonicalJson_ofParsed {x : JsonValue N} (h : Distinct x) :
    canonicalJson F (ofParsed (norm F x)) = .ok (stringify F 0 (norm F x) ++ [10]) := by
  rw [canonicalJson_eq (assertJsonValue_ofParsed _ _ (clean_norm h).2), norm_norm x h]

end Text

end KNex.Contracts.CanonicalJson
