import KNex.Runtime.ExtensionCapabilityTokens

/-!
# The claims of capability tokens

The claims are parsed by one function before they are printed and after they are read, and that
function sees neither the order of keys nor a negative zero (`Printed.accepted`), and of JSON it
returns what it was given (`claims_ofParsed`).
-/
namespace KNex.Runtime.CapabilityTokens

open KNex.Core KNex.Core.JsonText KNex.Core.TextCoding KNex.Core.Base64
open KNex.Contracts KNex.Contracts.CanonicalJson

section Claims

variable {N : Type} {F : Integers N} {host : Host}

/-! ## Objects of data -/

theorem spread_dataProps : ∀ data : Data N, spread (dataProps data) = data
  | [] => rfl
  | e :: data => by
    have ih := spread_dataProps data
    unfold spread dataProps at ih ⊢
    rw [List.map_cons, List.filter_cons_of_pos rfl, List.map_cons, ih]
    rfl

def parsedData (fields : List (Str × JsonValue N)) : Data N :=
  fields.map fun f => (.str f.1, ofParsed f.2)

theorem ofParsedFields_eq (fields : List (Str × JsonValue N)) :
    ofParsedFields fields = dataProps (parsedData fields) := by
  induction fields with
  | nil => rfl
  | cons field fields ih =>
    obtain ⟨k, v⟩ := field
    rw [ofParsedFields, ih]
    rfl

theorem readProp_withValue_ne {key k : Str} (h : k ≠ key) (v : JsValue N) : ∀ data : Data N,
    readProp (dataProps (withValue data key v)) k = readProp (dataProps data) k
  | [] => rfl
  | (k', w) :: data => by
    have ih := readProp_withValue_ne h v data
    unfold readProp dataProps withValue at ih ⊢
    by_cases hk : k' = .str key
    · have hne : ¬ (PropertyKey.str key = .str k) := fun heq => h (PropertyKey.str.inj heq).symm
      subst hk
      rw [List.map_cons, if_pos rfl, List.map_cons, List.map_cons,
        List.find?_cons_of_neg (by simpa using hne), List.find?_cons_of_neg (by simpa using hne)]
      exact ih
    · by_cases hk' : k' = .str k
      · subst hk'
        rw [List.map_cons, if_neg hk, List.map_cons, List.map_cons, List.find?_cons_of_pos (by simp),
          List.find?_cons_of_pos (by simp)]
      · rw [List.map_cons, if_neg hk, List.map_cons, List.map_cons,
          List.find?_cons_of_neg (by simpa using hk'), List.find?_cons_of_neg (by simpa using hk')]
        exact ih

theorem readProp_withValue_self {key : Str} (v : JsValue N) : ∀ {data : Data N},
    readProp (dataProps data) key ≠ .undefined →
    readProp (dataProps (withValue data key v)) key = v
  | [], h => absurd rfl h
  | (k', w) :: data, h => by
    have ih : readProp (dataProps data) key ≠ .undefined →
        readProp (dataProps (withValue data key v)) key = v := readProp_withValue_self v
    unfold readProp dataProps at h
    unfold readProp dataProps withValue at ih ⊢
    by_cases hk : k' = .str key
    · subst hk
      rw [List.map_cons, if_pos rfl, List.map_cons, List.find?_cons_of_pos (by simp)]
    · rw [List.map_cons, List.find?_cons_of_neg (by simpa using hk)] at h
      rw [List.map_cons, if_neg hk, List.map_cons, List.find?_cons_of_neg (by simpa using hk)]
      exact ih h

theorem ownKeys_withValue (key : Str) (v : JsValue N) : ∀ data : Data N,
    ownKeys (dataProps (withValue data key v)) = ownKeys (dataProps data)
  | [] => rfl
  | (k', w) :: data => by
    have ih := ownKeys_withValue key v data
    unfold ownKeys dataProps withValue at ih ⊢
    by_cases hk : k' = .str key
    · subst hk
      rw [List.map_cons, if_pos rfl, List.map_cons, List.map_cons, List.filterMap_cons,
        List.filterMap_cons, ih]
    · rw [List.map_cons, if_neg hk, List.map_cons, List.map_cons, List.filterMap_cons,
        List.filterMap_cons, ih]

/-! ## What parsing asks -/

/-- The keys of a list are, in any order, those that are written there, with the optional one or
without it. -/
def KeysOk (names : List Str) (optional : Str) (keys : List Str) : Prop :=
  keyText keys = keyText names ∨ keyText keys = keyText (names ++ [optional])

/-- What `parseClaims` asks of the data of an object, and the grants that it makes of it. -/
structure Accepted (F : Integers N) (host : Host) (data : Data N)
    (grants : List (Option (JsonValue N))) : Prop where
  keys : KeysOk expectedKeys (units "drainLeaseId") (ownKeys (dataProps data))
  tests : passes (claimTests F) (dataProps data) = true
  parsed : ∃ elements extra, readProp (dataProps data) (units "grants") = .array elements extra ∧
    elements.length ≤ 16 ∧ elements.mapM (parseGrant F) = .ok grants
  unique : ∃ texts, grants.mapM (grantText F) = .ok texts ∧ texts.Nodup
  actor : ∃ prototype actor, readProp (dataProps data) (units "actor") = .object prototype actor ∧
    KeysOk [units "effectiveActorId", units "principalId"] (units "delegationId")
      (ownKeys actor) ∧ passes actorTests actor = true
  issuedAt : ∃ time, parseTimestamp host (readProp (dataProps data) (units "issuedAt")) = .ok time
  expiresAt : ∃ time, parseTimestamp host (readProp (dataProps data) (units "expiresAt")) = .ok time

def claimsOf (data : Data N) (grants : List (Option (JsonValue N))) : Data N :=
  withValue data (units "grants") (.array (grants.map fun grant => grant.map ofParsed) [])

theorem parseClaims_eq_ok {prototype : Prototype} {data : Data N} {claims : JsValue N} :
    parseClaims F host (.object prototype (dataProps data)) = .ok claims ↔
      ∃ grants, Accepted F host data grants ∧
        claims = .object .object (dataProps (claimsOf data grants)) := by
  have hactor : keyText [units "delegationId", units "effectiveActorId", units "principalId"] =
      keyText ([units "effectiveActorId", units "principalId"] ++ [units "delegationId"]) := by
    decide
  unfold parseClaims
  dsimp only
  rw [spread_dataProps]
  constructor
  · intro h
    split at h
    · rename_i elements extra p actor hgrants hactorRead
      simp only [bind_eq_ok, failIf_eq_ok, not_not] at h
      obtain ⟨_, ⟨hkeys, htests, hlen⟩, grants, hparsed, texts, htexts, _, hunique, _,
        ⟨hactorKeys, hactorTests⟩, t, hissued, t', hexpires, h⟩ := h
      rw [hactor] at hactorKeys
      exact ⟨grants, ⟨hkeys, htests, ⟨elements, extra, hgrants, hlen, hparsed⟩,
        ⟨texts, htexts, hunique⟩, ⟨p, actor, hactorRead, hactorKeys, hactorTests⟩, ⟨t, hissued⟩,
        ⟨t', hexpires⟩⟩, (Except.ok.inj h).symm⟩
    · cases h
  · rintro ⟨grants, h, rfl⟩
    obtain ⟨elements, extra, hgrants, hlen, hparsed⟩ := h.parsed
    obtain ⟨texts, htexts, hunique⟩ := h.unique
    obtain ⟨p, actor, hactorRead, hactorKeys, hactorTests⟩ := h.actor
    obtain ⟨t, hissued⟩ := h.issuedAt
    obtain ⟨t', hexpires⟩ := h.expiresAt
    unfold KeysOk at hactorKeys
    rw [← hactor] at hactorKeys
    rw [hgrants, hactorRead]
    simp only [bind_eq_ok, failIf_eq_ok, not_not]
    exact ⟨(), ⟨h.keys, h.tests, hlen⟩, grants, hparsed, texts, htexts, (), hunique, (),
      ⟨hactorKeys, hactorTests⟩, t, hissued, t', hexpires, rfl⟩

/-! ## Keys -/

theorem KeysOk.perm {names keys keys' : List Str} {optional : Str}
    (h : KeysOk names optional keys) (hperm : keys.Perm keys') : KeysOk names optional keys' := by
  unfold KeysOk keyText at h ⊢
  rwa [← sortKeys_eq hperm]

/-- Joined by NUL, keys may be taken for others; not where the names have no NUL and are all
there. -/
theorem KeysOk.mem {names keys : List Str} {optional : Str} (h : KeysOk names optional keys)
    (hnodup : (names ++ [optional]).Nodup) (hnul : ∀ name ∈ names ++ [optional], 0 ∉ name)
    (hnames : names ≠ []) (hmem : ∀ name ∈ names, name ∈ keys) :
    ∀ key ∈ keys, key ∈ names ++ [optional] := by
  have hkeys : sortKeys keys ≠ [] := by
    obtain ⟨name, hname⟩ := List.exists_mem_of_ne_nil names hnames
    exact List.ne_nil_of_mem ((sortKeys_perm keys).mem_iff.mpr (hmem name hname))
  have hof : ∀ names' : List Str, names'.Nodup → (∀ name ∈ names', 0 ∉ name) → names' ≠ [] →
      keyText keys = keyText names' → (∀ name ∈ names', name ≠ optional → name ∈ keys) →
      ∀ key ∈ keys, key ∈ names' := by
    intro names' hnodup' hnul' hne htext hmem' key hkey
    have hsorted : sortKeys names' ≠ [] := fun hnil =>
      hne ((sortKeys_perm names').symm.trans (by rw [hnil])).eq_nil
    have h := mem_of_joined optional ((sortKeys_perm names').nodup_iff.mpr hnodup')
      (fun name hname => hnul' name ((sortKeys_perm names').mem_iff.mp hname)) hsorted hkeys htext
      (fun name hname hother => (sortKeys_perm keys).mem_iff.mpr
        (hmem' name ((sortKeys_perm names').mem_iff.mp hname) hother)) key
      ((sortKeys_perm keys).mem_iff.mpr hkey)
    exact (sortKeys_perm names').mem_iff.mp h
  rcases h with h | h
  · intro key hkey
    exact List.mem_append_left _ (hof names (List.nodup_append.mp hnodup).1
      (fun name hname => hnul name (List.mem_append_left _ hname)) hnames h
      (fun name hname _ => hmem name hname) key hkey)
  · refine hof (names ++ [optional]) hnodup hnul (by simp) h fun name hname hother => ?_
    rcases List.mem_append.mp hname with hname | hname
    · exact hmem name hname
    · exact absurd (List.mem_singleton.mp hname) hother

/-! ## Tests -/

/-- A test that holds only of simple values, whatever zero they have. -/
def Simple (F : Integers N) (test : JsValue N → Bool) : Prop :=
  ∀ v x, test v = true → IsJson v x →
    NoStray x ∧ ∀ y, Same F.toNumberFormat x y → test (ofParsed y) = true

theorem simple_optionalText (pattern : Str → Bool) : Simple F (optionalText pattern) := by
  intro v x h hx
  cases v with
  | string s =>
    cases hx []
    refine ⟨trivial, fun y hy => ?_⟩
    cases y with
    | str s' => cases hy; exact h
    | _ => cases hy
  | undefined => cases hx []
  | _ => cases h

theorem simple_text (pattern : Str → Bool) : Simple F (text pattern) := by
  intro v x h hx
  cases v with
  | string s =>
    cases hx []
    refine ⟨trivial, fun y hy => ?_⟩
    cases y with
    | str s' => cases hy; exact h
    | _ => cases hy
  | _ => cases h

theorem simple_integer (bound : Int → Bool) : Simple F (integer F bound) := by
  intro v x h hx
  cases v with
  | number n =>
    cases n with
    | finite n =>
      cases hx []
      refine ⟨trivial, fun y hy => ?_⟩
      cases y with
      | num m =>
        have hnum : toNumber F.toNumberFormat n = toNumber F.toNumberFormat m := hy
        unfold integer Integers.integerOf at h ⊢
        rw [ofParsed]
        dsimp only at h ⊢
        rwa [← hnum]
      | _ => cases hy
    | _ => cases h
  | _ => cases h

theorem simple_claimTests : ∀ test ∈ claimTests F, Simple F test.2 := by
  simp only [claimTests, List.forall_mem_cons]
  exact ⟨simple_integer _, simple_text _, simple_text _, simple_text _, simple_text _,
    simple_text _, simple_text _, simple_text _, simple_integer _, simple_integer _,
    simple_optionalText _, fun _ h => absurd h List.not_mem_nil⟩

theorem simple_actorTests : ∀ test ∈ actorTests (N := N), Simple F test.2 := by
  simp only [actorTests, List.forall_mem_cons]
  exact ⟨simple_text _, simple_text _, simple_optionalText _, fun _ h => absurd h List.not_mem_nil⟩

/-- Tests that passed pass again on an object that is the same. -/
theorem passes_same {tests : List (String × (JsValue N → Bool))}
    (hsimple : ∀ test ∈ tests, Simple F test.2)
    {props : List (PropertyKey × Bool × Option (JsValue N))} {fields ys : List (Str × JsonValue N)}
    (hreads : Reads props fields) (hn : (fields.map Prod.fst).Nodup) (hys : Clean (.obj ys))
    (hsame : Same F.toNumberFormat (.obj fields) (.obj ys)) (h : passes tests props = true) :
    passes tests (ofParsedFields ys) = true := by
  have hreads' := reads_ofParsed hys
  unfold passes at h ⊢
  rw [List.all_eq_true] at h ⊢
  intro test htest
  have hpassed := h test htest
  by_cases hkey : units test.1 ∈ fields.map Prod.fst
  · obtain ⟨x, hx⟩ := mem_keys_iff.mp hkey
    obtain ⟨y, hy, hxy⟩ := sameFields_iff.mp hsame.2 _ x hx
    rw [readProp_ofParsed hys.1.1 hy]
    exact (hsimple test htest _ x hpassed (hreads.read _ x hx)).2 y hxy
  · rw [hreads.absent _ hkey] at hpassed
    rw [hreads'.absent _ fun hmem => hkey ((same_keys hn hsame).mem_iff.mpr hmem)]
    exact hpassed

/-! ## Grants -/

/-- A variant states its kind, beside fields of other names. -/
theorem properOptions_variant {kind : String} {fields : List (String × Schema)}
    {options : List (Str × Schema)}
    (hnodup : ((["$schema", "required", "reason", "kind"] ++ fields.map Prod.fst).map units).Nodup)
    (hproper : ∀ f ∈ fields, f.2.Proper) (hrest : ProperOptions (units "kind") options) :
    ProperOptions (units "kind") (variant kind fields :: options) := by
  have hfields : ProperShape (fields.map fun f => (units f.1, false, f.2)) := by
    induction fields with
    | nil => trivial
    | cons f fields ih =>
      refine ⟨hproper f List.mem_cons_self, ih (hnodup.sublist ?_) fun g hg =>
        hproper g (List.mem_cons_of_mem _ hg)⟩
      exact ((List.sublist_cons_self _ _).append_left _).map _
  refine ⟨⟨?_, trivial, trivial, trivial, trivial, hfields⟩, ⟨_, rfl, ?_⟩, hrest⟩
  · rw [List.map_append, List.map_map] at hnodup
    rw [List.map_append, List.map_cons, List.map_map]
    exact hnodup
  · simp

theorem proper_grantSchema : ExtensionCapabilityRequestSchema.Proper := by
  have hreference : capabilityReferenceSchema.Proper :=
    ⟨by decide, trivial, trivial, trivial⟩
  unfold ExtensionCapabilityRequestSchema
  rw [Schema.Proper]
  repeat
    refine properOptions_variant (by decide)
      (by simp [Schema.Proper, enumeration, resourceId, hreference]) ?_
  trivial

theorem parseGrant_eq_ok {element : Option (JsValue N)} {g : JsonValue N} :
    parseGrant F element = .ok (some g) ↔
      ∃ v, element = some v ∧ ExtensionCapabilityRequestSchema.parse F v = some g := by
  cases element with
  | none => exact ⟨fun h => absurd h (by simp [parseGrant]), fun ⟨_, h, _⟩ => absurd h (by simp)⟩
  | some v =>
    unfold parseGrant
    dsimp only
    constructor
    · intro h
      split at h
      · cases h
      · rename_i data hdata
        cases h
        exact ⟨v, rfl, hdata⟩
    · rintro ⟨w, heq, hw⟩
      cases heq
      rw [hw]

/-- Grants that are JSON have no hole among them. -/
theorem grants_of_elements : ∀ {grants : List (Option (JsonValue N))} {path : Str} {index : Nat}
    {items : List (JsonValue N)}, (∀ g ∈ grants, ∀ x ∈ g, NoStray x) →
    assertElements path index (grants.map fun grant => grant.map ofParsed) = .ok items →
    grants = items.map some
  | [], _, _, _, _, h => by
    cases h
    rfl
  | none :: _, _, _, _, _, h => by cases h
  | some g :: grants, path, index, items, hstray, h => by
    rw [List.map_cons, Option.map_some, assertElements] at h
    obtain ⟨item, hitem, h⟩ := bind_eq_ok.mp h
    obtain ⟨rest, hrest, h⟩ := bind_eq_ok.mp h
    cases h
    rw [assertJsonValue_ofParsed g _ (hstray _ List.mem_cons_self g rfl)] at hitem
    cases hitem
    rw [List.map_cons, grants_of_elements (fun g hg => hstray g (List.mem_cons_of_mem _ hg)) hrest]

theorem grantText_clean {g : JsonValue N} (h : Clean g) :
    grantText F (some g) = .ok (some (stringify F.toNumberFormat 0 (norm F.toNumberFormat g) ++ [10])) := by
  unfold grantText
  dsimp only
  rw [canonicalJson_eq (assertJsonValue_ofParsed g _ h.2)]

/-- Grants that are the same are parsed again, to grants of the same canonical text. -/
theorem grants_same : ∀ {elements : List (Option (JsValue N))} {gs ws : List (JsonValue N)},
    List.Forall₂ (fun e g => parseGrant F e = .ok g) elements (gs.map some) →
    SameItems F.toNumberFormat gs ws → CleanItems ws →
    ∃ gs' : List (JsonValue N),
      List.Forall₂ (fun e g => parseGrant F e = .ok g) (ofParsedItems ws) (gs'.map some) ∧
      (gs'.map some).mapM (grantText F) = (gs.map some).mapM (grantText F)
  | _, [], ws, _, hsame, _ => by
    cases ws with
    | nil => exact ⟨[], List.Forall₂.nil, rfl⟩
    | cons => cases hsame
  | _, g :: gs, ws, h, hsame, hclean => by
    cases h with
    | cons hhead htail =>
      cases ws with
      | nil => cases hsame
      | cons w ws =>
        obtain ⟨v, rfl, hg⟩ := parseGrant_eq_ok.mp hhead
        have hw : Clean w := ⟨hclean.1.1, hclean.2.1⟩
        obtain ⟨g', hg', -⟩ := parse_same _ proper_grantSchema hg hsame.1 hw
        obtain ⟨gs', hgs', htexts⟩ := grants_same htail hsame.2 ⟨hclean.1.2, hclean.2.2⟩
        have hc := clean_parse _ proper_grantSchema hg
        have hc' := clean_parse _ proper_grantSchema hg'
        have hnorm : norm F.toNumberFormat g' = norm F.toNumberFormat g := by
          rw [norm_of_same g' w hc'.1 hw.1 (parse_ofParsed _ proper_grantSchema hg' hw),
            norm_of_same g w hc.1 hw.1 hsame.1]
        refine ⟨g' :: gs', List.Forall₂.cons (parseGrant_eq_ok.mpr ⟨_, rfl, hg'⟩) hgs', ?_⟩
        rw [List.map_cons, List.map_cons, List.mapM_cons, List.mapM_cons, htexts,
          grantText_clean hc, grantText_clean hc', hnorm]

theorem grants_ofParsed : ∀ {gs ws : List (JsonValue N)},
    List.Forall₂ (fun e g => parseGrant F e = .ok g) (ofParsedItems ws) (gs.map some) →
    CleanItems ws → SameItems F.toNumberFormat gs ws ∧ CleanItems gs
  | gs, [], h, _ => by
    cases gs with
    | nil => exact ⟨trivial, trivial, trivial⟩
    | cons => cases h
  | gs, w :: ws, h, hclean => by
    cases gs with
    | nil => cases h
    | cons g gs =>
      rw [ofParsedItems, List.map_cons, List.forall₂_cons] at h
      obtain ⟨v, heq, hg⟩ := parseGrant_eq_ok.mp h.1
      cases heq
      obtain ⟨hsame, hitems⟩ := grants_ofParsed h.2 ⟨hclean.1.2, hclean.2.2⟩
      have hc := clean_parse _ proper_grantSchema hg
      exact ⟨⟨parse_ofParsed _ proper_grantSchema hg ⟨hclean.1.1, hclean.2.1⟩, hsame⟩,
        ⟨hc.1, hitems.1⟩, hc.2, hitems.2⟩

/-! ## Accepted claims as JSON -/

/-- The tests of single claims, those of the timestamps among them. -/
def allTests (F : Integers N) (host : Host) : List (String × (JsValue N → Bool)) :=
  claimTests F ++ [("issuedAt", fun v => (parseTimestamp host v).isOk),
    ("expiresAt", fun v => (parseTimestamp host v).isOk)]

theorem isOk_iff {α : Type} {x : Result α} : x.isOk = true ↔ ∃ a, x = .ok a := by
  cases x with
  | error e => exact ⟨fun h => absurd h (by simp [Except.isOk, Except.toBool]), fun ⟨_, h⟩ => by cases h⟩
  | ok a => exact ⟨fun _ => ⟨a, rfl⟩, fun _ => rfl⟩

theorem passes_allTests {props : List (PropertyKey × Bool × Option (JsValue N))} :
    passes (allTests F host) props = true ↔ passes (claimTests F) props = true ∧
      (∃ time, parseTimestamp host (readProp props (units "issuedAt")) = .ok time) ∧
      ∃ time, parseTimestamp host (readProp props (units "expiresAt")) = .ok time := by
  unfold passes allTests
  rw [List.all_append, Bool.and_eq_true, List.all_cons, List.all_cons, List.all_nil, Bool.and_true,
    Bool.and_eq_true, isOk_iff, isOk_iff]

theorem simple_time : Simple F (fun v => (parseTimestamp host v).isOk) := by
  intro v x h hx
  cases v with
  | string s =>
    cases hx []
    refine ⟨trivial, fun y hy => ?_⟩
    cases y with
    | str s' => cases hy; exact h
    | _ => cases hy
  | _ => cases h

theorem simple_allTests : ∀ test ∈ allTests F host, Simple F test.2 := by
  intro test htest
  rcases List.mem_append.mp htest with htest | htest
  · exact simple_claimTests test htest
  · simp only [List.mem_cons, List.not_mem_nil, or_false] at htest
    rcases htest with rfl | rfl
    · exact simple_time
    · exact simple_time

theorem passes_congr {tests : List (String × (JsValue N → Bool))}
    {props props' : List (PropertyKey × Bool × Option (JsValue N))}
    (h : ∀ test ∈ tests, readProp props (units test.1) = readProp props' (units test.1)) :
    passes tests props = passes tests props' := by
  unfold passes
  rw [Bool.eq_iff_iff, List.all_eq_true, List.all_eq_true]
  exact forall₂_congr fun test htest => by rw [h test htest]

theorem grants_not_tested : ∀ test ∈ allTests F host, units test.1 ≠ units "grants" := by
  have hnames : ∀ name ∈ (allTests F host).map Prod.fst, units name ≠ units "grants" := by
    show ∀ name ∈ ["schemaVersion", "applicationId", "environment", "appId", "generationId",
      "invocationId", "tokenId", "correlationId", "authorizationRevision", "lifecycleRevision",
      "drainLeaseId", "issuedAt", "expiresAt"], _
    decide
  exact fun test htest => hnames _ (List.mem_map_of_mem htest)

variable (F host) in
/-- Each expected key but two is tested. -/
theorem tested_or {key : Str} (h : key ∈ expectedKeys ++ [units "drainLeaseId"]) :
    key = units "actor" ∨ key = units "grants" ∨
      ∃ test ∈ allTests F host, key = units test.1 := by
  have hnames : ∀ key ∈ expectedKeys ++ [units "drainLeaseId"], key = units "actor" ∨
      key = units "grants" ∨ key ∈ ["schemaVersion", "applicationId", "environment", "appId",
        "generationId", "invocationId", "tokenId", "correlationId", "authorizationRevision",
        "lifecycleRevision", "drainLeaseId", "issuedAt", "expiresAt"].map units := by
    decide
  rcases hnames key h with h | h | h
  · exact .inl h
  · exact .inr (.inl h)
  · have hmem : key ∈ (allTests F host).map fun test => units test.1 := h
    obtain ⟨test, htest, rfl⟩ := List.mem_map.mp hmem
    exact .inr (.inr ⟨test, htest, rfl⟩)

/-- Each of these tests but the last asks for the property. -/
theorem tests_undefined : ∀ test ∈ allTests F host, test.1 ≠ "drainLeaseId" →
    test.2 .undefined = false := by
  simp only [allTests, claimTests, List.cons_append, List.nil_append, List.forall_mem_cons]
  exact ⟨fun _ => rfl, fun _ => rfl, fun _ => rfl, fun _ => rfl, fun _ => rfl, fun _ => rfl,
    fun _ => rfl, fun _ => rfl, fun _ => rfl, fun _ => rfl, fun h => absurd rfl h, fun _ => rfl,
    fun _ => rfl, fun _ h => absurd h List.not_mem_nil⟩

theorem actorTests_undefined : ∀ test ∈ actorTests (N := N), test.1 ≠ "delegationId" →
    test.2 .undefined = false := by
  simp only [actorTests, List.forall_mem_cons]
  exact ⟨fun _ => rfl, fun _ => rfl, fun h => absurd rfl h, fun _ h => absurd h List.not_mem_nil⟩

/-- What is asked for is there. -/
theorem mem_of_tested {tests : List (String × (JsValue N → Bool))}
    {props : List (PropertyKey × Bool × Option (JsValue N))} {fields : List (Str × JsonValue N)}
    (hreads : Reads props fields) (h : passes tests props = true)
    {test : String × (JsValue N → Bool)} (htest : test ∈ tests)
    (hundefined : test.2 .undefined = false) : units test.1 ∈ fields.map Prod.fst := by
  by_contra hkey
  have hpassed := List.all_eq_true.mp h test htest
  rw [hreads.absent _ hkey, hundefined] at hpassed
  cases hpassed

/-- The parts of an actor are texts. -/
structure PrintedActor (props : List (PropertyKey × Bool × Option (JsValue N)))
    (fields : List (Str × JsonValue N)) : Prop where
  reads : Reads props fields
  keys : KeysOk [units "effectiveActorId", units "principalId"] (units "delegationId")
    (fields.map Prod.fst)
  tests : passes actorTests props = true

theorem PrintedActor.noStray {props : List (PropertyKey × Bool × Option (JsValue N))}
    {fields : List (Str × JsonValue N)} (F : Integers N) (h : PrintedActor props fields) :
    NoStray (.obj fields) := by
  have hkeys : ∀ key ∈ fields.map Prod.fst,
      key ∈ [units "effectiveActorId", units "principalId"] ++ [units "delegationId"] := by
    refine h.keys.mem (by decide) (by decide) (by simp) fun name hname => ?_
    have hnames : ∀ name ∈ [units "effectiveActorId", units "principalId"],
        ∃ test ∈ ["principalId", "effectiveActorId"], name = units test := by decide
    obtain ⟨test, htest, rfl⟩ := hnames name hname
    simp only [List.mem_cons, List.not_mem_nil, or_false] at htest
    rcases htest with rfl | rfl
    · exact mem_of_tested h.reads h.tests (List.mem_cons_self) rfl
    · exact mem_of_tested h.reads h.tests (List.mem_cons_of_mem _ List.mem_cons_self) rfl
  refine noStrayFields_iff.mpr fun f hf => ?_
  have hkey := hkeys f.1 (List.mem_map_of_mem hf)
  have hmem : f.1 ∈ (actorTests (N := N)).map fun test => units test.1 := by
    have hall : ∀ key ∈ [units "effectiveActorId", units "principalId"] ++ [units "delegationId"],
        key ∈ ["principalId", "effectiveActorId", "delegationId"].map units := by decide
    exact hall f.1 hkey
  obtain ⟨test, htest, heq⟩ := List.mem_map.mp hmem
  have hpassed := List.all_eq_true.mp h.tests test htest
  rw [heq] at hpassed
  exact (simple_actorTests (F := F) test htest _ f.2 hpassed (h.reads.read f.1 f.2 hf)).1

/-- What the claims that were accepted are printed as: fields that have the tested properties, the
grants `gs` that were parsed and the `parts` of the actor. -/
structure Printed (F : Integers N) (host : Host)
    (props : List (PropertyKey × Bool × Option (JsValue N))) (fields : List (Str × JsonValue N))
    (gs : List (JsonValue N)) (parts : List (Str × JsonValue N)) : Prop where
  reads : Reads props fields
  keys : KeysOk expectedKeys (units "drainLeaseId") (fields.map Prod.fst)
  tests : passes (allTests F host) props = true
  grants : (units "grants", .arr gs []) ∈ fields
  parsed : ∃ elements : List (Option (JsValue N)), elements.length ≤ 16 ∧
    List.Forall₂ (fun e g => parseGrant F e = .ok g) elements (gs.map some)
  unique : ∃ texts, (gs.map some).mapM (grantText F) = .ok texts ∧ texts.Nodup
  actor : (units "actor", .obj parts) ∈ fields
  actorOk : ∃ actorProps, PrintedActor actorProps parts

theorem clean_grants {elements : List (Option (JsValue N))} {grants : List (Option (JsonValue N))}
    (h : List.Forall₂ (fun e g => parseGrant F e = .ok g) elements grants) :
    ∀ g ∈ grants, ∀ x ∈ g, Clean x := by
  induction h with
  | nil => exact fun _ h => absurd h List.not_mem_nil
  | cons hhead _ ih =>
    refine List.forall_mem_cons.mpr ⟨fun x hx => ?_, ih⟩
    cases hx
    obtain ⟨v, -, hv⟩ := parseGrant_eq_ok.mp hhead
    exact clean_parse _ proper_grantSchema hv

theorem clean_items {elements : List (Option (JsValue N))} {gs : List (JsonValue N)}
    (h : List.Forall₂ (fun e g => parseGrant F e = .ok g) elements (gs.map some)) :
    ∀ g ∈ gs, Clean g :=
  fun g hg => clean_grants h (some g) (List.mem_map_of_mem hg) g rfl

theorem readProp_claimsOf (data : Data N) (grants : List (Option (JsonValue N))) {key : Str}
    (h : key ≠ units "grants") :
    readProp (dataProps (claimsOf data grants)) key = readProp (dataProps data) key :=
  readProp_withValue_ne h _ data

theorem mem_of_read {props : List (PropertyKey × Bool × Option (JsValue N))}
    {fields : List (Str × JsonValue N)} (hreads : Reads props fields) (key : Str)
    (h : readProp props key ≠ .undefined) : ∃ v, (key, v) ∈ fields ∧ IsJson (readProp props key) v := by
  have hkey : key ∈ fields.map Prod.fst := by
    by_contra hno
    exact h (hreads.absent _ hno)
  obtain ⟨v, hv⟩ := mem_keys_iff.mp hkey
  exact ⟨v, hv, hreads.read key v hv⟩

/-- Accepted claims, where they are JSON. -/
theorem printed_of_accepted {data : Data N} {grants : List (Option (JsonValue N))}
    (h : Accepted F host data grants) {x : JsonValue N} (hdistinct : Distinct x)
    (hx : IsJson (.object .object (dataProps (claimsOf data grants))) x) :
    ∃ fields gs parts, x = .obj fields ∧ grants = gs.map some ∧
      Printed F host (dataProps (claimsOf data grants)) fields gs parts := by
  obtain ⟨fields, rfl, hassert⟩ := isJson_object hx
  have hreads := reads_of_assert hassert hdistinct.1
  have hother : ∀ key, key ≠ units "grants" →
      readProp (dataProps (claimsOf data grants)) key = readProp (dataProps data) key :=
    fun key => readProp_claimsOf data grants
  obtain ⟨elements, extra, hgrants, hlen, hparsed⟩ := h.parsed
  have hself : readProp (dataProps (claimsOf data grants)) (units "grants") =
      .array (grants.map fun grant => grant.map ofParsed) [] :=
    readProp_withValue_self _ (by rw [hgrants]; simp)
  rw [mapM_eq_ok] at hparsed
  obtain ⟨v, hv, hvJson⟩ := mem_of_read hreads (units "grants") (by rw [hself]; simp)
  rw [hself] at hvJson
  have hv' := hvJson []
  rw [assertJsonValue, List.all_nil, if_pos rfl] at hv'
  obtain ⟨gs, hgs, hv'⟩ := bind_eq_ok.mp hv'
  cases hv'
  have hsome := grants_of_elements (fun g hg x hx => (clean_grants hparsed g hg x hx).2) hgs
  obtain ⟨p, actor, hactor, hactorKeys, hactorTests⟩ := h.actor
  have hactor' := (hother _ (by decide : units "actor" ≠ units "grants")).trans hactor
  obtain ⟨w, hw, hwJson⟩ := mem_of_read hreads (units "actor") (by rw [hactor']; simp)
  rw [hactor'] at hwJson
  obtain ⟨parts, rfl, hparts⟩ := isJson_object hwJson
  have hactorReads := reads_of_assert hparts (distinct_of_mem hdistinct.2 hw).1
  have hkeys : ownKeys (dataProps (claimsOf data grants)) = ownKeys (dataProps data) :=
    ownKeys_withValue _ _ _
  refine ⟨fields, gs, parts, rfl, hsome, hreads, ?_, ?_, hv, ⟨elements, hlen, ?_⟩, ?_, hw, actor,
    hactorReads, ?_, hactorTests⟩
  · rw [← hreads.keys, hkeys]
    exact h.keys
  · rw [passes_congr fun test htest => hother _ (grants_not_tested test htest)]
    exact passes_allTests.mpr ⟨h.tests, h.issuedAt, h.expiresAt⟩
  · rw [← hsome]
    exact hparsed
  · rw [← hsome]
    exact h.unique
  · rw [← hactorReads.keys]
    exact hactorKeys

/-- Printed claims have no stray property in an array. -/
theorem Printed.noStray {props : List (PropertyKey × Bool × Option (JsValue N))}
    {fields parts : List (Str × JsonValue N)} {gs : List (JsonValue N)}
    (h : Printed F host props fields gs parts) (hn : (fields.map Prod.fst).Nodup) :
    NoStray (.obj fields) := by
  have hgrants : units "grants" ∈ fields.map Prod.fst := mem_keys_iff.mpr ⟨_, h.grants⟩
  have hactor : units "actor" ∈ fields.map Prod.fst := mem_keys_iff.mpr ⟨_, h.actor⟩
  have hkeys : ∀ key ∈ fields.map Prod.fst, key ∈ expectedKeys ++ [units "drainLeaseId"] := by
    refine h.keys.mem (by decide) (by decide) (by decide) fun name hname => ?_
    have hne : ∀ name ∈ expectedKeys, name ≠ units "drainLeaseId" := by decide
    rcases tested_or F host (List.mem_append_left _ hname) with
      rfl | rfl | ⟨test, htest, rfl⟩
    · exact hactor
    · exact hgrants
    · refine mem_of_tested h.reads h.tests htest (tests_undefined test htest fun heq => ?_)
      rw [heq] at hname
      exact hne _ hname rfl
  have hunique : ∀ {key : Str} {v w : JsonValue N}, (key, v) ∈ fields → (key, w) ∈ fields → v = w :=
    fun hv hw => congrArg Prod.snd (List.inj_on_of_nodup_map hn hv hw rfl)
  refine noStrayFields_iff.mpr fun f hf => ?_
  obtain ⟨key, v⟩ := f
  rcases tested_or F host (hkeys key (List.mem_map_of_mem hf)) with
    rfl | rfl | ⟨test, htest, rfl⟩
  · obtain ⟨actorProps, hactorOk⟩ := h.actorOk
    rw [hunique hf h.actor]
    exact hactorOk.noStray F
  · obtain ⟨elements, -, hparsed⟩ := h.parsed
    rw [hunique hf h.grants]
    exact ⟨rfl, (cleanItems_iff.mpr (clean_items hparsed)).2⟩
  · exact (simple_allTests test htest _ v (List.all_eq_true.mp h.tests test htest)
      (h.reads.read _ v hf)).1

theorem length_sameItems : ∀ {xs ys : List (JsonValue N)}, SameItems F.toNumberFormat xs ys →
    xs.length = ys.length
  | [], [], _ => rfl
  | [], _ :: _, h => by cases h
  | _ :: _, [], h => by cases h
  | _ :: _, _ :: _, h => congrArg (· + 1) (length_sameItems h.2)

/-- The tests do not see the order of keys or a negative zero. -/
theorem Printed.accepted {props : List (PropertyKey × Bool × Option (JsValue N))}
    {fields parts ys : List (Str × JsonValue N)} {gs : List (JsonValue N)}
    (h : Printed F host props fields gs parts) (hdistinct : Distinct (.obj fields))
    (hsame : Same F.toNumberFormat (.obj fields) (.obj ys)) (hys : Clean (.obj ys)) :
    ∃ grants, Accepted F host (parsedData ys) grants := by
  have hreads := reads_ofParsed hys
  have hfields := sameFields_iff.mp hsame.2
  have htests := passes_same simple_allTests h.reads hdistinct.1 hys hsame h.tests
  obtain ⟨w, hw, hgrants⟩ := hfields _ _ h.grants
  obtain ⟨elements, hlen, hparsed⟩ := h.parsed
  obtain ⟨texts, htexts, hunique⟩ := h.unique
  obtain ⟨w', hw', hactor⟩ := hfields _ _ h.actor
  obtain ⟨actorProps, hactorReads, hactorKeys, hactorTests⟩ := h.actorOk
  have hwClean : Clean w := ⟨distinct_of_mem hys.1.2 hw, noStray_of_mem hys.2 hw⟩
  have hwClean' : Clean w' := ⟨distinct_of_mem hys.1.2 hw', noStray_of_mem hys.2 hw'⟩
  cases w with
  | arr ws extra =>
    cases w' with
    | obj parts' =>
      obtain ⟨rfl⟩ := hwClean.2.1
      have hitems : CleanItems ws := ⟨hwClean.1, hwClean.2.2⟩
      obtain ⟨gs', hgs', htexts'⟩ := grants_same hparsed hgrants.1 hitems
      have hpartsDistinct := (distinct_of_mem hdistinct.2 h.actor).1
      rw [passes_allTests] at htests
      refine ⟨gs'.map some, ?_⟩
      constructor
      · rw [← ofParsedFields_eq, ownKeys_ofParsed]
        exact h.keys.perm (same_keys hdistinct.1 hsame)
      · rw [← ofParsedFields_eq]
        exact htests.1
      · refine ⟨ofParsedItems ws, [], ?_, ?_, mapM_eq_ok.mpr hgs'⟩
        · rw [← ofParsedFields_eq, readProp_ofParsed hys.1.1 hw]
          rfl
        · have hlen' := hparsed.length_eq
          have hitemsLen := length_sameItems hgrants.1
          have hws := hgs'.length_eq
          have htextsLen := (mapM_eq_ok.mp (htexts'.trans htexts)).length_eq
          have htextsLen' := (mapM_eq_ok.mp htexts).length_eq
          rw [List.length_map] at hlen' hws htextsLen htextsLen'
          omega
      · exact ⟨texts, htexts'.trans htexts, hunique⟩
      · refine ⟨.object, ofParsedFields parts', ?_, ?_, ?_⟩
        · rw [← ofParsedFields_eq, readProp_ofParsed hys.1.1 hw']
          rfl
        · rw [ownKeys_ofParsed]
          exact hactorKeys.perm (same_keys hpartsDistinct hactor)
        · exact passes_same simple_actorTests hactorReads hpartsDistinct hwClean' hactor hactorTests
      · rw [← ofParsedFields_eq]
        exact htests.2.1
      · rw [← ofParsedFields_eq]
        exact htests.2.2
    | _ => cases hactor
  | _ => cases hgrants

/-! ## Claims that were read -/

theorem exists_grants : ∀ {ws : List (JsonValue N)} {grants : List (Option (JsonValue N))},
    List.Forall₂ (fun e g => parseGrant F e = .ok g) (ofParsedItems ws) grants →
    ∃ gs : List (JsonValue N), grants = gs.map some
  | [], grants, h => by
    cases h
    exact ⟨[], rfl⟩
  | w :: ws, grants, h => by
    cases h with
    | @cons _ grant _ grants hhead htail =>
      obtain ⟨gs, rfl⟩ := exists_grants htail
      cases grant with
      | none =>
        unfold parseGrant at hhead
        dsimp only at hhead
        split at hhead <;> cases hhead
      | some g => exact ⟨g :: gs, rfl⟩

/-- The fields with the grants replaced. -/
def withGrants (ys : List (Str × JsonValue N)) (gs : List (JsonValue N)) : List (Str × JsonValue N) :=
  ys.map fun f => if f.1 = units "grants" then (f.1, .arr gs []) else f

theorem keys_withGrants (ys : List (Str × JsonValue N)) (gs : List (JsonValue N)) :
    (withGrants ys gs).map Prod.fst = ys.map Prod.fst := by
  unfold withGrants
  rw [List.map_map]
  refine List.map_congr_left fun f _ => ?_
  rw [Function.comp_apply]
  split <;> rfl

theorem map_ofParsedItems (gs : List (JsonValue N)) :
    (gs.map some).map (fun grant => grant.map ofParsed) = ofParsedItems gs := by
  induction gs with
  | nil => rfl
  | cons g gs ih =>
    rw [List.map_cons, List.map_cons, ih]
    rfl

theorem claimsOf_parsedData (ys : List (Str × JsonValue N)) (gs : List (JsonValue N)) :
    claimsOf (parsedData ys) (gs.map some) = parsedData (withGrants ys gs) := by
  unfold claimsOf withValue parsedData withGrants
  rw [map_ofParsedItems, List.map_map, List.map_map]
  refine List.map_congr_left fun f _ => ?_
  rw [Function.comp_apply, Function.comp_apply]
  by_cases hkey : f.1 = units "grants"
  · rw [if_pos hkey, if_pos (by rw [hkey])]
    rfl
  · rw [if_neg hkey, if_neg fun heq => hkey (PropertyKey.str.inj heq)]

theorem same_refl {v : JsonValue N} (h : Clean v) : Same F.toNumberFormat v v :=
  same_of_norm v v h.1 h.1 h.2 h.2 rfl

/-- Of JSON, the claims are what was given. -/
theorem claims_ofParsed {ys : List (Str × JsonValue N)} {grants : List (Option (JsonValue N))}
    (h : Accepted F host (parsedData ys) grants) (hys : Clean (.obj ys)) :
    ∃ ys', claimsOf (parsedData ys) grants = parsedData ys' ∧ Clean (.obj ys') ∧
      Same F.toNumberFormat (.obj ys') (.obj ys) := by
  obtain ⟨elements, extra, hread, -, hparsed⟩ := h.parsed
  rw [← ofParsedFields_eq] at hread
  obtain ⟨w, hw, -⟩ := mem_of_read (reads_ofParsed hys) (units "grants") (by rw [hread]; simp)
  rw [readProp_ofParsed hys.1.1 hw] at hread
  cases w with
  | arr ws extra' =>
    cases hread
    have hwClean : Clean (.arr ws extra') :=
      ⟨distinct_of_mem hys.1.2 hw, noStray_of_mem hys.2 hw⟩
    obtain ⟨rfl, hstray⟩ := hwClean.2
    rw [mapM_eq_ok] at hparsed
    obtain ⟨gs, rfl⟩ := exists_grants hparsed
    obtain ⟨hsame, hclean⟩ := grants_ofParsed hparsed ⟨hwClean.1, hstray⟩
    have hfields : ∀ f ∈ withGrants ys gs, Clean f.2 ∧
        ∃ w, (f.1, w) ∈ ys ∧ Same F.toNumberFormat f.2 w := by
      intro f hf
      obtain ⟨f', hf', rfl⟩ := List.mem_map.mp hf
      by_cases hkey : f'.1 = units "grants"
      · rw [if_pos hkey]
        refine ⟨⟨hclean.1, rfl, hclean.2⟩, .arr ws [], ?_, hsame, List.Perm.refl _⟩
        rw [hkey]
        exact hw
      · rw [if_neg hkey]
        have hf'Clean : Clean f'.2 :=
          ⟨distinctFields_iff.mp hys.1.2 f' hf', noStrayFields_iff.mp hys.2 f' hf'⟩
        exact ⟨hf'Clean, f'.2, hf', same_refl hf'Clean⟩
    refine ⟨withGrants ys gs, claimsOf_parsedData ys gs, ⟨⟨?_, ?_⟩, ?_⟩, ?_, ?_⟩
    · rw [keys_withGrants]
      exact hys.1.1
    · exact distinctFields_iff.mpr fun f hf => (hfields f hf).1.1
    · exact noStrayFields_iff.mpr fun f hf => (hfields f hf).1.2
    · exact List.length_map _
    · exact sameFields_iff.mpr fun key v hmem => (hfields (key, v) hmem).2
  | _ => cases hread

end Claims

end KNex.Runtime.CapabilityTokens
