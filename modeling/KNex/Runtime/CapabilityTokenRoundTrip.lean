import KNex.Runtime.CapabilityClaims

/-!
# The round trip of capability tokens

What issuing admits, verifying admits. The converse is not asked for by the code: any text that the
decoder takes for the same bytes verifies, and so does any signed text that is not canonical.
`token_roundTrip_iff` says exactly which tokens are the ones that their claims are encoded as.
-/
namespace KNex.Runtime.CapabilityTokens

open KNex.Core KNex.Core.JsonText KNex.Core.TextCoding KNex.Core.Base64
open KNex.Contracts KNex.Contracts.CanonicalJson

/-- What is documented of the functions outside the source. -/
structure Host.Lawful (host : Host) : Prop where
  hmac_length : ∀ secret payload, (host.hmac secret payload).length = 32
  fromBase64url_base64url : ∀ bytes, host.fromBase64url (base64url bytes) = bytes
  utf8_encode : ∀ s, wellFormed s = true → host.utf8 (encode s) = s
  dateParse_toISOString : ∀ time s, host.toISOString time = some s → host.dateParse s = some time

section Tokens

variable {N : Type} {F : Integers N} {host : Host} {secret : List UInt8}

/-! ## The parts of a token -/

def tokenOf (payload supplied : Str) : Str := units "v1." ++ payload ++ units "." ++ supplied

theorem splitOn_tokenOf {payload supplied : Str} (hp : 46 ∉ payload) (hs : 46 ∉ supplied) :
    (tokenOf payload supplied).splitOn 46 = [units "v1", payload, supplied] := by
  have hsplit : tokenOf payload supplied =
      units "v1" ++ 46 :: (payload ++ 46 :: supplied) := by
    show units "v1." ++ payload ++ units "." ++ supplied = _
    rw [show units "v1." = units "v1" ++ [46] from by decide,
      show units "." = [46] from by decide]
    simp
  rw [hsplit, List.splitOn_append_cons_self, List.splitOn_append_cons_self,
    List.splitOn_eq_singleton hp, List.splitOn_eq_singleton hs,
    List.splitOn_eq_singleton (by decide : (46 : UInt16) ∉ units "v1")]
  rfl

theorem eq_tokenOf {token payload supplied : Str}
    (h : token.splitOn 46 = [units "v1", payload, supplied]) : token = tokenOf payload supplied := by
  have hjoin : [46].intercalate (token.splitOn 46) = token := List.intercalate_splitOn 46
  rw [h] at hjoin
  rw [← hjoin]
  unfold tokenOf
  rw [show units "v1." = units "v1" ++ [46] from by decide,
    show units "." = [46] from by decide]
  simp [List.intercalate]

theorem dotless_base64url (bytes : List UInt8) : (46 : UInt16) ∉ base64url bytes := fun hmem =>
  absurd (isUrlUnit_base64url bytes 46 hmem) (by decide)

/-! ## Issuing -/

/-- The text that claims are printed as. -/
def textOf (F : Integers N) (x : JsonValue N) : Str :=
  stringify F.toNumberFormat 0 (norm F.toNumberFormat x) ++ [10]

def payloadOf (F : Integers N) (x : JsonValue N) : Str := base64url (encode (textOf F x))

theorem payloadOf_ne_nil (x : JsonValue N) : payloadOf F x ≠ [] := by
  refine base64url_ne_nil ?_
  unfold textOf
  rw [encode_append rfl]
  exact List.append_ne_nil_of_right_ne_nil _ (by decide)

theorem encodeClaims_eq {claims : JsValue N} {x : JsonValue N} (hx : IsJson claims x) :
    encodeClaims F host secret claims =
      .ok (tokenOf (payloadOf F x) (base64url (host.hmac secret (payloadOf F x)))) := by
  unfold encodeClaims
  rw [canonicalJson_eq (hx _)]
  rfl

/-! ## Verifying -/

theorem verify_tokenOf {payload supplied : Str} {time : Int} {y : JsonValue N}
    {prototype : Prototype} {props : List (PropertyKey × Bool × Option (JsValue N))}
    {issuedAt expiresAt : Int} (hp : 46 ∉ payload) (hs : 46 ∉ supplied) (hp' : payload ≠ [])
    (hs' : supplied ≠ []) (hsignature : host.fromBase64url supplied = host.hmac secret payload)
    (hparse : parse F.toNumberFormat (host.utf8 (host.fromBase64url payload)) = some y)
    (hclaims : parseClaims F host (ofParsed y) = .ok (.object prototype props))
    (hissued : parseTimestamp host (readProp props (units "issuedAt")) = .ok issuedAt)
    (hexpires : parseTimestamp host (readProp props (units "expiresAt")) = .ok expiresAt) :
    verify F host secret time (tokenOf payload supplied) =
      if time < issuedAt ∨ expiresAt ≤ time then
        .error (.capability .TOKEN_EXPIRED
          (units "Capability token is outside its validity window."))
      else .ok (.object prototype props) := by
  unfold verify
  rw [splitOn_tokenOf hp hs]
  dsimp only
  rw [hsignature, hparse]
  dsimp only
  rw [hclaims]
  simp only [failIf, signature, hp', hs', ne_eq, not_true_eq_false, or_self, if_false]
  have hok : ∀ {α β : Type} (a : α) (f : α → Result β), (Except.ok a >>= f) = f a := fun _ _ => rfl
  rw [hok, hok, hok]
  dsimp only
  rw [hissued, hexpires, hok, hok]
  split <;> rfl

/-- The text of the signature matters by its bytes only. -/
theorem verify_supplied_congr {payload supplied supplied' : Str} (hp : 46 ∉ payload)
    (hs : 46 ∉ supplied) (hs' : 46 ∉ supplied') (hne : supplied ≠ []) (hne' : supplied' ≠ [])
    (h : host.fromBase64url supplied = host.fromBase64url supplied') (time : Int) :
    verify F host secret time (tokenOf payload supplied) =
      verify F host secret time (tokenOf payload supplied') := by
  unfold verify
  rw [splitOn_tokenOf hp hs, splitOn_tokenOf hp hs']
  dsimp only
  rw [h]
  simp only [hne, hne', or_false]

/-- What a token has that verifies. -/
theorem verify_ok {token : Str} {time : Int} {claims : JsValue N}
    (h : verify F host secret time token = .ok claims) :
    ∃ payload supplied y, token.splitOn 46 = [units "v1", payload, supplied] ∧
      host.fromBase64url supplied = host.hmac secret payload ∧
      parse F.toNumberFormat (host.utf8 (host.fromBase64url payload)) = some y ∧
      parseClaims F host (ofParsed y) = .ok claims := by
  unfold verify at h
  split at h
  · rename_i version payload supplied hsplit
    obtain ⟨hform, h⟩ := check_bind_eq_ok.mp h
    obtain ⟨hsignature, h⟩ := check_bind_eq_ok.mp h
    rw [failIf_eq_ok, not_or, not_not] at hform
    rw [failIf_eq_ok, not_not] at hsignature
    split at h
    · cases h
    · rename_i y hy
      obtain ⟨claims', hclaims, h⟩ := bind_eq_ok.mp h
      refine ⟨payload, supplied, y, by rw [hsplit, hform.1], hsignature, hy, ?_⟩
      split at h
      · simp only [bind_eq_ok] at h
        obtain ⟨_, -, _, -, -, -, h⟩ := h
        cases h
        exact hclaims
      · cases h
  · cases h

/-! ## What was read -/

theorem parseTimestamp_string {v : JsValue N} {time : Int} (h : parseTimestamp host v = .ok time) :
    ∃ s, v = .string s := by
  cases v with
  | string s => exact ⟨s, rfl⟩
  | _ => cases h

theorem parseTimestamp_iso (hhost : host.Lawful) {time time' : Int} {s : Str}
    (hiso : host.toISOString time = some s)
    (h : parseTimestamp host (.string s : JsValue N) = .ok time') : time' = time := by
  have hdate := hhost.dateParse_toISOString time s hiso
  unfold parseTimestamp at h
  dsimp only at h
  split at h
  · cases h
  · rename_i time'' hparse
    split at hparse
    · rw [hdate] at hparse
      cases hparse
      exact (Except.ok.inj h).symm
    · cases hparse

/-- The claims of JSON are that JSON. -/
theorem read_claims {y : JsonValue N} {claims : JsValue N} (hy : Clean y)
    (h : parseClaims F host (ofParsed y) = .ok claims) :
    ∃ x', claims = ofParsed x' ∧ Clean x' ∧ Same F.toNumberFormat x' y := by
  cases y with
  | obj ys =>
    rw [ofParsed, ofParsedFields_eq] at h
    obtain ⟨grants, haccepted, rfl⟩ := parseClaims_eq_ok.mp h
    obtain ⟨ys', hclaims, hclean, hsame⟩ := claims_ofParsed haccepted hy
    refine ⟨.obj ys', ?_, hclean, hsame⟩
    rw [hclaims, ofParsed, ofParsedFields_eq]
  | _ => cases h

/-- A text of the claims is a text of what is the same. -/
theorem read_text {props : List (PropertyKey × Bool × Option (JsValue N))}
    {fields ys : List (Str × JsonValue N)} (hreads : Reads props fields) (hys : Clean (.obj ys))
    (hsame : Same F.toNumberFormat (.obj fields) (.obj ys)) {key s : Str}
    (h : readProp props key = .string s) : readProp (ofParsedFields ys) key = .string s := by
  obtain ⟨v, hv, hvJson⟩ := mem_of_read hreads key (by rw [h]; simp)
  rw [h] at hvJson
  cases hvJson []
  obtain ⟨w, hw, hsame'⟩ := sameFields_iff.mp hsame.2 _ _ hv
  cases w with
  | str s' =>
    cases hsame'
    exact readProp_ofParsed hys.1.1 hw
  | _ => cases hsame'

/-- Claims that were accepted are accepted again when they are printed and read, and their texts are
what they were. -/
theorem read_issued {data : Data N} {grants : List (Option (JsonValue N))} {x : JsonValue N}
    (h : Accepted F host data grants)
    (hx : IsJson (.object .object (dataProps (claimsOf data grants))) x) (hdistinct : Distinct x) :
    ∃ ys', parseClaims F host (ofParsed (norm F.toNumberFormat x)) = .ok (ofParsed (.obj ys')) ∧
      Clean (.obj ys') ∧ Same F.toNumberFormat x (.obj ys') ∧
      ∀ key s, key ≠ units "grants" → readProp (dataProps data) key = .string s →
        readProp (ofParsedFields ys') key = .string s := by
  obtain ⟨fields, gs, parts, rfl, rfl, hprinted⟩ := printed_of_accepted h hdistinct hx
  have hstray := hprinted.noStray hdistinct.1
  have hnorm : Clean (norm F.toNumberFormat (.obj fields)) := clean_norm hdistinct
  have hsame := same_norm (F := F.toNumberFormat) (.obj fields) hdistinct hstray
  cases hy : norm F.toNumberFormat (.obj fields) with
  | obj ys =>
    rw [hy] at hnorm hsame
    obtain ⟨grants', haccepted⟩ := hprinted.accepted hdistinct hsame hnorm
    obtain ⟨ys', hclaims, hclean, hsame'⟩ := claims_ofParsed haccepted hnorm
    have hboth : Same F.toNumberFormat (.obj fields) (.obj ys') := by
      refine same_of_norm _ _ hdistinct hclean.1 hstray hclean.2 ?_
      rw [norm_of_same _ _ hdistinct hnorm.1 hsame, norm_of_same _ _ hclean.1 hnorm.1 hsame']
    refine ⟨ys', ?_, hclean, hboth, fun key s hkey hread => ?_⟩
    · rw [ofParsed, ofParsedFields_eq, parseClaims_eq_ok]
      refine ⟨grants', haccepted, ?_⟩
      rw [hclaims, ofParsed, ofParsedFields_eq]
    · refine read_text hprinted.reads hclean hboth ?_
      rw [readProp_claimsOf data _ hkey]
      exact hread
  | _ =>
    rw [hy] at hsame
    cases hsame

/-! ## What is issued -/

theorem propsWellFormed_dataProps : ∀ {data : Data N}, (∀ e ∈ data, WellFormed e.2) →
    PropsWellFormed (dataProps data)
  | [], _ => trivial
  | e :: _, h => ⟨h e List.mem_cons_self,
      propsWellFormed_dataProps fun e' he' => h e' (List.mem_cons_of_mem _ he')⟩

theorem elementsWellFormed_grants : ∀ {grants : List (Option (JsonValue N))},
    (∀ g ∈ grants, ∀ x ∈ g, Clean x) →
    ElementsWellFormed (grants.map fun grant => grant.map ofParsed)
  | [], _ => trivial
  | none :: grants, h => by
    show ElementsWellFormed (grants.map fun grant => grant.map ofParsed)
    exact elementsWellFormed_grants fun g hg => h g (List.mem_cons_of_mem _ hg)
  | some g :: _, h => ⟨wellFormed_ofParsed g (h _ List.mem_cons_self g rfl).1,
      elementsWellFormed_grants fun g hg => h g (List.mem_cons_of_mem _ hg)⟩

theorem wellFormed_claims {data : Data N} {grants : List (Option (JsonValue N))}
    (h : Accepted F host data grants) (hkeys : (data.map Prod.fst).Nodup)
    (hdata : ∀ e ∈ data, WellFormed e.2) :
    WellFormed (.object .object (dataProps (claimsOf data grants))) := by
  obtain ⟨elements, extra, -, -, hparsed⟩ := h.parsed
  rw [mapM_eq_ok] at hparsed
  refine ⟨?_, propsWellFormed_dataProps fun e he => ?_⟩
  · have hmap : (dataProps (claimsOf data grants)).map Prod.fst = data.map Prod.fst := by
      unfold dataProps claimsOf withValue
      rw [List.map_map, List.map_map]
      refine List.map_congr_left fun e _ => ?_
      rw [Function.comp_apply, Function.comp_apply]
      split <;> rfl
    rw [hmap]
    exact hkeys
  · obtain ⟨e', he', rfl⟩ := List.mem_map.mp he
    split
    · exact ⟨List.nodup_nil, fun _ hk => absurd hk List.not_mem_nil,
        elementsWellFormed_grants (clean_grants hparsed)⟩
    · exact hdata e' he'

/-- The own properties of the request with those that issuing adds. -/
def requestData (request : TokenRequest N) (one : N) (issuedAt expiresAt : Str) :
    JsMap PropertyKey (JsValue N) :=
  ((request.identity.set (.str (units "schemaVersion")) (.number (.finite (.finite one)))).set
    (.str (units "issuedAt")) (.string issuedAt)).set (.str (units "expiresAt")) (.string expiresAt)

theorem wellFormed_requestData {request : TokenRequest N}
    (h : ∀ e ∈ request.identity.entries, WellFormed e.2) (one : N) (issuedAt expiresAt : Str) :
    ∀ e ∈ (requestData request one issuedAt expiresAt).entries, WellFormed e.2 := by
  intro e he
  rw [show e = (e.1, e.2) from rfl, ← JsMap.get?_eq_some] at he
  unfold requestData at he
  rw [JsMap.get?_set, JsMap.get?_set, JsMap.get?_set] at he
  split at he
  · rw [← Option.some.inj he]
    trivial
  split at he
  · rw [← Option.some.inj he]
    trivial
  split at he
  · rw [← Option.some.inj he]
    trivial
  · exact h _ (JsMap.get?_eq_some.mp he)

theorem readProp_entries {m : JsMap PropertyKey (JsValue N)} {key : Str} {v : JsValue N}
    (h : m.get? (.str key) = some v) : readProp (dataProps m.entries) key = v := by
  unfold readProp dataProps
  unfold JsMap.get? at h
  obtain ⟨e, he, rfl⟩ := Option.map_eq_some_iff.mp h
  rw [List.find?_map, Function.comp_def, he]
  rfl

theorem issuedClaims_eq_ok {now : Option Int} {request : TokenRequest N} {claims : JsValue N}
    (h : issuedClaims F host now request = .ok claims) :
    ∃ issuedAt ttlMs issuedText expiresText, now = some issuedAt ∧ request.ttlMs = some ttlMs ∧
      0 < ttlMs ∧ host.toISOString issuedAt = some issuedText ∧
      host.toISOString (issuedAt + ttlMs) = some expiresText ∧
      parseClaims F host (.object .object
        (dataProps (requestData request F.one issuedText expiresText).entries)) = .ok claims := by
  unfold issuedClaims at h
  split at h
  · rename_i issuedAt ttlMs httl
    split at h
    · cases h
    · rename_i hbounds
      split at h
      · rename_i issuedText expiresText hissued hexpires
        exact ⟨issuedAt, ttlMs, issuedText, expiresText, rfl, httl, by omega, hissued, hexpires, h⟩
      · cases h
  · cases h

/-! ## The round trip -/

/-- The token verifies as the claims while they are valid, and is refused as expired afterwards. -/
structure Verifies (F : Integers N) (host : Host) (secret : List UInt8) (token : Str)
    (claims : JsonValue N) (issuedAt expiresAt : Int) : Prop where
  valid : ∀ time, issuedAt ≤ time → time < expiresAt → ∃ claims' x',
    verify F host secret time token = .ok claims' ∧ IsJson claims' x' ∧
      Same F.toNumberFormat claims x'
  expired : ∀ time, expiresAt ≤ time → verify F host secret time token =
    .error (.capability .TOKEN_EXPIRED (units "Capability token is outside its validity window."))

/-- The token of a canonical text, written as issuing writes it. -/
def Canonical (F : Integers N) (host : Host) (token : Str) : Prop :=
  ∃ payload supplied text, ∃ value : JsValue N, token = tokenOf payload supplied ∧
    base64url (host.fromBase64url payload) = payload ∧
    base64url (host.fromBase64url supplied) = supplied ∧
    WellFormed value ∧ canonicalJson F.toNumberFormat value = .ok text ∧
    host.fromBase64url payload = encode text

theorem issue_parts {now : Option Int} {request : TokenRequest N} {token : Str}
    (h : issue F host secret now request = .ok token) :
    ∃ bytes, token = tokenOf (base64url bytes) (base64url (host.hmac secret (base64url bytes))) := by
  unfold issue at h
  obtain ⟨claims, -, h⟩ := bind_eq_ok.mp h
  unfold encodeClaims at h
  split at h
  · cases h
  · rename_i text _
    exact ⟨encode text, (Except.ok.inj h).symm⟩

theorem issue_verifies (hhost : host.Lawful) {now : Option Int} {request : TokenRequest N}
    {token : Str} (hrequest : ∀ e ∈ request.identity.entries, WellFormed e.2)
    (h : issue F host secret now request = .ok token) :
    ∃ claims x issuedAt ttlMs, issuedClaims F host now request = .ok claims ∧ IsJson claims x ∧
      now = some issuedAt ∧ request.ttlMs = some ttlMs ∧
      Verifies F host secret token x issuedAt (issuedAt + ttlMs) := by
  unfold issue at h
  obtain ⟨claims, hclaims, htoken⟩ := bind_eq_ok.mp h
  obtain ⟨issuedAt, ttlMs, issuedText, expiresText, rfl, httl, hpositive, hissued, hexpires, hparse⟩ :=
    issuedClaims_eq_ok hclaims
  obtain ⟨grants, haccepted, rfl⟩ := parseClaims_eq_ok.mp hparse
  have hwell := wellFormed_claims haccepted (JsMap.nodup _) (wellFormed_requestData hrequest _ _ _)
  -- what is printed is JSON
  have hjson : ∃ x, assertJsonValue (units "$") (.object .object (dataProps (claimsOf
      (requestData request F.one issuedText expiresText).entries grants))) = .ok x := by
    have htoken' := htoken
    unfold encodeClaims at htoken'
    split at htoken'
    · cases htoken'
    · rename_i text htext
      obtain ⟨x, hx, -⟩ := canonicalJson_text hwell htext
      exact ⟨x, hx⟩
  obtain ⟨x, hassert⟩ := hjson
  have hx := isJson_of_assert _ hassert
  have hdistinct := assert_distinct _ _ _ hwell hassert
  obtain ⟨ys, hread, hclean, hsame, htexts⟩ := read_issued haccepted hx hdistinct
  rw [encodeClaims_eq hx] at htoken
  obtain rfl := Except.ok.inj htoken
  obtain ⟨x', hx', -, -, hwhole, htext⟩ :=
    canonicalJson_text hwell (canonicalJson_eq (F := F.toNumberFormat) hassert)
  cases hx'.symm.trans hassert
  -- what verifying reads of the two times is what was written
  have htime : ∀ {key : Str} {s : Str} {time : Int}, key ≠ units "grants" →
      host.toISOString time = some s →
      (requestData request F.one issuedText expiresText).get? (.str key) = some (.string s) →
      (∃ t, parseTimestamp host
        (readProp (dataProps (requestData request F.one issuedText expiresText).entries) key) = .ok t) →
      parseTimestamp host (readProp (ofParsedFields ys) key) = .ok time := by
    intro key s time hkey hiso hget ⟨t, ht⟩
    have hdata := readProp_entries hget
    rw [htexts key s hkey hdata]
    rw [hdata] at ht
    rw [ht, parseTimestamp_iso hhost hiso ht]
  have hissuedAt := htime (by decide) hissued (by
    unfold requestData
    rw [JsMap.get?_set_ne _ _ (by decide), JsMap.get?_set_self]) haccepted.issuedAt
  have hexpiresAt := htime (by decide) hexpires (by
    unfold requestData
    rw [JsMap.get?_set_self]) haccepted.expiresAt
  have hsigned : base64url (host.hmac secret (payloadOf F x)) ≠ [] := by
    refine base64url_ne_nil fun hnil => ?_
    have hlength := hhost.hmac_length secret (payloadOf F x)
    rw [hnil] at hlength
    cases hlength
  have hparsed : parse F.toNumberFormat (host.utf8 (host.fromBase64url (payloadOf F x))) =
      some (norm F.toNumberFormat x) := by
    unfold payloadOf
    rw [hhost.fromBase64url_base64url, textOf, hhost.utf8_encode _ hwhole]
    exact htext
  have hverify : ∀ time, verify F host secret time
      (tokenOf (payloadOf F x) (base64url (host.hmac secret (payloadOf F x)))) =
      if time < issuedAt ∨ issuedAt + ttlMs ≤ time then
        .error (.capability .TOKEN_EXPIRED
          (units "Capability token is outside its validity window."))
      else .ok (ofParsed (.obj ys)) := fun _ =>
    verify_tokenOf (dotless_base64url _) (dotless_base64url _) (payloadOf_ne_nil x) hsigned
      (hhost.fromBase64url_base64url _) hparsed hread hissuedAt hexpiresAt
  refine ⟨_, x, issuedAt, ttlMs, hclaims, hx, rfl, httl, fun time hfrom hto => ?_, fun time hafter => ?_⟩
  · refine ⟨ofParsed (.obj ys), .obj ys, ?_, fun path => assertJsonValue_ofParsed _ path hclean.2, hsame⟩
    rw [hverify, if_neg (by omega)]
  · rw [hverify, if_pos (.inr hafter)]

theorem reencode_iff (hhost : host.Lawful) {token : Str} {time : Int} {claims : JsValue N}
    (h : verify F host secret time token = .ok claims) :
    encodeClaims F host secret claims = .ok token ↔ Canonical F host token := by
  obtain ⟨payload, supplied, y, hsplit, hsignature, hparse, hclaims⟩ := verify_ok h
  have hy : Clean y := parse_clean hparse
  obtain ⟨x, rfl, hx, hsame⟩ := read_claims hy hclaims
  have hjson : IsJson (ofParsed x) x := fun path => assertJsonValue_ofParsed x path hx.2
  have hnorm : norm F.toNumberFormat x = norm F.toNumberFormat y := norm_of_same x y hx.1 hy.1 hsame
  have htoken := eq_tokenOf hsplit
  rw [encodeClaims_eq hjson]
  constructor
  · intro heq
    have hparts := splitOn_tokenOf (dotless_base64url (encode (textOf F x)))
      (dotless_base64url (host.hmac secret (payloadOf F x)))
    rw [show tokenOf (base64url (encode (textOf F x))) _ = token from Except.ok.inj heq, hsplit] at hparts
    simp only [List.cons.injEq, and_true, true_and] at hparts
    obtain ⟨hpayload, hsupplied⟩ := hparts
    refine ⟨payload, supplied, textOf F x, ofParsed x, htoken, ?_, ?_, wellFormed_ofParsed x hx.1,
      canonicalJson_eq (hjson _), ?_⟩
    · rw [hpayload, hhost.fromBase64url_base64url]
    · rw [hsupplied, hhost.fromBase64url_base64url]
    · rw [hpayload, hhost.fromBase64url_base64url]
  · rintro ⟨payload', supplied', text, value, htoken', hpayload, hsupplied, hvalue, htext, hbytes⟩
    have hparts := splitOn_tokenOf (hpayload ▸ dotless_base64url (host.fromBase64url payload'))
      (hsupplied ▸ dotless_base64url (host.fromBase64url supplied'))
    rw [← htoken', hsplit] at hparts
    simp only [List.cons.injEq, and_true, true_and] at hparts
    obtain ⟨rfl, rfl⟩ := hparts
    obtain ⟨z, hz, hdistinct, rfl, hwhole, hread⟩ := canonicalJson_text hvalue htext
    -- the payload is the canonical text of what was read from it
    rw [hbytes, hhost.utf8_encode _ hwhole, hread] at hparse
    obtain rfl := Option.some.inj hparse
    have hpayload' : payload = payloadOf F x := by
      rw [← hpayload, hbytes, payloadOf, textOf, hnorm, norm_norm z hdistinct]
    rw [← hpayload', ← hsignature, hsupplied, htoken]

/-- **Capability tokens.** Every issued token verifies as its claims, exactly while they are valid.
A token that verifies is the one that its claims are encoded as if and only if it is the canonical
text of canonical JSON. -/
theorem token_roundTrip_iff (hhost : host.Lawful) :
    (∀ (now : Option Int) (request : TokenRequest N) (token : Str),
      (∀ e ∈ request.identity.entries, WellFormed e.2) →
      issue F host secret now request = .ok token →
      ∃ claims x issuedAt ttlMs, issuedClaims F host now request = .ok claims ∧ IsJson claims x ∧
        now = some issuedAt ∧ request.ttlMs = some ttlMs ∧
        Verifies F host secret token x issuedAt (issuedAt + ttlMs)) ∧
    ∀ (time : Int) (token : Str) (claims : JsValue N),
      verify F host secret time token = .ok claims →
      (encodeClaims F host secret claims = .ok token ↔ Canonical F host token) :=
  ⟨fun _ _ _ hrequest h => issue_verifies hhost hrequest h, fun _ _ _ h => reencode_iff hhost h⟩

end Tokens

/-! ## A token -/

def signingKey : List UInt8 := (List.range 32).map UInt8.ofNat

/-- The first of January 2026. -/
def newYear : Int := 1767225600000

def newYearText : Str := units "2026-01-01T00:00:00.000Z"

def fiveMinutesLaterText : Str := units "2026-01-01T00:05:00.000Z"

/-- The digest of the payload below under the key. -/
def payloadDigest : List UInt8 :=
  [240, 44, 193, 170, 193, 133, 206, 9, 249, 138, 90, 0, 131, 27, 249, 159, 3, 38, 61, 98, 141, 26,
    51, 237, 239, 93, 121, 4, 208, 35, 131, 100]

/-- Decodes either alphabet and skips every other character. -/
def fromBase64url (text : Str) : List UInt8 :=
  octets ((toStandard text).filterMap value)

/-- The digest and the dates are those of the payload and the times below. -/
def exampleHost : Host where
  hmac _ _ := payloadDigest
  fromBase64url := fromBase64url
  utf8 bytes := (decode bytes).getD [0xFFFD]
  toISOString time :=
    if time = newYear then some newYearText
    else if time = newYear + 300000 then some fiveMinutesLaterText
    else none
  dateParse text :=
    if text = newYearText then some newYear
    else if text = fiveMinutesLaterText then some (newYear + 300000)
    else none

theorem exampleHost_lawful : exampleHost.Lawful where
  hmac_length _ _ := rfl
  fromBase64url_base64url bytes := by
    show octets ((toStandard (base64url bytes)).filterMap value) = bytes
    have hvalues : (toStandard (base64url bytes)).filterMap value = sextets bytes := by
      unfold toStandard base64url
      rw [List.map_map, List.filterMap_map]
      refine (List.filterMap_congr fun n hn => ?_).trans List.filterMap_some
      obtain ⟨hvalue, -, hstandard, -, -⟩ := symbol_facts (sextets_lt hn)
      show value (if urlSymbol n = 45 then 43 else if urlSymbol n = 95 then 47 else urlSymbol n) = _
      rw [hstandard, hvalue]
    rw [hvalues, octets_sextets]
  utf8_encode s h := by
    show (decode (encode s)).getD _ = s
    rw [decode_encode h]
    rfl
  dateParse_toISOString time s h := by
    have hother : fiveMinutesLaterText ≠ newYearText := by decide
    simp only [exampleHost] at h ⊢
    split at h
    · rename_i htime
      cases h
      rw [if_pos rfl, htime]
    · split at h
      · rename_i htime
        cases h
        rw [if_neg hother, if_pos rfl, htime]
      · cases h

/-- The natural numbers, of which those that are safe are integers. -/
def safeNaturals : Integers Nat where
  toNumberFormat := naturals
  one := 1
  integer n := if n ≤ 9007199254740991 then some n else none
  integer_zero := rfl
  integer_one := rfl

def property (key : String) (value : JsValue Nat) : PropertyKey × Bool × Option (JsValue Nat) :=
  (.str (units key), true, some value)

def exampleIdentity : List (String × JsValue Nat) :=
  [("applicationId", .string (units "notes-app")), ("environment", .string (units "production")),
    ("appId", .string (units "app.notes")), ("generationId", .string (units "gen-1")),
    ("invocationId", .string (units "inv-1")), ("tokenId", .string (units "tok-1")),
    ("correlationId", .string (units "corr-1")),
    ("authorizationRevision", .number (.finite (.finite 3))),
    ("lifecycleRevision", .number (.finite (.finite 5))),
    ("actor", .object .object [property "principalId" (.string (units "user:1")),
      property "effectiveActorId" (.string (units "user:1"))]),
    ("grants", .array [some (.object .object [property "kind" (.string (units "audit")),
      property "operations" (.array [some (.string (units "emit"))] []),
      property "required" (.boolean true), property "reason" (.string (units "Log"))])] [])]

def exampleRequest : TokenRequest Nat where
  ttlMs := some 300000
  identity := ⟨exampleIdentity.map fun e => (.str (units e.1), e.2), by decide⟩

/-- What is issued for the request. -/
def exampleToken : Str :=
  (issue safeNaturals exampleHost signingKey (some newYear) exampleRequest).toOption.getD []

theorem issue_example :
    issue safeNaturals exampleHost signingKey (some newYear) exampleRequest = .ok exampleToken := by
  decide +kernel

theorem wellFormed_example : ∀ e ∈ exampleRequest.identity.entries, WellFormed e.2 := by
  have hidentity : ∀ e ∈ exampleIdentity, WellFormed e.2 := by
    simp only [exampleIdentity, property, List.forall_mem_cons, WellFormed, ElementsWellFormed,
      PropsWellFormed, List.map_nil, List.map_cons, List.nodup_nil, and_true, true_and]
    refine ⟨by decide, ⟨?_, by decide, ?_⟩, fun _ h => absurd h List.not_mem_nil⟩
    · exact fun _ hk => absurd hk List.not_mem_nil
    · exact fun _ hk => absurd hk List.not_mem_nil
  intro e he
  obtain ⟨e', he', rfl⟩ := List.mem_map.mp he
  exact hidentity e' he'

theorem token_roundTrip_iff_example :
    exampleHost.Lawful ∧
    (∃ claims x issuedAt ttlMs,
      issuedClaims safeNaturals exampleHost (some newYear) exampleRequest = .ok claims ∧
        IsJson claims x ∧ some newYear = some issuedAt ∧ exampleRequest.ttlMs = some ttlMs ∧
        Verifies safeNaturals exampleHost signingKey exampleToken x issuedAt (issuedAt + ttlMs)) ∧
    ∃ claims, verify safeNaturals exampleHost signingKey newYear exampleToken = .ok claims ∧
      (encodeClaims safeNaturals exampleHost signingKey claims = .ok exampleToken ↔
        Canonical safeNaturals exampleHost exampleToken) := by
  have htheorem := @token_roundTrip_iff _ safeNaturals exampleHost signingKey exampleHost_lawful
  have hissued := htheorem.1 (some newYear) exampleRequest exampleToken wellFormed_example issue_example
  refine ⟨exampleHost_lawful, hissued, ?_⟩
  obtain ⟨claims, x, issuedAt, ttlMs, -, -, hnow, httl, hverifies⟩ := hissued
  cases hnow
  cases httl
  obtain ⟨claims', -, hverify, -⟩ := hverifies.valid newYear (le_refl _) (by decide)
  exact ⟨claims', hverify, htheorem.2 newYear exampleToken claims' hverify⟩

/-- The token with the padding that its encoding leaves out. -/
def paddedToken : Str := exampleToken ++ units "="

theorem fromBase64url_padded (text : Str) : fromBase64url (text ++ [61]) = fromBase64url text := by
  unfold fromBase64url toStandard
  rw [List.map_append, List.filterMap_append]
  exact congrArg octets (List.append_nil _)

/-- The padded token verifies, and its claims are encoded without the padding. -/
theorem padded_verifies : exampleHost.Lawful ∧
    ∃ claims, verify safeNaturals exampleHost signingKey newYear paddedToken = .ok claims ∧
      encodeClaims safeNaturals exampleHost signingKey claims ≠ .ok paddedToken := by
  obtain ⟨claims, x, issuedAt, ttlMs, -, -, hnow, httl, hverifies⟩ :=
    issue_verifies exampleHost_lawful wellFormed_example issue_example
  cases hnow
  cases httl
  obtain ⟨claims', -, hverify, -⟩ := hverifies.valid newYear (le_refl _) (by decide)
  obtain ⟨bytes, htoken⟩ := issue_parts issue_example
  have hdotless := dotless_base64url (exampleHost.hmac signingKey (base64url bytes))
  have hpadded : paddedToken = tokenOf (base64url bytes)
      (base64url (exampleHost.hmac signingKey (base64url bytes)) ++ [61]) := by
    unfold paddedToken
    rw [htoken, show units "=" = [61] from by decide]
    unfold tokenOf
    rw [List.append_assoc _ _ [61]]
  have hdotless' : 46 ∉ base64url (exampleHost.hmac signingKey (base64url bytes)) ++ [61] := by
    rw [List.mem_append, not_or]
    exact ⟨hdotless, by decide⟩
  have hsigned : base64url (exampleHost.hmac signingKey (base64url bytes)) ≠ [] := by
    show base64url payloadDigest ≠ []
    decide
  have hverify' : verify safeNaturals exampleHost signingKey newYear paddedToken = .ok claims' := by
    rw [hpadded, ← verify_supplied_congr (dotless_base64url bytes) hdotless hdotless' hsigned
      (List.append_ne_nil_of_left_ne_nil hsigned _) (fromBase64url_padded _).symm, ← htoken]
    exact hverify
  refine ⟨exampleHost_lawful, claims', hverify', fun heq => ?_⟩
  obtain ⟨payload, supplied, -, -, htoken', hpayload, hsupplied, -⟩ :=
    (reencode_iff exampleHost_lawful hverify').mp heq
  have hparts := splitOn_tokenOf (hpayload ▸ dotless_base64url (exampleHost.fromBase64url payload))
    (hsupplied ▸ dotless_base64url (exampleHost.fromBase64url supplied))
  rw [← htoken', hpadded, splitOn_tokenOf (dotless_base64url bytes) hdotless'] at hparts
  simp only [List.cons.injEq, and_true, true_and] at hparts
  have hmem : 61 ∈ supplied := by
    rw [← hparts.2]
    exact List.mem_append_right _ (List.mem_singleton_self _)
  rw [← hsupplied] at hmem
  exact absurd (isUrlUnit_base64url _ 61 hmem) (by decide)

end KNex.Runtime.CapabilityTokens
