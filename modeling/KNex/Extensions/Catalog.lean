import KNex.Contracts.Semver

/-!
# Signed catalogs and their checkpoints

`CatalogClient` of `packages/extension-bundler/src/catalog.ts` accepts an official catalog only if
it does not take back what an accepted one said before. What was said is the checkpoint of the
signer: the sequence number, the digest of the payload and, for each extension, the highest
version. This module has the data, the check of one catalog (`verifiedSnapshot`) and what an
accepted catalog and its checkpoint owe to the previous checkpoint (`Advances`,
`verifiedSnapshot_advances`). The store and the concurrent reads are in `AntiRollback`.

The schema library, the signature check, the digest of the canonical JSON of a payload, the date
parser and `localeCompare` are parameters (`Host`).
-/
namespace KNex.Extensions.Catalog

open KNex.Core KNex.Core.HighWater KNex.Contracts

/-! ## Catalogs -/

structure Publisher where
  identity : String
  publicKey : String
  deriving DecidableEq

structure Source where
  repository : String
  commit : String
  assetUrl : String
  deriving DecidableEq

inductive Delivery where
  | hotApplication | themeSkin
  deriving DecidableEq, Repr

def Delivery.text : Delivery → String
  | .hotApplication => "hot-application"
  | .themeSkin => "theme-skin"

def Delivery.idOk : Delivery → String → Bool
  | .hotApplication => hotApplicationIdOk
  | .themeSkin => themeSkinIdOk

inductive Support where
  | supported | deprecated | unsupported
  deriving DecidableEq, Repr

inductive Review where
  | approved | pending | rejected
  deriving DecidableEq, Repr

inductive Security where
  | clear | advisory | compromised
  deriving DecidableEq, Repr

/-- mirrors packages/extension-bundler/src/catalog.ts:17-21 -/
structure CatalogEntry where
  deliveryClass : Delivery
  id : String
  version : String
  runtimeAbi : String
  publisher : Publisher
  source : Source
  artifactDigest : String
  manifestDigest : String
  sbomDigest : String
  provenanceDigest : String
  support : Support
  review : Review
  security : Security
  revoked : Bool
  id_ok : deliveryClass.idOk id = true
  version_ok : ExactSemver version
  runtimeAbi_ok : ExactSemver runtimeAbi

/-- `${entry.deliveryClass}:${entry.id}`. -/
def CatalogEntry.key (entry : CatalogEntry) : String :=
  entry.deliveryClass.text ++ ":" ++ entry.id

def maxSafeInteger : Nat := 9007199254740991

/-- mirrors packages/extension-bundler/src/catalog.ts:22 -/
structure CatalogPayload where
  sequence : Nat
  expiresAt : String
  entries : List CatalogEntry
  sequence_ok : 1 ≤ sequence ∧ sequence ≤ maxSafeInteger
  entries_ok : 1 ≤ entries.length ∧ entries.length ≤ 512
  releases_nodup : (entries.map fun e => e.key ++ ":" ++ e.version).Nodup

/-- mirrors packages/extension-bundler/src/catalog.ts:23 -/
structure SignedCatalog where
  signer : Publisher
  payload : CatalogPayload
  signature : String

/-- mirrors packages/extension-bundler/src/catalog.ts:61-66 -/
structure CatalogCheckpoint where
  signerIdentity : String
  sequence : Nat
  payloadDigest : String
  highestVersions : JsMap String String

/-- mirrors packages/extension-bundler/src/catalog.ts:68-72 -/
structure VerifiedCatalogSnapshot where
  catalog : SignedCatalog
  entries : List CatalogEntry
  checkpoint : CatalogCheckpoint

/-- What the client calls: `createPublicKey` returns, `verify` on the canonical JSON of the
payload, its SHA-256 digest, `Date.parse` (`none` where it is not finite) and
`left.localeCompare(right) <= 0`. -/
structure Host where
  publicKeyOk : String → Bool
  verify : String → CatalogPayload → String → Bool
  payloadDigest : CatalogPayload → String
  parseDate : String → Option Int
  localeLe : String → String → Bool

/-- What `SignedCatalogSchema.safeParse` makes of the argument: a catalog, or the message of the
first issue. -/
abbrev Input := Except String SignedCatalog

/-! ## Reading one catalog -/

/-- mirrors packages/extension-bundler/src/catalog.ts:103-108 -/
def parseCatalog (input : Input) : Except String SignedCatalog :=
  match input with
  | .error message => .error ("Invalid official catalog: " ++ message)
  | .ok catalog =>
    if catalog.payload.entries.all fun e =>
        startsWith (e.source.repository ++ "/releases/download/") e.source.assetUrl then .ok catalog
    else .error "Invalid official catalog: asset repository differs from source repository."

/-- mirrors packages/extension-bundler/src/catalog.ts:196-205 -/
def signedCatalog (host : Host) (trustedSigners : JsMap String String) (input : Input) :
    Except String SignedCatalog := do
  let catalog ← parseCatalog input
  let trustedKey := (trustedSigners.get? catalog.signer.identity).getD ""
  if trustedKey = "" ∨ trustedKey ≠ catalog.signer.publicKey then
    throw "Catalog signer is not trusted."
  else if ¬ host.publicKeyOk catalog.signer.publicKey then throw "Catalog signer key is invalid."
  else if ¬ catalog.payload.entries.all fun e => host.publicKeyOk e.publisher.publicKey then
    throw "Catalog extension publisher key is invalid."
  else if ¬ host.verify catalog.signer.publicKey catalog.payload catalog.signature then
    throw "Official catalog signature is invalid."
  else pure catalog

/-- The highest version of each extension of the catalog, the first of equal ones.
mirrors packages/extension-bundler/src/catalog.ts:175-180 -/
def incomingHighest (entries : List CatalogEntry) : Except String (JsMap String String) :=
  (entries.map fun e => (e.key, e.version)).foldlM (raise compareExactSemverPrecedence) JsMap.empty

/-- mirrors packages/extension-bundler/src/catalog.ts:184 -/
def assertNoDowngrade (highestVersions : JsMap String String) (key incoming : String) :
    Except String Unit :=
  match highestVersions.get? key with
  | none => pure ()
  | some highest =>
    if highest = "" then pure ()
    else do
      if (← compareExactSemverPrecedence incoming highest) = .lt then
        throw "Official catalog attempts an unauthorized downgrade."
      else pure ()

/-- One round of the loop over the incoming versions.
mirrors packages/extension-bundler/src/catalog.ts:182-186 -/
def advance (highestVersions : JsMap String String) (e : String × String) :
    Except String (JsMap String String) := do
  assertNoDowngrade highestVersions e.1 e.2
  raise compareExactSemverPrecedence highestVersions e

/-- mirrors packages/extension-bundler/src/catalog.ts:172-174 -/
def assertNotStale (catalog : SignedCatalog) (payloadDigest : String) :
    Option CatalogCheckpoint → Except String Unit
  | none => pure ()
  | some previous =>
    if previous.signerIdentity ≠ catalog.signer.identity then
      throw "Official catalog checkpoint signer differs from the signed snapshot."
    else if catalog.payload.sequence < previous.sequence ∨
        catalog.payload.sequence = previous.sequence ∧ payloadDigest ≠ previous.payloadDigest then
      throw "Official catalog checkpoint is stale or replayed."
    else pure ()

/-- `!Number.isFinite(expiry) || expiry <= now()`. -/
def expired (host : Host) (expiresAt : String) (now : Int) : Bool :=
  match host.parseDate expiresAt with
  | none => true
  | some expiry => expiry ≤ now

def highestOf (checkpoint : Option CatalogCheckpoint) : JsMap String String :=
  (checkpoint.map (·.highestVersions)).getD JsMap.empty

/-- mirrors packages/extension-bundler/src/catalog.ts:164-190 -/
def verifiedSnapshot (host : Host) (now : Int) (catalog : SignedCatalog)
    (previous : Option CatalogCheckpoint) : Except String VerifiedCatalogSnapshot := do
  if expired host catalog.payload.expiresAt now then throw "Official catalog is expired."
  else
    assertNotStale catalog (host.payloadDigest catalog.payload) previous
    let incoming ← incomingHighest catalog.payload.entries
    let highestVersions ← incoming.entries.foldlM advance (highestOf previous)
    pure
      { catalog
        entries := catalog.payload.entries
        checkpoint :=
          { signerIdentity := catalog.signer.identity
            sequence := catalog.payload.sequence
            payloadDigest := host.payloadDigest catalog.payload
            highestVersions } }

/-! ## What an accepted catalog owes to the previous checkpoint -/

/-- `low` is at or below `high` in semver precedence. -/
abbrev VersionLe (low high : String) : Prop := AtMost compareExactSemverPrecedence low high

/-- The catalog lists this version of the extension. -/
def SignedCatalog.Lists (catalog : SignedCatalog) (deliveryClass : Delivery) (id version : String) :
    Prop :=
  ∃ e ∈ catalog.payload.entries, e.deliveryClass = deliveryClass ∧ e.id = id ∧ e.version = version

/-- The key of an extension tells its class and its identifier. -/
theorem key_injective {a b : CatalogEntry} (h : a.key = b.key) :
    a.deliveryClass = b.deliveryClass ∧ a.id = b.id := by
  unfold CatalogEntry.key at h
  rw [← String.toList_inj] at h
  simp only [String.toList_append] at h
  have hcolon : ∀ d : Delivery, ':' ∉ d.text.toList := by
    intro d
    cases d <;> decide
  have htext : ∀ d d' : Delivery, d.text.toList = d'.text.toList → d = d' := by
    intro d d'
    cases d <;> cases d' <;> decide
  rw [List.append_assoc, List.append_assoc] at h
  obtain ⟨hclass, hid⟩ := append_sep_cancel (hcolon _) (hcolon _) h
  exact ⟨htext _ _ hclass, String.toList_inj.mp hid⟩

/-- The checkpoint of an accepted catalog, against the one it was checked with: the sequence does
not go back, an equal sequence has an equal digest, no highest version goes down, and for each
extension of the catalog some listed version is at or above the previous highest, which the new
one bounds all listed versions by. -/
structure Advances (host : Host) (previous : Option CatalogCheckpoint) (catalog : SignedCatalog)
    (next : CatalogCheckpoint) : Prop where
  signer : next.signerIdentity = catalog.signer.identity
  sequence : next.sequence = catalog.payload.sequence
  digest : next.payloadDigest = host.payloadDigest catalog.payload
  notStale : ∀ p, previous = some p → p.sequence ≤ next.sequence ∧
    (p.sequence = next.sequence → p.payloadDigest = next.payloadDigest)
  valid : Valid ExactSemver next.highestVersions
  kept : ∀ k v, (highestOf previous).get? k = some v →
    ∃ w, next.highestVersions.get? k = some w ∧ VersionLe v w
  bounded : ∀ e ∈ catalog.payload.entries,
    ∃ w, next.highestVersions.get? e.key = some w ∧ VersionLe e.version w
  listed : ∀ e ∈ catalog.payload.entries, ∃ v, catalog.Lists e.deliveryClass e.id v ∧
    ∀ h, (highestOf previous).get? e.key = some h → VersionLe h v

theorem incomingHighest_raised {entries : List CatalogEntry} {incoming : JsMap String String}
    (h : incomingHighest entries = .ok incoming) :
    Raised compareExactSemverPrecedence JsMap.empty (entries.map fun e => (e.key, e.version))
      incoming := by
  refine foldlM_raised precedence_orders (fun marks e after hv he hr =>
    raise_ok precedence_orders hv he hr) valid_empty ?_ h
  intro e he
  obtain ⟨entry, -, rfl⟩ := List.mem_map.mp he
  exact entry.version_ok

/-- An incoming version that passes is at or above the highest one so far. -/
theorem assertNoDowngrade_ok {marks : JsMap String String} {key incoming : String}
    (hv : Valid ExactSemver marks) (hi : ExactSemver incoming)
    (h : assertNoDowngrade marks key incoming = .ok ()) :
    ∀ highest, marks.get? key = some highest → VersionLe highest incoming := by
  intro highest hm
  have hvalid := hv key highest hm
  unfold assertNoDowngrade at h
  rw [hm] at h
  dsimp only at h
  split at h
  · -- the empty string is no version
    rename_i hempty
    rw [hempty] at hvalid
    exact absurd hvalid (by decide)
  · rw [bind_eq_ok] at h
    obtain ⟨o, ho, h⟩ := h
    split at h
    · cases h
    · rename_i hlt
      exact precedence_orders.flip hi hvalid ho hlt

theorem advance_ok {marks after : JsMap String String} {e : String × String}
    (hv : Valid ExactSemver marks) (he : ExactSemver e.2) (h : advance marks e = .ok after) :
    Raised compareExactSemverPrecedence marks [e] after ∧
      ∀ highest, marks.get? e.1 = some highest → VersionLe highest e.2 := by
  unfold advance at h
  rw [bind_eq_ok] at h
  obtain ⟨⟨⟩, hcheck, h⟩ := h
  exact ⟨raise_ok precedence_orders hv he h, assertNoDowngrade_ok hv he hcheck⟩

/-- The loop over the incoming versions, when it returns. -/
theorem foldlM_advance_ok {marks after : JsMap String String} {es : List (String × String)}
    (hv : Valid ExactSemver marks) (hes : ∀ e ∈ es, ExactSemver e.2)
    (h : es.foldlM advance marks = .ok after) :
    Raised compareExactSemverPrecedence marks es after ∧
      ∀ e ∈ es, ∀ highest, marks.get? e.1 = some highest → VersionLe highest e.2 := by
  refine foldlM_eq_ok (P := fun gone m => Raised compareExactSemverPrecedence marks gone m ∧
    ∀ e ∈ gone, ∀ highest, marks.get? e.1 = some highest → VersionLe highest e.2) h
    ⟨Raised.nil precedence_orders hv, nofun⟩ ?_
  intro gone e rest m m' hl ⟨hP, hQ⟩ hstep
  have hgone : ∀ e ∈ gone, ExactSemver e.2 := fun e he =>
    hes e (by rw [hl]; exact List.mem_append_left _ he)
  have he : ExactSemver e.2 := hes e (by rw [hl]; simp)
  have hm := hP.marks_valid hv hgone
  obtain ⟨hr, hcheck⟩ := advance_ok hm he hstep
  refine ⟨hP.snoc precedence_orders hv hgone he hr, ?_⟩
  intro e' he' highest hh
  rcases List.mem_append.mp he' with he' | he'
  · exact hQ e' he' highest hh
  · -- the mark checked against is at or above the one the loop began with
    rw [List.mem_singleton] at he'; subst he'
    obtain ⟨mark, hmark, hle⟩ := hP.kept e'.1 highest hh
    exact precedence_orders.trans (hv _ _ hh) (hm _ _ hmark) he hle (hcheck mark hmark)

theorem assertNotStale_ok {catalog : SignedCatalog} {digest : String}
    {previous : Option CatalogCheckpoint} (h : assertNotStale catalog digest previous = .ok ()) :
    ∀ p, previous = some p → p.signerIdentity = catalog.signer.identity ∧
      p.sequence ≤ catalog.payload.sequence ∧
      (p.sequence = catalog.payload.sequence → p.payloadDigest = digest) := by
  intro p hp
  subst hp
  unfold assertNotStale at h
  dsimp only at h
  split at h
  · cases h
  · rename_i hsigner
    split at h
    · cases h
    · rename_i hstale
      rw [not_or, not_and, not_not, Nat.not_lt] at hstale
      exact ⟨not_not.mp hsigner, hstale.1, fun heq => (hstale.2 heq.symm).symm⟩

theorem verifiedSnapshot_advances {host : Host} {now : Int} {catalog : SignedCatalog}
    {previous : Option CatalogCheckpoint} {verified : VerifiedCatalogSnapshot}
    (hv : Valid ExactSemver (highestOf previous))
    (h : verifiedSnapshot host now catalog previous = .ok verified) :
    verified.catalog = catalog ∧ verified.entries = catalog.payload.entries ∧
      Advances host previous catalog verified.checkpoint := by
  unfold verifiedSnapshot at h
  split at h
  · cases h
  · simp only [bind_eq_ok] at h
    obtain ⟨⟨⟩, hstale, incoming, hincoming, highest, hhighest, h⟩ := h
    obtain rfl := Except.ok.inj h
    have hin := incomingHighest_raised hincoming
    have hvalid : ∀ e ∈ incoming.entries, ExactSemver e.2 := by
      intro e he
      refine hin.marks_valid valid_empty ?_ e.1 e.2 (JsMap.get?_eq_some.mpr he)
      intro e he
      obtain ⟨entry, -, rfl⟩ := List.mem_map.mp he
      exact entry.version_ok
    obtain ⟨hout, hcheck⟩ := foldlM_advance_ok hv hvalid hhighest
    -- the highest listed version of the extension of an entry
    have hbest : ∀ e ∈ catalog.payload.entries, ∃ v, (e.key, v) ∈ incoming.entries ∧
        VersionLe e.version v ∧ catalog.Lists e.deliveryClass e.id v := by
      intro e he
      obtain ⟨v, hget, hle⟩ := hin.reached e.key e.version (List.mem_map.mpr ⟨e, he, rfl⟩)
      refine ⟨v, JsMap.get?_eq_some.mp hget, hle, ?_⟩
      rcases hin.origin e.key v hget with hempty | hm
      · cases hempty
      · obtain ⟨e', he', heq⟩ := List.mem_map.mp hm
        obtain ⟨hkey, rfl⟩ := Prod.mk.inj heq
        obtain ⟨hclass, hid⟩ := key_injective hkey
        exact ⟨e', he', hclass, hid, rfl⟩
    refine ⟨rfl, rfl, rfl, rfl, rfl, ?_, hout.marks_valid hv hvalid, hout.kept, ?_, ?_⟩
    · intro p hp
      exact (assertNotStale_ok hstale p hp).2
    · intro e he
      obtain ⟨v, hm, hle, -⟩ := hbest e he
      obtain ⟨w, hw, hle'⟩ := hout.reached e.key v hm
      refine ⟨w, hw, precedence_orders.trans e.version_ok (hvalid _ hm) ?_ hle hle'⟩
      exact hout.marks_valid hv hvalid _ _ hw
    · intro e he
      obtain ⟨v, hm, -, hlists⟩ := hbest e he
      exact ⟨v, hlists, fun h hh => hcheck _ hm h hh⟩

end KNex.Extensions.Catalog
