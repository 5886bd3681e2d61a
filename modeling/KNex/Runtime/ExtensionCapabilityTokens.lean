import KNex.Contracts.Extension
import KNex.Contracts.StrictSchema
import KNex.Core.Base64
import KNex.Core.JoinedKeys

/-!
# Capability tokens

`packages/runtime/src/extension-capability-gateway.ts`: a token carries its claims as the base64 of
canonical JSON, with a keyed digest of that text behind it. Issuing and verifying parse the claims by
the same function, and in between they are printed and read.

The digest, the decoder of `Buffer.from(text, "base64url")`, which never throws, the decoder of
`buffer.toString("utf8")` and the two functions on dates are a `Host`. The schema of the grants is
`packages/contracts/src/extension-runtime.ts`.
-/
namespace KNex.Runtime.CapabilityTokens

open KNex.Core KNex.Core.JsonText KNex.Core.TextCoding KNex.Core.Base64
open KNex.Contracts KNex.Contracts.CanonicalJson

/-! ## Failures -/

inductive Code where
  | TOKEN_INVALID
  | TOKEN_EXPIRED
  deriving DecidableEq

/-- An `ExtensionCapabilityError`, or an error of another class. -/
inductive Failure where
  | capability (code : Code) (message : Str)
  | other (message : Str)
  deriving DecidableEq

abbrev Result (α : Type) := Except Failure α

def invalid (message : String) : Failure :=
  .capability .TOKEN_INVALID (units ("Capability token " ++ message))

structure Host where
  /-- `createHmac("sha256", secret).update(payload).digest()`. -/
  hmac : List UInt8 → Str → List UInt8
  /-- `Buffer.from(text, "base64url")`. -/
  fromBase64url : Str → List UInt8
  /-- `buffer.toString("utf8")`. -/
  utf8 : List UInt8 → Str
  /-- `new Date(time).toISOString()`; `none` where it throws. -/
  toISOString : Int → Option Str
  /-- `Date.parse(text)`; `none` is not a number. -/
  dateParse : Str → Option Int

/-! ## Patterns -/

/-- The units as characters; a surrogate becomes one that no pattern has. -/
def asString (s : Str) : String := String.ofList (s.map fun c => Char.ofNat c.toNat)

/-- `/^[a-z][a-z0-9-]{2,127}$/u`. -/
def idPattern (s : Str) : Bool := recordIdOk (asString s)

/-- `/^[a-z][a-z0-9-]{1,63}$/u`. -/
def environmentPattern (s : Str) : Bool :=
  match (asString s).toList with
  | [] => false
  | c :: cs => c.isLower && cs.all (fun c => lowerAlnum c || c == '-') &&
      decide (1 ≤ cs.length ∧ cs.length ≤ 63)

/-- `/^app(?:\.[a-z][a-z0-9]*(?:-[a-z0-9]+)*)+$/u`. -/
def appIdPattern (s : Str) : Bool := isDotted (fun p => p = "app".toList) (asString s).toList

/-- `/^[A-Za-z0-9][A-Za-z0-9._:/@-]{2,159}$/u`. -/
def actorPattern (s : Str) : Bool :=
  match (asString s).toList with
  | [] => false
  | c :: cs => c.isAlphanum && cs.all (fun c => c.isAlphanum || "._:/@-".toList.contains c) &&
      decide (2 ≤ cs.length ∧ cs.length ≤ 159)

/-- Whether the text has the units of a template, in which `h` is a lower hexadecimal digit and `d`
a decimal one. -/
def fits (template : String) (s : Str) : Bool :=
  s.length = template.length &&
    (template.toList.zip (asString s).toList).all fun (t, c) =>
      if t = 'h' then hexDigitOk c else if t = 'd' then c.isDigit else c = t

/-- `/^lease-[0-9a-f]{8}-(?:[0-9a-f]{4}-){3}[0-9a-f]{12}$/u`. -/
def drainLeasePattern : Str → Bool := fits "lease-hhhhhhhh-hhhh-hhhh-hhhh-hhhhhhhhhhhh"

/-- `/^\d{4}-\d{2}-\d{2}T\d{2}:\d{2}:\d{2}\.\d{3}Z$/u`. -/
def timestampPattern : Str → Bool := fits "dddd-dd-ddTdd:dd:dd.dddZ"

/-- `[a-z0-9](?:[a-z0-9-]{0,61}[a-z0-9])?`. -/
def hostLabel (cs : List Char) : Bool :=
  cs.length ≤ 63 && cs.all (fun c => lowerAlnum c || c == '-') &&
    cs.head?.any lowerAlnum && cs.getLast?.any lowerAlnum

/-- `/^https:\/\/label(?:\.label)+(?::[0-9]{2,5})?$/u`. -/
def destinationPattern (s : Str) : Bool :=
  let text := (asString s).toList
  let authority := text.drop 8
  let port := authority.dropWhile (· != ':')
  let labels := splitChar '.' (authority.takeWhile (· != ':'))
  decide (text.take 8 = "https://".toList) && decide (2 ≤ labels.length) && labels.all hostLabel &&
    (port.isEmpty ||
      decide (2 ≤ port.tail.length ∧ port.tail.length ≤ 5) && port.tail.all Char.isDigit)

/-! ## The schema of grants -/

def between (low high n : Nat) : Bool := low ≤ n && n ≤ high

def resourceId : Schema := .string fun s => resourceIdOk (asString s)

/-- `z.enum(values)`. -/
def enumeration (values : List String) : Schema := .string fun s => (values.map units).contains s

/-- mirrors packages/contracts/src/extension-runtime.ts:101 -/
def capabilityBase : List (Str × Bool × Schema) :=
  [(units "$schema", true, .string fun s => s.length ≤ 512), (units "required", false, .boolean),
    (units "reason", false, .string fun s => between 1 240 s.length)]

/-- mirrors packages/contracts/src/extension-runtime.ts:102 -/
def capabilityReferenceSchema : Schema :=
  .strictObject [(units "id", false, resourceId),
    (units "version", false, .integer fun n => 1 ≤ n && n ≤ 1000000)]

def variant (kind : String) (fields : List (String × Schema)) : Str × Schema :=
  (units kind, .strictObject (capabilityBase ++ (units "kind", false, .literal (units kind)) ::
    fields.map fun f => (units f.1, false, f.2)))

/-- mirrors packages/contracts/src/extension-runtime.ts:104-113 -/
def ExtensionCapabilityRequestSchema : Schema :=
  .discriminatedUnion (units "kind")
    [variant "records"
      [("operations", .uniqueArray (enumeration ["query", "action"]) (between 1 2)),
        ("resources", .uniqueArray capabilityReferenceSchema (between 1 32))],
    variant "app-storage"
      [("operations", .uniqueArray (enumeration ["get", "put", "query", "delete"]) (between 1 4)),
        ("schemaIds", .uniqueArray resourceId (between 1 16))],
    variant "events"
      [("operations", .uniqueArray (enumeration ["publish", "subscribe"]) (between 1 2)),
        ("eventTypes", .uniqueArray resourceId (between 1 32))],
    variant "http-fetch"
      [("destinations", .uniqueArray
          (.string fun s => s.length ≤ 253 && destinationPattern s) (between 1 16)),
        ("methods", .uniqueArray (enumeration ["GET", "POST", "PUT", "PATCH", "DELETE"])
          (between 1 5))],
    variant "files" [("operations", .uniqueArray (enumeration ["read", "write"]) (between 1 2))],
    variant "secret-reference" [("references", .uniqueArray resourceId (between 1 16))],
    variant "jobs"
      [("operations", .uniqueArray (.literal (units "schedule")) (between 1 1)),
        ("scheduleIds", .uniqueArray resourceId (between 1 16))],
    variant "audit" [("operations", .uniqueArray (.literal (units "emit")) (between 1 1))]]

/-! ## Claims -/

variable {N : Type} (F : Integers N) (host : Host)

/-- An object's own properties, all enumerable, with their values. -/
abbrev Data (N : Type) := List (PropertyKey × JsValue N)

def dataProps (data : Data N) : List (PropertyKey × Bool × Option (JsValue N)) :=
  data.map fun e => (e.1, true, some e.2)

/-- `{ ...value }`. -/
def spread (props : List (PropertyKey × Bool × Option (JsValue N))) : Data N :=
  (props.filter fun p => p.2.1).map fun p => (p.1, p.2.2.getD .undefined)

/-- `{ ...data, [key]: value }`, of a key that is there. -/
def withValue (data : Data N) (key : Str) (value : JsValue N) : Data N :=
  data.map fun e => if e.1 = .str key then (e.1, value) else e

def expectedKeys : List Str :=
  ["actor", "appId", "applicationId", "authorizationRevision", "correlationId", "environment",
    "expiresAt", "generationId", "grants", "invocationId", "issuedAt", "lifecycleRevision",
    "schemaVersion", "tokenId"].map units

def text (pattern : Str → Bool) : JsValue N → Bool
  | .string s => pattern s
  | _ => false

def optionalText (pattern : Str → Bool) : JsValue N → Bool
  | .undefined => true
  | .string s => pattern s
  | _ => false

/-- A safe integer that the bound accepts. -/
def integer (bound : Int → Bool) : JsValue N → Bool
  | .number (.finite n) => (F.integerOf n).any bound
  | _ => false

/-- The tests of single claims; the arrays and objects among them are read apart below.
mirrors packages/runtime/src/extension-capability-gateway.ts:126-133 -/
def claimTests : List (String × (JsValue N → Bool)) :=
  [("schemaVersion", integer F (· = 1)), ("applicationId", text idPattern),
    ("environment", text environmentPattern), ("appId", text appIdPattern),
    ("generationId", text idPattern), ("invocationId", text idPattern), ("tokenId", text idPattern),
    ("correlationId", text idPattern), ("authorizationRevision", integer F (0 ≤ ·)),
    ("lifecycleRevision", integer F (0 ≤ ·)), ("drainLeaseId", optionalText drainLeasePattern)]

def actorTests : List (String × (JsValue N → Bool)) :=
  [("principalId", text actorPattern), ("effectiveActorId", text actorPattern),
    ("delegationId", optionalText actorPattern)]

def passes (tests : List (String × (JsValue N → Bool)))
    (props : List (PropertyKey × Bool × Option (JsValue N))) : Bool :=
  tests.all fun test => test.2 (readProp props (units test.1))

/-- A grant; a hole of the array stays one.
mirrors packages/runtime/src/extension-capability-gateway.ts:136-140 -/
def parseGrant : Option (JsValue N) → Result (Option (JsonValue N))
  | none => .ok none
  | some grant =>
    match ExtensionCapabilityRequestSchema.parse F grant with
    | none => .error (invalid "grants are invalid.")
    | some data => .ok (some data)

def grantText : Option (JsonValue N) → Result (Option Str)
  | none => .ok none
  | some grant =>
    match canonicalJson F.toNumberFormat (ofParsed grant) with
    | .error message => .error (.other message)
    | .ok text => .ok (some text)

/-- mirrors packages/runtime/src/extension-capability-gateway.ts:110-115 -/
def parseTimestamp (value : JsValue N) : Result Int :=
  match value with
  | .string s =>
    match if timestampPattern s then host.dateParse s else none with
    | none => .error (invalid "timestamp is invalid.")
    | some time => .ok time
  | _ => .error (invalid "timestamp is invalid.")

/-- mirrors packages/runtime/src/extension-capability-gateway.ts:117-150 -/
def parseClaims (value : JsValue N) : Result (JsValue N) :=
  match value with
  | .object _ claims =>
    match readProp claims (units "grants"), readProp claims (units "actor") with
    | .array elements _, .object _ actor => do
      failIf (¬ ((keyText (ownKeys claims) = keyText expectedKeys ∨
          keyText (ownKeys claims) = keyText (expectedKeys ++ [units "drainLeaseId"])) ∧
          passes (claimTests F) claims ∧ elements.length ≤ 16))
        (invalid "claims are invalid.")
      let grants ← elements.mapM (parseGrant F)
      let texts ← grants.mapM (grantText F)
      failIf (¬ texts.Nodup) (invalid "grants must be unique.")
      failIf (¬ ((keyText (ownKeys actor) = keyText [units "effectiveActorId", units "principalId"] ∨
          keyText (ownKeys actor) =
            keyText [units "delegationId", units "effectiveActorId", units "principalId"]) ∧
          passes actorTests actor))
        (invalid "actor is invalid.")
      let _ ← parseTimestamp host (readProp claims (units "issuedAt"))
      let _ ← parseTimestamp host (readProp claims (units "expiresAt"))
      return .object .object (dataProps (withValue (spread claims) (units "grants")
        (.array (grants.map fun grant => grant.map ofParsed) [])))
    | _, _ => .error (invalid "claims are invalid.")
  | _ => .error (invalid "claims are invalid.")

/-! ## Tokens -/

/-- What is asked for besides the secret: `ttlMs` is `none` when it is no safe integer, and the rest
are the own enumerable properties. -/
structure TokenRequest (N : Type) where
  ttlMs : Option Int
  identity : JsMap PropertyKey (JsValue N)

def signature (secret : List UInt8) (payload : Str) : List UInt8 := host.hmac secret payload

/-- The token of claims.
mirrors packages/runtime/src/extension-capability-gateway.ts:206-207 -/
def encodeClaims (secret : List UInt8) (claims : JsValue N) : Result Str :=
  match canonicalJson F.toNumberFormat claims with
  | .error message => .error (.other message)
  | .ok text =>
    let payload := base64url (encode text)
    .ok (units "v1." ++ payload ++ units "." ++ base64url (signature host secret payload))

/-- The claims of a request; `now` is `none` for a clock that gives no valid date.
mirrors packages/runtime/src/extension-capability-gateway.ts:200-205 -/
def issuedClaims (now : Option Int) (request : TokenRequest N) : Result (JsValue N) :=
  match now, request.ttlMs with
  | some now, some ttlMs =>
    if ttlMs < 1 ∨ 300000 < ttlMs then .error (.other (units "Capability token lifetime is invalid."))
    else match host.toISOString now, host.toISOString (now + ttlMs) with
      | some issuedAt, some expiresAt =>
        parseClaims F host (.object .object (dataProps
          (((request.identity.set (.str (units "schemaVersion")) (.number (.finite (.finite F.one)))).set
            (.str (units "issuedAt")) (.string issuedAt)).set
            (.str (units "expiresAt")) (.string expiresAt)).entries))
      | _, _ => .error (.other (units "Invalid time value"))
  | _, _ => .error (.other (units "Capability token lifetime is invalid."))

/-- mirrors packages/runtime/src/extension-capability-gateway.ts:199-208 -/
def issue (secret : List UInt8) (now : Option Int) (request : TokenRequest N) : Result Str := do
  let claims ← issuedClaims F host now request
  encodeClaims F host secret claims

/-- mirrors packages/runtime/src/extension-capability-gateway.ts:210-223 -/
def verify (secret : List UInt8) (now : Int) (token : Str) : Result (JsValue N) :=
  match token.splitOn 46 with
  | [version, payload, supplied] => do
    failIf (version ≠ units "v1" ∨ payload = [] ∨ supplied = []) (invalid "is malformed.")
    failIf (host.fromBase64url supplied ≠ signature host secret payload)
      (invalid "signature is invalid.")
    match parse F.toNumberFormat (host.utf8 (host.fromBase64url payload)) with
    | none => .error (invalid "payload is invalid.")
    | some parsed =>
      let claims ← parseClaims F host (ofParsed parsed)
      match claims with
      | .object _ props => do
        let issuedAt ← parseTimestamp host (readProp props (units "issuedAt"))
        let expiresAt ← parseTimestamp host (readProp props (units "expiresAt"))
        failIf (now < issuedAt ∨ expiresAt ≤ now)
          (.capability .TOKEN_EXPIRED (units "Capability token is outside its validity window."))
        return claims
      | _ => .error (invalid "claims are invalid.")
  | _ => .error (invalid "is malformed.")

end KNex.Runtime.CapabilityTokens
