import KNex.Core.Json
import KNex.Ui.RemoteUiSessions

/-!
# `RemoteUiHostSession`

`packages/ui-runtime/src/remote-ui-host.ts:71-264`: the host's end of the channel to a remote app.
Frames of the app and updates of the presentation are tasks of one queue; a task runs to its end
before the next one starts, but it waits for the host's adapter on the way, and while it waits the
session may be disposed of and the clock goes on. Each piece between two `await`s is a step.

The schema of frames, the size of a message and the matching of routes are parameters (`Host`): what
is shown of a session holds whatever they accept. `trace` is the history of what the session did, in
order, with the clock; `takenAt` and `checkedAt` are the readings that the rate limit has made. None
of them is read by a step.
-/
namespace KNex.Ui.HostSession

open KNex.Core RemoteUiSessions

/-! ## Data -/

/-- mirrors packages/ui-runtime/src/remote-ui-host.ts:24-37 -/
structure RemoteUiSessionIdentity extends RemoteUiGenerationOwner where
  sessionId : String
  generationId : String
  artifactDigest : String
  remoteUiFrameUrl : String
  route : String
  surface : String
  sources : List String
  actions : List String
  routes : List String
  assets : List String

inductive EventName where
  | press | change | submit | selectionChange
  deriving DecidableEq, Repr

inductive RemoteUiNode where
  | mk (nodeId component : String) (props : List (String × Json))
      (events : List (EventName × String)) (children : List RemoteUiNode)

namespace RemoteUiNode

def nodeId : RemoteUiNode → String
  | mk nodeId _ _ _ _ => nodeId

def component : RemoteUiNode → String
  | mk _ component _ _ _ => component

def props : RemoteUiNode → List (String × Json)
  | mk _ _ props _ _ => props

def events : RemoteUiNode → List (EventName × String)
  | mk _ _ _ events _ => events

def children : RemoteUiNode → List RemoteUiNode
  | mk _ _ _ _ children => children

end RemoteUiNode

inductive Operation where
  | source | action
  deriving DecidableEq, Repr

structure Request where
  operation : Operation
  requestId : String
  targetId : String
  input : Json

/-- What a frame of the app asks for. -/
inductive Body where
  | ready
  | render (root : RemoteUiNode)
  | focus (nodeId : String)
  | navigate (route : String)
  | failure
  | request (request : Request)

/-- A frame from the realm to the host. -/
structure RemoteUiFrame where
  sessionId : String
  appId : String
  generationId : String
  sequence : Nat
  body : Body

inductive Code where
  | frameInvalid | identityMismatch | sequenceInvalid | budgetExceeded | componentDenied
  | propInvalid | eventDenied | targetDenied | unauthorized | sessionClosed
  deriving DecidableEq, Repr

inductive FallbackCode where
  | appFailure | protocolFailure | unauthorized
  deriving DecidableEq, Repr

inductive OutgoingType where
  | bootstrap | event | responseOk | responseError
  deriving DecidableEq, Repr

/-- mirrors packages/contracts/src/remote-ui.ts:8-18 -/
def canonicalBytes : Nat := 262144
def nodeDepth : Nat := 16
def totalNodes : Nat := 512
def callsPerMinute : Nat := 240

structure RemoteUiComponentDefinition where
  events : List EventName
  validateProps : List (String × Json) → List String → Bool

/-- `bytes` is the size of a message, or why it has none; `safeParse` is the schema, for frames from
the realm to the host; `postable` says of a frame to the realm that it parses, fits and is posted. -/
structure Host (V : Type) where
  identity : RemoteUiSessionIdentity
  registry : String → Option RemoteUiComponentDefinition
  bytes : V → Except Code Nat
  safeParse : V → Option RemoteUiFrame
  postable : OutgoingType → Nat → Bool
  matchRoute : String → String → String → Bool

/-! ## Trees -/

/-- The loop of `validateTree`: the nodes so far, and those that are pending, the next one last.
mirrors packages/ui-runtime/src/remote-ui-host.ts:90-109 -/
def validateNodes (registry : String → Option RemoteUiComponentDefinition) (assets : List String) :
    Nat → List (RemoteUiNode × Nat) → JsMap String RemoteUiNode →
      Except Code (JsMap String RemoteUiNode)
  | 0, _, _ => .error .budgetExceeded
  | fuel + 1, pending, nodes =>
    match pending.getLast? with
    | none => .ok nodes
    | some (node, depth) =>
      if nodeDepth < depth ∨ totalNodes ≤ nodes.size then .error .budgetExceeded
      else if (nodes.get? node.nodeId).isSome then .error .frameInvalid
      else match registry node.component with
        | none => .error .componentDenied
        | some component =>
          if component.validateProps node.props assets = false then .error .propInvalid
          else if ¬ ((node.events.map Prod.fst).Nodup ∧
              ∀ e ∈ node.events, e.1 ∈ component.events) then .error .eventDenied
          else validateNodes registry assets fuel
            (pending.dropLast ++ node.children.map fun child => (child, depth + 1))
            (nodes.set node.nodeId node)

/-- The rounds suffice: each adds a node, and one that finds `totalNodes` of them is the last. -/
theorem validateNodes_fuel (registry : String → Option RemoteUiComponentDefinition)
    (assets : List String) (fuel : Nat) (pending : List (RemoteUiNode × Nat))
    (nodes : JsMap String RemoteUiNode) (hsize : nodes.size ≤ totalNodes)
    (hfuel : totalNodes < nodes.size + fuel) :
    validateNodes registry assets fuel pending nodes =
      validateNodes registry assets (fuel + 1) pending nodes := by
  induction fuel generalizing pending nodes with
  | zero => omega
  | succ fuel ih =>
    rw [validateNodes, validateNodes]
    split
    · rfl
    rename_i node depth _
    split
    · rfl
    rename_i hbudget
    split
    · rfl
    rename_i hnew
    have hnone : nodes.get? node.nodeId = none := by simpa using hnew
    split
    · rfl
    split
    · rfl
    split
    · rfl
    · have hset := JsMap.size_set_of_none hnone node
      refine ih _ _ ?_ ?_ <;> omega

/-- A tree has at most `totalNodes` nodes. -/
def validateTree (registry : String → Option RemoteUiComponentDefinition) (assets : List String)
    (root : RemoteUiNode) : Except Code (JsMap String RemoteUiNode) :=
  validateNodes registry assets (totalNodes + 1) [(root, 1)] .empty

/-! ## State -/

inductive Task (V : Type) where
  | receive (value : V)
  | present (presentation : RemoteUiHostPresentation)

/-- What the running task waits for. -/
inductive Running where
  | authorizing (frame : RemoteUiFrame)
  | authorizingTarget (sequence : Nat) (request : Request)
  | loading (request : Request)
  /-- `render`, `focus` or `navigate`. -/
  | presenting
  /-- The task has failed, and the handler of the queue comes next. -/
  | failing (code : FallbackCode)

inductive Act where
  /-- The frame is the next one in sequence. -/
  | taken (sequence : Nat)
  | authorize (sequence : Nat)
  | authorized (sequence : Nat)
  | authorizeTarget (sequence : Nat) (operation : Operation) (targetId : String)
  | targetAuthorized (sequence : Nat) (operation : Operation) (targetId : String)
  | dispatch (sequence : Nat) (operation : Operation) (targetId : String)
  | render (sequence : Nat)
  | focus (sequence : Nat)
  | navigate (sequence : Nat)
  | present
  | post (type : OutgoingType)
  | fallback (code : FallbackCode)
  | close
  deriving DecidableEq

structure Entry where
  act : Act
  time : Nat
  deriving DecidableEq

structure St (V : Type) where
  now : Nat
  port : Bool
  closed : Bool
  queue : List (Task V)
  running : Option Running
  incomingSequence : Nat
  outgoingSequence : Nat
  nodes : JsMap String RemoteUiNode
  root : Option RemoteUiNode
  presentation : RemoteUiHostPresentation
  requestTimes : List Nat
  trace : List Entry
  takenAt : List Nat
  checkedAt : Nat

/-- What the adapter answers: a refusal or a value, or it throws, with the code of a
`RemoteUiProtocolError` if it is one. -/
inductive Answer where
  | yes | no
  | throws (code : Option Code)
  deriving DecidableEq, Repr

inductive Ev (V : Type) where
  | tick (now : Nat)
  | start
  | message (value : V)
  | updatePresentation (presentation : RemoteUiHostPresentation)
  /-- The next task of the queue begins; the clock may go on between its two readings. -/
  | next (between : Nat)
  | answer (answer : Answer)
  /-- The handler of the queue after a task that failed. -/
  | caught
  /-- `realmCrashed`, or a message that cannot be read. -/
  | crash (code : FallbackCode)
  | dispose
  | dispatchEvent (nodeId : String) (event : EventName)

variable {V : Type}

/-! ## Steps -/

def St.log (s : St V) (act : Act) : St V := { s with trace := s.trace ++ [⟨act, s.now⟩] }

/-- mirrors packages/ui-runtime/src/remote-ui-host.ts:175-191 -/
def dispose (s : St V) : St V :=
  if s.closed then s
  else { s.log .close with
          closed := true, port := false, nodes := .empty, root := none
          outgoingSequence := s.outgoingSequence + if s.port then 1 else 0 }

/-- mirrors packages/ui-runtime/src/remote-ui-host.ts:240-245 -/
def controlledFailure (code : FallbackCode) (s : St V) : St V :=
  if s.closed then s else dispose (s.log (.fallback code))

/-- mirrors packages/ui-runtime/src/remote-ui-host.ts:247-257 -/
def send (host : Host V) (type : OutgoingType) (s : St V) : St V :=
  if s.port = false ∨ s.closed then s
  else
    let s := { s with outgoingSequence := s.outgoingSequence + 1 }
    if host.postable type s.outgoingSequence then s.log (.post type)
    else controlledFailure .appFailure s

/-- The task ends with an error; the handler of the queue is told the code.
mirrors packages/ui-runtime/src/remote-ui-host.ts:193-196 -/
def failing (code : Option Code) (s : St V) : St V :=
  { s with running := some (.failing (if code = some .unauthorized then .unauthorized
                                      else .protocolFailure)) }

def finished (s : St V) : St V := { s with running := none }

/-- The loop and the check of `enforceRate`, at a reading of the clock.
mirrors packages/ui-runtime/src/remote-ui-host.ts:259-263 -/
def pruned (now : Nat) (requestTimes : List Nat) : List Nat :=
  requestTimes.dropWhile fun t => t + 60000 ≤ now

/-- The frame is in sequence: the rate is enforced, and the host is asked to authorize it.
mirrors packages/ui-runtime/src/remote-ui-host.ts:205-208 -/
def takeFrame (frame : RemoteUiFrame) (between : Nat) (s : St V) : St V :=
  let s := { s.log (.taken frame.sequence) with incomingSequence := frame.sequence }
  let s := { s with requestTimes := pruned s.now s.requestTimes, checkedAt := s.now }
  if callsPerMinute ≤ s.requestTimes.length then failing (some .budgetExceeded) s
  else
    let s := { s with now := s.now + between }
    let s := { s with
                requestTimes := s.requestTimes ++ [s.now], takenAt := s.takenAt ++ [s.now] }
    { s.log (.authorize frame.sequence) with running := some (.authorizing frame) }

/-- mirrors packages/ui-runtime/src/remote-ui-host.ts:198-208 -/
def receive (host : Host V) (value : V) (between : Nat) (s : St V) : St V :=
  if s.closed then finished s
  else match host.bytes value with
    | .error code => failing (some code) s
    | .ok size =>
      if canonicalBytes < size then failing (some .budgetExceeded) s
      else match host.safeParse value with
        | none => failing (some .frameInvalid) s
        | some frame =>
          if frame.sessionId ≠ host.identity.sessionId ∨ frame.appId ≠ host.identity.appId ∨
              frame.generationId ≠ host.identity.generationId then failing (some .identityMismatch) s
          else if frame.sequence ≠ s.incomingSequence + 1 then failing (some .sequenceInvalid) s
          else takeFrame frame between s

/-- The part of `updatePresentation` that the queue runs.
mirrors packages/ui-runtime/src/remote-ui-host.ts:158-162 -/
def present (presentation : RemoteUiHostPresentation) (s : St V) : St V :=
  if s.closed then finished s
  else
    let s := { s with presentation := presentation }
    if s.root.isSome then { s.log .present with running := some .presenting } else finished s

/-- The targets that the session declares for an operation. -/
def allowed (identity : RemoteUiSessionIdentity) : Operation → List String
  | .source => identity.sources
  | .action => identity.actions

/-- An authorized frame, up to its next `await`.
mirrors packages/ui-runtime/src/remote-ui-host.ts:211-231 -/
def proceed (host : Host V) (frame : RemoteUiFrame) (s : St V) : St V :=
  match frame.body with
  | .ready => finished s
  | .render root =>
    match validateTree host.registry host.identity.assets root with
    | .error code => failing (some code) s
    | .ok nodes =>
      let s := { s with nodes := nodes, root := some root }
      { s.log (.render frame.sequence) with running := some .presenting }
  | .focus nodeId =>
    if (s.nodes.get? nodeId).isNone then failing (some .targetDenied) s
    else { s.log (.focus frame.sequence) with running := some .presenting }
  | .navigate route =>
    if host.identity.routes.any (host.matchRoute host.identity.appId · route) = false then
      failing (some .targetDenied) s
    else { s.log (.navigate frame.sequence) with running := some .presenting }
  | .failure => finished (controlledFailure .appFailure s)
  | .request request =>
    if request.targetId ∉ allowed host.identity request.operation then failing (some .targetDenied) s
    else
      { s.log (.authorizeTarget frame.sequence request.operation request.targetId) with
        running := some (.authorizingTarget frame.sequence request) }

/-- The answer to `authorize`.
mirrors packages/ui-runtime/src/remote-ui-host.ts:208-231 -/
def authorizeAnswered (host : Host V) (frame : RemoteUiFrame) (s : St V) : Answer → St V
  | .throws code => failing code s
  | .no => if s.closed then finished s else finished (controlledFailure .unauthorized s)
  | .yes =>
    let s := s.log (.authorized frame.sequence)
    if s.closed then finished s else proceed host frame s

/-- The answer to `authorizeTarget`. Whether the session was closed meanwhile is not asked.
mirrors packages/ui-runtime/src/remote-ui-host.ts:231-233 -/
def targetAnswered (sequence : Nat) (request : Request) (s : St V) : Answer → St V
  | .throws code => failing code s
  | .no => failing (some .unauthorized) s
  | .yes =>
    let s := s.log (.targetAuthorized sequence request.operation request.targetId)
    { s.log (.dispatch sequence request.operation request.targetId) with
      running := some (.loading request) }

/-- The answer of `source` or `action`.
mirrors packages/ui-runtime/src/remote-ui-host.ts:233-237 -/
def loadAnswered (host : Host V) (s : St V) : Answer → St V
  | .throws _ => finished (if s.closed then s else send host .responseError s)
  | _ => finished (if s.closed then s else send host .responseOk s)

/-- The end of `render`, `focus` or `navigate`. -/
def presented (s : St V) : Answer → St V
  | .throws code => failing code s
  | _ => finished s

def answered (host : Host V) (s : St V) (answer : Answer) : Running → Option (St V)
  | .authorizing frame => some (authorizeAnswered host frame s answer)
  | .authorizingTarget sequence request => some (targetAnswered sequence request s answer)
  | .loading _ => some (loadAnswered host s answer)
  | .presenting => some (presented s answer)
  | .failing _ => none

/-- A call that throws changes nothing. -/
def step (host : Host V) (s : St V) : Ev V → Option (St V)
  | .tick now => if s.now ≤ now then some { s with now := now } else none
  | .start =>
    if s.port ∨ s.closed then some s else some (send host .bootstrap { s with port := true })
  | .message value => some { s with queue := s.queue ++ [.receive value] }
  | .updatePresentation input =>
    match s.closed, remoteUiHostPresentation input with
    | false, .ok presentation => some { s with queue := s.queue ++ [.present presentation] }
    | _, _ => some s
  | .next between =>
    match s.running, s.queue with
    | none, .receive value :: queue => some (receive host value between { s with queue := queue })
    | none, .present presentation :: queue => some (present presentation { s with queue := queue })
    | _, _ => none
  | .answer answer => s.running.bind (answered host s answer)
  | .caught =>
    match s.running with
    | some (.failing code) => some (finished (controlledFailure code s))
    | _ => none
  | .crash code => some (controlledFailure code s)
  | .dispose => some (dispose s)
  | .dispatchEvent nodeId event =>
    if s.closed then some s
    else if ((s.nodes.get? nodeId).any fun node => node.events.any fun e => e.1 = event) then
      some (send host .event s)
    else some s

/-- A session that was just made. -/
def initial (s : St V) : Prop :=
  s.port = false ∧ s.closed = false ∧ s.queue = [] ∧ s.running = none ∧ s.incomingSequence = 0 ∧
    s.outgoingSequence = 0 ∧ s.requestTimes = [] ∧ s.trace = [] ∧ s.takenAt = [] ∧
    s.checkedAt = 0 ∧ s.root = none ∧ s.nodes = .empty

def lts (host : Host V) : LTS (St V) (Ev V) := .ofFn initial (step host)

end KNex.Ui.HostSession
