import KNex.Contracts.Identity
import KNex.Core.Except
import KNex.Core.Json
import KNex.Core.JsMap

/-!
# UI documents in the page editor

`packages/builder-puck/src/adapter.ts` turns a canonical UI document into the data of the page
editor and back. Each node of the canvas region becomes a component: its canonical data is stored
with it, and each field that may be edited is copied to a prop of its own, where an absent value
shows the default of the block. On the way back the edited values are merged into the stored data.
Regions other than the canvas are stored with the root.

A component's props are kept apart by what they hold: the identifier, the stored node, the editable
fields and the child slot; what is missing, or not of the expected shape, is `none` (a component
without a slot is `plain`). `UiDocumentSchema` is a parameter (`Schema`): what is asked of it is that
it does not look at the order of the regions. The types below carry what it checks of the parts that
the adapter depends on. The schema of a block's props is a predicate of its definition.
-/
namespace KNex.Builder

open KNex.Core KNex.Contracts

/-! ## Documents -/

structure ResourceRef where
  id : String
  version : Nat
  deriving DecidableEq, Repr

/-- mirrors packages/contracts/src/ui-document.ts:101-114 -/
structure LayoutConstraints where
  locked : Option Bool
  canDelete : Option Bool
  canMove : Option Bool
  canResize : Option Bool
  editableFields : Option (List String)
  allowedChildren : Option (List String)
  minChildren : Option Nat
  maxChildren : Option Nat

structure Layout where
  constraints : Option LayoutConstraints
  tokens : Option Json

/-- mirrors packages/contracts/src/ui-document.ts:78-83 -/
structure SourceBinding where
  source : ResourceRef
  input : Json
  structuralCompatibilityHash : String
  selectedFields : Option (List String)

structure Bindings where
  source : Option SourceBinding
  action : Option ResourceRef

/-- A node without its children.
mirrors packages/contracts/src/ui-document.ts:160-169 -/
structure NodeData where
  id : String
  type : String
  version : Nat
  props : JsMap String Json
  bindings : Option Bindings
  layout : Option Layout
  engineMetadata : Option Json
  type_ok : resourceIdOk type = true
  version_ok : (version : Int) ≤ Json.maxSafeInteger

/-- A node either has no `children`, or has a list of them, which may be empty. -/
inductive UiNode where
  | leaf (data : NodeData)
  | branch (data : NodeData) (children : List UiNode)

namespace UiNode

def data : UiNode → NodeData
  | .leaf data => data
  | .branch data _ => data

/-- `node.children ?? []`. -/
def children : UiNode → List UiNode
  | .leaf _ => []
  | .branch _ children => children

mutual

/-- The node and everything below it, a node before its children. -/
def all : UiNode → List UiNode
  | .leaf data => [.leaf data]
  | .branch data children => .branch data children :: allOf children

def allOf : List UiNode → List UiNode
  | [] => []
  | node :: nodes => all node ++ allOf nodes

end

end UiNode

inductive ProfileId where
  | cms | workspace
  deriving DecidableEq, Repr

def ProfileId.text : ProfileId → String
  | .cms => "cms"
  | .workspace => "workspace"

/-- The schema version is the literal 1.
mirrors packages/contracts/src/ui-document.ts:322-336 -/
structure UiDocument where
  id : String
  version : Nat
  profile : ProfileId
  regions : JsMap String (List UiNode)
  version_ok : (version : Int) ≤ Json.maxSafeInteger

/-- The same document; the regions are an object, whose keys have no order. -/
structure UiDocument.Same (d d' : UiDocument) : Prop where
  id : d.id = d'.id
  version : d.version = d'.version
  profile : d.profile = d'.profile
  regions : d.regions.entries.Perm d'.regions.entries

/-- What is thrown: a `TypeError` with its message, or the error of a schema. -/
inductive Thrown where
  | typeError (message : String)
  | zodError
  deriving DecidableEq, Repr

/-- `UiDocumentSchema`. -/
structure Schema where
  accepts : UiDocument → Bool
  accepts_same : ∀ d d', UiDocument.Same d d' → accepts d = accepts d'

def Schema.parse (schema : Schema) (value : UiDocument) : Except Thrown UiDocument :=
  if schema.accepts value then .ok value else .error .zodError

/-! ## Blocks -/

/-- mirrors packages/builder-puck/src/adapter.ts:37-39 -/
inductive FieldKind where
  | text | textarea | number | boolean
  | select (options : List Json)

structure Field where
  prop : String
  kind : FieldKind

/-- mirrors packages/builder-puck/src/adapter.ts:104-109 -/
def fieldValueIsValid (field : Field) (value : Json) : Bool :=
  match field.kind with
  | .text | .textarea => match value with
    | .str _ => true
    | _ => false
  | .number => match value with
    | .num _ => true
    | _ => false
  | .boolean => match value with
    | .bool _ => true
    | _ => false
  | .select options => options.any fun option => option.canonicalJson = value.canonicalJson

/-- `propsOk` is `propsSchema.safeParse(props).success`; `actions` are those of the action policy. -/
structure Definition where
  id : String
  version : Nat
  propsOk : JsMap String Json → Bool
  actions : List ResourceRef

/-- mirrors packages/contracts/src/table-records.ts:21 and 27 -/
def fieldIdOk : String → Bool := boundedBy 64 isKebab

/-- A bridge that `assertBridge` accepts.
mirrors packages/builder-puck/src/adapter.ts:41-49 and 129-166 -/
structure Bridge where
  definition : Definition
  fields : List Field
  allowChildren : Bool
  defaultProps : JsMap String Json
  constraints : Option LayoutConstraints
  id_ok : resourceIdOk definition.id = true
  version_ok : 1 ≤ definition.version
  props_nodup : (fields.map (·.prop)).Nodup
  props_ok : ∀ field ∈ fields, fieldIdOk field.prop = true
  defaults_declared : ∀ prop ∈ defaultProps.keys, prop ∈ fields.map (·.prop)
  defaults_valid : ∀ field ∈ fields, ∃ value, defaultProps.get? field.prop = some value ∧
    fieldValueIsValid field value = true
  defaults_ok : definition.propsOk defaultProps = true

/-- `${id}__v${version}`. -/
def bridgeKey (id : String) (version : Nat) : String := id ++ "__v" ++ toString version

def Bridge.key (bridge : Bridge) : String := bridgeKey bridge.definition.id bridge.definition.version

def fieldKey (prop : String) : String := "__kNexField:" ++ prop

def isLocked (constraints : Option LayoutConstraints) : Bool :=
  (constraints.bind (·.locked)).getD false

def includesField (constraints : Option LayoutConstraints) (prop : String) : Bool :=
  match constraints.bind (·.editableFields) with
  | none => true
  | some editable => editable.contains prop

/-- mirrors packages/builder-puck/src/adapter.ts:111-117 -/
def editableFields (bridge : Bridge) (nodeConstraints : Option LayoutConstraints) : List Field :=
  if isLocked bridge.constraints || isLocked nodeConstraints then []
  else bridge.fields.filter fun field =>
    includesField bridge.constraints field.prop && includesField nodeConstraints field.prop

/-- mirrors packages/builder-puck/src/adapter.ts:119-122 -/
def nodeCanMove (bridge : Bridge) (nodeConstraints : Option LayoutConstraints) : Bool :=
  !isLocked bridge.constraints && (bridge.constraints.bind (·.canMove)) != some false &&
    !isLocked nodeConstraints && (nodeConstraints.bind (·.canMove)) != some false

/-- mirrors packages/builder-puck/src/adapter.ts:124-127 -/
def nodeCanDelete (bridge : Bridge) (nodeConstraints : Option LayoutConstraints) : Bool :=
  !isLocked bridge.constraints && (bridge.constraints.bind (·.canDelete)) != some false &&
    !isLocked nodeConstraints && (nodeConstraints.bind (·.canDelete)) != some false

/-! ## Editor data -/

/-- mirrors packages/builder-puck/src/adapter.ts:67-76 -/
structure StoredNode where
  type : String
  version : Nat
  props : JsMap String Json
  bindings : Option Bindings
  layout : Option Layout
  engineMetadata : Option Json
  childrenPresent : Bool
  profile : ProfileId

/-- The props of a component but for the child slot. -/
structure ComponentProps where
  id : Option String
  node : Option StoredNode
  canMove : Bool
  canDelete : Bool
  fields : JsMap String Json

inductive Component where
  | plain (type : String) (props : ComponentProps)
  | slotted (type : String) (props : ComponentProps) (slot : List Component)

/-- mirrors packages/builder-puck/src/adapter.ts:78-86 -/
structure StoredDocument where
  id : String
  version : Nat
  profile : ProfileId
  canvasRegion : String
  canvasRegionPresent : Bool
  preservedRegions : JsMap String (List UiNode)

/-- `zones` are the keys of that property of the editor data. -/
structure PuckData where
  document : Option StoredDocument
  content : List Component
  zones : Option (List String)

/-- mirrors packages/builder-puck/src/adapter.ts:438-450 -/
structure Adapter where
  bridges : List Bridge
  canvasRegion : String
  keys_nodup : (bridges.map Bridge.key).Nodup
  canvasRegion_ok : fieldIdOk canvasRegion = true

/-- `bridges.get(key)`. -/
def Adapter.bridge? (adapter : Adapter) (key : String) : Option Bridge :=
  adapter.bridges.find? fun bridge => bridge.key = key

/-- `${type}@${version}`. -/
def release (type : String) (version : Nat) : String := type ++ "@" ++ toString version

/-! ## To the editor -/

/-- The members that every object inherits. -/
def objectPrototypeKeys : List String :=
  ["constructor", "hasOwnProperty", "isPrototypeOf", "propertyIsEnumerable", "toLocaleString",
    "toString", "valueOf", "__proto__", "__defineGetter__", "__defineSetter__", "__lookupGetter__",
    "__lookupSetter__"]

/-- `left ?? right ?? null`. -/
def coalesce (left right : Option Json) : Json :=
  match left with
  | none | some .null => right.getD .null
  | some value => value

/-- `cloneJson(node.props[prop] ?? bridge.defaultProps[prop] ?? null)`. A member that the props
inherit is no JSON. -/
def editorValue (bridge : Bridge) (props : JsMap String Json) (prop : String) :
    Except Thrown Json :=
  match props.get? prop with
  | none =>
    if objectPrototypeKeys.contains prop then
      throw (.typeError "$ contains unsupported function.")
    else pure (coalesce none (bridge.defaultProps.get? prop))
  | some value => pure (coalesce (some value) (bridge.defaultProps.get? prop))

/-- One round of the loop over the editable fields.
mirrors packages/builder-puck/src/adapter.ts:282-284 -/
def openField (bridge : Bridge) (props : JsMap String Json) (fields : JsMap String Json)
    (field : Field) : Except Thrown (JsMap String Json) := do
  let value ← editorValue bridge props field.prop
  pure (fields.set (fieldKey field.prop) value)

/-- mirrors packages/builder-puck/src/adapter.ts:256-267 -/
def storedNode (data : NodeData) (childrenPresent : Bool) (profile : ProfileId) : StoredNode where
  type := data.type
  version := data.version
  props := data.props
  bindings := data.bindings
  layout := data.layout
  engineMetadata := data.engineMetadata
  childrenPresent := childrenPresent
  profile := profile

def NodeData.constraints (data : NodeData) : Option LayoutConstraints :=
  data.layout.bind (·.constraints)

def StoredNode.constraints (node : StoredNode) : Option LayoutConstraints :=
  node.layout.bind (·.constraints)

/-- `toComponent` up to the child slot.
mirrors packages/builder-puck/src/adapter.ts:269-284 -/
def openNode (adapter : Adapter) (profile : ProfileId) (data : NodeData) (childrenPresent : Bool) :
    Except Thrown (Bridge × ComponentProps) :=
  match adapter.bridge? (bridgeKey data.type data.version) with
  | none => throw (.typeError
      ("No Puck bridge is registered for " ++ release data.type data.version ++ "."))
  | some bridge =>
    if bridge.definition.propsOk data.props then do
      let fields ← (editableFields bridge data.constraints).foldlM (openField bridge data.props)
        JsMap.empty
      pure (bridge,
        { id := some data.id
          node := some (storedNode data childrenPresent profile)
          canMove := nodeCanMove bridge data.constraints
          canDelete := nodeCanDelete bridge data.constraints
          fields })
    else throw (.typeError
      ("Canonical props are invalid for " ++ release data.type data.version ++ "."))

mutual

/-- mirrors packages/builder-puck/src/adapter.ts:269-288 -/
def toComponent (adapter : Adapter) (profile : ProfileId) : UiNode → Except Thrown Component
  | .leaf data => do
    let (bridge, props) ← openNode adapter profile data false
    let key := bridgeKey data.type data.version
    if bridge.allowChildren then pure (.slotted key props []) else pure (.plain key props)
  | .branch data children => do
    let (bridge, props) ← openNode adapter profile data true
    let key := bridgeKey data.type data.version
    if bridge.allowChildren then do
      let slot ← toComponents adapter profile children
      pure (.slotted key props slot)
    else if 0 < children.length then throw (.typeError
      ("Puck bridge " ++ release data.type data.version ++ " does not allow children."))
    else pure (.plain key props)

def toComponents (adapter : Adapter) (profile : ProfileId) :
    List UiNode → Except Thrown (List Component)
  | [] => pure []
  | node :: nodes => do
    let component ← toComponent adapter profile node
    let components ← toComponents adapter profile nodes
    pure (component :: components)

end

/-- `parsed.regions[canvasRegion] ?? []`, whose `map` an inherited member lacks. -/
def Adapter.canvasNodes (adapter : Adapter) (parsed : UiDocument) : Except Thrown (List UiNode) :=
  match parsed.regions.get? adapter.canvasRegion with
  | some nodes => pure nodes
  | none =>
    if objectPrototypeKeys.contains adapter.canvasRegion then
      throw (.typeError "(parsed.regions[canvasRegion] ?? []).map is not a function")
    else pure []

/-- mirrors packages/builder-puck/src/adapter.ts:454-470 -/
def Adapter.toPuckData (adapter : Adapter) (schema : Schema) (value : UiDocument) :
    Except Thrown PuckData := do
  let parsed ← schema.parse value
  let nodes ← adapter.canvasNodes parsed
  let content ← toComponents adapter parsed.profile nodes
  pure
    { document := some
        { id := parsed.id
          version := parsed.version
          profile := parsed.profile
          canvasRegion := adapter.canvasRegion
          canvasRegionPresent := (parsed.regions.get? adapter.canvasRegion).isSome
          preservedRegions := parsed.regions.filter fun region _ => region ≠ adapter.canvasRegion }
      content
      zones := none }

/-! ## From the editor -/

/-- The value of a field before any edit, as the editor shows it.
mirrors packages/builder-puck/src/adapter.ts:314-318 -/
def originalEditorValue (bridge : Bridge) (props : JsMap String Json) (field : Field) : Json :=
  match (props.get? field.prop).filter (fieldValueIsValid field) with
  | some value => value
  | none => (bridge.defaultProps.get? field.prop).getD .null

/-- `hadCanonicalValue && fieldValueIsValid(field, canonicalValue)`. -/
def hadValidValue (props : JsMap String Json) (field : Field) : Bool :=
  ((props.get? field.prop).filter (fieldValueIsValid field)).isSome

/-- One round of the loop over the editable fields.
mirrors packages/builder-puck/src/adapter.ts:309-322 -/
def restoreField (bridge : Bridge) (stored fields props : JsMap String Json) (field : Field) :
    Except Thrown (JsMap String Json) :=
  match fields.get? (fieldKey field.prop) with
  | none => throw (.typeError ("Puck component field is missing: " ++ field.prop ++ "."))
  | some edited =>
    if ¬ fieldValueIsValid field edited then
      throw (.typeError ("Puck component field has an invalid value: " ++ field.prop ++ "."))
    else if hadValidValue stored field ∨
        edited.canonicalJson ≠ (originalEditorValue bridge stored field).canonicalJson then
      pure (props.set field.prop edited)
    else pure props

/-- mirrors packages/builder-puck/src/adapter.ts:290-297 -/
def parseStoredNode (node : Option StoredNode) : Except Thrown StoredNode :=
  match node with
  | none => throw (.typeError "Puck component metadata is invalid.")
  | some node =>
    if resourceIdOk node.type ∧ (node.version : Int) ≤ Json.maxSafeInteger then pure node
    else throw (.typeError "Puck component metadata is invalid.")

/-- `fromComponent` up to the child slot.
mirrors packages/builder-puck/src/adapter.ts:299-322 -/
def closeNode (adapter : Adapter) (type : String) (props : ComponentProps) :
    Except Thrown (Bridge × String × StoredNode × JsMap String Json) :=
  match props.id with
  | none => throw (.typeError "Puck component data is invalid.")
  | some id =>
    match adapter.bridge? type with
    | none => throw (.typeError ("Unknown Puck component type: " ++ type ++ "."))
    | some bridge => do
      let metadata ← parseStoredNode props.node
      if metadata.type ≠ bridge.definition.id ∨ metadata.version ≠ bridge.definition.version then
        throw (.typeError "Puck component identity does not match canonical metadata.")
      else do
        let restored ← (editableFields bridge metadata.constraints).foldlM
          (restoreField bridge metadata.props props.fields) metadata.props
        pure (bridge, id, metadata, restored)

/-- The last branch is not reached: `closeNode` has checked the metadata.
mirrors packages/builder-puck/src/adapter.ts:328-341 -/
def buildNode (bridge : Bridge) (id : String) (metadata : StoredNode)
    (props : JsMap String Json) (children : List UiNode) : Except Thrown UiNode :=
  if bridge.definition.propsOk props then
    if h : resourceIdOk metadata.type = true ∧ (metadata.version : Int) ≤ Json.maxSafeInteger then
      let data : NodeData :=
        { id
          type := metadata.type
          version := metadata.version
          props
          bindings := metadata.bindings
          layout := metadata.layout
          engineMetadata := metadata.engineMetadata
          type_ok := h.1
          version_ok := h.2 }
      if metadata.childrenPresent ∨ 0 < children.length then pure (.branch data children)
      else pure (.leaf data)
    else throw .zodError
  else throw (.typeError
    ("Edited props are invalid for " ++ release metadata.type metadata.version ++ "."))

mutual

/-- mirrors packages/builder-puck/src/adapter.ts:299-342 -/
def fromComponent (adapter : Adapter) : Component → Except Thrown UiNode
  | .plain type props => do
    let (bridge, id, metadata, restored) ← closeNode adapter type props
    if bridge.allowChildren then throw (.typeError "Puck child slot data is missing.")
    else buildNode bridge id metadata restored []
  | .slotted type props slot => do
    let (bridge, id, metadata, restored) ← closeNode adapter type props
    if ¬ bridge.allowChildren then
      throw (.typeError "Puck child slot data is forbidden for this block.")
    else do
      let children ← fromComponents adapter slot
      buildNode bridge id metadata restored children

def fromComponents (adapter : Adapter) : List Component → Except Thrown (List UiNode)
  | [] => pure []
  | component :: components => do
    let node ← fromComponent adapter component
    let nodes ← fromComponents adapter components
    pure (node :: nodes)

end

/-- mirrors packages/builder-puck/src/adapter.ts:344-352 -/
def parseStoredDocument (document : Option StoredDocument) : Except Thrown StoredDocument :=
  match document with
  | none => throw (.typeError "Puck root document metadata is invalid.")
  | some document =>
    if (document.version : Int) ≤ Json.maxSafeInteger then pure document
    else throw (.typeError "Puck root document metadata is invalid.")

/-- The last branch is not reached: `parseStoredDocument` has checked the version.
mirrors packages/builder-puck/src/adapter.ts:471-489 -/
def Adapter.fromPuckData (adapter : Adapter) (schema : Schema) (data : PuckData) :
    Except Thrown UiDocument := do
  if data.zones.any (0 < ·.length) then throw (.typeError "Puck data is invalid.")
  else
    let metadata ← parseStoredDocument data.document
    if metadata.canvasRegion ≠ adapter.canvasRegion then
      throw (.typeError "Puck data targets a different canvas region.")
    else
      let canvasNodes ← fromComponents adapter data.content
      if h : (metadata.version : Int) ≤ Json.maxSafeInteger then
        schema.parse
          { id := metadata.id
            version := metadata.version
            profile := metadata.profile
            regions :=
              if metadata.canvasRegionPresent ∨ 0 < canvasNodes.length then
                metadata.preservedRegions.set adapter.canvasRegion canvasNodes
              else metadata.preservedRegions
            version_ok := h }
      else throw .zodError

end KNex.Builder
