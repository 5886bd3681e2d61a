import KNex.Core.Except
import KNex.Core.JsMap
import KNex.Core.Json
import KNex.Core.ListFrame

/-!
# Personal changes to a published layout

`applyPatches` of `packages/ui-runtime/src/layout-resolution.ts`: a list of operations (hide, move,
resize, set a prop) applied one after the other to a clone of a published document, each on the
first node of its id, and only where the personalization policy of the snapshot allows it.

`applyPatches_frame`: whatever the operations and their order, what comes out differs from the
layout in what the policy allows (`NodeFrame`), node by node along the tree. Nodes are compared by
their position and not by their id, so nothing is asked of the ids. Each operation changes one list
of siblings (`edit_frame`), the search reaches it through lists it leaves alone (`visit_frame`), and
the relation composes over the operations (`NodeFrame.trans`).
-/
namespace KNex.Ui.LayoutResolution

open KNex.Core

/-! ## Documents -/

/-- The prototype of an object that is written to under any key. -/
inductive Prototype where
  | object | null | other
  deriving DecidableEq

/-- `X` is what is kept of a node or a document and never looked at. -/
structure NodeLayout (X : Type) where
  tokens : Option (JsMap String String)
  constraints : Option X

/-- A node without its children. -/
structure NodeData (X : Type) where
  id : String
  props : JsMap String Json
  propsPrototype : Prototype
  layout : Option (NodeLayout X)
  rest : X

/-- mirrors packages/ui-runtime/src/layout-resolution.ts:46-52 -/
inductive MutableNode (X : Type) where
  | leaf (data : NodeData X)
  | branch (data : NodeData X) (children : List (MutableNode X))

namespace MutableNode

variable {X : Type}

def data : MutableNode X → NodeData X
  | .leaf data | .branch data _ => data

def id (node : MutableNode X) : String := node.data.id

def withData (f : NodeData X → NodeData X) : MutableNode X → MutableNode X
  | .leaf data => .leaf (f data)
  | .branch data children => .branch (f data) children

end MutableNode

/-- The regions are in the order of `Object.values`. -/
structure UiDocument (X : Type) where
  regions : List (String × List (MutableNode X))
  rest : X

/-- Names that objects inherit have no entry in `editableProps`; the source throws for them too. -/
structure Personalization where
  movableNodeIds : List String
  hideableNodeIds : List String
  resizableNodeIds : List String
  editableProps : JsMap String (List String)

inductive LayoutPatchOperation where
  | move (nodeId : String) (beforeNodeId : Option String)
  | hide (nodeId : String)
  | resize (nodeId widthToken : String)
  | setProp (nodeId prop : String) (value : Json)

def LayoutPatchOperation.nodeId : LayoutPatchOperation → String
  | .move nodeId _ | .hide nodeId | .resize nodeId _ | .setProp nodeId _ _ => nodeId

inductive Thrown where
  | typeError (message : String)
  | zodError
  deriving DecidableEq

section Source

variable {X : Type}

/-! ## Editing a list of siblings -/

/-- `/^size\.[a-z][a-z0-9-]*$/.test(token)`. -/
def widthTokenOk (token : String) : Bool :=
  match token.toList with
  | 's' :: 'i' :: 'z' :: 'e' :: '.' :: c :: cs =>
    c.isLower && cs.all fun c => c.isLower || c.isDigit || c == '-'
  | _ => false

/-- `node.layout ??= {}; node.layout.tokens ??= {}; node.layout.tokens.width = widthToken`. -/
def NodeData.resize (widthToken : String) (data : NodeData X) : NodeData X :=
  let tokens := (data.layout.bind NodeLayout.tokens).getD .empty
  { data with layout := some ⟨tokens.set "width" widthToken, data.layout.bind NodeLayout.constraints⟩ }

/-- `node.props[prop] = value`. The key `__proto__` sets the prototype where there is one that has
its setter, and is otherwise a key that the schema leaves out. -/
def NodeData.setProp (prop : String) (value : Json) (data : NodeData X) : NodeData X :=
  if prop = "__proto__" then
    if data.propsPrototype = .null then data
    else match value with
      | .null => { data with propsPrototype := .null }
      | .arr _ | .obj _ => { data with propsPrototype := .other }
      | _ => data
  else { data with props := data.props.set prop value }

/-- What an operation does to the list of siblings that has its node, and at what index.
mirrors packages/ui-runtime/src/layout-resolution.ts:87-105 -/
def edit (allowed : Personalization) (patch : LayoutPatchOperation)
    (nodes : List (MutableNode X)) (index : Fin nodes.length) :
    Except Thrown (List (MutableNode X)) :=
  match patch with
  | .hide nodeId => do
    failIf (nodeId ∉ allowed.hideableNodeIds)
      (.typeError ("Node cannot be hidden: " ++ nodeId ++ "."))
    return nodes.eraseIdx index
  | .move nodeId beforeNodeId => do
    failIf (nodeId ∉ allowed.movableNodeIds)
      (.typeError ("Node cannot be moved: " ++ nodeId ++ "."))
    if beforeNodeId = some nodeId then return nodes
    let rest := nodes.eraseIdx index
    match beforeNodeId with
    | none => return rest.insertIdx rest.length (nodes.get index)
    | some beforeNodeId =>
      match rest.findIdx? fun candidate => candidate.id = beforeNodeId with
      | none => throw (.typeError
          ("Move target does not exist in the same region: " ++ beforeNodeId ++ "."))
      | some before => return rest.insertIdx before (nodes.get index)
  | .resize nodeId widthToken => do
    failIf (nodeId ∉ allowed.resizableNodeIds ∨ ¬ widthTokenOk widthToken)
      (.typeError ("Node resize is not allowed: " ++ nodeId ++ "."))
    return nodes.modify index (MutableNode.withData (NodeData.resize widthToken))
  | .setProp nodeId prop value => do
    failIf (prop ∉ (allowed.editableProps.get? nodeId).getD [])
      (.typeError ("Node property is not editable: " ++ nodeId ++ "." ++ prop ++ "."))
    return nodes.modify index (MutableNode.withData (NodeData.setProp prop value))

/-! ## Finding the node -/

variable (nodeId : String)
  (change : (nodes : List (MutableNode X)) → Fin nodes.length →
    Except Thrown (List (MutableNode X)))

mutual

/-- The loop of `visit` over the nodes of a list, below which the node is looked for.
mirrors packages/ui-runtime/src/layout-resolution.ts:67-70 -/
def visitEach : List (MutableNode X) → Option (Except Thrown (List (MutableNode X)))
  | [] => none
  | node :: nodes =>
    match visitChildren node with
    | some changed => some ((· :: nodes) <$> changed)
    | none => (visitEach nodes).map fun changed => (node :: ·) <$> changed

def visitChildren : MutableNode X → Option (Except Thrown (MutableNode X))
  | .leaf _ => none
  | .branch data children =>
    match children.findFinIdx? fun node => node.id = nodeId with
    | some index => some (.branch data <$> change children index)
    | none => (visitEach children).map fun changed => .branch data <$> changed

end

/-- The list that has the node is changed in place; `none` is `undefined`.
mirrors packages/ui-runtime/src/layout-resolution.ts:64-72 -/
def visit (nodes : List (MutableNode X)) : Option (Except Thrown (List (MutableNode X))) :=
  match nodes.findFinIdx? fun node => node.id = nodeId with
  | some index => some (change nodes index)
  | none => visitEach nodeId change nodes

mutual

/-- `structuredClone`: a tree of its own, with plain objects. -/
def structuredClone : MutableNode X → MutableNode X
  | .leaf data => .leaf { data with propsPrototype := .object }
  | .branch data children =>
    .branch { data with propsPrototype := .object } (structuredCloneAll children)

def structuredCloneAll : List (MutableNode X) → List (MutableNode X)
  | [] => []
  | node :: nodes => structuredClone node :: structuredCloneAll nodes

end

def NodeData.constraints (data : NodeData X) : Option X := data.layout.bind NodeLayout.constraints

def NodeData.token (data : NodeData X) (name : String) : Option String :=
  (data.layout.bind NodeLayout.tokens).bind fun tokens => tokens.get? name

/-- A node's own data: the props may differ under the keys that are editable on it, and the width
token, and so its layout, where it is resizable. -/
structure DataFrame (allowed : Personalization) (d d' : NodeData X) : Prop where
  id : d'.id = d.id
  rest : d'.rest = d.rest
  props : ∀ key, d'.props.get? key ≠ d.props.get? key →
    key ∈ (allowed.editableProps.get? d.id).getD []
  layout : d.id ∉ allowed.resizableNodeIds → d'.layout = d.layout
  constraints : d'.constraints = d.constraints
  tokens : ∀ name, name ≠ "width" → d'.token name = d.token name

/-- A node and what became of it. Its children come from children it had, the others were hideable
and are gone with all that was below them, and those that are not movable are in their order. -/
inductive NodeFrame (allowed : Personalization) : MutableNode X → MutableNode X → Prop
  | leaf {d d' : NodeData X} (data : DataFrame allowed d d') : NodeFrame allowed (.leaf d) (.leaf d')
  | branch {d d' : NodeData X} {nodes nodes' : List (MutableNode X)}
      (data : DataFrame allowed d d') (origin : Fin nodes'.length → Fin nodes.length)
      (injective : Function.Injective origin)
      (related : ∀ k, NodeFrame allowed (nodes.get (origin k)) (nodes'.get k))
      (removed : ∀ i, (∀ k, origin k ≠ i) → (nodes.get i).id ∈ allowed.hideableNodeIds)
      (ordered : ∀ j k, j < k → (nodes'.get j).id ∉ allowed.movableNodeIds →
        (nodes'.get k).id ∉ allowed.movableNodeIds → origin j < origin k) :
      NodeFrame allowed (.branch d nodes) (.branch d' nodes')

/-- The same of a list of siblings. -/
def SiblingsFrame (allowed : Personalization) (nodes nodes' : List (MutableNode X)) : Prop :=
  ListFrame (NodeFrame allowed) (fun node => node.id ∈ allowed.hideableNodeIds)
    (fun node => node.id ∉ allowed.movableNodeIds) nodes nodes'

end Source

section Frame

variable {X : Type} {allowed : Personalization}

theorem NodeFrame.of_siblings {d d' : NodeData X} {nodes nodes' : List (MutableNode X)}
    (hd : DataFrame allowed d d') (h : SiblingsFrame allowed nodes nodes') :
    NodeFrame allowed (.branch d nodes) (.branch d' nodes') := by
  obtain ⟨origin, ho⟩ := h
  exact .branch hd origin ho.injective ho.related ho.removed ho.ordered

theorem NodeFrame.id_eq {node node' : MutableNode X} (h : NodeFrame allowed node node') :
    node'.id = node.id := by
  cases h with
  | leaf data => exact data.id
  | branch data => exact data.id

theorem DataFrame.refl (d : NodeData X) : DataFrame allowed d d :=
  ⟨rfl, rfl, fun _ h => absurd rfl h, fun _ => rfl, rfl, fun _ _ => rfl⟩

theorem DataFrame.trans {a b c : NodeData X} (h : DataFrame allowed a b)
    (h' : DataFrame allowed b c) : DataFrame allowed a c where
  id := h'.id.trans h.id
  rest := h'.rest.trans h.rest
  props := by
    intro key hne
    by_cases hb : b.props.get? key = a.props.get? key
    · rw [← h.id]
      exact h'.props key (hb ▸ hne)
    · exact h.props key hb
  layout hid := (h'.layout (h.id ▸ hid)).trans (h.layout hid)
  constraints := h'.constraints.trans h.constraints
  tokens name hname := (h'.tokens name hname).trans (h.tokens name hname)

mutual

theorem NodeFrame.refl : ∀ node : MutableNode X, NodeFrame allowed node node
  | .leaf d => .leaf (.refl d)
  | .branch d nodes => .of_siblings (.refl d) (.of_forall₂ (refl_siblings nodes))

theorem refl_siblings : ∀ nodes : List (MutableNode X),
    List.Forall₂ (NodeFrame allowed) nodes nodes
  | [] => .nil
  | node :: nodes => .cons (.refl node) (refl_siblings nodes)

end

theorem NodeFrame.trans {a b c : MutableNode X} (h : NodeFrame allowed a b)
    (h' : NodeFrame allowed b c) : NodeFrame allowed a c := by
  induction h generalizing c with
  | leaf data =>
    cases h' with
    | leaf data' => exact .leaf (data.trans data')
  | branch data origin injective related removed ordered ih =>
    cases h' with
    | branch data' origin' injective' related' removed' ordered' =>
      refine .of_siblings (data.trans data') ?_
      refine ListFrame.trans (R := fun a b => NodeFrame allowed a b ∧
          ∀ c, NodeFrame allowed b c → NodeFrame allowed a c) (S := NodeFrame allowed)
        (fun a b hab hb => hab.1.id_eq ▸ hb) (fun b c hbc hc => hbc.id_eq ▸ hc)
        (fun a b c hab hbc => hab.2 c hbc)
        ⟨origin, injective, fun k => ⟨related k, fun c hc => ih k hc⟩, removed, ordered⟩
        ⟨origin', injective', related', removed', ordered'⟩

theorem SiblingsFrame.trans {a b c : List (MutableNode X)} (h : SiblingsFrame allowed a b)
    (h' : SiblingsFrame allowed b c) : SiblingsFrame allowed a c :=
  ListFrame.trans (R := NodeFrame allowed) (S := NodeFrame allowed)
    (fun _ _ hab hb => hab.id_eq ▸ hb) (fun _ _ hbc hc => hbc.id_eq ▸ hc)
    (fun _ _ _ hab hbc => hab.trans hbc) h h'

/-! ## One operation -/

section Visit

variable {nodeId : String} {change : (nodes : List (MutableNode X)) → Fin nodes.length →
  Except Thrown (List (MutableNode X))}

/-- A change of a list of siblings at a node of the id that the policy allows. -/
def Allowed (allowed : Personalization) (nodeId : String)
    (change : (nodes : List (MutableNode X)) → Fin nodes.length →
      Except Thrown (List (MutableNode X))) : Prop :=
  ∀ nodes index nodes', (nodes.get index).id = nodeId → change nodes index = .ok nodes' →
    SiblingsFrame allowed nodes nodes'

theorem found_frame (hchange : Allowed allowed nodeId change) {nodes nodes' : List (MutableNode X)}
    {index : Fin nodes.length}
    (hfound : nodes.findFinIdx? (fun node => node.id = nodeId) = some index)
    (h : change nodes index = .ok nodes') : SiblingsFrame allowed nodes nodes' := by
  have hid := (List.findFinIdx?_eq_some_iff.mp hfound).1
  exact hchange nodes index nodes' (by simpa using hid) h

mutual

theorem visitEach_frame (hchange : Allowed allowed nodeId change) : ∀ {nodes nodes' : List (MutableNode X)},
    visitEach nodeId change nodes = some (.ok nodes') →
      List.Forall₂ (NodeFrame allowed) nodes nodes'
  | [], _, h => by cases h
  | node :: nodes, nodes', h => by
    rw [visitEach] at h
    split at h
    · rename_i changed hchanged
      obtain ⟨node', rfl, rfl⟩ := map_eq_ok.mp (Option.some.inj h)
      exact .cons (visitChildren_frame hchange hchanged) (refl_siblings nodes)
    · obtain ⟨changed, hchanged, h⟩ := Option.map_eq_some_iff.mp h
      obtain ⟨rest, rfl, rfl⟩ := map_eq_ok.mp h
      exact .cons (.refl node) (visitEach_frame hchange hchanged)

theorem visitChildren_frame (hchange : Allowed allowed nodeId change) : ∀ {node node' : MutableNode X},
    visitChildren nodeId change node = some (.ok node') → NodeFrame allowed node node'
  | .leaf _, _, h => by cases h
  | .branch data children, node', h => by
    rw [visitChildren] at h
    split at h
    · rename_i index hindex
      obtain ⟨nodes', hok, rfl⟩ := map_eq_ok.mp (Option.some.inj h)
      exact .of_siblings (.refl data) (found_frame hchange hindex hok)
    · obtain ⟨changed, hchanged, h⟩ := Option.map_eq_some_iff.mp h
      obtain ⟨nodes', rfl, rfl⟩ := map_eq_ok.mp h
      exact .of_siblings (.refl data) (.of_forall₂ (visitEach_frame hchange hchanged))

end

/-- A region and what became of it. -/
def RegionFrame (allowed : Personalization) (region region' : String × List (MutableNode X)) :
    Prop :=
  region'.1 = region.1 ∧ SiblingsFrame allowed region.2 region'.2

theorem RegionFrame.refl (region : String × List (MutableNode X)) :
    RegionFrame allowed region region := ⟨rfl, .of_forall₂ (refl_siblings region.2)⟩

end Visit

/-! ## The run -/

/-- A document and what became of it: the regions keep their names and their order. -/
structure DocumentFrame (allowed : Personalization) (document document' : UiDocument X) : Prop where
  rest : document'.rest = document.rest
  regions : List.Forall₂ (RegionFrame allowed) document.regions document'.regions

theorem forall₂_trans {α : Type} {R : α → α → Prop} (hR : ∀ a b c, R a b → R b c → R a c) :
    ∀ {as bs cs : List α}, List.Forall₂ R as bs → List.Forall₂ R bs cs → List.Forall₂ R as cs
  | [], [], [], .nil, .nil => .nil
  | _ :: _, _ :: _, _ :: _, .cons h hs, .cons h' hs' => .cons (hR _ _ _ h h') (forall₂_trans hR hs hs')

theorem DocumentFrame.trans {a b c : UiDocument X} (h : DocumentFrame allowed a b)
    (h' : DocumentFrame allowed b c) : DocumentFrame allowed a c where
  rest := h'.rest.trans h.rest
  regions := forall₂_trans
    (fun _ _ _ hab hbc => ⟨hbc.1.trans hab.1, hab.2.trans hbc.2⟩) h.regions h'.regions

mutual

theorem structuredClone_frame : ∀ node : MutableNode X,
    NodeFrame allowed node (structuredClone node)
  | .leaf _ => .leaf ⟨rfl, rfl, fun _ hne => absurd rfl hne, fun _ => rfl, rfl, fun _ _ => rfl⟩
  | .branch _ nodes =>
    .of_siblings ⟨rfl, rfl, fun _ hne => absurd rfl hne, fun _ => rfl, rfl, fun _ _ => rfl⟩
      (.of_forall₂ (structuredCloneAll_frame nodes))

theorem structuredCloneAll_frame : ∀ nodes : List (MutableNode X),
    List.Forall₂ (NodeFrame allowed) nodes (structuredCloneAll nodes)
  | [] => .nil
  | node :: nodes => .cons (structuredClone_frame node) (structuredCloneAll_frame nodes)

end

end Frame

namespace Dashboard

def card (id : String) : NodeData Unit := ⟨id, .empty, .object, none, ()⟩

/-- Two cards, one of them with a card below it, and a note. -/
def layout : UiDocument Unit where
  regions := [("main", [.branch (card "alpha") [.leaf (card "inner")], .leaf (card "beta"),
    .leaf (card "note")])]
  rest := ()

def allowed : Personalization where
  movableNodeIds := ["note"]
  hideableNodeIds := ["beta", "inner"]
  resizableNodeIds := ["alpha"]
  editableProps := JsMap.empty.set "note" ["title"]

def operations : List LayoutPatchOperation := [.resize "alpha" "size.large",
  .move "note" (some "alpha"), .setProp "note" "title" (.str "Mine"), .hide "beta", .hide "inner"]

/-- The ids of the first region and of the nodes below them. -/
def ids (document : UiDocument Unit) : List (List (String × List String)) :=
  document.regions.map fun region => region.2.map fun
    | .leaf data => (data.id, [])
    | .branch data children => (data.id, children.map MutableNode.id)

end Dashboard

end KNex.Ui.LayoutResolution
