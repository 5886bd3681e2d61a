import KNex.Builder.PuckAdapter

/-!
# Builder profiles

`packages/builder-puck/src/profile.ts`: a profile puts a policy around the adapter. Every document
that goes to the editor or comes back has to be of the profile, to use its blocks, sources and
actions only, and to keep the structural constraints of the blocks and of the nodes. The blocks of
the profile are those of its adapter, with the constraints of both.
-/
namespace KNex.Builder

open KNex.Core KNex.Contracts

structure BuilderProfile where
  id : ProfileId
  adapter : Adapter
  sources : List ResourceRef
  actions : List ResourceRef

def intersect (left right : Option (List String)) : Option (List String) :=
  match left, right with
  | none, right => right
  | some left, none => some left
  | some left, some right => some (left.filter right.contains)

def combineWith (f : Nat → Nat → Nat) (left right : Option Nat) : Option Nat :=
  match left, right with
  | none, right => right
  | some left, none => some left
  | some left, some right => some (f left right)

/-- mirrors packages/builder-puck/src/profile.ts:68-86 -/
def combineConstraints (left right : Option LayoutConstraints) : Option LayoutConstraints :=
  match left, right with
  | none, right => right
  | some left, none => some left
  | some left, some right => some
    { locked := some (left.locked == some true || right.locked == some true)
      canDelete := some (left.canDelete != some false && right.canDelete != some false)
      canMove := some (left.canMove != some false && right.canMove != some false)
      canResize := some (left.canResize != some false && right.canResize != some false)
      editableFields := intersect left.editableFields right.editableFields
      allowedChildren := intersect left.allowedChildren right.allowedChildren
      minChildren := combineWith max left.minChildren right.minChildren
      maxChildren := combineWith min left.maxChildren right.maxChildren }

def effectiveConstraints (bridge : Bridge) (node : UiNode) : Option LayoutConstraints :=
  combineConstraints bridge.constraints node.data.constraints

/-- `blockDefinitions.get(key)`, which files the blocks by `${id}@${version}`. -/
def BuilderProfile.block? (profile : BuilderProfile) (node : UiNode) : Option Bridge :=
  profile.adapter.bridges.find? fun bridge =>
    bridge.definition.id = node.data.type ∧ bridge.definition.version = node.data.version

/-- One visit of the structural check.
mirrors packages/builder-puck/src/profile.ts:108-121 -/
def assertStructure (profile : BuilderProfile) (node : UiNode) : Except Thrown Unit :=
  match profile.block? node with
  | none => throw (.typeError "Cannot read properties of undefined (reading 'constraints')")
  | some bridge =>
    let constraints := effectiveConstraints bridge node
    if node.children.length < ((constraints.bind (·.minChildren)).getD 0) then
      throw (.typeError ("Block " ++ node.data.id ++ " has too few children."))
    else if ((constraints.bind (·.maxChildren)).getD node.children.length) < node.children.length then
      throw (.typeError ("Block " ++ node.data.id ++ " has too many children."))
    else if node.children.any fun child =>
        ((constraints.bind (·.allowedChildren)).map fun allowed =>
          !allowed.contains child.data.type).getD false then
      throw (.typeError ("Block " ++ node.data.id ++ " contains a forbidden child."))
    else pure ()

/-- One visit of the policy check.
mirrors packages/builder-puck/src/profile.ts:192-212 -/
def assertPolicy (profile : BuilderProfile) (node : UiNode) : Except Thrown Unit :=
  let key := release node.data.type node.data.version
  match profile.block? node with
  | none => throw (.typeError
      ("Puck " ++ profile.id.text ++ " profile forbids block " ++ key ++ "."))
  | some bridge =>
    if ¬ bridge.definition.propsOk node.data.props then throw (.typeError
      ("Puck " ++ profile.id.text ++ " profile rejects props for " ++ key ++ "."))
    else do
      match node.data.bindings.bind (·.source) with
      | none => pure ()
      | some binding =>
        if profile.sources.contains binding.source then pure () else throw (.typeError
          ("Puck " ++ profile.id.text ++ " profile forbids source " ++
            release binding.source.id binding.source.version ++ "."))
      match node.data.bindings.bind (·.action) with
      | none => pure ()
      | some action =>
        if bridge.definition.actions.contains action && profile.actions.contains action then pure ()
        else throw (.typeError
          ("Puck " ++ profile.id.text ++ " profile forbids action " ++
            release action.id action.version ++ "."))

/-- The nodes of all regions, in the order of the visits. -/
def UiDocument.nodes (document : UiDocument) : List UiNode :=
  document.regions.entries.flatMap fun region => UiNode.allOf region.2

/-- mirrors packages/builder-puck/src/profile.ts:183-216 -/
def assertDocumentPolicy (schema : Schema) (profile : BuilderProfile) (value : UiDocument) :
    Except Thrown UiDocument := do
  let document ← schema.parse value
  if document.profile ≠ profile.id then throw (.typeError
    ("Puck " ++ profile.id.text ++ " profile cannot edit a " ++ document.profile.text ++
      " document."))
  else
    forM document.nodes (assertPolicy profile)
    forM document.nodes (assertStructure profile)
    pure document

/-- mirrors packages/builder-puck/src/profile.ts:314 -/
def BuilderProfile.toPuckData (profile : BuilderProfile) (schema : Schema) (document : UiDocument) :
    Except Thrown PuckData := do
  let document ← assertDocumentPolicy schema profile document
  profile.adapter.toPuckData schema document

/-- mirrors packages/builder-puck/src/profile.ts:315 -/
def BuilderProfile.fromPuckData (profile : BuilderProfile) (schema : Schema) (data : PuckData) :
    Except Thrown UiDocument := do
  let document ← profile.adapter.fromPuckData schema data
  assertDocumentPolicy schema profile document

end KNex.Builder
