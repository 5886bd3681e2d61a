import KNex.Builder.PuckProfile

/-!
# Opening a document and saving it unchanged

`fromPuckData` undoes `toPuckData` on a document exactly when the editor can show every value that
may be edited (`Keeps`): a value other than `null` is valid for its field, and a `null` that is valid
is the default too. Both gaps are in `toComponent`: it shows the stored value of a field even where
the field cannot hold it, so the component is rejected on the way back, and `??` takes the default
for a stored `null`, which `fromComponent` then writes over it.

The argument goes up the structure: one field (`keepsField_iff`), the loop over the fields of a node
(`restore_iff`), a node and a list of nodes (`fromComponent_iff`, by recursion on the document), the
regions (`adapter_roundTrip_iff`), and the profile (`round_trip_iff`).
-/
namespace KNex.Builder

open KNex.Core KNex.Contracts

/-! ## One field -/

/-- The editor hands the value of the field back as it was. -/
def KeepsField (bridge : Bridge) (props : JsMap String Json) (field : Field) : Prop :=
  match props.get? field.prop with
  | none => True
  | some .null =>
    fieldValueIsValid field .null = true → bridge.defaultProps.get? field.prop = some .null
  | some value => fieldValueIsValid field value = true

/-- No value of an editable field of the node is changed or rejected. -/
def UiNode.Keeps (adapter : Adapter) (node : UiNode) : Prop :=
  ∀ bridge, adapter.bridge? (bridgeKey node.data.type node.data.version) = some bridge →
    ∀ field ∈ editableFields bridge node.data.constraints, KeepsField bridge node.data.props field

theorem fieldKey_injective {a b : String} (h : fieldKey a = fieldKey b) : a = b := by
  unfold fieldKey at h
  rw [← String.toList_inj, String.toList_append, String.toList_append,
    List.append_cancel_left_eq] at h
  exact String.toList_inj.mp h

theorem editable_mem {bridge : Bridge} {constraints : Option LayoutConstraints} {field : Field}
    (h : field ∈ editableFields bridge constraints) : field ∈ bridge.fields := by
  unfold editableFields at h
  split at h
  · cases h
  · exact (List.mem_filter.mp h).1

/-- A value that is shown and was not there before is the default. -/
theorem originalEditorValue_of_not_valid {bridge : Bridge} {props : JsMap String Json}
    {field : Field} (h : hadValidValue props field = false) :
    originalEditorValue bridge props field = (bridge.defaultProps.get? field.prop).getD .null := by
  unfold hadValidValue at h
  unfold originalEditorValue
  rw [Option.isSome_eq_false_iff, Option.isNone_iff_eq_none] at h
  rw [h]

/-- The value shown for a field is kept when it is valid, and is the stored one where that is
valid. -/
theorem keepsField_iff {bridge : Bridge} {props : JsMap String Json} {field : Field} {edited : Json}
    (hf : field ∈ bridge.fields) (he : editorValue bridge props field.prop = .ok edited) :
    KeepsField bridge props field ↔ fieldValueIsValid field edited = true ∧
      (hadValidValue props field = true → props.get? field.prop = some edited) := by
  obtain ⟨value, hdefault, hvalid⟩ := bridge.defaults_valid field hf
  unfold KeepsField hadValidValue
  unfold editorValue at he
  cases hp : props.get? field.prop with
  | none =>
    rw [hp] at he
    dsimp only at he
    split at he
    · cases he
    · obtain rfl := Except.ok.inj he
      simp [coalesce, hdefault, hvalid]
  | some own =>
    rw [hp] at he
    obtain rfl := Except.ok.inj he
    cases own with
    | null =>
      simp only [coalesce, hdefault, Option.getD_some, hvalid, true_and, Option.isSome_filter,
        Option.any_some, Option.some.injEq]
      exact ⟨fun h hn => (h hn).symm, fun h hn => (h hn).symm⟩
    | bool b => simp [coalesce]
    | num n => simp [coalesce]
    | str s => simp [coalesce]
    | arr xs => simp [coalesce]
    | obj fields => simp [coalesce]

/-- Where no valid value was stored, the editor shows the default. -/
theorem edited_eq_original {bridge : Bridge} {props : JsMap String Json} {field : Field}
    {edited : Json} (hf : field ∈ bridge.fields)
    (he : editorValue bridge props field.prop = .ok edited)
    (hv : fieldValueIsValid field edited = true) (hn : hadValidValue props field = false) :
    edited = originalEditorValue bridge props field := by
  rw [originalEditorValue_of_not_valid hn]
  obtain ⟨value, hdefault, -⟩ := bridge.defaults_valid field hf
  rw [hdefault]
  unfold hadValidValue at hn
  unfold editorValue at he
  cases hp : props.get? field.prop with
  | none =>
    rw [hp] at he
    dsimp only at he
    split at he
    · cases he
    · rw [hdefault] at he
      exact (Except.ok.inj he).symm
  | some own =>
    rw [hp] at he hn
    have hown := Except.ok.inj he
    rw [hdefault] at hown
    rw [Option.isSome_filter, Option.any_some] at hn
    cases own with
    | null => exact hown.symm
    | _ =>
      rw [← hown] at hv
      exact absurd (hn.symm.trans hv) (by decide)

/-! ## The fields of a node -/

section Fields

variable {bridge : Bridge} {props fields : JsMap String Json} {fs : List Field}

theorem openField_loop (h : fs.foldlM (openField bridge props) JsMap.empty = .ok fields) :
    ∀ field ∈ fs, ∃ edited, editorValue bridge props field.prop = .ok edited ∧
      fields.get? (fieldKey field.prop) = some edited := by
  refine foldlM_eq_ok (P := fun gone m => ∀ field ∈ gone, ∃ edited,
    editorValue bridge props field.prop = .ok edited ∧
      m.get? (fieldKey field.prop) = some edited) h nofun ?_
  intro gone field rest m m' _ hP hstep
  unfold openField at hstep
  rw [bind_eq_ok] at hstep
  obtain ⟨edited, hedited, hstep⟩ := hstep
  obtain rfl := Except.ok.inj hstep
  intro other hm
  by_cases hprop : other.prop = field.prop
  · rw [hprop]
    exact ⟨edited, hedited, JsMap.get?_set_self ..⟩
  · rcases List.mem_append.mp hm with hm | hm
    · obtain ⟨value, hvalue, hget⟩ := hP other hm
      refine ⟨value, hvalue, ?_⟩
      rw [JsMap.get?_set_ne _ _ fun hkey => hprop (fieldKey_injective hkey)]
      exact hget
    · rw [List.mem_singleton] at hm
      exact absurd (congrArg Field.prop hm) hprop

/-- What a field shows, as the loop that opened the node left it. -/
def Shown (bridge : Bridge) (props fields : JsMap String Json) (fs : List Field) : Prop :=
  ∀ field ∈ fs, field ∈ bridge.fields ∧ ∃ edited,
    editorValue bridge props field.prop = .ok edited ∧
      fields.get? (fieldKey field.prop) = some edited

/-- A field that is kept leaves the stored props as they are. -/
theorem restoreField_self {field : Field} {edited : Json} (hf : field ∈ bridge.fields)
    (he : editorValue bridge props field.prop = .ok edited)
    (hget : fields.get? (fieldKey field.prop) = some edited) (hk : KeepsField bridge props field) :
    restoreField bridge props fields props field = .ok props := by
  obtain ⟨hvalid, hsame⟩ := (keepsField_iff hf he).mp hk
  unfold restoreField
  rw [hget]
  dsimp only
  rw [if_neg (by simp [hvalid])]
  cases hn : hadValidValue props field with
  | true =>
    rw [if_pos (.inl rfl), JsMap.set_of_get? (hsame hn)]
    rfl
  | false =>
    rw [if_neg]
    · rfl
    · rw [edited_eq_original hf he hvalid hn]
      simp

theorem restore_of_keeps (hs : Shown bridge props fields fs)
    (hk : ∀ field ∈ fs, KeepsField bridge props field) :
    fs.foldlM (restoreField bridge props fields) props = .ok props := by
  induction fs with
  | nil => rfl
  | cons field fs ih =>
    rw [List.foldlM_cons, bind_eq_ok]
    obtain ⟨hf, edited, he, hget⟩ := hs field List.mem_cons_self
    refine ⟨props, restoreField_self hf he hget (hk field List.mem_cons_self), ?_⟩
    exact ih (fun f hm => hs f (List.mem_cons_of_mem _ hm)) fun f hm =>
      hk f (List.mem_cons_of_mem _ hm)

/-- After the loop every shown value was valid, and stands where a valid value was stored. -/
theorem restore_loop (hs : Shown bridge props fields fs) {restored : JsMap String Json}
    (h : fs.foldlM (restoreField bridge props fields) props = .ok restored) :
    ∀ field ∈ fs, ∀ edited, editorValue bridge props field.prop = .ok edited →
      fieldValueIsValid field edited = true ∧
        (hadValidValue props field = true → restored.get? field.prop = some edited) := by
  refine foldlM_eq_ok (P := fun gone m => ∀ field ∈ gone, ∀ edited,
    editorValue bridge props field.prop = .ok edited → fieldValueIsValid field edited = true ∧
      (hadValidValue props field = true → m.get? field.prop = some edited)) h nofun ?_
  intro gone field rest m m' hl hP hstep
  obtain ⟨hf, edited, he, hget⟩ := hs field (by rw [hl]; simp)
  unfold restoreField at hstep
  rw [hget] at hstep
  dsimp only at hstep
  split at hstep
  · cases hstep
  · rename_i hvalid
    rw [Bool.not_eq_true, Bool.not_eq_false] at hvalid
    -- what this round leaves: the shown value, or what was there
    have hset : m' = m.set field.prop edited ∨ m' = m ∧ hadValidValue props field = false := by
      split at hstep
      · exact .inl (Except.ok.inj hstep).symm
      · rename_i hsame
        rw [not_or, Bool.not_eq_true] at hsame
        exact .inr ⟨(Except.ok.inj hstep).symm, hsame.1⟩
    intro other hm value hvalue
    rcases List.mem_append.mp hm with hm | hm
    · refine ⟨(hP other hm value hvalue).1, fun hn => ?_⟩
      have hold := (hP other hm value hvalue).2 hn
      rcases hset with rfl | ⟨rfl, -⟩
      · by_cases hprop : other.prop = field.prop
        · rw [hprop] at hvalue
          obtain rfl := Except.ok.inj (he.symm.trans hvalue)
          rw [hprop]
          exact JsMap.get?_set_self ..
        · rw [JsMap.get?_set_ne _ _ hprop]
          exact hold
      · exact hold
    · rw [List.mem_singleton] at hm; subst hm
      obtain rfl := Except.ok.inj (he.symm.trans hvalue)
      refine ⟨hvalid, fun hn => ?_⟩
      rcases hset with rfl | ⟨-, hfalse⟩
      · exact JsMap.get?_set_self ..
      · rw [hn] at hfalse; cases hfalse

/-- The loop gives the stored props back exactly when every field is kept. -/
theorem restore_iff (hs : Shown bridge props fields fs) :
    fs.foldlM (restoreField bridge props fields) props = .ok props ↔
      ∀ field ∈ fs, KeepsField bridge props field := by
  refine ⟨fun h field hm => ?_, restore_of_keeps hs⟩
  obtain ⟨hf, edited, he, -⟩ := hs field hm
  exact (keepsField_iff hf he).mpr (restore_loop hs h field hm edited he)

end Fields

/-! ## Nodes -/

theorem underscore_notin {id : String} (h : resourceIdOk id = true) : '_' ∉ id.toList := by
  simp only [resourceIdOk, boundedBy, Bool.and_eq_true] at h
  have hsep : Separator '_' := by unfold Separator; decide
  exact dotted_notin hsep (fun _ => kebab_notin hsep) h.2

theorem bridgeKey_injective {id id' : String} {version version' : Nat} (hid : resourceIdOk id = true)
    (hid' : resourceIdOk id' = true) (h : bridgeKey id version = bridgeKey id' version') :
    id = id' ∧ version = version' := by
  unfold bridgeKey at h
  rw [← String.toList_inj] at h
  simp only [String.toList_append, List.append_assoc] at h
  obtain ⟨h1, h2⟩ := append_sep_cancel (underscore_notin hid) (underscore_notin hid') h
  have hversion : (toString version).toList = (toString version').toList := by simpa using h2
  exact ⟨String.toList_inj.mp h1, toString_nat_injective (String.toList_inj.mp hversion)⟩

section Nodes

variable {adapter : Adapter} {profile : ProfileId}

theorem bridge?_identity {data : NodeData} {bridge : Bridge}
    (h : adapter.bridge? (bridgeKey data.type data.version) = some bridge) :
    data.type = bridge.definition.id ∧ data.version = bridge.definition.version := by
  have hkey : bridge.key = bridgeKey data.type data.version := by
    simpa using List.find?_some h
  obtain ⟨hid, hversion⟩ := bridgeKey_injective bridge.id_ok data.type_ok hkey
  exact ⟨hid.symm, hversion.symm⟩

/-- Opening a node, when it succeeds. -/
theorem openNode_ok {data : NodeData} {childrenPresent : Bool} {bridge : Bridge}
    {props : ComponentProps}
    (h : openNode adapter profile data childrenPresent = .ok (bridge, props)) :
    adapter.bridge? (bridgeKey data.type data.version) = some bridge ∧
      bridge.definition.propsOk data.props = true ∧ props.id = some data.id ∧
      props.node = some (storedNode data childrenPresent profile) ∧
      Shown bridge data.props props.fields (editableFields bridge data.constraints) := by
  unfold openNode at h
  split at h
  · cases h
  · rename_i b hb
    split at h
    · rename_i hprops
      rw [bind_eq_ok] at h
      obtain ⟨fields, hfields, h⟩ := h
      obtain ⟨rfl, rfl⟩ := Prod.mk.inj (Except.ok.inj h)
      refine ⟨hb, hprops, rfl, rfl, fun field hm => ⟨editable_mem hm, ?_⟩⟩
      exact openField_loop hfields field hm
    · cases h

/-- Closing an opened node comes down to the loop over its fields. -/
theorem closeNode_open {data : NodeData} {childrenPresent : Bool} {bridge : Bridge}
    {props : ComponentProps}
    (h : openNode adapter profile data childrenPresent = .ok (bridge, props)) :
    closeNode adapter (bridgeKey data.type data.version) props =
      (editableFields bridge data.constraints).foldlM (restoreField bridge data.props props.fields)
        data.props >>= fun restored =>
          pure (bridge, data.id, storedNode data childrenPresent profile, restored) := by
  obtain ⟨hbridge, -, hid, hnode, -⟩ := openNode_ok h
  obtain ⟨htype, hversion⟩ := bridge?_identity hbridge
  have hparse : parseStoredNode props.node = .ok (storedNode data childrenPresent profile) := by
    rw [hnode]
    exact if_pos ⟨data.type_ok, data.version_ok⟩
  unfold closeNode
  rw [hid]
  dsimp only
  rw [hbridge]
  dsimp only
  rw [hparse]
  refine (if_neg ?_).trans rfl
  rw [not_or, not_not, not_not]
  exact ⟨htype, hversion⟩

theorem buildNode_ok {bridge : Bridge} {id : String} {metadata : StoredNode}
    {props : JsMap String Json} {children : List UiNode} {node : UiNode}
    (h : buildNode bridge id metadata props children = .ok node) :
    node.data.props = props ∧ node.children = children := by
  unfold buildNode at h
  split at h
  · split at h
    · dsimp only at h
      split at h <;> obtain rfl := Except.ok.inj h
      · exact ⟨rfl, rfl⟩
      · rename_i hempty
        rw [not_or, Nat.not_lt, Nat.le_zero, List.length_eq_zero_iff] at hempty
        exact ⟨rfl, hempty.2.symm⟩
    · cases h
  · cases h

/-- A node is built from its own parts. -/
theorem buildNode_self {data : NodeData} {bridge : Bridge} {childrenPresent : Bool}
    (h : bridge.definition.propsOk data.props = true) (children : List UiNode) :
    buildNode bridge data.id (storedNode data childrenPresent profile) data.props children =
      .ok (if childrenPresent = true ∨ 0 < children.length then .branch data children
        else .leaf data) := by
  have hok : resourceIdOk data.type = true ∧ (data.version : Int) ≤ Json.maxSafeInteger :=
    ⟨data.type_ok, data.version_ok⟩
  unfold buildNode
  rw [if_pos h]
  refine (dif_pos hok).trans ?_
  by_cases hc : childrenPresent = true ∨ 0 < children.length
  · rw [if_pos hc]
    exact if_pos hc
  · rw [if_neg hc]
    exact if_neg hc

theorem keeps_iff {node : UiNode} {bridge : Bridge}
    (h : adapter.bridge? (bridgeKey node.data.type node.data.version) = some bridge) :
    node.Keeps adapter ↔ ∀ field ∈ editableFields bridge node.data.constraints,
      KeepsField bridge node.data.props field := by
  constructor
  · intro hk
    exact hk bridge h
  · intro hk bridge' hb
    obtain rfl := Option.some.inj (h.symm.trans hb)
    exact hk

/-- Closing an opened node and putting children under it gives the node back exactly when its fields
are kept and the children are its own. `next` is the rest of `fromComponent`, which on the block of
the node reads the children and builds. -/
theorem close_build_iff (node : UiNode) (rest : Except Thrown (List UiNode))
    {childrenPresent : Bool} {bridge : Bridge} {props : ComponentProps}
    {next : Bridge × String × StoredNode × JsMap String Json → Except Thrown UiNode}
    (h : openNode adapter profile node.data childrenPresent = .ok (bridge, props))
    (hnext : ∀ id metadata restored, next (bridge, id, metadata, restored) =
      rest >>= buildNode bridge id metadata restored)
    (hself : (if childrenPresent = true ∨ 0 < node.children.length
      then UiNode.branch node.data node.children else .leaf node.data) = node) :
    closeNode adapter (bridgeKey node.data.type node.data.version) props >>= next = .ok node ↔
      node.Keeps adapter ∧ rest = .ok node.children := by
  obtain ⟨hbridge, hprops, -, -, hshown⟩ := openNode_ok h
  rw [closeNode_open h, keeps_iff hbridge, ← restore_iff hshown]
  simp only [bind_eq_ok]
  constructor
  · intro ⟨_, ⟨restored, hrestored, heq⟩, hend⟩
    obtain rfl := Except.ok.inj heq
    rw [hnext, bind_eq_ok] at hend
    obtain ⟨children, hrest, hbuild⟩ := hend
    obtain ⟨hdata, hchildren⟩ := buildNode_ok hbuild
    subst hdata hchildren
    exact ⟨hrestored, hrest⟩
  · intro ⟨hrestored, hrest⟩
    refine ⟨_, ⟨node.data.props, hrestored, rfl⟩, ?_⟩
    rw [hnext, bind_eq_ok]
    exact ⟨node.children, hrest, (buildNode_self hprops node.children).trans (congrArg _ hself)⟩

mutual

theorem fromComponent_iff : ∀ (node : UiNode) {component : Component},
    toComponent adapter profile node = .ok component →
      (fromComponent adapter component = .ok node ↔ ∀ n ∈ node.all, n.Keeps adapter)
  | .leaf data, component, h => by
    unfold toComponent at h
    rw [bind_eq_ok] at h
    obtain ⟨⟨bridge, props⟩, hopen, h⟩ := h
    rw [UiNode.all, List.forall_mem_singleton]
    -- a leaf has no children, whether or not its block has a slot
    dsimp only at h
    split at h <;> obtain rfl := Except.ok.inj h <;> unfold fromComponent
    · rename_i hallow
      refine (close_build_iff (.leaf data) (.ok []) hopen ?_ rfl).trans (and_iff_left rfl)
      intro id metadata restored
      simp only [hallow, not_true_eq_false, if_false, fromComponents]
      rfl
    · rename_i hallow
      refine (close_build_iff (.leaf data) (.ok []) hopen ?_ rfl).trans (and_iff_left rfl)
      intro id metadata restored
      simp only [hallow]
      rfl
  | .branch data children, component, h => by
    unfold toComponent at h
    rw [bind_eq_ok] at h
    obtain ⟨⟨bridge, props⟩, hopen, h⟩ := h
    rw [UiNode.all, List.forall_mem_cons]
    dsimp only at h
    split at h
    · rename_i hallow
      rw [bind_eq_ok] at h
      obtain ⟨slot, hslot, h⟩ := h
      obtain rfl := Except.ok.inj h
      rw [← fromComponents_iff children hslot]
      unfold fromComponent
      refine close_build_iff (.branch data children) _ hopen ?_ (if_pos (.inl rfl))
      intro id metadata restored
      simp only [hallow, not_true_eq_false, if_false]
    · rename_i hallow
      split at h
      · cases h
      · rename_i hempty
        obtain rfl := Except.ok.inj h
        obtain rfl := List.length_eq_zero_iff.mp (Nat.le_zero.mp (Nat.not_lt.mp hempty))
        unfold fromComponent
        refine (close_build_iff (.branch data []) (.ok []) hopen ?_ (if_pos (.inl rfl))).trans ?_
        · intro id metadata restored
          simp only [hallow]
          rfl
        · simp [UiNode.allOf, UiNode.children]

theorem fromComponents_iff : ∀ (nodes : List UiNode) {components : List Component},
    toComponents adapter profile nodes = .ok components →
      (fromComponents adapter components = .ok nodes ↔
        ∀ n ∈ UiNode.allOf nodes, n.Keeps adapter)
  | [], components, h => by
    obtain rfl := Except.ok.inj h
    exact iff_of_true rfl nofun
  | node :: nodes, components, h => by
    unfold toComponents at h
    rw [bind_eq_ok] at h
    obtain ⟨component, hnode, h⟩ := h
    rw [bind_eq_ok] at h
    obtain ⟨rest, hrest, h⟩ := h
    obtain rfl := Except.ok.inj h
    rw [UiNode.allOf, List.forall_mem_append, ← fromComponent_iff node hnode,
      ← fromComponents_iff nodes hrest, fromComponents]
    simp only [bind_eq_ok]
    constructor
    · intro ⟨node', hnode', nodes', hnodes', heq⟩
      obtain ⟨rfl, rfl⟩ := List.cons.inj (Except.ok.inj heq)
      exact ⟨hnode', hnodes'⟩
    · intro ⟨hnode', hnodes'⟩
      exact ⟨node, hnode', nodes, hnodes', rfl⟩

end

end Nodes

/-! ## Documents -/

variable {schema : Schema} {adapter : Adapter} {profile : BuilderProfile} {d d' : UiDocument}
  {data : PuckData}

/-- The nodes that the editor shows. -/
def UiDocument.canvas (adapter : Adapter) (d : UiDocument) : List UiNode :=
  UiNode.allOf ((d.regions.get? adapter.canvasRegion).getD [])

theorem UiDocument.Same.symm (h : d.Same d') : d'.Same d :=
  ⟨h.id.symm, h.version.symm, h.profile.symm, h.regions.symm⟩

theorem parse_ok {value : UiDocument} : schema.parse value = .ok d ↔
    d = value ∧ schema.accepts value = true := by
  unfold Schema.parse
  split
  · rename_i h
    simp [h, eq_comm]
  · rename_i h
    simp [h]

/-- The regions that saving puts together from `nodes`. -/
def savedRegions (adapter : Adapter) (d : UiDocument) (nodes : List UiNode) :
    JsMap String (List UiNode) :=
  let preserved := d.regions.filter fun region _ => region ≠ adapter.canvasRegion
  if (d.regions.get? adapter.canvasRegion).isSome = true ∨ 0 < nodes.length then
    preserved.set adapter.canvasRegion nodes
  else preserved

def savedDocument (adapter : Adapter) (d : UiDocument) (nodes : List UiNode) : UiDocument :=
  { d with regions := savedRegions adapter d nodes }

/-- Saving what opening a document gave: the components are read back, and the rest is as stored. -/
theorem fromPuckData_toPuckData (h : adapter.toPuckData schema d = .ok data) :
    schema.accepts d = true ∧
    ∃ nodes, adapter.canvasNodes d = .ok nodes ∧
      toComponents adapter d.profile nodes = .ok data.content ∧
      adapter.fromPuckData schema data = fromComponents adapter data.content >>= fun saved =>
        schema.parse (savedDocument adapter d saved) := by
  unfold Adapter.toPuckData at h
  simp only [bind_eq_ok] at h
  obtain ⟨parsed, hparsed, nodes, hnodes, content, hcontent, h⟩ := h
  obtain ⟨rfl, haccepts⟩ := parse_ok.mp hparsed
  obtain rfl := Except.ok.inj h
  refine ⟨haccepts, nodes, hnodes, hcontent, ?_⟩
  unfold Adapter.fromPuckData parseStoredDocument
  simp only [Option.any_none, Bool.false_eq_true, if_false, parsed.version_ok, if_true]
  refine (if_neg (not_not.mpr rfl)).trans ?_
  refine congrArg (fun next => fromComponents adapter content >>= next) (funext fun saved => ?_)
  exact dif_pos parsed.version_ok

theorem savedRegions_get? (nodes : List UiNode) (region : String) :
    (savedRegions adapter d nodes).get? region =
      if region = adapter.canvasRegion then
        if (d.regions.get? adapter.canvasRegion).isSome = true ∨ 0 < nodes.length then some nodes
        else none
      else d.regions.get? region := by
  have hfilter : ∀ region, (d.regions.filter fun region _ => region ≠ adapter.canvasRegion).get?
      region = if region = adapter.canvasRegion then none else d.regions.get? region := by
    intro region
    rw [JsMap.get?_filter]
    by_cases h : region = adapter.canvasRegion
    · simp [h]
    · cases d.regions.get? region <;> simp [h]
  unfold savedRegions
  dsimp only
  split
  · rw [JsMap.get?_set, hfilter]
    split <;> rfl
  · exact hfilter region

/-- The document is the same exactly when its canvas is. -/
theorem saved_same_iff {nodes saved : List UiNode} (hnodes : adapter.canvasNodes d = .ok nodes) :
    (savedDocument adapter d saved).Same d ↔ saved = nodes := by
  unfold Adapter.canvasNodes at hnodes
  constructor
  · intro hs
    have hget := JsMap.get?_eq_of_perm hs.regions adapter.canvasRegion
    rw [savedDocument, savedRegions_get?, if_pos rfl] at hget
    cases hc : d.regions.get? adapter.canvasRegion with
    | some own =>
      rw [hc] at hnodes hget
      rw [if_pos (.inl rfl)] at hget
      exact (Option.some.inj hget).trans (Except.ok.inj hnodes)
    | none =>
      rw [hc] at hnodes hget
      dsimp only at hnodes
      split at hnodes
      · cases hnodes
      · obtain rfl := Except.ok.inj hnodes
        split at hget
        · cases hget
        · rename_i hempty
          rw [not_or, Nat.not_lt, Nat.le_zero, List.length_eq_zero_iff] at hempty
          exact hempty.2
  · intro hs
    subst hs
    refine ⟨rfl, rfl, rfl, JsMap.perm_of_get?_eq fun region => ?_⟩
    rw [savedDocument, savedRegions_get?]
    split
    · rename_i hregion
      subst hregion
      cases hc : d.regions.get? adapter.canvasRegion with
      | some own =>
        rw [hc] at hnodes
        rw [if_pos (.inl rfl), Except.ok.inj hnodes]
      | none =>
        rw [hc] at hnodes
        dsimp only at hnodes
        split at hnodes
        · cases hnodes
        · obtain rfl := Except.ok.inj hnodes
          exact if_neg (by simp)
    · rfl

theorem canvas_of_canvasNodes {nodes : List UiNode} (h : adapter.canvasNodes d = .ok nodes) :
    d.canvas adapter = UiNode.allOf nodes := by
  unfold Adapter.canvasNodes at h
  unfold UiDocument.canvas
  split at h
  · rename_i own hown
    rw [hown, Except.ok.inj h]
    rfl
  · rename_i hnone
    split at h
    · cases h
    · rw [hnone, ← Except.ok.inj h]
      rfl

theorem adapter_roundTrip_iff (h : adapter.toPuckData schema d = .ok data) :
    (∃ d', adapter.fromPuckData schema data = .ok d' ∧ d'.Same d) ↔
      ∀ node ∈ d.canvas adapter, node.Keeps adapter := by
  obtain ⟨haccepts, nodes, hnodes, hcontent, hfrom⟩ := fromPuckData_toPuckData h
  rw [canvas_of_canvasNodes hnodes, ← fromComponents_iff nodes hcontent, hfrom]
  simp only [bind_eq_ok]
  constructor
  · intro ⟨d', ⟨saved, hsaved, hparse⟩, hs⟩
    obtain ⟨heq, -⟩ := parse_ok.mp hparse
    rw [heq, saved_same_iff hnodes] at hs
    rw [← hs]
    exact hsaved
  · intro hsaved
    have hs : (savedDocument adapter d nodes).Same d := (saved_same_iff hnodes).mpr rfl
    refine ⟨_, ⟨nodes, hsaved, parse_ok.mpr ⟨rfl, ?_⟩⟩, hs⟩
    rw [schema.accepts_same _ _ hs]
    exact haccepts

/-! ## Profiles -/

theorem mem_nodes_of_same (h : d'.Same d) {node : UiNode} (hm : node ∈ d'.nodes) :
    node ∈ d.nodes := by
  unfold UiDocument.nodes at hm ⊢
  rw [List.mem_flatMap] at hm ⊢
  obtain ⟨region, hregion, hm⟩ := hm
  exact ⟨region, h.regions.mem_iff.mp hregion, hm⟩

theorem assertDocumentPolicy_ok : assertDocumentPolicy schema profile d = .ok d' ↔
    d' = d ∧ schema.accepts d = true ∧ d.profile = profile.id ∧
      (∀ node ∈ d.nodes, assertPolicy profile node = .ok ()) ∧
      ∀ node ∈ d.nodes, assertStructure profile node = .ok () := by
  unfold assertDocumentPolicy
  rw [bind_eq_ok]
  constructor
  · intro ⟨value, hparse, h⟩
    obtain ⟨rfl, haccepts⟩ := parse_ok.mp hparse
    split at h
    · cases h
    · rename_i hprofile
      simp only [bind_eq_ok, forM_eq_ok] at h
      obtain ⟨-, hpolicy, -, hstructure, h⟩ := h
      exact ⟨(Except.ok.inj h).symm, haccepts, not_not.mp hprofile, hpolicy, hstructure⟩
  · intro ⟨heq, haccepts, hprofile, hpolicy, hstructure⟩
    subst heq
    refine ⟨d', parse_ok.mpr ⟨rfl, haccepts⟩, ?_⟩
    rw [if_neg (not_not.mpr hprofile)]
    simp only [bind_eq_ok, forM_eq_ok]
    exact ⟨(), hpolicy, (), hstructure, rfl⟩

/-- The policy does not look at the order of the regions. -/
theorem policy_same (h : d'.Same d) (hp : assertDocumentPolicy schema profile d = .ok d) :
    assertDocumentPolicy schema profile d' = .ok d' := by
  obtain ⟨-, haccepts, hprofile, hpolicy, hstructure⟩ := assertDocumentPolicy_ok.mp hp
  refine assertDocumentPolicy_ok.mpr ⟨rfl, ?_, h.profile.trans hprofile, ?_, ?_⟩
  · rw [schema.accepts_same _ _ h]
    exact haccepts
  · intro node hm
    exact hpolicy node (mem_nodes_of_same h hm)
  · intro node hm
    exact hstructure node (mem_nodes_of_same h hm)

/-- **Round trip.** Where a document can be opened, saving it unedited gives the document back
exactly when every editable field of the canvas is kept. -/
theorem round_trip_iff (h : profile.toPuckData schema d = .ok data) :
    (∃ d', profile.fromPuckData schema data = .ok d' ∧ d'.Same d) ↔
      ∀ node ∈ d.canvas profile.adapter, node.Keeps profile.adapter := by
  unfold BuilderProfile.toPuckData at h
  rw [bind_eq_ok] at h
  obtain ⟨value, hpolicy, hopen⟩ := h
  obtain rfl := (assertDocumentPolicy_ok.mp hpolicy).1
  rw [← adapter_roundTrip_iff hopen]
  unfold BuilderProfile.fromPuckData
  simp only [bind_eq_ok]
  constructor
  · intro ⟨d', ⟨saved, hsaved, hp⟩, hs⟩
    obtain rfl := (assertDocumentPolicy_ok.mp hp).1
    exact ⟨_, hsaved, hs⟩
  · intro ⟨d', hsaved, hs⟩
    exact ⟨d', ⟨d', hsaved, policy_same hs hpolicy⟩, hs⟩

/-! ## Three documents -/

def sampleSchema : Schema := ⟨fun _ => true, fun _ _ _ => rfl⟩

/-- A card with a text and a choice between no tone and one. -/
def sampleBridge : Bridge where
  definition := { id := "content.card", version := 1, propsOk := fun _ => true, actions := [] }
  fields := [⟨"title", .text⟩, ⟨"tone", .select [.null, .str "warm"]⟩]
  allowChildren := true
  defaultProps := ⟨[("title", .str "New card"), ("tone", .str "warm")], by decide⟩
  constraints := none
  id_ok := by decide
  version_ok := by decide
  props_nodup := by decide
  props_ok := by decide
  defaults_declared := by decide
  defaults_valid := by
    simp only [List.forall_mem_cons, List.not_mem_nil, false_imp_iff, implies_true, and_true]
    exact ⟨⟨.str "New card", by decide, by decide⟩, .str "warm", by decide, by decide⟩
  defaults_ok := rfl

def sampleProfile : BuilderProfile where
  id := .workspace
  adapter := ⟨[sampleBridge], "main", by decide, by decide⟩
  sources := []
  actions := []

def sampleNode (id : String) (title tone : Json) : NodeData where
  id := id
  type := "content.card"
  version := 1
  props := ⟨[("title", title), ("tone", tone)], by simp⟩
  bindings := none
  layout := none
  engineMetadata := none
  type_ok := by decide
  version_ok := by decide

def sampleDocument (nodes : List UiNode) : UiDocument where
  id := "workspace.home"
  version := 1
  profile := .workspace
  regions := ⟨[("main", nodes)], by simp⟩
  version_ok := by decide

/-- Opened and saved. -/
def reopen (d : UiDocument) : Except Thrown UiDocument := do
  let data ← sampleProfile.toPuckData sampleSchema d
  sampleProfile.fromPuckData sampleSchema data

def tones (d : UiDocument) : List (Option Json) :=
  ((d.regions.get? "main").getD []).map fun node => node.data.props.get? "tone"

theorem tones_same (h : d.Same d') : tones d = tones d' := by
  unfold tones
  rw [JsMap.get?_eq_of_perm h.regions]

/-- A stored `null` that the choice allows comes back as the default. -/
def nullDocument : UiDocument := sampleDocument [.leaf (sampleNode "card-1" (.str "Hello") .null)]

/-- A title that is a number, which the schema of the props allows, is rejected on the way back. -/
def numberDocument : UiDocument :=
  sampleDocument [.leaf (sampleNode "card-1" (.num 5) (.str "warm"))]

theorem not_round_trip :
    (∃ data d', sampleProfile.toPuckData sampleSchema nullDocument = .ok data ∧
      sampleProfile.fromPuckData sampleSchema data = .ok d' ∧ ¬ d'.Same nullDocument) ∧
    ∃ data, sampleProfile.toPuckData sampleSchema numberDocument = .ok data ∧
      sampleProfile.fromPuckData sampleSchema data =
        .error (.typeError "Puck component field has an invalid value: title.") := by
  have hnull : (reopen nullDocument).map tones = .ok [some (.str "warm")] := by decide
  have hnumber : (reopen numberDocument).map tones =
      .error (.typeError "Puck component field has an invalid value: title.") := by decide
  constructor
  · cases hd : reopen nullDocument with
    | error e => rw [hd] at hnull; cases hnull
    | ok d' =>
      rw [hd] at hnull
      unfold reopen at hd
      rw [bind_eq_ok] at hd
      obtain ⟨data, hopen, hsave⟩ := hd
      refine ⟨data, d', hopen, hsave, fun hs => ?_⟩
      have htones : tones d' = [some (.str "warm")] := Except.ok.inj hnull
      rw [tones_same hs] at htones
      exact absurd htones (by decide)
  · refine ⟨_, rfl, ?_⟩
    cases hd : reopen numberDocument with
    | error e =>
      rw [hd] at hnumber
      exact hd.trans (congrArg _ (Except.error.inj hnumber))
    | ok d' => rw [hd] at hnumber; cases hnumber

/-- A card, and one below it without props, which shows the defaults. -/
def keptDocument : UiDocument :=
  sampleDocument [.branch (sampleNode "card-1" (.str "Hello") (.str "warm"))
    [.leaf { sampleNode "card-2" .null .null with props := JsMap.empty }]]

theorem sample_fields {field : Field} (h : field ∈ editableFields sampleBridge none) :
    field = ⟨"title", .text⟩ ∨ field = ⟨"tone", .select [.null, .str "warm"]⟩ := by
  simpa [sampleBridge] using editable_mem h

theorem round_trip_example : ∃ data, sampleProfile.toPuckData sampleSchema keptDocument = .ok data ∧
    ∃ d', sampleProfile.fromPuckData sampleSchema data = .ok d' ∧ d'.Same keptDocument := by
  refine ⟨_, rfl, (round_trip_iff rfl).mpr ?_⟩
  intro node hm
  have hcases : node = .branch (sampleNode "card-1" (.str "Hello") (.str "warm"))
      [.leaf { sampleNode "card-2" .null .null with props := JsMap.empty }] ∨
      node = .leaf { sampleNode "card-2" .null .null with props := JsMap.empty } := by
    simpa [UiDocument.canvas, keptDocument, sampleDocument, sampleProfile, JsMap.get?,
      UiNode.allOf, UiNode.all] using hm
  have hbridge : sampleProfile.adapter.bridge? (bridgeKey "content.card" 1) = some sampleBridge := rfl
  rcases hcases with rfl | rfl
  · refine (keeps_iff hbridge).mpr fun field hf => ?_
    rcases sample_fields hf with rfl | rfl
    · exact (rfl : fieldValueIsValid ⟨"title", .text⟩ (.str "Hello") = true)
    · show fieldValueIsValid ⟨"tone", .select [.null, .str "warm"]⟩ (.str "warm") = true
      decide
  · refine (keeps_iff hbridge).mpr fun field hf => ?_
    rcases sample_fields hf with rfl | rfl <;> exact trivial

end KNex.Builder
