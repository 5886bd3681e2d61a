import KNex.Core.Except
import KNex.Core.JoinedKeys
import KNex.Core.ParentChain
import KNex.Core.TextCoding

/-!
# Plugin navigation

`packages/ui-runtime/src/navigation.ts`: the descriptors of routes and of navigation items of the
installed plugins are checked, and the items that an actor may see are listed in order. An item is
seen only with all its ancestors.

A descriptor is given with its id and what its schema (`packages/contracts/src/plugin-configuration.ts`)
makes of it. The loops over ancestors take their rounds as an argument; `endless` is what they return
when there are none left, and `resolvePluginNavigation_spec` says that it does not happen.
`localeCompare` is a parameter.
-/
namespace KNex.Ui.PluginNavigation

open KNex.Core KNex.Core.JsonText KNex.Core.TextCoding KNex.Core.ParentChain

/-! ## Failures -/

inductive Code where
  | DESCRIPTOR_INVALID | DUPLICATE_ID | NAVIGATION_OWNER_UNINSTALLED | PARENT_UNAVAILABLE
  | PARENT_CYCLE | ROUTE_OWNER_UNINSTALLED | ROUTE_PARAMETERS_INVALID | ROUTE_TARGET_UNAVAILABLE
  deriving DecidableEq

/-- A `NavigationResolutionError`, an error of the engine, or none at all. -/
inductive Failure where
  | navigation (code : Code) (message : Str) (path : List Str)
  | uriError
  | typeError
  | endless
  deriving DecidableEq

abbrev Result (α : Type) := Except Failure α

/-! ## Descriptors -/

inductive ParameterType where
  | string | integer | boolean
  deriving DecidableEq

/-- The numbers that the schema accepts are safe integers. -/
inductive ParameterValue where
  | string (s : Str)
  | number (n : Int)
  | boolean (b : Bool)
  deriving DecidableEq

inductive Audience where
  | public_ | authenticated | system
  deriving DecidableEq

structure Route where
  id : Str
  ownerPluginId : Str
  path : Str
  parameters : JsMap Str ParameterType
  audience : Audience
  permission : Str
  deriving DecidableEq

structure Item where
  id : Str
  ownerPluginId : Str
  labelMessageId : Str
  routeId : Str
  params : JsMap Str ParameterValue
  permission : Str
  parentId : Option Str
  order : Int
  deriving DecidableEq

/-- A descriptor as it is given; `parsed` is `none` where its schema refuses it. -/
structure Given (α : Type) where
  id : Str
  parsed : Option α

structure ResolvedItem where
  id : Str
  labelMessageId : Str
  href : Str
  parentId : Option Str
  order : Int
  routeId : Str
  deriving DecidableEq

structure Actor where
  authenticated : Bool
  permissions : List Str

structure Input where
  installedPluginIds : List Str
  routes : List (Given Route)
  navigation : List (Given Item)
  actor : Actor

/-! ## Targets of routes -/

/-- mirrors packages/ui-runtime/src/navigation.ts:60-64 -/
def parameterMatches : ParameterType → ParameterValue → Bool
  | .string, .string _ => true
  | .integer, .number n => -9007199254740991 ≤ n && n ≤ 9007199254740991
  | .boolean, .boolean _ => true
  | _, _ => false

/-- `String(value)`. -/
def ParameterValue.text : ParameterValue → Str
  | .string s => s
  | .number n => units (toString n)
  | .boolean b => units (toString b)

def isLetter (c : UInt16) : Bool := (65 ≤ c && c ≤ 90) || (97 ≤ c && c ≤ 122)

def isAlphanumeric (c : UInt16) : Bool := isLetter c || (48 ≤ c && c ≤ 57)

def upperHexDigit (n : Nat) : UInt16 := UInt16.ofNat (if n < 10 then 48 + n else 55 + n)

/-- `encodeURIComponent(text)`, which throws at a surrogate without its partner. -/
def encodeURIComponent (text : Str) : Result Str :=
  if wellFormed text then
    .ok ((encode text).flatMap fun byte =>
      let c := byte.toUInt16
      if isAlphanumeric c ∨ (units "-_.!~*'()").contains c then [c]
      else [37, upperHexDigit (byte.toNat / 16), upperHexDigit (byte.toNat % 16)])
  else .error .uriError

/-- `path.replace(/:([A-Za-z][A-Za-z0-9]*)/g, (_, key) => …)`: no key has a colon, so the pieces
between the colons are replaced one by one. -/
def replaceKeys (path : Str) (value : Str → Result Str) : Result Str :=
  match path.splitOn 58 with
  | [] => .ok []
  | first :: pieces => do
    let replaced ← pieces.mapM fun piece =>
      if piece.head?.any isLetter then do
        let text ← value (piece.takeWhile isAlphanumeric)
        return text ++ piece.dropWhile isAlphanumeric
      else return 58 :: piece
    return first ++ replaced.flatten

/-- mirrors packages/ui-runtime/src/navigation.ts:66-80 -/
def resolveHref (route : Route) (params : JsMap Str ParameterValue) : Result Str := do
  failIf (keyText route.parameters.keys ≠ keyText params.keys)
    (.navigation .ROUTE_PARAMETERS_INVALID
      (units "Route " ++ route.id ++ units " parameters do not match its contract.") [route.id])
  forM (sortKeys route.parameters.keys) fun key =>
    let invalid : Failure := .navigation .ROUTE_PARAMETERS_INVALID
      (units "Route " ++ route.id ++ units " parameter " ++ key ++ units " has an invalid type.")
      [route.id, key]
    match params.get? key, route.parameters.get? key with
    | some value, some type => failIf (¬ parameterMatches type value) invalid
    | _, _ => .error invalid
  replaceKeys route.path fun key =>
    encodeURIComponent (((params.get? key).map ParameterValue.text).getD (units "undefined"))

/-! ## Resolution -/

/-- mirrors packages/ui-runtime/src/navigation.ts:51-58 -/
def uniqueById {α : Type} (idOf : α → Str) (label : String) (values : List α) :
    Result (JsMap Str α) :=
  values.foldlM (fun result value => do
    failIf ((result.get? (idOf value)).isSome)
      (.navigation .DUPLICATE_ID
        (units ("Duplicate " ++ label ++ " ID ") ++ idOf value ++ units ".") [idOf value])
    return result.set (idOf value) value) JsMap.empty

/-- `navigation.get(id)?.parentId`. -/
def parentOf (navigation : JsMap Str Item) (id : Str) : Option Str :=
  (navigation.get? id).bind (·.parentId)

/-- mirrors packages/ui-runtime/src/navigation.ts:82-95 -/
def assertParentGraph (navigation : JsMap Str Item) : Result Unit :=
  forM navigation.entries fun (_, item) => do
    let parentId := item.parentId.getD []
    failIf (item.parentId.any fun id => (navigation.get? id).isNone)
      (.navigation .PARENT_UNAVAILABLE
        (units "Navigation parent " ++ parentId ++ units " is unavailable.") [item.id, parentId])
    match climb (parentOf navigation) (navigation.size + 1) [item.id] item.parentId with
    | none => .error .endless
    | some false => .error (.navigation .PARENT_CYCLE
        (units "Navigation item " ++ item.id ++ units " has a parent cycle.") [item.id])
    | some true => .ok ()

/-- mirrors packages/ui-runtime/src/navigation.ts:98-105 -/
def parseRoute (installed : List Str) (given : Given Route) : Result Route :=
  match given.parsed with
  | none => .error (.navigation .DESCRIPTOR_INVALID
      (units "Route descriptor " ++ given.id ++ units " is invalid.") [given.id])
  | some route => do
    failIf (route.ownerPluginId ∉ installed)
      (.navigation .ROUTE_OWNER_UNINSTALLED
        (units "Route owner " ++ route.ownerPluginId ++ units " is not installed.") [route.id])
    return route

/-- mirrors packages/ui-runtime/src/navigation.ts:106-113 -/
def parseItem (installed : List Str) (given : Given Item) : Result Item :=
  match given.parsed with
  | none => .error (.navigation .DESCRIPTOR_INVALID
      (units "Navigation descriptor " ++ given.id ++ units " is invalid.") [given.id])
  | some item => do
    failIf (item.ownerPluginId ∉ installed)
      (.navigation .NAVIGATION_OWNER_UNINSTALLED
        (units "Navigation owner " ++ item.ownerPluginId ++ units " is not installed.") [item.id])
    return item

def allows (actor : Actor) (route : Route) (item : Item) : Bool :=
  (route.audience = .public_ || actor.authenticated) &&
    actor.permissions.contains route.permission && actor.permissions.contains item.permission

/-- mirrors packages/ui-runtime/src/navigation.ts:118-124 -/
def permit (routesById : JsMap Str Route) (actor : Actor) (item : Item) : Result (Str × Bool) :=
  match routesById.get? item.routeId with
  | none => .error (.navigation .ROUTE_TARGET_UNAVAILABLE
      (units "Navigation route " ++ item.routeId ++ units " is unavailable.") [item.id, item.routeId])
  | some route => do
    let _ ← resolveHref route item.params
    return (item.id, allows actor route item)

/-- The recursion of `visible`.
mirrors packages/ui-runtime/src/navigation.ts:125-128 -/
def visible (navigationById : JsMap Str Item) (permitted : JsMap Str (Str × Bool)) (item : Item) :
    Option Bool :=
  allAbove (parentOf navigationById) (fun id => (permitted.get? id).any Prod.snd)
    (navigationById.size + 1) item.id

/-- mirrors packages/ui-runtime/src/navigation.ts:130-142 -/
def listItem (routesById : JsMap Str Route) (navigationById : JsMap Str Item)
    (permitted : JsMap Str (Str × Bool)) (item : Item) : Result (List ResolvedItem) :=
  match visible navigationById permitted item with
  | none => .error .endless
  | some false => .ok []
  | some true =>
    match routesById.get? item.routeId with
    | none => .error .typeError
    | some route => do
      let href ← resolveHref route item.params
      return [{ id := item.id, labelMessageId := item.labelMessageId, href
                parentId := item.parentId, order := item.order, routeId := route.id }]

/-- `left.order - right.order || left.id.localeCompare(right.id)` is not positive. -/
def before (localeLe : Str → Str → Bool) (left right : ResolvedItem) : Bool :=
  left.order < right.order || (left.order = right.order && localeLe left.id right.id)

/-- mirrors packages/ui-runtime/src/navigation.ts:116-142 -/
def resolveItems (localeLe : Str → Str → Bool) (routesById : JsMap Str Route)
    (navigationById : JsMap Str Item) (actor : Actor) : Result (List ResolvedItem) := do
  assertParentGraph navigationById
  let permitted ← navigationById.entries.mapM fun e => permit routesById actor e.2
  let items ← navigationById.entries.mapM fun e =>
    listItem routesById navigationById (JsMap.ofList Prod.fst permitted) e.2
  return items.flatten.mergeSort (before localeLe)

/-- mirrors packages/ui-runtime/src/navigation.ts:97-143 -/
def resolvePluginNavigation (localeLe : Str → Str → Bool) (input : Input) :
    Result (List ResolvedItem) := do
  let routes ← input.routes.mapM (parseRoute input.installedPluginIds)
  let navigation ← input.navigation.mapM (parseItem input.installedPluginIds)
  let routesById ← uniqueById (·.id) "route" routes
  let navigationById ← uniqueById (·.id) "navigation" navigation
  resolveItems localeLe routesById navigationById input.actor

section Proofs

/-! ## Traversals -/

theorem exists_of_mem_mapM {α β : Type} {f : α → Result β} {l : List α} {bs : List β}
    (h : l.mapM f = .ok bs) {b : β} (hb : b ∈ bs) : ∃ a ∈ l, f a = .ok b := by
  rw [mapM_eq_ok] at h
  induction h with
  | nil => cases hb
  | cons hhead _ ih =>
    rcases List.mem_cons.mp hb with rfl | hb
    · exact ⟨_, List.mem_cons_self, hhead⟩
    · obtain ⟨a, ha, hfa⟩ := ih hb
      exact ⟨a, List.mem_cons_of_mem _ ha, hfa⟩

theorem exists_mapM_of_mem {α β : Type} {f : α → Result β} {l : List α} {bs : List β}
    (h : l.mapM f = .ok bs) {a : α} (ha : a ∈ l) : ∃ b ∈ bs, f a = .ok b := by
  rw [mapM_eq_ok] at h
  induction h with
  | nil => cases ha
  | cons hhead _ ih =>
    rcases List.mem_cons.mp ha with rfl | ha
    · exact ⟨_, List.mem_cons_self, hhead⟩
    · obtain ⟨b, hb, hfa⟩ := ih ha
      exact ⟨b, List.mem_cons_of_mem _ hb, hfa⟩

/-! ## Maps by id -/

theorem foldlM_unique_eq_ok {α : Type} {idOf : α → Str} {label : String} :
    ∀ {values : List α} {result m : JsMap Str α},
    values.foldlM (fun (result : JsMap Str α) value => do
      failIf ((result.get? (idOf value)).isSome)
        (Failure.navigation .DUPLICATE_ID
          (units ("Duplicate " ++ label ++ " ID ") ++ idOf value ++ units ".") [idOf value])
      return result.set (idOf value) value) result = .ok m ↔
    (result.keys ++ values.map idOf).Nodup ∧
      m.entries = result.entries ++ values.map fun v => (idOf v, v)
  | [], result, m => by
    simp only [List.foldlM_nil, List.map_nil, List.append_nil]
    constructor
    · intro h
      cases h
      exact ⟨result.nodup, rfl⟩
    · rintro ⟨-, h⟩
      cases m
      cases h
      rfl
  | v :: values, result, m => by
    rw [List.foldlM_cons, bind_eq_ok]
    simp only [check_bind_eq_ok, failIf_eq_ok, Bool.not_eq_true, Option.isSome_eq_false_iff,
      Option.isNone_iff_eq_none]
    have hkeys : (result.keys ++ (v :: values).map idOf) =
        (result.keys ++ [idOf v]) ++ values.map idOf := by simp
    rw [hkeys]
    constructor
    · rintro ⟨next, ⟨hnew, hnext⟩, h⟩
      obtain rfl := Except.ok.inj hnext
      rw [foldlM_unique_eq_ok, JsMap.keys_set_of_none hnew, JsMap.entries_set_of_none hnew] at h
      refine ⟨h.1, h.2.trans ?_⟩
      simp
    · rintro ⟨hnodup, hentries⟩
      have hnew : result.get? (idOf v) = none := by
        rw [JsMap.get?_eq_none]
        intro hmem
        exact (List.nodup_append.mp (List.nodup_append.mp hnodup).1).2.2 _ hmem _
          (List.mem_singleton_self _) rfl
      refine ⟨_, ⟨hnew, rfl⟩, ?_⟩
      rw [foldlM_unique_eq_ok, JsMap.keys_set_of_none hnew, JsMap.entries_set_of_none hnew]
      refine ⟨hnodup, hentries.trans ?_⟩
      simp

theorem uniqueById_eq_ok {α : Type} {idOf : α → Str} {label : String} {values : List α}
    {m : JsMap Str α} : uniqueById idOf label values = .ok m ↔
      (values.map idOf).Nodup ∧ m.entries = values.map fun v => (idOf v, v) := by
  unfold uniqueById
  rw [foldlM_unique_eq_ok]
  rfl

theorem get?_of_entries {α : Type} {idOf : α → Str} {values : List α} {m : JsMap Str α}
    (h : m.entries = values.map fun v => (idOf v, v)) {id : Str} {v : α} :
    m.get? id = some v ↔ v ∈ values ∧ idOf v = id := by
  rw [JsMap.get?_eq_some, h, List.mem_map]
  constructor
  · rintro ⟨w, hw, heq⟩
    cases heq
    exact ⟨hw, rfl⟩
  · rintro ⟨hv, rfl⟩
    exact ⟨v, hv, rfl⟩

/-! ## Parents -/

/-- An item with the id `a` states the parent `b`. -/
def IsParent (items : List Item) (a b : Str) : Prop := ∃ item ∈ items, item.id = a ∧ item.parentId = some b

theorem up_parentOf_iff {items : List Item} {m : JsMap Str Item}
    (h : m.entries = items.map fun v => (v.id, v)) : Up (parentOf m) = IsParent items := by
  funext a b
  unfold Up parentOf IsParent
  rw [Option.bind_eq_some_iff]
  simp only [get?_of_entries h, and_assoc]

theorem parentOf_eq {items : List Item} {m : JsMap Str Item}
    (h : m.entries = items.map fun v => (v.id, v)) {item : Item} (hitem : item ∈ items) :
    parentOf m item.id = item.parentId := by
  unfold parentOf
  rw [(get?_of_entries h).mpr ⟨hitem, rfl⟩]
  rfl

theorem mem_keys_of_up {m : JsMap Str Item} {a p : Str} (h : Up (parentOf m) a p) : a ∈ m.keys := by
  obtain ⟨item, hitem, -⟩ := Option.bind_eq_some_iff.mp h
  exact JsMap.mem_keys.mpr ⟨item, hitem⟩

theorem length_keys (m : JsMap Str Item) : m.keys.length < m.size + 1 := by
  unfold JsMap.keys JsMap.size
  rw [List.length_map]
  omega

theorem assertParentGraph_eq_ok {items : List Item} {m : JsMap Str Item}
    (h : m.entries = items.map fun v => (v.id, v)) :
    assertParentGraph m = .ok () ↔
      (∀ item ∈ items, ∀ p, item.parentId = some p → ∃ parent ∈ items, parent.id = p) ∧
      Digraph.Acyclic (IsParent items) := by
  have hup : ∀ a p, Up (parentOf m) a p → a ∈ m.keys := fun _ _ => mem_keys_of_up
  have hclimb := climb_top_iff hup (length_keys m)
  have hkeys : m.keys = items.map (·.id) := by
    unfold JsMap.keys
    rw [h, List.map_map]
    rfl
  have hmissing : ∀ p, m.get? p = none ↔ ¬ ∃ parent ∈ items, parent.id = p := by
    intro p
    rw [JsMap.get?_eq_none, hkeys, List.mem_map]
  rw [← up_parentOf_iff h, ← hclimb, hkeys]
  unfold assertParentGraph
  rw [forM_eq_ok, h]
  simp only [List.forall_mem_map]
  rw [← forall₂_and]
  refine forall₂_congr fun item hitem => ?_
  rw [parentOf_eq h hitem]
  have hany : (item.parentId.any fun id => (m.get? id).isNone) = true ↔
      ¬ ∀ p, item.parentId = some p → ∃ parent ∈ items, parent.id = p := by
    cases item.parentId with
    | none => simp
    | some p => simp [Option.isNone_iff_eq_none, hmissing]
  rw [check_bind_eq_ok, failIf_eq_ok, hany, not_not]
  refine and_congr_right fun _ => ?_
  constructor
  · intro hloop
    split at hloop
    · cases hloop
    · cases hloop
    · assumption
  · intro hloop
    rw [hloop]

theorem assertParentGraph_ends {items : List Item} {m : JsMap Str Item}
    (h : m.entries = items.map fun v => (v.id, v)) : assertParentGraph m ≠ .error .endless := by
  unfold assertParentGraph
  refine forM_ne_error fun e he => ?_
  rw [h] at he
  obtain ⟨item, hitem, rfl⟩ := List.mem_map.mp he
  have hup : ∀ a p, Up (parentOf m) a p → a ∈ m.keys := fun _ _ => mem_keys_of_up
  obtain ⟨top, htop⟩ := climb_terminates hup (length_keys m) (a := item.id)
  rw [parentOf_eq h hitem] at htop
  dsimp only
  rw [htop]
  refine bind_ne_error (failIf_ne_error (by simp)) fun _ _ => ?_
  cases top <;> simp

/-! ## Items that are listed -/

/-- Whether the actor may see the item and open its route. -/
def Permits (routes : List Route) (actor : Actor) (item : Item) : Prop :=
  ∃ route ∈ routes, route.id = item.routeId ∧ allows actor route item = true

/-- The item and each of its ancestors is there and permitted. -/
def ChainPermitted (routes : List Route) (items : List Item) (actor : Actor) (item : Item) : Prop :=
  ∀ id, Relation.ReflTransGen (IsParent items) item.id id →
    ∃ a ∈ items, a.id = id ∧ Permits routes actor a

/-- What is listed for an item. -/
def Lists (routes : List Route) (item : Item) (r : ResolvedItem) : Prop :=
  ∃ route ∈ routes, route.id = item.routeId ∧ ∃ href, resolveHref route item.params = .ok href ∧
    r = { id := item.id, labelMessageId := item.labelMessageId, href
          parentId := item.parentId, order := item.order, routeId := route.id }

section Listed

variable {routes : List Route} {items : List Item} {actor : Actor} {routesById : JsMap Str Route}
  {navigationById : JsMap Str Item} {permitted : List (Str × Bool)}

theorem permit_eq_ok (hr : routesById.entries = routes.map fun r => (r.id, r)) {item : Item}
    {pair : Str × Bool} (hroutes : (routes.map (·.id)).Nodup)
    (h : permit routesById actor item = .ok pair) :
    pair.1 = item.id ∧ (pair.2 = true ↔ Permits routes actor item) := by
  unfold permit at h
  split at h
  · cases h
  · rename_i route hroute
    obtain ⟨href, -, heq⟩ := bind_eq_ok.mp h
    obtain rfl := Except.ok.inj heq
    obtain ⟨hmem, hid⟩ := (get?_of_entries hr).mp hroute
    refine ⟨rfl, fun hallowed => ⟨route, hmem, hid, hallowed⟩, ?_⟩
    rintro ⟨route', hmem', hid', hallowed⟩
    rwa [List.inj_on_of_nodup_map hroutes hmem hmem' (hid.trans hid'.symm)]

theorem lists_of_permit (hr : routesById.entries = routes.map fun r => (r.id, r)) {item : Item}
    {pair : Str × Bool} (h : permit routesById actor item = .ok pair) :
    ∃ r, Lists routes item r ∧ r.id = item.id := by
  unfold permit at h
  split at h
  · cases h
  · rename_i route hroute
    obtain ⟨href, hhref, -⟩ := bind_eq_ok.mp h
    obtain ⟨hmem, hid⟩ := (get?_of_entries hr).mp hroute
    exact ⟨_, ⟨route, hmem, hid, href, hhref, rfl⟩, rfl⟩

theorem names_permitted (hr : routesById.entries = routes.map fun r => (r.id, r))
    (hroutes : (routes.map (·.id)).Nodup)
    (h : items.mapM (permit routesById actor) = .ok permitted) :
    permitted.map Prod.fst = items.map (·.id) := by
  have hpairs := mapM_eq_ok.mp h
  clear h
  induction hpairs with
  | nil => rfl
  | cons hhead _ ih =>
    rw [List.map_cons, List.map_cons, ih, (permit_eq_ok hr hroutes hhead).1]

theorem permitted_iff (hr : routesById.entries = routes.map fun r => (r.id, r))
    (hroutes : (routes.map (·.id)).Nodup) (hitems : (items.map (·.id)).Nodup)
    (h : items.mapM (permit routesById actor) = .ok permitted) (id : Str) :
    ((JsMap.ofList Prod.fst permitted).get? id).any Prod.snd = true ↔
      ∃ item ∈ items, item.id = id ∧ Permits routes actor item := by
  have hnames := names_permitted hr hroutes h
  have hget : ∀ pair, (JsMap.ofList Prod.fst permitted).get? id = some pair ↔
      pair ∈ permitted ∧ pair.1 = id := fun pair => JsMap.get?_ofList (hnames ▸ hitems)
  rw [Option.any_eq_true]
  constructor
  · rintro ⟨pair, hpair, hallowed⟩
    obtain ⟨hmem, rfl⟩ := (hget pair).mp hpair
    obtain ⟨item, hitem, hpermit⟩ := exists_of_mem_mapM h hmem
    obtain ⟨hid, hiff⟩ := permit_eq_ok hr hroutes hpermit
    exact ⟨item, hitem, hid.symm, hiff.mp hallowed⟩
  · rintro ⟨item, hitem, rfl, hallowed⟩
    obtain ⟨pair, hmem, hpermit⟩ := exists_mapM_of_mem h hitem
    obtain ⟨hid, hiff⟩ := permit_eq_ok hr hroutes hpermit
    exact ⟨pair, (hget pair).mpr ⟨hmem, hid⟩, hiff.mpr hallowed⟩

/-- `visible` ends, and asks the item and each of its ancestors. -/
theorem visible_eq (hm : navigationById.entries = items.map fun v => (v.id, v))
    (hr : routesById.entries = routes.map fun r => (r.id, r))
    (hroutes : (routes.map (·.id)).Nodup) (hitems : (items.map (·.id)).Nodup)
    (hacyclic : Digraph.Acyclic (IsParent items))
    (h : items.mapM (permit routesById actor) = .ok permitted) (item : Item) :
    ∃ b, visible navigationById (JsMap.ofList Prod.fst permitted) item = some b ∧
      (b = true ↔ ChainPermitted routes items actor item) := by
  rw [← up_parentOf_iff hm] at hacyclic
  obtain ⟨l, hl⟩ := ancestors_isSome (fun _ _ => mem_keys_of_up) hacyclic (length_keys navigationById)
    (a := item.id)
  obtain ⟨b, hb, hiff⟩ := allAbove_eq
    (fun id => ((JsMap.ofList Prod.fst permitted).get? id).any Prod.snd) hl
  refine ⟨b, hb, hiff.trans ?_⟩
  rw [up_parentOf_iff hm]
  exact forall₂_congr fun id _ => permitted_iff hr hroutes hitems h id

theorem listItem_eq_ok (hm : navigationById.entries = items.map fun v => (v.id, v))
    (hr : routesById.entries = routes.map fun r => (r.id, r))
    (hroutes : (routes.map (·.id)).Nodup) (hitems : (items.map (·.id)).Nodup)
    (hacyclic : Digraph.Acyclic (IsParent items))
    (h : items.mapM (permit routesById actor) = .ok permitted) {item : Item} {l : List ResolvedItem}
    (hl : listItem routesById navigationById (JsMap.ofList Prod.fst permitted) item = .ok l) :
    (∀ r, r ∈ l ↔ ChainPermitted routes items actor item ∧ Lists routes item r) ∧
      (l.map (·.id)).Sublist [item.id] := by
  obtain ⟨b, hb, hchain⟩ := visible_eq hm hr hroutes hitems hacyclic h item
  unfold listItem at hl
  rw [hb] at hl
  cases b with
  | false =>
    cases hl
    refine ⟨fun r => ?_, List.nil_sublist _⟩
    have hno : ¬ ChainPermitted routes items actor item := fun hc => by
      have := hchain.mpr hc
      cases this
    simp [hno]
  | true =>
    dsimp only at hl
    split at hl
    · cases hl
    · rename_i route hroute
      obtain ⟨href, hhref, heq⟩ := bind_eq_ok.mp hl
      obtain rfl := Except.ok.inj heq
      obtain ⟨hmem, hid⟩ := (get?_of_entries hr).mp hroute
      refine ⟨fun r => ?_, List.Sublist.refl _⟩
      rw [List.mem_singleton]
      constructor
      · rintro rfl
        exact ⟨hchain.mp rfl, route, hmem, hid, href, hhref, rfl⟩
      · rintro ⟨-, route', hmem', hid', href', hhref', rfl⟩
        obtain rfl := List.inj_on_of_nodup_map hroutes hmem hmem' (hid.trans hid'.symm)
        rw [hhref] at hhref'
        rw [Except.ok.inj hhref']

/-- The lists of all items together. -/
theorem flatten_eq (hm : navigationById.entries = items.map fun v => (v.id, v))
    (hr : routesById.entries = routes.map fun r => (r.id, r))
    (hroutes : (routes.map (·.id)).Nodup) (hitems : (items.map (·.id)).Nodup)
    (hacyclic : Digraph.Acyclic (IsParent items))
    (h : items.mapM (permit routesById actor) = .ok permitted) {lists : List (List ResolvedItem)}
    (hlists : items.mapM (listItem routesById navigationById (JsMap.ofList Prod.fst permitted)) =
      .ok lists) :
    (∀ r, r ∈ lists.flatten ↔
      ∃ item ∈ items, ChainPermitted routes items actor item ∧ Lists routes item r) ∧
      (lists.flatten.map (·.id)).Nodup := by
  have hlist := fun {item : Item} {l : List ResolvedItem}
    (hl : listItem routesById navigationById (JsMap.ofList Prod.fst permitted) item = .ok l) =>
    listItem_eq_ok hm hr hroutes hitems hacyclic h hl
  constructor
  · intro r
    rw [List.mem_flatten]
    constructor
    · rintro ⟨l, hl, hr'⟩
      obtain ⟨item, hitem, hitemList⟩ := exists_of_mem_mapM hlists hl
      exact ⟨item, hitem, ((hlist hitemList).1 r).mp hr'⟩
    · rintro ⟨item, hitem, hlisted⟩
      obtain ⟨l, hl, hitemList⟩ := exists_mapM_of_mem hlists hitem
      exact ⟨l, hl, ((hlist hitemList).1 r).mpr hlisted⟩
  · have hids : ∀ {item : Item} {l : List ResolvedItem},
        listItem routesById navigationById (JsMap.ofList Prod.fst permitted) item = .ok l →
        (l.map (·.id)).Sublist [item.id] := fun hl => (hlist hl).2
    have hsub : (lists.flatten.map (·.id)).Sublist (items.map (·.id)) := by
      have hpairs := mapM_eq_ok.mp hlists
      clear hitems h hm hacyclic hlists hlist
      induction hpairs with
      | nil => exact List.Sublist.refl _
      | cons hhead _ ih =>
        rw [List.flatten_cons, List.map_append, List.map_cons]
        exact (hids hhead).append ih
    exact hsub.nodup hitems

/-- What the resolution of checked descriptors returns. -/
theorem resolveItems_eq_ok {localeLe : Str → Str → Bool}
    (hm : navigationById.entries = items.map fun v => (v.id, v)) {out : List ResolvedItem} :
    resolveItems localeLe routesById navigationById actor = .ok out ↔
      ((∀ item ∈ items, ∀ p, item.parentId = some p → ∃ parent ∈ items, parent.id = p) ∧
        Digraph.Acyclic (IsParent items)) ∧
      ∃ permitted lists, items.mapM (permit routesById actor) = .ok permitted ∧
        items.mapM (listItem routesById navigationById (JsMap.ofList Prod.fst permitted)) = .ok lists ∧
        out = lists.flatten.mergeSort (before localeLe) := by
  unfold resolveItems
  rw [check_bind_eq_ok, assertParentGraph_eq_ok hm, hm]
  refine and_congr_right fun _ => ?_
  simp only [bind_eq_ok, List.mapM_map, Function.comp_def]
  constructor
  · rintro ⟨permitted, hpermitted, lists, hlists, h⟩
    exact ⟨permitted, lists, hpermitted, hlists, (Except.ok.inj h).symm⟩
  · rintro ⟨permitted, lists, hpermitted, hlists, rfl⟩
    exact ⟨permitted, hpermitted, lists, hlists, rfl⟩

theorem resolveHref_ends (route : Route) (params : JsMap Str ParameterValue) :
    resolveHref route params ≠ .error .endless := by
  unfold resolveHref
  refine bind_ne_error (failIf_ne_error (by simp)) fun _ _ => bind_ne_error ?_ fun _ _ => ?_
  · refine forM_ne_error fun key _ => ?_
    dsimp only
    split
    · exact failIf_ne_error (by simp)
    · simp
  · have hencode : ∀ text, encodeURIComponent text ≠ .error .endless := by
      intro text
      unfold encodeURIComponent
      split <;> simp
    unfold replaceKeys
    split
    · simp
    · refine bind_ne_error (mapM_ne_error fun piece _ => ?_) fun _ _ h => by cases h
      split
      · exact bind_ne_error (hencode _) fun _ _ h => by cases h
      · exact fun h => by cases h

theorem permit_ends (item : Item) : permit routesById actor item ≠ .error .endless := by
  unfold permit
  split
  · simp
  · exact bind_ne_error (resolveHref_ends _ _) fun _ _ h => by cases h

theorem resolveItems_ends {localeLe : Str → Str → Bool}
    (hm : navigationById.entries = items.map fun v => (v.id, v))
    (hr : routesById.entries = routes.map fun r => (r.id, r))
    (hroutes : (routes.map (·.id)).Nodup) (hitems : (items.map (·.id)).Nodup) :
    resolveItems localeLe routesById navigationById actor ≠ .error .endless := by
  unfold resolveItems
  refine bind_ne_error (assertParentGraph_ends hm) fun _ hgraph => ?_
  have hacyclic := ((assertParentGraph_eq_ok hm).mp hgraph).2
  refine bind_ne_error (mapM_ne_error fun _ _ => permit_ends _) fun permitted hpermitted => ?_
  rw [hm, List.mapM_map] at hpermitted
  refine bind_ne_error (mapM_ne_error fun e _ => ?_) fun _ _ h => by cases h
  obtain ⟨b, hb, -⟩ := visible_eq hm hr hroutes hitems hacyclic hpermitted e.2
  unfold listItem
  rw [hb]
  cases b with
  | false => simp
  | true =>
    dsimp only
    split
    · simp
    · exact bind_ne_error (resolveHref_ends _ _) fun _ _ h => by cases h

end Listed

/-! ## The order of the input -/

/-- What is assumed of `localeCompare`: it is an order of strings. -/
structure LocaleOrder (localeLe : Str → Str → Bool) : Prop where
  total : ∀ a b, localeLe a b || localeLe b a
  trans : ∀ a b c, localeLe a b → localeLe b c → localeLe a c
  antisymm : ∀ a b, localeLe a b → localeLe b a → a = b

theorem before_total {localeLe : Str → Str → Bool} (h : LocaleOrder localeLe) (a b : ResolvedItem) :
    before localeLe a b || before localeLe b a := by
  have htotal := h.total a.id b.id
  simp only [before, Bool.or_eq_true, Bool.and_eq_true, decide_eq_true_eq] at htotal ⊢
  rcases lt_trichotomy a.order b.order with hlt | heq | hgt
  · exact .inl (.inl hlt)
  · exact htotal.imp (fun hle => .inr ⟨heq, hle⟩) fun hle => .inr ⟨heq.symm, hle⟩
  · exact .inr (.inl hgt)

theorem before_trans {localeLe : Str → Str → Bool} (h : LocaleOrder localeLe) (a b c : ResolvedItem)
    (hab : before localeLe a b) (hbc : before localeLe b c) : before localeLe a c := by
  have htrans := h.trans a.id b.id c.id
  simp only [before, Bool.or_eq_true, Bool.and_eq_true, decide_eq_true_eq] at hab hbc ⊢
  rcases hab with hab | ⟨hab, hab'⟩
  · omega
  · rcases hbc with hbc | ⟨hbc, hbc'⟩
    · omega
    · exact .inr ⟨hab.trans hbc, htrans hab' hbc'⟩

/-- Lists of the same items of different ids are sorted to the same list. -/
theorem sort_eq {localeLe : Str → Str → Bool} (h : LocaleOrder localeLe) {l l' : List ResolvedItem}
    (hperm : l.Perm l') (hnodup : (l.map (·.id)).Nodup) :
    l.mergeSort (before localeLe) = l'.mergeSort (before localeLe) := by
  refine List.Perm.eq_of_pairwise (fun a b ha hb hab hba => ?_)
    (List.pairwise_mergeSort (before_trans h) (before_total h) l)
    (List.pairwise_mergeSort (before_trans h) (before_total h) l')
    (((List.mergeSort_perm l _).trans hperm).trans (List.mergeSort_perm l' _).symm)
  rw [List.mem_mergeSort] at ha hb
  refine List.inj_on_of_nodup_map hnodup ha (hperm.mem_iff.mpr hb) ?_
  simp only [before, Bool.or_eq_true, Bool.and_eq_true, decide_eq_true_eq] at hab hba
  rcases hab with hab | ⟨hab, hab'⟩
  · omega
  · rcases hba with hba | ⟨-, hba'⟩
    · omega
    · exact h.antisymm _ _ hab' hba'

/-- Checked descriptors in another order are resolved to the same list. -/
theorem resolveItems_perm {localeLe : Str → Str → Bool} (h : LocaleOrder localeLe)
    {routes routes' : List Route} {items items' : List Item} {actor : Actor}
    {routesById routesById' : JsMap Str Route} {navigationById navigationById' : JsMap Str Item}
    (hr : routesById.entries = routes.map fun r => (r.id, r))
    (hr' : routesById'.entries = routes'.map fun r => (r.id, r))
    (hm : navigationById.entries = items.map fun v => (v.id, v))
    (hm' : navigationById'.entries = items'.map fun v => (v.id, v))
    (hroutes : (routes.map (·.id)).Nodup) (hitems : (items.map (·.id)).Nodup)
    (hroutesPerm : routes.Perm routes') (hitemsPerm : items.Perm items') {out : List ResolvedItem}
    (hout : resolveItems localeLe routesById navigationById actor = .ok out) :
    resolveItems localeLe routesById' navigationById' actor = .ok out := by
  obtain ⟨⟨hparents, hacyclic⟩, permitted, lists, hpermitted, hlists, rfl⟩ :=
    (resolveItems_eq_ok hm).mp hout
  have hisParent : IsParent items' = IsParent items := by
    funext a b
    unfold IsParent
    simp only [hitemsPerm.mem_iff]
  have hrGet : routesById'.get? = routesById.get? := by
    funext id
    refine JsMap.get?_eq_of_perm ?_ id
    rw [hr, hr']
    exact (hroutesPerm.map _).symm
  have hmGet : navigationById'.get? = navigationById.get? := by
    funext id
    refine JsMap.get?_eq_of_perm ?_ id
    rw [hm, hm']
    exact (hitemsPerm.map _).symm
  have hsize : navigationById'.size = navigationById.size := by
    unfold JsMap.size
    rw [hm, hm', List.length_map, List.length_map, hitemsPerm.length_eq]
  have hpermit : permit routesById' actor = permit routesById actor := by
    funext item
    unfold permit
    rw [hrGet]
  obtain ⟨permitted', hpermitted', hpairs⟩ := mapM_perm hitemsPerm hpermitted
  have hpGet : (JsMap.ofList Prod.fst permitted').get? = (JsMap.ofList Prod.fst permitted).get? := by
    funext id
    have hnames : (permitted.map Prod.fst).Nodup := by
      rw [names_permitted hr hroutes hpermitted]
      exact hitems
    refine Option.ext fun pair => ?_
    rw [JsMap.get?_ofList hnames, JsMap.get?_ofList ((hpairs.map Prod.fst).nodup_iff.mp hnames),
      hpairs.mem_iff]
  have hlist : listItem routesById' navigationById' (JsMap.ofList Prod.fst permitted') =
      listItem routesById navigationById (JsMap.ofList Prod.fst permitted) := by
    funext item
    have hparentOf : parentOf navigationById' = parentOf navigationById := by
      unfold parentOf
      rw [hmGet]
    unfold listItem visible
    rw [hrGet, hparentOf, hsize, hpGet]
  obtain ⟨lists', hlists', hlistsPerm⟩ := mapM_perm hitemsPerm hlists
  refine (resolveItems_eq_ok hm').mpr ⟨⟨?_, ?_⟩, permitted', lists', ?_, ?_, ?_⟩
  · simpa only [hitemsPerm.mem_iff] using hparents
  · rwa [hisParent]
  · rwa [hpermit]
  · rwa [hlist]
  · exact sort_eq h hlistsPerm.flatten
      (flatten_eq hm hr hroutes hitems hacyclic hpermitted hlists).2

/-! ## The resolution -/

/-- The descriptors of an input that were accepted. -/
structure Accepted (input : Input) (routes : List Route) (items : List Item) : Prop where
  routes : input.routes.mapM (parseRoute input.installedPluginIds) = .ok routes
  items : input.navigation.mapM (parseItem input.installedPluginIds) = .ok items

/-- The same input in another order. -/
structure Reordered (input input' : Input) : Prop where
  installed : input'.installedPluginIds = input.installedPluginIds
  routes : input.routes.Perm input'.routes
  navigation : input.navigation.Perm input'.navigation
  actor : input'.actor = input.actor

theorem resolvePluginNavigation_eq_ok {localeLe : Str → Str → Bool} {input : Input}
    {out : List ResolvedItem} : resolvePluginNavigation localeLe input = .ok out ↔
      ∃ routes items routesById navigationById, Accepted input routes items ∧
        ((routes.map (·.id)).Nodup ∧ routesById.entries = routes.map fun r => (r.id, r)) ∧
        ((items.map (·.id)).Nodup ∧ navigationById.entries = items.map fun v => (v.id, v)) ∧
        resolveItems localeLe routesById navigationById input.actor = .ok out := by
  unfold resolvePluginNavigation
  simp only [bind_eq_ok, uniqueById_eq_ok]
  constructor
  · rintro ⟨routes, hroutes, items, hitems, routesById, hr, navigationById, hm, h⟩
    exact ⟨routes, items, routesById, navigationById, ⟨hroutes, hitems⟩, hr, hm, h⟩
  · rintro ⟨routes, items, routesById, navigationById, ⟨hroutes, hitems⟩, hr, hm, h⟩
    exact ⟨routes, hroutes, items, hitems, routesById, hr, navigationById, hm, h⟩

theorem resolvePluginNavigation_ends (localeLe : Str → Str → Bool) (input : Input) :
    resolvePluginNavigation localeLe input ≠ .error .endless := by
  have hunique : ∀ {α : Type} (idOf : α → Str) (label : String) (values : List α),
      uniqueById idOf label values ≠ .error .endless := fun _ _ _ =>
    foldlM_ne_error fun _ _ _ => bind_ne_error (failIf_ne_error (by simp)) fun _ _ h => by cases h
  unfold resolvePluginNavigation
  refine bind_ne_error (mapM_ne_error fun given _ => ?_) fun routes _ =>
    bind_ne_error (mapM_ne_error fun given _ => ?_) fun items _ =>
    bind_ne_error (hunique _ _ _) fun routesById hr =>
    bind_ne_error (hunique _ _ _) fun navigationById hm => ?_
  · unfold parseRoute
    split
    · simp
    · exact bind_ne_error (failIf_ne_error (by simp)) fun _ _ h => by cases h
  · unfold parseItem
    split
    · simp
    · exact bind_ne_error (failIf_ne_error (by simp)) fun _ _ h => by cases h
  · rw [uniqueById_eq_ok] at hr hm
    exact resolveItems_ends hm.2 hr.2 hr.1 hm.1

/-- What `resolvePluginNavigation` lists: the items whose ancestors are all there and permitted, each
once, with their parents, whatever the order of the input. -/
structure Listing (localeLe : Str → Str → Bool) (input : Input) (out : List ResolvedItem) : Prop where
  exact : ∃ routes items, Accepted input routes items ∧ ∀ r, r ∈ out ↔
    ∃ item ∈ items, ChainPermitted routes items input.actor item ∧ Lists routes item r
  closed : ∀ r ∈ out, ∀ p, r.parentId = some p → p ∈ out.map (·.id)
  nodup : (out.map (·.id)).Nodup
  reordered : ∀ input', Reordered input input' → resolvePluginNavigation localeLe input' = .ok out

theorem resolvePluginNavigation_listing {localeLe : Str → Str → Bool} (h : LocaleOrder localeLe)
    {input : Input} {out : List ResolvedItem}
    (hout : resolvePluginNavigation localeLe input = .ok out) : Listing localeLe input out := by
  obtain ⟨routes, items, routesById, navigationById, haccepted, ⟨hroutes, hr⟩, ⟨hitems, hm⟩, hitemsOut⟩ :=
    resolvePluginNavigation_eq_ok.mp hout
  obtain ⟨⟨hparents, hacyclic⟩, permitted, lists, hpermitted, hlists, rfl⟩ :=
    (resolveItems_eq_ok hm).mp hitemsOut
  obtain ⟨hmem, hnodup⟩ := flatten_eq hm hr hroutes hitems hacyclic hpermitted hlists
  have hout' : ∀ r, r ∈ lists.flatten.mergeSort (before localeLe) ↔
      ∃ item ∈ items, ChainPermitted routes items input.actor item ∧ Lists routes item r := fun r => by
    rw [List.mem_mergeSort, hmem]
  have hids := (List.mergeSort_perm lists.flatten (before localeLe)).map ResolvedItem.id
  refine ⟨⟨routes, items, haccepted, hout'⟩, fun r hrOut p hp => ?_, hids.nodup_iff.mpr hnodup,
    fun input' hinput' => ?_⟩
  · -- the parent stands on the same chain
    obtain ⟨item, hitem, hchain, route, hroute, hid, href, hhref, rfl⟩ := (hout' r).mp hrOut
    have hup : IsParent items item.id p := ⟨item, hitem, rfl, hp⟩
    obtain ⟨parent, hparent, rfl, -⟩ := hchain p (Relation.ReflTransGen.single hup)
    have hchain' : ChainPermitted routes items input.actor parent := fun id hid =>
      hchain id (Relation.ReflTransGen.head hup hid)
    obtain ⟨pair, -, hpermit⟩ := exists_mapM_of_mem hpermitted hparent
    obtain ⟨r', hlisted, hid'⟩ := lists_of_permit hr hpermit
    exact List.mem_map.mpr ⟨r', (hout' r').mpr ⟨parent, hparent, hchain', hlisted⟩, hid'⟩
  · obtain ⟨routes', hroutes', hroutesPerm⟩ := mapM_perm hinput'.routes haccepted.routes
    obtain ⟨items', hitems', hitemsPerm⟩ := mapM_perm hinput'.navigation haccepted.items
    have hroutesNodup := ((hroutesPerm.map Route.id).nodup_iff).mp hroutes
    have hitemsNodup := ((hitemsPerm.map Item.id).nodup_iff).mp hitems
    have hroutesById : ∃ m : JsMap Str Route, m.entries = routes'.map fun r => (r.id, r) :=
      ⟨⟨_, by rw [List.map_map]; exact hroutesNodup⟩, rfl⟩
    have hitemsById : ∃ m : JsMap Str Item, m.entries = items'.map fun v => (v.id, v) :=
      ⟨⟨_, by rw [List.map_map]; exact hitemsNodup⟩, rfl⟩
    obtain ⟨routesById', hr'⟩ := hroutesById
    obtain ⟨navigationById', hm'⟩ := hitemsById
    refine resolvePluginNavigation_eq_ok.mpr ⟨routes', items', routesById', navigationById', ⟨?_, ?_⟩,
      ⟨hroutesNodup, hr'⟩, ⟨hitemsNodup, hm'⟩, ?_⟩
    · rw [hinput'.installed]
      exact hroutes'
    · rw [hinput'.installed]
      exact hitems'
    · rw [hinput'.actor]
      exact resolveItems_perm h hr hr' hm hm' hroutes hitems hroutesPerm hitemsPerm hitemsOut

end Proofs

end KNex.Ui.PluginNavigation
