import KNex.Contracts.StrictSchema
import KNex.Ui.PluginNavigation

/-!
# Workspace navigation

`packages/ui-runtime/src/workspace-navigation.ts`: the fixed routes of the system, the navigation of
the active plugins, the folders of the customer and the pages that are published and placed are
registered as nodes of one tree and as routes; links are shown where their route is authorised, and
with them their ancestors.

The schemas are those of `packages/contracts/src/workspace-page.ts`. Of a node and of the tree the
model has the checks that compare fields; the patterns of single fields are a `Host`, as
`localeCompare` is. Raw descriptors, folders and pages are given as what their schema makes of them,
`none` where it refuses. The two ports of the authority answer yes or no or reject (`none`).
-/
namespace KNex.Ui.WorkspaceNavigation

open KNex.Core KNex.Core.JsonText KNex.Core.ParentChain
open KNex.Contracts.CanonicalJson
open KNex.Ui.PluginNavigation (Route Item ParameterValue parameterMatches replaceKeys encodeURIComponent)

/-! ## Failures -/

inductive Code where
  | INPUT_INVALID | DUPLICATE_ID | DUPLICATE_ROUTE | FOREIGN_PARENT | PARENT_MISSING
  | PLUGIN_INACTIVE | ROUTE_MISSING | ROUTE_PARAMETERS_INVALID | ROUTE_PATH_CONFLICT
  deriving DecidableEq

/-- A `WorkspaceNavigationResolutionError`, an error of a schema or of the engine, the rejection of a
port, or a loop that does not end. -/
inductive Failure where
  | workspace (code : Code) (message : Str)
  | zodError
  | uriError
  | rejected
  | endless
  deriving DecidableEq

abbrev Result (α : Type) := Except Failure α

/-! ## Nodes and routes -/

inductive Target where
  | system (routeId : Str)
  | hotApplication (appId : Str)
  | platformPlugin (ownerPluginId routeId : Str)
  | workspacePage (pageId : Str) (edit : Bool)
  deriving DecidableEq

inductive Owner where
  | platform
  | platformPlugin (pluginId : Str)
  | customer
  deriving DecidableEq

inductive Kind where
  | folder | link
  deriving DecidableEq

structure Node where
  id : Str
  owner : Owner
  kind : Kind
  parentId : Option Str
  label : Str
  icon : Option Str
  order : Int
  target : Option Target
  deriving DecidableEq

structure Host where
  /-- The patterns of the single fields of a node. -/
  nodeFields : Node → Bool
  /-- Those of the application, the environment and the revision of a tree. -/
  treeFields : Str → Str → Int → Bool
  /-- `left.localeCompare(right) <= 0`. -/
  localeLe : Str → Str → Bool

def Target.className : Target → Str
  | .system _ => units "system"
  | .hotApplication _ => units "hot-application"
  | .platformPlugin _ _ => units "platform-plugin"
  | .workspacePage _ _ => units "workspace-page"

def Target.rest : Target → List (Str × Str)
  | .system routeId => [(units "routeId", routeId)]
  | .hotApplication appId => [(units "appId", appId)]
  | .platformPlugin ownerPluginId routeId =>
    [(units "ownerPluginId", ownerPluginId), (units "routeId", routeId)]
  | .workspacePage pageId edit =>
    [(units "pageId", pageId), (units "mode", units (if edit then "edit" else "view"))]

def targetJson (target : Target) : JsonValue Nat :=
  .obj (((units "class", target.className) :: target.rest).map fun field => (field.1, .str field.2))

/-- `canonicalJson(target)`. -/
def targetKey (target : Target) : Str :=
  match canonicalJson naturals (ofParsed (targetJson target)) with
  | .ok text => text
  | .error message => message

/-- The checks between the fields of a node.
mirrors packages/contracts/src/workspace-page.ts:74-88 -/
def nodeRefined (node : Node) : Bool :=
  (node.kind = .link) == node.target.isSome &&
    match node.owner, node.target with
    | .customer, some (.workspacePage _ _) => true
    | .customer, some _ => false
    | .platformPlugin pluginId, some (.platformPlugin ownerPluginId _) => ownerPluginId = pluginId
    | .platformPlugin _, some _ => false
    | .platform, some (.platformPlugin _ _) => false
    | _, none => true
    | .platform, some _ => true

/-- `WorkspaceNavigationNodeSchema.parse(node)`. -/
def parseNode (host : Host) (node : Node) : Result Node :=
  if host.nodeFields node && nodeRefined node then .ok node else .error .zodError

def parentOf (nodes : JsMap Str Node) (id : Str) : Option Str := (nodes.get? id).bind (·.parentId)

def systemRootId : Str := units "system.navigation.root"

/-- The checks of one node of a tree; whether its chain of parents ends.
mirrors packages/contracts/src/workspace-page.ts:105-124 -/
def treeNodeOk (nodes : JsMap Str Node) (node : Node) : Result Bool :=
  match climb (parentOf nodes) (nodes.size + 1) [node.id] node.parentId with
  | none => .error .endless
  | some top =>
    .ok (top && (node.parentId.all fun parentId => (nodes.get? parentId).isSome) &&
      !(node.owner = .customer &&
        ((node.parentId.bind nodes.get?).any fun parent => parent.owner = .platform)))

/-- `WorkspaceNavigationTreeSchema.safeParse({ schemaVersion: 1, applicationId, environment, revision,
nodes }).success`.
mirrors packages/contracts/src/workspace-page.ts:91-125 -/
def treeOk (host : Host) (applicationId environment : Str) (revision : Int) (nodes : List Node) :
    Result Bool := do
  let byId := JsMap.ofList Node.id nodes
  let checks ← nodes.mapM (treeNodeOk byId)
  return host.treeFields applicationId environment revision &&
    (1 ≤ nodes.length && nodes.length ≤ 512) &&
    (nodes.all fun node => host.nodeFields node && nodeRefined node) &&
    decide (nodes.map Node.id).Nodup &&
    ((byId.get? systemRootId).any fun root =>
      root.owner = .platform && root.kind = .folder && root.parentId.isNone) &&
    checks.all id

/-! ## Input -/

/-- The navigation of a plugin; the schemas of routes and items allow no NUL in a permission. -/
structure Section where
  id : Str
  pluginId : Str
  label : Str
  icon : Option Str
  order : Int
  active : Bool
  acceptsCustomerChildren : Bool
  routes : List (Option Route)
  navigation : List (Option Item)
  messages : JsMap Str Str
  permissions : (∀ route, some route ∈ routes → 0 ∉ route.permission) ∧
    ∀ item, some item ∈ navigation → 0 ∉ item.permission

/-- A page; `placement` is the parent and the order of one that is placed. -/
structure Page where
  applicationId : Str
  environment : Str
  pageId : Str
  published : Bool
  placement : Option (Str × Int)
  title : Str

structure Preferences where
  sidebar : Str
  favoritePageIds : List Str
  recentPageIds : List Str

structure Input where
  applicationId : Str
  environment : Str
  revision : Int
  implementedSystemRouteIds : List Str
  plugins : List Section
  customerFolders : List (Option Node)
  pages : List (Option Page)
  preferences : Preferences
  authorize : Str → Target → Option Bool
  pageAccess : Str → Option Bool

/-! ## Registration -/

structure SystemRoute where
  routeId : Str
  href : Str
  permissionId : Str
  label : Str
  icon : Option Str
  parentId : Str
  id : Str
  order : Int

def systemRoute (routeId href permissionId label : String) (icon : Option String)
    (parentId id : String) (order : Int) : SystemRoute :=
  ⟨units routeId, units href, units permissionId, units label, icon.map units, units parentId,
    units id, order⟩

/-- mirrors packages/ui-runtime/src/workspace-navigation.ts:87-97 -/
def fixedRoutes : List SystemRoute := [
  systemRoute "system.route.workspace" "/" "system.workspace-pages.read" "Workspace"
    (some "dashboard") "k-nex.navigation.root" "k-nex.navigation.workspace" 0,
  systemRoute "system.route.roles" "/system/access/roles" "system.roles.read" "Roles"
    none "system.navigation.root" "system.navigation.roles" 10,
  systemRoute "system.route.permissions" "/system/access/permissions" "system.permissions.read"
    "Permissions" none "system.navigation.root" "system.navigation.permissions" 20,
  systemRoute "system.route.assignments" "/system/access/assignments"
    "system.role-assignments.read" "Assignments" none "system.navigation.root"
    "system.navigation.assignments" 30,
  systemRoute "system.route.extensions" "/system/extensions" "system.extensions.read" "Extensions"
    (some "apps") "system.navigation.root" "system.navigation.extensions" 40,
  systemRoute "system.route.workspace-pages" "/system/workspace-pages" "system.workspace-pages.read"
    "Workspace pages" (some "dashboard") "system.navigation.root"
    "system.navigation.workspace-pages" 45,
  systemRoute "system.route.themes" "/system/themes" "system.themes.read" "Themes"
    none "system.navigation.root" "system.navigation.themes" 50,
  systemRoute "system.route.settings" "/system/settings" "system.settings.read" "Settings"
    none "system.navigation.root" "system.navigation.settings" 60,
  systemRoute "system.route.operations" "/system/operations" "system.operations.read" "Operations"
    none "system.navigation.root" "system.navigation.operations" 70]

def failure (code : Code) (parts : List Str) : Failure := .workspace code parts.flatten

/-- mirrors packages/ui-runtime/src/workspace-navigation.ts:105-117 -/
def routeHref (route : Route) (params : JsMap Str ParameterValue) : Result Str := do
  failIf (keyText route.parameters.keys ≠ keyText params.keys)
    (failure .ROUTE_PARAMETERS_INVALID
      [units "Route ", route.id, units " parameters do not match."])
  forM (sortKeys route.parameters.keys) fun key =>
    let invalid := failure .ROUTE_PARAMETERS_INVALID
      [units "Route ", route.id, units " parameter ", key, units " is invalid."]
    match params.get? key, route.parameters.get? key with
    | some value, some type => failIf (¬ parameterMatches type value) invalid
    | _, _ => .error invalid
  match replaceKeys route.path fun key =>
    encodeURIComponent (((params.get? key).map ParameterValue.text).getD (units "undefined")) with
  | .ok href => .ok href
  | .error _ => .error .uriError

/-- mirrors packages/ui-runtime/src/workspace-navigation.ts:119-122 -/
def register {α : Type} (map : JsMap Str α) (id : Str) (value : α) (code : Code) :
    Result (JsMap Str α) := do
  failIf ((map.get? id).isSome)
    (failure code [units "Duplicate workspace identity ", id, units "."])
  return map.set id value

/-- mirrors packages/ui-runtime/src/workspace-navigation.ts:124-130 -/
def preferencesOk (value : Preferences) : Bool :=
  (value.sidebar = units "expanded" || value.sidebar = units "collapsed") &&
    value.favoritePageIds.length ≤ 64 && value.recentPageIds.length ≤ 64 &&
    (value.favoritePageIds ++ value.recentPageIds).all fun id => 3 ≤ id.length && id.length ≤ 160

/-- The loop of `implementedSystemRoutes` after the ids `selected`.
mirrors packages/ui-runtime/src/workspace-navigation.ts:152-160 -/
def selectSystemRoutes (selected : List Str) (previous : Int) : List Str → Result (List Str)
  | [] => .ok selected
  | id :: ids => do
    let index := fixedRoutes.findIdx fun route => route.routeId = id
    failIf (fixedRoutes.length ≤ index)
      (failure .INPUT_INVALID [units "Implemented System route IDs are invalid."])
    failIf (id ∈ selected)
      (failure .DUPLICATE_ROUTE [units "Duplicate workspace identity ", id, units "."])
    failIf ((index : Int) ≤ previous)
      (failure .INPUT_INVALID [units "Implemented System route IDs are invalid."])
    selectSystemRoutes (selected ++ [id]) index ids

structure RegisteredRoute where
  target : Target
  href : Str
  permissionId : Str

structure State where
  nodes : JsMap Str Node
  routes : JsMap Str RegisteredRoute
  routeIds : JsMap Str Str
  sections : JsMap Str Section
  pages : JsMap Str Page

/-- `register(nodes, node.id, WorkspaceNavigationNodeSchema.parse(node), "DUPLICATE_ID")`. -/
def registerNode (host : Host) (s : State) (node : Node) : Result State := do
  let parsed ← parseNode host node
  let nodes ← register s.nodes node.id parsed .DUPLICATE_ID
  return { s with nodes }

def registerRoute (s : State) (route : RegisteredRoute) : Result State := do
  let routes ← register s.routes (targetKey route.target) route .DUPLICATE_ROUTE
  return { s with routes }

def registerRouteId (s : State) (routeId href : Str) : Result State := do
  let routeIds ← register s.routeIds routeId href .DUPLICATE_ROUTE
  return { s with routeIds }

def folder (id : Str) (owner : Owner) (label : Str) (icon : Option Str) (order : Int) : Node where
  id
  owner
  kind := .folder
  parentId := none
  label
  icon
  order
  target := none

/-- mirrors packages/ui-runtime/src/workspace-navigation.ts:177-182 -/
def registerSystemRoute (host : Host) (s : State) (route : SystemRoute) : Result State := do
  let s ← registerRouteId s route.routeId route.href
  let s ← registerRoute s
    { target := .system route.routeId, href := route.href, permissionId := route.permissionId }
  registerNode host s
    { id := route.id, owner := .platform, kind := .link, parentId := some route.parentId
      label := route.label, icon := route.icon, order := route.order
      target := some (.system route.routeId) }

/-- mirrors packages/ui-runtime/src/workspace-navigation.ts:190-195 -/
def registerPluginRoute (pluginId : Str) (acc : State × JsMap Str Route) (raw : Option Route) :
    Result (State × JsMap Str Route) :=
  let invalid := failure .INPUT_INVALID [units "Plugin route in ", pluginId, units " is invalid."]
  match raw with
  | none => .error invalid
  | some route => do
    failIf (route.ownerPluginId ≠ pluginId) invalid
    let sectionRoutes ← register acc.2 route.id route .DUPLICATE_ROUTE
    let s ← registerRouteId acc.1 route.id route.path
    return (s, sectionRoutes)

/-- mirrors packages/ui-runtime/src/workspace-navigation.ts:197-201 -/
def registerDescriptor (pluginId : Str) (descriptors : JsMap Str Item) (raw : Option Item) :
    Result (JsMap Str Item) :=
  let invalid := failure .INPUT_INVALID
    [units "Plugin navigation in ", pluginId, units " is invalid."]
  match raw with
  | none => .error invalid
  | some item => do
    failIf (item.ownerPluginId ≠ pluginId) invalid
    register descriptors item.id item .DUPLICATE_ID

/-- mirrors packages/ui-runtime/src/workspace-navigation.ts:202-212 -/
def registerPluginLink (host : Host) (pluginSection : Section) (sectionRoutes : JsMap Str Route)
    (s : State) (descriptor : Item) : Result State :=
  match sectionRoutes.get? descriptor.routeId with
  | none => .error (failure .ROUTE_MISSING
      [units "Navigation route ", descriptor.routeId, units " is missing."])
  | some route => do
    let target := Target.platformPlugin pluginSection.pluginId route.id
    let href ← routeHref route descriptor.params
    let unavailable := failure .INPUT_INVALID
      [units "Navigation label ", descriptor.labelMessageId, units " is unavailable."]
    match pluginSection.messages.get? descriptor.labelMessageId with
    | none => .error unavailable
    | some label => do
      failIf (label.length < 1 ∨ 120 < label.length) unavailable
      let s ← registerNode host s
        { id := descriptor.id, owner := .platformPlugin pluginSection.pluginId, kind := .link
          parentId := some (descriptor.parentId.getD pluginSection.id), label, icon := none
          order := descriptor.order, target := some target }
      registerRoute s
        { target, href
          permissionId := if route.permission = descriptor.permission then route.permission
            else route.permission ++ 0 :: descriptor.permission }

/-- mirrors packages/ui-runtime/src/workspace-navigation.ts:184-213 -/
def registerSection (host : Host) (s : State) (pluginSection : Section) : Result State := do
  failIf (¬ pluginSection.active) (failure .PLUGIN_INACTIVE
    [units "Plugin navigation owner ", pluginSection.pluginId, units " is inactive."])
  failIf ((s.sections.get? pluginSection.id).isSome ∨
      s.sections.entries.any fun e => e.2.pluginId = pluginSection.pluginId)
    (failure .DUPLICATE_ID [units "Plugin section ", pluginSection.id, units " is duplicate."])
  let s := { s with sections := s.sections.set pluginSection.id pluginSection }
  let s ← registerNode host s (folder pluginSection.id (.platformPlugin pluginSection.pluginId)
    pluginSection.label pluginSection.icon pluginSection.order)
  let (s, sectionRoutes) ←
    pluginSection.routes.foldlM (registerPluginRoute pluginSection.pluginId) (s, JsMap.empty)
  let descriptors ←
    pluginSection.navigation.foldlM (registerDescriptor pluginSection.pluginId) JsMap.empty
  (descriptors.entries.map Prod.snd).foldlM (registerPluginLink host pluginSection sectionRoutes) s

/-- mirrors packages/ui-runtime/src/workspace-navigation.ts:215-219 -/
def registerFolder (s : State) (raw : Option Node) : Result State :=
  let invalid := failure .INPUT_INVALID [units "Customer navigation folder is invalid."]
  match raw with
  | none => .error invalid
  | some node => do
    failIf (node.owner ≠ .customer ∨ node.kind ≠ .folder) invalid
    let nodes ← register s.nodes node.id node .DUPLICATE_ID
    return { s with nodes }

def readPermission : Str := units "system.workspace-pages.read"

/-- mirrors packages/ui-runtime/src/workspace-navigation.ts:222-231 -/
def registerPage (host : Host) (input : Input) (s : State) (raw : Option Page) : Result State :=
  let invalid := failure .INPUT_INVALID [units "Workspace page navigation identity is invalid."]
  match raw with
  | none => .error invalid
  | some page => do
    failIf (page.applicationId ≠ input.applicationId ∨ page.environment ≠ input.environment) invalid
    let pages ← register s.pages page.pageId page .DUPLICATE_ID
    let s := { s with pages }
    match page.published, page.placement with
    | true, some (parentId, order) => do
      let target := Target.workspacePage page.pageId false
      let href ← match encodeURIComponent page.pageId with
        | .ok text => .ok (units "/workspace/pages/" ++ text)
        | .error _ => .error .uriError
      let s ← registerNode host s
        { id := page.pageId, owner := .customer, kind := .link, parentId := some parentId
          label := page.title, icon := none, order, target := some target }
      registerRoute s { target, href, permissionId := readPermission }
    | _, _ => .ok s

/-- mirrors packages/ui-runtime/src/workspace-navigation.ts:132-146 -/
def assertParentOwnership (nodes : JsMap Str Node) (sections : JsMap Str Section) : Result Unit :=
  forM nodes.entries fun (_, node) =>
    match node.parentId with
    | none => .ok ()
    | some parentId =>
      match nodes.get? parentId with
      | none => .error (failure .PARENT_MISSING
          [units "Navigation parent ", parentId, units " is missing."])
      | some parent => do
        failIf (parent.kind ≠ .folder) (failure .FOREIGN_PARENT
          [units "Navigation parent ", parentId, units " is not a folder."])
        match node.owner, parent.owner with
        | .platformPlugin pluginId, parentOwner =>
          failIf (parentOwner ≠ .platformPlugin pluginId) (failure .FOREIGN_PARENT
            [units "Plugin navigation ", node.id, units " crosses owner boundaries."])
        | .customer, .platformPlugin _ =>
          failIf (¬ (sections.get? parent.id).any (·.acceptsCustomerChildren))
            (failure .FOREIGN_PARENT
              [units "Customer navigation ", node.id, units " uses a closed plugin parent."])
        | .customer, .platform => .error (failure .FOREIGN_PARENT
            [units "Customer navigation ", node.id, units " crosses owner boundaries."])
        | _, _ => .ok ()

/-- Everything that is registered before the tree is checked.
mirrors packages/ui-runtime/src/workspace-navigation.ts:165-235 -/
def registerAll (host : Host) (input : Input) : Result State := do
  failIf (¬ preferencesOk input.preferences)
    (failure .INPUT_INVALID [units "Workspace navigation preferences are invalid."])
  let selected ← selectSystemRoutes [] (-1) input.implementedSystemRouteIds
  let s : State := ⟨JsMap.empty, JsMap.empty, JsMap.empty, JsMap.empty, JsMap.empty⟩
  let s ← registerNode host s
    (folder (units "k-nex.navigation.root") .platform (units "K-Nex") (some (units "dashboard")) 0)
  let s ← registerNode host s
    (folder systemRootId .platform (units "System") (some (units "system")) 1000000)
  let s ← (fixedRoutes.filter fun route => selected.contains route.routeId).foldlM
    (registerSystemRoute host) s
  let s ← input.plugins.foldlM (registerSection host) s
  let s ← input.customerFolders.foldlM registerFolder s
  let s ← input.pages.foldlM (registerPage host input) s
  assertParentOwnership s.nodes s.sections
  return s

/-! ## What is shown -/

structure ResolvedRoute where
  target : Target
  href : Str
  deriving DecidableEq

structure Seen where
  visibleLinks : List Str
  visibleRoutes : JsMap Str ResolvedRoute
  hrefs : JsMap Str Str

def answer (port : Option Bool) : Result Bool :=
  match port with
  | none => .error .rejected
  | some allowed => .ok allowed

/-- mirrors packages/ui-runtime/src/workspace-navigation.ts:247-249 -/
def isAllowed (input : Input) (route : RegisteredRoute) : Result Bool := do
  let answers ← (route.permissionId.splitOn 0).mapM fun permissionId =>
    answer (input.authorize permissionId route.target)
  if answers.all id then
    match route.target with
    | .workspacePage pageId _ => answer (input.pageAccess pageId)
    | _ => .ok true
  else .ok false

/-- mirrors packages/ui-runtime/src/workspace-navigation.ts:243-256 -/
def visit (input : Input) (routes : JsMap Str RegisteredRoute) (seen : Seen) (node : Node) :
    Result Seen :=
  match node.kind, node.target with
  | .link, some target =>
    match routes.get? (targetKey target) with
    | none => .error (failure .ROUTE_MISSING
        [units "Workspace route for ", node.id, units " is missing."])
    | some route => do
      let allowed ← isAllowed input route
      if allowed then do
        failIf ((seen.hrefs.get? route.href).any fun existing => existing ≠ targetKey route.target)
          (failure .ROUTE_PATH_CONFLICT
            [units "Workspace route path ", route.href, units " is ambiguous."])
        return {
          visibleLinks := seen.visibleLinks ++ [node.id]
          visibleRoutes := seen.visibleRoutes.set (targetKey route.target) ⟨route.target, route.href⟩
          hrefs := seen.hrefs.set route.href (targetKey route.target) }
      else return seen
  | _, _ => .ok seen

/-- mirrors packages/ui-runtime/src/workspace-navigation.ts:258-266 -/
def visibleNodes (s : State) (seen : Seen) : Result (List Str) := do
  let above ← seen.visibleLinks.mapM fun id =>
    match ancestors (parentOf s.nodes) (s.nodes.size + 1) id with
    | none => .error .endless
    | some ids => .ok ids
  return seen.visibleLinks ++
    ((s.sections.entries.filter fun e => e.2.acceptsCustomerChildren).map fun e => e.2.id) ++
    above.flatten ++ [systemRootId]

/-- `[...new Set(values)]`. -/
def uniqueIds (values : List Str) : List Str := values.foldl JsMap.addSet []

structure Shortcut where
  pageId : Str
  label : Str
  href : Str

structure Resolved where
  nodes : List Node
  routes : List ResolvedRoute
  favorites : List Shortcut
  recent : List Shortcut
  sidebar : Str

/-- mirrors packages/ui-runtime/src/workspace-navigation.ts:269-273 -/
def shortcut (s : State) (seen : Seen) (pageId : Str) : Option Shortcut := do
  let page ← s.pages.get? pageId
  let route ← seen.visibleRoutes.get? (targetKey (.workspacePage pageId false))
  return { pageId, label := page.title, href := route.href }

/-- `left.order - right.order || left.id.localeCompare(right.id)` is not positive. -/
def before (host : Host) (left right : Node) : Bool :=
  left.order < right.order || (left.order = right.order && host.localeLe left.id right.id)

/-- mirrors packages/ui-runtime/src/workspace-navigation.ts:165-282 -/
def resolveWorkspaceNavigation (host : Host) (input : Input) : Result Resolved := do
  let s ← registerAll host input
  let all := s.nodes.entries.map Prod.snd
  let complete ← treeOk host input.applicationId input.environment input.revision all
  failIf (¬ complete) (failure .INPUT_INVALID [units "Workspace navigation tree is invalid."])
  let seen ← all.foldlM (visit input s.routes) ⟨[], JsMap.empty, JsMap.empty⟩
  let shown ← visibleNodes s seen
  let nodes := (all.filter fun node => shown.contains node.id).mergeSort (before host)
  let ok ← treeOk host input.applicationId input.environment input.revision nodes
  failIf (¬ ok) .zodError
  return {
    nodes
    routes := (seen.visibleRoutes.entries.map Prod.snd).mergeSort
      fun left right => host.localeLe left.href right.href
    favorites := (uniqueIds input.preferences.favoritePageIds).filterMap (shortcut s seen)
    recent := (uniqueIds input.preferences.recentPageIds).filterMap (shortcut s seen)
    sidebar := input.preferences.sidebar }

section Proofs

/-! ## Keys of targets -/

theorem nodup_targetFields (t : Target) :
    (((units "class", t.className) :: t.rest).map Prod.fst).Nodup := by
  cases t with
  | system routeId =>
    show [units "class", units "routeId"].Nodup
    decide
  | hotApplication appId =>
    show [units "class", units "appId"].Nodup
    decide
  | platformPlugin ownerPluginId routeId =>
    show [units "class", units "ownerPluginId", units "routeId"].Nodup
    decide
  | workspacePage pageId edit =>
    show [units "class", units "pageId", units "mode"].Nodup
    decide

theorem clean_targetJson (t : Target) : Clean (targetJson t) := by
  refine ⟨⟨?_, distinctFields_iff.mpr fun f hf => ?_⟩, noStrayFields_iff.mpr fun f hf => ?_⟩
  · rw [List.map_map]
    exact nodup_targetFields t
  · obtain ⟨field, -, rfl⟩ := List.mem_map.mp hf
    trivial
  · obtain ⟨field, -, rfl⟩ := List.mem_map.mp hf
    trivial

/-- Targets with the same text have the same fields. -/
theorem mem_fields_of_key {t t' : Target} (h : targetKey t = targetKey t') {field : Str × Str}
    (hfield : field ∈ (units "class", t.className) :: t.rest) :
    field ∈ (units "class", t'.className) :: t'.rest := by
  have hassert := fun t => assertJsonValue_ofParsed (targetJson t) (units "$") (clean_targetJson t).2
  have hkey : ∀ t, canonicalJson naturals (ofParsed (targetJson t)) = .ok (targetKey t) := by
    intro t
    unfold targetKey
    rw [canonicalJson_eq (hassert t)]
  have hnorm : norm naturals (targetJson t) = norm naturals (targetJson t') := by
    refine (canonicalJson_inj (clean_targetJson t).1 (clean_targetJson t').1 (hassert t)
      (hassert t')).mp ?_
    rw [hkey, hkey, h]
  have hsame := same_of_norm _ _ (clean_targetJson t).1 (clean_targetJson t').1 (clean_targetJson t).2
    (clean_targetJson t').2 hnorm
  obtain ⟨w, hw, hlike⟩ := sameFields_iff.mp hsame.2 field.1 (.str field.2)
    (List.mem_map.mpr ⟨field, hfield, rfl⟩)
  obtain ⟨field', hfield', heq⟩ := List.mem_map.mp hw
  obtain ⟨hname, rfl⟩ := Prod.mk.inj heq
  have hvalue : field.2 = field'.2 := hlike
  rwa [show field = field' from Prod.ext hname.symm hvalue]

theorem targetKey_injective {t t' : Target} (h : targetKey t = targetKey t') : t = t' := by
  have hfields := fun {f : Str × Str} => @mem_fields_of_key t t' h f
  have hunique := fun {f g : Str × Str} (hf : f ∈ _) (hg : g ∈ _) (hname : f.1 = g.1) =>
    List.inj_on_of_nodup_map (nodup_targetFields t') hf hg hname
  have hclass : t.className = t'.className :=
    congrArg Prod.snd (hunique (hfields List.mem_cons_self) List.mem_cons_self rfl)
  have hvalue : ∀ {name v v' : Str}, (name, v) ∈ t.rest → (name, v') ∈ t'.rest → v = v' :=
    fun hv hv' => congrArg Prod.snd
      (hunique (hfields (List.mem_cons_of_mem _ hv)) (List.mem_cons_of_mem _ hv') rfl)
  cases t with
  | system routeId =>
    cases t' with
    | system routeId' => rw [hvalue (List.mem_cons_self) (List.mem_cons_self)]
    | _ =>
      simp only [Target.className] at hclass
      exact absurd hclass (by decide)
  | hotApplication appId =>
    cases t' with
    | hotApplication appId' => rw [hvalue (List.mem_cons_self) (List.mem_cons_self)]
    | _ =>
      simp only [Target.className] at hclass
      exact absurd hclass (by decide)
  | platformPlugin ownerPluginId routeId =>
    cases t' with
    | platformPlugin ownerPluginId' routeId' =>
      rw [hvalue (List.mem_cons_self) (List.mem_cons_self),
        hvalue (List.mem_cons_of_mem _ List.mem_cons_self) (List.mem_cons_of_mem _ List.mem_cons_self)]
    | _ =>
      simp only [Target.className] at hclass
      exact absurd hclass (by decide)
  | workspacePage pageId edit =>
    cases t' with
    | workspacePage pageId' edit' =>
      have hmode := hvalue (List.mem_cons_of_mem _ List.mem_cons_self)
        (List.mem_cons_of_mem _ List.mem_cons_self)
      have hmodes : ∀ b b' : Bool, units (if b then "edit" else "view") =
          units (if b' then "edit" else "view") → b = b' := by decide
      rw [hvalue (List.mem_cons_self) (List.mem_cons_self), hmodes edit edit' hmode]
    | _ =>
      simp only [Target.className] at hclass
      exact absurd hclass (by decide)

/-! ## What is registered -/

theorem register_eq_ok {α : Type} {map map' : JsMap Str α} {id : Str} {value : α} {code : Code} :
    register map id value code = .ok map' ↔ map.get? id = none ∧ map' = map.set id value := by
  unfold register
  rw [check_bind_eq_ok, failIf_eq_ok, Bool.not_eq_true, Option.isSome_eq_false_iff,
    Option.isNone_iff_eq_none]
  exact and_congr_right fun _ => ⟨fun h => (Except.ok.inj h).symm, fun h => by rw [h]; rfl⟩

/-- What the input allows: the route of the target is there, and the authority grants each of its
permissions and, of a page, the access. -/
def Authorized (input : Input) : Target → Prop
  | .system routeId => ∃ route ∈ fixedRoutes, route.routeId = routeId ∧
      input.authorize route.permissionId (.system routeId) = some true
  | .hotApplication _ => False
  | .platformPlugin ownerPluginId routeId =>
    ∃ pluginSection ∈ input.plugins, pluginSection.pluginId = ownerPluginId ∧
      pluginSection.active = true ∧
      ∃ route, some route ∈ pluginSection.routes ∧ route.id = routeId ∧
      ∃ item, some item ∈ pluginSection.navigation ∧ item.routeId = routeId ∧
      input.authorize route.permission (.platformPlugin ownerPluginId routeId) = some true ∧
      input.authorize item.permission (.platformPlugin ownerPluginId routeId) = some true
  | .workspacePage pageId edit =>
    edit = false ∧ (∃ page, some page ∈ input.pages ∧ page.pageId = pageId ∧
      page.published = true ∧ page.placement.isSome) ∧
      input.authorize readPermission (.workspacePage pageId edit) = some true ∧
      input.pageAccess pageId = some true

/-- Where the ports grant what a registered route asks for, its target is authorised. -/
def Guarded (input : Input) (route : RegisteredRoute) : Prop :=
  (∀ permissionId ∈ route.permissionId.splitOn 0,
    input.authorize permissionId route.target = some true) →
  (∀ pageId edit, route.target = .workspacePage pageId edit → input.pageAccess pageId = some true) →
  Authorized input route.target

/-- What registering keeps: routes stand under the keys of their targets and ask for what they must,
nodes and plugins stand under their ids, and the node of a plugin has no parent. -/
structure Inv (input : Input) (s : State) : Prop where
  routes : ∀ k r, s.routes.get? k = some r → k = targetKey r.target ∧ Guarded input r
  ids : ∀ k n, s.nodes.get? k = some n → n.id = k
  sectionIds : ∀ k p, s.sections.get? k = some p → p.id = k
  roots : ∀ k p, s.sections.get? k = some p → ∃ n, s.nodes.get? k = some n ∧ n.parentId = none

variable {host : Host} {input : Input} {s s' : State}

theorem registerNode_eq_ok {node : Node} (h : registerNode host s node = .ok s') :
    s.nodes.get? node.id = none ∧ s' = { s with nodes := s.nodes.set node.id node } := by
  unfold registerNode parseNode at h
  obtain ⟨parsed, hparsed, h⟩ := bind_eq_ok.mp h
  obtain ⟨nodes, hnodes, h⟩ := bind_eq_ok.mp h
  split at hparsed
  · cases hparsed
    obtain ⟨hnew, rfl⟩ := register_eq_ok.mp hnodes
    exact ⟨hnew, (Except.ok.inj h).symm⟩
  · cases hparsed

theorem registerRoute_eq_ok {route : RegisteredRoute} (h : registerRoute s route = .ok s') :
    s' = { s with routes := s.routes.set (targetKey route.target) route } := by
  unfold registerRoute at h
  obtain ⟨routes, hroutes, h⟩ := bind_eq_ok.mp h
  obtain ⟨-, rfl⟩ := register_eq_ok.mp hroutes
  exact (Except.ok.inj h).symm

theorem registerRouteId_eq_ok {routeId href : Str} (h : registerRouteId s routeId href = .ok s') :
    ∃ routeIds, s' = { s with routeIds } := by
  unfold registerRouteId at h
  obtain ⟨routeIds, -, h⟩ := bind_eq_ok.mp h
  exact ⟨routeIds, (Except.ok.inj h).symm⟩

theorem Inv.setNode (h : Inv input s) {node : Node} (hnew : s.nodes.get? node.id = none) :
    Inv input { s with nodes := s.nodes.set node.id node } where
  routes := h.routes
  ids k n hn := by
    rw [JsMap.get?_set] at hn
    split at hn
    · rename_i hk
      cases hn
      exact hk.symm
    · exact h.ids k n hn
  sectionIds := h.sectionIds
  roots k p hp := by
    obtain ⟨n, hn, hparent⟩ := h.roots k p hp
    refine ⟨n, ?_, hparent⟩
    rw [JsMap.get?_set_ne _ _ fun hk => ?_]
    · exact hn
    · rw [hk, hnew] at hn
      cases hn

theorem Inv.setRoute (h : Inv input s) {route : RegisteredRoute} (hroute : Guarded input route) :
    Inv input { s with routes := s.routes.set (targetKey route.target) route } where
  routes k r hr := by
    rw [JsMap.get?_set] at hr
    split at hr
    · rename_i hk
      cases hr
      exact ⟨hk, hroute⟩
    · exact h.routes k r hr
  ids := h.ids
  sectionIds := h.sectionIds
  roots := h.roots

theorem Inv.setRouteIds (h : Inv input s) (routeIds : JsMap Str Str) :
    Inv input { s with routeIds } := ⟨h.routes, h.ids, h.sectionIds, h.roots⟩

theorem Inv.setPages (h : Inv input s) (pages : JsMap Str Page) : Inv input { s with pages } :=
  ⟨h.routes, h.ids, h.sectionIds, h.roots⟩

theorem inv_registerNode (h : Inv input s) {node : Node} (hs : registerNode host s node = .ok s') :
    Inv input s' := by
  obtain ⟨hnew, rfl⟩ := registerNode_eq_ok hs
  exact h.setNode hnew

theorem inv_registerRoute (h : Inv input s) {route : RegisteredRoute} (hroute : Guarded input route)
    (hs : registerRoute s route = .ok s') : Inv input s' := by
  rw [registerRoute_eq_ok hs]
  exact h.setRoute hroute

theorem inv_registerSystemRoute (h : Inv input s) {route : SystemRoute} (hroute : route ∈ fixedRoutes)
    (hs : registerSystemRoute host s route = .ok s') : Inv input s' := by
  unfold registerSystemRoute at hs
  obtain ⟨s₁, h₁, hrest⟩ := bind_eq_ok.mp hs
  obtain ⟨s₂, h₂, h₃⟩ := bind_eq_ok.mp hrest
  obtain ⟨routeIds, rfl⟩ := registerRouteId_eq_ok h₁
  refine inv_registerNode (inv_registerRoute (h.setRouteIds routeIds) ?_ h₂) h₃
  intro hgranted _
  have hnul : ∀ route ∈ fixedRoutes, 0 ∉ route.permissionId := by decide
  refine ⟨route, hroute, rfl, hgranted _ ?_⟩
  rw [List.splitOn_eq_singleton (hnul route hroute)]
  exact List.mem_singleton_self _

end Proofs

end KNex.Ui.WorkspaceNavigation
