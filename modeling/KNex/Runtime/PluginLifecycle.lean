import KNex.Contracts.Identity
import KNex.Core.Propagation

/-!
# Lifecycle scoping of a registration

`scopePlatformPluginRegistration` of `packages/runtime/src/plugin-lifecycle.ts` takes the
registered contributions apart by the lifecycle states of their plugins. A plugin with a required
provider that is not available is not available either, and so on along the required edges: the
loop over `requiredProviders` runs until a pass adds nothing. Capability services that were handed
out during registration are leases, and each use of one asks `unavailable` of
`registration-lifecycle-authority.ts` again.

The loop marks the plugins with a walk to a participant that is not both enabled and ready
(`scopePlatformPluginRegistration_spec`), and the leases answer as the scoping did. A participant
that is disabled itself keeps the contributions of the retained categories, which its availability
goes on listing (`disabled_keeps_schema`).

A registration comes with the authority that the weak map of the source holds for it.
-/
namespace KNex.Runtime.PluginLifecycle

open KNex.Core KNex.Core.Propagation KNex.Contracts

/-! ## Data -/

/-- mirrors packages/runtime/src/plugin-lifecycle.ts:16-17 -/
inductive PlatformPluginLifecycleErrorCode where
  | invalidState | packageMismatch | notReady | operationUnsupported | referencesPresent
  deriving DecidableEq, Repr

/-- What is thrown: a lifecycle error, or the failed parse of an identifier. -/
inductive LifecycleError where
  | lifecycle (code : PlatformPluginLifecycleErrorCode) (message : String)
  | schema
  deriving DecidableEq, Repr

abbrev Result (α : Type) := Except LifecycleError α

def fail {α : Type} (code : PlatformPluginLifecycleErrorCode) (message : String) : Result α :=
  .error (.lifecycle code message)

/-- mirrors packages/contracts/src/plugin-contribution-taxonomy.ts:6-29 -/
inductive PluginContributionCategory where
  | schema | migrations | services | permissions | policyBindings | roleTemplates | settings
  | sources | actions | tools | events | jobs | realtimeTopics | components | blocks | routes
  | navigation | pageTemplates | localization | healthAudit | lifecycle | testingMetadata
  deriving DecidableEq, Repr

def pluginContributionCategoryKeys : List PluginContributionCategory :=
  [.schema, .migrations, .services, .permissions, .policyBindings, .roleTemplates, .settings,
    .sources, .actions, .tools, .events, .jobs, .realtimeTopics, .components, .blocks, .routes,
    .navigation, .pageTemplates, .localization, .healthAudit, .lifecycle, .testingMetadata]

theorem mem_categoryKeys (kind : PluginContributionCategory) :
    kind ∈ pluginContributionCategoryKeys := by
  cases kind <;> decide

/-- mirrors packages/runtime/src/registration-runtime.ts:27 -/
inductive BoundContributionKind where
  | sources | actions | events | jobs | realtimeTopics | components | blocks
  deriving DecidableEq, Repr

def BoundContributionKind.category : BoundContributionKind → PluginContributionCategory
  | .sources => .sources
  | .actions => .actions
  | .events => .events
  | .jobs => .jobs
  | .realtimeTopics => .realtimeTopics
  | .components => .components
  | .blocks => .blocks

/-- mirrors packages/runtime/src/plugin-lifecycle.ts:60-62 -/
def retainedWhileDisabled : PluginContributionCategory → Bool
  | .healthAudit | .lifecycle | .migrations | .schema | .settings | .testingMetadata => true
  | _ => false

structure RegisteredContribution (V : Type) where
  pluginId : String
  id : String
  value : V
  deriving DecidableEq, Repr

structure RegistrationInventoryPlugin where
  id : String
  contributions : List (PluginContributionCategory × List String)
  capabilityAccess : List String
  deriving DecidableEq, Repr

/-- mirrors packages/runtime/src/registration-runtime.ts:102-107 -/
structure RegistrationResult (V : Type) where
  phases : List String
  inventory : List RegistrationInventoryPlugin
  contributions : PluginContributionCategory → List (RegisteredContribution V)
  bindings : BoundContributionKind → List (RegisteredContribution V)

/-! ## Lifecycle states -/

structure PlatformPluginPackageIdentity where
  name : String
  version : String
  integrity : String
  deriving DecidableEq, Repr

inductive PackageState where
  | absent
  | installed (identity : PlatformPluginPackageIdentity)
  deriving DecidableEq, Repr

def PackageState.isInstalled : PackageState → Bool
  | .absent => false
  | .installed _ => true

inductive Support where
  | supported | unsupported
  deriving DecidableEq, Repr

inductive DataState where
  | none | active | retained
  deriving DecidableEq, Repr

structure Configuration where
  revision : Int
  ready : Bool
  deriving DecidableEq, Repr

structure Migration where
  current : Int
  required : Int
  ready : Bool
  deriving DecidableEq, Repr

/-- mirrors packages/runtime/src/plugin-lifecycle.ts:32-41 -/
structure PlatformPluginLifecycleState where
  pluginId : String
  catalogStatus : Support
  package : PackageState
  enabled : Bool
  configuration : Configuration
  migration : Migration
  dataState : DataState
  releaseStatus : Support
  deriving DecidableEq, Repr

/-- mirrors packages/runtime/src/plugin-lifecycle.ts:79-81 -/
def validRevision (value : Int) : Bool := decide (0 ≤ value ∧ value ≤ 2 ^ 53 - 1)

/-- `/^sha512-[A-Za-z0-9+/]+={0,2}$/u`. -/
def integrityOk (s : String) : Bool :=
  let digest := s.toList.drop 7
  let base64 (c : Char) : Bool := c.isAlphanum || c == '+' || c == '/'
  startsWith "sha512-" s && !(digest.takeWhile base64).isEmpty &&
    (digest.dropWhile base64).all (· == '=') && decide ((digest.dropWhile base64).length ≤ 2)

/-- mirrors packages/runtime/src/plugin-lifecycle.ts:83-88 -/
def assertPackageIdentity (identity : PlatformPluginPackageIdentity) : Result Unit :=
  if !startsWith "@" identity.name ∨ jsLength identity.name > 214 ∨ jsLength identity.version < 1 ∨
      jsLength identity.version > 128 ∨ !integrityOk identity.integrity then
    fail .invalidState "Plugin package identity is invalid."
  else .ok ()

/-- mirrors packages/runtime/src/plugin-lifecycle.ts:90-100 -/
def assertState (state : PlatformPluginLifecycleState) : Result Unit := do
  if !resourceIdOk state.pluginId then throw .schema
  if !validRevision state.configuration.revision ∨ !validRevision state.migration.current ∨
      !validRevision state.migration.required then
    fail .invalidState "Plugin lifecycle revisions must be non-negative safe integers."
  match state.package with
  | .installed identity => assertPackageIdentity identity
  | .absent => pure ()
  if state.package = .absent ∧ (state.enabled ∨ state.dataState = .active) then
    fail .invalidState "An absent plugin package cannot be enabled or own active data."
  if state.enabled ∧ state.dataState = .retained then
    fail .invalidState "Enabled plugin data cannot remain in retained state."

/-- mirrors packages/runtime/src/plugin-lifecycle.ts:116-121 -/
def platformPluginReadyForEnable (state : PlatformPluginLifecycleState) : Result Bool := do
  assertState state
  return decide (state.catalogStatus = .supported) && decide (state.releaseStatus = .supported) &&
    state.package.isInstalled && state.configuration.ready && state.migration.ready &&
    decide (state.migration.current = state.migration.required)

/-! ## Availability -/

/-- What is available of one plugin. `authoritative` says that the object is one that
`reconcilePlatformPluginAvailability` returned.
mirrors packages/runtime/src/plugin-lifecycle.ts:50-56 -/
structure PlatformPluginAvailability where
  pluginId : String
  enabled : Bool
  ready : Bool
  available : JsMap PluginContributionCategory (List String)
  authoritative : Bool

def PlatformPluginAvailability.isAvailable (v : PlatformPluginAvailability)
    (kind : PluginContributionCategory) (id : String) : Bool :=
  (v.available.get? kind).any fun ids => ids.contains id

section Scoping

variable {V : Type}

/-- The identifiers of one category that stay available.
mirrors packages/runtime/src/plugin-lifecycle.ts:171-174 -/
def availableIds (registration : RegistrationResult V) (state : PlatformPluginLifecycleState)
    (ready : Bool) (kind : PluginContributionCategory) : List String :=
  (((registration.contributions kind).filter fun c => c.pluginId = state.pluginId).map
    RegisteredContribution.id).filter fun _ =>
      state.package.isInstalled && (state.enabled && ready || retainedWhileDisabled kind)

/-- mirrors packages/runtime/src/plugin-lifecycle.ts:166-187 -/
def reconcilePlatformPluginAvailability (registration : RegistrationResult V)
    (state : PlatformPluginLifecycleState) : Result PlatformPluginAvailability := do
  assertState state
  let ready ← platformPluginReadyForEnable state
  let available := pluginContributionCategoryKeys.foldl (fun m kind =>
    let ids := availableIds registration state ready kind
    if ids.length > 0 then m.set kind ids.eraseDups else m) .empty
  return ⟨state.pluginId, state.enabled, ready, available, true⟩

/-! ## The authority of the leases -/

/-- mirrors packages/runtime/src/registration-lifecycle-authority.ts:8-11 -/
structure LifecycleScope where
  availability : JsMap String PlatformPluginAvailability
  unavailablePlugins : List String

/-- mirrors packages/runtime/src/registration-lifecycle-authority.ts:13-18 -/
structure RegistrationLifecycleAuthority where
  requiredProviders : JsMap String (List String)
  lifecycleParticipants : List String
  registrationOpen : Bool
  scope : Option LifecycleScope

/-- `new Set([...set, ...values])`. -/
def addAll (set values : List String) : List String := values.foldl JsMap.addSet set

/-- mirrors packages/runtime/src/registration-lifecycle-authority.ts:22-30 -/
def createRegistrationLifecycleAuthority (requiredProviders : JsMap String (List String)) :
    RegistrationLifecycleAuthority where
  requiredProviders := requiredProviders
  lifecycleParticipants := requiredProviders.entries.foldl (fun participants entry =>
    if entry.2.length = 0 then participants
    else addAll (JsMap.addSet participants entry.1) entry.2) []
  registrationOpen := true
  scope := none

/-- mirrors packages/runtime/src/registration-lifecycle-authority.ts:32-34 -/
def freezeRegistrationLifecycleAuthority (authority : RegistrationLifecycleAuthority) :
    RegistrationLifecycleAuthority :=
  { authority with registrationOpen := false }

/-- mirrors packages/runtime/src/registration-lifecycle-authority.ts:36-43 -/
def retainRegistrationLifecycleAuthority (authority : RegistrationLifecycleAuthority)
    (lifecycleParticipants : List String) : RegistrationLifecycleAuthority :=
  { authority with
    lifecycleParticipants := addAll authority.lifecycleParticipants lifecycleParticipants }

/-- mirrors packages/runtime/src/registration-lifecycle-authority.ts:49-56 -/
def scopeRegistrationLifecycleAuthority (authority : RegistrationLifecycleAuthority)
    (availability : JsMap String PlatformPluginAvailability) (unavailablePlugins : List String) :
    RegistrationLifecycleAuthority :=
  { authority with scope := some ⟨availability, unavailablePlugins⟩ }

/-- What a lease asks of its consumer and of its provider.
mirrors packages/runtime/src/registration-lifecycle-authority.ts:58-65 -/
def unavailable (authority : RegistrationLifecycleAuthority) (pluginId : String) : Bool :=
  match authority.scope with
  | none => !authority.registrationOpen
  | some scope =>
    if scope.unavailablePlugins.contains pluginId then true
    else if !authority.lifecycleParticipants.contains pluginId then false
    else match scope.availability.get? pluginId with
      | none => true
      | some availability => !availability.enabled || !availability.ready

/-! ## Scoping -/

/-- mirrors packages/runtime/src/plugin-lifecycle.ts:215-220 -/
def collectAvailability (availability : JsMap String PlatformPluginAvailability)
    (value : PlatformPluginAvailability) : Result (JsMap String PlatformPluginAvailability) :=
  if !value.authoritative then
    fail .invalidState ("Plugin " ++ value.pluginId ++ " availability is not authoritative.")
  else if (availability.get? value.pluginId).isSome then
    fail .invalidState ("Plugin " ++ value.pluginId ++ " has duplicate lifecycle availability.")
  else .ok (availability.set value.pluginId value)

/-- `authority?.lifecycleParticipants ?? new Set(…)`. -/
def lifecycleParticipants (registration : RegistrationResult V)
    (authority : Option RegistrationLifecycleAuthority) : List String :=
  match authority with
  | some authority => authority.lifecycleParticipants
  | none => addAll [] ((registration.contributions .lifecycle).map RegisteredContribution.pluginId)

/-- mirrors packages/runtime/src/plugin-lifecycle.ts:223-225 -/
def requireAvailability (availability : JsMap String PlatformPluginAvailability)
    (pluginId : String) : Result Unit :=
  if (availability.get? pluginId).isNone then
    fail .notReady ("Plugin " ++ pluginId ++
      " requires lifecycle availability before registration can execute.")
  else .ok ()

/-- A participant that is not both enabled and ready.
mirrors packages/runtime/src/plugin-lifecycle.ts:230 -/
def withheld (availability : JsMap String PlatformPluginAvailability) (participants : List String)
    (pluginId : String) : Bool :=
  participants.contains pluginId &&
    match availability.get? pluginId with
    | none => true
    | some value => !value.enabled || !value.ready

/-- The passes over the required edges, one more of them than there are consumers.
mirrors packages/runtime/src/plugin-lifecycle.ts:226-241 -/
def unavailablePlugins (authority : Option RegistrationLifecycleAuthority)
    (availability : JsMap String PlatformPluginAvailability) (participants : List String) :
    List String :=
  match authority with
  | none => []
  | some authority => propagate (withheld availability participants) authority.requiredProviders
      (authority.requiredProviders.size + 1) []

/-- mirrors packages/runtime/src/plugin-lifecycle.ts:242-243 -/
def allowed (availability : JsMap String PlatformPluginAvailability)
    (participants unavailable : List String) (kind : PluginContributionCategory)
    (pluginId id : String) : Bool :=
  !unavailable.contains pluginId && (!participants.contains pluginId ||
    (availability.get? pluginId).any fun value => value.isAvailable kind id)

/-- The scoped registration, what is remembered with it, and the authority after the call. -/
structure Scoped (V : Type) where
  result : RegistrationResult V
  availability : JsMap String PlatformPluginAvailability
  participants : List String
  unavailablePlugins : List String
  authority : Option RegistrationLifecycleAuthority

/-- The result for the contributions that are allowed.
mirrors packages/runtime/src/plugin-lifecycle.ts:244-259 -/
def restrict (registration : RegistrationResult V)
    (allowed : PluginContributionCategory → String → String → Bool) : RegistrationResult V :=
  let contributions kind := (registration.contributions kind).filter fun c =>
    allowed kind c.pluginId c.id
  { phases := registration.phases
    inventory := registration.inventory.map fun plugin => { plugin with
      contributions := pluginContributionCategoryKeys.flatMap fun kind =>
        let ids := ((contributions kind).filter fun c => c.pluginId = plugin.id).map
          RegisteredContribution.id
        if ids.length = 0 then [] else [(kind, ids)] }
    contributions
    bindings := fun kind => (registration.bindings kind).filter fun c =>
      allowed kind.category c.pluginId c.id }

/-- mirrors packages/runtime/src/plugin-lifecycle.ts:211-265 -/
def scopePlatformPluginRegistration (registration : RegistrationResult V)
    (authority : Option RegistrationLifecycleAuthority)
    (availabilityValues : List PlatformPluginAvailability) : Result (Scoped V) := do
  let availability ← availabilityValues.foldlM collectAvailability .empty
  let participants := lifecycleParticipants registration authority
  participants.forM (requireAvailability availability)
  let unavailable := unavailablePlugins authority availability participants
  return {
    result := restrict registration (allowed availability participants unavailable)
    availability, participants
    unavailablePlugins := unavailable
    authority := authority.map fun authority =>
      retainRegistrationLifecycleAuthority
        (scopeRegistrationLifecycleAuthority authority availability unavailable) participants }

/-- mirrors packages/runtime/src/plugin-lifecycle.ts:203-209 -/
def platformPluginEnabledInRegistration (registration : Scoped V) (pluginId : String) : Bool :=
  if registration.unavailablePlugins.contains pluginId then false
  else match registration.availability.get? pluginId with
    | none => true
    | some availability => availability.enabled && availability.ready

end Scoping

/-! ## What was collected -/

theorem mem_addAll {l values : List String} {a : String} : a ∈ addAll l values ↔ a ∈ l ∨ a ∈ values := by
  unfold addAll
  induction values generalizing l with
  | nil => simp
  | cons v values ih =>
    rw [List.foldl_cons, ih, JsMap.mem_addSet, List.mem_cons, or_assoc]

/-- The values by their plugins, each authoritative and alone for its plugin. -/
structure Collected (values : List PlatformPluginAvailability)
    (availability : JsMap String PlatformPluginAvailability) : Prop where
  authoritative : ∀ v ∈ values, v.authoritative = true
  nodup : (values.map PlatformPluginAvailability.pluginId).Nodup
  get? : ∀ p v, availability.get? p = some v ↔ v ∈ values ∧ v.pluginId = p

theorem collectAvailability_step {gone : List PlatformPluginAvailability}
    {availability : JsMap String PlatformPluginAvailability} {value : PlatformPluginAvailability}
    (h : Collected gone availability) (hauth : value.authoritative = true)
    (hnew : value.pluginId ∉ gone.map PlatformPluginAvailability.pluginId) :
    Collected (gone ++ [value]) (availability.set value.pluginId value) := by
  refine ⟨fun v hv => ?_, ?_, fun p v => ?_⟩
  · rcases List.mem_append.mp hv with hv | hv
    · exact h.authoritative v hv
    · rw [List.mem_singleton.mp hv]; exact hauth
  · rw [List.map_append, List.nodup_append']
    exact ⟨h.nodup, List.nodup_singleton _, List.disjoint_singleton.mpr hnew⟩
  · rw [JsMap.get?_set, List.mem_append, List.mem_singleton]
    split
    · rename_i hp
      subst hp
      constructor
      · intro hv
        cases hv
        exact ⟨.inr rfl, rfl⟩
      · rintro ⟨hv | rfl, hid⟩
        · exact absurd (List.mem_map.mpr ⟨v, hv, hid⟩) hnew
        · rfl
    · rename_i hp
      rw [h.get?]
      constructor
      · intro ⟨hv, hid⟩
        exact ⟨.inl hv, hid⟩
      · rintro ⟨hv | rfl, hid⟩
        · exact ⟨hv, hid⟩
        · exact absurd hid.symm hp

theorem collected_empty : Collected [] .empty :=
  ⟨by simp, by simp, fun p v => ⟨fun h => (by cases h), fun h => absurd h.1 List.not_mem_nil⟩⟩

theorem collected_of_ok {values : List PlatformPluginAvailability}
    {availability : JsMap String PlatformPluginAvailability}
    (h : values.foldlM collectAvailability .empty = .ok availability) :
    Collected values availability := by
  refine foldlM_eq_ok (P := Collected) h collected_empty fun gone value rest m m' _ hm hstep => ?_
  unfold collectAvailability at hstep
  split at hstep
  · cases hstep
  · rename_i hauth
    split at hstep
    · cases hstep
    · rename_i hnone
      cases hstep
      refine collectAvailability_step hm (by simpa using hauth) fun hin => hnone ?_
      obtain ⟨v, hv, hid⟩ := List.mem_map.mp hin
      rw [(hm.get? _ v).mpr ⟨hv, hid⟩]
      rfl

theorem collect_ok {values : List PlatformPluginAvailability}
    (hauth : ∀ v ∈ values, v.authoritative = true)
    (hnodup : (values.map PlatformPluginAvailability.pluginId).Nodup) :
    ∃ availability, values.foldlM collectAvailability .empty = .ok availability ∧
      Collected values availability := by
  refine foldlM_ok (P := Collected) collected_empty fun gone value rest m hl hm => ?_
  have hv := hauth value (by rw [hl]; simp)
  have hnew : value.pluginId ∉ gone.map PlatformPluginAvailability.pluginId := by
    rw [hl, List.map_append, List.nodup_append'] at hnodup
    exact fun hin => hnodup.2.2 hin List.mem_cons_self
  have hnone : m.get? value.pluginId = none := by
    rw [Option.eq_none_iff_forall_ne_some]
    intro v hsome
    obtain ⟨hmem, hid⟩ := (hm.get? _ v).mp hsome
    exact hnew (List.mem_map.mpr ⟨v, hmem, hid⟩)
  refine ⟨m.set value.pluginId value, ?_, collectAvailability_step hm hv hnew⟩
  unfold collectAvailability
  rw [hv, hnone]
  rfl

theorem requireAvailability_eq_ok {availability : JsMap String PlatformPluginAvailability}
    {p : String} {u : Unit} :
    requireAvailability availability p = .ok u ↔ ∃ v, availability.get? p = some v := by
  unfold requireAvailability
  cases availability.get? p with
  | none => simp [fail]
  | some v => simp

/-! ## What is available -/

theorem reconcile_eq_ok {V : Type} {registration : RegistrationResult V}
    {state : PlatformPluginLifecycleState} {v : PlatformPluginAvailability}
    (h : reconcilePlatformPluginAvailability registration state = .ok v) :
    v.pluginId = state.pluginId ∧ v.enabled = state.enabled ∧
      platformPluginReadyForEnable state = .ok v.ready ∧
      ∀ kind, v.available.get? kind =
        if (availableIds registration state v.ready kind).length > 0 then
          some (availableIds registration state v.ready kind).eraseDups else none := by
  unfold reconcilePlatformPluginAvailability at h
  obtain ⟨⟨⟩, -, h⟩ := bind_eq_ok.mp h
  obtain ⟨ready, hready, h⟩ := bind_eq_ok.mp h
  cases h
  refine ⟨rfl, rfl, hready, fun kind => ?_⟩
  have hfold := foldl_rule (P := fun gone (m : JsMap PluginContributionCategory (List String)) =>
      ∀ kind, m.get? kind = if kind ∈ gone ∧
        (availableIds registration state ready kind).length > 0 then
          some (availableIds registration state ready kind).eraseDups else none)
    (f := fun m kind =>
      let ids := availableIds registration state ready kind
      if ids.length > 0 then m.set kind ids.eraseDups else m)
    (l := pluginContributionCategoryKeys) (s := .empty)
    (fun kind => by rw [if_neg (fun h => absurd h.1 List.not_mem_nil)]; rfl) (by
      intro gone k rest m _ hm kind
      dsimp only
      by_cases hk : kind = k
      · subst hk
        split
        · rename_i hpos
          rw [JsMap.get?_set_self, if_pos ⟨by simp, hpos⟩]
        · rename_i hpos
          rw [hm, if_neg (fun h => hpos h.2), if_neg (fun h => hpos h.2)]
      · have hmem : kind ∈ gone ++ [k] ↔ kind ∈ gone := by simp [hk]
        split
        · simp only [JsMap.get?_set_ne _ _ hk, hm, hmem]
        · simp only [hm, hmem])
  have := hfold kind
  simp only [mem_categoryKeys kind, true_and] at this
  exact this

/-- What the availability of a state lists: the contributions of its plugin, all of them while it
is enabled and ready, and those of the retained categories while its package is installed. -/
theorem isAvailable_reconciled {V : Type} {registration : RegistrationResult V}
    {state : PlatformPluginLifecycleState} {v : PlatformPluginAvailability}
    (h : reconcilePlatformPluginAvailability registration state = .ok v)
    (kind : PluginContributionCategory) (id : String) :
    v.isAvailable kind id = true ↔
      (∃ c ∈ registration.contributions kind, c.pluginId = state.pluginId ∧ c.id = id) ∧
      state.package.isInstalled = true ∧
      (v.enabled = true ∧ v.ready = true ∨ retainedWhileDisabled kind = true) := by
  obtain ⟨-, henabled, -, hget⟩ := reconcile_eq_ok h
  have hids : ∀ id, id ∈ availableIds registration state v.ready kind ↔
      (∃ c ∈ registration.contributions kind, c.pluginId = state.pluginId ∧ c.id = id) ∧
      state.package.isInstalled = true ∧
      (v.enabled = true ∧ v.ready = true ∨ retainedWhileDisabled kind = true) := by
    intro id
    simp only [availableIds, List.mem_filter, List.mem_map, decide_eq_true_eq, Bool.and_eq_true,
      Bool.or_eq_true, henabled, and_assoc]
  unfold PlatformPluginAvailability.isAvailable
  rw [hget, ← hids]
  split
  · simp
  · rename_i hnone
    have hnil : availableIds registration state v.ready kind = [] :=
      List.eq_nil_of_length_eq_zero (by omega)
    simp [hnil]

/-! ## The law of a scoped registration -/

/-- `authority?.requiredProviders`, empty without an authority. -/
def requiredEdges (authority : Option RegistrationLifecycleAuthority) : JsMap String (List String) :=
  match authority with
  | none => .empty
  | some authority => authority.requiredProviders

section Law

variable {V : Type} {registration : RegistrationResult V}
  {authority : Option RegistrationLifecycleAuthority} {values : List PlatformPluginAvailability}
  {s : Scoped V}

/-- A lifecycle participant that is not both enabled and ready. -/
def Withheld (registration : RegistrationResult V)
    (authority : Option RegistrationLifecycleAuthority) (values : List PlatformPluginAvailability)
    (p : String) : Prop :=
  p ∈ lifecycleParticipants registration authority ∧
    ¬ ∃ v ∈ values, v.pluginId = p ∧ v.enabled = true ∧ v.ready = true

/-- Some plugin that `p` requires, directly or through others, is withheld. -/
def Blocked (registration : RegistrationResult V)
    (authority : Option RegistrationLifecycleAuthority) (values : List PlatformPluginAvailability)
    (p : String) : Prop :=
  ∃ q, Relation.TransGen (requiredEdges authority).Filed p q ∧ Withheld registration authority values q

/-- `p`, or some plugin that it requires, directly or through others, is withheld. -/
def Unavailable (registration : RegistrationResult V)
    (authority : Option RegistrationLifecycleAuthority) (values : List PlatformPluginAvailability)
    (p : String) : Prop :=
  ∃ q, Relation.ReflTransGen (requiredEdges authority).Filed p q ∧
    Withheld registration authority values q

theorem unavailable_iff_blocked {p : String} : Unavailable registration authority values p ↔
    Blocked registration authority values p ∨ Withheld registration authority values p := by
  unfold Unavailable Blocked
  constructor
  · rintro ⟨q, hw, hq⟩
    rcases Relation.reflTransGen_iff_eq_or_transGen.mp hw with rfl | hw
    · exact .inr hq
    · exact .inl ⟨q, hw, hq⟩
  · rintro (⟨q, hw, hq⟩ | hp)
    · exact ⟨q, hw.to_reflTransGen, hq⟩
    · exact ⟨p, .refl, hp⟩

/-- The call returned: what it collected and what it built from that. -/
structure ScopeOk (registration : RegistrationResult V)
    (authority : Option RegistrationLifecycleAuthority) (values : List PlatformPluginAvailability)
    (s : Scoped V) : Prop where
  collected : Collected values s.availability
  participants : s.participants = lifecycleParticipants registration authority
  known : ∀ p ∈ s.participants, ∃ v, s.availability.get? p = some v
  marks : s.unavailablePlugins = unavailablePlugins authority s.availability s.participants
  result : s.result = restrict registration
    (allowed s.availability s.participants s.unavailablePlugins)
  authority : s.authority = authority.map fun authority => retainRegistrationLifecycleAuthority
    (scopeRegistrationLifecycleAuthority authority s.availability s.unavailablePlugins)
    s.participants

theorem scope_ok (h : scopePlatformPluginRegistration registration authority values = .ok s) :
    ScopeOk registration authority values s := by
  unfold scopePlatformPluginRegistration at h
  obtain ⟨availability, hcollect, h⟩ := bind_eq_ok.mp h
  obtain ⟨⟨⟩, hknown, h⟩ := bind_eq_ok.mp h
  cases h
  refine ⟨collected_of_ok hcollect, rfl, fun p hp => ?_, rfl, rfl, rfl⟩
  exact requireAvailability_eq_ok.mp (forM_eq_ok.mp hknown p hp)

theorem withheld_iff (h : ScopeOk registration authority values s) (p : String) :
    withheld s.availability s.participants p = true ↔ Withheld registration authority values p := by
  unfold withheld Withheld
  rw [Bool.and_eq_true, List.contains_iff_mem, h.participants]
  refine and_congr_right fun hp => ?_
  obtain ⟨v, hv⟩ := h.known p (by rw [h.participants]; exact hp)
  obtain ⟨hmem, hid⟩ := (h.collected.get? p v).mp hv
  rw [hv]
  constructor
  · rintro hbad ⟨w, hw, hwid, henabled, hready⟩
    have hwv := (h.collected.get? p w).mpr ⟨hw, hwid⟩
    rw [hv] at hwv
    cases hwv
    simp [henabled, hready] at hbad
  · intro hno
    by_contra hgood
    refine hno ⟨v, hmem, hid, ?_⟩
    simpa using hgood

/-- The marks are the fixpoint. -/
theorem mem_unavailablePlugins (h : ScopeOk registration authority values s) (p : String) :
    p ∈ s.unavailablePlugins ↔ Blocked registration authority values p := by
  have hspoiled : Blocked registration authority values p ↔
      Spoiled (withheld s.availability s.participants) (requiredEdges authority) p := by
    unfold Blocked Spoiled
    simp only [withheld_iff h]
  rw [hspoiled, h.marks]
  cases authority with
  | none =>
    show p ∈ [] ↔ _
    refine ⟨fun hp => absurd hp List.not_mem_nil, ?_⟩
    rintro ⟨q, hw, -⟩
    obtain ⟨b, hE, -⟩ := Relation.TransGen.head'_iff.mp hw
    exact absurd hE (JsMap.not_filed_empty p b)
  | some a => exact mem_propagate (Nat.lt_succ_self _)

theorem unavailable_mark (h : ScopeOk registration authority values s) (p : String) :
    (p ∈ s.unavailablePlugins ∨ withheld s.availability s.participants p = true) ↔
      Unavailable registration authority values p := by
  rw [unavailable_iff_blocked, mem_unavailablePlugins h, withheld_iff h]

/-- The leases ask the same question. -/
theorem unavailable_lease (h : ScopeOk registration authority values s)
    {a : RegistrationLifecycleAuthority} (ha : s.authority = some a) (p : String) :
    unavailable a p = true ↔ Unavailable registration authority values p := by
  rw [← unavailable_mark h]
  rw [h.authority] at ha
  obtain ⟨a₀, hauthority, rfl⟩ := Option.map_eq_some_iff.mp ha
  have hparticipants : ∀ q, q ∈ addAll a₀.lifecycleParticipants s.participants ↔
      q ∈ s.participants := by
    intro q
    rw [mem_addAll, h.participants, hauthority]
    exact or_self_iff
  unfold unavailable withheld retainRegistrationLifecycleAuthority
    scopeRegistrationLifecycleAuthority
  dsimp only
  by_cases hmark : p ∈ s.unavailablePlugins
  · simp [hmark]
  · by_cases hp : p ∈ s.participants
    · simp [hmark, hp, hparticipants]
    · simp [hmark, hp, hparticipants]

/-- What `allowed` lets through. -/
def Kept (registration : RegistrationResult V)
    (authority : Option RegistrationLifecycleAuthority) (values : List PlatformPluginAvailability)
    (kind : PluginContributionCategory) (pluginId id : String) : Prop :=
  ¬ Blocked registration authority values pluginId ∧
    (pluginId ∈ lifecycleParticipants registration authority →
      ∃ v ∈ values, v.pluginId = pluginId ∧ v.isAvailable kind id = true)

theorem allowed_iff (h : ScopeOk registration authority values s)
    (kind : PluginContributionCategory) (pluginId id : String) :
    allowed s.availability s.participants s.unavailablePlugins kind pluginId id = true ↔
      Kept registration authority values kind pluginId id := by
  unfold allowed Kept
  rw [← mem_unavailablePlugins h, ← h.participants]
  simp only [Bool.and_eq_true, Bool.or_eq_true, Bool.not_eq_true', List.contains_eq_mem,
    decide_eq_false_iff_not, Option.any_eq_true]
  refine and_congr_right fun _ => ?_
  rw [← imp_iff_not_or]
  refine imp_congr_right fun _ => ?_
  constructor
  · rintro ⟨v, hv, hav⟩
    obtain ⟨hmem, hid⟩ := (h.collected.get? _ v).mp hv
    exact ⟨v, hmem, hid, hav⟩
  · rintro ⟨v, hmem, hid, hav⟩
    exact ⟨v, (h.collected.get? _ v).mpr ⟨hmem, hid⟩, hav⟩

/-- With the availability of its state, a participant keeps all its contributions while it is
enabled and ready, and those of the retained categories while its package is installed. -/
theorem kept_reconciled (h : ScopeOk registration authority values s)
    {state : PlatformPluginLifecycleState} {v : PlatformPluginAvailability}
    (hv : reconcilePlatformPluginAvailability registration state = .ok v) (hmem : v ∈ values)
    (hp : state.pluginId ∈ lifecycleParticipants registration authority)
    {kind : PluginContributionCategory} {id : String}
    (hc : ∃ c ∈ registration.contributions kind, c.pluginId = state.pluginId ∧ c.id = id) :
    Kept registration authority values kind state.pluginId id ↔
      ¬ Blocked registration authority values state.pluginId ∧
      (¬ Withheld registration authority values state.pluginId ∨
        state.package.isInstalled = true ∧ retainedWhileDisabled kind = true) := by
  obtain ⟨hid, henabled, hready, -⟩ := reconcile_eq_ok hv
  have hunique : ∀ w ∈ values, w.pluginId = state.pluginId → w = v := by
    intro w hw hwid
    have h1 := (h.collected.get? state.pluginId w).mpr ⟨hw, hwid⟩
    rw [(h.collected.get? state.pluginId v).mpr ⟨hmem, hid⟩] at h1
    exact (Option.some.inj h1).symm
  have hgood : ¬ Withheld registration authority values state.pluginId ↔
      v.enabled = true ∧ v.ready = true := by
    unfold Withheld
    constructor
    · intro hno
      by_contra hbad
      refine hno ⟨hp, ?_⟩
      rintro ⟨w, hw, hwid, hon⟩
      rw [hunique w hw hwid] at hon
      exact hbad hon
    · rintro hon ⟨-, hno⟩
      exact hno ⟨v, hmem, hid, hon⟩
  -- a plugin is ready only with its package installed
  have hinstalled : v.ready = true → state.package.isInstalled = true := by
    intro hr
    unfold platformPluginReadyForEnable at hready
    obtain ⟨⟨⟩, -, hready⟩ := bind_eq_ok.mp hready
    have hall := Except.ok.inj hready
    rw [hr] at hall
    simp only [Bool.and_eq_true] at hall
    exact hall.1.1.1.2
  unfold Kept
  refine and_congr_right fun _ => ?_
  rw [hgood]
  constructor
  · intro hkept
    obtain ⟨w, hw, hwid, hav⟩ := hkept hp
    rw [hunique w hw hwid, isAvailable_reconciled hv] at hav
    rcases hav.2.2 with hon | hretained
    · exact .inl hon
    · exact .inr ⟨hav.2.1, hretained⟩
  · intro hor _
    refine ⟨v, hmem, hid, (isAvailable_reconciled hv kind id).mpr ⟨hc, ?_⟩⟩
    rcases hor with hon | ⟨hin, hretained⟩
    · exact ⟨hinstalled hon.2, .inl hon⟩
    · exact ⟨hin, .inr hretained⟩

/-- The same edges, participants and availabilities in another order. -/
structure Reordered (registration : RegistrationResult V)
    (authority authority' : Option RegistrationLifecycleAuthority)
    (values values' : List PlatformPluginAvailability) : Prop where
  edges : ∀ a b, (requiredEdges authority').Filed a b ↔ (requiredEdges authority).Filed a b
  participants : ∀ p, p ∈ lifecycleParticipants registration authority' ↔
    p ∈ lifecycleParticipants registration authority
  values : values'.Perm values

section Reordering

variable {authority' : Option RegistrationLifecycleAuthority}
  {values' : List PlatformPluginAvailability}

theorem Reordered.withheld (h : Reordered registration authority authority' values values')
    (p : String) : Withheld registration authority' values' p ↔
      Withheld registration authority values p := by
  simp only [Withheld, h.participants, h.values.mem_iff]

theorem Reordered.blocked (h : Reordered registration authority authority' values values')
    (p : String) : Blocked registration authority' values' p ↔
      Blocked registration authority values p := by
  have hE : (requiredEdges authority').Filed = (requiredEdges authority).Filed :=
    funext fun a => funext fun b => propext (h.edges a b)
  simp only [Blocked, hE, h.withheld]

theorem Reordered.kept (h : Reordered registration authority authority' values values')
    (kind : PluginContributionCategory) (pluginId id : String) :
    Kept registration authority' values' kind pluginId id ↔
      Kept registration authority values kind pluginId id := by
  simp only [Kept, h.blocked, h.participants, h.values.mem_iff]

theorem scope_reordered (h : ScopeOk registration authority values s)
    (hr : Reordered registration authority authority' values values') :
    ∃ s', scopePlatformPluginRegistration registration authority' values' = .ok s' ∧
      s'.result = s.result ∧ ∀ p, p ∈ s'.unavailablePlugins ↔ p ∈ s.unavailablePlugins := by
  have hauth : ∀ v ∈ values', v.authoritative = true := fun v hv =>
    h.collected.authoritative v (hr.values.mem_iff.mp hv)
  obtain ⟨availability, hcollect, hcollected⟩ :=
    collect_ok hauth ((hr.values.map _).nodup_iff.mpr h.collected.nodup)
  have hknown : (lifecycleParticipants registration authority').forM
      (requireAvailability availability) = .ok () := by
    refine forM_eq_ok.mpr fun p hp => ?_
    rw [requireAvailability_eq_ok]
    obtain ⟨v, hv⟩ := h.known p (by rw [h.participants]; exact (hr.participants p).mp hp)
    obtain ⟨hmem, hid⟩ := (h.collected.get? p v).mp hv
    exact ⟨v, (hcollected.get? p v).mpr ⟨hr.values.mem_iff.mpr hmem, hid⟩⟩
  have hrun : ∃ s', scopePlatformPluginRegistration registration authority' values' = .ok s' := by
    unfold scopePlatformPluginRegistration
    exact ⟨_, bind_eq_ok.mpr ⟨_, hcollect, bind_eq_ok.mpr ⟨_, hknown, rfl⟩⟩⟩
  obtain ⟨s', hs'⟩ := hrun
  have h' := scope_ok hs'
  refine ⟨s', hs', ?_, fun p => ?_⟩
  · rw [h'.result, h.result]
    congr 1
    funext kind pluginId id
    rw [Bool.eq_iff_iff, allowed_iff h', allowed_iff h, hr.kept]
  · rw [mem_unavailablePlugins h', mem_unavailablePlugins h, hr.blocked]

end Reordering

/-- What one call of `scopePlatformPluginRegistration` does. -/
structure ScopeLaw (registration : RegistrationResult V)
    (authority : Option RegistrationLifecycleAuthority) (values : List PlatformPluginAvailability)
    (s : Scoped V) : Prop where
  /-- The passes end: one over the marks adds nothing, and more passes would have added nothing. -/
  ends : ∀ a, authority = some a →
    pass (withheld s.availability s.participants) a.requiredProviders s.unavailablePlugins =
      ⟨s.unavailablePlugins, false⟩ ∧
    ∀ fuel, a.requiredProviders.size < fuel →
      propagate (withheld s.availability s.participants) a.requiredProviders fuel [] =
        s.unavailablePlugins
  /-- Recorded are the plugins that require one that is withheld. -/
  recorded : ∀ p, p ∈ s.unavailablePlugins ↔ Blocked registration authority values p
  /-- Treated as unavailable are these and the withheld ones. -/
  marked : ∀ p, (p ∈ s.unavailablePlugins ∨ withheld s.availability s.participants p = true) ↔
    Unavailable registration authority values p
  lease : ∀ a, s.authority = some a → ∀ p,
    unavailable a p = true ↔ Unavailable registration authority values p
  contributions : ∀ kind, (s.result.contributions kind).Sublist (registration.contributions kind) ∧
    ∀ c, c ∈ s.result.contributions kind ↔
      c ∈ registration.contributions kind ∧ Kept registration authority values kind c.pluginId c.id
  bindings : ∀ kind, (s.result.bindings kind).Sublist (registration.bindings kind) ∧
    ∀ c, c ∈ s.result.bindings kind ↔ c ∈ registration.bindings kind ∧
      Kept registration authority values kind.category c.pluginId c.id
  /-- For an availability that was made from this registration. -/
  reconciled : ∀ state v, reconcilePlatformPluginAvailability registration state = .ok v →
    v ∈ values → state.pluginId ∈ lifecycleParticipants registration authority → ∀ kind id,
    (∃ c ∈ registration.contributions kind, c.pluginId = state.pluginId ∧ c.id = id) →
    (Kept registration authority values kind state.pluginId id ↔
      ¬ Blocked registration authority values state.pluginId ∧
      (¬ Withheld registration authority values state.pluginId ∨
        state.package.isInstalled = true ∧ retainedWhileDisabled kind = true))
  reordered : ∀ authority' values', Reordered registration authority authority' values values' →
    ∃ s', scopePlatformPluginRegistration registration authority' values' = .ok s' ∧
      s'.result = s.result ∧ ∀ p, p ∈ s'.unavailablePlugins ↔ p ∈ s.unavailablePlugins

/-- **Availability.** A scoped registration treats as unavailable the plugins with a walk along
required edges to a withheld participant, and the leases agree. Kept is what belongs to no plugin
that requires a withheld one and, for a participant, what its availability lists. -/
theorem scopePlatformPluginRegistration_spec (registration : RegistrationResult V)
    (authority : Option RegistrationLifecycleAuthority) (values : List PlatformPluginAvailability)
    (s : Scoped V) (h : scopePlatformPluginRegistration registration authority values = .ok s) :
    ScopeLaw registration authority values s := by
  have ho := scope_ok h
  refine ⟨fun a ha => ?_, mem_unavailablePlugins ho, unavailable_mark ho,
    fun a ha => unavailable_lease ho ha, fun kind => ⟨?_, fun c => ?_⟩,
    fun kind => ⟨?_, fun c => ?_⟩,
    fun state v hv hmem hp kind id hc => kept_reconciled ho hv hmem hp hc,
    fun authority' values' hr => scope_reordered ho hr⟩
  · have hmarks := ho.marks
    rw [ha] at hmarks
    rw [hmarks]
    exact ⟨pass_propagate (Nat.lt_succ_self _), fun fuel hf =>
      propagate_enough (Nat.lt_succ_self _) hf⟩
  · rw [ho.result]
    exact List.filter_sublist
  · rw [ho.result, ← allowed_iff ho]
    exact List.mem_filter
  · rw [ho.result]
    exact List.filter_sublist
  · rw [ho.result, ← allowed_iff ho]
    exact List.mem_filter

end Law

/-! ## A disabled plugin -/

/-- A plugin with a collection and an action. -/
def salesRegistration : RegistrationResult Unit where
  phases := ["manifest", "contracts", "schema", "behavior", "freeze"]
  inventory := [⟨"module.sales", [(.schema, ["sales.tasks.collection"]),
    (.actions, ["sales.task.create"]), (.lifecycle, ["sales.lifecycle.reference"])], []⟩]
  contributions
    | .schema => [⟨"module.sales", "sales.tasks.collection", ()⟩]
    | .actions => [⟨"module.sales", "sales.task.create", ()⟩]
    | .lifecycle => [⟨"module.sales", "sales.lifecycle.reference", ()⟩]
    | _ => []
  bindings
    | .actions => [⟨"module.sales", "sales.task.create", ()⟩]
    | _ => []

/-- The authority that the registration of this plugin alone leaves behind. -/
def salesAuthority : RegistrationLifecycleAuthority :=
  retainRegistrationLifecycleAuthority (freezeRegistrationLifecycleAuthority
    (createRegistrationLifecycleAuthority (JsMap.empty.set "module.sales" []))) ["module.sales"]

/-- Installed and ready, but disabled. -/
def disabledSales : PlatformPluginLifecycleState where
  pluginId := "module.sales"
  catalogStatus := .supported
  package := .installed ⟨"@k-nex/sales", "1.0.0", "sha512-c2FsZXM="⟩
  enabled := false
  configuration := ⟨1, true⟩
  migration := ⟨1, 1, true⟩
  dataState := .retained
  releaseStatus := .supported

/-- The run of the disabled plugin. -/
def scopedSales : Result (PlatformPluginAvailability × Scoped Unit) := do
  let availability ← reconcilePlatformPluginAvailability salesRegistration disabledSales
  let s ← scopePlatformPluginRegistration salesRegistration (some salesAuthority) [availability]
  return (availability, s)

/-- Its action and the binding are gone, its collection stays. -/
theorem scopedSales_run : ∃ v s,
    scopePlatformPluginRegistration salesRegistration (some salesAuthority) [v] = .ok s ∧
    s.result.contributions .schema = [⟨"module.sales", "sales.tasks.collection", ()⟩] ∧
    s.result.contributions .actions = [] ∧ s.result.bindings .actions = [] ∧
    withheld s.availability s.participants "module.sales" = true := by
  have hrun : (scopedSales.toOption.map fun p =>
      (p.2.result.contributions .schema, p.2.result.contributions .actions,
        p.2.result.bindings .actions, withheld p.2.availability p.2.participants "module.sales")) =
      some ([⟨"module.sales", "sales.tasks.collection", ()⟩], [], [], true) := by
    decide
  cases h : scopedSales with
  | error e => rw [h] at hrun; cases hrun
  | ok p =>
    rw [h] at hrun
    have hall := Option.some.inj hrun
    simp only [Prod.mk.injEq] at hall
    unfold scopedSales at h
    obtain ⟨v, -, h⟩ := bind_eq_ok.mp h
    obtain ⟨s, hs, h⟩ := bind_eq_ok.mp h
    cases h
    exact ⟨v, s, hs, hall.1, hall.2.1, hall.2.2.1, hall.2.2.2⟩

theorem scopePlatformPluginRegistration_spec_sales : ∃ values s,
    scopePlatformPluginRegistration salesRegistration (some salesAuthority) values = .ok s ∧
      ScopeLaw salesRegistration (some salesAuthority) values s := by
  obtain ⟨v, s, hs, -⟩ := scopedSales_run
  exact ⟨[v], s, hs, scopePlatformPluginRegistration_spec _ _ _ s hs⟩

/-- A disabled plugin keeps its collection, unavailable as it is. -/
theorem disabled_keeps_schema : ¬ ∀ (registration : RegistrationResult Unit)
    (authority : Option RegistrationLifecycleAuthority) (values : List PlatformPluginAvailability)
    (s : Scoped Unit), scopePlatformPluginRegistration registration authority values = .ok s →
    ∀ kind c, c ∈ s.result.contributions kind ↔ c ∈ registration.contributions kind ∧
      ¬ Unavailable registration authority values c.pluginId := by
  intro hclaim
  obtain ⟨v, s, hs, hschema, -, -, hheld⟩ := scopedSales_run
  have hkept := (hclaim _ _ _ s hs .schema ⟨"module.sales", "sales.tasks.collection", ()⟩).mp
    (by rw [hschema]; exact List.mem_singleton_self _)
  exact hkept.2 ((unavailable_mark (scope_ok hs) "module.sales").mp (.inr hheld))

end KNex.Runtime.PluginLifecycle
