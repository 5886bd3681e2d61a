import KNex.Composition.Soundness
import Mathlib.Data.List.Dedup

/-!
# The graph checks of a registration

`executeRegistration` of `packages/runtime/src/registration-runtime.ts` starts by comparing the
resolved graph with the installed manifests again: every node has its manifest and the order names
each node once (`activeManifests`), the registration plans name resolved plugins, each selected
provider provides its capability, and each required dependency has its edge. The contributions
that the plans then register are no part of the graph and are left out.

A graph that the resolver returned passes them all (`checkGraph_resolved`).
-/
namespace KNex.Runtime.RegistrationRuntime

open KNex.Core KNex.Composition

/-! ## Errors -/

/-- mirrors packages/runtime/src/registration-runtime.ts:40-43 -/
inductive RegistrationErrorCode where
  | graphMismatch | wrongPhase | undeclaredContribution | undeclaredCapabilityAccess
  | capabilityUnavailable | providerMismatch | duplicateContribution | duplicateBinding
  | invalidContribution | frozen | inventoryMismatch
  deriving DecidableEq, Repr

/-- mirrors packages/runtime/src/registration-runtime.ts:45-52 -/
structure RegistrationError where
  code : RegistrationErrorCode
  message : String
  path : List String
  deriving DecidableEq, Repr

abbrev Result (α : Type) := Except RegistrationError α

def fail {α : Type} (code : RegistrationErrorCode) (message : String) (path : List String) :
    Result α :=
  .error ⟨code, message, path⟩

/-! ## The checks -/

/-- `new Map(installed.map((entry) => [entry.manifest.id, entry]))`. -/
def installedById (installed : List InstalledEntry) : JsMap String InstalledEntry :=
  installed.foldl (fun m entry => m.set entry.id entry) .empty

/-- One node of the graph.
mirrors packages/runtime/src/registration-runtime.ts:153-161 -/
def activeManifest (installed : JsMap String InstalledEntry) (active : JsMap String PluginManifest)
    (node : ResolvedNode) : Result (JsMap String PluginManifest) :=
  match installed.get? node.id with
  | none => fail .graphMismatch
      ("Resolved plugin " ++ node.id ++ " does not match one installed manifest.") [node.id]
  | some entry =>
    if entry.manifest.package ≠ node.package ∨ entry.manifest.version ≠ node.version ∨
        entry.package.name ≠ node.package ∨ entry.package.version ≠ node.version ∨
        entry.package.integrity ≠ node.integrity ∨ entry.manifest.kind ≠ node.kind ∨
        (active.get? node.id).isSome then
      fail .graphMismatch
        ("Resolved plugin " ++ node.id ++ " does not match one installed manifest.") [node.id]
    else .ok (active.set node.id entry.manifest)

/-- mirrors packages/runtime/src/registration-runtime.ts:150-168 -/
def activeManifests (graph : ResolvedGraph) (installed : List InstalledEntry) :
    Result (JsMap String PluginManifest) := do
  let active ← graph.plugins.foldlM (activeManifest (installedById installed)) .empty
  if graph.registrationOrder.length ≠ active.size ∨
      graph.registrationOrder.dedup.length ≠ active.size ∨
      graph.registrationOrder.any fun id => !active.keys.contains id then
    fail .graphMismatch "Registration order must contain every resolved plugin exactly once." []
  else return active

/-- A registration plan; its phase handlers run after the checks. -/
structure PluginRegistration where
  pluginId : String
  deriving DecidableEq, Repr

/-- mirrors packages/runtime/src/registration-runtime.ts:223-228 -/
def addPlan (manifests : JsMap String PluginManifest) (plans : JsMap String PluginRegistration)
    (plan : PluginRegistration) : Result (JsMap String PluginRegistration) :=
  if (manifests.get? plan.pluginId).isNone ∨ (plans.get? plan.pluginId).isSome then
    fail .graphMismatch
      ("Registration plan " ++ plan.pluginId ++ " is not a unique resolved plugin.") [plan.pluginId]
  else .ok (plans.set plan.pluginId plan)

/-- mirrors packages/runtime/src/registration-runtime.ts:141-149 -/
def providedCapabilities (manifest : PluginManifest) : JsMap String (List String) :=
  manifest.provides.foldl (fun m provision => m.addNew provision.capability provision.version)
    .empty

/-- mirrors packages/runtime/src/registration-runtime.ts:242-247 -/
def selectProvider (manifests : JsMap String PluginManifest)
    (selected : JsMap String ResolvedCapabilityProvider) (selection : ResolvedCapabilityProvider) :
    Result (JsMap String ResolvedCapabilityProvider) :=
  let provided := (manifests.get? selection.plugin).any fun manifest =>
    ((providedCapabilities manifest).get? selection.capability).any fun versions =>
      versions.contains selection.version
  if (selected.get? selection.capability).isSome ∨ ¬ provided then
    fail .graphMismatch
      ("Capability selection " ++ selection.capability ++ " does not match one resolved provider.")
      [selection.capability]
  else .ok (selected.set selection.capability selection)

/-- `new Map(options.graph.plugins.map((node) => [node.id, node]))`. -/
def graphNodes (graph : ResolvedGraph) : JsMap String ResolvedNode :=
  graph.plugins.foldl (fun m node => m.set node.id node) .empty

/-- One required dependency of a plugin.
mirrors packages/runtime/src/registration-runtime.ts:252-265 -/
def requireProvider (sv : Semver) (node : Option ResolvedNode)
    (selected : JsMap String ResolvedCapabilityProvider) (pluginId : String)
    (providers : List String) : Dependency → Result (List String)
  | .plugin id _ =>
    if node.any fun node => node.required.contains id then .ok (JsMap.addSet providers id)
    else fail .graphMismatch
      ("Resolved graph omits required provider " ++ id ++ " for " ++ pluginId ++ ".") [pluginId, id]
  | .capability id range =>
    match selected.get? id with
    | none => fail .graphMismatch
        ("Resolved graph omits required capability provider " ++ id ++ " for " ++ pluginId ++ ".")
        [pluginId, id]
    | some selection =>
      if (node.any fun node => node.required.contains selection.plugin) ∧
          sv.satisfies selection.version range then
        .ok (JsMap.addSet providers selection.plugin)
      else fail .graphMismatch
        ("Resolved graph omits required capability provider " ++ id ++ " for " ++ pluginId ++ ".")
        [pluginId, id]

/-- mirrors packages/runtime/src/registration-runtime.ts:249-267 -/
def requiredProviders (sv : Semver) (graph : ResolvedGraph)
    (selected : JsMap String ResolvedCapabilityProvider) (m : JsMap String (List String))
    (entry : String × PluginManifest) : Result (JsMap String (List String)) := do
  let providers ← entry.2.requires.foldlM
    (requireProvider sv ((graphNodes graph).get? entry.1) selected entry.1) []
  return m.set entry.1 providers

/-- The checks of `executeRegistration`, up to the authority it builds from the providers.
mirrors packages/runtime/src/registration-runtime.ts:221-267 -/
def checkGraph (sv : Semver) (graph : ResolvedGraph) (installed : List InstalledEntry)
    (registrations : List PluginRegistration) : Result (JsMap String (List String)) := do
  let manifests ← activeManifests graph installed
  let _ ← registrations.foldlM (addPlan manifests) .empty
  let selected ← graph.capabilityProviders.foldlM (selectProvider manifests) .empty
  manifests.entries.foldlM (requiredProviders sv graph selected) .empty

/-! ## A resolved graph passes -/

section Checks

variable {sv : Semver} {o : ResolveOptions} {active : List InstalledEntry}
  {requiredEdges optionalEdges : Edges} {selections : Selections}

/-- Entries filed one after the other by an id that tells them apart. -/
theorem get?_foldl_set {α : Type} {key : α → String} {l : List α}
    (hinj : ∀ a ∈ l, ∀ b ∈ l, key a = key b → a = b) (k : String) (a : α) :
    (l.foldl (fun m a => m.set (key a) a) (.empty : JsMap String α)).get? k = some a ↔
      a ∈ l ∧ key a = k := by
  refine foldl_rule (P := fun gone (m : JsMap String α) => ∀ k a, m.get? k = some a ↔
    a ∈ gone ∧ key a = k) (by simp) ?_ k a
  intro gone b rest m hl hm k a
  rw [JsMap.get?_set]
  have hb : b ∈ l := by rw [hl]; simp
  split
  · rename_i hk
    constructor
    · intro he
      cases he
      exact ⟨by simp, hk.symm⟩
    · intro ⟨ha, hka⟩
      have hal : a ∈ l := by
        rw [hl]
        rcases List.mem_append.mp ha with ha | ha
        · exact List.mem_append_left _ ha
        · exact List.mem_append_right _ (by rw [List.mem_singleton.mp ha]; exact List.mem_cons_self)
      rw [hinj b hb a hal (by rw [hka, hk])]
  · rename_i hk
    rw [hm, List.mem_append, List.mem_singleton]
    constructor
    · intro ⟨ha, hka⟩
      exact ⟨.inl ha, hka⟩
    · intro ⟨ha, hka⟩
      refine ⟨ha.resolve_right fun he => hk ?_, hka⟩
      rw [← hka, he]

theorem filed_providedCapabilities {m : PluginManifest} {c v : String} :
    (providedCapabilities m).Filed c v ↔ ⟨c, v⟩ ∈ m.provides := by
  refine foldl_rule (P := fun gone (f : JsMap String (List String)) => ∀ c v, f.Filed c v ↔
    ⟨c, v⟩ ∈ gone) (f := fun m provision => m.addNew provision.capability provision.version)
    (l := m.provides) (fun c v => iff_of_false (JsMap.not_filed_empty c v) (by simp)) ?_ c v
  intro gone p rest f _ hf c v
  rw [JsMap.filed_addNew, hf, List.mem_append, List.mem_singleton]
  refine or_congr_right ?_
  constructor
  · rintro ⟨rfl, rfl⟩
    rfl
  · intro he
    cases he
    exact ⟨rfl, rfl⟩

/-- The manifests of the active entries, in the order of the nodes. -/
structure Manifests (active gone : List InstalledEntry) (m : JsMap String PluginManifest) :
    Prop where
  keys : m.keys = gone.map InstalledEntry.id
  manifest : ∀ id mf, m.get? id = some mf → ∃ e ∈ active, e.id = id ∧ e.manifest = mf

theorem Manifests.get (h : Manifests active active m) {e : InstalledEntry} (he : e ∈ active)
    (hnodup : (active.map InstalledEntry.id).Nodup) : m.get? e.id = some e.manifest := by
  have hk : e.id ∈ m.keys := by
    rw [h.keys]
    exact List.mem_map_of_mem he
  obtain ⟨mf, hmf⟩ := JsMap.mem_keys.mp hk
  obtain ⟨e', he', hid, rfl⟩ := h.manifest e.id mf hmf
  rw [hmf, List.inj_on_of_nodup_map hnodup he' he hid]

theorem activeManifests_resolved
    (h : Resolved sv o active requiredEdges optionalEdges selections)
    (horder : (dependencyFirstOrder (active.map InstalledEntry.id) requiredEdges).Perm
      (active.map InstalledEntry.id)) :
    ∃ m, activeManifests (resolvedGraph active requiredEdges optionalEdges selections) o.installed =
      .ok m ∧ Manifests active active m := by
  have hfold : ∃ m, (active.map (resolvedNode requiredEdges optionalEdges)).foldlM
      (activeManifest (installedById o.installed)) .empty = .ok m ∧ Manifests active active m := by
    rw [List.foldlM_map]
    refine foldlM_ok (P := Manifests active) ⟨rfl, by simp⟩ ?_
    intro gone e rest m hl hm
    have he : e ∈ active := by rw [hl]; simp
    obtain ⟨hin, hcon⟩ : e ∈ o.installed ∧ e.Consistent :=
      ⟨((h.mem e).mp he).1, h.consistent e ((h.mem e).mp he).1⟩
    have hget : (installedById o.installed).get? e.id = some e :=
      (get?_foldl_set (fun a ha b hb => h.unique a ha b hb) e.id e).mpr ⟨hin, rfl⟩
    have hnew : m.get? e.id = none := by
      rw [JsMap.get?_eq_none, hm.keys]
      have hnodup := h.nodup
      rw [hl, List.map_append, List.nodup_append'] at hnodup
      exact fun hk => hnodup.2.2 hk (by simp)
    refine ⟨m.set e.id e.manifest, ?_, ?_, fun id mf hmf => ?_⟩
    · unfold activeManifest
      rw [show (resolvedNode requiredEdges optionalEdges e).id = e.id from rfl, hget]
      dsimp only
      rw [if_neg]
      have h1 : e.manifest.package = (resolvedNode requiredEdges optionalEdges e).package := hcon.1
      have h2 : e.manifest.version = (resolvedNode requiredEdges optionalEdges e).version := hcon.2
      simp only [not_or, not_not]
      exact ⟨h1, h2, rfl, rfl, rfl, rfl, by rw [hnew]; simp⟩
    · rw [JsMap.keys_set_of_none hnew, hm.keys, List.map_append]
      rfl
    · rw [JsMap.get?_set] at hmf
      split at hmf
      · rename_i hid
        cases hmf
        exact ⟨e, he, hid.symm, rfl⟩
      · exact hm.manifest id mf hmf
  obtain ⟨m, hm, hM⟩ := hfold
  refine ⟨m, ?_, hM⟩
  have hsize : m.size = (active.map InstalledEntry.id).length := by
    rw [← hM.keys, JsMap.keys, List.length_map]
    rfl
  have hnodup : (dependencyFirstOrder (active.map InstalledEntry.id) requiredEdges).Nodup :=
    horder.nodup_iff.mpr h.nodup
  unfold activeManifests
  rw [bind_eq_ok]
  refine ⟨m, hm, ?_⟩
  rw [if_neg]
  · rfl
  · simp only [not_or, not_not, resolvedGraph]
    refine ⟨by rw [hsize, horder.length_eq], by rw [hsize, hnodup.dedup, horder.length_eq], ?_⟩
    simp only [Bool.not_eq_true, List.any_eq_false, hM.keys]
    intro id hid
    simpa using horder.mem_iff.mp hid

theorem plans_resolved {m : JsMap String PluginManifest} {registrations : List PluginRegistration}
    (hnodup : (registrations.map PluginRegistration.pluginId).Nodup)
    (hin : ∀ r ∈ registrations, r.pluginId ∈ m.keys) :
    ∃ plans, registrations.foldlM (addPlan m) .empty = .ok plans := by
  have hrun := foldlM_ok (P := fun gone (plans : JsMap String PluginRegistration) =>
      plans.keys = gone.map PluginRegistration.pluginId) (f := addPlan m) (l := registrations)
    (s := .empty) rfl (by
      intro gone r rest plans hl hplans
      have hnew : plans.get? r.pluginId = none := by
        rw [JsMap.get?_eq_none, hplans]
        rw [hl, List.map_append, List.nodup_append'] at hnodup
        exact fun hk => hnodup.2.2 hk (by simp)
      obtain ⟨mf, hmf⟩ := JsMap.mem_keys.mp (hin r (by rw [hl]; simp))
      refine ⟨plans.set r.pluginId r, ?_, ?_⟩
      · unfold addPlan
        rw [if_neg]
        rw [hnew, hmf]
        simp
      · rw [JsMap.keys_set_of_none hnew, hplans, List.map_append]
        rfl)
  obtain ⟨plans, hplans, -⟩ := hrun
  exact ⟨plans, hplans⟩

/-- The selections, each under its capability. -/
structure Selected (all gone : List ResolvedCapabilityProvider)
    (m : JsMap String ResolvedCapabilityProvider) : Prop where
  keys : m.keys = gone.map ResolvedCapabilityProvider.capability
  selection : ∀ c p, m.get? c = some p → p ∈ all ∧ p.capability = c

theorem selected_resolved (h : Resolved sv o active requiredEdges optionalEdges selections)
    {m : JsMap String PluginManifest} (hm : Manifests active active m) :
    ∃ s, (capabilityProviders selections).foldlM (selectProvider m) .empty = .ok s ∧
      Selected (capabilityProviders selections) (capabilityProviders selections) s := by
  have hnodup : ((capabilityProviders selections).map
      ResolvedCapabilityProvider.capability).Nodup := by
    refine ((sortBy_perm_self capabilityProviderKey _).map _).nodup_iff.mpr ?_
    rw [List.map_map]
    exact selections.nodup
  refine foldlM_ok (P := Selected (capabilityProviders selections)) ⟨rfl, by simp⟩ ?_
  intro gone p rest s hl hs
  have hp : p ∈ capabilityProviders selections := by rw [hl]; simp
  have hnew : s.get? p.capability = none := by
    rw [JsMap.get?_eq_none, hs.keys]
    rw [hl, List.map_append, List.nodup_append'] at hnodup
    exact fun hk => hnodup.2.2 hk (by simp)
  obtain ⟨e, he, hid, hprov⟩ := h.chosen _ _ (mem_capabilityProviders.mp hp)
  refine ⟨s.set p.capability p, ?_, ?_, fun c q hq => ?_⟩
  · unfold selectProvider
    dsimp only
    rw [if_neg]
    have hid' : e.id = p.plugin := hid
    obtain ⟨versions, hversions, hv⟩ := filed_providedCapabilities.mpr hprov
    rw [hnew, ← hid', hm.get he h.nodup]
    have hv' : p.version ∈ versions := hv
    simp [hversions, hv']
  · rw [JsMap.keys_set_of_none hnew, hs.keys, List.map_append]
    rfl
  · rw [JsMap.get?_set] at hq
    split at hq
    · rename_i hc
      cases hq
      exact ⟨hp, hc.symm⟩
    · exact hs.selection c q hq

theorem required_resolved (h : Resolved sv o active requiredEdges optionalEdges selections)
    {m : JsMap String PluginManifest} (hm : Manifests active active m)
    {s : JsMap String ResolvedCapabilityProvider}
    (hs : Selected (capabilityProviders selections) (capabilityProviders selections) s) :
    ∃ r, m.entries.foldlM (requiredProviders sv
      (resolvedGraph active requiredEdges optionalEdges selections) s) .empty = .ok r := by
  have hrun := foldlM_ok (P := fun _ (_ : JsMap String (List String)) => True)
    (f := requiredProviders sv (resolvedGraph active requiredEdges optionalEdges selections) s)
    (l := m.entries) (s := .empty) trivial (by
      intro gone entry rest r hl _
      obtain ⟨id, mf⟩ := entry
      have hin : (id, mf) ∈ m.entries := by rw [hl]; simp
      obtain ⟨e, he, rfl, rfl⟩ := hm.manifest id mf (JsMap.get?_eq_some.mpr hin)
      have hnode : (graphNodes (resolvedGraph active requiredEdges optionalEdges selections)).get?
          e.id = some (resolvedNode requiredEdges optionalEdges e) := by
        refine (get?_foldl_set (fun a ha b hb => ?_) e.id _).mpr
          ⟨List.mem_map_of_mem he, rfl⟩
        have hn : ((resolvedGraph active requiredEdges optionalEdges selections).plugins.map
            ResolvedNode.id).Nodup := by
          rw [map_id_nodes]
          exact h.nodup
        exact List.inj_on_of_nodup_map hn ha hb
      -- every dependency of the manifest has its edge
      obtain ⟨providers, hproviders, -⟩ := foldlM_ok (P := fun _ (_ : List String) => True)
        (f := requireProvider sv ((graphNodes (resolvedGraph active requiredEdges optionalEdges
          selections)).get? e.id) s e.id) (l := e.manifest.requires) (s := []) trivial (by
          intro gone d rest providers hd _
          have hdin : d ∈ e.manifest.requires := by rw [hd]; simp
          rw [hnode]
          cases d with
          | plugin id range =>
            obtain ⟨hf, -⟩ := h.plugin_dependency e he id range hdin
            refine ⟨JsMap.addSet providers id, ?_, trivial⟩
            have hc : id ∈ (resolvedNode requiredEdges optionalEdges e).required :=
              mem_required.mpr hf
            simp [requireProvider, hc]
          | capability c range =>
            obtain ⟨p, hp, hsat, hf⟩ := h.capability_dependency e he c range hdin
            have hmem : (⟨c, p.plugin, p.version⟩ : ResolvedCapabilityProvider) ∈
                capabilityProviders selections := mem_capabilityProviders.mpr hp
            have hkey : c ∈ s.keys := by
              rw [hs.keys]
              exact List.mem_map.mpr ⟨_, hmem, rfl⟩
            obtain ⟨q, hq⟩ := JsMap.mem_keys.mp hkey
            obtain ⟨hqm, rfl⟩ := hs.selection c q hq
            have hpq : p = ⟨q.plugin, q.version⟩ := by
              have := mem_capabilityProviders.mp hqm
              rw [hp] at this
              exact Option.some.inj this
            rw [hpq] at hsat hf
            have hc : q.plugin ∈ (resolvedNode requiredEdges optionalEdges e).required :=
              mem_required.mpr hf
            refine ⟨JsMap.addSet providers q.plugin, ?_, trivial⟩
            unfold requireProvider
            dsimp only
            rw [hq]
            dsimp only
            rw [if_pos]
            simp [hc, hsat])
      refine ⟨r.set e.id providers, ?_, trivial⟩
      unfold requiredProviders
      rw [bind_eq_ok]
      exact ⟨providers, hproviders, rfl⟩)
  obtain ⟨r, hr, -⟩ := hrun
  exact ⟨r, hr⟩

end Checks

/-- **A resolved graph is registrable.** With the manifests it was resolved from and a plan for
each of its plugins, it passes every graph check of a registration. -/
theorem checkGraph_resolved (sv : Semver) (o : ResolveOptions) (g : ResolvedGraph)
    (registrations : List PluginRegistration) (h : resolvePlatformPluginGraph sv o = .ok g)
    (hplans : (registrations.map PluginRegistration.pluginId).Perm
      (g.plugins.map ResolvedNode.id)) :
    ∃ providers, checkGraph sv g o.installed registrations = .ok providers := by
  obtain ⟨active, requiredEdges, optionalEdges, selections, hR, hacyclic, rfl⟩ := resolve_ok h
  rw [map_id_nodes] at hplans
  obtain ⟨m, hm, hM⟩ := activeManifests_resolved hR
    (hR.order hacyclic).1
  have hin : ∀ r ∈ registrations, r.pluginId ∈ m.keys := by
    intro r hr
    rw [hM.keys]
    exact hplans.mem_iff.mp (List.mem_map_of_mem hr)
  obtain ⟨plans, hplans'⟩ := plans_resolved (hplans.nodup_iff.mpr hR.nodup) hin
  obtain ⟨s, hs, hS⟩ := selected_resolved hR hM
  obtain ⟨r, hr⟩ := required_resolved hR hM hS
  refine ⟨r, ?_⟩
  unfold checkGraph
  rw [bind_eq_ok]
  refine ⟨m, hm, ?_⟩
  rw [bind_eq_ok]
  refine ⟨plans, hplans', ?_⟩
  rw [bind_eq_ok]
  exact ⟨s, hs, hr⟩

theorem checkGraph_resolved_example :
    ∃ providers, checkGraph exactVersions exampleGraph exampleOptions.installed
      [⟨"provider.mail"⟩, ⟨"module.core"⟩, ⟨"module.sales"⟩] = .ok providers :=
  checkGraph_resolved exactVersions exampleOptions exampleGraph _ exampleGraph_resolved
    (by decide)

end KNex.Runtime.RegistrationRuntime
