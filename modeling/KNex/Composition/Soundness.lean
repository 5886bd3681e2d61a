import KNex.Composition.Resolver

/-!
# Soundness of a resolved graph

What holds of every graph that `resolvePlatformPluginGraph` returns (`Sound`): its nodes are the
enabled requests and the explicit providers, each at its one installed manifest; every required
dependency is met by a node and has an edge; every required capability has one selected provider
that satisfies all its consumers; optional edges lead to nodes that satisfy the requirement; no
conflict declaration is matched; the required edges are acyclic and the registration order puts
dependencies first.

Each pass of the resolver has one lemma about what it leaves (`activate_ok`, `collect_ok`,
`resolveRequired_ok`, `resolveOptional_ok`, `selectRemaining_ok`, `validateConflicts_ok`), and
`resolve_sound` assembles them.
-/
namespace KNex.Composition

open KNex.Core KNex.Core.Digraph KNex.Contracts

/-! ## What is promised -/

/-- The plugin is enabled by a request or selected as an explicit provider. -/
def ResolveOptions.Enables (o : ResolveOptions) (id : String) : Prop :=
  (∃ r ∈ o.plugins, r.enabled = true ∧ r.id = id) ∨ ∃ p ∈ o.providers.entries, p.2.plugin = id

/-- `e` is the one installed manifest that the node describes. -/
structure ResolvedNode.Describes (installed : List InstalledEntry) (n : ResolvedNode)
    (e : InstalledEntry) : Prop where
  mem : e ∈ installed
  id : n.id = e.id
  kind : n.kind = e.manifest.kind
  package : n.package = e.packageName ∧ n.package = e.manifest.package
  version : n.version = e.version ∧ n.version = e.manifest.version
  integrity : n.integrity = e.package.integrity
  unique : ∀ e' ∈ installed, e'.id = n.id → e' = e

/-- A selection names a node whose manifest provides the capability at the version. -/
def ProvidedBy (installed : List InstalledEntry) (plugins : List ResolvedNode)
    (p : ResolvedCapabilityProvider) : Prop :=
  ∃ n ∈ plugins, n.id = p.plugin ∧ ∃ e, n.Describes installed e ∧ e.Provides p.capability p.version

/-- The required edges of a graph. -/
def ResolvedGraph.Requires (g : ResolvedGraph) (a b : String) : Prop :=
  ∃ n ∈ g.plugins, n.id = a ∧ b ∈ n.required

structure Sound (sv : Semver) (o : ResolveOptions) (g : ResolvedGraph) : Prop where
  nodes_nodup : (g.plugins.map ResolvedNode.id).Nodup
  nodes_iff : ∀ id, id ∈ g.plugins.map ResolvedNode.id ↔ o.Enables id
  described : ∀ n ∈ g.plugins, ∃ e, n.Describes o.installed e
  requested : ∀ r ∈ o.plugins, r.enabled = true →
    ∃ n ∈ g.plugins, n.id = r.id ∧ n.package = r.package ∧ n.version = r.version
  provider : ∀ p ∈ o.providers.entries,
    ∃ n ∈ g.plugins, n.id = p.2.plugin ∧ n.package = p.2.package ∧ n.version = p.2.version
  plugin_dependency : ∀ n ∈ g.plugins, ∀ e, n.Describes o.installed e → ∀ id range,
    .plugin id range ∈ e.manifest.requires →
      id ∈ n.required ∧ ∃ t ∈ g.plugins, t.id = id ∧ sv.satisfies t.version range = true
  capability_dependency : ∀ n ∈ g.plugins, ∀ e, n.Describes o.installed e → ∀ capability range,
    .capability capability range ∈ e.manifest.requires →
      ∃ p ∈ g.capabilityProviders, p.capability = capability ∧
        sv.satisfies p.version range = true ∧ p.plugin ∈ n.required
  selections_unique : (g.capabilityProviders.map ResolvedCapabilityProvider.capability).Nodup
  selections_provided : ∀ p ∈ g.capabilityProviders, ProvidedBy o.installed g.plugins p
  optional_edge : ∀ n ∈ g.plugins, ∀ e, n.Describes o.installed e → ∀ id ∈ n.optional,
    ∃ t ∈ g.plugins, t.id = id ∧
      ((∃ range, .plugin id range ∈ e.manifest.optional ∧
          sv.satisfies t.version range = true) ∨
        ∃ capability range version, .capability capability range ∈ e.manifest.optional ∧
          ⟨capability, id, version⟩ ∈ g.capabilityProviders ∧
          sv.satisfies version range = true)
  plugin_conflict : ∀ n ∈ g.plugins, ∀ e, n.Describes o.installed e → ∀ id range,
    .plugin id range ∈ e.manifest.conflicts →
      ∀ t ∈ g.plugins, t.id = id → sv.satisfies t.version range = false
  capability_conflict : ∀ n ∈ g.plugins, ∀ e, n.Describes o.installed e → ∀ capability range,
    .capability capability range ∈ e.manifest.conflicts →
      ∀ t ∈ g.plugins, ∀ e', t.Describes o.installed e' → ∀ version,
        e'.Provides capability version → sv.satisfies version range = false
  required_nodes : ∀ n ∈ g.plugins, ∀ id ∈ n.required, id ∈ g.plugins.map ResolvedNode.id
  acyclic : Acyclic g.Requires
  order : g.registrationOrder.Perm (g.plugins.map ResolvedNode.id)
  order_first : DependencyFirst g.Requires g.registrationOrder

/-! ## Activation -/

section Activation

variable {l : List InstalledEntry} {ix : Indexes}

theorem WellFormed.eq_of_id (hwf : WellFormed l) {e e' : InstalledEntry} (h : e ∈ l) (h' : e' ∈ l)
    (hid : e.id = e'.id) : e = e' :=
  List.inj_on_of_nodup_map hwf.ids h h' hid

theorem reconcileIdentity_ok (hix : Indexed l ix) {identity : IdentityRequest} {label : String}
    {e : InstalledEntry} (h : reconcileIdentity identity ix.byId ix.byPackage label = .ok e) :
    e ∈ l ∧ e.id = identity.id ∧ e.packageName = identity.packageName ∧
      e.version = identity.version := by
  unfold reconcileIdentity at h
  split at h
  · cases h
  · rename_i byRequestedId byRequestedPackage hid hpkg
    split at h
    · cases h
    · rename_i hmatch
      cases h
      simp only [not_or, not_not] at hmatch
      obtain ⟨hmem, heq⟩ := hix.get?_byId.mp hid
      exact ⟨hmem, heq, hmatch.2.1, hmatch.2.2⟩
  · cases h

/-- What the activation of the requests `gone` leaves. -/
structure Requested (l : List InstalledEntry) (gone : List PlatformPluginRequest)
    (s : Activation) : Prop where
  active : ∀ id e, s.activeById.get? id = some e ↔
    e ∈ l ∧ e.id = id ∧ ∃ r ∈ gone, r.enabled = true ∧ r.id = id
  matched : ∀ r ∈ gone, ∃ e ∈ l, e.id = r.id ∧ e.packageName = r.package ∧ e.version = r.version

theorem requested_step (hix : Indexed l ix) (hwf : WellFormed l)
    {gone : List PlatformPluginRequest} {s s' : Activation} {r : PlatformPluginRequest}
    (h : Requested l gone s) (hstep : activatePlugin ix s r = .ok s') :
    Requested l (gone ++ [r]) s' := by
  unfold activatePlugin at hstep
  obtain ⟨entry, hentry, hs'⟩ := bind_eq_ok.mp hstep
  cases hs'
  obtain ⟨hmem, hid, hpkg, hver⟩ := reconcileIdentity_ok hix hentry
  have hid' : entry.id = r.id := hid
  refine ⟨fun id e => ?_, fun r' hr' => ?_⟩
  · dsimp only
    split
    · rename_i hen
      rw [JsMap.get?_set]
      split
      · rename_i heq
        constructor
        · intro he
          cases he
          exact ⟨hmem, heq.symm, r, by simp, hen, by rw [heq, hid']⟩
        · intro ⟨he, heid, _⟩
          rw [hwf.eq_of_id hmem he (by rw [heid, heq])]
      · rename_i hne
        rw [h.active]
        refine and_congr_right fun _ => and_congr_right fun _ => ?_
        constructor
        · intro ⟨r', hr', h'⟩
          exact ⟨r', List.mem_append_left _ hr', h'⟩
        · intro ⟨r', hr', h1, h2⟩
          rcases List.mem_append.mp hr' with hr' | hr'
          · exact ⟨r', hr', h1, h2⟩
          · rw [List.mem_singleton.mp hr'] at h2
            exact absurd (by rw [hid', h2]) hne
    · rename_i hen
      rw [h.active]
      refine and_congr_right fun _ => and_congr_right fun _ => ?_
      constructor
      · intro ⟨r', hr', h'⟩
        exact ⟨r', List.mem_append_left _ hr', h'⟩
      · intro ⟨r', hr', h1, h2⟩
        rcases List.mem_append.mp hr' with hr' | hr'
        · exact ⟨r', hr', h1, h2⟩
        · rw [List.mem_singleton.mp hr'] at h1
          exact absurd h1 hen
  · rcases List.mem_append.mp hr' with hr' | hr'
    · exact h.matched r' hr'
    · rw [List.mem_singleton.mp hr']
      exact ⟨entry, hmem, hid, hpkg, hver⟩

/-- What the explicit providers `gone` add. -/
structure Provided (l : List InstalledEntry) (base : JsMap String InstalledEntry)
    (gone : List (String × PlatformProviderRequest)) (s : ProviderActivation) : Prop where
  active : ∀ id e, s.activeById.get? id = some e ↔
    e ∈ l ∧ e.id = id ∧ (base.get? id = some e ∨ ∃ p ∈ gone, p.2.plugin = id)
  explicit : ∀ capability e, s.explicitProviders.get? capability = some e →
    e ∈ l ∧ ∃ p ∈ gone, p.1 = capability ∧ p.2.plugin = e.id
  matched : ∀ p ∈ gone, ∃ e ∈ l, e.id = p.2.plugin ∧ e.packageName = p.2.package ∧
    e.version = p.2.version

theorem provided_step (hix : Indexed l ix) (hwf : WellFormed l) {base : JsMap String InstalledEntry}
    {gone : List (String × PlatformProviderRequest)} {s s' : ProviderActivation}
    {p : String × PlatformProviderRequest} (h : Provided l base gone s)
    (hstep : activateProvider ix s p = .ok s') : Provided l base (gone ++ [p]) s' := by
  unfold activateProvider at hstep
  dsimp only at hstep
  split at hstep
  · cases hstep
  obtain ⟨entry, hentry, hs'⟩ := bind_eq_ok.mp hstep
  cases hs'
  obtain ⟨hmem, hid, hpkg, hver⟩ := reconcileIdentity_ok hix hentry
  have hid' : entry.id = p.2.plugin := hid
  refine ⟨fun id e => ?_, fun capability e hget => ?_, fun q hq => ?_⟩
  · dsimp only
    rw [JsMap.get?_set]
    split
    · rename_i heq
      constructor
      · intro he
        cases he
        exact ⟨hmem, heq.symm, .inr ⟨p, by simp, by rw [heq, hid']⟩⟩
      · intro ⟨he, heid, _⟩
        rw [hwf.eq_of_id hmem he (by rw [heid, heq])]
    · rename_i hne
      rw [h.active]
      refine and_congr_right fun _ => and_congr_right fun _ => or_congr_right ?_
      constructor
      · intro ⟨q, hq, h'⟩
        exact ⟨q, List.mem_append_left _ hq, h'⟩
      · intro ⟨q, hq, h'⟩
        rcases List.mem_append.mp hq with hq | hq
        · exact ⟨q, hq, h'⟩
        · rw [List.mem_singleton.mp hq] at h'
          exact absurd (by rw [hid', h']) hne
  · dsimp only at hget
    rw [JsMap.get?_set] at hget
    split at hget
    · rename_i heq
      cases hget
      exact ⟨hmem, p, by simp, heq.symm, hid'.symm⟩
    · obtain ⟨he, q, hq, h'⟩ := h.explicit capability e hget
      exact ⟨he, q, List.mem_append_left _ hq, h'⟩
  · rcases List.mem_append.mp hq with hq | hq
    · exact h.matched q hq
    · rw [List.mem_singleton.mp hq]
      exact ⟨entry, hmem, hid, hpkg, hver⟩

/-- What is active, and which explicit provider is filed under a capability. -/
structure Activated (l : List InstalledEntry) (o : ResolveOptions) (a : Activation)
    (explicit : JsMap String InstalledEntry) : Prop where
  active : ∀ id e, a.activeById.get? id = some e ↔ e ∈ l ∧ e.id = id ∧ o.Enables id
  explicit : ∀ capability e, explicit.get? capability = some e →
    a.activeById.get? e.id = some e
  requested : ∀ r ∈ o.plugins, ∃ e ∈ l, e.id = r.id ∧ e.packageName = r.package ∧
    e.version = r.version
  provider : ∀ p ∈ o.providers.entries, ∃ e ∈ l, e.id = p.2.plugin ∧
    e.packageName = p.2.package ∧ e.version = p.2.version

theorem activate_ok (hix : Indexed l ix) (hwf : WellFormed l) {o : ResolveOptions} {a : Activation}
    {explicit : JsMap String InstalledEntry} (h : activate o ix = .ok (a, explicit)) :
    Activated l o a explicit := by
  unfold activate at h
  obtain ⟨requested, hrequested, h⟩ := bind_eq_ok.mp h
  obtain ⟨provided, hprovided, h⟩ := bind_eq_ok.mp h
  cases h
  have hr := foldlM_eq_ok (P := Requested l) hrequested
    ⟨by simp, by simp⟩ fun gone r rest s s' _ hs hstep => requested_step hix hwf hs hstep
  have hp := foldlM_eq_ok (P := Provided l requested.activeById) hprovided
    ⟨fun id e => ?_, by simp, by simp⟩ fun gone p rest s s' _ hs hstep =>
      provided_step hix hwf hs hstep
  · have hactive : ∀ id e, provided.activeById.get? id = some e ↔
        e ∈ l ∧ e.id = id ∧ o.Enables id := by
      intro id e
      rw [hp.active, hr.active]
      unfold ResolveOptions.Enables
      simp only [mem_sortBy]
      constructor
      · rintro ⟨he, hid, hor⟩
        exact ⟨he, hid, hor.imp_left fun hreq => hreq.2.2⟩
      · rintro ⟨he, hid, hor⟩
        exact ⟨he, hid, hor.imp_left fun hreq => ⟨he, hid, hreq⟩⟩
    refine ⟨hactive, fun capability e hget => ?_, fun r hrm => ?_, fun p hpm => ?_⟩
    · obtain ⟨he, q, hq, -, hplugin⟩ := hp.explicit capability e hget
      rw [mem_sortBy] at hq
      exact (hactive e.id e).mpr ⟨he, rfl, .inr ⟨q, hq, hplugin⟩⟩
    · exact hr.matched r ((mem_sortBy _).mpr hrm)
    · exact hp.matched p ((mem_sortBy _).mpr hpm)
  · constructor
    · intro hget
      obtain ⟨he, hid, -⟩ := (hr.active id e).mp hget
      exact ⟨he, hid, .inl hget⟩
    · rintro ⟨_, _, hor⟩
      exact hor.resolve_right (by simp)

theorem mem_activeEntries {m : JsMap String InstalledEntry}
    (hm : ∀ id e, m.get? id = some e → e.id = id) {e : InstalledEntry} :
    e ∈ activeEntries m ↔ m.get? e.id = some e := by
  simp only [activeEntries, mem_sortBy, List.mem_map, Prod.exists, exists_eq_right]
  constructor
  · rintro ⟨id, h⟩
    have hget := JsMap.get?_eq_some.mpr h
    rwa [hm id e hget]
  · intro h
    exact ⟨e.id, JsMap.get?_eq_some.mp h⟩

theorem nodup_activeEntries {m : JsMap String InstalledEntry}
    (hm : ∀ id e, m.get? id = some e → e.id = id) :
    ((activeEntries m).map InstalledEntry.id).Nodup := by
  refine ((sortBy_perm_self InstalledEntry.id _).map InstalledEntry.id).nodup_iff.mpr ?_
  rw [List.map_map]
  have hkeys : m.entries.map (InstalledEntry.id ∘ Prod.snd) = m.entries.map Prod.fst :=
    List.map_congr_left fun p hp => hm p.1 p.2 (JsMap.get?_eq_some.mpr hp)
  rw [hkeys]
  exact m.nodup

end Activation

/-! ## Dependencies -/

section Collect

variable {sv : Semver} {ix : Indexes} {a : Activation}

/-- What the required dependencies `gone` of one entry add to `s₀`. -/
structure RequiredOf (sv : Semver) (a : Activation) (entry : InstalledEntry) (s₀ : Collected)
    (gone : List Dependency) (s : Collected) : Prop where
  optionalEdges : s.optionalEdges = s₀.optionalEdges
  optionalCapabilities : s.optionalCapabilities = s₀.optionalCapabilities
  keys : s.requiredEdges.keys = s₀.requiredEdges.keys
  sets : s.requiredEdges.Sets
  edges : ∀ x y, s.requiredEdges.Filed x y ↔
    s₀.requiredEdges.Filed x y ∨ x = entry.id ∧ ∃ range, .plugin y range ∈ gone
  capabilities : ∀ c r, s.requiredCapabilities.Filed c r ↔
    s₀.requiredCapabilities.Filed c r ∨ r.consumer = entry.id ∧ .capability c r.range ∈ gone
  satisfied : ∀ id range, .plugin id range ∈ gone →
    ∃ t, a.activeById.get? id = some t ∧ sv.satisfies t.version range = true

theorem requiredOf_step (hactive : ∀ id e, a.activeById.get? id = some e → e.id = id)
    {entry : InstalledEntry} {s₀ s s' : Collected} {gone : List Dependency} {d : Dependency}
    (hkey : entry.id ∈ s₀.requiredEdges.keys) (h : RequiredOf sv a entry s₀ gone s)
    (hstep : collectRequired sv ix a entry s d = .ok s') :
    RequiredOf sv a entry s₀ (gone ++ [d]) s' := by
  cases d with
  | plugin id range =>
    unfold collectRequired at hstep
    dsimp only at hstep
    split at hstep
    · cases hstep
    split at hstep
    · split at hstep <;> cases hstep
    rename_i target htarget
    split at hstep
    · rename_i hsat
      cases hstep
      have hid : target.id = id := hactive id target htarget
      refine ⟨h.optionalEdges, h.optionalCapabilities, ?_, h.sets.addTo _ _, fun x y => ?_,
        fun c r => ?_, fun id' range' hmem => ?_⟩
      · rw [JsMap.keys_addTo, h.keys]
      · rw [JsMap.filed_addTo, h.edges, h.keys, hid]
        simp only [List.mem_append, List.mem_singleton, Dependency.plugin.injEq, exists_or, hkey,
          and_true, exists_eq_right]
        constructor
        · intro ho
          rcases ho with (h1 | ⟨h1, h2⟩) | ⟨h1, h2⟩
          · exact .inl h1
          · exact .inr ⟨h1, .inl h2⟩
          · exact .inr ⟨h1, .inr h2⟩
        · intro ho
          rcases ho with h1 | ⟨h1, h2 | h2⟩
          · exact .inl (.inl h1)
          · exact .inl (.inr ⟨h1, h2⟩)
          · exact .inr ⟨h1, h2⟩
      · rw [h.capabilities]
        simp
      · rcases List.mem_append.mp hmem with hmem | hmem
        · exact h.satisfied id' range' hmem
        · rw [List.mem_singleton, Dependency.plugin.injEq] at hmem
          rw [hmem.1, hmem.2]
          exact ⟨target, htarget, hsat⟩
    · cases hstep
  | capability id range =>
    cases hstep
    refine ⟨h.optionalEdges, h.optionalCapabilities, h.keys, h.sets, fun x y => ?_, fun c r => ?_,
      fun id' range' hmem => ?_⟩
    · rw [h.edges]
      simp
    · rw [JsMap.filed_push, h.capabilities]
      simp only [List.mem_append, List.mem_singleton, Dependency.capability.injEq]
      constructor
      · intro ho
        rcases ho with (h1 | ⟨h1, h2⟩) | ⟨h1, h2⟩
        · exact .inl h1
        · exact .inr ⟨h1, .inl h2⟩
        · rw [h2]
          exact .inr ⟨rfl, .inr ⟨h1, rfl⟩⟩
      · intro ho
        rcases ho with h1 | ⟨h1, h2 | ⟨h2, h3⟩⟩
        · exact .inl (.inl h1)
        · exact .inl (.inr ⟨h1, h2⟩)
        · refine .inr ⟨h2, ?_⟩
          cases r
          cases h1
          cases h3
          rfl
    · exact h.satisfied id' range' (by simpa using hmem)

/-- What the optional dependencies `gone` of one entry add to `s₀`. -/
structure OptionalOf (sv : Semver) (a : Activation) (entry : InstalledEntry) (s₀ : Collected)
    (gone : List Dependency) (s : Collected) : Prop where
  requiredEdges : s.requiredEdges = s₀.requiredEdges
  requiredCapabilities : s.requiredCapabilities = s₀.requiredCapabilities
  keys : s.optionalEdges.keys = s₀.optionalEdges.keys
  edges : ∀ x y, s.optionalEdges.Filed x y → s₀.optionalEdges.Filed x y ∨ x = entry.id ∧
    ∃ range t, .plugin y range ∈ gone ∧ a.activeById.get? y = some t ∧
      sv.satisfies t.version range = true
  capabilities : ∀ c r, s.optionalCapabilities.Filed c r ↔
    s₀.optionalCapabilities.Filed c r ∨ r.consumer = entry.id ∧ .capability c r.range ∈ gone

theorem OptionalOf.keep {entry : InstalledEntry} {s₀ s : Collected} {gone : List Dependency}
    (h : OptionalOf sv a entry s₀ gone s) (id range : String) :
    OptionalOf sv a entry s₀ (gone ++ [.plugin id range]) s := by
  refine ⟨h.requiredEdges, h.requiredCapabilities, h.keys, fun x y hf => ?_, fun c r => ?_⟩
  · refine (h.edges x y hf).imp_right fun ⟨hx, range', t, hmem, h'⟩ => ?_
    exact ⟨hx, range', t, List.mem_append_left _ hmem, h'⟩
  · rw [h.capabilities]
    simp

theorem optionalOf_step (hactive : ∀ id e, a.activeById.get? id = some e → e.id = id)
    {entry : InstalledEntry} {s₀ s : Collected} {gone : List Dependency} {d : Dependency}
    (h : OptionalOf sv a entry s₀ gone s) :
    OptionalOf sv a entry s₀ (gone ++ [d]) (collectOptional sv a entry s d) := by
  cases d with
  | plugin id range =>
    unfold collectOptional
    dsimp only
    split
    · exact h.keep id range
    · rename_i target htarget
      split
      · rename_i hsat
        have hk := h.keep id range
        have hid : target.id = id := hactive id target htarget
        refine ⟨h.requiredEdges, h.requiredCapabilities, ?_, fun x y hf => ?_, hk.capabilities⟩
        · rw [JsMap.keys_addTo, h.keys]
        · rw [JsMap.filed_addTo] at hf
          rcases hf with hf | ⟨rfl, rfl, -⟩
          · exact hk.edges x y hf
          · rw [hid]
            exact .inr ⟨rfl, range, target, by simp, htarget, hsat⟩
      · exact h.keep id range
  | capability id range =>
    refine ⟨h.requiredEdges, h.requiredCapabilities, h.keys, fun x y hf => ?_, fun c r => ?_⟩
    · refine (h.edges x y hf).imp_right fun ⟨hx, range', t, hmem, h'⟩ => ?_
      exact ⟨hx, range', t, List.mem_append_left _ hmem, h'⟩
    · simp only [collectOptional]
      rw [JsMap.filed_push, h.capabilities]
      simp only [List.mem_append, List.mem_singleton, Dependency.capability.injEq]
      constructor
      · intro ho
        rcases ho with (h1 | ⟨h1, h2⟩) | ⟨h1, h2⟩
        · exact .inl h1
        · exact .inr ⟨h1, .inl h2⟩
        · rw [h2]
          exact .inr ⟨rfl, .inr ⟨h1, rfl⟩⟩
      · intro ho
        rcases ho with h1 | ⟨h1, h2 | ⟨h2, h3⟩⟩
        · exact .inl (.inl h1)
        · exact .inl (.inr ⟨h1, h2⟩)
        · refine .inr ⟨h2, ?_⟩
          cases r
          cases h1
          cases h3
          rfl

/-- What the dependencies of the active entries `gone` leave. -/
structure CollectedFrom (sv : Semver) (a : Activation) (gone : List InstalledEntry)
    (s : Collected) : Prop where
  keys : ∀ x, x ∈ s.requiredEdges.keys ↔ x ∈ gone.map InstalledEntry.id
  sets : s.requiredEdges.Sets
  requiredEdges : ∀ x y, s.requiredEdges.Filed x y ↔
    ∃ e ∈ gone, x = e.id ∧ ∃ range, .plugin y range ∈ e.manifest.requires
  optionalEdges : ∀ x y, s.optionalEdges.Filed x y → ∃ e ∈ gone, x = e.id ∧
    ∃ range t, .plugin y range ∈ e.manifest.optional ∧ a.activeById.get? y = some t ∧
      sv.satisfies t.version range = true
  requiredCapabilities : ∀ c r, s.requiredCapabilities.Filed c r ↔
    ∃ e ∈ gone, r.consumer = e.id ∧ .capability c r.range ∈ e.manifest.requires
  optionalCapabilities : ∀ c r, s.optionalCapabilities.Filed c r ↔
    ∃ e ∈ gone, r.consumer = e.id ∧ .capability c r.range ∈ e.manifest.optional
  satisfied : ∀ e ∈ gone, ∀ id range, .plugin id range ∈ e.manifest.requires →
    ∃ t, a.activeById.get? id = some t ∧ sv.satisfies t.version range = true

theorem mem_sortedDependencies {d : Dependency} {l : List Dependency} :
    d ∈ sortedDependencies l ↔ d ∈ l := mem_sortBy dependencyKey

/-- A key opened for the first time files nothing. -/
theorem filed_set_nil {m : Edges} {k x y : String} (hk : k ∉ m.keys) :
    (m.set k []).Filed x y ↔ m.Filed x y := by
  rw [JsMap.filed_iff_getD, JsMap.filed_iff_getD, JsMap.get?_set]
  split
  · rename_i hx
    rw [hx, JsMap.get?_eq_none.mpr hk]
    rfl
  · exact Iff.rfl

theorem collect_step (hactive : ∀ id e, a.activeById.get? id = some e → e.id = id)
    {gone : List InstalledEntry} {s s' : Collected} {entry : InstalledEntry}
    (hnew : entry.id ∉ gone.map InstalledEntry.id) (h : CollectedFrom sv a gone s)
    (hoptional : ∀ x, x ∈ s.optionalEdges.keys → x ∈ gone.map InstalledEntry.id)
    (hstep : collectEntry sv ix a s entry = .ok s') :
    CollectedFrom sv a (gone ++ [entry]) s' ∧
      ∀ x, x ∈ s'.optionalEdges.keys → x ∈ (gone ++ [entry]).map InstalledEntry.id := by
  unfold collectEntry at hstep
  obtain ⟨s₁, hreq, hs'⟩ := bind_eq_ok.mp hstep
  have hkey : entry.id ∈ (s.requiredEdges.set entry.id []).keys :=
    JsMap.mem_keys_set.mpr (.inl rfl)
  have hr := foldlM_eq_ok (P := RequiredOf sv a entry { s with
      requiredEdges := s.requiredEdges.set entry.id []
      optionalEdges := s.optionalEdges.set entry.id [] }) hreq
    ⟨rfl, rfl, rfl, h.sets.set _ List.nodup_nil, by simp, by simp, by simp⟩
    fun gone d rest s s' _ hs hstep => requiredOf_step hactive hkey hs hstep
  have ho := foldl_rule (P := OptionalOf sv a entry s₁) (f := collectOptional sv a entry)
    (l := sortedDependencies entry.manifest.optional) (s := s₁)
    ⟨rfl, rfl, rfl, fun x y hf => .inl hf, by simp⟩
    fun gone d rest s _ hs => optionalOf_step hactive hs
  obtain rfl : s' = _ := (Except.ok.inj hs').symm
  have hnewr : entry.id ∉ s.requiredEdges.keys := fun hin => hnew ((h.keys _).mp hin)
  have hnewo : entry.id ∉ s.optionalEdges.keys := fun hin => hnew (hoptional _ hin)
  have hopened : ∀ x, x ∈ (s.optionalEdges.set entry.id []).keys →
      x ∈ (gone ++ [entry]).map InstalledEntry.id := by
    intro x hx
    rw [List.map_append, List.mem_append]
    rcases JsMap.mem_keys_set.mp hx with hx | hx
    · exact .inr (by simp [hx])
    · exact .inl (hoptional x hx)
  refine ⟨⟨fun x => ?_, ?_, fun x y => ?_, fun x y hf => ?_, fun c r => ?_, fun c r => ?_,
    fun e he id range hmem => ?_⟩, fun x hx => ?_⟩
  · rw [ho.requiredEdges, hr.keys, JsMap.mem_keys_set, h.keys]
    simp [or_comm]
  · rw [ho.requiredEdges]
    exact hr.sets
  · rw [ho.requiredEdges, hr.edges, filed_set_nil hnewr, h.requiredEdges]
    simp only [mem_sortedDependencies, List.mem_append, List.mem_singleton, or_and_right,
      exists_or, exists_eq_left]
  · rcases ho.edges x y hf with hf | ⟨hx, range, t, hmem, h'⟩
    · rw [hr.optionalEdges, filed_set_nil hnewo] at hf
      obtain ⟨e, he, h'⟩ := h.optionalEdges x y hf
      exact ⟨e, List.mem_append_left _ he, h'⟩
    · exact ⟨entry, by simp, hx, range, t, mem_sortedDependencies.mp hmem, h'⟩
  · rw [ho.requiredCapabilities, hr.capabilities, h.requiredCapabilities]
    simp only [mem_sortedDependencies, List.mem_append, List.mem_singleton, or_and_right,
      exists_or, exists_eq_left]
  · rw [ho.capabilities, hr.optionalCapabilities, h.optionalCapabilities]
    simp only [mem_sortedDependencies, List.mem_append, List.mem_singleton, or_and_right,
      exists_or, exists_eq_left]
  · rcases List.mem_append.mp he with he | he
    · exact h.satisfied e he id range hmem
    · rw [List.mem_singleton.mp he] at hmem
      exact hr.satisfied id range (mem_sortedDependencies.mpr hmem)
  · rw [ho.keys, hr.optionalEdges] at hx
    exact hopened x hx

theorem collect_ok (hactive : ∀ id e, a.activeById.get? id = some e → e.id = id)
    {active : List InstalledEntry} (hnodup : (active.map InstalledEntry.id).Nodup) {c : Collected}
    (h : active.foldlM (collectEntry sv ix a) ⟨.empty, .empty, .empty, .empty⟩ = .ok c) :
    CollectedFrom sv a active c := by
  have hrun := foldlM_eq_ok (P := fun gone (s : Collected) => CollectedFrom sv a gone s ∧
      ∀ x, x ∈ s.optionalEdges.keys → x ∈ gone.map InstalledEntry.id) h
    ⟨⟨by simp [JsMap.keys, JsMap.empty], .empty,
      fun x y => iff_of_false (JsMap.not_filed_empty x y) (by simp),
      fun x y hf => absurd hf (JsMap.not_filed_empty x y),
      fun x y => iff_of_false (JsMap.not_filed_empty x y) (by simp),
      fun x y => iff_of_false (JsMap.not_filed_empty x y) (by simp), by simp⟩,
      by simp [JsMap.keys, JsMap.empty]⟩ (by
    intro gone entry rest s s' hl hs hstep
    have hnew : entry.id ∉ gone.map InstalledEntry.id := by
      rw [hl, List.map_append, List.nodup_append'] at hnodup
      exact fun hin => hnodup.2.2 hin (by simp)
    exact collect_step hactive hnew hs.1 hs.2 hstep)
  exact hrun.1

end Collect

/-! ## Providers -/

section Providers

variable {sv : Semver} {active installed : List InstalledEntry}
  {explicit : JsMap String InstalledEntry}

/-- The selection names an active entry that provides the capability at the version. -/
def Chosen (active : List InstalledEntry) (capability : String) (s : CapabilitySelection) : Prop :=
  ∃ e ∈ active, e.id = s.plugin ∧ e.Provides capability s.version

theorem truthy_eq_some {o : Option String} {v : String} (h : truthy o = some v) : o = some v :=
  (Option.filter_eq_some_iff.mp h).1

theorem selectProvidedVersion_some {e : InstalledEntry} {capability v : String}
    {ranges : List String} (h : selectProvidedVersion sv e capability ranges = some v) :
    e.Provides capability v ∧ ∀ r ∈ ranges, sv.satisfies v r = true := by
  unfold selectProvidedVersion at h
  have hall := List.find?_some (p := fun version => ranges.all fun range =>
    sv.satisfies version range) h
  exact ⟨mem_providedVersions.mp (List.mem_of_find?_eq_some h), List.all_eq_true.mp hall⟩

theorem mem_activeProviders {capability : String} {e : InstalledEntry} :
    e ∈ activeProviders active capability ↔ e ∈ active ∧ ∃ v, e.Provides capability v := by
  rw [activeProviders, mem_sortBy, List.mem_filter]
  refine and_congr_right fun _ => ?_
  rw [Bool.not_eq_true', List.isEmpty_eq_false_iff_exists_mem]
  exact exists_congr fun v => mem_providedVersions

theorem selectRequired_ok (hexplicit : ∀ c e, explicit.get? c = some e → e ∈ active)
    {requested ranges : List String} {capability : String} {s : CapabilitySelection}
    (h : selectRequired sv active installed explicit requested capability ranges = .ok s) :
    Chosen active capability s ∧ ∀ r ∈ ranges, sv.satisfies s.version r = true := by
  unfold selectRequired at h
  split at h
  · rename_i entry hentry
    split at h
    · rename_i version hversion
      cases h
      obtain ⟨hp, hr⟩ := selectProvidedVersion_some (truthy_eq_some hversion)
      exact ⟨⟨entry, hexplicit _ _ hentry, rfl, hp⟩, hr⟩
    · split at h <;> cases h
  · dsimp only at h
    split at h
    · split at h
      · cases h
      · split at h <;> cases h
    · rename_i entry hcandidates
      split at h
      · rename_i version hversion
        cases h
        obtain ⟨hp, hr⟩ := selectProvidedVersion_some (truthy_eq_some hversion)
        have hmem : entry ∈ activeProviders active capability := by
          have hin : entry ∈ (activeProviders active capability).filter fun entry =>
              (selectProvidedVersion sv entry capability ranges).isSome := by
            rw [hcandidates]
            exact List.mem_cons_self
          exact (List.mem_filter.mp hin).1
        exact ⟨⟨entry, (mem_activeProviders.mp hmem).1, rfl, hp⟩, hr⟩
      · cases h
    · cases h

/-- The edges that consumers get to the provider of a capability. -/
theorem filed_foldl_addTo (requirements : List CapabilityRequirement) (plugin : String)
    (edges : Edges) {m : Edges}
    (hm : m = requirements.foldl (fun edges r => edges.addTo r.consumer plugin) edges) :
    m.keys = edges.keys ∧ (edges.Sets → m.Sets) ∧ ∀ x y, m.Filed x y ↔
      edges.Filed x y ∨ y = plugin ∧ x ∈ edges.keys ∧ ∃ r ∈ requirements, r.consumer = x := by
  subst hm
  refine foldl_rule (f := fun (edges : Edges) (r : CapabilityRequirement) =>
    edges.addTo r.consumer plugin) (P := fun gone (m : Edges) => m.keys = edges.keys ∧ (edges.Sets → m.Sets) ∧
    ∀ x y, m.Filed x y ↔ edges.Filed x y ∨ y = plugin ∧ x ∈ edges.keys ∧
      ∃ r ∈ gone, r.consumer = x) ⟨rfl, id, by simp⟩ ?_
  rintro gone r rest m - ⟨hkeys, hsets, hfiled⟩
  refine ⟨by rw [JsMap.keys_addTo, hkeys], fun h => (hsets h).addTo _ _, fun x y => ?_⟩
  rw [JsMap.filed_addTo, hfiled, hkeys]
  simp only [List.mem_append, List.mem_singleton, or_and_right, exists_or, exists_eq_left]
  constructor
  · intro ho
    rcases ho with (h1 | ⟨h1, h2, h3⟩) | ⟨h1, h2, h3⟩
    · exact .inl h1
    · exact .inr ⟨h1, h2, .inl h3⟩
    · rw [← h1] at h3
      exact .inr ⟨h2, h3, .inr h1.symm⟩
  · intro ho
    rcases ho with h1 | ⟨h1, h2, h3 | h3⟩
    · exact .inl (.inl h1)
    · exact .inl (.inr ⟨h1, h2, h3⟩)
    · rw [← h3] at h2
      exact .inr ⟨h3.symm, h1, h2⟩

/-- What the required capabilities `gone` leave. -/
structure RequiredResolved (sv : Semver) (active : List InstalledEntry) (requirements : Requirements)
    (base : Edges) (gone : List String) (s : Edges × Selections) : Prop where
  keys : s.1.keys = base.keys
  sets : s.1.Sets
  mono : ∀ x y, base.Filed x y → s.1.Filed x y
  source : ∀ x y, s.1.Filed x y → base.Filed x y ∨ ∃ c ∈ gone, ∃ r, requirements.Filed c r ∧
    r.consumer = x ∧ ∃ p, s.2.get? c = some p ∧ p.plugin = y
  chosen : ∀ c p, s.2.get? c = some p → Chosen active c p
  selected : ∀ c ∈ gone, ∃ p, s.2.get? c = some p ∧ ∀ r, requirements.Filed c r →
    sv.satisfies p.version r.range = true ∧ (r.consumer ∈ base.keys → s.1.Filed r.consumer p.plugin)

theorem resolveRequired_step (hexplicit : ∀ c e, explicit.get? c = some e → e ∈ active)
    {requested : List String} {requirements : Requirements} {base : Edges} {gone : List String}
    {s s' : Edges × Selections} {capability : String} (hnew : capability ∉ gone)
    (h : RequiredResolved sv active requirements base gone s)
    (hstep : resolveRequiredCapability sv requirements active installed explicit requested s
      capability = .ok s') :
    RequiredResolved sv active requirements base (gone ++ [capability]) s' := by
  unfold resolveRequiredCapability at hstep
  obtain ⟨p, hp, hs'⟩ := bind_eq_ok.mp hstep
  cases hs'
  obtain ⟨hchosen, hsat⟩ := selectRequired_ok hexplicit hp
  obtain ⟨hkeys, hsets, hfiled⟩ := filed_foldl_addTo (requirements.of capability) p.plugin s.1 rfl
  have hof : ∀ r, r ∈ requirements.of capability ↔ requirements.Filed capability r :=
    fun r => JsMap.filed_iff_getD.symm
  have hkeep : ∀ c ∈ gone, (s.2.set capability p).get? c = s.2.get? c :=
    fun c hc => JsMap.get?_set_ne _ _ fun he => hnew (he ▸ hc)
  refine ⟨hkeys.trans h.keys, hsets h.sets, fun x y hf => (hfiled x y).mpr (.inl (h.mono x y hf)),
    fun x y hf => ?_, fun c q hq => ?_, fun c hc => ?_⟩
  · rcases (hfiled x y).mp hf with hf | ⟨rfl, -, r, hr, rfl⟩
    · refine (h.source x y hf).imp_right fun ⟨c, hc, r, hr, hx, q, hq, hy⟩ => ?_
      exact ⟨c, List.mem_append_left _ hc, r, hr, hx, q, by rw [hkeep c hc, hq], hy⟩
    · exact .inr ⟨capability, by simp, r, (hof r).mp hr, rfl, p, JsMap.get?_set_self _ _ _, rfl⟩
  · rw [JsMap.get?_set] at hq
    split at hq
    · rename_i he
      cases hq
      rw [he]
      exact hchosen
    · exact h.chosen c q hq
  · rcases List.mem_append.mp hc with hc | hc
    · obtain ⟨q, hq, hr⟩ := h.selected c hc
      refine ⟨q, by rw [hkeep c hc, hq], fun r hrf => ⟨(hr r hrf).1, fun hk => ?_⟩⟩
      exact (hfiled _ _).mpr (.inl ((hr r hrf).2 hk))
    · obtain rfl := List.mem_singleton.mp hc
      refine ⟨p, JsMap.get?_set_self _ _ _, fun r hrf => ⟨?_, fun hk => ?_⟩⟩
      · exact hsat r.range (List.mem_map_of_mem ((hof r).mpr hrf))
      · exact (hfiled _ _).mpr (.inr ⟨rfl, by rw [h.keys]; exact hk, r, (hof r).mpr hrf, rfl⟩)

theorem resolveRequired_ok (hexplicit : ∀ c e, explicit.get? c = some e → e ∈ active)
    {requested : List String} {requirements : Requirements} {base : Edges} (hbase : base.Sets)
    {s : Edges × Selections}
    (h : resolveRequiredCapabilities sv requirements active installed explicit requested
      (base, .empty) = .ok s) :
    RequiredResolved sv active requirements base (sortStrings requirements.keys) s := by
  have hnodup : (sortStrings requirements.keys).Nodup :=
    (sortBy_perm_self id _).nodup_iff.mpr requirements.nodup
  refine foldlM_eq_ok (P := RequiredResolved sv active requirements base) h
    ⟨rfl, hbase, fun _ _ hf => hf, fun _ _ hf => .inl hf, by simp, by simp⟩ ?_
  intro gone capability rest s s' hl hs hstep
  have hnew : capability ∉ gone := by
    rw [hl, List.nodup_append'] at hnodup
    exact fun hin => hnodup.2.2 hin List.mem_cons_self
  exact resolveRequired_step hexplicit hnew hs hstep

/-- The optional edges that a selection adds lead to its plugin and satisfy the requirement. -/
theorem filed_addCompatibleEdges {requirements : List CapabilityRequirement}
    {p : CapabilitySelection} {edges : Edges} {x y : String}
    (h : (addCompatibleEdges sv requirements edges p).Filed x y) :
    edges.Filed x y ∨ y = p.plugin ∧ ∃ r ∈ requirements, r.consumer = x ∧
      sv.satisfies p.version r.range = true := by
  have hrun := foldl_rule (P := fun gone (m : Edges) => ∀ x y, m.Filed x y →
      edges.Filed x y ∨ y = p.plugin ∧ ∃ r ∈ gone, r.consumer = x ∧
        sv.satisfies p.version r.range = true)
    (f := fun edges r => if sv.satisfies p.version r.range then edges.addTo r.consumer p.plugin
      else edges) (l := requirements) (s := edges) (fun _ _ hf => .inl hf) (by
    intro gone r rest m _ hm x y hf
    have hmore : edges.Filed x y ∨ (y = p.plugin ∧ ∃ r ∈ gone, r.consumer = x ∧
        sv.satisfies p.version r.range = true) → edges.Filed x y ∨ (y = p.plugin ∧
        ∃ r' ∈ gone ++ [r], r'.consumer = x ∧ sv.satisfies p.version r'.range = true) :=
      fun ho => ho.imp_right fun ⟨hy, r', hr', h'⟩ => ⟨hy, r', List.mem_append_left _ hr', h'⟩
    split at hf
    · rename_i hsat
      rcases JsMap.filed_addTo.mp hf with hf | ⟨rfl, rfl, -⟩
      · exact hmore (hm x y hf)
      · exact .inr ⟨rfl, r, by simp, rfl, hsat⟩
    · exact hmore (hm x y hf))
  exact hrun x y h

theorem selectOptional_ok (hexplicit : ∀ c e, explicit.get? c = some e → e ∈ active)
    {capability : String} {requirements : List CapabilityRequirement} {p : CapabilitySelection}
    (h : selectOptional sv active explicit capability requirements = .ok (some p)) :
    Chosen active capability p := by
  unfold selectOptional at h
  split at h
  · rename_i entry hentry
    split at h
    · cases h
    · rename_i first rest hversions
      cases h
      refine ⟨entry, hexplicit _ _ hentry, rfl, ?_⟩
      rw [← mem_providedVersions, hversions]
      cases hf : (first :: rest).find? (anySatisfied sv requirements) with
      | none => exact List.mem_cons_self
      | some v => exact List.mem_of_find?_eq_some hf
  · dsimp only at h
    split at h
    · cases h
    · rename_i provider hproviders
      split at h
      · cases h
      · rename_i version hversion
        cases h
        have hmem : provider ∈ activeProviders active capability := by
          have hin : provider ∈ (activeProviders active capability).filter fun provider =>
              (providedVersions provider capability).any (anySatisfied sv requirements) := by
            rw [hproviders]
            exact List.mem_cons_self
          exact (List.mem_filter.mp hin).1
        exact ⟨provider, (mem_activeProviders.mp hmem).1, rfl,
          mem_providedVersions.mp (List.mem_of_find?_eq_some (truthy_eq_some hversion))⟩
    · cases h

/-- What the optional capabilities add to the edges and to the selections of the required ones:
no selection changes. -/
structure OptionalResolved (sv : Semver) (active : List InstalledEntry) (requirements : Requirements)
    (base s : Edges × Selections) : Prop where
  kept : ∀ c p, base.2.get? c = some p → s.2.get? c = some p
  chosen : ∀ c p, s.2.get? c = some p → Chosen active c p
  edges : ∀ x y, s.1.Filed x y → base.1.Filed x y ∨ ∃ c r p, requirements.Filed c r ∧
    r.consumer = x ∧ s.2.get? c = some p ∧ p.plugin = y ∧ sv.satisfies p.version r.range = true

theorem resolveOptional_step (hexplicit : ∀ c e, explicit.get? c = some e → e ∈ active)
    {requirements : Requirements} {base s s' : Edges × Selections} {capability : String}
    (h : OptionalResolved sv active requirements base s)
    (hstep : resolveOptionalCapability sv requirements active explicit s capability = .ok s') :
    OptionalResolved sv active requirements base s' := by
  have hof : ∀ r, r ∈ requirements.of capability ↔ requirements.Filed capability r :=
    fun r => JsMap.filed_iff_getD.symm
  unfold resolveOptionalCapability at hstep
  dsimp only at hstep
  split at hstep
  · rename_i p hp
    split at hstep
    · cases hstep
      refine ⟨h.kept, h.chosen, fun x y hf => ?_⟩
      rcases filed_addCompatibleEdges hf with hf | ⟨rfl, r, hr, hx, hsat⟩
      · exact h.edges x y hf
      · exact .inr ⟨capability, r, p, (hof r).mp hr, hx, hp, rfl, hsat⟩
    · cases hstep
      exact h
  · rename_i hnone
    obtain ⟨selected, hselected, hs'⟩ := bind_eq_ok.mp hstep
    split at hs'
    · cases hs'
      exact h
    · rename_i p
      cases hs'
      have hkeep : ∀ c q, s.2.get? c = some q → (s.2.set capability p).get? c = some q := by
        intro c q hq
        rw [JsMap.get?_set_ne _ _ fun he => ?_, hq]
        rw [he, hnone] at hq
        cases hq
      refine ⟨fun c q hq => hkeep c q (h.kept c q hq), fun c q hq => ?_, fun x y hf => ?_⟩
      · dsimp only at hq
        rw [JsMap.get?_set] at hq
        split at hq
        · rename_i he
          cases hq
          rw [he]
          exact selectOptional_ok hexplicit hselected
        · exact h.chosen c q hq
      · rcases filed_addCompatibleEdges hf with hf | ⟨rfl, r, hr, hx, hsat⟩
        · refine (h.edges x y hf).imp_right fun ⟨c, r, q, hr, hx, hq, h'⟩ => ?_
          exact ⟨c, r, q, hr, hx, hkeep c q hq, h'⟩
        · exact .inr ⟨capability, r, p, (hof r).mp hr, hx, JsMap.get?_set_self _ _ _, rfl, hsat⟩

theorem selectRemaining_step (hexplicit : ∀ c e, explicit.get? c = some e → e ∈ active)
    {optional requirements : Requirements} {base : Edges × Selections} {edges : Edges}
    {s s' : Selections} {p : String × InstalledEntry} (hp : p ∈ explicit.entries)
    (h : OptionalResolved sv active requirements base (edges, s))
    (hstep : selectRemaining optional s p = .ok s') :
    OptionalResolved sv active requirements base (edges, s') := by
  unfold selectRemaining at hstep
  split at hstep
  · cases hstep
    exact h
  · rename_i hnone
    rw [Option.not_isSome_iff_eq_none] at hnone
    split at hstep
    · cases hstep
    · rename_i first rest hversions
      split at hstep
      · cases hstep
        exact h
      · cases hstep
        have hkeep : ∀ c q, s.get? c = some q →
            (s.set p.1 ⟨p.2.id, first⟩).get? c = some q := by
          intro c q hq
          rw [JsMap.get?_set_ne _ _ fun he => ?_, hq]
          rw [he, hnone] at hq
          cases hq
        refine ⟨fun c q hq => hkeep c q (h.kept c q hq), fun c q hq => ?_, fun x y hf => ?_⟩
        · dsimp only at hq
          rw [JsMap.get?_set] at hq
          split at hq
          · rename_i he
            cases hq
            rw [he]
            refine ⟨p.2, hexplicit p.1 p.2 (JsMap.get?_eq_some.mpr hp), rfl, ?_⟩
            rw [← mem_providedVersions, hversions]
            exact List.mem_cons_self
          · exact h.chosen c q hq
        · refine (h.edges x y hf).imp_right fun ⟨c, r, q, hr, hx, hq, h'⟩ => ?_
          exact ⟨c, r, q, hr, hx, hkeep c q hq, h'⟩

end Providers

/-! ## Conflicts -/

theorem validateConflicts_ok {sv : Semver} {active : List InstalledEntry}
    {activeById : JsMap String InstalledEntry} {u : Unit}
    (h : validateConflicts sv active activeById = .ok u) {e : InstalledEntry} (he : e ∈ active) :
    (∀ id range, .plugin id range ∈ e.manifest.conflicts → ∀ t, activeById.get? id = some t →
      sv.satisfies t.version range = false) ∧
    ∀ c range, .capability c range ∈ e.manifest.conflicts → ∀ t ∈ active, ∀ v, t.Provides c v →
      sv.satisfies v range = false := by
  have hcheck := fun d hd => forM_eq_ok.mp (forM_eq_ok.mp h e he) d (mem_sortedDependencies.mpr hd)
  refine ⟨fun id range hd t ht => ?_, fun c range hd t ht v hv => ?_⟩
  · have hok := hcheck _ hd
    unfold checkConflict at hok
    dsimp only at hok
    rw [ht] at hok
    split at hok
    · cases hok
    · rename_i hno
      simpa using hno
  · have hok := hcheck _ hd
    unfold checkConflict at hok
    have hprovider := forM_eq_ok.mp hok t (mem_activeProviders.mpr ⟨ht, v, hv⟩)
    split at hprovider
    · rename_i hnone
      rw [← Bool.not_eq_true]
      intro hsat
      -- a version that satisfies the range would have been found, and no version is empty
      cases hf : selectProvidedVersion sv t c [range] with
      | none =>
        have := List.find?_eq_none.mp hf v (mem_providedVersions.mpr hv)
        simp [hsat] at this
      | some w =>
        have hw : w ≠ "" := (selectProvidedVersion_some hf).1.version_ne_empty
        rw [hf] at hnone
        simp [truthy, hw] at hnone
    · cases hprovider

/-! ## The whole run -/

/-- What the passes leave for the graph, in terms of the active entries. -/
structure Resolved (sv : Semver) (o : ResolveOptions) (active : List InstalledEntry)
    (requiredEdges optionalEdges : Edges) (selections : Selections) : Prop where
  mem : ∀ e, e ∈ active ↔ e ∈ o.installed ∧ o.Enables e.id
  nodup : (active.map InstalledEntry.id).Nodup
  unique : ∀ e ∈ o.installed, ∀ e' ∈ o.installed, e.id = e'.id → e = e'
  consistent : ∀ e ∈ o.installed, e.Consistent
  requested : ∀ r ∈ o.plugins, ∃ e ∈ o.installed, e.id = r.id ∧ e.packageName = r.package ∧
    e.version = r.version
  provider : ∀ p ∈ o.providers.entries, ∃ e ∈ o.installed, e.id = p.2.plugin ∧
    e.packageName = p.2.package ∧ e.version = p.2.version
  sets : requiredEdges.Sets
  closed : ∀ x y, requiredEdges.Filed x y →
    x ∈ active.map InstalledEntry.id ∧ y ∈ active.map InstalledEntry.id
  chosen : ∀ c p, selections.get? c = some p → Chosen active c p
  plugin_dependency : ∀ e ∈ active, ∀ id range, .plugin id range ∈ e.manifest.requires →
    requiredEdges.Filed e.id id ∧ ∃ t ∈ active, t.id = id ∧ sv.satisfies t.version range = true
  capability_dependency : ∀ e ∈ active, ∀ c range, .capability c range ∈ e.manifest.requires →
    ∃ p, selections.get? c = some p ∧ sv.satisfies p.version range = true ∧
      requiredEdges.Filed e.id p.plugin
  optional_edge : ∀ x y, optionalEdges.Filed x y → ∃ e ∈ active, x = e.id ∧
    ∃ t ∈ active, t.id = y ∧
      ((∃ range, .plugin y range ∈ e.manifest.optional ∧ sv.satisfies t.version range = true) ∨
        ∃ c range p, .capability c range ∈ e.manifest.optional ∧ selections.get? c = some p ∧
          p.plugin = y ∧ sv.satisfies p.version range = true)
  plugin_conflict : ∀ e ∈ active, ∀ id range, .plugin id range ∈ e.manifest.conflicts →
    ∀ t ∈ active, t.id = id → sv.satisfies t.version range = false
  capability_conflict : ∀ e ∈ active, ∀ c range, .capability c range ∈ e.manifest.conflicts →
    ∀ t ∈ active, ∀ v, t.Provides c v → sv.satisfies v range = false

theorem resolveEdges_ok {sv : Semver} {o : ResolveOptions} {ix : Indexes} {a : Activation}
    {explicit : JsMap String InstalledEntry} {requiredEdges optionalEdges : Edges}
    {selections : Selections} (hix : buildInstalledIndexes o.installed = .ok ix)
    (hact : activate o ix = .ok (a, explicit))
    (h : resolveEdges sv ix a explicit (activeEntries a.activeById) =
      .ok (requiredEdges, optionalEdges, selections)) :
    Resolved sv o (activeEntries a.activeById) requiredEdges optionalEdges selections := by
  obtain ⟨hentries, hindexed, hwf⟩ := buildInstalledIndexes_ok hix
  have hinstalled : ∀ e, e ∈ ix.entries ↔ e ∈ o.installed := by
    intro e
    rw [hentries, mem_sortBy]
  have hA := activate_ok hindexed hwf hact
  have hid : ∀ id e, a.activeById.get? id = some e → e.id = id :=
    fun id e hget => ((hA.active id e).mp hget).2.1
  have hmem : ∀ e, e ∈ activeEntries a.activeById ↔ e ∈ o.installed ∧ o.Enables e.id := by
    intro e
    rw [mem_activeEntries hid, hA.active, hinstalled]
    exact ⟨fun h => ⟨h.1, h.2.2⟩, fun h => ⟨h.1, rfl, h.2⟩⟩
  have hget : ∀ id t, a.activeById.get? id = some t ↔ t ∈ activeEntries a.activeById ∧ t.id = id := by
    intro id t
    rw [mem_activeEntries hid]
    constructor
    · intro hg
      rw [hid id t hg]
      exact ⟨hg, rfl⟩
    · rintro ⟨hg, rfl⟩
      exact hg
  have hnodup := nodup_activeEntries hid
  have hexplicit : ∀ c e, explicit.get? c = some e → e ∈ activeEntries a.activeById :=
    fun c e he => (mem_activeEntries hid).mpr (hA.explicit c e he)
  -- the passes, one after the other
  unfold resolveEdges at h
  obtain ⟨_, hranges, h⟩ := bind_eq_ok.mp h
  obtain ⟨c, hcollect, h⟩ := bind_eq_ok.mp h
  obtain ⟨required, hrequired, h⟩ := bind_eq_ok.mp h
  obtain ⟨optional, hoptional, h⟩ := bind_eq_ok.mp h
  obtain ⟨remaining, hremaining, h⟩ := bind_eq_ok.mp h
  obtain ⟨_, hconflicts, h⟩ := bind_eq_ok.mp h
  cases h
  have hC := collect_ok hid hnodup hcollect
  have hR := resolveRequired_ok hexplicit hC.sets hrequired
  have hO := foldlM_eq_ok (P := fun _ s => OptionalResolved sv (activeEntries a.activeById)
      c.optionalCapabilities (c.optionalEdges, required.2) s) hoptional
    ⟨fun _ _ hp => hp, hR.chosen, fun _ _ hf => .inl hf⟩
    fun _ _ _ _ _ _ hs hstep => resolveOptional_step hexplicit hs hstep
  have hM := foldlM_eq_ok (P := fun _ s => OptionalResolved sv (activeEntries a.activeById)
      c.optionalCapabilities (c.optionalEdges, required.2) (optional.1, s)) hremaining hO
    fun _ p _ _ _ hl hs hstep => selectRemaining_step hexplicit (by rw [hl]; simp) hs hstep
  have hkeys : ∀ x y, required.1.Filed x y →
      x ∈ (activeEntries a.activeById).map InstalledEntry.id := by
    intro x y ⟨l, hl, _⟩
    rw [← hC.keys, ← hR.keys]
    exact JsMap.mem_keys.mpr ⟨l, hl⟩
  have hchosen : ∀ p q, Chosen (activeEntries a.activeById) p q →
      q.plugin ∈ (activeEntries a.activeById).map InstalledEntry.id := by
    intro p q ⟨e, he, hq, _⟩
    exact List.mem_map.mpr ⟨e, he, hq⟩
  refine ⟨hmem, hnodup, fun e he e' he' => ?_, fun e he => ?_, fun r hr => ?_, fun p hp => ?_,
    hR.sets, fun x y hf => ⟨hkeys x y hf, ?_⟩, hM.chosen, fun e he id range hd => ?_,
    fun e he p range hd => ?_, fun x y hf => ?_, fun e he id range hd t ht htid => ?_,
    fun e he p range hd t ht v hv => ?_⟩
  · exact hwf.eq_of_id ((hinstalled e).mpr he) ((hinstalled e').mpr he')
  · exact hwf.consistent e ((hinstalled e).mpr he)
  · obtain ⟨e, he, h'⟩ := hA.requested r hr
    exact ⟨e, (hinstalled e).mp he, h'⟩
  · obtain ⟨e, he, h'⟩ := hA.provider p hp
    exact ⟨e, (hinstalled e).mp he, h'⟩
  · rcases hR.source x y hf with hf | ⟨p, -, r, -, -, q, hq, rfl⟩
    · obtain ⟨e, he, -, range, hd⟩ := (hC.requiredEdges x y).mp hf
      obtain ⟨t, ht, -⟩ := hC.satisfied e he y range hd
      obtain ⟨htm, hty⟩ := (hget y t).mp ht
      exact List.mem_map.mpr ⟨t, htm, hty⟩
    · exact hchosen p q (hR.chosen p q hq)
  · refine ⟨hR.mono _ _ ((hC.requiredEdges _ _).mpr ⟨e, he, rfl, range, hd⟩), ?_⟩
    obtain ⟨t, ht, hsat⟩ := hC.satisfied e he id range hd
    obtain ⟨htm, htid⟩ := (hget id t).mp ht
    exact ⟨t, htm, htid, hsat⟩
  · have hreq := (hC.requiredCapabilities p ⟨e.id, range⟩).mpr ⟨e, he, rfl, hd⟩
    have hkey : p ∈ sortStrings c.requiredCapabilities.keys := by
      obtain ⟨l, hl, -⟩ := hreq
      exact mem_sortStrings.mpr (JsMap.mem_keys.mpr ⟨l, hl⟩)
    obtain ⟨q, hq, hall⟩ := hR.selected p hkey
    obtain ⟨hsat, hedge⟩ := hall ⟨e.id, range⟩ hreq
    refine ⟨q, hM.kept p q hq, hsat, hedge ?_⟩
    rw [hC.keys]
    exact List.mem_map_of_mem he
  · rcases hM.edges x y hf with hf | ⟨p, r, q, hreq, rfl, hq, rfl, hsat⟩
    · obtain ⟨e, he, hx, range, t, hd, ht, hsat⟩ := hC.optionalEdges x y hf
      obtain ⟨htm, hty⟩ := (hget y t).mp ht
      exact ⟨e, he, hx, t, htm, hty, .inl ⟨range, hd, hsat⟩⟩
    · obtain ⟨e, he, hx, hd⟩ := (hC.optionalCapabilities p r).mp hreq
      obtain ⟨t, ht, htq, -⟩ := hM.chosen p q hq
      exact ⟨e, he, hx, t, ht, htq, .inr ⟨p, r.range, q, hd, hq, rfl, hsat⟩⟩
  · exact (validateConflicts_ok hconflicts he).1 id range hd t ((hget id t).mpr ⟨ht, htid⟩)
  · exact (validateConflicts_ok hconflicts he).2 p range hd t ht v hv

/-- The graph of a run that returned. -/
theorem resolve_ok {sv : Semver} {o : ResolveOptions} {g : ResolvedGraph}
    (h : resolvePlatformPluginGraph sv o = .ok g) :
    ∃ active requiredEdges optionalEdges selections,
      Resolved sv o active requiredEdges optionalEdges selections ∧ Acyclic requiredEdges.Filed ∧
      g = resolvedGraph active requiredEdges optionalEdges selections := by
  unfold resolvePlatformPluginGraph at h
  obtain ⟨ix, hix, h⟩ := bind_eq_ok.mp h
  obtain ⟨_, -, h⟩ := bind_eq_ok.mp h
  obtain ⟨⟨a, explicit⟩, hact, h⟩ := bind_eq_ok.mp h
  obtain ⟨⟨requiredEdges, optionalEdges, selections⟩, hedges, h⟩ := bind_eq_ok.mp h
  dsimp only at h
  split at h
  · cases h
  · rename_i hcycle
    cases h
    exact ⟨_, requiredEdges, optionalEdges, selections, resolveEdges_ok hix hact hedges,
      acyclic_of_shortestRequiredCycle hcycle, rfl⟩

section Graph

variable {sv : Semver} {o : ResolveOptions} {active : List InstalledEntry}
  {requiredEdges optionalEdges : Edges} {selections : Selections}

theorem mem_required {e : InstalledEntry} {id : String} :
    id ∈ (resolvedNode requiredEdges optionalEdges e).required ↔ requiredEdges.Filed e.id id := by
  simp only [resolvedNode, List.mem_eraseDups, mem_sortStrings, Edges.filed_iff]

theorem mem_optional {e : InstalledEntry} {id : String} :
    id ∈ (resolvedNode requiredEdges optionalEdges e).optional ↔ optionalEdges.Filed e.id id := by
  simp only [resolvedNode, List.mem_eraseDups, mem_sortStrings, Edges.filed_iff]

theorem mem_capabilityProviders {p : ResolvedCapabilityProvider} :
    p ∈ capabilityProviders selections ↔
      selections.get? p.capability = some ⟨p.plugin, p.version⟩ := by
  simp only [capabilityProviders, mem_sortBy, List.mem_map, JsMap.get?_eq_some]
  constructor
  · rintro ⟨s, hs, rfl⟩
    exact hs
  · intro h
    exact ⟨_, h, rfl⟩

theorem map_id_nodes :
    (resolvedGraph active requiredEdges optionalEdges selections).plugins.map ResolvedNode.id =
      active.map InstalledEntry.id := by
  rw [resolvedGraph, List.map_map]
  rfl

theorem Resolved.describes (h : Resolved sv o active requiredEdges optionalEdges selections)
    {e : InstalledEntry} (he : e ∈ active) :
    (resolvedNode requiredEdges optionalEdges e).Describes o.installed e := by
  have hin := ((h.mem e).mp he).1
  have hc := h.consistent e hin
  exact ⟨hin, rfl, rfl, ⟨rfl, hc.1.symm⟩, ⟨rfl, hc.2.symm⟩, rfl,
    fun e' he' hid => h.unique e' he' e hin hid⟩

theorem Resolved.describes_eq (h : Resolved sv o active requiredEdges optionalEdges selections)
    {e e' : InstalledEntry} (he : e ∈ active)
    (hd : (resolvedNode requiredEdges optionalEdges e).Describes o.installed e') : e' = e :=
  (h.describes he).unique e' hd.mem hd.id.symm

theorem Resolved.order (h : Resolved sv o active requiredEdges optionalEdges selections)
    (hacyclic : Acyclic requiredEdges.Filed) :
    (dependencyFirstOrder (active.map InstalledEntry.id) requiredEdges).Perm
        (active.map InstalledEntry.id) ∧
      DependencyFirst requiredEdges.Filed
        (dependencyFirstOrder (active.map InstalledEntry.id) requiredEdges) := by
  have hempty : "" ∉ active.map InstalledEntry.id := by
    intro hm
    obtain ⟨e, _, he⟩ := List.mem_map.mp hm
    exact e.id_ne_empty he
  exact dependencyFirstOrder_spec h.nodup hempty h.sets hacyclic
    fun a _ b hf => (h.closed a b hf).2

theorem Resolved.requires_eq (h : Resolved sv o active requiredEdges optionalEdges selections) :
    (resolvedGraph active requiredEdges optionalEdges selections).Requires = requiredEdges.Filed := by
  funext a b
  apply propext
  constructor
  · intro ⟨n, hn, hna, hb⟩
    obtain ⟨e, he, rfl⟩ := List.mem_map.mp hn
    rw [← hna]
    exact mem_required.mp hb
  · intro hf
    obtain ⟨e, he, rfl⟩ := List.mem_map.mp (h.closed a b hf).1
    exact ⟨_, List.mem_map_of_mem he, rfl, mem_required.mpr hf⟩

end Graph

/-- **Resolution is sound.** Every graph that the resolver returns keeps what `Sound` promises. -/
theorem resolve_sound (sv : Semver) (o : ResolveOptions) (g : ResolvedGraph)
    (h : resolvePlatformPluginGraph sv o = .ok g) : Sound sv o g := by
  obtain ⟨active, requiredEdges, optionalEdges, selections, hR, hacyclic, rfl⟩ := resolve_ok h
  have hRel := hR.requires_eq
  have horder := hR.order hacyclic
  have henabled : ∀ id, o.Enables id → ∃ e ∈ active, e.id = id := by
    intro id hen
    have hin : ∃ e ∈ o.installed, e.id = id := by
      rcases hen with ⟨r, hr, -, rfl⟩ | ⟨p, hp, rfl⟩
      · obtain ⟨e, he, hid, -⟩ := hR.requested r hr
        exact ⟨e, he, hid⟩
      · obtain ⟨e, he, hid, -⟩ := hR.provider p hp
        exact ⟨e, he, hid⟩
    obtain ⟨e, he, rfl⟩ := hin
    exact ⟨e, (hR.mem e).mpr ⟨he, hen⟩, rfl⟩
  -- the node of an active entry, found by its installed entry
  have hnode : ∀ e ∈ o.installed, o.Enables e.id → resolvedNode requiredEdges optionalEdges e ∈
      active.map (resolvedNode requiredEdges optionalEdges) := by
    intro e he hen
    exact List.mem_map_of_mem ((hR.mem e).mpr ⟨he, hen⟩)
  refine
    { nodes_nodup := by rw [map_id_nodes]; exact hR.nodup
      nodes_iff := fun id => ?_
      described := fun n hn => ?_
      requested := fun r hr hen => ?_
      provider := fun p hp => ?_
      plugin_dependency := fun n hn e hd id range hreq => ?_
      capability_dependency := fun n hn e hd c range hreq => ?_
      selections_unique := ?_
      selections_provided := fun p hp => ?_
      optional_edge := fun n hn e hd id hid => ?_
      plugin_conflict := fun n hn e hd id range hcon t ht htid => ?_
      capability_conflict := fun n hn e hd c range hcon t ht e' hd' v hv => ?_
      required_nodes := fun n hn id hid => ?_
      acyclic := by rw [hRel]; exact hacyclic
      order := by rw [map_id_nodes]; exact horder.1
      order_first := by rw [hRel]; exact horder.2 }
  · rw [map_id_nodes, List.mem_map]
    constructor
    · rintro ⟨e, he, rfl⟩
      exact ((hR.mem e).mp he).2
    · exact henabled id
  · obtain ⟨e, he, rfl⟩ := List.mem_map.mp hn
    exact ⟨e, hR.describes he⟩
  · obtain ⟨e, he, hid, hpkg, hver⟩ := hR.requested r hr
    exact ⟨_, hnode e he (.inl ⟨r, hr, hen, hid.symm⟩), hid, hpkg, hver⟩
  · obtain ⟨e, he, hid, hpkg, hver⟩ := hR.provider p hp
    exact ⟨_, hnode e he (.inr ⟨p, hp, hid.symm⟩), hid, hpkg, hver⟩
  · obtain ⟨x, hx, rfl⟩ := List.mem_map.mp hn
    obtain rfl := hR.describes_eq hx hd
    obtain ⟨hf, t, ht, htid, hsat⟩ := hR.plugin_dependency e hx id range hreq
    exact ⟨mem_required.mpr hf, _, List.mem_map_of_mem ht, htid, hsat⟩
  · obtain ⟨x, hx, rfl⟩ := List.mem_map.mp hn
    obtain rfl := hR.describes_eq hx hd
    obtain ⟨p, hp, hsat, hf⟩ := hR.capability_dependency e hx c range hreq
    exact ⟨⟨c, p.plugin, p.version⟩, mem_capabilityProviders.mpr hp, rfl, hsat,
      mem_required.mpr hf⟩
  · refine ((sortBy_perm_self capabilityProviderKey _).map _).nodup_iff.mpr ?_
    rw [List.map_map]
    exact selections.nodup
  · obtain ⟨e, he, hid, hprov⟩ := hR.chosen _ _ (mem_capabilityProviders.mp hp)
    exact ⟨_, List.mem_map_of_mem he, hid, e, hR.describes he, hprov⟩
  · obtain ⟨x, hx, rfl⟩ := List.mem_map.mp hn
    obtain rfl := hR.describes_eq hx hd
    obtain ⟨e', he', hxe, t, ht, htid, hor⟩ := hR.optional_edge _ _ (mem_optional.mp hid)
    obtain rfl : e = e' := hR.unique e hd.mem e' ((hR.mem e').mp he').1 hxe
    refine ⟨_, List.mem_map_of_mem ht, htid, hor.imp_right ?_⟩
    rintro ⟨c, range, p, hopt, hp, rfl, hsat⟩
    exact ⟨c, range, p.version, hopt, mem_capabilityProviders.mpr hp, hsat⟩
  · obtain ⟨x, hx, rfl⟩ := List.mem_map.mp hn
    obtain rfl := hR.describes_eq hx hd
    obtain ⟨y, hy, rfl⟩ := List.mem_map.mp ht
    exact hR.plugin_conflict e hx id range hcon y hy htid
  · obtain ⟨x, hx, rfl⟩ := List.mem_map.mp hn
    obtain rfl := hR.describes_eq hx hd
    obtain ⟨y, hy, rfl⟩ := List.mem_map.mp ht
    obtain rfl := hR.describes_eq hy hd'
    exact hR.capability_conflict e hx c range hcon e' hy v hv
  · obtain ⟨x, hx, rfl⟩ := List.mem_map.mp hn
    rw [map_id_nodes]
    exact (hR.closed _ _ (mem_required.mp hid)).2

/-! ## An application of three plugins -/

/-- Ranges that are exact versions. -/
def exactVersions : Semver where
  satisfies version range := version == range
  validRange range := exactSemverOk range
  prerelease version := version.toList.contains '-'

theorem exampleVersion_ok : exactSemverOk "1.0.0" = true := by decide

def exampleEntry (id package : String) (provides : List CapabilityProvision)
    (requires optional conflicts : List Dependency) (id_ok : pluginIdOk id = true)
    (package_ok : packageNameOk package = true)
    (provides_ok : ∀ p ∈ provides, capabilityIdOk p.capability = true ∧
      exactSemverOk p.version = true)
    (dependencies_ok : ∀ d ∈ requires ++ optional ++ conflicts, d.schemaOk = true) :
    InstalledEntry where
  package := ⟨package, "1.0.0", "sha512-" ++ id⟩
  manifest := { id, kind := "module", version := "1.0.0", package, provides, requires, optional,
                conflicts, id_ok, version_ok := exampleVersion_ok, package_ok,
                provides_ok, dependencies_ok }

def salesEntry : InstalledEntry :=
  exampleEntry "module.sales" "@k-nex/sales" [] [.capability "crm.contacts" "1.0.0",
    .plugin "module.core" "1.0.0"] [.capability "mail.send" "1.0.0"] [] (by decide) (by decide)
    (by decide) (by decide)

def coreEntry : InstalledEntry :=
  exampleEntry "module.core" "@k-nex/core" [⟨"crm.contacts", "1.0.0"⟩] [] [] [] (by decide)
    (by decide) (by decide) (by decide)

def mailEntry : InstalledEntry :=
  exampleEntry "provider.mail" "@k-nex/mail" [⟨"mail.send", "1.0.0"⟩] [] []
    [.plugin "module.legacy" "1.0.0"] (by decide) (by decide) (by decide) (by decide)

def exampleOptions : ResolveOptions where
  plugins := [⟨"module.sales", "@k-nex/sales", "1.0.0", true, by decide, exampleVersion_ok⟩,
    ⟨"module.core", "@k-nex/core", "1.0.0", true, by decide, exampleVersion_ok⟩]
  providers := JsMap.empty.set "mail.send"
    ⟨"provider.mail", "@k-nex/mail", "1.0.0", by decide, exampleVersion_ok⟩
  installed := [salesEntry, mailEntry, coreEntry]

def exampleGraph : ResolvedGraph where
  resolverVersion
  plugins := [
    ⟨"module.core", "module", "@k-nex/core", "1.0.0", "sha512-module.core", [], []⟩,
    ⟨"module.sales", "module", "@k-nex/sales", "1.0.0", "sha512-module.sales", ["module.core"],
      ["provider.mail"]⟩,
    ⟨"provider.mail", "module", "@k-nex/mail", "1.0.0", "sha512-provider.mail", [], []⟩]
  capabilityProviders := [⟨"crm.contacts", "module.core", "1.0.0"⟩,
    ⟨"mail.send", "provider.mail", "1.0.0"⟩]
  registrationOrder := ["module.core", "module.sales", "provider.mail"]

theorem exampleGraph_resolved :
    resolvePlatformPluginGraph exactVersions exampleOptions = .ok exampleGraph := by
  decide

theorem resolve_sound_example : Sound exactVersions exampleOptions exampleGraph :=
  resolve_sound exactVersions exampleOptions exampleGraph exampleGraph_resolved

end KNex.Composition
