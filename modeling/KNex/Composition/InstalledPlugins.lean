import KNex.Contracts.Identity
import KNex.Core.Except
import KNex.Core.JsMap

/-!
# Installed plugins and requests

The first part of `packages/composition/src/deterministic-resolver.ts`: plugin manifests as the
manifest schema accepts them, the index of the installed plugins by id and by package, and the
requests of an application, each matched against that index. The version arithmetic of the
`semver` package is a parameter (`Semver`).

`Indexed` says what the index of a list of installed plugins holds, and `WellFormed` when there is
one (`buildInstalledIndexes_ok`).
-/
namespace KNex.Composition

open KNex.Core KNex.Contracts

/-! ## Errors -/

/-- mirrors packages/composition/src/deterministic-resolver.ts:12-25 -/
inductive ErrorCode where
  | requestDuplicate | requestNotInstalled | requestIdentityMismatch | prereleaseNotExplicit
  | dependencyMissing | dependencyVersionUnsatisfied | capabilityMissing
  | capabilityVersionUnsatisfied | capabilityAmbiguous | providerSelectionInvalid | conflict
  | requiredCycle | manifestRangeInvalid
  deriving DecidableEq, Repr

/-- mirrors packages/composition/src/deterministic-resolver.ts:27-37 -/
structure PlatformPluginGraphResolutionError where
  code : ErrorCode
  message : String
  path : List String
  deriving DecidableEq, Repr

abbrev Result (α : Type) := Except PlatformPluginGraphResolutionError α

/-- mirrors packages/composition/src/deterministic-resolver.ts:107-109 -/
def fail {α : Type} (code : ErrorCode) (message : String) (path : List String) : Result α :=
  .error ⟨code, message, path⟩

/-! ## Versions -/

/-- The functions of the `semver` package, with `loose` and `includePrerelease` off:
`satisfies`, and whether `validRange` and `prerelease` return a value. -/
structure Semver where
  satisfies : String → String → Bool
  validRange : String → Bool
  prerelease : String → Bool

/-- What `trim` removes: the white space and line terminators of ECMAScript. -/
def isWhiteSpace (c : Char) : Bool :=
  (0x9 ≤ c.toNat && c.toNat ≤ 0xD) || (0x2000 ≤ c.toNat && c.toNat ≤ 0x200A) ||
    [0x20, 0xA0, 0x1680, 0x2028, 0x2029, 0x202F, 0x205F, 0x3000, 0xFEFF].contains c.toNat

/-- mirrors packages/composition/src/deterministic-resolver.ts:129-131 -/
def isValidRange (sv : Semver) (value : String) : Bool :=
  value.toList.any (fun c => !isWhiteSpace c) && sv.validRange value

/-! ## Manifests -/

/-- mirrors packages/contracts/src/plugin-manifest.ts:15-18 -/
structure CapabilityProvision where
  capability : String
  version : String
  deriving DecidableEq, Repr

/-- A dependency on a plugin or on a capability, with a range of versions.
mirrors packages/contracts/src/plugin-manifest.ts:22-33 -/
inductive Dependency where
  | plugin (plugin version : String)
  | capability (capability version : String)
  deriving DecidableEq, Repr

def Dependency.target : Dependency → String
  | .plugin id _ => id
  | .capability id _ => id

def Dependency.version : Dependency → String
  | .plugin _ range => range
  | .capability _ range => range

def Dependency.schemaOk : Dependency → Bool
  | .plugin id range => pluginIdOk id && range != ""
  | .capability id range => capabilityIdOk id && range != ""

/-- The fields of a parsed manifest that the resolver reads.
mirrors packages/contracts/src/plugin-manifest.ts:61-78 -/
structure PluginManifest where
  id : String
  kind : String
  version : String
  package : String
  provides : List CapabilityProvision
  requires : List Dependency
  optional : List Dependency
  conflicts : List Dependency
  id_ok : pluginIdOk id = true
  version_ok : exactSemverOk version = true
  package_ok : packageNameOk package = true
  provides_ok : ∀ p ∈ provides, capabilityIdOk p.capability = true ∧ exactSemverOk p.version = true
  dependencies_ok : ∀ d ∈ requires ++ optional ++ conflicts, d.schemaOk = true
  deriving DecidableEq

/-- mirrors packages/composition/src/installed-plugin-loader.ts:29-33 -/
structure PackageIdentity where
  name : String
  version : String
  integrity : String
  deriving DecidableEq, Repr

/-- An installed manifest. The resolver wraps it in an `InstalledEntry`, whose other fields are
projections of it.
mirrors packages/composition/src/installed-plugin-loader.ts:35-38 -/
structure InstalledEntry where
  package : PackageIdentity
  manifest : PluginManifest
  deriving DecidableEq

namespace InstalledEntry

def id (e : InstalledEntry) : String := e.manifest.id

def packageName (e : InstalledEntry) : String := e.package.name

def version (e : InstalledEntry) : String := e.package.version

theorem id_nulFree (e : InstalledEntry) : NulFree e.id := pluginIdOk_nulFree e.manifest.id_ok

theorem id_ne_empty (e : InstalledEntry) : e.id ≠ "" := by
  intro h
  have hid : pluginIdOk e.id = true := e.manifest.id_ok
  rw [h] at hid
  exact absurd hid (by decide)

end InstalledEntry

/-- mirrors packages/composition/src/deterministic-resolver.ts:115-119 -/
def dependencyKey : Dependency → String
  | .plugin id range => joinNul ["plugin", id, range]
  | .capability id range => joinNul ["capability", id, range]

/-- mirrors packages/composition/src/deterministic-resolver.ts:125-127 -/
def sortedDependencies (dependencies : List Dependency) : List Dependency :=
  sortBy dependencyKey dependencies

/-- mirrors packages/composition/src/deterministic-resolver.ts:141-146 -/
def providedVersions (entry : InstalledEntry) (capability : String) : List String :=
  sortStrings ((entry.manifest.provides.filter fun provision =>
    provision.capability = capability).map CapabilityProvision.version).eraseDups

/-- `e` provides the capability at the version. -/
def InstalledEntry.Provides (e : InstalledEntry) (capability version : String) : Prop :=
  ⟨capability, version⟩ ∈ e.manifest.provides

theorem mem_providedVersions {e : InstalledEntry} {capability version : String} :
    version ∈ providedVersions e capability ↔ e.Provides capability version := by
  simp only [providedVersions, mem_sortStrings, List.mem_eraseDups, List.mem_map, List.mem_filter,
    decide_eq_true_eq, InstalledEntry.Provides]
  constructor
  · rintro ⟨p, ⟨hp, rfl⟩, rfl⟩
    exact hp
  · intro h
    exact ⟨_, ⟨h, rfl⟩, rfl⟩

theorem InstalledEntry.Provides.version_ne_empty {e : InstalledEntry} {capability version : String}
    (h : e.Provides capability version) : version ≠ "" := by
  intro he
  have hok : exactSemverOk version = true := (e.manifest.provides_ok _ h).2
  rw [he] at hok
  exact absurd hok (by decide)

/-! ## The index of the installed plugins -/

structure Indexes where
  entries : List InstalledEntry
  byId : JsMap String InstalledEntry
  byPackage : JsMap String InstalledEntry

/-- mirrors packages/composition/src/deterministic-resolver.ts:100-105 -/
def installedKey (e : InstalledEntry) : String :=
  joinNul [e.id, e.packageName, e.version, e.package.integrity]

/-- One round over the sorted entries.
mirrors packages/composition/src/deterministic-resolver.ts:179-204 -/
def indexEntry (ix : Indexes) (entry : InstalledEntry) : Result Indexes :=
  if entry.manifest.package ≠ entry.packageName ∨ entry.manifest.version ≠ entry.version then
    fail .requestIdentityMismatch
      ("Installed plugin " ++ entry.id ++ " has inconsistent package identity.") [entry.id]
  else if (ix.byId.get? entry.id).isSome then
    fail .requestDuplicate
      ("Installed plugin ID " ++ entry.id ++ " is declared more than once.") [entry.id]
  else if (ix.byPackage.get? entry.packageName).isSome then
    fail .requestDuplicate
      ("Installed package " ++ entry.packageName ++ " is declared more than once.")
      [entry.packageName]
  else .ok { ix with
    byId := ix.byId.set entry.id entry
    byPackage := ix.byPackage.set entry.packageName entry }

/-- mirrors packages/composition/src/deterministic-resolver.ts:164-208 -/
def buildInstalledIndexes (installed : List InstalledEntry) : Result Indexes :=
  let sorted := sortBy installedKey installed
  sorted.foldlM indexEntry ⟨sorted, .empty, .empty⟩

/-- The two places of an installed package that name its identity agree. -/
def InstalledEntry.Consistent (e : InstalledEntry) : Prop :=
  e.manifest.package = e.packageName ∧ e.manifest.version = e.version

instance (e : InstalledEntry) : Decidable e.Consistent := inferInstanceAs (Decidable (_ ∧ _))

/-- What can be indexed: consistent identities, each id and each package once. -/
structure WellFormed (l : List InstalledEntry) : Prop where
  consistent : ∀ e ∈ l, e.Consistent
  ids : (l.map InstalledEntry.id).Nodup
  packages : (l.map InstalledEntry.packageName).Nodup

/-- The maps that the entries of `l` leave, one after the other. -/
structure Indexed (l : List InstalledEntry) (ix : Indexes) : Prop where
  byId : ix.byId.entries = l.map fun e => (e.id, e)
  byPackage : ix.byPackage.entries = l.map fun e => (e.packageName, e)

section Indexed

variable {l : List InstalledEntry} {ix : Indexes}

theorem Indexed.get?_byId (h : Indexed l ix) {id : String} {e : InstalledEntry} :
    ix.byId.get? id = some e ↔ e ∈ l ∧ e.id = id := by
  rw [JsMap.get?_eq_some, h.byId, List.mem_map]
  constructor
  · rintro ⟨e', he', heq⟩
    cases heq
    exact ⟨he', rfl⟩
  · rintro ⟨he, rfl⟩
    exact ⟨e, he, rfl⟩

theorem Indexed.get?_byPackage (h : Indexed l ix) {name : String} {e : InstalledEntry} :
    ix.byPackage.get? name = some e ↔ e ∈ l ∧ e.packageName = name := by
  rw [JsMap.get?_eq_some, h.byPackage, List.mem_map]
  constructor
  · rintro ⟨e', he', heq⟩
    cases heq
    exact ⟨he', rfl⟩
  · rintro ⟨he, rfl⟩
    exact ⟨e, he, rfl⟩

theorem Indexed.isSome_byId (h : Indexed l ix) {id : String} :
    (ix.byId.get? id).isSome ↔ id ∈ l.map InstalledEntry.id := by
  rw [Option.isSome_iff_exists, List.mem_map]
  exact exists_congr fun e => h.get?_byId

theorem Indexed.isSome_byPackage (h : Indexed l ix) {name : String} :
    (ix.byPackage.get? name).isSome ↔ name ∈ l.map InstalledEntry.packageName := by
  rw [Option.isSome_iff_exists, List.mem_map]
  exact exists_congr fun e => h.get?_byPackage

/-- The error with which an entry is refused behind the entries of `l`. -/
def blame (l : List InstalledEntry) (e : InstalledEntry) :
    Option PlatformPluginGraphResolutionError :=
  if ¬ e.Consistent then some ⟨.requestIdentityMismatch,
    "Installed plugin " ++ e.id ++ " has inconsistent package identity.", [e.id]⟩
  else if e.id ∈ l.map InstalledEntry.id then some ⟨.requestDuplicate,
    "Installed plugin ID " ++ e.id ++ " is declared more than once.", [e.id]⟩
  else if e.packageName ∈ l.map InstalledEntry.packageName then some ⟨.requestDuplicate,
    "Installed package " ++ e.packageName ++ " is declared more than once.", [e.packageName]⟩
  else none

theorem WellFormed.nil : WellFormed [] := ⟨by simp, by simp, by simp⟩

theorem wellFormed_snoc {e : InstalledEntry} :
    WellFormed (l ++ [e]) ↔ WellFormed l ∧ blame l e = none := by
  have hblame : blame l e = none ↔ e.Consistent ∧ e.id ∉ l.map InstalledEntry.id ∧
      e.packageName ∉ l.map InstalledEntry.packageName := by
    unfold blame
    split
    · rename_i h; simp [h]
    · rename_i h
      split
      · rename_i h'; simp [h']
      · rename_i h'
        split
        · rename_i h''; simp [h'']
        · rename_i h''
          exact ⟨fun _ => ⟨not_not.mp h, h', h''⟩, fun _ => rfl⟩
  rw [hblame]
  constructor
  · intro h
    have hids := h.ids
    have hpackages := h.packages
    rw [List.map_append, List.nodup_append'] at hids hpackages
    exact ⟨⟨fun x hx => h.consistent x (List.mem_append_left _ hx), hids.1, hpackages.1⟩,
      h.consistent e (by simp), fun hin => hids.2.2 hin (by simp),
      fun hin => hpackages.2.2 hin (by simp)⟩
  · intro ⟨h, hc, hid, hp⟩
    refine ⟨fun x hx => ?_, ?_, ?_⟩
    · rcases List.mem_append.mp hx with hx | hx
      · exact h.consistent x hx
      · rwa [List.mem_singleton.mp hx]
    · rw [List.map_append, List.nodup_append']
      exact ⟨h.ids, List.nodup_singleton _, List.disjoint_singleton.mpr hid⟩
    · rw [List.map_append, List.nodup_append']
      exact ⟨h.packages, List.nodup_singleton _, List.disjoint_singleton.mpr hp⟩

/-- A round either refuses the entry or indexes it. -/
theorem indexEntry_spec (h : Indexed l ix) (e : InstalledEntry) :
    (∃ err, blame l e = some err ∧ indexEntry ix e = .error err) ∨
      (blame l e = none ∧ ∃ ix', indexEntry ix e = .ok ix' ∧ Indexed (l ++ [e]) ix' ∧
        ix'.entries = ix.entries) := by
  unfold indexEntry blame
  by_cases hc : e.Consistent
  · have hc' : ¬ (e.manifest.package ≠ e.packageName ∨ e.manifest.version ≠ e.version) := by
      rw [not_or, not_not, not_not]; exact hc
    rw [if_neg hc', if_neg (not_not.mpr hc)]
    by_cases hid : e.id ∈ l.map InstalledEntry.id
    · rw [if_pos (h.isSome_byId.mpr hid), if_pos hid]
      exact .inl ⟨_, rfl, rfl⟩
    · rw [if_neg (fun hs => hid (h.isSome_byId.mp hs)), if_neg hid]
      by_cases hp : e.packageName ∈ l.map InstalledEntry.packageName
      · rw [if_pos (h.isSome_byPackage.mpr hp), if_pos hp]
        exact .inl ⟨_, rfl, rfl⟩
      · rw [if_neg (fun hs => hp (h.isSome_byPackage.mp hs)), if_neg hp]
        have hid' : ix.byId.get? e.id = none := by
          rw [← Option.not_isSome_iff_eq_none]
          exact fun hs => hid (h.isSome_byId.mp hs)
        have hp' : ix.byPackage.get? e.packageName = none := by
          rw [← Option.not_isSome_iff_eq_none]
          exact fun hs => hp (h.isSome_byPackage.mp hs)
        refine .inr ⟨rfl, _, rfl, ⟨?_, ?_⟩, rfl⟩
        · rw [JsMap.entries_set_of_none hid', h.byId, List.map_append]; rfl
        · rw [JsMap.entries_set_of_none hp', h.byPackage, List.map_append]; rfl
  · have hc' : e.manifest.package ≠ e.packageName ∨ e.manifest.version ≠ e.version := by
      by_contra hn
      rw [not_or, not_not, not_not] at hn
      exact hc hn
    rw [if_pos hc', if_pos hc]
    exact .inl ⟨_, rfl, rfl⟩

end Indexed

/-- The index of a list that can be indexed. -/
theorem buildInstalledIndexes_ok {installed : List InstalledEntry} {ix : Indexes}
    (h : buildInstalledIndexes installed = .ok ix) :
    ix.entries = sortBy installedKey installed ∧ Indexed ix.entries ix ∧ WellFormed ix.entries := by
  have hrun := foldlM_eq_ok (P := fun gone (ix : Indexes) => ix.entries = sortBy installedKey
      installed ∧ Indexed gone ix ∧ WellFormed gone) h ⟨rfl, ⟨rfl, rfl⟩, .nil⟩ (by
    intro gone e rest ix ix' _ ⟨hentries, hix, hwf⟩ hstep
    rcases indexEntry_spec hix e with ⟨err, -, herr⟩ | ⟨hnone, ix₁, hok, hix', hentries'⟩
    · rw [herr] at hstep; cases hstep
    · rw [hok] at hstep; cases hstep
      exact ⟨hentries'.trans hentries, hix', wellFormed_snoc.mpr ⟨hwf, hnone⟩⟩)
  rw [hrun.1]
  exact ⟨rfl, hrun.2⟩

/-! ## Requests -/

/-- mirrors packages/contracts/src/application-manifest.ts:8-14 -/
structure PlatformPluginRequest where
  id : String
  package : String
  version : String
  enabled : Bool
  id_ok : pluginIdOk id = true
  version_ok : exactSemverOk version = true

/-- mirrors packages/contracts/src/application-manifest.ts:16-21 -/
structure PlatformProviderRequest where
  plugin : String
  package : String
  version : String
  plugin_ok : pluginIdOk plugin = true
  version_ok : exactSemverOk version = true

/-- mirrors packages/composition/src/deterministic-resolver.ts:75-79 -/
structure IdentityRequest where
  id : String
  packageName : String
  version : String
  deriving DecidableEq, Repr

/-- mirrors packages/composition/src/deterministic-resolver.ts:152-154 -/
def identityFromPluginRequest (request : PlatformPluginRequest) : IdentityRequest :=
  ⟨request.id, request.package, request.version⟩

/-- mirrors packages/composition/src/deterministic-resolver.ts:156-158 -/
def identityFromProviderRequest (request : PlatformProviderRequest) : IdentityRequest :=
  ⟨request.plugin, request.package, request.version⟩

/-- mirrors packages/composition/src/deterministic-resolver.ts:160-162 -/
def requestLabel (source id : String) (capability : Option String) : String :=
  match capability.filter (· ≠ "") with
  | some capability => source ++ " " ++ id ++ " for capability " ++ capability
  | none => source ++ " " ++ id

/-- mirrors packages/composition/src/deterministic-resolver.ts:210-231 -/
def reconcileIdentity (identity : IdentityRequest) (byId byPackage : JsMap String InstalledEntry)
    (label : String) : Result InstalledEntry :=
  match byId.get? identity.id, byPackage.get? identity.packageName with
  | none, none =>
    fail .requestNotInstalled (label ++ " is not present in the installed plugin manifests.")
      [identity.id]
  | some byRequestedId, some byRequestedPackage =>
    -- an index holds one object for each id, so equal entries are the same one
    if byRequestedId ≠ byRequestedPackage ∨ byRequestedId.packageName ≠ identity.packageName ∨
        byRequestedId.version ≠ identity.version then
      fail .requestIdentityMismatch (label ++ " does not match an installed plugin identity.")
        [identity.id]
    else .ok byRequestedId
  | _, _ =>
    fail .requestIdentityMismatch (label ++ " does not match an installed plugin identity.")
      [identity.id]

def requestKey (request : PlatformPluginRequest) : String :=
  joinNul [request.id, request.package, request.version]

/-- The ids and packages requested so far.
mirrors packages/composition/src/deterministic-resolver.ts:239-248 -/
def checkDuplicate (seen : List String × List String) (request : PlatformPluginRequest) :
    Result (List String × List String) :=
  if request.id ∈ seen.1 then
    fail .requestDuplicate ("Plugin request ID " ++ request.id ++ " is declared more than once.")
      [request.id]
  else if request.package ∈ seen.2 then
    fail .requestDuplicate
      ("Plugin package " ++ request.package ++ " is requested more than once.") [request.package]
  else .ok (JsMap.addSet seen.1 request.id, JsMap.addSet seen.2 request.package)

/-- mirrors packages/composition/src/deterministic-resolver.ts:233-249 -/
def validatePluginRequestDuplicates (plugins : List PlatformPluginRequest) : Result Unit := do
  let _ ← (sortBy requestKey plugins).foldlM checkDuplicate ([], [])
  return ()

end KNex.Composition
