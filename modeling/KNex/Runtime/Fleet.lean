import KNex.Core.Except
import KNex.Core.JsMap
import KNex.Core.JsString
import KNex.Core.Json
import Mathlib.Data.List.Sort

/-!
# The fleet registry: recording a security patch

A `FleetRegistry` holds one deployment for each application and environment, and the platform
releases that evidence may name. `ingest` records the deployment of verified evidence when it is
newer than the one recorded. `applySecurityPatch` takes a plan that the registry has issued, once,
checks the evidence against it, declares the plan's release supported and ingests the evidence.

`Atomic`: a call that throws leaves the deployments and the supported releases as they were, and a
call that returns has recorded the deployment of the evidence and nothing else. The release is
added before `ingest` has checked the evidence against the recorded deployment, so a patch that is
not newer, or that rebinds a deployment's identity, is refused and its release stays supported
(`widened`). `applySecurityPatch_atomic_iff` says which calls are atomic.
-/
namespace KNex.Runtime.Fleet

open KNex.Core

/-! ## Data -/

structure RuntimePackage where
  package : String
  version : String
  integrity : String
  deriving DecidableEq

/-- The fields of an inventory that the registry reads; the digest covers all of it.
mirrors packages/contracts/src/deployment-evidence.ts:9-56 -/
structure RuntimeInventory where
  applicationId : String
  environment : String
  platformRelease : String
  packages : List RuntimePackage
  frameworkDigest : String
  resolvedGraphDigest : String
  ready : Bool
  migrationRevision : Nat
  others : Json
  deriving DecidableEq

/-- mirrors packages/contracts/src/deployment-evidence.ts:58-72 -/
structure DeploymentReceipt where
  deploymentId : String
  deployedAt : String
  others : Json
  deriving DecidableEq

/-- mirrors packages/runtime/src/fleet.ts:14-17 -/
structure FleetDeployment where
  receipt : DeploymentReceipt
  inventory : RuntimeInventory
  deriving DecidableEq

/-- A plan is known by its identity (`ref`); its fields are frozen.
mirrors packages/runtime/src/fleet.ts:19-36 -/
structure SecurityPatchPlan where
  ref : Nat
  applicationId : String
  environment : String
  targetRelease : String
  targetFrameworkDigest : String
  targetMigrationPlanDigest : String
  targetMigrationRevision : Nat
  targetDeploymentClosure : List RuntimePackage
  baseInventoryDigest : String
  deriving DecidableEq

inductive ErrorCode where
  | conflict | evidenceInvalid | patchInvalid
  deriving DecidableEq

/-- mirrors packages/runtime/src/fleet.ts:7-12 -/
structure FleetEvidenceError where
  code : ErrorCode
  message : String
  deriving DecidableEq

/-- `runtimeInventoryDigest`, `Date.parse` (`none` is NaN) and `localeCompare`. -/
structure Host where
  inventoryDigest : RuntimeInventory → String
  parseDate : String → Option Int
  localeLe : String → String → Bool

structure FleetRegistry where
  deployments : JsMap String FleetDeployment
  supportedReleases : List String
  patchPlans : List Nat
  deriving DecidableEq

/-! ## Operations -/

def deploymentKey (applicationId environment : String) : String :=
  joinNul [applicationId, environment]

def RuntimeInventory.key (inventory : RuntimeInventory) : String :=
  deploymentKey inventory.applicationId inventory.environment

def SecurityPatchPlan.key (plan : SecurityPatchPlan) : String :=
  deploymentKey plan.applicationId plan.environment

/-- `Date.parse(left) >= Date.parse(right)`. -/
def Host.atLeast (host : Host) (left right : String) : Bool :=
  match host.parseDate left, host.parseDate right with
  | some l, some r => decide (r ≤ l)
  | _, _ => false

/-- The deployment recorded for this application and environment stands in the way of the new
one, which has its identity or is not newer. -/
def rejects (host : Host) (existing deployment : FleetDeployment) :
    Except FleetEvidenceError Bool := do
  if existing.receipt.deploymentId = deployment.receipt.deploymentId then
    failIf (host.inventoryDigest existing.inventory ≠ host.inventoryDigest deployment.inventory)
      ⟨.conflict, "Deployment identity cannot be rebound to different inventory."⟩
    .ok true
  else
    failIf (host.atLeast existing.receipt.deployedAt deployment.receipt.deployedAt = true)
      ⟨.conflict, "Fleet evidence cannot regress or replace an equally new deployment."⟩
    .ok false

/-- `evidence` is what the authority reads for it, `none` when it did not issue it.
mirrors packages/runtime/src/fleet.ts:66-79 -/
def ingest (host : Host) (evidence : Option FleetDeployment) (s : FleetRegistry) :
    Except FleetEvidenceError FleetRegistry :=
  match evidence with
  | none => .error ⟨.evidenceInvalid,
      "Fleet ingestion requires evidence from its trusted deployment authority."⟩
  | some deployment =>
    if deployment.inventory.platformRelease ∉ s.supportedReleases then
      .error ⟨.evidenceInvalid,
        "Fleet ingestion rejects a platform release outside the declared support window."⟩
    else
      match s.deployments.get? deployment.inventory.key with
      | none => .ok { s with
          deployments := s.deployments.set deployment.inventory.key deployment }
      | some existing =>
        match rejects host existing deployment with
        | .error e => .error e
        | .ok true => .ok s
        | .ok false => .ok { s with
            deployments := s.deployments.set deployment.inventory.key deployment }

/-- The packages of an inventory in the order of `package@version`. -/
def closure (host : Host) (inventory : RuntimeInventory) : List RuntimePackage :=
  inventory.packages.insertionSort fun left right =>
    host.localeLe (left.package ++ "@" ++ left.version) (right.package ++ "@" ++ right.version)

/-- The evidence is of the transition that the plan asks for. -/
def Matches (host : Host) (plan : SecurityPatchPlan) (current target : FleetDeployment) : Prop :=
  target.inventory.applicationId = plan.applicationId ∧
    target.inventory.environment = plan.environment ∧
    target.inventory.platformRelease = plan.targetRelease ∧
    closure host target.inventory = plan.targetDeploymentClosure ∧
    target.inventory.frameworkDigest = plan.targetFrameworkDigest ∧
    target.inventory.resolvedGraphDigest = plan.targetMigrationPlanDigest ∧
    target.inventory.ready = true ∧
    target.inventory.migrationRevision = plan.targetMigrationRevision ∧
    current.inventory.migrationRevision < plan.targetMigrationRevision

instance (host : Host) (plan : SecurityPatchPlan) (current target : FleetDeployment) :
    Decidable (Matches host plan current target) :=
  inferInstanceAs (Decidable (_ ∧ _))

/-- The checks of `applySecurityPatch` before it changes the supported releases.
mirrors packages/runtime/src/fleet.ts:144-157 -/
def checkPatch (host : Host) (plan : SecurityPatchPlan) (evidence : Option FleetDeployment)
    (s : FleetRegistry) : Except FleetEvidenceError Unit :=
  match s.deployments.get? plan.key with
  | none => .error ⟨.conflict, "Security patch base inventory changed before application."⟩
  | some current =>
    if host.inventoryDigest current.inventory ≠ plan.baseInventoryDigest then
      .error ⟨.conflict, "Security patch base inventory changed before application."⟩
    else
      match evidence with
      | none => .error ⟨.evidenceInvalid,
          "Security patch result requires verified deployment evidence."⟩
      | some target =>
        failIf (¬ Matches host plan current target) ⟨.patchInvalid,
          "Security patch result does not match the complete verified target release transition."⟩

/-- What the call throws or returns, and the registry after it.
mirrors packages/runtime/src/fleet.ts:141-161 -/
def applySecurityPatch (host : Host) (plan : SecurityPatchPlan)
    (evidence : Option FleetDeployment) (s : FleetRegistry) :
    Except FleetEvidenceError (Option FleetDeployment) × FleetRegistry :=
  if plan.ref ∉ s.patchPlans then
    (.error ⟨.patchInvalid, "Security patch plan was not issued by this fleet authority."⟩, s)
  else
    let taken := { s with patchPlans := s.patchPlans.filter (· ≠ plan.ref) }
    match checkPatch host plan evidence taken with
    | .error e => (.error e, taken)
    | .ok () =>
      let widened := { taken with
        supportedReleases := JsMap.addSet taken.supportedReleases plan.targetRelease }
      match ingest host evidence widened with
      | .error e => (.error e, widened)
      | .ok patched => (.ok (patched.deployments.get? plan.key), patched)

/-! ## Atomicity -/

/-- Thrown: nothing recorded, nothing declared supported. Returned: exactly the deployment of the
evidence recorded. -/
def Atomic (host : Host) (plan : SecurityPatchPlan) (evidence : Option FleetDeployment)
    (s : FleetRegistry) : Prop :=
  match applySecurityPatch host plan evidence s with
  | (.error _, s') => s'.deployments = s.deployments ∧
      ∀ release, release ∈ s'.supportedReleases ↔ release ∈ s.supportedReleases
  | (.ok recorded, s') => ∃ target, evidence = some target ∧ recorded = some target ∧
      s'.deployments = s.deployments.set plan.key target

/-- The plan is the registry's, its base is recorded, and the evidence is of its transition. -/
structure Passes (host : Host) (plan : SecurityPatchPlan) (s : FleetRegistry)
    (current target : FleetDeployment) : Prop where
  issued : plan.ref ∈ s.patchPlans
  recorded : s.deployments.get? plan.key = some current
  base : host.inventoryDigest current.inventory = plan.baseInventoryDigest
  isMatch : Matches host plan current target

/-- The evidence has the recorded deployment's identity. -/
def SameIdentity (current target : FleetDeployment) : Prop :=
  current.receipt.deploymentId = target.receipt.deploymentId

/-- The recorded deployment is at least as new as the evidence. -/
def NotNewer (host : Host) (current target : FleetDeployment) : Prop :=
  host.atLeast current.receipt.deployedAt target.receipt.deployedAt = true

section

variable {host : Host} {plan : SecurityPatchPlan} {evidence : Option FleetDeployment}
  {s : FleetRegistry} {current target : FleetDeployment}

theorem Matches.key (h : Matches host plan current target) : target.inventory.key = plan.key := by
  unfold RuntimeInventory.key SecurityPatchPlan.key
  rw [h.1, h.2.1]

theorem checkPatch_ok (h : checkPatch host plan evidence s = .ok ()) :
    ∃ current target, evidence = some target ∧ s.deployments.get? plan.key = some current ∧
      host.inventoryDigest current.inventory = plan.baseInventoryDigest ∧
      Matches host plan current target := by
  unfold checkPatch at h
  split at h
  · cases h
  · rename_i current hcurrent
    split at h
    · cases h
    · rename_i hbase
      split at h
      · cases h
      · rename_i target
        exact ⟨current, target, rfl, hcurrent, not_not.mp hbase, not_not.mp (failIf_eq_ok.mp h)⟩

theorem Passes.checkPatch (h : Passes host plan s current target) :
    Fleet.checkPatch host plan (some target)
      { s with patchPlans := s.patchPlans.filter (· ≠ plan.ref) } = .ok () := by
  unfold Fleet.checkPatch
  rw [h.recorded]
  dsimp only
  rw [if_neg (not_not.mpr h.base)]
  exact failIf_eq_ok.mpr (not_not.mpr h.isMatch)

/-- A call whose checks do not pass throws and changes no more than the issued plans. -/
theorem atomic_of_not_passes
    (h : ∀ current target, evidence = some target → ¬ Passes host plan s current target) :
    Atomic host plan evidence s := by
  unfold Atomic applySecurityPatch
  by_cases hissued : plan.ref ∈ s.patchPlans
  · rw [if_neg (not_not.mpr hissued)]
    dsimp only
    cases hcheck : checkPatch host plan evidence
        { s with patchPlans := s.patchPlans.filter (· ≠ plan.ref) } with
    | error e => exact ⟨rfl, fun _ => Iff.rfl⟩
    | ok u =>
      obtain ⟨current, target, hev, hcurrent, hbase, hmatch⟩ := checkPatch_ok hcheck
      exact absurd ⟨hissued, hcurrent, hbase, hmatch⟩ (h current target hev)
  · rw [if_pos hissued]
    exact ⟨rfl, fun _ => Iff.rfl⟩

/-- What a call whose checks pass does, by what `ingest` makes of the recorded deployment. -/
theorem applySecurityPatch_passes (h : Passes host plan s current target) :
    applySecurityPatch host plan (some target) s =
      let widened : FleetRegistry :=
        { deployments := s.deployments
          supportedReleases := JsMap.addSet s.supportedReleases plan.targetRelease
          patchPlans := s.patchPlans.filter (· ≠ plan.ref) }
      match rejects host current target with
      | .error e => (.error e, widened)
      | .ok true => (.ok (some current), widened)
      | .ok false => (.ok (some target),
          { widened with deployments := s.deployments.set plan.key target }) := by
  unfold applySecurityPatch
  rw [if_neg (not_not.mpr h.issued)]
  dsimp only
  rw [h.checkPatch]
  dsimp only
  have hsupported : target.inventory.platformRelease ∈
      JsMap.addSet s.supportedReleases plan.targetRelease :=
    JsMap.mem_addSet.mpr (.inr h.isMatch.2.2.1)
  unfold ingest
  dsimp only
  rw [if_neg (not_not.mpr hsupported), h.isMatch.key, h.recorded]
  dsimp only
  cases rejects host current target with
  | error e => rfl
  | ok b =>
    cases b with
    | true => simp only [h.recorded]
    | false => simp only [JsMap.get?_set, if_true]

/-- **The calls that are atomic.** Unless its checks pass and the recorded deployment then has the
identity of the evidence, or is at least as new, and the plan's release had not been supported. A
recorded deployment of the same identity and the same digest is returned in the place of the
evidence. -/
theorem applySecurityPatch_atomic_iff (host : Host) (plan : SecurityPatchPlan)
    (evidence : Option FleetDeployment) (s : FleetRegistry) :
    Atomic host plan evidence s ↔
      ∀ current target, evidence = some target → Passes host plan s current target →
        (SameIdentity current target →
          host.inventoryDigest current.inventory ≠ host.inventoryDigest target.inventory) ∧
        (SameIdentity current target ∨ NotNewer host current target →
          plan.targetRelease ∈ s.supportedReleases) := by
  constructor
  · intro hatomic current target hev hpass
    subst hev
    unfold Atomic at hatomic
    rw [applySecurityPatch_passes hpass] at hatomic
    dsimp only at hatomic
    have hadded : plan.targetRelease ∈ JsMap.addSet s.supportedReleases plan.targetRelease :=
      JsMap.mem_addSet.mpr (.inr rfl)
    unfold rejects at hatomic
    by_cases hid : current.receipt.deploymentId = target.receipt.deploymentId
    · rw [if_pos hid] at hatomic
      by_cases hdigest : host.inventoryDigest current.inventory ≠
          host.inventoryDigest target.inventory
      · rw [show failIf _ _ = .error _ from if_pos hdigest] at hatomic
        exact ⟨fun _ => hdigest, fun _ => (hatomic.2 _).mp hadded⟩
      · rw [show failIf _ _ = .ok () from if_neg hdigest] at hatomic
        obtain ⟨target', htarget, hrecorded, -⟩ := hatomic
        -- the recorded deployment would be the evidence, whose revision is higher
        obtain rfl := Option.some.inj htarget
        obtain rfl := Option.some.inj hrecorded
        have hrevision := hpass.isMatch.2.2.2.2.2.2.2
        omega
    · rw [if_neg hid] at hatomic
      refine ⟨fun h => absurd h hid, fun h => ?_⟩
      have hold : host.atLeast current.receipt.deployedAt target.receipt.deployedAt = true :=
        h.resolve_left hid
      rw [show failIf _ _ = .error _ from if_pos hold] at hatomic
      exact (hatomic.2 _).mp hadded
  · intro hcond
    by_cases hpasses : ∃ current target, evidence = some target ∧
        Passes host plan s current target
    · obtain ⟨current, target, hev, hpass⟩ := hpasses
      obtain ⟨hrebind, hsupported⟩ := hcond current target hev hpass
      subst hev
      unfold Atomic
      rw [applySecurityPatch_passes hpass]
      dsimp only
      have hkept (h : plan.targetRelease ∈ s.supportedReleases) (release : String) :
          release ∈ JsMap.addSet s.supportedReleases plan.targetRelease ↔
            release ∈ s.supportedReleases := by
        rw [JsMap.mem_addSet]
        exact ⟨fun hr => hr.elim id fun hr => hr ▸ h, .inl⟩
      unfold rejects
      by_cases hid : current.receipt.deploymentId = target.receipt.deploymentId
      · rw [if_pos hid, show failIf _ _ = .error _ from if_pos (hrebind hid)]
        exact ⟨rfl, hkept (hsupported (.inl hid))⟩
      · rw [if_neg hid]
        by_cases hold : host.atLeast current.receipt.deployedAt target.receipt.deployedAt = true
        · rw [show failIf _ _ = .error _ from if_pos hold]
          exact ⟨rfl, hkept (hsupported (.inr hold))⟩
        · rw [show failIf _ _ = .ok () from if_neg hold]
          exact ⟨target, rfl, rfl, rfl⟩
    · refine atomic_of_not_passes fun current target hev hpass => hpasses ?_
      exact ⟨current, target, hev, hpass⟩

end

/-! ## A refused patch -/

/-- Texts are their own digests and dates. -/
def plainHost : Host where
  inventoryDigest inventory := inventory.platformRelease
  parseDate text := if text = "2026-01-01T00:00:00Z" then some 0 else some 1
  localeLe left right := decide (left ≤ right)

def deploymentOf (release id deployedAt : String) (migrationRevision : Nat) : FleetDeployment :=
  ⟨⟨id, deployedAt, .null⟩,
    ⟨"customer-alpha", "production", release, [⟨"core", release, "sha512-core"⟩], "sha256:framework",
      "sha256:graph", true, migrationRevision, .null⟩⟩

def installed : FleetDeployment := deploymentOf "1.0.0" "deployment-1" "2026-01-02T00:00:00Z" 1

/-- Evidence of the patched release that is older than what is recorded. -/
def olderPatch : FleetDeployment := deploymentOf "1.0.1" "deployment-2" "2026-01-01T00:00:00Z" 2

def patchPlan : SecurityPatchPlan :=
  ⟨0, "customer-alpha", "production", "1.0.1", "sha256:framework", "sha256:graph", 2,
    [⟨"core", "1.0.1", "sha512-core"⟩], "1.0.0"⟩

def customerFleet : FleetRegistry :=
  ⟨JsMap.empty.set installed.inventory.key installed, ["1.0.0"], [0]⟩

/-- The patch is refused and its release is supported from then on. -/
theorem widened : ¬ Atomic plainHost patchPlan (some olderPatch) customerFleet := by
  have hrun : applySecurityPatch plainHost patchPlan (some olderPatch) customerFleet =
      (.error ⟨.conflict, "Fleet evidence cannot regress or replace an equally new deployment."⟩,
        ⟨customerFleet.deployments, ["1.0.0", "1.0.1"], []⟩) := by
    decide
  unfold Atomic
  rw [hrun]
  intro h
  exact absurd ((h.2 "1.0.1").mp (by decide)) (by decide)

end KNex.Runtime.Fleet
