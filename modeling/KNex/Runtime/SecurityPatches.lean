import KNex.Core.LTS
import KNex.Runtime.Fleet

/-!
# The fleet registry: planning a security patch

`affected` reports a deployment when any entry of its inventory is of the package at a version in the
vulnerable range. `planSecurityPatch` looks at the first entry of the package only: a deployment whose
first entry is already the target is left out, whatever its other entries are. `applySecurityPatch`
compares the result with the packages of the application bundle, which nothing compares with the
range. `sound_run_iff` says in which runs every planning call is complete and no applied patch leaves
the deployment affected.
-/
namespace KNex.Runtime.Fleet

open KNex.Core

/-! ## Data -/

/-- The functions of the package `semver`, strict. -/
structure Semver where
  validRange : String → Bool
  valid : String → Bool
  satisfies : String → String → Bool
  gt : String → String → Bool

/-- A manifest as its authority reads it, with its digest.
mirrors packages/contracts/src/package-release-manifest.ts:25-57 -/
structure PackageRelease where
  version : String
  packages : List RuntimePackage
  digest : String
  deriving DecidableEq

/-- mirrors packages/runtime/src/deployment-evidence.ts:102-115 -/
structure ApplicationBundle where
  applicationId : String
  release : String
  releaseManifestDigest : String
  frameworkDigest : String
  migrationPlanDigest : String
  targetMigrationRevision : Nat
  installedPackages : List RuntimePackage
  deriving DecidableEq

/-- The arguments of a planning call, read by the authorities; `none` was not issued by them. -/
structure PatchRequest where
  packageName : String
  vulnerableRange : String
  targetVersion : String
  targetRelease : Option PackageRelease
  targetApplications : List (Option ApplicationBundle)
  deriving DecidableEq

/-- A plan with the fields that `applySecurityPatch` does not read.
mirrors packages/runtime/src/fleet.ts:19-36 -/
structure PatchPlan extends SecurityPatchPlan where
  package : String
  currentVersion : String
  targetVersion : String
  targetIntegrity : String
  targetReleaseManifestDigest : String
  targetClosure : List RuntimePackage
  deriving DecidableEq

inductive PatchError where
  | evidence (error : FleetEvidenceError)
  /-- `Application bundle was not issued by this hosted-attestation authority.` -/
  | application
  deriving DecidableEq

/-! ## Planning -/

/-- mirrors packages/runtime/src/fleet.ts:38-40, 81-83 -/
def FleetRegistry.list (host : Host) (s : FleetRegistry) : List FleetDeployment :=
  (s.deployments.entries.map Prod.snd).insertionSort fun left right =>
    host.localeLe left.inventory.key right.inventory.key

/-- Some entry is of the package, at a version in the range. -/
def Vulnerable (semver : Semver) (packageName vulnerableRange : String)
    (packages : List RuntimePackage) : Prop :=
  ∃ entry ∈ packages, entry.package = packageName ∧
    semver.satisfies entry.version vulnerableRange = true

instance (semver : Semver) (packageName vulnerableRange : String) (packages : List RuntimePackage) :
    Decidable (Vulnerable semver packageName vulnerableRange packages) :=
  inferInstanceAs (Decidable (∃ entry ∈ packages, _))

def invalidRange : FleetEvidenceError := ⟨.patchInvalid, "Vulnerable package range is invalid."⟩

/-- mirrors packages/runtime/src/fleet.ts:85-90 -/
def affected (host : Host) (semver : Semver) (packageName vulnerableRange : String)
    (s : FleetRegistry) : Except FleetEvidenceError (List FleetDeployment) := do
  failIf (semver.validRange vulnerableRange = false) invalidRange
  return (s.list host).filter fun deployment =>
    Vulnerable semver packageName vulnerableRange deployment.inventory.packages

/-- The first entry of the package. -/
def entryOf (packageName : String) (packages : List RuntimePackage) : Option RuntimePackage :=
  packages.find? fun entry => entry.package = packageName

/-- The first entry of the package is the target.
mirrors packages/runtime/src/fleet.ts:105-108 -/
def AtTarget (packageName targetVersion : String) (target : RuntimePackage)
    (deployment : FleetDeployment) : Prop :=
  ∃ current, entryOf packageName deployment.inventory.packages = some current ∧
    current.version = targetVersion ∧ current.integrity = target.integrity

instance (packageName targetVersion : String) (target : RuntimePackage)
    (deployment : FleetDeployment) :
    Decidable (AtTarget packageName targetVersion target deployment) :=
  decidable_of_iff ((entryOf packageName deployment.inventory.packages).any fun current =>
    current.version = targetVersion ∧ current.integrity = target.integrity) (by
      rw [Option.any_eq_true]
      simp [AtTarget])

/-- The target of a release whose arguments pass.
mirrors packages/runtime/src/fleet.ts:93-104 -/
def patchTarget (semver : Semver) (request : PatchRequest) :
    Except PatchError (PackageRelease × JsMap String ApplicationBundle × RuntimePackage) :=
  match request.targetRelease with
  | none => .error (.evidence ⟨.evidenceInvalid,
      "Security patch target requires a verified package release manifest."⟩)
  | some targetRelease =>
    match request.targetApplications.mapM id with
    | none => .error .application
    | some bundles =>
      let applications := JsMap.ofList ApplicationBundle.applicationId bundles
      if semver.validRange request.vulnerableRange = false then .error (.evidence invalidRange)
      else if semver.valid request.targetVersion = false then .error (.evidence ⟨.patchInvalid,
        "Security patch target must be an exact semantic version."⟩)
      else
        match entryOf request.packageName targetRelease.packages with
        | none => .error (.evidence ⟨.patchInvalid,
            "Security patch target is absent from the trusted release manifest."⟩)
        | some target =>
          if target.version ≠ request.targetVersion then .error (.evidence ⟨.patchInvalid,
            "Security patch target is absent from the trusted release manifest."⟩)
          else if semver.satisfies request.targetVersion request.vulnerableRange then
            .error (.evidence ⟨.patchInvalid,
              "Security patch target remains within the vulnerable range."⟩)
          else .ok (targetRelease, applications, target)

/-- The bundle of an application, of the release.
mirrors packages/runtime/src/fleet.ts:109-112 -/
def bundleFor (targetRelease : PackageRelease) (applications : JsMap String ApplicationBundle)
    (applicationId : String) : Option ApplicationBundle :=
  (applications.get? applicationId).filter fun application =>
    application.release = targetRelease.version &&
      application.releaseManifestDigest = targetRelease.digest

/-- The installed packages in the order of `package@version`. -/
def sortedClosure (host : Host) (packages : List RuntimePackage) : List RuntimePackage :=
  packages.insertionSort fun left right =>
    host.localeLe (left.package ++ "@" ++ left.version) (right.package ++ "@" ++ right.version)

/-- A plan with what it was made of. -/
structure Issued where
  plan : PatchPlan
  vulnerableRange : String
  bundle : ApplicationBundle
  deriving DecidableEq

/-- mirrors packages/runtime/src/fleet.ts:108-137 -/
def planFor (host : Host) (semver : Semver) (request : PatchRequest)
    (targetRelease : PackageRelease) (applications : JsMap String ApplicationBundle)
    (target : RuntimePackage) (deployment : FleetDeployment) (ref : Nat) :
    Except PatchError Issued :=
  let inventory := deployment.inventory
  match bundleFor targetRelease applications inventory.applicationId with
  | none => .error (.evidence ⟨.evidenceInvalid,
      "Security patch target requires a verified application bundle for " ++
        inventory.applicationId ++ "."⟩)
  | some application =>
    let current := (entryOf request.packageName inventory.packages).getD target
    if semver.gt current.version request.targetVersion then .error (.evidence ⟨.patchInvalid,
      "Security patch target must not regress an affected deployment."⟩)
    else .ok
      { plan :=
          { ref := ref
            applicationId := inventory.applicationId
            environment := inventory.environment
            targetRelease := targetRelease.version
            targetFrameworkDigest := application.frameworkDigest
            targetMigrationPlanDigest := application.migrationPlanDigest
            targetMigrationRevision := application.targetMigrationRevision
            targetDeploymentClosure := sortedClosure host application.installedPackages
            baseInventoryDigest := host.inventoryDigest inventory
            package := request.packageName
            currentVersion := current.version
            targetVersion := request.targetVersion
            targetIntegrity := target.integrity
            targetReleaseManifestDigest := targetRelease.digest
            targetClosure := targetRelease.packages.insertionSort fun left right =>
              host.localeLe left.package right.package }
        vulnerableRange := request.vulnerableRange
        bundle := application }

/-- The deployments that a plan is made for. -/
def toPatch (host : Host) (semver : Semver) (request : PatchRequest) (target : RuntimePackage)
    (s : FleetRegistry) : Except PatchError (List FleetDeployment) :=
  match affected host semver request.packageName request.vulnerableRange s with
  | .error e => .error (.evidence e)
  | .ok deployments => .ok (deployments.filter fun deployment =>
    ¬ AtTarget request.packageName request.targetVersion target deployment)

/-- The plans are new objects, known from `next` on. The plans of a call that throws are held by
nobody.
mirrors packages/runtime/src/fleet.ts:92-139 -/
def planSecurityPatch (host : Host) (semver : Semver) (request : PatchRequest) (next : Nat)
    (s : FleetRegistry) : Except PatchError (List Issued) := do
  let (targetRelease, applications, target) ← patchTarget semver request
  let deployments ← toPatch host semver request target s
  deployments.zipIdx next |>.mapM fun (deployment, ref) =>
    planFor host semver request targetRelease applications target deployment ref

/-! ## Runs -/

/-- The registry with the plans that callers hold. -/
structure St where
  registry : FleetRegistry
  issued : List Issued
  next : Nat
  deriving DecidableEq

inductive Ev where
  | ingest (evidence : Option FleetDeployment)
  | plan (request : PatchRequest)
  | apply (issued : Issued) (evidence : Option FleetDeployment)

def ingestStep (host : Host) (evidence : Option FleetDeployment) (s : St) : St :=
  match ingest host evidence s.registry with
  | .error _ => s
  | .ok registry => { s with registry }

def planStep (host : Host) (semver : Semver) (request : PatchRequest) (s : St) : St :=
  match planSecurityPatch host semver request s.next s.registry with
  | .error _ => s
  | .ok issued =>
    { registry := { s.registry with
        patchPlans := s.registry.patchPlans ++ issued.map fun i => i.plan.ref }
      issued := s.issued ++ issued
      next := s.next + issued.length }

def applyStep (host : Host) (issued : Issued) (evidence : Option FleetDeployment) (s : St) : St :=
  { s with registry :=
      (applySecurityPatch host issued.plan.toSecurityPatchPlan evidence s.registry).2 }

def step (host : Host) (semver : Semver) (s : St) : Ev → Option St
  | .ingest evidence => some (ingestStep host evidence s)
  | .plan request => some (planStep host semver request s)
  | .apply issued evidence =>
    if issued ∈ s.issued then some (applyStep host issued evidence s) else none

/-- A new registry, with the releases of its support window. -/
def New (s : St) : Prop :=
  s.registry.deployments = .empty ∧ s.registry.patchPlans = [] ∧ s.issued = [] ∧ s.next = 0

def lts (host : Host) (semver : Semver) : LTS St Ev := .ofFn New (step host semver)

/-! ## Sound calls -/

/-- The plan is for the application and the environment of the deployment. -/
def Issued.isFor (deployment : FleetDeployment) (issued : Issued) : Bool :=
  issued.plan.applicationId = deployment.inventory.applicationId ∧
    issued.plan.environment = deployment.inventory.environment

/-- One plan for each deployment that has a vulnerable version of the package, and no other. -/
structure ExactlyPlanned (semver : Semver) (request : PatchRequest) (s : FleetRegistry)
    (issued : List Issued) : Prop where
  one : ∀ key deployment, s.deployments.get? key = some deployment →
    Vulnerable semver request.packageName request.vulnerableRange deployment.inventory.packages →
      issued.countP (Issued.isFor deployment) = 1
  none : ∀ key deployment, s.deployments.get? key = some deployment →
    ¬ Vulnerable semver request.packageName request.vulnerableRange deployment.inventory.packages →
      issued.countP (Issued.isFor deployment) = 0
  known : ∀ i ∈ issued, ∃ key deployment, s.deployments.get? key = some deployment ∧
    i.isFor deployment = true

/-- A planning call throws or is complete; a deployment that an applied patch recorded is no longer
reported. -/
def Sound (host : Host) (semver : Semver) (s : St) : Ev → Prop
  | .ingest _ => True
  | .plan request => ∀ issued, planSecurityPatch host semver request s.next s.registry = .ok issued →
      ExactlyPlanned semver request s.registry issued
  | .apply issued evidence => ∀ recorded registry,
      applySecurityPatch host issued.plan.toSecurityPatchPlan evidence s.registry =
        (.ok (some recorded), registry) →
      ∃ reported, affected host semver issued.plan.package issued.vulnerableRange registry =
        .ok reported ∧ recorded ∉ reported

/-- The deployment has a bundle of the release, and its first entry of the package is not beyond the
target. -/
def Plannable (semver : Semver) (request : PatchRequest) (targetRelease : PackageRelease)
    (applications : JsMap String ApplicationBundle) (deployment : FleetDeployment) : Prop :=
  (bundleFor targetRelease applications deployment.inventory.applicationId).isSome = true ∧
    ∀ current, entryOf request.packageName deployment.inventory.packages = some current →
      semver.gt current.version request.targetVersion = false

/-- No affected deployment has the target as its first entry of the package, unless the arguments, or
another affected deployment, are refused. -/
def PlanCondition (semver : Semver) (request : PatchRequest) (s : FleetRegistry) : Prop :=
  ∀ targetRelease applications target,
    patchTarget semver request = .ok (targetRelease, applications, target) →
    (∀ key deployment, s.deployments.get? key = some deployment →
      Vulnerable semver request.packageName request.vulnerableRange deployment.inventory.packages →
      ¬ AtTarget request.packageName request.targetVersion target deployment →
        Plannable semver request targetRelease applications deployment) →
    ∀ key deployment, s.deployments.get? key = some deployment →
      Vulnerable semver request.packageName request.vulnerableRange deployment.inventory.packages →
        ¬ AtTarget request.packageName request.targetVersion target deployment

/-- Evidence that passes and is newer is not for a bundle that has the package in the range. Evidence
with the identity and the digest of the recorded deployment is not recorded. -/
def ApplyCondition (host : Host) (semver : Semver) (issued : Issued)
    (evidence : Option FleetDeployment) (s : FleetRegistry) : Prop :=
  ∀ current target, evidence = some target →
    Passes host issued.plan.toSecurityPatchPlan s current target →
      (SameIdentity current target →
        host.inventoryDigest current.inventory = host.inventoryDigest target.inventory →
        ¬ Vulnerable semver issued.plan.package issued.vulnerableRange current.inventory.packages) ∧
      (¬ SameIdentity current target → ¬ NotNewer host current target →
        ¬ Vulnerable semver issued.plan.package issued.vulnerableRange
          issued.bundle.installedPackages)

/-- The condition of a step. -/
def Careful (host : Host) (semver : Semver) (s : St) : Ev → Prop
  | .ingest _ => True
  | .plan request => PlanCondition semver request s.registry
  | .apply issued evidence => ApplyCondition host semver issued evidence s.registry

/-! ## The invariant -/

/-- Deployments are under their own keys, and plans are for the bundles that they were made of. -/
structure Inv (host : Host) (semver : Semver) (s : St) : Prop where
  keyed : ∀ key deployment, s.registry.deployments.get? key = some deployment →
    deployment.inventory.key = key
  issued : ∀ i ∈ s.issued, semver.validRange i.vulnerableRange = true ∧
    i.plan.targetDeploymentClosure = sortedClosure host i.bundle.installedPackages

section Steps

variable {host : Host} {semver : Semver} {s : St} {request : PatchRequest}

theorem patchTarget_eq_ok {targetRelease : PackageRelease}
    {applications : JsMap String ApplicationBundle} {target : RuntimePackage}
    (h : patchTarget semver request = .ok (targetRelease, applications, target)) :
    semver.validRange request.vulnerableRange = true := by
  unfold patchTarget at h
  split at h
  · cases h
  split at h
  · cases h
  dsimp only at h
  split at h
  · cases h
  · rename_i hrange
    rwa [Bool.not_eq_false] at hrange

theorem planFor_eq_ok {targetRelease : PackageRelease}
    {applications : JsMap String ApplicationBundle} {target : RuntimePackage}
    {deployment : FleetDeployment} {ref : Nat} {i : Issued}
    (h : planFor host semver request targetRelease applications target deployment ref = .ok i) :
    i.isFor deployment = true ∧ i.plan.ref = ref ∧ i.plan.package = request.packageName ∧
      i.vulnerableRange = request.vulnerableRange ∧
      i.plan.targetDeploymentClosure = sortedClosure host i.bundle.installedPackages := by
  unfold planFor at h
  dsimp only at h
  split at h
  · cases h
  split at h
  · cases h
  · cases h
    exact ⟨decide_eq_true ⟨rfl, rfl⟩, rfl, rfl, rfl, rfl⟩

/-- The plans of a call, one for each deployment that is affected and not at the target. -/
theorem planSecurityPatch_eq_ok {next : Nat} {registry : FleetRegistry} {issued : List Issued} :
    planSecurityPatch host semver request next registry = .ok issued ↔
      ∃ targetRelease applications target,
        patchTarget semver request = .ok (targetRelease, applications, target) ∧
        List.Forall₂ (fun (d : FleetDeployment × Nat) i => planFor host semver request targetRelease
          applications target d.1 d.2 = .ok i)
          ((((registry.list host).filter fun d => Vulnerable semver request.packageName
            request.vulnerableRange d.inventory.packages).filter fun d =>
              ¬ AtTarget request.packageName request.targetVersion target d).zipIdx next) issued := by
  unfold planSecurityPatch toPatch affected
  constructor
  · intro h
    obtain ⟨⟨targetRelease, applications, target⟩, htarget, h⟩ := bind_eq_ok.mp h
    obtain ⟨deployments, hdeployments, h⟩ := bind_eq_ok.mp h
    rw [patchTarget_eq_ok htarget] at hdeployments
    cases hdeployments
    exact ⟨targetRelease, applications, target, htarget, mapM_eq_ok.mp h⟩
  · intro ⟨targetRelease, applications, target, htarget, h⟩
    refine bind_eq_ok.mpr ⟨_, htarget, bind_eq_ok.mpr ⟨_, ?_, mapM_eq_ok.mpr h⟩⟩
    rw [patchTarget_eq_ok htarget]
    rfl

/-! ## What is planned -/

def FleetDeployment.tenant (deployment : FleetDeployment) : String × String :=
  (deployment.inventory.applicationId, deployment.inventory.environment)

def Issued.tenant (issued : Issued) : String × String :=
  (issued.plan.applicationId, issued.plan.environment)

theorem isFor_iff {deployment : FleetDeployment} {i : Issued} :
    i.isFor deployment = true ↔ i.tenant = deployment.tenant := by
  unfold Issued.isFor Issued.tenant FleetDeployment.tenant
  rw [decide_eq_true_eq, Prod.mk.injEq]

theorem mem_list {registry : FleetRegistry} {deployment : FleetDeployment} :
    deployment ∈ registry.list host ↔
      ∃ key, registry.deployments.get? key = some deployment := by
  unfold FleetRegistry.list
  rw [(List.perm_insertionSort _ _).mem_iff, List.mem_map]
  constructor
  · intro ⟨e, he, hd⟩
    exact ⟨e.1, JsMap.get?_eq_some.mpr (hd ▸ he)⟩
  · intro ⟨key, hkey⟩
    exact ⟨(key, deployment), JsMap.get?_eq_some.mp hkey, rfl⟩

/-- Deployments under their own keys are each for an application and environment of its own. -/
theorem tenants_nodup (h : Inv host semver s) :
    ((s.registry.list host).map FleetDeployment.tenant).Nodup := by
  have hkeys : (s.registry.deployments.entries.map Prod.snd).map (fun d => d.inventory.key) =
      s.registry.deployments.entries.map Prod.fst := by
    rw [List.map_map]
    refine List.map_congr_left fun e he => ?_
    exact h.keyed e.1 e.2 (JsMap.get?_eq_some.mpr he)
  have hperm : (s.registry.list host).Perm (s.registry.deployments.entries.map Prod.snd) :=
    List.perm_insertionSort _ _
  refine List.Nodup.of_map (fun t : String × String => deploymentKey t.1 t.2) ?_
  rw [List.map_map]
  show ((s.registry.list host).map fun d => d.inventory.key).Nodup
  rw [(hperm.map _).nodup_iff, hkeys]
  exact s.registry.deployments.nodup

/-- Each plan is for the deployment that it was made of. -/
theorem tenants_eq {targetRelease : PackageRelease} {applications : JsMap String ApplicationBundle}
    {target : RuntimePackage} : ∀ {deployments : List FleetDeployment} {next : Nat}
    {issued : List Issued},
    List.Forall₂ (fun (d : FleetDeployment × Nat) i => planFor host semver request targetRelease
      applications target d.1 d.2 = .ok i) (deployments.zipIdx next) issued →
    issued.map Issued.tenant = deployments.map FleetDeployment.tenant
  | [], _, _, h => by
    cases h
    rfl
  | d :: deployments, next, _, h => by
    rw [List.zipIdx_cons] at h
    cases h with
    | cons hone hrest =>
      rw [List.map_cons, List.map_cons, tenants_eq hrest,
        isFor_iff.mp (planFor_eq_ok hone).1]

/-- A call that returned is complete exactly when no affected deployment is left out. -/
theorem exactlyPlanned_iff (h : Inv host semver s) {next : Nat} {issued : List Issued}
    {targetRelease : PackageRelease} {applications : JsMap String ApplicationBundle}
    {target : RuntimePackage}
    (hplans : List.Forall₂ (fun (d : FleetDeployment × Nat) i => planFor host semver request
      targetRelease applications target d.1 d.2 = .ok i)
      ((((s.registry.list host).filter fun d => Vulnerable semver request.packageName
        request.vulnerableRange d.inventory.packages).filter fun d =>
          ¬ AtTarget request.packageName request.targetVersion target d).zipIdx next) issued) :
    ExactlyPlanned semver request s.registry issued ↔
      ∀ key deployment, s.registry.deployments.get? key = some deployment →
        Vulnerable semver request.packageName request.vulnerableRange
          deployment.inventory.packages →
          ¬ AtTarget request.packageName request.targetVersion target deployment := by
  have htenants := tenants_eq hplans
  have hnodup := tenants_nodup h
  have hcount : ∀ deployment, issued.countP (Issued.isFor deployment) =
      (issued.map Issued.tenant).count deployment.tenant := by
    intro deployment
    rw [List.count, List.countP_map]
    refine List.countP_congr fun i _ => ?_
    rw [isFor_iff, Function.comp_apply, beq_iff_eq]
  have hplanned : ∀ deployment ∈ s.registry.list host, deployment.tenant ∈
      issued.map Issued.tenant ↔ Vulnerable semver request.packageName request.vulnerableRange
        deployment.inventory.packages ∧
          ¬ AtTarget request.packageName request.targetVersion target deployment := by
    intro deployment hmem
    rw [htenants, List.mem_map]
    constructor
    · intro ⟨other, hother, hsame⟩
      simp only [List.mem_filter, decide_eq_true_eq] at hother
      obtain rfl := List.inj_on_of_nodup_map hnodup hother.1.1 hmem hsame
      exact ⟨hother.1.2, hother.2⟩
    · intro ⟨hvulnerable, hnot⟩
      refine ⟨deployment, ?_, rfl⟩
      simp only [List.mem_filter, decide_eq_true_eq]
      exact ⟨⟨hmem, hvulnerable⟩, hnot⟩
  have honce : (issued.map Issued.tenant).Nodup := by
    rw [htenants]
    exact ((List.filter_sublist.trans List.filter_sublist).map _).nodup hnodup
  constructor
  · intro hexact key deployment hkey hvulnerable
    have hone := hexact.one key deployment hkey hvulnerable
    rw [hcount] at hone
    have hmem : deployment.tenant ∈ issued.map Issued.tenant :=
      List.count_pos_iff.mp (by omega)
    exact ((hplanned deployment (mem_list.mpr ⟨key, hkey⟩)).mp hmem).2
  · intro hnone
    refine ⟨fun key deployment hkey hvulnerable => ?_, fun key deployment hkey hsafe => ?_,
      fun i hi => ?_⟩
    · rw [hcount]
      exact List.count_eq_one_of_mem honce ((hplanned deployment (mem_list.mpr ⟨key, hkey⟩)).mpr
        ⟨hvulnerable, hnone key deployment hkey hvulnerable⟩)
    · rw [hcount]
      refine List.count_eq_zero_of_not_mem fun hmem => ?_
      exact hsafe ((hplanned deployment (mem_list.mpr ⟨key, hkey⟩)).mp hmem).1
    · have hmem : i.tenant ∈ issued.map Issued.tenant := List.mem_map_of_mem hi
      rw [htenants] at hmem
      obtain ⟨deployment, hdeployment, hsame⟩ := List.mem_map.mp hmem
      simp only [List.mem_filter] at hdeployment
      obtain ⟨key, hkey⟩ := mem_list.mp hdeployment.1.1
      exact ⟨key, deployment, hkey, isFor_iff.mpr hsame.symm⟩

theorem exists_entryOf {packageName vulnerableRange : String} {packages : List RuntimePackage}
    (h : Vulnerable semver packageName vulnerableRange packages) :
    ∃ current, entryOf packageName packages = some current := by
  obtain ⟨entry, hentry, hname, -⟩ := h
  unfold entryOf
  rw [← Option.isSome_iff_exists, List.find?_isSome]
  exact ⟨entry, hentry, decide_eq_true hname⟩

theorem plannable_iff {targetRelease : PackageRelease}
    {applications : JsMap String ApplicationBundle} {target : RuntimePackage}
    {deployment : FleetDeployment} {ref : Nat}
    (h : Vulnerable semver request.packageName request.vulnerableRange
      deployment.inventory.packages) :
    (∃ i, planFor host semver request targetRelease applications target deployment ref = .ok i) ↔
      Plannable semver request targetRelease applications deployment := by
  obtain ⟨current, hcurrent⟩ := exists_entryOf h
  unfold planFor Plannable
  dsimp only
  rw [hcurrent]
  cases bundleFor targetRelease applications deployment.inventory.applicationId with
  | none => simp
  | some application =>
    dsimp only [Option.getD_some]
    by_cases hgt : semver.gt current.version request.targetVersion = true
    · simp [hgt]
    · simp [hgt]

/-- A planning call is sound exactly when no affected deployment has the target first. -/
theorem sound_plan_iff (h : Inv host semver s) :
    Sound host semver s (.plan request) ↔ PlanCondition semver request s.registry := by
  constructor
  · intro hsound targetRelease applications target htarget hplannable
    obtain ⟨issued, hissued⟩ := mapM_isOk (f := fun (d : FleetDeployment × Nat) =>
      planFor host semver request targetRelease applications target d.1 d.2)
      (l := (((s.registry.list host).filter fun d => Vulnerable semver request.packageName
        request.vulnerableRange d.inventory.packages).filter fun d =>
          ¬ AtTarget request.packageName request.targetVersion target d).zipIdx s.next) (by
        intro d hd
        have hmem := List.mem_map_of_mem (f := Prod.fst) hd
        rw [List.zipIdx_map_fst] at hmem
        simp only [List.mem_filter, decide_eq_true_eq] at hmem
        obtain ⟨key, hkey⟩ := mem_list.mp hmem.1.1
        exact (plannable_iff hmem.1.2).mpr (hplannable key d.1 hkey hmem.1.2 hmem.2))
    have hplans := mapM_eq_ok.mp hissued
    exact (exactlyPlanned_iff h hplans).mp (hsound issued (planSecurityPatch_eq_ok.mpr
      ⟨targetRelease, applications, target, htarget, hplans⟩))
  · intro hcond issued hissued
    obtain ⟨targetRelease, applications, target, htarget, hplans⟩ :=
      planSecurityPatch_eq_ok.mp hissued
    refine (exactlyPlanned_iff h hplans).mpr (hcond targetRelease applications target htarget ?_)
    intro key deployment hkey hvulnerable hnot
    have hmem : deployment ∈ (((s.registry.list host).filter fun d => Vulnerable semver
        request.packageName request.vulnerableRange d.inventory.packages).filter fun d =>
          ¬ AtTarget request.packageName request.targetVersion target d) := by
      simp only [List.mem_filter, decide_eq_true_eq]
      exact ⟨⟨mem_list.mpr ⟨key, hkey⟩, hvulnerable⟩, hnot⟩
    rw [← List.zipIdx_map_fst s.next (List.filter _ _)] at hmem
    obtain ⟨d, hd, rfl⟩ := List.mem_map.mp hmem
    obtain ⟨n, hn, rfl⟩ := List.getElem_of_mem hd
    exact (plannable_iff hvulnerable).mp ⟨_, hplans.get hn (hplans.length_eq ▸ hn)⟩

/-! ## What is recorded -/

theorem mem_sortedClosure {packages : List RuntimePackage} {entry : RuntimePackage} :
    entry ∈ sortedClosure host packages ↔ entry ∈ packages := by
  unfold sortedClosure
  exact (List.perm_insertionSort _ packages).mem_iff

theorem vulnerable_closure {packageName vulnerableRange : String}
    {packages packages' : List RuntimePackage}
    (h : sortedClosure host packages = sortedClosure host packages') :
    Vulnerable semver packageName vulnerableRange packages ↔
      Vulnerable semver packageName vulnerableRange packages' := by
  have hmem : ∀ entry, entry ∈ packages ↔ entry ∈ packages' := by
    intro entry
    rw [← @mem_sortedClosure host, h, mem_sortedClosure]
  unfold Vulnerable
  simp only [hmem]

/-- A recorded deployment is reported when an entry of its inventory is in the range. -/
theorem reported_iff {packageName vulnerableRange : String} {registry : FleetRegistry}
    {deployment : FleetDeployment} {key : String}
    (hrange : semver.validRange vulnerableRange = true)
    (hkey : registry.deployments.get? key = some deployment) :
    (∃ reported, affected host semver packageName vulnerableRange registry = .ok reported ∧
      deployment ∉ reported) ↔
      ¬ Vulnerable semver packageName vulnerableRange deployment.inventory.packages := by
  have hreported : affected host semver packageName vulnerableRange registry =
      .ok ((registry.list host).filter fun d =>
        Vulnerable semver packageName vulnerableRange d.inventory.packages) := by
    unfold affected
    rw [hrange]
    rfl
  have hmem : deployment ∈ registry.list host := mem_list.mpr ⟨key, hkey⟩
  rw [hreported]
  constructor
  · intro ⟨reported, heq, hnot⟩ hvulnerable
    cases heq
    exact hnot (List.mem_filter.mpr ⟨hmem, decide_eq_true hvulnerable⟩)
  · intro hsafe
    refine ⟨_, rfl, fun hin => hsafe ?_⟩
    exact of_decide_eq_true (List.mem_filter.mp hin).2

/-- A call that returned passed its checks. -/
theorem passes_of_applied {plan : SecurityPatchPlan} {evidence : Option FleetDeployment}
    {registry registry' : FleetRegistry} {recorded : Option FleetDeployment}
    (h : applySecurityPatch host plan evidence registry = (.ok recorded, registry')) :
    ∃ current target, evidence = some target ∧ Passes host plan registry current target := by
  unfold applySecurityPatch at h
  split at h
  · cases congrArg Prod.fst h
  · rename_i hissued
    dsimp only at h
    split at h
    · cases congrArg Prod.fst h
    · rename_i hcheck
      obtain ⟨current, target, hev, hcurrent, hbase, hmatch⟩ := checkPatch_ok hcheck
      exact ⟨current, target, hev, not_not.mp hissued, hcurrent, hbase, hmatch⟩

/-- An applied patch is sound exactly when the packages it recorded are. -/
theorem sound_apply_iff (h : Inv host semver s) {issued : Issued}
    (hissued : issued ∈ s.issued) {evidence : Option FleetDeployment} :
    Sound host semver s (.apply issued evidence) ↔
      ApplyCondition host semver issued evidence s.registry := by
  obtain ⟨hrange, hclosure⟩ := h.issued issued hissued
  constructor
  · intro hsound current target hev hpass
    subst hev
    have happlied := applySecurityPatch_passes hpass
    unfold rejects at happlied
    refine ⟨fun hid hdigest => ?_, fun hid hnew => ?_⟩
    · unfold SameIdentity at hid
      rw [if_pos hid, show failIf _ _ = .ok () from if_neg (not_not.mpr hdigest)] at happlied
      refine (@reported_iff _ _ _ _ _ _ issued.plan.key hrange ?_).mp (hsound current _ happlied)
      exact hpass.recorded
    · unfold SameIdentity at hid
      unfold NotNewer at hnew
      rw [if_neg hid, show failIf _ _ = .ok () from if_neg hnew] at happlied
      have hsafe := (reported_iff hrange (JsMap.get?_set_self _ _ _)).mp (hsound target _ happlied)
      rwa [← vulnerable_closure (hclosure ▸ hpass.isMatch.2.2.2.1)]
  · intro hcond recorded registry happlied
    obtain ⟨current, target, rfl, hpass⟩ := passes_of_applied happlied
    obtain ⟨hsame, hnewer⟩ := hcond current target rfl hpass
    rw [applySecurityPatch_passes hpass] at happlied
    unfold rejects at happlied
    by_cases hid : current.receipt.deploymentId = target.receipt.deploymentId
    · rw [if_pos hid] at happlied
      by_cases hdigest : host.inventoryDigest current.inventory ≠
          host.inventoryDigest target.inventory
      · rw [show failIf _ _ = .error _ from if_pos hdigest] at happlied
        cases congrArg Prod.fst happlied
      · rw [show failIf _ _ = .ok () from if_neg hdigest] at happlied
        cases happlied
        exact (reported_iff hrange hpass.recorded).mpr (hsame hid (not_not.mp hdigest))
    · rw [if_neg hid] at happlied
      by_cases hold : host.atLeast current.receipt.deployedAt target.receipt.deployedAt = true
      · rw [show failIf _ _ = .error _ from if_pos hold] at happlied
        cases congrArg Prod.fst happlied
      · rw [show failIf _ _ = .ok () from if_neg hold] at happlied
        cases happlied
        refine (reported_iff hrange (JsMap.get?_set_self _ _ _)).mpr ?_
        rw [vulnerable_closure (hclosure ▸ hpass.isMatch.2.2.2.1)]
        exact hnewer hid hold

/-! ## Runs -/

theorem ingest_keyed {evidence : Option FleetDeployment} {registry registry' : FleetRegistry}
    (h : ∀ key deployment, registry.deployments.get? key = some deployment →
      deployment.inventory.key = key)
    (hingest : ingest host evidence registry = .ok registry') :
    ∀ key deployment, registry'.deployments.get? key = some deployment →
      deployment.inventory.key = key := by
  have hset : ∀ deployment : FleetDeployment, ∀ key other,
      (registry.deployments.set deployment.inventory.key deployment).get? key = some other →
        other.inventory.key = key := by
    intro deployment key other hother
    rw [JsMap.get?_set] at hother
    split at hother
    · rename_i hkey
      cases hother
      exact hkey.symm
    · exact h key other hother
  unfold ingest at hingest
  split at hingest
  · cases hingest
  split at hingest
  · cases hingest
  split at hingest
  · cases hingest
    exact hset _
  split at hingest
  · cases hingest
  · cases hingest
    exact h
  · cases hingest
    exact hset _

theorem applySecurityPatch_keyed {plan : SecurityPatchPlan} {evidence : Option FleetDeployment}
    {registry : FleetRegistry}
    (h : ∀ key deployment, registry.deployments.get? key = some deployment →
      deployment.inventory.key = key) :
    ∀ key deployment, (applySecurityPatch host plan evidence registry).2.deployments.get? key =
      some deployment → deployment.inventory.key = key := by
  unfold applySecurityPatch
  split
  · exact h
  dsimp only
  split
  · exact h
  split
  · exact h
  · rename_i hingest
    refine ingest_keyed ?_ hingest
    exact h

theorem inv_step {s' : St} {e : Ev} (h : Inv host semver s) (hs : step host semver s e = some s') :
    Inv host semver s' := by
  cases e with
  | ingest evidence =>
    obtain rfl := Option.some.inj hs
    unfold ingestStep
    split
    · exact h
    · rename_i hingest
      exact ⟨ingest_keyed h.keyed hingest, h.issued⟩
  | plan request =>
    obtain rfl := Option.some.inj hs
    unfold planStep
    split
    · exact h
    · rename_i issued hplan
      obtain ⟨targetRelease, applications, target, htarget, hplans⟩ :=
        planSecurityPatch_eq_ok.mp hplan
      refine ⟨h.keyed, fun i hi => ?_⟩
      rcases List.mem_append.mp hi with hi | hi
      · exact h.issued i hi
      · obtain ⟨n, hn, rfl⟩ := List.getElem_of_mem hi
        obtain ⟨-, -, -, hrange, hclosure⟩ :=
          planFor_eq_ok (hplans.get (hplans.length_eq ▸ hn) hn)
        exact ⟨hrange ▸ patchTarget_eq_ok htarget, hclosure⟩
  | apply issued evidence =>
    dsimp only [step] at hs
    split at hs
    · obtain rfl := Option.some.inj hs
      exact ⟨applySecurityPatch_keyed h.keyed, h.issued⟩
    · cases hs

theorem inv_init (h : New s) : Inv host semver s := by
  obtain ⟨hdeployments, -, hissued, -⟩ := h
  refine ⟨fun key deployment hkey => ?_, fun i hi => ?_⟩
  · rw [hdeployments] at hkey
    cases hkey
  · rw [hissued] at hi
    cases hi

theorem sound_iff {s' : St} {e : Ev} (h : Inv host semver s)
    (hs : step host semver s e = some s') :
    Sound host semver s e ↔ Careful host semver s e := by
  cases e with
  | ingest evidence => exact Iff.rfl
  | plan request => exact sound_plan_iff h
  | apply issued evidence =>
    dsimp only [step] at hs
    split at hs
    · exact sound_apply_iff h ‹_›
    · cases hs

end Steps

/-- **The runs in which patch planning is complete.** From a new registry, every planning call throws
or plans exactly for the affected deployments, and no applied patch leaves its deployment reported,
in the runs in which no returned planning call meets an affected deployment whose first entry of the
package is the target, and no recorded bundle has the package in the range. -/
theorem sound_run_iff (host : Host) (semver : Semver) {s s' : St} (h : New s) (es : List Ev) :
    ((lts host semver).guard fun s e _ => Sound host semver s e).Run s es s' ↔
      ((lts host semver).guard fun s e _ => Careful host semver s e).Run s es s' :=
  LTS.guard_run_iff (I := Inv host semver) (fun _ _ _ hi hs _ => inv_step hi hs)
    (fun _ _ _ hi hs => sound_iff hi hs) (inv_init h)

/-! ## Runs of one customer -/

/-- Versions before 1.0.1 are vulnerable, and 1.0.0 is the only one. -/
def plainSemver : Semver where
  validRange _ := true
  valid _ := true
  satisfies version _ := version = "1.0.0"
  gt left right := decide (right < left)

def coreAt (version : String) : RuntimePackage := ⟨"core", version, "sha512-core-" ++ version⟩

def deployed (release id deployedAt : String) (migrationRevision : Nat)
    (packages : List RuntimePackage) : FleetDeployment :=
  ⟨⟨id, deployedAt, .null⟩, ⟨"customer-alpha", "production", release, packages, "sha256:framework",
    "sha256:graph", true, migrationRevision, .null⟩⟩

def bundleOf (packages : List RuntimePackage) : ApplicationBundle :=
  ⟨"customer-alpha", "1.0.1", "sha256:release", "sha256:framework", "sha256:graph", 2, packages⟩

/-- A request to patch `core` up to 1.0.1 with the bundle. -/
def coreRequest (bundle : ApplicationBundle) : PatchRequest :=
  ⟨"core", "<1.0.1", "1.0.1", some ⟨"1.0.1", [coreAt "1.0.1"], "sha256:release"⟩, [some bundle]⟩

def newFleet : St := ⟨⟨.empty, ["1.0.0"], []⟩, [], 0⟩

/-- The registry with one deployment. -/
def fleetOf (deployment : FleetDeployment) : St :=
  ingestStep plainHost (some deployment) newFleet

def oneVersion : FleetDeployment :=
  deployed "1.0.0" "deployment-1" "2026-01-01T00:00:00Z" 1 [coreAt "1.0.0"]

/-- Both versions of `core`, the target first. -/
def twoVersions : FleetDeployment :=
  deployed "1.0.0" "deployment-1" "2026-01-01T00:00:00Z" 1 [coreAt "1.0.1", coreAt "1.0.0"]

/-- What the planning call for one version issues. -/
def issuedFor (bundle : ApplicationBundle) : Issued :=
  ⟨⟨⟨0, "customer-alpha", "production", "1.0.1", "sha256:framework", "sha256:graph", 2,
    sortedClosure plainHost bundle.installedPackages, "1.0.0"⟩, "core", "1.0.0", "1.0.1",
    "sha512-core-1.0.1", "sha256:release", [coreAt "1.0.1"]⟩, "<1.0.1", bundle⟩

def patchedWith (packages : List RuntimePackage) : FleetDeployment :=
  deployed "1.0.1" "deployment-2" "2026-01-02T00:00:00Z" 2 packages

def safeBundle : ApplicationBundle := bundleOf [coreAt "1.0.1"]

/-- The registry after a planning call. -/
def plannedFleet (bundle : ApplicationBundle) : St :=
  planStep plainHost plainSemver (coreRequest bundle) (fleetOf oneVersion)

theorem careful_plan : PlanCondition plainSemver (coreRequest safeBundle)
    (fleetOf oneVersion).registry := by
  intro targetRelease applications target htarget hplannable key deployment hkey hvulnerable hat
  have hentries : (fleetOf oneVersion).registry.deployments.entries =
      [(oneVersion.inventory.key, oneVersion)] := by decide
  have hmem := JsMap.get?_eq_some.mp hkey
  rw [hentries, List.mem_singleton] at hmem
  cases hmem
  obtain ⟨current, hcurrent, hversion, -⟩ := hat
  have hfirst : entryOf "core" oneVersion.inventory.packages = some (coreAt "1.0.0") := by
    decide
  obtain rfl := Option.some.inj (hfirst.symm.trans hcurrent)
  revert hversion
  show ¬ "1.0.0" = "1.0.1"
  decide

theorem careful_apply : ApplyCondition plainHost plainSemver (issuedFor safeBundle)
    (some (patchedWith [coreAt "1.0.1"])) (plannedFleet safeBundle).registry := by
  intro current target hev hpass
  cases hev
  have hcurrent : (plannedFleet safeBundle).registry.deployments.get?
      (issuedFor safeBundle).plan.toSecurityPatchPlan.key = some oneVersion := by decide
  obtain rfl := Option.some.inj (hcurrent.symm.trans hpass.recorded)
  exact ⟨fun hid => absurd hid (show "deployment-1" ≠ "deployment-2" by decide),
    fun _ _ => by decide⟩

theorem sound_run_one : ∃ s', ((lts plainHost plainSemver).guard fun s e _ =>
    Sound plainHost plainSemver s e).Run newFleet [.ingest (some oneVersion),
      .plan (coreRequest safeBundle),
      .apply (issuedFor safeBundle) (some (patchedWith [coreAt "1.0.1"]))] s' := by
  have hissued : issuedFor safeBundle ∈ (plannedFleet safeBundle).issued := by decide
  have hstep : step plainHost plainSemver (plannedFleet safeBundle)
      (.apply (issuedFor safeBundle) (some (patchedWith [coreAt "1.0.1"]))) =
        some (applyStep plainHost (issuedFor safeBundle) (some (patchedWith [coreAt "1.0.1"]))
          (plannedFleet safeBundle)) := by
    dsimp only [step]
    rw [if_pos hissued]
  have happly : ((lts plainHost plainSemver).guard fun s e _ => Careful plainHost plainSemver s e).Run
      (plannedFleet safeBundle)
      [.apply (issuedFor safeBundle) (some (patchedWith [coreAt "1.0.1"]))]
      (applyStep plainHost (issuedFor safeBundle) (some (patchedWith [coreAt "1.0.1"]))
        (plannedFleet safeBundle)) :=
    .cons ⟨hstep, careful_apply⟩ (.nil _)
  exact ⟨_, (sound_run_iff plainHost plainSemver ⟨rfl, rfl, rfl, rfl⟩ _).mpr
    (.cons ⟨rfl, trivial⟩ (.cons ⟨rfl, careful_plan⟩ happly))⟩

def mixedBundle : ApplicationBundle := bundleOf [coreAt "1.0.0", coreAt "1.0.1"]

def mixedPatch : FleetDeployment := patchedWith [coreAt "1.0.0", coreAt "1.0.1"]

/-- A deployment of both versions gets no plan; and a bundle of both versions is deployed by an applied
patch, which leaves the deployment reported. -/
theorem sound_run_both :
    (∃ s, (lts plainHost plainSemver).Reachable s ∧
      ¬ Sound plainHost plainSemver s (.plan (coreRequest safeBundle))) ∧
    ∃ s issued evidence, (lts plainHost plainSemver).Reachable s ∧ issued ∈ s.issued ∧
      ¬ Sound plainHost plainSemver s (.apply issued evidence) := by
  have hnew : (lts plainHost plainSemver).Reachable newFleet := .init ⟨rfl, rfl, rfl, rfl⟩
  have hfleet : ∀ deployment, (lts plainHost plainSemver).Reachable (fleetOf deployment) :=
    fun deployment => hnew.step (l := .ingest (some deployment)) rfl
  have hplanned : (lts plainHost plainSemver).Reachable (plannedFleet mixedBundle) :=
    (hfleet oneVersion).step (l := .plan (coreRequest mixedBundle)) rfl
  refine ⟨⟨fleetOf twoVersions, hfleet _, fun hsound => ?_⟩, plannedFleet mixedBundle,
    issuedFor mixedBundle, some mixedPatch, hplanned, by decide, fun hsound => ?_⟩
  · have hnone : planSecurityPatch plainHost plainSemver (coreRequest safeBundle)
        (fleetOf twoVersions).next (fleetOf twoVersions).registry = .ok [] := by decide
    have hone := (hsound [] hnone).one twoVersions.inventory.key twoVersions (by decide)
      (by decide)
    cases hone
  · have happlied : (applySecurityPatch plainHost (issuedFor mixedBundle).plan.toSecurityPatchPlan
        (some mixedPatch) (plannedFleet mixedBundle).registry).1 = .ok (some mixedPatch) := by
      decide
    have hstill : affected plainHost plainSemver "core" "<1.0.1" (applySecurityPatch plainHost
        (issuedFor mixedBundle).plan.toSecurityPatchPlan (some mixedPatch)
        (plannedFleet mixedBundle).registry).2 = .ok [mixedPatch] := by decide
    obtain ⟨reported, hreported, hnot⟩ := hsound mixedPatch _ (Prod.ext happlied rfl)
    obtain rfl := Except.ok.inj (hstill.symm.trans hreported)
    exact hnot (List.mem_singleton_self _)

end KNex.Runtime.Fleet
