import KNex.ExtensionStore.Operations

/-!
# The generation pointers of an extension

An extension row holds the active generation and the rollback target twice, as an id and as a
JSON copy, and the generation that a disabled extension would return to. `Pointers` says how the
columns go together and with the history of the extension: the generations that were active since
its last removal, the latest first. Each way in which a transaction rewrites the row is taken
here from one row to the next; two of them keep the pointers only under a condition.
-/
namespace KNex.Store

open KNex.Core KNex.Contracts

structure Pointers (row : ExtensionRow) (history : List String) : Prop where
  active : row.disposition = .active ↔
    row.activeGenerationId.isSome ∧ row.activeGeneration.isSome
  activeId : row.activeGenerationId = row.activeGeneration.map (·.generationId)
  rollbackId : row.rollbackGenerationId = row.rollbackGeneration.map (·.generationId)
  previous : ∀ rid, row.rollbackGenerationId = some rid → row.activeGenerationId ≠ some rid ∧
    ∃ id rest, row.activeGenerationId = some id ∧ history = id :: rid :: rest
  retained : row.retainedGeneration.isSome → row.disposition ≠ .active

variable {state : ExtensionRow} {h : List String}

/-! ## Reading the pointers -/

theorem Pointers.rollback_none (hp : Pointers state h) (ha : state.activeGeneration = none) :
    state.rollbackGenerationId = none := by
  cases hr : state.rollbackGenerationId with
  | none => rfl
  | some rid =>
    obtain ⟨-, id, rest, hid, -⟩ := hp.previous rid hr
    rw [hp.activeId, ha] at hid
    cases hid

end KNex.Store
