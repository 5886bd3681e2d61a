import KNex.ExtensionStore.Operations
import KNex.ExtensionStore.Protocol

/-!
# The moves of the transactions

Each transaction of the store that returns is a run of the operation protocol. One lemma for each
of them names the moves, the conditions that its checks found true, and what it returned.
-/
namespace KNex.Store

open KNex.Core KNex.Contracts

variable {host : Host} {a : Ambient} {db db' : Db}

/-! ## The protocol of a changed database -/

@[simp] theorem protocol_setExtension (db : Db) (i : Identity) (row : ExtensionRow) :
    (db.setExtension i row).protocol =
      { db.protocol with extension := Function.update db.protocol.extension i (some row) } := by
  have h : (db.extensions.set i row).get? = Function.update db.extensions.get? i (some row) := by
    funext j
    rw [JsMap.get?_set, Function.update_apply]
  simp only [Db.protocol, Db.setExtension, h]

@[simp] theorem protocol_setInventoryRevision (db : Db) (s : Scope) (n : Nat) :
    (db.setInventoryRevision s n).protocol =
      { db.protocol with inventory := Function.update db.protocol.inventory s (some n) } := by
  have h : (db.inventoryRevisions.set s n).get? =
      Function.update db.inventoryRevisions.get? s (some n) := by
    funext j
    rw [JsMap.get?_set, Function.update_apply]
  simp only [Db.protocol, Db.setInventoryRevision, h]

@[simp] theorem protocol_setOperation (db : Db) (row : OperationRow) :
    (db.setOperation row).protocol =
      { db.protocol with operations := db.protocol.operations.set row.operationId row } := rfl

@[simp] theorem protocol_setBudget (db : Db) (s : Scope) (b : Budget) :
    (db.setBudget s b).protocol =
      { db.protocol with budget := Function.update db.protocol.budget s (some b) } := by
  have h : (db.budgets.set s b).get? = Function.update db.budgets.get? s (some b) := by
    funext j
    rw [JsMap.get?_set, Function.update_apply]
  simp only [Db.protocol, Db.setBudget, h]

@[simp] theorem protocol_setGeneration (db : Db) (i : Identity) (id : String) (g : GenerationRow) :
    (db.setGeneration i id g).protocol = db.protocol := rfl

@[simp] theorem protocol_emit (db : Db) (e : OutboxRow) :
    (db.emit e).protocol = { db.protocol with outbox := db.protocol.outbox ++ [e] } := rfl

@[simp] theorem protocol_swapGenerations (i : Identity) (active : String) (rollback : Option String)
    (receiptId : String) (db : Db) :
    (swapGenerations i active rollback receiptId db).protocol = db.protocol := by
  unfold swapGenerations
  cases rollback with
  | none => simp only; split <;> simp
  | some id => simp only; split <;> split <;> simp

@[simp] theorem protocol_disposeGenerations (i : Identity) (d : Disposition) (db : Db) :
    (disposeGenerations i d db).protocol = db.protocol := by
  unfold disposeGenerations
  split <;> rfl

@[simp] theorem protocol_retireGeneration (i : Identity) (id : String) (db : Db) :
    (retireGeneration i id db).protocol = db.protocol := by
  unfold retireGeneration
  split
  · split <;> simp
  · rfl

theorem protocol_releaseSlot (s : Scope) (db : Db) :
    (releaseSlot s db).protocol = { db.protocol with
      budget :=
        Function.update db.protocol.budget s ((db.protocol.budget s).map Budget.release) } := by
  have hp : db.protocol.budget s = db.budgets.get? s := rfl
  unfold releaseSlot
  split
  · rename_i h
    rw [hp, h, Option.map_none, ← h, ← hp, Function.update_eq_self]
  · rename_i b h
    rw [hp, h, protocol_setBudget]
    rfl

/-! ## Statements -/

/-- The row of an operation, while the bearer of `token` holds its lease at a reading of the
clock. -/
structure Holds (a : Ambient) (db : Db) (k : Nat) (id token : String) (row : OperationRow) :
    Prop where
  found : db.operations.get? id = some row
  held : row.leaseToken = token
  unexpired : a.clock k < row.leaseExpiresAt

variable {β : Type} {b : β}

theorem lockOperation_bind {k : Nat} {id token : String} {f : OperationRow → Tx β} :
    (lockOperation a k id token >>= f) db = .ok (b, db') ↔
      ∃ row, Holds a db k id token row ∧ f row db = .ok (b, db') := by
  simp only [lockOperation, bind_assoc, pure_bind, read_bind, require_bind, ensure_bind]
  constructor
  · rintro ⟨row, h, ⟨ht, hc⟩, hf⟩
    exact ⟨row, ⟨h, ht, hc⟩, hf⟩
  · rintro ⟨row, ⟨h, ht, hc⟩, hf⟩
    exact ⟨row, h, ⟨ht, hc⟩, hf⟩

theorem readOperationIdentity_bind {id : String} {f : OperationRow → Tx β} :
    (readOperationIdentity id >>= f) db = .ok (b, db') ↔
      ∃ row, db.operations.get? id = some row ∧ f row db = .ok (b, db') := by
  simp only [readOperationIdentity, bind_assoc, read_bind, require_bind]

theorem advanceInventoryRevision_bind {s : Scope} {f : Nat → Tx β} :
    (advanceInventoryRevision s >>= f) db = .ok (b, db') ↔
      ∃ n, db.inventoryRevisions.get? s = some n ∧
        f (n + 1) (db.setInventoryRevision s (n + 1)) = .ok (b, db') := by
  simp only [advanceInventoryRevision, bind_assoc, pure_bind, read_bind, require_bind, write_bind]

/-- The event of a transition, from the evidence that its schema accepts. -/
theorem writeTransitionEvidence_ok {row : OperationRow} {phase : OperationPhase}
    {authority : Option Authority} {revision inventoryRevision : Nat} {lifecycle : LifecycleState}
    {receipt : Option StaticDeploymentReceipt} {retained : Option Generation} {e : OutboxRow} :
    writeTransitionEvidence row phase authority revision inventoryRevision lifecycle receipt
        retained db = .ok (e, db') ↔
      ∃ evidence, transitionEvidence row (authority <|> row.authorityJson) receipt retained =
          .ok evidence ∧ evidence.schemaOk row.identity.deliveryClass ∧
        e = ⟨row.identity, revision, inventoryRevision,
          .lifecycle row.operationId row.operationKind phase lifecycle evidence⟩ ∧
        db' = db.emit e := by
  simp only [writeTransitionEvidence, lift_bind, ensure_bind, write_bind, tx_pure]
  constructor
  · rintro ⟨evidence, h, hs, rfl, rfl⟩
    exact ⟨evidence, h, hs, rfl, rfl⟩
  · rintro ⟨evidence, h, hs, rfl, rfl⟩
    exact ⟨evidence, h, hs, rfl, rfl⟩

theorem writeTransitionEvidence_bind {row : OperationRow} {phase : OperationPhase}
    {authority : Option Authority} {revision inventoryRevision : Nat} {lifecycle : LifecycleState}
    {receipt : Option StaticDeploymentReceipt} {retained : Option Generation}
    {f : OutboxRow → Tx β}
    (h : (writeTransitionEvidence row phase authority revision inventoryRevision lifecycle receipt
      retained >>= f) db = .ok (b, db')) :
    ∃ e, e.identity = row.identity ∧ e.revision = revision ∧
      e.inventoryRevision = inventoryRevision ∧ f e (db.emit e) = .ok (b, db') := by
  obtain ⟨e, _, he, hf⟩ := tx_bind.mp h
  obtain ⟨evidence, -, -, rfl, rfl⟩ := writeTransitionEvidence_ok.mp he
  exact ⟨_, rfl, rfl, rfl, hf⟩

/-- The row that an event of an operation leaves. -/
def ExtensionRow.advance (state : ExtensionRow) (operation : String) : ExtensionRow :=
  { state with revision := state.revision + 1, lastOperationId := some operation }

theorem appendTransition_ok {row : OperationRow} {phase : OperationPhase}
    {authority : Option Authority} {retained : Option Generation} {e : OutboxRow} :
    appendTransition row phase authority retained db = .ok (e, db') ↔
      ∃ state n evidence, db.extensions.get? row.identity = some state ∧
        db.inventoryRevisions.get? row.identity.scope = some n ∧
        transitionEvidence row (authority <|> row.authorityJson) none retained = .ok evidence ∧
        evidence.schemaOk row.identity.deliveryClass ∧
        e = ⟨row.identity, state.revision + 1, n + 1, .lifecycle row.operationId row.operationKind
          phase (lifecycleState phase) evidence⟩ ∧
        db' = ((db.setExtension row.identity (state.advance row.operationId)).setInventoryRevision
          row.identity.scope (n + 1)).emit e := by
  simp only [appendTransition, read_bind, require_bind, write_bind, advanceInventoryRevision_bind,
    writeTransitionEvidence_ok]
  constructor
  · rintro ⟨state, hs, n, hn, evidence, h, hok, he, hdb⟩
    exact ⟨state, n, evidence, hs, hn, h, hok, he, hdb⟩
  · rintro ⟨state, n, evidence, hs, hn, h, hok, he, hdb⟩
    exact ⟨state, hs, n, hn, evidence, h, hok, he, hdb⟩

/-- A completion finishes the operation it is given. -/
theorem completeOperation_bind {row : OperationRow} {receipt : ManagerReceipt} {f : Unit → Tx β}
    (h : (completeOperation a row receipt >>= f) db = .ok (b, db')) :
    ∃ row' d, row'.Continues row ∧ row'.phase = .completed ∧ row'.resultJson = some receipt ∧
      d.protocol = db.protocol.apply (.finish row row') ∧ f () d = .ok (b, db') := by
  simp only [completeOperation, releaseBudget, bind_assoc, ensure_bind, write_bind] at h
  obtain ⟨-, -, h⟩ := h
  refine ⟨{ row with
    phase := .completed
    resultJson := some receipt
    executionRequestDigest :=
      a.executionRequest.map (·.requestDigest) <|> row.executionRequestDigest }, _,
    ⟨rfl, rfl, rfl, rfl⟩, rfl, rfl, ?_, h⟩
  rw [protocol_releaseSlot]
  rfl

theorem projectAuthorizationLifecycle_bind {i : Identity} {f : Unit → Tx β}
    (h : (projectAuthorizationLifecycle host a i >>= f) db = .ok (b, db')) :
    f () db = .ok (b, db') := by
  rw [projectAuthorizationLifecycle, ensure_bind] at h
  exact h.2

/-! ## Moves -/

theorem run_one {p : Protocol} {m : Move} (h : p.enabled m) :
    Protocol.system.Run p [m] (p.apply m) := .cons ⟨h, rfl⟩ (.nil _)

theorem run_two {p : Protocol} {m m' : Move} (h : p.enabled m) (h' : (p.apply m).enabled m') :
    Protocol.system.Run p [m, m'] ((p.apply m).apply m') := .cons ⟨h, rfl⟩ (run_one h')

theorem appendTransition_move {row : OperationRow} {phase : OperationPhase}
    {authority : Option Authority} {retained : Option Generation} {e : OutboxRow}
    (h : appendTransition row phase authority retained db = .ok (e, db')) :
    ∃ state evidence, e.identity = row.identity ∧
      transitionEvidence row (authority <|> row.authorityJson) none retained = .ok evidence ∧
      evidence.schemaOk row.identity.deliveryClass ∧
      e.body = .lifecycle row.operationId row.operationKind phase (lifecycleState phase) evidence ∧
      db.protocol.enabled (.bump state (state.advance row.operationId) e) ∧
      db'.protocol = db.protocol.apply (.bump state (state.advance row.operationId) e) := by
  obtain ⟨state, n, evidence, hs, hn, hev, hok, rfl, rfl⟩ := appendTransition_ok.mp h
  refine ⟨state, evidence, rfl, hev, hok, rfl, ⟨hs, rfl, rfl, n, hn, rfl⟩, ?_⟩
  simp only [protocol_emit, protocol_setInventoryRevision, protocol_setExtension, Protocol.apply]

theorem done_of_completed {row : OperationRow} (h : row.phase = .completed) : row.live = false := by
  simp [OperationRow.live, h, terminal]

/-- A commit: the operation's extension changes with one event, and the operation finishes. -/
theorem commit_run {d : Db} {row row' : OperationRow} {state released : ExtensionRow}
    {e : OutboxRow} {n : Nat} (hrow : db.operations.get? row.operationId = some row)
    (hlive : row.live) (hc : row'.Continues row) (hdone : row'.phase = .completed)
    (hs : db.extensions.get? row.identity = some state)
    (hn : db.inventoryRevisions.get? row.identity.scope = some n)
    (hrev : released.revision = state.revision + 1) (hei : e.identity = row.identity)
    (her : e.revision = state.revision + 1) (hen : e.inventoryRevision = n + 1)
    (hp : d.protocol = Protocol.apply { db.protocol with
      inventory := Function.update db.protocol.inventory row.identity.scope (some (n + 1))
      extension := Function.update db.protocol.extension row.identity (some released)
      outbox := db.protocol.outbox ++ [e] } (.finish row row')) :
    Protocol.system.Run db.protocol [.bump state released e, .finish row row'] d.protocol := by
  have hbump : db.protocol.enabled (.bump state released e) :=
    ⟨hei ▸ hs, hrev, her.trans hrev.symm, n, hei ▸ hn, hen⟩
  have heq : d.protocol = (db.protocol.apply (.bump state released e)).apply (.finish row row') := by
    rw [hp]
    simp only [Protocol.apply, hei, hen]
  rw [heq]
  exact run_two hbump ⟨hrow, hlive, hc, done_of_completed hdone⟩

/-! ## Claims and plans -/

theorem get?_insertIfAbsent {κ ν : Type} [DecidableEq κ] (m : JsMap κ ν) (k k' : κ) (v : ν) :
    (insertIfAbsent m k v).get? k' = if k' = k then some ((m.get? k).getD v) else m.get? k' := by
  unfold insertIfAbsent
  cases h : m.get? k with
  | none =>
    simp only [Option.isSome_none, Bool.false_eq_true, if_false, JsMap.get?_set, Option.getD_none]
  | some w =>
    simp only [Option.isSome_some, if_true, Option.getD_some]
    split
    · rename_i hk; rw [hk, h]
    · rfl

theorem protocol_enroll (db : Db) (i : Identity) :
    ({ db with
      extensions := insertIfAbsent db.extensions i ExtensionRow.initial
      inventoryRevisions := insertIfAbsent db.inventoryRevisions i.scope 0 } : Db).protocol =
      db.protocol.apply (.enroll i) := by
  have h1 : (insertIfAbsent db.extensions i ExtensionRow.initial).get? = Function.update
      db.extensions.get? i (some ((db.extensions.get? i).getD ExtensionRow.initial)) := by
    funext j
    rw [get?_insertIfAbsent, Function.update_apply]
  have h2 : (insertIfAbsent db.inventoryRevisions i.scope 0).get? = Function.update
      db.inventoryRevisions.get? i.scope (some ((db.inventoryRevisions.get? i.scope).getD 0)) := by
    funext j
    rw [get?_insertIfAbsent, Function.update_apply]
  simp only [Db.protocol, h1, h2, Protocol.apply]

theorem claimFresh_move {request : ChangeRequest} {digest worker : String}
    {r : ClaimStatus × OperationRow}
    (h : claimFresh host a request digest worker db = .ok (r, db')) :
    r.2.identity = request.identity ∧ r.2.operationKind = request.operation ∧
      r.2.planJson = none ∧ r.2.authorityJson = none ∧
      db.protocol.enabled (.start r.2 host.maxConcurrentOperations) ∧
      db'.protocol = db.protocol.apply (.start r.2 host.maxConcurrentOperations) := by
  simp only [claimFresh, read_bind, require_bind, ensure_bind, write_bind, tx_pure] at h
  obtain ⟨state, hs, hrev, -, hown, hroom, hfresh, rfl, rfl⟩ := h
  refine ⟨rfl, rfl, rfl, rfl, ⟨rfl, Option.isNone_iff_eq_none.mp hfresh, ?_, ⟨state, hs, hrev⟩,
    hroom⟩, ?_⟩
  · intro id other ho hl hi
    refine hown (List.any_eq_true.mpr ⟨(id, other), JsMap.get?_eq_some.mp ho, ?_⟩)
    exact decide_eq_true ⟨hi, hl⟩
  · simp only [protocol_setOperation, protocol_setBudget]
    rfl

/-- A claim finds the operation it would start, or admits it. -/
theorem claimOperation_run {request : ChangeRequest} {digest worker : String}
    {r : ClaimStatus × OperationRow}
    (h : claimOperation host a request digest worker db = .ok (r, db')) :
    Protocol.system.Run db.protocol [.enroll request.identity] db'.protocol ∨
      r.2.identity = request.identity ∧ r.2.operationKind = request.operation ∧
      r.2.planJson = none ∧ r.2.authorityJson = none ∧
      Protocol.system.Run db.protocol
        [.enroll request.identity, .start r.2 host.maxConcurrentOperations] db'.protocol := by
  simp only [claimOperation, write_bind, read_bind] at h
  generalize hd : ({ db with
    extensions := insertIfAbsent db.extensions request.identity ExtensionRow.initial
    inventoryRevisions :=
      insertIfAbsent db.inventoryRevisions request.identity.scope 0 } : Db) = d at h
  have hp : d.protocol = db.protocol.apply (.enroll request.identity) := by
    rw [← hd, protocol_enroll]
  cases hr : replayOf d request with
  | some row =>
    simp only [hr, ensure_bind, tx_pure] at h
    obtain ⟨-, -, rfl⟩ := h
    rw [hp]
    exact .inl (run_one trivial)
  | none =>
    rw [hr] at h
    obtain ⟨hi, hk, hplan, hauth, he, hp'⟩ := claimFresh_move h
    rw [hp']
    rw [hp] at he ⊢
    exact .inr ⟨hi, hk, hplan, hauth, run_two trivial he⟩

/-- A resumed operation is leased to another worker when its lease has expired, or again to the
same one. -/
theorem resumeOperation_run (hk : db.protocol.Consistent) {id worker : String} {r : OperationRow}
    (h : resumeOperation host a id worker db = .ok (r, db')) :
    db' = db ∨ ∃ row, db.operations.get? id = some row ∧
      (row.leaseExpiresAt ≤ a.clock 0 ∨ row.leaseOwner = worker) ∧
      r = { row with
        leaseOwner := worker
        leaseToken := a.uuid 0
        leaseExpiresAt := a.clock 0 + host.leaseMs } ∧
      Protocol.system.Run db.protocol [.work row r] db'.protocol := by
  simp only [resumeOperation, readOperationIdentity_bind] at h
  obtain ⟨row, hrow, h⟩ := h
  by_cases ht : terminal row.phase
  · rw [if_pos ht, tx_pure] at h
    exact .inl h.2.symm
  · rw [if_neg ht] at h
    simp only [ensure_bind, write_bind, tx_pure] at h
    obtain ⟨hlease, rfl, rfl⟩ := h
    have hlive : row.live := by simpa [OperationRow.live] using ht
    have hid := hk.keyed id row hrow
    refine .inr ⟨row, hrow, hlease, rfl, ?_⟩
    rw [protocol_setOperation]
    exact run_one ⟨hid.symm ▸ hrow, hlive, ⟨rfl, rfl, rfl, rfl⟩, hlive⟩

/-- The row of an operation with its plan. -/
abbrev OperationRow.planned (row : OperationRow) (plan : PluginManagerPlan) : OperationRow :=
  { row with planJson := some plan }

/-- A saved plan follows the state it was made from, and opens the evidence of its operation
unless it is an impact report. -/
theorem savePlan_run (hk : db.protocol.Consistent) {id token : String} {plan : PluginManagerPlan}
    {r : OperationRow} (h : savePlan host a id token plan db = .ok (r, db'))
    (hlive : ∀ row state, Holds a db 0 id token row → db.extensions.get? row.identity = some state →
      state.revision = row.expectedRevision → row.live) :
    ∃ row state, Holds a db 0 id token row ∧ db.extensions.get? row.identity = some state ∧
      assertPlanIdentity host row plan state = .ok () ∧ r = row.planned plan ∧
      (Protocol.system.Run db.protocol [.work row (row.planned plan)] db'.protocol ∨
        ∃ e, e.identity = row.identity ∧ Protocol.system.Run db.protocol
          [.work row (row.planned plan), .bump state (state.advance row.operationId) e]
          db'.protocol) := by
  simp only [savePlan, lockOperation_bind, read_bind, require_bind, ensure_bind, lift_bind,
    write_bind] at h
  obtain ⟨row, hh, state, hs, hrev, _, hplan, h⟩ := h
  have hid := hk.keyed id row hh.found
  have hl := hlive row state hh hs hrev
  have he : db.protocol.enabled (.work row (row.planned plan)) :=
    ⟨hid.symm ▸ hh.found, hl, ⟨rfl, rfl, rfl, rfl⟩, hl⟩
  by_cases hi : plan.isImpactOnly
  · rw [if_pos hi, tx_pure] at h
    obtain ⟨rfl, rfl⟩ := h
    exact ⟨row, state, hh, hs, hplan, rfl, .inl (run_one he)⟩
  · rw [if_neg hi] at h
    simp only [ensure_bind] at h
    obtain ⟨-, h⟩ := h
    obtain ⟨e, _, hev, h⟩ := tx_bind.mp h
    obtain ⟨rfl, rfl⟩ := tx_pure.mp h
    obtain ⟨state', -, hei, -, -, -, henabled, hp⟩ := appendTransition_move hev
    -- the plan is written to another table, so the extension row is the one read before
    have hstate : state' = state := by
      have h1 : db.extensions.get? e.identity = some state' := henabled.1
      rw [hei, hs] at h1
      exact (Option.some.inj h1).symm
    subst hstate
    refine ⟨row, state', hh, hs, hplan, rfl, .inr ⟨e, hei, ?_⟩⟩
    rw [hp]
    exact run_two he henabled

/-- A preparation goes with the persisted plan of a planning operation. -/
theorem saveStaticPreparation_run (hk : db.protocol.Consistent) {id token : String}
    {plan : PluginManagerPlan} {r : OperationRow}
    (h : saveStaticPreparation a id token plan db = .ok (r, db')) :
    ∃ row previous, Holds a db 0 id token row ∧ row.planJson = some previous ∧
      previous.isLive = false ∧ plan.isLive = false ∧ r = row.planned plan ∧
      Protocol.system.Run db.protocol [.work row (row.planned plan)] db'.protocol := by
  simp only [saveStaticPreparation, lockOperation_bind, lift_bind, write_bind, tx_pure] at h
  obtain ⟨row, hh, _, hprep, rfl, rfl⟩ := h
  have hid := hk.keyed id row hh.found
  simp only [assertStaticPreparation] at hprep
  cases hprev : row.planJson with
  | none => rw [hprev] at hprep; cases hprep
  | some previous =>
    rw [hprev] at hprep
    simp only at hprep
    split at hprep
    · rename_i before recovery after recovery' hbefore hafter
      obtain ⟨_, hphase, -⟩ := bind_eq_ok.mp hprep
      have hl : row.live := by
        have : row.phase = .planning := (check_ok.mp hphase).1
        simp [OperationRow.live, this, terminal]
      refine ⟨row, previous, hh, hprev, by simp [PluginManagerPlan.isLive, hbefore],
        by simp [PluginManagerPlan.isLive, hafter], rfl, ?_⟩
      exact run_one ⟨hid.symm ▸ hh.found, hl, ⟨rfl, rfl, rfl, rfl⟩, hl⟩
    · cases hprep

/-! ## Phases -/

theorem live_of_transition {row : OperationRow} {phase : OperationPhase}
    (h : phase ∈ allowedTransitions row.phase) : row.live := by
  unfold OperationRow.live
  cases hp : row.phase <;> simp_all [allowedTransitions, terminal]

/-- A phase change is one event; into a terminal phase it finishes the operation. -/
theorem transition_run (hk : db.protocol.Consistent) {id token : String}
    {expected phase : OperationPhase} {authority : Option Authority} {r : OperationRow × OutboxRow}
    (h : transition a id token expected phase authority db = .ok (r, db')) :
    ∃ row state evidence, Holds a db 0 id token row ∧
      (∀ x ∈ authority, ownsAuthority row.identity x) ∧
      r.1 = { row with phase := phase, authorityJson := authority <|> row.authorityJson } ∧
      r.2.identity = row.identity ∧
      transitionEvidence r.1 r.1.authorityJson none none = .ok evidence ∧
      evidence.schemaOk row.identity.deliveryClass ∧
      (r.1.live ∧ Protocol.system.Run db.protocol
          [.work row r.1, .bump state (state.advance row.operationId) r.2] db'.protocol ∨
        r.1.live = false ∧ Protocol.system.Run db.protocol
          [.finish row r.1, .bump state (state.advance row.operationId) r.2] db'.protocol) := by
  simp only [transition, lockOperation_bind, ensure_bind, write_bind] at h
  obtain ⟨row, hh, -, -, hallowed, howns, h⟩ := h
  obtain ⟨e, db₁, hev, h⟩ := tx_bind.mp h
  obtain ⟨_, db₂, hrel, h⟩ := tx_bind.mp h
  obtain ⟨rfl, rfl⟩ := tx_pure.mp h
  have hid := hk.keyed id row hh.found
  have hl := live_of_transition hallowed
  obtain ⟨state, evidence, hei, hevidence, hok, -, henabled, hp⟩ := appendTransition_move hev
  refine ⟨row, state, evidence, hh, howns, rfl, hei, ?_, hok, ?_⟩
  · cases authority <;> exact hevidence
  · by_cases hterm : terminal phase
    · right
      simp only [releaseBudgetIfTerminal, if_pos hterm, releaseBudget, write_ok] at hrel
      have hdone : OperationRow.live
          { row with phase := phase, authorityJson := authority <|> row.authorityJson } = false := by
        simp [OperationRow.live, hterm]
      refine ⟨hdone, ?_⟩
      rw [hrel, protocol_releaseSlot, hp]
      exact run_two ⟨hid.symm ▸ hh.found, hl, ⟨rfl, rfl, rfl, rfl⟩, hdone⟩ henabled
    · left
      simp only [releaseBudgetIfTerminal, if_neg hterm, tx_pure] at hrel
      obtain ⟨-, rfl⟩ := hrel
      have hlive : OperationRow.live
          { row with phase := phase, authorityJson := authority <|> row.authorityJson } := by
        simp [OperationRow.live, hterm]
      refine ⟨hlive, ?_⟩
      rw [hp]
      exact run_two ⟨hid.symm ▸ hh.found, hl, ⟨rfl, rfl, rfl, rfl⟩, hlive⟩ henabled

/-! ## Live generations -/

theorem stageGeneration_run (hk : db.protocol.Consistent) {id token : String}
    {stage : StagedGenerationActivation} {r : OperationRow × OutboxRow}
    (h : stageGeneration host a id token stage db = .ok (r, db')) :
    ∃ row state, Holds a db 1 id token row ∧ r.1 = { row with phase := .warming } ∧
      r.2.identity = row.identity ∧ Protocol.system.Run db.protocol
        [.work row r.1, .bump state (state.advance row.operationId) r.2] db'.protocol := by
  simp only [stageGeneration, lockOperation_bind, lift_bind, read_bind, require_bind, ensure_bind,
    write_bind] at h
  obtain ⟨_, -, row, hh, _, -, _, -, hphase, _, -, _, -, -, -, h⟩ := h
  obtain ⟨e, db₁, hev, h⟩ := tx_bind.mp h
  simp only [write_bind, tx_pure] at h
  obtain ⟨rfl, rfl⟩ := h
  have hid := hk.keyed id row hh.found
  have hl : row.live := by simp [OperationRow.live, hphase, terminal]
  obtain ⟨state, -, hei, -, -, -, henabled, hp⟩ := appendTransition_move hev
  refine ⟨row, state, hh, rfl, hei, ?_⟩
  rw [protocol_setGeneration, hp]
  exact run_two ⟨hid.symm ▸ hh.found, hl, ⟨rfl, rfl, rfl, rfl⟩, rfl⟩ henabled

theorem refreshGenerationReadiness_run {id token : String} {stage : StagedGenerationActivation}
    {r : OperationRow} (h : refreshGenerationReadiness host a id token stage db = .ok (r, db')) :
    db'.protocol = db.protocol := by
  simp only [refreshGenerationReadiness, lockOperation_bind, lift_bind, read_bind, require_bind,
    ensure_bind, write_bind, tx_pure] at h
  obtain ⟨_, -, _, -, _, -, -, _, -, _, -, -, _, -, _, -, -, -, rfl⟩ := h
  rw [protocol_setGeneration]

theorem completedReceipt_ok {id : String} {expected : List OperationKind}
    {r : Option ManagerReceipt} (h : completedReceipt id expected db = .ok (r, db')) :
    db = db' ∧ ∀ receipt, r = some receipt → ∃ row, db.operations.get? id = some row ∧
      row.phase = .completed ∧ row.resultJson = some receipt ∧ row.operationKind ∈ expected := by
  simp only [completedReceipt, read_bind] at h
  cases hrow : db.operations.get? id with
  | none =>
    simp only [hrow, tx_pure] at h
    obtain ⟨rfl, rfl⟩ := h
    exact ⟨rfl, fun receipt hr => by cases hr⟩
  | some row =>
    simp only [hrow] at h
    by_cases hc : row.phase ≠ .completed
    · rw [if_pos hc, tx_pure] at h
      obtain ⟨rfl, rfl⟩ := h
      exact ⟨rfl, fun receipt hr => by cases hr⟩
    · rw [if_neg hc] at h
      simp only [require_bind, ensure_bind, tx_pure] at h
      obtain ⟨receipt, hres, ⟨hkind, -⟩, rfl, rfl⟩ := h
      refine ⟨rfl, fun receipt' hr => ⟨row, rfl, not_not.mp hc, ?_, hkind⟩⟩
      rw [hres, hr]

/-- The receipt of an operation that has completed. -/
def Replays (db : Db) (id : String) (r : ManagerReceipt) : Prop :=
  ∃ row, db.operations.get? id = some row ∧ row.phase = .completed ∧ row.resultJson = some r

/-- A transaction that first looks for the receipt of its operation returns it, or goes on. -/
theorem completedReceipt_cases {id : String} {expected : List OperationKind}
    {fresh : Tx ManagerReceipt} {r : ManagerReceipt}
    (h : (completedReceipt id expected >>= fun receipt => match receipt with
      | some receipt => pure receipt
      | none => fresh) db = .ok (r, db')) :
    (db' = db ∧ Replays db id r) ∨ fresh db = .ok (r, db') := by
  obtain ⟨receipt, _, hc, h⟩ := tx_bind.mp h
  obtain ⟨rfl, hreplay⟩ := completedReceipt_ok hc
  cases receipt with
  | none => exact .inr h
  | some receipt =>
    obtain ⟨rfl, rfl⟩ := tx_pure.mp h
    obtain ⟨row, hrow, hphase, hres, -⟩ := hreplay _ rfl
    exact .inl ⟨rfl, row, hrow, hphase, hres⟩

theorem activateGeneration_cases {id token : String} {r : ManagerReceipt}
    (h : activateGeneration host a id token db = .ok (r, db')) :
    (db' = db ∧ Replays db id r) ∨ activateFresh host a id token db = .ok (r, db') := by
  simp only [activateGeneration, readOperationIdentity_bind] at h
  obtain ⟨_, -, h⟩ := h
  exact completedReceipt_cases h

theorem enableGeneration_cases {id token : String} {r : ManagerReceipt}
    (h : enableGeneration host a id token db = .ok (r, db')) :
    (db' = db ∧ Replays db id r) ∨ enableFresh host a id token db = .ok (r, db') := by
  simp only [enableGeneration, readOperationIdentity_bind] at h
  obtain ⟨_, -, h⟩ := h
  exact completedReceipt_cases h

theorem rollbackGeneration_cases {id token : String} {stage : StagedGenerationActivation}
    {r : ManagerReceipt} (h : rollbackGeneration host a id token stage db = .ok (r, db')) :
    (db' = db ∧ Replays db id r) ∨ rollbackFresh host a id token stage db = .ok (r, db') := by
  simp only [rollbackGeneration, lift_bind, readOperationIdentity_bind] at h
  obtain ⟨_, -, _, -, _, -, h⟩ := h
  exact completedReceipt_cases h

theorem changeDisposition_cases {id token : String} {kind : OperationKind}
    {disposition : Disposition} {r : ManagerReceipt}
    (h : changeDisposition host a id token kind disposition db = .ok (r, db')) :
    (db' = db ∧ Replays db id r) ∨
      changeFresh host a id token kind disposition db = .ok (r, db') := by
  simp only [changeDisposition, readOperationIdentity_bind, ensure_bind] at h
  obtain ⟨_, -, -, h⟩ := h
  exact completedReceipt_cases h

/-- An activation points the extension at the staged generation. -/
theorem activateFresh_run (hk : db.protocol.Consistent) {id token : String} {r : ManagerReceipt}
    (h : activateFresh host a id token db = .ok (r, db')) :
    ∃ row row' authority state g compatibility generation event receipt,
      Holds a db 0 id token row ∧ row.phase = .warming ∧ row.authorityJson = some authority ∧
      db.extensions.get? row.identity = some state ∧
      db.generations.get? (row.identity, authority.generationId) = some g ∧
      g.compatibilityJson = some compatibility ∧
      generation.generationId = authority.generationId ∧ event.identity = row.identity ∧
      row'.phase = .completed ∧ row'.resultJson = some r ∧ r = .activation receipt ∧
      receipt.operationId = row.operationId ∧
      receipt.rollback = rollbackReport compatibility (rollbackAvailable state compatibility) ∧
      Protocol.system.Run db.protocol
        [.bump state (activatedRow state authority.generationId generation compatibility
          row.operationId) event, .finish row row'] db'.protocol := by
  simp only [activateFresh, lockOperation_bind, lift_bind, read_bind, require_bind, ensure_bind,
    write_bind, advanceInventoryRevision_bind] at h
  obtain ⟨row, hh, _, -, authority, hauth, ⟨hphase, -⟩, _, -, state, hs, g, hg, -, _, -, -,
    compatibility, hc, -, n, hn, -, h⟩ := h
  obtain ⟨e, hei, her, hen, h⟩ := writeTransitionEvidence_bind h
  obtain ⟨row', d, hcont, hdone, hres, hp, h⟩ :=
    completeOperation_bind (projectAuthorizationLifecycle_bind h)
  obtain ⟨rfl, rfl⟩ := tx_pure.mp h
  have hid := hk.keyed id row hh.found
  have hl : row.live := by simp [OperationRow.live, hphase, terminal]
  refine ⟨row, row', authority, state, g, compatibility, bundleGenerationEvidence
    authority.generationId g (evidenceReceiptId row (state.revision + 1)), e, _, hh, hphase, hauth,
    hs, hg, hc, rfl, hei, hdone, hres, rfl, rfl, rfl, ?_⟩
  simp only [protocol_emit, protocol_swapGenerations, protocol_setExtension,
    protocol_setInventoryRevision] at hp
  exact commit_run (hid.symm ▸ hh.found) hl hcont hdone hs hn rfl hei her hen hp

theorem enableFresh_run (hk : db.protocol.Consistent) {id token : String} {r : ManagerReceipt}
    (h : enableFresh host a id token db = .ok (r, db')) :
    ∃ row row' state generation retained event receipt,
      Holds a db 0 id token row ∧ db.extensions.get? row.identity = some state ∧
      state.retainedGeneration = some generation ∧
      staticRetainedGeneration host generation host.hostInventoryDigest = .ok retained ∧
      event.identity = row.identity ∧ row'.phase = .completed ∧ row'.resultJson = some r ∧
      r = .enable receipt ∧
      Protocol.system.Run db.protocol
        [.bump state (enabledRow state retained.generation.generationId generation row.operationId)
          event, .finish row row'] db'.protocol := by
  simp only [enableFresh, lockOperation_bind, lift_bind, read_bind, require_bind, ensure_bind,
    write_bind, advanceInventoryRevision_bind] at h
  obtain ⟨row, hh, _, -, _, -, ⟨hphase, -⟩, state, hs, generation, hgen, -, retained, hret, -, n, hn,
    h⟩ := h
  obtain ⟨e, hei, her, hen, h⟩ := writeTransitionEvidence_bind h
  obtain ⟨row', d, hcont, hdone, hres, hp, h⟩ :=
    completeOperation_bind (projectAuthorizationLifecycle_bind h)
  obtain ⟨rfl, rfl⟩ := tx_pure.mp h
  have hid := hk.keyed id row hh.found
  have hl : row.live := by simp [OperationRow.live, hphase, terminal]
  refine ⟨row, row', state, generation, retained, e, _, hh, hs, hgen, hret, hei, hdone, hres, rfl,
    ?_⟩
  simp only [protocol_emit, protocol_swapGenerations, protocol_setExtension,
    protocol_setInventoryRevision] at hp
  exact commit_run (hid.symm ▸ hh.found) hl hcont hdone hs hn rfl hei her hen hp

theorem rollbackFresh_run (hk : db.protocol.Consistent) {id token : String}
    {stage : StagedGenerationActivation} {r : ManagerReceipt}
    (h : rollbackFresh host a id token stage db = .ok (r, db')) :
    ∃ row row' state targetId target activeId active event receipt,
      Holds a db 1 id token row ∧ db.extensions.get? row.identity = some state ∧
      state.activeGenerationId = some activeId ∧ state.activeGeneration = some active ∧
      state.rollbackGenerationId = some targetId ∧ target.generationId = targetId ∧
      event.identity = row.identity ∧ row'.phase = .completed ∧ row'.resultJson = some r ∧
      r = .activation receipt ∧ receipt.operationId = row.operationId ∧
      Protocol.system.Run db.protocol
        [.bump state (rolledBackRow state targetId target activeId active row.operationId) event,
          .finish row row'] db'.protocol := by
  simp only [rollbackFresh, lockOperation_bind, lift_bind, read_bind, require_bind, ensure_bind,
    write_bind, advanceInventoryRevision_bind] at h
  obtain ⟨row, hh, _, -, ⟨hphase, -⟩, _, -, _, -, state, hs, -, -, _, -, activeId, hactiveId, active,
    hactive, targetId, htargetId, -, target, -, _, -, _, -, -, -, -, n, hn, h⟩ := h
  obtain ⟨e, hei, her, hen, h⟩ := writeTransitionEvidence_bind h
  obtain ⟨row', d, hcont, hdone, hres, hp, h⟩ :=
    completeOperation_bind (projectAuthorizationLifecycle_bind h)
  obtain ⟨rfl, rfl⟩ := tx_pure.mp h
  have hid := hk.keyed id row hh.found
  have hl : row.live := by simp [OperationRow.live, hphase, terminal]
  refine ⟨row, row', state, targetId, bundleGenerationEvidence targetId target
    (evidenceReceiptId row (state.revision + 1)), activeId, active, e, _, hh, hs,
    hactiveId, hactive, htargetId, rfl, hei, hdone, hres, rfl, rfl, ?_⟩
  simp only [protocol_emit, protocol_swapGenerations, protocol_setExtension,
    protocol_setInventoryRevision, protocol_setGeneration] at hp
  exact commit_run (hid.symm ▸ hh.found) hl hcont hdone hs hn rfl hei her hen hp

/-! ## Disable, uninstall and quarantine -/

theorem changeFresh_run (hk : db.protocol.Consistent) {id token : String} {kind : OperationKind}
    {disposition : Disposition} {r : ManagerReceipt}
    (h : changeFresh host a id token kind disposition db = .ok (r, db')) :
    ∃ row row' state event receipt,
      Holds a db 0 id token row ∧ db.extensions.get? row.identity = some state ∧
      event.identity = row.identity ∧ row'.phase = .completed ∧ row'.resultJson = some r ∧
      r = .disposition receipt ∧
      Protocol.system.Run db.protocol
        [.bump state (disposedRow state disposition row.operationId) event, .finish row row']
        db'.protocol := by
  simp only [changeFresh, lockOperation_bind, read_bind, require_bind, ensure_bind,
    write_bind, advanceInventoryRevision_bind] at h
  obtain ⟨row, hh, _, -, ⟨hphase, -⟩, -, state, hs, -, -, -, -, n, hn, h⟩ := h
  obtain ⟨e, hei, her, hen, h⟩ := writeTransitionEvidence_bind h
  obtain ⟨row', d, hcont, hdone, hres, hp, h⟩ :=
    completeOperation_bind (projectAuthorizationLifecycle_bind (ensure_bind.mp h).2)
  obtain ⟨rfl, rfl⟩ := tx_pure.mp h
  have hid := hk.keyed id row hh.found
  have hl : row.live := by simp [OperationRow.live, hphase, terminal]
  refine ⟨row, row', state, e, _, hh, hs, hei, hdone, hres, rfl, ?_⟩
  simp only [protocol_emit, protocol_disposeGenerations, protocol_setExtension,
    protocol_setInventoryRevision] at hp
  exact commit_run (hid.symm ▸ hh.found) hl hcont hdone hs hn rfl hei her hen hp

/-- A quarantine changes its extension outside any operation. -/
theorem quarantine_run {i : Identity} {state : ExtensionRow}
    {generationId transitionId receiptId digest : String} {body : EventBody} {r : QuarantineReceipt}
    (hs : db.extensions.get? i = some state)
    (h : quarantine a i state generationId transitionId receiptId digest body db = .ok (r, db')) :
    ∃ event, event.identity = i ∧ Protocol.system.Run db.protocol
      [.bump state (quarantinedRow state transitionId) event] db'.protocol := by
  simp only [quarantine, write_bind, tx_pure, advanceInventoryRevision_bind] at h
  obtain ⟨n, hn, rfl, rfl⟩ := h
  refine ⟨⟨i, state.revision + 1, n + 1, body⟩, rfl, ?_⟩
  have hp : ∀ (d : Db) q, ({ d with quarantineReceipts := q } : Db).protocol = d.protocol :=
    fun _ _ => rfl
  simp only [protocol_emit, hp, protocol_retireGeneration, protocol_setExtension,
    protocol_setInventoryRevision]
  exact run_one ⟨hs, rfl, rfl, n, hn, rfl⟩

theorem quarantineActiveGeneration_run {input : SecurityQuarantineInput} {digest : String}
    {r : QuarantineReceipt} (h : quarantineActiveGeneration host a input digest db = .ok (r, db')) :
    db' = db ∨ ∃ state transitionId event, event.identity = input.identity ∧
      state.disposition = .active ∧ Protocol.system.Run db.protocol
        [.bump state (quarantinedRow state transitionId) event] db'.protocol := by
  simp only [quarantineActiveGeneration, ensure_bind, read_bind] at h
  obtain ⟨-, h⟩ := h
  cases hq : db.quarantineReceipts.get? digest with
  | some receipt =>
    simp only [hq, tx_pure] at h
    exact .inl h.2.symm
  | none =>
    simp only [hq, require_bind, ensure_bind] at h
    obtain ⟨state, hs, -, _, -, ⟨hd, -⟩, -, h⟩ := h
    obtain ⟨receipt, d, hrun, h⟩ := tx_bind.mp h
    have h := projectAuthorizationLifecycle_bind h
    obtain ⟨rfl, rfl⟩ := tx_pure.mp h
    obtain ⟨event, hi, hr⟩ := quarantine_run hs hrun
    exact .inr ⟨state, _, event, hi, hd, hr⟩

theorem quarantineRunnerGeneration_run {input : RunnerQuarantineInput} {digest : String}
    {r : QuarantineReceipt} (h : quarantineRunnerGeneration host a input digest db = .ok (r, db')) :
    db' = db ∨ ∃ state transitionId event, event.identity = input.identity ∧
      state.disposition = .active ∧ Protocol.system.Run db.protocol
        [.bump state (quarantinedRow state transitionId) event] db'.protocol := by
  simp only [quarantineRunnerGeneration, ensure_bind, read_bind] at h
  obtain ⟨-, h⟩ := h
  cases hq : db.quarantineReceipts.get? digest with
  | some receipt =>
    simp only [hq, tx_pure] at h
    exact .inl h.2.symm
  | none =>
    simp only [hq, require_bind, ensure_bind, lift_bind] at h
    obtain ⟨state, hs, -, _, -, ⟨hd, -⟩, _, -, -, _, -, -, h⟩ := h
    obtain ⟨receipt, d, hrun, h⟩ := tx_bind.mp h
    have h := projectAuthorizationLifecycle_bind h
    obtain ⟨rfl, rfl⟩ := tx_pure.mp h
    obtain ⟨event, hi, hr⟩ := quarantine_run hs hrun
    exact .inr ⟨state, _, event, hi, hd, hr⟩

/-! ## Static releases -/

theorem rebindOne_run {receipt : StaticDeploymentReceipt} {i : Identity} {u : Unit}
    (h : rebindOne receipt i db = .ok (u, db')) :
    ∃ state g event, event.identity = i ∧
      sharedGeneration receipt.previousGenerationId state = some g ∧
      Protocol.system.Run db.protocol [.bump state (reboundRow state g receipt) event]
        db'.protocol := by
  simp only [rebindOne, read_bind, require_bind, advanceInventoryRevision_bind, write_bind,
    write_ok] at h
  obtain ⟨state, hs, g, hg, n, hn, rfl⟩ := h
  refine ⟨state, g, ⟨i, state.revision + 1, n + 1, .sharedStaticRebind receipt.receiptId
    receipt.previousGenerationId receipt.activeGenerationId⟩, rfl, hg, ?_⟩
  simp only [protocol_emit, protocol_setExtension, protocol_setInventoryRevision]
  exact run_one ⟨hs, rfl, rfl, n, hn, rfl⟩

/-- The move of one rebind. -/
def Rebinds (receipt : StaticDeploymentReceipt) (m : Move) : Prop :=
  ∃ state g event, m = .bump state (reboundRow state g receipt) event ∧
    sharedGeneration receipt.previousGenerationId state = some g

theorem rebindAll_run {receipt : StaticDeploymentReceipt} {is : List Identity} {u : Unit}
    (h : rebindAll receipt is db = .ok (u, db')) :
    ∃ ms, Protocol.system.Run db.protocol ms db'.protocol ∧
      (Protocol.events ms).map (·.identity) = is ∧ ∀ m ∈ ms, Rebinds receipt m := by
  induction is generalizing db with
  | nil =>
    obtain ⟨-, rfl⟩ := tx_pure.mp h
    exact ⟨[], .nil _, rfl, fun m hm => by cases hm⟩
  | cons i is ih =>
    obtain ⟨_, db₁, h₁, h₂⟩ := tx_bind.mp h
    obtain ⟨state, g, event, hi, hg, hr⟩ := rebindOne_run h₁
    obtain ⟨ms, hrs, hids, hall⟩ := ih h₂
    refine ⟨_ :: ms, hr.append hrs, ?_, ?_⟩
    · rw [Protocol.events_cons, List.map_append, hids]
      simp only [Protocol.event, Option.toList_some, List.map_cons, List.map_nil, hi,
        List.singleton_append]
    · intro m hm
      rcases List.mem_cons.mp hm with rfl | hm
      · exact ⟨state, g, event, rfl, hg⟩
      · exact hall m hm

theorem mem_rebindTargets {db : Db} {s : Scope} {excluded i : Identity} :
    i ∈ rebindTargets db s excluded ↔ i.scope = s ∧ i.deliveryClass = .platformPlugin ∧
      i ≠ excluded ∧ ∃ row, db.extensions.get? i = some row ∧ row.disposition = .active ∧
        ∃ o ∈ row.lastOperationId, ∃ r ∈ db.operations.get? o, r.identity = i := by
  rw [rebindTargets, mem_sortBy, List.mem_map]
  constructor
  · rintro ⟨⟨j, row⟩, he, rfl⟩
    obtain ⟨hmem, hcond⟩ := List.mem_filter.mp he
    obtain ⟨h1, h2, h3, h4, h5⟩ := of_decide_eq_true hcond
    exact ⟨h1, h2, h4, row, JsMap.get?_eq_some.mpr hmem, h3, h5⟩
  · rintro ⟨h1, h2, h4, row, hrow, h3, h5⟩
    refine ⟨(i, row), List.mem_filter.mpr ⟨JsMap.get?_eq_some.mp hrow, ?_⟩, rfl⟩
    exact decide_eq_true ⟨h1, h2, h3, h4, h5⟩

theorem rebindTargets_nodup (db : Db) (s : Scope) (i : Identity) : (rebindTargets db s i).Nodup := by
  rw [rebindTargets, (sortBy_perm_self _ _).nodup_iff]
  exact (List.filter_sublist.map Prod.fst).nodup db.extensions.nodup

theorem not_mem_rebindTargets (db : Db) (s : Scope) (i : Identity) : i ∉ rebindTargets db s i :=
  fun h => (mem_rebindTargets.mp h).2.2.1 rfl

/-- The completion writes no row that the rebind looks at. -/
theorem mem_rebindTargets_setExtension {db d : Db} {s : Scope} {i j : Identity}
    {row : ExtensionRow} (he : d.extensions = db.extensions.set i row)
    (ho : d.operations = db.operations) :
    j ∈ rebindTargets d s i ↔ j ∈ rebindTargets db s i := by
  rw [mem_rebindTargets, mem_rebindTargets, he, ho]
  constructor
  · rintro ⟨h1, h2, h3, row', hrow, h4⟩
    rw [JsMap.get?_set_ne _ _ h3] at hrow
    exact ⟨h1, h2, h3, row', hrow, h4⟩
  · rintro ⟨h1, h2, h3, row', hrow, h4⟩
    exact ⟨h1, h2, h3, row', by rw [JsMap.get?_set_ne _ _ h3]; exact hrow, h4⟩

/-- A static completion moves its own extension to the deployed generation, then the Platform
Plugins that shared the previous one. -/
theorem completeStaticFresh_run (hk : db.protocol.Consistent) {id token : String}
    {receipt r : StaticDeploymentReceipt}
    (h : completeStaticFresh host a id token receipt db = .ok (r, db')) :
    ∃ row row' plan change state event ms,
      Holds a db 0 id token row ∧ row.live ∧ row.identity.deliveryClass = .platformPlugin ∧
      row.planJson = some plan ∧ plan.preparedChange = some change ∧ receiptMatches row plan change receipt ∧
      db.extensions.get? row.identity = some state ∧
      assertPlanIdentity host row plan state = .ok () ∧ event.identity = row.identity ∧
      (row.identity :: (Protocol.events ms).map (·.identity)).Nodup ∧
      (∀ m ∈ ms, Rebinds receipt m) ∧
      (∀ i, i ∈ (Protocol.events ms).map (·.identity) ↔
        i ∈ rebindTargets db row.identity.scope row.identity) ∧
      Protocol.system.Run db.protocol
        (.bump state (releasedRow row plan state receipt) event :: (ms ++ [.finish row row']))
        db'.protocol := by
  simp only [completeStaticFresh, lockOperation_bind, lift_bind, read_bind, require_bind,
    ensure_bind, write_bind, advanceInventoryRevision_bind] at h
  obtain ⟨row, hh, plan, hplan, change, hchange, ⟨hclass, hphase⟩, hmatch, state, hs, _, hident, n,
    hn, h⟩ := h
  obtain ⟨e, hei, her, hen, h⟩ := writeTransitionEvidence_bind h
  obtain ⟨-, h⟩ := ensure_bind.mp h
  obtain ⟨_, db₁, hrebind, h⟩ := tx_bind.mp h
  obtain ⟨-, h⟩ := ensure_bind.mp h
  obtain ⟨row', d, hcont, hdone, hres, hp, h⟩ :=
    completeOperation_bind (projectAuthorizationLifecycle_bind h)
  obtain ⟨-, rfl⟩ := tx_pure.mp h
  simp only [rebind, read_bind, ensure_bind, require_bind] at hrebind
  obtain ⟨-, _, -, -, -, hrebind⟩ := hrebind
  obtain ⟨ms, hrs, hids, hall⟩ := rebindAll_run hrebind
  have hid := hk.keyed id row hh.found
  have hl : row.live := by
    simp only [List.mem_cons, List.not_mem_nil, or_false] at hphase
    rcases hphase with hp | hp | hp | hp <;> simp [OperationRow.live, hp, terminal]
  refine ⟨row, row', plan, change, state, e, ms, hh, hl, hclass, hplan, hchange, hmatch, hs, hident,
    hei, ?_, hall, fun i => ?_, ?_⟩
  · rw [hids, List.nodup_cons]
    exact ⟨not_mem_rebindTargets _ _ _, rebindTargets_nodup _ _ _⟩
  · rw [hids]
    exact mem_rebindTargets_setExtension rfl rfl
  · have hbump : db.protocol.enabled (.bump state (releasedRow row plan state receipt) e) :=
      ⟨hei ▸ hs, rfl, her, n, hei ▸ hn, hen⟩
    simp only [protocol_emit, protocol_setExtension, protocol_setInventoryRevision] at hrs
    have happly : db.protocol.apply (.bump state (releasedRow row plan state receipt) e) =
        { db.protocol with
          inventory := Function.update db.protocol.inventory row.identity.scope (some (n + 1))
          extension := Function.update db.protocol.extension row.identity
            (some (releasedRow row plan state receipt))
          outbox := db.protocol.outbox ++ [e] } := by
      simp only [Protocol.apply, hei, hen]
    -- the rebinds write no operation
    obtain ⟨row₁, hrow₁⟩ := Protocol.run_operation hrs hh.found
    have hsame : row₁ = row := by
      rcases Protocol.run_change hrs hh.found hrow₁ with heq | ⟨-, m, hm, after, hchange⟩
      · exact heq
      · obtain ⟨_, _, _, rfl, -⟩ := hall m hm
        cases hchange
    rw [hsame, ← hid] at hrow₁
    refine .cons ⟨hbump, rfl⟩ ?_
    rw [happly, hp]
    exact hrs.append (run_one ⟨hrow₁, hl, hcont, done_of_completed hdone⟩)

theorem completeStaticRelease_cases {id token : String} {receipt r : StaticDeploymentReceipt}
    (h : completeStaticRelease host a id token receipt db = .ok (r, db')) :
    (db' = db ∧ ∃ row, db.operations.get? id = some row ∧ row.phase = .completed) ∨
      completeStaticFresh host a id token receipt db = .ok (r, db') := by
  simp only [completeStaticRelease, readOperationIdentity_bind, ensure_bind] at h
  obtain ⟨row, hrow, -, h⟩ := h
  by_cases hc : row.phase = .completed
  · rw [if_pos hc, ensure_bind, tx_pure] at h
    exact .inl ⟨h.2.2.symm, row, hrow, hc⟩
  · rw [if_neg hc] at h
    exact .inr h

/-! ## Expired operations -/

/-- A candidate is passed over, or its operation fails: alone, or with the event of its failure. -/
theorem reconcileOne_run (hk : db.protocol.Consistent) {now k : Nat} {token : String}
    {candidate : OperationRow} (h : reconcileOne a now token candidate db = .ok (k, db')) :
    db' = db ∨ ∃ row, db.operations.get? candidate.operationId = some row ∧ row.live ∧
      row.leaseExpiresAt ≤ now ∧
      db'.operations = db.operations.set row.operationId (failedRow row token now) ∧
      (Protocol.system.Run db.protocol [.finish row (failedRow row token now)] db'.protocol ∨
        ∃ state e, e.identity = row.identity ∧ Protocol.system.Run db.protocol
          [.finish row (failedRow row token now), .bump state (state.advance row.operationId) e]
          db'.protocol) := by
  unfold reconcileOne at h
  by_cases hlock : a.lockHeld candidate.identity
  · rw [if_pos hlock, tx_pure] at h
    exact .inl h.2.symm
  rw [if_neg hlock, read_bind] at h
  cases hrow : db.operations.get? candidate.operationId with
  | none =>
    simp only [hrow, tx_pure] at h
    exact .inl h.2.symm
  | some row =>
    simp only [hrow] at h
    by_cases hskip : terminal row.phase ∨ now < row.leaseExpiresAt
    · rw [if_pos hskip, tx_pure] at h
      exact .inl h.2.symm
    rw [if_neg hskip, write_bind] at h
    obtain ⟨hterm, hlease⟩ := not_or.mp hskip
    have hl : row.live := by simpa [OperationRow.live] using hterm
    have hid := hk.keyed _ row hrow
    have hfinish : db.protocol.enabled (.finish row (failedRow row token now)) :=
      ⟨hid.symm ▸ hrow, hl, ⟨rfl, rfl, rfl, rfl⟩, rfl⟩
    obtain ⟨_, db₁, hrec, h⟩ := tx_bind.mp h
    simp only [releaseBudget, write_bind, tx_pure] at h
    obtain ⟨-, rfl⟩ := h
    refine .inr ⟨row, rfl, hl, Nat.le_of_not_lt hlease, ?_⟩
    have halone : db₁ = db.setOperation (failedRow row token now) →
        (releaseSlot row.identity.scope db₁).operations =
          db.operations.set row.operationId (failedRow row token now) ∧
        Protocol.system.Run db.protocol [.finish row (failedRow row token now)]
          (releaseSlot row.identity.scope db₁).protocol := by
      rintro rfl
      have hp := protocol_releaseSlot row.identity.scope
        (db.setOperation (failedRow row token now))
      refine ⟨congrArg Protocol.operations hp, ?_⟩
      rw [hp]
      exact run_one hfinish
    unfold recordFailure at hrec
    cases hplan : (failedRow row token now).planJson with
    | none =>
      rw [hplan] at hrec
      obtain ⟨-, rfl⟩ := tx_pure.mp hrec
      exact ⟨(halone rfl).1, .inl (halone rfl).2⟩
    | some plan =>
      simp only [hplan] at hrec
      by_cases hi : plan.isImpactOnly
      · rw [if_pos hi] at hrec
        obtain ⟨-, rfl⟩ := tx_pure.mp hrec
        exact ⟨(halone rfl).1, .inl (halone rfl).2⟩
      · rw [if_neg hi] at hrec
        obtain ⟨e, d, hev, hrec⟩ := tx_bind.mp hrec
        obtain ⟨-, rfl⟩ := tx_pure.mp hrec
        obtain ⟨state, -, hei, -, -, -, henabled, hp⟩ := appendTransition_move hev
        have hp' := protocol_releaseSlot row.identity.scope d
        rw [hp] at hp'
        refine ⟨congrArg Protocol.operations hp', .inr ⟨state, e, hei, ?_⟩⟩
        rw [hp']
        exact run_two hfinish henabled

/-- The moves of a reconciliation: the failure of an operation that ran in `db` and had expired,
or the event of such a failure. -/
def Reclaims (db : Db) (now : Nat) (ids : List String) (ms : List Move) (m : Move) : Prop :=
  (∃ row token, m = .finish row (failedRow row token now) ∧ row.leaseExpiresAt ≤ now ∧
    row.operationId ∈ ids ∧ db.operations.get? row.operationId = some row ∧ row.live) ∨
  ∃ state operation event row token, m = .bump state (state.advance operation) event ∧
    .finish row (failedRow row token now) ∈ ms ∧ event.identity = row.identity

theorem Reclaims.mono {now : Nat} {ids ids' : List String} {ms ms' : List Move} {m : Move}
    (h : Reclaims db now ids ms m) (hi : ∀ id ∈ ids, id ∈ ids') (hm : ∀ m ∈ ms, m ∈ ms') :
    Reclaims db now ids' ms' m := by
  rcases h with ⟨row, token, rfl, hlease, hmem, hrow⟩ | ⟨state, op, e, row, token, rfl, hf, hei⟩
  · exact .inl ⟨row, token, rfl, hlease, hi _ hmem, hrow⟩
  · exact .inr ⟨state, op, e, row, token, rfl, hm _ hf, hei⟩

/-- The moves of one candidate: none, or those of its failure. -/
theorem reconcileOne_moves (hk : db.protocol.Consistent) {now k : Nat} {token : String}
    {candidate : OperationRow} (h : reconcileOne a now token candidate db = .ok (k, db')) :
    db' = db ∨ ∃ row ms, row.operationId = candidate.operationId ∧
      db.operations.get? row.operationId = some row ∧ row.live ∧
      db'.operations = db.operations.set row.operationId (failedRow row token now) ∧
      Protocol.system.Run db.protocol ms db'.protocol ∧
      Protocol.written ms = [row.operationId] ∧
      (∀ e ∈ Protocol.events ms, e.identity = row.identity) ∧
      ((Protocol.events ms).map (·.identity)).Nodup ∧
      ∀ m ∈ ms, Reclaims db now [candidate.operationId] ms m := by
  rcases reconcileOne_run hk h with heq | ⟨row, hrow, hl, hlease, hops, hruns⟩
  · exact .inl heq
  right
  have hid := hk.keyed _ row hrow
  have hrow' : db.operations.get? row.operationId = some row := hid.symm ▸ hrow
  have hfinish : ∀ ms, Reclaims db now [candidate.operationId] ms
      (.finish row (failedRow row token now)) := fun ms =>
    .inl ⟨row, token, rfl, hlease, by simp [hid], hrow', hl⟩
  rcases hruns with hr | ⟨state, e, hei, hr⟩
  · refine ⟨row, _, hid, hrow', hl, hops, hr, rfl, fun e he => ?_, List.nodup_nil, fun m hm => ?_⟩
    · cases he
    · obtain rfl := List.mem_singleton.mp hm
      exact hfinish _
  · refine ⟨row, _, hid, hrow', hl, hops, hr, rfl, fun e' he => ?_, List.nodup_singleton _,
      fun m hm => ?_⟩
    · obtain rfl := List.mem_singleton.mp he
      exact hei
    · rcases List.mem_cons.mp hm with rfl | hm
      · exact hfinish _
      · obtain rfl := List.mem_singleton.mp hm
        exact .inr ⟨state, _, e, row, _, rfl, List.mem_cons_self, hei⟩

theorem reconcileAll_run {now : Nat} {candidates : List OperationRow} {first k : Nat}
    (hk : db.protocol.Consistent) (hn : (candidates.map (·.operationId)).Nodup)
    (h : reconcileAll a now first candidates db = .ok (k, db')) :
    ∃ ms, Protocol.system.Run db.protocol ms db'.protocol ∧ (Protocol.written ms).Nodup ∧
      ((Protocol.events ms).map (·.identity)).Nodup ∧
      ∀ m ∈ ms, Reclaims db now (candidates.map (·.operationId)) ms m := by
  induction candidates generalizing db first k with
  | nil =>
    obtain ⟨-, rfl⟩ := tx_pure.mp h
    exact ⟨[], .nil _, List.nodup_nil, List.nodup_nil, fun m hm => by cases hm⟩
  | cons candidate rest ih =>
    obtain ⟨_, db₁, h₁, h⟩ := tx_bind.mp h
    obtain ⟨_, db₂, h₂, h⟩ := tx_bind.mp h
    obtain ⟨-, rfl⟩ := tx_pure.mp h
    rw [List.map_cons, List.nodup_cons] at hn
    rcases reconcileOne_moves hk h₁ with rfl | ⟨row, ms₁, hid, hrow, hl, hops, hr₁, hw₁, he₁,
      hnodup₁, hall₁⟩
    · obtain ⟨ms, hr, hw, he, hall⟩ := ih hk hn.2 h₂
      exact ⟨ms, hr, hw, he, fun m hm =>
        (hall m hm).mono (fun id => List.mem_cons_of_mem _) fun _ => id⟩
    obtain ⟨ms₂, hr₂, hw₂, he₂, hall₂⟩ := ih (Protocol.consistent.run hr₁ hk) hn.2 h₂
    -- the later candidates are other operations, which this one left alone
    have hother : ∀ row' token, .finish row' (failedRow row' token now) ∈ ms₂ →
        row'.operationId ∈ rest.map (·.operationId) ∧ row'.operationId ≠ row.operationId ∧
        db.operations.get? row'.operationId = some row' ∧ row'.live := by
      intro row' token hm
      rcases hall₂ _ hm with ⟨_, _, heq, -, hmem, hget, hlive⟩ | ⟨_, _, _, _, _, heq, -⟩
      · cases heq
        have hne : row'.operationId ≠ row.operationId := fun hcon =>
          hn.1 (by rw [← hid, ← hcon]; exact hmem)
        rw [hops, JsMap.get?_set_ne _ _ hne] at hget
        exact ⟨hmem, hne, hget, hlive⟩
      · cases heq
    refine ⟨ms₁ ++ ms₂, hr₁.append hr₂, ?_, ?_, ?_⟩
    · rw [Protocol.written_append, hw₁, List.singleton_append, List.nodup_cons]
      refine ⟨fun hmem => ?_, hw₂⟩
      obtain ⟨m, hm, before, after, hc, hbefore⟩ := Protocol.of_mem_written hmem
      rcases hall₂ m hm with ⟨row', token, rfl, -⟩ | ⟨_, _, _, _, _, rfl, -⟩
      · cases hc
        exact (hother _ _ hm).2.1 hbefore
      · cases hc
    · rw [Protocol.events_append, List.map_append, List.nodup_append]
      refine ⟨hnodup₁, he₂, ?_⟩
      intro i hi j hj hij
      obtain ⟨e, he, rfl⟩ := List.mem_map.mp hi
      obtain ⟨e', he', rfl⟩ := List.mem_map.mp hj
      obtain ⟨before, after, hm⟩ := Protocol.of_mem_events he'
      rcases hall₂ _ hm with ⟨_, _, heq, -⟩ | ⟨_, _, _, row', token, heq, hf, hei⟩
      · cases heq
      · cases heq
        obtain ⟨-, hne, hget, hlive⟩ := hother _ _ hf
        refine hne (hk.exclusive _ _ row' row hget hrow hlive hl ?_)
        rw [← hei, ← hij, he₁ e he]
    · intro m hm
      rcases List.mem_append.mp hm with hm | hm
      · refine (hall₁ m hm).mono (fun id hmem => ?_) fun m => List.mem_append_left _
        rw [List.mem_singleton.mp hmem]
        exact List.mem_cons_self
      · rcases hall₂ m hm with ⟨row', token, rfl, hlease, -⟩ | ⟨state, op, e, row', token, rfl, hf,
          hei⟩
        · obtain ⟨hmem, -, hget⟩ := hother row' token hm
          exact .inl ⟨row', token, rfl, hlease, List.mem_cons_of_mem _ hmem, hget⟩
        · exact .inr ⟨state, op, e, row', token, rfl, List.mem_append_right _ hf, hei⟩

/-- The batch names each operation once. -/
theorem expiredOperations_nodup (hk : db.protocol.Consistent) (s : Scope) (now : Nat) :
    ((expiredOperations host db s now).map (·.operationId)).Nodup := by
  have hkeys : ((db.operations.entries.map (·.2)).map (·.operationId)).Nodup := by
    have heq : (db.operations.entries.map (·.2)).map (·.operationId) =
        db.operations.entries.map Prod.fst := by
      rw [List.map_map]
      exact List.map_congr_left fun e he => hk.keyed e.1 e.2 (JsMap.get?_eq_some.mpr he)
    rw [heq]
    exact db.operations.nodup
  have hperm := ((List.perm_insertionSort (fun r r' : OperationRow =>
    r.leaseExpiresAt ≤ r'.leaseExpiresAt) _).trans (sortBy_perm_self (·.operationId)
      ((db.operations.entries.map (·.2)).filter fun row => row.identity.scope = s ∧ row.live ∧
        row.leaseExpiresAt ≤ now))).map (·.operationId)
  refine ((List.take_sublist _ _).map _).nodup ?_
  exact hperm.nodup_iff.mpr ((List.filter_sublist.map _).nodup hkeys)

theorem reconcileExpiredOperations_run (hk : db.protocol.Consistent) {s : Scope} {k : Nat}
    (h : reconcileExpiredOperations host a s db = .ok (k, db')) :
    ∃ ids ms, Protocol.system.Run db.protocol ms db'.protocol ∧ (Protocol.written ms).Nodup ∧
      ((Protocol.events ms).map (·.identity)).Nodup ∧
      ∀ m ∈ ms, Reclaims db (a.clock 0) ids ms m := by
  simp only [reconcileExpiredOperations, read_bind] at h
  exact ⟨_, reconcileAll_run hk (expiredOperations_nodup hk s (a.clock 0)) h⟩

end KNex.Store
