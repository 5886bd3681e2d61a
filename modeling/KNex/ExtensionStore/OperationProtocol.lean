import KNex.ExtensionStore.Moves
import KNex.ExtensionStore.Requests

/-!
# Operations of several workers

What holds of the store under any interleaving of requests. The protocol invariant
(`Protocol.Consistent`) comes from the moves; beside it stands one fact about time: an operation
that is over has left its lease behind or its extension has moved on (`Sound.settled`), which is
why a worker that still holds the lease of a finished operation cannot save a plan for it.

* `operation_protocol`: one running operation per extension, the budget counts them, a finished
  operation never changes, only the bearer of an unexpired lease changes a running one, and the
  events of an extension and of a scope are numbered without gaps or repetitions.
-/
namespace KNex.Store

open KNex.Core KNex.Contracts

/-! ## Who may change an operation -/

inductive Authorised (a : Ambient) (request : Request) (before after : OperationRow) : Prop where
  /-- the request bears the lease token, which has not expired -/
  | holder (k : Nat) (token : request.lease = some (before.operationId, before.leaseToken))
      (unexpired : a.clock k < before.leaseExpiresAt)
  /-- another worker takes over an expired lease, or the owner renews its own; nothing else
  changes -/
  | takeover (worker token : String) (expires : Nat)
      (resume : request = .resume before.operationId worker)
      (expired : before.leaseExpiresAt ≤ a.clock 0 ∨ before.leaseOwner = worker)
      (lease : after = { before with
        leaseOwner := worker
        leaseToken := token
        leaseExpiresAt := expires })
  /-- the reconciler fails an operation whose lease has expired -/
  | expiry (s : Scope) (token : String) (reconcile : request = .reconcile s)
      (expired : before.leaseExpiresAt ≤ a.clock 0)
      (failed : after = failedRow before token (a.clock 0))

/-- A static plan belongs to a Platform Plugin, and the event schema accepts the evidence that the
authority on record makes. -/
structure Recorded (row : OperationRow) : Prop where
  static : ∀ plan ∈ row.planJson, plan.isLive = false →
    row.identity.deliveryClass = .platformPlugin
  authority : ∀ x ∈ row.authorityJson, ∀ plan,
    (bundleEvidence plan (some x)).schemaOk row.identity.deliveryClass

/-- What one request does: a run of the protocol that bumps no extension and writes over no
operation twice. -/
structure Trace (a : Ambient) (request : Request) (db : Db) (ms : List Move) (db' : Db) : Prop where
  run : Protocol.system.Run db.protocol ms db'.protocol
  bumps : ((Protocol.events ms).map (·.identity)).Nodup
  written : (Protocol.written ms).Nodup
  settles : ∀ before after, .finish before after ∈ ms →
    db.operations.get? before.operationId = some before ∧ after.Continues before ∧
    ((∃ k, after.leaseExpiresAt ≤ a.clock k) ∨
      ∃ e ∈ Protocol.events ms, e.identity = before.identity)
  authorised : ∀ m ∈ ms, ∀ before after, Protocol.change m = some (before, after) →
    Authorised a request before after
  starts : ∀ row maxCount, .start row maxCount ∈ ms → Recorded row
  works : ∀ before after, .work before after ∈ ms → Recorded before → Recorded after

variable {host : Host} {a : Ambient} {request : Request} {db db' : Db}

/-- A request that writes over no operation. -/
theorem trace_of_unchanged {ms : List Move} (hr : Protocol.system.Run db.protocol ms db'.protocol)
    (hbumps : ((Protocol.events ms).map (·.identity)).Nodup)
    (hchange : ms.filterMap Protocol.change = [])
    (hstart : ∀ row maxCount, .start row maxCount ∈ ms → Recorded row) :
    Trace a request db ms db' := by
  have hnone : ∀ m ∈ ms, Protocol.change m = none := List.filterMap_eq_nil_iff.mp hchange
  refine ⟨hr, hbumps, by simp [Protocol.written, hchange], ?_, ?_, hstart, ?_⟩
  · intro before after hm
    cases hnone _ hm
  · intro m hm before after hc
    rw [hnone m hm] at hc
    cases hc
  · intro before after hm
    cases hnone _ hm

/-- A request of the bearer of a lease: it writes over that operation, once, and finishes it only
with an event. -/
theorem trace_of_holder {ms : List Move} {k : Nat} {id token : String} {row row' : OperationRow}
    (hk : db.protocol.Consistent) (hh : Holds a db k id token row)
    (hlease : request.lease = some (id, token))
    (hr : Protocol.system.Run db.protocol ms db'.protocol)
    (hbumps : ((Protocol.events ms).map (·.identity)).Nodup)
    (hchange : ms.filterMap Protocol.change = [(row, row')]) (hc : row'.Continues row)
    (hsettle : row'.live ∨ ∃ e ∈ Protocol.events ms, e.identity = row.identity)
    (hstart : ∀ row maxCount, .start row maxCount ∉ ms)
    (hrec : row'.live → Recorded row → Recorded row') : Trace a request db ms db' := by
  have hid := hk.keyed id row hh.found
  have honly : ∀ m ∈ ms, ∀ before after, Protocol.change m = some (before, after) →
      before = row ∧ after = row' := by
    intro m hm before after hcm
    have hmem := List.mem_filterMap.mpr ⟨m, hm, hcm⟩
    rw [hchange, List.mem_singleton] at hmem
    cases hmem
    exact ⟨rfl, rfl⟩
  refine ⟨hr, hbumps, by simp [Protocol.written, hchange], ?_, ?_,
    fun r n hm => absurd hm (hstart r n), ?_⟩
  · intro before after hm
    obtain ⟨rfl, rfl⟩ := honly _ hm before after rfl
    refine ⟨hid.symm ▸ hh.found, hc, .inr ?_⟩
    rcases hsettle with hl | he
    · have hdone := (Protocol.run_enabled hr hm).choose_spec.2.2.2
      rw [hdone] at hl
      cases hl
    · exact he
  · intro m hm before after hcm
    obtain ⟨rfl, rfl⟩ := honly m hm before after hcm
    refine .holder k ?_ hh.unexpired
    rw [hlease, hid, hh.held]
  · intro before after hm
    obtain ⟨rfl, rfl⟩ := honly _ hm before after rfl
    exact hrec (Protocol.run_enabled hr hm).choose_spec.2.2.2

theorem trace_of_bump {before after : ExtensionRow} {event : OutboxRow}
    (hr : Protocol.system.Run db.protocol [.bump before after event] db'.protocol) :
    Trace a request db [.bump before after event] db' :=
  trace_of_unchanged hr (List.nodup_singleton _) rfl fun row n hm => by
    cases List.mem_singleton.mp hm

/-- A commit of the bearer of a lease. -/
theorem trace_of_commit {k : Nat} {id token : String} {row row' : OperationRow}
    {before after : ExtensionRow} {event : OutboxRow} (hk : db.protocol.Consistent)
    (hh : Holds a db k id token row) (hlease : request.lease = some (id, token))
    (hi : event.identity = row.identity)
    (hr : Protocol.system.Run db.protocol [.bump before after event, .finish row row']
      db'.protocol) :
    Trace a request db [.bump before after event, .finish row row'] db' := by
  obtain ⟨-, -, hc, hdone⟩ :=
    (Protocol.run_enabled hr (List.mem_cons_of_mem _ List.mem_cons_self)).choose_spec
  refine trace_of_holder hk hh hlease hr (List.nodup_singleton _) rfl hc
    (.inr ⟨event, List.mem_cons_self, hi⟩) (fun r n hm => ?_) fun hl => ?_
  · simp at hm
  · rw [hdone] at hl
    cases hl

/-- The commit of a static release, with the rebinds between its event and its end. -/
theorem trace_of_release {k : Nat} {id token : String} {row row' : OperationRow}
    {before after : ExtensionRow} {event : OutboxRow} {ms : List Move}
    {receipt : StaticDeploymentReceipt} (hk : db.protocol.Consistent)
    (hh : Holds a db k id token row) (hlease : request.lease = some (id, token))
    (hi : event.identity = row.identity)
    (hn : (row.identity :: (Protocol.events ms).map (·.identity)).Nodup)
    (hall : ∀ m ∈ ms, Rebinds receipt m)
    (hr : Protocol.system.Run db.protocol
      (.bump before after event :: (ms ++ [.finish row row'])) db'.protocol) :
    Trace a request db (.bump before after event :: (ms ++ [.finish row row'])) db' := by
  have hlast : Move.finish row row' ∈
      Move.bump before after event :: (ms ++ [Move.finish row row']) :=
    List.mem_cons_of_mem _ (List.mem_append_right _ List.mem_cons_self)
  obtain ⟨-, -, hc, hdone⟩ := (Protocol.run_enabled hr hlast).choose_spec
  have hms : ms.filterMap Protocol.change = [] := by
    refine List.filterMap_eq_nil_iff.mpr fun m hm => ?_
    obtain ⟨_, _, _, rfl, -⟩ := hall m hm
    rfl
  have hevents : Protocol.events (.bump before after event :: (ms ++ [.finish row row'])) =
      event :: Protocol.events ms := by
    rw [Protocol.events_cons, Protocol.events_append]
    simp [Protocol.event, Protocol.events_cons]
  refine trace_of_holder hk hh hlease hr ?_ ?_ hc (.inr ⟨event, ?_, hi⟩) (fun r n hm => ?_)
    fun hl => ?_
  · rw [hevents, List.map_cons, hi]
    exact hn
  · have hcons : (Move.bump before after event :: (ms ++ [.finish row row'])).filterMap
        Protocol.change = (ms ++ [Move.finish row row']).filterMap Protocol.change := rfl
    rw [hcons, List.filterMap_append, hms]
    rfl
  · rw [hevents]
    exact List.mem_cons_self
  · rcases List.mem_cons.mp hm with heq | hm
    · cases heq
    · rcases List.mem_append.mp hm with hm | hm
      · obtain ⟨_, _, _, heq, -⟩ := hall _ hm
        cases heq
      · cases List.mem_singleton.mp hm
  · rw [hdone] at hl
    cases hl

/-- A phase of an operation that the bearer of its lease records with an event. -/
theorem trace_of_phase {k : Nat} {id token : String} {row row' : OperationRow}
    {before after : ExtensionRow} {event : OutboxRow} (hk : db.protocol.Consistent)
    (hh : Holds a db k id token row) (hlease : request.lease = some (id, token))
    (hi : event.identity = row.identity)
    (hr : Protocol.system.Run db.protocol [.work row row', .bump before after event] db'.protocol ∨
      Protocol.system.Run db.protocol [.finish row row', .bump before after event] db'.protocol)
    (hrec : row'.live → Recorded row → Recorded row') : ∃ ms, Trace a request db ms db' := by
  rcases hr with hr | hr
  · have hc : row'.Continues row := (Protocol.run_enabled hr List.mem_cons_self).choose_spec.2.2.1
    exact ⟨_, trace_of_holder hk hh hlease hr (List.nodup_singleton _) rfl hc
      (.inr ⟨event, List.mem_cons_self, hi⟩) (fun r n hm => by simp at hm) hrec⟩
  · have hc : row'.Continues row := (Protocol.run_enabled hr List.mem_cons_self).choose_spec.2.2.1
    exact ⟨_, trace_of_holder hk hh hlease hr (List.nodup_singleton _) rfl hc
      (.inr ⟨event, List.mem_cons_self, hi⟩) (fun r n hm => by simp at hm) hrec⟩

/-- A plan or a preparation that the bearer of the lease saves. -/
theorem trace_of_work {k : Nat} {id token : String} {row row' : OperationRow}
    (hk : db.protocol.Consistent) (hh : Holds a db k id token row)
    (hlease : request.lease = some (id, token))
    (hr : Protocol.system.Run db.protocol [.work row row'] db'.protocol)
    (hrec : Recorded row → Recorded row') : Trace a request db [.work row row'] db' := by
  obtain ⟨-, -, hc, hl⟩ := (Protocol.run_enabled hr List.mem_cons_self).choose_spec
  exact trace_of_holder hk hh hlease hr List.nodup_nil rfl hc (.inl hl)
    (fun r n hm => by simp at hm) fun _ => hrec

/-- The moves of a reconciliation. -/
theorem trace_of_reconcile {ids : List String} {ms : List Move} {s : Scope}
    (hr : Protocol.system.Run db.protocol ms db'.protocol) (hw : (Protocol.written ms).Nodup)
    (he : ((Protocol.events ms).map (·.identity)).Nodup)
    (hall : ∀ m ∈ ms, Reclaims db (a.clock 0) ids ms m) : Trace a (.reconcile s) db ms db' := by
  refine ⟨hr, he, hw, ?_, ?_, ?_, ?_⟩
  · intro before after hm
    rcases hall _ hm with ⟨row, token, heq, -, -, hget, -⟩ | ⟨_, _, _, _, _, heq, -⟩
    · cases heq
      exact ⟨hget, ⟨rfl, rfl, rfl, rfl⟩, .inl ⟨0, le_refl _⟩⟩
    · cases heq
  · intro m hm before after hc
    rcases hall m hm with ⟨row, token, rfl, hlease, -⟩ | ⟨_, _, _, _, _, rfl, -⟩
    · cases hc
      exact .expiry s token rfl hlease rfl
    · cases hc
  · intro row n hm
    rcases hall _ hm with ⟨_, _, heq, -⟩ | ⟨_, _, _, _, _, heq, -⟩ <;> cases heq
  · intro before after hm
    rcases hall _ hm with ⟨_, _, heq, -⟩ | ⟨_, _, _, _, _, heq, -⟩ <;> cases heq

/-! ## What a plan and an authority say -/

theorem recorded_planned {row : OperationRow} {plan : PluginManagerPlan} (hr : Recorded row)
    (hplan : plan.isLive = false → row.identity.deliveryClass = .platformPlugin) :
    Recorded (row.planned plan) where
  static p hp := by
    obtain rfl : plan = p := Option.some.inj hp
    exact hplan
  authority := hr.authority

theorem class_of_static {row : OperationRow} {plan : PluginManagerPlan} {state : ExtensionRow}
    (hplan : assertPlanIdentity host row plan state = .ok ()) (hlive : plan.isLive = false) :
    row.identity.deliveryClass = .platformPlugin := by
  simp only [assertPlanIdentity, bind_eq_ok, check_ok] at hplan
  obtain ⟨_, -, _, -, _, hdynamic, -⟩ := hplan
  by_contra hne
  have := hdynamic hne
  rw [hlive] at this
  cases this

/-- The authority of a phase change is the one its event is evidence of. -/
theorem recorded_transition {row : OperationRow} {phase : OperationPhase}
    {authority : Option Authority} {evidence : TransitionEvidence} (hr : Recorded row)
    (howns : ∀ x ∈ authority, ownsAuthority row.identity x)
    (hev : transitionEvidence
      { row with phase := phase, authorityJson := authority <|> row.authorityJson }
      (authority <|> row.authorityJson) none none = .ok evidence)
    (hok : evidence.schemaOk row.identity.deliveryClass) :
    Recorded { row with phase := phase, authorityJson := authority <|> row.authorityJson } := by
  refine ⟨hr.static, ?_⟩
  cases authority with
  | none => exact hr.authority
  | some x =>
    intro y hy plan
    obtain rfl : x = y := Option.some.inj hy
    have hclass : row.identity.deliveryClass ≠ .platformPlugin :=
      (of_decide_eq_true (howns x rfl)).1
    cases hplan : row.planJson with
    | none => simp [transitionEvidence, hplan, throwing] at hev
    | some p =>
      cases hex : p.executionClass with
      | staticRelease preparation recovery =>
        exact absurd (hr.static p hplan (by simp [PluginManagerPlan.isLive, hex])) hclass
      | liveGeneration retained =>
        simp only [transitionEvidence, hplan, hex, hclass, if_false] at hev
        obtain rfl := Except.ok.inj hev
        exact hok

/-! ## Every request -/

/-- An operation that is over has left its lease behind, or its extension has moved on. -/
def Settled (db : Db) (now : Nat) : Prop :=
  ∀ id row, db.operations.get? id = some row → row.live = false →
    row.leaseExpiresAt ≤ now ∨ row.expectedRevision < db.protocol.revision row.identity

/-- The bearer of an unexpired lease, whose extension has not moved on, finds its operation
running. -/
theorem live_of_settled {now : Nat} {id token : String} (hs : Settled db now)
    (hnow : now ≤ a.clock 0) (row : OperationRow) (state : ExtensionRow)
    (hh : Holds a db 0 id token row) (hstate : db.extensions.get? row.identity = some state)
    (hrev : state.revision = row.expectedRevision) : row.live := by
  by_contra hl
  rcases hs id row hh.found (Bool.not_eq_true _ ▸ hl) with hle | hlt
  · have := hh.unexpired
    omega
  · have hget : db.protocol.extension row.identity = some state := hstate
    simp only [Protocol.revision, hget, Option.map_some, Option.getD_some] at hlt
    omega

theorem perform_trace {reply : Reply} {now : Nat} (hk : db.protocol.Consistent)
    (hs : Settled db now) (hnow : now ≤ a.clock 0)
    (h : perform host a request db = .ok (reply, db')) : ∃ ms, Trace a request db ms db' := by
  have hidle : Trace a request db [] db :=
    trace_of_unchanged (.nil _) List.nodup_nil rfl fun row n hm => by cases hm
  cases request with
  | claim request digest worker =>
    obtain ⟨r, h, -⟩ := tx_wrap.mp h
    rcases claimOperation_run h with hr | ⟨-, -, hplan, hauth, hr⟩
    · exact ⟨_, trace_of_unchanged hr List.nodup_nil rfl fun row n hm => by simp at hm⟩
    · refine ⟨_, trace_of_unchanged hr List.nodup_nil rfl fun row n hm => ?_⟩
      obtain ⟨rfl, -⟩ : row = r.2 ∧ n = host.maxConcurrentOperations := by simpa using hm
      refine ⟨fun p hp => ?_, fun x hx => ?_⟩
      · rw [hplan] at hp
        cases hp
      · rw [hauth] at hx
        cases hx
  | resume id worker =>
    obtain ⟨r, h, -⟩ := tx_wrap.mp h
    rcases resumeOperation_run hk h with rfl | ⟨row, hrow, hlease, rfl, hr⟩
    · exact ⟨_, hidle⟩
    · have hid := hk.keyed id row hrow
      refine ⟨_, hr, List.nodup_nil, List.nodup_singleton _, ?_, ?_,
        fun r n hm => by simp at hm, fun before after hm => ?_⟩
      · intro before after hm
        cases List.mem_singleton.mp hm
      · intro m hm before after hc
        obtain rfl := List.mem_singleton.mp hm
        cases hc
        exact .takeover worker _ _ (by rw [hid]) hlease rfl
      · cases List.mem_singleton.mp hm
        exact fun hr => ⟨hr.static, hr.authority⟩
  | savePlan id token plan =>
    obtain ⟨r, h, -⟩ := tx_wrap.mp h
    obtain ⟨row, state, hh, -, hident, rfl, hr⟩ := savePlan_run hk h (live_of_settled hs hnow)
    have hrec : Recorded row → Recorded (row.planned plan) :=
      fun hr => recorded_planned hr (class_of_static hident)
    rcases hr with hr | ⟨e, hei, hr⟩
    · exact ⟨_, trace_of_work hk hh rfl hr hrec⟩
    · exact trace_of_phase hk hh rfl hei (.inl hr) fun _ => hrec
  | saveStaticPreparation id token plan =>
    obtain ⟨r, h, -⟩ := tx_wrap.mp h
    obtain ⟨row, previous, hh, hprev, hstatic, -, rfl, hr⟩ := saveStaticPreparation_run hk h
    exact ⟨_, trace_of_work hk hh rfl hr fun hr =>
      recorded_planned hr fun _ => hr.static previous hprev hstatic⟩
  | transition id token expected phase authority =>
    obtain ⟨r, h, -⟩ := tx_wrap.mp h
    obtain ⟨row, state, evidence, hh, howns, hrow, hei, hev, hok, hr⟩ := transition_run hk h
    refine trace_of_phase hk hh rfl hei (hr.imp And.right And.right) fun _ hrec => ?_
    rw [hrow] at hev ⊢
    exact recorded_transition hrec howns hev hok
  | stage id token stage =>
    obtain ⟨r, h, -⟩ := tx_wrap.mp h
    obtain ⟨row, state, hh, hrow, hei, hr⟩ := stageGeneration_run hk h
    refine trace_of_phase hk hh rfl hei (.inl hr) fun _ hrec => ?_
    rw [hrow]
    exact ⟨hrec.static, hrec.authority⟩
  | refresh id token stage =>
    obtain ⟨r, h, -⟩ := tx_wrap.mp h
    refine ⟨[], trace_of_unchanged ?_ List.nodup_nil rfl fun row n hm => by cases hm⟩
    rw [refreshGenerationReadiness_run h]
    exact .nil _
  | activate id token =>
    obtain ⟨r, h, -⟩ := tx_wrap.mp h
    rcases activateGeneration_cases h with ⟨rfl, -⟩ | h
    · exact ⟨_, hidle⟩
    · obtain ⟨row, row', _, state, _, _, _, e, _, hh, -, -, -, -, -, -, hei, -, -, -, -, -, hr⟩ :=
        activateFresh_run hk h
      exact ⟨_, trace_of_commit hk hh rfl hei hr⟩
  | enable id token =>
    obtain ⟨r, h, -⟩ := tx_wrap.mp h
    rcases enableGeneration_cases h with ⟨rfl, -⟩ | h
    · exact ⟨_, hidle⟩
    · obtain ⟨row, row', state, _, _, e, _, hh, -, -, -, hei, -, -, -, hr⟩ := enableFresh_run hk h
      exact ⟨_, trace_of_commit hk hh rfl hei hr⟩
  | rollback id token stage =>
    obtain ⟨r, h, -⟩ := tx_wrap.mp h
    rcases rollbackGeneration_cases h with ⟨rfl, -⟩ | h
    · exact ⟨_, hidle⟩
    · obtain ⟨row, row', state, _, _, _, _, e, _, hh, -, -, -, -, -, hei, -, -, -, -, hr⟩ :=
        rollbackFresh_run hk h
      exact ⟨_, trace_of_commit hk hh rfl hei hr⟩
  | disable id token =>
    obtain ⟨r, h, -⟩ := tx_wrap.mp h
    rcases changeDisposition_cases h with ⟨rfl, -⟩ | h
    · exact ⟨_, hidle⟩
    · obtain ⟨row, row', state, e, _, hh, -, hei, -, -, -, hr⟩ := changeFresh_run hk h
      exact ⟨_, trace_of_commit hk hh rfl hei hr⟩
  | uninstall id token =>
    obtain ⟨r, h, -⟩ := tx_wrap.mp h
    rcases changeDisposition_cases h with ⟨rfl, -⟩ | h
    · exact ⟨_, hidle⟩
    · obtain ⟨row, row', state, e, _, hh, -, hei, -, -, -, hr⟩ := changeFresh_run hk h
      exact ⟨_, trace_of_commit hk hh rfl hei hr⟩
  | completeStatic id token receipt =>
    obtain ⟨r, h, -⟩ := tx_wrap.mp h
    rcases completeStaticRelease_cases h with ⟨rfl, -⟩ | h
    · exact ⟨_, hidle⟩
    · obtain ⟨row, row', plan, change, state, e, ms, hh, -, -, -, -, -, -, -, hei, hn, hall, -, hr⟩ :=
        completeStaticFresh_run hk h
      exact ⟨_, trace_of_release hk hh rfl hei hn hall hr⟩
  | quarantine input digest =>
    obtain ⟨r, h, -⟩ := tx_wrap.mp h
    rcases quarantineActiveGeneration_run h with rfl | ⟨state, _, e, -, -, hr⟩
    · exact ⟨_, hidle⟩
    · exact ⟨_, trace_of_bump hr⟩
  | quarantineRunner input digest =>
    obtain ⟨r, h, -⟩ := tx_wrap.mp h
    rcases quarantineRunnerGeneration_run h with rfl | ⟨state, _, e, -, -, hr⟩
    · exact ⟨_, hidle⟩
    · exact ⟨_, trace_of_bump hr⟩
  | reconcile s =>
    obtain ⟨r, h, -⟩ := tx_wrap.mp h
    obtain ⟨ids, ms, hr, hw, he, hall⟩ := reconcileExpiredOperations_run hk h
    exact ⟨ms, trace_of_reconcile hr hw he hall⟩

/-! ## Reachable states -/

/-- The invariant of the store: the protocol is consistent, and what is over is settled. -/
structure Sound (w : World) : Prop where
  consistent : w.db.protocol.Consistent
  settled : Settled w.db w.now

variable {w w' : World} {c : Call}

theorem sound_trace (hw : Sound w) (hs : (store host).step w c w') :
    ∃ ms, Trace c.ambient c.request w.db ms w'.db :=
  perform_trace hw.consistent hw.settled (hs.1 0).1 hs.2

theorem sound_step (hw : Sound w) (hs : (store host).step w c w') : Sound w' := by
  obtain ⟨ms, ht⟩ := sound_trace hw hs
  have hk' := Protocol.consistent.run ht.run hw.consistent
  have hnow : w.now ≤ w'.now := le_trans (hs.1 0).1 (hs.1 0).2
  refine ⟨hk', fun id row hrow hdone => ?_⟩
  rcases Protocol.run_finished_back ht.run hrow hdone with hold | ⟨before, hm⟩
  · rcases hw.settled id row hold hdone with hle | hlt
    · exact .inl (by omega)
    · have := Protocol.run_revision_le ht.run row.identity
      exact .inr (by omega)
  · obtain ⟨hbefore, hc, ⟨k, hle⟩ | ⟨e, he, hi⟩⟩ := ht.settles before row hm
    · have := (hs.1 k).2
      exact .inl (by omega)
    · -- the operation was admitted at a revision that the event of its end has passed
      obtain ⟨state, hstate, hle⟩ := hw.consistent.started _ before hbefore
      have hrev := Protocol.run_revision ht.run before.identity
      have hpos : 0 < (Protocol.events ms).countP (·.identity = before.identity) :=
        List.countP_pos_iff.mpr ⟨e, he, by simpa using hi⟩
      have hstate' : w.db.protocol.revision before.identity = state.revision := by
        simp only [Protocol.revision, hstate, Option.map_some, Option.getD_some]
      rw [hc.2.1, hc.2.2.2]
      exact .inr (by omega)

theorem sound_init : Sound ⟨Db.empty, 0⟩ where
  consistent := Protocol.consistent_empty
  settled id row hrow := by simp [Db.empty] at hrow

theorem sound : (store host).Inductive Sound where
  init _ h := h ▸ sound_init
  step _ _ _ hw hs := sound_step hw hs

theorem sound_of_reachable (hw : (store host).Reachable w) : Sound w := sound.reachable w hw

/-- The one value of a list that `f` sends where it sends `a`. -/
theorem filter_eq_singleton {α β : Type} [DecidableEq β] {f : α → β} {l : List α} {x : α}
    (hn : (l.map f).Nodup) (hx : x ∈ l) : l.filter (fun y => f y = f x) = [x] := by
  induction l with
  | nil => cases hx
  | cons y l ih =>
    rw [List.map_cons, List.nodup_cons] at hn
    rcases List.mem_cons.mp hx with rfl | hx
    · have hrest : l.filter (fun y => f y = f x) = [] := by
        refine List.filter_eq_nil_iff.mpr fun z hz => ?_
        have hne : f z ≠ f x := fun hcon => hn.1 (hcon ▸ List.mem_map_of_mem hz)
        simpa using hne
      simp [hrest]
    · have hne : f y ≠ f x := fun hcon => hn.1 (hcon ▸ List.mem_map_of_mem hx)
      rw [List.filter_cons_of_neg (by simpa using hne)]
      exact ih hn.2 hx

/-- A step records at most one event of an extension, and the revision of the extension tells
whether it did. -/
theorem step_events (hw : Sound w) (hs : (store host).step w c w') :
    ∃ events, w'.db.outbox = w.db.outbox ++ events ∧ ∀ i,
      (w'.db.protocol.revision i = w.db.protocol.revision i ∧ ∀ e ∈ events, e.identity ≠ i) ∨
      (w'.db.protocol.revision i = w.db.protocol.revision i + 1 ∧
        ∃ e, events.filter (·.identity = i) = [e] ∧ e.revision = w'.db.protocol.revision i) := by
  obtain ⟨ms, ht⟩ := sound_trace hw hs
  have hout := Protocol.run_outbox ht.run
  have hk' := (sound_step hw hs).consistent
  refine ⟨Protocol.events ms, hout, fun i => ?_⟩
  have hrev := Protocol.run_revision ht.run i
  by_cases hany : ∃ e ∈ Protocol.events ms, e.identity = i
  · right
    obtain ⟨e, he, rfl⟩ := hany
    have hone := filter_eq_singleton ht.bumps he
    rw [List.countP_eq_length_filter, hone, List.length_singleton] at hrev
    refine ⟨hrev, e, hone, ?_⟩
    -- the event comes after the state before, and is on record in the state after
    have hlow := Protocol.run_event_revision ht.run e he
    have hmem : e ∈ w'.db.protocol.outbox := by
      rw [hout]
      exact List.mem_append_right _ he
    obtain ⟨⟨state, hstate, hle⟩, -⟩ := hk'.recorded e hmem
    have hhigh : w'.db.protocol.revision e.identity = state.revision := by
      simp only [Protocol.revision, hstate, Option.map_some, Option.getD_some]
    omega
  · left
    have hnone : ∀ e ∈ Protocol.events ms, e.identity ≠ i := fun e he hi => hany ⟨e, he, hi⟩
    have hzero : (Protocol.events ms).countP (·.identity = i) = 0 :=
      List.countP_eq_zero.mpr fun e he => by simpa using hnone e he
    exact ⟨by omega, hnone⟩

/-- **Operations of several workers.** In every reachable state of the store: one operation at a
time runs for an extension; the budget of a scope counts its running operations, within its bound;
an operation that is over never changes again; a running one changes only under its unexpired
lease, apart from the lease itself and the failure of an expired one; each request raises the
revision of an extension by one with one event, or leaves both alone; and the events of an
extension and of a scope are numbered strictly upwards. -/
theorem operation_protocol {w : World} (hw : (store host).Reachable w) :
    (∀ id id' row row', w.db.operations.get? id = some row →
      w.db.operations.get? id' = some row' → row.live → row'.live →
      row.identity = row'.identity → id = id') ∧
    (∀ s, w.db.protocol.activeCount s = w.db.protocol.liveCount s) ∧
    (∀ s b, w.db.budgets.get? s = some b → b.activeCount ≤ b.maxCount) ∧
    (∀ calls w', (store host).Run w calls w' → ∀ id row, w.db.operations.get? id = some row →
      row.live = false → w'.db.operations.get? id = some row) ∧
    (∀ c w', (store host).step w c w' → ∀ id row row', w.db.operations.get? id = some row →
      w'.db.operations.get? id = some row' → row' ≠ row →
      row.live ∧ Authorised c.ambient c.request row row') ∧
    (∀ c w', (store host).step w c w' →
      ∃ events, w'.db.outbox = w.db.outbox ++ events ∧ ∀ i,
        (w'.db.protocol.revision i = w.db.protocol.revision i ∧ ∀ e ∈ events, e.identity ≠ i) ∨
        (w'.db.protocol.revision i = w.db.protocol.revision i + 1 ∧
          ∃ e, events.filter (·.identity = i) = [e] ∧
            e.revision = w'.db.protocol.revision i)) ∧
    w.db.outbox.Pairwise fun e e' =>
      (e.identity = e'.identity → e.revision < e'.revision) ∧
      (e.identity.scope = e'.identity.scope → e.inventoryRevision < e'.inventoryRevision) := by
  have hsound := sound_of_reachable hw
  have hk := hsound.consistent
  refine ⟨hk.exclusive, hk.counted, hk.bounded, ?_, ?_, ?_, hk.ordered⟩
  · intro calls w' hr
    refine sound.run_rel (R := fun w w' => ∀ id row, w.db.operations.get? id = some row →
      row.live = false → w'.db.operations.get? id = some row) ?_ ?_ ?_ hr hsound
    · intro w id row h _
      exact h
    · intro w₁ w₂ w₃ h₁ h₂ id row h hd
      exact h₂ id row (h₁ id row h hd) hd
    · intro w₁ c w₂ hw₁ hs id row h hd
      obtain ⟨ms, ht⟩ := sound_trace hw₁ hs
      exact Protocol.run_finished ht.run h hd
  · intro c w' hs id row row' h h' hne
    obtain ⟨ms, ht⟩ := sound_trace hsound hs
    rcases Protocol.run_change_once ht.run hk ht.written h h' with heq | ⟨hl, m, hm, hc⟩
    · exact absurd heq hne
    · exact ⟨hl, ht.authorised m hm row row' hc⟩
  · intro c w' hs
    exact step_events hsound hs

/-- Two workers: the second takes over the expired operation of the first. -/
def takeover : List (Nat × Ambient × Request) :=
  [(1000, sampleAmbient "token-of-worker-a", .claim ⟨sampleIdentity .hotApplication "sales",
      .install, "1.0.0", 0, "install-sales"⟩ (sampleDigest '1') "worker-a"),
    (90000, sampleAmbient "token-of-worker-b", .resume (operationId (sampleDigest '1')) "worker-b")]

theorem takeover_runs : (replay sampleHost ⟨Db.empty, 0⟩ takeover).isSome := by decide

theorem operation_protocol_takeover :
    let w := (replay sampleHost ⟨Db.empty, 0⟩ takeover).get takeover_runs
    (∀ s, w.db.protocol.activeCount s = w.db.protocol.liveCount s) ∧
      ∀ s b, w.db.budgets.get? s = some b → b.activeCount ≤ b.maxCount :=
  have h := operation_protocol (reachable_replay (Option.some_get takeover_runs).symm)
  ⟨h.2.1, h.2.2.1⟩

end KNex.Store
