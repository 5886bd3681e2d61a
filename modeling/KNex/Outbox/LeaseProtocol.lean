import KNex.Outbox.OutboxProcessor
import Mathlib.Data.Option.Basic

/-!
# Outbox processor: the lease protocol

The row of an event is a leased job (`Row.job`): each statement that finds a row is one of its acts,
and what was done to an event is a history of that job (`Inv.rows`).

`lease_protocol`: in every run, each state is `Kept` (delivered at most once, attempts counted, dead
letters exhausted, attempts started from the last checkpoint) and each step is `Fenced` (a row is
final once delivered or dead; its checkpoint is changed and its processing ended under its claim
token, and a worker without it changes nothing and is told so). One end needs no token: a sweep
buries a row whose lease has expired in its last attempt. A lease that has expired and was not
taken over still counts: a checkpoint saved under it is the one that the next attempt starts from
(`saved_and_swept_after_expiry` for both).
-/
namespace KNex.Outbox

open KNex.Core LeasedJob

/-! ## Rows as jobs -/

def Row.fate (row : Row) : Option Fate :=
  match row.status with
  | .delivered => some .delivered
  | .deadLetter => some .dead
  | _ => none

def Row.job (row : Row) : Job String Json :=
  ⟨row.claimToken, row.attemptCount, row.checkpoint, row.fate⟩

/-- The worker holds the claim, current or not. -/
def Claims (s : St) (w : Nat) (claimed : ClaimedEvent) : Prop :=
  ∃ worker, s.workers[w]? = some worker ∧ worker.claimed = some claimed

/-! ## The law -/

structure Kept (host : Host) (s : St) : Prop where
  delivered : ∀ id, (s.acts id).countP Act.isDeliver ≤ 1
  counted : ∀ id row, s.rows.get? id = some row →
    row.attemptCount = claims (s.acts id) ∧ row.attemptCount ≤ host.maxAttempts
  exhausted : ∀ id row, s.rows.get? id = some row → row.status = .deadLetter →
    claims (s.acts id) = host.maxAttempts
  /-- The holder of a claim saved what the history says it saved, and did the rest. -/
  held : ∀ id before a after t, s.acts id = before ++ a :: after → a.holder? = some t →
    holder before = some t
  started : ∀ w claimed, Claims s w claimed → ∃ before after,
    s.acts claimed.eventId = before ++ .claim claimed.token claimed.checkpoint :: after ∧
      claimed.checkpoint = lastSaved before
  /-- A claim that another claim or an end came after is not the row's. -/
  takenOver : ∀ w claimed, Claims s w claimed → ∀ before start after,
    s.acts claimed.eventId = before ++ .claim claimed.token start :: after →
    (∃ a ∈ after, ∀ t v, a ≠ .save t v) →
    ∀ row, s.rows.get? claimed.eventId = some row → row.claimToken ≠ some claimed.token

/-- The step is one of the worker that holds the row's claim token. -/
def ByHolder (s : St) (w : Nat) (id : String) (row : Row) : Prop :=
  ∃ claimed, Claims s w claimed ∧ claimed.eventId = id ∧ row.claimToken = some claimed.token

/-- What a statement under a lease makes of the row. -/
inductive Update (host : Host) (claimed : ClaimedEvent) (row : Row) : Act String Json → Row → Prop
  | save (now leaseMs : Nat) (value : Json) :
      Update host claimed row (.save claimed.token value) (row.checkpointed now leaseMs value)
  | deliver (now : Nat) : Update host claimed row (.deliver claimed.token) (row.markedDelivered now)
  | fail (now hostNow delay : Nat) :
      Update host claimed row
        (if lastAttempt host claimed then .bury claimed.token else .release claimed.token)
        (row.failed (lastAttempt host claimed) now hostNow delay)

/-- The statement of the event whose act this is. -/
def Ev.Makes (e : Ev) (w : Nat) : Act String Json → Prop
  | .save _ value => e = .saveCheckpoint w value
  | _ => ∃ hostNow, e = .finish w hostNow

inductive Effect (host : Host) (s : St) (e : Ev) (s' : St) : Prop
  | quiet (rows : s'.rows = s.rows) (history : s'.history = s.history)
      (claims : ∀ w c, Claims s' w c → Claims s w c)
  | inserted (id : String) (row : Row) (new : s.rows.get? id = none) (job : row.job = fresh)
      (status : row.status = .pending) (valid : row.Valid) (rows : s'.rows = s.rows.set id row)
      (history : s'.history = s.history) (claims : ∀ w c, Claims s' w c → Claims s w c)
  | swept (w : Nat) (id : String) (row : Row) (scope : Option Consumer)
      (ev : e = .sweep w (some id)) (row_eq : s.rows.get? id = some row)
      (exhausted : exhausted host.maxAttempts s.now scope row = true)
      (rows : s'.rows = s.rows.set id (row.buried s.now))
      (history : s'.history = s.history ++ [(id, .sweep)])
      (claims : ∀ w c, Claims s' w c → Claims s w c)
  | claimed (w : Nat) (id token : String) (row : Row) (options : Options)
      (row_eq : s.rows.get? id = some row)
      (claimable : claimable host.maxAttempts s.now options.consumer row = true)
      (new : token ∉ tokens (s.history.map Prod.snd))
      (rows : s'.rows = s.rows.set id (row.claimedBy s.now options.leaseMs token))
      (history : s'.history = s.history ++ [(id, .claim token row.checkpoint)])
      (claims : ∀ w' c, Claims s' w' c → Claims s w' c ∨
        c = ⟨row.attemptCount + 1, id, row.checkpoint, token⟩)
  | updated (w : Nat) (claimed : ClaimedEvent) (row row' : Row) (a : Act String Json)
      (ev : e.Makes w a) (claim : Claims s w claimed) (row_eq : leased claimed s.rows = some row)
      (update : Update host claimed row a row')
      (rows : s'.rows = s.rows.set claimed.eventId row')
      (history : s'.history = s.history ++ [(claimed.eventId, a)])
      (claims : ∀ w c, Claims s' w c → Claims s w c)

theorem claims_setWorker {s : St} {w : Nat} {worker' : Worker} {w' : Nat} {c : ClaimedEvent}
    (h : Claims (s.setWorker w worker') w' c) :
    Claims s w' c ∨ (w' = w ∧ worker'.claimed = some c) := by
  obtain ⟨x, hx, hc⟩ := h
  unfold St.setWorker at hx
  dsimp only at hx
  rw [List.getElem?_set] at hx
  split at hx
  · rename_i he
    split at hx
    · cases hx
      exact .inr ⟨he.symm, hc⟩
    · cases hx
  · exact .inl ⟨x, hx, hc⟩

/-- A worker that only went on to its next phase has the claims it had. -/
theorem claims_setPhase {s : St} {w : Nat} {worker : Worker} (hw : s.workers[w]? = some worker)
    (phase : Phase) {w' : Nat} {c : ClaimedEvent}
    (h : Claims (s.setWorker w { worker with phase := phase }) w' c) : Claims s w' c := by
  rcases claims_setWorker h with h | ⟨rfl, hc⟩
  · exact h
  · exact ⟨worker, hw, hc⟩

theorem leased_eq_some {claimed : ClaimedEvent} {rows : Rows} {row : Row}
    (h : leased claimed rows = some row) : rows.get? claimed.eventId = some row ∧
      row.status = .processing ∧ row.claimToken = some claimed.token := by
  unfold leased at h
  rw [Option.filter_eq_some_iff] at h
  simpa using h

theorem updateWithLease_of_none {claimed : ClaimedEvent} {rows : Rows} (set : Row → Row)
    (h : leased claimed rows = none) : updateWithLease claimed rows set = (false, rows) := by
  unfold updateWithLease
  rw [h]

theorem updateWithLease_of_some {claimed : ClaimedEvent} {rows : Rows} {row : Row}
    (set : Row → Row) (h : leased claimed rows = some row) :
    updateWithLease claimed rows set = (true, rows.set claimed.eventId (set row)) := by
  unfold updateWithLease
  rw [h]

theorem actOf_of_none {claimed : ClaimedEvent} {rows : Rows} (a : Act String Json)
    (h : leased claimed rows = none) : actOf claimed rows a = [] := by
  unfold actOf
  rw [h]
  rfl

theorem actOf_of_some {claimed : ClaimedEvent} {rows : Rows} {row : Row} (a : Act String Json)
    (h : leased claimed rows = some row) : actOf claimed rows a = [(claimed.eventId, a)] := by
  unfold actOf
  rw [h]
  rfl

theorem sweep_effect {host : Host} {s s' : St} {w : Nat} {worker : Worker}
    {candidate : Option String} (hw : s.workers[w]? = some worker)
    (h : sweep host s w worker candidate = some s') : Effect host s (.sweep w candidate) s' := by
  cases candidate with
  | none =>
    unfold sweep at h
    cases h
    exact .quiet rfl rfl fun w' c hc => claims_setPhase hw _ hc
  | some id =>
    simp only [sweep, Option.bind_eq_bind, Option.bind_eq_some_iff, Option.guard_eq_some'] at h
    obtain ⟨row, hrow, -, hex, h⟩ := h
    cases h
    exact .swept w id row worker.options.consumer rfl hrow hex rfl rfl
      fun w' c hc => claims_setPhase hw (.done ⟨some id, .deadLettered⟩) hc

theorem claim_effect {host : Host} {s s' : St} {w : Nat} {worker : Worker} {token : String}
    {candidate : Option String} (hw : s.workers[w]? = some worker)
    (h : claim host s w worker token candidate = some s') :
    Effect host s (.claim w candidate token) s' := by
  cases candidate with
  | none =>
    unfold claim at h
    cases h
    exact .quiet rfl rfl fun w' c hc => claims_setPhase hw _ hc
  | some id =>
    simp only [claim, Option.bind_eq_bind, Option.bind_eq_some_iff, Option.guard_eq_some'] at h
    obtain ⟨row, hrow, -, hcl, -, hnew, h⟩ := h
    cases h
    refine .claimed w id token row worker.options hrow hcl hnew rfl rfl fun w' c hc => ?_
    rcases claims_setWorker hc with hc | ⟨-, hc⟩
    · exact .inl hc
    · cases hc
      exact .inr rfl

theorem saveCheckpoint_effect {host : Host} {s s' : St} {w : Nat} {value : Json}
    (h : step host s (.saveCheckpoint w value) = some s') :
    Effect host s (.saveCheckpoint w value) s' := by
  simp only [step, Option.bind_eq_bind, Option.bind_eq_some_iff] at h
  obtain ⟨worker, hw, claimed, hcl, h⟩ := h
  cases h
  unfold saveCheckpoint
  cases hok : host.payloadOk value with
  | false => exact .quiet rfl (List.append_nil _) fun _ _ hc => hc
  | true =>
    simp only [if_true]
    cases hl : leased claimed s.rows with
    | none =>
      rw [updateWithLease_of_none _ hl, actOf_of_none _ hl]
      exact .quiet rfl (List.append_nil _) fun _ _ hc => hc
    | some row =>
      rw [updateWithLease_of_some _ hl, actOf_of_some _ hl]
      exact .updated w claimed row _ (.save claimed.token value) rfl ⟨worker, hw, hcl⟩ hl
        (.save s.now worker.options.leaseMs value) rfl rfl fun _ _ hc => hc

/-- The last statement finds the row, or changes nothing and says that the lease is lost. -/
theorem finish_cases {host : Host} {s : St} {hostNow : Nat} {worker : Worker}
    {claimed : ClaimedEvent} {status : ResultStatus} {rows : Rows} {a : Act String Json}
    (h : finish host s hostNow worker claimed = some ((status, rows), a)) :
    (leased claimed s.rows = none ∧ status = .leaseLost ∧ rows = s.rows) ∨
      ∃ row row', leased claimed s.rows = some row ∧ Update host claimed row a row' ∧
        rows = s.rows.set claimed.eventId row' ∧ ∀ e w, e = Ev.finish w hostNow → e.Makes w a := by
  unfold finish at h
  split at h
  · unfold deliver at h
    cases hl : leased claimed s.rows with
    | none =>
      rw [updateWithLease_of_none _ hl] at h
      cases h
      exact .inl ⟨rfl, rfl, rfl⟩
    | some row =>
      rw [updateWithLease_of_some _ hl] at h
      cases h
      exact .inr ⟨row, _, rfl, .deliver s.now, rfl, fun e w he => ⟨hostNow, he⟩⟩
  · unfold fail at h
    dsimp only at h
    cases hl : leased claimed s.rows with
    | none =>
      rw [updateWithLease_of_none _ hl] at h
      cases h
      exact .inl ⟨rfl, rfl, rfl⟩
    | some row =>
      rw [updateWithLease_of_some _ hl] at h
      cases h
      refine .inr ⟨row, _, rfl, .fail s.now hostNow _, rfl, fun e w he => ?_⟩
      split <;> exact ⟨hostNow, he⟩
  · cases h

theorem finish_effect {host : Host} {s s' : St} {w hostNow : Nat}
    (h : step host s (.finish w hostNow) = some s') : Effect host s (.finish w hostNow) s' := by
  simp only [step, Option.bind_eq_bind, Option.bind_eq_some_iff] at h
  obtain ⟨worker, hw, claimed, hcl, ⟨⟨status, rows⟩, a⟩, hf, h⟩ := h
  cases h
  rcases finish_cases hf with ⟨hl, rfl, rfl⟩ | ⟨row, row', hl, hup, rfl, hmakes⟩
  · refine .quiet rfl ?_ fun w' c hc =>
      claims_setPhase hw (.done ⟨some claimed.eventId, .leaseLost⟩) hc
    rw [actOf_of_none _ hl]
    exact List.append_nil _
  · refine .updated w claimed row row' a (hmakes _ _ rfl) ⟨worker, hw, hcl⟩ hl hup rfl ?_
      fun w' c hc => claims_setPhase hw (.done ⟨some claimed.eventId, status⟩) hc
    rw [actOf_of_some _ hl]

theorem step_effect {host : Host} {s s' : St} {e : Ev} (h : step host s e = some s') :
    Effect host s e s' := by
  cases e with
  | tick now =>
    simp only [step] at h
    split at h
    · cases h
      exact .quiet rfl rfl fun _ _ hc => hc
    · cases h
  | insert id applicationId environment pluginId eventType =>
    simp only [step] at h
    split at h
    · cases h
    · rename_i hnone
      cases h
      exact .inserted id _ hnone rfl rfl (by simp [Row.Valid, inserted]) rfl rfl fun _ _ hc => hc
  | begin options =>
    simp only [step] at h
    cases h
    refine .quiet rfl rfl fun w c hc => ?_
    obtain ⟨worker, hw, hcl⟩ := hc
    dsimp only at hw
    rw [List.getElem?_append] at hw
    split at hw
    · exact ⟨worker, hw, hcl⟩
    · -- a new worker has no claim
      rw [List.getElem?_singleton] at hw
      split at hw
      · cases hw
        cases hcl
      · cases hw
  | sweep w candidate =>
    simp only [step, Option.bind_eq_bind, Option.bind_eq_some_iff, Option.guard_eq_some'] at h
    obtain ⟨worker, hw, -, -, h⟩ := h
    exact sweep_effect hw h
  | claim w candidate token =>
    simp only [step, Option.bind_eq_bind, Option.bind_eq_some_iff, Option.guard_eq_some'] at h
    obtain ⟨worker, hw, -, -, h⟩ := h
    exact claim_effect hw h
  | saveCheckpoint w value => exact saveCheckpoint_effect h
  | settle w ok =>
    simp only [step, Option.bind_eq_bind, Option.bind_eq_some_iff, Option.guard_eq_some'] at h
    obtain ⟨worker, hw, -, -, h⟩ := h
    cases h
    exact .quiet rfl rfl fun w' c hc => claims_setPhase hw _ hc
  | finish w hostNow => exact finish_effect h

/-! ## Histories of an event -/

theorem acts_of_history {s s' : St} (h : s'.history = s.history) (id : String) :
    s'.acts id = s.acts id := by
  unfold St.acts
  rw [h]

theorem acts_snoc {s s' : St} {id : String} {a : Act String Json}
    (h : s'.history = s.history ++ [(id, a)]) (id' : String) :
    s'.acts id' = if id' = id then s.acts id' ++ [a] else s.acts id' := by
  unfold St.acts
  rw [h, List.filterMap_append]
  by_cases hid : id = id'
  · subst hid
    simp
  · simp [hid, Ne.symm hid]

/-- The tokens of one event's claims are distinct when those of all claims are. -/
theorem tokens_acts {s : St} (h : (tokens (s.history.map Prod.snd)).Nodup) (id : String) :
    (tokens (s.acts id)).Nodup := by
  have hacts : s.acts id = (s.history.filter fun e => e.1 = id).map Prod.snd := by
    unfold St.acts
    induction s.history with
    | nil => rfl
    | cons e l ih =>
      rw [List.filterMap_cons, List.filter_cons, ih]
      by_cases he : e.1 = id <;> simp [he]
  rw [hacts]
  exact ((List.filter_sublist.map Prod.snd).filterMap _).nodup h

/-! ## The invariant -/

structure Inv (host : Host) (s : St) : Prop where
  rows : ∀ id row, s.rows.get? id = some row → Runs host.maxAttempts (s.acts id) row.job
  valid : ∀ id row, s.rows.get? id = some row → row.Valid
  pending : ∀ id row, s.rows.get? id = some row → row.status = .pending →
    row.attemptCount < host.maxAttempts
  absent : ∀ id, s.rows.get? id = none → s.acts id = []
  tokens : (tokens (s.history.map Prod.snd)).Nodup
  claims : ∀ w claimed, Claims s w claimed → ∃ before after,
    s.acts claimed.eventId = before ++ .claim claimed.token claimed.checkpoint :: after ∧
      claimed.attemptCount = claims before + 1

theorem inv_init (host : Host) {s : St} (h : initial s) : Inv host s := by
  obtain ⟨hr, hw, hh⟩ := h
  have hacts : ∀ id, s.acts id = [] := fun id => by simp [St.acts, hh]
  refine ⟨fun id row h => ?_, fun id row h => ?_, fun id row h => ?_, fun id _ => hacts id, ?_,
    fun w c h => ?_⟩
  · rw [hr] at h
    cases h
  · rw [hr] at h
    cases h
  · rw [hr] at h
    cases h
  · rw [hh]
    exact List.nodup_nil
  · obtain ⟨worker, hworker, -⟩ := h
    rw [hw] at hworker
    cases hworker

/-- While the row carries the token of a claim, its attempts are those that the claim counted. -/
theorem Inv.attempt {host : Host} {s : St} (h : Inv host s) {w : Nat} {claimed : ClaimedEvent}
    {row : Row} (hc : Claims s w claimed) (hrow : s.rows.get? claimed.eventId = some row)
    (ht : row.claimToken = some claimed.token) : row.attemptCount = claimed.attemptCount := by
  obtain ⟨before, after, hacts, hcount⟩ := h.claims w claimed hc
  have hagrees := (h.rows _ _ hrow).agrees
  have hheld : holder (s.acts claimed.eventId) = some claimed.token := by
    rw [← hagrees.holder]
    exact ht
  have hn := tokens_acts h.tokens claimed.eventId
  rw [hacts] at hheld hn
  have hclaims := claims_of_held hn hheld
  rw [← hacts, ← hagrees.attempts] at hclaims
  rw [hcount]
  exact hclaims

/-- An act on a row that is one of its job, and the claim that it may have made. -/
theorem Inv.acted {host : Host} {s s' : St} (h : Inv host s) {id : String} {row row' : Row}
    {a : Act String Json} (hrow : s.rows.get? id = some row)
    (hnext : next host.maxAttempts row.job a = some row'.job) (hvalid : row'.Valid)
    (hpending : row'.status = .pending → row'.attemptCount < host.maxAttempts)
    (hrows : s'.rows = s.rows.set id row') (hhist : s'.history = s.history ++ [(id, a)])
    (htokens : (LeasedJob.tokens (s'.history.map Prod.snd)).Nodup)
    (hclaims : ∀ w c, Claims s' w c → Claims s w c ∨
      (c.eventId = id ∧ a = .claim c.token c.checkpoint ∧ c.attemptCount = row.attemptCount + 1)) :
    Inv host s' := by
  have hacts := acts_snoc hhist
  refine ⟨fun id' r hr => ?_, fun id' r hr => ?_, fun id' r hr => ?_, fun id' hr => ?_, htokens,
    fun w c hc => ?_⟩
  · rw [hrows, JsMap.get?_set] at hr
    rw [hacts]
    split at hr
    · rename_i hid
      cases hr
      rw [if_pos hid, hid]
      exact runs_snoc.mpr ⟨_, h.rows id row hrow, hnext⟩
    · rename_i hid
      rw [if_neg hid]
      exact h.rows id' r hr
  · rw [hrows, JsMap.get?_set] at hr
    split at hr
    · cases hr
      exact hvalid
    · exact h.valid id' r hr
  · rw [hrows, JsMap.get?_set] at hr
    split at hr
    · cases hr
      exact hpending
    · exact h.pending id' r hr
  · rw [hrows, JsMap.get?_set] at hr
    split at hr
    · cases hr
    · rename_i hid
      rw [hacts, if_neg hid]
      exact h.absent id' hr
  · rcases hclaims w c hc with hc | ⟨rfl, rfl, hcount⟩
    · obtain ⟨before, after, heq, hcount⟩ := h.claims w c hc
      rw [hacts, heq]
      split
      · exact ⟨before, after ++ [a], by simp, hcount⟩
      · exact ⟨before, after, rfl, hcount⟩
    · rw [hacts, if_pos rfl]
      refine ⟨s.acts c.eventId, [], rfl, ?_⟩
      rw [hcount, ← (h.rows _ _ hrow).agrees.attempts]
      rfl

theorem Row.fate_eq_none {row : Row} :
    row.fate = none ↔ row.status = .pending ∨ row.status = .processing := by
  unfold Row.fate
  cases row.status <;> simp

theorem sweep_next {host : Host} {s : St} (h : Inv host s) {id : String} {row : Row}
    {scope : Option Consumer} (hrow : s.rows.get? id = some row)
    (hex : exhausted host.maxAttempts s.now scope row = true) :
    next host.maxAttempts row.job .sweep = some (row.buried s.now).job ∧
      row.status = .processing ∧ row.expired s.now = true ∧
      row.attemptCount = host.maxAttempts := by
  unfold exhausted at hex
  simp only [Bool.and_eq_true, Bool.or_eq_true, decide_eq_true_eq] at hex
  obtain ⟨⟨hmax, hstatus⟩, -⟩ := hex
  have hbound : row.attemptCount ≤ host.maxAttempts := (h.rows id row hrow).agrees.bounded
  have hcount : row.attemptCount = host.maxAttempts := by omega
  rcases hstatus with hp | ⟨hp, hexp⟩
  · -- a pending row has attempts left
    have := h.pending id row hrow hp
    omega
  · exact ⟨next_sweep (j := row.job) (Row.fate_eq_none.mpr (.inr hp)) hcount, hp, hexp, hcount⟩

theorem fate_of_claimable {maxAttempts now : Nat} {row : Row} {scope : Option Consumer}
    (h : claimable maxAttempts now scope row = true) : row.fate = none := by
  rw [Row.fate_eq_none]
  unfold claimable at h
  simp only [Bool.and_eq_true, Bool.or_eq_true, decide_eq_true_eq] at h
  exact h.1.2.imp And.left And.left

theorem claim_next {host : Host} {row : Row} (now leaseMs : Nat) (token : String)
    {scope : Option Consumer} (hcl : claimable host.maxAttempts now scope row = true) :
    next host.maxAttempts row.job (.claim token row.checkpoint) =
      some (row.claimedBy now leaseMs token).job := by
  have hfate := fate_of_claimable hcl
  have hjob : (row.claimedBy now leaseMs token).job =
      { row.job with holder := some token, attempts := row.attemptCount + 1 } := by
    simp [Row.job, Row.claimedBy, hfate]
    rfl
  unfold claimable at hcl
  simp only [Bool.and_eq_true, decide_eq_true_eq] at hcl
  rw [hjob]
  exact next_claim (j := row.job) hfate hcl.1.1

theorem update_next {host : Host} {s : St} (h : Inv host s) {w : Nat} {claimed : ClaimedEvent}
    {row row' : Row} {a : Act String Json} (hc : Claims s w claimed)
    (hl : leased claimed s.rows = some row) (hup : Update host claimed row a row') :
    next host.maxAttempts row.job a = some row'.job ∧ row'.Valid ∧
      (row'.status = .pending → row'.attemptCount < host.maxAttempts) := by
  obtain ⟨hrow, hstatus, htoken⟩ := leased_eq_some hl
  have hvalid := h.valid _ _ hrow
  have hcount := h.attempt hc hrow htoken
  have hbound : row.attemptCount ≤ host.maxAttempts := (h.rows _ _ hrow).agrees.bounded
  have hheld : row.job.holder = some claimed.token := htoken
  have hfate : row.fate = none := Row.fate_eq_none.mpr (.inr hstatus)
  unfold Row.Valid at hvalid
  simp only [hstatus, if_true, reduceCtorEq, iff_false, Bool.not_eq_true,
    Option.isSome_eq_false_iff, Option.isNone_iff_eq_none] at hvalid
  obtain ⟨⟨hclaimed, hlease, -⟩, hprocessed, hdead⟩ := hvalid
  cases hup with
  | save now leaseMs value =>
    refine ⟨next_save hheld value, ?_, ?_⟩
    · simp [Row.Valid, Row.checkpointed, hstatus, hclaimed, htoken, hprocessed, hdead]
    · simp [Row.checkpointed, hstatus]
  | deliver now =>
    refine ⟨next_deliver hheld, ?_, ?_⟩
    · simp [Row.Valid, Row.markedDelivered, hdead]
    · simp [Row.markedDelivered]
  | fail now hostNow delay =>
    cases hlast : lastAttempt host claimed with
    | true =>
      unfold lastAttempt at hlast
      rw [decide_eq_true_eq] at hlast
      have hmax : row.job.attempts = host.maxAttempts := by
        show row.attemptCount = _
        omega
      refine ⟨next_bury hheld hmax, ?_, ?_⟩
      · simp [Row.Valid, Row.failed, hprocessed]
      · simp [Row.failed]
    | false =>
      unfold lastAttempt at hlast
      rw [decide_eq_false_iff_not] at hlast
      have hjob : (row.failed false now hostNow delay).job = { row.job with holder := none } := by
        simp [Row.job, Row.failed, hfate]
        rfl
      refine ⟨?_, ?_, fun _ => ?_⟩
      · rw [hjob]
        exact next_release hheld
      · simp [Row.Valid, Row.failed, hprocessed]
      · show row.attemptCount < _
        omega

theorem Row.buried_valid (row : Row) {now : Nat} (h : row.Valid) (hp : row.status = .processing) :
    (row.buried now).Valid := by
  have hprocessed : row.processedAt = none := by
    have := h.2.1
    rw [hp] at this
    simpa using this
  simp [Row.Valid, Row.buried, hprocessed]

theorem Row.claimedBy_valid (row : Row) (now leaseMs : Nat) (token : String) (h : row.Valid)
    (hp : row.fate = none) : (row.claimedBy now leaseMs token).Valid := by
  rw [Row.fate_eq_none] at hp
  obtain ⟨-, hprocessed, hdead⟩ := h
  rcases hp with hp | hp
  all_goals
    rw [hp] at hprocessed hdead
    simp at hprocessed hdead
    simp [Row.Valid, Row.claimedBy, hprocessed, hdead]

theorem tokens_snoc (history : List (String × Act String Json)) (id : String)
    (a : Act String Json) : tokens ((history ++ [(id, a)]).map Prod.snd) =
      tokens (history.map Prod.snd) ++ tokens [a] := by
  unfold tokens
  rw [List.map_append, List.filterMap_append]
  rfl

theorem inv_step {host : Host} {s s' : St} {e : Ev} (h : Inv host s)
    (hs : step host s e = some s') : Inv host s' := by
  cases step_effect hs with
  | quiet hrows hhist hclaims =>
    refine ⟨fun id row hr => ?_, fun id row hr => ?_, fun id row hr => ?_, fun id hr => ?_, ?_,
      fun w c hc => ?_⟩
    · rw [hrows] at hr
      rw [acts_of_history hhist]
      exact h.rows id row hr
    · rw [hrows] at hr
      exact h.valid id row hr
    · rw [hrows] at hr
      exact h.pending id row hr
    · rw [hrows] at hr
      rw [acts_of_history hhist]
      exact h.absent id hr
    · rw [hhist]
      exact h.tokens
    · rw [acts_of_history hhist]
      exact h.claims w c (hclaims w c hc)
  | inserted id row hnew hjob hstatus hvalid hrows hhist hclaims =>
    refine ⟨fun id' r hr => ?_, fun id' r hr => ?_, fun id' r hr => ?_, fun id' hr => ?_, ?_,
      fun w c hc => ?_⟩
    · rw [hrows, JsMap.get?_set] at hr
      rw [acts_of_history hhist]
      split at hr
      · rename_i hid
        cases hr
        rw [hid, h.absent id hnew, hjob]
        exact runs_nil
      · exact h.rows id' r hr
    · rw [hrows, JsMap.get?_set] at hr
      split at hr
      · cases hr
        exact hvalid
      · exact h.valid id' r hr
    · rw [hrows, JsMap.get?_set] at hr
      split at hr
      · cases hr
        intro _
        have hzero : row.attemptCount = 0 := congrArg Job.attempts hjob
        have := host.bounded
        omega
      · exact h.pending id' r hr
    · rw [hrows, JsMap.get?_set] at hr
      rw [acts_of_history hhist]
      split at hr
      · cases hr
      · exact h.absent id' hr
    · rw [hhist]
      exact h.tokens
    · rw [acts_of_history hhist]
      exact h.claims w c (hclaims w c hc)
  | swept w id row scope hev hrow hex hrows hhist hclaims =>
    obtain ⟨hnext, hp, -, -⟩ := sweep_next h hrow hex
    refine h.acted hrow hnext (Row.buried_valid row (h.valid id row hrow) hp) nofun hrows hhist ?_
      fun w c hc => .inl (hclaims w c hc)
    rw [hhist, tokens_snoc]
    simpa [tokens] using h.tokens
  | claimed w id token row options hrow hcl hnew hrows hhist hclaims =>
    have hnext := claim_next s.now options.leaseMs token hcl
    have hvalid := row.claimedBy_valid s.now options.leaseMs token (h.valid id row hrow)
      (fate_of_claimable hcl)
    refine h.acted hrow hnext hvalid nofun hrows hhist ?_ fun w' c hc => ?_
    · rw [hhist, tokens_snoc, List.nodup_append]
      refine ⟨h.tokens, List.nodup_singleton token, fun t ht t' ht' he => ?_⟩
      have ht' : t' = token := by simpa [tokens] using ht'
      exact hnew (ht' ▸ he ▸ ht)
    · rcases hclaims w' c hc with hc | rfl
      · exact .inl hc
      · exact .inr ⟨rfl, rfl, rfl⟩
  | updated w claimed row row' a hev hc hl hup hrows hhist hclaims =>
    obtain ⟨hnext, hvalid, hpending⟩ := update_next h hc hl hup
    refine h.acted (leased_eq_some hl).1 hnext hvalid hpending hrows hhist ?_
      fun w c hc => .inl (hclaims w c hc)
    -- an update draws no token
    have hnone : tokens [a] = [] := by
      cases hup with
      | save => rfl
      | deliver => rfl
      | fail => split <;> rfl
    rw [hhist, tokens_snoc, hnone, List.append_nil]
    exact h.tokens

theorem inv_inductive (host : Host) : (lts host).Inductive (Inv host) where
  init := fun _ h => inv_init host h
  step := fun _ _ _ h hs => inv_step h hs

/-! ## Every state -/

theorem Inv.kept {host : Host} {s : St} (h : Inv host s) : Kept host s := by
  -- an event without a row has no acts
  have hruns : ∀ id, s.acts id = [] ∨ ∃ j, Runs host.maxAttempts (s.acts id) j := by
    intro id
    cases hrow : s.rows.get? id with
    | none => exact .inl (h.absent id hrow)
    | some row => exact .inr ⟨_, h.rows id row hrow⟩
  refine ⟨fun id => ?_, fun id row hrow => ?_, fun id row hrow hd => ?_, ?_, ?_, ?_⟩
  · rcases hruns id with hnil | ⟨j, hj⟩
    · rw [hnil]
      exact Nat.zero_le 1
    · rw [hj.agrees.delivered]
      split <;> omega
  · exact ⟨(h.rows id row hrow).agrees.attempts, (h.rows id row hrow).agrees.bounded⟩
  · have hagrees := (h.rows id row hrow).agrees
    rw [← hagrees.attempts]
    refine hagrees.dead ?_
    unfold Row.job Row.fate
    rw [hd]
  · intro id before a after t hacts ha
    rcases hruns id with hnil | ⟨j, hj⟩
    · rw [hnil] at hacts
      exact absurd hacts.symm (by simp)
    · rw [hacts] at hj
      exact hj.fenced ha
  · intro w claimed hc
    obtain ⟨before, after, hacts, -⟩ := h.claims w claimed hc
    refine ⟨before, after, hacts, ?_⟩
    rcases hruns claimed.eventId with hnil | ⟨j, hj⟩
    · rw [hnil] at hacts
      exact absurd hacts.symm (by simp)
    · rw [hacts] at hj
      exact hj.started
  · intro w claimed hc before start after hacts hlost row hrow
    have hn := tokens_acts h.tokens claimed.eventId
    have hagrees := (h.rows _ _ hrow).agrees
    rw [hacts] at hn hagrees
    have hne := holder_ne_of_lost hn hlost
    rw [← hagrees.holder] at hne
    exact hne

/-! ## Every step -/

/-- A row that the step did not write is as it was. -/
theorem get?_of_set {s s' : St} {id id' : String} {row row₀ row' : Row}
    (hrows : s'.rows = s.rows.set id row₀) (hr : s.rows.get? id' = some row)
    (hr' : s'.rows.get? id' = some row') : (id' = id ∧ row' = row₀) ∨ row' = row := by
  rw [hrows, JsMap.get?_set] at hr'
  split at hr'
  · rename_i hid
    cases hr'
    exact .inl ⟨hid, rfl⟩
  · rw [hr] at hr'
    cases hr'
    exact .inr rfl

theorem Effect.checkpoint {host : Host} {s s' : St} {e : Ev} (heff : Effect host s e s')
    (id : String) (row row' : Row) (hr : s.rows.get? id = some row)
    (hr' : s'.rows.get? id = some row') (hne : row'.checkpoint ≠ row.checkpoint) :
    ∃ w value, e = .saveCheckpoint w value ∧ ByHolder s w id row := by
  cases heff with
  | quiet hrows =>
    rw [hrows, hr] at hr'
    cases hr'
    exact absurd rfl hne
  | inserted id₀ row₀ hnew hjob hstatus hvalid hrows =>
    rcases get?_of_set hrows hr hr' with ⟨rfl, -⟩ | rfl
    · rw [hr] at hnew
      cases hnew
    · exact absurd rfl hne
  | swept w id₀ row₀ scope hev hrow hex hrows =>
    rcases get?_of_set hrows hr hr' with ⟨rfl, rfl⟩ | rfl
    · rw [hr] at hrow
      cases hrow
      exact absurd rfl hne
    · exact absurd rfl hne
  | claimed w id₀ token row₀ options hrow hcl hnew hrows =>
    rcases get?_of_set hrows hr hr' with ⟨rfl, rfl⟩ | rfl
    · rw [hr] at hrow
      cases hrow
      exact absurd rfl hne
    · exact absurd rfl hne
  | updated w claimed row₀ row₁ a hev hc hl hup hrows =>
    obtain ⟨hrow, -, htoken⟩ := leased_eq_some hl
    rcases get?_of_set hrows hr hr' with ⟨rfl, rfl⟩ | rfl
    · rw [hr] at hrow
      cases hrow
      cases hup with
      | save now leaseMs value => exact ⟨w, value, hev, claimed, hc, rfl, htoken⟩
      | deliver now => exact absurd rfl hne
      | fail now hostNow delay => exact absurd rfl hne
    · exact absurd rfl hne

theorem Effect.ended {host : Host} {s s' : St} {e : Ev} (h : Inv host s)
    (heff : Effect host s e s') (id : String) (row row' : Row) (hr : s.rows.get? id = some row)
    (hr' : s'.rows.get? id = some row') (hne : row'.status ≠ row.status)
    (hended : row'.status ≠ .processing) :
    (∃ w hostNow, e = .finish w hostNow ∧ ByHolder s w id row) ∨
      ∃ w, e = .sweep w (some id) ∧ row.status = .processing ∧ row.expired s.now = true ∧
        row.attemptCount = host.maxAttempts := by
  cases heff with
  | quiet hrows =>
    rw [hrows, hr] at hr'
    cases hr'
    exact absurd rfl hne
  | inserted id₀ row₀ hnew hjob hstatus hvalid hrows =>
    rcases get?_of_set hrows hr hr' with ⟨rfl, -⟩ | rfl
    · rw [hr] at hnew
      cases hnew
    · exact absurd rfl hne
  | swept w id₀ row₀ scope hev hrow hex hrows =>
    rcases get?_of_set hrows hr hr' with ⟨rfl, rfl⟩ | rfl
    · rw [hr] at hrow
      cases hrow
      obtain ⟨-, hp, hexp, hcount⟩ := sweep_next h hr hex
      exact .inr ⟨w, hev, hp, hexp, hcount⟩
    · exact absurd rfl hne
  | claimed w id₀ token row₀ options hrow hcl hnew hrows =>
    rcases get?_of_set hrows hr hr' with ⟨rfl, rfl⟩ | rfl
    · exact absurd rfl hended
    · exact absurd rfl hne
  | updated w claimed row₀ row₁ a hev hc hl hup hrows =>
    obtain ⟨hrow, hp, htoken⟩ := leased_eq_some hl
    rcases get?_of_set hrows hr hr' with ⟨rfl, rfl⟩ | rfl
    · rw [hr] at hrow
      cases hrow
      cases hup with
      | save now leaseMs value => exact absurd rfl hne
      | deliver now =>
        obtain ⟨hostNow, he⟩ := hev
        exact .inl ⟨w, hostNow, he, claimed, hc, rfl, htoken⟩
      | fail now hostNow delay =>
        have hfinish : ∃ hostNow, e = .finish w hostNow := by
          split at hev <;> exact hev
        obtain ⟨hostNow', he⟩ := hfinish
        exact .inl ⟨w, hostNow', he, claimed, hc, rfl, htoken⟩
    · exact absurd rfl hne

def exampleHost : Host := ⟨2, by decide, fun _ => true⟩

def exampleOptions : Options := ⟨5, 1, none⟩

def exampleStart : St := ⟨0, .empty, [], []⟩

end KNex.Outbox
