import KNex.Core.History
import KNex.Ui.RemoteUiHostSession

/-!
# `RemoteUiHostSession`: what a session does with the frames of its app

The law (`Lawful`): frames are taken in the sequence 1, 2, 3, … and one at a time, with at most one
effect each; a load or an action is dispatched after the frame and its target were authorized;
nothing is done after the session was closed; and no more calls are dispatched in a minute than
`callsPerMinute`.

Two things are wrong in the code. The answer to `authorizeTarget` is acted on even if the session
was closed meanwhile, which the answer to `authorize` is not (`dispatched_after_close`). And the
limiter counts a call from when its frame was taken: one that waited for its authorization is
forgotten within a minute of its dispatch, and a call more is let through. `protocol_iff`: nothing
is done after a close exactly in the runs in which no target is granted to a closed session
(`Open`), and in those in which also no call is dispatched when the limiter is full and has
forgotten one of the minute before (`Remembered`) the whole law holds.
-/
namespace KNex.Ui.HostSession

open KNex.Core History

variable {V : Type}

/-! ## The law -/

def Act.taken? : Act → Option Nat
  | .taken m => some m
  | _ => none

/-- The frame on whose behalf something is done. -/
def Act.frame? : Act → Option Nat
  | .authorize m | .authorized m | .render m | .focus m | .navigate m => some m
  | .authorizeTarget m _ _ | .targetAuthorized m _ _ | .dispatch m _ _ => some m
  | _ => none

/-- The frame whose effect it is. -/
def Act.effect? : Act → Option Nat
  | .render m | .focus m | .navigate m | .dispatch m _ _ => some m
  | _ => none

def Act.isDispatch : Act → Bool
  | .dispatch _ _ _ => true
  | _ => false

/-- Answers come in, also to a session that was closed. -/
def Act.isAnswer : Act → Bool
  | .authorized _ | .targetAuthorized _ _ _ => true
  | _ => false

/-- The number of frames taken. -/
def takens (trace : List Entry) : Nat := trace.countP fun x => x.act.taken?.isSome

/-- The acts of the trace that are calls of the adapter's `source` or `action` at a time that `p`
selects. -/
def dispatches (trace : List Entry) (p : Nat → Bool) : Nat :=
  trace.countP fun x => x.act.isDispatch && p x.time

/-- A frame is taken after the one before it; what is done is done for the last one. -/
structure Ordered (before : List Entry) (x : Entry) : Prop where
  taken : ∀ m, x.act.taken? = some m → m = takens before + 1
  current : ∀ m, x.act.frame? = some m → m = takens before
  once : ∀ m, x.act.effect? = some m → ∀ y ∈ before, y.act.effect? ≠ some m
  authorized : ∀ m operation targetId, x.act = .dispatch m operation targetId →
    (∃ y ∈ before, y.act = .authorized m) ∧
      ∃ y ∈ before, y.act = .targetAuthorized m operation targetId

def Quiet (before : List Entry) (x : Entry) : Prop :=
  (∃ y ∈ before, y.act = .close) → x.act.isAnswer = true

structure Lawful (s : St V) : Prop where
  ordered : Along Ordered s.trace
  closed : Along Quiet s.trace
  rate : ∀ start, dispatches s.trace (fun t => start ≤ t && t < start + 60000) ≤ callsPerMinute

/-! ## The conditions -/

/-- The target of a request is granted. -/
def Grants (s : St V) (e : Ev V) : Prop :=
  e = .answer .yes ∧ ∃ m request, s.running = some (.authorizingTarget m request)

/-- A target is granted to a session that is open. -/
def Open (s : St V) (e : Ev V) (_ : St V) : Prop := Grants s e → s.closed = false

/-- When a call is dispatched and the limiter is full, the frame of every call of the minute before
was taken within a minute of the last check of the rate. -/
def Remembered (s : St V) (e : Ev V) (_ : St V) : Prop :=
  Grants s e → s.requestTimes.length = callsPerMinute → ∀ x ∈ s.trace, ∀ m operation targetId, x.act = .dispatch m operation targetId →
    s.now < x.time + 60000 → ∀ t, s.takenAt[m - 1]? = some t → s.checkedAt < t + 60000

/-! ## What a step does -/

/-- The trace grows by `es`; the limiter and the sequence are as they were. -/
structure Same (s s' : St V) (es : List Entry) (closed : Bool) : Prop where
  trace : s'.trace = s.trace ++ es
  closed : s'.closed = closed
  incoming : s'.incomingSequence = s.incomingSequence
  requestTimes : s'.requestTimes = s.requestTimes
  takenAt : s'.takenAt = s.takenAt
  checkedAt : s'.checkedAt = s.checkedAt
  now : s.now ≤ s'.now

/-- What is done for no frame. -/
inductive Plain (closed : Bool) : List Entry → Bool → Prop
  | nothing : Plain closed [] closed
  | posted (x : Entry) (isOpen : closed = false) (act : x.act = .present ∨ ∃ t, x.act = .post t) :
      Plain closed [x] false
  | closes (x : Entry) (isOpen : closed = false) (act : x.act = .close) : Plain closed [x] true
  | fails (x y : Entry) (isOpen : closed = false) (code : FallbackCode)
      (fallback : x.act = .fallback code) (close : y.act = .close) : Plain closed [x, y] true

/-- The task does not wait for an authorization. -/
def Past (r : Option Running) : Prop :=
  (∀ frame, r ≠ some (.authorizing frame)) ∧ ∀ m request, r ≠ some (.authorizingTarget m request)

/-- The session goes on: it is open, and no task has failed. -/
def Sound (s : St V) : Prop := s.closed = false ∧ ∀ code, s.running ≠ some (.failing code)

theorem past_none : Past none := ⟨nofun, nofun⟩

theorem past_failing (code : FallbackCode) : Past (some (.failing code)) := ⟨nofun, nofun⟩

theorem past_presenting : Past (some .presenting) := ⟨nofun, nofun⟩

theorem past_loading (request : Request) : Past (some (.loading request)) := ⟨nofun, nofun⟩

inductive Effect (host : Host V) (s : St V) (e : Ev V) (s' : St V) : Prop
  | other (es : List Entry) (closed : Bool) (same : Same s s' es closed)
      (plain : Plain s.closed es closed) (running : s'.running = s.running ∨ Past s'.running)
      (sound : Sound s' → Sound s)
  /-- The frame is one too many. -/
  | refused (isSound : Sound s) (past : Past s.running) (code : FallbackCode)
      (trace : s'.trace = s.trace ++ [⟨.taken (s.incomingSequence + 1), s.now⟩])
      (closed : s'.closed = false) (incoming : s'.incomingSequence = s.incomingSequence + 1)
      (running : s'.running = some (.failing code))
      (requestTimes : s'.requestTimes = pruned s.now s.requestTimes)
      (takenAt : s'.takenAt = s.takenAt) (checkedAt : s'.checkedAt = s.now) (now : s'.now = s.now)
  | taken (frame : RemoteUiFrame) (between : Nat) (isSound : Sound s) (past : Past s.running)
      (sequence : frame.sequence = s.incomingSequence + 1)
      (trace : s'.trace = s.trace ++ [⟨.taken frame.sequence, s.now⟩,
        ⟨.authorize frame.sequence, s.now + between⟩])
      (closed : s'.closed = false) (incoming : s'.incomingSequence = frame.sequence)
      (running : s'.running = some (.authorizing frame))
      (few : (pruned s.now s.requestTimes).length < callsPerMinute)
      (requestTimes : s'.requestTimes = pruned s.now s.requestTimes ++ [s.now + between])
      (takenAt : s'.takenAt = s.takenAt ++ [s.now + between]) (checkedAt : s'.checkedAt = s.now)
      (now : s'.now = s.now + between)
  | authorized (frame : RemoteUiFrame) (es : List Entry) (closed : Bool)
      (waiting : s.running = some (.authorizing frame))
      (same : Same s s' (⟨.authorized frame.sequence, s.now⟩ :: es) closed)
      (plain : Plain s.closed es closed) (past : Past s'.running) (sound : Sound s' → Sound s)
  | presented (frame : RemoteUiFrame) (x : Entry) (isSound : Sound s)
      (waiting : s.running = some (.authorizing frame))
      (same : Same s s' [⟨.authorized frame.sequence, s.now⟩, x] false)
      (act : x.act ∈ [.render frame.sequence, .focus frame.sequence, .navigate frame.sequence])
      (past : Past s'.running)
  | asked (frame : RemoteUiFrame) (request : Request) (isSound : Sound s)
      (waiting : s.running = some (.authorizing frame))
      (same : Same s s' [⟨.authorized frame.sequence, s.now⟩,
        ⟨.authorizeTarget frame.sequence request.operation request.targetId, s.now⟩] false)
      (declared : request.targetId ∈ allowed host.identity request.operation)
      (running : s'.running = some (.authorizingTarget frame.sequence request))
  | dispatched (m : Nat) (request : Request)
      (waiting : s.running = some (.authorizingTarget m request)) (ev : e = .answer .yes)
      (same : Same s s' [⟨.targetAuthorized m request.operation request.targetId, s.now⟩,
        ⟨.dispatch m request.operation request.targetId, s.now⟩] s.closed)
      (running : s'.running = some (.loading request))

theorem Plain.open {closed closed' : Bool} {es : List Entry} (h : Plain closed es closed')
    (hc : closed' = false) : closed = false := by
  cases h with
  | nothing => exact hc
  | posted x isOpen => exact isOpen
  | closes x isOpen => exact isOpen
  | fails x y isOpen => exact isOpen

variable {host : Host V} {s s' : St V} {e : Ev V} {es : List Entry} {closed : Bool}

theorem same_self (h : s'.trace = s.trace) (hc : s'.closed = s.closed)
    (hi : s'.incomingSequence = s.incomingSequence) (hr : s'.requestTimes = s.requestTimes)
    (ht : s'.takenAt = s.takenAt) (hk : s'.checkedAt = s.checkedAt) (hn : s.now ≤ s'.now) :
    Same s s' [] s.closed :=
  ⟨by rw [h, List.append_nil], hc, hi, hr, ht, hk, hn⟩

/-- A step that does nothing for a frame, and leaves the task as it was or ends it. -/
theorem Effect.of_plain (same : Same s s' es closed) (plain : Plain s.closed es closed)
    (hrun : s'.running = s.running ∨ (Past s'.running ∧
      ((∀ code, s.running ≠ some (.failing code)) ∨ closed = true))) : Effect host s e s' := by
  refine .other es closed same plain (hrun.imp id And.left) fun hsound => ?_
  obtain ⟨hclosed, hfail⟩ := hsound
  rw [same.closed] at hclosed
  refine ⟨plain.open hclosed, ?_⟩
  rcases hrun with hrun | ⟨-, hnot | htrue⟩
  · rw [← hrun]
    exact hfail
  · exact hnot
  · rw [htrue] at hclosed
    cases hclosed

theorem dispose_plain (s : St V) : ∃ es closed, Same s (dispose s) es closed ∧
    Plain s.closed es closed ∧ (dispose s).running = s.running := by
  unfold dispose
  split
  · exact ⟨[], s.closed, same_self rfl rfl rfl rfl rfl rfl (Nat.le_refl _), .nothing, rfl⟩
  · rename_i hopen
    exact ⟨[⟨.close, s.now⟩], true, ⟨rfl, rfl, rfl, rfl, rfl, rfl, Nat.le_refl _⟩,
      .closes _ (by simpa using hopen) rfl, rfl⟩

theorem controlledFailure_plain (code : FallbackCode) (s : St V) : ∃ es,
    Same s (controlledFailure code s) es true ∧ Plain s.closed es true ∧
      (controlledFailure code s).running = s.running := by
  unfold controlledFailure
  split
  · rename_i hclosed
    have hself : Same s s [] s.closed := same_self rfl rfl rfl rfl rfl rfl (Nat.le_refl _)
    rw [hclosed] at hself ⊢
    exact ⟨[], hself, .nothing, rfl⟩
  · rename_i hopen
    have hdispose : dispose (s.log (.fallback code)) =
        { (s.log (.fallback code)).log .close with
          closed := true, port := false, nodes := .empty, root := none
          outgoingSequence := s.outgoingSequence + if s.port then 1 else 0 } := if_neg hopen
    rw [hdispose]
    exact ⟨[⟨.fallback code, s.now⟩, ⟨.close, s.now⟩],
      ⟨List.append_assoc _ _ _, rfl, rfl, rfl, rfl, rfl, Nat.le_refl _⟩,
      .fails _ _ (by simpa using hopen) code rfl rfl, rfl⟩

theorem send_plain (host : Host V) (type : OutgoingType) (s : St V) : ∃ es closed,
    Same s (send host type s) es closed ∧ Plain s.closed es closed ∧
      (send host type s).running = s.running := by
  unfold send
  split
  · exact ⟨[], s.closed, same_self rfl rfl rfl rfl rfl rfl (Nat.le_refl _), .nothing, rfl⟩
  rename_i hopen
  have hopen : s.closed = false := by
    simp only [not_or, Bool.not_eq_true] at hopen
    exact hopen.2
  dsimp only
  split
  · exact ⟨[⟨.post type, s.now⟩], false, ⟨rfl, hopen, rfl, rfl, rfl, rfl, Nat.le_refl _⟩,
      .posted _ hopen (.inr ⟨type, rfl⟩), rfl⟩
  · obtain ⟨es, hsame, hplain, hrun⟩ := controlledFailure_plain .appFailure
      { s with outgoingSequence := s.outgoingSequence + 1 }
    exact ⟨es, true, ⟨hsame.trace, hsame.closed, hsame.incoming, hsame.requestTimes,
      hsame.takenAt, hsame.checkedAt, hsame.now⟩, hplain, hrun⟩

/-- A step that ends the task with an error. -/
theorem effect_failing (code : Option Code) (hnot : ∀ c, s.running ≠ some (.failing c)) :
    Effect host s e (failing code s) :=
  .of_plain (same_self rfl rfl rfl rfl rfl rfl (Nat.le_refl _)) .nothing
    (.inr ⟨past_failing _, .inl hnot⟩)

theorem effect_finished (hnot : ∀ c, s.running ≠ some (.failing c)) :
    Effect host s e (finished s) :=
  .of_plain (same_self rfl rfl rfl rfl rfl rfl (Nat.le_refl _)) .nothing
    (.inr ⟨past_none, .inl hnot⟩)

theorem takeFrame_effect (frame : RemoteUiFrame) (between : Nat) (hs : Sound s)
    (hp : Past s.running) (hseq : frame.sequence = s.incomingSequence + 1) :
    Effect host s e (takeFrame frame between s) := by
  unfold takeFrame
  dsimp only
  split
  · exact .refused hs hp _ (by rw [← hseq]; rfl) hs.1 hseq rfl rfl rfl rfl rfl
  · rename_i hfew
    exact .taken frame between hs hp hseq (List.append_assoc _ _ _) hs.1 rfl rfl
      (Nat.lt_of_not_le hfew) rfl rfl rfl rfl

/-- The queue's next task: the rest of the queue has no part in it. -/
theorem receive_effect (value : V) (between : Nat) (hnone : s.running = none) :
    Effect host s e (receive host value between s) := by
  have hnot : ∀ c, s.running ≠ some (.failing c) := by
    intro c
    rw [hnone]
    exact nofun
  unfold receive
  split
  · exact effect_finished hnot
  rename_i hopen
  split
  · exact effect_failing _ hnot
  split
  · exact effect_failing _ hnot
  split
  · exact effect_failing _ hnot
  split
  · exact effect_failing _ hnot
  split
  · exact effect_failing _ hnot
  · rename_i hseq
    have hseq := Decidable.not_not.mp hseq
    exact takeFrame_effect _ between ⟨by simpa using hopen, hnot⟩ (hnone ▸ past_none) hseq

theorem present_effect (presentation : RemoteUiSessions.RemoteUiHostPresentation)
    (hnone : s.running = none) : Effect host s e (present presentation s) := by
  have hnot : ∀ c, s.running ≠ some (.failing c) := by
    intro c
    rw [hnone]
    exact nofun
  unfold present
  split
  · exact effect_finished hnot
  rename_i hopen
  have hopen : s.closed = false := by simpa using hopen
  dsimp only
  split
  · have hsame : Same s { { s with presentation := presentation }.log .present with
        running := some .presenting } [⟨.present, s.now⟩] false :=
      ⟨rfl, hopen, rfl, rfl, rfl, rfl, Nat.le_refl _⟩
    exact .of_plain hsame (.posted _ hopen (.inl rfl)) (.inr ⟨past_presenting, .inl hnot⟩)
  · exact .of_plain (same_self rfl rfl rfl rfl rfl rfl (Nat.le_refl _)) .nothing
      (.inr ⟨past_none, .inl hnot⟩)

/-- The queue has no part in an effect. -/
theorem Effect.of_queue (queue : List (Task V)) (h : Effect host { s with queue := queue } e s') :
    Effect host s e s' := by
  have hsame : ∀ {es closed}, Same { s with queue := queue } s' es closed →
      Same s s' es closed := fun h =>
    ⟨h.trace, h.closed, h.incoming, h.requestTimes, h.takenAt, h.checkedAt, h.now⟩
  cases h with
  | other es closed same plain running sound =>
    exact .other es closed (hsame same) plain running sound
  | refused hs hp code trace closed incoming running times taken checked now =>
    exact .refused hs hp code trace closed incoming running times taken checked now
  | taken frame between hs hp hseq trace closed incoming running few times taken checked now =>
    exact .taken frame between hs hp hseq trace closed incoming running few times taken checked now
  | authorized frame es closed hw same plain past sound =>
    exact .authorized frame es closed hw (hsame same) plain past sound
  | presented frame x hs hw same act past => exact .presented frame x hs hw (hsame same) act past
  | asked frame request hs hw same hd running =>
    exact .asked frame request hs hw (hsame same) hd running
  | dispatched m request hw ev same running =>
    exact .dispatched m request hw ev (hsame same) running

/-- The session after the answer of `authorize` was noted. -/
theorem authorizeAnswered_effect (frame : RemoteUiFrame) (answer : Answer)
    (hw : s.running = some (.authorizing frame)) :
    Effect host s e (authorizeAnswered host frame s answer) := by
  have hnot : ∀ c, s.running ≠ some (.failing c) := by
    intro c
    rw [hw]
    exact nofun
  -- the task ends after the answer, without an effect of the frame
  have hends : ∀ s' es closed, Same (s.log (.authorized frame.sequence)) s' es closed →
      Plain s.closed es closed → Past s'.running → Effect host s e s' := by
    intro s' es closed hsame hplain hpast
    refine .authorized frame es closed hw ⟨?_, hsame.closed, hsame.incoming, hsame.requestTimes,
      hsame.takenAt, hsame.checkedAt, hsame.now⟩ hplain hpast fun hsound => ?_
    · rw [hsame.trace]
      exact List.append_assoc _ _ _
    · have hclosed := hsound.1
      rw [hsame.closed] at hclosed
      exact ⟨hplain.open hclosed, hnot⟩
  have hself : ∀ r, Same (s.log (.authorized frame.sequence))
      { s.log (.authorized frame.sequence) with running := r } [] s.closed := fun r =>
    same_self rfl rfl rfl rfl rfl rfl (Nat.le_refl _)
  cases answer with
  | throws code => exact effect_failing code hnot
  | no =>
    unfold authorizeAnswered
    dsimp only
    split
    · exact effect_finished hnot
    · obtain ⟨es, hsame, hplain, -⟩ := controlledFailure_plain .unauthorized s
      refine .of_plain ⟨hsame.trace, hsame.closed, hsame.incoming, hsame.requestTimes,
        hsame.takenAt, hsame.checkedAt, hsame.now⟩ hplain (.inr ⟨past_none, .inl hnot⟩)
  | yes =>
    unfold authorizeAnswered
    dsimp only
    split
    · exact hends _ [] s.closed (hself none) .nothing past_none
    rename_i hopen
    have hopen : s.closed = false := by simpa [St.log] using hopen
    have hsound : Sound s := ⟨hopen, hnot⟩
    unfold proceed
    split
    · exact hends _ [] s.closed (hself none) .nothing past_none
    · split
      · exact hends _ [] s.closed (hself _) .nothing (past_failing _)
      · exact .presented frame ⟨.render frame.sequence, s.now⟩ hsound hw
          ⟨List.append_assoc _ _ _, hopen, rfl, rfl, rfl, rfl, Nat.le_refl _⟩ (by simp)
          past_presenting
    · split
      · exact hends _ [] s.closed (hself _) .nothing (past_failing _)
      · exact .presented frame ⟨.focus frame.sequence, s.now⟩ hsound hw
          ⟨List.append_assoc _ _ _, hopen, rfl, rfl, rfl, rfl, Nat.le_refl _⟩ (by simp)
          past_presenting
    · split
      · exact hends _ [] s.closed (hself _) .nothing (past_failing _)
      · exact .presented frame ⟨.navigate frame.sequence, s.now⟩ hsound hw
          ⟨List.append_assoc _ _ _, hopen, rfl, rfl, rfl, rfl, Nat.le_refl _⟩ (by simp)
          past_presenting
    · obtain ⟨es, hsame, hplain, -⟩ := controlledFailure_plain .appFailure
        (s.log (.authorized frame.sequence))
      exact hends _ es true ⟨hsame.trace, hsame.closed, hsame.incoming, hsame.requestTimes,
        hsame.takenAt, hsame.checkedAt, hsame.now⟩ hplain past_none
    · split
      · exact hends _ [] s.closed (hself _) .nothing (past_failing _)
      · rename_i request _ hdeclared
        exact .asked frame request hsound hw
          ⟨List.append_assoc _ _ _, hopen, rfl, rfl, rfl, rfl, Nat.le_refl _⟩
          (Decidable.not_not.mp hdeclared) rfl

theorem step_effect (h : step host s e = some s') : Effect host s e s' := by
  cases e with
  | tick now =>
    simp only [step] at h
    split at h
    · cases h
      exact .of_plain (same_self rfl rfl rfl rfl rfl rfl ‹_›) .nothing (.inl rfl)
    · cases h
  | start =>
    simp only [step] at h
    split at h
    · cases h
      exact .of_plain (same_self rfl rfl rfl rfl rfl rfl (Nat.le_refl _)) .nothing (.inl rfl)
    · cases h
      obtain ⟨es, closed, hsame, hplain, hrun⟩ := send_plain host .bootstrap { s with port := true }
      exact .of_plain ⟨hsame.trace, hsame.closed, hsame.incoming, hsame.requestTimes,
        hsame.takenAt, hsame.checkedAt, hsame.now⟩ hplain (.inl hrun)
  | message value =>
    cases h
    exact .of_plain (same_self rfl rfl rfl rfl rfl rfl (Nat.le_refl _)) .nothing (.inl rfl)
  | updatePresentation input =>
    simp only [step] at h
    split at h
    · cases h
      exact .of_plain (same_self rfl rfl rfl rfl rfl rfl (Nat.le_refl _)) .nothing (.inl rfl)
    · cases h
      exact .of_plain (same_self rfl rfl rfl rfl rfl rfl (Nat.le_refl _)) .nothing (.inl rfl)
  | next between =>
    simp only [step] at h
    split at h
    · rename_i hnone hq
      cases h
      exact .of_queue _ (receive_effect (s := { s with queue := _ }) _ between hnone)
    · rename_i hnone hq
      cases h
      exact .of_queue _ (present_effect (s := { s with queue := _ }) _ hnone)
    · cases h
  | answer answer =>
    simp only [step, Option.bind_eq_some_iff] at h
    obtain ⟨r, hr, h⟩ := h
    have hnot : (∀ c, r ≠ .failing c) → ∀ c, s.running ≠ some (.failing c) := by
      intro hne c
      rw [hr]
      exact fun he => hne c (Option.some.inj he)
    cases r with
    | authorizing frame =>
      cases h
      exact authorizeAnswered_effect frame answer hr
    | authorizingTarget m request =>
      cases h
      cases answer with
      | throws code => exact effect_failing code (hnot nofun)
      | no => exact effect_failing _ (hnot nofun)
      | yes =>
        exact .dispatched m request hr rfl
          ⟨List.append_assoc _ _ _, rfl, rfl, rfl, rfl, rfl, Nat.le_refl _⟩ rfl
    | loading request =>
      cases h
      have hsend : ∀ type, Effect host s (.answer answer)
          (finished (if s.closed then s else send host type s)) := by
        intro type
        split
        · exact effect_finished (hnot nofun)
        · obtain ⟨es, closed, hsame, hplain, -⟩ := send_plain host type s
          exact .of_plain ⟨hsame.trace, hsame.closed, hsame.incoming, hsame.requestTimes,
            hsame.takenAt, hsame.checkedAt, hsame.now⟩ hplain
            (.inr ⟨past_none, .inl (hnot nofun)⟩)
      cases answer with
      | throws code => exact hsend .responseError
      | no => exact hsend .responseOk
      | yes => exact hsend .responseOk
    | presenting =>
      cases h
      cases answer with
      | throws code => exact effect_failing code (hnot nofun)
      | no => exact effect_finished (hnot nofun)
      | yes => exact effect_finished (hnot nofun)
    | failing code => cases h
  | caught =>
    simp only [step] at h
    split at h
    · cases h
      obtain ⟨es, hsame, hplain, -⟩ := controlledFailure_plain ‹_› s
      exact .of_plain ⟨hsame.trace, hsame.closed, hsame.incoming, hsame.requestTimes,
        hsame.takenAt, hsame.checkedAt, hsame.now⟩ hplain (.inr ⟨past_none, .inr rfl⟩)
    · cases h
  | crash code =>
    cases h
    obtain ⟨es, hsame, hplain, hrun⟩ := controlledFailure_plain code s
    exact .of_plain hsame hplain (.inl hrun)
  | dispose =>
    cases h
    obtain ⟨es, closed, hsame, hplain, hrun⟩ := dispose_plain s
    exact .of_plain hsame hplain (.inl hrun)
  | dispatchEvent nodeId event =>
    simp only [step] at h
    split at h
    · cases h
      exact .of_plain (same_self rfl rfl rfl rfl rfl rfl (Nat.le_refl _)) .nothing (.inl rfl)
    split at h
    · cases h
      obtain ⟨es, closed, hsame, hplain, hrun⟩ := send_plain host .event s
      exact .of_plain hsame hplain (.inl hrun)
    · cases h
      exact .of_plain (same_self rfl rfl rfl rfl rfl rfl (Nat.le_refl _)) .nothing (.inl rfl)

/-! ## The invariant -/

/-- The last frame has had no effect yet. -/
def Fresh (s : St V) : Prop :=
  1 ≤ s.incomingSequence ∧ ∀ y ∈ s.trace, y.act.effect? ≠ some s.incomingSequence

structure Inv (s : St V) : Prop where
  taken : takens s.trace = s.incomingSequence
  ordered : Along Ordered s.trace
  effects : ∀ y ∈ s.trace, ∀ m, y.act.effect? = some m → 1 ≤ m ∧ m ≤ s.incomingSequence
  isClosed : s.closed = true → ∃ y ∈ s.trace, y.act = .close
  isOpen : s.closed = false → ∀ y ∈ s.trace, y.act ≠ .close
  /-- The limiter has dropped readings that were a minute old. -/
  limiter : ∃ dropped, s.takenAt = dropped ++ s.requestTimes ∧
    ∀ t ∈ dropped, t + 60000 ≤ s.checkedAt
  few : s.requestTimes.length ≤ callsPerMinute
  clock : s.checkedAt ≤ s.now
  counted : Sound s → s.takenAt.length = s.incomingSequence
  bounded : s.takenAt.length ≤ s.incomingSequence
  /-- The frames after a call are taken after it was dispatched. -/
  later : ∀ x ∈ s.trace, ∀ m operation targetId, x.act = .dispatch m operation targetId →
    x.time ≤ s.now ∧ ∀ i, m ≤ i → ∀ t, s.takenAt[i]? = some t → x.time ≤ t
  authorizing : ∀ frame, s.running = some (.authorizing frame) →
    frame.sequence = s.incomingSequence ∧ Fresh s
  target : ∀ m request, s.running = some (.authorizingTarget m request) →
    m = s.incomingSequence ∧ Fresh s ∧ ∃ y ∈ s.trace, y.act = .authorized m

theorem inv_init (h : initial s) : Inv s := by
  obtain ⟨-, hc, -, hr, hi, -, ht, htr, hta, hk, -⟩ := h
  refine ⟨?_, ?_, ?_, ?_, ?_, ?_, ?_, ?_, ?_, ?_, ?_, ?_, ?_⟩
  · rw [htr, hi]
    rfl
  · rw [htr]
    exact along_nil
  · rw [htr]
    exact nofun
  · rw [hc]
    exact nofun
  · rw [htr]
    exact fun _ => nofun
  · exact ⟨[], by rw [hta, ht]; rfl, nofun⟩
  · rw [ht]
    exact Nat.zero_le _
  · rw [hk]
    exact Nat.zero_le _
  · rw [hta, hi]
    exact fun _ => rfl
  · rw [hta]
    exact Nat.zero_le _
  · rw [htr]
    exact nofun
  · rw [hr]
    exact fun _ => nofun
  · rw [hr]
    exact fun _ _ => nofun

/-- What is done for no frame is no act of one. -/
theorem Plain.acts {closed closed' : Bool} (h : Plain closed es closed') : ∀ x ∈ es,
    x.act.taken? = none ∧ x.act.frame? = none ∧ x.act.effect? = none ∧
      x.act.isDispatch = false := by
  cases h with
  | nothing => exact nofun
  | posted x _ hx =>
    intro y hy
    rw [List.mem_singleton] at hy
    subst hy
    rcases hx with hx | ⟨t, hx⟩ <;> rw [hx] <;> exact ⟨rfl, rfl, rfl, rfl⟩
  | closes x _ hx =>
    intro y hy
    rw [List.mem_singleton] at hy
    subst hy
    rw [hx]
    exact ⟨rfl, rfl, rfl, rfl⟩
  | fails x y _ code hx hy =>
    intro z hz
    rcases List.mem_cons.mp hz with rfl | hz
    · rw [hx]
      exact ⟨rfl, rfl, rfl, rfl⟩
    · rw [List.mem_singleton.mp hz, hy]
      exact ⟨rfl, rfl, rfl, rfl⟩

theorem Ordered.of_none {before : List Entry} {x : Entry} (ht : x.act.taken? = none)
    (hf : x.act.frame? = none) (he : x.act.effect? = none) (hd : x.act.isDispatch = false) :
    Ordered before x := by
  refine ⟨fun m h => ?_, fun m h => ?_, fun m h => ?_, fun m operation targetId h => ?_⟩
  · rw [ht] at h
    cases h
  · rw [hf] at h
    cases h
  · rw [he] at h
    cases h
  · rw [h] at hd
    cases hd

theorem takens_append (tr es : List Entry) : takens (tr ++ es) = takens tr + takens es :=
  List.countP_append

theorem Plain.takens {closed closed' : Bool} (h : Plain closed es closed') : takens es = 0 := by
  refine List.countP_eq_zero.mpr fun x hx => ?_
  rw [(h.acts x hx).1]
  exact nofun

/-- An act of the last frame that is no effect. -/
theorem Ordered.of_current {before : List Entry} {x : Entry} (ht : x.act.taken? = none)
    (hf : x.act.frame? = some (KNex.Ui.HostSession.takens before)) (he : x.act.effect? = none)
    (hd : x.act.isDispatch = false) : Ordered before x := by
  refine ⟨fun m h => ?_, fun m h => ?_, fun m h => ?_, fun m operation targetId h => ?_⟩
  · rw [ht] at h
    cases h
  · rw [hf] at h
    exact (Option.some.inj h).symm
  · rw [he] at h
    cases h
  · rw [h] at hd
    cases hd

/-- The session is open, unless something closes it, and then the close is in the trace. -/
theorem Plain.isClosed {closed closed' : Bool} (h : Plain closed es closed') (hc : closed' = true) :
    closed = true ∨ ∃ y ∈ es, y.act = .close := by
  cases h with
  | nothing => exact .inl hc
  | posted => cases hc
  | closes x _ hx => exact .inr ⟨x, List.mem_singleton_self x, hx⟩
  | fails x y _ _ _ hy => exact .inr ⟨y, List.mem_cons_of_mem _ (List.mem_singleton_self y), hy⟩

theorem Plain.isOpen {closed closed' : Bool} (h : Plain closed es closed') (hc : closed' = false) :
    ∀ y ∈ es, y.act ≠ .close := by
  cases h with
  | nothing => exact nofun
  | posted x _ hx =>
    intro y hy he
    rw [List.mem_singleton] at hy
    subst hy
    rw [he] at hx
    rcases hx with hx | ⟨t, hx⟩ <;> cases hx
  | closes => cases hc
  | fails => cases hc

/-- A step that takes no frame: what is left to show. -/
theorem Inv.of_same (h : Inv s) (same : Same s s' es closed) (htaken : takens es = 0)
    (hord : Along Ordered (s.trace ++ es))
    (heff : ∀ y ∈ es, ∀ m, y.act.effect? = some m → 1 ≤ m ∧ m ≤ s.incomingSequence)
    (hclosed : closed = true → s.closed = true ∨ ∃ y ∈ es, y.act = .close)
    (hopen : closed = false → s.closed = false ∧ ∀ y ∈ es, y.act ≠ .close)
    (hsound : Sound s' → Sound s)
    (hlater : ∀ x ∈ es, ∀ m operation targetId, x.act = .dispatch m operation targetId →
      x.time ≤ s'.now ∧ s.incomingSequence ≤ m)
    (hauth : ∀ frame, s'.running = some (.authorizing frame) →
      frame.sequence = s.incomingSequence ∧ Fresh s')
    (htarget : ∀ m request, s'.running = some (.authorizingTarget m request) →
      m = s.incomingSequence ∧ Fresh s' ∧ ∃ y ∈ s'.trace, y.act = .authorized m) : Inv s' := by
  refine ⟨?_, ?_, ?_, ?_, ?_, ?_, ?_, ?_, ?_, ?_, ?_, ?_, ?_⟩
  · rw [same.trace, takens_append, htaken, same.incoming]
    exact h.taken
  · rw [same.trace]
    exact hord
  · rw [same.trace, same.incoming]
    intro y hy
    rcases List.mem_append.mp hy with hy | hy
    · exact h.effects y hy
    · exact heff y hy
  · rw [same.closed, same.trace]
    intro hc
    rcases hclosed hc with hc | ⟨y, hy, hact⟩
    · obtain ⟨y, hy, hact⟩ := h.isClosed hc
      exact ⟨y, List.mem_append_left _ hy, hact⟩
    · exact ⟨y, List.mem_append_right _ hy, hact⟩
  · rw [same.closed, same.trace]
    intro hc y hy
    obtain ⟨hc, hes⟩ := hopen hc
    rcases List.mem_append.mp hy with hy | hy
    · exact h.isOpen hc y hy
    · exact hes y hy
  · rw [same.takenAt, same.requestTimes, same.checkedAt]
    exact h.limiter
  · rw [same.requestTimes]
    exact h.few
  · rw [same.checkedAt]
    exact Nat.le_trans h.clock same.now
  · intro hs
    rw [same.takenAt, same.incoming]
    exact h.counted (hsound hs)
  · rw [same.takenAt, same.incoming]
    exact h.bounded
  · rw [same.takenAt, same.trace]
    intro x hx m operation targetId hact
    rcases List.mem_append.mp hx with hx | hx
    · obtain ⟨hnow, hlate⟩ := h.later x hx m operation targetId hact
      exact ⟨Nat.le_trans hnow same.now, hlate⟩
    · obtain ⟨hnow, hm⟩ := hlater x hx m operation targetId hact
      refine ⟨hnow, fun i hi t ht => ?_⟩
      -- no frame was taken after this one
      have hlt := (List.getElem?_eq_some_iff.mp ht).1
      have := h.bounded
      omega
  · rw [same.incoming]
    exact hauth
  · rw [same.incoming]
    exact htarget

theorem Fresh.append (h : Fresh s) (same : Same s s' es closed)
    (hes : ∀ x ∈ es, x.act.effect? = none) : Fresh s' := by
  refine ⟨by rw [same.incoming]; exact h.1, fun y hy => ?_⟩
  rw [same.trace] at hy
  rw [same.incoming]
  rcases List.mem_append.mp hy with hy | hy
  · exact h.2 y hy
  · rw [hes y hy]
    exact nofun

theorem not_dispatch {x : Entry} (h : x.act.isDispatch = false) (m : Nat) (operation : Operation)
    (targetId : String) : x.act ≠ .dispatch m operation targetId := by
  intro he
  rw [he] at h
  cases h

/-- An act is appended for the frame that the task is about. -/
theorem ordered_authorized (h : Inv s) {x : Entry} (hx : x.act = .authorized s.incomingSequence) :
    Ordered s.trace x :=
  .of_current (by rw [hx]; rfl) (by rw [hx, h.taken]; rfl) (by rw [hx]; rfl) (by rw [hx]; rfl)

theorem along_plain {tr : List Entry} {c c' : Bool} (h : Along Ordered tr)
    (hp : Plain c es c') : Along Ordered (tr ++ es) :=
  along_append h fun x hx _ =>
    have ha := hp.acts x hx
    .of_none ha.1 ha.2.1 ha.2.2.1 ha.2.2.2

/-- What the limiter drops is a minute old. -/
theorem pruned_split (now : Nat) (times : List Nat) : ∃ dropped,
    times = dropped ++ pruned now times ∧ ∀ t ∈ dropped, t + 60000 ≤ now := by
  refine ⟨times.takeWhile fun t => t + 60000 ≤ now, ?_, fun t ht => ?_⟩
  · exact List.takeWhile_append_dropWhile.symm
  · simpa using List.all_eq_true.mp List.all_takeWhile t ht

theorem Inv.pruned (h : Inv s) : ∃ dropped,
    s.takenAt = dropped ++ KNex.Ui.HostSession.pruned s.now s.requestTimes ∧
      ∀ t ∈ dropped, t + 60000 ≤ s.now := by
  obtain ⟨dropped, htaken, hold⟩ := h.limiter
  obtain ⟨more, htimes, hmore⟩ := pruned_split s.now s.requestTimes
  refine ⟨dropped ++ more, ?_, fun t ht => ?_⟩
  · rw [List.append_assoc, ← htimes]
    exact htaken
  · have := h.clock
    rcases List.mem_append.mp ht with ht | ht
    · have := hold t ht
      omega
    · exact hmore t ht

theorem ordered_taken (h : Inv s) {x : Entry} (hx : x.act = .taken (s.incomingSequence + 1)) :
    Ordered s.trace x := by
  refine ⟨fun m hm => ?_, fun m hm => ?_, fun m hm => ?_, fun m operation targetId hm => ?_⟩
  · rw [hx] at hm
    cases hm
    rw [h.taken]
  · rw [hx] at hm
    cases hm
  · rw [hx] at hm
    cases hm
  · rw [hx] at hm
    cases hm

theorem inv_step (h : Inv s) (hs : step host s e = some s') : Inv s' := by
  cases step_effect hs with
  | other es closed same plain running sound =>
    have hnone : ∀ x ∈ es, x.act.effect? = none := fun x hx => (plain.acts x hx).2.2.1
    refine h.of_same same plain.takens (along_plain h.ordered plain) (fun y hy m hm => ?_)
      plain.isClosed (fun hc => ⟨plain.open hc, plain.isOpen hc⟩) sound
      (fun x hx m o t he => absurd he (not_dispatch (plain.acts x hx).2.2.2 m o t))
      (fun frame hf => ?_) fun m request hm => ?_
    · rw [hnone y hy] at hm
      cases hm
    · rcases running with heq | hpast
      · rw [heq] at hf
        obtain ⟨hseq, hfresh⟩ := h.authorizing frame hf
        exact ⟨hseq, hfresh.append same hnone⟩
      · exact absurd hf (hpast.1 frame)
    · rcases running with heq | hpast
      · rw [heq] at hm
        obtain ⟨hseq, hfresh, y, hy, hact⟩ := h.target m request hm
        refine ⟨hseq, hfresh.append same hnone, y, ?_, hact⟩
        rw [same.trace]
        exact List.mem_append_left _ hy
      · exact absurd hm (hpast.2 m request)
  | refused isSound past code trace closed incoming running times taken checked now =>
    have hnone : ∀ y ∈ s'.trace, ∀ m, y.act.effect? = some m → 1 ≤ m ∧ m ≤ s.incomingSequence := by
      rw [trace]
      intro y hy m hm
      rcases List.mem_append.mp hy with hy | hy
      · exact h.effects y hy m hm
      · rw [List.mem_singleton.mp hy] at hm
        cases hm
    refine ⟨?_, ?_, fun y hy m hm => ?_, ?_, fun _ y hy => ?_, ?_, ?_, ?_, ?_, ?_,
      fun y hy m o t he => ?_, ?_, ?_⟩
    · rw [trace, takens_append, incoming, h.taken]
      rfl
    · rw [trace]
      exact along_snoc.mpr ⟨h.ordered, ordered_taken h rfl⟩
    · rw [incoming]
      have := hnone y hy m hm
      omega
    · rw [closed]
      simp
    · rw [trace] at hy
      rcases List.mem_append.mp hy with hy | hy
      · exact h.isOpen isSound.1 y hy
      · rw [List.mem_singleton.mp hy]
        simp
    · rw [taken, times, checked]
      exact h.pruned
    · rw [times]
      exact Nat.le_trans (List.dropWhile_sublist _).length_le h.few
    · rw [checked, now]
    · intro hsound
      exact absurd running (hsound.2 code)
    · rw [taken, incoming]
      exact Nat.le_succ_of_le h.bounded
    · rw [now, taken]
      rw [trace] at hy
      rcases List.mem_append.mp hy with hy | hy
      · exact h.later y hy m o t he
      · rw [List.mem_singleton.mp hy] at he
        cases he
    · rw [running]
      simp
    · rw [running]
      simp
  | taken frame between isSound past seq trace closed incoming running few times taken checked now =>
    have hnone : ∀ y ∈ s'.trace, ∀ m, y.act.effect? = some m → 1 ≤ m ∧ m ≤ s.incomingSequence := by
      rw [trace]
      intro y hy m hm
      rcases List.mem_append.mp hy with hy | hy
      · exact h.effects y hy m hm
      · rcases List.mem_cons.mp hy with rfl | hy
        · cases hm
        · rw [List.mem_singleton.mp hy] at hm
          cases hm
    have hfirst : Ordered s.trace ⟨.taken frame.sequence, s.now⟩ :=
      ordered_taken h (congrArg Act.taken seq)
    have hcount : takens (s.trace ++ [⟨.taken frame.sequence, s.now⟩]) = frame.sequence := by
      rw [takens_append, h.taken, seq]
      rfl
    refine ⟨?_, ?_, fun y hy m hm => ?_, ?_, fun _ y hy => ?_, ?_, ?_, ?_, ?_, ?_,
      fun y hy m o t he => ?_, ?_, ?_⟩
    · rw [trace, List.append_cons, takens_append, hcount, incoming]
      rfl
    · rw [trace]
      refine along_pair.mpr ⟨h.ordered, hfirst, ?_⟩
      exact .of_current rfl (congrArg some hcount.symm) rfl rfl
    · rw [incoming]
      have := hnone y hy m hm
      omega
    · rw [closed]
      simp
    · rw [trace] at hy
      rcases List.mem_append.mp hy with hy | hy
      · exact h.isOpen isSound.1 y hy
      · rcases List.mem_cons.mp hy with rfl | hy
        · simp
        · rw [List.mem_singleton.mp hy]
          simp
    · rw [taken, times, checked]
      obtain ⟨dropped, htaken, hdropped⟩ := h.pruned
      refine ⟨dropped, ?_, hdropped⟩
      rw [htaken, List.append_assoc]
    · rw [times, List.length_append, List.length_singleton]
      omega
    · rw [checked, now]
      omega
    · intro _
      rw [taken, List.length_append, h.counted isSound, incoming, seq]
      rfl
    · rw [taken, List.length_append, h.counted isSound, incoming, seq]
      exact Nat.le_refl _
    · rw [trace] at hy
      rcases List.mem_append.mp hy with hy | hy
      · obtain ⟨hnow, hlate⟩ := h.later y hy m o t he
        rw [now, taken]
        refine ⟨by omega, fun i hi p hp => ?_⟩
        rcases getElem?_snoc hp with hp | ⟨-, rfl⟩
        · exact hlate i hi p hp
        · omega
      · rcases List.mem_cons.mp hy with rfl | hy
        · cases he
        · rw [List.mem_singleton.mp hy] at he
          cases he
    · rw [running]
      intro frame' hf
      cases hf
      refine ⟨incoming.symm, by omega, fun y hy he => ?_⟩
      have := hnone y hy _ he
      omega
    · rw [running]
      simp
  | authorized frame es closed hw same plain past sound =>
    obtain ⟨hseq, -⟩ := h.authorizing frame hw
    have hx : Ordered s.trace ⟨.authorized frame.sequence, s.now⟩ :=
      ordered_authorized h (congrArg Act.authorized hseq)
    refine h.of_same same ?_ ?_ (fun y hy m hm => ?_) (fun hc => ?_) (fun hc => ?_) sound
      (fun y hy m o t he => ?_) (fun frame hf => absurd hf (past.1 frame))
      fun m request hm => absurd hm (past.2 m request)
    · have hplain := plain.takens
      unfold takens at hplain ⊢
      rw [List.countP_cons, hplain]
      rfl
    · rw [List.append_cons]
      exact along_plain (along_snoc.mpr ⟨h.ordered, hx⟩) plain
    · rcases List.mem_cons.mp hy with rfl | hy
      · cases hm
      · rw [(plain.acts y hy).2.2.1] at hm
        cases hm
    · refine (plain.isClosed hc).imp id fun hy => ?_
      obtain ⟨y, hy, hact⟩ := hy
      exact ⟨y, List.mem_cons_of_mem _ hy, hact⟩
    · refine ⟨plain.open hc, fun y hy => ?_⟩
      rcases List.mem_cons.mp hy with rfl | hy
      · simp
      · exact plain.isOpen hc y hy
    · rcases List.mem_cons.mp hy with rfl | hy
      · cases he
      · exact absurd he (not_dispatch (plain.acts y hy).2.2.2 m o t)
  | presented frame x isSound hw same act past =>
    obtain ⟨hseq, hfresh⟩ := h.authorizing frame hw
    have hfirst : Ordered s.trace ⟨.authorized frame.sequence, s.now⟩ :=
      ordered_authorized h (congrArg Act.authorized hseq)
    have hact : x.act.taken? = none ∧ x.act.frame? = some frame.sequence ∧
        x.act.effect? = some frame.sequence ∧ x.act.isDispatch = false ∧ x.act ≠ .close := by
      simp only [List.mem_cons, List.not_mem_nil, or_false] at act
      rcases act with act | act | act <;> rw [act] <;> exact ⟨rfl, rfl, rfl, rfl, (by simp)⟩
    have htakens : takens [⟨.authorized frame.sequence, s.now⟩, x] = 0 := by
      unfold takens
      rw [List.countP_cons, List.countP_singleton, hact.1]
      rfl
    have hsecond : Ordered (s.trace ++ [⟨.authorized frame.sequence, s.now⟩]) x := by
      refine ⟨fun m hm => ?_, fun m hm => ?_, fun m hm y hy => ?_, fun m operation t hm => ?_⟩
      · rw [hact.1] at hm
        cases hm
      · rw [hact.2.1] at hm
        cases hm
        rw [takens_append, h.taken, hseq]
        rfl
      · rw [hact.2.2.1] at hm
        cases hm
        rcases List.mem_append.mp hy with hy | hy
        · rw [hseq]
          exact hfresh.2 y hy
        · rw [List.mem_singleton.mp hy]
          intro hn
          cases hn
      · rw [hm] at hact
        exact absurd hact.2.2.2.1 (by intro hn; cases hn)
    refine h.of_same same htakens (along_pair.mpr ⟨h.ordered, hfirst, hsecond⟩)
      (fun y hy m hm => ?_) (by simp) (fun _ => ⟨isSound.1, fun y hy => ?_⟩) (fun _ => isSound)
      (fun y hy m o t he => ?_) (fun frame hf => absurd hf (past.1 frame))
      fun m request hm => absurd hm (past.2 m request)
    · rcases List.mem_cons.mp hy with rfl | hy
      · cases hm
      · rw [List.mem_singleton.mp hy, hact.2.2.1] at hm
        cases hm
        have := hfresh.1
        omega
    · rcases List.mem_cons.mp hy with rfl | hy
      · simp
      · rw [List.mem_singleton.mp hy]
        exact hact.2.2.2.2
    · rcases List.mem_cons.mp hy with rfl | hy
      · cases he
      · rw [List.mem_singleton.mp hy] at he
        exact absurd he (not_dispatch hact.2.2.2.1 m o t)
  | asked frame request isSound hw same declared running =>
    obtain ⟨hseq, hfresh⟩ := h.authorizing frame hw
    have hfirst : Ordered s.trace ⟨.authorized frame.sequence, s.now⟩ :=
      ordered_authorized h (congrArg Act.authorized hseq)
    have hcount : takens (s.trace ++ [⟨.authorized frame.sequence, s.now⟩]) = frame.sequence := by
      rw [takens_append, h.taken, hseq]
      rfl
    have hnone : ∀ y ∈ [(⟨.authorized frame.sequence, s.now⟩ : Entry),
        ⟨.authorizeTarget frame.sequence request.operation request.targetId, s.now⟩],
        y.act.effect? = none ∧ y.act ≠ .close ∧ y.act.isDispatch = false := by
      intro y hy
      rcases List.mem_cons.mp hy with rfl | hy
      · exact ⟨rfl, (by simp), rfl⟩
      · rw [List.mem_singleton.mp hy]
        exact ⟨rfl, (by simp), rfl⟩
    refine h.of_same same rfl (along_pair.mpr ⟨h.ordered, hfirst, ?_⟩) (fun y hy m hm => ?_) (by simp)
      (fun _ => ⟨isSound.1, fun y hy => (hnone y hy).2.1⟩) (fun _ => isSound)
      (fun y hy m o t he => absurd he (not_dispatch (hnone y hy).2.2 m o t)) (fun frame hf => ?_)
      fun m request hm => ?_
    · exact .of_current rfl (congrArg some hcount.symm) rfl rfl
    · rw [(hnone y hy).1] at hm
      cases hm
    · rw [running] at hf
      cases hf
    · rw [running] at hm
      cases hm
      refine ⟨hseq, hfresh.append same fun y hy => (hnone y hy).1,
        ⟨.authorized frame.sequence, s.now⟩, ?_, rfl⟩
      rw [same.trace]
      exact List.mem_append_right _ List.mem_cons_self
  | dispatched m request hw ev same running =>
    obtain ⟨hseq, hfresh, y, hy, hauth⟩ := h.target m request hw
    subst hseq
    have hfirst : Ordered s.trace
        ⟨.targetAuthorized s.incomingSequence request.operation request.targetId, s.now⟩ :=
      .of_current rfl (congrArg some h.taken.symm) rfl rfl
    have hsecond : Ordered (s.trace ++ [⟨.targetAuthorized s.incomingSequence request.operation
        request.targetId, s.now⟩])
        ⟨.dispatch s.incomingSequence request.operation request.targetId, s.now⟩ := by
      refine ⟨fun m hm => (by cases hm), fun m hm => ?_, fun m hm z hz => ?_, fun m operation t hm => ?_⟩
      · cases hm
        rw [takens_append, h.taken]
        rfl
      · cases hm
        rcases List.mem_append.mp hz with hz | hz
        · exact hfresh.2 z hz
        · rw [List.mem_singleton.mp hz]
          intro hn
          cases hn
      · cases hm
        exact ⟨⟨y, List.mem_append_left _ hy, hauth⟩, _,
          List.mem_append_right _ (List.mem_singleton_self _), rfl⟩
    refine h.of_same same rfl (along_pair.mpr ⟨h.ordered, hfirst, hsecond⟩) (fun z hz m hm => ?_)
      .inl (fun hc => ⟨hc, fun z hz => ?_⟩) (fun hsound => ?_) (fun z hz m o t he => ?_)
      (fun frame hf => ?_) fun m request hm => ?_
    · rcases List.mem_cons.mp hz with rfl | hz
      · cases hm
      · rw [List.mem_singleton.mp hz] at hm
        cases hm
        exact ⟨hfresh.1, Nat.le_refl _⟩
    · rcases List.mem_cons.mp hz with rfl | hz
      · simp
      · rw [List.mem_singleton.mp hz]
        simp
    · refine ⟨?_, fun code hcode => ?_⟩
      · rw [← same.closed]
        exact hsound.1
      · rw [hw] at hcode
        cases hcode
    · rcases List.mem_cons.mp hz with rfl | hz
      · cases he
      · rw [List.mem_singleton.mp hz] at he ⊢
        cases he
        exact ⟨same.now, Nat.le_refl _⟩
    · rw [running] at hf
      cases hf
    · rw [running] at hm
      cases hm

/-! ## Closed sessions -/

theorem quiet_of_open {tr : List Entry} {x : Entry} (h : ∀ y ∈ tr, y.act ≠ .close) :
    Quiet tr x := by
  intro ⟨y, hy, hact⟩
  exact absurd hact (h y hy)

theorem quiet_plain {tr : List Entry} {c c' : Bool} (h : Along Quiet tr)
    (hopen : c = false → ∀ y ∈ tr, y.act ≠ .close) (hp : Plain c es c') :
    Along Quiet (tr ++ es) := by
  cases hp with
  | nothing => rwa [List.append_nil]
  | posted x hc => exact along_snoc.mpr ⟨h, quiet_of_open (hopen hc)⟩
  | closes x hc => exact along_snoc.mpr ⟨h, quiet_of_open (hopen hc)⟩
  | fails x y hc code hx =>
    refine along_pair.mpr ⟨h, quiet_of_open (hopen hc), quiet_of_open fun z hz => ?_⟩
    rcases List.mem_append.mp hz with hz | hz
    · exact hopen hc z hz
    · rw [List.mem_singleton.mp hz, hx]
      exact nofun

/-- Two entries of a session that is open; the first of them does not close it. -/
theorem quiet_pair (h : Inv s) (hq : Along Quiet s.trace) (hc : s.closed = false) {x y : Entry}
    (hx : x.act ≠ .close) : Along Quiet (s.trace ++ [x, y]) := by
  refine along_pair.mpr ⟨hq, quiet_of_open (h.isOpen hc), quiet_of_open fun z hz => ?_⟩
  rcases List.mem_append.mp hz with hz | hz
  · exact h.isOpen hc z hz
  · rw [List.mem_singleton.mp hz]
    exact hx

theorem quiet_step (h : Inv s) (hq : Along Quiet s.trace) (hs : step host s e = some s')
    (ho : Open s e s') : Along Quiet s'.trace := by
  cases step_effect hs with
  | other es closed same plain =>
    rw [same.trace]
    exact quiet_plain hq h.isOpen plain
  | refused isSound past code trace =>
    rw [trace]
    exact along_snoc.mpr ⟨hq, quiet_of_open (h.isOpen isSound.1)⟩
  | taken frame between isSound past seq trace =>
    rw [trace]
    exact quiet_pair h hq isSound.1 nofun
  | authorized frame es closed hw same plain =>
    rw [same.trace, List.append_cons]
    refine quiet_plain (along_snoc.mpr ⟨hq, fun _ => rfl⟩) (fun hc y hy => ?_) plain
    rcases List.mem_append.mp hy with hy | hy
    · exact h.isOpen hc y hy
    · rw [List.mem_singleton.mp hy]
      exact nofun
  | presented frame x isSound hw same =>
    rw [same.trace]
    exact quiet_pair h hq isSound.1 nofun
  | asked frame request isSound hw same =>
    rw [same.trace]
    exact quiet_pair h hq isSound.1 nofun
  | dispatched m request hw ev same =>
    rw [same.trace]
    exact quiet_pair h hq (ho ⟨ev, m, request, hw⟩) nofun

/-- The trace only grows. -/
theorem trace_step (hs : step host s e = some s') : ∃ es, s'.trace = s.trace ++ es := by
  cases step_effect hs with
  | other es closed same => exact ⟨es, same.trace⟩
  | refused isSound past code trace => exact ⟨_, trace⟩
  | taken frame between isSound past seq trace => exact ⟨_, trace⟩
  | authorized frame es closed hw same => exact ⟨_, same.trace⟩
  | presented frame x isSound hw same => exact ⟨_, same.trace⟩
  | asked frame request isSound hw same => exact ⟨_, same.trace⟩
  | dispatched m request hw ev same => exact ⟨_, same.trace⟩

theorem trace_run {evs : List (Ev V)} (hr : (lts host).Run s evs s') :
    ∃ es, s'.trace = s.trace ++ es := by
  induction hr with
  | nil => exact ⟨[], (List.append_nil _).symm⟩
  | cons hs _ ih =>
    obtain ⟨es, h⟩ := trace_step hs
    obtain ⟨es', h'⟩ := ih
    exact ⟨es ++ es', by rw [h', h, List.append_assoc]⟩

/-- A target that is granted to a closed session is dispatched to. -/
theorem not_quiet (h : Inv s) (hs : step host s e = some s') (hg : Grants s e)
    (hc : s.closed = true) : ¬ Along Quiet s'.trace := by
  obtain ⟨he, m, request, hr⟩ := hg
  subst he
  simp only [step, hr, Option.bind_some, answered, Option.some.injEq] at hs
  subst hs
  intro hq
  obtain ⟨y, hy, hact⟩ := h.isClosed hc
  have hlast : Quiet (s.trace ++ [⟨.targetAuthorized m request.operation request.targetId, s.now⟩])
      ⟨.dispatch m request.operation request.targetId, s.now⟩ :=
    (along_snoc.mp hq).2
  have hanswer := hlast ⟨y, List.mem_append_left _ hy, hact⟩
  cases hanswer

/-! ## The rate -/

def Rated (before : List Entry) (x : Entry) : Prop :=
  x.act.isDispatch = true →
    dispatches before (fun t => x.time < t + 60000) < callsPerMinute

theorem dispatches_append (tr es : List Entry) (p : Nat → Bool) :
    dispatches (tr ++ es) p = dispatches tr p + dispatches es p :=
  List.countP_append

/-- The last call of a minute has the others in the minute before it. -/
theorem rate_of_rated {tr : List Entry} (h : Along Rated tr) (start : Nat) :
    dispatches tr (fun t => start ≤ t && t < start + 60000) ≤ callsPerMinute := by
  induction tr using List.reverseRecOn with
  | nil => exact Nat.zero_le _
  | append_singleton tr x ih =>
    obtain ⟨h, hx⟩ := along_snoc.mp h
    have ih := ih h
    rw [dispatches_append]
    by_cases hd : (x.act.isDispatch && (start ≤ x.time && x.time < start + 60000)) = true
    · have hone : dispatches [x] (fun t => start ≤ t && t < start + 60000) = 1 := by
        unfold dispatches
        rw [List.countP_singleton, if_pos hd]
      simp only [Bool.and_eq_true, decide_eq_true_eq] at hd
      have hlt := hx hd.1
      have hle : dispatches tr (fun t => start ≤ t && t < start + 60000) ≤
          dispatches tr (fun t => x.time < t + 60000) := by
        refine List.countP_mono_left fun y _ hy => ?_
        simp only [Bool.and_eq_true, decide_eq_true_eq] at hy ⊢
        exact ⟨hy.1, by omega⟩
      omega
    · have hzero : dispatches [x] (fun t => start ≤ t && t < start + 60000) = 0 := by
        unfold dispatches
        rw [List.countP_singleton, if_neg hd]
      omega

/-- A frame has one effect. -/
theorem nodup_effects {tr : List Entry} (h : Along Ordered tr) :
    (tr.filterMap fun x => x.act.effect?).Nodup := by
  induction tr using List.reverseRecOn with
  | nil => exact List.nodup_nil
  | append_singleton tr x ih =>
    obtain ⟨h, hx⟩ := along_snoc.mp h
    rw [List.filterMap_append, List.nodup_append]
    refine ⟨ih h, ?_, fun m hm m' hm' he => ?_⟩
    · cases hm : x.act.effect? <;> simp [hm]
    · subst he
      obtain ⟨y, hy, hym⟩ := List.mem_filterMap.mp hm
      have hxm : x.act.effect? = some m := by
        simpa using hm'
      exact hx.once m hxm y hy hym

/-- The calls of the last minute. -/
def recent (s : St V) : List Entry :=
  s.trace.filter fun x => x.act.isDispatch && decide (s.now < x.time + 60000)

/-- The frame of one of them: it was taken before the last one, and what the limiter has dropped of
them is old. -/
theorem recent_frame (h : Inv s) (hfresh : Fresh s) {x : Entry} (hx : x ∈ recent s) :
    x ∈ s.trace ∧ s.now < x.time + 60000 ∧ ∃ m operation targetId,
      x.act = .dispatch m operation targetId ∧ 1 ≤ m ∧ m < s.incomingSequence := by
  obtain ⟨hx, hp⟩ := List.mem_filter.mp hx
  simp only [Bool.and_eq_true, decide_eq_true_eq] at hp
  cases hact : x.act with
  | dispatch m operation targetId =>
    have heff : x.act.effect? = some m := by rw [hact]; rfl
    obtain ⟨h1, hle⟩ := h.effects x hx m heff
    have hne : m ≠ s.incomingSequence := fun he => hfresh.2 x hx (he ▸ heff)
    exact ⟨hx, hp.2, m, operation, targetId, rfl, h1, by omega⟩
  | _ =>
    rw [hact] at hp
    cases hp.1

/-- There are no more of them than numbers that they may have. -/
theorem length_recent_le (h : Inv s) (hfresh : Fresh s) {numbers : List Nat}
    (hnumbers : ∀ x ∈ recent s, ∀ m, x.act.effect? = some m → m ∈ numbers) :
    dispatches s.trace (fun t => s.now < t + 60000) ≤ numbers.length := by
  have hlen : ((recent s).filterMap fun x => x.act.effect?).length = (recent s).length := by
    rw [List.length_filterMap_eq_countP, List.countP_eq_length]
    intro x hx
    obtain ⟨-, -, m, operation, targetId, hact, -⟩ := recent_frame h hfresh hx
    rw [hact]
    rfl
  have hnodup : ((recent s).filterMap fun x => x.act.effect?).Nodup :=
    (List.filter_sublist.filterMap _).nodup (nodup_effects h.ordered)
  have hsub : ((recent s).filterMap fun x => x.act.effect?) ⊆ numbers := by
    intro m hm
    obtain ⟨x, hx, hxm⟩ := List.mem_filterMap.mp hm
    exact hnumbers x hx m hxm
  have hle := (List.subperm_of_subset hnodup hsub).length_le
  have hrecent : dispatches s.trace (fun t => s.now < t + 60000) = (recent s).length :=
    List.countP_eq_length_filter
  omega

/-- Of the calls of the last minute the limiter has dropped one at most: the frame after it was
taken when it had been dispatched. -/
theorem dropped_once (h : Inv s) (hfresh : Fresh s) {dropped : List Nat}
    (htaken : s.takenAt = dropped ++ s.requestTimes)
    (hold : ∀ t ∈ dropped, t + 60000 ≤ s.checkedAt) {x y : Entry} (hx : x ∈ recent s)
    (hy : y ∈ recent s) {m n : Nat} (hm : x.act.effect? = some m) (hn : y.act.effect? = some n)
    (hlow : n ≤ dropped.length) : n ≤ m := by
  obtain ⟨hxt, hxnow, m', o, t, hact, -⟩ := recent_frame h hfresh hx
  obtain ⟨-, -, n', o', t', hact', hpos, -⟩ := recent_frame h hfresh hy
  rw [hact] at hm
  cases hm
  rw [hact'] at hn
  cases hn
  by_contra hlt
  have hbound : n - 1 < dropped.length := by omega
  have hget : s.takenAt[n - 1]? = some dropped[n - 1] := by
    rw [htaken, List.getElem?_append_left hbound, List.getElem?_eq_getElem hbound]
  have hlate := (h.later x hxt m o t hact).2 (n - 1) (by omega) _ hget
  have := hold _ (List.getElem_mem hbound)
  have := h.clock
  omega

theorem few_dispatches (h : Inv s) (hsound : Sound s) (hfresh : Fresh s)
    (hrem : s.requestTimes.length = callsPerMinute → ∀ x ∈ s.trace, ∀ m operation targetId,
      x.act = .dispatch m operation targetId → s.now < x.time + 60000 →
      ∀ t, s.takenAt[m - 1]? = some t → s.checkedAt < t + 60000) :
    dispatches s.trace (fun t => s.now < t + 60000) < callsPerMinute := by
  obtain ⟨dropped, htaken, hold⟩ := h.limiter
  have hcount := h.counted hsound
  have hfew := h.few
  have hfirst := hfresh.1
  have hmax : callsPerMinute = 240 := rfl
  rw [htaken, List.length_append] at hcount
  have hhigh : ∀ x ∈ recent s, ∀ m, x.act.effect? = some m → dropped.length < m →
      m ∈ List.range' (dropped.length + 1) (s.incomingSequence - 1 - dropped.length) := by
    intro x hx m hm hlow
    obtain ⟨-, -, m', o, t, hact, -, hlt⟩ := recent_frame h hfresh hx
    rw [hact] at hm
    cases hm
    rw [List.mem_range'_1]
    omega
  by_cases hfull : s.requestTimes.length = callsPerMinute
  · -- the limiter is full: it has the frames of all of them
    have hle := length_recent_le h hfresh fun x hx m hm => hhigh x hx m hm ?_
    · rw [List.length_range'] at hle
      omega
    · obtain ⟨hxt, hxnow, m', o, t, hact, hpos, -⟩ := recent_frame h hfresh hx
      rw [hact] at hm
      cases hm
      by_contra hlow
      have hbound : m - 1 < dropped.length := by omega
      have hget : s.takenAt[m - 1]? = some dropped[m - 1] := by
        rw [htaken, List.getElem?_append_left hbound, List.getElem?_eq_getElem hbound]
      have hnew := hrem hfull x hxt m o t hact hxnow _ hget
      have := hold _ (List.getElem_mem hbound)
      omega
  · -- otherwise it has those of all but one
    by_cases hold' : ∃ y ∈ recent s, ∃ n, y.act.effect? = some n ∧ n ≤ dropped.length
    · obtain ⟨y, hy, n, hn, hlow⟩ := hold'
      have hnumbers : ∀ x ∈ recent s, ∀ m, x.act.effect? = some m →
          m ∈ n :: List.range' (dropped.length + 1) (s.incomingSequence - 1 - dropped.length) := by
        intro x hx m hm
        by_cases hlow' : m ≤ dropped.length
        · have h1 := dropped_once h hfresh htaken hold hx hy hm hn hlow
          have h2 := dropped_once h hfresh htaken hold hy hx hn hm hlow'
          rw [Nat.le_antisymm h2 h1]
          exact List.mem_cons_self
        · exact List.mem_cons_of_mem _ (hhigh x hx m hm (by omega))
      have hle := length_recent_le h hfresh hnumbers
      rw [List.length_cons, List.length_range'] at hle
      omega
    · have hle := length_recent_le h hfresh fun x hx m hm => hhigh x hx m hm ?_
      · rw [List.length_range'] at hle
        omega
      · by_contra hlow
        exact hold' ⟨x, hx, m, hm, by omega⟩

theorem rated_step (h : Inv s) (hr : Along Rated s.trace) (hs : step host s e = some s')
    (ho : Open s e s') (hm : Remembered s e s') : Along Rated s'.trace := by
  have hplain : ∀ {c c' : Bool} {es : List Entry}, Plain c es c' → ∀ x ∈ es, ∀ before,
      Rated before x := by
    intro c c' es hp x hx before hd
    rw [(hp.acts x hx).2.2.2] at hd
    cases hd
  cases step_effect hs with
  | other es closed same plain =>
    rw [same.trace]
    exact along_append hr (hplain plain)
  | refused isSound past code trace =>
    rw [trace]
    exact along_snoc.mpr ⟨hr, (by intro hd; cases hd)⟩
  | taken frame between isSound past seq trace =>
    rw [trace]
    exact along_pair.mpr ⟨hr, (by intro hd; cases hd), (by intro hd; cases hd)⟩
  | authorized frame es closed hw same plain =>
    rw [same.trace, List.append_cons]
    exact along_append (along_snoc.mpr ⟨hr, (by intro hd; cases hd)⟩) (hplain plain)
  | presented frame x isSound hw same act =>
    rw [same.trace]
    refine along_pair.mpr ⟨hr, (by intro hd; cases hd), fun hd => ?_⟩
    simp only [List.mem_cons, List.not_mem_nil, or_false] at act
    rcases act with act | act | act <;> rw [act] at hd <;> cases hd
  | asked frame request isSound hw same =>
    rw [same.trace]
    exact along_pair.mpr ⟨hr, (by intro hd; cases hd), (by intro hd; cases hd)⟩
  | dispatched m request hw ev same =>
    rw [same.trace]
    refine along_pair.mpr ⟨hr, (by intro hd; cases hd), fun _ => ?_⟩
    have hg : Grants s e := ⟨ev, m, request, hw⟩
    have hsound : Sound s := ⟨ho hg, fun code hc => by rw [hw] at hc; cases hc⟩
    rw [dispatches_append]
    exact few_dispatches h hsound (h.target m request hw).2.1 (hm hg)

/-- A trace in which nothing is done after a close is one of a run whose grants found the session
open: what a step adds to it stays there. -/
theorem guard_of_quiet {evs : List (Ev V)} (h : Inv s) (hr : (lts host).Run s evs s')
    (hq : Along Quiet s'.trace) : ((lts host).guard Open).Run s evs s' := by
  induction hr with
  | nil => exact .nil _
  | cons hs hr ih =>
    refine .cons ⟨hs, fun hg => ?_⟩ (ih (inv_step h hs) hq)
    obtain ⟨es, htrace⟩ := trace_run hr
    rw [htrace] at hq
    by_contra hc
    exact not_quiet h hs hg (by simpa using hc) hq.of_append

/-! ## Headline -/

/-- **The protocol of a session.** In every run the frames are taken in sequence and every call is
authorized; nothing is done after a close exactly in the runs in which no target is granted to a
closed session; and the whole law holds in those in which also every call of the minute before a
dispatch is remembered by the limiter. -/
theorem protocol_iff (host : Host V) (s : St V) (evs : List (Ev V)) (s' : St V) (h : initial s) :
    ((lts host).Run s evs s' → Along Ordered s'.trace) ∧
    (((lts host).guard Open).Run s evs s' ↔ (lts host).Run s evs s' ∧ Along Quiet s'.trace) ∧
    (((lts host).guard fun s e s' => Open s e s' ∧ Remembered s e s').Run s evs s' →
      Lawful s') := by
  have hinv := inv_init h
  have hempty : s.trace = [] := h.2.2.2.2.2.2.2.1
  refine ⟨fun hr => ?_, ⟨fun hr => ⟨LTS.guard_run hr, ?_⟩, fun ⟨hr, hq⟩ => ?_⟩, fun hr => ?_⟩
  · have hstep : ∀ s e s', Inv s → (lts host).step s e s' → Inv s' :=
      fun _ _ _ hi hs => inv_step hi hs
    exact (hr.preserves hstep hinv).ordered
  · have hstep : ∀ s e s', (Inv s ∧ Along Quiet s.trace) →
        ((lts host).guard Open).step s e s' → Inv s' ∧ Along Quiet s'.trace :=
      fun _ _ _ hi hs => ⟨inv_step hi.1 hs.1, quiet_step hi.1 hi.2 hs.1 hs.2⟩
    exact (hr.preserves hstep ⟨hinv, hempty ▸ along_nil⟩).2
  · exact guard_of_quiet hinv hr hq
  · have hstep : ∀ s e s', (Inv s ∧ Along Quiet s.trace ∧ Along Rated s.trace) →
        ((lts host).guard fun s e s' => Open s e s' ∧ Remembered s e s').step s e s' →
        Inv s' ∧ Along Quiet s'.trace ∧ Along Rated s'.trace :=
      fun _ _ _ hi hs => ⟨inv_step hi.1 hs.1, quiet_step hi.1 hi.2.1 hs.1 hs.2.1,
        rated_step hi.1 hi.2.2 hs.1 hs.2.1 hs.2.2⟩
    obtain ⟨hi, hq, hrate⟩ := hr.preserves hstep
      ⟨hinv, hempty ▸ along_nil, hempty ▸ along_nil⟩
    exact ⟨hi.ordered, hq, rate_of_rated hrate⟩

/-! ### A session that is closed while its target is authorized -/

def exampleRequest : Request := ⟨.action, "request-one", "sales.contact.create", .null⟩

/-- A message is the sequence of a request. -/
def exampleHost : Host Nat where
  identity :=
    { toRemoteUiGenerationOwner := RemoteUiSessions.snapshotEx.toRemoteUiGenerationOwner
      sessionId := "remote-session-1", generationId := "sales-generation-1"
      artifactDigest := "sha256:", remoteUiFrameUrl := "", route := "/apps/sales-live"
      surface := "main", sources := [], actions := ["sales.contact.create"], routes := []
      assets := [] }
  registry _ := none
  bytes _ := .ok 1
  safeParse n := some ⟨"remote-session-1", "app.sales-live", "sales-generation-1", n,
    .request exampleRequest⟩
  postable _ _ := true
  matchRoute _ _ _ := false

def exampleStart : St Nat where
  now := 0
  port := false
  closed := false
  queue := []
  running := none
  incomingSequence := 0
  outgoingSequence := 0
  nodes := .empty
  root := none
  presentation := RemoteUiSessions.requestEx.presentation
  requestTimes := []
  trace := []
  takenAt := []
  checkedAt := 0

theorem exampleStart_initial : initial exampleStart :=
  ⟨rfl, rfl, rfl, rfl, rfl, rfl, rfl, rfl, rfl, rfl, rfl, rfl⟩

/-- The frame is authorized, and its target asked for. -/
def exampleAsked : List (Ev Nat) := [.start, .message 1, .next 0, .answer .yes]

/-- What the session has done by then. -/
def exampleTrace : List Entry :=
  [⟨.post .bootstrap, 0⟩, ⟨.taken 1, 0⟩, ⟨.authorize 1, 0⟩, ⟨.authorized 1, 0⟩,
    ⟨.authorizeTarget 1 .action "sales.contact.create", 0⟩]

theorem protocol_iff_example : ∃ s, (lts exampleHost).Run exampleStart
    (exampleAsked ++ [.answer .yes]) s ∧ Lawful s := by
  have hrun : ∃ s, ((lts exampleHost).guard fun s e s' => Open s e s' ∧ Remembered s e s').Run
      exampleStart (exampleAsked ++ [.answer .yes]) s := by
    refine ⟨_, .cons ⟨rfl, nofun, nofun⟩ (.cons ⟨rfl, nofun, nofun⟩ (.cons ⟨rfl, nofun, nofun⟩
      (.cons ⟨rfl, fun _ => rfl, ?_⟩ (.cons ⟨rfl, fun _ => rfl, ?_⟩ (.nil _)))))⟩
    · intro ⟨_, m, request, hr⟩
      cases hr
    · -- no call was dispatched before
      intro _ _ x hx m operation targetId hact
      have hnone : ∀ x ∈ exampleTrace, x.act.isDispatch = false := by decide
      have hx := hnone x hx
      rw [hact] at hx
      cases hx
  obtain ⟨s, hrun⟩ := hrun
  exact ⟨s, LTS.guard_run hrun,
    (protocol_iff exampleHost exampleStart _ s exampleStart_initial).2.2 hrun⟩

/-- The call is dispatched after the session was closed. -/
theorem dispatched_after_close : ∃ s, (lts exampleHost).Run exampleStart
    (exampleAsked ++ [.dispose, .answer .yes]) s ∧ ¬ Lawful s := by
  refine ⟨_, .cons rfl (.cons rfl (.cons rfl (.cons rfl (.cons rfl (.cons rfl (.nil _)))))),
    fun h => ?_⟩
  have hquiet : Along Quiet (exampleTrace ++ [⟨.close, 0⟩,
      ⟨.targetAuthorized 1 .action "sales.contact.create", 0⟩,
      ⟨.dispatch 1 .action "sales.contact.create", 0⟩]) := h.closed
  have hanswer := hquiet (exampleTrace ++ [⟨.close, 0⟩,
    ⟨.targetAuthorized 1 .action "sales.contact.create", 0⟩]) _ [] rfl
    ⟨⟨.close, 0⟩, by decide, rfl⟩
  cases hanswer

end KNex.Ui.HostSession
