import KNex.Core.JsMap
import KNex.Editor.EditorSession

/-!
# Editor sessions and the server's working copy

Any number of sessions of one page and the server they save to. A session steps by itself; the
server takes up a call that a session has made (`serve`), at any time and any number of times, and
its response arrives (`answer`) or is lost or refused (`reject`), whether or not the server applied
the write. The keys that the hosts of the sessions issue differ: between sessions, operations and
sequence numbers.

The law. In every state a session has at most one save running, no key was sent with two inputs,
and a change that was neither acknowledged nor discarded is in the session's document (`Lawful`).
With every step, a write that the server applies replaces a working copy that the writing session
has seen, and a change stops being unsaved only by another change, by `reloadConflict`, or by the
answer to a write that carries it (`LawfulStep`). `save_protocol`: both hold in every run.
-/
namespace KNex.Editor.SaveProtocol

open KNex.Core

variable {δ : Type}

/-! ## The server -/

/-- `log` is the history of the working copies, `stored` the results of applied writes. -/
structure Server (δ : Type) where
  copy : WorkingCopy δ
  stored : JsMap String (WorkingCopy δ)
  log : List (WorkingCopy δ)

/-- A repeated key is answered with the stored result; a write is applied at the current revision
only.
mirrors packages/payload-adapter/src/workspace-page-store.ts:423-458, 616-675 -/
def Server.save (server : Server δ) (input : AutosaveInput δ) : Server δ × SaveResult δ :=
  match server.stored.get? input.idempotencyKey with
  | some copy => (server, .saved copy)
  | none =>
    if server.copy.revision = input.expectedRevision then
      let copy : WorkingCopy δ := ⟨input.expectedRevision + 1, input.document⟩
      ({ copy := copy
         stored := server.stored.set input.idempotencyKey copy
         log := server.log ++ [copy] }, .saved copy)
    else (server, .conflict server.copy)

/-! ## Runs -/

/-- A session with its options. -/
structure Client (δ : Type) where
  options : Options δ
  session : Session δ

/-- `responses` holds what the server answered to which call of which session. -/
structure World (δ : Type) where
  server : Server δ
  clients : List (Client δ)
  responses : List (Nat × Nat × SaveResult δ)

inductive Event (δ : Type) where
  | opened (options : Options δ) (copy : WorkingCopy δ)
  | stepped (client : Nat) (e : Ev δ)
  | serve (client call : Nat)
  | answer (client call : Nat) (result : SaveResult δ)
  | reject (client call : Nat)

def KeysApart (o o' : Options δ) : Prop :=
  ∀ op k op' k', o.issueIdempotencyKey op k ≠ o'.issueIdempotencyKey op' k'

/-- The keys of one session: one for each operation and sequence number. -/
def KeysOnce (o : Options δ) : Prop :=
  ∀ op k op' k', o.issueIdempotencyKey op k = o.issueIdempotencyKey op' k' → op = op' ∧ k = k'

/-- Whether the event is a response of the server to a save. -/
def isResponse : Ev δ → Bool
  | .saveSettled _ _ => true
  | _ => false

inductive Step : World δ → Event δ → World δ → Prop
  | opened {w : World δ} {o : Options δ} {copy : WorkingCopy δ} {s : Session δ}
      (hcopy : copy ∈ w.server.log) (honce : KeysOnce o)
      (hapart : ∀ c ∈ w.clients, KeysApart c.options o) (hopen : openSession o copy = some s) :
      Step w (.opened o copy) { w with clients := w.clients ++ [⟨o, s⟩] }
  | stepped {w : World δ} {i : Nat} {e : Ev δ} {c : Client δ} {s : Session δ}
      (hc : w.clients[i]? = some c) (he : isResponse e = false)
      (hstep : step c.options c.session e = some s) :
      Step w (.stepped i e) { w with clients := w.clients.set i { c with session := s } }
  | serve {w : World δ} {i n : Nat} {c : Client δ} {input : AutosaveInput δ}
      (hc : w.clients[i]? = some c) (hcall : c.session.calls[n]? = some (.autosave input)) :
      Step w (.serve i n) { w with
        server := (w.server.save input).1
        responses := w.responses ++ [(i, n, (w.server.save input).2)] }
  | answer {w : World δ} {i n : Nat} {result : SaveResult δ} {c : Client δ} {s : Session δ}
      (hc : w.clients[i]? = some c) (hresult : (i, n, result) ∈ w.responses)
      (hstep : step c.options c.session (.saveSettled n (some result)) = some s) :
      Step w (.answer i n result) { w with clients := w.clients.set i { c with session := s } }
  | reject {w : World δ} {i n : Nat} {c : Client δ} {s : Session δ}
      (hc : w.clients[i]? = some c)
      (hstep : step c.options c.session (.saveSettled n none) = some s) :
      Step w (.reject i n) { w with clients := w.clients.set i { c with session := s } }

/-- A server with one working copy, and no session yet. -/
def initial (w : World δ) : Prop :=
  w.server.log = [w.server.copy] ∧ w.server.stored = .empty ∧ w.clients = [] ∧ w.responses = []

def lts (δ : Type) : LTS (World δ) (Event δ) where
  init := initial
  step := Step

/-! ## The law -/

structure Lawful (w : World δ) : Prop where
  single : ∀ c ∈ w.clients, c.session.inflight.length ≤ 1
  keys : ∀ c ∈ w.clients, ∀ c' ∈ w.clients, ∀ a ∈ c.session.calls, ∀ b ∈ c'.session.calls,
    a.key = b.key → a = b
  kept : ∀ c ∈ w.clients, ∀ d, c.session.unsaved = some d →
    Carries c.options.profile d c.session.document ∨
      ∃ p, c.session.pending = some p ∧ Carries c.options.profile d p.input.document

/-- What ends a change: another one, `reloadConflict`, or the answer to a write that carries it. -/
def Ends (w : World δ) (i : Nat) (c : Client δ) (d : δ) : Event δ → Prop
  | .stepped j e => j = i ∧ ((∃ value, e = .change value) ∨ e = .reloadConflict)
  | .answer j n result => j = i ∧ ∃ copy input, result = .saved copy ∧
      (i, n, result) ∈ w.responses ∧ c.session.calls[n]? = some (.autosave input) ∧
      Carries c.options.profile d input.document
  | _ => False

structure LawfulStep (w : World δ) (e : Event δ) (w' : World δ) : Prop where
  overwrites : w'.server.copy ≠ w.server.copy → ∃ i n c, e = .serve i n ∧
    w.clients[i]? = some c ∧ w.server.copy ∈ c.session.seen
  ends : ∀ i c c' d, w.clients[i]? = some c → w'.clients[i]? = some c' →
    c.session.unsaved = some d → c'.session.unsaved ≠ some d → Ends w i c d e

/-! ## The calls of one session -/

/-- Keys are issued once each, the pending write was sent, and every write expects a revision that
the session has seen. -/
structure CallInv (o : Options δ) (s : Session δ) : Prop where
  keys : ∀ c ∈ s.calls, ∃ op k, c.key = o.issueIdempotencyKey op k ∧ k ≤ s.sequence
  unique : ∀ a ∈ s.calls, ∀ b ∈ s.calls, a.key = b.key → a = b
  pending : ∀ p, s.pending = some p → .autosave p.input ∈ s.calls
  expected : ∀ input, .autosave input ∈ s.calls →
    ∃ c ∈ s.seen, c.revision = input.expectedRevision

variable {o : Options δ} {s s' : Session δ}

/-- Later states with the same calls, more seen, and the pending write kept or gone. -/
theorem CallInv.later (hC : CallInv o s) (hcalls : s'.calls = s.calls)
    (hseq : s'.sequence = s.sequence) (hpending : s'.pending = s.pending ∨ s'.pending = none)
    (hseen : ∀ c ∈ s.seen, c ∈ s'.seen) : CallInv o s' := by
  refine ⟨?_, ?_, fun p hp => ?_, fun input hi => ?_⟩
  · rw [hcalls, hseq]
    exact hC.keys
  · rw [hcalls]
    exact hC.unique
  · rw [hcalls]
    rcases hpending with h | h
    · exact hC.pending p (h ▸ hp)
    · rw [h] at hp
      cases hp
  · rw [hcalls] at hi
    obtain ⟨c, hc, hr⟩ := hC.expected input hi
    exact ⟨c, hseen c hc, hr⟩

/-- One more call, under the next key. -/
theorem CallInv.snoc (hC : CallInv o s) (honce : KeysOnce o) {op : Operation} {c : Call δ}
    (hkey : c.key = o.issueIdempotencyKey op (s.sequence + 1)) :
    (∀ x ∈ s.calls ++ [c], ∃ op k, x.key = o.issueIdempotencyKey op k ∧ k ≤ s.sequence + 1) ∧
      ∀ a ∈ s.calls ++ [c], ∀ b ∈ s.calls ++ [c], a.key = b.key → a = b := by
  have hnew : ∀ x ∈ s.calls, x.key ≠ c.key := by
    intro x hx he
    obtain ⟨op', k, hk, hle⟩ := hC.keys x hx
    rw [hk, hkey] at he
    have := (honce _ _ _ _ he).2
    omega
  constructor
  · intro x hx
    rcases List.mem_append.mp hx with hx | hx
    · obtain ⟨op', k, hk, hle⟩ := hC.keys x hx
      exact ⟨op', k, hk, by omega⟩
    · rw [List.mem_singleton] at hx
      exact ⟨op, _, hx ▸ hkey, le_refl _⟩
  · intro a ha b hb he
    rcases List.mem_append.mp ha with ha | ha <;> rcases List.mem_append.mp hb with hb | hb
    · exact hC.unique a ha b hb he
    · rw [List.mem_singleton] at hb
      exact absurd (hb ▸ he) (hnew a ha)
    · rw [List.mem_singleton] at ha
      exact absurd (ha ▸ he.symm) (hnew b hb)
    · rw [List.mem_singleton] at ha hb
      rw [ha, hb]

theorem callInv_save (hI : Inv o s) (hC : CallInv o s) (honce : KeysOnce o) {s₁ : Session δ}
    {p : PendingSave δ} {timer publish : Bool} {tasks : List Task}
    (hp : ensurePending o { s with timer := timer, tasks := tasks } = some (s₁, p)) :
    CallInv o (startSave s₁ p publish) := by
  rcases ensurePending_cases hp with ⟨rfl, hpending⟩ | ⟨-, rfl, -, hexp, hkey, -⟩
  · -- the pending write goes out again, under its key
    have hsent := hC.pending p hpending
    have hmem : ∀ x, x ∈ s.calls ++ [.autosave p.input] → x ∈ s.calls := by
      intro x hx
      rcases List.mem_append.mp hx with hx | hx
      · exact hx
      · rw [List.mem_singleton] at hx
        exact hx ▸ hsent
    refine ⟨fun x hx => hC.keys x (hmem x hx),
      fun a ha b hb => hC.unique a (hmem a ha) b (hmem b hb), fun q hq => ?_,
      fun input hi => hC.expected input (hmem _ hi)⟩
    cases hq
    exact List.mem_append_left _ hsent
  · obtain ⟨hkeys, hunique⟩ := hC.snoc honce (c := .autosave p.input) hkey
    refine ⟨hkeys, hunique, fun q hq => ?_, fun input hi => ?_⟩
    · cases hq
      simp [startSave]
    · rcases List.mem_append.mp hi with hi | hi
      · exact hC.expected input hi
      · rw [List.mem_singleton] at hi
        cases hi
        dsimp only
        rw [hexp]
        exact hI.seen

/-- Nothing that was seen is forgotten, and what is new in it came with a response. -/
theorem settled_seen {p : PendingSave δ} {result : Option (SaveResult δ)}
    (h : Settled o s p result s') : s'.calls = s.calls ∧ s'.sequence = s.sequence ∧
      (s'.pending = s.pending ∨ s'.pending = none) ∧ (∀ c ∈ s.seen, c ∈ s'.seen) ∧
      (∀ c ∈ s'.seen, c ∈ s.seen ∨ result = some (.saved c)) ∧
      ∀ c, s'.received = some c → s.received = some c ∨ result = some (.conflict c) := by
  have hsnoc : ∀ copy c : WorkingCopy δ, c ∈ s.seen ++ [copy] → c ∈ s.seen ∨
      some (SaveResult.saved copy) = some (.saved c) := by
    intro copy c hc
    rcases List.mem_append.mp hc with hc | hc
    · exact .inl hc
    · rw [List.mem_singleton] at hc
      exact .inr (by rw [hc])
  cases h with
  | failed =>
    exact ⟨rfl, rfl, .inl rfl, fun _ h => h, fun _ => .inl, fun _ => .inl⟩
  | conflict hvalid hnewer =>
    refine ⟨rfl, rfl, .inl rfl, fun _ h => h, fun _ => .inl, fun c hc => .inr ?_⟩
    cases hc
    rfl
  | threw =>
    exact ⟨rfl, rfl, .inr rfl, fun _ h => List.mem_append_left _ h, hsnoc _, fun _ => .inl⟩
  | behind =>
    exact ⟨rfl, rfl, .inr rfl, fun _ h => List.mem_append_left _ h, hsnoc _, fun _ => .inl⟩
  | saved =>
    exact ⟨rfl, rfl, .inr rfl, fun _ h => List.mem_append_left _ h, hsnoc _, fun _ => .inl⟩

theorem callInv_step {e : Ev δ} (hI : Inv o s) (hC : CallInv o s) (honce : KeysOnce o)
    (h : step o s e = some s') : CallInv o s' := by
  cases step_effect h with
  | rest => exact hC.later rfl rfl (.inl rfl) fun _ h => h
  | change => exact hC.later rfl rfl (.inl rfl) fun _ h => h
  | save _ _ _ _ _ _ _ hp => exact callInv_save hI hC honce hp
  | call _ _ op c _ _ hkey hcall =>
    obtain ⟨hkeys, hunique⟩ := hC.snoc honce hkey
    refine ⟨hkeys, hunique, fun p hp => List.mem_append_left _ (hC.pending p hp),
      fun input hi => ?_⟩
    rcases List.mem_append.mp hi with hi | hi
    · exact hC.expected input hi
    · rw [List.mem_singleton] at hi
      exact absurd hi.symm (hcall input)
  | reload => exact hC.later rfl rfl (.inr rfl) fun _ h => List.mem_append_left _ h
  | settled hfind hset =>
    obtain ⟨hcalls, hseq, hpending, hseen, -, -⟩ := settled_seen hset
    exact hC.later hcalls hseq hpending hseen

/-- Where the copies that a session has seen or received come from. -/
theorem step_seen {e : Ev δ} (h : step o s e = some s') :
    (∀ c ∈ s.seen, c ∈ s'.seen) ∧
    (∀ c ∈ s'.seen, c ∈ s.seen ∨ s.received = some c ∨
      ∃ n, e = .saveSettled n (some (.saved c))) ∧
    ∀ c, s'.received = some c → s.received = some c ∨
      ∃ n, e = .saveSettled n (some (.conflict c)) := by
  cases step_effect h with
  | rest => exact ⟨fun _ h => h, fun _ => .inl, fun _ => .inl⟩
  | change => exact ⟨fun _ h => h, fun _ => .inl, fun _ => .inl⟩
  | save _ _ _ _ _ _ _ hp =>
    rcases ensurePending_cases hp with ⟨rfl, -⟩ | ⟨-, rfl, -⟩ <;>
      exact ⟨fun _ h => h, fun _ => .inl, fun _ => .inl⟩
  | call => exact ⟨fun _ h => h, fun _ => .inl, fun _ => .inl⟩
  | reload =>
    refine ⟨fun _ h => List.mem_append_left _ h, fun c hc => ?_, fun _ => .inl⟩
    rcases List.mem_append.mp hc with hc | hc
    · exact .inl hc
    · exact .inr (.inl (by simpa using hc))
  | settled hfind hset =>
    obtain ⟨-, -, -, hseen, hnew, hreceived⟩ := settled_seen hset
    refine ⟨hseen, fun c hc => ?_, fun c hc => ?_⟩
    · rcases hnew c hc with h | h
      · exact .inl h
      · exact .inr (.inr ⟨_, by rw [h]⟩)
    · rcases hreceived c hc with h | h
      · exact .inl h
      · exact .inr ⟨_, by rw [h]⟩

/-- What makes a change stop being unsaved. -/
theorem step_unsaved {e : Ev δ} (hI : Inv o s) (h : step o s e = some s') {d : δ}
    (hd : s.unsaved = some d) (hd' : s'.unsaved ≠ some d) :
    (∃ value, e = .change value) ∨ e = .reloadConflict ∨ ∃ n copy input,
      e = .saveSettled n (some (.saved copy)) ∧ s.calls[n]? = some (.autosave input) ∧
      Carries o.profile d input.document := by
  cases step_effect h with
  | rest => exact absurd hd hd'
  | change value => exact .inl ⟨value, rfl⟩
  | save _ _ _ _ _ _ _ hp =>
    rcases ensurePending_cases hp with ⟨rfl, -⟩ | ⟨-, rfl, -⟩ <;> exact absurd hd hd'
  | call => exact absurd hd hd'
  | reload => exact .inr (.inl rfl)
  | settled hfind hset =>
    obtain ⟨rfl, hp, -, hcall, hs⟩ := hI.settled hfind
    cases hset with
    | failed => exact absurd hd hd'
    | conflict => exact absurd hd hd'
    | threw => exact absurd hd hd'
    | behind => exact absurd hd hd'
    | saved hacc hsame =>
      exact .inr (.inr ⟨_, _, _, rfl, hcall, hI.pendingCarries _ d hp hsame.symm hd⟩)

/-! ## The invariant -/

/-- The working copy that a result carries. -/
def copyOf : SaveResult δ → WorkingCopy δ
  | .saved copy => copy
  | .conflict copy => copy

/-- A session is in order, and what it has seen or received the server once held. -/
structure ClientInv (log : List (WorkingCopy δ)) (c : Client δ) : Prop where
  session : Inv c.options c.session
  calls : CallInv c.options c.session
  once : KeysOnce c.options
  seen : ∀ copy ∈ c.session.seen, copy ∈ log
  received : ∀ copy, c.session.received = some copy → copy ∈ log

structure WInv (w : World δ) : Prop where
  clients : ∀ c ∈ w.clients, ClientInv w.server.log c
  apart : w.clients.Pairwise fun c c' => KeysApart c.options c'.options
  current : w.server.copy ∈ w.server.log
  last : ∀ copy ∈ w.server.log, copy.revision ≤ w.server.copy.revision
  unique : ∀ a ∈ w.server.log, ∀ b ∈ w.server.log, a.revision = b.revision → a = b
  stored : ∀ key copy, w.server.stored.get? key = some copy → copy ∈ w.server.log
  responses : ∀ r ∈ w.responses, copyOf r.2.2 ∈ w.server.log

theorem inv_initial {w : World δ} (h : initial w) : WInv w := by
  obtain ⟨hlog, hstored, hclients, hresponses⟩ := h
  refine ⟨?_, ?_, ?_, ?_, ?_, ?_, ?_⟩
  · simp [hclients]
  · simp [hclients]
  · simp [hlog]
  · simp [hlog]
  · rw [hlog]
    intro a ha b hb _
    rw [List.mem_singleton] at ha hb
    rw [ha, hb]
  · simp [hstored]
  · simp [hresponses]

/-- The server answers with a copy it holds or held; it forgets none, and its revision grows. -/
theorem save_spec {server : Server δ} (input : AutosaveInput δ)
    (hcurrent : server.copy ∈ server.log)
    (hlast : ∀ copy ∈ server.log, copy.revision ≤ server.copy.revision)
    (hunique : ∀ a ∈ server.log, ∀ b ∈ server.log, a.revision = b.revision → a = b)
    (hstored : ∀ key copy, server.stored.get? key = some copy → copy ∈ server.log) :
    (server.save input).1.copy ∈ (server.save input).1.log ∧
    (∀ copy ∈ (server.save input).1.log,
      copy.revision ≤ (server.save input).1.copy.revision) ∧
    (∀ a ∈ (server.save input).1.log, ∀ b ∈ (server.save input).1.log,
      a.revision = b.revision → a = b) ∧
    (∀ key copy, (server.save input).1.stored.get? key = some copy →
      copy ∈ (server.save input).1.log) ∧
    copyOf (server.save input).2 ∈ (server.save input).1.log ∧
    (∀ copy ∈ server.log, copy ∈ (server.save input).1.log) ∧
    ((server.save input).1.copy ≠ server.copy → server.copy.revision = input.expectedRevision) := by
  unfold Server.save
  split
  · rename_i copy hcopy
    exact ⟨hcurrent, hlast, hunique, hstored, hstored _ _ hcopy, fun _ h => h, fun h =>
      absurd rfl h⟩
  · split
    · rename_i hrev
      -- the new copy is one revision above all others
      have hnew : ∀ copy ∈ server.log, copy.revision ≠ input.expectedRevision + 1 := by
        intro copy hm he
        have := hlast copy hm
        omega
      refine ⟨by simp, fun copy hm => ?_, fun a ha b hb he => ?_, fun key copy hk => ?_, by
        simp [copyOf], fun copy hm => List.mem_append_left _ hm, fun _ => hrev⟩
      · dsimp only at hm ⊢
        rcases List.mem_append.mp hm with hm | hm
        · have := hlast copy hm
          omega
        · rw [List.mem_singleton] at hm
          rw [hm]
      · rcases List.mem_append.mp ha with ha | ha <;> rcases List.mem_append.mp hb with hb | hb
        · exact hunique a ha b hb he
        · rw [List.mem_singleton] at hb
          rw [hb] at he
          exact absurd he (hnew a ha)
        · rw [List.mem_singleton] at ha
          rw [ha] at he
          exact absurd he.symm (hnew b hb)
        · rw [List.mem_singleton] at ha hb
          rw [ha, hb]
      · dsimp only at hk ⊢
        rw [JsMap.get?_set] at hk
        split at hk
        · cases hk
          simp
        · exact List.mem_append_left _ (hstored key copy hk)
    · exact ⟨hcurrent, hlast, hunique, hstored, hcurrent, fun _ h => h, fun h => absurd rfl h⟩

theorem ClientInv.mono {log log' : List (WorkingCopy δ)} {c : Client δ} (hc : ClientInv log c)
    (h : ∀ copy ∈ log, copy ∈ log') : ClientInv log' c :=
  ⟨hc.session, hc.calls, hc.once, fun copy hm => h copy (hc.seen copy hm),
    fun copy hr => h copy (hc.received copy hr)⟩

/-- A step of a session; a response it takes holds a copy of the log. -/
theorem clientInv_step {log : List (WorkingCopy δ)} {c : Client δ} {e : Ev δ} {s : Session δ}
    (hc : ClientInv log c) (h : step c.options c.session e = some s)
    (he : ∀ n result, e = .saveSettled n (some result) → copyOf result ∈ log) :
    ClientInv log { c with session := s } := by
  obtain ⟨-, hseen, hreceived⟩ := step_seen h
  refine ⟨inv_step hc.session h, callInv_step hc.session hc.calls hc.once h, hc.once,
    fun copy hm => ?_, fun copy hr => ?_⟩
  · rcases hseen copy hm with h | h | ⟨n, h⟩
    · exact hc.seen copy h
    · exact hc.received copy h
    · exact he n _ h
  · rcases hreceived copy hr with h | ⟨n, h⟩
    · exact hc.received copy h
    · exact he n _ h

/-- The world after a session stepped. -/
theorem winv_session {w : World δ} {i : Nat} {c : Client δ} {s : Session δ} (hW : WInv w)
    (hc : w.clients[i]? = some c) (hs : ClientInv w.server.log { c with session := s }) :
    WInv { w with clients := w.clients.set i { c with session := s } } := by
  refine ⟨fun x hx => ?_, ?_, hW.current, hW.last, hW.unique, hW.stored, hW.responses⟩
  · rcases List.mem_or_eq_of_mem_set hx with hx | rfl
    · exact hW.clients x hx
    · exact hs
  · -- the options are as they were
    have hmap : (w.clients.set i { c with session := s }).map Client.options =
        w.clients.map Client.options := by
      refine List.ext_getElem? fun j => ?_
      rw [List.getElem?_map, List.getElem?_map, List.getElem?_set]
      split
      · rename_i hij
        subst hij
        rw [hc]
        obtain ⟨hlt, -⟩ := List.getElem?_eq_some_iff.mp hc
        simp [hlt]
      · rfl
    have hpair : ∀ l : List (Client δ), (l.Pairwise fun c c' => KeysApart c.options c'.options) ↔
        (l.map Client.options).Pairwise KeysApart := fun l => by rw [List.pairwise_map]
    rw [hpair, hmap, ← hpair]
    exact hW.apart

theorem winv_step {w w' : World δ} {e : Event δ} (hW : WInv w) (h : Step w e w') : WInv w' := by
  cases h with
  | @opened o copy s hcopy honce hapart hopen =>
    have hs : ClientInv w.server.log ⟨o, s⟩ := by
      refine ⟨KNex.Editor.inv_open hopen, ?_, honce, ?_, ?_⟩ <;>
        simp only [openSession, Option.map_eq_some_iff] at hopen <;>
        obtain ⟨document, -, rfl⟩ := hopen
      · refine ⟨?_, ?_, ?_, ?_⟩ <;> simp
      · simpa using hcopy
      · simp
    refine ⟨fun c hc => ?_, ?_, hW.current, hW.last, hW.unique, hW.stored, hW.responses⟩
    · rcases List.mem_append.mp hc with hc | hc
      · exact hW.clients c hc
      · rw [List.mem_singleton] at hc
        exact hc ▸ hs
    · rw [List.pairwise_append]
      refine ⟨hW.apart, List.pairwise_singleton _ _, fun c hc c' hc' => ?_⟩
      rw [List.mem_singleton] at hc'
      exact hc' ▸ hapart c hc
  | stepped hc he hstep =>
    refine winv_session hW hc (clientInv_step (hW.clients _ (List.mem_of_getElem? hc)) hstep ?_)
    intro n result h
    subst h
    cases he
  | @serve i n c input hc hcall =>
    obtain ⟨h1, h2, h3, h4, h5, h6, -⟩ :=
      save_spec input hW.current hW.last hW.unique hW.stored
    refine ⟨fun c hm => (hW.clients c hm).mono h6, hW.apart, h1, h2, h3, h4, fun r hr => ?_⟩
    rcases List.mem_append.mp hr with hr | hr
    · exact h6 _ (hW.responses r hr)
    · rw [List.mem_singleton] at hr
      rw [hr]
      exact h5
  | answer hc hresult hstep =>
    refine winv_session hW hc (clientInv_step (hW.clients _ (List.mem_of_getElem? hc)) hstep ?_)
    intro n result h
    cases h
    exact hW.responses _ hresult
  | reject hc hstep =>
    refine winv_session hW hc (clientInv_step (hW.clients _ (List.mem_of_getElem? hc)) hstep ?_)
    intro n result h
    cases h

/-! ## The law holds -/

/-- Two sessions that stand at different places issue different keys. -/
theorem WInv.keys {w : World δ} (hW : WInv w) {i j : Nat} {c c' : Client δ}
    (hi : w.clients[i]? = some c) (hj : w.clients[j]? = some c') (hij : i ≠ j) :
    KeysApart c.options c'.options := by
  obtain ⟨hilt, hi⟩ := List.getElem?_eq_some_iff.mp hi
  obtain ⟨hjlt, hj⟩ := List.getElem?_eq_some_iff.mp hj
  have hpair := List.pairwise_iff_getElem.mp hW.apart
  rcases Nat.lt_or_gt_of_ne hij with h | h
  · have := hpair i j hilt hjlt h
    rwa [hi, hj] at this
  · have := hpair j i hjlt hilt h
    rw [hi, hj] at this
    exact fun op k op' k' he => this op' k' op k he.symm

theorem WInv.lawful {w : World δ} (hW : WInv w) : Lawful w := by
  refine ⟨fun c hc => ?_, fun c hc c' hc' a ha b hb he => ?_, fun c hc d hd =>
    .inl ((hW.clients c hc).session.carries d hd)⟩
  · have hflight := (hW.clients c hc).session.flight
    unfold Flight at hflight
    split at hflight
    · simp [hflight]
    · obtain ⟨p, h, -⟩ := hflight
      simp [h]
  · obtain ⟨i, hi⟩ := List.mem_iff_getElem?.mp hc
    obtain ⟨j, hj⟩ := List.mem_iff_getElem?.mp hc'
    by_cases hij : i = j
    · subst hij
      rw [hi] at hj
      cases hj
      exact (hW.clients c hc).calls.unique a ha b hb he
    · obtain ⟨op, k, hk, -⟩ := (hW.clients c hc).calls.keys a ha
      obtain ⟨op', k', hk', -⟩ := (hW.clients c' hc').calls.keys b hb
      rw [hk, hk'] at he
      exact absurd he (hW.keys hi hj hij op k op' k')

/-- A session whose change is no longer unsaved took a step of its own. -/
theorem ends_of_step {w : World δ} {i j : Nat} {c₀ c c' : Client δ} {e : Ev δ} {s : Session δ}
    {d : δ} (hW : WInv w) (hj : w.clients[j]? = some c₀) (hstep : step c₀.options c₀.session e = some s)
    (hi : w.clients[i]? = some c)
    (hi' : (w.clients.set j { c₀ with session := s })[i]? = some c')
    (hd : c.session.unsaved = some d) (hd' : c'.session.unsaved ≠ some d) :
    j = i ∧ ((∃ value, e = .change value) ∨ e = .reloadConflict ∨ ∃ n copy input,
      e = .saveSettled n (some (.saved copy)) ∧ c.session.calls[n]? = some (.autosave input) ∧
      Carries c.options.profile d input.document) := by
  by_cases hij : j = i
  · subst hij
    rw [hj] at hi
    cases hi
    obtain ⟨hlt, -⟩ := List.getElem?_eq_some_iff.mp hj
    rw [List.getElem?_set_self hlt] at hi'
    cases hi'
    exact ⟨rfl, step_unsaved (hW.clients _ (List.mem_of_getElem? hj)).session hstep hd hd'⟩
  · rw [List.getElem?_set_ne hij, hi] at hi'
    cases hi'
    exact absurd hd hd'

theorem WInv.lawfulStep {w w' : World δ} {e : Event δ} (hW : WInv w) (h : Step w e w') :
    LawfulStep w e w' := by
  cases h with
  | opened hcopy honce hapart hopen =>
    refine ⟨fun hne => absurd rfl hne, fun i c c' d hi hi' hd hd' => ?_⟩
    obtain ⟨hlt, -⟩ := List.getElem?_eq_some_iff.mp hi
    rw [List.getElem?_append_left hlt, hi] at hi'
    cases hi'
    exact absurd hd hd'
  | stepped hc he hstep =>
    refine ⟨fun hne => absurd rfl hne, fun i c c' d hi hi' hd hd' => ?_⟩
    obtain ⟨hij, hend⟩ := ends_of_step hW hc hstep hi hi' hd hd'
    rcases hend with hchange | hreload | ⟨n, copy, input, rfl, -⟩
    · exact ⟨hij, .inl hchange⟩
    · exact ⟨hij, .inr hreload⟩
    · cases he
  | @serve i n c input hc hcall =>
    refine ⟨fun hne => ?_, fun j x x' d hi hi' hd hd' => ?_⟩
    · obtain ⟨-, -, -, -, -, -, hrev⟩ :=
        save_spec input hW.current hW.last hW.unique hW.stored
      have hclient := hW.clients c (List.mem_of_getElem? hc)
      obtain ⟨copy, hseen, he⟩ := hclient.calls.expected input (List.mem_of_getElem? hcall)
      -- the revision that the write expected is the server's, and names one copy
      have hsame : copy = w.server.copy :=
        hW.unique copy (hclient.seen copy hseen) _ hW.current (he.trans (hrev hne).symm)
      exact ⟨i, n, c, rfl, hc, hsame ▸ hseen⟩
    · dsimp only at hi'
      rw [hi] at hi'
      cases hi'
      exact absurd hd hd'
  | answer hc hresult hstep =>
    refine ⟨fun hne => absurd rfl hne, fun i c c' d hi hi' hd hd' => ?_⟩
    obtain ⟨hij, hend⟩ := ends_of_step hW hc hstep hi hi' hd hd'
    subst hij
    rcases hend with ⟨value, he⟩ | he | ⟨n, copy, input, he, hcall, hcarries⟩
    · cases he
    · cases he
    · cases he
      exact ⟨rfl, copy, input, rfl, hresult, hcall, hcarries⟩
  | reject hc hstep =>
    refine ⟨fun hne => absurd rfl hne, fun i c c' d hi hi' hd hd' => ?_⟩
    obtain ⟨-, hend⟩ := ends_of_step hW hc hstep hi hi' hd hd'
    rcases hend with ⟨value, he⟩ | he | ⟨n, copy, input, he, -⟩ <;> cases he

/-- **The save protocol.** In every run of any sessions and the server: the state reached is
lawful, and so is every step from it. -/
theorem save_protocol (start : World δ) (hstart : initial start) (es : List (Event δ))
    (w : World δ) (h : (lts δ).Run start es w) :
    Lawful w ∧ ∀ e w', (lts δ).step w e w' → LawfulStep w e w' := by
  have hstep : ∀ w e w', WInv w → (lts δ).step w e w' → WInv w' := fun _ _ _ hW hs =>
    winv_step hW hs
  have hW := h.preserves hstep (inv_initial hstart)
  exact ⟨hW.lawful, fun _ _ hs => hW.lawfulStep hs⟩

/-! ## Two tabs -/

def operationTag : Operation → Char
  | .autosave => 'a'
  | .publish => 'p'
  | .rollback => 'r'

/-- Documents are a version and a text. A key is made of the session's tag, the operation's tag and
a tally. -/
def exampleOptions (tag : Char) : Options (Int × String) where
  profile := {
    parse := some
    withVersion := fun d revision => (revision, d.2)
    toPuckData := fun _ => true
    validateChange := fun _ next => some next
    validateDocument := fun _ => true
    canonicalJson := Prod.snd }
  editorSessionId := String.singleton tag
  issueIdempotencyKey operation sequence :=
    String.ofList (tag :: operationTag operation :: List.replicate sequence '1')

theorem exampleKeys_once (tag : Char) : KeysOnce (exampleOptions tag) := by
  intro op k op' k' h
  have hlist := String.ofList_injective h
  simp only [List.cons.injEq, true_and] at hlist
  refine ⟨?_, by simpa using congrArg List.length hlist.2⟩
  cases op <;> cases op' <;> first | rfl | exact absurd hlist.1 (by decide)

theorem exampleKeys_apart : KeysApart (exampleOptions 'x') (exampleOptions 'y') := by
  intro op k op' k' h
  have hlist := String.ofList_injective h
  simp only [List.cons.injEq] at hlist
  exact absurd hlist.1 (by decide)

def exampleStart : World (Int × String) :=
  ⟨⟨⟨1, (1, "first")⟩, .empty, [⟨1, (1, "first")⟩]⟩, [], []⟩

/-- Two tabs edit the page; the first one's response is lost and its write repeated, the second one
meets a conflict and reloads. -/
def exampleEvents : List (Event (Int × String)) :=
  [.opened (exampleOptions 'x') ⟨1, (1, "first")⟩, .opened (exampleOptions 'y') ⟨1, (1, "first")⟩,
    .stepped 0 (.change (1, "mine")), .stepped 0 .timer, .serve 0 0, .reject 0 0,
    .stepped 0 .timer, .serve 0 1, .answer 0 1 (.saved ⟨2, (2, "mine")⟩),
    .stepped 1 (.change (1, "yours")), .stepped 1 .flush, .serve 1 0,
    .answer 1 0 (.conflict ⟨2, (2, "mine")⟩), .stepped 1 .reloadConflict]

theorem save_protocol_example : ∃ w, (lts (Int × String)).Run exampleStart exampleEvents w ∧
    Lawful w ∧ ∀ e w', (lts (Int × String)).step w e w' → LawfulStep w e w' := by
  have hrun : ∃ w, (lts (Int × String)).Run exampleStart exampleEvents w := by
    refine ⟨_, .cons (.opened (by simp [exampleStart]) (exampleKeys_once 'x') (by
      simp [exampleStart]) rfl) (.cons (.opened (by simp [exampleStart]) (exampleKeys_once 'y') (by
      simpa [exampleStart] using exampleKeys_apart) rfl)
      (.cons (.stepped rfl rfl rfl) (.cons (.stepped rfl rfl rfl) (.cons (.serve rfl rfl)
      (.cons (.reject rfl rfl) (.cons (.stepped rfl rfl rfl) (.cons (.serve rfl rfl)
      (.cons (.answer rfl ?_ rfl) (.cons (.stepped rfl rfl rfl) (.cons (.stepped rfl rfl rfl)
      (.cons (.serve rfl rfl) (.cons (.answer rfl ?_ rfl)
      (.cons (.stepped rfl rfl rfl) (.nil _))))))))))))))⟩
    · exact List.mem_append_right _ (List.mem_singleton_self _)
    · exact List.mem_append_right _ (List.mem_singleton_self _)
  obtain ⟨w, h⟩ := hrun
  exact ⟨w, h, save_protocol exampleStart ⟨rfl, rfl, rfl, rfl⟩ exampleEvents w h⟩

end KNex.Editor.SaveProtocol
