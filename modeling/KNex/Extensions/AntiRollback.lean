import KNex.Core.Calls
import KNex.Core.History
import KNex.Core.LTS
import KNex.Extensions.Catalog

/-!
# No accepted catalog takes back what another one said

`CatalogClient.read` (packages/extension-bundler/src/catalog.ts:139-147) checks a catalog against
the checkpoint of its signer and installs the new checkpoint by compare-and-set; when the
checkpoint has changed in between it starts over, at most eight times. Every call is a `Read` and a
step is what it does between two `await`s: checking the signature, reading the store, checking the
catalog and swapping, and looking at the outcome. Calls of any number of clients, each with its own
trusted keys and clock, interleave over one store (lines 80-89). The argument of a call is parsed
again by each attempt, so the event carries what the schema makes of it then.

`accepted` is the history of the successful swaps, in order. `Law` is what each accepted catalog
owes to those before it. A swap compares values and not versions of the record, so the argument is
that equal checkpoints give the same check (`advances_congr`): what is installed advances what is
replaced, and the invariant `Inv` bounds all of the history by the checkpoint in place.
`anti_rollback` is the result, `anti_rollback_example` a run with a lost race.
-/
namespace KNex.Extensions.AntiRollback

open KNex.Core KNex.Core.HighWater KNex.Contracts
open KNex.Extensions.Catalog

/-! ## The checkpoint store -/

abbrev Store := JsMap String CatalogCheckpoint

/-- `Object.entries(highestVersions).sort((left, right) => left[0].localeCompare(right[0]))`. -/
def sortedVersions (host : Host) (checkpoint : CatalogCheckpoint) : List (String × String) :=
  checkpoint.highestVersions.entries.insertionSort fun left right => host.localeLe left.1 right.1

/-- mirrors packages/extension-bundler/src/catalog.ts:95-101 -/
def sameCheckpoint (host : Host) : Option CatalogCheckpoint → Option CatalogCheckpoint → Bool
  | none, none => true
  | some left, some right =>
    if left.signerIdentity ≠ right.signerIdentity ∨ left.sequence ≠ right.sequence ∨
        left.payloadDigest ≠ right.payloadDigest then false
    else
      decide ((sortedVersions host left).length = (sortedVersions host right).length) &&
        ((sortedVersions host left).zip (sortedVersions host right)).all fun e =>
          e.1.1 = e.2.1 ∧ e.1.2 = e.2.2
  | _, _ => false

/-- `none` is the answer `false`.
mirrors packages/extension-bundler/src/catalog.ts:83-88 -/
def compareAndSet (host : Host) (store : Store) (expected : Option CatalogCheckpoint)
    (next : CatalogCheckpoint) : Option Store :=
  if sameCheckpoint host (store.get? next.signerIdentity) expected then
    some (store.set next.signerIdentity next)
  else none

/-! ## State -/

/-- Where a call stands, with what it awaits. `attempt` counts from zero. -/
inductive Phase where
  | signing (attempt : Nat) (signed : Except String SignedCatalog)
  | reading (attempt : Nat) (catalog : SignedCatalog) (previous : Option CatalogCheckpoint)
  | swapping (attempt : Nat) (verified : VerifiedCatalogSnapshot) (swapped : Bool)
  | fulfilled (entries : List CatalogEntry)
  | rejected (error : String)

structure Read where
  trustedSigners : JsMap String String
  phase : Phase

/-- One successful swap. -/
structure Acceptance where
  read : Nat
  catalog : SignedCatalog
  checkpoint : CatalogCheckpoint

def Acceptance.signer (a : Acceptance) : String := a.catalog.signer.identity

structure St where
  store : Store
  reads : List Read
  accepted : List Acceptance

inductive Ev where
  | call (trustedSigners : JsMap String String) (input : Input)
  | resume (read : Nat) (input : Input) (now : Int)

/-- The call that an event belongs to. -/
def Ev.read (s : St) : Ev → Nat
  | .call _ _ => s.reads.length
  | .resume read _ _ => read

def St.put (s : St) (i : Nat) (r : Read) (phase : Phase) : St :=
  { s with reads := s.reads.set i { r with phase := phase } }

section Steps

variable (host : Host)

/-- The check and the swap, without an `await` between them.
mirrors packages/extension-bundler/src/catalog.ts:143-144 -/
def verifyAndSwap (s : St) (i : Nat) (r : Read) (attempt : Nat) (catalog : SignedCatalog)
    (previous : Option CatalogCheckpoint) (now : Int) : St :=
  match verifiedSnapshot host now catalog previous with
  | .error e => s.put i r (.rejected e)
  | .ok verified =>
    match compareAndSet host s.store previous verified.checkpoint with
    | none => s.put i r (.swapping attempt verified false)
    | some store =>
      { s.put i r (.swapping attempt verified true) with
        store := store
        accepted := s.accepted ++ [⟨i, verified.catalog, verified.checkpoint⟩] }

/-- mirrors packages/extension-bundler/src/catalog.ts:139-147 -/
def resume (s : St) (i : Nat) (r : Read) (input : Input) (now : Int) : Option St :=
  match r.phase with
  | .signing _ (.error e) => some (s.put i r (.rejected e))
  | .signing attempt (.ok catalog) =>
    some (s.put i r (.reading attempt catalog (s.store.get? catalog.signer.identity)))
  | .reading attempt catalog previous =>
    some (verifyAndSwap host s i r attempt catalog previous now)
  | .swapping _ verified true => some (s.put i r (.fulfilled verified.entries))
  | .swapping attempt _ false =>
    if attempt + 1 < 8 then
      some (s.put i r (.signing (attempt + 1) (signedCatalog host r.trustedSigners input)))
    else some (s.put i r (.rejected
      "Official catalog checkpoint changed repeatedly; refusing an unconfirmed catalog read."))
  | .fulfilled _ | .rejected _ => none

def step (s : St) : Ev → Option St
  | .call trustedSigners input =>
    some { s with
      reads := s.reads ++ [⟨trustedSigners, .signing 0 (signedCatalog host trustedSigners input)⟩] }
  | .resume i input now => do
    let r ← s.reads[i]?
    resume host s i r input now

def lts : LTS St Ev :=
  LTS.ofFn (fun s => s = ⟨JsMap.empty, [], []⟩) (step host)

end Steps

/-! ## The law -/

/-- What an accepted catalog owes to the ones accepted before it. -/
structure Law (host : Host) (before : List Acceptance) (a : Acceptance) : Prop where
  sequence : ∀ b ∈ before, b.signer = a.signer →
    b.catalog.payload.sequence ≤ a.catalog.payload.sequence
  digest : ∀ b ∈ before, b.signer = a.signer →
    b.catalog.payload.sequence = a.catalog.payload.sequence →
    host.payloadDigest b.catalog.payload = host.payloadDigest a.catalog.payload
  listed : ∀ deliveryClass id, (∃ v, a.catalog.Lists deliveryClass id v) →
    ∃ v, a.catalog.Lists deliveryClass id v ∧ ∀ b ∈ before, b.signer = a.signer →
      ∀ w, b.catalog.Lists deliveryClass id w → VersionLe w v

/-- The stored highest version of an extension. -/
def St.highest (s : St) (signer key : String) : Option String :=
  (highestOf (s.store.get? signer)).get? key

/-- The checkpoint that the last accepted catalog of a signer left. -/
def lastOf (accepted : List Acceptance) (signer : String) : Option CatalogCheckpoint :=
  (accepted.reverse.find? fun a => a.signer = signer).map (·.checkpoint)

/-- The call is rejected. -/
def St.Rejected (s : St) (i : Nat) : Prop := ∃ r e, s.reads[i]? = some r ∧ r.phase = .rejected e

/-! ## Equal checkpoints -/

theorem eq_of_zip_all {α β : Type} [DecidableEq α] [DecidableEq β] :
    ∀ {l m : List (α × β)}, l.length = m.length →
      ((l.zip m).all fun e => e.1.1 = e.2.1 ∧ e.1.2 = e.2.2) = true → l = m
  | [], [], _, _ => rfl
  | a :: l, b :: m, hlen, h => by
    rw [List.zip_cons_cons, List.all_cons, Bool.and_eq_true, decide_eq_true_eq] at h
    have hlen' : l.length = m.length := by simpa using hlen
    have hab : a = b := Prod.ext h.1.1 h.1.2
    rw [hab, eq_of_zip_all hlen' h.2]

/-- What `sameCheckpoint` does not tell apart has the same marks. -/
theorem sameCheckpoint_some {host : Host} {left right : CatalogCheckpoint}
    (h : sameCheckpoint host (some left) (some right) = true) :
    left.signerIdentity = right.signerIdentity ∧ left.sequence = right.sequence ∧
      left.payloadDigest = right.payloadDigest ∧
      ∀ k, left.highestVersions.get? k = right.highestVersions.get? k := by
  unfold sameCheckpoint at h
  dsimp only at h
  split at h
  · cases h
  · rename_i hsame
    rw [not_or, not_or, not_not, not_not, not_not] at hsame
    rw [Bool.and_eq_true, decide_eq_true_eq] at h
    have hsorted := eq_of_zip_all h.1 h.2
    have hperm : left.highestVersions.entries.Perm right.highestVersions.entries := by
      have hl := List.perm_insertionSort
        (fun a b : String × String => host.localeLe a.1 b.1 = true) left.highestVersions.entries
      have hr := List.perm_insertionSort
        (fun a b : String × String => host.localeLe a.1 b.1 = true) right.highestVersions.entries
      unfold sortedVersions at hsorted
      rw [hsorted] at hl
      exact hl.symm.trans hr
    refine ⟨hsame.1, hsame.2.1, hsame.2.2, fun k => Option.ext fun v => ?_⟩
    rw [JsMap.get?_eq_some, JsMap.get?_eq_some, hperm.mem_iff]

theorem sameCheckpoint_highest {host : Host} {left right : Option CatalogCheckpoint}
    (h : sameCheckpoint host left right = true) (k : String) :
    (highestOf left).get? k = (highestOf right).get? k := by
  cases left with
  | none =>
    cases right with
    | none => rfl
    | some right => cases h
  | some left =>
    cases right with
    | none => cases h
    | some right => exact (sameCheckpoint_some h).2.2.2 k

/-- A check against an equal checkpoint. -/
theorem advances_congr {host : Host} {left right : Option CatalogCheckpoint}
    {catalog : SignedCatalog} {next : CatalogCheckpoint} (h : Advances host right catalog next)
    (hsame : sameCheckpoint host left right = true) : Advances host left catalog next := by
  have hhighest := sameCheckpoint_highest hsame
  refine ⟨h.signer, h.sequence, h.digest, ?_, h.valid, ?_, h.bounded, ?_⟩
  · intro p hp
    subst hp
    cases right with
    | none => cases hsame
    | some q =>
      obtain ⟨-, hsequence, hdigest, -⟩ := sameCheckpoint_some hsame
      rw [hsequence, hdigest]
      exact h.notStale q rfl
  · intro k v hk
    rw [hhighest] at hk
    exact h.kept k v hk
  · intro e he
    obtain ⟨v, hv, hle⟩ := h.listed e he
    refine ⟨v, hv, fun mark hm => hle mark ?_⟩
    rw [← hhighest]
    exact hm

/-! ## What a step does -/

/-- The entries of a call whose swap succeeded. -/
def Phase.entries : Phase → Option (List CatalogEntry)
  | .swapping _ verified true => some verified.entries
  | .fulfilled entries => some entries
  | _ => none

variable {host : Host} {s s' : St} {e : Ev}

/-- A step starts a call, or moves one on without touching the store, or is a swap, and then what is
installed advances what it replaces. -/
inductive Effect (host : Host) (s s' : St) (e : Ev) : Prop
  | starts (r : Read) (hr : r.phase.entries = none)
      (h : s' = { s with reads := s.reads ++ [r] })
  | moves (r : Read) (phase : Phase) (hr : s.reads[e.read s]? = some r)
      (hp : phase.entries = r.phase.entries) (h : s' = s.put (e.read s) r phase)
  | swaps (r : Read) (attempt : Nat) (verified : VerifiedCatalogSnapshot)
      (hr : s.reads[e.read s]? = some r) (hn : r.phase.entries = none)
      (hentries : verified.entries = verified.catalog.payload.entries)
      (hadv : Advances host (s.store.get? verified.catalog.signer.identity) verified.catalog
        verified.checkpoint)
      (h : s' =
        { s.put (e.read s) r (.swapping attempt verified true) with
          store := s.store.set verified.catalog.signer.identity verified.checkpoint
          accepted := s.accepted ++ [⟨e.read s, verified.catalog, verified.checkpoint⟩] })

/-- Every stored checkpoint is under its signer and holds versions that the schema accepts. -/
def StoreOk (store : Store) : Prop :=
  ∀ k c, store.get? k = some c → c.signerIdentity = k ∧ Valid ExactSemver c.highestVersions

theorem StoreOk.highest {store : Store} (h : StoreOk store) (k : String) :
    Valid ExactSemver (highestOf (store.get? k)) := by
  cases hk : store.get? k with
  | none => exact valid_empty
  | some c => exact (h k c hk).2

/-- The check is against what the call read, and the swap finds an equal checkpoint in the store. -/
theorem verifyAndSwap_effect (hs : StoreOk s.store) {i : Nat} {r : Read} {attempt : Nat}
    {catalog : SignedCatalog} {previous : Option CatalogCheckpoint} {input : Input} {now : Int}
    (hr : s.reads[i]? = some r) (hp : r.phase = .reading attempt catalog previous) :
    Effect host s (verifyAndSwap host s i r attempt catalog previous now)
      (.resume i input now) := by
  have hnone : r.phase.entries = none := by rw [hp]; rfl
  unfold verifyAndSwap
  split
  · exact .moves r _ hr (by rw [hnone]; rfl) rfl
  · rename_i verified hverified
    unfold compareAndSet
    by_cases hsame : sameCheckpoint host (s.store.get? verified.checkpoint.signerIdentity) previous
        = true
    · rw [if_pos hsame]
      have hv : Valid ExactSemver (highestOf previous) := by
        intro k v hk
        rw [← sameCheckpoint_highest hsame] at hk
        exact hs.highest _ k v hk
      obtain ⟨hcatalog, hentries, hadv⟩ := verifiedSnapshot_advances hv hverified
      subst hcatalog
      rw [hadv.signer] at hsame ⊢
      exact .swaps r attempt verified hr hnone hentries (advances_congr hadv hsame) rfl
    · rw [if_neg hsame]
      exact .moves r _ hr (by rw [hnone]; rfl) rfl

theorem step_effect (hs : StoreOk s.store) (h : step host s e = some s') :
    Effect host s s' e := by
  cases e with
  | call trustedSigners input =>
    obtain rfl := Option.some.inj h
    exact .starts _ rfl rfl
  | resume i input now =>
    simp only [step, Option.bind_eq_bind, Option.bind_eq_some_iff] at h
    obtain ⟨r, hr, h⟩ := h
    unfold resume at h
    split at h
    · rename_i hp
      obtain rfl := Option.some.inj h
      exact .moves r _ hr (by rw [hp]; rfl) rfl
    · rename_i hp
      obtain rfl := Option.some.inj h
      exact .moves r _ hr (by rw [hp]; rfl) rfl
    · rename_i hp
      obtain rfl := Option.some.inj h
      exact verifyAndSwap_effect hs hr hp
    · rename_i hp
      obtain rfl := Option.some.inj h
      exact .moves r _ hr (by rw [hp]; rfl) rfl
    · rename_i hp
      split at h <;> obtain rfl := Option.some.inj h
      · exact .moves r _ hr (by rw [hp]; rfl) rfl
      · exact .moves r _ hr (by rw [hp]; rfl) rfl
    · cases h
    · cases h

/-! ## The invariant -/

/-- The checkpoint bounds what an accepted catalog said. -/
structure Bounds (host : Host) (c : CatalogCheckpoint) (a : Acceptance) : Prop where
  sequence : a.catalog.payload.sequence ≤ c.sequence
  digest : a.catalog.payload.sequence = c.sequence →
    host.payloadDigest a.catalog.payload = c.payloadDigest
  versions : ∀ e ∈ a.catalog.payload.entries,
    ∃ w, c.highestVersions.get? e.key = some w ∧ VersionLe e.version w

structure Inv (host : Host) (s : St) : Prop where
  store : StoreOk s.store
  bounds : ∀ a ∈ s.accepted, ∃ c, s.store.get? a.signer = some c ∧ Bounds host c a
  law : History.Along (Law host) s.accepted
  last : ∀ signer, s.store.get? signer = lastOf s.accepted signer
  answered : ∀ i r, s.reads[i]? = some r → ∀ entries, r.phase.entries = some entries →
    ∃ a ∈ s.accepted, a.read = i ∧ a.catalog.payload.entries = entries
  accepted : ∀ a ∈ s.accepted, ∃ r, s.reads[a.read]? = some r ∧
    r.phase.entries = some a.catalog.payload.entries

theorem inv_init : Inv host ⟨JsMap.empty, [], []⟩ where
  store := nofun
  bounds := nofun
  law := History.along_nil
  last _ := rfl
  answered := nofun
  accepted := nofun

/-- What was bounded by the checkpoint in place is bounded by the one that advances it. -/
theorem Bounds.advance {c next : CatalogCheckpoint} {a : Acceptance} {catalog : SignedCatalog}
    (h : Bounds host c a) (hc : Valid ExactSemver c.highestVersions)
    (hadv : Advances host (some c) catalog next) : Bounds host next a := by
  obtain ⟨hle, hdigest⟩ := hadv.notStale c rfl
  refine ⟨h.sequence.trans hle, ?_, ?_⟩
  · intro heq
    have hc : a.catalog.payload.sequence = c.sequence := by
      have := h.sequence
      omega
    exact (h.digest hc).trans (hdigest (hc.symm.trans heq))
  · intro e he
    obtain ⟨w, hw, hle⟩ := h.versions e he
    obtain ⟨w', hw', hle'⟩ := hadv.kept e.key w hw
    exact ⟨w', hw', precedence_orders.trans e.version_ok (hc _ _ hw) (hadv.valid _ _ hw') hle hle'⟩

/-- The checkpoint of an accepted catalog bounds the catalog. -/
theorem bounds_self {previous : Option CatalogCheckpoint} {a : Acceptance}
    (hadv : Advances host previous a.catalog a.checkpoint) : Bounds host a.checkpoint a where
  sequence := by rw [hadv.sequence]
  digest _ := hadv.digest.symm
  versions := hadv.bounded

/-- A catalog that advances a checkpoint keeps the law against all that the checkpoint bounds. -/
theorem law_of_advances {a : Acceptance} {before : List Acceptance} {store : Store}
    (hs : StoreOk store)
    (hb : ∀ b ∈ before, ∃ c, store.get? b.signer = some c ∧ Bounds host c b)
    (hadv : Advances host (store.get? a.signer) a.catalog a.checkpoint) : Law host before a := by
  refine ⟨?_, ?_, ?_⟩
  · intro b hm hsigner
    obtain ⟨c, hc, hbound⟩ := hb b hm
    rw [hsigner] at hc
    have hle := (hadv.notStale c hc).1
    rw [hadv.sequence] at hle
    exact hbound.sequence.trans hle
  · intro b hm hsigner heq
    obtain ⟨c, hc, hbound⟩ := hb b hm
    rw [hsigner] at hc
    have hnext := (hbound.advance (hs _ _ hc).2 (hc ▸ hadv)).digest (heq.trans hadv.sequence.symm)
    exact hnext.trans hadv.digest
  · intro deliveryClass id hex
    obtain ⟨-, e, he, rfl, rfl, -⟩ := hex
    obtain ⟨v, hlists, hle⟩ := hadv.listed e he
    refine ⟨v, hlists, ?_⟩
    intro b hm hsigner w ⟨e', he', hclass, hid, hw⟩
    obtain ⟨c, hc, hbound⟩ := hb b hm
    rw [hsigner] at hc
    have hkey : e'.key = e.key := by
      unfold CatalogEntry.key
      rw [hclass, hid]
    obtain ⟨mark, hmark, hmarkle⟩ := hbound.versions e' he'
    have hv : ExactSemver v := by
      obtain ⟨e'', -, -, -, rfl⟩ := hlists
      exact e''.version_ok
    have hhigh : VersionLe mark v := by
      refine hle mark ?_
      rw [hc, ← hkey]
      exact hmark
    subst hw
    exact precedence_orders.trans e'.version_ok ((hs _ _ hc).2 _ _ hmark) hv hmarkle hhigh

theorem lastOf_snoc (accepted : List Acceptance) (a : Acceptance) (signer : String) :
    lastOf (accepted ++ [a]) signer =
      if signer = a.signer then some a.checkpoint else lastOf accepted signer := by
  unfold lastOf
  rw [List.reverse_append, List.reverse_singleton, List.singleton_append, List.find?_cons]
  by_cases h : signer = a.signer
  · simp [h]
  · simp [h, Ne.symm h]

/-- Moving a call on keeps what ties calls to the history. -/
theorem inv_moves (hi : Inv host s) {i : Nat} {r : Read} {phase : Phase}
    (hr : s.reads[i]? = some r) (hp : phase.entries = r.phase.entries) :
    Inv host (s.put i r phase) := by
  refine ⟨hi.store, hi.bounds, hi.law, hi.last, ?_, ?_⟩
  · intro j r' hj entries hentries
    rcases getElem?_set_cases hj with ⟨-, hj⟩ | ⟨rfl, rfl⟩
    · exact hi.answered j r' hj entries hentries
    · exact hi.answered j r hr entries (hp ▸ hentries)
  · intro a ha
    obtain ⟨r', hr', hentries⟩ := hi.accepted a ha
    unfold St.put
    by_cases hread : i = a.read
    · subst hread
      obtain rfl := Option.some.inj (hr.symm.trans hr')
      obtain ⟨hlt, -⟩ := List.getElem?_eq_some_iff.mp hr
      exact ⟨_, List.getElem?_set_self hlt, hp.trans hentries⟩
    · exact ⟨r', (List.getElem?_set_ne hread).trans hr', hentries⟩

theorem inv_effect (hi : Inv host s) (he : Effect host s s' e) : Inv host s' := by
  cases he with
  | starts r hr h =>
    subst h
    refine ⟨hi.store, hi.bounds, hi.law, hi.last, ?_, ?_⟩
    · intro i r' hj entries hentries
      rcases getElem?_snoc hj with hj | ⟨-, rfl⟩
      · exact hi.answered i r' hj entries hentries
      · rw [hr] at hentries; cases hentries
    · intro a ha
      obtain ⟨r', hr', hentries⟩ := hi.accepted a ha
      exact ⟨r', getElem?_append_of_some hr', hentries⟩
  | moves r phase hr hp h =>
    subst h
    exact inv_moves hi hr hp
  | swaps r attempt verified hr hn hentries hadv h =>
    subst h
    have hlaw := law_of_advances (a := ⟨e.read s, verified.catalog, verified.checkpoint⟩) hi.store
      hi.bounds hadv
    refine ⟨?_, ?_, History.along_snoc.mpr ⟨hi.law, hlaw⟩, ?_, ?_, ?_⟩
    · intro k c hk
      rw [JsMap.get?_set] at hk
      split at hk
      · rename_i hkey
        obtain rfl := Option.some.inj hk
        exact ⟨hadv.signer.trans hkey.symm, hadv.valid⟩
      · exact hi.store k c hk
    · intro a ha
      rcases List.mem_append.mp ha with ha | ha
      · obtain ⟨c, hc, hbound⟩ := hi.bounds a ha
        by_cases hsigner : a.signer = verified.catalog.signer.identity
        · rw [hsigner] at hc
          refine ⟨verified.checkpoint, ?_, hbound.advance (hi.store _ _ hc).2 (hc ▸ hadv)⟩
          rw [hsigner]
          exact JsMap.get?_set_self ..
        · exact ⟨c, (JsMap.get?_set_ne _ _ hsigner).trans hc, hbound⟩
      · rw [List.mem_singleton] at ha; subst ha
        have hself : Bounds host verified.checkpoint
            ⟨e.read s, verified.catalog, verified.checkpoint⟩ :=
          bounds_self (a := ⟨e.read s, verified.catalog, verified.checkpoint⟩) hadv
        exact ⟨verified.checkpoint, JsMap.get?_set_self .., hself⟩
    · intro signer
      show (s.store.set _ _).get? signer = _
      rw [JsMap.get?_set, lastOf_snoc, hi.last signer]
      rfl
    · intro j r' hj entries hj'
      rcases getElem?_set_cases hj with ⟨-, hj⟩ | ⟨rfl, rfl⟩
      · obtain ⟨a, ha, hread⟩ := hi.answered j r' hj entries hj'
        exact ⟨a, List.mem_append_left _ ha, hread⟩
      · refine ⟨_, List.mem_append_right _ (List.mem_singleton_self _), rfl, ?_⟩
        exact hentries.symm.trans (Option.some.inj hj')
    · intro a ha
      obtain ⟨hlt, -⟩ := List.getElem?_eq_some_iff.mp hr
      rcases List.mem_append.mp ha with ha | ha
      · obtain ⟨r', hr', hacc⟩ := hi.accepted a ha
        have hread : e.read s ≠ a.read := by
          intro heq
          rw [heq] at hr
          obtain rfl := Option.some.inj (hr.symm.trans hr')
          rw [hn] at hacc
          cases hacc
        exact ⟨r', (List.getElem?_set_ne hread).trans hr', hacc⟩
      · rw [List.mem_singleton] at ha; subst ha
        exact ⟨_, List.getElem?_set_self hlt, congrArg some hentries⟩

theorem inv_step (hi : Inv host s) (h : step host s e = some s') : Inv host s' :=
  inv_effect hi (step_effect hi.store h)

theorem inductive_inv : (lts host).Inductive (Inv host) where
  init s h := by
    obtain rfl := h
    exact inv_init
  step _ _ _ hi h := inv_step hi h

/-! ## Runs -/

/-- No stored highest version is lower in `s'`. -/
def NoLower (s s' : St) : Prop :=
  ∀ signer key v, s.highest signer key = some v →
    ∃ w, s'.highest signer key = some w ∧ VersionLe v w

theorem noLower_step (hi : Inv host s) (h : step host s e = some s') : NoLower s s' := by
  intro signer key v hv
  have hrefl : VersionLe v v := precedence_orders.refl (hi.store.highest signer key v hv)
  cases step_effect hi.store h with
  | starts r hr h => subst h; exact ⟨v, hv, hrefl⟩
  | moves r phase hr hp h => subst h; exact ⟨v, hv, hrefl⟩
  | swaps r attempt verified hr hn hentries hadv h =>
    subst h
    unfold St.highest at hv ⊢
    dsimp only
    rw [JsMap.get?_set]
    split
    · rename_i hsigner
      subst hsigner
      exact hadv.kept key v hv
    · exact ⟨v, hv, hrefl⟩

variable {s₀ s'' : St} {es : List Ev}

theorem noLower_run (hi : Inv host s) (hr : (lts host).Run s es s') : NoLower s s' := by
  have hrel : StoreOk s.store → StoreOk s'.store ∧ NoLower s s' := by
    have hind : (lts host).Inductive (Inv host) := inductive_inv
    refine hind.run_rel
      (R := fun s s' => StoreOk s.store → StoreOk s'.store ∧ NoLower s s') ?_ ?_ ?_ hr hi
    · intro s hs
      exact ⟨hs, fun signer key v hv => ⟨v, hv, precedence_orders.refl (hs.highest _ _ _ hv)⟩⟩
    · intro a b c hab hbc ha
      obtain ⟨hb, hle⟩ := hab ha
      obtain ⟨hc, hle'⟩ := hbc hb
      refine ⟨hc, fun signer key v hv => ?_⟩
      obtain ⟨w, hw, hvw⟩ := hle signer key v hv
      obtain ⟨x, hx, hwx⟩ := hle' signer key w hw
      exact ⟨x, hx, precedence_orders.trans (ha.highest _ _ _ hv) (hb.highest _ _ _ hw)
        (hc.highest _ _ _ hx) hvw hwx⟩
    · intro s e s' hi h _
      exact ⟨(inv_step hi h).store, noLower_step hi h⟩
  exact (hrel hi.store).2

theorem accepted_run (hi : Inv host s) (hr : (lts host).Run s es s') :
    ∀ a ∈ s.accepted, a ∈ s'.accepted := by
  have hind : (lts host).Inductive (Inv host) := inductive_inv
  refine hind.run_rel
    (R := fun s s' => ∀ a ∈ s.accepted, a ∈ s'.accepted) ?_ ?_ ?_ hr hi
  · intro s a ha
    exact ha
  · intro a b c hab hbc x hx
    exact hbc x (hab x hx)
  · intro s e s' hi h a ha
    cases step_effect hi.store h with
    | starts r hr h => subst h; exact ha
    | moves r phase hr hp h => subst h; exact ha
    | swaps r attempt verified hr hn hentries hadv h =>
      subst h
      exact List.mem_append_left _ ha

/-- No step of a call that ends up rejected is a swap. -/
theorem rejected_silent (hi : Inv host s) (h : step host s e = some s')
    (hr : (lts host).Run s' es s'') (hrej : s''.Rejected (e.read s)) :
    s'.store = s.store ∧ s'.accepted = s.accepted := by
  have hi' := inv_step hi h
  cases step_effect hi.store h with
  | starts r hr h => subst h; exact ⟨rfl, rfl⟩
  | moves r phase hr hp h => subst h; exact ⟨rfl, rfl⟩
  | swaps r attempt verified _ hn hentries hadv h =>
    have ha : ⟨e.read s, verified.catalog, verified.checkpoint⟩ ∈ s'.accepted := by
      rw [h]
      exact List.mem_append_right _ (List.mem_singleton_self _)
    obtain ⟨r', hr', hacc⟩ := (inductive_inv.run hr hi').accepted _ (accepted_run hi' hr _ ha)
    obtain ⟨r'', error, hr'', hphase⟩ := hrej
    obtain rfl := Option.some.inj (hr''.symm.trans hr')
    rw [hphase] at hacc
    cases hacc

/-- **Anti-rollback.** In every run of any number of reads over one store that starts empty:
* each accepted catalog keeps the `Law` against those accepted before it: the sequence numbers of
  a signer never decrease, equal ones have equal digests, and each extension that the catalog lists
  has a listed version at or above every one accepted before;
* the store holds, for each signer, what its last accepted catalog left, and no highest version is
  lower later;
* the calls that return are the ones with an accepted catalog, and no step of a call that is
  rejected changes the store or the history. -/
theorem anti_rollback (h₀ : (lts host).init s₀) (hr : (lts host).Run s₀ es s) :
    History.Along (Law host) s.accepted ∧
    (∀ signer, s.store.get? signer = lastOf s.accepted signer) ∧
    (∀ es' s', (lts host).Run s es' s' → NoLower s s') ∧
    (∀ i r entries, s.reads[i]? = some r → r.phase = .fulfilled entries →
      ∃ a ∈ s.accepted, a.read = i ∧ a.catalog.payload.entries = entries) ∧
    (∀ e s' es' s'', step host s e = some s' → (lts host).Run s' es' s'' →
      s''.Rejected (e.read s) → s'.store = s.store ∧ s'.accepted = s.accepted) := by
  have hi := inductive_inv.run hr (inductive_inv.init s₀ h₀)
  refine ⟨hi.law, hi.last, fun es' s' hr' => noLower_run hi hr', ?_, ?_⟩
  · intro i r entries hi' hp
    exact hi.answered i r hi' entries (by rw [hp]; rfl)
  · intro e s' es' s'' h hr' hrej
    exact rejected_silent hi h hr' hrej

/-! ## A run -/

/-- The digest of a payload is its number and its date. -/
def sampleHost : Host where
  publicKeyOk _ := true
  verify _ _ _ := true
  payloadDigest payload := payload.sequence.repr ++ payload.expiresAt
  parseDate _ := some 100
  localeLe left right := decide (StrLe left right)

def samplePublisher : Publisher := ⟨"official", "key"⟩

/-- A catalog of one application. -/
def sampleCatalog (sequence : Nat) (version : String)
    (hs : 1 ≤ sequence ∧ sequence ≤ maxSafeInteger) (hv : ExactSemver version) : SignedCatalog where
  signer := samplePublisher
  payload :=
    { sequence, expiresAt := "2030"
      entries :=
        [{ deliveryClass := .hotApplication, id := "app.notes", version, runtimeAbi := "1.0.0"
           publisher := samplePublisher
           source := ⟨"repo", "commit", "repo/releases/download/1"⟩
           artifactDigest := "a", manifestDigest := "m", sbomDigest := "s", provenanceDigest := "p"
           support := .supported, review := .approved, security := .clear, revoked := false
           id_ok := by decide, version_ok := hv, runtimeAbi_ok := by decide }]
      sequence_ok := hs, entries_ok := by simp, releases_nodup := by simp }
  signature := "signature"

def sampleSigners : JsMap String String := ⟨[("official", "key")], by simp⟩

def olderCatalog : SignedCatalog := sampleCatalog 1 "1.9.0" (by decide) (by decide)

def newerCatalog : SignedCatalog := sampleCatalog 2 "1.10.0" (by decide) (by decide)

/-- Two reads find no checkpoint; the older catalog is swapped in, the read of the newer one loses,
starts over and is accepted. A third read brings the older catalog again. -/
def sampleEvents : List Ev :=
  let newer := fun i => Ev.resume i (.ok newerCatalog) 0
  let older := fun i => Ev.resume i (.ok olderCatalog) 0
  [.call sampleSigners (.ok newerCatalog), .call sampleSigners (.ok olderCatalog), newer 0, older 1,
    older 1, newer 0, newer 0, newer 0, newer 0, newer 0, older 1,
    .call sampleSigners (.ok olderCatalog), older 2, older 2]

/-- The texts of the rejected calls. -/
def St.rejections (s : St) : List String :=
  s.reads.filterMap fun r => match r.phase with
    | .rejected e => some e
    | _ => none

theorem anti_rollback_example : ∃ s, (lts sampleHost).Run ⟨JsMap.empty, [], []⟩ sampleEvents s ∧
    s.accepted.map (·.read) = [1, 0] ∧
    s.rejections = ["Official catalog checkpoint is stale or replayed."] ∧
    History.Along (Law sampleHost) s.accepted := by
  have hexec : ((LTS.exec (step sampleHost) ⟨JsMap.empty, [], []⟩ sampleEvents).any fun s =>
      s.accepted.map (·.read) = [1, 0] ∧
        s.rejections = ["Official catalog checkpoint is stale or replayed."]) = true := by
    decide
  obtain ⟨s, hs, hend⟩ := (Option.any_eq_true _ _).mp hexec
  have hrun : (lts sampleHost).Run ⟨JsMap.empty, [], []⟩ sampleEvents s := LTS.run_of_exec hs
  exact ⟨s, hrun, (of_decide_eq_true hend).1, (of_decide_eq_true hend).2,
    (anti_rollback rfl hrun).1⟩

end KNex.Extensions.AntiRollback
