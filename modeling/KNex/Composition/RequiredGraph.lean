import KNex.Core.Digraph
import KNex.Core.Except
import KNex.Core.JsMap
import KNex.Core.JsString
import KNex.Core.ShortestCycle

/-!
# Cycles and order of the required edges

The two graph walks of `packages/composition/src/deterministic-resolver.ts` over the required
edges, a map from each active plugin to the set of the plugins it requires.

* `shortestRequiredCycle` searches breadth first from every key. The loop runs until its queue
  is empty; here it has one round for each node it can reach, and `searchLoop_searched` shows
  that this empties the queue. `Searched` says what the searches have reached and compared, in
  terms of the breadth-first search of `Core.Digraph`; a search that finds nothing proves that no
  cycle passes through its start (`acyclic_of_shortestRequiredCycle`).
* `dependencyFirstOrder` counts the dependencies that are still to come. On an acyclic graph
  whose edges stay among the nodes it places each node once, after all it requires
  (`dependencyFirstOrder_spec`).
-/
namespace KNex.Composition

open KNex.Core KNex.Core.Digraph

/-- `Map<string, Set<string>>`. -/
abbrev Edges := JsMap String (List String)

/-- `edges.get(node) ?? []`. -/
def Edges.of (edges : Edges) (node : String) : List String := (edges.get? node).getD []

theorem Edges.filed_iff {edges : Edges} {a b : String} : edges.Filed a b ↔ b ∈ edges.of a :=
  JsMap.filed_iff_getD

/-! ## The shortest cycle -/

/-- The rotation of a cycle that sorts first, closed again.
mirrors packages/composition/src/deterministic-resolver.ts:271-279 -/
def canonicalCycle (path : List String) : List String :=
  let nodes := path.dropLast
  let best := (List.range' 1 (nodes.length - 1)).foldl (fun best offset =>
    let candidate := nodes.drop offset ++ nodes.take offset
    if StrLt (joinNul candidate) (joinNul best) then candidate else best) nodes
  best ++ best.take 1

/-- A search from one start: the queue with the path to each of its nodes, the distances of the
nodes seen, and the shortest cycle of this and the earlier searches. -/
structure Search where
  queue : List (String × List String)
  distance : JsMap String Nat
  shortest : Option (List String)

/-- `!shortest || cycle.length < shortest.length || …`. -/
def shorter (cycle : List String) : Option (List String) → Bool
  | none => true
  | some shortest => decide (cycle.length < shortest.length) ||
      decide (cycle.length = shortest.length ∧ StrLt (joinNul cycle) (joinNul shortest))

/-- One neighbor of the node at the end of `path`.
mirrors packages/composition/src/deterministic-resolver.ts:292-304 -/
def visitNeighbor (start : String) (path : List String) (s : Search) (neighbor : String) : Search :=
  if neighbor = start then
    let cycle := canonicalCycle (path ++ [start])
    if shorter cycle s.shortest then { s with shortest := some cycle } else s
  else
    let nextDistance := path.length
    if (s.distance.get? neighbor).any (· ≤ nextDistance) then s
    else { s with
      distance := s.distance.set neighbor nextDistance
      queue := s.queue ++ [(neighbor, path ++ [neighbor])] }

/-- The loop over the queue.
mirrors packages/composition/src/deterministic-resolver.ts:287-305 -/
def searchLoop (edges : Edges) (start : String) : Nat → Search → Search
  | 0, s => s
  | fuel + 1, s =>
    match s.queue with
    | [] => s
    | current :: queue =>
      searchLoop edges start fuel
        ((sortStrings (edges.of current.1)).foldl (visitNeighbor start current.2) { s with queue })

/-- All targets of edges. -/
def Edges.targets (edges : Edges) : List String := edges.entries.flatMap Prod.snd

/-- mirrors packages/composition/src/deterministic-resolver.ts:284-286 -/
def searchFrom (edges : Edges) (shortest : Option (List String)) (start : String) :
    Option (List String) :=
  (searchLoop edges start (edges.targets.length + 1)
    { queue := [(start, [start])], distance := JsMap.empty.set start 0, shortest }).shortest

/-- mirrors packages/composition/src/deterministic-resolver.ts:281-308 -/
def shortestRequiredCycle (edges : Edges) : Option (List String) :=
  (sortStrings edges.keys).foldl (searchFrom edges) none

/-! ## What a search explores -/

theorem Edges.of_subset_targets {edges : Edges} {a b : String} (h : b ∈ edges.of a) :
    b ∈ edges.targets := by
  rw [← Edges.filed_iff] at h
  obtain ⟨l, hl, hb⟩ := h
  rw [JsMap.get?_eq_some] at hl
  exact List.mem_flatMap.mpr ⟨(a, l), hl, hb⟩

/-- What `shorter` compares. -/
def cycleRank (cycle : List String) : ℕ ×ₗ List ℕ := toLex (cycle.length, utf16 (joinNul cycle))

/-- `if (…) { shortest = cycle; }`. -/
def record (found : Option (List String)) (cycle : List String) : Option (List String) :=
  if shorter cycle found then some cycle else found

/-- A cycle is on record that does not come after `cycle`. -/
def Covered (found : Option (List String)) (cycle : List String) : Prop :=
  ∃ c, found = some c ∧ cycleRank c ≤ cycleRank cycle

theorem shorter_some {cycle shortest : List String} :
    shorter cycle (some shortest) = true ↔ cycleRank cycle < cycleRank shortest := by
  unfold shorter cycleRank
  rw [Bool.or_eq_true, decide_eq_true_iff, decide_eq_true_iff, Prod.Lex.toLex_lt_toLex]
  exact Iff.rfl

theorem covered_self (cycle : List String) : Covered (some cycle) cycle := ⟨cycle, rfl, le_refl _⟩

theorem covered_record (found : Option (List String)) (cycle : List String) :
    Covered (record found cycle) cycle := by
  unfold record
  split
  · exact covered_self cycle
  · rename_i h
    cases found with
    | none => exact absurd rfl h
    | some c => exact ⟨c, rfl, not_lt.mp (mt shorter_some.mpr h)⟩

theorem Covered.record {found : Option (List String)} {c : List String} (h : Covered found c)
    (cycle : List String) : Covered (record found cycle) c := by
  obtain ⟨b, rfl, hb⟩ := h
  unfold Composition.record
  split
  · rename_i hlt
    exact ⟨cycle, rfl, (shorter_some.mp hlt).le.trans hb⟩
  · exact ⟨b, rfl, hb⟩

theorem record_eq_some {found : Option (List String)} {cycle c : List String}
    (h : record found cycle = some c) : found = some c ∨ c = cycle := by
  unfold record at h
  split at h
  · cases h; exact .inr rfl
  · exact .inl h

theorem visitNeighbor_start (start : String) (path : List String) (s : Search) :
    visitNeighbor start path s start =
      { s with shortest := record s.shortest (canonicalCycle (path ++ [start])) } := by
  unfold visitNeighbor record
  rw [if_pos rfl]
  dsimp only
  split <;> rfl

/-- The state of a search that started with `found` on record. The edges `went` were gone
through: their ends were reached, and the cycles they close were compared. -/
structure Searched (edges : Edges) (start : String) (found : Option (List String))
    (done : List (String × List String)) (went : String × List String → String → Prop)
    (s : Search) : Prop where
  tree : SearchTree utf16 edges.Filed start done s.queue
  distance : ∀ n d, s.distance.get? n = some d ↔
    ∃ q, (n, q) ∈ done ++ s.queue ∧ q.length = d + 1
  reached : ∀ e b, went e b → ∃ q, (b, q) ∈ done ++ s.queue ∧
    shortlex utf16 q ≤ shortlex utf16 (e.2 ++ [b])
  offered : ∀ e, went e start → Covered s.shortest (canonicalCycle (e.2 ++ [start]))
  kept : ∀ c, found = some c → Covered s.shortest c
  real : ∀ c, s.shortest = some c →
    found = some c ∨ ∃ l, IsCycle edges.Filed l ∧ c = canonicalCycle (l ++ l.take 1)

/-- The edges of the nodes in `done`, and those of `current` to the neighbors in `gone`. -/
def Went (edges : Edges) (done : List (String × List String)) (current : String × List String)
    (gone : List String) (e : String × List String) (b : String) : Prop :=
  e ∈ done ∧ edges.Filed e.1 b ∨ e = current ∧ b ∈ gone

theorem went_snoc {edges : Edges} {done : List (String × List String)}
    {current e : String × List String} {gone : List String} {neighbor b : String} :
    Went edges done current (gone ++ [neighbor]) e b ↔
      Went edges done current gone e b ∨ e = current ∧ b = neighbor := by
  simp only [Went, List.mem_append, List.mem_singleton]
  tauto

section Round

variable {edges : Edges} {start : String} {found : Option (List String)}
  {done : List (String × List String)} {current : String × List String}

/-- Within a round, the walks that continue the one of `current` lead to neighbors gone through. -/
structure Round (edges : Edges) (start : String) (found : Option (List String))
    (done : List (String × List String)) (current : String × List String) (gone : List String)
    (s : Search) : Prop where
  searched : Searched edges start found (done ++ [current]) (Went edges done current gone) s
  children : ∀ e ∈ done ++ [current] ++ s.queue, e.2 = current.2 ++ [e.1] → e.1 ∈ gone

/-- The start again: its walk is the least of all, and the cycle is compared. -/
theorem round_start {gone : List String} {s : Search} (h : Round edges start found done current gone s)
    (hE : edges.Filed current.1 start) :
    Round edges start found done current (gone ++ [start]) (visitNeighbor start current.2 s start) := by
  rw [visitNeighbor_start]
  have ht := h.searched
  refine ⟨⟨ht.tree, ht.distance, fun e b hw => ?_, fun e hw => ?_, fun c hc => ?_, fun c hc => ?_⟩,
    fun e he hchild => List.mem_append_left _ (h.children e he hchild)⟩
  · rcases went_snoc.mp hw with hw | ⟨rfl, rfl⟩
    · exact ht.reached e b hw
    · exact ⟨[b], ht.tree.root, ht.tree.le_of_seen ht.tree.root⟩
  · rcases went_snoc.mp hw with hw | ⟨rfl, -⟩
    · exact (ht.offered e hw).record _
    · exact covered_record _ _
  · exact (ht.kept c hc).record _
  · rcases record_eq_some hc with hc | rfl
    · exact ht.real c hc
    · right
      obtain ⟨hchain, hhead, l, hl⟩ := ht.tree.walk current (by simp)
      rw [hl] at hchain hhead ⊢
      refine ⟨l ++ [current.1], isCycle_snoc hchain hhead hE, ?_⟩
      rw [List.take_one, hhead]
      rfl

/-- A node seen before stays where it is. -/
theorem round_seen {gone : List String} {s : Search} (h : Round edges start found done current gone s)
    {neighbor : String} {q : List String} (hseen : (neighbor, q) ∈ done ++ [current] ++ s.queue)
    (hne : neighbor ≠ start) :
    Round edges start found done current (gone ++ [neighbor]) s := by
  have ht := h.searched
  refine ⟨⟨ht.tree, ht.distance, fun e b hw => ?_, fun e hw => ?_, ht.kept, ht.real⟩,
    fun e he hchild => List.mem_append_left _ (h.children e he hchild)⟩
  · rcases went_snoc.mp hw with hw | ⟨rfl, rfl⟩
    · exact ht.reached e b hw
    · exact ⟨q, hseen, ht.tree.le_of_seen hseen⟩
  · rcases went_snoc.mp hw with hw | ⟨-, he⟩
    · exact ht.offered e hw
    · exact absurd he.symm hne

/-- A new node joins the queue. -/
theorem round_new {gone : List String} {s : Search} (h : Round edges start found done current gone s)
    {neighbor : String} (hE : edges.Filed current.1 neighbor) (hle : ∀ g ∈ gone, StrLe g neighbor)
    (hnew : s.distance.get? neighbor = none) (hne : neighbor ≠ start) :
    Round edges start found done current (gone ++ [neighbor])
      { s with
        distance := s.distance.set neighbor current.2.length
        queue := s.queue ++ [(neighbor, current.2 ++ [neighbor])] } := by
  have ht := h.searched
  have hunseen : ∀ q, (neighbor, q) ∉ done ++ [current] ++ s.queue := by
    intro q hq
    obtain ⟨-, -, l, hl⟩ := ht.tree.walk _ hq
    have := (ht.distance neighbor l.length).mpr ⟨q, hq, by rw [show q = l ++ [neighbor] from hl]; simp⟩
    rw [hnew] at this
    cases this
  have hgrow : SearchTree utf16 edges.Filed start (done ++ [current])
      (s.queue ++ [(neighbor, current.2 ++ [neighbor])]) := by
    refine ht.tree.grow hE ?_ fun e he hchild => ?_
    · intro hm
      obtain ⟨⟨n, q⟩, hq, rfl⟩ := List.mem_map.mp hm
      exact hunseen q hq
    · -- sorted neighbors, and `e.1` is another one
      refine lt_of_le_of_ne (hle e.1 (h.children e he hchild)) fun hk => ?_
      have hsame : e.1 = neighbor := utf16_injective hk
      exact hunseen e.2 (by rw [← hsame]; exact he)
  have hmem : ∀ e, e ∈ done ++ [current] ++ (s.queue ++ [(neighbor, current.2 ++ [neighbor])]) ↔
      e ∈ done ++ [current] ++ s.queue ∨ e = (neighbor, current.2 ++ [neighbor]) := by
    intro e
    rw [← List.append_assoc, List.mem_append, List.mem_singleton]
  refine ⟨⟨hgrow, fun n d => ?_, fun e b hw => ?_, fun e hw => ?_, ht.kept, ht.real⟩,
    fun e he hchild => ?_⟩
  · rw [JsMap.get?_set]
    split
    · rename_i hn
      subst hn
      constructor
      · intro hd
        cases hd
        exact ⟨current.2 ++ [n], (hmem _).mpr (.inr rfl), by simp⟩
      · rintro ⟨q, hq, hlen⟩
        rcases (hmem _).mp hq with hq | hq
        · exact absurd hq (hunseen q)
        · cases hq
          simpa using hlen
    · rename_i hn
      rw [ht.distance]
      constructor
      · rintro ⟨q, hq, hlen⟩
        exact ⟨q, (hmem _).mpr (.inl hq), hlen⟩
      · rintro ⟨q, hq, hlen⟩
        rcases (hmem _).mp hq with hq | hq
        · exact ⟨q, hq, hlen⟩
        · cases hq
          exact absurd rfl hn
  · rcases went_snoc.mp hw with hw | ⟨rfl, rfl⟩
    · obtain ⟨q, hq, hle⟩ := ht.reached e b hw
      exact ⟨q, (hmem _).mpr (.inl hq), hle⟩
    · exact ⟨_, (hmem _).mpr (.inr rfl), le_refl _⟩
  · rcases went_snoc.mp hw with hw | ⟨-, he⟩
    · exact ht.offered e hw
    · exact absurd he.symm hne
  · rcases (hmem _).mp he with he | rfl
    · exact List.mem_append_left _ (h.children e he hchild)
    · simp

theorem round_step {gone : List String} {s : Search} (h : Round edges start found done current gone s)
    {neighbor : String} (hE : edges.Filed current.1 neighbor)
    (hle : ∀ g ∈ gone, StrLe g neighbor) :
    Round edges start found done current (gone ++ [neighbor])
      (visitNeighbor start current.2 s neighbor) := by
  by_cases hstart : neighbor = start
  · subst hstart
    exact round_start h hE
  · unfold visitNeighbor
    rw [if_neg hstart]
    dsimp only
    cases hd : s.distance.get? neighbor with
    | some d =>
      -- its walk is not longer than the one through `current`
      obtain ⟨q, hq, hlen⟩ := (h.searched.distance neighbor d).mp hd
      have := length_le_of_shortlex (h.searched.tree.le_of_seen hq)
      simp only [List.length_append, List.length_singleton] at this
      rw [if_pos (by simp; omega)]
      exact round_seen h hq hstart
    | none =>
      rw [if_neg (by simp)]
      exact round_new h hE hle hd hstart

/-- One round takes the head of the queue and visits its neighbors. -/
theorem searched_round {s : Search} {queue : List (String × List String)}
    (h : Searched edges start found done (fun e b => e ∈ done ∧ edges.Filed e.1 b) s)
    (hq : s.queue = current :: queue) :
    Searched edges start found (done ++ [current])
      (fun e b => e ∈ done ++ [current] ∧ edges.Filed e.1 b)
      ((sortStrings (edges.of current.1)).foldl (visitNeighbor start current.2)
        { s with queue }) := by
  have htree := h.tree
  rw [hq] at htree
  have hsame : done ++ s.queue = done ++ [current] ++ queue := by rw [hq]; simp
  have h0 : Round edges start found done current [] { s with queue } := by
    have hwent : ∀ e b, Went edges done current [] e b → e ∈ done ∧ edges.Filed e.1 b := by
      intro e b hw
      simpa [Went] using hw
    refine ⟨⟨htree.next, ?_, fun e b hw => ?_, fun e hw => h.offered e (hwent e _ hw), h.kept,
      h.real⟩, fun e he hchild => ?_⟩
    · rw [← hsame]; exact h.distance
    · rw [← hsame]; exact h.reached e b (hwent e b hw)
    · exact absurd hchild (htree.no_child (by simpa using he))
  have hsorted := sortBy_pairwise id (edges.of current.1)
  have hround := foldl_rule (P := Round edges start found done current)
    (f := visitNeighbor start current.2) (l := sortStrings (edges.of current.1)) h0
    fun gone a rest s' ha hs => by
      have ha' : sortBy id (edges.of current.1) = gone ++ a :: rest := ha
      refine round_step hs ?_ fun g hg => ?_
      · rw [Edges.filed_iff]
        exact mem_sortStrings.mp (by rw [ha]; simp)
      · rw [ha', List.pairwise_append] at hsorted
        exact hsorted.2.2 g hg a List.mem_cons_self
  have hwent : ∀ e b, e ∈ done ++ [current] ∧ edges.Filed e.1 b →
      Went edges done current (sortStrings (edges.of current.1)) e b := by
    rintro e b ⟨he, hE⟩
    rcases List.mem_append.mp he with he | he
    · exact .inl ⟨he, hE⟩
    · obtain rfl := List.mem_singleton.mp he
      exact .inr ⟨rfl, mem_sortStrings.mpr (Edges.filed_iff.mp hE)⟩
  have ht := hround.searched
  exact ⟨ht.tree, ht.distance, fun e b hw => ht.reached e b (hwent e b hw),
    fun e hw => ht.offered e (hwent e _ hw), ht.kept, ht.real⟩

end Round

/-- The nodes of a search are its start and targets of edges. -/
theorem Searched.subset {edges : Edges} {start : String} {found : Option (List String)}
    {done : List (String × List String)} {went : String × List String → String → Prop} {s : Search}
    (h : Searched edges start found done went s) :
    (done ++ s.queue).map Prod.fst ⊆ start :: edges.targets := by
  intro n hn
  obtain ⟨e, he, rfl⟩ := List.mem_map.mp hn
  rcases h.tree.grown e he with rfl | ⟨d, -, hE, -⟩
  · exact List.mem_cons_self
  · exact List.mem_cons_of_mem _ (Edges.of_subset_targets (Edges.filed_iff.mp hE))

/-- The rounds given to the loop empty its queue. -/
theorem searchLoop_searched {edges : Edges} {start : String} {found : Option (List String)} :
    ∀ {fuel : Nat} {s : Search} {done : List (String × List String)},
    Searched edges start found done (fun e b => e ∈ done ∧ edges.Filed e.1 b) s →
    edges.targets.length + 1 ≤ fuel + done.length →
    ∃ done, Searched edges start found done (fun e b => e ∈ done ∧ edges.Filed e.1 b)
      (searchLoop edges start fuel s) ∧ (searchLoop edges start fuel s).queue = []
  | 0, s, done, h, hfuel => by
    -- the nodes seen are the start and targets, so none is left in the queue
    have hlen := (List.subperm_of_subset h.tree.nodup h.subset).length_le
    simp only [List.length_map, List.length_append, List.length_cons] at hlen
    have hq : s.queue = [] := List.eq_nil_of_length_eq_zero (by omega)
    exact ⟨done, h, hq⟩
  | fuel + 1, s, done, h, hfuel => by
    unfold searchLoop
    split
    · rename_i hq
      exact ⟨done, h, hq⟩
    · rename_i current queue hq
      refine searchLoop_searched (searched_round h hq) ?_
      rw [List.length_append, List.length_singleton]
      omega

theorem searched_initial (edges : Edges) (found : Option (List String)) (start : String) :
    Searched edges start found [] (fun e b => e ∈ [] ∧ edges.Filed e.1 b)
      { queue := [(start, [start])], distance := JsMap.empty.set start 0, shortest := found } := by
  refine ⟨.initial, fun n d => ?_, fun e b he => absurd he.1 List.not_mem_nil,
    fun e he => absurd he.1 List.not_mem_nil, fun c hc => ?_, fun c hc => .inl hc⟩
  · rw [JsMap.get?_set, List.nil_append]
    constructor
    · intro hd
      split at hd
      · rename_i hn
        cases hd
        exact ⟨[start], by simp [hn], rfl⟩
      · cases hd
    · rintro ⟨q, hq, hlen⟩
      rw [List.mem_singleton] at hq
      cases hq
      rw [if_pos rfl]
      have hd : d = 0 := by simpa using hlen
      rw [hd]
  · show Covered found c
    rw [hc]
    exact covered_self c

/-- What a search from `start` leaves on record: a cycle it closed or the one before, not after
the one before, and for each cycle through the start not after one that undercuts it. -/
structure SearchedFrom (edges : Edges) (found : Option (List String)) (start : String)
    (found' : Option (List String)) : Prop where
  real : ∀ c, found' = some c →
    found = some c ∨ ∃ l, IsCycle edges.Filed l ∧ c = canonicalCycle (l ++ l.take 1)
  kept : ∀ c, found = some c → Covered found' c
  closed : ∀ w, IsCycle edges.Filed w → w.head? = some start → ∃ p, IsCycle edges.Filed p ∧
    shortlex utf16 p ≤ shortlex utf16 w ∧ Covered found' (canonicalCycle (p ++ p.take 1))

theorem searchFrom_spec (edges : Edges) (found : Option (List String)) (start : String) :
    SearchedFrom edges found start (searchFrom edges found start) := by
  have hfuel : edges.targets.length + 1 ≤ edges.targets.length + 1 +
      ([] : List (String × List String)).length := Nat.le_add_right _ _
  obtain ⟨done, h, hq⟩ := searchLoop_searched (searched_initial edges found start) hfuel
  refine ⟨h.real, h.kept, fun w hw hhead => ?_⟩
  have htree := h.tree
  rw [hq] at htree
  have hall : ∀ d ∈ done, ∀ b, edges.Filed d.1 b → ∃ q, (b, q) ∈ done ∧
      shortlex utf16 q ≤ shortlex utf16 (d.2 ++ [b]) := by
    intro d hd b hE
    obtain ⟨q, hq', hle⟩ := h.reached d b ⟨hd, hE⟩
    rw [hq, List.append_nil] at hq'
    exact ⟨q, hq', hle⟩
  -- the last node of the cycle, with its edge back to the start
  obtain ⟨w', n, rfl⟩ := (List.eq_nil_or_concat w).resolve_left hw.1
  rw [List.concat_eq_append] at *
  have htake : (w' ++ [n]).take 1 = [start] := by rw [List.take_one, hhead]; rfl
  have hchain := hw.2
  rw [htake, List.append_assoc, List.singleton_append, List.isChain_split,
    List.isChain_pair] at hchain
  obtain ⟨p, hp, hle⟩ := htree.undercuts (fun _ _ => utf16_injective) hall hchain.1 hhead
  obtain ⟨hpchain, hphead, l, hl⟩ := htree.walk (n, p) (List.mem_append_left _ hp)
  have hptake : p.take 1 = [start] := by rw [List.take_one, hphead]; rfl
  refine ⟨p, ?_, hle, ?_⟩
  · have hl' : p = l ++ [n] := hl
    rw [hl'] at hpchain hphead ⊢
    exact isCycle_snoc hpchain hphead hchain.2
  · rw [hptake]
    exact h.offered (n, p) ⟨hp, hchain.2⟩

/-- All searches together. -/
structure Diagnosed (edges : Edges) (found : Option (List String)) : Prop where
  real : ∀ c, found = some c →
    ∃ l, IsCycle edges.Filed l ∧ c = canonicalCycle (l ++ l.take 1)
  closed : ∀ w, IsCycle edges.Filed w → ∃ p, IsCycle edges.Filed p ∧
    shortlex utf16 p ≤ shortlex utf16 w ∧ Covered found (canonicalCycle (p ++ p.take 1))

theorem Covered.trans {found found' : Option (List String)} {c : List String}
    (h : Covered found c) (hkept : ∀ c, found = some c → Covered found' c) : Covered found' c := by
  obtain ⟨b, hb, hle⟩ := h
  obtain ⟨b', hb', hle'⟩ := hkept b hb
  exact ⟨b', hb', hle'.trans hle⟩

theorem shortestRequiredCycle_diagnosed (edges : Edges) :
    Diagnosed edges (shortestRequiredCycle edges) := by
  -- the cycles through the keys searched so far
  have hall := foldl_rule (P := fun gone (found : Option (List String)) =>
      (∀ c, found = some c → ∃ l, IsCycle edges.Filed l ∧ c = canonicalCycle (l ++ l.take 1)) ∧
      ∀ w, IsCycle edges.Filed w → ∀ a ∈ gone, w.head? = some a → ∃ p, IsCycle edges.Filed p ∧
        shortlex utf16 p ≤ shortlex utf16 w ∧ Covered found (canonicalCycle (p ++ p.take 1)))
    (f := searchFrom edges) (l := sortStrings edges.keys) (s := none)
    ⟨fun c hc => (by cases hc), fun w _ a ha => absurd ha List.not_mem_nil⟩ (by
      intro gone start rest found _ hP
      have hs := searchFrom_spec edges found start
      refine ⟨fun c hc => (hs.real c hc).elim (hP.1 c) id, fun w hw a ha hhead => ?_⟩
      rcases List.mem_append.mp ha with ha | ha
      · obtain ⟨p, hp, hle, hcov⟩ := hP.2 w hw a ha hhead
        exact ⟨p, hp, hle, hcov.trans hs.kept⟩
      · obtain rfl := List.mem_singleton.mp ha
        exact hs.closed w hw hhead)
  refine ⟨hall.1, fun w hw => ?_⟩
  obtain ⟨a, m, rfl⟩ := List.exists_cons_of_ne_nil hw.1
  refine hall.2 _ hw a ?_ rfl
  obtain ⟨b, ⟨l, hl, -⟩, -⟩ := Relation.TransGen.head'_iff.mp (transGen_iff_isCycle.mpr ⟨_, rfl, hw⟩)
  exact mem_sortStrings.mpr (JsMap.mem_keys.mpr ⟨l, hl⟩)

/-- **No cycle reported, no cycle.** -/
theorem acyclic_of_shortestRequiredCycle {edges : Edges} (h : shortestRequiredCycle edges = none) :
    Acyclic edges.Filed := by
  rw [acyclic_iff_no_cycle]
  intro l hl
  obtain ⟨p, -, -, c, hc, -⟩ := (shortestRequiredCycle_diagnosed edges).closed l hl
  rw [h] at hc
  cases hc

/-! ## Dependencies first -/

/-- What `dependencyFirstOrder` counts at first.
mirrors packages/composition/src/deterministic-resolver.ts:314-315 -/
structure Tally where
  remainingDependencies : JsMap String Int
  dependents : Edges

/-- mirrors packages/composition/src/deterministic-resolver.ts:316-324 -/
def tallyNode (edges : Edges) (t : Tally) (node : String) : Tally where
  remainingDependencies := t.remainingDependencies.set node (edges.of node).length
  dependents := (edges.of node).foldl (fun dependents dependency =>
    dependents.addNew dependency node) t.dependents

/-- The loop's state: counts, nodes without a dependency to come, nodes placed. -/
structure Placing where
  remaining : JsMap String Int
  ready : List String
  order : List String

/-- One dependent of the node just placed.
mirrors packages/composition/src/deterministic-resolver.ts:333-337 -/
def release (s : Placing) (dependent : String) : Placing :=
  let count := (s.remaining.get? dependent).getD 0 - 1
  { s with
    remaining := s.remaining.set dependent count
    ready := if count = 0 then s.ready ++ [dependent] else s.ready }

/-- mirrors packages/composition/src/deterministic-resolver.ts:328-338 -/
def placeLoop (dependents : Edges) : Nat → Placing → Placing
  | 0, s => s
  | fuel + 1, s =>
    match sortStrings s.ready with
    | [] => s
    | node :: ready =>
      -- `if (!node) break`
      if node = "" then { s with ready }
      else placeLoop dependents fuel ((sortStrings (dependents.of node)).foldl release
        { s with ready, order := s.order ++ [node] })

/-- A node is placed once, so the loop ends within one round for each node.
mirrors packages/composition/src/deterministic-resolver.ts:310-340 -/
def dependencyFirstOrder (nodes : List String) (edges : Edges) : List String :=
  let t := nodes.foldl (tallyNode edges) ⟨.empty, .empty⟩
  let ready := sortStrings (nodes.filter fun node => t.remainingDependencies.get? node = some 0)
  (placeLoop t.dependents (nodes.length + 1) ⟨t.remainingDependencies, ready, []⟩).order

/-! ## What the order places -/

/-- The dependencies of a node that are not placed yet. -/
def waiting (edges : Edges) (order : List String) (m : String) : Nat :=
  (edges.of m).countP fun b => b ∉ order

theorem waiting_eq_zero {edges : Edges} {order : List String} {m : String} :
    waiting edges order m = 0 ↔ ∀ b, edges.Filed m b → b ∈ order := by
  simp [waiting, List.countP_eq_zero, Edges.filed_iff]

theorem countP_placed {order : List String} {n : String} (hn : n ∉ order) (l : List String) :
    (l.countP fun b => b ∉ order) = (l.countP fun b => b ∉ order ++ [n]) + l.count n := by
  induction l with
  | nil => rfl
  | cons b l ih =>
    simp only [List.countP_cons, List.count_cons, ih, List.mem_append, List.mem_singleton]
    by_cases hb : b = n
    · subst hb
      simp [hn]
      omega
    · by_cases hbo : b ∈ order <;> simp [hb, hbo]
      omega

/-- Placing a node leaves its dependents one fewer to wait for. -/
theorem waiting_place {edges : Edges} (hsets : edges.Sets) {order : List String} {n m : String}
    (hn : n ∉ order) :
    waiting edges order m = waiting edges (order ++ [n]) m + if n ∈ edges.of m then 1 else 0 := by
  unfold waiting
  rw [countP_placed hn]
  have hnodup : (edges.of m).Nodup := hsets.getD m
  by_cases h : n ∈ edges.of m
  · rw [if_pos h, List.count_eq_one_of_mem hnodup h]
  · rw [if_neg h, List.count_eq_zero_of_not_mem h]

structure Tallied (edges : Edges) (gone : List String) (t : Tally) : Prop where
  counts : ∀ n ∈ gone, t.remainingDependencies.get? n = some ((edges.of n).length : Int)
  dependents : ∀ d n, t.dependents.Filed d n ↔ n ∈ gone ∧ edges.Filed n d
  sets : t.dependents.Sets

theorem tallied_nodes (edges : Edges) (nodes : List String) :
    Tallied edges nodes (nodes.foldl (tallyNode edges) ⟨.empty, .empty⟩) := by
  refine foldl_rule (P := Tallied edges) ?_ ?_
  · refine ⟨fun n hn => absurd hn List.not_mem_nil, fun d n => ?_, .empty⟩
    have := JsMap.not_filed_empty d n
    simp [this]
  · intro gone node rest t _ h
    -- the dependencies of `node` one after the other
    have hinner := foldl_rule (P := fun deps (m : Edges) => m.Sets ∧
        ∀ d n, m.Filed d n ↔ t.dependents.Filed d n ∨ n = node ∧ d ∈ deps)
      (f := fun dependents dependency => dependents.addNew dependency node) (l := edges.of node)
      (s := t.dependents) ⟨h.sets, by simp⟩ (by
        intro deps d _ m _ hm
        refine ⟨hm.1.addNew d node, fun d' n => ?_⟩
        rw [JsMap.filed_addNew, hm.2, List.mem_append, List.mem_singleton, or_assoc]
        tauto)
    refine ⟨fun n hn => ?_, fun d n => ?_, hinner.1⟩
    · rw [tallyNode, JsMap.get?_set]
      split
      · rename_i he; rw [he]
      · rename_i hne
        exact h.counts n ((List.mem_append.mp hn).resolve_right (by simpa using hne))
    · rw [tallyNode, hinner.2, h.dependents, ← Edges.filed_iff, List.mem_append,
        List.mem_singleton]
      constructor
      · intro ho
        rcases ho with ⟨hn, hd⟩ | ⟨rfl, hd⟩
        · exact ⟨.inl hn, hd⟩
        · exact ⟨.inr rfl, hd⟩
      · rintro ⟨ho, hd⟩
        rcases ho with hn | rfl
        · exact .inl ⟨hn, hd⟩
        · exact .inr ⟨rfl, hd⟩

/-- The invariant of the loop: the counts are right, and what is ready is the frontier. -/
structure Placed (edges : Edges) (nodes : List String) (s : Placing) : Prop where
  counts : ∀ m ∈ nodes, s.remaining.get? m = some (waiting edges s.order m : Int)
  frontier : Frontier edges.Filed nodes s.order s.ready

/-- The dependents of the node just placed that were gone through. -/
structure Released (edges : Edges) (nodes : List String) (s₀ : Placing) (gone : List String)
    (s : Placing) : Prop where
  order : s.order = s₀.order
  ready : s.ready = s₀.ready ++ gone.filter fun m => waiting edges s₀.order m = 0
  done : ∀ m ∈ gone, s.remaining.get? m = some (waiting edges s₀.order m : Int)
  rest : ∀ m, m ∉ gone → s.remaining.get? m = s₀.remaining.get? m

theorem released_step {edges : Edges} {nodes gone : List String} {s₀ s : Placing} {m : String}
    (h : Released edges nodes s₀ gone s) (hm : m ∉ gone)
    (hcount : s₀.remaining.get? m = some (waiting edges s₀.order m + 1 : Int)) :
    Released edges nodes s₀ (gone ++ [m]) (release s m) := by
  have hget : s.remaining.get? m = some (waiting edges s₀.order m + 1 : Int) := by
    rw [h.rest m hm, hcount]
  have hone : (s.remaining.get? m).getD 0 - 1 = (waiting edges s₀.order m : Int) := by
    rw [hget, Option.getD_some]; omega
  refine ⟨h.order, ?_, fun n hn => ?_, fun n hn => ?_⟩
  · simp only [release, hone, h.ready, List.filter_append]
    by_cases hz : waiting edges s₀.order m = 0
    · simp [hz]
    · simp [hz]
  · simp only [release, hone, JsMap.get?_set]
    split
    · rename_i he; rw [he]
    · rename_i hne
      exact h.done n ((List.mem_append.mp hn).resolve_right (by simpa using hne))
  · rw [List.mem_append, List.mem_singleton, not_or] at hn
    simp only [release, JsMap.get?_set, if_neg hn.2]
    exact h.rest n hn.1

/-- One round: the least ready node is placed, and its dependents wait for one node fewer. -/
theorem placed_step {edges dependents : Edges} {nodes : List String} (hsets : edges.Sets)
    (hdep : ∀ d n, dependents.Filed d n ↔ n ∈ nodes ∧ edges.Filed n d) (hdsets : dependents.Sets)
    {s : Placing} {node : String} {ready : List String} (h : Placed edges nodes s)
    (hready : sortStrings s.ready = node :: ready) :
    Placed edges nodes ((sortStrings (dependents.of node)).foldl release
      { s with ready, order := s.order ++ [node] }) := by
  have hfront : Frontier edges.Filed nodes s.order (node :: ready) :=
    h.frontier.perm (by rw [← hready]; exact (sortBy_perm_self id s.ready).symm)
  have hnode : node ∉ s.order := by
    have := hfront.nodup
    rw [List.nodup_append'] at this
    exact fun hin => this.2.2 hin List.mem_cons_self
  let D := sortStrings (dependents.of node)
  have hD : ∀ m, m ∈ D ↔ m ∈ nodes ∧ node ∈ edges.of m := by
    intro m
    rw [mem_sortStrings, ← Edges.filed_iff, hdep, Edges.filed_iff]
  have hDnodup : D.Nodup := (sortBy_perm_self id _).nodup_iff.mpr (hdsets.getD node)
  have hr := foldl_rule (P := Released edges nodes { s with ready, order := s.order ++ [node] })
    (f := release) (l := D) (s := { s with ready, order := s.order ++ [node] })
    ⟨rfl, by simp, fun m hm => absurd hm List.not_mem_nil, fun m _ => rfl⟩ (by
      intro gone m rest t hl ht
      have hmD : m ∈ D := by rw [hl]; simp
      have hgone : m ∉ gone := by
        rw [hl, List.nodup_append'] at hDnodup
        exact fun hin => hDnodup.2.2 hin List.mem_cons_self
      refine released_step ht hgone ?_
      rw [show ({ s with ready, order := s.order ++ [node] } : Placing).remaining = s.remaining
        from rfl, h.counts m ((hD m).mp hmD).1, waiting_place hsets hnode, if_pos ((hD m).mp hmD).2]
      simp)
  refine ⟨fun m hm => ?_, ?_⟩
  · by_cases hmD : m ∈ D
    · rw [hr.done m hmD, hr.order]
    · rw [hr.rest m hmD, hr.order]
      have hnot : node ∉ edges.of m := fun hin => hmD ((hD m).mpr ⟨hm, hin⟩)
      rw [show ({ s with ready, order := s.order ++ [node] } : Placing).remaining = s.remaining
        from rfl, h.counts m hm, waiting_place hsets hnode, if_neg hnot, Nat.add_zero]
  · rw [hr.order, hr.ready]
    refine hfront.place (hDnodup.filter _) fun m => ?_
    rw [List.mem_filter, hD, decide_eq_true_eq, waiting_eq_zero]
    constructor
    · intro ⟨⟨hm, hin⟩, hall⟩
      -- a node that waits for `node` was neither placed nor ready
      exact ⟨hm, fun hmem => hnode (((hfront.mem m).mp hmem).2 node (Edges.filed_iff.mpr hin)),
        hall⟩
    · intro ⟨hm, hnot, hall⟩
      refine ⟨⟨hm, ?_⟩, hall⟩
      by_contra hin
      refine hnot ((hfront.mem m).mpr ⟨hm, fun b hb => ?_⟩)
      rcases List.mem_append.mp (hall b hb) with hbo | hbo
      · exact hbo
      · obtain rfl := List.mem_singleton.mp hbo
        exact absurd (Edges.filed_iff.mp hb) hin

theorem placeLoop_frontier {edges dependents : Edges} {nodes : List String} (hsets : edges.Sets)
    (hdep : ∀ d n, dependents.Filed d n ↔ n ∈ nodes ∧ edges.Filed n d) (hdsets : dependents.Sets)
    (hempty : "" ∉ nodes) : ∀ {fuel : Nat} {s : Placing}, Placed edges nodes s →
    nodes.length + 1 ≤ fuel + s.order.length →
    Frontier edges.Filed nodes (placeLoop dependents fuel s).order []
  | 0, s, h, hfuel => by
    have hsub : s.order ⊆ nodes := fun n hn =>
      ((h.frontier.mem n).mp (List.mem_append_left _ hn)).1
    have hnodup : s.order.Nodup := (List.nodup_append'.mp h.frontier.nodup).1
    have := (List.subperm_of_subset hnodup hsub).length_le
    omega
  | fuel + 1, s, h, hfuel => by
    unfold placeLoop
    split
    · rename_i hready
      exact h.frontier.perm (by rw [← hready]; exact (sortBy_perm_self id s.ready).symm)
    · rename_i node ready hready
      have hin : node ∈ s.ready := mem_sortStrings.mp (by rw [hready]; exact List.mem_cons_self)
      have hnode : node ∈ nodes := ((h.frontier.mem node).mp (List.mem_append_right _ hin)).1
      have hne : node ≠ "" := fun he => hempty (by rw [← he]; exact hnode)
      rw [if_neg hne]
      refine placeLoop_frontier hsets hdep hdsets hempty
        (placed_step hsets hdep hdsets h hready) ?_
      have hlen : ((sortStrings (dependents.of node)).foldl release
          { s with ready, order := s.order ++ [node] }).order = s.order ++ [node] :=
        foldl_rule (P := fun _ (t : Placing) => t.order = s.order ++ [node]) rfl
          fun _ _ _ _ _ ht => ht
      rw [hlen, List.length_append, List.length_singleton]
      omega

/-- **Registration order.** On an acyclic graph whose edges stay among the nodes, each node is
placed once and after all nodes it requires. -/
theorem dependencyFirstOrder_spec {edges : Edges} {nodes : List String} (hnodes : nodes.Nodup)
    (hempty : "" ∉ nodes) (hsets : edges.Sets) (hE : Acyclic edges.Filed)
    (hclosed : ∀ a ∈ nodes, ∀ b, edges.Filed a b → b ∈ nodes) :
    (dependencyFirstOrder nodes edges).Perm nodes ∧
      DependencyFirst edges.Filed (dependencyFirstOrder nodes edges) := by
  have ht := tallied_nodes edges nodes
  have hplaced : Placed edges nodes ⟨(nodes.foldl (tallyNode edges) ⟨.empty, .empty⟩).1,
      sortStrings (nodes.filter fun node =>
        (nodes.foldl (tallyNode edges) ⟨.empty, .empty⟩).1.get? node = some 0), []⟩ := by
    have hcount : ∀ m, waiting edges [] m = (edges.of m).length := by
      intro m
      simp [waiting]
    refine ⟨fun m hm => ?_, ⟨?_, fun n => ?_, .nil⟩⟩
    · rw [hcount]; exact ht.counts m hm
    · rw [List.nil_append]
      exact (sortBy_perm_self id _).nodup_iff.mpr (hnodes.filter _)
    · rw [List.nil_append, mem_sortStrings, List.mem_filter, decide_eq_true_eq,
        ← waiting_eq_zero, hcount]
      constructor
      · intro ⟨hn, hz⟩
        rw [ht.counts n hn, Option.some.injEq] at hz
        exact ⟨hn, by omega⟩
      · intro ⟨hn, hz⟩
        rw [ht.counts n hn, hz]
        exact ⟨hn, rfl⟩
  have hend : Frontier edges.Filed nodes (dependencyFirstOrder nodes edges) [] :=
    placeLoop_frontier hsets ht.dependents ht.sets hempty hplaced (by simp)
  exact ⟨hend.complete hnodes hE hclosed, hend.first⟩

end KNex.Composition
