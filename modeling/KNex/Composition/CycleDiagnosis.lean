import KNex.Composition.Soundness

/-!
# Which cycle is reported

`shortestRequiredCycle` reports one cycle of the required edges, and its choice is a function of
the edges alone: among the cycles of least length the one whose nodes sort first, which is then
also the first of its own rotations (`shortestRequiredCycle_spec`). The searches compare whole
cycles by one string, the nodes joined by NUL; plugin ids hold no NUL, so that is the comparison
node by node (`joinNul_lt`).
-/
namespace KNex.Composition

open KNex.Core KNex.Core.Digraph KNex.Contracts

/-! ## The comparison of joined nodes -/

theorem utf16_append (a b : String) : utf16 (a ++ b) = utf16 a ++ utf16 b := by
  simp [utf16]

theorem zero_notin_codeUnits {c : Char} (h : c ≠ nul) : 0 ∉ codeUnits c := by
  have hc : c.toNat ≠ 0 := fun h0 => h (char_eq_of_toNat h0)
  unfold codeUnits
  split
  · simp only [List.mem_singleton]
    omega
  · simp only [List.mem_cons, List.not_mem_nil, or_false]
    omega

theorem zero_notin_utf16 {s : String} (h : NulFree s) : 0 ∉ utf16 s := by
  intro h0
  obtain ⟨c, hc, hu⟩ := List.mem_flatMap.mp h0
  exact zero_notin_codeUnits (fun he => h (by rw [← he]; exact hc)) hu

/-- A separator below all units compares what stands before it first. -/
theorem append_zero_lt {xs ys : List Nat} : ∀ {as bs : List Nat}, 0 ∉ as → 0 ∉ bs →
    as < bs → as ++ 0 :: xs < bs ++ 0 :: ys
  | [], [], _, _, h => absurd h (lt_irrefl _)
  | [], b :: bs, _, hb, _ => by
    rw [List.nil_append, List.cons_append, List.cons_lt_cons_iff]
    rw [List.mem_cons, not_or] at hb
    exact .inl (by omega)
  | a :: as, [], _, _, h => absurd h (List.not_lt_nil _)
  | a :: as, b :: bs, ha, hb, h => by
    rw [List.mem_cons, not_or] at ha hb
    rw [List.cons_lt_cons_iff] at h
    rw [List.cons_append, List.cons_append, List.cons_lt_cons_iff]
    rcases h with h | ⟨rfl, h⟩
    · exact .inl h
    · exact .inr ⟨rfl, append_zero_lt ha.2 hb.2 h⟩

theorem utf16_joinNul_cons_cons (a b : String) (l : List String) :
    utf16 (joinNul (a :: b :: l)) = utf16 a ++ 0 :: utf16 (joinNul (b :: l)) := by
  rw [joinNul_cons_cons, utf16_append, utf16_append, List.append_assoc]
  have hnul : utf16 (String.singleton nul) = [0] := by decide
  rw [hnul, List.singleton_append]

/-- As many NUL-free parts, joined, compare as the parts do from the left. -/
theorem joinNul_lt : ∀ {l m : List String}, l.length = m.length → (∀ a ∈ l, NulFree a) →
    (∀ a ∈ m, NulFree a) → l.map utf16 < m.map utf16 → StrLt (joinNul l) (joinNul m)
  | [], [], _, _, _, h => absurd h (lt_irrefl _)
  | [a], [b], _, _, _, h => by
    rw [joinNul_singleton, joinNul_singleton]
    rcases List.cons_lt_cons_iff.mp h with h | ⟨-, h⟩
    · exact h
    · exact absurd h (lt_irrefl _)
  | a :: a' :: l, b :: b' :: m, hlen, hl, hm, h => by
    unfold StrLt
    rw [utf16_joinNul_cons_cons, utf16_joinNul_cons_cons]
    rw [List.map_cons, List.map_cons (a := b), List.cons_lt_cons_iff] at h
    rcases h with h | ⟨he, h⟩
    · exact append_zero_lt (zero_notin_utf16 (hl a List.mem_cons_self))
        (zero_notin_utf16 (hm b List.mem_cons_self)) h
    · have ih := joinNul_lt (l := a' :: l) (m := b' :: m) (by simpa using hlen)
        (fun x hx => hl x (List.mem_cons_of_mem a hx))
        (fun x hx => hm x (List.mem_cons_of_mem b hx)) h
      rw [he]
      exact List.append_left_lt (List.cons_lt_cons_iff.mpr (.inr ⟨rfl, ih⟩))

/-- The cycle as it is reported, its first node once more at the end. -/
def close (l : List String) : List String := l ++ l.take 1

theorem length_close {l : List String} (h : l ≠ []) : (close l).length = l.length + 1 := by
  obtain ⟨a, m, rfl⟩ := List.exists_cons_of_ne_nil h
  simp [close]

theorem nulFree_close {l : List String} (h : ∀ a ∈ l, NulFree a) : ∀ a ∈ close l, NulFree a := by
  intro a ha
  rcases List.mem_append.mp ha with ha | ha
  · exact h a ha
  · exact h a (List.mem_of_mem_take ha)

/-- The searches compare closed cycles as `shortlex` compares their nodes. -/
theorem cycleRank_close_lt {l m : List String} (hl : l ≠ []) (hm : m ≠ [])
    (hlnul : ∀ a ∈ l, NulFree a) (hmnul : ∀ a ∈ m, NulFree a)
    (h : shortlex utf16 l < shortlex utf16 m) : cycleRank (close l) < cycleRank (close m) := by
  unfold cycleRank
  rw [Prod.Lex.toLex_lt_toLex, length_close hl, length_close hm]
  rw [shortlex_lt] at h
  rcases h with h | ⟨hlen, h⟩
  · left
    show l.length + 1 < m.length + 1
    omega
  · refine .inr ⟨by rw [hlen], ?_⟩
    refine joinNul_lt (by rw [length_close hl, length_close hm, hlen]) (nulFree_close hlnul)
      (nulFree_close hmnul) ?_
    rw [close, close, List.map_append, List.map_append]
    exact append_lt_append (by simpa using hlen) h

theorem shortlex_of_cycleRank {l m : List String} (hl : l ≠ []) (hm : m ≠ [])
    (hlnul : ∀ a ∈ l, NulFree a) (hmnul : ∀ a ∈ m, NulFree a)
    (h : cycleRank (close l) ≤ cycleRank (close m)) : shortlex utf16 l ≤ shortlex utf16 m := by
  by_contra hlt
  exact absurd h (not_le.mpr (cycleRank_close_lt hm hl hmnul hlnul (not_le.mp hlt)))

/-! ## The rotation that is reported -/

/-- The reported rotation is one of the cycle, and not after the cycle as it was found. -/
theorem canonicalCycle_close {l : List String} (hl : l ≠ []) : ∃ n,
    canonicalCycle (close l) = close (l.rotate n) ∧ StrLe (joinNul (l.rotate n)) (joinNul l) := by
  have hdrop : (close l).dropLast = l := by
    obtain ⟨a, m, rfl⟩ := List.exists_cons_of_ne_nil hl
    show ((a :: m) ++ [a]).dropLast = a :: m
    exact List.dropLast_concat
  unfold canonicalCycle
  rw [hdrop]
  have hbest := foldl_rule (P := fun _ best => ∃ n, best = l.rotate n ∧
      StrLe (joinNul best) (joinNul l))
    (f := fun best offset =>
      let candidate := l.drop offset ++ l.take offset
      if StrLt (joinNul candidate) (joinNul best) then candidate else best)
    (l := List.range' 1 (l.length - 1)) (s := l) ⟨0, by simp, StrLe.refl _⟩ (by
      intro gone offset rest best ho ⟨n, hn, hle⟩
      have hmem : offset ∈ List.range' 1 (l.length - 1) := by rw [ho]; simp
      rw [List.mem_range'_1] at hmem
      dsimp only
      split
      · rename_i hlt
        refine ⟨offset, (List.rotate_eq_drop_append_take (by omega)).symm, ?_⟩
        exact StrLe.trans (le_of_lt (α := List Nat) hlt) hle
      · exact ⟨n, hn, hle⟩)
  obtain ⟨n, hn, hle⟩ := hbest
  refine ⟨n, ?_, by rw [← hn]; exact hle⟩
  rw [close, ← hn]

/-- A cycle of least length, and among those the first node by node. -/
structure LeastCycle (E : String → String → Prop) (l : List String) : Prop where
  cycle : IsCycle E l
  nodup : l.Nodup
  shortest : ∀ m, IsCycle E m → l.length ≤ m.length
  least : ∀ m, IsCycle E m → m.length = l.length → l.map utf16 ≤ m.map utf16

theorem LeastCycle.unique {E : String → String → Prop} {l m : List String} (hl : LeastCycle E l)
    (hm : LeastCycle E m) : l = m := by
  have hlen : l.length = m.length :=
    Nat.le_antisymm (hl.shortest m hm.cycle) (hm.shortest l hl.cycle)
  have hmap := le_antisymm (hl.least m hm.cycle hlen.symm) (hm.least l hl.cycle hlen)
  exact List.map_injective_iff.mpr (fun _ _ => utf16_injective) hmap

theorem leastCycle_of_shortlex {E : String → String → Prop} {l : List String} (hl : IsCycle E l)
    (h : ∀ m, IsCycle E m → shortlex utf16 l ≤ shortlex utf16 m) : LeastCycle E l := by
  have hshort : ∀ m, IsCycle E m → l.length ≤ m.length := fun m hm => length_le_of_shortlex (h m hm)
  refine ⟨hl, hl.nodup_of_shortest hshort, hshort, fun m hm hlen => ?_⟩
  rcases shortlex_le.mp (h m hm) with hlt | ⟨-, hle⟩
  · omega
  · exact hle

theorem LeastCycle.congr {E E' : String → String → Prop} (hE : ∀ a b, E' a b ↔ E a b)
    {l : List String} (h : LeastCycle E l) : LeastCycle E' l := by
  have : E' = E := funext fun a => funext fun b => propext (hE a b)
  rw [this]
  exact h

section Diagnosis

variable {edges : Edges}

theorem nulFree_of_isCycle (hids : ∀ a b, edges.Filed a b → NulFree a ∧ NulFree b)
    {l : List String} (hl : IsCycle edges.Filed l) : ∀ a ∈ l, NulFree a := by
  intro a ha
  obtain ⟨before, after, rfl⟩ := List.append_of_mem ha
  -- turned to start at `a`, the cycle leaves it by an edge
  have hrot := hl.rotate before.length
  rw [List.rotate_append_length_eq] at hrot
  obtain ⟨b, hab, -⟩ := Relation.TransGen.head'_iff.mp
    (transGen_iff_isCycle.mpr ⟨_, rfl, hrot⟩)
  exact (hids _ _ hab).1

theorem leastCycle_of_reported (hids : ∀ a b, edges.Filed a b → NulFree a ∧ NulFree b)
    {c : List String} (h : shortestRequiredCycle edges = some c) :
    ∃ l, LeastCycle edges.Filed l ∧ c = close l := by
  have hd := shortestRequiredCycle_diagnosed edges
  obtain ⟨l, hl, hc⟩ := hd.real c h
  obtain ⟨n, hn, -⟩ := canonicalCycle_close hl.1
  have hbest := hl.rotate n
  refine ⟨l.rotate n, leastCycle_of_shortlex hbest fun w hw => ?_, hc.trans hn⟩
  -- the search from the start of `w` found a cycle `p`, not after `w`, and compared its rotation
  obtain ⟨p, hp, hle, b, hb, hrank⟩ := hd.closed w hw
  obtain ⟨k, hk, hjoin⟩ := canonicalCycle_close hp.1
  have hpk := hp.rotate k
  rw [h] at hb
  cases hb
  rw [hc, show p ++ p.take 1 = close p from rfl, hk,
    show l ++ l.take 1 = close l from rfl, hn] at hrank
  have hbestp : shortlex utf16 (l.rotate n) ≤ shortlex utf16 (p.rotate k) :=
    shortlex_of_cycleRank hbest.1 hpk.1 (nulFree_of_isCycle hids hbest)
      (nulFree_of_isCycle hids hpk) hrank
  have hrot : shortlex utf16 (p.rotate k) ≤ shortlex utf16 p := by
    rw [shortlex_le]
    refine .inr ⟨by simp, ?_⟩
    by_contra hlt
    have := joinNul_lt (by simp) (nulFree_of_isCycle hids hp) (nulFree_of_isCycle hids hpk)
      (not_le.mp hlt)
    exact absurd hjoin (not_le.mpr this)
  exact (hbestp.trans hrot).trans hle

theorem shortestRequiredCycle_eq_none : shortestRequiredCycle edges = none ↔ Acyclic edges.Filed := by
  refine ⟨acyclic_of_shortestRequiredCycle, fun hE => ?_⟩
  cases h : shortestRequiredCycle edges with
  | none => rfl
  | some c =>
    obtain ⟨l, hl, -⟩ := (shortestRequiredCycle_diagnosed edges).real c h
    exact absurd hl (acyclic_iff_no_cycle.mp hE l)

/-- **The cycle reported.** None exactly for an acyclic graph; otherwise the closed form of the
least cycle, whatever the order in which nodes and edges were filed. -/
theorem shortestRequiredCycle_spec (edges : Edges)
    (hids : ∀ a b, edges.Filed a b → NulFree a ∧ NulFree b) :
    (shortestRequiredCycle edges = none ↔ Acyclic edges.Filed) ∧
    (∀ c, shortestRequiredCycle edges = some c → ∃ l, LeastCycle edges.Filed l ∧ c = close l) ∧
    ∀ edges' : Edges, (∀ a b, edges'.Filed a b ↔ edges.Filed a b) →
      shortestRequiredCycle edges' = shortestRequiredCycle edges := by
  refine ⟨shortestRequiredCycle_eq_none, fun c => leastCycle_of_reported hids,
    fun edges' hsame => ?_⟩
  have hids' : ∀ a b, edges'.Filed a b → NulFree a ∧ NulFree b := fun a b h =>
    hids a b ((hsame a b).mp h)
  have hrel : edges'.Filed = edges.Filed := funext fun a => funext fun b => propext (hsame a b)
  have hacyclic : Acyclic edges'.Filed ↔ Acyclic edges.Filed := by rw [hrel]
  cases h : shortestRequiredCycle edges with
  | none =>
    exact shortestRequiredCycle_eq_none.mpr (hacyclic.mpr (shortestRequiredCycle_eq_none.mp h))
  | some c =>
    cases h' : shortestRequiredCycle edges' with
    | none =>
      have := shortestRequiredCycle_eq_none.mpr
        (hacyclic.mp (shortestRequiredCycle_eq_none.mp h'))
      rw [h] at this
      cases this
    | some c' =>
      obtain ⟨l, hl, rfl⟩ := leastCycle_of_reported hids h
      obtain ⟨l', hl', rfl⟩ := leastCycle_of_reported hids' h'
      rw [hl'.unique (hl.congr hsame)]

end Diagnosis

theorem shortestRequiredCycle_spec_pair :
    let edges := (JsMap.empty.set "module.b" ["module.a"]).set "module.a" ["module.b"]
    (∀ a b, edges.Filed a b → NulFree a ∧ NulFree b) ∧
      ∃ l, LeastCycle edges.Filed l ∧ ["module.a", "module.b", "module.a"] = close l := by
  intro edges
  have hids : ∀ a b, edges.Filed a b → NulFree a ∧ NulFree b := by
    rintro a b ⟨l, hl, hb⟩
    rw [JsMap.get?_eq_some] at hl
    have hentries : edges.entries = [("module.b", ["module.a"]), ("module.a", ["module.b"])] := rfl
    rw [hentries] at hl
    simp only [List.mem_cons, Prod.mk.injEq, List.not_mem_nil, or_false] at hl
    rcases hl with ⟨rfl, rfl⟩ | ⟨rfl, rfl⟩
    · rw [List.mem_singleton.mp hb]; decide
    · rw [List.mem_singleton.mp hb]; decide
  exact ⟨hids, (shortestRequiredCycle_spec edges hids).2.1 _ (by decide)⟩

/-! ## In the resolution -/

theorem Resolved.nulFree {sv : Semver} {o : ResolveOptions} {active : List InstalledEntry}
    {requiredEdges optionalEdges : Edges} {selections : Selections}
    (h : Resolved sv o active requiredEdges optionalEdges selections) :
    ∀ a b, requiredEdges.Filed a b → NulFree a ∧ NulFree b := by
  have hid : ∀ x ∈ active.map InstalledEntry.id, NulFree x := by
    intro x hx
    obtain ⟨e, -, rfl⟩ := List.mem_map.mp hx
    exact e.id_nulFree
  intro a b hf
  obtain ⟨ha, hb⟩ := h.closed a b hf
  exact ⟨hid a ha, hid b hb⟩

/-- A resolution whose passes leave a cycle fails with the least one. -/
theorem resolve_reports_least {sv : Semver} {o : ResolveOptions} {ix : Indexes} {a : Activation}
    {explicit : JsMap String InstalledEntry} {requiredEdges optionalEdges : Edges}
    {selections : Selections} (hix : buildInstalledIndexes o.installed = .ok ix)
    (hdup : validatePluginRequestDuplicates o.plugins = .ok ())
    (hact : activate o ix = .ok (a, explicit))
    (hedges : resolveEdges sv ix a explicit (activeEntries a.activeById) =
      .ok (requiredEdges, optionalEdges, selections)) (hcycle : ¬ Acyclic requiredEdges.Filed) :
    ∃ l, LeastCycle requiredEdges.Filed l ∧ resolvePlatformPluginGraph sv o = fail .requiredCycle
      ("Required plugin dependency cycle: " ++ String.intercalate " -> " (close l) ++ ".")
      (close l) := by
  have hids := (resolveEdges_ok hix hact hedges).nulFree
  cases hc : shortestRequiredCycle requiredEdges with
  | none => exact absurd (shortestRequiredCycle_eq_none.mp hc) hcycle
  | some c =>
    obtain ⟨l, hl, rfl⟩ := leastCycle_of_reported hids hc
    refine ⟨l, hl, ?_⟩
    simp only [resolvePlatformPluginGraph, hix, hdup, hact, hedges, hc, bind, Except.bind]

end KNex.Composition
