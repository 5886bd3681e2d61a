import KNex.Core.Digraph
import Mathlib.Data.List.Chain
import Mathlib.Data.List.Lex
import Mathlib.Data.List.Rotate
import Mathlib.Data.Prod.Lex

/-!
# Shortest cycles and breadth-first search

A cycle is the list of its nodes, each with an edge to the next and the last with an edge to the
first. Lists of nodes are compared by length and then, node by node, by a key of the nodes
(`shortlex`). A cycle that no other undercuts visits no node twice (`IsCycle.nodup_of_shortest`).

`SearchTree` is the state of a breadth-first search that goes through the edges of each node in
the order of the keys. The search reaches each node by the walk to it that comes first in
`shortlex`: its entries stand in that order (`SearchTree.grow`), a node seen before was seen by a
walk that is not greater (`SearchTree.le_of_seen`), and when the queue is empty every walk from
the start has been undercut (`SearchTree.undercuts`).
-/
namespace KNex.Core.Digraph

universe u

variable {α : Type u} {E : α → α → Prop}

/-! ## Cycles -/

/-- Each node has an edge to the next one, the last to the first. -/
def IsCycle (E : α → α → Prop) (l : List α) : Prop := l ≠ [] ∧ (l ++ l.take 1).IsChain E

theorem isCycle_cons {a : α} {l : List α} : IsCycle E (a :: l) ↔ (a :: l ++ [a]).IsChain E := by
  simp [IsCycle]

/-- A walk and an edge from its last node back to its first. -/
theorem isCycle_snoc {l : List α} {a b : α} (hl : (l ++ [b]).IsChain E)
    (hhead : (l ++ [b]).head? = some a) (hback : E b a) : IsCycle E (l ++ [b]) := by
  refine ⟨by simp, ?_⟩
  have htake : (l ++ [b]).take 1 = [a] := by
    rw [List.take_one, hhead]
    rfl
  rw [htake, List.append_assoc, List.singleton_append, List.isChain_split, List.isChain_pair]
  exact ⟨hl, hback⟩

theorem IsCycle.rotate_one {a : α} {l : List α} (h : IsCycle E (a :: l)) : IsCycle E (l ++ [a]) := by
  rw [isCycle_cons] at h
  cases l with
  | nil => exact ⟨by simp, by simpa using h⟩
  | cons b l =>
    refine ⟨by simp, ?_⟩
    rw [List.cons_append, List.cons_append, List.isChain_cons_cons] at h
    have hsplit : ((b :: l) ++ a :: [b]).IsChain E := by
      rw [List.isChain_split, List.isChain_pair]
      exact ⟨h.2, h.1⟩
    simpa using hsplit

theorem IsCycle.rotate {l : List α} (h : IsCycle E l) : ∀ n, IsCycle E (l.rotate n)
  | 0 => by simpa using h
  | n + 1 => by
    have ih := h.rotate n
    rw [← List.rotate_rotate]
    cases hl : l.rotate n with
    | nil => rw [hl] at ih; exact absurd rfl ih.1
    | cons a m =>
      rw [hl] at ih
      simpa using ih.rotate_one

/-- The walks that return are the cycles through their start. -/
theorem transGen_iff_isCycle {a : α} :
    Relation.TransGen E a a ↔ ∃ l, l.head? = some a ∧ IsCycle E l := by
  constructor
  · intro hw
    obtain ⟨b, hab, hba⟩ := Relation.TransGen.tail'_iff.mp hw
    obtain ⟨l, hchain, hlast⟩ := List.exists_isChain_cons_of_relationReflTransGen hab
    refine ⟨a :: l, rfl, ?_⟩
    have hsplit := List.dropLast_append_getLast (List.cons_ne_nil a l)
    rw [hlast] at hsplit
    rw [← hsplit] at hchain ⊢
    exact isCycle_snoc hchain (by rw [hsplit]; rfl) hba
  · rintro ⟨l, hl, hc⟩
    obtain ⟨m, rfl⟩ : ∃ m, l = a :: m := by
      cases l with
      | nil => cases hl
      | cons b m => cases hl; exact ⟨m, rfl⟩
    rw [isCycle_cons] at hc
    have hsplit := List.dropLast_append_getLast (List.cons_ne_nil a m)
    rw [← hsplit, List.append_assoc, List.singleton_append, List.isChain_split, hsplit,
      List.isChain_pair] at hc
    have hwalk := List.relationReflTransGen_of_exists_isChain_cons m hc.1 rfl
    exact Relation.TransGen.tail'_iff.mpr ⟨_, hwalk, hc.2⟩

theorem acyclic_iff_no_cycle : Acyclic E ↔ ∀ l, ¬ IsCycle E l := by
  constructor
  · intro hE l hl
    obtain ⟨a, m, rfl⟩ := List.exists_cons_of_ne_nil hl.1
    exact hE a (transGen_iff_isCycle.mpr ⟨_, rfl, hl⟩)
  · intro h a hw
    obtain ⟨l, -, hl⟩ := transGen_iff_isCycle.mp hw
    exact h l hl

/-- A cycle through a node twice has a shorter cycle in it. -/
theorem IsCycle.nodup_of_shortest {l : List α} (h : IsCycle E l)
    (hmin : ∀ m, IsCycle E m → l.length ≤ m.length) : l.Nodup := by
  by_contra hdup
  obtain ⟨a, hsub⟩ : ∃ a, List.Duplicate a l := List.exists_duplicate_iff_not_nodup.mpr hdup
  obtain ⟨xs, ys, hl, hys⟩ : ∃ xs ys, l = xs ++ a :: ys ∧ a ∈ ys := by
    clear h hmin hdup
    induction hsub with
    | cons_mem hm => exact ⟨[], _, rfl, hm⟩
    | @cons_duplicate x l _ ih =>
      obtain ⟨xs, ys, rfl, hys⟩ := ih
      exact ⟨x :: xs, ys, rfl, hys⟩
  obtain ⟨inner, zs, rfl⟩ := List.append_of_mem hys
  have hchain : (a :: inner ++ [a]).IsChain E := by
    have := h.2
    rw [hl, show xs ++ a :: (inner ++ a :: zs) = xs ++ ((a :: inner ++ [a]) ++ zs) by simp,
      List.append_assoc] at this
    exact this.right_of_append.left_of_append.left_of_append
  have := hmin _ (isCycle_cons.mpr hchain)
  rw [hl] at this
  simp only [List.length_append, List.length_cons] at this
  omega

/-! ## Lists of nodes by length and keys -/

section Shortlex

variable {κ : Type*} [LinearOrder κ] (key : α → κ)

/-- The place of a list among all lists: by length, then by the keys from the left. -/
def shortlex (l : List α) : ℕ ×ₗ List κ := toLex (l.length, l.map key)

variable {key}

theorem shortlex_le {l m : List α} : shortlex key l ≤ shortlex key m ↔
    l.length < m.length ∨ l.length = m.length ∧ l.map key ≤ m.map key := by
  simp [shortlex, Prod.Lex.toLex_le_toLex]

theorem shortlex_lt {l m : List α} : shortlex key l < shortlex key m ↔
    l.length < m.length ∨ l.length = m.length ∧ l.map key < m.map key := by
  simp [shortlex, Prod.Lex.toLex_lt_toLex]

theorem length_le_of_shortlex {l m : List α} (h : shortlex key l ≤ shortlex key m) :
    l.length ≤ m.length := by
  rw [shortlex_le] at h
  omega

omit [LinearOrder κ] in
theorem shortlex_injective (hkey : ∀ a b, key a = key b → a = b) {l m : List α}
    (h : shortlex key l = shortlex key m) : l = m := by
  have hmap : l.map key = m.map key := congrArg (fun p => (ofLex p).2) h
  exact List.map_injective_iff.mpr (fun a b => hkey a b) hmap

/-- What lists of one length start with decides. -/
theorem append_lt_append {l m xs ys : List κ} (hlen : l.length = m.length) (h : l < m) :
    l ++ xs < m ++ ys := by
  induction l generalizing m with
  | nil =>
    cases m with
    | nil => exact absurd h (lt_irrefl _)
    | cons b m => simp at hlen
  | cons a l ih =>
    cases m with
    | nil => simp at hlen
    | cons b m =>
      rw [List.cons_lt_cons_iff] at h
      rw [List.cons_append, List.cons_append, List.cons_lt_cons_iff]
      rcases h with h | ⟨rfl, h⟩
      · exact .inl h
      · exact .inr ⟨rfl, ih (by simpa using hlen) h⟩

theorem shortlex_append_lt {l m : List α} (h : shortlex key l < shortlex key m) (a b : α) :
    shortlex key (l ++ [a]) < shortlex key (m ++ [b]) := by
  rw [shortlex_lt] at h ⊢
  simp only [List.length_append, List.length_singleton, List.map_append]
  rcases h with h | ⟨hlen, h⟩
  · left; omega
  · exact .inr ⟨by omega, append_lt_append (by simpa using hlen) h⟩

theorem shortlex_snoc_lt {a b : α} (h : key a < key b) (l : List α) :
    shortlex key (l ++ [a]) < shortlex key (l ++ [b]) := by
  rw [shortlex_lt]
  refine .inr ⟨by simp, ?_⟩
  rw [List.map_append, List.map_append]
  exact List.append_left_lt (List.cons_lt_cons_iff.mpr (.inl h))

theorem shortlex_snoc_le {l m : List α} (hkey : ∀ a b, key a = key b → a = b)
    (h : shortlex key l ≤ shortlex key m) (a : α) :
    shortlex key (l ++ [a]) ≤ shortlex key (m ++ [a]) := by
  rcases h.eq_or_lt with he | hlt
  · rw [shortlex_injective hkey he]
  · exact (shortlex_append_lt hlt a a).le

/-! ## Breadth first -/

/-- A search from `start`: the nodes it is done with and those in its queue, each with the walk
that reached it first. The entries stand in the order of their walks. -/
structure SearchTree (key : α → κ) (E : α → α → Prop) (start : α)
    (done queue : List (α × List α)) : Prop where
  nodup : ((done ++ queue).map Prod.fst).Nodup
  sorted : (done ++ queue).Pairwise fun d e => shortlex key d.2 < shortlex key e.2
  root : (start, [start]) ∈ done ++ queue
  grown : ∀ e ∈ done ++ queue,
    e = (start, [start]) ∨ ∃ d ∈ done, E d.1 e.1 ∧ e.2 = d.2 ++ [e.1]

namespace SearchTree

variable {start : α} {done queue : List (α × List α)}

theorem initial : SearchTree key E start [] [(start, [start])] :=
  ⟨by simp, by simp, by simp, by simp⟩

/-- Taking the head of the queue adds it to the nodes whose edges count. -/
theorem next {current : α × List α} (h : SearchTree key E start done (current :: queue)) :
    SearchTree key E start (done ++ [current]) queue := by
  have hsame : done ++ [current] ++ queue = done ++ current :: queue := by simp
  refine ⟨by rw [hsame]; exact h.nodup, by rw [hsame]; exact h.sorted, by rw [hsame]; exact h.root,
    fun e he => ?_⟩
  rw [hsame] at he
  exact (h.grown e he).imp_right fun ⟨d, hd, hE⟩ => ⟨d, List.mem_append_left _ hd, hE⟩

/-- The entries are the nodes with the walks to them. -/
theorem walk (h : SearchTree key E start done queue) : ∀ e ∈ done ++ queue,
    e.2.IsChain E ∧ e.2.head? = some start ∧ ∃ l, e.2 = l ++ [e.1] := by
  have hlen : ∀ n, ∀ e ∈ done ++ queue, e.2.length = n →
      e.2.IsChain E ∧ e.2.head? = some start ∧ ∃ l, e.2 = l ++ [e.1] := by
    intro n
    induction n with
    | zero =>
      intro e he hn
      rcases h.grown e he with rfl | ⟨d, -, -, hd⟩
      · cases hn
      · rw [hd] at hn; simp at hn
    | succ n ih =>
      intro e he hn
      rcases h.grown e he with rfl | ⟨d, hd, hE, hed⟩
      · exact ⟨by simp, rfl, [], rfl⟩
      · rw [hed, List.length_append, List.length_singleton, Nat.add_right_cancel_iff] at hn
        obtain ⟨hchain, hhead, l, hl⟩ := ih d (List.mem_append_left _ hd) hn
        rw [hed]
        refine ⟨?_, ?_, d.2, rfl⟩
        · rw [hl, List.append_assoc, List.singleton_append, List.isChain_split, List.isChain_pair,
            ← hl]
          exact ⟨hchain, hE⟩
        · rw [List.head?_append, hhead]; rfl
  exact fun e he => hlen _ e he rfl

theorem unique (h : SearchTree key E start done queue) {n : α} {p q : List α}
    (hp : (n, p) ∈ done ++ queue) (hq : (n, q) ∈ done ++ queue) : p = q := by
  have := List.inj_on_of_nodup_map h.nodup hp hq rfl
  exact congrArg Prod.snd this

/-- What is done was reached by a lesser walk than the node to come. -/
theorem done_lt {current : α × List α} (h : SearchTree key E start (done ++ [current]) queue)
    {d : α × List α} (hd : d ∈ done) : shortlex key d.2 < shortlex key current.2 := by
  have hs := h.sorted
  rw [List.append_assoc, List.pairwise_append] at hs
  exact hs.2.2 d hd current (by simp)

/-- The walk of an entry is an earlier walk and one edge, if it is not a continuation of the
walk of `current`. -/
theorem grown_lt {current : α × List α} (h : SearchTree key E start (done ++ [current]) queue)
    {e : α × List α} (he : e ∈ done ++ [current] ++ queue) (b : α) :
    shortlex key e.2 < shortlex key (current.2 ++ [b]) ∨ e.2 = current.2 ++ [e.1] := by
  rcases h.grown e he with rfl | ⟨d, hd, -, hed⟩
  · obtain ⟨-, -, l, hl⟩ := h.walk current (by simp)
    left
    rw [shortlex_lt, hl]
    left
    simp
  · rcases List.mem_append.mp hd with hd | hd
    · left
      rw [hed]
      exact shortlex_append_lt (h.done_lt hd) _ _
    · obtain rfl := List.mem_singleton.mp hd
      exact .inr hed

/-- A node seen before was seen by a walk that is not greater. -/
theorem le_of_seen {current : α × List α} (h : SearchTree key E start (done ++ [current]) queue)
    {b : α} {q : List α} (hb : (b, q) ∈ done ++ [current] ++ queue) :
    shortlex key q ≤ shortlex key (current.2 ++ [b]) := by
  rcases h.grown_lt hb b with hlt | he
  · exact hlt.le
  · rw [show q = current.2 ++ [b] from he]

/-- The walks in the queue that continue the walk of `current` are new in its round. -/
theorem no_child {current : α × List α} (h : SearchTree key E start done (current :: queue))
    {e : α × List α} (he : e ∈ done ++ current :: queue) : e.2 ≠ current.2 ++ [e.1] := by
  intro hchild
  have hsame : done ++ current :: queue = done ++ [current] ++ queue := by simp
  rcases h.grown e he with rfl | ⟨d, hd, -, hed⟩
  · obtain ⟨-, -, l, hl⟩ := h.walk current (by simp)
    have := congrArg List.length hchild
    rw [hl] at this
    simp at this
  · rw [hed] at hchild
    have hlt := h.next.done_lt hd
    rw [List.append_cancel_right hchild] at hlt
    exact absurd hlt (lt_irrefl _)

/-- A node that was not seen joins the end of the queue. -/
theorem grow {current : α × List α} (h : SearchTree key E start (done ++ [current]) queue) {b : α}
    (hE : E current.1 b) (hnew : b ∉ (done ++ [current] ++ queue).map Prod.fst)
    (hkeys : ∀ e ∈ done ++ [current] ++ queue, e.2 = current.2 ++ [e.1] → key e.1 < key b) :
    SearchTree key E start (done ++ [current]) (queue ++ [(b, current.2 ++ [b])]) := by
  refine ⟨?_, ?_, ?_, ?_⟩
  · rw [← List.append_assoc, List.map_append, List.nodup_append']
    exact ⟨h.nodup, List.nodup_singleton _, List.disjoint_singleton.mpr hnew⟩
  · rw [← List.append_assoc, List.pairwise_append]
    refine ⟨h.sorted, List.pairwise_singleton _ _, fun e he f hf => ?_⟩
    obtain rfl := List.mem_singleton.mp hf
    rcases h.grown_lt he b with hlt | hchild
    · exact hlt
    · rw [hchild]
      exact shortlex_snoc_lt (hkeys e he hchild) _
  · rw [← List.append_assoc]
    exact List.mem_append_left _ h.root
  · intro e he
    rw [← List.append_assoc] at he
    rcases List.mem_append.mp he with he | he
    · exact h.grown e he
    · obtain rfl := List.mem_singleton.mp he
      exact .inr ⟨current, by simp, hE, rfl⟩

/-- When every edge was gone through, the search has a walk to the end of each walk from its
start, and one that is not greater. -/
theorem undercuts (hkey : ∀ a b, key a = key b → a = b) (h : SearchTree key E start done [])
    (hall : ∀ d ∈ done, ∀ b, E d.1 b →
      ∃ q, (b, q) ∈ done ∧ shortlex key q ≤ shortlex key (d.2 ++ [b])) {w : List α} :
    ∀ {n : α}, (w ++ [n]).IsChain E → (w ++ [n]).head? = some start →
      ∃ p, (n, p) ∈ done ∧ shortlex key p ≤ shortlex key (w ++ [n]) := by
  induction w using List.reverseRecOn with
  | nil =>
    intro n _ hhead
    obtain rfl : n = start := by simpa using hhead
    exact ⟨[n], by simpa using h.root, le_refl _⟩
  | append_singleton w a ih =>
    intro n hchain hhead
    rw [List.append_assoc, List.singleton_append, List.isChain_split, List.isChain_pair] at hchain
    have hhead' : (w ++ [a]).head? = some start := by
      rw [List.head?_append] at hhead
      cases hw : (w ++ [a]).head? with
      | none => simp at hw
      | some b => rw [hw] at hhead; exact hhead
    -- the walk up to `a` is undercut by `p`, and the search went through the edge to `n`
    obtain ⟨p, hp, hle⟩ := ih hchain.1 hhead'
    obtain ⟨q, hq, hqle⟩ := hall _ hp n hchain.2
    exact ⟨q, hq, hqle.trans (shortlex_snoc_le hkey hle n)⟩

end SearchTree

end Shortlex

end KNex.Core.Digraph
