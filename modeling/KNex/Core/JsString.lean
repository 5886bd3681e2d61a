import Mathlib

/-!
# Strings under ECMAScript's order

ECMAScript compares strings by their UTF-16 code units, which differs from the order of
code points above the surrogate range (U+10000 sorts before U+FFFD). `compareStrings`
helpers, `Array.prototype.sort` without an argument and `left < right` all use it.
`utf16_injective` makes it a linear order on strings (`StrLe`), so a sort by it has one result
for each multiset (`sortBy_perm`). The second half is about the NUL-separated keys that the
stores build: `joinNul_injective` recovers the parts when none of them holds a NUL.
-/
namespace KNex.Core

/-! ## UTF-16 code units -/

/-- The code units of one character: itself, or a surrogate pair. -/
def codeUnits (c : Char) : List Nat :=
  if c.toNat < 0x10000 then [c.toNat]
  else [0xD800 + (c.toNat - 0x10000) / 0x400, 0xDC00 + (c.toNat - 0x10000) % 0x400]

def utf16 (s : String) : List Nat := s.toList.flatMap codeUnits

/-- `length` of a string. -/
def jsLength (s : String) : Nat := (utf16 s).length

theorem toNat_not_surrogate (c : Char) : c.toNat < 0xD800 ∨ 0xDFFF < c.toNat ∧ c.toNat < 0x110000 :=
  c.valid

theorem char_eq_of_toNat {c d : Char} (h : c.toNat = d.toNat) : c = d :=
  Char.ext (UInt32.toNat_inj.mp h)

/-- No character's units are a proper prefix of another's. -/
theorem codeUnits_prefix_free {c d : Char} {xs ys : List Nat}
    (h : codeUnits c ++ xs = codeUnits d ++ ys) : c = d ∧ xs = ys := by
  have hc := toNat_not_surrogate c
  have hd := toNat_not_surrogate d
  unfold codeUnits at h
  split at h <;> split at h <;>
    simp only [List.cons_append, List.nil_append, List.cons.injEq] at h
  · exact ⟨char_eq_of_toNat h.1, h.2⟩
  · obtain ⟨h, -⟩ := h; omega
  · obtain ⟨h, -⟩ := h; omega
  · obtain ⟨h1, h2, h3⟩ := h
    exact ⟨char_eq_of_toNat (by omega), h3⟩

theorem codeUnits_ne_nil (c : Char) : codeUnits c ≠ [] := by
  unfold codeUnits; split <;> simp

theorem flatMap_codeUnits_injective : ∀ {l m : List Char},
    l.flatMap codeUnits = m.flatMap codeUnits → l = m
  | [], [], _ => rfl
  | [], d :: m, h => by
    rw [List.flatMap_cons, List.flatMap_nil, eq_comm, List.append_eq_nil_iff] at h
    exact absurd h.1 (codeUnits_ne_nil d)
  | c :: l, [], h => by
    rw [List.flatMap_cons, List.flatMap_nil, List.append_eq_nil_iff] at h
    exact absurd h.1 (codeUnits_ne_nil c)
  | c :: l, d :: m, h => by
    rw [List.flatMap_cons, List.flatMap_cons] at h
    obtain ⟨rfl, hm⟩ := codeUnits_prefix_free h
    rw [flatMap_codeUnits_injective hm]

theorem utf16_injective {a b : String} (h : utf16 a = utf16 b) : a = b :=
  String.toList_inj.mp (flatMap_codeUnits_injective h)

theorem toString_nat_injective {m n : Nat} (h : toString m = toString n) : m = n := by
  rw [Nat.toString_eq_repr, Nat.toString_eq_repr] at h
  have hd := congrArg (fun s => Nat.ofDigitChars 10 s.toList 0) h
  simpa only [Nat.toList_repr, Nat.ofDigitChars_ten_toDigits] using hd

/-! ## The order -/

/-- `left <= right` on strings. -/
def StrLe (a b : String) : Prop := utf16 a ≤ utf16 b

instance : DecidableRel StrLe := fun a b => inferInstanceAs (Decidable (utf16 a ≤ utf16 b))

/-- `left < right` on strings. -/
def StrLt (a b : String) : Prop := utf16 a < utf16 b

instance : DecidableRel StrLt := fun a b => inferInstanceAs (Decidable (utf16 a < utf16 b))

theorem StrLe.refl (a : String) : StrLe a a := le_refl (utf16 a)

theorem StrLe.trans {a b c : String} (h : StrLe a b) (h' : StrLe b c) : StrLe a c :=
  le_trans (α := List Nat) h h'

theorem StrLe.antisymm {a b : String} (h : StrLe a b) (h' : StrLe b a) : a = b :=
  utf16_injective (le_antisymm (α := List Nat) h h')

theorem StrLe.total (a b : String) : StrLe a b ∨ StrLe b a := le_total (utf16 a) (utf16 b)

/-! ## Sorting by a string key -/

/-- `values.sort((left, right) => compareStrings(key(left), key(right)))`; the sort of
ECMAScript is stable. -/
def sortBy {α : Type*} (key : α → String) (l : List α) : List α :=
  l.insertionSort fun a b => StrLe (key a) (key b)

section sortBy

variable {α : Type*} (key : α → String)

theorem sortBy_perm_self (l : List α) : (sortBy key l).Perm l := List.perm_insertionSort _ l

@[simp] theorem mem_sortBy {a : α} {l : List α} : a ∈ sortBy key l ↔ a ∈ l :=
  (sortBy_perm_self key l).mem_iff

@[simp] theorem length_sortBy (l : List α) : (sortBy key l).length = l.length :=
  (sortBy_perm_self key l).length_eq

theorem sortBy_pairwise (l : List α) :
    (sortBy key l).Pairwise fun a b => StrLe (key a) (key b) :=
  haveI : Std.Total fun a b : α => StrLe (key a) (key b) := ⟨fun _ _ => StrLe.total _ _⟩
  haveI : IsTrans α fun a b : α => StrLe (key a) (key b) := ⟨fun _ _ _ h h' => h.trans h'⟩
  List.pairwise_insertionSort _ l

/-- When the key tells the values apart, the sorted list does not depend on the order of the
input. -/
theorem sortBy_perm {l l' : List α} (h : l.Perm l')
    (hinj : ∀ a ∈ l, ∀ b ∈ l, key a = key b → a = b) : sortBy key l = sortBy key l' := by
  refine List.Perm.eq_of_pairwise ?_ (sortBy_pairwise key l) (sortBy_pairwise key l')
    (((sortBy_perm_self key l).trans h).trans (sortBy_perm_self key l').symm)
  intro a b ha hb hab hba
  rw [mem_sortBy] at ha hb
  exact hinj a ha b (h.mem_iff.mpr hb) (hab.antisymm hba)

end sortBy

/-- `values.sort()` on strings. -/
def sortStrings (l : List String) : List String := sortBy id l

theorem sortStrings_perm {l l' : List String} (h : l.Perm l') : sortStrings l = sortStrings l' :=
  sortBy_perm id h fun _ _ _ _ e => e

@[simp] theorem mem_sortStrings {a : String} {l : List String} : a ∈ sortStrings l ↔ a ∈ l :=
  mem_sortBy id

/-! ## Keys joined by NUL -/

def nul : Char := Char.ofNat 0

/-- `parts.join("\u0000")`. -/
def joinNul (parts : List String) : String := String.intercalate (String.singleton nul) parts

def NulFree (s : String) : Prop := nul ∉ s.toList

instance (s : String) : Decidable (NulFree s) := inferInstanceAs (Decidable (nul ∉ s.toList))

/-- A separator that occurs in neither prefix marks where both end. -/
theorem append_sep_cancel {α : Type*} {z : α} : ∀ {as bs xs ys : List α}, z ∉ as → z ∉ bs →
    as ++ z :: xs = bs ++ z :: ys → as = bs ∧ xs = ys
  | [], [], _, _, _, _, h => by simpa using h
  | [], b :: bs, _, _, _, hb, h => by
    simp only [List.nil_append, List.cons_append, List.cons.injEq] at h
    exact absurd (h.1 ▸ List.mem_cons_self) hb
  | a :: as, [], _, _, ha, _, h => by
    simp only [List.nil_append, List.cons_append, List.cons.injEq] at h
    exact absurd (h.1 ▸ List.mem_cons_self) ha
  | a :: as, b :: bs, _, _, ha, hb, h => by
    simp only [List.cons_append, List.cons.injEq] at h
    rw [List.mem_cons, not_or] at ha hb
    obtain ⟨h1, h2⟩ := append_sep_cancel ha.2 hb.2 h.2
    exact ⟨by rw [h.1, h1], h2⟩

theorem joinNul_cons_cons (a b : String) (l : List String) :
    joinNul (a :: b :: l) = a ++ String.singleton nul ++ joinNul (b :: l) := by
  apply String.toList_inj.mp
  simp [joinNul, String.toList_intercalate, List.intercalate]

theorem joinNul_singleton (a : String) : joinNul [a] = a := by
  apply String.toList_inj.mp
  simp [joinNul]

/-- Equal keys of as many NUL-free parts have equal parts. -/
theorem joinNul_injective : ∀ {l m : List String}, l.length = m.length → (∀ a ∈ l, NulFree a) →
    (∀ a ∈ m, NulFree a) → joinNul l = joinNul m → l = m
  | [], [], _, _, _, _ => rfl
  | [a], [b], _, _, _, h => by rw [joinNul_singleton, joinNul_singleton] at h; rw [h]
  | a :: a' :: l, b :: b' :: m, hlen, hl, hm, h => by
    rw [joinNul_cons_cons, joinNul_cons_cons, ← String.toList_inj] at h
    simp only [String.toList_append, String.toList_singleton, List.append_assoc,
      List.singleton_append] at h
    obtain ⟨h1, h2⟩ := append_sep_cancel (hl a List.mem_cons_self) (hm b List.mem_cons_self) h
    have hlen' : (a' :: l).length = (b' :: m).length := by simpa using hlen
    rw [String.toList_inj.mp h1, joinNul_injective hlen'
      (fun x hx => hl x (List.mem_cons_of_mem a hx)) (fun x hx => hm x (List.mem_cons_of_mem b hx))
      (String.toList_inj.mp h2)]

/-- `value.startsWith(start)`. -/
def startsWith (start value : String) : Bool := start.toList.isPrefixOf value.toList

/-- A prefix that ends with the separator selects the keys whose first parts it lists. -/
theorem startsWith_joinNul : ∀ {l m : List String}, l ≠ [] → l.length < m.length →
    (∀ a ∈ l, NulFree a) → (∀ a ∈ m, NulFree a) →
    (startsWith (joinNul l ++ String.singleton nul) (joinNul m) = true ↔ l <+: m)
  | [], _, h, _, _, _ => absurd rfl h
  | [a], [_], _, hlen, _, _ => by simp at hlen
  | [a], b :: b' :: m, _, _, hl, hm => by
    have ha := hl a List.mem_cons_self
    have hb := hm b List.mem_cons_self
    rw [joinNul_singleton, joinNul_cons_cons, startsWith, List.isPrefixOf_iff_prefix,
      List.cons_prefix_cons]
    simp only [String.toList_append, String.toList_singleton, List.append_assoc,
      List.singleton_append, List.nil_prefix, and_true]
    constructor
    · rintro ⟨t, ht⟩
      rw [List.append_assoc, List.singleton_append] at ht
      exact String.toList_inj.mp (append_sep_cancel ha hb ht).1
    · rintro rfl
      exact ⟨(joinNul (b' :: m)).toList, by simp⟩
  | a :: a' :: l, [], _, hlen, _, _ => by simp at hlen
  | a :: a' :: l, [_], _, hlen, _, _ => by simp at hlen
  | a :: a' :: l, b :: b' :: m, _, hlen, hl, hm => by
    have ha := hl a List.mem_cons_self
    have hb := hm b List.mem_cons_self
    have ih := startsWith_joinNul (l := a' :: l) (m := b' :: m) (by simp) (by simpa using hlen)
      (fun x hx => hl x (List.mem_cons_of_mem a hx)) fun x hx => hm x (List.mem_cons_of_mem b hx)
    rw [List.cons_prefix_cons, ← ih, startsWith, startsWith, List.isPrefixOf_iff_prefix,
      List.isPrefixOf_iff_prefix, joinNul_cons_cons, joinNul_cons_cons]
    simp only [String.toList_append, String.toList_singleton, List.append_assoc,
      List.singleton_append]
    constructor
    · rintro ⟨t, ht⟩
      rw [List.append_assoc, List.cons_append] at ht
      obtain ⟨h1, h2⟩ := append_sep_cancel ha hb ht
      exact ⟨String.toList_inj.mp h1, t, h2⟩
    · rintro ⟨rfl, t, ht⟩
      exact ⟨t, by simp [← ht]⟩

end KNex.Core
