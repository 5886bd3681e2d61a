import KNex.Core.InternetAddress
import Mathlib.Computability.RegularExpressions

/-!
# `isIP` of `node:net`

Node recognises addresses by two regular expressions: dotted decimal without leading zeros, and the
forms of RFC 4291 with an optional zone after `%`. They are regular expressions here too, so `isIP`
runs, and `isIP_eq_four` and `isIP_eq_six` say which strings they match: the spellings of a
`Dotted` and of an `Address6`, the latter with or without a zone.
-/
namespace KNex.Core.InternetAddress

open RegularExpression

/-! ## Regular expressions -/

/-- A character class. -/
def oneOf (chars : List Char) : RegularExpression Char := chars.foldr (fun c r => char c + r) 0

/-- `r{0,n}` -/
def upTo (r : RegularExpression Char) : Nat → RegularExpression Char
  | 0 => 1
  | n + 1 => 1 + r * upTo r n

/-- `r{1,n}`, for a positive `n` -/
def between1 (r : RegularExpression Char) (n : Nat) : RegularExpression Char := r * upTo r (n - 1)

variable {r r' : RegularExpression Char} {s : List Char}

theorem mem_add : s ∈ (r + r').matches' ↔ s ∈ r.matches' ∨ s ∈ r'.matches' := by
  rw [matches'_add, Language.mem_add]

theorem mem_mul :
    s ∈ (r * r').matches' ↔ ∃ a ∈ r.matches', ∃ b ∈ r'.matches', a ++ b = s := by
  rw [matches'_mul, Language.mem_mul]

theorem mem_char {c : Char} : s ∈ (char c).matches' ↔ s = [c] := by
  rw [matches'_char]; exact Set.mem_singleton_iff

theorem mem_oneOf {chars : List Char} :
    s ∈ (oneOf chars).matches' ↔ ∃ c ∈ chars, s = [c] := by
  induction chars with
  | nil => simp [oneOf]
  | cons c chars ih =>
    unfold oneOf at ih ⊢
    rw [List.foldr_cons, mem_add, mem_char, ih]
    simp

theorem mem_pow {n : Nat} : s ∈ (r ^ n).matches' ↔
    ∃ l : List (List Char), l.length = n ∧ (∀ x ∈ l, x ∈ r.matches') ∧ s = l.flatten := by
  rw [matches'_pow, Language.mem_pow]
  constructor
  · intro ⟨l, hs, hn, hl⟩
    exact ⟨l, hn, hl, hs⟩
  · intro ⟨l, hn, hl, hs⟩
    exact ⟨l, hs, hn, hl⟩

theorem mem_upTo : ∀ {n : Nat} {s : List Char}, s ∈ (upTo r n).matches' ↔
    ∃ l : List (List Char), l.length ≤ n ∧ (∀ x ∈ l, x ∈ r.matches') ∧ s = l.flatten
  | 0, s => by
    constructor
    · intro h
      rw [upTo, matches'_epsilon] at h
      exact ⟨[], by simp, by simp, h⟩
    · intro ⟨l, hn, _, hs⟩
      obtain rfl := List.eq_nil_of_length_eq_zero (Nat.le_zero.mp hn)
      rw [upTo, matches'_epsilon, hs]
      exact Language.nil_mem_one
  | n + 1, s => by
    rw [upTo, mem_add, mem_mul]
    constructor
    · intro h
      rcases h with h | ⟨a, ha, b, hb, rfl⟩
      · rw [matches'_epsilon] at h
        exact ⟨[], by simp, by simp, h⟩
      · obtain ⟨l, hn, hl, rfl⟩ := mem_upTo.mp hb
        refine ⟨a :: l, by simpa using hn, ?_, by simp⟩
        intro x hx
        rcases List.mem_cons.mp hx with rfl | hx
        · exact ha
        · exact hl x hx
    · intro ⟨l, hn, hl, hs⟩
      cases l with
      | nil =>
        refine .inl ?_
        rw [matches'_epsilon, hs]
        exact Language.nil_mem_one
      | cons a l =>
        refine .inr ⟨a, hl a (by simp), l.flatten, mem_upTo.mpr ⟨l, by simpa using hn, ?_, rfl⟩, ?_⟩
        · exact fun x hx => hl x (by simp [hx])
        · simp [hs]

theorem mem_between1 {n : Nat} (h : 0 < n) : s ∈ (between1 r n).matches' ↔
    ∃ l : List (List Char), l ≠ [] ∧ l.length ≤ n ∧ (∀ x ∈ l, x ∈ r.matches') ∧
      s = l.flatten := by
  unfold between1
  rw [mem_mul]
  constructor
  · intro ⟨a, ha, b, hb, hs⟩
    obtain ⟨l, hn, hl, rfl⟩ := mem_upTo.mp hb
    refine ⟨a :: l, by simp, by simp; omega, ?_, by simp [← hs]⟩
    intro x hx
    rcases List.mem_cons.mp hx with rfl | hx
    · exact ha
    · exact hl x hx
  · intro ⟨l, hne, hn, hl, hs⟩
    cases l with
    | nil => exact absurd rfl hne
    | cons a l =>
      refine ⟨a, hl a (by simp), l.flatten, mem_upTo.mpr ⟨l, ?_, ?_, rfl⟩, by simp [hs]⟩
      · simp at hn; omega
      · exact fun x hx => hl x (by simp [hx])

/-! ## The expressions -/

def digit : RegularExpression Char := oneOf decimalDigits

/-- `25[0-5]|2[0-4]\d|1\d\d|[1-9]\d|\d` -/
def v4Seg : RegularExpression Char :=
  char '2' * (char '5' * oneOf ['0', '1', '2', '3', '4', '5']) +
  char '2' * (oneOf ['0', '1', '2', '3', '4'] * digit) +
  char '1' * (digit * digit) +
  oneOf ['1', '2', '3', '4', '5', '6', '7', '8', '9'] * digit +
  digit

/-- `(v4Seg\.){3}v4Seg` -/
def v4Str : RegularExpression Char :=
  v4Seg * (char '.' * (v4Seg * (char '.' * (v4Seg * (char '.' * v4Seg)))))

/-- `[0-9a-fA-F]{1,4}` -/
def v6Seg : RegularExpression Char := between1 (oneOf hexDigits) 4

def colon : RegularExpression Char := char ':'

/-- `(v6Seg:){n}` -/
def segs (n : Nat) : RegularExpression Char := (v6Seg * colon) ^ n

/-- `(:v6Seg){0,5-n}:v4Str|(:v6Seg){1,7-n}|:` -/
def afterSegs (n : Nat) : RegularExpression Char :=
  upTo (colon * v6Seg) (5 - n) * (colon * v4Str) + between1 (colon * v6Seg) (7 - n) + colon

/-- The alternatives of `IPv6Reg`, from eight groups down to none before the `::`. -/
def ipv6 : RegularExpression Char :=
  segs 7 * (v6Seg + colon) +
  segs 6 * (v4Str + colon * v6Seg + colon) +
  segs 5 * afterSegs 5 +
  segs 4 * afterSegs 4 +
  segs 3 * afterSegs 3 +
  segs 2 * afterSegs 2 +
  segs 1 * afterSegs 1 +
  colon * afterSegs 0

/-- `[0-9a-zA-Z-.:]` -/
def zoneChars : List Char := decimalDigits ++
  "abcdefghijklmnopqrstuvwxyzABCDEFGHIJKLMNOPQRSTUVWXYZ-.:".toList

/-- `(?:%[0-9a-zA-Z-.:]{1,})?` -/
def zone : RegularExpression Char := 1 + char '%' * (oneOf zoneChars * (oneOf zoneChars).star)

def IPv4Reg : RegularExpression Char := v4Str

def IPv6Reg : RegularExpression Char := ipv6 * zone

/-- `isIP` of `node:net`. -/
def isIP (s : List Char) : Nat :=
  if IPv4Reg.rmatch s then 4 else if IPv6Reg.rmatch s then 6 else 0

/-! ## What they match -/

/-- The five alternatives of `v4Seg`, by length and first digit. -/
def v4Shape : List Char → Bool
  | [c] => c ∈ decimalDigits
  | [c, d] => c ∈ decimalDigits.tail && d ∈ decimalDigits
  | ['1', c, d] => c ∈ decimalDigits && d ∈ decimalDigits
  | ['2', c, d] => c ∈ ['0', '1', '2', '3', '4'] && d ∈ decimalDigits ||
      c = '5' && d ∈ ['0', '1', '2', '3', '4', '5']
  | _ => false

theorem mem_of_v4Shape {s : List Char} (h : v4Shape s = true) : s ∈ v4Seg.matches' := by
  simp only [v4Seg, digit, mem_add, mem_mul, mem_char, mem_oneOf]
  unfold v4Shape at h
  split at h
  · exact .inr ⟨_, by simpa using h, rfl⟩
  · simp only [Bool.and_eq_true, decide_eq_true_eq] at h
    exact .inl (.inr ⟨_, ⟨_, h.1, rfl⟩, _, ⟨_, h.2, rfl⟩, rfl⟩)
  · simp only [Bool.and_eq_true, decide_eq_true_eq] at h
    exact .inl (.inl (.inr ⟨_, rfl, _, ⟨_, ⟨_, h.1, rfl⟩, _, ⟨_, h.2, rfl⟩, rfl⟩, rfl⟩))
  · simp only [Bool.or_eq_true, Bool.and_eq_true, decide_eq_true_eq] at h
    rcases h with h | ⟨rfl, h⟩
    · exact .inl (.inl (.inl (.inr ⟨_, rfl, _, ⟨_, ⟨_, h.1, rfl⟩, _, ⟨_, h.2, rfl⟩, rfl⟩, rfl⟩)))
    · exact .inl (.inl (.inl (.inl ⟨_, rfl, _, ⟨_, rfl, _, ⟨_, h, rfl⟩, rfl⟩, rfl⟩)))
  · cases h

theorem decimal_mem (n : Fin 256) : decimal n ∈ v4Seg.matches' := by
  have hall : ∀ n < 256, v4Shape (decimal n) = true := by decide +kernel
  exact mem_of_v4Shape (hall n n.isLt)

/-- A fact about all pairs of characters of two lists, checked on them. -/
theorem forall_pairs {p : Char → Char → Prop} [∀ a b, Decidable (p a b)] {l m : List Char}
    (h : (l.all fun a => m.all fun b => p a b) = true) : ∀ a ∈ l, ∀ b ∈ m, p a b := by
  simpa using h

/-- The number that decimal digits denote. -/
def decimalValue (digits : List Char) : Nat := ofDigits 10 (digits.map digitValue)

/-- The five alternatives of `v4Seg` are the numbers below 256, written without leading zeros. -/
theorem mem_v4Seg : s ∈ v4Seg.matches' ↔ ∃ n : Fin 256, s = decimal n := by
  constructor
  · intro h
    suffices hs : decimalValue s < 256 ∧ decimal (decimalValue s) = s from
      ⟨⟨decimalValue s, hs.1⟩, hs.2.symm⟩
    simp only [v4Seg, digit, mem_add, mem_mul, mem_char, mem_oneOf] at h
    rcases h with (((h | h) | h) | h) | h
    · obtain ⟨_, rfl, _, ⟨_, rfl, _, ⟨c, hc, rfl⟩, rfl⟩, rfl⟩ := h
      revert c
      exact List.all_iff_forall_prop.mp (by decide)
    · obtain ⟨_, rfl, _, ⟨_, ⟨c, hc, rfl⟩, _, ⟨d, hd, rfl⟩, rfl⟩, rfl⟩ := h
      revert c d
      exact forall_pairs (by decide)
    · obtain ⟨_, rfl, _, ⟨_, ⟨c, hc, rfl⟩, _, ⟨d, hd, rfl⟩, rfl⟩, rfl⟩ := h
      revert c d
      exact forall_pairs (by decide)
    · obtain ⟨_, ⟨c, hc, rfl⟩, _, ⟨d, hd, rfl⟩, rfl⟩ := h
      revert c d
      exact forall_pairs (by decide)
    · obtain ⟨c, hc, rfl⟩ := h
      revert c
      exact List.all_iff_forall_prop.mp (by decide)
  · intro ⟨n, hs⟩
    rw [hs]
    exact decimal_mem n

theorem mem_v4Str : s ∈ v4Str.matches' ↔ ∃ t : Dotted, s = t.spell := by
  unfold v4Str
  simp only [mem_mul, mem_char, mem_v4Seg]
  constructor
  · rintro ⟨_, ⟨a, rfl⟩, _, ⟨_, rfl, _, ⟨_, ⟨b, rfl⟩, _, ⟨_, rfl, _, ⟨_, ⟨c, rfl⟩, _, ⟨_, rfl, _,
      ⟨d, rfl⟩, rfl⟩, rfl⟩, rfl⟩, rfl⟩, rfl⟩, rfl⟩
    exact ⟨⟨a, b, c, d⟩, rfl⟩
  · rintro ⟨⟨a, b, c, d⟩, rfl⟩
    exact ⟨_, ⟨a, rfl⟩, _, ⟨_, rfl, _, ⟨_, ⟨b, rfl⟩, _, ⟨_, rfl, _, ⟨_, ⟨c, rfl⟩, _, ⟨_, rfl, _,
      ⟨d, rfl⟩, rfl⟩, rfl⟩, rfl⟩, rfl⟩, rfl⟩, rfl⟩

/-- A list of one-letter words. -/
theorem flatten_singletons {chars : List Char} {l : List (List Char)}
    (h : ∀ x ∈ l, ∃ c ∈ chars, x = [c]) :
    l.flatten.length = l.length ∧ ∀ c ∈ l.flatten, c ∈ chars := by
  induction l with
  | nil => simp
  | cons x l ih =>
    obtain ⟨c, hc, rfl⟩ := h x (by simp)
    obtain ⟨hlen, hmem⟩ := ih fun y hy => h y (by simp [hy])
    refine ⟨by simp [hlen], ?_⟩
    intro d hd
    rcases List.mem_append.mp hd with hd | hd
    · rw [List.mem_singleton.mp hd]
      exact hc
    · exact hmem d hd

theorem mem_v6Seg : s ∈ v6Seg.matches' ↔ ∃ g : HexGroup, s = g.digits := by
  unfold v6Seg
  rw [mem_between1 (by decide)]
  constructor
  · intro ⟨l, hne, hn, hl, hs⟩
    obtain ⟨hlen, hmem⟩ := flatten_singletons fun x hx => mem_oneOf.mp (hl x hx)
    refine ⟨⟨s, ?_, ?_, ?_⟩, rfl⟩
    · intro h
      rw [← hs, h] at hlen
      exact hne (List.eq_nil_of_length_eq_zero hlen.symm)
    · rw [hs, hlen]
      exact hn
    · rw [hs]
      exact hmem
  · intro ⟨g, hs⟩
    refine ⟨g.digits.map fun c => [c], by simpa using g.nonempty, by simpa using g.short, ?_, ?_⟩
    · intro x hx
      obtain ⟨c, hc, rfl⟩ := List.mem_map.mp hx
      exact mem_oneOf.mpr ⟨c, g.hex c hc, rfl⟩
    · rw [hs, ← List.flatMap_def, List.flatMap_singleton']

/-! ### Colons -/

/-- Every group followed by a colon. -/
def ends (groups : List (List Char)) : List Char := (groups.map (· ++ [':'])).flatten

/-- Every group after a colon. -/
def starts (groups : List (List Char)) : List Char := (groups.map (':' :: ·)).flatten

theorem ends_append (l : List (List Char)) (g : List Char) : ends l ++ g = join (l ++ [g]) := by
  induction l with
  | nil => simp [ends, join]
  | cons x l ih =>
    have hne : l ++ [g] ≠ [] := by simp
    unfold ends join at ih ⊢
    rw [List.cons_append, List.intercalate_cons_of_ne_nil hne, ← ih]
    simp

theorem ends_eq {l : List (List Char)} (h : l ≠ []) : ends l = join l ++ [':'] := by
  rcases List.eq_nil_or_concat l with rfl | ⟨l, g, rfl⟩
  · exact absurd rfl h
  · rw [List.concat_eq_append, ← ends_append]
    simp [ends]

theorem starts_eq {l : List (List Char)} (h : l ≠ []) : starts l = ':' :: join l := by
  induction l with
  | nil => exact absurd rfl h
  | cons x l ih =>
    cases l with
    | nil => simp [starts, join]
    | cons y l =>
      have hrest := ih (by simp)
      unfold starts join at hrest ⊢
      rw [List.map_cons, List.flatten_cons, hrest, List.intercalate_cons_cons]
      simp

theorem starts_append (l : List (List Char)) (g : List Char) :
    starts l ++ ':' :: g = ':' :: join (l ++ [g]) := by
  rw [← starts_eq (by simp)]
  simp [starts]

/-- Words that are all of one form. -/
theorem exists_map_of_mem {α : Type} {f : α → List Char} {l : List (List Char)}
    (h : ∀ x ∈ l, ∃ g, f g = x) : ∃ gs : List α, gs.map f = l := by
  have hmem : l ∈ Set.range (List.map f) := by
    rw [Set.range_list_map]
    exact h
  exact hmem

theorem mem_segColon : s ∈ (v6Seg * colon).matches' ↔ ∃ g : HexGroup, g.digits ++ [':'] = s := by
  unfold colon
  simp only [mem_mul, mem_char, mem_v6Seg]
  constructor
  · rintro ⟨_, ⟨g, rfl⟩, _, rfl, rfl⟩
    exact ⟨g, rfl⟩
  · rintro ⟨g, rfl⟩
    exact ⟨_, ⟨g, rfl⟩, _, rfl, rfl⟩

theorem mem_colonSeg : s ∈ (colon * v6Seg).matches' ↔ ∃ g : HexGroup, ':' :: g.digits = s := by
  unfold colon
  simp only [mem_mul, mem_char, mem_v6Seg]
  constructor
  · rintro ⟨_, rfl, _, ⟨g, rfl⟩, rfl⟩
    exact ⟨g, rfl⟩
  · rintro ⟨g, rfl⟩
    exact ⟨_, rfl, _, ⟨g, rfl⟩, rfl⟩

theorem mem_segs {n : Nat} : s ∈ (segs n).matches' ↔
    ∃ gs : List HexGroup, gs.length = n ∧ s = ends (gs.map HexGroup.digits) := by
  unfold segs
  rw [mem_pow]
  constructor
  · intro ⟨l, hn, hl, hs⟩
    obtain ⟨gs, rfl⟩ := exists_map_of_mem fun x hx => mem_segColon.mp (hl x hx)
    refine ⟨gs, by simpa using hn, ?_⟩
    rw [hs]
    simp [ends, Function.comp_def]
  · intro ⟨gs, hn, hs⟩
    refine ⟨gs.map fun g => g.digits ++ [':'], by simpa using hn, ?_, ?_⟩
    · intro x hx
      obtain ⟨g, -, rfl⟩ := List.mem_map.mp hx
      exact mem_segColon.mpr ⟨g, rfl⟩
    · rw [hs]
      simp [ends, Function.comp_def]

/-- Words `:v6Seg` make up the spelling of their groups. -/
theorem flatten_colonSegs (gs : List HexGroup) :
    (gs.map fun g => ':' :: g.digits).flatten = starts (gs.map HexGroup.digits) := by
  simp [starts, Function.comp_def]

/-- What may follow `n` groups and a colon: groups, and a dotted tail that counts for two. -/
theorem mem_afterSegs {n : Nat} (h : n ≤ 5) : s ∈ (afterSegs n).matches' ↔
    ∃ (right : List HexGroup) (tail : Option Dotted),
      n + right.length + (tailWords tail).length ≤ 7 ∧ s = ':' :: join (written right tail) := by
  have hpos : 0 < 7 - n := by omega
  unfold afterSegs
  rw [mem_add, mem_add, mem_mul]
  simp only [mem_upTo, mem_between1 hpos, mem_colonSeg]
  constructor
  · rintro ((⟨a, ⟨l, hn, hl, rfl⟩, b, hb, rfl⟩ | ⟨l, hne, hn, hl, rfl⟩) | hs)
    · obtain ⟨right, rfl⟩ := exists_map_of_mem hl
      simp only [colon, mem_mul, mem_char, mem_v4Str] at hb
      obtain ⟨_, rfl, _, ⟨t, rfl⟩, rfl⟩ := hb
      refine ⟨right, some t, ?_, ?_⟩
      · rw [List.length_map] at hn
        show n + right.length + 2 ≤ 7
        omega
      · rw [flatten_colonSegs]
        exact starts_append _ _
    · obtain ⟨right, rfl⟩ := exists_map_of_mem hl
      refine ⟨right, none, ?_, ?_⟩
      · rw [List.length_map] at hn
        show n + right.length + 0 ≤ 7
        omega
      · rw [flatten_colonSegs, starts_eq (by simpa using hne)]
        simp [written]
    · refine ⟨[], none, by simp [tailWords]; omega, ?_⟩
      rw [mem_char.mp hs]
      rfl
  · rintro ⟨right, tail, hn, hs⟩
    cases tail with
    | some t =>
      refine .inl (.inl ⟨_, ⟨right.map fun g => ':' :: g.digits, ?_, ?_, rfl⟩, ':' :: t.spell, ?_,
        ?_⟩)
      · change n + right.length + 2 ≤ 7 at hn
        rw [List.length_map]
        omega
      · intro x hx
        obtain ⟨g, -, rfl⟩ := List.mem_map.mp hx
        exact ⟨g, rfl⟩
      · simp only [colon, mem_mul, mem_char, mem_v4Str]
        exact ⟨_, rfl, _, ⟨t, rfl⟩, rfl⟩
      · rw [flatten_colonSegs, hs]
        exact starts_append _ _
    | none =>
      by_cases hne : right = []
      · subst hne
        exact .inr (mem_char.mpr hs)
      · refine .inl (.inr ⟨right.map fun g => ':' :: g.digits, by simpa using hne, ?_, ?_, ?_⟩)
        · change n + right.length + 0 ≤ 7 at hn
          rw [List.length_map]
          omega
        · intro x hx
          obtain ⟨g, -, rfl⟩ := List.mem_map.mp hx
          exact ⟨g, rfl⟩
        · rw [flatten_colonSegs, starts_eq (by simpa using hne), hs]
          simp [written]

/-- An alternative that begins with `n` groups: the form left out at `::` after them. -/
theorem compressed_of_segs {n : Nat} (hpos : 0 < n) {a b : List Char} (ha : a ∈ (segs n).matches')
    (right : List HexGroup) (tail : Option Dotted)
    (hn : n + right.length + (tailWords tail).length ≤ 7)
    (hb : b = ':' :: join (written right tail)) : ∃ t : Address6, a ++ b = t.spell := by
  obtain ⟨left, rfl, rfl⟩ := mem_segs.mp ha
  have hne : left.map HexGroup.digits ≠ [] := by
    intro h
    rw [List.map_eq_nil_iff.mp h] at hpos
    cases hpos
  refine ⟨.compressed left right tail hn, ?_⟩
  rw [ends_eq hne, hb]
  simp [Address6.spell]

theorem segs_of_compressed {left : List HexGroup} {b : List Char} (hne : left ≠ []) :
    ∃ a ∈ (segs left.length).matches',
      a ++ (':' :: b) = join (left.map HexGroup.digits) ++ ':' :: ':' :: b := by
  refine ⟨ends (left.map HexGroup.digits), mem_segs.mpr ⟨left, rfl, rfl⟩, ?_⟩
  rw [ends_eq (by simpa using hne)]
  simp

/-- The alternative of `n` groups, where `b` follows their last colon. -/
theorem alternative_of_compressed {left : List HexGroup} {n : Nat} (hlen : left.length = n)
    (hpos : 0 < n) (h : n ≤ 5) {right : List HexGroup} {tail : Option Dotted}
    (hn : left.length + right.length + (tailWords tail).length ≤ 7) :
    (Address6.compressed left right tail hn).spell ∈ (segs n * afterSegs n).matches' := by
  subst hlen
  obtain ⟨a, ha, heq⟩ := segs_of_compressed (b := join (written right tail))
    (List.ne_nil_of_length_pos hpos)
  exact mem_mul.mpr ⟨a, ha, _, (mem_afterSegs h).mpr ⟨right, tail, hn, rfl⟩, heq⟩

theorem full_of_segs {n : Nat} {a : List Char} (ha : a ∈ (segs n).matches') {b : List Char}
    (groups : List HexGroup) (tail : Option Dotted) (hb : written groups tail = [b])
    (hn : n + groups.length + (tailWords tail).length = 8) : ∃ t : Address6, a ++ b = t.spell := by
  obtain ⟨left, rfl, rfl⟩ := mem_segs.mp ha
  refine ⟨.full (left ++ groups) tail (by simpa using hn), ?_⟩
  rw [ends_append]
  unfold written at hb
  simp [Address6.spell, written, hb]

theorem mem_ipv6 : s ∈ ipv6.matches' ↔ ∃ t : Address6, s = t.spell := by
  constructor
  · intro h
    unfold ipv6 at h
    simp only [mem_add] at h
    have hafter : ∀ n, 0 < n → n ≤ 5 → s ∈ (segs n * afterSegs n).matches' →
        ∃ t : Address6, s = t.spell := by
      intro n hpos hle hs
      obtain ⟨a, ha, b, hb, rfl⟩ := mem_mul.mp hs
      obtain ⟨right, tail, hn, hb⟩ := (mem_afterSegs hle).mp hb
      exact compressed_of_segs hpos ha right tail hn hb
    rcases h with ((((((h | h) | h) | h) | h) | h) | h) | h
    · obtain ⟨a, ha, b, hb, rfl⟩ := mem_mul.mp h
      rcases mem_add.mp hb with hb | hb
      · obtain ⟨g, rfl⟩ := mem_v6Seg.mp hb
        exact full_of_segs ha [g] none rfl rfl
      · exact compressed_of_segs (by decide) ha [] none (by decide)
          (mem_char.mp hb)
    · obtain ⟨a, ha, b, hb, rfl⟩ := mem_mul.mp h
      simp only [mem_add] at hb
      rcases hb with (hb | hb) | hb
      · obtain ⟨d, rfl⟩ := mem_v4Str.mp hb
        exact full_of_segs ha [] (some d) rfl rfl
      · obtain ⟨g, rfl⟩ := mem_colonSeg.mp hb
        exact compressed_of_segs (by decide) ha [g] none (by simp [tailWords])
          (by simp [written, join])
      · exact compressed_of_segs (by decide) ha [] none (by decide)
          (mem_char.mp hb)
    · exact hafter 5 (by decide) (by decide) h
    · exact hafter 4 (by decide) (by decide) h
    · exact hafter 3 (by decide) (by decide) h
    · exact hafter 2 (by decide) (by decide) h
    · exact hafter 1 (by decide) (by decide) h
    · obtain ⟨a, ha, b, hb, rfl⟩ := mem_mul.mp h
      obtain ⟨right, tail, hn, rfl⟩ := (mem_afterSegs (by decide)).mp hb
      rw [mem_char.mp ha]
      exact ⟨.compressed [] right tail (by simpa using hn), rfl⟩
  · rintro ⟨t, rfl⟩
    unfold ipv6
    simp only [mem_add]
    cases t with
    | full groups tail h =>
      cases tail with
      | some d =>
        refine .inl (.inl (.inl (.inl (.inl (.inl (.inr ?_))))))
        have hlen : groups.length = 6 := by
          change groups.length + 2 = 8 at h
          omega
        refine mem_mul.mpr ⟨_, mem_segs.mpr ⟨groups, hlen, rfl⟩, d.spell, ?_, ends_append _ _⟩
        exact mem_add.mpr (.inl (mem_add.mpr (.inl (mem_v4Str.mpr ⟨d, rfl⟩))))
      | none =>
        refine .inl (.inl (.inl (.inl (.inl (.inl (.inl ?_))))))
        rcases List.eq_nil_or_concat groups with rfl | ⟨groups, g, rfl⟩
        · cases h
        · change join (written (groups.concat g) none) ∈ _
          rw [List.concat_eq_append] at h ⊢
          have hlen : groups.length = 7 := by
            rw [List.length_append] at h
            change groups.length + 1 + 0 = 8 at h
            omega
          refine mem_mul.mpr ⟨_, mem_segs.mpr ⟨groups, hlen, rfl⟩, g.digits,
            mem_add.mpr (.inl (mem_v6Seg.mpr ⟨g, rfl⟩)), ?_⟩
          rw [ends_append]
          simp [written]
    | compressed left right tail h =>
      obtain ⟨n, hl⟩ : ∃ n, left.length = n := ⟨_, rfl⟩
      have hle : n ≤ 7 := by omega
      have hsmall : 5 < n → tail = none := by
        intro hlt
        cases tail with
        | none => rfl
        | some d =>
          change left.length + right.length + 2 ≤ 7 at h
          omega
      interval_cases n
      · obtain rfl := List.eq_nil_of_length_eq_zero hl
        exact .inr (mem_mul.mpr ⟨_, mem_char.mpr rfl, _,
          (mem_afterSegs (by decide)).mpr ⟨right, tail, h, rfl⟩, rfl⟩)
      · exact .inl (.inr (alternative_of_compressed hl (by decide) (by decide) _))
      · exact .inl (.inl (.inr (alternative_of_compressed hl (by decide) (by decide) _)))
      · exact .inl (.inl (.inl (.inr (alternative_of_compressed hl (by decide) (by decide) _))))
      · exact .inl (.inl (.inl (.inl (.inr
          (alternative_of_compressed hl (by decide) (by decide) _)))))
      · exact .inl (.inl (.inl (.inl (.inl (.inr
          (alternative_of_compressed hl (by decide) (by decide) _))))))
      · obtain rfl := hsmall (by decide)
        obtain ⟨a, ha, heq⟩ := segs_of_compressed (b := join (written right none))
          (List.ne_nil_of_length_pos (by rw [hl]; decide))
        rw [hl] at ha
        refine .inl (.inl (.inl (.inl (.inl (.inl (.inr (mem_mul.mpr ⟨a, ha, _, ?_, heq⟩)))))))
        rw [mem_add]
        cases right with
        | nil => exact .inr (mem_char.mpr rfl)
        | cons g right =>
          have hnil : right = [] := by
            change left.length + (right.length + 1) + 0 ≤ 7 at h
            exact List.eq_nil_of_length_eq_zero (by omega)
          subst hnil
          refine .inl (mem_add.mpr (.inr (mem_colonSeg.mpr ⟨g, ?_⟩)))
          simp [written, join]
      · obtain rfl := hsmall (by decide)
        obtain ⟨a, ha, heq⟩ := segs_of_compressed (b := join (written right none))
          (List.ne_nil_of_length_pos (by rw [hl]; decide))
        rw [hl] at ha
        have hnil : right = [] := by
          change left.length + right.length + 0 ≤ 7 at h
          exact List.eq_nil_of_length_eq_zero (by omega)
        subst hnil
        exact .inl (.inl (.inl (.inl (.inl (.inl (.inl
          (mem_mul.mpr ⟨a, ha, _, mem_add.mpr (.inr (mem_char.mpr rfl)), heq⟩)))))))

/-! ## `isIP` -/

theorem isIP_eq_four : isIP s = 4 ↔ ∃ t : Dotted, s = t.spell := by
  rw [← mem_v4Str]
  unfold isIP IPv4Reg
  split
  · rename_i h
    exact iff_of_true rfl ((rmatch_iff_matches' _ _).mp h)
  · rename_i h
    rw [rmatch_iff_matches'] at h
    split
    · exact iff_of_false (by decide) h
    · exact iff_of_false (by decide) h

theorem mem_zone : s ∈ zone.matches' ↔ s = [] ∨
    ∃ z : List Char, z ≠ [] ∧ (∀ c ∈ z, c ∈ zoneChars) ∧ s = '%' :: z := by
  unfold zone
  rw [mem_add, matches'_epsilon, Language.mem_one, mem_mul]
  refine or_congr_right ?_
  simp only [mem_char, mem_mul, mem_oneOf, matches'_star, Language.mem_kstar]
  constructor
  · rintro ⟨_, rfl, _, ⟨_, ⟨c, hc, rfl⟩, _, ⟨l, rfl, hl⟩, rfl⟩, rfl⟩
    obtain ⟨-, hmem⟩ := flatten_singletons hl
    refine ⟨c :: l.flatten, by simp, ?_, rfl⟩
    intro d hd
    rcases List.mem_cons.mp hd with rfl | hd
    · exact hc
    · exact hmem d hd
  · rintro ⟨z, hne, hz, rfl⟩
    cases z with
    | nil => exact absurd rfl hne
    | cons c z =>
      refine ⟨_, rfl, _, ⟨_, ⟨c, hz c (by simp), rfl⟩, z, ⟨z.map fun d => [d], ?_, ?_⟩, rfl⟩, rfl⟩
      · rw [← List.flatMap_def, List.flatMap_singleton']
      · intro x hx
        obtain ⟨d, hd, rfl⟩ := List.mem_map.mp hx
        exact ⟨d, hz d (by simp [hd]), rfl⟩

theorem mem_ipv6Reg : s ∈ IPv6Reg.matches' ↔ ∃ t : Address6, s = t.spell ∨
    ∃ z : List Char, z ≠ [] ∧ (∀ c ∈ z, c ∈ zoneChars) ∧ s = t.spell ++ '%' :: z := by
  unfold IPv6Reg
  simp only [mem_mul, mem_ipv6, mem_zone]
  constructor
  · rintro ⟨_, ⟨t, rfl⟩, b, hb, rfl⟩
    refine ⟨t, ?_⟩
    rcases hb with rfl | ⟨z, hne, hz, rfl⟩
    · exact .inl (List.append_nil _)
    · exact .inr ⟨z, hne, hz, rfl⟩
  · rintro ⟨t, rfl | ⟨z, hne, hz, rfl⟩⟩
    · exact ⟨_, ⟨t, rfl⟩, [], .inl rfl, List.append_nil _⟩
    · exact ⟨_, ⟨t, rfl⟩, _, .inr ⟨z, hne, hz, rfl⟩, rfl⟩

theorem decimal_mem_digits : ∀ n < 256, ∀ c ∈ decimal n, c ∈ decimalDigits := by
  have hall : ∀ n < 256, ((decimal n).all fun c => c ∈ decimalDigits) = true := by decide +kernel
  exact fun n hn => List.all_iff_forall_prop.mp (hall n hn)

theorem Dotted.mem_spell (t : Dotted) : ∀ c ∈ t.spell, c = '.' ∨ c ∈ decimalDigits := by
  intro c hc
  simp only [Dotted.spell, List.mem_append, List.mem_cons] at hc
  have hdec : ∀ x : Fin 256, c ∈ decimal x → c ∈ decimalDigits :=
    fun x hx => decimal_mem_digits x x.isLt c hx
  rcases hc with h | h | h | h | h | h | h
  · exact .inr (hdec _ h)
  · exact .inl h
  · exact .inr (hdec _ h)
  · exact .inl h
  · exact .inr (hdec _ h)
  · exact .inl h
  · exact .inr (hdec _ h)

theorem colon_mem_join {l : List (List Char)} (h : 2 ≤ l.length) : ':' ∈ join l := by
  match l, h with
  | a :: b :: l, _ => simp [join]

/-- Every form has a colon: it has two groups at least, or a `::`. -/
theorem Address6.colon_mem (t : Address6) : ':' ∈ t.spell := by
  cases t with
  | full groups tail h =>
    refine colon_mem_join ?_
    cases tail with
    | none =>
      change groups.length + 0 = 8 at h
      simp [written]
      omega
    | some d =>
      change groups.length + 2 = 8 at h
      simp [written]
      omega
  | compressed left right tail h => simp [spell]

/-- **`isIP` and RFC 4291.** A string is an IPv6 address for `isIP` when it is one of the textual
forms, or one of them with a zone. -/
theorem isIP_eq_six : isIP s = 6 ↔ ∃ t : Address6, s = t.spell ∨
    ∃ z : List Char, z ≠ [] ∧ (∀ c ∈ z, c ∈ zoneChars) ∧ s = t.spell ++ '%' :: z := by
  rw [← mem_ipv6Reg]
  unfold isIP
  split
  · rename_i h
    refine iff_of_false (by decide) fun h6 => ?_
    rw [IPv4Reg, rmatch_iff_matches', mem_v4Str] at h
    obtain ⟨d, rfl⟩ := h
    have hcolon : ':' ∈ d.spell := by
      obtain ⟨t, ht | ⟨z, -, -, ht⟩⟩ := mem_ipv6Reg.mp h6
      · rw [ht]
        exact t.colon_mem
      · rw [ht]
        exact List.mem_append_left _ t.colon_mem
    rcases d.mem_spell _ hcolon with h | h
    · cases h
    · revert h
      decide
  · split
    · rename_i h
      exact iff_of_true rfl ((rmatch_iff_matches' _ _).mp h)
    · rename_i h
      rw [rmatch_iff_matches'] at h
      exact iff_of_false (by decide) h

end KNex.Core.InternetAddress
