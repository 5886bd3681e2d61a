import Mathlib

/-!
# Internet addresses: numbers, prefixes and their text

An address is a number of 32 or 128 bits. A set of addresses is given by a prefix (`InPrefix`): the
leading bits of a base address. `inPrefix_bytes` and `inPrefix_bytes_partial` compare prefixes byte
by byte.

The textual forms of RFC 4291 section 2.2 are data (`Address6`): eight groups of one to four hex
digits, with a run of zero groups left out at `::`, and with a dotted IPv4 address in the place of
the last two groups. `spell` writes a form down and `value` is the address it denotes, so that a
reader of addresses is specified by what it answers to `t.spell`.
-/
namespace KNex.Core.InternetAddress

/-! ## Numbers, most significant digit first -/

/-- The number with the given digits, the most significant one first. -/
def ofDigits (b : Nat) (digits : List Nat) : Nat := Nat.ofDigits b digits.reverse

@[simp] theorem ofDigits_nil (b : Nat) : ofDigits b [] = 0 := rfl

@[simp] theorem ofDigits_singleton (b d : Nat) : ofDigits b [d] = d := by
  simp [ofDigits]

theorem ofDigits_append (b : Nat) (l l' : List Nat) :
    ofDigits b (l ++ l') = ofDigits b l * b ^ l'.length + ofDigits b l' := by
  unfold ofDigits
  rw [List.reverse_append, Nat.ofDigits_append, List.length_reverse]
  ring

theorem ofDigits_cons (b d : Nat) (l : List Nat) :
    ofDigits b (d :: l) = d * b ^ l.length + ofDigits b l := by
  have h := ofDigits_append b [d] l
  rwa [ofDigits_singleton] at h

theorem ofDigits_lt {b : Nat} (hb : 1 < b) {l : List Nat} (h : ∀ d ∈ l, d < b) :
    ofDigits b l < b ^ l.length := by
  unfold ofDigits
  have hlt := Nat.ofDigits_lt_base_pow_length hb (l := l.reverse)
    fun d hd => h d (List.mem_reverse.mp hd)
  rwa [List.length_reverse] at hlt

theorem ofDigits_injective {b : Nat} (hb : 1 < b) {l l' : List Nat} (hlen : l.length = l'.length)
    (h : ∀ d ∈ l, d < b) (h' : ∀ d ∈ l', d < b) : ofDigits b l = ofDigits b l' ↔ l = l' := by
  constructor
  · intro he
    have hrev := Nat.ofDigits_inj_of_len_eq hb (by simpa using hlen)
      (fun d hd => h d (List.mem_reverse.mp hd)) (fun d hd => h' d (List.mem_reverse.mp hd)) he
    exact List.reverse_injective hrev
  · intro he
    rw [he]

/-- The leading digits are the quotient by the weight of the others. -/
theorem ofDigits_append_div {b : Nat} (hb : 1 < b) (l : List Nat) {l' : List Nat}
    (h' : ∀ d ∈ l', d < b) : ofDigits b (l ++ l') / b ^ l'.length = ofDigits b l := by
  have hlt := ofDigits_lt hb h'
  rw [ofDigits_append, Nat.mul_comm, Nat.mul_add_div (by positivity), Nat.div_eq_of_lt hlt,
    Nat.add_zero]

/-- Digits that are split in two. -/
theorem ofDigits_split (l : List Nat) :
    ofDigits 256 (l.flatMap fun w => [w / 256, w % 256]) = ofDigits 65536 l := by
  induction l with
  | nil => rfl
  | cons w l ih =>
    have hlen : (l.flatMap fun w => [w / 256, w % 256]).length = 2 * l.length := by
      simp [List.length_flatMap, Nat.mul_comm]
    have hpow : (65536 : Nat) ^ l.length = 256 ^ (2 * l.length) := by
      rw [Nat.pow_mul]
    have hw := Nat.div_add_mod w 256
    rw [List.flatMap_cons, ofDigits_append, ih, hlen, ofDigits_cons 65536, hpow]
    congr 2
    rw [ofDigits_cons, ofDigits_singleton, List.length_singleton]
    omega

/-! ## Prefixes -/

/-- The `n` leading bits of `v` are those of `p`, in words of `w` bits. -/
def InPrefix (w v p n : Nat) : Prop := v / 2 ^ (w - n) = p / 2 ^ (w - n)

instance (w v p n : Nat) : Decidable (InPrefix w v p n) := inferInstanceAs (Decidable (_ = _))

/-- A prefix that ends between two bytes. -/
theorem inPrefix_bytes {l m p r : List Nat} {w n : Nat} (hlen : l.length = p.length)
    (hlen₂ : m.length = r.length) (hl : ∀ d ∈ l, d < 256) (hm : ∀ d ∈ m, d < 256)
    (hp : ∀ d ∈ p, d < 256) (hr : ∀ d ∈ r, d < 256) (hw : w - n = 8 * m.length) :
    InPrefix w (ofDigits 256 (l ++ m)) (ofDigits 256 (p ++ r)) n ↔ l = p := by
  have hpow : 2 ^ (w - n) = 256 ^ m.length := by rw [hw, Nat.pow_mul]
  unfold InPrefix
  rw [hpow, ofDigits_append_div (by decide) l hm, hlen₂,
    ofDigits_append_div (by decide) p hr]
  exact ofDigits_injective (by decide) hlen hl hp

/-- A prefix that ends within a byte, `j` bits before its end. -/
theorem inPrefix_bytes_partial {l m p r : List Nat} {c q w n j : Nat}
    (hlen : l.length = p.length) (hlen₂ : m.length = r.length) (hl : ∀ d ∈ l, d < 256)
    (hm : ∀ d ∈ m, d < 256) (hp : ∀ d ∈ p, d < 256) (hr : ∀ d ∈ r, d < 256)
    (hc : c < 256) (hq : q < 256) (hj : j ≤ 8) (hw : w - n = 8 * m.length + j) :
    InPrefix w (ofDigits 256 (l ++ c :: m)) (ofDigits 256 (p ++ q :: r)) n ↔
      l = p ∧ c / 2 ^ j = q / 2 ^ j := by
  have hpow : 2 ^ (w - n) = 256 ^ m.length * 2 ^ j := by rw [hw, Nat.pow_add, Nat.pow_mul]
  have h256 : 256 = 2 ^ (8 - j) * 2 ^ j := by
    rw [← Nat.pow_add, Nat.sub_add_cancel hj]
  have hcut : ∀ (s : List Nat) (d : Nat),
      ofDigits 256 (s ++ [d]) / 2 ^ j = ofDigits 256 s * 2 ^ (8 - j) + d / 2 ^ j := by
    intro s d
    have hsplit : ofDigits 256 s * 256 = 2 ^ j * (ofDigits 256 s * 2 ^ (8 - j)) := by
      calc ofDigits 256 s * 256 = ofDigits 256 s * (2 ^ (8 - j) * 2 ^ j) := by rw [← h256]
        _ = 2 ^ j * (ofDigits 256 s * 2 ^ (8 - j)) := by ring
    rw [ofDigits_append, ofDigits_singleton, List.length_singleton, Nat.pow_one, hsplit,
      Nat.mul_add_div (by positivity)]
  have hsmall : ∀ d, d < 256 → d / 2 ^ j < 2 ^ (8 - j) := by
    intro d hd
    rw [Nat.div_lt_iff_lt_mul (by positivity), ← h256]
    exact hd
  unfold InPrefix
  rw [hpow, ← Nat.div_div_eq_div_mul, ← Nat.div_div_eq_div_mul, List.append_cons l c m,
    List.append_cons p q r, ofDigits_append_div (by decide) _ hm, hlen₂,
    ofDigits_append_div (by decide) _ hr, hcut, hcut]
  constructor
  · intro h
    have hquot : ∀ (a d : Nat), d < 256 →
        (a * 2 ^ (8 - j) + d / 2 ^ j) / 2 ^ (8 - j) = a := by
      intro a d hd
      rw [Nat.mul_comm, Nat.mul_add_div (by positivity), Nat.div_eq_of_lt (hsmall d hd),
        Nat.add_zero]
    have hval : ofDigits 256 l = ofDigits 256 p := by
      rw [← hquot (ofDigits 256 l) c hc, h, hquot _ q hq]
    refine ⟨(ofDigits_injective (by decide) hlen hl hp).mp hval, ?_⟩
    rw [hval] at h
    omega
  · rintro ⟨rfl, h⟩
    rw [h]

/-! ## Hex and decimal digits -/

def decimalDigits : List Char := ['0', '1', '2', '3', '4', '5', '6', '7', '8', '9']

def lowerHexDigits : List Char := decimalDigits ++ ['a', 'b', 'c', 'd', 'e', 'f']

def hexDigits : List Char := lowerHexDigits ++ ['A', 'B', 'C', 'D', 'E', 'F']

/-- The value of a hex digit of either case. -/
def digitValue (c : Char) : Nat :=
  if 'a' ≤ c ∧ c ≤ 'f' then c.toNat - 87
  else if 'A' ≤ c ∧ c ≤ 'F' then c.toNat - 55
  else c.toNat - 48

theorem digitValue_lt : ∀ c ∈ hexDigits, digitValue c < 16 :=
  List.all_iff_forall_prop.mp (by decide)

/-- The value of a digit does not depend on its case. -/
theorem digitValue_toLower : ∀ c ∈ hexDigits,
    c.toLower ∈ lowerHexDigits ∧ digitValue c.toLower = digitValue c :=
  List.all_iff_forall_prop.mp (by decide)

def hexValue (digits : List Char) : Nat := ofDigits 16 (digits.map digitValue)

/-- `n` in decimal, without leading zeros. -/
def decimal (n : Nat) : List Char := Nat.toDigits 10 n

/-- `n` in hex, without leading zeros. -/
def hex (n : Nat) : List Char := Nat.toDigits 16 n

theorem digitChar_hex : ∀ d < 16,
    d.digitChar ∈ lowerHexDigits ∧ digitValue d.digitChar = d := by decide

/-- A number below `16 ^ k` has at most `k` hex digits, which denote it. -/
theorem hex_spec : ∀ {k n : Nat}, 0 < k → n < 16 ^ k →
    hex n ≠ [] ∧ (hex n).length ≤ k ∧ (∀ c ∈ hex n, c ∈ lowerHexDigits) ∧ hexValue (hex n) = n
  | 0, _, h, _ => by cases h
  | k + 1, n, _, hn => by
    unfold hex
    by_cases hlt : n < 16
    · obtain ⟨hmem, hval⟩ := digitChar_hex n hlt
      rw [Nat.toDigits_of_lt_base hlt]
      exact ⟨by simp, by simp, by simpa using hmem, by simp [hexValue, hval]⟩
    · have hk : 0 < k := by
        rcases Nat.eq_zero_or_pos k with rfl | h
        · simp at hn; omega
        · exact h
      have hdiv : n / 16 < 16 ^ k := by
        rw [Nat.div_lt_iff_lt_mul (by decide), ← Nat.pow_succ]
        exact hn
      obtain ⟨-, hlen, hmem, hval⟩ := hex_spec hk hdiv
      obtain ⟨hmem', hval'⟩ := digitChar_hex (n % 16) (Nat.mod_lt _ (by decide))
      have hsplit : Nat.toDigits 16 n = Nat.toDigits 16 (n / 16) ++ [(n % 16).digitChar] :=
        Nat.toDigits_of_base_le (by decide) (by omega)
      unfold hex at hlen hmem hval
      rw [hsplit]
      refine ⟨by simp, by simpa using hlen, ?_, ?_⟩
      · intro c hc
        rcases List.mem_append.mp hc with hc | hc
        · exact hmem c hc
        · rw [List.mem_singleton.mp hc]
          exact hmem'
      · unfold hexValue at hval ⊢
        rw [List.map_append, ofDigits_append, hval]
        simp only [List.map_cons, List.map_nil, ofDigits_singleton, hval', List.length_singleton]
        omega

/-! ## Text -/

/-- One to four hex digits. -/
structure HexGroup where
  digits : List Char
  nonempty : digits ≠ []
  short : digits.length ≤ 4
  hex : ∀ c ∈ digits, c ∈ hexDigits

def HexGroup.value (g : HexGroup) : Nat := hexValue g.digits

theorem HexGroup.value_lt (g : HexGroup) : g.value < 65536 := by
  have hlt : g.value < 16 ^ (g.digits.map digitValue).length := by
    refine ofDigits_lt (by decide) fun d hd => ?_
    obtain ⟨c, hc, rfl⟩ := List.mem_map.mp hd
    exact digitValue_lt c (g.hex c hc)
  rw [List.length_map] at hlt
  calc g.value < 16 ^ g.digits.length := hlt
    _ ≤ 16 ^ 4 := Nat.pow_le_pow_right (by decide) g.short

/-- An IPv4 address in dotted decimal form. -/
structure Dotted where
  a : Fin 256
  b : Fin 256
  c : Fin 256
  d : Fin 256

def Dotted.spell (t : Dotted) : List Char :=
  decimal t.a ++ '.' :: (decimal t.b ++ '.' :: (decimal t.c ++ '.' :: decimal t.d))

def Dotted.value (t : Dotted) : Nat := ofDigits 256 [t.a, t.b, t.c, t.d]

/-- The two groups that a dotted tail stands for. -/
def Dotted.words (t : Dotted) : List Nat := [t.value / 65536, t.value % 65536]

def tailWords : Option Dotted → List Nat
  | none => []
  | some t => t.words

/-- A textual form of an IPv6 address: all groups, or with the zero groups at `::` left out. -/
inductive Address6 where
  | full (groups : List HexGroup) (tail : Option Dotted)
      (h : groups.length + (tailWords tail).length = 8)
  | compressed (left right : List HexGroup) (tail : Option Dotted)
      (h : left.length + right.length + (tailWords tail).length ≤ 7)

/-- Groups with a colon between each two. -/
def join (groups : List (List Char)) : List Char := [':'].intercalate groups

/-- The groups as they are written, with the tail. -/
def written (groups : List HexGroup) (tail : Option Dotted) : List (List Char) :=
  groups.map HexGroup.digits ++ tail.toList.map Dotted.spell

namespace Address6

def spell : Address6 → List Char
  | full groups tail _ => join (written groups tail)
  | compressed left right tail _ =>
    join (left.map HexGroup.digits) ++ ':' :: ':' :: join (written right tail)

/-- The eight groups, with the zeros that `::` stands for. -/
def words : Address6 → List Nat
  | full groups tail _ => groups.map HexGroup.value ++ tailWords tail
  | compressed left right tail _ =>
    left.map HexGroup.value ++
      List.replicate (8 - (left.length + right.length + (tailWords tail).length)) 0 ++
      right.map HexGroup.value ++ tailWords tail

/-- The address. -/
def value (t : Address6) : Nat := ofDigits 65536 t.words

theorem words_length (t : Address6) : t.words.length = 8 := by
  cases t with
  | full groups tail h => simpa [words] using h
  | compressed left right tail h => simp [words]; omega

end Address6

theorem Dotted.value_eq (t : Dotted) :
    t.value = ((t.a * 256 + t.b) * 256 + t.c) * 256 + t.d := by
  simp only [Dotted.value, ofDigits_cons, ofDigits_nil, List.length_cons, List.length_nil]
  omega

theorem Dotted.value_lt (t : Dotted) : t.value < 2 ^ 32 := by
  have ha := t.a.isLt
  have hb := t.b.isLt
  have hc := t.c.isLt
  have hd := t.d.isLt
  rw [t.value_eq]
  omega

theorem tailWords_lt (tail : Option Dotted) : ∀ w ∈ tailWords tail, w < 65536 := by
  cases tail with
  | none => simp [tailWords]
  | some t =>
    have hlt := t.value_lt
    intro w hw
    simp only [tailWords, Dotted.words, List.mem_cons, List.not_mem_nil, or_false] at hw
    rcases hw with rfl | rfl <;> omega

theorem Address6.words_lt (t : Address6) : ∀ w ∈ t.words, w < 65536 := by
  have hgroups : ∀ groups : List HexGroup, ∀ w ∈ groups.map HexGroup.value, w < 65536 := by
    intro groups w hw
    obtain ⟨g, -, rfl⟩ := List.mem_map.mp hw
    exact g.value_lt
  intro w hw
  cases t with
  | full groups tail h =>
    simp only [words, List.mem_append] at hw
    rcases hw with hw | hw
    · exact hgroups _ w hw
    · exact tailWords_lt tail w hw
  | compressed left right tail h =>
    simp only [words, List.mem_append] at hw
    rcases hw with ((hw | hw) | hw) | hw
    · exact hgroups _ w hw
    · rw [List.eq_of_mem_replicate hw]; decide
    · exact hgroups _ w hw
    · exact tailWords_lt tail w hw

end KNex.Core.InternetAddress
