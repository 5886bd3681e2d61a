import Mathlib

/-!
# Decimal numerals

The numerals of a fixed width are in bijection with the numbers below a power of ten
(`digitsValue_lt`, `digitsValue_injective`), so a number printed without leading zeros and padded to
the width of the numeral it was read from is that numeral again (`padStart_toDigits`); a numeral
that has no leading zero needs no padding (`toDigits_digitsValue`).
-/
namespace KNex.Core

/-- The number that a text of digits denotes. -/
def digitsValue (digits : List Char) : Nat := Nat.ofDigitChars 10 digits 0

/-- `padStart` with zeros. -/
def padStart (width : Nat) (digits : List Char) : List Char :=
  List.replicate (width - digits.length) '0' ++ digits

def AllDigits (digits : List Char) : Prop := ∀ c ∈ digits, c.isDigit = true

/-- The number that one digit denotes. -/
def digitOf (c : Char) : Nat := c.toNat - '0'.toNat

@[simp] theorem digitsValue_nil : digitsValue [] = 0 := rfl

theorem digitsValue_append (l m : List Char) :
    digitsValue (l ++ m) = digitsValue l * 10 ^ m.length + digitsValue m := by
  unfold digitsValue
  rw [Nat.ofDigitChars_append, Nat.ofDigitChars_eq_ofDigitChars_zero]
  ring

theorem digitsValue_cons (c : Char) (l : List Char) :
    digitsValue (c :: l) = digitOf c * 10 ^ l.length + digitsValue l := by
  rw [← List.singleton_append, digitsValue_append]
  simp [digitsValue, Nat.ofDigitChars_cons, digitOf]

theorem digitsValue_zeros (n : Nat) (l : List Char) :
    digitsValue (List.replicate n '0' ++ l) = digitsValue l := by
  rw [digitsValue_append]
  simp [digitsValue]

theorem digitOf_lt {c : Char} (h : c.isDigit = true) : digitOf c < 10 := by
  simp only [Char.isDigit, Bool.and_eq_true, decide_eq_true_eq, UInt32.le_iff_toNat_le] at h
  have h9 : c.toNat ≤ 57 := h.2
  show c.toNat - 48 < 10
  omega

theorem digitOf_injective {c d : Char} (hc : c.isDigit = true) (hd : d.isDigit = true)
    (h : digitOf c = digitOf d) : c = d := by
  simp only [Char.isDigit, Bool.and_eq_true, decide_eq_true_eq, UInt32.le_iff_toNat_le] at hc hd
  have hc0 : 48 ≤ c.toNat := hc.1
  have hd0 : 48 ≤ d.toNat := hd.1
  have hsub : c.toNat - 48 = d.toNat - 48 := h
  exact Char.ext (UInt32.toNat_inj.mp (show c.toNat = d.toNat by omega))

theorem AllDigits.tail {c : Char} {l : List Char} (h : AllDigits (c :: l)) : AllDigits l :=
  fun d hd => h d (List.mem_cons_of_mem c hd)

theorem AllDigits.append {l m : List Char} (hl : AllDigits l) (hm : AllDigits m) :
    AllDigits (l ++ m) := by
  intro c hc
  rcases List.mem_append.mp hc with h | h
  · exact hl c h
  · exact hm c h

theorem allDigits_zeros (n : Nat) : AllDigits (List.replicate n '0') := by
  intro c hc
  rw [List.eq_of_mem_replicate hc]
  rfl

theorem allDigits_toDigits (n : Nat) : AllDigits (Nat.toDigits 10 n) := by
  intro c hc
  exact Nat.isDigit_of_mem_toDigits (by decide) (by decide) hc

theorem digitsValue_lt {l : List Char} (h : AllDigits l) : digitsValue l < 10 ^ l.length := by
  induction l with
  | nil => simp
  | cons c l ih =>
    have hl := ih h.tail
    have hc := digitOf_lt (h c List.mem_cons_self)
    rw [digitsValue_cons, List.length_cons, pow_succ]
    have hmul : digitOf c * 10 ^ l.length ≤ 9 * 10 ^ l.length :=
      Nat.mul_le_mul_right _ (by omega)
    omega

/-- A numeral is determined by its width and its number. -/
theorem digitsValue_injective : ∀ {l m : List Char}, AllDigits l → AllDigits m →
    l.length = m.length → digitsValue l = digitsValue m → l = m
  | [], [], _, _, _, _ => rfl
  | [], _ :: _, _, _, hlen, _ => by simp at hlen
  | _ :: _, [], _, _, hlen, _ => by simp at hlen
  | c :: l, d :: m, hl, hm, hlen, hv => by
    have hlen' : l.length = m.length := by simpa using hlen
    have hlt := digitsValue_lt hl.tail
    have hlt' := digitsValue_lt hm.tail
    rw [digitsValue_cons, digitsValue_cons, hlen'] at hv
    rw [hlen'] at hlt
    have hpos : 0 < 10 ^ m.length := Nat.pow_pos (by decide)
    have hhead : digitOf c = digitOf d := by
      have h₁ := congrArg (· / 10 ^ m.length) hv
      simpa [Nat.add_comm _ (digitsValue _), Nat.add_mul_div_right _ _ hpos, Nat.div_eq_of_lt hlt,
        Nat.div_eq_of_lt hlt'] using h₁
    rw [hhead] at hv
    rw [digitOf_injective (hl c List.mem_cons_self) (hm d List.mem_cons_self) hhead,
      digitsValue_injective hl.tail hm.tail hlen' (by omega)]

@[simp] theorem digitsValue_toDigits (n : Nat) : digitsValue (Nat.toDigits 10 n) = n :=
  Nat.ofDigitChars_toDigits (by decide) (by decide)

theorem length_padStart {width : Nat} {l : List Char} (h : l.length ≤ width) :
    (padStart width l).length = width := by
  unfold padStart
  rw [List.length_append, List.length_replicate]
  omega

theorem padStart_of_le {width : Nat} {l : List Char} (h : width ≤ l.length) :
    padStart width l = l := by
  unfold padStart
  rw [Nat.sub_eq_zero_of_le h]
  rfl

/-- **A numeral is its number, printed and padded to its width.** -/
theorem padStart_toDigits {l : List Char} (h : AllDigits l) (hne : l ≠ []) :
    padStart l.length (Nat.toDigits 10 (digitsValue l)) = l := by
  have hpos : 0 < l.length := List.length_pos_iff.mpr hne
  have hlen : (Nat.toDigits 10 (digitsValue l)).length ≤ l.length :=
    (Nat.length_toDigits_le_iff (by decide) hpos).mpr (digitsValue_lt h)
  apply digitsValue_injective
  · exact (allDigits_zeros _).append (allDigits_toDigits _)
  · exact h
  · exact length_padStart hlen
  · unfold padStart
    rw [digitsValue_zeros, digitsValue_toDigits]

/-- A numeral without a leading zero is what its number is printed as. -/
theorem toDigits_digitsValue {l : List Char} (h : AllDigits l) (hne : l ≠ [])
    (hhead : l.head? ≠ some '0') : Nat.toDigits 10 (digitsValue l) = l := by
  cases l with
  | nil => exact absurd rfl hne
  | cons c l =>
    have hc : 0 < digitOf c := by
      apply Nat.pos_of_ne_zero
      intro hzero
      have heq : c = '0' := digitOf_injective (h c List.mem_cons_self) rfl hzero
      exact hhead (by rw [heq]; rfl)
    have hbig : 10 ^ l.length ≤ digitsValue (c :: l) := by
      rw [digitsValue_cons]
      exact le_trans (Nat.le_mul_of_pos_left _ hc) (Nat.le_add_right _ _)
    have hlong : (c :: l).length ≤ (Nat.toDigits 10 (digitsValue (c :: l))).length := by
      rw [List.length_cons]
      by_contra hshort
      cases l with
      | nil =>
        have := Nat.length_toDigits_pos (b := 10) (n := digitsValue [c])
        simp at hshort
      | cons d l =>
        have hlt := (Nat.length_toDigits_le_iff (b := 10) (n := digitsValue (c :: d :: l))
          (k := (d :: l).length) (by decide) (by simp)).mp (by omega)
        omega
    have hpad := padStart_toDigits h hne
    rwa [padStart_of_le hlong] at hpad

end KNex.Core
