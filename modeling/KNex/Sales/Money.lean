import KNex.Core.Decimal
import Mathlib.Algebra.BigOperators.Group.List.Basic
import Mathlib.Algebra.Order.Field.Rat
import Mathlib.Tactic.FieldSimp
import Mathlib.Tactic.Ring

/-!
# Exact money amounts (`modules/sales/src/server.ts`)

A revenue value travels as a decimal text. `parseAmount` reads it into unbounded units and a scale,
`addAmounts` adds two amounts on the larger of their scales, `formatAmount` prints an amount with
as many fraction digits as its scale says, padding values below one.

Results:
* `formatAmount_parseAmount`: what is printed for a text that was read is the text itself, but for
  the sign of a negative zero.
* `value_addAmounts`: addition is the addition of the rationals that the amounts denote.
* `DecimalAmount` is a commutative monoid, so a fold has one result for every order and grouping.
-/
namespace KNex.Sales.Money
open KNex.Core

/-! ## Texts -/

/-- mirrors modules/sales/src/server.ts:816 (`-?(?:0|[1-9][0-9]*)`, without the sign) -/
def isWhole (w : List Char) : Bool :=
  w == ['0'] || (w != [] && w.head? != some '0' && w.all Char.isDigit)

def isFraction (f : List Char) : Bool := f != [] && f.all Char.isDigit

/-- The text without a leading minus sign. -/
def unsigned : List Char → List Char
  | '-' :: text => text
  | text => text

def isNegative (text : List Char) : Bool := text.head? == some '-'

/-- mirrors modules/sales/src/server.ts:816 (`decimalPattern`) -/
def decimalPattern (text : List Char) : Bool :=
  match (unsigned text).splitOn '.' with
  | [w] => isWhole w
  | [w, f] => isWhole w && isFraction f
  | _ => false

/-! ## Amounts -/

/-- mirrors modules/sales/src/server.ts:1290-1293 -/
@[ext] structure DecimalAmount where
  units : Int
  scale : Nat
  deriving DecidableEq, Repr

inductive AmountError where
  /-- `Sales revenue values must be canonical decimals.` -/
  | notCanonical
  /-- `Sales revenue scale is too large.` -/
  | scaleTooLarge
  deriving DecidableEq, Repr

/-- mirrors modules/sales/src/server.ts:1549-1556 -/
def parseAmount (text : List Char) : Except AmountError DecimalAmount :=
  if ¬ decimalPattern text then .error .notCanonical
  else
    let parts := (unsigned text).splitOn '.'
    let whole := parts[0]?.getD []
    let fraction := parts[1]?.getD []
    if fraction.length > 18 then .error .scaleTooLarge
    else
      .ok { units := digitsValue (whole ++ fraction) * (if isNegative text then -1 else 1),
            scale := fraction.length }

/-- mirrors modules/sales/src/server.ts:1558-1564 -/
def addAmounts (left right : DecimalAmount) : DecimalAmount :=
  let scale := max left.scale right.scale
  { units := left.units * 10 ^ (scale - left.scale) + right.units * 10 ^ (scale - right.scale),
    scale }

/-- mirrors modules/sales/src/server.ts:1566-1572 -/
def formatAmount (amount : DecimalAmount) : List Char :=
  let sign := if amount.units < 0 then ['-'] else []
  let digits := padStart (amount.scale + 1) (Nat.toDigits 10 amount.units.natAbs)
  if amount.scale = 0 then sign ++ digits
  else
    sign ++ (digits.take (digits.length - amount.scale) ++
      '.' :: digits.drop (digits.length - amount.scale))

/-! ## What a text and an amount denote -/

/-- The digits behind the point: each is worth a tenth of the one before it. -/
def fractionValue : List Char → ℚ
  | [] => 0
  | c :: cs => (digitOf c + fractionValue cs) / 10

def wholeText (text : List Char) : List Char := ((unsigned text).splitOn '.')[0]?.getD []

def fractionText (text : List Char) : List Char := ((unsigned text).splitOn '.')[1]?.getD []

/-- The rational that a decimal text denotes. -/
def textValue (text : List Char) : ℚ :=
  (if isNegative text then -1 else 1) * (digitsValue (wholeText text) + fractionValue (fractionText text))

def DecimalAmount.value (a : DecimalAmount) : ℚ := a.units / 10 ^ a.scale

/-! ## The shape of a text that is read -/

/-- A text without a sign, from its parts. -/
def joined (w f : List Char) : List Char := if f = [] then w else w ++ '.' :: f

theorem allDigits_of_isWhole {w : List Char} (h : isWhole w = true) : AllDigits w := by
  simp only [isWhole, Bool.or_eq_true, Bool.and_eq_true, List.all_eq_true, beq_iff_eq] at h
  rcases h with h | h
  · subst h
    exact allDigits_zeros 1
  · exact h.2

theorem ne_nil_of_isWhole {w : List Char} (h : isWhole w = true) : w ≠ [] := by
  rintro rfl
  simp [isWhole] at h

/-- A whole part of more than the digit zero has no leading zero. -/
theorem head_of_isWhole {w : List Char} (h : isWhole w = true) (hne : w ≠ ['0']) :
    w.head? ≠ some '0' := by
  simp only [isWhole, Bool.or_eq_true, Bool.and_eq_true, beq_iff_eq, bne_iff_ne, hne,
    false_or] at h
  exact h.1.2

theorem not_mem_of_allDigits {l : List Char} {c : Char} (hc : c.isDigit = false)
    (h : AllDigits l) : c ∉ l := fun hmem => by
  rw [h c hmem] at hc
  cases hc

theorem splitOn_joined {w f : List Char} (hw : AllDigits w) (hf : AllDigits f) :
    (joined w f).splitOn '.' = if f = [] then [w] else [w, f] := by
  have hw' := not_mem_of_allDigits (c := '.') rfl hw
  have hf' := not_mem_of_allDigits (c := '.') rfl hf
  unfold joined
  split
  · exact List.splitOn_eq_singleton hw'
  · rw [List.splitOn_append_cons_self_of_not_mem hw', List.splitOn_eq_singleton hf']

theorem parts_joined {w f : List Char} (hw : AllDigits w) (hf : AllDigits f) :
    ((joined w f).splitOn '.')[0]?.getD [] = w ∧ ((joined w f).splitOn '.')[1]?.getD [] = f := by
  rw [splitOn_joined hw hf]
  split
  · rename_i hnil
    exact ⟨rfl, hnil.symm⟩
  · exact ⟨rfl, rfl⟩

/-- The parts that the pattern finds in a text. -/
structure Parts (text w f : List Char) : Prop where
  whole : isWhole w = true
  fraction : AllDigits f
  unsigned : unsigned text = joined w f

theorem decimalPattern_iff (text : List Char) :
    decimalPattern text = true ↔ ∃ w f, Parts text w f := by
  constructor
  · intro h
    unfold decimalPattern at h
    have hjoin : ['.'].intercalate ((unsigned text).splitOn '.') = unsigned text :=
      List.intercalate_splitOn '.'
    split at h
    · rename_i w hsplit
      rw [hsplit] at hjoin
      refine ⟨w, [], h, ?_, ?_⟩
      · intro c hc
        cases hc
      · simpa [joined, List.intercalate] using hjoin.symm
    · rename_i w f hsplit
      rw [hsplit] at hjoin
      simp only [isFraction, Bool.and_eq_true, bne_iff_ne, List.all_eq_true] at h
      refine ⟨w, f, h.1, h.2.2, ?_⟩
      rw [joined, if_neg h.2.1, ← hjoin]
      simp [List.intercalate]
    · cases h
  · rintro ⟨w, f, hparts⟩
    unfold decimalPattern
    rw [hparts.unsigned, splitOn_joined (allDigits_of_isWhole hparts.whole) hparts.fraction]
    by_cases hf : f = []
    · simp [hf, hparts.whole]
    · have hdigits : f.all Char.isDigit = true := List.all_eq_true.mpr hparts.fraction
      simp [hf, hparts.whole, isFraction, hdigits]

def signOf (text : List Char) : Int := if isNegative text then -1 else 1

/-- **What `parseAmount` accepts and returns.** -/
theorem parseAmount_eq_ok {text : List Char} {a : DecimalAmount} :
    parseAmount text = .ok a ↔ ∃ w f, Parts text w f ∧ f.length ≤ 18 ∧
      a = ⟨digitsValue (w ++ f) * signOf text, f.length⟩ := by
  have hval : ∀ {w f}, Parts text w f → parseAmount text =
      if f.length > 18 then .error .scaleTooLarge
      else .ok ⟨digitsValue (w ++ f) * signOf text, f.length⟩ := by
    intro w f hparts
    obtain ⟨h₀, h₁⟩ := parts_joined (allDigits_of_isWhole hparts.whole) hparts.fraction
    unfold parseAmount
    rw [if_neg (not_not_intro ((decimalPattern_iff text).mpr ⟨w, f, hparts⟩)), hparts.unsigned]
    dsimp only
    rw [h₀, h₁]
    rfl
  constructor
  · intro h
    have hpattern : decimalPattern text = true := by
      by_contra hno
      simp [parseAmount, hno] at h
    obtain ⟨w, f, hparts⟩ := (decimalPattern_iff text).mp hpattern
    rw [hval hparts] at h
    split at h
    · cases h
    · rename_i hlen
      exact ⟨w, f, hparts, by omega, (Except.ok.inj h).symm⟩
  · rintro ⟨w, f, hparts, hlen, rfl⟩
    rw [hval hparts, if_neg (by omega)]

/-! ## Printing -/

theorem isNegative_joined {w f : List Char} (hw : isWhole w = true) :
    isNegative (joined w f) = false := by
  obtain ⟨c, cs, rfl⟩ := List.exists_cons_of_ne_nil (ne_nil_of_isWhole hw)
  have hc : c ≠ '-' := by
    intro heq
    have := allDigits_of_isWhole hw c List.mem_cons_self
    rw [heq] at this
    exact absurd this (by decide)
  unfold joined
  split <;> simp [isNegative, hc]

theorem unsigned_of_not_negative {text : List Char} (h : isNegative text = false) :
    unsigned text = text := by
  unfold unsigned
  split
  · simp [isNegative] at h
  · rfl

theorem parts_joined_self {w f : List Char} (hw : isWhole w = true) (hf : AllDigits f) :
    Parts (joined w f) w f :=
  ⟨hw, hf, unsigned_of_not_negative (isNegative_joined hw)⟩

theorem parts_negative {w f : List Char} (hw : isWhole w = true) (hf : AllDigits f) :
    Parts ('-' :: joined w f) w f := ⟨hw, hf, rfl⟩

/-- The digits of a canonical text are those of its units, padded. -/
theorem padStart_digits {w f : List Char} (hw : isWhole w = true) (hf : AllDigits f) :
    padStart (f.length + 1) (Nat.toDigits 10 (digitsValue (w ++ f))) = w ++ f := by
  have hdigits := (allDigits_of_isWhole hw).append hf
  have hne : w ++ f ≠ [] := List.append_ne_nil_of_left_ne_nil (ne_nil_of_isWhole hw) f
  by_cases hzero : w = ['0']
  · have hlen : f.length + 1 = (w ++ f).length := by
      rw [hzero]
      simp
    rw [hlen]
    exact padStart_toDigits hdigits hne
  · have hhead : (w ++ f).head? ≠ some '0' := by
      rw [List.head?_append_of_ne_nil _ (ne_nil_of_isWhole hw)]
      exact head_of_isWhole hw hzero
    rw [toDigits_digitsValue hdigits hne hhead]
    apply padStart_of_le
    have := List.length_pos_iff.mpr (ne_nil_of_isWhole hw)
    rw [List.length_append]
    omega

theorem formatAmount_units {w f : List Char} (hw : isWhole w = true) (hf : AllDigits f)
    {units : Int} (hunits : units.natAbs = digitsValue (w ++ f)) :
    formatAmount ⟨units, f.length⟩ = (if units < 0 then ['-'] else []) ++ joined w f := by
  unfold formatAmount
  dsimp only
  rw [hunits, padStart_digits hw hf]
  by_cases hnil : f = []
  · simp [hnil, joined]
  · have hlen : f.length ≠ 0 := by simpa using hnil
    have htake : (w ++ f).length - f.length = w.length := by simp
    rw [if_neg hlen, htake, List.take_left, List.drop_left, joined, if_neg hnil]

theorem natAbs_signed (n : Nat) (text : List Char) : (n * signOf text : Int).natAbs = n := by
  unfold signOf
  split <;> simp

/-- Only a nonzero amount of a negative text is below zero. -/
theorem negative_units (n : Nat) (text : List Char) :
    (n * signOf text : Int) < 0 ↔ isNegative text = true ∧ n ≠ 0 := by
  unfold signOf
  split
  · rename_i h
    simp only [h, true_and]
    omega
  · rename_i h
    simp only [h, Bool.false_eq_true, false_and, iff_false]
    omega

/-- **A text that is read prints as itself, but for the sign of a negative zero.** -/
theorem formatAmount_parseAmount {text : List Char} {a : DecimalAmount}
    (h : parseAmount text = .ok a) :
    formatAmount a = if a.units < 0 then '-' :: unsigned text else unsigned text := by
  obtain ⟨w, f, hparts, -, rfl⟩ := parseAmount_eq_ok.mp h
  rw [formatAmount_units hparts.whole hparts.fraction (natAbs_signed _ _), hparts.unsigned]
  split <;> rfl

/-- What is printed is read as the same amount. -/
theorem parseAmount_formatAmount {text : List Char} {a : DecimalAmount}
    (h : parseAmount text = .ok a) : parseAmount (formatAmount a) = .ok a := by
  rw [formatAmount_parseAmount h]
  obtain ⟨w, f, hparts, hlen, rfl⟩ := parseAmount_eq_ok.mp h
  rw [hparts.unsigned]
  apply parseAmount_eq_ok.mpr
  refine ⟨w, f, ?_, hlen, ?_⟩
  · split
    · exact parts_negative hparts.whole hparts.fraction
    · exact parts_joined_self hparts.whole hparts.fraction
  · ext
    · dsimp only
      split
      · rename_i hneg
        rw [negative_units] at hneg
        have hsign : signOf text = signOf ('-' :: joined w f) := by
          unfold signOf
          rw [hneg.1]
          rfl
        rw [hsign]
      · rename_i hnot
        rw [negative_units] at hnot
        have hself : signOf (joined w f) = 1 := by
          simp [signOf, isNegative_joined hparts.whole]
        rw [hself]
        by_cases hzero : digitsValue (w ++ f) = 0
        · simp [hzero]
        · have hpos : isNegative text = false := by
            simpa [hzero] using hnot
          simp [signOf, hpos]
    · rfl

/-! ## The rational that is denoted -/

theorem fractionValue_eq (f : List Char) :
    fractionValue f = (digitsValue f : ℚ) / 10 ^ f.length := by
  induction f with
  | nil => simp [fractionValue]
  | cons c f ih =>
    rw [fractionValue, ih, digitsValue_cons, List.length_cons]
    push_cast
    field_simp
    ring

theorem texts_of_parts {text w f : List Char} (h : Parts text w f) :
    wholeText text = w ∧ fractionText text = f := by
  unfold wholeText fractionText
  rw [h.unsigned]
  exact parts_joined (allDigits_of_isWhole h.whole) h.fraction

theorem value_parseAmount {text : List Char} {a : DecimalAmount} (h : parseAmount text = .ok a) :
    a.value = textValue text ∧ a.scale = (fractionText text).length := by
  obtain ⟨w, f, hparts, -, rfl⟩ := parseAmount_eq_ok.mp h
  obtain ⟨hw, hf⟩ := texts_of_parts hparts
  refine ⟨?_, by rw [hf]⟩
  unfold DecimalAmount.value textValue
  rw [hw, hf, fractionValue_eq, digitsValue_append]
  dsimp only
  unfold signOf
  split <;> push_cast <;> field_simp

/-! ## Addition -/

theorem value_addAmounts (a b : DecimalAmount) : (addAmounts a b).value = a.value + b.value := by
  have hpow : ∀ {s t : Nat}, s ≤ t → (10 : ℚ) ^ t = 10 ^ (t - s) * 10 ^ s := fun h => by
    rw [← pow_add, Nat.sub_add_cancel h]
  have ha := hpow (le_max_left a.scale b.scale)
  have hb := hpow (le_max_right a.scale b.scale)
  have hleft : a.value = a.units * 10 ^ (max a.scale b.scale - a.scale) /
      10 ^ max a.scale b.scale := by
    rw [DecimalAmount.value, ha]
    field_simp
  have hright : b.value = b.units * 10 ^ (max a.scale b.scale - b.scale) /
      10 ^ max a.scale b.scale := by
    rw [DecimalAmount.value, hb]
    field_simp
  rw [hleft, hright, ← add_div]
  simp [DecimalAmount.value, addAmounts]

/-- An amount is determined by its scale and what it denotes. -/
theorem DecimalAmount.ext_value {a b : DecimalAmount} (hscale : a.scale = b.scale)
    (hvalue : a.value = b.value) : a = b := by
  obtain ⟨units, scale⟩ := a
  obtain ⟨units', scale'⟩ := b
  obtain rfl : scale = scale' := hscale
  have hunits : (units : ℚ) = units' := by
    have hne : (10 : ℚ) ^ scale ≠ 0 := pow_ne_zero scale (by norm_num)
    exact (div_left_inj' hne).mp hvalue
  rw [Int.cast_inj.mp hunits]

instance : Add DecimalAmount := ⟨addAmounts⟩

instance : Zero DecimalAmount := ⟨⟨0, 0⟩⟩

instance : AddCommMonoid DecimalAmount where
  add_assoc a b c := DecimalAmount.ext_value (max_assoc ..) (by
    show (addAmounts (addAmounts a b) c).value = (addAmounts a (addAmounts b c)).value
    simp only [value_addAmounts, add_assoc])
  add_comm a b := DecimalAmount.ext_value (max_comm ..) (by
    show (addAmounts a b).value = (addAmounts b a).value
    rw [value_addAmounts, value_addAmounts, add_comm])
  zero_add a := DecimalAmount.ext_value (Nat.zero_max _) (by
    show (addAmounts ⟨0, 0⟩ a).value = a.value
    rw [value_addAmounts]
    simp [DecimalAmount.value])
  add_zero a := DecimalAmount.ext_value (Nat.max_zero _) (by
    show (addAmounts a ⟨0, 0⟩).value = a.value
    rw [value_addAmounts]
    simp [DecimalAmount.value])
  nsmul := nsmulRec

/-- A way to add up a list: one amount, or two parts added. -/
inductive Grouping where
  | one (amount : DecimalAmount)
  | both (left right : Grouping)

namespace Grouping

def amounts : Grouping → List DecimalAmount
  | one a => [a]
  | both l r => l.amounts ++ r.amounts

def total : Grouping → DecimalAmount
  | one a => a
  | both l r => addAmounts l.total r.total

theorem total_eq (g : Grouping) : g.total = g.amounts.sum := by
  induction g with
  | one a => simp [total, amounts]
  | both l r ihl ihr =>
    rw [amounts, List.sum_append, ← ihl, ← ihr]
    rfl

theorem total_perm {g g' : Grouping} (h : g.amounts.Perm g'.amounts) : g.total = g'.total := by
  rw [total_eq, total_eq]
  exact h.sum_eq

end Grouping

/-- **Money arithmetic is exact.** What is printed for a text that was read denotes the same
rational with as many fraction digits and is read as the same amount; addition is that of the
rationals, on the larger scale; a list of amounts has one total, however it is added up. -/
theorem money_exact :
    (∀ text a, parseAmount text = .ok a →
      textValue (formatAmount a) = textValue text ∧
      (fractionText (formatAmount a)).length = (fractionText text).length ∧
      parseAmount (formatAmount a) = .ok a) ∧
    (∀ a b, (addAmounts a b).value = a.value + b.value ∧
      (addAmounts a b).scale = max a.scale b.scale) ∧
    (∀ g g' : Grouping, g.amounts.Perm g'.amounts → g.total = g'.total) := by
  refine ⟨fun text a h => ?_, fun a b => ⟨value_addAmounts a b, rfl⟩, fun _ _ => Grouping.total_perm⟩
  have hagain := parseAmount_formatAmount h
  obtain ⟨hvalue, hscale⟩ := value_parseAmount h
  obtain ⟨hvalue', hscale'⟩ := value_parseAmount hagain
  exact ⟨by rw [← hvalue, hvalue'], by rw [← hscale, hscale'], hagain⟩

/-- A debt of five cents, read and printed. -/
theorem money_exact_cents :
    parseAmount ['-', '0', '.', '0', '5'] = .ok ⟨-5, 2⟩ ∧
      parseAmount (formatAmount ⟨-5, 2⟩) = .ok ⟨-5, 2⟩ :=
  ⟨by decide, (money_exact.1 _ _ (by decide : parseAmount ['-', '0', '.', '0', '5'] = _)).2.2⟩

example : formatAmount ⟨-5, 2⟩ = ['-', '0', '.', '0', '5'] := by decide

end KNex.Sales.Money
