import KNex.Contracts.Semver
import KNex.Core.InternetAddress

/-!
# Precedence of exact versions and Semantic Versioning

Section 11 of Semantic Versioning 2.0.0 orders versions as data (`SemVer`): three numbers and a
list of identifiers, each a number or a text. The comparison of the source never makes a number of
a text: it compares lengths and then characters, which on numbers without leading zeros is the
order of their values (`numericRank_compare`).

`exactSemver_precedence`: on the texts that `ExactSemverSchema` accepts the comparison is the
precedence of the versions they denote. It is so transitive and swaps its sign with its arguments,
and it answers `0` exactly for texts that differ in their build metadata only.
-/
namespace KNex.Contracts

open KNex.Core KNex.Core.InternetAddress

/-! ## Semantic Versioning 2.0.0, section 11 -/

inductive Identifier where
  | numeric (value : Nat)
  | alphanumeric (text : List Char)
  deriving DecidableEq

structure SemVer where
  major : Nat
  minor : Nat
  patch : Nat
  prerelease : List Identifier
  deriving DecidableEq

/-- Numbers numerically, texts in ASCII sort order, and numbers below texts. -/
def Identifier.precedence : Identifier → Identifier → Ordering
  | .numeric a, .numeric b => compare a b
  | .numeric _, .alphanumeric _ => .lt
  | .alphanumeric _, .numeric _ => .gt
  | .alphanumeric s, .alphanumeric t => compare (s.map Char.toNat) (t.map Char.toNat)

/-- From left to right until a difference is found; a larger set of identifiers is higher if all
the preceding ones are equal. -/
def identifiersPrecedence : List Identifier → List Identifier → Ordering
  | [], [] => .eq
  | [], _ :: _ => .lt
  | _ :: _, [] => .gt
  | a :: as, b :: bs => (a.precedence b).then (identifiersPrecedence as bs)

/-- A prerelease is lower than the version itself. -/
def prereleasePrecedence : List Identifier → List Identifier → Ordering
  | [], [] => .eq
  | [], _ :: _ => .gt
  | _ :: _, [] => .lt
  | as, bs => identifiersPrecedence as bs

def SemVer.precedence (v w : SemVer) : Ordering :=
  (compare v.major w.major).then ((compare v.minor w.minor).then
    ((compare v.patch w.patch).then (prereleasePrecedence v.prerelease w.prerelease)))

/-! ## What a text denotes -/

/-- The value of decimal digits. -/
def digitsValue (cs : List Char) : Nat := ofDigits 10 (cs.map fun c => c.toNat - 48)

def identifierOf (cs : List Char) : Identifier :=
  if cs.all Char.isDigit then .numeric (digitsValue cs) else .alphanumeric cs

/-- A text without its build metadata. -/
def withoutBuild (value : String) : List Char := value.toList.takeWhile (· != '+')

/-- The version a text denotes: `major.minor.patch`, then `-` and the prerelease, then `+` and the
build, which has no part in precedence. -/
def semverOf (value : String) : SemVer :=
  let core := splitChar '.' ((withoutBuild value).takeWhile (· != '-'))
  let prerelease := (withoutBuild value).dropWhile (· != '-')
  { major := digitsValue (core.getD 0 [])
    minor := digitsValue (core.getD 1 [])
    patch := digitsValue (core.getD 2 [])
    prerelease := if prerelease.isEmpty then [] else
      (splitChar '.' prerelease.tail).map identifierOf }

/-! ## Digits -/

theorem isDigit_toNat {c : Char} (h : c.isDigit = true) : 48 ≤ c.toNat ∧ c.toNat ≤ 57 := by
  simpa [Char.isDigit, UInt32.le_iff_toNat_le] using h

/-- A number of the grammar: digits, the first of them not `0` unless it is alone. -/
structure Numeric (cs : List Char) : Prop where
  nonempty : cs ≠ []
  digits : ∀ c ∈ cs, c.isDigit = true
  noLeadingZero : ∀ rest, cs = '0' :: rest → rest = []

theorem numeric_iff {cs : List Char} : isNumericIdentifier cs = true ↔ Numeric cs := by
  constructor
  · intro h
    unfold isNumericIdentifier at h
    split at h
    · cases h
    · rename_i c cs
      simp only [Bool.and_eq_true, Bool.or_eq_true, List.all_eq_true, bne_iff_ne,
        List.isEmpty_iff] at h
      refine ⟨List.cons_ne_nil c cs, ?_, ?_⟩
      · intro d hd
        rcases List.mem_cons.mp hd with rfl | hd
        · exact h.1.1
        · exact h.1.2 d hd
      · intro rest hrest
        cases hrest
        exact h.2.resolve_left fun hne => hne rfl
  · intro h
    obtain ⟨c, cs, rfl⟩ := List.exists_cons_of_ne_nil h.nonempty
    simp only [isNumericIdentifier, Bool.and_eq_true, Bool.or_eq_true, List.all_eq_true,
      bne_iff_ne, List.isEmpty_iff]
    refine ⟨⟨h.digits c List.mem_cons_self, fun d hd => h.digits d (List.mem_cons_of_mem c hd)⟩, ?_⟩
    by_cases hc : c = '0'
    · subst hc
      exact .inr (h.noLeadingZero cs rfl)
    · exact .inl hc

theorem digitsValue_cons (c : Char) (cs : List Char) :
    digitsValue (c :: cs) = (c.toNat - 48) * 10 ^ cs.length + digitsValue cs := by
  unfold digitsValue
  rw [List.map_cons, ofDigits_cons, List.length_map]

theorem digitsValue_lt {cs : List Char} (h : ∀ c ∈ cs, c.isDigit = true) :
    digitsValue cs < 10 ^ cs.length := by
  have hlt := ofDigits_lt (b := 10) (by omega) (l := cs.map fun c => c.toNat - 48) (by
    intro d hd
    obtain ⟨c, hc, rfl⟩ := List.mem_map.mp hd
    have := isDigit_toNat (h c hc)
    omega)
  rwa [List.length_map] at hlt

/-- Texts of digits of one length compare as their values. -/
theorem compare_digits : ∀ {as bs : List Char}, as.length = bs.length →
    (∀ c ∈ as, c.isDigit = true) → (∀ c ∈ bs, c.isDigit = true) →
    compare (as.map Char.toNat) (bs.map Char.toNat) = compare (digitsValue as) (digitsValue bs)
  | [], [], _, _, _ => rfl
  | a :: as, b :: bs, hlen, ha, hb => by
    rw [List.forall_mem_cons] at ha hb
    have hlen' : as.length = bs.length := by simpa using hlen
    have ih := compare_digits hlen' ha.2 hb.2
    have hda := isDigit_toNat ha.1
    have hdb := isDigit_toNat hb.1
    have hva := digitsValue_lt ha.2
    have hvb := digitsValue_lt hb.2
    rw [List.map_cons, List.map_cons, List.compare_cons_cons, digitsValue_cons, digitsValue_cons,
      ih, ← hlen']
    rw [← hlen'] at hvb
    rcases Nat.lt_trichotomy a.toNat b.toNat with hlt | heq | hgt
    · have hmul : (a.toNat - 48 + 1) * 10 ^ as.length ≤ (b.toNat - 48) * 10 ^ as.length :=
        Nat.mul_le_mul_right _ (by omega)
      rw [Nat.add_mul, Nat.one_mul] at hmul
      have hvalue : (a.toNat - 48) * 10 ^ as.length + digitsValue as <
          (b.toNat - 48) * 10 ^ as.length + digitsValue bs := by omega
      rw [Nat.compare_eq_lt.mpr hlt, Nat.compare_eq_lt.mpr hvalue]
      rfl
    · rw [heq, Nat.compare_eq_eq.mpr rfl]
      simp only [Nat.compare_eq_ite_lt, Nat.add_lt_add_iff_left]
      rfl
    · have hmul : (b.toNat - 48 + 1) * 10 ^ as.length ≤ (a.toNat - 48) * 10 ^ as.length :=
        Nat.mul_le_mul_right _ (by omega)
      rw [Nat.add_mul, Nat.one_mul] at hmul
      have hvalue : (b.toNat - 48) * 10 ^ as.length + digitsValue bs <
          (a.toNat - 48) * 10 ^ as.length + digitsValue as := by omega
      rw [Nat.compare_eq_gt.mpr hgt, Nat.compare_eq_gt.mpr hvalue]
      rfl

/-- A longer number is larger, since it does not start with a zero. -/
theorem digitsValue_lt_of_length {as bs : List Char} (ha : Numeric as) (hb : Numeric bs)
    (hlen : as.length < bs.length) : digitsValue as < digitsValue bs := by
  obtain ⟨b, bs, rfl⟩ := List.exists_cons_of_ne_nil hb.nonempty
  have hfirst : b ≠ '0' := by
    intro hzero
    have hrest := hb.noLeadingZero bs (by rw [hzero])
    have hpos := List.length_pos_of_ne_nil ha.nonempty
    rw [hrest] at hlen
    simp only [List.length_cons, List.length_nil] at hlen
    omega
  have hdb := isDigit_toNat (hb.digits b List.mem_cons_self)
  have hpos : 1 ≤ b.toNat - 48 := by
    have hne : b.toNat ≠ 48 := fun h => hfirst (char_eq_of_toNat h)
    omega
  have hva := digitsValue_lt ha.digits
  have hpow : 10 ^ as.length ≤ 10 ^ bs.length :=
    Nat.pow_le_pow_right (by omega) (by simpa using Nat.le_of_lt_succ hlen)
  have hmul := Nat.mul_le_mul_right (10 ^ bs.length) hpos
  rw [digitsValue_cons]
  omega

/-! ## Ranks are the precedence -/

/-- Characters below `U+10000` are their own code units. -/
theorem utf16_eq_map {value : String} (h : ∀ c ∈ value.toList, c.toNat < 0x10000) :
    utf16 value = value.toList.map Char.toNat := by
  unfold utf16
  generalize value.toList = cs at h ⊢
  induction cs with
  | nil => rfl
  | cons c cs ih =>
    rw [List.forall_mem_cons] at h
    rw [List.flatMap_cons, List.map_cons, ih h.2, codeUnits, if_pos h.1]
    rfl

theorem Numeric.utf16 {value : String} (h : Numeric value.toList) :
    Core.utf16 value = value.toList.map Char.toNat :=
  utf16_eq_map fun c hc => by
    have := isDigit_toNat (h.digits c hc)
    omega

theorem Numeric.jsLength {value : String} (h : Numeric value.toList) :
    Core.jsLength value = value.toList.length := by
  rw [Core.jsLength, h.utf16, List.length_map]

theorem Numeric.isDigits {value : String} (h : Numeric value.toList) : isDigits value = true := by
  unfold Contracts.isDigits
  rw [Bool.and_eq_true, List.all_eq_true]
  refine ⟨?_, h.digits⟩
  simpa [List.isEmpty_iff] using h.nonempty

theorem Numeric.normalized {value : String} (h : Numeric value.toList) :
    Contracts.normalized value = value :=
  PrereleaseIdentifier.normalized
    (show isPrereleaseIdentifier value.toList = true by
      rw [isPrereleaseIdentifier, numeric_iff.mpr h, Bool.true_or])
    h.isDigits

theorem compare_numbers {a b : String} (ha : Numeric a.toList) (hb : Numeric b.toList) :
    compare (Core.jsLength a :: Core.utf16 a) (Core.jsLength b :: Core.utf16 b) =
      compare (digitsValue a.toList) (digitsValue b.toList) := by
  rw [List.compare_cons_cons, ha.jsLength, hb.jsLength, ha.utf16, hb.utf16]
  rcases Nat.lt_trichotomy a.toList.length b.toList.length with hlt | heq | hgt
  · rw [Nat.compare_eq_lt.mpr hlt,
      Nat.compare_eq_lt.mpr (digitsValue_lt_of_length ha hb hlt)]
    rfl
  · rw [Nat.compare_eq_eq.mpr heq, compare_digits heq ha.digits hb.digits]
    rfl
  · rw [Nat.compare_eq_gt.mpr hgt,
      Nat.compare_eq_gt.mpr (digitsValue_lt_of_length hb ha hgt)]
    rfl

/-- Length first, then digits: the order of the values. -/
theorem numericRank_compare {a b : String} (ha : Numeric a.toList) (hb : Numeric b.toList) :
    compare (numericRank a) (numericRank b) =
      compare (digitsValue a.toList) (digitsValue b.toList) := by
  unfold numericRank
  rw [ha.normalized, hb.normalized]
  exact compare_numbers ha hb

/-- An identifier of a prerelease is a number or an ASCII text with a character that is no
digit. -/
theorem prereleaseIdentifier_cases {value : String} (h : PrereleaseIdentifier value) :
    (Numeric value.toList ∧ identifierOf value.toList = .numeric (digitsValue value.toList)) ∨
      (isDigits value = false ∧ identifierOf value.toList = .alphanumeric value.toList ∧
        Core.utf16 value = value.toList.map Char.toNat) := by
  unfold PrereleaseIdentifier isPrereleaseIdentifier at h
  rw [Bool.or_eq_true, Bool.and_eq_true, List.any_eq_true] at h
  by_cases hn : isNumericIdentifier value.toList = true
  · have hnum := numeric_iff.mp hn
    refine .inl ⟨hnum, ?_⟩
    rw [identifierOf, if_pos (List.all_eq_true.mpr hnum.digits)]
  · obtain ⟨hb, c, hc, hd⟩ := h.resolve_left hn
    have hall : ¬ value.toList.all Char.isDigit = true := by
      rw [List.all_eq_true]
      intro hall
      rw [hall c hc] at hd
      cases hd
    refine .inr ⟨?_, ?_, ?_⟩
    · unfold isDigits
      rw [Bool.and_eq_false_iff]
      exact .inr (by simpa using hall)
    · rw [identifierOf, if_neg hall]
    · refine utf16_eq_map fun d hd => ?_
      simp only [isBuildIdentifier, Bool.and_eq_true, List.all_eq_true, Bool.or_eq_true] at hb
      rcases hb.2 d hd with h | h
      · simp only [Char.isAlphanum, Char.isAlpha, Char.isUpper, Char.isLower, Char.isDigit,
          Bool.or_eq_true, Bool.and_eq_true, decide_eq_true_eq, UInt32.le_iff_toNat_le] at h
        simp at h
        omega
      · have : d = '-' := by simpa using h
        rw [this]
        decide

theorem identifierRank_compare {a b : String} (ha : PrereleaseIdentifier a)
    (hb : PrereleaseIdentifier b) : compare (identifierRank a) (identifierRank b) =
      (identifierOf a.toList).precedence (identifierOf b.toList) := by
  unfold identifierRank
  rcases prereleaseIdentifier_cases ha with ⟨hna, hia⟩ | ⟨hda, hia, hua⟩ <;>
    rcases prereleaseIdentifier_cases hb with ⟨hnb, hib⟩ | ⟨hdb, hib, hub⟩ <;>
      rw [hia, hib, Identifier.precedence]
  · rw [if_pos hna.isDigits, if_pos hnb.isDigits, List.compare_cons_cons, ← compare_numbers hna hnb]
    rfl
  · rw [if_pos hna.isDigits, if_neg (by simp [hdb]), List.compare_cons_cons]
    rfl
  · rw [if_neg (by simp [hda]), if_pos hnb.isDigits, List.compare_cons_cons]
    rfl
  · rw [if_neg (by simp [hda]), if_neg (by simp [hdb]), List.compare_cons_cons, hua, hub]
    rfl

theorem identifiersPrecedence_eq : ∀ {as bs : List String},
    (∀ p ∈ as, PrereleaseIdentifier p) → (∀ p ∈ bs, PrereleaseIdentifier p) →
    compare (as.map identifierRank) (bs.map identifierRank) =
      identifiersPrecedence (as.map fun p => identifierOf p.toList)
        (bs.map fun p => identifierOf p.toList)
  | [], [], _, _ => rfl
  | [], _ :: _, _, _ => rfl
  | _ :: _, [], _, _ => rfl
  | a :: as, b :: bs, ha, hb => by
    rw [List.forall_mem_cons] at ha hb
    simp only [List.map_cons]
    rw [List.compare_cons_cons, identifierRank_compare ha.1 hb.1,
      identifiersPrecedence_eq ha.2 hb.2, identifiersPrecedence]

/-! ## Accepted texts -/

theorem splitChar_ne_nil (z : Char) (cs : List Char) : splitChar z cs ≠ [] := by
  cases cs with
  | nil => exact List.cons_ne_nil _ _
  | cons c cs =>
    unfold splitChar
    split
    · exact List.cons_ne_nil _ _
    · split <;> exact List.cons_ne_nil _ _

theorem intercalate_splitChar (z : Char) : ∀ cs : List Char,
    [z].intercalate (splitChar z cs) = cs
  | [] => rfl
  | c :: cs => by
    have ih := intercalate_splitChar z cs
    unfold splitChar
    cases hs : splitChar z cs with
    | nil => exact absurd hs (splitChar_ne_nil z cs)
    | cons p ps =>
      rw [hs] at ih
      split
      · rename_i hc
        rw [hc, List.intercalate_cons_cons, ih]
        rfl
      · cases ps with
        | nil =>
          rw [List.intercalate_singleton] at ih ⊢
          rw [ih]
        | cons q qs =>
          rw [List.intercalate_cons_cons] at ih ⊢
          rw [← ih]
          rfl

/-- The text of a parsed version. -/
def ParsedSemver.text (version : ParsedSemver) : List Char :=
  ['.'].intercalate (version.core.map String.toList) ++
    if version.prerelease = [] then []
    else '-' :: ['.'].intercalate (version.prerelease.map String.toList)

theorem toList_identifiers (cs : List Char) :
    (identifiers cs).map String.toList = splitChar '.' cs := by
  unfold identifiers
  rw [List.map_map]
  exact List.map_id'' (fun p => String.toList_ofList) _

/-- What the parser makes of a text, and what the text denotes. -/
structure Reads (value : String) (version : ParsedSemver) : Prop where
  parses : parseExactSemver value = .ok version
  wellFormed : version.WellFormed
  numbers : ∀ p ∈ version.core, Numeric p.toList
  denotes : semverOf value =
    ⟨digitsValue (version.core.getD 0 "").toList, digitsValue (version.core.getD 1 "").toList,
      digitsValue (version.core.getD 2 "").toList,
      version.prerelease.map fun p => identifierOf p.toList⟩
  text : withoutBuild value = version.text

theorem reads_of_exact {value : String} (h : ExactSemver value) : ∃ version, Reads value version := by
  obtain ⟨version, hparse, hwell⟩ := parseExactSemver_of_ok h
  have hv := hparse
  unfold parseExactSemver at hv
  unfold ExactSemver at h
  rw [if_pos h] at hv
  have hver := Except.ok.inj hv
  unfold exactSemverOk boundedBy isExactSemver at h
  simp only [Bool.and_eq_true, decide_eq_true_eq] at h
  have hcore := h.2.1.1
  generalize hc : splitChar '.' ((value.toList.takeWhile (· != '+')).takeWhile (· != '-')) = core
    at hcore
  -- three numbers
  have htake : ((core.map String.ofList).take 3) = core.map String.ofList :=
    List.take_of_length_le (by rw [List.length_map, hcore.1])
  have hcoreList : version.core.map String.toList = core := by
    rw [← hver]
    dsimp only [identifiers]
    rw [hc, htake, List.map_map]
    exact List.map_id'' (fun p => String.toList_ofList) _
  have hget : ∀ i, core.getD i [] = (version.core.getD i "").toList := by
    intro i
    rw [← hcoreList, List.getD_eq_getElem?_getD, List.getD_eq_getElem?_getD, List.getElem?_map]
    cases version.core[i]? <;> rfl
  refine ⟨version, hparse, hwell, ?_, ?_, ?_⟩
  · intro p hp
    refine numeric_iff.mp (List.all_eq_true.mp hcore.2 p.toList ?_)
    rw [← hcoreList]
    exact List.mem_map_of_mem hp
  · unfold semverOf withoutBuild
    simp only [hc, hget, SemVer.mk.injEq, true_and]
    rw [← hver]
    dsimp only
    split
    · rfl
    · rw [identifiers, List.map_map]
      exact List.map_congr_left fun p _ => by rw [Function.comp_apply, String.toList_ofList]
  · unfold withoutBuild ParsedSemver.text
    rw [hcoreList, ← hc, intercalate_splitChar]
    conv_lhs => rw [← List.takeWhile_append_dropWhile (p := (· != '-'))
      (l := value.toList.takeWhile (· != '+'))]
    congr 1
    rw [← hver]
    dsimp only
    generalize hd : (value.toList.takeWhile (· != '+')).dropWhile (· != '-') = rest
    cases rest with
    | nil => rfl
    | cons c cs =>
      have hdash : c = '-' := by
        have hhead := List.head?_dropWhile_not (· != '-') (value.toList.takeWhile (· != '+'))
        rw [hd] at hhead
        simpa using hhead
      have hne : identifiers cs ≠ [] := by
        intro hnil
        have hlist := toList_identifiers cs
        rw [hnil] at hlist
        exact splitChar_ne_nil '.' cs hlist.symm
      simp only [List.isEmpty_cons, Bool.false_eq_true, if_false, List.tail_cons]
      rw [if_neg hne, toList_identifiers, intercalate_splitChar, hdash]

theorem Reads.precedence {a b : String} {v w : ParsedSemver} (ha : Reads a v) (hb : Reads b w) :
    compareExactSemverPrecedence a b = .ok ((semverOf a).precedence (semverOf b)) := by
  rw [compareExactSemverPrecedence_rank ha.parses hb.parses ha.wellFormed hb.wellFormed,
    ha.denotes, hb.denotes]
  congr 1
  have hv := ha.wellFormed.core
  have hw := hb.wellFormed.core
  obtain ⟨v1, v2, v3, hv3⟩ := List.length_eq_three.mp hv
  obtain ⟨w1, w2, w3, hw3⟩ := List.length_eq_three.mp hw
  have hnv := ha.numbers
  have hnw := hb.numbers
  unfold ParsedSemver.rank SemVer.precedence
  rw [hv3] at hnv ⊢
  rw [hw3] at hnw ⊢
  simp only [List.forall_mem_cons] at hnv hnw
  simp only [List.map_cons, List.map_nil, List.getD_cons_zero, List.getD_cons_succ,
    List.compare_cons_cons, numericRank_compare hnv.1 hnw.1, numericRank_compare hnv.2.1 hnw.2.1,
    numericRank_compare hnv.2.2.1 hnw.2.2.1]
  have hpre : ((compare (if v.prerelease = [] then [1] else [0])
      (if w.prerelease = [] then [1] else [0])).then
        (compare (v.prerelease.map identifierRank) (w.prerelease.map identifierRank))) =
      prereleasePrecedence (v.prerelease.map fun p => identifierOf p.toList)
        (w.prerelease.map fun p => identifierOf p.toList) := by
    rw [identifiersPrecedence_eq ha.wellFormed.prerelease hb.wellFormed.prerelease]
    cases v.prerelease <;> cases w.prerelease <;> rfl
  rw [← hpre]
  generalize compare (digitsValue v1.toList) (digitsValue w1.toList) = o1
  generalize compare (digitsValue v2.toList) (digitsValue w2.toList) = o2
  generalize compare (digitsValue v3.toList) (digitsValue w3.toList) = o3
  generalize compare (if v.prerelease = [] then [1] else [0])
    (if w.prerelease = [] then [1] else [0]) = o4
  generalize compare (v.prerelease.map identifierRank) (w.prerelease.map identifierRank) = o5
  cases o1 <;> cases o2 <;> cases o3 <;> cases o4 <;> cases o5 <;> rfl

theorem numericRank_injective {a b : String} (ha : Numeric a.toList) (hb : Numeric b.toList)
    (h : numericRank a = numericRank b) : a = b := by
  unfold numericRank at h
  rw [ha.normalized, hb.normalized, List.cons.injEq] at h
  exact utf16_injective h.2

/-- Versions of one rank are the same. -/
theorem Reads.rank_injective {a b : String} {v w : ParsedSemver} (ha : Reads a v) (hb : Reads b w)
    (h : v.rank = w.rank) : v = w := by
  have hna := ha.numbers
  have hnb := hb.numbers
  obtain ⟨core, prerelease⟩ := v
  obtain ⟨core', prerelease'⟩ := w
  unfold ParsedSemver.rank at h
  simp only [List.cons.injEq, and_true] at h
  obtain ⟨hcore, -, hpre⟩ := h
  have hcore' : core = core' := by
    clear ha hb hpre
    induction core generalizing core' with
    | nil => cases core' with
      | nil => rfl
      | cons q qs => cases hcore
    | cons p ps ih =>
      cases core' with
      | nil => cases hcore
      | cons q qs =>
        simp only [List.map_cons, List.cons.injEq] at hcore
        have hp := numericRank_injective (hna p List.mem_cons_self) (hnb q List.mem_cons_self)
          hcore.1
        rw [hp, ih (fun r hr => hna r (List.mem_cons_of_mem p hr)) qs
          (fun r hr => hnb r (List.mem_cons_of_mem q hr)) hcore.2]
  have hpre' : prerelease = prerelease' :=
    List.map_injective_iff.mpr (fun p q hpq => identifierRank_injective hpq) hpre
  rw [hcore', hpre']

/-- Versions of equal precedence differ in their build metadata only. -/
theorem eq_iff_withoutBuild {a b : String} (ha : ExactSemver a) (hb : ExactSemver b) :
    compareExactSemverPrecedence a b = .ok .eq ↔ withoutBuild a = withoutBuild b := by
  obtain ⟨v, hv⟩ := reads_of_exact ha
  obtain ⟨w, hw⟩ := reads_of_exact hb
  have hrank := compareExactSemverPrecedence_rank hv.parses hw.parses hv.wellFormed hw.wellFormed
  constructor
  · intro h
    rw [hrank] at h
    have heq := hv.rank_injective hw (Std.compare_eq_iff_eq.mp (Except.ok.inj h))
    rw [hv.text, hw.text, heq]
  · intro h
    have hsemver : semverOf a = semverOf b := by
      unfold semverOf
      rw [h]
    have hrefl := precedence_orders.refl hb
    obtain ⟨o, ho, -⟩ := hrefl
    have hself := precedence_orders.swap hb hb ho
    rw [hv.precedence hw, hsemver, ← hw.precedence hw, ho]
    rw [ho] at hself
    have hswap := Except.ok.inj hself
    cases o with
    | eq => rfl
    | lt => cases hswap
    | gt => cases hswap

/-- **Precedence of exact versions.** On accepted texts the comparison is the precedence of
section 11. It is transitive and total, changes its sign with its arguments, and is antisymmetric
up to build metadata. -/
theorem exactSemver_precedence {a b c : String} (ha : ExactSemver a) (hb : ExactSemver b)
    (hc : ExactSemver c) :
    compareExactSemverPrecedence a b = .ok ((semverOf a).precedence (semverOf b)) ∧
      (∀ o, compareExactSemverPrecedence a b = .ok o →
        compareExactSemverPrecedence b a = .ok o.swap) ∧
      (HighWater.AtMost compareExactSemverPrecedence a b ∨
        HighWater.AtMost compareExactSemverPrecedence b a) ∧
      (HighWater.AtMost compareExactSemverPrecedence a b →
        HighWater.AtMost compareExactSemverPrecedence b c →
          HighWater.AtMost compareExactSemverPrecedence a c) ∧
      (HighWater.AtMost compareExactSemverPrecedence a b ∧
        HighWater.AtMost compareExactSemverPrecedence b a ↔ withoutBuild a = withoutBuild b) := by
  obtain ⟨v, hv⟩ := reads_of_exact ha
  obtain ⟨w, hw⟩ := reads_of_exact hb
  refine ⟨hv.precedence hw, fun o => precedence_orders.swap ha hb,
    precedence_orders.total ha hb, precedence_orders.trans ha hb hc, ?_⟩
  rw [← eq_iff_withoutBuild ha hb]
  constructor
  · intro ⟨⟨o, ho, hle⟩, o', ho', hle'⟩
    rw [precedence_orders.swap ha hb ho] at ho'
    obtain rfl := Except.ok.inj ho'
    cases o with
    | lt => exact absurd rfl hle'
    | eq => exact ho
    | gt => exact absurd rfl hle
  · intro h
    exact ⟨⟨.eq, h, by simp⟩, .eq, precedence_orders.swap ha hb h, by simp⟩

theorem exactSemver_precedence_candidates :
    compareExactSemverPrecedence "1.0.0-rc.10+a" "1.0.0-rc.9" =
      .ok ((semverOf "1.0.0-rc.10+a").precedence (semverOf "1.0.0-rc.9")) :=
  (exactSemver_precedence (a := "1.0.0-rc.10+a") (b := "1.0.0-rc.9") (c := "1.0.0")
    (by decide) (by decide) (by decide)).1

end KNex.Contracts
