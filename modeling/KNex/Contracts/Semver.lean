import KNex.Contracts.Identity
import KNex.Core.HighWater

/-!
# Precedence of exact versions

`compareExactSemverPrecedence` of `packages/contracts/src/identity.ts`: it parses both versions,
compares the three core numbers and then the prerelease identifiers, and ignores the build. On the
versions that `ExactSemverSchema` accepts it never throws and is a total preorder
(`precedence_orders`). The argument is one equation: the nested scans compare the ranks of the two
versions, which are lists of lists of numbers under the lexicographic order
(`compareExactSemverPrecedence_rank`).
-/
namespace KNex.Contracts

open KNex.Core

/-! ## The comparison -/

/-- `left === right ? 0 : left < right ? -1 : 1`. -/
def compareText (left right : String) : Ordering :=
  if left = right then .eq else if StrLt left right then .lt else .gt

/-- `/^0+(?=\d)/u` taken off. -/
def stripZeros : List Char → List Char
  | '0' :: c :: cs => if c.isDigit then stripZeros (c :: cs) else '0' :: c :: cs
  | cs => cs

def normalized (value : String) : String := String.ofList (stripZeros value.toList)

/-- mirrors packages/contracts/src/identity.ts:80-85 -/
def compareNumericIdentifier (left right : String) : Ordering :=
  if jsLength (normalized left) ≠ jsLength (normalized right) then
    if jsLength (normalized left) < jsLength (normalized right) then .lt else .gt
  else compareText (normalized left) (normalized right)

structure ParsedSemver where
  core : List String
  prerelease : List String

/-- `value.split(".")`. -/
def identifiers (cs : List Char) : List String := (splitChar '.' cs).map String.ofList

/-- mirrors packages/contracts/src/identity.ts:69-78 -/
def parseExactSemver (value : String) : Except String ParsedSemver :=
  if exactSemverOk value then
    let withoutBuild := value.toList.takeWhile (· != '+')
    let core := withoutBuild.takeWhile (· != '-')
    let prerelease := withoutBuild.dropWhile (· != '-')
    .ok
      { core := (identifiers core).take 3
        prerelease := if prerelease.isEmpty then [] else identifiers prerelease.tail }
  else .error "Exact SemVer value is invalid."

/-- The loop over the three core numbers.
mirrors packages/contracts/src/identity.ts:46-49 -/
def compareCore : List String → List String → Ordering
  | first :: firsts, second :: seconds =>
    match compareNumericIdentifier first second with
    | .eq => compareCore firsts seconds
    | comparison => comparison
  | _, _ => .eq

/-- `/^\d+$/u.test(value)`. -/
def isDigits (value : String) : Bool := !value.toList.isEmpty && value.toList.all Char.isDigit

/-- The loop over the prerelease identifiers; the shorter list is smaller where it ends.
mirrors packages/contracts/src/identity.ts:55-65 -/
def comparePrerelease : List String → List String → Ordering
  | [], [] => .eq
  | [], _ :: _ => .lt
  | _ :: _, [] => .gt
  | first :: firsts, second :: seconds =>
    if first = second then comparePrerelease firsts seconds
    else match isDigits first, isDigits second with
      | true, true => compareNumericIdentifier first second
      | true, false => .lt
      | false, true => .gt
      | false, false => if StrLt first second then .lt else .gt

/-- `-1`, `0` and `1` are `lt`, `eq` and `gt`; a `TypeError` is an error with its message.
mirrors packages/contracts/src/identity.ts:42-67 -/
def compareExactSemverPrecedence (left right : String) : Except String Ordering := do
  let first ← parseExactSemver left
  let second ← parseExactSemver right
  match compareCore first.core second.core with
  | .eq =>
    if first.prerelease = [] ∨ second.prerelease = [] then
      if first.prerelease.length = second.prerelease.length then pure .eq
      else if first.prerelease = [] then pure .gt else pure .lt
    else pure (comparePrerelease first.prerelease second.prerelease)
  | comparison => pure comparison

/-! ## Ranks -/

theorem compare_nats_lt : ∀ {a b : List Nat}, compare a b = .lt ↔ a < b
  | [], [] => by simp
  | [], _ :: _ => by simp
  | _ :: _, [] => by simp
  | a :: as, b :: bs => by
    rw [List.compare_cons_cons, Ordering.then_eq_lt, List.cons_lt_cons_iff, Nat.compare_eq_lt,
      Nat.compare_eq_eq, compare_nats_lt]

/-- The order of strings is that of their code units. -/
theorem compareText_eq (left right : String) :
    compareText left right = compare (utf16 left) (utf16 right) := by
  unfold compareText
  by_cases heq : left = right
  · rw [if_pos heq, heq]
    exact Std.ReflCmp.compare_self.symm
  · rw [if_neg heq]
    by_cases hlt : StrLt left right
    · rw [if_pos hlt]
      exact (compare_nats_lt.mpr hlt).symm
    · rw [if_neg hlt]
      cases hc : compare (utf16 left) (utf16 right) with
      | lt => exact absurd (compare_nats_lt.mp hc) hlt
      | eq => exact absurd (utf16_injective (Std.compare_eq_iff_eq.mp hc)) heq
      | gt => rfl

/-- What a numeric identifier is compared by: its length without leading zeros, then its digits. -/
def numericRank (value : String) : List Nat := jsLength (normalized value) :: utf16 (normalized value)

theorem compareNumericIdentifier_eq (left right : String) :
    compareNumericIdentifier left right = compare (numericRank left) (numericRank right) := by
  unfold compareNumericIdentifier numericRank
  rw [List.compare_cons_cons, ← compareText_eq]
  split
  · split
    · rename_i hlt
      rw [Nat.compare_eq_lt.mpr hlt]; rfl
    · rename_i hne hlt
      rw [Nat.compare_eq_gt.mpr (by omega)]; rfl
  · rename_i heq
    rw [Nat.compare_eq_eq.mpr (by omega)]; rfl

theorem compareCore_eq : ∀ {firsts seconds : List String}, firsts.length = seconds.length →
    compareCore firsts seconds = compare (firsts.map numericRank) (seconds.map numericRank)
  | [], [], _ => rfl
  | first :: firsts, second :: seconds, hlen => by
    have hlen' : firsts.length = seconds.length := by simpa using hlen
    have ih := compareCore_eq hlen'
    rw [List.map_cons, List.map_cons, List.compare_cons_cons, ← ih, ← compareNumericIdentifier_eq,
      compareCore]
    cases compareNumericIdentifier first second <;> rfl

/-- What a prerelease identifier is compared by: numbers below the other identifiers. -/
def identifierRank (value : String) : List Nat :=
  if isDigits value then 0 :: jsLength value :: utf16 value else 1 :: utf16 value

/-- An identifier that the schema accepts in a prerelease. -/
def PrereleaseIdentifier (value : String) : Prop := isPrereleaseIdentifier value.toList = true

/-- A number that the schema accepts has no leading zeros. -/
theorem PrereleaseIdentifier.normalized {value : String} (h : PrereleaseIdentifier value)
    (hd : isDigits value = true) : Contracts.normalized value = value := by
  unfold PrereleaseIdentifier isPrereleaseIdentifier at h
  simp only [isDigits, Bool.and_eq_true, Bool.not_eq_true', List.isEmpty_eq_false_iff,
    List.all_eq_true] at hd
  have hstrip : stripZeros value.toList = value.toList := by
    rw [Bool.or_eq_true, Bool.and_eq_true, List.any_eq_true] at h
    rcases h with h | ⟨-, c, hc, hn⟩
    · unfold stripZeros
      split
      · rename_i c cs hcs
        rw [hcs] at h
        simp [isNumericIdentifier] at h
      · rfl
    · rw [hd.2 c hc] at hn
      cases hn
  unfold Contracts.normalized
  rw [hstrip, String.ofList_toList]

theorem identifierRank_injective {a b : String} (h : identifierRank a = identifierRank b) :
    a = b := by
  unfold identifierRank at h
  cases hda : isDigits a <;> cases hdb : isDigits b <;> simp [hda, hdb] at h
  · exact utf16_injective h
  · exact utf16_injective h.2

/-- One round of the loop over the prerelease identifiers. -/
theorem compareIdentifier_eq {a b : String} (ha : PrereleaseIdentifier a)
    (hb : PrereleaseIdentifier b) (hne : a ≠ b) :
    (match isDigits a, isDigits b with
      | true, true => compareNumericIdentifier a b
      | true, false => .lt
      | false, true => .gt
      | false, false => if StrLt a b then .lt else .gt) =
      compare (identifierRank a) (identifierRank b) := by
  unfold identifierRank
  cases hda : isDigits a <;> cases hdb : isDigits b <;>
    simp only [if_true, Bool.false_eq_true, if_false, List.compare_cons_cons]
  · rw [← compareText_eq, compareText, if_neg hne]
    rfl
  · rfl
  · rfl
  · rw [compareNumericIdentifier_eq, numericRank, numericRank, ha.normalized hda,
      hb.normalized hdb, List.compare_cons_cons]
    rfl

theorem comparePrerelease_eq : ∀ {firsts seconds : List String},
    (∀ p ∈ firsts, PrereleaseIdentifier p) → (∀ p ∈ seconds, PrereleaseIdentifier p) →
    comparePrerelease firsts seconds =
      compare (firsts.map identifierRank) (seconds.map identifierRank)
  | [], [], _, _ => rfl
  | [], _ :: _, _, _ => rfl
  | _ :: _, [], _, _ => rfl
  | first :: firsts, second :: seconds, h1, h2 => by
    rw [List.forall_mem_cons] at h1 h2
    have ih := comparePrerelease_eq h1.2 h2.2
    rw [List.map_cons, List.map_cons, List.compare_cons_cons, ← ih, comparePrerelease]
    split
    · rename_i heq
      rw [heq, Std.compare_eq_iff_eq.mpr rfl]
      rfl
    · rename_i hne
      rw [compareIdentifier_eq h1.1 h2.1 hne]
      cases hc : compare (identifierRank first) (identifierRank second) with
      | lt => rfl
      | gt => rfl
      | eq => exact absurd (identifierRank_injective (Std.compare_eq_iff_eq.mp hc)) hne

/-- A release is above its prereleases. -/
def ParsedSemver.rank (version : ParsedSemver) : List (List (List Nat)) :=
  [version.core.map numericRank,
    (if version.prerelease = [] then [1] else [0]) :: version.prerelease.map identifierRank]

/-- The identifiers of a parsed version are those the schema accepts. -/
structure ParsedSemver.WellFormed (version : ParsedSemver) : Prop where
  core : version.core.length = 3
  prerelease : ∀ p ∈ version.prerelease, PrereleaseIdentifier p

theorem parseExactSemver_of_ok {value : String} (h : exactSemverOk value = true) :
    ∃ version, parseExactSemver value = .ok version ∧ version.WellFormed := by
  unfold parseExactSemver
  rw [if_pos h]
  refine ⟨_, rfl, ?_, ?_⟩
  · simp only [exactSemverOk, boundedBy, isExactSemver, Bool.and_eq_true, decide_eq_true_eq] at h
    rw [List.length_take, identifiers, List.length_map, h.2.1.1.1]
    rfl
  · intro p hp
    dsimp only at hp
    split at hp
    · cases hp
    · rename_i hne
      simp only [exactSemverOk, boundedBy, isExactSemver, Bool.and_eq_true, Bool.or_eq_true] at h
      obtain ⟨cs, hcs, rfl⟩ := List.mem_map.mp hp
      have hall := h.2.1.2.resolve_left hne
      unfold PrereleaseIdentifier
      rw [String.toList_ofList]
      exact List.all_eq_true.mp hall cs hcs

/-- The precedence of the versions that the schema accepts is the order of their ranks. -/
theorem compareExactSemverPrecedence_rank {left right : String} {first second : ParsedSemver}
    (h1 : parseExactSemver left = .ok first) (h2 : parseExactSemver right = .ok second)
    (hw1 : first.WellFormed) (hw2 : second.WellFormed) :
    compareExactSemverPrecedence left right = .ok (compare first.rank second.rank) := by
  unfold compareExactSemverPrecedence ParsedSemver.rank
  rw [h1, h2, List.compare_cons_cons, ← compareCore_eq (hw1.core.trans hw2.core.symm)]
  show (match compareCore first.core second.core with
    | .eq => _
    | comparison => _) = _
  cases compareCore first.core second.core with
  | lt => rfl
  | gt => rfl
  | eq =>
    rw [List.compare_cons_cons, List.compare_cons_cons,
      ← comparePrerelease_eq hw1.prerelease hw2.prerelease]
    cases first.prerelease with
    | nil =>
      cases second.prerelease with
      | nil => rfl
      | cons p ps => rfl
    | cons p ps =>
      cases second.prerelease with
      | nil => rfl
      | cons q qs =>
        cases comparePrerelease (p :: ps) (q :: qs) <;> simp <;> rfl

/-! ## The preorder -/

/-- A version that `ExactSemverSchema` accepts. -/
def ExactSemver (value : String) : Prop := exactSemverOk value = true

instance (value : String) : Decidable (ExactSemver value) :=
  inferInstanceAs (Decidable (exactSemverOk value = true))

/-- Every accepted version has a rank, and precedence compares the ranks. -/
theorem exists_rank : ∃ rank : String → List (List (List Nat)), ∀ left right, ExactSemver left →
    ExactSemver right → compareExactSemverPrecedence left right =
      .ok (compare (rank left) (rank right)) := by
  refine ⟨fun value => ((parseExactSemver value).toOption.map ParsedSemver.rank).getD [], ?_⟩
  intro left right hl hr
  obtain ⟨first, h1, hw1⟩ := parseExactSemver_of_ok hl
  obtain ⟨second, h2, hw2⟩ := parseExactSemver_of_ok hr
  rw [compareExactSemverPrecedence_rank h1 h2 hw1 hw2]
  dsimp only
  rw [h1, h2]
  rfl

theorem precedence_orders : HighWater.Orders compareExactSemverPrecedence ExactSemver := by
  obtain ⟨rank, hrank⟩ := exists_rank
  have hle : ∀ {a b}, ExactSemver a → ExactSemver b →
      (HighWater.AtMost compareExactSemverPrecedence a b ↔
        (compare (rank a) (rank b)).isLE = true) := by
    intro a b ha hb
    unfold HighWater.AtMost
    rw [hrank a b ha hb, Ordering.isLE_iff_ne_gt]
    simp
  refine ⟨fun ha hb => ⟨_, hrank _ _ ha hb⟩, ?_, ?_, ?_⟩
  · intro a ha
    exact (hle ha ha).mpr Std.ReflOrd.isLE_rfl
  · intro a b o ha hb h
    rw [hrank a b ha hb] at h
    obtain rfl := Except.ok.inj h
    rw [hrank b a hb ha, Std.OrientedOrd.eq_swap]
  · intro a b c ha hb hc hab hbc
    exact (hle ha hc).mpr (Std.TransOrd.isLE_trans ((hle ha hb).mp hab) ((hle hb hc).mp hbc))

example : compareExactSemverPrecedence "1.0.0-rc.10" "1.0.0-rc.9" = .ok .gt ∧
    compareExactSemverPrecedence "1.0.0-rc.1" "1.0.0+build.7" = .ok .lt := by decide

end KNex.Contracts
