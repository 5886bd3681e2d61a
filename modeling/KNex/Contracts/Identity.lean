import KNex.Core.JsString

/-!
# Identity patterns

The identifier patterns of `packages/contracts/src/identity.ts` and of the schemas built on
them. A pattern is a predicate on the characters of the string: kebab segments
`[a-z][a-z0-9]*(?:-[a-z0-9]+)*`, joined by dots. No string they accept holds a separator of a
composite key (`dotted_notin`), which is what makes joined keys of identifiers unambiguous.
-/
namespace KNex.Contracts

open KNex.Core

/-! ## Splitting -/

/-- `value.split(sep)` on characters; never empty. -/
def splitChar (sep : Char) : List Char → List (List Char)
  | [] => [[]]
  | c :: cs =>
    if c = sep then [] :: splitChar sep cs
    else match splitChar sep cs with
      | [] => [[c]]
      | p :: ps => (c :: p) :: ps

theorem mem_splitChar {s c : Char} : ∀ {cs : List Char}, c ∈ cs → c ≠ s →
    ∃ p ∈ splitChar s cs, c ∈ p
  | d :: cs, h, hne => by
    unfold splitChar
    by_cases hd : d = s
    · rw [if_pos hd]
      rcases List.mem_cons.mp h with rfl | h
      · exact absurd hd hne
      · obtain ⟨p, hp, hc⟩ := mem_splitChar h hne
        exact ⟨p, List.mem_cons_of_mem _ hp, hc⟩
    · rw [if_neg hd]
      rcases List.mem_cons.mp h with rfl | h
      · split
        · exact ⟨[c], List.mem_cons_self, List.mem_cons_self⟩
        · exact ⟨_, List.mem_cons_self, List.mem_cons_self⟩
      · obtain ⟨p, hp, hc⟩ := mem_splitChar h hne
        split
        · rename_i hs; rw [hs] at hp; cases hp
        · rename_i q qs hs
          rw [hs] at hp
          rcases List.mem_cons.mp hp with rfl | hp
          · exact ⟨d :: p, List.mem_cons_self, List.mem_cons_of_mem _ hc⟩
          · exact ⟨p, List.mem_cons_of_mem _ hp, hc⟩

/-! ## Patterns -/

def lowerAlnum (c : Char) : Bool := c.isLower || c.isDigit

/-- `[a-z0-9]+`. -/
def isAlnumRun (cs : List Char) : Bool := !cs.isEmpty && cs.all lowerAlnum

/-- `[a-z][a-z0-9]*`. -/
def isWord : List Char → Bool
  | [] => false
  | c :: cs => c.isLower && cs.all lowerAlnum

/-- `[a-z][a-z0-9]*(?:-[a-z0-9]+)*`. -/
def isKebab (cs : List Char) : Bool :=
  match splitChar '-' cs with
  | [] => false
  | p :: ps => isWord p && ps.all isAlnumRun

/-- `head(?:\.kebab)+`. -/
def isDotted (head : List Char → Bool) (cs : List Char) : Bool :=
  match splitChar '.' cs with
  | p :: q :: ps => head p && (q :: ps).all isKebab
  | _ => false

/-- mirrors packages/contracts/src/identity.ts:3 -/
def pluginKinds : List String := ["module", "provider", "builder", "theme", "integration", "preset"]

def boundedBy (max : Nat) (pattern : List Char → Bool) (s : String) : Bool :=
  decide (jsLength s ≤ max) && pattern s.toList

/-- `0|[1-9][0-9]*`. -/
def isNumericIdentifier : List Char → Bool
  | [] => false
  | c :: cs => c.isDigit && cs.all Char.isDigit && (c != '0' || cs.isEmpty)

/-- `[0-9A-Za-z-]+`. -/
def isBuildIdentifier (cs : List Char) : Bool :=
  !cs.isEmpty && cs.all fun c => c.isAlphanum || c == '-'

/-- `0|[1-9][0-9]*|[0-9]*[A-Za-z-][0-9A-Za-z-]*`. -/
def isPrereleaseIdentifier (cs : List Char) : Bool :=
  isNumericIdentifier cs || isBuildIdentifier cs && cs.any fun c => !c.isDigit

/-- `N.N.N`, then `-` and the prerelease, then `+` and the build.
mirrors packages/contracts/src/identity.ts:17-21 -/
def isExactSemver (cs : List Char) : Bool :=
  let release := cs.takeWhile (· != '+')
  let build := cs.dropWhile (· != '+')
  let core := release.takeWhile (· != '-')
  let prerelease := release.dropWhile (· != '-')
  decide ((splitChar '.' core).length = 3) && (splitChar '.' core).all isNumericIdentifier &&
    (prerelease.isEmpty || (splitChar '.' prerelease.tail).all isPrereleaseIdentifier) &&
    (build.isEmpty || (splitChar '.' build.tail).all isBuildIdentifier)

/-- `[a-z0-9][a-z0-9._-]*`. -/
def isPackageSegment : List Char → Bool
  | [] => false
  | c :: cs => lowerAlnum c && cs.all fun c => lowerAlnum c || ['.', '_', '-'].contains c

/-- `@?segment(?:/segment)?`.
mirrors packages/contracts/src/plugin-manifest.ts:13 -/
def packageNameOk (s : String) : Bool :=
  let segments := splitChar '/' (if s.toList.head? = some '@' then s.toList.tail else s.toList)
  decide (segments.length ≤ 2) && segments.all isPackageSegment

/-- mirrors packages/contracts/src/identity.ts:23 -/
def pluginIdOk : String → Bool :=
  boundedBy 128 (isDotted fun p => pluginKinds.any fun k => k.toList = p)

/-- mirrors packages/contracts/src/identity.ts:24 -/
def hotApplicationIdOk : String → Bool := boundedBy 128 (isDotted fun p => p = "app".toList)

/-- mirrors packages/contracts/src/identity.ts:25 -/
def themeSkinIdOk : String → Bool := boundedBy 128 (isDotted fun p => p = "skin".toList)

/-- mirrors packages/contracts/src/identity.ts:26 -/
def capabilityIdOk : String → Bool := boundedBy 128 (isDotted isKebab)

/-- mirrors packages/contracts/src/identity.ts:27 -/
def resourceIdOk : String → Bool := boundedBy 128 (isDotted isKebab)

/-- mirrors packages/contracts/src/identity.ts:29 -/
def exactSemverOk : String → Bool := boundedBy 64 isExactSemver

/-- `/^[a-z][a-z0-9]*(?:-[a-z0-9]+)*$/u`, at most 128 characters.
mirrors packages/contracts/src/authorization.ts:19 -/
def applicationIdOk : String → Bool := boundedBy 128 isKebab

/-- `/^[a-z][a-z0-9-]*$/u`, at most 64 characters.
mirrors packages/contracts/src/authorization.ts:20 -/
def environmentOk : String → Bool := boundedBy 64 fun cs =>
  match cs with
  | [] => false
  | c :: cs => c.isLower && cs.all fun c => lowerAlnum c || c == '-'

/-- `/^[a-z][a-z0-9-]{2,127}$/u`.
mirrors packages/contracts/src/authorization.ts:24 -/
def runtimeGenerationIdOk (s : String) : Bool :=
  match s.toList with
  | [] => false
  | c :: cs => c.isLower && cs.all (fun c => lowerAlnum c || c == '-') &&
      decide (2 ≤ cs.length ∧ cs.length ≤ 127)

/-! ## Separators -/

/-- A character that no identifier segment holds: the separators of the composite keys. -/
def Separator (z : Char) : Prop := lowerAlnum z = false ∧ z ≠ '-' ∧ z ≠ '.'

theorem separator_nul : Separator nul := by
  unfold Separator; decide

theorem separator_slash : Separator '/' := by
  unfold Separator; decide

variable {z : Char}

theorem isWord_notin (hz : Separator z) {cs : List Char} (h : isWord cs = true) : z ∉ cs := by
  intro hm
  cases cs with
  | nil => cases hm
  | cons c cs =>
    simp only [isWord, Bool.and_eq_true, List.all_eq_true] at h
    have hl : lowerAlnum z = true := by
      rcases List.mem_cons.mp hm with heq | hm
      · subst heq
        rw [lowerAlnum, h.1, Bool.true_or]
      · exact h.2 z hm
    rw [hz.1] at hl
    cases hl

theorem kebab_notin (hz : Separator z) {cs : List Char} (h : isKebab cs = true) : z ∉ cs := by
  intro hm
  obtain ⟨p, hp, hn⟩ := mem_splitChar (s := '-') hm hz.2.1
  unfold isKebab at h
  split at h
  · cases h
  · rename_i q qs hs
    simp only [Bool.and_eq_true, List.all_eq_true] at h
    rw [hs] at hp
    rcases List.mem_cons.mp hp with rfl | hp
    · exact isWord_notin hz h.1 hn
    · have hrun := h.2 p hp
      simp only [isAlnumRun, Bool.and_eq_true, List.all_eq_true] at hrun
      have hl := hrun.2 z hn
      rw [hz.1] at hl
      cases hl

theorem dotted_notin (hz : Separator z) {head : List Char → Bool}
    (hhead : ∀ p, head p = true → z ∉ p) {cs : List Char} (h : isDotted head cs = true) :
    z ∉ cs := by
  intro hm
  obtain ⟨p, hp, hn⟩ := mem_splitChar (s := '.') hm hz.2.2
  unfold isDotted at h
  split at h
  · rename_i q r rs hs
    simp only [Bool.and_eq_true, List.all_eq_true] at h
    rw [hs] at hp
    rcases List.mem_cons.mp hp with rfl | hp
    · exact hhead p h.1 hn
    · exact kebab_notin hz (h.2 p hp) hn
  · cases h

/-- `[a-z][a-z0-9-]*`, the characters of most record identifiers. -/
theorem kebabRun_notin (hz : Separator z) {c : Char} {cs : List Char} (hc : c.isLower = true)
    (h : cs.all (fun c => lowerAlnum c || c == '-') = true) : z ∉ c :: cs := by
  intro hm
  rcases List.mem_cons.mp hm with heq | hm
  · have hl : lowerAlnum z = true := by
      rw [heq, lowerAlnum, hc, Bool.true_or]
    rw [hz.1] at hl
    cases hl
  · have hn := List.all_eq_true.mp h z hm
    rw [hz.1, Bool.false_or, beq_iff_eq] at hn
    exact hz.2.1 hn

theorem pluginIdOk_nulFree {s : String} (h : pluginIdOk s = true) : NulFree s := by
  simp only [pluginIdOk, boundedBy, Bool.and_eq_true] at h
  refine dotted_notin separator_nul ?_ h.2
  intro p hp
  simp only [pluginKinds, List.any_cons, List.any_nil, Bool.or_false, Bool.or_eq_true,
    decide_eq_true_eq] at hp
  rcases hp with rfl | rfl | rfl | rfl | rfl | rfl <;> decide

theorem capabilityIdOk_nulFree {s : String} (h : capabilityIdOk s = true) : NulFree s := by
  simp only [capabilityIdOk, boundedBy, Bool.and_eq_true] at h
  exact dotted_notin separator_nul (fun _ => kebab_notin separator_nul) h.2

theorem runtimeGenerationIdOk_nulFree {s : String} (h : runtimeGenerationIdOk s = true) :
    NulFree s := by
  unfold runtimeGenerationIdOk at h
  unfold NulFree
  split at h
  · cases h
  · rename_i c cs hs
    simp only [Bool.and_eq_true] at h
    rw [hs]
    exact kebabRun_notin separator_nul h.1.1 h.1.2

/-- A character of a split text is the separator or stands in one of the pieces. -/
theorem split_notin {s : Char} (hne : z ≠ s) {cs : List Char} {piece : List Char → Bool}
    (hpiece : ∀ p, piece p = true → z ∉ p) (h : (splitChar s cs).all piece = true) : z ∉ cs := by
  intro hm
  obtain ⟨p, hp, hz⟩ := mem_splitChar hm hne
  exact hpiece p (List.all_eq_true.mp h p hp) hz

theorem numericIdentifier_notin (hz : z.isDigit = false) (p : List Char)
    (h : isNumericIdentifier p = true) : z ∉ p := by
  intro hm
  unfold isNumericIdentifier at h
  split at h
  · cases h
  · simp only [Bool.and_eq_true, List.all_eq_true] at h
    have hd : z.isDigit = true := by
      rcases List.mem_cons.mp hm with heq | hm
      · rw [heq]; exact h.1.1
      · exact h.1.2 z hm
    rw [hz] at hd
    cases hd

theorem buildIdentifier_notin (hz : z.isAlphanum = false) (hd : z ≠ '-') (p : List Char)
    (h : isBuildIdentifier p = true) : z ∉ p := by
  intro hm
  simp only [isBuildIdentifier, Bool.and_eq_true, List.all_eq_true] at h
  have hc := h.2 z hm
  rw [hz, Bool.false_or, beq_iff_eq] at hc
  exact hd hc

theorem exactSemverOk_nulFree {s : String} (h : exactSemverOk s = true) : NulFree s := by
  simp only [exactSemverOk, boundedBy, isExactSemver, Bool.and_eq_true, Bool.or_eq_true,
    List.isEmpty_iff] at h
  obtain ⟨-, ⟨⟨-, hcore⟩, hpre⟩, hbuild⟩ := h
  have hnumeric := numericIdentifier_notin (z := nul) (by decide)
  have hident := buildIdentifier_notin (z := nul) (by decide) (by decide)
  have hprerelease : ∀ p, isPrereleaseIdentifier p = true → nul ∉ p := by
    intro p hp
    simp only [isPrereleaseIdentifier, Bool.or_eq_true, Bool.and_eq_true] at hp
    exact hp.elim (hnumeric p) fun h => hident p h.1
  -- a part behind its mark: empty, or the mark and the pieces
  have hbehind : ∀ (cs : List Char) (m : Char) (piece : List Char → Bool), nul ≠ m →
      (∀ p, piece p = true → nul ∉ p) → (cs.dropWhile (· != m) = [] ∨
        (splitChar '.' (cs.dropWhile (· != m)).tail).all piece = true) →
      nul ∉ cs.dropWhile (· != m) := by
    intro cs m piece hm hpiece hor
    rcases hor with he | hall
    · rw [he]; exact List.not_mem_nil
    · cases hd : cs.dropWhile (· != m) with
      | nil => exact List.not_mem_nil
      | cons c rest =>
        have hc : c = m := by
          have := List.head_dropWhile_not (· != m) (by rw [hd]; simp : cs.dropWhile (· != m) ≠ [])
          simpa [hd] using this
        rw [hd] at hall
        intro hin
        rcases List.mem_cons.mp hin with heq | hin
        · exact hm (heq.trans hc)
        · exact split_notin (by decide) hpiece hall hin
  unfold NulFree
  rw [← List.takeWhile_append_dropWhile (p := (· != '+')) (l := s.toList), List.mem_append, not_or,
    ← List.takeWhile_append_dropWhile (p := (· != '-')) (l := s.toList.takeWhile (· != '+')),
    List.mem_append, not_or]
  exact ⟨⟨split_notin (by decide) hnumeric hcore, hbehind _ '-' _ (by decide) hprerelease hpre⟩,
    hbehind _ '+' _ (by decide) hident hbuild⟩

theorem packageNameOk_nulFree {s : String} (h : packageNameOk s = true) : NulFree s := by
  simp only [packageNameOk, Bool.and_eq_true] at h
  have hsegment : ∀ p, isPackageSegment p = true → nul ∉ p := by
    intro p hp hm
    unfold isPackageSegment at hp
    split at hp
    · cases hp
    · simp only [Bool.and_eq_true, List.all_eq_true] at hp
      rcases List.mem_cons.mp hm with heq | hm
      · rw [← heq] at hp
        exact absurd hp.1 (by decide)
      · exact absurd (hp.2 nul hm) (by decide)
  have hnot := split_notin (z := nul) (by decide) hsegment h.2
  unfold NulFree
  split at hnot
  · rename_i hat
    intro hm
    cases hs : s.toList with
    | nil => rw [hs] at hm; cases hm
    | cons c cs =>
      rw [hs] at hm hat hnot
      rcases List.mem_cons.mp hm with heq | hm
      · rw [← heq] at hat
        exact absurd (Option.some.inj hat) (by decide)
      · exact hnot hm
  · exact hnot

example : exactSemverOk "1.0.0-rc.1+build.07" = true ∧ exactSemverOk "1.0.01" = false := by decide

example : pluginIdOk "module.sales-crm.core" = true ∧ pluginIdOk "plugin.sales" = false := by decide

end KNex.Contracts
