import KNex.Core.Except
import KNex.Core.JsMap

/-!
# High-water marks

A table that keeps, for each key, the highest value seen so far, under a comparison that may throw.
`Orders` says what the comparison owes on the valid values: it returns, and it is a total preorder.
`raise` records one value. `Raised` is what any sequence of such steps leaves: no mark went down,
every recorded value is at or below its mark, and every mark was there before or was recorded. A
loop keeps it round by round (`Raised.snoc`).
-/
namespace KNex.Core.HighWater

variable {κ ν ε : Type} {cmp : ν → ν → Except ε Ordering} {valid : ν → Prop}

/-- `cmp low high` returns, and not that `low` is above. -/
def AtMost (cmp : ν → ν → Except ε Ordering) (low high : ν) : Prop :=
  ∃ o, cmp low high = .ok o ∧ o ≠ .gt

/-- On the valid values `cmp` returns and is a total preorder. -/
structure Orders (cmp : ν → ν → Except ε Ordering) (valid : ν → Prop) : Prop where
  returns : ∀ {a b}, valid a → valid b → ∃ o, cmp a b = .ok o
  refl : ∀ {a}, valid a → AtMost cmp a a
  swap : ∀ {a b o}, valid a → valid b → cmp a b = .ok o → cmp b a = .ok o.swap
  trans : ∀ {a b c}, valid a → valid b → valid c → AtMost cmp a b → AtMost cmp b c → AtMost cmp a c

theorem Orders.flip (ho : Orders cmp valid) {a b : ν} {o : Ordering} (ha : valid a) (hb : valid b)
    (h : cmp a b = .ok o) (hne : o ≠ .lt) : AtMost cmp b a := by
  refine ⟨o.swap, ho.swap ha hb h, ?_⟩
  intro hgt
  exact hne (Ordering.swap_eq_gt.mp hgt)

theorem Orders.total (ho : Orders cmp valid) {a b : ν} (ha : valid a) (hb : valid b) :
    AtMost cmp a b ∨ AtMost cmp b a := by
  obtain ⟨o, h⟩ := ho.returns ha hb
  by_cases hgt : o = .gt
  · exact .inr (ho.flip ha hb h (by simp [hgt]))
  · exact .inl ⟨o, h, hgt⟩

/-! ## Marks -/

variable [DecidableEq κ]

/-- Every mark is a valid value. -/
def Valid (valid : ν → Prop) (marks : JsMap κ ν) : Prop := ∀ k v, marks.get? k = some v → valid v

theorem valid_empty : Valid valid (JsMap.empty : JsMap κ ν) := nofun

/-- Records a value under a key, if none or a lower one is there. -/
def raise (cmp : ν → ν → Except ε Ordering) (marks : JsMap κ ν) (e : κ × ν) :
    Except ε (JsMap κ ν) :=
  match marks.get? e.1 with
  | none => pure (marks.set e.1 e.2)
  | some mark => do
    if (← cmp e.2 mark) = .gt then pure (marks.set e.1 e.2) else pure marks

/-- `after` is `before` with the values of `es` recorded. -/
structure Raised (cmp : ν → ν → Except ε Ordering) (before : JsMap κ ν) (es : List (κ × ν))
    (after : JsMap κ ν) : Prop where
  kept : ∀ k v, before.get? k = some v → ∃ w, after.get? k = some w ∧ AtMost cmp v w
  reached : ∀ k v, (k, v) ∈ es → ∃ w, after.get? k = some w ∧ AtMost cmp v w
  origin : ∀ k w, after.get? k = some w → before.get? k = some w ∨ (k, w) ∈ es

theorem Raised.nil (ho : Orders cmp valid) {marks : JsMap κ ν} (hv : Valid valid marks) :
    Raised cmp marks [] marks where
  kept k v h := ⟨v, h, ho.refl (hv k v h)⟩
  reached _ _ h := absurd h List.not_mem_nil
  origin _ _ h := .inl h

theorem Raised.marks_valid {before after : JsMap κ ν} {es : List (κ × ν)}
    (h : Raised cmp before es after) (hv : Valid valid before) (hes : ∀ e ∈ es, valid e.2) :
    Valid valid after := by
  intro k w hw
  rcases h.origin k w hw with hb | he
  · exact hv k w hb
  · exact hes (k, w) he

/-- One more value. -/
theorem Raised.snoc (ho : Orders cmp valid) {first marks after : JsMap κ ν} {es : List (κ × ν)}
    {e : κ × ν} (h : Raised cmp first es marks) (hv : Valid valid first)
    (hes : ∀ e ∈ es, valid e.2) (he : valid e.2) (hr : Raised cmp marks [e] after) :
    Raised cmp first (es ++ [e]) after := by
  have hmarks := h.marks_valid hv hes
  have hafter := hr.marks_valid hmarks (by simpa using he)
  -- what was at or below a mark still is
  have hlift : ∀ k v w, valid v → marks.get? k = some w → AtMost cmp v w →
      ∃ w', after.get? k = some w' ∧ AtMost cmp v w' := by
    intro k v w hvalid hw hle
    obtain ⟨w', hw', hle'⟩ := hr.kept k w hw
    exact ⟨w', hw', ho.trans hvalid (hmarks k w hw) (hafter k w' hw') hle hle'⟩
  refine ⟨?_, ?_, ?_⟩
  · intro k v hb
    obtain ⟨w, hw, hle⟩ := h.kept k v hb
    exact hlift k v w (hv k v hb) hw hle
  · intro k v hm
    rcases List.mem_append.mp hm with hm | hm
    · obtain ⟨w, hw, hle⟩ := h.reached k v hm
      exact hlift k v w (hes (k, v) hm) hw hle
    · exact hr.reached k v hm
  · intro k w hw
    rcases hr.origin k w hw with hm | hm
    · rcases h.origin k w hm with hb | hb
      · exact .inl hb
      · exact .inr (List.mem_append_left _ hb)
    · exact .inr (List.mem_append_right _ hm)

/-- A value put where no higher one is. -/
theorem raised_set (ho : Orders cmp valid) {marks : JsMap κ ν} {e : κ × ν}
    (hv : Valid valid marks) (he : valid e.2)
    (hle : ∀ mark, marks.get? e.1 = some mark → AtMost cmp mark e.2) :
    Raised cmp marks [e] (marks.set e.1 e.2) := by
  refine ⟨?_, ?_, ?_⟩
  · intro k v hk
    rw [JsMap.get?_set]
    by_cases hkey : k = e.1
    · subst hkey
      exact ⟨e.2, if_pos rfl, hle v hk⟩
    · exact ⟨v, by rw [if_neg hkey]; exact hk, ho.refl (hv k v hk)⟩
  · intro k v hm
    rw [List.mem_singleton] at hm; subst hm
    exact ⟨v, JsMap.get?_set_self .., ho.refl he⟩
  · intro k w hw
    rw [JsMap.get?_set] at hw
    split at hw
    · rename_i hkey
      obtain rfl := Option.some.inj hw
      exact .inr (by rw [hkey]; exact List.mem_singleton_self e)
    · exact .inl hw

theorem raise_ok (ho : Orders cmp valid) {marks after : JsMap κ ν} {e : κ × ν}
    (hv : Valid valid marks) (he : valid e.2) (h : raise cmp marks e = .ok after) :
    Raised cmp marks [e] after := by
  unfold raise at h
  split at h
  · rename_i hnone
    obtain rfl := Except.ok.inj h
    exact raised_set ho hv he fun mark hm => by rw [hnone] at hm; cases hm
  · rename_i mark hmark
    rw [bind_eq_ok] at h
    obtain ⟨o, ho', h⟩ := h
    have hvalid := hv e.1 mark hmark
    split at h
    · rename_i hgt
      obtain rfl := Except.ok.inj h
      refine raised_set ho hv he fun mark' hm => ?_
      obtain rfl := Option.some.inj (hmark.symm.trans hm)
      exact ho.flip he hvalid ho' (by simp [hgt])
    · rename_i hgt
      obtain rfl := Except.ok.inj h
      have hnil := Raised.nil ho hv
      refine ⟨hnil.kept, ?_, fun k w hw => .inl hw⟩
      intro k v hm
      rw [List.mem_singleton] at hm; subst hm
      exact ⟨mark, hmark, o, ho', hgt⟩

/-- The rule of a loop over `f` each of whose rounds records one value. -/
theorem foldlM_raised (ho : Orders cmp valid) {f : JsMap κ ν → κ × ν → Except ε (JsMap κ ν)}
    (hf : ∀ marks e after, Valid valid marks → valid e.2 → f marks e = .ok after →
      Raised cmp marks [e] after) {marks after : JsMap κ ν} {es : List (κ × ν)}
    (hv : Valid valid marks) (hes : ∀ e ∈ es, valid e.2) (h : es.foldlM f marks = .ok after) :
    Raised cmp marks es after := by
  refine foldlM_eq_ok h (Raised.nil ho hv) ?_
  intro gone e rest m m' hl hP hstep
  have hgone : ∀ e ∈ gone, valid e.2 := fun e he => hes e (by rw [hl]; exact List.mem_append_left _ he)
  have he : valid e.2 := hes e (by rw [hl]; simp)
  exact hP.snoc ho hv hgone he (hf m e m' (hP.marks_valid hv hgone) he hstep)

end KNex.Core.HighWater
