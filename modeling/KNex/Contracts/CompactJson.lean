import KNex.Contracts.ParsedJson
import KNex.Contracts.StrictSchema

/-!
# The size of JSON without white space

The number of UTF-8 bytes of `JSON.stringify(value)`. A text that begins and ends between
characters (`Whole`) adds its bytes to those of what stands before it, so the size of a value is a
sum over its parts (`byteLength_compact`).
-/
namespace KNex.Contracts.CanonicalJson

open KNex.Core KNex.Core.JsonText KNex.Core.TextCoding

/-! ## Bytes of a text -/

/-- `new TextEncoder().encode(s).byteLength` -/
def byteLength (s : Str) : Nat := (encode s).length

@[simp] theorem byteLength_nil : byteLength [] = 0 := rfl

theorem byteLength_append {s t : Str} (ht : Whole t) :
    byteLength (s ++ t) = byteLength s + byteLength t := by
  unfold byteLength
  rw [encode_append ht.2, List.length_append]

theorem byteLength_ascii {s : Str} (h : ∀ c ∈ s, c.toNat < 128) : byteLength s = s.length := by
  unfold byteLength
  rw [(encode_ascii h).1, List.length_map]

theorem byteLength_literal {s : Str} (h : (s.all fun c => c.toNat < 128) = true) :
    byteLength s = s.length :=
  byteLength_ascii (List.all_iff_forall_prop.mp h)

theorem byteLength_cons {c : UInt16} (hc : c.toNat < 128) {s : Str} (hs : Whole s) :
    byteLength (c :: s) = 1 + byteLength s := by
  rw [← List.singleton_append, byteLength_append hs,
    byteLength_ascii (List.forall_mem_singleton.mpr hc)]
  rfl

/-! ## `JSON.stringify` -/

section Values

variable {N : Type} (F : Integers N)

mutual

/-- The bytes that `JSON.stringify(value)` takes. -/
def jsonBytes : JsonValue N → Nat
  | .null => 4
  | .bool true => 4
  | .bool false => 5
  | .num n => (F.print n).length
  | .str s => byteLength (quote s)
  | .arr items _ => 2 + (itemsBytes items + (items.length - 1))
  | .obj fields => 2 + (fieldsBytes fields + (fields.length - 1))

def itemsBytes : List (JsonValue N) → Nat
  | [] => 0
  | v :: items => jsonBytes v + itemsBytes items

def fieldsBytes : List (Str × JsonValue N) → Nat
  | [] => 0
  | (k, v) :: fields => byteLength (quote k) + 1 + jsonBytes v + fieldsBytes fields

end

/-! ## The size of a text is the size of its value -/

theorem whole_intercalate : ∀ {l : List Str}, (∀ s ∈ l, Whole s) → Whole (List.intercalate [44] l)
  | [], _ => ⟨rfl, rfl⟩
  | [x], h => by
    rw [List.intercalate_singleton]
    exact h x List.mem_cons_self
  | x :: y :: xs, h => by
    rw [List.intercalate_cons_cons, List.append_assoc]
    exact (h x List.mem_cons_self).append
      ((whole_intercalate fun s hs => h s (List.mem_cons_of_mem x hs)).cons (by decide) (by decide))

theorem byteLength_intercalate : ∀ {l : List Str}, (∀ s ∈ l, Whole s) →
    byteLength (List.intercalate [44] l) = (l.map byteLength).sum + (l.length - 1)
  | [], _ => rfl
  | [x], _ => by simp
  | x :: y :: xs, h => by
    have htail : ∀ s ∈ y :: xs, Whole s := fun s hs => h s (List.mem_cons_of_mem x hs)
    have hwhole := whole_intercalate htail
    rw [List.intercalate_cons_cons, List.append_assoc, List.singleton_append,
      byteLength_append (hwhole.cons (by decide) (by decide)), byteLength_cons (by decide) hwhole,
      byteLength_intercalate htail]
    simp only [List.map_cons, List.sum_cons, List.length_cons]
    omega

theorem byteLength_bracket (start close : UInt16) (hstart : start.toNat < 128)
    (hclose : close.toNat < 128) {l : List Str} (h : ∀ s ∈ l, Whole s) :
    Whole (start :: (List.intercalate [44] l ++ [close])) ∧
      byteLength (start :: (List.intercalate [44] l ++ [close])) =
        2 + ((l.map byteLength).sum + (l.length - 1)) := by
  have hend : Whole [close] := whole_ascii (List.forall_mem_singleton.mpr hclose)
  have hlist := whole_intercalate h
  have hfirst : Whole [start] := whole_ascii (List.forall_mem_singleton.mpr hstart)
  refine ⟨hfirst.append (hlist.append hend), ?_⟩
  rw [byteLength_cons hstart (hlist.append hend), byteLength_append hend,
    byteLength_intercalate h, byteLength_ascii (List.forall_mem_singleton.mpr hclose)]
  simp only [List.length_singleton]
  omega

theorem byteLength_member (k : Str) {text : Str} (h : Whole text) :
    Whole (quote k ++ 58 :: text) ∧
      byteLength (quote k ++ 58 :: text) = byteLength (quote k) + 1 + byteLength text := by
  have hcolon : Whole (58 :: text) := h.cons (by decide) (by decide)
  refine ⟨(whole_quote k).append hcolon, ?_⟩
  rw [byteLength_append hcolon, byteLength_cons (by decide) h]
  omega

theorem byteLength_number (n : N) : byteLength (F.text n) = (F.text n).length := by
  have hall : ∀ c ∈ JsonText.units "0123456789+-.eE", c.toNat < 128 :=
    List.all_iff_forall_prop.mp (by decide)
  exact byteLength_ascii fun c hc => hall c (F.units n c hc)

mutual

theorem byteLength_compact : ∀ v : JsonValue N,
    Whole (compact F v) ∧ byteLength (compact F v) = jsonBytes F v
  | .null => ⟨whole_literal (s := units "null") (by decide),
      byteLength_literal (s := units "null") (by decide)⟩
  | .bool true => ⟨whole_literal (s := units "true") (by decide),
      byteLength_literal (s := units "true") (by decide)⟩
  | .bool false => ⟨whole_literal (s := units "false") (by decide),
      byteLength_literal (s := units "false") (by decide)⟩
  | .num (.finite n) => ⟨whole_number (F := F.toNumberFormat) n, byteLength_number F n⟩
  | .num .negZero => ⟨whole_number (F := F.toNumberFormat) F.zero, byteLength_number F F.zero⟩
  | .str s => ⟨whole_quote s, rfl⟩
  | .arr items _ => by
    obtain ⟨hwhole, hsum, hlen⟩ := byteLength_compactItems items
    obtain ⟨h₁, h₂⟩ := byteLength_bracket 91 93 (by decide) (by decide) hwhole
    rw [hsum, hlen] at h₂
    exact ⟨h₁, h₂⟩
  | .obj fields => by
    obtain ⟨hwhole, hsum, hlen⟩ := byteLength_compactFields fields
    obtain ⟨h₁, h₂⟩ := byteLength_bracket 123 125 (by decide) (by decide) hwhole
    rw [hsum, hlen] at h₂
    exact ⟨h₁, h₂⟩

theorem byteLength_compactItems : ∀ items : List (JsonValue N),
    (∀ s ∈ compactItems F items, Whole s) ∧
      ((compactItems F items).map byteLength).sum = itemsBytes F items ∧
      (compactItems F items).length = items.length
  | [] => ⟨fun _ h => absurd h List.not_mem_nil, rfl, rfl⟩
  | v :: items => by
    obtain ⟨hv, hbytes⟩ := byteLength_compact v
    obtain ⟨hwhole, hsum, hlen⟩ := byteLength_compactItems items
    refine ⟨List.forall_mem_cons.mpr ⟨hv, hwhole⟩, ?_, congrArg (· + 1) hlen⟩
    rw [compactItems, List.map_cons, List.sum_cons, hbytes, hsum, itemsBytes]

theorem byteLength_compactFields : ∀ fields : List (Str × JsonValue N),
    (∀ s ∈ compactFields F fields, Whole s) ∧
      ((compactFields F fields).map byteLength).sum = fieldsBytes F fields ∧
      (compactFields F fields).length = fields.length
  | [] => ⟨fun _ h => absurd h List.not_mem_nil, rfl, rfl⟩
  | (k, v) :: fields => by
    obtain ⟨hv, hbytes⟩ := byteLength_compact v
    obtain ⟨hwhole, hsum, hlen⟩ := byteLength_compactFields fields
    obtain ⟨hmember, hsize⟩ := byteLength_member k hv
    refine ⟨List.forall_mem_cons.mpr ⟨hmember, hwhole⟩, ?_, congrArg (· + 1) hlen⟩
    rw [compactFields, List.map_cons, List.sum_cons, hsize, hbytes, hsum, fieldsBytes]

end

theorem compact_ne_nil : ∀ v : JsonValue N, compact F v ≠ []
  | .null => (by decide : units "null" ≠ [])
  | .bool true => (by decide : units "true" ≠ [])
  | .bool false => (by decide : units "false" ≠ [])
  | .num (.finite n) => F.nonempty n
  | .num .negZero => F.nonempty F.zero
  | .str _ => List.cons_ne_nil _ _
  | .arr _ _ => List.cons_ne_nil _ _
  | .obj _ => List.cons_ne_nil _ _

end Values

end KNex.Contracts.CanonicalJson
