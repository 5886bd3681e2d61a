import KNex.Core.JsString
import KNex.Core.JsonText

/-!
# Text as bytes

`TextEncoder` and a fatal `TextDecoder` between strings of code units and UTF-8. The encoder reads
a string as scalar values, with U+FFFD for each surrogate that has no partner (`scalars`); a string
without such surrogates is well-formed, and exactly these come back from their bytes
(`decode_encode`, `decode_eq_some`).
-/
namespace KNex.Core.TextCoding

open KNex.Core.JsonText

/-! ## Scalar values -/

/-- The character of a code unit alone. -/
def loneChar (c : UInt16) : Char :=
  if isLead c || isTrail c then Char.ofNat 0xFFFD else Char.ofNat c.toNat

/-- The character of a surrogate pair. -/
def pairChar (c d : UInt16) : Char :=
  Char.ofNat (0x10000 + (c.toNat - 0xD800) * 0x400 + (d.toNat - 0xDC00))

def scalars : Str → List Char
  | [] => []
  | [c] => [loneChar c]
  | c :: d :: s =>
    if isLead c && isTrail d then pairChar c d :: scalars s else loneChar c :: scalars (d :: s)

/-- `isWellFormed`: every surrogate has its partner. -/
def wellFormed : Str → Bool
  | [] => true
  | [c] => !isLead c && !isTrail c
  | c :: d :: s =>
    if isLead c && isTrail d then wellFormed s
    else !isLead c && !isTrail c && wellFormed (d :: s)

def ofChar (c : Char) : Str := (codeUnits c).map UInt16.ofNat

def ofChars (l : List Char) : Str := l.flatMap ofChar

theorem isLead_iff {c : UInt16} : isLead c = true ↔ 0xD800 ≤ c.toNat ∧ c.toNat ≤ 0xDBFF := by
  simp [isLead, UInt16.le_iff_toNat_le]

theorem isTrail_iff {c : UInt16} : isTrail c = true ↔ 0xDC00 ≤ c.toNat ∧ c.toNat ≤ 0xDFFF := by
  simp [isTrail, UInt16.le_iff_toNat_le]

theorem toNat_ofNat_valid {n : Nat} (h : n.isValidChar) : (Char.ofNat n).toNat = n := by
  rw [Char.ofNat, dif_pos h]
  rfl

theorem ofChar_lone {c : UInt16} (hlead : isLead c = false) (htrail : isTrail c = false) :
    ofChar (loneChar c) = [c] := by
  rw [← Bool.not_eq_true, isLead_iff] at hlead
  rw [← Bool.not_eq_true, isTrail_iff] at htrail
  have hc := c.toNat_lt
  have hvalid : c.toNat.isValidChar := by
    show c.toNat < 0xd800 ∨ 0xdfff < c.toNat ∧ c.toNat < 0x110000
    omega
  unfold loneChar
  rw [if_neg (by simp [isLead_iff, isTrail_iff]; omega), ofChar, codeUnits,
    toNat_ofNat_valid hvalid, if_pos (by omega), List.map_singleton, UInt16.ofNat_toNat]

theorem ofChar_pair {c d : UInt16} (hlead : isLead c = true) (htrail : isTrail d = true) :
    ofChar (pairChar c d) = [c, d] := by
  rw [isLead_iff] at hlead
  rw [isTrail_iff] at htrail
  have hvalid : (0x10000 + (c.toNat - 0xD800) * 0x400 + (d.toNat - 0xDC00)).isValidChar := by
    show _ < 0xd800 ∨ 0xdfff < _ ∧ _ < 0x110000
    omega
  unfold pairChar
  rw [ofChar, codeUnits, toNat_ofNat_valid hvalid, if_neg (by omega)]
  have hc : 0xD800 + (0x10000 + (c.toNat - 0xD800) * 0x400 + (d.toNat - 0xDC00) - 0x10000) / 0x400
      = c.toNat := by omega
  have hd : 0xDC00 + (0x10000 + (c.toNat - 0xD800) * 0x400 + (d.toNat - 0xDC00) - 0x10000) % 0x400
      = d.toNat := by omega
  rw [hc, hd]
  simp

theorem ofChars_scalars : ∀ {s : Str}, wellFormed s = true → ofChars (scalars s) = s
  | [], _ => rfl
  | [c], h => by
    simp only [wellFormed, Bool.and_eq_true, Bool.not_eq_true'] at h
    rw [scalars, ofChars, List.flatMap_singleton, ofChar_lone h.1 h.2]
  | c :: d :: s, h => by
    rw [wellFormed] at h
    rw [scalars]
    split
    · rename_i hpair
      rw [if_pos hpair] at h
      rw [Bool.and_eq_true] at hpair
      have ih := ofChars_scalars h
      rw [ofChars] at ih
      rw [ofChars, List.flatMap_cons, ofChar_pair hpair.1 hpair.2, ih]
      rfl
    · rename_i hpair
      rw [if_neg hpair] at h
      simp only [Bool.and_eq_true, Bool.not_eq_true'] at h
      have ih := ofChars_scalars h.2
      rw [ofChars] at ih
      rw [ofChars, List.flatMap_cons, ofChar_lone h.1.1 h.1.2, ih]
      rfl

/-- One character at the front. -/
theorem scalars_ofChar_append (c : Char) {s : Str} (hs : wellFormed s = true) :
    scalars (ofChar c ++ s) = c :: scalars s ∧ wellFormed (ofChar c ++ s) = true := by
  have hc := toNat_not_surrogate c
  unfold ofChar codeUnits
  split
  · rename_i hbmp
    have hunit : (UInt16.ofNat c.toNat).toNat = c.toNat := UInt16.toNat_ofNat_of_lt' (by omega)
    have hlead : isLead (UInt16.ofNat c.toNat) = false := by
      rw [← Bool.not_eq_true, isLead_iff, hunit]
      omega
    have htrail : isTrail (UInt16.ofNat c.toNat) = false := by
      rw [← Bool.not_eq_true, isTrail_iff, hunit]
      omega
    have hlone : loneChar (UInt16.ofNat c.toNat) = c := by
      rw [loneChar, hlead, htrail, if_neg (by simp), hunit, Char.ofNat_toNat]
    cases s with
    | nil => simp [scalars, wellFormed, hlead, htrail, hlone]
    | cons d s => simp [scalars, wellFormed, hlead, htrail, hlone, hs]
  · rename_i hbmp
    obtain ⟨u, hu⟩ : ∃ u, u = UInt16.ofNat (0xD800 + (c.toNat - 0x10000) / 0x400) := ⟨_, rfl⟩
    obtain ⟨v, hv⟩ : ∃ v, v = UInt16.ofNat (0xDC00 + (c.toNat - 0x10000) % 0x400) := ⟨_, rfl⟩
    rw [List.map_cons, List.map_singleton, ← hu, ← hv]
    have hhigh : u.toNat = 0xD800 + (c.toNat - 0x10000) / 0x400 := by
      rw [hu]
      exact UInt16.toNat_ofNat_of_lt' (by show _ < 65536; omega)
    have hlow : v.toNat = 0xDC00 + (c.toNat - 0x10000) % 0x400 := by
      rw [hv]
      exact UInt16.toNat_ofNat_of_lt' (by show _ < 65536; omega)
    have hlead : isLead u = true := by rw [isLead_iff, hhigh]; omega
    have htrail : isTrail v = true := by rw [isTrail_iff, hlow]; omega
    have hpair : pairChar u v = c := by
      rw [pairChar, hhigh, hlow, show 0x10000 + (0xD800 + (c.toNat - 0x10000) / 0x400 - 0xD800) *
        0x400 + (0xDC00 + (c.toNat - 0x10000) % 0x400 - 0xDC00) = c.toNat by omega,
        Char.ofNat_toNat]
    simp [scalars, wellFormed, hlead, htrail, hpair, hs]

theorem scalars_ofChars : ∀ l : List Char,
    scalars (ofChars l) = l ∧ wellFormed (ofChars l) = true
  | [] => ⟨rfl, rfl⟩
  | c :: l => by
    obtain ⟨hscalars, hwell⟩ := scalars_ofChars l
    obtain ⟨h1, h2⟩ := scalars_ofChar_append c hwell
    rw [hscalars] at h1
    exact ⟨h1, h2⟩

/-- Strings are read apart where no pair is split. -/
theorem scalars_append {t : Str} (ht : startsTrail t = false) : ∀ s : Str,
    scalars (s ++ t) = scalars s ++ scalars t ∧ wellFormed (s ++ t) = (wellFormed s && wellFormed t)
  | [] => ⟨rfl, (Bool.true_and _).symm⟩
  | [c] => by
    cases t with
    | nil => simp [scalars, wellFormed]
    | cons d t =>
      simp only [startsTrail] at ht
      simp [scalars, wellFormed, ht]
  | c :: d :: s => by
    obtain ⟨h1, w1⟩ := scalars_append ht s
    obtain ⟨h2, w2⟩ := scalars_append ht (d :: s)
    rw [List.cons_append] at h2 w2
    rw [List.cons_append, List.cons_append, scalars, scalars, wellFormed, wellFormed]
    by_cases hpair : (isLead c && isTrail d) = true
    · rw [if_pos hpair, if_pos hpair, if_pos hpair, if_pos hpair, h1, w1]
      exact ⟨rfl, rfl⟩
    · rw [if_neg hpair, if_neg hpair, if_neg hpair, if_neg hpair, h2, w2]
      exact ⟨rfl, by simp only [Bool.and_assoc]⟩

/-! ## UTF-8 -/

/-- `new TextEncoder().encode(s)`. -/
def encode (s : Str) : List UInt8 := (scalars s).flatMap String.utf8EncodeChar

/-- `new TextDecoder("utf-8", { fatal: true, ignoreBOM: true }).decode(bytes)`. -/
def decode (bytes : List UInt8) : Option Str :=
  (ByteArray.mk bytes.toArray).utf8Decode?.map fun chars => ofChars chars.toList

theorem encode_append {s t : Str} (ht : startsTrail t = false) :
    encode (s ++ t) = encode s ++ encode t := by
  unfold encode
  rw [(scalars_append ht s).1, List.flatMap_append]

/-- An ASCII string is one byte for each code unit. -/
theorem encode_ascii : ∀ {s : Str}, (∀ c ∈ s, c.toNat < 128) →
    encode s = s.map (fun c => UInt8.ofNat c.toNat) ∧ wellFormed s = true
  | [], _ => ⟨rfl, rfl⟩
  | c :: s, h => by
    have hc := h c List.mem_cons_self
    obtain ⟨hs, hw⟩ := encode_ascii fun d hd => h d (List.mem_cons_of_mem c hd)
    have hlead : isLead c = false := by rw [← Bool.not_eq_true, isLead_iff]; omega
    have htrail : isTrail c = false := by rw [← Bool.not_eq_true, isTrail_iff]; omega
    have hs' : startsTrail s = false := by
      cases s with
      | nil => rfl
      | cons d s =>
        have hd := h d (List.mem_cons_of_mem c List.mem_cons_self)
        rw [startsTrail, ← Bool.not_eq_true, isTrail_iff]
        omega
    have hone : encode [c] = [UInt8.ofNat c.toNat] := by
      have hnat : (Char.ofNat c.toNat).toNat = c.toNat := toNat_ofNat_valid (.inl (by omega))
      rw [encode, scalars, List.flatMap_singleton, loneChar, hlead, htrail, if_neg (by simp)]
      unfold String.utf8EncodeChar
      rw [show (Char.ofNat c.toNat).val.toNat = c.toNat from hnat]
      exact if_pos (by omega)
    refine ⟨?_, ?_⟩
    · rw [← List.singleton_append, encode_append hs', hone, hs]
      rfl
    · rw [← List.singleton_append, (scalars_append hs' [c]).2, hw, wellFormed, hlead, htrail]
      rfl

theorem encode_eq (s : Str) : ByteArray.mk (encode s).toArray = (scalars s).utf8Encode := by
  refine ByteArray.ext ?_
  rw [List.utf8Encode, List.data_toByteArray]
  rfl

theorem decode_encode {s : Str} (h : wellFormed s = true) : decode (encode s) = some s := by
  unfold decode
  rw [encode_eq, List.utf8Decode?_utf8Encode, Option.map_some, List.toList_toArray,
    ofChars_scalars h]

theorem decode_eq_some {bytes : List UInt8} {s : Str} :
    decode bytes = some s ↔ encode s = bytes ∧ wellFormed s = true := by
  constructor
  · intro h
    unfold decode at h
    rw [Option.map_eq_some_iff] at h
    obtain ⟨chars, hchars, rfl⟩ := h
    obtain ⟨hscalars, hwell⟩ := scalars_ofChars chars.toList
    refine ⟨?_, hwell⟩
    have hget := @ByteArray.utf8Encode_get_utf8Decode? ⟨bytes.toArray⟩ (by rw [hchars]; rfl)
    simp only [hchars, Option.get_some] at hget
    have hbytes := encode_eq (ofChars chars.toList)
    rw [hscalars, hget] at hbytes
    exact congrArg Array.toList (ByteArray.mk.inj hbytes)
  · rintro ⟨rfl, hwell⟩
    exact decode_encode hwell

end KNex.Core.TextCoding
