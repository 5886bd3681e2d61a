import KNex.Extensions.Tar

/-!
# Fields of an archive header

What is written into a field is read back from it: a number from its octal digits (`octal_field`),
a text as far as it is not cut (`cutNul_append_zeros`), and the checksum over spaces in its own place
(`header_eq_ok`).

A path is cut by a regular expression whose `.` stops at line terminators: a NUL ends the text only
where no line terminator follows.
-/
namespace KNex.Extensions.Tar

open KNex.Core KNex.Core.JsonText KNex.Core.TextCoding

@[simp] theorem failWhen_eq_ok {condition : Prop} [Decidable condition] {message : Str} {u : Unit} :
    failWhen condition message = .ok u ↔ ¬ condition := failIf_eq_ok

/-! ## Cutting at a NUL -/

/-- Every NUL of the text has a line terminator behind it. -/
def NoFinalNul (text : Str) : Prop :=
  ∀ before after, text = before ++ 0 :: after → after.any isLineTerminator = true

/-- No NUL of the text has a line terminator behind it. -/
def NulsLast (text : Str) : Prop :=
  ∀ before after, text = before ++ 0 :: after → after.any isLineTerminator = false

theorem noFinalNul_cons {c : UInt16} {s : Str} :
    NoFinalNul (c :: s) ↔ (c = 0 → s.any isLineTerminator = true) ∧ NoFinalNul s := by
  constructor
  · intro h
    refine ⟨?_, fun before after heq => h (c :: before) after (by rw [heq]; rfl)⟩
    rintro rfl
    exact h [] s rfl
  · intro ⟨hc, hs⟩ before after heq
    cases before with
    | nil =>
      cases heq
      exact hc rfl
    | cons b before =>
      cases heq
      exact hs before after rfl

theorem nulsLast_cons {c : UInt16} {s : Str} :
    NulsLast (c :: s) ↔ (c = 0 → s.any isLineTerminator = false) ∧ NulsLast s := by
  constructor
  · intro h
    refine ⟨?_, fun before after heq => h (c :: before) after (by rw [heq]; rfl)⟩
    rintro rfl
    exact h [] s rfl
  · intro ⟨hc, hs⟩ before after heq
    cases before with
    | nil =>
      cases heq
      exact hc rfl
    | cons b before =>
      cases heq
      exact hs before after rfl

/-- What is cut off does not have a line terminator. -/
theorem any_cutNul : ∀ s : Str, (cutNul s).any isLineTerminator = s.any isLineTerminator
  | [] => rfl
  | c :: s => by
    rw [cutNul]
    split
    · rename_i h
      simp only [Bool.and_eq_true, decide_eq_true_eq, Bool.not_eq_true'] at h
      rw [List.any_nil, List.any_cons, h.2, h.1]
      rfl
    · rw [List.any_cons, List.any_cons, any_cutNul s]

theorem noFinalNul_cutNul : ∀ s : Str, NoFinalNul (cutNul s)
  | [] => fun before after h => absurd h (by simp [cutNul])
  | c :: s => by
    rw [cutNul]
    split
    · exact fun before after h => absurd h (by simp)
    · rename_i h
      refine noFinalNul_cons.mpr ⟨fun hc => ?_, noFinalNul_cutNul s⟩
      rw [any_cutNul]
      simpa [hc] using h

/-- A text that is not cut, with zeros behind it. -/
theorem cutNul_append_zeros : ∀ {s : Str} (n : Nat), NoFinalNul s →
    cutNul (s ++ List.replicate n 0) = s
  | [], 0, _ => rfl
  | [], n + 1, _ => by
    rw [List.nil_append, List.replicate_succ, cutNul, if_pos]
    simp [isLineTerminator]
  | c :: s, n, h => by
    rw [noFinalNul_cons] at h
    rw [List.cons_append, cutNul, if_neg, cutNul_append_zeros n h.2]
    simp only [Bool.and_eq_true, decide_eq_true_eq, Bool.not_eq_true', List.any_append, not_and]
    intro hc
    simp [h.1 hc]

theorem nul_not_mem_cutNul : ∀ {s : Str}, (0 ∉ cutNul s) ↔ NulsLast s
  | [] => by simp [cutNul, NulsLast]
  | c :: s => by
    rw [cutNul, nulsLast_cons]
    split
    · rename_i h
      simp only [Bool.and_eq_true, decide_eq_true_eq, Bool.not_eq_true'] at h
      refine iff_of_true (by simp) ⟨fun _ => h.2, fun before after heq => ?_⟩
      have hs := h.2
      rw [heq, List.any_append, List.any_cons, Bool.or_eq_false_iff, Bool.or_eq_false_iff] at hs
      exact hs.2.2
    · rename_i h
      rw [List.mem_cons, not_or, nul_not_mem_cutNul]
      refine and_congr_left fun _ => ?_
      constructor
      · intro hne hc
        exact absurd hc.symm hne
      · intro himp hc
        refine h ?_
        simp [← hc, himp hc.symm]

theorem wellFormed_cutNul {s : Str} (h : wellFormed s = true) : wellFormed (cutNul s) = true := by
  have hsplit : ∀ s : Str, cutNul s = s ∨ ∃ t, s = cutNul s ++ 0 :: t := by
    intro s
    induction s with
    | nil => exact .inl rfl
    | cons c s ih =>
      rw [cutNul]
      split
      · rename_i hc
        simp only [Bool.and_eq_true, decide_eq_true_eq] at hc
        exact .inr ⟨s, by rw [hc.1]; rfl⟩
      · rcases ih with heq | ⟨t, ht⟩
        · exact .inl (by rw [heq])
        · exact .inr ⟨t, by rw [List.cons_append, ← ht]⟩
  rcases hsplit s with heq | ⟨t, ht⟩
  · rwa [heq]
  · rw [ht, (scalars_append (t := 0 :: t) rfl (cutNul s)).2, Bool.and_eq_true] at h
    exact h.1

/-! ## Octal fields -/

theorem mem_toDigits {c : Char} : ∀ {n : Nat}, c ∈ Nat.toDigits 8 n →
    48 ≤ c.toNat ∧ c.toNat ≤ 55 := by
  have hdigit : ∀ d < 8, 48 ≤ (Nat.digitChar d).toNat ∧ (Nat.digitChar d).toNat ≤ 55 := by decide
  intro n
  induction n using Nat.strongRecOn with
  | ind n ih =>
    intro hc
    by_cases hn : n < 8
    · rw [Nat.toDigits_of_lt_base hn, List.mem_singleton] at hc
      rw [hc]
      exact hdigit n hn
    · rw [Nat.toDigits_of_base_le (by omega) (by omega), List.mem_append, List.mem_singleton] at hc
      rcases hc with hc | rfl
      · exact ih (n / 8) (by omega) hc
      · exact hdigit _ (by omega)

theorem mem_octalText {width value : Nat} {c : UInt16} (h : c ∈ octalText width value) :
    48 ≤ c.toNat ∧ c.toNat ≤ 55 := by
  unfold octalText at h
  rw [List.mem_append, List.mem_map] at h
  rcases h with h | ⟨d, hd, rfl⟩
  · rw [List.eq_of_mem_replicate h]
    decide
  · obtain ⟨h1, h2⟩ := mem_toDigits hd
    rw [UInt16.toNat_ofNat_of_lt' (by show _ < 65536; omega)]
    exact ⟨h1, h2⟩

theorem length_octalText {width value : Nat} (hw : 0 < width) (h : value < 8 ^ width) :
    (octalText width value).length = width := by
  unfold octalText
  have hlen := (Nat.length_toDigits_le_iff (b := 8) (by omega) hw).mpr h
  simp only [List.length_append, List.length_replicate, List.length_map]
  omega

theorem octalValue_append (a b : Str) :
    octalValue (a ++ b) = b.foldl (fun n c => 8 * n + (c.toNat - 48)) (octalValue a) :=
  List.foldl_append

theorem octalValue_octalText (width value : Nat) : octalValue (octalText width value) = value := by
  have hzeros : ∀ n, octalValue (List.replicate n 48) = 0 := by
    intro n
    induction n with
    | zero => rfl
    | succ n ih =>
      rw [List.replicate_succ', octalValue_append, ih]
      rfl
  have hdigits : ∀ (l : List Char) (n : Nat), (∀ c ∈ l, c.toNat ≤ 55) →
      (l.map fun c => UInt16.ofNat c.toNat).foldl (fun n c => 8 * n + (c.toNat - 48)) n =
        Nat.ofDigitChars 8 l n := by
    intro l
    induction l with
    | nil => intro n _; rfl
    | cons c l ih =>
      intro n h
      have hc := h c List.mem_cons_self
      rw [List.map_cons, List.foldl_cons, Nat.ofDigitChars_cons,
        UInt16.toNat_ofNat_of_lt' (by show _ < 65536; omega)]
      exact ih _ fun d hd => h d (List.mem_cons_of_mem c hd)
  unfold octalText
  rw [octalValue_append, hzeros, hdigits _ _ fun c hc => (mem_toDigits hc).2,
    Nat.ofDigitChars_toDigits (by omega) (by omega)]

/-- The text of an ASCII text's bytes. -/
theorem ascii_encode {s : Str} (h : ∀ c ∈ s, c.toNat < 128) : ascii (encode s) = s := by
  rw [(encode_ascii h).1, ascii, List.map_map]
  refine (List.map_congr_left fun c hc => ?_).trans (List.map_id s)
  have hlt := h c hc
  show UInt16.ofNat ((UInt8.ofNat c.toNat).toNat % 128) = c
  rw [UInt8.toNat_ofNat', Nat.mod_eq_of_lt (show c.toNat < 2 ^ 8 by omega), Nat.mod_eq_of_lt hlt,
    UInt16.ofNat_toNat]

/-- A number is read from its digits, whatever short of a line terminator follows a NUL. -/
theorem octal_field {width value : Nat} (hvalue : value ≤ 9007199254740991) {rest : Str}
    (hrest : ∀ c ∈ rest, c.toNat < 128 ∧ isLineTerminator c = false) :
    octal (encode (octalText width value ++ 0 :: rest)) = .ok value := by
  have hdigit : ∀ c ∈ octalText width value, 48 ≤ c.toNat ∧ c.toNat ≤ 55 :=
    fun _ => mem_octalText
  have hcut : cutNul (octalText width value ++ 0 :: rest) = octalText width value := by
    have hcuts : ∀ s : Str, (∀ c ∈ s, 48 ≤ c.toNat) → cutNul (s ++ 0 :: rest) = s := by
      intro s
      induction s with
      | nil =>
        intro _
        rw [List.nil_append, cutNul, if_pos]
        simp only [decide_true, Bool.true_and, Bool.not_eq_true']
        rw [List.any_eq_false]
        intro c hc
        rw [(hrest c hc).2]
        exact Bool.false_ne_true
      | cons c s ih =>
        intro h
        have hc := h c List.mem_cons_self
        have hne : c ≠ 0 := by
          rintro rfl
          exact absurd hc (by decide)
        rw [List.cons_append, cutNul, if_neg (by simp [hne]),
          ih fun d hd => h d (List.mem_cons_of_mem c hd)]
    exact hcuts _ fun c hc => (hdigit c hc).1
  have hspace : ∀ s : Str, (∀ c ∈ s, 48 ≤ c.toNat) → s.dropWhile isAsciiSpace = s := by
    intro s h
    cases s with
    | nil => rfl
    | cons c s =>
      have hc := h c List.mem_cons_self
      rw [List.dropWhile_cons_of_neg]
      simp only [isAsciiSpace, Bool.or_eq_true, Bool.and_eq_true, decide_eq_true_eq,
        UInt16.le_iff_toNat_le, not_or, not_and]
      refine ⟨fun _ => by show ¬ c.toNat ≤ 13; omega, ?_⟩
      rintro rfl
      exact absurd hc (by decide)
  have htrim : trim (octalText width value) = octalText width value := by
    unfold trim
    rw [hspace _ fun c hc => (hdigit c hc).1,
      hspace _ fun c hc => (hdigit c (List.mem_reverse.mp hc)).1, List.reverse_reverse]
  have hall : (octalText width value).all isOctalDigit = true := by
    rw [List.all_eq_true]
    intro c hc
    obtain ⟨h1, h2⟩ := hdigit c hc
    simp only [isOctalDigit, Bool.and_eq_true, decide_eq_true_eq, UInt16.le_iff_toNat_le]
    exact ⟨h1, h2⟩
  have hascii : ∀ c ∈ octalText width value ++ 0 :: rest, c.toNat < 128 := by
    intro c hc
    rcases List.mem_append.mp hc with hc | hc
    · have := hdigit c hc
      omega
    · rcases List.mem_cons.mp hc with rfl | hc
      · decide
      · exact (hrest c hc).1
  unfold octal
  rw [ascii_encode hascii, hcut, htrim]
  dsimp only
  rw [octalValue_octalText]
  simp only [bind_eq_ok, failWhen_eq_ok]
  exact ⟨(), by simp [hall], (), by omega, rfl⟩

/-! ## Headers -/

theorem writeString_eq_ok {target result : List UInt8} {offset width : Nat} {value : Str} :
    writeString target offset width value = .ok result ↔
      (encode value).length ≤ width ∧ setBytes target offset (encode value) = result := by
  unfold writeString
  dsimp only
  rw [bind_eq_ok]
  simp only [failIf_eq_ok, Nat.not_lt]
  constructor
  · rintro ⟨⟨⟩, hlen, h⟩
    cases h
    exact ⟨hlen, rfl⟩
  · intro ⟨hlen, h⟩
    exact ⟨(), hlen, congrArg Except.ok h⟩

theorem encode_octalText (width value : Nat) :
    (encode (octalText width value)).length = (octalText width value).length := by
  have hascii : ∀ c ∈ octalText width value, c.toNat < 128 := by
    intro c hc
    have := mem_octalText hc
    omega
  rw [(encode_ascii hascii).1, List.length_map]

/-- A number that fits its field fills it. -/
theorem length_encode_octalText {width value : Nat} (hw : 0 < width)
    (h : (encode (octalText width value)).length ≤ width) :
    (encode (octalText width value)).length = width ∧ value < 8 ^ width := by
  rw [encode_octalText] at h ⊢
  have hlt : value < 8 ^ width := by
    refine (Nat.length_toDigits_le_iff (b := 8) (by omega) hw).mp ?_
    unfold octalText at h
    simp only [List.length_append, List.length_replicate, List.length_map] at h
    omega
  exact ⟨length_octalText hw hlt, hlt⟩

theorem byteSum_le (bytes : List UInt8) : byteSum bytes ≤ 255 * bytes.length := by
  induction bytes with
  | nil => exact Nat.le_refl _
  | cons byte bytes ih =>
    have hbyte := byte.toNat_lt
    unfold byteSum at ih ⊢
    rw [List.map_cons, List.sum_cons, List.length_cons]
    omega

/-- What a reader needs of a header. -/
structure HeaderOf (path : Str) (size : Nat) (header : List UInt8) : Prop where
  length : header.length = 512
  pathFits : (encode path).length ≤ 100
  path : subarray header 0 100 = encode path ++ List.replicate (100 - (encode path).length) 0
  sizeFits : size < 8 ^ 11
  size : subarray header 124 136 = encode (octalText 11 size ++ [0])
  type : header.getD 156 0 = 0x30
  magic : subarray header 257 263 = encode (units "ustar") ++ [0]
  zeros : subarray header 345 500 = List.replicate 155 0
  checksum : checksum header = .ok ()

/-- One write into a header. -/
structure Written (before : List UInt8) (offset : Nat) (bytes after : List UInt8) : Prop where
  length : after.length = 512
  other : ∀ start stop, stop ≤ offset ∨ offset + bytes.length ≤ start →
    subarray after start stop = subarray before start stop
  start : ∀ stop, offset + bytes.length ≤ stop →
    subarray after offset stop = bytes ++ subarray before (offset + bytes.length) stop

theorem written {before bytes : List UInt8} {offset : Nat} (hlen : before.length = 512)
    (hfits : offset + bytes.length ≤ 512) : Written before offset bytes
      (setBytes before offset bytes) where
  length := by rw [length_setBytes (by omega), hlen]
  other _ _ h := subarray_setBytes_of_disjoint (by omega) h
  start _ h := subarray_setBytes_start (by omega) h

theorem length_encode_checksum {value : Nat} (h : value < 8 ^ 6) :
    (encode (octalText 6 value ++ [0, 32])).length = 8 := by
  have hascii : ∀ c ∈ octalText 6 value ++ [0, 32], c.toNat < 128 := by
    intro c hc
    rcases List.mem_append.mp hc with hc | hc
    · have := mem_octalText hc
      omega
    · simp only [List.mem_cons, List.not_mem_nil, or_false] at hc
      rcases hc with rfl | rfl <;> decide
  rw [(encode_ascii hascii).1, List.length_map, List.length_append, length_octalText (by omega) h]
  rfl

/-- Each write of a header falls into a field of its own. -/
theorem header_eq_ok {path : Str} {size : Nat} {result : List UInt8}
    (h : header path size = .ok result) : HeaderOf path size result := by
  unfold header writeOctal at h
  simp only [bind_eq_ok, writeString_eq_ok] at h
  obtain ⟨a1, ⟨hpath, h1⟩, a2, ⟨hmode, h2⟩, a3, ⟨huid, h3⟩, a4, ⟨hgid, h4⟩, a5, ⟨hsize, h5⟩, a6,
    ⟨hmtime, h6⟩, a8, ⟨-, h8⟩, a9, ⟨-, h9⟩, hsum, h10⟩ := h
  obtain ⟨hsize, hsizeFits⟩ := length_encode_octalText (by omega) hsize
  have hmagic : (encode (units "ustar")).length = 5 := by decide
  have hversion : (encode (units "00")).length = 2 := by decide
  have hspaces : (List.replicate (156 - 148) (0x20 : UInt8)).length = 8 := List.length_replicate
  have htype : [(0x30 : UInt8)].length = 1 := rfl
  have w1 : Written (List.replicate 512 0) 0 (encode path) a1 :=
    h1 ▸ written List.length_replicate (by omega)
  have w2 : Written a1 100 (encode (octalText (8 - 1) 0o644)) a2 := h2 ▸ written w1.length (by omega)
  have w3 : Written a2 108 (encode (octalText (8 - 1) 0)) a3 := h3 ▸ written w2.length (by omega)
  have w4 : Written a3 116 (encode (octalText (8 - 1) 0)) a4 := h4 ▸ written w3.length (by omega)
  have w5 : Written a4 124 (encode (octalText (12 - 1) size)) a5 :=
    h5 ▸ written w4.length (by omega)
  have w6 : Written a5 136 (encode (octalText (12 - 1) 0)) a6 := h6 ▸ written w5.length (by omega)
  have w7 : Written a6 148 (List.replicate (156 - 148) 0x20) (fillBytes a6 0x20 148 156) :=
    written w6.length (by omega)
  have w8 : Written _ 156 [0x30] (setBytes (fillBytes a6 0x20 148 156) 156 [0x30]) :=
    written w7.length (by omega)
  have w9 : Written _ 257 (encode (units "ustar")) a8 := h8 ▸ written w8.length (by omega)
  have w10 : Written a8 263 (encode (units "00")) a9 := h9 ▸ written w9.length (by omega)
  have hbelow := byteSum_le a9
  rw [w10.length] at hbelow
  have hsum := length_encode_checksum (show byteSum a9 < 8 ^ 6 by omega)
  have w11 : Written a9 148 _ result := h10 ▸ written w10.length (by omega)
  refine ⟨w11.length, hpath, ?_, hsizeFits, ?_, ?_, ?_, ?_, ?_⟩
  · simp (disch := omega) only [w11.other, w10.other, w9.other, w8.other, w7.other, w6.other,
      w5.other, w4.other, w3.other, w2.other, w1.start, Nat.zero_add]
    rw [subarray_replicate 0 (by omega)]
  · simp (disch := omega) only [w11.other, w10.other, w9.other, w8.other, w7.other, w6.other,
      w5.start, w4.other, w3.other, w2.other, w1.other]
    rw [subarray_replicate 0 (by omega), hsize]
    exact (encode_append (t := [0]) rfl).symm
  · have hread : subarray result 156 157 = [0x30] := by
      simp (disch := omega) only [w11.other, w10.other, w9.other, w8.start]
      rfl
    have hget : (subarray result 156 157)[0]? = result[156]? := getElem?_subarray 0
    rw [hread] at hget
    rw [List.getD_eq_getElem?_getD, ← hget]
    rfl
  · simp (disch := omega) only [w11.other, w10.other, w9.start, w8.other, w7.other, w6.other,
      w5.other, w4.other, w3.other, w2.other, w1.other]
    rw [subarray_replicate 0 (by omega), hmagic]
    rfl
  · simp (disch := omega) only [w11.other, w10.other, w9.other, w8.other, w7.other, w6.other,
      w5.other, w4.other, w3.other, w2.other, w1.other]
    exact subarray_replicate 0 (by omega)
  · have hfield : subarray result 148 156 = encode (octalText 6 (byteSum a9) ++ 0 :: [32]) := by
      rw [w11.start 156 (by omega), hsum]
      exact List.append_nil _
    have hspaces : fillBytes result 0x20 148 156 = a9 := by
      have hread : subarray a9 148 156 = List.replicate (156 - 148) 0x20 := by
        simp (disch := omega) only [w10.other, w9.other, w8.other, w7.start]
        exact List.append_nil _
      have hlen := w10.length
      unfold fillBytes
      rw [← h10, setBytes_setBytes (by omega) (by omega)]
      exact setBytes_of_subarray (by omega) hread
    unfold checksum
    rw [hfield, octal_field (by omega) (List.all_iff_forall_prop.mp (by decide)), hspaces]
    simp only [bind_eq_ok, failWhen_eq_ok]
    exact ⟨_, rfl, fun hne => hne rfl⟩

end KNex.Extensions.Tar
