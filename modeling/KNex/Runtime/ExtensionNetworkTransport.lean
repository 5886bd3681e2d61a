import KNex.Core.IsIP

/-!
# The public-address filter of the network transport

Before an extension's request goes out, every address its host resolves to must be global
(packages/runtime/src/extension-network-transport.ts:66-129). An IPv4 answer is parsed and compared
with a list of ranges; an IPv6 answer is parsed into sixteen bytes and compared with prefixes, some
of which end within a byte, after IPv4-mapped addresses have been judged as the IPv4 address they
embed.

Strings are lists of characters; `isIP` is Node's. `<<` works on signed 32-bit numbers, which
`ipv4` unsigns at its end. What the filter lets through is stated on addresses as numbers: `Global4`
and `Global6` list the prefixes that it refuses.

`public_address_filter`: `ipv6Bytes` computes the address of every textual form and refuses zones,
and `globalAddress` accepts exactly the spellings of global addresses.
-/
namespace KNex.Runtime.ExtensionNetworkTransport

open KNex.Core.InternetAddress

/-! ## The filter -/

inductive Family where
  | v4 | v6
  deriving DecidableEq, Repr

/-- mirrors packages/runtime/src/extension-network-transport.ts:20-23 -/
structure ExtensionNetworkAddress where
  address : List Char
  family : Family

/-- mirrors packages/runtime/src/extension-network-transport.ts:32-42 -/
def nonGlobalIpv6Prefixes : List (List Nat × Nat) :=
  [([0x20, 0x01, 0x00], 23), ([0x20, 0x01, 0x00, 0x02, 0x00, 0x00], 48),
   ([0x20, 0x01, 0x00, 0x10], 28), ([0x20, 0x01, 0x00, 0x20], 28), ([0x20, 0x01, 0x0d, 0xb8], 32),
   ([0x20, 0x02], 16), ([0x26, 0x20, 0x00, 0x4f, 0x80, 0x00], 48), ([0x3f, 0xff, 0x00], 20),
   ([0x5f, 0x00], 16)]

/-- `/^(?:0|[1-9][0-9]{0,2})$/` -/
def decimalPart : List Char → Bool
  | [] => false
  | c :: rest =>
    (c :: rest == ['0']) ||
      (c ∈ decimalDigits && c != '0' && rest.length ≤ 2 && rest.all (· ∈ decimalDigits))

/-- `(value << 8) + part`: the shift wraps to a signed 32-bit number. -/
def shiftAdd (value : Int) (part : List Char) : Int :=
  Int.bmod (value * 256) 0x100000000 + decimalValue part

/-- mirrors packages/runtime/src/extension-network-transport.ts:66-70 -/
def ipv4 (address : List Char) : Option Nat :=
  let parts := address.splitOn '.'
  if parts.length ≠ 4 || parts.any (fun part => !decimalPart part || decimalValue part > 255) then
    none
  else some (parts.foldl shiftAdd 0 % 0x100000000).toNat

/-- The ranges of `privateIpv4`.
mirrors packages/runtime/src/extension-network-transport.ts:75-84 -/
def privateRange (value : Nat) : Bool :=
  let first := value >>> 24
  let second := (value >>> 16) &&& 255
  let third := (value >>> 8) &&& 255
  first == 0 || first == 10 || first == 127 || first ≥ 224 ||
    (first == 100 && second ≥ 64 && second ≤ 127) ||
    (first == 169 && second == 254) ||
    (first == 172 && second ≥ 16 && second ≤ 31) ||
    (first == 192 && (second == 0 || second == 168 || (second == 31 && third == 196) ||
      (second == 52 && third == 193) || (second == 88 && third == 99) ||
      (second == 175 && third == 48))) ||
    (first == 198 && (second == 18 || second == 19 || (second == 51 && third == 100))) ||
    (first == 203 && second == 0 && third == 113)

/-- mirrors packages/runtime/src/extension-network-transport.ts:72-85 -/
def privateIpv4 (address : List Char) : Bool :=
  match ipv4 address with
  | none => true
  | some value => privateRange value

/-- `split("::")` -/
def splitDouble : List Char → List (List Char)
  | [] => [[]]
  | ':' :: ':' :: rest => [] :: splitDouble rest
  | c :: rest => (splitDouble rest).modifyHead (c :: ·)

/-- mirrors packages/runtime/src/extension-network-transport.ts:91 -/
def groups (part : List Char) : List (List Char) := if part = [] then [] else part.splitOn ':'

/-- The last group, when it has a dot. -/
def dottedLast (part : List (List Char)) : Option (List Char) :=
  part.getLast?.filter ('.' ∈ ·)

/-- `/^[0-9a-f]{1,4}$/` -/
def hexGroup (group : List Char) : Bool :=
  1 ≤ group.length && group.length ≤ 4 && group.all (· ∈ lowerHexDigits)

/-- The groups of an embedded IPv4 address. -/
def embeddedGroups : Option Nat → List (List Char)
  | none => []
  | some value => [hex ((value >>> 16) &&& 65535), hex (value &&& 65535)]

/-- From the groups on both sides of the `::` to the bytes.
mirrors packages/runtime/src/extension-network-transport.ts:97-102 -/
def assemble (halves : Nat) (left right : List (List Char)) (embeddedValue : Option Nat) :
    Option (List Nat) :=
  let required := left.length + right.length + (if embeddedValue.isNone then 0 else 2)
  if required > 8 || (halves == 1 && required != 8) then none
  else
    let values := left ++ List.replicate (8 - required) ['0'] ++ right ++
      embeddedGroups embeddedValue
    if values.length != 8 || values.any (!hexGroup ·) then none
    else some (values.flatMap fun group => [hexValue group >>> 8, hexValue group &&& 255])

/-- mirrors packages/runtime/src/extension-network-transport.ts:90-102 -/
def readHalves (halves : List (List Char)) : Option (List Nat) :=
  if halves.length > 2 then none
  else
    let left := groups (halves.headD [])
    let right := groups (halves.tail.headD [])
    match dottedLast right, dottedLast left with
    | some embedded, _ =>
      (ipv4 embedded).bind fun value => assemble halves.length left right.dropLast (some value)
    | none, some embedded =>
      (ipv4 embedded).bind fun value => assemble halves.length left.dropLast right (some value)
    | none, none => assemble halves.length left right none

/-- mirrors packages/runtime/src/extension-network-transport.ts:87-103 -/
def ipv6Bytes (address : List Char) : Option (List Nat) :=
  if isIP address ≠ 6 then none else readHalves (splitDouble (address.map Char.toLower))

/-- mirrors packages/runtime/src/extension-network-transport.ts:105-113 -/
def ipv6InPrefix (bytes pre : List Nat) (bits : Nat) : Bool :=
  let fullBytes := bits / 8
  let partialBits := bits % 8
  let mask := 0xff <<< (8 - partialBits)
  if pre.length < fullBytes + (if partialBits = 0 then 0 else 1) then false
  else if (List.range fullBytes).any fun index => bytes[index]? != pre[index]? then false
  else if partialBits = 0 then true
  else bytes.getD fullBytes 0 &&& mask == pre.getD fullBytes 0 &&& mask

/-- mirrors packages/runtime/src/extension-network-transport.ts:118 -/
def mapped (bytes : List Nat) : Bool :=
  (bytes.take 10).all (· == 0) && bytes.getD 10 0 == 255 && bytes.getD 11 0 == 255

/-- mirrors packages/runtime/src/extension-network-transport.ts:120-124 -/
def privateBytes (bytes : List Nat) : Bool :=
  let zero := bytes.all (· == 0)
  let loopback := (bytes.take 15).all (· == 0) && bytes.getD 15 0 == 1
  let globalUnicast := bytes.getD 0 0 &&& 0xe0 == 0x20
  zero || loopback || bytes.getD 0 0 &&& 0xfe == 0xfc ||
    (bytes.getD 0 0 == 0xfe && bytes.getD 1 0 &&& 0xc0 == 0x80) || bytes.getD 0 0 == 0xff ||
    nonGlobalIpv6Prefixes.any (fun p => ipv6InPrefix bytes p.1 p.2) || !globalUnicast

/-- mirrors packages/runtime/src/extension-network-transport.ts:115-125 -/
def privateIpv6 (address : List Char) : Bool :=
  match ipv6Bytes address with
  | none => true
  | some bytes =>
    if mapped bytes then
      privateIpv4 (decimal (bytes.getD 12 0) ++ '.' :: (decimal (bytes.getD 13 0) ++ '.' ::
        (decimal (bytes.getD 14 0) ++ '.' :: decimal (bytes.getD 15 0))))
    else privateBytes bytes

/-- mirrors packages/runtime/src/extension-network-transport.ts:127-129 -/
def globalAddress (answer : ExtensionNetworkAddress) : Bool :=
  match answer.family with
  | .v4 => isIP answer.address == 4 && !privateIpv4 answer.address
  | .v6 => !privateIpv6 answer.address

/-! ## What it refuses -/

/-- `a.b.c.d` -/
def quad (a b c d : Nat) : Nat := ((a * 256 + b) * 256 + c) * 256 + d

/-- The groups at the front of an address, the others being zero. -/
def hextets (front : List Nat) : Nat :=
  ofDigits 65536 (front ++ List.replicate (8 - front.length) 0)

/-- The IPv4 prefixes that are not global: this host, private use, shared address space, loopback,
link local, protocol assignments and documentation, AS112, AMT, relay anycast, benchmarking,
multicast and reserved. -/
def nonGlobal4 : List (Nat × Nat) :=
  [(quad 0 0 0 0, 8), (quad 10 0 0 0, 8), (quad 127 0 0 0, 8), (quad 224 0 0 0, 3),
   (quad 100 64 0 0, 10), (quad 169 254 0 0, 16), (quad 172 16 0 0, 12), (quad 192 0 0 0, 16),
   (quad 192 168 0 0, 16), (quad 192 31 196 0, 24), (quad 192 52 193 0, 24),
   (quad 192 88 99 0, 24), (quad 192 175 48 0, 24), (quad 198 18 0 0, 15),
   (quad 198 51 100 0, 24), (quad 203 0 113 0, 24)]

/-- The special-purpose IPv6 prefixes within `2000::/3`, and segment routing. -/
def specialPurpose6 : List (Nat × Nat) :=
  [(hextets [0x2001], 23), (hextets [0x2001, 2], 48), (hextets [0x2001, 0x10], 28),
   (hextets [0x2001, 0x20], 28), (hextets [0x2001, 0xdb8], 32), (hextets [0x2002], 16),
   (hextets [0x2620, 0x4f, 0x8000], 48), (hextets [0x3fff], 20), (hextets [0x5f00], 16)]

/-- The IPv6 prefixes that are not global: unspecified, loopback, unique local, link local,
multicast, and those of `specialPurpose6`. -/
def nonGlobal6 : List (Nat × Nat) :=
  [(0, 128), (1, 128), (hextets [0xfc00], 7), (hextets [0xfe80], 10), (hextets [0xff00], 8)] ++
    specialPurpose6

def Global4 (v : Nat) : Prop := ∀ p ∈ nonGlobal4, ¬ InPrefix 32 v p.1 p.2

/-- `::ffff:a.b.c.d` is judged by `a.b.c.d`; any other address is within `2000::/3`. -/
def Global6 (v : Nat) : Prop :=
  if InPrefix 128 v (hextets [0, 0, 0, 0, 0, 0xffff]) 96 then Global4 (v % 2 ^ 32)
  else InPrefix 128 v (hextets [0x2000]) 3 ∧ ∀ p ∈ nonGlobal6, ¬ InPrefix 128 v p.1 p.2

instance (v : Nat) : Decidable (Global4 v) := inferInstanceAs (Decidable (∀ p ∈ nonGlobal4, _))

instance (v : Nat) : Decidable (Global6 v) := by unfold Global6; infer_instance

/-! ## IPv4 -/

theorem decimal_spec : ∀ n < 256, '.' ∉ decimal n ∧ decimalPart (decimal n) = true ∧
    decimalValue (decimal n) = n := by decide +kernel

/-- The wrap of the shift does not show in the 32 low bits. -/
theorem shiftAdd_emod (value : Int) (part : List Char) :
    shiftAdd value part % 0x100000000 =
      (value % 0x100000000 * 256 + decimalValue part) % 0x100000000 := by
  have hb := Int.bmod_emod (x := value * 256) (m := 0x100000000)
  unfold shiftAdd
  omega

theorem bytes_emod {a b c d : Nat} {x : Int} (ha : a < 256) (hb : b < 256) (hc : c < 256)
    (hd : d < 256) (hx : x = ((a : Int) * 256 + b) * 256 + c) :
    ((x * 256 + d) % 0x100000000).toNat = ((a * 256 + b) * 256 + c) * 256 + d := by
  omega

/-- Four bytes, shifted in as signed numbers and unsigned at the end. -/
theorem shiftAdd_four {p q r s : List Char} (hp : decimalValue p < 256) (hq : decimalValue q < 256)
    (hr : decimalValue r < 256) (hs : decimalValue s < 256) :
    ([p, q, r, s].foldl shiftAdd 0 % 0x100000000).toNat =
      ((decimalValue p * 256 + decimalValue q) * 256 + decimalValue r) * 256 + decimalValue s := by
  have h1 : shiftAdd 0 p % 0x100000000 = decimalValue p := by
    rw [shiftAdd_emod]
    omega
  have h2 : shiftAdd (shiftAdd 0 p) q % 0x100000000 = decimalValue p * 256 + decimalValue q := by
    rw [shiftAdd_emod, h1]
    omega
  have h3 : shiftAdd (shiftAdd (shiftAdd 0 p) q) r % 0x100000000 =
      (decimalValue p * 256 + decimalValue q) * 256 + decimalValue r := by
    rw [shiftAdd_emod, h2]
    omega
  rw [List.foldl_cons, List.foldl_cons, List.foldl_cons, List.foldl_cons, List.foldl_nil,
    shiftAdd_emod, h3]
  exact bytes_emod hp hq hr hs rfl

theorem ipv4_spell (t : Dotted) : ipv4 t.spell = some t.value := by
  obtain ⟨⟨a, ha⟩, ⟨b, hb⟩, ⟨c, hc⟩, ⟨d, hd⟩⟩ := t
  obtain ⟨hadot, hapart, haval⟩ := decimal_spec a ha
  obtain ⟨hbdot, hbpart, hbval⟩ := decimal_spec b hb
  obtain ⟨hcdot, hcpart, hcval⟩ := decimal_spec c hc
  obtain ⟨hddot, hdpart, hdval⟩ := decimal_spec d hd
  have hsplit : (Dotted.spell ⟨⟨a, ha⟩, ⟨b, hb⟩, ⟨c, hc⟩, ⟨d, hd⟩⟩).splitOn '.' =
      [decimal a, decimal b, decimal c, decimal d] := by
    unfold Dotted.spell
    rw [List.splitOn_append_cons_self_of_not_mem hadot,
      List.splitOn_append_cons_self_of_not_mem hbdot,
      List.splitOn_append_cons_self_of_not_mem hcdot, List.splitOn_eq_singleton hddot]
  unfold ipv4
  dsimp only
  have hparts : [decimal a, decimal b, decimal c, decimal d].any
      (fun part => !decimalPart part || decimalValue part > 255) = false := by
    simp only [List.any_cons, List.any_nil, hapart, hbpart, hcpart, hdpart, haval, hbval, hcval,
      hdval]
    simp
    omega
  rw [hsplit, hparts, if_neg (by simp), shiftAdd_four (haval.symm ▸ ha) (hbval.symm ▸ hb)
    (hcval.symm ▸ hc) (hdval.symm ▸ hd), haval, hbval, hcval, hdval, Dotted.value_eq]

section Ranges

variable {a b c d : Nat}

theorem inPrefix_quad_8 (hb : b < 256) (hc : c < 256) (hd : d < 256) (x : Nat) :
    InPrefix 32 (quad a b c d) (quad x 0 0 0) 8 ↔ a = x := by
  unfold InPrefix quad
  omega

theorem inPrefix_quad_16 (hb : b < 256) (hc : c < 256) (hd : d < 256) {x y : Nat} (hy : y < 256) :
    InPrefix 32 (quad a b c d) (quad x y 0 0) 16 ↔ a = x ∧ b = y := by
  unfold InPrefix quad
  omega

theorem inPrefix_quad_24 (hb : b < 256) (hc : c < 256) (hd : d < 256) {x y z : Nat} (hy : y < 256)
    (hz : z < 256) :
    InPrefix 32 (quad a b c d) (quad x y z 0) 24 ↔ a = x ∧ b = y ∧ c = z := by
  unfold InPrefix quad
  omega

/-- A prefix that ends within the second byte: a range of its values. -/
theorem inPrefix_quad_range (hb : b < 256) (hc : c < 256) (hd : d < 256) {x y n : Nat}
    (hn : 8 < n) (hn' : n < 16) (hy : y < 256) (hmul : y % 2 ^ (16 - n) = 0) :
    InPrefix 32 (quad a b c d) (quad x y 0 0) n ↔
      a = x ∧ y ≤ b ∧ b < y + 2 ^ (16 - n) := by
  unfold InPrefix quad
  interval_cases n <;> norm_num at hmul ⊢ <;> omega

theorem inPrefix_quad_3 (ha : a < 256) (hb : b < 256) (hc : c < 256) (hd : d < 256) :
    InPrefix 32 (quad a b c d) (quad 224 0 0 0) 3 ↔ 224 ≤ a := by
  unfold InPrefix quad
  omega

/-- The ranges are the listed prefixes. -/
theorem privateRange_quad (ha : a < 256) (hb : b < 256) (hc : c < 256) (hd : d < 256) :
    privateRange (quad a b c d) = false ↔ Global4 (quad a b c d) := by
  have hfirst : quad a b c d >>> 24 = a := by
    rw [Nat.shiftRight_eq_div_pow]
    unfold quad
    omega
  have hsecond : (quad a b c d >>> 16) &&& 255 = b := by
    rw [Nat.shiftRight_eq_div_pow, Nat.and_two_pow_sub_one_eq_mod _ 8]
    unfold quad
    omega
  have hthird : (quad a b c d >>> 8) &&& 255 = c := by
    rw [Nat.shiftRight_eq_div_pow, Nat.and_two_pow_sub_one_eq_mod _ 8]
    unfold quad
    omega
  unfold privateRange Global4 nonGlobal4
  simp only [hfirst, hsecond, hthird, List.forall_mem_cons, List.not_mem_nil, false_implies,
    implies_true, inPrefix_quad_8 hb hc hd, inPrefix_quad_3 ha hb hc hd,
    inPrefix_quad_range hb hc hd (by decide : 8 < 10) (by decide) (by decide : 64 < 256)
      (by decide),
    inPrefix_quad_range hb hc hd (by decide : 8 < 12) (by decide) (by decide : 16 < 256)
      (by decide),
    inPrefix_quad_range hb hc hd (by decide : 8 < 15) (by decide) (by decide : 18 < 256)
      (by decide)]
  simp (disch := decide) only [inPrefix_quad_16 hb hc hd, inPrefix_quad_24 hb hc hd]
  simp only [Bool.or_eq_false_iff, Bool.and_eq_false_iff, beq_eq_false_iff_ne, ne_eq, ge_iff_le,
    decide_eq_false_iff_not, not_and_or, Nat.reducePow, Nat.reduceSub, Nat.reduceAdd, not_le,
    not_lt]
  -- 192 and 198 begin several of the prefixes
  by_cases h192 : a = 192
  · subst h192
    norm_num
    tauto
  by_cases h198 : a = 198
  · subst h198
    norm_num
    omega
  simp only [h192, h198, not_false_eq_true, true_or, true_and]
  grind

end Ranges

/-- An address below `2 ^ 32` as four bytes. -/
theorem exists_quad {v : Nat} (hv : v < 2 ^ 32) : ∃ a b c d, a < 256 ∧ b < 256 ∧ c < 256 ∧
    d < 256 ∧ v = quad a b c d := by
  refine ⟨v / 2 ^ 24, v / 2 ^ 16 % 256, v / 2 ^ 8 % 256, v % 256, ?_⟩
  unfold quad
  omega

theorem privateRange_iff {v : Nat} (hv : v < 2 ^ 32) : privateRange v = false ↔ Global4 v := by
  obtain ⟨a, b, c, d, ha, hb, hc, hd, rfl⟩ := exists_quad hv
  exact privateRange_quad ha hb hc hd

theorem privateIpv4_spell (t : Dotted) : privateIpv4 t.spell = false ↔ Global4 t.value := by
  unfold privateIpv4
  rw [ipv4_spell]
  exact privateRange_iff t.value_lt

/-! ## Reading an IPv6 address -/

/-! ### The split at `::` -/

/-- No two colons beside each other. -/
def Spaced (s : List Char) : Prop := s.IsChain fun x y => ¬ (x = ':' ∧ y = ':')

theorem splitDouble_cons {c : Char} {s : List Char} (h : ¬ (c = ':' ∧ s.head? = some ':')) :
    splitDouble (c :: s) = (splitDouble s).modifyHead (c :: ·) := by
  rw [splitDouble]
  intro rest hc hs
  exact h ⟨hc, by rw [hs]; rfl⟩

theorem splitDouble_of_spaced {s : List Char} (h : Spaced s) : splitDouble s = [s] := by
  induction s with
  | nil => rfl
  | cons c s ih =>
    have hc : ¬ (c = ':' ∧ s.head? = some ':') := by
      rintro ⟨rfl, hs⟩
      cases s with
      | nil => cases hs
      | cons d s =>
        obtain rfl := Option.some.inj hs
        exact (List.isChain_cons_cons.mp h).1 ⟨rfl, rfl⟩
    rw [splitDouble_cons hc, ih (List.IsChain.tail h)]
    rfl

/-- What comes before the `::` neither has one nor ends in a colon. -/
theorem splitDouble_append {a : List Char} (b : List Char) (h : Spaced (a ++ [':'])) :
    splitDouble (a ++ ':' :: ':' :: b) = a :: splitDouble b := by
  induction a with
  | nil => rfl
  | cons c a ih =>
    have hc : ¬ (c = ':' ∧ (a ++ ':' :: ':' :: b).head? = some ':') := by
      rintro ⟨rfl, hs⟩
      cases a with
      | nil => exact (List.isChain_cons_cons.mp h).1 ⟨rfl, rfl⟩
      | cons d a =>
        obtain rfl := Option.some.inj hs
        exact (List.isChain_cons_cons.mp h).1 ⟨rfl, rfl⟩
    rw [List.cons_append, splitDouble_cons hc, ih (List.IsChain.tail h)]
    rfl

/-- Groups as they may be written between colons. -/
def Plain (l : List (List Char)) : Prop := ∀ g ∈ l, g ≠ [] ∧ ':' ∉ g

theorem spaced_append_colon {g : List Char} (h : ':' ∉ g) (s : List Char) (hs : Spaced (':' :: s)) :
    Spaced (g ++ ':' :: s) := by
  induction g with
  | nil => exact hs
  | cons c g ih =>
    have hne : c ≠ ':' := fun he => h (by simp [he])
    have hg : ':' ∉ g := fun hm => h (by simp [hm])
    have hrest := ih hg
    unfold Spaced at hrest ⊢
    cases g with
    | nil => exact List.isChain_cons_cons.mpr ⟨fun hc => hne hc.1, hrest⟩
    | cons d g => exact List.isChain_cons_cons.mpr ⟨fun hc => hne hc.1, hrest⟩

theorem join_cons_cons (g g' : List Char) (l : List (List Char)) :
    join (g :: g' :: l) = g ++ ':' :: join (g' :: l) := by
  unfold join
  rw [List.intercalate_cons_cons, List.append_assoc]
  rfl

theorem spaced_join {l : List (List Char)} (h : Plain l) : Spaced (join l ++ [':']) := by
  induction l with
  | nil => exact List.isChain_singleton _
  | cons g l ih =>
    obtain ⟨hne, hg⟩ := h g (by simp)
    cases l with
    | nil =>
      rw [show join [g] = g from List.intercalate_singleton]
      exact spaced_append_colon hg [] (List.isChain_singleton _)
    | cons g' l =>
      have hrest := ih fun x hx => h x (by simp [hx])
      obtain ⟨hne', hg'⟩ := h g' (by simp)
      rw [join_cons_cons, List.append_assoc, List.cons_append]
      refine spaced_append_colon hg _ ?_
      -- the next group does not begin with a colon
      obtain ⟨c, g'', rfl⟩ := List.exists_cons_of_ne_nil hne'
      have hc : c ≠ ':' := fun he => hg' (by simp [he])
      have hhead : ∃ s, join ((c :: g'') :: l) ++ [':'] = c :: s := by
        unfold join
        rw [List.intercalate_cons_cons_left]
        exact ⟨_, rfl⟩
      obtain ⟨s, hs⟩ := hhead
      rw [hs] at hrest ⊢
      exact List.isChain_cons_cons.mpr ⟨fun he => hc he.2, hrest⟩

theorem groups_join {l : List (List Char)} (h : Plain l) : groups (join l) = l := by
  unfold groups
  cases l with
  | nil => rfl
  | cons g l =>
    obtain ⟨hne, -⟩ := h g (by simp)
    have hjoin : join (g :: l) ≠ [] := by
      obtain ⟨c, g', rfl⟩ := List.exists_cons_of_ne_nil hne
      unfold join
      rw [List.intercalate_cons_cons_left]
      simp
    rw [if_neg hjoin]
    exact List.splitOn_intercalate ':' (fun x hx => (h x hx).2) (by simp)

/-! ### Groups -/

/-- A group as the parser sees it, in lower case. -/
def lower (g : HexGroup) : List Char := g.digits.map Char.toLower

theorem lower_spec (g : HexGroup) : hexGroup (lower g) = true ∧ hexValue (lower g) = g.value := by
  have hmem : ∀ c ∈ lower g, c ∈ lowerHexDigits := by
    intro c hc
    obtain ⟨d, hd, rfl⟩ := List.mem_map.mp hc
    exact (digitValue_toLower d (g.hex d hd)).1
  have hpos := List.length_pos_of_ne_nil g.nonempty
  refine ⟨?_, ?_⟩
  · unfold hexGroup
    simp only [Bool.and_eq_true, decide_eq_true_eq, List.all_eq_true]
    refine ⟨⟨?_, ?_⟩, hmem⟩
    · rw [lower, List.length_map]
      omega
    · simpa [lower] using g.short
  · unfold HexGroup.value hexValue lower
    rw [List.map_map]
    congr 1
    exact List.map_congr_left fun c hc => (digitValue_toLower c (g.hex c hc)).2

theorem lowerHex_ne : ∀ c ∈ lowerHexDigits, c ≠ ':' ∧ c ≠ '.' :=
  List.all_iff_forall_prop.mp (by decide)

theorem hexGroup_plain {g : List Char} (h : hexGroup g = true) : g ≠ [] ∧ ':' ∉ g ∧ '.' ∉ g := by
  unfold hexGroup at h
  simp only [Bool.and_eq_true, decide_eq_true_eq, List.all_eq_true] at h
  obtain ⟨⟨hpos, -⟩, hmem⟩ := h
  refine ⟨List.ne_nil_of_length_pos hpos, fun hc => ?_, fun hc => ?_⟩
  · exact (lowerHex_ne _ (hmem _ hc)).1 rfl
  · exact (lowerHex_ne _ (hmem _ hc)).2 rfl

theorem toLower_decimal : ∀ c ∈ decimalDigits, c.toLower = c ∧ c ≠ ':' :=
  List.all_iff_forall_prop.mp (by decide)

/-- A dotted tail has no letters. -/
theorem map_toLower_spell (t : Dotted) : t.spell.map Char.toLower = t.spell ∧ ':' ∉ t.spell := by
  refine ⟨?_, fun hc => ?_⟩
  · refine (List.map_congr_left fun c hc => ?_).trans (List.map_id _)
    rcases t.mem_spell c hc with rfl | hd
    · rfl
    · exact (toLower_decimal c hd).1
  · rcases t.mem_spell _ hc with h | hd
    · cases h
    · exact (toLower_decimal _ hd).2 rfl

theorem map_join (l : List (List Char)) :
    (join l).map Char.toLower = join (l.map (List.map Char.toLower)) := by
  induction l with
  | nil => rfl
  | cons g l ih =>
    cases l with
    | nil => simp [join]
    | cons g' l =>
      have hmap : join ((g :: g' :: l).map (List.map Char.toLower)) =
          g.map Char.toLower ++ ':' :: join ((g' :: l).map (List.map Char.toLower)) :=
        join_cons_cons _ _ _
      rw [hmap, ← ih, join_cons_cons, List.map_append]
      rfl

/-- The groups of a part, as the parser sees them. -/
def lowered (gs : List HexGroup) (tail : Option Dotted) : List (List Char) :=
  gs.map lower ++ tail.toList.map Dotted.spell

theorem map_written (gs : List HexGroup) (tail : Option Dotted) :
    (join (written gs tail)).map Char.toLower = join (lowered gs tail) := by
  rw [map_join]
  unfold written lowered
  rw [List.map_append, List.map_map, List.map_map]
  congr 2
  exact List.map_congr_left fun t _ => (map_toLower_spell t).1

theorem lowered_plain (gs : List HexGroup) (tail : Option Dotted) : Plain (lowered gs tail) := by
  intro x hx
  rcases List.mem_append.mp hx with hx | hx
  · obtain ⟨g, -, rfl⟩ := List.mem_map.mp hx
    obtain ⟨hne, hcolon, -⟩ := hexGroup_plain (lower_spec g).1
    exact ⟨hne, hcolon⟩
  · obtain ⟨t, -, rfl⟩ := List.mem_map.mp hx
    exact ⟨by simp [Dotted.spell], (map_toLower_spell t).2⟩

theorem dottedLast_none (gs : List HexGroup) : dottedLast (lowered gs none) = none := by
  unfold dottedLast lowered
  rw [Option.filter_eq_none_iff]
  intro x hx
  have hmem := List.mem_of_getLast? hx
  simp only [Option.toList_none, List.map_nil, List.append_nil, List.mem_map] at hmem
  obtain ⟨g, -, rfl⟩ := hmem
  simpa using (hexGroup_plain (lower_spec g).1).2.2

theorem dottedLast_some (gs : List HexGroup) (t : Dotted) :
    dottedLast (lowered gs (some t)) = some t.spell ∧
      (lowered gs (some t)).dropLast = lowered gs none := by
  unfold dottedLast lowered
  simp [Dotted.spell, Option.filter]

/-! ### The bytes -/

/-- Groups that make up the bytes of an address. -/
theorem bytes_of_values {values : List (List Char)} {words : List Nat}
    (hval : values.map hexValue = words) :
    (values.flatMap fun group => [hexValue group >>> 8, hexValue group &&& 255]) =
      words.flatMap fun w => [w / 256, w % 256] := by
  rw [← hval, List.flatMap_map]
  refine List.flatMap_congr fun g _ => ?_
  rw [Nat.shiftRight_eq_div_pow, Nat.and_two_pow_sub_one_eq_mod _ 8]

theorem embedded_spec (tail : Option Dotted) :
    (embeddedGroups (tail.map Dotted.value)).map hexValue = tailWords tail ∧
    ∀ g ∈ embeddedGroups (tail.map Dotted.value), hexGroup g = true := by
  cases tail with
  | none => exact ⟨rfl, by simp [embeddedGroups]⟩
  | some t =>
    have hlt := t.value_lt
    have hhi : (t.value >>> 16) &&& 65535 = t.value / 65536 := by
      rw [Nat.shiftRight_eq_div_pow, Nat.and_two_pow_sub_one_eq_mod _ 16]
      omega
    have hlo : t.value &&& 65535 = t.value % 65536 := Nat.and_two_pow_sub_one_eq_mod _ 16
    have hgroup : ∀ w < 65536, hexGroup (hex w) = true ∧ hexValue (hex w) = w := by
      intro w hw
      obtain ⟨hne, hlen, hmem, hval⟩ := hex_spec (k := 4) (by decide) hw
      refine ⟨?_, hval⟩
      unfold hexGroup
      simp only [Bool.and_eq_true, decide_eq_true_eq, List.all_eq_true]
      exact ⟨⟨List.length_pos_of_ne_nil hne, hlen⟩, hmem⟩
    have h1 := hgroup (t.value / 65536) (by omega)
    have h2 := hgroup (t.value % 65536) (by omega)
    simp only [Option.map_some, embeddedGroups, hhi, hlo]
    refine ⟨?_, ?_⟩
    · simp only [List.map_cons, List.map_nil, h1.2, h2.2]
      rfl
    · intro g hg
      simp only [List.mem_cons, List.not_mem_nil, or_false] at hg
      rcases hg with rfl | rfl
      · exact h1.1
      · exact h2.1

theorem lowered_none (gs : List HexGroup) : lowered gs none = gs.map lower := by
  simp [lowered]

theorem map_hexValue_lower (gs : List HexGroup) :
    (gs.map lower).map hexValue = gs.map HexGroup.value := by
  rw [List.map_map]
  exact List.map_congr_left fun g _ => (lower_spec g).2

/-- The parts around the `::` make up the groups of the form. -/
theorem assemble_spec {halves : Nat} {left right : List HexGroup} {tail : Option Dotted}
    (hle : left.length + right.length + (tailWords tail).length ≤ 8)
    (hfull : halves = 1 → left.length + right.length + (tailWords tail).length = 8) :
    assemble halves (lowered left none) (lowered right none) (tail.map Dotted.value) =
      some ((left.map HexGroup.value ++
        List.replicate (8 - (left.length + right.length + (tailWords tail).length)) 0 ++
        right.map HexGroup.value ++ tailWords tail).flatMap fun w => [w / 256, w % 256]) := by
  obtain ⟨hval, hgroup⟩ := embedded_spec tail
  have hreq : (if (tail.map Dotted.value).isNone then 0 else 2) = (tailWords tail).length := by
    cases tail <;> rfl
  have hemb : (embeddedGroups (tail.map Dotted.value)).length = (tailWords tail).length := by
    rw [← hval, List.length_map]
  unfold assemble
  simp only [lowered_none, List.length_map, hreq]
  have hbad : (decide (left.length + right.length + (tailWords tail).length > 8) ||
      (halves == 1 && left.length + right.length + (tailWords tail).length != 8)) = false := by
    simp only [Bool.or_eq_false_iff, decide_eq_false_iff_not, Bool.and_eq_false_iff,
      beq_eq_false_iff_ne, bne_eq_false_iff_eq]
    refine ⟨by omega, ?_⟩
    by_cases hh : halves = 1
    · exact .inr (hfull hh)
    · exact .inl hh
  rw [hbad, if_neg (by simp), if_neg]
  · refine congrArg some (bytes_of_values ?_)
    simp only [List.map_append, map_hexValue_lower, List.map_replicate, hval]
    rfl
  · simp only [List.length_append, List.length_map, List.length_replicate, hemb, Bool.or_eq_true,
      bne_iff_ne, List.any_eq_true, List.mem_append, not_or, not_exists, not_and]
    refine ⟨by omega, ?_⟩
    rintro g (((hg | hg) | hg) | hg)
    · obtain ⟨x, -, rfl⟩ := List.mem_map.mp hg
      simp [(lower_spec x).1]
    · rw [List.eq_of_mem_replicate hg]
      decide
    · obtain ⟨x, -, rfl⟩ := List.mem_map.mp hg
      simp [(lower_spec x).1]
    · simp [hgroup g hg]

/-- `t.words` as bytes. -/
def Address6.bytes (t : Address6) : List Nat := t.words.flatMap fun w => [w / 256, w % 256]

theorem readHalves_full {gs : List HexGroup} {tail : Option Dotted}
    (h : gs.length + (tailWords tail).length = 8) :
    readHalves [join (lowered gs tail)] = some (Address6.bytes (.full gs tail h)) := by
  have hwords : gs.map HexGroup.value ++
      List.replicate (8 - (gs.length + ([] : List HexGroup).length + (tailWords tail).length)) 0 ++
      [].map HexGroup.value ++ tailWords tail = (Address6.full gs tail h).words := by
    simp [Address6.words, h]
  have hspec : assemble 1 (lowered gs none) [] (tail.map Dotted.value) =
      some (Address6.bytes (.full gs tail h)) := by
    unfold Address6.bytes
    rw [← hwords]
    have hlen : gs.length + ([] : List HexGroup).length + (tailWords tail).length = 8 := h
    exact assemble_spec (le_of_eq hlen) fun _ => hlen
  unfold readHalves
  simp only [List.length_cons, List.length_nil, List.headD_cons, List.tail_cons, List.headD_nil,
    groups_join (lowered_plain _ _)]
  rw [if_neg (by decide)]
  have hnil : dottedLast (groups []) = none := rfl
  rw [hnil]
  cases tail with
  | none =>
    rw [dottedLast_none]
    exact hspec
  | some t =>
    obtain ⟨hlast, hdrop⟩ := dottedLast_some gs t
    rw [hlast, hdrop]
    simp only [ipv4_spell, Option.bind_some]
    exact hspec

theorem readHalves_compressed {left right : List HexGroup} {tail : Option Dotted}
    (h : left.length + right.length + (tailWords tail).length ≤ 7) :
    readHalves [join (lowered left none), join (lowered right tail)] =
      some (Address6.bytes (.compressed left right tail h)) := by
  have hspec : assemble 2 (lowered left none) (lowered right none) (tail.map Dotted.value) =
      some (Address6.bytes (.compressed left right tail h)) :=
    assemble_spec (by omega) (by simp)
  unfold readHalves
  simp only [List.length_cons, List.length_nil, List.headD_cons, List.tail_cons,
    groups_join (lowered_plain _ _)]
  rw [if_neg (by decide)]
  cases tail with
  | none => 
    rw [dottedLast_none, dottedLast_none]
    exact hspec
  | some t =>
    obtain ⟨hlast, hdrop⟩ := dottedLast_some right t
    rw [hlast, hdrop]
    simp only [ipv4_spell, Option.bind_some]
    exact hspec

/-- **The IPv6 parser.** Every textual form is read as the address it denotes. -/
theorem ipv6Bytes_spell (t : Address6) : ipv6Bytes t.spell = some (Address6.bytes t) := by
  have hip : isIP t.spell = 6 := isIP_eq_six.mpr ⟨t, .inl rfl⟩
  unfold ipv6Bytes
  rw [if_neg (by simp [hip])]
  cases t with
  | full gs tail h =>
    have hspaced : Spaced (join (lowered gs tail)) :=
      List.IsChain.left_of_append (spaced_join (lowered_plain gs tail))
    show readHalves (splitDouble ((join (written gs tail)).map Char.toLower)) = _
    rw [map_written, splitDouble_of_spaced hspaced]
    exact readHalves_full h
  | compressed left right tail h =>
    have hspaced : Spaced (join (lowered right tail)) :=
      List.IsChain.left_of_append (spaced_join (lowered_plain right tail))
    have hmap : (Address6.spell (.compressed left right tail h)).map Char.toLower =
        join (lowered left none) ++ ':' :: ':' :: join (lowered right tail) := by
      have hleft := map_written left none
      have hright := map_written right tail
      simp only [written, Option.toList_none, List.map_nil, List.append_nil] at hleft
      rw [← hleft, ← hright]
      simp [Address6.spell]
    rw [hmap, splitDouble_append _ (spaced_join (lowered_plain left none)),
      splitDouble_of_spaced hspaced]
    exact readHalves_compressed h

/-! ### Zones -/

theorem splitDouble_ne_nil (s : List Char) : splitDouble s ≠ [] := by
  fun_induction splitDouble s with
  | case1 => simp
  | case2 rest ih => simp
  | case3 c rest h ih => simpa [List.modifyHead_eq_nil_iff] using ih

/-- The characters of a string are those of its parts and the colons. -/
theorem mem_splitDouble {c : Char} (hc : c ≠ ':') {s : List Char} (hs : c ∈ s) :
    ∃ part ∈ splitDouble s, c ∈ part := by
  fun_induction splitDouble s with
  | case1 => cases hs
  | case2 rest ih =>
    obtain ⟨part, hmem, hin⟩ := ih (by simpa [hc] using hs)
    exact ⟨part, List.mem_cons_of_mem _ hmem, hin⟩
  | case3 d rest h ih =>
    obtain ⟨first, parts, hsplit⟩ := List.exists_cons_of_ne_nil (splitDouble_ne_nil rest)
    rw [hsplit] at ih ⊢
    rw [List.modifyHead_cons]
    rcases List.mem_cons.mp hs with rfl | hs
    · exact ⟨c :: first, by simp, by simp⟩
    · obtain ⟨part, hmem, hin⟩ := ih hs
      rcases List.mem_cons.mp hmem with rfl | hmem
      · exact ⟨d :: part, by simp, by simp [hin]⟩
      · exact ⟨part, by simp [hmem], hin⟩

theorem mem_intercalate {c x : Char} (hc : c ≠ x) {l : List (List Char)}
    (h : c ∈ [x].intercalate l) : ∃ g ∈ l, c ∈ g := by
  induction l with
  | nil => cases h
  | cons g l ih =>
    cases l with
    | nil => exact ⟨g, by simp, by simpa using h⟩
    | cons g' l =>
      rw [List.intercalate_cons_cons] at h
      simp only [List.mem_append, List.mem_singleton, hc, or_false] at h
      rcases h with h | h
      · exact ⟨g, by simp, h⟩
      · obtain ⟨part, hmem, hin⟩ := ih h
        exact ⟨part, List.mem_cons_of_mem _ hmem, hin⟩

theorem mem_splitOn {c x : Char} (hc : c ≠ x) {s : List Char} (hs : c ∈ s) :
    ∃ g ∈ s.splitOn x, c ∈ g := by
  have hjoin : [x].intercalate (s.splitOn x) = s := List.intercalate_splitOn x
  rw [← hjoin] at hs
  exact mem_intercalate hc hs

theorem mem_groups {c : Char} (hc : c ≠ ':') {part : List Char} (h : c ∈ part) :
    ∃ g ∈ groups part, c ∈ g := by
  unfold groups
  rw [if_neg (List.ne_nil_of_mem h)]
  exact mem_splitOn hc h

/-- What the parser has accepted is made of hex groups. -/
theorem assemble_groups {halves : Nat} {left right : List (List Char)} {v : Option Nat}
    {bytes : List Nat} (h : assemble halves left right v = some bytes) :
    ∀ g, g ∈ left ∨ g ∈ right → hexGroup g = true := by
  unfold assemble at h
  generalize left.length + right.length + (if v.isNone then 0 else 2) = required at h
  dsimp only at h
  split at h
  · cases h
  · split at h
    · cases h
    · rename_i hbad
      intro g hg
      simp only [Bool.or_eq_true, bne_iff_ne, List.any_eq_true, not_or, not_exists, not_and] at hbad
      have hgood := hbad.2 g (by
        simp only [List.mem_append]
        rcases hg with hg | hg
        · exact .inl (.inl (.inl hg))
        · exact .inl (.inr hg))
      simpa using hgood

theorem ipv4_chars {s : List Char} {v : Nat} (h : ipv4 s = some v) :
    ∀ c ∈ s, c = '.' ∨ c ∈ decimalDigits := by
  unfold ipv4 at h
  dsimp only at h
  split at h
  · cases h
  · rename_i hbad
    simp only [Bool.or_eq_true, decide_eq_true_eq, List.any_eq_true, not_or, not_exists, not_and,
      Bool.not_eq_true', Bool.not_eq_false] at hbad
    intro c hc
    by_cases hdot : c = '.'
    · exact .inl hdot
    · obtain ⟨part, hmem, hin⟩ := mem_splitOn hdot hc
      have hpart := (hbad.2 part hmem).1
      refine .inr ?_
      unfold decimalPart at hpart
      split at hpart
      · cases hin
      · rename_i d rest
        simp only [Bool.or_eq_true, beq_iff_eq, Bool.and_eq_true, decide_eq_true_eq,
          List.all_eq_true] at hpart
        rcases hpart with hzero | ⟨⟨⟨hd, -⟩, -⟩, hrest⟩
        · rw [hzero, List.mem_singleton] at hin
          rw [hin]
          decide
        · rcases List.mem_cons.mp hin with rfl | hin
          · exact hd
          · exact hrest c hin

/-- A percent sign is in no group and in no dotted tail. -/
theorem readHalves_percent {halves : List (List Char)} {bytes : List Nat}
    (h : readHalves halves = some bytes) : ∀ part ∈ halves, '%' ∉ part := by
  have hhex : ∀ g, hexGroup g = true → '%' ∉ g := by
    intro g hg hin
    unfold hexGroup at hg
    simp only [Bool.and_eq_true, List.all_eq_true, decide_eq_true_eq] at hg
    have hmem := hg.2 _ hin
    revert hmem
    decide
  have hdot : ∀ g v, ipv4 g = some v → '%' ∉ g := by
    intro g v hg hin
    have hmem := ipv4_chars hg _ hin
    revert hmem
    decide
  have hlast : ∀ {l : List (List Char)} {e : List Char}, dottedLast l = some e →
      ∀ g ∈ l, g ∈ l.dropLast ∨ g = e := by
    intro l e he g hg
    unfold dottedLast at he
    obtain ⟨he, -⟩ := Option.filter_eq_some_iff.mp he
    obtain ⟨l', rfl⟩ := List.getLast?_eq_some_iff.mp he
    simpa using hg
  unfold readHalves at h
  dsimp only at h
  split at h
  · cases h
  · rename_i hlen
    -- no group of either side has a percent sign
    have hgroups : ∀ g, g ∈ groups (halves.headD []) ∨ g ∈ groups (halves.tail.headD []) →
        '%' ∉ g := by
      intro g hg
      split at h
      · rename_i embedded left hr
        obtain ⟨v, hv, ha⟩ := Option.bind_eq_some_iff.mp h
        rcases hg with hg | hg
        · exact hhex g (assemble_groups ha g (.inl hg))
        · rcases hlast hr g hg with hg | rfl
          · exact hhex g (assemble_groups ha g (.inr hg))
          · exact hdot g v hv
      · rename_i embedded hr hl
        obtain ⟨v, hv, ha⟩ := Option.bind_eq_some_iff.mp h
        rcases hg with hg | hg
        · rcases hlast hl g hg with hg | rfl
          · exact hhex g (assemble_groups ha g (.inl hg))
          · exact hdot g v hv
        · exact hhex g (assemble_groups ha g (.inr hg))
      · exact hhex g (assemble_groups h g hg)
    intro part hpart hin
    obtain ⟨g, hg, hin⟩ := mem_groups (by decide) hin
    refine hgroups g ?_ hin
    match halves, hlen, hpart with
    | [a], _, hpart =>
      rw [List.mem_singleton.mp hpart] at hg
      exact .inl hg
    | [a, b], _, hpart =>
      simp only [List.mem_cons, List.not_mem_nil, or_false] at hpart
      rcases hpart with rfl | rfl
      · exact .inl hg
      · exact .inr hg
    | a :: b :: c :: l, hlen, _ => simp at hlen

/-- No address with a zone is read. -/
theorem ipv6Bytes_zone (s z : List Char) : ipv6Bytes (s ++ '%' :: z) = none := by
  unfold ipv6Bytes
  split
  · rfl
  · rw [Option.eq_none_iff_forall_not_mem]
    intro bytes h
    obtain ⟨part, hpart, hin⟩ := mem_splitDouble (c := '%') (by decide)
      (s := (s ++ '%' :: z).map Char.toLower) (by
        simp only [List.map_append, List.map_cons, List.mem_append, List.mem_cons]
        exact .inr (.inl rfl))
    exact readHalves_percent h part hpart hin

/-! ## Prefixes of bytes -/

/-- The address whose first bytes are `pre`. -/
def base (pre : List Nat) : Nat := ofDigits 256 (pre ++ List.replicate (16 - pre.length) 0)

theorem take_eq_iff {l l' : List Nat} {k : Nat} :
    (∀ i < k, l[i]? = l'[i]?) ↔ l.take k = l'.take k := by
  constructor
  · intro h
    refine List.ext_getElem? fun i => ?_
    rw [List.getElem?_take, List.getElem?_take]
    split
    · rename_i hi
      exact h i hi
    · rfl
  · intro h i hi
    have hget := congrArg (·[i]?) h
    simpa [List.getElem?_take, hi] using hget

/-- The bits of a byte that a mask keeps are its quotient. -/
theorem mask_eq : ∀ j < 9, ∀ c < 256, c &&& (0xff <<< j) = c / 2 ^ j * 2 ^ j := by
  intro j _ c hc
  rw [← Nat.shiftRight_eq_div_pow, ← Nat.shiftLeft_eq]
  refine Nat.eq_of_testBit_eq fun i => ?_
  rw [Nat.testBit_and, Nat.testBit_shiftLeft, Nat.testBit_shiftLeft, Nat.testBit_shiftRight,
    show 255 = 2 ^ 8 - 1 from rfl, Nat.testBit_two_pow_sub_one]
  by_cases hji : j ≤ i
  · rw [Nat.add_sub_cancel' hji]
    by_cases hi : i - j < 8
    · simp [hji, hi]
    · have hpow : 2 ^ 8 ≤ 2 ^ i := Nat.pow_le_pow_right (by decide) (by omega)
      have hlow : c.testBit i = false := Nat.testBit_lt_two_pow (lt_of_lt_of_le hc hpow)
      simp [hlow]
  · simp [hji]

theorem and_mask_eq_iff {c q j : Nat} (hj : j < 9) (hc : c < 256) (hq : q < 256) :
    c &&& (0xff <<< j) = q &&& (0xff <<< j) ↔ c / 2 ^ j = q / 2 ^ j := by
  rw [mask_eq j hj c hc, mask_eq j hj q hq]
  exact Nat.mul_left_inj (by positivity)

/-- The comparison of bytes and of a masked byte is the comparison of the leading bits. -/
theorem ipv6InPrefix_iff {bytes pre : List Nat} {bits : Nat} (hlen : bytes.length = 16)
    (hb : ∀ d ∈ bytes, d < 256) (hp : ∀ d ∈ pre, d < 256)
    (hpre : pre.length = bits / 8 + (if bits % 8 = 0 then 0 else 1)) (hbits : bits ≤ 128) :
    ipv6InPrefix bytes pre bits = true ↔ InPrefix 128 (ofDigits 256 bytes) (base pre) bits := by
  have hzero : ∀ n, ∀ d ∈ List.replicate n 0, d < 256 := by
    intro n d hd
    rw [List.eq_of_mem_replicate hd]
    decide
  have hloop : ((List.range (bits / 8)).any fun index => bytes[index]? != pre[index]?) = false ↔
      bytes.take (bits / 8) = pre.take (bits / 8) := by
    rw [← take_eq_iff]
    simp
  have hdrop : ∀ n, ∀ d ∈ bytes.drop n, d < 256 := fun n d hd => hb d (List.mem_of_mem_drop hd)
  have htake : ∀ n, ∀ d ∈ bytes.take n, d < 256 := fun n d hd => hb d (List.mem_of_mem_take hd)
  unfold ipv6InPrefix base
  rw [if_neg (by omega)]
  by_cases hr : bits % 8 = 0
  · rw [if_pos hr] at hpre ⊢
    have hself : pre.take (bits / 8) = pre := List.take_of_length_le (by omega)
    rw [hself] at hloop
    have hiff := inPrefix_bytes (w := 128) (n := bits) (l := bytes.take (bits / 8))
      (m := bytes.drop (bits / 8)) (p := pre) (r := List.replicate (16 - pre.length) 0)
      (by rw [List.length_take]; omega) (by rw [List.length_drop, List.length_replicate]; omega)
      (htake _) (hdrop _) hp (hzero _) (by rw [List.length_drop]; omega)
    rw [List.take_append_drop] at hiff
    rw [hiff, ← hloop]
    cases h : (List.range (bits / 8)).any fun index => bytes[index]? != pre[index]? <;> simp
  · rw [if_neg hr] at hpre ⊢
    have hk : bits / 8 < bytes.length := by omega
    have hk' : bits / 8 < pre.length := by omega
    have hbytes : bytes = bytes.take (bits / 8) ++ bytes[bits / 8] :: bytes.drop (bits / 8 + 1) := by
      rw [← List.drop_eq_getElem_cons, List.take_append_drop]
    have hsplit : pre = pre.take (bits / 8) ++ [pre[bits / 8]] := by
      have hdropPre : pre.drop (bits / 8 + 1) = [] := List.drop_of_length_le (by omega)
      rw [← hdropPre, ← List.drop_eq_getElem_cons, List.take_append_drop]
    have hbase : pre ++ List.replicate (16 - pre.length) 0 =
        pre.take (bits / 8) ++ pre[bits / 8] :: List.replicate (16 - pre.length) 0 := by
      conv_lhs => rw [hsplit]
      rw [List.append_assoc, List.singleton_append, ← hsplit]
    have hc := hb _ (List.getElem_mem hk)
    have hq := hp _ (List.getElem_mem hk')
    have hiff := inPrefix_bytes_partial (w := 128) (n := bits) (j := 8 - bits % 8)
      (l := bytes.take (bits / 8)) (m := bytes.drop (bits / 8 + 1)) (p := pre.take (bits / 8))
      (r := List.replicate (16 - pre.length) 0) (c := bytes[bits / 8]) (q := pre[bits / 8])
      (by rw [List.length_take, List.length_take]; omega)
      (by rw [List.length_drop, List.length_replicate]; omega) (htake _) (hdrop _)
      (fun d hd => hp d (List.mem_of_mem_take hd)) (hzero _) hc hq (by omega)
      (by rw [List.length_drop]; omega)
    rw [← hbytes, ← hbase] at hiff
    have hgetc : bytes.getD (bits / 8) 0 = bytes[bits / 8] := by simp [hk]
    have hgetq : pre.getD (bits / 8) 0 = pre[bits / 8] := by simp [hk']
    rw [hiff, ← hloop, ← and_mask_eq_iff (by omega) hc hq, hgetc, hgetq]
    cases h : (List.range (bits / 8)).any fun index => bytes[index]? != pre[index]? <;> simp

/-! ## The filter on addresses -/

section Bytes

variable {bytes : List Nat}

theorem bytes_length (t : Address6) : (Address6.bytes t).length = 16 := by
  unfold Address6.bytes
  rw [List.length_flatMap]
  simp [t.words_length]

theorem bytes_lt (t : Address6) : ∀ d ∈ Address6.bytes t, d < 256 := by
  intro d hd
  obtain ⟨w, hw, hd⟩ := List.mem_flatMap.mp hd
  have hlt := t.words_lt w hw
  simp only [List.mem_cons, List.not_mem_nil, or_false] at hd
  rcases hd with rfl | rfl <;> omega

theorem bytes_value (t : Address6) : ofDigits 256 (Address6.bytes t) = t.value :=
  ofDigits_split t.words

/-- A byte meets only the low bits of a mask. -/
theorem byte_and {d m : Nat} (hd : d < 256) : d &&& m = d &&& (m % 256) := by
  have hle : d &&& m < 2 ^ 8 := lt_of_le_of_lt Nat.and_le_left hd
  calc d &&& m = (d &&& m) % 2 ^ 8 := (Nat.mod_eq_of_lt hle).symm
    _ = d % 2 ^ 8 &&& m % 2 ^ 8 := Nat.and_mod_two_pow
    _ = d &&& (m % 256) := by rw [Nat.mod_eq_of_lt hd]

/-- The comparisons that `privateIpv6` makes by hand are comparisons of prefixes. -/
theorem handwritten (hlen : bytes.length = 16) (hb : ∀ d ∈ bytes, d < 256) :
    (mapped bytes = ipv6InPrefix bytes [0, 0, 0, 0, 0, 0, 0, 0, 0, 0, 255, 255] 96) ∧
    (bytes.all (· == 0) = ipv6InPrefix bytes (List.replicate 16 0) 128) ∧
    (((bytes.take 15).all (· == 0) && bytes.getD 15 0 == 1) =
      ipv6InPrefix bytes (List.replicate 15 0 ++ [1]) 128) ∧
    ((bytes.getD 0 0 &&& 0xe0 == 0x20) = ipv6InPrefix bytes [0x20] 3) ∧
    ((bytes.getD 0 0 &&& 0xfe == 0xfc) = ipv6InPrefix bytes [0xfc] 7) ∧
    ((bytes.getD 0 0 == 0xfe && bytes.getD 1 0 &&& 0xc0 == 0x80) =
      ipv6InPrefix bytes [0xfe, 0x80] 10) ∧
    ((bytes.getD 0 0 == 0xff) = ipv6InPrefix bytes [0xff] 8) := by
  have hmask3 : ∀ d < 256, d &&& 8160 = d &&& 224 := fun _ hd => byte_and hd
  have hmask7 : ∀ d < 256, d &&& 510 = d &&& 254 := fun _ hd => byte_and hd
  have hmask10 : ∀ d < 256, d &&& 16320 = d &&& 192 := fun _ hd => byte_and hd
  match bytes, hlen, hb with
  | [b0, b1, b2, b3, b4, b5, b6, b7, b8, b9, b10, b11, b12, b13, b14, b15], _, hb =>
    have h0 := hb b0 (by simp)
    have h1 := hb b1 (by simp)
    refine ⟨?_, ?_, ?_, ?_, ?_, ?_, ?_⟩
    · rw [Bool.eq_iff_iff]
      simp [mapped, ipv6InPrefix, List.range_succ, and_assoc]
    · rw [Bool.eq_iff_iff]
      simp [ipv6InPrefix, List.range_succ]
    · rw [Bool.eq_iff_iff]
      simp [ipv6InPrefix, List.range_succ, and_assoc]
    · rw [Bool.eq_iff_iff]
      simp [ipv6InPrefix, hmask3 b0 h0]
    · rw [Bool.eq_iff_iff]
      simp [ipv6InPrefix, hmask7 b0 h0]
    · rw [Bool.eq_iff_iff]
      simp [ipv6InPrefix, List.range_succ, hmask10 b1 h1]
    · rw [Bool.eq_iff_iff]
      simp [ipv6InPrefix, List.range_succ]

/-- Every prefix of the filter: its bytes and its bits fit. -/
theorem nonGlobalIpv6Prefixes_fit : ∀ p ∈ nonGlobalIpv6Prefixes, (∀ d ∈ p.1, d < 256) ∧
    p.1.length = p.2 / 8 + (if p.2 % 8 = 0 then 0 else 1) ∧ p.2 ≤ 128 := by decide

/-- The table of the filter, as addresses. -/
theorem nonGlobalIpv6Prefixes_base :
    nonGlobalIpv6Prefixes.map (fun p => (base p.1, p.2)) = specialPurpose6 := by
  decide

theorem table_iff (hlen : bytes.length = 16) (hb : ∀ d ∈ bytes, d < 256) :
    nonGlobalIpv6Prefixes.any (fun p => ipv6InPrefix bytes p.1 p.2) = true ↔
      ∃ q ∈ specialPurpose6, InPrefix 128 (ofDigits 256 bytes) q.1 q.2 := by
  rw [List.any_eq_true, ← nonGlobalIpv6Prefixes_base]
  constructor
  · intro ⟨p, hp, h⟩
    obtain ⟨hlt, hpre, hbits⟩ := nonGlobalIpv6Prefixes_fit p hp
    exact ⟨_, List.mem_map_of_mem hp, (ipv6InPrefix_iff hlen hb hlt hpre hbits).mp h⟩
  · intro ⟨q, hq, h⟩
    obtain ⟨p, hp, rfl⟩ := List.mem_map.mp hq
    obtain ⟨hlt, hpre, hbits⟩ := nonGlobalIpv6Prefixes_fit p hp
    exact ⟨p, hp, (ipv6InPrefix_iff hlen hb hlt hpre hbits).mpr h⟩

/-- What the comparisons written by hand say of the address. -/
theorem handwritten_iff (hlen : bytes.length = 16) (hb : ∀ d ∈ bytes, d < 256) :
    (mapped bytes = true ↔
      InPrefix 128 (ofDigits 256 bytes) (hextets [0, 0, 0, 0, 0, 0xffff]) 96) ∧
    (bytes.all (· == 0) = true ↔ InPrefix 128 (ofDigits 256 bytes) 0 128) ∧
    (((bytes.take 15).all (· == 0) && bytes.getD 15 0 == 1) = true ↔
      InPrefix 128 (ofDigits 256 bytes) 1 128) ∧
    ((bytes.getD 0 0 &&& 0xe0 == 0x20) = true ↔
      InPrefix 128 (ofDigits 256 bytes) (hextets [0x2000]) 3) ∧
    ((bytes.getD 0 0 &&& 0xfe == 0xfc) = true ↔
      InPrefix 128 (ofDigits 256 bytes) (hextets [0xfc00]) 7) ∧
    ((bytes.getD 0 0 == 0xfe && bytes.getD 1 0 &&& 0xc0 == 0x80) = true ↔
      InPrefix 128 (ofDigits 256 bytes) (hextets [0xfe80]) 10) ∧
    ((bytes.getD 0 0 == 0xff) = true ↔
      InPrefix 128 (ofDigits 256 bytes) (hextets [0xff00]) 8) := by
  obtain ⟨e1, e2, e3, e4, e5, e6, e7⟩ := handwritten hlen hb
  have hbase : ∀ {pre : List Nat} {n b : Nat}, (∀ d ∈ pre, d < 256) →
      pre.length = n / 8 + (if n % 8 = 0 then 0 else 1) → n ≤ 128 → base pre = b →
      (ipv6InPrefix bytes pre n = true ↔ InPrefix 128 (ofDigits 256 bytes) b n) := by
    rintro pre n b hlt hpre hn rfl
    exact ipv6InPrefix_iff hlen hb hlt hpre hn
  rw [e1, e2, e3, e4, e5, e6, e7]
  refine ⟨?_, ?_, ?_, ?_, ?_, ?_, ?_⟩
  all_goals exact hbase (by decide) (by decide) (by decide) (by decide)

/-- The address that an IPv4-mapped address embeds. -/
theorem embedded_eq (hlen : bytes.length = 16) (hb : ∀ d ∈ bytes, d < 256) :
    ∃ t : Dotted, decimal (bytes.getD 12 0) ++ '.' :: (decimal (bytes.getD 13 0) ++ '.' ::
      (decimal (bytes.getD 14 0) ++ '.' :: decimal (bytes.getD 15 0))) = t.spell ∧
      t.value = ofDigits 256 bytes % 2 ^ 32 := by
  match bytes, hlen, hb with
  | [b0, b1, b2, b3, b4, b5, b6, b7, b8, b9, b10, b11, b12, b13, b14, b15], _, hb =>
    refine ⟨⟨⟨b12, hb _ (by simp)⟩, ⟨b13, hb _ (by simp)⟩, ⟨b14, hb _ (by simp)⟩,
      ⟨b15, hb _ (by simp)⟩⟩, rfl, ?_⟩
    have hsplit := ofDigits_append 256 [b0, b1, b2, b3, b4, b5, b6, b7, b8, b9, b10, b11]
      [b12, b13, b14, b15]
    have hlt := ofDigits_lt (b := 256) (by decide) (l := [b12, b13, b14, b15])
      fun d hd => hb d (List.mem_append_right [b0, b1, b2, b3, b4, b5, b6, b7, b8, b9, b10, b11] hd)
    have hpow : 256 ^ [b12, b13, b14, b15].length = 2 ^ 32 := by
      rw [show [b12, b13, b14, b15].length = 4 from rfl]
      norm_num
    rw [hpow] at hsplit hlt
    simp only [List.cons_append, List.nil_append] at hsplit
    rw [hsplit, Nat.mul_add_mod_self_right, Nat.mod_eq_of_lt hlt]
    rfl

/-- The bytes are refused when their address is not global. -/
theorem privateBytes_iff (hlen : bytes.length = 16) (hb : ∀ d ∈ bytes, d < 256) :
    privateBytes bytes = false ↔ InPrefix 128 (ofDigits 256 bytes) (hextets [0x2000]) 3 ∧
      ∀ p ∈ nonGlobal6, ¬ InPrefix 128 (ofDigits 256 bytes) p.1 p.2 := by
  obtain ⟨-, hzero, hloop, hglobal, hlocal, hlink, hmulti⟩ := handwritten_iff hlen hb
  have htable := table_iff hlen hb
  unfold privateBytes nonGlobal6
  dsimp only
  rw [← Bool.not_eq_true, List.forall_mem_append]
  simp only [Bool.or_eq_true, hzero, hloop, hlocal, hlink, hmulti, htable, Bool.not_eq_true',
    ← Bool.not_eq_true, hglobal, not_or, not_not, List.forall_mem_cons]
  constructor
  · rintro ⟨⟨⟨⟨⟨⟨h0, h1⟩, hlocal⟩, hlink⟩, hmulti⟩, hspecial⟩, h2000⟩
    exact ⟨h2000, ⟨h0, h1, hlocal, hlink, hmulti, by simp⟩, fun p hp h => hspecial ⟨p, hp, h⟩⟩
  · rintro ⟨h2000, ⟨h0, h1, hlocal, hlink, hmulti, _⟩, hspecial⟩
    exact ⟨⟨⟨⟨⟨⟨h0, h1⟩, hlocal⟩, hlink⟩, hmulti⟩, fun hex => hex.elim fun p hp => hspecial p hp.1 hp.2⟩, h2000⟩

theorem privateIpv6_spell (t : Address6) : privateIpv6 t.spell = false ↔ Global6 t.value := by
  have hlen := bytes_length t
  have hb := bytes_lt t
  have hmap := (handwritten_iff hlen hb).1
  unfold privateIpv6 Global6
  rw [ipv6Bytes_spell, ← bytes_value]
  dsimp only
  by_cases hm : mapped (Address6.bytes t) = true
  · obtain ⟨d, hspell, hval⟩ := embedded_eq hlen hb
    rw [if_pos hm, if_pos (hmap.mp hm), hspell, privateIpv4_spell, hval]
  · rw [if_neg hm, if_neg fun h => hm (hmap.mpr h)]
    exact privateBytes_iff hlen hb

end Bytes

/-- The spellings of the addresses that the filter lets through. -/
def GlobalSpelling (answer : ExtensionNetworkAddress) : Prop :=
  match answer.family with
  | .v4 => ∃ t : Dotted, answer.address = t.spell ∧ Global4 t.value
  | .v6 => ∃ t : Address6, answer.address = t.spell ∧ Global6 t.value

theorem globalAddress_iff (answer : ExtensionNetworkAddress) :
    globalAddress answer = true ↔ GlobalSpelling answer := by
  obtain ⟨s, family⟩ := answer
  cases family with
  | v4 =>
    show (isIP s == 4 && !privateIpv4 s) = true ↔ ∃ t : Dotted, s = t.spell ∧ Global4 t.value
    simp only [Bool.and_eq_true, beq_iff_eq, Bool.not_eq_true', isIP_eq_four]
    constructor
    · rintro ⟨⟨t, rfl⟩, h⟩
      exact ⟨t, rfl, (privateIpv4_spell t).mp h⟩
    · rintro ⟨t, rfl, h⟩
      exact ⟨⟨t, rfl⟩, (privateIpv4_spell t).mpr h⟩
  | v6 =>
    show (!privateIpv6 s) = true ↔ ∃ t : Address6, s = t.spell ∧ Global6 t.value
    rw [Bool.not_eq_true']
    constructor
    · intro h
      -- what is read is the spelling of an address without a zone
      have hip : isIP s = 6 := by
        by_contra hne
        unfold privateIpv6 ipv6Bytes at h
        rw [if_pos hne] at h
        cases h
      obtain ⟨t, rfl | ⟨z, -, -, rfl⟩⟩ := isIP_eq_six.mp hip
      · exact ⟨t, rfl, (privateIpv6_spell t).mp h⟩
      · unfold privateIpv6 at h
        rw [ipv6Bytes_zone] at h
        cases h
    · rintro ⟨t, rfl, h⟩
      exact (privateIpv6_spell t).mpr h

/-- **Public-address filter.** A string that `isIP` takes for an IPv6 address is a textual form of
RFC 4291, of which `ipv6Bytes` computes the address, or such a form with a zone, which it rejects;
and `globalAddress` accepts exactly the spellings of addresses outside every listed prefix, where
an IPv4-mapped address is judged by the address it embeds. -/
theorem public_address_filter :
    (∀ t : Address6, isIP t.spell = 6 ∧ ∃ bytes, ipv6Bytes t.spell = some bytes ∧
      bytes.length = 16 ∧ (∀ d ∈ bytes, d < 256) ∧ ofDigits 256 bytes = t.value) ∧
    (∀ s : List Char, isIP s = 6 ↔
      ∃ t : Address6, s = t.spell ∨ ∃ z : List Char, z ≠ [] ∧ (∀ c ∈ z, c ∈ zoneChars) ∧
        s = t.spell ++ '%' :: z) ∧
    (∀ s z : List Char, ipv6Bytes (s ++ '%' :: z) = none) ∧
    ∀ answer, globalAddress answer = true ↔ GlobalSpelling answer := by
  refine ⟨fun t => ⟨isIP_eq_six.mpr ⟨t, .inl rfl⟩, _, ipv6Bytes_spell t, bytes_length t, bytes_lt t,
    bytes_value t⟩, fun s => isIP_eq_six, ipv6Bytes_zone, globalAddress_iff⟩

end KNex.Runtime.ExtensionNetworkTransport
