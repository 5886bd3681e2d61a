import KNex.Contracts.CanonicalJson
import KNex.Core.Bytes
import KNex.Core.Sha256
import KNex.Core.TextCoding

/-!
# The digest of canonical JSON

`sha256CanonicalJson` of `packages/contracts/src/canonical-json.ts`: a hash written with the
operators of ECMAScript on 32-bit integers, which read their operands modulo `2^32` and give signed
results (`>>>` an unsigned one); the sums between them stay far below `2^53` and are exact. Typed
arrays hold what is stored modulo their element.

`sha256CanonicalJson_eq`: the result is the SHA-256 digest of the UTF-8 bytes of the canonical
text. Each operator commutes with taking the last 32 bits (`word`), so a round of the source is a
round of the standard on the words of its variables (`rounds_word`), the array `words` is the
schedule whatever it held before (`schedule_loops`), and the padded array is the padded message
bit by bit (`bytesBits_padded`).
-/
namespace KNex.Contracts.CanonicalJson

open KNex.Core KNex.Core.JsonText KNex.Core.TextCoding
open KNex.Core.Sha256 (Word bitsOf bytesBits bitsOf_add bitsOf_mod natOf natOf_append
  natOf_bitsOf bytesBits_append drop_bytesBits length_bytesBits length_bitsOf)

/-! ## Operators -/

/-- The last 32 bits, by which both `ToInt32` and `ToUint32` read a number. -/
def word (x : Int) : Word := BitVec.ofInt 32 x

/-- `x >>> n`. -/
def shr (x : Int) (n : Nat) : Int := (word x >>> n).toNat

/-- `x << n`. -/
def shl (x : Int) (n : Nat) : Int := (word x <<< n).toInt

/-- `x | y`. -/
def bitOr (x y : Int) : Int := (word x ||| word y).toInt

/-- `x ^ y`. -/
def bitXor (x y : Int) : Int := (word x ^^^ word y).toInt

/-- `x & y`. -/
def bitAnd (x y : Int) : Int := (word x &&& word y).toInt

/-- `~x`. -/
def bitNot (x : Int) : Int := (~~~word x).toInt

@[simp] theorem word_toInt (w : Word) : word w.toInt = w := BitVec.ofInt_toInt

@[simp] theorem word_toNat (w : Word) : word (w.toNat : Int) = w := by
  unfold word
  rw [BitVec.ofInt_natCast, BitVec.ofNat_toNat, BitVec.setWidth_eq]

@[simp] theorem word_add (x y : Int) : word (x + y) = word x + word y := BitVec.ofInt_add x y

@[simp] theorem word_shr (x : Int) (n : Nat) : word (shr x n) = word x >>> n := word_toNat _

@[simp] theorem word_shl (x : Int) (n : Nat) : word (shl x n) = word x <<< n := word_toInt _

@[simp] theorem word_bitOr (x y : Int) : word (bitOr x y) = word x ||| word y := word_toInt _

@[simp] theorem word_bitXor (x y : Int) : word (bitXor x y) = word x ^^^ word y := word_toInt _

@[simp] theorem word_bitAnd (x y : Int) : word (bitAnd x y) = word x &&& word y := word_toInt _

@[simp] theorem word_bitNot (x : Int) : word (bitNot x) = ~~~word x := word_toInt _

/-- mirrors packages/contracts/src/canonical-json.ts:66 -/
def rotate (value : Int) (bits : Nat) : Int := bitOr (shr value bits) (shl value (32 - bits))

theorem word_rotate (value : Int) {bits : Nat} (h : bits < 32) :
    word (rotate value bits) = (word value).rotateRight bits := by
  unfold rotate
  rw [word_bitOr, word_shr, word_shl, BitVec.rotateRight_def, Nat.mod_eq_of_lt h]

/-! ## Typed arrays -/

/-- An element of a `Uint32Array`, as a number. -/
def at32 (array : List Word) (index : Nat) : Int := (array.getD index 0).toNat

/-- `array[index] = value` on a `Uint32Array`. -/
def set32 (array : List Word) (index : Nat) (value : Int) : List Word := array.set index (word value)

/-- The bytes of a word, the most significant first. -/
def wordBytes (w : Word) : List UInt8 :=
  [UInt8.ofNat (w.toNat / 2 ^ 24), UInt8.ofNat (w.toNat / 2 ^ 16), UInt8.ofNat (w.toNat / 2 ^ 8),
    UInt8.ofNat w.toNat]

/-- `view.setUint32(offset, value, false)`. -/
def setUint32 (array : List UInt8) (offset : Nat) (value : Int) : List UInt8 :=
  setBytes array offset (wordBytes (word value))

/-- `view.getUint32(offset, false)`. -/
def getUint32 (array : List UInt8) (offset : Nat) : Int :=
  (((array.getD offset 0).toNat * 256 + (array.getD (offset + 1) 0).toNat) * 256 +
    (array.getD (offset + 2) 0).toNat) * 256 + (array.getD (offset + 3) 0).toNat

/-! ## The source -/

/-- mirrors packages/contracts/src/canonical-json.ts:52 -/
def initialState : List Word := [
  0x6a09e667, 0xbb67ae85, 0x3c6ef372, 0xa54ff53a, 0x510e527f, 0x9b05688c, 0x1f83d9ab, 0x5be0cd19]

/-- mirrors packages/contracts/src/canonical-json.ts:53-58 -/
def constants : List Word := [
  0x428a2f98, 0x71374491, 0xb5c0fbcf, 0xe9b5dba5, 0x3956c25b, 0x59f111f1, 0x923f82a4, 0xab1c5ed5,
  0xd807aa98, 0x12835b01, 0x243185be, 0x550c7dc3, 0x72be5d74, 0x80deb1fe, 0x9bdc06a7, 0xc19bf174,
  0xe49b69c1, 0xefbe4786, 0x0fc19dc6, 0x240ca1cc, 0x2de92c6f, 0x4a7484aa, 0x5cb0a9dc, 0x76f988da,
  0x983e5152, 0xa831c66d, 0xb00327c8, 0xbf597fc7, 0xc6e00bf3, 0xd5a79147, 0x06ca6351, 0x14292967,
  0x27b70a85, 0x2e1b2138, 0x4d2c6dfc, 0x53380d13, 0x650a7354, 0x766a0abb, 0x81c2c92e, 0x92722c85,
  0xa2bfe8a1, 0xa81a664b, 0xc24b8b70, 0xc76c51a3, 0xd192e819, 0xd6990624, 0xf40e3585, 0x106aa070,
  0x19a4c116, 0x1e376c08, 0x2748774c, 0x34b0bcb5, 0x391c0cb3, 0x4ed8aa4a, 0x5b9cca4f, 0x682e6ff3,
  0x748f82ee, 0x78a5636f, 0x84c87814, 0x8cc70208, 0x90befffa, 0xa4506ceb, 0xbef9a3f7, 0xc67178f2]

/-- The message with its padding and its length; `Math.ceil` is the division rounded up.
mirrors packages/contracts/src/canonical-json.ts:59-65 -/
def padded (bytes : List UInt8) : List UInt8 :=
  let bitLength : Int := bytes.length * 8
  let paddedLength := (bytes.length + 9 + 63) / 64 * 64
  let array := setBytes (List.replicate paddedLength 0) 0 bytes
  let array := setBytes array bytes.length [0x80]
  let array := setUint32 array (paddedLength - 8) (bitLength / 0x100000000)
  setUint32 array (paddedLength - 4) (shr bitLength 0)

/-- mirrors packages/contracts/src/canonical-json.ts:70-73 -/
def extend (words : List Word) (index : Nat) : List Word :=
  let left := at32 words (index - 15)
  let right := at32 words (index - 2)
  let sigma0 := bitXor (bitXor (rotate left 7) (rotate left 18)) (shr left 3)
  let sigma1 := bitXor (bitXor (rotate right 17) (rotate right 19)) (shr right 10)
  set32 words index (shr (at32 words (index - 16) + sigma0 + at32 words (index - 7) + sigma1) 0)

/-- The two loops that fill `words` for a block.
mirrors packages/contracts/src/canonical-json.ts:68-74 -/
def fillWords (view : List UInt8) (offset : Nat) (words : List Word) : List Word :=
  (List.range' 16 48).foldl extend
    ((List.range' 0 16).foldl
      (fun words index => set32 words index (getUint32 view (offset + index * 4))) words)

/-- The variables `a` to `h` of the loop over a block. -/
structure Variables where
  a : Int
  b : Int
  c : Int
  d : Int
  e : Int
  f : Int
  g : Int
  h : Int

/-- mirrors packages/contracts/src/canonical-json.ts:77-83 -/
def mix (words : List Word) (v : Variables) (index : Nat) : Variables :=
  let sum1 := bitXor (bitXor (rotate v.e 6) (rotate v.e 11)) (rotate v.e 25)
  let choose := bitXor (bitAnd v.e v.f) (bitAnd (bitNot v.e) v.g)
  let temp1 := shr (v.h + sum1 + choose + at32 constants index + at32 words index) 0
  let sum0 := bitXor (bitXor (rotate v.a 2) (rotate v.a 13)) (rotate v.a 22)
  let majority := bitXor (bitXor (bitAnd v.a v.b) (bitAnd v.a v.c)) (bitAnd v.b v.c)
  let temp2 := shr (sum0 + majority) 0
  { a := shr (temp1 + temp2) 0, b := v.a, c := v.b, d := v.c, e := shr (v.d + temp1) 0
    f := v.e, g := v.f, h := v.g }

/-- `let [a,b,c,d,e,f,g,h] = state`. -/
def loadState (state : List Word) : Variables where
  a := at32 state 0
  b := at32 state 1
  c := at32 state 2
  d := at32 state 3
  e := at32 state 4
  f := at32 state 5
  g := at32 state 6
  h := at32 state 7

/-- mirrors packages/contracts/src/canonical-json.ts:85 -/
def addState (state : List Word) (v : Variables) : List Word :=
  [v.a, v.b, v.c, v.d, v.e, v.f, v.g, v.h].zipIdx.foldl
    (fun state entry => set32 state entry.2 (shr (at32 state entry.2 + entry.1) 0)) state

/-- One round of the loop over the blocks, which keeps the array `words`.
mirrors packages/contracts/src/canonical-json.ts:67-86 -/
def hashBlock (view : List UInt8) (arrays : List Word × List Word) (block : Nat) :
    List Word × List Word :=
  let words := fillWords view (64 * block) arrays.1
  let v := (List.range' 0 64).foldl (mix words) (loadState arrays.2)
  (words, addState arrays.2 v)

/-- `word.toString(16).padStart(8, "0")`. -/
def hexWord (w : Word) : List Char :=
  let digits := Nat.toDigits 16 w.toNat
  List.replicate (8 - digits.length) '0' ++ digits

/-- The hash of some bytes.
mirrors packages/contracts/src/canonical-json.ts:51-87 -/
def sha256 (bytes : List UInt8) : String :=
  let view := padded bytes
  let state := ((List.range' 0 (view.length / 64)).foldl (hashBlock view)
    (List.replicate 64 0, initialState)).2
  "sha256:" ++ String.ofList (state.flatMap hexWord)

/-- mirrors packages/contracts/src/canonical-json.ts:49-88 -/
def sha256CanonicalJson {N : Type} (F : NumberFormat N) (value : JsValue N) : Result String := do
  let text ← canonicalJson F value
  return sha256 (encode text)

/-! ## The loops -/

/-- The rule of a loop over consecutive indices. -/
theorem foldl_range' {σ : Type} {P : Nat → σ → Prop} {f : σ → Nat → σ} {s : σ} {a : Nat} :
    ∀ {n : Nat}, P a s →
      (∀ i s, a ≤ i → i < a + n → P i s → P (i + 1) (f s i)) →
      P (a + n) ((List.range' a n).foldl f s)
  | 0, h0, _ => h0
  | n + 1, h0, hstep => by
    rw [List.range'_concat, List.foldl_append, List.foldl_cons, List.foldl_nil, Nat.one_mul]
    exact hstep (a + n) _ (by omega) (by omega)
      (foldl_range' h0 fun i s hi hlt => hstep i s hi (by omega))

theorem getD_set32 (array : List Word) (index i : Nat) (value : Int) (h : index < array.length) :
    (set32 array index value).getD i 0 = if i = index then word value else array.getD i 0 := by
  unfold set32
  rw [List.getD_eq_getElem?_getD, List.getElem?_set, List.getD_eq_getElem?_getD]
  by_cases hi : i = index
  · subst hi
    rw [if_pos rfl, if_pos h, if_pos rfl]
    rfl
  · rw [if_neg (Ne.symm hi), if_neg hi]

@[simp] theorem length_set32 (array : List Word) (index : Nat) (value : Int) :
    (set32 array index value).length = array.length := List.length_set

@[simp] theorem word_at32 (array : List Word) (index : Nat) :
    word (at32 array index) = array.getD index 0 := word_toNat _

/-- The words of a block of the view. -/
def viewWord (view : List UInt8) (offset t : Nat) : Word := word (getUint32 view (offset + t * 4))

/-- The array is filled with the schedule, whatever it held. -/
theorem fillWords_schedule (view : List UInt8) (offset : Nat) {words : List Word}
    (hlen : words.length = 64) :
    (fillWords view offset words).length = 64 ∧ ∀ t < 64,
      (fillWords view offset words).getD t 0 = Sha256.schedule (viewWord view offset) t := by
  have hload := foldl_range' (P := fun n (w : List Word) => w.length = 64 ∧
      ∀ t < n, w.getD t 0 = viewWord view offset t) (a := 0) (n := 16)
    (f := fun words index => set32 words index (getUint32 view (offset + index * 4)))
    ⟨hlen, fun t ht => absurd ht (by omega)⟩ (by
      intro i w _ hi ⟨hw, hset⟩
      refine ⟨by rw [length_set32, hw], fun t ht => ?_⟩
      rw [getD_set32 w i t _ (by omega)]
      split
      · rename_i heq
        rw [heq]
        rfl
      · exact hset t (by omega))
  refine foldl_range' (P := fun n (w : List Word) => w.length = 64 ∧
      ∀ t < n, w.getD t 0 = Sha256.schedule (viewWord view offset) t) (a := 16) (n := 48)
    ⟨hload.1, fun t ht => ?_⟩ ?_
  · rw [Sha256.schedule, if_pos ht]
    exact hload.2 t ht
  · intro i w hi hlt ⟨hw, hset⟩
    refine ⟨by rw [extend, length_set32, hw], fun t ht => ?_⟩
    rw [extend, getD_set32 w i t _ (by omega)]
    split
    · rename_i heq
      subst heq
      rw [Sha256.schedule, if_neg (by omega)]
      simp only [word_shr, word_add, word_at32, word_bitXor,
        word_rotate _ (show 7 < 32 by omega), word_rotate _ (show 18 < 32 by omega),
        word_rotate _ (show 17 < 32 by omega), word_rotate _ (show 19 < 32 by omega),
        hset (t - 2) (by omega), hset (t - 7) (by omega), hset (t - 15) (by omega),
        hset (t - 16) (by omega), BitVec.ushiftRight_zero, Sha256.smallSigma0,
        Sha256.smallSigma1]
      ac_rfl
    · exact hset t (by omega)

/-- The words of the variables. -/
def Variables.hash (v : Variables) : Sha256.Hash where
  a := word v.a
  b := word v.b
  c := word v.c
  d := word v.d
  e := word v.e
  f := word v.f
  g := word v.g
  h := word v.h

theorem constants_eq : constants = Sha256.constants := rfl

theorem mix_hash (words : List Word) (v : Variables) (index : Nat) :
    (mix words v index).hash =
      Sha256.round v.hash (Sha256.constants.getD index 0) (words.getD index 0) := by
  rw [← constants_eq]
  simp only [mix, Variables.hash, Sha256.round, word_shr, word_add, word_at32, word_bitXor,
    word_bitAnd, word_bitNot, BitVec.ushiftRight_zero,
    word_rotate _ (show 6 < 32 by omega), word_rotate _ (show 11 < 32 by omega),
    word_rotate _ (show 25 < 32 by omega), word_rotate _ (show 2 < 32 by omega),
    word_rotate _ (show 13 < 32 by omega), word_rotate _ (show 22 < 32 by omega),
    Sha256.bigSigma0, Sha256.bigSigma1, Sha256.ch, Sha256.maj]

theorem rounds_hash {words : List Word} {block : Nat → Word}
    (hwords : ∀ t < 64, words.getD t 0 = Sha256.schedule block t) (v : Variables) :
    ((List.range' 0 64).foldl (mix words) v).hash =
      (List.range 64).foldl (fun v t => Sha256.round v (Sha256.constants.getD t 0)
        (Sha256.schedule block t)) v.hash := by
  refine foldl_range' (P := fun n (u : Variables) => u.hash =
    (List.range n).foldl (fun v t => Sha256.round v (Sha256.constants.getD t 0)
      (Sha256.schedule block t)) v.hash) (a := 0) (n := 64) rfl ?_
  intro i u _ hi hu
  rw [List.range_succ, List.foldl_append, ← hu, mix_hash, hwords i (by omega)]
  rfl

theorem addState_words (hash : Sha256.Hash) (v : Variables) :
    addState hash.words v = (hash.add v.hash).words := by
  simp [addState, Sha256.Hash.words, Sha256.Hash.add, Variables.hash, set32, at32]

theorem loadState_hash (hash : Sha256.Hash) : (loadState hash.words).hash = hash := by
  simp [loadState, Variables.hash, Sha256.Hash.words]

/-- A round of the loop over the blocks compresses a block of the view. -/
theorem hashBlock_compress (view : List UInt8) {words : List Word} (hlen : words.length = 64)
    (hash : Sha256.Hash) (block : Nat) :
    (hashBlock view (words, hash.words) block).1.length = 64 ∧
      (hashBlock view (words, hash.words) block).2 =
        (Sha256.compress hash (viewWord view (64 * block))).words := by
  obtain ⟨hfilled, hschedule⟩ := fillWords_schedule view (64 * block) hlen
  unfold hashBlock Sha256.compress
  dsimp only
  refine ⟨hfilled, ?_⟩
  rw [addState_words, rounds_hash hschedule, loadState_hash]

/-! ## The padding -/

theorem bytesBits_wordBytes (w : Word) : bytesBits (wordBytes w) = bitsOf 32 w.toNat := by
  have hbyte : ∀ n : Nat, bitsOf 8 (UInt8.ofNat n).toNat = bitsOf 8 n := by
    intro n
    rw [UInt8.toNat_ofNat']
    exact bitsOf_mod n (Nat.le_refl 8)
  rw [bitsOf_add w.toNat 24 8, bitsOf_add w.toNat 16 8, bitsOf_add w.toNat 8 8]
  simp only [bytesBits, wordBytes, List.flatMap_cons, List.flatMap_nil, List.append_nil, hbyte]

theorem length_wordBytes (w : Word) : (wordBytes w).length = 4 := rfl

/-- The padded array, part by part. -/
theorem padded_eq (bytes : List UInt8) {z : Nat}
    (hz : (bytes.length + 72) / 64 * 64 = bytes.length + 1 + z + 4 + 4) :
    padded bytes = bytes ++ [0x80] ++ List.replicate z 0 ++
      wordBytes (word ((bytes.length : Int) * 8 / 0x100000000)) ++
      wordBytes (word ((bytes.length : Int) * 8)) := by
  have hmessage : setBytes (List.replicate (bytes.length + 1 + z + 4 + 4) 0) 0 bytes =
      bytes ++ [0] ++ (List.replicate z 0 ++ List.replicate 4 0 ++ List.replicate 4 0) := by
    have hparts : List.replicate (bytes.length + 1 + z + 4 + 4) (0 : UInt8) =
        [] ++ List.replicate bytes.length 0 ++
          ([0] ++ (List.replicate z 0 ++ List.replicate 4 0 ++ List.replicate 4 0)) := by
      simp only [List.replicate_add, List.nil_append, List.append_assoc, List.replicate_one]
    rw [hparts, setBytes_append List.length_nil (by simp), List.nil_append, ← List.append_assoc]
  have hone : setBytes (bytes ++ [0] ++ (List.replicate z 0 ++ List.replicate 4 0 ++
      List.replicate 4 0)) bytes.length [0x80] =
        bytes ++ [0x80] ++ (List.replicate z 0 ++ List.replicate 4 0 ++ List.replicate 4 0) :=
    setBytes_append (by rfl) (by rfl)
  have hhigh : ∀ w : Word, setBytes (bytes ++ [0x80] ++ List.replicate z 0 ++ List.replicate 4 0 ++
      List.replicate 4 0) (bytes.length + 1 + z + 4 + 4 - 8) (wordBytes w) =
        bytes ++ [0x80] ++ List.replicate z 0 ++ wordBytes w ++ List.replicate 4 0 := fun w =>
    setBytes_append (by simp; omega) (by rfl)
  have hlow : ∀ v w : Word, setBytes (bytes ++ [0x80] ++ List.replicate z 0 ++ wordBytes v ++
      List.replicate 4 0 ++ []) (bytes.length + 1 + z + 4 + 4 - 4) (wordBytes w) =
        bytes ++ [0x80] ++ List.replicate z 0 ++ wordBytes v ++ wordBytes w ++ [] := fun v w =>
    setBytes_append (by simp [length_wordBytes]; omega) (by rfl)
  unfold padded setUint32
  dsimp only
  rw [show bytes.length + 9 + 63 = bytes.length + 72 by omega, hz, hmessage, hone,
    ← List.append_assoc, ← List.append_assoc, hhigh,
    ← List.append_nil (bytes ++ [0x80] ++ List.replicate z 0 ++ wordBytes _ ++ _), hlow,
    List.append_nil, word_shr, BitVec.ushiftRight_zero]

theorem word_natCast (n : Nat) : (word (n : Int)).toNat = n % 2 ^ 32 := by
  unfold word
  rw [BitVec.ofInt_natCast, BitVec.toNat_ofNat]

theorem bytesBits_replicate_zero : ∀ n : Nat,
    bytesBits (List.replicate n 0) = List.replicate (8 * n) false
  | 0 => rfl
  | n + 1 => by
    rw [List.replicate_succ, ← List.singleton_append, bytesBits_append, bytesBits_replicate_zero n,
      show 8 * (n + 1) = 8 + 8 * n by omega, List.replicate_add]
    rfl

theorem bytesBits_padded (bytes : List UInt8) :
    bytesBits (padded bytes) = Sha256.pad (bytesBits bytes) := by
  obtain ⟨z, hz⟩ : ∃ z, (bytes.length + 72) / 64 * 64 = bytes.length + 1 + z + 4 + 4 :=
    ⟨(bytes.length + 72) / 64 * 64 - (bytes.length + 9), by omega⟩
  have hzeros : Sha256.zeros (8 * bytes.length) = 7 + 8 * z := by
    unfold Sha256.zeros
    omega
  have hhigh : ((bytes.length : Int) * 8 / 0x100000000) =
      ((8 * bytes.length / 2 ^ 32 : Nat) : Int) := by
    omega
  have hlow : ((bytes.length : Int) * 8) = ((8 * bytes.length : Nat) : Int) := by omega
  rw [padded_eq bytes hz]
  simp only [bytesBits_append, bytesBits_wordBytes, bytesBits_replicate_zero]
  rw [hhigh, hlow, word_natCast, word_natCast, bitsOf_mod _ (Nat.le_refl 32),
    bitsOf_mod _ (Nat.le_refl 32)]
  unfold Sha256.pad
  rw [length_bytesBits, hzeros, List.replicate_add, bitsOf_add (8 * bytes.length) 32 32]
  have hone : bytesBits [0x80] = true :: List.replicate 7 false := by decide
  rw [hone]
  simp only [List.append_assoc, List.cons_append]

/-! ## The blocks -/

theorem natOf_four_bytes (a b c d : UInt8) (rest : List UInt8) :
    natOf ((bytesBits (a :: b :: c :: d :: rest)).take 32) =
      ((a.toNat * 256 + b.toNat) * 256 + c.toNat) * 256 + d.toNat := by
  have hsplit : bytesBits (a :: b :: c :: d :: rest) =
      (bitsOf 8 a.toNat ++ bitsOf 8 b.toNat ++ bitsOf 8 c.toNat ++ bitsOf 8 d.toNat) ++
        bytesBits rest := by
    simp only [bytesBits, List.flatMap_cons, List.append_assoc]
  have ha := a.toNat_lt
  have hb := b.toNat_lt
  have hc := c.toNat_lt
  have hd := d.toNat_lt
  rw [hsplit, List.take_left' (by simp [length_bitsOf])]
  simp only [natOf_append, natOf_bitsOf, length_bitsOf]
  rw [Nat.mod_eq_of_lt ha, Nat.mod_eq_of_lt hb, Nat.mod_eq_of_lt hc, Nat.mod_eq_of_lt hd]
  norm_num

/-- A word of a block of bytes is one of the block of bits. -/
theorem viewWord_eq {view : List UInt8} {block t : Nat} (h : 64 * block + t * 4 + 4 ≤ view.length) :
    viewWord view (64 * block) t = Sha256.blockWord (bytesBits view) block t := by
  obtain ⟨a, b, c, d, rest, hdrop⟩ : ∃ a b c d rest,
      view.drop (64 * block + t * 4) = a :: b :: c :: d :: rest := by
    have hlen : 4 ≤ (view.drop (64 * block + t * 4)).length := by
      rw [List.length_drop]
      omega
    match hd : view.drop (64 * block + t * 4), hlen with
    | a :: b :: c :: d :: rest, _ => exact ⟨a, b, c, d, rest, rfl⟩
  have hget : ∀ i, view.getD (64 * block + t * 4 + i) 0 = (a :: b :: c :: d :: rest).getD i 0 := by
    intro i
    rw [← hdrop, List.getD_eq_getElem?_getD, List.getD_eq_getElem?_getD, List.getElem?_drop]
  unfold viewWord Sha256.blockWord getUint32
  rw [show 512 * block + 32 * t = 8 * (64 * block + t * 4) by omega, drop_bytesBits, hdrop,
    natOf_four_bytes]
  have h0 := hget 0
  rw [Nat.add_zero] at h0
  rw [h0, hget 1, hget 2, hget 3]
  unfold word
  rw [← BitVec.ofInt_natCast]
  simp

theorem hexWord_eq (w : Word) : hexWord w = Sha256.hexDigits 8 w.toNat :=
  Sha256.hexDigits_eq_pad (by omega) w.isLt

/-! ## The digest -/

theorem schedule_congr {block block' : Nat → Word} (h : ∀ t < 16, block t = block' t) (t : Nat) :
    Sha256.schedule block t = Sha256.schedule block' t := by
  induction t using Nat.strongRecOn with
  | ind t ih =>
    by_cases ht : t < 16
    · rw [Sha256.schedule, if_pos ht, Sha256.schedule, if_pos ht, h t ht]
    · rw [Sha256.schedule, if_neg ht, ih (t - 2) (by omega), ih (t - 7) (by omega),
        ih (t - 15) (by omega), ih (t - 16) (by omega)]
      conv_rhs => rw [Sha256.schedule, if_neg ht]

theorem compress_congr {block block' : Nat → Word} (h : ∀ t < 16, block t = block' t)
    (hash : Sha256.Hash) : Sha256.compress hash block = Sha256.compress hash block' := by
  unfold Sha256.compress
  simp only [schedule_congr h]

theorem length_padded (bytes : List UInt8) :
    8 * (padded bytes).length = (Sha256.pad (bytesBits bytes)).length ∧
      (padded bytes).length % 64 = 0 := by
  obtain ⟨z, hz⟩ : ∃ z, (bytes.length + 72) / 64 * 64 = bytes.length + 1 + z + 4 + 4 :=
    ⟨(bytes.length + 72) / 64 * 64 - (bytes.length + 9), by omega⟩
  refine ⟨by rw [← bytesBits_padded, length_bytesBits], ?_⟩
  rw [padded_eq bytes hz]
  simp only [List.length_append, List.length_singleton, List.length_replicate, length_wordBytes]
  omega

/-- On bytes the source computes the standard's hash. -/
theorem sha256_eq (bytes : List UInt8) : sha256 bytes = "sha256:" ++
    String.ofList ((Sha256.hash (bytesBits bytes)).words.flatMap fun w =>
      Sha256.hexDigits 8 w.toNat) := by
  obtain ⟨hlen, hblocks⟩ := length_padded bytes
  have hloop := foldl_range' (P := fun n (arrays : List Word × List Word) =>
      arrays.1.length = 64 ∧ arrays.2 = ((List.range n).foldl (fun v i =>
        Sha256.compress v (Sha256.blockWord (Sha256.pad (bytesBits bytes)) i)) Sha256.initial).words)
    (a := 0) (n := (padded bytes).length / 64) (f := hashBlock (padded bytes))
    (s := (List.replicate 64 0, initialState)) ⟨List.length_replicate, rfl⟩ (by
      intro i arrays _ hi ⟨hwords, hstate⟩
      obtain ⟨words, state⟩ := arrays
      dsimp only at hwords hstate
      subst hstate
      obtain ⟨hfilled, hcompressed⟩ := hashBlock_compress (padded bytes) hwords
        ((List.range i).foldl (fun v i => Sha256.compress v
          (Sha256.blockWord (Sha256.pad (bytesBits bytes)) i)) Sha256.initial) i
      refine ⟨hfilled, ?_⟩
      rw [hcompressed, List.range_succ, List.foldl_append, List.foldl_cons, List.foldl_nil]
      refine congrArg Sha256.Hash.words (compress_congr (fun t ht => ?_) _)
      rw [viewWord_eq (by omega), bytesBits_padded])
  unfold sha256 Sha256.hash
  dsimp only
  rw [Nat.zero_add] at hloop
  rw [hloop.2, ← hlen, show 8 * (padded bytes).length / 512 = (padded bytes).length / 64 by omega,
    show hexWord = fun w => Sha256.hexDigits 8 w.toNat from funext hexWord_eq]

/-- **SHA-256 of canonical JSON.** For every value the result is that of `canonicalJson`, hashed:
the SHA-256 digest of the UTF-8 bytes of the text, in hexadecimal digits. -/
theorem sha256CanonicalJson_eq {N : Type} (F : NumberFormat N) (value : JsValue N) :
    sha256CanonicalJson F value = (canonicalJson F value).map fun text => "sha256:" ++
      String.ofList ((Sha256.hash (bytesBits (encode text))).words.flatMap fun w =>
        Sha256.hexDigits 8 w.toNat) := by
  unfold sha256CanonicalJson
  cases canonicalJson F value with
  | error e => rfl
  | ok text => exact congrArg Except.ok (sha256_eq (encode text))

end KNex.Contracts.CanonicalJson
