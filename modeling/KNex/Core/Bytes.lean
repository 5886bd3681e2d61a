import Mathlib

/-!
# Writing into byte arrays

`Uint8Array` as a list: `set` and `fill` overwrite a range, `subarray` reads one. A read outside a
range that was written sees what was there before (`subarray_setBytes_of_disjoint`), a read that
begins with it sees what was written first (`subarray_setBytes_start`).
-/
namespace KNex.Core

/-- `array.set(bytes, offset)`. -/
def setBytes (array : List UInt8) (offset : Nat) (bytes : List UInt8) : List UInt8 :=
  array.take offset ++ bytes ++ array.drop (offset + bytes.length)

/-- `array.fill(byte, start, stop)`. -/
def fillBytes (array : List UInt8) (byte : UInt8) (start stop : Nat) : List UInt8 :=
  setBytes array start (List.replicate (stop - start) byte)

/-- `array.subarray(start, stop)`. -/
def subarray (array : List UInt8) (start stop : Nat) : List UInt8 :=
  (array.drop start).take (stop - start)

variable {array bytes : List UInt8} {offset start stop : Nat}

theorem setBytes_append {before middle after new : List UInt8} {offset : Nat}
    (hoffset : before.length = offset) (hlen : new.length = middle.length) :
    setBytes (before ++ middle ++ after) offset new = before ++ new ++ after := by
  unfold setBytes
  rw [List.drop_left' (by rw [List.length_append, hoffset, hlen]), List.append_assoc before middle,
    List.take_left' hoffset]

theorem length_setBytes (h : offset + bytes.length ≤ array.length) :
    (setBytes array offset bytes).length = array.length := by
  unfold setBytes
  rw [List.length_append, List.length_append, List.length_take, List.length_drop]
  omega

theorem getElem?_setBytes (h : offset + bytes.length ≤ array.length) (i : Nat) :
    (setBytes array offset bytes)[i]? =
      if i < offset then array[i]?
      else if i < offset + bytes.length then bytes[i - offset]? else array[i]? := by
  have htake : (array.take offset).length = offset := by
    rw [List.length_take]
    omega
  unfold setBytes
  rw [List.append_assoc, List.getElem?_append, htake]
  split
  · rename_i hi
    rw [List.getElem?_take, if_pos hi]
  · rename_i hi
    rw [List.getElem?_append]
    by_cases hlt : i < offset + bytes.length
    · rw [if_pos hlt, if_pos (by omega)]
    · rw [if_neg hlt, if_neg (by omega), List.getElem?_drop,
        show offset + bytes.length + (i - offset - bytes.length) = i by omega]

theorem getElem?_subarray (i : Nat) :
    (subarray array start stop)[i]? = if start + i < stop then array[start + i]? else none := by
  unfold subarray
  rw [List.getElem?_take, List.getElem?_drop]
  by_cases h : start + i < stop
  · rw [if_pos h, if_pos (by omega)]
  · rw [if_neg h, if_neg (by omega)]

theorem subarray_setBytes_of_disjoint (h : offset + bytes.length ≤ array.length)
    (hdisjoint : stop ≤ offset ∨ offset + bytes.length ≤ start) :
    subarray (setBytes array offset bytes) start stop = subarray array start stop := by
  refine List.ext_getElem? fun i => ?_
  rw [getElem?_subarray, getElem?_subarray]
  split
  · rw [getElem?_setBytes h]
    split
    · rfl
    · rw [if_neg (by omega)]
  · rfl

theorem subarray_setBytes_start (h : offset + bytes.length ≤ array.length)
    (hstop : offset + bytes.length ≤ stop) :
    subarray (setBytes array offset bytes) offset stop =
      bytes ++ subarray array (offset + bytes.length) stop := by
  refine List.ext_getElem? fun i => ?_
  rw [getElem?_subarray, List.getElem?_append, getElem?_subarray]
  by_cases hi : i < bytes.length
  · rw [if_pos (by omega), if_pos hi, getElem?_setBytes h, if_neg (by omega), if_pos (by omega),
      show offset + i - offset = i by omega]
  · rw [if_neg hi]
    by_cases hlt : offset + i < stop
    · rw [if_pos hlt, if_pos (by omega), getElem?_setBytes h, if_neg (by omega), if_neg (by omega),
        show offset + bytes.length + (i - bytes.length) = offset + i by omega]
    · rw [if_neg hlt, if_neg (by omega)]

theorem subarray_setBytes_self (h : offset + bytes.length ≤ array.length)
    (hstop : offset + bytes.length = stop) :
    subarray (setBytes array offset bytes) offset stop = bytes := by
  rw [subarray_setBytes_start h (Nat.le_of_eq hstop), hstop, subarray, Nat.sub_self, List.take_zero,
    List.append_nil]

/-- A range written twice. -/
theorem setBytes_setBytes {bytes' : List UInt8} (h : offset + bytes.length ≤ array.length)
    (hlen : bytes'.length = bytes.length) :
    setBytes (setBytes array offset bytes) offset bytes' = setBytes array offset bytes' := by
  refine List.ext_getElem? fun i => ?_
  rw [getElem?_setBytes (by rw [length_setBytes h]; omega), getElem?_setBytes h,
    getElem?_setBytes (by omega), hlen]
  split
  · rfl
  · split <;> rfl

/-- Writing what is there. -/
theorem setBytes_of_subarray (h : offset + bytes.length ≤ array.length)
    (hsame : subarray array offset (offset + bytes.length) = bytes) :
    setBytes array offset bytes = array := by
  refine List.ext_getElem? fun i => ?_
  rw [getElem?_setBytes h]
  split
  · rfl
  · split
    · rename_i hlow hhigh
      have hi : (subarray array offset (offset + bytes.length))[i - offset]? = array[i]? := by
        rw [getElem?_subarray, if_pos (by omega), show offset + (i - offset) = i by omega]
      rw [← hi, hsame]
    · rfl

theorem subarray_replicate (byte : UInt8) {n : Nat} (h : stop ≤ n) :
    subarray (List.replicate n byte) start stop = List.replicate (stop - start) byte := by
  unfold subarray
  rw [List.drop_replicate, List.take_replicate, Nat.min_eq_left (by omega)]

theorem subarray_append_left {rest : List UInt8} (h : stop ≤ array.length) :
    subarray (array ++ rest) start stop = subarray array start stop := by
  refine List.ext_getElem? fun i => ?_
  rw [getElem?_subarray, getElem?_subarray]
  split
  · rw [List.getElem?_append_left (by omega)]
  · rfl

theorem subarray_append_middle (before middle after : List UInt8) :
    subarray (before ++ middle ++ after) before.length (before.length + middle.length) = middle := by
  unfold subarray
  rw [List.append_assoc, List.drop_left, Nat.add_sub_cancel_left, List.take_left]

theorem length_subarray (h : stop ≤ array.length) :
    (subarray array start stop).length = stop - start := by
  unfold subarray
  rw [List.length_take, List.length_drop]
  omega

end KNex.Core
