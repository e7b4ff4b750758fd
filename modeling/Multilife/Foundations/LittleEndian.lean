import Mathlib.Data.Nat.Digits.Defs
import Mathlib.Tactic.Ring

/-!
# Little-endian fields of a byte string

`memcpy` of a fixed-width integer into a buffer, on a little-endian host, writes
its bytes least significant first.  `FixedWidth` lists the types this is used
with, each with the proof that its bytes determine it; `writeLE` and `readLE` are
the two directions.

* `readLE_writeLE`: a field reads back what was written, wherever it stands in
  the buffer.
* `getElem?_patchLE`: a field written into a buffer leaves the bytes outside it alone.
-/

namespace LittleEndian

/-! ## Bytes of a natural number -/

/-- The `w` bytes of `n`, least significant first. -/
def bytesOf : ℕ → ℕ → List UInt8
  | 0, _ => []
  | w + 1, n => UInt8.ofNat n :: bytesOf w (n / 256)

/-- The number with the given bytes, least significant first. -/
def valueOf (bytes : List UInt8) : ℕ := Nat.ofDigits 256 (bytes.map UInt8.toNat)

@[simp] theorem length_bytesOf (w n : ℕ) : (bytesOf w n).length = w := by
  induction w generalizing n with
  | zero => rfl
  | succ w ih => rw [bytesOf, List.length_cons, ih]

@[simp] theorem valueOf_nil : valueOf [] = 0 := rfl

theorem valueOf_cons (b : UInt8) (bytes : List UInt8) :
    valueOf (b :: bytes) = b.toNat + 256 * valueOf bytes := by
  rw [valueOf, List.map_cons, Nat.ofDigits_cons]
  rfl

theorem valueOf_bytesOf {w n : ℕ} (h : n < 256 ^ w) : valueOf (bytesOf w n) = n := by
  induction w generalizing n with
  | zero =>
    rw [pow_zero] at h
    rw [bytesOf, valueOf_nil]
    omega
  | succ w ih =>
    have hdiv : n / 256 < 256 ^ w := by
      rw [Nat.div_lt_iff_lt_mul (by decide), ← pow_succ]
      exact h
    have hbyte : (UInt8.ofNat n).toNat = n % 256 := UInt8.toNat_ofNat'
    rw [bytesOf, valueOf_cons, ih hdiv, hbyte]
    omega

/-! ## Fixed-width integers -/

/-- An integer type of `size` bytes, given by its bit pattern as a number. -/
class FixedWidth (T : Type) where
  /-- `sizeof(T)`. -/
  size : ℕ
  /-- The bit pattern. -/
  toBits : T → ℕ
  /-- The value with a bit pattern. -/
  ofBits : ℕ → T
  /-- The bit pattern fits in the bytes. -/
  toBits_lt : ∀ v, toBits v < 256 ^ size
  /-- The bit pattern determines the value. -/
  ofBits_toBits : ∀ v, ofBits (toBits v) = v
  /-- Every bit pattern of that size is the pattern of a value. -/
  toBits_ofBits : ∀ n, n < 256 ^ size → toBits (ofBits n) = n

open FixedWidth

instance : FixedWidth UInt16 where
  size := 2
  toBits := UInt16.toNat
  ofBits := UInt16.ofNat
  toBits_lt v := v.toNat_lt
  ofBits_toBits _ := UInt16.ofNat_toNat
  toBits_ofBits _ h := UInt16.toNat_ofNat_of_lt' h

instance : FixedWidth UInt32 where
  size := 4
  toBits := UInt32.toNat
  ofBits := UInt32.ofNat
  toBits_lt v := v.toNat_lt
  ofBits_toBits _ := UInt32.ofNat_toNat
  toBits_ofBits _ h := UInt32.toNat_ofNat_of_lt' h

instance : FixedWidth UInt64 where
  size := 8
  toBits := UInt64.toNat
  ofBits := UInt64.ofNat
  toBits_lt v := v.toNat_lt
  ofBits_toBits _ := UInt64.ofNat_toNat
  toBits_ofBits _ h := UInt64.toNat_ofNat_of_lt' h

instance : FixedWidth Int32 where
  size := 4
  toBits v := v.toUInt32.toNat
  ofBits n := (UInt32.ofNat n).toInt32
  toBits_lt v := v.toUInt32.toNat_lt
  ofBits_toBits v := by rw [UInt32.ofNat_toNat, Int32.toInt32_toUInt32]
  toBits_ofBits _ h := by
    rw [UInt32.toUInt32_toInt32]
    exact UInt32.toNat_ofNat_of_lt' h

instance : FixedWidth Int64 where
  size := 8
  toBits v := v.toUInt64.toNat
  ofBits n := (UInt64.ofNat n).toInt64
  toBits_lt v := v.toUInt64.toNat_lt
  ofBits_toBits v := by rw [UInt64.ofNat_toNat, Int64.toInt64_toUInt64]
  toBits_ofBits _ h := by
    rw [UInt64.toUInt64_toInt64]
    exact UInt64.toNat_ofNat_of_lt' h

variable {T : Type} [FixedWidth T]

/-- The bytes `memcpy` writes for `v`. -/
def writeLE (v : T) : List UInt8 := bytesOf (size T) (toBits v)

/-- The value `memcpy` reads at an offset of a buffer. -/
def readLE (T : Type) [FixedWidth T] (bytes : List UInt8) (offset : ℕ) : T :=
  ofBits (valueOf ((bytes.drop offset).take (size T)))

/-- The buffer after `memcpy` of `v` to an offset. -/
def patchLE (v : T) (bytes : List UInt8) (offset : ℕ) : List UInt8 :=
  bytes.take offset ++ (writeLE v ++ bytes.drop (offset + size T))

@[simp] theorem length_writeLE (v : T) : (writeLE v).length = size T := length_bytesOf _ _

/-- **A field reads back what was written.** -/
theorem readLE_writeLE (before after : List UInt8) (v : T) :
    readLE T (before ++ (writeLE v ++ after)) before.length = v := by
  have htake : (writeLE v ++ after).take (size T) = writeLE v := by
    rw [← length_writeLE v, List.take_left]
  rw [readLE, List.drop_left, htake, writeLE, valueOf_bytesOf (toBits_lt v), ofBits_toBits]

/-- The same, for a buffer that is known to have the field at the offset. -/
theorem readLE_of_eq {bytes : List UInt8} (before after : List UInt8) {v : T} {offset : ℕ}
    (h : bytes = before ++ (writeLE v ++ after)) (hoffset : before.length = offset) :
    readLE T bytes offset = v := by
  rw [h, ← hoffset, readLE_writeLE]

/-- A field is read from its own bytes, whatever comes after them. -/
theorem readLE_append {bytes : List UInt8} {offset : ℕ} (h : offset + size T ≤ bytes.length)
    (more : List UInt8) : readLE T (bytes ++ more) offset = readLE T bytes offset := by
  have hdrop : (bytes ++ more).drop offset = bytes.drop offset ++ more :=
    List.drop_append_of_le_length (by omega)
  have htake : (bytes.drop offset ++ more).take (size T) = (bytes.drop offset).take (size T) :=
    List.take_append_of_le_length (by rw [List.length_drop]; omega)
  rw [readLE, hdrop, htake, readLE]

/-- **Overwriting a field.** -/
theorem patchLE_of_eq {bytes : List UInt8} (before after : List UInt8) {v : T} {offset : ℕ} (v' : T)
    (h : bytes = before ++ (writeLE v ++ after)) (hoffset : before.length = offset) :
    patchLE v' bytes offset = before ++ (writeLE v' ++ after) := by
  have hafter : bytes.drop (offset + size T) = after := by
    rw [h, ← hoffset, ← List.drop_drop, List.drop_left, ← length_writeLE v, List.drop_left]
  rw [patchLE, hafter, h, ← hoffset, List.take_left]

/-! ## Fields of a part of a buffer -/

theorem readLE_append_left (before bytes : List UInt8) (offset : ℕ) :
    readLE T (before ++ bytes) (before.length + offset) = readLE T bytes offset := by
  rw [readLE, readLE, ← List.drop_drop, List.drop_left]

theorem patchLE_append_left (before bytes : List UInt8) (v : T) (offset : ℕ) :
    patchLE v (before ++ bytes) (before.length + offset) = before ++ patchLE v bytes offset := by
  rw [patchLE, patchLE, List.take_length_add_append, Nat.add_assoc, List.drop_length_add_append,
    List.append_assoc]

theorem patchLE_append {bytes : List UInt8} {offset : ℕ} (h : offset + size T ≤ bytes.length)
    (v : T) (more : List UInt8) : patchLE v (bytes ++ more) offset = patchLE v bytes offset ++ more := by
  rw [patchLE, patchLE, List.take_append_of_le_length (by omega), List.drop_append_of_le_length h,
    List.append_assoc, List.append_assoc]

/-- A field that is written inside the buffer does not make it longer. -/
theorem length_patchLE {bytes : List UInt8} {offset : ℕ} (h : offset + size T ≤ bytes.length)
    (v : T) : (patchLE v bytes offset).length = bytes.length := by
  rw [patchLE, List.length_append, List.length_append, length_writeLE, List.length_take,
    List.length_drop]
  omega

/-- Bytes before and after the field keep their value. -/
theorem getElem?_patchLE {bytes : List UInt8} {offset i : ℕ} (h : offset + size T ≤ bytes.length)
    (hi : i < offset ∨ offset + size T ≤ i) (v : T) : (patchLE v bytes offset)[i]? = bytes[i]? := by
  have htake : (bytes.take offset).length = offset := List.length_take_of_le (by omega)
  rw [patchLE]
  rcases hi with hi | hi
  · rw [List.getElem?_append_left (by omega), List.getElem?_take_of_lt hi]
  · rw [List.getElem?_append_right (by omega), htake,
      List.getElem?_append_right (by rw [length_writeLE]; omega), length_writeLE, List.getElem?_drop]
    congr 1
    omega

/-- The same for several fields. -/
theorem length_foldl_patchLE (v : T) {offsets : List ℕ} {bytes : List UInt8}
    (h : ∀ o ∈ offsets, o + size T ≤ bytes.length) :
    (offsets.foldl (patchLE v) bytes).length = bytes.length := by
  induction offsets generalizing bytes with
  | nil => rfl
  | cons o offsets ih =>
    have hlength := length_patchLE (h o List.mem_cons_self) v
    rw [List.foldl_cons, ih, hlength]
    intro o' ho'
    rw [hlength]
    exact h o' (List.mem_cons_of_mem o ho')

theorem getElem?_foldl_patchLE (v : T) {offsets : List ℕ} {bytes : List UInt8} {i : ℕ}
    (h : ∀ o ∈ offsets, o + size T ≤ bytes.length)
    (hi : ∀ o ∈ offsets, i < o ∨ o + size T ≤ i) :
    (offsets.foldl (patchLE v) bytes)[i]? = bytes[i]? := by
  induction offsets generalizing bytes with
  | nil => rfl
  | cons o offsets ih =>
    have hlength := length_patchLE (h o List.mem_cons_self) v
    rw [List.foldl_cons, ih, getElem?_patchLE (h o List.mem_cons_self) (hi o List.mem_cons_self)]
    · intro o' ho'
      rw [hlength]
      exact h o' (List.mem_cons_of_mem o ho')
    · exact fun o' ho' => hi o' (List.mem_cons_of_mem o ho')

end LittleEndian
