/-
Module: Hfc.Library.BitString
Layer: Library
Purpose: Texts of bits, the most significant first: the bits of a number, the number of some bits,
  and the bits of a text of bytes. A text of bits becomes bytes when it is filled up with ones.
Imports: Hfc.Library.ByteText, Mathlib.Data.Nat.Bitwise, Mathlib.Tactic.Ring
Main exports: toBits, ofBits, ofBits_append, ofBits_toBits, toBits_ofBits, bytesBits,
  bytesBits_injective, packOnes, bytesBits_packOnes, eq_packOnes, packOnes_append
-/
import Hfc.Library.ByteText
import Mathlib.Data.Nat.Bitwise
import Mathlib.Tactic.Ring

namespace BitString

open ByteText

/-! ### Numbers

A number and its bits, highest first. Concatenation of bits is multiplication by a power of two and
a sum. -/

/-- The low `w` bits of a number. -/
def toBits : Nat → Nat → List Bool
  | 0, _ => []
  | w + 1, n => n.testBit w :: toBits w n

/-- The number of some bits behind the bits of `acc`. -/
def ofBitsFrom (acc : Nat) : List Bool → Nat
  | [] => acc
  | b :: bits => ofBitsFrom (2 * acc + b.toNat) bits

/-- The number of some bits. -/
def ofBits (bits : List Bool) : Nat :=
  ofBitsFrom 0 bits

@[simp] theorem length_toBits (w n : Nat) : (toBits w n).length = w := by
  induction w with
  | zero => rfl
  | succ w ih => simp [toBits, ih]

@[simp] theorem ofBits_nil : ofBits [] = 0 := rfl

theorem ofBitsFrom_eq (acc : Nat) (bits : List Bool) :
    ofBitsFrom acc bits = acc * 2 ^ bits.length + ofBits bits := by
  induction bits generalizing acc with
  | nil => simp [ofBitsFrom]
  | cons b bits ih =>
      have whole : ofBits (b :: bits) = ofBitsFrom (2 * 0 + b.toNat) bits := rfl
      rw [ofBitsFrom, whole, ih, ih (2 * 0 + b.toNat), List.length_cons, pow_succ]
      ring

theorem ofBits_append (front back : List Bool) :
    ofBits (front ++ back) = ofBits front * 2 ^ back.length + ofBits back := by
  have from_append (acc : Nat) : ofBitsFrom acc (front ++ back) =
      ofBitsFrom (ofBitsFrom acc front) back := by
    induction front generalizing acc with
    | nil => rfl
    | cons b front ih => exact ih _
  rw [ofBits, from_append, ofBitsFrom_eq]
  rfl

theorem ofBits_cons (b : Bool) (bits : List Bool) :
    ofBits (b :: bits) = b.toNat * 2 ^ bits.length + ofBits bits := by
  rw [← List.singleton_append, ofBits_append]
  simp [ofBits, ofBitsFrom]

theorem ofBits_lt (bits : List Bool) : ofBits bits < 2 ^ bits.length := by
  induction bits with
  | nil => simp
  | cons b bits ih =>
      rw [ofBits_cons, List.length_cons, pow_succ]
      cases b <;> simp <;> omega

theorem ofBits_replicate_true (n : Nat) : ofBits (List.replicate n true) + 1 = 2 ^ n := by
  induction n with
  | zero => rfl
  | succ n ih =>
      rw [List.replicate_succ, ofBits_cons, List.length_replicate, pow_succ]
      simp only [Bool.toNat_true]
      omega

theorem ofBits_toBits (w n : Nat) : ofBits (toBits w n) = n % 2 ^ w := by
  induction w with
  | zero => simp [toBits, Nat.mod_one]
  | succ w ih =>
      rw [toBits, ofBits_cons, length_toBits, ih, Nat.mod_pow_succ, Nat.toNat_testBit]
      ring

/-- Bits are the same when they are as many and have the same number. -/
theorem ofBits_injective {bits bits' : List Bool} (length : bits.length = bits'.length)
    (same : ofBits bits = ofBits bits') : bits = bits' := by
  induction bits generalizing bits' with
  | nil => exact (List.eq_nil_of_length_eq_zero length.symm).symm
  | cons b bits ih =>
      cases bits' with
      | nil => simp at length
      | cons b' bits' =>
          have length' : bits.length = bits'.length := by simpa using length
          rw [ofBits_cons, ofBits_cons, length'] at same
          have small := ofBits_lt bits
          have small' := ofBits_lt bits'
          rw [length'] at small
          cases b <;> cases b' <;> simp at same
          · rw [ih length' same]
          · omega
          · omega
          · rw [ih length' same]

theorem toBits_ofBits (bits : List Bool) : toBits bits.length (ofBits bits) = bits := by
  apply ofBits_injective (length_toBits _ _)
  rw [ofBits_toBits, Nat.mod_eq_of_lt (ofBits_lt bits)]

/-- The bits of a number, cut in two. -/
theorem toBits_add (v w n : Nat) : toBits (v + w) n = toBits v (n / 2 ^ w) ++ toBits w n := by
  apply ofBits_injective (by simp)
  rw [ofBits_toBits, ofBits_append, ofBits_toBits, ofBits_toBits, length_toBits, Nat.pow_add',
    Nat.mod_mul]
  ring

/-! ### Bytes

A byte is eight bits, and a list of bytes is determined by its bits. -/

/-- The bits of a byte. -/
def byteBits (b : Byte) : List Bool :=
  toBits 8 b.toNat

/-- The byte of eight bits. -/
def ofByteBits (bits : List Bool) : Byte :=
  UInt8.ofNat (ofBits bits)

/-- The bits of a text of bytes. -/
def bytesBits (text : Bytes) : List Bool :=
  text.flatMap byteBits

@[simp] theorem length_byteBits (b : Byte) : (byteBits b).length = 8 :=
  length_toBits 8 b.toNat

@[simp] theorem bytesBits_nil : bytesBits [] = [] := rfl

@[simp] theorem bytesBits_cons (b : Byte) (text : Bytes) :
    bytesBits (b :: text) = byteBits b ++ bytesBits text := rfl

@[simp] theorem bytesBits_append (front back : Bytes) :
    bytesBits (front ++ back) = bytesBits front ++ bytesBits back :=
  List.flatMap_append

@[simp] theorem length_bytesBits (text : Bytes) : (bytesBits text).length = 8 * text.length := by
  induction text with
  | nil => rfl
  | cons b text ih =>
      rw [bytesBits_cons, List.length_append, length_byteBits, ih, List.length_cons]
      omega

theorem byteBits_ofByteBits {bits : List Bool} (eight : bits.length = 8) :
    byteBits (ofByteBits bits) = bits := by
  have small := ofBits_lt bits
  rw [eight] at small
  rw [byteBits, ofByteBits, UInt8.toNat_ofNat', Nat.mod_eq_of_lt small, ← eight, toBits_ofBits]

theorem byteBits_injective {b b' : Byte} (same : byteBits b = byteBits b') : b = b' := by
  have number := congrArg ofBits same
  have small := b.toNat_lt
  have small' := b'.toNat_lt
  rw [byteBits, byteBits, ofBits_toBits, ofBits_toBits, Nat.mod_eq_of_lt small,
    Nat.mod_eq_of_lt small'] at number
  exact UInt8.toNat_inj.mp number

theorem bytesBits_injective {text text' : Bytes} (same : bytesBits text = bytesBits text') :
    text = text' := by
  induction text generalizing text' with
  | nil =>
      have length := congrArg List.length same
      rw [length_bytesBits, length_bytesBits] at length
      exact (List.eq_nil_of_length_eq_zero (by simpa using length.symm)).symm
  | cons b text ih =>
      cases text' with
      | nil => simpa using congrArg List.length same
      | cons b' text' =>
          obtain ⟨first, rest⟩ := List.append_inj same (by simp)
          rw [byteBits_injective first, ih rest]

/-! ### Filling up with ones

A string of bits becomes bytes by padding the last one with ones, as a bit writer does that flushes.
-/

/-- The next `n` bytes of a text of bits, with ones behind it. -/
def packBytes : (n : Nat) → List Bool → Bytes
  | 0, _ => []
  | n + 1, bits =>
      ofByteBits (bits.take 8 ++ List.replicate (8 - bits.length) true) ::
        packBytes n (bits.drop 8)

/-- The bytes of a text of bits, with ones behind it up to the end of the last byte. -/
def packOnes (bits : List Bool) : Bytes :=
  packBytes ((bits.length + 7) / 8) bits

theorem length_packBytes (n : Nat) (bits : List Bool) : (packBytes n bits).length = n := by
  induction n generalizing bits with
  | zero => rfl
  | succ n ih => rw [packBytes, List.length_cons, ih]

theorem bytesBits_packBytes {n : Nat} {bits : List Bool} (enough : bits.length ≤ 8 * n) :
    bytesBits (packBytes n bits) = bits ++ List.replicate (8 * n - bits.length) true := by
  induction n generalizing bits with
  | zero =>
      obtain rfl := List.eq_nil_of_length_eq_zero (Nat.le_zero.mp enough)
      rfl
  | succ n ih =>
      have eight : (bits.take 8 ++ List.replicate (8 - bits.length) true).length = 8 := by
        simp only [List.length_append, List.length_take, List.length_replicate]
        omega
      have later : (bits.drop 8).length ≤ 8 * n := by
        rw [List.length_drop]
        omega
      rw [packBytes, bytesBits_cons, byteBits_ofByteBits eight, ih later, List.length_drop]
      by_cases short : bits.length ≤ 8
      · rw [List.take_of_length_le short, List.drop_eq_nil_of_le short, List.nil_append,
          List.append_assoc, ← List.replicate_add]
        congr 2
        omega
      · rw [show 8 - bits.length = 0 by omega, List.replicate_zero, List.append_nil,
          ← List.append_assoc, List.take_append_drop]
        congr 2
        omega

theorem length_packOnes (bits : List Bool) : (packOnes bits).length = (bits.length + 7) / 8 :=
  length_packBytes _ _

/-- The bits of the bytes are the text, and fewer than eight ones. -/
theorem bytesBits_packOnes (bits : List Bool) :
    bytesBits (packOnes bits) =
      bits ++ List.replicate (8 * ((bits.length + 7) / 8) - bits.length) true :=
  bytesBits_packBytes (by omega)

/-- They are the only bytes of which this is true. -/
theorem eq_packOnes {text : Bytes} {bits : List Bool} {n : Nat} (few : n < 8)
    (same : bytesBits text = bits ++ List.replicate n true) : text = packOnes bits := by
  apply bytesBits_injective
  have length := congrArg List.length same
  rw [length_bytesBits, List.length_append, List.length_replicate] at length
  rw [same, bytesBits_packOnes, show n = 8 * ((bits.length + 7) / 8) - bits.length by omega]

theorem packBytes_append {front : List Bool} (eight : front.length = 8) (n : Nat)
    (back : List Bool) : packBytes (n + 1) (front ++ back) = ofByteBits front :: packBytes n back := by
  rw [packBytes, List.take_left' eight, List.drop_left' eight, List.length_append, eight,
    Nat.sub_eq_zero_of_le (Nat.le_add_right _ _), List.replicate_zero, List.append_nil]

/-- Eight bits in front make a byte of their own. -/
theorem packOnes_append {front : List Bool} (eight : front.length = 8) (back : List Bool) :
    packOnes (front ++ back) = ofByteBits front :: packOnes back := by
  rw [packOnes, List.length_append, eight, show (8 + back.length + 7) / 8 =
    (back.length + 7) / 8 + 1 by omega, packBytes_append eight]
  rfl

/-- So do the bits of some bytes. -/
theorem packOnes_bytes (text : Bytes) (rest : List Bool) :
    packOnes (bytesBits text ++ rest) = text ++ packOnes rest := by
  induction text with
  | nil => rfl
  | cons b text ih =>
      have same : ofByteBits (byteBits b) = b :=
        byteBits_injective (byteBits_ofByteBits (length_byteBits b))
      rw [bytesBits_cons, List.append_assoc, packOnes_append (length_byteBits b), ih, same]
      rfl

theorem byteBits_ofNat (n : Nat) : byteBits (UInt8.ofNat n) = toBits 8 n := by
  apply ofBits_injective (by simp)
  rw [byteBits, ofBits_toBits, ofBits_toBits, UInt8.toNat_ofNat', Nat.mod_mod]

end BitString
