/-
Module: Hfc.Core.Hpack.Integer
Layer: Core
Purpose: The integers of header blocks: the low bits of a first byte, and groups of seven bits
  behind it when they do not suffice.
Imports: Hfc.Library.ByteText
Main exports: countEncodedLength, encodeLength, LengthRead, decodeLength
-/
import Hfc.Library.ByteText

namespace Hfc.Hpack

open ByteText

/-- The largest number of a prefix, with all its bits set. -/
def fullPrefix (prefixlen : Nat) : Nat :=
  1 <<< prefixlen - 1

/-- The loop of `count_encoded_length`. -/
def countGroups : (rounds : Nat) → Nat → Nat
  | 0, _ => 1
  | rounds + 1, n => if n ≥ 128 then countGroups rounds (n >>> 7) + 1 else 1

/-- `count_encoded_length`. Each round makes the number smaller, so `n` rounds are enough. -/
def countEncodedLength (n prefixlen : Nat) : Nat :=
  let k := fullPrefix prefixlen
  if n < k then 1 else 1 + countGroups (n - k) (n - k)

/-- The loop of `encode_length`, with the byte behind it. -/
def encodeGroups : (rounds : Nat) → Nat → Bytes
  | 0, n => [UInt8.ofNat n]
  | rounds + 1, n =>
      if n ≥ 128 then UInt8.ofNat (1 <<< 7 ||| (n &&& 0x7f)) :: encodeGroups rounds (n >>> 7)
      else [UInt8.ofNat n]

/-- `encode_length`; `buf` is the byte that stands in the buffer before. -/
def encodeLength (buf : Byte) (n prefixlen : Nat) : Bytes :=
  let k := fullPrefix prefixlen
  let buf := buf &&& ~~~(UInt8.ofNat k)
  if n < k then [buf ||| UInt8.ofNat n]
  else (buf ||| UInt8.ofNat k) :: encodeGroups (n - k) (n - k)

/-- What `decode_length` returns: `*res`, `*shift_ptr`, `*fin`, and the input behind what it has
processed. -/
structure LengthRead where
  res : Nat
  shift : Nat
  fin : Bool
  input : Bytes
deriving DecidableEq, Repr

/-- The loop of `decode_length`, with what stands behind it; none is the return value -1. -/
def decodeGroups (n shift : Nat) : Bytes → Option LengthRead
  | [] => some { res := n, shift := shift, fin := false, input := [] }
  | c :: input =>
      let add := c.toNat &&& 0x7f
      if shift ≥ 32 then none
      else if (2 ^ 32 - 1) >>> shift < add then none
      else if 2 ^ 32 - 1 - add <<< shift < n then none
      else if c.toNat &&& 1 <<< 7 = 0 then
        some { res := n + add <<< shift, shift := shift, fin := true, input := input }
      else decodeGroups (n + add <<< shift) (shift + 7) input

/-- `decode_length`; none is the return value -1. It looks at the first byte of its input when
`initial` is zero, so its callers have one then. -/
def decodeLength (initial shift : Nat) (input : Bytes) (prefixlen : Nat) : Option LengthRead :=
  let k := fullPrefix prefixlen % 2 ^ 8
  if initial = 0 then
    match input with
    | [] => none
    | c :: input =>
        if c.toNat &&& k ≠ k then
          some { res := c.toNat &&& k, shift := 0, fin := true, input := input }
        else if input = [] then some { res := k, shift := 0, fin := false, input := [] }
        else decodeGroups k shift input
  else decodeGroups initial shift input

end Hfc.Hpack
