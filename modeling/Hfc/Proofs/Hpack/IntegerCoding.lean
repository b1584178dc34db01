/-
Module: Hfc.Proofs.Hpack.IntegerCoding
Layer: Proofs
Purpose: The integers of header blocks. Those below 2^32 come back from their bytes, in one call or
  in several; the larger ones that the encoder can write are refused by the decoder.
Imports: Hfc.Core.Hpack.Integer, Mathlib.Data.Nat.Bitwise, Mathlib.Tactic.Ring
Main exports: decodeGroups_append, decodeLength_append, decodeGroups_encodeGroups,
  decodeLength_encodeLength, length_encodeLength, integer_round_trip
-/
import Hfc.Core.Hpack.Integer
import Mathlib.Data.Nat.Bitwise
import Mathlib.Tactic.Ring

namespace Hfc.Hpack

open ByteText

/-! ### Groups

The bytes behind the prefix, seven bits each, lowest first. The decoder is followed with its shift
and its sum as they are in the code. -/

theorem low_seven (n : Nat) : n &&& 0x7f = n % 128 :=
  Nat.and_two_pow_sub_one_eq_mod n 7

/-- More rounds than the number has groups change nothing. -/
theorem encodeGroups_enough {rounds n : Nat} (enough : n ≤ rounds) :
    encodeGroups rounds n = encodeGroups n n := by
  induction rounds using Nat.strongRecOn generalizing n with
  | ind rounds ih =>
      cases rounds with
      | zero => rw [Nat.le_zero.mp enough]
      | succ rounds =>
          cases n with
          | zero => rfl
          | succ n =>
              rw [encodeGroups, encodeGroups]
              split
              · have smaller : (n + 1) >>> 7 ≤ n := by
                  rw [Nat.shiftRight_eq_div_pow]
                  omega
                rw [ih rounds (by omega) (by omega), ih n (by omega) smaller]
              · rfl

theorem encodeGroups_ne_nil (rounds n : Nat) : encodeGroups rounds n ≠ [] := by
  cases rounds with
  | zero => exact List.cons_ne_nil _ _
  | succ rounds =>
      rw [encodeGroups]
      split <;> exact List.cons_ne_nil _ _

theorem encodeGroups_of_lt {n : Nat} (small : n < 128) : encodeGroups n n = [UInt8.ofNat n] := by
  cases n with
  | zero => rfl
  | succ n => rw [encodeGroups, if_neg (by omega)]

theorem encodeGroups_of_ge {n : Nat} (large : 128 ≤ n) :
    encodeGroups n n =
      UInt8.ofNat (1 <<< 7 ||| (n &&& 0x7f)) :: encodeGroups (n >>> 7) (n >>> 7) := by
  cases n with
  | zero => omega
  | succ n =>
      rw [encodeGroups, if_pos large, encodeGroups_enough]
      rw [Nat.shiftRight_eq_div_pow]
      omega

/-- The byte of a group that is not the last. -/
theorem more_group (n : Nat) :
    (UInt8.ofNat (1 <<< 7 ||| (n &&& 0x7f))).toNat &&& 0x7f = n % 128 ∧
      (UInt8.ofNat (1 <<< 7 ||| (n &&& 0x7f))).toNat &&& 1 <<< 7 ≠ 0 := by
  have byte : ∀ m < 128, (UInt8.ofNat (1 <<< 7 ||| m)).toNat &&& 0x7f = m ∧
      (UInt8.ofNat (1 <<< 7 ||| m)).toNat &&& 1 <<< 7 ≠ 0 := by decide +kernel
  rw [low_seven n]
  exact byte (n % 128) (Nat.mod_lt n (by decide))

/-- The byte of the last group. -/
theorem last_group {n : Nat} (small : n < 128) :
    (UInt8.ofNat n).toNat &&& 0x7f = n ∧ (UInt8.ofNat n).toNat &&& 1 <<< 7 = 0 := by
  have byte : ∀ m < 128, (UInt8.ofNat m).toNat &&& 0x7f = m ∧
      (UInt8.ofNat m).toNat &&& 1 <<< 7 = 0 := by decide +kernel
  exact byte n small

/-- A group is added where it belongs, if the sum has 32 bits. -/
theorem decodeGroups_cons (n shift : Nat) (c : Byte) (input : Bytes) :
    decodeGroups n shift (c :: input) =
      if shift < 32 ∧ n + (c.toNat &&& 0x7f) <<< shift < 2 ^ 32 then
        if c.toNat &&& 1 <<< 7 = 0 then
          some { res := n + (c.toNat &&& 0x7f) <<< shift, shift := shift, fin := true, input := input }
        else decodeGroups (n + (c.toNat &&& 0x7f) <<< shift) (shift + 7) input
      else none := by
  have wide : (2 ^ 32 - 1) >>> shift < c.toNat &&& 0x7f ↔
      2 ^ 32 - 1 < (c.toNat &&& 0x7f) <<< shift := by
    rw [Nat.shiftRight_eq_div_pow, Nat.shiftLeft_eq, Nat.div_lt_iff_lt_mul (Nat.two_pow_pos _)]
  rw [decodeGroups]
  simp only [wide]
  generalize (c.toNat &&& 0x7f) <<< shift = add
  by_cases far : shift ≥ 32
  · rw [if_pos far, if_neg (by omega)]
  · by_cases above : 2 ^ 32 - 1 < add
    · rw [if_neg far, if_pos above, if_neg (by omega)]
    · by_cases sum : 2 ^ 32 - 1 - add < n
      · rw [if_neg far, if_neg above, if_pos sum, if_neg (by omega)]
      · rw [if_neg far, if_neg above, if_neg sum, if_pos (show shift < 32 ∧ n + add < 2 ^ 32 by omega)]

/-- The groups of a number, behind what was read before, make their sum if it has 32 bits, and are
refused otherwise. -/
theorem decodeGroups_encodeGroups {acc n : Nat} (shift : Nat) (rest : Bytes) (small : acc < 2 ^ 32)
    (inside : shift < 32 ∨ 0 < n) :
    (acc + n <<< shift < 2 ^ 32 →
        ∃ shift', decodeGroups acc shift (encodeGroups n n ++ rest) =
          some { res := acc + n <<< shift, shift := shift', fin := true, input := rest }) ∧
      (2 ^ 32 ≤ acc + n <<< shift →
        decodeGroups acc shift (encodeGroups n n ++ rest) = none) := by
  -- Induction on the number, which gets shorter by seven bits with each byte.
  induction n using Nat.strongRecOn generalizing acc shift with
  | ind n ih =>
      by_cases last : n < 128
      · obtain ⟨add, top⟩ := last_group last
        rw [encodeGroups_of_lt last, List.cons_append, List.nil_append, decodeGroups_cons, add]
        refine ⟨fun fits => ⟨shift, ?_⟩, fun large => if_neg (by omega)⟩
        -- with a shift of 32 or more the last group alone would be too large
        have near : shift < 32 := by
          by_contra far
          have shifted : 2 ^ 32 ≤ n <<< shift := by
            rw [Nat.shiftLeft_eq]
            exact le_trans (Nat.pow_le_pow_right (by decide) (not_lt.mp far))
              (Nat.le_mul_of_pos_left _ (by omega))
          omega
        rw [if_pos ⟨near, fits⟩, if_pos top]
      · obtain ⟨add, top⟩ := more_group n
        have value : n <<< shift = (n % 128) <<< shift + (n >>> 7) <<< (shift + 7) := by
          have parts := Nat.div_add_mod n 128
          rw [Nat.shiftLeft_eq, Nat.shiftLeft_eq, Nat.shiftLeft_eq, Nat.shiftRight_eq_div_pow, pow_add]
          calc n * 2 ^ shift = (128 * (n / 128) + n % 128) * 2 ^ shift := by rw [parts]
            _ = n % 128 * 2 ^ shift + n / 128 * (2 ^ shift * 128) := by ring
        have later : 0 < n >>> 7 := by
          rw [Nat.shiftRight_eq_div_pow]
          omega
        have shorter : n >>> 7 < n := by
          rw [Nat.shiftRight_eq_div_pow]
          omega
        rw [encodeGroups_of_ge (by omega), List.cons_append, decodeGroups_cons, add, if_neg top, value,
          ← Nat.add_assoc]
        by_cases fits : shift < 32 ∧ acc + (n % 128) <<< shift < 2 ^ 32
        · rw [if_pos fits]
          exact ih (n >>> 7) shorter _ fits.2 (.inr later)
        -- The decoder refuses here. The sum is too large already, or the shift is, and then the
        -- groups that are left make it so.
        · rw [if_neg fits]
          refine ⟨fun small' => ?_, fun _ => rfl⟩
          have low := Nat.zero_le ((n % 128) <<< shift)
          have more := Nat.zero_le ((n >>> 7) <<< (shift + 7))
          have far : 32 ≤ shift := by omega
          have shifted : 2 ^ 32 ≤ (n >>> 7) <<< (shift + 7) := by
            rw [Nat.shiftLeft_eq]
            exact le_trans (Nat.pow_le_pow_right (by decide) (by omega))
              (Nat.le_mul_of_pos_left _ later)
          omega

/-! ### Input in parts

A number that stops in the middle goes on at the shift it stopped at. -/

/-- A number that is not complete is gone on with, and one that is complete or refused stays so. -/
theorem decodeGroups_append (n shift : Nat) (front back : Bytes) :
    decodeGroups n shift (front ++ back) =
      (decodeGroups n shift front).bind fun r =>
        if r.fin then some { r with input := r.input ++ back }
        else decodeGroups r.res r.shift back := by
  induction front generalizing n shift with
  | nil => rfl
  | cons c front ih =>
      rw [List.cons_append, decodeGroups_cons, decodeGroups_cons]
      split
      · split
        · rfl
        · exact ih _ _
      · rfl

theorem fullPrefix_pos {prefixlen : Nat} (positive : 0 < prefixlen) (few : prefixlen ≤ 8) :
    0 < fullPrefix prefixlen ∧ fullPrefix prefixlen < 2 ^ 8 := by
  have checked : ∀ w < 9, 0 < w → 0 < fullPrefix w ∧ fullPrefix w < 2 ^ 8 := by decide
  exact checked prefixlen (by omega) positive

/-- The first byte of a number. -/
theorem decodeLength_cons {prefixlen : Nat} (positive : 0 < prefixlen) (few : prefixlen ≤ 8)
    (shift : Nat) (c : Byte) (input : Bytes) :
    decodeLength 0 shift (c :: input) prefixlen =
      if c.toNat &&& fullPrefix prefixlen ≠ fullPrefix prefixlen then
        some { res := c.toNat &&& fullPrefix prefixlen, shift := 0, fin := true, input := input }
      else if input = [] then
        some { res := fullPrefix prefixlen, shift := 0, fin := false, input := [] }
      else decodeGroups (fullPrefix prefixlen) shift input := by
  unfold decodeLength
  rw [Nat.mod_eq_of_lt (fullPrefix_pos positive few).2]
  rfl

/-- The bytes behind it. -/
theorem decodeLength_of_ne_zero {initial : Nat} (begun : initial ≠ 0) (shift : Nat) (input : Bytes)
    (prefixlen : Nat) :
    decodeLength initial shift input prefixlen = decodeGroups initial shift input :=
  if_neg begun

/-- Groups are added to a number; they do not take it back. -/
theorem decodeGroups_le {n shift : Nat} {input : Bytes} {r : LengthRead}
    (read : decodeGroups n shift input = some r) : n ≤ r.res := by
  induction input generalizing n shift with
  | nil =>
      cases read
      exact Nat.le_refl n
  | cons c input ih =>
      rw [decodeGroups_cons] at read
      split at read
      · split at read
        · cases read
          exact Nat.le_add_right _ _
        · exact le_trans (Nat.le_add_right _ _) (ih read)
      · cases read

/-- What was read of a number that is not complete is not zero, and all input was read. -/
theorem decodeLength_more {initial shift prefixlen : Nat} {input : Bytes} {r : LengthRead}
    (positive : 0 < prefixlen) (few : prefixlen ≤ 8)
    (read : decodeLength initial shift input prefixlen = some r) (more : r.fin = false) :
    r.res ≠ 0 ∧ r.input = [] := by
  have groups {n s : Nat} {text : Bytes} (begun : 0 < n) (read : decodeGroups n s text = some r) :
      r.res ≠ 0 ∧ r.input = [] := by
    refine ⟨(lt_of_lt_of_le begun (decodeGroups_le read)).ne', ?_⟩
    induction text generalizing n s with
    | nil =>
        cases read
        rfl
    | cons c text ih =>
        rw [decodeGroups_cons] at read
        split at read
        · split at read
          · cases read
            cases more
          · exact ih (Nat.lt_of_lt_of_le begun (Nat.le_add_right _ _)) read
        · cases read
  obtain ⟨least, small⟩ := fullPrefix_pos positive few
  by_cases zero : initial = 0
  · subst zero
    cases input with
    | nil => cases read
    | cons c input =>
        rw [decodeLength_cons positive few] at read
        split at read
        · cases read
          cases more
        · split at read
          · cases read
            exact ⟨least.ne', rfl⟩
          · exact groups least read
  · rw [decodeLength_of_ne_zero zero] at read
    exact groups (by omega) read

/-- The same for a whole number: where its beginning ends, it can be gone on with. -/
theorem decodeLength_append {initial shift prefixlen : Nat} (positive : 0 < prefixlen)
    (few : prefixlen ≤ 8) (fresh : initial = 0 → shift = 0) {front : Bytes}
    (begun : initial = 0 → front ≠ []) (back : Bytes) :
    decodeLength initial shift (front ++ back) prefixlen =
      (decodeLength initial shift front prefixlen).bind fun r =>
        if r.fin then some { r with input := r.input ++ back }
        else decodeLength r.res r.shift back prefixlen := by
  obtain ⟨least, small⟩ := fullPrefix_pos positive few
  have groups {n : Nat} (s : Nat) (text : Bytes) (begun : 0 < n) :
      decodeGroups n s (text ++ back) = (decodeGroups n s text).bind fun r =>
        if r.fin then some { r with input := r.input ++ back }
        else decodeLength r.res r.shift back prefixlen := by
    rw [decodeGroups_append]
    refine Option.bind_congr fun r read => ?_
    rw [decodeLength_of_ne_zero (lt_of_lt_of_le begun (decodeGroups_le read)).ne']
  by_cases zero : initial = 0
  · obtain rfl := fresh zero
    subst zero
    cases front with
    | nil => exact absurd rfl (begun rfl)
    | cons c front =>
        rw [List.cons_append, decodeLength_cons positive few, decodeLength_cons positive few]
        by_cases own : c.toNat &&& fullPrefix prefixlen ≠ fullPrefix prefixlen
        · rw [if_pos own, if_pos own]
          rfl
        · rw [if_neg own, if_neg own]
          by_cases ends : front = []
          · subst ends
            rw [if_pos rfl, List.nil_append]
            show _ = decodeLength (fullPrefix prefixlen) 0 back prefixlen
            rw [decodeLength_of_ne_zero least.ne']
            split
            · rename_i nothing
              rw [nothing]
              rfl
            · rfl
          · rw [if_neg ends, if_neg (by simp [ends]), groups _ _ least]
  · rw [decodeLength_of_ne_zero zero, decodeLength_of_ne_zero zero, groups _ _ (by omega)]

/-! ### Whole numbers

The prefix and the groups together, for every prefix length and every number. -/

/-- A first byte keeps the bits in front of its prefix. -/
theorem firstByte_spec {prefixlen : Nat} (few : prefixlen ≤ 8) (buf : Byte) {n : Nat}
    (small : n ≤ fullPrefix prefixlen) :
    ((buf &&& ~~~(UInt8.ofNat (fullPrefix prefixlen))) ||| UInt8.ofNat n).toNat &&&
      fullPrefix prefixlen = n := by
  have kept (b k m : Byte) : ((b &&& ~~~k) ||| m) &&& k = m &&& k := by
    apply UInt8.eq_of_toBitVec_eq
    ext i inside
    simp only [UInt8.toBitVec_and, UInt8.toBitVec_or, UInt8.toBitVec_not, BitVec.getElem_and,
      BitVec.getElem_or, BitVec.getElem_not]
    cases k.toBitVec[i] <;> simp
  have whole : fullPrefix prefixlen < 2 ^ 8 := by
    have most : 2 ^ prefixlen ≤ 2 ^ 8 := Nat.pow_le_pow_right (by decide) few
    have one := Nat.two_pow_pos prefixlen
    rw [fullPrefix, Nat.one_shiftLeft]
    omega
  have number {m : Nat} (inside : m < 2 ^ 8) : (UInt8.ofNat m).toNat = m := by
    rw [UInt8.toNat_ofNat', Nat.mod_eq_of_lt inside]
  have bits : n &&& fullPrefix prefixlen = n := by
    have one := Nat.two_pow_pos prefixlen
    rw [fullPrefix, Nat.one_shiftLeft] at small ⊢
    rw [Nat.and_two_pow_sub_one_eq_mod, Nat.mod_eq_of_lt (by omega)]
  have same := congrArg UInt8.toNat (kept buf (UInt8.ofNat (fullPrefix prefixlen)) (UInt8.ofNat n))
  rwa [UInt8.toNat_and, UInt8.toNat_and, number whole, number (by omega), bits] at same

/-- The bytes of a number are as many as were counted. -/
theorem length_encodeLength (buf : Byte) (n prefixlen : Nat) :
    (encodeLength buf n prefixlen).length = countEncodedLength n prefixlen := by
  have groups (rounds n : Nat) : (encodeGroups rounds n).length = countGroups rounds n := by
    induction rounds generalizing n with
    | zero => rfl
    | succ rounds ih =>
        rw [encodeGroups, countGroups]
        split
        · rw [List.length_cons, ih]
        · rfl
  rw [encodeLength, countEncodedLength]
  split
  · rfl
  · rw [List.length_cons, groups, Nat.add_comm]

/-- A number comes back from its bytes if it has 32 bits, and its bytes are refused otherwise. -/
theorem decodeLength_encodeLength {prefixlen : Nat} (positive : 0 < prefixlen) (few : prefixlen ≤ 8)
    (buf : Byte) (n : Nat) (rest : Bytes) :
    (n < 2 ^ 32 → ∃ shift, decodeLength 0 0 (encodeLength buf n prefixlen ++ rest) prefixlen =
        some { res := n, shift := shift, fin := true, input := rest }) ∧
      (2 ^ 32 ≤ n →
        decodeLength 0 0 (encodeLength buf n prefixlen ++ rest) prefixlen = none) := by
  obtain ⟨least, small⟩ := fullPrefix_pos positive few
  rw [encodeLength]
  by_cases short : n < fullPrefix prefixlen
  · have own := firstByte_spec few buf short.le
    rw [if_pos short, List.cons_append, List.nil_append, decodeLength_cons positive few, own,
      if_pos short.ne]
    exact ⟨fun _ => ⟨0, rfl⟩, fun large => absurd large (by omega)⟩
  · have own := firstByte_spec few buf (Nat.le_refl (fullPrefix prefixlen))
    have groups := decodeGroups_encodeGroups (n := n - fullPrefix prefixlen) 0 rest
      (show fullPrefix prefixlen < 2 ^ 32 by omega) (.inl (by decide))
    have value : fullPrefix prefixlen + (n - fullPrefix prefixlen) <<< 0 = n := by
      rw [Nat.shiftLeft_zero]
      omega
    rw [value] at groups
    have follows : encodeGroups (n - fullPrefix prefixlen) (n - fullPrefix prefixlen) ++ rest ≠ [] :=
      List.append_ne_nil_of_left_ne_nil (encodeGroups_ne_nil _ _) _
    rw [if_neg short, List.cons_append, decodeLength_cons positive few, own, if_neg (by simp),
      if_neg follows]
    exact groups

/-- A call on the first part of the bytes of a number asks for more or refuses; the call on the other
part gives the number back if it has 32 bits, and refuses it otherwise. -/
theorem decodeLength_two_parts {prefixlen : Nat} (positive : 0 < prefixlen) (few : prefixlen ≤ 8)
    {buf : Byte} {n : Nat} {front back : Bytes} (split : encodeLength buf n prefixlen = front ++ back)
    (begun : front ≠ []) (more : back ≠ []) (rest : Bytes) :
    (n < 2 ^ 32 → ∃ r, decodeLength 0 0 front prefixlen = some r ∧ r.fin = false ∧
        ∃ shift, decodeLength r.res r.shift (back ++ rest) prefixlen =
          some { res := n, shift := shift, fin := true, input := rest }) ∧
      (2 ^ 32 ≤ n → ∀ r, decodeLength 0 0 front prefixlen = some r →
        r.fin = false ∧ decodeLength r.res r.shift (back ++ rest) prefixlen = none) := by
  obtain ⟨comes, refused⟩ := decodeLength_encodeLength positive few buf n rest
  rw [split, List.append_assoc,
    decodeLength_append positive few (fun _ => rfl) (fun _ => begun)] at comes refused
  constructor
  · intro fits
    obtain ⟨shift, whole⟩ := comes fits
    obtain ⟨r, read, follows⟩ := Option.bind_eq_some_iff.mp whole
    cases fin : r.fin with
    | true =>
        -- A number that is complete leaves all of the second part, which is more than the rest.
        rw [fin, if_pos rfl, Option.some.injEq] at follows
        have left := congrArg List.length (congrArg LengthRead.input follows)
        have something := List.length_pos_iff.mpr more
        simp only [List.length_append] at left
        omega
    | false =>
        rw [fin] at follows
        exact ⟨r, read, fin, shift, follows⟩
  · intro large r read
    have whole := refused large
    rw [read, Option.bind_some] at whole
    cases fin : r.fin with
    | true =>
        rw [fin] at whole
        cases whole
    | false =>
        rw [fin] at whole
        exact ⟨rfl, whole⟩

/-- The bytes of a number are as many as were counted. A number of 32 bits comes back from them, in
one call or in two that meet anywhere inside of them, and leaves what stands behind it; the bytes of
a larger number are refused, in one call or in two. -/
theorem integer_round_trip (buf : Byte) (n prefixlen : Nat) (positive : 0 < prefixlen)
    (few : prefixlen ≤ 8) :
    (encodeLength buf n prefixlen).length = countEncodedLength n prefixlen ∧
      (∀ rest,
        (n < 2 ^ 32 → ∃ shift, decodeLength 0 0 (encodeLength buf n prefixlen ++ rest) prefixlen =
            some { res := n, shift := shift, fin := true, input := rest }) ∧
          (2 ^ 32 ≤ n →
            decodeLength 0 0 (encodeLength buf n prefixlen ++ rest) prefixlen = none)) ∧
      ∀ front back rest, encodeLength buf n prefixlen = front ++ back → front ≠ [] → back ≠ [] →
        (n < 2 ^ 32 → ∃ r, decodeLength 0 0 front prefixlen = some r ∧ r.fin = false ∧
            ∃ shift, decodeLength r.res r.shift (back ++ rest) prefixlen =
              some { res := n, shift := shift, fin := true, input := rest }) ∧
          (2 ^ 32 ≤ n → ∀ r, decodeLength 0 0 front prefixlen = some r →
            r.fin = false ∧ decodeLength r.res r.shift (back ++ rest) prefixlen = none) :=
  ⟨length_encodeLength buf n prefixlen, decodeLength_encodeLength positive few buf n,
    fun _ _ rest split begun more => decodeLength_two_parts positive few split begun more rest⟩

/-- The largest number there is comes back from its bytes, in two parts as well, and the next one is
refused. -/
theorem integer_round_trip_max :
    (∃ r, decodeLength 0 0 [0x3f, 0xe0] 5 = some r ∧ r.fin = false ∧
        ∃ shift, decodeLength r.res r.shift [0xff, 0xff, 0xff, 0x0f, 0x55] 5 =
          some { res := 2 ^ 32 - 1, shift := shift, fin := true, input := [0x55] }) ∧
      decodeLength 0 0 [0x3f, 0xe1, 0xff, 0xff, 0xff, 0x0f] 5 = none := by
  have bytes : encodeLength 0x20 (2 ^ 32 - 1) 5 = [0x3f, 0xe0] ++ [0xff, 0xff, 0xff, 0x0f] := by
    decide +kernel
  have bytes' : encodeLength 0x20 (2 ^ 32) 5 ++ [] = [0x3f, 0xe1, 0xff, 0xff, 0xff, 0x0f] := by
    decide +kernel
  obtain ⟨-, -, parts⟩ := integer_round_trip 0x20 (2 ^ 32 - 1) 5 (by decide) (by decide)
  obtain ⟨-, whole, -⟩ := integer_round_trip 0x20 (2 ^ 32) 5 (by decide) (by decide)
  refine ⟨(parts _ _ [0x55] bytes (by decide) (by decide)).1 (by decide), ?_⟩
  rw [← bytes']
  exact (whole []).2 le_rfl

end Hfc.Hpack
