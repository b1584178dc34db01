/-
Module: Hfc.Proofs.HostRecognition
Layer: Proofs
Purpose: Which hosts `httpc_ipv4_address_check` takes for an IPv4 address. Its loop drops empty
  pieces and reads each other one with `atoi`, so it takes every address and some texts besides.
Imports: Hfc.Proofs.HostClassification, Hfc.Library.Splitting
Main exports: IsOctet, DottedQuad, LooseOctet, LooseQuad, Malformed, octetLoop_eq, ipAddr_text,
  ipv4Check_ok_iff, Recognised, ipv4_recognised_iff
-/
import Hfc.Proofs.HostClassification
import Hfc.Library.Splitting

namespace Hfc

open ByteText Numeral Splitting

/-! ### The texts of addresses

Four numbers with dots between them, strictly and as loosely as `atoi` reads them. -/

/-- A decimal number up to 255; leading zeros are allowed. -/
def IsOctet (piece : Bytes) : Prop :=
  piece ≠ [] ∧ (∀ b ∈ piece, (digitVal 10 b).isSome) ∧ value 10 (digits 10 piece) ≤ 255

/-- Four such numbers with single dots between them. -/
def DottedQuad (text : Bytes) : Prop :=
  (text.splitOn 46).length = 4 ∧ ∀ piece ∈ text.splitOn 46, IsOctet piece

/-- What passes for a number: behind blanks and a sign it is zero only if the piece starts with
`0`, and greater than 255 only behind a minus. -/
def LooseOctet (piece : Bytes) : Prop :=
  ((signedNumber piece).2 = 0 → piece.head? = some 48) ∧
    ((signedNumber piece).1 = false → (signedNumber piece).2 ≤ 255)

/-- What passes for an address: four pieces that pass for numbers, empty ones not counted. -/
def LooseQuad (text : Bytes) : Prop :=
  (dotTokens text).length = 4 ∧ ∀ piece ∈ dotTokens text, LooseOctet piece

/-- Between its dots the text has an empty piece, or something that is no digit. -/
def Malformed (text : Bytes) : Prop :=
  [] ∈ text.splitOn 46 ∨ ∃ b ∈ text, b ≠ 46 ∧ digitVal 10 b = none

instance (piece : Bytes) : Decidable (IsOctet piece) :=
  inferInstanceAs (Decidable (_ ∧ _))

instance (text : Bytes) : Decidable (DottedQuad text) :=
  inferInstanceAs (Decidable (_ ∧ _))

instance (piece : Bytes) : Decidable (LooseOctet piece) :=
  inferInstanceAs (Decidable (_ ∧ _))

instance (text : Bytes) : Decidable (LooseQuad text) :=
  inferInstanceAs (Decidable (_ ∧ _))

instance (text : Bytes) : Decidable (Malformed text) :=
  inferInstanceAs (Decidable (_ ∨ _))

/-- Only the digit `0` has the value zero. -/
theorem eq_zero_of_digitVal {b : Byte} (zero : digitVal 10 b = some 0) : b = 48 := by
  have noValue : charVal b = 0 := by
    unfold digitVal at zero
    split at zero
    · exact Option.some.inj zero
    · simp at zero
  apply UInt8.toNat.inj
  rw [show (48 : Byte).toNat = 48 from rfl]
  unfold charVal at noValue
  split at noValue
  · omega
  · split at noValue
    · omega
    · split at noValue <;> omega

/-- An octet passes for a number. -/
theorem IsOctet.loose {piece : Bytes} (octet : IsOctet piece) : LooseOctet piece := by
  obtain ⟨nonempty, all, small⟩ := octet
  rw [LooseOctet, signedNumber_digits nonempty all]
  refine ⟨?_, fun _ => small⟩
  intro zero
  obtain ⟨b, rest, rfl⟩ := List.exists_cons_of_ne_nil nonempty
  obtain ⟨d, digit⟩ := Option.isSome_iff_exists.mp (all b List.mem_cons_self)
  have isZero := digits_eq_zero_of_value (by decide) zero d
    (mem_digits all List.mem_cons_self digit)
  rw [isZero] at digit
  rw [List.head?_cons, eq_zero_of_digitVal digit]

/-- Among the texts that pass for an address, the addresses are those that are not malformed. -/
theorem dottedQuad_iff {text : Bytes} : DottedQuad text ↔ LooseQuad text ∧ ¬ Malformed text := by
  constructor
  · rintro ⟨four, octets⟩
    have noEmpty : dotTokens text = text.splitOn 46 := by
      apply List.filter_eq_self.mpr
      intro piece member
      simpa using (octets piece member).1
    refine ⟨⟨by rw [noEmpty]; exact four, ?_⟩, ?_⟩
    · intro piece member
      rw [noEmpty] at member
      exact (octets piece member).loose
    · rintro (empty | ⟨b, inText, noDot, noDigit⟩)
      · exact (octets [] empty).1 rfl
      · obtain ⟨piece, isPiece, inPiece⟩ := exists_mem_piece inText noDot
        have digit := (octets piece isPiece).2.1 b inPiece
        simp [noDigit] at digit
  · rintro ⟨⟨four, loose⟩, wellFormed⟩
    obtain ⟨full, plain⟩ := not_or.mp wellFormed
    have noEmpty : dotTokens text = text.splitOn 46 := by
      apply List.filter_eq_self.mpr
      intro piece member
      have nonempty : piece ≠ [] := fun empty => full (empty ▸ member)
      simpa using nonempty
    rw [noEmpty] at four loose
    refine ⟨four, ?_⟩
    intro piece member
    have nonempty : piece ≠ [] := fun empty => full (empty ▸ member)
    have all : ∀ b ∈ piece, (digitVal 10 b).isSome := by
      intro b inPiece
      by_contra noDigit
      obtain ⟨inText, noDot⟩ := mem_of_mem_piece member inPiece
      exact plain ⟨b, inText, noDot, by simpa using noDigit⟩
    have small := (loose piece member).2
    rw [signedNumber_digits nonempty all] at small
    exact ⟨nonempty, all, small rfl⟩

/-! ### The loop over the pieces

The loop counts the pieces, and each must pass: `atoi` finds a number up to 255 in it, and zero only
behind a first digit 0. -/

/-- What the loop asks of one piece. -/
def Passes (piece : Bytes) : Prop :=
  ¬ ((atoi piece = 0 ∧ piece.head? ≠ some 48) ∨ atoi piece > 255)

instance (piece : Bytes) : Decidable (Passes piece) :=
  inferInstanceAs (Decidable (¬ _))

/-- The loop counts the pieces if each passes, and starts over if one does not. -/
theorem octetLoop_eq (pieces : List Bytes) (index : Nat) :
    octetLoop pieces index =
      if ∀ piece ∈ pieces, Passes piece then index + pieces.length else 0 := by
  induction pieces generalizing index with
  | nil => simp [octetLoop]
  | cons piece pieces ih =>
      rw [octetLoop]
      by_cases passes : Passes piece
      · rw [if_neg passes, ih]
        simp [passes, Nat.add_assoc, Nat.add_comm 1]
      · rw [if_pos (not_not.mp passes)]
        simp [passes]

/-- A short piece passes if it is a number by the loose rule. -/
theorem passes_iff {piece : Bytes} (short : piece.length ≤ 9) :
    Passes piece ↔ LooseOctet piece := by
  rw [Passes, LooseOctet, atoi_short short]
  generalize (signedNumber piece).2 = n
  cases (signedNumber piece).1 with
  | false =>
      simp only [Bool.false_eq_true, if_false, not_or, not_and, not_not, not_lt, forall_const,
        gt_iff_lt]
      norm_cast
  | true =>
      have small : ¬ -(n : Int) > 255 := by omega
      simp [small]

/-- Every piece of a text of at most fifteen bytes that has four of them is short. -/
theorem octetLoop_four {text : Bytes} (short : text.length ≤ 15) :
    octetLoop (dotTokens text) 0 = 4 ↔ LooseQuad text := by
  rw [octetLoop_eq, LooseQuad, Nat.zero_add]
  have pieces : (dotTokens text).length = 4 → ∀ piece ∈ dotTokens text, piece.length ≤ 9 := by
    intro four piece member
    have bound := length_piece_le member
    rw [← dotTokens, four] at bound
    omega
  constructor
  · intro counted
    split at counted
    · rename_i passes
      exact ⟨counted, fun piece member =>
        (passes_iff (pieces counted piece member)).mp (passes piece member)⟩
    · simp at counted
  · rintro ⟨four, loose⟩
    rw [if_pos, four]
    exact fun piece member => (passes_iff (pieces four piece member)).mpr (loose piece member)

/-! ### The whole check

The host in front of the port, cut to the array it is copied to. What the check takes for an address
is compared with the texts above. -/

section

variable {host : Bytes}

theorem nul_notMem_hostPart (free : nul ∉ host) : nul ∉ hostPart host :=
  fun member => free ((List.takeWhile_prefix _).subset member)

/-- The part in front of the colon is what `ip_addr` holds, if it fits. -/
theorem ipAddr_text (free : nul ∉ host) (part : (hostPart host).length ≤ 15) :
    cstr (ipv4IpAddr host) = hostPart host := by
  have copied : host.take (hostPart host).length = hostPart host :=
    (List.prefix_iff_eq_take.mp (List.takeWhile_prefix _)).symm
  rw [ipv4IpAddr, strncpy_eq free _ copyLen_le, copyLen_eq, copied]
  exact cstr_patch_blank (nul_notMem_hostPart free) (Nat.lt_succ_of_le part)

/-- The result of the check is the loose rule for the part in front of the colon. -/
theorem ipv4Check_ok_iff (free : nul ∉ host) (part : (hostPart host).length ≤ 15)
    (total : host.length ≤ 21) :
    (httpcIpv4AddressCheck (some host)).ret = httpcErrOk ↔ LooseQuad (hostPart host) := by
  rw [httpcIpv4AddressCheck_eq (by omega), ipAddr_text free part, ← octetLoop_four part]
  dsimp only
  split
  · rename_i four
    simp [four]
  · rename_i other
    simp [other]

/-- What it leaves in `addr` is the text in `ip_addr`. -/
theorem ipv4Check_addr_eq (total : host.length ≤ 21) :
    cstr (httpcIpv4AddressCheck (some host)).addr = cstr (ipv4IpAddr host) := by
  rw [httpcIpv4AddressCheck_eq (by omega)]
  dsimp only
  rw [strncpy, List.take_length, Nat.sub_self, List.replicate_zero, List.append_nil]
  refine cstr_patch_blank (nul_notMem_cstr _) ?_
  have bound := length_cstr_le (ipv4IpAddr host)
  rw [length_ipAddr] at bound
  exact bound.trans_lt (by decide)

/-- That is the part in front of the colon, if it fits. -/
theorem ipv4Check_addr (free : nul ∉ host) (part : (hostPart host).length ≤ 15)
    (total : host.length ≤ 21) :
    cstr (httpcIpv4AddressCheck (some host)).addr = hostPart host :=
  (ipv4Check_addr_eq total).trans (ipAddr_text free part)

/-- The host is recognised exactly: the check succeeds on an address, with the address in `addr`,
and every other host is resolved. -/
structure Recognised (host : Bytes) : Prop where
  accepted : (httpcIpv4AddressCheck (some host)).ret = httpcErrOk ↔ DottedQuad (hostPart host)
  addr : (httpcIpv4AddressCheck (some host)).ret = httpcErrOk →
    cstr (httpcIpv4AddressCheck (some host)).addr = hostPart host
  resolved : ¬ DottedQuad (hostPart host) → ∀ env port s,
    dial env httpcIpv4AddressCheck host port s = dialName env host port s

/-- Hosts of the lengths the arrays are made for are recognised exactly, but for the malformed ones
that pass for an address. -/
theorem ipv4_recognised_iff (free : nul ∉ host) (part : (hostPart host).length ≤ 15)
    (total : host.length ≤ 21) :
    Recognised host ↔ ¬ (LooseQuad (hostPart host) ∧ Malformed (hostPart host)) := by
  have accepts := ipv4Check_ok_iff free part total
  have addr := ipv4Check_addr free part total
  constructor
  · rintro recognised ⟨loose, malformed⟩
    have quad := recognised.accepted.mp (accepts.mpr loose)
    exact (dottedQuad_iff.mp quad).2 malformed
  · intro other
    have same : LooseQuad (hostPart host) ↔ DottedQuad (hostPart host) := by
      rw [dottedQuad_iff]
      exact ⟨fun loose => ⟨loose, fun malformed => other ⟨loose, malformed⟩⟩, And.left⟩
    refine ⟨accepts.trans same, fun _ => addr, ?_⟩
    intro noQuad env port s
    have refused : ¬ (httpcIpv4AddressCheck (some host)).ret = httpcErrOk :=
      fun accepted => noQuad ((accepts.trans same).mp accepted)
    rw [dial, if_neg refused]

end

/-- The address of the local host with a port is recognised. -/
theorem ipv4_recognised_iff_localhost : Recognised (ascii "127.0.0.1:8080") :=
  (ipv4_recognised_iff (by decide) (by decide) (by decide)).mpr (by decide +kernel)

/-- A name with labels that start with digits, a text with an empty label and one with a negative
number all pass for addresses. -/
theorem ipv4_takes_names :
    ¬ Recognised (ascii "1a.2b.3c.4d") ∧ ¬ Recognised (ascii "1..2.3.4") ∧
      ¬ Recognised (ascii "-1.2.3.4") := by
  refine ⟨?_, ?_, ?_⟩
  · intro recognised
    exact absurd (recognised.accepted.mp (by decide +kernel)) (by decide +kernel)
  · intro recognised
    exact absurd (recognised.accepted.mp (by decide +kernel)) (by decide +kernel)
  · intro recognised
    exact absurd (recognised.accepted.mp (by decide +kernel)) (by decide +kernel)

end Hfc
