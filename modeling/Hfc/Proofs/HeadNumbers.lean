/-
Module: Hfc.Proofs.HeadNumbers
Layer: Proofs
Purpose: The two numbers of a head, the response code and the body length. Both are taken modulo `2
  ^ 32` as an `int` without a word about it, and the length is that behind the first place where its
  name stands, so what is reported is right only for small plain numbers that are found.
Imports: Hfc.Proofs.BodyFraming, Hfc.Proofs.HeadHeld
Main exports: NumbersExact, HeadRefused, NumbersSmall, NumbersRight, LengthPlaced,
  numbersExact_held, numbersExact_of_right, numbersRight_of_exact, head_numbers_exact
-/
import Hfc.Proofs.BodyFraming
import Hfc.Proofs.HeadHeld

namespace Hfc

open ByteText CrlfScan Numeral

/-- A length is that of every length field of a head, and each of these is a plain number. -/
def LengthRight (head : Head) (n : Int) : Prop :=
  0 ≤ n ∧ ∀ field ∈ head.fields, SameLetters field.name.text contentLengthName.text →
    PlainNumber field.value ∧ n = leadingNumber field.value

/-- When a head is reported as received, its numbers are those that stand in it. -/
def NumbersExact (head : Head) (handled : Handled) : Prop :=
  handled.ret = httpcErrOk →
    handled.httpc.responseCode = head.status.number ∧
      LengthRight head handled.httpc.contentLength

/-! ### When the numbers are right

The condition speaks of the fields of the head and of the size of the buffer. A head is refused when
the buffer holds too little of it or when neither of the two fields decides; otherwise the numbers
have to fit an `int` and to be held. -/

/-- The head is refused: the protocol is not held, or no coding is seen and no length other than one
that is zero as an `int`. -/
def HeadRefused (head : Head) (node : HttpcMemNode) : Prop :=
  node.bufLen ≤ 7 ∨
    (¬ head.Seen node transferEncodingName ∧
      (¬ head.Seen node contentLengthName ∨
        ∃ value, head.FirstAt node.bufLen contentLengthName value ∧
          toInt32 (strtoul 10 value) = 0))

/-- The code is held and small, and so is the number that all length fields have in common; the
first of them is held where the name stands first, or the number is zero and the name is not seen
at all. -/
def NumbersSmall (head : Head) (node : HttpcMemNode) : Prop :=
  head.CodeHeld node.bufLen ∧ head.status.number < 2 ^ 31 ∧
    ∃ n < 2 ^ 31,
      (∀ field ∈ head.fields, SameLetters field.name.text contentLengthName.text →
        PlainNumber field.value ∧ leadingNumber field.value = n) ∧
      ((¬ head.Seen node contentLengthName ∧ n = 0) ∨
        ∃ value, head.FirstAt node.bufLen contentLengthName value)

def NumbersRight (head : Head) (node : HttpcMemNode) : Prop :=
  HeadRefused head node ∨ NumbersSmall head node

/-- The name of the length is not seen, or stands first at the head of its own field, which is
held. -/
def LengthPlaced (head : Head) (node : HttpcMemNode) : Prop :=
  ¬ head.Seen node contentLengthName ∨
    ∃ value, head.FirstAt node.bufLen contentLengthName value

section

variable {net : Transport} {httpc : Httpc} {node : HttpcMemNode} {w : World} {head : Head}

/-- What the numbers of a head are to be, by what the node holds of it. -/
theorem numbersExact_held (arrives : BlockArrives net httpc node w head.block) {n : Int}
    (length : readLength
      (headText (node.holding (storedLines (head.held node.bufLen))) contentLengthName.text) = n) :
    NumbersExact head (httpcHandleResponse net httpc w) ↔
      (node.bufLen ≤ 7 ∨ (n = 0 ∧ ¬ head.Seen node transferEncodingName)) ∨
        (headResponseCode (node.holding (storedLines (head.held node.bufLen))) 0 =
            head.status.number ∧ LengthRight head n) := by
  obtain ⟨w', handled⟩ := handleResponse_block arrives
  have protocol := protocol_held node head
  have coding := headText_isSome node head transferEncodingName
  rw [handled, held_of_head arrives]
  generalize node.holding (storedLines (head.held node.bufLen)) = held at length protocol coding ⊢
  have header : { httpc with headerNode := some held }.headerNode = some held := rfl
  unfold NumbersExact
  dsimp only
  by_cases room : 7 < node.bufLen
  · rw [if_pos room] at protocol
    rw [parseHead_of_protocol header protocol length rfl, ← coding]
    have enough : ¬ node.bufLen ≤ 7 := not_le.mpr room
    by_cases decides : n ≠ 0 ∨ (headText held transferEncodingName.text).isSome
    · rw [if_pos decides]
      have notRefused : ¬ (n = 0 ∧ ¬ (headText held transferEncodingName.text).isSome) :=
        fun refused => decides.elim (· refused.1) refused.2
      simp only [enough, notRefused, false_or, forall_const]
    · rw [if_neg decides]
      obtain ⟨zero, nothing⟩ := not_or.mp decides
      have fails : httpcErrFail ≠ httpcErrOk := by decide
      exact iff_of_true (fun ok => absurd ok fails) (.inl (.inr ⟨not_not.mp zero, nothing⟩))
  · rw [if_neg room] at protocol
    rw [parseHead_ok_iff header]
    refine iff_of_true (fun accepted => ?_) (.inl (.inl (not_lt.mp room)))
    have found := accepted.1
    rw [protocol] at found
    cases found

theorem readLength_unseen (unseen : ¬ head.Seen node contentLengthName) :
    readLength
      (headText (node.holding (storedLines (head.held node.bufLen))) contentLengthName.text) =
        0 := by
  rw [← headText_isSome, Option.not_isSome_iff_eq_none] at unseen
  rw [unseen]
  rfl

theorem readLength_firstAt {value : Bytes}
    (first : head.FirstAt node.bufLen contentLengthName value) :
    readLength
      (headText (node.holding (storedLines (head.held node.bufLen))) contentLengthName.text) =
        toInt32 (strtoul 10 value) := by
  obtain ⟨text, found, number⟩ := headText_firstAt first
  rw [found, readLength, number]

/-- The field that stands first is one of the head. -/
theorem Head.FirstAt.exists_field {room : Nat} {f : FieldName} {value : Bytes}
    (first : head.FirstAt room f value) :
    ∃ field ∈ head.fields, SameLetters field.name.text f.text ∧ field.value = value := by
  obtain ⟨front, field, behind, fields, same, spelled, -⟩ := first
  refine ⟨field, ?_, by rw [spelled]; rfl, same⟩
  rw [fields]
  exact List.mem_append_right front List.mem_cons_self

/-- The condition is enough. -/
theorem numbersExact_of_right (arrives : BlockArrives net httpc node w head.block)
    (right : NumbersRight head node) : NumbersExact head (httpcHandleResponse net httpc w) := by
  rw [numbersExact_held arrives rfl]
  rcases right with (short | ⟨noCoding, noLength⟩) | ⟨codeHeld, small, n, small', lengths, placed⟩
  · exact .inl (.inl short)
  · refine .inl (.inr ⟨?_, noCoding⟩)
    rcases noLength with unseen | ⟨value, first, zero⟩
    · exact readLength_unseen unseen
    · rw [readLength_firstAt first, zero]
  · right
    have number : readLength (headText (node.holding (storedLines (head.held node.bufLen)))
        contentLengthName.text) = n := by
      rcases placed with ⟨unseen, rfl⟩ | ⟨value, first⟩
      · exact readLength_unseen unseen
      · obtain ⟨field, member, same, rfl⟩ := first.exists_field
        obtain ⟨plain, rfl⟩ := lengths field member same
        rw [readLength_firstAt first, plain.strtoul_eq, Nat.min_eq_left (by unfold ulongMax; omega),
          toInt32_of_small small']
    refine ⟨(headResponseCode_held codeHeld).trans (toInt32_min_eq_self.mpr small), ?_⟩
    rw [number]
    exact ⟨Int.natCast_nonneg n, fun field member same =>
      ⟨(lengths field member same).1, congrArg Nat.cast (lengths field member same).2.symm⟩⟩

/-- It is needed where the code is held and the length stands where it is looked for. -/
theorem numbersRight_of_exact (arrives : BlockArrives net httpc node w head.block)
    (codeHeld : head.CodeHeld node.bufLen) (placed : LengthPlaced head node)
    (exact : NumbersExact head (httpcHandleResponse net httpc w)) : NumbersRight head node := by
  rw [numbersExact_held arrives rfl] at exact
  rcases exact with (short | ⟨zero, noCoding⟩) | ⟨code, nonneg, lengths⟩
  · exact .inl (.inl short)
  · refine .inl (.inr ⟨noCoding, placed.imp_right ?_⟩)
    rintro ⟨value, first⟩
    rw [readLength_firstAt first] at zero
    exact ⟨value, first, zero⟩
  · right
    rw [headResponseCode_held codeHeld, toInt32_min_eq_self] at code
    rcases placed with unseen | ⟨value, first⟩
    · rw [readLength_unseen unseen] at lengths
      exact ⟨codeHeld, code, 0, by decide, fun field member same =>
        ⟨(lengths field member same).1, (Int.natCast_eq_zero.mp (lengths field member same).2.symm)⟩,
        .inl ⟨unseen, rfl⟩⟩
    · rw [readLength_firstAt first] at nonneg lengths
      have small := toInt32_lt (strtoul 10 value : Int)
      refine ⟨codeHeld, code, (toInt32 (strtoul 10 value)).toNat, by omega,
        fun field member same => ?_, .inr ⟨value, first⟩⟩
      obtain ⟨plain, number⟩ := lengths field member same
      exact ⟨plain, by omega⟩

/-- When a head is reported as received its numbers are exact, if the head is refused or both
numbers are small and held where they are looked for. Where the code is held and the name of the
length stands first in its own field, or is not seen, this is the only way. -/
theorem head_numbers_exact (arrives : BlockArrives net httpc node w head.block) :
    (NumbersRight head node → NumbersExact head (httpcHandleResponse net httpc w)) ∧
      (head.CodeHeld node.bufLen → LengthPlaced head node →
        NumbersExact head (httpcHandleResponse net httpc w) → NumbersRight head node) :=
  ⟨numbersExact_of_right arrives, numbersRight_of_exact arrives⟩

/-- The numbers of a head with a short body. -/
theorem head_numbers_exact_okHead :
    NumbersExact okHead
      (httpcHandleResponse .prompt smallClient (.opened okHead.block.bytes)) := by
  refine (head_numbers_exact (prompt_blockArrives okHead.block)).1
    (.inr ⟨by decide, by decide, 5, by decide, ?_,
      .inr ⟨_, [], lengthField, [], rfl, rfl, rfl, by decide, by decide⟩⟩)
  intro field member _
  obtain rfl := List.mem_singleton.mp member
  exact ⟨⟨ascii "5", [], rfl, by decide, List.all_eq_true.mp (by decide), by simp⟩, by decide⟩

/-- The head of a response with a body of `2 ^ 32 + 5` bytes. -/
def largeHead : Head where
  status := okStatus
  fields := [.spaced contentLengthName (ascii "4294967301") (by decide) (by decide)]

/-- Its body is reported to have five bytes. -/
theorem head_numbers_wrap :
    (httpcHandleResponse .prompt smallClient (.opened largeHead.block.bytes)).ret = httpcErrOk ∧
      (httpcHandleResponse .prompt smallClient
        (.opened largeHead.block.bytes)).httpc.contentLength = 5 ∧
      ¬ NumbersExact largeHead
        (httpcHandleResponse .prompt smallClient (.opened largeHead.block.bytes)) := by
  have ok : (httpcHandleResponse .prompt smallClient (.opened largeHead.block.bytes)).ret =
      httpcErrOk := by decide +kernel
  have five : (httpcHandleResponse .prompt smallClient
      (.opened largeHead.block.bytes)).httpc.contentLength = 5 := by decide +kernel
  refine ⟨ok, five, fun exact => ?_⟩
  obtain ⟨-, -, right⟩ := exact ok
  have same := (right _ (List.mem_singleton_self _) rfl).2
  rw [five] at same
  exact absurd same (by decide)

end

end Hfc
