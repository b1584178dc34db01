/-
Module: Hfc.Proofs.Hpack.InflateReading
Layer: Proofs
Purpose: What the inflater reads of a piece of input it can go on with in the next piece: a length,
  the bytes of a string, the bytes of a Huffman text. And no string is longer than the room that was
  allocated for it.
Imports: Hfc.Core.Hpack.Inflate, Hfc.Proofs.Hpack.IntegerCoding, Hfc.Proofs.Hpack.HuffmanDecoding
Main exports: LenRead, hdInflateReadLen_spec, hdInflateReadLen_append, hdInflateReadHuff_append,
  hdInflateRead_of_le, hdInflateRead_of_lt, hdInflateRead_append, hdInflateHuffStored_spec,
  hdInflateReadHuff_spec
-/
import Hfc.Core.Hpack.Inflate
import Hfc.Proofs.Hpack.IntegerCoding
import Hfc.Proofs.Hpack.HuffmanDecoding

namespace Hfc.Hpack

open ByteText

/-! ### Lengths

Numbers that come in parts: the shift and what has been read are the state between them. -/

/-- A number that is complete took a byte at least. -/
theorem decodeLength_consumes {initial shift prefixlen : Nat} {input : Bytes} {r : LengthRead}
    (positive : 0 < prefixlen) (few : prefixlen ≤ 8)
    (read : decodeLength initial shift input prefixlen = some r) (complete : r.fin = true) :
    r.input.length < input.length := by
  have groups {n s : Nat} {text : Bytes} (read : decodeGroups n s text = some r) :
      r.input.length < text.length := by
    induction text generalizing n s with
    | nil =>
        cases read
        cases complete
    | cons c text ih =>
        rw [decodeGroups_cons] at read
        split at read
        · split at read
          · cases read
            exact Nat.lt_succ_self _
          · exact Nat.lt_succ_of_lt (ih read)
        · cases read
  by_cases zero : initial = 0
  · subst zero
    cases input with
    | nil => cases read
    | cons c input =>
        rw [decodeLength_cons positive few] at read
        split at read
        · cases read
          exact Nat.lt_succ_self _
        · split at read
          · cases read
            cases complete
          · exact Nat.lt_succ_of_lt (groups read)
  · rw [decodeLength_of_ne_zero zero] at read
    exact groups read

/-- What a call that reads a length leaves behind. -/
structure LenRead (inflater : HdInflater) (input : Bytes) (maxlen : Nat)
    (r : HdInflater × Bool × Bytes) : Prop where
  same : r.1 = { inflater with left := r.1.left, shift := r.1.shift }
  most : r.1.left ≤ maxlen
  complete : r.2.1 = true → r.2.2.length < input.length
  more : r.2.1 = false → r.1.left ≠ 0 ∧ r.2.2 = []

theorem LenRead.state {inflater : HdInflater} {input : Bytes} {maxlen : Nat}
    {r : HdInflater × Bool × Bytes} (spec : LenRead inflater input maxlen r) :
    r.1.state = inflater.state := by
  rw [spec.same]

theorem LenRead.bad {inflater : HdInflater} {input : Bytes} {maxlen : Nat}
    {r : HdInflater × Bool × Bytes} (spec : LenRead inflater input maxlen r) :
    r.1.ctx.bad = inflater.ctx.bad := by
  rw [spec.same]

theorem hdInflateReadLen_spec {inflater : HdInflater} {input : Bytes} {prefixlen maxlen : Nat}
    {r : HdInflater × Bool × Bytes} (positive : 0 < prefixlen) (few : prefixlen ≤ 8)
    (read : hdInflateReadLen inflater input prefixlen maxlen = .ok r) :
    LenRead inflater input maxlen r := by
  unfold hdInflateReadLen at read
  split at read
  · cases read
  · rename_i out decoded
    split at read
    · cases read
    · rename_i small
      cases read
      exact ⟨rfl, not_lt.mp small, fun complete => decodeLength_consumes positive few decoded complete,
        fun more => decodeLength_more positive few decoded more⟩

/-- The only error is that of a header block that is wrong. -/
theorem hdInflateReadLen_error {inflater : HdInflater} {input : Bytes} {prefixlen maxlen : Nat}
    {rv : Int} (read : hdInflateReadLen inflater input prefixlen maxlen = .error rv) :
    rv = nghttp2ErrHeaderComp := by
  unfold hdInflateReadLen at read
  split at read
  · cases read
    rfl
  · split at read
    · cases read
      rfl
    · cases read

/-- A length that goes on in the next piece only becomes larger. -/
theorem decodeLength_le {initial shift prefixlen : Nat} {input : Bytes} {r : LengthRead}
    (begun : initial ≠ 0) (read : decodeLength initial shift input prefixlen = some r) :
    initial ≤ r.res := by
  rw [decodeLength_of_ne_zero begun] at read
  exact decodeGroups_le read

/-- Reading a length in one piece is reading it in two. -/
theorem hdInflateReadLen_append {inflater : HdInflater} {prefixlen : Nat} (positive : 0 < prefixlen)
    (few : prefixlen ≤ 8) (fresh : inflater.left = 0 → inflater.shift = 0) {front : Bytes}
    (begun : inflater.left = 0 → front ≠ []) (back : Bytes) (maxlen : Nat) :
    hdInflateReadLen inflater (front ++ back) prefixlen maxlen =
      hdInflateReadLen inflater front prefixlen maxlen >>= fun r =>
        if r.2.1 then .ok (r.1, true, r.2.2 ++ back)
        else hdInflateReadLen r.1 back prefixlen maxlen := by
  rw [hdInflateReadLen, decodeLength_append positive few fresh begun, hdInflateReadLen]
  cases decoded : decodeLength inflater.left inflater.shift front prefixlen with
  | none => rfl
  | some out =>
      rw [Option.bind_some]
      cases complete : out.fin with
      | true =>
          rw [if_pos rfl]
          dsimp only
          split
          · rfl
          · rw [complete]
            rfl
      | false =>
          rw [if_neg Bool.false_ne_true]
          obtain ⟨notZero, -⟩ := decodeLength_more positive few decoded complete
          dsimp only
          by_cases large : out.res > maxlen
          · rw [if_pos large]
            split
            · rfl
            · rename_i out' decoded'
              have least := decodeLength_le notZero decoded'
              rw [if_pos (by omega)]
              rfl
          · rw [if_neg large]
            show _ = if out.fin = true then _ else _
            rw [complete, if_neg Bool.false_ne_true, hdInflateReadLen]

/-! ### Strings

The two readers of strings on input that comes in parts. -/

/-- A string that ends in the input. -/
theorem hdInflateRead_of_le {inflater : HdInflater} {input : Bytes}
    (whole : inflater.left ≤ input.length) (buf : HdBuf) :
    hdInflateRead inflater buf input =
      ({ inflater with left := 0 }, { buf with text := buf.text ++ input.take inflater.left },
        input.drop inflater.left) := by
  rw [hdInflateRead, Nat.min_eq_right whole, Nat.sub_self]

/-- A string that goes on behind the input. -/
theorem hdInflateRead_of_lt {inflater : HdInflater} {input : Bytes}
    (short : input.length < inflater.left) (buf : HdBuf) :
    hdInflateRead inflater buf input =
      ({ inflater with left := inflater.left - input.length },
        { buf with text := buf.text ++ input }, []) := by
  rw [hdInflateRead, Nat.min_eq_left short.le, List.take_length, List.drop_length]

/-- Reading a string in one piece is reading it in two. -/
theorem hdInflateRead_append {inflater : HdInflater} {front : Bytes}
    (short : front.length < inflater.left) (buf : HdBuf) (back : Bytes) :
    hdInflateRead inflater buf (front ++ back) =
      hdInflateRead (hdInflateRead inflater buf front).1 (hdInflateRead inflater buf front).2.1
        back := by
  have least : min (front.length + back.length) inflater.left =
      front.length + min back.length (inflater.left - front.length) := by omega
  rw [hdInflateRead_of_lt short, hdInflateRead, hdInflateRead, List.length_append, least,
    Nat.sub_add_eq, List.append_assoc, List.take_length_add_append, List.drop_length_add_append]

/-- A Huffman text that ends in the input. -/
theorem hdInflateReadHuff_of_le {inflater : HdInflater} {input : Bytes}
    (whole : inflater.left ≤ input.length) (buf : HdBuf) :
    hdInflateReadHuff inflater buf input =
      (hdHuffDecode inflater.huffDecodeCtx (input.take inflater.left) true >>= fun run =>
        if huffDecodeFailureState run.1 then .error nghttp2ErrHeaderComp
        else .ok ({ inflater with huffDecodeCtx := run.1, left := 0 },
          { buf with text := buf.text ++ run.2 }, input.drop inflater.left)) := by
  have length : (input.take inflater.left).length = inflater.left := by
    rw [List.length_take, Nat.min_eq_left whole]
  rw [hdInflateReadHuff]
  simp only [ge_iff_le, whole, decide_true, if_true, length, Nat.sub_self]

/-- A Huffman text that goes on behind the input. -/
theorem hdInflateReadHuff_of_lt {inflater : HdInflater} {input : Bytes}
    (short : input.length < inflater.left) (buf : HdBuf) :
    hdInflateReadHuff inflater buf input =
      if huffDecodeFailureState (huffRun inflater.huffDecodeCtx input).1 then
        .error nghttp2ErrHeaderComp
      else .ok ({ inflater with
          huffDecodeCtx := (huffRun inflater.huffDecodeCtx input).1
          left := inflater.left - input.length },
        { buf with text := buf.text ++ (huffRun inflater.huffDecodeCtx input).2 }, []) := by
  rw [hdInflateReadHuff]
  simp only [ge_iff_le, not_le.mpr short, decide_false, Bool.false_eq_true, if_false,
    List.drop_length]
  rfl

/-- The end of a Huffman text, behind what was decoded before. -/
theorem hdHuffDecode_append (fstate : Nat) (front back : Bytes) :
    hdHuffDecode fstate (front ++ back) true =
      (hdHuffDecode (huffRun fstate front).1 back true).map fun run =>
        (run.1, (huffRun fstate front).2 ++ run.2) := by
  rw [hdHuffDecode, hdHuffDecode, huffRun_append]
  dsimp only
  split <;> rfl

theorem hdHuffDecode_failed (src : Bytes) :
    hdHuffDecode 0x100 src true = .error nghttp2ErrHeaderComp := by
  rw [hdHuffDecode, huffRun_failed]
  dsimp only
  rw [lastState_rejects]
  rfl

/-- The only error is that of a header block that is wrong. -/
theorem hdInflateReadHuff_error {inflater : HdInflater} {buf : HdBuf} {input : Bytes} {rv : Int}
    (read : hdInflateReadHuff inflater buf input = .error rv) : rv = nghttp2ErrHeaderComp := by
  by_cases whole : inflater.left ≤ input.length
  · rw [hdInflateReadHuff_of_le whole, hdHuffDecode] at read
    split at read
    · cases read
      rfl
    · change (if huffDecodeFailureState _ = true then _ else _) = _ at read
      split at read
      · cases read
        rfl
      · cases read
  · rw [hdInflateReadHuff_of_lt (not_le.mp whole)] at read
    split at read
    · cases read
      rfl
    · cases read

/-- Reading a Huffman text in one piece is reading it in two. -/
theorem hdInflateReadHuff_append {inflater : HdInflater} {front : Bytes}
    (short : front.length < inflater.left) (buf : HdBuf) (back : Bytes) :
    hdInflateReadHuff inflater buf (front ++ back) =
      hdInflateReadHuff inflater buf front >>= fun r => hdInflateReadHuff r.1 r.2.1 back := by
  have taken : (front ++ back).take inflater.left =
      front ++ back.take (inflater.left - front.length) := by
    rw [List.take_append, List.take_of_length_le short.le]
  have dropped : (front ++ back).drop inflater.left = back.drop (inflater.left - front.length) := by
    rw [List.drop_append, List.drop_eq_nil_of_le short.le, List.nil_append]
  rw [hdInflateReadHuff_of_lt short]
  by_cases failed : huffDecodeFailureState (huffRun inflater.huffDecodeCtx front).1 = true
  · have state : (huffRun inflater.huffDecodeCtx front).1 = 0x100 := of_decide_eq_true failed
    rw [if_pos failed]
    by_cases whole : inflater.left ≤ (front ++ back).length
    · rw [hdInflateReadHuff_of_le whole, taken, hdHuffDecode_append, state, hdHuffDecode_failed]
      rfl
    · rw [hdInflateReadHuff_of_lt (not_le.mp whole), huffRun_append, state, huffRun_failed]
      rfl
  · rw [if_neg failed]
    show _ = hdInflateReadHuff _ _ back
    by_cases whole : inflater.left ≤ (front ++ back).length
    · rw [List.length_append] at whole
      rw [hdInflateReadHuff_of_le (by rw [List.length_append]; omega),
        hdInflateReadHuff_of_le (show inflater.left - front.length ≤ back.length by omega), taken,
        dropped, hdHuffDecode_append]
      dsimp only
      cases hdHuffDecode (huffRun inflater.huffDecodeCtx front).1
          (back.take (inflater.left - front.length)) true with
      | error rv => rfl
      | ok run =>
          show (if huffDecodeFailureState run.1 = true then _ else _) =
            if huffDecodeFailureState run.1 = true then _ else _
          rw [List.append_assoc]
    · rw [List.length_append] at whole
      rw [hdInflateReadHuff_of_lt (by rw [List.length_append]; omega),
        hdInflateReadHuff_of_lt (show back.length < inflater.left - front.length by omega),
        huffRun_append, List.length_append, Nat.sub_add_eq, List.append_assoc]

/-- A string is read as far as there is input. -/
theorem hdInflateRead_rest (inflater : HdInflater) (buf : HdBuf) (input : Bytes) :
    (hdInflateRead inflater buf input).1.left = inflater.left - input.length ∧
      (hdInflateRead inflater buf input).2.2 = input.drop inflater.left := by
  by_cases whole : inflater.left ≤ input.length
  · rw [hdInflateRead_of_le whole, Nat.sub_eq_zero_of_le whole]
    exact ⟨rfl, rfl⟩
  · rw [hdInflateRead_of_lt (not_le.mp whole), List.drop_eq_nil_of_le (not_le.mp whole).le]
    exact ⟨rfl, rfl⟩

/-- So is a Huffman text. -/
theorem hdInflateReadHuff_rest {inflater : HdInflater} {buf : HdBuf} {input : Bytes}
    {r : HdInflater × HdBuf × Bytes} (read : hdInflateReadHuff inflater buf input = .ok r) :
    r.1.left = inflater.left - input.length ∧ r.2.2 = input.drop inflater.left := by
  by_cases whole : inflater.left ≤ input.length
  · rw [hdInflateReadHuff_of_le whole] at read
    cases decoded : hdHuffDecode inflater.huffDecodeCtx (input.take inflater.left) true with
    | error rv =>
        rw [decoded] at read
        cases read
    | ok run =>
        rw [decoded] at read
        change (if huffDecodeFailureState run.1 = true then _ else _) = _ at read
        split at read
        · cases read
        · cases read
          exact ⟨(Nat.sub_eq_zero_of_le whole).symm, rfl⟩
  · rw [hdInflateReadHuff_of_lt (not_le.mp whole)] at read
    split at read
    · cases read
    · cases read
      exact ⟨rfl, (List.drop_eq_nil_of_le (not_le.mp whole).le).symm⟩

/-! ### Room

How many bytes a reader stores, in the rounds that fail as well. -/

theorem length_huffStep_le (at_ : Nat × Bytes) (bits : Nat) :
    (huffStep at_ bits).2.length ≤ at_.2.length + 1 := by
  rw [huffStep]
  dsimp only
  split
  · rw [List.length_append, List.length_singleton]
  · exact Nat.le_succ _

/-- A byte of a Huffman text puts out two bytes at most. -/
theorem length_huffRun_le (fstate : Nat) (src : Bytes) :
    (huffRun fstate src).2.length ≤ 2 * src.length := by
  have more (src : Bytes) (at_ : Nat × Bytes) :
      (src.foldl huffByte at_).2.length ≤ at_.2.length + 2 * src.length := by
    induction src generalizing at_ with
    | nil => exact Nat.le_refl _
    | cons c src ih =>
        have later := ih (huffByte at_ c)
        have low := length_huffStep_le (huffStep at_ (c.toNat >>> 4)) (c.toNat &&& 0xf)
        have high := length_huffStep_le at_ (c.toNat >>> 4)
        rw [List.foldl_cons, List.length_cons]
        rw [huffByte] at later ⊢
        omega
  rw [huffRun_eq]
  simpa using more src (fstate, [])

theorem hdHuffDecode_ok {fstate : Nat} {src : Bytes} {final : Bool} {run : Nat × Bytes}
    (decoded : hdHuffDecode fstate src final = .ok run) : huffRun fstate src = run := by
  rw [hdHuffDecode] at decoded
  split at decoded
  · cases decoded
  · exact Except.ok.inj decoded

/-- Reading a string keeps the room for what is left of it. -/
theorem length_hdInflateRead (inflater : HdInflater) (buf : HdBuf) (input : Bytes) :
    (hdInflateRead inflater buf input).2.1.text.length +
      (hdInflateRead inflater buf input).1.left = buf.text.length + inflater.left := by
  rw [hdInflateRead]
  dsimp only
  rw [List.length_append, List.length_take]
  omega

/-- Whether the call then fails or not, no more is stored than two bytes for each that was left. -/
theorem hdInflateHuffStored_spec (inflater : HdInflater) (buf : HdBuf) (input : Bytes) :
    (hdInflateHuffStored inflater buf input).1 =
        { inflater with huffDecodeCtx := (hdInflateHuffStored inflater buf input).1.huffDecodeCtx } ∧
      (hdInflateHuffStored inflater buf input).2.room = buf.room ∧
      (hdInflateHuffStored inflater buf input).2.text.length ≤
        buf.text.length + 2 * inflater.left := by
  refine ⟨rfl, rfl, ?_⟩
  have output := length_huffRun_le inflater.huffDecodeCtx
    (if decide (input.length ≥ inflater.left) = true then input.take inflater.left else input)
  have chunk : (if decide (input.length ≥ inflater.left) = true then input.take inflater.left
      else input).length ≤ inflater.left := by
    split
    · exact List.length_take_le _ _
    · rename_i short
      rw [decide_eq_true_eq] at short
      omega
  rw [hdInflateHuffStored]
  dsimp only
  rw [List.length_append]
  omega

/-- Reading a Huffman text keeps the room for what is left of it. -/
theorem hdInflateReadHuff_spec {inflater : HdInflater} {buf : HdBuf} {input : Bytes}
    {r : HdInflater × HdBuf × Bytes} (read : hdInflateReadHuff inflater buf input = .ok r) :
    r.1 = { inflater with huffDecodeCtx := r.1.huffDecodeCtx, left := r.1.left } ∧
      r.2.1.room = buf.room ∧
      r.2.1.text.length + 2 * r.1.left ≤ buf.text.length + 2 * inflater.left ∧
      r.2.2.length ≤ input.length ∧ (r.1.left ≠ 0 → r.2.2 = [] ∧ input.length < inflater.left) := by
  by_cases whole : inflater.left ≤ input.length
  · rw [hdInflateReadHuff_of_le whole] at read
    cases decoded : hdHuffDecode inflater.huffDecodeCtx (input.take inflater.left) true with
    | error rv =>
        rw [decoded] at read
        cases read
    | ok run =>
        have output := length_huffRun_le inflater.huffDecodeCtx (input.take inflater.left)
        rw [hdHuffDecode_ok decoded, List.length_take, Nat.min_eq_left whole] at output
        rw [decoded] at read
        change (if huffDecodeFailureState run.1 = true then _ else _) = _ at read
        split at read
        · cases read
        · cases read
          refine ⟨rfl, rfl, ?_, ?_, fun more => absurd rfl more⟩
          · rw [List.length_append]
            dsimp only
            omega
          · rw [List.length_drop]
            omega
  · rw [hdInflateReadHuff_of_lt (not_le.mp whole)] at read
    split at read
    · cases read
    · cases read
      have output := length_huffRun_le inflater.huffDecodeCtx input
      refine ⟨rfl, rfl, ?_, Nat.zero_le _, fun _ => ⟨rfl, not_le.mp whole⟩⟩
      rw [List.length_append]
      dsimp only
      omega

end Hfc.Hpack
