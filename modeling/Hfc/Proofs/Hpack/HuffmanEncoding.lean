/-
Module: Hfc.Proofs.Hpack.HuffmanEncoding
Layer: Proofs
Purpose: The Huffman encoder writes the text of the string. Its accumulator holds the bits that are
  not written yet, aligned to the most significant of 64; it never holds more than it has room for,
  and writing four bytes at once or one by one makes no difference.
Imports: Hfc.Core.Hpack.Huffman, Hfc.Proofs.Hpack.BufsWriting, Hfc.Spec.Hpack.HuffmanText
Main exports: aligned, huffDrain_spec, hdHuffEncode_eq_write, hdHuffEncodeCount_eq, huffman_encodes
-/
import Hfc.Core.Hpack.Huffman
import Hfc.Proofs.Hpack.BufsWriting
import Hfc.Spec.Hpack.HuffmanText

namespace Hfc.Hpack

open ByteText BitString PrefixCode

/-! ### The accumulator

The bits that wait in the 64-bit word are its highest. Shifts and the bitwise or are stated on these
bits. -/

/-- Some bits, aligned to the most significant of 64. -/
def aligned (bits : List Bool) : Nat :=
  ofBits bits * 2 ^ (64 - bits.length)

/-- The bits in front make the high end of the number. -/
theorem aligned_append {front back : List Bool} (small : front.length + back.length ≤ 64) :
    aligned (front ++ back) =
      ofBits front * 2 ^ (64 - front.length) +
        ofBits back * 2 ^ (64 - (front.length + back.length)) := by
  have split : 2 ^ (64 - front.length) =
      2 ^ back.length * 2 ^ (64 - (front.length + back.length)) := by
    rw [← pow_add]
    congr 1
    omega
  rw [aligned, ofBits_append, List.length_append, split]
  ring

/-- What stands behind the front is less than its last bit. -/
theorem back_lt (front back : List Bool)
    (small : front.length + back.length ≤ 64) :
    ofBits back * 2 ^ (64 - (front.length + back.length)) < 2 ^ (64 - front.length) := by
  have split : 2 ^ (64 - front.length) =
      2 ^ back.length * 2 ^ (64 - (front.length + back.length)) := by
    rw [← pow_add]
    congr 1
    omega
  rw [split]
  exact Nat.mul_lt_mul_of_pos_right (ofBits_lt back) (Nat.two_pow_pos _)

/-- The bits in front are the high bits. -/
theorem aligned_shiftRight (front back : List Bool)
    (small : front.length + back.length ≤ 64) :
    aligned (front ++ back) >>> (64 - front.length) = ofBits front := by
  rw [aligned_append small, Nat.shiftRight_eq_div_pow, Nat.mul_comm,
    Nat.mul_add_div (Nat.two_pow_pos _), Nat.div_eq_of_lt (back_lt front back small), Nat.add_zero]

/-- Shifted out, they leave what stands behind them. -/
theorem aligned_shiftLeft (front back : List Bool)
    (small : front.length + back.length ≤ 64) :
    aligned (front ++ back) <<< front.length % 2 ^ 64 = aligned back := by
  have out : ofBits front * 2 ^ (64 - front.length) * 2 ^ front.length = ofBits front * 2 ^ 64 := by
    rw [Nat.mul_assoc, ← pow_add]
    congr 2
    omega
  have left : ofBits back * 2 ^ (64 - (front.length + back.length)) * 2 ^ front.length =
      aligned back := by
    rw [Nat.mul_assoc, ← pow_add, aligned]
    congr 2
    omega
  have fits : aligned back < 2 ^ 64 := by
    have below := back_lt [] back (by simp; omega)
    simpa [aligned] using below
  rw [aligned_append small, Nat.shiftLeft_eq, Nat.add_mul, out, left, Nat.mul_comm,
    Nat.mul_add_mod, Nat.mod_eq_of_lt fits]

/-- Bits that are put behind others are put in with an `or`. -/
theorem aligned_or {front back : List Bool} (small : front.length + back.length ≤ 64) :
    aligned front ||| ofBits back * 2 ^ (64 - (front.length + back.length)) =
      aligned (front ++ back) := by
  rw [aligned_append small, aligned, Nat.mul_comm (ofBits front),
    Nat.two_pow_add_eq_or_of_lt (back_lt front back small)]

/-! ### Code words

The words of the table are aligned to the top bit of 32, and their lengths say how much of that
counts. -/

/-- Every code word has a bit and at most thirty, and its aligned code has nothing behind it. -/
def entryAligned (entry : Nat × Nat) : Bool :=
  0 < entry.1 && entry.1 ≤ 30 && entry.2 < 2 ^ 32 &&
    entry.2 = entry.2 >>> (32 - entry.1) * 2 ^ (32 - entry.1)

theorem huffSymTable_aligned : huffSymTable.all entryAligned = true := by decide +kernel

theorem huffSym_aligned (b : Byte) : entryAligned (huffSym b) = true := by
  have inTable : b.toNat < huffSymTable.length := by
    rw [length_huffSymTable]
    exact Nat.lt_succ_of_lt b.toNat_lt
  rw [huffSym, List.getD_eq_getElem?_getD, List.getElem?_eq_getElem inTable]
  exact List.all_eq_true.mp huffSymTable_aligned _ (List.getElem_mem inTable)

/-- The entry of a byte is its code word, aligned to the most significant of 32 bits. -/
theorem huffSym_spec (b : Byte) :
    (huffSym b).1 = (huffCode (.ofByte b)).length ∧ (huffCode (.ofByte b)).length ≤ 30 ∧
      (huffSym b).2 = ofBits (huffCode (.ofByte b)) * 2 ^ (32 - (huffCode (.ofByte b)).length) := by
  have checked := huffSym_aligned b
  have word : huffCode (.ofByte b) = wordBits (huffSym b) := rfl
  simp only [entryAligned, Bool.and_eq_true, decide_eq_true_eq] at checked
  obtain ⟨⟨⟨positive, short⟩, small⟩, same⟩ := checked
  have length : (huffCode (.ofByte b)).length = (huffSym b).1 := by
    rw [word, wordBits, length_toBits]
  have value : ofBits (huffCode (.ofByte b)) = (huffSym b).2 >>> (32 - (huffSym b).1) := by
    rw [word, wordBits, ofBits_toBits, Nat.mod_eq_of_lt]
    rw [Nat.shiftRight_eq_div_pow, Nat.div_lt_iff_lt_mul (Nat.two_pow_pos _), ← pow_add]
    rwa [show (huffSym b).1 + (32 - (huffSym b).1) = 32 by omega]
  rw [length, value]
  exact ⟨rfl, short, same⟩

/-- The word of a byte, put behind the bits in the accumulator. -/
theorem aligned_or_code {bits : List Bool} (small : bits.length < 32) (b : Byte) :
    aligned bits ||| ((huffSym b).2 <<< (32 - bits.length)) % 2 ^ 64 =
      aligned (bits ++ huffCode (.ofByte b)) := by
  obtain ⟨-, short, code⟩ := huffSym_spec b
  have shifted : (huffSym b).2 <<< (32 - bits.length) =
      ofBits (huffCode (.ofByte b)) *
        2 ^ (64 - (bits.length + (huffCode (.ofByte b)).length)) := by
    rw [code, Nat.shiftLeft_eq, Nat.mul_assoc, ← pow_add]
    congr 2
    omega
  have below := back_lt bits (huffCode (.ofByte b)) (by omega)
  have whole : 2 ^ (64 - bits.length) ≤ 2 ^ 64 := Nat.pow_le_pow_right (by decide) (Nat.sub_le _ _)
  rw [shifted, Nat.mod_eq_of_lt (by omega), aligned_or (by omega)]

/-! ### Writing

The bytes written and the bits that wait are the code words of what has been read, from one byte of
the text to the next. -/

/-- The writer holds some bits that are not written yet. -/
structure HuffWriter.Holds (w : HuffWriter) (bits : List Bool) : Prop where
  code : w.code = aligned bits
  nbits : w.nbits = bits.length

/-- Take in the word of a byte. -/
def HuffWriter.add (w : HuffWriter) (b : Byte) : HuffWriter :=
  { w with
    code := w.code ||| ((huffSym b).2 <<< (32 - w.nbits)) % 2 ^ 64
    nbits := w.nbits + (huffSym b).1 }

theorem huffEncodeLoop_cons (b : Byte) (src : Bytes) (w : HuffWriter) :
    huffEncodeLoop (b :: src) w w.bufs.avail =
      if (w.add b).nbits < 32 then huffEncodeLoop src (w.add b) (w.add b).bufs.avail
      else if (w.add b).bufs.avail ≥ 4 then
        huffEncodeLoop src
          { code := (w.add b).code <<< 32 % 2 ^ 64
            nbits := (w.add b).nbits - 32
            bufs := (w.add b).bufs.put (htonl ((w.add b).code >>> 32)) } ((w.add b).bufs.avail - 4)
      else huffDrain (w.add b).nbits (w.add b) >>= fun w => huffEncodeLoop src w w.bufs.avail :=
  rfl

theorem HuffWriter.Holds.add {w : HuffWriter} {bits : List Bool} (holds : w.Holds bits)
    (small : bits.length < 32) (b : Byte) :
    (w.add b).Holds (bits ++ huffCode (.ofByte b)) := by
  refine ⟨?_, ?_⟩
  · show w.code ||| ((huffSym b).2 <<< (32 - w.nbits)) % 2 ^ 64 = _
    rw [holds.code, holds.nbits]
    exact aligned_or_code small b
  · show w.nbits + (huffSym b).1 = _
    rw [List.length_append, holds.nbits, (huffSym_spec b).1]

/-- The whole bytes of what is held are written. -/
theorem huffDrain_spec (rounds : Nat) {w : HuffWriter} {bits : List Bool} (holds : w.Holds bits)
    (small : bits.length ≤ 64) (enough : bits.length < 8 * (rounds + 1)) :
    ∃ bytes back, bits = bytesBits bytes ++ back ∧ back.length < 8 ∧
      huffDrain rounds w = w.bufs.write bytes >>= fun bufs =>
        .ok { code := aligned back, nbits := back.length, bufs := bufs } := by
  induction rounds generalizing w bits with
  | zero =>
      refine ⟨[], bits, rfl, by omega, ?_⟩
      rw [huffDrain, ← holds.code, ← holds.nbits]
      rfl
  | succ rounds ih =>
      by_cases whole : w.nbits ≥ 8
      · obtain ⟨front, back, rfl, eight⟩ : ∃ front back, bits = front ++ back ∧ front.length = 8 :=
          ⟨bits.take 8, bits.drop 8, (List.take_append_drop 8 bits).symm, by
            rw [List.length_take, ← holds.nbits]
            omega⟩
        rw [List.length_append] at small enough
        have byte : w.code >>> 56 = ofBits front := by
          have high := aligned_shiftRight front back small
          rwa [eight, ← holds.code] at high
        have left : w.code <<< 8 % 2 ^ 64 = aligned back := by
          have low := aligned_shiftLeft front back small
          rwa [eight, ← holds.code] at low
        have count : w.nbits - 8 = back.length := by
          rw [holds.nbits, List.length_append, eight, Nat.add_sub_cancel_left]
        have written (bufs : Bufs) :
            HuffWriter.Holds { code := aligned back, nbits := back.length, bufs := bufs } back :=
          ⟨rfl, rfl⟩
        obtain ⟨bytes, rest, split, short, -⟩ := ih (written w.bufs) (by omega) (by omega)
        refine ⟨ofByteBits front :: bytes, rest, ?_, short, ?_⟩
        · rw [bytesBits_cons, byteBits_ofByteBits eight, split, List.append_assoc]
        · rw [huffDrain, if_pos whole, byte, left, count, Bufs.write_cons, bind_assoc]
          refine bind_congr fun bufs => ?_
          obtain ⟨bytes', rest', split', short', drained⟩ := ih (written bufs) (by omega) (by omega)
          have same : bytesBits bytes ++ rest = bytesBits bytes' ++ rest' := split.symm.trans split'
          obtain ⟨bytesSame, rfl⟩ := List.append_inj same (by
            have lengths := congrArg List.length same
            simp only [List.length_append, length_bytesBits] at lengths ⊢
            omega)
          rw [drained, bytesBits_injective bytesSame]
      · refine ⟨[], bits, rfl, by rw [← holds.nbits]; omega, ?_⟩
        rw [huffDrain, if_neg whole, ← holds.code, ← holds.nbits]
        rfl

/-- The last byte: what is held, with ones behind it. -/
theorem lastByte_eq {bits : List Bool} (nonempty : bits ≠ []) (short : bits.length < 8) :
    packOnes bits =
      [UInt8.ofNat (aligned bits >>> 56) ||| UInt8.ofNat (1 <<< (8 - bits.length) - 1)] := by
  have positive := List.length_pos_iff.mpr nonempty
  have one : (bits.length + 7) / 8 = 1 := by omega
  have high : aligned bits >>> 56 = 2 ^ (8 - bits.length) * ofBits bits := by
    rw [aligned, show 64 - bits.length = 8 - bits.length + 56 by omega, pow_add, ← Nat.mul_assoc,
      Nat.shiftRight_eq_div_pow, Nat.mul_div_cancel _ (Nat.two_pow_pos 56), Nat.mul_comm]
  have ones : 1 <<< (8 - bits.length) - 1 = ofBits (List.replicate (8 - bits.length) true) := by
    have full := ofBits_replicate_true (8 - bits.length)
    rw [Nat.one_shiftLeft]
    omega
  have below : ofBits (List.replicate (8 - bits.length) true) < 2 ^ (8 - bits.length) := by
    have bound := ofBits_lt (List.replicate (8 - bits.length) true)
    rwa [List.length_replicate] at bound
  rw [packOnes, one, high, ones, ← UInt8.ofNat_or, ← Nat.two_pow_add_eq_or_of_lt below, packBytes,
    packBytes, List.take_of_length_le short.le, ofByteBits, ofBits_append, List.length_replicate,
    Nat.mul_comm]

/-- Behind the loop all that is held is written, with ones behind it. -/
theorem huffFinish_eq {w : HuffWriter} {bits : List Bool} (holds : w.Holds bits)
    (small : bits.length ≤ 64) : huffFinish w = w.bufs.write (packOnes bits) := by
  obtain ⟨bytes, back, rfl, short, drained⟩ := huffDrain_spec w.nbits holds small
    (by rw [holds.nbits]; omega)
  rw [huffFinish, drained, bind_assoc, packOnes_bytes, Bufs.write_append]
  refine bind_congr fun bufs => ?_
  show (if back.length ≠ 0 then _ else _) = _
  by_cases whole : back = []
  · subst whole
    rfl
  · rw [if_pos (by simpa using whole), lastByte_eq whole short, Bufs.write_cons]
    exact (bind_pure _).symm

/-- The four bytes of a number of 32 bits. -/
theorem bytesBits_htonl {front : List Bool} (length : front.length = 32) :
    bytesBits (htonl (ofBits front)) = front := by
  have bits := toBits_ofBits front
  rw [length, show 32 = 8 + (8 + (8 + 8)) from rfl, toBits_add, toBits_add, toBits_add] at bits
  simp only [htonl, bytesBits_cons, bytesBits_nil, byteBits_ofNat, List.append_nil,
    Nat.shiftRight_eq_div_pow]
  exact bits

/-- The loop writes the code words of the string behind what is held, and so does the end of the
encoder. -/
theorem huffEncodeLoop_eq {src : Bytes} {w : HuffWriter} {bits : List Bool} (holds : w.Holds bits)
    (small : bits.length < 32) :
    (huffEncodeLoop src w w.bufs.avail >>= huffFinish) =
      w.bufs.write (packOnes (bits ++ huffBits src)) := by
  induction src generalizing w bits with
  | nil =>
      rw [huffBits_nil, List.append_nil]
      exact huffFinish_eq holds (by omega)
  | cons b src ih =>
      obtain ⟨count, short, -⟩ := huffSym_spec b
      have total : (bits ++ huffCode (.ofByte b)).length < 64 := by
        rw [List.length_append]
        omega
      have holds' := holds.add small b
      rw [huffBits_cons, ← List.append_assoc, huffEncodeLoop_cons,
        show w.bufs = (w.add b).bufs from rfl]
      generalize bits ++ huffCode (.ofByte b) = bits' at holds' total ⊢
      generalize w.add b = w' at holds' ⊢
      by_cases few : w'.nbits < 32
      -- Less than four bytes wait: nothing is written yet.
      · rw [if_pos few]
        exact ih holds' (by rwa [← holds'.nbits])
      · rw [if_neg few]
        by_cases four : w'.bufs.avail ≥ 4
        -- Room for four bytes in this chunk: they are stored at once.
        · obtain ⟨front, back, rfl, length⟩ :
              ∃ front back, bits' = front ++ back ∧ front.length = 32 :=
            ⟨bits'.take 32, bits'.drop 32, (List.take_append_drop 32 bits').symm, by
              rw [List.length_take, ← holds'.nbits]
              omega⟩
          rw [List.length_append] at total
          have high := aligned_shiftRight front back (by omega)
          have low := aligned_shiftLeft front back (by omega)
          rw [length, show 64 - 32 = 32 from rfl, ← holds'.code] at high
          rw [length, ← holds'.code] at low
          have left : w'.nbits - 32 = back.length := by
            rw [holds'.nbits, List.length_append, length, Nat.add_sub_cancel_left]
          rw [if_pos four, high, low, left, List.append_assoc, ← bytesBits_htonl length,
            packOnes_bytes, Bufs.write_append, bytesBits_htonl length,
            Bufs.write_put (show (htonl (ofBits front)).length ≤ w'.bufs.avail from four)]
          exact ih (w := { code := _, nbits := _, bufs := w'.bufs.put _ }) ⟨rfl, rfl⟩ (by omega)
        -- No room for four: the bytes are drained one by one, through the chunks.
        · obtain ⟨bytes, back, rfl, few', drained⟩ := huffDrain_spec w'.nbits holds' (by omega)
            (by rw [holds'.nbits]; omega)
          rw [if_neg four, List.append_assoc, packOnes_bytes, Bufs.write_append, bind_assoc, drained,
            bind_assoc]
          exact bind_congr fun bufs =>
            ih (w := { code := _, nbits := _, bufs := bufs }) ⟨rfl, rfl⟩ (by omega)

/-- The encoder writes the text of the string. -/
theorem hdHuffEncode_eq_write (bufs : Bufs) (src : Bytes) :
    hdHuffEncode bufs src = bufs.write (huffText src) := by
  have start : HuffWriter.Holds { code := 0, nbits := 0, bufs := bufs } [] := ⟨rfl, rfl⟩
  exact huffEncodeLoop_eq start (by decide)

/-- The count is the length of the text. -/
theorem hdHuffEncodeCount_eq (src : Bytes) : hdHuffEncodeCount src = (huffText src).length := by
  have total : (src.map fun b => (huffSym b).1).sum = (huffBits src).length := by
    induction src with
    | nil => rfl
    | cons b src ih =>
        rw [List.map_cons, List.sum_cons, ih, huffBits_cons, List.length_append, (huffSym_spec b).1]
  rw [hdHuffEncodeCount, total, huffText, length_packOnes]

/-- The encoder writes the text of the string, across the chunks if it must, when there is room for
as many bytes as its count says; and when there is less room it fails as the buffers do. -/
theorem huffman_encodes (bufs : Bufs) (src : Bytes) :
    hdHuffEncodeCount src = (huffText src).length ∧
      (hdHuffEncodeCount src ≤ bufs.room →
        ∃ bufs', hdHuffEncode bufs src = .ok bufs' ∧ bufs'.out = bufs.out ++ huffText src ∧
          bufs'.room + hdHuffEncodeCount src = bufs.room ∧ bufs'.exhausted = bufs.exhausted) ∧
      (bufs.room < hdHuffEncodeCount src → hdHuffEncode bufs src = .error bufs.exhausted) := by
  rw [hdHuffEncodeCount_eq, hdHuffEncode_eq_write]
  exact ⟨rfl, bufs.write_eq (huffText src)⟩

/-- The text of a host name. -/
example : huffText (ascii "www.example.com") =
    [0xf1, 0xe3, 0xc2, 0xe5, 0xf2, 0x3a, 0x6b, 0xa0, 0xab, 0x90, 0xf4, 0xff] := by
  decide +kernel

end Hfc.Hpack
