/-
Module: Hfc.Proofs.Hpack.HuffmanDecoding
Layer: Proofs
Purpose: The Huffman decoder accepts the texts of strings and nothing else. Its states are the inner
  nodes of the code tree and one for what cannot be decoded any more; the table does for four bits
  what the tree does bit by bit, which is checked once for each of its entries.
Imports: Hfc.Core.Hpack.Huffman, Hfc.Spec.Hpack.HuffmanText
Main exports: entryRight, huffDecodeTable_right, HuffReached, HuffReached.step, huffRun_reached,
  huffRun_failed_iff, huffRun_append, huffDecodeParts, huffman_decodes_iff
-/
import Hfc.Core.Hpack.Huffman
import Hfc.Spec.Hpack.HuffmanText

namespace Hfc.Hpack

open ByteText BitString PrefixCode

/-! ### The table

Each entry of the decoding table against the code tree, by evaluation: the state, the byte and the
flags are those of four steps in the tree. -/

/-- The way down to a node is no more than the ones that may fill up the last byte. -/
def pads (t : CodeTree HuffSym) : Bool :=
  (List.range 8).any fun k =>
    match huffTree.walk (List.replicate k true) with
    | some (.node n _ _) => n = t.number
    | _ => false

/-- An entry leads to a node, and a string may end there or may not. -/
def leads (e : HuffDecode) (t : CodeTree HuffSym) : Bool :=
  e.fstate &&& 0x1ff = t.number && decide (e.fstate &&& huffAccepted ≠ 0) = pads t

/-- An entry does for four bits at a node what the tree does. -/
def entryRight (t : CodeTree HuffSym) (e : HuffDecode) (bits : Nat) : Bool :=
  match feed huffTree t (toBits 4 bits) with
  | some ([], t') => leads e t' && e.fstate &&& huffSymFlag = 0
  | some (s :: more, t') =>
      if s = HuffSym.eos then e.fstate = 0x100
      else leads e t' && e.fstate &&& huffSymFlag ≠ 0 && s = HuffSym.ofByte e.sym && more.isEmpty
  | none => false

/-- A row is right for a node. -/
def rowRight (entry : CodeTree HuffSym × (Nat × Nat)) : Bool :=
  (List.range 16).all fun bits => entryRight entry.1 (rowEntry entry.2 bits) bits

theorem huffDecodeTable_right : (huffTree.nodes.zip huffDecodeTable).all rowRight = true := by
  decide +kernel

/-- An inner node is at its number among all of them. -/
theorem node_at_number {path : List Bool} {t : CodeTree HuffSym}
    (there : huffTree.walk path = some t) (inner : t.IsInner) :
    huffTree.nodes[t.number]? = some t := by
  obtain ⟨n, zero, one, rfl⟩ := inner
  obtain ⟨i, inNodes, node⟩ := List.getElem_of_mem (CodeTree.mem_nodes there)
  have numbers : huffTree.nodes.map CodeTree.number = List.range' 0 _ := CodeTree.map_number_nodes 0 _
  have index : n = i := by
    have mapped : (huffTree.nodes.map CodeTree.number)[i]? = some n := by
      rw [List.getElem?_map, List.getElem?_eq_getElem inNodes, node]
      rfl
    rw [numbers, List.getElem?_eq_some_iff] at mapped
    obtain ⟨inRange, value⟩ := mapped
    rw [List.getElem_range'] at value
    omega
  subst index
  rw [CodeTree.number, List.getElem?_eq_getElem inNodes, node]

/-- There are 256 of them, so none has the number of the last state. -/
theorem number_lt {path : List Bool} {t : CodeTree HuffSym} (there : huffTree.walk path = some t)
    (inner : t.IsInner) : t.number < 0x100 := by
  have count : huffTree.nodes.length = 0x100 := by decide +kernel
  rw [← count]
  exact (List.getElem?_eq_some_iff.mp (node_at_number there inner)).1

/-- The row of an inner node is at its number. -/
theorem row_right {path : List Bool} {t : CodeTree HuffSym} (there : huffTree.walk path = some t)
    (inner : t.IsInner) : rowRight (t, huffDecodeTable.getD t.number (0, 0)) = true := by
  have inTable : t.number < huffDecodeTable.length := by
    have count : 0x100 ≤ huffDecodeTable.length := by decide +kernel
    exact (number_lt there inner).trans_le count
  have both : (huffTree.nodes.zip huffDecodeTable)[t.number]? =
      some (t, huffDecodeTable[t.number]) := by
    rw [List.getElem?_zip_eq_some]
    exact ⟨node_at_number there inner, List.getElem?_eq_getElem inTable⟩
  have right := List.all_eq_true.mp huffDecodeTable_right _ (List.mem_of_getElem? both)
  rwa [List.getD_eq_getElem?_getD, List.getElem?_eq_getElem inTable]

/-- The last row stays where it is. -/
theorem lastRow_stays : (List.range 16).all (fun bits =>
    huffEntry 0x100 bits = { fstate := 0x100, sym := 0 }) = true := by
  decide +kernel

theorem lastState_rejects : 0x100 &&& huffAccepted = 0 := by decide

/-! ### Runs

A run of the decoder is a walk in the tree. What it has stored and the state it is in determine the
bits it has read. -/

/-- A way that may be the ones that fill up the last byte. -/
def Padding (path : List Bool) : Prop :=
  ∃ k < 8, path = List.replicate k true

theorem pads_iff {path : List Bool} {t : CodeTree HuffSym} (there : huffTree.walk path = some t)
    (inner : t.IsInner) : pads t = true ↔ Padding path := by
  simp only [pads, List.any_eq_true, List.mem_range]
  constructor
  · rintro ⟨k, few, ends⟩
    refine ⟨k, few, ?_⟩
    split at ends
    · rename_i n zero one there'
      exact CodeTree.walk_numbered_unique there there' inner ⟨n, zero, one, rfl⟩
        (of_decide_eq_true ends).symm
    · cases ends
  · rintro ⟨k, few, rfl⟩
    obtain ⟨n, zero, one, rfl⟩ := inner
    refine ⟨k, few, ?_⟩
    rw [there]
    exact decide_eq_true rfl

/-- What the decoder has behind some bits: it has put out the symbols whose words it has seen, and
is on the way to the next one; or it has met the end of the string, and will not forget it. -/
inductive HuffReached (bits : List Bool) : Nat × Bytes → Prop
  | node {fstate : Nat} {out : Bytes} {path : List Bool} {t : CodeTree HuffSym}
      (there : huffTree.walk path = some t) (inner : t.IsInner) (seen : bits = huffBits out ++ path)
      (state : fstate &&& 0x1ff = t.number) (accepted : fstate &&& huffAccepted ≠ 0 ↔ Padding path) :
      HuffReached bits (fstate, out)
  | failed {out : Bytes} (rest : List Bool)
      (seen : bits = huffBits out ++ (huffCode .eos ++ rest)) : HuffReached bits (0x100, out)

theorem huffBits_append (front back : Bytes) :
    huffBits (front ++ back) = huffBits front ++ huffBits back := by
  rw [huffBits, List.map_append, encode_append]
  rfl

/-- Where an entry leads. -/
theorem HuffReached.of_leads {bits : List Bool} {out : Bytes} {path : List Bool}
    {t : CodeTree HuffSym} {e : HuffDecode} (leading : leads e t = true)
    (there : huffTree.walk path = some t) (inner : t.IsInner) (seen : bits = huffBits out ++ path) :
    HuffReached bits (e.fstate, out) := by
  simp only [leads, Bool.and_eq_true, decide_eq_true_eq] at leading
  obtain ⟨state, accepted⟩ := leading
  refine .node there inner seen state ?_
  rw [← pads_iff there inner, ← accepted, decide_eq_true_eq]

/-- Four bits more. -/
theorem HuffReached.step {seen : List Bool} {at_ : Nat × Bytes} (reached : HuffReached seen at_)
    {bits : Nat} (nibble : bits < 16) : HuffReached (seen ++ toBits 4 bits) (huffStep at_ bits) := by
  -- The state of failure is never left.
  cases reached with
  | @failed out rest seen =>
      have stays := List.all_eq_true.mp lastRow_stays bits (List.mem_range.mpr nibble)
      rw [huffStep, of_decide_eq_true stays]
      refine HuffReached.failed (rest ++ toBits 4 bits) ?_
      rw [seen, List.append_assoc, List.append_assoc]
      rfl
  | @node fstate out path t there inner split state accepted =>
      -- The table entry is what four steps in the tree come to: no word ends, or one does.
      have right := List.all_eq_true.mp (row_right there inner) bits (List.mem_range.mpr nibble)
      have entry : huffEntry fstate bits = rowEntry (huffDecodeTable.getD t.number (0, 0)) bits := by
        rw [huffEntry, state]
      rw [huffStep, entry]
      dsimp only at right ⊢
      generalize rowEntry (huffDecodeTable.getD t.number (0, 0)) bits = e at right
      unfold entryRight at right
      split at right
      · rename_i t' fed
        obtain ⟨path', there', inner', whole⟩ := feed_spec huffTree_codes _ there inner fed
        simp only [Bool.and_eq_true, decide_eq_true_eq] at right
        rw [if_neg (by simp [right.2])]
        refine .of_leads right.1 there' inner' ?_
        rw [split, List.append_assoc, whole]
        rfl
      · rename_i s more t' fed
        obtain ⟨path', there', inner', whole⟩ := feed_spec huffTree_codes _ there inner fed
        split at right
        · rename_i eos
          subst eos
          rw [of_decide_eq_true right]
          refine HuffReached.failed (encode huffCode more ++ path') ?_
          rw [split, List.append_assoc, whole, encode_cons, List.append_assoc]
          rfl
        · simp only [Bool.and_eq_true, decide_eq_true_eq, List.isEmpty_iff] at right
          obtain ⟨⟨⟨leading, flag⟩, rfl⟩, rfl⟩ := right
          rw [if_pos flag]
          refine .of_leads leading there' inner' ?_
          rw [split, List.append_assoc, whole, huffBits_append, List.append_assoc]
          rfl
      · cases right

theorem high_lt (c : Byte) : c.toNat >>> 4 < 16 := by
  have small := c.toNat_lt
  rw [Nat.shiftRight_eq_div_pow]
  omega

theorem low_lt (c : Byte) : c.toNat &&& 0xf < 16 :=
  Nat.and_lt_two_pow c.toNat (show 0xf < 2 ^ 4 by decide)

/-- One byte. -/
def huffByte (at_ : Nat × Bytes) (c : Byte) : Nat × Bytes :=
  huffStep (huffStep at_ (c.toNat >>> 4)) (c.toNat &&& 0xf)

theorem huffRun_eq (fstate : Nat) (src : Bytes) :
    huffRun fstate src = src.foldl huffByte (fstate, []) := rfl

theorem HuffReached.run {seen : List Bool} {at_ : Nat × Bytes} (reached : HuffReached seen at_)
    (src : Bytes) : HuffReached (seen ++ bytesBits src) (src.foldl huffByte at_) := by
  induction src generalizing seen at_ with
  | nil => simpa using reached
  | cons c src ih =>
      have byte := (reached.step (high_lt c)).step (low_lt c)
      have bits : toBits 4 (c.toNat >>> 4) ++ toBits 4 (c.toNat &&& 0xf) = byteBits c := by
        rw [byteBits, show 8 = 4 + 4 from rfl, toBits_add, Nat.shiftRight_eq_div_pow]
        congr 1
        apply ofBits_injective (by simp)
        rw [ofBits_toBits, ofBits_toBits, show 0xf = 2 ^ 4 - 1 from rfl,
          Nat.and_two_pow_sub_one_eq_mod,
          Nat.mod_mod]
      rw [List.append_assoc, bits] at byte
      rw [bytesBits_cons, ← List.append_assoc]
      exact ih byte

/-- From its first state the decoder reaches what its input says. -/
theorem huffRun_reached (src : Bytes) :
    HuffReached (bytesBits src) (huffRun huffDecodeContextInit src) := by
  have start : HuffReached [] (huffDecodeContextInit, []) := by
    refine .node (show huffTree.walk [] = some huffTree from rfl) huffTree_codes.inner rfl ?_ ?_
    · rw [huffTree_isInner.1]
      rfl
    · exact iff_of_true (by decide) ⟨0, by decide, rfl⟩
  exact start.run src

/-! ### What is accepted

An input is accepted when its bits are the code words of the text and then less than a byte of ones.
The state of failure is reached by the end-of-string code alone. -/

theorem ofByte_injective : Function.Injective HuffSym.ofByte := by
  intro b b' same
  exact UInt8.toNat_inj.mp (Fin.mk.inj same)

theorem ofByte_ne_eos (b : Byte) : HuffSym.ofByte b ≠ .eos := by
  intro same
  have small := b.toNat_lt
  have value : b.toNat = 256 := congrArg Fin.val same
  omega

theorem padding_inner : (List.range 8).all (fun k =>
    match huffTree.walk (List.replicate k true) with
    | some (.node _ _ _) => true
    | _ => false) = true := by
  decide +kernel

/-- The ones that fill up a byte are on the way to a symbol. -/
theorem open_padding {path : List Bool} (padding : Padding path) : Open huffCode path := by
  obtain ⟨k, few, rfl⟩ := padding
  have checked := List.all_eq_true.mp padding_inner k (List.mem_range.mpr few)
  split at checked
  · rename_i n zero one there
    exact huffTree_codes.open_of_walk there ⟨n, zero, one, rfl⟩
  · cases checked

/-- Behind the words of some bytes and the start of another word, no end of the string has come. -/
theorem no_eos {front out : Bytes} {path rest : List Bool} (onTheWay : Open huffCode path) :
    ¬ huffBits out ++ path = huffBits front ++ (huffCode .eos ++ rest) := by
  intro met
  have words : encode huffCode (front.map HuffSym.ofByte ++ [.eos]) ++ rest =
      encode huffCode (out.map HuffSym.ofByte) ++ path := by
    rw [encode_append, encode_cons, encode_nil, List.append_nil, List.append_assoc]
    exact met.symm
  have start := encode_isPrefix huffTree_codes.prefixFree words onTheWay
  have member := start.subset (List.mem_append_right _ List.mem_cons_self)
  obtain ⟨b, -, same⟩ := List.mem_map.mp member
  exact absurd same (ofByte_ne_eos b)

/-- The decoder is in its last state exactly when the end of the string has come among the words of
its input. -/
theorem huffRun_failed_iff (src : Bytes) :
    huffDecodeFailureState (huffRun huffDecodeContextInit src).1 = true ↔
      ∃ front rest, bytesBits src = huffBits front ++ (huffCode .eos ++ rest) := by
  have reached := huffRun_reached src
  generalize huffRun huffDecodeContextInit src = at_ at reached
  cases reached with
  | failed rest seen => exact iff_of_true rfl ⟨_, rest, seen⟩
  | @node fstate out path t there inner seen state accepted =>
      refine iff_of_false (fun failed => ?_) ?_
      · have last : fstate = 0x100 := of_decide_eq_true failed
        have small := number_lt there inner
        rw [← state, last] at small
        exact absurd small (by decide)
      · rintro ⟨front, rest, met⟩
        exact no_eos (huffTree_codes.open_of_walk there inner) (seen.symm.trans met)

/-- The decoder may end behind the text of a string, and nowhere else. -/
theorem huffRun_accepted_iff (text out : Bytes) :
    (huffRun huffDecodeContextInit text).1 &&& huffAccepted ≠ 0 ∧
      (huffRun huffDecodeContextInit text).2 = out ↔ text = huffText out := by
  have reached := huffRun_reached text
  generalize huffRun huffDecodeContextInit text = at_ at reached
  constructor
  · rintro ⟨accepted, rfl⟩
    cases reached with
    | failed seen => exact absurd lastState_rejects accepted
    | node there inner seen state final =>
        obtain ⟨k, few, rfl⟩ := final.mp accepted
        exact eq_packOnes few seen
  · rintro rfl
    rw [huffText, bytesBits_packOnes] at reached
    have padding : Padding (List.replicate
        (8 * (((huffBits out).length + 7) / 8) - (huffBits out).length) true) :=
      ⟨_, by omega, rfl⟩
    generalize List.replicate (8 * (((huffBits out).length + 7) / 8) - (huffBits out).length) true =
      ones at reached padding
    generalize bits : huffBits out ++ ones = all at reached
    cases reached with
    | failed rest seen => exact absurd (bits.trans seen) (no_eos (open_padding padding))
    | @node fstate out' path t there inner seen state final =>
        obtain ⟨same, rfl⟩ := encode_unique huffTree_codes.prefixFree (seen.symm.trans bits.symm)
          (huffTree_codes.open_of_walk there inner) (open_padding padding)
        exact ⟨final.mpr padding, List.map_injective_iff.mpr ofByte_injective same⟩

/-! ### Strings in parts

The decoder keeps its state between calls, so a string may come in any parts. -/

theorem huffByte_append (fstate : Nat) (front out : Bytes) (c : Byte) :
    huffByte (fstate, front ++ out) c =
      ((huffByte (fstate, out) c).1, front ++ (huffByte (fstate, out) c).2) := by
  have one (fstate : Nat) (out : Bytes) (bits : Nat) : huffStep (fstate, front ++ out) bits =
      ((huffStep (fstate, out) bits).1, front ++ (huffStep (fstate, out) bits).2) := by
    unfold huffStep
    dsimp only
    split
    · rw [List.append_assoc]
    · rfl
  rw [huffByte, one, one]
  rfl

theorem foldl_huffByte_append (src : Bytes) (fstate : Nat) (front out : Bytes) :
    src.foldl huffByte (fstate, front ++ out) =
      ((src.foldl huffByte (fstate, out)).1, front ++ (src.foldl huffByte (fstate, out)).2) := by
  induction src generalizing fstate out with
  | nil => rfl
  | cons c src ih =>
      rw [List.foldl_cons, List.foldl_cons, huffByte_append]
      exact ih _ _

/-- The decoder goes on where it stopped. -/
theorem huffRun_append (fstate : Nat) (front back : Bytes) :
    huffRun fstate (front ++ back) =
      ((huffRun (huffRun fstate front).1 back).1,
        (huffRun fstate front).2 ++ (huffRun (huffRun fstate front).1 back).2) := by
  rw [huffRun_eq, List.foldl_append, huffRun_eq, huffRun_eq]
  have whole := foldl_huffByte_append back (front.foldl huffByte (fstate, [])).1
    (front.foldl huffByte (fstate, [])).2 []
  rwa [List.append_nil] at whole

/-- What cannot be decoded any more never can. -/
theorem huffRun_failed (src : Bytes) : huffRun 0x100 src = (0x100, []) := by
  have step {bits : Nat} (nibble : bits < 16) : huffStep (0x100, []) bits = (0x100, []) := by
    have stays := List.all_eq_true.mp lastRow_stays bits (List.mem_range.mpr nibble)
    rw [huffStep, of_decide_eq_true stays]
    rfl
  have byte (c : Byte) : huffByte (0x100, []) c = (0x100, []) := by
    rw [huffByte, step (high_lt c), step (low_lt c)]
  rw [huffRun_eq]
  induction src with
  | nil => rfl
  | cons c src ih => rwa [List.foldl_cons, byte]

/-- The calls for a string that comes in parts: only the last one is final, and the caller stops
when the decoder has failed. -/
def huffDecodeParts (fstate : Nat) : List Bytes → Bytes → Except Int Bytes
  | [], last => do
      let run ← hdHuffDecode fstate last true
      .ok run.2
  | part :: parts, last => do
      let run ← hdHuffDecode fstate part false
      if huffDecodeFailureState run.1 then .error nghttp2ErrHeaderComp
      else do
        let out ← huffDecodeParts run.1 parts last
        .ok (run.2 ++ out)

/-- They decode what one call for the whole string decodes. -/
theorem huffDecodeParts_eq (fstate : Nat) (parts : List Bytes) (last : Bytes) :
    huffDecodeParts fstate parts last =
      (hdHuffDecode fstate (parts.flatten ++ last) true).map fun run => run.2 := by
  induction parts generalizing fstate with
  | nil => rfl
  | cons part parts ih =>
      rw [huffDecodeParts, List.flatten_cons, List.append_assoc]
      show (if huffDecodeFailureState (huffRun fstate part).1 then _ else _) = _
      by_cases failed : huffDecodeFailureState (huffRun fstate part).1 = true
      · have state : (huffRun fstate part).1 = 0x100 := of_decide_eq_true failed
        have whole := huffRun_append fstate part (parts.flatten ++ last)
        rw [state, huffRun_failed] at whole
        rw [if_pos failed, hdHuffDecode, whole]
        dsimp only
        rw [lastState_rejects]
        rfl
      · rw [if_neg failed, ih, hdHuffDecode, hdHuffDecode,
          huffRun_append fstate part (parts.flatten ++ last)]
        dsimp only
        split <;> rfl

/-- A string is decoded, in whatever parts it comes, if and only if its bytes are a Huffman text,
and then it is the string of that text. A call on any bytes leaves the decoder in its failure state
if and only if the end of the string has come among the words in these bytes. -/
theorem huffman_decodes_iff (parts : List Bytes) (last out : Bytes) :
    (huffDecodeParts huffDecodeContextInit parts last = .ok out ↔
        parts.flatten ++ last = huffText out) ∧
      ∀ src, ∃ run, hdHuffDecode huffDecodeContextInit src false = .ok run ∧
        (huffDecodeFailureState run.1 = true ↔
          ∃ front rest, bytesBits src = huffBits front ++ (huffCode .eos ++ rest)) := by
  constructor
  · rw [huffDecodeParts_eq, ← huffRun_accepted_iff, hdHuffDecode]
    by_cases accepted :
        (huffRun huffDecodeContextInit (parts.flatten ++ last)).1 &&& huffAccepted = 0
    · simp [accepted, Except.map]
    · simp [accepted, Except.map]
  · exact fun src => ⟨huffRun huffDecodeContextInit src, rfl, huffRun_failed_iff src⟩

end Hfc.Hpack
