/-
Module: Hfc.Proofs.Hpack.Inflating
Layer: Proofs
Purpose: The inflater takes the bytes of a representation for what it means: the loop returns the
  field it stands for, and the table becomes what the representation makes of it.
Imports: Hfc.Spec.Hpack.Representation, Hfc.Proofs.Hpack.FragmentedBlocks
Main exports: Leads, LoopEmits, InflaterHolds, inflate_tableSize, inflate_field, inflate_fields
-/
import Hfc.Spec.Hpack.Representation
import Hfc.Proofs.Hpack.FragmentedBlocks

namespace Hfc.Hpack

open ByteText BoundedFront

/-! ### The way of the loop

The loop followed forwards: from one state and input it leads to another, or emits a field. -/

/-- The loop goes on from the one place as from the other. -/
def Leads (i : HdInflater) (input : Bytes) (busy : Bool) (i' : HdInflater) (input' : Bytes)
    (busy' : Bool) : Prop :=
  ∀ rounds, stepsLeft i input busy < rounds → ∃ rounds', stepsLeft i' input' busy' < rounds' ∧
    inflateLoop rounds i input busy = inflateLoop rounds' i' input' busy'

/-- From here the loop comes to a header field. -/
def LoopEmits (i : HdInflater) (input : Bytes) (busy : Bool) (i' : HdInflater) (input' : Bytes)
    (nv : HdNv) : Prop :=
  ∀ rounds, stepsLeft i input busy < rounds → inflateLoop rounds i input busy = .emit i' input' nv

theorem Leads.round {i i' : HdInflater} {input input' : Bytes} {busy busy' : Bool}
    (more : input ≠ [] ∨ busy = true) (step : inflateStep i input = .again i' input' busy') :
    Leads i input busy i' input' busy' := by
  intro rounds enough
  cases rounds with
  | zero => exact absurd enough (Nat.not_lt_zero _)
  | succ rounds =>
      have spec := inflateStep_spec i input
      rw [step] at spec
      have fewer : stepsLeft i' input' busy' < stepsLeft i input busy :=
        Nat.lt_of_lt_of_le spec.1 (Nat.le_add_right _ _)
      refine ⟨rounds, by omega, ?_⟩
      rw [inflateLoop_round more, step]
      rfl

theorem LoopEmits.round {i i' : HdInflater} {input input' : Bytes} {busy : Bool} {nv : HdNv}
    (more : input ≠ [] ∨ busy = true) (step : inflateStep i input = .emit i' input' nv) :
    LoopEmits i input busy i' input' nv := by
  intro rounds enough
  cases rounds with
  | zero => exact absurd enough (Nat.not_lt_zero _)
  | succ rounds =>
      rw [inflateLoop_round more, step]
      rfl

theorem Leads.refl (i : HdInflater) (input : Bytes) (busy : Bool) : Leads i input busy i input busy :=
  fun rounds enough => ⟨rounds, enough, rfl⟩

theorem Leads.trans {i i' i'' : HdInflater} {input input' input'' : Bytes} {busy busy' busy'' : Bool}
    (first : Leads i input busy i' input' busy') (second : Leads i' input' busy' i'' input'' busy'') :
    Leads i input busy i'' input'' busy'' := by
  intro rounds enough
  obtain ⟨rounds', enough', same⟩ := first rounds enough
  obtain ⟨rounds'', enough'', same'⟩ := second rounds' enough'
  exact ⟨rounds'', enough'', same.trans same'⟩

theorem Leads.emits {i i' i'' : HdInflater} {input input' input'' : Bytes} {busy busy' : Bool}
    {nv : HdNv} (first : Leads i input busy i' input' busy')
    (second : LoopEmits i' input' busy' i'' input'' nv) : LoopEmits i input busy i'' input'' nv := by
  intro rounds enough
  obtain ⟨rounds', enough', same⟩ := first rounds enough
  exact same.trans (second rounds' enough')

/-! ### Numbers

A number that was written is read back, with any input behind it. -/

/-- The first byte of a number: the bits in front of it, and bits of the number. -/
theorem encodeLength_head (buf : Byte) (n prefixlen : Nat) :
    ∃ m tail, m ≤ fullPrefix prefixlen ∧ (n ≠ 0 → 0 < prefixlen → m ≠ 0) ∧
      encodeLength buf n prefixlen =
        ((buf &&& ~~~(UInt8.ofNat (fullPrefix prefixlen))) ||| UInt8.ofNat m) :: tail := by
  rw [encodeLength]
  by_cases short : n < fullPrefix prefixlen
  · rw [if_pos short]
    exact ⟨n, [], short.le, fun inPrefix _ => inPrefix, rfl⟩
  · rw [if_neg short]
    refine ⟨fullPrefix prefixlen, _, Nat.le_refl _, fun _ inPrefix => ?_, rfl⟩
    rw [fullPrefix, Nat.one_shiftLeft]
    have two := Nat.pow_le_pow_right (show 0 < 2 by decide) inPrefix
    omega

/-- A state that reads a number reads the one that was written. -/
theorem afterLen_encodeLength (inflater : HdInflater) {prefixlen maxlen n : Nat}
    (positive : 0 < prefixlen) (few : prefixlen ≤ 8) (nothingRead : inflater.left = 0)
    (fresh : inflater.shift = 0) (small : n < 2 ^ 32) (most : n ≤ maxlen) (buf : Byte) (rest : Bytes)
    (k : HdInflater → Bytes → InflateStep) :
    ∃ shift, afterLen inflater (encodeLength buf n prefixlen ++ rest) prefixlen maxlen k =
      k { inflater with left := n, shift := shift } rest := by
  obtain ⟨shift, read⟩ := (decodeLength_encodeLength positive few buf n rest).1 small
  refine ⟨shift, ?_⟩
  rw [afterLen, hdInflateReadLen, nothingRead, fresh, read]
  dsimp only
  rw [if_neg (not_lt.mpr most)]
  rfl

/-! ### Strings

A string is read in two steps, its length and its bytes, and is the same with the Huffman code or
without. -/

/-- What reading a string leaves as it is. -/
structure Carried (i i' : HdInflater) : Prop where
  ctx : i'.ctx = i.ctx
  opcode : i'.opcode = i.opcode
  index : i'.index = i.index
  indexRequired : i'.indexRequired = i.indexRequired
  noIndex : i'.noIndex = i.noIndex
  settings : i'.settingsHdTableBufsizeMax = i.settingsHdTableBufsizeMax
  least : i'.minHdTableBufsizeMax = i.minHdTableBufsizeMax

/-- The body of a string: what stands behind its length. -/
def stringBody (str : Bytes) : Bytes :=
  if (huffText str).length < str.length then huffText str else str

/-- A Huffman text is read to its end. -/
theorem hdInflateReadHuff_huffText {inflater : HdInflater} {str : Bytes}
    (start : inflater.huffDecodeCtx = huffDecodeContextInit)
    (left : inflater.left = (huffText str).length) (room : Nat) (rest : Bytes) :
    ∃ state, hdInflateReadHuff inflater { text := [], room := room } (huffText str ++ rest) =
      .ok ({ inflater with huffDecodeCtx := state, left := 0 },
        { text := str, room := room }, rest) := by
  obtain ⟨accepted, output⟩ := (huffRun_accepted_iff (huffText str) str).mpr rfl
  have whole : inflater.left ≤ (huffText str ++ rest).length := by
    rw [left, List.length_append]
    exact Nat.le_add_right _ _
  have going : huffDecodeFailureState (huffRun huffDecodeContextInit (huffText str)).1 = false := by
    refine decide_eq_false fun failed => accepted ?_
    rw [failed]
    rfl
  refine ⟨(huffRun huffDecodeContextInit (huffText str)).1, ?_⟩
  rw [hdInflateReadHuff_of_le whole, start, left, List.take_left, List.drop_left, hdHuffDecode]
  dsimp only
  rw [if_neg (by simp [accepted])]
  show (if _ = true then _ else _) = _
  rw [if_neg (by rw [going]; exact Bool.false_ne_true), output]
  rfl

/-- The bit in front of the length of a string. -/
def stringBit (str : Bytes) : Byte :=
  if (huffText str).length < str.length then 0x80 else 0

theorem stringBytes_eq (str : Bytes) :
    stringBytes str = encodeLength (stringBit str) (stringLength str) 7 ++ stringBody str := by
  rw [stringBytes, stringBit, stringBody, stringLength]
  split
  · rename_i shorter
    rw [Nat.min_eq_left shorter.le]
  · rename_i longer
    rw [Nat.min_eq_right (not_lt.mp longer)]

theorem length_stringBody (str : Bytes) : (stringBody str).length = stringLength str := by
  rw [stringBody, stringLength]
  split
  · rename_i shorter
    rw [Nat.min_eq_left shorter.le]
  · rename_i longer
    rw [Nat.min_eq_right (not_lt.mp longer)]

/-- The first byte of a string says whether it is a Huffman text. -/
theorem stringBytes_head (str : Bytes) :
    ∃ c tail, stringBytes str = c :: tail ∧
      decide (c.toNat &&& 1 <<< 7 ≠ 0) = decide ((huffText str).length < str.length) := by
  obtain ⟨m, tail, small, -, head⟩ := encodeLength_head (stringBit str) (stringLength str) 7
  have bits : ∀ m < 128, ∀ bit ∈ [(0x80 : Byte), 0],
      decide ((bit &&& ~~~(UInt8.ofNat (fullPrefix 7)) ||| UInt8.ofNat m).toNat &&& 1 <<< 7 ≠ 0) =
        decide (bit = 0x80) := by decide +kernel
  have known : stringBit str ∈ [(0x80 : Byte), 0] := by
    rw [stringBit]
    split <;> decide
  refine ⟨_, tail ++ stringBody str, by rw [stringBytes_eq, head]; rfl, ?_⟩
  rw [bits m (Nat.lt_succ_of_le small) _ known, stringBit]
  split
  · rename_i shorter
    exact (decide_eq_true shorter).symm
  · rename_i longer
    exact (decide_eq_false longer).symm

theorem stringBytes_ne_nil (str : Bytes) : stringBytes str ≠ [] := by
  obtain ⟨c, tail, head, -⟩ := stringBytes_head str
  rw [head]
  exact List.cons_ne_nil _ _

/-- An inflater that is about to read a string into `buf`. -/
structure AtString (i : HdInflater) (huff : Bool) (str : Bytes) (buf : HdBuf) : Prop where
  text : buf.text = []
  left : i.left = (stringBody str).length
  start : huff = true → i.huffDecodeCtx = huffDecodeContextInit
  isHuff : huff = decide ((huffText str).length < str.length)

/-- The length of a string, behind its first bit. -/
theorem inflateStringLen_string {inflater : HdInflater} {str : Bytes}
    (short : stringLength str ≤ hdMaxNv) (nothingRead : inflater.left = 0) (fresh : inflater.shift = 0)
    (bit : inflater.huffmanEncoded = decide ((huffText str).length < str.length)) (rest : Bytes)
    (next : Bool → HdInflater → HdBuf → HdInflater) (busy : Bool) :
    ∃ i huff buf, AtString i huff str buf ∧ Carried inflater i ∧ i.namebuf = inflater.namebuf ∧
      inflateStringLen inflater (stringBytes str ++ rest) next busy =
        .again (next huff i buf) (stringBody str ++ rest) busy := by
  have small : stringLength str < 2 ^ 32 := Nat.lt_of_le_of_lt short (by decide)
  obtain ⟨shift, read⟩ := afterLen_encodeLength inflater (show 0 < 7 by decide) (by decide)
    nothingRead fresh small short (stringBit str) (stringBody str ++ rest)
    (stringLenRead next busy)
  rw [inflateStringLen_eq, stringBytes_eq, List.append_assoc, read, stringLenRead]
  dsimp only
  cases huff : inflater.huffmanEncoded with
  | true =>
      rw [if_pos rfl]
      refine ⟨_, true, _, ?_, ?_, ?_, rfl⟩
      · exact ⟨rfl, (length_stringBody str).symm, fun _ => rfl, huff ▸ bit⟩
      · exact ⟨rfl, rfl, rfl, rfl, rfl, rfl, rfl⟩
      · rfl
  | false =>
      rw [if_neg Bool.false_ne_true]
      refine ⟨_, false, _, ?_, ?_, ?_, rfl⟩
      · exact ⟨rfl, (length_stringBody str).symm, fun no => (by cases no), huff ▸ bit⟩
      · exact ⟨rfl, rfl, rfl, rfl, rfl, rfl, rfl⟩
      · rfl

/-- A string that is read to its end, as a Huffman text or as it is. -/
theorem AtString.read {i : HdInflater} {str : Bytes} {buf : HdBuf}
    (rest : Bytes) :
    (AtString i true str buf → ∃ state,
      hdInflateReadHuff i buf (stringBody str ++ rest) =
        .ok ({ i with huffDecodeCtx := state, left := 0 }, { buf with text := str }, rest)) ∧
    (AtString i false str buf →
      hdInflateRead i buf (stringBody str ++ rest) =
        ({ i with left := 0 }, { buf with text := str }, rest)) := by
  constructor
  · intro at_
    have shorter := of_decide_eq_true at_.isHuff.symm
    have body : stringBody str = huffText str := if_pos shorter
    have left := at_.left
    rw [body] at left ⊢
    obtain ⟨state, read⟩ := hdInflateReadHuff_huffText (at_.start rfl) left buf.room rest
    have empty : buf = { text := [], room := buf.room } := by
      rw [← at_.text]
    rw [empty]
    exact ⟨state, read⟩
  · intro at_
    have longer := of_decide_eq_false at_.isHuff.symm
    have body : stringBody str = str := if_neg longer
    have left := at_.left
    rw [body] at left ⊢
    rw [hdInflateRead_of_le (by rw [left, List.length_append]; exact Nat.le_add_right _ _), left,
      List.take_left, List.drop_left, at_.text, List.nil_append]

/-- The start of a length looks at the first bit of the string. -/
theorem startLen_bit (inflater : HdInflater) (str rest : Bytes) (state : HdInflateState) :
    (inflater.startLen ((stringBytes str ++ rest).headD 0) state).huffmanEncoded =
      decide ((huffText str).length < str.length) := by
  obtain ⟨c, tail, head, bit⟩ := stringBytes_head str
  rw [head]
  exact bit

/-- The body of a name. -/
theorem inflateStep_name {j : HdInflater} {huff : Bool} {name : Bytes}
    (state : j.state = if huff then .newnameReadNamehuff else .newnameReadName)
    (at_ : AtString j huff name j.namebuf) (rest : Bytes) :
    ∃ i', inflateStep j (stringBody name ++ rest) = .again i' rest false ∧ Carried j i' ∧
      i'.namebuf.text = name ∧ i'.state = .checkValuelen := by
  cases huff with
  | true =>
      obtain ⟨st, read⟩ := (AtString.read rest).1 at_
      rw [if_pos rfl] at state
      refine ⟨{ j with
        huffDecodeCtx := st
        left := 0
        namebuf := { j.namebuf with text := name }
        state := .checkValuelen }, ?_, ⟨rfl, rfl, rfl, rfl, rfl, rfl, rfl⟩, rfl, rfl⟩
      simp only [inflateStep, state, read]
      rfl
  | false =>
      have read := (AtString.read rest).2 at_
      rw [if_neg Bool.false_ne_true] at state
      refine ⟨{ j with
        left := 0
        namebuf := { j.namebuf with text := name }
        state := .checkValuelen }, ?_, ⟨rfl, rfl, rfl, rfl, rfl, rfl, rfl⟩, rfl, rfl⟩
      simp only [inflateStep, state, read]
      rfl

/-- The body of a value, and what is done behind it. -/
theorem inflateStep_value {j : HdInflater} {huff : Bool} {value : Bytes}
    (state : j.state = if huff then .readValuehuff else .readValue)
    (at_ : AtString j huff value j.valuebuf) (rest : Bytes) :
    ∃ i', inflateStep j (stringBody value ++ rest) = valueCommit i' rest ∧ Carried j i' ∧
      i'.valuebuf.text = value ∧ i'.namebuf = j.namebuf := by
  cases huff with
  | true =>
      obtain ⟨st, read⟩ := (AtString.read rest).1 at_
      rw [if_pos rfl] at state
      refine ⟨{ j with
        huffDecodeCtx := st
        left := 0
        valuebuf := { j.valuebuf with text := value } }, ?_, ⟨rfl, rfl, rfl, rfl, rfl, rfl, rfl⟩, rfl,
        rfl⟩
      simp only [inflateStep, state, read]
      rfl
  | false =>
      have read := (AtString.read rest).2 at_
      rw [if_neg Bool.false_ne_true] at state
      refine ⟨{ j with
        left := 0
        valuebuf := { j.valuebuf with text := value } }, ?_, ⟨rfl, rfl, rfl, rfl, rfl, rfl, rfl⟩, rfl,
        rfl⟩
      simp only [inflateStep, state, read]
      rfl

/-- The loop reads a name. -/
theorem leads_name {i : HdInflater} (state : i.state = .newnameCheckNamelen) {name : Bytes}
    (short : stringLength name ≤ hdMaxNv) {rest : Bytes} (more : rest ≠ []) :
    ∃ i', Leads i (stringBytes name ++ rest) false i' rest false ∧ Carried i i' ∧
      i'.namebuf.text = name ∧ i'.state = .checkValuelen := by
  have nonempty : stringBytes name ++ rest ≠ [] := List.append_ne_nil_of_right_ne_nil _ more
  obtain ⟨j, huff, buf, at_, carried, -, step⟩ := inflateStringLen_string short rfl rfl
    (startLen_bit i name rest .newnameReadNamelen) rest (fun huffman inflater buf =>
    { inflater with
      namebuf := buf
      state := if huffman then .newnameReadNamehuff else .newnameReadName }) false
  have first : inflateStep i (stringBytes name ++ rest) = .again
      { j with
        namebuf := buf
        state := if huff then .newnameReadNamehuff else .newnameReadName }
      (stringBody name ++ rest) false := by
    simp only [inflateStep, state]
    exact step
  obtain ⟨i', second, carried', text, state'⟩ := inflateStep_name
    (j := { j with
      namebuf := buf
      state := if huff then .newnameReadNamehuff else .newnameReadName })
    rfl ⟨at_.text, at_.left, at_.start, at_.isHuff⟩ rest
  refine ⟨i', (Leads.round (.inl nonempty) first).trans (.round (.inl ?_) second), ?_, text, state'⟩
  · exact List.append_ne_nil_of_right_ne_nil _ more
  · exact ⟨carried'.ctx.trans carried.ctx, carried'.opcode.trans carried.opcode,
      carried'.index.trans carried.index, carried'.indexRequired.trans carried.indexRequired,
      carried'.noIndex.trans carried.noIndex, carried'.settings.trans carried.settings,
      carried'.least.trans carried.least⟩

/-- The loop reads a value, and returns the field it belongs to. -/
theorem emits_value {i : HdInflater} (state : i.state = .checkValuelen) {value : Bytes}
    (short : stringLength value ≤ hdMaxNv) (rest : Bytes) :
    ∃ i', Carried i i' ∧ i'.valuebuf.text = value ∧ i'.namebuf = i.namebuf ∧
      ∀ i'' nv, valueCommit i' rest = .emit i'' rest nv →
        LoopEmits i (stringBytes value ++ rest) false i'' rest nv := by
  have nonempty : stringBytes value ++ rest ≠ [] :=
    List.append_ne_nil_of_left_ne_nil (stringBytes_ne_nil value) _
  obtain ⟨j, huff, buf, at_, carried, name, step⟩ := inflateStringLen_string short rfl rfl
    (startLen_bit i value rest .readValuelen) rest (fun huffman inflater buf =>
    { inflater with
      valuebuf := buf
      state := if huffman then .readValuehuff else .readValue }) true
  have first : inflateStep i (stringBytes value ++ rest) = .again
      { j with
        valuebuf := buf
        state := if huff then .readValuehuff else .readValue }
      (stringBody value ++ rest) true := by
    simp only [inflateStep, state]
    exact step
  obtain ⟨i', second, carried', text, name'⟩ := inflateStep_value
    (j := { j with
      valuebuf := buf
      state := if huff then .readValuehuff else .readValue })
    rfl ⟨at_.text, at_.left, at_.start, at_.isHuff⟩ rest
  refine ⟨i', ?_, text, name'.trans name, fun i'' nv commits => ?_⟩
  · exact ⟨carried'.ctx.trans carried.ctx, carried'.opcode.trans carried.opcode,
      carried'.index.trans carried.index, carried'.indexRequired.trans carried.indexRequired,
      carried'.noIndex.trans carried.noIndex, carried'.settings.trans carried.settings,
      carried'.least.trans carried.least⟩
  · exact (Leads.round (.inl nonempty) first).emits (.round (.inr rfl) (second.trans commits))

/-! ### Representations

From the state between two fields, the bytes of a representation lead to the field it stands for and
to the table it leaves. -/

/-- An inflater holds a table. -/
structure InflaterHolds (inflater : HdInflater) (table : FieldTable) : Prop where
  holds : TableHolds inflater.ctx table.fields
  most : inflater.ctx.hdTableBufsizeMax = table.most

/-- What a field leaves as it is of an inflater. -/
structure InflaterSame (i i' : HdInflater) : Prop where
  settings : i'.settingsHdTableBufsizeMax = i.settingsHdTableBufsizeMax
  least : i'.minHdTableBufsizeMax = i.minHdTableBufsizeMax
  bad : i'.ctx.bad = i.ctx.bad

/-- A state in which a representation may begin. -/
def HdInflateState.begins (state : HdInflateState) : Prop :=
  state = .opcode ∨ state = .inflateStart

theorem inflateStep_begins {i : HdInflater} (begins : i.state.begins) (input : Bytes) :
    inflateStep i input = inflateOpcode i (input.headD 0) input := by
  rcases begins with state | state <;> simp only [inflateStep, state]

theorem inflateStep_expect {i : HdInflater} (state : i.state = .expectTableSize) (input : Bytes) :
    inflateStep i input =
      if (input.headD 0).toNat &&& 0xe0 ≠ 0x20 then .fail i nghttp2ErrHeaderComp
      else inflateOpcode i (input.headD 0) input := by
  simp only [inflateStep, state]

/-- The bits of a first byte. -/
theorem firstBits_tableSize : ∀ m < 32,
    ((0x20 : Byte) &&& ~~~(UInt8.ofNat (fullPrefix 5)) ||| UInt8.ofNat m).toNat &&& 0xe0 = 0x20 := by
  decide +kernel

theorem firstBits_indexed : ∀ m < 128,
    ((0x80 : Byte) &&& ~~~(UInt8.ofNat (fullPrefix 7)) ||| UInt8.ofNat m).toNat &&& 0xe0 ≠ 0x20 ∧
      ((0x80 : Byte) &&& ~~~(UInt8.ofNat (fullPrefix 7)) ||| UInt8.ofNat m).toNat &&& 0x80 ≠ 0 := by
  decide +kernel

/-- What the first byte of a field with the name of another says. -/
def firstOfMode (mode : IndexingMode) (c : Byte) : Bool :=
  c.toNat &&& 0xe0 ≠ 0x20 && c.toNat &&& 0x80 = 0 &&
    decide (c.toNat &&& 0x40 ≠ 0) == decide (mode = .withIndexing) &&
    decide (c.toNat &&& 0xf0 = 0x10) == decide (mode = .neverIndexing)

theorem firstBits_indname (mode : IndexingMode) : ∀ m < 2 ^ indexBits mode, m ≠ 0 →
    firstOfMode mode ((packFirstByte mode &&& ~~~(UInt8.ofNat (fullPrefix (indexBits mode)))) |||
        UInt8.ofNat m) = true ∧
      ¬(((packFirstByte mode &&& ~~~(UInt8.ofNat (fullPrefix (indexBits mode)))) |||
          UInt8.ofNat m) = 0x40 ∨
        ((packFirstByte mode &&& ~~~(UInt8.ofNat (fullPrefix (indexBits mode)))) |||
          UInt8.ofNat m) = 0 ∨
        ((packFirstByte mode &&& ~~~(UInt8.ofNat (fullPrefix (indexBits mode)))) |||
          UInt8.ofNat m) = 0x10) := by
  cases mode <;> decide +kernel

theorem firstBits_newname (mode : IndexingMode) : firstOfMode mode (packFirstByte mode) = true ∧
    (packFirstByte mode = 0x40 ∨ packFirstByte mode = 0 ∨ packFirstByte mode = 0x10) := by
  cases mode <;> decide

/-- The state behind the first byte of a field that came in a mode. -/
def HdInflater.inMode (i : HdInflater) (mode : IndexingMode) (opcode : HdOpcode)
    (state : HdInflateState) : HdInflater :=
  { i with
    left := 0
    shift := 0
    indexRequired := decide (mode = .withIndexing)
    noIndex := decide (mode = .neverIndexing)
    opcode := opcode
    state := state }

theorem inflateOpcode_mode {i : HdInflater} {mode : IndexingMode} {c : Byte}
    (first : firstOfMode mode c = true) (input : Bytes) :
    inflateOpcode i c input =
      if c = 0x40 ∨ c = 0 ∨ c = 0x10 then
        .again (i.inMode mode .newname .newnameCheckNamelen) (input.drop 1) false
      else .again (i.inMode mode .indname .readIndex) input false := by
  simp only [firstOfMode, Bool.and_eq_true, decide_eq_true_eq, beq_iff_eq] at first
  obtain ⟨⟨⟨notSize, notIndexed⟩, required⟩, never⟩ := first
  rw [inflateOpcode, if_neg notSize, if_neg (not_not.mpr notIndexed)]
  dsimp only
  rw [required, never]
  simp only [Bool.or_eq_true, decide_eq_true_eq, or_assoc]
  rfl

/-- A field of a table is returned, and the table stays as it is. -/
theorem inflate_indexed {i : HdInflater} {table : FieldTable} (holds : InflaterHolds i table)
    (begins : i.state.begins) (few : table.fields.length + staticTableLength < 2 ^ 32) {idx : Nat}
    {field : HdNv} (found : getField table.fields idx = some field) (rest : Bytes) :
    ∃ i', LoopEmits i ((Representation.indexed idx).bytes ++ rest) false i' rest field ∧
      InflaterHolds i' table ∧ i'.state = .opcode ∧ InflaterSame i i' := by
  have inside := lt_of_getField found
  obtain ⟨m, tail, small, -, head⟩ := encodeLength_head 0x80 (idx + 1) 7
  obtain ⟨notSize, indexed⟩ := firstBits_indexed m (Nat.lt_succ_of_le small)
  have most : idx + 1 ≤ getMaxIndex i.ctx := by
    rw [getMaxIndex, holds.holds.len]
    omega
  have opcode : inflateStep i ((Representation.indexed idx).bytes ++ rest) =
      .again { i with left := 0, shift := 0, opcode := .indexed, state := .readIndex }
        ((Representation.indexed idx).bytes ++ rest) false := by
    rw [inflateStep_begins begins, Representation.bytes, head, List.cons_append, List.headD_cons,
      inflateOpcode, if_neg notSize, if_pos indexed]
  obtain ⟨shift, read⟩ := afterLen_encodeLength
    { i with left := 0, shift := 0, opcode := .indexed, state := .readIndex }
    (show 0 < 7 by decide) (by decide) rfl rfl (show idx + 1 < 2 ^ 32 by omega) most 0x80 rest
    indexRead
  have emit : indexRead { i with
      left := idx + 1, shift := shift, opcode := .indexed, state := .readIndex } rest =
      .emit { i with
        left := idx + 1, shift := shift, opcode := .indexed, state := .opcode, index := idx } rest
        field := by
    rw [indexRead]
    dsimp only
    rw [if_neg (Nat.succ_ne_zero idx), if_pos rfl, Nat.add_sub_cancel, hdTableGet_eq holds.holds,
      found]
  have nonempty : (Representation.indexed idx).bytes ++ rest ≠ [] := by
    rw [Representation.bytes, head]
    exact List.cons_ne_nil _ _
  have second : inflateStep { i with left := 0, shift := 0, opcode := .indexed, state := .readIndex }
      ((Representation.indexed idx).bytes ++ rest) = .emit { i with
        left := idx + 1, shift := shift, opcode := .indexed, state := .opcode, index := idx } rest
        field := by
    simp only [inflateStep, inflateIndex_eq]
    exact read.trans emit
  exact ⟨{ i with
    left := idx + 1, shift := shift, opcode := .indexed, state := .opcode, index := idx },
    (Leads.round (.inl nonempty) opcode).emits (.round (.inl nonempty) second),
    ⟨holds.holds, holds.most⟩,
    rfl, ⟨rfl, rfl, rfl⟩⟩

/-- A field is put into the table, if its mode says so. -/
theorem InflaterHolds.index {i : HdInflater} {table : FieldTable} (holds : InflaterHolds i table)
    (mode : IndexingMode) (required : i.indexRequired = decide (mode = .withIndexing)) (nv : HdNv) :
    InflaterHolds { i.indexNv nv with state := .opcode } (table.index mode nv) ∧
      InflaterSame i { i.indexNv nv with state := .opcode } := by
  rw [HdInflater.indexNv, FieldTable.index, required]
  by_cases isWith : mode = .withIndexing
  · have added := holds.holds.add (show MapHolds none _ from fun m noMap => (by cases noMap)) nv 0
    rw [holds.most] at added
    rw [if_pos isWith, if_pos (decide_eq_true isWith)]
    exact ⟨⟨added.holds, added.most.trans holds.most⟩, rfl, rfl, added.bad⟩
  · rw [if_neg isWith, if_neg (by simp [isWith])]
    exact ⟨⟨holds.holds, holds.most⟩, rfl, rfl, rfl⟩

theorem nvFlags_eq {i : HdInflater} {mode : IndexingMode}
    (never : i.noIndex = decide (mode = .neverIndexing)) : i.nvFlags = mode.flags := by
  rw [HdInflater.nvFlags, IndexingMode.flags, never]
  simp only [decide_eq_true_eq]

/-- A field with a new name. -/
theorem inflate_newname {i : HdInflater} {table : FieldTable} (holds : InflaterHolds i table)
    (begins : i.state.begins) (mode : IndexingMode) {name value : Bytes}
    (nameShort : stringLength name ≤ hdMaxNv) (valueShort : stringLength value ≤ hdMaxNv)
    (rest : Bytes) :
    let field := HdNv.mk name value (lookupToken name) mode.flags
    ∃ i', LoopEmits i ((Representation.newname mode name value).bytes ++ rest) false i' rest field ∧
      InflaterHolds i' (table.index mode field) ∧ i'.state = .opcode ∧ InflaterSame i i' := by
  intro field
  -- The first byte carries the mode only, and both strings follow it.
  obtain ⟨first, isNew⟩ := firstBits_newname mode
  have bytes : (Representation.newname mode name value).bytes ++ rest =
      packFirstByte mode :: (stringBytes name ++ (stringBytes value ++ rest)) := by
    rw [Representation.bytes, List.cons_append, List.append_assoc]
  have opcode : inflateStep i ((Representation.newname mode name value).bytes ++ rest) =
      .again (i.inMode mode .newname .newnameCheckNamelen)
        (stringBytes name ++ (stringBytes value ++ rest)) false := by
    rw [inflateStep_begins begins, bytes, List.headD_cons, inflateOpcode_mode first, if_pos isNew]
    rfl
  obtain ⟨j, toValue, carried, text, state⟩ := leads_name
    (i := i.inMode mode .newname .newnameCheckNamelen) rfl nameShort
    (List.append_ne_nil_of_left_ne_nil (stringBytes_ne_nil value) rest)
  obtain ⟨j', carried', text', name', emits⟩ := emits_value state valueShort rest
  -- The field is made of the two buffers, with the flag of its mode.
  have newname : j'.opcode = .newname := carried'.opcode.trans carried.opcode
  have isField : hdInflateCommitNewname j' = (j'.indexNv field, field) := by
    have never : j'.noIndex = decide (mode = .neverIndexing) :=
      carried'.noIndex.trans carried.noIndex
    rw [hdInflateCommitNewname, text', name', text, nvFlags_eq never]
  have commits :
      valueCommit j' rest = .emit { j'.indexNv field with state := .opcode } rest field := by
    rw [valueCommit, if_pos newname, isField]
  have holds' : InflaterHolds j' table := by
    have same : j'.ctx = i.ctx := carried'.ctx.trans carried.ctx
    refine ⟨?_, ?_⟩
    · rw [same]
      exact holds.holds
    · rw [same]
      exact holds.most
  obtain ⟨indexed, same⟩ := holds'.index mode
    (carried'.indexRequired.trans carried.indexRequired) field
  have nonempty : (Representation.newname mode name value).bytes ++ rest ≠ [] := by
    rw [bytes]
    exact List.cons_ne_nil _ _
  refine ⟨{ j'.indexNv field with state := .opcode },
    -- the round for the first byte, those for the name and those for the value
    (Leads.round (.inl nonempty) opcode).emits (toValue.emits (emits _ _ commits)), indexed, rfl, ?_⟩
  exact ⟨same.settings.trans (carried'.settings.trans carried.settings),
    same.least.trans (carried'.least.trans carried.least),
    same.bad.trans (congrArg HdContext.bad (carried'.ctx.trans carried.ctx))⟩

/-- A field with the name of another. -/
theorem inflate_indname {i : HdInflater} {table : FieldTable} (holds : InflaterHolds i table)
    (begins : i.state.begins) (few : table.fields.length + staticTableLength < 2 ^ 32)
    (mode : IndexingMode) {idx : Nat} {found : HdNv} (inTable : getField table.fields idx = some found)
    {value : Bytes} (short : stringLength value ≤ hdMaxNv) (rest : Bytes) :
    let field := { found with value := value, flags := mode.flags }
    ∃ i', LoopEmits i ((Representation.indname mode idx value).bytes ++ rest) false i' rest field ∧
      InflaterHolds i' (table.index mode field) ∧ i'.state = .opcode ∧ InflaterSame i i' := by
  intro field
  -- The first byte carries the mode and the front of the index, and is looked at twice: once for
  -- the mode, and again by the reader of numbers.
  have inside := lt_of_getField inTable
  have positive : 0 < indexBits mode ∧ indexBits mode ≤ 8 := by cases mode <;> decide
  obtain ⟨m, tail, small, fitsMode, head⟩ :=
    encodeLength_head (packFirstByte mode) (idx + 1) (indexBits mode)
  have least := Nat.two_pow_pos (indexBits mode)
  have small : m < 2 ^ indexBits mode := by
    rw [fullPrefix, Nat.one_shiftLeft] at small
    omega
  obtain ⟨first, notNew⟩ :=
    firstBits_indname mode m small (fitsMode (Nat.succ_ne_zero idx) positive.1)
  have bytes : (Representation.indname mode idx value).bytes ++ rest =
      encodeLength (packFirstByte mode) (idx + 1) (indexBits mode) ++ (stringBytes value ++ rest) := by
    rw [Representation.bytes, List.append_assoc]
  have opcode : inflateStep i ((Representation.indname mode idx value).bytes ++ rest) =
      .again (i.inMode mode .indname .readIndex)
        ((Representation.indname mode idx value).bytes ++ rest) false := by
    rw [inflateStep_begins begins, bytes, head, List.cons_append, List.headD_cons,
      inflateOpcode_mode first, if_neg notNew]
  have bits : (i.inMode mode .indname .readIndex).indexPrefix = indexBits mode := by
    cases mode <;> rfl
  have most : idx + 1 ≤ getMaxIndex (i.inMode mode .indname .readIndex).ctx := by
    show idx + 1 ≤ getMaxIndex i.ctx
    rw [getMaxIndex, holds.holds.len]
    omega
  -- The index is inside the tables, so the reader takes it.
  obtain ⟨shift, read⟩ := afterLen_encodeLength (i.inMode mode .indname .readIndex) positive.1
    positive.2 rfl rfl (show idx + 1 < 2 ^ 32 by omega) most (packFirstByte mode)
    (stringBytes value ++ rest) indexRead
  have index : inflateStep (i.inMode mode .indname .readIndex)
      ((Representation.indname mode idx value).bytes ++ rest) =
      .again { i.inMode mode .indname .checkValuelen with
        left := idx + 1, shift := shift, index := idx } (stringBytes value ++ rest) false := by
    have step : inflateStep (i.inMode mode .indname .readIndex)
        ((Representation.indname mode idx value).bytes ++ rest) =
        inflateIndex (i.inMode mode .indname .readIndex)
          ((Representation.indname mode idx value).bytes ++ rest) := rfl
    rw [step, inflateIndex_eq, bits, bytes, read, indexRead]
    rfl
  obtain ⟨j, carried, text, -, emits⟩ := emits_value
    (i := { i.inMode mode .indname .checkValuelen with
      left := idx + 1, shift := shift, index := idx }) rfl short rest
  have indname : j.opcode = .indname := carried.opcode
  have sameContext : j.ctx = i.ctx := carried.ctx
  -- The name is the one at this index, the value the one that was read.
  have isField : hdInflateCommitIndname j = some (j.indexNv field, field) := by
    have never : j.noIndex = decide (mode = .neverIndexing) := carried.noIndex
    have isIndex : j.index = idx := carried.index
    rw [hdInflateCommitIndname, isIndex, sameContext, hdTableGet_eq holds.holds, inTable,
      Option.map_some, text, nvFlags_eq never]
  have commits : valueCommit j rest = .emit { j.indexNv field with state := .opcode } rest field := by
    rw [valueCommit, if_neg (by rw [indname]; decide), isField]
  have holds' : InflaterHolds j table := by
    refine ⟨?_, ?_⟩
    · rw [sameContext]
      exact holds.holds
    · rw [sameContext]
      exact holds.most
  obtain ⟨indexed, same⟩ := holds'.index _ carried.indexRequired field
  have begun : (Representation.indname mode idx value).bytes ++ rest ≠ [] := by
    rw [bytes, head]
    exact List.cons_ne_nil _ _
  refine ⟨{ j.indexNv field with state := .opcode }, (Leads.round (.inl begun) opcode).emits
    ((Leads.round (.inl begun) index).emits (emits _ _ commits)), indexed, rfl, ?_⟩
  exact ⟨same.settings.trans carried.settings, same.least.trans carried.least,
    same.bad.trans (congrArg HdContext.bad sameContext)⟩

/-- A representation of a field. -/
theorem inflate_field {i : HdInflater} {table table' : FieldTable} (holds : InflaterHolds i table)
    (begins : i.state.begins) (few : table.fields.length + staticTableLength < 2 ^ 32)
    {rep : Representation} (readable : rep.Readable) {field : Option HdNv}
    (means : rep.apply table = some (table', field)) (rest : Bytes) :
    ∃ nv i', field = some nv ∧ LoopEmits i (rep.bytes ++ rest) false i' rest nv ∧
      InflaterHolds i' table' ∧ i'.state = .opcode ∧ InflaterSame i i' := by
  cases rep with
  | tableSize size => exact readable.elim
  | indexed idx =>
      obtain ⟨nv, found, same⟩ := Option.map_eq_some_iff.mp means
      cases same
      obtain ⟨i', spec⟩ := inflate_indexed holds begins few found rest
      exact ⟨nv, i', rfl, spec⟩
  | indname mode idx value =>
      obtain ⟨found, inTable, same⟩ := Option.map_eq_some_iff.mp means
      cases same
      obtain ⟨i', spec⟩ := inflate_indname holds begins few mode inTable readable rest
      exact ⟨_, i', rfl, spec⟩
  | newname mode name value =>
      cases means
      obtain ⟨i', spec⟩ := inflate_newname holds begins mode readable.1 readable.2 rest
      exact ⟨_, i', rfl, spec⟩

/-- A table size is taken over, if it is within the limits. -/
theorem inflate_tableSize {i : HdInflater} {table : FieldTable} (holds : InflaterHolds i table)
    (begins : i.state = .expectTableSize ∨ i.state = .inflateStart) {size : Nat}
    (small : size < 2 ^ 32) (limit : size ≤ min i.minHdTableBufsizeMax i.settingsHdTableBufsizeMax)
    (rest : Bytes) :
    ∃ i', Leads i ((Representation.tableSize size).bytes ++ rest) false i' rest false ∧
      InflaterHolds i' { most := size, fields := fit fieldRoom size table.fields } ∧
      i'.state = .inflateStart ∧ i'.minHdTableBufsizeMax = uint32Max ∧
      i'.settingsHdTableBufsizeMax = i.settingsHdTableBufsizeMax ∧ i'.ctx.bad = i.ctx.bad := by
  obtain ⟨m, tail, most, -, head⟩ := encodeLength_head 0x20 size 5
  have isSize := firstBits_tableSize m (Nat.lt_succ_of_le most)
  have opcode : inflateStep i ((Representation.tableSize size).bytes ++ rest) =
      .again { i with left := 0, shift := 0, opcode := .indexed, state := .readTableSize }
        ((Representation.tableSize size).bytes ++ rest) false := by
    have isOpcode : inflateOpcode i (((0x20 : Byte) &&& ~~~(UInt8.ofNat (fullPrefix 5))) |||
        UInt8.ofNat m) ((Representation.tableSize size).bytes ++ rest) =
        .again { i with left := 0, shift := 0, opcode := .indexed, state := .readTableSize }
          ((Representation.tableSize size).bytes ++ rest) false := by
      rw [inflateOpcode, if_pos isSize, if_neg]
      rcases begins with state | state <;> rw [state] <;> decide
    have isHead : ((Representation.tableSize size).bytes ++ rest).headD 0 =
        ((0x20 : Byte) &&& ~~~(UInt8.ofNat (fullPrefix 5))) ||| UInt8.ofNat m := by
      rw [Representation.bytes, head]
      rfl
    rcases begins with state | state
    · rw [inflateStep_expect state, isHead, if_neg (not_not.mpr isSize)]
      exact isOpcode
    · rw [inflateStep_begins (.inr state), isHead]
      exact isOpcode
  obtain ⟨shift, read⟩ := afterLen_encodeLength
    { i with left := 0, shift := 0, opcode := .indexed, state := .readTableSize }
    (show 0 < 5 by decide) (by decide) rfl rfl small limit 0x20 rest tableSizeRead
  have begun : (Representation.tableSize size).bytes ++ rest ≠ [] := by
    rw [Representation.bytes, head]
    exact List.cons_ne_nil _ _
  have holds' : TableHolds { i.ctx with hdTableBufsizeMax := size } table.fields :=
    ⟨holds.holds.nvs, holds.holds.size, holds.holds.refs, holds.holds.seqs, holds.holds.next⟩
  have evicted := holds'.shrink (show MapHolds none _ from fun m noMap => (by cases noMap))
  refine ⟨_, (Leads.round (.inl begun) opcode).trans (.round (.inl begun) read), ?_, rfl, rfl, rfl,
    evicted.same.bad⟩
  exact ⟨evicted.holds, evicted.same.most⟩

/-! ### Blocks

A whole block by induction on its representations. -/

theorem rep_ne_nil (rep : Representation) : rep.bytes ≠ [] := by
  cases rep with
  | tableSize size =>
      obtain ⟨m, tail, -, -, head⟩ := encodeLength_head 0x20 size 5
      rw [Representation.bytes, head]
      exact List.cons_ne_nil _ _
  | indexed idx =>
      obtain ⟨m, tail, -, -, head⟩ := encodeLength_head 0x80 (idx + 1) 7
      rw [Representation.bytes, head]
      exact List.cons_ne_nil _ _
  | indname mode idx value =>
      exact List.append_ne_nil_of_right_ne_nil _ (stringBytes_ne_nil value)
  | newname mode name value => exact List.cons_ne_nil _ _

/-- The callers' loop follows the loop. -/
theorem Leads.block {i i' : HdInflater} {input input' : Bytes}
    (leads : Leads i input false i' input' false) (good : i.ctx.bad = false)
    (good' : i'.ctx.bad = false) (rounds : Nat) (final : Bool) :
    inflateBlockLoop (rounds + 1) i input final = inflateBlockLoop (rounds + 1) i' input' final := by
  obtain ⟨rounds', enough, same⟩ := leads (inflateRounds input) (stepsLeft_lt i input)
  rw [inflateBlockLoop_succ good, inflateBlockLoop_succ good', same,
    inflateLoop_rounds enough (stepsLeft_lt i' input')]

/-- The fields of a block are those its representations stand for. -/
theorem inflate_fields {rounds : Nat} {i : HdInflater} {table table' : FieldTable}
    (holds : InflaterHolds i table) (begins : i.state.begins) (good : i.ctx.bad = false)
    (light : weight fieldRoom table.fields ≤ table.most) (small : table.most < 2 ^ 32)
    {reps : List Representation} (readable : ∀ rep ∈ reps, rep.Readable) {fields : List HdNv}
    (means : applyAll table reps = some (table', fields))
    (enough : (blockBytes reps).length < rounds) :
    ∃ i', inflateBlockLoop rounds i (blockBytes reps) true =
        { inflater := i', headers := fields, error := none } ∧
      InflaterHolds i' table' ∧ i'.state = .inflateStart ∧ InflaterSame i i' := by
  -- Induction on the representations, with one call of the callers' loop for each.
  induction reps generalizing rounds i table fields with
  | nil =>
      cases means
      cases rounds with
      | zero => exact absurd enough (Nat.not_lt_zero _)
      | succ rounds =>
          have ends : inflateLoop (inflateRounds []) i [] false = .again i [] false := rfl
          have complete : ¬(true && i.state ≠ .opcode && i.state ≠ .inflateStart) = true := by
            rcases begins with state | state <;> rw [state] <;> decide
          -- nothing is left, and the block ends between two fields
          refine ⟨hdInflateEndHeaders i, ?_, ⟨holds.holds, holds.most⟩, rfl, rfl, rfl, rfl⟩
          rw [blockBytes_nil, inflateBlockLoop_succ good, ends, blockGoOn, if_neg complete, if_pos rfl]
  | cons rep reps ih =>
      cases rounds with
      | zero => exact absurd enough (Nat.not_lt_zero _)
      | succ rounds =>
          obtain ⟨⟨table₁, field⟩, here, rest⟩ := Option.bind_eq_some_iff.mp means
          obtain ⟨⟨t, later⟩, there, rest⟩ := Option.bind_eq_some_iff.mp rest
          cases rest
          have first := readable rep List.mem_cons_self
          have few : table.fields.length + staticTableLength < 2 ^ 32 := by
            have length := length_le_weight table.fields
            rw [staticTableLength]
            omega
          -- this call emits the field of the first representation, the induction gives the later
          -- ones
          obtain ⟨nv, i₁, rfl, emits, holds₁, state₁, same₁⟩ :=
            inflate_field holds begins few first here (blockBytes reps)
          obtain ⟨light₁, most₁⟩ := apply_light first.isField here light
          have shorter : (blockBytes reps).length < rounds := by
            rw [blockBytes_cons, List.length_append] at enough
            have nonempty := List.length_pos_iff.mpr (rep_ne_nil rep)
            omega
          obtain ⟨i', block, holds', state', same'⟩ := ih holds₁ (.inl state₁)
            (same₁.bad.trans good) light₁ (most₁ ▸ small)
            (fun rep member => readable rep (List.mem_cons_of_mem _ member)) there shorter
          refine ⟨i', ?_, holds', state', same'.settings.trans same₁.settings,
            same'.least.trans same₁.least, same'.bad.trans same₁.bad⟩
          rw [blockBytes_cons, inflateBlockLoop_succ good, emits _ (stepsLeft_lt _ _), blockGoOn,
            block]
          rfl

end Hfc.Hpack
