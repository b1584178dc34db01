/-
Module: Hfc.Proofs.Hpack.InflaterSafety
Layer: Proofs
Purpose: Whatever a peer sends, the inflater writes a name or a value only into the room that was
  allocated for it, its table takes no more room than the last limit allows, and no assertion of it
  fails.
Imports: Hfc.Proofs.Hpack.FragmentedBlocks
Main exports: InflaterFits, InflaterSafe, SafeStep, StringRoom, inflateStep_safe, InflateMove,
  HdInflater.move, HdInflater.calls_moves, InflaterKept, InflaterInside, inflater_safe
-/
import Hfc.Proofs.Hpack.FragmentedBlocks

namespace Hfc.Hpack

open ByteText BoundedFront

/-! ### The invariant

The room of the buffers covers what is left to read, the table is within its limits, and the state
says which of the two a round may write to. -/

/-- The name of the field that is read is at hand: it was read, or it is that of an entry. -/
def HdInflater.NameKnown (inflater : HdInflater) : Prop :=
  inflater.opcode ≠ .newname → inflater.index < getMaxIndex inflater.ctx

/-- What each state can rely on. A Huffman text puts out two bytes at most for one, and behind a
string there is a byte for the NUL. -/
def HdInflater.Phase (inflater : HdInflater) : Prop :=
  match inflater.state with
  | .newnameCheckNamelen => inflater.opcode = .newname
  | .newnameReadNamelen => inflater.opcode = .newname
  | .newnameReadNamehuff => inflater.opcode = .newname ∧
      inflater.namebuf.text.length + 2 * inflater.left < inflater.namebuf.room
  | .newnameReadName => inflater.opcode = .newname ∧
      inflater.namebuf.text.length + inflater.left < inflater.namebuf.room
  | .checkValuelen => inflater.NameKnown
  | .readValuelen => inflater.NameKnown
  | .readValuehuff => inflater.NameKnown ∧
      inflater.valuebuf.text.length + 2 * inflater.left < inflater.valuebuf.room
  | .readValue => inflater.NameKnown ∧
      inflater.valuebuf.text.length + inflater.left < inflater.valuebuf.room
  | _ => True

/-- A buffer holds no more than it was allocated for, with a byte for the NUL, and that is bounded.
-/
structure HdBuf.Fits (buf : HdBuf) : Prop where
  text : buf.text.length ≤ buf.room - 1
  room : buf.room ≤ 2 * hdMaxNv + 1

/-- A table that takes no more room than it may. -/
structure TableFits (context : HdContext) : Prop where
  holds : ∃ table, TableHolds context table
  size : context.hdTableBufsize ≤ context.hdTableBufsizeMax

/-- What holds of an inflater in any state, also when it has failed in the middle of a string. -/
structure InflaterFits (inflater : HdInflater) : Prop where
  table : TableFits inflater.ctx
  most : inflater.ctx.hdTableBufsizeMax ≤ inflater.settingsHdTableBufsizeMax
  name : inflater.namebuf.Fits
  value : inflater.valuebuf.Fits

/-- An inflater that can go on: its state finds what it relies on. -/
structure InflaterSafe (inflater : HdInflater) : Prop extends InflaterFits inflater where
  phase : inflater.Phase

/-- A round that ends well, or with an error that is no assertion. -/
def SafeStep : InflateStep → Prop
  | .again i _ _ => InflaterSafe i
  | .emit i _ _ => InflaterSafe i
  | .almostOk i => InflaterSafe i
  | .fail i rv => InflaterFits i ∧ rv ≠ assertionFailed

/-! ### The table

Evicting and adding keep the table inside its limit. -/

theorem TableFits.shrink {context : HdContext} (fits : TableFits context) (most : Nat) :
    TableFits (hdContextShrinkTableSize { context with hdTableBufsizeMax := most } none).1 ∧
      (hdContextShrinkTableSize { context with hdTableBufsizeMax := most } none).1.hdTableBufsizeMax =
        most := by
  obtain ⟨table, holds⟩ := fits.holds
  have holds' : TableHolds { context with hdTableBufsizeMax := most } table :=
    ⟨holds.nvs, holds.size, holds.refs, holds.seqs, holds.next⟩
  have evicted := holds'.shrink (show MapHolds none _ from fun m noMap => by cases noMap)
  refine ⟨⟨⟨_, evicted.holds⟩, ?_⟩, evicted.same.most⟩
  rw [evicted.holds.size, evicted.same.most]
  exact weight_fit_le _ _

theorem TableFits.add {context : HdContext} (fits : TableFits context) (nv : HdNv) :
    TableFits (addHdTableIncremental context nv none 0).1 ∧
      (addHdTableIncremental context nv none 0).1.hdTableBufsizeMax = context.hdTableBufsizeMax := by
  obtain ⟨table, holds⟩ := fits.holds
  have added := holds.add (show MapHolds none _ from fun m noMap => by cases noMap) nv 0
  refine ⟨⟨⟨_, added.holds⟩, ?_⟩, added.most⟩
  rw [added.holds.size, added.most]
  exact weight_addField_le _ _ _

/-- An index below the largest one is that of an entry. -/
theorem TableFits.get {context : HdContext} (fits : TableFits context) {idx : Nat}
    (inside : idx < getMaxIndex context) : ∃ nv, hdTableGet context idx = some nv := by
  obtain ⟨table, holds⟩ := fits.holds
  rw [hdTableGet_eq holds, getField]
  rw [getMaxIndex, holds.len] at inside
  split
  · rename_i dynamic
    exact ⟨_, List.getElem?_eq_getElem (by omega)⟩
  · rename_i static
    rw [List.getElem?_eq_getElem (show idx < staticTable.length from not_le.mp static)]
    exact ⟨_, rfl⟩

/-! ### A round

One lemma for each function that a round calls. -/

/-- Only the fields of an inflater that the invariant is about. -/
theorem InflaterFits.of_same {inflater inflater' : HdInflater} (fits : InflaterFits inflater)
    (table : inflater'.ctx = inflater.ctx)
    (most : inflater'.settingsHdTableBufsizeMax = inflater.settingsHdTableBufsizeMax)
    (name : inflater'.namebuf = inflater.namebuf) (value : inflater'.valuebuf = inflater.valuebuf) :
    InflaterFits inflater' where
  table := by
    rw [table]
    exact fits.table
  most := by
    rw [table, most]
    exact fits.most
  name := by
    rw [name]
    exact fits.name
  value := by
    rw [value]
    exact fits.value

theorem InflaterFits.safe_of_same {inflater inflater' : HdInflater} (fits : InflaterFits inflater)
    (table : inflater'.ctx = inflater.ctx)
    (most : inflater'.settingsHdTableBufsizeMax = inflater.settingsHdTableBufsizeMax)
    (name : inflater'.namebuf = inflater.namebuf) (value : inflater'.valuebuf = inflater.valuebuf)
    (phase : inflater'.Phase) : InflaterSafe inflater' :=
  ⟨fits.of_same table most name value, phase⟩

theorem inflateOpcode_safe {inflater : HdInflater} (safe : InflaterSafe inflater) (c : Byte)
    (input : Bytes) : SafeStep (inflateOpcode inflater c input) := by
  unfold inflateOpcode
  dsimp only
  split
  · split
    · exact ⟨safe.toInflaterFits, by decide⟩
    · exact safe.safe_of_same rfl rfl rfl rfl trivial
  · split
    · exact safe.safe_of_same rfl rfl rfl rfl trivial
    · split
      · exact safe.safe_of_same rfl rfl rfl rfl rfl
      · exact safe.safe_of_same rfl rfl rfl rfl trivial

/-- A state that reads a length relies on nothing about it. -/
theorem phase_of_len {inflater : HdInflater} (len : inflater.state.readsLen = true)
    (phase : inflater.Phase) (left shift : Nat) :
    HdInflater.Phase { inflater with left := left, shift := shift } := by
  unfold HdInflater.Phase at phase ⊢
  dsimp only
  cases state : inflater.state <;> rw [state] at len phase <;> first | cases len; done | exact phase

theorem afterLen_safe {inflater : HdInflater} (safe : InflaterSafe inflater) {prefixlen maxlen : Nat}
    (positive : 0 < prefixlen) (few : prefixlen ≤ 8) (len : inflater.state.readsLen = true)
    (input : Bytes) {k : HdInflater → Bytes → InflateStep}
    (done : ∀ i input', InflaterSafe i →
      i = { inflater with left := i.left, shift := i.shift } → i.left ≤ maxlen →
      SafeStep (k i input')) :
    SafeStep (afterLen inflater input prefixlen maxlen k) := by
  rw [afterLen]
  cases read : hdInflateReadLen inflater input prefixlen maxlen with
  | error rv =>
      rw [hdInflateReadLen_error read]
      exact ⟨safe.toInflaterFits, by decide⟩
  | ok r =>
      have spec := hdInflateReadLen_spec positive few read
      have safe' : InflaterSafe r.1 := by
        rw [spec.same]
        exact safe.safe_of_same rfl rfl rfl rfl (phase_of_len len safe.phase _ _)
      obtain ⟨i, rfin, input'⟩ := r
      cases rfin with
      | true => exact done i input' safe' spec.same spec.most
      | false => exact safe'

theorem tableSizeRead_safe {inflater : HdInflater} (safe : InflaterSafe inflater)
    (most : inflater.left ≤ inflater.settingsHdTableBufsizeMax) (input : Bytes) :
    SafeStep (tableSizeRead inflater input) := by
  obtain ⟨fits, same⟩ := safe.table.shrink inflater.left
  refine ⟨⟨fits, ?_, safe.name, safe.value⟩, trivial⟩
  refine Nat.le_trans (Nat.le_of_eq ?_) most
  exact same

theorem indexRead_safe {inflater : HdInflater} (safe : InflaterSafe inflater)
    (most : inflater.left ≤ getMaxIndex inflater.ctx) (input : Bytes) :
    SafeStep (indexRead inflater input) := by
  unfold indexRead
  dsimp only
  split
  · exact ⟨safe.toInflaterFits, by decide⟩
  · rename_i positive
    have inside : inflater.left - 1 < getMaxIndex inflater.ctx := by omega
    split
    · obtain ⟨nv, found⟩ := safe.table.get inside
      rw [found]
      exact safe.safe_of_same rfl rfl rfl rfl trivial
    · exact safe.safe_of_same rfl rfl rfl rfl fun _ => inside

theorem indexNv_safe {inflater : HdInflater} (fits : InflaterFits inflater) (nv : HdNv) :
    InflaterSafe { inflater.indexNv nv with state := .opcode } := by
  unfold HdInflater.indexNv
  split
  · obtain ⟨table, same⟩ := fits.table.add nv
    exact ⟨⟨table, Nat.le_trans (Nat.le_of_eq same) fits.most, fits.name, fits.value⟩, trivial⟩
  · exact fits.safe_of_same rfl rfl rfl rfl trivial

/-! ### Strings

Names and values are read in the same way, into different buffers. The states differ in what is
known of the field while they read, and in what is done behind the string. -/

/-- Room for a string of `left` bytes. -/
theorem fits_of_left {left room : Nat} (most : left ≤ hdMaxNv)
    (enough : room = left * 2 + 1 ∨ room = left + 1) :
    HdBuf.Fits { text := [], room := room } where
  text := Nat.zero_le _
  room := by
    show room ≤ _
    omega

/-- What is read of a string stays in the room there is for it. -/
theorem readFits {buf buf' : HdBuf} {need need' : Nat} (fits : buf.Fits)
    (room : buf.text.length + need < buf.room) (same : buf'.room = buf.room)
    (total : buf'.text.length + need' ≤ buf.text.length + need) :
    buf'.Fits ∧ buf'.text.length + need' < buf'.room := by
  refine ⟨⟨?_, ?_⟩, ?_⟩
  · rw [same]
    omega
  · rw [same]
    exact fits.room
  · rw [same]
    omega

/-- What the states that read a name and those that read a value have in common for the room: the
buffer that `get` finds and `put` replaces, what is `known` of the field, whatever is left of the
string, and what is `done` behind it. -/
structure StringRoom (put : HdInflater → HdBuf → HdInflater) (get : HdInflater → HdBuf)
    (known : HdInflater → Prop) (done : HdInflater → HdBuf → Bytes → InflateStep) : Prop where
  fits : ∀ i, InflaterFits i → (get i).Fits
  stored : ∀ i buf, InflaterFits i → buf.Fits → InflaterFits (put i buf)
  keeps : ∀ i huff left shift, known i →
    known { i with huffDecodeCtx := huff, left := left, shift := shift }
  goesOn : ∀ i buf input, InflaterFits i → known i → buf.Fits → (put i buf).Phase →
    SafeStep (done i buf input)

theorem nameRoom : StringRoom (fun i buf => { i with namebuf := buf }) HdInflater.namebuf
    (fun i => i.opcode = .newname) inflateNameRead where
  fits _ fits := fits.name
  stored _ _ fits buf := ⟨fits.table, fits.most, buf, fits.value⟩
  keeps _ _ _ _ known := known
  goesOn i buf input fits newname bufFits phase := by
    rw [inflateNameRead_eq]
    split
    · exact ⟨⟨fits.table, fits.most, bufFits, fits.value⟩, phase⟩
    · exact ⟨⟨fits.table, fits.most, bufFits, fits.value⟩, fun other => absurd newname other⟩

theorem valueRoom : StringRoom (fun i buf => { i with valuebuf := buf }) HdInflater.valuebuf
    HdInflater.NameKnown inflateValueRead where
  fits _ fits := fits.value
  stored _ _ fits buf := ⟨fits.table, fits.most, fits.name, buf⟩
  keeps _ _ _ _ known := known
  goesOn i buf input fits known bufFits phase := by
    have fits' : InflaterFits { i with valuebuf := buf } :=
      ⟨fits.table, fits.most, fits.name, bufFits⟩
    rw [inflateValueRead_eq]
    split
    · exact ⟨fits', phase⟩
    · unfold valueCommit
      split
      · exact indexNv_safe fits' _
      · rename_i other
        obtain ⟨nv, found⟩ := fits.table.get (known other)
        simp only [hdInflateCommitIndname, found, Option.map_some]
        exact indexNv_safe fits' _

section

variable {put : HdInflater → HdBuf → HdInflater} {get : HdInflater → HdBuf}
  {known : HdInflater → Prop} {done : HdInflater → HdBuf → Bytes → InflateStep}

/-- A state that reads the length of a string allocates the room for it. -/
theorem inflateStringLen_safe (isRoom : StringRoom put get known done) {inflater : HdInflater}
    (safe : InflaterSafe inflater) (len : inflater.state.readsLen = true) (isKnown : known inflater)
    (input : Bytes) {next : Bool → HdInflater → HdBuf → HdInflater} (busy : Bool)
    (ready : ∀ huffman i buf, InflaterFits i → known i → buf.Fits →
      buf.text.length + (if huffman then 2 * i.left else i.left) < buf.room →
      InflaterSafe (next huffman i buf)) :
    SafeStep (inflateStringLen inflater input next busy) := by
  rw [inflateStringLen_eq]
  refine afterLen_safe safe (by decide) (by decide) len input fun i input' safe' same most => ?_
  have isKnown' (huff : Nat) : known { i with huffDecodeCtx := huff } := by
    rw [same]
    exact isRoom.keeps inflater _ _ _ isKnown
  unfold stringLenRead
  split
  · refine ready true _ _ (safe'.of_same rfl rfl rfl rfl) (isKnown' _)
      (fits_of_left most (.inl rfl)) ?_
    show 0 + 2 * i.left < i.left * 2 + 1
    omega
  · refine ready false _ _ safe'.toInflaterFits (isKnown' i.huffDecodeCtx)
      (fits_of_left most (.inr rfl)) ?_
    show 0 + i.left < i.left + 1
    omega

/-- A state that reads a string stays in the room. -/
theorem readString_safe (isRoom : StringRoom put get known done) {inflater : HdInflater}
    (fits : InflaterFits inflater) (isKnown : known inflater)
    (room : (get inflater).text.length + inflater.left < (get inflater).room)
    (phase : ∀ i buf, i.state = inflater.state → known i → buf.text.length + i.left < buf.room →
      (put i buf).Phase) (input : Bytes) :
    SafeStep (readString inflater (get inflater) input done) := by
  have total := length_hdInflateRead inflater (get inflater) input
  have room' : (hdInflateRead inflater (get inflater) input).2.1.room = (get inflater).room := rfl
  obtain ⟨bufFits, within⟩ := readFits (isRoom.fits inflater fits) room room' total.le
  have isKnown' : known (hdInflateRead inflater (get inflater) input).1 :=
    isRoom.keeps inflater inflater.huffDecodeCtx _ inflater.shift isKnown
  exact isRoom.goesOn _ _ _ (fits.of_same rfl rfl rfl rfl) isKnown' bufFits
    (phase _ _ rfl isKnown' within)

/-- So does one that reads a Huffman text, also when the text is wrong and the round fails behind
the bytes that it has stored. -/
theorem readHuffString_safe (isRoom : StringRoom put get known done) {inflater : HdInflater}
    (fits : InflaterFits inflater) (isKnown : known inflater)
    (room : (get inflater).text.length + 2 * inflater.left < (get inflater).room)
    (phase : ∀ i buf, i.state = inflater.state → known i → buf.text.length + 2 * i.left < buf.room →
      (put i buf).Phase) (input : Bytes) :
    SafeStep (readHuffString put inflater (get inflater) input done) := by
  unfold readHuffString
  dsimp only
  cases read : hdInflateReadHuff inflater (get inflater) input with
  | error rv =>
      obtain ⟨same, room', stored⟩ := hdInflateHuffStored_spec inflater (get inflater) input
      obtain ⟨bufFits, -⟩ :=
        readFits (isRoom.fits inflater fits) room room' (show _ + 0 ≤ _ from stored)
      rw [hdInflateReadHuff_error read]
      refine ⟨isRoom.stored _ _ ?_ bufFits, by decide⟩
      rw [same]
      exact fits.of_same rfl rfl rfl rfl
  | ok r =>
      obtain ⟨same, room', total, -, -⟩ := hdInflateReadHuff_spec read
      obtain ⟨bufFits, within⟩ := readFits (isRoom.fits inflater fits) room room' total
      have fits' : InflaterFits r.1 := by
        rw [same]
        exact fits.of_same rfl rfl rfl rfl
      have isKnown' : known r.1 := by
        rw [same]
        exact isRoom.keeps inflater _ _ inflater.shift isKnown
      exact isRoom.goesOn _ _ _ fits' isKnown' bufFits
        (phase _ _ (by rw [same]) isKnown' within)

end

/-- The states that read the length of a name, and of a value. -/
theorem inflateNamelen_safe {inflater : HdInflater} (safe : InflaterSafe inflater)
    (state : inflater.state = .newnameReadNamelen) (input : Bytes) :
    SafeStep (inflateNamelen inflater input) := by
  have newname := safe.phase
  rw [HdInflater.Phase, state] at newname
  refine inflateStringLen_safe nameRoom safe (by rw [state]; rfl) newname input false
    fun huffman i buf fits isNew bufFits within => ?_
  refine ⟨⟨fits.table, fits.most, bufFits, fits.value⟩, ?_⟩
  cases huffman <;> exact ⟨isNew, within⟩

theorem inflateValuelen_safe {inflater : HdInflater} (safe : InflaterSafe inflater)
    (state : inflater.state = .readValuelen) (input : Bytes) :
    SafeStep (inflateValuelen inflater input) := by
  have known := safe.phase
  rw [HdInflater.Phase, state] at known
  refine inflateStringLen_safe valueRoom safe (by rw [state]; rfl) known input true
    fun huffman i buf fits isKnown bufFits within => ?_
  refine ⟨⟨fits.table, fits.most, fits.name, bufFits⟩, ?_⟩
  cases huffman <;> exact ⟨isKnown, within⟩

/-! ### A round of the loop

The cases of the state machine, each by the lemma of its function. -/

/-- A round keeps the invariant, and no assertion fails in it. -/
theorem inflateStep_safe {inflater : HdInflater} (safe : InflaterSafe inflater) (input : Bytes) :
    SafeStep (inflateStep inflater input) := by
  -- What the state says of the buffers in use, which the cases that read a string need.
  have phase := safe.phase
  unfold HdInflater.Phase at phase
  cases state : inflater.state with
  | expectTableSize =>
      simp only [inflateStep, state]
      split
      · exact ⟨safe.toInflaterFits, by decide⟩
      · exact inflateOpcode_safe safe _ input
  | inflateStart =>
      simp only [inflateStep, state]
      exact inflateOpcode_safe safe _ input
  | opcode =>
      simp only [inflateStep, state]
      exact inflateOpcode_safe safe _ input
  | readTableSize =>
      simp only [inflateStep, state, inflateTableSize_eq]
      refine afterLen_safe safe (by decide) (by decide) (by rw [state]; rfl) input
        fun i input' safe' same most => tableSizeRead_safe safe' ?_ input'
      -- the limit of the number read is the smaller of two, the setting among them
      rw [show i.settingsHdTableBufsizeMax = inflater.settingsHdTableBufsizeMax by rw [same]]
      exact most.trans (Nat.min_le_right _ _)
  | readIndex =>
      simp only [inflateStep, state, inflateIndex_eq]
      refine afterLen_safe safe (indexPrefix_range _).1 (indexPrefix_range _).2
        (by rw [state]; rfl) input fun i input' safe' same most => indexRead_safe safe' ?_ input'
      rw [show i.ctx = inflater.ctx by rw [same]]
      exact most
  | newnameCheckNamelen =>
      rw [state] at phase
      simp only [inflateStep, state]
      -- the first byte of the length changes the state and no buffer
      have safe' : InflaterSafe (inflater.startLen (input.headD 0) .newnameReadNamelen) :=
        safe.safe_of_same rfl rfl rfl rfl phase
      exact inflateNamelen_safe safe' rfl input
  | newnameReadNamelen =>
      simp only [inflateStep, state]
      exact inflateNamelen_safe safe state input
  | newnameReadNamehuff =>
      rw [state] at phase
      simp only [inflateStep, state]
      refine readHuffString_safe nameRoom safe.toInflaterFits phase.1 phase.2
        (fun i buf same isNew within => ?_) input
      rw [HdInflater.Phase, show HdInflater.state _ = .newnameReadNamehuff from same.trans state]
      exact ⟨isNew, within⟩
  | newnameReadName =>
      rw [state] at phase
      simp only [inflateStep, state]
      refine readString_safe nameRoom safe.toInflaterFits phase.1 phase.2
        (fun i buf same isNew within => ?_) input
      rw [HdInflater.Phase, show HdInflater.state _ = .newnameReadName from same.trans state]
      exact ⟨isNew, within⟩
  | checkValuelen =>
      rw [state] at phase
      simp only [inflateStep, state]
      have safe' : InflaterSafe (inflater.startLen (input.headD 0) .readValuelen) :=
        safe.safe_of_same rfl rfl rfl rfl phase
      exact inflateValuelen_safe safe' rfl input
  | readValuelen =>
      simp only [inflateStep, state]
      exact inflateValuelen_safe safe state input
  | readValuehuff =>
      rw [state] at phase
      simp only [inflateStep, state]
      refine readHuffString_safe valueRoom safe.toInflaterFits phase.1 phase.2
        (fun i buf same isKnown within => ?_) input
      rw [HdInflater.Phase, show HdInflater.state _ = .readValuehuff from same.trans state]
      exact ⟨isKnown, within⟩
  | readValue =>
      rw [state] at phase
      simp only [inflateStep, state]
      refine readString_safe valueRoom safe.toInflaterFits phase.1 phase.2
        (fun i buf same isKnown within => ?_) input
      rw [HdInflater.Phase, show HdInflater.state _ = .readValue from same.trans state]
      exact ⟨isKnown, within⟩

/-! ### Runs, a round at a time

The calls of an inflater are made of rounds and of a few moves between them. The invariant is kept
by every move, so it holds after each of them. -/

/-- What can happen to an inflater: a round of its loop, a new limit, the end of a block, and a
block that is not complete. -/
inductive InflateMove where
  | round (input : Bytes)
  | changeTableSize (size : Nat)
  | endHeaders
  | incomplete

/-- The inflater behind a round. -/
def InflateStep.after : InflateStep → HdInflater
  | .again i _ _ => i
  | .emit i _ _ => i
  | .almostOk i => i
  | .fail i _ => i.fail

/-- An inflater after a move. There is no round when it has failed, and none without input but in a
state that reads a value. -/
def HdInflater.move (inflater : HdInflater) : InflateMove → HdInflater
  | .round input =>
      if inflater.ctx.bad || input = [] && !inflater.state.readsValue then inflater
      else (inflateStep inflater input).after
  | .changeTableSize size => inflater.call (.changeTableSize size)
  | .endHeaders => hdInflateEndHeaders inflater
  | .incomplete => inflater.fail

/-- A call is made of moves. -/
theorem inflateLoop_moves {rounds : Nat} {inflater : HdInflater} {input : Bytes} {busy : Bool}
    (good : inflater.ctx.bad = false) (value : busy = true → inflater.state.readsValue = true) :
    ∃ moves, (inflateLoop rounds inflater input busy).after =
      EventRun.exec HdInflater.move inflater moves := by
  induction rounds generalizing inflater input busy with
  | zero => exact ⟨[], rfl⟩
  | succ rounds ih =>
      rw [inflateLoop_succ]
      split
      · exact ⟨[], rfl⟩
      · rename_i begun
        have moved : inflater.move (.round input) = (inflateStep inflater input).after := by
          rw [HdInflater.move, good, Bool.false_or, if_neg]
          intro idle
          simp only [Bool.and_eq_true, decide_eq_true_eq, Bool.not_eq_true'] at idle
          refine begun ?_
          cases busy with
          | false => simp [idle.1]
          | true => exact absurd (idle.2.symm.trans (value rfl)) Bool.false_ne_true
        have spec := inflateStep_spec inflater input
        cases step : inflateStep inflater input with
        | again i input' busy' =>
            rw [step] at moved spec
            obtain ⟨-, -, -, isBusy, isBad⟩ := spec
            have later : ∃ moves, (inflateLoop rounds i input' busy').after =
                EventRun.exec HdInflater.move i moves :=
              ih (isBad.trans good) (fun busy => isBusy.symm.trans busy)
            obtain ⟨moves, rest⟩ := later
            refine ⟨.round input :: moves, ?_⟩
            rw [EventRun.exec_cons, moved]
            exact rest
        | emit i input' nv =>
            rw [step] at moved
            exact ⟨[.round input], moved.symm⟩
        | almostOk i =>
            rw [step] at moved
            exact ⟨[.round input], moved.symm⟩
        | fail i rv =>
            rw [step] at moved
            exact ⟨[.round input], moved.symm⟩

theorem inflateBlockLoop_moves {rounds : Nat} {inflater : HdInflater} {input : Bytes}
    {final : Bool} :
    ∃ moves, (inflateBlockLoop rounds inflater input final).inflater =
      EventRun.exec HdInflater.move inflater moves := by
  -- Induction on the calls of the callers' loop, each of them a run of rounds and what follows it.
  induction rounds generalizing inflater input with
  | zero => exact ⟨[], rfl⟩
  | succ rounds ih =>
      cases bad : inflater.ctx.bad with
      | true =>
          rw [inflateBlockLoop_bad bad]
          exact ⟨[], rfl⟩
      | false =>
          have loop : ∃ moves, (inflateLoop (inflateRounds input) inflater input false).after =
              EventRun.exec HdInflater.move inflater moves :=
            inflateLoop_moves bad fun busy => absurd busy Bool.false_ne_true
          obtain ⟨moves, called⟩ := loop
          have behind (more : List InflateMove) :
              EventRun.exec HdInflater.move inflater (moves ++ more) = EventRun.exec HdInflater.move
                (inflateLoop (inflateRounds input) inflater input false).after more := by
            rw [EventRun.exec_append, called]
          rw [inflateBlockLoop_succ bad]
          cases last : inflateLoop (inflateRounds input) inflater input false with
          | again i input' busy =>
              rw [last] at called behind
              dsimp only [blockGoOn]
              split
              -- input that ends inside a representation is an error in the last piece
              · exact ⟨_, (behind [InflateMove.incomplete]).symm⟩
              · split
                · exact ⟨_, (behind [InflateMove.endHeaders]).symm⟩
                · exact ⟨moves, called⟩
          | emit i input' nv =>
              -- a field was emitted: the loop calls again with the rest
              rw [last] at behind
              have later : ∃ moves, (inflateBlockLoop rounds i input' final).inflater =
                EventRun.exec HdInflater.move i moves := ih
              obtain ⟨more, rest⟩ := later
              exact ⟨moves ++ more, rest.trans (behind _).symm⟩
          | almostOk i =>
              rw [last] at called behind
              dsimp only [blockGoOn]
              split
              · exact ⟨_, (behind [InflateMove.incomplete]).symm⟩
              · exact ⟨moves, called⟩
          | fail i rv =>
              rw [last] at called
              exact ⟨moves, called⟩

/-- Whatever it is given, a call is made of moves. -/
theorem HdInflater.call_moves (inflater : HdInflater) (call : InflateCall) :
    ∃ moves, inflater.call call = EventRun.exec HdInflater.move inflater moves := by
  cases call with
  | changeTableSize size => exact ⟨[.changeTableSize size], rfl⟩
  | piece input final => exact inflateBlockLoop_moves

/-- So is any run of calls. -/
theorem HdInflater.calls_moves (inflater : HdInflater) (calls : List InflateCall) :
    ∃ moves, EventRun.exec HdInflater.call inflater calls =
      EventRun.exec HdInflater.move inflater moves := by
  induction calls generalizing inflater with
  | nil => exact ⟨[], rfl⟩
  | cons call calls ih =>
      obtain ⟨moves, first⟩ := inflater.call_moves call
      obtain ⟨more, later⟩ := ih (inflater.call call)
      refine ⟨moves ++ more, ?_⟩
      rw [EventRun.exec_cons, later, EventRun.exec_append, first]

/-- What a run keeps: a failed inflater may be in the middle of a string, but it does no round any
more. -/
structure InflaterKept (inflater : HdInflater) : Prop extends InflaterFits inflater where
  phase : inflater.ctx.bad = false → inflater.Phase

theorem InflaterKept.init : InflaterKept hdInflateInit where
  table := ⟨⟨[], .init⟩, Nat.zero_le _⟩
  most := Nat.le_refl _
  name := ⟨Nat.le_refl _, Nat.zero_le _⟩
  value := ⟨Nat.le_refl _, Nat.zero_le _⟩
  phase _ := trivial

theorem InflaterFits.fail {inflater : HdInflater} (fits : InflaterFits inflater) :
    InflaterKept inflater.fail := by
  obtain ⟨table, holds⟩ := fits.table.holds
  have table' : TableFits inflater.fail.ctx :=
    ⟨⟨table, holds.nvs, holds.size, holds.refs, holds.seqs, holds.next⟩, fits.table.size⟩
  exact ⟨⟨table', fits.most, fits.name, fits.value⟩, fun good => absurd good.symm Bool.false_ne_true⟩

theorem InflaterSafe.kept {inflater : HdInflater} (safe : InflaterSafe inflater) :
    InflaterKept inflater :=
  ⟨safe.toInflaterFits, fun _ => safe.phase⟩

theorem InflaterKept.after {r : InflateStep} (safe : SafeStep r) : InflaterKept r.after := by
  cases r with
  | again i input busy => exact InflaterSafe.kept safe
  | emit i input nv => exact InflaterSafe.kept safe
  | almostOk i => exact InflaterSafe.kept safe
  | fail i rv => exact InflaterFits.fail safe.1

/-- A move keeps the invariant. -/
theorem InflaterKept.move {inflater : HdInflater} (kept : InflaterKept inflater)
    (move : InflateMove) : InflaterKept (inflater.move move) := by
  cases move with
  | round input =>
      rw [HdInflater.move]
      cases bad : inflater.ctx.bad with
      | true => exact kept
      | false =>
          rw [Bool.false_or]
          split
          · exact kept
          · exact .after (inflateStep_safe ⟨kept.toInflaterFits, kept.phase bad⟩ input)
  | changeTableSize size =>
      rw [HdInflater.move, HdInflater.call, hdInflateChangeTableSize]
      split
      · exact kept
      · rename_i changed
        split at changed
        · dsimp only at changed
          split at changed
          · cases changed
            obtain ⟨fits, same⟩ := kept.table.shrink size
            exact ⟨⟨fits, Nat.le_of_eq same, kept.name, kept.value⟩, fun _ => trivial⟩
          · rename_i large
            cases changed
            exact ⟨⟨kept.table, not_lt.mp large, kept.name, kept.value⟩, kept.phase⟩
        · cases changed
  | endHeaders => exact ⟨kept.of_same rfl rfl rfl rfl, fun _ => trivial⟩
  | incomplete => exact kept.toInflaterFits.fail

/-- What can be seen of an inflater: a name and a value are in the room that was allocated for them,
with a byte left for the NUL, and that room is bounded; the table takes the room of its entries, no
more than it may, and that is no more than the last limit; and whatever comes next, no assertion
fails. -/
structure InflaterInside (inflater : HdInflater) : Prop where
  name : inflater.namebuf.Fits
  value : inflater.valuebuf.Fits
  accounted : inflater.ctx.hdTableBufsize =
    weight fieldRoom (inflater.ctx.hdTable.toList.map HdEntry.nv)
  limited : inflater.ctx.hdTableBufsize ≤ inflater.ctx.hdTableBufsizeMax
  most : inflater.ctx.hdTableBufsizeMax ≤ inflater.settingsHdTableBufsizeMax
  asserts : inflater.ctx.bad = false → ∀ input failed,
    inflateStep inflater input ≠ .fail failed assertionFailed

theorem InflaterKept.inside {inflater : HdInflater} (kept : InflaterKept inflater) :
    InflaterInside inflater where
  name := kept.name
  value := kept.value
  accounted := by
    obtain ⟨table, holds⟩ := kept.table.holds
    rw [holds.size, holds.nvs]
  limited := kept.table.size
  most := kept.most
  asserts good input failed step := by
    have next := inflateStep_safe ⟨kept.toInflaterFits, kept.phase good⟩ input
    rw [step] at next
    exact next.2 rfl

/-- Whatever a peer sends, an inflater stays in its room after every round, those included that fail;
and every run of calls is made of such rounds, changes of the limit and ends of blocks. -/
theorem inflater_safe :
    (∀ moves, InflaterInside (EventRun.exec HdInflater.move hdInflateInit moves)) ∧
      ∀ calls, ∃ moves, EventRun.exec HdInflater.call hdInflateInit calls =
        EventRun.exec HdInflater.move hdInflateInit moves :=
  ⟨fun moves =>
    (EventRun.invariant_exec InflaterKept (fun _ move kept => kept.move move) .init moves).inside,
    hdInflateInit.calls_moves⟩

end Hfc.Hpack
