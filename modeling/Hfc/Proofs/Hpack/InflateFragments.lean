/-
Module: Hfc.Proofs.Hpack.InflateFragments
Layer: Proofs
Purpose: A round of the inflater's state machine that has more input behind it does the same, or
  goes on where the piece without it would have stopped.
Imports: Hfc.Proofs.Hpack.InflateReading
Main exports: SameStep, Extends, LenFresh, afterLen, StringState, inflateStep_append
-/
import Hfc.Proofs.Hpack.InflateReading

namespace Hfc.Hpack

open ByteText

/-! ### A round

Each round of the inflater with more input behind what it is given: it does the same, or it stops
and goes on as if the rest had been there. -/

/-- The same outcome; what a failed inflater has read of the length it failed at does not count. -/
inductive SameStep : InflateStep → InflateStep → Prop
  | refl (r : InflateStep) : SameStep r r
  | fail (i i' : HdInflater) (rv : Int) : SameStep (.fail i rv) (.fail i' rv)

/-- The outcome `whole` is what comes of the outcome `r` when there is more input behind it. -/
def Extends (back : Bytes) : InflateStep → InflateStep → Prop
  | .again i input busy, whole => whole = .again i (input ++ back) busy
  | .emit i input nv, whole => whole = .emit i (input ++ back) nv
  | .almostOk i, whole => SameStep whole (inflateStep i back)
  | .fail _ rv, whole => ∃ i, whole = .fail i rv

/-- A state in which a length is read. -/
def HdInflateState.readsLen : HdInflateState → Bool
  | .readTableSize => true
  | .readIndex => true
  | .newnameReadNamelen => true
  | .readValuelen => true
  | _ => false

/-- A state in which a value is read; there may be nothing left to read. -/
def HdInflateState.readsValue : HdInflateState → Bool
  | .readValuehuff => true
  | .readValue => true
  | _ => false

/-- A length that is begun is begun at its first byte. -/
def LenFresh (inflater : HdInflater) : Prop :=
  inflater.state.readsLen = true → inflater.left = 0 → inflater.shift = 0

/-- What the states that read a length have in common: `k` is what they do behind it. -/
def afterLen (inflater : HdInflater) (input : Bytes) (prefixlen maxlen : Nat)
    (k : HdInflater → Bytes → InflateStep) : InflateStep :=
  match hdInflateReadLen inflater input prefixlen maxlen with
  | .error rv => .fail inflater rv
  | .ok (inflater, rfin, input) => if !rfin then .almostOk inflater else k inflater input

/-- With more input behind it a length fails, is gone on with, or is read. -/
theorem afterLen_append {inflater : HdInflater} {prefixlen : Nat} (positive : 0 < prefixlen)
    (few : prefixlen ≤ 8) (fresh : inflater.left = 0 → inflater.shift = 0) {front : Bytes}
    (begun : inflater.left = 0 → front ≠ []) (back : Bytes) (maxlen : Nat)
    (k : HdInflater → Bytes → InflateStep) :
    (∃ rv, afterLen inflater front prefixlen maxlen k = .fail inflater rv ∧
        afterLen inflater (front ++ back) prefixlen maxlen k = .fail inflater rv) ∨
      (∃ i, afterLen inflater front prefixlen maxlen k = .almostOk i ∧
        i = { inflater with left := i.left, shift := i.shift } ∧ i.left ≠ 0 ∧
        SameStep (afterLen inflater (front ++ back) prefixlen maxlen k)
          (afterLen i back prefixlen maxlen k)) ∨
      (∃ i input, afterLen inflater front prefixlen maxlen k = k i input ∧
        i = { inflater with left := i.left, shift := i.shift } ∧ i.left ≤ maxlen ∧
        input.length < front.length ∧
        afterLen inflater (front ++ back) prefixlen maxlen k = k i (input ++ back)) := by
  have whole := hdInflateReadLen_append positive few fresh begun back maxlen
  simp only [afterLen, whole]
  cases read : hdInflateReadLen inflater front prefixlen maxlen with
  | error rv => exact .inl ⟨rv, rfl, rfl⟩
  | ok r =>
      obtain ⟨i, rfin, input⟩ := r
      have spec := hdInflateReadLen_spec positive few read
      cases rfin with
      | true => exact .inr (.inr ⟨i, input, rfl, spec.same, spec.most, spec.complete rfl, rfl⟩)
      | false =>
          refine .inr (.inl ⟨i, rfl, spec.same, (spec.more rfl).1, ?_⟩)
          show SameStep (match hdInflateReadLen i back prefixlen maxlen with
            | .error rv => .fail inflater rv
            | .ok (inflater, rfin, input) => if !rfin then .almostOk inflater else k inflater input) _
          cases hdInflateReadLen i back prefixlen maxlen with
          | error rv => exact .fail inflater i rv
          | ok r => exact .refl _

/-- So with more input behind it a state that reads a length does what it should. -/
theorem afterLen_extends {inflater : HdInflater} {prefixlen : Nat} (positive : 0 < prefixlen)
    (few : prefixlen ≤ 8) (fresh : inflater.left = 0 → inflater.shift = 0) {front : Bytes}
    (begun : inflater.left = 0 → front ≠ []) (back : Bytes) (maxlen : Nat)
    {k : HdInflater → Bytes → InflateStep}
    (longer : ∀ i input, Extends back (k i input) (k i (input ++ back)))
    (next : ∀ left shift, inflateStep { inflater with left := left, shift := shift } back =
      afterLen { inflater with left := left, shift := shift } back prefixlen maxlen k) :
    Extends back (afterLen inflater front prefixlen maxlen k)
      (afterLen inflater (front ++ back) prefixlen maxlen k) := by
  rcases afterLen_append positive few fresh begun back maxlen k with
    ⟨rv, here, whole⟩ | ⟨i, here, same, -, goes⟩ | ⟨i, input, here, same, -, -, whole⟩
  · rw [here, whole]
    exact ⟨inflater, rfl⟩
  · rw [here]
    show SameStep _ (inflateStep i back)
    rw [same, next, ← same]
    exact goes
  · rw [here, whole]
    exact longer i input

/-- What is done behind a table size. -/
def tableSizeRead (inflater : HdInflater) (input : Bytes) : InflateStep :=
  let inflater := { inflater with minHdTableBufsizeMax := uint32Max }
  .again { inflater.shrink inflater.left with state := .inflateStart } input false

theorem inflateTableSize_eq (inflater : HdInflater) (input : Bytes) :
    inflateTableSize inflater input =
      afterLen inflater input 5
        (min inflater.minHdTableBufsizeMax inflater.settingsHdTableBufsizeMax) tableSizeRead := rfl

/-- The length of the prefix of an index. -/
def HdInflater.indexPrefix (inflater : HdInflater) : Nat :=
  if inflater.opcode = .indexed then 7 else if inflater.indexRequired then 6 else 4

/-- What is done behind an index. -/
def indexRead (inflater : HdInflater) (input : Bytes) : InflateStep :=
  if inflater.left = 0 then .fail inflater nghttp2ErrHeaderComp
  else
    let inflater := { inflater with index := inflater.left - 1 }
    if inflater.opcode = .indexed then
      match hdTableGet inflater.ctx inflater.index with
      | none => .fail inflater assertionFailed
      | some nv => .emit { inflater with state := .opcode } input nv
    else .again { inflater with state := .checkValuelen } input false

theorem inflateIndex_eq (inflater : HdInflater) (input : Bytes) :
    inflateIndex inflater input =
      afterLen inflater input inflater.indexPrefix (getMaxIndex inflater.ctx) indexRead := rfl

/-- What is done behind the length of a string. -/
def stringLenRead (next : Bool → HdInflater → HdBuf → HdInflater) (busy : Bool)
    (inflater : HdInflater) (input : Bytes) : InflateStep :=
  if inflater.huffmanEncoded then
    let inflater := { inflater with huffDecodeCtx := huffDecodeContextInit }
    .again (next true inflater { text := [], room := inflater.left * 2 + 1 }) input busy
  else .again (next false inflater { text := [], room := inflater.left + 1 }) input busy

theorem inflateStringLen_eq (inflater : HdInflater) (input : Bytes)
    (next : Bool → HdInflater → HdBuf → HdInflater) (busy : Bool) :
    inflateStringLen inflater input next busy =
      afterLen inflater input 7 hdMaxNv (stringLenRead next busy) := rfl

theorem indexPrefix_range (inflater : HdInflater) :
    0 < inflater.indexPrefix ∧ inflater.indexPrefix ≤ 8 := by
  unfold HdInflater.indexPrefix
  split
  · decide
  · split <;> decide

theorem indexRead_extends (back : Bytes) (inflater : HdInflater) (input : Bytes) :
    Extends back (indexRead inflater input) (indexRead inflater (input ++ back)) := by
  unfold indexRead
  dsimp only
  split
  · exact ⟨inflater, rfl⟩
  · split
    · cases hdTableGet inflater.ctx (inflater.left - 1) with
      | none => exact ⟨_, rfl⟩
      | some nv => exact rfl
    · exact rfl

theorem stringLenRead_extends (back : Bytes) (next : Bool → HdInflater → HdBuf → HdInflater)
    (busy : Bool) (inflater : HdInflater) (input : Bytes) :
    Extends back (stringLenRead next busy inflater input)
      (stringLenRead next busy inflater (input ++ back)) := by
  unfold stringLenRead
  split <;> exact rfl

/-- A state that reads the length of a string. -/
theorem inflateStringLen_extends {inflater : HdInflater}
    (fresh : inflater.left = 0 → inflater.shift = 0) {front : Bytes} (begun : front ≠ [])
    (back : Bytes) {next : Bool → HdInflater → HdBuf → HdInflater} {busy : Bool}
    (again : ∀ left shift, inflateStep { inflater with left := left, shift := shift } back =
      inflateStringLen { inflater with left := left, shift := shift } back next busy) :
    Extends back (inflateStringLen inflater front next busy)
      (inflateStringLen inflater (front ++ back) next busy) :=
  afterLen_extends (by decide) (by decide) fresh (fun _ => begun) back hdMaxNv
    (stringLenRead_extends back next busy) again

/-- What is done behind a value. -/
def valueCommit (inflater : HdInflater) (input : Bytes) : InflateStep :=
  if inflater.opcode = .newname then
    let committed := hdInflateCommitNewname inflater
    .emit { committed.1 with state := .opcode } input committed.2
  else
    match hdInflateCommitIndname inflater with
    | none => .fail inflater assertionFailed
    | some committed => .emit { committed.1 with state := .opcode } input committed.2

theorem inflateValueRead_eq (inflater : HdInflater) (buf : HdBuf) (input : Bytes) :
    inflateValueRead inflater buf input =
      if inflater.left ≠ 0 then .almostOk { inflater with valuebuf := buf }
      else valueCommit { inflater with valuebuf := buf } input := rfl

theorem valueCommit_extends (back : Bytes) (inflater : HdInflater) (input : Bytes) :
    Extends back (valueCommit inflater input) (valueCommit inflater (input ++ back)) := by
  unfold valueCommit
  split
  · exact rfl
  · cases hdInflateCommitIndname inflater with
    | none => exact ⟨inflater, rfl⟩
    | some committed => exact rfl

/-- A state that reads a string. -/
def readString (inflater : HdInflater) (buf : HdBuf) (input : Bytes)
    (done : HdInflater → HdBuf → Bytes → InflateStep) : InflateStep :=
  let read := hdInflateRead inflater buf input
  done read.1 read.2.1 read.2.2

/-- What is done behind a read that may fail; `failed` is the inflater behind one that does. -/
def afterRead (failed : HdInflater) (read : Except Int (HdInflater × HdBuf × Bytes))
    (done : HdInflater → HdBuf → Bytes → InflateStep) : InflateStep :=
  match read with
  | .error rv => .fail failed rv
  | .ok (inflater, buf, input) => done inflater buf input

/-- A state that reads a Huffman text into the buffer that `put` puts it into. -/
def readHuffString (put : HdInflater → HdBuf → HdInflater) (inflater : HdInflater) (buf : HdBuf)
    (input : Bytes) (done : HdInflater → HdBuf → Bytes → InflateStep) : InflateStep :=
  let stored := hdInflateHuffStored inflater buf input
  afterRead (put stored.1 stored.2) (hdInflateReadHuff inflater buf input) done

/-- What the states that read a name and those that read a value have in common: `done` puts the
bytes into their buffer with `put`, and stops when there are more to come. -/
structure StringState (put : HdInflater → HdBuf → HdInflater)
    (done : HdInflater → HdBuf → Bytes → InflateStep) : Prop where
  state : ∀ i buf, (put i buf).state = i.state
  more : ∀ i buf input, i.left ≠ 0 → done i buf input = .almostOk (put i buf)
  plain : ∀ i buf' buf input, readString (put i buf') buf input done = readString i buf input done
  huff : ∀ i buf' buf input, hdInflateReadHuff (put i buf') buf input =
    (hdInflateReadHuff i buf input).map fun r => (put r.1 buf', r.2)
  again : ∀ i buf' buf input, done (put i buf') buf input = done i buf input
  longer : ∀ back i buf input, i.left = 0 →
    Extends back (done i buf input) (done i buf (input ++ back))

/-- A Huffman text is read the same whatever is in the buffers. -/
theorem hdInflateReadHuff_map (put : HdInflater → HdInflater) (inflater : HdInflater)
    (set : ∀ huff left, { put inflater with huffDecodeCtx := huff, left := left } =
      put { inflater with huffDecodeCtx := huff, left := left })
    (huff : (put inflater).huffDecodeCtx = inflater.huffDecodeCtx)
    (left : (put inflater).left = inflater.left) (buf : HdBuf) (input : Bytes) :
    hdInflateReadHuff (put inflater) buf input =
      (hdInflateReadHuff inflater buf input).map fun r => (put r.1, r.2) := by
  by_cases whole : inflater.left ≤ input.length
  · rw [hdInflateReadHuff_of_le whole, hdInflateReadHuff_of_le (by rw [left]; exact whole), huff,
      left]
    cases hdHuffDecode inflater.huffDecodeCtx (input.take inflater.left) true with
    | error rv => rfl
    | ok run =>
        show (if huffDecodeFailureState run.1 = true then _ else _) = Except.map _ (ite _ _ _)
        split
        · rfl
        · rw [set]
          rfl
  · rw [hdInflateReadHuff_of_lt (not_le.mp whole),
      hdInflateReadHuff_of_lt (by rw [left]; exact not_le.mp whole), huff, left]
    split
    · rfl
    · rw [set]
      rfl

theorem inflateNameRead_eq (inflater : HdInflater) (buf : HdBuf) (input : Bytes) :
    inflateNameRead inflater buf input =
      if inflater.left ≠ 0 then .almostOk { inflater with namebuf := buf }
      else .again { inflater with namebuf := buf, state := .checkValuelen } input false := rfl

theorem nameState : StringState (fun i buf => { i with namebuf := buf }) inflateNameRead where
  state _ _ := rfl
  more i buf input unfinished := by rw [inflateNameRead_eq, if_pos unfinished]
  plain _ _ _ _ := rfl
  huff i buf' buf input :=
    hdInflateReadHuff_map (fun i => { i with namebuf := buf' }) i (fun _ _ => rfl) rfl rfl buf input
  again _ _ _ _ := rfl
  longer back i buf input finished := by
    rw [inflateNameRead_eq, inflateNameRead_eq, if_neg (not_not.mpr finished),
      if_neg (not_not.mpr finished)]
    exact rfl

theorem valueState : StringState (fun i buf => { i with valuebuf := buf }) inflateValueRead where
  state _ _ := rfl
  more i buf input unfinished := by rw [inflateValueRead_eq, if_pos unfinished]
  plain _ _ _ _ := rfl
  huff i buf' buf input :=
    hdInflateReadHuff_map (fun i => { i with valuebuf := buf' }) i (fun _ _ => rfl) rfl rfl buf input
  again _ _ _ _ := rfl
  longer back i buf input finished := by
    rw [inflateValueRead_eq, inflateValueRead_eq, if_neg (not_not.mpr finished),
      if_neg (not_not.mpr finished)]
    exact valueCommit_extends back _ input

section

variable {put : HdInflater → HdBuf → HdInflater}
  {done : HdInflater → HdBuf → Bytes → InflateStep} (isState : StringState put done)
include isState

theorem readString_extends (back : Bytes) (inflater : HdInflater) (buf : HdBuf) (front : Bytes)
    (next : ∀ i buf, i.state = inflater.state →
      inflateStep (put i buf) back = readString (put i buf) buf back done) :
    Extends back (readString inflater buf front done)
      (readString inflater buf (front ++ back) done) := by
  by_cases whole : inflater.left ≤ front.length
  · rw [readString, readString, hdInflateRead_of_le whole,
      hdInflateRead_of_le (by rw [List.length_append]; omega),
      List.take_append_of_le_length whole, List.drop_append_of_le_length whole]
    exact isState.longer back _ _ _ rfl
  · have short := not_le.mp whole
    have later := hdInflateRead_append short buf back
    have same : (hdInflateRead inflater buf front).1.state = inflater.state := rfl
    have rest : (hdInflateRead inflater buf front).1.left ≠ 0 := by
      rw [hdInflateRead_of_lt short]
      exact Nat.sub_ne_zero_of_lt short
    rw [readString, readString, later]
    rw [isState.more _ _ _ rest]
    show SameStep _ (inflateStep _ back)
    rw [next _ _ same, isState.plain]
    exact .refl _

theorem readHuffString_extends (back : Bytes) (inflater : HdInflater) (buf : HdBuf) (front : Bytes)
    (next : ∀ i buf, i.state = inflater.state →
      inflateStep (put i buf) back = readHuffString put (put i buf) buf back done) :
    Extends back (readHuffString put inflater buf front done)
      (readHuffString put inflater buf (front ++ back) done) := by
  by_cases whole : inflater.left ≤ front.length
  · have sameRead : hdInflateReadHuff inflater buf (front ++ back) =
        hdInflateReadHuff inflater buf front >>= fun r => .ok (r.1, r.2.1, r.2.2 ++ back) := by
      rw [hdInflateReadHuff_of_le whole,
        hdInflateReadHuff_of_le (by rw [List.length_append]; omega),
        List.take_append_of_le_length whole, List.drop_append_of_le_length whole]
      cases hdHuffDecode inflater.huffDecodeCtx (front.take inflater.left) true with
      | error rv => rfl
      | ok run =>
          show (if huffDecodeFailureState run.1 = true then _ else _) = Except.bind (ite _ _ _) _
          split <;> rfl
    rw [readHuffString, readHuffString, sameRead]
    cases read : hdInflateReadHuff inflater buf front with
    | error rv => exact ⟨_, rfl⟩
    | ok r => exact isState.longer back r.1 r.2.1 r.2.2 (by
        rw [(hdInflateReadHuff_rest read).1, Nat.sub_eq_zero_of_le whole])
  · have short := not_le.mp whole
    rw [readHuffString, readHuffString, hdInflateReadHuff_append short]
    cases read : hdInflateReadHuff inflater buf front with
    | error rv => exact ⟨_, rfl⟩
    | ok r =>
        have rest : r.1.left ≠ 0 := by
          rw [(hdInflateReadHuff_rest read).1]
          exact Nat.sub_ne_zero_of_lt short
        have same : r.1.state = inflater.state := by
          rw [(hdInflateReadHuff_spec read).1]
        show Extends back (done r.1 r.2.1 r.2.2) (afterRead _ (hdInflateReadHuff r.1 r.2.1 back) done)
        rw [isState.more _ _ _ rest]
        show SameStep _ (inflateStep _ back)
        rw [next _ _ same, readHuffString, isState.huff]
        cases hdInflateReadHuff r.1 r.2.1 back with
        | error rv => exact .fail _ _ rv
        | ok r' =>
            show SameStep _ (done (put r'.1 r.2.1) r'.2.1 r'.2.2)
            rw [isState.again]
            exact .refl _

end

theorem inflateOpcode_extends (back : Bytes) (inflater : HdInflater) (c : Byte) {front : Bytes}
    (begun : front ≠ []) :
    Extends back (inflateOpcode inflater c front) (inflateOpcode inflater c (front ++ back)) := by
  have dropped : (front ++ back).drop 1 = front.drop 1 ++ back := by
    cases front with
    | nil => exact absurd rfl begun
    | cons b front => rfl
  unfold inflateOpcode
  dsimp only
  rw [dropped]
  repeat' split
  all_goals first
    | exact rfl
    | exact ⟨inflater, rfl⟩

/-- A round with more input behind it. -/
theorem inflateStep_append {inflater : HdInflater} (fresh : LenFresh inflater) {front : Bytes}
    (begun : inflater.state.readsValue = false → front ≠ []) (back : Bytes) :
    Extends back (inflateStep inflater front) (inflateStep inflater (front ++ back)) := by
  -- A round that looks at a first byte sees the same one with more input behind it.
  have head (nonempty : front ≠ []) : (front ++ back).headD 0 = front.headD 0 := by
    cases front with
    | nil => exact absurd rfl nonempty
    | cons c front => rfl
  -- States that look at a byte, states that read a number, and states that read a string.
  cases state : inflater.state with
  | expectTableSize =>
      have nonempty := begun (by rw [state]; rfl)
      simp only [inflateStep, state, head nonempty]
      split
      · exact ⟨inflater, rfl⟩
      · exact inflateOpcode_extends back inflater _ nonempty
  | inflateStart =>
      have nonempty := begun (by rw [state]; rfl)
      simp only [inflateStep, state, head nonempty]
      exact inflateOpcode_extends back inflater _ nonempty
  | opcode =>
      have nonempty := begun (by rw [state]; rfl)
      simp only [inflateStep, state, head nonempty]
      exact inflateOpcode_extends back inflater _ nonempty
  | readTableSize =>
      have nonempty := begun (by rw [state]; rfl)
      simp only [inflateStep, state, inflateTableSize_eq]
      exact afterLen_extends (by decide) (by decide) (fresh (by rw [state]; rfl)) (fun _ => nonempty)
        back _ (fun _ _ => rfl)
        (fun left shift => by simp only [inflateStep, state, inflateTableSize_eq])
  | readIndex =>
      have nonempty := begun (by rw [state]; rfl)
      simp only [inflateStep, state, inflateIndex_eq]
      exact afterLen_extends (indexPrefix_range _).1 (indexPrefix_range _).2
        (fresh (by rw [state]; rfl)) (fun _ => nonempty) back _ (indexRead_extends back)
        (fun left shift => by simp only [inflateStep, state, inflateIndex_eq]; rfl)
  | newnameCheckNamelen =>
      have nonempty := begun (by rw [state]; rfl)
      simp only [inflateStep, state, head nonempty, inflateNamelen]
      exact inflateStringLen_extends (fun _ => rfl) nonempty back (fun left shift => rfl)
  | newnameReadNamelen =>
      have nonempty := begun (by rw [state]; rfl)
      simp only [inflateStep, state, inflateNamelen]
      exact inflateStringLen_extends (fresh (by rw [state]; rfl)) nonempty back
        (fun left shift => by simp only [inflateStep, state, inflateNamelen])
  | newnameReadNamehuff =>
      simp only [inflateStep, state]
      exact readHuffString_extends nameState back inflater _ front
        (fun i buf same => by simp only [inflateStep, same, state]; rfl)
  | newnameReadName =>
      simp only [inflateStep, state]
      exact readString_extends nameState back inflater _ front
        (fun i buf same => by simp only [inflateStep, same, state]; rfl)
  | checkValuelen =>
      have nonempty := begun (by rw [state]; rfl)
      simp only [inflateStep, state, head nonempty, inflateValuelen]
      exact inflateStringLen_extends (fun _ => rfl) nonempty back (fun left shift => rfl)
  | readValuelen =>
      have nonempty := begun (by rw [state]; rfl)
      simp only [inflateStep, state, inflateValuelen]
      exact inflateStringLen_extends (fresh (by rw [state]; rfl)) nonempty back
        (fun left shift => by simp only [inflateStep, state, inflateValuelen])
  | readValuehuff =>
      simp only [inflateStep, state]
      exact readHuffString_extends valueState back inflater _ front
        (fun i buf same => by simp only [inflateStep, same, state]; rfl)
  | readValue =>
      simp only [inflateStep, state]
      exact readString_extends valueState back inflater _ front
        (fun i buf same => by simp only [inflateStep, same, state]; rfl)

end Hfc.Hpack
