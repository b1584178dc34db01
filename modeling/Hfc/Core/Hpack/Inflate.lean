/-
Module: Hfc.Core.Hpack.Inflate
Layer: Core
Purpose: The inflater: the state machine that takes a header block in whatever pieces it comes, and
  the loop of its callers over the header fields of a piece.
Imports: Hfc.Core.Hpack.Deflate
Main exports: HdInflateState, HdInflater, hdInflateInit, hdInflateChangeTableSize, hdInflateReadLen,
  hdInflateHuffStored, hdInflateReadHuff, hdInflateRead, InflateStep, inflateStep, inflateLoop,
  hdInflateHdNv, hdInflateEndHeaders, inflateHeaderBlock
-/
import Hfc.Core.Hpack.Deflate

namespace Hfc.Hpack

open ByteText

/-! ### The inflater

The fields of `nghttp2_hd_inflater` that a round reads or writes, and the calls that change its
table between blocks. -/

/-- `nghttp2_hd_opcode`: the kind of representation that is being read. -/
inductive HdOpcode where
  | none
  | indexed
  | newname
  | indname
deriving DecidableEq, Repr

/-- `nghttp2_hd_inflate_state`: what the next byte belongs to. A piece of the input may end in any
of these states, and the next one goes on there. -/
inductive HdInflateState where
  | expectTableSize
  | inflateStart
  | opcode
  | readTableSize
  | readIndex
  | newnameCheckNamelen
  | newnameReadNamelen
  | newnameReadNamehuff
  | newnameReadName
  | checkValuelen
  | readValuelen
  | readValuehuff
  | readValue
deriving DecidableEq, Repr

/-- The buffer of a name or a value: its bytes so far, and how many it was allocated for. -/
structure HdBuf where
  text : Bytes
  room : Nat
deriving DecidableEq, Repr

/-- `nghttp2_hd_inflater`: the table, the buffers of name and value, what is left of the number or
string being read, and the state of the machine. -/
structure HdInflater where
  ctx : HdContext
  huffDecodeCtx : Nat
  namebuf : HdBuf
  valuebuf : HdBuf
  left : Nat
  index : Nat
  settingsHdTableBufsizeMax : Nat
  minHdTableBufsizeMax : Nat
  shift : Nat
  opcode : HdOpcode
  state : HdInflateState
  huffmanEncoded : Bool
  indexRequired : Bool
  noIndex : Bool

/-- `NGHTTP2_HD_MAX_NV`: how long a name or a value may be, in the form in which it is sent. -/
def hdMaxNv : Nat := 65536

/-- `nghttp2_hd_inflate_init`: an empty table with the default limit, at the start of a block. -/
def hdInflateInit : HdInflater where
  ctx := hdContextInit
  huffDecodeCtx := 0
  namebuf := { text := [], room := 0 }
  valuebuf := { text := [], room := 0 }
  left := 0
  index := 0
  settingsHdTableBufsizeMax := hdDefaultMaxBufferSize
  minHdTableBufsizeMax := uint32Max
  shift := 0
  opcode := .none
  state := .inflateStart
  huffmanEncoded := false
  indexRequired := false
  noIndex := false

/-- Shrink the table of an inflater, which has no map. -/
def HdInflater.shrink (inflater : HdInflater) (bufsizeMax : Nat) : HdInflater :=
  { inflater with
    ctx := (hdContextShrinkTableSize { inflater.ctx with hdTableBufsizeMax := bufsizeMax } none).1 }

/-- `nghttp2_hd_inflate_change_table_size`, between two blocks only. A limit below the present one
evicts at once, and the other side has to acknowledge it at the head of its next block. -/
def hdInflateChangeTableSize (inflater : HdInflater) (settingsMaxDynamicTableSize : Nat) :
    Except Int HdInflater :=
  if inflater.state = .expectTableSize || inflater.state = .inflateStart then
    let inflater := { inflater with settingsHdTableBufsizeMax := settingsMaxDynamicTableSize }
    if inflater.ctx.hdTableBufsizeMax > settingsMaxDynamicTableSize then
      .ok ({ inflater with
        state := .expectTableSize
        minHdTableBufsizeMax := settingsMaxDynamicTableSize }.shrink settingsMaxDynamicTableSize)
    else .ok inflater
  else .error nghttp2ErrInvalidState

/-! ### Reading

The four readers that a round calls: the Huffman flag, a number, a string that is coded and one that
is not. Each takes what the input offers and says how much is left. -/

/-- `hd_inflate_set_huffman_encoded`, for the byte at `in`. -/
def hdInflateSetHuffmanEncoded (inflater : HdInflater) (c : Byte) : HdInflater :=
  { inflater with huffmanEncoded := decide (c.toNat &&& 1 <<< 7 ≠ 0) }

/-- `hd_inflate_read_len`: the inflater, `*rfin`, and the input behind what was read. `left` came
out of the same function or is zero, so it has 32 bits. -/
def hdInflateReadLen (inflater : HdInflater) (input : Bytes) (prefixlen maxlen : Nat) :
    Except Int (HdInflater × Bool × Bytes) :=
  match decodeLength inflater.left inflater.shift input prefixlen with
  | none => .error nghttp2ErrHeaderComp
  | some out =>
      if out.res > maxlen then .error nghttp2ErrHeaderComp
      else .ok ({ inflater with left := out.res, shift := out.shift }, out.fin, out.input)

/-- What the call of `nghttp2_hd_huff_decode` in `hd_inflate_read_huff` leaves in the inflater and,
through `buf->last`, in the buffer. The bytes are stored as they are decoded, so they are there
also when the call fails. -/
def hdInflateHuffStored (inflater : HdInflater) (buf : HdBuf) (input : Bytes) :
    HdInflater × HdBuf :=
  let fin := decide (input.length ≥ inflater.left)
  let chunk := if fin then input.take inflater.left else input
  let run := huffRun inflater.huffDecodeCtx chunk
  ({ inflater with huffDecodeCtx := run.1 }, { buf with text := buf.text ++ run.2 })

/-- `hd_inflate_read_huff`, into a buffer: what a call that succeeds leaves behind. A call that fails
leaves `hdInflateHuffStored`, and `left` as it is. -/
def hdInflateReadHuff (inflater : HdInflater) (buf : HdBuf) (input : Bytes) :
    Except Int (HdInflater × HdBuf × Bytes) := do
  let fin := decide (input.length ≥ inflater.left)
  let chunk := if fin then input.take inflater.left else input
  let run ← hdHuffDecode inflater.huffDecodeCtx chunk fin
  if huffDecodeFailureState run.1 then .error nghttp2ErrHeaderComp
  else
    .ok ({ inflater with huffDecodeCtx := run.1, left := inflater.left - chunk.length },
      { buf with text := buf.text ++ run.2 }, input.drop chunk.length)

/-- `hd_inflate_read`, into a buffer: as many bytes as are left of the string, or as the input has.
-/
def hdInflateRead (inflater : HdInflater) (buf : HdBuf) (input : Bytes) :
    HdInflater × HdBuf × Bytes :=
  let len := min input.length inflater.left
  ({ inflater with left := inflater.left - len }, { buf with text := buf.text ++ input.take len },
    input.drop len)

/-! ### Header fields

What is done with a field once its last byte is there: the flags, the dynamic table and the field
that is emitted. -/

/-- The flags of a header field that was read: whether it is never to be indexed. -/
def HdInflater.nvFlags (inflater : HdInflater) : Nat :=
  if inflater.noIndex then nvFlagNoIndex else nvFlagNone

/-- The inflater with a field in its table, if the field is to be indexed. -/
def HdInflater.indexNv (inflater : HdInflater) (nv : HdNv) : HdInflater :=
  if inflater.indexRequired then
    { inflater with ctx := (addHdTableIncremental inflater.ctx nv none 0).1 }
  else inflater

/-- `hd_inflate_commit_newname`: the inflater and the header field. -/
def hdInflateCommitNewname (inflater : HdInflater) : HdInflater × HdNv :=
  let nv :=
    { name := inflater.namebuf.text
      value := inflater.valuebuf.text
      token := lookupToken inflater.namebuf.text
      flags := inflater.nvFlags }
  (inflater.indexNv nv, nv)

/-- `hd_inflate_commit_indname`; none is the assertion that fails. -/
def hdInflateCommitIndname (inflater : HdInflater) : Option (HdInflater × HdNv) :=
  (hdTableGet inflater.ctx inflater.index).map fun found =>
    let nv := { found with value := inflater.valuebuf.text, flags := inflater.nvFlags }
    (inflater.indexNv nv, nv)

/-! ### The state machine

One definition for each group of cases of the `switch` in `nghttp2_hd_inflate_hd_nv`, the loop
around it, and the loop of `examples/deflate.c` that calls it for a block. -/

/-- What becomes of a round of the loop: it goes on, at once if it is busy; a header field is
returned; the input is at its end too early; or the block is wrong. -/
inductive InflateStep where
  | again (inflater : HdInflater) (input : Bytes) (busy : Bool)
  | emit (inflater : HdInflater) (input : Bytes) (nv : HdNv)
  | almostOk (inflater : HdInflater)
  | fail (inflater : HdInflater) (rv : Int)

/-- The states `INFLATE_START` and `OPCODE`: the first byte of a representation. -/
def inflateOpcode (inflater : HdInflater) (c : Byte) (input : Bytes) : InflateStep :=
  let inflater' := { inflater with left := 0, shift := 0 }
  if c.toNat &&& 0xe0 = 0x20 then
    if inflater.state = .opcode then .fail inflater nghttp2ErrHeaderComp
    else .again { inflater' with opcode := .indexed, state := .readTableSize } input false
  else if c.toNat &&& 0x80 ≠ 0 then
    .again { inflater' with opcode := .indexed, state := .readIndex } input false
  else
    let inflater' :=
      { inflater' with
        indexRequired := decide (c.toNat &&& 0x40 ≠ 0)
        noIndex := decide (c.toNat &&& 0xf0 = 0x10) }
    if c = 0x40 || c = 0 || c = 0x10 then
      .again { inflater' with opcode := .newname, state := .newnameCheckNamelen } (input.drop 1) false
    else .again { inflater' with opcode := .indname, state := .readIndex } input false

/-- The state `READ_TABLE_SIZE`: a new limit of the table, no larger than what was announced to the
other side. -/
def inflateTableSize (inflater : HdInflater) (input : Bytes) : InflateStep :=
  match hdInflateReadLen inflater input 5
      (min inflater.minHdTableBufsizeMax inflater.settingsHdTableBufsizeMax) with
  | .error rv => .fail inflater rv
  | .ok (inflater, rfin, input) =>
      if !rfin then .almostOk inflater
      else
        let inflater := { inflater with minHdTableBufsizeMax := uint32Max }
        .again { inflater.shrink inflater.left with state := .inflateStart } input false

/-- The state `READ_INDEX`, with `hd_inflate_commit_indexed`. -/
def inflateIndex (inflater : HdInflater) (input : Bytes) : InflateStep :=
  let prefixlen :=
    if inflater.opcode = .indexed then 7 else if inflater.indexRequired then 6 else 4
  match hdInflateReadLen inflater input prefixlen (getMaxIndex inflater.ctx) with
  | .error rv => .fail inflater rv
  | .ok (inflater, rfin, input) =>
      if !rfin then .almostOk inflater
      else if inflater.left = 0 then .fail inflater nghttp2ErrHeaderComp
      else
        let inflater := { inflater with index := inflater.left - 1 }
        if inflater.opcode = .indexed then
          match hdTableGet inflater.ctx inflater.index with
          | none => .fail inflater assertionFailed
          | some nv => .emit { inflater with state := .opcode } input nv
        else .again { inflater with state := .checkValuelen } input false

/-- A state that reads the length of a string: the state behind it depends on the encoding, and so
does the room that is allocated, with a byte for the NUL. -/
def inflateStringLen (inflater : HdInflater) (input : Bytes)
    (next : (huffman : Bool) → HdInflater → HdBuf → HdInflater) (busy : Bool) : InflateStep :=
  match hdInflateReadLen inflater input 7 hdMaxNv with
  | .error rv => .fail inflater rv
  | .ok (inflater, rfin, input) =>
      if !rfin then .almostOk inflater
      else if inflater.huffmanEncoded then
        let inflater := { inflater with huffDecodeCtx := huffDecodeContextInit }
        .again (next true inflater { text := [], room := inflater.left * 2 + 1 }) input busy
      else .again (next false inflater { text := [], room := inflater.left + 1 }) input busy

/-- The state `NEWNAME_READ_NAMELEN`: the length of a name that is sent as a string. -/
def inflateNamelen (inflater : HdInflater) (input : Bytes) : InflateStep :=
  inflateStringLen inflater input (fun huffman inflater buf =>
    { inflater with
      namebuf := buf
      state := if huffman then .newnameReadNamehuff else .newnameReadName }) false

/-- The state `READ_VALUELEN`. The round behind it runs without input too, since a value may be
empty. -/
def inflateValuelen (inflater : HdInflater) (input : Bytes) : InflateStep :=
  inflateStringLen inflater input (fun huffman inflater buf =>
    { inflater with
      valuebuf := buf
      state := if huffman then .readValuehuff else .readValue }) true

/-- What follows on a name that was read as far as there is input. -/
def inflateNameRead (inflater : HdInflater) (buf : HdBuf) (input : Bytes) : InflateStep :=
  let inflater := { inflater with namebuf := buf }
  if inflater.left ≠ 0 then .almostOk inflater
  else .again { inflater with state := .checkValuelen } input false

/-- What follows on a value that was read as far as there is input. -/
def inflateValueRead (inflater : HdInflater) (buf : HdBuf) (input : Bytes) : InflateStep :=
  let inflater := { inflater with valuebuf := buf }
  if inflater.left ≠ 0 then .almostOk inflater
  else if inflater.opcode = .newname then
    let committed := hdInflateCommitNewname inflater
    .emit { committed.1 with state := .opcode } input committed.2
  else
    match hdInflateCommitIndname inflater with
    | none => .fail inflater assertionFailed
    | some committed => .emit { committed.1 with state := .opcode } input committed.2

/-- Begin to read a length, in the state behind. Its first byte says whether the string is coded. -/
def HdInflater.startLen (inflater : HdInflater) (c : Byte) (state : HdInflateState) : HdInflater :=
  { hdInflateSetHuffmanEncoded inflater c with state := state, left := 0, shift := 0 }

/-- A round of the loop of `nghttp2_hd_inflate_hd_nv`. There is input, unless the state is one that
reads a value. -/
def inflateStep (inflater : HdInflater) (input : Bytes) : InflateStep :=
  let c := input.headD 0
  match inflater.state with
  | .expectTableSize =>
      if c.toNat &&& 0xe0 ≠ 0x20 then .fail inflater nghttp2ErrHeaderComp
      else inflateOpcode inflater c input
  | .inflateStart => inflateOpcode inflater c input
  | .opcode => inflateOpcode inflater c input
  | .readTableSize => inflateTableSize inflater input
  | .readIndex => inflateIndex inflater input
  | .newnameCheckNamelen => inflateNamelen (inflater.startLen c .newnameReadNamelen) input
  | .newnameReadNamelen => inflateNamelen inflater input
  | .newnameReadNamehuff =>
      match hdInflateReadHuff inflater inflater.namebuf input with
      | .error rv =>
          let stored := hdInflateHuffStored inflater inflater.namebuf input
          .fail { stored.1 with namebuf := stored.2 } rv
      | .ok (inflater, buf, input) => inflateNameRead inflater buf input
  | .newnameReadName =>
      let read := hdInflateRead inflater inflater.namebuf input
      inflateNameRead read.1 read.2.1 read.2.2
  | .checkValuelen => inflateValuelen (inflater.startLen c .readValuelen) input
  | .readValuelen => inflateValuelen inflater input
  | .readValuehuff =>
      match hdInflateReadHuff inflater inflater.valuebuf input with
      | .error rv =>
          let stored := hdInflateHuffStored inflater inflater.valuebuf input
          .fail { stored.1 with valuebuf := stored.2 } rv
      | .ok (inflater, buf, input) => inflateValueRead inflater buf input
  | .readValue =>
      let read := hdInflateRead inflater inflater.valuebuf input
      inflateValueRead read.1 read.2.1 read.2.2

/-- The loop of `nghttp2_hd_inflate_hd_nv`: it ends where the input does, or with the last round. -/
def inflateLoop : (rounds : Nat) → HdInflater → Bytes → (busy : Bool) → InflateStep
  | 0, inflater, input, busy => .again inflater input busy
  | rounds + 1, inflater, input, busy =>
      if input = [] && !busy then .again inflater input busy
      else
        match inflateStep inflater input with
        | .again inflater input busy => inflateLoop rounds inflater input busy
        | last => last

/-- No more than two rounds are needed for a byte, and two at the end. -/
def inflateRounds (input : Bytes) : Nat :=
  2 * input.length + 2

/-- What `nghttp2_hd_inflate_hd_nv` returns: the input that is left, the header field if one is
emitted, and whether the block is complete. -/
structure Inflated where
  input : Bytes
  emitted : Option HdNv
  final : Bool
deriving DecidableEq, Repr

/-- An inflater that has failed. It takes no further input, as its table is no longer that of the
other side. -/
def HdInflater.fail (inflater : HdInflater) : HdInflater :=
  { inflater with ctx := { inflater.ctx with bad := true } }

/-- `nghttp2_hd_inflate_hd_nv`: up to one header field. Where the last piece of a block ends inside
a representation the block is wrong. -/
def hdInflateHdNv (inflater : HdInflater) (input : Bytes) (inFinal : Bool) :
    HdInflater × Except Int Inflated :=
  if inflater.ctx.bad then (inflater, .error nghttp2ErrHeaderComp)
  else
    match inflateLoop (inflateRounds input) inflater input false with
    | .again inflater _ _ =>
        if inFinal && inflater.state ≠ .opcode && inflater.state ≠ .inflateStart then
          (inflater.fail, .error nghttp2ErrHeaderComp)
        else (inflater, .ok { input := [], emitted := none, final := inFinal })
    | .emit inflater input nv => (inflater, .ok { input := input, emitted := some nv, final := false })
    | .almostOk inflater =>
        if inFinal then (inflater.fail, .error nghttp2ErrHeaderComp)
        else (inflater, .ok { input := [], emitted := none, final := false })
    | .fail inflater rv => (inflater.fail, .error rv)

/-- `nghttp2_hd_inflate_end_headers`: the next byte is the first one of a block. -/
def hdInflateEndHeaders (inflater : HdInflater) : HdInflater :=
  { inflater with state := .inflateStart }

/-- What the callers' loop makes of a piece of a header block: its header fields, and the error that
ended it. -/
structure BlockInflated where
  inflater : HdInflater
  headers : List HdNv
  error : Option Int

/-- The loop of `inflate_header_block`: a round for each header field, and one that finds none. -/
def inflateBlockLoop : (rounds : Nat) → HdInflater → Bytes → (final : Bool) → BlockInflated
  | 0, inflater, _, _ => { inflater := inflater, headers := [], error := none }
  | rounds + 1, inflater, input, final =>
      match hdInflateHdNv inflater input final with
      | (inflater, .error rv) => { inflater := inflater, headers := [], error := some rv }
      | (inflater, .ok inflated) =>
          if inflated.final then
            { inflater := hdInflateEndHeaders inflater, headers := [], error := none }
          else
            match inflated.emitted with
            | none =>
                if inflated.input = [] then { inflater := inflater, headers := [], error := none }
                else inflateBlockLoop rounds inflater inflated.input final
            | some nv =>
                let later := inflateBlockLoop rounds inflater inflated.input final
                { later with headers := nv :: later.headers }

/-- `inflate_header_block`. Every header field takes a byte at least. -/
def inflateHeaderBlock (inflater : HdInflater) (input : Bytes) (final : Bool) : BlockInflated :=
  inflateBlockLoop (input.length + 1) inflater input final

end Hfc.Hpack
