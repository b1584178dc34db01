/-
Module: Hfc.Core.Hpack.Deflate
Layer: Core
Purpose: The deflater: how a header field is represented, the bytes of each representation, and the
  blocks they make.
Imports: Hfc.Core.Hpack.Table, Hfc.Core.Hpack.Huffman, Hfc.Core.Hpack.Integer
Main exports: HdDeflater, hdDeflateInit2, hdDeflateChangeTableSize, emitString, emitIndexedBlock,
  emitIndnameBlock, emitNewnameBlock, emitTableSize, indexingModeOf, deflateNv, hdDeflateHdBufs,
  hdDeflateHd, hdDeflateHdVec, hdDeflateBound
-/
import Hfc.Core.Hpack.Table
import Hfc.Core.Hpack.Huffman
import Hfc.Core.Hpack.Integer

namespace Hfc.Hpack

open ByteText

/-! ### Representations

One definition for each form of a header field on the wire, in the order of `nghttp2_hd.c`. Each
writes through `nghttp2_bufs` and may run out of room. -/

/-- What `emit_table_size`, `emit_indexed_block`, `emit_string` and `emit_indname_block` have in
common: a number behind the bits of a first byte, by way of a buffer of 16 bytes. -/
def emitNumber (bufs : Bufs) (first : Byte) (n prefixlen : Nat) : Except Int Bufs :=
  let blocklen := countEncodedLength n prefixlen
  if 16 < blocklen then .error nghttp2ErrHeaderComp
  else bufsAdd bufs ((encodeLength first n prefixlen).take blocklen)

/-- `emit_table_size`: a change of the table size, for the inflater to follow, behind the bits 001.
-/
def emitTableSize (bufs : Bufs) (tableSize : Nat) : Except Int Bufs :=
  emitNumber bufs 0x20 tableSize 5

/-- `emit_indexed_block`: a field that is in a table with its value, as its index counted from one.
-/
def emitIndexedBlock (bufs : Bufs) (idx : Nat) : Except Int Bufs :=
  emitNumber bufs 0x80 (idx + 1) 7

/-- `emit_string`: a Huffman text when it is shorter than the string. -/
def emitString (bufs : Bufs) (str : Bytes) : Except Int Bufs := do
  let enclen := hdHuffEncodeCount str
  if enclen < str.length then
    let bufs ← emitNumber bufs 0x80 enclen 7
    hdHuffEncode bufs str
  else
    let bufs ← emitNumber bufs 0 str.length 7
    bufsAdd bufs str

/-- `pack_first_byte`: the bits of the first byte that say what the inflater is to do with the
field. -/
def packFirstByte : IndexingMode → Byte
  | .withIndexing => 0x40
  | .withoutIndexing => 0
  | .neverIndexing => 0x10

/-- `emit_indname_block`: the index of a field with the name, and the value behind it. The index has
six bits of the first byte when the field is to be indexed, and four otherwise. -/
def emitIndnameBlock (bufs : Bufs) (idx : Nat) (nv : Nv) (indexingMode : IndexingMode) :
    Except Int Bufs := do
  let prefixlen := if indexingMode = .withIndexing then 6 else 4
  let bufs ← emitNumber bufs (packFirstByte indexingMode) (idx + 1) prefixlen
  emitString bufs nv.value

/-- `emit_newname_block`: a first byte without an index, the name and the value. -/
def emitNewnameBlock (bufs : Bufs) (nv : Nv) (indexingMode : IndexingMode) : Except Int Bufs := do
  let bufs ← bufsAddb bufs (packFirstByte indexingMode)
  let bufs ← emitString bufs nv.name
  emitString bufs nv.value

/-! ### The deflater

Its state, the choice of a representation for a field, a whole block, and the three entry points
that differ in the buffers they are given. -/

/-- `nghttp2_hd_deflater`: the table and its map, the limit of the application, and what has to be
told of changes of the limit since the last block. -/
structure HdDeflater where
  ctx : HdContext
  map : HdMap
  deflateHdTableBufsizeMax : Nat
  minHdTableBufsizeMax : Nat
  notifyTableSizeChange : Bool

/-- `UINT32_MAX`. -/
def uint32Max : Nat := 2 ^ 32 - 1

/-- `nghttp2_hd_deflate_init2`: a limit below the default is told to the inflater at the head of the
first block. -/
def hdDeflateInit2 (maxDeflateDynamicTableSize : Nat) : HdDeflater :=
  let small := decide (maxDeflateDynamicTableSize < hdDefaultMaxBufferSize)
  { ctx :=
      if small then { hdContextInit with hdTableBufsizeMax := maxDeflateDynamicTableSize }
      else hdContextInit
    map := hdMapInit
    deflateHdTableBufsizeMax := maxDeflateDynamicTableSize
    minHdTableBufsizeMax := uint32Max
    notifyTableSizeChange := small }

/-- The context and the map of a deflater, after a change of its table. -/
def HdDeflater.withTable (deflater : HdDeflater) (changed : HdContext × Option HdMap) : HdDeflater :=
  { deflater with
    ctx := changed.1
    map := changed.2.getD deflater.map }

/-- `nghttp2_hd_deflate_change_table_size`: the limit never gets larger than the one the application
gave, and the least of the limits since the last block is remembered. -/
def hdDeflateChangeTableSize (deflater : HdDeflater) (settingsMaxDynamicTableSize : Nat) :
    HdDeflater :=
  let nextBufsize := min settingsMaxDynamicTableSize deflater.deflateHdTableBufsizeMax
  let deflater :=
    { deflater with
      ctx := { deflater.ctx with hdTableBufsizeMax := nextBufsize }
      minHdTableBufsizeMax := min deflater.minHdTableBufsizeMax nextBufsize
      notifyTableSizeChange := true }
  deflater.withTable (hdContextShrinkTableSize deflater.ctx (some deflater.map))

/-- `hd_deflate_decide_indexing`: some names whose values keep changing are not put into the table,
nor are fields that would take more than three quarters of it. -/
def hdDeflateDecideIndexing (deflater : HdDeflater) (nv : Nv) (token : Int) : IndexingMode :=
  if token = tokenPath || token = tokenAge || token = tokenContentLength || token = tokenEtag ||
      token = tokenIfModifiedSince || token = tokenIfNoneMatch || token = tokenLocation ||
      token = tokenSetCookie ||
      entryRoom nv.name.length nv.value.length >
        deflater.ctx.hdTableBufsizeMax * 3 % 2 ^ 64 / 4 then
    .withoutIndexing
  else .withIndexing

/-- The hash that `deflate_nv` computes for a name with its token. -/
def hashOfToken (nv : Nv) (token : Int) : Nat :=
  if token = -1 then nameHash nv
  else if token ≤ tokenWwwAuthenticate then
    (staticTable[token.toNat]?.map fun ent => ent.hash).getD 0
  else 0

/-- The indexing mode that `deflate_nv` chooses. Credentials, short cookies and the fields the
application marks are never to be indexed, by no one on their way. -/
def indexingModeOf (deflater : HdDeflater) (nv : Nv) (token : Int) : IndexingMode :=
  if token = tokenAuthorization || (token = tokenCookie && nv.value.length < 20) ||
      nv.flags &&& nvFlagNoIndex ≠ 0 then .neverIndexing
  else hdDeflateDecideIndexing deflater nv token

/-- `deflate_nv`. The name of an entry that is put in is that of the entry that was found. -/
def deflateNv (deflater : HdDeflater) (bufs : Bufs) (nv : Nv) : HdDeflater × Except Int Bufs :=
  let token := lookupToken nv.name
  let hash := hashOfToken nv token
  let indexingMode := indexingModeOf deflater nv token
  let res := searchHdTable deflater.ctx nv token indexingMode deflater.map hash
  match res.index with
  | some idx =>
      if res.nameValueMatch then (deflater, emitIndexedBlock bufs idx)
      else if indexingMode = .withIndexing then
        match hdTableGet deflater.ctx idx with
        | none => (deflater, .error assertionFailed)
        | some found =>
            let hdNv := { name := found.name, value := nv.value, token := token, flags := nvFlagNone }
            (deflater.withTable (addHdTableIncremental deflater.ctx hdNv (some deflater.map) hash),
              emitIndnameBlock bufs idx nv indexingMode)
      else (deflater, emitIndnameBlock bufs idx nv indexingMode)
  | none =>
      if indexingMode = .withIndexing then
        let hdNv := { name := nv.name, value := nv.value, token := token, flags := nvFlagNone }
        (deflater.withTable (addHdTableIncremental deflater.ctx hdNv (some deflater.map) hash),
          emitNewnameBlock bufs nv indexingMode)
      else (deflater, emitNewnameBlock bufs nv indexingMode)

/-- The loop of `nghttp2_hd_deflate_hd_bufs`. The first field that fails ends it, and the deflater
stays as that field has left it. -/
def deflateNvs : HdDeflater → Bufs → List Nv → HdDeflater × Except Int Bufs
  | deflater, bufs, [] => (deflater, .ok bufs)
  | deflater, bufs, nv :: nva =>
      match deflateNv deflater bufs nv with
      | (deflater, .error rv) => (deflater, .error rv)
      | (deflater, .ok bufs) => deflateNvs deflater bufs nva

/-- The table sizes at the head of a block: the least limit since the last one, if it was below the
present limit, and then that. -/
def emitTableSizes (deflater : HdDeflater) (bufs : Bufs) : Except Int Bufs := do
  let bufs ←
    if deflater.ctx.hdTableBufsizeMax > deflater.minHdTableBufsizeMax then
      emitTableSize bufs deflater.minHdTableBufsizeMax
    else .ok bufs
  emitTableSize bufs deflater.ctx.hdTableBufsizeMax

/-- A deflater that has failed. It writes no further block, as the inflater could not follow it. -/
def HdDeflater.fail (deflater : HdDeflater) : HdDeflater :=
  { deflater with ctx := { deflater.ctx with bad := true } }

/-- `nghttp2_hd_deflate_hd_bufs`: the changes of the table size that have to be told, and then the
fields one by one. -/
def hdDeflateHdBufs (deflater : HdDeflater) (bufs : Bufs) (nva : List Nv) :
    HdDeflater × Except Int Bufs :=
  if deflater.ctx.bad then (deflater, .error nghttp2ErrHeaderComp)
  else
    let started : HdDeflater × Except Int Bufs :=
      if deflater.notifyTableSizeChange then
        ({ deflater with
            notifyTableSizeChange := false
            minHdTableBufsizeMax := uint32Max },
          emitTableSizes deflater bufs)
      else (deflater, .ok bufs)
    match started with
    | (deflater, .error rv) => (deflater.fail, .error rv)
    | (deflater, .ok bufs) =>
        match deflateNvs deflater bufs nva with
        | (deflater, .error rv) => (deflater.fail, .error rv)
        | (deflater, .ok bufs) => (deflater, .ok bufs)

/-- `nghttp2_bufs_wrap_init2`, for the lengths of the pieces: no chunk can be allocated behind them.
The function takes pieces of any length; that those behind the first one have room is what its
caller has to see to, as for any `Bufs`. -/
def bufsWrapInit2 (first : Nat) (later : List Nat) (roomy : ∀ room ∈ later, 0 < room) : Bufs where
  out := []
  avail := first
  next := later
  exhausted := nghttp2ErrBufferError
  roomy := roomy
  negative := by decide

/-- What `nghttp2_hd_deflate_hd` and `nghttp2_hd_deflate_hd_vec` return: the bytes that were
written, or an error. -/
def deflateInto (deflater : HdDeflater) (bufs : Bufs) (nva : List Nv) :
    HdDeflater × Except Int Bytes :=
  match hdDeflateHdBufs deflater bufs nva with
  | (deflater, .error rv) =>
      (deflater, .error (if rv = nghttp2ErrBufferError then nghttp2ErrInsuffBufsize else rv))
  | (deflater, .ok bufs) => (deflater, .ok bufs.out)

/-- `nghttp2_hd_deflate_hd`: a block into one buffer of `buflen` bytes. -/
def hdDeflateHd (deflater : HdDeflater) (buflen : Nat) (nva : List Nv) :
    HdDeflater × Except Int Bytes :=
  deflateInto deflater (bufsWrapInit2 buflen [] (fun _ member => nomatch member)) nva

/-- `nghttp2_hd_deflate_hd_vec`: a block into several buffers, each filled up before the next is
begun. -/
def hdDeflateHdVec (deflater : HdDeflater) (first : Nat) (later : List Nat)
    (roomy : ∀ room ∈ later, 0 < room) (nva : List Nv) : HdDeflater × Except Int Bytes :=
  deflateInto deflater (bufsWrapInit2 first later roomy) nva

/-- `nghttp2_hd_deflate_bound`: two table sizes of six bytes, and for each field two lengths of six
bytes and its strings as they are. -/
def hdDeflateBound (nva : List Nv) : Nat :=
  12 + 6 * 2 * nva.length + (nva.map fun nv => nv.name.length + nv.value.length).sum

end Hfc.Hpack
