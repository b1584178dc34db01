/-
Module: Hfc.Core.Hpack.Huffman
Layer: Core
Purpose: The Huffman coder of nghttp2 for header strings: the encoder with its accumulator of 64
  bits, and the decoder, which goes through a table of states four bits at a time.
Imports: Hfc.Core.Hpack.Bufs, Hfc.Core.Hpack.HuffmanData
Main exports: hdHuffEncodeCount, hdHuffEncode, HuffDecode, huffEntry, huffRun, hdHuffDecode,
  huffDecodeContextInit, huffDecodeFailureState
-/
import Hfc.Core.Hpack.Bufs
import Hfc.Core.Hpack.HuffmanData

namespace Hfc.Hpack

open ByteText

/-! ### Encoding

The accumulator of 64 bits, the loop that drains it four bytes at a time, and the ones that fill the
last byte. -/

/-- The entry of `huff_sym_table` for a byte: the number of bits and the aligned code. -/
def huffSym (b : Byte) : Nat × Nat :=
  huffSymTable.getD b.toNat (0, 0)

/-- `nghttp2_hd_huff_encode_count`: the bits of all code words, rounded up to bytes. -/
def hdHuffEncodeCount (src : Bytes) : Nat :=
  ((src.map fun b => (huffSym b).1).sum + 7) / 8

/-- What the encoder keeps between two bytes: `code`, `nbits` and the buffers. -/
structure HuffWriter where
  code : Nat
  nbits : Nat
  bufs : Bufs

/-- The loop that writes the whole bytes of the accumulator; each round writes eight bits. -/
def huffDrain : (rounds : Nat) → HuffWriter → Except Int HuffWriter
  | 0, w => .ok w
  | rounds + 1, w =>
      if w.nbits ≥ 8 then do
        let bufs ← bufsAddb w.bufs (UInt8.ofNat (w.code >>> 56))
        huffDrain rounds { code := w.code <<< 8 % 2 ^ 64, nbits := w.nbits - 8, bufs := bufs }
      else .ok w

/-- The four bytes of a number of 32 bits, in network order. -/
def htonl (x : Nat) : Bytes :=
  [UInt8.ofNat (x >>> 24), UInt8.ofNat (x >>> 16), UInt8.ofNat (x >>> 8), UInt8.ofNat x]

/-- The loop over the bytes of the string; `avail` is the encoder's own count of the room in the
current chunk. -/
def huffEncodeLoop : Bytes → HuffWriter → (avail : Nat) → Except Int HuffWriter
  | [], w, _ => .ok w
  | b :: src, w, avail =>
      let sym := huffSym b
      let w :=
        { w with
          code := w.code ||| (sym.2 <<< (32 - w.nbits)) % 2 ^ 64
          nbits := w.nbits + sym.1 }
      if w.nbits < 32 then huffEncodeLoop src w avail
      else if avail ≥ 4 then
        huffEncodeLoop src
          { code := w.code <<< 32 % 2 ^ 64
            nbits := w.nbits - 32
            bufs := w.bufs.put (htonl (w.code >>> 32)) } (avail - 4)
      else do
        let w ← huffDrain w.nbits w
        huffEncodeLoop src w w.bufs.avail

/-- What the encoder does behind its loop: the whole bytes, and the rest with ones behind it. -/
def huffFinish (w : HuffWriter) : Except Int Bufs := do
  let w ← huffDrain w.nbits w
  if w.nbits ≠ 0 then
    bufsAddb w.bufs (UInt8.ofNat (w.code >>> 56) ||| UInt8.ofNat (1 <<< (8 - w.nbits) - 1))
  else .ok w.bufs

/-- `nghttp2_hd_huff_encode`: the loop over the string and the last bytes behind it. -/
def hdHuffEncode (bufs : Bufs) (src : Bytes) : Except Int Bufs := do
  let w ← huffEncodeLoop src { code := 0, nbits := 0, bufs := bufs } bufs.avail
  huffFinish w

/-! ### Decoding

Two table lookups for each byte of input. The flags of a table entry say whether a symbol is stored
and whether the input may end there. -/

/-- `NGHTTP2_HUFF_ACCEPTED`: the string may end in this state. -/
def huffAccepted : Nat := 1 <<< 14

/-- `NGHTTP2_HUFF_SYM`: the entry puts out its symbol. -/
def huffSymFlag : Nat := 1 <<< 15

/-- An entry of `huff_decode_table`: the state behind four bits, with its flags, and the symbol that
they complete. -/
structure HuffDecode where
  fstate : Nat
  sym : Byte
deriving DecidableEq, Repr

/-- Entry number `bits` of a row. -/
def rowEntry (row : Nat × Nat) (bits : Nat) : HuffDecode :=
  let packed := if bits < 8 then row.1 >>> (24 * (7 - bits)) else row.2 >>> (24 * (15 - bits))
  { fstate := (packed >>> 8) % 2 ^ 16, sym := UInt8.ofNat packed }

/-- The entry for a state with its flags and four bits. -/
def huffEntry (fstate bits : Nat) : HuffDecode :=
  rowEntry (huffDecodeTable.getD (fstate &&& 0x1ff) (0, 0)) bits

/-- Four bits: the state behind them, and the output with the symbol if the entry puts one out. -/
def huffStep (at_ : Nat × Bytes) (bits : Nat) : Nat × Bytes :=
  let t := huffEntry at_.1 bits
  (t.fstate, if t.fstate &&& huffSymFlag ≠ 0 then at_.2 ++ [t.sym] else at_.2)

/-- The loop of `nghttp2_hd_huff_decode`: the state behind some bytes, and what they put out. -/
def huffRun (fstate : Nat) (src : Bytes) : Nat × Bytes :=
  src.foldl (fun at_ c => huffStep (huffStep at_ (c.toNat >>> 4)) (c.toNat &&& 0xf)) (fstate, [])

/-- `nghttp2_hd_huff_decode_context_init`: the root, where the input may also end. -/
def huffDecodeContextInit : Nat := huffAccepted

/-- `nghttp2_hd_huff_decode_failure_state`: the state behind the code of the end of the string. -/
def huffDecodeFailureState (fstate : Nat) : Bool :=
  fstate = 0x100

/-- `nghttp2_hd_huff_decode`: the state and the output; the number of bytes it returns is that of
`src`. -/
def hdHuffDecode (fstate : Nat) (src : Bytes) (final : Bool) : Except Int (Nat × Bytes) :=
  let run := huffRun fstate src
  if final && run.1 &&& huffAccepted = 0 then .error nghttp2ErrHeaderComp else .ok run

end Hfc.Hpack
