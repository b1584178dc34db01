/-
Module: Hfc.Core.Hpack.Calls
Layer: Core
Purpose: The calls by which a session drives a deflater and an inflater.
Imports: Hfc.Core.Hpack.Inflate, Hfc.Library.EventRun
Main exports: DeflateCall, HdDeflater.call, InflateCall, HdInflater.call, inflateFragments, Ends,
  EndsEvent, Ends.received, Ends.step
-/
import Hfc.Core.Hpack.Inflate
import Hfc.Library.EventRun

namespace Hfc.Hpack

open ByteText

/-- A call on a deflater: a new limit of the peer, or a header block. -/
inductive DeflateCall where
  | changeTableSize (size : Nat)
  | headers (bufs : Bufs) (nva : List Nv)

/-- A deflater after a call. The bytes of a block and its error are with the caller. -/
def HdDeflater.call (deflater : HdDeflater) : DeflateCall → HdDeflater
  | .changeTableSize size => hdDeflateChangeTableSize deflater size
  | .headers bufs nva => (hdDeflateHdBufs deflater bufs nva).1

/-- A call on an inflater: a new limit of its own, or a piece of a header block. -/
inductive InflateCall where
  | changeTableSize (size : Nat)
  | piece (input : Bytes) (final : Bool)

/-- An inflater after a call. A change of the limit inside a block is refused and changes nothing.
-/
def HdInflater.call (inflater : HdInflater) : InflateCall → HdInflater
  | .changeTableSize size =>
      match hdInflateChangeTableSize inflater size with
      | .error _ => inflater
      | .ok inflater => inflater
  | .piece input final => (inflateHeaderBlock inflater input final).inflater

/-- A header block that comes in pieces: the last one is final, and an error ends it. -/
def inflateFragments (inflater : HdInflater) : (pieces : List Bytes) → (last : Bytes) → BlockInflated
  | [], last => inflateHeaderBlock inflater last true
  | piece :: pieces, last =>
      let first := inflateHeaderBlock inflater piece false
      match first.error with
      | some _ => first
      | none =>
          let later := inflateFragments first.inflater pieces last
          { later with headers := first.headers ++ later.headers }

/-! ### Two ends

A deflater and an inflater of one connection, and the header blocks that go from one to the other in
arbitrary pieces. -/

/-- The deflater of one side and the inflater of the other. -/
structure Ends where
  deflater : HdDeflater
  inflater : HdInflater

/-- What happens between them: a new limit of the side that inflates takes effect on both, and a
header block is written and comes in pieces. -/
inductive EndsEvent where
  | changeTableSize (size : Nat)
  | headers (bufs : Bufs) (nva : List Nv) (cuts : List Nat)

/-- Bytes cut into pieces: those in front of the last one, and the last one. -/
def cut : (cuts : List Nat) → Bytes → List Bytes × Bytes
  | [], bytes => ([], bytes)
  | n :: cuts, bytes =>
      let later := cut cuts (bytes.drop n)
      (bytes.take n :: later.1, later.2)

/-- What the inflater makes of a header block, if the deflater has written one. -/
def Ends.received (ends : Ends) (bufs : Bufs) (nva : List Nv) (cuts : List Nat) :
    Option BlockInflated :=
  match (hdDeflateHdBufs ends.deflater bufs nva).2 with
  | .error _ => none
  | .ok bufs' =>
      let pieces := cut cuts (bufs'.out.drop bufs.out.length)
      some (inflateFragments ends.inflater pieces.1 pieces.2)

def Ends.step (ends : Ends) : EndsEvent → Ends
  | .changeTableSize size =>
      { deflater := ends.deflater.call (.changeTableSize size)
        inflater := ends.inflater.call (.changeTableSize size) }
  | .headers bufs nva cuts =>
      { deflater := ends.deflater.call (.headers bufs nva)
        inflater :=
          match ends.received bufs nva cuts with
          | none => ends.inflater
          | some block => block.inflater }

def Ends.init (maxDeflateDynamicTableSize : Nat) : Ends where
  deflater := hdDeflateInit2 maxDeflateDynamicTableSize
  inflater := hdInflateInit

end Hfc.Hpack
