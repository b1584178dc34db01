/-
Module: Hfc.Core.Io
Layer: Core
Purpose: `httpc_send`, `httpc_recv` and the line reader `httpc_read_one_line`, as the source
  computes them.
Imports: Hfc.Core.Transport
Main exports: httpcSend, httpcRecv, readOneLineLoop, httpcReadOneLine
-/
import Hfc.Core.Transport

namespace Hfc

open ByteText Numeral

/-- Result of a call that returns an `int` and may have used the connection. -/
structure Outcome where
  ret : Int
  world : World
deriving DecidableEq, Repr

/-- `httpc_send`; `buf` is the memory at `buf`, absent when the pointer is NULL. `mbedtls_ssl_write`
and `send` are both the transport's send call. -/
def httpcSend (net : Transport) (httpc : Httpc) (w : World) (buf : Option Bytes) (size : Int) :
    Outcome :=
  match buf with
  | none => { ret := httpcErrParam, world := w }
  | some mem =>
      if httpc.socket < 0 then { ret := httpcErrParam, world := w }
      else if httpc.enableMbedtls && httpc.mbedtlsCtx.isNone then
        { ret := httpcErrFail, world := { w with nullDeref := true } }
      else
        let sent := net.transmit w (mem.take (toSizeT size))
        { ret := sent.1, world := sent.2 }

/-- `httpc_recv`; `bufNull` tells whether the pointer to the buffer is NULL. `mbedtls_ssl_read` and
`recv` are both the transport's receive call. -/
def httpcRecv (net : Transport) (httpc : Httpc) (w : World) (bufNull : Bool) (size : Int) : Recv :=
  if bufNull || httpc.socket < 0 then { ret := httpcErrParam, data := [], world := w }
  else if httpc.enableMbedtls && httpc.mbedtlsCtx.isNone then
    { ret := httpcErrFail, data := [], world := { w with nullDeref := true } }
  else net.receive w (toSizeT size)

/-- What `httpc_read_one_line` stored at the head of its buffer, and the connection afterwards. -/
structure LineRead where
  stored : Bytes
  world : World
deriving DecidableEq, Repr

/-- The returned `count`: the bytes that were stored, the CR among them, but not the LF. -/
def LineRead.count (line : LineRead) : Int :=
  line.stored.length

/-- The `while (1)` loop of `httpc_read_one_line` with `room` bytes left in the buffer. -/
def readOneLineLoop (net : Transport) (httpc : Httpc) :
    Nat → (lastByte : Byte) → (stored : Bytes) → World → LineRead
  | 0, _, stored, w => { stored := stored, world := w }
  | room + 1, lastByte, stored, w =>
      let r := httpcRecv net httpc w false 1
      if r.ret ≤ 0 then { stored := stored, world := r.world }
      else
        let byte := r.data.headD 0
        if byte = lf ∧ lastByte = cr then { stored := stored, world := r.world }
        else readOneLineLoop net httpc room byte (stored ++ [byte]) r.world

/-- `httpc_read_one_line`. The capacity is tested behind the store, so the loop stores one byte even
when `size` is not positive. -/
def httpcReadOneLine (net : Transport) (httpc : Httpc) (w : World) (size : Int) : LineRead :=
  readOneLineLoop net httpc (max size 1).toNat 0 [] w

end Hfc
