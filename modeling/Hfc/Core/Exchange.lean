/-
Module: Hfc.Core.Exchange
Layer: Core
Purpose: One request and the body of its response: `httpc_send_request`, `httpc_chunked_recv`,
  `httpc_recv_response`, and the download loop of the chunked example.
Imports: Hfc.Core.Header
Main exports: httpcSendHeader, httpcSendData, httpcSendRequest, BodyRecv, httpcChunkedRecv,
  httpcRecvResponse, Download, chunkGetLoop
-/
import Hfc.Core.Header

namespace Hfc

open ByteText Numeral

/-! ### Sending a request

The header and the body of a request, each handed over in one call of `httpc_send`. Only a negative
result counts as a failure. -/

/-- `httpc_send_header`: the bytes of the node that are counted as in use, in one send call. -/
def httpcSendHeader (net : Transport) (httpc : Httpc) (w : World) : Outcome :=
  match httpc.headerNode with
  | none => { ret := httpcErrParam, world := w }
  | some node => httpcSend net httpc w (some node.buf) node.bufUsed

/-- `httpc_send_data`: the body of a request, in one send call. -/
def httpcSendData (net : Transport) (httpc : Httpc) (w : World) (buf : Option Bytes) (size : Int) :
    Outcome :=
  match buf with
  | none => { ret := httpcErrParam, world := w }
  | some mem => httpcSend net httpc w (some mem) size

/-- `httpc_send_request`; `sendBuf` holds the `send_size` bytes at `send_buf`, absent when the
pointer is NULL. -/
def httpcSendRequest (net : Transport) (httpc : Httpc) (w : World) (sendBuf : Option Bytes) :
    Handled :=
  let header := httpcSendHeader net httpc w
  if header.ret < httpcErrOk then
    { ret := httpcErrSend, httpc := httpc, world := header.world }
  else
    match sendBuf with
    | none => httpcHandleResponse net httpc header.world
    | some body =>
        let data := httpcSendData net httpc header.world (some body) body.length
        if data.ret < httpcErrOk then
          { ret := httpcErrSend, httpc := httpc, world := data.world }
        else httpcHandleResponse net httpc data.world

/-! ### Receiving a body

`httpc_recv_response` in its modes, the chunk decoder behind the mode for chunks, and the loop of
`get_example.c` that downloads a whole body with it. -/

/-- Result of a receive call of the public interface: what it returns, the bytes it stored at the
head of the caller's buffer, the stream position of the first of them, and the connection
afterwards. -/
structure BodyRecv where
  ret : Int
  data : Bytes
  start : Nat
  world : World
deriving DecidableEq, Repr

/-- A receive call that delivers nothing to the caller's buffer and returns an error. -/
def BodyRecv.failed (ret : Int) (w : World) : BodyRecv :=
  { ret := ret, data := [], start := w.taken, world := w }

/-- The 1024-byte block `httpc_chunked_recv` allocates for the size line. -/
def chunkTmpSize : Nat := 1024

/-- The block `tmp_buf` when the line is stored in it and `tmp_buf[count - 1]` is cleared. With
`count` zero that store goes in front of the block and leaves it as it is. -/
def chunkTmpBuf (stored : Bytes) : Bytes :=
  patchAt (patch (List.replicate chunkTmpSize nul) 0 stored) ((stored.length : Int) - 1) [nul]

/-- The `int` that `httpc_chunked_recv` makes of the size line. -/
def chunkLen (stored : Bytes) : Int :=
  toInt32 (strtoul 16 (cstr (chunkTmpBuf stored)))

/-- `httpc_chunked_recv`: a size line into a scratch block, as much of the data as one receive call
delivers, and two bytes for the CRLF behind it, whatever they are. -/
def httpcChunkedRecv (net : Transport) (httpc : Httpc) (w : World) (bufNull : Bool) (size : Int) :
    BodyRecv :=
  if bufNull then .failed httpcErrParam w
  else
    let tmp := net.allocate w
    if tmp.1 = false then .failed httpcErrMem tmp.2
    else
      let line := httpcReadOneLine net httpc tmp.2 chunkTmpSize
      if line.count < 0 then .failed httpcErrFail line.world
      else
        let len := chunkLen line.stored
        if len < 0 then .failed httpcErrFail line.world
        else if len = 0 then .failed httpcErrFail line.world
        else if len > size then .failed httpcErrFail line.world
        else
          let chunk := httpcRecv net httpc line.world false len
          if chunk.ret < 0 then .failed httpcErrFail chunk.world
          else
            let crlf := httpcRecv net httpc chunk.world false 2
            { ret := chunk.ret
              data := chunk.data
              start := line.world.taken
              world := crlf.world }

/-- `httpc_recv_response`: a receive call, or the chunk decoder, as the caller says. -/
def httpcRecvResponse (net : Transport) (httpc : Httpc) (w : World) (mode : HttpcMode)
    (bufNull : Bool) (size : Int) : BodyRecv :=
  match mode with
  | .normal =>
      let r := httpcRecv net httpc w bufNull size
      { ret := r.ret, data := r.data, start := w.taken, world := r.world }
  | .chunk => httpcChunkedRecv net httpc w bufNull size
  | .unkonw | .max => .failed httpcErrFail w

/-- What a caller has after its download loop: the calls that delivered something or nothing but did
not fail, the result that ended the loop, and the connection. -/
structure Download where
  calls : List BodyRecv
  last : Int
  world : World
deriving DecidableEq, Repr

/-- The `while (1)` loop of the example `chunk_get_request`, for at most `fuel` calls; `none` when
they did not end it. -/
def chunkGetLoop (net : Transport) (httpc : Httpc) (size : Int) : Nat → World → Option Download
  | 0, _ => none
  | fuel + 1, w =>
      let r := httpcRecvResponse net httpc w .chunk false size
      if r.ret < 0 then some { calls := [], last := r.ret, world := r.world }
      else
        (chunkGetLoop net httpc size fuel r.world).map fun rest =>
          { rest with calls := r :: rest.calls }

/-- The download loop run to its end: a call that does not end it takes at least one byte of the
stream, so one call more than there are bytes left is enough. -/
def chunkGetRequest (net : Transport) (httpc : Httpc) (size : Int) (w : World) : Option Download :=
  chunkGetLoop net httpc size (w.unread.length + 1) w

namespace Download

/-- The bytes the caller has written to its file, in the order of its calls. -/
def body (download : Download) : Bytes :=
  download.calls.flatMap BodyRecv.data

/-- The stream positions those bytes come from, in the order of delivery. -/
def positions (download : Download) : List Nat :=
  download.calls.flatMap fun call => List.range' call.start call.data.length

/-- The results and bytes the caller has seen, call by call, the failing call last. -/
def observed (download : Download) : List (Int × Bytes) :=
  download.calls.map (fun call => (call.ret, call.data)) ++ [(download.last, [])]

end Download

end Hfc
