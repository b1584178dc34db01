/-
Module: Hfc.Core.Http2Run
Layer: Core
Purpose: Running an HTTP/2 client: the callbacks through which its session sends and receives, the
  loops of `nghttp2_session_send` and `nghttp2_session_recv` around them, and `httpc2_core_run`. How
  a session makes frames and reads them is left to a parameter.
Imports: Hfc.Core.Http2, Hfc.Core.Io
Main exports: sendReport, recvReport, httpc2SendCallback, httpc2RecvCallback, Outbound, Nghttp2,
  SessionCall, nghttp2SessionSend, nghttp2SessionRecv, httpc2CoreRun, Http2Conn, Http2Call,
  http2CallStep
-/
import Hfc.Core.Http2
import Hfc.Core.Io

namespace Hfc

open ByteText Numeral

variable {Write σ : Type}

def mbedtlsErrSslWantRead : Int := -0x6900
def mbedtlsErrSslWantWrite : Int := -0x6880
def nghttp2ErrWouldblock : Int := -504
def nghttp2ErrEof : Int := -507
def nghttp2ErrCallbackFailure : Int := -902
def nghttp2InboundBufferLength : Nat := 16384

/-! ### The callbacks

What nghttp2 calls to send and to receive, and how a result of the transport becomes an error code
of nghttp2. -/

/-- A transport operation of a callback: what it returned, and what the callback reports of it. -/
structure TransportOp where
  result : Int
  reported : Int
deriving DecidableEq, Repr

/-- What both callbacks make of a result that is an error. -/
def errorReport (ret : Int) : Int :=
  if ret = mbedtlsErrSslWantRead ∨ ret = mbedtlsErrSslWantWrite then nghttp2ErrWouldblock
  else nghttp2ErrCallbackFailure

def sendReport (ret : Int) : Int :=
  if ret ≤ 0 then errorReport ret else ret

def recvReport (ret : Int) : Int :=
  if ret < 0 then errorReport ret else if ret = 0 then nghttp2ErrEof else ret

/-- Result of a callback: its operation, the bytes it received, and the connection afterwards. -/
structure CallbackCall where
  op : TransportOp
  data : Bytes
  world : World
deriving DecidableEq, Repr

/-- `httpc2_send_callback`; an absent client is a NULL pointer. -/
def httpc2SendCallback (net : Transport) (httpc2 : Option (Httpc2 Write)) (w : World)
    (data : Bytes) : CallbackCall :=
  let sent : Outcome :=
    match httpc2 with
    | none => { ret := 0, world := w }
    | some client =>
        match client.httpc with
        | none => { ret := httpcErrParam, world := w }
        | some httpc => httpcSend net httpc w (some data) (toInt32 data.length)
  { op := { result := sent.ret, reported := sendReport sent.ret }
    data := []
    world := sent.world }

/-- `httpc2_recv_callback` for at most `length` bytes. -/
def httpc2RecvCallback (net : Transport) (httpc2 : Option (Httpc2 Write)) (w : World)
    (length : Nat) : CallbackCall :=
  let read : Recv :=
    match httpc2 with
    | none => { ret := 0, data := [], world := w }
    | some client =>
        match client.httpc with
        | none => { ret := httpcErrParam, data := [], world := w }
        | some httpc => httpcRecv net httpc w false (toInt32 length)
  { op := { result := read.ret, reported := recvReport read.ret }
    data := read.data
    world := read.world }

/-! ### The session

The loops of `nghttp2_session_send` and `nghttp2_session_recv` around these callbacks. What a
session does with the bytes is the parameter `Nghttp2`. -/

/-- What `nghttp2_session_mem_send_internal` answers: bytes to send, none when there is nothing to
send, or an error. -/
inductive Outbound where
  | bytes (data : Bytes)
  | failed (code : Nat)
deriving DecidableEq, Repr

/-- The part of nghttp2 that makes and reads frames: `memSend` is
`nghttp2_session_mem_send_internal`, `rewind` takes back that many of the bytes it handed out, and
`memRecv` is `nghttp2_session_mem_recv`. A session has a finite amount of bytes `pending` that it
can send before it receives more, and sending any of them leaves less. -/
structure Nghttp2 (σ : Type) where
  memSend : σ → Outbound × σ
  rewind : σ → Nat → σ
  memRecv : σ → Bytes → Int × σ
  pending : σ → Nat
  sends : ∀ s data s' n, memSend s = (.bytes data, s') → n < data.length →
    pending (rewind s' n) < pending s

/-- What a function of the session did: its result, the transport operations of its callbacks, the
errors of its own, and the session and the connection afterwards. -/
structure SessionCall (σ : Type) where
  ret : Int
  ops : List TransportOp
  faults : List Int
  session : σ
  world : World

/-- One more transport operation in front. -/
def SessionCall.after (op : TransportOp) (call : SessionCall σ) : SessionCall σ :=
  { call with ops := op :: call.ops }

/-- A function of the session that returns. -/
def SessionCall.returned (ret : Int) (ops : List TransportOp) (session : σ) (world : World) :
    SessionCall σ :=
  { ret := ret, ops := ops, faults := [], session := session, world := world }

/-- A function of the session that fails by itself. -/
def SessionCall.fault (ret : Int) (ops : List TransportOp) (session : σ) (world : World) :
    SessionCall σ :=
  { ret := ret, ops := ops, faults := [ret], session := session, world := world }

/-- The `for` loop of `nghttp2_session_send`, for at most `fuel` rounds; `none` when they did not
end it. -/
def sessionSendLoop (net : Transport) (ng : Nghttp2 σ) (httpc2 : Option (Httpc2 Write)) :
    Nat → σ → World → Option (SessionCall σ)
  | 0, _, _ => none
  | fuel + 1, s, w =>
      match ng.memSend s with
      | (.failed code, s') => some (.fault (Int.negSucc code) [] s' w)
      | (.bytes data, s') =>
          if data = [] then some (.returned 0 [] s' w)
          else
            let sent := httpc2SendCallback net httpc2 w data
            let sentlen := sent.op.reported
            if sentlen < 0 then
              if sentlen = nghttp2ErrWouldblock then
                some (.returned 0 [sent.op] (ng.rewind s' data.length) sent.world)
              else some (.returned nghttp2ErrCallbackFailure [sent.op] s' sent.world)
            else
              (sessionSendLoop net ng httpc2 fuel (ng.rewind s' (data.length - sentlen.toNat))
                sent.world).map (.after sent.op)

/-- `nghttp2_session_send`. Every round that does not end the loop leaves less to send. -/
def nghttp2SessionSend (net : Transport) (ng : Nghttp2 σ) (httpc2 : Option (Httpc2 Write)) (s : σ)
    (w : World) : Option (SessionCall σ) :=
  sessionSendLoop net ng httpc2 (ng.pending s + 1) s w

/-- What `session_recv` makes of what the callback reports. -/
def readlenOf (reported : Int) : Int :=
  if reported > 0 then
    if reported > nghttp2InboundBufferLength then nghttp2ErrCallbackFailure else reported
  else if reported < 0 ∧ reported ≠ nghttp2ErrWouldblock ∧ reported ≠ nghttp2ErrEof then
    nghttp2ErrCallbackFailure
  else reported

/-- The `while (1)` loop of `nghttp2_session_recv`, for at most `fuel` rounds. -/
def sessionRecvLoop (net : Transport) (ng : Nghttp2 σ) (httpc2 : Option (Httpc2 Write)) :
    Nat → σ → World → Option (SessionCall σ)
  | 0, _, _ => none
  | fuel + 1, s, w =>
      let read := httpc2RecvCallback net httpc2 w nghttp2InboundBufferLength
      let readlen := readlenOf read.op.reported
      if readlen > 0 then
        let (proclen, s') := ng.memRecv s read.data
        if proclen < 0 then some (.fault proclen [read.op] s' read.world)
        else (sessionRecvLoop net ng httpc2 fuel s' read.world).map (.after read.op)
      else if readlen = 0 ∨ readlen = nghttp2ErrWouldblock then
        some (.returned 0 [read.op] s read.world)
      else if readlen = nghttp2ErrEof then
        some (.returned nghttp2ErrEof [read.op] s read.world)
      else some (.returned nghttp2ErrCallbackFailure [read.op] s read.world)

/-- `nghttp2_session_recv`. Every round that does not end the loop takes a byte of the stream. -/
def nghttp2SessionRecv (net : Transport) (ng : Nghttp2 σ) (httpc2 : Option (Httpc2 Write)) (s : σ)
    (w : World) : Option (SessionCall σ) :=
  sessionRecvLoop net ng httpc2 (w.unread.length + 1) s w

/-! ### `httpc2_core_run`

One round of the client: send what the session wants to send, then receive. The caller repeats it on
a non-blocking socket. -/

/-- `httpc2_core_run` on a client that is not NULL: its result is in `ret`. -/
def httpc2CoreRun (net : Transport) (ng : Nghttp2 σ) (client : Httpc2 Write) (s : σ) (w : World) :
    Option (SessionCall σ) :=
  (nghttp2SessionSend net ng (some client) s w).bind fun sent : SessionCall σ =>
    if sent.ret ≠ 0 then some { sent with ret := httpcErrFail }
    else
      (nghttp2SessionRecv net ng (some client) sent.session sent.world).map
        fun received : SessionCall σ =>
          { received with
            ret := if received.ret ≠ 0 then httpcErrFail else httpcErrOk
            ops := sent.ops ++ received.ops
            faults := sent.faults ++ received.faults }

/-- The session of an HTTP/2 client and its connection. -/
structure Http2Conn (σ : Type) where
  session : σ
  world : World

/-- What happens to a client behind `httpc2_init`: its user calls `httpc2_core_run`, or something
that changes its session, such as `httpc2_submit_request`. -/
inductive Http2Call (σ : Type) where
  | coreRun
  | other (change : σ → σ)

/-- The connection behind a call. -/
def http2CallStep (net : Transport) (ng : Nghttp2 σ) (client : Httpc2 Write) (conn : Http2Conn σ) :
    Http2Call σ → Http2Conn σ
  | .coreRun =>
      match httpc2CoreRun net ng client conn.session conn.world with
      | some call => { session := call.session, world := call.world }
      | none => conn
  | .other change => { conn with session := change conn.session }

end Hfc
