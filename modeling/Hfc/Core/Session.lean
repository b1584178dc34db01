/-
Module: Hfc.Core.Session
Layer: Core
Purpose: A client in the hands of its caller: single calls in any order, and exchanges, each made of
  header calls, a request and calls that receive the body.
Imports: Hfc.Core.Exchange, Hfc.Library.EventRun
Main exports: setStep, Exchange, ApiCall, Session, Session.ready, Session.request, Session.exchange,
  Session.received, Session.emptied, Session.step, Session.handed, Session.deliveries
-/
import Hfc.Core.Exchange
import Hfc.Library.EventRun

namespace Hfc

open ByteText EventRun

/-- The client after one call of `httpc_header_set`. -/
def setStep (httpc : Httpc) (formatted : Option Bytes) : Httpc :=
  (httpcHeaderSet httpc formatted).2

/-- One exchange: the texts its `httpc_header_set` calls format, the body of its
`httpc_send_request`, whose size is an `int`, and the mode and size of each `httpc_recv_response`
call. -/
structure Exchange where
  texts : List Bytes
  sendBuf : Option Bytes
  reads : List (HttpcMode × Int)
  isInt : ∀ body ∈ sendBuf, body.length < 2 ^ 31

/-- A call with a client: one of the public functions, or `httpc_send` or `httpc_recv` as the HTTP/2
callbacks make it. The caller may also change its header node between calls. The public functions
that are missing here change neither the client nor the connection. -/
inductive ApiCall where
  | lendNode (node : Option HttpcMemNode)
  | headerSet (formatted : Option Bytes)
  | sendRequest (sendBuf : Option Bytes)
  | recvResponse (mode : HttpcMode) (bufNull : Bool) (size : Int)
  | send (buf : Option Bytes) (size : Int)
  | recv (bufNull : Bool) (size : Int)
deriving DecidableEq, Repr

/-- A call that is neither a request nor made for a chunk. -/
def ApiCall.plain : ApiCall → Bool
  | .sendRequest _ => false
  | .recvResponse .chunk _ _ => false
  | _ => true

/-- A client and its connection: what one call leaves for the next. -/
structure Session where
  httpc : Httpc
  world : World
deriving DecidableEq, Repr

namespace Session

/-- The client when the header calls of the exchange are made. -/
def ready (s : Session) (e : Exchange) : Httpc :=
  exec setStep s.httpc (e.texts.map some)

/-- The request of an exchange, behind the calls that build its header. -/
def request (net : Transport) (s : Session) (e : Exchange) : Handled :=
  httpcSendRequest net (s.ready e) s.world e.sendBuf

/-- A whole exchange: the texts of its header, the request with its body, and the reads behind it.
-/
def exchange (net : Transport) (s : Session) (e : Exchange) : Session :=
  let sent := s.request net e
  let read := fun w (call : HttpcMode × Int) =>
    (httpcRecvResponse net sent.httpc w call.1 false call.2).world
  { httpc := sent.httpc, world := e.reads.foldl read sent.world }

/-- The bytes the reads of an exchange store, one after the other. -/
def received (net : Transport) (httpc : Httpc) : World → List (HttpcMode × Int) → Bytes
  | _, [] => []
  | w, call :: reads =>
      let r := httpcRecvResponse net httpc w call.1 false call.2
      r.data ++ received net httpc r.world reads

/-- The caller has emptied its node, as the example `httpc_get_position` does between two requests:
the buffer is cleared and `buf_used` is zero. -/
def emptied (s : Session) : Session :=
  { s with httpc := { s.httpc with headerNode := s.httpc.headerNode.map httpcMemNodeReset } }

/-- A single call of the application, in any order with the others. -/
def step (net : Transport) (s : Session) : ApiCall → Session
  | .lendNode node => { s with httpc := { s.httpc with headerNode := node } }
  | .headerSet formatted => { s with httpc := setStep s.httpc formatted }
  | .sendRequest sendBuf =>
      let sent := httpcSendRequest net s.httpc s.world sendBuf
      { httpc := sent.httpc, world := sent.world }
  | .recvResponse mode bufNull size =>
      { s with world := (httpcRecvResponse net s.httpc s.world mode bufNull size).world }
  | .send buf size => { s with world := (httpcSend net s.httpc s.world buf size).world }
  | .recv bufNull size => { s with world := (httpcRecv net s.httpc s.world bufNull size).world }

/-- What a single call hands to its caller: the stream position of the first byte, and the bytes. -/
def handed (net : Transport) (s : Session) : ApiCall → Nat × Bytes
  | .recvResponse mode bufNull size =>
      let r := httpcRecvResponse net s.httpc s.world mode bufNull size
      (r.start, r.data)
  | .recv bufNull size => (s.world.taken, (httpcRecv net s.httpc s.world bufNull size).data)
  | _ => (s.world.taken, [])

/-- Everything the calls of a run hand to their caller, byte by byte with its stream position. -/
def deliveries (net : Transport) : Session → List ApiCall → List (Nat × Byte)
  | _, [] => []
  | s, call :: calls =>
      let piece := s.handed net call
      (List.range' piece.1 piece.2.length).zip piece.2 ++ deliveries net (s.step net call) calls

end Session

end Hfc
