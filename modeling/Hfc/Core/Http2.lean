/-
Module: Hfc.Core.Http2
Layer: Core
Purpose: The HTTP/2 client as far as requests and the data of their responses go. The session behind
  it, that of the nghttp2 under `src/component`, is not opened up here: what it answers to a
  submission, and when it reports data or the end of a stream, comes in with the events of a run.
Imports: Hfc.Core.Types
Main exports: Httpc2, Submission, Delivery, httpc2SubmitRequest, httpc2OnDataChunkRecv, Http2Event,
  http2Step
-/
import Hfc.Core.Types

namespace Hfc

open ByteText

variable {Read Write : Type}

/-- An HTTP/2 client: the inner client, absent when NULL, and the one slot for a write callback. -/
structure Httpc2 (Write : Type) where
  httpc : Option Httpc
  writeCallback : Option Write

/-- What `nghttp2_submit_request` is given: the header fields, and the data provider with the
caller's read callback as its source, absent when there is none. -/
structure Submission (Read : Type) where
  nva : List (Bytes × Bytes)
  dataProvider : Option Read

/-- One call of a write callback. -/
structure Delivery (Write : Type) where
  callback : Write
  streamId : Int
  data : Bytes
  flags : Nat
deriving DecidableEq, Repr

/-- `httpc2_submit_request`; `session` is `nghttp2_submit_request` on the client's session. -/
def httpc2SubmitRequest (session : Submission Read → Int) (httpc2 : Option (Httpc2 Write))
    (nva : Option (List (Bytes × Bytes))) (readCallback : Option Read)
    (writeCallback : Option Write) : Int × Option (Httpc2 Write) :=
  match httpc2, nva with
  | some client, some nva =>
      let client := { client with writeCallback := writeCallback }
      (session { nva := nva, dataProvider := readCallback }, some client)
  | _, _ => (-1, httpc2)

/-- `httpc2_on_data_chunk_recv_callback`: the call of the write callback it makes, if any. -/
def httpc2OnDataChunkRecv (httpc2 : Option (Httpc2 Write)) (flags : Nat) (streamId : Int)
    (data : Bytes) : Option (Delivery Write) :=
  httpc2.bind fun client =>
    client.writeCallback.map fun callback =>
      { callback := callback, streamId := streamId, data := data, flags := flags }

/-- What happens to a client: its user submits a request, to which the session answers with a stream
identifier or an error; or the session reports data of a stream, or the end of a stream. -/
inductive Http2Event (Read Write : Type) where
  | submit (nva : Option (List (Bytes × Bytes))) (readCallback : Option Read)
      (writeCallback : Option Write) (answer : Int)
  | data (flags : Nat) (streamId : Int) (chunk : Bytes)
  | close (streamId : Int)

/-- The client after an event; `httpc2_on_stream_close_callback` changes nothing. -/
def http2Step (client : Httpc2 Write) : Http2Event Read Write → Httpc2 Write
  | .submit nva readCallback writeCallback answer =>
      ((httpc2SubmitRequest (fun _ => answer) (some client) nva readCallback writeCallback).2).getD
        client
  | .data .. => client
  | .close _ => client

end Hfc
