/-
Module: Hfc.Core.FlowControl
Layer: Core
Purpose: The flow control of a connection: the window of the session that receives data, the frames
  that give credit back, and the window of the session that sends.
Imports: Hfc.Library.Numeral, Hfc.Library.EventRun
Main exports: LocalWindow, adjustLocalWindowSize, increaseLocalWindowSize, shouldSendWindowUpdate,
  WindowReceiver, WindowSender, FlowLink, FlowEvent, FlowLink.step
-/
import Hfc.Library.Numeral
import Hfc.Library.EventRun

namespace Hfc

open Numeral

/-- `NGHTTP2_MAX_WINDOW_SIZE`, which is `INT32_MAX`. -/
def maxWindowSize : Int := 2 ^ 31 - 1

/-- `INT32_MIN`. -/
def int32Min : Int := -2 ^ 31

/-- `NGHTTP2_INITIAL_CONNECTION_WINDOW_SIZE`. -/
def initialConnectionWindowSize : Int := 2 ^ 16 - 1

/-- `NGHTTP2_DATA_PAYLOADLEN`: the most data that is put into one frame. -/
def dataPayloadlen : Int := 16384

/-! ### The window of the receiver

The local window of a connection, what arrives and what the application consumes against it, and the
updates that are queued to open it again. -/

/-- How much may come, how much has come and was not given back, and by how much the window was
reduced without the peer being told. -/
structure LocalWindow where
  localWindowSize : Int
  recvWindowSize : Int
  recvReduction : Int

/-- `nghttp2_adjust_local_window_size`: the window, and what of `delta` the peer is to be told;
absent for `NGHTTP2_ERR_FLOW_CONTROL`. -/
def adjustLocalWindowSize (w : LocalWindow) (delta : Int) : Option (LocalWindow × Int) :=
  if delta > 0 then
    let newRecvWindowSize := max 0 w.recvWindowSize - delta
    if newRecvWindowSize ≥ 0 then
      some ({ w with recvWindowSize := newRecvWindowSize }, delta)
    else
      let more := -newRecvWindowSize
      if w.localWindowSize > maxWindowSize - more then none
      else
        let recvReductionDelta := min w.recvReduction more
        some
          ({ localWindowSize := w.localWindowSize + more
             recvWindowSize :=
               if w.recvWindowSize < 0 then w.recvWindowSize + recvReductionDelta
               else recvReductionDelta
             recvReduction := w.recvReduction - recvReductionDelta },
            delta - recvReductionDelta)
  else if w.localWindowSize + delta < 0 ∨ w.recvWindowSize < int32Min - delta ∨
      w.recvReduction > maxWindowSize + delta then none
  else
    some
      ({ localWindowSize := w.localWindowSize + delta
         recvWindowSize := w.recvWindowSize + delta
         recvReduction := w.recvReduction - delta }, 0)

/-- `nghttp2_increase_local_window_size`: the window grows by `delta`, absent where it would get too
large. A reduction made before is taken back first, and only the rest is told to the peer. -/
def increaseLocalWindowSize (w : LocalWindow) (delta : Int) : Option (LocalWindow × Int) :=
  if w.localWindowSize > maxWindowSize - delta then none
  else
    let recvReductionDelta := min w.recvReduction delta
    some
      ({ localWindowSize := w.localWindowSize + delta
         recvWindowSize := w.recvWindowSize + recvReductionDelta
         recvReduction := w.recvReduction - recvReductionDelta },
        delta - recvReductionDelta)

/-- `nghttp2_should_send_window_update`: whether half of the window or more was received since the
last update. -/
def shouldSendWindowUpdate (localWindowSize recvWindowSize : Int) : Bool :=
  recvWindowSize > 0 ∧ recvWindowSize ≥ localWindowSize.tdiv 2

/-- Why a session was terminated with `NGHTTP2_FLOW_CONTROL_ERROR`: for data beyond the window, or
for more data consumed than a window can hold. -/
inductive FlowError where
  | data
  | consumed
deriving DecidableEq

/-- What a session keeps for the data it receives. `obReg` has the increments of the WINDOW_UPDATE
frames that are queued. -/
structure WindowReceiver where
  window : LocalWindow
  consumedSize : Int
  windowUpdateQueued : Bool
  noAutoWindowUpdate : Bool
  obReg : List Int
  terminated : Option FlowError

/-- `nghttp2_session_add_window_update`, for the connection. -/
def WindowReceiver.addWindowUpdate (r : WindowReceiver) (increment : Int) : WindowReceiver :=
  { r with
    obReg := r.obReg ++ [increment]
    windowUpdateQueued := true }

/-- The receiver with another count of bytes received since the last update. -/
def WindowReceiver.withRecv (r : WindowReceiver) (recv : Int) : WindowReceiver :=
  { r with window := { r.window with recvWindowSize := recv } }

/-- `adjust_recv_window_size`: absent where it fails. -/
def adjustRecvWindowSize (recvWindowSize : Int) (delta : Nat) (localWindowSize : Int) :
    Option Int :=
  if recvWindowSize > localWindowSize - delta ∨ recvWindowSize > maxWindowSize - delta then none
  else some (recvWindowSize + delta)

/-- `nghttp2_session_update_recv_connection_window_size`. -/
def updateRecvConnectionWindowSize (r : WindowReceiver) (delta : Nat) : WindowReceiver :=
  match adjustRecvWindowSize r.window.recvWindowSize delta r.window.localWindowSize with
  | none => { r with terminated := some .data }
  | some recv =>
      if !r.noAutoWindowUpdate && !r.windowUpdateQueued &&
          shouldSendWindowUpdate r.window.localWindowSize recv then
        (r.addWindowUpdate recv).withRecv 0
      else r.withRecv recv

/-- `session_update_connection_consumed_size`: what is consumed is given back in an update, as soon
as that is due and as far as it was received. -/
def updateConnectionConsumedSize (r : WindowReceiver) (delta : Nat) : WindowReceiver :=
  if toSizeT r.consumedSize > toSizeT (maxWindowSize - delta) then
    { r with terminated := some .consumed }
  else
    let consumed := toInt32 (r.consumedSize + delta)
    let recvSize := min consumed r.window.recvWindowSize
    if !r.windowUpdateQueued && shouldSendWindowUpdate r.window.localWindowSize recvSize then
      { (r.addWindowUpdate recvSize).withRecv (r.window.recvWindowSize - recvSize) with
        consumedSize := consumed - recvSize }
    else { r with consumedSize := consumed }

/-- `nghttp2_session_consume_connection`: without the option it is refused. -/
def consumeConnection (r : WindowReceiver) (size : Nat) : WindowReceiver :=
  if r.noAutoWindowUpdate then updateConnectionConsumedSize r size else r

/-- `nghttp2_submit_window_update`, for the connection. -/
def submitWindowUpdate (r : WindowReceiver) (increment : Int) : WindowReceiver :=
  if increment = 0 then r
  else
    match adjustLocalWindowSize r.window increment with
    | none => r
    | some (window, increment) =>
        if increment > 0 then
          { r with
            window := window
            consumedSize := max 0 (toInt32 (r.consumedSize - increment)) }.addWindowUpdate increment
        else { r with window := window }

/-- `nghttp2_session_set_local_window_size`, for the connection. -/
def setLocalWindowSize (r : WindowReceiver) (windowSize : Int) : WindowReceiver :=
  if windowSize < 0 then r
  else
    let increment := windowSize - r.window.localWindowSize
    if increment = 0 then r
    else if increment < 0 then
      match adjustLocalWindowSize r.window increment with
      | none => r
      | some (window, _) => { r with window := window }
    else
      match increaseLocalWindowSize r.window increment with
      | none => r
      | some (window, increment) =>
          if increment > 0 then { r with window := window }.addWindowUpdate increment
          else updateRecvConnectionWindowSize { r with window := window } 0

/-- What `session_after_frame_sent1` does behind a WINDOW_UPDATE frame of the connection. -/
def afterWindowUpdateSent (r : WindowReceiver) : WindowReceiver :=
  if r.noAutoWindowUpdate then updateConnectionConsumedSize { r with windowUpdateQueued := false } 0
  else updateRecvConnectionWindowSize { r with windowUpdateQueued := false } 0

/-! ### The window of the sender

What the other end knows of this window: how much it may still send, and how an update that arrives
raises it. -/

/-- What a session keeps for the data it sends. `active` is the length of the DATA frame that is
being sent. -/
structure WindowSender where
  remoteWindowSize : Int
  active : Option Nat
  terminated : Bool

/-- `nghttp2_session_next_data_read`, for a stream with its own window. -/
def nextDataRead (s : WindowSender) (streamWindowSize maxFrameSize : Int) : Nat :=
  (min (min (min dataPayloadlen streamWindowSize) s.remoteWindowSize) maxFrameSize).toNat

/-- `session_on_connection_window_update_received`, for the increment on the wire. -/
def onConnectionWindowUpdateReceived (s : WindowSender) (wire : Int) : WindowSender :=
  let increment := wire % 2 ^ 31
  if increment = 0 then { s with terminated := true }
  else if maxWindowSize - increment < s.remoteWindowSize then { s with terminated := true }
  else { s with remoteWindowSize := s.remoteWindowSize + increment }

/-! ### Both ends

The two ends with the data and the updates in flight between them. An event is one step of one end,
so that a run is any interleaving. -/

/-- Two sessions and what is under way between them: the bytes of each DATA frame that have not been
read yet, and the increments of the WINDOW_UPDATE frames. -/
structure FlowLink where
  receiver : WindowReceiver
  data : List Nat
  updates : List Int
  sender : WindowSender

/-- Two sessions at the start of a connection, with the initial window on both ends and nothing in
flight. -/
def FlowLink.init (noAutoWindowUpdate : Bool) : FlowLink where
  receiver :=
    { window :=
        { localWindowSize := initialConnectionWindowSize, recvWindowSize := 0, recvReduction := 0 }
      consumedSize := 0
      windowUpdateQueued := false
      noAutoWindowUpdate := noAutoWindowUpdate
      obReg := []
      terminated := none }
  data := []
  updates := []
  sender := { remoteWindowSize := initialConnectionWindowSize, active := none, terminated := false }

/-- What happens at one of the ends: a DATA frame of some stream is packed, or has been sent; some
bytes of the first one arrive; the application calls; the first WINDOW_UPDATE frame has been sent,
or arrives. -/
inductive FlowEvent where
  | packData (streamWindowSize maxFrameSize : Int) (length : Nat)
  | dataSent
  | dataArrives (readlen : Nat)
  | consume (size : Nat)
  | submitWindowUpdate (increment : Int)
  | setLocalWindowSize (windowSize : Int)
  | windowUpdateSent
  | windowUpdateArrives

/-- A call that changes only the receiver; a session that was terminated does nothing more. -/
def FlowLink.receive (link : FlowLink) (call : WindowReceiver → WindowReceiver) : FlowLink :=
  if link.receiver.terminated = none then { link with receiver := call link.receiver } else link

/-- One step. What cannot happen in a state changes nothing. -/
def FlowLink.step (link : FlowLink) : FlowEvent → FlowLink
  | .packData streamWindowSize maxFrameSize length =>
      -- DATA frames are taken from the queue only while the window of the connection is open
      if link.sender.active = none ∧ link.sender.remoteWindowSize > 0 ∧
          nextDataRead link.sender streamWindowSize maxFrameSize ≠ 0 ∧
          length ≤ nextDataRead link.sender streamWindowSize maxFrameSize then
        { link with sender := { link.sender with active := some length } }
      else link
  | .dataSent =>
      match link.sender.active with
      | none => link
      | some length =>
          { link with
            data := link.data ++ [length]
            sender :=
              { link.sender with
                remoteWindowSize := link.sender.remoteWindowSize - length
                active := none } }
  | .dataArrives readlen =>
      match link.data with
      | [] => link
      | left :: later =>
          if readlen ≤ left ∧ link.receiver.terminated = none then
            { link with
              receiver :=
                if readlen > 0 then updateRecvConnectionWindowSize link.receiver readlen
                else link.receiver
              data := if left - readlen = 0 then later else (left - readlen) :: later }
          else link
  | .consume size => link.receive fun r => consumeConnection r size
  | .submitWindowUpdate increment => link.receive fun r => submitWindowUpdate r increment
  | .setLocalWindowSize windowSize => link.receive fun r => setLocalWindowSize r windowSize
  | .windowUpdateSent =>
      match link.receiver.obReg with
      | [] => link
      | increment :: later =>
          if link.receiver.terminated = none then
            { link with
              receiver := afterWindowUpdateSent { link.receiver with obReg := later }
              updates := link.updates ++ [increment] }
          else link
  | .windowUpdateArrives =>
      match link.updates with
      | [] => link
      | increment :: later =>
          { link with
            updates := later
            sender := onConnectionWindowUpdateReceived link.sender increment }

end Hfc
