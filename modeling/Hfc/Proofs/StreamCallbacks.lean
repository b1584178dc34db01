/-
Module: Hfc.Proofs.StreamCallbacks
Layer: Proofs
Purpose: Where the data of concurrent HTTP/2 streams goes. The client keeps the write callback of
  the submission made last, whatever the session answered to it, and gives it the data of every
  stream.
Imports: Hfc.Core.Http2, Hfc.Library.EventRun
Main exports: Http2Event.returned, owner, IsOpen, latestCallback, slotLatest_next, DataToOwner,
  OwnCallbackLatest, http2_data_to_owner_iff
-/
import Hfc.Core.Http2
import Hfc.Library.EventRun

namespace Hfc

open ByteText EventRun

variable {Read Write : Type}

/-! ### Histories

What a client has done so far, and who opened a stream. -/

/-- What `httpc2_submit_request` returns for a submission on a client. -/
def Http2Event.returned : Http2Event Read Write → Option (Int × Option Write)
  | .submit none _ writeCallback _ => some (-1, writeCallback)
  | .submit (some _) _ writeCallback answer => some (answer, writeCallback)
  | .data .. => none
  | .close _ => none

/-- The write callback passed in the call that returned the stream, the last such call if there are
several; with the outer `none` no call did. -/
def owner (streamId : Int) : List (Http2Event Read Write) → Option (Option Write)
  | [] => none
  | event :: later =>
      match owner streamId later with
      | some callback => some callback
      | none =>
          match event.returned with
          | some (answer, callback) => if answer = streamId then some callback else none
          | none => none

/-- A call returned the stream, and its end was not reported yet. -/
def IsOpen (past : List (Http2Event Read Write)) (streamId : Int) : Prop :=
  0 < streamId ∧ (owner streamId past).isSome ∧ .close streamId ∉ past

/-- The write callback of the last submission that named header fields, whatever came of it. -/
def latestCallback (initial : Option Write) (past : List (Http2Event Read Write)) : Option Write :=
  past.foldl (fun callback event =>
    match event with
    | .submit (some _) _ writeCallback _ => writeCallback
    | _ => callback) initial

/-! ### Runs

The one slot for callbacks is that of the latest submission, the failed ones included. Data goes to
its owner as long as that is the owner's own. -/

/-- A client and what has happened to it. -/
structure Http2Run (Read Write : Type) where
  client : Httpc2 Write
  past : List (Http2Event Read Write)

namespace Http2Run

/-- The run after one more event. -/
def next (run : Http2Run Read Write) (event : Http2Event Read Write) : Http2Run Read Write where
  client := http2Step run.client event
  past := run.past ++ [event]

/-- The delivery a chunk of the stream would lead to. -/
def deliver (run : Http2Run Read Write) (flags : Nat) (streamId : Int) (chunk : Bytes) :
    Option (Delivery Write) :=
  httpc2OnDataChunkRecv (some run.client) flags streamId chunk

end Http2Run

/-- A chunk goes to the write callback of its own request, and is dropped if that one is NULL; a
submission that fails does not change where the data of any open stream goes. -/
def DataToOwner (run : Http2Run Read Write) : Http2Event Read Write → Prop
  | .data flags streamId chunk =>
      ∀ callback, owner streamId run.past = some callback →
        run.deliver flags streamId chunk =
          callback.map fun callback =>
            { callback := callback, streamId := streamId, data := chunk, flags := flags }
  | .submit nva readCallback writeCallback answer =>
      ∀ result, (Http2Event.submit nva readCallback writeCallback answer).returned = some result →
        result.1 ≤ 0 → ∀ streamId, IsOpen run.past streamId → ∀ flags chunk,
          (run.next (.submit nva readCallback writeCallback answer)).deliver flags streamId chunk =
            run.deliver flags streamId chunk
  | .close _ => True

/-- The chunk's request, if there is one, has the write callback of the submission made last; a
submission that fails has it as well, if a stream is open and it names header fields. -/
def OwnCallbackLatest (initial : Option Write) (run : Http2Run Read Write) :
    Http2Event Read Write → Prop
  | .data _ streamId _ =>
      ∀ callback, owner streamId run.past = some callback →
        callback = latestCallback initial run.past
  | .submit (some _) _ writeCallback answer =>
      answer ≤ 0 → (∃ streamId, IsOpen run.past streamId) →
        writeCallback = latestCallback initial run.past
  | .submit none .. => True
  | .close _ => True

/-- The slot holds the write callback of the submission made last. -/
def SlotLatest (initial : Option Write) (run : Http2Run Read Write) : Prop :=
  run.client.writeCallback = latestCallback initial run.past

theorem latestCallback_snoc (initial : Option Write) (past : List (Http2Event Read Write))
    (event : Http2Event Read Write) :
    latestCallback initial (past ++ [event]) =
      match event with
      | .submit (some _) _ writeCallback _ => writeCallback
      | _ => latestCallback initial past := by
  simp [latestCallback, List.foldl_append]

theorem slotLatest_next {initial : Option Write} {run : Http2Run Read Write}
    (slot : SlotLatest initial run) (event : Http2Event Read Write) :
    SlotLatest initial (run.next event) := by
  unfold SlotLatest Http2Run.next at *
  rw [latestCallback_snoc]
  cases event with
  | submit nva readCallback writeCallback answer =>
      cases nva with
      | none => exact slot
      | some nva => rfl
  | data flags streamId chunk => exact slot
  | close streamId => exact slot

/-- Deliveries are alike when the callbacks are. -/
theorem map_delivery_inj {flags : Nat} {streamId : Int} {chunk : Bytes} {a b : Option Write} :
    (a.map fun callback =>
        ({ callback := callback, streamId := streamId, data := chunk, flags := flags } :
          Delivery Write)) =
      (b.map fun callback =>
        { callback := callback, streamId := streamId, data := chunk, flags := flags }) ↔ a = b :=
  (Option.map_injective fun _ _ same => (Delivery.mk.inj same).1).eq_iff

/-- One event, with the slot as every run leaves it. -/
theorem dataToOwner_iff {initial : Option Write} {run : Http2Run Read Write}
    (slot : SlotLatest initial run) (event : Http2Event Read Write) :
    DataToOwner run event ↔ OwnCallbackLatest initial run event := by
  cases event with
  | data flags streamId chunk =>
      refine forall_congr' fun callback => imp_congr_right fun _ => ?_
      rw [← slot, eq_comm]
      exact map_delivery_inj
  | submit nva readCallback writeCallback answer =>
      cases nva with
      | none => exact ⟨fun _ => trivial, fun _ _ _ _ _ _ _ _ => rfl⟩
      | some nva =>
          have slots : ∀ flags streamId chunk,
              (run.next (.submit (some nva) readCallback writeCallback answer)).deliver flags
                  streamId chunk = run.deliver flags streamId chunk ↔
                writeCallback = latestCallback initial run.past := by
            intro flags streamId chunk
            rw [← slot]
            exact map_delivery_inj
          constructor
          · rintro kept fails ⟨streamId, opened⟩
            exact (slots 0 streamId []).mp (kept _ rfl fails streamId opened 0 [])
          · rintro same result returned fails streamId opened flags chunk
            obtain rfl := Option.some.inj returned
            exact (slots flags streamId chunk).mpr (same fails ⟨streamId, opened⟩)
  | close streamId => exact Iff.rfl

/-- Along every interleaving of submissions and data, each chunk reaches the callback of its own
request and failed submissions change nothing, if and only if at each chunk the request it belongs
to has the callback submitted last, and each submission that fails while a stream is open repeats
that callback. -/
theorem http2_data_to_owner_iff (client : Httpc2 Write) (events : List (Http2Event Read Write)) :
    Along Http2Run.next DataToOwner { client := client, past := [] } events ↔
      Along Http2Run.next (OwnCallbackLatest client.writeCallback)
        { client := client, past := [] } events :=
  Along.congr (SlotLatest client.writeCallback) (fun _ event slot => dataToOwner_iff slot event)
    (fun _ event slot _ => slotLatest_next slot event) rfl

/-- Two requests with callbacks of their own, and a chunk of the first one's response: it is given
to the second one's callback. So it is when the second submission failed. -/
theorem http2_data_to_other_callback :
    ¬ Along Http2Run.next DataToOwner
        { client := { httpc := none, writeCallback := none }, past := [] }
        ([.submit (some []) none (some 1) 1, .submit (some []) none (some 2) 3,
          .data 0 1 (ascii "a")] : List (Http2Event Unit Nat)) ∧
      ¬ Along Http2Run.next DataToOwner
        { client := { httpc := none, writeCallback := none }, past := [] }
        ([.submit (some []) none (some 1) 1, .submit (some []) none (some 2) (-1),
          .data 0 1 (ascii "a")] : List (Http2Event Unit Nat)) := by
  constructor
  · rintro ⟨-, -, misled, -⟩
    exact absurd (misled (some 1) rfl) (by decide)
  · rintro ⟨-, -, misled, -⟩
    exact absurd (misled (some 1) rfl) (by decide)

end Hfc
