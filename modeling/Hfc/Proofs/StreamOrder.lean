/-
Module: Hfc.Proofs.StreamOrder
Layer: Proofs
Purpose: What a caller gets of a connection over a whole run. Every call takes the next bytes off
  the stream and hands a stretch of them on, or nothing; so along any run of calls, on any client
  and any transport, the bytes arrive in the order of the stream and none arrives twice.
Imports: Hfc.Core.Session, Hfc.Proofs.LineReader
Main exports: Hands, chunkedRecv_hands, step_hands, deliveries_in_stream_order,
  plain_deliveries_complete
-/
import Hfc.Core.Session
import Hfc.Proofs.LineReader

namespace Hfc

open ByteText EventRun Numeral

/-! ### One call

Every call takes a front of the stream and hands over a part of it, in order. -/

/-- Between `w` and `w'` the next bytes were taken off the stream, and `data`, which begins at the
position `start`, is a stretch of them. -/
structure Hands (w : World) (start : Nat) (data : Bytes) (w' : World) : Prop where
  consumes : ∃ k, Consumes w k w'
  behind : w.taken ≤ start
  within : start + data.length ≤ w'.taken
  bytes : data = (w.unread.drop (start - w.taken)).take data.length

namespace Hands

/-- A step that takes bytes and hands on none of them. -/
theorem nothing {w w' : World} {k : Nat} (consumes : Consumes w k w') :
    Hands w w.taken [] w' where
  consumes := ⟨k, consumes⟩
  behind := le_rfl
  within := by
    rw [consumes.taken]
    exact Nat.le_add_right _ _
  bytes := rfl

/-- A call that delivers nothing, made behind some bytes. -/
theorem failed {w w' : World} {k : Nat} (consumes : Consumes w k w') (ret : Int) :
    Hands w (BodyRecv.failed ret w').start (BodyRecv.failed ret w').data
      (BodyRecv.failed ret w').world where
  consumes := ⟨k, consumes⟩
  behind := by
    show w.taken ≤ w'.taken
    rw [consumes.taken]
    exact Nat.le_add_right _ _
  within := le_rfl
  bytes := rfl

/-- What was taken in front of a stretch and behind it belongs to the call. -/
theorem between {w w₁ w₂ w₃ : World} {k k' : Nat} {data : Bytes} (before : Consumes w k w₁)
    (hands : Hands w₁ w₁.taken data w₂) (after : Consumes w₂ k' w₃) :
    Hands w w₁.taken data w₃ where
  consumes := by
    obtain ⟨_, consumes⟩ := hands.consumes
    exact ⟨_, (before.trans consumes).trans after⟩
  behind := by
    rw [before.taken]
    exact Nat.le_add_right _ _
  within := by
    have within := hands.within
    rw [after.taken]
    omega
  bytes := by
    have bytes := hands.bytes
    rw [Nat.sub_self, List.drop_zero, before.unread] at bytes
    rw [before.taken, Nat.add_sub_cancel_left]
    exact bytes

end Hands

section

variable (net : Transport) (httpc : Httpc)

/-- A receive call hands on all that it takes. -/
theorem httpcRecv_hands (w : World) (bufNull : Bool) (size : Int) :
    Hands w w.taken (httpcRecv net httpc w bufNull size).data
        (httpcRecv net httpc w bufNull size).world ∧
      (httpcRecv net httpc w bufNull size).world.taken =
        w.taken + (httpcRecv net httpc w bufNull size).data.length := by
  have untouched (w' : World) (unread : w'.unread = w.unread) (taken : w'.taken = w.taken) :
      Hands w w.taken [] w' ∧ w'.taken = w.taken + ([] : Bytes).length :=
    ⟨.nothing ⟨Nat.zero_le _, unread, taken⟩, taken⟩
  unfold httpcRecv
  split
  · exact untouched w rfl rfl
  · split
    · exact untouched _ rfl rfl
    · obtain ⟨advances, data, -, -⟩ := receive_spec net w (toSizeT size)
      refine ⟨⟨⟨_, advances.consumes⟩, le_rfl, advances.taken.ge, ?_⟩, advances.taken⟩
      rw [Nat.sub_self, List.drop_zero]
      exact data

/-- The line reader takes what comes next. -/
theorem readOneLineLoop_consumes (room : Nat) (last : Byte) (stored : Bytes) (w : World) :
    ∃ k, Consumes w k (readOneLineLoop net httpc room last stored w).world := by
  induction room generalizing last stored w with
  | zero => exact ⟨0, .refl w⟩
  | succ room ih =>
      obtain ⟨k, consumes⟩ := (httpcRecv_hands net httpc w false 1).1.consumes
      simp only [readOneLineLoop]
      split
      · exact ⟨k, consumes⟩
      · split
        · exact ⟨k, consumes⟩
        · obtain ⟨k', later⟩ := ih _ _ _
          exact ⟨k + k', consumes.trans later⟩

theorem readOneLine_consumes (w : World) (size : Int) :
    ∃ k, Consumes w k (httpcReadOneLine net httpc w size).world :=
  readOneLineLoop_consumes net httpc _ _ _ w

/-- So does the loop that reads a response header, line by line. -/
theorem headLoop_consumes (fuel : Nat) (node : HttpcMemNode) (w : World) :
    ∃ k, Consumes w k (headLoop net httpc fuel node w).2 := by
  induction fuel generalizing node w with
  | zero => exact ⟨0, .refl w⟩
  | succ fuel ih =>
      obtain ⟨k, consumes⟩ := readOneLine_consumes net httpc w (node.bufLen - node.bufUsed)
      unfold headLoop
      dsimp only
      split
      · exact ⟨k, consumes⟩
      · split
        · exact ⟨k, consumes⟩
        · split
          · exact ⟨k, consumes⟩
          · obtain ⟨k', later⟩ := ih _ _
            exact ⟨k + k', consumes.trans later⟩

theorem handleResponse_consumes (w : World) :
    ∃ k, Consumes w k (httpcHandleResponse net httpc w).world := by
  unfold httpcHandleResponse
  split
  · exact ⟨0, .refl w⟩
  · exact headLoop_consumes net httpc _ _ w

/-- Sending takes nothing off the stream. -/
theorem httpcSend_consumes (w : World) (buf : Option Bytes) (size : Int) :
    Consumes w 0 (httpcSend net httpc w buf size).world := by
  unfold httpcSend
  split
  · exact .refl w
  · split
    · exact .refl w
    · split
      · exact ⟨Nat.zero_le _, rfl, rfl⟩
      · exact ⟨Nat.zero_le _, rfl, rfl⟩

theorem sendHeader_consumes (w : World) : Consumes w 0 (httpcSendHeader net httpc w).world := by
  unfold httpcSendHeader
  split
  · exact .refl w
  · exact httpcSend_consumes net httpc w _ _

/-- A request takes the response header off the stream and hands nothing on. -/
theorem sendRequest_consumes (w : World) (sendBuf : Option Bytes) :
    ∃ k, Consumes w k (httpcSendRequest net httpc w sendBuf).world := by
  have header := sendHeader_consumes net httpc w
  unfold httpcSendRequest
  dsimp only
  split
  · exact ⟨0, header⟩
  · split
    · obtain ⟨k, response⟩ := handleResponse_consumes net httpc (httpcSendHeader net httpc w).world
      exact ⟨0 + k, header.trans response⟩
    · rename_i body
      have data := header.trans (httpcSend_consumes net httpc (httpcSendHeader net httpc w).world
        (some body) body.length)
      split
      · exact ⟨0, data⟩
      · obtain ⟨k, response⟩ := handleResponse_consumes net httpc
          (httpcSendData net httpc (httpcSendHeader net httpc w).world (some body)
            body.length).world
        exact ⟨0 + k, data.trans response⟩

/-- A chunk that is handed on stands between its size line and the two bytes behind it. -/
theorem chunkedRecv_hands (w : World) (bufNull : Bool) (size : Int) :
    Hands w (httpcChunkedRecv net httpc w bufNull size).start
      (httpcChunkedRecv net httpc w bufNull size).data
      (httpcChunkedRecv net httpc w bufNull size).world := by
  have allocated : Consumes w 0 (net.allocate w).2 := ⟨Nat.zero_le _, rfl, rfl⟩
  obtain ⟨k, line⟩ := readOneLine_consumes net httpc (net.allocate w).2 chunkTmpSize
  have sizeLine := allocated.trans line
  unfold httpcChunkedRecv
  split
  · exact .failed (.refl w) _
  · dsimp only
    split
    · exact .failed allocated _
    · split
      · exact .failed sizeLine _
      · split
        · exact .failed sizeLine _
        · split
          · exact .failed sizeLine _
          · split
            · exact .failed sizeLine _
            · have chunk := (httpcRecv_hands net httpc
                (httpcReadOneLine net httpc (net.allocate w).2 chunkTmpSize).world false
                (chunkLen
                  (httpcReadOneLine net httpc (net.allocate w).2 chunkTmpSize).stored)).1
              split
              · obtain ⟨k', taken⟩ := chunk.consumes
                exact .failed (sizeLine.trans taken) _
              · obtain ⟨k', crlf⟩ := (httpcRecv_hands net httpc _ false 2).1.consumes
                exact .between sizeLine chunk crlf

/-- What one call of the interface does, on any client. -/
theorem step_hands (s : Session) (call : ApiCall) :
    Hands s.world (s.handed net call).1 (s.handed net call).2 (s.step net call).world := by
  cases call with
  | lendNode node => exact .nothing (.refl s.world)
  | headerSet formatted => exact .nothing (.refl s.world)
  | sendRequest sendBuf =>
      obtain ⟨k, consumes⟩ := sendRequest_consumes net s.httpc s.world sendBuf
      exact .nothing consumes
  | recvResponse mode bufNull size =>
      cases mode with
      | normal => exact (httpcRecv_hands net s.httpc s.world bufNull size).1
      | chunk => exact chunkedRecv_hands net s.httpc s.world bufNull size
      | unkonw => exact .failed (.refl s.world) httpcErrFail
      | max => exact .failed (.refl s.world) httpcErrFail
  | send buf size => exact .nothing (httpcSend_consumes net s.httpc s.world buf size)
  | recv bufNull size => exact (httpcRecv_hands net s.httpc s.world bufNull size).1

end

/-! ### Whole runs

Deliveries of consecutive calls follow one another on the stream, by induction on the calls. -/

/-- The bytes that were handed on between `w` and `w'`: in the order of the stream, each from a
position that was passed meanwhile, and the byte that stands there. -/
structure InStreamOrder (w : World) (got : List (Nat × Byte)) (w' : World) : Prop where
  increasing : (got.map Prod.fst).Pairwise (· < ·)
  inside : ∀ piece ∈ got, w.taken ≤ piece.1 ∧ piece.1 < w'.taken
  bytes : ∀ piece ∈ got, w.unread[piece.1 - w.taken]? = some piece.2

/-- The bytes of one stretch. -/
theorem Hands.inStreamOrder {w w' : World} {start : Nat} {data : Bytes}
    (hands : Hands w start data w') :
    InStreamOrder w ((List.range' start data.length).zip data) w' where
  increasing := by
    rw [List.map_fst_zip (by simp)]
    exact List.pairwise_lt_range'
  inside piece member := by
    have here := List.mem_range'_1.mp (List.of_mem_zip member).1
    have behind := hands.behind
    have within := hands.within
    omega
  bytes piece member := by
    obtain ⟨i, found⟩ := List.mem_iff_getElem?.mp member
    obtain ⟨position, byte⟩ := List.getElem?_zip_eq_some.mp found
    have inside : i < data.length := (List.getElem?_eq_some_iff.mp byte).1
    rw [List.getElem?_range' inside, Nat.one_mul, Option.some.injEq] at position
    have behind := hands.behind
    have there : piece.1 - w.taken = start - w.taken + i := by omega
    rw [hands.bytes, List.getElem?_take_of_lt inside, List.getElem?_drop, ← there] at byte
    exact byte

/-- Two runs one behind the other. -/
theorem InStreamOrder.append {w w₁ w₂ : World} {k : Nat} {first later : List (Nat × Byte)}
    (consumes : Consumes w k w₁) (bound : w₁.taken ≤ w₂.taken)
    (before : InStreamOrder w first w₁) (behind : InStreamOrder w₁ later w₂) :
    InStreamOrder w (first ++ later) w₂ where
  increasing := by
    rw [List.map_append, List.pairwise_append]
    refine ⟨before.increasing, behind.increasing, ?_⟩
    intro p early q late
    obtain ⟨piece, member, rfl⟩ := List.mem_map.mp early
    obtain ⟨piece', member', rfl⟩ := List.mem_map.mp late
    exact (before.inside piece member).2.trans_le (behind.inside piece' member').1
  inside piece member := by
    have taken := consumes.taken
    rcases List.mem_append.mp member with early | late
    · have inside := before.inside piece early
      omega
    · have inside := behind.inside piece late
      omega
  bytes piece member := by
    rcases List.mem_append.mp member with early | late
    · exact before.bytes piece early
    · have inside := behind.inside piece late
      have taken := consumes.taken
      rw [← behind.bytes piece late, consumes.unread, List.getElem?_drop]
      congr 1
      omega

section

variable {net : Transport}

variable (net) in
/-- A run takes the next bytes off the stream. -/
theorem exec_consumes (s : Session) (calls : List ApiCall) :
    ∃ k, Consumes s.world k (exec (Session.step net) s calls).world := by
  induction calls generalizing s with
  | nil => exact ⟨0, .refl s.world⟩
  | cons call calls ih =>
      obtain ⟨k, first⟩ := (step_hands net s call).consumes
      obtain ⟨k', later⟩ := ih (s.step net call)
      exact ⟨k + k', first.trans later⟩

theorem exec_taken_le (s : Session) (calls : List ApiCall) :
    s.world.taken ≤ (exec (Session.step net) s calls).world.taken := by
  obtain ⟨k, consumes⟩ := exec_consumes net s calls
  rw [consumes.taken]
  exact Nat.le_add_right _ _

theorem deliveries_inStreamOrder (s : Session) (calls : List ApiCall) :
    InStreamOrder s.world (s.deliveries net calls) (exec (Session.step net) s calls).world := by
  induction calls generalizing s with
  | nil =>
      exact ⟨.nil, fun piece member => (List.not_mem_nil member).elim,
        fun piece member => (List.not_mem_nil member).elim⟩
  | cons call calls ih =>
      have hands := step_hands net s call
      obtain ⟨k, consumes⟩ := hands.consumes
      exact .append consumes (exec_taken_le _ calls) hands.inStreamOrder (ih (s.step net call))

theorem deliveries_append (s : Session) (before behind : List ApiCall) :
    s.deliveries net (before ++ behind) =
      s.deliveries net before ++
        (exec (Session.step net) s before).deliveries net behind := by
  induction before generalizing s with
  | nil => rfl
  | cons call before ih =>
      rw [List.cons_append, Session.deliveries, Session.deliveries, ih, List.append_assoc, exec_cons]

/-- What a request takes off the stream is handed to nobody. -/
theorem deliveries_around_request (s : Session) (before behind : List ApiCall)
    (sendBuf : Option Bytes) :
    ∀ piece ∈ s.deliveries net (before ++ .sendRequest sendBuf :: behind),
      piece.1 < (exec (Session.step net) s before).world.taken ∨
        (exec (Session.step net) s (before ++ [.sendRequest sendBuf])).world.taken ≤ piece.1 := by
  intro piece member
  have all : exec (Session.step net) s (before ++ [.sendRequest sendBuf]) =
      (exec (Session.step net) s before).step net (.sendRequest sendBuf) := by
    simp [exec]
  rw [deliveries_append, Session.deliveries] at member
  rw [all]
  rcases List.mem_append.mp member with early | late
  · exact .inl ((deliveries_inStreamOrder s before).inside piece early).2
  · rcases List.mem_append.mp late with head | body
    · simp [Session.handed] at head
    · exact .inr ((deliveries_inStreamOrder _ behind).inside piece body).1

variable (net) in
/-- A plain call hands on all that it takes. -/
theorem step_plain (s : Session) {call : ApiCall} (plain : call.plain = true) :
    (s.handed net call).2 =
      s.world.unread.take ((s.step net call).world.taken - s.world.taken) := by
  have received (bufNull : Bool) (size : Int) :
      (httpcRecv net s.httpc s.world bufNull size).data =
        s.world.unread.take
          ((httpcRecv net s.httpc s.world bufNull size).world.taken - s.world.taken) := by
    obtain ⟨hands, taken⟩ := httpcRecv_hands net s.httpc s.world bufNull size
    have bytes := hands.bytes
    rw [Nat.sub_self, List.drop_zero] at bytes
    rw [taken, Nat.add_sub_cancel_left]
    exact bytes
  have untouched {w : World} (consumes : Consumes s.world 0 w) :
      [] = s.world.unread.take (w.taken - s.world.taken) := by
    rw [consumes.taken, Nat.add_zero, Nat.sub_self, List.take_zero]
  cases call with
  | lendNode node => exact untouched (.refl s.world)
  | headerSet formatted => exact untouched (.refl s.world)
  | sendRequest sendBuf => cases plain
  | recvResponse mode bufNull size =>
      cases mode with
      | normal => exact received bufNull size
      | chunk => cases plain
      | unkonw => exact untouched (.refl s.world)
      | max => exact untouched (.refl s.world)
  | send buf size => exact untouched (httpcSend_consumes net s.httpc s.world buf size)
  | recv bufNull size => exact received bufNull size

/-- A caller that makes plain calls only has every byte that was taken. -/
theorem plain_deliveries_complete (s : Session) {calls : List ApiCall}
    (plain : ∀ call ∈ calls, call.plain = true) :
    (s.deliveries net calls).map Prod.snd =
      s.world.unread.take
        ((exec (Session.step net) s calls).world.taken - s.world.taken) := by
  induction calls generalizing s with
  | nil => simp [Session.deliveries]
  | cons call calls ih =>
      obtain ⟨k, first⟩ := (step_hands net s call).consumes
      obtain ⟨k', later⟩ := exec_consumes net (s.step net call) calls
      have piece := step_plain net s (plain call List.mem_cons_self)
      have rest := ih (s.step net call) fun call' member => plain call' (List.mem_cons_of_mem _ member)
      rw [first.taken, Nat.add_sub_cancel_left] at piece
      rw [later.taken, Nat.add_sub_cancel_left, first.unread] at rest
      rw [Session.deliveries, List.map_append, List.map_snd_zip (by simp), rest, piece, exec_cons,
        later.taken, first.taken, Nat.add_assoc, Nat.add_sub_cancel_left, List.take_add]

/-- Over every run of calls with a client, in any order, on any transport and with any header nodes
lent in between, what the caller is handed arrives in the order of the stream and no byte of it
twice; what the requests read of it is not among it, and where no request was made and no chunk
asked for nothing that was taken is missing. -/
theorem deliveries_in_stream_order (net : Transport) (s : Session) (calls : List ApiCall) :
    InStreamOrder s.world (s.deliveries net calls) (exec (Session.step net) s calls).world ∧
      (∀ before sendBuf behind, calls = before ++ .sendRequest sendBuf :: behind →
        ∀ piece ∈ s.deliveries net calls,
          piece.1 < (exec (Session.step net) s before).world.taken ∨
            (exec (Session.step net) s (before ++ [.sendRequest sendBuf])).world.taken ≤ piece.1) ∧
      ((∀ call ∈ calls, call.plain = true) →
        (s.deliveries net calls).map Prod.snd =
          s.world.unread.take
            ((exec (Session.step net) s calls).world.taken - s.world.taken)) := by
  refine ⟨deliveries_inStreamOrder s calls, ?_, plain_deliveries_complete s⟩
  rintro before sendBuf behind rfl
  exact deliveries_around_request s before behind sendBuf

end

end Hfc
