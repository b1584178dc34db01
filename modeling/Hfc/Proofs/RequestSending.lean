/-
Module: Hfc.Proofs.RequestSending
Layer: Proofs
Purpose: What `httpc_send_request` hands to the transport and what the transport accepts of it.
  Header and body are offered with one send call each, and a call that accepts less than it was
  offered is taken for success.
Imports: Hfc.Core.Exchange, Hfc.Proofs.ResponseHead
Main exports: sendRequest_cases, Transport.TakesAll, Transport.SendFails, request_sent_whole_iff
-/
import Hfc.Core.Exchange
import Hfc.Proofs.ResponseHead

namespace Hfc

open ByteText Numeral

namespace Transport

variable (net : Transport)

/-- Send call number `calls` for `n` bytes fails. -/
def SendFails (calls n : Nat) : Prop :=
  match net.send calls n with
  | .fail _ => True
  | .accept _ => False

/-- Send call number `calls` for `n` bytes accepts all of them. -/
def TakesAll (calls n : Nat) : Prop :=
  match net.send calls n with
  | .fail _ => False
  | .accept cap => n ≤ cap

instance (calls n : Nat) : Decidable (net.SendFails calls n) := by
  unfold SendFails
  split <;> infer_instance

instance (calls n : Nat) : Decidable (net.TakesAll calls n) := by
  unfold TakesAll
  split <;> infer_instance

/-- What a send call returns: a negative result when it fails, and else the number of bytes
accepted. -/
theorem transmit_spec (w : World) (offered : Bytes) :
    ((net.transmit w offered).1 < 0 ↔ net.SendFails w.sends.length offered.length) ∧
      ((net.transmit w offered).1 = offered.length ↔
        net.TakesAll w.sends.length offered.length) ∧
      (net.transmit w offered).1 ≤ offered.length := by
  unfold Transport.transmit SendFails TakesAll
  cases net.send w.sends.length offered.length with
  | fail code =>
      have negative := Int.negSucc_lt_zero code
      refine ⟨by simp, ?_, ?_⟩ <;> dsimp only
      · simp
      · omega
  | accept cap =>
      refine ⟨?_, ?_, ?_⟩ <;> dsimp only
      · simp
      · omega
      · omega

end Transport

section

variable {net : Transport} {httpc : Httpc} {node : HttpcMemNode} {w : World}

/-- On a live client `httpc_send` is the transport's send call. -/
theorem httpcSend_of_live (live : httpc.Live) (mem : Bytes) {size : Nat} (small : size < 2 ^ 64) :
    httpcSend net httpc w (some mem) size =
      { ret := (net.transmit w (mem.take size)).1
        world := (net.transmit w (mem.take size)).2 } := by
  obtain ⟨socket, context⟩ := live.passes
  simp [httpcSend, socket, context, toSizeT_natCast small]

/-- The header is offered with one send call. -/
theorem sendHeader_eq (live : httpc.Live) (header : httpc.headerNode = some node)
    (inUse : node.InUse) :
    httpcSendHeader net httpc w =
      { ret := (net.transmit w node.header).1, world := (net.transmit w node.header).2 } := by
  have small : node.bufUsed.toNat < 2 ^ 64 := by
    have inside := inUse.inside
    have isInt := node.isInt
    omega
  have sent : httpcSend net httpc w (some node.buf) node.bufUsed.toNat = _ :=
    httpcSend_of_live live node.buf small
  rw [Int.toNat_of_nonneg inUse.nonneg] at sent
  simp only [httpcSendHeader, header, sent]
  rfl

/-- The body is offered with one send call. -/
theorem sendData_eq (live : httpc.Live) {body : Bytes} (small : body.length < 2 ^ 31) :
    httpcSendData net httpc w (some body) body.length =
      { ret := (net.transmit w body).1, world := (net.transmit w body).2 } := by
  have sent : httpcSend net httpc w (some body) body.length = _ :=
    httpcSend_of_live live body (show body.length < 2 ^ 64 by omega)
  rw [List.take_length] at sent
  exact sent

/-- Reading a response sends nothing. -/
theorem handleResponse_sends (live : httpc.Live) (header : httpc.headerNode = some node) :
    (httpcHandleResponse net httpc w).world.sends = w.sends := by
  obtain ⟨⟨k, advances⟩, -⟩ := headLoop_reset_advances live net node w
  simp only [httpcHandleResponse, header]
  exact advances.sends

/-- What a response is found to be is never a failure to send. -/
theorem handleResponse_ret (header : httpc.headerNode = some node) :
    (httpcHandleResponse net httpc w).ret ≠ httpcErrSend := by
  obtain ⟨ret, code, length, chunked, found, parsed⟩ := parseHead_frame
    { httpc with
      headerNode := some (headLoop net httpc node.bufLen (httpcMemNodeReset node) w).1 }
    (headLoop net httpc node.bufLen (httpcMemNodeReset node) w).1
  simp only [httpcHandleResponse, header, parsed]
  rcases found with rfl | rfl <;> decide

/-- What `httpc_send_request` does: it reports a failed send, or it goes on to the response with one
send call made for the header and, if there is a body, one for the body. -/
theorem sendRequest_cases (live : httpc.Live) (header : httpc.headerNode = some node)
    (inUse : node.InUse) {sendBuf : Option Bytes}
    (small : ∀ body ∈ sendBuf, body.length < 2 ^ 31) :
    let first := net.transmit w node.header
    (first.1 < 0 ∧ httpcSendRequest net httpc w sendBuf =
        { ret := httpcErrSend, httpc := httpc, world := first.2 }) ∨
      (¬ first.1 < 0 ∧ sendBuf = none ∧
        httpcSendRequest net httpc w sendBuf = httpcHandleResponse net httpc first.2) ∨
      ∃ body, sendBuf = some body ∧ ¬ first.1 < 0 ∧
        ((net.transmit first.2 body).1 < 0 ∧ httpcSendRequest net httpc w sendBuf =
            { ret := httpcErrSend, httpc := httpc, world := (net.transmit first.2 body).2 } ∨
          ¬ (net.transmit first.2 body).1 < 0 ∧
            httpcSendRequest net httpc w sendBuf =
              httpcHandleResponse net httpc (net.transmit first.2 body).2) := by
  intro first
  unfold httpcSendRequest
  rw [sendHeader_eq live header inUse]
  dsimp only
  by_cases fails : first.1 < 0
  · exact .inl ⟨fails, if_pos fails⟩
  · rw [httpcErrOk, if_neg fails]
    cases sendBuf with
    | none => exact .inr (.inl ⟨fails, rfl, rfl⟩)
    | some body =>
        refine .inr (.inr ⟨body, rfl, fails, ?_⟩)
        dsimp only
        rw [sendData_eq live (small body rfl)]
        dsimp only
        by_cases failsToo : (net.transmit first.2 body).1 < 0
        · exact .inl ⟨failsToo, if_pos failsToo⟩
        · exact .inr ⟨failsToo, if_neg failsToo⟩

/-- The send calls made between two connections, and what was accepted with them: the whole of the
header and the body. -/
def AcceptedWhole (node : HttpcMemNode) (sendBuf : Option Bytes) (w w' : World) : Prop :=
  ∃ sent, w'.sends = w.sends ++ sent ∧
    sent.flatMap SendCall.accepted = node.header ++ sendBuf.getD []

/-- The request was reported as not sent, or the client went on to the response with all of it
accepted by the transport. -/
def RequestWhole (net : Transport) (httpc : Httpc) (node : HttpcMemNode) (sendBuf : Option Bytes)
    (w : World) : Prop :=
  (httpcSendRequest net httpc w sendBuf).ret = httpcErrSend ∨
    ∃ w', httpcSendRequest net httpc w sendBuf = httpcHandleResponse net httpc w' ∧
      AcceptedWhole node sendBuf w w'

/-- Two texts are whole behind each other when each is whole. -/
private theorem take_append_take_eq_iff (front back : Bytes) (i j : Nat) :
    front.take i ++ back.take j = front ++ back ↔ front.length ≤ i ∧ back.length ≤ j := by
  constructor
  · intro same
    have lengths := congrArg List.length same
    simp only [List.length_append, List.length_take] at lengths
    omega
  · rintro ⟨whole, wholeToo⟩
    rw [List.take_of_length_le whole, List.take_of_length_le wholeToo]

/-- One send call that is not known to fail accepted everything when it returned the whole length.
-/
theorem takesAll_iff_accepted (w : World) (offered : Bytes)
    (succeeds : ¬ (net.transmit w offered).1 < 0) :
    net.TakesAll w.sends.length offered.length ↔
      offered.length ≤ (net.transmit w offered).1.toNat := by
  obtain ⟨-, all, bound⟩ := net.transmit_spec w offered
  rw [← all]
  omega

/-- A request that went on to the response was sent whole when each call accepted all of it. -/
theorem requestWhole_iff_of_response {w' : World} {sendBuf : Option Bytes} {sent : List SendCall}
    (live : httpc.Live) (header : httpc.headerNode = some node)
    (response : httpcSendRequest net httpc w sendBuf = httpcHandleResponse net httpc w')
    (made : w'.sends = w.sends ++ sent) :
    RequestWhole net httpc node sendBuf w ↔
      sent.flatMap SendCall.accepted = node.header ++ sendBuf.getD [] := by
  constructor
  · rintro (failed | ⟨w'', response', sent', made', accepted⟩)
    · rw [response] at failed
      exact absurd failed (handleResponse_ret header)
    · have same : w''.sends = w'.sends := by
        rw [← handleResponse_sends live header, ← response', response,
          handleResponse_sends live header]
      rw [made', made] at same
      rwa [List.append_cancel_left same] at accepted
  · exact fun accepted => .inr ⟨w', response, sent, made, accepted⟩

/-- A request is sent whole or reported as not sent, if and only if one of its send calls fails or
each of them accepts all it is offered. -/
theorem request_sent_whole_iff (live : httpc.Live) (header : httpc.headerNode = some node)
    (inUse : node.InUse) {sendBuf : Option Bytes}
    (small : ∀ body ∈ sendBuf, body.length < 2 ^ 31) :
    RequestWhole net httpc node sendBuf w ↔
      net.SendFails w.sends.length node.header.length ∨
      (∃ body ∈ sendBuf, net.SendFails (w.sends.length + 1) body.length) ∨
      (net.TakesAll w.sends.length node.header.length ∧
        ∀ body ∈ sendBuf, net.TakesAll (w.sends.length + 1) body.length) := by
  obtain ⟨fails, -, -⟩ := net.transmit_spec w node.header
  rcases sendRequest_cases (w := w) live header inUse small with
    ⟨failed, result⟩ | ⟨succeeds, rfl, result⟩ | ⟨body, rfl, succeeds, more⟩
  · exact ⟨fun _ => .inl (fails.mp failed), fun _ => .inl (by rw [result])⟩
  · rw [requestWhole_iff_of_response live header result (net.transmit_sends w node.header),
      ← fails, takesAll_iff_accepted w node.header succeeds]
    have whole := take_append_take_eq_iff node.header [] (net.transmit w node.header).1.toNat 0
    simp only [List.take_nil, List.append_nil, List.length_nil, le_refl, and_true] at whole
    simp [SendCall.accepted, whole, succeeds]
  · obtain ⟨failsToo, -, -⟩ := net.transmit_spec (net.transmit w node.header).2 body
    have count : (net.transmit w node.header).2.sends.length = w.sends.length + 1 := by simp
    rw [count] at failsToo
    rcases more with ⟨failed, result⟩ | ⟨succeedsToo, result⟩
    · refine ⟨fun _ => .inr (.inl ⟨body, rfl, failsToo.mp failed⟩), fun _ => .inl (by rw [result])⟩
    · have made : (net.transmit (net.transmit w node.header).2 body).2.sends = w.sends ++
          [{ offered := node.header, ret := (net.transmit w node.header).1 },
            { offered := body, ret := (net.transmit (net.transmit w node.header).2 body).1 }] := by
        simp
      have wholeBody := takesAll_iff_accepted (net.transmit w node.header).2 body succeedsToo
      rw [count] at wholeBody
      rw [requestWhole_iff_of_response live header result made, ← fails,
        takesAll_iff_accepted w node.header succeeds]
      simp [SendCall.accepted, take_append_take_eq_iff, succeeds, ← failsToo, succeedsToo,
        wholeBody]

/-- The node of 64 bytes that holds a request for the root. -/
def getNode : HttpcMemNode :=
  (headerSetNode smallNode (some (ascii "GET / HTTP/1.1\r\n\r\n"))).2

/-- The client with that request. -/
def getClient : Httpc :=
  (Httpc.plain 3).withNode getNode

theorem getClient_live : getClient.Live :=
  (Httpc.plain_live (by decide)).withNode _

theorem getNode_inUse : getNode.InUse :=
  ⟨by decide, by decide⟩

/-- A transport that accepts what it is offered gets the whole request. -/
theorem request_sent_whole_iff_prompt :
    RequestWhole .prompt getClient getNode (some (ascii "data")) (.opened okHeader.bytes) :=
  (request_sent_whole_iff (w := .opened okHeader.bytes) getClient_live rfl
    getNode_inUse (by decide)).mpr (by decide)

/-- The transport that accepts two bytes with its second send call. -/
def Transport.shortSecondSend : Transport :=
  { Transport.prompt with send := fun calls n => .accept (if calls = 1 then 2 else n) }

/-- A body of which two bytes are accepted is taken for sent: the response is read and reported. -/
theorem request_sent_short :
    (httpcSendRequest .shortSecondSend getClient (.opened okHeader.bytes)
        (some (ascii "data"))).ret = httpcErrOk ∧
      (httpcSendRequest .shortSecondSend getClient (.opened okHeader.bytes)
        (some (ascii "data"))).world.sends.flatMap SendCall.accepted =
          ascii "GET / HTTP/1.1\r\n\r\nda" ∧
      ¬ RequestWhole .shortSecondSend getClient getNode (some (ascii "data"))
        (.opened okHeader.bytes) := by
  refine ⟨by decide +kernel, by decide +kernel, ?_⟩
  have response : httpcSendRequest .shortSecondSend getClient (.opened okHeader.bytes)
      (some (ascii "data")) = httpcHandleResponse .shortSecondSend getClient
        (Transport.shortSecondSend.transmit
          (Transport.shortSecondSend.transmit (.opened okHeader.bytes) getNode.header).2
          (ascii "data")).2 := by decide +kernel
  rw [requestWhole_iff_of_response getClient_live rfl response (List.nil_append _).symm]
  decide +kernel

end

end Hfc
