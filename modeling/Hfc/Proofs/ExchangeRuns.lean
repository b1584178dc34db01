/-
Module: Hfc.Proofs.ExchangeRuns
Layer: Proofs
Purpose: Runs of exchanges on one client. The node that holds a request holds the response
  afterwards, and no call of the public interface empties it before the next request is built in it.
Imports: Hfc.Proofs.HeaderBuilding
Main exports: SetSucceeds, Succeeds, SessionInv, HandsOwnTexts, StartsEmpty, exchange_keeps,
  exchanges_do_not_leak_iff, next_request_carries_response
-/
import Hfc.Proofs.HeaderBuilding

namespace Hfc

open ByteText CrlfScan EventRun Numeral

/-! ### Exchanges whose header calls succeed

An exchange whose calls of `httpc_header_set` all return the length of their text, as a condition on
the node before it. -/

/-- The call of `httpc_header_set` returns the length of its text and counts it without leaving the
range of `int`. -/
def SetSucceeds (httpc : Httpc) (formatted : Option Bytes) : Prop :=
  ∃ node text, httpc.headerNode = some node ∧ formatted = some text ∧
    (httpcHeaderSet httpc formatted).1 = text.length ∧ node.bufUsed + text.length < 2 ^ 31

instance (httpc : Httpc) (formatted : Option Bytes) : Decidable (SetSucceeds httpc formatted) :=
  match header : httpc.headerNode, formatted with
  | some node, some text =>
      decidable_of_iff ((httpcHeaderSet httpc (some text)).1 = text.length ∧
          node.bufUsed + text.length < 2 ^ 31)
        ⟨fun succeeds => ⟨node, text, header, rfl, succeeds⟩, by
          rintro ⟨node', text', header', same, succeeds⟩
          obtain rfl := Option.some.inj (header.symm.trans header')
          obtain rfl := Option.some.inj same
          exact succeeds⟩
  | none, _ => .isFalse fun ⟨_, _, header', _⟩ => nomatch header.symm.trans header'
  | some _, none => .isFalse fun ⟨_, _, _, same, _⟩ => nomatch same

/-- All header calls of the exchange succeed. -/
def Succeeds (s : Session) (e : Exchange) : Prop :=
  Along setStep SetSucceeds s.httpc (e.texts.map some)

instance (s : Session) (e : Exchange) : Decidable (Succeeds s e) :=
  inferInstanceAs (Decidable (Along _ _ _ _))

section

variable {httpc : Httpc} {node : HttpcMemNode}

/-- A text that was set fits. -/
theorem setFits_of_succeeds (header : httpc.headerNode = some node) (inUse : node.InUse)
    {formatted : Option Bytes} (succeeds : SetSucceeds httpc formatted) :
    SetFits httpc formatted := by
  obtain ⟨node', text, header', rfl, ret, isInt⟩ := succeeds
  obtain rfl : node' = node := Option.some.inj (header'.symm.trans header)
  have nonneg := inUse.nonneg
  refine ⟨node', text, header, rfl, ?_⟩
  by_contra long
  obtain ⟨counted, -, -⟩ := headerSet_count node' (show text.length < 2 ^ 31 by omega)
  rw [toInt32_of_int (by omega) isInt, if_pos (not_lt.mp long)] at counted
  have failed : httpcErrFail = (text.length : Int) := by
    rw [← counted, ← ret]
    simp [httpcHeaderSet, header]
  simp only [httpcErrFail] at failed
  omega

/-- Along a run of calls that succeed all texts fit. -/
theorem along_setFits_of_succeeds (header : httpc.headerNode = some node) (inUse : node.InUse)
    {formatted : List (Option Bytes)} (succeed : Along setStep SetSucceeds httpc formatted) :
    Along setStep SetFits httpc formatted := by
  refine (Along.congr_of (fun client => ∃ node, client.headerNode = some node ∧ node.InUse)
    ?_ ?_ ⟨node, header, inUse⟩ succeed).mpr succeed
  · rintro client text ⟨node', header', inUse'⟩ succeeds
    exact ⟨fun _ => succeeds, fun _ => setFits_of_succeeds header' inUse' succeeds⟩
  · rintro client text ⟨node', header', inUse'⟩ succeeds
    obtain ⟨node₀, text, header₀, rfl, fits⟩ := setFits_of_succeeds header' inUse' succeeds
    obtain rfl : node₀ = node' := Option.some.inj (header₀.symm.trans header')
    have nonneg := inUse'.nonneg
    obtain ⟨node₁, set, -, used, bufLen⟩ := headerSet_fits ⟨nonneg, by omega⟩ fits
    exact ⟨node₁, by rw [setStep_eq header', set]; rfl, ⟨by omega, by omega⟩⟩

end

/-! ### The session between exchanges

What holds between two exchanges, and the equivalence by induction on them. At the end, the bytes of
a response that is still in the node when the next request is built. -/

/-- The client is connected, and the bytes in use lie inside its header buffer. -/
def SessionInv (s : Session) : Prop :=
  s.httpc.Live ∧ ∃ node, s.httpc.headerNode = some node ∧ node.InUse

/-- The first send call of the exchange's request offers the texts of the exchange and nothing else.
-/
def HandsOwnTexts (net : Transport) (s : Session) (e : Exchange) : Prop :=
  ∃ call later, (s.request net e).world.sends = s.world.sends ++ call :: later ∧
    call.offered = e.texts.flatten

/-- No bytes of the header buffer are in use. -/
def StartsEmpty (s : Session) (_ : Exchange) : Prop :=
  ∃ node, s.httpc.headerNode = some node ∧ node.bufUsed = 0

section

variable {net : Transport} {s : Session}

/-- The client of an exchange when its request is sent. -/
theorem ready_spec {node : HttpcMemNode} (header : s.httpc.headerNode = some node)
    (inUse : node.InUse) {e : Exchange} (succeeds : Succeeds s e) :
    ∃ node', s.ready e = s.httpc.withNode node' ∧ node'.InUse ∧
      node'.header = node.header ++ e.texts.flatten ∧ node'.bufLen = node.bufLen := by
  obtain ⟨node', run, inUse', header', -, bufLen⟩ :=
    exec_sets header inUse (along_setFits_of_succeeds header inUse succeeds)
  exact ⟨node', run, inUse', header', bufLen⟩

/-- Reading a response leaves a connected client whose bytes in use lie inside the buffer. -/
theorem handleResponse_keeps {httpc : Httpc} {node : HttpcMemNode} {w : World} (live : httpc.Live)
    (header : httpc.headerNode = some node) :
    (httpcHandleResponse net httpc w).httpc.Live ∧
      ∃ node', (httpcHandleResponse net httpc w).httpc.headerNode = some node' ∧ node'.InUse := by
  obtain ⟨-, inUse⟩ := headLoop_reset_advances live net node w
  obtain ⟨header', live'⟩ := parseHead_client live
    (headLoop net httpc node.bufLen (httpcMemNodeReset node) w).1
  simp only [httpcHandleResponse, header]
  exact ⟨live', _, header', inUse⟩

/-- An exchange keeps the invariant of the session. -/
theorem exchange_keeps (inv : SessionInv s) {e : Exchange} (succeeds : Succeeds s e) :
    SessionInv (s.exchange net e) := by
  obtain ⟨live, node, header, inUse⟩ := inv
  obtain ⟨node', ready, inUse', -, -⟩ := ready_spec header inUse succeeds
  have live' := live.withNode node'
  have kept : ∀ w, (httpcHandleResponse net (s.httpc.withNode node') w).httpc.Live ∧
      ∃ node'', (httpcHandleResponse net (s.httpc.withNode node') w).httpc.headerNode =
        some node'' ∧ node''.InUse := fun w => handleResponse_keeps live' rfl
  show SessionInv { httpc := (s.request net e).httpc, world := _ }
  unfold SessionInv Session.request
  rw [ready]
  rcases sendRequest_cases (w := s.world) live' rfl inUse' e.isInt with
    ⟨-, result⟩ | ⟨-, -, result⟩ | ⟨body, -, -, ⟨-, result⟩ | ⟨-, result⟩⟩
  · rw [result]
    exact ⟨live', node', rfl, inUse'⟩
  · rw [result]
    exact kept _
  · rw [result]
    exact ⟨live', node', rfl, inUse'⟩
  · rw [result]
    exact kept _

/-- A request hands over its own texts when nothing was in use before they were set. -/
theorem handsOwnTexts_iff (inv : SessionInv s) {e : Exchange} (succeeds : Succeeds s e) :
    HandsOwnTexts net s e ↔ StartsEmpty s e := by
  obtain ⟨live, node, header, inUse⟩ := inv
  obtain ⟨node', ready, inUse', header', -⟩ := ready_spec header inUse succeeds
  obtain ⟨call, later, sends, offered⟩ :=
    sendRequest_first (w := s.world) (live.withNode node') rfl inUse' e.isInt
  have nonneg := inUse.nonneg
  have length := inUse.length_header
  unfold HandsOwnTexts Session.request
  rw [ready]
  constructor
  · rintro ⟨call', later', sends', own⟩
    obtain ⟨rfl, -⟩ := List.cons.inj (List.append_cancel_left (sends.symm.trans sends'))
    rw [offered, header', List.append_left_eq_self] at own
    refine ⟨node, header, ?_⟩
    rw [own, List.length_nil] at length
    omega
  · rintro ⟨node₀, header₀, empty⟩
    obtain rfl : node₀ = node := Option.some.inj (header₀.symm.trans header)
    have blank : node₀.header = [] := by
      rw [HttpcMemNode.header, empty]
      exact List.take_zero
    exact ⟨call, later, sends, by rw [offered, header', blank, List.nil_append]⟩

/-- Along every run of exchanges each request hands over its own texts and nothing else, if and only
if each exchange starts with an empty header buffer. -/
theorem exchanges_do_not_leak_iff (inv : SessionInv s) {exchanges : List Exchange}
    (succeed : Along (Session.exchange net) Succeeds s exchanges) :
    Along (Session.exchange net) (HandsOwnTexts net) s exchanges ↔
      Along (Session.exchange net) StartsEmpty s exchanges :=
  Along.congr_of SessionInv (fun _ _ inv succeeds => handsOwnTexts_iff inv succeeds)
    (fun _ _ inv succeeds => exchange_keeps inv succeeds) inv succeed

/-- A response that was read stays in the node: its lines, as far as they fit, are what the next
request is built behind. -/
theorem handleResponse_leaves {httpc : Httpc} {node : HttpcMemNode} {w : World} (live : httpc.Live)
    (header : httpc.headerNode = some node) (steady : net.SteadyUntil w.stop) :
    ∃ node', (httpcHandleResponse net httpc w).httpc.headerNode = some node' ∧
      node'.header = (headScan node.bufLen node.bufLen w.unread).1 := by
  obtain ⟨w', handled, -⟩ :=
    handleResponse_eq live header steady (Nat.le_add_right _ _) (Prod.eta _).symm
  obtain ⟨header', -⟩ := parseHead_client live
    (node.holding (headScan node.bufLen node.bufLen w.unread).1)
  refine ⟨_, by rw [handled]; exact header', ?_⟩
  exact holding_header node (length_headScan_le _ _ _)

/-- After an exchange whose request was sent the node holds the response, whatever is received of
the body, so the next request is handed over behind the lines of that response. -/
theorem next_request_carries_response (live : s.httpc.Live) {node : HttpcMemNode}
    (header : s.httpc.headerNode = some node) (inUse : node.InUse) {e : Exchange}
    (succeeds : Succeeds s e) (steady : net.SteadyUntil s.world.stop)
    (sent : (s.request net e).ret ≠ httpcErrSend) :
    ∃ node', (s.exchange net e).httpc.headerNode = some node' ∧
      node'.header = (headScan node.bufLen node.bufLen s.world.unread).1 := by
  obtain ⟨node₁, ready, inUse₁, -, bufLen⟩ := ready_spec header inUse succeeds
  have live₁ := live.withNode node₁
  show ∃ node', (s.request net e).httpc.headerNode = some node' ∧ _
  unfold Session.request at sent ⊢
  rw [ready] at sent ⊢
  rw [← bufLen]
  rcases sendRequest_cases (w := s.world) live₁ rfl inUse₁ e.isInt with
    ⟨-, result⟩ | ⟨-, -, result⟩ | ⟨body, -, -, ⟨-, result⟩ | ⟨-, result⟩⟩
  · exact absurd (by rw [result]) sent
  · rw [result]
    exact handleResponse_leaves live₁ rfl (w := (net.transmit s.world node₁.header).2) steady
  · exact absurd (by rw [result]) sent
  · rw [result]
    exact handleResponse_leaves live₁ rfl
      (w := (net.transmit (net.transmit s.world node₁.header).2 body).2) steady

/-- A request for the given path, and one call that receives five bytes of its body. -/
def getExchange (path : String) : Exchange where
  texts := [ascii "GET ", ascii path, ascii "\r\n\r\n"]
  sendBuf := none
  reads := [(.normal, 5)]
  isInt _ none := nomatch none

/-- A session on a connection on which two responses will come. -/
def twoResponses : Session where
  httpc := smallClient
  world := .opened (okHeader.bytes ++ ascii "hello" ++ okHeader.bytes ++ ascii "world")

theorem twoResponses_inv : SessionInv twoResponses :=
  ⟨smallClient_live, _, rfl, by decide, by decide⟩

/-- The first exchange of a session hands over its own texts. -/
theorem exchanges_do_not_leak_iff_first :
    Along (Session.exchange .prompt) (HandsOwnTexts .prompt) twoResponses [getExchange "/1"] :=
  (exchanges_do_not_leak_iff twoResponses_inv (by decide +kernel)).mpr ⟨⟨_, rfl, rfl⟩, trivial⟩

/-- The second request is sent behind the lines of the first response. -/
theorem second_request_leaks :
    Along (Session.exchange .prompt) Succeeds twoResponses [getExchange "/1", getExchange "/2"] ∧
      (exec (Session.exchange .prompt) twoResponses
        [getExchange "/1", getExchange "/2"]).world.sends.map SendCall.offered =
          [ascii "GET /1\r\n\r\n",
            ascii "HTTP/1.1 200 OK" ++ [nul] ++ ascii "Content-Length: 5" ++ [nul] ++
              ascii "GET /2\r\n\r\n"] ∧
      ¬ Along (Session.exchange .prompt) (HandsOwnTexts .prompt) twoResponses
        [getExchange "/1", getExchange "/2"] := by
  have succeed : Along (Session.exchange .prompt) Succeeds twoResponses
      [getExchange "/1", getExchange "/2"] := by decide +kernel
  refine ⟨succeed, by decide +kernel, ?_⟩
  rintro ⟨-, second, -⟩
  have inv : SessionInv (twoResponses.exchange .prompt (getExchange "/1")) :=
    exchange_keeps twoResponses_inv succeed.1
  obtain ⟨node, header, empty⟩ := (handsOwnTexts_iff inv succeed.2.1).mp second
  have used : ((twoResponses.exchange .prompt (getExchange "/1")).httpc.headerNode.map
      HttpcMemNode.bufUsed) = some 34 := by decide +kernel
  rw [header, Option.map_some, empty] at used
  exact absurd used (by decide)

end

end Hfc
