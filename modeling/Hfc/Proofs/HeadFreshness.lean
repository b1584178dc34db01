/-
Module: Hfc.Proofs.HeadFreshness
Layer: Proofs
Purpose: What a response leaves of the one before it. The header buffer is cleared first and filled
  by what arrives alone, but the three results are only set once the protocol name was found, so a
  response without it leaves those of an earlier exchange in the client.
Imports: Hfc.Proofs.BodyFraming, Hfc.Proofs.HeadAccess, Hfc.Proofs.LineDelivery
Main exports: Leftover, Httpc.leftWith, SameResponse, NamesProtocol, handleResponse_leftWith,
  no_response_survives_iff
-/
import Hfc.Proofs.BodyFraming
import Hfc.Proofs.HeadAccess
import Hfc.Proofs.LineDelivery

namespace Hfc

open ByteText CrlfScan Numeral

/-! ### Clients with a past

Two clients that differ in what earlier calls have left in their nodes and results. -/

/-- What earlier exchanges may have left in a client and in its header buffer of `bufLen` bytes. -/
structure Leftover (bufLen : Nat) where
  responseCode : Int
  contentLength : Int
  chunked : Int
  bufUsed : Int
  contents : Bytes
  whole : contents.length = bufLen

/-- The node with these contents. -/
def HttpcMemNode.leftWith (node : HttpcMemNode) (left : Leftover node.bufLen) : HttpcMemNode :=
  { node with
    buf := left.contents ++ node.buf.drop node.bufLen
    bufUsed := left.bufUsed
    allocated := by simp [left.whole] }

/-- The client with this past. -/
def Httpc.leftWith (httpc : Httpc) (node : HttpcMemNode) (left : Leftover node.bufLen) : Httpc :=
  { httpc with
    headerNode := some (node.leftWith left)
    responseCode := left.responseCode
    contentLength := left.contentLength
    chunked := left.chunked }

/-- Two pasts with the same results of a response. -/
def Leftover.SameResults {bufLen : Nat} (left left' : Leftover bufLen) : Prop :=
  left.responseCode = left'.responseCode ∧ left.contentLength = left'.contentLength ∧
    left.chunked = left'.chunked

instance {bufLen : Nat} (left left' : Leftover bufLen) : Decidable (left.SameResults left') :=
  inferInstanceAs (Decidable (_ ∧ _))

/-- The callers of two clients are told the same and find the same in their header buffers. -/
structure SameResponse (bufLen : Nat) (handled handled' : Handled) : Prop where
  outcome : SameOutcome handled handled'
  buffer : ∃ held held', handled.httpc.headerNode = some held ∧
    handled'.httpc.headerNode = some held' ∧ held.bufUsed = held'.bufUsed ∧
    held.buf.take bufLen = held'.buf.take bufLen

/-- Some protocol name stands in the first line that arrives, as far as it fits and in front of a
NUL. -/
def NamesProtocol (net : Transport) (httpc : Httpc) (w : World) (room : Nat) : Prop :=
  ∃ s, Delivers net httpc w s ∧ ascii "HTTP/1." <:+: cstr (scan room nul s).1.dropLast

section

variable {net : Transport} {httpc httpc' : Httpc} {node : HttpcMemNode} {w : World}

/-! ### What is read

Reading and storing do not look at that past, and what is looked up afterwards is the head that was
read. -/

/-- Clients that receive alike read the same lines. -/
theorem readOneLine_congr (same : httpcRecv net httpc = httpcRecv net httpc') (w : World)
    (size : Int) : httpcReadOneLine net httpc w size = httpcReadOneLine net httpc' w size := by
  have loop (room : Nat) (last : Byte) (stored : Bytes) (w : World) :
      readOneLineLoop net httpc room last stored w =
        readOneLineLoop net httpc' room last stored w := by
    induction room generalizing last stored w with
    | zero => rfl
    | succ room ih => simp only [readOneLineLoop, same, ih]
  exact loop _ _ _ w

/-- Nor do their heads differ. -/
theorem arrivedHead_congr (same : httpcRecv net httpc = httpcRecv net httpc') (rounds room : Nat)
    (w : World) : arrivedHead net httpc rounds room w = arrivedHead net httpc' rounds room w := by
  induction rounds generalizing room w with
  | zero => rfl
  | succ rounds ih => simp only [arrivedHead, readOneLine_congr same, ih]

/-- A past plays no part in what a client receives. -/
theorem httpcRecv_leftWith (net : Transport) (httpc : Httpc) (left : Leftover node.bufLen) :
    httpcRecv net (httpc.leftWith node left) = httpcRecv net httpc := rfl

/-- The buffer holds nothing of its past. -/
theorem holding_leftWith (left : Leftover node.bufLen) {held : Bytes}
    (fits : held.length ≤ node.bufLen) :
    (node.leftWith left).holding held = node.holding held := by
  have buf := holding_buf (node.leftWith left) fits
  have behind : (node.leftWith left).buf.drop (node.leftWith left).bufLen =
      node.buf.drop node.bufLen := List.drop_left' left.whole
  rw [behind] at buf
  ext1
  · rw [buf, holding_buf node fits]
    rfl
  · rfl
  · rfl

/-- What `httpc_handle_response` does on a client with a past: what arrives is parsed. -/
theorem handleResponse_leftWith (net : Transport) (httpc : Httpc) (w : World)
    (left : Leftover node.bufLen) :
    let arrived := arrivedHead net httpc node.bufLen node.bufLen w
    let held := node.holding arrived.1
    let parsed := parseHead { httpc.leftWith node left with headerNode := some held } held
    httpcHandleResponse net (httpc.leftWith node left) w =
      { ret := parsed.1, httpc := parsed.2, world := arrived.2 } := by
  have fits := length_arrivedHead_le net httpc node.bufLen node.positive w
  have header : (httpc.leftWith node left).headerNode = some (node.leftWith left) := rfl
  have loop := headLoop_reset net (httpc.leftWith node left) (node.leftWith left) w
  rw [arrivedHead_congr (httpcRecv_leftWith net httpc left)] at loop
  have held := holding_leftWith left fits
  simp only [httpcHandleResponse, header, loop]
  exact congrArg (fun held : HttpcMemNode =>
    let parsed := parseHead { httpc.leftWith node left with headerNode := some held } held
    ({ ret := parsed.1
       httpc := parsed.2
       world := (arrivedHead net httpc node.bufLen node.bufLen w).2 } : Handled)) held

/-- The string in the buffer is the first line that arrived. -/
theorem cstr_holding (net : Transport) (httpc : Httpc) (node : HttpcMemNode) (w : World) :
    cstr (node.holding (arrivedHead net httpc node.bufLen node.bufLen w).1).buf =
      cstr (httpcReadOneLine net httpc w node.bufLen).stored.dropLast := by
  have fits := length_arrivedHead_le net httpc node.bufLen node.positive w
  obtain ⟨n, size⟩ : ∃ n, node.bufLen = n + 1 := ⟨node.bufLen - 1, by
    have positive := node.positive
    omega⟩
  rw [holding_buf node fits]
  generalize node.buf.drop node.bufLen = behind
  rw [size] at fits ⊢
  generalize line_eq : httpcReadOneLine net httpc w (n + 1 : Nat) = line
  by_cases blank : line.stored = [] ∨ line.stored = [cr]
  · have nothing : (arrivedHead net httpc (n + 1) (n + 1) w).1 = [] := by
      simp only [arrivedHead, line_eq, if_pos blank]
    have empty : line.stored.dropLast = [] := by
      rcases blank with nothing | one
      · rw [nothing, List.dropLast_nil]
      · rw [one]
        rfl
    rw [nothing, empty, List.nil_append, List.length_nil, Nat.sub_zero, List.replicate_succ]
    exact cstr_append_nul [] _
  · obtain ⟨later, held⟩ : ∃ later, (arrivedHead net httpc (n + 1) (n + 1) w).1 =
        line.stored.dropLast ++ nul :: later := by
      simp only [arrivedHead, line_eq, if_neg blank]
      split
      · exact ⟨[], rfl⟩
      · exact ⟨_, rfl⟩
    rw [held, List.append_assoc, List.cons_append, cstr_append_nul]

/-- Where the protocol name is found. -/
theorem namesProtocol_iff :
    NamesProtocol net httpc w node.bufLen ↔
      (strstr (ascii "HTTP/1.")
        (cstr (node.holding (arrivedHead net httpc node.bufLen node.bufLen w).1).buf)).isSome := by
  have found {s : Bytes} (delivers : Delivers net httpc w s) :
      (httpcReadOneLine net httpc w node.bufLen).stored = (scan node.bufLen nul s).1 := by
    have room : (max (node.bufLen : Int) 1).toNat = node.bufLen := by
      have positive := node.positive
      omega
    rw [httpcReadOneLine, room]
    simpa using (readOneLineLoop_delivered delivers node.bufLen nul []).1
  rw [cstr_holding, Option.isSome_iff_ne_none, Ne, strstr_eq_none, not_not]
  constructor
  · rintro ⟨s, delivers, named⟩
    rwa [found delivers]
  · intro named
    obtain ⟨s, delivers, -⟩ := exists_delivers net httpc w
    exact ⟨s, delivers, found delivers ▸ named⟩

/-! ### Two clients

So both report the same, once the head has a protocol. Where it has none the call returns before it
writes the results, and the old ones stand. -/

/-- Two clients that differ in their past alone are told the same of a response, and have the same
in their header buffers, if and only if the first line that arrives names the protocol, or their
results did not differ before. -/
theorem no_response_survives_iff (net : Transport) (httpc : Httpc) (node : HttpcMemNode) (w : World)
    (left left' : Leftover node.bufLen) :
    SameResponse node.bufLen (httpcHandleResponse net (httpc.leftWith node left) w)
        (httpcHandleResponse net (httpc.leftWith node left') w) ↔
      NamesProtocol net httpc w node.bufLen ∨ left.SameResults left' := by
  have handled := handleResponse_leftWith net httpc w left
  have handled' := handleResponse_leftWith net httpc w left'
  dsimp only at handled handled'
  rw [namesProtocol_iff, handled, handled']
  generalize node.holding (arrivedHead net httpc node.bufLen node.bufLen w).1 = held
  have header (past : Leftover node.bufLen) :
      { httpc.leftWith node past with headerNode := some held }.headerNode = some held := rfl
  cases protocol : strstr (ascii "HTTP/1.") (cstr held.buf) with
  | none =>
      have unparsed (client : Httpc) : parseHead client held = (-1, client) := by
        simp only [parseHead, protocol]
      rw [unparsed, unparsed, Option.isSome_none, Bool.false_eq_true, false_or]
      constructor
      · rintro ⟨⟨-, code, length, chunked⟩, -⟩
        exact ⟨code, length, chunked⟩
      · rintro ⟨code, length, chunked⟩
        exact ⟨⟨rfl, code, length, chunked⟩, held, held, rfl, rfl, rfl, rfl⟩
  | some ptr =>
      rw [parseHead_of_protocol (header left) protocol rfl rfl,
        parseHead_of_protocol (header left') protocol rfl rfl]
      exact iff_of_true ⟨⟨rfl, rfl, rfl, rfl⟩, held, held, rfl, rfl, rfl, rfl⟩ (.inl rfl)

end

/-- The past of a client that has received a response with a code and a length, in a buffer of 64
bytes. -/
def answered (code length : Int) : Leftover smallNode.bufLen where
  responseCode := code
  contentLength := length
  chunked := 0
  bufUsed := 0
  contents := List.replicate 64 nul
  whole := by simp [smallNode, HttpcMemNode.blank]

/-- When the server closes the connection instead of answering, one client still reports success
with five bytes to come, and another one that its resource was not found. -/
theorem response_survives :
    (httpcHandleResponse .prompt (smallClient.leftWith smallNode (answered 200 5))
        (.opened [])).httpc.responseCode = 200 ∧
      (httpcHandleResponse .prompt (smallClient.leftWith smallNode (answered 404 0))
        (.opened [])).httpc.responseCode = 404 ∧
      ¬ SameResponse smallNode.bufLen
        (httpcHandleResponse .prompt (smallClient.leftWith smallNode (answered 200 5)) (.opened []))
        (httpcHandleResponse .prompt (smallClient.leftWith smallNode (answered 404 0))
          (.opened [])) := by
  have code : (httpcHandleResponse .prompt (smallClient.leftWith smallNode (answered 200 5))
      (.opened [])).httpc.responseCode = 200 := by decide +kernel
  have code' : (httpcHandleResponse .prompt (smallClient.leftWith smallNode (answered 404 0))
      (.opened [])).httpc.responseCode = 404 := by decide +kernel
  refine ⟨code, code', ?_⟩
  intro same
  have equal := same.outcome.responseCode
  rw [code, code'] at equal
  exact absurd equal (by decide)

end Hfc
