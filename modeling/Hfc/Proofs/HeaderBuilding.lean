/-
Module: Hfc.Proofs.HeaderBuilding
Layer: Proofs
Purpose: Runs of `httpc_header_set` calls. A text that fits is appended to the request header; a
  text that does not fit, or that cannot be formatted, moves the count of bytes in use all the same,
  and the next call and the next request go by that count.
Imports: Hfc.Core.Session, Hfc.Proofs.RequestSending
Main exports: HttpcMemNode.Ready, headerSet_fits, SetSafe, SetFits, exec_sets,
  header_buffer_never_overrun_iff
-/
import Hfc.Core.Session
import Hfc.Proofs.RequestSending

namespace Hfc

open ByteText Numeral EventRun

/-! ### One call

`httpc_header_set` on a node with room and on one without. In the second case the number of bytes in
use is moved all the same. -/

/-- The node has room for at least the terminator of one more text. -/
structure HttpcMemNode.Ready (node : HttpcMemNode) : Prop where
  nonneg : 0 ≤ node.bufUsed
  room : node.bufUsed < node.bufLen

theorem HttpcMemNode.Ready.inUse {node : HttpcMemNode} (ready : node.Ready) : node.InUse :=
  ⟨ready.nonneg, ready.room.le⟩

section

variable {node : HttpcMemNode}

/-- The size given to `vsnprintf` is the space that is left. -/
theorem headerSetSize_eq (ready : node.Ready) :
    (headerSetSize node : Int) = node.bufLen - node.bufUsed := by
  have nonneg := ready.nonneg
  have room := ready.room
  have isInt := node.isInt
  obtain ⟨space, left⟩ : ∃ space : Nat, (node.bufLen : Int) - node.bufUsed = space :=
    ⟨(node.bufLen - node.bufUsed).toNat, by omega⟩
  rw [headerSetSize, left, toInt32_of_small (by omega), toSizeT_natCast (by omega)]

/-- How a formatted text is counted, whether it fits or not. -/
theorem headerSet_count (node : HttpcMemNode) {text : Bytes} (isText : text.length < 2 ^ 31) :
    (headerSetNode node (some text)).1 =
        (if toInt32 (node.bufUsed + text.length) ≥ node.bufLen then httpcErrFail
          else (text.length : Int)) ∧
      (headerSetNode node (some text)).2.bufUsed = toInt32 (node.bufUsed + text.length) ∧
      (headerSetNode node (some text)).2.bufLen = node.bufLen := by
  have len : (vsnprintf (some text) (headerSetSize node)).1 = text.length := by
    rw [vsnprintf, if_neg (by omega)]
  simp only [headerSetNode, len, HttpcMemNode.setUsed_bufUsed, HttpcMemNode.setUsed_bufLen,
    HttpcMemNode.store_bufLen]
  split <;> exact ⟨rfl, rfl, rfl⟩

/-- A text that fits is appended to the header. -/
theorem headerSet_fits (ready : node.Ready) {text : Bytes}
    (fits : node.bufUsed + text.length < node.bufLen) :
    ∃ node', headerSetNode node (some text) = ((text.length : Int), node') ∧
      node'.header = node.header ++ text ∧ node'.bufUsed = node.bufUsed + text.length ∧
      node'.bufLen = node.bufLen := by
  have nonneg := ready.nonneg
  have isInt := node.isInt
  have allocated := node.allocated
  obtain ⟨used, used_eq⟩ := Int.eq_ofNat_of_zero_le nonneg
  have space : headerSetSize node = node.bufLen - used := by
    have size := headerSetSize_eq ready
    omega
  have printed : vsnprintf (some text) (headerSetSize node) =
      ((text.length : Int), text ++ [nul]) := by
    rw [vsnprintf, if_neg (by omega), if_neg (by omega), List.take_of_length_le (by omega)]
  have count : toInt32 (node.bufUsed + text.length) = (used + text.length : Nat) := by
    rw [used_eq, toInt32_of_int] <;> omega
  have stored : ((patch node.buf used (text ++ [nul])).take (used + text.length)) =
      node.buf.take used ++ text := by
    have room : used + (text ++ [nul]).length ≤ node.buf.length := by
      rw [List.length_append, List.length_singleton]
      omega
    have whole := take_patch node.buf (text ++ [nul]) room
    have cut := congrArg (List.take (used + text.length)) whole
    rw [List.take_take, Nat.min_eq_left (by simp), ← List.append_assoc] at cut
    rw [cut, List.take_append_of_le_length (by simp; omega), List.take_of_length_le (by simp)]
  refine ⟨(node.store node.bufUsed (text ++ [nul])).setUsed (toInt32 (node.bufUsed + text.length)),
    ?_, ?_, ?_, rfl⟩
  · simp only [headerSetNode, printed]
    rw [if_neg]
    rw [HttpcMemNode.setUsed_bufUsed, HttpcMemNode.setUsed_bufLen, HttpcMemNode.store_bufLen, count]
    omega
  · simp only [HttpcMemNode.header, HttpcMemNode.setUsed_buf, HttpcMemNode.setUsed_bufUsed,
      HttpcMemNode.store_buf, count]
    rw [used_eq, patchAt_natCast]
    exact stored
  · rw [HttpcMemNode.setUsed_bufUsed, count, used_eq]
    exact Nat.cast_add used text.length

/-- A text that does not fit, or that cannot be formatted, moves the count of bytes in use: by one
to the front with an error reported, or out of the buffer. -/
theorem headerSet_unfit (ready : node.Ready) {formatted : Option Bytes}
    (unfit : ¬ ∃ text, formatted = some text ∧ node.bufUsed + text.length < node.bufLen) :
    ((headerSetNode node formatted).1 < 0 ∧
        (headerSetNode node formatted).2.bufUsed ≠ node.bufUsed) ∨
      ¬ (0 ≤ (headerSetNode node formatted).2.bufUsed ∧
        (headerSetNode node formatted).2.bufUsed < (headerSetNode node formatted).2.bufLen) := by
  have nonneg := ready.nonneg
  have room := ready.room
  have isInt := node.isInt
  by_cases failed : vsnprintf formatted (headerSetSize node) = (-1, [])
  · left
    have count : toInt32 (node.bufUsed + -1) = node.bufUsed - 1 := by
      rw [toInt32_of_int] <;> omega
    simp only [headerSetNode, failed, HttpcMemNode.setUsed_bufUsed, HttpcMemNode.setUsed_bufLen,
      HttpcMemNode.store_bufLen, count]
    rw [if_neg (by omega)]
    exact ⟨show (-1 : Int) < 0 by decide, by simp⟩
  · right
    cases formatted with
    | none => exact absurd rfl failed
    | some text =>
        have isText : text.length < 2 ^ 31 := by
          by_contra long
          exact failed (by rw [vsnprintf, if_pos (not_lt.mp long)])
        have long : (node.bufLen : Int) ≤ node.bufUsed + text.length := by
          by_contra short
          exact unfit ⟨text, rfl, not_le.mp short⟩
        obtain ⟨-, used, bufLen⟩ := headerSet_count node isText
        rw [used, bufLen]
        by_cases isInt' : node.bufUsed + text.length < 2 ^ 31
        · rw [toInt32_of_int (by omega) isInt']
          omega
        · have negative := toInt32_wraps (n := node.bufUsed + text.length) (by omega) (by omega)
          omega

/-- A call is safe: it gives `vsnprintf` the space that is left, it leaves the count of bytes in use
inside the buffer, and when it reports an error it leaves that count as it was. -/
def StepSafe (node : HttpcMemNode) (formatted : Option Bytes) : Prop :=
  (headerSetSize node : Int) = node.bufLen - node.bufUsed ∧
    0 ≤ (headerSetNode node formatted).2.bufUsed ∧
    (headerSetNode node formatted).2.bufUsed < (headerSetNode node formatted).2.bufLen ∧
    ((headerSetNode node formatted).1 < 0 →
      (headerSetNode node formatted).2.bufUsed = node.bufUsed)

/-- A call is safe when the text was formatted and fits. -/
theorem stepSafe_iff (ready : node.Ready) (formatted : Option Bytes) :
    StepSafe node formatted ↔
      ∃ text, formatted = some text ∧ node.bufUsed + text.length < node.bufLen := by
  constructor
  · rintro ⟨-, nonneg, inside, kept⟩
    by_contra unfit
    rcases headerSet_unfit ready unfit with ⟨failed, moved⟩ | outside
    · exact moved (kept failed)
    · exact outside ⟨nonneg, inside⟩
  · rintro ⟨text, rfl, fits⟩
    obtain ⟨node', set, -, used, bufLen⟩ := headerSet_fits ready fits
    have nonneg := ready.nonneg
    refine ⟨headerSetSize_eq ready, ?_, ?_, ?_⟩
    · rw [set, used]
      omega
    · rw [set, used, bufLen]
      exact fits
    · rw [set]
      omega

end

/-! ### Runs of calls

A run stays inside the buffer as long as every call has fitted, one step lemma and the induction
over the calls. -/

/-- The call is safe on the client's node. -/
def SetSafe (httpc : Httpc) (formatted : Option Bytes) : Prop :=
  ∃ node, httpc.headerNode = some node ∧ StepSafe node formatted

/-- The text was formatted and fits the client's node. -/
def SetFits (httpc : Httpc) (formatted : Option Bytes) : Prop :=
  ∃ node text, httpc.headerNode = some node ∧ formatted = some text ∧
    node.bufUsed + text.length < node.bufLen

section

variable {httpc : Httpc} {node : HttpcMemNode}

/-- A call changes the node and nothing else. -/
theorem setStep_eq (header : httpc.headerNode = some node) (formatted : Option Bytes) :
    setStep httpc formatted = httpc.withNode (headerSetNode node formatted).2 := by
  simp [setStep, httpcHeaderSet, header, Httpc.withNode]

/-- Texts that fit are appended one behind the other. -/
theorem exec_sets (header : httpc.headerNode = some node) (inUse : node.InUse) {texts : List Bytes}
    (fit : Along setStep SetFits httpc (texts.map some)) :
    ∃ node', exec setStep httpc (texts.map some) = httpc.withNode node' ∧ node'.InUse ∧
      node'.header = node.header ++ texts.flatten ∧
      node'.bufUsed = node.bufUsed + texts.flatten.length ∧ node'.bufLen = node.bufLen := by
  induction texts generalizing httpc node with
  | nil =>
      have same : httpc.withNode node = httpc := by
        rw [Httpc.withNode, ← header]
      exact ⟨node, same.symm, inUse, by simp, by simp, rfl⟩
  | cons text texts ih =>
      obtain ⟨⟨node₀, text', header₀, isText, fits⟩, rest⟩ := fit
      obtain rfl : node₀ = node := Option.some.inj (header₀.symm.trans header)
      obtain rfl := Option.some.inj isText
      have nonneg := inUse.nonneg
      obtain ⟨node', set, header', used, bufLen⟩ := headerSet_fits ⟨nonneg, by omega⟩ fits
      rw [setStep_eq header, set] at rest
      obtain ⟨node'', run, inUse'', header'', used'', bufLen''⟩ :=
        ih (show (httpc.withNode node').headerNode = _ from rfl) ⟨by omega, by omega⟩ rest
      refine ⟨node'', ?_, inUse'', ?_, ?_, bufLen''.trans bufLen⟩
      · rw [List.map_cons, exec_cons, setStep_eq header, set]
        exact run
      · rw [header'', header', List.flatten_cons, List.append_assoc]
      · rw [used'', used, List.flatten_cons, List.length_append]
        omega

/-- Every text of a run fits when all of them fit together. -/
theorem along_setFits_iff (header : httpc.headerNode = some node) (ready : node.Ready)
    (formatted : List (Option Bytes)) :
    Along setStep SetFits httpc formatted ↔
      ∃ texts : List Bytes, formatted = texts.map some ∧
        node.bufUsed + texts.flatten.length < node.bufLen := by
  induction formatted generalizing httpc node with
  | nil =>
      refine ⟨fun _ => ⟨[], rfl, by simpa using ready.room⟩, fun _ => trivial⟩
  | cons first formatted ih =>
      constructor
      · rintro ⟨⟨node', text, header', rfl, fits⟩, rest⟩
        obtain rfl : node' = node := Option.some.inj (header'.symm.trans header)
        obtain ⟨node'', set, -, used, bufLen⟩ := headerSet_fits ready fits
        have nonneg := ready.nonneg
        rw [setStep_eq header, set] at rest
        obtain ⟨texts, rfl, room⟩ :=
          (ih (show (httpc.withNode node'').headerNode = _ from rfl)
            ⟨by omega, by omega⟩).mp rest
        refine ⟨text :: texts, rfl, ?_⟩
        rw [List.flatten_cons, List.length_append]
        omega
      · rintro ⟨texts, all, room⟩
        cases texts with
        | nil => simp at all
        | cons text texts =>
            obtain ⟨rfl, rfl⟩ := List.cons.inj all
            rw [List.flatten_cons, List.length_append] at room
            have fits : node.bufUsed + text.length < node.bufLen := by omega
            obtain ⟨node', set, -, used, bufLen⟩ := headerSet_fits ready fits
            have nonneg := ready.nonneg
            refine ⟨⟨node, text, header, rfl, fits⟩, ?_⟩
            rw [setStep_eq header, set]
            exact (ih (show (httpc.withNode node').headerNode = _ from rfl)
              ⟨by omega, by omega⟩).mpr ⟨texts, rfl, by omega⟩

/-- Along a run the calls are safe when they fit. -/
theorem along_setSafe_iff (header : httpc.headerNode = some node) (ready : node.Ready)
    (formatted : List (Option Bytes)) :
    Along setStep SetSafe httpc formatted ↔ Along setStep SetFits httpc formatted := by
  apply Along.congr fun client => ∃ node, client.headerNode = some node ∧ node.Ready
  · rintro client text ⟨node', header', ready'⟩
    constructor
    · rintro ⟨node'', header'', safe⟩
      obtain rfl : node'' = node' := Option.some.inj (header''.symm.trans header')
      obtain ⟨text, rfl, fits⟩ := (stepSafe_iff ready' _).mp safe
      exact ⟨node'', text, header', rfl, fits⟩
    · rintro ⟨node'', text, header'', rfl, fits⟩
      obtain rfl : node'' = node' := Option.some.inj (header''.symm.trans header')
      exact ⟨node'', header', (stepSafe_iff ready' _).mpr ⟨text, rfl, fits⟩⟩
  · rintro client formatted ⟨node', header', ready'⟩ ⟨node'', text, header'', rfl, fits⟩
    obtain rfl : node'' = node' := Option.some.inj (header''.symm.trans header')
    obtain ⟨node₁, set, -, used, bufLen⟩ := headerSet_fits ready' fits
    have nonneg := ready'.nonneg
    exact ⟨node₁, by rw [setStep_eq header', set]; rfl, ⟨by omega, by omega⟩⟩
  · exact ⟨node, header, ready⟩

/-! ### The request behind a run

What `httpc_send_request` hands over afterwards is the bytes that the node counts as in use, inside
the buffer or not. -/

/-- The first send call of a request offers the bytes in use, they lie inside the buffer, and they
are the given text. -/
def HandsOver (net : Transport) (httpc : Httpc) (w : World) (sendBuf : Option Bytes)
    (text : Bytes) : Prop :=
  ∃ node call later, httpc.headerNode = some node ∧
    (httpcSendRequest net httpc w sendBuf).world.sends = w.sends ++ call :: later ∧
    (call.offered.length : Int) = node.bufUsed ∧ call.offered.length ≤ node.bufLen ∧
    call.offered = text

/-- The first send call of a request is for the header. -/
theorem sendRequest_first {net : Transport} {w : World} (live : httpc.Live)
    (header : httpc.headerNode = some node) (inUse : node.InUse) {sendBuf : Option Bytes}
    (small : ∀ body ∈ sendBuf, body.length < 2 ^ 31) :
    ∃ call later, (httpcSendRequest net httpc w sendBuf).world.sends = w.sends ++ call :: later ∧
      call.offered = node.header := by
  rcases sendRequest_cases (w := w) live header inUse small with
    ⟨-, result⟩ | ⟨-, -, result⟩ | ⟨body, -, -, ⟨-, result⟩ | ⟨-, result⟩⟩
  · rw [result]
    exact ⟨_, [], net.transmit_sends w node.header, rfl⟩
  · rw [result, handleResponse_sends live header]
    exact ⟨_, [], net.transmit_sends w node.header, rfl⟩
  · rw [result]
    refine ⟨{ offered := node.header, ret := (net.transmit w node.header).1 },
      [{ offered := body, ret := (net.transmit (net.transmit w node.header).2 body).1 }], ?_, rfl⟩
    simp
  · rw [result, handleResponse_sends live header]
    refine ⟨{ offered := node.header, ret := (net.transmit w node.header).1 },
      [{ offered := body, ret := (net.transmit (net.transmit w node.header).2 body).1 }], ?_, rfl⟩
    simp

/-- The header buffer is never overrun along a run of calls and the request behind it, if and only
if every text was formatted and they all fit together. -/
theorem header_buffer_never_overrun_iff {net : Transport} {w : World} (live : httpc.Live)
    (header : httpc.headerNode = some node) (empty : node.bufUsed = 0)
    (formatted : List (Option Bytes)) {sendBuf : Option Bytes}
    (small : ∀ body ∈ sendBuf, body.length < 2 ^ 31) :
    (Along setStep SetSafe httpc formatted ∧
      HandsOver net (exec setStep httpc formatted) w sendBuf
        (formatted.flatMap fun text => text.getD [])) ↔
    ∃ texts : List Bytes, formatted = texts.map some ∧ texts.flatten.length < node.bufLen := by
  have ready : node.Ready := ⟨empty.ge, by rw [empty]; exact Int.natCast_pos.mpr node.positive⟩
  have fits := along_setFits_iff header ready formatted
  simp only [empty, Int.zero_add, Int.ofNat_lt] at fits
  rw [along_setSafe_iff header ready, fits]
  refine ⟨And.left, fun all => ⟨all, ?_⟩⟩
  obtain ⟨texts, rfl, room⟩ := all
  obtain ⟨node', run, inUse', header', used, bufLen⟩ :=
    exec_sets header ready.inUse (fits.mpr ⟨texts, rfl, room⟩)
  obtain ⟨call, later, sends, offered⟩ :=
    sendRequest_first (w := w) (live.withNode node') rfl inUse' small
  have length := inUse'.length_header
  have nonneg := inUse'.nonneg
  rw [← offered] at length
  have blank : node.header = [] := by
    rw [HttpcMemNode.header, empty]
    exact List.take_zero
  have all : (texts.map some).flatMap (fun text => text.getD []) = texts.flatten := by
    rw [List.flatMap_map]
    exact List.flatMap_id'
  rw [run, all]
  refine ⟨node', call, later, rfl, sends, by omega, by omega, ?_⟩
  rw [offered, header', blank, List.nil_append]

/-- Two texts that fit 64 bytes together. -/
theorem header_buffer_never_overrun_iff_two :
    Along setStep SetSafe smallClient [some (ascii "GET / HTTP/1.1\r\n"), some (ascii "\r\n")] ∧
      HandsOver .prompt
        (exec setStep smallClient [some (ascii "GET / HTTP/1.1\r\n"), some (ascii "\r\n")])
        (.opened []) none (ascii "GET / HTTP/1.1\r\n\r\n") :=
  (header_buffer_never_overrun_iff (w := .opened []) smallClient_live rfl rfl
    [some (ascii "GET / HTTP/1.1\r\n"), some (ascii "\r\n")]
    (show ∀ body ∈ (none : Option Bytes), body.length < 2 ^ 31 from
      fun _ member => nomatch member)).mpr
    ⟨[ascii "GET / HTTP/1.1\r\n", ascii "\r\n"], rfl, by decide⟩

/-- A node whose buffer of eight bytes has something else behind it. -/
def tightNode : HttpcMemNode where
  buf := List.replicate 8 nul ++ ascii "secret"
  bufLen := 8
  bufUsed := 0
  positive := by decide
  isInt := by decide
  allocated := by decide

/-- A text of ten bytes does not fit eight. The call reports that, but counts the bytes; the next
call would give `vsnprintf` almost the whole address space, and the request sends what lies behind
the buffer. -/
theorem header_buffer_overrun :
    ¬ Along setStep SetSafe ((Httpc.plain 3).withNode tightNode) [some (ascii "GET /index")] ∧
      headerSetSize (headerSetNode tightNode (some (ascii "GET /index"))).2 = 2 ^ 64 - 2 ∧
      (httpcSendRequest .prompt
        (exec setStep ((Httpc.plain 3).withNode tightNode) [some (ascii "GET /index")])
        (.opened []) none).world.sends.map SendCall.offered =
          [ascii "GET /in" ++ [nul] ++ ascii "se"] := by
  refine ⟨?_, by decide, by decide +kernel⟩
  rintro ⟨⟨node, header, -, -, inside, -⟩, -⟩
  cases header
  revert inside
  decide

end

end Hfc
