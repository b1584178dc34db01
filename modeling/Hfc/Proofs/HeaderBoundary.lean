/-
Module: Hfc.Proofs.HeaderBoundary
Layer: Proofs
Purpose: Where building a header ends. The texts of successive `httpc_header_set` calls are put one
  behind the other while they fit with a terminator; the first text that does not is refused, unless
  it makes the count of bytes in use overflow, which then turns negative and passes for small.
Imports: Hfc.Proofs.HeaderBuilding
Main exports: headerSet_terminated, headerSet_beyond, BuildsExactly, FirstBeyond,
  header_boundary_iff
-/
import Hfc.Proofs.HeaderBuilding

namespace Hfc

open ByteText Numeral EventRun

section

variable {node : HttpcMemNode}

/-- A text that fits has a NUL behind it. -/
theorem headerSet_terminated (ready : node.Ready) {text : Bytes}
    (fits : node.bufUsed + text.length < node.bufLen) :
    (headerSetNode node (some text)).2.buf[node.bufUsed.toNat + text.length]? = some nul := by
  have nonneg := ready.nonneg
  have isInt := node.isInt
  have allocated := node.allocated
  obtain ⟨used, used_eq⟩ := Int.eq_ofNat_of_zero_le nonneg
  have space := headerSetSize_eq ready
  have printed : vsnprintf (some text) (headerSetSize node) =
      ((text.length : Int), text ++ [nul]) := by
    rw [vsnprintf, if_neg (by omega), if_neg (by omega), List.take_of_length_le (by omega)]
  have buf : (headerSetNode node (some text)).2.buf = patch node.buf used (text ++ [nul]) := by
    simp only [headerSetNode, printed]
    split <;> simp [used_eq]
  have front : (node.buf.take used ++ text).length = used + text.length := by
    rw [List.length_append, List.length_take]
    omega
  have stored := take_patch node.buf (text ++ [nul]) (show used + (text ++ [nul]).length ≤ _ by
    rw [List.length_append, List.length_singleton]
    omega)
  rw [buf, show node.bufUsed.toNat = used by omega, ← front,
    ← List.getElem?_take_of_lt (show _ < used + (text ++ [nul]).length by
      rw [front, List.length_append, List.length_singleton]
      omega), stored, ← List.append_assoc]
  exact List.getElem?_concat_length

/-- A text that does not fit is refused, unless the count of bytes in use overflows: then it is
reported as set. -/
theorem headerSet_beyond (ready : node.Ready) {text : Bytes} (isText : text.length < 2 ^ 31)
    (beyond : (node.bufLen : Int) ≤ node.bufUsed + text.length) :
    (headerSetNode node (some text)).1 = httpcErrFail ↔ node.bufUsed + text.length < 2 ^ 31 := by
  have nonneg := ready.nonneg
  have room := ready.room
  have isInt := node.isInt
  rw [(headerSet_count node isText).1]
  constructor
  · intro refused
    by_contra overflow
    have negative := toInt32_wraps (n := node.bufUsed + text.length) (not_lt.mp overflow) (by omega)
    rw [if_neg (by omega)] at refused
    have minus : (text.length : Int) = -1 := refused
    omega
  · intro small
    rw [toInt32_of_int (by omega) small, if_pos beyond]

end

/-! ### Sequences of calls

Calls that each print one text, in order. The first that does not fit ends the run, and what has
been built is the texts before it. -/

/-- The client when the given texts were set. -/
def Httpc.built (httpc : Httpc) (texts : List Bytes) : Httpc :=
  exec setStep httpc (texts.map some)

/-- The call for `text` when `front` was set returns the length of the text, and the buffer then
holds all texts so far with a NUL behind them. -/
def SetAppends (httpc : Httpc) (front : List Bytes) (text : Bytes) : Prop :=
  (httpcHeaderSet (httpc.built front) (some text)).1 = text.length ∧
    ∃ node, (httpc.built (front ++ [text])).headerNode = some node ∧
      node.bufUsed = (front ++ [text]).flatten.length ∧
      node.header = (front ++ [text]).flatten ∧ node.buf[node.bufUsed.toNat]? = some nul

/-- `httpc_send_header` passes the text to `httpc_send`, and nothing else. -/
def SendsText (net : Transport) (httpc : Httpc) (w : World) (text : Bytes) : Prop :=
  ∃ mem, httpcSendHeader net httpc w = httpcSend net httpc w (some mem) text.length ∧
    mem.take text.length = text

/-- Along the texts, every call whose text still fits appends it, the first call whose text does not
is refused, and when all fit the header is sent as it was built. -/
structure BuildsExactly (net : Transport) (httpc : Httpc) (w : World) (room : Nat)
    (texts : List Bytes) : Prop where
  appends : ∀ front text back, texts = front ++ text :: back →
    (front ++ [text]).flatten.length < room → SetAppends httpc front text
  refuses : ∀ front text back, texts = front ++ text :: back → front.flatten.length < room →
    room ≤ (front ++ [text]).flatten.length →
    (httpcHeaderSet (httpc.built front) (some text)).1 = httpcErrFail
  sends : texts.flatten.length < room → SendsText net (httpc.built texts) w texts.flatten

/-- The first of some texts that does not fit with those in front of it, if there is one, keeps the
count of bytes in use an `int`. -/
def FirstBeyond (room : Nat) (texts : List Bytes) : Prop :=
  ∀ front text back, texts = front ++ text :: back → front.flatten.length < room →
    room ≤ (front ++ [text]).flatten.length → (front ++ [text]).flatten.length < 2 ^ 31

section

variable {httpc : Httpc} {node : HttpcMemNode}

theorem flatten_snoc (front : List Bytes) (text : Bytes) :
    (front ++ [text]).flatten = front.flatten ++ text := by
  simp

/-- The client when texts that fit were set. -/
theorem built_eq (header : httpc.headerNode = some node) (empty : node.bufUsed = 0)
    {texts : List Bytes} (fits : texts.flatten.length < node.bufLen) :
    ∃ node', httpc.built texts = httpc.withNode node' ∧ node'.Ready ∧
      node'.header = texts.flatten ∧ node'.bufUsed = texts.flatten.length ∧
      node'.bufLen = node.bufLen := by
  have ready : node.Ready := ⟨empty.ge, by rw [empty]; exact Int.natCast_pos.mpr node.positive⟩
  have along := (along_setFits_iff header ready (texts.map some)).mpr ⟨texts, rfl, by omega⟩
  obtain ⟨node', run, -, text, used, bufLen⟩ := exec_sets header ready.inUse along
  have blank : node.header = [] := by
    rw [HttpcMemNode.header, empty]
    exact List.take_zero
  rw [blank, List.nil_append] at text
  rw [empty, Int.zero_add] at used
  exact ⟨node', run, ⟨by omega, by omega⟩, text, used, bufLen⟩

theorem built_snoc (httpc : Httpc) (front : List Bytes) (text : Bytes) :
    httpc.built (front ++ [text]) = setStep (httpc.built front) (some text) := by
  simp [Httpc.built, exec, List.foldl_append]

/-- The next call returns what it returns on the node. -/
theorem headerSet_withNode (node : HttpcMemNode) (formatted : Option Bytes) :
    (httpcHeaderSet (httpc.withNode node) formatted).1 = (headerSetNode node formatted).1 := rfl

/-- A text that fits with those in front of it is appended. -/
theorem setAppends_of_fits (header : httpc.headerNode = some node) (empty : node.bufUsed = 0)
    {front : List Bytes} {text : Bytes} (fits : (front ++ [text]).flatten.length < node.bufLen) :
    SetAppends httpc front text := by
  rw [flatten_snoc, List.length_append] at fits
  obtain ⟨node', run, ready, held, used, bufLen⟩ :=
    built_eq header empty (show front.flatten.length < node.bufLen by omega)
  have room : node'.bufUsed + text.length < node'.bufLen := by omega
  obtain ⟨node'', set, held', used', -⟩ := headerSet_fits ready room
  have terminated := headerSet_terminated ready room
  have returned : (headerSetNode node' (some text)).1 = text.length := by rw [set]
  have client : httpc.built (front ++ [text]) = httpc.withNode node'' := by
    rw [built_snoc, run, setStep_eq rfl, set]
    rfl
  rw [set] at terminated
  refine ⟨by rw [run, headerSet_withNode, returned], node'', ?_, ?_, ?_, ?_⟩
  · rw [client]
    rfl
  · rw [used', used, flatten_snoc, List.length_append, Nat.cast_add]
  · rw [held', held, flatten_snoc]
  · have offset : node''.bufUsed.toNat = node'.bufUsed.toNat + text.length := by omega
    rw [offset]
    exact terminated

/-- What fits is sent as it was built. -/
theorem sendsText_of_fits (net : Transport) (w : World) (header : httpc.headerNode = some node)
    (empty : node.bufUsed = 0) {texts : List Bytes}
    (fits : texts.flatten.length < node.bufLen) :
    SendsText net (httpc.built texts) w texts.flatten := by
  obtain ⟨node', run, ready, held, used, -⟩ := built_eq header empty fits
  rw [run]
  refine ⟨node'.buf, ?_, ?_⟩
  · show httpcSend net (httpc.withNode node') w (some node'.buf) node'.bufUsed = _
    rw [used]
  · rw [HttpcMemNode.header, used, Int.toNat_natCast] at held
    exact held

/-- From an empty header on, over all sequences of texts and all nodes: headers are built exactly up
to the space there is, if and only if the first text beyond it does not make the count of bytes in
use overflow. -/
theorem header_boundary_iff (net : Transport) (w : World) (header : httpc.headerNode = some node)
    (empty : node.bufUsed = 0) {texts : List Bytes} (ints : ∀ text ∈ texts, text.length < 2 ^ 31) :
    BuildsExactly net httpc w node.bufLen texts ↔ FirstBeyond node.bufLen texts := by
  have refused {front back : List Bytes} {text : Bytes} (split : texts = front ++ text :: back)
      (fits : front.flatten.length < node.bufLen)
      (beyond : node.bufLen ≤ (front ++ [text]).flatten.length) :
      (httpcHeaderSet (httpc.built front) (some text)).1 = httpcErrFail ↔
        (front ++ [text]).flatten.length < 2 ^ 31 := by
    obtain ⟨node', run, ready, -, used, bufLen⟩ := built_eq header empty fits
    have isText := ints text (by rw [split]; simp)
    rw [flatten_snoc, List.length_append] at beyond ⊢
    rw [run, headerSet_withNode, headerSet_beyond ready isText (by omega)]
    omega
  constructor
  · intro builds front text back split fits beyond
    exact (refused split fits beyond).mp (builds.refuses front text back split fits beyond)
  · intro first
    exact
      { appends := fun front text back _ fits => setAppends_of_fits header empty fits
        refuses := fun front text back split fits beyond =>
          (refused split fits beyond).mpr (first front text back split fits beyond)
        sends := sendsText_of_fits net w header empty }

end

/-- A text of 63 bytes is set in a buffer of 64, and refused the second time. -/
theorem header_boundary_iff_full :
    BuildsExactly .prompt smallClient (.opened []) 64
      [List.replicate 63 97, List.replicate 63 97] := by
  have ints : ∀ text ∈ [List.replicate 63 97, List.replicate 63 (97 : Byte)],
      text.length < 2 ^ 31 := by
    simp
  have header : smallClient.headerNode = some smallNode := rfl
  refine (header_boundary_iff .prompt (.opened []) header rfl ints).mpr ?_
  intro front text back split fits beyond
  have sub : (front ++ [text]).flatten.length ≤ (front ++ text :: back).flatten.length := by
    simp
  rw [← split] at sub
  exact sub.trans_lt (by simp)

/-- A text as long as the largest `int` behind a single byte is reported as set. -/
theorem header_boundary_overflow :
    (httpcHeaderSet (smallClient.built [[97]]) (some (List.replicate (2 ^ 31 - 1) 97))).1 =
        2 ^ 31 - 1 ∧
      ¬ BuildsExactly .prompt smallClient (.opened []) 64
        [[97], List.replicate (2 ^ 31 - 1) 97] := by
  have length : (List.replicate (2 ^ 31 - 1) (97 : Byte)).length = 2 ^ 31 - 1 :=
    List.length_replicate
  obtain ⟨node, run, ready, -, used, bufLen⟩ := built_eq
    (show smallClient.headerNode = some smallNode from rfl) rfl
    (show [[(97 : Byte)]].flatten.length < smallNode.bufLen by decide)
  have one : node.bufUsed = 1 := used
  have returned : (headerSetNode node (some (List.replicate (2 ^ 31 - 1) 97))).1 = 2 ^ 31 - 1 := by
    have sum : toInt32 (node.bufUsed + ((2 ^ 31 - 1 : Nat) : Int)) = -2 ^ 31 := by
      rw [one]
      decide
    rw [(headerSet_count node (by rw [length]; decide)).1, length, sum, if_neg (by omega)]
    rfl
  have value : (httpcHeaderSet (smallClient.built [[97]])
      (some (List.replicate (2 ^ 31 - 1) 97))).1 = 2 ^ 31 - 1 := by
    rw [run, headerSet_withNode, returned]
  refine ⟨value, fun builds => ?_⟩
  have refused := builds.refuses [[97]] (List.replicate (2 ^ 31 - 1) 97) [] rfl (by decide) (by
    rw [flatten_snoc, List.length_append, length]
    decide)
  rw [value] at refused
  exact absurd refused (by decide)

end Hfc
