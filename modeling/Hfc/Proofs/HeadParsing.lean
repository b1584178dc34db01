/-
Module: Hfc.Proofs.HeadParsing
Layer: Proofs
Purpose: What `httpc_handle_response` leaves of a head that is well formed and fits: every line with
  its terminator, nothing but NULs behind them, the code of the status line, and the body as the
  next bytes of the stream. What the node held before does not matter, nor do lone CRs and LFs and
  NULs in the lines.
Imports: Hfc.Proofs.BodyFraming
Main exports: ProtocolLine, HeadParsed, head_parsed_whole
-/
import Hfc.Proofs.BodyFraming

namespace Hfc

open ByteText CrlfScan Numeral

/-- The first line of a head, with a code of three digits. -/
structure ProtocolLine where
  minor : Byte
  spaces : Nat
  code : Bytes
  rest : Bytes
  minorDigit : (digitVal 10 minor).isSome
  spaced : 0 < spaces
  three : code.length = 3
  digits : ∀ b ∈ code, (digitVal 10 b).isSome
  restStart : ∀ b ∈ rest.head?, b = sp

def ProtocolLine.text (line : ProtocolLine) : Bytes :=
  ascii "HTTP/1." ++ line.minor :: (List.replicate line.spaces sp ++ (line.code ++ line.rest))

/-- The number the line gives. -/
def ProtocolLine.number (line : ProtocolLine) : Nat :=
  value 10 (Numeral.digits 10 line.code)

/-- The bytes a block takes in memory, each of its lines with a terminator. -/
theorem HeaderBlock.length_stored (block : HeaderBlock) :
    block.stored.length = (block.lines.map fun line => line.length + 1).sum := by
  simp [HeaderBlock.stored, List.length_flatMap]

/-- A head was received whole: its lines are in the buffer, each with a NUL behind it, and nothing
but NULs follow; they are counted, the code is the one of the first line, and what is left of the
stream is what stands behind the head. -/
structure HeadParsed (node : HttpcMemNode) (block : HeaderBlock) (first : ProtocolLine) (w : World)
    (handled : Handled) : Prop where
  memory : ∃ held, handled.httpc.headerNode = some held ∧ held.bufLen = node.bufLen ∧
    held.buf.take node.bufLen =
      block.lines.flatMap (fun line => line ++ [nul]) ++
        List.replicate (node.bufLen - (block.lines.map fun line => line.length + 1).sum) nul ∧
    held.bufUsed = ((block.lines.map fun line => line.length + 1).sum : Nat)
  code : handled.httpc.responseCode = first.number
  behind : w.unread = block.bytes ++ handled.world.unread

section

variable {net : Transport} {httpc : Httpc} {node : HttpcMemNode} {w : World} {block : HeaderBlock}
  {first : ProtocolLine}

/-- Three digits are less than a thousand. -/
theorem ProtocolLine.number_lt (line : ProtocolLine) : line.number < 1000 := by
  have below : line.number < 10 ^ (Numeral.digits 10 line.code).length :=
    value_lt_pow fun _ member => lt_of_mem_digits member
  have few := length_digits_le 10 line.code
  rw [line.three] at few
  exact below.trans_le (Nat.pow_le_pow_right (by decide) few)

/-- The code of a head that is held whole. -/
theorem headResponseCode_first (starts : block.lines.head? = some first.text)
    (fits : block.stored.length ≤ node.bufLen) :
    ascii "HTTP/1." <+: (node.holding block.stored).buf ∧
      headResponseCode (node.holding block.stored) 0 = first.number := by
  obtain ⟨lines, whole⟩ : ∃ lines, block.lines = first.text :: lines := by
    cases lines : block.lines with
    | nil => rw [lines] at starts; cases starts
    | cons line later =>
        rw [lines, List.head?_cons] at starts
        exact ⟨later, by rw [Option.some.inj starts]⟩
  have nonempty : first.code ≠ [] := by
    intro empty
    have three := first.three
    rw [empty] at three
    cases three
  have split : ∃ behind, (node.holding block.stored).buf =
      ascii "HTTP/1." ++ first.minor :: (List.replicate first.spaces sp ++ (first.code ++
        (first.rest ++ nul :: behind))) := by
    obtain ⟨tail, memory⟩ : ∃ tail, (node.holding block.stored).buf = block.stored ++ tail :=
      ⟨_, holding_buf node fits⟩
    refine ⟨lines.flatMap (fun line => line ++ [nul]) ++ tail, ?_⟩
    rw [memory, HeaderBlock.stored, whole, List.flatMap_cons, ProtocolLine.text]
    simp only [List.append_assoc, List.cons_append, List.nil_append]
  obtain ⟨behind, memory⟩ := split
  refine ⟨memory ▸ List.prefix_append _ _, ?_⟩
  have ends : EndsNumeral (cstr (first.rest ++ nul :: behind)) := by
    rw [cstr_append_nul]
    intro b member
    cases rest : first.rest with
    | nil =>
        rw [rest] at member
        cases member
    | cons c later =>
        have space : c = sp := first.restStart c (by rw [rest]; rfl)
        rw [rest, space] at member
        obtain rfl : sp = b := Option.some.inj member
        decide
  have small := first.number_lt
  rw [headResponseCode_memory memory (fun _ => List.eq_of_mem_replicate) first.digits nonempty ends]
  show toInt32 (min first.number ulongMax : Nat) = first.number
  rw [Nat.min_eq_left (by unfold ulongMax; omega), toInt32_of_small (by omega)]

/-- Whatever the node held before: a head that fits, with a protocol name and a code in its first
line, is received whole. -/
theorem head_parsed_whole (arrives : BlockArrives net httpc node w block)
    (starts : block.lines.head? = some first.text)
    (fits : (block.lines.map fun line => line.length + 1).sum + 2 ≤ node.bufLen) :
    HeadParsed node block first w (httpcHandleResponse net httpc w) := by
  have length := block.length_stored
  have isFit : block.Fits node.bufLen := by
    unfold HeaderBlock.Fits
    omega
  obtain ⟨rest, stream⟩ := arrives.stream
  have scanned := block.headScan_eq isFit rest
  rw [stream] at scanned
  have before : w.stop ≤ w.taken + block.bytes.length + rest.length := by
    rw [World.stop, ← stream, List.length_append]
    omega
  obtain ⟨w', handled, unread, -⟩ :=
    handleResponse_eq arrives.live arrives.header arrives.steady before scanned
  have short : block.stored.length ≤ node.bufLen := by omega
  obtain ⟨protocol, code⟩ := headResponseCode_first starts short
  have header : { httpc with headerNode := some (node.holding block.stored) }.headerNode =
      some (node.holding block.stored) := rfl
  rw [handled, parseHead_of_protocol header (protocol_of_start protocol) rfl rfl, code]
  refine ⟨⟨node.holding block.stored, rfl, rfl, ?_, ?_⟩, rfl, ?_⟩
  · rw [holding_buf node short, ← List.append_assoc, List.take_left', length]
    · rfl
    · simp only [List.length_append, List.length_replicate]
      omega
  · rw [← length]
    rfl
  · rw [unread, stream]

end

/-- The first line of the sample header. -/
def okFirst : ProtocolLine where
  minor := okStatus.minor
  spaces := 1
  code := okStatus.code
  rest := okStatus.reason
  minorDigit := okStatus.minorDigit
  spaced := Nat.one_pos
  three := by decide
  digits := okStatus.digits
  restStart := okStatus.reasonStart

/-- The sample header, in front of a body. -/
theorem head_parsed_whole_okHeader :
    HeadParsed smallNode okHeader okFirst (.opened okHeader.bytes)
      (httpcHandleResponse .prompt smallClient (.opened okHeader.bytes)) :=
  head_parsed_whole (prompt_blockArrives okHeader) (by decide) (by decide)

end Hfc
