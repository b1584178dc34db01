/-
Module: Hfc.Proofs.ResponseHead
Layer: Proofs
Purpose: What `httpc_handle_response` reads and when it accepts it. The read loop leaves in the
  buffer what `arrivedHead` says; on a transport that fails at most where the stream ends that is
  what `headScan` says of the bytes, so a block that does not fit is cut without notice.
Imports: Hfc.Core.Access, Hfc.Proofs.LineReader, Hfc.Spec.HeaderBlock
Main exports: HttpcMemNode.holding, arrivedHead, headLoop_arrived, arrivedHead_scan, HeadAccepted,
  protocol_of_start, headResponseCode_memory, handleResponse_eq, parseHead_ok_iff
-/
import Hfc.Core.Access
import Hfc.Proofs.LineReader
import Hfc.Spec.HeaderBlock

namespace Hfc

open ByteText CrlfScan Numeral

/-! ### The buffer behind the read loop

The buffer after the loop is a function of the bytes the line reader stored: the lines with a zero
byte behind each. -/

/-- The node with nothing but the given text in its buffer. -/
def HttpcMemNode.holding (node : HttpcMemNode) (held : Bytes) : HttpcMemNode :=
  ((httpcMemNodeReset node).store 0 held).setUsed held.length

section

variable {net : Transport} {httpc : Httpc}

/-! The rounds of the loop, by what the line reader stored. -/

theorem headLoop_end {node : HttpcMemNode} {w : World} {line : LineRead} (rounds : Nat)
    (read : httpcReadOneLine net httpc w (node.bufLen - node.bufUsed) = line)
    (stored : line.stored = []) :
    headLoop net httpc (rounds + 1) node w = (node.store node.bufUsed [], line.world) := by
  simp [headLoop, read, LineRead.count, stored]

theorem headLoop_empty {node : HttpcMemNode} {w : World} {line : LineRead} (rounds : Nat)
    (read : httpcReadOneLine net httpc w (node.bufLen - node.bufUsed) = line)
    (stored : line.stored = [cr]) :
    headLoop net httpc (rounds + 1) node w =
      ((node.store node.bufUsed [cr]).store node.bufUsed [nul], line.world) := by
  simp [headLoop, read, LineRead.count, stored]

/-- A CR that is stored and cleared again leaves the blank rest of a buffer blank. -/
theorem patch_cr_cleared (front behind : Bytes) {room : Nat} (positive : 0 < room) :
    patch (patch (front ++ (List.replicate room nul ++ behind)) front.length [cr]) front.length
      [nul] = front ++ (List.replicate room nul ++ behind) := by
  obtain ⟨n, rfl⟩ : ∃ n, room = n + 1 := ⟨room - 1, by omega⟩
  rw [patch_replicate front behind [cr] nul (by simp), ← List.append_assoc front,
    patch_append front [cr] _ [nul] rfl]
  simp [List.replicate_succ]

/-- The node behind a round that stored a line with some text. -/
def HttpcMemNode.withLine (node : HttpcMemNode) (line : Bytes) : HttpcMemNode :=
  ((node.store node.bufUsed line).store (node.bufUsed + line.length - 1) [nul]).setUsed
    (node.bufUsed + line.length)

theorem headLoop_line {node : HttpcMemNode} {w : World} {line : LineRead} (rounds : Nat)
    (read : httpcReadOneLine net httpc w (node.bufLen - node.bufUsed) = line)
    (more : ¬ (line.stored = [] ∨ line.stored = [cr])) :
    headLoop net httpc (rounds + 1) node w =
      if (node.withLine line.stored).bufUsed ≥ (node.bufLen : Int) then
        (node.withLine line.stored, line.world)
      else headLoop net httpc rounds (node.withLine line.stored) line.world := by
  obtain ⟨something, notEmpty⟩ := not_or.mp more
  have count : ¬ line.count ≤ 0 := by
    have positive := List.length_pos_iff.mpr something
    unfold LineRead.count
    omega
  have text : ¬ (line.stored.head? = some cr ∧ line.count = 1) := by
    rintro ⟨head, one⟩
    obtain ⟨b, equal⟩ := List.length_eq_one_iff.mp (show line.stored.length = 1 by
      unfold LineRead.count at one
      omega)
    rw [equal, List.head?_cons] at head
    exact notEmpty (by rw [equal, Option.some.inj head])
  simp only [headLoop, read, if_neg count, if_neg text]
  rfl

/-- A line keeps its length when its last byte is cleared. -/
theorem length_cleared {line : Bytes} (something : line ≠ []) (later : Bytes) :
    (line.dropLast ++ nul :: later).length = line.length + later.length := by
  have positive := List.length_pos_iff.mpr something
  simp only [List.length_append, List.length_cons, List.length_dropLast]
  omega

theorem length_withLine {line : Bytes} (something : line ≠ []) (front : Bytes) :
    (front ++ (line.dropLast ++ [nul])).length = front.length + line.length := by
  rw [List.length_append, length_cleared something, List.length_nil, Nat.add_zero]

/-- The bytes in use behind such a round. -/
theorem withLine_used {node : HttpcMemNode} {front line : Bytes}
    (used : node.bufUsed = front.length) (something : line ≠ []) :
    (node.withLine line).bufUsed = ((front ++ (line.dropLast ++ [nul])).length : Nat) := by
  rw [length_withLine something, Nat.cast_add, ← used]
  rfl

/-- The buffer behind such a round. -/
theorem withLine_buf {node : HttpcMemNode} {front behind line : Bytes} {room : Nat}
    (memory : node.buf = front ++ (List.replicate room nul ++ behind))
    (used : node.bufUsed = front.length) (something : line ≠ []) (fits : line.length ≤ room) :
    (node.withLine line).buf =
      (front ++ (line.dropLast ++ [nul])) ++
        (List.replicate (room - line.length) nul ++ behind) := by
  obtain ⟨text, last, rfl⟩ := (List.eq_nil_or_concat line).resolve_left something
  have offset : (front.length : Int) + ((text ++ [last]).length : Nat) - 1 =
      ((front ++ text).length : Nat) := by
    simp only [List.length_append, List.length_singleton]
    omega
  rw [List.concat_eq_append] at fits ⊢
  rw [HttpcMemNode.withLine, HttpcMemNode.setUsed_buf, HttpcMemNode.store_buf,
    HttpcMemNode.store_buf, memory, used, offset, patchAt_natCast, patchAt_natCast,
    patch_replicate front behind (text ++ [last]) nul fits, List.dropLast_concat]
  have split : front ++ (text ++ [last] ++
      (List.replicate (room - (text ++ [last]).length) nul ++ behind)) =
      (front ++ text) ++ [last] ++
        (List.replicate (room - (text ++ [last]).length) nul ++ behind) := by
    simp
  rw [split, patch_append (front ++ text) [last] _ [nul] rfl]
  simp

/-- What `room` bytes of memory hold of the lines that arrive, each with a NUL for its last byte,
and the connection behind them. -/
def arrivedHead (net : Transport) (httpc : Httpc) : Nat → (room : Nat) → World → Bytes × World
  | 0, _, w => ([], w)
  | rounds + 1, room, w =>
      let line := httpcReadOneLine net httpc w room
      if line.stored = [] ∨ line.stored = [cr] then ([], line.world)
      else if room ≤ line.stored.length then (line.stored.dropLast ++ [nul], line.world)
      else
        let later := arrivedHead net httpc rounds (room - line.stored.length) line.world
        (line.stored.dropLast ++ nul :: later.1, later.2)

/-- A line is no longer than the room for it. -/
theorem readLine_length_le (net : Transport) (httpc : Httpc) (w : World) {room : Nat}
    (positive : 0 < room) : (httpcReadOneLine net httpc w room).stored.length ≤ room := by
  have bound := (lineStores_eq net httpc w room).2
  omega

theorem length_arrivedHead_le (net : Transport) (httpc : Httpc) (rounds : Nat) {room : Nat}
    (positive : 0 < room) (w : World) : (arrivedHead net httpc rounds room w).1.length ≤ room := by
  induction rounds generalizing room w with
  | zero => exact Nat.zero_le _
  | succ rounds ih =>
      have fits := readLine_length_le net httpc w positive
      unfold arrivedHead
      dsimp only
      split
      · exact Nat.zero_le _
      · rename_i more
        have something := (not_or.mp more).1
        split
        · rw [length_cleared something, List.length_nil]
          exact fits
        · rename_i left
          have later := ih (Nat.sub_pos_of_lt (not_le.mp left))
            (httpcReadOneLine net httpc w room).world
          rw [length_cleared something]
          omega

/-- The read loop goes on filling a blank rest of the buffer with what arrives. -/
theorem headLoop_arrived {rounds room : Nat} {node : HttpcMemNode} {front behind : Bytes}
    (w : World) (memory : node.buf = front ++ (List.replicate room nul ++ behind))
    (used : node.bufUsed = front.length) (length : node.bufLen = front.length + room)
    (positive : 0 < room) {held : Bytes} {w' : World}
    (arrived : arrivedHead net httpc rounds room w = (held, w')) :
    ∃ node', headLoop net httpc rounds node w = (node', w') ∧
      node'.buf =
        front ++ (held ++ (List.replicate (room - held.length) nul ++ behind)) ∧
      node'.bufUsed = (front.length + held.length : Nat) ∧ node'.bufLen = node.bufLen := by
  induction rounds generalizing room node front w held with
  | zero =>
      cases arrived
      exact ⟨node, rfl, by simpa using memory, by simpa using used, rfl⟩
  | succ rounds ih =>
      have left : (node.bufLen : Int) - node.bufUsed = (room : Nat) := by omega
      have fits := readLine_length_le net httpc w positive
      rw [arrivedHead] at arrived
      rw [← left] at fits arrived
      generalize read : httpcReadOneLine net httpc w (node.bufLen - node.bufUsed) = line
        at fits arrived
      dsimp only at arrived
      -- An empty line, or none, ends the loop. A line of CR alone has been stored and cleared
      -- again.
      by_cases blank : line.stored = [] ∨ line.stored = [cr]
      · rw [if_pos blank] at arrived
        cases arrived
        rcases blank with nothing | empty
        · refine ⟨_, headLoop_end rounds read nothing, ?_, ?_, rfl⟩
          · simp [memory, used]
          · simp [used]
        · refine ⟨_, headLoop_empty rounds read empty, ?_, ?_, rfl⟩
          · rw [HttpcMemNode.store_buf, HttpcMemNode.store_buf, memory, used, patchAt_natCast,
              patchAt_natCast, patch_cr_cleared front behind positive]
            rfl
          · simp [used]
      · rw [if_neg blank] at arrived
        rw [headLoop_line rounds read blank]
        have something := (not_or.mp blank).1
        have buf := withLine_buf memory used something fits
        have front_length := length_withLine something front
        have usedLine := withLine_used used something
        -- Any other line is stored with its CR cleared. It may fill the buffer, which ends the loop
        -- too.
        by_cases full : room ≤ line.stored.length
        · rw [if_pos full] at arrived
          cases arrived
          rw [if_pos (by rw [usedLine, front_length]; omega)]
          refine ⟨_, rfl, ?_, ?_, rfl⟩
          · rw [buf, List.append_assoc, length_cleared something, List.length_nil, Nat.add_zero]
          · rw [usedLine, List.length_append]
        · rw [if_neg full] at arrived
          rw [if_neg (by rw [usedLine, front_length]; omega)]
          cases arrived
          obtain ⟨node', loop, buf', used', bufLen'⟩ :=
            ih line.world buf usedLine (by rw [front_length]; exact length.trans (by omega))
              (by omega) rfl
          refine ⟨node', loop, ?_, ?_, bufLen'⟩
          · rw [buf', length_cleared something, Nat.sub_add_eq]
            simp
          · rw [used', front_length, length_cleared something, Nat.add_assoc]

/-- On a transport that is steady as far as `headScan` goes, this is what arrives. -/
theorem arrivedHead_scan (live : httpc.Live) (rounds : Nat) {room stop : Nat} {w : World}
    (steady : net.SteadyUntil stop) (positive : 0 < room)
    (reach : w.stop ≤ stop + (headScan rounds room w.unread).2.length) :
    (arrivedHead net httpc rounds room w).1 = (headScan rounds room w.unread).1 ∧
      (arrivedHead net httpc rounds room w).2.unread = (headScan rounds room w.unread).2 := by
  induction rounds generalizing room w with
  | zero => exact ⟨rfl, rfl⟩
  | succ rounds ih =>
      have behindLine := length_headScan_succ_le rounds room w.unread
      obtain ⟨stored, unread⟩ := readLine_scan_until live w positive steady
        (reach.trans (Nat.add_le_add_left behindLine stop))
      obtain ⟨k, advances, -, -⟩ := readLine_advances live w positive
      rw [headScan, ← stored, ← unread] at reach ⊢
      rw [arrivedHead]
      dsimp only at reach ⊢
      by_cases blank : (httpcReadOneLine net httpc w room).stored = [] ∨
          (httpcReadOneLine net httpc w room).stored = [cr]
      · simp only [if_pos blank, and_self]
      · by_cases full : room ≤ (httpcReadOneLine net httpc w room).stored.length
        · simp only [if_neg blank, if_pos full, and_self]
        · simp only [if_neg blank, if_neg full] at reach ⊢
          obtain ⟨later, unread'⟩ := ih (w := (httpcReadOneLine net httpc w room).world)
            (Nat.sub_pos_of_lt (not_le.mp full)) (by rw [advances.stop_eq]; exact reach)
          exact ⟨by rw [later], unread'⟩

/-- The read loop does nothing to the connection but take bytes off the stream, and it keeps the
bytes in use inside the buffer. -/
theorem headLoop_advances (live : httpc.Live) (rounds : Nat) {node : HttpcMemNode} {w : World}
    (nonneg : 0 ≤ node.bufUsed) (room : node.bufUsed < node.bufLen) :
    (∃ k, Advances w k (headLoop net httpc rounds node w).2) ∧
      (headLoop net httpc rounds node w).1.InUse := by
  induction rounds generalizing node w with
  | zero => exact ⟨⟨0, .refl w⟩, nonneg, room.le⟩
  | succ rounds ih =>
      obtain ⟨size, left⟩ : ∃ size : Nat, (node.bufLen : Int) - node.bufUsed = size :=
        ⟨(node.bufLen - node.bufUsed).toNat, by omega⟩
      obtain ⟨k, advances, fits, -⟩ := readLine_advances live w (show 0 < size by omega)
      rw [← left] at advances fits
      generalize read : httpcReadOneLine net httpc w (node.bufLen - node.bufUsed) = line
        at advances fits
      by_cases blank : line.stored = [] ∨ line.stored = [cr]
      · rcases blank with nothing | empty
        · rw [headLoop_end rounds read nothing]
          exact ⟨⟨k, advances⟩, nonneg, room.le⟩
        · rw [headLoop_empty rounds read empty]
          exact ⟨⟨k, advances⟩, nonneg, room.le⟩
      · have used : (node.withLine line.stored).bufUsed = node.bufUsed + line.stored.length := rfl
        rw [headLoop_line rounds read blank]
        split
        · refine ⟨⟨k, advances⟩, ?_, ?_⟩
          · rw [used]
            omega
          · rw [used]
            show node.bufUsed + line.stored.length ≤ (node.bufLen : Int)
            omega
        · rename_i more
          obtain ⟨⟨k', later⟩, inUse⟩ :=
            ih (w := line.world) (by rw [used]; omega)
              (not_le.mp more)
          exact ⟨⟨k + k', advances.trans later⟩, inUse⟩

/-- So does the read loop on the node that was reset in front of it. -/
theorem headLoop_reset_advances (live : httpc.Live) (net : Transport) (node : HttpcMemNode)
    (w : World) :
    (∃ k, Advances w k (headLoop net httpc node.bufLen (httpcMemNodeReset node) w).2) ∧
      (headLoop net httpc node.bufLen (httpcMemNodeReset node) w).1.InUse :=
  headLoop_advances live node.bufLen le_rfl (Int.natCast_pos.mpr node.positive)

/-- The memory of a reset node: a blank buffer and what lies behind it. -/
theorem reset_buf (node : HttpcMemNode) :
    (httpcMemNodeReset node).buf =
      List.replicate node.bufLen nul ++ node.buf.drop node.bufLen := by
  have whole := patch_append [] (node.buf.take node.bufLen) (node.buf.drop node.bufLen)
    (List.replicate node.bufLen nul) (by simpa using node.allocated)
  rw [List.nil_append, List.take_append_drop, List.nil_append] at whole
  exact whole

theorem holding_buf (node : HttpcMemNode) {held : Bytes} (fits : held.length ≤ node.bufLen) :
    (node.holding held).buf =
      held ++ (List.replicate (node.bufLen - held.length) nul ++ node.buf.drop node.bufLen) := by
  have kept := patch_replicate [] (node.buf.drop node.bufLen) held nul fits
  rw [List.nil_append, List.nil_append, ← reset_buf] at kept
  exact kept

/-- The text such a node holds. -/
theorem holding_header (node : HttpcMemNode) {held : Bytes} (fits : held.length ≤ node.bufLen) :
    (node.holding held).header = held := by
  show (node.holding held).buf.take held.length = held
  rw [holding_buf node fits, List.take_left]

/-- The read loop on a reset node. -/
theorem headLoop_reset (net : Transport) (httpc : Httpc) (node : HttpcMemNode) (w : World) :
    headLoop net httpc node.bufLen (httpcMemNodeReset node) w =
      (node.holding (arrivedHead net httpc node.bufLen node.bufLen w).1,
        (arrivedHead net httpc node.bufLen node.bufLen w).2) := by
  have fits := length_arrivedHead_le net httpc node.bufLen node.positive w
  have memory : (httpcMemNodeReset node).buf = [] ++ _ := reset_buf node
  obtain ⟨node', loop, buf, used, bufLen⟩ :=
    headLoop_arrived w memory rfl (Nat.zero_add _).symm node.positive (Prod.eta _).symm
  have same : node' = node.holding (arrivedHead net httpc node.bufLen node.bufLen w).1 := by
    ext1
    · rw [buf, holding_buf node fits]
      rfl
    · exact bufLen
    · rw [used, List.length_nil, Nat.zero_add]
      rfl
  rw [loop, same]

/-! ### What is accepted

A head is accepted when its first line names the protocol and there is a length other than zero or a
transfer coding. -/

/-- The client with nothing but a header node. -/
def Httpc.ofNode (node : HttpcMemNode) : Httpc :=
  { Httpc.zeroed with headerNode := some node }

/-- The text in a node passes for the header of a response: its first line names the protocol, and
there is a body length other than zero or a transfer coding. -/
def HeadAccepted (node : HttpcMemNode) : Prop :=
  (strstr (ascii "HTTP/1.") (cstr node.buf)).isSome ∧
    (headContentLength (.ofNode node) node ≠ 0 ∨
      (httpcHeaderGet (.ofNode node) (some (ascii "Transfer-Encoding"))).isSome)

instance (node : HttpcMemNode) : Decidable (HeadAccepted node) :=
  inferInstanceAs (Decidable (_ ∧ _))

/-- The protocol name is found where the text in a node starts with it. -/
theorem protocol_of_start {node : HttpcMemNode} (starts : ascii "HTTP/1." <+: node.buf) :
    strstr (ascii "HTTP/1.") (cstr node.buf) = some 0 := by
  obtain ⟨behind, memory⟩ := starts
  rw [← memory, cstr_append (by decide)]
  exact strstr_of_start (List.prefix_append _ _)

/-- Behind one byte for the version and some spaces, the response code is the number that stands
there, saturated as `strtoul` does and taken as an `int`. -/
theorem headResponseCode_memory {node : HttpcMemNode} {minor : Byte} {spaces code behind : Bytes}
    (memory : node.buf = ascii "HTTP/1." ++ minor :: (spaces ++ (code ++ behind)))
    (onlySpaces : ∀ b ∈ spaces, b = sp) (digit : ∀ b ∈ code, (digitVal 10 b).isSome)
    (nonempty : code ≠ []) (ends : EndsNumeral (cstr behind)) :
    headResponseCode node 0 = toInt32 (min (value 10 (digits 10 code)) ulongMax : Nat) := by
  have noDigit {b : Byte} (special : b = sp ∨ b = nul) : b ∉ code := by
    intro member
    have isDigit := digit b member
    rcases special with rfl | rfl <;> exact absurd isDigit (by decide)
  obtain ⟨d, later, whole⟩ := List.exists_cons_of_ne_nil nonempty
  have noSpace : d ≠ sp := by
    rintro rfl
    exact noDigit (.inl rfl) (by rw [whole]; exact List.mem_cons_self)
  have eight : 0 + (ascii "HTTP/1.1").length = (ascii "HTTP/1." ++ [minor]).length := rfl
  have split : node.buf = (ascii "HTTP/1." ++ [minor]) ++ (spaces ++ (code ++ behind)) := by
    rw [memory, List.append_assoc, List.singleton_append]
  have skipped : (node.memFrom (0 + (ascii "HTTP/1.1").length)).dropWhile (· = sp) =
      code ++ behind := by
    rw [HttpcMemNode.memFrom, split, eight, List.drop_left,
      List.dropWhile_append_of_pos (by simpa using onlySpaces), whole, List.cons_append,
      List.dropWhile_cons_of_neg (by simpa using noSpace)]
  unfold headResponseCode
  dsimp only
  rw [skipped, cstr_append (noDigit (.inr rfl)), strtoul_digits digit nonempty ends]

/-- Looking a field up depends on the node alone. -/
theorem httpcHeaderGet_ofNode {node : HttpcMemNode} (header : httpc.headerNode = some node)
    (fields : Option Bytes) :
    httpcHeaderGet httpc fields = httpcHeaderGet (.ofNode node) fields := by
  simp [Httpc.ofNode, httpcHeaderGet, header]

/-- The header is reported as received when the text in the node passes for one. -/
theorem parseHead_ok_iff {node : HttpcMemNode} (header : httpc.headerNode = some node) :
    (parseHead httpc node).1 = httpcErrOk ↔ HeadAccepted node := by
  have length : headContentLength httpc node = headContentLength (.ofNode node) node := by
    rw [headContentLength, headContentLength, httpcHeaderGet_ofNode header]
  have coding (code length chunked : Int) (fields : Option Bytes) :
      httpcHeaderGet
          { httpc with responseCode := code, contentLength := length, chunked := chunked } fields =
        httpcHeaderGet (.ofNode node) fields :=
    httpcHeaderGet_ofNode header fields
  unfold parseHead HeadAccepted
  cases code : strstr (ascii "HTTP/1.") (cstr node.buf) with
  | none => simp
  | some ptr =>
      dsimp only
      rw [length, coding]
      by_cases zero : headContentLength (.ofNode node) node = 0
      · cases httpcHeaderGet (.ofNode node) (some (ascii "Transfer-Encoding")) with
        | none => simp [zero]
        | some ptr =>
            by_cases chunked : cstr (node.memFrom ptr) = ascii "chunked" <;> simp [zero, chunked]
      · simp [zero]

/-- Parsing succeeds or fails, and changes only what was parsed. -/
theorem parseHead_frame (httpc : Httpc) (node : HttpcMemNode) :
    ∃ ret code length chunked, (ret = httpcErrOk ∨ ret = httpcErrFail) ∧ parseHead httpc node =
      (ret, { httpc with responseCode := code, contentLength := length, chunked := chunked }) := by
  unfold parseHead
  cases strstr (ascii "HTTP/1.") (cstr node.buf) with
  | none => exact ⟨-1, httpc.responseCode, httpc.contentLength, httpc.chunked, .inr rfl, rfl⟩
  | some ptr =>
      dsimp only
      generalize headResponseCode node ptr = code
      generalize headContentLength httpc node = length
      by_cases zero : length = 0
      · rw [if_neg (not_not.mpr zero)]
        cases httpcHeaderGet _ (some (ascii "Transfer-Encoding")) with
        | none => exact ⟨httpcErrFail, code, length, 0, .inr rfl, rfl⟩
        | some ptr =>
            by_cases chunked : cstr (node.memFrom ptr) = ascii "chunked"
            · exact ⟨httpcErrOk, code, length, 1, .inl rfl, by simp [chunked]⟩
            · exact ⟨httpcErrOk, code, length, 0, .inl rfl, by simp [chunked]⟩
      · exact ⟨httpcErrOk, code, length, 0, .inl rfl, by rw [if_pos zero]⟩

/-! ### The response header as a whole

The call put together: the read loop, then the lookups on what it left. -/

/-- What `httpc_handle_response` does on a transport that is steady as far as `headScan` goes: the
text in the buffer is parsed, and what `headScan` leaves stays unread. -/
theorem handleResponse_eq (live : httpc.Live) {node : HttpcMemNode}
    (header : httpc.headerNode = some node) {w : World} {stop : Nat}
    (steady : net.SteadyUntil stop) {held rest : Bytes} (reach : w.stop ≤ stop + rest.length)
    (scanned : headScan node.bufLen node.bufLen w.unread = (held, rest)) :
    ∃ w', httpcHandleResponse net httpc w =
        { ret := (parseHead { httpc with headerNode := some (node.holding held) }
            (node.holding held)).1
          httpc := (parseHead { httpc with headerNode := some (node.holding held) }
            (node.holding held)).2
          world := w' } ∧
      w'.unread = rest ∧ ∃ k, Advances w k w' := by
  have reach' : w.stop ≤ stop + (headScan node.bufLen node.bufLen w.unread).2.length := by
    rwa [scanned]
  obtain ⟨arrived, unread⟩ := arrivedHead_scan live node.bufLen steady node.positive reach'
  obtain ⟨advances, -⟩ := headLoop_reset_advances live net node w
  rw [headLoop_reset] at advances
  rw [scanned] at arrived unread
  refine ⟨_, ?_, unread, advances⟩
  simp only [httpcHandleResponse, header, headLoop_reset, arrived]

/-- The client behind a parsed header: it is as live as before, and its node is the parsed one. -/
theorem parseHead_client (live : httpc.Live) (node : HttpcMemNode) :
    (parseHead { httpc with headerNode := some node } node).2.headerNode = some node ∧
      (parseHead { httpc with headerNode := some node } node).2.Live := by
  obtain ⟨ret, code, length, chunked, -, parsed⟩ :=
    parseHead_frame { httpc with headerNode := some node } node
  rw [parsed]
  exact ⟨rfl, ⟨live.socket, live.context⟩⟩

/-- An empty header node of 64 bytes. -/
def smallNode : HttpcMemNode :=
  .blank 64 (by decide) (by decide)

/-- A client whose header buffer has 64 bytes. -/
def smallClient : Httpc :=
  (Httpc.plain 3).withNode smallNode

theorem smallClient_live : smallClient.Live :=
  (Httpc.plain_live (by decide)).withNode _

end

end Hfc
