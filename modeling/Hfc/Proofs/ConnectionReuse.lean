/-
Module: Hfc.Proofs.ConnectionReuse
Layer: Proofs
Purpose: What a chunked body leaves on the connection. The call that ends the body stops behind the
  zero-size line, so the trailer stays in front of the next response and is taken for its header.
  Only a size line that does not fit the scratch block can hide this, because the download then
  loses its place in the stream.
Imports: Hfc.Proofs.ChunkedDecoding, Hfc.Proofs.ResponseHead
Main exports: Transport.FullReads, chunkedRest, chunkGetLoop_rest, LeavesNext,
  chunked_body_leaves_next_iff, chunked_body_next_head
-/
import Hfc.Proofs.ChunkedDecoding
import Hfc.Proofs.ResponseHead

namespace Hfc

open ByteText CrlfScan Numeral

/-! ### Whole reads

On a transport that hands over all that is asked for, the loop over a body is a function of the
stream alone. -/

/-- Every receive call brings as many bytes as it asks for, as long as there are any. -/
def Transport.FullReads (net : Transport) : Prop :=
  ∀ calls taken n, net.recv calls taken n = .upTo n

theorem Transport.prompt_full : Transport.prompt.FullReads :=
  fun _ _ _ => rfl

theorem Transport.FullReads.cuts {net : Transport} (full : net.FullReads) (stop : Nat) :
    net.CutsBy (fun _ n => n) stop :=
  fun calls taken n _ => full calls taken n

/-- The size that is read off a line of which the scratch block holds so much. -/
def lineSize (stored : Bytes) : Int :=
  toInt32 (strtoul 16 (cstr stored.dropLast))

/-- What is left of a stream behind the size line that ends a download, when every read is whole and
a size line is cut off where the scratch block is full: what follows the cut is taken for data.
Nothing when a call finds no memory for its block before that. -/
def chunkedRest (calloc : Nat → Bool) (size : Int) : Nat → (callocs : Nat) → Bytes → Option Bytes
  | 0, _, s => some s
  | rounds + 1, callocs, s =>
      if calloc callocs = false then none
      else
        let line := scan chunkTmpSize nul s
        if lineSize line.1 ≤ 0 ∨ size < lineSize line.1 then some line.2
        else
          chunkedRest calloc size rounds (callocs + 1)
            ((line.2.drop (lineSize line.1).toNat).drop 2)

section

variable {net : Transport} {httpc : Httpc} {size : Int}

/-- A whole read. -/
theorem receive_full (full : net.FullReads) (w : World) (n : Nat) :
    (net.receive w n).ret = (min n w.unread.length : Nat) ∧
      (net.receive w n).world.unread = w.unread.drop n := by
  have least : min (max 1 n) (min n w.unread.length) = min n w.unread.length := by omega
  obtain ⟨data, ret⟩ := receive_of_upTo (full w.recvs w.taken n)
  obtain ⟨advances, -⟩ := receive_spec net w n
  rw [least] at data ret
  refine ⟨ret, ?_⟩
  rw [advances.unread, data, List.length_take]
  by_cases enough : n ≤ w.unread.length
  · rw [show min (min n w.unread.length) w.unread.length = n by omega]
  · rw [List.drop_of_length_le (by omega), List.drop_of_length_le (by omega)]

/-- A line is then the scan of what is left. -/
theorem readLine_full (live : httpc.Live) (full : net.FullReads) (w : World) {room : Nat}
    (positive : 0 < room) {line : Bytes × Bytes} (scanned : scan room nul w.unread = line) :
    (httpcReadOneLine net httpc w room).stored = line.1 ∧
      (httpcReadOneLine net httpc w room).world.unread = line.2 :=
  scanned ▸ readLine_scan live w (full.cuts _).steady positive

/-- One call of the download, by the bytes it finds. -/
theorem chunkCall_full (live : httpc.Live) (full : net.FullReads) {w : World}
    (memory : net.calloc w.callocs = true) {line : Bytes × Bytes}
    (scanned : scan chunkTmpSize nul w.unread = line) {r : BodyRecv}
    (made : httpcRecvResponse net httpc w .chunk false size = r) :
    (lineSize line.1 ≤ 0 ∨ size < lineSize line.1 →
        r.ret = httpcErrFail ∧ r.world.unread = line.2) ∧
      (¬ (lineSize line.1 ≤ 0 ∨ size < lineSize line.1) →
        ¬ r.ret < 0 ∧ r.world.unread = (line.2.drop (lineSize line.1).toNat).drop 2 ∧
          r.world.callocs = w.callocs + 1) := by
  rw [← net.allocate_unread w] at scanned
  obtain ⟨stored, left⟩ := readLine_full live full (net.allocate w).2
    (show 0 < chunkTmpSize by decide) scanned
  obtain ⟨k, advances, fits, -⟩ := readLine_advances live (net.allocate w).2
    (show 0 < chunkTmpSize by decide)
  generalize read : httpcReadOneLine net httpc (net.allocate w).2 chunkTmpSize = lineRead
    at stored left advances fits
  have len : chunkLen lineRead.stored = lineSize line.1 := by
    rw [chunkLen_eq fits, stored, lineSize]
  constructor
  · intro refused
    obtain rfl := made.symm.trans (chunkCall_refused memory read (by rw [len]; exact refused))
    exact ⟨rfl, left⟩
  · intro accepted
    obtain ⟨n, isSize, positive, room⟩ := size_of_accepted accepted
    have call := made.symm.trans
      (chunkCall_taken live memory read (len.trans isSize) positive room)
    obtain ⟨ret, behind⟩ := receive_full full lineRead.world n
    obtain ⟨-, behind'⟩ := receive_full full (net.receive lineRead.world n).world 2
    obtain ⟨received, -⟩ := receive_spec net lineRead.world n
    obtain ⟨received', -⟩ := receive_spec net (net.receive lineRead.world n).world 2
    dsimp only at call
    rw [if_neg (by rw [ret]; omega)] at call
    subst call
    dsimp only
    refine ⟨by rw [ret]; omega, ?_, ?_⟩
    · rw [behind', behind, left, isSize, Int.toNat_natCast]
    · rw [received'.callocs, received.callocs, advances.callocs, Transport.allocate_callocs]

/-- Where a download ends. -/
theorem chunkGetLoop_rest (live : httpc.Live) (full : net.FullReads) {rounds : Nat} {w : World}
    {d : Download} (loop : chunkGetLoop net httpc size rounds w = some d) :
    chunkedRest net.calloc size rounds w.callocs w.unread =
      if d.last = httpcErrFail then some d.world.unread else none := by
  induction rounds generalizing w d with
  | zero => cases loop
  | succ rounds ih =>
      rw [chunkGetLoop] at loop
      rw [chunkedRest]
      dsimp only at loop ⊢
      cases memory : net.calloc w.callocs with
      | false =>
          rw [chunkCall_noMemory memory,
            if_pos (show (BodyRecv.failed httpcErrMem (net.allocate w).2).ret < 0 from
              (by decide : (-3 : Int) < 0))] at loop
          cases loop
          rw [if_pos rfl, if_neg (by exact (by decide : ¬ (-3 : Int) = -1))]
      | true =>
          rw [if_neg Bool.true_eq_false.mp]
          generalize scanned : scan chunkTmpSize nul w.unread = line
          generalize made : httpcRecvResponse net httpc w .chunk false size = r at loop
          obtain ⟨ends, goes⟩ := chunkCall_full live full memory scanned made
          by_cases refused : lineSize line.1 ≤ 0 ∨ size < lineSize line.1
          · obtain ⟨ret, left⟩ := ends refused
            rw [if_pos (by rw [ret]; decide)] at loop
            cases loop
            rw [if_pos refused, if_pos ret, left]
          · obtain ⟨ret, left, callocs⟩ := goes refused
            rw [if_neg ret] at loop
            obtain ⟨later, rest, rfl⟩ := Option.map_eq_some_iff.mp loop
            rw [if_neg refused, ← left, ← callocs]
            simpa only using ih rest

/-! ### A body whose size lines fit

For such a body this function stops behind the last size line, in front of the trailer. -/

theorem length_le_chunkBytes (chunks : List Chunk) : chunks.length ≤ (chunkBytes chunks).length := by
  induction chunks with
  | nil => exact le_rfl
  | cons chunk chunks ih =>
      rw [chunkBytes_cons, List.length_append, List.length_cons, chunk.length_bytes]
      omega

/-- A chunk whose size line fits the scratch block is passed. -/
theorem chunkedRest_chunk {calloc : Nat → Bool} {callocs : Nat} (memory : calloc callocs = true)
    (chunk : Chunk) (fits : chunk.line.text.length + 1 < chunkTmpSize) {size : Nat}
    (small : size < 2 ^ 31) (enough : chunk.data.length ≤ size) (rounds : Nat) (tail : Bytes) :
    chunkedRest calloc size (rounds + 1) callocs (chunk.bytes ++ tail) =
      chunkedRest calloc size rounds (callocs + 1) tail := by
  have positive := chunk.length_pos
  have split : chunk.bytes ++ tail =
      chunk.line.text ++ cr :: lf :: (chunk.data ++ cr :: lf :: tail) := by
    simp [Chunk.bytes]
  have free : CrlfFree nul chunk.line.text := chunk.line.crlfFree false
  have noNul : nul ∉ chunk.line.text := chunk.line.nul_free false
  have isSize : lineSize (chunk.line.text ++ [cr]) = chunk.data.length := by
    rw [lineSize, List.dropLast_concat, cstr_of_nul_free noNul]
    exact chunk.line.toInt32_strtoul (by omega) false
  rw [chunkedRest, memory, if_neg (by decide), split, scan_line free fits]
  dsimp only
  rw [isSize, if_neg (by omega), Int.toNat_natCast, List.drop_left]
  rfl

/-- The line of the zero-size chunk ends the download, and what follows it is left. -/
theorem chunkedRest_last {calloc : Nat → Bool} {callocs : Nat} (memory : calloc callocs = true)
    (line : SizeLine 0) (size : Int) (rounds : Nat) (tail : Bytes) :
    ∃ left, chunkedRest calloc size (rounds + 1) callocs (line.text ++ cr :: lf :: tail) =
        some left ∧ tail <:+ left := by
  have free : CrlfFree nul line.text := line.crlfFree false
  have inLine := scan_dropLast_isPrefix free (List.prefix_refl (line.text ++ cr :: lf :: tail))
    chunkTmpSize
  have noNul : nul ∉ (scan chunkTmpSize nul (line.text ++ cr :: lf :: tail)).1.dropLast :=
    fun member => line.nul_free false (inLine.subset member)
  have zero : lineSize (scan chunkTmpSize nul (line.text ++ cr :: lf :: tail)).1 = 0 := by
    rw [lineSize, cstr_of_nul_free noNul, strtoul_zero_prefix line false inLine]
    rfl
  rw [chunkedRest, memory, if_neg (by decide)]
  dsimp only
  rw [if_pos (.inl zero.le)]
  exact ⟨_, rfl, suffix_scan free chunkTmpSize tail⟩

/-- While there is memory, a body whose size lines fit leaves its trailer in front of what follows
it. -/
theorem chunkedRest_body {calloc : Nat → Bool} {size : Nat} (small : size < 2 ^ 31)
    (body : ChunkedBody) {chunks : List Chunk} (enough : ∀ c ∈ chunks, c.data.length ≤ size)
    (fit : ∀ c ∈ chunks, c.line.text.length + 1 < chunkTmpSize) {callocs rounds : Nat}
    (rounds_le : chunks.length < rounds) {rest s : Bytes}
    (stream : s =
      chunkBytes chunks ++ (body.lastLine.text ++ cr :: lf :: (body.trailerBytes ++ rest))) :
    (∃ i ≤ chunks.length, calloc (callocs + i) = false) ∧
        chunkedRest calloc size rounds callocs s = none ∨
      (∀ i ≤ chunks.length, calloc (callocs + i) = true) ∧
        ∃ left, chunkedRest calloc size rounds callocs s = some left ∧
          body.trailerBytes ++ rest <:+ left := by
  induction chunks generalizing callocs rounds s with
  | nil =>
      obtain ⟨rounds, rfl⟩ : ∃ n, rounds = n + 1 := ⟨rounds - 1, by omega⟩
      cases memory : calloc callocs with
      | false => exact .inl ⟨⟨0, le_rfl, memory⟩, by rw [chunkedRest, memory, if_pos rfl]⟩
      | true =>
          subst stream
          refine .inr ⟨fun i first => ?_, chunkedRest_last memory body.lastLine size rounds _⟩
          rw [Nat.le_zero.mp first]
          exact memory
  | cons chunk chunks ih =>
      obtain ⟨rounds, rfl⟩ : ∃ n, rounds = n + 1 := ⟨rounds - 1, by omega⟩
      rw [List.length_cons] at rounds_le ⊢
      cases memory : calloc callocs with
      | false =>
          exact .inl ⟨⟨0, Nat.zero_le _, memory⟩, by rw [chunkedRest, memory, if_pos rfl]⟩
      | true =>
          -- the later calls are those on the stream behind this chunk
          have later : _ ∧ chunkedRest calloc size rounds (callocs + 1) _ = none ∨ _ :=
            ih (fun c member => enough c (List.mem_cons_of_mem chunk member))
              (fun c member => fit c (List.mem_cons_of_mem chunk member)) (by omega) rfl
          rw [stream, chunkBytes_cons, List.append_assoc,
            chunkedRest_chunk memory chunk (fit chunk List.mem_cons_self) small
              (enough chunk List.mem_cons_self)]
          refine later.imp ?_ ?_
          · rintro ⟨⟨i, bound, missing⟩, ends⟩
            exact ⟨⟨i + 1, by omega, by rwa [Nat.add_right_comm] at missing⟩, ends⟩
          · rintro ⟨all, left⟩
            refine ⟨fun i bound => ?_, left⟩
            cases i with
            | zero => exact memory
            | succ i =>
                have there := all i (by omega)
                rwa [Nat.add_right_comm] at there

/-! ### The next response

The trailer and its empty line are left for the next request. So the loop leaves what follows the
body only if some size line did not fit the scratch block. -/

/-- When the download has reported the end of the body, exactly `rest` is left on the stream. -/
def LeavesNext (net : Transport) (httpc : Httpc) (size : Int) (w : World) (rest : Bytes) : Prop :=
  ∀ d, chunkGetRequest net httpc size w = some d → d.last = httpcErrFail → d.world.unread = rest

/-- With whole reads, a body leaves the stream at what follows it if and only if the stream, read
with its size lines cut off where the scratch block is full, gives no more sizes just there; and
when all size lines fit, only if memory runs out before the end: the trailer always stays. -/
theorem chunked_body_leaves_next_iff (live : httpc.Live) (full : net.FullReads) {size : Nat}
    (small : size < 2 ^ 31) (body : ChunkedBody) (enough : ∀ c ∈ body.chunks, c.data.length ≤ size)
    {w : World} {rest : Bytes} (unread : w.unread = body.bytes ++ rest) :
    (LeavesNext net httpc size w rest ↔
        ∀ left, chunkedRest net.calloc size (w.unread.length + 1) w.callocs w.unread = some left →
          left = rest) ∧
      ((∀ c ∈ body.chunks, c.line.text.length + 1 < chunkTmpSize) →
        (LeavesNext net httpc size w rest ↔
          ∃ i ≤ body.chunks.length, net.calloc (w.callocs + i) = false)) := by
  obtain ⟨d, loop, -⟩ := chunkGetRequest_ends live net size w
  have ends := chunkGetLoop_rest live full loop
  -- The loop is a function of the stream here, and reports the end where that function stops.
  have leaves : LeavesNext net httpc size w rest ↔
      ∀ left, chunkedRest net.calloc size (w.unread.length + 1) w.callocs w.unread = some left →
        left = rest := by
    rw [ends]
    constructor
    · intro leaves left ended
      split at ended
      · rename_i reported
        rw [← Option.some.inj ended]
        exact leaves d loop reported
      · cases ended
    · intro only d' loop' reported
      obtain rfl := Option.some.inj (loop.symm.trans loop')
      exact only _ (if_pos reported)
  refine ⟨leaves, fun fit => leaves.trans ?_⟩
  have stream : w.unread = chunkBytes body.chunks ++
      (body.lastLine.text ++ cr :: lf :: (body.trailerBytes ++ rest)) := by
    simpa [ChunkedBody.bytes] using unread
  have count : body.chunks.length < w.unread.length + 1 := by
    have bound := length_le_chunkBytes body.chunks
    rw [stream, List.length_append]
    omega
  have ends : (∃ i ≤ body.chunks.length, net.calloc (w.callocs + i) = false) ∧ _ ∨ _ :=
    chunkedRest_body small body enough fit count stream
  rcases ends with ⟨missing, nothing⟩ | ⟨memory, left, stops, behind⟩
  · refine iff_of_true (fun left is => ?_) missing
    rw [nothing] at is
    cases is
  -- The loop stops in front of the trailer, which has the two bytes of its empty line at least.
  · refine iff_of_false (fun only => ?_) ?_
    · have lengths := behind.length_le
      rw [only left stops, List.length_append, ChunkedBody.trailerBytes, List.length_append,
        List.length_cons] at lengths
      omega
    · rintro ⟨i, bound, missing⟩
      rw [memory i bound] at missing
      cases missing

theorem chunked_body_leaves_next_iff_abBody :
    ¬ LeavesNext .prompt (.plain 3) 16 (.opened (abBody.bytes ++ (okHeader.bytes ++ ascii "hello")))
      (okHeader.bytes ++ ascii "hello") := by
  have never := (chunked_body_leaves_next_iff (Httpc.plain_live (show (0 : Int) ≤ 3 by decide))
    Transport.prompt_full (show 16 < 2 ^ 31 by decide) abBody (by decide)
    (show (World.opened (abBody.bytes ++ (okHeader.bytes ++ ascii "hello"))).unread = _ from rfl)).2
      (by decide)
  rintro leaves
  obtain ⟨i, -, missing⟩ := never.mp leaves
  cases missing

/-- Behind the sample body the next request finds the empty line that ends the trailer, takes it for
an empty header and fails, with the response it is about left on the stream. -/
theorem chunked_body_next_request_fails :
    (chunkGetRequest .prompt smallClient 16
        (.opened (abBody.bytes ++ (okHeader.bytes ++ ascii "hello")))).map
          (fun d => (d.body, d.world.unread)) =
        some (ascii "ab", [cr, lf] ++ (okHeader.bytes ++ ascii "hello")) ∧
      (chunkGetRequest .prompt smallClient 16
        (.opened (abBody.bytes ++ (okHeader.bytes ++ ascii "hello")))).map
          (fun d =>
            let next := httpcSendRequest .prompt smallClient d.world none
            (next.ret, next.httpc.responseCode, next.world.unread)) =
        some (-1, 0, okHeader.bytes ++ ascii "hello") := by
  decide +kernel

/-- The trailer of a body is a header block. -/
def ChunkedBody.trailerBlock (body : ChunkedBody) : HeaderBlock where
  lines := body.trailers
  plain line member :=
    have plain := body.trailerPlain line member
    ⟨plain.1, CrlfFree.of_no_lf (fun isLf => (plain.2 lf isLf).2.1 rfl) nul⟩

/-- A whole body leaves its trailer on the stream, and the next request takes that for the header of
the response: it reads no byte behind it. -/
theorem chunked_body_next_head (live : httpc.Live) {size : Nat} (small : size < 2 ^ 31)
    (body : ChunkedBody) {cut : Nat → Nat → Nat} (enough : ∀ c ∈ body.chunks, c.data.length ≤ size)
    {w : World} (cuts : net.CutsBy cut w.stop)
    {rest : Bytes} (unread : w.unread = body.bytes ++ rest)
    (whole : WholeReads net cut w.taken w.callocs false body.chunks)
    (memory : net.calloc (w.callocs + body.chunks.length) = true)
    (fits : body.lastLine.text.length + 2 < chunkTmpSize) {node : HttpcMemNode}
    (header : httpc.headerNode = some node) :
    ∃ d, chunkGetRequest net httpc size w = some d ∧ d.body = body.decoded ∧
      d.world.unread = body.trailerBytes ++ rest ∧
      rest <:+ (httpcHandleResponse net httpc d.world).world.unread := by
  have stream : w.unread = strayLf false ++ (chunkBytes body.chunks ++
      (body.lastLine.text ++ cr :: lf :: (body.trailerBytes ++ rest))) := by
    simpa [ChunkedBody.bytes, strayLf] using unread
  obtain ⟨calls, w', stray, made, results, -, left, callocs, stop⟩ :=
    chunkCalls_whole live small enough cuts stream whole
  have steady : net.SteadyUntil w'.stop := by
    rw [stop]
    exact cuts.steady
  obtain ⟨line, read, len, left', advances⟩ :=
    sizeLine_read live steady body.lastLine (by decide) left
      (by have one := Bool.toNat_le stray; omega)
  have call : httpcRecvResponse net httpc w' .chunk false size = _ :=
    chunkCall_refused (callocs ▸ memory) read (.inl len.le)
  have bound := made.length_le live
  refine ⟨_, made.loop_eq call (show (-1 : Int) < 0 by decide) (by omega), ?_, left', ?_⟩
  · have bodies := congrArg (List.flatMap Prod.snd) results
    simpa [Download.body, ChunkedBody.decoded, List.flatMap_map] using bodies
  · obtain ⟨w'', handled, unread', -⟩ :=
      handleResponse_eq (w := line.world) live header
        (show net.SteadyUntil line.world.stop by rw [advances.stop_eq]; exact steady)
        (Nat.le_add_right _ _) (Prod.eta _).symm
    show rest <:+ (httpcHandleResponse net httpc line.world).world.unread
    rw [handled]
    dsimp only
    rw [unread', left']
    exact body.trailerBlock.suffix_headScan node.positive rest

end

end Hfc
