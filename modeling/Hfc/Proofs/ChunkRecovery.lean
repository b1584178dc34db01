/-
Module: Hfc.Proofs.ChunkRecovery
Layer: Proofs
Purpose: What follows a call that finds its buffer smaller than the chunk. The size line is off the
  stream by then and nothing remembers it, so the next call takes the data for a size line; only of
  a line the scratch block could not hold is something left that may give the size again.
Imports: Hfc.Proofs.ChunkedDecoding
Main exports: BufferTooSmall, Decodes, LineRestTells, Recoverable, unread_of_tooSmall,
  small_buffer_recovers_iff
-/
import Hfc.Proofs.ChunkedDecoding

namespace Hfc

open ByteText CrlfScan Numeral

section

variable {net : Transport} {httpc : Httpc} {cut : Nat → Nat → Nat}

/-! ### The call that fails

What a call with too small a buffer leaves behind: the size line has been read, and the rest of the
chunk is still on the stream. -/

/-- The call fails because the buffer is smaller than the chunk: it gets its scratch block, and the
size it reads is more than the buffer has room for. -/
def BufferTooSmall (net : Transport) (httpc : Httpc) (w : World) (size : Int) : Prop :=
  net.calloc w.callocs = true ∧
    0 < chunkLen (httpcReadOneLine net httpc (net.allocate w).2 chunkTmpSize).stored ∧
    size < chunkLen (httpcReadOneLine net httpc (net.allocate w).2 chunkTmpSize).stored

instance (net : Transport) (httpc : Httpc) (w : World) (size : Int) :
    Decidable (BufferTooSmall net httpc w size) :=
  inferInstanceAs (Decidable (_ ∧ _))

/-- Such a call has read a line and done nothing else. -/
theorem chunkCall_tooSmall {w : World} {size : Int} (tooSmall : BufferTooSmall net httpc w size) :
    httpcRecvResponse net httpc w .chunk false size =
      .failed httpcErrFail (httpcReadOneLine net httpc (net.allocate w).2 chunkTmpSize).world :=
  chunkCall_refused tooSmall.1 rfl (.inr tooSmall.2.2)

/-- Where the failing call leaves the stream: in the line, if the scratch block could not hold it,
and otherwise at the data, or at the LF in front of it. -/
theorem unread_of_tooSmall (live : httpc.Live) {w : World} (cuts : net.CutsBy cut w.stop)
    {text avail : Bytes} (free : CrlfFree nul text) (unread : w.unread = text ++ cr :: lf :: avail)
    {size : Int} (tooSmall : BufferTooSmall net httpc w size) :
    ∃ w', (httpcRecvResponse net httpc w .chunk false size).world = w' ∧
      w'.stop = w.stop ∧ w'.callocs = w.callocs + 1 ∧
      (text.length < chunkTmpSize → w.taken + text.length + 1 ≤ w'.taken) ∧
      (chunkTmpSize ≤ text.length → w'.unread = text.drop chunkTmpSize ++ cr :: lf :: avail ∧
        w'.taken = w.taken + chunkTmpSize) := by
  rw [chunkCall_tooSmall tooSmall]
  obtain ⟨-, left⟩ := readLine_scan live (net.allocate w).2 cuts.steady
    (show 0 < chunkTmpSize by decide)
  obtain ⟨k, advances, -, -⟩ := readLine_advances live (net.allocate w).2
    (show 0 < chunkTmpSize by decide)
  generalize httpcReadOneLine net httpc (net.allocate w).2 chunkTmpSize = line at left advances
  have taken : line.world.taken = w.taken + k := advances.taken
  have consumed := advances.length_eq
  rw [Transport.allocate_unread, unread] at left consumed
  refine ⟨_, rfl, advances.stop_eq, advances.callocs, ?_, ?_⟩
  · intro short
    by_cases fits : text.length + 1 < chunkTmpSize
    · rw [left, scan_line free fits] at consumed
      simp only [List.length_append, List.length_cons] at consumed
      exact show w.taken + text.length + 1 ≤ line.world.taken by omega
    · have full : chunkTmpSize = text.length + 1 := by omega
      rw [left, full, scan_line_full free] at consumed
      simp only [List.length_append, List.length_cons] at consumed
      exact show w.taken + text.length + 1 ≤ line.world.taken by omega
  · intro long
    rw [scan_long free long] at left
    rw [left] at consumed
    simp only [List.length_append, List.length_drop] at consumed
    exact ⟨left, show line.world.taken = w.taken + chunkTmpSize by omega⟩

/-! ### The calls behind it

The next call takes what is left for a size line: the data, or the rest of a line that the scratch
block could not hold. Only the rest of a line may give the size again. -/

/-- From `w` on the download loop delivers these chunks from where they stand in the stream, and
nothing else. -/
def Decodes (net : Transport) (httpc : Httpc) (size : Int) (w : World) (pos : Nat)
    (chunks : List Chunk) : Prop :=
  ∃ d, chunkGetRequest net httpc size w = some d ∧ d.body = chunks.flatMap Chunk.data ∧
    d.positions = chunkPositions pos chunks

/-- What the scratch block cannot hold of the line of a chunk. -/
def lineRest (stray : Bool) (chunk : Chunk) : Bytes :=
  (strayLf stray ++ chunk.line.text).drop chunkTmpSize

/-- The rest of the line of a chunk fits the scratch block, and `strtoul` makes the size of the
chunk of it. -/
def LineRestTells (stray : Bool) (chunk : Chunk) : Prop :=
  (lineRest stray chunk).length + 1 < chunkTmpSize ∧
    toInt32 (strtoul 16 (lineRest stray chunk)) = chunk.data.length

instance (stray : Bool) (chunk : Chunk) : Decidable (LineRestTells stray chunk) :=
  inferInstanceAs (Decidable (_ ∧ _))

/-- The chunk and those behind it can still be decoded: the rest of its line gives its size, the
later lines fit the scratch block, and every call gets one. -/
def Recoverable (net : Transport) (callocs : Nat) (stray : Bool) (chunk : Chunk)
    (back : List Chunk) : Prop :=
  LineRestTells stray chunk ∧ (∀ c ∈ back, c.line.text.length + 1 < chunkTmpSize) ∧
    ∀ i ≤ back.length, net.calloc (callocs + i) = true

theorem lineRest_crlfFree (stray : Bool) (chunk : Chunk) :
    CrlfFree nul (lineRest stray chunk) :=
  (chunk.line.crlfFree stray).drop chunkTmpSize

theorem nul_notMem_lineRest (stray : Bool) (chunk : Chunk) : nul ∉ lineRest stray chunk :=
  fun member => chunk.line.nul_free stray (List.mem_of_mem_drop member)

/-- Of a line that the scratch block holds there is nothing left to tell a size. -/
theorem LineRestTells.long {stray : Bool} {chunk : Chunk} (tells : LineRestTells stray chunk) :
    chunkTmpSize < (strayLf stray ++ chunk.line.text).length := by
  by_contra short
  have nothing := tells.2
  rw [lineRest, List.drop_of_length_le (not_lt.mp short)] at nothing
  have zero : toInt32 (strtoul 16 []) = 0 := by decide
  have positive := chunk.length_pos
  omega

theorem le_of_mem_chunkPositions {chunks : List Chunk} {pos : Nat} :
    ∀ p ∈ chunkPositions pos chunks, pos ≤ p := by
  induction chunks generalizing pos with
  | nil => simp [chunkPositions]
  | cons chunk chunks ih =>
      intro p member
      rw [chunkPositions] at member
      rcases List.mem_append.mp member with here | later
      · have lower := (List.mem_range'_1.mp here).1
        omega
      · have lower := ih p later
        omega

/-- On a transport that returns full reads, chunks come whole as soon as their lines fit. -/
theorem pieceReads_full {chunks : List Chunk} {pos start : Nat} (behind : start ≤ pos)
    (full : ∀ p n, start ≤ p → n ≤ cut p n) :
    PieceReads cut pos false chunks ↔ ∀ c ∈ chunks, c.line.text.length + 1 < chunkTmpSize := by
  induction chunks generalizing pos with
  | nil => simp [PieceReads]
  | cons chunk chunks ih =>
      have data := full (pos + chunk.line.text.length + 2) chunk.data.length (by omega)
      have crlf := full (pos + chunk.line.text.length + 2 + chunk.data.length) 2 (by omega)
      rw [PieceReads, decide_eq_false (not_lt.mpr crlf), ih (by omega), List.forall_mem_cons,
        Bool.toNat_false, Nat.zero_add]
      exact ⟨fun whole => ⟨whole.1, whole.2.2⟩,
        fun fit => ⟨fit.1, data.trans (le_max_right _ _), fit.2⟩⟩

/-- When the positions delivered begin with those of a chunk, the line in front of its data fits the
scratch block and tells its size. -/
theorem tells_of_positions (live : httpc.Live) {w w' : World} (cuts : net.CutsBy cut w.stop)
    (full : ∀ p n, w.taken ≤ p → n ≤ cut p n) {text data behind : Bytes}
    (free : CrlfFree nul text) (noNul : nul ∉ text)
    (unread : w.unread = text ++ cr :: lf :: (data ++ cr :: lf :: behind)) (nonempty : data ≠ [])
    {bound : Nat} {r : BodyRecv} {calls : List BodyRecv}
    (call : httpcRecvResponse net httpc w .chunk false bound = r) (succeeds : ¬ r.ret < 0)
    (rest : ChunkCalls net httpc bound r.world calls w') {dataPos : Nat}
    (dataPos_eq : dataPos = w.taken + text.length + 2) {later : List Nat}
    (positions : List.range' r.start r.data.length ++
        calls.flatMap (fun call => List.range' call.start call.data.length) =
      List.range' dataPos data.length ++ later)
    (beyond : ∀ p ∈ later, dataPos + data.length + 1 ≤ p) :
    text.length + 1 < chunkTmpSize ∧ toInt32 (strtoul 16 text) = data.length := by
  have positive := List.length_pos_iff.mpr nonempty
  have memory := memory_of_success call succeeds
  have fits := fits_of_positions live cuts free unread call succeeds dataPos_eq positive positions
  refine ⟨fits, ?_⟩
  obtain ⟨line, read, len, -, -⟩ := textLine_read live cuts.steady free noNul unread fits
  by_cases refused : chunkLen line.stored ≤ 0 ∨ (bound : Int) < chunkLen line.stored
  · rw [chunkCall_refused memory read refused] at call
    subst call
    simp [BodyRecv.failed] at succeeds
  · obtain ⟨n, tells, positive, room⟩ := size_of_accepted refused
    rw [tells] at len
    obtain ⟨r', w'', call', -, delivered, start, world, left, taken, -, stop⟩ :=
      chunkCall_text live cuts free noNul len.symm unread (by simp) memory fits positive
        (show n ≤ bound by omega) dataPos_eq rfl
    obtain rfl : r' = r := call'.symm.trans call
    have wanted := full dataPos n (by omega)
    have avail : (data ++ cr :: lf :: behind).length = data.length + (behind.length + 2) := by
      rw [List.length_append, List.length_cons, List.length_cons]
    have got : r'.data.length = min n (data.length + (behind.length + 2)) := by
      rw [delivered, List.length_take, avail]
      omega
    rw [start] at positions
    -- as many bytes are delivered as the chunk has: with fewer, one behind them is lost, and with
    -- more, the CRLF is delivered
    have same : r'.data.length = data.length := by
      rcases Nat.le_total r'.data.length data.length with few | many
      · have skips (part : r'.data.length < data.length) :
            dataPos + r'.data.length < r'.world.taken := by
          have something : w''.unread ≠ [] := by
            rw [left]
            apply List.length_pos_iff.mp
            rw [List.length_drop, avail]
            omega
          have swallowed := receive_takes (stop ▸ cuts) something (show 0 < 2 by decide)
          rw [world]
          omega
        exact first_piece_whole few positions skips (rest.taken_le_position live)
      · exact (first_piece_whole many positions.symm (fun _ => Nat.lt_succ_self _) beyond).symm
    rw [← len]
    omega

/-- When the chunk and those behind it are decoded after all, they were recoverable. -/
theorem recoverable_of_positions (live : httpc.Live) {w w' : World} (cuts : net.CutsBy cut w.stop)
    (full : ∀ p n, w.taken ≤ p → n ≤ cut p n) {chunk : Chunk} {back : List Chunk} {stray : Bool}
    {tail : Bytes}
    (unread : w.unread = lineRest stray chunk ++
      cr :: lf :: (chunk.data ++ cr :: lf :: (chunkBytes back ++ tail)))
    {bound : Nat} (small : bound < 2 ^ 31) (enough : ∀ c ∈ chunk :: back, c.data.length ≤ bound)
    {calls : List BodyRecv} (made : ChunkCalls net httpc bound w calls w') {dataPos : Nat}
    (dataPos_eq : dataPos = w.taken + (lineRest stray chunk).length + 2)
    (positions : calls.flatMap (fun call => List.range' call.start call.data.length) =
      List.range' dataPos chunk.data.length ++
        chunkPositions (dataPos + chunk.data.length + 2) back) :
    Recoverable net w.callocs stray chunk back := by
  have nonempty := chunk.length_pos
  have free := lineRest_crlfFree stray chunk
  have noNul := nul_notMem_lineRest stray chunk
  -- Something was delivered, so there was a first call, and it got the size of the chunk.
  cases made with
  | nil =>
      have lengths := congrArg List.length positions
      simp only [List.flatMap_nil, List.length_nil, List.length_append,
        List.length_range'] at lengths
      omega
  | @cons _ _ r calls call succeeds later =>
      rw [List.flatMap_cons] at positions
      have tells := tells_of_positions live cuts full free noNul unread chunk.nonempty call
        succeeds later dataPos_eq positions
        (fun p member => (Nat.le_succ _).trans (le_of_mem_chunkPositions p member))
      have memory := memory_of_success call succeeds
      obtain ⟨r', call', -, delivered, start, callocs, stop, -, next⟩ :=
        chunkCall_data live cuts free noNul tells.2 unread chunk.nonempty memory tells.1
          (enough chunk (by simp)) dataPos_eq rfl
      obtain rfl : r' = r := call'.symm.trans call
      have piece := full dataPos chunk.data.length (by omega)
      have crlf := full (dataPos + chunk.data.length) 2 (by omega)
      obtain ⟨left, pos⟩ := next (by omega)
      rw [decide_eq_false (not_lt.mpr crlf)] at left pos
      have whole : r'.data = chunk.data := by
        rw [delivered, List.take_of_length_le (by omega)]
      rw [start, whole] at positions
      -- The later calls delivered whole chunks, which is the case of a body from its start.
      have read := wholeReads_of_positions live small
        (fun c member => enough c (List.mem_cons_of_mem chunk member)) (stop ▸ cuts) left later
        (by rw [pos]; exact List.append_cancel_left positions)
      rw [pos, callocs] at read
      refine ⟨tells, (pieceReads_full (by omega) full).mp read.2, ?_⟩
      intro i bounded
      cases i with
      | zero => exact memory
      | succ i =>
          have granted := read.1 i (by omega)
          rwa [Nat.add_assoc, Nat.add_comm 1 i] at granted

/-- What is recoverable is decoded by a download with a buffer that is large enough. -/
theorem decodes_of_recoverable (live : httpc.Live) {w : World} (cuts : net.CutsBy cut w.stop)
    (full : ∀ p n, w.taken ≤ p → n ≤ cut p n) {chunk : Chunk} {back : List Chunk} {stray : Bool}
    (line : SizeLine 0) {rest : Bytes}
    (unread : w.unread = lineRest stray chunk ++ cr :: lf :: (chunk.data ++
      cr :: lf :: (chunkBytes back ++ (line.text ++ cr :: lf :: rest))))
    {bound : Nat} (small : bound < 2 ^ 31) (enough : ∀ c ∈ chunk :: back, c.data.length ≤ bound)
    (recoverable : Recoverable net w.callocs stray chunk back) {pos : Nat}
    (pos_eq : pos + chunk.line.text.length = w.taken + (lineRest stray chunk).length) :
    Decodes net httpc bound w pos (chunk :: back) := by
  obtain ⟨⟨fits, tells⟩, lines, granted⟩ := recoverable
  obtain ⟨r, call, ret, delivered, start, callocs, stop, -, next⟩ :=
    chunkCall_data live cuts (lineRest_crlfFree stray chunk) (nul_notMem_lineRest stray chunk)
      tells unread chunk.nonempty (granted 0 (Nat.zero_le _)) fits
      (enough chunk (by simp)) rfl rfl
  generalize dataPos_eq : w.taken + (lineRest stray chunk).length + 2 = dataPos
    at ret delivered start next
  have piece := full dataPos chunk.data.length (by omega)
  have crlf := full (dataPos + chunk.data.length) 2 (by omega)
  have got : min (max 1 (cut dataPos chunk.data.length)) chunk.data.length =
      chunk.data.length := Nat.min_eq_right (piece.trans (le_max_right _ _))
  obtain ⟨left, behind⟩ := next got
  rw [decide_eq_false (not_lt.mpr crlf)] at left behind
  rw [got] at ret delivered
  rw [List.take_length] at delivered
  -- Behind the chunk the loop meets whole chunks again, which are decoded as from the start.
  have whole : WholeReads net cut (r.world.taken + false.toNat) r.world.callocs false back := by
    refine ⟨?_, (pieceReads_full (by omega) full).mpr lines⟩
    intro i bounded
    rw [callocs, Nat.add_assoc]
    exact granted (1 + i) (by omega)
  obtain ⟨calls, w', stray', made, results, positions, left', -, stop'⟩ :=
    chunkCalls_whole live small (fun c member => enough c (List.mem_cons_of_mem chunk member))
      (stop ▸ cuts) left whole
  have all : ChunkCalls net httpc bound w (r :: calls) w' := .cons call (by omega) made
  have results' : (r :: calls).map (fun call => (call.ret, call.data)) =
      (chunk :: back).map (fun chunk => ((chunk.data.length : Int), chunk.data)) := by
    rw [List.map_cons, List.map_cons, results, ret, delivered]
  obtain ⟨d, loop, body, same⟩ :=
    download_of_calls live all results' (by rw [stop', stop]; exact cuts.steady) line left'
  refine ⟨d, loop, body, ?_⟩
  have dataStart : pos + chunk.line.text.length + 2 = dataPos := by omega
  have backStart : pos + chunk.bytes.length = r.world.taken + false.toNat := by
    rw [chunk.length_bytes]
    omega
  rw [Download.positions, same, List.flatMap_cons, positions, start, delivered, chunkPositions,
    dataStart, backStart]

/-- A buffer that is smaller than the next chunk is an error the caller can recover from, by calls
with a buffer large enough, if and only if the scratch block could not hold the line of the chunk
and what it left of the line gives the size again. -/
theorem small_buffer_recovers_iff (live : httpc.Live) (body : ChunkedBody)
    {front back : List Chunk} {chunk : Chunk} (chunks : body.chunks = front ++ chunk :: back)
    {w : World} (cuts : net.CutsBy cut w.stop) (full : ∀ p n, w.taken ≤ p → n ≤ cut p n)
    {stray : Bool} {rest : Bytes}
    (unread : w.unread = strayLf stray ++ (body.bytes.drop (chunkBytes front).length ++ rest))
    {size : Int} (tooSmall : BufferTooSmall net httpc w size) {bound : Nat}
    (small : bound < 2 ^ 31) (enough : ∀ c ∈ chunk :: back, c.data.length ≤ bound) :
    Decodes net httpc bound (httpcRecvResponse net httpc w .chunk false size).world
        (w.taken + stray.toNat) (chunk :: back) ↔
      Recoverable net (w.callocs + 1) stray chunk back := by
  have split : w.unread = (strayLf stray ++ chunk.line.text) ++ cr :: lf :: (chunk.data ++
      cr :: lf :: (chunkBytes back ++
        (body.lastLine.text ++ cr :: lf :: (body.trailerBytes ++ rest)))) := by
    rw [unread, ChunkedBody.bytes, chunks, chunkBytes_append, List.append_assoc, List.drop_left]
    simp [Chunk.bytes]
  have length : (strayLf stray ++ chunk.line.text).length =
      stray.toNat + chunk.line.text.length := by simp
  have nonempty := chunk.length_pos
  obtain ⟨w', world, stop, callocs, short, long⟩ :=
    unread_of_tooSmall live cuts (chunk.line.crlfFree stray) split tooSmall
  have full' : ∀ p n, w'.taken ≤ p → n ≤ cut p n := by
    intro p n behind
    apply full
    rcases Nat.lt_or_ge (strayLf stray ++ chunk.line.text).length chunkTmpSize with held | left
    · have passed := short held
      omega
    · have passed := (long left).2
      omega
  -- What is on the stream now is the data or the rest of the line, by the length of the line.
  rw [world, ← callocs]
  rcases Nat.lt_or_ge (strayLf stray ++ chunk.line.text).length chunkTmpSize with held | left
  · have passed := short held
    refine iff_of_false ?_ (fun recoverable => by have beyond := recoverable.1.long; omega)
    rintro ⟨d, loop, -, positions⟩
    obtain ⟨w'', r, made, -⟩ := ChunkCalls.of_loop loop
    -- the position of the first data byte is passed, so it is never delivered
    have first : w.taken + stray.toNat + chunk.line.text.length + 2 ∈ d.positions := by
      rw [positions, chunkPositions]
      exact List.mem_append_left _ (List.mem_range'_1.mpr ⟨le_rfl, by omega⟩)
    have beyond := made.taken_lt_position live _ first
    omega
  · obtain ⟨unread', taken⟩ := long left
    have rest_length : (lineRest stray chunk).length =
        stray.toNat + chunk.line.text.length - chunkTmpSize := by
      rw [lineRest, List.length_drop, length]
    constructor
    · rintro ⟨d, loop, -, positions⟩
      obtain ⟨w'', r, made, -⟩ := ChunkCalls.of_loop loop
      refine recoverable_of_positions live (stop ▸ cuts) full' unread' small enough made rfl ?_
      have dataStart : w.taken + stray.toNat + chunk.line.text.length + 2 =
          w'.taken + (lineRest stray chunk).length + 2 := by omega
      have backStart : w.taken + stray.toNat + chunk.bytes.length =
          w'.taken + (lineRest stray chunk).length + 2 + chunk.data.length + 2 := by
        rw [chunk.length_bytes]
        omega
      rw [chunkPositions, dataStart, backStart] at positions
      exact positions
    · intro recoverable
      exact decodes_of_recoverable live (stop ▸ cuts) full' body.lastLine unread' small enough
        recoverable (by omega)

/-- The sample body read with a buffer of one byte: from there on a buffer of sixteen does not
help. -/
theorem small_buffer_recovers_iff_abBody :
    ¬ Decodes .prompt (.plain 3) 16
      (httpcRecvResponse .prompt (.plain 3) (.opened abBody.bytes) .chunk false 1).world 0
      [abChunk] := by
  have recovers := small_buffer_recovers_iff (Httpc.plain_live (by decide)) abBody
    (show abBody.chunks = [] ++ abChunk :: [] from rfl) (Transport.prompt_cuts _)
    (fun _ _ _ => le_rfl)
    (show (World.opened abBody.bytes).unread =
      strayLf false ++ (abBody.bytes.drop (chunkBytes []).length ++ []) by decide)
    (show BufferTooSmall .prompt (.plain 3) (.opened abBody.bytes) 1 by decide +kernel)
    (show 16 < 2 ^ 31 by decide) (by decide)
  exact fun decodes => absurd (recovers.mp decodes).1 (by decide)

/-- The data `ab` of the chunk that did not fit is then taken for the size 171. -/
theorem small_buffer_loses_chunk :
    abBody.decoded = ascii "ab" ∧ BufferTooSmall .prompt (.plain 3) (.opened abBody.bytes) 1 ∧
      (httpcRecvResponse .prompt (.plain 3) (.opened abBody.bytes) .chunk false 1).world.unread =
        ascii "ab\r\n0\r\n\r\n" ∧
      chunkLen (httpcReadOneLine .prompt (.plain 3) (Transport.prompt.allocate
        (httpcRecvResponse .prompt (.plain 3) (.opened abBody.bytes) .chunk false 1).world).2
        chunkTmpSize).stored = 171 ∧
      (chunkGetRequest .prompt (.plain 3) 16
        (httpcRecvResponse .prompt (.plain 3) (.opened abBody.bytes) .chunk false 1).world).map
          (fun d => (d.body, d.last)) = some ([], httpcErrFail) :=
  ⟨by decide, by decide +kernel, by decide +kernel, by decide +kernel, by decide +kernel⟩

/-- The chunk `ab` with an extension that the scratch block breaks off in front of a `2`. -/
def brokenChunk : Chunk where
  data := abChunk.data
  nonempty := abChunk.nonempty
  line :=
    { abChunk.line with
      ext := 59 :: (List.replicate 1022 120 ++ ascii "2")
      extStart := fun b member => .inl (Option.some.inj member).symm
      extPlain := by
        intro b member
        rw [List.mem_cons, List.mem_append, List.mem_replicate] at member
        rcases member with rfl | ⟨-, rfl⟩ | two
        · decide
        · decide
        · obtain rfl := List.mem_singleton.mp two
          decide }

example : Recoverable .prompt 1 false brokenChunk [] :=
  ⟨by decide +kernel, by simp, fun _ _ => rfl⟩

end

end Hfc
