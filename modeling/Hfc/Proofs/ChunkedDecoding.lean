/-
Module: Hfc.Proofs.ChunkedDecoding
Layer: Proofs
Purpose: Decoding of a well-formed chunked body. `WholeReads` says that the data of every chunk
  comes in one piece and that its size line fits the scratch block; under it the download loop
  delivers the body chunk by chunk, and without it some body byte is swallowed or some framing byte
  delivered.
Imports: Hfc.Proofs.ChunkCall, Hfc.Spec.ChunkedBody
Main exports: Transport.CutsBy, PieceReads, WholeReads, textLine_read, sizeLine_read,
  chunkCall_text, chunkCall_data, chunkCall_chunk, chunkCall_last, chunkCalls_whole,
  first_piece_whole, wholeReads_of_positions, download_of_calls, chunked_decoding_faithful_iff
-/
import Hfc.Proofs.ChunkCall
import Hfc.Spec.ChunkedBody

namespace Hfc

open ByteText CrlfScan Numeral

/-- Up to the position `stop` the transport answers a call for `n` bytes at position `pos` with at
most `cut pos n` of them, and at least one. Every receive call that delivers anything moves the
position, so within one run the position identifies the call and `cut` stands for any fragmentation.
-/
def Transport.CutsBy (net : Transport) (cut : Nat → Nat → Nat) (stop : Nat) : Prop :=
  ∀ calls taken n, taken < stop → net.recv calls taken n = .upTo (cut taken n)

theorem Transport.CutsBy.steady {net : Transport} {cut : Nat → Nat → Nat} {stop : Nat}
    (cuts : net.CutsBy cut stop) : net.SteadyUntil stop :=
  fun calls taken n before => ⟨_, cuts calls taken n before⟩

theorem Transport.prompt_cuts (stop : Nat) : Transport.prompt.CutsBy (fun _ n => n) stop :=
  fun _ _ _ _ => rfl

/-- The transport delivers the chunks from position `pos` on in such pieces that each is read whole:
the size line, with the LF that may be left in front of it, is shorter than the scratch block by two
bytes at least, and the data comes in one piece. The flag tells whether such an LF is left; it is
when the CRLF of the chunk before came in two pieces. -/
def PieceReads (cut : Nat → Nat → Nat) : (pos : Nat) → Bool → List Chunk → Prop
  | _, _, [] => True
  | pos, stray, chunk :: chunks =>
      let dataPos := pos + chunk.line.text.length + 2
      let crlfPos := dataPos + chunk.data.length
      stray.toNat + chunk.line.text.length + 1 < chunkTmpSize ∧
        chunk.data.length ≤ max 1 (cut dataPos chunk.data.length) ∧
        PieceReads cut (pos + chunk.bytes.length) (decide (cut crlfPos 2 < 2)) chunks

instance PieceReads.decidable (cut : Nat → Nat → Nat) :
    (pos : Nat) → (stray : Bool) → (chunks : List Chunk) →
      Decidable (PieceReads cut pos stray chunks)
  | _, _, [] => .isTrue trivial
  | pos, _, chunk :: chunks =>
      have := PieceReads.decidable cut (pos + chunk.bytes.length)
        (decide (cut (pos + chunk.line.text.length + 2 + chunk.data.length) 2 < 2)) chunks
      inferInstanceAs (Decidable (_ ∧ _ ∧ _))

/-- Every chunk is read whole, and the allocation of the call that reads it succeeds. -/
def WholeReads (net : Transport) (cut : Nat → Nat → Nat) (pos callocs : Nat) (stray : Bool)
    (chunks : List Chunk) : Prop :=
  (∀ i < chunks.length, net.calloc (callocs + i) = true) ∧ PieceReads cut pos stray chunks

instance (net : Transport) (cut : Nat → Nat → Nat) (pos callocs : Nat) (stray : Bool)
    (chunks : List Chunk) : Decidable (WholeReads net cut pos callocs stray chunks) :=
  inferInstanceAs (Decidable (_ ∧ _))

theorem wholeReads_cons {net : Transport} {cut : Nat → Nat → Nat} {pos callocs : Nat} {stray : Bool}
    {chunk : Chunk} {chunks : List Chunk} :
    WholeReads net cut pos callocs stray (chunk :: chunks) ↔
      net.calloc callocs = true ∧ stray.toNat + chunk.line.text.length + 1 < chunkTmpSize ∧
        chunk.data.length ≤
          max 1 (cut (pos + chunk.line.text.length + 2) chunk.data.length) ∧
        WholeReads net cut (pos + chunk.bytes.length) (callocs + 1)
          (decide (cut (pos + chunk.line.text.length + 2 + chunk.data.length) 2 < 2)) chunks := by
  have memory : (∀ i < (chunk :: chunks).length, net.calloc (callocs + i) = true) ↔
      net.calloc callocs = true ∧ ∀ i < chunks.length, net.calloc (callocs + 1 + i) = true := by
    rw [List.length_cons, Nat.forall_lt_succ_left]
    simp only [Nat.add_zero, Nat.add_assoc, Nat.add_comm 1]
  unfold WholeReads
  rw [memory, PieceReads]
  constructor
  · rintro ⟨⟨here, later⟩, fits, piece, rest⟩
    exact ⟨here, fits, piece, later, rest⟩
  · rintro ⟨here, fits, piece, later, rest⟩
    exact ⟨⟨here, later⟩, fits, piece, rest⟩

section

variable {net : Transport} {httpc : Httpc} {cut : Nat → Nat → Nat}

/-! ### Reading a size line

A line that is on the stream and fits the scratch block is read up to its LF, and its number is the
size of the chunk. -/

/-- A line that fits the scratch block is read whole, and the size is what `strtoul` makes of it. -/
theorem textLine_read (live : httpc.Live) {w : World} (steady : net.SteadyUntil w.stop)
    {text rest : Bytes} (free : CrlfFree nul text) (noNul : nul ∉ text)
    (unread : w.unread = text ++ cr :: lf :: rest) (fits : text.length + 1 < chunkTmpSize) :
    ∃ line, httpcReadOneLine net httpc (net.allocate w).2 chunkTmpSize = line ∧
      chunkLen line.stored = toInt32 (strtoul 16 text) ∧ line.world.unread = rest ∧
      Advances (net.allocate w).2 (text.length + 2) line.world := by
  refine ⟨_, rfl, ?_⟩
  obtain ⟨stored, left⟩ := readLine_scan live (net.allocate w).2 steady
    (show 0 < chunkTmpSize by decide)
  obtain ⟨k, advances, -, -⟩ := readLine_advances live (net.allocate w).2
    (show 0 < chunkTmpSize by decide)
  have same : (net.allocate w).2.unread = text ++ cr :: lf :: rest := unread
  rw [same, scan_line free fits rest] at stored left
  have consumed := advances.length_eq
  rw [left, same] at consumed
  simp only [List.length_append, List.length_cons] at consumed
  have count : k = text.length + 2 := by omega
  refine ⟨?_, left, count ▸ advances⟩
  rw [stored, chunkLen_eq (by simp; omega), List.dropLast_concat, cstr_of_nul_free noNul]

/-- `strtoul` gives the size of a size line that is no larger than an `int`. -/
theorem SizeLine.toInt32_strtoul {n : Nat} (size : SizeLine n) (small : n < 2 ^ 31)
    (stray : Bool) : toInt32 (strtoul 16 (strayLf stray ++ size.text)) = n := by
  rw [strtoul_sizeLine, Nat.min_eq_left (by unfold ulongMax; omega)]
  exact toInt32_of_small small

/-- A size line that fits the scratch block is read whole and gives its size. -/
theorem sizeLine_read (live : httpc.Live) {w : World} (steady : net.SteadyUntil w.stop) {n : Nat}
    (size : SizeLine n) (small : n < 2 ^ 31) {stray : Bool} {rest : Bytes}
    (unread : w.unread = strayLf stray ++ (size.text ++ cr :: lf :: rest))
    (fits : stray.toNat + size.text.length + 1 < chunkTmpSize) :
    ∃ line, httpcReadOneLine net httpc (net.allocate w).2 chunkTmpSize = line ∧
      chunkLen line.stored = n ∧ line.world.unread = rest ∧
      Advances (net.allocate w).2 (stray.toNat + size.text.length + 2) line.world := by
  have length : (strayLf stray ++ size.text).length = stray.toNat + size.text.length := by simp
  rw [← List.append_assoc] at unread
  rw [← length] at fits ⊢
  rw [← size.toInt32_strtoul small stray]
  exact textLine_read live steady (size.crlfFree stray) (size.nul_free stray) unread fits

/-- However long the line of the zero-size chunk is, and however much of it is there, what is read
of it gives no size. -/
theorem lastLine_read (live : httpc.Live) {w : World} (steady : net.SteadyUntil w.stop)
    (size : SizeLine 0) {stray : Bool} {rest : Bytes}
    (part : w.unread <+: strayLf stray ++ (size.text ++ cr :: lf :: rest)) :
    chunkLen (httpcReadOneLine net httpc (net.allocate w).2 chunkTmpSize).stored = 0 := by
  obtain ⟨stored, -⟩ := readLine_scan live (net.allocate w).2 steady
    (show 0 < chunkTmpSize by decide)
  have fits : (httpcReadOneLine net httpc (net.allocate w).2 chunkTmpSize).stored.length ≤
      chunkTmpSize := by
    rw [stored]
    exact length_scan_le _ _ _
  rw [chunkLen_eq fits, stored]
  rw [← List.append_assoc] at part
  have cut := scan_dropLast_isPrefix (size.crlfFree stray) part chunkTmpSize
  have noNul : nul ∉ (scan chunkTmpSize nul w.unread).1.dropLast :=
    fun member => size.nul_free stray (cut.subset member)
  rw [Transport.allocate_unread, cstr_of_nul_free noNul, strtoul_zero_prefix size stray cut]
  rfl

/-! ### Calls on a well-formed body

What one call does in front of a chunk, by how much of the data the transport hands over at once. A
call that gets less than the chunk still takes two bytes more. -/

/-- What a call on a fragmenting transport returns while there are bytes. -/
theorem receive_cut {w : World} (cuts : net.CutsBy cut w.stop) (more : w.unread ≠ []) (n : Nat) :
    (net.receive w n).data =
        w.unread.take (min (max 1 (cut w.taken n)) (min n w.unread.length)) ∧
      (net.receive w n).ret = (min (max 1 (cut w.taken n)) (min n w.unread.length) : Nat) := by
  have before : w.taken < w.stop :=
    Nat.lt_add_of_pos_right (List.length_pos_iff.mpr more)
  exact receive_of_upTo (cuts w.recvs w.taken n before)

/-- While there are bytes, a call for some takes at least one. -/
theorem receive_takes {w : World} (cuts : net.CutsBy cut w.stop) (more : w.unread ≠ []) {n : Nat}
    (positive : 0 < n) : w.taken < (net.receive w n).world.taken := by
  obtain ⟨data, -⟩ := receive_cut cuts more n
  obtain ⟨advances, -, -, -⟩ := receive_spec net w n
  have nonempty := List.length_pos_iff.mpr more
  rw [advances.taken, data, List.length_take]
  omega

/-- The two bytes behind a chunk are taken together or one at a time, as the transport cuts them. -/
theorem crlf_read {w : World} (cuts : net.CutsBy cut w.stop) {rest : Bytes}
    (unread : w.unread = cr :: lf :: rest) :
    (net.receive w 2).world.unread = strayLf (decide (cut w.taken 2 < 2)) ++ rest ∧
      (net.receive w 2).world.taken + (decide (cut w.taken 2 < 2)).toNat = w.taken + 2 := by
  obtain ⟨data, -⟩ := receive_cut cuts (by rw [unread]; exact List.cons_ne_nil _ _) 2
  obtain ⟨advances, -, -, -⟩ := receive_spec net w 2
  have two : min 2 w.unread.length = 2 := by
    rw [unread]
    simp only [List.length_cons]
    omega
  rw [two, unread] at data
  by_cases short : cut w.taken 2 < 2
  · have one : min (max 1 (cut w.taken 2)) 2 = 1 := by omega
    rw [one] at data
    rw [advances.unread, advances.taken, data, unread]
    simp [short, strayLf]
  · have both : min (max 1 (cut w.taken 2)) 2 = 2 := by omega
    rw [both] at data
    rw [advances.unread, advances.taken, data, unread]
    simp [short, strayLf]

/-- A call that meets a line which fits and gives a size, with some bytes behind it, delivers the
head of these bytes and then takes up to two more from where that leaves the stream. -/
theorem chunkCall_text (live : httpc.Live) {w : World} (cuts : net.CutsBy cut w.stop) {n : Nat}
    {text avail : Bytes} (free : CrlfFree nul text) (noNul : nul ∉ text)
    (tells : toInt32 (strtoul 16 text) = n) (unread : w.unread = text ++ cr :: lf :: avail)
    (goesOn : avail ≠ []) (memory : net.calloc w.callocs = true)
    (fits : text.length + 1 < chunkTmpSize) {bound : Nat} (positive : 0 < n) (enough : n ≤ bound)
    {dataPos got : Nat} (dataPos_eq : dataPos = w.taken + text.length + 2)
    (got_eq : got = min (max 1 (cut dataPos n)) (min n avail.length)) :
    ∃ r w', httpcRecvResponse net httpc w .chunk false bound = r ∧ r.ret = got ∧
      r.data = avail.take got ∧ r.start = dataPos ∧ r.world = (net.receive w' 2).world ∧
      w'.unread = avail.drop got ∧ w'.taken = dataPos + got ∧ w'.callocs = w.callocs + 1 ∧
      w'.stop = w.stop := by
  obtain ⟨line, read, len, left, advances⟩ :=
    textLine_read live cuts.steady free noNul unread fits
  rw [tells] at len
  have linePos : line.world.taken = dataPos := by
    have taken : line.world.taken = w.taken + _ := advances.taken
    omega
  have lineStop : line.world.stop = w.stop := advances.stop_eq
  have cuts' : net.CutsBy cut line.world.stop := lineStop ▸ cuts
  obtain ⟨data, ret⟩ := receive_cut cuts' (by rw [left]; exact goesOn) n
  rw [left, linePos, ← got_eq] at data ret
  obtain ⟨received, -, -, -⟩ := receive_spec net line.world n
  have gotLength : (avail.take got).length = got := by
    rw [List.length_take]
    omega
  rw [data, gotLength] at received
  refine ⟨_, (net.receive line.world n).world, rfl, ?_⟩
  rw [chunkCall_taken live memory read len positive (by omega)]
  dsimp only
  rw [if_neg (by omega)]
  refine ⟨ret, data, linePos, rfl, ?_, ?_, ?_, ?_⟩
  · rw [received.unread, left]
  · rw [received.taken, linePos]
  · rw [received.callocs, advances.callocs]
    rfl
  · rw [received.stop_eq, lineStop]

/-- The same of a size line. -/
theorem chunkCall_avail (live : httpc.Live) {w : World} (cuts : net.CutsBy cut w.stop) {n : Nat}
    (size : SizeLine n) {stray : Bool} {avail : Bytes}
    (unread : w.unread = strayLf stray ++ (size.text ++ cr :: lf :: avail)) (goesOn : avail ≠ [])
    (memory : net.calloc w.callocs = true)
    (fits : stray.toNat + size.text.length + 1 < chunkTmpSize) {bound : Nat}
    (small : bound < 2 ^ 31) (positive : 0 < n) (enough : n ≤ bound) {dataPos got : Nat}
    (dataPos_eq : dataPos = w.taken + stray.toNat + size.text.length + 2)
    (got_eq : got = min (max 1 (cut dataPos n)) (min n avail.length)) :
    ∃ r w', httpcRecvResponse net httpc w .chunk false bound = r ∧ r.ret = got ∧
      r.data = avail.take got ∧ r.start = dataPos ∧ r.world = (net.receive w' 2).world ∧
      w'.unread = avail.drop got ∧ w'.taken = dataPos + got ∧ w'.callocs = w.callocs + 1 ∧
      w'.stop = w.stop := by
  have length : (strayLf stray ++ size.text).length = stray.toNat + size.text.length := by simp
  rw [← List.append_assoc] at unread
  exact chunkCall_text live cuts (size.crlfFree stray) (size.nul_free stray)
    (size.toInt32_strtoul (by omega) stray) unread goesOn memory (length ▸ fits) positive enough
    (by omega) got_eq

/-- A call that meets a line which fits and gives the size of the data behind it delivers the head
of this data. If that is all of it, the call leaves the stream at what comes behind, but for a stray
LF; if not, it has also swallowed a byte of the data. -/
theorem chunkCall_data (live : httpc.Live) {w : World} (cuts : net.CutsBy cut w.stop)
    {text data rest : Bytes} (free : CrlfFree nul text) (noNul : nul ∉ text)
    (tells : toInt32 (strtoul 16 text) = data.length)
    (unread : w.unread = text ++ cr :: lf :: (data ++ cr :: lf :: rest)) (nonempty : data ≠ [])
    (memory : net.calloc w.callocs = true) (fits : text.length + 1 < chunkTmpSize) {size : Nat}
    (enough : data.length ≤ size) {dataPos got : Nat}
    (dataPos_eq : dataPos = w.taken + text.length + 2)
    (got_eq : got = min (max 1 (cut dataPos data.length)) data.length) :
    ∃ r, httpcRecvResponse net httpc w .chunk false size = r ∧ r.ret = got ∧
      r.data = data.take got ∧ r.start = dataPos ∧ r.world.callocs = w.callocs + 1 ∧
      r.world.stop = w.stop ∧
      (got < data.length → dataPos + got < r.world.taken) ∧
      (got = data.length →
        r.world.unread = strayLf (decide (cut (dataPos + data.length) 2 < 2)) ++ rest ∧
          r.world.taken + (decide (cut (dataPos + data.length) 2 < 2)).toNat =
            dataPos + data.length + 2) := by
  have avail : min data.length (data ++ cr :: lf :: rest).length = data.length := by
    rw [List.length_append]
    omega
  have gotBound : got ≤ data.length := by omega
  obtain ⟨r, w', call, ret, delivered, start, world, left, taken, callocs, stop⟩ :=
    chunkCall_text live cuts free noNul tells unread (by simp) memory fits
      (List.length_pos_iff.mpr nonempty) enough dataPos_eq
      (show got = _ by rw [avail]; exact got_eq)
  obtain ⟨crlf, -, -, -⟩ := receive_spec net w' 2
  have cuts' : net.CutsBy cut w'.stop := stop ▸ cuts
  rw [List.take_append_of_le_length gotBound] at delivered
  rw [List.drop_append_of_le_length gotBound] at left
  refine ⟨r, call, ret, delivered, start, ?_, ?_, ?_, ?_⟩
  · rw [world, crlf.callocs, callocs]
  · rw [world, crlf.stop_eq, stop]
  · intro part
    have something : w'.unread ≠ [] := by
      rw [left]
      simp
    rw [world, ← taken]
    exact receive_takes cuts' something (by decide)
  · intro whole
    have behind : w'.unread = cr :: lf :: rest := by
      rw [left, whole, List.drop_length, List.nil_append]
    obtain ⟨left', taken'⟩ := crlf_read cuts' behind
    rw [taken, whole] at left' taken'
    rw [world]
    exact ⟨left', taken'⟩

/-- The same of a chunk of a body. -/
theorem chunkCall_chunk (live : httpc.Live) {w : World} (cuts : net.CutsBy cut w.stop)
    (chunk : Chunk) {stray : Bool} {rest : Bytes}
    (unread : w.unread = strayLf stray ++ (chunk.bytes ++ rest))
    (memory : net.calloc w.callocs = true)
    (fits : stray.toNat + chunk.line.text.length + 1 < chunkTmpSize) {size : Nat}
    (small : size < 2 ^ 31) (enough : chunk.data.length ≤ size) {dataPos got : Nat}
    (dataPos_eq : dataPos = w.taken + stray.toNat + chunk.line.text.length + 2)
    (got_eq : got = min (max 1 (cut dataPos chunk.data.length)) chunk.data.length) :
    ∃ r, httpcRecvResponse net httpc w .chunk false size = r ∧ r.ret = got ∧
      r.data = chunk.data.take got ∧ r.start = dataPos ∧ r.world.callocs = w.callocs + 1 ∧
      r.world.stop = w.stop ∧
      (got < chunk.data.length → dataPos + got < r.world.taken) ∧
      (got = chunk.data.length →
        r.world.unread =
            strayLf (decide (cut (dataPos + chunk.data.length) 2 < 2)) ++ rest ∧
          r.world.taken + (decide (cut (dataPos + chunk.data.length) 2 < 2)).toNat =
            w.taken + stray.toNat + chunk.bytes.length) := by
  have length : (strayLf stray ++ chunk.line.text).length =
      stray.toNat + chunk.line.text.length := by simp
  have split : w.unread = (strayLf stray ++ chunk.line.text) ++
      cr :: lf :: (chunk.data ++ cr :: lf :: rest) := by
    simpa [Chunk.bytes] using unread
  have total : w.taken + stray.toNat + chunk.bytes.length = dataPos + chunk.data.length + 2 := by
    rw [chunk.length_bytes]
    omega
  rw [total]
  exact chunkCall_data live cuts (chunk.line.crlfFree stray) (chunk.line.nul_free stray)
    (chunk.line.toInt32_strtoul (by omega) stray) split chunk.nonempty memory (length ▸ fits)
    enough (by omega) got_eq

/-- A call that does not fail has got its scratch block. -/
theorem memory_of_success {w : World} {size : Int} {r : BodyRecv}
    (call : httpcRecvResponse net httpc w .chunk false size = r) (succeeds : ¬ r.ret < 0) :
    net.calloc w.callocs = true := by
  by_contra noMemory
  rw [chunkCall_noMemory (Bool.eq_false_iff.mpr noMemory)] at call
  subst call
  simp [BodyRecv.failed] at succeeds

/-- A call that meets a line too long for the scratch block delivers a byte of the line or of its
CRLF, if it delivers anything. -/
theorem chunkCall_overlong (live : httpc.Live) {w : World} (cuts : net.CutsBy cut w.stop)
    {text rest : Bytes} (free : CrlfFree nul text) (unread : w.unread = text ++ cr :: lf :: rest)
    (long : chunkTmpSize ≤ text.length + 1) {size : Int} {r : BodyRecv}
    (call : httpcRecvResponse net httpc w .chunk false size = r) (succeeds : ¬ r.ret < 0) :
    r.data ≠ [] ∧ r.start < w.taken + text.length + 2 := by
  have memory := memory_of_success call succeeds
  obtain ⟨stored, left⟩ := readLine_scan live (net.allocate w).2 cuts.steady
    (show 0 < chunkTmpSize by decide)
  obtain ⟨k, advances, -, -⟩ := readLine_advances live (net.allocate w).2
    (show 0 < chunkTmpSize by decide)
  generalize read : httpcReadOneLine net httpc (net.allocate w).2 chunkTmpSize = lineRead
    at stored left advances
  -- the line fills the block, so at most its CR is taken
  have split : (net.allocate w).2.unread =
      (text ++ [cr]) ++ lf :: rest := by
    simp [unread]
  have whole : (text ++ [cr]).length = text.length + 1 := by simp
  rw [split, scan_long free.snoc_cr (by omega)] at left
  have consumed := advances.length_eq
  rw [left, split] at consumed
  simp only [List.length_append, List.length_drop, whole, List.length_cons] at consumed
  have more : lineRead.world.unread ≠ [] := by
    rw [left]
    simp
  by_cases refused : chunkLen lineRead.stored ≤ 0 ∨ size < chunkLen lineRead.stored
  · rw [chunkCall_refused memory read refused] at call
    subst call
    simp [BodyRecv.failed] at succeeds
  · obtain ⟨n, len, positive, room⟩ := size_of_accepted refused
    rw [chunkCall_taken live memory read len positive room] at call
    have cuts' : net.CutsBy cut lineRead.world.stop := by
      rw [advances.stop_eq]
      exact cuts
    obtain ⟨data, ret⟩ := receive_cut cuts' more n
    dsimp only at call
    rw [if_neg (by omega)] at call
    subst call
    have nonempty := List.length_pos_iff.mpr more
    refine ⟨?_, ?_⟩
    · apply List.length_pos_iff.mp
      dsimp only
      rw [data, List.length_take]
      omega
    · have start : lineRead.world.taken = w.taken + k := advances.taken
      dsimp only
      omega

/-- A call that meets the line of the zero-size chunk fails, and takes nothing behind that line. -/
theorem chunkCall_last (live : httpc.Live) {w : World} (steady : net.SteadyUntil w.stop)
    (line : SizeLine 0) {stray : Bool} {rest : Bytes}
    (unread : w.unread = strayLf stray ++ (line.text ++ cr :: lf :: rest)) (size : Int) :
    ∃ w', httpcRecvResponse net httpc w .chunk false size =
        .failed (if net.calloc w.callocs then httpcErrFail else httpcErrMem) w' ∧
      rest <:+ w'.unread := by
  cases memory : net.calloc w.callocs with
  | false =>
      refine ⟨_, chunkCall_noMemory memory, ?_⟩
      rw [Transport.allocate_unread, unread]
      exact ((List.suffix_append [cr, lf] rest).trans (List.suffix_append line.text _)).trans
        (List.suffix_append _ _)
  | true =>
      have zero := lastLine_read live steady line
        (by rw [unread])
      obtain ⟨-, left⟩ := readLine_scan live (net.allocate w).2 steady
        (show 0 < chunkTmpSize by decide)
      refine ⟨_, chunkCall_refused memory rfl (.inl zero.le), ?_⟩
      have same : (net.allocate w).2.unread = strayLf stray ++ line.text ++ cr :: lf :: rest := by
        rw [List.append_assoc]
        exact unread
      rw [left, same]
      exact suffix_scan (line.crlfFree stray) chunkTmpSize rest

/-! ### Whole bodies

A body decodes exactly when every chunk is handed over whole: one direction by induction on the
chunks, the other by the positions of the bytes that were delivered. -/

/-- Chunks that are read whole are delivered one call each. -/
theorem chunkCalls_whole (live : httpc.Live) {size : Nat} (small : size < 2 ^ 31)
    {chunks : List Chunk} (enough : ∀ c ∈ chunks, c.data.length ≤ size) {w : World}
    (cuts : net.CutsBy cut w.stop) {stray : Bool} {tail : Bytes}
    (unread : w.unread = strayLf stray ++ (chunkBytes chunks ++ tail))
    (whole : WholeReads net cut (w.taken + stray.toNat) w.callocs stray chunks) :
    ∃ calls w' stray', ChunkCalls net httpc size w calls w' ∧
      calls.map (fun call => (call.ret, call.data)) =
        chunks.map (fun chunk => ((chunk.data.length : Int), chunk.data)) ∧
      calls.flatMap (fun call => List.range' call.start call.data.length) =
        chunkPositions (w.taken + stray.toNat) chunks ∧
      w'.unread = strayLf stray' ++ tail ∧ w'.callocs = w.callocs + chunks.length ∧
      w'.stop = w.stop := by
  induction chunks generalizing w stray with
  | nil => exact ⟨[], w, stray, .nil w, rfl, rfl, by simpa [chunkBytes] using unread, rfl, rfl⟩
  | cons chunk chunks ih =>
      obtain ⟨memory, fits, piece, later⟩ := wholeReads_cons.mp whole
      obtain ⟨r, call, ret, data, start, callocs, stop, -, next⟩ :=
        chunkCall_chunk live cuts chunk
          (by simpa using unread) memory fits small (enough chunk (by simp)) rfl rfl
      have all : min (max 1 (cut (w.taken + stray.toNat + chunk.line.text.length + 2)
          chunk.data.length)) chunk.data.length = chunk.data.length :=
        Nat.min_eq_right piece
      rw [all] at ret data next
      obtain ⟨left, pos⟩ := next rfl
      rw [List.take_length] at data
      obtain ⟨calls, w', stray', made, results, positions, unread', callocs', stop'⟩ :=
        ih (fun c member => enough c (List.mem_cons_of_mem chunk member))
          (by rw [stop]; exact cuts) left (by rw [pos, callocs]; exact later)
      refine ⟨r :: calls, w', stray', .cons call (by omega) made, ?_, ?_, unread', ?_, ?_⟩
      · rw [List.map_cons, List.map_cons, results, ret, data]
      · rw [List.flatMap_cons, positions, start, data, pos]
        rfl
      · rw [callocs', callocs, List.length_cons]
        omega
      · rw [stop', stop]

/-- A run of positions that starts with a piece of a longer run and goes on behind it cannot go on
with the rest of that run, once a position was skipped. -/
theorem first_piece_whole {start got len next : Nat} {later later' : List Nat}
    (bound : got ≤ len) (same : List.range' start got ++ later = List.range' start len ++ later')
    (skips : got < len → start + got < next) (behind : ∀ p ∈ later, next ≤ p) : got = len := by
  by_contra different
  have part : got < len := by omega
  obtain ⟨n, rfl⟩ : ∃ n, len = got + (n + 1) := ⟨len - got - 1, by omega⟩
  rw [← List.range'_append_1, List.append_assoc] at same
  have rest := List.append_cancel_left same
  have skipped := behind (start + got) (by rw [rest, List.range'_succ]; simp)
  have passed := skips part
  omega

/-- Equal runs of positions start at the same position. -/
theorem start_eq_of_positions {start start' len len' : Nat} {later later' : List Nat}
    (positive : 0 < len) (positive' : 0 < len')
    (same : List.range' start len ++ later = List.range' start' len' ++ later') :
    start = start' := by
  obtain ⟨k, rfl⟩ := Nat.exists_eq_add_of_lt positive
  obtain ⟨m, rfl⟩ := Nat.exists_eq_add_of_lt positive'
  rw [List.range'_succ, List.range'_succ] at same
  exact (List.cons.inj same).1

/-- When the first position delivered is that of the data behind a line, the line fits the scratch
block. -/
theorem fits_of_positions (live : httpc.Live) {w : World} (cuts : net.CutsBy cut w.stop)
    {text rest : Bytes} (free : CrlfFree nul text) (unread : w.unread = text ++ cr :: lf :: rest)
    {size : Int} {r : BodyRecv} (call : httpcRecvResponse net httpc w .chunk false size = r)
    (succeeds : ¬ r.ret < 0) {dataPos len : Nat} (dataPos_eq : dataPos = w.taken + text.length + 2)
    (positive : 0 < len) {delivered later : List Nat}
    (positions : List.range' r.start r.data.length ++ delivered =
      List.range' dataPos len ++ later) : text.length + 1 < chunkTmpSize := by
  by_contra overlong
  obtain ⟨something, early⟩ :=
    chunkCall_overlong live cuts free unread (not_lt.mp overlong) call succeeds
  have start := start_eq_of_positions (List.length_pos_iff.mpr something) positive positions
  omega

/-- When the positions delivered are those of the body, its chunks were read whole. -/
theorem wholeReads_of_positions (live : httpc.Live) {size : Nat} (small : size < 2 ^ 31)
    {chunks : List Chunk} (enough : ∀ c ∈ chunks, c.data.length ≤ size) {w w' : World}
    (cuts : net.CutsBy cut w.stop) {stray : Bool} {tail : Bytes}
    (unread : w.unread = strayLf stray ++ (chunkBytes chunks ++ tail))
    {calls : List BodyRecv} (made : ChunkCalls net httpc size w calls w')
    (positions : calls.flatMap (fun call => List.range' call.start call.data.length) =
      chunkPositions (w.taken + stray.toNat) chunks) :
    WholeReads net cut (w.taken + stray.toNat) w.callocs stray chunks := by
  induction chunks generalizing w stray calls with
  | nil => exact ⟨fun i below => absurd below (Nat.not_lt_zero i), trivial⟩
  | cons chunk chunks ih =>
      have nonempty := chunk.length_pos
      cases made with
      | nil =>
          have lengths := congrArg List.length positions
          simp only [List.flatMap_nil, List.length_nil, chunkPositions, List.length_append,
            List.length_range'] at lengths
          omega
      | @cons _ _ r calls call succeeds rest =>
          have memory := memory_of_success call succeeds
          simp only [List.flatMap_cons, chunkPositions] at positions
          have length : (strayLf stray ++ chunk.line.text).length =
              stray.toNat + chunk.line.text.length := by simp
          have fits := fits_of_positions live cuts (chunk.line.crlfFree stray)
            (by simpa [Chunk.bytes] using unread) call succeeds (by omega) nonempty positions
          rw [length] at fits
          obtain ⟨r', call', -, data, start, callocs, stop, part, next⟩ :=
            chunkCall_chunk live cuts chunk
              (by simpa using unread) memory fits small (enough chunk (by simp)) rfl rfl
          obtain rfl : r' = r := call'.symm.trans call
          have gotLength : r'.data.length =
              min (max 1 (cut (w.taken + stray.toNat + chunk.line.text.length + 2)
                chunk.data.length)) chunk.data.length := by
            rw [data, List.length_take, Nat.min_assoc, Nat.min_self]
          -- Bytes lost behind a part of the data would be missing from the positions, so it came
          -- whole.
          have whole := first_piece_whole (gotLength.trans_le (Nat.min_le_right _ _))
            (start ▸ positions) (by rw [gotLength]; exact part) (rest.taken_le_position live)
          obtain ⟨left, pos⟩ := next (gotLength.symm.trans whole)
          rw [start, whole] at positions
          have later := ih (fun c member => enough c (List.mem_cons_of_mem chunk member))
            (by rw [stop]; exact cuts) left rest
            (by rw [pos]; exact List.append_cancel_left positions)
          rw [pos, callocs] at later
          exact wholeReads_cons.mpr ⟨memory, fits, by omega, later⟩

/-- Calls that deliver some chunks up to the line of the zero-size chunk make up the whole download.
-/
theorem download_of_calls (live : httpc.Live) {size : Nat} {w w' : World} {calls : List BodyRecv}
    {chunks : List Chunk} (made : ChunkCalls net httpc size w calls w')
    (results : calls.map (fun call => (call.ret, call.data)) =
      chunks.map (fun chunk => ((chunk.data.length : Int), chunk.data)))
    (steady : net.SteadyUntil w'.stop) {stray : Bool} (line : SizeLine 0) {rest : Bytes}
    (left : w'.unread = strayLf stray ++ (line.text ++ cr :: lf :: rest)) :
    ∃ d, chunkGetRequest net httpc size w = some d ∧ d.body = chunks.flatMap Chunk.data ∧
      d.calls = calls := by
  obtain ⟨w'', call, -⟩ := chunkCall_last live steady line left size
  have fails : (if net.calloc w'.callocs then httpcErrFail else httpcErrMem) < 0 := by
    split <;> decide
  have bound := made.length_le live
  refine ⟨_, made.loop_eq call fails (by omega), ?_, rfl⟩
  have bodies := congrArg (List.flatMap Prod.snd) results
  simpa [Download.body, List.flatMap_map] using bodies

/-- Decoding is faithful exactly when every chunk is read whole: the bytes delivered are the body,
and they come from where the body stands in the stream. -/
theorem chunked_decoding_faithful_iff (live : httpc.Live) {size : Nat} (small : size < 2 ^ 31)
    (body : ChunkedBody) (enough : ∀ c ∈ body.chunks, c.data.length ≤ size) {w : World}
    (cuts : net.CutsBy cut w.stop) {rest : Bytes} (unread : w.unread = body.bytes ++ rest) :
    (∃ d, chunkGetRequest net httpc size w = some d ∧ d.body = body.decoded ∧
      d.positions = body.positions w.taken) ↔
    WholeReads net cut w.taken w.callocs false body.chunks := by
  have unread' : w.unread = strayLf false ++ (chunkBytes body.chunks ++
      (body.lastLine.text ++ cr :: lf :: (body.trailerBytes ++ rest))) := by
    simpa [ChunkedBody.bytes, strayLf] using unread
  constructor
  · rintro ⟨d, loop, -, positions⟩
    obtain ⟨w', r, made, -⟩ := ChunkCalls.of_loop loop
    exact wholeReads_of_positions live small enough cuts unread' made positions
  · intro whole
    obtain ⟨calls, w', stray', made, results, positions, left, -, stop⟩ :=
      chunkCalls_whole live small enough cuts unread' whole
    obtain ⟨d, loop, bodies, same⟩ :=
      download_of_calls live made results (by rw [stop]; exact cuts.steady) body.lastLine left
    exact ⟨d, loop, bodies, by rw [Download.positions, same, positions]; rfl⟩

/-- On a transport that does what it is asked to, the sample body is delivered. -/
theorem chunked_decoding_faithful_iff_prompt :
    ∃ d, chunkGetRequest .prompt (.plain 3) 16 (.opened abBody.bytes) = some d ∧
      d.body = ascii "ab" ∧ d.positions = [3, 4] :=
  (chunked_decoding_faithful_iff (Httpc.plain_live (by decide)) (by decide) abBody (by decide)
    (Transport.prompt_cuts _) (by rfl)).mpr
    (by decide)

/-- The transport that delivers what it is asked for, but at one position a single byte. -/
def Transport.splitAt (pos : Nat) : Transport :=
  { Transport.prompt with recv := fun _ taken n => .upTo (if taken = pos then 1 else n) }

/-- When the two data bytes of the sample body come one at a time, the second one is taken for the
CRLF and lost. -/
theorem chunked_decoding_loses_split_data :
    (Transport.splitAt 3).CutsBy (fun pos n => if pos = 3 then 1 else n) abBody.bytes.length ∧
      (∀ c ∈ abBody.chunks, c.data.length ≤ 16) ∧ abBody.decoded = ascii "ab" ∧
      (chunkGetRequest (.splitAt 3) (.plain 3) 16 (.opened abBody.bytes)).map Download.body =
        some (ascii "a") :=
  ⟨fun _ _ _ _ => rfl, by decide, by decide, by decide +kernel⟩

end

end Hfc
