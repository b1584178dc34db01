/-
Module: Hfc.Proofs.ChunkedEnd
Layer: Proofs
Purpose: How a chunked body ends. The call that meets the zero-size line fails like one that meets
  the end of the stream or a line without a size, so a body that lost no data looks complete however
  it was damaged.
Imports: Hfc.Proofs.ChunkedDecoding
Main exports: Observes, Damage, SeesCut, Damage.Shows, chunked_damage_shows
-/
import Hfc.Proofs.ChunkedDecoding

namespace Hfc

open ByteText CrlfScan Numeral

/-! ### What a caller observes

The bytes a caller has got and the way the loop ended. Both are determined by the calls up to the
first that fails. -/

/-- From `w` the download loop shows its caller these results and bytes. -/
def Observes (net : Transport) (httpc : Httpc) (size : Int) (w : World)
    (shown : List (Int × Bytes)) : Prop :=
  ∃ calls w' r, ChunkCalls net httpc size w calls w' ∧
    httpcRecvResponse net httpc w' .chunk false size = r ∧ r.ret < 0 ∧
    shown = calls.map (fun call => (call.ret, call.data)) ++ [(r.ret, [])]

section

variable {net : Transport} {httpc : Httpc} {size : Int} {w : World} {shown : List (Int × Bytes)}

theorem Observes.of_loop {d : Download} (loop : chunkGetRequest net httpc size w = some d) :
    Observes net httpc size w d.observed := by
  obtain ⟨w', r, made, call, fails, last, -⟩ := ChunkCalls.of_loop loop
  exact ⟨d.calls, w', r, made, call, fails, by rw [Download.observed, last]⟩

/-- A call that fails is the last thing observed. -/
theorem Observes.of_failure {r : BodyRecv} (observes : Observes net httpc size w shown)
    (call : httpcRecvResponse net httpc w .chunk false size = r) (fails : r.ret < 0) :
    shown = [(r.ret, [])] := by
  obtain ⟨calls, w', r', made, call', -, rfl⟩ := observes
  cases made with
  | nil =>
      rw [call] at call'
      rw [call']
      rfl
  | cons first succeeds rest =>
      rw [call] at first
      exact absurd (first ▸ fails) succeeds

/-- A call that does not fail is observed first. -/
theorem Observes.of_success {r : BodyRecv} (observes : Observes net httpc size w shown)
    (call : httpcRecvResponse net httpc w .chunk false size = r) (succeeds : ¬ r.ret < 0) :
    ∃ later, shown = (r.ret, r.data) :: later ∧ Observes net httpc size r.world later := by
  obtain ⟨calls, w', r', made, call', fails, rfl⟩ := observes
  cases made with
  | nil =>
      rw [call] at call'
      exact absurd (call' ▸ fails) succeeds
  | cons first succeeds' rest =>
      rw [call] at first
      subst first
      exact ⟨_, rfl, _, w', r', rest, call', fails, rfl⟩

end

/-! ### Calls on a stream that is cut

A stream cut somewhere behaves like the whole one up to the call that meets the cut. -/

section

variable {net : Transport} {httpc : Httpc} {cut : Nat → Nat → Nat}

/-- Where the stream ends in a line or right behind it, the reader takes all of it. -/
theorem readLine_cut (live : httpc.Live) {w : World} (steady : net.SteadyUntil w.stop)
    {line : Bytes} (free : CrlfFree nul line) (part : w.unread <+: line ++ [cr, lf]) {size : Nat}
    (fits : line.length + 1 < size) :
    (httpcReadOneLine net httpc w size).world.unread = [] := by
  obtain ⟨-, left⟩ := readLine_scan live w steady (show 0 < size by omega)
  have split : line ++ [cr, lf] = (line ++ [cr]) ++ [lf] := by simp
  rw [left]
  rw [split] at part
  rcases List.prefix_concat_iff.mp part with whole | short
  · rw [whole, List.append_assoc]
    exact congrArg Prod.snd (scan_line free fits [])
  · have uncut : CrlfFree nul w.unread := by
      rw [List.prefix_iff_eq_take.mp short]
      exact free.snoc_cr.take _
    have length := short.length_le
    rw [List.length_append, List.length_singleton] at length
    rw [scan_of_free uncut, List.drop_of_length_le (by omega)]

/-- A call that finds no data behind the size line delivers none. -/
theorem chunkCall_nothing (live : httpc.Live) {w : World} {size : Int} {line : LineRead}
    (memory : net.calloc w.callocs = true)
    (read : httpcReadOneLine net httpc (net.allocate w).2 chunkTmpSize = line)
    (left : line.world.unread = []) :
    (httpcRecvResponse net httpc w .chunk false size).ret ≤ 0 := by
  by_cases refused : chunkLen line.stored ≤ 0 ∨ size < chunkLen line.stored
  · rw [chunkCall_refused memory read refused]
    exact (show (-1 : Int) ≤ 0 by decide)
  · obtain ⟨n, len, positive, room⟩ := size_of_accepted refused
    rw [chunkCall_taken live memory read len positive room]
    dsimp only
    split
    · exact (show (-1 : Int) ≤ 0 by decide)
    · exact (receive_at_end left).2

/-- A chunk of which some data is missing is not delivered with its own length. -/
theorem chunkCall_cut (live : httpc.Live) {w : World} (cuts : net.CutsBy cut w.stop) (chunk : Chunk)
    {stray : Bool} {rest : Bytes} {q : Nat}
    (unread : w.unread = (strayLf stray ++ (chunk.bytes ++ rest)).take q)
    (missing : q < stray.toNat + chunk.line.text.length + 2 + chunk.data.length)
    (fits : stray.toNat + chunk.line.text.length + 1 < chunkTmpSize) {size : Nat}
    (small : size < 2 ^ 31) (enough : chunk.data.length ≤ size) :
    (httpcRecvResponse net httpc w .chunk false size).ret ≠ chunk.data.length := by
  have positive := chunk.length_pos
  have length : (strayLf stray ++ chunk.line.text).length =
      stray.toNat + chunk.line.text.length := by
    simp
  cases memory : net.calloc w.callocs with
  | false =>
      rw [chunkCall_noMemory memory]
      exact (show (-3 : Int) < chunk.data.length by omega).ne
  | true =>
      have split : strayLf stray ++ (chunk.bytes ++ rest) =
          (strayLf stray ++ chunk.line.text ++ [cr, lf]) ++ (chunk.data ++ cr :: lf :: rest) := by
        simp [Chunk.bytes]
      by_cases inLine : q ≤ stray.toNat + chunk.line.text.length + 2
      -- The stream ends in the line, which then gives no size.
      · have part : w.unread <+: strayLf stray ++ chunk.line.text ++ [cr, lf] := by
          rw [unread, split, List.take_append_of_le_length]
          · exact List.take_prefix _ _
          · rwa [List.length_append, length]
        have left := readLine_cut live (w := (net.allocate w).2) cuts.steady
          (chunk.line.crlfFree stray) part (by rw [length]; exact fits)
        have ret : (httpcRecvResponse net httpc w .chunk false size).ret ≤ 0 :=
          chunkCall_nothing live memory rfl left
        omega
      -- It ends in the data, of which `m` bytes are there.
      · obtain ⟨m, rfl⟩ : ∃ m, q = (strayLf stray ++ chunk.line.text ++ [cr, lf]).length + m :=
          ⟨q - (stray.toNat + chunk.line.text.length + 2), by simp; omega⟩
        rw [List.length_append, length] at missing inLine
        have short : m < chunk.data.length := by
          simp only [List.length_cons, List.length_nil] at missing
          omega
        have something : 0 < m := by
          simp only [List.length_cons, List.length_nil] at inLine
          omega
        rw [split, List.take_length_add_append, List.take_append_of_le_length short.le] at unread
        have there : (chunk.data.take m).length = m := by
          rw [List.length_take]
          omega
        obtain ⟨r, w', call, ret, -⟩ :=
          chunkCall_avail live cuts chunk.line (by simpa using unread)
            (List.length_pos_iff.mp (by rw [there]; exact something)) memory fits small positive
            enough rfl rfl
        rw [call, ret, there]
        omega

/-- A single byte is taken by a call for two. -/
theorem receive_single {w : World} (cuts : net.CutsBy cut w.stop) (single : w.unread.length ≤ 1) :
    (net.receive w 2).world.unread = [] := by
  obtain ⟨advances, -, -, -⟩ := receive_spec net w 2
  rw [advances.unread]
  apply List.drop_of_length_le
  by_cases nothing : w.unread = []
  · rw [nothing]
    exact Nat.zero_le _
  · have positive := List.length_pos_iff.mpr nothing
    obtain ⟨data, -⟩ := receive_cut cuts nothing 2
    rw [data, List.length_take]
    omega

/-- A call for the two bytes behind a chunk, on a stream that is cut `m` bytes behind its data. -/
theorem crlf_read_cut {w : World} (cuts : net.CutsBy cut w.stop) {rest : Bytes} {m : Nat}
    (unread : w.unread = (cr :: lf :: rest).take m) :
    (net.receive w 2).world.unread =
        (strayLf (decide (cut w.taken 2 < 2)) ++ rest).take
          (m + (decide (cut w.taken 2 < 2)).toNat - 2) ∧
      (2 ≤ m →
        (net.receive w 2).world.taken + (decide (cut w.taken 2 < 2)).toNat = w.taken + 2) := by
  by_cases both : 2 ≤ m
  · obtain ⟨k, rfl⟩ : ∃ k, m = k + 2 := ⟨m - 2, by omega⟩
    rw [List.take_succ_cons, List.take_succ_cons] at unread
    obtain ⟨left, taken⟩ := crlf_read cuts unread
    refine ⟨?_, fun _ => taken⟩
    have count : k + 2 + (decide (cut w.taken 2 < 2)).toNat - 2 =
        (strayLf (decide (cut w.taken 2 < 2))).length + k := by
      rw [length_strayLf]
      omega
    rw [left, count, List.take_length_add_append]
  · have taken : m + (decide (cut w.taken 2 < 2)).toNat - 2 = 0 := by
      have one := Bool.toNat_le (decide (cut w.taken 2 < 2))
      omega
    refine ⟨?_, fun enough => absurd enough both⟩
    rw [taken, List.take_zero]
    apply receive_single cuts
    rw [unread, List.length_take]
    omega

/-- The connection `w'` is `w` with the stream cut at position `stop`. -/
structure CutRun (w w' : World) (stop : Nat) : Prop where
  unread : w'.unread = w.unread.take (stop - w.taken)
  taken : w.taken < stop → w'.taken = w.taken
  callocs : w'.callocs = w.callocs

/-- A cut `m` bytes behind the data of a chunk leaves the chunk on the connection and `m` bytes of
what follows. -/
theorem CutRun.unread_data {w w' : World} {chunk : Chunk} {stray : Bool} {rest : Bytes}
    {dataPos m : Nat} (run : CutRun w w' (dataPos + chunk.data.length + m))
    (unread : w.unread = strayLf stray ++ (chunk.bytes ++ rest))
    (dataPos_eq : dataPos = w.taken + stray.toNat + chunk.line.text.length + 2) :
    w'.unread = strayLf stray ++
      (chunk.line.text ++ cr :: lf :: (chunk.data ++ (cr :: lf :: rest).take m)) := by
  have split : strayLf stray ++ (chunk.bytes ++ rest) =
      (strayLf stray ++ chunk.line.text ++ cr :: lf :: chunk.data) ++ cr :: lf :: rest := by
    simp [Chunk.bytes]
  have front : dataPos + chunk.data.length + m - w.taken =
      (strayLf stray ++ chunk.line.text ++ cr :: lf :: chunk.data).length + m := by
    simp only [List.length_append, List.length_cons, length_strayLf]
    omega
  rw [run.unread, unread, split, front, List.take_length_add_append]
  simp

/-- A chunk that is read whole and lies in front of the cut is delivered on both connections, and
the cut is all that tells them apart afterwards. -/
theorem chunkCall_uncut {net' : Transport} (live : httpc.Live) (calloc : net'.calloc = net.calloc)
    {w w' : World} (cuts : net.CutsBy cut w.stop) (cuts' : net'.CutsBy cut w'.stop) {stop : Nat}
    (run : CutRun w w' stop) (chunk : Chunk) {stray : Bool} {rest : Bytes}
    (unread : w.unread = strayLf stray ++ (chunk.bytes ++ rest))
    (memory : net.calloc w.callocs = true)
    (fits : stray.toNat + chunk.line.text.length + 1 < chunkTmpSize) {dataPos : Nat}
    (dataPos_eq : dataPos = w.taken + stray.toNat + chunk.line.text.length + 2)
    (piece : chunk.data.length ≤ max 1 (cut dataPos chunk.data.length))
    (there : dataPos + chunk.data.length ≤ stop) {size : Nat} (small : size < 2 ^ 31)
    (enough : chunk.data.length ≤ size) :
    ∃ r r', httpcRecvResponse net httpc w .chunk false size = r ∧
      httpcRecvResponse net' httpc w' .chunk false size = r' ∧
      r.ret = chunk.data.length ∧ r.data = chunk.data ∧
      r'.ret = chunk.data.length ∧ r'.data = chunk.data ∧
      CutRun r.world r'.world stop ∧
      r.world.unread = strayLf (decide (cut (dataPos + chunk.data.length) 2 < 2)) ++ rest ∧
      r.world.taken + (decide (cut (dataPos + chunk.data.length) 2 < 2)).toNat =
        w.taken + stray.toNat + chunk.bytes.length ∧
      r.world.callocs = w.callocs + 1 ∧ r.world.stop = w.stop ∧ r'.world.stop = w'.stop := by
  have positive := chunk.length_pos
  have whole : chunk.data.length =
      min (max 1 (cut dataPos chunk.data.length)) chunk.data.length := (Nat.min_eq_right piece).symm
  obtain ⟨r, call, ret, data, -, callocs, sameStop, -, next⟩ :=
    chunkCall_chunk live cuts chunk unread memory fits small enough dataPos_eq whole
  obtain ⟨left, taken⟩ := next rfl
  rw [List.take_length] at data
  have taken' : w'.taken = w.taken := run.taken (by omega)
  -- the cut leaves `m` bytes behind the data
  obtain ⟨m, rfl⟩ : ∃ m, stop = dataPos + chunk.data.length + m :=
    ⟨stop - (dataPos + chunk.data.length), by omega⟩
  have unread' := run.unread_data unread dataPos_eq
  have avail : min chunk.data.length (chunk.data ++ (cr :: lf :: rest).take m).length =
      chunk.data.length := by
    rw [List.length_append]
    omega
  obtain ⟨r', w₁, call', ret', data', -, world, left', at', callocs', sameStop'⟩ :=
    chunkCall_avail live cuts' chunk.line unread'
      (List.append_ne_nil_of_left_ne_nil chunk.nonempty _)
      (by rw [calloc, run.callocs]; exact memory) fits small positive enough
      (show dataPos = _ by rw [taken']; exact dataPos_eq)
      (show chunk.data.length = _ by rw [avail]; exact whole)
  rw [List.take_left] at data'
  rw [List.drop_left] at left'
  obtain ⟨crlf, -, -, -⟩ := receive_spec net' w₁ 2
  obtain ⟨left₂, taken₂⟩ := crlf_read_cut (sameStop' ▸ cuts') left'
  rw [at'] at left₂ taken₂
  refine ⟨r, r', call, call', ret, data, ret', data', ⟨?_, ?_, ?_⟩, left, taken, callocs,
    sameStop, ?_⟩
  · rw [world, left₂, left]
    rw [chunk.length_bytes] at taken
    congr 1
    omega
  · intro before
    rw [chunk.length_bytes] at taken
    have one := Bool.toNat_le (decide (cut (dataPos + chunk.data.length) 2 < 2))
    have more := taken₂ (by omega)
    rw [world]
    omega
  · rw [world, crlf.callocs, callocs', callocs, run.callocs]
  · rw [world, crlf.stop_eq, sameStop']

/-! ### Calls that report the end

A line without a size, the last line of a body and the end of the stream all give the same result to
the caller. -/

/-- The next call fails with the one result that ends a body, an end of stream and a bad size line.
-/
def EndsHere (net : Transport) (httpc : Httpc) (size : Int) (w : World) : Prop :=
  ∃ w', httpcRecvResponse net httpc w .chunk false size =
    .failed (if net.calloc w.callocs then httpcErrFail else httpcErrMem) w'

theorem endsHere_of_noSize {w : World} (size : Int)
    (noSize : chunkLen (httpcReadOneLine net httpc (net.allocate w).2 chunkTmpSize).stored = 0) :
    EndsHere net httpc size w := by
  cases memory : net.calloc w.callocs with
  | false => exact ⟨_, by rw [memory]; exact chunkCall_noMemory memory⟩
  | true => exact ⟨_, by rw [memory]; exact chunkCall_refused memory rfl (.inl noSize.le)⟩

/-- The zero-size line ends a body, whole or cut short. -/
theorem endsHere_lastLine (live : httpc.Live) {w : World} (steady : net.SteadyUntil w.stop)
    (line : SizeLine 0) {stray : Bool} {rest : Bytes}
    (part : w.unread <+: strayLf stray ++ (line.text ++ cr :: lf :: rest)) (size : Int) :
    EndsHere net httpc size w :=
  endsHere_of_noSize size (lastLine_read live steady line part)

/-- A line without a hexadecimal digit gives no size, however long it is. -/
theorem endsHere_noDigit (live : httpc.Live) {w : World} (steady : net.SteadyUntil w.stop)
    {text rest : Bytes} (free : CrlfFree nul text) (noDigit : ∀ b ∈ text, digitVal 16 b = none)
    (unread : w.unread = text ++ cr :: lf :: rest) (size : Int) : EndsHere net httpc size w := by
  apply endsHere_of_noSize
  obtain ⟨stored, -⟩ := readLine_scan live (net.allocate w).2 steady
    (show 0 < chunkTmpSize by decide)
  have fits := length_scan_le chunkTmpSize nul (net.allocate w).2.unread
  rw [← stored] at fits
  have part : w.unread <+: text ++ cr :: lf :: rest := by
    rw [unread]
  have cut := scan_dropLast_isPrefix free part chunkTmpSize
  have noDigit' : ∀ b ∈ cstr (scan chunkTmpSize nul w.unread).1.dropLast, digitVal 16 b = none :=
    fun b member => noDigit b (cut.subset (List.takeWhile_subset _ member))
  rw [chunkLen_eq fits, stored, Transport.allocate_unread, strtoul_of_no_digit noDigit']
  rfl

/-- What is observed where a body ends. -/
theorem Observes.of_end {size : Int} {w : World} {shown : List (Int × Bytes)}
    (observes : Observes net httpc size w shown) (ends : EndsHere net httpc size w) :
    shown = [(if net.calloc w.callocs then httpcErrFail else httpcErrMem, [])] := by
  obtain ⟨w', call⟩ := ends
  exact observes.of_failure call (by simp only [BodyRecv.failed]; split <;> decide)

/-- Where the allocation fails, nothing more is observed, whatever the stream holds. -/
theorem Observes.of_noMemory {size : Int} {w : World} {shown : List (Int × Bytes)}
    (observes : Observes net httpc size w shown) (memory : net.calloc w.callocs = false) :
    shown = [(httpcErrMem, [])] :=
  observes.of_failure (chunkCall_noMemory memory) (by simp [BodyRecv.failed])

end

/-! ### Damaged bodies

The two kinds of damage: the stream is cut in front of the end of the zero-size line, or a line
without a digit stands in the place of that line. -/

/-- A stream that is not the body: a prefix of it that lacks some of the zero-size line, or one with
a line without any hexadecimal digit in the place of that line. -/
inductive Damage (body : ChunkedBody) where
  | cutAt (p : Nat)
      (early : p < (chunkBytes body.chunks).length + body.lastLine.text.length + 2)
  | noSize (text rest : Bytes) (line : CrlfFree nul text)
      (noDigit : ∀ b ∈ text, digitVal 16 b = none)

/-- The damaged stream. -/
def Damage.bytes {body : ChunkedBody} : Damage body → Bytes
  | .cutAt p _ => body.bytes.take p
  | .noSize text rest _ _ => chunkBytes body.chunks ++ (text ++ cr :: lf :: rest)

/-- The caller gets to a chunk of which some data is missing when the stream is cut at position
`stop`: every chunk up to that one is read whole, and the allocation of each call succeeds. -/
def SeesCut (calloc : Nat → Bool) (cut : Nat → Nat → Nat) (stop : Nat) :
    (pos callocs : Nat) → Bool → List Chunk → Prop
  | _, _, _, [] => False
  | pos, callocs, stray, chunk :: chunks =>
      let dataPos := pos + chunk.line.text.length + 2
      let crlfPos := dataPos + chunk.data.length
      calloc callocs = true ∧ stray.toNat + chunk.line.text.length + 1 < chunkTmpSize ∧
        chunk.data.length ≤ max 1 (cut dataPos chunk.data.length) ∧
        (stop < crlfPos ∨
          SeesCut calloc cut stop (pos + chunk.bytes.length) (callocs + 1)
            (decide (cut crlfPos 2 < 2)) chunks)

instance SeesCut.decidable (calloc : Nat → Bool) (cut : Nat → Nat → Nat) (stop : Nat) :
    (pos callocs : Nat) → (stray : Bool) → (chunks : List Chunk) →
      Decidable (SeesCut calloc cut stop pos callocs stray chunks)
  | _, _, _, [] => .isFalse id
  | pos, callocs, _, chunk :: chunks =>
      have := SeesCut.decidable calloc cut stop (pos + chunk.bytes.length) (callocs + 1)
        (decide (cut (pos + chunk.line.text.length + 2 + chunk.data.length) 2 < 2)) chunks
      inferInstanceAs (Decidable (_ ∧ _ ∧ _ ∧ (_ ∨ _)))

/-- The damage cost the caller some data: the stream that starts at position `pos` is cut in front
of the end of some chunk's data, and the caller gets there. -/
def Damage.Shows {body : ChunkedBody} (calloc : Nat → Bool) (cut : Nat → Nat → Nat)
    (pos callocs : Nat) : Damage body → Prop
  | .cutAt p _ => SeesCut calloc cut (pos + p) pos callocs false body.chunks
  | .noSize .. => False

/-! A line in the place of the zero-size line may have the LF of the chunk in front of it ahead as
well. -/

theorem crlfFree_strayLf {text : Bytes} (free : CrlfFree nul text) (stray : Bool) :
    CrlfFree nul (strayLf stray ++ text) := by
  cases stray with
  | false => exact free
  | true => exact ⟨by decide, free.of_ne_cr (by decide)⟩

theorem noDigit_strayLf {text : Bytes} (stray : Bool)
    (noDigit : ∀ b ∈ text, digitVal 16 b = none) :
    ∀ b ∈ strayLf stray ++ text, digitVal 16 b = none := by
  cases stray with
  | false => exact noDigit
  | true => exact List.forall_mem_cons.mpr ⟨by decide, noDigit⟩

instance (body : ChunkedBody) (calloc : Nat → Bool) (cut : Nat → Nat → Nat) (pos callocs : Nat)
    (damage : Damage body) : Decidable (damage.Shows calloc cut pos callocs) :=
  match damage with
  | .cutAt _ _ => inferInstanceAs (Decidable (SeesCut _ _ _ _ _ _ _))
  | .noSize .. => .isFalse id

/-- What a caller observes of a body whose chunks are all there: one result for each chunk, and then
the result that ends every body. -/
def shownOf (calloc : Nat → Bool) : (callocs : Nat) → List Chunk → List (Int × Bytes)
  | callocs, [] => [(if calloc callocs then httpcErrFail else httpcErrMem, [])]
  | callocs, chunk :: chunks =>
      if calloc callocs then
        (chunk.data.length, chunk.data) :: shownOf calloc (callocs + 1) chunks
      else [(httpcErrMem, [])]

section

variable {net net' : Transport} {httpc : Httpc} {cut : Nat → Nat → Nat} {size : Nat}

/-- A cut that costs data is observed. -/
theorem observes_ne_of_seesCut (live : httpc.Live) (small : size < 2 ^ 31)
    (calloc : net'.calloc = net.calloc) {chunks : List Chunk}
    (enough : ∀ c ∈ chunks, c.data.length ≤ size) {w w' : World} (cuts : net.CutsBy cut w.stop)
    (cuts' : net'.CutsBy cut w'.stop) {stray : Bool} {tail : Bytes} {stop : Nat}
    (unread : w.unread = strayLf stray ++ (chunkBytes chunks ++ tail)) (run : CutRun w w' stop)
    (sees : SeesCut net.calloc cut stop (w.taken + stray.toNat) w.callocs stray chunks)
    {shown shown' : List (Int × Bytes)} (observes : Observes net httpc size w shown)
    (observes' : Observes net' httpc size w' shown') : shown ≠ shown' := by
  induction chunks generalizing w w' stray shown shown' with
  | nil => exact sees.elim
  | cons chunk chunks ih =>
      obtain ⟨memory, fits, piece, missing⟩ := sees
      have room := enough chunk List.mem_cons_self
      have positive := chunk.length_pos
      rw [chunkBytes_cons, List.append_assoc] at unread
      -- Where the cut is in this chunk the call on the cut stream returns less than the chunk.
      -- Otherwise both calls return the chunk, and the difference comes later.
      by_cases inChunk : stop <
          w.taken + stray.toNat + chunk.line.text.length + 2 + chunk.data.length
      · obtain ⟨r, call, ret, -⟩ :=
          chunkCall_chunk live cuts chunk unread memory fits small room rfl
            (Nat.min_eq_right piece).symm
        obtain ⟨later, rfl, -⟩ := observes.of_success call (by omega)
        have other := chunkCall_cut live cuts' chunk
          (by rw [run.unread, unread]) (by omega) fits small room
        generalize call' : httpcRecvResponse net' httpc w' .chunk false size = r' at other
        have different : (r.ret, r.data) ≠ (r'.ret, r'.data) :=
          fun same => other ((Prod.mk.inj same).1.symm.trans ret)
        by_cases fails : r'.ret < 0
        · rw [observes'.of_failure call' fails]
          intro same
          have ret' := congrArg Prod.fst (List.cons.inj same).1
          dsimp only at ret'
          omega
        · obtain ⟨later', rfl, -⟩ := observes'.of_success call' fails
          exact fun same => different (List.cons.inj same).1
      · obtain ⟨r, r', call, call', ret, -, ret', -, run', left, taken, callocs, stop', stop''⟩ :=
          chunkCall_uncut live calloc cuts cuts' run chunk unread memory fits rfl piece
            (not_lt.mp inChunk) small room
        obtain ⟨later, rfl, observesLater⟩ := observes.of_success call (by omega)
        obtain ⟨later', rfl, observesLater'⟩ := observes'.of_success call' (by omega)
        intro same
        refine ih (fun c member => enough c (List.mem_cons_of_mem chunk member))
          (by rw [stop']; exact cuts) (by rw [stop'']; exact cuts') left run' ?_
          observesLater observesLater' (List.cons.inj same).2
        rw [taken, callocs]
        exact missing.resolve_left inChunk

/-- Chunks that come in whole pieces are all observed, and then whatever ends the body. -/
theorem observes_whole (stray : Bool) (live : httpc.Live) (small : size < 2 ^ 31)
    {chunks : List Chunk}
    (enough : ∀ c ∈ chunks, c.data.length ≤ size) {w : World} (cuts : net.CutsBy cut w.stop)
    (pieces : PieceReads cut (w.taken + stray.toNat) stray chunks) {tail : Bytes}
    (unread : w.unread = strayLf stray ++ (chunkBytes chunks ++ tail))
    (ends : ∀ w' stray', w'.unread = strayLf stray' ++ tail → net.CutsBy cut w'.stop →
      EndsHere net httpc size w')
    {shown : List (Int × Bytes)} (observes : Observes net httpc size w shown) :
    shown = shownOf net.calloc w.callocs chunks := by
  induction chunks generalizing w stray shown with
  | nil => exact observes.of_end (ends w stray (by simpa [chunkBytes] using unread) cuts)
  | cons chunk chunks ih =>
      cases memory : net.calloc w.callocs with
      | false =>
          rw [observes.of_noMemory memory, shownOf, memory]
          rfl
      | true =>
          obtain ⟨fits, piece, later⟩ := pieces
          obtain ⟨r, call, ret, data, -, callocs, stop, -, next⟩ :=
            chunkCall_chunk live cuts chunk
              (by simpa using unread) memory fits small (enough chunk List.mem_cons_self) rfl
              (Nat.min_eq_right piece).symm
          obtain ⟨left, taken⟩ := next rfl
          rw [List.take_length] at data
          obtain ⟨shownLater, rfl, observesLater⟩ := observes.of_success call (by omega)
          have rests := ih _ (fun c member => enough c (List.mem_cons_of_mem chunk member))
            (by rw [stop]; exact cuts) (by rw [taken]; exact later) left observesLater
          rw [shownOf, memory, if_pos rfl, ret, data, rests, callocs]

/-- A cut that costs no data is not observed. -/
theorem observes_uncut (stray : Bool) (live : httpc.Live) (small : size < 2 ^ 31)
    (calloc : net'.calloc = net.calloc) {chunks : List Chunk}
    (enough : ∀ c ∈ chunks, c.data.length ≤ size) {w w' : World} (cuts : net.CutsBy cut w.stop)
    (cuts' : net'.CutsBy cut w'.stop) {line : SizeLine 0} {rest : Bytes} {stop : Nat}
    (pieces : PieceReads cut (w.taken + stray.toNat) stray chunks)
    (unread : w.unread = strayLf stray ++ (chunkBytes chunks ++ (line.text ++ cr :: lf :: rest)))
    (run : CutRun w w' stop)
    (unseen : ¬ SeesCut net.calloc cut stop (w.taken + stray.toNat) w.callocs stray chunks)
    {shown : List (Int × Bytes)} (observes : Observes net' httpc size w' shown) :
    shown = shownOf net.calloc w.callocs chunks := by
  induction chunks generalizing w w' stray shown with
  | nil =>
      have part : w'.unread <+: strayLf stray ++ (line.text ++ cr :: lf :: rest) := by
        rw [run.unread, unread]
        exact List.take_prefix _ _
      have last := observes.of_end (endsHere_lastLine live cuts'.steady line part size)
      rwa [calloc, run.callocs] at last
  | cons chunk chunks ih =>
      cases memory : net.calloc w.callocs with
      | false =>
          rw [observes.of_noMemory (by rw [calloc, run.callocs]; exact memory), shownOf, memory]
          rfl
      | true =>
          obtain ⟨fits, piece, later⟩ := pieces
          have there : ¬ stop <
              w.taken + stray.toNat + chunk.line.text.length + 2 + chunk.data.length :=
            fun missing => unseen ⟨memory, fits, piece, .inl missing⟩
          rw [chunkBytes_cons, List.append_assoc] at unread
          obtain ⟨r, r', -, call', -, -, ret', data', run', left, taken, callocs, stop', stop''⟩ :=
            chunkCall_uncut live calloc cuts cuts' run chunk unread memory fits rfl piece
              (not_lt.mp there) small (enough chunk List.mem_cons_self)
          obtain ⟨shownLater, rfl, observesLater⟩ := observes.of_success call' (by omega)
          have rests := ih _ (fun c member => enough c (List.mem_cons_of_mem chunk member))
            (by rw [stop']; exact cuts) (by rw [stop'']; exact cuts') (by rw [taken]; exact later)
            left run'
            (by
              rw [taken, callocs]
              exact fun seen => unseen ⟨memory, fits, piece, .inr seen⟩) observesLater
          rw [shownOf, memory, if_pos rfl, ret', data', rests, callocs]

/-- A damaged body is told from the whole one when the damage cost some data; and, when the
transport delivers the chunks in whole pieces, only then. -/
theorem chunked_damage_shows (live : httpc.Live) (small : size < 2 ^ 31) (body : ChunkedBody)
    (enough : ∀ c ∈ body.chunks, c.data.length ≤ size) (damage : Damage body) {w w' : World}
    (cuts : net.CutsBy cut w.stop) (cuts' : net'.CutsBy cut w'.stop)
    (calloc : net'.calloc = net.calloc) (callocs : w'.callocs = w.callocs)
    (taken : w'.taken = w.taken) (unread : w.unread = body.bytes)
    (unread' : w'.unread = damage.bytes) :
    ∃ d d', chunkGetRequest net httpc size w = some d ∧
      chunkGetRequest net' httpc size w' = some d' ∧
      (damage.Shows net.calloc cut w.taken w.callocs → d.observed ≠ d'.observed) ∧
      (PieceReads cut w.taken false body.chunks → d.observed ≠ d'.observed →
        damage.Shows net.calloc cut w.taken w.callocs) := by
  obtain ⟨d, loop, -⟩ := chunkGetRequest_ends live net size w
  obtain ⟨d', loop', -⟩ := chunkGetRequest_ends live net' size w'
  have observes := Observes.of_loop loop
  have observes' := Observes.of_loop loop'
  -- Either direction compares the calls on the whole stream with those on the damaged one.
  have stream : w.unread = strayLf false ++ (chunkBytes body.chunks ++
      (body.lastLine.text ++ cr :: lf :: body.trailerBytes)) := unread
  refine ⟨d, d', loop, loop', ?_, ?_⟩
  · intro shows
    cases damage with
    | cutAt p early =>
        have run : CutRun w w' (w.taken + p) :=
          ⟨by rw [Nat.add_sub_cancel_left, unread]; exact unread', fun _ => taken, callocs⟩
        exact observes_ne_of_seesCut live small calloc enough cuts cuts' stream run shows observes
          observes'
    | noSize => exact shows.elim
  · intro pieces different
    -- On the whole stream the caller gets all chunks and then a call that fails.
    have whole := observes_whole false live small enough cuts pieces stream
      (fun w'' stray' left cuts'' =>
        endsHere_lastLine live cuts''.steady body.lastLine (by rw [left]) size)
      observes
    cases damage with
    | cutAt p early =>
        have run : CutRun w w' (w.taken + p) :=
          ⟨by rw [Nat.add_sub_cancel_left, unread]; exact unread', fun _ => taken, callocs⟩
        by_contra unseen
        apply different
        rw [whole]
        exact (observes_uncut false live small calloc enough cuts cuts' pieces stream run
          unseen observes').symm
    -- A line without a size ends the loop as the last line would have done.
    | noSize text rest free noDigit =>
        apply different
        rw [whole, ← calloc, ← callocs]
        exact (observes_whole false live small enough cuts'
          (by rw [taken]; exact pieces) unread'
          (fun w'' stray' left cuts'' => endsHere_noDigit live cuts''.steady
            (crlfFree_strayLf free stray') (noDigit_strayLf stray' noDigit)
            (by simpa using left) size)
          observes').symm

/-- The sample body and its prefix without the last data byte are told apart. -/
theorem chunked_damage_shows_cutData :
    (chunkGetRequest .prompt (.plain 3) 16 (.opened abBody.bytes)).map Download.observed ≠
      (chunkGetRequest .prompt (.plain 3) 16 (.opened (abBody.bytes.take 4))).map
        Download.observed := by
  have cuts : Transport.prompt.CutsBy (fun _ n => n) (World.opened abBody.bytes).stop :=
    Transport.prompt_cuts _
  have cuts' : Transport.prompt.CutsBy (fun _ n => n)
      (World.opened (abBody.bytes.take 4)).stop := Transport.prompt_cuts _
  obtain ⟨d, d', loop, loop', differs, -⟩ :=
    chunked_damage_shows (Httpc.plain_live (show (0 : Int) ≤ 3 by decide))
      (show 16 < 2 ^ 31 by decide) abBody (by decide) (.cutAt 4 (by decide))
      cuts cuts' rfl rfl rfl rfl rfl
  rw [show (16 : Int) = ((16 : Nat) : Int) from rfl, loop, loop']
  exact fun same => differs (by decide) (Option.some.inj same)

/-- The sample body looks the same when the stream ends in front of its zero-size line, and when the
line `zz` stands in the place of that line. -/
theorem chunked_damage_unseen :
    (chunkGetRequest .prompt (.plain 3) 16 (.opened abBody.bytes)).map Download.observed =
        some [(2, ascii "ab"), (-1, [])] ∧
      (chunkGetRequest .prompt (.plain 3) 16 (.opened (abBody.bytes.take 7))).map
        Download.observed = some [(2, ascii "ab"), (-1, [])] ∧
      (chunkGetRequest .prompt (.plain 3) 16
        (.opened (chunkBytes abBody.chunks ++ ascii "zz\r\n\r\n"))).map Download.observed =
          some [(2, ascii "ab"), (-1, [])] := by
  decide +kernel

end

end Hfc
