/-
Module: Hfc.Proofs.ScratchBlock
Layer: Proofs
Purpose: Whether `httpc_chunked_recv` stays inside its scratch block. The line reader stores between
  no and 1024 bytes there, and the byte in front of that count is cleared: a line without any byte
  has the byte in front of the block cleared.
Imports: Hfc.Core.Access, Hfc.Proofs.ChunkCall
Main exports: FirstByteArrives, httpcRecv_one_le, readLine_eq_nil, TmpInside,
  chunk_scratch_inside_iff
-/
import Hfc.Core.Access
import Hfc.Proofs.ChunkCall

namespace Hfc

open ByteText

/-- A receive call for one byte delivers one: the client is live, the stream is not at its end, and
the call does not fail. -/
def FirstByteArrives (net : Transport) (httpc : Httpc) (w : World) : Prop :=
  httpc.Live ∧ w.unread ≠ [] ∧ ∃ cap, net.recv w.recvs w.taken 1 = .upTo cap

section

variable {net : Transport} {httpc : Httpc} {w : World}

theorem httpcRecv_one_le : (httpcRecv net httpc w false 1).ret ≤ 0 ↔
    ¬ FirstByteArrives net httpc w := by
  by_cases live : httpc.Live
  · rw [httpcRecv_one live, FirstByteArrives, and_iff_right live]
    cases unread : w.unread with
    | nil =>
        have ended : (net.receive w 1).ret ≤ 0 := (receive_at_end unread).2
        simp [ended]
    | cons b rest =>
        cases answer : net.recv w.recvs w.taken 1 with
        | fail code =>
            have fails : (net.receive w 1).ret = Int.negSucc code := by
              simp [Transport.receive, answer]
            simp [fails, (Int.negSucc_lt_zero code).le]
        | upTo cap =>
            have ret := (receive_of_upTo answer).2
            have one : min (max 1 cap) (min 1 w.unread.length) = 1 := by
              simp only [unread, List.length_cons]
              omega
            rw [one] at ret
            simp [ret]
  · have fails := (httpcRecv_of_not_live net w live false 1).1
    simp [fails.le, FirstByteArrives, live]

/-- The line reader stores nothing exactly where its first receive call delivers nothing. -/
theorem readLine_eq_nil {size : Nat} (positive : 0 < size) :
    (httpcReadOneLine net httpc w size).stored = [] ↔ ¬ FirstByteArrives net httpc w := by
  obtain ⟨room, rfl⟩ : ∃ room, size = room + 1 := ⟨size - 1, by omega⟩
  have capacity : (max ((room + 1 : Nat) : Int) 1).toNat = room + 1 := by omega
  rw [← httpcRecv_one_le, httpcReadOneLine, capacity, readOneLineLoop]
  dsimp only
  by_cases ended : (httpcRecv net httpc w false 1).ret ≤ 0
  · simp [ended]
  · -- the first byte is stored: no CR stands in front of it
    rw [if_neg ended, if_neg fun ends => absurd ends.2 (by decide)]
    obtain ⟨more, line, -⟩ := readOneLineStores_eq net httpc room
      ((httpcRecv net httpc w false 1).data.headD 0)
      ([] ++ [(httpcRecv net httpc w false 1).data.headD 0]) (httpcRecv net httpc w false 1).world
    rw [line]
    simp [ended]

/-- Every index `httpc_chunked_recv` uses in its scratch block is inside it. -/
def TmpInside (net : Transport) (httpc : Httpc) (w : World) (bufNull : Bool) (size : Int) : Prop :=
  ∀ i ∈ chunkTmpAccesses net httpc w bufNull size, 0 ≤ i ∧ i < chunkTmpSize

instance (net : Transport) (httpc : Httpc) (w : World) (bufNull : Bool) (size : Int) :
    Decidable (TmpInside net httpc w bufNull size) :=
  inferInstanceAs (Decidable (∀ i ∈ _, _))

/-- Where an index in the scratch block can come from. -/
theorem used_in_tmp (granted : (net.allocate w).1 = true) {size i : Int} {line : LineRead}
    (read : httpcReadOneLine net httpc (net.allocate w).2 chunkTmpSize = line)
    (used : i ∈ chunkTmpAccesses net httpc w false size) :
    i ∈ span 0 line.stored.length ∨ i = line.count - 1 ∨
      i ∈ stringSpan (chunkTmpBuf line.stored) 0 ∨ i ∈ span 0 2 := by
  have stores := (lineStores_eq net httpc (net.allocate w).2 chunkTmpSize).1
  rw [read] at stores
  simp only [chunkTmpAccesses, Bool.false_eq_true, if_false, granted, Bool.true_eq_false, read,
    stores] at used
  rw [if_neg line.count_nonneg] at used
  have parsed : i ∈ span 0 line.stored.length ++ [line.count - 1] ++
      stringSpan (chunkTmpBuf line.stored) 0 ++ span 0 2 := by
    split at used
    · exact List.mem_append_left _ used
    · split at used
      · exact List.mem_append_left _ used
      · split at used
        · exact List.mem_append_left _ used
        · split at used
          · exact List.mem_append_left _ used
          · exact used
  simpa [or_assoc] using parsed

/-- Whatever the stream, the transport and the client are: the scratch block is used inside its
bounds if and only if it is not used at all or the first receive call for the size line delivers a
byte. -/
theorem chunk_scratch_inside_iff (net : Transport) (httpc : Httpc) (w : World) (bufNull : Bool)
    (size : Int) :
    TmpInside net httpc w bufNull size ↔
      bufNull = true ∨ net.calloc w.callocs = false ∨ FirstByteArrives net httpc w := by
  cases bufNull with
  | true => simp [TmpInside, chunkTmpAccesses]
  | false =>
      cases memory : net.calloc w.callocs with
      | false => simp [TmpInside, chunkTmpAccesses, Transport.allocate, memory]
      | true =>
          have first : FirstByteArrives net httpc (net.allocate w).2 ↔
              FirstByteArrives net httpc w := Iff.rfl
          have granted : (net.allocate w).1 = true := memory
          simp only [Bool.false_eq_true, Bool.true_eq_false, false_or, ← first]
          constructor
          -- A line that is empty has the count zero, and the byte in front of the block is cleared.
          · intro inside
            by_contra nothing
            have empty := (readLine_eq_nil (show 0 < chunkTmpSize by decide)).mpr nothing
            have front : (-1 : Int) ∈ chunkTmpAccesses net httpc w false size := by
              have zero : chunkLen [] = 0 := chunkLen_of_short (by decide)
              simp [chunkTmpAccesses, granted, empty, LineRead.count, zero]
            exact absurd (inside _ front).1 (by decide)
          · intro arrives i used
            have fits := (lineStores_eq net httpc (net.allocate w).2 chunkTmpSize).2
            have something :=
              mt (readLine_eq_nil (show 0 < chunkTmpSize by decide)).mp (not_not.mpr arrives)
            have accessed := used_in_tmp granted rfl used
            generalize httpcReadOneLine net httpc (net.allocate w).2 chunkTmpSize = line
              at fits something accessed
            have short : line.stored.length ≤ chunkTmpSize := fits
            have positive := List.length_pos_iff.mpr something
            -- The bytes stored, the one that is cleared, those that are parsed, and the two behind
            -- the data.
            rcases accessed with stored | cleared | parsed | crlf
            · obtain ⟨lower, upper⟩ := mem_span.mp stored
              omega
            · unfold LineRead.count at cleared
              omega
            · obtain ⟨lower, upper⟩ := mem_span.mp parsed
              have text := length_cstr_le line.stored.dropLast
              rw [List.length_dropLast] at text
              rw [List.drop_zero, cstr_chunkTmpBuf short] at upper
              omega
            · obtain ⟨lower, upper⟩ := mem_span.mp crlf
              have size : chunkTmpSize = 1024 := rfl
              omega

/-- A connection that is closed where the next size line would begin has the byte in front of the
block cleared. -/
theorem closed_connection_clears_outside :
    ¬ TmpInside .prompt (Httpc.plain 3) (.opened []) false 16 ∧
      (-1 : Int) ∈ chunkTmpAccesses .prompt (Httpc.plain 3) (.opened []) false 16 := by
  have front : (-1 : Int) ∈ chunkTmpAccesses .prompt (Httpc.plain 3) (.opened []) false 16 := by
    decide +kernel
  exact ⟨fun inside => absurd (inside _ front).1 (by decide), front⟩

end

end Hfc
