/-
Module: Hfc.Proofs.ChunkCall
Layer: Proofs
Purpose: What one call of `httpc_recv_response` in chunk mode does on a live client, on any
  transport: it fails, or it delivers some bytes of the stream and takes at least two. The download
  loop therefore ends, and it delivers stream positions in increasing order.
Imports: Hfc.Core.Exchange, Hfc.Proofs.LineReader
Main exports: chunkLen_eq, chunkCall_noMemory, chunkCall_refused, chunkCall_taken, chunkCall_spec,
  chunkCall_success, ChunkCalls, chunkGetRequest_ends
-/
import Hfc.Core.Exchange
import Hfc.Proofs.LineReader

namespace Hfc

open ByteText CrlfScan Numeral

/-! ### The size line in its scratch block

The block is zeroed before a line is read into it, so `strtoul` sees the line and then a zero byte,
unless the line is as long as the block. -/

/-- What `strtoul` sees of a line that fits the block: all of it but its last byte. -/
theorem cstr_chunkTmpBuf {stored : Bytes} (fits : stored.length ≤ chunkTmpSize) :
    cstr (chunkTmpBuf stored) = cstr stored.dropLast := by
  have filled : patch (List.replicate chunkTmpSize nul) 0 stored =
      stored ++ List.replicate (chunkTmpSize - stored.length) nul := by
    simp [patch, List.take_of_length_le fits]
  rw [chunkTmpBuf, filled]
  rcases List.eq_nil_or_concat stored with rfl | ⟨front, last, rfl⟩
  · have blank : cstr (List.replicate chunkTmpSize nul) = [] := by
      rw [chunkTmpSize, List.replicate_succ]
      exact cstr_append_nul [] _
    simpa [patchAt] using blank
  · have offset : (((front ++ [last]).length : Int) - 1) = (front.length : Nat) := by
      simp
    rw [List.concat_eq_append, offset, patchAt_natCast,
      patch_append front [last] _ [nul] rfl, List.append_assoc, List.singleton_append,
      cstr_append_nul, List.dropLast_concat]

theorem chunkLen_eq {stored : Bytes} (fits : stored.length ≤ chunkTmpSize) :
    chunkLen stored = toInt32 (strtoul 16 (cstr stored.dropLast)) := by
  rw [chunkLen, cstr_chunkTmpBuf fits]

/-- A line of fewer than two bytes leaves an empty text, which counts as size zero. -/
theorem chunkLen_of_short {stored : Bytes} (short : stored.length < 2) : chunkLen stored = 0 := by
  have empty : stored.dropLast = [] :=
    List.eq_nil_of_length_eq_zero (by rw [List.length_dropLast]; omega)
  rw [chunkLen_eq (by rw [chunkTmpSize]; omega), empty]
  decide

/-! ### One call

`httpc_chunked_recv` by its cases: no memory, a line it refuses, and a line whose size it takes.
Later proofs go through these lemmas and do not unfold the call. -/

section

variable {net : Transport} {httpc : Httpc} {w : World} {size : Int} {line : LineRead}

theorem chunkCall_noMemory (noMemory : net.calloc w.callocs = false) :
    httpcRecvResponse net httpc w .chunk false size = .failed httpcErrMem (net.allocate w).2 := by
  simp [httpcRecvResponse, httpcChunkedRecv, Transport.allocate, noMemory]

theorem LineRead.count_nonneg (line : LineRead) : ¬ line.count < 0 := by
  simp [LineRead.count]

/-- A size line that gives no size, or one the buffer is too small for. -/
theorem chunkCall_refused (memory : net.calloc w.callocs = true)
    (read : httpcReadOneLine net httpc (net.allocate w).2 chunkTmpSize = line)
    (refused : chunkLen line.stored ≤ 0 ∨ size < chunkLen line.stored) :
    httpcRecvResponse net httpc w .chunk false size = .failed httpcErrFail line.world := by
  have granted : (net.allocate w).1 = true := memory
  simp only [httpcRecvResponse, httpcChunkedRecv, Bool.false_eq_true, if_false, granted,
    Bool.true_eq_false, read, if_neg line.count_nonneg]
  split
  · rfl
  · split
    · rfl
    · rw [if_pos]
      omega

/-- A size line that gives the size `n`. -/
theorem chunkCall_taken (live : httpc.Live) (memory : net.calloc w.callocs = true)
    (read : httpcReadOneLine net httpc (net.allocate w).2 chunkTmpSize = line) {n : Nat}
    (len : chunkLen line.stored = n) (positive : 0 < n) (fits : n ≤ size) :
    httpcRecvResponse net httpc w .chunk false size =
      let chunk := net.receive line.world n
      if chunk.ret < 0 then .failed httpcErrFail chunk.world
      else
        { ret := chunk.ret
          data := chunk.data
          start := line.world.taken
          world := (net.receive chunk.world 2).world } := by
  have granted : (net.allocate w).1 = true := memory
  have small : n < 2 ^ 64 := by
    have bound := toInt32_lt (strtoul 16 (cstr (chunkTmpBuf line.stored)))
    rw [chunkLen] at len
    omega
  have recv := httpcRecv_of_live live net line.world n small
  have two : ∀ w', httpcRecv net httpc w' false 2 = net.receive w' 2 :=
    fun w' => httpcRecv_of_live live net w' 2 (by decide)
  simp only [httpcRecvResponse, httpcChunkedRecv, Bool.false_eq_true, if_false, granted,
    Bool.true_eq_false, read, if_neg line.count_nonneg, len]
  rw [if_neg (by omega), if_neg (by omega), if_neg (by omega), recv]
  simp only [two]

/-- A size that is not refused is a number of bytes the buffer has room for. -/
theorem size_of_accepted {len size : Int} (accepted : ¬ (len ≤ 0 ∨ size < len)) :
    ∃ n : Nat, len = n ∧ 0 < n ∧ (n : Int) ≤ size :=
  ⟨len.toNat, by omega, by omega, by omega⟩

/-- What any call does: it fails, or it takes at least two bytes and delivers a stretch of the
stream behind them that it has passed. -/
theorem chunkCall_spec (live : httpc.Live) (net : Transport) (w : World) (size : Int) :
    ∃ k, Advances (net.allocate w).2 k (httpcRecvResponse net httpc w .chunk false size).world ∧
      ((httpcRecvResponse net httpc w .chunk false size).ret < 0 ∨
        (2 ≤ k ∧
          (httpcRecvResponse net httpc w .chunk false size).ret =
            (httpcRecvResponse net httpc w .chunk false size).data.length ∧
          w.taken + 2 ≤ (httpcRecvResponse net httpc w .chunk false size).start ∧
          (httpcRecvResponse net httpc w .chunk false size).start +
              (httpcRecvResponse net httpc w .chunk false size).data.length ≤
            (httpcRecvResponse net httpc w .chunk false size).world.taken)) := by
  cases memory : net.calloc w.callocs with
  | false =>
      rw [chunkCall_noMemory memory]
      exact ⟨0, .refl _, .inl (by simp [BodyRecv.failed])⟩
  | true =>
      obtain ⟨k, advances, fits, bound⟩ :=
        readLine_advances live (net.allocate w).2 (show 0 < chunkTmpSize by decide)
      generalize read : httpcReadOneLine net httpc (net.allocate w).2 chunkTmpSize = line
        at advances fits bound
      by_cases refused : chunkLen line.stored ≤ 0 ∨ size < chunkLen line.stored
      · rw [chunkCall_refused memory read refused]
        exact ⟨k, advances, .inl (by simp [BodyRecv.failed])⟩
      · obtain ⟨n, len, positive, room⟩ := size_of_accepted refused
        have long : 2 ≤ line.stored.length := by
          by_contra short
          have zero := chunkLen_of_short (not_le.mp short)
          omega
        rw [chunkCall_taken live memory read len positive room]
        obtain ⟨received, -, -, ret⟩ := receive_spec net line.world n
        obtain ⟨crlf, -, -, -⟩ := receive_spec net (net.receive line.world n).world 2
        dsimp only
        split
        · exact ⟨_, advances.trans received, .inl (by simp [BodyRecv.failed])⟩
        · rename_i nonneg
          have taken : w.taken + 2 ≤ line.world.taken := by
            have passed : line.world.taken = w.taken + k := advances.taken
            omega
          refine ⟨_, (advances.trans received).trans crlf, .inr ⟨by omega, ?_, taken, ?_⟩⟩
          · exact ret.resolve_right fun failed => nonneg failed.1
          · rw [crlf.taken, received.taken]
            exact Nat.le_add_right _ _

/-- A call that does not fail takes at least two bytes, and delivers a stretch of the stream behind
the first two that it has passed. -/
theorem chunkCall_success (live : httpc.Live) {w : World} {r : BodyRecv}
    (call : httpcRecvResponse net httpc w .chunk false size = r) (succeeds : ¬ r.ret < 0) :
    r.world.stop = w.stop ∧ r.world.unread.length + 2 ≤ w.unread.length ∧
      r.ret = r.data.length ∧ w.taken + 2 ≤ r.start ∧ r.start + r.data.length ≤ r.world.taken := by
  obtain ⟨k, advances, result⟩ := chunkCall_spec live net w size
  rw [call] at advances result
  obtain ⟨progress, ret, start, behind⟩ := result.resolve_left succeeds
  have length := advances.length_eq
  rw [Transport.allocate_unread] at length
  exact ⟨advances.stop_eq, by omega, ret, start, behind⟩

/-! ### The download loop

The calls of a download as a relation, with what each of them returned. The loop follows it, and
ends because every call takes at least one byte. -/

/-- The calls that do not fail, made one after the other from `w` to `w'`. -/
inductive ChunkCalls (net : Transport) (httpc : Httpc) (size : Int) :
    World → List BodyRecv → World → Prop where
  | nil (w : World) : ChunkCalls net httpc size w [] w
  | cons {w w' : World} {r : BodyRecv} {calls : List BodyRecv}
      (call : httpcRecvResponse net httpc w .chunk false size = r)
      (succeeds : ¬ r.ret < 0)
      (rest : ChunkCalls net httpc size r.world calls w') :
      ChunkCalls net httpc size w (r :: calls) w'

namespace ChunkCalls

/-- The loop that makes these calls and then one that fails has ended there. -/
theorem loop_eq {w w' : World} {calls : List BodyRecv} {r : BodyRecv}
    (made : ChunkCalls net httpc size w calls w')
    (call : httpcRecvResponse net httpc w' .chunk false size = r) (fails : r.ret < 0) {fuel : Nat}
    (enough : calls.length < fuel) :
    chunkGetLoop net httpc size fuel w =
      some { calls := calls, last := r.ret, world := r.world } := by
  induction made generalizing fuel with
  | nil w =>
      cases fuel with
      | zero => exact absurd enough (Nat.not_lt_zero _)
      | succ fuel => simp [chunkGetLoop, call, fails]
  | cons call' succeeds rest ih =>
      cases fuel with
      | zero => exact absurd enough (Nat.not_lt_zero _)
      | succ fuel =>
          have later := ih call (by simpa using enough)
          simp [chunkGetLoop, call', succeeds, later]

/-- A loop that ended made some calls that did not fail and then one that did. -/
theorem of_loop {fuel : Nat} {w : World} {d : Download}
    (loop : chunkGetLoop net httpc size fuel w = some d) :
    ∃ w' r, ChunkCalls net httpc size w d.calls w' ∧
      httpcRecvResponse net httpc w' .chunk false size = r ∧ r.ret < 0 ∧
      d.last = r.ret ∧ d.world = r.world := by
  induction fuel generalizing w d with
  | zero => simp [chunkGetLoop] at loop
  | succ fuel ih =>
      simp only [chunkGetLoop] at loop
      split at loop
      · rename_i fails
        cases loop
        exact ⟨w, _, .nil w, rfl, fails, rfl, rfl⟩
      · rename_i succeeds
        obtain ⟨rest, later, rfl⟩ := Option.map_eq_some_iff.mp loop
        obtain ⟨w', r, made, call, fails, last, world⟩ := ih later
        exact ⟨w', r, .cons rfl succeeds made, call, fails, last, world⟩

/-- Every call that succeeds takes at least two bytes of the stream. -/
theorem length_le {w w' : World} {calls : List BodyRecv} (live : httpc.Live)
    (made : ChunkCalls net httpc size w calls w') :
    w'.unread.length + 2 * calls.length ≤ w.unread.length := by
  induction made with
  | nil w => simp
  | cons call succeeds rest ih =>
      obtain ⟨-, progress, -⟩ := chunkCall_success live call succeeds
      rw [List.length_cons]
      omega

/-- What is delivered stands at least two bytes behind where the calls begin. -/
theorem taken_lt_position {w w' : World} {calls : List BodyRecv} (live : httpc.Live)
    (made : ChunkCalls net httpc size w calls w') :
    ∀ p ∈ calls.flatMap (fun call => List.range' call.start call.data.length),
      w.taken + 2 ≤ p := by
  induction made with
  | nil w => simp
  | cons call succeeds rest ih =>
      obtain ⟨-, -, -, start, behind⟩ := chunkCall_success live call succeeds
      intro p member
      rw [List.flatMap_cons] at member
      rcases List.mem_append.mp member with here | there
      · exact Nat.le_trans start (List.mem_range'_1.mp here).1
      · have later := ih p there
        omega

/-- Nothing that was taken off the stream before is delivered. -/
theorem taken_le_position {w w' : World} {calls : List BodyRecv} (live : httpc.Live)
    (made : ChunkCalls net httpc size w calls w') :
    ∀ p ∈ calls.flatMap (fun call => List.range' call.start call.data.length), w.taken ≤ p :=
  fun p member => (Nat.le_add_right _ 2).trans (made.taken_lt_position live p member)

end ChunkCalls

/-- With one call more than there are bytes left the loop has ended. -/
theorem chunkGetLoop_ends (live : httpc.Live) (net : Transport) (size : Int) {fuel : Nat}
    {w : World}
    (enough : w.unread.length < fuel) : ∃ d, chunkGetLoop net httpc size fuel w = some d := by
  induction fuel generalizing w with
  | zero => exact absurd enough (Nat.not_lt_zero _)
  | succ fuel ih =>
      simp only [chunkGetLoop]
      split
      · exact ⟨_, rfl⟩
      · rename_i succeeds
        obtain ⟨-, progress, -⟩ := chunkCall_success live rfl succeeds
        obtain ⟨d, rest⟩ := ih
          (w := (httpcRecvResponse net httpc w .chunk false size).world) (by omega)
        exact ⟨_, by rw [rest]; rfl⟩

/-- The download loop ends on every stream and every transport, having made at most half as many
successful calls as there are bytes. -/
theorem chunkGetRequest_ends (live : httpc.Live) (net : Transport) (size : Int) (w : World) :
    ∃ d, chunkGetRequest net httpc size w = some d ∧ 2 * d.calls.length ≤ w.unread.length := by
  obtain ⟨d, loop⟩ := chunkGetLoop_ends live net size (Nat.lt_succ_self w.unread.length)
  obtain ⟨w', r, made, -⟩ := ChunkCalls.of_loop loop
  have bound := made.length_le live
  exact ⟨d, loop, by omega⟩

end

end Hfc
