/-
Module: Hfc.Proofs.ChunkProgress
Layer: Proofs
Purpose: The download loop on any stream, well formed or not. A call that does not fail has read a
  size line that is not empty, so it has taken a byte of the stream, and what it delivers stands
  behind what was delivered before; the loop therefore ends, and no byte is delivered twice. A
  client without a connection fails at once.
Imports: Hfc.Proofs.ChunkCall
Main exports: chunkCall_not_live, ChunkCalls.progress, DownloadEnds, chunk_loop_ends
-/
import Hfc.Proofs.ChunkCall

namespace Hfc

open ByteText

section

variable {net : Transport} {httpc : Httpc} {size : Int}

/-! ### A client without a connection

Such a client reports an error at once and takes nothing. -/

/-- A client that is not live reads no size line, so its call fails. -/
theorem chunkCall_not_live (dead : ¬ httpc.Live) (net : Transport) (w : World) (size : Int) :
    (httpcRecvResponse net httpc w .chunk false size).ret < 0 := by
  cases memory : net.calloc w.callocs with
  | false =>
      rw [chunkCall_noMemory memory]
      exact show (-3 : Int) < 0 by decide
  | true =>
      have read : (httpcReadOneLine net httpc (net.allocate w).2 chunkTmpSize).stored = [] := by
        have fails := (httpcRecv_of_not_live net (net.allocate w).2 dead false 1).1
        have room : (max (chunkTmpSize : Int) 1).toNat = 1023 + 1 := by decide
        rw [httpcReadOneLine, room, readOneLineLoop, if_pos fails.le]
      have zero := chunkLen_of_short (show ([] : Bytes).length < 2 by decide)
      rw [← read] at zero
      rw [chunkCall_refused memory rfl (.inl zero.le)]
      exact show (-1 : Int) < 0 by decide

/-! ### Progress

A call that returns data has moved on by at least as many bytes, and has stored no more than the
caller's buffer holds. -/

/-- A call that does not fail has taken at least one byte of the stream. -/
theorem chunkCall_takes (net : Transport) (httpc : Httpc) (size : Int) (w : World)
    (succeeds : 0 ≤ (httpcRecvResponse net httpc w .chunk false size).ret) :
    (httpcRecvResponse net httpc w .chunk false size).world.unread.length < w.unread.length := by
  by_cases live : httpc.Live
  · obtain ⟨-, progress, -⟩ := chunkCall_success live rfl (not_lt.mpr succeeds)
    omega
  · exact absurd succeeds (not_le.mpr (chunkCall_not_live live net w size))

/-- The positions some calls deliver. -/
def callPositions (calls : List BodyRecv) : List Nat :=
  calls.flatMap fun call => List.range' call.start call.data.length

/-- Calls that do not fail deliver positions of the stream they pass, one behind the other, and
return how many these are. -/
theorem ChunkCalls.progress {w w' : World} {calls : List BodyRecv} (live : httpc.Live)
    (made : ChunkCalls net httpc size w calls w') :
    w'.stop = w.stop ∧ (∀ call ∈ calls, call.ret = call.data.length) ∧
      w.taken + (calls.map fun call => call.data.length).sum ≤ w'.taken ∧
      (callPositions calls).Pairwise (· < ·) ∧
      ∀ p ∈ callPositions calls, w.taken ≤ p ∧ p < w'.taken := by
  induction made with
  | nil w => simp [callPositions]
  | @cons w w' r calls call succeeds rest ih =>
      obtain ⟨same, -, ret, start, behind⟩ := chunkCall_success live call succeeds
      obtain ⟨stop, rets, total, ascending, within⟩ := ih
      have split : callPositions (r :: calls) =
          List.range' r.start r.data.length ++ callPositions calls := List.flatMap_cons
      refine ⟨stop.trans same, ?_, ?_, ?_, ?_⟩
      · intro other member
        rcases List.mem_cons.mp member with rfl | later
        · exact ret
        · exact rets other later
      · rw [List.map_cons, List.sum_cons]
        omega
      · rw [split, List.pairwise_append]
        refine ⟨List.pairwise_lt_range', ascending, ?_⟩
        intro p here q there
        have below := (List.mem_range'_1.mp here).2
        have above := (within q there).1
        omega
      · intro p member
        rw [split] at member
        rcases List.mem_append.mp member with here | there
        · obtain ⟨lower, upper⟩ := List.mem_range'_1.mp here
          omega
        · obtain ⟨lower, upper⟩ := within p there
          omega

/-- The results of calls that return the number of bytes they deliver. -/
theorem sum_rets {calls : List BodyRecv} (rets : ∀ call ∈ calls, call.ret = call.data.length) :
    (calls.map BodyRecv.ret).sum = ((calls.map fun call => call.data.length).sum : Nat) := by
  induction calls with
  | nil => rfl
  | cons call calls ih =>
      rw [List.map_cons, List.sum_cons, List.map_cons, List.sum_cons, rets call (by simp),
        ih fun other member => rets other (List.mem_cons_of_mem call member), Nat.cast_add]

/-- A download that started at `w` has come to its end: there were no more calls than bytes in front
of the one that failed, their results are the numbers of bytes they delivered and together no more
than the stream has, and each of these bytes has a place of its own in the stream. -/
structure DownloadEnds (w : World) (d : Download) : Prop where
  failed : d.last < 0
  calls : d.calls.length ≤ w.unread.length
  rets : ∀ call ∈ d.calls, call.ret = call.data.length
  total : (d.calls.map BodyRecv.ret).sum ≤ w.unread.length
  once : d.positions.Nodup
  inside : ∀ p ∈ d.positions, w.taken ≤ p ∧ p < w.stop

/-- A download on a live client. -/
theorem downloadEnds_of_live (live : httpc.Live) (net : Transport) (size : Int) (w : World) :
    ∃ d, chunkGetRequest net httpc size w = some d ∧ DownloadEnds w d := by
  obtain ⟨d, loop, few⟩ := chunkGetRequest_ends live net size w
  obtain ⟨w', r, made, -, fails, last, -⟩ := ChunkCalls.of_loop loop
  obtain ⟨stop, rets, total, ascending, within⟩ := made.progress live
  have bound : w'.taken ≤ w.stop := by
    rw [← stop]
    exact Nat.le_add_right _ _
  refine ⟨d, loop, last ▸ fails, by omega, rets, ?_, ascending.imp Nat.ne_of_lt, ?_⟩
  · rw [sum_rets rets]
    unfold World.stop at bound
    omega
  · intro p member
    obtain ⟨lower, upper⟩ := within p member
    exact ⟨lower, upper.trans_le bound⟩

/-- On every stream and every transport, for every client and every size: a call that does not fail
takes a byte of the stream, and the download loop ends within one call more than the stream has
bytes. -/
theorem chunk_loop_ends (net : Transport) (httpc : Httpc) (size : Int) (w : World) :
    (∀ w', 0 ≤ (httpcRecvResponse net httpc w' .chunk false size).ret →
        (httpcRecvResponse net httpc w' .chunk false size).world.unread.length <
          w'.unread.length) ∧
      ∃ d, chunkGetLoop net httpc size (w.unread.length + 1) w = some d ∧ DownloadEnds w d := by
  refine ⟨chunkCall_takes net httpc size, ?_⟩
  by_cases live : httpc.Live
  · exact downloadEnds_of_live live net size w
  · have fails := chunkCall_not_live live net w size
    refine ⟨_, by rw [chunkGetLoop, if_pos fails], ?_⟩
    exact
      { failed := fails
        calls := Nat.zero_le _
        rets := by simp
        total := by simp
        once := by simp [Download.positions]
        inside := by simp [Download.positions] }

end

end Hfc
