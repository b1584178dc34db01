/-
Module: Hfc.Proofs.LineReader
Layer: Proofs
Purpose: What receiving does to a connection, and the specification of the line reader. `Advances`
  says that a step took some bytes off the stream and changed nothing else a later step can see. On
  a transport that fails at most where the stream ends, the reader's byte loop is the bounded line
  scan of the unread bytes.
Imports: Hfc.Core.Io, Hfc.Library.CrlfScan
Main exports: Advances, Consumes, Transport.SteadyUntil, receive_spec, httpcRecv_of_live,
  httpcRecv_of_not_live, httpcRecv_spec, readLine_advances, readLine_scan_until, readLine_scan
-/
import Hfc.Core.Io
import Hfc.Library.CrlfScan

namespace Hfc

open ByteText CrlfScan Numeral

/-- From `w` to `w'` exactly the next `k` bytes were taken off the stream. -/
structure Advances (w : World) (k : Nat) (w' : World) : Prop where
  bound : k ≤ w.unread.length
  unread : w'.unread = w.unread.drop k
  taken : w'.taken = w.taken + k
  sends : w'.sends = w.sends
  callocs : w'.callocs = w.callocs
  nullDeref : w'.nullDeref = w.nullDeref

namespace Advances

theorem refl (w : World) : Advances w 0 w :=
  ⟨Nat.zero_le _, by simp, rfl, rfl, rfl, rfl⟩

theorem trans {w w' w'' : World} {k k' : Nat} (first : Advances w k w')
    (second : Advances w' k' w'') : Advances w (k + k') w'' := by
  have bound := first.bound
  have bound' := second.bound
  rw [first.unread, List.length_drop] at bound'
  exact
    { bound := by omega
      unread := by rw [second.unread, first.unread, List.drop_drop]
      taken := by rw [second.taken, first.taken, Nat.add_assoc]
      sends := second.sends.trans first.sends
      callocs := second.callocs.trans first.callocs
      nullDeref := second.nullDeref.trans first.nullDeref }

/-- Receiving does not move the end of the stream. -/
theorem stop_eq {w w' : World} {k : Nat} (advances : Advances w k w') : w'.stop = w.stop := by
  have bound := advances.bound
  simp only [World.stop, advances.taken, advances.unread, List.length_drop]
  omega

/-- The bytes left tell how many were taken. -/
theorem length_eq {w w' : World} {k : Nat} (advances : Advances w k w') :
    w'.unread.length + k = w.unread.length := by
  have bound := advances.bound
  rw [advances.unread, List.length_drop]
  omega

end Advances

/-- From `w` to `w'` the next `k` bytes of the stream were taken off it, and no others. -/
structure Consumes (w : World) (k : Nat) (w' : World) : Prop where
  bound : k ≤ w.unread.length
  unread : w'.unread = w.unread.drop k
  taken : w'.taken = w.taken + k

theorem Consumes.refl (w : World) : Consumes w 0 w :=
  ⟨Nat.zero_le _, by simp, rfl⟩

theorem Consumes.trans {w w' w'' : World} {k k' : Nat} (first : Consumes w k w')
    (second : Consumes w' k' w'') : Consumes w (k + k') w'' := by
  have bound := first.bound
  have bound' := second.bound
  rw [first.unread, List.length_drop] at bound'
  refine ⟨by omega, ?_, ?_⟩
  · rw [second.unread, first.unread, List.drop_drop]
  · rw [second.taken, first.taken, Nat.add_assoc]

theorem Advances.consumes {w w' : World} {k : Nat} (advances : Advances w k w') :
    Consumes w k w' :=
  ⟨advances.bound, advances.unread, advances.taken⟩

/-- The transport answers every receive call for bytes in front of the position `stop`; at `stop` it
may report the end of the stream or fail. -/
def Transport.SteadyUntil (net : Transport) (stop : Nat) : Prop :=
  ∀ calls taken n, taken < stop → ∃ cap, net.recv calls taken n = .upTo cap

theorem Transport.prompt_steady (stop : Nat) : Transport.prompt.SteadyUntil stop :=
  fun _ _ n _ => ⟨n, rfl⟩

/-- What any receive call does. -/
theorem receive_spec (net : Transport) (w : World) (n : Nat) :
    Advances w (net.receive w n).data.length (net.receive w n).world ∧
      (net.receive w n).data = w.unread.take (net.receive w n).data.length ∧
      (net.receive w n).data.length ≤ n ∧
      ((net.receive w n).ret = (net.receive w n).data.length ∨
        ((net.receive w n).ret < 0 ∧ (net.receive w n).data = [])) := by
  unfold Transport.receive
  split
  · exact ⟨⟨Nat.zero_le _, by simp, rfl, rfl, rfl, rfl⟩, by simp, Nat.zero_le _,
      .inr ⟨Int.negSucc_lt_zero _, rfl⟩⟩
  · rename_i cap _
    have length : (w.unread.take (min (max 1 cap) (min n w.unread.length))).length =
        min (max 1 cap) (min n w.unread.length) := by
      rw [List.length_take]
      omega
    dsimp only
    rw [length]
    exact ⟨⟨by omega, rfl, rfl, rfl, rfl, rfl⟩, rfl, by omega, .inl rfl⟩

/-- On a live client `httpc_recv` is the transport's receive call. -/
theorem httpcRecv_of_live {httpc : Httpc} (live : httpc.Live) (net : Transport) (w : World)
    (n : Nat) (small : n < 2 ^ 64) : httpcRecv net httpc w false n = net.receive w n := by
  obtain ⟨socket, context⟩ := live.passes
  simp [httpcRecv, socket, context, toSizeT_natCast small]

theorem httpcRecv_one {httpc : Httpc} (live : httpc.Live) (net : Transport) (w : World) :
    httpcRecv net httpc w false 1 = net.receive w 1 :=
  httpcRecv_of_live live net w 1 (by decide)

/-- On a client that is not live every receive call fails and leaves the stream as it is. -/
theorem httpcRecv_of_not_live {httpc : Httpc} (net : Transport) (w : World) (dead : ¬ httpc.Live)
    (bufNull : Bool) (size : Int) :
    (httpcRecv net httpc w bufNull size).ret < 0 ∧
      (httpcRecv net httpc w bufNull size).data = [] ∧
      (httpcRecv net httpc w bufNull size).world.unread = w.unread ∧
      (httpcRecv net httpc w bufNull size).world.taken = w.taken := by
  unfold httpcRecv
  by_cases refused : (bufNull || decide (httpc.socket < 0)) = true
  · rw [if_pos refused]
    exact ⟨Int.negSucc_lt_zero _, rfl, rfl, rfl⟩
  · rw [if_neg refused]
    by_cases noContext : (httpc.enableMbedtls && httpc.mbedtlsCtx.isNone) = true
    · rw [if_pos noContext]
      exact ⟨Int.negSucc_lt_zero _, rfl, rfl, rfl⟩
    · refine absurd ⟨?_, ?_⟩ dead
      · by_contra invalid
        simp [not_le.mp invalid] at refused
      · intro withTls
        cases context : httpc.mbedtlsCtx with
        | none => simp [withTls, context] at noContext
        | some ctx => rfl

/-- What any receive call stores and returns, on any client. -/
theorem httpcRecv_spec (net : Transport) (httpc : Httpc) (w : World) {n : Nat}
    (small : n < 2 ^ 64) :
    Consumes w (httpcRecv net httpc w false n).data.length (httpcRecv net httpc w false n).world ∧
      (httpcRecv net httpc w false n).data =
        w.unread.take (httpcRecv net httpc w false n).data.length ∧
      (httpcRecv net httpc w false n).data.length ≤ n ∧
      ((httpcRecv net httpc w false n).ret = (httpcRecv net httpc w false n).data.length ∨
        ((httpcRecv net httpc w false n).ret < 0 ∧ (httpcRecv net httpc w false n).data = [])) := by
  by_cases live : httpc.Live
  · rw [httpcRecv_of_live live net w n small]
    obtain ⟨advances, data, bound, ret⟩ := receive_spec net w n
    exact ⟨advances.consumes, data, bound, ret⟩
  · obtain ⟨fails, empty, unread, taken⟩ := httpcRecv_of_not_live net w live false n
    rw [empty]
    exact ⟨⟨Nat.zero_le _, unread, taken⟩, rfl, Nat.zero_le _, .inr ⟨fails, rfl⟩⟩

/-- What a call answered with a positive cap returns. -/
theorem receive_of_upTo {net : Transport} {w : World} {n cap : Nat}
    (answer : net.recv w.recvs w.taken n = .upTo cap) :
    (net.receive w n).data = w.unread.take (min (max 1 cap) (min n w.unread.length)) ∧
      (net.receive w n).ret = (min (max 1 cap) (min n w.unread.length) : Nat) := by
  simp [Transport.receive, answer]

/-- One byte asked for and one byte there. -/
theorem receive_one {net : Transport} {w : World} {b : Byte} {rest : Bytes} {stop : Nat}
    (steady : net.SteadyUntil stop) (before : w.taken < stop) (unread : w.unread = b :: rest) :
    (net.receive w 1).data = [b] ∧ (net.receive w 1).ret = 1 := by
  obtain ⟨cap, answer⟩ := steady w.recvs w.taken 1 before
  have one : min (max 1 cap) (min 1 w.unread.length) = 1 := by
    simp only [unread, List.length_cons]
    omega
  have got := receive_of_upTo answer
  rw [one] at got
  simpa [unread] using got

/-- At the end of the stream nothing is stored. -/
theorem receive_at_end {net : Transport} {w : World} {n : Nat} (unread : w.unread = []) :
    (net.receive w n).data = [] ∧ (net.receive w n).ret ≤ 0 := by
  obtain ⟨-, data, -, ret⟩ := receive_spec net w n
  have empty : (net.receive w n).data = [] := by
    rw [data, unread, List.take_nil]
  refine ⟨empty, ?_⟩
  rcases ret with ret | ⟨ret, -⟩
  · simp [ret, empty]
  · exact ret.le

section

variable {net : Transport} {httpc : Httpc}

/-- The byte loop stores no more than there is room for, and what it takes off the stream is what it
stores and at most one LF. -/
theorem readOneLineLoop_advances (live : httpc.Live) (room : Nat) (last : Byte) (stored : Bytes)
    (w : World) :
    ∃ k line, (readOneLineLoop net httpc room last stored w).stored = stored ++ line ∧
      Advances w k (readOneLineLoop net httpc room last stored w).world ∧
      line.length ≤ room ∧ line.length ≤ k := by
  induction room generalizing last stored w with
  | zero => exact ⟨0, [], by simp [readOneLineLoop], .refl w, by simp, by simp⟩
  | succ room ih =>
      obtain ⟨advances, -, length, -⟩ := receive_spec net w 1
      simp only [readOneLineLoop, httpcRecv_one live]
      split
      · exact ⟨_, [], by simp, advances, by simp, by simp⟩
      · split
        · exact ⟨_, [], by simp, advances, by simp, by simp⟩
        · rename_i positive _
          obtain ⟨k, line, same, later, fits, bound⟩ :=
            ih ((net.receive w 1).data.headD 0) (stored ++ [(net.receive w 1).data.headD 0])
              (net.receive w 1).world
          have one : (net.receive w 1).data.length = 1 := by
            rcases (receive_spec net w 1).2.2.2 with ret | ⟨ret, -⟩ <;> omega
          rw [one] at advances
          refine ⟨1 + k, (net.receive w 1).data.headD 0 :: line, ?_, advances.trans later, ?_, ?_⟩
          · simpa using same
          · simpa using fits
          · simp only [List.length_cons]
            omega

/-- On a transport that is steady as far as the bounded line scan goes, the byte loop is that scan.
-/
theorem readOneLineLoop_scan (live : httpc.Live) (room : Nat) (last : Byte) (stored : Bytes)
    (w : World) {stop : Nat} (steady : net.SteadyUntil stop)
    (reach : w.stop ≤ stop + (scan room last w.unread).2.length) :
    (readOneLineLoop net httpc room last stored w).stored =
        stored ++ (scan room last w.unread).1 ∧
      (readOneLineLoop net httpc room last stored w).world.unread =
        (scan room last w.unread).2 := by
  induction room generalizing last stored w with
  | zero => simp [readOneLineLoop, scan]
  | succ room ih =>
      obtain ⟨advances, -, -, -⟩ := receive_spec net w 1
      simp only [readOneLineLoop, httpcRecv_one live]
      cases unread : w.unread with
      | nil =>
          obtain ⟨empty, ret⟩ := receive_at_end (n := 1) unread
          rw [if_pos ret, advances.unread, empty, unread]
          simp [scan]
      | cons b rest =>
          rw [unread] at reach
          have left := length_scan_rest_lt room last b rest
          have before : w.taken < stop := by
            rw [World.stop, unread] at reach
            omega
          obtain ⟨data, ret⟩ := receive_one steady before unread
          have rest_eq : (net.receive w 1).world.unread = rest := by
            rw [advances.unread, data, unread]
            rfl
          rw [if_neg (by rw [ret]; decide)]
          simp only [data, List.headD_cons, scan] at reach ⊢
          by_cases ends : b = lf ∧ last = cr
          · simp only [if_pos ends]
            exact ⟨by simp, rest_eq⟩
          · simp only [if_neg ends] at reach ⊢
            have tail := ih b (stored ++ [b]) (net.receive w 1).world
              (by rw [advances.stop_eq, rest_eq]; exact reach)
            rw [rest_eq] at tail
            simpa using tail

/-- The line reader with a positive capacity never stores more than that, and what it takes off the
stream is what it stores and at most one LF. -/
theorem readLine_advances (live : httpc.Live) (w : World) {size : Nat} (positive : 0 < size) :
    ∃ k, Advances w k (httpcReadOneLine net httpc w size).world ∧
      (httpcReadOneLine net httpc w size).stored.length ≤ size ∧
      (httpcReadOneLine net httpc w size).stored.length ≤ k := by
  have room : (max (size : Int) 1).toNat = size := by omega
  obtain ⟨k, line, same, advances, fits, bound⟩ :=
    readOneLineLoop_advances live size 0 [] w
  rw [httpcReadOneLine, room, same]
  exact ⟨k, advances, fits, bound⟩

/-- On a transport that is steady as far as it goes, the line reader is the bounded line scan of the
unread bytes. -/
theorem readLine_scan_until (live : httpc.Live) (w : World) {size : Nat} (positive : 0 < size)
    {stop : Nat} (steady : net.SteadyUntil stop)
    (reach : w.stop ≤ stop + (scan size nul w.unread).2.length) :
    (httpcReadOneLine net httpc w size).stored = (scan size nul w.unread).1 ∧
      (httpcReadOneLine net httpc w size).world.unread = (scan size nul w.unread).2 := by
  have room : (max (size : Int) 1).toNat = size := by omega
  rw [httpcReadOneLine, room]
  simpa using readOneLineLoop_scan live size 0 [] w steady reach

/-- So it is on a transport that fails at most where the stream ends. -/
theorem readLine_scan (live : httpc.Live) (w : World) (steady : net.SteadyUntil w.stop)
    {size : Nat} (positive : 0 < size) :
    (httpcReadOneLine net httpc w size).stored = (scan size nul w.unread).1 ∧
      (httpcReadOneLine net httpc w size).world.unread = (scan size nul w.unread).2 :=
  readLine_scan_until live w positive steady (Nat.le_add_right _ _)

end

end Hfc
