/-
Module: Hfc.Proofs.LineDelivery
Layer: Proofs
Purpose: The specification of the line reader on every stream and every transport. `Delivers` says
  which bytes reach the client when it receives them one at a time, up to the end of the stream or
  the first call that fails; the reader stores those in front of the first line end that comes
  within its buffer, and otherwise as many as there are and fit.
Imports: Hfc.Core.Access, Hfc.Proofs.LineReader
Main exports: Delivers, exists_delivers, Delivers.of_steady, readOneLineLoop_delivered, LineSpec,
  line_reader_spec
-/
import Hfc.Core.Access
import Hfc.Proofs.LineReader

namespace Hfc

open ByteText CrlfScan

/-! ### What arrives

The bytes the calls of `httpc_recv` deliver one at a time, up to the first call that delivers none.
-/

/-- From `w` on, receive calls for one byte deliver the bytes of `s` one after the other, and the
call behind the last of them delivers nothing. -/
inductive Delivers (net : Transport) (httpc : Httpc) : World → Bytes → Prop where
  | stop {w : World} (nothing : (httpcRecv net httpc w false 1).ret ≤ 0) :
      Delivers net httpc w []
  | byte {w : World} {b : Byte} {s : Bytes}
      (arrives : 0 < (httpcRecv net httpc w false 1).ret)
      (data : (httpcRecv net httpc w false 1).data = [b])
      (later : Delivers net httpc (httpcRecv net httpc w false 1).world s) :
      Delivers net httpc w (b :: s)

section

variable {net : Transport} {httpc : Httpc}

/-- A receive call for one byte, on any client: it takes nothing, or the next byte. -/
theorem httpcRecv_byte (net : Transport) (httpc : Httpc) (w : World) :
    ((httpcRecv net httpc w false 1).ret ≤ 0 ∧ Consumes w 0 (httpcRecv net httpc w false 1).world) ∨
      (0 < (httpcRecv net httpc w false 1).ret ∧
        ∃ b rest, w.unread = b :: rest ∧ (httpcRecv net httpc w false 1).data = [b] ∧
          Consumes w 1 (httpcRecv net httpc w false 1).world) := by
  obtain ⟨consumes, data, length, ret⟩ := httpcRecv_spec net httpc w (show 1 < 2 ^ 64 by decide)
  rw [Nat.cast_one] at consumes data length ret
  rcases Nat.le_one_iff_eq_zero_or_eq_one.mp length with empty | one
  · rw [empty] at consumes ret
    refine .inl ⟨?_, consumes⟩
    rcases ret with ret | ⟨ret, -⟩
    · exact ret.le
    · exact ret.le
  · rw [one] at consumes data ret
    have arrives : 0 < (httpcRecv net httpc w false 1).ret := by
      rcases ret with ret | ⟨-, empty⟩
      · rw [ret]
        decide
      · rw [empty] at one
        cases one
    obtain ⟨b, rest, unread⟩ := List.exists_cons_of_length_pos consumes.bound
    refine .inr ⟨arrives, b, rest, unread, ?_, consumes⟩
    rw [data, unread]
    rfl

/-- On every transport some bytes of the stream are delivered, perhaps none. -/
theorem exists_delivers (net : Transport) (httpc : Httpc) (w : World) :
    ∃ s, Delivers net httpc w s ∧ s <+: w.unread := by
  induction left : w.unread.length generalizing w with
  | zero =>
      rcases httpcRecv_byte net httpc w with ⟨nothing, -⟩ | ⟨-, b, rest, unread, -⟩
      · exact ⟨[], .stop nothing, List.nil_prefix⟩
      · rw [unread] at left
        cases left
  | succ n ih =>
      rcases httpcRecv_byte net httpc w with ⟨nothing, -⟩ | ⟨arrives, b, rest, unread, data, one⟩
      · exact ⟨[], .stop nothing, List.nil_prefix⟩
      · have rest_eq : (httpcRecv net httpc w false 1).world.unread = rest := by
          rw [one.unread, unread]
          rfl
        obtain ⟨s, later, isPrefix⟩ := ih (httpcRecv net httpc w false 1).world (by
          rw [rest_eq]
          rw [unread] at left
          simpa using left)
        refine ⟨b :: s, .byte arrives data later, ?_⟩
        rw [unread, List.cons_prefix_cons]
        exact ⟨rfl, rest_eq ▸ isPrefix⟩

/-- On a live client and a transport that fails at most where the stream ends, all of it is
delivered. -/
theorem Delivers.of_steady (live : httpc.Live) {w : World} (steady : net.SteadyUntil w.stop) :
    Delivers net httpc w w.unread := by
  induction left : w.unread generalizing w with
  | nil =>
      refine .stop ?_
      rw [httpcRecv_one live]
      exact (receive_at_end left).2
  | cons b rest ih =>
      have before : w.taken < w.stop := by
        simp [World.stop, left]
      obtain ⟨data, ret⟩ := receive_one steady before left
      obtain ⟨advances, -⟩ := receive_spec net w 1
      rw [data] at advances
      have unread : (net.receive w 1).world.unread = rest := by
        rw [advances.unread, left]
        rfl
      refine .byte ?_ ?_ ?_
      · rw [httpcRecv_one live, ret]
        decide
      · rw [httpcRecv_one live, data]
      · rw [httpcRecv_one live]
        exact ih (by rw [advances.stop_eq]; exact steady) unread

/-! ### The reader

The line reader on such bytes is the scan for a line end, and takes what the scan takes. -/

/-- The byte loop is the bounded line scan of what is delivered. -/
theorem readOneLineLoop_delivered {w : World} {s : Bytes} (delivers : Delivers net httpc w s)
    (room : Nat) (last : Byte) (stored : Bytes) :
    (readOneLineLoop net httpc room last stored w).stored = stored ++ (scan room last s).1 ∧
      ∃ k, Consumes w k (readOneLineLoop net httpc room last stored w).world ∧
        k + (scan room last s).2.length = s.length := by
  induction delivers generalizing room last stored with
  | @stop w nothing =>
      cases room with
      | zero => exact ⟨by simp [readOneLineLoop, scan], 0, .refl w, rfl⟩
      | succ room =>
          have untouched : Consumes w 0 (httpcRecv net httpc w false 1).world :=
            ((httpcRecv_byte net httpc w).resolve_right
              fun something => not_lt.mpr nothing something.1).2
          simp only [readOneLineLoop, if_pos nothing, scan]
          exact ⟨by simp, 0, untouched, rfl⟩
  | @byte w b s arrives data later ih =>
      cases room with
      | zero => exact ⟨by simp [readOneLineLoop, scan], 0, .refl w, Nat.zero_add _⟩
      | succ room =>
          obtain ⟨-, -, -, -, -, one⟩ :=
            (httpcRecv_byte net httpc w).resolve_left fun ends => not_lt.mpr ends.1 arrives
          simp only [readOneLineLoop, if_neg (not_le.mpr arrives), data, List.headD_cons, scan]
          by_cases ends : b = lf ∧ last = cr
          · simp only [if_pos ends]
            exact ⟨by simp, 1, one, Nat.add_comm 1 _⟩
          · simp only [if_neg ends]
            obtain ⟨same, k, consumes, count⟩ := ih room b (stored ++ [b])
            refine ⟨by simpa using same, 1 + k, one.trans consumes, ?_⟩
            rw [List.length_cons]
            omega

/-- What the line reader does with the bytes `s` that are delivered, in a buffer of `size` bytes: if
the first LF that directly follows a CR has an index `k` below `size`, the `k` bytes in front of it
are stored and one more is taken; if not, as many bytes as there are and fit are stored and taken.
Every store is inside the buffer. -/
def LineSpec (net : Transport) (httpc : Httpc) (w : World) (size : Nat) (s : Bytes) : Prop :=
  let line := httpcReadOneLine net httpc w size
  (∀ k, FirstEnd s k → k < size →
      line.stored = s.take k ∧ line.count = k ∧ line.stored.getLast? = some cr ∧
        Consumes w (k + 1) line.world) ∧
    ((∀ k, FirstEnd s k → size ≤ k) →
      line.stored = s.take (min size s.length) ∧ line.count = (min size s.length : Nat) ∧
        Consumes w (min size s.length) line.world) ∧
    ∀ i ∈ lineStores net httpc w size, 0 ≤ i ∧ i < size

/-- The line reader does this for all streams, in buffers of one byte and more. -/
theorem line_reader_spec {w : World} {s : Bytes} (delivers : Delivers net httpc w s) {size : Nat}
    (positive : 0 < size) : LineSpec net httpc w size s := by
  have room : (max (size : Int) 1).toNat = size := by omega
  obtain ⟨stored, k', consumes, count⟩ := readOneLineLoop_delivered delivers size nul []
  rw [List.nil_append] at stored
  refine ⟨?_, ?_, ?_⟩
  · intro k first fits
    have inText := (List.getElem?_eq_some_iff.mp first.1.2.2).1
    have length : (s.take k).length = k := by
      rw [List.length_take]
      omega
    rw [scan_firstEnd first fits] at stored count
    rw [List.length_drop] at count
    rw [httpcReadOneLine, room]
    refine ⟨stored, ?_, ?_, ?_⟩
    · rw [LineRead.count, stored, length]
    · rw [stored, List.getLast?_eq_getElem?, length,
        List.getElem?_take_of_lt (Nat.sub_lt first.1.1 Nat.one_pos), first.1.2.1]
    · rwa [show k' = k + 1 by omega] at consumes
  · intro noEnd
    rw [scan_noEnd noEnd] at stored count
    rw [List.length_drop] at count
    rw [httpcReadOneLine, room]
    have cut : s.take size = s.take (min size s.length) := by
      rw [← List.take_take, List.take_length]
    refine ⟨stored.trans cut, ?_, ?_⟩
    · rw [LineRead.count, stored, List.length_take]
    · rwa [show k' = min size s.length by omega] at consumes
  · obtain ⟨stores, bound⟩ := lineStores_eq net httpc w size
    rw [room] at bound
    intro i member
    rw [stores] at member
    have inside := mem_span.mp member
    omega

/-- A line with a lone CR and a lone LF in it, in a buffer that holds it. -/
theorem line_reader_spec_lone :
    LineSpec .prompt (.plain 3) (.opened (ascii "a\rb\nc\r\nd")) 16 (ascii "a\rb\nc\r\nd") :=
  line_reader_spec (.of_steady (Httpc.plain_live (by decide)) (Transport.prompt_steady _))
    (by decide)

end

end Hfc
