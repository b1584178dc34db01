/-
Module: Hfc.Spec.HeaderBlock
Layer: Spec
Purpose: A header block on its own terms: non-empty lines ended by CRLF and an empty line.
  `headScan` says what a buffer of a given size holds of the head of any stream; a complete block
  comes out of it whole exactly when it fits, and otherwise some of its bytes stay unread.
Imports: Hfc.Library.CrlfScan
Main exports: HeaderBlock, HeaderBlock.bytes, HeaderBlock.stored, HeaderBlock.Fits, headScan,
  headScan_of_fits, headScan_of_not_fits, suffix_headScan
-/
import Hfc.Library.CrlfScan

namespace Hfc

open ByteText CrlfScan

/-- The lines of a header block without their CRLF. -/
structure HeaderBlock where
  lines : List Bytes
  plain : ∀ line ∈ lines, line ≠ [] ∧ CrlfFree nul line

namespace HeaderBlock

/-- A block on the wire: its lines with their CRLF, and the empty line behind them. -/
def bytes (block : HeaderBlock) : Bytes :=
  block.lines.flatMap (fun line => line ++ [cr, lf]) ++ [cr, lf]

/-- The text of a block in memory: every line untruncated and ended by a NUL. -/
def stored (block : HeaderBlock) : Bytes :=
  block.lines.flatMap fun line => line ++ [nul]

/-- The buffer has room for every line with its terminator, and for the last CRLF. -/
def Fits (block : HeaderBlock) (room : Nat) : Prop :=
  block.stored.length + 2 ≤ room

instance (block : HeaderBlock) (room : Nat) : Decidable (block.Fits room) :=
  inferInstanceAs (Decidable (_ ≤ _))

end HeaderBlock

/-- What `room` bytes of memory hold of the head of a stream, and the rest of the stream: lines as
far as they fit, each with a NUL for its last byte, up to an empty line. Every line uses up some of
the room, so `room` rounds are enough. -/
def headScan : Nat → (room : Nat) → Bytes → Bytes × Bytes
  | 0, _, stream => ([], stream)
  | rounds + 1, room, stream =>
      let line := scan room nul stream
      if line.1 = [] ∨ line.1 = [cr] then ([], line.2)
      else if room ≤ line.1.length then (line.1.dropLast ++ [nul], line.2)
      else
        let later := headScan rounds (room - line.1.length) line.2
        (line.1.dropLast ++ nul :: later.1, later.2)

theorem length_headScan_le (rounds room : Nat) (stream : Bytes) :
    (headScan rounds room stream).1.length ≤ room := by
  induction rounds generalizing room stream with
  | zero => simp [headScan]
  | succ rounds ih =>
      have fits := length_scan_le room nul stream
      unfold headScan
      dsimp only
      split
      · exact Nat.zero_le _
      · rename_i something
        have positive := List.length_pos_iff.mpr (not_or.mp something).1
        split
        · simp only [List.length_append, List.length_dropLast, List.length_singleton]
          omega
        · have later := ih (room - (scan room nul stream).1.length) (scan room nul stream).2
          simp only [List.length_append, List.length_dropLast, List.length_cons]
          omega

theorem length_headScan_rest_le (rounds room : Nat) (stream : Bytes) :
    (headScan rounds room stream).2.length ≤ stream.length := by
  induction rounds generalizing room stream with
  | zero => exact le_rfl
  | succ rounds ih =>
      have line := length_scan_rest_le room nul stream
      unfold headScan
      dsimp only
      split
      · exact line
      · split
        · exact line
        · exact (ih _ _).trans line

/-- What is left behind the block is left behind its first line. -/
theorem length_headScan_succ_le (rounds room : Nat) (stream : Bytes) :
    (headScan (rounds + 1) room stream).2.length ≤ (scan room nul stream).2.length := by
  unfold headScan
  dsimp only
  split
  · exact le_rfl
  · split
    · exact le_rfl
    · exact length_headScan_rest_le _ _ _

section

variable {lines : List Bytes}

/-- A line that leaves room for what follows is held whole, and the scan goes on behind it. -/
theorem headScan_line {line : Bytes} (plain : line ≠ [] ∧ CrlfFree nul line) {rounds room : Nat}
    (fits : line.length + 1 < room) (rest : Bytes) :
    headScan (rounds + 1) room (line ++ cr :: lf :: rest) =
      (line ++ nul :: (headScan rounds (room - (line.length + 1)) rest).1,
        (headScan rounds (room - (line.length + 1)) rest).2) := by
  have more : ¬ (line ++ [cr] = [] ∨ line ++ [cr] = [cr]) := by
    simp [plain.1]
  rw [headScan, scan_line plain.2 fits]
  dsimp only
  rw [if_neg more, if_neg (by simp; omega), List.dropLast_concat, List.length_append,
    List.length_singleton]

/-- A line that leaves no room is cut, and the scan ends in it. -/
theorem headScan_overlong {line : Bytes} (free : CrlfFree nul line) {rounds room : Nat}
    (long : room ≤ line.length + 1) (rest : Bytes) :
    (headScan (rounds + 1) room (line ++ cr :: lf :: rest)).2 =
      (line ++ [cr]).drop room ++ lf :: rest := by
  have split : line ++ cr :: lf :: rest = (line ++ [cr]) ++ lf :: rest := by simp
  have full : ((line ++ [cr]).take room).length = room := by
    rw [List.length_take, List.length_append, List.length_singleton]
    omega
  rw [headScan, split, scan_long free.snoc_cr (by simpa using long)]
  dsimp only
  split
  · rfl
  · rw [if_pos full.ge]

/-- The empty line ends the scan; with a single byte of room its LF stays unread. -/
theorem headScan_empty {rounds room : Nat} (positive : 0 < room) (rest : Bytes) :
    headScan (rounds + 1) room (cr :: lf :: rest) =
      ([], if room = 1 then lf :: rest else rest) := by
  have free : CrlfFree nul [] := trivial
  by_cases one : room = 1
  · subst one
    have full := scan_line_full free rest
    rw [List.nil_append] at full
    rw [headScan, show 1 = ([] : Bytes).length + 1 from rfl, full]
    simp
  · have whole := scan_line free (show ([] : Bytes).length + 1 < room by simp; omega)
      rest
    rw [List.nil_append] at whole
    rw [headScan, whole]
    simp [one]

/-- A block that fits is held whole, and the scan ends behind its empty line. -/
theorem headScan_of_fits (plain : ∀ line ∈ lines, line ≠ [] ∧ CrlfFree nul line)
    {rounds room : Nat} (fits : (lines.flatMap fun line => line ++ [nul]).length + 2 ≤ room)
    (enough : room ≤ rounds) (rest : Bytes) :
    headScan rounds room (lines.flatMap (fun line => line ++ [cr, lf]) ++ cr :: lf :: rest) =
      (lines.flatMap (fun line => line ++ [nul]), rest) := by
  induction lines generalizing rounds room with
  | nil =>
      obtain ⟨rounds, rfl⟩ : ∃ n, rounds = n + 1 := ⟨rounds - 1, by simp at fits; omega⟩
      simp only [List.flatMap_nil, List.nil_append, List.length_nil] at fits ⊢
      rw [headScan_empty (by omega), if_neg (by omega)]
  | cons line lines ih =>
      obtain ⟨rounds, rfl⟩ : ∃ n, rounds = n + 1 := ⟨rounds - 1, by omega⟩
      simp only [List.flatMap_cons, List.length_append, List.length_singleton] at fits
      have later : headScan rounds (room - (line.length + 1))
          (lines.flatMap (fun line => line ++ [cr, lf]) ++ cr :: lf :: rest) =
            (lines.flatMap (fun line => line ++ [nul]), rest) :=
        ih (fun l member => plain l (List.mem_cons_of_mem line member)) (by omega) (by omega)
      have assoc : (line :: lines).flatMap (fun line => line ++ [cr, lf]) ++ cr :: lf :: rest =
          line ++ cr :: lf ::
            (lines.flatMap (fun line => line ++ [cr, lf]) ++ cr :: lf :: rest) := by
        simp
      rw [assoc, headScan_line (plain line List.mem_cons_self) (by omega), later]
      simp

/-- Of a block that does not fit, some bytes stay unread. -/
theorem headScan_of_not_fits (plain : ∀ line ∈ lines, line ≠ [] ∧ CrlfFree nul line)
    {rounds room : Nat} (long : room < (lines.flatMap fun line => line ++ [nul]).length + 2)
    (positive : 0 < room) (enough : room ≤ rounds) (rest : Bytes) :
    ∃ more, more ≠ [] ∧
      (headScan rounds room
        (lines.flatMap (fun line => line ++ [cr, lf]) ++ cr :: lf :: rest)).2 = more ++ rest := by
  induction lines generalizing rounds room with
  | nil =>
      obtain ⟨rounds, rfl⟩ : ∃ n, rounds = n + 1 := ⟨rounds - 1, by omega⟩
      simp only [List.flatMap_nil, List.nil_append, List.length_nil] at long ⊢
      rw [headScan_empty positive, if_pos (by omega)]
      exact ⟨[lf], by simp, rfl⟩
  | cons line lines ih =>
      obtain ⟨rounds, rfl⟩ : ∃ n, rounds = n + 1 := ⟨rounds - 1, by omega⟩
      simp only [List.flatMap_cons, List.length_append, List.length_singleton] at long
      have assoc : (line :: lines).flatMap (fun line => line ++ [cr, lf]) ++ cr :: lf :: rest =
          line ++ cr :: lf ::
            (lines.flatMap (fun line => line ++ [cr, lf]) ++ cr :: lf :: rest) := by
        simp
      rw [assoc]
      by_cases fits : line.length + 1 < room
      · rw [headScan_line (plain line List.mem_cons_self) fits]
        exact ih (fun l member => plain l (List.mem_cons_of_mem line member)) (by omega) (by omega)
          (by omega)
      · rw [headScan_overlong (plain line List.mem_cons_self).2 (by omega)]
        exact ⟨(line ++ [cr]).drop room ++
          lf :: (lines.flatMap (fun line => line ++ [cr, lf]) ++ [cr, lf]), by simp, by simp⟩

end

namespace HeaderBlock

variable (block : HeaderBlock) {room : Nat}

/-- A buffer that is large enough holds the whole block, and the body comes next. -/
theorem headScan_eq (fits : block.Fits room) (rest : Bytes) :
    headScan room room (block.bytes ++ rest) = (block.stored, rest) := by
  have held := headScan_of_fits block.plain fits le_rfl rest
  simpa [bytes, stored] using held

/-- Only a buffer that is large enough has the body come next. -/
theorem headScan_more (positive : 0 < room) (long : ¬ block.Fits room) (rest : Bytes) :
    ∃ more, more ≠ [] ∧ (headScan room room (block.bytes ++ rest)).2 = more ++ rest := by
  have held := headScan_of_not_fits block.plain (not_le.mp long) positive le_rfl rest
  simpa [bytes] using held

/-- A block ends with an LF. -/
theorem getLast?_bytes : block.bytes.getLast? = some lf := by
  have split : block.bytes =
      (block.lines.flatMap (fun line => line ++ [cr, lf]) ++ [cr]) ++ [lf] := by
    simp [bytes]
  rw [split, List.getLast?_concat]

/-- In no case is a byte behind the block read. -/
theorem suffix_headScan (positive : 0 < room) (rest : Bytes) :
    rest <:+ (headScan room room (block.bytes ++ rest)).2 := by
  by_cases fits : block.Fits room
  · rw [block.headScan_eq fits]
  · obtain ⟨more, -, left⟩ := block.headScan_more positive fits rest
    rw [left]
    exact List.suffix_append more rest

end HeaderBlock

/-- The header of a response with a body of five bytes. -/
def okHeader : HeaderBlock where
  lines := [ascii "HTTP/1.1 200 OK", ascii "Content-Length: 5"]
  plain := by decide

end Hfc
