/-
Module: Hfc.Proofs.HeadArrival
Layer: Proofs
Purpose: When a header that is reported as received was received whole, on any transport. A call
  that fails in a line ends that line, so the read loop takes the lines of a block as they are
  exactly when no call fails inside the block, but directly behind a zero byte of a line: there the
  byte that the loop clears is zero already.
Imports: Hfc.Proofs.ResponseHead, Hfc.Proofs.LineDelivery, Hfc.Spec.FieldBlock
Main exports: afterBytes, wireLines, LinesArrive, arrivedHead_of_linesArrive,
  linesArrive_of_arrivedHead, HeadWhole, response_head_whole_iff
-/
import Hfc.Proofs.ResponseHead
import Hfc.Proofs.LineDelivery
import Hfc.Spec.FieldBlock

namespace Hfc

open ByteText CrlfScan

/-! ### Bytes that come one by one

A text that is delivered is read whole, if there is room for it. A call that fails behind it ends
the line there, and the next line starts with what comes then. -/

/-- The connection behind `n` receive calls for one byte. -/
def afterBytes (net : Transport) (httpc : Httpc) : Nat → World → World
  | 0, w => w
  | n + 1, w => afterBytes net httpc n (httpcRecv net httpc w false 1).world

section

variable {net : Transport} {httpc : Httpc}

theorem afterBytes_add (n m : Nat) (w : World) :
    afterBytes net httpc (n + m) w = afterBytes net httpc m (afterBytes net httpc n w) := by
  induction n generalizing w with
  | zero => rw [Nat.zero_add, afterBytes]
  | succ n ih => rw [Nat.add_right_comm, afterBytes, afterBytes, ih]

/-- What is delivered goes on behind its first bytes. -/
theorem Delivers.behind {w : World} {text more : Bytes}
    (delivers : Delivers net httpc w (text ++ more)) :
    Delivers net httpc (afterBytes net httpc text.length w) more := by
  induction text generalizing w with
  | nil => exact delivers
  | cons b text ih =>
      cases delivers with
      | byte arrives data later => exact ih later

/-- What is delivered is the head of the stream, and it is what is taken off it. -/
theorem Delivers.unread {w : World} {text more : Bytes}
    (delivers : Delivers net httpc w (text ++ more)) :
    w.unread = text ++ (afterBytes net httpc text.length w).unread := by
  induction text generalizing w with
  | nil => rfl
  | cons b text ih =>
      cases delivers with
      | byte arrives data later =>
          obtain ⟨-, b', rest, stream, data', one⟩ :=
            (httpcRecv_byte net httpc w).resolve_left fun nothing => not_lt.mpr nothing.1 arrives
          have same : b' = b := List.singleton_inj.mp (data'.symm.trans data)
          have left := one.unread
          rw [stream] at left
          rw [stream, same, List.cons_append, List.length_cons, afterBytes, ← ih later]
          exact congrArg (b :: ·) left.symm

/-- The call that ends what is delivered takes nothing. -/
theorem Delivers.unread_stop {w : World} {text : Bytes} (delivers : Delivers net httpc w text) :
    w.unread = text ++ (afterBytes net httpc (text.length + 1) w).unread := by
  have whole : Delivers net httpc w (text ++ []) := by rwa [List.append_nil]
  cases whole.behind with
  | stop nothing =>
      have untouched : Consumes _ 0 _ := ((httpcRecv_byte net httpc
        (afterBytes net httpc text.length w)).resolve_right
          fun something => not_lt.mpr nothing something.1).2
      rw [afterBytes_add, whole.unread]
      exact congrArg (text ++ ·) untouched.unread.symm

/-- The reader goes through a text without a line end that is delivered and fits. -/
theorem readOneLineLoop_text {w : World} {text more : Bytes}
    (delivers : Delivers net httpc w (text ++ more)) {last : Byte} (free : CrlfFree last text)
    (room : Nat) (stored : Bytes) :
    readOneLineLoop net httpc (text.length + room) last stored w =
      readOneLineLoop net httpc room (lastByte last text) (stored ++ text)
        (afterBytes net httpc text.length w) := by
  induction text generalizing w last stored with
  | nil => simp [lastByte, afterBytes]
  | cons b text ih =>
      cases delivers with
      | byte arrives data later =>
          rw [List.length_cons, Nat.add_right_comm, readOneLineLoop]
          dsimp only
          rw [if_neg (not_le.mpr arrives), data, List.headD_cons, if_neg free.1, ih later free.2,
            List.append_assoc]
          rfl

/-- A line that is delivered with its end, and leaves room, is read whole. -/
theorem readLine_arrives {w : World} {line s : Bytes} (delivers : Delivers net httpc w s)
    (all : line ++ [cr, lf] <+: s) (free : CrlfFree nul line) {room : Nat}
    (fits : line.length + 1 < room) :
    httpcReadOneLine net httpc w room =
      { stored := line ++ [cr], world := afterBytes net httpc (line.length + 2) w } := by
  obtain ⟨more, rfl⟩ := all
  obtain ⟨spare, rfl⟩ : ∃ spare, room = (line ++ [cr]).length + (spare + 1) :=
    ⟨room - line.length - 2, by rw [List.length_append, List.length_singleton]; omega⟩
  have split : line ++ [cr, lf] ++ more = (line ++ [cr]) ++ lf :: more := by simp
  rw [split] at delivers
  have size : (max (((line ++ [cr]).length + (spare + 1) : Nat) : Int) 1).toNat =
      (line ++ [cr]).length + (spare + 1) := by omega
  rw [httpcReadOneLine, size, readOneLineLoop_text delivers free.snoc_cr]
  cases delivers.behind with
  | byte arrives data later =>
      rw [readOneLineLoop]
      dsimp only
      rw [if_neg (not_le.mpr arrives), data, List.headD_cons,
        if_pos ⟨rfl, lastByte_snoc nul line cr⟩, List.nil_append]
      rw [show line.length + 2 = (line ++ [cr]).length + 1 by simp, afterBytes_add]
      rfl

/-- A text behind which a call fails, or the stream ends, is read as a line of its own. -/
theorem readLine_paused {w : World} {text : Bytes} (delivers : Delivers net httpc w text)
    (free : CrlfFree nul text) {room : Nat} (fits : text.length < room) :
    httpcReadOneLine net httpc w room =
      { stored := text, world := afterBytes net httpc (text.length + 1) w } := by
  have whole : Delivers net httpc w (text ++ []) := by rwa [List.append_nil]
  obtain ⟨spare, rfl⟩ : ∃ spare, room = text.length + (spare + 1) :=
    ⟨room - text.length - 1, by omega⟩
  have size : (max ((text.length + (spare + 1) : Nat) : Int) 1).toNat =
      text.length + (spare + 1) := by omega
  rw [httpcReadOneLine, size, readOneLineLoop_text whole free]
  cases whole.behind with
  | stop nothing =>
      rw [readOneLineLoop]
      dsimp only
      rw [if_pos nothing, List.nil_append, afterBytes_add]
      rfl

/-! ### A block that arrives

The lines of a block are delivered one after the other. A call that fails is no harm in front of a
line or directly behind a zero byte of it, since the reader then puts one in itself. -/

/-- Some lines on the wire, and the empty line behind them. -/
def wireLines : List Bytes → Bytes
  | [] => [cr, lf]
  | line :: lines => line ++ cr :: lf :: wireLines lines

theorem HeaderBlock.bytes_eq_wireLines (block : HeaderBlock) :
    block.bytes = wireLines block.lines := by
  rw [HeaderBlock.bytes]
  generalize block.lines = lines
  induction lines with
  | nil => rfl
  | cons line lines ih =>
      rw [wireLines, ← ih]
      simp

/-- The lines of a block come one after the other, and no call fails in front of the end of the
block; or one does, directly behind a zero byte of a line that goes on. -/
inductive LinesArrive (net : Transport) (httpc : Httpc) : World → List Bytes → Prop where
  | ended {w : World} {s : Bytes} (delivers : Delivers net httpc w s) (all : [cr, lf] <+: s) :
      LinesArrive net httpc w []
  | line {w : World} {s line : Bytes} {lines : List Bytes} (delivers : Delivers net httpc w s)
      (all : line ++ [cr, lf] <+: s)
      (later : LinesArrive net httpc (afterBytes net httpc (line.length + 2) w) lines) :
      LinesArrive net httpc w (line :: lines)
  | pause {w : World} {text more : Bytes} {lines : List Bytes}
      (delivers : Delivers net httpc w (text ++ [nul])) (goesOn : more ≠ [])
      (later : LinesArrive net httpc (afterBytes net httpc (text.length + 2) w) (more :: lines)) :
      LinesArrive net httpc w ((text ++ nul :: more) :: lines)

/-- A block of which every byte is delivered arrives. -/
theorem LinesArrive.of_delivers {lines : List Bytes} {w : World} {s : Bytes}
    (delivers : Delivers net httpc w s) (all : wireLines lines <+: s) :
    LinesArrive net httpc w lines := by
  induction lines generalizing w s with
  | nil => exact .ended delivers all
  | cons line lines ih =>
      obtain ⟨more, rfl⟩ := all
      have split : wireLines (line :: lines) ++ more =
          (line ++ [cr, lf]) ++ (wireLines lines ++ more) := by simp [wireLines]
      rw [split] at delivers
      have behind := delivers.behind
      rw [List.length_append] at behind
      refine .line (s := wireLines (line :: lines) ++ more) (by rw [split]; exact delivers) ?_
        (ih behind (List.prefix_append _ _))
      rw [split]
      exact List.prefix_append _ _

/-- The rounds of `arrivedHead`, by what the reader stored. -/
theorem arrivedHead_line {rounds room : Nat} {w w' : World} {stored : Bytes}
    (read : httpcReadOneLine net httpc w room = { stored := stored, world := w' }) :
    arrivedHead net httpc (rounds + 1) room w =
      if stored = [] ∨ stored = [cr] then ([], w')
      else if room ≤ stored.length then (stored.dropLast ++ [nul], w')
      else (stored.dropLast ++ nul :: (arrivedHead net httpc rounds (room - stored.length) w').1,
        (arrivedHead net httpc rounds (room - stored.length) w').2) := by
  rw [arrivedHead, read]

/-- A line of some text that leaves room. -/
theorem arrivedHead_text {rounds room : Nat} {w w' : World} {text : Bytes} {last : Byte}
    (read : httpcReadOneLine net httpc w room = { stored := text ++ [last], world := w' })
    (something : text ++ [last] ≠ [cr]) (fits : text.length + 1 < room) :
    arrivedHead net httpc (rounds + 1) room w =
      (text ++ nul :: (arrivedHead net httpc rounds (room - (text.length + 1)) w').1,
        (arrivedHead net httpc rounds (room - (text.length + 1)) w').2) := by
  have more : ¬ (text ++ [last] = [] ∨ text ++ [last] = [cr]) := by simp [something]
  rw [arrivedHead_line read, if_neg more, List.dropLast_concat, List.length_append,
    List.length_singleton, if_neg (by omega)]

/-- The lines of a block as they stand in the buffer when the block arrives and fits. -/
theorem arrivedHead_of_linesArrive {w : World} {lines : List Bytes}
    (arrive : LinesArrive net httpc w lines)
    (plain : ∀ line ∈ lines, line ≠ [] ∧ CrlfFree nul line) {rounds room : Nat}
    (fits : (storedLines lines).length + 2 ≤ room) (enough : room ≤ rounds) {rest : Bytes}
    (stream : w.unread = wireLines lines ++ rest) :
    (arrivedHead net httpc rounds room w).1 = storedLines lines ∧
      (arrivedHead net httpc rounds room w).2.unread = rest := by
  induction arrive generalizing rounds room with
  | @ended w s delivers all =>
      obtain ⟨rounds, rfl⟩ : ∃ n, rounds = n + 1 := ⟨rounds - 1, by omega⟩
      have inRoom : ([] : Bytes).length + 1 < room := by
        rw [List.length_nil]
        omega
      have read := readLine_arrives delivers all (show CrlfFree nul [] from trivial) inRoom
      rw [arrivedHead_line read, if_pos (.inr rfl)]
      obtain ⟨more, rfl⟩ := all
      have unread := delivers.unread
      rw [stream] at unread
      exact ⟨rfl, (List.append_cancel_left unread).symm⟩
  | @line w s line lines delivers all later ih =>
      obtain ⟨rounds, rfl⟩ : ∃ n, rounds = n + 1 := ⟨rounds - 1, by omega⟩
      obtain ⟨something, free⟩ := plain line List.mem_cons_self
      rw [storedLines_cons, List.length_append, List.length_cons] at fits
      have read := readLine_arrives delivers all free (show line.length + 1 < room by omega)
      obtain ⟨more, rfl⟩ := all
      have unread := delivers.unread
      rw [stream, List.length_append] at unread
      have split : wireLines (line :: lines) ++ rest =
          (line ++ [cr, lf]) ++ (wireLines lines ++ rest) := by simp [wireLines]
      rw [split] at unread
      have later := ih (fun l member => plain l (List.mem_cons_of_mem line member))
        (show (storedLines lines).length + 2 ≤ room - (line.length + 1) by omega)
        (show room - (line.length + 1) ≤ rounds by omega)
      obtain ⟨held, left⟩ := later (List.append_cancel_left unread).symm
      rw [arrivedHead_text read (by simpa using something) (by omega), held]
      exact ⟨(storedLines_cons _ _).symm, left⟩
  | @pause w text more lines delivers goesOn later ih =>
      obtain ⟨rounds, rfl⟩ : ∃ n, rounds = n + 1 := ⟨rounds - 1, by omega⟩
      obtain ⟨something, free⟩ := plain _ List.mem_cons_self
      rw [storedLines_cons, List.length_append, List.length_append, List.length_cons,
        List.length_cons] at fits
      have split : text ++ nul :: more = (text ++ [nul]) ++ more := by simp
      rw [split] at free
      have inRoom : (text ++ [nul]).length < room := by
        rw [List.length_append, List.length_singleton]
        omega
      -- A call fails behind a zero byte, which the loop puts there again in the place of the last
      -- byte it read.
      have read := readLine_paused delivers free.of_append inRoom
      have unread := delivers.unread_stop
      rw [List.length_append, List.length_singleton] at read unread
      have behind : wireLines ((text ++ nul :: more) :: lines) ++ rest =
          (text ++ [nul]) ++ (wireLines (more :: lines) ++ rest) := by simp [wireLines]
      rw [stream, behind] at unread
      have freeMore : CrlfFree nul more := by
        have dropped := free.drop (text ++ [nul]).length
        rwa [List.drop_left] at dropped
      have room' : (storedLines (more :: lines)).length + 2 ≤ room - (text.length + 1) := by
        rw [storedLines_cons, List.length_append, List.length_cons]
        omega
      have rest' := ih
        (fun l member => (List.mem_cons.mp member).elim (fun same => same ▸ ⟨goesOn, freeMore⟩)
          fun other => plain l (List.mem_cons_of_mem _ other))
        room' (show room - (text.length + 1) ≤ rounds by omega)
      obtain ⟨held, left⟩ := rest' (List.append_cancel_left unread).symm
      have noCr : text ++ [nul] ≠ [cr] := by
        intro same
        have last := congrArg List.getLast? same
        rw [List.getLast?_concat] at last
        exact absurd last (by decide)
      rw [arrivedHead_text read noCr (by omega), held]
      refine ⟨?_, left⟩
      rw [storedLines_cons, storedLines_cons, List.append_assoc, List.cons_append]

/-! ### A block that did not arrive

The other direction: what stands in the buffer determines what was delivered, by the number of bytes
and of line ends that were taken. -/

/-- What the reader takes of a stream is what it stores and the line end it may have met. -/
theorem readLine_taken (net : Transport) (httpc : Httpc) (w : World) {room : Nat}
    (positive : 0 < room) :
    ∃ front, w.unread = front ++ (httpcReadOneLine net httpc w room).world.unread ∧
      front.length ≤ room ∧
      front.length ≤ (httpcReadOneLine net httpc w room).stored.length + crlfCount nul front := by
  have size : (max (room : Int) 1).toNat = room := by omega
  obtain ⟨s, delivers, u, stream⟩ := exists_delivers net httpc w
  obtain ⟨stored, k, consumes, count⟩ := readOneLineLoop_delivered delivers room nul []
  obtain ⟨front, split, fits, bound⟩ := scan_taken room nul s
  rw [List.nil_append] at stored
  rw [httpcReadOneLine, size, stored]
  refine ⟨front, ?_, fits, bound⟩
  have length := congrArg List.length split
  rw [List.length_append] at length
  obtain rfl : k = front.length := by omega
  rw [consumes.unread, ← stream]
  conv_lhs => rw [split, List.append_assoc]
  conv_rhs => rw [split, List.append_assoc, List.drop_left]

/-- The read loop leaves no more of the stream unaccounted for than a CRLF for each line it closed,
and one byte. -/
theorem arrivedHead_taken (net : Transport) (httpc : Httpc) (rounds : Nat) {room : Nat}
    (positive : 0 < room) (w : World) :
    ∃ front, w.unread = front ++ (arrivedHead net httpc rounds room w).2.unread ∧
      front.length ≤ (arrivedHead net httpc rounds room w).1.length + crlfCount nul front + 1 := by
  induction rounds generalizing room w with
  | zero => exact ⟨[], rfl, Nat.zero_le _⟩
  | succ rounds ih =>
      obtain ⟨front, stream, -, bound⟩ := readLine_taken net httpc w positive
      rw [arrivedHead]
      dsimp only
      generalize httpcReadOneLine net httpc w room = line at stream bound ⊢
      by_cases blank : line.stored = [] ∨ line.stored = [cr]
      · rw [if_pos blank]
        refine ⟨front, stream, ?_⟩
        rcases blank with nothing | one
        · rw [nothing, List.length_nil] at bound
          exact (Nat.le_succ_of_le bound).trans (by simp)
        · rw [one, List.length_singleton] at bound
          simp only [List.length_nil]
          omega
      · rw [if_neg blank]
        have something := (not_or.mp blank).1
        by_cases full : room ≤ line.stored.length
        · rw [if_pos full]
          refine ⟨front, stream, ?_⟩
          rw [length_cleared something, List.length_nil, Nat.add_zero]
          exact Nat.le_succ_of_le bound
        · rw [if_neg full]
          obtain ⟨later, stream', bound'⟩ :=
            ih (Nat.sub_pos_of_lt (not_le.mp full)) line.world
          refine ⟨front ++ later, by rw [stream, List.append_assoc, ← stream'], ?_⟩
          have closed := crlfCount_nul_le (lastByte nul front) later
          rw [length_cleared something, List.length_append, crlfCount_append]
          omega

/-- An empty line ends the header at once, however much of it comes. -/
theorem arrivedHead_empty (net : Transport) (httpc : Httpc) (rounds : Nat) {room : Nat}
    (positive : 0 < room) {w : World} {u : Bytes} (stream : w.unread = cr :: lf :: u) :
    (arrivedHead net httpc rounds room w).1 = [] := by
  cases rounds with
  | zero => rfl
  | succ rounds =>
      have size : (max (room : Int) 1).toNat = room := by omega
      obtain ⟨s, delivers, part⟩ := exists_delivers net httpc w
      rw [stream] at part
      obtain ⟨stored, -⟩ := readOneLineLoop_delivered delivers room nul []
      have inLine : (httpcReadOneLine net httpc w room).stored <+: [cr] := by
        rw [httpcReadOneLine, size, stored]
        exact scan_isPrefix (show CrlfFree nul [] from trivial) part room
      have blank : (httpcReadOneLine net httpc w room).stored = [] ∨
          (httpcReadOneLine net httpc w room).stored = [cr] := by
        refine (List.prefix_cons_iff.mp inLine).imp_right ?_
        rintro ⟨t, same, nothing⟩
        rw [same, List.prefix_nil.mp nothing]
      rw [arrivedHead]
      dsimp only
      rw [if_pos blank]

theorem length_wireLines (lines : List Bytes) :
    (wireLines lines).length = (storedLines lines).length + lines.length + 2 := by
  induction lines with
  | nil => rfl
  | cons line lines ih =>
      rw [wireLines, storedLines_cons]
      simp only [List.length_append, List.length_cons, ih]
      omega

theorem crlfCount_wireLines {lines : List Bytes}
    (plain : ∀ line ∈ lines, line ≠ [] ∧ CrlfFree nul line) :
    crlfCount nul (wireLines lines) = lines.length + 1 := by
  induction lines with
  | nil => rfl
  | cons line lines ih =>
      rw [wireLines, crlfCount_line (by decide), crlfCount_eq_zero.mpr (plain line (by simp)).2,
        ih fun l member => plain l (List.mem_cons_of_mem line member), List.length_cons]
      omega

/-- A line that stands in the buffer with nothing cut off it, and the rest of the block behind it, was
read as it is or up to a zero byte in it. -/
theorem linesArrive_line {rounds room : Nat} {w : World} {line rest : Bytes} {lines : List Bytes}
    (positive : 0 < room) (free : CrlfFree nul line)
    (plain : ∀ l ∈ lines, l ≠ [] ∧ CrlfFree nul l)
    (stream : w.unread = wireLines (line :: lines) ++ rest)
    (more : ¬ ((httpcReadOneLine net httpc w room).stored = [] ∨
      (httpcReadOneLine net httpc w room).stored = [cr]))
    (space : ¬ room ≤ (httpcReadOneLine net httpc w room).stored.length)
    (held : (arrivedHead net httpc (rounds + 1) room w).1 = storedLines (line :: lines))
    (left : (arrivedHead net httpc (rounds + 1) room w).2.unread = rest)
    (ih : ∀ {room : Nat} {w : World} {lines : List Bytes}, 0 < room →
      (∀ line ∈ lines, line ≠ [] ∧ CrlfFree nul line) → w.unread = wireLines lines ++ rest →
      (arrivedHead net httpc rounds room w).1 = storedLines lines →
      (arrivedHead net httpc rounds room w).2.unread = rest →
      LinesArrive net httpc w lines ∧ (storedLines lines).length + 2 ≤ room) :
    LinesArrive net httpc w (line :: lines) ∧ (storedLines (line :: lines)).length + 2 ≤ room := by
  obtain ⟨s, delivers, part⟩ := exists_delivers net httpc w
  have size : (max (room : Int) 1).toNat = room := by omega
  have whole : wireLines (line :: lines) ++ rest =
      (line ++ [cr, lf]) ++ (wireLines lines ++ rest) := by simp [wireLines]
  rw [storedLines_cons] at held ⊢
  rw [List.length_append, List.length_cons]
  by_cases all : line ++ [cr, lf] <+: s
  · -- The line comes whole, and what was not cut off left room for its end.
    have fits : line.length + 1 < room := by
      by_contra long
      obtain ⟨more', rfl⟩ := all
      have split : line ++ [cr, lf] ++ more' = (line ++ [cr]) ++ lf :: more' := by simp
      rw [split] at delivers
      obtain ⟨stored, -⟩ := readOneLineLoop_delivered delivers room nul []
      rw [scan_long free.snoc_cr (by simp; omega), List.nil_append] at stored
      apply space
      rw [httpcReadOneLine, size, stored, List.length_take, List.length_append,
        List.length_singleton]
      omega
    have read := readLine_arrives delivers all free fits
    rw [read] at more
    have something : line ++ [cr] ≠ [cr] := (not_or.mp more).2
    rw [arrivedHead_text read something fits] at held left
    obtain ⟨more', rfl⟩ := all
    have unread := delivers.unread
    rw [stream, whole, List.length_append] at unread
    obtain ⟨arrive, room'⟩ := ih (by omega) plain (List.append_cancel_left unread).symm
      (List.cons.inj (List.append_cancel_left held)).2 left
    exact ⟨.line delivers (List.prefix_append _ _) arrive, by omega⟩
  · -- A call fails in the line, which the reader ends there.
    have inLine : s <+: line ++ [cr] := by
      rw [stream, whole] at part
      have front : line ++ [cr] <+: (line ++ [cr, lf]) ++ (wireLines lines ++ rest) := by
        rw [show line ++ [cr, lf] = (line ++ [cr]) ++ [lf] by simp, List.append_assoc]
        exact List.prefix_append _ _
      refine List.prefix_of_prefix_length_le part front ?_
      by_contra long
      refine all (List.prefix_of_prefix_length_le (List.prefix_append _ _) part ?_)
      simp only [List.length_append, List.length_cons, List.length_nil] at long ⊢
      omega
    have freeLine : CrlfFree nul s := by
      obtain ⟨tail, same⟩ := inLine
      have freeCr := free.snoc_cr
      rw [← same] at freeCr
      exact freeCr.of_append
    have fits : s.length < room := by
      by_contra long
      have uncut : Delivers net httpc w (s ++ []) := by rwa [List.append_nil]
      obtain ⟨stored, -⟩ := readOneLineLoop_delivered uncut room nul []
      rw [scan_long freeLine (not_lt.mp long), List.nil_append] at stored
      apply space
      rw [httpcReadOneLine, size, stored, List.length_take]
      omega
    have read := readLine_paused delivers freeLine fits
    rw [read] at more
    obtain ⟨something, noCr⟩ := not_or.mp more
    obtain ⟨text, last, rfl⟩ := (List.eq_nil_or_concat s).resolve_left something
    rw [List.concat_eq_append] at *
    rw [List.length_append, List.length_singleton] at fits read
    rw [arrivedHead_text read noCr fits] at held left
    dsimp only at held left
    have unread := delivers.unread_stop
    rw [List.length_append, List.length_singleton, stream] at unread
    rcases List.prefix_concat_iff.mp inLine with same | short
    · -- Between CR and LF: the LF would be one byte too many in the buffer.
      obtain ⟨rfl, -⟩ := List.append_inj' same rfl
      have behind : (afterBytes net httpc (text.length + 1 + 1) w).unread =
          (lf :: wireLines lines) ++ rest := by
        have split : wireLines (text :: lines) ++ rest =
            (text ++ [cr]) ++ (lf :: wireLines lines ++ rest) := by simp [wireLines]
        rw [split, same] at unread
        exact (List.append_cancel_left unread).symm
      obtain ⟨front, taken, bound⟩ := arrivedHead_taken net httpc rounds
        (show 0 < room - (text.length + 1) by omega) (afterBytes net httpc (text.length + 1 + 1) w)
      rw [left, behind] at taken
      obtain rfl := List.append_cancel_right taken
      have closed : crlfCount nul (lf :: wireLines lines) = lines.length + 1 := by
        rw [crlfCount, if_neg (by decide), Nat.zero_add,
          crlfCount_of_ne_cr (by decide) (show nul ≠ cr by decide), crlfCount_wireLines plain]
      rw [(List.cons.inj (List.append_cancel_left held)).2, closed, List.length_cons,
        length_wireLines] at bound
      omega
    · obtain ⟨goesOn, rfl⟩ := short
      -- The byte the loop cleared is the one the line has there.
      rw [List.append_assoc, List.append_assoc] at held
      obtain ⟨rfl, later⟩ := List.cons.inj (List.append_cancel_left held)
      have behind : (afterBytes net httpc (text.length + 1 + 1) w).unread =
          wireLines (goesOn :: lines) ++ rest := by
        have split : wireLines ((text ++ [nul] ++ goesOn) :: lines) ++ rest =
            (text ++ [nul]) ++ (wireLines (goesOn :: lines) ++ rest) := by simp [wireLines]
        rw [split] at unread
        exact (List.append_cancel_left unread).symm
      by_cases nothing : goesOn = []
      · subst nothing
        rw [arrivedHead_empty net httpc rounds (by omega) behind] at later
        cases later
      · have freeRest : CrlfFree nul goesOn := by
          have dropped := free.drop (text ++ [nul]).length
          rwa [List.drop_left] at dropped
        have plain' : ∀ l ∈ goesOn :: lines, l ≠ [] ∧ CrlfFree nul l :=
          fun l member => (List.mem_cons.mp member).elim
            (fun same => same ▸ ⟨nothing, freeRest⟩) (plain l)
        obtain ⟨arrive, room'⟩ := ih (by omega) plain' behind
          (by rw [later, storedLines_cons]; rfl) left
        have shape : text ++ [nul] ++ goesOn = text ++ nul :: goesOn := by simp
        rw [storedLines_cons, List.length_append, List.length_cons] at room'
        rw [shape, List.length_append, List.length_cons]
        exact ⟨.pause delivers nothing arrive, by omega⟩

/-- Where the lines of a block stand in the buffer as they are and the stream goes on behind the
block, the block fits and has arrived. -/
theorem linesArrive_of_arrivedHead {rounds room : Nat} {w : World} {lines : List Bytes}
    {rest : Bytes} (positive : 0 < room) (plain : ∀ line ∈ lines, line ≠ [] ∧ CrlfFree nul line)
    (stream : w.unread = wireLines lines ++ rest)
    (held : (arrivedHead net httpc rounds room w).1 = storedLines lines)
    (left : (arrivedHead net httpc rounds room w).2.unread = rest) :
    LinesArrive net httpc w lines ∧ (storedLines lines).length + 2 ≤ room := by
  have total := congrArg List.length stream
  rw [List.length_append, length_wireLines] at total
  induction rounds generalizing room w lines with
  | zero =>
      have nothing : w.unread = rest := left
      rw [nothing] at total
      omega
  | succ rounds ih =>
      obtain ⟨front, taken, fits, -⟩ := readLine_taken net httpc w positive
      by_cases blank : (httpcReadOneLine net httpc w room).stored = [] ∨
          (httpcReadOneLine net httpc w room).stored = [cr]
      · rw [arrivedHead] at held left
        dsimp only at held left
        rw [if_pos blank] at held left
        cases lines with
        | cons line lines =>
            rw [storedLines_cons] at held
            exact absurd held.symm (by simp)
        | nil =>
            -- Both bytes of the empty line were taken, so both are delivered.
            dsimp only at left
            rw [left] at taken
            have two : front = [cr, lf] := List.append_cancel_right (taken.symm.trans stream)
            obtain ⟨s, delivers, u, whole⟩ := exists_delivers net httpc w
            have size : (max (room : Int) 1).toNat = room := by omega
            obtain ⟨-, k, consumes, count⟩ := readOneLineLoop_delivered delivers room nul []
            have behind : (httpcReadOneLine net httpc w room).world.unread = w.unread.drop k := by
              rw [httpcReadOneLine, size]
              exact consumes.unread
            have bound := consumes.bound
            rw [left] at behind
            have length := congrArg List.length behind
            rw [List.length_drop, total, storedLines_nil, List.length_nil] at length
            rw [total, storedLines_nil, List.length_nil] at bound
            rw [two] at fits
            refine ⟨.ended delivers ?_, fits⟩
            have inStream : [cr, lf] <+: w.unread := ⟨rest, stream.symm⟩
            refine List.prefix_of_prefix_length_le inStream ⟨u, whole⟩ ?_
            simp only [List.length_cons, List.length_nil]
            omega
      · cases lines with
        | nil =>
            rw [arrivedHead] at held
            dsimp only at held
            rw [if_neg blank] at held
            split at held <;> exact absurd held (by simp)
        | cons line lines =>
            by_cases full : room ≤ (httpcReadOneLine net httpc w room).stored.length
            · -- A full buffer has taken no more bytes than the lines have without their LFs.
              have bound := length_arrivedHead_le net httpc (rounds + 1) positive w
              rw [held] at bound
              rw [arrivedHead] at held left
              dsimp only at held left
              rw [if_neg blank, if_pos full] at held left
              have length := congrArg List.length held
              rw [length_cleared (not_or.mp blank).1, List.length_nil, Nat.add_zero] at length
              dsimp only at left
              rw [left] at taken
              have lengths := congrArg List.length taken
              rw [List.length_append] at lengths
              omega
            · refine linesArrive_line positive (plain line List.mem_cons_self).2
                (fun l member => plain l (List.mem_cons_of_mem line member)) stream blank full held
                left fun positive' plain' stream' held' left' => ?_
              have total' := congrArg List.length stream'
              rw [List.length_append, length_wireLines] at total'
              exact ih positive' plain' stream' held' left' total'

/-! ### The response header as a whole

The response header is whole in the buffer exactly when its lines arrived in this sense and the
buffer has room for them. -/

/-- The stream began with a complete header block, the text in use in the buffer is its lines, each
of them untruncated, the body comes next on the stream, and whatever a receive call then brings
starts with its first byte. -/
def HeadWhole (net : Transport) (w : World) (handled : Handled) : Prop :=
  ∃ (block : HeaderBlock) (rest : Bytes), w.unread = block.bytes ++ rest ∧
    (∃ node, handled.httpc.headerNode = some node ∧ node.header = block.stored) ∧
    handled.world.unread = rest ∧
    ∀ size : Nat, 0 < size → size < 2 ^ 31 →
      0 ≤ (httpcRecvResponse net handled.httpc handled.world .normal false size).ret →
      (httpcRecvResponse net handled.httpc handled.world .normal false size).data.head? = rest.head?

/-- A receive call that does not fail brings the first byte of the stream. -/
theorem receive_head (net : Transport) (httpc : Httpc) (w : World) {size : Nat}
    (positive : 0 < size) (small : size < 2 ^ 31)
    (succeeds : 0 ≤ (httpcRecvResponse net httpc w .normal false size).ret) :
    (httpcRecvResponse net httpc w .normal false size).data.head? = w.unread.head? := by
  by_cases live : httpc.Live
  · have recv := httpcRecv_of_live live net w size (by omega)
    simp only [httpcRecvResponse, recv] at succeeds ⊢
    cases answer : net.recv w.recvs w.taken size with
    | fail code =>
        simp only [Transport.receive, answer] at succeeds
        exact absurd (Int.negSucc_lt_zero code) (not_lt.mpr succeeds)
    | upTo cap =>
        rw [(receive_of_upTo answer).1]
        cases w.unread with
        | nil => simp
        | cons b rest =>
            rw [List.head?_take, if_neg]
            simp only [List.length_cons]
            omega
  · exact absurd (httpcRecv_of_not_live net w live false size).1 (not_lt.mpr succeeds)

/-- A header is reported as received only when it was received whole, if and only if a complete
block stands at the head of the stream, fits the buffer and arrives, or what arrives of the head
does not pass for a header at all. -/
theorem response_head_whole_iff {node : HttpcMemNode} (header : httpc.headerNode = some node)
    {w : World} :
    ((httpcHandleResponse net httpc w).ret = httpcErrOk →
        HeadWhole net w (httpcHandleResponse net httpc w)) ↔
      (∃ (block : HeaderBlock) (rest : Bytes), w.unread = block.bytes ++ rest ∧
        block.Fits node.bufLen ∧ LinesArrive net httpc w block.lines) ∨
      ¬ HeadAccepted (node.holding (arrivedHead net httpc node.bufLen node.bufLen w).1) := by
  have bound := length_arrivedHead_le net httpc node.bufLen node.positive w
  generalize arrived : arrivedHead net httpc node.bufLen node.bufLen w = read at bound ⊢
  obtain ⟨held, w'⟩ := read
  dsimp only at bound ⊢
  have handled : httpcHandleResponse net httpc w =
      { ret := (parseHead { httpc with headerNode := some (node.holding held) }
          (node.holding held)).1
        httpc := (parseHead { httpc with headerNode := some (node.holding held) }
          (node.holding held)).2
        world := w' } := by
    simp only [httpcHandleResponse, header, headLoop_reset, arrived]
  have accepted := parseHead_ok_iff
    (show { httpc with headerNode := some (node.holding held) }.headerNode = _ from rfl)
  obtain ⟨ret, code, length, chunked, -, parsed⟩ :=
    parseHead_frame { httpc with headerNode := some (node.holding held) } (node.holding held)
  have sameNode : (parseHead { httpc with headerNode := some (node.holding held) }
      (node.holding held)).2.headerNode = some (node.holding held) := by rw [parsed]
  rw [handled]
  dsimp only
  rw [accepted]
  constructor
  -- What stands in the buffer is the block, so its lines arrived.
  · intro whole
    by_cases passes : HeadAccepted (node.holding held)
    · obtain ⟨block, rest, stream, ⟨node', isNode, text⟩, left, -⟩ := whole passes
      obtain rfl := Option.some.inj (sameNode.symm.trans isNode)
      rw [holding_header node bound] at text
      have stream' : w.unread = wireLines block.lines ++ rest := by
        rw [stream, block.bytes_eq_wireLines]
      obtain ⟨arrive, fits⟩ := linesArrive_of_arrivedHead node.positive block.plain stream'
        (by rw [arrived]; exact text) (by rw [arrived]; exact left)
      exact .inl ⟨block, rest, stream, fits, arrive⟩
    · exact .inr passes
  · rintro (⟨block, rest, stream, fits, arrive⟩ | refused) passes
    -- The lines arrive, so they stand in the buffer and the stream is at the body.
    · obtain ⟨text, left⟩ := arrivedHead_of_linesArrive arrive block.plain fits le_rfl
        (by rw [stream, block.bytes_eq_wireLines])
      rw [arrived] at text left
      refine ⟨block, rest, stream, ⟨_, sameNode, ?_⟩, left, ?_⟩
      · rw [holding_header node bound]
        exact text
      · intro size positive small succeeds
        have next := receive_head net _ w' positive small succeeds
        rwa [left] at next
    · exact absurd passes refused

/-- The sample header is received whole in 64 bytes. -/
theorem response_head_whole_iff_okHeader :
    HeadWhole .prompt (.opened (okHeader.bytes ++ ascii "hello"))
      (httpcHandleResponse .prompt smallClient (.opened (okHeader.bytes ++ ascii "hello"))) :=
  have delivers : Delivers .prompt smallClient (.opened (okHeader.bytes ++ ascii "hello"))
      (okHeader.bytes ++ ascii "hello") :=
    .of_steady smallClient_live (Transport.prompt_steady _)
  (response_head_whole_iff (show smallClient.headerNode = some smallNode from rfl)).mpr
    (.inl ⟨okHeader, ascii "hello", rfl, by decide,
      .of_delivers delivers (by rw [← okHeader.bytes_eq_wireLines]; exact List.prefix_append _ _)⟩)
    (by decide +kernel)

/-- A stream that ends inside the value of the body length is reported as a header, with the last
digit that came cut off. -/
theorem response_head_cut_short :
    (httpcHandleResponse .prompt smallClient
        (.opened (ascii "HTTP/1.1 200 OK\r\nContent-Length: 51"))).ret = httpcErrOk ∧
      (httpcHandleResponse .prompt smallClient
        (.opened (ascii "HTTP/1.1 200 OK\r\nContent-Length: 51"))).httpc.contentLength = 5 ∧
      ¬ HeadWhole .prompt (.opened (ascii "HTTP/1.1 200 OK\r\nContent-Length: 51"))
        (httpcHandleResponse .prompt smallClient
          (.opened (ascii "HTTP/1.1 200 OK\r\nContent-Length: 51"))) := by
  refine ⟨by decide +kernel, by decide +kernel, ?_⟩
  rintro ⟨block, rest, stream, -, left, -⟩
  have nothing : rest = [] := by
    rw [← left]
    decide +kernel
  have last := block.getLast?_bytes
  rw [nothing, List.append_nil] at stream
  rw [← stream] at last
  exact absurd last (by decide)

end

end Hfc
