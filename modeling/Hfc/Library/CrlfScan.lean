/-
Module: Hfc.Library.CrlfScan
Layer: Library
Purpose: Reading one line of bounded length from a byte string. A line ends at the first LF that
  directly follows a CR; the LF is taken off the string and not stored, the CR is stored. Reading
  also stops when the room for the line is used up, and then nothing behind the last stored byte is
  taken.
Imports: Hfc.Library.ByteText, Mathlib.Algebra.Order.Ring.Nat, Mathlib.Data.Nat.Find
Main exports: CrlfFree, scan, scan_append, scan_line, scan_line_full, scan_line_take, scan_of_free,
  suffix_scan, FirstEnd, scan_firstEnd, scan_noEnd, crlfCount, scan_taken, crlfCount_lines
-/
import Hfc.Library.ByteText
import Mathlib.Algebra.Order.Ring.Nat
import Mathlib.Data.Nat.Find

namespace CrlfScan

open ByteText

/-- No LF of the text directly follows a CR, `last` being the byte in front of the text. -/
def CrlfFree : Byte → Bytes → Prop
  | _, [] => True
  | last, b :: text => ¬ (b = lf ∧ last = cr) ∧ CrlfFree b text

instance CrlfFree.decidable : (last : Byte) → (text : Bytes) → Decidable (CrlfFree last text)
  | _, [] => .isTrue trivial
  | last, b :: text =>
      have := CrlfFree.decidable b text
      inferInstanceAs (Decidable (¬ (b = lf ∧ last = cr) ∧ CrlfFree b text))

/-- Read at most `room` bytes of one line: the bytes stored and the text left unread. -/
def scan : Nat → Byte → Bytes → Bytes × Bytes
  | 0, _, text => ([], text)
  | _ + 1, _, [] => ([], [])
  | room + 1, last, b :: text =>
      if b = lf ∧ last = cr then ([], text)
      else (b :: (scan room b text).1, (scan room b text).2)

/-- The byte in front of what follows a text. -/
def lastByte : Byte → Bytes → Byte
  | last, [] => last
  | _, b :: text => lastByte b text

@[simp] theorem lastByte_snoc (last : Byte) (text : Bytes) (b : Byte) :
    lastByte last (text ++ [b]) = b := by
  induction text generalizing last with
  | nil => rfl
  | cons c text ih => exact ih c

theorem cr_ne_lf : cr ≠ lf := by decide

theorem CrlfFree.append {last : Byte} {front back : Bytes} (free : CrlfFree last front)
    (freeBack : CrlfFree (lastByte last front) back) : CrlfFree last (front ++ back) := by
  induction front generalizing last with
  | nil => exact freeBack
  | cons b front ih => exact ⟨free.1, ih free.2 freeBack⟩

/-- A CR at its end leaves a text without a line end. -/
theorem CrlfFree.snoc_cr {last : Byte} {text : Bytes} (free : CrlfFree last text) :
    CrlfFree last (text ++ [cr]) :=
  free.append ⟨fun ends => cr_ne_lf ends.1, trivial⟩

theorem CrlfFree.of_append {last : Byte} {front back : Bytes}
    (free : CrlfFree last (front ++ back)) : CrlfFree last front := by
  induction front generalizing last with
  | nil => trivial
  | cons b front ih => exact ⟨free.1, ih free.2⟩

theorem CrlfFree.take {last : Byte} {text : Bytes} (free : CrlfFree last text) (n : Nat) :
    CrlfFree last (text.take n) := by
  rw [← List.take_append_drop n text] at free
  exact free.of_append

/-- Which byte stands in front matters only when it is a CR. -/
theorem CrlfFree.of_ne_cr {last last' : Byte} {text : Bytes} (free : CrlfFree last text)
    (different : last' ≠ cr) : CrlfFree last' text := by
  cases text with
  | nil => trivial
  | cons b text => exact ⟨fun ends => different ends.2, free.2⟩

/-- What is left of a text without a line end has none either. -/
theorem CrlfFree.drop {last : Byte} {text : Bytes} (free : CrlfFree last text) (n : Nat) :
    CrlfFree nul (text.drop n) := by
  induction text generalizing last n with
  | nil => simp [CrlfFree]
  | cons b text ih =>
      cases n with
      | zero => exact free.of_ne_cr (by decide)
      | succ n => exact ih free.2 n

/-- A text without any LF has no line end. -/
theorem CrlfFree.of_no_lf {text : Bytes} (noLf : lf ∉ text) (last : Byte) :
    CrlfFree last text := by
  induction text generalizing last with
  | nil => trivial
  | cons b text ih =>
      refine ⟨?_, ih (fun member => noLf (List.mem_cons_of_mem b member)) b⟩
      rintro ⟨rfl, -⟩
      exact noLf (by simp)

/-- A text without a line end is stored as it stands, as far as there is room. -/
theorem scan_append {last : Byte} {front : Bytes} (free : CrlfFree last front) (room : Nat)
    (back : Bytes) :
    scan room last (front ++ back) =
      if front.length ≤ room then
        (front ++ (scan (room - front.length) (lastByte last front) back).1,
          (scan (room - front.length) (lastByte last front) back).2)
      else (front.take room, front.drop room ++ back) := by
  induction front generalizing last room with
  | nil => simp [lastByte]
  | cons b front ih =>
      cases room with
      | zero => simp [scan]
      | succ room =>
          rw [List.cons_append, scan, if_neg free.1, ih free.2]
          by_cases fits : front.length ≤ room
          · simp [fits, lastByte]
          · simp [fits]

/-- A line that leaves room for its CR and one byte more is read whole. -/
theorem scan_line {last : Byte} {line : Bytes} (free : CrlfFree last line) {room : Nat}
    (fits : line.length + 1 < room) (rest : Bytes) :
    scan room last (line ++ cr :: lf :: rest) = (line ++ [cr], rest) := by
  obtain ⟨spare, rfl⟩ : ∃ spare, room = line.length + 1 + (spare + 1) :=
    ⟨room - line.length - 2, by omega⟩
  have split : line ++ cr :: lf :: rest = (line ++ [cr]) ++ lf :: rest := by simp
  rw [split, scan_append free.snoc_cr, if_pos (by simp)]
  have left : line.length + 1 + (spare + 1) - (line ++ [cr]).length = spare + 1 := by
    simp only [List.length_append, List.length_singleton]
    omega
  rw [left]
  simp [scan]

/-- A line whose CR takes the last room is stored, but its LF stays unread. -/
theorem scan_line_full {last : Byte} {line : Bytes} (free : CrlfFree last line) (rest : Bytes) :
    scan (line.length + 1) last (line ++ cr :: lf :: rest) = (line ++ [cr], lf :: rest) := by
  have split : line ++ cr :: lf :: rest = (line ++ [cr]) ++ lf :: rest := by simp
  rw [split, scan_append free.snoc_cr, if_pos (by simp)]
  simp [scan]

/-- A text at least as long as the room fills it, whatever comes behind. -/
theorem scan_long {last : Byte} {front : Bytes} (free : CrlfFree last front) {room : Nat}
    (long : room ≤ front.length) (back : Bytes) :
    scan room last (front ++ back) = (front.take room, front.drop room ++ back) := by
  rw [scan_append free]
  split
  · have same : room = front.length := by omega
    subst same
    simp [scan]
  · rfl

/-- A text that never ends its line is stored up to the room or the end of the text. -/
theorem scan_of_free {last : Byte} {text : Bytes} (free : CrlfFree last text) (room : Nat) :
    scan room last text = (text.take room, text.drop room) := by
  have whole := scan_append free room []
  rw [List.append_nil] at whole
  rw [whole]
  split
  · rename_i fits
    have nothing : ∀ n b, scan n b [] = ([], []) := by
      intro n b
      cases n <;> rfl
    simp [nothing, List.take_of_length_le fits, List.drop_eq_nil_of_le fits]
  · simp

/-- Whatever the room, and however much of the text is there, only bytes of the first line and its
CR are stored. -/
theorem scan_isPrefix {last : Byte} {line : Bytes} (free : CrlfFree last line) {text rest : Bytes}
    (part : text <+: line ++ cr :: lf :: rest) (room : Nat) :
    (scan room last text).1 <+: line ++ [cr] := by
  have split : line ++ cr :: lf :: rest = (line ++ [cr]) ++ lf :: rest := by simp
  rw [split] at part
  rcases Nat.le_total text.length (line ++ [cr]).length with short | long
  · have inLine : text <+: line ++ [cr] :=
      List.prefix_of_prefix_length_le part (List.prefix_append _ _) short
    obtain ⟨more, whole⟩ := inLine
    have freeText : CrlfFree last text := by
      have freeLine := free.snoc_cr
      rw [← whole] at freeLine
      exact freeLine.of_append
    rw [scan_of_free freeText, ← whole]
    exact (List.take_prefix room text).trans (List.prefix_append _ _)
  · obtain ⟨tail, rfl⟩ :=
      List.prefix_of_prefix_length_le (List.prefix_append (line ++ [cr]) (lf :: rest)) part long
    rw [scan_append free.snoc_cr]
    split
    · have onlyLf : tail <+: lf :: rest := (List.prefix_append_right_inj _).mp part
      have nothing : (scan (room - (line ++ [cr]).length) (lastByte last (line ++ [cr])) tail).1 =
          [] := by
        rw [lastByte_snoc]
        generalize room - (line ++ [cr]).length = spare
        cases tail with
        | nil => cases spare <;> rfl
        | cons b tail =>
            have isLf : b = lf := (List.cons_prefix_cons.mp onlyLf).1
            cases spare with
            | zero => rfl
            | succ spare => simp [scan, isLf]
      rw [nothing, List.append_nil]
    · exact List.take_prefix room _

/-- Without its last byte, what is stored belongs to the first line. -/
theorem scan_dropLast_isPrefix {last : Byte} {line : Bytes} (free : CrlfFree last line)
    {text rest : Bytes} (part : text <+: line ++ cr :: lf :: rest) (room : Nat) :
    (scan room last text).1.dropLast <+: line := by
  have stored := scan_isPrefix free part room
  apply List.prefix_of_prefix_length_le ((List.dropLast_prefix _).trans stored)
    (List.prefix_append line [cr])
  have length := stored.length_le
  simp only [List.length_append, List.length_singleton, List.length_dropLast] at length ⊢
  omega

/-- What stands behind the first line end is never taken. -/
theorem suffix_scan {last : Byte} {line : Bytes} (free : CrlfFree last line) (room : Nat)
    (rest : Bytes) : rest <:+ (scan room last (line ++ cr :: lf :: rest)).2 := by
  by_cases fits : line.length + 1 < room
  · rw [scan_line free fits]
  · have split : line ++ cr :: lf :: rest = (line ++ [cr]) ++ lf :: rest := by simp
    rw [split, scan_long free.snoc_cr (by simp; omega)]
    exact (List.suffix_cons lf rest).trans (List.suffix_append _ _)

theorem length_scan_le (room : Nat) (last : Byte) (text : Bytes) :
    (scan room last text).1.length ≤ room := by
  induction room generalizing last text with
  | zero => simp [scan]
  | succ room ih =>
      cases text with
      | nil => simp [scan]
      | cons b text =>
          simp only [scan]
          split
          · simp
          · simpa using ih b text

theorem length_scan_rest_le (room : Nat) (last : Byte) (text : Bytes) :
    (scan room last text).2.length ≤ text.length := by
  induction room generalizing last text with
  | zero => simp [scan]
  | succ room ih =>
      cases text with
      | nil => simp [scan]
      | cons b text =>
          simp only [scan]
          split
          · simp
          · exact (ih b text).trans (Nat.le_succ _)

/-- With some room a scan takes at least one byte. -/
theorem length_scan_rest_lt (room : Nat) (last b : Byte) (text : Bytes) :
    (scan (room + 1) last (b :: text)).2.length < (b :: text).length := by
  simp only [scan]
  split
  · simp
  · exact Nat.lt_succ_of_le (length_scan_rest_le room b text)

/-- Of a line the bytes up to its CR are stored, as far as there is room. -/
theorem scan_line_take {last : Byte} {line : Bytes} (free : CrlfFree last line) (room : Nat)
    (rest : Bytes) : (scan room last (line ++ cr :: lf :: rest)).1 = (line ++ [cr]).take room := by
  by_cases fits : line.length + 1 < room
  · rw [scan_line free fits, List.take_of_length_le (by simp; omega)]
  · have split : line ++ cr :: lf :: rest = (line ++ [cr]) ++ lf :: rest := by simp
    rw [split, scan_long free.snoc_cr (by simp; omega)]

/-- Without its last byte, what is stored of a line is as much of it as the room less one byte
holds. -/
theorem dropLast_take_snoc (line : Bytes) (b : Byte) (room : Nat) :
    ((line ++ [b]).take (room + 1)).dropLast = line.take room := by
  rw [List.dropLast_eq_take, List.take_take, List.length_take, List.length_append,
    List.length_singleton, List.take_append_of_le_length (by omega)]
  by_cases fits : room ≤ line.length
  · congr 1
    omega
  · rw [List.take_of_length_le (by omega), List.take_of_length_le (by omega)]

/-! ### Where the first line ends

The scan described by positions of the text instead of its rounds: where the first CR and LF are,
and how many line ends a text has. -/

/-- At an index of a text an LF directly follows a CR. -/
def EndsLine (text : Bytes) (k : Nat) : Prop :=
  0 < k ∧ text[k - 1]? = some cr ∧ text[k]? = some lf

instance (text : Bytes) (k : Nat) : Decidable (EndsLine text k) :=
  inferInstanceAs (Decidable (_ ∧ _))

/-- The first such index. -/
def FirstEnd (text : Bytes) (k : Nat) : Prop :=
  EndsLine text k ∧ ∀ j < k, ¬ EndsLine text j

/-- With the byte in front of it, a text without a line end has no LF behind a CR. -/
theorem crlfFree_iff {last : Byte} {text : Bytes} :
    CrlfFree last text ↔ ∀ k : Nat, ¬ ((last :: text)[k]? = some cr ∧ text[k]? = some lf) := by
  induction text generalizing last with
  | nil => simp [CrlfFree]
  | cons b text ih =>
      rw [CrlfFree, ih]
      constructor
      · rintro ⟨here, later⟩ k ⟨before, at_k⟩
        cases k with
        | zero =>
            simp only [List.getElem?_cons_zero, Option.some.injEq] at before at_k
            exact here ⟨at_k, before⟩
        | succ k => exact later k ⟨before, at_k⟩
      · intro noEnd
        refine ⟨fun ends => noEnd 0 ?_, fun k ends => noEnd (k + 1) ends⟩
        simp [ends.1, ends.2]

theorem crlfFree_nul_iff {text : Bytes} : CrlfFree nul text ↔ ∀ k, ¬ EndsLine text k := by
  rw [crlfFree_iff]
  refine forall_congr' fun k => not_congr ?_
  cases k with
  | zero => simp [EndsLine, show nul ≠ cr by decide]
  | succ k => simp [EndsLine]

/-- A text with a line end is a line, its CR and LF, and what follows. -/
theorem FirstEnd.split {text : Bytes} {k : Nat} (first : FirstEnd text k) :
    ∃ line rest, text = line ++ cr :: lf :: rest ∧ CrlfFree nul line ∧ k = line.length + 1 := by
  obtain ⟨⟨positive, before, at_k⟩, earliest⟩ := first
  obtain ⟨n, rfl⟩ : ∃ n, k = n + 1 := ⟨k - 1, by omega⟩
  rw [Nat.add_sub_cancel] at before
  obtain ⟨inText, isCr⟩ := List.getElem?_eq_some_iff.mp before
  obtain ⟨inText', isLf⟩ := List.getElem?_eq_some_iff.mp at_k
  have length : (text.take n).length = n := by
    rw [List.length_take]
    omega
  refine ⟨text.take n, text.drop (n + 2), ?_, ?_, by rw [length]⟩
  · rw [← isCr, ← isLf, ← List.drop_eq_getElem_cons, ← List.drop_eq_getElem_cons,
      List.take_append_drop]
  · rw [crlfFree_nul_iff]
    rintro j ⟨positive', before', at_j⟩
    have inLine : j < n := by
      by_contra beyond
      rw [List.getElem?_take_eq_none (not_lt.mp beyond)] at at_j
      cases at_j
    rw [List.getElem?_take_of_lt inLine] at at_j
    rw [List.getElem?_take_of_lt (by omega)] at before'
    exact earliest j (by omega) ⟨positive', before', at_j⟩

/-- A line that ends within the room is stored up to its CR, and its LF is taken. -/
theorem scan_firstEnd {text : Bytes} {k room : Nat} (first : FirstEnd text k) (fits : k < room) :
    scan room nul text = (text.take k, text.drop (k + 1)) := by
  obtain ⟨line, rest, rfl, free, rfl⟩ := first.split
  have split : line ++ cr :: lf :: rest = (line ++ [cr]) ++ lf :: rest := by simp
  have length : (line ++ [cr]).length = line.length + 1 := by simp
  rw [scan_line free fits, split, ← length, List.take_left, List.drop_append]
  simp

/-- Otherwise the text is stored up to the room or its end. -/
theorem scan_noEnd {text : Bytes} {room : Nat} (late : ∀ k, FirstEnd text k → room ≤ k) :
    scan room nul text = (text.take room, text.drop room) := by
  by_cases ends : ∃ k, EndsLine text k
  · have first : FirstEnd text (Nat.find ends) :=
      ⟨Nat.find_spec ends, fun j before => Nat.find_min ends before⟩
    have long := late _ first
    obtain ⟨line, rest, rfl, free, equal⟩ := first.split
    have split : line ++ cr :: lf :: rest = (line ++ [cr]) ++ lf :: rest := by simp
    have inLine : room ≤ (line ++ [cr]).length := by simpa using long.trans equal.le
    rw [split, scan_long free.snoc_cr inLine, List.take_append_of_le_length inLine,
      List.drop_append_of_le_length inLine]
  · exact scan_of_free (crlfFree_nul_iff.mpr (not_exists.mp ends)) room

/-- How many LFs of a text directly follow a CR, `last` being the byte in front of the text. -/
def crlfCount : Byte → Bytes → Nat
  | _, [] => 0
  | last, b :: text => (if b = lf ∧ last = cr then 1 else 0) + crlfCount b text

theorem crlfCount_append (last : Byte) (front back : Bytes) :
    crlfCount last (front ++ back) =
      crlfCount last front + crlfCount (lastByte last front) back := by
  induction front generalizing last with
  | nil => simp [crlfCount, lastByte]
  | cons b front ih => simp [crlfCount, lastByte, ih, Nat.add_assoc]

theorem crlfCount_eq_zero {last : Byte} {text : Bytes} :
    crlfCount last text = 0 ↔ CrlfFree last text := by
  induction text generalizing last with
  | nil => simp [crlfCount, CrlfFree]
  | cons b text ih => simp [crlfCount, CrlfFree, ih]

/-- Which byte stands in front matters only when it is a CR. -/
theorem crlfCount_of_ne_cr {last last' : Byte} (different : last ≠ cr) (different' : last' ≠ cr)
    (text : Bytes) : crlfCount last text = crlfCount last' text := by
  cases text with
  | nil => rfl
  | cons b text => simp [crlfCount, different, different']

/-- A line end closes exactly one line, whatever the text in front of it. -/
theorem crlfCount_line {last : Byte} (different : last ≠ cr) (text rest : Bytes) :
    crlfCount last (text ++ cr :: lf :: rest) = crlfCount nul text + 1 + crlfCount nul rest := by
  have behind : crlfCount lf rest = crlfCount nul rest :=
    crlfCount_of_ne_cr (by decide) (by decide) rest
  rw [crlfCount_append, crlfCount_of_ne_cr different (show nul ≠ cr by decide) text]
  simp [crlfCount, cr_ne_lf, behind, Nat.add_assoc]

/-- Only the first byte of a text can close a line that began in front of it. -/
theorem crlfCount_nul_le (last : Byte) (text : Bytes) :
    crlfCount nul text ≤ crlfCount last text := by
  cases text with
  | nil => exact le_rfl
  | cons b text => simp [crlfCount, show nul ≠ cr by decide]

/-- What a scan takes is what it stores and the line end it may have met. -/
theorem scan_taken (room : Nat) (last : Byte) (text : Bytes) :
    ∃ front, text = front ++ (scan room last text).2 ∧ front.length ≤ room ∧
      front.length ≤ (scan room last text).1.length + crlfCount last front := by
  induction room generalizing last text with
  | zero => exact ⟨[], by simp [scan]⟩
  | succ room ih =>
      cases text with
      | nil => exact ⟨[], by simp [scan]⟩
      | cons b text =>
          rw [scan]
          by_cases ends : b = lf ∧ last = cr
          · exact ⟨[b], by simp [ends], by simp, by simp [ends, crlfCount]⟩
          · obtain ⟨front, split, fits, count⟩ := ih b text
            refine ⟨b :: front, ?_, Nat.succ_le_succ fits, ?_⟩
            · rw [if_neg ends, List.cons_append, ← split]
            · simp only [if_neg ends, List.length_cons, crlfCount]
              omega

/-- Lines written one behind the other, each with its CRLF. -/
theorem crlfCount_lines (lines : List Bytes) (rest : Bytes) :
    crlfCount nul (lines.flatMap (fun line => line ++ [cr, lf]) ++ rest) =
      (lines.map (crlfCount nul)).sum + lines.length + crlfCount nul rest := by
  induction lines with
  | nil => simp
  | cons line lines ih =>
      have assoc : (line :: lines).flatMap (fun line => line ++ [cr, lf]) ++ rest =
          line ++ cr :: lf :: (lines.flatMap (fun line => line ++ [cr, lf]) ++ rest) := by
        simp
      rw [assoc, crlfCount_line (by decide), ih, List.map_cons, List.sum_cons, List.length_cons]
      omega

end CrlfScan
