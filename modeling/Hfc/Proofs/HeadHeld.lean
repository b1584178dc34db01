/-
Module: Hfc.Proofs.HeadHeld
Layer: Proofs
Purpose: What a node holds of a head of any length, and what is found there. Lines are stored as far
  as there is room, so the last one may be cut off; a buffer that is full has no NUL of its own
  behind it, and a search goes on in the memory that follows.
Imports: Hfc.Proofs.FieldLookup
Main exports: heldLines, headScan_heldLines, Head.held, HttpcMemNode.textBehind, Head.Seen,
  headText_isSome, Head.FirstAt, headText_firstAt, protocol_held, headResponseCode_held
-/
import Hfc.Proofs.FieldLookup

namespace Hfc

open ByteText CrlfScan Numeral

/-! ### The lines that are held

A line is held whole when there is room for it and its terminator. The first one that leaves no room
is the last, and the end of it is missing. -/

/-- What `room` bytes of memory hold of some lines. -/
def heldLines : (room : Nat) → List Bytes → List Bytes
  | _, [] => []
  | room, line :: lines =>
      if line.length + 1 < room then line :: heldLines (room - (line.length + 1)) lines
      else [line.take (room - 1)]

theorem length_heldLines_le {room : Nat} (positive : 0 < room) (lines : List Bytes) :
    (storedLines (heldLines room lines)).length ≤ room := by
  induction lines generalizing room with
  | nil => exact Nat.zero_le _
  | cons line lines ih =>
      rw [heldLines]
      split
      · rename_i fits
        have later := ih (Nat.sub_pos_of_lt fits)
        rw [storedLines_cons, List.length_append, List.length_cons]
        omega
      · rw [storedLines_cons, List.length_append, List.length_cons, List.length_take,
          storedLines_nil, List.length_nil]
        omega

/-- Every line that is held is the start of a line. -/
theorem mem_heldLines {room : Nat} {lines : List Bytes} {held : Bytes}
    (member : held ∈ heldLines room lines) : ∃ line ∈ lines, held <+: line := by
  induction lines generalizing room with
  | nil => cases member
  | cons line lines ih =>
      rw [heldLines] at member
      split at member
      · rcases List.mem_cons.mp member with rfl | later
        · exact ⟨held, List.mem_cons_self, List.prefix_rfl⟩
        · obtain ⟨whole, inside, start⟩ := ih later
          exact ⟨whole, List.mem_cons_of_mem line inside, start⟩
      · obtain rfl := List.mem_singleton.mp member
        exact ⟨line, List.mem_cons_self, List.take_prefix _ _⟩

/-- The first line is held as far as there is room. -/
theorem heldLines_first (room : Nat) (line : Bytes) (lines : List Bytes) :
    ∃ later, heldLines room (line :: lines) = line.take (room - 1) :: later := by
  rw [heldLines]
  split
  · rename_i fits
    exact ⟨_, by rw [List.take_of_length_le (by omega)]⟩
  · exact ⟨[], rfl⟩

/-- A line is held whole when the lines up to its terminator have room. -/
theorem heldLines_whole {room : Nat} {front : List Bytes} {line : Bytes}
    (fits : (storedLines (front ++ [line])).length ≤ room) (lines : List Bytes) :
    ∃ later, heldLines room (front ++ line :: lines) = front ++ line :: later := by
  induction front generalizing room with
  | nil =>
      simp only [List.nil_append, storedLines_cons, List.length_append, List.length_cons] at fits
      obtain ⟨later, held⟩ := heldLines_first room line lines
      rw [List.take_of_length_le (by omega)] at held
      exact ⟨later, held⟩
  | cons first front ih =>
      have positive : 0 < (storedLines (front ++ [line])).length := by
        rw [storedLines, List.flatMap_append, List.length_append]
        simp
      rw [List.cons_append, storedLines_cons, List.length_append, List.length_cons] at fits
      obtain ⟨later, held⟩ := ih
        (show (storedLines (front ++ [line])).length ≤ room - (first.length + 1) by omega)
      rw [List.cons_append, heldLines, if_pos (by omega), held]
      exact ⟨later, rfl⟩

/-- The scan of a line that leaves no room stores what there is room for. -/
theorem headScan_cut {line : Bytes} (something : line ≠ []) (inLine : ∀ b ∈ line, InLine b)
    {rounds room : Nat} (positive : 0 < room) (long : room ≤ line.length + 1) (rest : Bytes) :
    (headScan (rounds + 1) room (line ++ cr :: lf :: rest)).1 = line.take (room - 1) ++ [nul] := by
  have split : line ++ cr :: lf :: rest = (line ++ [cr]) ++ lf :: rest := by simp
  have full : ((line ++ [cr]).take room).length = room := by
    rw [List.length_take, List.length_append, List.length_singleton]
    omega
  obtain ⟨b, text, rfl⟩ := List.exists_cons_of_ne_nil something
  obtain ⟨room, rfl⟩ : ∃ n, room = n + 1 := ⟨room - 1, by omega⟩
  have start : ((b :: text) ++ [cr]).take (room + 1) = b :: (text ++ [cr]).take room := rfl
  have noCr : b ≠ cr := (inLine b List.mem_cons_self).1
  have cut : (((b :: text) ++ [cr]).take (room + 1)).dropLast = (b :: text).take room := by
    rw [List.dropLast_eq_take, full, List.take_take, Nat.add_sub_cancel,
      Nat.min_eq_left (Nat.le_succ room), List.take_append_of_le_length (by omega)]
  rw [headScan, split, scan_long (InLine.crlfFree inLine).snoc_cr (by simpa using long)]
  dsimp only
  rw [if_neg (by rw [start]; simp [noCr]), if_pos full.ge, cut, Nat.add_sub_cancel]

/-- The scan of some lines holds as many as there is room for. -/
theorem headScan_heldLines {lines : List Bytes}
    (inLine : ∀ line ∈ lines, line ≠ [] ∧ ∀ b ∈ line, InLine b) {rounds room : Nat}
    (positive : 0 < room) (enough : room ≤ rounds) (rest : Bytes) :
    (headScan rounds room
        (lines.flatMap (fun line => line ++ [cr, lf]) ++ cr :: lf :: rest)).1 =
      storedLines (heldLines room lines) := by
  induction lines generalizing rounds room with
  | nil =>
      obtain ⟨rounds, rfl⟩ : ∃ n, rounds = n + 1 := ⟨rounds - 1, by omega⟩
      rw [List.flatMap_nil, List.nil_append, headScan_empty positive]
      rfl
  | cons line lines ih =>
      obtain ⟨rounds, rfl⟩ : ∃ n, rounds = n + 1 := ⟨rounds - 1, by omega⟩
      obtain ⟨something, plain⟩ := inLine line List.mem_cons_self
      have assoc : (line :: lines).flatMap (fun line => line ++ [cr, lf]) ++ cr :: lf :: rest =
          line ++ cr :: lf ::
            (lines.flatMap (fun line => line ++ [cr, lf]) ++ cr :: lf :: rest) := by
        simp
      rw [assoc, heldLines]
      by_cases fits : line.length + 1 < room
      · rw [if_pos fits, headScan_line ⟨something, InLine.crlfFree plain⟩ fits, storedLines_cons,
          ih (fun l member => inLine l (List.mem_cons_of_mem line member)) (by omega) (by omega)]
      · rw [if_neg fits, headScan_cut something plain positive (by omega), storedLines_cons,
          storedLines_nil]

/-! ### The memory of the node

A node is described by the lines it holds and by the text that a search meets behind them: nothing
while the buffer has room left, and whatever the memory behind a full buffer holds. -/

/-- The lines that a buffer holds of a head. -/
def Head.held (head : Head) (room : Nat) : List Bytes :=
  heldLines room head.lines

/-- The text that follows the used part of a buffer. -/
def HttpcMemNode.textBehind (node : HttpcMemNode) (used : Nat) : Bytes :=
  if used < node.bufLen then [] else cstr (node.buf.drop node.bufLen)

/-- The texts a search in the node goes through. -/
def Head.searched (head : Head) (node : HttpcMemNode) : List Bytes :=
  head.held node.bufLen ++ [node.textBehind (storedLines (head.held node.bufLen)).length]

/-- The name stands somewhere in what is searched. -/
def Head.Seen (head : Head) (node : HttpcMemNode) (f : FieldName) : Prop :=
  ∃ line ∈ head.searched node, f.text <:+: line

instance (head : Head) (node : HttpcMemNode) (f : FieldName) : Decidable (head.Seen node f) :=
  inferInstanceAs (Decidable (∃ line ∈ _, _))

/-- The first line with the name in it is that of a field of just this name, with this value, and
the buffer holds the head up to the terminator of that line. -/
def Head.FirstAt (head : Head) (room : Nat) (f : FieldName) (value : Bytes) : Prop :=
  ∃ front field behind, head.fields = front ++ field :: behind ∧ field.value = value ∧
    field.name.text = f.text ∧
    (∀ line ∈ head.status.text :: front.map Field.text, ¬ f.text <:+: line) ∧
    (storedLines (head.status.text :: front.map Field.text ++ [field.text])).length ≤ room

section

variable {net : Transport} {httpc : Httpc} {node : HttpcMemNode} {w : World} {head : Head}

theorem Head.line_ne_nil (head : Head) {line : Bytes} (member : line ∈ head.lines) : line ≠ [] :=
  (head.block.plain line member).1

/-- The node behind a head of any length. -/
theorem held_of_head (arrives : BlockArrives net httpc node w head.block) :
    (headScan node.bufLen node.bufLen w.unread).1 = storedLines (head.held node.bufLen) := by
  obtain ⟨rest, stream⟩ := arrives.stream
  have held := headScan_heldLines
    (fun line member => ⟨head.line_ne_nil member, head.inLine member⟩) node.positive le_rfl rest
  rw [← stream, HeaderBlock.bytes, List.append_assoc]
  exact held

theorem Head.held_nul_free (head : Head) {room : Nat} {line : Bytes}
    (member : line ∈ head.held room) : nul ∉ line := by
  obtain ⟨whole, inside, start⟩ := mem_heldLines member
  exact fun isNul => (head.inLine inside nul (start.subset isNul)).2.2 rfl

/-- Its memory: the lines, and the text that follows them. -/
theorem held_memory (node : HttpcMemNode) (head : Head) :
    ∃ behind, (node.holding (storedLines (head.held node.bufLen))).buf =
        storedLines (head.held node.bufLen) ++ behind ∧
      cstr behind = node.textBehind (storedLines (head.held node.bufLen)).length := by
  have fits := length_heldLines_le node.positive head.lines
  refine ⟨_, holding_buf node fits, ?_⟩
  unfold HttpcMemNode.textBehind
  by_cases room : (storedLines (head.held node.bufLen)).length < node.bufLen
  · obtain ⟨n, left⟩ :
        ∃ n, node.bufLen - (storedLines (head.held node.bufLen)).length = n + 1 :=
      ⟨node.bufLen - (storedLines (head.held node.bufLen)).length - 1, by omega⟩
    rw [if_pos room, left, List.replicate_succ]
    rfl
  · have full : node.bufLen - (storedLines (head.held node.bufLen)).length = 0 := by omega
    rw [if_neg room, full, List.replicate_zero, List.nil_append]

/-- What `httpc_header_get` returns there. -/
theorem httpcHeaderGet_held (node : HttpcMemNode) (head : Head) (f : Bytes) :
    httpcHeaderGet (.ofNode (node.holding (storedLines (head.held node.bufLen)))) (some f) =
      (lineOffset f (head.searched node)).map fun m =>
        skipSpace (node.holding (storedLines (head.held node.bufLen))).buf (m + f.length + 1) := by
  obtain ⟨behind, memory, text⟩ := held_memory node head
  have used : (node.holding (storedLines (head.held node.bufLen))).bufUsed =
      (storedLines (head.held node.bufLen)).length := rfl
  have header : (Httpc.ofNode (node.holding (storedLines (head.held node.bufLen)))).headerNode =
      some (node.holding (storedLines (head.held node.bufLen))) := rfl
  have loop : headerGetLoop _ f _ _ = _ :=
    headerGetLoop_lines (fun line member => head.held_nul_free member) []
      (Nat.lt_succ_of_le (length_le_storedLines _)) (by simpa using memory) (by simpa using used)
  rw [List.length_nil, text] at loop
  simp only [httpcHeaderGet, header, used]
  rw [show (((storedLines (head.held node.bufLen)).length : Int) + 1).toNat =
    (storedLines (head.held node.bufLen)).length + 1 by omega, loop, ← Head.searched]
  cases lineOffset f (head.searched node) with
  | none => rfl
  | some m =>
      simp only [Option.map_some, Nat.zero_add]
      rfl

/-- A text is found exactly when the name is seen. -/
theorem headText_isSome (node : HttpcMemNode) (head : Head) (f : FieldName) :
    (headText (node.holding (storedLines (head.held node.bufLen))) f.text).isSome ↔
      head.Seen node f := by
  rw [headText, httpcHeaderGet_held, Option.isSome_map, Option.isSome_map, lineOffset_isSome]
  rfl

/-- Blanks in front of a value do not change its number, whether one space of them is left out or
not. -/
theorem strtoul_behindSpace (field : Field) :
    strtoul 10 (behindSpace (field.blanks ++ field.value)) = strtoul 10 field.value := by
  have skipped (blanks : Bytes) (onlyBlanks : ∀ b ∈ blanks, b = sp ∨ b = 9) :
      strtoul 10 (blanks ++ field.value) = strtoul 10 field.value := by
    have spaces : ∀ b ∈ blanks, isSpace b = true := by
      intro b member
      rcases onlyBlanks b member with rfl | rfl <;> decide
    rw [strtoul, List.dropWhile_append_of_pos spaces]
    rfl
  unfold behindSpace
  split
  · rename_i space
    cases blanks : field.blanks with
    | nil =>
        rw [blanks] at space
        exact absurd rfl (field.valueStart sp space).1
    | cons b more =>
        exact skipped more fun c member =>
          field.onlyBlanks c (by rw [blanks]; exact List.mem_cons_of_mem b member)
  · exact skipped field.blanks field.onlyBlanks

/-- Where the name first stands at the head of its field, the number that is read is that of the
value. -/
theorem headText_firstAt {f : FieldName} {value : Bytes}
    (first : head.FirstAt node.bufLen f value) :
    ∃ text, headText (node.holding (storedLines (head.held node.bufLen))) f.text = some text ∧
      strtoul 10 text = strtoul 10 value := by
  obtain ⟨front, field, behind, fields, rfl, spelled, absent, fits⟩ := first
  obtain ⟨later, held⟩ := heldLines_whole fits (behind.map Field.text)
  obtain ⟨more, memory, -⟩ := held_memory node head
  have lines : head.held node.bufLen =
      head.status.text :: front.map Field.text ++ field.text :: later := by
    rw [Head.held, Head.lines, fields, List.map_append, List.map_cons, ← held]
    rfl
  have start : f.text <+: field.text := by
    rw [← spelled]
    exact List.prefix_append _ _
  have offset : lineOffset f.text (head.searched node) =
      some (storedLines (head.status.text :: front.map Field.text)).length := by
    rw [Head.searched, lines]
    generalize node.textBehind _ = last
    rw [List.append_assoc]
    exact lineOffset_append absent (strstr_of_start start) (later ++ [last])
  have split : (node.holding (storedLines (head.held node.bufLen))).buf =
      (storedLines (head.status.text :: front.map Field.text) ++ (f.text ++ [colon])) ++
        ((field.blanks ++ field.value) ++ nul :: (storedLines later ++ more)) := by
    rw [memory, lines, storedLines, List.flatMap_append, ← storedLines, ← storedLines,
      storedLines_cons, Field.text, spelled]
    simp
  have free : nul ∉ field.blanks ++ field.value := by
    intro member
    refine (field.inLine nul ?_).2.2 rfl
    rw [Field.text]
    exact List.mem_append_right _ (List.mem_cons_of_mem _ member)
  refine ⟨behindSpace (field.blanks ++ field.value), ?_, strtoul_behindSpace field⟩
  rw [headText, httpcHeaderGet_held, offset, Option.map_some, Option.map_some,
    HttpcMemNode.memFrom, cstr_skipSpace]
  have place : (storedLines (head.status.text :: front.map Field.text)).length + f.text.length + 1 =
      (storedLines (head.status.text :: front.map Field.text) ++ (f.text ++ [colon])).length := by
    simp only [List.length_append, List.length_singleton, Nat.add_assoc]
  rw [place, split, List.drop_left, cstr_append_nul, cstr_of_nul_free free]

/-! ### The status line

It is the first line, so the protocol and the code are held as far as there is room for them. -/

theorem held_status (node : HttpcMemNode) (head : Head) :
    ∃ behind, (node.holding (storedLines (head.held node.bufLen))).buf =
      head.status.text.take (node.bufLen - 1) ++ nul :: behind := by
  obtain ⟨later, held⟩ :=
    heldLines_first node.bufLen head.status.text (head.fields.map Field.text)
  obtain ⟨behind, memory, -⟩ := held_memory node head
  refine ⟨storedLines later ++ behind, ?_⟩
  rw [memory, Head.held, Head.lines, held, storedLines_cons, List.append_assoc, List.cons_append]

/-- The protocol is found when there is room for its name. -/
theorem protocol_held (node : HttpcMemNode) (head : Head) :
    strstr (ascii "HTTP/1.")
        (cstr (node.holding (storedLines (head.held node.bufLen))).buf) =
      if 7 < node.bufLen then some 0 else none := by
  obtain ⟨behind, memory⟩ := held_status node head
  by_cases room : 7 < node.bufLen
  · rw [if_pos room]
    apply protocol_of_start
    obtain ⟨n, more⟩ : ∃ n, node.bufLen - 1 = (ascii "HTTP/1.").length + n :=
      ⟨node.bufLen - 8, by rw [show (ascii "HTTP/1.").length = 7 from rfl]; omega⟩
    rw [memory, StatusLine.text, more, List.take_length_add_append, List.append_assoc]
    exact List.prefix_append _ _
  · have free : nul ∉ head.status.text.take (node.bufLen - 1) :=
      fun member => (head.status.inLine nul (List.mem_of_mem_take member)).2.2 rfl
    rw [if_neg room, memory, cstr_append_nul, cstr_of_nul_free free, strstr_eq_none]
    intro inside
    have length := inside.length_le
    rw [List.length_take, show (ascii "HTTP/1.").length = 7 from rfl] at length
    omega

/-- The buffer holds the status line up to the end of the code. -/
def Head.CodeHeld (head : Head) (room : Nat) : Prop :=
  (ascii "HTTP/1.1 ").length + head.status.code.length < room

instance (head : Head) (room : Nat) : Decidable (head.CodeHeld room) :=
  inferInstanceAs (Decidable (_ < _))

/-- Then the response code is the number in the status line, saturated as `strtoul` does and taken
as an `int`. -/
theorem headResponseCode_held (held : head.CodeHeld node.bufLen) :
    headResponseCode (node.holding (storedLines (head.held node.bufLen))) 0 =
      toInt32 (min head.status.number ulongMax : Nat) := by
  have room : 9 + head.status.code.length < node.bufLen := held
  obtain ⟨behind, memory⟩ := held_status node head
  have front : (ascii "HTTP/1." ++ head.status.minor :: sp :: head.status.code).length =
      9 + head.status.code.length := by
    rw [List.length_append, List.length_cons, List.length_cons,
      show (ascii "HTTP/1.").length = 7 from rfl]
    omega
  obtain ⟨n, more⟩ : ∃ n, node.bufLen - 1 =
      (ascii "HTTP/1." ++ head.status.minor :: sp :: head.status.code).length + n :=
    ⟨node.bufLen - 1 - (9 + head.status.code.length), by omega⟩
  have whole : head.status.text =
      (ascii "HTTP/1." ++ head.status.minor :: sp :: head.status.code) ++ head.status.reason := by
    simp [StatusLine.text]
  have split : (node.holding (storedLines (head.held node.bufLen))).buf =
      ascii "HTTP/1." ++ head.status.minor :: ([sp] ++ (head.status.code ++
        (head.status.reason.take n ++ nul :: behind))) := by
    rw [memory, whole, more, List.take_length_add_append]
    simp
  have plain : nul ∉ head.status.reason.take n :=
    fun member => (head.status.reasonPlain nul (List.mem_of_mem_take member)).2.2 rfl
  have ends : EndsNumeral (cstr (head.status.reason.take n ++ nul :: behind)) := by
    rw [cstr_append_nul, cstr_of_nul_free plain]
    intro b member
    rw [List.head?_take] at member
    split at member
    · cases member
    · rw [head.status.reasonStart b member]
      decide
  exact headResponseCode_memory split (by simp) head.status.digits head.status.nonempty ends

end

end Hfc
