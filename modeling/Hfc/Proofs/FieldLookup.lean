/-
Module: Hfc.Proofs.FieldLookup
Layer: Proofs
Purpose: What `httpc_header_get` finds in a node that holds a head. It looks for the name as a text
  in any place of any line, so it finds the field of that name exactly when no earlier line has the
  text in it and the field has the name in the same letters.
Imports: Hfc.Proofs.ResponseHead, Hfc.Spec.FieldBlock
Main exports: BlockArrives, handleResponse_block, lineOffset, headerGetLoop_lines, lineText,
  headText_head, FoundExact, LookupExact, LookupRight, header_lookup_iff
-/
import Hfc.Proofs.ResponseHead
import Hfc.Spec.FieldBlock

namespace Hfc

open ByteText CrlfScan Numeral

/-- A header block comes next on the stream of a client with a node, and the transport does not fail
in front of its end. -/
structure BlockArrives (net : Transport) (httpc : Httpc) (node : HttpcMemNode) (w : World)
    (block : HeaderBlock) : Prop where
  live : httpc.Live
  header : httpc.headerNode = some node
  steady : net.SteadyUntil (w.taken + block.bytes.length)
  stream : block.bytes <+: w.unread

section

variable {net : Transport} {httpc : Httpc} {node : HttpcMemNode} {w : World} {block : HeaderBlock}

/-- The node behind `httpc_handle_response`: it holds what fits of the block. -/
theorem handleResponse_block (arrives : BlockArrives net httpc node w block) :
    ∃ w', httpcHandleResponse net httpc w =
      let held := node.holding (headScan node.bufLen node.bufLen w.unread).1
      { ret := (parseHead { httpc with headerNode := some held } held).1
        httpc := (parseHead { httpc with headerNode := some held } held).2
        world := w' } := by
  obtain ⟨rest, stream⟩ := arrives.stream
  have behind := (block.suffix_headScan node.positive rest).length_le
  have length := congrArg List.length stream
  rw [List.length_append] at length
  obtain ⟨w', handled, -⟩ := handleResponse_eq arrives.live arrives.header arrives.steady
    (show w.stop ≤ _ + (headScan node.bufLen node.bufLen w.unread).2.length by
      rw [← stream, World.stop, ← length]
      omega) (Prod.eta _).symm
  exact ⟨w', handled⟩

/-- A block that fits is held whole. -/
theorem held_of_fits (arrives : BlockArrives net httpc node w block)
    (fits : block.Fits node.bufLen) :
    (headScan node.bufLen node.bufLen w.unread).1 = block.stored := by
  obtain ⟨rest, stream⟩ := arrives.stream
  rw [← stream, block.headScan_eq fits]

end

/-! ### The search

The search goes over the lines of the head one by one. The first that contains the name, at whatever
place, ends it. -/

/-- Where a text occurs first in some lines in memory. -/
def lineOffset (f : Bytes) : List Bytes → Option Nat
  | [] => none
  | line :: lines =>
      match strstr f line with
      | some m => some m
      | none => (lineOffset f lines).map (line.length + 1 + ·)

/-- The step of `httpc_header_get` behind what stands in front of a value: one space is skipped. -/
def skipSpace (mem : Bytes) (p : Nat) : Nat :=
  if (mem.drop p).head? = some sp then p + 1 else p

theorem skipSpace_bounds (mem : Bytes) (p : Nat) :
    p ≤ skipSpace mem p ∧ skipSpace mem p ≤ p + 1 := by
  unfold skipSpace
  split <;> omega

theorem skipSpace_eq_add (mem : Bytes) (p : Nat) :
    skipSpace mem p = p + if (mem.drop p).head? = some sp then 1 else 0 := by
  unfold skipSpace
  split <;> rfl

/-- A text that occurs in no line in front is found in the next one. -/
theorem lineOffset_append {f : Bytes} {front : List Bytes} (absent : ∀ line ∈ front, ¬ f <:+: line)
    {line : Bytes} {m : Nat} (found : strstr f line = some m) (lines : List Bytes) :
    lineOffset f (front ++ line :: lines) = some ((storedLines front).length + m) := by
  induction front with
  | nil =>
      rw [List.nil_append, lineOffset, found, storedLines_nil, List.length_nil, Nat.zero_add]
  | cons first front ih =>
      rw [List.cons_append, lineOffset, strstr_eq_none.mpr (absent first List.mem_cons_self)]
      dsimp only
      rw [ih fun l member => absent l (List.mem_cons_of_mem first member), storedLines_cons,
        List.length_append, List.length_cons, Option.map_some]
      congr 1
      omega

/-- A text is found exactly when it occurs in one of the lines. -/
theorem lineOffset_isSome {f : Bytes} {lines : List Bytes} :
    (lineOffset f lines).isSome ↔ ∃ line ∈ lines, f <:+: line := by
  induction lines with
  | nil => simp [lineOffset]
  | cons line lines ih =>
      rw [lineOffset, List.exists_mem_cons_iff, ← ih]
      cases found : strstr f line with
      | some m => simp [infix_of_strstr found]
      | none => simp [strstr_eq_none.mp found]

/-- An empty line at the end plays no part. -/
theorem lineOffset_blank {f : Bytes} (something : f ≠ []) (lines : List Bytes) :
    lineOffset f (lines ++ [[]]) = lineOffset f lines := by
  induction lines with
  | nil => simp [lineOffset, strstr, something]
  | cons line lines ih => rw [List.cons_append, lineOffset, lineOffset, ih]

/-- The search loop goes through the lines of a node and the text that stands behind them. -/
theorem headerGetLoop_lines {node : HttpcMemNode} {f : Bytes}
    {lines : List Bytes} (plain : ∀ line ∈ lines, nul ∉ line) {fuel : Nat} (front : Bytes)
    {behind : Bytes} (enough : lines.length < fuel)
    (memory : node.buf = front ++ (storedLines lines ++ behind))
    (used : node.bufUsed = (front ++ storedLines lines).length) :
    headerGetLoop node f fuel front.length =
      (lineOffset f (lines ++ [cstr behind])).map (front.length + ·) := by
  induction lines generalizing fuel front with
  | nil =>
      obtain ⟨fuel, rfl⟩ : ∃ n, fuel = n + 1 := ⟨fuel - 1, by simp at enough; omega⟩
      have text : cstr (node.memFrom front.length) = cstr behind := by
        rw [HttpcMemNode.memFrom, memory, List.drop_left, storedLines_nil, List.nil_append]
      have atEnd : (front.length : Int) ≤ node.bufUsed := by simp [used]
      have beyond : ¬ ((front.length + (cstr behind).length + 1 : Nat) : Int) ≤ node.bufUsed := by
        simp only [used, storedLines_nil, List.append_nil]
        omega
      -- behind the lines one more string is searched, the one that starts at the bytes not in use
      rw [headerGetLoop, if_pos atEnd, List.nil_append, lineOffset, lineOffset]
      simp only [text]
      cases strstr f (cstr behind) with
      | some m => rfl
      | none =>
          dsimp only
          cases fuel with
          | zero => rfl
          | succ fuel =>
              rw [headerGetLoop, if_neg beyond]
              rfl
  | cons line lines ih =>
      obtain ⟨fuel, rfl⟩ : ∃ n, fuel = n + 1 := ⟨fuel - 1, by simp at enough; omega⟩
      have text : cstr (node.memFrom front.length) = line := by
        rw [HttpcMemNode.memFrom, memory, List.drop_left, storedLines_cons, List.append_assoc,
          List.cons_append, cstr_append_nul, cstr_of_nul_free (plain line (by simp))]
      have inside : (front.length : Int) ≤ node.bufUsed := by
        rw [used, List.length_append]
        omega
      rw [headerGetLoop, if_pos inside, List.cons_append, lineOffset]
      simp only [text]
      cases strstr f line with
      | some m => rfl
      | none =>
          -- the next round starts behind the zero byte of this line
          have next := ih (fun l member => plain l (List.mem_cons_of_mem line member))
            (front ++ (line ++ [nul])) (Nat.lt_of_succ_lt_succ enough) (by rw [memory]; simp)
            (by rw [used]; simp)
          rw [List.length_append, List.length_append, List.length_singleton, ← Nat.add_assoc]
            at next
          dsimp only
          rw [next, Option.map_map]
          congr 1
          funext m
          simp only [Function.comp_apply]
          omega

/-- The lines of a block have room for more search rounds than there are lines. -/
theorem length_le_storedLines (lines : List Bytes) : lines.length ≤ (storedLines lines).length := by
  induction lines with
  | nil => exact le_rfl
  | cons line lines ih =>
      simp only [storedLines_cons, List.length_append, List.length_cons]
      omega

section

variable {httpc : Httpc} {node : HttpcMemNode} {head : Head}

/-- The memory of a node that holds a whole head. -/
theorem holding_memory (fits : head.block.Fits node.bufLen) :
    ∃ behind, (node.holding head.block.stored).buf = storedLines head.lines ++ nul :: behind := by
  have room : head.block.stored.length + 2 ≤ node.bufLen := fits
  obtain ⟨n, more⟩ : ∃ n, node.bufLen - head.block.stored.length = n + 1 :=
    ⟨node.bufLen - head.block.stored.length - 1, by omega⟩
  refine ⟨List.replicate n nul ++ node.buf.drop node.bufLen, ?_⟩
  rw [holding_buf node (by omega), more, List.replicate_succ, List.cons_append]
  rfl

/-- What `httpc_header_get` returns on a node that holds a head. -/
theorem httpcHeaderGet_head (fits : head.block.Fits node.bufLen)
    (held : httpc.headerNode = some (node.holding head.block.stored)) {f : Bytes}
    (something : f ≠ []) :
    httpcHeaderGet httpc (some f) = (lineOffset f head.lines).map fun m =>
      skipSpace (node.holding head.block.stored).buf (m + f.length + 1) := by
  obtain ⟨behind, memory⟩ := holding_memory fits
  have rounds : (node.holding head.block.stored).bufUsed = (storedLines head.lines).length := rfl
  have plain : ∀ line ∈ head.lines, nul ∉ line :=
    fun line member inside => (head.inLine member nul inside).2.2 rfl
  have loop : headerGetLoop _ f _ _ = _ := headerGetLoop_lines plain []
    (Nat.lt_succ_of_le (length_le_storedLines head.lines)) (by simpa using memory)
    (by simpa using rounds)
  have blank : cstr (nul :: behind) = [] := rfl
  rw [blank, lineOffset_blank something, List.length_nil] at loop
  simp only [httpcHeaderGet, held, rounds]
  rw [show (((storedLines head.lines).length : Int) + 1).toNat =
    (storedLines head.lines).length + 1 by omega, loop]
  cases lineOffset f head.lines with
  | none => rfl
  | some m =>
      simp only [Option.map_some, Nat.zero_add]
      rfl

end

/-! ### The text that is found

The pointer that is returned, read as a string: what stands behind the name, without the blanks in
front. -/

/-- A text without the one space it may start with. -/
def behindSpace (text : Bytes) : Bytes :=
  if text.head? = some sp then text.tail else text

/-- The text behind the first occurrence of a text in some lines: one byte is left out, and then one
space. Where the occurrence ends its line, this is the next line. -/
def lineText (f : Bytes) : List Bytes → Option Bytes
  | [] => none
  | line :: lines =>
      match strstr f line with
      | some m =>
          some (behindSpace
            (if m + f.length < line.length then line.drop (m + f.length + 1) else lines.headD []))
      | none => lineText f lines

/-- The text `httpc_header_get` points to in a node. -/
def headText (node : HttpcMemNode) (f : Bytes) : Option Bytes :=
  (httpcHeaderGet (.ofNode node) (some f)).map fun p => cstr (node.memFrom p)

/-- Skipping a space in memory leaves it out of the text. -/
theorem cstr_skipSpace (mem : Bytes) (p : Nat) :
    cstr (mem.drop (skipSpace mem p)) = behindSpace (cstr (mem.drop p)) := by
  unfold skipSpace behindSpace
  cases here : mem.drop p with
  | nil => simp [here]
  | cons b rest =>
      rw [List.head?_cons]
      by_cases space : b = sp
      · have next : mem.drop (p + 1) = rest := by
          rw [← List.drop_drop, here]
          rfl
        have text : cstr (sp :: rest) = sp :: cstr rest := rfl
        rw [if_pos (by rw [space]), next, space, text, List.head?_cons, if_pos rfl, List.tail_cons]
      · rw [if_neg (by simpa using space), here]
        by_cases ends : b = nul
        · simp [cstr, ends]
        · simp [cstr, ends, space]

/-- The text in memory behind an occurrence of the search. -/
theorem cstr_lineOffset {f : Bytes} (something : f ≠ []) {lines : List Bytes}
    (plain : ∀ line ∈ lines, nul ∉ line) (front behind : Bytes) :
    (lineOffset f lines).map (fun m =>
        behindSpace (cstr ((front ++ (storedLines lines ++ nul :: behind)).drop
          (front.length + m + f.length + 1)))) = lineText f lines := by
  induction lines generalizing front with
  | nil => rfl
  | cons line lines ih =>
      have later : ∀ l ∈ lines, nul ∉ l :=
        fun l member => plain l (List.mem_cons_of_mem line member)
      rw [lineOffset, lineText, storedLines_cons, List.append_assoc, List.cons_append]
      cases found : strstr f line with
      | some m =>
          have bound := strstr_bound found something
          have here : (front ++ (line ++ nul :: (storedLines lines ++ nul :: behind))).drop
              (front.length + m + f.length + 1) =
              (line ++ nul :: (storedLines lines ++ nul :: behind)).drop (m + f.length + 1) := by
            rw [Nat.add_assoc, Nat.add_assoc, ← List.drop_drop, List.drop_left, Nat.add_assoc]
          simp only [Option.map_some, here]
          by_cases inside : m + f.length < line.length
          · have free : nul ∉ line.drop (m + f.length + 1) :=
              fun member => plain line (by simp) (List.mem_of_mem_drop member)
            rw [if_pos inside, List.drop_append_of_le_length inside, cstr_append_nul,
              cstr_of_nul_free free]
          · -- The terminator of the line is the byte that is left out.
            have atEnd : m + f.length + 1 = (line ++ [nul]).length := by
              rw [List.length_append, List.length_singleton]
              omega
            have split : line ++ nul :: (storedLines lines ++ nul :: behind) =
                (line ++ [nul]) ++ (storedLines lines ++ nul :: behind) := by simp
            rw [if_neg inside, split, atEnd, List.drop_left]
            cases lines with
            | nil => rfl
            | cons next lines =>
                rw [storedLines_cons, List.append_assoc, List.cons_append, cstr_append_nul,
                  cstr_of_nul_free (later next (by simp))]
                rfl
      | none =>
          have length : (front ++ (line ++ [nul])).length = front.length + (line.length + 1) := by
            simp
          rw [← ih later (front ++ (line ++ [nul]))]
          simp only [Option.map_map, Function.comp_def, length, List.append_assoc, List.cons_append,
            List.nil_append, Nat.add_assoc]

/-- The text that is found in a node that holds a head. -/
theorem headText_head {node : HttpcMemNode} {head : Head} (fits : head.block.Fits node.bufLen)
    {f : Bytes} (something : f ≠ []) :
    headText (node.holding head.block.stored) f = lineText f head.lines := by
  obtain ⟨behind, memory⟩ := holding_memory fits
  have plain : ∀ line ∈ head.lines, nul ∉ line :=
    fun line member inside => (head.inLine member nul inside).2.2 rfl
  have found := cstr_lineOffset something plain [] behind
  rw [headText, httpcHeaderGet_head fits rfl something, ← found]
  simp only [Option.map_map, Function.comp_def, HttpcMemNode.memFrom, memory, cstr_skipSpace,
    List.nil_append, List.length_nil, Nat.zero_add]

/-! ### The field that is meant

The search compared with the field of that name. They agree unless the name stands in an earlier
line, in other letters, or in front of blanks other than one space. -/

/-- How the search meets some fields when it finds the right one: the first line with the name in it
is that of a field with just this name and at most one blank, a space; and no field in front of it
has the name in other letters. -/
def FoundExact (f : FieldName) : List Field → Prop
  | [] => True
  | field :: fields =>
      if f.text <:+: field.text then
        field.name.text = f.text ∧ (field.blanks = [] ∨ field.blanks = [sp])
      else ¬ SameLetters field.name.text f.text ∧ FoundExact f fields

/-- The name does not stand in the status line, and the search finds the right field. -/
def LookupExact (head : Head) (f : FieldName) : Prop :=
  ¬ f.text <:+: head.status.text ∧ FoundExact f head.fields

instance FoundExact.decidable (f : FieldName) : (fields : List Field) →
    Decidable (FoundExact f fields)
  | [] => .isTrue trivial
  | field :: fields =>
      have := FoundExact.decidable f fields
      inferInstanceAs (Decidable (if f.text <:+: field.text then
        field.name.text = f.text ∧ (field.blanks = [] ∨ field.blanks = [sp])
      else ¬ SameLetters field.name.text f.text ∧ FoundExact f fields))

instance (head : Head) (f : FieldName) : Decidable (LookupExact head f) :=
  inferInstanceAs (Decidable (_ ∧ _))

/-- A name that is found in front of the end of the blanks of a field of its length is found at the
head of that field. -/
theorem found_at_head {field : Field} {f : FieldName} {m : Nat}
    (length : field.name.text.length = f.text.length)
    (found : f.text <+: field.text.drop m) (early : m ≤ field.blanks.length) : m = 0 := by
  by_contra positive
  obtain ⟨c, rest, name⟩ := List.exists_cons_of_ne_nil f.nonempty
  by_cases inName : m ≤ field.name.text.length
  · -- The colon of the field would stand in the name that is looked for.
    have start : field.text.drop m =
        (field.name.text.drop m ++ [colon]) ++ (field.blanks ++ field.value) := by
      rw [Field.text, List.drop_append_of_le_length inName]
      simp
    rw [start] at found
    have inside : field.name.text.drop m ++ [colon] <+: f.text := by
      apply List.prefix_of_prefix_length_le (List.prefix_append _ _) found
      simp only [List.length_append, List.length_drop, List.length_singleton]
      omega
    exact absurd (f.plain colon (inside.subset (by simp))) (by decide)
  · -- The name would start with a blank.
    obtain ⟨b, blanks, left⟩ : ∃ b blanks,
        field.blanks.drop (m - field.name.text.length - 1) = b :: blanks := by
      apply List.exists_cons_of_ne_nil
      simp only [ne_eq, List.drop_eq_nil_iff]
      omega
    have isBlank : b ∈ field.blanks := List.mem_of_mem_drop (by rw [left]; simp)
    have start : field.text.drop m = b :: (blanks ++ field.value) := by
      obtain ⟨n, rfl⟩ : ∃ n, m = field.name.text.length + (n + 1) :=
        ⟨m - field.name.text.length - 1, by omega⟩
      have skipped : field.name.text.length + (n + 1) - field.name.text.length - 1 = n := by omega
      rw [skipped] at left
      rw [Field.text, ← List.drop_drop, List.drop_left, List.drop_succ_cons,
        List.drop_append_of_le_length (by omega), left]
      rfl
    rw [start, name, List.cons_prefix_cons] at found
    have plain := f.plain c (by rw [name]; simp)
    rw [found.1] at plain
    rcases field.onlyBlanks b isBlank with rfl | rfl <;> exact absurd plain (by decide)

/-- Skipping one space in front of a value skips all its blanks only if there are no others. -/
theorem oneSpace_eq_blanks (field : Field) (behind : Bytes) :
    (if (field.blanks ++ (field.value ++ nul :: behind)).head? = some sp then 1 else 0) =
        field.blanks.length ↔ field.blanks = [] ∨ field.blanks = [sp] := by
  cases blanks : field.blanks with
  | nil =>
      have noSpace : (field.value ++ nul :: behind).head? ≠ some sp := by
        intro isSpace
        cases value : field.value with
        | nil =>
            rw [value] at isSpace
            exact absurd (Option.some.inj isSpace) (by decide)
        | cons b more =>
            rw [value] at isSpace
            exact (field.valueStart b (by rw [value]; rfl)).1 (Option.some.inj isSpace)
      rw [List.nil_append, if_neg noSpace]
      exact iff_of_true rfl (.inl rfl)
  | cons b more =>
      rw [List.cons_append, List.head?_cons, List.length_cons]
      by_cases space : b = sp
      · rw [if_pos (congrArg some space), space]
        cases more <;> simp
      · rw [if_neg fun same => space (Option.some.inj same)]
        refine iff_of_false (Nat.zero_ne_add_one _) ?_
        simp [space]

/-- On the line of a field with the name, the search ends at the value exactly when the name is
spelled the same way and there is no blank but one space. -/
theorem skipSpace_field {field : Field} {f : FieldName} {m : Nat}
    (same : SameLetters field.name.text f.text) (found : strstr f.text field.text = some m)
    (front behind : Bytes) :
    skipSpace (front ++ (field.text ++ nul :: behind)) (front.length + m + f.text.length + 1) =
        front.length + (field.name.text.length + 1 + field.blanks.length) ↔
      field.name.text = f.text ∧ (field.blanks = [] ∨ field.blanks = [sp]) := by
  have length := same.length_eq
  have step := skipSpace_bounds (front ++ (field.text ++ nul :: behind))
    (front.length + m + f.text.length + 1)
  have here : (front ++ (field.text ++ nul :: behind)).drop
      (front.length + 0 + f.text.length + 1) = field.blanks ++ (field.value ++ nul :: behind) := by
    have split : front ++ (field.text ++ nul :: behind) =
        (front ++ (field.name.text ++ [colon])) ++
          (field.blanks ++ (field.value ++ nul :: behind)) := by
      simp [Field.text]
    rw [split]
    apply List.drop_left'
    simp only [List.length_append, List.length_singleton]
    omega
  constructor
  · intro meets
    obtain rfl := found_at_head length (strstr_spec found) (by omega)
    have spelled : f.text = field.name.text :=
      (List.prefix_of_prefix_length_le (strstr_spec found) (List.prefix_append _ _)
        length.ge).eq_of_length length.symm
    refine ⟨spelled.symm, (oneSpace_eq_blanks field behind).mp ?_⟩
    rw [skipSpace_eq_add, here] at meets
    omega
  · rintro ⟨spelled, few⟩
    have start : f.text <+: field.text := by
      rw [← spelled]
      exact List.prefix_append _ _
    obtain rfl : m = 0 := Option.some.inj (found.symm.trans (strstr_of_start start))
    have skipped := (oneSpace_eq_blanks field behind).mpr few
    rw [skipSpace_eq_add, here]
    omega

theorem fieldOffset_ge {f : FieldName} {fields : List Field} {q : Nat}
    (found : fieldOffset f fields = some q) : 2 ≤ q := by
  induction fields generalizing q with
  | nil => cases found
  | cons field fields ih =>
      rw [fieldOffset] at found
      split at found
      · cases found
        have positive := List.length_pos_iff.mpr field.name.nonempty
        omega
      · obtain ⟨later, there, rfl⟩ := Option.map_eq_some_iff.mp found
        have bound := ih there
        omega

/-- Among some fields in memory the search ends at the value of the field that is meant exactly when
it meets them so. -/
theorem search_fields_iff (f : FieldName) (fields : List Field) (front behind : Bytes) :
    (lineOffset f.text (fields.map Field.text)).map (fun m =>
        skipSpace (front ++ (storedLines (fields.map Field.text) ++ nul :: behind))
          (front.length + m + f.text.length + 1)) =
        (fieldOffset f fields).map (front.length + ·) ↔
      FoundExact f fields := by
  induction fields generalizing front with
  | nil => exact iff_of_true rfl trivial
  | cons field fields ih =>
      have whole : field.text.length =
          field.name.text.length + 1 + field.blanks.length + field.value.length := by
        simp only [Field.text, List.length_append, List.length_cons]
        omega
      rw [List.map_cons, storedLines_cons, lineOffset, fieldOffset, FoundExact, List.append_assoc,
        List.cons_append]
      cases found : strstr f.text field.text with
      | some m =>
          rw [if_pos (infix_of_strstr found)]
          by_cases same : SameLetters field.name.text f.text
          · rw [if_pos same]
            simp only [Option.map_some, Option.some.injEq]
            exact skipSpace_field same found front _
          · -- The value that is meant, if there is one, starts behind the next line's colon.
            rw [if_neg same]
            refine iff_of_false ?_ ?_
            · intro meets
              obtain ⟨q, there, equal⟩ := Option.map_eq_some_iff.mp meets.symm
              obtain ⟨later, found', rfl⟩ := Option.map_eq_some_iff.mp there
              have step := skipSpace_bounds (front ++ (field.text ++ nul ::
                (storedLines (fields.map Field.text) ++ nul :: behind)))
                (front.length + m + f.text.length + 1)
              have bound := strstr_bound found f.nonempty
              have far := fieldOffset_ge found'
              dsimp only at equal
              omega
            · rintro ⟨spelled, -⟩
              exact same (by rw [spelled]; rfl)
      | none =>
          rw [if_neg (strstr_eq_none.mp found)]
          by_cases same : SameLetters field.name.text f.text
          · rw [if_pos same]
            -- The field is the one that is meant, but its name is spelled otherwise: the search
            -- goes past it.
            refine iff_of_false ?_ (fun exact => exact.1 same)
            intro meets
            obtain ⟨q, there, equal⟩ := Option.map_eq_some_iff.mp meets
            obtain ⟨later, -, rfl⟩ := Option.map_eq_some_iff.mp there
            have step := skipSpace_bounds (front ++ (field.text ++ nul ::
              (storedLines (fields.map Field.text) ++ nul :: behind)))
              (front.length + (field.text.length + 1 + later) + f.text.length + 1)
            dsimp only at equal
            omega
          · rw [if_neg same, ← ih (front ++ (field.text ++ [nul]))]
            have length : (front ++ (field.text ++ [nul])).length =
                front.length + (field.text.length + 1) := by simp
            simp only [same, not_false_eq_true, true_and, Option.map_map, Function.comp_def, length,
              List.append_assoc, List.cons_append, List.nil_append, Nat.add_assoc]

section

variable {net : Transport} {httpc : Httpc} {node : HttpcMemNode} {w : World} {head : Head}

/-- Looking a name up in a head that is held whole. -/
theorem header_get_iff (fits : head.block.Fits node.bufLen)
    (held : httpc.headerNode = some (node.holding head.block.stored)) (f : FieldName) :
    httpcHeaderGet httpc (some f.text) = head.valueOffset f ↔ LookupExact head f := by
  obtain ⟨behind, memory⟩ := holding_memory fits
  rw [httpcHeaderGet_head fits held f.nonempty, memory, Head.lines, lineOffset, storedLines_cons,
    LookupExact, Head.valueOffset]
  cases found : strstr f.text head.status.text with
  | some m =>
      refine iff_of_false ?_ (fun exact => exact.1 (infix_of_strstr found))
      intro meets
      obtain ⟨later, there, equal⟩ := Option.map_eq_some_iff.mp meets.symm
      have step := skipSpace_bounds (head.status.text ++ nul ::
        storedLines (head.fields.map Field.text) ++ nul :: behind) (m + f.text.length + 1)
      have bound := strstr_bound found f.nonempty
      have far := fieldOffset_ge there
      dsimp only at equal
      omega
  | none =>
      have fields := search_fields_iff f head.fields (head.status.text ++ [nul]) behind
      have length : (head.status.text ++ [nul]).length = head.status.text.length + 1 := by simp
      rw [← fields]
      simp only [strstr_eq_none.mp found, not_false_eq_true, true_and, Option.map_map,
        Function.comp_def, length, List.append_assoc, List.cons_append, List.nil_append]

/-- A lookup gives the place of the value of the first field with that name, nothing when there is
none, and never a place off the line of a field with that name. -/
structure LookupRight (head : Head) (f : FieldName) (result : Option Nat) : Prop where
  value : result = head.valueOffset f
  inside : ∀ p, result = some p → head.OnField f p

/-- After a head that fits was received, a name is looked up right if and only if the first line
that has it in it is that of the first field with this name, spelled the same way and with no blank
but one space; or no line has it in it and no field has this name. -/
theorem header_lookup_iff (arrives : BlockArrives net httpc node w head.block)
    (fits : head.block.Fits node.bufLen) (f : FieldName) :
    LookupRight head f (httpcHeaderGet (httpcHandleResponse net httpc w).httpc (some f.text)) ↔
      LookupExact head f := by
  obtain ⟨w', handled⟩ := handleResponse_block arrives
  obtain ⟨held, -⟩ := parseHead_client arrives.live (node.holding head.block.stored)
  rw [handled, held_of_fits arrives fits, ← header_get_iff fits held f]
  constructor
  · exact LookupRight.value
  · intro right
    exact ⟨right, fun p found => head.valueOffset_onField (right.symm.trans found)⟩

/-- Every block can arrive, with nothing behind it and a transport that never fails. -/
theorem prompt_blockArrives (block : HeaderBlock) :
    BlockArrives .prompt smallClient smallNode (.opened block.bytes) block where
  live := smallClient_live
  header := rfl
  steady := Transport.prompt_steady _
  stream := List.prefix_refl _

/-- The length of the body is found in the head of a response. -/
theorem header_lookup_iff_okHead :
    LookupRight okHead contentLengthName
      (httpcHeaderGet (httpcHandleResponse .prompt smallClient (.opened okHead.block.bytes)).httpc
        (some contentLengthName.text)) :=
  (header_lookup_iff (prompt_blockArrives okHead.block) (by decide) contentLengthName).mpr
    (by decide)

def etagName : FieldName :=
  .ofText (ascii "ETag") (by decide)

/-- A head whose second line ends with the name of the third, `Vary: ETag` in front of `ETag: 7`. -/
def etagHead : Head where
  status := okStatus
  fields :=
    [.spaced (.ofText (ascii "Vary") (by decide)) (ascii "ETag") (by decide) (by decide),
      .spaced etagName (ascii "7") (by decide) (by decide)]

/-- The lookup finds the name at the end of the wrong line, and gives the head of the next line
instead of the value. -/
theorem header_lookup_overshoots :
    httpcHeaderGet (httpcHandleResponse .prompt smallClient (.opened etagHead.block.bytes)).httpc
        (some etagName.text) = some 27 ∧
      etagHead.valueOffset etagName = some 33 ∧
      ¬ LookupRight etagHead etagName
        (httpcHeaderGet (httpcHandleResponse .prompt smallClient
          (.opened etagHead.block.bytes)).httpc (some etagName.text)) := by
  have found : httpcHeaderGet (httpcHandleResponse .prompt smallClient
      (.opened etagHead.block.bytes)).httpc (some etagName.text) = some 27 := by decide +kernel
  have meant : etagHead.valueOffset etagName = some 33 := by decide
  refine ⟨found, meant, fun right => ?_⟩
  have same := right.value
  rw [found, meant] at same
  exact absurd same (by decide)

end

end Hfc
