/-
Module: Hfc.Spec.FieldBlock
Layer: Spec
Purpose: The head of a response on its own terms: a status line and fields, each well formed by
  construction, with its text on the wire and in memory. A field is looked up by its name in any
  letter case; `Head.valueOffset` says where its value starts.
Imports: Hfc.Library.Numeral, Hfc.Spec.HeaderBlock
Main exports: FieldName, SameLetters, Field, Field.text, StatusLine, StatusLine.text, Head,
  Head.lines, Head.block, fieldOffset, Head.valueOffset, Head.OnField, Head.valueOffset_onField,
  PlainNumber, leadingNumber, spelledValue
-/
import Hfc.Library.Numeral
import Hfc.Spec.HeaderBlock

namespace Hfc

open ByteText CrlfScan Numeral

/-- The colon behind a field name. -/
abbrev colon : Byte := 58

/-- The characters of a field name: the visible ones but the colon. -/
def isNameByte (b : Byte) : Bool :=
  33 ≤ b.toNat && b.toNat ≤ 126 && b ≠ colon

/-- A byte that can stand inside a line. -/
def InLine (b : Byte) : Prop :=
  b ≠ cr ∧ b ≠ lf ∧ b ≠ nul

instance (b : Byte) : Decidable (InLine b) :=
  inferInstanceAs (Decidable (_ ∧ _))

def lowerByte (b : Byte) : Byte :=
  if 65 ≤ b.toNat && b.toNat ≤ 90 then b + 32 else b

/-- Two texts are equal but for the case of their letters. -/
def SameLetters (one two : Bytes) : Prop :=
  one.map lowerByte = two.map lowerByte

instance (one two : Bytes) : Decidable (SameLetters one two) :=
  inferInstanceAs (Decidable (_ = _))

theorem SameLetters.length_eq {one two : Bytes} (same : SameLetters one two) :
    one.length = two.length := by
  simpa using congrArg List.length same

/-- A field name: visible characters other than the colon, and one of them at least. -/
structure FieldName where
  text : Bytes
  nonempty : text ≠ []
  plain : ∀ b ∈ text, isNameByte b = true

/-- One field of a head: the name, the blanks behind its colon, and a value that starts with none
and stays on its line. -/
structure Field where
  name : FieldName
  blanks : Bytes
  value : Bytes
  onlyBlanks : ∀ b ∈ blanks, b = sp ∨ b = 9
  valueStart : ∀ b ∈ value.head?, b ≠ sp ∧ b ≠ 9
  valuePlain : ∀ b ∈ value, InLine b

/-- A field on its line. -/
def Field.text (field : Field) : Bytes :=
  field.name.text ++ colon :: (field.blanks ++ field.value)

/-- A status line. -/
structure StatusLine where
  minor : Byte
  code : Bytes
  reason : Bytes
  minorDigit : (digitVal 10 minor).isSome
  nonempty : code ≠ []
  digits : ∀ b ∈ code, (digitVal 10 b).isSome
  reasonStart : ∀ b ∈ reason.head?, b = sp
  reasonPlain : ∀ b ∈ reason, InLine b

def StatusLine.text (status : StatusLine) : Bytes :=
  ascii "HTTP/1." ++ status.minor :: sp :: (status.code ++ status.reason)

/-- The number the status line gives. -/
def StatusLine.number (status : StatusLine) : Nat :=
  value 10 (Numeral.digits 10 status.code)

/-- The head of a response: a status line and the fields in the order in which they are sent. -/
structure Head where
  status : StatusLine
  fields : List Field

def Head.lines (head : Head) : List Bytes :=
  head.status.text :: head.fields.map Field.text

/-! ### The fields that frame a body

Names are compared without regard to case. -/

/-- The name a text spells. -/
def FieldName.ofText (text : Bytes) (valid : text ≠ [] ∧ text.all isNameByte = true) :
    FieldName where
  text := text
  nonempty := valid.1
  plain := List.all_eq_true.mp valid.2

def contentLengthName : FieldName :=
  .ofText (ascii "Content-Length") (by decide)

def transferEncodingName : FieldName :=
  .ofText (ascii "Transfer-Encoding") (by decide)

/-! ### The lines of a head

A head as it stands on the wire and as it stands in the buffer, where a zero byte is in place of
every line end. -/

theorem inLine_of_all {text : Bytes} (all : text.all (fun b => decide (InLine b)) = true) :
    ∀ b ∈ text, InLine b := by
  simpa using all

/-- A digit can stand inside a line. -/
theorem inLine_of_digit {b : Byte} (digit : (digitVal 10 b).isSome) : InLine b := by
  refine ⟨?_, ?_, ?_⟩ <;> rintro rfl <;> exact absurd digit (by decide)

theorem inLine_of_name {b : Byte} (plain : isNameByte b = true) : InLine b := by
  refine ⟨?_, ?_, ?_⟩ <;> rintro rfl <;> exact absurd plain (by decide)

theorem InLine.crlfFree {text : Bytes} (plain : ∀ b ∈ text, InLine b) : CrlfFree nul text :=
  CrlfFree.of_no_lf (fun member => (plain lf member).2.1 rfl) nul

theorem Field.inLine (field : Field) : ∀ b ∈ field.text, InLine b := by
  intro b member
  simp only [Field.text, List.mem_append, List.mem_cons] at member
  rcases member with inName | rfl | inBlanks | inValue
  · exact inLine_of_name (field.name.plain b inName)
  · decide
  · rcases field.onlyBlanks b inBlanks with rfl | rfl <;> decide
  · exact field.valuePlain b inValue

theorem Field.text_ne_nil (field : Field) : field.text ≠ [] := by
  simp [Field.text]

theorem StatusLine.inLine (status : StatusLine) : ∀ b ∈ status.text, InLine b := by
  have protocol : ∀ b ∈ ascii "HTTP/1.", InLine b := inLine_of_all (by decide)
  intro b member
  simp only [StatusLine.text, List.mem_append, List.mem_cons] at member
  rcases member with inProtocol | rfl | rfl | inCode | inReason
  · exact protocol b inProtocol
  · exact inLine_of_digit status.minorDigit
  · decide
  · exact inLine_of_digit (status.digits b inCode)
  · exact status.reasonPlain b inReason

theorem Head.inLine (head : Head) {line : Bytes} (member : line ∈ head.lines) :
    ∀ b ∈ line, InLine b := by
  rcases List.mem_cons.mp member with rfl | later
  · exact head.status.inLine
  · obtain ⟨field, -, rfl⟩ := List.mem_map.mp later
    exact field.inLine

/-- A head as a block of lines. -/
def Head.block (head : Head) : HeaderBlock where
  lines := head.lines
  plain line member := by
    refine ⟨?_, InLine.crlfFree (head.inLine member)⟩
    rcases List.mem_cons.mp member with rfl | later
    · simp [StatusLine.text]
    · obtain ⟨field, -, rfl⟩ := List.mem_map.mp later
      exact field.text_ne_nil

/-- Some lines in memory, each with its terminator. -/
def storedLines (lines : List Bytes) : Bytes :=
  lines.flatMap fun line => line ++ [nul]

@[simp] theorem storedLines_nil : storedLines [] = [] := rfl

@[simp] theorem storedLines_cons (line : Bytes) (lines : List Bytes) :
    storedLines (line :: lines) = line ++ nul :: storedLines lines := by
  simp [storedLines]

/-! ### Where a field is

The position of a field in these lines, and of its value. -/

/-- Where the value of the first of some fields with a name starts, the lines of the fields standing
one behind the other in memory. -/
def fieldOffset (f : FieldName) : List Field → Option Nat
  | [] => none
  | field :: fields =>
      if SameLetters field.name.text f.text then
        some (field.name.text.length + 1 + field.blanks.length)
      else (fieldOffset f fields).map (field.text.length + 1 + ·)

/-- Where the value of the first field of a head with a name starts. -/
def Head.valueOffset (head : Head) (f : FieldName) : Option Nat :=
  (fieldOffset f head.fields).map (head.status.text.length + 1 + ·)

/-- An offset that lies on the line of one of some fields with a name, behind the colon and not
behind the terminator; the lines start at `base`. -/
def OnFieldLine (f : FieldName) (fields : List Field) (base p : Nat) : Prop :=
  ∃ front field behind, fields = front ++ field :: behind ∧ SameLetters field.name.text f.text ∧
    base + (storedLines (front.map Field.text)).length + field.name.text.length < p ∧
    p ≤ base + (storedLines (front.map Field.text)).length + field.text.length

/-- No value starts off the line of its field. -/
theorem fieldOffset_onLine {f : FieldName} {fields : List Field} {p : Nat}
    (found : fieldOffset f fields = some p) (base : Nat) :
    OnFieldLine f fields base (base + p) := by
  induction fields generalizing p base with
  | nil => cases found
  | cons field fields ih =>
      rw [fieldOffset] at found
      split at found
      · rename_i same
        cases found
        refine ⟨[], field, fields, rfl, same, ?_, ?_⟩
        · simp only [List.map_nil, storedLines_nil, List.length_nil]
          omega
        · simp only [List.map_nil, storedLines_nil, List.length_nil, Field.text,
            List.length_append, List.length_cons]
          omega
      · obtain ⟨later, there, rfl⟩ := Option.map_eq_some_iff.mp found
        obtain ⟨front, here, behind, rfl, same, lower, upper⟩ :=
          ih there (base + (field.text.length + 1))
        refine ⟨field :: front, here, behind, rfl, same, ?_, ?_⟩
        · simp only [List.map_cons, storedLines_cons, List.length_append, List.length_cons]
          omega
        · simp only [List.map_cons, storedLines_cons, List.length_append, List.length_cons]
          omega

/-- An offset on the line of a field of a head with a name. -/
def Head.OnField (head : Head) (f : FieldName) (p : Nat) : Prop :=
  OnFieldLine f head.fields (head.status.text.length + 1) p

theorem Head.valueOffset_onField (head : Head) {f : FieldName} {p : Nat}
    (found : head.valueOffset f = some p) : head.OnField f p := by
  obtain ⟨later, there, rfl⟩ := Option.map_eq_some_iff.mp found
  exact fieldOffset_onLine there _

/-! ### Values

What a number or a list of codings in a value stands for, apart from what the code makes of it. -/

/-- A text of decimal digits, with nothing but blanks behind them. -/
def PlainNumber (text : Bytes) : Prop :=
  ∃ num blanks, text = num ++ blanks ∧ num ≠ [] ∧ (∀ b ∈ num, (digitVal 10 b).isSome) ∧
    ∀ b ∈ blanks, b = sp ∨ b = 9

/-- The number at the head of a text. -/
def leadingNumber (text : Bytes) : Nat :=
  value 10 (digits 10 text)

/-- `strtoul` reads the number of such a text. -/
theorem PlainNumber.strtoul_eq {text : Bytes} (plain : PlainNumber text) :
    strtoul 10 text = min (leadingNumber text) ulongMax := by
  obtain ⟨num, blanks, rfl, something, numeral, onlyBlanks⟩ := plain
  have ends : EndsNumeral blanks := by
    intro b member
    rcases onlyBlanks b (List.mem_of_mem_head? member) with rfl | rfl <;> decide
  rw [strtoul_digits numeral something ends, leadingNumber,
    digits_append numeral (ends.digitVal_eq_none 10)]

/-- The value of the first of some fields whose name is spelled just so. -/
def spelledValue (f : FieldName) : List Field → Option Bytes
  | [] => none
  | field :: fields =>
      if field.name.text = f.text then some field.value else spelledValue f fields

/-- Fields with other names play no part. -/
theorem spelledValue_filter {f : FieldName} {p : Field → Bool}
    (kept : ∀ field, field.name.text = f.text → p field = true) (fields : List Field) :
    spelledValue f (fields.filter p) = spelledValue f fields := by
  induction fields with
  | nil => rfl
  | cons field fields ih =>
      by_cases named : field.name.text = f.text
      · rw [List.filter_cons_of_pos (kept field named), spelledValue, spelledValue, if_pos named,
          if_pos named]
      · cases passes : p field with
        | true =>
            rw [List.filter_cons_of_pos passes, spelledValue, spelledValue, if_neg named,
              if_neg named, ih]
        | false =>
            rw [List.filter_cons_of_neg (by simp [passes]), ih, spelledValue, if_neg named]

/-- The last of the codings in the value of a field, without the blanks around it. -/
def lastCoding (text : Bytes) : Bytes :=
  let blank := fun b : Byte => b = sp || b = 9
  let behindComma := (text.reverse.takeWhile (· ≠ 44)).reverse
  ((behindComma.dropWhile blank).reverse.dropWhile blank).reverse

/-- Whether a field says that the body is chunked, in any letter case. -/
def Field.Chunked (field : Field) : Prop :=
  SameLetters field.name.text transferEncodingName.text ∧
    SameLetters (lastCoding field.value) (ascii "chunked")

instance (field : Field) : Decidable field.Chunked :=
  inferInstanceAs (Decidable (_ ∧ _))

/-! ### Heads to compute with

One head with a length and the fields that later examples put in its place. -/

/-- The status line `HTTP/1.1 200 OK`. -/
def okStatus : StatusLine where
  minor := 49
  code := ascii "200"
  reason := ascii " OK"
  minorDigit := by decide
  nonempty := by decide
  digits := List.all_eq_true.mp (by decide)
  reasonStart := by simp [ascii]
  reasonPlain := inLine_of_all (by decide)

/-- The field with a value behind one space. -/
def Field.spaced (name : FieldName) (text : Bytes)
    (start : text.head? ≠ some sp ∧ text.head? ≠ some 9)
    (plain : text.all (fun b => decide (InLine b)) = true) : Field where
  name := name
  blanks := [sp]
  value := text
  onlyBlanks := by simp
  valueStart b member := by
    constructor
    · rintro rfl
      exact start.1 member
    · rintro rfl
      exact start.2 member
  valuePlain := inLine_of_all plain

/-- The field `Content-Length: 5`. -/
def lengthField : Field :=
  .spaced contentLengthName (ascii "5") (by decide) (by decide)

/-- The head of a response with a body of five bytes. -/
def okHead : Head where
  status := okStatus
  fields := [lengthField]

example : okHead.block.stored = okHeader.stored := by decide

/-- The field `Transfer-Encoding: chunked`. -/
def codingField : Field :=
  .spaced transferEncodingName (ascii "chunked") (by decide) (by decide)

/-- The field `Server: hfc`. -/
def serverField : Field :=
  .spaced (.ofText (ascii "Server") (by decide)) (ascii "hfc") (by decide) (by decide)

end Hfc
