/-
Module: Hfc.Proofs.BodyFraming
Layer: Proofs
Purpose: How `httpc_handle_response` decides the framing of a body. A length other than zero decides
  alone, a transfer coding is looked at without one, and a head with neither is refused; fields that
  do not mention the two names play no part.
Imports: Hfc.Proofs.FieldLookup
Main exports: readLength, parseHead_of_protocol, headResponseCode_head, Unmistaken,
  handleResponse_head, FramingDecided, SameFraming, SameOutcome, body_framing
-/
import Hfc.Proofs.FieldLookup

namespace Hfc

open ByteText CrlfScan Numeral

/-! ### What is read of a node

The three lookups of `httpc_handle_response` on a node that holds a head, through the lines of that
head. -/

/-- The body length that is made of such a text, zero without one. -/
def readLength (text : Option Bytes) : Int :=
  match text with
  | none => 0
  | some text => toInt32 (strtoul 10 text)

theorem headContentLength_eq (node : HttpcMemNode) :
    headContentLength (.ofNode node) node = readLength (headText node contentLengthName.text) := by
  have name : contentLengthName.text = ascii "Content-Length" := rfl
  unfold headContentLength headText
  rw [name]
  cases httpcHeaderGet (.ofNode node) (some (ascii "Content-Length")) <;> rfl

/-- What the client is told of a head: the framing depends on the length and the coding alone. -/
theorem parseHead_of_protocol {httpc : Httpc} {node : HttpcMemNode} {ptr : Nat}
    (header : httpc.headerNode = some node)
    (protocol : strstr (ascii "HTTP/1.") (cstr node.buf) = some ptr) {n : Int}
    (length : readLength (headText node contentLengthName.text) = n) {coding : Option Bytes}
    (found : headText node transferEncodingName.text = coding) :
    parseHead httpc node =
      (if n ≠ 0 ∨ coding.isSome then httpcErrOk else httpcErrFail,
        { httpc with
          responseCode := headResponseCode node ptr
          contentLength := n
          chunked := if n = 0 ∧ coding = some (ascii "chunked") then 1 else 0 }) := by
  have lengthRead : headContentLength httpc node = n := by
    rw [← length, ← headContentLength_eq, headContentLength, headContentLength,
      httpcHeaderGet_ofNode header]
  have get (code chunked : Int) :
      httpcHeaderGet
          { httpc with responseCode := code, contentLength := n, chunked := chunked }
          (some (ascii "Transfer-Encoding")) =
        httpcHeaderGet (.ofNode node) (some transferEncodingName.text) :=
    httpcHeaderGet_ofNode header _
  unfold parseHead
  simp only [protocol, lengthRead, get]
  rw [← found]
  unfold headText
  by_cases zero : n = 0
  · cases httpcHeaderGet (.ofNode node) (some transferEncodingName.text) with
    | none => simp [zero]
    | some ptr =>
        by_cases chunked : cstr (node.memFrom ptr) = ascii "chunked" <;> simp [zero, chunked]
  · simp [zero]

section

variable {httpc : Httpc} {node : HttpcMemNode} {head : Head}

/-- The protocol is found at the head of the status line. -/
theorem protocol_head (fits : head.block.Fits node.bufLen) :
    strstr (ascii "HTTP/1.") (cstr (node.holding head.block.stored).buf) = some 0 := by
  obtain ⟨behind, memory⟩ := holding_memory fits
  apply protocol_of_start
  rw [memory, Head.lines, storedLines_cons, StatusLine.text, List.append_assoc, List.append_assoc]
  exact List.prefix_append _ _

/-- The response code is the number in the status line, saturated as `strtoul` does and taken as an
`int`. -/
theorem headResponseCode_head (fits : head.block.Fits node.bufLen) :
    headResponseCode (node.holding head.block.stored) 0 =
      toInt32 (min head.status.number ulongMax : Nat) := by
  obtain ⟨behind, memory⟩ := holding_memory fits
  have split : (node.holding head.block.stored).buf =
      ascii "HTTP/1." ++ head.status.minor :: ([sp] ++ (head.status.code ++
        (head.status.reason ++
          nul :: (storedLines (head.fields.map Field.text) ++ nul :: behind)))) := by
    rw [memory, Head.lines, storedLines_cons]
    simp [StatusLine.text]
  have plain : nul ∉ head.status.reason :=
    fun member => (head.status.reasonPlain nul member).2.2 rfl
  have ends : EndsNumeral (cstr (head.status.reason ++
      nul :: (storedLines (head.fields.map Field.text) ++ nul :: behind))) := by
    rw [cstr_append_nul, cstr_of_nul_free plain]
    intro b member
    rw [head.status.reasonStart b member]
    decide
  exact headResponseCode_memory split (by simp) head.status.digits head.status.nonempty ends

end

/-! ### The field that decides

A head in which no other line can be taken for one of the two fields. For it a lookup finds the
field and nothing else. -/

/-- The first of some fields with the name in its line is one with just this name and at most one
blank, a space. -/
def Unmistaken (f : FieldName) : List Field → Prop
  | [] => True
  | field :: fields =>
      if f.text <:+: field.text then
        field.name.text = f.text ∧ (field.blanks = [] ∨ field.blanks = [sp])
      else Unmistaken f fields

/-- The name does not stand in the status line either. -/
def Head.Unmistaken (head : Head) (f : FieldName) : Prop :=
  ¬ f.text <:+: head.status.text ∧ Hfc.Unmistaken f head.fields

instance Unmistaken.decidable (f : FieldName) : (fields : List Field) →
    Decidable (Unmistaken f fields)
  | [] => .isTrue trivial
  | field :: fields =>
      have := Unmistaken.decidable f fields
      inferInstanceAs (Decidable (if f.text <:+: field.text then
        field.name.text = f.text ∧ (field.blanks = [] ∨ field.blanks = [sp])
      else Unmistaken f fields))

instance (head : Head) (f : FieldName) : Decidable (head.Unmistaken f) :=
  inferInstanceAs (Decidable (_ ∧ _))

/-- Then the text that is found among the fields is the value of that field. -/
theorem lineText_unmistaken {f : FieldName} {fields : List Field}
    (unmistaken : Unmistaken f fields) :
    lineText f.text (fields.map Field.text) = spelledValue f fields := by
  induction fields with
  | nil => rfl
  | cons field fields ih =>
      rw [Unmistaken] at unmistaken
      rw [List.map_cons, lineText, spelledValue]
      by_cases inLine : f.text <:+: field.text
      · rw [if_pos inLine] at unmistaken
        obtain ⟨spelled, few⟩ := unmistaken
        have start : f.text <+: field.text := by
          rw [← spelled]
          exact List.prefix_append _ _
        have behind : field.text.drop (0 + f.text.length + 1) = field.blanks ++ field.value := by
          rw [← spelled, Nat.zero_add, Field.text, ← List.drop_drop, List.drop_left]
          rfl
        have inside : 0 + f.text.length < field.text.length := by
          simp only [Field.text, spelled, List.length_append, List.length_cons]
          omega
        have noSpace : field.value.head? ≠ some sp := fun space => (field.valueStart sp space).1 rfl
        rw [strstr_of_start start, if_pos spelled]
        dsimp only
        rw [if_pos inside, behind]
        rcases few with noBlank | one
        · rw [noBlank, List.nil_append, behindSpace, if_neg noSpace]
        · rw [one]
          rfl
      · rw [if_neg inLine] at unmistaken
        have other : ¬ field.name.text = f.text := by
          intro spelled
          refine inLine ?_
          rw [← spelled]
          exact (List.prefix_append _ _).isInfix
        rw [strstr_eq_none.mpr inLine, if_neg other]
        exact ih unmistaken

/-- So it is among all lines of a head. -/
theorem Head.lineText_unmistaken {head : Head} {f : FieldName} (unmistaken : head.Unmistaken f) :
    lineText f.text head.lines = spelledValue f head.fields := by
  rw [Head.lines, lineText, strstr_eq_none.mpr unmistaken.1]
  exact Hfc.lineText_unmistaken unmistaken.2

/-! ### The decision

What the code reads from such a head and what the standard asks for, on the same fields. The heads
at the end show that they are not the same. -/

/-- A head that fits comes next on the stream, and the two names that matter stand in front in their
own fields. -/
structure FramedArrives (net : Transport) (httpc : Httpc) (node : HttpcMemNode) (w : World)
    (head : Head) : Prop where
  arrives : BlockArrives net httpc node w head.block
  fits : head.block.Fits node.bufLen
  length : head.Unmistaken contentLengthName
  coding : head.Unmistaken transferEncodingName

/-- The framing of a body is decided by the two fields: a length that is an `int` other than zero
decides alone, a transfer coding is looked at when there is no length, and a head with neither is
refused. -/
structure FramingDecided (head : Head) (handled : Handled) : Prop where
  length : ∀ text, spelledValue contentLengthName head.fields = some text → PlainNumber text →
    0 < leadingNumber text → leadingNumber text < 2 ^ 31 →
    handled.ret = httpcErrOk ∧ handled.httpc.contentLength = leadingNumber text ∧
      handled.httpc.chunked = 0
  coding : spelledValue contentLengthName head.fields = none →
    ∀ text, spelledValue transferEncodingName head.fields = some text →
      handled.ret = httpcErrOk ∧ handled.httpc.contentLength = 0 ∧
        handled.httpc.chunked = if text = ascii "chunked" then 1 else 0
  neither : spelledValue contentLengthName head.fields = none →
    spelledValue transferEncodingName head.fields = none →
      handled.ret = httpcErrFail ∧ handled.httpc.contentLength = 0 ∧ handled.httpc.chunked = 0

/-- A field that has a part in the framing. -/
def Field.framing (field : Field) : Bool :=
  field.name.text = contentLengthName.text || field.name.text = transferEncodingName.text

/-- Two heads differ only in fields that have no part in the framing. -/
structure SameFraming (head head' : Head) : Prop where
  status : head.status = head'.status
  fields : head.fields.filter Field.framing = head'.fields.filter Field.framing

/-- The client is told the same. -/
structure SameOutcome (handled handled' : Handled) : Prop where
  ret : handled.ret = handled'.ret
  responseCode : handled.httpc.responseCode = handled'.httpc.responseCode
  contentLength : handled.httpc.contentLength = handled'.httpc.contentLength
  chunked : handled.httpc.chunked = handled'.httpc.chunked

section

variable {net net' : Transport} {httpc httpc' : Httpc} {node node' : HttpcMemNode} {w w' : World}
  {head head' : Head}

/-- What the client is told of a head that fits, by the texts found behind the two names. -/
theorem handleResponse_head (arrives : BlockArrives net httpc node w head.block)
    (fits : head.block.Fits node.bufLen) {n : Int}
    (length : readLength (lineText contentLengthName.text head.lines) = n) {coding : Option Bytes}
    (found : lineText transferEncodingName.text head.lines = coding) :
    (httpcHandleResponse net httpc w).ret =
        (if n ≠ 0 ∨ coding.isSome then httpcErrOk else httpcErrFail) ∧
      (httpcHandleResponse net httpc w).httpc.responseCode =
        toInt32 (min head.status.number ulongMax : Nat) ∧
      (httpcHandleResponse net httpc w).httpc.contentLength = n ∧
      (httpcHandleResponse net httpc w).httpc.chunked =
        if n = 0 ∧ coding = some (ascii "chunked") then 1 else 0 := by
  obtain ⟨w', handled⟩ := handleResponse_block arrives
  rw [← headText_head fits contentLengthName.nonempty] at length
  rw [← headText_head fits transferEncodingName.nonempty] at found
  have parsed := parseHead_of_protocol
    (show { httpc with headerNode := some (node.holding head.block.stored) }.headerNode = _ from
      rfl)
    (protocol_head fits) length found
  rw [handled, held_of_fits arrives fits]
  simp only [parsed, headResponseCode_head fits, and_self]

/-- So it is told the values of the two fields when these stand in front. -/
theorem handleResponse_framed (framed : FramedArrives net httpc node w head) {n : Int}
    (length : readLength (spelledValue contentLengthName head.fields) = n) {coding : Option Bytes}
    (found : spelledValue transferEncodingName head.fields = coding) :
    (httpcHandleResponse net httpc w).ret =
        (if n ≠ 0 ∨ coding.isSome then httpcErrOk else httpcErrFail) ∧
      (httpcHandleResponse net httpc w).httpc.responseCode =
        toInt32 (min head.status.number ulongMax : Nat) ∧
      (httpcHandleResponse net httpc w).httpc.contentLength = n ∧
      (httpcHandleResponse net httpc w).httpc.chunked =
        if n = 0 ∧ coding = some (ascii "chunked") then 1 else 0 :=
  handleResponse_head framed.arrives framed.fits
    (by rw [head.lineText_unmistaken framed.length, length])
    (by rw [head.lineText_unmistaken framed.coding, found])

theorem framingDecided (framed : FramedArrives net httpc node w head) :
    FramingDecided head (httpcHandleResponse net httpc w) where
  length text found plain positive small := by
    have n : readLength (spelledValue contentLengthName head.fields) = leadingNumber text := by
      rw [found, readLength, plain.strtoul_eq, Nat.min_eq_left (by unfold ulongMax; omega),
        toInt32_of_small small]
    obtain ⟨ret, -, length, chunked⟩ := handleResponse_framed framed n rfl
    have other : leadingNumber text ≠ 0 := by omega
    rw [ret, length, chunked]
    simp [other]
  coding absent text found := by
    have n : readLength (spelledValue contentLengthName head.fields) = 0 := by
      rw [absent]
      rfl
    obtain ⟨ret, -, length, chunked⟩ := handleResponse_framed framed n found
    rw [ret, length, chunked]
    simp
  neither absent absent' := by
    have n : readLength (spelledValue contentLengthName head.fields) = 0 := by
      rw [absent]
      rfl
    obtain ⟨ret, -, length, chunked⟩ := handleResponse_framed framed n absent'
    rw [ret, length, chunked]
    simp

theorem sameOutcome (framed : FramedArrives net httpc node w head)
    (framed' : FramedArrives net' httpc' node' w' head') (same : SameFraming head head') :
    SameOutcome (httpcHandleResponse net httpc w) (httpcHandleResponse net' httpc' w') := by
  have value {f : FieldName} (decides : ∀ field : Field, field.name.text = f.text →
      field.framing = true) : spelledValue f head'.fields = spelledValue f head.fields := by
    rw [← spelledValue_filter decides head'.fields, ← same.fields, spelledValue_filter decides]
  have lengths := value (f := contentLengthName) (by simp +contextual [Field.framing])
  have codings := value (f := transferEncodingName) (by simp +contextual [Field.framing])
  obtain ⟨ret, code, length, chunked⟩ := handleResponse_framed framed rfl rfl
  obtain ⟨ret', code', length', chunked'⟩ :=
    handleResponse_framed framed' (by rw [lengths]) codings
  exact
    { ret := ret.trans ret'.symm
      responseCode := by rw [code, code', same.status]
      contentLength := length.trans length'.symm
      chunked := chunked.trans chunked'.symm }

/-- The framing of the body of every such head is decided by its two fields, and it stays what it is
when fields with other names are put in, left out or moved. -/
theorem body_framing (framed : FramedArrives net httpc node w head)
    (framed' : FramedArrives net' httpc' node' w' head') :
    FramingDecided head (httpcHandleResponse net httpc w) ∧
      (SameFraming head head' →
        SameOutcome (httpcHandleResponse net httpc w) (httpcHandleResponse net' httpc' w')) :=
  ⟨framingDecided framed, sameOutcome framed framed'⟩

/-- The length of the body is told, with a field of another name in front of it or not. -/
theorem body_framing_okHead :
    FramingDecided okHead (httpcHandleResponse .prompt smallClient (.opened okHead.block.bytes)) ∧
      SameOutcome (httpcHandleResponse .prompt smallClient (.opened okHead.block.bytes))
        (httpcHandleResponse .prompt smallClient
          (.opened (Head.mk okStatus [serverField, lengthField]).block.bytes)) :=
  have one : FramedArrives .prompt smallClient smallNode (.opened okHead.block.bytes) okHead :=
    ⟨prompt_blockArrives _, by decide, by decide, by decide⟩
  have two : FramedArrives .prompt smallClient smallNode
      (.opened (Head.mk okStatus [serverField, lengthField]).block.bytes)
      (Head.mk okStatus [serverField, lengthField]) :=
    ⟨prompt_blockArrives _, by decide, by decide, by decide⟩
  ⟨(body_framing one two).1, (body_framing one two).2 ⟨rfl, rfl⟩⟩

/-- The framing as the protocol has it: a chunked coding decides in front of a length, and with
neither the body is none the less accepted. -/
structure FramingStandard (head : Head) (handled : Handled) : Prop where
  ok : handled.ret = httpcErrOk
  coding : (∃ field ∈ head.fields, field.Chunked) → handled.httpc.chunked = 1
  length : (∀ field ∈ head.fields, ¬ field.Chunked) → ∀ field ∈ head.fields,
    SameLetters field.name.text contentLengthName.text → PlainNumber field.value →
      handled.httpc.chunked = 0 ∧ handled.httpc.contentLength = leadingNumber field.value
  neither : (∀ field ∈ head.fields, ¬ field.Chunked) →
    (∀ field ∈ head.fields, ¬ SameLetters field.name.text contentLengthName.text) →
      handled.httpc.chunked = 0 ∧ handled.httpc.contentLength = 0

/-- A coding with its name in small letters. -/
def smallCodingField : Field :=
  { codingField with name := .ofText (ascii "transfer-encoding") (by decide) }

/-- A coding that is chunked on top of another one. -/
def gzipCodingField : Field :=
  .spaced transferEncodingName (ascii "gzip, chunked") (by decide) (by decide)

/-- A head with both fields is taken by its length, and one with neither is refused; so is one whose
coding is named in small letters, and a coding on top of another is not seen as chunked. -/
theorem body_framing_by_length_first :
    ¬ FramingStandard (Head.mk okStatus [lengthField, codingField])
        (httpcHandleResponse .prompt smallClient
          (.opened (Head.mk okStatus [lengthField, codingField]).block.bytes)) ∧
      ¬ FramingStandard (Head.mk okStatus [serverField])
        (httpcHandleResponse .prompt smallClient
          (.opened (Head.mk okStatus [serverField]).block.bytes)) ∧
      ¬ FramingStandard (Head.mk okStatus [smallCodingField])
        (httpcHandleResponse .prompt smallClient
          (.opened (Head.mk okStatus [smallCodingField]).block.bytes)) ∧
      ¬ FramingStandard (Head.mk okStatus [gzipCodingField])
        (httpcHandleResponse .prompt smallClient
          (.opened (Head.mk okStatus [gzipCodingField]).block.bytes)) := by
  refine ⟨?_, ?_, ?_, ?_⟩
  · intro standard
    exact absurd (standard.coding (by decide)) (by decide +kernel)
  · intro standard
    exact absurd standard.ok (by decide +kernel)
  · intro standard
    exact absurd standard.ok (by decide +kernel)
  · intro standard
    exact absurd (standard.coding (by decide)) (by decide +kernel)

end

end Hfc
