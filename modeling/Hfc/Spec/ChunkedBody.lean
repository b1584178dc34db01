/-
Module: Hfc.Spec.ChunkedBody
Layer: Spec
Purpose: The chunked transfer coding on its own terms: size lines, chunks and bodies that are well
  formed by construction, the bytes that stand for a body on the wire, the body they carry, and the
  positions at which its bytes stand.
Imports: Hfc.Library.CrlfScan, Hfc.Library.Numeral
Main exports: SizeLine, Chunk, ChunkedBody, ChunkedBody.bytes, ChunkedBody.decoded,
  ChunkedBody.positions, strtoul_sizeLine, strtoul_zero_prefix
-/
import Hfc.Library.CrlfScan
import Hfc.Library.Numeral

namespace Hfc

open ByteText Numeral CrlfScan

/-- The text of a chunk-size line for the size `n`: a hexadecimal numeral, leading zeros allowed,
and an optional extension. -/
structure SizeLine (n : Nat) where
  num : Bytes
  ext : Bytes
  nonempty : num ≠ []
  hex : ∀ b ∈ num, (digitVal 16 b).isSome
  value_eq : value 16 (digits 16 num) = n
  extStart : ∀ b ∈ ext.head?, b = 59 ∨ b = sp ∨ b = 9
  extPlain : ∀ b ∈ ext, b ≠ cr ∧ b ≠ lf ∧ b ≠ nul

/-- The line without its CRLF. -/
def SizeLine.text {n : Nat} (line : SizeLine n) : Bytes :=
  line.num ++ line.ext

/-- A chunk with its data; the size line says how much data there is. -/
structure Chunk where
  data : Bytes
  nonempty : data ≠ []
  line : SizeLine data.length

/-- A chunk on the wire: the size line, the data and a CRLF. -/
def Chunk.bytes (chunk : Chunk) : Bytes :=
  chunk.line.text ++ cr :: lf :: (chunk.data ++ [cr, lf])

/-- A whole chunked body: chunks, the line of the zero-size chunk, trailer fields. -/
structure ChunkedBody where
  chunks : List Chunk
  lastLine : SizeLine 0
  trailers : List Bytes
  trailerPlain : ∀ t ∈ trailers, t ≠ [] ∧ ∀ b ∈ t, b ≠ cr ∧ b ≠ lf ∧ b ≠ nul

/-- The chunks of a body on the wire. -/
def chunkBytes (chunks : List Chunk) : Bytes :=
  chunks.flatMap Chunk.bytes

namespace ChunkedBody

/-- What ends a body behind the zero-size line: trailer fields and an empty line. -/
def trailerBytes (body : ChunkedBody) : Bytes :=
  body.trailers.flatMap (fun t => t ++ [cr, lf]) ++ [cr, lf]

/-- A body on the wire: its chunks, the line of size zero, and the trailer with its empty line. -/
def bytes (body : ChunkedBody) : Bytes :=
  chunkBytes body.chunks ++ (body.lastLine.text ++ cr :: lf :: body.trailerBytes)

/-- The body that is carried. -/
def decoded (body : ChunkedBody) : Bytes :=
  body.chunks.flatMap Chunk.data

end ChunkedBody

/-- Positions of the data of some chunks that follow each other from position `pos` on. -/
def chunkPositions : (pos : Nat) → List Chunk → List Nat
  | _, [] => []
  | pos, chunk :: chunks =>
      List.range' (pos + chunk.line.text.length + 2) chunk.data.length ++
        chunkPositions (pos + chunk.bytes.length) chunks

/-- Positions of the bytes of a body that starts at position `pos`. -/
def ChunkedBody.positions (body : ChunkedBody) (pos : Nat) : List Nat :=
  chunkPositions pos body.chunks

@[simp] theorem chunkBytes_cons (chunk : Chunk) (chunks : List Chunk) :
    chunkBytes (chunk :: chunks) = chunk.bytes ++ chunkBytes chunks := by
  simp [chunkBytes]

theorem chunkBytes_append (front back : List Chunk) :
    chunkBytes (front ++ back) = chunkBytes front ++ chunkBytes back :=
  List.flatMap_append

theorem Chunk.length_bytes (chunk : Chunk) :
    chunk.bytes.length = chunk.line.text.length + chunk.data.length + 4 := by
  simp only [Chunk.bytes, List.length_append, List.length_cons, List.length_nil]
  omega

theorem Chunk.length_pos (chunk : Chunk) : 0 < chunk.data.length :=
  List.length_pos_iff.mpr chunk.nonempty

/-! ### Size lines as the decoder meets them

A line may have the LF of the chunk in front of it ahead of its numeral, when that LF was not taken
together with its CR. -/

/-- The LF that may be left over in front of a size line. -/
def strayLf (stray : Bool) : Bytes :=
  if stray then [lf] else []

@[simp] theorem length_strayLf (stray : Bool) : (strayLf stray).length = stray.toNat := by
  cases stray <;> rfl

theorem SizeLine.notMem_num {n : Nat} (line : SizeLine n) {b : Byte}
    (noDigit : digitVal 16 b = none) : b ∉ line.num := by
  intro member
  have digit := line.hex b member
  simp [noDigit] at digit

theorem SizeLine.notMem_text {n : Nat} (line : SizeLine n) {b : Byte}
    (noDigit : digitVal 16 b = none) (special : b = cr ∨ b = lf ∨ b = nul) : b ∉ line.text := by
  intro member
  rcases List.mem_append.mp member with inNum | inExt
  · exact line.notMem_num noDigit inNum
  · have plain := line.extPlain b inExt
    rcases special with rfl | rfl | rfl <;> simp at plain

theorem SizeLine.crlfFree {n : Nat} (line : SizeLine n) (stray : Bool) :
    CrlfFree nul (strayLf stray ++ line.text) := by
  have noLf : lf ∉ line.text := line.notMem_text (by decide) (.inr (.inl rfl))
  cases stray with
  | false => exact CrlfFree.of_no_lf (by simpa [strayLf] using noLf) nul
  | true => exact ⟨by decide, CrlfFree.of_no_lf noLf lf⟩

theorem SizeLine.nul_free {n : Nat} (line : SizeLine n) (stray : Bool) :
    nul ∉ strayLf stray ++ line.text := by
  have noNul : nul ∉ line.text := line.notMem_text (by decide) (.inr (.inr rfl))
  cases stray with
  | false => simpa [strayLf] using noNul
  | true =>
      have different : nul ≠ lf := by decide
      simpa [strayLf, different] using noNul

theorem SizeLine.endsNumeral {n : Nat} (line : SizeLine n) : EndsNumeral line.ext := by
  intro b member
  rcases line.extStart b member with rfl | rfl | rfl <;> decide

theorem strayLf_space (stray : Bool) : ∀ b ∈ strayLf stray, isSpace b = true := by
  cases stray with
  | false => simp [strayLf]
  | true =>
      intro b member
      rw [List.mem_singleton.mp member]
      decide

/-- `strtoul` reads the size off a whole size line. -/
theorem strtoul_sizeLine {n : Nat} (line : SizeLine n) (stray : Bool) :
    strtoul 16 (strayLf stray ++ line.text) = min n ulongMax := by
  rw [SizeLine.text, strtoul_numeral (strayLf_space stray) line.hex line.nonempty line.endsNumeral,
    line.value_eq]

/-- Every digit of a zero-size line is zero. -/
theorem SizeLine.digitVal_zero (line : SizeLine 0) : ∀ b ∈ line.num, digitVal 16 b = some 0 := by
  have zeros := digits_eq_zero_of_value (by decide) line.value_eq
  intro b member
  obtain ⟨d, digit⟩ := Option.isSome_iff_exists.mp (line.hex b member)
  rw [digit, zeros d (mem_digits line.hex member digit)]

/-- However a zero-size line is cut short, `strtoul` reads zero. -/
theorem strtoul_zero_prefix (line : SizeLine 0) (stray : Bool) {cut : Bytes}
    (isPrefix : cut <+: strayLf stray ++ line.text) : strtoul 16 cut = 0 := by
  have split : cut = (strayLf stray).take cut.length ++
      (line.num.take (cut.length - stray.toNat) ++
        line.ext.take (cut.length - stray.toNat - line.num.length)) := by
    conv_lhs => rw [List.prefix_iff_eq_take.mp isPrefix]
    rw [SizeLine.text, List.take_append, List.take_append, length_strayLf]
  -- A front of the line is the stray LF, some of the digits and some of the extension.
  have spaces : ∀ b ∈ (strayLf stray).take cut.length, isSpace b = true :=
    fun b member => strayLf_space stray b (List.mem_of_mem_take member)
  by_cases empty : line.num.take (cut.length - stray.toNat) = []
  · have short : cut.length - stray.toNat = 0 := by
      rcases List.take_eq_nil_iff.mp empty with short | noDigit
      · exact short
      · exact absurd noDigit line.nonempty
    rw [split, short]
    simp only [List.take_zero, Nat.zero_sub, List.append_nil]
    apply strtoul_of_no_digit
    intro b member
    cases stray with
    | false => simp [strayLf] at member
    | true =>
        have isLf : b ∈ [lf] := List.mem_of_mem_take member
        rw [List.mem_singleton.mp isLf]
        decide
  · have hex : ∀ b ∈ line.num.take (cut.length - stray.toNat), (digitVal 16 b).isSome :=
      fun b member => line.hex b (List.mem_of_mem_take member)
    have zero : value 16 (digits 16 (line.num.take (cut.length - stray.toNat))) = 0 := by
      apply value_eq_zero
      intro d member
      obtain ⟨b, inNum, digit⟩ := exists_of_mem_digits member
      have isZero := line.digitVal_zero b (List.mem_of_mem_take inNum)
      rw [digit] at isZero
      exact Option.some.inj isZero
    have ends : EndsNumeral
        (line.ext.take (cut.length - stray.toNat - line.num.length)) := by
      intro b member
      apply line.endsNumeral b
      rw [List.head?_take] at member
      split at member
      · simp at member
      · exact member
    rw [split, strtoul_numeral spaces hex empty ends, zero]
    rfl

/-! ### A body to compute with

One chunk of two bytes and no trailer, as the bytes `2 CR LF a b CR LF 0 CR LF CR LF`. -/

/-- The line `0`. -/
def zeroLine : SizeLine 0 where
  num := ascii "0"
  ext := []
  nonempty := by decide
  hex b member := by
    obtain rfl := List.mem_singleton.mp member
    decide
  value_eq := by decide
  extStart := by simp
  extPlain := by simp

/-- The chunk that carries `ab`. -/
def abChunk : Chunk where
  data := ascii "ab"
  nonempty := by decide
  line :=
    { num := ascii "2"
      ext := []
      nonempty := by decide
      hex := fun b member => by
        obtain rfl := List.mem_singleton.mp member
        decide
      value_eq := by decide
      extStart := by simp
      extPlain := by simp }

/-- The body that carries `ab` in one chunk, without trailer fields. -/
def abBody : ChunkedBody where
  chunks := [abChunk]
  lastLine := zeroLine
  trailers := []
  trailerPlain := by simp

example : abBody.bytes = [50, cr, lf, 97, 98, cr, lf, 48, cr, lf, cr, lf] := by decide

end Hfc
