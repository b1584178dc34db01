/-
Module: Hfc.Proofs.ChunkSize
Layer: Proofs
Purpose: What size a chunk is taken to have. Whatever the size line holds, no more is asked for than
  the caller has room for. The size itself is right as long as it fits an `int`: a larger one is
  taken modulo `2 ^ 32`, and what is not a number at all may be read as one.
Imports: Hfc.Core.Access, Hfc.Proofs.ScratchBlock, Hfc.Spec.ChunkedBody
Main exports: decideChunk_data, chunkedRecv_data, chunkedRecv_other, chunkBufStores_inside,
  chunk_call_bounded,
  LineArrives, decision_of_line, SizeExact, NeverTaken, SizeFits, OtherLine, chunk_size_exact_iff
-/
import Hfc.Core.Access
import Hfc.Proofs.ScratchBlock
import Hfc.Spec.ChunkedBody

namespace Hfc

open ByteText CrlfScan Numeral

/-! ### The decision

A size is taken when it is positive and the caller's buffer can hold it. Where it is not, nothing is
received behind the size line. -/

/-- The data of a chunk is asked for only when the size is positive and the caller has room. -/
theorem decideChunk_data {len size : Int} {n : Nat} (small : len < 2 ^ 63) :
    decideChunk len size = .data n ↔ 0 < n ∧ len = n ∧ (n : Int) ≤ size := by
  unfold decideChunk
  by_cases negative : len < 0
  · simp only [if_pos negative, reduceCtorEq, false_iff]
    omega
  · by_cases zero : len = 0
    · simp only [if_neg negative, if_pos zero, reduceCtorEq, false_iff]
      omega
    · by_cases long : len > size
      · simp only [if_neg negative, if_neg zero, if_pos long, reduceCtorEq, false_iff]
        omega
      · simp only [if_neg negative, if_neg zero, if_neg long, ChunkDecision.data.injEq]
        unfold toSizeT
        omega

section

variable {net : Transport} {httpc : Httpc} {w : World} {bufNull : Bool} {size : Int}

/-- What a call that reads a size line decides. -/
theorem chunkDecision_read (memory : net.calloc w.callocs = true) {line : LineRead}
    (read : httpcReadOneLine net httpc (net.allocate w).2 chunkTmpSize = line) :
    chunkDecision net httpc w false size = decideChunk (chunkLen line.stored) size := by
  have granted : (net.allocate w).1 = true := memory
  simp only [chunkDecision, Bool.false_eq_true, if_false, granted, Bool.true_eq_false, read,
    if_neg line.count_nonneg]

theorem chunkLen_lt (stored : Bytes) : chunkLen stored < 2 ^ 63 :=
  (toInt32_lt _).trans (by decide)

/-- A decision for data is made on a size line, and the size is positive and fits. -/
theorem chunkDecision_data {n : Nat} (decided : chunkDecision net httpc w bufNull size = .data n) :
    bufNull = false ∧ net.calloc w.callocs = true ∧
      chunkLen (httpcReadOneLine net httpc (net.allocate w).2 chunkTmpSize).stored = n ∧ 0 < n ∧
      (n : Int) ≤ size := by
  cases bufNull with
  | true => cases decided
  | false =>
      cases memory : net.calloc w.callocs with
      | false =>
          have denied : (net.allocate w).1 = false := memory
          simp [chunkDecision, denied] at decided
      | true =>
          rw [chunkDecision_read memory rfl, decideChunk_data (chunkLen_lt _)] at decided
          exact ⟨rfl, rfl, decided.2.1, decided.1, decided.2.2⟩

/-- What a call does behind a decision for data. -/
theorem chunkedRecv_data {n : Nat} (decided : chunkDecision net httpc w bufNull size = .data n) :
    httpcRecvResponse net httpc w .chunk bufNull size = chunkDelivery net httpc w n := by
  obtain ⟨rfl, memory, len, positive, fits⟩ := chunkDecision_data decided
  have granted : (net.allocate w).1 = true := memory
  simp only [httpcRecvResponse, httpcChunkedRecv, Bool.false_eq_true, if_false, granted,
    Bool.true_eq_false, if_neg (LineRead.count_nonneg _), len]
  rw [if_neg (by omega), if_neg (by omega), if_neg (by omega)]
  rfl

/-- A call that decides otherwise fails, delivers nothing and receives nothing behind the size
line. -/
theorem chunkedRecv_other (other : ∀ n, chunkDecision net httpc w bufNull size ≠ .data n) :
    (httpcRecvResponse net httpc w .chunk bufNull size).ret < 0 ∧
      (httpcRecvResponse net httpc w .chunk bufNull size).data = [] ∧
      (httpcRecvResponse net httpc w .chunk bufNull size).world =
        chunkLineEnd net httpc w bufNull := by
  cases bufNull with
  | true => exact ⟨by simp [httpcRecvResponse, httpcChunkedRecv, BodyRecv.failed], rfl, rfl⟩
  | false =>
      cases memory : net.calloc w.callocs with
      | false =>
          have denied : (net.allocate w).1 = false := memory
          rw [chunkCall_noMemory memory]
          refine ⟨by simp [BodyRecv.failed], rfl, ?_⟩
          rw [chunkLineEnd, if_neg Bool.false_ne_true]
          exact (if_pos denied).symm
      | true =>
          have granted : ¬ (net.allocate w).1 = false :=
            (show (net.allocate w).1 = true from memory) ▸ Bool.true_eq_false.mp
          generalize read : httpcReadOneLine net httpc (net.allocate w).2 chunkTmpSize = line
          have refused : chunkLen line.stored ≤ 0 ∨ size < chunkLen line.stored := by
            by_contra accepted
            obtain ⟨n, len, positive, fits⟩ := size_of_accepted accepted
            apply other n
            rw [chunkDecision_read memory read, decideChunk_data (chunkLen_lt _)]
            exact ⟨positive, len, fits⟩
          rw [chunkCall_refused memory read refused]
          refine ⟨by simp [BodyRecv.failed], rfl, ?_⟩
          rw [chunkLineEnd, if_neg Bool.false_ne_true]
          dsimp only
          rw [if_neg granted, read]
          rfl

/-! ### The caller's buffer

The stores of one call, all of them below the size the caller gave, and the number the call returns.
-/

/-- What a call delivers behind a decision for `n` bytes. -/
theorem chunkDelivery_spec (net : Transport) (httpc : Httpc) (w : World) {n : Nat}
    (small : n < 2 ^ 64) :
    (chunkDelivery net httpc w n).data.length ≤ n ∧
      ((chunkDelivery net httpc w n).ret < 0 ∨
        (chunkDelivery net httpc w n).ret = (chunkDelivery net httpc w n).data.length) := by
  unfold chunkDelivery
  generalize httpcReadOneLine net httpc (net.allocate w).2 chunkTmpSize = line
  obtain ⟨-, -, bound, ret⟩ := httpcRecv_spec net httpc line.world small
  dsimp only
  split
  · exact ⟨Nat.zero_le _, .inl (Int.negSucc_lt_zero 0)⟩
  · exact ⟨bound, (ret.imp_right And.left).symm⟩

/-- Every store of a call is in the caller's buffer. -/
theorem chunkBufStores_inside (net : Transport) (httpc : Httpc) (w : World) (bufNull : Bool)
    (size : Int) :
    ∀ i ∈ chunkBufStores net httpc w bufNull size, 0 ≤ i ∧ i < size := by
  intro i member
  unfold chunkBufStores at member
  cases decided : chunkDecision net httpc w bufNull size with
  | refused =>
      rw [decided] at member
      cases member
  | ended =>
      rw [decided] at member
      cases member
  | data n =>
      rw [decided] at member
      dsimp only at member
      obtain ⟨-, -, len, -, fits⟩ := chunkDecision_data decided
      have small := chunkLen_lt (httpcReadOneLine net httpc (net.allocate w).2 chunkTmpSize).stored
      generalize httpcReadOneLine net httpc (net.allocate w).2 chunkTmpSize = line
        at member len small
      obtain ⟨-, -, bound, -⟩ := httpcRecv_spec net httpc line.world (show n < 2 ^ 64 by omega)
      obtain ⟨lower, upper⟩ := mem_span.mp member
      omega

/-- Whatever the size line, the transport and the client are: a call stores in the caller's buffer
only; the data it asks the transport for is a positive number of bytes that fits, and when it asks
for none it takes nothing off the stream behind the size line; and it returns an error or a number
of bytes that fits. -/
theorem chunk_call_bounded (net : Transport) (httpc : Httpc) (w : World) (bufNull : Bool)
    {size : Int} (nonneg : 0 ≤ size) :
    (∀ i ∈ chunkBufStores net httpc w bufNull size, 0 ≤ i ∧ i < size) ∧
      ((httpcRecvResponse net httpc w .chunk bufNull size).data.length : Int) ≤ size ∧
      (∀ n, chunkDecision net httpc w bufNull size = .data n →
        httpcRecvResponse net httpc w .chunk bufNull size = chunkDelivery net httpc w n ∧
          0 < n ∧ (n : Int) ≤ size) ∧
      ((∀ n, chunkDecision net httpc w bufNull size ≠ .data n) →
        (httpcRecvResponse net httpc w .chunk bufNull size).data = [] ∧
          (httpcRecvResponse net httpc w .chunk bufNull size).world =
            chunkLineEnd net httpc w bufNull) ∧
      ((httpcRecvResponse net httpc w .chunk bufNull size).ret < 0 ∨
        (0 ≤ (httpcRecvResponse net httpc w .chunk bufNull size).ret ∧
          (httpcRecvResponse net httpc w .chunk bufNull size).ret ≤ size)) := by
  refine ⟨chunkBufStores_inside net httpc w bufNull size, ?_⟩
  by_cases asks : ∃ n, chunkDecision net httpc w bufNull size = .data n
  · obtain ⟨n, decided⟩ := asks
    obtain ⟨-, -, len, positive, fits⟩ := chunkDecision_data decided
    have call := chunkedRecv_data decided
    have small := chunkLen_lt (httpcReadOneLine net httpc (net.allocate w).2 chunkTmpSize).stored
    obtain ⟨bound, ret⟩ := chunkDelivery_spec net httpc w (show n < 2 ^ 64 by omega)
    rw [call]
    refine ⟨by omega, ?_, fun other => absurd decided (other n), ?_⟩
    · intro m same
      cases decided.symm.trans same
      exact ⟨rfl, positive, fits⟩
    · rcases ret with fails | stored
      · exact .inl fails
      · right
        omega
  · obtain ⟨fails, empty, behind⟩ := chunkedRecv_other fun n decided => asks ⟨n, decided⟩
    rw [empty]
    exact ⟨nonneg, fun n decided => absurd ⟨n, decided⟩ asks, fun _ => ⟨rfl, behind⟩, .inl fails⟩

/-- A size line with a sign and more digits than any number has cannot hurt a buffer of 16 bytes,
nor can one that asks for 40 bytes: of these none is taken off the stream. -/
theorem chunk_call_bounded_hostile :
    ((httpcRecvResponse .prompt (Httpc.plain 3) (.opened (ascii "-fffffffffffffffffff1\r\nhello"))
        .chunk false 16).data.length : Int) ≤ 16 ∧
      (httpcRecvResponse .prompt (Httpc.plain 3)
        (.opened (ascii "28\r\n" ++ List.replicate 40 120)) .chunk false 16).world.unread =
          List.replicate 40 120 := by
  refine ⟨(chunk_call_bounded .prompt (Httpc.plain 3)
    (.opened (ascii "-fffffffffffffffffff1\r\nhello")) false (show (0 : Int) ≤ 16 by decide)).2.1,
    ?_⟩
  have refused := (chunk_call_bounded .prompt (Httpc.plain 3)
    (.opened (ascii "28\r\n" ++ List.replicate 40 120)) false
    (show (0 : Int) ≤ 16 by decide)).2.2.2.1
  have decision : chunkDecision .prompt (Httpc.plain 3)
      (.opened (ascii "28\r\n" ++ List.replicate 40 120)) false 16 = .refused := by
    decide +kernel
  rw [(refused fun n decided => by rw [decision] at decided; cases decided).2]
  decide +kernel

/-! ### The size line

What the call sees of a line that arrives: its text up to the scratch block, and the number
`strtoul` makes of it. -/

/-- The next line of the stream is there, and the transport does not fail in front of its end. -/
structure LineArrives (net : Transport) (httpc : Httpc) (w : World) (text : Bytes) : Prop where
  live : httpc.Live
  steady : net.SteadyUntil (w.taken + text.length + 2)
  line : text ++ [cr, lf] <+: w.unread

/-- What `strtoul` makes of as much of a size line as the scratch block holds. -/
def sizeSeen (text : Bytes) : Nat :=
  strtoul 16 (cstr (text.take (chunkTmpSize - 1)))

/-- The decision depends on the line alone. -/
theorem decision_of_line {text : Bytes} (free : CrlfFree nul text)
    (arrives : LineArrives net httpc w text) (memory : net.calloc w.callocs = true) (size : Int) :
    chunkDecision net httpc w false size = decideChunk (toInt32 (sizeSeen text)) size := by
  obtain ⟨rest, unread⟩ := arrives.line
  have stream : (net.allocate w).2.unread = text ++ cr :: lf :: rest := by
    rw [Transport.allocate_unread, ← unread]
    simp
  have reach : (net.allocate w).2.stop ≤
      w.taken + text.length + 2 + (scan chunkTmpSize nul (net.allocate w).2.unread).2.length := by
    have left := (suffix_scan free chunkTmpSize rest).length_le
    have length := congrArg List.length unread
    simp only [List.length_append, List.length_cons, List.length_nil] at length
    rw [stream, Transport.allocate_stop, World.stop]
    omega
  obtain ⟨stored, -⟩ := readLine_scan_until arrives.live (net.allocate w).2
    (show 0 < chunkTmpSize by decide) arrives.steady reach
  rw [stream, scan_line_take free] at stored
  have fits : ((text ++ [cr]).take chunkTmpSize).length ≤ chunkTmpSize := by simp
  rw [chunkDecision_read memory rfl, stored, chunkLen_eq fits, sizeSeen]
  rw [show chunkTmpSize = (chunkTmpSize - 1) + 1 from rfl, dropLast_take_snoc]
  rfl

/-- However the line arrives, the size is taken as it stands or refused with an error; one of
`2 ^ 31` or more is refused. -/
def SizeExact (text : Bytes) (v : Nat) (size : Int) : Prop :=
  ∀ net httpc w, LineArrives net httpc w text →
    ((httpcRecvResponse net httpc w .chunk false size).ret < 0 ∨
        chunkDecision net httpc w false size = .data v) ∧
      (2 ^ 31 ≤ v → chunkDecision net httpc w false size = .refused)

/-- However the line arrives, no data is asked for. -/
def NeverTaken (text : Bytes) (size : Int) : Prop :=
  ∀ net httpc w, LineArrives net httpc w text →
    ∀ n, chunkDecision net httpc w false size ≠ .data n

/-- Every line can arrive, with nothing behind it and a transport that never fails. -/
theorem prompt_arrives (text : Bytes) :
    LineArrives .prompt (Httpc.plain 3) (.opened (text ++ [cr, lf])) text where
  live := Httpc.plain_live (by decide)
  steady := Transport.prompt_steady _
  line := List.prefix_refl _

/-- There a decision for data is followed by a delivery that does not fail. -/
theorem prompt_delivers {stream : Bytes} {n : Nat} (small : n < 2 ^ 64) :
    0 ≤ (chunkDelivery .prompt (Httpc.plain 3) (.opened stream) n).ret := by
  have live : (Httpc.plain 3).Live := Httpc.plain_live (by decide)
  unfold chunkDelivery
  generalize httpcReadOneLine _ _ _ _ = line
  dsimp only
  rw [httpcRecv_of_live live _ _ n small]
  have ret : 0 ≤ (Transport.prompt.receive line.world n).ret := by
    rw [(receive_of_upTo rfl).2]
    exact Int.natCast_nonneg _
  rw [if_neg (not_lt.mpr ret)]
  exact ret

theorem sizeExact_iff_decision {text : Bytes} (free : CrlfFree nul text) (v : Nat) (size : Int) :
    SizeExact text v size ↔
      (∀ n, decideChunk (toInt32 (sizeSeen text)) size = .data n → n = v) ∧
        (2 ^ 31 ≤ v → decideChunk (toInt32 (sizeSeen text)) size = .refused) := by
  constructor
  · intro exact
    have decision := decision_of_line free (prompt_arrives text) rfl size
    obtain ⟨first, second⟩ := exact _ _ _ (prompt_arrives text)
    rw [decision] at first second
    refine ⟨fun n decided => ?_, second⟩
    rcases first with fails | same
    · rw [decided] at decision
      have small := (chunkDecision_data decision).2.2.1
      have bound := chunkLen_lt (httpcReadOneLine .prompt (Httpc.plain 3)
        (Transport.prompt.allocate (.opened (text ++ [cr, lf]))).2 chunkTmpSize).stored
      rw [chunkedRecv_data decision] at fails
      exact absurd fails (not_lt.mpr (prompt_delivers (by omega)))
    · rw [decided] at same
      exact ChunkDecision.data.inj same
  · rintro ⟨exact, large⟩ net httpc w arrives
    cases memory : net.calloc w.callocs with
    | false =>
        have refused : chunkDecision net httpc w false size = .refused := by
          have denied : (net.allocate w).1 = false := memory
          simp [chunkDecision, denied]
        refine ⟨.inl ?_, fun _ => refused⟩
        exact (chunkedRecv_other fun n decided => by simp [refused] at decided).1
    | true =>
        have decision := decision_of_line free arrives memory size
        refine ⟨?_, fun big => decision.trans (large big)⟩
        by_cases asks : ∃ n, chunkDecision net httpc w false size = .data n
        · obtain ⟨n, decided⟩ := asks
          right
          rw [decided, exact n (decision.symm.trans decided)]
        · exact .inl (chunkedRecv_other fun n decided => asks ⟨n, decided⟩).1

theorem neverTaken_iff_decision {text : Bytes} (free : CrlfFree nul text) (size : Int) :
    NeverTaken text size ↔ ∀ n, decideChunk (toInt32 (sizeSeen text)) size ≠ .data n := by
  constructor
  · intro never n
    rw [← decision_of_line free (prompt_arrives text) rfl size]
    exact never _ _ _ (prompt_arrives text) n
  · intro never net httpc w arrives n decided
    have memory := (chunkDecision_data decided).2.1
    rw [decision_of_line free arrives memory] at decided
    exact never n decided

/-! ### Sizes modulo `2 ^ 32`

The result of `strtoul` is stored in an `int`. A size is lost when the digits saturate or wrap. -/

/-- What is decided for a number: it is refused when it is negative as an `int` or there is no room,
it ends the body when nothing is left of it, and data is asked for otherwise. -/
theorem decideChunk_natCast (m : Nat) (size : Int) :
    decideChunk (toInt32 m) size =
      if 2 ^ 31 ≤ m % 2 ^ 32 then .refused
      else if m % 2 ^ 32 = 0 then .ended
      else if size < (m % 2 ^ 32 : Nat) then .refused
      else .data (m % 2 ^ 32) := by
  have below : m % 2 ^ 32 < 2 ^ 32 := Nat.mod_lt m (by decide)
  rw [toInt32_natCast]
  generalize m % 2 ^ 32 = r at below
  unfold decideChunk
  by_cases large : 2 ^ 31 ≤ r
  · rw [if_pos large, if_neg (not_lt.mpr large), if_pos (by omega)]
  · rw [if_neg large, if_pos (not_le.mp large), if_neg (by omega)]
    by_cases zero : r = 0
    · rw [if_pos (by omega), if_pos zero]
    · rw [if_neg (by omega), if_neg zero, toSizeT_natCast (by omega)]

/-- A number that `strtoul` saturates is refused, as `-1`. -/
theorem decideChunk_saturated {u : Nat} (size : Int) :
    decideChunk (toInt32 (min u ulongMax : Nat)) size =
      if 2 ^ 64 ≤ u then .refused else decideChunk (toInt32 u) size := by
  by_cases huge : 2 ^ 64 ≤ u
  · have cut : min u ulongMax = ulongMax := by
      unfold ulongMax
      omega
    rw [if_pos huge, cut, decideChunk_natCast, if_pos (by decide)]
  · have kept : min u ulongMax = u := by
      unfold ulongMax
      omega
    rw [if_neg huge, kept]

/-! ### Lines that start with a digit

The digits are read to their end, blanks and extensions behind them are not looked at. -/

/-- The number of those digits of a size line that the scratch block holds. -/
def SizeLine.numberHeld {v : Nat} (line : SizeLine v) : Nat :=
  value 16 (digits 16 (line.num.take (chunkTmpSize - 1)))

theorem SizeLine.numberHeld_le {v : Nat} (line : SizeLine v) : line.numberHeld ≤ v := by
  have short := value_take_le (show 0 < 16 by decide) (digits 16 line.num) (chunkTmpSize - 1)
  rwa [← digits_take line.hex, line.value_eq] at short

theorem sizeSeen_sizeLine {v : Nat} (line : SizeLine v) :
    sizeSeen line.text = min line.numberHeld ulongMax := by
  have free : nul ∉ line.text.take (chunkTmpSize - 1) :=
    fun member => line.nul_free false (List.mem_of_mem_take member)
  have hex : ∀ b ∈ line.num.take (chunkTmpSize - 1), (digitVal 16 b).isSome :=
    fun b member => line.hex b (List.mem_of_mem_take member)
  have something : line.num.take (chunkTmpSize - 1) ≠ [] := by
    simp [List.take_eq_nil_iff, line.nonempty, chunkTmpSize]
  have ends : EndsNumeral (line.ext.take (chunkTmpSize - 1 - line.num.length)) := by
    intro b member
    rw [List.head?_take] at member
    split at member
    · cases member
    · exact line.endsNumeral b member
  rw [sizeSeen, cstr_of_nul_free free, SizeLine.text, List.take_append]
  exact strtoul_digits hex something ends

/-- When a size line is decoded exactly or refused: its number fits an `int` and is held whole, or
nothing but zeros of it are held; or the number held is too large for `strtoul`, or negative or too
large for the caller modulo `2 ^ 32`. -/
def SizeFits {v : Nat} (line : SizeLine v) (size : Int) : Prop :=
  (v < 2 ^ 31 ∧ (line.numberHeld = v ∨ line.numberHeld = 0)) ∨ 2 ^ 64 ≤ line.numberHeld ∨
    2 ^ 31 ≤ line.numberHeld % 2 ^ 32 ∨ max size 0 < (line.numberHeld % 2 ^ 32 : Nat)

theorem sizeExact_sizeLine {v : Nat} (line : SizeLine v) (size : Int) :
    SizeExact line.text v size ↔ SizeFits line size := by
  have free : CrlfFree nul line.text := line.crlfFree false
  have least := line.numberHeld_le
  rw [sizeExact_iff_decision free, sizeSeen_sizeLine, decideChunk_saturated, decideChunk_natCast]
  unfold SizeFits
  generalize line.numberHeld = u at least ⊢
  have part : u % 2 ^ 32 ≤ u := Nat.mod_le u _
  have refused : (∀ n, ChunkDecision.refused = .data n → n = v) ∧
      (2 ^ 31 ≤ v → ChunkDecision.refused = .refused) := by simp
  by_cases huge : 2 ^ 64 ≤ u
  · rw [if_pos huge]
    exact iff_of_true refused (.inr (.inl huge))
  · rw [if_neg huge]
    by_cases negative : 2 ^ 31 ≤ u % 2 ^ 32
    · rw [if_pos negative]
      exact iff_of_true refused (.inr (.inr (.inl negative)))
    · rw [if_neg negative]
      by_cases zero : u % 2 ^ 32 = 0
      · simp only [if_pos zero, reduceCtorEq, IsEmpty.forall_iff, implies_true, true_and, imp_false]
        omega
      · rw [if_neg zero]
        by_cases long : size < (u % 2 ^ 32 : Nat)
        · rw [if_pos long]
          exact iff_of_true refused (.inr (.inr (.inr (by omega))))
        · simp only [if_neg long, reduceCtorEq, ChunkDecision.data.injEq, forall_eq', imp_false]
          omega

/-! ### Lines that start otherwise

Blanks, a sign and the prefix `0x` are what `strtoul` accepts in front of digits, and the chunk
syntax does not. -/

/-- A line that does not start with a hexadecimal digit. -/
structure OtherLine where
  text : Bytes
  plain : CrlfFree nul text
  start : ∀ b ∈ text.head?, digitVal 16 b = none

/-- The text of such a line as far as the scratch block holds it, behind its blanks: whether there
is a minus sign, and what stands behind the sign. -/
def OtherLine.signed (line : OtherLine) : Bool × Bytes :=
  splitSign ((cstr (line.text.take (chunkTmpSize - 1))).dropWhile isSpace)

/-- The number behind the sign and a `0x`, zero when there is none. -/
def OtherLine.number (line : OtherLine) : Nat :=
  value 16 (digits 16 (dropHexPrefix 16 line.signed.2))

/-- When no data is asked for: the number is too large for `strtoul`, or with its sign it is zero,
negative or too large for the caller modulo `2 ^ 32`. -/
def OtherLine.Harmless (line : OtherLine) (size : Int) : Prop :=
  2 ^ 64 ≤ line.number ∨ line.number % 2 ^ 32 = 0 ∨
    if line.signed.1 then
      line.number % 2 ^ 32 ≤ 2 ^ 31 ∨ size < 2 ^ 32 - (line.number % 2 ^ 32 : Nat)
    else 2 ^ 31 ≤ line.number % 2 ^ 32 ∨ size < (line.number % 2 ^ 32 : Nat)

theorem neverTaken_otherLine (line : OtherLine) (size : Int) :
    NeverTaken line.text size ↔ line.Harmless size := by
  have seen : sizeSeen line.text =
      if ulongMax < line.number then ulongMax
      else if line.signed.1 then (2 ^ 64 - line.number) % 2 ^ 64
      else line.number := rfl
  rw [neverTaken_iff_decision line.plain, seen]
  unfold OtherLine.Harmless
  generalize line.number = u
  by_cases huge : 2 ^ 64 ≤ u
  · have refused : decideChunk (toInt32 ulongMax) size = .refused := by
      rw [decideChunk_natCast, if_pos (by decide)]
    rw [if_pos (show ulongMax < u by unfold ulongMax; omega), refused]
    exact iff_of_true (by simp) (.inl huge)
  · rw [if_neg (show ¬ ulongMax < u by unfold ulongMax; omega)]
    have decided (m : Nat) : (∀ n, decideChunk (toInt32 m) size ≠ .data n) ↔
        2 ^ 31 ≤ m % 2 ^ 32 ∨ m % 2 ^ 32 = 0 ∨ size < (m % 2 ^ 32 : Nat) := by
      rw [decideChunk_natCast]
      split_ifs <;> simp_all
    rw [decided]
    cases line.signed.1 with
    | true =>
        simp only [if_true]
        omega
    | false =>
        simp only [Bool.false_eq_true, if_false]
        omega

/-- A chunk size is decoded exactly or refused if and only if its number is held whole and fits an
`int`, or happens to be refused modulo `2 ^ 32`; and a line that starts with no digit is never taken
for a size if and only if what `strtoul` makes of it is refused. -/
theorem chunk_size_exact_iff {v : Nat} (line : SizeLine v) (other : OtherLine) (size : Int) :
    (SizeExact line.text v size ↔ SizeFits line size) ∧
      (NeverTaken other.text size ↔ other.Harmless size) :=
  ⟨sizeExact_sizeLine line size, neverTaken_otherLine other size⟩

/-- A chunk of `2 ^ 32 + 2` bytes is delivered as one of two bytes, one of `2 ^ 32` bytes passes for
the end of the body, and a negative size is delivered as a positive one. -/
theorem chunk_size_wraps :
    (¬ SizeExact (ascii "100000002") 0x100000002 16 ∧
        (httpcRecvResponse .prompt (Httpc.plain 3) (.opened (ascii "100000002\r\nhello"))
          .chunk false 16).data = ascii "he") ∧
      ¬ SizeExact (ascii "100000000") 0x100000000 16 ∧
      ¬ NeverTaken (ascii "-fffffffe") 16 := by
  refine ⟨⟨?_, by decide +kernel⟩, ?_, ?_⟩
  · intro exact
    obtain ⟨-, refused⟩ := (sizeExact_iff_decision (by decide) _ _).mp exact
    exact absurd (refused (by decide)) (by decide +kernel)
  · intro exact
    obtain ⟨-, refused⟩ := (sizeExact_iff_decision (by decide) _ _).mp exact
    exact absurd (refused (by decide)) (by decide +kernel)
  · intro never
    have taken : decideChunk (toInt32 (sizeSeen (ascii "-fffffffe"))) 16 = .data 2 := by
      decide +kernel
    exact (neverTaken_iff_decision (by decide) _).mp never 2 taken

end

end Hfc
