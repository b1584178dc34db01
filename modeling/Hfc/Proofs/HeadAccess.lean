/-
Module: Hfc.Proofs.HeadAccess
Layer: Proofs
Purpose: Where receiving a head and looking fields up touch the header buffer. Every string that is
  read ends inside the buffer as long as what arrived leaves a byte of it blank; when it fills the
  buffer, the search for a field that is not there goes on behind the end.
Imports: Hfc.Proofs.ResponseHead
Main exports: cstr_bound, stringSpan_bound, headLoopAccesses_inside, HoldsText, headerGet_bound,
  parseHeadAccesses_inside, HeadInside, head_inside_iff
-/
import Hfc.Proofs.ResponseHead

namespace Hfc

open ByteText CrlfScan Numeral

/-- All indices lie in the buffer of a node. -/
def InBuffer (node : HttpcMemNode) (indices : List Int) : Prop :=
  ∀ i ∈ indices, 0 ≤ i ∧ i < node.bufLen

theorem InBuffer.append {node : HttpcMemNode} {front back : List Int} (first : InBuffer node front)
    (second : InBuffer node back) : InBuffer node (front ++ back) := by
  intro i member
  rcases List.mem_append.mp member with inFront | inBack
  · exact first i inFront
  · exact second i inBack

/-! ### Strings that end

Bounds for `strstr`, `strlen` and the scan over blanks when there is a zero byte in front of the end
of the buffer. -/

/-- A string that starts in front of a NUL ends there at the latest. -/
theorem cstr_bound {mem text rest : Bytes} (memory : mem = text ++ nul :: rest) {p : Nat}
    (before : p ≤ text.length) : p + (cstr (mem.drop p)).length ≤ text.length := by
  rw [memory, List.drop_append_of_le_length before, cstr_append_nul]
  have bound := length_cstr_le (text.drop p)
  rw [List.length_drop] at bound
  omega

theorem stringSpan_bound {mem text rest : Bytes} (memory : mem = text ++ nul :: rest) {p : Nat}
    (before : p ≤ text.length) {i : Int} (member : i ∈ stringSpan mem p) :
    0 ≤ i ∧ i ≤ text.length := by
  have bound := cstr_bound memory before
  obtain ⟨lower, upper⟩ := mem_span.mp member
  omega

/-- Spaces that start in front of a NUL end there at the latest. -/
theorem spaces_bound {mem text rest : Bytes} (memory : mem = text ++ nul :: rest) {p : Nat}
    (before : p ≤ text.length) : p + ((mem.drop p).takeWhile (· = sp)).length ≤ text.length := by
  have stops : ∀ front : Bytes,
      ((front ++ nul :: rest).takeWhile (· = sp)).length ≤ front.length := by
    intro front
    induction front with
    | nil =>
        have noSpace : ¬ nul = sp := by decide
        simp [noSpace]
    | cons b front ih =>
        by_cases space : b = sp
        · simpa [space] using ih
        · simp [space]
  have bound := stops (text.drop p)
  rw [memory, List.drop_append_of_le_length before]
  rw [List.length_drop] at bound
  omega

section

variable {net : Transport} {httpc : Httpc} {node : HttpcMemNode} {w : World}

/-! ### The read loop

Every line is stored behind the last one, in what is left of the buffer. -/

/-- What arrives of a head is nothing or ends with a NUL. -/
theorem arrivedHead_ends (net : Transport) (httpc : Httpc) (rounds room : Nat) (w : World) :
    (arrivedHead net httpc rounds room w).1 = [] ∨
      ∃ text, (arrivedHead net httpc rounds room w).1 = text ++ [nul] := by
  induction rounds generalizing room w with
  | zero => exact .inl rfl
  | succ rounds ih =>
      unfold arrivedHead
      dsimp only
      split
      · exact .inl rfl
      · split
        · exact .inr ⟨_, rfl⟩
        · right
          rcases ih (room - (httpcReadOneLine net httpc w room).stored.length)
            (httpcReadOneLine net httpc w room).world with nothing | ⟨text, ends⟩
          · exact ⟨(httpcReadOneLine net httpc w room).stored.dropLast, by rw [nothing]⟩
          · exact ⟨(httpcReadOneLine net httpc w room).stored.dropLast ++ nul :: text,
              by rw [ends]; simp⟩

/-! A round of the loop, in a node whose buffer is blank from `front` on. -/

/-- The line reader stores inside the buffer. -/
theorem lineStores_inside (net : Transport) (httpc : Httpc) (w : World) {room : Nat}
    {front : Bytes} (used : node.bufUsed = front.length)
    (length : node.bufLen = front.length + room) (positive : 0 < room) :
    InBuffer node ((lineStores net httpc w room).map (node.bufUsed + ·)) := by
  have fits := readLine_length_le net httpc w positive
  intro i member
  obtain ⟨k, inLine, rfl⟩ := List.mem_map.mp member
  rw [(lineStores_eq net httpc w room).1] at inLine
  obtain ⟨lower, upper⟩ := mem_span.mp inLine
  omega

/-- The first and the last byte of a line lie inside the buffer, and so does its text. -/
theorem line_inside {room : Nat} {front behind line : Bytes}
    (memory : node.buf = front ++ (List.replicate room nul ++ behind))
    (used : node.bufUsed = front.length) (length : node.bufLen = front.length + room)
    (something : line ≠ []) (fits : line.length ≤ room) :
    InBuffer node ([node.bufUsed, node.bufUsed + line.length - 1] ++
      stringSpan (node.withLine line).buf node.bufUsed.toNat) := by
  have positive := List.length_pos_iff.mpr something
  have cleared : (node.withLine line).buf = (front ++ line.dropLast) ++
      nul :: (List.replicate (room - line.length) nul ++ behind) := by
    rw [withLine_buf memory used something fits]
    simp
  have start : node.bufUsed.toNat ≤ (front ++ line.dropLast).length := by
    rw [used, List.length_append]
    omega
  intro i member
  rcases List.mem_append.mp member with here | inText
  · simp only [List.mem_cons, List.not_mem_nil, or_false] at here
    omega
  · have bound := stringSpan_bound cleared start inText
    rw [List.length_append, List.length_dropLast] at bound
    omega

/-- The read loop stays inside the buffer, whatever arrives. -/
theorem headLoopAccesses_inside {rounds room : Nat} {front behind : Bytes}
    (memory : node.buf = front ++ (List.replicate room nul ++ behind))
    (used : node.bufUsed = front.length) (length : node.bufLen = front.length + room)
    (positive : 0 < room) : InBuffer node (headLoopAccesses net httpc rounds node w) := by
  induction rounds generalizing room node front w with
  | zero =>
      intro i member
      cases member
  | succ rounds ih =>
      have left : (node.bufLen : Int) - node.bufUsed = (room : Nat) := by omega
      have fits := readLine_length_le net httpc w positive
      have stores := lineStores_inside net httpc w used length positive
      rw [headLoopAccesses, left]
      generalize httpcReadOneLine net httpc w room = line at fits
      dsimp only
      split
      · exact stores
      · rename_i more
        have something : line.stored ≠ [] := by
          intro nothing
          exact more (by simp [LineRead.count, nothing])
        split
        · refine stores.append ?_
          intro i member
          simp only [HttpcMemNode.store_bufUsed, List.mem_cons, List.not_mem_nil, or_false,
            or_self] at member
          omega
        · have round := stores.append (line_inside memory used length something fits)
          rw [← List.append_assoc] at round
          split
          · exact round
          · rename_i left'
            have front_length := length_withLine something front
            have usedLine := withLine_used used something
            have more : ¬ (node.withLine line.stored).bufUsed ≥ (node.bufLen : Int) := left'
            rw [usedLine, front_length] at more
            exact round.append (ih (withLine_buf memory used something fits) usedLine
              (by rw [front_length]; exact length.trans (by omega)) (by omega))

/-! ### Looking a field up

The search steps over the zero byte behind each line. It stays inside as long as the last byte in
use is zero. -/

/-- A node with some text in use and a blank byte behind it. -/
structure HoldsText (node : HttpcMemNode) (held : Bytes) : Prop where
  memory : ∃ beyond, node.buf =
    held ++ (List.replicate (node.bufLen - held.length) nul ++ beyond)
  used : node.bufUsed = held.length
  room : held.length < node.bufLen
  ends : held = [] ∨ ∃ text, held = text ++ [nul]

variable {held : Bytes}

theorem HoldsText.split (holds : HoldsText node held) :
    ∃ beyond, node.buf = held ++ nul :: beyond := by
  obtain ⟨beyond, memory⟩ := holds.memory
  have room := holds.room
  obtain ⟨n, more⟩ : ∃ n, node.bufLen - held.length = n + 1 :=
    ⟨node.bufLen - held.length - 1, by omega⟩
  exact ⟨List.replicate n nul ++ beyond, by rw [memory, more, List.replicate_succ]; rfl⟩

/-- A string that starts in the text and is not empty ends in front of its last byte. -/
theorem HoldsText.cstr_bound (holds : HoldsText node held) {p : Nat} (before : p ≤ held.length)
    (something : cstr (node.buf.drop p) ≠ []) :
    p + (cstr (node.buf.drop p)).length < held.length := by
  obtain ⟨beyond, memory⟩ := holds.split
  have positive := List.length_pos_iff.mpr something
  have bound := Hfc.cstr_bound memory before
  rcases holds.ends with nothing | ⟨text, ends⟩
  · rw [nothing, List.length_nil] at bound
    omega
  · have split : node.buf = text ++ nul :: (nul :: beyond) := by
      rw [memory, ends]
      simp
    have length : held.length = text.length + 1 := by simp [ends]
    have bound' := Hfc.cstr_bound split (p := p) (by omega)
    omega

/-- Behind the text there is no space in the buffer. -/
theorem HoldsText.space_bound (holds : HoldsText node held) {p : Nat} (inside : p < node.bufLen)
    (space : (node.buf.drop p).head? = some sp) : p < held.length := by
  obtain ⟨beyond, memory⟩ := holds.memory
  have room := holds.room
  by_contra behind
  obtain ⟨k, rfl⟩ : ∃ k, p = held.length + k := ⟨p - held.length, by omega⟩
  obtain ⟨n, more⟩ : ∃ n, node.bufLen - held.length = k + (n + 1) :=
    ⟨node.bufLen - held.length - k - 1, by omega⟩
  rw [memory, ← List.drop_drop, List.drop_left, more, List.replicate_add, List.append_assoc,
    List.drop_left' (by simp), List.replicate_succ] at space
  exact absurd (Option.some.inj space) (by decide)

/-- The last byte of the buffer is blank. -/
theorem HoldsText.last (holds : HoldsText node held) :
    ∃ text beyond, node.buf = text ++ nul :: beyond ∧ text.length + 1 = node.bufLen := by
  obtain ⟨beyond, memory⟩ := holds.memory
  have room := holds.room
  obtain ⟨n, more⟩ : ∃ n, node.bufLen - held.length = n + 1 :=
    ⟨node.bufLen - held.length - 1, by omega⟩
  refine ⟨held ++ List.replicate n nul, beyond, ?_, ?_⟩
  · rw [memory, more, List.replicate_succ']
    simp
  · rw [List.length_append, List.length_replicate]
    omega

/-- So a string that starts in the buffer ends in it. -/
theorem stringSpan_inside (holds : HoldsText node held) {p : Nat} (inside : p < node.bufLen) :
    InBuffer node (stringSpan node.buf p) := by
  obtain ⟨text, beyond, memory, length⟩ := holds.last
  intro i member
  have bound := stringSpan_bound memory (by omega) member
  omega

theorem headerGetLoopAccesses_inside (holds : HoldsText node held) (f : Bytes) (fuel count : Nat) :
    InBuffer node (headerGetLoopAccesses node f fuel count) := by
  have room := holds.room
  induction fuel generalizing count with
  | zero =>
      intro i member
      cases member
  | succ fuel ih =>
      rw [headerGetLoopAccesses]
      split
      · rename_i inUse
        rw [holds.used] at inUse
        have here := stringSpan_inside holds (show count < node.bufLen by omega)
        dsimp only
        split
        · exact here
        · exact here.append (ih _)
      · intro i member
        cases member

/-- An occurrence of some text is followed by another byte of what is held. -/
theorem headerGetLoop_bound (holds : HoldsText node held) {f : Bytes} (something : f ≠ [])
    {fuel count ptr : Nat} (found : headerGetLoop node f fuel count = some ptr) :
    ptr + f.length < held.length := by
  induction fuel generalizing count with
  | zero => cases found
  | succ fuel ih =>
      rw [headerGetLoop] at found
      split at found
      · rename_i inside
        rw [holds.used] at inside
        dsimp only at found
        split at found
        · rename_i m here
          cases found
          have bound := strstr_bound here something
          have positive := List.length_pos_iff.mpr something
          have text : cstr (node.buf.drop count) ≠ [] := by
            apply List.ne_nil_of_length_pos
            show 0 < (cstr (node.memFrom count)).length
            omega
          have short := holds.cstr_bound (by omega) text
          have same : (cstr (node.buf.drop count)).length =
              (cstr (node.memFrom count)).length := rfl
          omega
        · exact ih found
      · cases found

/-- An empty text is found at once. -/
theorem headerGetLoop_nil {node : HttpcMemNode} {n : Nat} (used : node.bufUsed = n) :
    headerGetLoop node [] (node.bufUsed + 1).toNat 0 = some 0 := by
  have rounds : ((n : Int) + 1).toNat = n + 1 := by omega
  have inUse : ((0 : Nat) : Int) ≤ node.bufUsed := by
    rw [used]
    exact Int.natCast_nonneg n
  rw [used, rounds, headerGetLoop, if_pos inUse]
  simp [strstr_of_start List.nil_prefix]

/-- The lookup stays inside the buffer, and so does what it returns. With room for a single byte
there is no place behind an empty name. -/
theorem headerGet_bound (holds : HoldsText node held) (header : httpc.headerNode = some node)
    (wide : 1 < node.bufLen) (f : Bytes) :
    InBuffer node (headerGetAccesses httpc (some f)) ∧
      ∀ p, httpcHeaderGet httpc (some f) = some p → p < node.bufLen := by
  have room := holds.room
  have search := headerGetLoopAccesses_inside holds f (node.bufUsed + 1).toNat 0
  cases found : headerGetLoop node f (node.bufUsed + 1).toNat 0 with
  | none =>
      constructor
      · simp only [headerGetAccesses, header, found]
        exact search
      · intro p result
        simp [httpcHeaderGet, header, found] at result
  | some ptr =>
      have inside : ptr + f.length + 1 < node.bufLen := by
        cases f with
        | nil =>
            rw [headerGetLoop_nil holds.used] at found
            cases found
            exact wide
        | cons b more =>
            have bound := headerGetLoop_bound holds (List.cons_ne_nil b more) found
            omega
      constructor
      · simp only [headerGetAccesses, header, found]
        refine search.append ?_
        intro i member
        rw [List.mem_singleton.mp member]
        omega
      · intro p result
        simp only [httpcHeaderGet, header, found, Option.some.injEq] at result
        rw [← result]
        split
        · rename_i space
          have bound := holds.space_bound inside space
          omega
        · exact inside

/-! ### Evaluating the head

The three lookups and the scan for the status code, one after the other on the same buffer. -/

/-- Handing the text of a field on stays inside the buffer too. -/
theorem headerTextAccesses_inside (holds : HoldsText node held)
    (header : httpc.headerNode = some node) (wide : 1 < node.bufLen) (f : Bytes) :
    InBuffer node (headerTextAccesses httpc node f) := by
  obtain ⟨search, pointer⟩ := headerGet_bound holds header wide f
  unfold headerTextAccesses
  cases found : httpcHeaderGet httpc (some f) with
  | none => exact search
  | some p => exact search.append (stringSpan_inside holds (pointer p found))

/-- Skipping spaces from a place in the text, and reading the string behind them. -/
theorem skipping_inside (holds : HoldsText node held) {p : Nat} (before : p ≤ held.length) :
    InBuffer node (span p (((node.memFrom p).takeWhile (· = sp)).length + 1)) ∧
      InBuffer node (stringSpan node.buf (p + ((node.memFrom p).takeWhile (· = sp)).length)) := by
  obtain ⟨beyond, memory⟩ := holds.split
  have room := holds.room
  have spaces : p + ((node.memFrom p).takeWhile (· = sp)).length ≤ held.length :=
    spaces_bound memory before
  refine ⟨?_, stringSpan_inside holds (by omega)⟩
  intro i member
  obtain ⟨lower, upper⟩ := mem_span.mp member
  omega

/-- The name of the protocol has seven bytes and eight are skipped, the last of them at most the
terminator of the line. -/
theorem protocol_bound (holds : HoldsText node held) {ptr : Nat}
    (found : strstr (ascii "HTTP/1.") (cstr node.buf) = some ptr) :
    ptr + (ascii "HTTP/1.1").length ≤ held.length := by
  have seven := strstr_bound found (by decide)
  have named : (ascii "HTTP/1.").length = 7 := rfl
  have skipped : (ascii "HTTP/1.1").length = 8 := rfl
  have something : cstr (node.buf.drop 0) ≠ [] := by
    apply List.ne_nil_of_length_pos
    rw [List.drop_zero]
    omega
  have short := holds.cstr_bound (Nat.zero_le _) something
  rw [List.drop_zero] at short
  omega

theorem parseHeadAccesses_inside (holds : HoldsText node held)
    (header : httpc.headerNode = some node) (wide : 1 < node.bufLen) :
    InBuffer node (parseHeadAccesses httpc node) := by
  have room := holds.room
  have first := stringSpan_inside holds (show 0 < node.bufLen by omega)
  have length := headerTextAccesses_inside holds header wide (ascii "Content-Length")
  have coding := headerTextAccesses_inside holds header wide (ascii "Transfer-Encoding")
  unfold parseHeadAccesses
  cases found : strstr (ascii "HTTP/1.") (cstr node.buf) with
  | none => exact first
  | some ptr =>
      obtain ⟨spaces, code⟩ := skipping_inside holds (protocol_bound holds found)
      have read := ((first.append spaces).append code).append length
      dsimp only
      split
      · exact read
      · exact read.append coding

end

/-! ### The whole head

All accesses lie inside exactly when the buffer has two bytes or more and the lines that arrive do
not fill it. -/

/-- Receiving a head into a node, and every lookup behind it, touches nothing outside the buffer and
returns no place outside of it. -/
structure HeadInside (net : Transport) (httpc : Httpc) (node : HttpcMemNode) (w : World) :
    Prop where
  receiving : InBuffer node (handleResponseAccesses net httpc w)
  lookup : ∀ f, InBuffer node
    (headerGetAccesses (httpcHandleResponse net httpc w).httpc (some f))
  pointer : ∀ f p,
    httpcHeaderGet (httpcHandleResponse net httpc w).httpc (some f) = some p → p < node.bufLen

section

variable {net : Transport} {httpc : Httpc} {node : HttpcMemNode} {w : World}

/-- The node behind `httpc_handle_response`, whatever arrives. -/
theorem handleResponse_node (net : Transport) (w : World) (header : httpc.headerNode = some node) :
    (httpcHandleResponse net httpc w).httpc.headerNode =
      some (node.holding (arrivedHead net httpc node.bufLen node.bufLen w).1) := by
  obtain ⟨ret, code, length, chunked, -, parsed⟩ := parseHead_frame
    { httpc with
      headerNode := some (node.holding (arrivedHead net httpc node.bufLen node.bufLen w).1) }
    (node.holding (arrivedHead net httpc node.bufLen node.bufLen w).1)
  simp only [httpcHandleResponse, header, headLoop_reset, parsed]

/-- A node that what arrived does not fill. -/
theorem holding_holdsText (net : Transport) (httpc : Httpc) (w : World)
    (room : (arrivedHead net httpc node.bufLen node.bufLen w).1.length < node.bufLen) :
    HoldsText (node.holding (arrivedHead net httpc node.bufLen node.bufLen w).1)
      (arrivedHead net httpc node.bufLen node.bufLen w).1 where
  memory := ⟨node.buf.drop node.bufLen, holding_buf node room.le⟩
  used := rfl
  room := room
  ends := arrivedHead_ends net httpc node.bufLen node.bufLen w

theorem headInside_of_room (header : httpc.headerNode = some node) (wide : 1 < node.bufLen)
    (room : (arrivedHead net httpc node.bufLen node.bufLen w).1.length < node.bufLen) :
    HeadInside net httpc node w := by
  have holds := holding_holdsText net httpc w room
  have lookup := fun f => headerGet_bound holds (handleResponse_node net w header) wide f
  refine ⟨?_, fun f => (lookup f).1, fun f => (lookup f).2⟩
  have cleared : InBuffer node (span 0 node.bufLen) := by
    intro i member
    have bound := mem_span.mp member
    omega
  have memory : (httpcMemNodeReset node).buf = [] ++ _ := reset_buf node
  have reading : InBuffer node
      (headLoopAccesses net httpc node.bufLen (httpcMemNodeReset node) w) :=
    headLoopAccesses_inside memory rfl (Nat.zero_add _).symm node.positive
  simp only [handleResponseAccesses, header, headLoop_reset]
  exact (cleared.append reading).append (parseHeadAccesses_inside holds rfl wide)

/-! What goes wrong otherwise. -/

/-- When the text fills the buffer, the search for a text that is nowhere comes to the end of the
buffer and reads there. -/
theorem headerGetLoopAccesses_full {node : HttpcMemNode} {text beyond f : Bytes}
    (memory : node.buf = text ++ nul :: beyond) (used : node.bufUsed = (text.length + 1 : Nat))
    (absent : ∀ count, strstr f (cstr (node.memFrom count)) = none) (fuel : Nat) {count : Nat}
    (inside : count ≤ text.length + 1) (enough : text.length + 1 < fuel + count) :
    ((text.length + 1 : Nat) : Int) ∈ headerGetLoopAccesses node f fuel count := by
  induction fuel generalizing count with
  | zero => omega
  | succ fuel ih =>
      rw [headerGetLoopAccesses, if_pos (by omega)]
      simp only [absent]
      rcases Nat.lt_or_ge count (text.length + 1) with before | reached
      · have bound := cstr_bound memory (p := count) (by omega)
        refine List.mem_append_right _ (ih ?_ (by omega))
        have same : (cstr (node.memFrom count)).length = (cstr (node.buf.drop count)).length := rfl
        omega
      · refine List.mem_append_left _ (mem_span.mpr ?_)
        omega

/-- Then there is a text whose search leaves the buffer. -/
theorem not_headInside_of_full (header : httpc.headerNode = some node)
    (full : (arrivedHead net httpc node.bufLen node.bufLen w).1.length = node.bufLen) :
    ¬ HeadInside net httpc node w := by
  intro inside
  have positive := node.positive
  have node_eq := handleResponse_node net w header
  have memory := holding_buf node full.le
  have used : (node.holding (arrivedHead net httpc node.bufLen node.bufLen w).1).bufUsed =
      (arrivedHead net httpc node.bufLen node.bufLen w).1.length := rfl
  rcases arrivedHead_ends net httpc node.bufLen node.bufLen w with nothing | ⟨text, ends⟩
  · rw [nothing, List.length_nil] at full
    omega
  · rw [ends] at node_eq memory used full
    rw [List.length_append, List.length_singleton] at full used
    generalize node.holding (text ++ [nul]) = held at node_eq memory used
    -- A name longer than all of the memory is in none of its strings.
    have absent : ∀ count, strstr (List.replicate (held.buf.length + 1) 97)
        (cstr (held.memFrom count)) = none := by
      intro count
      cases found : strstr (List.replicate (held.buf.length + 1) 97)
          (cstr (held.memFrom count)) with
      | none => rfl
      | some m =>
          have bound := strstr_bound found (by simp)
          have short := length_cstr_le (held.memFrom count)
          simp only [HttpcMemNode.memFrom, List.length_drop, List.length_replicate] at bound short
          omega
    have split : held.buf = text ++ nul :: node.buf.drop node.bufLen := by
      rw [memory, List.length_append, List.length_singleton, full, Nat.sub_self]
      simp
    have reached := headerGetLoopAccesses_full split used absent (held.bufUsed + 1).toNat
      (Nat.zero_le _) (by omega)
    have outside := inside.lookup (List.replicate (held.buf.length + 1) 97) node.bufLen (by
      simp only [headerGetAccesses, node_eq]
      rw [← full]
      split
      · exact reached
      · exact List.mem_append_left _ reached)
    omega

/-- In a buffer of one byte that stays blank, the place behind an empty name is outside. -/
theorem not_headInside_of_narrow (header : httpc.headerNode = some node) (narrow : node.bufLen = 1)
    (room : (arrivedHead net httpc node.bufLen node.bufLen w).1.length < node.bufLen) :
    ¬ HeadInside net httpc node w := by
  intro inside
  have node_eq := handleResponse_node net w header
  have nothing : (arrivedHead net httpc node.bufLen node.bufLen w).1 = [] :=
    List.length_eq_zero_iff.mp (by omega)
  rw [nothing] at node_eq
  have used : (node.holding []).bufUsed = (0 : Nat) := rfl
  have found := headerGetLoop_nil used
  have outside := inside.lookup [] 1 (by
    simp only [headerGetAccesses, node_eq, found]
    exact List.mem_append_right _ (List.mem_singleton.mpr rfl))
  omega

/-- Receiving a head and looking fields up stays inside the header buffer, whatever the transport
and the client do, if and only if the buffer has two bytes or more and the lines that arrive, each
with one terminator, do not fill it. -/
theorem head_inside_iff (net : Transport) (httpc : Httpc) (node : HttpcMemNode) (w : World) :
    HeadInside net (httpc.withNode node) node w ↔
      1 < node.bufLen ∧
        (arrivedHead net (httpc.withNode node) node.bufLen node.bufLen w).1.length <
          node.bufLen := by
  have header : (httpc.withNode node).headerNode = some node := rfl
  have positive := node.positive
  have bound := length_arrivedHead_le net (httpc.withNode node) node.bufLen positive w
  constructor
  · intro inside
    have room : (arrivedHead net (httpc.withNode node) node.bufLen node.bufLen w).1.length <
        node.bufLen := by
      by_contra full
      exact not_headInside_of_full header (by omega) inside
    refine ⟨?_, room⟩
    by_contra narrow
    exact not_headInside_of_narrow header (by omega) room inside
  · rintro ⟨wide, room⟩
    exact headInside_of_room header wide room

/-- A header node of 34 bytes, which the two lines of the sample header fill. -/
def fullNode : HttpcMemNode :=
  .blank 34 (by decide) (by decide)

/-- A search for a field that is not there reads the byte behind this buffer. -/
theorem lookup_leaves_full_buffer :
    (34 : Int) ∈ headerGetAccesses (httpcHandleResponse .prompt
        ((Httpc.plain 3).withNode fullNode) (.opened okHeader.bytes)).httpc (some (ascii "ETag")) ∧
      ¬ HeadInside .prompt ((Httpc.plain 3).withNode fullNode) fullNode
        (.opened okHeader.bytes) := by
  have reads : (34 : Int) ∈ headerGetAccesses (httpcHandleResponse .prompt
      ((Httpc.plain 3).withNode fullNode) (.opened okHeader.bytes)).httpc
        (some (ascii "ETag")) := by decide +kernel
  refine ⟨reads, fun inside => ?_⟩
  have bound := inside.lookup (ascii "ETag") 34 reads
  exact absurd bound.2 (by decide)

end

end Hfc
