/-
Module: Hfc.Core.Access
Layer: Core
Purpose: Where the code reads and writes in its buffers. Each definition follows a function of the
  source step by step and lists the indices it uses in a buffer; a function of the string library
  counts as reading its argument up to the terminator, and what it is given is not a string when
  there is none.
Imports: Hfc.Core.Exchange, Hfc.Core.Uri
Main exports: span, stringSpan, lineStores, chunkTmpAccesses, ChunkDecision, decideChunk,
  chunkDecision, chunkDelivery, headLoopAccesses, headerGetAccesses, parseHeadAccesses,
  handleResponseAccesses, Ipv4Array, ipv4IpAddr, ipv4IpPort, ipv4Writes, ipv4Strings
-/
import Hfc.Core.Exchange
import Hfc.Core.Uri

namespace Hfc

open ByteText Numeral

/-- The indices of `n` bytes from an offset on. -/
def span (off : Int) (n : Nat) : List Int :=
  (List.range n).map fun i : Nat => off + (i : Int)

/-- The indices of a string in memory, its terminator included. -/
def stringSpan (mem : Bytes) (off : Nat) : List Int :=
  span off ((cstr (mem.drop off)).length + 1)

theorem mem_span {off i : Int} {n : Nat} : i ∈ span off n ↔ off ≤ i ∧ i < off + n := by
  simp only [span, List.mem_map, List.mem_range]
  constructor
  · rintro ⟨k, below, rfl⟩
    omega
  · rintro ⟨lower, upper⟩
    exact ⟨(i - off).toNat, by omega, by omega⟩

theorem span_succ (off : Int) (n : Nat) : span off (n + 1) = off :: span (off + 1) n := by
  simp only [span, List.range_succ_eq_map, List.map_cons, List.map_map, Nat.cast_zero, add_zero]
  congr 2
  funext i
  simp only [Function.comp_apply, Nat.cast_succ]
  omega

/-! ### Reading a line

Every byte that `httpc_read_one_line` stores, as an index of the caller's block. The list follows
the loop round by round, so that a claim about memory is a claim about its members. -/

/-- The stores of the loop of `httpc_read_one_line`, from the index `count` on. -/
def readOneLineStores (net : Transport) (httpc : Httpc) :
    Nat → (lastByte : Byte) → (count : Nat) → World → List Int
  | 0, _, _, _ => []
  | room + 1, lastByte, count, w =>
      let r := httpcRecv net httpc w false 1
      if r.ret ≤ 0 then []
      else
        let byte := r.data.headD 0
        if byte = lf ∧ lastByte = cr then []
        else (count : Int) :: readOneLineStores net httpc room byte (count + 1) r.world

/-- The stores of `httpc_read_one_line` in its buffer. -/
def lineStores (net : Transport) (httpc : Httpc) (w : World) (size : Int) : List Int :=
  readOneLineStores net httpc (max size 1).toNat 0 0 w

theorem readOneLineStores_eq (net : Transport) (httpc : Httpc) (room : Nat) (lastByte : Byte)
    (stored : Bytes) (w : World) :
    ∃ more, (readOneLineLoop net httpc room lastByte stored w).stored = stored ++ more ∧
      more.length ≤ room ∧
      readOneLineStores net httpc room lastByte stored.length w =
        span stored.length more.length := by
  induction room generalizing lastByte stored w with
  | zero => exact ⟨[], by simp [readOneLineLoop], le_rfl, rfl⟩
  | succ room ih =>
      unfold readOneLineLoop readOneLineStores
      dsimp only
      by_cases ended : (httpcRecv net httpc w false 1).ret ≤ 0
      · rw [if_pos ended, if_pos ended]
        exact ⟨[], by simp, Nat.zero_le _, rfl⟩
      · rw [if_neg ended, if_neg ended]
        generalize (httpcRecv net httpc w false 1).data.headD 0 = byte
        by_cases ends : byte = lf ∧ lastByte = cr
        · rw [if_pos ends, if_pos ends]
          exact ⟨[], by simp, Nat.zero_le _, rfl⟩
        · rw [if_neg ends, if_neg ends]
          obtain ⟨more, line, short, stores⟩ :=
            ih byte (stored ++ [byte]) (httpcRecv net httpc w false 1).world
          rw [List.length_append, List.length_singleton] at stores
          refine ⟨byte :: more, by rw [line]; simp, by simpa using short, ?_⟩
          rw [stores, List.length_cons, span_succ]
          rfl

/-- The line reader stores what it has read at the head of its buffer, and no more than fits. -/
theorem lineStores_eq (net : Transport) (httpc : Httpc) (w : World) (size : Int) :
    lineStores net httpc w size = span 0 (httpcReadOneLine net httpc w size).stored.length ∧
      (httpcReadOneLine net httpc w size).stored.length ≤ (max size 1).toNat := by
  obtain ⟨more, line, short, stores⟩ :=
    readOneLineStores_eq net httpc (max size 1).toNat 0 [] w
  rw [List.nil_append] at line
  rw [httpcReadOneLine, line]
  exact ⟨stores, short⟩

/-! ### The scratch block of `httpc_chunked_recv`

The block of `HTTP_RESPONSE_LINE` bytes that the size line is read into, and the caller's buffer
behind it: what the call touches in either, and what it decides on the line. -/

/-- The indices `httpc_chunked_recv` uses in `tmp_buf`: the line reader stores the size line, the
byte in front of `count` is cleared, `strtoul` reads the text, and the CRLF behind the data is
received there. -/
def chunkTmpAccesses (net : Transport) (httpc : Httpc) (w : World) (bufNull : Bool) (size : Int) :
    List Int :=
  if bufNull then []
  else
    let tmp := net.allocate w
    if tmp.1 = false then []
    else
      let line := httpcReadOneLine net httpc tmp.2 chunkTmpSize
      let stores := lineStores net httpc tmp.2 chunkTmpSize
      if line.count < 0 then stores
      else
        let parsed := stores ++ [line.count - 1] ++ stringSpan (chunkTmpBuf line.stored) 0
        let len := chunkLen line.stored
        if len < 0 then parsed
        else if len = 0 then parsed
        else if len > size then parsed
        else
          let chunk := httpcRecv net httpc line.world false len
          if chunk.ret < 0 then parsed else parsed ++ span 0 2

/-- What `httpc_chunked_recv` makes of a size line: it is refused, it ends the body, or the data of
a chunk is asked for. -/
inductive ChunkDecision where
  | refused
  | ended
  | data (n : Nat)
deriving DecidableEq, Repr

/-- The three tests of `httpc_chunked_recv` on the size it has read. -/
def decideChunk (len size : Int) : ChunkDecision :=
  if len < 0 then .refused
  else if len = 0 then .ended
  else if len > size then .refused
  else .data (toSizeT len)

/-- What one call of `httpc_chunked_recv` makes of the size line it reads; a call that reads none
refuses. -/
def chunkDecision (net : Transport) (httpc : Httpc) (w : World) (bufNull : Bool) (size : Int) :
    ChunkDecision :=
  if bufNull then .refused
  else
    let tmp := net.allocate w
    if tmp.1 = false then .refused
    else
      let line := httpcReadOneLine net httpc tmp.2 chunkTmpSize
      if line.count < 0 then .refused else decideChunk (chunkLen line.stored) size

/-- What `httpc_chunked_recv` does behind a decision for `n` bytes of data. -/
def chunkDelivery (net : Transport) (httpc : Httpc) (w : World) (n : Nat) : BodyRecv :=
  let line := httpcReadOneLine net httpc (net.allocate w).2 chunkTmpSize
  let chunk := httpcRecv net httpc line.world false n
  if chunk.ret < 0 then .failed httpcErrFail chunk.world
  else
    { ret := chunk.ret
      data := chunk.data
      start := line.world.taken
      world := (httpcRecv net httpc chunk.world false 2).world }

/-- Where `httpc_chunked_recv` is on the stream when it decides: behind the size line, and where it
started when it reads none. -/
def chunkLineEnd (net : Transport) (httpc : Httpc) (w : World) (bufNull : Bool) : World :=
  if bufNull then w
  else
    let tmp := net.allocate w
    if tmp.1 = false then tmp.2 else (httpcReadOneLine net httpc tmp.2 chunkTmpSize).world

/-- The indices `httpc_chunked_recv` stores in the caller's `buf`: those of the data of the chunk,
also when the receive call reports a failure. -/
def chunkBufStores (net : Transport) (httpc : Httpc) (w : World) (bufNull : Bool) (size : Int) :
    List Int :=
  match chunkDecision net httpc w bufNull size with
  | .data n =>
      let line := httpcReadOneLine net httpc (net.allocate w).2 chunkTmpSize
      span 0 (httpcRecv net httpc line.world false n).data.length
  | .refused | .ended => []

/-! ### The header buffer

The accesses of `httpc_handle_response`, in the order of the code: the lines that are stored, the
CRs that are cleared, and the text searches of `httpc_header_get` and the three lookups. -/

/-- The indices the `while (1)` loop of `httpc_handle_response` uses in the header buffer: the line
reader stores a line, its first byte is tested, and then that byte is cleared, or the last byte of
the line is and the line is printed. -/
def headLoopAccesses (net : Transport) (httpc : Httpc) : Nat → HttpcMemNode → World → List Int
  | 0, _, _ => []
  | fuel + 1, node, w =>
      let line := httpcReadOneLine net httpc w (node.bufLen - node.bufUsed)
      let stores := (lineStores net httpc w (node.bufLen - node.bufUsed)).map (node.bufUsed + ·)
      let node := node.store node.bufUsed line.stored
      if line.count ≤ 0 then stores
      else if line.stored.head? = some cr ∧ line.count = 1 then
        stores ++ [node.bufUsed, node.bufUsed]
      else
        let cleared := node.store (node.bufUsed + line.count - 1) [nul]
        let next := cleared.setUsed (node.bufUsed + line.count)
        let round :=
          stores ++ [node.bufUsed, node.bufUsed + line.count - 1] ++
            stringSpan cleared.buf node.bufUsed.toNat
        if next.bufUsed ≥ next.bufLen then round
        else round ++ headLoopAccesses net httpc fuel next line.world

/-- The indices the `while` loop of `httpc_header_get` uses: `strstr` and `strchr` read the string
at `count`. -/
def headerGetLoopAccesses (node : HttpcMemNode) (fields : Bytes) : Nat → (count : Nat) → List Int
  | 0, _ => []
  | fuel + 1, count =>
      if (count : Int) ≤ node.bufUsed then
        let line := cstr (node.memFrom count)
        match strstr fields line with
        | some _ => stringSpan node.buf count
        | none =>
            stringSpan node.buf count ++
              headerGetLoopAccesses node fields fuel (count + line.length + 1)
      else []

/-- The indices `httpc_header_get` uses: those of its loop, and the byte it tests for a space. -/
def headerGetAccesses (httpc : Httpc) (fields : Option Bytes) : List Int :=
  match httpc.headerNode, fields with
  | some node, some fields =>
      let search := headerGetLoopAccesses node fields (node.bufUsed + 1).toNat 0
      match headerGetLoop node fields (node.bufUsed + 1).toNat 0 with
      | none => search
      | some ptr => search ++ [((ptr + fields.length + 1 : Nat) : Int)]
  | _, _ => []

/-- The indices that are used when a field is looked up and its text is handed to `strtoul` or
`strcmp`. -/
def headerTextAccesses (httpc : Httpc) (node : HttpcMemNode) (fields : Bytes) : List Int :=
  match httpcHeaderGet httpc (some fields) with
  | none => headerGetAccesses httpc (some fields)
  | some ptr => headerGetAccesses httpc (some fields) ++ stringSpan node.buf ptr

/-- The indices `httpc_handle_response` uses behind its loop: the protocol name is searched, the
spaces behind it are skipped, `strtoul` reads the code, and the two fields are looked up. -/
def parseHeadAccesses (httpc : Httpc) (node : HttpcMemNode) : List Int :=
  match strstr (ascii "HTTP/1.") (cstr node.buf) with
  | none => stringSpan node.buf 0
  | some ptr =>
      let ptr := ptr + (ascii "HTTP/1.1").length
      let spaces := ((node.memFrom ptr).takeWhile (· = sp)).length
      let read :=
        stringSpan node.buf 0 ++ span ptr (spaces + 1) ++ stringSpan node.buf (ptr + spaces) ++
          headerTextAccesses httpc node (ascii "Content-Length")
      if headContentLength httpc node ≠ 0 then read
      else read ++ headerTextAccesses httpc node (ascii "Transfer-Encoding")

/-- The indices `httpc_handle_response` uses in the header buffer; `httpc_mem_node_reset` clears all
of it first. -/
def handleResponseAccesses (net : Transport) (httpc : Httpc) (w : World) : List Int :=
  match httpc.headerNode with
  | none => []
  | some node =>
      let read := headLoop net httpc node.bufLen (httpcMemNodeReset node) w
      span 0 node.bufLen ++ headLoopAccesses net httpc node.bufLen (httpcMemNodeReset node) w ++
        parseHeadAccesses { httpc with headerNode := some read.1 } read.1

/-! ### The arrays of `httpc_ipv4_address_check`

The four arrays on the stack, the `strncpy` calls that fill them and the string functions that scan
them. A scan without a zero byte in its array is an access outside it. -/

/-- The local arrays of `httpc_ipv4_address_check`, and those its caller passes. -/
inductive Ipv4Array where
  | ipAddr
  | ipPort
  | addr
  | port
deriving DecidableEq, Repr

def Ipv4Array.size : Ipv4Array → Nat
  | .ipAddr => ipAddrSize
  | .ipPort => ipPortSize
  | .addr => ipv4AddrSize
  | .port => ipv4PortSize

/-- The count of bytes that are copied to `ip_addr`. -/
def ipv4CopyLen (uri : Bytes) : Nat :=
  match strstr (ascii ":") uri with
  | some ptr => ptr
  | none => uri.length

/-- The array `ip_addr` when the host is copied to it. -/
def ipv4IpAddr (uri : Bytes) : Bytes :=
  strncpy (List.replicate ipAddrSize nul) uri (ipv4CopyLen uri)

/-- The text that is copied to `ip_port`, empty when it is too long or there is none. -/
def ipv4PortText (uri : Bytes) : Bytes :=
  match strstr (ascii ":") uri with
  | some ptr => if (uri.drop (ptr + 1)).length ≤ 5 then uri.drop (ptr + 1) else []
  | none => []

/-- The array `ip_port` when the port is copied to it. -/
def ipv4IpPort (uri : Bytes) : Bytes :=
  strncpy (List.replicate ipPortSize nul) (ipv4PortText uri) (ipv4PortText uri).length

/-- Whether `ip_port` holds only digits. -/
def ipv4PortDigits (uri : Bytes) : Bool :=
  (cstr (ipv4IpPort uri)).all fun b => 48 ≤ b.toNat && b.toNat ≤ 57

/-- The indices of the dots of a text, which `strtok_r` may overwrite. -/
def dotIndices (text : Bytes) : List Nat :=
  (List.range text.length).filter fun i => text[i]? = some 46

/-- The writes of `httpc_ipv4_address_check`, each with its array and index: the four calls of
`strncpy` or the cleared port, and `strtok_r`. -/
def ipv4Writes (uri : Option Bytes) : List (Ipv4Array × Nat) :=
  match uri with
  | none => []
  | some uri =>
      if uri.length > 15 + 5 + 1 then []
      else
        (List.range (ipv4CopyLen uri)).map (.ipAddr, ·) ++
          (List.range (ipv4PortText uri).length).map (.ipPort, ·) ++
          (List.range (cstr (ipv4IpAddr uri)).length).map (.addr, ·) ++
          (if ipv4PortDigits uri then (List.range (cstr (ipv4IpPort uri)).length).map (.port, ·)
            else [(.port, 0)]) ++
          (dotIndices (cstr (ipv4IpAddr uri))).map (.ipAddr, ·)

/-- The arrays that `httpc_ipv4_address_check` hands to string functions, with what they hold:
`ip_addr` to `strlen`, `strncpy` and `strtok_r`, `ip_port` to `strlen` and `strncpy`. -/
def ipv4Strings (uri : Option Bytes) : List (Ipv4Array × Bytes) :=
  match uri with
  | none => []
  | some uri =>
      if uri.length > 15 + 5 + 1 then []
      else [(.ipAddr, ipv4IpAddr uri), (.ipPort, ipv4IpPort uri)]

/-- These are the arrays that `httpc_ipv4_address_check` works with. -/
theorem httpcIpv4AddressCheck_eq {uri : Bytes} (short : ¬ uri.length > 15 + 5 + 1) :
    httpcIpv4AddressCheck (some uri) =
      let addr := List.replicate ipv4AddrSize nul
      let port := List.replicate ipv4PortSize nul
      { ret :=
          if octetLoop (dotTokens (cstr (ipv4IpAddr uri))) 0 = 4 then httpcErrOk else httpcErrFail
        addr := strncpy addr (ipv4IpAddr uri) (cstr (ipv4IpAddr uri)).length
        port :=
          if ipv4PortDigits uri then strncpy port (ipv4IpPort uri) (cstr (ipv4IpPort uri)).length
          else patch port 0 [nul] } := by
  have portArray : ipv4IpPort uri =
      match strstr (ascii ":") uri with
      | some ptr =>
          let behind := uri.drop (ptr + 1)
          if behind.length ≤ 5 then
            strncpy (List.replicate ipPortSize nul) behind behind.length
          else List.replicate ipPortSize nul
      | none => List.replicate ipPortSize nul := by
    unfold ipv4IpPort ipv4PortText
    cases strstr (ascii ":") uri with
    | none => simp [strncpy]
    | some ptr =>
        dsimp only
        split <;> simp [strncpy]
  have addrArray : ipv4IpAddr uri =
      match strstr (ascii ":") uri with
      | some ptr => strncpy (List.replicate ipAddrSize nul) uri ptr
      | none => strncpy (List.replicate ipAddrSize nul) uri uri.length := by
    unfold ipv4IpAddr ipv4CopyLen
    cases strstr (ascii ":") uri <;> rfl
  simp only [ipv4PortDigits, portArray, addrArray]
  exact if_neg short

end Hfc
