/-
Module: Hfc.Proofs.GetRequests
Layer: Proofs
Purpose: What the requests of the example program put on the wire. The URI a client was made for
  comes into the request unchecked, so the request is the one header block it is meant to be exactly
  when the URI has no line end; and a request for a range is built but never sent.
Imports: Hfc.Core.GetExample, Hfc.Proofs.HeaderBuilding, Hfc.Proofs.UriSplitting,
  Hfc.Spec.HeaderBlock
Main exports: getLines, getRequest, httpcInit_parts, get_request_of_uri, range_request_never_sent
-/
import Hfc.Core.GetExample
import Hfc.Proofs.HeaderBuilding
import Hfc.Proofs.UriSplitting
import Hfc.Spec.HeaderBlock

namespace Hfc

open ByteText CrlfScan EventRun Numeral

/-! ### The text of a request

The lines of a GET request, and the line ends in it wherever they come from. It is a block of its
own lines exactly when neither host nor path has one. -/

/-- The lines of the request of `httpc_get` for a host and a path. -/
def getLines (host path : Bytes) : List Bytes :=
  [ascii "GET " ++ path ++ ascii " HTTP/1.1", ascii "Host: " ++ host, ascii "Accept: */*",
    ascii "User-Agent: Tiny HTTPClient Agent"]

/-- The request itself: its lines, and the empty one. -/
def getRequest (host path : Bytes) : Bytes :=
  (getLines host path).flatMap (fun line => line ++ [cr, lf]) ++ [cr, lf]

/-- A text between two others that have no line end and do not make one with it. -/
theorem crlfCount_between (front text back : Bytes) (noLf : lf ∉ front)
    (noCr : lastByte nul front ≠ cr) (noLf' : lf ∉ back) :
    crlfCount nul (front ++ text ++ back) = crlfCount nul text := by
  have start : crlfCount nul front = 0 := crlfCount_eq_zero.mpr (.of_no_lf noLf _)
  have finish (last : Byte) : crlfCount last back = 0 :=
    crlfCount_eq_zero.mpr (.of_no_lf noLf' _)
  rw [crlfCount_append, crlfCount_append, start, finish,
    crlfCount_of_ne_cr noCr (show nul ≠ cr by decide)]
  omega

/-- The line ends of the request: its own five, and those of the path and the host. -/
theorem crlfCount_getRequest (host path : Bytes) :
    crlfCount nul (getRequest host path) = crlfCount nul path + crlfCount nul host + 5 := by
  have first := crlfCount_between (ascii "GET ") path (ascii " HTTP/1.1")
    (by decide) (by decide) (by decide)
  have second := crlfCount_between (ascii "Host: ") host []
    (by decide) (by decide) (by decide)
  rw [List.append_nil] at second
  have third : crlfCount nul (ascii "Accept: */*") = 0 := by decide
  have fourth : crlfCount nul (ascii "User-Agent: Tiny HTTPClient Agent") = 0 := by decide
  have last : crlfCount nul [cr, lf] = 1 := by decide
  rw [getRequest, crlfCount_lines, last]
  simp only [getLines, List.map_cons, List.map_nil, List.sum_cons, List.sum_nil, List.length_cons,
    List.length_nil, first, second, third, fourth]
  omega

/-- A header block has one line end for each line and one more. -/
theorem crlfCount_block (block : HeaderBlock) :
    crlfCount nul block.bytes = block.lines.length + 1 := by
  have free : (block.lines.map (crlfCount nul)).sum = 0 := by
    rw [List.sum_eq_zero_iff_forall_eq_nat]
    intro n member
    obtain ⟨line, inBlock, rfl⟩ := List.mem_map.mp member
    exact crlfCount_eq_zero.mpr (block.plain line inBlock).2
  have last : crlfCount nul [cr, lf] = 1 := by decide
  rw [HeaderBlock.bytes, crlfCount_lines, free, last, Nat.zero_add]

/-- The request is a block of its four lines exactly when neither part of it has a line end. -/
theorem getRequest_block_iff {host path : Bytes} :
    (∃ block : HeaderBlock, block.lines.length = 4 ∧ getRequest host path = block.bytes) ↔
      crlfCount nul host = 0 ∧ crlfCount nul path = 0 := by
  constructor
  · rintro ⟨block, four, bytes⟩
    have count := crlfCount_getRequest host path
    rw [bytes, crlfCount_block, four] at count
    omega
  · rintro ⟨hostFree, pathFree⟩
    refine ⟨⟨getLines host path, ?_⟩, rfl, rfl⟩
    intro line member
    simp only [getLines, List.mem_cons, List.not_mem_nil, or_false] at member
    rcases member with rfl | rfl | rfl | rfl
    · refine ⟨by simp [ascii], crlfCount_eq_zero.mp ?_⟩
      rw [crlfCount_between _ path _ (by decide) (by decide) (by decide), pathFree]
    · refine ⟨by simp [ascii], crlfCount_eq_zero.mp ?_⟩
      rw [← List.append_nil (_ ++ host),
        crlfCount_between _ host _ (by decide) (by decide) (by decide),
        hostFree]
    · decide
    · decide

/-! ### The client of a URI

Host and path of a client are parts of its URI, so that line ends in them are line ends of the URI.
-/

section

variable (env : Platform) (classify : Option Bytes → Ipv4Check)

/-- `httpc_tls_init` changes nothing but the TLS context. -/
theorem httpcTlsInit_frame (httpc : Httpc) (sslInfo : Option HttpcTlsInfo) (s : Setup) :
    ∃ ctx, (httpcTlsInit env httpc sslInfo s).httpc = { httpc with mbedtlsCtx := ctx } := by
  have exits (ret : Int) (ctx : Option HttpcMebdtlsCtx) (s' : Setup) :
      ∃ ctx', (tlsExit ret { httpc with mbedtlsCtx := ctx } s').httpc =
        { httpc with mbedtlsCtx := ctx' } := by
    cases ctx <;> exact ⟨_, rfl⟩
  unfold httpcTlsInit
  dsimp only
  split
  · exact exits _ _ _
  · split
    · exact exits _ _ _
    · split
      · exact exits _ _ _
      · split
        · exact ⟨_, rfl⟩
        · exact exits _ _ _

/-- A client that `httpc_init` returns has the node it was given, and the parts of a URI that was
parsed. -/
theorem httpcInit_parts {uri port : Bytes} {s : Setup} {node : Option HttpcMemNode}
    {sslInfo : Option HttpcTlsInfo} {client : Httpc}
    (made : (httpcInit env classify (some uri) port node sslInfo s).httpc = some client) :
    ∃ tls hostPtr, uriScheme (cstr uri) = some (tls, hostPtr) ∧
      client.host = some (uriHost hostPtr) ∧ client.path = some (uriPath hostPtr) ∧
      client.headerNode = node := by
  unfold httpcInit at made
  dsimp only at made
  split at made
  · cases made
  · split at made
    · cases made
    · split at made
      · cases made
      · rename_i passes
        have done : (initParsed env classify (some uri) port s).ret = httpcErrOk := by
          rcases httpcParseUri_ret env classify (Httpc.plain env.socket) (some uri) port
            (initOpened env s) with done | fails
          · exact done
          · exact absurd fails passes
        obtain ⟨tls, hostPtr, known, parsed⟩ := httpcParseUri_client env classify done
        have parsed' : (initParsed env classify (some uri) port s).httpc = _ := parsed
        refine ⟨tls, hostPtr, known, ?_⟩
        split at made
        · split at made
          · cases made
          · obtain ⟨ctx, kept⟩ := httpcTlsInit_frame env
              (initParsed env classify (some uri) port s).httpc sslInfo
              (initParsed env classify (some uri) port s).setup
            rw [kept, parsed'] at made
            cases made
            exact ⟨rfl, rfl, rfl⟩
        · rw [parsed'] at made
          cases made
          exact ⟨rfl, rfl, rfl⟩

end

/-- The host and the path have as many line ends between them as the URI. -/
theorem crlfCount_parts {uri hostPtr : Bytes} {tls : Bool}
    (short : (cstr uri).length < 2 ^ 31 - 1) (known : uriScheme (cstr uri) = some (tls, hostPtr)) :
    crlfCount nul (uriHost hostPtr) + crlfCount nul (uriPath hostPtr) = crlfCount nul (cstr uri) ∧
      (uriHost hostPtr).length + (uriPath hostPtr).length ≤ (cstr uri).length ∧
      nul ∉ uriHost hostPtr ∧ nul ∉ uriPath hostPtr := by
  obtain ⟨scheme, isScheme, split⟩ := uriScheme_spec known
  have free : nul ∉ hostPtr := fun member =>
    nul_notMem_cstr uri (split ▸ List.mem_append_right scheme member)
  have length := congrArg List.length split
  rw [List.length_append] at length
  have short' : hostPtr.length + 1 < 2 ^ 31 := by omega
  have whole := host_append_path free short'
  have wholeFree : nul ∉ uriHost hostPtr ++ uriPath hostPtr := by
    rw [whole]
    split_ifs
    · exact free
    · simpa [free] using show nul ≠ slash by decide
  obtain ⟨rest, path⟩ := List.head?_eq_some_iff.mp (head?_path free short')
  -- the byte between the two is a slash, so no line end is made or lost there
  have parts : crlfCount nul (uriHost hostPtr ++ uriPath hostPtr) =
      crlfCount nul (uriHost hostPtr) + crlfCount nul (uriPath hostPtr) := by
    have notLf : slash ≠ lf := by decide
    rw [crlfCount_append, path]
    simp [crlfCount, notLf]
  have ended : crlfCount nul (hostPtr ++ [slash]) = crlfCount nul hostPtr := by
    have notLf : slash ≠ lf := by decide
    rw [crlfCount_append]
    simp [crlfCount, notLf]
  have schemes : lf ∉ scheme ∧ lastByte nul scheme ≠ cr ∧ 1 ≤ scheme.length := by
    rcases isScheme with ⟨rfl, -⟩ | ⟨rfl, -⟩ <;> decide
  have behind := crlfCount_between scheme hostPtr [] schemes.1 schemes.2.1 (by simp)
  rw [List.append_nil, ← split] at behind
  refine ⟨?_, ?_, fun member => wholeFree (List.mem_append_left _ member),
    fun member => wholeFree (List.mem_append_right _ member)⟩
  · rw [← parts, whole, behind]
    split_ifs
    · rfl
    · exact ended
  · have lengths := congrArg List.length whole
    rw [List.length_append] at lengths
    rw [lengths]
    split_ifs
    · omega
    · rw [List.length_append, List.length_singleton]
      omega

/-! ### The request on the wire

What `httpc_get` hands to the transport, for a client made from a URI. -/

/-- The texts of the header calls, when host and path are strings. -/
theorem getTexts_eq {httpc : Httpc} {host path : Bytes} (isHost : httpc.host = some host)
    (isPath : httpc.path = some path) (hostFree : nul ∉ host) (pathFree : nul ∉ path) :
    ∃ texts : List Bytes, getTexts httpc = texts.map some ∧ texts.flatten = getRequest host path := by
  refine ⟨[ascii "GET " ++ path ++ ascii " HTTP/1.1\r\n", ascii "Host: " ++ host ++ ascii "\r\n",
    ascii "Accept: */*\r\n", ascii "User-Agent: Tiny HTTPClient Agent\r\n", ascii "\r\n"], ?_, ?_⟩
  · simp [getTexts, requestLine, hostField, tailTexts, isHost, isPath, cstr_of_nul_free hostFree,
      cstr_of_nul_free pathFree]
  · simp [getRequest, getLines, ascii, cr, lf]

/-- The request `httpc_get` sends with the client of a URI, on any transport, is the request for its
host and path; and that is the block of four lines it is meant to be if and only if the URI has no
line end. -/
theorem get_request_of_uri (env : Platform) (classify : Option Bytes → Ipv4Check)
    {uri port : Bytes} {s : Setup} {node : HttpcMemNode} {sslInfo : Option HttpcTlsInfo}
    {client : Httpc}
    (made : (httpcInit env classify (some uri) port (some node) sslInfo s).httpc = some client)
    (live : client.Live) (empty : node.bufUsed = 0) (short : (cstr uri).length < 2 ^ 31 - 1)
    (room : (cstr uri).length + 73 < node.bufLen) (net : Transport) (w : World) :
    ∃ host path call later, client.host = some host ∧ client.path = some path ∧
      (httpcGet net client w).world.sends = w.sends ++ call :: later ∧
      call.offered = getRequest host path ∧
      ((∃ block : HeaderBlock, block.lines.length = 4 ∧ call.offered = block.bytes) ↔
        CrlfFree nul (cstr uri)) := by
  obtain ⟨tls, hostPtr, known, isHost, isPath, header⟩ := httpcInit_parts env classify made
  obtain ⟨count, length, hostFree, pathFree⟩ := crlfCount_parts short known
  obtain ⟨texts, all, whole⟩ := getTexts_eq isHost isPath hostFree pathFree
  have ready : node.Ready := ⟨empty.ge, by rw [empty]; exact Int.natCast_pos.mpr node.positive⟩
  have total : (getRequest (uriHost hostPtr) (uriPath hostPtr)).length =
      (uriHost hostPtr).length + (uriPath hostPtr).length + 73 := by
    simp [getRequest, getLines, ascii]
    omega
  obtain ⟨node', run, inUse, text, -⟩ := exec_sets header ready.inUse
    ((along_setFits_iff header ready _).mpr ⟨texts, rfl, by rw [empty, whole, total]; omega⟩)
  have noBody : ∀ body ∈ (none : Option Bytes), body.length < 2 ^ 31 := fun _ member => by cases member
  obtain ⟨call, later, sends, offered⟩ : ∃ call later,
      (httpcSendRequest net (client.withNode node') w none).world.sends = w.sends ++ call :: later ∧
        call.offered = node'.header :=
    sendRequest_first (live.withNode node') rfl inUse noBody
  have blank : node.header = [] := by
    rw [HttpcMemNode.header, empty]
    exact List.take_zero
  have request : call.offered = getRequest (uriHost hostPtr) (uriPath hostPtr) := by
    rw [offered, text, blank, whole, List.nil_append]
  refine ⟨_, _, call, later, isHost, isPath, ?_, request, ?_⟩
  · rw [httpcGet, all, run]
    exact sends
  · rw [request, getRequest_block_iff, ← crlfCount_eq_zero, ← count]
    omega

/-- An empty node of 256 bytes. -/
def emptyNode : HttpcMemNode :=
  .blank 256 (by decide) (by decide)

/-- A client for a URI whose path carries a line end and a field. -/
def injectedClient : Httpc :=
  { Httpc.plain 3 with
    host := some (ascii "93.184.216.34")
    path := some (ascii "/a HTTP/1.1\r\nX: ")
    headerNode := some emptyNode }

/-- Its request is no block of four lines. -/
theorem get_request_of_uri_injected :
    ∃ host path call later, injectedClient.host = some host ∧ injectedClient.path = some path ∧
      (httpcGet .prompt injectedClient (.opened [])).world.sends = [] ++ call :: later ∧
      call.offered = getRequest host path ∧
      ((∃ block : HeaderBlock, block.lines.length = 4 ∧ call.offered = block.bytes) ↔
        CrlfFree nul (cstr (ascii "http://93.184.216.34/a HTTP/1.1\r\nX: "))) :=
  get_request_of_uri { refusing with connect := fun _ _ => 0 } httpcIpv4AddressCheck
    (show (httpcInit { refusing with connect := fun _ _ => 0 } httpcIpv4AddressCheck
        (some (ascii "http://93.184.216.34/a HTTP/1.1\r\nX: ")) (ascii "80") (some emptyNode) none
        Setup.fresh).httpc = some injectedClient by decide +kernel)
    ⟨by decide, by decide⟩ rfl (by decide) (by decide) .prompt (.opened [])

/-! ### A range

`httpc_get_position` builds a request with a range behind the lines of the response, and does not
send it. -/

section

variable (net : Transport)

/-- What a receive call does depends on the descriptor and the TLS context of the client only. -/
theorem httpcRecv_withNode (httpc : Httpc) (node : Option HttpcMemNode) :
    httpcRecv net { httpc with headerNode := node } = httpcRecv net httpc := rfl

theorem readOneLineLoop_withNode (httpc : Httpc) (node : Option HttpcMemNode) (room : Nat)
    (last : Byte) (stored : Bytes) (w : World) :
    readOneLineLoop net { httpc with headerNode := node } room last stored w =
      readOneLineLoop net httpc room last stored w := by
  induction room generalizing last stored w with
  | zero => rfl
  | succ room ih => simp only [readOneLineLoop, httpcRecv_withNode, ih]

theorem httpcRecvResponse_withNode (httpc : Httpc) (node : Option HttpcMemNode) :
    httpcRecvResponse net { httpc with headerNode := node } = httpcRecvResponse net httpc := by
  funext w mode bufNull size
  have lines : httpcReadOneLine net { httpc with headerNode := node } =
      httpcReadOneLine net httpc := by
    funext w size
    exact readOneLineLoop_withNode net httpc node _ _ _ w
  cases mode with
  | normal => rfl
  | chunk => simp only [httpcRecvResponse, httpcChunkedRecv, lines, httpcRecv_withNode]
  | unkonw => rfl
  | max => rfl

theorem received_withNode (httpc : Httpc) (node : Option HttpcMemNode) (w : World)
    (reads : List (HttpcMode × Int)) :
    Session.received net { httpc with headerNode := node } w reads =
      Session.received net httpc w reads := by
  induction reads generalizing w with
  | nil => rfl
  | cons call reads ih => simp only [Session.received, httpcRecvResponse_withNode, ih]

/-- Header calls change the header node of a client and nothing else. -/
theorem exec_setStep_frame (httpc : Httpc) (formatted : List (Option Bytes)) :
    ∃ node, exec setStep httpc formatted = { httpc with headerNode := node } := by
  induction formatted generalizing httpc with
  | nil => exact ⟨httpc.headerNode, rfl⟩
  | cons text formatted ih =>
      have first : ∃ node, setStep httpc text = { httpc with headerNode := node } := by
        unfold setStep httpcHeaderSet
        split
        · exact ⟨httpc.headerNode, rfl⟩
        · exact ⟨_, rfl⟩
      obtain ⟨node, set⟩ := first
      obtain ⟨node', run⟩ := ih (setStep httpc text)
      exact ⟨node', by rw [exec_cons, run, set]⟩

/-- A request changes neither the host nor the path of a client. -/
theorem sendRequest_keeps_parts (httpc : Httpc) (w : World) (sendBuf : Option Bytes) :
    (httpcSendRequest net httpc w sendBuf).httpc.host = httpc.host ∧
      (httpcSendRequest net httpc w sendBuf).httpc.path = httpc.path := by
  have response (w : World) : (httpcHandleResponse net httpc w).httpc.host = httpc.host ∧
      (httpcHandleResponse net httpc w).httpc.path = httpc.path := by
    unfold httpcHandleResponse
    split
    · exact ⟨rfl, rfl⟩
    · rename_i node _
      obtain ⟨ret, code, length, chunked, -, parsed⟩ := parseHead_frame
        { httpc with
          headerNode := some (headLoop net httpc node.bufLen (httpcMemNodeReset node) w).1 }
        (headLoop net httpc node.bufLen (httpcMemNodeReset node) w).1
      dsimp only
      rw [parsed]
      exact ⟨rfl, rfl⟩
  unfold httpcSendRequest
  dsimp only
  split
  · exact ⟨rfl, rfl⟩
  · split
    · exact response _
    · split
      · exact ⟨rfl, rfl⟩
      · exact response _

theorem httpcGet_keeps_parts (httpc : Httpc) (w : World) :
    (httpcGet net httpc w).httpc.host = httpc.host ∧
      (httpcGet net httpc w).httpc.path = httpc.path := by
  obtain ⟨node, built⟩ := exec_setStep_frame httpc (getTexts httpc)
  obtain ⟨host, path⟩ := sendRequest_keeps_parts net (exec setStep httpc (getTexts httpc)) w none
  rw [httpcGet, host, path, built]
  exact ⟨rfl, rfl⟩

/-- What `httpc_get_position` leaves: the connection is where `httpc_get` left it, and of the client
only the node is changed. -/
theorem getPosition_frame (httpc : Httpc) (w : World) (start stop : Int) :
    (httpcGetPosition net httpc w start stop).world = (httpcGet net httpc w).world ∧
      ∃ node, (httpcGetPosition net httpc w start stop).httpc =
        { (httpcGet net httpc w).httpc with headerNode := node } := by
  unfold httpcGetPosition
  dsimp only
  split
  · exact ⟨rfl, _, rfl⟩
  · split
    · exact ⟨rfl, _, rfl⟩
    · obtain ⟨node, named⟩ := exec_setStep_frame
        { (httpcGet net httpc w).httpc with
          headerNode := (httpcGet net httpc w).httpc.headerNode.map httpcMemNodeReset }
        [requestLine (httpcGet net httpc w).httpc.path, hostField (httpcGet net httpc w).httpc.host]
      split
      · exact ⟨rfl, node, named⟩
      · rename_i range _
        obtain ⟨node', built⟩ := exec_setStep_frame
          { (httpcGet net httpc w).httpc with headerNode := node } (some range :: tailTexts)
        refine ⟨rfl, node', ?_⟩
        rw [named]
        exact built

/-- The request for a range of what has a host and a path. -/
def rangeRequest (host path range : Bytes) : Bytes :=
  ascii "GET " ++ path ++ ascii " HTTP/1.1\r\n" ++ ascii "Host: " ++ host ++ ascii "\r\n" ++ range ++
    ascii "Accept: */*\r\nUser-Agent: Tiny HTTPClient Agent\r\n\r\n"

/-- Where the function goes on to its end, the request for the range stands in the node. -/
theorem getPosition_builds {httpc : Httpc} {w : World} {start stop : Int} {host path : Bytes}
    (isHost : httpc.host = some host) (isPath : httpc.path = some path) (hostFree : nul ∉ host)
    (pathFree : nul ∉ path) {node : HttpcMemNode}
    (header : (httpcGet net httpc w).httpc.headerNode = some node)
    (ended : (httpcGetPosition net httpc w start stop).ret = none) :
    ∃ range, rangeField start stop = some range ∧
      ((rangeRequest host path range).length < node.bufLen →
        ∃ node', (httpcGetPosition net httpc w start stop).httpc.headerNode = some node' ∧
          node'.header = rangeRequest host path range) := by
  obtain ⟨sameHost, samePath⟩ := httpcGet_keeps_parts net httpc w
  by_cases failed : (httpcGet net httpc w).ret < 0
  · simp [httpcGetPosition, failed] at ended
  · cases found : httpcHeaderGet (httpcGet net httpc w).httpc
        (some (ascii "Accept-Ranges: bytes")) with
    | none => simp [httpcGetPosition, failed, found] at ended
    | some ptr =>
      cases isRange : rangeField start stop with
      | none => simp [httpcGetPosition, failed, found, isRange] at ended
      | some range =>
          refine ⟨range, rfl, fun room => ?_⟩
          -- The node is emptied first, so the request with the range starts at its head.
          have header' : ({ (httpcGet net httpc w).httpc with
              headerNode := (httpcGet net httpc w).httpc.headerNode.map httpcMemNodeReset } :
              Httpc).headerNode = some (httpcMemNodeReset node) := by
            rw [header]
            rfl
          have ready : (httpcMemNodeReset node).Ready :=
            ⟨le_rfl, Int.natCast_pos.mpr node.positive⟩
          obtain ⟨texts, all, whole⟩ : ∃ texts : List Bytes,
              requestLine (httpcGet net httpc w).httpc.path ::
                  hostField (httpcGet net httpc w).httpc.host :: some range :: tailTexts =
                texts.map some ∧ texts.flatten = rangeRequest host path range :=
            ⟨[ascii "GET " ++ path ++ ascii " HTTP/1.1\r\n",
                ascii "Host: " ++ host ++ ascii "\r\n", range, ascii "Accept: */*\r\n",
                ascii "User-Agent: Tiny HTTPClient Agent\r\n", ascii "\r\n"],
              by simp [requestLine, hostField, tailTexts, sameHost, samePath, isHost, isPath,
                cstr_of_nul_free hostFree, cstr_of_nul_free pathFree],
              by simp [rangeRequest, ascii]⟩
          obtain ⟨node', run, -, text, -⟩ := exec_sets header' ready.inUse
            ((along_setFits_iff header' ready _).mpr ⟨texts, rfl, by
              rw [whole]
              show (0 : Int) + _ < (node.bufLen : Int)
              omega⟩)
          have blank : (httpcMemNodeReset node).header = [] := List.take_zero
          refine ⟨node', ?_, by rw [text, whole, blank, List.nil_append]⟩
          -- the code sets the first two lines in one place and the rest in another
          have joined (client : Httpc) (first second : Option Bytes) (later : List (Option Bytes)) :
              exec setStep (exec setStep client [first, second]) later =
                exec setStep client (first :: second :: later) := rfl
          simp only [httpcGetPosition, if_neg failed, found, isRange]
          rw [joined, all, run]
          rfl

/-- `httpc_get_position` does on the connection what `httpc_get` does and no more: the request for
the range is built in the node, but it is never sent, and whatever the caller reads afterwards is
what it would have read behind the plain request. -/
theorem range_request_never_sent (httpc : Httpc) (w : World) (start stop : Int) :
    (httpcGetPosition net httpc w start stop).world = (httpcGet net httpc w).world ∧
      (∀ reads, Session.received net (httpcGetPosition net httpc w start stop).httpc
          (httpcGetPosition net httpc w start stop).world reads =
        Session.received net (httpcGet net httpc w).httpc (httpcGet net httpc w).world reads) ∧
      ∀ host path node, httpc.host = some host → httpc.path = some path → nul ∉ host → nul ∉ path →
        (httpcGet net httpc w).httpc.headerNode = some node →
        (httpcGetPosition net httpc w start stop).ret = none →
        ∃ range, rangeField start stop = some range ∧
          ((rangeRequest host path range).length < node.bufLen →
            ∃ node', (httpcGetPosition net httpc w start stop).httpc.headerNode = some node' ∧
              node'.header = rangeRequest host path range) := by
  obtain ⟨world, node, client⟩ := getPosition_frame net httpc w start stop
  refine ⟨world, fun reads => ?_, fun host path node isHost isPath hostFree pathFree header ended =>
    getPosition_builds net isHost isPath hostFree pathFree header ended⟩
  rw [world, client, received_withNode]

end

end Hfc
