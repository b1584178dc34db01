/-
Module: Hfc.Proofs.TlsSetup
Layer: Proofs
Purpose: When a client that was set up with TLS has a TLS context. `httpc_tls_init` ends in one of
  three ways: it fails in front of the handshake; the handshake succeeds; or it fails, and the
  verify result takes the place of what the handshake returned. Later calls keep the context as
  setup left it.
Imports: Hfc.Core.Client, Hfc.Core.Session, Hfc.Proofs.ChunkCall, Hfc.Proofs.Dialling,
  Hfc.Proofs.ResponseHead
Main exports: ReachesHandshake, httpcTlsInit_early, httpcTlsInit_done, httpcTlsInit_verify,
  TlsSound, tlsSound_iff, SameBlocks, step_sameBlocks, TlsUp, step_linkUp, InitSecure,
  tls_fails_closed_iff
-/
import Hfc.Core.Client
import Hfc.Core.Session
import Hfc.Proofs.ChunkCall
import Hfc.Proofs.Dialling
import Hfc.Proofs.ResponseHead

namespace Hfc

open ByteText EventRun Numeral

variable (env : Platform) (sslInfo : Option HttpcTlsInfo)

/-! ### The results of the TLS library

The list of calls up to the handshake. They are made in this order whatever the earlier ones
returned, but for the two that parse. -/

/-- The call of a function of the TLS library. -/
def Platform.callOf (fn : MbedtlsFn) : MbedtlsCall :=
  { fn := fn, ret := env.mbedtls fn }

/-- The functions that configure the context. -/
def configureFns : List MbedtlsFn :=
  [.sslSetHostname, .sslConfigDefaults, .ctrDrbgSeed, .sslSetup]

/-- The functions that parse what the caller has passed. -/
def parseFns : List MbedtlsFn :=
  ((sslInfo.bind (·.cert)).map fun _ => .x509CrtParseCert).toList ++
    ((sslInfo.bind (·.pk)).map fun _ => .x509CrtParsePk).toList

/-- The context is there and what the caller has passed can be parsed, when `callocs` allocations
were made before. -/
def ReachesHandshake (callocs : Nat) : Prop :=
  env.calloc callocs = true ∧ ∀ fn ∈ parseFns sslInfo, env.mbedtls fn = 0

@[simp] theorem tlsCall_ret (s : Setup) (fn : MbedtlsFn) :
    (env.tlsCall s fn).1 = env.mbedtls fn := rfl

@[simp] theorem tlsCall_tlsCalls (s : Setup) (fn : MbedtlsFn) :
    (env.tlsCall s fn).2.tlsCalls = s.tlsCalls ++ [env.callOf fn] := rfl

@[simp] theorem tlsConfigure_tlsCalls (s : Setup) :
    (tlsConfigure env s).tlsCalls = s.tlsCalls ++ configureFns.map env.callOf := by
  simp [tlsConfigure, configureFns]

theorem tlsParse_ret (fn : MbedtlsFn) (text : Option Bytes) (s : Setup) :
    (tlsParse env fn text s).1 = 0 ↔ ∀ f ∈ (text.map fun _ => fn).toList, env.mbedtls f = 0 := by
  cases text with
  | none => simp [tlsParse]
  | some _ => simp [tlsParse]

@[simp] theorem tlsParse_tlsCalls (fn : MbedtlsFn) (text : Option Bytes) (s : Setup) :
    (tlsParse env fn text s).2.tlsCalls =
      s.tlsCalls ++ (text.map fun _ => fn).toList.map env.callOf := by
  cases text with
  | none => simp [tlsParse]
  | some _ => simp [tlsParse]

@[simp] theorem tlsReport_tlsCalls (ret : Int) (s : Setup) :
    (tlsReport env ret s).tlsCalls = s.tlsCalls := by
  unfold tlsReport
  split <;> simp

@[simp] theorem tlsExit_tlsCalls (ret : Int) (httpc : Httpc) (s : Setup) :
    (tlsExit ret httpc s).setup.tlsCalls = s.tlsCalls := by
  unfold tlsExit httpcTlsDeinit
  cases httpc.mbedtlsCtx with
  | none => rfl
  | some ctx =>
      simp only
      split <;> simp

/-- What has been done when the handshake is called. -/
def beforeHandshake (s : Setup) : Setup :=
  let configured := tlsConfigure env (env.acquire s .mbedtlsCtx).2
  let crt := tlsParse env .x509CrtParseCert (sslInfo.bind (·.cert)) configured
  (tlsParse env .x509CrtParsePk (sslInfo.bind (·.pk)) crt.2).2

theorem beforeHandshake_tlsCalls (s : Setup) :
    (beforeHandshake env sslInfo s).tlsCalls =
      s.tlsCalls ++ (configureFns ++ parseFns sslInfo).map env.callOf := by
  simp [beforeHandshake, parseFns]

/-! ### How `httpc_tls_init` ends

Three ends: in front of the handshake, which is a failure; behind a handshake that works; and behind
one that fails, where the verify result is returned. -/

variable {env sslInfo} (httpc : Httpc) {s : Setup}

/-- In front of the handshake it fails. -/
theorem httpcTlsInit_early (early : ¬ ReachesHandshake env sslInfo s.callocs) :
    (httpcTlsInit env httpc sslInfo s).ret ≠ httpcErrOk := by
  unfold httpcTlsInit
  cases block : env.calloc s.callocs with
  | false => simp [block, tlsExit, httpcTlsDeinit]
  | true =>
      simp only [Platform.acquire_ok, block, Bool.true_eq_false, if_false]
      by_cases crt : (tlsParse env .x509CrtParseCert (sslInfo.bind (·.cert))
          (tlsConfigure env (env.acquire s .mbedtlsCtx).2)).1 = 0
      · rw [if_neg (not_not.mpr crt)]
        split
        · rename_i fails
          exact fails
        · rename_i pk
          refine absurd ⟨block, ?_⟩ early
          intro fn called
          rcases List.mem_append.mp called with inCert | inPk
          · exact (tlsParse_ret env _ _ _).mp crt fn inCert
          · exact (tlsParse_ret env _ _ _).mp (not_not.mp pk) fn inPk
      · rw [if_pos crt]
        exact crt

/-- The rest of the function, from the handshake on. -/
theorem httpcTlsInit_reaches (reaches : ReachesHandshake env sslInfo s.callocs) :
    httpcTlsInit env httpc sslInfo s =
      let shake := env.tlsCall (beforeHandshake env sslInfo s) .sslHandshake
      let ctx := { netFd := httpc.socket, handshakeDone := decide (shake.1 = 0) }
      let client := { httpc with mbedtlsCtx := some ctx }
      if shake.1 = 0 then { ret := httpcErrOk, httpc := client, setup := shake.2 }
      else
        let verify := env.tlsCall shake.2 .sslGetVerifyResult
        tlsExit verify.1 client (tlsReport env verify.1 verify.2) := by
  obtain ⟨block, parses⟩ := reaches
  have crt : (tlsParse env .x509CrtParseCert (sslInfo.bind (·.cert))
      (tlsConfigure env (env.acquire s .mbedtlsCtx).2)).1 = 0 :=
    (tlsParse_ret env _ _ _).mpr fun fn called => parses fn (List.mem_append_left _ called)
  have pk : ∀ before, (tlsParse env .x509CrtParsePk (sslInfo.bind (·.pk)) before).1 = 0 :=
    fun before => (tlsParse_ret env _ _ before).mpr
      fun fn called => parses fn (List.mem_append_right _ called)
  simp only [httpcTlsInit, Platform.acquire_ok, block, Bool.true_eq_false, if_false, crt, pk,
    ne_eq, not_true_eq_false]
  rfl

/-- A handshake that succeeds leaves a context with a completed handshake. -/
theorem httpcTlsInit_done (reaches : ReachesHandshake env sslInfo s.callocs)
    (works : env.mbedtls .sslHandshake = 0) :
    httpcTlsInit env httpc sslInfo s =
      { ret := httpcErrOk
        httpc :=
          { httpc with mbedtlsCtx := some { netFd := httpc.socket, handshakeDone := true } }
        setup := (env.tlsCall (beforeHandshake env sslInfo s) .sslHandshake).2 } := by
  simp [httpcTlsInit_reaches httpc reaches, works]

/-- After a handshake that fails there is no context, and the verify result is returned. -/
theorem httpcTlsInit_verify (reaches : ReachesHandshake env sslInfo s.callocs)
    (fails : env.mbedtls .sslHandshake ≠ 0) :
    (httpcTlsInit env httpc sslInfo s).ret = env.mbedtls .sslGetVerifyResult ∧
      (httpcTlsInit env httpc sslInfo s).httpc = { httpc with mbedtlsCtx := none } ∧
      (httpcTlsInit env httpc sslInfo s).setup.tlsCalls =
        (beforeHandshake env sslInfo s).tlsCalls ++
          [env.callOf .sslHandshake, env.callOf .sslGetVerifyResult] := by
  rw [httpcTlsInit_reaches httpc reaches]
  simp only [tlsCall_ret, fails, if_false]
  refine ⟨rfl, rfl, ?_⟩
  simp

/-! ### What success means

Success is sound when the handshake was called, and it and every call in front of it returned zero.
The code looks at some of these results only. -/

variable (env sslInfo) (s)

/-- The calls of the TLS library that were made from `s` on. -/
def Setup.tlsCallsSince (after s : Setup) : List MbedtlsCall :=
  after.tlsCalls.drop s.tlsCalls.length

/-- `httpc_tls_init` succeeds only if it called `mbedtls_ssl_handshake` and this and every call
before it returned zero. -/
def TlsSound : Prop :=
  let done := httpcTlsInit env httpc sslInfo s
  done.ret = httpcErrOk →
    (∃ call ∈ done.setup.tlsCallsSince s, call.fn = .sslHandshake) ∧
      ∀ call ∈ done.setup.tlsCallsSince s, call.fn ≠ .sslGetVerifyResult → call.ret = 0

/-- Where the handshake is called, it and the calls that configure the context return zero, or it
fails and the verify result is not zero. -/
def ResultsTell (callocs : Nat) : Prop :=
  ReachesHandshake env sslInfo callocs →
    (env.mbedtls .sslHandshake = 0 ∧ ∀ fn ∈ configureFns, env.mbedtls fn = 0) ∨
      (env.mbedtls .sslHandshake ≠ 0 ∧ env.mbedtls .sslGetVerifyResult ≠ 0)

/-- The calls up to the handshake, in their order. -/
def upToHandshake : List MbedtlsFn :=
  configureFns ++ parseFns sslInfo ++ [.sslHandshake]

theorem sslHandshake_mem : .sslHandshake ∈ upToHandshake sslInfo := by
  simp [upToHandshake]

/-- The verify result is not asked for in front of the handshake. -/
theorem sslGetVerifyResult_notMem : .sslGetVerifyResult ∉ upToHandshake sslInfo := by
  rcases sslInfo with _ | ⟨cert, pk⟩
  · simp [upToHandshake, configureFns, parseFns]
  · cases cert <;> cases pk <;> simp [upToHandshake, configureFns, parseFns]

theorem tlsSound_iff : TlsSound env sslInfo httpc s ↔ ResultsTell env sslInfo s.callocs := by
  by_cases reaches : ReachesHandshake env sslInfo s.callocs
  · simp only [ResultsTell, reaches, true_imp_iff]
    by_cases works : env.mbedtls .sslHandshake = 0
    -- All calls were made, so success tells of each of them what it says.
    · have made : (httpcTlsInit env httpc sslInfo s).setup.tlsCallsSince s =
          (upToHandshake sslInfo).map env.callOf := by
        simp [Setup.tlsCallsSince, upToHandshake, httpcTlsInit_done httpc reaches works,
          beforeHandshake_tlsCalls]
      have succeeds : (httpcTlsInit env httpc sslInfo s).ret = httpcErrOk := by
        rw [httpcTlsInit_done httpc reaches works]
      simp only [TlsSound, made, succeeds, true_imp_iff, works, ne_eq, not_true_eq_false, false_and,
        or_false, true_and]
      constructor
      · rintro ⟨-, zeros⟩ fn configures
        have member : fn ∈ upToHandshake sslInfo := by simp [upToHandshake, configures]
        refine zeros (env.callOf fn) (List.mem_map_of_mem member) ?_
        rintro rfl
        exact sslGetVerifyResult_notMem sslInfo member
      · intro zeros
        refine ⟨⟨_, List.mem_map_of_mem (sslHandshake_mem sslInfo), rfl⟩, ?_⟩
        intro call member _
        obtain ⟨fn, called, rfl⟩ := List.mem_map.mp member
        rcases List.mem_append.mp called with before | last
        · rcases List.mem_append.mp before with configures | parses
          · exact zeros fn configures
          · exact reaches.2 fn parses
        · cases List.mem_singleton.mp last
          exact works
    -- The handshake failed, and the verify result decides what is returned.
    · obtain ⟨ret, -, calls⟩ := httpcTlsInit_verify httpc reaches works
      have handshake : env.callOf .sslHandshake ∈
          (httpcTlsInit env httpc sslInfo s).setup.tlsCallsSince s := by
        simp [Setup.tlsCallsSince, calls, beforeHandshake_tlsCalls]
      simp only [works, false_and, ne_eq, not_false_eq_true, true_and, false_or]
      constructor
      · intro sound zero
        exact works ((sound (ret.trans zero)).2 _ handshake (by simp [Platform.callOf]))
      · intro nonzero succeeds
        exact absurd (ret.symm.trans succeeds) nonzero
  · have fails := httpcTlsInit_early httpc reaches
    exact ⟨fun _ reached => absurd reached reaches, fun _ succeeds => absurd succeeds fails⟩

/-! ### Later calls

Whether a client has a TLS context does not change in any later call, so a run of them is either all
over TLS or stops at the first use of a pointer that is not there. -/

section Calls

variable {net : Transport} {httpc : Httpc} {w : World}

/-- Two clients use the same descriptor in the same way. -/
structure SameLink (before after : Httpc) : Prop where
  socket : after.socket = before.socket
  enableMbedtls : after.enableMbedtls = before.enableMbedtls
  mbedtlsCtx : after.mbedtlsCtx = before.mbedtlsCtx

/-- They have the same blocks and the same descriptor. -/
structure SameBlocks (before after : Httpc) : Prop extends SameLink before after where
  host : after.host = before.host
  path : after.path = before.path

theorem SameBlocks.refl (httpc : Httpc) : SameBlocks httpc httpc := ⟨⟨rfl, rfl, rfl⟩, rfl, rfl⟩

theorem SameBlocks.trans {first middle last : Httpc} (front : SameBlocks first middle)
    (back : SameBlocks middle last) : SameBlocks first last where
  socket := back.socket.trans front.socket
  enableMbedtls := back.enableMbedtls.trans front.enableMbedtls
  mbedtlsCtx := back.mbedtlsCtx.trans front.mbedtlsCtx
  host := back.host.trans front.host
  path := back.path.trans front.path

/-- Reading a response keeps the blocks and the descriptor. -/
theorem handleResponse_sameBlocks (net : Transport) (httpc : Httpc) (w : World) :
    SameBlocks httpc (httpcHandleResponse net httpc w).httpc := by
  unfold httpcHandleResponse
  cases header : httpc.headerNode with
  | none => exact .refl httpc
  | some node =>
      dsimp only
      generalize headLoop net httpc node.bufLen (httpcMemNodeReset node) w = read
      obtain ⟨ret, code, length, chunked, -, parsed⟩ :=
        parseHead_frame { httpc with headerNode := some read.1 } read.1
      rw [parsed]
      exact ⟨⟨rfl, rfl, rfl⟩, rfl, rfl⟩

/-- So does a whole request. -/
theorem sendRequest_sameBlocks (net : Transport) (httpc : Httpc) (w : World)
    (sendBuf : Option Bytes) : SameBlocks httpc (httpcSendRequest net httpc w sendBuf).httpc := by
  unfold httpcSendRequest
  dsimp only
  split
  · exact .refl httpc
  · cases sendBuf with
    | none => exact handleResponse_sameBlocks net httpc _
    | some body =>
        dsimp only
        split
        · exact .refl httpc
        · exact handleResponse_sameBlocks net httpc _

/-- And every single call. -/
theorem step_sameBlocks (net : Transport) (s : Session) (call : ApiCall) :
    SameBlocks s.httpc (s.step net call).httpc := by
  cases call with
  | lendNode node => exact ⟨⟨rfl, rfl, rfl⟩, rfl, rfl⟩
  | headerSet formatted =>
      show SameBlocks s.httpc (setStep s.httpc formatted)
      unfold setStep httpcHeaderSet
      cases s.httpc.headerNode with
      | none => exact .refl s.httpc
      | some node => exact ⟨⟨rfl, rfl, rfl⟩, rfl, rfl⟩
  | sendRequest sendBuf => exact sendRequest_sameBlocks net s.httpc s.world sendBuf
  | recvResponse mode bufNull size => exact .refl s.httpc
  | send buf size => exact .refl s.httpc
  | recv bufNull size => exact .refl s.httpc

/-- On a live client a send dereferences no NULL pointer. -/
theorem httpcSend_nullDeref (live : httpc.Live) (buf : Option Bytes) (size : Int) :
    (httpcSend net httpc w buf size).world.nullDeref = w.nullDeref := by
  obtain ⟨socket, context⟩ := live.passes
  cases buf with
  | none => rfl
  | some mem => simp [httpcSend, socket, context, Transport.transmit]

/-- Nor does a receive. -/
theorem httpcRecv_nullDeref (live : httpc.Live) (bufNull : Bool) (size : Int) :
    (httpcRecv net httpc w bufNull size).world.nullDeref = w.nullDeref := by
  obtain ⟨socket, context⟩ := live.passes
  cases bufNull with
  | true => rfl
  | false =>
      have received := (receive_spec net w (toSizeT size)).1.nullDeref
      simpa [httpcRecv, socket, context] using received

/-- Nor does reading a response. -/
theorem handleResponse_nullDeref (live : httpc.Live) :
    (httpcHandleResponse net httpc w).world.nullDeref = w.nullDeref := by
  unfold httpcHandleResponse
  cases header : httpc.headerNode with
  | none => rfl
  | some node =>
      obtain ⟨⟨k, advances⟩, -⟩ := headLoop_reset_advances live net node w
      exact advances.nullDeref

/-- Nor does a whole request. -/
theorem sendRequest_nullDeref (live : httpc.Live) (sendBuf : Option Bytes) :
    (httpcSendRequest net httpc w sendBuf).world.nullDeref = w.nullDeref := by
  have sent : (httpcSendHeader net httpc w).world.nullDeref = w.nullDeref := by
    unfold httpcSendHeader
    cases httpc.headerNode with
    | none => rfl
    | some node => exact httpcSend_nullDeref live _ _
  unfold httpcSendRequest
  generalize httpcSendHeader net httpc w = header at sent
  simp only
  split
  · exact sent
  · cases sendBuf with
    | none => exact (handleResponse_nullDeref live).trans sent
    | some body =>
        have sentToo :
            (httpcSendData net httpc header.world (some body) body.length).world.nullDeref =
              header.world.nullDeref := httpcSend_nullDeref live (some body) body.length
        simp only
        generalize httpcSendData net httpc header.world (some body) body.length = data at sentToo
        split
        · exact sentToo.trans sent
        · exact (handleResponse_nullDeref live).trans (sentToo.trans sent)

/-- And every call that receives a body. -/
theorem recvResponse_nullDeref (live : httpc.Live) (mode : HttpcMode) (bufNull : Bool)
    (size : Int) :
    (httpcRecvResponse net httpc w mode bufNull size).world.nullDeref = w.nullDeref := by
  cases mode with
  | normal => exact httpcRecv_nullDeref live bufNull size
  | chunk =>
      cases bufNull with
      | true => rfl
      | false =>
          obtain ⟨k, advances, -⟩ := chunkCall_spec live net w size
          exact advances.nullDeref
  | unkonw => rfl
  | max => rfl

/-- A single call on a live client dereferences no NULL pointer. -/
theorem step_nullDeref {s : Session} (live : s.httpc.Live) (call : ApiCall) :
    (s.step net call).world.nullDeref = s.world.nullDeref := by
  cases call with
  | lendNode node => rfl
  | headerSet formatted => rfl
  | sendRequest sendBuf => exact sendRequest_nullDeref live sendBuf
  | recvResponse mode bufNull size => exact recvResponse_nullDeref live mode bufNull size
  | send buf size => exact httpcSend_nullDeref live buf size
  | recv bufNull size => exact httpcRecv_nullDeref live bufNull size

end Calls

/-- The client has a TLS context with a completed handshake, and no call has dereferenced a NULL
one. -/
def TlsUp (s : Session) : Prop :=
  (∃ ctx ∈ s.httpc.mbedtlsCtx, ctx.handshakeDone = true) ∧ s.world.nullDeref = false

/-- The client has an open descriptor, too. -/
def LinkUp (s : Session) : Prop :=
  0 ≤ s.httpc.socket ∧ TlsUp s

theorem LinkUp.live {s : Session} (up : LinkUp s) : s.httpc.Live := by
  obtain ⟨valid, ⟨ctx, present, -⟩, -⟩ := up
  exact ⟨valid, fun _ => by rw [Option.mem_def.mp present]; rfl⟩

/-- A single call keeps it so. -/
theorem step_linkUp (net : Transport) {s : Session} (up : LinkUp s) (call : ApiCall) :
    LinkUp (s.step net call) := by
  have link := step_sameBlocks net s call
  have kept : (s.step net call).world.nullDeref = s.world.nullDeref :=
    step_nullDeref up.live call
  obtain ⟨valid, context, noDeref⟩ := up
  refine ⟨?_, ?_, ?_⟩
  · rwa [link.socket]
  · rwa [link.mbedtlsCtx]
  · rw [kept, noDeref]

/-- Every run of calls keeps it so. -/
theorem calls_linkUp (net : Transport) {s : Session} (up : LinkUp s) (calls : List ApiCall) :
    LinkUp (exec (Session.step net) s calls) :=
  invariant_exec LinkUp (fun _ call up => step_linkUp net up call) up calls

/-! ### Clients with TLS

`httpc_init` for a URI with TLS, and the condition under which what it returns is a client with a
finished handshake. -/

/-- The URI asks for a connection with TLS. -/
def TlsUri (uri : Option Bytes) : Prop :=
  ∃ text ∈ uri, ascii "https://" <+: cstr text

variable (classify : Option Bytes → Ipv4Check) (node : Option HttpcMemNode)

/-- A client that `httpc_init` returns for a URI with TLS has a TLS context with a completed
handshake after every run of calls, and no call dereferences a NULL context. -/
def InitSecure (uri : Option Bytes) (port : Bytes) (s : Setup) : Prop :=
  TlsUri uri → ∀ client ∈ (httpcInit env classify uri port node sslInfo s).httpc,
    ∀ net stream calls, TlsUp (exec (Session.step net)
      { httpc := client, world := World.opened stream } calls)

/-- `httpc_init` gets as far as `httpc_tls_init`. -/
def ReachesTls (uri : Option Bytes) (port : Bytes) (s : Setup) : Prop :=
  TlsUri uri ∧ env.calloc s.callocs = true ∧ 0 ≤ env.socket ∧
    (initParsed env classify uri port s).ret = httpcErrOk

/-- The outcome of `httpc_tls_init` in `httpc_init`. -/
def initTls (uri : Option Bytes) (port : Bytes) (s : Setup) : SetupOutcome :=
  httpcTlsInit env (initParsed env classify uri port s).httpc sslInfo
    (initParsed env classify uri port s).setup

/-- The scheme of a URI that asks for TLS. -/
theorem TlsUri.scheme {uri : Option Bytes} (secure : TlsUri uri) :
    ∃ hostPtr, schemeOf uri = some (true, hostPtr) := by
  obtain ⟨text, rfl, starts⟩ := secure
  have other : ¬ ascii "http://" <+: cstr text := fun plain =>
    absurd (List.prefix_of_prefix_length_le plain starts (by decide)) (by decide)
  refine ⟨(cstr text).drop 8, ?_⟩
  rw [schemeOf, Option.bind_some, uriScheme,
    if_neg (fun starts => other (List.isPrefixOf_iff_prefix.mp starts)),
    if_pos (List.isPrefixOf_iff_prefix.mpr starts)]

/-- Only such a URI has the scheme with TLS. -/
theorem tlsUri_of_scheme {uri : Option Bytes} {hostPtr : Bytes}
    (scheme : schemeOf uri = some (true, hostPtr)) : TlsUri uri := by
  cases uri with
  | none => simp [schemeOf] at scheme
  | some text =>
      rw [schemeOf, Option.bind_some, uriScheme] at scheme
      split at scheme
      · simp at scheme
      · split at scheme
        · rename_i starts
          exact ⟨text, rfl, List.isPrefixOf_iff_prefix.mp starts⟩
        · cases scheme

/-- The client that `httpc_init` hands to `httpc_tls_init`. -/
theorem initParsed_client {uri : Option Bytes} {port : Bytes} {s : Setup}
    (reaches : ReachesTls env classify uri port s) :
    (initParsed env classify uri port s).httpc.socket = env.socket ∧
      (initParsed env classify uri port s).httpc.enableMbedtls = true := by
  obtain ⟨secure, -, -, done⟩ := reaches
  obtain ⟨hostPtr, scheme⟩ := secure.scheme
  obtain ⟨tls, hostPtr', scheme', client⟩ := httpcParseUri_client env classify done
  cases scheme.symm.trans scheme'
  rw [initParsed, client]
  exact ⟨rfl, rfl⟩

/-- `httpc_init` from `httpc_tls_init` on. -/
theorem httpcInit_reaches {uri : Option Bytes} {port : Bytes} {s : Setup}
    (reaches : ReachesTls env classify uri port s) :
    httpcInit env classify uri port node sslInfo s =
      let tls := initTls env sslInfo classify uri port s
      if tls.ret ≠ 0 then initFail tls
      else { httpc := some { tls.httpc with headerNode := node }, setup := tls.setup } := by
  have withTls := (initParsed_client env classify reaches).2
  obtain ⟨-, block, valid, done⟩ := reaches
  have passes : ¬ (initParsed env classify uri port s).ret < httpcErrOk := by simp [done]
  simp only [httpcInit, block, Bool.true_eq_false, if_false, not_lt.mpr valid, passes, withTls,
    if_true]
  rfl

/-- It returns the client if and only if that function does not fail. -/
theorem httpcInit_tls {uri : Option Bytes} {port : Bytes} {s : Setup}
    (reaches : ReachesTls env classify uri port s) :
    ((initTls env sslInfo classify uri port s).ret = httpcErrOk →
        (httpcInit env classify uri port node sslInfo s).httpc =
          some { (initTls env sslInfo classify uri port s).httpc with headerNode := node }) ∧
      ((initTls env sslInfo classify uri port s).ret ≠ httpcErrOk →
        (httpcInit env classify uri port node sslInfo s).httpc = none) := by
  rw [httpcInit_reaches env sslInfo classify node reaches]
  constructor
  · intro zero
    exact congrArg InitResult.httpc (if_neg (not_not.mpr zero))
  · intro nonzero
    exact congrArg InitResult.httpc (if_pos nonzero)

/-- Where it does not get to TLS there is no client. -/
theorem httpcInit_no_tls {uri : Option Bytes} {port : Bytes} {s : Setup} (secure : TlsUri uri)
    (early : ¬ ReachesTls env classify uri port s) :
    (httpcInit env classify uri port node sslInfo s).httpc = none := by
  by_cases ready : env.calloc s.callocs = true ∧ 0 ≤ env.socket
  · obtain ⟨block, valid⟩ := ready
    have fails : (initParsed env classify uri port s).ret < httpcErrOk :=
      (httpcParseUri_ret env classify _ uri port _).resolve_left
        fun done => early ⟨secure, block, valid, done⟩
    simp only [httpcInit, block, Bool.true_eq_false, if_false, not_lt.mpr valid, fails, if_true]
    rfl
  · exact httpcInit_none env classify node sslInfo port ready

theorem initSecure_iff (uri : Option Bytes) (port : Bytes) (s : Setup) :
    InitSecure env sslInfo classify node uri port s ↔
      (ReachesTls env classify uri port s →
        ReachesHandshake env sslInfo (initParsed env classify uri port s).setup.callocs →
          env.mbedtls .sslHandshake = 0 ∨ env.mbedtls .sslGetVerifyResult ≠ 0) := by
  constructor
  · intro secure reachesTls reaches
    by_contra bad
    obtain ⟨fails, zero⟩ := not_or.mp bad
    obtain ⟨ret, gone, -⟩ := httpcTlsInit_verify _ reaches fails
    have client := (httpcInit_tls env sslInfo classify node reachesTls).1
      (ret.trans (not_not.mp zero))
    rw [initTls, gone] at client
    obtain ⟨⟨ctx, present, -⟩, -⟩ := secure reachesTls.1 _ client .prompt [] []
    cases present
  · intro tells secure client returned net stream calls
    have reachesTls : ReachesTls env classify uri port s := by
      by_contra early
      rw [httpcInit_no_tls env sslInfo classify node secure early] at returned
      cases returned
    obtain ⟨success, failure⟩ := httpcInit_tls env sslInfo classify node reachesTls
    have done : (initTls env sslInfo classify uri port s).ret = httpcErrOk := by
      by_contra fails
      rw [failure fails] at returned
      cases returned
    have reaches :
        ReachesHandshake env sslInfo (initParsed env classify uri port s).setup.callocs := by
      by_contra early
      exact httpcTlsInit_early _ early done
    have works : env.mbedtls .sslHandshake = 0 := by
      by_contra fails
      have zero := (httpcTlsInit_verify _ reaches fails).1.symm.trans done
      exact (tells reachesTls reaches).elim fails fun nonzero => nonzero zero
    rw [success done, initTls, httpcTlsInit_done _ reaches works] at returned
    cases returned
    refine (calls_linkUp net ?_ calls).2
    refine ⟨?_, ⟨_, rfl, rfl⟩, rfl⟩
    show 0 ≤ (initParsed env classify uri port s).httpc.socket
    rw [(initParsed_client env classify reachesTls).1]
    exact reachesTls.2.2.1

/-- Whatever the calls of the TLS library return: a success of `httpc_tls_init` means that all of
them up to the handshake returned zero, and a client of `httpc_init` with TLS has a context with a
completed handshake in every state its calls lead to, exactly where, if the handshake is called, its
failure shows in the verify result and, for the first half, its success comes with that of the calls
that configure the context. -/
theorem tls_fails_closed_iff (httpc : Httpc) (uri : Option Bytes) (port : Bytes) (s : Setup) :
    (TlsSound env sslInfo httpc s ↔ ResultsTell env sslInfo s.callocs) ∧
      (InitSecure env sslInfo classify node uri port s ↔
        (ReachesTls env classify uri port s →
          ReachesHandshake env sslInfo (initParsed env classify uri port s).setup.callocs →
            env.mbedtls .sslHandshake = 0 ∨ env.mbedtls .sslGetVerifyResult ≠ 0)) :=
  ⟨tlsSound_iff env sslInfo httpc s, initSecure_iff env sslInfo classify node uri port s⟩

/-- A server that can be connected to, but with which the handshake times out before it sent a
certificate, so that there is nothing to verify. -/
def silentServer : Platform where
  calloc _ := true
  socket := 3
  getaddrinfo _ _ :=
    (0, [{ family := .inet, addr := { addr := [93, 184, 216, 34], port := 443 } }])
  connect _ _ := 0
  mbedtls
    | .sslHandshake => -26624
    | _ => 0

/-- The address of that server. -/
def silentUri : Option Bytes :=
  some (ascii "https://example.com/")

/-- `httpc_tls_init` reports success for the handshake that failed, `httpc_init` returns a client
without a TLS context, and its first request dereferences a NULL pointer. -/
theorem failed_handshake_is_a_client :
    ¬ TlsSound silentServer none (Httpc.plain 3) Setup.fresh ∧
      ¬ InitSecure silentServer none httpcIpv4AddressCheck (some smallNode) silentUri
        (ascii "443") Setup.fresh ∧
      ∃ client ∈ (httpcInit silentServer httpcIpv4AddressCheck silentUri (ascii "443")
          (some smallNode) none Setup.fresh).httpc,
        client.mbedtlsCtx = none ∧
          (Session.step .prompt { httpc := client, world := World.opened [] }
            (.sendRequest none)).world.nullDeref = true := by
  have client : ∃ client ∈ (httpcInit silentServer httpcIpv4AddressCheck silentUri (ascii "443")
      (some smallNode) none Setup.fresh).httpc,
      client.mbedtlsCtx = none ∧
        (Session.step .prompt { httpc := client, world := World.opened [] }
          (.sendRequest none)).world.nullDeref = true := by decide +kernel
  refine ⟨?_, ?_, client⟩
  · intro sound
    exact absurd ((sound (by decide +kernel)).2 (silentServer.callOf .sslHandshake)
      (by decide +kernel) (by decide)) (by decide)
  · intro secure
    obtain ⟨client, returned, -, nullDeref⟩ := client
    have up := (secure ⟨_, rfl, by decide +kernel⟩ client returned .prompt [] [.sendRequest none]).2
    exact absurd (up.symm.trans nullDeref) (by decide)

end Hfc
