/-
Module: Hfc.Core.Client
Layer: Core
Purpose: The setup of a client: `httpc_tls_init` with the results of the TLS library,
  `httpc_tls_deinit`, `httpc_init`, and `httpc_deinit`.
Imports: Hfc.Core.Uri
Main exports: httpcTlsDeinit, tlsConfigure, tlsParse, tlsReport, tlsExit, httpcTlsInit, InitResult,
  initOpened, initParsed, initFail, httpcInit, httpcDeinit
-/
import Hfc.Core.Uri

namespace Hfc

open ByteText

/-! ### TLS

`httpc_tls_init` with every call of the TLS library in the order of the source, its one exit, and
`httpc_tls_deinit`. What the library answers comes from `Platform`. -/

/-- `httpc_tls_deinit`; `mbedtls_net_free` closes the descriptor of the context unless it is -1. -/
def httpcTlsDeinit (httpc : Httpc) (s : Setup) : Httpc × Setup :=
  match httpc.mbedtlsCtx with
  | none => (httpc, s)
  | some ctx =>
      let closed := if ctx.netFd = -1 then s else s.release (.descriptor ctx.netFd)
      ({ httpc with mbedtlsCtx := none }, closed.release .mbedtlsCtx)

/-- The calls that configure the context. Their results are put into `ret` one over the other and
nothing reads them. -/
def tlsConfigure (env : Platform) (s : Setup) : Setup :=
  [.sslSetHostname, .sslConfigDefaults, .ctrDrbgSeed, .sslSetup].foldl
    (fun s fn => (env.tlsCall s fn).2) s

/-- The parse call for a text the caller may have passed; zero when there is none. -/
def tlsParse (env : Platform) (fn : MbedtlsFn) (text : Option Bytes) (s : Setup) : Int × Setup :=
  match text with
  | none => (0, s)
  | some _ => env.tlsCall s fn

/-- The block for the text that explains a verify result. -/
def tlsReport (env : Platform) (ret : Int) (s : Setup) : Setup :=
  if ret ≠ 0 then
    let buf := env.acquire s .verifyText
    buf.2.safeFree buf.1 .verifyText
  else s

/-- The `exit` of `httpc_tls_init`: the context is given back, whatever the result that is returned.
-/
def tlsExit (ret : Int) (httpc : Httpc) (s : Setup) : SetupOutcome :=
  let freed := httpcTlsDeinit httpc s
  { ret := ret, httpc := freed.1, setup := freed.2 }

/-- `httpc_tls_init` on a client that is not NULL. Its `version` only chooses the ALPN list. -/
def httpcTlsInit (env : Platform) (httpc : Httpc) (sslInfo : Option HttpcTlsInfo) (s : Setup) :
    SetupOutcome :=
  let block := env.acquire s .mbedtlsCtx
  if block.1 = false then tlsExit httpcErrFail { httpc with mbedtlsCtx := none } block.2
  else
    let httpc := { httpc with mbedtlsCtx := some { netFd := -1, handshakeDone := false } }
    let crt := tlsParse env .x509CrtParseCert (sslInfo.bind (·.cert)) (tlsConfigure env block.2)
    if crt.1 ≠ 0 then tlsExit crt.1 httpc crt.2
    else
      let pk := tlsParse env .x509CrtParsePk (sslInfo.bind (·.pk)) crt.2
      if pk.1 ≠ 0 then tlsExit pk.1 httpc pk.2
      else
        let shake := env.tlsCall pk.2 .sslHandshake
        let ctx := { netFd := httpc.socket, handshakeDone := decide (shake.1 = 0) }
        let httpc := { httpc with mbedtlsCtx := some ctx }
        if shake.1 = 0 then { ret := httpcErrOk, httpc := httpc, setup := shake.2 }
        else
          -- the verify result takes the place of the handshake's
          let verify := env.tlsCall shake.2 .sslGetVerifyResult
          tlsExit verify.1 httpc (tlsReport env verify.1 verify.2)

/-! ### The client

`httpc_init` and `httpc_deinit`. Every failing step of the first leaves through `initFail`, which
releases what the client holds at that point. -/

/-- What `httpc_init` returns, absent for NULL, and what it has done. -/
structure InitResult where
  httpc : Option Httpc
  setup : Setup
deriving DecidableEq, Repr

/-- What has been done when the client has its block and its descriptor. -/
def initOpened (env : Platform) (s : Setup) : Setup :=
  (env.acquire s .httpc).2.take (.descriptor env.socket)

/-- The call of `httpc_parse_uri` in `httpc_init`. -/
def initParsed (env : Platform) (classify : Option Bytes → Ipv4Check) (uri : Option Bytes)
    (port : Bytes) (s : Setup) : SetupOutcome :=
  httpcParseUri env classify (Httpc.plain env.socket) uri port (initOpened env s)

/-- The `parse_fail` of `httpc_init`: the descriptor is closed and the client is freed; host and
path are not. -/
def initFail (failed : SetupOutcome) : InitResult :=
  let closed :=
    if failed.httpc.socket ≥ 0 then failed.setup.release (.descriptor failed.httpc.socket)
    else failed.setup
  { httpc := none, setup := closed.release .httpc }

/-- `httpc_init`. Its `version` only chooses the timeouts of the socket and the ALPN list. -/
def httpcInit (env : Platform) (classify : Option Bytes → Ipv4Check) (uri : Option Bytes)
    (port : Bytes) (node : Option HttpcMemNode) (sslInfo : Option HttpcTlsInfo) (s : Setup) :
    InitResult :=
  if env.calloc s.callocs = false then { httpc := none, setup := (env.acquire s .httpc).2 }
  else if env.socket < 0 then { httpc := none, setup := (env.acquire s .httpc).2.release .httpc }
  else
    let parsed := initParsed env classify uri port s
    if parsed.ret < httpcErrOk then initFail parsed
    else if parsed.httpc.enableMbedtls then
      let tls := httpcTlsInit env parsed.httpc sslInfo parsed.setup
      if tls.ret ≠ 0 then initFail tls
      else { httpc := some { tls.httpc with headerNode := node }, setup := tls.setup }
    else { httpc := some { parsed.httpc with headerNode := node }, setup := parsed.setup }

/-- `httpc_deinit`; an absent client is a NULL pointer. -/
def httpcDeinit (httpc : Option Httpc) (s : Setup) : Setup :=
  match httpc with
  | none => s
  | some httpc =>
      let tls := if httpc.enableMbedtls then httpcTlsDeinit httpc s else (httpc, s)
      let httpc := tls.1
      let closed := tls.2.release (.descriptor httpc.socket)
      ((closed.safeFree httpc.path.isSome .path).safeFree httpc.host.isSome .host).release .httpc

end Hfc
