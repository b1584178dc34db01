/-
Module: Hfc.Core.Http2Setup
Layer: Core
Purpose: The setup and the end of an HTTP/2 client, `httpc2_init` and `httpc2_deinit`, with a ledger
  of what they take and give back: the block of the client, its session and its inner client.
Imports: Hfc.Core.Client, Hfc.Core.Http2, Hfc.Library.Ledger
Main exports: Http2Resource, Http2Platform, Http2Setup, Httpc2Block, httpc2Deinit, httpc2InitFail,
  Http2InitResult, httpc2Init
-/
import Hfc.Core.Client
import Hfc.Core.Http2
import Hfc.Library.Ledger

namespace Hfc

open ByteText Ledger

variable {Write : Type}

/-- What an HTTP/2 client has to give back; its inner client counts as one resource. -/
inductive Http2Resource where
  | httpc2
  | session
  | inner
deriving DecidableEq, Repr

/-- The behaviour of everything outside while an HTTP/2 client is set up: that of the inner client,
the result of `nghttp2_session_client_new`, and what `fcntl` returns for a descriptor and, when the
flags are set, for the flags that were read. -/
structure Http2Platform extends Platform where
  sessionClientNew : Int
  fcntlGetfl : Int → Int
  fcntlSetfl : Int → Int → Int

/-- What has been done so far: by the setup of the inner client, and the ledger. -/
structure Http2Setup where
  setup : Setup
  ledger : List (Event Http2Resource)
deriving DecidableEq, Repr

/-- Nothing has been done. -/
def Http2Setup.fresh : Http2Setup :=
  { setup := Setup.fresh
    ledger := [] }

/-- An event of the ledger. -/
def Http2Setup.note (s : Http2Setup) (event : Event Http2Resource) : Http2Setup :=
  { s with ledger := s.ledger ++ [event] }

/-- The block of an HTTP/2 client; `session` tells whether its pointer to a session is not NULL. -/
structure Httpc2Block (Write : Type) extends Httpc2 Write where
  session : Bool

/-- `httpc2_deinit`; an absent client is a NULL pointer. `nghttp2_session_del` and `httpc_deinit` do
nothing for NULL. -/
def httpc2Deinit (httpc2 : Option (Httpc2Block Write)) (s : Http2Setup) : Http2Setup :=
  match httpc2 with
  | none => s
  | some client =>
      let s := if client.session then s.note (.release .session) else s
      let s := { s with setup := httpcDeinit client.httpc s.setup }
      let s := if client.httpc.isSome then s.note (.release .inner) else s
      s.note (.release .httpc2)

/-- What `httpc2_init` returns, absent for NULL, and what it has done. -/
structure Http2InitResult (Write : Type) where
  httpc2 : Option (Httpc2Block Write)
  setup : Http2Setup

/-- The `malloc_fail` of `httpc2_init`; `present` tells whether its pointer is not NULL. -/
def httpc2MallocFail (present : Bool) (s : Http2Setup) : Http2InitResult Write :=
  { httpc2 := none, setup := if present then s.note (.release .httpc2) else s }

/-- The `httpc_init_fail` of `httpc2_init`. The pointer is passed to `httpc2_deinit` by value, so it
is still there when `malloc_fail` follows. -/
def httpc2InitFail (client : Httpc2Block Write) (s : Http2Setup) : Http2InitResult Write :=
  httpc2MallocFail true (httpc2Deinit (some client) s)

/-- `httpc2_init` from `httpc_init` on. -/
def httpc2Connect (env : Http2Platform) (classify : Option Bytes → Ipv4Check) (uri port : Bytes)
    (sslInfo : Option HttpcTlsInfo) (client : Httpc2Block Write) (s : Http2Setup) :
    Http2InitResult Write :=
  let inner := httpcInit env.toPlatform classify (some uri) port none sslInfo s.setup
  let s := { s with setup := inner.setup }
  let client := { client with httpc := inner.httpc }
  match inner.httpc with
  | none => httpc2InitFail client s
  | some httpc =>
      let s := s.note (.acquire .inner)
      let flags := env.fcntlGetfl httpc.socket
      if flags = -1 then httpc2InitFail client s
      else if env.fcntlSetfl httpc.socket flags = -1 then httpc2InitFail client s
      else { httpc2 := some client, setup := s }

/-- `httpc2_init`. The object for the callbacks is deleted right behind the call that uses it, and
the result of `nghttp2_submit_settings` is not read. -/
def httpc2Init (env : Http2Platform) (classify : Option Bytes → Ipv4Check)
    (uri port : Option Bytes) (sslInfo : Option HttpcTlsInfo) (s : Http2Setup) :
    Http2InitResult Write :=
  match uri, port with
  | some uri, some port =>
      let block := env.calloc s.setup.callocs
      let s := { s with setup := { s.setup with callocs := s.setup.callocs + 1 } }
      if block = false then httpc2MallocFail false s
      else
        let s := s.note (.acquire .httpc2)
        if env.sessionClientNew ≠ 0 then httpc2MallocFail true s
        else
          httpc2Connect env classify uri port sslInfo
            { httpc := none, writeCallback := none, session := true }
            (s.note (.acquire .session))
  | _, _ => { httpc2 := none, setup := s }

end Hfc
