/-
Module: Hfc.Core.GetExample
Layer: Core
Purpose: The requests of the example program: `httpc_get`, and `httpc_get_position`, which asks for
  a range behind it.
Imports: Hfc.Core.Session
Main exports: getTexts, httpcGet, rangeField, Positioned, httpcGetPosition
-/
import Hfc.Core.Session

namespace Hfc

open ByteText EventRun

/-- The text of the format `GET %s HTTP/1.1`; there is none for a NULL path. -/
def requestLine (path : Option Bytes) : Option Bytes :=
  path.map fun path => ascii "GET " ++ cstr path ++ ascii " HTTP/1.1\r\n"

/-- The text of the format `Host: %s`; there is none for a NULL host. -/
def hostField (host : Option Bytes) : Option Bytes :=
  host.map fun host => ascii "Host: " ++ cstr host ++ ascii "\r\n"

/-- What every request of the example ends with. -/
def tailTexts : List (Option Bytes) :=
  [some (ascii "Accept: */*\r\n"), some (ascii "User-Agent: Tiny HTTPClient Agent\r\n"),
    some (ascii "\r\n")]

/-- The texts of the header calls of `httpc_get`. -/
def getTexts (httpc : Httpc) : List (Option Bytes) :=
  requestLine httpc.path :: hostField httpc.host :: tailTexts

/-- `httpc_get` on a client that is not NULL: the five header calls, and the request without a body.
-/
def httpcGet (net : Transport) (httpc : Httpc) (w : World) : Handled :=
  httpcSendRequest net (exec setStep httpc (getTexts httpc)) w none

/-- The text of the format `%d`. -/
def decimal (n : Int) : Bytes :=
  ascii (toString n)

/-- The text of the range, for two ends of which at least one is not negative. -/
def rangeField (start stop : Int) : Option Bytes :=
  if start ≥ 0 ∧ stop ≥ 0 then
    some (ascii "Range: bytes=" ++ decimal start ++ ascii "-" ++ decimal stop ++ ascii "\r\n")
  else if start ≥ 0 then some (ascii "Range: bytes=" ++ decimal start ++ ascii "-\r\n")
  else if stop ≥ 0 then some (ascii "Range: bytes=-" ++ decimal stop ++ ascii "\r\n")
  else none

/-- Result of `httpc_get_position`, with no `ret` where the function ends without a return
statement. -/
structure Positioned where
  ret : Option Int
  httpc : Httpc
  world : World
deriving DecidableEq, Repr

/-- `httpc_get_position` on a client that is not NULL; its `end` is `stop` here. -/
def httpcGetPosition (net : Transport) (httpc : Httpc) (w : World) (start stop : Int) :
    Positioned :=
  let got := httpcGet net httpc w
  if got.ret < 0 then { ret := some (-1), httpc := got.httpc, world := got.world }
  else
    match httpcHeaderGet got.httpc (some (ascii "Accept-Ranges: bytes")) with
    | none => { ret := some (-1), httpc := got.httpc, world := got.world }
    | some _ =>
        let emptied :=
          { got.httpc with headerNode := got.httpc.headerNode.map httpcMemNodeReset }
        let named := exec setStep emptied [requestLine got.httpc.path, hostField got.httpc.host]
        match rangeField start stop with
        | none => { ret := some (-1), httpc := named, world := got.world }
        | some range =>
            { ret := none
              httpc := exec setStep named (some range :: tailTexts)
              world := got.world }

end Hfc
