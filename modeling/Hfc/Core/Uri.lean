/-
Module: Hfc.Core.Uri
Layer: Core
Purpose: `httpc_ipv4_address_check` and `httpc_parse_uri`: a URI is split into host and path, the
  host is taken for an IPv4 address or resolved, and the client's socket is connected.
Imports: Hfc.Core.Header, Hfc.Core.Platform
Main exports: strncpy, octetLoop, Ipv4Check, httpcIpv4AddressCheck, uriScheme, uriHost, uriPath,
  inetPton4, htons, connectLoop, dialAddress, dialName, dial, parseExit, httpcParseUri
-/
import Hfc.Core.Header
import Hfc.Core.Platform

namespace Hfc

open ByteText Numeral

/-! ### Addresses in a text

`httpc_ipv4_address_check`: four arrays on the stack, filled with `strncpy`, and the loop over the
pieces between the dots. -/

/-- `strncpy` of `n` bytes to the head of a piece of memory: the string, then NULs. -/
def strncpy (mem src : Bytes) (n : Nat) : Bytes :=
  patch mem 0 ((cstr src).take n ++ List.replicate (n - (cstr src).length) nul)

/-- The texts `strtok_r` finds between the dots of a text. -/
def dotTokens (text : Bytes) : List Bytes :=
  (text.splitOn 46).filter (· ≠ [])

/-- The `while` loop over the tokens: the `index` it ends with. -/
def octetLoop : List Bytes → (index : Nat) → Nat
  | [], index => index
  | spilt :: rest, index =>
      let ret := atoi spilt
      if (ret = 0 ∧ spilt.head? ≠ some 48) ∨ ret > 255 then 0 else octetLoop rest (index + 1)

/-- What `httpc_ipv4_address_check` returns, and the caller's arrays `addr` and `port` as it leaves
them. -/
structure Ipv4Check where
  ret : Int
  addr : Bytes
  port : Bytes
deriving DecidableEq, Repr

def ipAddrSize : Nat := 15 + 1
def ipPortSize : Nat := 5 + 1
def ipv4AddrSize : Nat := 24
def ipv4PortSize : Nat := 12

/-- `httpc_ipv4_address_check` on the zeroed arrays of `httpc_parse_uri`. A part in front of the
colon that is longer than `ip_addr` is written behind that array, and the program has no defined
behaviour from there on; here the bytes behind the array are dropped. -/
def httpcIpv4AddressCheck (uri : Option Bytes) : Ipv4Check :=
  let addr := List.replicate ipv4AddrSize nul
  let port := List.replicate ipv4PortSize nul
  match uri with
  | none => { ret := httpcErrParam, addr := addr, port := port }
  | some uri =>
      if uri.length > 15 + 5 + 1 then { ret := httpcErrParam, addr := addr, port := port }
      else
        let colon := strstr (ascii ":") uri
        let zeroAddr := List.replicate ipAddrSize nul
        let zeroPort := List.replicate ipPortSize nul
        let ipAddr :=
          match colon with
          | some ptr => strncpy zeroAddr uri ptr
          | none => strncpy zeroAddr uri uri.length
        let ipPort :=
          match colon with
          | some ptr =>
              let behind := uri.drop (ptr + 1)
              if behind.length ≤ 5 then strncpy zeroPort behind behind.length else zeroPort
          | none => zeroPort
        let addr := strncpy addr ipAddr (cstr ipAddr).length
        let digitsOnly := (cstr ipPort).all fun b => 48 ≤ b.toNat && b.toNat ≤ 57
        let port :=
          if digitsOnly then strncpy port ipPort (cstr ipPort).length else patch port 0 [nul]
        let index := octetLoop (dotTokens (cstr ipAddr)) 0
        { ret := if index = 4 then httpcErrOk else httpcErrFail, addr := addr, port := port }

/-! ### Splitting a URI

The scheme, and host and path behind it, each printed into a block of its own. -/

/-- Whether a URI asks for TLS, and the text behind its scheme. -/
def uriScheme (uri : Bytes) : Option (Bool × Bytes) :=
  if (ascii "http://").isPrefixOf uri then some (false, uri.drop 7)
  else if (ascii "https://").isPrefixOf uri then some (true, uri.drop 8)
  else none

/-- A block of `len` bytes with the text `snprintf` prints into it, read as a string. -/
def printedText (len : Int) (text : Bytes) : Bytes :=
  cstr (vsnprintf (some text) (toSizeT (toInt32 len))).2

/-- The host: the text in front of the first slash. -/
def uriHost (hostPtr : Bytes) : Bytes :=
  match strstr (ascii "/") hostPtr with
  | none => printedText (hostPtr.length + 1) hostPtr
  | some off => printedText (off + 1) hostPtr

/-- The path: the text from the first slash on. -/
def uriPath (hostPtr : Bytes) : Bytes :=
  match strstr (ascii "/") hostPtr with
  | none => printedText 2 (ascii "/")
  | some off => printedText ((hostPtr.drop off).length + 1) (hostPtr.drop off)

/-! ### Connecting

The branch for an address in digits and the branch for a name, with `inet_pton` and the byte order
of the port. -/

/-- One octet as `inet_pton` takes it: one to three digits, without a leading zero, up to 255. -/
def ptonOctet (text : Bytes) : Option Nat :=
  let ds := digits 10 text
  if ds.length = text.length ∧ 1 ≤ text.length ∧ text.length ≤ 3 ∧
      (text.head? = some 48 → text.length = 1) ∧ value 10 ds ≤ 255 then
    some (value 10 ds)
  else none

/-- `inet_pton` for `AF_INET`: the four octets of a dotted address. -/
def inetPton4 (text : Bytes) : Option (List Nat) :=
  if (text.splitOn 46).length = 4 then (text.splitOn 46).mapM ptonOctet else none

/-- `htons` of an `int`: its low sixteen bits. -/
def htons (n : Int) : Nat :=
  (n % 2 ^ 16).toNat

/-- The `for` loop over the addresses of a host, with the `ret` it starts from. -/
def connectLoop (env : Platform) : List AddrInfo → (ret : Int) → Setup → Int × Setup
  | [], ret, s => (ret, s)
  | cur :: next, ret, s =>
      if cur.family = .inet then
        let tried := env.connectTo s cur.addr
        if tried.1 = 0 then tried else connectLoop env next tried.1 tried.2
      else connectLoop env next ret s

/-- The branch of `httpc_parse_uri` for an IPv4 address. -/
def dialAddress (env : Platform) (check : Ipv4Check) (port : Bytes) (s : Setup) : Int × Setup :=
  let sinPort := htons (if cstr check.port = [] then atoi port else atoi (cstr check.port))
  match inetPton4 (cstr check.addr) with
  | none => (httpcErrFail, s)
  | some octets =>
      let tried := env.connectTo s { addr := octets, port := sinPort }
      if tried.1 = 0 then (httpcErrOk, tried.2) else (httpcErrFail, tried.2)

/-- The branch of `httpc_parse_uri` for every other host. What the loop ends with is overwritten. -/
def dialName (env : Platform) (host port : Bytes) (s : Setup) : Int × Setup :=
  let resolved := env.getaddrinfo host port
  if resolved.1 < 0 then (httpcErrFail, s)
  else (httpcErrOk, (connectLoop env resolved.2 resolved.1 s).2)

/-- Connecting to a host; `classify` is the function that tells IPv4 addresses from names. -/
def dial (env : Platform) (classify : Option Bytes → Ipv4Check) (host port : Bytes) (s : Setup) :
    Int × Setup :=
  let check := classify (some host)
  if check.ret = httpcErrOk then dialAddress env check port s else dialName env host port s

/-! ### The whole function

`httpc_parse_uri`, with the exit that frees both blocks. -/

/-- The `exit` of `httpc_parse_uri`: both blocks are freed, where they are there. -/
def parseExit (ret : Int) (httpc : Httpc) (s : Setup) : SetupOutcome :=
  { ret := ret
    httpc := { httpc with path := none, host := none }
    setup := (s.safeFree httpc.path.isSome .path).safeFree httpc.host.isSome .host }

/-- `httpc_parse_uri` with a given classification of hosts, on a client that is not NULL. -/
def httpcParseUri (env : Platform) (classify : Option Bytes → Ipv4Check) (httpc : Httpc)
    (uri : Option Bytes) (port : Bytes) (s : Setup) : SetupOutcome :=
  match uri with
  | none => parseExit httpcErrParam httpc s
  | some uri =>
      match uriScheme (cstr uri) with
      | none => parseExit httpcErrParam httpc s
      | some (tls, hostPtr) =>
          let httpc := { httpc with enableMbedtls := tls, host := none }
          let hostBlock := env.acquire s .host
          if hostBlock.1 = false then parseExit httpcErrMem httpc hostBlock.2
          else
            let httpc := { httpc with host := some (uriHost hostPtr), path := none }
            let pathBlock := env.acquire hostBlock.2 .path
            if pathBlock.1 = false then parseExit httpcErrMem httpc pathBlock.2
            else
              let httpc := { httpc with path := some (uriPath hostPtr) }
              let dialled := dial env classify (uriHost hostPtr) port pathBlock.2
              if dialled.1 = httpcErrOk then
                { ret := httpcErrOk, httpc := httpc, setup := dialled.2 }
              else parseExit dialled.1 httpc dialled.2

end Hfc
