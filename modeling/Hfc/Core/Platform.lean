/-
Module: Hfc.Core.Platform
Layer: Core
Purpose: What the setup of a client meets outside: the allocator, the socket calls, the resolver and
  the TLS library. A `Platform` answers each of their calls; a `Setup` is what has been done with
  them so far, down to the ledger of the resources taken and given back.
Imports: Hfc.Core.Types
Main exports: SockAddr, AddrInfo, ConnectCall, MbedtlsFn, MbedtlsCall, Platform, Resource,
  LedgerEntry, Setup, Platform.acquire, Platform.connectTo, Platform.tlsCall, Setup.release,
  Setup.safeFree, SetupOutcome
-/
import Hfc.Core.Types

namespace Hfc

open ByteText

/-! ### The calls

What the client asks of the system and of the TLS library. The answers are parameters, so that a
result about setup covers every sequence of them. -/

/-- Family of an address the resolver returns. -/
inductive AddrFamily where
  | inet
  | inet6
  | other (code : Nat)
deriving DecidableEq, Repr

/-- The part of a `sockaddr` a connect call depends on: the bytes of the address and the port. -/
structure SockAddr where
  addr : List Nat
  port : Nat
deriving DecidableEq, Repr

/-- One entry of the list `getaddrinfo` returns. -/
structure AddrInfo where
  family : AddrFamily
  addr : SockAddr
deriving DecidableEq, Repr

/-- One connect call and its result. -/
structure ConnectCall where
  addr : SockAddr
  ret : Int
deriving DecidableEq, Repr

/-- The functions of the TLS library whose results `httpc_tls_init` takes. The key is parsed by the
function for certificates too, into an object of its own. -/
inductive MbedtlsFn where
  | sslSetHostname
  | sslConfigDefaults
  | ctrDrbgSeed
  | sslSetup
  | x509CrtParseCert
  | x509CrtParsePk
  | sslHandshake
  | sslGetVerifyResult
deriving DecidableEq, Repr

/-- One call of the TLS library and its result, as the `int` it is stored in. -/
structure MbedtlsCall where
  fn : MbedtlsFn
  ret : Int
deriving DecidableEq, Repr

/-- The behaviour of everything outside the client while it is set up: whether allocation number
`calls` succeeds, the descriptor `socket` returns, the result and the list of `getaddrinfo host
port`, the result of connect call number `calls` to an address, and the results of the TLS library.
-/
structure Platform where
  calloc : Nat → Bool
  socket : Int
  getaddrinfo : Bytes → Bytes → Int × List AddrInfo
  connect : Nat → SockAddr → Int
  mbedtls : MbedtlsFn → Int

/-! ### The ledger

The state that setup threads through: how many blocks were asked for, the connections that were
tried, the TLS calls, and what was taken and given back. -/

/-- A resource the client has to give back. -/
inductive Resource where
  | httpc
  | host
  | path
  | mbedtlsCtx
  | verifyText
  | descriptor (fd : Int)
deriving DecidableEq, Repr

/-- A resource is taken or given back: an entry of the ledger, in the order in which it happened. -/
inductive LedgerEntry where
  | acquire (resource : Resource)
  | release (resource : Resource)
deriving DecidableEq, Repr

/-- What has been done so far: the number of allocations, the connect calls, the calls of the TLS
library and the ledger. -/
structure Setup where
  callocs : Nat
  connects : List ConnectCall
  tlsCalls : List MbedtlsCall
  ledger : List LedgerEntry
deriving DecidableEq, Repr

/-- Nothing has been done. -/
def Setup.fresh : Setup :=
  { callocs := 0
    connects := []
    tlsCalls := []
    ledger := [] }

/-- A resource comes into the client's hands. -/
def Setup.take (s : Setup) (resource : Resource) : Setup :=
  { s with ledger := s.ledger ++ [.acquire resource] }

/-- `free` of a block, or `close` of a descriptor. -/
def Setup.release (s : Setup) (resource : Resource) : Setup :=
  { s with ledger := s.ledger ++ [.release resource] }

/-- `safe_free` on a pointer; `present` tells whether it is not NULL. -/
def Setup.safeFree (s : Setup) (present : Bool) (resource : Resource) : Setup :=
  if present then s.release resource else s

/-- `httpc_calloc` of the block for a resource: whether it succeeds. -/
def Platform.acquire (env : Platform) (s : Setup) (resource : Resource) : Bool × Setup :=
  let s' := { s with callocs := s.callocs + 1 }
  (env.calloc s.callocs, if env.calloc s.callocs then s'.take resource else s')

/-- One connect call on the client's socket. -/
def Platform.connectTo (env : Platform) (s : Setup) (addr : SockAddr) : Int × Setup :=
  let ret := env.connect s.connects.length addr
  (ret, { s with connects := s.connects ++ [{ addr := addr, ret := ret }] })

/-- One call of the TLS library: its result, with the call on the record. -/
def Platform.tlsCall (env : Platform) (s : Setup) (fn : MbedtlsFn) : Int × Setup :=
  (env.mbedtls fn, { s with tlsCalls := s.tlsCalls ++ [{ fn := fn, ret := env.mbedtls fn }] })

/-- Result of a function that sets a client up: what it returns, the client it was given, and what
has been done. -/
structure SetupOutcome where
  ret : Int
  httpc : Httpc
  setup : Setup
deriving DecidableEq, Repr

/-! ### What each call leaves alone

One lemma for each field and each call. They are the simp set by which a run of setup calls is
followed. -/

@[simp] theorem Setup.release_connects (s : Setup) (resource : Resource) :
    (s.release resource).connects = s.connects := rfl

@[simp] theorem Setup.release_callocs (s : Setup) (resource : Resource) :
    (s.release resource).callocs = s.callocs := rfl

@[simp] theorem Setup.release_tlsCalls (s : Setup) (resource : Resource) :
    (s.release resource).tlsCalls = s.tlsCalls := rfl

@[simp] theorem Setup.safeFree_tlsCalls (s : Setup) (present : Bool) (resource : Resource) :
    (s.safeFree present resource).tlsCalls = s.tlsCalls := by
  cases present <;> rfl

@[simp] theorem Setup.take_connects (s : Setup) (resource : Resource) :
    (s.take resource).connects = s.connects := rfl

@[simp] theorem Setup.take_callocs (s : Setup) (resource : Resource) :
    (s.take resource).callocs = s.callocs := rfl

@[simp] theorem Setup.safeFree_connects (s : Setup) (present : Bool) (resource : Resource) :
    (s.safeFree present resource).connects = s.connects := by
  cases present <;> rfl

@[simp] theorem Platform.acquire_ok (env : Platform) (s : Setup) (resource : Resource) :
    (env.acquire s resource).1 = env.calloc s.callocs := rfl

@[simp] theorem Platform.acquire_callocs (env : Platform) (s : Setup) (resource : Resource) :
    (env.acquire s resource).2.callocs = s.callocs + 1 := by
  simp only [Platform.acquire]
  split <;> rfl

@[simp] theorem Platform.acquire_connects (env : Platform) (s : Setup) (resource : Resource) :
    (env.acquire s resource).2.connects = s.connects := by
  simp only [Platform.acquire]
  split <;> rfl

@[simp] theorem Platform.connectTo_connects (env : Platform) (s : Setup) (addr : SockAddr) :
    (env.connectTo s addr).2.connects =
      s.connects ++ [{ addr := addr, ret := (env.connectTo s addr).1 }] := rfl

@[simp] theorem Platform.acquire_tlsCalls (env : Platform) (s : Setup) (resource : Resource) :
    (env.acquire s resource).2.tlsCalls = s.tlsCalls := by
  simp only [Platform.acquire]
  split <;> rfl

end Hfc
