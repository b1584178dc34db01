/-
Module: Hfc.Core.Transport
Layer: Core
Purpose: The connection and the memory allocator as the client meets them. A `Transport` answers
  each receive, send and allocation; it may use the number of calls made so far and the number of
  bytes taken so far, so it stands for every behaviour of the peer, the network and the allocator. A
  `World` is what has happened so far on one connection.
Imports: Hfc.Core.Types
Main exports: RecvAnswer, SendAnswer, Transport, SendCall, World, Recv, Transport.receive,
  Transport.transmit, Transport.allocate
-/
import Hfc.Core.Types
import Hfc.Library.Numeral

namespace Hfc

open ByteText

/-- Answer to one receive call: up to `cap` bytes, but at least one if any are left, or a negative
result. -/
inductive RecvAnswer where
  | upTo (cap : Nat)
  | fail (code : Nat)
deriving DecidableEq, Repr

/-- Answer to one send call: at most `cap` of the bytes are accepted, or a negative result. -/
inductive SendAnswer where
  | accept (cap : Nat)
  | fail (code : Nat)
deriving DecidableEq, Repr

/-- The behaviour of everything outside the client: `recv calls taken n` answers the receive call
number `calls` for `n` bytes when `taken` bytes of the stream were taken before, `send calls n` the
send call number `calls` for `n` bytes, and `calloc calls` tells whether allocation number `calls`
succeeds. -/
structure Transport where
  recv : Nat → Nat → Nat → RecvAnswer
  send : Nat → Nat → SendAnswer
  calloc : Nat → Bool

/-- One send call: the bytes handed to the transport, and its result. -/
structure SendCall where
  offered : Bytes
  ret : Int
deriving DecidableEq, Repr

/-- The bytes of a send call that the transport took. -/
def SendCall.accepted (call : SendCall) : Bytes :=
  call.offered.take call.ret.toNat

/-- The transport that does what it is asked to: it delivers and takes as many bytes as there are
and has memory for every allocation. -/
def Transport.prompt : Transport where
  recv _ _ n := .upTo n
  send _ n := .accept n
  calloc _ := true

/-- One connection so far: the bytes of the peer that are not read yet, the count of those that are,
the calls made, and whether some step has dereferenced a NULL TLS context. After such a step the
program has no defined behaviour; the model goes on as if the call had failed. -/
structure World where
  unread : Bytes
  taken : Nat
  recvs : Nat
  sends : List SendCall
  callocs : Nat
  nullDeref : Bool
deriving DecidableEq, Repr

/-- A new connection on which the peer will send the given bytes. -/
def World.opened (stream : Bytes) : World :=
  { unread := stream
    taken := 0
    recvs := 0
    sends := []
    callocs := 0
    nullDeref := false }

/-- Position in the stream at which it ends. -/
def World.stop (w : World) : Nat :=
  w.taken + w.unread.length

/-- Result of a receive call: what it returns, the bytes it stored and the connection afterwards. -/
structure Recv where
  ret : Int
  data : Bytes
  world : World
deriving DecidableEq, Repr

/-- One receive call for `n` bytes. The answer of the transport says how many of the next bytes
come, or that the call fails, and it never makes up a byte. -/
def Transport.receive (net : Transport) (w : World) (n : Nat) : Recv :=
  match net.recv w.recvs w.taken n with
  | .fail code =>
      { ret := Int.negSucc code
        data := []
        world := { w with recvs := w.recvs + 1 } }
  | .upTo cap =>
      let k := min (max 1 cap) (min n w.unread.length)
      { ret := k
        data := w.unread.take k
        world :=
          { w with
            unread := w.unread.drop k
            taken := w.taken + k
            recvs := w.recvs + 1 } }

/-- One send call for the bytes `offered`: how many of them the transport accepts, and the call on
the record. -/
def Transport.transmit (net : Transport) (w : World) (offered : Bytes) : Int × World :=
  let ret : Int :=
    match net.send w.sends.length offered.length with
    | .fail code => Int.negSucc code
    | .accept cap => (min cap offered.length : Nat)
  (ret, { w with sends := w.sends ++ [{ offered := offered, ret := ret }] })

/-- One allocation: whether it succeeds. -/
def Transport.allocate (net : Transport) (w : World) : Bool × World :=
  (net.calloc w.callocs, { w with callocs := w.callocs + 1 })

@[simp] theorem Transport.transmit_sends (net : Transport) (w : World) (offered : Bytes) :
    (net.transmit w offered).2.sends =
      w.sends ++ [{ offered := offered, ret := (net.transmit w offered).1 }] := rfl

@[simp] theorem Transport.transmit_unread (net : Transport) (w : World) (offered : Bytes) :
    (net.transmit w offered).2.unread = w.unread := rfl

@[simp] theorem Transport.transmit_stop (net : Transport) (w : World) (offered : Bytes) :
    (net.transmit w offered).2.stop = w.stop := rfl

@[simp] theorem Transport.allocate_unread (net : Transport) (w : World) :
    (net.allocate w).2.unread = w.unread := rfl

@[simp] theorem Transport.allocate_taken (net : Transport) (w : World) :
    (net.allocate w).2.taken = w.taken := rfl

@[simp] theorem Transport.allocate_callocs (net : Transport) (w : World) :
    (net.allocate w).2.callocs = w.callocs + 1 := rfl

@[simp] theorem Transport.allocate_sends (net : Transport) (w : World) :
    (net.allocate w).2.sends = w.sends := rfl

@[simp] theorem Transport.allocate_stop (net : Transport) (w : World) :
    (net.allocate w).2.stop = w.stop := rfl

end Hfc
