/-
Module: Hfc.Core.Types
Layer: Core
Purpose: The data of the HTTP client: status codes, receive modes, the caller's header node, the
  client itself and the part of the TLS context that the client's own code depends on.
Imports: Hfc.Library.ByteText
Main exports: httpcErrOk, httpcErrFail, httpcErrParam, httpcErrMem, httpcErrSend, HttpcMode,
  HttpcMemNode, HttpcMebdtlsCtx, Httpc, Httpc.Live
-/
import Hfc.Library.ByteText

namespace Hfc

open ByteText

/-! ### Status codes

The codes of `httpc.h`, the modes of a read and the certificates a caller may pass. -/

@[simp] def httpcErrOk : Int := 0
@[simp] def httpcErrFail : Int := -1
@[simp] def httpcErrParam : Int := -2
@[simp] def httpcErrMem : Int := -3
@[simp] def httpcErrSend : Int := -4

/-- How the body of a response is received. -/
inductive HttpcMode where
  | unkonw
  | normal
  | chunk
  | max
deriving DecidableEq, Repr

/-- The certificate material a caller may pass; an absent text is a NULL pointer. -/
structure HttpcTlsInfo where
  cert : Option Bytes
  pk : Option Bytes
deriving DecidableEq, Repr

/-! ### The header node

The buffer that the request and the response share, with its size and the number of bytes in use,
and the two ways it is written. -/

/-- The header buffer the caller lends to a client. `buf` is the memory from the buffer's first byte
on: the buffer is its first `bufLen` bytes, and what follows is whatever lies behind the buffer. The
request header is built in it and the response header is read into it; `bufUsed` counts the bytes in
use for either. -/
@[ext] structure HttpcMemNode where
  buf : Bytes
  bufLen : Nat
  bufUsed : Int
  positive : 0 < bufLen
  isInt : bufLen < 2 ^ 31
  allocated : bufLen ≤ buf.length
deriving DecidableEq, Repr

namespace HttpcMemNode

/-- An empty node with a zeroed buffer of its own. -/
def blank (bufLen : Nat) (positive : 0 < bufLen) (isInt : bufLen < 2 ^ 31) : HttpcMemNode where
  buf := List.replicate bufLen nul
  bufLen := bufLen
  bufUsed := 0
  positive := positive
  isInt := isInt
  allocated := by simp

/-- Store bytes at an offset of the buffer, also outside of it where the memory goes on. -/
def store (node : HttpcMemNode) (off : Int) (data : Bytes) : HttpcMemNode :=
  { node with
    buf := patchAt node.buf off data
    allocated := by simpa using node.allocated }

/-- Set the count of bytes in use. -/
def setUsed (node : HttpcMemNode) (used : Int) : HttpcMemNode :=
  { node with bufUsed := used }

/-- The memory from an offset of the buffer on. -/
def memFrom (node : HttpcMemNode) (off : Nat) : Bytes :=
  node.buf.drop off

@[simp] theorem store_buf (node : HttpcMemNode) (off : Int) (data : Bytes) :
    (node.store off data).buf = patchAt node.buf off data := rfl

@[simp] theorem store_bufLen (node : HttpcMemNode) (off : Int) (data : Bytes) :
    (node.store off data).bufLen = node.bufLen := rfl

@[simp] theorem store_bufUsed (node : HttpcMemNode) (off : Int) (data : Bytes) :
    (node.store off data).bufUsed = node.bufUsed := rfl

@[simp] theorem setUsed_buf (node : HttpcMemNode) (used : Int) :
    (node.setUsed used).buf = node.buf := rfl

@[simp] theorem setUsed_bufLen (node : HttpcMemNode) (used : Int) :
    (node.setUsed used).bufLen = node.bufLen := rfl

@[simp] theorem setUsed_bufUsed (node : HttpcMemNode) (used : Int) :
    (node.setUsed used).bufUsed = used := rfl

/-- The text a node holds: the bytes of its buffer that are in use. -/
def header (node : HttpcMemNode) : Bytes :=
  node.buf.take node.bufUsed.toNat

/-- The bytes in use lie inside the buffer. The code keeps this only as long as every text has
fitted. -/
structure InUse (node : HttpcMemNode) : Prop where
  nonneg : 0 ≤ node.bufUsed
  inside : node.bufUsed ≤ node.bufLen

theorem InUse.length_header {node : HttpcMemNode} (inUse : node.InUse) :
    node.header.length = node.bufUsed.toNat := by
  have nonneg := inUse.nonneg
  have inside := inUse.inside
  have allocated := node.allocated
  rw [header, List.length_take]
  omega

end HttpcMemNode

/-! ### The client

The fields of `httpc_t` that the code under `src/httpc` reads. A live client is one that passes the
checks in front of the transport. -/

/-- What the client depends on of a TLS context: the descriptor it will close and whether its
handshake was completed. -/
structure HttpcMebdtlsCtx where
  netFd : Int
  handshakeDone : Bool
deriving DecidableEq, Repr

/-- An HTTP client. An absent `host`, `path`, `headerNode` or `mbedtlsCtx` is a NULL pointer; every
reader of `header_node` tests the node and its `buf` together, so a node without a buffer is absent
here too. -/
structure Httpc where
  host : Option Bytes
  path : Option Bytes
  headerNode : Option HttpcMemNode
  socket : Int
  responseCode : Int
  contentLength : Int
  chunked : Int
  enableMbedtls : Bool
  mbedtlsCtx : Option HttpcMebdtlsCtx
deriving DecidableEq, Repr

/-- The zeroed block `httpc_calloc` returns. -/
def Httpc.zeroed : Httpc :=
  { host := none
    path := none
    headerNode := none
    socket := 0
    responseCode := 0
    contentLength := 0
    chunked := 0
    enableMbedtls := false
    mbedtlsCtx := none }

/-- A client on the given descriptor, without TLS and without a header node. -/
def Httpc.plain (socket : Int) : Httpc :=
  { Httpc.zeroed with socket := socket }

/-- The client with the given header node. -/
def Httpc.withNode (httpc : Httpc) (node : HttpcMemNode) : Httpc :=
  { httpc with headerNode := some node }

/-- A client with an open descriptor whose TLS context, if it uses TLS, is there. -/
structure Httpc.Live (httpc : Httpc) : Prop where
  socket : 0 ≤ httpc.socket
  context : httpc.enableMbedtls = true → httpc.mbedtlsCtx.isSome = true

/-- The two guards in front of the transport pass on a live client. -/
theorem Httpc.Live.passes {httpc : Httpc} (live : httpc.Live) :
    ¬ httpc.socket < 0 ∧ (httpc.enableMbedtls && httpc.mbedtlsCtx.isNone) = false := by
  refine ⟨not_lt.mpr live.socket, ?_⟩
  cases tls : httpc.enableMbedtls with
  | false => rfl
  | true =>
      have present := live.context tls
      cases ctx : httpc.mbedtlsCtx with
      | none => simp [ctx] at present
      | some _ => rfl

theorem Httpc.Live.withNode {httpc : Httpc} (live : httpc.Live) (node : HttpcMemNode) :
    (httpc.withNode node).Live :=
  ⟨live.socket, live.context⟩

theorem Httpc.plain_live {socket : Int} (valid : 0 ≤ socket) : (Httpc.plain socket).Live where
  socket := valid
  context tls := by simp [Httpc.plain, Httpc.zeroed] at tls

end Hfc
