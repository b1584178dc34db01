/-
Module: Hfc.Core.Header
Layer: Core
Purpose: The header node as the source uses it: `httpc_header_set` appends to the request header,
  `httpc_handle_response` reads the response header into the same node and evaluates it, and
  `httpc_header_get` looks a field up.
Imports: Hfc.Core.Io
Main exports: vsnprintf, httpcHeaderSet, httpcHeaderGet, httpcMemNodeReset, headLoop, parseHead,
  httpcHandleResponse
-/
import Hfc.Core.Io

namespace Hfc

open ByteText Numeral

/-! ### Building the request header

`httpc_header_set` prints a text behind what the node holds, into the space that is left, and counts
it whether it fitted or not. -/

/-- `vsnprintf` into a buffer of `size` bytes: its result and the bytes it stores. `formatted` is
the whole text the format produces, absent when the formatting fails; a text whose length is no
`int` fails too. -/
def vsnprintf (formatted : Option Bytes) (size : Nat) : Int × Bytes :=
  match formatted with
  | none => (-1, [])
  | some text =>
      if 2 ^ 31 ≤ text.length then (-1, [])
      else (text.length, if size = 0 then [] else text.take (size - 1) ++ [nul])

/-- The `size` argument `httpc_header_set` computes: an `int` difference turned into a `size_t`. -/
def headerSetSize (node : HttpcMemNode) : Nat :=
  toSizeT (toInt32 (node.bufLen - node.bufUsed))

/-- `httpc_header_set` on a node, for a format that produces `formatted`. -/
def headerSetNode (node : HttpcMemNode) (formatted : Option Bytes) : Int × HttpcMemNode :=
  let printed := vsnprintf formatted (headerSetSize node)
  let len := printed.1
  let node := (node.store node.bufUsed printed.2).setUsed (toInt32 (node.bufUsed + len))
  if node.bufUsed ≥ node.bufLen then (httpcErrFail, node) else (len, node)

/-- `httpc_header_set`: a text behind the bytes in use. The count of these is moved by what
`vsnprintf` returned, even where the text was cut off. -/
def httpcHeaderSet (httpc : Httpc) (formatted : Option Bytes) : Int × Httpc :=
  match httpc.headerNode with
  | none => (httpcErrParam, httpc)
  | some node =>
      let set := headerSetNode node formatted
      (set.1, { httpc with headerNode := some set.2 })

/-! ### Looking a field up

`httpc_header_get` goes from string to string through the bytes in use and returns the text behind
the name that matches. -/

/-- The `while` loop of `httpc_header_get` from offset `count` on. Each round moves `count` behind a
terminator, so `bufUsed + 1` rounds reach the end. -/
def headerGetLoop (node : HttpcMemNode) (fields : Bytes) : Nat → (count : Nat) → Option Nat
  | 0, _ => none
  | fuel + 1, count =>
      if (count : Int) ≤ node.bufUsed then
        let line := cstr (node.memFrom count)
        match strstr fields line with
        | some ptr => some (count + ptr)
        | none => headerGetLoop node fields fuel (count + line.length + 1)
      else none

/-- `httpc_header_get`: offset in the node's memory of what it returns a pointer to. -/
def httpcHeaderGet (httpc : Httpc) (fields : Option Bytes) : Option Nat :=
  match httpc.headerNode, fields with
  | some node, some fields =>
      match headerGetLoop node fields (node.bufUsed + 1).toNat 0 with
      | none => none
      | some ptr =>
          let ptr := ptr + fields.length + 1
          some (if (node.memFrom ptr).head? = some sp then ptr + 1 else ptr)
  | _, _ => none

/-! ### The response header

`httpc_handle_response`: the loop that reads lines until an empty one, then the status code, the
length and the coding. -/

/-- `httpc_mem_node_reset`: the buffer is zeroed, and none of it is in use. -/
def httpcMemNodeReset (node : HttpcMemNode) : HttpcMemNode :=
  (node.store 0 (List.replicate node.bufLen nul)).setUsed 0

/-- The `while (1)` loop of `httpc_handle_response`. Each round that goes on uses up at least one
byte of the buffer, so `bufLen` rounds are enough. -/
def headLoop (net : Transport) (httpc : Httpc) :
    Nat → HttpcMemNode → World → HttpcMemNode × World
  | 0, node, w => (node, w)
  | fuel + 1, node, w =>
      let line := httpcReadOneLine net httpc w (node.bufLen - node.bufUsed)
      let node := node.store node.bufUsed line.stored
      if line.count ≤ 0 then (node, line.world)
      else if line.stored.head? = some cr ∧ line.count = 1 then
        (node.store node.bufUsed [nul], line.world)
      else
        let node :=
          (node.store (node.bufUsed + line.count - 1) [nul]).setUsed (node.bufUsed + line.count)
        if node.bufUsed ≥ node.bufLen then (node, line.world)
        else headLoop net httpc fuel node line.world

/-- The `response_code` behind the protocol name at `ptr`, which is skipped as eight bytes. -/
def headResponseCode (node : HttpcMemNode) (ptr : Nat) : Int :=
  let code := (node.memFrom (ptr + (ascii "HTTP/1.1").length)).dropWhile (· = sp)
  toInt32 (strtoul 10 (cstr code))

/-- The `content_length` of the text in the node: what `strtoul` makes of the value, as an `int`,
and zero where the name is not found. -/
def headContentLength (httpc : Httpc) (node : HttpcMemNode) : Int :=
  match httpcHeaderGet httpc (some (ascii "Content-Length")) with
  | none => 0
  | some ptr => toInt32 (strtoul 10 (cstr (node.memFrom ptr)))

/-- What `httpc_handle_response` does behind the loop: the response code, the body length and the
transfer coding are taken from the node. -/
def parseHead (httpc : Httpc) (node : HttpcMemNode) : Int × Httpc :=
  match strstr (ascii "HTTP/1.") (cstr node.buf) with
  | none => (-1, httpc)
  | some ptr =>
      let httpc :=
        { httpc with
          responseCode := headResponseCode node ptr
          contentLength := headContentLength httpc node
          chunked := 0 }
      if httpc.contentLength ≠ 0 then (httpcErrOk, httpc)
      else
        match httpcHeaderGet httpc (some (ascii "Transfer-Encoding")) with
        | none => (httpcErrFail, httpc)
        | some ptr =>
            if cstr (node.memFrom ptr) = ascii "chunked" then
              (httpcErrOk, { httpc with chunked := 1 })
            else (httpcErrOk, httpc)

/-- Result of a call that may have changed the client, with what it left of the connection. -/
structure Handled where
  ret : Int
  httpc : Httpc
  world : World
deriving DecidableEq, Repr

/-- `httpc_handle_response`: the head of a response is read into the node of the request, and its
code, length and coding are looked up in it. -/
def httpcHandleResponse (net : Transport) (httpc : Httpc) (w : World) : Handled :=
  match httpc.headerNode with
  | none => { ret := httpcErrParam, httpc := httpc, world := w }
  | some node =>
      let read := headLoop net httpc node.bufLen (httpcMemNodeReset node) w
      let parsed := parseHead { httpc with headerNode := some read.1 } read.1
      { ret := parsed.1, httpc := parsed.2, world := read.2 }

end Hfc
