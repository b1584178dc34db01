/-
Module: Hfc.Core.Hpack.Bufs
Layer: Core
Purpose: The chained buffers of nghttp2 as their writers meet them: what was written, the room in
  the current chunk, and the rooms of the chunks behind it.
Imports: Hfc.Library.ByteText
Main exports: nghttp2ErrHeaderComp, nghttp2ErrBufferError, nghttp2ErrInsuffBufsize,
  nghttp2ErrInvalidState, assertionFailed, Bufs, bufsAddb, bufsAdd, Bufs.put
-/
import Hfc.Library.ByteText

namespace Hfc.Hpack

open ByteText

def nghttp2ErrBufferError : Int := -502
def nghttp2ErrInvalidState : Int := -519
def nghttp2ErrHeaderComp : Int := -523
def nghttp2ErrInsuffBufsize : Int := -525

/-- What stands for the end of the program at an assertion that fails. No call returns it. -/
def assertionFailed : Int := 1

/-- An `nghttp2_bufs` that is written to. `avail` is the room in the chunk `cur`, and `next` has the
room of each chunk behind it, those already in the chain and those that can still be allocated;
`exhausted` is what `bufs_alloc_chain` returns behind the last one. That no chunk behind the current
one is empty, `roomy`, is the callers' promise and not looked at by the code: `bufs_ensure_addb`
goes on to a chunk without a look at its room, so `nghttp2_bufs_addb` would write beside an empty
one. The chunks a session allocates have one length, which is not zero. -/
structure Bufs where
  out : Bytes
  avail : Nat
  next : List Nat
  exhausted : Int
  roomy : ∀ room ∈ next, 0 < room
  negative : exhausted < 0

namespace Bufs

/-- Write to the current chunk without a look at its room. -/
def put (bufs : Bufs) (data : Bytes) : Bufs :=
  { bufs with
    out := bufs.out ++ data
    avail := bufs.avail - data.length }

/-- `bufs_alloc_chain`: go on to the next chunk. -/
def allocChain (bufs : Bufs) : Except Int Bufs :=
  match next : bufs.next with
  | [] => .error bufs.exhausted
  | room :: later =>
      .ok { bufs with
        avail := room
        next := later
        roomy := fun r member => bufs.roomy r (by rw [next]; exact List.mem_cons_of_mem _ member) }

end Bufs

/-- `nghttp2_bufs_addb`: one byte, into the next chunk if the one in use is full. -/
def bufsAddb (bufs : Bufs) (b : Byte) : Except Int Bufs := do
  let bufs ← if bufs.avail > 0 then .ok bufs else bufs.allocChain
  .ok (bufs.put [b])

/-- The loop of `nghttp2_bufs_add`, one chunk a round. -/
def bufsAddLoop : (rounds : Nat) → Bufs → Bytes → Except Int Bufs
  | 0, bufs, _ => .ok bufs
  | rounds + 1, bufs, data =>
      let nwrite := min bufs.avail data.length
      let bufs := bufs.put (data.take nwrite)
      let data := data.drop nwrite
      if data = [] then .ok bufs
      else do
        let bufs ← bufs.allocChain
        bufsAddLoop rounds bufs data

/-- `nghttp2_bufs_add`. Every round but the last goes on to another chunk. -/
def bufsAdd (bufs : Bufs) (data : Bytes) : Except Int Bufs :=
  bufsAddLoop (bufs.next.length + 1) bufs data

end Hfc.Hpack
