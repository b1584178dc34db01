/-
Module: Hfc.Core.Hpack.Table
Layer: Core
Purpose: The dynamic table of header fields: its entries in a ring buffer, the map in which the
  deflater finds them by name, eviction, and the search over both tables.
Imports: Hfc.Core.Hpack.StaticTable, Hfc.Core.Hpack.Bufs, Hfc.Library.RingBuffer
Main exports: Nv, HdNv, HdEntry, HdMap, hdMapInsert, hdMapFind, hdMapRemove, HdContext,
  hdContextInit, addHdTableIncremental, hdContextShrinkTableSize, hdTableGet, searchStaticTable,
  searchHdTable, nameHash
-/
import Hfc.Core.Hpack.StaticTable
import Hfc.Core.Hpack.Bufs
import Hfc.Library.RingBuffer

namespace Hfc.Hpack

open ByteText

/-! ### Entries

Name and value as they are sent, and the entry of the dynamic table that holds them, with the room
it counts for. -/

def nvFlagNone : Nat := 0
def nvFlagNoIndex : Nat := 1

/-- `nghttp2_nv`: a header field as the application hands it over. -/
structure Nv where
  name : Bytes
  value : Bytes
  flags : Nat
deriving DecidableEq, Repr

/-- `nghttp2_hd_nv`: a header field with its token. -/
structure HdNv where
  name : Bytes
  value : Bytes
  token : Int
  flags : Nat
deriving DecidableEq, Repr

/-- `nghttp2_hd_entry`. The list of entries that share a bucket is in the map; `ref` stands for the
address of the entry, by which the map tells it from the others. -/
structure HdEntry where
  nv : HdNv
  seq : Nat
  hash : Nat
  ref : Nat
deriving DecidableEq, Repr

/-- `NGHTTP2_HD_ENTRY_OVERHEAD`: what an entry counts for beside its strings. -/
def hdEntryOverhead : Nat := 32

/-- `entry_room`: what an entry counts for in the size of the table. -/
def entryRoom (namelen valuelen : Nat) : Nat :=
  hdEntryOverhead + namelen + valuelen

/-- `nghttp2_hd_entry_init`, for the entry at `ref`. -/
def hdEntryInit (ref : Nat) (nv : HdNv) : HdEntry where
  nv := nv
  seq := 0
  hash := 0
  ref := ref

/-- `name_eq`: equality of the names, byte by byte. -/
def nameEq (a : HdNv) (b : Nv) : Bool :=
  a.name = b.name

/-- `value_eq`: equality of the values, byte by byte. -/
def valueEq (a : HdNv) (b : Nv) : Bool :=
  a.value = b.value

/-- A round of `name_hash`. -/
def nameHashStep (h : Nat) (c : Byte) : Nat :=
  let h := h ^^^ c.toNat
  (h + (h <<< 1 + h <<< 4 + h <<< 7 + h <<< 8 + h <<< 24)) % 2 ^ 32

/-- `name_hash`, in 32 bits. -/
def nameHash (nv : Nv) : Nat :=
  nv.name.foldl nameHashStep 2166136261

/-! ### The map

The buckets of the deflater, newest entry first, as the linked lists are kept there. -/

/-- `HD_MAP_SIZE`: the number of buckets, a power of two. -/
def hdMapSize : Nat := 128

/-- `nghttp2_hd_map`: the entries of each bucket, from its root on. -/
structure HdMap where
  table : Nat → List HdEntry

/-- The bucket of a hash: its low bits, as many as the buckets need. -/
def hdMapBucket (hash : Nat) : Nat :=
  hash &&& (hdMapSize - 1)

/-- `hd_map_init`: every bucket is empty. -/
def hdMapInit : HdMap where
  table := fun _ => []

/-- `hd_map_insert`: new entries are linked near the root. -/
def hdMapInsert (map : HdMap) (ent : HdEntry) : HdMap where
  table := fun bucket =>
    if bucket = hdMapBucket ent.hash then ent :: map.table bucket else map.table bucket

/-- Whether `hd_map_find` passes over an entry. Names with a token are told apart by it alone, the
others by their hash and their bytes. -/
def hdMapSkips (nv : Nv) (token : Int) (hash : Nat) (p : HdEntry) : Bool :=
  token ≠ p.nv.token || (token = -1 && (hash ≠ p.hash || !nameEq p.nv nv))

/-- The loop of `hd_map_find` over the entries of a bucket: `res`, and `*exact_match`. -/
def hdMapFindLoop (nv : Nv) (token : Int) (hash : Nat) (nameOnly : Bool) :
    Option HdEntry → List HdEntry → Option HdEntry × Bool
  | res, [] => (res, false)
  | res, p :: next =>
      if hdMapSkips nv token hash p then hdMapFindLoop nv token hash nameOnly res next
      else
        let res' := res.getD p
        if res = none && nameOnly then (some res', false)
        else if valueEq p.nv nv then (some p, true)
        else hdMapFindLoop nv token hash nameOnly (some res') next

/-- `hd_map_find`: an entry with the name, with the value too if there is one and the value is asked
for. -/
def hdMapFind (map : HdMap) (nv : Nv) (token : Int) (hash : Nat) (nameOnly : Bool) :
    Option HdEntry × Bool :=
  hdMapFindLoop nv token hash nameOnly none (map.table (hdMapBucket hash))

/-- `hd_map_remove`: the entry is unlinked where its address is found. -/
def hdMapRemove (map : HdMap) (ent : HdEntry) : HdMap where
  table := fun bucket =>
    if bucket = hdMapBucket ent.hash then (map.table bucket).eraseP fun p => p.ref = ent.ref
    else map.table bucket

/-! ### The context

What deflater and inflater share: the ring buffer, its size in bytes and its limits. Entries are
evicted from the back until a new one fits. -/

/-- `NGHTTP2_HD_DEFAULT_MAX_BUFFER_SIZE`: the limit of a table where nothing else was agreed. -/
def hdDefaultMaxBufferSize : Nat := 4096

/-- `nghttp2_hd_context`, with the next address an entry gets. -/
structure HdContext where
  hdTable : RingBuffer HdEntry
  hdTableBufsize : Nat
  hdTableBufsizeMax : Nat
  nextSeq : Nat
  bad : Bool
  nextRef : Nat

/-- `hd_context_init`: an empty table, in a ring buffer for as many entries as the default limit has
room for. -/
def hdContextInit : HdContext where
  hdTable := RingBuffer.init (hdDefaultMaxBufferSize / hdEntryOverhead)
  hdTableBufsize := 0
  hdTableBufsizeMax := hdDefaultMaxBufferSize
  nextSeq := 0
  bad := false
  nextRef := 0

/-- The body of the loops that evict: the last entry leaves the ring buffer and, where there is one,
the map. -/
def evictLast (context : HdContext) (map : Option HdMap) : HdContext × Option HdMap :=
  match context.hdTable.get (context.hdTable.len - 1) with
  | none => (context, map)
  | some ent =>
      ({ context with
          hdTable := context.hdTable.popBack
          hdTableBufsize :=
            context.hdTableBufsize - entryRoom ent.nv.name.length ent.nv.value.length },
        map.map fun map => hdMapRemove map ent)

/-- Evict for as long as the table and `room` bytes more are too large. Each round evicts an entry.
-/
def evictLoop : (rounds : Nat) → (room : Nat) → HdContext → Option HdMap → HdContext × Option HdMap
  | 0, _, context, map => (context, map)
  | rounds + 1, room, context, map =>
      if context.hdTableBufsize + room > context.hdTableBufsizeMax && context.hdTable.len > 0 then
        let evicted := evictLast context map
        evictLoop rounds room evicted.1 evicted.2
      else (context, map)

/-- `hd_context_shrink_table_size`: evict until the table keeps its limit again. -/
def hdContextShrinkTableSize (context : HdContext) (map : Option HdMap) : HdContext × Option HdMap :=
  evictLoop context.hdTable.len 0 context map

/-- `add_hd_table_incremental`: evict until the field has room, and put it in front. A field that is
larger than the whole table leaves it empty. -/
def addHdTableIncremental (context : HdContext) (nv : HdNv) (map : Option HdMap) (hash : Nat) :
    HdContext × Option HdMap :=
  let room := entryRoom nv.name.length nv.value.length
  let (context, map) := evictLoop context.hdTable.len room context map
  if room > context.hdTableBufsizeMax then (context, map)
  else
    let newEnt :=
      { hdEntryInit context.nextRef nv with
        seq := context.nextSeq
        hash := hash }
    ({ context with
        hdTable := context.hdTable.pushFront newEnt
        hdTableBufsize := context.hdTableBufsize + room
        nextSeq := (context.nextSeq + 1) % 2 ^ 32
        nextRef := context.nextRef + 1 },
      map.map fun map => hdMapInsert map newEnt)

/-! ### Lookup

By index, as the inflater does it, and by name and value, as the deflater does: in the map first,
and without an exact match there in the static table. -/

/-- `get_max_index`: how many fields both tables have, which is the largest index on the wire. -/
def getMaxIndex (context : HdContext) : Nat :=
  context.hdTable.len + staticTableLength

/-- `nghttp2_hd_table_get`; none is the assertion that fails. -/
def hdTableGet (context : HdContext) (idx : Nat) : Option HdNv :=
  if idx ≥ staticTableLength then
    (context.hdTable.get (idx - staticTableLength)).map fun ent => ent.nv
  else staticTable[idx]?.map fun ent =>
    { name := ent.name, value := ent.value, token := ent.token, flags := nvFlagNone }

/-- `search_result`; no index is the index -1. -/
structure SearchResult where
  index : Option Nat
  nameValueMatch : Bool
deriving DecidableEq, Repr

/-- The loop of `search_static_table`, from entry number `i` on. -/
def searchStaticLoop (nv : Nv) (token : Int) : (i : Nat) → List StaticEntry → Option Nat
  | _, [] => none
  | i, ent :: later =>
      if ent.token ≠ token then none
      else if ent.value = nv.value then some i
      else searchStaticLoop nv token (i + 1) later

/-- `search_static_table`, for a token that is not negative. -/
def searchStaticTable (nv : Nv) (token : Nat) (nameOnly : Bool) : SearchResult :=
  if nameOnly then { index := some token, nameValueMatch := false }
  else
    match searchStaticLoop nv token token (staticTable.drop token) with
    | some i => { index := some i, nameValueMatch := true }
    | none => { index := some token, nameValueMatch := false }

/-- `nghttp2_hd_indexing_mode`: whether a field goes to the table, does not, or is to go to no table
on its way. -/
inductive IndexingMode where
  | withIndexing
  | withoutIndexing
  | neverIndexing
deriving DecidableEq, Repr

/-- `search_hd_table`. The index of an entry comes from its sequence number, in 32 bits. -/
def searchHdTable (context : HdContext) (nv : Nv) (token : Int) (indexingMode : IndexingMode)
    (map : HdMap) (hash : Nat) : SearchResult :=
  let nameOnly := decide (indexingMode = .neverIndexing)
  let found := hdMapFind map nv token hash nameOnly
  if !found.2 && token ≥ 0 && token ≤ tokenWwwAuthenticate then
    searchStaticTable nv token.toNat nameOnly
  else
    match found.1 with
    | none => { index := none, nameValueMatch := false }
    | some ent =>
        { index := some
            ((context.nextSeq + (2 ^ 32 - 1) + (2 ^ 32 - ent.seq) + staticTableLength) % 2 ^ 32)
          nameValueMatch := found.2 }

end Hfc.Hpack
