/-
Module: Hfc.Proofs.Hpack.DeflateBound
Layer: Proofs
Purpose: The bound that the application is given for the size of a header block is one: a block fits
  into that much room, in whatever state the deflater is and into whatever pieces the room is cut.
Imports: Hfc.Proofs.Hpack.RoundTrip
Main exports: length_encodeLength_le, length_bytes_le, deflate_bound_suffices
-/
import Hfc.Proofs.Hpack.RoundTrip

namespace Hfc.Hpack

open ByteText BoundedFront

/-- A number of `j` groups behind its first byte. -/
theorem length_encodeLength_le (buf : Byte) {n j : Nat} (prefixlen : Nat)
    (small : n < 2 ^ (7 * (j + 1))) : (encodeLength buf n prefixlen).length ≤ j + 2 := by
  rw [length_encodeLength, countEncodedLength]
  split
  · omega
  · have groups : countGroups (n - fullPrefix prefixlen) (n - fullPrefix prefixlen) ≤ j + 1 :=
      countGroups_le ((Nat.sub_le _ _).trans_lt small)
    omega

/-- A string takes five bytes more than it has, at most. -/
theorem length_stringBytes_le {str : Bytes} (short : str.length < 2 ^ 28) :
    (stringBytes str).length ≤ str.length + 5 := by
  have body : stringLength str ≤ str.length := Nat.min_le_right _ _
  have number := length_encodeLength_le (stringBit str) (n := stringLength str) (j := 3) 7
    (body.trans_lt short)
  rw [stringBytes_eq, List.length_append, length_stringBody]
  omega

/-- Twelve bytes more than a field has are enough for any representation of it. -/
theorem length_bytes_le {table table' : FieldTable} {rep : Representation} {field : HdNv}
    (means : rep.apply table = some (table', some field))
    (few : table.fields.length + staticTableLength < 2 ^ 32) (name : field.name.length < 2 ^ 28)
    (value : field.value.length < 2 ^ 28) :
    rep.bytes.length ≤ 12 + (field.name.length + field.value.length) := by
  have index (buf : Byte) {idx : Nat} {found : HdNv} (prefixlen : Nat)
      (inTable : getField table.fields idx = some found) :
      (encodeLength buf (idx + 1) prefixlen).length ≤ 6 := by
    have inside := lt_of_getField inTable
    exact length_encodeLength_le (j := 4) buf prefixlen
      (Nat.lt_of_lt_of_le (show idx + 1 < 2 ^ 32 by omega) (by decide))
  cases rep with
  | tableSize size => cases means
  | indexed idx =>
      obtain ⟨found, inTable, -⟩ := Option.map_eq_some_iff.mp means
      have number := index 0x80 7 inTable
      rw [Representation.bytes]
      omega
  | indname mode idx val =>
      obtain ⟨found, inTable, same⟩ := Option.map_eq_some_iff.mp means
      cases same
      have number := index (packFirstByte mode) (indexBits mode) inTable
      have string := length_stringBytes_le value
      rw [Representation.bytes, List.length_append]
      dsimp only at string ⊢
      omega
  | newname mode n val =>
      cases means
      have string := length_stringBytes_le name
      have string' := length_stringBytes_le value
      rw [Representation.bytes, List.length_cons, List.length_append]
      dsimp only at string string' ⊢
      omega

/-- The bytes of the fields of a block. -/
theorem length_blockBytes_le {table table' : FieldTable} {reps : List Representation}
    {fields : List HdNv} (means : applyAll table reps = some (table', fields))
    (isField : ∀ rep ∈ reps, rep.IsField) (light : weight fieldRoom table.fields ≤ table.most)
    (small : table.most < 2 ^ 32)
    (short : ∀ nv ∈ fields, nv.name.length < 2 ^ 28 ∧ nv.value.length < 2 ^ 28) :
    (blockBytes reps).length ≤
      (fields.map fun nv => 12 + (nv.name.length + nv.value.length)).sum := by
  induction reps generalizing table fields with
  | nil => exact Nat.zero_le _
  | cons rep reps ih =>
      obtain ⟨⟨table₁, field⟩, here, rest⟩ := Option.bind_eq_some_iff.mp means
      obtain ⟨⟨t, later⟩, there, rest⟩ := Option.bind_eq_some_iff.mp rest
      cases rest
      have first := isField rep List.mem_cons_self
      obtain ⟨nv, rfl⟩ := first.field here
      have few : table.fields.length + staticTableLength < 2 ^ 32 := by
        have length := length_le_weight table.fields
        rw [staticTableLength]
        omega
      obtain ⟨light₁, most₁⟩ := apply_light first here light
      obtain ⟨name, value⟩ := short nv List.mem_cons_self
      have bytes := length_bytes_le here few name value
      have others := ih there (fun rep member => isField rep (List.mem_cons_of_mem _ member)) light₁
        (most₁ ▸ small) fun nv' member => short nv' (List.mem_cons_of_mem _ member)
      rw [blockBytes_cons, List.length_append]
      show _ ≤ (12 + (nv.name.length + nv.value.length)) +
        (later.map fun nv => 12 + (nv.name.length + nv.value.length)).sum
      omega

theorem length_toldSizes_le {deflater : HdDeflater}
    (small : deflater.ctx.hdTableBufsizeMax < 2 ^ 32) :
    (blockBytes (toldSizes deflater)).length ≤ 12 := by
  have size {n : Nat} (small : n < 2 ^ 32) : (encodeLength 0x20 n 5).length ≤ 6 :=
    length_encodeLength_le (j := 4) 0x20 5 (small.trans (by decide))
  rw [toldSizes]
  split
  · split
    · rename_i larger
      have first := size (larger.trans small)
      have second := size small
      rw [blockBytes_cons, blockBytes_cons, blockBytes_nil, List.append_nil, List.length_append]
      exact Nat.add_le_add first second
    · have first := size small
      rw [blockBytes_cons, blockBytes_nil, List.append_nil]
      exact first.trans (by decide)
  · exact Nat.zero_le _

/-- What the bound adds up. -/
theorem hdDeflateBound_eq (nva : List Nv) :
    hdDeflateBound nva =
      12 + ((nva.map sentField).map fun nv => 12 + (nv.name.length + nv.value.length)).sum := by
  have total : ((nva.map sentField).map fun nv => 12 + (nv.name.length + nv.value.length)).sum =
      12 * nva.length + (nva.map fun nv => nv.name.length + nv.value.length).sum := by
    induction nva with
    | nil => rfl
    | cons nv nva ih =>
        rw [List.map_cons, List.map_cons, List.map_cons, List.sum_cons, List.sum_cons, ih,
          List.length_cons]
        show 12 + (nv.name.length + nv.value.length) + _ = _
        omega
  rw [total, hdDeflateBound]
  omega

/-- A block in a state in which the deflater has not failed: its bytes fit into the bound, and they
are written if they fit into the room; otherwise the room is too small. -/
theorem DeflaterReady.bound {deflater : HdDeflater} {table : List HdNv}
    (ready : DeflaterReady deflater table) (good : deflater.ctx.bad = false) (bufs : Bufs)
    {nva : List Nv} (short : ∀ nv ∈ nva, nv.name.length < 2 ^ 28 ∧ nv.value.length < 2 ^ 28) :
    ∃ bytes : Bytes, bytes.length ≤ hdDeflateBound nva ∧
      (hdDeflateHdBufs deflater bufs nva).2 = (bufs.write bytes : Except Int Bufs) := by
  have writable (nv : Nv) (member : nv ∈ nva) : Writable nv :=
    ⟨((Nat.min_le_right _ _).trans_lt (short nv member).1).trans (by decide),
      ((Nat.min_le_right _ _).trans_lt (short nv member).2).trans (by decide)⟩
  rw [hdDeflateHdBufs_eq good]
  have start := startBlock_eq ready.most bufs
  have sizes := length_toldSizes_le ready.most
  cases started : startBlock deflater bufs with
  | error rv =>
      refine ⟨blockBytes (toldSizes deflater), ?_, started.symm.trans start⟩
      rw [hdDeflateBound]
      omega
  | ok bufs₁ =>
      obtain ⟨reps, table', block⟩ := deflateNvs_spec ready.notified bufs₁ nva
      have fields : ∀ nv ∈ nva.map sentField, nv.name.length < 2 ^ 28 ∧ nv.value.length < 2 ^ 28 := by
        intro nv member
        obtain ⟨nv', member', rfl⟩ := List.mem_map.mp member
        exact short nv' member'
      have length := length_blockBytes_le block.means block.isField ready.notified.light
        ready.notified.most fields
      refine ⟨blockBytes (toldSizes deflater) ++ blockBytes reps, ?_, ?_⟩
      · rw [hdDeflateBound_eq, List.length_append]
        exact Nat.add_le_add sizes length
      · rw [Bufs.write_append, ← start, started]
        show _ = bufs₁.write (blockBytes reps)
        rw [← block.bytes writable]
        dsimp only
        cases (deflateNvs deflater.notified bufs₁ nva).2 <;> rfl

/-- What the caller is told about a block. -/
theorem hdDeflateHdVec_outcome (deflater : HdDeflater) (first : Nat) (later : List Nat)
    (roomy : ∀ room ∈ later, 0 < room) (nva : List Nv) :
    (hdDeflateHdVec deflater first later roomy nva).2 =
      match (hdDeflateHdBufs deflater (bufsWrapInit2 first later roomy) nva).2 with
      | .error rv => .error (if rv = nghttp2ErrBufferError then nghttp2ErrInsuffBufsize else rv)
      | .ok bufs => .ok bufs.out := by
  rw [hdDeflateHdVec, deflateInto]
  generalize hdDeflateHdBufs deflater (bufsWrapInit2 first later roomy) nva = r
  obtain ⟨d, r⟩ := r
  cases r <;> rfl

/-- A block written into buffers whose pieces are cut in any way. -/
theorem DeflaterReady.written {deflater : HdDeflater} {table : List HdNv}
    (ready : DeflaterReady deflater table) (good : deflater.ctx.bad = false) {nva : List Nv}
    (short : ∀ nv ∈ nva, nv.name.length < 2 ^ 28 ∧ nv.value.length < 2 ^ 28) (first : Nat)
    (later : List Nat) (roomy : ∀ room ∈ later, 0 < room) :
    ∃ bytes : Bytes, bytes.length ≤ hdDeflateBound nva ∧
      (bytes.length ≤ first + later.sum →
        (hdDeflateHdVec deflater first later roomy nva).2 = .ok bytes) ∧
      (first + later.sum < bytes.length →
        (hdDeflateHdVec deflater first later roomy nva).2 = .error nghttp2ErrInsuffBufsize) := by
  obtain ⟨bytes, bound, written⟩ := ready.bound good (bufsWrapInit2 first later roomy) short
  obtain ⟨fits, full⟩ := (bufsWrapInit2 first later roomy).write_eq bytes
  have into := hdDeflateHdVec_outcome deflater first later roomy nva
  refine ⟨bytes, bound, fun room => ?_, fun less => ?_⟩
  · obtain ⟨bufs', same, out, -⟩ := fits room
    rw [into, written, same]
    exact congrArg Except.ok out
  · rw [into, written, full less]
    rfl

/-- The bound is one: after any calls, if the deflater has not failed, the bytes of a block are no
more than `nghttp2_hd_deflate_bound` says, and they are written into any buffers that have as much
room as they are long, in whatever pieces; otherwise the only error is that the buffers are too
small. So a single buffer of that length always takes the block. -/
theorem deflate_bound_suffices (most : Nat) (small : most < 2 ^ 32) (calls : List DeflateCall)
    (good : (EventRun.exec HdDeflater.call (hdDeflateInit2 most) calls).ctx.bad = false)
    (nva : List Nv) (short : ∀ nv ∈ nva, nv.name.length < 2 ^ 28 ∧ nv.value.length < 2 ^ 28)
    (first : Nat) (later : List Nat) (roomy : ∀ room ∈ later, 0 < room) :
    let deflater := EventRun.exec HdDeflater.call (hdDeflateInit2 most) calls
    (∃ bytes : Bytes, bytes.length ≤ hdDeflateBound nva ∧
      (bytes.length ≤ first + later.sum →
        (hdDeflateHdVec deflater first later roomy nva).2 = .ok bytes) ∧
      (first + later.sum < bytes.length →
        (hdDeflateHdVec deflater first later roomy nva).2 = .error nghttp2ErrInsuffBufsize)) ∧
      ∃ bytes, (hdDeflateHd deflater (hdDeflateBound nva) nva).2 = .ok bytes := by
  intro deflater
  have limited : DeflaterLimited most deflater :=
    EventRun.invariant_exec (DeflaterLimited most) (fun _ call limited => limited.call small call)
      (.init most) calls
  obtain ⟨table, ready⟩ := limited.ready
  refine ⟨ready.written good short first later roomy, ?_⟩
  obtain ⟨bytes, bound, fits, -⟩ :=
    ready.written good short (hdDeflateBound nva) [] (fun room member => by cases member)
  exact ⟨bytes, fits bound⟩

/-- A deflater with room for nothing in its table still fits a field into the bound, cut in three or
in one piece. -/
theorem deflate_bound_suffices_tiny :
    let deflater := EventRun.exec HdDeflater.call (hdDeflateInit2 0) [.changeTableSize 4096]
    let nva : List Nv := [⟨ascii "x-a", ascii "1", 0⟩]
    (∃ bytes : Bytes, bytes.length ≤ 28 ∧
      (bytes.length ≤ 10 + [10, 20].sum →
        (hdDeflateHdVec deflater 10 [10, 20] (by decide) nva).2 = .ok bytes) ∧
      (10 + [10, 20].sum < bytes.length →
        (hdDeflateHdVec deflater 10 [10, 20] (by decide) nva).2 =
          .error nghttp2ErrInsuffBufsize)) ∧
      ∃ bytes, (hdDeflateHd deflater 28 nva).2 = .ok bytes :=
  deflate_bound_suffices 0 (by decide) [.changeTableSize 4096] rfl [⟨ascii "x-a", ascii "1", 0⟩]
    (by
      intro nv member
      cases List.mem_singleton.mp member
      decide) 10 [10, 20] (by decide)

end Hfc.Hpack
