/-
Module: Hfc.Proofs.Hpack.Deflating
Layer: Proofs
Purpose: The deflater writes the bytes of a representation that means the field it is given, and its
  table becomes what the representation makes of it. So the search of its table is right in every
  run.
Imports: Hfc.Spec.Hpack.Representation, Hfc.Proofs.Hpack.TableSearch,
  Hfc.Proofs.Hpack.HuffmanEncoding, Hfc.Proofs.Hpack.IntegerCoding, Hfc.Core.Hpack.Calls
Main exports: emitNumber_eq, emitString_eq, DeflaterSame, deflateNv_spec, deflateNvs_spec,
  table_search_in_runs
-/
import Hfc.Spec.Hpack.Representation
import Hfc.Proofs.Hpack.TableSearch
import Hfc.Proofs.Hpack.HuffmanEncoding
import Hfc.Proofs.Hpack.IntegerCoding
import Hfc.Core.Hpack.Calls

namespace Hfc.Hpack

open ByteText BoundedFront

/-! ### What is written

Each function that emits a representation writes the bytes of that representation, if there is room
for them. -/

/-- A number of `j` groups takes no more than `j` of them. -/
theorem countGroups_le {rounds n j : Nat} (small : n < 2 ^ (7 * (j + 1))) :
    countGroups rounds n ≤ j + 1 := by
  induction rounds generalizing n j with
  | zero => exact Nat.succ_le_succ (Nat.zero_le _)
  | succ rounds ih =>
      rw [countGroups]
      split
      · rename_i large
        cases j with
        | zero => exact absurd small (not_lt.mpr large)
        | succ j =>
            refine Nat.succ_le_succ (ih ?_)
            rw [Nat.shiftRight_eq_div_pow]
            refine Nat.div_lt_of_lt_mul ?_
            rw [← pow_add]
            exact lt_of_lt_of_eq small (congrArg (2 ^ ·) (by ring))
      · exact Nat.succ_le_succ (Nat.zero_le _)

/-- The number of a `size_t` fits into the 16 bytes there are for it. -/
theorem emitNumber_eq (bufs : Bufs) (first : Byte) {n : Nat} (small : n < 2 ^ 64) (prefixlen : Nat) :
    emitNumber bufs first n prefixlen = bufs.write (encodeLength first n prefixlen) := by
  have short : ¬16 < countEncodedLength n prefixlen := by
    rw [countEncodedLength]
    split
    · decide
    · have groups : countGroups (n - fullPrefix prefixlen) (n - fullPrefix prefixlen) ≤ 9 + 1 :=
        countGroups_le (Nat.lt_of_le_of_lt (Nat.sub_le _ _)
          (Nat.lt_of_lt_of_le small (Nat.pow_le_pow_right (by decide) (by decide))))
      omega
  rw [emitNumber, if_neg short, ← length_encodeLength first, List.take_length, bufsAdd_eq_write]

theorem emitString_eq (bufs : Bufs) {str : Bytes} (short : stringLength str < 2 ^ 64) :
    emitString bufs str = bufs.write (stringBytes str) := by
  rw [stringLength] at short
  rw [emitString, stringBytes, hdHuffEncodeCount_eq]
  split
  · rw [emitNumber_eq _ _ (by omega), Bufs.write_append]
    exact bind_congr fun bufs => hdHuffEncode_eq_write bufs str
  · rw [emitNumber_eq _ _ (by omega), Bufs.write_append]
    exact bind_congr fun bufs => bufsAdd_eq_write bufs str

theorem emitIndexedBlock_eq (bufs : Bufs) {idx : Nat} (small : idx + 1 < 2 ^ 32) :
    emitIndexedBlock bufs idx = bufs.write (Representation.indexed idx).bytes :=
  emitNumber_eq bufs 0x80 (by omega) 7

theorem emitIndnameBlock_eq (bufs : Bufs) {idx : Nat} (small : idx + 1 < 2 ^ 32) {nv : Nv}
    (short : stringLength nv.value < 2 ^ 64) (mode : IndexingMode) :
    emitIndnameBlock bufs idx nv mode =
      bufs.write (Representation.indname mode idx nv.value).bytes := by
  rw [emitIndnameBlock, Representation.bytes, Bufs.write_append, emitNumber_eq _ _ (by omega)]
  exact bind_congr fun bufs => emitString_eq bufs short

/-- A header field whose strings have lengths of a `size_t`. -/
structure Writable (nv : Nv) : Prop where
  name : stringLength nv.name < 2 ^ 64
  value : stringLength nv.value < 2 ^ 64

theorem Sendable.writable {nv : Nv} (sendable : Sendable nv) : Writable nv :=
  ⟨sendable.name.trans_lt (by decide), sendable.value.trans_lt (by decide)⟩

theorem emitNewnameBlock_eq (bufs : Bufs) {nv : Nv} (writable : Writable nv) (mode : IndexingMode) :
    emitNewnameBlock bufs nv mode =
      bufs.write (Representation.newname mode nv.name nv.value).bytes := by
  rw [emitNewnameBlock, Representation.bytes, Bufs.write_cons]
  refine bind_congr fun bufs => ?_
  rw [Bufs.write_append, emitString_eq bufs writable.name]
  exact bind_congr fun bufs => emitString_eq bufs writable.value

/-! ### A field

One field of a block: the representation that is chosen stands for the field, and the table of the
deflater is the one the representation leads to. -/

/-- What a field leaves as it is of a deflater. -/
structure DeflaterSame (deflater deflater' : HdDeflater) : Prop where
  most : deflater'.ctx.hdTableBufsizeMax = deflater.ctx.hdTableBufsizeMax
  bad : deflater'.ctx.bad = deflater.ctx.bad
  deflateMost : deflater'.deflateHdTableBufsizeMax = deflater.deflateHdTableBufsizeMax
  least : deflater'.minHdTableBufsizeMax = deflater.minHdTableBufsizeMax
  notify : deflater'.notifyTableSizeChange = deflater.notifyTableSizeChange

theorem DeflaterSame.refl (deflater : HdDeflater) : DeflaterSame deflater deflater :=
  ⟨rfl, rfl, rfl, rfl, rfl⟩

theorem DeflaterSame.trans {d d' d'' : HdDeflater} (first : DeflaterSame d d')
    (second : DeflaterSame d' d'') : DeflaterSame d d'' :=
  ⟨second.most.trans first.most, second.bad.trans first.bad,
    second.deflateMost.trans first.deflateMost, second.least.trans first.least,
    second.notify.trans first.notify⟩

/-- The table of a deflater, with the room it may take. -/
def HdDeflater.fieldTable (deflater : HdDeflater) (table : List HdNv) : FieldTable where
  most := deflater.ctx.hdTableBufsizeMax
  fields := table

theorem hashOfToken_eq {nv nv' : Nv} (names : nv.name = nv'.name) (token : Int) :
    hashOfToken nv token = hashOfToken nv' token := by
  rw [hashOfToken, hashOfToken, nameHash, nameHash, names]

/-- The field that is put into the table for a field. -/
def tableField (nv : Nv) : HdNv where
  name := nv.name
  value := nv.value
  token := lookupToken nv.name
  flags := nvFlagNone

/-- The deflater with a field in its table. -/
theorem DeflaterHolds.add {deflater : HdDeflater} {table : List HdNv}
    (holds : DeflaterHolds deflater table) (nv : Nv) :
    let added := deflater.withTable (addHdTableIncremental deflater.ctx (tableField nv)
      (some deflater.map) (hashOfToken nv (lookupToken nv.name)))
    DeflaterHolds added (addField deflater.ctx.hdTableBufsizeMax (tableField nv) table) ∧
      DeflaterSame deflater added := by
  intro added
  have spec := holds.holds.add holds.inMap (tableField nv) (hashOfToken nv (lookupToken nv.name))
  obtain ⟨map', isMap⟩ := addHdTableIncremental_map deflater.ctx (tableField nv) deflater.map
    (hashOfToken nv (lookupToken nv.name))
  have inMap := spec.inMap
  rw [isMap] at inMap
  have same : added.map = map' := by
    show (addHdTableIncremental _ _ _ _).2.getD _ = _
    rw [isMap]
    rfl
  refine ⟨⟨spec.holds, by rw [same]; exact inMap, holds.tokened.addField _ rfl rfl, ?_⟩,
    ⟨spec.most, spec.bad, rfl, rfl, rfl⟩⟩
  intro ent member nv' names
  rcases spec.entries ent member with old | ⟨isField, hash⟩
  · exact holds.hashed ent old nv' names
  · rw [isField] at names
    have names : nv'.name = nv.name := names
    rw [hash, names]
    exact hashOfToken_eq names.symm _

/-- The fields of both tables have the tokens of their names, and no flags. -/
theorem getField_tokened {table : List HdNv} (tokened : Tokened table) {idx : Nat} {field : HdNv}
    (found : getField table idx = some field) :
    field.token = lookupToken field.name ∧ field.flags = nvFlagNone := by
  by_cases static : idx < staticTableLength
  · obtain ⟨ent, inTable, name, -, token, flags⟩ := getField_static static table found
    rw [token, name, staticTable_token inTable]
    exact ⟨rfl, flags⟩
  · rw [getField, if_pos (not_lt.mp static)] at found
    exact tokened field (List.mem_of_getElem? found)

/-- A field is never indexed when it should not be, whatever the deflater. -/
theorem indexingModeOf_never (deflater : HdDeflater) (nv : Nv) :
    indexingModeOf deflater nv (lookupToken nv.name) = .neverIndexing ↔ neverIndexed nv = true := by
  rw [indexingModeOf, neverIndexed]
  split
  · rename_i never
    exact ⟨fun _ => never, fun _ => rfl⟩
  · rename_i other
    refine ⟨fun never => ?_, fun never => absurd never other⟩
    rw [hdDeflateDecideIndexing] at never
    split at never <;> cases never

theorem indexingModeOf_flags (deflater : HdDeflater) (nv : Nv) :
    (indexingModeOf deflater nv (lookupToken nv.name)).flags = (sentField nv).flags := by
  show _ = if neverIndexed nv = true then _ else _
  rw [IndexingMode.flags]
  exact if_congr (indexingModeOf_never deflater nv) rfl rfl

/-- A deflater that holds a table, which takes no more room than it may. -/
structure DeflaterReady (deflater : HdDeflater) (table : List HdNv) : Prop where
  holds : DeflaterHolds deflater table
  light : weight fieldRoom table ≤ deflater.ctx.hdTableBufsizeMax
  most : deflater.ctx.hdTableBufsizeMax < 2 ^ 32

theorem DeflaterReady.few {deflater : HdDeflater} {table : List HdNv}
    (ready : DeflaterReady deflater table) : table.length + staticTableLength < 2 ^ 32 := by
  have few := length_le_weight table
  have light := ready.light
  have most := ready.most
  rw [staticTableLength]
  omega

/-- A header field: the bytes of a representation that stands for it are written, and the table
becomes what it makes of it. -/
structure FieldDeflated (deflater : HdDeflater) (table : List HdNv) (bufs : Bufs) (nv : Nv)
    (r : HdDeflater × Except Int Bufs) (rep : Representation) (table' : List HdNv) : Prop where
  means : rep.apply (deflater.fieldTable table) =
    some (deflater.fieldTable table', some (sentField nv))
  bytes : Writable nv → r.2 = bufs.write rep.bytes
  holds : DeflaterReady r.1 table'
  same : DeflaterSame deflater r.1
  readable : Sendable nv → rep.Readable

/-- What goes into the table is what the other side gets, when it is indexed. -/
theorem sentField_indexed (deflater : HdDeflater) (nv : Nv)
    (indexed : indexingModeOf deflater nv (lookupToken nv.name) = .withIndexing) :
    sentField nv = tableField nv := by
  have flags := indexingModeOf_flags deflater nv
  rw [indexed] at flags
  show { tableField nv with flags := (sentField nv).flags } = tableField nv
  rw [← flags]
  rfl

/-- The table behind a field that came in a mode other than the one that indexes it. -/
theorem FieldTable.index_of_ne {mode : IndexingMode} (other : mode ≠ .withIndexing)
    (table : FieldTable) (field : HdNv) : table.index mode field = table :=
  if_neg other

theorem deflateNv_spec {deflater : HdDeflater} {table : List HdNv}
    (ready : DeflaterReady deflater table) (bufs : Bufs) (nv : Nv) :
    ∃ rep table', FieldDeflated deflater table bufs nv (deflateNv deflater bufs nv) rep table' := by
  have holds := ready.holds
  have small := ready.few
  have searched := searchHdTable_spec holds small.le nv
    (indexingModeOf deflater nv (lookupToken nv.name))
  have flags := indexingModeOf_flags deflater nv
  have stored := sentField_indexed deflater nv
  obtain ⟨holds', same'⟩ := holds.add nv
  have ready' : DeflaterReady _ _ := ⟨holds', by
    rw [same'.most]
    exact weight_addField_le _ _ _, by
    rw [same'.most]
    exact ready.most⟩
  rw [deflateNv]
  generalize searchHdTable deflater.ctx nv (lookupToken nv.name)
    (indexingModeOf deflater nv (lookupToken nv.name)) deflater.map
    (hashOfToken nv (lookupToken nv.name)) = res at searched
  generalize indexingModeOf deflater nv (lookupToken nv.name) = mode at searched flags stored ⊢
  split
  -- The name is in a table.
  · rename_i idx isIndex
    obtain ⟨field, found, name, value⟩ := searched.index idx isIndex
    obtain ⟨token, noFlags⟩ := getField_tokened holds.tokened found
    have inside := lt_of_getField found
    have named : { field with value := nv.value, flags := mode.flags } = sentField nv := by
      rw [flags, token, name]
      rfl
    split
    -- With its value as well: the index alone is written, and no table changes.
    · rename_i hit
      have other : mode.flags = nvFlagNone := by
        have notNever := of_decide_eq_false (searched.value hit).1
        exact if_neg notNever
      have isSent : field = sentField nv := by
        rw [← named, other, ← value hit, ← noFlags]
      refine ⟨.indexed idx, table, ?_, fun _ => emitIndexedBlock_eq bufs (by omega), ready, .refl _,
        fun _ => trivial⟩
      show (getField table idx).map _ = _
      rw [found, isSent]
      rfl
    · split
      -- With another value: index and value, and the field goes to the table if its mode says so.
      · rename_i isWith
        rw [hdTableGet_eq holds.holds, found]
        have isField : HdNv.mk field.name nv.value (lookupToken nv.name) nvFlagNone =
            tableField nv := by
          rw [name]
          rfl
        dsimp only
        rw [isField]
        refine ⟨.indname mode idx nv.value, _, ?_,
          fun writable => emitIndnameBlock_eq bufs (by omega) writable.value mode, ready', same',
          fun sendable => sendable.value⟩
        show (getField table idx).map _ = _
        rw [found, Option.map_some]
        dsimp only
        rw [named, FieldTable.index, if_pos isWith, stored isWith]
        rfl
      · rename_i notWith
        refine ⟨.indname mode idx nv.value, table, ?_,
          fun writable => emitIndnameBlock_eq bufs (by omega) writable.value mode, ready, .refl _,
          fun sendable => sendable.value⟩
        show (getField table idx).map _ = _
        rw [found, Option.map_some]
        dsimp only
        rw [named, FieldTable.index_of_ne notWith]
  -- The name is new, and is written out.
  · have named : HdNv.mk nv.name nv.value (lookupToken nv.name) mode.flags = sentField nv := by
      rw [flags]
      rfl
    split
    · rename_i isWith
      refine ⟨.newname mode nv.name nv.value, _, ?_,
        fun writable => emitNewnameBlock_eq bufs writable mode, ready', same',
        fun sendable => ⟨sendable.name, sendable.value⟩⟩
      rw [Representation.apply, named, FieldTable.index, if_pos isWith, stored isWith]
      rfl
    · rename_i notWith
      refine ⟨.newname mode nv.name nv.value, table, ?_,
        fun writable => emitNewnameBlock_eq bufs writable mode, ready, .refl _,
        fun sendable => ⟨sendable.name, sendable.value⟩⟩
      rw [Representation.apply, named, FieldTable.index_of_ne notWith]

/-! ### A block

The representations of a block in order, with the changes of the table size in front of them. -/

theorem deflateNvs_cons (deflater : HdDeflater) (bufs : Bufs) (nv : Nv) (nva : List Nv) :
    deflateNvs deflater bufs (nv :: nva) =
      match (deflateNv deflater bufs nv).2 with
      | .error rv => ((deflateNv deflater bufs nv).1, .error rv)
      | .ok bufs' => deflateNvs (deflateNv deflater bufs nv).1 bufs' nva := by
  rw [deflateNvs]
  generalize deflateNv deflater bufs nv = r
  obtain ⟨d, r⟩ := r
  cases r <;> rfl

/-- The fields of a block: the bytes of representations that stand for them are written, as far as
there is room, and the table becomes what they make of it. -/
structure BlockDeflated (deflater : HdDeflater) (table : List HdNv) (bufs : Bufs) (nva : List Nv)
    (r : HdDeflater × Except Int Bufs) (reps : List Representation) (table' : List HdNv) : Prop where
  means : applyAll (deflater.fieldTable table) reps =
    some (deflater.fieldTable table', nva.map sentField)
  bytes : (∀ nv ∈ nva, Writable nv) → r.2 = bufs.write (blockBytes reps)
  holds : ∀ bufs', r.2 = .ok bufs' → DeflaterReady r.1 table'
  same : DeflaterSame deflater r.1
  isField : ∀ rep ∈ reps, rep.IsField
  readable : (∀ nv ∈ nva, Sendable nv) → ∀ rep ∈ reps, rep.Readable

theorem deflateNvs_spec {deflater : HdDeflater} {table : List HdNv}
    (ready : DeflaterReady deflater table) (bufs : Bufs) (nva : List Nv) :
    ∃ reps table', BlockDeflated deflater table bufs nva (deflateNvs deflater bufs nva) reps
      table' := by
  induction nva generalizing deflater table bufs with
  | nil =>
      exact ⟨[], table, rfl, fun _ => rfl, fun _ _ => ready, .refl _,
        fun _ member => (by cases member), fun _ _ member => (by cases member)⟩
  | cons nv nva ih =>
      obtain ⟨rep, table₁, field⟩ := deflateNv_spec ready bufs nv
      -- The later fields are deflated with the table this one leaves.
      have tables (t : List HdNv) :
          (deflateNv deflater bufs nv).1.fieldTable t = deflater.fieldTable t := by
        rw [HdDeflater.fieldTable, HdDeflater.fieldTable, field.same.most]
      have means {reps : List Representation} {table' : List HdNv}
          (later : applyAll ((deflateNv deflater bufs nv).1.fieldTable table₁) reps =
            some ((deflateNv deflater bufs nv).1.fieldTable table', nva.map sentField)) :
          applyAll (deflater.fieldTable table) (rep :: reps) =
            some (deflater.fieldTable table', (nv :: nva).map sentField) := by
        rw [tables, tables] at later
        rw [applyAll, field.means]
        show (applyAll (deflater.fieldTable table₁) reps).bind _ = _
        rw [later]
        rfl
      rw [deflateNvs_cons]
      cases written : (deflateNv deflater bufs nv).2 with
      -- No room for this field: the block ends with the error, and its representations still stand
      -- for all fields.
      | error rv =>
          obtain ⟨reps, table', block⟩ := ih field.holds bufs
          refine ⟨rep :: reps, table', means block.means, fun all => ?_,
            fun _ ok => (by cases ok), field.same,
            List.forall_mem_cons.mpr ⟨isField_of_apply field.means, block.isField⟩, fun all => ?_⟩
          · have bytes := field.bytes (all nv List.mem_cons_self)
            rw [written] at bytes
            rw [blockBytes_cons, Bufs.write_append, ← bytes]
            rfl
          · exact List.forall_mem_cons.mpr ⟨field.readable (all nv List.mem_cons_self),
              block.readable fun nv' member => all nv' (List.mem_cons_of_mem _ member)⟩
      | ok bufs₁ =>
          obtain ⟨reps, table', block⟩ := ih field.holds bufs₁
          refine ⟨rep :: reps, table', means block.means, fun all => ?_, block.holds,
            field.same.trans block.same,
            List.forall_mem_cons.mpr ⟨isField_of_apply field.means, block.isField⟩, fun all => ?_⟩
          · have bytes := field.bytes (all nv List.mem_cons_self)
            rw [written] at bytes
            rw [blockBytes_cons, Bufs.write_append, ← bytes]
            exact block.bytes fun nv' member => all nv' (List.mem_cons_of_mem _ member)
          · exact List.forall_mem_cons.mpr ⟨field.readable (all nv List.mem_cons_self),
              block.readable fun nv' member => all nv' (List.mem_cons_of_mem _ member)⟩

/-- Whether there was room for them or not, the fields leave a deflater that holds a table. -/
theorem deflateNvs_ready {deflater : HdDeflater} {table : List HdNv}
    (ready : DeflaterReady deflater table) (bufs : Bufs) (nva : List Nv) :
    ∃ table', DeflaterReady (deflateNvs deflater bufs nva).1 table' := by
  induction nva generalizing deflater table bufs with
  | nil => exact ⟨table, ready⟩
  | cons nv nva ih =>
      obtain ⟨rep, table₁, field⟩ := deflateNv_spec ready bufs nv
      rw [deflateNvs_cons]
      cases (deflateNv deflater bufs nv).2 with
      | error rv => exact ⟨table₁, field.holds⟩
      | ok bufs₁ => exact ih field.holds bufs₁

/-- A deflater that has told its table sizes. -/
def HdDeflater.notified (deflater : HdDeflater) : HdDeflater :=
  if deflater.notifyTableSizeChange then
    { deflater with
      notifyTableSizeChange := false
      minHdTableBufsizeMax := uint32Max }
  else deflater

/-- The table sizes at the head of a block, if there are any to be told. -/
def startBlock (deflater : HdDeflater) (bufs : Bufs) : Except Int Bufs :=
  if deflater.notifyTableSizeChange then emitTableSizes deflater bufs else .ok bufs

/-- A deflater that could not write the fields has failed. -/
theorem deflateNvs_outcome (deflater : HdDeflater) (bufs : Bufs) (nva : List Nv) :
    ((match deflateNvs deflater bufs nva with
      | (deflater', .error rv) => (deflater'.fail, .error rv)
      | (deflater', .ok bufs') => (deflater', .ok bufs')) : HdDeflater × Except Int Bufs) =
    match (deflateNvs deflater bufs nva).2 with
    | .error rv => ((deflateNvs deflater bufs nva).1.fail, .error rv)
    | .ok bufs' => ((deflateNvs deflater bufs nva).1, .ok bufs') := by
  generalize deflateNvs deflater bufs nva = r
  obtain ⟨deflater', r⟩ := r
  cases r <;> rfl

theorem hdDeflateHdBufs_eq {deflater : HdDeflater} (good : deflater.ctx.bad = false) (bufs : Bufs)
    (nva : List Nv) :
    hdDeflateHdBufs deflater bufs nva =
      match startBlock deflater bufs with
      | .error rv => (deflater.notified.fail, .error rv)
      | .ok bufs' =>
          match (deflateNvs deflater.notified bufs' nva).2 with
          | .error rv => ((deflateNvs deflater.notified bufs' nva).1.fail, .error rv)
          | .ok bufs'' => ((deflateNvs deflater.notified bufs' nva).1, .ok bufs'') := by
  rw [hdDeflateHdBufs, if_neg (by rw [good]; exact Bool.false_ne_true), startBlock,
    HdDeflater.notified]
  cases deflater.notifyTableSizeChange with
  | true =>
      simp only [if_true]
      cases emitTableSizes deflater bufs with
      | error rv => rfl
      | ok bufs' => exact deflateNvs_outcome _ bufs' nva
  | false =>
      simp only [Bool.false_eq_true, if_false]
      exact deflateNvs_outcome deflater bufs nva

/-- A block that was not written leaves a deflater that has failed. -/
theorem hdDeflateHdBufs_failed {deflater : HdDeflater} {bufs : Bufs} {nva : List Nv} {rv : Int}
    (failed : (hdDeflateHdBufs deflater bufs nva).2 = .error rv) :
    (hdDeflateHdBufs deflater bufs nva).1.ctx.bad = true := by
  cases bad : deflater.ctx.bad with
  | true =>
      rw [hdDeflateHdBufs, if_pos bad]
      exact bad
  | false =>
      rw [hdDeflateHdBufs_eq bad] at failed ⊢
      cases start : startBlock deflater bufs with
      | error rv => rfl
      | ok bufs' =>
          rw [start] at failed
          dsimp only at failed ⊢
          cases rest : (deflateNvs deflater.notified bufs' nva).2 with
          | error rv => rfl
          | ok bufs'' =>
              rw [rest] at failed
              cases failed

theorem DeflaterReady.notified {deflater : HdDeflater} {table : List HdNv}
    (ready : DeflaterReady deflater table) : DeflaterReady deflater.notified table := by
  unfold HdDeflater.notified
  split
  · exact ⟨⟨ready.holds.holds, ready.holds.inMap, ready.holds.tokened, ready.holds.hashed⟩,
      ready.light, ready.most⟩
  · exact ready

/-- Telling the table sizes does not change the table, nor a limit. -/
theorem notified_same (deflater : HdDeflater) :
    deflater.notified.ctx = deflater.ctx ∧ deflater.notified.notifyTableSizeChange = false ∧
      deflater.notified.deflateHdTableBufsizeMax = deflater.deflateHdTableBufsizeMax := by
  unfold HdDeflater.notified
  split
  · exact ⟨rfl, rfl, rfl⟩
  · rename_i quiet
    exact ⟨rfl, by simpa using quiet, rfl⟩

/-! ### Runs

The invariant over any calls of a deflater, and what a search in its table returns in every state
that they reach. -/

/-- A deflater keeps to its own limit. -/
structure DeflaterLimited (most : Nat) (deflater : HdDeflater) : Prop where
  ready : ∃ table, DeflaterReady deflater table
  own : deflater.deflateHdTableBufsizeMax = most
  within : deflater.ctx.hdTableBufsizeMax ≤ most

/-- Only the table and its limit count. -/
theorem DeflaterReady.of_same {deflater deflater' : HdDeflater} {table : List HdNv}
    (ready : DeflaterReady deflater table) (entries : deflater'.ctx.hdTable = deflater.ctx.hdTable)
    (size : deflater'.ctx.hdTableBufsize = deflater.ctx.hdTableBufsize)
    (seq : deflater'.ctx.nextSeq = deflater.ctx.nextSeq)
    (ref : deflater'.ctx.nextRef = deflater.ctx.nextRef)
    (most : deflater'.ctx.hdTableBufsizeMax = deflater.ctx.hdTableBufsizeMax)
    (map : deflater'.map = deflater.map) : DeflaterReady deflater' table := by
  obtain ⟨⟨⟨nvs, size', refs, seqs, next⟩, inMap, tokened, hashed⟩, light, small⟩ := ready
  rw [← entries] at nvs refs seqs inMap hashed
  rw [← ref] at refs next
  rw [← seq] at next
  rw [← size] at size'
  rw [← map] at inMap
  rw [← most] at light small
  exact ⟨⟨⟨nvs, size', refs, seqs, next⟩, inMap, tokened, hashed⟩, light, small⟩

/-- A new limit leaves the front of the table that fits into it. -/
theorem DeflaterReady.changeTableSize {deflater : HdDeflater} {table : List HdNv}
    (ready : DeflaterReady deflater table) (size : Nat)
    (small : min size deflater.deflateHdTableBufsizeMax < 2 ^ 32) :
    DeflaterReady (hdDeflateChangeTableSize deflater size)
        (fit fieldRoom (min size deflater.deflateHdTableBufsizeMax) table) ∧
      (hdDeflateChangeTableSize deflater size).ctx.hdTableBufsizeMax =
        min size deflater.deflateHdTableBufsizeMax ∧
      (hdDeflateChangeTableSize deflater size).ctx.bad = deflater.ctx.bad := by
  generalize isNext : min size deflater.deflateHdTableBufsizeMax = next at small ⊢
  have holds : TableHolds { deflater.ctx with hdTableBufsizeMax := next } table :=
    ⟨ready.holds.holds.nvs, ready.holds.holds.size, ready.holds.holds.refs, ready.holds.holds.seqs,
      ready.holds.holds.next⟩
  have evicted := holds.shrink ready.holds.inMap
  obtain ⟨map', isMap⟩ := evictLoop_map deflater.ctx.hdTable.len 0
    { deflater.ctx with hdTableBufsizeMax := next } deflater.map
  have context : (hdDeflateChangeTableSize deflater size).ctx =
      (hdContextShrinkTableSize { deflater.ctx with hdTableBufsizeMax := next }
        (some deflater.map)).1 := by
    rw [hdDeflateChangeTableSize, isNext]
    rfl
  have map : (hdDeflateChangeTableSize deflater size).map = map' := by
    rw [hdDeflateChangeTableSize, isNext]
    show (evictLoop _ _ _ _).2.getD _ = _
    rw [isMap]
    rfl
  have inMap := evicted.inMap
  rw [hdContextShrinkTableSize, isMap] at inMap
  have light : weight fieldRoom (fit fieldRoom next table) ≤ next := weight_fit_le _ _
  refine ⟨⟨⟨?_, ?_, ?_, ?_⟩, ?_, ?_⟩, ?_, ?_⟩
  · rw [context]
    exact evicted.holds
  · rw [context, map]
    exact inMap
  · exact ready.holds.tokened.of_subset (fit_isPrefix _ _).subset
  · rw [context]
    exact fun ent member => ready.holds.hashed ent (evicted.front.subset member)
  · rw [context, evicted.same.most]
    exact light
  · rw [context, evicted.same.most]
    exact small
  · rw [context, evicted.same.most]
  · rw [context, evicted.same.bad]

theorem DeflaterReady.init (most : Nat) : DeflaterReady (hdDeflateInit2 most) [] := by
  have empty : (hdDeflateInit2 most).ctx.hdTable.toList = [] := by
    rw [hdDeflateInit2]
    dsimp only
    split <;> exact RingBuffer.toList_init _
  have holds : TableHolds (hdDeflateInit2 most).ctx [] := by
    rw [hdDeflateInit2]
    dsimp only
    split
    · exact ⟨TableHolds.init.nvs, rfl, TableHolds.init.refs, TableHolds.init.seqs, rfl⟩
    · exact .init
  refine ⟨⟨holds, ?_, fun nv member => (by cases member), ?_⟩, Nat.zero_le _, ?_⟩
  · intro m same bucket
    cases same
    rw [empty]
    rfl
  · rw [empty]
    exact fun ent member => by cases member
  · rw [hdDeflateInit2]
    dsimp only
    split
    · rename_i small
      exact (of_decide_eq_true small).trans (by decide)
    · decide

theorem DeflaterLimited.init (most : Nat) : DeflaterLimited most (hdDeflateInit2 most) := by
  refine ⟨⟨[], .init most⟩, rfl, ?_⟩
  rw [hdDeflateInit2]
  dsimp only
  split
  · exact Nat.le_refl _
  · rename_i large
    exact not_lt.mp fun less => large (decide_eq_true less)

theorem DeflaterLimited.fail {most : Nat} {deflater : HdDeflater}
    (limited : DeflaterLimited most deflater) : DeflaterLimited most deflater.fail := by
  obtain ⟨table, ready⟩ := limited.ready
  exact ⟨⟨table, ready.of_same rfl rfl rfl rfl rfl rfl⟩, limited.own, limited.within⟩

/-- A block, whether there is room for it or not. -/
theorem DeflaterLimited.headers {most : Nat} {deflater : HdDeflater}
    (limited : DeflaterLimited most deflater) (bufs : Bufs) (nva : List Nv) :
    DeflaterLimited most (hdDeflateHdBufs deflater bufs nva).1 := by
  cases bad : deflater.ctx.bad with
  | true =>
      rw [hdDeflateHdBufs, if_pos bad]
      exact limited
  | false =>
      obtain ⟨table, ready⟩ := limited.ready
      obtain ⟨sameContext, -, sameOwn⟩ := notified_same deflater
      have notified : DeflaterLimited most deflater.notified :=
        ⟨⟨table, ready.notified⟩, sameOwn.trans limited.own, by
          rw [sameContext]
          exact limited.within⟩
      have behind (bufs' : Bufs) :
          DeflaterLimited most (deflateNvs deflater.notified bufs' nva).1 := by
        obtain ⟨_, _, block⟩ := deflateNvs_spec ready.notified bufs' nva
        exact ⟨deflateNvs_ready ready.notified bufs' nva, block.same.deflateMost.trans notified.own,
          block.same.most.trans_le notified.within⟩
      rw [hdDeflateHdBufs_eq bad]
      cases startBlock deflater bufs with
      | error rv => exact notified.fail
      | ok bufs' =>
          dsimp only
          cases (deflateNvs deflater.notified bufs' nva).2 with
          | error rv => exact (behind bufs').fail
          | ok bufs'' => exact behind bufs'

/-- A call keeps to the limit. -/
theorem DeflaterLimited.call {most : Nat} (small : most < 2 ^ 32) {deflater : HdDeflater}
    (limited : DeflaterLimited most deflater) (call : DeflateCall) :
    DeflaterLimited most (deflater.call call) := by
  cases call with
  | headers bufs nva => exact limited.headers bufs nva
  | changeTableSize size =>
      obtain ⟨table, ready⟩ := limited.ready
      have next : min size deflater.deflateHdTableBufsizeMax ≤ most := by
        rw [limited.own]
        exact Nat.min_le_right _ _
      obtain ⟨ready', same, -⟩ := ready.changeTableSize size (Nat.lt_of_le_of_lt next small)
      exact ⟨⟨_, ready'⟩, limited.own, same.trans_le next⟩

/-- In every run the search finds a field of the tables wherever there is one: what it returns has
the name that is looked for, and the value too when it says so; and it returns nothing, or says that
the value is another one, only where no field has the name, or no field with the name has the value.
The table takes the room of its fields, and no more than the application allows it. -/
theorem table_search_in_runs (most : Nat) (small : most < 2 ^ 32) (calls : List DeflateCall)
    (nv : Nv) :
    let deflater := EventRun.exec HdDeflater.call (hdDeflateInit2 most) calls
    let mode := indexingModeOf deflater nv (lookupToken nv.name)
    let res := searchHdTable deflater.ctx nv (lookupToken nv.name) mode deflater.map
      (hashOfToken nv (lookupToken nv.name))
    (∀ idx, res.index = some idx → ∃ f, hdTableGet deflater.ctx idx = some f ∧ f.name = nv.name ∧
        (res.nameValueMatch = true → f.value = nv.value)) ∧
      (res.index = none → ∀ idx f, hdTableGet deflater.ctx idx = some f → f.name ≠ nv.name) ∧
      (res.nameValueMatch = false → mode ≠ .neverIndexing →
        ∀ idx f, hdTableGet deflater.ctx idx = some f → f.name = nv.name → f.value ≠ nv.value) ∧
      deflater.ctx.hdTableBufsize =
        weight fieldRoom (deflater.ctx.hdTable.toList.map HdEntry.nv) ∧
      deflater.ctx.hdTableBufsize ≤ deflater.ctx.hdTableBufsizeMax ∧
      deflater.ctx.hdTableBufsizeMax ≤ most := by
  intro deflater mode res
  have limited : DeflaterLimited most deflater :=
    EventRun.invariant_exec (DeflaterLimited most) (fun _ call limited => limited.call small call)
      (.init most) calls
  obtain ⟨table, ready⟩ := limited.ready
  have searched : Searched table nv (decide (mode = .neverIndexing)) res :=
    searchHdTable_spec ready.holds ready.few.le nv mode
  have get (idx : Nat) : hdTableGet deflater.ctx idx = getField table idx :=
    hdTableGet_eq ready.holds.holds idx
  simp only [get]
  refine ⟨searched.index, searched.noIndex, fun other indexed => searched.noValue other
    (decide_eq_false indexed), ?_, ?_, limited.within⟩
  · rw [ready.holds.holds.size, ready.holds.holds.nvs]
  · rw [ready.holds.holds.size]
    exact ready.light

theorem no_later_room : ∀ room ∈ ([] : List Nat), 0 < room := by
  simp

theorem later_room : ∀ room ∈ [64], 0 < room := by
  decide

/-- A run in which the limit falls below what a field takes. -/
def shrunkRun : List DeflateCall :=
  [.headers (bufsWrapInit2 64 [] no_later_room) [⟨ascii "x-a", ascii "1", 0⟩],
    .changeTableSize 35,
    .headers (bufsWrapInit2 8 [64] later_room) [⟨ascii "x-a", ascii "2", 0⟩]]

/-- In that run no field with the name is found that is not there. -/
theorem table_search_in_runs_shrunk :
    let deflater := EventRun.exec HdDeflater.call (hdDeflateInit2 4096) shrunkRun
    let nv : Nv := ⟨ascii "x-a", ascii "1", 0⟩
    let res := searchHdTable deflater.ctx nv (lookupToken nv.name)
      (indexingModeOf deflater nv (lookupToken nv.name)) deflater.map
      (hashOfToken nv (lookupToken nv.name))
    (∀ idx, res.index = some idx → ∃ f, hdTableGet deflater.ctx idx = some f ∧ f.name = nv.name ∧
        (res.nameValueMatch = true → f.value = nv.value)) ∧
      deflater.ctx.hdTableBufsize ≤ deflater.ctx.hdTableBufsizeMax := by
  intro deflater nv res
  have runs := table_search_in_runs 4096 (by decide) shrunkRun nv
  exact ⟨runs.1, runs.2.2.2.2.1⟩

end Hfc.Hpack
