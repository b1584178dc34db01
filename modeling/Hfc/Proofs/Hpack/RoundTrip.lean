/-
Module: Hfc.Proofs.Hpack.RoundTrip
Layer: Proofs
Purpose: The two ends of a connection stay in step: over any run of header blocks and new limits,
  every block that the deflater writes gives the inflater the fields that went in, in whatever
  pieces it comes.
Imports: Hfc.Proofs.Hpack.Deflating, Hfc.Proofs.Hpack.Inflating
Main exports: InStep, InStep.changeTableSize, InStep.headers, headers_arrive
-/
import Hfc.Proofs.Hpack.Deflating
import Hfc.Proofs.Hpack.Inflating

namespace Hfc.Hpack

open ByteText BoundedFront

theorem cut_flatten (cuts : List Nat) (bytes : Bytes) :
    (cut cuts bytes).1.flatten ++ (cut cuts bytes).2 = bytes := by
  induction cuts generalizing bytes with
  | nil => rfl
  | cons n cuts ih =>
      rw [cut, List.flatten_cons, List.append_assoc, ih, List.take_append_drop]

/-! ### In step

The tables of both ends are the same while nothing is in flight. -/

/-- The two ends are in step. Where the deflater has to tell a table size it is ahead: its table is
the front of the other one that fits the smallest limit there was. -/
structure InStep (ends : Ends) (sent kept : List HdNv) : Prop where
  deflater : DeflaterReady ends.deflater sent
  inflater : TableHolds ends.inflater.ctx kept
  going : ends.deflater.ctx.bad = false ∧ ends.inflater.ctx.bad = false
  state : ends.inflater.state = .inflateStart ∨
    ends.inflater.state = .expectTableSize ∧ ends.deflater.notifyTableSizeChange = true
  settings : ends.deflater.ctx.hdTableBufsizeMax ≤ ends.inflater.settingsHdTableBufsizeMax
  quiet : ends.deflater.notifyTableSizeChange = false →
    sent = kept ∧ ends.inflater.ctx.hdTableBufsizeMax = ends.deflater.ctx.hdTableBufsizeMax ∧
      ends.deflater.minHdTableBufsizeMax = uint32Max ∧
      ends.inflater.minHdTableBufsizeMax = uint32Max
  ahead : ends.deflater.notifyTableSizeChange = true →
    sent = fit fieldRoom
        (min ends.deflater.minHdTableBufsizeMax ends.deflater.ctx.hdTableBufsizeMax) kept ∧
      min ends.deflater.minHdTableBufsizeMax ends.deflater.ctx.hdTableBufsizeMax ≤
        ends.inflater.minHdTableBufsizeMax ∧
      (ends.deflater.minHdTableBufsizeMax ≤ ends.deflater.ctx.hdTableBufsizeMax ∨
        kept = [] ∧ ends.inflater.minHdTableBufsizeMax = uint32Max)

theorem hdDeflateInit2_limits (most : Nat) :
    (hdDeflateInit2 most).ctx.hdTableBufsizeMax = min most hdDefaultMaxBufferSize ∧
      (hdDeflateInit2 most).ctx.bad = false ∧
      (hdDeflateInit2 most).notifyTableSizeChange = decide (most < hdDefaultMaxBufferSize) := by
  refine ⟨?_, ?_, rfl⟩
  all_goals
    rw [hdDeflateInit2]
    dsimp only
    split
  · rename_i small
    exact (Nat.min_eq_left (of_decide_eq_true small).le).symm
  · rename_i large
    exact (Nat.min_eq_right (not_lt.mp fun small => large (decide_eq_true small))).symm
  · rfl
  · rfl

theorem InStep.init (most : Nat) : InStep (Ends.init most) [] [] := by
  obtain ⟨limit, good, notify⟩ := hdDeflateInit2_limits most
  have within : (hdDeflateInit2 most).ctx.hdTableBufsizeMax ≤ hdDefaultMaxBufferSize := by
    rw [limit]
    exact Nat.min_le_right _ _
  refine ⟨.init most, .init, ⟨good, rfl⟩, .inl rfl, within, fun quiet => ?_, fun _ => ?_⟩
  · have quiet : (hdDeflateInit2 most).notifyTableSizeChange = false := quiet
    rw [notify] at quiet
    refine ⟨rfl, ?_, rfl, rfl⟩
    show hdDefaultMaxBufferSize = (hdDeflateInit2 most).ctx.hdTableBufsizeMax
    rw [limit, Nat.min_eq_right (not_lt.mp (of_decide_eq_false quiet))]
  · exact ⟨rfl, Nat.min_le_left _ _, .inr ⟨rfl, rfl⟩⟩

/-- A new limit of the inflater, between two blocks. -/
theorem inflater_changeTableSize {i : HdInflater} (state : i.state = .inflateStart ∨
    i.state = .expectTableSize) {kept : List HdNv} (holds : TableHolds i.ctx kept) (size : Nat) :
    ∃ kept', TableHolds (i.call (.changeTableSize size)).ctx kept' ∧
      (kept' = kept ∧ (i.call (.changeTableSize size)).minHdTableBufsizeMax = i.minHdTableBufsizeMax ∧
          (i.call (.changeTableSize size)).state = i.state ∨
        kept' = fit fieldRoom size kept ∧
          (i.call (.changeTableSize size)).minHdTableBufsizeMax = size ∧
          (i.call (.changeTableSize size)).state = .expectTableSize) ∧
      (i.call (.changeTableSize size)).settingsHdTableBufsizeMax = size ∧
      (i.call (.changeTableSize size)).ctx.bad = i.ctx.bad := by
  have allowed : (i.state = .expectTableSize || i.state = .inflateStart) = true := by
    rcases state with state | state <;> rw [state] <;> decide
  simp only [HdInflater.call, hdInflateChangeTableSize, if_pos allowed]
  by_cases shrinks : i.ctx.hdTableBufsizeMax > size
  · rw [if_pos shrinks]
    have holds' : TableHolds { i.ctx with hdTableBufsizeMax := size } kept :=
      ⟨holds.nvs, holds.size, holds.refs, holds.seqs, holds.next⟩
    have evicted := holds'.shrink (show MapHolds none _ from fun m noMap => (by cases noMap))
    exact ⟨_, evicted.holds, .inr ⟨rfl, rfl, rfl⟩, rfl, evicted.same.bad⟩
  · rw [if_neg shrinks]
    exact ⟨kept, holds, .inl ⟨rfl, rfl, rfl⟩, rfl, rfl⟩

/-- What a new limit leaves of the table of the deflater is what the smallest limit leaves of the
other one. -/
theorem InStep.shrunk {ends : Ends} {sent kept : List HdNv} (inStep : InStep ends sent kept)
    {next : Nat} (small : next ≤ uint32Max) :
    fit fieldRoom next sent =
        fit fieldRoom (min ends.deflater.minHdTableBufsizeMax next) kept ∧
      min ends.deflater.minHdTableBufsizeMax next ≤ ends.inflater.minHdTableBufsizeMax := by
  cases notify : ends.deflater.notifyTableSizeChange with
  | false =>
      obtain ⟨same, -, unset, unset'⟩ := inStep.quiet notify
      rw [same, unset, unset', Nat.min_eq_right small]
      exact ⟨rfl, small⟩
  | true =>
      obtain ⟨same, within, ordered⟩ := inStep.ahead notify
      rcases ordered with ordered | ⟨rfl, unset⟩
      · rw [Nat.min_eq_left ordered] at same within
        rw [same, fit_fit, Nat.min_comm]
        exact ⟨rfl, (Nat.min_le_left _ _).trans within⟩
      · rw [same, unset]
        exact ⟨rfl, (Nat.min_le_right _ _).trans small⟩

/-- A new limit keeps the ends in step. -/
theorem InStep.changeTableSize {ends : Ends} {sent kept : List HdNv} (inStep : InStep ends sent kept)
    {size : Nat} (small : size < 2 ^ 32) :
    ∃ sent' kept', InStep (ends.step (.changeTableSize size)) sent' kept' := by
  have state : ends.inflater.state = .inflateStart ∨ ends.inflater.state = .expectTableSize :=
    inStep.state.imp_right And.left
  generalize isNext : min size ends.deflater.deflateHdTableBufsizeMax = next
  have within : next ≤ size := isNext ▸ Nat.min_le_left _ _
  obtain ⟨ready, most, dgood⟩ := inStep.deflater.changeTableSize size (by omega)
  obtain ⟨shrunk, below⟩ := inStep.shrunk (Nat.le_sub_one_of_lt (within.trans_lt small))
  rw [isNext] at ready most
  obtain ⟨kept', holds, change, settings, igood⟩ :=
    inflater_changeTableSize state inStep.inflater size
  have least : (hdDeflateChangeTableSize ends.deflater size).minHdTableBufsizeMax =
      min ends.deflater.minHdTableBufsizeMax next := by
    rw [← isNext]
    rfl
  have notify : (hdDeflateChangeTableSize ends.deflater size).notifyTableSizeChange = true := rfl
  refine ⟨fit fieldRoom next sent, kept', ready, holds, ⟨dgood.trans inStep.going.1,
    igood.trans inStep.going.2⟩, ?_, ?_, fun quiet => ?_, fun _ => ⟨?_, ?_, .inl ?_⟩⟩
  -- the state, the limit, and the table as it will be once the change is told
  · rcases change with ⟨-, -, same⟩ | ⟨-, -, expects⟩
    · rcases state with start | expects
      · exact .inl (same.trans start)
      · exact .inr ⟨same.trans expects, notify⟩
    · exact .inr ⟨expects, notify⟩
  · exact (most.trans_le within).trans_eq settings.symm
  · exact absurd (notify.symm.trans quiet) (by decide)
  · show _ = fit fieldRoom (min (hdDeflateChangeTableSize ends.deflater size).minHdTableBufsizeMax
      (hdDeflateChangeTableSize ends.deflater size).ctx.hdTableBufsizeMax) kept'
    rw [least, most, Nat.min_assoc, Nat.min_self, shrunk]
    rcases change with ⟨rfl, -, -⟩ | ⟨rfl, -, -⟩
    · rfl
    · rw [fit_fit, Nat.min_eq_left ((Nat.min_le_right _ _).trans within)]
  · show min (hdDeflateChangeTableSize ends.deflater size).minHdTableBufsizeMax
      (hdDeflateChangeTableSize ends.deflater size).ctx.hdTableBufsizeMax ≤
        (ends.inflater.call (.changeTableSize size)).minHdTableBufsizeMax
    rw [least, most, Nat.min_assoc, Nat.min_self]
    rcases change with ⟨-, same, -⟩ | ⟨-, set, -⟩
    · rw [same]
      exact below
    · rw [set]
      exact (Nat.min_le_right _ _).trans within
  · show (hdDeflateChangeTableSize ends.deflater size).minHdTableBufsizeMax ≤
      (hdDeflateChangeTableSize ends.deflater size).ctx.hdTableBufsizeMax
    rw [least, most]
    exact Nat.min_le_right _ _

/-! ### A block

A block that is sent leaves both ends in step, with the fields that were sent on the other side. -/

/-- The table sizes that a deflater has to tell. -/
def toldSizes (deflater : HdDeflater) : List Representation :=
  if deflater.notifyTableSizeChange then
    if deflater.ctx.hdTableBufsizeMax > deflater.minHdTableBufsizeMax then
      [.tableSize deflater.minHdTableBufsizeMax, .tableSize deflater.ctx.hdTableBufsizeMax]
    else [.tableSize deflater.ctx.hdTableBufsizeMax]
  else []

theorem startBlock_eq {deflater : HdDeflater} (small : deflater.ctx.hdTableBufsizeMax < 2 ^ 32)
    (bufs : Bufs) : startBlock deflater bufs = bufs.write (blockBytes (toldSizes deflater)) := by
  rw [startBlock, toldSizes]
  split
  · rw [emitTableSizes]
    split
    · rename_i larger
      rw [blockBytes_cons, blockBytes_cons, Bufs.write_append, blockBytes_nil, List.append_nil,
        emitTableSize, emitNumber_eq _ _ (by omega)]
      exact bind_congr fun bufs => emitNumber_eq bufs 0x20 (by omega) 5
    · rw [blockBytes_cons, blockBytes_nil, List.append_nil]
      exact emitNumber_eq bufs 0x20 (by omega) 5
  · rfl

/-- The table sizes at the head of a block bring the inflater in line. -/
theorem InStep.told {ends : Ends} {sent kept : List HdNv} (inStep : InStep ends sent kept)
    (rest : Bytes) :
    ∃ i', Leads ends.inflater (blockBytes (toldSizes ends.deflater) ++ rest) false i' rest false ∧
      InflaterHolds i' (ends.deflater.fieldTable sent) ∧ i'.state = .inflateStart ∧
      i'.minHdTableBufsizeMax = uint32Max ∧
      i'.settingsHdTableBufsizeMax = ends.inflater.settingsHdTableBufsizeMax ∧
      i'.ctx.bad = false := by
  obtain ⟨_, light, small⟩ := inStep.deflater
  cases notify : ends.deflater.notifyTableSizeChange with
  | false =>
      -- Nothing to tell: the inflater starts at the block itself.
      obtain ⟨rfl, same, -, unset⟩ := inStep.quiet notify
      have start : ends.inflater.state = .inflateStart :=
        inStep.state.resolve_right fun expects => by rw [notify] at expects; cases expects.2
      rw [toldSizes, notify, if_neg Bool.false_ne_true]
      exact ⟨ends.inflater, .refl _ _ _, ⟨inStep.inflater, same⟩, start, unset, rfl, inStep.going.2⟩
  | true =>
      obtain ⟨same, within, -⟩ := inStep.ahead notify
      have begins : ends.inflater.state = .expectTableSize ∨ ends.inflater.state = .inflateStart :=
        inStep.state.symm.imp_left And.left
      have holds : InflaterHolds ends.inflater
          { most := ends.inflater.ctx.hdTableBufsizeMax, fields := kept } := ⟨inStep.inflater, rfl⟩
      have settings := inStep.settings
      rw [toldSizes, notify, if_pos rfl]
      by_cases larger : ends.deflater.ctx.hdTableBufsizeMax > ends.deflater.minHdTableBufsizeMax
      -- The limit was lowered and raised since the last block: two changes are told, the lowest
      -- first.
      · rw [Nat.min_eq_left larger.le] at same within
        rw [if_pos larger, blockBytes_cons, blockBytes_cons, blockBytes_nil, List.append_nil,
          List.append_assoc]
        obtain ⟨i₁, leads, holds₁, start, unset, settings₁, good⟩ := inflate_tableSize holds begins
          (larger.trans small) (Nat.le_min.mpr ⟨within, larger.le.trans settings⟩)
          ((Representation.tableSize ends.deflater.ctx.hdTableBufsizeMax).bytes ++ rest)
        obtain ⟨i₂, leads', holds₂, start', unset', settings₂, good'⟩ :=
          inflate_tableSize holds₁ (.inr start) small
            (Nat.le_min.mpr ⟨by rw [unset]; exact Nat.le_sub_one_of_lt small, by rwa [settings₁]⟩) rest
        rw [fit_fit, Nat.min_eq_right larger.le, ← same] at holds₂
        exact ⟨i₂, leads.trans leads', holds₂, start', unset', settings₂.trans settings₁,
          good'.trans (good.trans inStep.going.2)⟩
      · rw [Nat.min_eq_right (not_lt.mp larger)] at same within
        rw [if_neg larger, blockBytes_cons, blockBytes_nil, List.append_nil]
        obtain ⟨i₁, leads, holds₁, start, unset, settings₁, good⟩ := inflate_tableSize holds begins
          small (Nat.le_min.mpr ⟨within, settings⟩) rest
        rw [← same] at holds₁
        exact ⟨i₁, leads, holds₁, start, unset, settings₁, good.trans inStep.going.2⟩

theorem Bufs.write_out {bufs bufs' : Bufs} {data : Bytes} (written : bufs.write data = .ok bufs') :
    bufs'.out = bufs.out ++ data := by
  obtain ⟨fits, full⟩ := bufs.write_eq data
  by_cases room : data.length ≤ bufs.room
  · obtain ⟨bufs'', same, out, -⟩ := fits room
    cases written.symm.trans same
    exact out
  · cases written.symm.trans (full (not_le.mp room))

/-- A deflater that has told its table sizes has none to tell. -/
theorem notified_least {deflater : HdDeflater} (quiet : deflater.notifyTableSizeChange = false →
    deflater.minHdTableBufsizeMax = uint32Max) :
    deflater.notified.minHdTableBufsizeMax = uint32Max := by
  unfold HdDeflater.notified
  split
  · rfl
  · rename_i told
    exact quiet (by simpa using told)

/-- What a call that writes a block has written. -/
structure BlockWritten (deflater deflater' : HdDeflater) (sent sent' : List HdNv) (bufs bufs' : Bufs)
    (nva : List Nv) (reps : List Representation) : Prop where
  out : bufs'.out = bufs.out ++ (blockBytes (toldSizes deflater) ++ blockBytes reps)
  means : applyAll (deflater.fieldTable sent) reps =
    some (deflater.fieldTable sent', nva.map sentField)
  readable : ∀ rep ∈ reps, rep.Readable
  ready : DeflaterReady deflater' sent'
  same : DeflaterSame deflater.notified deflater'

theorem DeflaterReady.headers {deflater : HdDeflater} {sent : List HdNv}
    (ready : DeflaterReady deflater sent) (good : deflater.ctx.bad = false) {bufs bufs' : Bufs}
    {nva : List Nv} (sendable : ∀ nv ∈ nva, Sendable nv)
    (written : (hdDeflateHdBufs deflater bufs nva).2 = .ok bufs') :
    ∃ sent' reps, BlockWritten deflater (hdDeflateHdBufs deflater bufs nva).1 sent sent' bufs bufs' nva
      reps := by
  have writable (nv : Nv) (member : nv ∈ nva) : Writable nv := (sendable nv member).writable
  rw [hdDeflateHdBufs_eq good] at written ⊢
  cases start : startBlock deflater bufs with
  | error rv =>
      rw [start] at written
      cases written
  | ok bufs₁ =>
      rw [start] at written
      obtain ⟨reps, sent', block⟩ := deflateNvs_spec ready.notified bufs₁ nva
      dsimp only at written ⊢
      cases rest : (deflateNvs deflater.notified bufs₁ nva).2 with
      | error rv =>
          rw [rest] at written
          cases written
      | ok bufs₂ =>
          rw [rest] at written
          cases written
          rw [startBlock_eq ready.most] at start
          have sameTables (table : List HdNv) :
              deflater.notified.fieldTable table = deflater.fieldTable table := by
            rw [HdDeflater.fieldTable, HdDeflater.fieldTable, (notified_same deflater).1]
          have means := block.means
          rw [sameTables, sameTables] at means
          refine ⟨sent', reps, ?_, means, block.readable sendable, block.holds _ rest, block.same⟩
          rw [Bufs.write_out ((block.bytes writable).symm.trans rest), Bufs.write_out start,
            List.append_assoc]

/-- The inflater is between two blocks. -/
theorem InStep.betweenBlocks {ends : Ends} {sent kept : List HdNv}
    (inStep : InStep ends sent kept) : Ready ends.inflater := by
  refine .inr ⟨fun len => ?_, fun reads => ?_⟩
  · rcases inStep.state with state | ⟨state, -⟩ <;> rw [state] at len <;> cases len
  · rcases inStep.state with state | ⟨state, -⟩ <;> rw [state] at reads <;> cases reads

/-- A block that was written: the inflater gets the fields that went in, and the ends stay in step.
-/
theorem InStep.headers {ends : Ends} {sent kept : List HdNv} (inStep : InStep ends sent kept)
    {bufs : Bufs} {nva : List Nv} (sendable : ∀ nv ∈ nva, Sendable nv) (cuts : List Nat)
    {block : BlockInflated} (received : ends.received bufs nva cuts = some block) :
    block.headers = nva.map sentField ∧ block.error = none ∧
      ∃ table, InStep (ends.step (.headers bufs nva cuts)) table table := by
  have stepped : ends.step (.headers bufs nva cuts) =
      { deflater := (hdDeflateHdBufs ends.deflater bufs nva).1, inflater := block.inflater } := by
    rw [Ends.step, received]
    rfl
  rw [Ends.received] at received
  cases written : (hdDeflateHdBufs ends.deflater bufs nva).2 with
  | error rv =>
      rw [written] at received
      cases received
  | ok bufs' =>
      rw [written] at received
      -- What the deflater wrote: the changes of the table size it owes, then the representations of
      -- the fields.
      obtain ⟨table, reps, spec⟩ := inStep.deflater.headers inStep.going.1 sendable written
      -- The inflater reads the one and then the other.
      obtain ⟨i₁, leads, holds₁, start, unset, settings₁, good₁⟩ := inStep.told (blockBytes reps)
      have enough : (blockBytes reps).length <
          (blockBytes (toldSizes ends.deflater) ++ blockBytes reps).length + 1 := by
        rw [List.length_append]
        omega
      obtain ⟨i₂, inflated, holds₂, start₂, same₂⟩ := inflate_fields holds₁ (.inr start) good₁
        inStep.deflater.light inStep.deflater.most spec.readable spec.means enough
      -- It got them in pieces, which makes no difference.
      have pieces := inStep.betweenBlocks.fragments
        (cut cuts (blockBytes (toldSizes ends.deflater) ++ blockBytes reps)).1
        (cut cuts (blockBytes (toldSizes ends.deflater) ++ blockBytes reps)).2
      rw [cut_flatten, inflateHeaderBlock, leads.block inStep.going.2 good₁, inflated] at pieces
      have isBlock : block = inflateFragments ends.inflater
          (cut cuts (blockBytes (toldSizes ends.deflater) ++ blockBytes reps)).1
          (cut cuts (blockBytes (toldSizes ends.deflater) ++ blockBytes reps)).2 := by
        cases received
        rw [spec.out, List.drop_left]
      rw [← isBlock] at pieces
      have isInflater : i₂ = block.inflater := pieces.inflater rfl
      obtain ⟨sameContext, told, -⟩ := notified_same ends.deflater
      have limit : (hdDeflateHdBufs ends.deflater bufs nva).1.ctx.hdTableBufsizeMax =
          ends.deflater.ctx.hdTableBufsizeMax := by rw [spec.same.most, sameContext]
      have quiet : (hdDeflateHdBufs ends.deflater bufs nva).1.notifyTableSizeChange = false :=
        spec.same.notify.trans told
      refine ⟨pieces.headers.symm, pieces.error.symm, table, ?_⟩
      rw [stepped, ← isInflater]
      -- in step again, with the table the representations lead to on both sides
      refine ⟨spec.ready, holds₂.holds, ⟨?_, same₂.bad.trans good₁⟩, .inl start₂, ?_, fun _ => ?_,
        fun ahead => absurd (quiet.symm.trans ahead) Bool.false_ne_true⟩
      · rw [spec.same.bad, sameContext]
        exact inStep.going.1
      · rw [limit, same₂.settings, settings₁]
        exact inStep.settings
      · exact ⟨rfl, holds₂.most.trans limit.symm, spec.same.least.trans
          (notified_least fun quiet => (inStep.quiet quiet).2.2.1), same₂.least.trans unset⟩

/-! ### Runs

Blocks and changes of the table size in any order. A block that could not be written breaks the
connection, which the deflater remembers. -/

/-- The two ends are in step, or the deflater has failed for good. -/
def Connected (ends : Ends) : Prop :=
  ends.deflater.ctx.bad = true ∨ ∃ sent kept, InStep ends sent kept

/-- What a side may be asked: limits of 32 bits, and fields whose strings the other side takes. -/
def EndsEvent.Allowed : EndsEvent → Prop
  | .changeTableSize size => size < 2 ^ 32
  | .headers _ nva _ => ∀ nv ∈ nva, Sendable nv

/-- A block that was written arrives: the inflater returns the fields that went in, and no error. -/
def Arrives (ends : Ends) : EndsEvent → Prop
  | .changeTableSize _ => True
  | .headers bufs nva cuts => ∀ block, ends.received bufs nva cuts = some block →
      block.headers = nva.map sentField ∧ block.error = none

theorem Connected.step {ends : Ends} (connected : Connected ends) {event : EndsEvent}
    (allowed : event.Allowed) : Arrives ends event ∧ Connected (ends.step event) := by
  cases event with
  | changeTableSize size =>
      refine ⟨trivial, ?_⟩
      rcases connected with bad | ⟨sent, kept, inStep⟩
      · exact .inl ((SameCounters.evictLoop _ _ _ _).bad.trans bad)
      · exact .inr (inStep.changeTableSize allowed)
  | headers bufs nva cuts =>
      rcases connected with bad | ⟨sent, kept, inStep⟩
      · have fails : hdDeflateHdBufs ends.deflater bufs nva =
            (ends.deflater, .error nghttp2ErrHeaderComp) := by rw [hdDeflateHdBufs, if_pos bad]
        have lost : ends.received bufs nva cuts = none := by rw [Ends.received, fails]
        refine ⟨fun block received => (by cases lost.symm.trans received), .inl ?_⟩
        show (hdDeflateHdBufs ends.deflater bufs nva).1.ctx.bad = true
        rw [fails]
        exact bad
      · cases received : ends.received bufs nva cuts with
        | some block =>
            obtain ⟨headers, error, table, inStep'⟩ := inStep.headers allowed cuts received
            refine ⟨fun block' same => ?_, .inr ⟨table, table, inStep'⟩⟩
            cases same.symm.trans received
            exact ⟨headers, error⟩
        | none =>
            refine ⟨fun block same => (by cases received.symm.trans same), .inl ?_⟩
            rw [Ends.received] at received
            cases written : (hdDeflateHdBufs ends.deflater bufs nva).2 with
            | error rv => exact hdDeflateHdBufs_failed written
            | ok bufs' =>
                rw [written] at received
                cases received

/-- Over any run of header blocks and new limits between two ends, every block that the deflater
writes arrives, in whatever pieces it comes: the inflater returns exactly the fields that went in,
in their order, with the tokens of their names, and with the flag that they are never to be indexed
where the deflater was told so or they are credentials; and no block is refused. -/
theorem headers_arrive (most : Nat) (events : List EndsEvent)
    (allowed : ∀ event ∈ events, event.Allowed) :
    EventRun.Along Ends.step Arrives (Ends.init most) events := by
  have keep (ends : Ends) (event : EndsEvent) (connected : Connected ends)
      (allowed : event.Allowed) : Arrives ends event ∧ Connected (ends.step event) :=
    connected.step allowed
  exact EventRun.Along.of_invariant Connected keep (.inr ⟨[], [], .init most⟩) allowed

/-- A run in which the limit falls and rises again between two blocks, and the second one comes in
pieces of one, of none and of three bytes, and the rest. -/
def limitRun : List EndsEvent :=
  [.headers (bufsWrapInit2 64 [] no_later_room) [⟨ascii "x-a", ascii "1", 0⟩] [],
    .changeTableSize 35, .changeTableSize 4096,
    .headers (bufsWrapInit2 8 [64] later_room) [⟨ascii "x-a", ascii "1", 0⟩] [1, 0, 3]]

/-- The blocks of that run arrive. -/
theorem headers_arrive_limits : EventRun.Along Ends.step Arrives (Ends.init 4096) limitRun := by
  have short {nv : Nv} (name : nv.name.length ≤ hdMaxNv) (value : nv.value.length ≤ hdMaxNv) :
      Sendable nv :=
    ⟨(Nat.min_le_right _ _).trans name, (Nat.min_le_right _ _).trans value⟩
  have field : ∀ nv ∈ [Nv.mk (ascii "x-a") (ascii "1") 0], Sendable nv := by
    intro nv member
    cases List.mem_singleton.mp member
    exact short (by decide) (by decide)
  refine headers_arrive 4096 limitRun fun event member => ?_
  simp only [limitRun, List.mem_cons, List.not_mem_nil, or_false] at member
  rcases member with rfl | rfl | rfl | rfl
  · exact field
  · exact (by decide : 35 < 2 ^ 32)
  · exact (by decide : 4096 < 2 ^ 32)
  · exact field

end Hfc.Hpack
