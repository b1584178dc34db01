/-
Module: Hfc.Proofs.Hpack.FragmentedBlocks
Layer: Proofs
Purpose: The pieces in which a header block comes do not matter: after any calls, a block in any
  pieces gives the header fields and the error that it gives in one piece, and leaves the same
  inflater.
Imports: Hfc.Core.Hpack.Calls, Hfc.Proofs.Hpack.InflateLoops
Main exports: SameBlock, Ready, inflateBlockLoop_append, Ready.call, fragments_do_not_matter
-/
import Hfc.Core.Hpack.Calls
import Hfc.Proofs.Hpack.InflateLoops

namespace Hfc.Hpack

open ByteText

/-! ### A call

`inflateHeaderBlock` by the outcome of one call of `nghttp2_hd_inflate_hd_nv`. -/

/-- What the callers' loop makes of the outcome of a call. -/
def blockGoOn (rounds : Nat) (final : Bool) : InflateStep → BlockInflated
  | .again i _ _ =>
      if final && i.state ≠ .opcode && i.state ≠ .inflateStart then
        { inflater := i.fail, headers := [], error := some nghttp2ErrHeaderComp }
      else if final then { inflater := hdInflateEndHeaders i, headers := [], error := none }
      else { inflater := i, headers := [], error := none }
  | .emit i input nv =>
      let later := inflateBlockLoop rounds i input final
      { later with headers := nv :: later.headers }
  | .almostOk i =>
      if final then { inflater := i.fail, headers := [], error := some nghttp2ErrHeaderComp }
      else { inflater := i, headers := [], error := none }
  | .fail i rv => { inflater := i.fail, headers := [], error := some rv }

theorem inflateBlockLoop_bad {inflater : HdInflater} (bad : inflater.ctx.bad = true) (rounds : Nat)
    (input : Bytes) (final : Bool) :
    inflateBlockLoop (rounds + 1) inflater input final =
      { inflater := inflater, headers := [], error := some nghttp2ErrHeaderComp } := by
  rw [inflateBlockLoop, hdInflateHdNv, if_pos bad]

theorem inflateBlockLoop_succ {inflater : HdInflater} (good : inflater.ctx.bad = false)
    (rounds : Nat) (input : Bytes) (final : Bool) :
    inflateBlockLoop (rounds + 1) inflater input final =
      blockGoOn rounds final (inflateLoop (inflateRounds input) inflater input false) := by
  rw [inflateBlockLoop, hdInflateHdNv, if_neg (by rw [good]; exact Bool.false_ne_true)]
  cases inflateLoop (inflateRounds input) inflater input false with
  | again i input' busy =>
      dsimp only [blockGoOn]
      by_cases wrong : (final && i.state ≠ .opcode && i.state ≠ .inflateStart) = true
      · rw [if_pos wrong, if_pos wrong]
      · rw [if_neg wrong, if_neg wrong]
        cases final <;> rfl
  | emit i input' nv => rfl
  | almostOk i =>
      dsimp only [blockGoOn]
      cases final <;> rfl
  | fail i rv => rfl

/-! ### The callers' loop

A block read in two pieces gives the same fields and the same end as the block in one, by induction
on the rounds of the first piece. -/

/-- An inflater that can take another piece, or has failed for good. -/
def Ready (inflater : HdInflater) : Prop :=
  inflater.ctx.bad = true ∨ Resumable inflater

theorem resumable_of_opcode {inflater : HdInflater} (state : inflater.state = .opcode) :
    Resumable inflater where
  fresh len := by
    rw [state] at len
    cases len
  more reads := by
    rw [state] at reads
    cases reads

/-- What a call comes to. -/
theorem Resumable.loop {inflater : HdInflater} (resumable : Resumable inflater) (input : Bytes) :
    LoopSpec inflater.ctx.bad input false
      (inflateLoop (inflateRounds input) inflater input false) :=
  inflateLoop_spec resumable.fresh (fun reads _ => resumable.more reads)
    (stepsLeft_lt inflater input)

/-- What it comes to with more input behind it. -/
theorem Resumable.loop_append {inflater : HdInflater} (resumable : Resumable inflater)
    (front : Bytes) {back : Bytes} (more : back ≠ []) :
    LoopExtends back (inflateLoop (inflateRounds front) inflater front false)
      (inflateLoop (inflateRounds (front ++ back)) inflater (front ++ back) false) := by
  have rounds : inflateRounds (front ++ back) = inflateRounds front + 2 * back.length := by
    rw [inflateRounds, inflateRounds, List.length_append]
    omega
  rw [rounds]
  exact inflateLoop_append more resumable.fresh (fun busy => absurd busy Bool.false_ne_true)
    (stepsLeft_lt inflater front)

/-- A round for every byte, and one that finds no header field, are enough. -/
theorem inflateBlockLoop_rounds {rounds rounds' : Nat} {inflater : HdInflater} {input : Bytes}
    (ready : Ready inflater) (enough : input.length < rounds) (enough' : input.length < rounds')
    (final : Bool) :
    inflateBlockLoop rounds inflater input final = inflateBlockLoop rounds' inflater input final := by
  induction rounds generalizing rounds' inflater input with
  | zero => exact absurd enough (Nat.not_lt_zero _)
  | succ rounds ih =>
      cases rounds' with
      | zero => exact absurd enough' (Nat.not_lt_zero _)
      | succ rounds' =>
          cases bad : inflater.ctx.bad with
          | true => rw [inflateBlockLoop_bad bad, inflateBlockLoop_bad bad]
          | false =>
              have resumable := ready.resolve_left (by rw [bad]; exact Bool.false_ne_true)
              have spec := resumable.loop input
              rw [inflateBlockLoop_succ bad, inflateBlockLoop_succ bad]
              cases last : inflateLoop (inflateRounds input) inflater input false with
              | again i input' busy => rfl
              | emit i input' nv =>
                  rw [last] at spec
                  obtain ⟨state, less, -⟩ := spec
                  have less : input'.length < input.length := less
                  have later : inflateBlockLoop rounds i input' final =
                      inflateBlockLoop rounds' i input' final :=
                    ih (.inr (resumable_of_opcode state)) (by omega) (by omega)
                  rw [blockGoOn, blockGoOn, later]
              | almostOk i => rfl
              | fail i rv => rfl

/-- The same header fields and the same error; and the same inflater, unless it has failed. -/
structure SameBlock (r r' : BlockInflated) : Prop where
  headers : r.headers = r'.headers
  error : r.error = r'.error
  inflater : r.error = none → r.inflater = r'.inflater

theorem SameBlock.refl (r : BlockInflated) : SameBlock r r :=
  ⟨rfl, rfl, fun _ => rfl⟩

theorem SameBlock.trans {r r' r'' : BlockInflated} (first : SameBlock r r')
    (second : SameBlock r' r'') : SameBlock r r'' :=
  ⟨first.headers.trans second.headers, first.error.trans second.error, fun noError =>
    (first.inflater noError).trans (second.inflater (first.error ▸ noError))⟩

theorem SameBlock.cons {r r' : BlockInflated} (same : SameBlock r r') (nv : HdNv) :
    SameBlock { r with headers := nv :: r.headers } { r' with headers := nv :: r'.headers } :=
  ⟨congrArg (nv :: ·) same.headers, same.error, same.inflater⟩

/-- What two pieces come to, one after the other. -/
def BlockInflated.andThen (first : BlockInflated) (next : HdInflater → BlockInflated) :
    BlockInflated :=
  match first.error with
  | some _ => first
  | none =>
      let later := next first.inflater
      { later with headers := first.headers ++ later.headers }

theorem inflateFragments_cons (inflater : HdInflater) (piece : Bytes) (pieces : List Bytes)
    (last : Bytes) :
    inflateFragments inflater (piece :: pieces) last =
      (inflateHeaderBlock inflater piece false).andThen fun i => inflateFragments i pieces last :=
  rfl

theorem SameBlock.andThen {first : BlockInflated} {next next' : HdInflater → BlockInflated}
    (same : first.error = none → SameBlock (next first.inflater) (next' first.inflater)) :
    SameBlock (first.andThen next) (first.andThen next') := by
  rw [BlockInflated.andThen, BlockInflated.andThen]
  split
  · exact .refl _
  · rename_i noError
    have later := same noError
    exact ⟨congrArg (first.headers ++ ·) later.headers, later.error, later.inflater⟩

/-- An outcome that is the same gives the same block. -/
theorem SameStep.block {r r' : InflateStep} (same : SameStep r r') (rounds : Nat) (final : Bool) :
    SameBlock (blockGoOn rounds final r) (blockGoOn rounds final r') := by
  cases same with
  | refl => exact .refl _
  | fail i i' rv => exact ⟨rfl, rfl, fun noError => by cases noError⟩

theorem BlockInflated.andThen_cons (first : BlockInflated) (nv : HdNv)
    (next : HdInflater → BlockInflated) :
    BlockInflated.andThen { first with headers := nv :: first.headers } next =
      { first.andThen next with headers := nv :: (first.andThen next).headers } := by
  simp only [BlockInflated.andThen]
  split <;> rfl

/-- A piece with nothing in it. -/
theorem inflateHeaderBlock_nil {inflater : HdInflater} (good : inflater.ctx.bad = false)
    (final : Bool) :
    inflateHeaderBlock inflater [] final = blockGoOn 0 final (.again inflater [] false) :=
  inflateBlockLoop_succ good 0 [] final

/-- Where a piece has stopped at `i`, what is behind it is a piece of its own. -/
theorem SameStep.stopped {i : HdInflater} (good : i.ctx.bad = false) (resumable : Resumable i)
    {back : Bytes} {whole : InflateStep}
    (same : SameStep whole (inflateLoop (inflateRounds back) i back false)) (rounds : Nat)
    (final : Bool) :
    SameBlock (blockGoOn (rounds + back.length) final whole) (inflateHeaderBlock i back final) := by
  have rounds_ : inflateHeaderBlock i back final =
      inflateBlockLoop (rounds + back.length + 1) i back final :=
    inflateBlockLoop_rounds (.inr resumable) (Nat.lt_succ_self _) (by omega) final
  rw [rounds_, inflateBlockLoop_succ good]
  exact same.block _ _

section

variable {inflater : HdInflater} (resumable : Resumable inflater) {front : Bytes}
include resumable

theorem Resumable.emits {i : HdInflater} {input : Bytes} {nv : HdNv}
    (last : inflateLoop (inflateRounds front) inflater front false = .emit i input nv)
    (back : Bytes) :
    inflateLoop (inflateRounds (front ++ back)) inflater (front ++ back) false =
      .emit i (input ++ back) nv := by
  by_cases more : back = []
  · rw [more, List.append_nil, List.append_nil, last]
  · have whole := resumable.loop_append front more
    rw [last] at whole
    exact whole

theorem Resumable.fails {i : HdInflater} {rv : Int}
    (last : inflateLoop (inflateRounds front) inflater front false = .fail i rv) (back : Bytes) :
    ∃ i', inflateLoop (inflateRounds (front ++ back)) inflater (front ++ back) false =
      .fail i' rv := by
  by_cases more : back = []
  · rw [more, List.append_nil]
    exact ⟨i, last⟩
  · have whole := resumable.loop_append front more
    rw [last] at whole
    exact whole

theorem Resumable.stops {i : HdInflater} (good : inflater.ctx.bad = false)
    (last : inflateLoop (inflateRounds front) inflater front false = .almostOk i ∨
      inflateLoop (inflateRounds front) inflater front false = .again i [] false)
    (back : Bytes) (rounds : Nat) (final : Bool) :
    SameBlock
      (blockGoOn (rounds + back.length) final
        (inflateLoop (inflateRounds (front ++ back)) inflater (front ++ back) false))
      (inflateHeaderBlock i back final) := by
  have spec := resumable.loop front
  have good' : i.ctx.bad = false ∧ Resumable i := by
    rw [good] at spec
    rcases last with last | last
    · rw [last] at spec
      exact ⟨spec.2.2.2, spec.1⟩
    · rw [last] at spec
      exact ⟨spec.2.2.2, spec.1⟩
  by_cases more : back = []
  · subst more
    rw [List.append_nil, inflateHeaderBlock_nil good'.1]
    rcases last with last | last
    · rw [last] at spec ⊢
      obtain ⟨-, opcode, start, -⟩ := spec
      cases final with
      | false => exact .refl _
      | true =>
          rw [blockGoOn, blockGoOn, if_pos rfl, if_pos (by simp [opcode, start])]
          exact .refl _
    · rw [last]
      exact .refl _
  · have whole := resumable.loop_append front more
    rcases last with last | last
    · rw [last] at whole
      exact whole.stopped good'.1 good'.2 rounds final
    · rw [last] at whole
      exact whole.stopped good'.1 good'.2 rounds final

end

/-- The callers' loop over a piece with more input behind it. -/
theorem inflateBlockLoop_append {rounds : Nat} {inflater : HdInflater} (ready : Ready inflater)
    {front : Bytes} (enough : front.length < rounds) (back : Bytes) (final : Bool) :
    SameBlock (inflateBlockLoop (rounds + back.length) inflater (front ++ back) final)
      ((inflateBlockLoop rounds inflater front false).andThen fun i =>
        inflateHeaderBlock i back final) := by
  induction rounds generalizing inflater front with
  | zero => exact absurd enough (Nat.not_lt_zero _)
  | succ rounds ih =>
      rw [show rounds + 1 + back.length = rounds + back.length + 1 by omega]
      cases bad : inflater.ctx.bad with
      | true =>
          rw [inflateBlockLoop_bad bad, inflateBlockLoop_bad bad]
          exact .refl _
      | false =>
          have resumable := ready.resolve_left (by rw [bad]; exact Bool.false_ne_true)
          have spec := resumable.loop front
          rw [inflateBlockLoop_succ bad, inflateBlockLoop_succ bad]
          cases last : inflateLoop (inflateRounds front) inflater front false with
          | again i input busy =>
              rw [last] at spec
              obtain ⟨-, rfl, rfl, -⟩ := spec
              exact resumable.stops bad (.inr last) back rounds final
          | emit i input nv =>
              rw [last] at spec
              obtain ⟨state, less, -⟩ := spec
              have less : input.length < front.length := less
              have later : SameBlock (inflateBlockLoop (rounds + back.length) i (input ++ back) final)
                  ((inflateBlockLoop rounds i input false).andThen fun i =>
                    inflateHeaderBlock i back final) :=
                ih (.inr (resumable_of_opcode state)) (by omega)
              rw [resumable.emits last, blockGoOn, blockGoOn, BlockInflated.andThen_cons]
              exact later.cons nv
          | almostOk i => exact resumable.stops bad (.inl last) back rounds final
          | fail i rv =>
              obtain ⟨i', same⟩ := resumable.fails last back
              rw [same]
              exact ⟨rfl, rfl, fun noError => by cases noError⟩

/-- Two pieces of a header block are one. -/
theorem inflateHeaderBlock_append {inflater : HdInflater} (ready : Ready inflater)
    (front back : Bytes) (final : Bool) :
    SameBlock (inflateHeaderBlock inflater (front ++ back) final)
      ((inflateHeaderBlock inflater front false).andThen fun i =>
        inflateHeaderBlock i back final) := by
  have whole := inflateBlockLoop_append ready (Nat.lt_succ_self front.length) back final
  rw [show front.length + 1 + back.length = (front ++ back).length + 1 by
    rw [List.length_append]; omega] at whole
  exact whole

/-! ### Runs

Between calls an inflater is ready for the next piece, whatever calls came before, so the result
holds for any number of pieces. -/

/-- A piece leaves an inflater that can take the next one, or one that has failed for good. -/
theorem inflateBlockLoop_ready {rounds : Nat} {inflater : HdInflater} (ready : Ready inflater)
    (input : Bytes) (final : Bool) :
    Ready (inflateBlockLoop rounds inflater input final).inflater := by
  induction rounds generalizing inflater input with
  | zero => exact ready
  | succ rounds ih =>
      cases bad : inflater.ctx.bad with
      | true =>
          rw [inflateBlockLoop_bad bad]
          exact ready
      | false =>
          have resumable := ready.resolve_left (by rw [bad]; exact Bool.false_ne_true)
          have spec := resumable.loop input
          rw [inflateBlockLoop_succ bad]
          cases last : inflateLoop (inflateRounds input) inflater input false with
          | again i input' busy =>
              rw [last] at spec
              dsimp only [blockGoOn]
              split
              · exact .inl rfl
              · split
                · exact .inr ⟨fun len => (by cases len), fun reads => (by cases reads)⟩
                · exact .inr spec.1
          | emit i input' nv =>
              rw [last] at spec
              exact ih (.inr (resumable_of_opcode spec.1)) input'
          | almostOk i =>
              rw [last] at spec
              dsimp only [blockGoOn]
              split
              · exact .inl rfl
              · exact .inr spec.1
          | fail i rv => exact .inl rfl

theorem Ready.init : Ready hdInflateInit := by
  refine .inr ⟨fun len => ?_, fun reads => ?_⟩
  · cases len
  · cases reads

theorem Ready.call {inflater : HdInflater} (ready : Ready inflater) (call : InflateCall) :
    Ready (inflater.call call) := by
  cases call with
  | piece input final => exact inflateBlockLoop_ready ready input final
  | changeTableSize size =>
      rw [HdInflater.call, hdInflateChangeTableSize]
      split
      · exact ready
      · rename_i changed
        split at changed
        · dsimp only at changed
          split at changed
          · cases changed
            exact .inr ⟨fun len => (by cases len), fun reads => (by cases reads)⟩
          · cases changed
            exact ready.imp id fun resumable => ⟨resumable.fresh, resumable.more⟩
        · cases changed

/-- Pieces give what the whole gives. -/
theorem Ready.fragments {inflater : HdInflater} (ready : Ready inflater) (pieces : List Bytes)
    (last : Bytes) :
    SameBlock (inflateHeaderBlock inflater (pieces.flatten ++ last) true)
      (inflateFragments inflater pieces last) := by
  induction pieces generalizing inflater with
  | nil => exact .refl _
  | cons piece pieces ih =>
      rw [inflateFragments_cons, List.flatten_cons, List.append_assoc]
      exact (inflateHeaderBlock_append ready piece _ true).trans
        (.andThen fun _ => ih (inflateBlockLoop_ready ready piece false))

/-- The pieces in which a header block comes do not matter. After any calls, whatever they were
given, a block in any pieces gives the header fields that it gives in one piece, and ends with the
same error or with none; without an error it leaves the same inflater. -/
theorem fragments_do_not_matter (calls : List InflateCall) (pieces : List Bytes) (last : Bytes) :
    SameBlock (inflateHeaderBlock (EventRun.exec HdInflater.call hdInflateInit calls)
        (pieces.flatten ++ last) true)
      (inflateFragments (EventRun.exec HdInflater.call hdInflateInit calls) pieces last) :=
  (EventRun.invariant_exec Ready (fun _ call ready => ready.call call) Ready.init calls).fragments
    pieces last

end Hfc.Hpack
