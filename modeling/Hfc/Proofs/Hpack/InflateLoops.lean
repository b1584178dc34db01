/-
Module: Hfc.Proofs.Hpack.InflateLoops
Layer: Proofs
Purpose: What a round of the inflater's loop can come to, that the rounds of a call are enough, and
  that the loop goes on in the next piece where it stopped.
Imports: Hfc.Proofs.Hpack.InflateFragments, Hfc.Proofs.Hpack.TableRefinement
Main exports: StepSpec, inflateStep_spec, stepsLeft, inflateLoop_rounds, Resumable, LoopSpec,
  inflateLoop_spec, inflateLoop_append
-/
import Hfc.Proofs.Hpack.InflateFragments
import Hfc.Proofs.Hpack.TableRefinement

namespace Hfc.Hpack

open ByteText

/-! ### What a round can come to

One lemma says everything a round can do: how much input it takes, which states it goes to and when
it waits. The loops use nothing else of it. -/

/-- The states that may be left without a byte being read: one more round for each. -/
def HdInflateState.waits : HdInflateState → Nat
  | .expectTableSize => 1
  | .inflateStart => 1
  | .opcode => 1
  | .newnameReadNamehuff => 1
  | .newnameReadName => 1
  | _ => 0

/-- What a round can come to, from the state `state` with `left` bytes of a string to read. -/
def StepSpec (state : HdInflateState) (left : Nat) (bad : Bool) (input : Bytes) : InflateStep → Prop
  | .again i input' busy =>
      2 * input'.length + i.state.waits + busy.toNat < 2 * input.length + state.waits ∧
        input'.length + busy.toNat ≤ input.length ∧ LenFresh i ∧ busy = i.state.readsValue ∧
        i.ctx.bad = bad
  | .emit i input' _ =>
      i.state = .opcode ∧ (input'.length < input.length ∨
        state.readsValue = true ∧ left = 0 ∧ input'.length ≤ input.length) ∧ i.ctx.bad = bad
  | .almostOk i =>
      LenFresh i ∧ i.state ≠ .opcode ∧ i.state ≠ .inflateStart ∧
        (i.state.readsValue = true → i.left ≠ 0) ∧ i.ctx.bad = bad
  | .fail _ _ => True

theorem readsLen_state {state : HdInflateState} (len : state.readsLen = true) :
    state ≠ .opcode ∧ state ≠ .inflateStart ∧ state.readsValue = false := by
  revert len
  cases state <;> decide

theorem readsValue_state {state : HdInflateState} (reads : state.readsValue = true) :
    state.readsLen = false ∧ state ≠ .opcode ∧ state ≠ .inflateStart := by
  revert reads
  cases state <;> decide

theorem inflateOpcode_spec {inflater : HdInflater} (waits : inflater.state.waits = 1) (c : Byte)
    (input : Bytes) :
    StepSpec inflater.state inflater.left inflater.ctx.bad input (inflateOpcode inflater c input) := by
  have same : 2 * input.length + 0 + 0 < 2 * input.length + inflater.state.waits := by
    rw [waits]
    exact Nat.lt_succ_self _
  have less : (input.drop 1).length ≤ input.length := by
    rw [List.length_drop]
    exact Nat.sub_le _ _
  unfold inflateOpcode
  dsimp only
  split
  · split
    · trivial
    · exact ⟨same, Nat.le_refl _, fun _ _ => rfl, rfl, rfl⟩
  · split
    · exact ⟨same, Nat.le_refl _, fun _ _ => rfl, rfl, rfl⟩
    · split
      · refine ⟨?_, less, fun _ _ => rfl, rfl, rfl⟩
        rw [waits]
        show 2 * (input.drop 1).length + 0 + 0 < _
        omega
      · exact ⟨same, Nat.le_refl _, fun _ _ => rfl, rfl, rfl⟩

/-- A state that reads a length: what is done behind the length has a byte less. -/
theorem afterLen_spec {inflater : HdInflater} {prefixlen maxlen : Nat} (positive : 0 < prefixlen)
    (few : prefixlen ≤ 8) (input : Bytes) {k : HdInflater → Bytes → InflateStep}
    {state : HdInflateState} {left : Nat} (len : inflater.state.readsLen = true)
    (done : ∀ i input', i = { inflater with left := i.left, shift := i.shift } →
      input'.length < input.length → StepSpec state left inflater.ctx.bad input (k i input')) :
    StepSpec state left inflater.ctx.bad input (afterLen inflater input prefixlen maxlen k) := by
  rw [afterLen]
  cases read : hdInflateReadLen inflater input prefixlen maxlen with
  | error rv => trivial
  | ok r =>
      obtain ⟨i, rfin, input'⟩ := r
      have spec := hdInflateReadLen_spec positive few read
      cases rfin with
      | true => exact done i input' spec.same (spec.complete rfl)
      | false =>
          have same : i.state = inflater.state := spec.state
          obtain ⟨opcode, start, value⟩ := readsLen_state len
          rw [← same] at opcode start value
          exact ⟨fun _ zero => absurd zero (spec.more rfl).1, opcode, start,
            fun reads => absurd (value.symm.trans reads) Bool.false_ne_true, spec.bad⟩

theorem indexRead_spec (state : HdInflateState) (left : Nat) {inflater : HdInflater} {bad : Bool}
    (isBad : inflater.ctx.bad = bad)
    {input input' : Bytes} (less : input'.length < input.length) :
    StepSpec state left bad input (indexRead inflater input') := by
  unfold indexRead
  dsimp only
  split
  · trivial
  · split
    · cases hdTableGet inflater.ctx (inflater.left - 1) with
      | none => trivial
      | some nv => exact ⟨rfl, .inl less, isBad⟩
    · refine ⟨?_, less.le, fun len => absurd len Bool.false_ne_true, rfl, isBad⟩
      show 2 * input'.length + 0 + 0 < _
      omega

/-- A state that reads the length of a string. -/
theorem inflateStringLen_spec (state : HdInflateState) (left : Nat) {inflater : HdInflater}
    (len : inflater.state.readsLen = true) (input : Bytes)
    {next : Bool → HdInflater → HdBuf → HdInflater} {busy : Bool}
    (goes : ∀ huffman i buf, (next huffman i buf).state.waits + busy.toNat = 1 ∧
      (next huffman i buf).state.readsLen = false ∧ busy = (next huffman i buf).state.readsValue ∧
      (next huffman i buf).ctx = i.ctx) :
    StepSpec state left inflater.ctx.bad input (inflateStringLen inflater input next busy) := by
  rw [inflateStringLen_eq]
  refine afterLen_spec (by decide) (by decide) input len fun i input' same less => ?_
  unfold stringLenRead
  split
  all_goals
    obtain ⟨one, noLen, isBusy, table⟩ := goes _ _ _
    refine ⟨?_, ?_, fun len => absurd (noLen.symm.trans len) Bool.false_ne_true, isBusy, ?_⟩
    · rw [Nat.add_assoc, one]
      omega
    · have most := Bool.toNat_le busy
      omega
    · rw [table, same]

/-- A state that reads a string: nothing but its end is done behind it. -/
theorem inflateNameRead_spec {inflater : HdInflater} (buf : HdBuf) {input input' : Bytes}
    {state : HdInflateState} (left : Nat) {bad : Bool} (waits : state.waits = 1)
    (isBad : inflater.ctx.bad = bad)
    (readsName : inflater.state.readsLen = false ∧ inflater.state ≠ .opcode ∧
      inflater.state ≠ .inflateStart ∧ inflater.state.readsValue = false)
    (less : input'.length ≤ input.length) :
    StepSpec state left bad input (inflateNameRead inflater buf input') := by
  rw [inflateNameRead_eq]
  split
  · exact ⟨fun len => absurd (readsName.1.symm.trans len) Bool.false_ne_true, readsName.2.1,
      readsName.2.2.1,
      fun reads => absurd (readsName.2.2.2.symm.trans reads) Bool.false_ne_true, isBad⟩
  · refine ⟨?_, less, fun len => absurd len Bool.false_ne_true, rfl, isBad⟩
    rw [waits]
    show 2 * input'.length + 0 + 0 < _
    omega

/-- Indexing a field leaves the flag of a failure as it is. -/
theorem indexNv_bad (inflater : HdInflater) (nv : HdNv) :
    (inflater.indexNv nv).ctx.bad = inflater.ctx.bad := by
  unfold HdInflater.indexNv
  split
  · exact addHdTableIncremental_bad _ _ _ _
  · rfl

theorem inflateValueRead_spec {inflater : HdInflater} (buf : HdBuf) {input input' : Bytes}
    {state : HdInflateState} {left : Nat} {bad : Bool} (reads : state.readsValue = true)
    (same : inflater.state = state) (isBad : inflater.ctx.bad = bad)
    (less : input'.length ≤ input.length)
    (all : inflater.left = 0 → input'.length + left ≤ input.length) :
    StepSpec state left bad input (inflateValueRead inflater buf input') := by
  have noLen : inflater.state.readsLen = false ∧ inflater.state ≠ .opcode ∧
      inflater.state ≠ .inflateStart := by
    rw [same]
    exact readsValue_state reads
  have emits : input'.length + left ≤ input.length → input'.length < input.length ∨
      state.readsValue = true ∧ left = 0 ∧ input'.length ≤ input.length := fun enough => by
    by_cases nothingLeft : left = 0
    · exact .inr ⟨reads, nothingLeft, less⟩
    · exact .inl (by omega)
  rw [inflateValueRead_eq]
  split
  · rename_i more
    exact ⟨fun len => absurd (noLen.1.symm.trans len) Bool.false_ne_true, noLen.2.1, noLen.2.2,
      fun _ => more, isBad⟩
  · rename_i noMore
    have enough := all (not_not.mp noMore)
    unfold valueCommit
    split
    · exact ⟨rfl, emits enough, (indexNv_bad _ _).trans isBad⟩
    · cases commit : hdInflateCommitIndname { inflater with valuebuf := buf } with
      | none => trivial
      | some committed =>
          obtain ⟨found, -, rfl⟩ := Option.map_eq_some_iff.mp commit
          exact ⟨rfl, emits enough, (indexNv_bad _ _).trans isBad⟩

/-- What a round can come to. -/
theorem inflateStep_spec (inflater : HdInflater) (input : Bytes) :
    StepSpec inflater.state inflater.left inflater.ctx.bad input (inflateStep inflater input) := by
  -- The states that wait for a first byte go on with its bits, those that read a number with
  -- `afterLen`, those that read a string with one of the two readers. A round that reads a value
  -- may take no input, and then it emits.
  cases state : inflater.state with
  | expectTableSize =>
      simp only [inflateStep, state]
      split
      · trivial
      · have spec := inflateOpcode_spec (by rw [state]; rfl) (input.headD 0) input
        rw [state] at spec
        exact spec
  | inflateStart =>
      simp only [inflateStep, state]
      have spec := inflateOpcode_spec (by rw [state]; rfl) (input.headD 0) input
      rw [state] at spec
      exact spec
  | opcode =>
      simp only [inflateStep, state]
      have spec := inflateOpcode_spec (by rw [state]; rfl) (input.headD 0) input
      rw [state] at spec
      exact spec
  | readTableSize =>
      simp only [inflateStep, state, inflateTableSize_eq]
      refine afterLen_spec (by decide) (by decide) input (by rw [state]; rfl)
        fun i input' same less => ?_
      refine ⟨?_, less.le, fun len => absurd len Bool.false_ne_true, rfl, ?_⟩
      -- the state is left, so one round less is to come even if no byte had been taken
      · show 2 * input'.length + 1 + 0 < 2 * input.length + 0
        omega
      · refine (SameCounters.evictLoop _ _ _ _).bad.trans ?_
        rw [same]
  | readIndex =>
      simp only [inflateStep, state, inflateIndex_eq]
      exact afterLen_spec (indexPrefix_range _).1 (indexPrefix_range _).2 input (by rw [state]; rfl)
        fun i input' same less => indexRead_spec _ _ (by rw [same]) less
  | newnameCheckNamelen =>
      simp only [inflateStep, state]
      exact inflateStringLen_spec _ _ (by rfl) input
        (fun huffman _ _ => by cases huffman <;> exact ⟨rfl, rfl, rfl, rfl⟩)
  | newnameReadNamelen =>
      simp only [inflateStep, state]
      exact inflateStringLen_spec _ _ (by rw [state]; rfl) input
        (fun huffman _ _ => by cases huffman <;> exact ⟨rfl, rfl, rfl, rfl⟩)
  | newnameReadNamehuff =>
      simp only [inflateStep, state]
      cases read : hdInflateReadHuff inflater inflater.namebuf input with
      | error rv => trivial
      | ok r =>
          obtain ⟨all, -, -, less, -⟩ := hdInflateReadHuff_spec read
          have same : r.1.state = inflater.state := by rw [all]
          refine inflateNameRead_spec r.2.1 inflater.left rfl (by rw [all]) ?_ less
          rw [same, state]
          decide
  | newnameReadName =>
      simp only [inflateStep, state]
      refine inflateNameRead_spec _ inflater.left rfl rfl ?_ ?_
      · have same : (hdInflateRead inflater inflater.namebuf input).1.state = inflater.state := rfl
        rw [same, state]
        decide
      · rw [(hdInflateRead_rest _ _ _).2, List.length_drop]
        exact Nat.sub_le _ _
  | checkValuelen =>
      simp only [inflateStep, state]
      exact inflateStringLen_spec _ _ (by rfl) input
        (fun huffman _ _ => by cases huffman <;> exact ⟨rfl, rfl, rfl, rfl⟩)
  | readValuelen =>
      simp only [inflateStep, state]
      exact inflateStringLen_spec _ _ (by rw [state]; rfl) input
        (fun huffman _ _ => by cases huffman <;> exact ⟨rfl, rfl, rfl, rfl⟩)
  | readValuehuff =>
      simp only [inflateStep, state]
      cases read : hdInflateReadHuff inflater inflater.valuebuf input with
      | error rv => trivial
      | ok r =>
          obtain ⟨all, -, -, less, -⟩ := hdInflateReadHuff_spec read
          have same : r.1.state = inflater.state := by rw [all]
          refine inflateValueRead_spec r.2.1 rfl (same.trans state) (by rw [all]) less ?_
          rw [(hdInflateReadHuff_rest read).1, (hdInflateReadHuff_rest read).2, List.length_drop]
          omega
  | readValue =>
      simp only [inflateStep, state]
      refine inflateValueRead_spec _ rfl state rfl ?_ ?_
      · rw [(hdInflateRead_rest _ _ _).2, List.length_drop]
        exact Nat.sub_le _ _
      · rw [(hdInflateRead_rest _ _ _).1, (hdInflateRead_rest _ _ _).2, List.length_drop]
        omega

/-! ### The loop

The number of rounds is bounded by the input, so fuel never runs out, and a loop over a front of the
input is the start of the loop over all of it. -/

/-- The rounds that are left, at most. -/
def stepsLeft (inflater : HdInflater) (input : Bytes) (busy : Bool) : Nat :=
  2 * input.length + inflater.state.waits + busy.toNat

theorem waits_le (state : HdInflateState) : state.waits ≤ 1 := by
  cases state <;> decide

/-- The rounds of a call are enough. -/
theorem stepsLeft_lt (inflater : HdInflater) (input : Bytes) :
    stepsLeft inflater input false < inflateRounds input :=
  Nat.add_lt_add_left (Nat.lt_succ_of_le (waits_le inflater.state)) _

/-- What the loop does behind a round. -/
def goOn (rounds : Nat) : InflateStep → InflateStep
  | .again i input busy => inflateLoop rounds i input busy
  | last => last

theorem inflateLoop_succ (rounds : Nat) (inflater : HdInflater) (input : Bytes) (busy : Bool) :
    inflateLoop (rounds + 1) inflater input busy =
      if input = [] && !busy then .again inflater input busy
      else goOn rounds (inflateStep inflater input) := by
  rw [inflateLoop]
  split
  · rfl
  · cases inflateStep inflater input <;> rfl

theorem inflateLoop_round {rounds : Nat} {inflater : HdInflater} {input : Bytes} {busy : Bool}
    (more : input ≠ [] ∨ busy = true) :
    inflateLoop (rounds + 1) inflater input busy = goOn rounds (inflateStep inflater input) := by
  rw [inflateLoop_succ, if_neg]
  rcases more with more | more
  · simp [more]
  · simp [more]

/-- Enough rounds are enough. -/
theorem inflateLoop_rounds {rounds rounds' : Nat} {inflater : HdInflater} {input : Bytes}
    {busy : Bool} (enough : stepsLeft inflater input busy < rounds)
    (enough' : stepsLeft inflater input busy < rounds') :
    inflateLoop rounds inflater input busy = inflateLoop rounds' inflater input busy := by
  induction rounds generalizing rounds' inflater input busy with
  | zero => exact absurd enough (Nat.not_lt_zero _)
  | succ rounds ih =>
      cases rounds' with
      | zero => exact absurd enough' (Nat.not_lt_zero _)
      | succ rounds' =>
          rw [inflateLoop_succ, inflateLoop_succ]
          split
          · rfl
          · have spec := inflateStep_spec inflater input
            cases step : inflateStep inflater input with
            | again i input' busy' =>
                rw [step] at spec
                have less : stepsLeft i input' busy' < stepsLeft inflater input busy :=
                  Nat.lt_of_lt_of_le spec.1 (Nat.le_add_right _ _)
                exact ih (by omega) (by omega)
            | emit i input' nv => rfl
            | almostOk i => rfl
            | fail i rv => rfl

/-- So they are behind a round. -/
theorem goOn_rounds {rounds rounds' : Nat} {inflater : HdInflater} {input : Bytes}
    (enough : 2 * input.length < rounds) (enough' : 2 * input.length < rounds') :
    goOn rounds (inflateStep inflater input) = goOn rounds' (inflateStep inflater input) := by
  have spec := inflateStep_spec inflater input
  cases step : inflateStep inflater input with
  | again i input' busy =>
      rw [step] at spec
      have less : stepsLeft i input' busy < 2 * input.length + inflater.state.waits := spec.1
      have most := waits_le inflater.state
      exact inflateLoop_rounds (by omega) (by omega)
  | emit i input' nv => rfl
  | almostOk i => rfl
  | fail i rv => rfl

theorem goOn_same {r r' : InflateStep} (same : SameStep r r') (rounds : Nat) :
    SameStep (goOn rounds r) (goOn rounds r') := by
  cases same with
  | refl => exact .refl _
  | fail i i' rv => exact .fail i i' rv

/-- An inflater that can go on with the next piece: in the middle of a length it knows where it is,
and in the middle of a value there is something left to read. -/
structure Resumable (inflater : HdInflater) : Prop where
  fresh : LenFresh inflater
  more : inflater.state.readsValue = true → inflater.left ≠ 0

/-- What the loop can come to. -/
def LoopSpec (bad : Bool) (input : Bytes) (busy : Bool) : InflateStep → Prop
  | .again i input' busy' => Resumable i ∧ input' = [] ∧ busy' = false ∧ i.ctx.bad = bad
  | .emit i input' _ =>
      i.state = .opcode ∧ input'.length < input.length + busy.toNat ∧ i.ctx.bad = bad
  | .almostOk i =>
      Resumable i ∧ i.state ≠ .opcode ∧ i.state ≠ .inflateStart ∧ i.ctx.bad = bad
  | .fail _ _ => True

theorem inflateLoop_spec {rounds : Nat} {inflater : HdInflater} {input : Bytes} {busy : Bool}
    (fresh : LenFresh inflater)
    (value : inflater.state.readsValue = true → busy = false → inflater.left ≠ 0)
    (enough : stepsLeft inflater input busy < rounds) :
    LoopSpec inflater.ctx.bad input busy (inflateLoop rounds inflater input busy) := by
  -- Induction on the rounds, of which `stepsLeft` always leaves one more than are used.
  induction rounds generalizing inflater input busy with
  | zero => exact absurd enough (Nat.not_lt_zero _)
  | succ rounds ih =>
      rw [inflateLoop_succ]
      split
      · rename_i done
        obtain ⟨usedUp, idle⟩ : input = [] ∧ busy = false := by simpa using done
        exact ⟨⟨fresh, fun reads => value reads idle⟩, usedUp, idle, rfl⟩
      · have spec := inflateStep_spec inflater input
        cases step : inflateStep inflater input with
        | again i input' busy' =>
            rw [step] at spec
            obtain ⟨less, shorter, fresh', isBusy, bad⟩ := spec
            have fewer : stepsLeft i input' busy' < stepsLeft inflater input busy :=
              Nat.lt_of_lt_of_le less (Nat.le_add_right _ _)
            have idle (reads : i.state.readsValue = true) (no : busy' = false) : i.left ≠ 0 := by
              rw [isBusy, reads] at no
              cases no
            have later : LoopSpec i.ctx.bad input' busy' (inflateLoop rounds i input' busy') :=
              ih fresh' idle (by omega)
            rw [bad] at later
            show LoopSpec inflater.ctx.bad input busy (inflateLoop rounds i input' busy')
            -- what the later rounds come to is also what this one comes to, with no more input left
            cases last : inflateLoop rounds i input' busy' with
            | again i' input'' busy'' =>
                rw [last] at later
                exact later
            | emit i' input'' nv =>
                rw [last] at later
                exact ⟨later.1, by have := later.2.1; omega, later.2.2⟩
            | almostOk i' =>
                rw [last] at later
                exact later
            | fail i' rv => trivial
        | emit i input' nv =>
            rw [step] at spec
            refine ⟨spec.1, ?_, spec.2.2⟩
            -- only a value that was already complete is emitted without a byte taken, and then
            -- `busy` was set
            rcases spec.2.1 with less | ⟨reads, nothingLeft, less⟩
            · omega
            · cases busy with
              | false => exact absurd nothingLeft (value reads rfl)
              | true => exact Nat.lt_succ_of_le less
        | almostOk i =>
            rw [step] at spec
            exact ⟨⟨spec.1, spec.2.2.2.1⟩, spec.2.1, spec.2.2.1, spec.2.2.2.2⟩
        | fail i rv => trivial

/-- The loop with more input behind it: it does the same, or goes on where it would have stopped. -/
def LoopExtends (back : Bytes) : InflateStep → InflateStep → Prop
  | .emit i input nv, whole => whole = .emit i (input ++ back) nv
  | .fail _ rv, whole => ∃ i, whole = .fail i rv
  | .again i _ _, whole => SameStep whole (inflateLoop (inflateRounds back) i back false)
  | .almostOk i, whole => SameStep whole (inflateLoop (inflateRounds back) i back false)

theorem inflateLoop_append {rounds : Nat} {inflater : HdInflater} {front back : Bytes} {busy : Bool}
    (more : back ≠ []) (fresh : LenFresh inflater)
    (value : busy = true → inflater.state.readsValue = true)
    (enough : stepsLeft inflater front busy < rounds) :
    LoopExtends back (inflateLoop rounds inflater front busy)
      (inflateLoop (rounds + 2 * back.length) inflater (front ++ back) busy) := by
  -- Induction on the rounds over the front; `stepsLeft` says that there are enough of them.
  induction rounds generalizing inflater front busy with
  | zero => exact absurd enough (Nat.not_lt_zero _)
  | succ rounds ih =>
      rw [inflateLoop_succ]
      have nonempty : front ++ back ≠ [] := List.append_ne_nil_of_right_ne_nil front more
      split
      · rename_i done
        obtain ⟨rfl, rfl⟩ : front = [] ∧ busy = false := by simpa using done
        -- The front is used up: over the whole input the loop is at the start of the back.
        have waits : inflater.state.waits < rounds + 1 := by
          simpa [stepsLeft] using enough
        have both : inflateLoop (rounds + 1 + 2 * back.length) inflater back false =
            inflateLoop (inflateRounds back) inflater back false :=
          inflateLoop_rounds (by rw [stepsLeft, Bool.toNat_false]; omega) (stepsLeft_lt inflater back)
        show SameStep (inflateLoop _ inflater back false) _
        rw [both]
        exact .refl _
      · rename_i begun
        rw [show rounds + 1 + 2 * back.length = rounds + 2 * back.length + 1 by omega,
          inflateLoop_round (.inl nonempty)]
        -- a round is run, so there is some front left unless a value is being read
        have runs : inflater.state.readsValue = false → front ≠ [] := fun reads empty => by
          have idle : busy = false := by
            cases busy with
            | false => rfl
            | true => exact absurd (reads.symm.trans (value rfl)) Bool.false_ne_true
          rw [empty, idle] at begun
          exact begun rfl
        have longer := inflateStep_append fresh runs back
        have spec := inflateStep_spec inflater front
        cases step : inflateStep inflater front with
        | again i input' busy' =>
            rw [step] at spec longer
            obtain ⟨less, shorter, fresh', isBusy, bad⟩ := spec
            have fewer : stepsLeft i input' busy' < stepsLeft inflater front busy :=
              Nat.lt_of_lt_of_le less (Nat.le_add_right _ _)
            have whole : inflateStep inflater (front ++ back) = .again i (input' ++ back) busy' :=
              longer
            rw [whole]
            exact ih fresh' (fun busy => isBusy.symm.trans busy) (by omega)
        | emit i input' nv =>
            rw [step] at longer
            have whole : inflateStep inflater (front ++ back) = .emit i (input' ++ back) nv :=
              longer
            rw [whole]
            rfl
        | almostOk i =>
            rw [step] at longer
            have whole : SameStep (inflateStep inflater (front ++ back)) (inflateStep i back) :=
              longer
            -- The front ends inside a representation. The whole input goes on in this round, the
            -- other loop in a first round of its own.
            have someRounds : 1 ≤ rounds := by
              have one : 1 ≤ stepsLeft inflater front busy := by
                rw [stepsLeft]
                cases busy with
                | true => exact Nat.le_add_left _ _
                | false =>
                    have positive : 0 < front.length := by
                      cases front with
                      | nil => exact absurd rfl begun
                      | cons c front => exact Nat.succ_pos _
                    omega
              omega
            show SameStep _ (inflateLoop (2 * back.length + 1 + 1) i back false)
            have rounds_ : goOn (2 * back.length + 1) (inflateStep i back) =
                goOn (rounds + 2 * back.length) (inflateStep i back) :=
              goOn_rounds (Nat.lt_succ_self _) (by omega)
            rw [inflateLoop_round (.inl more), rounds_]
            exact goOn_same whole _
        | fail i rv =>
            rw [step] at longer
            obtain ⟨i', whole⟩ : ∃ i, inflateStep inflater (front ++ back) = .fail i rv := longer
            rw [whole]
            exact ⟨i', rfl⟩

end Hfc.Hpack
