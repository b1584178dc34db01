/-
Module: Hfc.Library.EventRun
Layer: Library
Purpose: Runs of a deterministic machine that is driven by a list of events. `Along P` says that
  every step of a run satisfies `P` of the state before it and its event. The rules: an invariant
  that the steps keep holds after the run, and two step properties that agree in every invariant
  state agree along whole runs.
Imports: Mathlib.Data.List.Basic
Main exports: exec, exec_append, Along, invariant_exec, invariant_exec_of, Along.of_invariant,
  Along.congr, Along.congr_of
-/
import Mathlib.Data.List.Basic

namespace EventRun

variable {State Event : Type*} (step : State → Event → State)

/-- The state after a list of events. -/
def exec (start : State) (events : List Event) : State :=
  events.foldl step start

/-- Every step of the run satisfies `P`. -/
def Along (P : State → Event → Prop) : State → List Event → Prop
  | _, [] => True
  | state, event :: events => P state event ∧ Along P (step state event) events

instance Along.decidable {P : State → Event → Prop} [∀ state event, Decidable (P state event)] :
    (start : State) → (events : List Event) → Decidable (Along step P start events)
  | _, [] => .isTrue trivial
  | state, event :: events =>
      have := Along.decidable (P := P) (step state event) events
      inferInstanceAs (Decidable (_ ∧ _))

@[simp] theorem exec_nil (start : State) : exec step start [] = start := rfl

@[simp] theorem exec_cons (start : State) (event : Event) (events : List Event) :
    exec step start (event :: events) = exec step (step start event) events := rfl

theorem exec_append (start : State) (first second : List Event) :
    exec step start (first ++ second) = exec step (exec step start first) second :=
  List.foldl_append

variable {step}

/-- An invariant that every step keeps holds after every run. -/
theorem invariant_exec (Inv : State → Prop)
    (keep : ∀ state event, Inv state → Inv (step state event))
    {start : State} (initial : Inv start) (events : List Event) : Inv (exec step start events) := by
  induction events generalizing start with
  | nil => exact initial
  | cons event events ih => exact ih (keep start event initial)

/-- An invariant that the allowed steps keep holds after every run of them. -/
theorem invariant_exec_of (Inv : State → Prop) {Allowed : Event → Prop}
    (keep : ∀ state event, Inv state → Allowed event → Inv (step state event))
    {start : State} {events : List Event} (initial : Inv start)
    (allowed : ∀ event ∈ events, Allowed event) : Inv (exec step start events) := by
  induction events generalizing start with
  | nil => exact initial
  | cons event events ih =>
      exact ih (keep start event initial (allowed event List.mem_cons_self))
        fun event member => allowed event (List.mem_cons_of_mem _ member)

/-- A property of the steps from an invariant state holds along every run of allowed events, if
these steps keep the invariant. -/
theorem Along.of_invariant (Inv : State → Prop) {P : State → Event → Prop} {Allowed : Event → Prop}
    (keep : ∀ state event, Inv state → Allowed event → P state event ∧ Inv (step state event))
    {start : State} {events : List Event} (initial : Inv start)
    (allowed : ∀ event ∈ events, Allowed event) : Along step P start events := by
  induction events generalizing start with
  | nil => trivial
  | cons event events ih =>
      obtain ⟨first, rest⟩ := keep start event initial (allowed event List.mem_cons_self)
      exact ⟨first, ih rest fun event member => allowed event (List.mem_cons_of_mem _ member)⟩

/-- Step properties that agree in every invariant state agree along whole runs. -/
theorem Along.congr (Inv : State → Prop) {P Q : State → Event → Prop}
    (same : ∀ state event, Inv state → (P state event ↔ Q state event))
    (keep : ∀ state event, Inv state → Q state event → Inv (step state event))
    {start : State} {events : List Event} (initial : Inv start) :
    Along step P start events ↔ Along step Q start events := by
  induction events generalizing start with
  | nil => exact Iff.rfl
  | cons event events ih =>
      constructor
      · rintro ⟨first, rest⟩
        have firstQ := (same start event initial).mp first
        exact ⟨firstQ, (ih (keep start event initial firstQ)).mp rest⟩
      · rintro ⟨first, rest⟩
        exact ⟨(same start event initial).mpr first, (ih (keep start event initial first)).mpr rest⟩

/-- Step properties that agree wherever a third one holds, which keeps the invariant, agree along
the runs along which that one holds. -/
theorem Along.congr_of (Inv : State → Prop) {P Q R : State → Event → Prop}
    (same : ∀ state event, Inv state → R state event → (P state event ↔ Q state event))
    (keep : ∀ state event, Inv state → R state event → Inv (step state event))
    {start : State} {events : List Event} (initial : Inv start)
    (along : Along step R start events) :
    Along step P start events ↔ Along step Q start events := by
  induction events generalizing start with
  | nil => exact Iff.rfl
  | cons event events ih =>
      exact and_congr (same start event initial along.1)
        (ih (keep start event initial along.1) along.2)

end EventRun
