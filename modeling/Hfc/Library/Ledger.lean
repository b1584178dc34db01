/-
Module: Hfc.Library.Ledger
Layer: Library
Purpose: Ledgers of resources that are taken and given back. Replaying a ledger keeps the resources
  that are held; giving back what is not held, or taking what is held already, is a fault. A ledger
  is settled when its replay ends without a fault and without anything held. The rules: a replay is
  taken piece by piece, and in a replay without a fault every resource is given back as often as it
  was held before or taken, less what is held in the end.
Imports: Mathlib.Data.List.Basic
Main exports: Event, replay, Settled, replay_append, Neutral, count_release_of_replay,
  Settled.count_release, Settled.of_neutral
-/
import Mathlib.Data.List.Basic

namespace Ledger

variable {R : Type*} [DecidableEq R]

/-- A resource is taken or given back. -/
inductive Event (R : Type*) where
  | acquire (r : R)
  | release (r : R)
deriving DecidableEq, Repr

/-- What is held when a ledger has been replayed, absent after a fault. -/
def replay : (held : List R) → List (Event R) → Option (List R)
  | held, [] => some held
  | held, .acquire r :: ledger => if r ∈ held then none else replay (r :: held) ledger
  | held, .release r :: ledger => if r ∈ held then replay (held.erase r) ledger else none

/-- Everything that was taken was given back, once. -/
def Settled (ledger : List (Event R)) : Prop :=
  replay [] ledger = some []

instance (ledger : List (Event R)) : Decidable (Settled ledger) :=
  inferInstanceAs (Decidable (_ = _))

@[simp] theorem replay_nil (held : List R) : replay held [] = some held := rfl

/-- A ledger is replayed piece by piece. -/
theorem replay_append (held : List R) (first later : List (Event R)) :
    replay held (first ++ later) = (replay held first).bind fun now => replay now later := by
  induction first generalizing held with
  | nil => rfl
  | cons event first ih =>
      cases event with
      | acquire r =>
          by_cases present : r ∈ held
          · simp [replay, present]
          · simp [replay, present, ih]
      | release r =>
          by_cases present : r ∈ held
          · simp [replay, present, ih]
          · simp [replay, present]

/-- A ledger that leaves what is held as it is. -/
def Neutral (held : List R) (ledger : List (Event R)) : Prop :=
  replay held ledger = some held

/-- Neutral ledgers one after the other settle from nothing. -/
theorem Settled.of_neutral {first inner last : List (Event R)} {held : List R}
    (opened : replay [] first = some held) (neutral : Neutral held inner)
    (closed : replay held last = some []) : Settled (first ++ (inner ++ last)) := by
  unfold Settled
  rw [replay_append, opened, Option.bind_some, replay_append, neutral, Option.bind_some, closed]

/-- Without a fault every resource is accounted for. -/
theorem count_release_of_replay {held now : List R} {ledger : List (Event R)}
    (replayed : replay held ledger = some now) (r : R) :
    ledger.count (.release r) + now.count r = held.count r + ledger.count (.acquire r) := by
  induction ledger generalizing held with
  | nil =>
      cases replayed
      simp
  | cons event ledger ih =>
      cases event with
      | acquire t =>
          rw [replay] at replayed
          split at replayed
          · cases replayed
          · have later := ih replayed
            by_cases same : t = r
            · subst same
              simp only [List.count_cons_self, ne_eq, reduceCtorEq, not_false_eq_true,
                List.count_cons_of_ne] at later ⊢
              omega
            · have other : Event.acquire t ≠ .acquire r :=
                fun equal => same (Event.acquire.inj equal)
              simp only [ne_eq, reduceCtorEq, not_false_eq_true, List.count_cons_of_ne, same,
                other] at later ⊢
              exact later
      | release t =>
          rw [replay] at replayed
          split at replayed
          · rename_i present
            have later := ih replayed
            by_cases same : t = r
            · subst same
              have positive := List.count_pos_iff.mpr present
              simp only [List.count_cons_self, ne_eq, reduceCtorEq, not_false_eq_true,
                List.count_cons_of_ne, List.count_erase_self] at later ⊢
              omega
            · have other : Event.release t ≠ .release r :=
                fun equal => same (Event.release.inj equal)
              have kept : (held.erase t).count r = held.count r :=
                List.count_erase_of_ne (Ne.symm same)
              simp only [ne_eq, reduceCtorEq, not_false_eq_true, List.count_cons_of_ne, other,
                kept] at later ⊢
              exact later
          · cases replayed

/-- In a settled ledger every resource is given back as often as it is taken. -/
theorem Settled.count_release {ledger : List (Event R)} (settled : Settled ledger) (r : R) :
    ledger.count (.release r) = ledger.count (.acquire r) := by
  simpa using count_release_of_replay settled r

end Ledger
