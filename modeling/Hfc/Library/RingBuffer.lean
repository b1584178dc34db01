/-
Module: Hfc.Library.RingBuffer
Layer: Library
Purpose: Ring buffers whose size is a power of two. New elements are put in front, old ones are
  taken from the back, and the buffer is copied into a larger one when it is full. A ring buffer is
  the list of its elements, newest first.
Imports: Mathlib.Data.List.OfFn, Mathlib.Tactic.Ring
Main exports: RingBuffer, RingBuffer.init, RingBuffer.get, RingBuffer.toList, RingBuffer.reserve,
  RingBuffer.pushFront, RingBuffer.popBack, get_eq, toList_reserve, toList_pushFront, toList_popBack
-/
import Mathlib.Data.List.OfFn
import Mathlib.Tactic.Ring

/-- The slot of element `i` in a ring of `2 ^ bits` slots: the low bits of the sum. `first` counts
down without an end; a counter that wraps around at a larger power of two has the same low bits. -/
def ringSlot (bits : Nat) (first : Int) (i : Nat) : Nat :=
  ((first + i) % (2 ^ bits : Nat)).toNat

/-- A ring buffer: `len` elements from slot number `first` on. -/
structure RingBuffer (α : Type*) where
  bits : Nat
  slots : List (Option α)
  first : Int
  len : Nat
  size_eq : slots.length = 2 ^ bits
  len_le : len ≤ 2 ^ bits
  filled : ∀ i < len, ((slots[ringSlot bits first i]?).join).isSome = true

/-! ### Slots

Indices modulo a power of two. Distinct entries of a buffer that is not over-full have distinct
slots. -/

theorem ringSlot_cast (bits : Nat) (first : Int) (i : Nat) :
    (ringSlot bits first i : Int) = (first + i) % (2 ^ bits : Nat) := by
  have positive : (2 ^ bits : Nat) ≠ 0 := (Nat.two_pow_pos bits).ne'
  exact Int.toNat_of_nonneg (Int.emod_nonneg _ (by exact_mod_cast positive))

theorem ringSlot_lt (bits : Nat) (first : Int) (i : Nat) : ringSlot bits first i < 2 ^ bits := by
  have positive : (0 : Int) < (2 ^ bits : Nat) := by exact_mod_cast Nat.two_pow_pos bits
  have small := Int.emod_lt_of_pos (first + i) positive
  rw [← ringSlot_cast] at small
  exact_mod_cast small

/-- Different elements have different slots. -/
theorem ringSlot_injective {bits : Nat} {first : Int} {i j : Nat} (small : i < 2 ^ bits)
    (small' : j < 2 ^ bits) (same : ringSlot bits first i = ringSlot bits first j) : i = j := by
  have slots : (first + i) % (2 ^ bits : Nat) = (first + j) % (2 ^ bits : Nat) := by
    rw [← ringSlot_cast, ← ringSlot_cast, same]
  have divides := Int.dvd_of_emod_eq_zero (Int.emod_eq_emod_iff_emod_sub_eq_zero.mp slots)
  rw [add_sub_add_left_eq_sub] at divides
  have equal := Int.eq_zero_of_dvd_of_natAbs_lt_natAbs divides (by omega)
  omega

/-- Counting down, every element gets the slot in front. -/
theorem ringSlot_pred (bits : Nat) (first : Int) (i : Nat) :
    ringSlot bits (first - 1) (i + 1) = ringSlot bits first i := by
  rw [ringSlot, ringSlot]
  congr 2
  push_cast
  ring

theorem ringSlot_zero {bits i : Nat} (small : i < 2 ^ bits) : ringSlot bits 0 i = i := by
  have slot := ringSlot_cast bits 0 i
  rw [Int.zero_add, Int.emod_eq_of_lt (by omega) (by exact_mod_cast small)] at slot
  exact_mod_cast slot

namespace RingBuffer

variable {α : Type*}

/-! ### Operations

As the code has them: entries are pushed in front by moving the first index back, and popped from
the end by counting one less. -/

/-- Element `i`, if there are as many. -/
def get (r : RingBuffer α) (i : Nat) : Option α :=
  if i < r.len then (r.slots[ringSlot r.bits r.first i]?).join else none

/-- The element of an index. -/
def entry (r : RingBuffer α) (i : Fin r.len) : α :=
  ((r.slots[ringSlot r.bits r.first i]?).join).get (r.filled i i.isLt)

/-- The elements, newest first. -/
def toList (r : RingBuffer α) : List α :=
  List.ofFn r.entry

/-- How often one is doubled until it is not less than `n`; `rounds` is an end to the search. -/
def doublings : (rounds : Nat) → (bits n : Nat) → Nat
  | 0, bits, _ => bits
  | rounds + 1, bits, n => if 2 ^ bits < n then doublings rounds (bits + 1) n else bits

/-- The smallest power of two that is not less than `n`. -/
def sizeBits (n : Nat) : Nat :=
  doublings n 0 n

/-- Some elements in a ring of their own. -/
def ofList (bits : Nat) (elements : List α) (fits : elements.length ≤ 2 ^ bits) : RingBuffer α where
  bits := bits
  slots := elements.map some ++ List.replicate (2 ^ bits - elements.length) none
  first := 0
  len := elements.length
  size_eq := by
    rw [List.length_append, List.length_map, List.length_replicate]
    omega
  len_le := fits
  filled := by
    intro i inside
    rw [ringSlot_zero (by omega), List.getElem?_append_left (by simpa using inside)]
    simp [inside]

/-- An empty ring with room for `n` elements. -/
def init (n : Nat) : RingBuffer α :=
  ofList (sizeBits n) [] (Nat.zero_le _)

theorem le_doublings {rounds bits n : Nat} (enough : n ≤ bits + rounds) :
    n ≤ 2 ^ doublings rounds bits n := by
  induction rounds generalizing bits with
  | zero => exact le_trans enough (Nat.lt_two_pow_self).le
  | succ rounds ih =>
      rw [doublings]
      split
      · exact ih (by omega)
      · omega

theorem le_sizeBits (n : Nat) : n ≤ 2 ^ sizeBits n :=
  le_doublings (by omega)

@[simp] theorem length_toList (r : RingBuffer α) : r.toList.length = r.len :=
  List.length_ofFn

/-- See that there are `n` slots: the elements are copied into a larger ring if there are not. -/
def reserve (r : RingBuffer α) (n : Nat) : RingBuffer α :=
  if enough : n ≤ 2 ^ r.bits then r
  else ofList (sizeBits n) r.toList (by
    have least := le_sizeBits n
    have most := r.len_le
    rw [length_toList]
    omega)

/-- Put an element in front, in the slot that `first` counts down to. -/
def put (r : RingBuffer α) (a : α) (room : r.len < 2 ^ r.bits) : RingBuffer α where
  bits := r.bits
  slots := r.slots.set (ringSlot r.bits (r.first - 1) 0) (some a)
  first := r.first - 1
  len := r.len + 1
  size_eq := by rw [List.length_set, r.size_eq]
  len_le := room
  filled := by
    intro i inside
    cases i with
    | zero =>
        rw [List.getElem?_set_self (by rw [r.size_eq]; exact ringSlot_lt _ _ _)]
        rfl
    | succ i =>
        have apart : ringSlot r.bits (r.first - 1) 0 ≠ ringSlot r.bits (r.first - 1) (i + 1) :=
          fun same => absurd (ringSlot_injective (by omega) (by omega) same) (by omega)
        rw [List.getElem?_set_ne apart, ringSlot_pred]
        exact r.filled i (by omega)

theorem len_reserve (r : RingBuffer α) (n : Nat) :
    (r.reserve n).len = r.len ∧ n ≤ 2 ^ (r.reserve n).bits := by
  unfold reserve
  split
  · rename_i enough
    exact ⟨rfl, enough⟩
  · exact ⟨r.length_toList, le_sizeBits n⟩

/-- Put an element in front, in a larger ring if there is no slot for it. -/
def pushFront (r : RingBuffer α) (a : α) : RingBuffer α :=
  (r.reserve (r.len + 1)).put a (by
    obtain ⟨same, room⟩ := r.len_reserve (r.len + 1)
    omega)

/-- Drop the last element. -/
def popBack (r : RingBuffer α) : RingBuffer α where
  bits := r.bits
  slots := r.slots
  first := r.first
  len := r.len - 1
  size_eq := r.size_eq
  len_le := le_trans (Nat.sub_le _ _) r.len_le
  filled := fun i inside => r.filled i (by omega)

/-! ### The elements

What the operations do to the list of the elements. Users of the buffer see no slots. -/

/-- Looking an element up is looking it up in the list. -/
theorem get_eq (r : RingBuffer α) (i : Nat) : r.get i = r.toList[i]? := by
  rw [get, toList]
  by_cases inside : i < r.len
  · have inside' : i < (List.ofFn r.entry).length := by simpa using inside
    rw [if_pos inside, List.getElem?_eq_getElem inside', List.getElem_ofFn]
    exact (Option.some_get _).symm
  · rw [if_neg inside, List.getElem?_eq_none (by simpa using inside)]

theorem ext_get {r : RingBuffer α} {elements : List α} (length : r.len = elements.length)
    (same : ∀ i < r.len, r.get i = elements[i]?) : r.toList = elements := by
  apply List.ext_getElem?
  intro i
  by_cases inside : i < r.len
  · rw [← get_eq, same i inside]
  · rw [List.getElem?_eq_none (by rw [length_toList]; omega), List.getElem?_eq_none (by omega)]

@[simp] theorem toList_ofList {bits : Nat} {elements : List α} (fits : elements.length ≤ 2 ^ bits) :
    (ofList bits elements fits).toList = elements := by
  refine ext_get rfl fun i inside => ?_
  have inside' : i < elements.length := inside
  rw [get, if_pos inside]
  show ((elements.map some ++ _)[ringSlot bits 0 i]?).join = _
  rw [ringSlot_zero (by omega), List.getElem?_append_left (by simpa using inside')]
  simp [inside']

@[simp] theorem toList_init (n : Nat) : (init n : RingBuffer α).toList = [] :=
  toList_ofList _

@[simp] theorem toList_reserve (r : RingBuffer α) (n : Nat) : (r.reserve n).toList = r.toList := by
  unfold reserve
  split
  · rfl
  · exact toList_ofList _

theorem toList_put (r : RingBuffer α) (a : α) (room : r.len < 2 ^ r.bits) :
    (r.put a room).toList = a :: r.toList := by
  refine ext_get (by rw [List.length_cons, length_toList]; rfl) fun i inside => ?_
  have inside' : i < r.len + 1 := inside
  rw [get, if_pos inside]
  show ((r.slots.set (ringSlot r.bits (r.first - 1) 0) (some a))[
    ringSlot r.bits (r.first - 1) i]?).join = _
  cases i with
  | zero =>
      rw [List.getElem?_set_self (by rw [r.size_eq]; exact ringSlot_lt _ _ _)]
      rfl
  | succ i =>
      have apart : ringSlot r.bits (r.first - 1) 0 ≠ ringSlot r.bits (r.first - 1) (i + 1) :=
        fun same => absurd (ringSlot_injective (by omega) (by omega) same) (by omega)
      rw [List.getElem?_set_ne apart, ringSlot_pred, List.getElem?_cons_succ, ← get_eq, get,
        if_pos (by omega)]

@[simp] theorem toList_pushFront (r : RingBuffer α) (a : α) :
    (r.pushFront a).toList = a :: r.toList := by
  rw [pushFront, toList_put, toList_reserve]

@[simp] theorem toList_popBack (r : RingBuffer α) : r.popBack.toList = r.toList.dropLast := by
  refine ext_get (by rw [List.length_dropLast, length_toList]; rfl) fun i inside => ?_
  have inside' : i < r.len - 1 := inside
  rw [List.getElem?_dropLast, length_toList, if_pos inside', ← get_eq, get, get, if_pos inside,
    if_pos (by omega)]
  rfl

end RingBuffer
