/-
Module: Hfc.Library.BoundedFront
Layer: Library
Purpose: Lists whose elements weigh something, and the longest front of a list that is not too
  heavy. It is what stays of the list when elements are dropped from its end for as long as it is
  too heavy, and shortening it twice is shortening it to the smaller bound.
Imports: Mathlib.Algebra.Order.Ring.Nat
Main exports: weight, fit, fit_isPrefix, weight_fit_le, fit_of_le, fit_fit, fit_dropLast
-/
import Mathlib.Algebra.Order.Ring.Nat

namespace BoundedFront

variable {α : Type*} (w : α → Nat)

/-- The weight of a list. -/
def weight (l : List α) : Nat :=
  (l.map w).sum

/-- The longest front of a list that weighs at most `most`. -/
def fit : (most : Nat) → List α → List α
  | _, [] => []
  | most, a :: l => if w a ≤ most then a :: fit (most - w a) l else []

variable {w}

@[simp] theorem weight_nil : weight w [] = 0 := rfl

@[simp] theorem weight_cons (a : α) (l : List α) : weight w (a :: l) = w a + weight w l := by
  simp [weight]

theorem weight_append (front back : List α) :
    weight w (front ++ back) = weight w front + weight w back := by
  simp [weight]

theorem fit_isPrefix (most : Nat) (l : List α) : fit w most l <+: l := by
  induction l generalizing most with
  | nil => exact List.nil_prefix
  | cons a l ih =>
      rw [fit]
      split
      · exact (List.prefix_cons_inj a).mpr (ih _)
      · exact List.nil_prefix

theorem weight_fit_le (most : Nat) (l : List α) : weight w (fit w most l) ≤ most := by
  induction l generalizing most with
  | nil => exact Nat.zero_le _
  | cons a l ih =>
      rw [fit]
      split
      · rename_i fits
        have rest := ih (most - w a)
        rw [weight_cons]
        omega
      · exact Nat.zero_le _

/-- A list that is not too heavy stays whole. -/
theorem fit_of_le {most : Nat} {l : List α} (light : weight w l ≤ most) : fit w most l = l := by
  induction l generalizing most with
  | nil => rfl
  | cons a l ih =>
      rw [weight_cons] at light
      rw [fit, if_pos (by omega), ih (by omega)]

/-- Shortening twice is shortening to the smaller bound. -/
theorem fit_fit (most most' : Nat) (l : List α) :
    fit w most (fit w most' l) = fit w (min most most') l := by
  induction l generalizing most most' with
  | nil => rfl
  | cons a l ih =>
      by_cases fits : w a ≤ most'
      · by_cases fits' : w a ≤ most
        · rw [fit, if_pos fits, fit, if_pos fits', fit, if_pos (by omega), ih, Nat.sub_min_sub_right]
        · rw [fit, if_pos fits, fit, if_neg fits', fit, if_neg (by omega)]
      · rw [fit, if_neg fits, fit, fit, if_neg (by omega)]

/-- The last element of a list that is too heavy is not in the front that stays. -/
theorem fit_dropLast {most : Nat} {l : List α} (heavy : most < weight w l) :
    fit w most l.dropLast = fit w most l := by
  induction l generalizing most with
  | nil => rfl
  | cons a l ih =>
      cases l with
      | nil =>
          rw [weight_cons, weight_nil] at heavy
          rw [List.dropLast_singleton, fit, fit, if_neg (by omega)]
      | cons b l =>
          rw [weight_cons] at heavy
          rw [List.dropLast_cons_cons, fit, fit]
          split
          · rw [ih (by omega)]
          · rfl

end BoundedFront
