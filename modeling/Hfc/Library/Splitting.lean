/-
Module: Hfc.Library.Splitting
Layer: Library
Purpose: The pieces of a text between separators: how much of the text they hold, and which of its
  elements.
Imports: Mathlib.Algebra.BigOperators.Group.List.Basic, Mathlib.Algebra.Order.Ring.Nat
Main exports: splitOn_cons_sep, splitOn_cons_other, splitOn_length, mem_of_mem_piece,
  exists_mem_piece, sum_length_filter, sum_length_le, length_piece_le
-/
import Mathlib.Algebra.BigOperators.Group.List.Basic
import Mathlib.Algebra.Order.Ring.Nat

namespace Splitting

section

variable {α : Type*}

/-- Pieces that are left out because they are empty hold nothing. -/
theorem sum_length_filter (pieces : List (List α)) :
    ((pieces.filter (· ≠ [])).map List.length).sum = (pieces.map List.length).sum := by
  induction pieces with
  | nil => rfl
  | cons piece pieces ih =>
      by_cases empty : piece = []
      · simpa [empty] using ih
      · simpa [empty] using ih

/-- Pieces of bounded length hold no more than that many times as much. -/
theorem sum_length_le {n : Nat} {pieces : List (List α)}
    (bounded : ∀ piece ∈ pieces, piece.length ≤ n) :
    (pieces.map List.length).sum ≤ pieces.length * n := by
  induction pieces with
  | nil => exact Nat.zero_le _
  | cons piece pieces ih =>
      have first := bounded piece List.mem_cons_self
      have later := ih fun other member => bounded other (List.mem_cons_of_mem piece member)
      rw [List.map_cons, List.sum_cons, List.length_cons, Nat.succ_mul]
      omega

/-- One of some pieces that all hold something leaves at least an element to each other. -/
theorem length_add_length_le {pieces : List (List α)} (full : ∀ piece ∈ pieces, piece ≠ [])
    {piece : List α} (member : piece ∈ pieces) :
    piece.length + pieces.length ≤ (pieces.map List.length).sum + 1 := by
  induction pieces with
  | nil => simp at member
  | cons first pieces ih =>
      rw [List.map_cons, List.sum_cons, List.length_cons]
      have behind : ∀ piece ∈ pieces, piece ≠ [] :=
        fun other inPieces => full other (List.mem_cons_of_mem first inPieces)
      rcases List.mem_cons.mp member with rfl | later
      · have positive : ∀ n ∈ pieces.map List.length, 1 ≤ n := by
          intro n inMap
          obtain ⟨other, inPieces, rfl⟩ := List.mem_map.mp inMap
          exact List.length_pos_iff.mpr (behind other inPieces)
        have bound := List.length_le_sum_of_one_le _ positive
        rw [List.length_map] at bound
        omega
      · have bound := ih behind later
        have positive := List.length_pos_iff.mpr (full first List.mem_cons_self)
        omega

end

section

variable {α : Type*} [DecidableEq α]

/-- A separator at the head of a text ends an empty piece. -/
theorem splitOn_cons_sep (sep : α) (text : List α) :
    (sep :: text).splitOn sep = [] :: text.splitOn sep := by
  rw [List.splitOn_cons_eq_if_modifyHead, if_pos (beq_self_eq_true sep)]

/-- Any other element belongs to the first piece. -/
theorem splitOn_cons_other {a sep : α} (other : a ≠ sep) (text : List α) :
    ∃ first rest, text.splitOn sep = first :: rest ∧
      (a :: text).splitOn sep = (a :: first) :: rest := by
  obtain ⟨first, rest, pieces⟩ := List.exists_cons_of_ne_nil (List.splitOn_ne_nil sep text)
  refine ⟨first, rest, pieces, ?_⟩
  rw [List.splitOn_cons_eq_if_modifyHead, pieces, if_neg (by simpa using other)]
  rfl

/-- The pieces hold everything but the separators, of which there is one less than pieces. -/
theorem splitOn_length (sep : α) (text : List α) :
    ((text.splitOn sep).map List.length).sum + (text.splitOn sep).length = text.length + 1 := by
  induction text with
  | nil => simp
  | cons a text ih =>
      by_cases here : a = sep
      · subst here
        rw [splitOn_cons_sep, List.map_cons, List.sum_cons, List.length_cons, List.length_cons,
          List.length_nil]
        omega
      · obtain ⟨first, rest, pieces, pieces'⟩ := splitOn_cons_other here text
        rw [pieces, List.map_cons, List.sum_cons, List.length_cons] at ih
        rw [pieces', List.map_cons, List.sum_cons, List.length_cons, List.length_cons,
          List.length_cons]
        omega

/-- What stands in a piece stands in the text. -/
theorem mem_of_mem_piece {sep a : α} {text piece : List α} (isPiece : piece ∈ text.splitOn sep)
    (member : a ∈ piece) : a ∈ text ∧ a ≠ sep := by
  induction text generalizing piece with
  | nil =>
      rw [List.splitOn_nil, List.mem_singleton] at isPiece
      simp [isPiece] at member
  | cons b text ih =>
      by_cases here : b = sep
      · subst here
        rw [splitOn_cons_sep] at isPiece
        rcases List.mem_cons.mp isPiece with rfl | later
        · simp at member
        · obtain ⟨inText, other⟩ := ih later member
          exact ⟨List.mem_cons_of_mem b inText, other⟩
      · obtain ⟨first, rest, pieces, pieces'⟩ := splitOn_cons_other here text
        rw [pieces'] at isPiece
        rw [pieces] at ih
        rcases List.mem_cons.mp isPiece with rfl | later
        · rcases List.mem_cons.mp member with rfl | behind
          · exact ⟨List.mem_cons_self, here⟩
          · obtain ⟨inText, other⟩ := ih List.mem_cons_self behind
            exact ⟨List.mem_cons_of_mem b inText, other⟩
        · obtain ⟨inText, other⟩ := ih (List.mem_cons_of_mem first later) member
          exact ⟨List.mem_cons_of_mem b inText, other⟩

/-- Whatever stands in the text and is no separator stands in one of its pieces. -/
theorem exists_mem_piece {sep a : α} {text : List α} (member : a ∈ text) (other : a ≠ sep) :
    ∃ piece ∈ text.splitOn sep, a ∈ piece := by
  induction text with
  | nil => simp at member
  | cons b text ih =>
      by_cases here : b = sep
      · subst here
        rw [splitOn_cons_sep]
        obtain ⟨piece, isPiece, inPiece⟩ := ih ((List.mem_cons.mp member).resolve_left other)
        exact ⟨piece, List.mem_cons_of_mem [] isPiece, inPiece⟩
      · obtain ⟨first, rest, pieces, pieces'⟩ := splitOn_cons_other here text
        rw [pieces'] at ⊢
        rw [pieces] at ih
        rcases List.mem_cons.mp member with rfl | later
        · exact ⟨a :: first, List.mem_cons_self, List.mem_cons_self⟩
        · obtain ⟨piece, isPiece, inPiece⟩ := ih later
          rcases List.mem_cons.mp isPiece with rfl | behind
          · exact ⟨b :: piece, List.mem_cons_self, List.mem_cons_of_mem b inPiece⟩
          · exact ⟨piece, List.mem_cons_of_mem _ behind, inPiece⟩

/-- A piece that holds something is no longer than the others and the separators allow. -/
theorem length_piece_le {sep : α} {text piece : List α}
    (member : piece ∈ (text.splitOn sep).filter (· ≠ [])) :
    piece.length + 2 * ((text.splitOn sep).filter (· ≠ [])).length ≤ text.length + 2 := by
  have full : ∀ other ∈ (text.splitOn sep).filter (· ≠ []), other ≠ [] :=
    fun other kept => by simpa using (List.mem_filter.mp kept).2
  have bound := length_add_length_le full member
  have total := splitOn_length sep text
  have fewer := List.length_filter_le (· ≠ []) (text.splitOn sep)
  rw [sum_length_filter] at bound
  omega

end

end Splitting
