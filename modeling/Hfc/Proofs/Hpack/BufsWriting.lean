/-
Module: Hfc.Proofs.Hpack.BufsWriting
Layer: Proofs
Purpose: Writing to chained buffers. All writers of the chain do what a byte-by-byte writer does, so
  what is written does not depend on how the chunks are cut, and it is written whole if and only if
  there is room for it in all.
Imports: Hfc.Core.Hpack.Bufs, Mathlib.Algebra.Order.Ring.Nat
Main exports: Bufs.write, Bufs.write_append, Bufs.room, write_put, bufsAdd_eq_write, write_eq
-/
import Hfc.Core.Hpack.Bufs
import Mathlib.Algebra.Order.Ring.Nat

namespace Hfc.Hpack

open ByteText

namespace Bufs

/-- Write some bytes one after the other. -/
def write (bufs : Bufs) (data : Bytes) : Except Int Bufs :=
  data.foldlM bufsAddb bufs

/-- The room there is in all chunks. -/
def room (bufs : Bufs) : Nat :=
  bufs.avail + bufs.next.sum

@[simp] theorem write_nil (bufs : Bufs) : bufs.write [] = .ok bufs := rfl

theorem write_cons (bufs : Bufs) (b : Byte) (data : Bytes) :
    bufs.write (b :: data) = bufsAddb bufs b >>= fun bufs => bufs.write data := rfl

theorem write_append (bufs : Bufs) (front back : Bytes) :
    bufs.write (front ++ back) = bufs.write front >>= fun bufs => bufs.write back :=
  List.foldlM_append

@[ext] theorem ext {bufs bufs' : Bufs} (out : bufs.out = bufs'.out)
    (avail : bufs.avail = bufs'.avail) (next : bufs.next = bufs'.next)
    (exhausted : bufs.exhausted = bufs'.exhausted) : bufs = bufs' := by
  cases bufs
  cases bufs'
  cases out
  cases avail
  cases next
  cases exhausted
  rfl

@[simp] theorem put_nil (bufs : Bufs) : bufs.put [] = bufs := by
  ext1 <;> simp [put]

theorem put_append (bufs : Bufs) (front back : Bytes) :
    bufs.put (front ++ back) = (bufs.put front).put back := by
  ext1 <;> simp [put, Nat.sub_sub]

/-- Where there is room in the current chunk the bytes go into it. -/
theorem write_put {bufs : Bufs} {data : Bytes} (fits : data.length ≤ bufs.avail) :
    bufs.write data = .ok (bufs.put data) := by
  induction data generalizing bufs with
  | nil => simp
  | cons b data ih =>
      rw [List.length_cons] at fits
      have here : bufsAddb bufs b = .ok (bufs.put [b]) := by
        rw [bufsAddb, if_pos (by omega)]
        rfl
      have later : data.length ≤ (bufs.put [b]).avail := by
        simp only [put, List.length_singleton]
        omega
      have whole : bufs.put (b :: data) = (bufs.put [b]).put data := bufs.put_append [b] data
      rw [write_cons, here, whole]
      exact ih later

/-- A full chunk is left for the next one. -/
theorem write_full {bufs : Bufs} (full : bufs.avail = 0) {data : Bytes} (nonempty : data ≠ []) :
    bufs.write data = bufs.allocChain >>= fun bufs => bufs.write data := by
  cases data with
  | nil => exact absurd rfl nonempty
  | cons b data =>
      have later : ∀ bufs' : Bufs, bufs.allocChain = .ok bufs' → 0 < bufs'.avail := by
        intro bufs' next
        unfold allocChain at next
        split at next
        · cases next
        · rename_i room later list
          cases next
          exact bufs.roomy room (by rw [list]; exact List.mem_cons_self)
      have here : bufsAddb bufs b = bufs.allocChain >>= fun bufs => .ok (bufs.put [b]) := by
        rw [bufsAddb, if_neg (by omega)]
      rw [write_cons, here]
      cases next : bufs.allocChain with
      | error e => rfl
      | ok bufs' =>
          have there : bufsAddb bufs' b = .ok (bufs'.put [b]) := by
            rw [bufsAddb, if_pos (later bufs' next)]
            rfl
          show (bufs'.put [b]).write data = bufs'.write (b :: data)
          rw [write_cons, there]
          rfl

/-- The loop of `nghttp2_bufs_add`, with a round for each chunk. -/
theorem bufsAddLoop_eq {rounds : Nat} {bufs : Bufs} (enough : bufs.next.length < rounds)
    (data : Bytes) : bufsAddLoop rounds bufs data = bufs.write data := by
  induction rounds generalizing bufs data with
  | zero => exact absurd enough (Nat.not_lt_zero _)
  | succ rounds ih =>
      have split : bufs.write data = (bufs.put (data.take (min bufs.avail data.length))).write
          (data.drop (min bufs.avail data.length)) := by
        conv_lhs => rw [← List.take_append_drop (min bufs.avail data.length) data, write_append,
          write_put (by rw [List.length_take]; omega)]
        rfl
      rw [split, bufsAddLoop]
      by_cases done : data.drop (min bufs.avail data.length) = []
      · rw [if_pos done, done, write_nil]
      · have left : min bufs.avail data.length < data.length := by
          by_contra all
          exact done (List.drop_eq_nil_of_le (not_lt.mp all))
        have full : (bufs.put (data.take (min bufs.avail data.length))).avail = 0 := by
          simp only [put, List.length_take]
          omega
        rw [if_neg done, write_full full done]
        cases next : (bufs.put (data.take (min bufs.avail data.length))).allocChain with
        | error e => rfl
        | ok bufs' =>
            refine ih ?_ _
            unfold allocChain at next
            split at next
            · cases next
            · rename_i room later list
              cases next
              have length : bufs.next.length = later.length + 1 := by
                rw [show bufs.next = room :: later from list, List.length_cons]
              show later.length < rounds
              omega

/-- One byte is stored in the chunk in use or at the head of the next one, and refused when there is
no room in any. -/
theorem addb_eq (bufs : Bufs) (b : Byte) :
    (0 < bufs.room → ∃ bufs', bufsAddb bufs b = .ok bufs' ∧ bufs'.out = bufs.out ++ [b] ∧
        bufs'.room + 1 = bufs.room ∧ bufs'.exhausted = bufs.exhausted) ∧
      (bufs.room = 0 → bufsAddb bufs b = .error bufs.exhausted) := by
  by_cases here : 0 < bufs.avail
  · refine ⟨fun _ => ⟨bufs.put [b], by rw [bufsAddb, if_pos here]; rfl, rfl, ?_, rfl⟩, ?_⟩
    · simp only [room, put, List.length_singleton]
      omega
    · intro noRoom
      simp only [room] at noRoom
      omega
  · -- The chunk in use is full, so the byte goes to the next one, which is not empty.
    cases chunks : bufs.next with
    | nil =>
        have noRoom : bufs.room = 0 := by simp [room, chunks]; omega
        refine ⟨fun hasRoom => absurd noRoom hasRoom.ne', fun _ => ?_⟩
        rw [bufsAddb, if_neg here, allocChain]
        split
        · rfl
        · rename_i list
          rw [chunks] at list
          cases list
    | cons first later =>
        have positive := bufs.roomy first (by rw [chunks]; exact List.mem_cons_self)
        have total : bufs.room = first + later.sum := by
          simp only [room, chunks, List.sum_cons]
          omega
        refine ⟨fun _ => ?_, fun noRoom => absurd noRoom (by omega)⟩
        rw [bufsAddb, if_neg here, allocChain]
        split
        · rename_i list
          rw [chunks] at list
          cases list
        · rename_i first' later' list
          rw [chunks] at list
          cases list
          refine ⟨_, rfl, rfl, ?_, rfl⟩
          rw [total]
          simp only [room, put, List.length_singleton]
          omega

/-- What is written stands behind what was there, and it is written if and only if there is room for
it. -/
theorem write_eq (bufs : Bufs) (data : Bytes) :
    (data.length ≤ bufs.room →
        ∃ bufs', bufs.write data = .ok bufs' ∧ bufs'.out = bufs.out ++ data ∧
          bufs'.room + data.length = bufs.room ∧ bufs'.exhausted = bufs.exhausted) ∧
      (bufs.room < data.length → bufs.write data = .error bufs.exhausted) := by
  induction data generalizing bufs with
  | nil =>
    exact ⟨fun _ => ⟨bufs, rfl, by simp, rfl, rfl⟩, fun below => absurd below (Nat.not_lt_zero _)⟩
  | cons b data ih =>
      have step := addb_eq bufs b
      rw [List.length_cons, write_cons]
      constructor
      · intro fits
        obtain ⟨bufs', added, out, left, same⟩ := step.1 (by omega)
        obtain ⟨bufs'', written, out', left', same'⟩ := (ih bufs').1 (by omega)
        refine ⟨bufs'', by rw [added]; exact written, ?_, by omega, same'.trans same⟩
        rw [out', out, List.append_assoc]
        rfl
      · intro long
        by_cases noRoom : bufs.room = 0
        · rw [step.2 noRoom]
          rfl
        · obtain ⟨bufs', added, -, left, same⟩ := step.1 (Nat.pos_of_ne_zero noRoom)
          rw [added, ← same]
          exact (ih bufs').2 (by omega)

end Bufs

/-- `nghttp2_bufs_add` writes the bytes one after the other. -/
theorem bufsAdd_eq_write (bufs : Bufs) (data : Bytes) : bufsAdd bufs data = bufs.write data :=
  Bufs.bufsAddLoop_eq (Nat.lt_succ_self _) data

end Hfc.Hpack
