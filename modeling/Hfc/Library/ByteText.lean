/-
Module: Hfc.Library.ByteText
Layer: Library
Purpose: Byte strings as a C program sees them: a piece of memory read up to its first NUL, the
  first occurrence of one text in another, and a store of some bytes at an offset. Memory is a list
  of bytes; a store that would fall outside the list changes nothing there, so the length of a piece
  of memory never changes.
Imports: Mathlib.Data.List.TakeWhile, Mathlib.Data.List.Infix, Mathlib.Algebra.Order.Ring.Int
Main exports: Byte, Bytes, ascii, cstr, strstr, patch, patchAt, cstr_append, cstr_append_nul,
  strstr_spec, strstr_bound, strstr_eq_none, strstr_of_start, length_patch, patch_append,
  patch_replicate, cstr_patch_blank
-/
import Mathlib.Data.List.TakeWhile
import Mathlib.Data.List.Infix
import Mathlib.Algebra.Order.Ring.Int

namespace ByteText

/-- One byte of memory. -/
abbrev Byte := UInt8

/-- A byte string or a piece of memory. -/
abbrev Bytes := List Byte

abbrev nul : Byte := 0
abbrev cr : Byte := 13
abbrev lf : Byte := 10
abbrev sp : Byte := 32

/-- The bytes of a text written in ASCII characters. -/
def ascii (text : String) : Bytes :=
  text.toList.map fun c => UInt8.ofNat c.toNat

/-- The C string that starts at the head of a piece of memory: its bytes before the first NUL. -/
def cstr (mem : Bytes) : Bytes :=
  mem.takeWhile (· ≠ nul)

@[simp] theorem cstr_nil : cstr [] = [] := rfl

/-- What lies behind a NUL is not part of the string. -/
@[simp] theorem cstr_append_nul (text rest : Bytes) :
    cstr (text ++ nul :: rest) = cstr text := by
  induction text with
  | nil => simp [cstr]
  | cons b text ih =>
      by_cases hb : b = nul
      · simp [cstr, hb]
      · simpa [cstr, hb] using ih

/-- A C string has no NUL. -/
theorem nul_notMem_cstr (mem : Bytes) : nul ∉ cstr mem := by
  intro member
  simpa using List.mem_takeWhile_imp member

theorem length_cstr_le (mem : Bytes) : (cstr mem).length ≤ mem.length :=
  (List.takeWhile_prefix _).length_le

/-- A text without a NUL is the head of the C string that goes on behind it. -/
theorem cstr_append {text : Bytes} (free : nul ∉ text) (rest : Bytes) :
    cstr (text ++ rest) = text ++ cstr rest := by
  apply List.takeWhile_append_of_pos
  intro b member
  have different : b ≠ nul := fun equal => free (equal ▸ member)
  simpa using different

/-- A text without a NUL is its own C string. -/
theorem cstr_of_nul_free {text : Bytes} (free : nul ∉ text) : cstr text = text := by
  have whole := cstr_append free []
  rwa [cstr_nil, List.append_nil] at whole

/-- Offset of the first occurrence of `needle` in `text`, as `strstr` finds it. -/
def strstr (needle : Bytes) : Bytes → Option Nat
  | [] => if needle = [] then some 0 else none
  | b :: text =>
      if needle.isPrefixOf (b :: text) then some 0
      else (strstr needle text).map (· + 1)

/-- What is found is there. -/
theorem strstr_spec {needle text : Bytes} {n : Nat} (found : strstr needle text = some n) :
    needle <+: text.drop n := by
  induction text generalizing n with
  | nil =>
      simp only [strstr, Option.ite_none_right_eq_some] at found
      simp [found.1]
  | cons b text ih =>
      rw [strstr] at found
      split at found
      · rename_i starts
        cases found
        exact List.isPrefixOf_iff_prefix.mp starts
      · obtain ⟨later, tail, rfl⟩ := Option.map_eq_some_iff.mp found
        exact ih tail

theorem infix_of_strstr {needle text : Bytes} {n : Nat} (found : strstr needle text = some n) :
    needle <:+: text :=
  (strstr_spec found).isInfix.trans (List.drop_suffix n text).isInfix

theorem strstr_bound {needle text : Bytes} {n : Nat} (found : strstr needle text = some n)
    (something : needle ≠ []) : n + needle.length ≤ text.length := by
  have fits := (strstr_spec found).length_le
  have positive := List.length_pos_iff.mpr something
  rw [List.length_drop] at fits
  omega

/-- Nothing is found only where there is no occurrence. -/
theorem strstr_eq_none {needle text : Bytes} : strstr needle text = none ↔ ¬ needle <:+: text := by
  induction text with
  | nil => simp [strstr]
  | cons b text ih =>
      rw [strstr, List.infix_cons_iff, ← List.isPrefixOf_iff_prefix]
      split
      · rename_i starts
        simp [starts]
      · rename_i starts
        simp [starts, ih]

/-- A text is found at its head. -/
theorem strstr_of_start {needle text : Bytes} (starts : needle <+: text) :
    strstr needle text = some 0 := by
  cases text with
  | nil => simp [strstr, List.prefix_nil.mp starts]
  | cons b text => rw [strstr, if_pos (List.isPrefixOf_iff_prefix.mpr starts)]

/-- A single byte is found behind the bytes that differ from it. -/
theorem strstr_singleton (c : Byte) (text : Bytes) :
    strstr [c] text = if c ∈ text then some (text.takeWhile (· ≠ c)).length else none := by
  induction text with
  | nil => rfl
  | cons b text ih =>
      by_cases here : b = c
      · subst here
        simp [strstr]
      · have other : ¬ c = b := fun equal => here equal.symm
        have starts : [c].isPrefixOf (b :: text) = false := by simp [List.isPrefixOf, other]
        rw [strstr, starts, ih]
        by_cases later : c ∈ text
        · simp [later, here]
        · simp [later, other]

/-- Store `data` at offset `off`; the part of it that falls behind the memory is dropped. -/
def patch (mem : Bytes) (off : Nat) (data : Bytes) : Bytes :=
  mem.take off ++ data.take (mem.length - off) ++ mem.drop (off + data.length)

@[simp] theorem length_patch (mem : Bytes) (off : Nat) (data : Bytes) :
    (patch mem off data).length = mem.length := by
  simp only [patch, List.length_append, List.length_take, List.length_drop]
  omega

@[simp] theorem patch_nil (mem : Bytes) (off : Nat) : patch mem off [] = mem := by
  simp [patch]

/-- A store replaces exactly the bytes it covers. -/
theorem patch_append (before old after data : Bytes) (fits : old.length = data.length) :
    patch (before ++ old ++ after) before.length data = before ++ data ++ after := by
  have room : data.length ≤ (before ++ old ++ after).length - before.length := by
    simp only [List.length_append]
    omega
  have tail : (before ++ old ++ after).drop (before.length + data.length) = after := by
    rw [← fits, ← List.length_append, List.drop_left]
  rw [patch, List.take_of_length_le room, tail, List.append_assoc before old after, List.take_left]

/-- A store into a stretch of equal bytes leaves the rest of the stretch. -/
theorem patch_replicate (before after data : Bytes) {room : Nat} (b : Byte)
    (fits : data.length ≤ room) :
    patch (before ++ (List.replicate room b ++ after)) before.length data =
      before ++ (data ++ (List.replicate (room - data.length) b ++ after)) := by
  have split : before ++ (List.replicate room b ++ after) =
      before ++ List.replicate data.length b ++
        (List.replicate (room - data.length) b ++ after) := by
    rw [List.append_assoc, ← List.append_assoc (List.replicate data.length b),
      List.replicate_append_replicate, Nat.add_sub_cancel' fits]
  rw [split, patch_append before _ _ data (by simp), List.append_assoc]

/-- A text that is stored at the head of blank memory leaves a NUL behind it only where it does not
fill the memory. -/
theorem nul_mem_patch_blank {data : Bytes} (free : nul ∉ data) (room : Nat) :
    nul ∈ patch (List.replicate room nul) 0 data ↔ data.length < room := by
  have stored : nul ∉ data.take room := fun member => free (List.mem_of_mem_take member)
  simp only [patch, List.length_replicate, Nat.sub_zero, List.take_zero, List.nil_append,
    Nat.zero_add, List.drop_replicate, List.mem_append, stored, false_or, List.mem_replicate,
    and_true]
  omega

/-- Such a text that does not fill the memory is read back from there. -/
theorem cstr_patch_blank {data : Bytes} (free : nul ∉ data) {room : Nat}
    (fits : data.length < room) : cstr (patch (List.replicate room nul) 0 data) = data := by
  obtain ⟨spare, rfl⟩ := Nat.exists_eq_add_of_lt fits
  have stored := patch_replicate [] [] data nul fits.le
  rw [List.nil_append, List.append_nil, List.nil_append, List.append_nil, List.length_nil,
    show data.length + spare + 1 - data.length = spare + 1 by omega] at stored
  rw [stored, List.replicate_succ, cstr_append_nul, cstr_of_nul_free free]

/-- What a store inside the memory leaves up to its own end. -/
theorem take_patch (mem data : Bytes) {off : Nat} (fits : off + data.length ≤ mem.length) :
    (patch mem off data).take (off + data.length) = mem.take off ++ data := by
  have room : data.length ≤ mem.length - off := by omega
  have front : (mem.take off ++ data).length = off + data.length := by
    simp only [List.length_append, List.length_take]
    omega
  rw [patch, List.take_of_length_le room, ← front, List.take_left]

/-- A store at a signed offset: the bytes in front of the memory are dropped as well. -/
def patchAt (mem : Bytes) (off : Int) (data : Bytes) : Bytes :=
  if 0 ≤ off then patch mem off.toNat data else patch mem 0 (data.drop (-off).toNat)

@[simp] theorem length_patchAt (mem : Bytes) (off : Int) (data : Bytes) :
    (patchAt mem off data).length = mem.length := by
  unfold patchAt
  split <;> simp

@[simp] theorem patchAt_natCast (mem : Bytes) (off : Nat) (data : Bytes) :
    patchAt mem (off : Int) data = patch mem off data := by
  simp [patchAt]

end ByteText
