/-
Module: Hfc.Spec.Hpack.DynamicTable
Layer: Spec
Purpose: The dynamic table on its own terms: the fields that were added last, as many as there is
  room for, newest first.
Imports: Hfc.Core.Hpack.Table, Hfc.Library.BoundedFront, Mathlib.Data.List.Nodup
Main exports: fieldRoom, keep, addField, Tokened, getField, Tokened.addField
-/
import Hfc.Core.Hpack.Table
import Hfc.Library.BoundedFront
import Mathlib.Data.List.Nodup

namespace Hfc.Hpack

open ByteText BoundedFront

/-- The room a field takes in a table: its strings and 32 bytes. -/
def fieldRoom (nv : HdNv) : Nat :=
  entryRoom nv.name.length nv.value.length

/-- What stays of a table of at most `most` bytes when `room` bytes more have to fit. -/
def keep (most room : Nat) (table : List HdNv) : List HdNv :=
  if room ≤ most then fit fieldRoom (most - room) table else []

/-- The table with a field more; a field that takes more than all the room leaves it empty. -/
def addField (most : Nat) (nv : HdNv) (table : List HdNv) : List HdNv :=
  if fieldRoom nv ≤ most then nv :: keep most (fieldRoom nv) table else []

/-- A field of either table: the static one in front of the dynamic one. -/
def getField (table : List HdNv) (idx : Nat) : Option HdNv :=
  if idx ≥ staticTableLength then table[idx - staticTableLength]?
  else staticTable[idx]?.map fun ent =>
    { name := ent.name, value := ent.value, token := ent.token, flags := nvFlagNone }

/-- The tokens of a table are those of the names, and no field of it has a flag. -/
def Tokened (table : List HdNv) : Prop :=
  ∀ nv ∈ table, nv.token = lookupToken nv.name ∧ nv.flags = nvFlagNone

@[simp] theorem keep_zero (most : Nat) (table : List HdNv) :
    keep most 0 table = fit fieldRoom most table := by
  simp [keep]

theorem keep_isPrefix (most room : Nat) (table : List HdNv) : keep most room table <+: table := by
  unfold keep
  split
  · exact fit_isPrefix _ _
  · exact List.nil_prefix

/-- The room the table takes is not more than there is. -/
theorem weight_keep_le (most room : Nat) (table : List HdNv) :
    weight fieldRoom (keep most room table) + room ≤ max most room := by
  unfold keep
  split
  · have light := weight_fit_le (w := fieldRoom) (most - room) table
    omega
  · rw [weight_nil]
    omega

theorem weight_addField_le (most : Nat) (nv : HdNv) (table : List HdNv) :
    weight fieldRoom (addField most nv table) ≤ most := by
  unfold addField
  split
  · have light := weight_keep_le most (fieldRoom nv) table
    rw [weight_cons]
    omega
  · exact Nat.zero_le _

/-- Every field of a table takes room, so there are not many. -/
theorem length_le_weight (table : List HdNv) : 32 * table.length ≤ weight fieldRoom table := by
  induction table with
  | nil => exact Nat.le_refl _
  | cons nv table ih =>
      rw [weight_cons, List.length_cons, fieldRoom, entryRoom, hdEntryOverhead]
      omega

/-- A table with room for nothing is empty. -/
theorem keep_of_light {most room : Nat} {table : List HdNv}
    (light : weight fieldRoom table + room ≤ most) : keep most room table = table := by
  rw [keep, if_pos (by omega), fit_of_le (by omega)]

/-- Dropping the last field of a table that is too large. -/
theorem keep_dropLast {most room : Nat} {table : List HdNv}
    (heavy : most < weight fieldRoom table + room) :
    keep most room table.dropLast = keep most room table := by
  unfold keep
  split
  · rw [fit_dropLast (by omega)]
  · rfl

/-- An index of a field is not larger than the tables are. -/
theorem lt_of_getField {table : List HdNv} {idx : Nat} {field : HdNv}
    (found : getField table idx = some field) : idx < table.length + staticTableLength := by
  by_cases static : idx < staticTableLength
  · exact Nat.lt_add_left _ static
  · rw [getField, if_pos (not_lt.mp static)] at found
    have inside := (List.getElem?_eq_some_iff.mp found).1
    omega

theorem Tokened.of_subset {table table' : List HdNv} (tokened : Tokened table)
    (subset : table' ⊆ table) : Tokened table' :=
  fun nv member => tokened nv (subset member)

theorem Tokened.keep {table : List HdNv} (tokened : Tokened table) (most room : Nat) :
    Tokened (keep most room table) :=
  tokened.of_subset (keep_isPrefix most room table).subset

theorem Tokened.addField {table : List HdNv} (tokened : Tokened table) (most : Nat) {nv : HdNv}
    (token : nv.token = lookupToken nv.name) (flags : nv.flags = nvFlagNone) :
    Tokened (addField most nv table) := by
  intro nv' member
  unfold Hpack.addField at member
  split at member
  · rcases List.mem_cons.mp member with rfl | old
    · exact ⟨token, flags⟩
    · exact tokened.keep _ _ nv' old
  · cases member

/-! ### Names and tokens

A name of the static table has a token and a token has one name, so that searching by token is
searching by name. -/

/-- The name of a branch of `lookup_token`. -/
def TokenCase.name (c : TokenCase) : Bytes :=
  ascii c.front ++ [UInt8.ofNat c.last.toNat]

/-- A name takes the branch of the same name. -/
theorem TokenCase.takes_name {c : TokenCase} {name : Bytes} (takes : c.takes name = true) :
    name = c.name := by
  simp only [TokenCase.takes, Bool.and_eq_true, decide_eq_true_eq] at takes
  obtain ⟨⟨-, last⟩, front⟩ := takes
  rw [TokenCase.name, ← front]
  exact (List.dropLast_append_getLast? _ last).symm

theorem tokenCases_distinct : (tokenCases.map TokenCase.token).Nodup := by decide +kernel

theorem lookupToken_case {name : Bytes} (known : lookupToken name ≠ -1) :
    ∃ c ∈ tokenCases, lookupToken name = c.token ∧ name = c.name := by
  unfold lookupToken at known ⊢
  split at known
  · rename_i c found
    have takes : c.takes name = true := List.find?_some (p := fun c => TokenCase.takes c name) found
    exact ⟨c, List.mem_of_find?_eq_some found, rfl, TokenCase.takes_name takes⟩
  · exact absurd rfl known

/-- A token that is not -1 is the token of one name. -/
theorem lookupToken_injective {name name' : Bytes} (known : lookupToken name ≠ -1)
    (same : lookupToken name = lookupToken name') : name = name' := by
  obtain ⟨c, member, token, rfl⟩ := lookupToken_case known
  obtain ⟨c', member', token', rfl⟩ := lookupToken_case (same ▸ known)
  have equal : c.token = c'.token := token.symm.trans (same.trans token')
  rw [List.inj_on_of_nodup_map tokenCases_distinct member member' equal]

/-- The tokens of the static table are those of its names. -/
theorem staticTable_tokens :
    staticTable.all (fun ent => decide (ent.token = lookupToken ent.name)) = true := by
  decide +kernel

/-- A name whose token is that of a static entry stands there. -/
theorem staticTable_names : tokenCases.all (fun c =>
    decide (tokenWwwAuthenticate < c.token) ||
      decide ((staticTable[c.token.toNat]?.map fun ent => ent.name) = some c.name)) = true := by
  decide +kernel

end Hfc.Hpack
