/-
Module: Hfc.Spec.Hpack.Representation
Layer: Spec
Purpose: What a header block is made of: its representations, the bytes of each, and what each means
  for a table.
Imports: Hfc.Spec.Hpack.DynamicTable, Hfc.Spec.Hpack.HuffmanText, Hfc.Core.Hpack.Inflate
Main exports: stringBytes, Representation, Representation.bytes, FieldTable, Representation.apply,
  applyAll, blockBytes, Representation.Readable, apply_light, sentField, Sendable
-/
import Hfc.Spec.Hpack.DynamicTable
import Hfc.Spec.Hpack.HuffmanText
import Hfc.Core.Hpack.Inflate

namespace Hfc.Hpack

open ByteText BoundedFront

/-- A representation: a table size, a field of a table, a field with the name of one, and a new one.
-/
inductive Representation where
  | tableSize (size : Nat)
  | indexed (idx : Nat)
  | indname (mode : IndexingMode) (idx : Nat) (value : Bytes)
  | newname (mode : IndexingMode) (name value : Bytes)
deriving DecidableEq, Repr

/-! ### Bytes

The bytes of a representation, and of a block as their concatenation. -/

/-- The bytes of a string: the shorter one of its Huffman text and itself, behind its length. -/
def stringBytes (str : Bytes) : Bytes :=
  if (huffText str).length < str.length then
    encodeLength 0x80 (huffText str).length 7 ++ huffText str
  else encodeLength 0 str.length 7 ++ str

/-- The length that stands in front of a string. -/
def stringLength (str : Bytes) : Nat :=
  min (huffText str).length str.length

/-- The bits of an index behind the first bits of a field. -/
def indexBits (mode : IndexingMode) : Nat :=
  if mode = .withIndexing then 6 else 4

def Representation.bytes : Representation → Bytes
  | .tableSize size => encodeLength 0x20 size 5
  | .indexed idx => encodeLength 0x80 (idx + 1) 7
  | .indname mode idx value =>
      encodeLength (packFirstByte mode) (idx + 1) (indexBits mode) ++ stringBytes value
  | .newname mode name value => packFirstByte mode :: (stringBytes name ++ stringBytes value)

/-- The bytes of a block: those of its representations, one after the other. -/
def blockBytes (reps : List Representation) : Bytes :=
  reps.flatMap Representation.bytes

@[simp] theorem blockBytes_nil : blockBytes [] = [] := rfl

theorem blockBytes_cons (rep : Representation) (reps : List Representation) :
    blockBytes (rep :: reps) = rep.bytes ++ blockBytes reps := rfl

/-! ### Meaning

What a representation does to a table and which field it stands for, for a sender and a receiver
alike. -/

/-- A table, and the room it may take, as both ends are meant to have them. -/
structure FieldTable where
  most : Nat
  fields : List HdNv

/-- The flags of a field that came in a mode. -/
def IndexingMode.flags (mode : IndexingMode) : Nat :=
  if mode = .neverIndexing then nvFlagNoIndex else nvFlagNone

/-- A table behind a field that came in a mode. -/
def FieldTable.index (table : FieldTable) (mode : IndexingMode) (field : HdNv) : FieldTable :=
  if mode = .withIndexing then { table with fields := addField table.most field table.fields }
  else table

/-- What a representation does to a table, and the field it stands for. -/
def Representation.apply (table : FieldTable) : Representation → Option (FieldTable × Option HdNv)
  | .tableSize size => some ({ most := size, fields := fit fieldRoom size table.fields }, none)
  | .indexed idx => (getField table.fields idx).map fun field => (table, some field)
  | .indname mode idx value =>
      (getField table.fields idx).map fun found =>
        let field := { found with value := value, flags := mode.flags }
        (table.index mode field, some field)
  | .newname mode name value =>
      let field :=
        { name := name, value := value, token := lookupToken name, flags := mode.flags }
      some (table.index mode field, some field)

/-- What a block does to a table, and its fields. -/
def applyAll (table : FieldTable) : List Representation → Option (FieldTable × List HdNv)
  | [] => some (table, [])
  | rep :: reps => do
      let (table, field) ← rep.apply table
      let (table, fields) ← applyAll table reps
      some (table, field.toList ++ fields)

/-! ### The fields of a request or a response

The field as it is sent, with the flag that keeps it out of tables, and the limits inside which it
can be read. -/

/-- Whether a field is never to be indexed: its flag says so, or it is a credential. -/
def neverIndexed (nv : Nv) : Bool :=
  lookupToken nv.name = tokenAuthorization ||
    (lookupToken nv.name = tokenCookie && nv.value.length < 20) ||
    nv.flags &&& nvFlagNoIndex ≠ 0

/-- The field that the other side is to get: the one that was sent with the token of its name, and
with the flag that it is never to be indexed where that holds. -/
def sentField (nv : Nv) : HdNv where
  name := nv.name
  value := nv.value
  token := lookupToken nv.name
  flags := if neverIndexed nv then nvFlagNoIndex else nvFlagNone

/-- A representation that stands for a field. -/
def Representation.IsField : Representation → Prop
  | .tableSize _ => False
  | _ => True

/-- A field whose strings the inflater takes. -/
def Representation.Readable : Representation → Prop
  | .tableSize _ => False
  | .indexed _ => True
  | .indname _ _ value => stringLength value ≤ hdMaxNv
  | .newname _ name value => stringLength name ≤ hdMaxNv ∧ stringLength value ≤ hdMaxNv

theorem Representation.Readable.isField {rep : Representation} (readable : rep.Readable) :
    rep.IsField := by
  cases rep with
  | tableSize size => exact readable
  | indexed idx => trivial
  | indname mode idx value => trivial
  | newname mode name value => trivial

theorem isField_of_apply {table table' : FieldTable} {rep : Representation}
    {field : HdNv} (means : rep.apply table = some (table', some field)) : rep.IsField := by
  cases rep with
  | tableSize size => cases means
  | indexed idx => trivial
  | indname mode idx value => trivial
  | newname mode name value => trivial

theorem Representation.IsField.field {table table' : FieldTable} {rep : Representation}
    (isField : rep.IsField) {field : Option HdNv} (means : rep.apply table = some (table', field)) :
    ∃ nv, field = some nv := by
  cases rep with
  | tableSize size => exact isField.elim
  | indexed idx =>
      obtain ⟨nv, -, same⟩ := Option.map_eq_some_iff.mp means
      cases same
      exact ⟨nv, rfl⟩
  | indname mode idx value =>
      obtain ⟨found, -, same⟩ := Option.map_eq_some_iff.mp means
      cases same
      exact ⟨_, rfl⟩
  | newname mode name value =>
      cases means
      exact ⟨_, rfl⟩

/-- A field keeps a table within its room. -/
theorem apply_light {table table' : FieldTable} {rep : Representation} (isField : rep.IsField)
    {field : Option HdNv} (means : rep.apply table = some (table', field))
    (light : weight fieldRoom table.fields ≤ table.most) :
    weight fieldRoom table'.fields ≤ table'.most ∧ table'.most = table.most := by
  have index (mode : IndexingMode) (nv : HdNv) :
      weight fieldRoom (table.index mode nv).fields ≤ (table.index mode nv).most ∧
        (table.index mode nv).most = table.most := by
    rw [FieldTable.index]
    split
    · exact ⟨weight_addField_le _ _ _, rfl⟩
    · exact ⟨light, rfl⟩
  cases rep with
  | tableSize size => exact isField.elim
  | indexed idx =>
      obtain ⟨nv, -, same⟩ := Option.map_eq_some_iff.mp means
      cases same
      exact ⟨light, rfl⟩
  | indname mode idx value =>
      obtain ⟨found, -, same⟩ := Option.map_eq_some_iff.mp means
      cases same
      exact index mode _
  | newname mode name value =>
      cases means
      exact index mode _

/-- A header field whose strings the inflater takes. -/
structure Sendable (nv : Nv) : Prop where
  name : stringLength nv.name ≤ hdMaxNv
  value : stringLength nv.value ≤ hdMaxNv

end Hfc.Hpack
