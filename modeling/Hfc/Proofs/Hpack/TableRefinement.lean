/-
Module: Hfc.Proofs.Hpack.TableRefinement
Layer: Proofs
Purpose: The ring buffer of a context holds a table: eviction keeps the front that fits, an
  insertion adds the field, the sum of the sizes is right, and the addresses of the entries count
  down from the newest one. The map of the deflater has in each bucket the entries of that bucket,
  newest first.
Imports: Hfc.Spec.Hpack.DynamicTable
Main exports: TableHolds, MapHolds, TableHolds.evictLoop, TableHolds.shrink, TableHolds.add,
  hdTableGet_eq
-/
import Hfc.Spec.Hpack.DynamicTable

namespace Hfc.Hpack

open ByteText BoundedFront

/-- A context holds a table. -/
structure TableHolds (context : HdContext) (table : List HdNv) : Prop where
  nvs : context.hdTable.toList.map HdEntry.nv = table
  size : context.hdTableBufsize = weight fieldRoom table
  refs : ∀ i ent, context.hdTable.toList[i]? = some ent → ent.ref + 1 + i = context.nextRef
  seqs : ∀ ent ∈ context.hdTable.toList, ent.seq = ent.ref % 2 ^ 32
  next : context.nextSeq = context.nextRef % 2 ^ 32

/-- A map has in each bucket the entries of that bucket. -/
def MapHolds (map : Option HdMap) (entries : List HdEntry) : Prop :=
  ∀ m, map = some m → ∀ bucket,
    m.table bucket = entries.filter fun ent => hdMapBucket ent.hash = bucket

theorem TableHolds.init : TableHolds hdContextInit [] where
  nvs := by rw [hdContextInit, RingBuffer.toList_init, List.map_nil]
  size := rfl
  refs i ent found := by
    rw [hdContextInit, RingBuffer.toList_init] at found
    cases found
  seqs ent member := by
    rw [hdContextInit, RingBuffer.toList_init] at member
    cases member
  next := rfl

theorem TableHolds.len {context : HdContext} {table : List HdNv} (holds : TableHolds context table) :
    context.hdTable.len = table.length := by
  rw [← context.hdTable.length_toList, ← holds.nvs, List.length_map]

/-- Looking a field up is looking it up in the tables. -/
theorem hdTableGet_eq {context : HdContext} {table : List HdNv} (holds : TableHolds context table)
    (idx : Nat) : hdTableGet context idx = getField table idx := by
  rw [hdTableGet, getField, RingBuffer.get_eq, ← holds.nvs, List.getElem?_map]

/-- No other entry has the address of an entry. -/
theorem TableHolds.refs_injective {context : HdContext} {table : List HdNv}
    (holds : TableHolds context table) {i j : Nat} {ent ent' : HdEntry}
    (here : context.hdTable.toList[i]? = some ent) (there : context.hdTable.toList[j]? = some ent')
    (same : ent.ref = ent'.ref) : i = j := by
  have first := holds.refs i ent here
  have second := holds.refs j ent' there
  omega

/-- The last element of a list that satisfies a condition, and nothing in front of it does. -/
theorem filter_dropLast_eq_eraseP {α : Type*} {l : List α} {a : α} (last : l.getLast? = some a)
    (p q : α → Bool) (at_ : q a = true) (apart : ∀ b ∈ l.dropLast, q b = false) (kept : p a = true) :
    l.dropLast.filter p = (l.filter p).eraseP q := by
  have split := List.dropLast_append_getLast? a last
  conv_rhs => rw [← split]
  rw [List.filter_append, List.filter_singleton, kept]
  rw [List.eraseP_append_right]
  · simp [at_]
  · intro b member
    simpa using apart b (List.mem_of_mem_filter member)

theorem getElem?_of_front {α : Type*} {front l : List α} (isFront : front <+: l) {i : Nat} {a : α}
    (found : front[i]? = some a) : l[i]? = some a := by
  obtain ⟨back, rfl⟩ := isFront
  rw [List.getElem?_append_left (List.getElem?_eq_some_iff.mp found).1, found]

/-- What eviction leaves as it is. -/
structure SameCounters (context context' : HdContext) : Prop where
  most : context'.hdTableBufsizeMax = context.hdTableBufsizeMax
  bad : context'.bad = context.bad
  seq : context'.nextSeq = context.nextSeq
  ref : context'.nextRef = context.nextRef

theorem SameCounters.refl (context : HdContext) : SameCounters context context :=
  ⟨rfl, rfl, rfl, rfl⟩

theorem SameCounters.trans {context context' context'' : HdContext}
    (first : SameCounters context context') (second : SameCounters context' context'') :
    SameCounters context context'' :=
  ⟨second.most.trans first.most, second.bad.trans first.bad, second.seq.trans first.seq,
    second.ref.trans first.ref⟩

theorem SameCounters.evictLoop (rounds room : Nat) (context : HdContext) (map : Option HdMap) :
    SameCounters context (evictLoop rounds room context map).1 := by
  induction rounds generalizing context map with
  | zero => exact .refl _
  | succ rounds ih =>
      rw [Hpack.evictLoop]
      split
      · refine SameCounters.trans ?_ (ih _ _)
        rw [Hpack.evictLast]
        split
        · exact .refl _
        · exact ⟨rfl, rfl, rfl, rfl⟩
      · exact .refl _

/-- A map that is there stays there. -/
theorem evictLoop_map (rounds room : Nat) (context : HdContext) (map : HdMap) :
    ∃ map', (evictLoop rounds room context (some map)).2 = some map' := by
  induction rounds generalizing context map with
  | zero => exact ⟨map, rfl⟩
  | succ rounds ih =>
      rw [Hpack.evictLoop]
      split
      · have evicted : ∃ map', (Hpack.evictLast context (some map)).2 = some map' := by
          rw [Hpack.evictLast]
          split
          · exact ⟨map, rfl⟩
          · exact ⟨_, rfl⟩
        obtain ⟨map', same⟩ := evicted
        dsimp only
        rw [same]
        exact ih _ map'
      · exact ⟨map, rfl⟩

theorem addHdTableIncremental_map (context : HdContext) (nv : HdNv) (map : HdMap) (hash : Nat) :
    ∃ map', (addHdTableIncremental context nv (some map) hash).2 = some map' := by
  obtain ⟨map', same⟩ := evictLoop_map context.hdTable.len
    (entryRoom nv.name.length nv.value.length) context map
  rw [addHdTableIncremental]
  dsimp only
  rw [same]
  split
  · exact ⟨map', rfl⟩
  · exact ⟨_, rfl⟩

/-- Adding a field leaves the flag of a failure as it is. -/
theorem addHdTableIncremental_bad (context : HdContext) (nv : HdNv) (map : Option HdMap)
    (hash : Nat) : (addHdTableIncremental context nv map hash).1.bad = context.bad := by
  rw [addHdTableIncremental]
  dsimp only
  split <;> exact (SameCounters.evictLoop _ _ context map).bad

/-- A context and its map, after eviction: the table that is left, and that its entries are a front
of those there were. -/
structure Evicted (context : HdContext) (table : List HdNv) (after : HdContext × Option HdMap) :
    Prop where
  holds : TableHolds after.1 table
  inMap : MapHolds after.2 after.1.hdTable.toList
  front : after.1.hdTable.toList <+: context.hdTable.toList
  same : SameCounters context after.1

/-- Evicting the last entry. -/
theorem TableHolds.evictLast {context : HdContext} {table : List HdNv}
    (holds : TableHolds context table) {map : Option HdMap}
    (inMap : MapHolds map context.hdTable.toList) (nonempty : table ≠ []) :
    Evicted context table.dropLast (evictLast context map) := by
  -- The entry the code takes out is the last of the list.
  have positive : 0 < context.hdTable.len := by
    rw [holds.len]
    exact List.length_pos_iff.mpr nonempty
  obtain ⟨ent, last⟩ : ∃ ent, context.hdTable.toList[context.hdTable.len - 1]? = some ent :=
    ⟨_, List.getElem?_eq_getElem (by rw [RingBuffer.length_toList]; omega)⟩
  have last' : context.hdTable.toList.getLast? = some ent := by
    rw [List.getLast?_eq_getElem?, RingBuffer.length_toList, last]
  have split := List.dropLast_append_getLast? ent last'
  have split' : table.dropLast ++ [ent.nv] = table := by
    rw [← holds.nvs, ← List.map_dropLast]
    conv_rhs => rw [← split]
    rw [List.map_append]
    rfl
  -- So it takes out just this entry, and counts its room back.
  have after : Hpack.evictLast context map =
      ({ context with
          hdTable := context.hdTable.popBack
          hdTableBufsize := context.hdTableBufsize - fieldRoom ent.nv },
        map.map fun map => hdMapRemove map ent) := by
    rw [Hpack.evictLast]
    split
    · rename_i missing
      rw [RingBuffer.get_eq, last] at missing
      cases missing
    · rename_i ent' found
      rw [RingBuffer.get_eq, last] at found
      cases found
      rfl
  have front : context.hdTable.popBack.toList <+: context.hdTable.toList := by
    rw [RingBuffer.toList_popBack]
    exact List.dropLast_prefix _
  rw [after]
  refine ⟨⟨?_, ?_, ?_, ?_, holds.next⟩, ?_, front, ⟨rfl, rfl, rfl, rfl⟩⟩
  · show context.hdTable.popBack.toList.map HdEntry.nv = _
    rw [RingBuffer.toList_popBack, List.map_dropLast, holds.nvs]
  · show context.hdTableBufsize - fieldRoom ent.nv = _
    have total := congrArg (weight fieldRoom) split'
    rw [weight_append, weight_cons, weight_nil] at total
    rw [holds.size]
    omega
  · intro i ent' found
    exact holds.refs i ent' (getElem?_of_front front found)
  · exact fun ent' member => holds.seqs ent' (front.subset member)
  -- In the map only the bucket of this entry changes. Entries have distinct references, so no other
  -- one there is taken for it.
  · rintro m same bucket
    obtain ⟨m', isMap, rfl⟩ := Option.map_eq_some_iff.mp same
    have there := inMap m' isMap bucket
    show (if bucket = hdMapBucket ent.hash then _ else _) = _
    rw [there, show ({ context with
      hdTable := context.hdTable.popBack,
      hdTableBufsize := _ } : HdContext).hdTable = context.hdTable.popBack from rfl,
      RingBuffer.toList_popBack]
    split
    · rename_i same
      refine (filter_dropLast_eq_eraseP last' _ _ (decide_eq_true rfl) ?_
        (decide_eq_true same.symm)).symm
      intro ent' member
      obtain ⟨i, found⟩ := List.mem_iff_getElem?.mp member
      have inside := (List.getElem?_eq_some_iff.mp found).1
      rw [List.length_dropLast, RingBuffer.length_toList] at inside
      refine decide_eq_false fun equal => ?_
      have index := holds.refs_injective (getElem?_of_front (List.dropLast_prefix _) found) last equal
      omega
    · rename_i other
      conv_lhs => rw [← split]
      rw [List.filter_append, List.filter_singleton, decide_eq_false (Ne.symm other), cond_false,
        List.append_nil]

/-- The loop leaves what fits beside the room it is to make. -/
theorem TableHolds.evictLoop {rounds : Nat} {context : HdContext} {table : List HdNv}
    (holds : TableHolds context table) {map : Option HdMap}
    (inMap : MapHolds map context.hdTable.toList) (enough : table.length ≤ rounds) (room : Nat) :
    Evicted context (keep context.hdTableBufsizeMax room table)
      (evictLoop rounds room context map) := by
  have done {context : HdContext} {table : List HdNv} {map : Option HdMap}
      (holds : TableHolds context table) (inMap : MapHolds map context.hdTable.toList)
      (fits : table = [] ∨ weight fieldRoom table + room ≤ context.hdTableBufsizeMax) :
      Evicted context (keep context.hdTableBufsizeMax room table) (context, map) := by
    have whole : keep context.hdTableBufsizeMax room table = table := by
      rcases fits with rfl | light
      · exact List.prefix_nil.mp (keep_isPrefix _ _ _)
      · exact keep_of_light light
    rw [whole]
    exact ⟨holds, inMap, List.prefix_refl _, .refl _⟩
  induction rounds generalizing context table map with
  | zero => exact done holds inMap (.inl (List.eq_nil_of_length_eq_zero (by omega)))
  | succ rounds ih =>
      rw [Hpack.evictLoop]
      split
      · rename_i heavy
        simp only [gt_iff_lt, Bool.and_eq_true, decide_eq_true_eq] at heavy
        obtain ⟨heavy, filled⟩ := heavy
        rw [holds.len] at filled
        rw [holds.size] at heavy
        have evicted := holds.evictLast inMap (List.length_pos_iff.mp filled)
        have later := ih evicted.holds evicted.inMap (by rw [List.length_dropLast]; omega)
        rw [evicted.same.most, keep_dropLast heavy] at later
        exact ⟨later.holds, later.inMap, later.front.trans evicted.front,
          evicted.same.trans later.same⟩
      · rename_i light
        simp only [gt_iff_lt, Bool.and_eq_true, decide_eq_true_eq, not_and_or, not_lt, holds.size,
          holds.len] at light
        rcases light with light | empty
        · exact done holds inMap (.inr light)
        · exact done holds inMap (.inl (List.eq_nil_of_length_eq_zero (by omega)))

/-- Shrinking leaves the front that fits. -/
theorem TableHolds.shrink {context : HdContext} {table : List HdNv}
    (holds : TableHolds context table) {map : Option HdMap}
    (inMap : MapHolds map context.hdTable.toList) :
    Evicted context (fit fieldRoom context.hdTableBufsizeMax table)
      (hdContextShrinkTableSize context map) := by
  have evicted := holds.evictLoop inMap (Nat.le_of_eq holds.len.symm) 0
  rwa [keep_zero] at evicted

/-- The entry that is put in for a field. -/
def newEntry (context : HdContext) (nv : HdNv) (hash : Nat) : HdEntry where
  nv := nv
  seq := context.nextSeq
  hash := hash
  ref := context.nextRef

/-- The context with that entry. -/
def pushEntry (context : HdContext) (nv : HdNv) (hash : Nat) : HdContext :=
  { context with
    hdTable := context.hdTable.pushFront (newEntry context nv hash)
    hdTableBufsize := context.hdTableBufsize + fieldRoom nv
    nextSeq := (context.nextSeq + 1) % 2 ^ 32
    nextRef := context.nextRef + 1 }

theorem addHdTableIncremental_eq (context : HdContext) (nv : HdNv) (map : Option HdMap)
    (hash : Nat) :
    addHdTableIncremental context nv map hash =
      let after := evictLoop context.hdTable.len (fieldRoom nv) context map
      if fieldRoom nv > after.1.hdTableBufsizeMax then after
      else
        (pushEntry after.1 nv hash, after.2.map fun m => hdMapInsert m (newEntry after.1 nv hash)) :=
  rfl

theorem toList_pushEntry (context : HdContext) (nv : HdNv) (hash : Nat) :
    (pushEntry context nv hash).hdTable.toList =
      newEntry context nv hash :: context.hdTable.toList :=
  RingBuffer.toList_pushFront _ _

/-- Putting an entry in front. -/
theorem TableHolds.push {context : HdContext} {table : List HdNv}
    (holds : TableHolds context table) (nv : HdNv) (hash : Nat) :
    TableHolds (pushEntry context nv hash) (nv :: table) := by
  refine ⟨?_, ?_, ?_, ?_, ?_⟩
  · rw [toList_pushEntry, List.map_cons, holds.nvs]
    rfl
  · show context.hdTableBufsize + fieldRoom nv = _
    rw [holds.size, weight_cons, Nat.add_comm]
  · intro i ent found
    show _ = context.nextRef + 1
    rw [toList_pushEntry] at found
    cases i with
    | zero =>
        cases found
        rfl
    | succ i =>
        have old := holds.refs i ent found
        omega
  · intro ent member
    rw [toList_pushEntry] at member
    rcases List.mem_cons.mp member with rfl | old
    · exact holds.next
    · exact holds.seqs ent old
  · show (context.nextSeq + 1) % 2 ^ 32 = (context.nextRef + 1) % 2 ^ 32
    rw [holds.next, Nat.mod_add_mod]

/-- The new entry is at the root of its bucket. -/
theorem MapHolds.insert {map : Option HdMap} {entries : List HdEntry} (inMap : MapHolds map entries)
    (ent : HdEntry) : MapHolds (map.map fun m => hdMapInsert m ent) (ent :: entries) := by
  rintro m same bucket
  obtain ⟨m', isMap, rfl⟩ := Option.map_eq_some_iff.mp same
  show (if bucket = hdMapBucket ent.hash then ent :: m'.table bucket else m'.table bucket) = _
  rw [inMap m' isMap bucket, List.filter_cons]
  by_cases here : bucket = hdMapBucket ent.hash
  · rw [if_pos here, if_pos (decide_eq_true here.symm)]
  · rw [if_neg here, if_neg (by simpa using Ne.symm here)]

/-- A context and its map, with a field more. -/
structure Added (context : HdContext) (nv : HdNv) (hash : Nat) (table : List HdNv)
    (after : HdContext × Option HdMap) : Prop where
  holds : TableHolds after.1 table
  inMap : MapHolds after.2 after.1.hdTable.toList
  entries : ∀ ent ∈ after.1.hdTable.toList,
    ent ∈ context.hdTable.toList ∨ ent.nv = nv ∧ ent.hash = hash
  most : after.1.hdTableBufsizeMax = context.hdTableBufsizeMax
  bad : after.1.bad = context.bad

/-- Adding a field adds it to the table. -/
theorem TableHolds.add {context : HdContext} {table : List HdNv}
    (holds : TableHolds context table) {map : Option HdMap}
    (inMap : MapHolds map context.hdTable.toList) (nv : HdNv) (hash : Nat) :
    Added context nv hash (addField context.hdTableBufsizeMax nv table)
      (addHdTableIncremental context nv map hash) := by
  have evicted := holds.evictLoop inMap (Nat.le_of_eq holds.len.symm) (fieldRoom nv)
  rw [addHdTableIncremental_eq]
  generalize Hpack.evictLoop context.hdTable.len (fieldRoom nv) context map = after at evicted ⊢
  dsimp only
  rw [evicted.same.most, addField]
  by_cases fits : fieldRoom nv ≤ context.hdTableBufsizeMax
  · rw [if_pos fits, if_neg (not_lt.mpr fits)]
    refine ⟨evicted.holds.push nv hash, ?_, fun ent member => ?_, evicted.same.most,
      evicted.same.bad⟩
    · rw [toList_pushEntry]
      exact evicted.inMap.insert _
    · rw [toList_pushEntry] at member
      rcases List.mem_cons.mp member with rfl | old
      · exact .inr ⟨rfl, rfl⟩
      · exact .inl (evicted.front.subset old)
  · rw [if_neg fits, if_pos (not_le.mp fits)]
    have nothingKept : keep context.hdTableBufsizeMax (fieldRoom nv) table = [] := if_neg fits
    rw [nothingKept] at evicted
    exact ⟨evicted.holds, evicted.inMap, fun ent member => .inl (evicted.front.subset member),
      evicted.same.most, evicted.same.bad⟩

end Hfc.Hpack
