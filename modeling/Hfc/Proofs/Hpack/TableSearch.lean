/-
Module: Hfc.Proofs.Hpack.TableSearch
Layer: Proofs
Purpose: The search over both tables. The index it returns is that of a field with the name that is
  looked for, and of one with the value too when it says so; it finds one wherever there is one,
  although it looks into one bucket only and works with sequence numbers of 32 bits.
Imports: Hfc.Proofs.Hpack.TableRefinement, Hfc.Core.Hpack.Deflate
Main exports: Hashed, DeflaterHolds, hdMapFind_spec, searchStaticTable_spec, searchHdTable_spec
-/
import Hfc.Proofs.Hpack.TableRefinement
import Hfc.Core.Hpack.Deflate

namespace Hfc.Hpack

open ByteText BoundedFront

/-- An entry has the hash of its name. -/
def Hashed (ent : HdEntry) : Prop :=
  ∀ nv : Nv, nv.name = ent.nv.name → ent.hash = hashOfToken nv (lookupToken nv.name)

/-- A deflater holds a table. -/
structure DeflaterHolds (deflater : HdDeflater) (table : List HdNv) : Prop where
  holds : TableHolds deflater.ctx table
  inMap : MapHolds (some deflater.map) deflater.ctx.hdTable.toList
  tokened : Tokened table
  hashed : ∀ ent ∈ deflater.ctx.hdTable.toList, Hashed ent

/-! ### A bucket

The search in one list of the map: which entry it returns, and what it says of the entries it
passed. -/

/-- The entries that are not passed over are those with the name. -/
theorem hdMapSkips_iff {nv : Nv} {ent : HdEntry} (token : ent.nv.token = lookupToken ent.nv.name)
    (hashed : Hashed ent) :
    hdMapSkips nv (lookupToken nv.name) (hashOfToken nv (lookupToken nv.name)) ent = false ↔
      ent.nv.name = nv.name := by
  have same (names : ent.nv.name = nv.name) : ent.hash = hashOfToken nv (lookupToken nv.name) :=
    hashed nv names.symm
  simp only [hdMapSkips, nameEq, token, Bool.or_eq_false_iff, Bool.and_eq_false_imp,
    decide_eq_false_iff_not, decide_eq_true_eq, ne_eq, not_not,
    Bool.not_eq_eq_eq_not, Bool.not_false]
  constructor
  · rintro ⟨tokens, names⟩
    by_cases unknown : lookupToken nv.name = -1
    · exact (names unknown).2
    · exact (lookupToken_injective unknown tokens).symm
  · intro names
    exact ⟨by rw [names], fun _ => ⟨(same names).symm, names⟩⟩

/-- What the loop over a bucket finds: `res` is what it has found before. -/
structure FoundIn (nv : Nv) (skips : HdEntry → Bool) (nameOnly : Bool) (res : Option HdEntry)
    (entries : List HdEntry) (found : Option HdEntry × Bool) : Prop where
  name : ∀ ent, found.1 = some ent → res = some ent ∨ ent ∈ entries ∧ skips ent = false
  value : found.2 = true → ∃ ent ∈ entries, found.1 = some ent ∧ skips ent = false ∧
    ent.nv.value = nv.value ∧ (nameOnly = true → res ≠ none)
  noName : found.1 = none → res = none ∧ ∀ ent ∈ entries, skips ent = true
  noValue : found.2 = false → nameOnly = false →
    ∀ ent ∈ entries, skips ent = false → ent.nv.value ≠ nv.value

theorem hdMapFindLoop_spec (nv : Nv) (token : Int) (hash : Nat) (nameOnly : Bool)
    (res : Option HdEntry) (entries : List HdEntry) :
    FoundIn nv (hdMapSkips nv token hash) nameOnly res entries
      (hdMapFindLoop nv token hash nameOnly res entries) := by
  induction entries generalizing res with
  | nil =>
      exact ⟨fun ent found => .inl found, fun found => (by cases found),
        fun missed => ⟨missed, fun _ member => (by cases member)⟩,
        fun _ _ _ member => (by cases member)⟩
  | cons p entries ih =>
      rw [hdMapFindLoop]
      cases skip : hdMapSkips nv token hash p with
      -- The entry is of another name: what is found is found in the rest.
      | true =>
          rw [if_pos rfl]
          obtain ⟨name, value, noName, noValue⟩ := ih res
          refine ⟨fun ent found => ?_, fun isExact => ?_, fun missed => ?_,
            fun missed all ent member => ?_⟩
          · exact (name ent found).imp_right fun later => ⟨List.mem_cons_of_mem _ later.1, later.2⟩
          · obtain ⟨ent, member, rest⟩ := value isExact
            exact ⟨ent, List.mem_cons_of_mem _ member, rest⟩
          · exact ⟨(noName missed).1, List.forall_mem_cons.mpr ⟨skip, (noName missed).2⟩⟩
          · rcases List.mem_cons.mp member with rfl | later
            · exact fun wanted => (by cases skip.symm.trans wanted)
            · exact noValue missed all ent later
      | false =>
          rw [if_neg Bool.false_ne_true]
          have here : p ∈ p :: entries := List.mem_cons_self
          have first {ent : HdEntry} (found : some (res.getD p) = some ent) :
              res = some ent ∨ ent ∈ p :: entries ∧ hdMapSkips nv token hash ent = false := by
            cases res with
            | none =>
                cases found
                exact .inr ⟨here, skip⟩
            | some old => exact .inl found
          dsimp only
          by_cases stop : (decide (res = none) && nameOnly) = true
          · rw [if_pos stop]
            obtain ⟨missed, only⟩ := Bool.and_eq_true_iff.mp stop
            refine ⟨fun ent found => first found, fun isExact => (by cases isExact),
              fun missed => (by cases missed), fun _ all => (by cases all.symm.trans only)⟩
          · rw [if_neg stop]
            have goes (only : nameOnly = true) : res ≠ none := fun missed =>
              stop (by rw [missed, only]; rfl)
            by_cases same : valueEq p.nv nv = true
            · rw [if_pos same]
              refine ⟨fun ent found => ?_, fun _ => ⟨p, here, rfl, skip, of_decide_eq_true same, goes⟩,
                fun missed => (by cases missed), fun missed => (by cases missed)⟩
              cases found
              exact .inr ⟨here, skip⟩
            · rw [if_neg same]
              obtain ⟨name, value, noName, noValue⟩ := ih (some (res.getD p))
              refine ⟨fun ent found => ?_, fun isExact => ?_,
                fun missed => (by cases (noName missed).1),
                fun missed all ent member => ?_⟩
              · rcases name ent found with old | later
                · exact first old
                · exact .inr ⟨List.mem_cons_of_mem _ later.1, later.2⟩
              · obtain ⟨ent, member, is, wanted, equal, -⟩ := value isExact
                exact ⟨ent, List.mem_cons_of_mem _ member, is, wanted, equal, goes⟩
              · rcases List.mem_cons.mp member with rfl | later
                · exact fun _ equal => same (decide_eq_true equal)
                · exact noValue missed all ent later

/-- The entries of a bucket with the name are those of the table with the name. -/
theorem DeflaterHolds.mem_bucket {deflater : HdDeflater} {table : List HdNv}
    (holds : DeflaterHolds deflater table) (nv : Nv) (ent : HdEntry) :
    ent ∈ deflater.map.table (hdMapBucket (hashOfToken nv (lookupToken nv.name))) ∧
        hdMapSkips nv (lookupToken nv.name) (hashOfToken nv (lookupToken nv.name)) ent = false ↔
      ent ∈ deflater.ctx.hdTable.toList ∧ ent.nv.name = nv.name := by
  rw [holds.inMap deflater.map rfl, List.mem_filter, decide_eq_true_eq, and_assoc]
  refine and_congr_right fun member => ?_
  have inTable : ent.nv ∈ table := by
    rw [← holds.holds.nvs]
    exact List.mem_map_of_mem member
  have hashed := holds.hashed ent member
  rw [hdMapSkips_iff (holds.tokened _ inTable).1 hashed]
  refine ⟨fun both => both.2, fun names => ⟨?_, names⟩⟩
  rw [hashed nv names.symm]

/-! ### The static table

The entries of one name stand together there, from the token of the name on. -/

theorem staticTable_token {j : Nat} {ent : StaticEntry} (found : staticTable[j]? = some ent) :
    ent.token = lookupToken ent.name := by
  have all := List.all_eq_true.mp staticTable_tokens ent (List.mem_of_getElem? found)
  exact of_decide_eq_true all

/-- The static table has a name at its token. -/
theorem staticTable_of_token {name : Bytes} (least : 0 ≤ lookupToken name)
    (most : lookupToken name ≤ tokenWwwAuthenticate) :
    ∃ ent, staticTable[(lookupToken name).toNat]? = some ent ∧ ent.name = name := by
  obtain ⟨c, member, token, isName⟩ := lookupToken_case (show lookupToken name ≠ -1 by omega)
  have named := List.all_eq_true.mp staticTable_names c member
  rw [Bool.or_eq_true, decide_eq_true_eq, decide_eq_true_eq] at named
  rw [token] at most ⊢
  obtain ⟨ent, found, equal⟩ := Option.map_eq_some_iff.mp (named.resolve_left (not_lt.mpr most))
  exact ⟨ent, found, equal.trans isName.symm⟩

/-- The entries with a token stand together, the first of them at the token. -/
theorem staticTable_grouped : (List.range staticTableLength).all (fun j =>
    match staticTable[j]? with
    | some ent =>
        0 ≤ ent.token && ent.token ≤ j && (List.range (j + 1)).all fun k =>
          k < ent.token || (staticTable[k]?.map fun ent => ent.token) = some ent.token
    | none => false) = true := by
  decide +kernel

theorem length_staticTable : staticTable.length = staticTableLength := by decide +kernel

/-- The loop over the static table finds the first value of the group. -/
theorem searchStaticLoop_spec (nv : Nv) (token : Int) (i : Nat) :
    (∀ j, searchStaticLoop nv token i (staticTable.drop i) = some j →
        ∃ ent, staticTable[j]? = some ent ∧ ent.token = token ∧ ent.value = nv.value) ∧
      (searchStaticLoop nv token i (staticTable.drop i) = none → ∀ j ent, i ≤ j →
        staticTable[j]? = some ent → (∀ k, i ≤ k → k ≤ j →
          (staticTable[k]?.map fun ent => ent.token) = some token) → ent.value ≠ nv.value) := by
  generalize rest : staticTable.drop i = later
  induction later generalizing i with
  | nil =>
      refine ⟨fun j found => (by cases found), fun _ j ent start found => ?_⟩
      have inside := (List.getElem?_eq_some_iff.mp found).1
      have length := congrArg List.length rest
      rw [List.length_drop, List.length_nil] at length
      omega
  | cons first later ih =>
      have here : staticTable[i]? = some first := by
        have head := congrArg (fun l : List StaticEntry => l[0]?) rest
        simpa using head
      have tail : staticTable.drop (i + 1) = later := by
        have dropped := congrArg (List.drop 1) rest
        rwa [List.drop_drop, List.drop_one, List.tail_cons] at dropped
      obtain ⟨finds, misses⟩ := ih (i + 1) tail
      rw [searchStaticLoop]
      by_cases other : first.token ≠ token
      · rw [if_pos other]
        refine ⟨fun j found => (by cases found), fun _ j ent start found group => ?_⟩
        have token' := group i (Nat.le_refl i) start
        rw [here] at token'
        exact absurd (Option.some.inj token') other
      · rw [if_neg other]
        have same := not_not.mp other
        by_cases value : first.value = nv.value
        · rw [if_pos value]
          refine ⟨fun j found => ?_, fun missed => (by cases missed)⟩
          cases found
          exact ⟨first, here, same, value⟩
        · rw [if_neg value]
          refine ⟨finds, fun missed j ent start found group => ?_⟩
          rcases Nat.eq_or_lt_of_le start with rfl | further
          · rw [here] at found
            cases found
            exact value
          · exact misses missed j ent further found fun k least => group k (by omega)

/-! ### Both tables

The result of a search as a statement about indices: the field at that index has the name, and the
value where the search says so. -/

/-- What a search over both tables returns. -/
structure Searched (table : List HdNv) (nv : Nv) (nameOnly : Bool) (res : SearchResult) : Prop where
  index : ∀ idx, res.index = some idx → ∃ f, getField table idx = some f ∧ f.name = nv.name ∧
    (res.nameValueMatch = true → f.value = nv.value)
  value : res.nameValueMatch = true → nameOnly = false ∧ ∃ idx, res.index = some idx
  noIndex : res.index = none → ∀ idx f, getField table idx = some f → f.name ≠ nv.name
  noValue : res.nameValueMatch = false → nameOnly = false →
    ∀ idx f, getField table idx = some f → f.name = nv.name → f.value ≠ nv.value

/-- A field of the static table. -/
theorem getField_static {idx : Nat} (static : idx < staticTableLength) (table : List HdNv) {f : HdNv}
    (found : getField table idx = some f) :
    ∃ ent, staticTable[idx]? = some ent ∧ f.name = ent.name ∧ f.value = ent.value ∧
      f.token = ent.token ∧ f.flags = nvFlagNone := by
  rw [getField, if_neg (not_le.mpr static)] at found
  obtain ⟨ent, inTable, rfl⟩ := Option.map_eq_some_iff.mp found
  exact ⟨ent, inTable, rfl, rfl, rfl, rfl⟩

/-- The index of an entry of the dynamic table, as its sequence number gives it. -/
theorem index_of_seq {context : HdContext} {table : List HdNv} (holds : TableHolds context table)
    {i : Nat} {ent : HdEntry} (found : context.hdTable.toList[i]? = some ent)
    (small : i + staticTableLength < 2 ^ 32) :
    (context.nextSeq + (2 ^ 32 - 1) + (2 ^ 32 - ent.seq) + staticTableLength) % 2 ^ 32 =
      i + staticTableLength := by
  have ref := holds.refs i ent found
  rw [holds.next, holds.seqs ent (List.mem_of_getElem? found), staticTableLength] at *
  omega

/-- A field of the dynamic table. -/
theorem getField_dynamic {context : HdContext} {table : List HdNv}
    (holds : TableHolds context table) {idx : Nat} (dynamic : staticTableLength ≤ idx) {f : HdNv}
    (found : getField table idx = some f) : ∃ ent ∈ context.hdTable.toList, ent.nv = f := by
  rw [getField, if_pos dynamic, ← holds.nvs, List.getElem?_map] at found
  obtain ⟨ent, inTable, is⟩ := Option.map_eq_some_iff.mp found
  exact ⟨ent, List.mem_of_getElem? inTable, is⟩

/-- A name of the static table has a token of the static table, and its group stands in front of it.
-/
theorem static_group {j : Nat} {ent : StaticEntry} (found : staticTable[j]? = some ent) :
    0 ≤ ent.token ∧ ent.token ≤ j ∧ j < staticTableLength ∧
      ∀ k, ent.token.toNat ≤ k → k ≤ j →
        (staticTable[k]?.map fun ent => ent.token) = some ent.token := by
  have inside := (List.getElem?_eq_some_iff.mp found).1
  rw [length_staticTable] at inside
  have grouped := List.all_eq_true.mp staticTable_grouped j (List.mem_range.mpr inside)
  rw [found] at grouped
  simp only [Bool.and_eq_true, decide_eq_true_eq, List.all_eq_true, List.mem_range,
    Bool.or_eq_true] at grouped
  obtain ⟨⟨least, most⟩, group⟩ := grouped
  refine ⟨least, most, inside, fun k start upTo => ?_⟩
  exact (group k (by omega)).resolve_left (by omega)

/-- What the map says about the dynamic table. -/
theorem hdMapFind_spec {deflater : HdDeflater} {table : List HdNv}
    (holds : DeflaterHolds deflater table) (nv : Nv) (nameOnly : Bool)
    {found : Option HdEntry × Bool}
    (finds : hdMapFind deflater.map nv (lookupToken nv.name)
      (hashOfToken nv (lookupToken nv.name)) nameOnly = found) :
    (∀ ent, found.1 = some ent → ent ∈ deflater.ctx.hdTable.toList ∧ ent.nv.name = nv.name) ∧
      (found.2 = true → nameOnly = false ∧ ∃ ent, found.1 = some ent ∧ ent.nv.value = nv.value) ∧
      (found.1 = none → ∀ ent ∈ deflater.ctx.hdTable.toList, ent.nv.name ≠ nv.name) ∧
      (found.2 = false → nameOnly = false → ∀ ent ∈ deflater.ctx.hdTable.toList,
        ent.nv.name = nv.name → ent.nv.value ≠ nv.value) := by
  have spec := hdMapFindLoop_spec nv (lookupToken nv.name) (hashOfToken nv (lookupToken nv.name))
    nameOnly none (deflater.map.table (hdMapBucket (hashOfToken nv (lookupToken nv.name))))
  rw [← hdMapFind, finds] at spec
  refine ⟨fun ent is => ?_, fun isExact => ?_, fun missed ent member names => ?_,
    fun missed all ent member names => ?_⟩
  · exact (holds.mem_bucket nv ent).mp ((spec.name ent is).resolve_left fun missed => by cases missed)
  · obtain ⟨ent, -, is, -, value, goes⟩ := spec.value isExact
    refine ⟨?_, ent, is, value⟩
    cases nameOnly with
    | false => rfl
    | true => exact absurd rfl (goes rfl)
  · have wanted := (holds.mem_bucket nv ent).mpr ⟨member, names⟩
    cases wanted.2.symm.trans ((spec.noName missed).2 ent wanted.1)
  · have wanted := (holds.mem_bucket nv ent).mpr ⟨member, names⟩
    exact spec.noValue missed all ent wanted.1 wanted.2

/-- The search in the static table, for a name that has a token there. -/
theorem searchStaticTable_spec {table : List HdNv} {nv : Nv} {nameOnly : Bool}
    (least : 0 ≤ lookupToken nv.name) (most : lookupToken nv.name ≤ tokenWwwAuthenticate)
    (dynamic : nameOnly = false → ∀ idx f, staticTableLength ≤ idx → getField table idx = some f →
      f.name = nv.name → f.value ≠ nv.value) :
    Searched table nv nameOnly (searchStaticTable nv (lookupToken nv.name).toNat nameOnly) := by
  obtain ⟨ent, atToken, isName⟩ := staticTable_of_token least most
  have getStatic {j : Nat} {e : StaticEntry} (inTable : staticTable[j]? = some e) :
      getField table j = some
        { name := e.name, value := e.value, token := e.token, flags := nvFlagNone } := by
    rw [getField, if_neg (not_le.mpr (static_group inTable).2.2.1), inTable]
    rfl
  obtain ⟨finds, misses⟩ := searchStaticLoop_spec nv (lookupToken nv.name) (lookupToken nv.name).toNat
  rw [searchStaticTable, Int.toNat_of_nonneg least]
  cases nameOnly with
  | true =>
      rw [if_pos rfl]
      refine ⟨fun idx is => ?_, fun missed => (by cases missed), fun missed => (by cases missed),
        fun _ all => (by cases all)⟩
      cases is
      exact ⟨_, getStatic atToken, isName, fun missed => by cases missed⟩
  | false =>
      rw [if_neg Bool.false_ne_true]
      split
      · rename_i j found
        obtain ⟨e, inTable, token, value⟩ := finds j found
        have names : e.name = nv.name := by
          rw [staticTable_token inTable] at token
          exact lookupToken_injective (by omega) token
        refine ⟨fun idx is => ?_, fun _ => ⟨rfl, j, rfl⟩, fun missed => (by cases missed),
          fun missed => (by cases missed)⟩
        cases is
        exact ⟨_, getStatic inTable, names, fun _ => value⟩
      · rename_i missed
        refine ⟨fun idx is => ?_, fun missed => (by cases missed), fun missed => (by cases missed),
          fun _ all idx f found names => ?_⟩
        · cases is
          exact ⟨_, getStatic atToken, isName, fun missed => by cases missed⟩
        · by_cases static : idx < staticTableLength
          · obtain ⟨e, inTable, name, value, -⟩ := getField_static static table found
            obtain ⟨-, before, -, group⟩ := static_group inTable
            rw [staticTable_token inTable, ← name, names] at before group
            rw [value]
            exact misses missed idx e (by omega) inTable group
          · exact dynamic rfl idx f (not_lt.mp static) found names

/-- The search finds a field with the name where there is one, and one with the value where there is
one; and what it returns is right. -/
theorem searchHdTable_spec {deflater : HdDeflater} {table : List HdNv}
    (holds : DeflaterHolds deflater table) (small : table.length + staticTableLength ≤ 2 ^ 32)
    (nv : Nv) (indexingMode : IndexingMode) :
    Searched table nv (decide (indexingMode = .neverIndexing))
      (searchHdTable deflater.ctx nv (lookupToken nv.name) indexingMode deflater.map
        (hashOfToken nv (lookupToken nv.name))) := by
  rw [searchHdTable]
  generalize decide (indexingMode = .neverIndexing) = nameOnly
  generalize finds : hdMapFind deflater.map nv (lookupToken nv.name)
    (hashOfToken nv (lookupToken nv.name)) nameOnly = found
  obtain ⟨name, value, noName, noValue⟩ := hdMapFind_spec holds nv nameOnly finds
  split
  -- The static table is searched when the map has no exact match and the name has a token there.
  · rename_i static
    simp only [Bool.and_eq_true, Bool.not_eq_true', ge_iff_le, decide_eq_true_eq] at static
    obtain ⟨⟨miss, least⟩, most⟩ := static
    refine searchStaticTable_spec least most fun all idx f dynamic inTable names => ?_
    obtain ⟨ent, member, rfl⟩ := getField_dynamic holds.holds dynamic inTable
    exact noValue miss all ent member names
  · rename_i other
    -- Otherwise a name without an exact match in the map has no token in the static table.
    have notStatic (miss : found.2 = false) {idx : Nat} {f : HdNv} (static : idx < staticTableLength)
        (inTable : getField table idx = some f) : f.name ≠ nv.name := by
      intro names
      obtain ⟨e, there, isName, -⟩ := getField_static static table inTable
      obtain ⟨least, before, -⟩ := static_group there
      rw [staticTable_token there, ← isName, names] at least before
      apply other
      simp only [miss, Bool.not_false, Bool.true_and, Bool.and_eq_true, ge_iff_le, decide_eq_true_eq]
      refine ⟨least, ?_⟩
      rw [staticTableLength] at static
      rw [tokenWwwAuthenticate]
      omega
    split
    · rename_i missed
      have miss : found.2 = false := by
        cases hit : found.2 with
        | false => rfl
        | true =>
            obtain ⟨-, ent, is, -⟩ := value hit
            cases missed.symm.trans is
      -- nothing was found in the map: the name is in neither table
      refine ⟨fun idx is => (by cases is), fun hit => (by cases hit),
        fun _ idx f inTable names => ?_, fun _ _ idx f inTable names => ?_⟩
      all_goals
        by_cases static : idx < staticTableLength
        · exact absurd names (notStatic miss static inTable)
        · obtain ⟨ent, member, rfl⟩ := getField_dynamic holds.holds (not_lt.mp static) inTable
          exact absurd names (noName missed ent member)
    · rename_i ent is
      -- an entry was found in the map: its index comes from its sequence number
      obtain ⟨member, names⟩ := name ent is
      obtain ⟨i, there⟩ := List.mem_iff_getElem?.mp member
      have inside := (List.getElem?_eq_some_iff.mp there).1
      rw [RingBuffer.length_toList, holds.holds.len] at inside
      have field : getField table (i + staticTableLength) = some ent.nv := by
        rw [getField, if_pos (Nat.le_add_left _ _), Nat.add_sub_cancel, ← holds.holds.nvs,
          List.getElem?_map, there]
        rfl
      rw [index_of_seq holds.holds there (by omega)]
      refine ⟨fun idx equal => ?_, fun hit => ⟨(value hit).1, _, rfl⟩, fun missed => (by cases missed),
        fun miss all idx f inTable names' => ?_⟩
      · cases equal
        refine ⟨ent.nv, field, names, fun hit => ?_⟩
        obtain ⟨-, ent', is', equal⟩ := value hit
        cases is.symm.trans is'
        exact equal
      · by_cases static : idx < staticTableLength
        · exact absurd names' (notStatic miss static inTable)
        · obtain ⟨ent', member', rfl⟩ := getField_dynamic holds.holds (not_lt.mp static) inTable
          exact noValue miss all ent' member' names'

end Hfc.Hpack
