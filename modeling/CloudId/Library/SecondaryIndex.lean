import CloudId.Library.HashMap

/-! Secondary indexes. A table holds rows under their identifiers; an index holds
one value of each row under a key of the row. A program that keeps an index
beside a table must remove what a row had under its former key; the lemmas say
when a single insertion or removal in the index is enough. -/
namespace SecondaryIndex

variable {ι κ ρ υ : Type} [DecidableEq ι] [DecidableEq κ]

/-- The index holds, under their keys, exactly the values of the rows. -/
def Indexes (key : ρ → Option κ) (value : ρ → υ) (table : HashMap ι ρ)
    (index : HashMap κ υ) : Prop :=
  ∀ probe found, index.lookup probe = some found ↔
    ∃ id row, table.lookup id = some row ∧ key row = some probe ∧ value row = found

/-- Every row has a key. -/
def Total (key : ρ → Option κ) (table : HashMap ι ρ) : Prop :=
  ∀ id row, table.lookup id = some row → ∃ probe, key row = some probe

/-- No two rows have the same key. -/
def Distinct (key : ρ → Option κ) (table : HashMap ι ρ) : Prop :=
  ∀ id id' row row' probe, table.lookup id = some row → table.lookup id' = some row' →
    key row = some probe → key row' = some probe → id = id'

variable {key : ρ → Option κ} {value : ρ → υ} {table : HashMap ι ρ} {index : HashMap κ υ}

/-- Two indexes of one table hold the same. -/
theorem Indexes.same {other : HashMap κ υ} (first : Indexes key value table index)
    (second : Indexes key value table other) : HashMap.Same index other := by
  intro probe
  apply Option.ext
  intro found
  rw [first probe found, second probe found]

/-- What holds the same as an index is an index. -/
theorem Indexes.congr {other : HashMap κ υ} (second : Indexes key value table other)
    (same : HashMap.Same index other) : Indexes key value table index := by
  intro probe found
  rw [same probe]
  exact second probe found

/-- The entry of a row. -/
theorem Indexes.lookup_row (indexes : Indexes key value table index) {id : ι} {row : ρ}
    {probe : κ} (held : table.lookup id = some row) (keyed : key row = some probe) :
    index.lookup probe = some (value row) :=
  (indexes probe (value row)).mpr ⟨id, row, held, keyed, rfl⟩

/-- Inserts the value of a row that has a key. -/
def insertRow (key : ρ → Option κ) (value : ρ → υ) (index : HashMap κ υ) (row : ρ) :
    HashMap κ υ :=
  match key row with
  | some probe => index.insert probe (value row)
  | none => index

theorem lookup_insert_row (key : ρ → Option κ) (value : ρ → υ) (index : HashMap κ υ) (row : ρ)
    (probe : κ) : (insertRow key value index row).lookup probe =
      if key row = some probe then some (value row) else index.lookup probe := by
  rw [insertRow]
  split
  · rename_i own keyed
    rw [HashMap.lookup_insert_eq, keyed]
    simp only [Option.some.injEq, eq_comm]
  · rename_i keyless
    rw [keyless, if_neg]
    simp

/-- Inserting a row keeps the index exactly when a row that it replaces had the
same key. -/
theorem insert_row_indexes_iff (indexes : Indexes key value table index) (total : Total key table)
    (distinct : Distinct key table) {id : ι} {row : ρ} (total' : Total key (table.insert id row))
    (distinct' : Distinct key (table.insert id row)) :
    Indexes key value (table.insert id row) (insertRow key value index row) ↔
      ∀ old, table.lookup id = some old → key old = key row := by
  have new : (table.insert id row).lookup id = some row := by simp
  obtain ⟨probe, keyed⟩ := total' id row new
  constructor
  · intro kept old held
    obtain ⟨former, formerly⟩ := total id old held
    by_contra moved
    have different : key row ≠ some former := fun same => moved (formerly.trans same.symm)
    have stale : (insertRow key value index row).lookup former = some (value old) := by
      rw [lookup_insert_row, if_neg different, indexes.lookup_row held formerly]
    obtain ⟨other, found, stored, under, -⟩ := (kept former (value old)).mp stale
    rcases HashMap.lookup_insert_eq_some.mp stored with ⟨-, rfl⟩ | ⟨elsewhere, stored⟩
    · exact different under
    · exact elsewhere (distinct other id found old former stored held under formerly)
  · intro keeps sought found
    rw [lookup_insert_row]
    by_cases same : key row = some sought
    · rw [if_pos same]
      constructor
      · rintro ⟨⟩
        exact ⟨id, row, new, same, rfl⟩
      · rintro ⟨other, entry, stored, under, rfl⟩
        have here := distinct' other id entry row sought stored new under same
        subst here
        rw [new] at stored
        cases stored
        rfl
    · rw [if_neg same, indexes sought found]
      constructor
      · rintro ⟨other, entry, stored, under, valued⟩
        have elsewhere : other ≠ id := by
          rintro rfl
          exact same ((keeps entry stored).symm.trans under)
        exact ⟨other, entry, HashMap.lookup_insert_eq_some.mpr (Or.inr ⟨elsewhere, stored⟩), under,
          valued⟩
      · rintro ⟨other, entry, stored, under, valued⟩
        rcases HashMap.lookup_insert_eq_some.mp stored with ⟨-, rfl⟩ | ⟨-, stored⟩
        · exact absurd under same
        · exact ⟨other, entry, stored, under, valued⟩

/-- Removing a key keeps the index exactly when the row that is removed is the
one with that key. -/
theorem erase_indexes_iff (indexes : Indexes key value table index) (total : Total key table)
    (distinct : Distinct key table) (id : ι) (probe : κ) :
    Indexes key value (table.erase id) (index.erase probe) ↔
      ∀ other row, table.lookup other = some row → (other = id ↔ key row = some probe) := by
  constructor
  · intro kept other row held
    obtain ⟨own, keyed⟩ := total other row held
    constructor
    · rintro rfl
      by_contra different
      have apart : own ≠ probe := fun same => different (same ▸ keyed)
      have stale := HashMap.lookup_erase_eq_some.mpr ⟨apart, indexes.lookup_row held keyed⟩
      obtain ⟨elsewhere, found, stored, under, -⟩ := (kept own (value row)).mp stale
      obtain ⟨moved, stored⟩ := HashMap.lookup_erase_eq_some.mp stored
      exact moved (distinct elsewhere other found row own stored held under keyed)
    · intro removed
      by_contra elsewhere
      have stored := HashMap.lookup_erase_eq_some.mpr ⟨elsewhere, held⟩
      have lost := (kept probe (value row)).mpr ⟨other, row, stored, removed, rfl⟩
      simp at lost
  · intro exact_ sought found
    rw [HashMap.lookup_erase_eq_some, indexes sought found]
    constructor
    · rintro ⟨different, other, row, held, under, valued⟩
      have elsewhere : other ≠ id := by
        intro removed
        have keyed := (exact_ other row held).mp removed
        exact different (Option.some.inj (under.symm.trans keyed))
      exact ⟨other, row, HashMap.lookup_erase_eq_some.mpr ⟨elsewhere, held⟩, under, valued⟩
    · rintro ⟨other, row, stored, under, valued⟩
      obtain ⟨elsewhere, held⟩ := HashMap.lookup_erase_eq_some.mp stored
      refine ⟨?_, other, row, held, under, valued⟩
      rintro rfl
      exact elsewhere ((exact_ other row held).mpr under)

/-- Removing every entry with the value of the removed row keeps the index, when
no other row has that value. -/
theorem retain_indexes [DecidableEq υ] (indexes : Indexes key value table index) {id : ι}
    {gone : υ}
    (exact_ : ∀ other row, table.lookup other = some row → (other = id ↔ value row = gone)) :
    Indexes key value (table.erase id) (HashMap.retain (fun _ found => found ≠ gone) index) := by
  intro probe found
  rw [HashMap.lookup_retain, Option.filter_eq_some_iff, indexes probe found, decide_eq_true_iff]
  constructor
  · rintro ⟨⟨other, row, held, under, rfl⟩, different⟩
    have elsewhere : other ≠ id := fun removed => different ((exact_ other row held).mp removed)
    exact ⟨other, row, HashMap.lookup_erase_eq_some.mpr ⟨elsewhere, held⟩, under, rfl⟩
  · rintro ⟨other, row, stored, under, rfl⟩
    obtain ⟨elsewhere, held⟩ := HashMap.lookup_erase_eq_some.mp stored
    exact ⟨⟨other, row, held, under, rfl⟩, fun gone => elsewhere ((exact_ other row held).mpr gone)⟩

/-! ## Building an index -/

/-- What a built index holds is of some row, or was there before. -/
theorem insert_rows_sound {rows : List ρ} {probe : κ} {found : υ}
    (held : (rows.foldl (insertRow key value) index).lookup probe = some found) :
    (∃ row ∈ rows, key row = some probe ∧ value row = found) ∨ index.lookup probe = some found := by
  induction rows generalizing index with
  | nil => exact Or.inr held
  | cons row rest step =>
    rcases step held with ⟨other, listed, valued⟩ | held
    · exact Or.inl ⟨other, List.mem_cons_of_mem _ listed, valued⟩
    · rw [lookup_insert_row] at held
      split at held
      · rename_i keyed
        exact Or.inl ⟨row, List.mem_cons_self .., keyed, Option.some.inj held⟩
      · exact Or.inr held

/-- A built index has no key that no row has. -/
theorem insert_rows_absent {rows : List ρ} {probe : κ} (absent : ∀ row ∈ rows, key row ≠ some probe)
    (missing : index.lookup probe = none) :
    (rows.foldl (insertRow key value) index).lookup probe = none := by
  rw [Option.eq_none_iff_forall_ne_some]
  intro found held
  rcases insert_rows_sound held with ⟨row, listed, keyed, -⟩ | held
  · exact absent row listed keyed
  · rw [missing] at held
    cases held

/-- A built index keeps every key it had. -/
theorem insert_rows_keep (rows : List ρ) {probe : κ} (held : (index.lookup probe).isSome) :
    ((rows.foldl (insertRow key value) index).lookup probe).isSome := by
  induction rows generalizing index with
  | nil => exact held
  | cons row rest step =>
    refine step ?_
    rw [lookup_insert_row]
    split
    · rfl
    · exact held

variable (value) in
/-- A built index has the key of every row. -/
theorem insert_rows_complete {rows : List ρ} {row : ρ} (listed : row ∈ rows) {probe : κ}
    (keyed : key row = some probe) (index : HashMap κ υ) :
    ((rows.foldl (insertRow key value) index).lookup probe).isSome := by
  obtain ⟨before, after, rfl⟩ := List.append_of_mem listed
  rw [List.foldl_append, List.foldl_cons]
  refine insert_rows_keep after ?_
  rw [lookup_insert_row, if_pos keyed]
  rfl

omit [DecidableEq ι] in
variable (key value) in
/-- An index that was built row by row holds the value of the last row with a key. -/
theorem lookup_insert_rows_last (rows : List ρ) (index : HashMap κ υ) (probe : κ) :
    (rows.foldl (insertRow key value) index).lookup probe =
      ((rows.reverse.find? fun row => key row = some probe).map value).or (index.lookup probe) := by
  induction rows generalizing index with
  | nil => rfl
  | cons row rest step =>
    rw [List.foldl_cons, step, lookup_insert_row, List.reverse_cons, List.find?_append]
    cases rest.reverse.find? fun row => key row = some probe with
    | some found => rfl
    | none => by_cases keyed : key row = some probe <;> simp [keyed]

/-- Inserting rows with different keys, in whatever order. -/
theorem lookup_insert_rows {rows : List ρ}
    (distinct : rows.Pairwise fun row row' => ∀ probe, key row = some probe → key row' ≠ some probe)
    (index : HashMap κ υ) (probe : κ) (found : υ) :
    (rows.foldl (insertRow key value) index).lookup probe = some found ↔
      (∃ row ∈ rows, key row = some probe ∧ value row = found) ∨
        (∀ row ∈ rows, key row ≠ some probe) ∧ index.lookup probe = some found := by
  induction rows generalizing index with
  | nil => simp
  | cons row rest step =>
    obtain ⟨apart, distinct⟩ := List.pairwise_cons.mp distinct
    rw [List.foldl_cons, step distinct, lookup_insert_row]
    by_cases keyed : key row = some probe
    · have others : ∀ other ∈ rest, key other ≠ some probe :=
        fun other listed => apart other listed probe keyed
      have absent : ¬ ∃ other ∈ rest, key other = some probe ∧ value other = found := by
        rintro ⟨other, listed, under, -⟩
        exact others other listed under
      simpa [keyed, absent] using fun (_ : value row = found) => others
    · simp [keyed]

/-- **An index built from the rows of a table, in any order, is its index**. -/
theorem insert_rows_indexes {rows : List ρ} (listed : rows.Perm table.values)
    (distinct : Distinct key table) :
    Indexes key value table (rows.foldl (insertRow key value) ∅) := by
  have apart : rows.Pairwise fun row row' =>
      ∀ probe, key row = some probe → key row' ≠ some probe := by
    refine (List.Perm.pairwise_iff ?_ listed).mpr ?_
    · intro row row' separate probe under' under
      exact separate probe under under'
    · rw [HashMap.values, List.pairwise_map]
      refine List.Pairwise.imp_of_mem ?_ (List.pairwise_map.mp table.keys_nodup)
      rintro ⟨id, row⟩ ⟨id', row'⟩ stored stored' different probe under under'
      exact different (distinct id id' row row' probe (AList.mem_lookup_iff.mpr stored)
        (AList.mem_lookup_iff.mpr stored') under under')
  intro probe found
  rw [lookup_insert_rows apart]
  constructor
  · rintro (⟨row, member, under, valued⟩ | ⟨-, impossible⟩)
    · obtain ⟨id, held⟩ := HashMap.mem_values.mp (listed.mem_iff.mp member)
      exact ⟨id, row, held, under, valued⟩
    · cases impossible
  · rintro ⟨id, row, held, under, valued⟩
    exact Or.inl ⟨row, listed.mem_iff.mpr (HashMap.mem_values.mpr ⟨id, held⟩), under, valued⟩

end SecondaryIndex
