/-
**Tables**: finite maps that keep their keys in the order in which they were first written.

`Table.upsert` writes at a key, from what was there before; a new key goes to the end.
`find?_upsert` and `keys_upsert` say what that does to the two views of a table: look-up and the
list of keys.
-/

namespace CallGraph

variable {κ α : Type} [DecidableEq κ]

namespace Table

/-- Writes at a key of a list of entries. -/
def upsertEntries (key : κ) (write : Option α → α) : List (κ × α) → List (κ × α)
  | [] => [(key, write none)]
  | (other, value) :: rest =>
    if other = key then (other, write (some value)) :: rest
    else (other, value) :: upsertEntries key write rest

theorem map_fst_upsertEntries (key : κ) (write : Option α → α) (entries : List (κ × α)) :
    (upsertEntries key write entries).map Prod.fst =
      if key ∈ entries.map Prod.fst then entries.map Prod.fst
      else entries.map Prod.fst ++ [key] := by
  induction entries with
  | nil => simp [upsertEntries]
  | cons entry rest ih =>
    obtain ⟨other, value⟩ := entry
    by_cases same : other = key
    · simp [upsertEntries, same]
    · have flipped : ¬ key = other := fun eq => same eq.symm
      rw [upsertEntries, if_neg same, List.map_cons, ih]
      by_cases listed : key ∈ rest.map Prod.fst
      · have later : key ∈ ((other, value) :: rest).map Prod.fst := List.mem_cons_of_mem _ listed
        rw [if_pos listed, if_pos later]
        rfl
      · have nowhere : key ∉ ((other, value) :: rest).map Prod.fst := by
          simpa only [List.map_cons, List.mem_cons, flipped, false_or] using listed
        rw [if_neg listed, if_neg nowhere]
        rfl

/-- The value at a key of a list of entries. -/
def findEntry (key : κ) : List (κ × α) → Option α
  | [] => none
  | (other, value) :: rest => if other = key then some value else findEntry key rest

theorem findEntry_upsertEntries (key asked : κ) (write : Option α → α) (entries : List (κ × α)) :
    findEntry asked (upsertEntries key write entries) =
      if key = asked then some (write (findEntry key entries)) else findEntry asked entries := by
  induction entries with
  | nil => by_cases same : key = asked <;> simp [upsertEntries, findEntry, same]
  | cons entry rest ih =>
    obtain ⟨first, value⟩ := entry
    by_cases here : first = key
    · subst here
      by_cases same : first = asked <;> simp [upsertEntries, findEntry, same]
    · rw [upsertEntries, if_neg here, findEntry, ih]
      by_cases same : key = asked
      · subst same
        simp [findEntry, here]
      · simp [findEntry, same]

end Table

/-- A finite map with its keys in the order of their first writing. -/
structure Table (κ α : Type) where
  entries : List (κ × α)
  nodup : (entries.map Prod.fst).Nodup

namespace Table

/-- The table without entries. -/
def empty : Table κ α := ⟨[], List.nodup_nil⟩

/-- The keys, in order. -/
def keys (table : Table κ α) : List κ := table.entries.map Prod.fst

/-- The values, in the order of their keys. -/
def values (table : Table κ α) : List α := table.entries.map Prod.snd

/-- The number of keys. -/
def size (table : Table κ α) : Nat := table.entries.length

/-- The value at a key. -/
def find? (table : Table κ α) (key : κ) : Option α := findEntry key table.entries

/-- Whether the key has been written. -/
def has (table : Table κ α) (key : κ) : Bool := (table.find? key).isSome

/-- Writes at a key, from the value there before. -/
def upsert (table : Table κ α) (key : κ) (write : Option α → α) : Table κ α where
  entries := upsertEntries key write table.entries
  nodup := by
    rw [map_fst_upsertEntries]
    split
    · exact table.nodup
    · rename_i new
      refine List.nodup_append.mpr ⟨table.nodup, by simp, fun first listed second single eq => ?_⟩
      rw [List.mem_singleton] at single
      exact new (single ▸ eq ▸ listed)

/-- Writes a value at a key. -/
def put (table : Table κ α) (key : κ) (value : α) : Table κ α := table.upsert key fun _ => value

/-- Look-up after a write. -/
theorem find?_upsert (table : Table κ α) (key asked : κ) (write : Option α → α) :
    (table.upsert key write).find? asked =
      if key = asked then some (write (table.find? key)) else table.find? asked :=
  findEntry_upsertEntries key asked write table.entries

/-- A write at a new key appends it, any other write keeps the keys. -/
theorem keys_upsert (table : Table κ α) (key : κ) (write : Option α → α) :
    (table.upsert key write).keys =
      if key ∈ table.keys then table.keys else table.keys ++ [key] :=
  map_fst_upsertEntries key write table.entries

omit [DecidableEq κ] in
theorem size_eq_length_keys (table : Table κ α) : table.size = table.keys.length := by
  simp [size, keys]

end Table

end CallGraph
