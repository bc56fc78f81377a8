/-
**Tables and first occurrences.**

The views of a table after a write, in the form that the proofs about builders use:

* `has_iff_mem_keys`: a key has been written exactly when it is listed;
* `exists_find?_iff`: the values are what look-up finds;
* `keys_put`, `values_put_of_new`: a value at a new key goes to the end;
* `keys_upsert_eq_eraseDups`: when the keys are the first occurrences of a list, they stay so when
  list and table grow by the same key.

First occurrences are `List.eraseDups`. `eraseDups_concat` says what one more member does to them,
`nodup_eraseDups` that none is there twice, and `perm_eraseDups` that another order of the members
only puts them in another order.
-/

import CallGraph.Table
import Mathlib.Data.List.Induction
import Mathlib.Data.List.Nodup

set_option linter.unusedSectionVars false

namespace CallGraph

/-! ### First occurrences -/

section FirstOccurrences

variable {α : Type} [BEq α] [LawfulBEq α]

/-- A further member counts only if it is new. -/
theorem eraseDups_concat (items : List α) (item : α) :
    (items ++ [item]).eraseDups =
      if item ∈ items then items.eraseDups else items.eraseDups ++ [item] := by
  rw [List.eraseDups_append]
  by_cases listed : item ∈ items
  · simp [List.removeAll, listed]
  · simp [List.removeAll, listed, List.eraseDups_cons]

/-- First occurrences have no repetition. -/
theorem nodup_eraseDups (items : List α) : items.eraseDups.Nodup := by
  induction items using List.reverseRecOn with
  | nil => exact List.nodup_nil
  | append_singleton items item ih =>
    rw [eraseDups_concat]
    split
    · exact ih
    · rename_i new
      refine List.nodup_append.mpr ⟨ih, List.nodup_singleton item, ?_⟩
      intro first listed second single same
      rw [List.mem_singleton] at single
      rw [List.mem_eraseDups] at listed
      exact new (single ▸ same ▸ listed)

/-- The first occurrences in another order. -/
theorem perm_eraseDups {items others : List α} (permuted : items.Perm others) :
    items.eraseDups.Perm others.eraseDups := by
  refine (List.perm_ext_iff_of_nodup (nodup_eraseDups items) (nodup_eraseDups others)).mpr ?_
  intro item
  rw [List.mem_eraseDups, List.mem_eraseDups, permuted.mem_iff]

end FirstOccurrences

/-! ### Tables -/

namespace Table

variable {κ α : Type} [DecidableEq κ]

theorem isSome_findEntry (key : κ) (entries : List (κ × α)) :
    (findEntry key entries).isSome = true ↔ key ∈ entries.map Prod.fst := by
  induction entries with
  | nil => simp [findEntry]
  | cons entry rest ih =>
    obtain ⟨other, value⟩ := entry
    by_cases same : other = key
    · simp [findEntry, same]
    · have flipped : ¬ key = other := fun eq => same eq.symm
      simp only [findEntry, if_neg same, ih, List.map_cons, List.mem_cons, flipped, false_or]

/-- A key has been written exactly when it is listed. -/
theorem has_iff_mem_keys (table : Table κ α) (key : κ) :
    table.has key = true ↔ key ∈ table.keys :=
  isSome_findEntry key table.entries

theorem exists_findEntry_iff {entries : List (κ × α)} (once : (entries.map Prod.fst).Nodup)
    (value : α) :
    (∃ key, findEntry key entries = some value) ↔ value ∈ entries.map Prod.snd := by
  induction entries with
  | nil => simp [findEntry]
  | cons entry rest ih =>
    obtain ⟨first, stored⟩ := entry
    rw [List.map_cons, List.nodup_cons] at once
    rw [List.map_cons, List.mem_cons, ← ih once.2]
    constructor
    · rintro ⟨key, found⟩
      by_cases here : first = key
      · rw [findEntry, if_pos here] at found
        exact Or.inl (Option.some.inj found).symm
      · rw [findEntry, if_neg here] at found
        exact Or.inr ⟨key, found⟩
    · rintro (rfl | ⟨key, found⟩)
      · exact ⟨first, by rw [findEntry, if_pos rfl]⟩
      · have listed : key ∈ rest.map Prod.fst := (isSome_findEntry key rest).mp (by rw [found]; rfl)
        have other : first ≠ key := fun same => once.1 (same ▸ listed)
        exact ⟨key, by rw [findEntry, if_neg other, found]⟩

/-- The values are what look-up finds. -/
theorem exists_find?_iff (table : Table κ α) (value : α) :
    (∃ key, table.find? key = some value) ↔ value ∈ table.values :=
  exists_findEntry_iff table.nodup value

theorem nodup_keys (table : Table κ α) : table.keys.Nodup := table.nodup

theorem size_eq_length_values (table : Table κ α) : table.size = table.values.length := by
  simp [size, values]

/-- Look-up after a value has been put. -/
theorem find?_put (table : Table κ α) (key asked : κ) (value : α) :
    (table.put key value).find? asked = if key = asked then some value else table.find? asked :=
  find?_upsert table key asked fun _ => value

/-- The keys after a value has been put. -/
theorem keys_put (table : Table κ α) (key : κ) (value : α) :
    (table.put key value).keys = if key ∈ table.keys then table.keys else table.keys ++ [key] :=
  keys_upsert table key fun _ => value

theorem mem_keys_put {table : Table κ α} {key other : κ} {value : α} :
    other ∈ (table.put key value).keys ↔ other ∈ table.keys ∨ other = key := by
  rw [keys_put]
  split
  · rename_i listed
    exact (or_iff_left_of_imp fun same => same ▸ listed).symm
  · rw [List.mem_append, List.mem_singleton]

theorem upsertEntries_of_new {key : κ} {entries : List (κ × α)} (write : Option α → α)
    (new : key ∉ entries.map Prod.fst) :
    upsertEntries key write entries = entries ++ [(key, write none)] := by
  induction entries with
  | nil => rfl
  | cons entry rest ih =>
    obtain ⟨other, value⟩ := entry
    simp only [List.map_cons, List.mem_cons, not_or] at new
    rw [upsertEntries, if_neg (Ne.symm new.1), ih new.2, List.cons_append]

/-- A value at a new key goes to the end. -/
theorem values_put_of_new {table : Table κ α} {key : κ} (value : α) (new : key ∉ table.keys) :
    (table.put key value).values = table.values ++ [value] := by
  show (upsertEntries key (fun _ => value) table.entries).map Prod.snd = _
  rw [upsertEntries_of_new _ new, List.map_append]
  rfl

/-- **Keys in the order of their first writing** are first occurrences, before and after a write. -/
theorem keys_upsert_eq_eraseDups {table : Table κ α} {written : List κ}
    (ordered : table.keys = written.eraseDups) (key : κ) (write : Option α → α) :
    (table.upsert key write).keys = (written ++ [key]).eraseDups := by
  rw [keys_upsert, eraseDups_concat, ordered]
  simp only [List.mem_eraseDups]

end Table

end CallGraph
