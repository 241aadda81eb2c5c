import Mathlib.Data.List.Nodup
import Mathlib.Data.List.Sort

/-!
# Tables with a unique key

A table is a list of rows whose keys are pairwise different, as a field of the
table: a table with a duplicate key cannot be built.  Updates keep every key,
inserts append a row whose key is new.
-/

namespace EthPayServer.Lib

/-- Rows in insertion order, no two with the same key. -/
structure Table {ρ κ : Type} (key : ρ → κ) where
  rows : List ρ
  nodup : (rows.map key).Nodup

namespace Table

variable {ρ κ : Type} {key : ρ → κ} (table : Table key) (change : ρ → ρ) (row : ρ)

def empty : Table key := ⟨[], List.nodup_nil⟩

def single (row : ρ) : Table key := ⟨[row], List.nodup_singleton _⟩

@[simp] theorem rows_empty : (empty : Table key).rows = [] := rfl

theorem eq_of_key {table : Table key} {row row' : ρ} (mem : row ∈ table.rows)
    (mem' : row' ∈ table.rows) (same : key row = key row') : row = row' :=
  List.inj_on_of_nodup_map table.nodup mem mem' same

def keys (table : Table key) : List κ := table.rows.map key

theorem mem_keys {table : Table key} : k ∈ table.keys ↔ ∃ row ∈ table.rows, key row = k :=
  List.mem_map

section Lookup

variable [DecidableEq κ]

def find? (table : Table key) (k : κ) : Option ρ :=
  table.rows.find? fun row => key row = k

omit [DecidableEq κ] in
theorem find?_of_unique {rows : List ρ} {row : ρ} {holds : ρ → Bool} (mem : row ∈ rows)
    (here : holds row = true) (unique : ∀ other ∈ rows, holds other = true → other = row) :
    rows.find? holds = some row := by
  cases found : rows.find? holds with
  | none => exact absurd here (List.find?_eq_none.mp found row mem)
  | some other => rw [unique other (List.mem_of_find?_eq_some found) (List.find?_some found)]

theorem find?_eq_some {table : Table key} {row : ρ} :
    table.find? k = some row ↔ row ∈ table.rows ∧ key row = k := by
  constructor
  · intro found
    exact ⟨List.mem_of_find?_eq_some found, by simpa using List.find?_some found⟩
  rintro ⟨mem, rfl⟩
  exact find?_of_unique mem (by simp) fun other memOther same =>
    table.eq_of_key memOther mem (of_decide_eq_true same)

theorem find?_eq_none {table : Table key} : table.find? k = none ↔ ∀ row ∈ table.rows, key row ≠ k := by
  simp [find?]

theorem find?_of_mem {table : Table key} {row : ρ} (mem : row ∈ table.rows) :
    table.find? (key row) = some row :=
  find?_eq_some.mpr ⟨mem, rfl⟩

theorem exists_find? {table : Table key} (known : k ∈ table.keys) : ∃ row, table.find? k = some row := by
  obtain ⟨row, mem, rfl⟩ := mem_keys.mp known
  exact ⟨row, find?_of_mem mem⟩

end Lookup

def update (table : Table key) (change : ρ → ρ) (keeps : ∀ row, key (change row) = key row) :
    Table key where
  rows := table.rows.map change
  nodup := by
    have sameKeys : (table.rows.map change).map key = table.rows.map key := by
      rw [List.map_map]
      exact List.map_congr_left fun row _ => keeps row
    rw [sameKeys]
    exact table.nodup

@[simp] theorem rows_update :
    (table.update change keeps).rows = table.rows.map change := rfl

@[simp] theorem keys_update : (table.update change keeps).keys = table.keys := by
  rw [keys, rows_update, List.map_map]
  exact List.map_congr_left fun row _ => keeps row

theorem find?_update [DecidableEq κ] (k : κ) :
    (table.update change keeps).find? k = (table.find? k).map change := by
  unfold find?
  rw [rows_update, List.find?_map]
  congr 2
  funext row
  simp only [Function.comp, keeps]

def insert (table : Table key) (row : ρ) (fresh : key row ∉ table.keys) : Table key where
  rows := table.rows ++ [row]
  nodup := by
    rw [List.map_append, List.map_singleton]
    exact table.nodup.append (List.nodup_singleton _) (by simpa [List.Disjoint, mem_keys] using fresh)

@[simp] theorem rows_insert (fresh : key row ∉ table.keys) :
    (table.insert row fresh).rows = table.rows ++ [row] := rfl

@[simp] theorem keys_insert (fresh : key row ∉ table.keys) :
    (table.insert row fresh).keys = table.keys ++ [key row] := by
  simp [keys]

/-- Drop the rows that do not meet a condition. -/
def filter (table : Table key) (keep : ρ → Bool) : Table key where
  rows := table.rows.filter keep
  nodup := table.nodup.sublist (List.filter_sublist.map key)

@[simp] theorem rows_filter (keep : ρ → Bool) :
    (table.filter keep).rows = table.rows.filter keep := rfl

/-- Replace the row with the new row's key in place, or append the new row. -/
def put [DecidableEq κ] (table : Table key) (row : ρ) : Table key :=
  if fresh : key row ∉ table.keys then table.insert row fresh
  else table.update (fun old => if key old = key row then row else old) fun old => by
    split
    · next same => exact same.symm
    · rfl

theorem mem_put [DecidableEq κ] {table : Table key} {row other : ρ}
    (mem : other ∈ (table.put row).rows) :
    other = row ∨ (other ∈ table.rows ∧ key other ≠ key row) := by
  unfold put at mem
  split at mem
  next fresh =>
    rw [rows_insert, List.mem_append, List.mem_singleton] at mem
    rcases mem with old | rfl
    · exact .inr ⟨old, fun same => fresh (mem_keys.mpr ⟨other, old, same⟩)⟩
    · exact .inl rfl
  rw [rows_update, List.mem_map] at mem
  obtain ⟨old, memOld, rfl⟩ := mem
  by_cases same : key old = key row
  · exact .inl (if_pos same)
  · rw [if_neg same]
    exact .inr ⟨memOld, same⟩

theorem rows_put_of_fresh [DecidableEq κ] {table : Table key} {row : ρ} (fresh : key row ∉ table.keys) :
    (table.put row).rows = table.rows ++ [row] := by
  rw [put, dif_pos fresh, rows_insert]

theorem mem_put_self [DecidableEq κ] : row ∈ (table.put row).rows := by
  unfold put
  split
  · simp
  next known =>
    obtain ⟨old, memOld, same⟩ := mem_keys.mp (not_not.mp known)
    exact List.mem_map.mpr ⟨old, memOld, if_pos same⟩

theorem mem_put_of_ne [DecidableEq κ] {table : Table key} {row other : ρ} (mem : other ∈ table.rows)
    (differs : key other ≠ key row) : other ∈ (table.put row).rows := by
  unfold put
  split
  · exact List.mem_append_left _ mem
  · exact List.mem_map.mpr ⟨other, mem, if_neg differs⟩

theorem find?_put [DecidableEq κ] (k : κ) :
    (table.put row).find? k = if key row = k then some row else table.find? k := by
  split
  next same => exact find?_eq_some.mpr ⟨mem_put_self table row, same⟩
  next differs =>
    ext other
    rw [find?_eq_some, find?_eq_some]
    constructor
    · rintro ⟨mem, isKey⟩
      rcases mem_put mem with rfl | ⟨old, _⟩
      · exact absurd isKey differs
      · exact ⟨old, isKey⟩
    · rintro ⟨mem, isKey⟩
      exact ⟨mem_put_of_ne mem fun same => differs (same.symm.trans isKey), isKey⟩

theorem mem_keys_put [DecidableEq κ] {table : Table key} {row : ρ} :
    k ∈ (table.put row).keys ↔ k = key row ∨ k ∈ table.keys := by
  unfold put
  split
  · simp [or_comm]
  next known =>
    rw [keys_update]
    constructor
    · exact Or.inr
    · rintro (rfl | old)
      · exact not_not.mp known
      · exact old

end Table

/-- An association list with unique keys: a hash map whose iteration order is a choice. -/
abbrev HashMap (κ ν : Type) : Type := Table (Prod.fst : κ × ν → κ)

/-- Visit items in the order of the ranks their positions are given. -/
def arrange {α : Type} (rank : Nat → Nat) (items : List α) : List α :=
  (items.zipIdx.insertionSort fun a b => rank a.2 ≤ rank b.2).map Prod.fst

/-- Every order of visits sees the same items. -/
theorem arrange_perm {α : Type} (rank : Nat → Nat) (items : List α) :
    (arrange rank items).Perm items := by
  have sorted := (List.perm_insertionSort (fun a b : α × Nat => rank a.2 ≤ rank b.2)
    items.zipIdx).map Prod.fst
  simpa [arrange] using sorted

@[simp] theorem mem_arrange {α : Type} {rank : Nat → Nat} {items : List α} {item : α} :
    item ∈ arrange rank items ↔ item ∈ items :=
  (arrange_perm rank items).mem_iff

end EthPayServer.Lib
