import Mathlib.Data.List.Sort
import Mathlib.Data.Rat.Defs
import Mathlib.Algebra.Order.Ring.Unbundled.Rat

/-!
# Sorted sets

A set whose members carry scores, as Redis keeps them.  Adding a member that is
there gives it the new score.
-/

namespace EthPayServer.Lib

variable {μ : Type}

/-- The members and their scores. -/
structure SortedSet (μ : Type) where
  entries : List (μ × ℚ)

namespace SortedSet

def empty : SortedSet μ := ⟨[]⟩

def members (set : SortedSet μ) : List μ := set.entries.map Prod.fst

/-- `ZRANGEBYSCORE` from the lowest score to `max`; equal scores go by their members. -/
def rangeByScore [LE μ] [DecidableLE μ] (set : SortedSet μ) (max : ℚ) : List μ :=
  ((set.entries.filter fun entry => entry.2 ≤ max).insertionSort
    fun entry other => entry.2 < other.2 ∨ (entry.2 = other.2 ∧ entry.1 ≤ other.1)).map Prod.fst

theorem mem_of_rangeByScore [LE μ] [DecidableLE μ] {set : SortedSet μ} {max : ℚ} {member : μ}
    (mem : member ∈ set.rangeByScore max) : member ∈ set.members := by
  simp only [rangeByScore, List.mem_map, List.mem_insertionSort, List.mem_filter] at mem
  obtain ⟨entry, ⟨mem, -⟩, rfl⟩ := mem
  exact List.mem_map_of_mem mem

variable [DecidableEq μ]

/-- `ZREM` of one member. -/
def zrem (set : SortedSet μ) (member : μ) : SortedSet μ :=
  ⟨set.entries.filter fun entry => entry.1 ≠ member⟩

/-- `ZADD` of one member. -/
def zadd (set : SortedSet μ) (member : μ) (score : ℚ) : SortedSet μ :=
  ⟨(set.zrem member).entries ++ [(member, score)]⟩

@[simp] theorem mem_zrem {set : SortedSet μ} {member other : μ} :
    other ∈ (set.zrem member).members ↔ other ∈ set.members ∧ other ≠ member := by
  simp only [members, zrem, List.mem_map, List.mem_filter, decide_eq_true_eq]
  constructor
  · rintro ⟨entry, ⟨mem, apart⟩, rfl⟩
    exact ⟨⟨entry, mem, rfl⟩, apart⟩
  · rintro ⟨⟨entry, mem, rfl⟩, apart⟩
    exact ⟨entry, ⟨mem, apart⟩, rfl⟩

@[simp] theorem mem_zadd {set : SortedSet μ} {member other : μ} {score : ℚ} :
    other ∈ (set.zadd member score).members ↔ other ∈ set.members ∨ other = member := by
  have split : (set.zadd member score).members = (set.zrem member).members ++ [member] := by
    simp [members, zadd]
  rw [split, List.mem_append, mem_zrem, List.mem_singleton]
  by_cases same : other = member <;> simp [same]

end SortedSet

end EthPayServer.Lib
