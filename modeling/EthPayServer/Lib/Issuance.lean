import Mathlib.Data.List.Basic

/-!
# Values drawn from counters

Each key of a space has a sequence of values, and a counter draws its key's
values one after the other.  Counters may be added and dropped.  If no key's
sequence repeats, the draws of one space never repeat as long as a counter is
added only for a key whose sequence avoids what was drawn in the space before
and what the other counters of the space can draw.
-/

namespace EthPayServer.Lib.Issuance

variable {ν κ α : Type*}

/-- A place in the sequence of a key: what a counter draws next, or what was drawn. -/
structure Slot (ν κ : Type*) where
  space : ν
  key : κ
  index : Nat
deriving DecidableEq

/-- The counter after a draw. -/
def Slot.next (slot : Slot ν κ) : Slot ν κ := { slot with index := slot.index + 1 }

variable (value : ν → κ → Nat → Option α)

/-- The sequences of two keys of a space have a value in common. -/
def Meet (space : ν) (key key' : κ) : Prop :=
  ∃ i j a, value space key i = some a ∧ value space key' j = some a

/-- Two draws of one space gave the same value. -/
def Repeat (slot slot' : Slot ν κ) : Prop :=
  slot.space = slot'.space ∧ ∃ a, value slot.space slot.key slot.index = some a ∧
    value slot'.space slot'.key slot'.index = some a

/-- Within one space a key draws each value at one index only. -/
def Injective : Prop :=
  ∀ space key i j a, value space key i = some a → value space key j = some a → i = j

structure Sound (counters drawn : List (Slot ν κ)) : Prop where
  /-- what a counter could have drawn is behind it -/
  behind : ∀ counter ∈ counters, ∀ slot ∈ drawn, counter.space = slot.space →
    ∀ i a, value counter.space counter.key i = some a →
      value slot.space slot.key slot.index = some a → i < counter.index
  /-- counters of one space have no value in common -/
  apart : counters.Pairwise fun counter counter' =>
    counter.space = counter'.space → ¬ Meet value counter.space counter.key counter'.key
  /-- no value was drawn twice in a space -/
  distinct : drawn.Pairwise fun slot slot' => ¬ Repeat value slot slot'

namespace Sound

variable {value} {counters drawn : List (Slot ν κ)}

theorem nil : Sound value [] [] := ⟨by simp, by simp, by simp⟩

theorem sublist (sound : Sound value counters drawn) {fewer : List (Slot ν κ)}
    (sub : fewer.Sublist counters) : Sound value fewer drawn where
  behind := fun counter mem => sound.behind counter (sub.subset mem)
  apart := sound.apart.sublist sub
  distinct := sound.distinct

theorem add (sound : Sound value counters drawn) {new : Slot ν κ}
    (unmet : ∀ counter ∈ counters, counter.space = new.space →
      ¬ Meet value counter.space counter.key new.key)
    (undrawn : ∀ slot ∈ drawn, slot.space = new.space → ∀ i a,
      value slot.space slot.key slot.index = some a → value new.space new.key i ≠ some a) :
    Sound value (counters ++ [new]) drawn where
  behind := by
    intro counter mem slot memSlot sameSpace i a derives drew
    rcases List.mem_append.mp mem with old | isNew
    · exact sound.behind counter old slot memSlot sameSpace i a derives drew
    · rw [List.mem_singleton.mp isNew] at sameSpace derives
      exact absurd derives (undrawn slot memSlot sameSpace.symm i a drew)
  apart := by
    refine List.pairwise_append.mpr ⟨sound.apart, List.pairwise_singleton _ _, ?_⟩
    intro counter mem other isNew
    rw [List.mem_singleton.mp isNew]
    exact unmet counter mem
  distinct := sound.distinct

theorem unmet {before after : List (Slot ν κ)} {counter other : Slot ν κ}
    (sound : Sound value (before ++ counter :: after) drawn) (mem : other ∈ before ++ after)
    (sameSpace : other.space = counter.space) : ¬ Meet value counter.space counter.key other.key := by
  obtain ⟨_, tail, cross⟩ := List.pairwise_append.mp sound.apart
  rcases List.mem_append.mp mem with early | late
  · rintro ⟨i, j, a, derives, derives'⟩
    refine cross other early counter List.mem_cons_self sameSpace ⟨j, i, a, ?_, ?_⟩
    · rw [sameSpace]
      exact derives'
    · rw [sameSpace]
      exact derives
  · exact (List.pairwise_cons.mp tail).1 other late sameSpace.symm

theorem draw {before after : List (Slot ν κ)} {counter : Slot ν κ}
    (sound : Sound value (before ++ counter :: after) drawn) (injective : Injective value) :
    Sound value (before ++ counter.next :: after) (drawn ++ [counter]) := by
  have mem : counter ∈ before ++ counter :: after := by simp
  have isOther : ∀ other ∈ before ++ counter.next :: after,
      other = counter.next ∨ other ∈ before ++ after := by
    intro other memOther
    rw [List.mem_append, List.mem_cons] at memOther
    rw [List.mem_append]
    tauto
  refine ⟨?_, ?_, ?_⟩
  · intro other memOther slot memSlot sameSpace i a derives drew
    rcases isOther other memOther with rfl | old
    · rcases List.mem_append.mp memSlot with earlier | isNew
      · exact Nat.lt_succ_of_lt (sound.behind counter mem slot earlier sameSpace i a derives drew)
      · rw [List.mem_singleton.mp isNew] at drew
        rw [injective _ _ _ _ a derives drew]
        exact Nat.lt_succ_self _
    rcases List.mem_append.mp memSlot with earlier | isNew
    · have memOld : other ∈ before ++ counter :: after :=
        (List.sublist_cons_self counter after).append_left before |>.subset old
      exact sound.behind other memOld slot earlier sameSpace i a derives drew
    · rw [List.mem_singleton.mp isNew] at sameSpace drew
      rw [sameSpace] at derives
      exact absurd ⟨_, _, a, drew, derives⟩ (sound.unmet old sameSpace)
  · obtain ⟨front, tail, cross⟩ := List.pairwise_append.mp sound.apart
    refine List.pairwise_append.mpr ⟨front, ?_, ?_⟩
    · exact List.pairwise_cons.mpr (List.pairwise_cons.mp tail)
    · intro other early counter' late
      rcases List.mem_cons.mp late with rfl | later
      · exact cross other early counter List.mem_cons_self
      · exact cross other early counter' (List.mem_cons_of_mem _ later)
  · refine List.pairwise_append.mpr ⟨sound.distinct, List.pairwise_singleton _ _, ?_⟩
    rintro slot earlier new isNew ⟨sameSpace, a, drew, draws⟩
    rw [List.mem_singleton.mp isNew] at sameSpace draws
    exact Nat.lt_irrefl _ (sound.behind counter mem slot earlier sameSpace.symm _ a draws drew)

end Sound

end EthPayServer.Lib.Issuance
