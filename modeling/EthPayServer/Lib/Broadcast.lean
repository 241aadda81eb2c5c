import Mathlib.Data.List.Basic

/-!
# Bounded broadcast channels

Everything sent on a channel is numbered.  A channel keeps the newest
`capacity` values for its receivers: a receiver that is further behind is told
so once, loses what it missed, and goes on at the oldest value that is kept.
-/

namespace EthPayServer.Lib.Broadcast

variable {α : Type*} {capacity position : Nat} {sent : List α}

/-- Receive without waiting: the next value, if there is one, and the receiver's new position. -/
def tryRecv (capacity : Nat) (sent : List α) (position : Nat) : Option α × Nat :=
  if position + capacity < sent.length then (none, sent.length - capacity)
  else match sent[position]? with
    | some value => (some value, position + 1)
    | none => (none, position)

/-- A receiver that is not too far behind is given the next value. -/
theorem tryRecv_of_lt (kept : sent.length ≤ position + capacity) {value : α}
    (here : sent[position]? = some value) : tryRecv capacity sent position = (some value, position + 1) := by
  rw [tryRecv, if_neg (by omega), here]

/-- A receiver that has received everything is told that there is nothing. -/
theorem tryRecv_of_le (kept : sent.length ≤ position + capacity) (allRead : sent.length ≤ position) :
    tryRecv capacity sent position = (none, position) := by
  rw [tryRecv, if_neg (by omega), List.getElem?_eq_none allRead]

end EthPayServer.Lib.Broadcast
