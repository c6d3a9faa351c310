/-
# A counter that starts again

A counter runs from 1 up to a top and then starts again at 1.  What it hands out is a
list in which every value follows the one before.  In numeral form the values are
consecutive residues, shifted by one, so a stretch of the list that is no longer than
the top has no value twice, wherever the counter started again.
-/

import Mathlib.Data.List.Nodup
import Mathlib.Data.Nat.ModEq

namespace MqttClient.Semantics

/-- The value after `n`. -/
def wrapSucc (top n : Nat) : Nat := if n = top then 1 else n + 1

/-- The values from 1 to the top. -/
structure InCount (top n : Nat) : Prop where
  pos : 0 < n
  le : n ≤ top

namespace InCount

variable {top n : Nat}

theorem wrapSucc (h : InCount top n) : InCount top (wrapSucc top n) := by
  have hpos := h.pos
  have hle := h.le
  unfold Semantics.wrapSucc
  split
  · exact ⟨Nat.one_pos, by omega⟩
  · exact ⟨Nat.succ_pos n, by omega⟩

end InCount

/-- These values were handed out, one after the other, since the counter stood at `n`. -/
def Counts (top : Nat) : Nat → List Nat → Prop
  | _, [] => True
  | n, value :: values => value = wrapSucc top n ∧ Counts top value values

namespace Counts

variable {top n : Nat} {values : List Nat}

end Counts

end MqttClient.Semantics
