-- Intervals that grow at each failure, up to a cap, over any linear order.
import Mathlib.Logic.Function.Iterate
import Mathlib.Order.MinMax

namespace backoff

variable {α : Type*} [LinearOrder α] {grow : α → α} {cap : α}

/-- The interval after another failure. -/
def next (grow : α → α) (cap x : α) : α := min (grow x) cap

/-- What was capped before stays at the cap. -/
theorem next_min (hgrow : Monotone grow) (hcap : cap ≤ grow cap) (x : α) :
    next grow cap (min x cap) = min (grow x) cap := by
  unfold next
  rw [hgrow.map_min, min_assoc, min_eq_right hcap]

/-- The cap can be left out until the end. -/
theorem iterate_next (hgrow : Monotone grow) (hcap : cap ≤ grow cap) (k : Nat) (x : α) :
    (next grow cap)^[k + 1] x = min (grow^[k + 1] x) cap := by
  induction k with
  | zero => rfl
  | succ k ih =>
    rw [Function.iterate_succ_apply', ih, next_min hgrow hcap, ← Function.iterate_succ_apply' grow]

end backoff
