-- A value that is written over, over any type of values and of items: the last
-- item that writes one counts.
import Mathlib.Data.List.Infix

namespace overwrites

variable {α β : Type*} (write : α → Option β)

/-- What was written last, or what was there before. -/
def lastOf (b : β) (items : List α) : β := ((items.filterMap write).getLast?).getD b

variable {write}

theorem lastOf_cons (b : β) (a : α) (items : List α) :
    lastOf write b (a :: items) = lastOf write ((write a).getD b) items := by
  unfold lastOf
  cases h : write a with
  | none => rw [List.filterMap_cons_none h, Option.getD_none]
  | some x =>
    rw [List.filterMap_cons_some h, List.getLast?_cons, Option.getD_some, Option.getD_some]

/-- Items that are gone through one by one. -/
theorem foldl_eq_lastOf (b : β) (items : List α) :
    items.foldl (fun b a => (write a).getD b) b = lastOf write b items := by
  induction items generalizing b with
  | nil => rfl
  | cons a items ih => rw [List.foldl_cons, ih, lastOf_cons]

/-- Two values that are written side by side. -/
theorem foldl_pair_eq_lastOf {γ : Type*} {write' : α → Option γ} (b : β) (c : γ) (items : List α) :
    items.foldl (fun k a => ((write a).getD k.1, (write' a).getD k.2)) (b, c) =
      (lastOf write b items, lastOf write' c items) := by
  induction items generalizing b c with
  | nil => rfl
  | cons a items ih => rw [List.foldl_cons, ih, lastOf_cons, lastOf_cons]

theorem lastOf_mem {b : β} {items : List α} (h : lastOf write b items ≠ b) :
    lastOf write b items ∈ items.filterMap write := by
  unfold lastOf at h ⊢
  cases hlast : (items.filterMap write).getLast? with
  | none => simp [hlast] at h
  | some x => exact List.mem_of_getLast? hlast

/-- The value was another one at some time exactly where another one was written. -/
theorem exists_prefix_ne_iff (b : β) (items : List α) :
    (∃ p, p <+: items ∧ lastOf write b p ≠ b) ↔ ∃ x ∈ items.filterMap write, x ≠ b := by
  constructor
  · rintro ⟨p, ⟨rest, rfl⟩, hne⟩
    refine ⟨_, ?_, hne⟩
    rw [List.filterMap_append]
    exact List.mem_append_left _ (lastOf_mem hne)
  · rintro ⟨x, hx, hne⟩
    obtain ⟨a, ha, hwrite⟩ := List.mem_filterMap.mp hx
    obtain ⟨before, rest, rfl⟩ := List.append_of_mem ha
    refine ⟨before ++ [a], ⟨rest, by simp⟩, ?_⟩
    have hlast : lastOf write b (before ++ [a]) = x := by
      unfold lastOf
      rw [List.filterMap_append, List.filterMap_cons_some hwrite, List.filterMap_nil,
        List.getLast?_concat, Option.getD_some]
    rwa [hlast]

end overwrites
