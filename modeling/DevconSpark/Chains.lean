-- Links that are followed from one value to the next, over any type. A trail
-- keeps what it passed, and stops where nothing follows or where the next value
-- was passed before.
import Mathlib.Data.List.Chain
import Mathlib.Logic.Relation

namespace chains

variable {α : Type*} {f : α → Option α} {start here next : α} {passed : List α}

/-- The value that follows. -/
def Follows (f : α → Option α) (a b : α) : Prop := f a = some b

/-- From `start`, past each value of `passed` in order, to `here`. -/
structure Trail (f : α → Option α) (start : α) (passed : List α) (here : α) : Prop where
  steps : (passed ++ [here]).IsChain (Follows f)
  first : (passed ++ [here]).head? = some start
  nodup : passed.Nodup
  fresh : here ∈ passed → ∃ c ∈ passed, f here = some c

/-- Nothing follows, or the next value was passed before. -/
def Ended (f : α → Option α) (passed : List α) (here : α) : Prop :=
  f here = none ∨ ∃ c ∈ passed, f here = some c

namespace Trail

theorem refl (f : α → Option α) (a : α) : Trail f a [] a where
  steps := List.isChain_singleton a
  first := rfl
  nodup := List.nodup_nil
  fresh h := absurd h List.not_mem_nil

theorem here_not_mem (h : Trail f start passed here) (hnext : f here = some next)
    (hnew : next ∉ passed) : here ∉ passed := by
  intro hmem
  obtain ⟨c, hc, hf⟩ := h.fresh hmem
  rw [hnext, Option.some_inj] at hf
  exact hnew (hf ▸ hc)

theorem step (h : Trail f start passed here) (hnext : f here = some next)
    (hnew : next ∉ passed) : Trail f start (passed ++ [here]) next where
  steps := by
    rw [List.append_assoc]
    exact List.isChain_append_cons_cons.mpr ⟨h.steps, hnext, List.isChain_singleton next⟩
  first := by
    have hfirst := h.first
    rw [List.head?_append_of_ne_nil _ (by simp)]
    exact hfirst
  nodup := List.nodup_append.mpr ⟨h.nodup, by simp, by
    rintro a ha b hb rfl
    rw [List.mem_singleton] at hb
    exact h.here_not_mem hnext hnew (hb ▸ ha)⟩
  fresh hmem := by
    -- The only value that may be met twice in a row is one that follows itself.
    have hself : next = here := by simpa [hnew] using hmem
    exact ⟨here, by simp, by rw [hself] at hnext ⊢; exact hnext⟩

theorem start_mem (h : Trail f start passed here) : start ∈ passed ++ [here] :=
  List.mem_of_head? h.first

/-- What follows a value that was passed is on the trail. -/
theorem follows_mem (h : Trail f start passed here) {a b : α} (ha : a ∈ passed)
    (hb : f a = some b) : b ∈ passed ++ [here] := by
  obtain ⟨before, after, rfl⟩ := List.append_of_mem ha
  have hsteps := h.steps
  rw [List.append_assoc, List.cons_append] at hsteps
  cases after with
  | nil =>
    obtain ⟨-, hstep, -⟩ := List.isChain_append_cons_cons.mp hsteps
    have hhere : here = b := Option.some_inj.mp (hstep.symm.trans hb)
    simp [hhere]
  | cons c after =>
    obtain ⟨-, hstep, -⟩ := List.isChain_append_cons_cons.mp hsteps
    have hnext : c = b := Option.some_inj.mp (hstep.symm.trans hb)
    simp [hnext]

/-- A trail that ended holds all that can be reached. -/
theorem mem_of_reach (h : Trail f start passed here) (hend : Ended f passed here) {b : α}
    (hb : Relation.ReflTransGen (Follows f) start b) : b ∈ passed ++ [here] := by
  induction hb with
  | refl => exact h.start_mem
  | tail _ hstep ih =>
    rcases List.mem_append.mp ih with hmem | hmem
    · exact h.follows_mem hmem hstep
    · rw [List.mem_singleton.mp hmem] at hstep
      rcases hend with hnone | ⟨c, hc, hsome⟩
      · cases hnone.symm.trans hstep
      · have hback : c = _ := Option.some_inj.mp (hsome.symm.trans hstep)
        exact List.mem_append_left _ (hback ▸ hc)

theorem reach_split (h : Trail f start passed here) {a : α} (ha : a ∈ passed) :
    Relation.ReflTransGen (Follows f) start a ∧ Relation.ReflTransGen (Follows f) a here := by
  obtain ⟨before, after, rfl⟩ := List.append_of_mem ha
  have hsteps := h.steps
  have hfirst := h.first
  rw [List.append_assoc, List.cons_append] at hsteps hfirst
  obtain ⟨hbefore, hafter⟩ := List.isChain_split.mp hsteps
  constructor
  · cases before with
    | nil =>
      rw [List.nil_append, List.head?_cons, Option.some_inj] at hfirst
      rw [hfirst]
    | cons b before =>
      rw [List.cons_append, List.head?_cons, Option.some_inj] at hfirst
      rw [← hfirst]
      exact List.relationReflTransGen_of_exists_isChain_cons _ hbefore (by simp)
  · exact List.relationReflTransGen_of_exists_isChain_cons _ hafter (by simp)

/-- Where no cycle can be reached, nothing follows the end. -/
theorem end_of_acyclic (h : Trail f start passed here) (hend : Ended f passed here)
    (hacyclic : ∀ b, Relation.ReflTransGen (Follows f) start b →
      ¬ Relation.TransGen (Follows f) b b) : f here = none := by
  rcases hend with hnone | ⟨c, hc, hsome⟩
  · exact hnone
  · obtain ⟨hto, hfrom⟩ := h.reach_split hc
    exact absurd (Relation.TransGen.tail' hfrom hsome) (hacyclic c hto)

end Trail

/-! ## Why the end is reached -/

variable [DecidableEq α]

/-- How many values of `domain` were not passed, then whether the trail stands at one that was. -/
def remaining (domain passed : List α) (here : α) : Nat × Nat :=
  ((domain.filter (· ∉ passed)).length, if here ∈ passed then 1 else 0)

/-- A step passes a new value, or leaves one that was passed for one that was not. -/
theorem remaining_step {domain : List α} (hdomain : here ∈ domain) (hnew : next ∉ passed) :
    Prod.Lex (· < ·) (· < ·) (remaining domain (passed ++ [here]) next)
      (remaining domain passed here) := by
  unfold remaining
  by_cases hmem : here ∈ passed
  · have hsame : ∀ a : α, a ∈ passed ++ [here] ↔ a ∈ passed := by
      intro a
      rw [List.mem_append, List.mem_singleton, or_iff_left_iff_imp]
      rintro rfl
      exact hmem
    simp only [hsame, if_neg hnew, if_pos hmem]
    exact .right _ Nat.zero_lt_one
  · apply Prod.Lex.left
    have hfilter : (domain.filter fun a => decide (a ∉ passed ++ [here])) =
        (domain.filter fun a => decide (a ∉ passed)).filter (· ≠ here) := by
      rw [List.filter_filter]
      apply List.filter_congr
      intro a _
      simp [not_or, and_comm]
    rw [hfilter, List.length_filter_lt_length_iff_exists]
    exact ⟨here, List.mem_filter.mpr ⟨hdomain, by simpa using hmem⟩, by simp⟩

end chains
