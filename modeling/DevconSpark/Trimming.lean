-- Lists without the elements of a kind at their two ends, as a text is
-- stripped of its white space or of its quotes.
import Mathlib.Data.List.DropRight

namespace trimming

variable {α : Type} (p : α → Bool)

/-- What is left when the elements of `p` are taken off both ends. -/
def trim (l : List α) : List α := ((l.dropWhile p).reverse.dropWhile p).reverse

theorem trim_eq (l : List α) : trim p l = (l.dropWhile p).rdropWhile p := rfl

/-- Neither the first nor the last element is one of `p`. -/
def Tight (l : List α) : Prop :=
  (∀ a, l.head? = some a → p a = false) ∧ (∀ a, l.getLast? = some a → p a = false)

theorem trim_inside (l : List α) : trim p l <:+: l :=
  (List.rdropWhile_prefix p _).isInfix.trans (List.dropWhile_suffix p).isInfix

theorem mem_of_mem_trim {l : List α} {a : α} (h : a ∈ trim p l) : a ∈ l :=
  (trim_inside p l).subset h

theorem dropWhile_head {l : List α} {a : α} (h : (l.dropWhile p).head? = some a) :
    p a = false := by
  have hnot := List.head?_dropWhile_not p l
  rw [h] at hnot
  simpa using hnot

/-- The end of a list that is dropped leaves the head as it is. -/
theorem rdropWhile_head {l : List α} {a : α} (h : (l.rdropWhile p).head? = some a) :
    l.head? = some a := by
  obtain ⟨r, hr⟩ := List.rdropWhile_prefix p l
  rw [← hr, List.head?_append, h]
  rfl

theorem rdropWhile_last {l : List α} {a : α} (h : (l.rdropWhile p).getLast? = some a) :
    p a = false := by
  unfold List.rdropWhile at h
  rw [List.getLast?_reverse] at h
  exact dropWhile_head p h

theorem trim_tight (l : List α) : Tight p (trim p l) := by
  rw [trim_eq]
  constructor
  · intro a ha
    exact dropWhile_head p (rdropWhile_head p ha)
  · intro a ha
    exact rdropWhile_last p ha

variable {p}

theorem dropWhile_of_head {l : List α} (h : ∀ a, l.head? = some a → p a = false) :
    l.dropWhile p = l := by
  cases l with
  | nil => rfl
  | cons a l => simp [h a rfl]

theorem trim_of_tight {l : List α} (h : Tight p l) : trim p l = l := by
  have hlast : l.reverse.dropWhile p = l.reverse := by
    apply dropWhile_of_head
    rw [List.head?_reverse]
    exact h.2
  rw [trim, dropWhile_of_head h.1, hlast, List.reverse_reverse]

/-- Trimming changes exactly the lists with an element of `p` at an end. -/
theorem trim_eq_self_iff {l : List α} : trim p l = l ↔ Tight p l := by
  constructor
  · intro h
    rw [← h]
    exact trim_tight p l
  · exact trim_of_tight

/-- An element of the list that is not one of `p` stays. -/
theorem mem_trim {l : List α} {a : α} (h : a ∈ l) (ha : p a = false) : a ∈ trim p l := by
  have hdrop : ∀ l : List α, a ∈ l → a ∈ l.dropWhile p := by
    intro l hl
    rw [← List.takeWhile_append_dropWhile (p := p) (l := l)] at hl
    rcases List.mem_append.mp hl with hl | hl
    · simp [List.mem_takeWhile_imp hl] at ha
    · exact hl
  rw [trim, List.mem_reverse]
  apply hdrop
  rw [List.mem_reverse]
  exact hdrop l h

/-- A list that begins with another element keeps it first. -/
theorem trim_cons {a : α} (ha : p a = false) (l : List α) : ∃ r, trim p (a :: l) = a :: r := by
  have hdrop : (a :: l).dropWhile p = a :: l := by simp [ha]
  have hmem := mem_trim (p := p) (List.mem_cons_self (a := a) (l := l)) ha
  rw [trim_eq, hdrop] at hmem ⊢
  cases hr : (a :: l).rdropWhile p with
  | nil => simp [hr] at hmem
  | cons b r =>
    have hhead := rdropWhile_head p (show ((a :: l).rdropWhile p).head? = some b by rw [hr]; rfl)
    cases hhead
    exact ⟨r, rfl⟩

/-- More of `p` around a list is taken off with the rest. -/
theorem trim_around {a b : α} (ha : p a = true) (hb : p b = true) (l : List α) :
    trim p (a :: (l ++ [b])) = trim p l := by
  rw [trim_eq, trim_eq, List.dropWhile_cons_of_pos ha, List.dropWhile_append]
  split
  · rename_i hnil
    rw [List.isEmpty_iff.mp hnil]
    simp [hb]
  · exact List.rdropWhile_concat_pos p _ b hb

theorem trim_eq_of_twice {q : α → Bool} {l : List α} (h : trim q (trim p l) = l) :
    Tight p l ∧ Tight q l := by
  have hlength := (trim_inside q (trim p l)).length_le
  rw [h] at hlength
  have hself : trim p l = l := (trim_inside p l).eq_of_length_le hlength
  rw [hself] at h
  exact ⟨trim_eq_self_iff.mp hself, trim_eq_self_iff.mp h⟩

end trimming
