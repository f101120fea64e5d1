-- Texts as lines, over any alphabet: the lines that an end symbol closes,
-- and the part after the last end symbol.
import Mathlib.Data.List.Basic

namespace lines

variable {α : Type*} [DecidableEq α]

/-- The closed lines of a text, and the open part after them. -/
def split (nl : α) : List α → List (List α) × List α
  | [] => ([], [])
  | x :: xs =>
    let (ls, r) := split nl xs
    if x = nl then ([] :: ls, r)
    else match ls with
      | [] => ([], x :: r)
      | l :: ls => ((x :: l) :: ls, r)

variable {nl : α}

/-- A text is one open part, or a line and a text. -/
theorem open_or_line (nl : α) (t : List α) :
    nl ∉ t ∨ ∃ l u, t = l ++ nl :: u ∧ nl ∉ l := by
  by_cases h : nl ∈ t
  · obtain ⟨l, u, ht, hl⟩ := List.eq_append_cons_of_mem h
    exact Or.inr ⟨l, u, ht, hl⟩
  · exact Or.inl h

theorem split_open {t : List α} (h : nl ∉ t) : split nl t = ([], t) := by
  induction t with
  | nil => rfl
  | cons x t ih =>
    simp only [List.mem_cons, not_or] at h
    simp [split, ih h.2, Ne.symm h.1]

theorem split_line {l : List α} (u : List α) (h : nl ∉ l) :
    split nl (l ++ nl :: u) = (l :: (split nl u).1, (split nl u).2) := by
  induction l with
  | nil => simp [split]
  | cons x l ih =>
    simp only [List.mem_cons, not_or] at h
    simp [split, ih h.2, Ne.symm h.1]

/-- The lines of a text and its open part make up the text. -/
theorem join_split (t : List α) :
    ((split nl t).1.map (· ++ [nl])).flatten ++ (split nl t).2 = t := by
  induction t with
  | nil => rfl
  | cons x t ih =>
    rw [split]
    rcases hs : split nl t with ⟨ls, r⟩
    rw [hs] at ih
    by_cases hx : x = nl
    · simpa [hx] using ih
    · rcases ls with _ | ⟨l, ls⟩ <;> simpa [hx] using ih

/-- Induction on a text by its lines. -/
theorem text_induction {P : List α → Prop} (nl : α) (hopen : ∀ t, nl ∉ t → P t)
    (hline : ∀ l u, nl ∉ l → P u → P (l ++ nl :: u)) (t : List α) : P t := by
  induction hn : t.length using Nat.strongRecOn generalizing t with
  | _ n ih =>
    rcases open_or_line nl t with h | ⟨l, u, rfl, hl⟩
    · exact hopen t h
    · refine hline l u hl (ih u.length ?_ u rfl)
      simp only [List.length_append, List.length_cons] at hn
      omega

omit [DecidableEq α] in
/-- A start that ends in an end symbol lies before a part without one. -/
theorem prefix_of_ended {o f l b : List α} (h : o ++ f = l ++ b)
    (hl : l = [] ∨ ∃ l', l = l' ++ [nl]) (hf : nl ∉ f) : ∃ o', o = l ++ o' ∧ b = o' ++ f := by
  rcases List.append_eq_append_iff.mp h with ⟨c, hc, hcf⟩ | ⟨c, hc, hcf⟩
  · rcases hl with rfl | ⟨l', rfl⟩
    · simp at hc
      obtain ⟨rfl, rfl⟩ := hc
      exact ⟨[], rfl, by simpa using hcf.symm⟩
    · rcases List.eq_nil_or_concat c with rfl | ⟨c', x, rfl⟩
      · exact ⟨[], by simpa using hc.symm, by simpa using hcf.symm⟩
      · rw [List.concat_eq_append, ← List.append_assoc] at hc
        have hx : nl = x := by simpa using (List.append_inj' hc rfl).2
        exact absurd (by rw [hcf, hx]; simp) hf
  · exact ⟨c, hc, hcf⟩

end lines
