-- A bidirectional dictionary. An entry that is put in replaces each entry
-- that has the same key or the same value.
import Mathlib.Data.List.Nodup

namespace bidict

structure Bidict (κ ν : Type) where
  entries : List (κ × ν)
  keys_nodup : (entries.map Prod.fst).Nodup
  values_nodup : (entries.map Prod.snd).Nodup

variable {κ ν : Type}

namespace Bidict

/-- `bidict()`, and what `clear` leaves. -/
def empty : Bidict κ ν := ⟨[], List.nodup_nil, List.nodup_nil⟩

variable [DecidableEq κ] [DecidableEq ν]

instance : DecidableEq (Bidict κ ν) := fun a b =>
  decidable_of_iff (a.entries = b.entries) (by
    cases a
    cases b
    simp)

def get? (b : Bidict κ ν) (k : κ) : Option ν := (b.entries.find? (·.1 = k)).map Prod.snd

/-- `b.inverse[v]` -/
def inverse? (b : Bidict κ ν) (v : ν) : Option κ := (b.entries.find? (·.2 = v)).map Prod.fst

/-- The entries that share neither the key nor the value. -/
def others (b : Bidict κ ν) (k : κ) (v : ν) : List (κ × ν) :=
  b.entries.filter fun e => e.1 ≠ k ∧ e.2 ≠ v

omit [DecidableEq κ] [DecidableEq ν] in
theorem nodup_concat {γ : Type} {l : List (κ × ν)} {x : κ × ν} (f : κ × ν → γ)
    (h : (l.map f).Nodup) (hx : ∀ e ∈ l, f e ≠ f x) : ((l ++ [x]).map f).Nodup := by
  rw [List.map_append, List.nodup_append]
  refine ⟨h, by simp, ?_⟩
  rintro a ha b hb rfl
  obtain ⟨e, he, rfl⟩ := List.mem_map.mp ha
  exact hx e he (by simpa using hb)

/-- `b[k] = v`, where a duplicate of the key or of the value is dropped. -/
def put (b : Bidict κ ν) (k : κ) (v : ν) : Bidict κ ν where
  entries := b.others k v ++ [(k, v)]
  keys_nodup := nodup_concat _ (b.keys_nodup.sublist (List.filter_sublist.map _))
    (by intro e he; simpa using (of_decide_eq_true (List.mem_filter.mp he).2).1)
  values_nodup := nodup_concat _ (b.values_nodup.sublist (List.filter_sublist.map _))
    (by intro e he; simpa using (of_decide_eq_true (List.mem_filter.mp he).2).2)

/-- `b.update(entries)` -/
def update (b : Bidict κ ν) (entries : List (κ × ν)) : Bidict κ ν :=
  entries.foldl (fun b e => b.put e.1 e.2) b

/-- `del b[k]`, for a key that is there. -/
def erase (b : Bidict κ ν) (k : κ) : Bidict κ ν where
  entries := b.entries.filter (·.1 ≠ k)
  keys_nodup := b.keys_nodup.sublist (List.filter_sublist.map _)
  values_nodup := b.values_nodup.sublist (List.filter_sublist.map _)

omit [DecidableEq κ] [DecidableEq ν] in
theorem find?_of_nodup {γ : Type} [DecidableEq γ] {l : List (κ × ν)} {x : κ × ν} (f : κ × ν → γ)
    (h : (l.map f).Nodup) (hx : x ∈ l) : l.find? (f · = f x) = some x := by
  have hsome : (l.find? (f · = f x)).isSome = true :=
    List.find?_isSome.mpr ⟨x, hx, by simp⟩
  obtain ⟨e, he⟩ := Option.isSome_iff_exists.mp hsome
  have hsame : f e = f x := by simpa using List.find?_some he
  rw [he, List.inj_on_of_nodup_map h (List.mem_of_find?_eq_some he) hx hsame]

omit [DecidableEq ν] in
theorem get?_eq_some_iff {b : Bidict κ ν} {k : κ} {v : ν} :
    b.get? k = some v ↔ (k, v) ∈ b.entries := by
  unfold get?
  constructor
  · intro h
    obtain ⟨e, he, rfl⟩ := Option.map_eq_some_iff.mp h
    obtain rfl : e.1 = k := by simpa using List.find?_some he
    exact List.mem_of_find?_eq_some he
  · intro h
    rw [find?_of_nodup Prod.fst b.keys_nodup h]
    rfl

omit [DecidableEq κ] in
theorem inverse?_eq_some_iff {b : Bidict κ ν} {k : κ} {v : ν} :
    b.inverse? v = some k ↔ (k, v) ∈ b.entries := by
  unfold inverse?
  constructor
  · intro h
    obtain ⟨e, he, rfl⟩ := Option.map_eq_some_iff.mp h
    obtain rfl : e.2 = v := by simpa using List.find?_some he
    exact List.mem_of_find?_eq_some he
  · intro h
    rw [find?_of_nodup Prod.snd b.values_nodup h]
    rfl

/-- The two directions of the dictionary agree. -/
theorem inverse?_iff_get? {b : Bidict κ ν} {k : κ} {v : ν} :
    b.inverse? v = some k ↔ b.get? k = some v := by
  rw [inverse?_eq_some_iff, get?_eq_some_iff]

omit [DecidableEq ν] in
theorem get?_erase (b : Bidict κ ν) (k k' : κ) (v : ν) :
    (b.erase k).get? k' = some v ↔ b.get? k' = some v ∧ k' ≠ k := by
  rw [get?_eq_some_iff, get?_eq_some_iff]
  simp [erase]

/-! ## Entries that are put in -/

section
variable {b : Bidict κ ν} {k : κ} {v : ν} {l l' : List (κ × ν)}

theorem get?_put (b : Bidict κ ν) (k k' : κ) (v v' : ν) :
    (b.put k v).get? k' = some v' ↔
      (k' = k ∧ v' = v) ∨ b.get? k' = some v' ∧ k' ≠ k ∧ v' ≠ v := by
  rw [get?_eq_some_iff, get?_eq_some_iff]
  simp only [put, others, List.mem_append, List.mem_filter, List.mem_singleton, Prod.mk.injEq,
    decide_eq_true_eq]
  exact or_comm

omit [DecidableEq κ] [DecidableEq ν] in
theorem eq_of_entries {b b' : Bidict κ ν} (h : b.entries = b'.entries) : b = b' := by
  cases b
  cases b'
  cases h
  rfl

/-- An entry that is put in again changes nothing. -/
theorem put_put (b : Bidict κ ν) (k : κ) (v : ν) : (b.put k v).put k v = b.put k v := by
  have hothers : (b.put k v).others k v = b.others k v := by
    unfold others put others
    rw [List.filter_append, List.filter_filter]
    simp
  refine eq_of_entries ?_
  show (b.put k v).others k v ++ [(k, v)] = b.others k v ++ [(k, v)]
  rw [hothers]

theorem update_cons (b : Bidict κ ν) (e : κ × ν) (l : List (κ × ν)) :
    b.update (e :: l) = (b.put e.1 e.2).update l := rfl

/-- Each entry was put in, or was there before. -/
theorem mem_of_get?_update (h : (b.update l).get? k = some v) :
    (k, v) ∈ l ∨ b.get? k = some v := by
  induction l generalizing b with
  | nil => exact Or.inr h
  | cons e l ih =>
    rw [update_cons] at h
    rcases ih h with hl | hput
    · exact Or.inl (List.mem_cons_of_mem e hl)
    · rcases (get?_put b e.1 k e.2 v).mp hput with ⟨rfl, rfl⟩ | ⟨hget, -⟩
      · exact Or.inl List.mem_cons_self
      · exact Or.inr hget

theorem get?_update_of_get? (h : b.get? k = some v)
    (hl : ∀ e ∈ l, e.1 = k ∨ e.2 = v → e = (k, v)) : (b.update l).get? k = some v := by
  induction l generalizing b with
  | nil => exact h
  | cons e l ih =>
    rw [update_cons]
    refine ih ?_ fun x hx => hl x (List.mem_cons_of_mem e hx)
    rw [get?_put]
    by_cases he : e.1 = k ∨ e.2 = v
    · obtain rfl := hl e List.mem_cons_self he
      exact Or.inl ⟨rfl, rfl⟩
    · obtain ⟨hk, hv⟩ := not_or.mp he
      exact Or.inr ⟨h, Ne.symm hk, Ne.symm hv⟩

/-- An entry that shares neither its key nor its value with another one stays. -/
theorem get?_update_of_mem (h : (k, v) ∈ l) (hl : ∀ e ∈ l, e.1 = k ∨ e.2 = v → e = (k, v)) :
    (b.update l).get? k = some v := by
  induction l generalizing b with
  | nil => simp at h
  | cons e l ih =>
    have htail : ∀ x ∈ l, x.1 = k ∨ x.2 = v → x = (k, v) := fun x hx =>
      hl x (List.mem_cons_of_mem e hx)
    rw [update_cons]
    rcases List.mem_cons.mp h with rfl | h
    · exact get?_update_of_get? ((get?_put b k k v v).mpr (Or.inl ⟨rfl, rfl⟩)) htail
    · exact ih h htail

theorem get?_update_of_nodup (hkeys : (l.map Prod.fst).Nodup) (hvalues : (l.map Prod.snd).Nodup) :
    (b.update l).get? k = some v ↔
      (k, v) ∈ l ∨ b.get? k = some v ∧ ∀ e ∈ l, e.1 ≠ k ∧ e.2 ≠ v := by
  induction l generalizing b with
  | nil => simp [update]
  | cons e l ih =>
    rw [List.map_cons, List.nodup_cons] at hkeys hvalues
    rw [update_cons, ih hkeys.2 hvalues.2, get?_put, List.mem_cons, List.forall_mem_cons,
      Prod.ext_iff]
    have hkey : k = e.1 → ∀ x ∈ l, x.1 ≠ k := by
      rintro rfl x hx hxe
      exact hkeys.1 (hxe ▸ List.mem_map_of_mem hx)
    have hvalue : v = e.2 → ∀ x ∈ l, x.2 ≠ v := by
      rintro rfl x hx hxe
      exact hvalues.1 (hxe ▸ List.mem_map_of_mem hx)
    constructor
    · rintro (h | ⟨h | ⟨h, hk, hv⟩, hothers⟩)
      · exact Or.inl (Or.inr h)
      · exact Or.inl (Or.inl h)
      · exact Or.inr ⟨h, ⟨hk.symm, hv.symm⟩, hothers⟩
    · rintro ((⟨hk, hv⟩ | h) | ⟨h, hne, hothers⟩)
      · exact Or.inr ⟨Or.inl ⟨hk, hv⟩, fun x hx => ⟨hkey hk x hx, hvalue hv x hx⟩⟩
      · exact Or.inl h
      · exact Or.inr ⟨Or.inr ⟨h, hne.1.symm, hne.2.symm⟩, hothers⟩

/-- The order of entries that share nothing does not matter. -/
theorem get?_update_perm (h : l.Perm l') (hkeys : (l.map Prod.fst).Nodup)
    (hvalues : (l.map Prod.snd).Nodup) : (b.update l).get? = (b.update l').get? := by
  funext k
  apply Option.ext
  intro v
  rw [get?_update_of_nodup hkeys hvalues, get?_update_of_nodup ((h.map _).nodup_iff.mp hkeys)
    ((h.map _).nodup_iff.mp hvalues), h.mem_iff]
  simp only [h.mem_iff]

end

end Bidict

end bidict
