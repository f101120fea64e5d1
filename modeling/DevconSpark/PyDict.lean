-- Python dicts as lists of keys and values, in the order of insertion.
import Mathlib.Data.List.Nodup

namespace py_dict

variable {κ ν : Type} [DecidableEq κ]

/-- `kvs.get(k)` -/
def get? (kvs : List (κ × ν)) (k : κ) : Option ν := kvs.lookup k

/-- `kvs[k] = v`: a new key comes last, a known one keeps its place. -/
def setItem (kvs : List (κ × ν)) (k : κ) (v : ν) : List (κ × ν) :=
  if kvs.any (·.1 = k) then kvs.map fun p => if p.1 = k then (k, v) else p
  else kvs ++ [(k, v)]

/-- `del kvs[k]` -/
def delItem (kvs : List (κ × ν)) (k : κ) : List (κ × ν) := kvs.filter (·.1 ≠ k)

/-- `dict(kvs)` -/
def dictOf (kvs : List (κ × ν)) : List (κ × ν) :=
  kvs.foldl (fun d p => setItem d p.1 p.2) []

@[simp] theorem get?_nil (k : κ) : get? ([] : List (κ × ν)) k = none := rfl

@[simp] theorem get?_cons (p : κ × ν) (kvs : List (κ × ν)) (k : κ) :
    get? (p :: kvs) k = if k = p.1 then some p.2 else get? kvs k := by
  unfold get?
  rw [List.lookup_cons]
  by_cases h : k = p.1
  · rw [if_pos h, beq_iff_eq.mpr h]
  · rw [if_neg h, beq_eq_false_iff_ne.mpr h]

theorem get?_of_not_mem {kvs : List (κ × ν)} {k : κ} (h : k ∉ kvs.map (·.1)) :
    get? kvs k = none := by
  induction kvs with
  | nil => rfl
  | cons p kvs ih =>
    rw [List.map_cons, List.mem_cons, not_or] at h
    rw [get?_cons, if_neg h.1]
    exact ih h.2

theorem get?_of_mem {kvs : List (κ × ν)} {k : κ} {v : ν} (h : (kvs.map (·.1)).Nodup)
    (hm : (k, v) ∈ kvs) : get? kvs k = some v := by
  induction kvs with
  | nil => simp at hm
  | cons p kvs ih =>
    rw [List.map_cons, List.nodup_cons] at h
    rcases List.mem_cons.mp hm with rfl | hm
    · simp
    · have hne : k ≠ p.1 := by
        rintro rfl
        exact h.1 (List.mem_map.mpr ⟨_, hm, rfl⟩)
      rw [get?_cons, if_neg hne]
      exact ih h.2 hm

theorem mem_of_get? {kvs : List (κ × ν)} {k : κ} {v : ν} (h : get? kvs k = some v) :
    (k, v) ∈ kvs := by
  induction kvs with
  | nil => simp at h
  | cons p kvs ih =>
    rw [get?_cons] at h
    by_cases hk : k = p.1
    · subst hk
      rw [if_pos rfl] at h
      cases h
      exact List.mem_cons_self
    · rw [if_neg hk] at h
      exact List.mem_cons_of_mem _ (ih h)

theorem not_mem_of_get? {kvs : List (κ × ν)} {k : κ} (h : get? kvs k = none) :
    k ∉ kvs.map (·.1) := by
  induction kvs with
  | nil => simp
  | cons p kvs ih =>
    rw [get?_cons] at h
    by_cases hk : k = p.1
    · rw [if_pos hk] at h
      cases h
    · rw [if_neg hk] at h
      rw [List.map_cons, List.mem_cons, not_or]
      exact ⟨hk, ih h⟩

theorem setItem_new {kvs : List (κ × ν)} {k : κ} (v : ν) (h : k ∉ kvs.map (·.1)) :
    setItem kvs k v = kvs ++ [(k, v)] := by
  rw [setItem, if_neg]
  intro hany
  obtain ⟨p, hp, hk⟩ := List.any_eq_true.mp hany
  apply h
  rw [← of_decide_eq_true hk]
  exact List.mem_map_of_mem hp

theorem setItem_middle {a b : List (κ × ν)} {k : κ} {v : ν} (w : ν) (ha : k ∉ a.map (·.1))
    (hb : k ∉ b.map (·.1)) : setItem (a ++ (k, v) :: b) k w = a ++ (k, w) :: b := by
  have hother : ∀ l : List (κ × ν), k ∉ l.map (·.1) →
      (l.map fun p => if p.1 = k then (k, w) else p) = l := by
    intro l hl
    refine (List.map_congr_left fun p hp => ?_).trans (List.map_id l)
    have hne : p.1 ≠ k := fun heq => hl (heq ▸ List.mem_map_of_mem hp)
    exact if_neg hne
  rw [setItem, if_pos (by simp), List.map_append, List.map_cons, hother a ha, hother b hb,
    if_pos rfl]

theorem delItem_middle {a b : List (κ × ν)} {k : κ} {v : ν} (ha : k ∉ a.map (·.1))
    (hb : k ∉ b.map (·.1)) : delItem (a ++ (k, v) :: b) k = a ++ b := by
  have hother : ∀ l : List (κ × ν), k ∉ l.map (·.1) → l.filter (·.1 ≠ k) = l := by
    intro l hl
    apply List.filter_eq_self.mpr
    intro p hp
    have hne : p.1 ≠ k := fun heq => hl (heq ▸ List.mem_map_of_mem hp)
    simpa using hne
  rw [delItem, List.filter_append, List.filter_cons_of_neg (by simp), hother a ha, hother b hb]

theorem get?_middle {a b : List (κ × ν)} {k : κ} {v : ν} (ha : k ∉ a.map (·.1)) :
    get? (a ++ (k, v) :: b) k = some v := by
  induction a with
  | nil => simp
  | cons p a ih =>
    rw [List.map_cons, List.mem_cons, not_or] at ha
    rw [List.cons_append, get?_cons, if_neg ha.1, ih ha.2]

theorem get?_setItem_self (kvs : List (κ × ν)) (k : κ) (v : ν) :
    get? (setItem kvs k v) k = some v := by
  by_cases h : k ∈ kvs.map (·.1)
  · obtain ⟨p, hp, hk⟩ := List.mem_map.mp h
    rw [setItem, if_pos (List.any_eq_true.mpr ⟨p, hp, decide_eq_true hk⟩)]
    clear h
    induction kvs with
    | nil => cases hp
    | cons q kvs ih =>
      rw [List.map_cons, get?_cons]
      by_cases hq : q.1 = k
      · simp [hq]
      · have hp' : p ∈ kvs := by
          rcases List.mem_cons.mp hp with rfl | hp
          · exact absurd hk hq
          · exact hp
        rw [if_neg hq, if_neg (Ne.symm hq)]
        exact ih hp'
  · rw [setItem_new v h]
    exact get?_middle h

theorem get?_setItem_ne (kvs : List (κ × ν)) {j k : κ} (v : ν) (h : j ≠ k) :
    get? (setItem kvs k v) j = get? kvs j := by
  unfold setItem
  split
  · clear * - h
    induction kvs with
    | nil => rfl
    | cons p kvs ih =>
      rw [List.map_cons, get?_cons, get?_cons, ih]
      by_cases hp : p.1 = k
      · rw [if_pos hp, if_neg h, if_neg (hp ▸ h)]
      · rw [if_neg hp]
  · clear * - h
    induction kvs with
    | nil => simp [h]
    | cons p kvs ih => rw [List.cons_append, get?_cons, get?_cons, ih]

theorem get?_delItem_ne (kvs : List (κ × ν)) {j k : κ} (h : j ≠ k) :
    get? (delItem kvs k) j = get? kvs j := by
  induction kvs with
  | nil => rfl
  | cons p kvs ih =>
    unfold delItem at ih ⊢
    rw [List.filter_cons, get?_cons]
    by_cases hp : p.1 = k
    · rw [if_neg (by simpa using hp), if_neg (hp ▸ h), ih]
    · rw [if_pos (by simpa using hp), get?_cons, ih]

/-- What stands before an entry, and what stands after it. -/
theorem split_of_get? {kvs : List (κ × ν)} {k : κ} {v : ν} (h : (kvs.map (·.1)).Nodup)
    (hget : get? kvs k = some v) :
    ∃ a b, kvs = a ++ (k, v) :: b ∧ k ∉ a.map (·.1) ∧ k ∉ b.map (·.1) := by
  induction kvs with
  | nil => simp at hget
  | cons p kvs ih =>
    rw [List.map_cons, List.nodup_cons] at h
    by_cases hk : k = p.1
    · subst hk
      rw [get?_cons, if_pos rfl] at hget
      cases hget
      exact ⟨[], kvs, rfl, by simp, h.1⟩
    · rw [get?_cons, if_neg hk] at hget
      obtain ⟨a, b, rfl, ha, hb⟩ := ih h.2 hget
      exact ⟨p :: a, b, rfl, by simpa [hk] using ha, hb⟩

theorem get?_middle_ne {a b : List (κ × ν)} {k j : κ} (v w : ν) (h : j ≠ k) :
    get? (a ++ (k, v) :: b) j = get? (a ++ (k, w) :: b) j := by
  induction a with
  | nil => simp [h]
  | cons p a ih => rw [List.cons_append, List.cons_append, get?_cons, get?_cons, ih]

/-- No pair is lost where the keys differ. -/
theorem dictOf_nodup {kvs : List (κ × ν)} (h : (kvs.map (·.1)).Nodup) : dictOf kvs = kvs := by
  have hfrom : ∀ l d : List (κ × ν), ((d ++ l).map (·.1)).Nodup →
      l.foldl (fun d p => setItem d p.1 p.2) d = d ++ l := by
    intro l
    induction l with
    | nil => simp
    | cons p l ih =>
      intro d hd
      have hnew : p.1 ∉ d.map (·.1) := by
        rw [List.map_append, List.map_cons, List.nodup_append] at hd
        intro hp
        exact hd.2.2 p.1 hp p.1 List.mem_cons_self rfl
      rw [List.foldl_cons, setItem_new p.2 hnew, ih _ (by simpa using hd)]
      simp
  exact hfrom kvs [] h

theorem mem_setItem {kvs : List (κ × ν)} {k : κ} {v : ν} {p : κ × ν} (h : p ∈ setItem kvs k v) :
    p = (k, v) ∨ p ∈ kvs := by
  unfold setItem at h
  split at h
  · obtain ⟨q, hq, rfl⟩ := List.mem_map.mp h
    split
    · exact Or.inl rfl
    · exact Or.inr hq
  · rcases List.mem_append.mp h with h | h
    · exact Or.inr h
    · exact Or.inl (List.mem_singleton.mp h)

/-- A dict holds no pairs but those it is made of. -/
theorem mem_dictOf {kvs : List (κ × ν)} {p : κ × ν} (h : p ∈ dictOf kvs) : p ∈ kvs := by
  have hfrom : ∀ l d : List (κ × ν), p ∈ l.foldl (fun d p => setItem d p.1 p.2) d →
      p ∈ d ∨ p ∈ l := by
    intro l
    induction l with
    | nil => simp
    | cons q l ih =>
      intro d hd
      rcases ih _ hd with hd | hl
      · rcases mem_setItem hd with rfl | hd
        · simp
        · exact Or.inl hd
      · exact Or.inr (List.mem_cons_of_mem q hl)
  simpa using hfrom kvs [] h

theorem mem_setItem_self (kvs : List (κ × ν)) (k : κ) (v : ν) : (k, v) ∈ setItem kvs k v := by
  unfold setItem
  split
  · rename_i hany
    obtain ⟨p, hp, hk⟩ := List.any_eq_true.mp hany
    exact List.mem_map.mpr ⟨p, hp, if_pos (of_decide_eq_true hk)⟩
  · simp

theorem mem_setItem_of_ne {kvs : List (κ × ν)} {k : κ} (v : ν) {p : κ × ν} (hp : p ∈ kvs)
    (hne : p.1 ≠ k) : p ∈ setItem kvs k v := by
  unfold setItem
  split
  · exact List.mem_map.mpr ⟨p, hp, if_neg hne⟩
  · exact List.mem_append_left _ hp

/-- A pair stays where no pair of its key has another value. -/
theorem mem_dictOf_of_unique {kvs : List (κ × ν)} {p : κ × ν} (h : p ∈ kvs)
    (hunique : ∀ q ∈ kvs, q.1 = p.1 → q = p) : p ∈ dictOf kvs := by
  have hfrom : ∀ l d : List (κ × ν), (p ∈ d ∨ p ∈ l) → (∀ q ∈ l, q.1 = p.1 → q = p) →
      p ∈ l.foldl (fun d p => setItem d p.1 p.2) d := by
    intro l
    induction l with
    | nil => simp
    | cons q l ih =>
      intro d hd hl
      refine ih _ ?_ fun r hr => hl r (List.mem_cons_of_mem q hr)
      by_cases hq : q.1 = p.1
      · obtain rfl := hl q List.mem_cons_self hq
        exact Or.inl (mem_setItem_self d q.1 q.2)
      · rcases hd with hd | hd
        · exact Or.inl (mem_setItem_of_ne q.2 hd (Ne.symm hq))
        · rcases List.mem_cons.mp hd with rfl | hd
          · exact absurd rfl hq
          · exact Or.inr hd
  exact hfrom kvs [] (Or.inr h) hunique

theorem setItem_nodup {kvs : List (κ × ν)} (k : κ) (v : ν) (h : (kvs.map (·.1)).Nodup) :
    ((setItem kvs k v).map (·.1)).Nodup := by
  by_cases hk : k ∈ kvs.map (·.1)
  · have hkeys : (setItem kvs k v).map (·.1) = kvs.map (·.1) := by
      obtain ⟨p, hp, hpk⟩ := List.mem_map.mp hk
      have hany : kvs.any (·.1 = k) = true := List.any_eq_true.mpr ⟨p, hp, decide_eq_true hpk⟩
      rw [setItem, if_pos hany, List.map_map]
      apply List.map_congr_left
      intro q _
      simp only [Function.comp]
      split
      · rename_i hq
        exact hq.symm
      · rfl
    rw [hkeys]
    exact h
  · rw [setItem_new v hk, List.map_append, List.nodup_append]
    refine ⟨h, by simp, fun a ha b hb => ?_⟩
    rw [List.mem_singleton.mp hb]
    rintro rfl
    exact hk ha

theorem dictOf_keys_nodup (kvs : List (κ × ν)) : ((dictOf kvs).map (·.1)).Nodup := by
  have hfrom : ∀ l d : List (κ × ν), (d.map (·.1)).Nodup →
      ((l.foldl (fun d p => setItem d p.1 p.2) d).map (·.1)).Nodup := by
    intro l
    induction l with
    | nil => simp
    | cons p l ih => exact fun d hd => ih _ (setItem_nodup p.1 p.2 hd)
  exact hfrom kvs [] (by simp)

end py_dict
