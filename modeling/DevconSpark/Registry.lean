-- Registries: dicts of entries that know their own key, and that may have a
-- label. No key and no label belongs to two entries.
import DevconSpark.PyDict

open py_dict

namespace registry

variable {κ ν β : Type} {key : ν → κ} {label : ν → Option β}

/-- The labels of the entries, in order. -/
def labels (label : ν → Option β) (kvs : List (κ × ν)) : List β := kvs.filterMap fun p => label p.2

/-- Each entry is at its own key, and no two entries have a label in common. An entry without
a label shares it with none. -/
structure Registered (key : ν → κ) (label : ν → Option β) (kvs : List (κ × ν)) : Prop where
  keys : (kvs.map (·.1)).Nodup
  own_key : ∀ p ∈ kvs, key p.2 = p.1
  labels : (labels label kvs).Nodup

variable {kvs a b : List (κ × ν)} {k : κ} {v w : ν}

theorem labels_cons (p : κ × ν) (kvs : List (κ × ν)) :
    labels label (p :: kvs) = (label p.2).toList ++ labels label kvs := by
  unfold labels
  rw [List.filterMap_cons]
  cases label p.2 <;> rfl

theorem labels_append (a b : List (κ × ν)) :
    labels label (a ++ b) = labels label a ++ labels label b := List.filterMap_append

theorem mem_labels {name : β} : name ∈ labels label kvs ↔ ∃ p ∈ kvs, label p.2 = some name :=
  List.mem_filterMap

namespace Registered

theorem sublist (h : Registered key label kvs) (hsub : List.Sublist a kvs) :
    Registered key label a where
  keys := h.keys.sublist (hsub.map _)
  own_key p hp := h.own_key p (hsub.mem hp)
  labels := h.labels.sublist (hsub.filterMap _)

/-- A label tells its entry. -/
theorem unique (h : Registered key label kvs) {p q : κ × ν} {name : β} (hp : p ∈ kvs)
    (hq : q ∈ kvs) (hpname : label p.2 = some name) (hqname : label q.2 = some name) : p = q := by
  induction kvs with
  | nil => simp at hp
  | cons r kvs ih =>
    have hnot : label r.2 = some name → ∀ s ∈ kvs, label s.2 ≠ some name := by
      intro hr s hs hsname
      have hlabels := h.labels
      rw [labels_cons, hr, Option.toList_some, List.singleton_append, List.nodup_cons] at hlabels
      exact hlabels.1 (mem_labels.mpr ⟨s, hs, hsname⟩)
    rcases List.mem_cons.mp hp with hpr | hp <;> rcases List.mem_cons.mp hq with hqr | hq
    · rw [hpr, hqr]
    · exact absurd hqname (hnot (hpr ▸ hpname) q hq)
    · exact absurd hpname (hnot (hqr ▸ hqname) p hp)
    · exact ih (h.sublist (List.sublist_cons_self r kvs)) hp hq

/-- The first entry with a label is the only one. -/
theorem find [DecidableEq β] (h : Registered key label kvs) {p : κ × ν} {name : β} (hp : p ∈ kvs)
    (hname : label p.2 = some name) : kvs.find? (label ·.2 = some name) = some p := by
  cases hfind : kvs.find? (label ·.2 = some name) with
  | none =>
    rw [List.find?_eq_none] at hfind
    exact absurd (decide_eq_true hname) (hfind p hp)
  | some q =>
    have hq : label q.2 = some name := by simpa using List.find?_some hfind
    rw [h.unique (List.mem_of_find?_eq_some hfind) hp hq hname]

/-- An entry whose key and label are new may stand anywhere. -/
theorem insert (h : Registered key label (a ++ b)) (hkey : key v = k)
    (hk : k ∉ (a ++ b).map (·.1))
    (hlabel : ∀ name, label v = some name → ∀ p ∈ a ++ b, label p.2 ≠ some name) :
    Registered key label (a ++ (k, v) :: b) where
  keys := by
    rw [List.map_append, List.map_cons, List.nodup_middle, ← List.map_append, List.nodup_cons]
    exact ⟨hk, h.keys⟩
  own_key p hp := by
    rcases List.mem_append.mp hp with hp | hp
    · exact h.own_key p (List.mem_append_left _ hp)
    · rcases List.mem_cons.mp hp with rfl | hp
      · exact hkey
      · exact h.own_key p (List.mem_append_right _ hp)
  labels := by
    have hothers := h.labels
    rw [labels_append, labels_cons]
    cases hname : label v with
    | none => rwa [Option.toList_none, List.nil_append, ← labels_append]
    | some name =>
      rw [Option.toList_some, List.singleton_append, List.nodup_middle, ← labels_append,
        List.nodup_cons]
      refine ⟨fun hmem => ?_, hothers⟩
      obtain ⟨p, hp, hpname⟩ := mem_labels.mp hmem
      exact hlabel name hname p hp hpname

variable [DecidableEq κ]

theorem add (h : Registered key label kvs) (hkey : key v = k) (hnew : get? kvs k = none)
    (hlabel : ∀ name, label v = some name → ∀ p ∈ kvs, label p.2 ≠ some name) :
    Registered key label (setItem kvs k v) := by
  have hk : k ∉ kvs.map (·.1) := not_mem_of_get? hnew
  rw [setItem_new v hk]
  apply insert <;> simpa only [List.append_nil]

/-- An entry may change, and take a label that no other entry has. -/
theorem replace (h : Registered key label kvs) (hget : get? kvs k = some w) (hkey : key v = k)
    (hlabel : ∀ name, label v = some name → ∀ p ∈ kvs, label p.2 = some name → p.1 = k) :
    Registered key label (setItem kvs k v) := by
  obtain ⟨a, b, rfl, ha, hb⟩ := split_of_get? h.keys hget
  rw [setItem_middle v ha hb]
  have hsub : List.Sublist (a ++ b) (a ++ (k, w) :: b) :=
    (List.sublist_cons_self _ b).append_left a
  have hk : k ∉ (a ++ b).map (·.1) := by
    rw [List.map_append, List.mem_append, not_or]
    exact ⟨ha, hb⟩
  refine (h.sublist hsub).insert hkey hk fun name hname p hp hpname => hk ?_
  rw [← hlabel name hname p (hsub.mem hp) hpname]
  exact List.mem_map_of_mem hp

/-- No other entry has the label of an entry that kept it. -/
theorem same_label (h : Registered key label kvs) (hget : get? kvs k = some w)
    (hlabel : label v = label w) :
    ∀ name, label v = some name → ∀ p ∈ kvs, label p.2 = some name → p.1 = k := by
  intro name hname p hp hpname
  rw [hlabel] at hname
  rw [h.unique hp (mem_of_get? hget) hpname hname]

theorem delete (h : Registered key label kvs) (k : κ) : Registered key label (delItem kvs k) :=
  h.sublist List.filter_sublist

end Registered

end registry
