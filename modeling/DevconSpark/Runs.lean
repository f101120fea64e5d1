-- Runs of a state machine that takes one action at a time, over any type of
-- states and of actions. An action that is not possible ends the run with
-- `none`.
import Mathlib.Data.List.Induction

namespace runs

variable {σ α : Type*} (step : σ → α → Option σ)

/-- The state after a list of actions. -/
def run (s : σ) (as : List α) : Option σ := as.foldlM step s

/-- A condition that holds of each step that a run takes. -/
def Along (P : σ → α → Prop) : σ → List α → Prop
  | _, [] => True
  | s, a :: as => P s a ∧ ∀ t, step s a = some t → Along P t as

instance decidableAlong {P : σ → α → Prop} [∀ s a, Decidable (P s a)] :
    (s : σ) → (as : List α) → Decidable (Along step P s as)
  | _, [] => isTrue trivial
  | s, a :: as =>
    match h : step s a with
    | none =>
      decidable_of_iff (P s a) ⟨fun hp => ⟨hp, fun t ht => by simp [h] at ht⟩, fun hp => hp.1⟩
    | some t =>
      have : Decidable (Along step P t as) := decidableAlong t as
      decidable_of_iff (P s a ∧ Along step P t as)
        ⟨fun hp => ⟨hp.1, fun u hu => by rw [h] at hu; cases hu; exact hp.2⟩,
          fun hp => ⟨hp.1, hp.2 t h⟩⟩

variable {step}

@[simp] theorem run_nil (s : σ) : run step s [] = some s := rfl

theorem run_cons (s : σ) (a : α) (as : List α) :
    run step s (a :: as) = (step s a).bind fun t => run step t as := by
  simp [run, List.foldlM_cons]

theorem run_append (s : σ) (as bs : List α) :
    run step s (as ++ bs) = (run step s as).bind fun t => run step t bs := by
  simp [run, List.foldlM_append]

theorem run_cons_some {s u : σ} {a : α} {as : List α} (h : run step s (a :: as) = some u) :
    ∃ t, step s a = some t ∧ run step t as = some u := by
  rw [run_cons] at h
  exact Option.bind_eq_some_iff.mp h

theorem run_append_some {s u : σ} {as bs : List α} (h : run step s (as ++ bs) = some u) :
    ∃ t, run step s as = some t ∧ run step t bs = some u := by
  rw [run_append] at h
  exact Option.bind_eq_some_iff.mp h

theorem along_and {P Q : σ → α → Prop} {s : σ} {as : List α} (hp : Along step P s as)
    (hq : Along step Q s as) : Along step (fun s a => P s a ∧ Q s a) s as := by
  induction as generalizing s with
  | nil => trivial
  | cons a as ih => exact ⟨⟨hp.1, hq.1⟩, fun t ht => ih (hp.2 t ht) (hq.2 t ht)⟩

/-- What each step keeps, as long as the steps meet a condition, holds after
a run whose steps meet it. -/
theorem along_invariant {I : σ → Prop} {P : σ → α → Prop}
    (hstep : ∀ s a t, I s → P s a → step s a = some t → I t)
    {s t : σ} {as : List α} (hs : I s) (hp : Along step P s as) (ht : run step s as = some t) :
    I t := by
  induction as generalizing s with
  | nil =>
    cases ht
    exact hs
  | cons a as ih =>
    obtain ⟨u, hu, hrun⟩ := run_cons_some ht
    exact ih (hstep s a u hs hp.1 hu) (hp.2 u hu) hrun

/-- What each step keeps holds after a run. -/
theorem invariant {I : σ → Prop} (hstep : ∀ s a t, I s → step s a = some t → I t)
    {s t : σ} {as : List α} (hs : I s) (ht : run step s as = some t) : I t := by
  induction as generalizing s with
  | nil =>
    cases ht
    exact hs
  | cons a as ih =>
    obtain ⟨u, hu, hrun⟩ := run_cons_some ht
    exact ih (hstep s a u hs hu) hrun

/-! ## Runs that are matched

Another machine takes some steps of its own for each step of a run. -/

section matched

variable {τ β : Type*} (step) (step' : τ → β → Option τ) (R : σ → τ → Prop)

/-- After each step of a run, what the other machine did so far leads to a related state. -/
def Matched (s : σ) (t : τ) (as : List α) (parts : List (List β)) : Prop :=
  parts.length = as.length ∧ ∀ n u, run step s (as.take n) = some u →
    ∃ v, run step' t (parts.take n).flatten = some v ∧ R u v

variable {step} {step'} {R}

theorem matched_nil {s : σ} {t : τ} (hR : R s t) : Matched step step' R s t [] [] := by
  refine ⟨rfl, fun n u hu => ⟨t, by simp, ?_⟩⟩
  rw [List.take_nil] at hu
  cases hu
  exact hR

theorem matched_cons {s s' : σ} {t t' : τ} {a : α} {as : List α} {part : List β}
    {parts : List (List β)} (hR : R s t) (hs : step s a = some s')
    (ht : run step' t part = some t') (h : Matched step step' R s' t' as parts) :
    Matched step step' R s t (a :: as) (part :: parts) := by
  refine ⟨by simp [h.1], fun n u hu => ?_⟩
  cases n with
  | zero =>
    cases hu
    exact ⟨t, rfl, hR⟩
  | succ n =>
    rw [List.take_succ_cons, run_cons, hs] at hu
    obtain ⟨v, hv, hRv⟩ := h.2 n u hu
    refine ⟨v, ?_, hRv⟩
    rw [List.take_succ_cons, List.flatten_cons, run_append, ht]
    exact hv

/-- A machine that can follow each step follows each run. -/
theorem exists_matched {I : σ → Prop} {P : α → Prop}
    (hinv : ∀ s a s', I s → step s a = some s' → I s')
    (hstep : ∀ s t a s', I s → R s t → P a → step s a = some s' →
      ∃ part t', run step' t part = some t' ∧ R s' t')
    {s u : σ} {t : τ} {as : List α} (hI : I s) (hR : R s t) (hP : ∀ a ∈ as, P a)
    (hrun : run step s as = some u) : ∃ parts, Matched step step' R s t as parts := by
  induction as generalizing s t with
  | nil => exact ⟨[], matched_nil hR⟩
  | cons a as ih =>
    obtain ⟨s', hs, hrest⟩ := run_cons_some hrun
    obtain ⟨part, t', ht, hR'⟩ := hstep s t a s' hI hR (hP a List.mem_cons_self) hs
    obtain ⟨parts, hparts⟩ := ih (hinv s a s' hI hs) hR'
      (fun b hb => hP b (List.mem_cons_of_mem a hb)) hrest
    exact ⟨part :: parts, matched_cons hR hs ht hparts⟩

end matched

/-! ## What was started and not ended

A flag that some steps raise and others lower is down after a run if and only
if each raise has a later lower. -/

section flags

variable (next : σ → α → σ)

/-- Each step that starts something is followed by one that ends it. -/
def Settled (starts ends : σ → α → Prop) (s : σ) (as : List α) : Prop :=
  ∀ pre a post, as = pre ++ a :: post → starts (pre.foldl next s) a →
    ∃ mid b rest, post = mid ++ b :: rest ∧ ends ((pre ++ a :: mid).foldl next s) b

variable {next} {starts ends : σ → α → Prop}

theorem settled_nil (s : σ) : Settled next starts ends s [] := by
  intro pre a post h
  simp at h

theorem settled_snoc (s : σ) (as : List α) (a : α) :
    Settled next starts ends s (as ++ [a]) ↔
      ¬ starts (as.foldl next s) a ∧
        (Settled next starts ends s as ∨ ends (as.foldl next s) a) := by
  constructor
  · intro h
    refine ⟨fun hs => ?_, ?_⟩
    · obtain ⟨mid, b, rest, hnil, -⟩ := h as a [] rfl hs
      simp at hnil
    · by_cases he : ends (as.foldl next s) a
      · exact Or.inr he
      · left
        intro pre x post has hx
        obtain ⟨mid, b, rest, hpost, hb⟩ := h pre x (post ++ [a]) (by simp [has]) hx
        rcases List.eq_nil_or_concat rest with rfl | ⟨rest, y, rfl⟩
        · obtain ⟨hm, hba⟩ := List.append_inj' hpost rfl
          cases hba
          rw [← hm, ← has] at hb
          exact absurd hb he
        · rw [List.concat_eq_append, ← List.cons_append, ← List.append_assoc] at hpost
          exact ⟨mid, b, rest, (List.append_inj' hpost rfl).1, hb⟩
  · rintro ⟨hno, hor⟩ pre x post has hx
    rcases List.eq_nil_or_concat post with rfl | ⟨post, y, rfl⟩
    · obtain ⟨hp, hxa⟩ := List.append_inj' has rfl
      cases hxa
      rw [← hp] at hx
      exact absurd hx hno
    · rw [List.concat_eq_append, ← List.cons_append, ← List.append_assoc] at has
      obtain ⟨hp, hya⟩ := List.append_inj' has rfl
      cases hya
      rcases hor with hset | hend
      · obtain ⟨mid, b, rest, hpost, hb⟩ := hset pre x post hp hx
        exact ⟨mid, b, rest ++ [a], by simp [hpost], hb⟩
      · exact ⟨post, a, [], by simp, by rw [← hp]; exact hend⟩

/-- The flag law. -/
theorem flag_down_iff_settled (flag : σ → Prop)
    (hstart : ∀ s a, starts s a → flag (next s a))
    (hend : ∀ s a, ends s a → ¬ flag (next s a))
    (hkeep : ∀ s a, ¬ starts s a → ¬ ends s a → (flag (next s a) ↔ flag s))
    {s : σ} (hs : ¬ flag s) (as : List α) :
    ¬ flag (as.foldl next s) ↔ Settled next starts ends s as := by
  induction as using List.reverseRecOn with
  | nil => simp [settled_nil, hs]
  | append_singleton as a ih =>
    rw [List.foldl_append, settled_snoc, ← ih]
    simp only [List.foldl_cons, List.foldl_nil]
    by_cases ha : starts (as.foldl next s) a
    · simp [ha, hstart _ _ ha]
    by_cases he : ends (as.foldl next s) a
    · simp [ha, he, hend _ _ he]
    · simp [ha, he, hkeep _ _ ha he]

end flags

/-! ## Every state of a run

A machine that takes every action, seen at each state that it reaches. -/

section states

variable (next : σ → α → σ)

/-- A condition that holds of each state of a run, the first and the last among them. -/
def Throughout (I : σ → Prop) (s : σ) (as : List α) : Prop :=
  ∀ pre, pre <+: as → I (pre.foldl next s)

/-- A condition that holds of each step of a run. -/
def EachStep (P : σ → α → Prop) (s : σ) (as : List α) : Prop :=
  ∀ pre a, pre ++ [a] <+: as → P (pre.foldl next s) a

variable {next}

theorem throughout_nil {I : σ → Prop} {s : σ} : Throughout next I s [] ↔ I s := by
  simp [Throughout]

theorem throughout_cons {I : σ → Prop} {s : σ} {a : α} {as : List α} :
    Throughout next I s (a :: as) ↔ I s ∧ Throughout next I (next s a) as := by
  constructor
  · intro h
    refine ⟨h [] List.nil_prefix, fun pre hpre => ?_⟩
    exact h (a :: pre) (List.cons_prefix_cons.mpr ⟨rfl, hpre⟩)
  · rintro ⟨hs, h⟩ pre hpre
    rcases List.prefix_cons_iff.mp hpre with rfl | ⟨rest, rfl, hrest⟩
    · exact hs
    · exact h rest hrest

theorem eachStep_nil {P : σ → α → Prop} {s : σ} : EachStep next P s [] := by
  intro pre a h
  simp at h

theorem eachStep_cons {P : σ → α → Prop} {s : σ} {a : α} {as : List α} :
    EachStep next P s (a :: as) ↔ P s a ∧ EachStep next P (next s a) as := by
  constructor
  · intro h
    refine ⟨h [] a (by simp), fun pre b hpre => ?_⟩
    exact h (a :: pre) b (List.cons_prefix_cons.mpr ⟨rfl, hpre⟩)
  · rintro ⟨hs, h⟩ pre b hpre
    cases pre with
    | nil =>
      obtain ⟨rfl, -⟩ := List.cons_prefix_cons.mp hpre
      exact hs
    | cons c pre =>
      obtain ⟨rfl, hrest⟩ := List.cons_prefix_cons.mp hpre
      exact h pre b hrest

instance decidableEachStep {P : σ → α → Prop} [∀ s a, Decidable (P s a)] :
    (s : σ) → (as : List α) → Decidable (EachStep next P s as)
  | _, [] => isTrue eachStep_nil
  | s, a :: as =>
    have : Decidable (EachStep next P (next s a) as) := decidableEachStep (next s a) as
    decidable_of_iff _ eachStep_cons.symm

/-- A condition on the steps keeps a condition on the states, and gives another one on the
steps. -/
theorem throughout_of_eachStep {I : σ → Prop} {P Q : σ → α → Prop}
    (hkeep : ∀ s a, I s → P s a → I (next s a)) (hstep : ∀ s a, I s → P s a → Q s a) {s : σ}
    {as : List α} (hI : I s) (h : EachStep next P s as) :
    Throughout next I s as ∧ EachStep next Q s as := by
  induction as generalizing s with
  | nil => exact ⟨throughout_nil.mpr hI, eachStep_nil⟩
  | cons a as ih =>
    obtain ⟨hp, hrest⟩ := eachStep_cons.mp h
    obtain ⟨hthroughout, heach⟩ := ih (hkeep s a hI hp) hrest
    exact ⟨throughout_cons.mpr ⟨hI, hthroughout⟩, eachStep_cons.mpr ⟨hstep s a hI hp, heach⟩⟩

/-- A condition that a step keeps exactly where the step meets another one: it holds of each
state of a run exactly where each step of the run meets that one. -/
theorem throughout_iff_eachStep {I J : σ → Prop} {P Q : σ → α → Prop}
    (hkeep : ∀ s a, J s → P s a → J (next s a))
    (hstep : ∀ s a, J s → P s a → I s → (I (next s a) ↔ Q s a)) {s : σ} {as : List α}
    (hJ : J s) (hI : I s) (h : EachStep next P s as) :
    Throughout next I s as ↔ EachStep next Q s as := by
  induction as generalizing s with
  | nil => exact ⟨fun _ => eachStep_nil, fun _ => throughout_nil.mpr hI⟩
  | cons a as ih =>
    obtain ⟨hp, hrest⟩ := eachStep_cons.mp h
    have hstep' := hstep s a hJ hp hI
    rw [throughout_cons, eachStep_cons]
    constructor
    · rintro ⟨-, hall⟩
      have hnext : I (next s a) := hall [] List.nil_prefix
      exact ⟨hstep'.mp hnext, (ih (hkeep s a hJ hp) hnext hrest).mp hall⟩
    · rintro ⟨hq, hall⟩
      have hnext := hstep'.mpr hq
      exact ⟨hI, (ih (hkeep s a hJ hp) hnext hrest).mpr hall⟩

end states

end runs
