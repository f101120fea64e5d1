-- Programs that may raise, over any type of states and of exceptions: how a
-- program ends, and in which state, from how its parts do.
import Mathlib.Data.List.Forall2

namespace programs

variable {ε σ α β : Type} {s s' : σ}

/-- A program goes on in the state that its first part left, unless that part raised. -/
theorem run_bind (x : ExceptT ε (StateM σ) α) (f : α → ExceptT ε (StateM σ) β) (s : σ) :
    (x >>= f).run.run s = match x.run.run s with
      | (.ok a, s') => (f a).run.run s'
      | (.error e, s') => (.error e, s') := by
  rw [ExceptT.run_bind, StateT.run_bind]
  show (match x.run.run s with | (r, s') => _) = _
  rcases x.run.run s with ⟨_ | a, s'⟩ <;> rfl

theorem run_bind_ok {x : ExceptT ε (StateM σ) α} {a : α} (h : x.run.run s = (.ok a, s'))
    (f : α → ExceptT ε (StateM σ) β) : (x >>= f).run.run s = (f a).run.run s' := by
  rw [run_bind, h]

theorem run_bind_error {x : ExceptT ε (StateM σ) α} {e : ε} (h : x.run.run s = (.error e, s'))
    (f : α → ExceptT ε (StateM σ) β) : (x >>= f).run.run s = (.error e, s') := by
  rw [run_bind, h]

@[simp] theorem run_pure (a : α) (s : σ) :
    (pure a : ExceptT ε (StateM σ) α).run.run s = (.ok a, s) := rfl

@[simp] theorem run_get (s : σ) : (get : ExceptT ε (StateM σ) σ).run.run s = (.ok s, s) := rfl

@[simp] theorem run_modify (f : σ → σ) (s : σ) :
    (modify f : ExceptT ε (StateM σ) PUnit).run.run s = (.ok (), f s) := rfl

@[simp] theorem run_lift (x : Except ε α) (s : σ) :
    (liftExcept x : ExceptT ε (StateM σ) α).run.run s = (x, s) := by
  cases x <;> rfl

theorem run_tryCatch (x : ExceptT ε (StateM σ) α) (f : ε → ExceptT ε (StateM σ) α) (s : σ) :
    (tryCatch x f).run.run s = match x.run.run s with
      | (.ok a, s') => (.ok a, s')
      | (.error e, s') => (f e).run.run s' := by
  rw [ExceptT.run_tryCatch, StateT.run_bind]
  generalize x.run.run s = out
  rcases out with ⟨_ | a, s'⟩ <;> rfl

/-- The last part runs however the first one ends. What it raises comes first. -/
theorem run_tryFinally (x : ExceptT ε (StateM σ) α) (y : ExceptT ε (StateM σ) β) (s : σ) :
    (tryFinally x y).run.run s =
      ((y.run.run (x.run.run s).2).1.bind fun _ => (x.run.run s).1,
        (y.run.run (x.run.run s).2).2) := by
  unfold tryFinally
  rcases hx : x.run.run s with ⟨_ | a, s'⟩ <;> rcases hy : y.run.run s' with ⟨_ | b, s''⟩
  all_goals
    change x s = _ at hx
    change y s' = _ at hy
    simp only [Functor.map, tryFinally', ExceptT.map, ExceptT.run, ExceptT.mk, StateT.run,
      StateT.bind, bind, pure, hx, hy]
    rfl

/-! ## What holds when a program ends -/

section ends

variable {x : ExceptT ε (StateM σ) α} {f : α → ExceptT ε (StateM σ) β}

/-- From a state, a program ends with a result and in a state that a condition holds of. -/
def Ends (x : ExceptT ε (StateM σ) α) (s : σ) (Q : Except ε α → σ → Prop) : Prop :=
  Q (x.run.run s).1 (x.run.run s).2

variable {Q : Except ε β → σ → Prop}

theorem ends_pure {b : β} (h : Q (.ok b) s) : Ends (pure b) s Q := h

theorem ends_throw {e : ε} (h : Q (.error e) s) : Ends (throw e) s Q := h

theorem ends_bind {P : Except ε α → σ → Prop} (h : Ends x s P)
    (hok : ∀ a s', P (.ok a) s' → Ends (f a) s' Q)
    (herror : ∀ e s', P (.error e) s' → Q (.error e) s') : Ends (x >>= f) s Q := by
  unfold Ends at h ⊢
  rw [run_bind]
  rcases hx : x.run.run s with ⟨e | a, s'⟩
  · rw [hx] at h
    exact herror e s' h
  · rw [hx] at h
    exact hok a s' h

/-- A part that only computes. -/
theorem ends_lift {y : Except ε α} (hok : ∀ a, y = .ok a → Ends (f a) s Q)
    (herror : ∀ e, y = .error e → Q (.error e) s) : Ends (liftExcept y >>= f) s Q := by
  have hlift : Ends (liftExcept y) s fun r s' => r = y ∧ s' = s := by
    unfold Ends
    rw [run_lift]
    exact ⟨rfl, rfl⟩
  refine ends_bind hlift ?_ ?_
  · rintro a s' ⟨ha, rfl⟩
    exact hok a ha.symm
  · rintro e s' ⟨he, rfl⟩
    exact herror e he.symm

theorem ends_get {f : σ → ExceptT ε (StateM σ) β} (h : Ends (f s) s Q) :
    Ends (get >>= f) s Q := by
  unfold Ends
  rw [run_bind_ok (run_get s)]
  exact h

theorem ends_modify {g : σ → σ} {f : PUnit → ExceptT ε (StateM σ) β} (h : Ends (f ()) (g s) Q) :
    Ends (modify g >>= f) s Q := by
  unfold Ends
  rw [run_bind_ok (run_modify g s)]
  exact h

/-- The results of a loop are the results of its turns. -/
theorem ends_mapM {ι : Type} {f : ι → ExceptT ε (StateM σ) β} {R : ι → β → Prop}
    (h : ∀ i s, Ends (f i) s fun r _ => ∀ b, r = .ok b → R i b) (is : List ι) (s : σ) :
    Ends (is.mapM f) s fun r _ => ∀ bs, r = .ok bs → List.Forall₂ R is bs := by
  induction is generalizing s with
  | nil =>
    rintro bs ⟨⟩
    exact .nil
  | cons i is ih =>
    rw [List.mapM_cons]
    refine ends_bind (h i s) (fun b s' hb => ?_) ?_
    · refine ends_bind (ih s') (fun bs s'' hbs => ends_pure ?_) ?_
      · rintro bs' ⟨⟩
        exact .cons (hb b rfl) (hbs bs rfl)
      · rintro e s'' - bs ⟨⟩
    · rintro e s' - bs ⟨⟩

end ends

/-! ## Triples

What a program leaves, from each state that a condition holds of. -/

section triples

variable {x : ExceptT ε (StateM σ) α} {f : α → ExceptT ε (StateM σ) β} {A B : σ → Prop}
  {P P' : Except ε α → σ → Prop} {Q : Except ε β → σ → Prop}

def Triple (A : σ → Prop) (x : ExceptT ε (StateM σ) α) (P : Except ε α → σ → Prop) : Prop :=
  ∀ s, A s → Ends x s P

theorem triple_weaken (h : Triple A x P) (hpre : ∀ s, B s → A s) (hpost : ∀ r s, P r s → P' r s) :
    Triple B x P' :=
  fun s hs => hpost _ _ (h s (hpre s hs))

theorem triple_pure {a : α} (h : ∀ s, A s → P (.ok a) s) : Triple A (pure a) P := h

theorem triple_throw {e : ε} (h : ∀ s, A s → P (.error e) s) : Triple A (throw e) P := h

theorem triple_bind (h : Triple A x P) (hok : ∀ a, Triple (P (.ok a)) (f a) Q)
    (herror : ∀ e s, P (.error e) s → Q (.error e) s) : Triple A (x >>= f) Q :=
  fun s hs => ends_bind (h s hs) hok herror

theorem triple_lift {y : Except ε α} (h : ∀ s, A s → P y s) : Triple A (liftExcept y) P := by
  intro s hs
  unfold Ends
  rw [run_lift]
  exact h s hs

theorem triple_get {f : σ → ExceptT ε (StateM σ) β}
    (h : ∀ s₀, Triple (fun s => A s ∧ s = s₀) (f s₀) Q) : Triple A (get >>= f) Q :=
  fun s hs => ends_get (h s s ⟨hs, rfl⟩)

theorem triple_modify {g : σ → σ} {P : Except ε PUnit → σ → Prop}
    (h : ∀ s, A s → P (.ok ()) (g s)) : Triple A (modify g) P := h

theorem triple_modify_bind {g : σ → σ} {f : PUnit → ExceptT ε (StateM σ) β}
    (hg : ∀ s, A s → B (g s)) (h : Triple B (f ()) Q) : Triple A (modify g >>= f) Q :=
  fun s hs => ends_modify (h _ (hg s hs))

/-- What comes after an exception is not run. -/
theorem triple_throw_bind {e : ε} (h : ∀ s, A s → Q (.error e) s) :
    Triple A ((throw e : ExceptT ε (StateM σ) α) >>= f) Q := h

theorem triple_catch {g : ε → ExceptT ε (StateM σ) α} (h : Triple A x P)
    (hok : ∀ a s, P (.ok a) s → P' (.ok a) s) (hcatch : ∀ e, Triple (P (.error e)) (g e) P') :
    Triple A (tryCatch x g) P' := by
  intro s hs
  have hx := h s hs
  unfold Ends at hx ⊢
  rw [run_tryCatch]
  rcases hrun : x.run.run s with ⟨e | a, s'⟩
  · rw [hrun] at hx
    exact hcatch e s' hx
  · rw [hrun] at hx
    exact hok a s' hx

theorem triple_finally {y : ExceptT ε (StateM σ) β} (h : Triple A x P)
    (hfinally : ∀ r, Triple (P r) y fun outcome => P' (outcome.bind fun _ => r)) :
    Triple A (tryFinally x y) P' := by
  intro s hs
  unfold Ends
  rw [run_tryFinally]
  exact hfinally _ _ (h s hs)

/-! What a program keeps, however it ends. -/

def Keeps (A : σ → Prop) (x : ExceptT ε (StateM σ) α) : Prop := Triple A x fun _ => A

theorem keeps_pure (a : α) : Keeps A (pure a : ExceptT ε (StateM σ) α) := fun _ hs => hs

theorem keeps_throw (e : ε) : Keeps A (throw e : ExceptT ε (StateM σ) α) := fun _ hs => hs

theorem keeps_lift (y : Except ε α) : Keeps A (liftExcept y : ExceptT ε (StateM σ) α) :=
  triple_lift fun _ hs => hs

theorem keeps_bind (hx : Keeps A x) (hf : ∀ a, Keeps A (f a)) : Keeps A (x >>= f) :=
  triple_bind hx hf fun _ _ hs => hs

theorem keeps_get {f : σ → ExceptT ε (StateM σ) β} (h : ∀ s, Keeps A (f s)) :
    Keeps A (get >>= f) :=
  fun s hs => ends_get (h s s hs)

/-- A loop keeps what each of its turns keeps. -/
theorem keeps_mapM {ι : Type} {f : ι → ExceptT ε (StateM σ) β} {is : List ι}
    (h : ∀ i ∈ is, Keeps A (f i)) : Keeps A (is.mapM f) := by
  induction is with
  | nil => exact keeps_pure []
  | cons i is ih =>
    rw [List.mapM_cons]
    refine keeps_bind (h i List.mem_cons_self) fun b => ?_
    exact keeps_bind (ih fun j hj => h j (List.mem_cons_of_mem i hj)) fun bs => keeps_pure _

end triples

/-! ## One program for each item of a list -/

section batches

variable {ι κ : Type} (f : ι → ExceptT ε (StateM σ) β)

/-- The items that are run, each with the state that it is run in: up to the first that raises. -/
def ran : List ι → σ → List (ι × σ)
  | [], _ => []
  | i :: is, s => (i, s) :: match (f i).run.run s with
    | (.ok _, s') => ran is s'
    | (.error _, _) => []

variable {f} {i : ι} {is : List ι}

theorem ran_cons_ok {b : β} (h : (f i).run.run s = (.ok b, s')) (is : List ι) :
    ran f (i :: is) s = (i, s) :: ran f is s' := by
  rw [ran, h]

theorem ran_cons_error {e : ε} (h : (f i).run.run s = (.error e, s')) (is : List ι) :
    ran f (i :: is) s = [(i, s)] := by
  rw [ran, h]

/-- An item returned, with a result of some kind. -/
def Gave (f : ι → ExceptT ε (StateM σ) β) (p : ι × σ) (b : β) : Prop :=
  ∃ s', (f p.1).run.run p.2 = (.ok b, s')

/-- The loop returns the results of its items, or raises where one of them does. -/
theorem run_mapM (f : ι → ExceptT ε (StateM σ) β) (is : List ι) (s : σ) :
    (∃ bs s', (is.mapM f).run.run s = (.ok bs, s') ∧ List.Forall₂ (Gave f) (ran f is s) bs) ∨
      ∃ e s', (is.mapM f).run.run s = (.error e, s') ∧
        ∃ p ∈ ran f is s, ∃ s'', (f p.1).run.run p.2 = (.error e, s'') := by
  induction is generalizing s with
  | nil => exact Or.inl ⟨[], s, rfl, .nil⟩
  | cons i is ih =>
    rw [List.mapM_cons]
    rcases hi : (f i).run.run s with ⟨e | b, s₁⟩
    · refine Or.inr ⟨e, s₁, run_bind_error hi _, (i, s), ?_, s₁, hi⟩
      rw [ran_cons_error hi]
      exact List.mem_singleton_self _
    · rw [ran_cons_ok hi, run_bind_ok hi]
      rcases ih s₁ with ⟨bs, s₂, hbs, hgave⟩ | ⟨e, s₂, he, p, hp, hraised⟩
      · refine Or.inl ⟨b :: bs, s₂, ?_, .cons ⟨s₁, hi⟩ hgave⟩
        rw [run_bind_ok hbs]
        rfl
      · exact Or.inr ⟨e, s₂, run_bind_error he _, p, List.mem_cons_of_mem _ hp, hraised⟩

/-- What is on the record of the items that are run. -/
def record (f : ι → ExceptT ε (StateM σ) β) (seen : ι × σ → Option κ) (is : List ι) (s : σ) :
    List κ := (ran f is s).filterMap seen

theorem gave_unique {p : ι × σ} {b b' : β} (h : Gave f p b) (h' : Gave f p b') : b = b' := by
  obtain ⟨s, h⟩ := h
  obtain ⟨s', h'⟩ := h'
  rw [h] at h'
  cases h'
  rfl

/-- Items with a result of some kind that are on the record, each with that result. -/
theorem record_of_forall₂ {γ : Type} {T : ι × σ → γ → Prop} {seen : ι × σ → Option κ}
    {R : γ → κ → Prop} (hseen : ∀ p c, T p c → ∃ k, seen p = some k ∧ R c k) {ps : List (ι × σ)}
    {cs : List γ} (h : List.Forall₂ T ps cs) : List.Forall₂ R cs (ps.filterMap seen) := by
  induction h with
  | nil => exact .nil
  | @cons p c ps cs hT _ ih =>
    obtain ⟨k, hk, hR⟩ := hseen p c hT
    rw [List.filterMap_cons_some hk]
    exact .cons hR ih

/-- Where nothing is listed unless all items are good, the list is the record exactly where all
are, or the first one is not on the record. -/
theorem listed_iff_record {γ : Type} {seen : ι × σ → Option κ} {R : γ → κ → Prop}
    {good : ι × σ → Prop} {listed : List γ}
    (hseen : ∀ p b, Gave f p b → ∃ k, seen p = some k)
    (hall : (∀ p ∈ ran f is s, good p) → List.Forall₂ R listed (record f seen is s))
    (hnot : ¬ (∀ p ∈ ran f is s, good p) → listed = []) :
    List.Forall₂ R listed (record f seen is s) ↔
      (∀ p ∈ ran f is s, good p) ∨ ∃ first rest, is = first :: rest ∧ seen (first, s) = none := by
  by_cases hg : ∀ p ∈ ran f is s, good p
  · exact ⟨fun _ => Or.inl hg, fun _ => hall hg⟩
  · rw [hnot hg]
    cases is with
    | nil => exact absurd (by simp [ran]) hg
    | cons first rest =>
      have hfirst : (first, s) ∈ ran f (first :: rest) s := List.mem_cons_self
      constructor
      · intro h
        refine Or.inr ⟨first, rest, rfl, ?_⟩
        have hempty : record f seen (first :: rest) s = [] := List.forall₂_nil_left_iff.mp h
        exact List.filterMap_eq_nil_iff.mp hempty _ hfirst
      · rintro (h | ⟨first', rest', hcons, hnone⟩)
        · exact absurd h hg
        · obtain ⟨rfl, rfl⟩ := List.cons.inj hcons
          -- the first item raised, and no other was run
          rcases hrun : (f first).run.run s with ⟨e | b, s'⟩
          · rw [record, ran_cons_error hrun, List.filterMap_cons_none hnone]
            exact .nil
          · obtain ⟨k, hk⟩ := hseen (first, s) b ⟨s', hrun⟩
            rw [hnone] at hk
            cases hk

end batches

end programs
