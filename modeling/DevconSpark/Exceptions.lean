-- The exceptions that the modelled code raises: those of the service, and
-- those of Python itself.
import Mathlib.Data.List.Forall2

namespace devcon_spark.exceptions

inductive ExnKind
  | InvalidInput | InvalidId | ExistingId | UnknownId
  | CommandException | CommandParseException | CommandBuildException | CRCFailed
  | CommandTimeout | UpdateInProgress
  | EncodeException | DecodeException | UnknownCodecType
  | NotConnected | IncompatibleFirmware | InvalidDeviceId
  | RuntimeError | KeyError | TypeError | ValueError | AttributeError | IndexError
  | InvalidStateError | TimeoutError | OverflowError | NotImplementedError | BinasciiError
  | AssertionError | ConnectionAbortedError | ConnectionRefusedError | StopIteration
  deriving DecidableEq

structure Exn where
  kind : ExnKind
  msg : String := ""
  deriving DecidableEq

def ExnKind.name : ExnKind → String
  | .InvalidInput => "InvalidInput"
  | .InvalidId => "InvalidId"
  | .ExistingId => "ExistingId"
  | .UnknownId => "UnknownId"
  | .CommandException => "CommandException"
  | .CommandParseException => "CommandParseException"
  | .CommandBuildException => "CommandBuildException"
  | .CRCFailed => "CRCFailed"
  | .CommandTimeout => "CommandTimeout"
  | .UpdateInProgress => "UpdateInProgress"
  | .EncodeException => "EncodeException"
  | .DecodeException => "DecodeException"
  | .UnknownCodecType => "UnknownCodecType"
  | .NotConnected => "NotConnected"
  | .IncompatibleFirmware => "IncompatibleFirmware"
  | .InvalidDeviceId => "InvalidDeviceId"
  | .RuntimeError => "RuntimeError"
  | .KeyError => "KeyError"
  | .TypeError => "TypeError"
  | .ValueError => "ValueError"
  | .AttributeError => "AttributeError"
  | .IndexError => "IndexError"
  | .InvalidStateError => "InvalidStateError"
  | .TimeoutError => "TimeoutError"
  | .OverflowError => "OverflowError"
  | .NotImplementedError => "NotImplementedError"
  | .BinasciiError => "Error"
  | .AssertionError => "AssertionError"
  | .ConnectionAbortedError => "ConnectionAbortedError"
  | .ConnectionRefusedError => "ConnectionRefusedError"
  | .StopIteration => "StopIteration"

/-- The `status_code` of the exceptions of the service, which are `HTTPException`s. -/
def ExnKind.status_code : ExnKind → Option Nat
  | .InvalidInput | .InvalidId | .UnknownId | .CommandBuildException | .EncodeException => some 400
  | .ExistingId => some 409
  | .UnknownCodecType => some 422
  | .CommandParseException | .CommandTimeout | .UpdateInProgress | .DecodeException
  | .NotConnected | .IncompatibleFirmware | .InvalidDeviceId => some 424
  | .CommandException | .CRCFailed => some 500
  | _ => none

/-- `repr` of a text of printable characters: in apostrophes, or in quotes if there are apostrophes
in it and no quotes. -/
def quoted (t : String) : String :=
  let apostrophe := Char.ofNat 39
  let quote := Char.ofNat 34
  let backslash := Char.ofNat 92
  let mark := if apostrophe ∈ t.toList ∧ quote ∉ t.toList then quote else apostrophe
  let escaped := t.toList.flatMap fun c => if c = mark ∨ c = backslash then [backslash, c] else [c]
  String.ofList (mark :: escaped ++ [mark])

/-- `str(ex)` -/
def Exn.str (ex : Exn) : String :=
  match ex.kind.status_code with
  | some status_code => s!"{status_code}: {ex.msg}"
  | none => ex.msg

/-- Formats exception as `Exception(message)`. -/
def strex (ex : Exn) : String := s!"{ex.kind.name}({ex.str})"

/-! ## Loops that may raise -/

variable {ε α β : Type} {f : α → Except ε β}

theorem map_eq_ok {f : α → β} {x : Except ε α} {y : β} :
    x.map f = .ok y ↔ ∃ a, x = .ok a ∧ f a = y := by
  cases x <;> simp [Except.map]

theorem map_eq_error {f : α → β} {x : Except ε α} {e : ε} :
    x.map f = .error e ↔ x = .error e := by
  cases x <;> simp [Except.map]

theorem mapError_eq_ok {ε' : Type} {f : ε → ε'} {x : Except ε α} {a : α} :
    x.mapError f = .ok a ↔ x = .ok a := by
  cases x <;> simp [Except.mapError]

theorem bind_eq_ok {x : Except ε α} {b : β} :
    (x >>= f) = .ok b ↔ ∃ a, x = .ok a ∧ f a = .ok b := by
  cases x <;> simp [bind, Except.bind]

theorem ok_bind (a : α) (f : α → Except ε β) : (Except.ok a >>= f) = f a := rfl

theorem bind_pure_eq_map (x : Except ε α) (f : α → β) :
    (x >>= fun a => pure (f a)) = x.map f := by
  cases x <;> rfl

/-- A loop returns where each turn does. -/
theorem mapM_ok {g : α → β} {l : List α} (h : ∀ a ∈ l, f a = .ok (g a)) :
    l.mapM f = .ok (l.map g) := by
  induction l with
  | nil => rfl
  | cons a l ih =>
    rw [List.mapM_cons, h a List.mem_cons_self, ih fun x hx => h x (List.mem_cons_of_mem a hx)]
    rfl

theorem mapM_congr {f g : α → Except ε β} {l : List α} (h : ∀ a ∈ l, f a = g a) :
    l.mapM f = l.mapM g := by
  induction l with
  | nil => rfl
  | cons a l ih =>
    rw [List.mapM_cons, List.mapM_cons, h a List.mem_cons_self,
      ih fun x hx => h x (List.mem_cons_of_mem a hx)]

theorem forall₂_left {R : α → β → Prop} {l : List α} {bs : List β} (h : List.Forall₂ R l bs)
    {a : α} (ha : a ∈ l) : ∃ b ∈ bs, R a b := by
  induction h with
  | nil => simp at ha
  | cons hR _ ih =>
    rcases List.mem_cons.mp ha with rfl | ha
    · exact ⟨_, List.mem_cons_self, hR⟩
    · obtain ⟨b, hb, hab⟩ := ih ha
      exact ⟨b, List.mem_cons_of_mem _ hb, hab⟩

theorem forall₂_right {R : α → β → Prop} {l : List α} {bs : List β} (h : List.Forall₂ R l bs)
    {b : β} (hb : b ∈ bs) : ∃ a ∈ l, R a b :=
  forall₂_left h.flip hb

theorem forall₂_getElem? {R : α → β → Prop} {l : List α} {bs : List β} (h : List.Forall₂ R l bs)
    {i : Nat} {b : β} (hb : bs[i]? = some b) : ∃ a, l[i]? = some a ∧ R a b := by
  induction h generalizing i with
  | nil => cases hb
  | cons hab _ ih =>
    cases i with
    | zero =>
      cases hb
      exact ⟨_, rfl, hab⟩
    | succ i => exact ih hb

theorem forall₂_imp_left {R S : α → β → Prop} {l : List α} {bs : List β}
    (h : List.Forall₂ R l bs) (himp : ∀ a ∈ l, ∀ b, R a b → S a b) : List.Forall₂ S l bs := by
  induction h with
  | nil => exact .nil
  | cons ha _ ih =>
    exact .cons (himp _ List.mem_cons_self _ ha) (ih fun a hm => himp a (List.mem_cons_of_mem _ hm))

theorem forall₂_compose {γ : Type} {R : α → β → Prop} {S : β → γ → Prop} {l : List α} {bs : List β}
    {cs : List γ} (h : List.Forall₂ R l bs) (h' : List.Forall₂ S bs cs) :
    List.Forall₂ (fun a c => ∃ b, R a b ∧ S b c) l cs := by
  induction h generalizing cs with
  | nil =>
    cases h'
    exact .nil
  | cons hR _ ih =>
    cases h' with
    | cons hS htail => exact .cons ⟨_, hR, hS⟩ (ih htail)

theorem map_eq_of_forall₂ {γ : Type} {f : α → γ} {g : β → γ} {l : List α} {bs : List β}
    (h : List.Forall₂ (fun a b => f a = g b) l bs) : l.map f = bs.map g := by
  induction h with
  | nil => rfl
  | cons hab _ ih => rw [List.map_cons, List.map_cons, hab, ih]

/-- One row for each pair of related elements. -/
theorem rows_of_forall₂ {γ κ : Type} {R : α → β → Prop} {k : α → κ} {f : γ → κ} {g : γ → β}
    {l : List α} {bs : List β} (h : List.Forall₂ R l bs)
    (hrow : ∀ a ∈ l, ∀ b ∈ bs, R a b → ∃ c, f c = k a ∧ g c = b) :
    ∃ cs : List γ, cs.map f = l.map k ∧ cs.map g = bs := by
  induction h with
  | nil => exact ⟨[], rfl, rfl⟩
  | cons hab _ ih =>
    obtain ⟨c, hf, hg⟩ := hrow _ List.mem_cons_self _ List.mem_cons_self hab
    obtain ⟨cs, hfs, hgs⟩ := ih fun a ha b hb =>
      hrow a (List.mem_cons_of_mem _ ha) b (List.mem_cons_of_mem _ hb)
    exact ⟨c :: cs, by rw [List.map_cons, hf, hfs, List.map_cons],
      by rw [List.map_cons, hg, hgs]⟩

theorem exists_forall₂ {R : α → β → Prop} {l : List α} (h : ∀ a ∈ l, ∃ b, R a b) :
    ∃ bs, List.Forall₂ R l bs := by
  induction l with
  | nil => exact ⟨[], .nil⟩
  | cons a l ih =>
    obtain ⟨b, hb⟩ := h a List.mem_cons_self
    obtain ⟨bs, hbs⟩ := ih fun a hm => h a (List.mem_cons_of_mem _ hm)
    exact ⟨b :: bs, .cons hb hbs⟩

/-- A loop that returned has the results of its turns. -/
theorem forall₂_of_mapM {l : List α} {bs : List β} (h : l.mapM f = .ok bs) :
    List.Forall₂ (fun a b => f a = .ok b) l bs := by
  induction l generalizing bs with
  | nil =>
    cases h
    exact .nil
  | cons a l ih =>
    rw [List.mapM_cons] at h
    cases ha : f a with
    | error e => simp [ha, bind, Except.bind] at h
    | ok b =>
      cases hl : l.mapM f with
      | error e => simp [ha, hl, bind, Except.bind] at h
      | ok cs =>
        simp only [ha, hl, bind, Except.bind, pure, Except.pure, Except.ok.injEq] at h
        subst h
        exact .cons ha (ih hl)

theorem mapM_eq_ok {l : List α} {bs : List β} (h : List.Forall₂ (fun a b => f a = .ok b) l bs) :
    l.mapM f = .ok bs := by
  induction h with
  | nil => rfl
  | cons ha _ ih =>
    rw [List.mapM_cons, ha, ih]
    rfl

/-- One more turn changes nothing for the others. -/
theorem mapM_insert {before after : List α} {bs : List β} (h : (before ++ after).mapM f = .ok bs) :
    ∃ ls rs, bs = ls ++ rs ∧ ∀ a b, f a = .ok b →
      (before ++ a :: after).mapM f = .ok (ls ++ b :: rs) := by
  rw [List.mapM_append] at h
  obtain ⟨ls, hls, h⟩ := bind_eq_ok.mp h
  obtain ⟨rs, hrs, h⟩ := bind_eq_ok.mp h
  refine ⟨ls, rs, (Except.ok.inj h).symm, fun a b hab => ?_⟩
  rw [List.mapM_append, List.mapM_cons, hls, hab, hrs]
  rfl

/-- A loop over what is related to a list has results that are related to that list. -/
theorem mapM_of_forall₂ {γ : Type} {R : γ → α → Prop} {S : γ → β → Prop} {cs : List γ}
    {l : List α} (h : List.Forall₂ R cs l) (hf : ∀ c a, R c a → ∃ b, f a = .ok b ∧ S c b) :
    ∃ bs, l.mapM f = .ok bs ∧ List.Forall₂ S cs bs := by
  induction h with
  | nil => exact ⟨[], rfl, .nil⟩
  | @cons c a cs l hR _ ih =>
    obtain ⟨b, hb, hS⟩ := hf c a hR
    obtain ⟨bs, hbs, hSs⟩ := ih
    refine ⟨b :: bs, ?_, .cons hS hSs⟩
    rw [List.mapM_cons, hb, hbs]
    rfl

/-- A loop returns where each turn has a result. -/
theorem mapM_forall₂ {R : α → β → Prop} {l : List α} (h : ∀ a ∈ l, ∃ b, f a = .ok b ∧ R a b) :
    ∃ bs, l.mapM f = .ok bs ∧ List.Forall₂ R l bs := by
  have hsame : List.Forall₂ (fun a b => a = b ∧ a ∈ l) l l :=
    List.forall₂_same.mpr fun a ha => ⟨rfl, ha⟩
  refine mapM_of_forall₂ hsame ?_
  rintro a _ ⟨rfl, ha⟩
  exact h a ha

/-- A loop raises where one turn does. -/
theorem mapM_error {l : List α} {a : α} {e : ε} (ha : a ∈ l) (h : f a = .error e) :
    ∃ e', l.mapM f = .error e' := by
  induction l with
  | nil => simp at ha
  | cons b l ih =>
    rw [List.mapM_cons]
    cases hb : f b with
    | error e' => exact ⟨e', rfl⟩
    | ok y =>
      rcases List.mem_cons.mp ha with rfl | ha
      · simp [h] at hb
      · obtain ⟨e', he'⟩ := ih ha
        exact ⟨e', by rw [he']; rfl⟩

/-- A loop raises what its first turn that raises does. -/
theorem mapM_error_inv {l : List α} {e : ε} (h : l.mapM f = .error e) :
    ∃ before a after, l = before ++ a :: after ∧ (∀ x ∈ before, ∃ b, f x = .ok b) ∧
      f a = .error e := by
  induction l with
  | nil => cases h
  | cons a l ih =>
    rw [List.mapM_cons] at h
    cases ha : f a with
    | error e' =>
      rw [ha] at h
      cases h
      exact ⟨[], a, l, rfl, by simp, ha⟩
    | ok b =>
      rw [ha, ok_bind] at h
      cases hl : l.mapM f with
      | ok bs =>
        rw [hl] at h
        cases h
      | error e' =>
        rw [hl] at h
        cases h
        obtain ⟨before, a', after, hsplit, hbefore, herror⟩ := ih hl
        refine ⟨a :: before, a', after, congrArg _ hsplit, ?_, herror⟩
        intro x hx
        rcases List.mem_cons.mp hx with rfl | hx
        · exact ⟨b, ha⟩
        · exact hbefore x hx

/-- A loop returns results of some kind where each turn does. -/
theorem loop_returns_iff {P : β → Prop} {l : List α} :
    (∃ bs, l.mapM f = .ok bs ∧ ∀ b ∈ bs, P b) ↔ ∀ a ∈ l, ∃ b, f a = .ok b ∧ P b := by
  constructor
  · rintro ⟨bs, hbs, hall⟩ a ha
    obtain ⟨b, hb, hfa⟩ := forall₂_left (forall₂_of_mapM hbs) ha
    exact ⟨b, hfa, hall b hb⟩
  · intro h
    obtain ⟨bs, hbs, hall⟩ := mapM_forall₂ h
    refine ⟨bs, hbs, fun b hb => ?_⟩
    obtain ⟨a, -, hP⟩ := forall₂_right hall hb
    exact hP

/-- Two loops, one over the results of the other, return where both turns do for each element. -/
theorem loops_return_iff {γ : Type} {g : β → Except ε γ} {l : List α} :
    (∃ bs cs, l.mapM f = .ok bs ∧ bs.mapM g = .ok cs) ↔
      ∀ a ∈ l, ∃ b c, f a = .ok b ∧ g b = .ok c := by
  constructor
  · rintro ⟨bs, cs, hbs, hcs⟩ a ha
    obtain ⟨c, -, b, hb, hc⟩ := forall₂_left
      (forall₂_compose (forall₂_of_mapM hbs) (forall₂_of_mapM hcs)) ha
    exact ⟨b, c, hb, hc⟩
  · intro h
    have hturns : ∀ a ∈ l, ∃ b, f a = .ok b ∧ ∃ c, g b = .ok c := by
      intro a ha
      obtain ⟨b, c, hb, hc⟩ := h a ha
      exact ⟨b, hb, c, hc⟩
    obtain ⟨bs, hbs, hall⟩ := mapM_forall₂ hturns
    obtain ⟨cs, hcs, -⟩ := mapM_of_forall₂ (f := g) (S := fun _ _ => True) hall
      fun _ _ ⟨c, hc⟩ => ⟨c, hc, trivial⟩
    exact ⟨bs, cs, hbs, hcs⟩

/-! ## Exactly when a computation returns -/

/-- It returns exactly where a condition holds, and then with a result of some kind. -/
structure Returns (x : Except ε α) (p : Prop) (U : α → Prop) : Prop where
  result : p → ∃ a, x = .ok a ∧ U a
  raises : ¬ p → ∃ e, x = .error e

namespace Returns

variable {x : Except ε α} {p q : Prop} {U V : α → Prop}

theorem of_ok {a : α} (h : U a) : Returns (.ok a : Except ε α) True U :=
  ⟨fun _ => ⟨a, rfl, h⟩, fun hnot => absurd trivial hnot⟩

theorem of_error (e : ε) : Returns (.error e : Except ε α) False U :=
  ⟨fun h => absurd h id, fun _ => ⟨e, rfl⟩⟩

/-- What returned met its condition. -/
theorem holds (h : Returns x p U) {a : α} (hx : x = .ok a) : p ∧ U a := by
  by_cases hp : p
  · obtain ⟨b, hb, hU⟩ := h.result hp
    cases hx.symm.trans hb
    exact ⟨hp, hU⟩
  · obtain ⟨e, he⟩ := h.raises hp
    cases hx.symm.trans he

theorem congr (h : Returns x p U) (hpq : p ↔ q) : Returns x q U := by
  rwa [← hpq]

theorem imp (h : Returns x p U) (hUV : ∀ a, U a → V a) : Returns x p V where
  result hp := by
    obtain ⟨a, ha, hU⟩ := h.result hp
    exact ⟨a, ha, hUV a hU⟩
  raises := h.raises

theorem map {W : β → Prop} {g : α → β} (h : Returns x p U) (hW : ∀ a, U a → W (g a)) :
    Returns (x.map g) p W where
  result hp := by
    obtain ⟨a, rfl, hU⟩ := h.result hp
    exact ⟨g a, rfl, hW a hU⟩
  raises hp := by
    obtain ⟨e, rfl⟩ := h.raises hp
    exact ⟨e, rfl⟩

/-- A computation that goes on, and raises no more. -/
theorem bind {W : β → Prop} (h : Returns x p U) (hf : ∀ a, U a → ∃ b, f a = .ok b ∧ W b) :
    Returns (x >>= f) p W where
  result hp := by
    obtain ⟨a, rfl, hU⟩ := h.result hp
    exact hf a hU
  raises hp := by
    obtain ⟨e, rfl⟩ := h.raises hp
    exact ⟨e, rfl⟩

/-- A loop returns exactly where each of its turns does. -/
theorem mapM {γ : Type} {S : γ → α → Prop} {P : γ → Prop} {W : γ → β → Prop} {cs : List γ}
    {l : List α} (h : List.Forall₂ S cs l)
    (hf : ∀ c ∈ cs, ∀ a, S c a → Returns (f a) (P c) (W c)) :
    Returns (l.mapM f) (∀ c ∈ cs, P c) (List.Forall₂ W cs) where
  result hP := by
    have hturns := forall₂_imp_left h fun c hc a hS =>
      (⟨hS, hc⟩ : S c a ∧ c ∈ cs)
    exact mapM_of_forall₂ hturns fun c a hca => (hf c hca.2 a hca.1).result (hP c hca.2)
  raises hP := by
    by_contra hnone
    apply hP
    intro c hc
    by_contra hPc
    obtain ⟨a, ha, hS⟩ := forall₂_left h hc
    obtain ⟨e, he⟩ := (hf c hc a hS).raises hPc
    exact hnone (mapM_error ha he)

end Returns

end devcon_spark.exceptions
