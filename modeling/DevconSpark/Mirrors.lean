-- Bidirectional dictionaries that mirror a directory: what each number is
-- called there. Only some of the keys count, and the others may be anything.
import DevconSpark.Bidict
import Mathlib.Logic.Function.Basic

open bidict

namespace mirrors

variable {κ ν : Type} {counts : κ → Prop} {k : κ} {v : ν} {D : ν → Option κ}

/-- No key that counts is given to two numbers. -/
def Distinct (counts : κ → Prop) (D : ν → Option κ) : Prop :=
  ∀ k v v', counts k → D v = some k → D v' = some k → v = v'

/-- Nothing but the number has this key. -/
def Only (D : ν → Option κ) (k : κ) (v : ν) : Prop := ∀ v', D v' = some k → v' = v

variable [DecidableEq κ] [DecidableEq ν] {b : Bidict κ ν} {l : List (κ × ν)}

/-- The keys that count stand for what the directory says, and no others do. -/
def Mirrors (counts : κ → Prop) (b : Bidict κ ν) (D : ν → Option κ) : Prop :=
  ∀ k v, counts k → (b.get? k = some v ↔ D v = some k)

omit [DecidableEq ν] in
theorem Mirrors.distinct (h : Mirrors counts b D) : Distinct counts D := by
  intro k v v' hk hv hv'
  have hget := (h k v hk).mpr hv
  rw [(h k v' hk).mpr hv'] at hget
  cases hget
  rfl

/-- The number takes a key that no other one has. -/
theorem Mirrors.put (h : Mirrors counts b D) (honly : Only D k v) :
    Mirrors counts (b.put k v) (Function.update D v (some k)) := by
  intro k' v' hk'
  rw [Bidict.get?_put]
  by_cases hv : v' = v
  · subst hv
    rw [Function.update_self]
    constructor
    · rintro (⟨rfl, -⟩ | ⟨-, -, hne⟩)
      · rfl
      · exact absurd rfl hne
    · intro hsome
      cases hsome
      exact Or.inl ⟨rfl, rfl⟩
  · rw [Function.update_of_ne hv, h k' v' hk']
    constructor
    · rintro (⟨-, hsame⟩ | ⟨hD, -⟩)
      · exact absurd hsame hv
      · exact hD
    · intro hD
      refine Or.inr ⟨hD, ?_, hv⟩
      rintro rfl
      exact hv (honly v' hD)

/-- What is known already may be put in again. -/
theorem Mirrors.put_known (h : Mirrors counts b D) (hk : counts k) (hD : D v = some k) :
    Mirrors counts (b.put k v) D := by
  have hput := h.put (k := k) (v := v) fun v' hv' => h.distinct k v' v hk hv' hD
  rwa [← hD, Function.update_eq_self] at hput

/-- A number goes, with the key that it had. -/
theorem Mirrors.erase (h : Mirrors counts b D) (hinv : b.inverse? v = some k) :
    Mirrors counts (b.erase k) (Function.update D v none) := by
  intro k' v' hk'
  have hget : b.get? k = some v := Bidict.inverse?_iff_get?.mp hinv
  rw [Bidict.get?_erase]
  by_cases hv : v' = v
  · subst hv
    rw [Function.update_self]
    constructor
    · rintro ⟨hget', hne⟩
      rw [Bidict.inverse?_iff_get?.mpr hget'] at hinv
      exact absurd (Option.some.inj hinv) hne
    · rintro ⟨⟩
  · rw [Function.update_of_ne hv, h k' v' hk']
    constructor
    · exact fun hD => hD.1
    · intro hD
      refine ⟨hD, ?_⟩
      rintro rfl
      have hget' := (h k' v' hk').mpr hD
      rw [hget] at hget'
      exact hv (Option.some.inj hget').symm

/-- A number goes that had no key. -/
theorem Mirrors.drop (h : Mirrors counts b D) (hinv : b.inverse? v = none) :
    Mirrors counts b (Function.update D v none) := by
  intro k' v' hk'
  by_cases hv : v' = v
  · subst hv
    rw [Function.update_self]
    constructor
    · intro hget
      rw [Bidict.inverse?_iff_get?.mpr hget] at hinv
      cases hinv
    · rintro ⟨⟩
  · rw [Function.update_of_ne hv]
    exact h k' v' hk'

/-- A number is there that has no key that counts. -/
theorem Mirrors.add (h : Mirrors counts b D) (hv : ∀ k', counts k' → D v ≠ some k')
    (hk : ¬ counts k) : Mirrors counts b (Function.update D v (some k)) := by
  intro k' v' hk'
  by_cases hvv : v' = v
  · subst hvv
    rw [h k' v' hk', Function.update_self]
    constructor
    · exact fun hD => absurd hD (hv k' hk')
    · rintro ⟨⟩
      exact absurd hk' hk
  · rw [Function.update_of_ne hvv]
    exact h k' v' hk'

/-- The whole directory is loaded. -/
theorem mirrors_load (hdistinct : Distinct counts D) (hl : ∀ e ∈ l, D e.2 = some e.1)
    (hall : ∀ k v, counts k → D v = some k → (k, v) ∈ l) :
    Mirrors counts (Bidict.empty.update l) D := by
  intro k v hk
  constructor
  · intro hget
    rcases Bidict.mem_of_get?_update hget with hmem | hempty
    · exact hl (k, v) hmem
    · cases hempty
  · intro hD
    refine Bidict.get?_update_of_mem (hall k v hk hD) ?_
    rintro ⟨k', v'⟩ he (hk' | hv') <;> have hD' := hl _ he
    · dsimp only at hk' hD'
      subst hk'
      rw [hdistinct k' v' v hk hD' hD]
    · dsimp only at hv' hD'
      subst hv'
      rw [hD'] at hD
      rw [Option.some.inj hD]

end mirrors
