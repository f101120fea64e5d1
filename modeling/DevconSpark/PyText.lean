-- Python text as a list of characters, with the methods of `str` that the
-- service uses.
import DevconSpark.Trimming
import Mathlib.Tactic.IntervalCases

open trimming

namespace py_text

abbrev Text := List Char

/-- Texts in lists are found by `==`. -/
instance : LawfulBEq Text := List.instLawfulBEq

/-- Quantifiers over a text look at its characters, not at all characters. -/
instance (p : Char → Prop) [DecidablePred p] (t : Text) : Decidable (∀ c ∈ t, p c) :=
  List.decidableBAll p t

instance (p : Char → Prop) [DecidablePred p] (t : Text) : Decidable (∃ c ∈ t, p c) :=
  List.decidableBEx p t

/-- The white space of `str.isspace`, that `str.strip` removes. -/
def isSpace (c : Char) : Bool :=
  let n := c.toNat
  (9 ≤ n && n ≤ 13) || (28 ≤ n && n ≤ 32) || n = 0x85 || n = 0xa0 || n = 0x1680 ||
    (0x2000 ≤ n && n ≤ 0x200a) || n = 0x2028 || n = 0x2029 || n = 0x202f || n = 0x205f ||
    n = 0x3000

def lstrip (t : Text) : Text := t.dropWhile isSpace

def rstrip (t : Text) : Text := (t.reverse.dropWhile isSpace).reverse

def strip (t : Text) : Text := rstrip (lstrip t)

/-- `t.strip(c)`, for one character. -/
def stripOf (c : Char) (t : Text) : Text :=
  ((t.dropWhile (· = c)).reverse.dropWhile (· = c)).reverse

def removePrefix (p t : Text) : Text := if p.isPrefixOf t then t.drop p.length else t

/-- What stands before the first `c`, and what follows it. -/
def partition (c : Char) (t : Text) : Text × Text :=
  (t.takeWhile (· ≠ c), (t.dropWhile (· ≠ c)).drop 1)

/-- `t.replace(old, new)`, with so many characters of `old` still to skip. -/
def replaceFrom (old new : Text) : Nat → Text → Text
  | _, [] => []
  | n + 1, _ :: cs => replaceFrom old new n cs
  | 0, c :: cs =>
    if old.isPrefixOf (c :: cs) then new ++ replaceFrom old new (old.length - 1) cs
    else c :: replaceFrom old new 0 cs

def replace (old new t : Text) : Text := replaceFrom old new 0 t

/-- What does not hold the first character of `old` is not replaced. -/
theorem replace_append {c : Char} {t : Text} (old new r : Text) (h : c ∉ t) :
    replace (c :: old) new (t ++ r) = t ++ replace (c :: old) new r := by
  unfold replace
  induction t with
  | nil => rfl
  | cons d t ih =>
    have hne : c ≠ d := fun he => h (he ▸ List.mem_cons_self)
    have hprefix : (c :: old).isPrefixOf (d :: (t ++ r)) = false := by
      rw [List.isPrefixOf, beq_eq_false_iff_ne.mpr hne, Bool.false_and]
    rw [List.cons_append, replaceFrom, hprefix, if_neg (by decide),
      ih fun hm => h (List.mem_cons_of_mem d hm), List.cons_append]

/-- A text that does not end in white space. -/
def Trimmed (t : Text) : Prop := ∀ c, t.getLast? = some c → isSpace c = false

instance (t : Text) : Decidable (Trimmed t) :=
  decidable_of_iff (t.getLast?.all (! isSpace ·) = true) (by
    unfold Trimmed
    cases t.getLast? <;> simp)

theorem rstrip_concat (t : Text) (c : Char) :
    rstrip (t ++ [c]) = if isSpace c then rstrip t else t ++ [c] := by
  unfold rstrip
  simp only [List.reverse_append, List.reverse_singleton, List.singleton_append,
    List.dropWhile_cons]
  split <;> simp

theorem rstrip_length (t : Text) : (rstrip t).length ≤ t.length := by
  have := (List.dropWhile_sublist isSpace (l := t.reverse)).length_le
  simpa [rstrip] using this

/-- Stripping changes exactly the texts that end in white space. -/
theorem rstrip_eq_self_iff (t : Text) : rstrip t = t ↔ Trimmed t := by
  rcases List.eq_nil_or_concat t with rfl | ⟨u, c, rfl⟩
  · simp [rstrip, Trimmed]
  · rw [List.concat_eq_append, rstrip_concat]
    simp only [Trimmed, List.getLast?_append, List.getLast?_singleton, Option.some_or,
      Option.some.injEq, forall_eq']
    split
    · rename_i hc
      simp only [hc, Bool.true_eq_false, iff_false]
      intro h
      have := rstrip_length u
      rw [h, List.length_append, List.length_singleton] at this
      omega
    · rename_i hc
      simpa using hc

theorem strip_eq_trim (t : Text) : strip t = trim isSpace t := rfl

theorem stripOf_eq_trim (c : Char) (t : Text) : stripOf c t = trim (fun x => decide (x = c)) t :=
  rfl

/-- A text without white space at its ends is not stripped. -/
theorem strip_eq_self {t : Text} (h : ∀ c, t.head? = some c → isSpace c = false)
    (ht : Trimmed t) : strip t = t := trim_of_tight ⟨h, ht⟩

theorem mem_strip {t : Text} {c : Char} (h : c ∈ t) (hc : isSpace c = false) : c ∈ strip t :=
  mem_trim h hc

/-- The digits of ASCII, one by one. -/
theorem isDigit_mem {c : Char} (h : c.isDigit = true) : c ∈ "0123456789".toList := by
  simp only [Char.isDigit, Bool.and_eq_true, decide_eq_true_eq] at h
  have h1 : 48 ≤ c.toNat := h.1
  have h2 : c.toNat ≤ 57 := h.2
  have hc : c = Char.ofNat c.toNat := (Char.ofNat_toNat c).symm
  rw [hc]
  obtain ⟨n, hn⟩ : ∃ n, c.toNat = n := ⟨_, rfl⟩
  rw [hn] at h1 h2 ⊢
  interval_cases n <;> decide

/-- The pieces of a text hold its characters, but for the separator. -/
theorem mem_splitOn {c : Char} {t piece : Text} (h : piece ∈ t.splitOn c) :
    ∀ x ∈ piece, x ≠ c ∧ x ∈ t := by
  unfold List.splitOn at h
  induction t generalizing piece with
  | nil => simp_all
  | cons y t ih =>
    have hmore : ∀ piece ∈ t.splitOnP (· == c), ∀ x ∈ piece, x ≠ c ∧ x ∈ y :: t := by
      intro piece hp x hx
      obtain ⟨hne, hmem⟩ := ih hp x hx
      exact ⟨hne, List.mem_cons_of_mem y hmem⟩
    rw [List.splitOnP_cons_eq_if_modifyHead] at h
    split at h
    · rcases List.mem_cons.mp h with rfl | h
      · simp
      · exact hmore piece h
    · rename_i hy
      obtain ⟨first, rest, hsplit⟩ :=
        List.exists_cons_of_ne_nil (List.splitOnP_ne_nil (· == c) t)
      rw [hsplit] at h hmore
      rcases List.mem_cons.mp h with rfl | h
      · intro x hx
        rcases List.mem_cons.mp hx with rfl | hx
        · exact ⟨by simpa using hy, List.mem_cons_self⟩
        · exact hmore first List.mem_cons_self x hx
      · exact hmore piece (List.mem_cons_of_mem first h)

end py_text
