-- The texts of Python numbers: what `float` reads, and what `str` writes for
-- a whole number and for a float of two decimals. Floats are exact rational
-- numbers here.
import DevconSpark.PyText
import Mathlib.Algebra.Order.Floor.Ring
import Mathlib.Data.Rat.Floor
import Mathlib.Tactic.FieldSimp
import Mathlib.Tactic.NormNum
import Mathlib.Tactic.Ring

open trimming py_text

namespace py_number

/-! ## Digits -/

/-- The zeros of the decimal digits of Unicode. Each is followed by its nine
other digits. -/
def decimalZeros : List Nat :=
  [0x30, 0x660, 0x6f0, 0x7c0, 0x966, 0x9e6, 0xa66, 0xae6, 0xb66, 0xbe6, 0xc66, 0xce6, 0xd66,
    0xde6, 0xe50, 0xed0, 0xf20, 0x1040, 0x1090, 0x17e0, 0x1810, 0x1946, 0x19d0, 0x1a80, 0x1a90,
    0x1b50, 0x1bb0, 0x1c40, 0x1c50, 0xa620, 0xa8d0, 0xa900, 0xa9d0, 0xa9f0, 0xaa50, 0xabf0,
    0xff10, 0x104a0, 0x10d30, 0x11066, 0x110f0, 0x11136, 0x111d0, 0x112f0, 0x11450, 0x114d0,
    0x11650, 0x116c0, 0x11730, 0x118e0, 0x11950, 0x11c50, 0x11d50, 0x11da0, 0x16a60, 0x16ac0,
    0x16b50, 0x1d7ce, 0x1d7d8, 0x1d7e2, 0x1d7ec, 0x1d7f6, 0x1e140, 0x1e2f0, 0x1e950, 0x1fbf0]

def digitValue? (c : Char) : Option Nat :=
  (decimalZeros.find? fun z => z ≤ c.toNat && c.toNat < z + 10).map fun z => c.toNat - z

def isDecimal (c : Char) : Bool := (digitValue? c).isSome

/-- The other digits of `str.isdigit`: superscripts, digits in circles and the like. -/
def isSpecialDigit (c : Char) : Bool :=
  let n := c.toNat
  (0xb2 ≤ n && n ≤ 0xb3) || n = 0xb9 || (0x1369 ≤ n && n ≤ 0x1371) || n = 0x19da || n = 0x2070 ||
    (0x2074 ≤ n && n ≤ 0x2079) || (0x2080 ≤ n && n ≤ 0x2089) || (0x2460 ≤ n && n ≤ 0x2468) ||
    (0x2474 ≤ n && n ≤ 0x247c) || (0x2488 ≤ n && n ≤ 0x2490) || n = 0x24ea ||
    (0x24f5 ≤ n && n ≤ 0x24fd) || n = 0x24ff || (0x2776 ≤ n && n ≤ 0x277e) ||
    (0x2780 ≤ n && n ≤ 0x2788) || (0x278a ≤ n && n ≤ 0x2792) || (0x10a40 ≤ n && n ≤ 0x10a43) ||
    (0x10e60 ≤ n && n ≤ 0x10e68) || (0x11052 ≤ n && n ≤ 0x1105a) || (0x1f100 ≤ n && n ≤ 0x1f10a)

/-- `t.isdigit()` -/
def isdigit (t : Text) : Bool := t ≠ [] && t.all fun c => isDecimal c || isSpecialDigit c

def digitsValue (ds : List Nat) : Nat := ds.foldl (fun n d => 10 * n + d) 0

/-! ## Reading -/

inductive PyFloat
  | fin (q : ℚ)
  | inf
  | neginf
  | nan
  deriving DecidableEq

/-- What follows a digit: `(["_"] digit)*`, as far as it goes. -/
def moreDigits : Text → List Nat × Text
  | '_' :: c :: cs =>
    match digitValue? c with
    | some d => (d :: (moreDigits cs).1, (moreDigits cs).2)
    | none => ([], '_' :: c :: cs)
  | c :: cs =>
    match digitValue? c with
    | some d => (d :: (moreDigits cs).1, (moreDigits cs).2)
    | none => ([], c :: cs)
  | [] => ([], [])

/-- `digit (["_"] digit)*` -/
def digitpart : Text → Option (List Nat × Text)
  | [] => none
  | c :: cs => (digitValue? c).map fun d => (d :: (moreDigits cs).1, (moreDigits cs).2)

/-- Whether a minus stands first, and what follows the sign. -/
def signed : Text → Bool × Text
  | '-' :: ds => (true, ds)
  | '+' :: ds => (false, ds)
  | ds => (false, ds)

/-- `[("e" | "E") [sign] digitpart]` up to the end of the text. -/
def exponent : Text → Option Int
  | [] => some 0
  | c :: cs =>
    if c = 'e' ∨ c = 'E' then
      match digitpart (signed cs).2 with
      | some (e, []) => some (if (signed cs).1 then - (digitsValue e : Int) else digitsValue e)
      | _ => none
    else none

/-- `n * 10 ^ k` -/
def shift (n : Nat) (k : Int) : ℚ :=
  if 0 ≤ k then (n : ℚ) * 10 ^ k.toNat else (n : ℚ) / 10 ^ (- k).toNat

/-- The fraction after a decimal point, if there is one. -/
def fraction : Text → List Nat × Text
  | '.' :: cs => (digitpart cs).getD ([], cs)
  | cs => ([], cs)

/-- A number without a sign: at least one digit, before or after the point. -/
def floatnumber (t : Text) : Option ℚ :=
  let (whole, r) := (digitpart t).getD ([], t)
  let (frac, r) := fraction r
  if whole = [] ∧ frac = [] then none
  else (exponent r).map fun e => shift (digitsValue (whole ++ frac)) (e - frac.length)

def unsigned (t : Text) : Option PyFloat :=
  let low := t.map Char.toLower
  if low = "inf".toList ∨ low = "infinity".toList then some .inf
  else if low = "nan".toList then some .nan
  else (floatnumber t).map .fin

def neg : PyFloat → PyFloat
  | .fin q => .fin (-q)
  | .inf => .neginf
  | .neginf => .inf
  | .nan => .nan

/-- `float(t)`. `none` is `ValueError`. -/
def float (t : Text) : Option PyFloat :=
  match strip t with
  | '-' :: r => (unsigned r).map neg
  | '+' :: r => unsigned r
  | r => unsigned r

/-- `int(t)`, for a text that `isdigit`. `none` is `ValueError`: a digit that is not decimal,
or more digits than Python reads. -/
def int (t : Text) : Option Nat :=
  if t.length > 4300 then none else (t.mapM digitValue?).map digitsValue

/-! ## Writing -/

/-- `str(n)` for a whole number. -/
def natText (n : Nat) : Text := Nat.toDigits 10 n

def intText (i : Int) : Text := if i < 0 then '-' :: natText i.natAbs else natText i.natAbs

/-- A whole number, halves to the even one. -/
def roundHalfEven (x : ℚ) : Int :=
  let f := ⌊x⌋
  if x - f < 1 / 2 then f
  else if 1 / 2 < x - f then f + 1
  else if f % 2 = 0 then f else f + 1

/-- `round(x, 2)`, in hundredths. -/
def hundredths (x : ℚ) : Int := roundHalfEven (100 * x)

/-- The decimals of a number of hundredths: no zero at the end but the first. -/
def centsText (c : Nat) : Text :=
  if c % 10 = 0 then natText (c / 10) else natText (c / 10) ++ natText (c % 10)

/-- The digits of a number without the zeros at its end. -/
def significant (n : Nat) : Text := ((natText n).reverse.dropWhile (· = '0')).reverse

/-- `str(n / 100)`. From `1e16` on, Python writes an exponent. -/
def unsignedText (n : Nat) : Text :=
  if n < 10 ^ 18 then natText (n / 100) ++ '.' :: centsText (n % 100)
  else
    let e := "e+".toList ++ natText ((natText n).length - 3)
    match significant n with
    | d :: [] => d :: e
    | d :: ds => d :: '.' :: ds ++ e
    | [] => e

def hundredthsText (n : Int) : Text :=
  if n < 0 then '-' :: unsignedText n.natAbs else unsignedText n.natAbs

/-! ## What is written is read back -/

theorem digitValue_of_isDigit {c : Char} (h : c.isDigit = true) :
    digitValue? c = some (c.toNat - 48) := by
  have hb : 48 ≤ c.toNat ∧ c.toNat < 48 + 10 := by
    simp only [Char.isDigit, Bool.and_eq_true, decide_eq_true_eq] at h
    have h1 : 48 ≤ c.toNat := h.1
    have h2 : c.toNat ≤ 57 := h.2
    omega
  unfold digitValue? decimalZeros
  rw [List.find?_cons_of_pos (by simpa using hb)]
  rfl

theorem moreDigits_cons {c : Char} {d : Nat} (t : Text) (hc : digitValue? c = some d) :
    moreDigits (c :: t) = (d :: (moreDigits t).1, (moreDigits t).2) := by
  have hu : c ≠ '_' := by
    rintro rfl
    have hno : digitValue? '_' = none := by decide
    simp [hno] at hc
  rw [moreDigits, hc]
  intro x xs hx
  cases hx
  exact absurd rfl hu

/-- No digit follows. -/
def Stops (r : Text) : Prop := moreDigits r = ([], r)

theorem stops_of_head {c : Char} (r : Text) (hc : digitValue? c = none) (hu : c ≠ '_') :
    Stops (c :: r) := by
  unfold Stops
  rw [moreDigits, hc]
  intro x xs hx
  cases hx
  exact absurd rfl hu

theorem moreDigits_digits {ds : Text} {r : Text} (h : ∀ c ∈ ds, c.isDigit = true)
    (hr : Stops r) : moreDigits (ds ++ r) = (ds.map fun c => c.toNat - 48, r) := by
  induction ds with
  | nil => exact hr
  | cons c ds ih =>
    rw [List.cons_append, moreDigits_cons _ (digitValue_of_isDigit (h c List.mem_cons_self)),
      ih fun x hx => h x (List.mem_cons_of_mem c hx)]
    rfl

/-- Digits up to something else are all taken. -/
theorem digitpart_digits {ds : Text} {r : Text} (h : ∀ c ∈ ds, c.isDigit = true)
    (hne : ds ≠ []) (hr : Stops r) :
    digitpart (ds ++ r) = some (ds.map fun c => c.toNat - 48, r) := by
  cases ds with
  | nil => exact absurd rfl hne
  | cons c ds =>
    rw [List.cons_append, digitpart, digitValue_of_isDigit (h c List.mem_cons_self),
      moreDigits_digits (fun x hx => h x (List.mem_cons_of_mem c hx)) hr]
    rfl

theorem digitsValue_digits (ds : Text) :
    digitsValue (ds.map fun c => c.toNat - 48) = Nat.ofDigitChars 10 ds 0 := by
  rw [Nat.ofDigitChars_eq_foldl, digitsValue, List.foldl_map]
  rfl

theorem digitsValue_append (a b : List Nat) :
    digitsValue (a ++ b) = digitsValue a * 10 ^ b.length + digitsValue b := by
  have hfrom : ∀ (l : List Nat) (n : Nat),
      l.foldl (fun n d => 10 * n + d) n = n * 10 ^ l.length + digitsValue l := by
    intro l
    induction l with
    | nil => simp [digitsValue]
    | cons d l ih =>
      intro n
      simp only [digitsValue, List.foldl_cons, List.length_cons, ih (10 * n + d),
        ih (10 * 0 + d)]
      ring
  rw [digitsValue, List.foldl_append, hfrom b]
  rfl

theorem natText_digits (n : Nat) : ∀ c ∈ natText n, c.isDigit = true :=
  fun _ hc => Nat.isDigit_of_mem_toDigits (by decide) (by decide) hc

theorem natText_ne_nil (n : Nat) : natText n ≠ [] := Nat.toDigits_ne_nil

theorem digitsValue_natText (n : Nat) :
    digitsValue ((natText n).map fun c => c.toNat - 48) = n := by
  rw [digitsValue_digits]
  exact Nat.ofDigitChars_ten_toDigits

theorem natText_isdigit (n : Nat) : isdigit (natText n) = true := by
  unfold isdigit isDecimal
  rw [Bool.and_eq_true, List.all_eq_true]
  refine ⟨decide_eq_true (natText_ne_nil n), fun c hc => ?_⟩
  rw [digitValue_of_isDigit (natText_digits n c hc)]
  rfl

/-- A smaller number has no more digits. -/
theorem natText_length_mono {m n k : Nat} (h : m ≤ n) (hk : 0 < k)
    (hn : (natText n).length ≤ k) : (natText m).length ≤ k :=
  (Nat.length_toDigits_le_iff (by decide) hk).mpr
    (h.trans_lt ((Nat.length_toDigits_le_iff (by decide) hk).mp hn))

/-- A number is read back from its digits, unless there are more than Python reads. -/
theorem int_natText (n : Nat) :
    int (natText n) = if (natText n).length > 4300 then none else some n := by
  have hread : ∀ ds : Text, (∀ c ∈ ds, c.isDigit = true) →
      ds.mapM digitValue? = some (ds.map fun c => c.toNat - 48) := by
    intro ds hds
    induction ds with
    | nil => rfl
    | cons c ds ih =>
      rw [List.mapM_cons, digitValue_of_isDigit (hds c List.mem_cons_self),
        ih fun x hx => hds x (List.mem_cons_of_mem c hx)]
      rfl
  rw [int, hread _ (natText_digits n), Option.map_some, digitsValue_natText]

theorem digitpart_natText (n : Nat) {r : Text} (hr : Stops r) :
    digitpart (natText n ++ r) = some ((natText n).map fun c => c.toNat - 48, r) :=
  digitpart_digits (natText_digits n) (natText_ne_nil n) hr

theorem natText_digit {n : Nat} (h : n < 10) : natText n = [n.digitChar] :=
  Nat.toDigits_of_lt_base h

/-- The decimals are one or two digits, and are worth their hundredths. -/
theorem centsText_value {c : Nat} (h : c < 100) :
    (∀ x ∈ centsText c, x.isDigit = true) ∧ centsText c ≠ [] ∧
      ∀ w : Nat, (shift (w * 10 ^ (centsText c).length +
        digitsValue ((centsText c).map fun x => x.toNat - 48))
          (0 - ((centsText c).length : Int)) : ℚ) = (w * 100 + c : Nat) / 100 := by
  unfold centsText
  split
  · refine ⟨natText_digits _, natText_ne_nil _, fun w => ?_⟩
    have hone : (natText (c / 10)).length = 1 := by
      rw [natText_digit (by omega)]
      rfl
    rw [digitsValue_natText, hone]
    have hc : c = 10 * (c / 10) := by omega
    obtain ⟨k, hk⟩ : ∃ k, c / 10 = k := ⟨_, rfl⟩
    rw [hk] at hc
    subst hc
    rw [hk]
    simp only [shift]
    norm_num
    ring
  · refine ⟨?_, by simp [natText_ne_nil], fun w => ?_⟩
    · intro x hx
      rcases List.mem_append.mp hx with hx | hx
      · exact natText_digits _ x hx
      · exact natText_digits _ x hx
    · have htwo : (natText (c / 10) ++ natText (c % 10)).length = 2 := by
        rw [natText_digit (by omega), natText_digit (by omega)]
        rfl
      have hlast : ((natText (c % 10)).map fun x => x.toNat - 48).length = 1 := by
        rw [natText_digit (by omega)]
        rfl
      rw [List.map_append, digitsValue_append, digitsValue_natText, digitsValue_natText, htwo,
        hlast]
      have hc : c / 10 * 10 ^ 1 + c % 10 = c := by omega
      rw [hc]
      have hexp : ¬ (0 : Int) ≤ 0 - ((2 : Nat) : Int) := by decide
      rw [shift, if_neg hexp]
      norm_num
      rfl

theorem head_isDigit {t : Text} {ds : Text} {r : Text} (ht : t = ds ++ r)
    (h : ∀ c ∈ ds, c.isDigit = true) (hne : ds ≠ []) : ∃ c cs, t = c :: cs ∧ c.isDigit = true := by
  cases ds with
  | nil => exact absurd rfl hne
  | cons c ds => exact ⟨c, ds ++ r, ht, h c List.mem_cons_self⟩

theorem floatnumber_parts {t r r' : Text} {whole frac : List Nat} {e : Int}
    (hwhole : digitpart t = some (whole, r)) (hne : whole ≠ []) (hfrac : fraction r = (frac, r'))
    (hexp : exponent r' = some e) :
    floatnumber t = some (shift (digitsValue (whole ++ frac)) (e - frac.length)) := by
  unfold floatnumber
  rw [hwhole]
  simp [hfrac, hne, hexp]

/-- Without an exponent. -/
theorem floatnumber_short {n : Nat} (h : n < 10 ^ 18) :
    floatnumber (unsignedText n) = some ((n : ℚ) / 100) := by
  obtain ⟨hdigits, hcents, hvalue⟩ := centsText_value (c := n % 100) (by omega)
  have hwhole : digitpart (unsignedText n) =
      some ((natText (n / 100)).map fun c => c.toNat - 48, '.' :: centsText (n % 100)) := by
    rw [unsignedText, if_pos h]
    exact digitpart_natText _ (stops_of_head _ (by decide) (by decide))
  have hfrac : digitpart (centsText (n % 100)) =
      some ((centsText (n % 100)).map fun c => c.toNat - 48, []) := by
    have := digitpart_digits hdigits hcents (r := []) rfl
    rwa [List.append_nil] at this
  have hne : (natText (n / 100)).map (fun c => c.toNat - 48) ≠ [] := by simp [natText_ne_nil]
  rw [floatnumber_parts hwhole hne (by rw [fraction, hfrac, Option.getD_some]) rfl]
  simp only [List.length_map, digitsValue_append, digitsValue_natText]
  rw [hvalue (n / 100)]
  congr 2
  norm_cast
  omega

theorem digitsValue_zeros (k : Nat) : digitsValue (List.replicate k 0) = 0 := by
  induction k with
  | zero => rfl
  | succ k ih => exact ih

/-- The digits of a number, and the zeros at its end. -/
theorem significant_spec {n : Nat} (h : 0 < n) :
    ∃ d ds k, significant n = d :: ds ∧ natText n = d :: ds ++ List.replicate k '0' := by
  have hzeros : ∃ k, natText n = significant n ++ List.replicate k '0' := by
    have hsplit := List.rdropWhile_append_rtakeWhile (p := (· = '0')) (l := natText n)
    have hall : ∀ c ∈ (natText n).rtakeWhile (· = '0'), c = '0' := fun c hc => by
      simpa using List.mem_rtakeWhile_imp hc
    rw [List.eq_replicate_of_mem hall] at hsplit
    exact ⟨_, hsplit.symm⟩
  obtain ⟨k, hk⟩ := hzeros
  cases hsig : significant n with
  | nil =>
    have hvalue := digitsValue_natText n
    rw [hk, hsig, List.nil_append, List.map_replicate] at hvalue
    have hzero := hvalue.symm.trans (digitsValue_zeros k)
    omega
  | cons d ds => exact ⟨d, ds, k, rfl, hsig ▸ hk⟩

theorem shift_zeros (v k : Nat) : shift v ((k : Int) - 2) = ((v * 10 ^ k : Nat) : ℚ) / 100 := by
  unfold shift
  split
  · have hk : ((k : Int) - 2).toNat = k - 2 := by omega
    have hpow : (10 : ℚ) ^ k = 10 ^ (k - 2) * 10 ^ 2 := by
      rw [← pow_add]
      congr 1
      omega
    rw [hk]
    push_cast
    rw [hpow]
    ring
  · rcases (by omega : k = 0 ∨ k = 1) with rfl | rfl
    · simp
      norm_num
    · norm_num
      ring

/-- With an exponent: a digit, a point and more digits where there are more, and the power
of the first digit. -/
theorem floatnumber_long {n : Nat} (h : 10 ^ 18 ≤ n) :
    floatnumber (unsignedText n) = some ((n : ℚ) / 100) := by
  obtain ⟨d, ds, k, hsig, htext⟩ := significant_spec (show 0 < n by omega)
  have hdigits : ∀ c ∈ d :: ds, c.isDigit = true := fun c hc =>
    natText_digits n c (htext ▸ List.mem_append_left _ hc)
  have hlong : ¬ (natText n).length ≤ 18 := fun hle => by
    have := (Nat.length_toDigits_le_iff (by decide) (by decide)).mp hle
    omega
  have hlength : (natText n).length = 1 + ds.length + k := by
    simp [htext]
    omega
  have hvalue : n = digitsValue ((d :: ds).map fun c => c.toNat - 48) * 10 ^ k := by
    have hn := digitsValue_natText n
    rw [htext, List.map_append, digitsValue_append, List.map_replicate,
      List.length_replicate] at hn
    have hzero : digitsValue (List.replicate k ('0'.toNat - 48)) = 0 := digitsValue_zeros k
    rw [hzero, Nat.add_zero] at hn
    exact hn.symm
  have hexp : exponent ('e' :: '+' :: natText ((natText n).length - 3)) =
      some (((natText n).length - 3 : Nat) : Int) := by
    have hpart := digitpart_natText ((natText n).length - 3) (r := []) rfl
    rw [List.append_nil] at hpart
    simp only [exponent, signed, hpart, true_or, if_true, digitsValue_natText, Bool.false_eq_true,
      if_false]
  have hstops : ∀ r, Stops ('e' :: r) := fun r => stops_of_head r (by decide) (by decide)
  have hpower : ((((natText n).length - 3 : Nat) : Int) - (ds.length : Int)) = (k : Int) - 2 := by
    omega
  have hshift := shift_zeros (digitsValue ((d :: ds).map fun c => c.toNat - 48)) k
  rw [← hvalue] at hshift
  have hdot : Stops ('.' :: (ds ++ 'e' :: '+' :: natText ((natText n).length - 3))) :=
    stops_of_head _ (by decide) (by decide)
  have hfirst : ∀ r, Stops r → digitpart (d :: r) = some ([d.toNat - 48], r) := fun r hr =>
    @digitpart_digits [d] r (by simpa using hdigits d List.mem_cons_self) (by simp) hr
  unfold unsignedText
  rw [if_neg (by omega), hsig]
  cases ds with
  | nil =>
    refine (floatnumber_parts (hfirst _ (hstops _)) (by simp) rfl hexp).trans ?_
    rw [← hshift, ← hpower]
    rfl
  | cons x xs =>
    have hmore := digitpart_digits (fun c hc => hdigits c (List.mem_cons_of_mem d hc))
      (List.cons_ne_nil x xs) (hstops ('+' :: natText ((natText n).length - 3)))
    refine (floatnumber_parts (hfirst _ hdot) (by simp)
      (by rw [fraction, hmore, Option.getD_some]) hexp).trans ?_
    rw [← hshift, ← hpower]
    simp

theorem floatnumber_unsignedText (n : Nat) :
    floatnumber (unsignedText n) = some ((n : ℚ) / 100) := by
  rcases Nat.lt_or_ge n (10 ^ 18) with h | h
  · exact floatnumber_short h
  · exact floatnumber_long h

theorem floatnumber_natText (n : Nat) : floatnumber (natText n) = some (n : ℚ) := by
  have hwhole : digitpart (natText n) = some ((natText n).map fun c => c.toNat - 48, []) := by
    have := digitpart_natText n (r := []) rfl
    rwa [List.append_nil] at this
  unfold floatnumber
  rw [hwhole]
  simp [fraction, exponent, natText_ne_nil, digitsValue_natText, shift]

/-- A text that begins and ends with a digit. -/
def DigitEnds (u : Text) : Prop :=
  (∃ c cs, u = c :: cs ∧ c.isDigit = true) ∧ ∃ cs c, u = cs ++ [c] ∧ c.isDigit = true

/-- Digits, something else, and digits. -/
theorem ends_of_digits {ds es : Text} (r : Text) (hds : ∀ c ∈ ds, c.isDigit = true)
    (hne : ds ≠ []) (hes : ∀ c ∈ es, c.isDigit = true) (hne' : es ≠ []) :
    DigitEnds (ds ++ r ++ es) := by
  refine ⟨head_isDigit (List.append_assoc ds r es) hds hne, ?_⟩
  rcases List.eq_nil_or_concat es with hnil | ⟨cs, c, hc⟩
  · exact absurd hnil hne'
  · exact ⟨ds ++ r ++ cs, c, by simp [hc], hes c (by simp [hc])⟩

theorem unsignedText_ends (n : Nat) : DigitEnds (unsignedText n) := by
  rcases Nat.lt_or_ge n (10 ^ 18) with h | h
  · obtain ⟨hdigits, hne, -⟩ := centsText_value (c := n % 100) (by omega)
    have htext : unsignedText n = natText (n / 100) ++ ['.'] ++ centsText (n % 100) := by
      rw [unsignedText, if_pos h]
      simp
    rw [htext]
    exact ends_of_digits ['.'] (natText_digits _) (natText_ne_nil _) hdigits hne
  · obtain ⟨d, ds, k, hsig, htext⟩ := significant_spec (show 0 < n by omega)
    have hd : ∀ c ∈ [d], c.isDigit = true := by
      intro c hc
      rw [List.mem_singleton.mp hc]
      exact natText_digits n d (by simp [htext])
    obtain ⟨r, hr⟩ : ∃ r, unsignedText n = [d] ++ r ++ natText ((natText n).length - 3) := by
      unfold unsignedText
      rw [if_neg (by omega), hsig]
      cases ds with
      | nil => exact ⟨"e+".toList, rfl⟩
      | cons x xs => exact ⟨'.' :: (x :: xs ++ "e+".toList), by simp⟩
    rw [hr]
    exact ends_of_digits r hd (by simp) (natText_digits _) (natText_ne_nil _)

theorem mem_unsignedText {n : Nat} {c : Char} (h : c ∈ unsignedText n) :
    c.isDigit = true ∨ c ∈ ".e+".toList := by
  rcases Nat.lt_or_ge n (10 ^ 18) with hn | hn
  · obtain ⟨hdigits, -, -⟩ := centsText_value (c := n % 100) (by omega)
    rw [unsignedText, if_pos hn] at h
    rcases List.mem_append.mp h with h | h
    · exact Or.inl (natText_digits _ c h)
    · rcases List.mem_cons.mp h with rfl | h
      · exact Or.inr (by decide)
      · exact Or.inl (hdigits c h)
  · obtain ⟨d, ds, k, hsig, htext⟩ := significant_spec (show 0 < n by omega)
    have hdigits : ∀ x ∈ d :: ds, x.isDigit = true := fun x hx =>
      natText_digits n x (htext ▸ List.mem_append_left _ hx)
    have hin : c ∈ d :: ds ∨ c ∈ ".e+".toList ∨ c ∈ natText ((natText n).length - 3) := by
      unfold unsignedText at h
      rw [if_neg (by omega), hsig] at h
      cases ds with
      | nil =>
        simp at h ⊢
        tauto
      | cons x xs =>
        simp at h ⊢
        tauto
    rcases hin with hin | hin | hin
    · exact Or.inl (hdigits c hin)
    · exact Or.inr hin
    · exact Or.inl (natText_digits _ c hin)

theorem natText_ends (n : Nat) : DigitEnds (natText n) := by
  refine ⟨head_isDigit (List.append_nil _).symm (natText_digits n) (natText_ne_nil n), ?_⟩
  rcases List.eq_nil_or_concat (natText n) with hnil | ⟨cs, c, hc⟩
  · exact absurd hnil (natText_ne_nil n)
  · rw [List.concat_eq_append] at hc
    exact ⟨cs, c, hc, natText_digits n c (by simp [hc])⟩

theorem digit_not_space {c : Char} (h : c.isDigit = true) : isSpace c = false := by
  have hall : ∀ x ∈ "0123456789".toList, isSpace x = false := by decide
  exact hall c (isDigit_mem h)

theorem unsigned_of_ends {u : Text} (h : DigitEnds u) :
    unsigned u = (floatnumber u).map .fin := by
  obtain ⟨⟨c, cs, rfl, hc⟩, -⟩ := h
  have hlow : ∀ x ∈ "0123456789".toList, x.toLower ≠ 'i' ∧ x.toLower ≠ 'n' := by decide
  obtain ⟨hi, hn⟩ := hlow c (isDigit_mem hc)
  simp [unsigned, hi, hn]

theorem strip_of_ends {u : Text} (h : DigitEnds u) : strip u = u ∧ strip ('-' :: u) = '-' :: u := by
  obtain ⟨⟨c, cs, hcs, hc⟩, ds, d, hds, hd⟩ := h
  have htrim : ∀ p, Trimmed (p ++ u) := by
    intro p x hx
    simp only [hds, List.getLast?_append, List.getLast?_singleton, Option.some_or,
      Option.some.injEq] at hx
    exact hx ▸ digit_not_space hd
  refine ⟨strip_eq_self ?_ (htrim []), strip_eq_self ?_ (htrim ['-'])⟩
  · intro x hx
    simp only [hcs, List.head?_cons, Option.some.injEq] at hx
    exact hx ▸ digit_not_space hc
  · intro x hx
    cases hx
    decide

theorem signed_of_ends {u : Text} (h : DigitEnds u) : signed u = (false, u) := by
  obtain ⟨⟨c, cs, rfl, hc⟩, -⟩ := h
  have hsigns : ∀ x ∈ "0123456789".toList, x ≠ '-' ∧ x ≠ '+' := by decide
  obtain ⟨hm, hp⟩ := hsigns c (isDigit_mem hc)
  unfold signed
  split
  · rename_i he
    cases he
    exact absurd rfl hm
  · rename_i he
    cases he
    exact absurd rfl hp
  · rfl

/-- `float` of a number without and with a sign. -/
theorem float_of_ends {u : Text} {q : ℚ} (h : DigitEnds u) (hq : floatnumber u = some q) :
    float u = some (.fin q) ∧ float ('-' :: u) = some (.fin (-q)) := by
  have hu : unsigned u = some (.fin q) := by rw [unsigned_of_ends h, hq]; rfl
  constructor
  · rw [float, (strip_of_ends h).1, ← hu]
    obtain ⟨⟨c, cs, rfl, hc⟩, -⟩ := h
    have hsigns : ∀ x ∈ "0123456789".toList, x ≠ '-' ∧ x ≠ '+' := by decide
    obtain ⟨hm, hp⟩ := hsigns c (isDigit_mem hc)
    split
    · rename_i he
      cases he
      exact absurd rfl hm
    · rename_i he
      cases he
      exact absurd rfl hp
    · rfl
  · rw [float, (strip_of_ends h).2]
    simp [hu, neg]

theorem natAbs_neg {i : Int} (h : i < 0) : ((i.natAbs : Nat) : ℚ) = -(i : ℚ) := by
  rw [Nat.cast_natAbs, abs_of_neg h]
  simp

theorem natAbs_nonneg {i : Int} (h : ¬ i < 0) : ((i.natAbs : Nat) : ℚ) = (i : ℚ) := by
  rw [Nat.cast_natAbs, abs_of_nonneg (by omega)]

/-- `float` reads what `str` writes for a whole number. -/
theorem float_intText (i : Int) : float (intText i) = some (.fin (i : ℚ)) := by
  obtain ⟨hpos, hneg⟩ := float_of_ends (natText_ends i.natAbs) (floatnumber_natText _)
  unfold intText
  split
  · rename_i h
    rw [hneg, natAbs_neg h, neg_neg]
  · rename_i h
    rw [hpos, natAbs_nonneg h]

/-- `float` reads what `str` writes for a float. -/
theorem float_hundredthsText (n : Int) :
    float (hundredthsText n) = some (.fin ((n : ℚ) / 100)) := by
  obtain ⟨hpos, hneg⟩ := float_of_ends (unsignedText_ends n.natAbs) (floatnumber_unsignedText _)
  unfold hundredthsText
  split
  · rename_i hn
    rw [hneg, natAbs_neg hn]
    congr 2
    ring
  · rename_i hn
    rw [hpos, natAbs_nonneg hn]

/-! ## Rounding -/

theorem roundHalfEven_floor (x : ℚ) : roundHalfEven x = ⌊x⌋ ∨ roundHalfEven x = ⌊x⌋ + 1 := by
  simp only [roundHalfEven]
  split
  · exact Or.inl rfl
  · split
    · exact Or.inr rfl
    · split
      · exact Or.inl rfl
      · exact Or.inr rfl

theorem hundredths_nonneg {x : ℚ} (h : 0 ≤ x) : 0 ≤ hundredths x := by
  have hfloor : 0 ≤ ⌊100 * x⌋ := Int.floor_nonneg.mpr (by linarith)
  rcases roundHalfEven_floor (100 * x) with hr | hr
  · rw [hundredths, hr]
    exact hfloor
  · rw [hundredths, hr]
    omega

/-- A number below 10^15 is written without an exponent. -/
theorem hundredths_lt {x : ℚ} (h : |x| < 10 ^ 15) : (hundredths x).natAbs < 10 ^ 18 := by
  obtain ⟨hlow, hhigh⟩ := abs_lt.mp h
  have hless : ⌊100 * x⌋ < 10 ^ 17 := by
    rw [Int.floor_lt]
    push_cast
    linarith
  have hmore : -10 ^ 17 ≤ ⌊100 * x⌋ := by
    rw [Int.le_floor]
    push_cast
    linarith
  rcases roundHalfEven_floor (100 * x) with hr | hr
  · rw [hundredths, hr]
    omega
  · rw [hundredths, hr]
    omega

theorem floatnumber_nonneg {t : Text} {q : ℚ} (h : floatnumber t = some q) : 0 ≤ q := by
  simp only [floatnumber] at h
  split at h
  · cases h
  · obtain ⟨e, -, rfl⟩ := Option.map_eq_some_iff.mp h
    unfold shift
    split <;> positivity

/-- A number without a minus sign is not below zero. -/
theorem float_nonneg {t : Text} {q : ℚ} (hminus : '-' ∉ t) (h : float t = some (.fin q)) :
    0 ≤ q := by
  have hunsigned : ∀ r : Text, unsigned r = some (.fin q) → 0 ≤ q := by
    intro r hr
    simp only [unsigned] at hr
    split at hr
    · cases hr
    · split at hr
      · cases hr
      · obtain ⟨q', hq', he⟩ := Option.map_eq_some_iff.mp hr
        cases he
        exact floatnumber_nonneg hq'
  have hstrip : '-' ∉ strip t := fun hm => hminus (mem_of_mem_trim _ hm)
  unfold float at h
  split at h
  · rename_i r hr
    rw [hr] at hstrip
    exact absurd List.mem_cons_self hstrip
  · exact hunsigned _ h
  · exact hunsigned _ h

theorem roundHalfEven_intCast (i : Int) : roundHalfEven (i : ℚ) = i := by
  simp [roundHalfEven]

theorem roundHalfEven_down {x : ℚ} (h : x - ⌊x⌋ < 1 / 2) : roundHalfEven x = ⌊x⌋ := if_pos h

theorem roundHalfEven_up {x : ℚ} (h : 1 / 2 < x - ⌊x⌋) : roundHalfEven x = ⌊x⌋ + 1 := by
  simp only [roundHalfEven]
  rw [if_neg (not_lt.mpr h.le), if_pos h]

theorem roundHalfEven_mono {x y : ℚ} (h : x ≤ y) : roundHalfEven x ≤ roundHalfEven y := by
  rcases (Int.floor_le_floor h).lt_or_eq with hlt | hfloor
  · rcases roundHalfEven_floor x with hx | hx <;> rcases roundHalfEven_floor y with hy | hy <;> omega
  · rcases h.lt_or_eq with hxy | rfl
    · -- between the same two whole numbers, the smaller one is not rounded up alone
      rcases lt_or_ge (1 / 2) (y - ⌊y⌋) with hup | hdown
      · rw [roundHalfEven_up hup]
        rcases roundHalfEven_floor x with hx | hx <;> omega
      · have hx : x - ⌊x⌋ < 1 / 2 := by
          rw [hfloor]
          linarith
        rw [roundHalfEven_down hx]
        rcases roundHalfEven_floor y with hy | hy <;> omega
    · exact le_rfl

theorem hundredths_div (n : Int) : hundredths ((n : ℚ) / 100) = n := by
  rw [hundredths, mul_div_cancel₀ (n : ℚ) (by norm_num)]
  exact roundHalfEven_intCast n

/-! ## What is no number -/

/-- A character that stands in no number. -/
def Foreign (c : Char) : Prop :=
  isSpace c = false ∧ isDecimal c = false ∧ c.toLower ∉ "_.e+-infatyINFATY".toList

instance (c : Char) : Decidable (Foreign c) := inferInstanceAs (Decidable (_ ∧ _ ∧ _))

theorem moreDigits_mem {t : Text} {c : Char} (h : c ∈ t) (hc : Foreign c) :
    c ∈ (moreDigits t).2 := by
  have hd : digitValue? c = none := by simpa [isDecimal] using hc.2.1
  have hu : c ≠ '_' := by
    rintro rfl
    exact hc.2.2 (by decide)
  induction t using moreDigits.induct with
  | case1 x cs d hx ih =>
    rw [moreDigits, hx]
    apply ih
    simp only [List.mem_cons, hu, false_or] at h
    rcases h with rfl | h
    · simp [hd] at hx
    · exact h
  | case2 x cs hx => rw [moreDigits, hx]; exact h
  | case3 x cs hne d hx ih =>
    rw [moreDigits_cons cs hx]
    apply ih
    rcases List.mem_cons.mp h with rfl | h
    · simp [hd] at hx
    · exact h
  | case4 x cs hne hx =>
    rw [moreDigits, hx]
    · exact h
    · exact hne
  | case5 => simp at h

theorem digitpart_mem {t r : Text} {ds : List Nat} {c : Char} (h : c ∈ t) (hc : Foreign c)
    (ht : digitpart t = some (ds, r)) : c ∈ r := by
  cases t with
  | nil => simp at h
  | cons x cs =>
    simp only [digitpart, Option.map_eq_some_iff, Prod.mk.injEq] at ht
    obtain ⟨d, hx, -, rfl⟩ := ht
    apply moreDigits_mem _ hc
    rcases List.mem_cons.mp h with rfl | h
    · have hd : digitValue? c = none := by simpa [isDecimal] using hc.2.1
      simp [hd] at hx
    · exact h

theorem digitpart_getD_mem {t : Text} {c : Char} (h : c ∈ t) (hc : Foreign c) :
    c ∈ ((digitpart t).getD ([], t)).2 := by
  rcases ht : digitpart t with _ | ⟨ds, r⟩
  · exact h
  · exact digitpart_mem h hc ht

/-- No sign and no exponent mark is foreign. -/
theorem foreign_ne {c y : Char} (hc : Foreign c) (hy : y ∈ "eE+-.".toList) : c ≠ y := by
  rintro rfl
  have hall : ∀ y ∈ "eE+-.".toList, ¬ Foreign y := by decide
  exact hall c hy hc

theorem fraction_mem {t : Text} {c : Char} (h : c ∈ t) (hc : Foreign c) :
    c ∈ (fraction t).2 := by
  unfold fraction
  split
  · apply digitpart_getD_mem _ hc
    exact (List.mem_cons.mp h).resolve_left (foreign_ne hc (by decide))
  · exact h

theorem signed_mem {t : Text} {c : Char} (h : c ∈ t) (hc : Foreign c) : c ∈ (signed t).2 := by
  unfold signed
  split
  · exact (List.mem_cons.mp h).resolve_left (foreign_ne hc (by decide))
  · exact (List.mem_cons.mp h).resolve_left (foreign_ne hc (by decide))
  · exact h

theorem exponent_foreign {t : Text} {c : Char} (h : c ∈ t) (hc : Foreign c) :
    exponent t = none := by
  cases t with
  | nil => simp at h
  | cons x cs =>
    rw [exponent]
    split
    · rename_i he
      have hx : c ≠ x := by
        rcases he with rfl | rfl <;> exact foreign_ne hc (by decide)
      have hcs := signed_mem ((List.mem_cons.mp h).resolve_left hx) hc
      split
      · rename_i e hds
        simpa using digitpart_mem hcs hc hds
      · rfl
    · rfl

theorem unsigned_foreign {t : Text} {c : Char} (h : c ∈ t) (hc : Foreign c) :
    unsigned t = none := by
  have hlow : c.toLower ∈ t.map Char.toLower := List.mem_map_of_mem h
  have hword : ∀ w : Text, (∀ x ∈ w, x ∈ "_.e+-infatyINFATY".toList) →
      t.map Char.toLower ≠ w := by
    rintro w hw rfl
    exact hc.2.2 (hw _ hlow)
  unfold unsigned floatnumber
  simp only
  rw [if_neg, if_neg]
  · split
    · rfl
    · rw [exponent_foreign (fraction_mem (digitpart_getD_mem h hc) hc) hc]
      rfl
  · exact hword _ (by decide)
  · rintro (hi | hi)
    · exact hword _ (by decide) hi
    · exact hword _ (by decide) hi

/-- A text with a foreign character is no number. -/
theorem float_foreign {t : Text} {c : Char} (h : c ∈ t) (hc : Foreign c) : float t = none := by
  have hstrip := mem_strip h hc.1
  unfold float
  split
  · rename_i r hr
    rw [hr] at hstrip
    rw [unsigned_foreign ((List.mem_cons.mp hstrip).resolve_left (foreign_ne hc (by decide))) hc]
    rfl
  · rename_i r hr
    rw [hr] at hstrip
    exact unsigned_foreign ((List.mem_cons.mp hstrip).resolve_left (foreign_ne hc (by decide))) hc
  · exact unsigned_foreign hstrip hc

/-! ## Decimals of any script -/

theorem digitValue_of_isDecimal {c : Char} (h : isDecimal c = true) : ∃ d, digitValue? c = some d :=
  Option.isSome_iff_exists.mp h

/-- What holds of all decimal digits of all scripts, holds of each of them. -/
theorem decimal_cases {P : Char → Prop}
    (hall : ∀ z ∈ decimalZeros, ∀ k < 10, P (Char.ofNat (z + k))) {c : Char}
    (h : isDecimal c = true) : P c := by
  obtain ⟨d, hd⟩ := digitValue_of_isDecimal h
  obtain ⟨z, hz, -⟩ := Option.map_eq_some_iff.mp hd
  have hrange := List.find?_some hz
  simp only [Bool.and_eq_true, decide_eq_true_eq] at hrange
  have hcode := hall z (List.mem_of_find?_eq_some hz) (c.toNat - z) (by omega)
  rwa [Nat.add_sub_cancel' hrange.1, Char.ofNat_toNat] at hcode

/-- A decimal digit of any script is no white space. -/
theorem decimal_not_space {c : Char} (h : isDecimal c = true) : isSpace c = false :=
  decimal_cases (P := fun c => isSpace c = false) (by decide +kernel) h

/-- No decimal digit begins the name of a number. -/
theorem decimal_not_name {c : Char} (h : isDecimal c = true) : c.toLower ≠ 'i' ∧ c.toLower ≠ 'n' :=
  decimal_cases (P := fun c => c.toLower ≠ 'i' ∧ c.toLower ≠ 'n') (by decide +kernel) h

theorem moreDigits_decimals {ds r : Text} (h : ∀ c ∈ ds, isDecimal c = true) (hr : Stops r) :
    moreDigits (ds ++ r) = (ds.filterMap digitValue?, r) := by
  induction ds with
  | nil => exact hr
  | cons c ds ih =>
    obtain ⟨d, hd⟩ := digitValue_of_isDecimal (h c List.mem_cons_self)
    rw [List.cons_append, moreDigits_cons _ hd, ih fun x hx => h x (List.mem_cons_of_mem c hx),
      List.filterMap_cons_some hd]

theorem digitpart_decimals {ds r : Text} (h : ∀ c ∈ ds, isDecimal c = true) (hne : ds ≠ [])
    (hr : Stops r) : digitpart (ds ++ r) = some (ds.filterMap digitValue?, r) ∧
      ds.filterMap digitValue? ≠ [] := by
  cases ds with
  | nil => exact absurd rfl hne
  | cons c ds =>
    obtain ⟨d, hd⟩ := digitValue_of_isDecimal (h c List.mem_cons_self)
    rw [List.cons_append, digitpart, hd,
      moreDigits_decimals (fun x hx => h x (List.mem_cons_of_mem c hx)) hr,
      List.filterMap_cons_some hd]
    exact ⟨rfl, List.cons_ne_nil _ _⟩

/-- Decimals, and decimals after a point. -/
theorem floatnumber_decimals {whole frac : Text} (hwhole : ∀ c ∈ whole, isDecimal c = true)
    (hne : whole ≠ []) (hfrac : ∀ c ∈ frac, isDecimal c = true) :
    (∃ q, floatnumber whole = some q) ∧ ∃ q, floatnumber (whole ++ '.' :: frac) = some q := by
  have hend : ∀ {ds : Text}, (∀ c ∈ ds, isDecimal c = true) → ds ≠ [] →
      digitpart ds = some (ds.filterMap digitValue?, []) := by
    intro ds hds hds'
    have hpart := (digitpart_decimals hds hds' (r := []) rfl).1
    rwa [List.append_nil] at hpart
  obtain ⟨hpart, hdigits⟩ := digitpart_decimals hwhole hne
    (stops_of_head frac (c := '.') (by decide) (by decide))
  refine ⟨⟨_, floatnumber_parts (hend hwhole hne) hdigits rfl rfl⟩, ?_⟩
  by_cases hnone : frac = []
  · subst hnone
    exact ⟨_, floatnumber_parts hpart hdigits rfl rfl⟩
  · exact ⟨_, floatnumber_parts hpart hdigits
      (by rw [fraction, hend hfrac hnone, Option.getD_some]) rfl⟩

/-- What has no sign and no white space, and starts with a decimal, is read by its digits. -/
theorem float_of_floatnumber {c : Char} {cs : Text} (hc : isDecimal c = true)
    (hspace : ∀ x ∈ c :: cs, isSpace x = false) {q : ℚ} (h : floatnumber (c :: cs) = some q) :
    float (c :: cs) = some (.fin q) := by
  have hstrip : strip (c :: cs) = c :: cs := by
    apply strip_eq_self
    · rintro d hd
      exact hspace d (List.mem_of_head? hd)
    · intro d hd
      exact hspace d (List.mem_of_getLast? hd)
  have hunsigned : unsigned (c :: cs) = some (.fin q) := by
    obtain ⟨hi, hn⟩ := decimal_not_name hc
    simp [unsigned, hi, hn, h]
  have hminus : c ≠ '-' := by
    rintro rfl
    exact absurd hc (by decide)
  have hplus : c ≠ '+' := by
    rintro rfl
    exact absurd hc (by decide)
  unfold float
  rw [hstrip]
  split
  next heq => exact absurd (List.cons.inj heq).1 hminus
  next heq => exact absurd (List.cons.inj heq).1 hplus
  next => exact hunsigned

theorem float_decimals {whole frac : Text} (hwhole : ∀ c ∈ whole, isDecimal c = true)
    (hne : whole ≠ []) (hfrac : ∀ c ∈ frac, isDecimal c = true) :
    (∃ q, float whole = some (.fin q)) ∧ ∃ q, float (whole ++ '.' :: frac) = some (.fin q) := by
  obtain ⟨⟨q, hq⟩, ⟨q', hq'⟩⟩ := floatnumber_decimals hwhole hne hfrac
  obtain ⟨c, cs, rfl⟩ := List.exists_cons_of_ne_nil hne
  have hc := hwhole c List.mem_cons_self
  have hspaces := fun x hx => decimal_not_space (hwhole x hx)
  refine ⟨⟨q, float_of_floatnumber hc hspaces hq⟩, q', float_of_floatnumber hc ?_ hq'⟩
  intro x hx
  rcases List.mem_append.mp (List.cons_append ▸ hx) with hx | hx
  · exact hspaces x hx
  · rcases List.mem_cons.mp hx with rfl | hx
    · decide
    · exact decimal_not_space (hfrac x hx)

end py_number
