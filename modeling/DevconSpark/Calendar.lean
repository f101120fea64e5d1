-- The Gregorian calendar: days and seconds since the first of January of year
-- 1 as a date and a time, and their text in ISO-8601.
import DevconSpark.PyText
import Mathlib.Tactic.IntervalCases

open py_text

namespace calendar

/-! ## Spans -/

variable (len : Nat → Nat)

/-- The length of so many spans, from the first on. -/
def spans : (first count : Nat) → Nat
  | _, 0 => 0
  | first, count + 1 => len first + spans (first + 1) count

/-- The span that `n` falls in, and how far: no more than `fuel` spans are passed. -/
def locate : (fuel first n : Nat) → Nat × Nat
  | 0, first, n => (first, n)
  | fuel + 1, first, n =>
    if n < len first then (first, n) else locate fuel (first + 1) (n - len first)

theorem locate_spec (fuel first n : Nat) :
    ∃ count r, locate len fuel first n = (first + count, r) ∧ spans len first count + r = n ∧
      (n < spans len first fuel → count < fuel ∧ r < len (first + count)) := by
  induction fuel generalizing first n with
  | zero => exact ⟨0, n, rfl, Nat.zero_add n, fun h => absurd h (Nat.not_lt_zero n)⟩
  | succ fuel ih =>
    unfold locate
    by_cases h : n < len first
    · exact ⟨0, n, if_pos h, Nat.zero_add n, fun _ => ⟨Nat.succ_pos fuel, h⟩⟩
    · obtain ⟨count, r, heq, hsum, hlt⟩ := ih (first + 1) (n - len first)
      have hfirst : first + 1 + count = first + (count + 1) := by omega
      refine ⟨count + 1, r, ?_, ?_, ?_⟩
      · rw [if_neg h, heq, hfirst]
      · unfold spans
        omega
      · intro hn
        unfold spans at hn
        obtain ⟨hcount, hr⟩ := hlt (by omega)
        rw [hfirst] at hr
        exact ⟨by omega, hr⟩

/-! ## Dates -/

def isLeap (y : Nat) : Bool := y % 4 = 0 ∧ (y % 100 ≠ 0 ∨ y % 400 = 0)

def yearDays (y : Nat) : Nat := if isLeap y then 366 else 365

def monthDays (y : Nat) : Nat → Nat
  | 2 => if isLeap y then 29 else 28
  | 4 | 6 | 9 | 11 => 30
  | _ => 31

structure Date where
  year : Nat
  month : Nat
  day : Nat
  deriving DecidableEq

/-- The days of the years 1 to 9999. -/
def endDays : Nat := 3652059

def dateOf (days : Nat) : Date :=
  let (year, r) := locate yearDays 9999 1 days
  let (month, r) := locate (monthDays year) 12 1 r
  { year, month, day := r + 1 }

def daysOf (date : Date) : Nat :=
  spans yearDays 1 (date.year - 1) + spans (monthDays date.year) 1 (date.month - 1) + (date.day - 1)

theorem spans_months (y : Nat) : spans (monthDays y) 1 12 = yearDays y := by
  unfold yearDays
  by_cases h : isLeap y = true <;> simp [spans, monthDays, h]

theorem spans_years : spans yearDays 1 9999 = endDays := by decide +kernel

theorem monthDays_le (y m : Nat) : monthDays y m ≤ 31 := by
  unfold monthDays
  split <;> (try split) <;> omega

/-- The date of a day is that day. -/
theorem daysOf_dateOf {days : Nat} (h : days < endDays) :
    daysOf (dateOf days) = days ∧ (dateOf days).year < 10000 ∧ (dateOf days).month < 100 ∧
      (dateOf days).day < 100 := by
  obtain ⟨y, r, hy, hysum, hylt⟩ := locate_spec yearDays 9999 1 days
  obtain ⟨hycount, hr⟩ := hylt (by rw [spans_years]; exact h)
  obtain ⟨m, d, hm, hmsum, hmlt⟩ := locate_spec (monthDays (1 + y)) 12 1 r
  obtain ⟨hmcount, hd⟩ := hmlt (by rw [spans_months]; exact hr)
  have hdate : dateOf days = { year := 1 + y, month := 1 + m, day := d + 1 } := by
    unfold dateOf
    rw [hy]
    simp only [hm]
  have hmonth := monthDays_le (1 + y) (1 + m)
  rw [hdate]
  unfold daysOf
  simp only [Nat.add_sub_cancel_left, Nat.add_sub_cancel]
  omega

/-! ## ISO-8601 -/

def digit (n : Nat) : Char := "0123456789".toList.getD n '0'

def pad2 (n : Nat) : Text := [digit (n / 10), digit (n % 10)]

def pad4 (n : Nat) : Text := pad2 (n / 100) ++ pad2 (n % 100)

/-- `YYYY-MM-DDTHH:MM:SS`, of the seconds since the first of January of year 1. -/
def isoText (seconds : Nat) : Text :=
  let date := dateOf (seconds / 86400)
  let time := seconds % 86400
  pad4 date.year ++ '-' :: pad2 date.month ++ '-' :: pad2 date.day ++
    'T' :: pad2 (time / 3600) ++ ':' :: pad2 (time / 60 % 60) ++ ':' :: pad2 (time % 60)

theorem digit_ne {c : Char} (h : c ∉ "0123456789".toList) (n : Nat) : c ≠ digit n := by
  unfold digit
  rw [List.getD_eq_getElem?_getD]
  rcases hn : "0123456789".toList[n]? with _ | d
  · rintro rfl
    exact h (by decide)
  · rintro rfl
    exact h (List.mem_of_getElem? hn)

theorem plus_not_mem_isoText (seconds : Nat) : '+' ∉ isoText seconds := by
  have hdigit := digit_ne (show '+' ∉ "0123456789".toList by decide)
  simp [isoText, pad4, pad2, hdigit]

def value2 (a b : Char) : Nat := 10 * (a.toNat - 48) + (b.toNat - 48)

/-- A reader of such texts. -/
def readIso : Text → Option Nat
  | [y1, y2, y3, y4, '-', m1, m2, '-', d1, d2, 'T', h1, h2, ':', n1, n2, ':', s1, s2] =>
    let date : Date :=
      { year := 100 * value2 y1 y2 + value2 y3 y4, month := value2 m1 m2, day := value2 d1 d2 }
    some (daysOf date * 86400 + value2 h1 h2 * 3600 + value2 n1 n2 * 60 + value2 s1 s2)
  | _ => none

theorem value2_pad2 {n : Nat} (h : n < 100) :
    value2 (digit (n / 10)) (digit (n % 10)) = n := by
  have hdigit : ∀ k < 10, (digit k).toNat - 48 = k := by decide
  unfold value2
  rw [hdigit _ (by omega), hdigit _ (by omega)]
  omega

/-- The text of a time is read back. -/
theorem readIso_isoText {seconds : Nat} (h : seconds < endDays * 86400) :
    readIso (isoText seconds) = some seconds := by
  obtain ⟨hdays, hy, hm, hd⟩ := daysOf_dateOf (show seconds / 86400 < endDays by omega)
  unfold isoText pad4 pad2
  simp only [List.cons_append, List.nil_append, readIso]
  rw [value2_pad2 (show (dateOf (seconds / 86400)).year / 100 < 100 by omega),
    value2_pad2 (show (dateOf (seconds / 86400)).year % 100 < 100 by omega), value2_pad2 hm,
    value2_pad2 hd, value2_pad2 (show seconds % 86400 / 3600 < 100 by omega),
    value2_pad2 (show seconds % 86400 / 60 % 60 < 100 by omega),
    value2_pad2 (show seconds % 86400 % 60 < 100 by omega), Nat.div_add_mod]
  rw [hdays]
  congr 1
  omega

example : isoText (62135596800 + 1672531200) = "2023-01-01T00:00:00".toList := by
  decide +kernel

end calendar
