-- `time_utils`: durations and dates as text. A `timedelta` is its number of
-- microseconds. The packages that read a text such as `1h30m` or a date are
-- parameters.
import DevconSpark.Calendar
import DevconSpark.PyValue

open py_text py_dict py_number py_value calendar devcon_spark.exceptions

namespace devcon_spark.codec.time_utils

/-! ## timedelta -/

def minMicroseconds : Int := - (999999999 * 86400 * 1000000)

/-- The first duration that is too long for a `timedelta`. -/
def endMicroseconds : Int := 1000000000 * 86400 * 1000000

abbrev Timedelta := {us : Int // minMicroseconds ≤ us ∧ us < endMicroseconds}

/-- `timedelta(seconds=x)` -/
def secondsOf : PyFloat → Except Exn Timedelta
  | .fin q =>
    let us := roundHalfEven (q * 1000000)
    if h : minMicroseconds ≤ us ∧ us < endMicroseconds then .ok ⟨us, h⟩
    else .error { kind := .OverflowError }
  | .nan => .error { kind := .ValueError, msg := "cannot convert float NaN to integer" }
  | _ => .error { kind := .OverflowError, msg := "cannot convert float infinity to integer" }

/-- `timedelta(seconds=v)` -/
def timedelta (v : Value) : Except Exn Timedelta :=
  match number? v with
  | some x => secondsOf x
  | none => .error
    { kind := .TypeError
      msg := s!"unsupported type for timedelta seconds component: {typeName v}" }

/-- `int(td.total_seconds())` -/
def total_seconds (td : Timedelta) : Int := td.val.tdiv 1000000

/-! ## Durations -/

inductive DurationSrc
  | value (v : Value)
  | timedelta (td : Timedelta)

def zeroSeconds : Timedelta := ⟨0, by decide⟩

section
variable (timeparse : Text → Option ℚ) (repr : Value → Text)

/-- `parse_duration`, of a text that is not empty. -/
def parseText (t : Text) : Except Exn Timedelta :=
  let words := timedelta (((timeparse t).map fun q => Value.float (.fin q)).getD .none)
  match float t with
  | none => words
  | some .nan => words
  | some x => secondsOf x

def parse_duration : DurationSrc → Except Exn Timedelta
  | .timedelta td => .ok td
  | .value v =>
    if ! truthy v then .ok zeroSeconds
    else match v with
      | .dict kvs => do
        let amount ← getItem kvs "value".toList
        let amount := if truthy amount then amount else .int 0
        let u ← getItem kvs "unit".toList
        parseText timeparse (str repr amount ++ ' ' :: str repr u)
      | .str t => parseText timeparse t
      | .list _ => .error
        { kind := .TypeError
          msg := "float() argument must be a string or a real number, not 'list'" }
      -- `timeparse` is then called with a number, and takes texts only
      | .float .nan => .error { kind := .TypeError, msg := "expected string or bytes-like object" }
      | v => timedelta v

/-- The letters of the periods, and their seconds. -/
def periods : List (Char × Nat) := [('d', 60 * 60 * 24), ('h', 60 * 60), ('m', 60), ('s', 1)]

/-- One turn of the loop of `serialize_duration`. -/
def takePeriod (left : Int × Text) (p : Char × Nat) : Int × Text :=
  if left.1 ≥ p.2 then (left.1 % p.2, left.2 ++ intText (left.1 / p.2) ++ [p.1]) else left

def periodsText (seconds : Int) : Text :=
  let output := (periods.foldl takePeriod (seconds, [])).2
  if output = [] then "0s".toList else output

def serialize_duration (value : DurationSrc) : Except Exn Text := do
  let td ← parse_duration timeparse repr value
  return periodsText (total_seconds td)

end

/-! ## What is written is read back -/

/-- The text of some counts of periods. -/
def countsText (counts : List (Nat × Char × Nat)) : Text :=
  counts.flatMap fun c => natText c.1 ++ [c.2.1]

def countsSeconds (counts : List (Nat × Char × Nat)) : Nat :=
  (counts.map fun c => c.1 * c.2.2).sum

theorem countsText_append (a b : List (Nat × Char × Nat)) :
    countsText (a ++ b) = countsText a ++ countsText b := List.flatMap_append

/-- The counts that the loop writes, where zeroes are left out. -/
def nonzero (counts : List (Nat × Char × Nat)) : List (Nat × Char × Nat) :=
  counts.filter (·.1 ≠ 0)

/-- How many days, hours, minutes and seconds a number of seconds is. -/
def splitSeconds (n : Nat) : List (Nat × Char × Nat) :=
  [(n / 86400, 'd', 86400), (n % 86400 / 3600, 'h', 3600), (n % 3600 / 60, 'm', 60),
    (n % 60, 's', 1)]

theorem takePeriod_eq (n : Nat) (out : Text) (p : Char × Nat) (hp : 0 < p.2) :
    takePeriod (n, out) p =
      (((n % p.2 : Nat) : Int), out ++ countsText (nonzero [(n / p.2, p)])) := by
  unfold takePeriod
  by_cases h : p.2 ≤ n
  · have hne : n / p.2 ≠ 0 := Nat.div_ne_zero_iff.mpr ⟨Nat.ne_of_gt hp, h⟩
    rw [if_pos (by simpa using h), ← Int.natCast_ediv, ← Int.natCast_emod, intText_natCast]
    simp [countsText, nonzero, hne]
  · have hlt : n < p.2 := Nat.lt_of_not_le h
    rw [if_neg (by simpa using h), Nat.mod_eq_of_lt hlt, Nat.div_eq_of_lt hlt]
    simp [countsText, nonzero]

theorem nonzero_append (a b : List (Nat × Char × Nat)) :
    nonzero (a ++ b) = nonzero a ++ nonzero b := List.filter_append _ _

/-- The loop writes the counts that are not zero. -/
theorem takePeriods_eq (n : Nat) :
    (periods.foldl takePeriod (n, [])).2 = countsText (nonzero (splitSeconds n)) := by
  have hhours : n % 86400 % 3600 = n % 3600 := Nat.mod_mod_of_dvd n (by decide)
  have hminutes : n % 3600 % 60 = n % 60 := Nat.mod_mod_of_dvd n (by decide)
  have hsplit : splitSeconds n = [(n / 86400, 'd', 86400)] ++ [(n % 86400 / 3600, 'h', 3600)] ++
      [(n % 3600 / 60, 'm', 60)] ++ [(n % 60, 's', 1)] := rfl
  simp only [periods, List.foldl_cons, List.foldl_nil]
  rw [takePeriod_eq n [] ('d', 60 * 60 * 24) (by decide), takePeriod_eq _ _ ('h', 60 * 60) (by decide),
    takePeriod_eq _ _ ('m', 60) (by decide), takePeriod_eq _ _ ('s', 1) (by decide), hsplit]
  simp only [nonzero_append, countsText_append, List.nil_append, Nat.reduceMul, hhours, hminutes,
    Nat.div_one]

theorem splitSeconds_total (n : Nat) : countsSeconds (splitSeconds n) = n := by
  simp only [countsSeconds, splitSeconds, List.map_cons, List.map_nil, List.sum_cons, List.sum_nil]
  omega

theorem countsSeconds_nonzero (counts : List (Nat × Char × Nat)) :
    countsSeconds (nonzero counts) = countsSeconds counts := by
  induction counts with
  | nil => rfl
  | cons c counts ih =>
    unfold nonzero countsSeconds at *
    by_cases hc : c.1 = 0
    · rw [List.filter_cons_of_neg (by simpa using hc), ih]
      simp [hc]
    · rw [List.filter_cons_of_pos (by simpa using hc), List.map_cons, List.sum_cons, ih,
        List.map_cons, List.sum_cons]

theorem splitSeconds_ne_nil {n : Nat} (hn : n ≠ 0) : nonzero (splitSeconds n) ≠ [] := by
  intro hnil
  have htotal := countsSeconds_nonzero (splitSeconds n)
  rw [hnil, splitSeconds_total] at htotal
  exact hn htotal.symm

theorem splitSeconds_ordered (n : Nat) :
    ((nonzero (splitSeconds n)).map (·.2)).Sublist periods := List.filter_sublist.map _

theorem periodsText_pos {n : Nat} (hn : n ≠ 0) :
    periodsText n = countsText (nonzero (splitSeconds n)) := by
  have hne : countsText (nonzero (splitSeconds n)) ≠ [] := by
    obtain ⟨c, cs, hcounts⟩ := List.exists_cons_of_ne_nil (splitSeconds_ne_nil hn)
    simp [hcounts, countsText]
  unfold periodsText
  rw [takePeriods_eq]
  exact if_neg hne

/-- The text of a whole number of seconds counts its periods. -/
theorem periodsText_counts (n : Nat) :
    ∃ counts : List (Nat × Char × Nat), periodsText n = countsText counts ∧
      countsSeconds counts = n ∧ counts ≠ [] ∧ (counts.map (·.2)).Sublist periods := by
  by_cases hn : n = 0
  · subst hn
    exact ⟨[(0, 's', 1)], rfl, rfl, by simp, by decide⟩
  · exact ⟨_, periodsText_pos hn, (countsSeconds_nonzero _).trans (splitSeconds_total n),
      splitSeconds_ne_nil hn, splitSeconds_ordered n⟩

/-- Seconds below zero are written as none. -/
theorem periodsText_toNat (n : Int) : periodsText n = periodsText n.toNat := by
  rcases Int.le_total 0 n with hn | hn
  · rw [Int.toNat_of_nonneg hn]
  · have hleft : ∀ ps : List (Char × Nat), (∀ p ∈ ps, 0 < p.2) → ∀ m : Int, m ≤ 0 →
        ps.foldl takePeriod (m, []) = (m, []) := by
      intro ps hps m hm
      induction ps with
      | nil => rfl
      | cons p ps ih =>
        have hp := hps p List.mem_cons_self
        rw [List.foldl_cons, takePeriod, if_neg (by simp only [ge_iff_le, not_le]; omega)]
        exact ih fun q hq => hps q (List.mem_cons_of_mem p hq)
    have hpos : ∀ p ∈ periods, 0 < p.2 := by decide
    unfold periodsText
    rw [hleft periods hpos n hn, hleft periods hpos n.toNat (by omega)]

/-- Whole seconds are cut off towards zero. -/
theorem total_seconds_range (td : Timedelta) :
    minMicroseconds ≤ total_seconds td * 1000000 ∧
      total_seconds td * 1000000 < endMicroseconds := by
  obtain ⟨hmin, hend⟩ := td.property
  unfold total_seconds
  unfold endMicroseconds minMicroseconds at *
  rcases Int.le_total 0 td.val with hpos | hneg
  · rw [Int.tdiv_eq_ediv_of_nonneg hpos]
    omega
  · have hflip : (-td.val).tdiv 1000000 = -td.val.tdiv 1000000 := Int.neg_tdiv _ _
    rw [Int.tdiv_eq_ediv_of_nonneg (by omega)] at hflip
    omega

theorem total_seconds_lt (td : Timedelta) :
    ((total_seconds td).toNat : Int) * 1000000 < endMicroseconds := by
  have hend := (total_seconds_range td).2
  unfold endMicroseconds at hend ⊢
  omega

/-- Only digits and the letters of periods stand in the text. -/
theorem mem_countsText {counts : List (Nat × Char × Nat)} {c : Char}
    (hsub : (counts.map (·.2)).Sublist periods) (h : c ∈ countsText counts) :
    c.isDigit = true ∨ c ∈ "dhms".toList := by
  obtain ⟨p, hp, hc⟩ := List.mem_flatMap.mp h
  rcases List.mem_append.mp hc with hc | hc
  · exact Or.inl (natText_digits _ c hc)
  · right
    have hletters : ∀ q ∈ periods, q.1 ∈ "dhms".toList := by decide
    rw [List.mem_singleton.mp hc]
    exact hletters _ (hsub.subset (List.mem_map_of_mem hp))

/-- What the service relies on in `timeparse`: it adds up the periods of a text, where
each period stands at most once and the longer ones come first. -/
def ReadsPeriods (timeparse : Text → Option ℚ) : Prop :=
  ∀ counts : List (Nat × Char × Nat), counts ≠ [] → (counts.map (·.2)).Sublist periods →
    timeparse (countsText counts) = some (countsSeconds counts : ℚ)

theorem parse_duration_counts {timeparse : Text → Option ℚ} (htp : ReadsPeriods timeparse)
    (repr : Value → Text) {counts : List (Nat × Char × Nat)} (hne : counts ≠ [])
    (hsub : (counts.map (·.2)).Sublist periods) :
    parse_duration timeparse repr (.value (.str (countsText counts))) =
      secondsOf (.fin (countsSeconds counts : ℚ)) := by
  obtain ⟨c, cs, rfl⟩ := List.exists_cons_of_ne_nil hne
  have hforeign : ∀ q ∈ periods, Foreign q.1 := by decide
  have hfloat : float (countsText (c :: cs)) = none := by
    apply float_foreign (c := c.2.1)
    · simp [countsText]
    · exact hforeign _ (hsub.subset (by simp))
  have htext : truthy (.str (countsText (c :: cs))) = true := by simp [truthy, countsText]
  unfold parse_duration
  simp only [htext, Bool.not_true, Bool.false_eq_true, if_false, parseText, hfloat,
    htp _ hne hsub]
  rfl

theorem secondsOf_intCast {n : Int} (hmin : minMicroseconds ≤ n * 1000000)
    (hend : n * 1000000 < endMicroseconds) :
    ∃ td, secondsOf (.fin (n : ℚ)) = .ok td ∧ total_seconds td = n := by
  have hus : roundHalfEven ((n : ℚ) * 1000000) = n * 1000000 := by
    have := roundHalfEven_intCast (n * 1000000)
    push_cast at this
    exact this
  refine ⟨⟨n * 1000000, hmin, hend⟩, ?_, ?_⟩
  · simp only [secondsOf, hus, hmin, hend, and_self, dif_pos]
  · exact Int.mul_tdiv_cancel _ (by decide)

theorem secondsOf_natCast {n : Nat} (h : (n : Int) * 1000000 < endMicroseconds) :
    ∃ td, secondsOf (.fin (n : ℚ)) = .ok td ∧ total_seconds td = n := by
  have hmin : minMicroseconds ≤ (n : Int) * 1000000 := by
    unfold minMicroseconds
    omega
  exact secondsOf_intCast hmin h

/-! ## A reader of periods -/

/-- The seconds of a text of counts, after the digits of `n`. -/
def readCounts : Nat → Text → Option Nat
  | n, [] => if n = 0 then some 0 else none
  | n, c :: cs =>
    if c.isDigit then readCounts (10 * n + (c.toNat - 48)) cs
    else match periods.find? (·.1 = c) with
      | some p => (readCounts 0 cs).map (n * p.2 + ·)
      | none => none

theorem readCounts_digits {ds : Text} (h : ∀ c ∈ ds, c.isDigit = true) (n : Nat) (r : Text) :
    readCounts n (ds ++ r) = readCounts (Nat.ofDigitChars 10 ds n) r := by
  induction ds generalizing n with
  | nil => rfl
  | cons c ds ih =>
    rw [List.cons_append, readCounts, if_pos (h c List.mem_cons_self),
      ih fun x hx => h x (List.mem_cons_of_mem c hx)]
    rfl

theorem readCounts_countsText {counts : List (Nat × Char × Nat)}
    (h : ∀ c ∈ counts, c.2 ∈ periods) :
    readCounts 0 (countsText counts) = some (countsSeconds counts) := by
  have hletter : ∀ p ∈ periods, p.1.isDigit = false ∧ periods.find? (·.1 = p.1) = some p := by
    decide
  induction counts with
  | nil => rfl
  | cons c cs ih =>
    obtain ⟨hd, hf⟩ := hletter c.2 (h c List.mem_cons_self)
    have htext : countsText (c :: cs) = natText c.1 ++ (c.2.1 :: countsText cs) := by
      simp [countsText]
    rw [htext, readCounts_digits (natText_digits _), natText, Nat.ofDigitChars_ten_toDigits,
      readCounts, if_neg (by simp [hd]), hf, ih fun x hx => h x (List.mem_cons_of_mem c hx)]
    simp [countsSeconds]

def readPeriods (t : Text) : Option ℚ := (readCounts 0 t).map Nat.cast

theorem readPeriods_reads : ReadsPeriods readPeriods := by
  intro counts _ hsub
  rw [readPeriods, readCounts_countsText fun c hc => hsub.subset (List.mem_map_of_mem hc)]
  rfl

/-! ## datetime -/

/-- The seconds from the first of January of year 1 to that of 1970. -/
def epoch : Int := 62135596800

def endTime : Int := endDays * 86400 * 1000000

/-- A time on a clock, in microseconds since the first of January of year 1, and how many
seconds the clock is ahead of UTC, where that is known. -/
structure Datetime where
  us : Int
  offset : Option Int
  in_range : 0 ≤ us ∧ us < endTime

/-- `datetime.fromtimestamp(x, tz=timezone.utc)` -/
def fromtimestamp : PyFloat → Except Exn Datetime
  | .fin q =>
    let us := roundHalfEven (q * 1000000) + epoch * 1000000
    if h : 0 ≤ us ∧ us < endTime then .ok ⟨us, some 0, h⟩
    else .error { kind := .ValueError, msg := "year is out of range" }
  | .nan => .error { kind := .ValueError, msg := "Invalid value NaN (not a number)" }
  | _ => .error { kind := .OverflowError, msg := "timestamp out of range for platform time_t" }

inductive DateFormatOpt
  | MILLISECONDS | SECONDS | ISO8601
  deriving DecidableEq

/-- `+HH:MM`, and the seconds where there are some. -/
def offsetText (offset : Int) : Text :=
  let n := offset.natAbs
  (if offset < 0 then '-' else '+') :: pad2 (n / 3600) ++ ':' :: pad2 (n / 60 % 60) ++
    if n % 60 = 0 then [] else ':' :: pad2 (n % 60)

/-- `dt.isoformat(timespec='seconds')` -/
def isoformat (dt : Datetime) : Text :=
  isoText (dt.us / 1000000).toNat ++ (dt.offset.map offsetText).getD []

def isoZ (dt : Datetime) : Text := replace "+00:00".toList "Z".toList (isoformat dt)

/-- `value //= 1000` -/
def floorThousandth : PyFloat → PyFloat
  | .fin q => .fin ⌊q / 1000⌋
  | _ => .nan

section
variable (ciso8601 : Text → Except Exn Datetime) (localOffset : Int → Int) (repr : Value → Text)

def parse_datetime (value : Value) : Except Exn (Option Datetime) :=
  if ! truthy value then .ok none
  else match value with
    | .str t => (ciso8601 t).map some
    | v =>
      match number? v with
      | some x =>
        -- This is an educated guess
        let late := match x with
          | .fin q => decide (q > 100000000000)
          | .inf => true
          | _ => false
        (fromtimestamp (if late then floorThousandth x else x)).map some
      | none => .error { kind := .ValueError, msg := String.ofList (str repr v) }

/-- The microseconds since the first of January of 1970 in UTC. A clock of which nothing is
known shows local time. -/
def sinceEpoch (dt : Datetime) : Int :=
  dt.us - (dt.offset.getD (localOffset dt.us) + epoch) * 1000000

def serialize_datetime (value : Value) (fmt : DateFormatOpt) : Except Exn Value := do
  match ← parse_datetime ciso8601 repr value, fmt with
  | none, .ISO8601 => return .none
  | none, _ => return .int 0
  | some dt, .MILLISECONDS => return .int ((sinceEpoch localOffset dt).tdiv 1000)
  | some dt, .SECONDS => return .int ((sinceEpoch localOffset dt).tdiv 1000000)
  | some dt, .ISO8601 => return .str (isoZ dt)

end

/-! ## What is written is read back -/

/-- What the service relies on in `ciso8601`: it reads whole seconds of UTC as they are
written. -/
def ReadsIso (ciso8601 : Text → Except Exn Datetime) : Prop :=
  ∀ dt : Datetime, dt.offset = some 0 → dt.us % 1000000 = 0 → ciso8601 (isoZ dt) = .ok dt

/-- So many seconds after the first of January of 1970, in UTC. -/
def utc (n : Nat) (h : n ≤ 100000000000) : Datetime where
  us := (n + epoch) * 1000000
  offset := some 0
  in_range := by unfold epoch endTime endDays; omega

theorem fromtimestamp_natCast {n : Nat} (h : n ≤ 100000000000) :
    fromtimestamp (.fin (n : ℚ)) = .ok (utc n h) := by
  have hus : roundHalfEven ((n : ℚ) * 1000000) + epoch * 1000000 = (n + epoch) * 1000000 := by
    have hround := roundHalfEven_intCast ((n : Int) * 1000000)
    push_cast at hround
    rw [hround]
    ring
  have hrange := (utc n h).in_range
  unfold fromtimestamp
  simp only [hus]
  exact dif_pos hrange

theorem parse_datetime_natCast (ciso8601 : Text → Except Exn Datetime) (repr : Value → Text)
    {n : Nat} (hpos : 0 < n) (h : n ≤ 100000000000) :
    parse_datetime ciso8601 repr (.int n) = .ok (some (utc n h)) := by
  have htrue : truthy (.int n) = true := by simp [truthy]; omega
  have hlate : ¬ ((n : ℚ) > 100000000000) := by
    rw [gt_iff_lt, not_lt]
    exact_mod_cast h
  unfold parse_datetime
  simp only [htrue, Bool.not_true, Bool.false_eq_true, if_false, number?, Int.cast_natCast, hlate,
    decide_false, fromtimestamp_natCast h]
  rfl

theorem sinceEpoch_utc (localOffset : Int → Int) {n : Nat} (h : n ≤ 100000000000) :
    (sinceEpoch localOffset (utc n h)).tdiv 1000000 = n := by
  have hsince : sinceEpoch localOffset (utc n h) = n * 1000000 := by
    simp only [sinceEpoch, utc, Option.getD_some]
    ring
  rw [hsince]
  exact Int.mul_tdiv_cancel _ (by decide)

theorem isoZ_of_utc {dt : Datetime} (h : dt.offset = some 0) :
    isoZ dt = isoText (dt.us / 1000000).toNat ++ ['Z'] := by
  have hoffset : replace "+00:00".toList "Z".toList (offsetText 0) = ['Z'] := by decide
  unfold isoZ isoformat
  rw [h, ← hoffset]
  exact replace_append _ _ _ (plus_not_mem_isoText _)

variable {ciso8601 : Text → Except Exn Datetime}

/-- A time in seconds is written as a date, and stays what it is. -/
theorem serialize_datetime_natCast (localOffset : Int → Int) (repr : Value → Text) {n : Nat}
    (hpos : 0 < n) (h : n ≤ 100000000000) :
    serialize_datetime ciso8601 localOffset repr (.int n) .ISO8601 = .ok (.str (isoZ (utc n h))) ∧
      serialize_datetime ciso8601 localOffset repr (.int n) .SECONDS = .ok (.int n) := by
  unfold serialize_datetime
  rw [parse_datetime_natCast ciso8601 repr hpos h]
  refine ⟨rfl, ?_⟩
  rw [← sinceEpoch_utc localOffset h]
  rfl

/-- The date is read back as the seconds it was written for. -/
theorem serialize_datetime_isoZ (hiso : ReadsIso ciso8601) (localOffset : Int → Int)
    (repr : Value → Text) {n : Nat} (h : n ≤ 100000000000) :
    serialize_datetime ciso8601 localOffset repr (.str (isoZ (utc n h))) .SECONDS =
      .ok (.int n) := by
  have hread := hiso (utc n h) rfl (Int.mul_emod_left _ _)
  have htrue : truthy (.str (isoZ (utc n h))) = true := by
    simp [truthy, isoZ_of_utc (show (utc n h).offset = some 0 from rfl)]
  unfold serialize_datetime parse_datetime
  simp only [htrue, Bool.not_true, Bool.false_eq_true, if_false, hread]
  rw [← sinceEpoch_utc localOffset h]
  rfl

/-! ## A reader of dates -/

theorem in_range_of_seconds {n : Nat} (h : n < endDays * 86400) :
    0 ≤ (n * 1000000 : Int) ∧ (n * 1000000 : Int) < endTime := by
  unfold endTime
  omega

def readUtc (t : Text) : Except Exn Datetime :=
  match readIso t.dropLast with
  | some n =>
    if h : n < endDays * 86400 ∧ t.getLast? = some 'Z' then
      .ok ⟨n * 1000000, some 0, in_range_of_seconds h.1⟩
    else .error { kind := .ValueError }
  | none => .error { kind := .ValueError }

theorem readUtc_reads : ReadsIso readUtc := by
  rintro ⟨us, offset, hrange⟩ rfl hwhole
  have hseconds : (us / 1000000).toNat < endDays * 86400 := by
    unfold endTime at hrange
    omega
  have hus : ((us / 1000000).toNat : Int) * 1000000 = us := by
    have hmod : us % 1000000 = 0 := hwhole
    omega
  unfold readUtc
  rw [isoZ_of_utc rfl, List.dropLast_concat, readIso_isoText hseconds]
  simp only [hseconds, List.getLast?_append, List.getLast?_singleton, Option.some_or, and_self,
    dif_pos, hus]

end devcon_spark.codec.time_utils
