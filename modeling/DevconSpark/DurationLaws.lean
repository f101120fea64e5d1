-- The laws of durations as text: whole seconds are written as days, hours,
-- minutes and seconds, and are read back.
import DevconSpark.TimeUtils

open py_text py_number py_value devcon_spark.exceptions

namespace devcon_spark.codec.time_utils

/-- The components of a duration: in the order of their letters, each letter at most once, none of
them zero, and each below the next longer period. -/
structure Components (n : Nat) (counts : List (Nat × Char × Nat)) : Prop where
  ordered : (counts.map (·.2)).Sublist periods
  nonzero : ∀ c ∈ counts, c.1 ≠ 0
  hours : ∀ c ∈ counts, c.2.1 = 'h' → c.1 < 24
  minutes : ∀ c ∈ counts, c.2.1 = 'm' → c.1 < 60
  seconds : ∀ c ∈ counts, c.2.1 = 's' → c.1 < 60
  total : countsSeconds counts = n

theorem splitSeconds_below {n : Nat} {c : Nat × Char × Nat} (h : c ∈ splitSeconds n) :
    (c.2.1 = 'h' → c.1 < 24) ∧ (c.2.1 = 'm' → c.1 < 60) ∧ (c.2.1 = 's' → c.1 < 60) := by
  simp only [splitSeconds, List.mem_cons, List.not_mem_nil, or_false] at h
  rcases h with rfl | rfl | rfl | rfl
  · simp
  · refine ⟨fun _ => ?_, by simp, by simp⟩
    show n % 86400 / 3600 < 24
    omega
  · refine ⟨by simp, fun _ => ?_, by simp⟩
    show n % 3600 / 60 < 60
    omega
  · refine ⟨by simp, by simp, fun _ => ?_⟩
    show n % 60 < 60
    omega

theorem splitSeconds_components (n : Nat) : Components n (nonzero (splitSeconds n)) where
  ordered := splitSeconds_ordered n
  nonzero c hc := by simpa using (List.mem_filter.mp hc).2
  hours c hc := (splitSeconds_below (List.mem_filter.mp hc).1).1
  minutes c hc := (splitSeconds_below (List.mem_filter.mp hc).1).2.1
  seconds c hc := (splitSeconds_below (List.mem_filter.mp hc).1).2.2
  total := (countsSeconds_nonzero _).trans (splitSeconds_total n)

/-- A number of seconds that a `timedelta` can hold. -/
theorem total_seconds_of_timedelta {n : Nat} {td : Timedelta} (h : timedelta (.int n) = .ok td) :
    secondsOf (.fin (n : ℚ)) = .ok td ∧ total_seconds td = n := by
  have hseconds : secondsOf (.fin (n : ℚ)) = .ok td := h
  have hfits : (n : Int) * 1000000 < endMicroseconds := by
    have hus : roundHalfEven ((n : ℚ) * 1000000) = (n : Int) * 1000000 := by
      have hround := roundHalfEven_intCast ((n : Int) * 1000000)
      push_cast at hround
      exact hround
    by_contra hend
    simp only [secondsOf, hus, hend, and_false, dif_neg, not_false_eq_true] at hseconds
    cases hseconds
  obtain ⟨td', htd', htotal⟩ := secondsOf_natCast hfits
  rw [hseconds] at htd'
  cases htd'
  exact ⟨hseconds, htotal⟩

/-- Whole seconds are written as `0s` or as their components, and are read back. -/
theorem durations_are_canonical {timeparse : Text → Option ℚ} (htp : ReadsPeriods timeparse)
    (repr : Value → Text) {n : Nat} {td : Timedelta} (h : timedelta (.int n) = .ok td) :
    ∃ text, serialize_duration timeparse repr (.timedelta td) = .ok text ∧
      (n = 0 → text = "0s".toList) ∧
      (n ≠ 0 → ∃ counts, Components n counts ∧ text = countsText counts) ∧
      parse_duration timeparse repr (.value (.str text)) = .ok td := by
  obtain ⟨hseconds, htotal⟩ := total_seconds_of_timedelta h
  have hwritten : serialize_duration timeparse repr (.timedelta td) = .ok (periodsText n) := by
    rw [← htotal]
    rfl
  refine ⟨periodsText n, hwritten, ?_, ?_, ?_⟩
  · rintro rfl
    rfl
  · intro hn
    exact ⟨_, splitSeconds_components n, periodsText_pos hn⟩
  · obtain ⟨counts, htext, hsum, hne, hsub⟩ := periodsText_counts n
    rw [htext, parse_duration_counts htp repr hne hsub, hsum]
    exact hseconds

/-- A day, an hour and one second. -/
theorem durations_are_canonical_sample :
    ∃ td, timedelta (.int (90001 : Nat)) = .ok td ∧
      ∃ text, serialize_duration readPeriods (fun _ => []) (.timedelta td) = .ok text ∧
        (90001 = 0 → text = "0s".toList) ∧
        (90001 ≠ 0 → ∃ counts, Components 90001 counts ∧ text = countsText counts) ∧
        parse_duration readPeriods (fun _ => []) (.value (.str text)) = .ok td := by
  obtain ⟨td, htd, -⟩ := @secondsOf_natCast 90001 (by decide)
  exact ⟨td, htd, durations_are_canonical readPeriods_reads _ htd⟩

example : periodsText 90001 = "1d1h1s".toList := by decide

end devcon_spark.codec.time_utils
