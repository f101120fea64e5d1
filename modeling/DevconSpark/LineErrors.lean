-- The laws of lines that are refused. A line gives all arguments of its opcode,
-- or an error that names the line, unless it has a duration that cannot be read.
import DevconSpark.SequenceLaws

open py_text py_dict py_number py_value devcon_spark.exceptions
open devcon_spark.codec.descriptor devcon_spark.codec.time_utils

namespace devcon_spark.codec.time_utils

variable {timeparse : Text → Option ℚ} (repr : Value → Text)

/-- No `timedelta` has so many seconds. -/
def OutOfRange (q : ℚ) : Prop :=
  ¬ (minMicroseconds ≤ roundHalfEven (q * 1000000) ∧ roundHalfEven (q * 1000000) < endMicroseconds)

/-- A text that is no duration: neither `float` nor `timeparse` reads it, or the number that is
read is out of range. -/
def Unreadable (timeparse : Text → Option ℚ) (t : Text) : Prop :=
  t ≠ [] ∧ match float t with
    | some (.fin q) => OutOfRange q
    | some .inf | some .neginf => True
    | some .nan | none => ∀ q ∈ timeparse t, OutOfRange q

/-- A computation that returned, or raised something else than `ValueError`. -/
def FailsWhen (p : Prop) {α : Type} (x : Except Exn α) : Prop :=
  (¬ p ∧ ∃ a, x = .ok a) ∨ (p ∧ ∃ e, x = .error e ∧ e.kind ≠ .ValueError)

theorem secondsOf_fin (q : ℚ) : FailsWhen (OutOfRange q) (secondsOf (.fin q)) := by
  unfold secondsOf
  dsimp only
  split
  next h => exact .inl ⟨fun hnot => hnot h, _, rfl⟩
  next h => exact .inr ⟨h, _, rfl, by decide⟩

theorem parse_words (t : Text) : FailsWhen (∀ q ∈ timeparse t, OutOfRange q)
    (timedelta (((timeparse t).map fun q => Value.float (.fin q)).getD .none)) := by
  cases timeparse t with
  | none => exact .inr ⟨by simp, _, rfl, by decide⟩
  | some q =>
    rcases secondsOf_fin q with ⟨hnot, hok⟩ | ⟨hout, herror⟩
    · exact .inl ⟨fun h => hnot (h q rfl), hok⟩
    · exact .inr ⟨by simpa using hout, herror⟩

/-- A duration is read exactly where its text is readable. -/
theorem parse_duration_text (t : Text) :
    FailsWhen (Unreadable timeparse t) (parse_duration timeparse repr (.value (.str t))) := by
  by_cases ht : t = []
  · subst ht
    exact .inl ⟨fun h => h.1 rfl, zeroSeconds, rfl⟩
  · have hparse : parse_duration timeparse repr (.value (.str t)) = parseText timeparse t :=
      if_neg (by simp [truthy, ht])
    have hwords := @parse_words timeparse t
    rw [hparse]
    unfold parseText Unreadable
    cases hfloat : float t with
    | none => simpa only [ne_eq, ht, not_false_eq_true, true_and] using hwords
    | some x =>
      cases x with
      | fin q => simpa only [ne_eq, ht, not_false_eq_true, true_and] using secondsOf_fin q
      | nan => simpa only [ne_eq, ht, not_false_eq_true, true_and] using hwords
      | inf => exact .inr ⟨⟨ht, trivial⟩, _, rfl, by decide⟩
      | neginf => exact .inr ⟨⟨ht, trivial⟩, _, rfl, by decide⟩

end devcon_spark.codec.time_utils

namespace devcon_spark.codec.sequence

/-! ## Errors that name their line -/

def NamesLine (line_num : Nat) (e : Exn) : Prop :=
  e.kind = .ValueError ∧ "line ".toList ++ natText line_num ++ ":".toList <+: e.msg.toList

theorem lineError_names (line_num : Nat) (msg : Text) :
    NamesLine line_num (lineError line_num msg) := by
  refine ⟨rfl, ' ' :: msg, ?_⟩
  simp [lineError]

variable {timeparse : Text → Option ℚ} (repr : Value → Text) (line_num : Nat)

/-- Where a computation raises, the error names the line, or a condition holds and it is
something else than `ValueError`. -/
def NamesLineUnless (p : Prop) {α : Type} (x : Except Exn α) : Prop :=
  ∀ e, x = .error e → NamesLine line_num e ∨ p ∧ e.kind ≠ .ValueError

theorem parseQuantity_errors (key t : Text) {unit : UnitType}
    (h : unit ∈ [UnitType.Celsius, .DeltaCelsius, .Second]) :
    NamesLineUnless line_num (unit = .Second ∧ Unreadable timeparse t)
      (parseQuantity timeparse repr line_num key t unit) := by
  have htemperature : ∀ unit, unit = UnitType.Celsius ∨ unit = .DeltaCelsius → ∀ e,
      parseQuantity timeparse repr line_num key t unit = .error e → NamesLine line_num e := by
    intro unit hunit e he
    rcases hunit with rfl | rfl
    all_goals
      unfold parseQuantity at he
      dsimp only at he
      split at he
      next =>
        cases he
        exact lineError_names line_num _
      next =>
        split at he
        next =>
          cases he
          exact lineError_names line_num _
        next => cases he
  intro e he
  simp only [List.mem_cons, List.not_mem_nil, or_false] at h
  rcases h with rfl | rfl | rfl
  · exact .inl (htemperature _ (.inl rfl) e he)
  · exact .inl (htemperature _ (.inr rfl) e he)
  · rcases @parse_duration_text timeparse repr t with ⟨-, td, htd⟩ | ⟨hbad, e', he', hkind⟩
    · rw [parseQuantity, htd] at he
      cases he
    · rw [parseQuantity, he'] at he
      cases he
      exact .inr ⟨⟨rfl, hbad⟩, hkind⟩

theorem point_cases (r : Text) : (point r).1 = [] ∨ (point r).1 = ['.'] := by
  unfold point
  split
  · exact .inr rfl
  · exact .inl rfl

/-- The number of a temperature is a finite one that `float` reads, so that no error is hidden. -/
theorem matchTemperature_float {t amount u : Text} (h : matchTemperature t = some (amount, u)) :
    ∃ q, float amount = some (.fin q) := by
  have hdecimals : ∀ (l : Text), ∀ c ∈ l.takeWhile isDecimal, isDecimal c = true :=
    fun l c hc => List.mem_takeWhile_imp hc
  simp only [matchTemperature] at h
  split at h
  next hmatch =>
    obtain ⟨rfl, -⟩ := Prod.mk.inj (Option.some.inj h)
    have hwhole := hdecimals t
    have hfrac := hdecimals (point (t.dropWhile isDecimal)).2
    rcases point_cases (t.dropWhile isDecimal) with hdot | hdot
    · rw [hdot, List.append_nil]
      refine (float_decimals ?_ (by simp [hmatch.1]) hfrac).1
      intro c hc
      exact (List.mem_append.mp hc).elim (hwhole c) (hfrac c)
    · rw [hdot, List.append_assoc]
      exact (float_decimals hwhole hmatch.1 hfrac).2
  next => cases h

/-- The units of the parameters, and the one parameter that is a duration. -/
theorem fields_units : ∀ o ∈ opcodes, ∀ f ∈ messageOf o.2.2, f.opts.unit ≠ .NotSet →
    f.opts.unit ∈ [UnitType.Celsius, .DeltaCelsius, .Second] ∧
      (f.opts.unit = .Second →
        o.1 = "WAIT_DURATION" ∧ f.name = RAW_PREFIX ++ "duration".toList) := by
  decide +kernel

/-- An argument that is a duration which cannot be read. -/
structure BadDuration (timeparse : Text → Option ℚ) (opcode : String) (key t : Text) : Prop where
  opcode : opcode = "WAIT_DURATION"
  key : key = "duration".toList
  equals : '=' ∉ t
  dollar : t.head? ≠ some '$'
  unreadable : Unreadable timeparse (strip t)

theorem parse_arg_entry_errors {o : String × Nat × String} (ho : o ∈ opcodes) (key t : Text) :
    NamesLineUnless line_num (BadDuration timeparse o.1 key t)
      (parse_arg_entry timeparse repr line_num (messageOf o.2.2) key t) := by
  intro e he
  unfold parse_arg_entry at he
  dsimp only at he
  split at he
  next =>
    cases he
    exact .inl (lineError_names line_num _)
  next hequals =>
    cases hfield : fields_by_name (messageOf o.2.2) (RAW_PREFIX ++ key) with
    | none =>
      rw [hfield] at he
      cases he
      exact .inl (lineError_names line_num _)
    | some field =>
      simp only [hfield] at he
      split at he
      next => cases he
      next hdollar =>
        split at he
        next => cases he
        next hlink =>
          split at he
          next hunit =>
            have hmem := List.mem_of_find?_eq_some hfield
            obtain ⟨hunits, hsecond⟩ := fields_units o ho field hmem hunit
            have hquantity := map_eq_error.mp he
            rcases parseQuantity_errors repr line_num key _ hunits e hquantity with
              hnames | ⟨⟨hs, hbad⟩, hkind⟩
            · exact .inl hnames
            · obtain ⟨hopcode, hname⟩ := hsecond hs
              have hkey : key = "duration".toList :=
                List.append_cancel_left ((fields_by_name_name hfield).symm.trans hname)
              exact .inr ⟨⟨hopcode, hkey, hequals, hdollar, hbad⟩, hkind⟩
          next => cases he

theorem wait_duration : ∀ o ∈ opcodes, o.1 = "WAIT_DURATION" → o.2.2 = "WaitDuration" := by
  decide

theorem duration_field :
    (fields_by_name (messageOf "WaitDuration") (RAW_PREFIX ++ "duration".toList)).map
      (fun f => (f.opts.objtype.isSome, f.opts.unit)) = some (false, .Second) := by
  decide +kernel

theorem bad_duration_escapes {o : String × Nat × String} (ho : o ∈ opcodes) {key t : Text}
    (h : BadDuration timeparse o.1 key t) :
    ∃ e, parse_arg_entry timeparse repr line_num (messageOf o.2.2) key t = .error e ∧
      e.kind ≠ .ValueError := by
  obtain ⟨field, hfield, hopts⟩ := Option.map_eq_some_iff.mp duration_field
  obtain ⟨hlink, hunit⟩ := Prod.mk.inj hopts
  rw [wait_duration o ho h.opcode, h.key,
    parse_value repr line_num hfield h.equals h.dollar, if_neg (by simp [hlink]),
    if_pos (by simp [hunit]), hunit]
  rcases @parse_duration_text timeparse repr (strip t) with ⟨hnot, -⟩ | ⟨-, e, he, hkind⟩
  · exact absurd h.unreadable hnot
  · exact ⟨e, by rw [parseQuantity, he]; rfl, hkind⟩

/-- The only raw field of a duration. -/
theorem duration_key : ∀ f ∈ messageOf "WaitDuration", RAW_PREFIX.isPrefixOf f.name = true →
    f.name = RAW_PREFIX ++ "duration".toList := by
  decide +kernel

/-- The first argument is a duration that cannot be read. -/
def BeginsBadly (timeparse : Text → Option ℚ) (opcode : String)
    (argdict : List (Text × Text)) : Prop :=
  ∃ key t rest, argdict = (key, t) :: rest ∧ BadDuration timeparse opcode key t

theorem parseArgs_errors {o : String × Nat × String} (ho : o ∈ opcodes)
    {argdict : List (Text × Text)} (hkeys : (argdict.map (·.1)).Nodup) :
    NamesLineUnless line_num (BeginsBadly timeparse o.1 argdict)
      (parseArgs timeparse repr line_num (messageOf o.2.2) argdict) := by
  intro e he
  rw [parseArgs_eq] at he
  cases hloop : argdict.mapM fun kv =>
      parse_arg_entry timeparse repr line_num (messageOf o.2.2) kv.1 kv.2 with
  | ok entries =>
    rw [hloop, ok_bind] at he
    dsimp only at he
    split at he
    next =>
      cases he
      exact .inl (lineError_names line_num _)
    next => cases he
  | error e' =>
    rw [hloop] at he
    cases he
    obtain ⟨before, ⟨key, t⟩, after, hsplit, hbefore, herror⟩ := mapM_error_inv hloop
    rcases parse_arg_entry_errors repr line_num ho key t e herror with hnames | ⟨hbad, hkind⟩
    · exact .inl hnames
    · -- Any argument that was read before it has the same name.
      refine .inr ⟨⟨key, t, after, ?_, hbad⟩, hkind⟩
      cases before with
      | nil => exact hsplit
      | cons kv before =>
        exfalso
        obtain ⟨entry, hentry⟩ := hbefore kv List.mem_cons_self
        obtain ⟨-, field, hfield, -⟩ := parse_arg_entry_inv repr line_num hentry
        rw [wait_duration o ho hbad.opcode] at hfield
        have hname := fields_by_name_name hfield
        have hraw := duration_key field (List.mem_of_find?_eq_some hfield)
          (by rw [hname, List.isPrefixOf_iff_prefix]; exact List.prefix_append _ _)
        have hsame : kv.1 = key :=
          (List.append_cancel_left (hname.symm.trans hraw)).trans hbad.key.symm
        rw [hsplit, List.cons_append, List.map_cons, List.nodup_cons] at hkeys
        exact hkeys.1 (by simp [hsame])

theorem parseArgs_escapes {o : String × Nat × String} (ho : o ∈ opcodes)
    {argdict : List (Text × Text)} (h : BeginsBadly timeparse o.1 argdict) :
    ∃ e, parseArgs timeparse repr line_num (messageOf o.2.2) argdict = .error e ∧
      e.kind ≠ .ValueError := by
  obtain ⟨key, t, rest, rfl, hbad⟩ := h
  obtain ⟨e, he, hkind⟩ := bad_duration_escapes repr line_num ho hbad
  refine ⟨e, ?_, hkind⟩
  rw [parseArgs_eq, List.mapM_cons, he]
  rfl

/-! ## Dicts that hold all arguments -/

/-- Each argument of a message stands there once, as a raw value or as a variable. -/
structure Covers (message : String) (parsed : Dict) : Prop where
  once : (parsed.map fun kv => base_key kv.1).Perm (base_keys ((messageOf message).map (·.name)))
  fields : ∀ kv ∈ parsed, kv.1 ∈ (messageOf message).map (·.name)

/-- A raw field has a field for a variable beside it, and one base name with it. -/
theorem fields_pairs : ∀ o ∈ opcodes, ∀ f ∈ messageOf o.2.2, RAW_PREFIX.isPrefixOf f.name = true →
    base_key (RAW_PREFIX ++ f.name.drop 7) = f.name.drop 7 ∧
      base_key (VAR_PREFIX ++ f.name.drop 7) = f.name.drop 7 ∧
      VAR_PREFIX ++ f.name.drop 7 ∈ (messageOf o.2.2).map (·.name) := by
  decide +kernel

theorem parse_arg_entry_key {o : String × Nat × String} (ho : o ∈ opcodes) {key t : Text}
    {kv : Text × Value}
    (h : parse_arg_entry timeparse repr line_num (messageOf o.2.2) key t = .ok kv) :
    base_key kv.1 = key ∧ kv.1 ∈ (messageOf o.2.2).map (·.name) := by
  obtain ⟨-, field, hfield, hcases⟩ := parse_arg_entry_inv repr line_num h
  have hname := fields_by_name_name hfield
  have hmem := List.mem_of_find?_eq_some hfield
  have hdrop : field.name.drop 7 = key := by
    rw [hname]
    rfl
  obtain ⟨hraw, hvar, hpair⟩ := fields_pairs o ho field hmem
    (by rw [hname, List.isPrefixOf_iff_prefix]; exact List.prefix_append _ _)
  rw [hdrop] at hraw hvar hpair
  have hrawmem : RAW_PREFIX ++ key ∈ (messageOf o.2.2).map (·.name) :=
    hname ▸ List.mem_map_of_mem hmem
  rcases hcases with ⟨name, -, rfl⟩ | ⟨-, ⟨-, rfl⟩ | ⟨-, ⟨-, v, rfl, -⟩ | ⟨-, rfl⟩⟩⟩
  · exact ⟨hvar, hpair⟩
  · exact ⟨hraw, hrawmem⟩
  · exact ⟨hraw, hrawmem⟩
  · exact ⟨hraw, hrawmem⟩

theorem parseArgs_covers {o : String × Nat × String} (ho : o ∈ opcodes)
    {argdict : List (Text × Text)} (hkeys : (argdict.map (·.1)).Nodup) {parsed : Dict}
    (h : parseArgs timeparse repr line_num (messageOf o.2.2) argdict = .ok parsed) :
    Covers o.2.2 parsed := by
  obtain ⟨entries, hloop, rfl, hall⟩ := parseArgs_inv repr line_num h
  have hturns := forall₂_of_mapM hloop
  have hbase : entries.map (fun kv => base_key kv.1) = argdict.map (·.1) := by
    refine (map_eq_of_forall₂ (hturns.imp fun kv entry hentry => ?_)).symm
    exact (parse_arg_entry_key repr line_num ho hentry).1.symm
  have hnodup : (entries.map fun kv => base_key kv.1).Nodup := by
    rw [hbase]
    exact hkeys
  have hentries : (entries.map (·.1)).Nodup := by
    apply List.Nodup.of_map base_key
    rw [List.map_map]
    exact hnodup
  have hfields : ∀ kv ∈ entries, kv.1 ∈ (messageOf o.2.2).map (·.name) := by
    intro kv hkv
    obtain ⟨arg, -, harg⟩ := forall₂_right hturns hkv
    exact (parse_arg_entry_key repr line_num ho harg).2
  rw [dictOf_nodup hentries] at hall ⊢
  refine ⟨(List.perm_ext_iff_of_nodup hnodup (List.nodup_dedup _)).mpr fun k => ?_, hfields⟩
  constructor
  · intro hk
    obtain ⟨kv, hkv, rfl⟩ := List.mem_map.mp hk
    exact List.mem_dedup.mpr (List.mem_map_of_mem (hfields kv hkv))
  · intro hk
    have hparsed := List.mem_dedup.mp (hall k hk)
    rwa [List.map_map] at hparsed

/-! ## Lines -/

/-- A dict with one opcode and its arguments, or an error that names the line. -/
def Answered (line_num : Nat) : Except Exn Dict → Prop
  | .ok d => ∃ o ∈ opcodes, ∃ parsed, d = [(o.1.toList, .dict parsed)] ∧ Covers o.2.2 parsed
  | .error e => NamesLine line_num e

/-- A line that is no comment, and begins with a duration that cannot be read. -/
def BadLine (timeparse : Text → Option ℚ) (line : Text) : Prop :=
  (lstrip line).head? ≠ some '#' ∧
    BeginsBadly timeparse (String.ofList (partition ' ' line).1)
      (argdictOf (partition ' ' line).2)

theorem comment_covers (text : Value) : Covers "Comment" [("text".toList, text)] := by
  have hname : (messageOf "Comment").map (·.name) = ["text".toList] := by decide
  have hbase : base_key "text".toList = "text".toList := by decide
  have hbases : base_keys ["text".toList] = ["text".toList] := by decide
  constructor
  · rw [hname, hbases, List.map_singleton, hbase]
  · rw [hname]
    simp

theorem partition_opcode {line : Text} {o : String × Nat × String}
    (h : opcodes.find? (·.1.toList = (partition ' ' line).1) = some o) :
    o ∈ opcodes ∧ o.1.toList = (partition ' ' line).1 ∧
      String.ofList (partition ' ' line).1 = o.1 := by
  have hopcode : o.1.toList = (partition ' ' line).1 := by simpa using List.find?_some h
  exact ⟨List.mem_of_find?_eq_some h, hopcode, by rw [← hopcode, String.ofList_toList]⟩

/-- A line with a duration that cannot be read has a known opcode. -/
theorem bad_opcode_known {line : Text}
    (h : BeginsBadly timeparse (String.ofList (partition ' ' line).1)
      (argdictOf (partition ' ' line).2)) :
    opcodes.find? (·.1.toList = (partition ' ' line).1) ≠ none := by
  obtain ⟨key, t, rest, -, hbad⟩ := h
  intro hnone
  have hunknown := List.find?_eq_none.mp hnone ("WAIT_DURATION", 4, "WaitDuration") (by decide)
  apply hunknown
  rw [← hbad.opcode, String.toList_ofList]
  exact decide_eq_true rfl

/-- Arguments are answered exactly where they do not begin with a duration that cannot be
read. -/
theorem args_answered_iff {o : String × Nat × String} (ho : o ∈ opcodes)
    {argdict : List (Text × Text)} (hkeys : (argdict.map (·.1)).Nodup) :
    Answered line_num ((parseArgs timeparse repr line_num (messageOf o.2.2) argdict).map
        fun parsed => [(o.1.toList, .dict parsed)]) ↔
      ¬ BeginsBadly timeparse o.1 argdict := by
  cases hparse : parseArgs timeparse repr line_num (messageOf o.2.2) argdict with
  | ok parsed =>
    refine iff_of_true ⟨o, ho, parsed, rfl, parseArgs_covers repr line_num ho hkeys hparse⟩ ?_
    intro hbad
    obtain ⟨e, he, -⟩ := parseArgs_escapes repr line_num ho hbad
    cases hparse.symm.trans he
  | error e =>
    constructor
    · intro hnames hbad
      obtain ⟨e', he', hkind⟩ := parseArgs_escapes repr line_num ho hbad
      cases hparse.symm.trans he'
      exact hkind hnames.1
    · intro hnot
      rcases parseArgs_errors repr line_num ho hkeys e hparse with hnames | ⟨hbad, -⟩
      · exact hnames
      · exact absurd hbad hnot

/-- A line is answered exactly where it does not begin with a duration that cannot be read. -/
theorem line_is_answered_iff (timeparse : Text → Option ℚ) (repr : Value → Text) (line : Text)
    (line_num : Nat) :
    Answered line_num (from_line timeparse repr line line_num) ↔ ¬ BadLine timeparse line := by
  unfold from_line BadLine
  by_cases hcomment : (lstrip line).head? = some '#'
  · rw [if_pos hcomment]
    refine iff_of_true ?_ fun h => h.1 hcomment
    exact ⟨("COMMENT", 200, "Comment"), by decide, _, rfl, comment_covers _⟩
  · rw [if_neg hcomment]
    dsimp only
    cases hfind : opcodes.find? (·.1.toList = (partition ' ' line).1) with
    | none =>
      exact iff_of_true (lineError_names line_num _) fun h => bad_opcode_known h.2 hfind
    | some o =>
      obtain ⟨ho, hopcode, hname⟩ := partition_opcode hfind
      rw [and_iff_right hcomment, hname, ← hopcode]
      exact args_answered_iff repr line_num ho (dictOf_keys_nodup _)

def soonLine : Text := "WAIT_DURATION duration=soon".toList

theorem soon_unreadable : Unreadable (fun _ => none) "soon".toList := by
  have hfloat : float "soon".toList = none := by decide +kernel
  exact ⟨by decide, by rw [hfloat]; simp⟩

/-- A duration that is no number, and no text of `timeparse`, ends in `TypeError`. -/
theorem unreadable_duration_escapes :
    ¬ ∀ (timeparse : Text → Option ℚ) (repr : Value → Text) (line : Text) (line_num : Nat),
      Answered line_num (from_line timeparse repr line line_num) := by
  intro h
  have hline : soonLine = "WAIT_DURATION".toList ++ ' ' :: "duration=soon".toList := by decide
  have hargs : argdictOf "duration=soon".toList = [("duration".toList, "soon".toList)] := by
    decide +kernel
  have ho : ("WAIT_DURATION", 4, "WaitDuration") ∈ opcodes := by decide
  have hanswered := h (fun _ => none) (fun _ => []) soonLine 1
  rw [hline, from_line_args _ _ ho, hargs, args_answered_iff _ _ ho (by simp)] at hanswered
  exact hanswered ⟨_, _, [], rfl, rfl, rfl, by decide, by decide, soon_unreadable⟩

end devcon_spark.codec.sequence
