-- The round trip of Sequence instructions: what `to_line` writes is read back
-- by `from_line`, where no temperature is below zero.
import DevconSpark.Sequence
import Mathlib.Data.List.Dedup
import Mathlib.Data.List.Infix

open trimming py_text py_dict py_number py_value devcon_spark.exceptions
open devcon_spark.codec.descriptor devcon_spark.codec.time_utils

namespace devcon_spark.codec.sequence

/-! ## Instructions -/

/-- A number as the service holds it: whole, or a float of so many hundredths. -/
inductive Number
  | whole (i : Int)
  | cents (n : Int)

namespace Number

def hundredths : Number → Int
  | whole i => 100 * i
  | cents n => n

def value : Number → Value
  | whole i => .int i
  | cents n => .float (.fin ((n : ℚ) / 100))

def float (x : Number) : Value := .float (.fin ((x.hundredths : ℚ) / 100))

def text : Number → Text
  | whole i => intText i
  | cents n => hundredthsText n

/-- Below 10^15 in size. -/
def Small (x : Number) : Prop := x.hundredths.natAbs < 10 ^ 17

instance (x : Number) : Decidable x.Small := inferInstanceAs (Decidable (_ < _))

/-- Below 10^16 in size: Python writes it without an exponent. -/
def Short (x : Number) : Prop := x.hundredths.natAbs < 10 ^ 18

instance (x : Number) : Decidable x.Short := inferInstanceAs (Decidable (_ < _))

theorem Small.short {x : Number} (h : x.Small) : x.Short := by
  unfold Small at h
  unfold Short
  omega

end Number

/-- A date and time in UTC. -/
structure Timestamp where
  year : Nat
  month : Nat
  day : Nat
  hour : Nat
  minute : Nat
  second : Nat
  date_ok : 1 ≤ year ∧ year ≤ 9999 ∧ 1 ≤ month ∧ month ≤ 12 ∧ 1 ≤ day ∧ day ≤ 31
  time_ok : hour < 24 ∧ minute < 60 ∧ second < 60

def padded (width n : Nat) : Text := List.replicate (width - (natText n).length) '0' ++ natText n

/-- ISO-8601, as `serialize_datetime` writes it. -/
def Timestamp.iso (t : Timestamp) : Text :=
  padded 4 t.year ++ '-' :: padded 2 t.month ++ '-' :: padded 2 t.day ++ 'T' :: padded 2 t.hour ++
    ':' :: padded 2 t.minute ++ ':' :: padded 2 t.second ++ ['Z']

inductive DigitalState
  | STATE_INACTIVE | STATE_ACTIVE | STATE_UNKNOWN | STATE_REVERSE | Inactive | Active | Unknown

def DigitalState.Name : DigitalState → Text
  | .STATE_INACTIVE => "STATE_INACTIVE".toList
  | .STATE_ACTIVE => "STATE_ACTIVE".toList
  | .STATE_UNKNOWN => "STATE_UNKNOWN".toList
  | .STATE_REVERSE => "STATE_REVERSE".toList
  | .Inactive => "Inactive".toList
  | .Active => "Active".toList
  | .Unknown => "Unknown".toList

/-- What stands in an argument. A link that comes from the controller has a type. -/
inductive Content
  | var (name : Text)
  | link (type : Option Text) (id : Text)
  | temperature (amount : Number) (delta fahrenheit : Bool)
  | duration (seconds : Nat)
  | number (x : Number)
  | timestamp (t : Timestamp)
  | state (s : DigitalState)

/-- The contents that a field takes. -/
inductive Kind
  | link
  | temperature (delta : Bool)
  | duration
  | timestamp
  | state
  | number
  deriving DecidableEq

def Parameter.kind (p : Parameter) : Kind :=
  if p.opts.objtype.isSome then .link
  else match p.opts.unit with
    | .Celsius => .temperature false
    | .DeltaCelsius => .temperature true
    | .Second => .duration
    | _ => if p.opts.datetime then .timestamp else if p.type = .ENUM then .state else .number

def unitOf (delta fahrenheit : Bool) : Text :=
  (if delta then "delta_".toList else []) ++ (if fahrenheit then "degF".toList else "degC".toList)

/-- A name that stands in a line: no white space but spaces, and no mark of the line. -/
def LineName (t : Text) : Prop :=
  t ≠ [] ∧ ∀ c ∈ t, c ∉ ",='".toList ∧ (isSpace c = true → c = ' ')

instance (t : Text) : Decidable (LineName t) := inferInstanceAs (Decidable (_ ∧ _))

namespace Content

def Fits (p : Parameter) : Content → Prop
  | var name => LineName name
  | link _ id => p.kind = .link ∧ LineName id ∧ id.head? ≠ some '$'
  | temperature amount delta _ => p.kind = .temperature delta ∧ amount.Small
  | duration n => p.kind = .duration ∧ (n : Int) * 1000000 < endMicroseconds
  | number x => p.kind = .number ∧ x.Small
  | timestamp _ => p.kind = .timestamp
  | state _ => p.kind = .state

def key (p : Parameter) : Content → Text
  | var _ => VAR_PREFIX ++ p.name.toList
  | _ => RAW_PREFIX ++ p.name.toList

def typed (name : String) (kvs : Dict) : Value :=
  .dict (("__bloxtype".toList, .str name.toList) :: kvs)

def value : Content → Value
  | var name => .str name
  | link type id => typed "Link" ((type.map fun t => ("type".toList, Value.str t)).toList ++
      [("id".toList, .str id)])
  | temperature amount delta fahrenheit =>
    typed "Quantity" [("unit".toList, .str (unitOf delta fahrenheit)),
      ("value".toList, amount.value)]
  | duration n =>
    typed "Quantity" [("unit".toList, .str "second".toList), ("value".toList, .int n)]
  | number x => x.value
  | timestamp t => .str t.iso
  | state s => .str s.Name

def untyped : Content → Content
  | link _ id => link none id
  | c => c

def BelowZero : Content → Prop
  | temperature amount _ _ => amount.hundredths < 0
  | _ => False

end Content

inductive Instruction
  | comment (text : Text)
  | op (opcode : String) (args : List (Parameter × Content))

namespace Instruction

def WellFormed : Instruction → Prop
  | comment t => Trimmed t
  | op opcode args => ∃ o ∈ opcodes, o.1 = opcode ∧ opcode ≠ "COMMENT" ∧
      (args.map (·.1)).Perm (parameters o.2.2) ∧ ∀ a ∈ args, a.2.Fits a.1

def opcode : Instruction → Text
  | comment _ => "COMMENT".toList
  | op opcode _ => opcode.toList

def argdict : Instruction → Dict
  | comment t => [("text".toList, .str t)]
  | op _ args => args.map fun a => (a.2.key a.1, a.2.value)

def dict (d : Instruction) : Dict := [(d.opcode, .dict d.argdict)]

theorem dict_op (opcode : String) (args : List (Parameter × Content)) :
    (op opcode args).dict = [(opcode.toList, .dict (op opcode args).argdict)] := rfl

def untyped : Instruction → Instruction
  | comment t => comment t
  | op opcode args => op opcode (args.map fun a => (a.1, a.2.untyped))

/-- No raw temperature is below zero. -/
def NoFrost : Instruction → Prop
  | comment _ => True
  | op _ args => ∀ a ∈ args, ¬ a.2.BelowZero

end Instruction

/-! ## Texts of values -/

namespace Content

def lettersOf (delta fahrenheit : Bool) : Text :=
  (if delta then ['d'] else []) ++ (if fahrenheit then ['F'] else ['C'])

/-- The text of a value, without its quotes. -/
def text : Content → Text
  | var name => '$' :: name
  | link _ id => id
  | temperature amount delta fahrenheit => amount.text ++ lettersOf delta fahrenheit
  | duration n => periodsText n
  | number x => x.text
  | timestamp t => t.iso
  | state s => s.Name

end Content

def quoteText (t : Text) : Text := if ' ' ∈ t then '\'' :: (t ++ ['\'']) else t

theorem quoted_text (repr : Value → Text) (t : Text) :
    quoted repr (.str t) = .ok (.str (quoteText t)) := by
  have hin : contains [' '] (.str t) = .ok (decide (' ' ∈ t)) := by
    simp only [contains, List.singleton_infix_iff]
  unfold quoted
  rw [hin, quoteText]
  by_cases h : ' ' ∈ t
  · simp only [h, decide_true, if_true]
    rfl
  · simp only [h, decide_false, if_false]
    rfl

/-- A character that is neither white space nor a mark of the line. -/
def Plain (c : Char) : Prop := c ∉ ",='$".toList ∧ isSpace c = false

instance (c : Char) : Decidable (Plain c) := inferInstanceAs (Decidable (_ ∧ _))

theorem plain_digit {c : Char} (h : c.isDigit = true) : Plain c := by
  have hall : ∀ c ∈ "0123456789".toList, Plain c := by decide
  exact hall c (isDigit_mem h)

theorem lineName_of_plain {t : Text} (hne : t ≠ []) (h : ∀ c ∈ t, Plain c) : LineName t := by
  have hmarks : ∀ c ∈ ",='".toList, ¬ Plain c := by decide
  refine ⟨hne, fun c hc => ⟨fun hm => hmarks c hm (h c hc), fun hs => ?_⟩⟩
  simp [(h c hc).2] at hs

theorem LineName.no_equals {t : Text} (h : LineName t) : '=' ∉ t :=
  fun hm => (h.2 _ hm).1 (by decide)

theorem strip_plain {t : Text} (h : ∀ c ∈ t, Plain c) : strip t = t := by
  apply strip_eq_self
  · exact fun c hc => (h c (List.mem_of_mem_head? hc)).2
  · exact fun c hc => (h c (List.mem_of_getLast? hc)).2

theorem head_plain {t : Text} (h : ∀ c ∈ t, Plain c) : t.head? ≠ some '$' := by
  intro hd
  have hdollar : ¬ Plain '$' := by decide
  exact hdollar (h _ (List.mem_of_mem_head? hd))

theorem quoteText_plain {t : Text} (h : ∀ c ∈ t, Plain c) : quoteText t = t := by
  rw [quoteText, if_neg]
  intro hs
  have hspace : ¬ Plain ' ' := by decide
  exact hspace (h ' ' hs)

theorem plain_append {t u : Text} (ht : ∀ c ∈ t, Plain c) (hu : ∀ c ∈ u, Plain c) :
    ∀ c ∈ t ++ u, Plain c := by
  intro c hc
  rcases List.mem_append.mp hc with hc | hc
  · exact ht c hc
  · exact hu c hc

theorem plain_natText (n : Nat) : ∀ c ∈ natText n, Plain c :=
  fun c hc => plain_digit (natText_digits n c hc)

theorem plain_padded (width n : Nat) : ∀ c ∈ padded width n, Plain c := by
  apply plain_append _ (plain_natText n)
  intro c hc
  rw [(List.mem_replicate.mp hc).2]
  decide

/-! ## Numbers -/

/-- A number without a sign is digits, with at most a point between them. -/
theorem Number.text_shape {x : Number} (h : x.Short) :
    ∃ ds r : Text, (x.text = ds ++ r ∧ 0 ≤ x.hundredths ∨
        x.text = '-' :: (ds ++ r) ∧ x.hundredths < 0) ∧
      ds ≠ [] ∧ (∀ c ∈ ds, c.isDigit = true) ∧
      (r = [] ∨ ∃ es, r = '.' :: es ∧ ∀ c ∈ es, c.isDigit = true) := by
  cases x with
  | whole i =>
    refine ⟨natText i.natAbs, [], ?_, natText_ne_nil _, natText_digits _, Or.inl rfl⟩
    simp only [text, intText, hundredths, List.append_nil]
    split
    · exact Or.inr ⟨rfl, by omega⟩
    · exact Or.inl ⟨rfl, by omega⟩
  | cents n =>
    have hn : n.natAbs < 10 ^ 18 := h
    obtain ⟨hdigits, -, -⟩ := centsText_value (c := n.natAbs % 100) (by omega)
    refine ⟨natText (n.natAbs / 100), '.' :: centsText (n.natAbs % 100), ?_, natText_ne_nil _,
      natText_digits _, Or.inr ⟨_, rfl, hdigits⟩⟩
    simp only [text, hundredthsText, hundredths, unsignedText, if_pos hn]
    split
    · exact Or.inr ⟨rfl, by assumption⟩
    · exact Or.inl ⟨rfl, by omega⟩

theorem Number.text_plain (x : Number) : x.text ≠ [] ∧ ∀ c ∈ x.text, Plain c := by
  have hmarks : ∀ c ∈ ".e+".toList, Plain c := by decide
  have hsigned : ∀ (neg : Prop) [Decidable neg] (u : Text), u ≠ [] → (∀ c ∈ u, Plain c) →
      (if neg then '-' :: u else u) ≠ [] ∧ ∀ c ∈ (if neg then '-' :: u else u), Plain c := by
    intro neg _ u hne hu
    split
    · refine ⟨by simp, fun c hc => ?_⟩
      rcases List.mem_cons.mp hc with rfl | hc
      · decide
      · exact hu c hc
    · exact ⟨hne, hu⟩
  cases x with
  | whole i => exact hsigned _ _ (natText_ne_nil _) (plain_natText _)
  | cents n =>
    refine hsigned _ _ ?_ fun c hc => ?_
    · obtain ⟨⟨c, cs, hcs, -⟩, -⟩ := unsignedText_ends n.natAbs
      simp [hcs]
    · rcases mem_unsignedText hc with hc | hc
      · exact plain_digit hc
      · exact hmarks c hc

/-- A number is read back as a float. -/
theorem Number.float_text (x : Number) :
    py_number.float x.text = some (.fin ((x.hundredths : ℚ) / 100)) := by
  cases x with
  | whole i =>
    rw [text, float_intText, hundredths]
    push_cast
    rw [mul_div_cancel_left₀ _ (by norm_num)]
  | cents n => exact float_hundredthsText n

theorem Number.same_value (x : Number) : same x.float x.value = true := by
  cases x with
  | whole i =>
    simp [Number.float, Number.value, same, number?, hundredths]
  | cents n => simp [Number.float, Number.value, same, number?, hundredths]

theorem floatText?_cents (n : Int) :
    floatText? (.fin ((n : ℚ) / 100)) = some (hundredthsText n) := by
  simp only [floatText?, hundredths_div]
  rw [if_pos]
  rw [mul_div_cancel₀ (n : ℚ) (by norm_num)]

/-- Rounding to two decimals changes no such number. -/
theorem Number.round_text (repr : Value → Text) (x : Number) :
    (round2 x.value).map (str repr) = .ok x.text := by
  cases x with
  | whole i => rfl
  | cents n =>
    simp only [Number.value, round2, hundredths_div, Except.map, str, floatText?_cents]
    rfl

/-! ## Writing an argument -/

theorem plain_periodsText (n : Nat) : periodsText n ≠ [] ∧ ∀ c ∈ periodsText n, Plain c := by
  obtain ⟨counts, htext, -, hne, hsub⟩ := periodsText_counts n
  obtain ⟨c, cs, rfl⟩ := List.exists_cons_of_ne_nil hne
  have hletters : ∀ x ∈ "dhms".toList, Plain x := by decide
  rw [htext]
  refine ⟨by simp [countsText], fun x hx => ?_⟩
  rcases mem_countsText hsub hx with hx | hx
  · exact plain_digit hx
  · exact hletters x hx

theorem plain_mark {m : Char} {u : Text} (hm : Plain m) (hu : ∀ c ∈ u, Plain c) :
    ∀ c ∈ m :: u, Plain c := List.forall_mem_cons.mpr ⟨hm, hu⟩

theorem plain_iso (t : Timestamp) : ∀ c ∈ t.iso, Plain c := by
  have hdate := plain_append (plain_append (plain_padded 4 t.year)
    (plain_mark (m := '-') (by decide) (plain_padded 2 t.month)))
    (plain_mark (m := '-') (by decide) (plain_padded 2 t.day))
  have htime := plain_append (plain_append (plain_append hdate
    (plain_mark (m := 'T') (by decide) (plain_padded 2 t.hour)))
    (plain_mark (m := ':') (by decide) (plain_padded 2 t.minute)))
    (plain_mark (m := ':') (by decide) (plain_padded 2 t.second))
  exact plain_append htime (plain_mark (m := 'Z') (by decide) (by simp))

theorem plain_letters (delta fahrenheit : Bool) :
    ∀ c ∈ Content.lettersOf delta fahrenheit, Plain c := by
  cases delta <;> cases fahrenheit <;> decide

theorem plain_state (s : DigitalState) : ∀ c ∈ s.Name, Plain c := by
  cases s <;> decide

theorem Content.text_lineName {p : Parameter} {c : Content} (h : c.Fits p) : LineName c.text := by
  cases c with
  | var name =>
    refine ⟨by simp [text], fun x hx => ?_⟩
    rcases List.mem_cons.mp hx with rfl | hx
    · decide
    · exact h.2 x hx
  | link type id => exact h.2.1
  | temperature amount delta fahrenheit =>
    obtain ⟨hne, hplain⟩ := Number.text_plain amount
    exact lineName_of_plain (by simp [text, hne])
      (plain_append hplain (plain_letters delta fahrenheit))
  | duration n => exact lineName_of_plain (plain_periodsText n).1 (plain_periodsText n).2
  | number x => exact lineName_of_plain (Number.text_plain x).1 (Number.text_plain x).2
  | timestamp t => exact lineName_of_plain (by simp [text, Timestamp.iso]) (plain_iso t)
  | state s => exact lineName_of_plain (by cases s <;> decide) (plain_state s)

section
variable (timeparse : Text → Option ℚ) (repr : Value → Text)

theorem argText_var (key name : Text) :
    argText timeparse repr (VAR_PREFIX ++ key) (.str name) =
      .ok (key ++ '=' :: quoteText ('$' :: name)) := by
  unfold argText
  rw [if_pos (show VAR_PREFIX.isPrefixOf (VAR_PREFIX ++ key) = true from rfl)]
  show (quoted repr (.str ('$' :: name))).map _ = _
  rw [quoted_text]
  rfl

theorem argText_raw (key : Text) {v : Value} {t : Text}
    (h : (lineValue timeparse repr v).map (str repr) = .ok t) :
    argText timeparse repr (RAW_PREFIX ++ key) v = .ok (key ++ '=' :: t) := by
  unfold argText
  rw [if_neg (show ¬ VAR_PREFIX.isPrefixOf (RAW_PREFIX ++ key) = true from Bool.false_ne_true)]
  obtain ⟨w, hw, rfl⟩ := map_eq_ok.mp h
  rw [hw]
  rfl

/-- A text without spaces stands in the line as it is. -/
theorem argText_plain (key : Text) {v : Value} {t : Text} (ht : ∀ c ∈ t, Plain c)
    (h : (lineValue timeparse repr v).map (str repr) = .ok t) :
    argText timeparse repr (RAW_PREFIX ++ key) v = .ok (key ++ '=' :: quoteText t) := by
  rw [quoteText_plain ht]
  exact argText_raw timeparse repr key h

theorem argText_link (key : Text) (type : Option Text) (id : Text) :
    argText timeparse repr (RAW_PREFIX ++ key) (Content.link type id).value =
      .ok (key ++ '=' :: quoteText id) := by
  apply argText_raw
  have hline : lineValue timeparse repr (Content.link type id).value = quoted repr (.str id) := by
    cases type <;> rfl
  rw [hline, quoted_text]
  rfl

theorem quantityText_deg {kvs : Dict} {amount : Value} {u : Text}
    (hvalue : getItem kvs "value".toList = .ok amount)
    (hunit : getItem kvs "unit".toList = .ok (.str u)) (hdeg : "deg".toList <:+: u) :
    quantityText timeparse repr kvs = (round2 amount).map fun a =>
      str repr a ++ replace "degF".toList "F".toList
        (replace "degC".toList "C".toList (replace "delta_".toList "d".toList u)) := by
  have hin : contains "deg".toList (.str u) = .ok true := by
    simpa only [contains, Except.ok.injEq, decide_eq_true_eq] using hdeg
  unfold quantityText
  rw [hvalue, hunit]
  simp only [bind, Except.bind, hin, if_true]
  cases round2 amount <;> rfl

theorem quantityText_second {kvs : Dict} {amount : Value} {td : Timedelta}
    (hvalue : getItem kvs "value".toList = .ok amount)
    (hunit : getItem kvs "unit".toList = .ok (.str "second".toList))
    (htd : timedelta amount = .ok td) :
    quantityText timeparse repr kvs = .ok (periodsText (total_seconds td)) := by
  have hno : ¬ "deg".toList <:+: "second".toList := by decide
  have hin : contains "deg".toList (.str "second".toList) = .ok false := by
    simpa only [contains, Except.ok.injEq, decide_eq_false_iff_not] using hno
  unfold quantityText
  rw [hvalue, hunit]
  simp only [bind, Except.bind, hin, htd]
  rfl

theorem lineValue_quantity (kvs : Dict) :
    lineValue timeparse repr (Content.typed "Quantity" kvs) =
      (quantityText timeparse repr (("__bloxtype".toList, .str "Quantity".toList) :: kvs)).map
        Value.str := rfl

/-- The unit of a temperature as its letters. -/
theorem quantityText_temperature {kvs : Dict} {amount : Value} {t : Text} {delta fahrenheit : Bool}
    (hvalue : getItem kvs "value".toList = .ok amount)
    (hunit : getItem kvs "unit".toList = .ok (.str (unitOf delta fahrenheit)))
    (h : (round2 amount).map (str repr) = .ok t) :
    quantityText timeparse repr kvs = .ok (t ++ Content.lettersOf delta fahrenheit) := by
  have hdeg : "deg".toList <:+: unitOf delta fahrenheit := by
    cases delta <;> cases fahrenheit <;> decide
  have hletters : replace "degF".toList "F".toList (replace "degC".toList "C".toList
      (replace "delta_".toList "d".toList (unitOf delta fahrenheit))) =
        Content.lettersOf delta fahrenheit := by
    cases delta <;> cases fahrenheit <;> rfl
  obtain ⟨w, hw, htext⟩ := map_eq_ok.mp h
  rw [quantityText_deg timeparse repr hvalue hunit hdeg, hletters, hw, ← htext]
  rfl

theorem quantityText_duration {n : Nat} (h : (n : Int) * 1000000 < endMicroseconds) :
    quantityText timeparse repr
        [("__bloxtype".toList, .str "Quantity".toList), ("unit".toList, .str "second".toList),
          ("value".toList, .int n)] = .ok (periodsText n) := by
  obtain ⟨td, htd, hn⟩ := secondsOf_natCast h
  have hdelta : timedelta (.int n) = .ok td := htd
  have hvalue : getItem [("__bloxtype".toList, .str "Quantity".toList),
      ("unit".toList, .str "second".toList), ("value".toList, .int n)] "value".toList =
        .ok (.int n) := rfl
  rw [quantityText_second timeparse repr hvalue rfl hdelta, hn]

/-- `to_line` writes the text of an argument, in quotes where it has a space. -/
theorem argText_content {p : Parameter} {c : Content} (h : c.Fits p) :
    argText timeparse repr (c.key p) c.value = .ok (p.name.toList ++ '=' :: quoteText c.text) := by
  cases c with
  | var name => exact argText_var timeparse repr _ name
  | link type id => exact argText_link timeparse repr _ type id
  | temperature amount delta fahrenheit =>
    apply argText_plain
    · exact plain_append (Number.text_plain amount).2 (plain_letters delta fahrenheit)
    · rw [Content.value, lineValue_quantity,
        quantityText_temperature timeparse repr rfl rfl (Number.round_text repr amount)]
      rfl
  | duration n =>
    apply argText_plain
    · exact (plain_periodsText n).2
    · rw [Content.value, lineValue_quantity, quantityText_duration timeparse repr h.2]
      rfl
  | number x =>
    apply argText_plain
    · exact (Number.text_plain x).2
    · cases x with
      | whole i => rfl
      | cents n => exact Number.round_text repr (.cents n)
  | timestamp t =>
    apply argText_plain
    · exact plain_iso t
    · rfl
  | state s =>
    apply argText_plain
    · exact plain_state s
    · rfl

end

/-! ## Taking a line apart -/

theorem stripOf_eq_self {c : Char} {t : Text} (h : c ∉ t) : stripOf c t = t := by
  apply trim_of_tight
  constructor
  · intro x hx
    apply decide_eq_false
    rintro rfl
    exact h (List.mem_of_mem_head? hx)
  · intro x hx
    apply decide_eq_false
    rintro rfl
    exact h (List.mem_of_getLast? hx)

theorem stripOf_around (c : Char) (t : Text) : stripOf c (c :: (t ++ [c])) = stripOf c t := by
  apply trim_around <;> simp

/-- The quotes of a name are taken off again. -/
theorem unquote {t : Text} (h : LineName t) : stripOf '\'' (strip (quoteText t)) = t := by
  have hq : '\'' ∉ t := fun hm => (h.2 _ hm).1 (by decide)
  unfold quoteText
  split
  · rw [strip_eq_self, stripOf_around, stripOf_eq_self hq]
    · intro c hc
      cases hc
      decide
    · intro c hc
      rw [← List.cons_append, List.getLast?_concat] at hc
      cases hc
      decide
  · rename_i hs
    have hno : ∀ c ∈ t, isSpace c = false := by
      intro c hc
      by_contra hsp
      have hblank := (h.2 c hc).2 (by simpa using hsp)
      exact hs (hblank ▸ hc)
    rw [strip_eq_self, stripOf_eq_self hq]
    · exact fun c hc => hno c (List.mem_of_mem_head? hc)
    · exact fun c hc => hno c (List.mem_of_getLast? hc)

theorem all_ne_of_notMem {c : Char} {t : Text} (h : c ∉ t) : ∀ x ∈ t, decide (x ≠ c) = true := by
  intro x hx
  apply decide_eq_true
  rintro rfl
  exact h hx

theorem partition_of_notMem {c : Char} {t u : Text} (h : c ∉ t) :
    partition c (t ++ c :: u) = (t, u) := by
  unfold partition
  rw [List.takeWhile_append_of_pos (all_ne_of_notMem h),
    List.dropWhile_append_of_pos (all_ne_of_notMem h)]
  simp

theorem partition_absent {c : Char} {t : Text} (h : c ∉ t) : partition c t = (t, []) := by
  have htake : (t ++ []).takeWhile (· ≠ c) = t ++ [].takeWhile (· ≠ c) :=
    List.takeWhile_append_of_pos (all_ne_of_notMem h)
  have hdrop : (t ++ []).dropWhile (· ≠ c) = [].dropWhile (· ≠ c) :=
    List.dropWhile_append_of_pos (all_ne_of_notMem h)
  rw [List.append_nil] at htake hdrop
  rw [partition, htake, hdrop]
  simp

/-- A space before an argument is nothing. -/
theorem splitArg_space (t : Text) : splitArg (' ' :: t) = splitArg t := by
  have hp : partition '=' (' ' :: t) = (' ' :: (partition '=' t).1, (partition '=' t).2) := by
    simp [partition]
  have hs : ∀ u : Text, strip (' ' :: u) = strip u := by
    intro u
    have hblank : isSpace ' ' = true := by decide
    simp [strip, lstrip, hblank]
  unfold splitArg
  rw [hp]
  simp only [hs]

theorem splitArg_pair {key t : Text} (hkey : ∀ c ∈ key, Plain c) (ht : LineName t) :
    splitArg (key ++ '=' :: quoteText t) = (key, t) := by
  have heq : '=' ∉ key := fun hm => (hkey _ hm).1 (by decide)
  unfold splitArg
  rw [partition_of_notMem heq]
  simp only [strip_plain hkey, unquote ht]

/-- The arguments of a line, each after the first with its space. -/
theorem intercalate_spaces (a : Text) (as : List Text) :
    ", ".toList.intercalate (a :: as) = [','].intercalate (a :: as.map (' ' :: ·)) := by
  induction as generalizing a with
  | nil => simp [List.intercalate]
  | cons b bs ih =>
    have h1 := ih b
    simp only [List.intercalate, List.intersperse, List.map_cons, List.flatten_cons] at h1 ⊢
    cases bs <;> simp_all [List.intersperse]

theorem quoteText_comma {t : Text} (h : ',' ∉ t) : ',' ∉ quoteText t := by
  unfold quoteText
  split
  · simpa using h
  · exact h

/-- Texts without a comma are taken apart again. -/
theorem splitTexts {texts : List Text} (h : ∀ t ∈ texts, t ≠ [] ∧ ',' ∉ t) :
    (((", ".toList.intercalate texts).splitOn ',').filter (· ≠ [])).map splitArg =
      texts.map splitArg := by
  cases texts with
  | nil => decide
  | cons t ts =>
    have hspace : ∀ u ∈ ts, splitArg (' ' :: u) = splitArg u := fun u _ => splitArg_space u
    rw [intercalate_spaces, List.splitOn_intercalate]
    · rw [List.filter_eq_self.mpr]
      · rw [List.map_cons, List.map_map, List.map_cons]
        exact congrArg _ (List.map_congr_left hspace)
      · intro l hl
        rcases List.mem_cons.mp hl with rfl | hl
        · simpa using (h l List.mem_cons_self).1
        · obtain ⟨u, -, rfl⟩ := List.mem_map.mp hl
          simp
    · intro l hl
      rcases List.mem_cons.mp hl with rfl | hl
      · exact (h l List.mem_cons_self).2
      · obtain ⟨u, hu, rfl⟩ := List.mem_map.mp hl
        intro hm
        rcases List.mem_cons.mp hm with hm | hm
        · exact absurd hm (by decide)
        · exact (h u (List.mem_cons_of_mem t hu)).2 hm
    · simp

/-- A line of arguments is taken apart into its names and values. -/
theorem splitArgs (pairs : List (Text × Text))
    (h : ∀ p ∈ pairs, (∀ c ∈ p.1, Plain c) ∧ LineName p.2) :
    (((", ".toList.intercalate (pairs.map fun p => p.1 ++ '=' :: quoteText p.2)).splitOn
      ',').filter (· ≠ [])).map splitArg = pairs := by
  rw [splitTexts, List.map_map]
  · refine (List.map_congr_left fun p hp => ?_).trans (List.map_id pairs)
    exact splitArg_pair (h p hp).1 (h p hp).2
  · intro t ht
    obtain ⟨p, hp, rfl⟩ := List.mem_map.mp ht
    obtain ⟨hkey, hname⟩ := h p hp
    refine ⟨by simp, fun hm => ?_⟩
    rcases List.mem_append.mp hm with hm | hm
    · exact (hkey _ hm).1 (by decide)
    · rcases List.mem_cons.mp hm with hm | hm
      · exact absurd hm (by decide)
      · exact quoteText_comma (fun hc => (hname.2 _ hc).1 (by decide)) hm

/-! ## Reading an argument -/

theorem span_decimal {ds r : Text} (hds : ∀ c ∈ ds, c.isDigit = true)
    (hr : ∀ c, r.head? = some c → isDecimal c = false) :
    (ds ++ r).takeWhile isDecimal = ds ∧ (ds ++ r).dropWhile isDecimal = r := by
  have hdec : ∀ c ∈ ds, isDecimal c = true := by
    intro c hc
    simp [isDecimal, digitValue_of_isDigit (hds c hc)]
  rw [List.takeWhile_append_of_pos hdec, List.dropWhile_append_of_pos hdec]
  cases r with
  | nil => simp
  | cons c r => simp [hr c rfl]

theorem letters_head {delta fahrenheit : Bool} {c : Char}
    (h : (Content.lettersOf delta fahrenheit).head? = some c) :
    isDecimal c = false ∧ isSpace c = false ∧ c ≠ '.' := by
  have hall : (Content.lettersOf delta fahrenheit).head?.all
      (fun c => ! isDecimal c && ! isSpace c && c ≠ '.') = true := by
    cases delta <;> cases fahrenheit <;> decide
  rw [h] at hall
  simpa [and_assoc] using hall

/-- The pattern takes a number that is not below zero, and the letters after it. -/
theorem matchTemperature_text {x : Number} (h : x.Short) (hx : 0 ≤ x.hundredths)
    (delta fahrenheit : Bool) :
    matchTemperature (x.text ++ Content.lettersOf delta fahrenheit) =
      some (x.text, Content.lettersOf delta fahrenheit) := by
  obtain ⟨ds, r, hshape, hne, hds, hr⟩ := Number.text_shape h
  have htext : x.text = ds ++ r := by
    rcases hshape with ⟨htext, -⟩ | ⟨-, hneg⟩
    · exact htext
    · omega
  obtain ⟨u, hu⟩ : ∃ u, Content.lettersOf delta fahrenheit = u := ⟨_, rfl⟩
  have hhead : ∀ c, u.head? = some c → isDecimal c = false ∧ isSpace c = false ∧ c ≠ '.' :=
    fun c hc => letters_head (by rw [hu]; exact hc)
  have hletters : u ∈ temperatureLetters := by
    rw [← hu]
    cases delta <;> cases fahrenheit <;> decide
  have hspace : u.dropWhile isSpace = u := by
    cases u with
    | nil => rfl
    | cons c u => simp [(hhead c rfl).2.1]
  rw [hu, htext]
  rcases hr with rfl | ⟨es, rfl, hes⟩
  · obtain ⟨htake, hdrop⟩ := span_decimal hds fun c hc => (hhead c hc).1
    obtain ⟨hnone, hall⟩ : ([] ++ u).takeWhile isDecimal = [] ∧ ([] ++ u).dropWhile isDecimal = u :=
      span_decimal (by simp) fun c hc => (hhead c hc).1
    rw [List.nil_append] at hnone hall
    have hpoint : point u = ([], u) := by
      unfold point
      split
      · exact absurd rfl (hhead '.' rfl).2.2
      · rfl
    unfold matchTemperature
    rw [List.append_nil, htake, hdrop, hpoint]
    simp [hnone, hall, hspace, hne, hletters]
  · obtain ⟨htake, hdrop⟩ := span_decimal (r := '.' :: (es ++ u)) hds (by
      intro c hc
      cases hc
      decide)
    obtain ⟨htake', hdrop'⟩ := span_decimal hes fun c hc => (hhead c hc).1
    unfold matchTemperature
    rw [List.append_assoc, List.cons_append, htake, hdrop]
    simp [point, htake', hdrop', hspace, hne, hletters]

/-- It takes no number below zero: the pattern has no sign. -/
theorem matchTemperature_negative {x : Number} (h : x.Short) (hx : x.hundredths < 0) (u : Text) :
    matchTemperature (x.text ++ u) = none := by
  obtain ⟨ds, r, hshape, -⟩ := Number.text_shape h
  have htext : x.text = '-' :: (ds ++ r) := by
    rcases hshape with ⟨-, hpos⟩ | ⟨htext, -⟩
    · omega
    · exact htext
  have hminus : isDecimal '-' = false := by decide
  rw [htext]
  simp [matchTemperature, hminus]

namespace Content

/-- What `from_line` makes of an argument. -/
def read : Content → Value
  | var name => .str name
  | link _ id => sequence.link id
  | temperature amount delta fahrenheit => quantity amount.float (unitOf delta fahrenheit)
  | duration n => quantity (.int n) "second".toList
  | number x => x.float
  | timestamp t => .str t.iso
  | state s => .str s.Name

theorem same_read (c : Content) : same c.read c.untyped.value = true := by
  cases c with
  | var name => simp [read, untyped, value]
  | link type id =>
    simp [read, untyped, value, sequence.link, typed, same, sameIn, get?_cons]
  | temperature amount delta fahrenheit =>
    have hamount := Number.same_value amount
    simp [read, untyped, value, quantity, typed, same, sameIn, get?_cons, hamount]
  | duration n =>
    simp [read, untyped, value, quantity, typed, same, sameIn, get?_cons, number?]
  | number x => exact Number.same_value x
  | timestamp t => simp [read, untyped, value]
  | state s => simp [read, untyped, value]

end Content

/-- A parameter as its message declares it. -/
def Known (desc : Descriptor) (p : Parameter) : Prop :=
  fields_by_name desc (RAW_PREFIX ++ p.name.toList) = some p.rawField ∧
    p.opts.unit ∈ [UnitType.NotSet, .Celsius, .DeltaCelsius, .Second] ∧
    (∀ c ∈ p.name.toList, Plain c) ∧
    base_key (RAW_PREFIX ++ p.name.toList) = p.name.toList ∧
    base_key (VAR_PREFIX ++ p.name.toList) = p.name.toList

instance (desc : Descriptor) (p : Parameter) : Decidable (Known desc p) :=
  inferInstanceAs (Decidable (_ ∧ _ ∧ _ ∧ _ ∧ _))

theorem known_parameters : ∀ o ∈ opcodes, ∀ p ∈ parameters o.2.2, Known (messageOf o.2.2) p := by
  decide +kernel

/-- The parameters of a message have different names, and are all its fields. -/
theorem parameters_names : ∀ o ∈ opcodes, o.1 ≠ "COMMENT" →
    ((parameters o.2.2).map (·.name.toList)).Nodup ∧
      ∀ k ∈ base_keys ((messageOf o.2.2).map (·.name)),
        k ∈ (parameters o.2.2).map (·.name.toList) := by
  decide +kernel

/-- An opcode is known, and is one word that begins no comment. -/
theorem opcodes_names : ∀ o ∈ opcodes, opcodes.find? (·.1.toList = o.1.toList) = some o ∧
    (∀ c ∈ o.1.toList, Plain c ∧ c ≠ '#') ∧ o.1.toList ≠ [] := by
  decide +kernel

theorem base_key_key {desc : Descriptor} {p : Parameter} (hk : Known desc p) (c : Content) :
    base_key (c.key p) = p.name.toList := by
  cases c with
  | var name => exact hk.2.2.2.2
  | _ => exact hk.2.2.2.1

section
variable {p : Parameter}

theorem kind_link (h : p.kind = .link) : p.opts.objtype.isSome = true := by
  unfold Parameter.kind at h
  split at h
  · assumption
  · split at h <;> (try split at h) <;> (try split at h) <;> cases h

theorem kind_temperature {delta : Bool} (h : p.kind = .temperature delta) :
    p.opts.objtype.isSome = false ∧ p.opts.unit = if delta then .DeltaCelsius else .Celsius := by
  unfold Parameter.kind at h
  split at h
  · cases h
  · rename_i hlink
    refine ⟨by simpa using hlink, ?_⟩
    split at h <;> (try split at h) <;> (try split at h) <;> cases h <;> assumption

theorem kind_duration (h : p.kind = .duration) :
    p.opts.objtype.isSome = false ∧ p.opts.unit = .Second := by
  unfold Parameter.kind at h
  split at h
  · cases h
  · rename_i hlink
    refine ⟨by simpa using hlink, ?_⟩
    split at h <;> (try split at h) <;> (try split at h) <;> cases h
    assumption

theorem kind_plain {desc : Descriptor} (hk : Known desc p)
    (h : p.kind = .timestamp ∨ p.kind = .state ∨ p.kind = .number) :
    p.opts.objtype.isSome = false ∧ p.opts.unit = .NotSet := by
  have hunit := hk.2.1
  simp only [List.mem_cons, List.not_mem_nil, or_false] at hunit
  unfold Parameter.kind at h
  split at h
  · simp at h
  · rename_i hlink
    refine ⟨by simpa using hlink, ?_⟩
    rcases hunit with hu | hu | hu | hu
    · exact hu
    · simp [hu] at h
    · simp [hu] at h
    · simp [hu] at h

end

section
variable {timeparse : Text → Option ℚ} (repr : Value → Text) (line_num : Nat)
variable {desc : Descriptor} {p : Parameter}

/-- What begins with a dollar sign is a variable. -/
theorem parse_dollar {key name : Text} {field : FieldDescriptor}
    (hfield : fields_by_name desc (RAW_PREFIX ++ key) = some field) (h : '=' ∉ name) :
    parse_arg_entry timeparse repr line_num desc key ('$' :: name) =
      .ok (VAR_PREFIX ++ key, .str name) := by
  have heq : '=' ∉ '$' :: name := by simp [h]
  unfold parse_arg_entry
  simp only [if_neg heq, hfield, List.head?_cons, if_true, List.tail_cons]

/-- What does not begin with a dollar sign is a raw value. -/
theorem parse_value {key t : Text} {field : FieldDescriptor}
    (hfield : fields_by_name desc (RAW_PREFIX ++ key) = some field) (heq : '=' ∉ t)
    (hd : t.head? ≠ some '$') :
    parse_arg_entry timeparse repr line_num desc key t =
      if field.opts.objtype.isSome then .ok (RAW_PREFIX ++ key, link t)
      else if field.opts.unit ≠ .NotSet then
        (parseQuantity timeparse repr line_num key (strip t) field.opts.unit).map
          (RAW_PREFIX ++ key, ·)
      else .ok (RAW_PREFIX ++ key, ((py_number.float t).map Value.float).getD (.str t)) := by
  unfold parse_arg_entry
  simp only [if_neg heq, hfield, if_neg hd]

theorem parse_var (hk : Known desc p) {name : Text} (h : '=' ∉ name) :
    parse_arg_entry timeparse repr line_num desc p.name.toList ('$' :: name) =
      .ok (VAR_PREFIX ++ p.name.toList, .str name) :=
  parse_dollar repr line_num hk.1 h

theorem parse_raw (hk : Known desc p) {t : Text} (heq : '=' ∉ t) (hd : t.head? ≠ some '$') :
    parse_arg_entry timeparse repr line_num desc p.name.toList t =
      if p.opts.objtype.isSome then .ok (RAW_PREFIX ++ p.name.toList, link t)
      else if p.opts.unit ≠ .NotSet then
        (parseQuantity timeparse repr line_num p.name.toList (strip t) p.opts.unit).map
          (RAW_PREFIX ++ p.name.toList, ·)
      else .ok (RAW_PREFIX ++ p.name.toList,
        ((py_number.float t).map Value.float).getD (.str t)) :=
  parse_value repr line_num hk.1 heq hd

/-- The letters of a temperature, and the unit they stand for. -/
theorem letters_of_mem {u : Text} (h : u ∈ temperatureLetters) :
    ∃ delta fahrenheit, u = Content.lettersOf delta fahrenheit := by
  simp only [temperatureLetters, List.mem_cons, List.not_mem_nil, or_false] at h
  rcases h with rfl | rfl | rfl | rfl
  · exact ⟨false, false, rfl⟩
  · exact ⟨false, true, rfl⟩
  · exact ⟨true, false, rfl⟩
  · exact ⟨true, true, rfl⟩

theorem unitOf_letters (delta fahrenheit : Bool) :
    replace "F".toList "degF".toList (replace "C".toList "degC".toList
      (replace "d".toList "delta_".toList (Content.lettersOf delta fahrenheit))) =
        unitOf delta fahrenheit := by
  cases delta <;> cases fahrenheit <;> rfl

theorem delta_in_unit (delta fahrenheit : Bool) :
    "delta_".toList <:+: unitOf delta fahrenheit ↔ delta = true := by
  cases delta <;> cases fahrenheit <;> decide

theorem matchTemperature_letters {t amount u : Text} (h : matchTemperature t = some (amount, u)) :
    u ∈ temperatureLetters := by
  simp only [matchTemperature] at h
  split at h
  · rename_i hmatch
    obtain ⟨-, rfl⟩ := Prod.mk.inj (Option.some.inj h)
    exact hmatch.2
  · cases h

/-- A number with the letters of its unit. The letters say whether it is a difference. -/
theorem parseQuantity_letters (key : Text) {t amount : Text} {delta fahrenheit : Bool}
    (h : matchTemperature t = some (amount, Content.lettersOf delta fahrenheit)) :
    parseQuantity timeparse repr line_num key t (if delta then .DeltaCelsius else .Celsius) =
      .ok (quantity (.float ((py_number.float amount).getD .nan)) (unitOf delta fahrenheit)) ∧
    ∃ e, parseQuantity timeparse repr line_num key t
      (if delta then .Celsius else .DeltaCelsius) = .error e := by
  have hunit := unitOf_letters delta fahrenheit
  have hdelta := delta_in_unit delta fahrenheit
  cases delta
  · have hno : ¬ "delta_".toList <:+: unitOf false fahrenheit := fun hin => by
      cases hdelta.mp hin
    constructor
    · simp only [parseQuantity, h, hunit, Bool.false_eq_true, if_false]
      rw [if_neg (by rw [decide_eq_false hno]; decide)]
    · simp only [parseQuantity, h, hunit, Bool.false_eq_true, if_false]
      rw [if_pos (by rw [decide_eq_false hno]; decide)]
      exact ⟨_, rfl⟩
  · have hyes : "delta_".toList <:+: unitOf true fahrenheit := hdelta.mpr rfl
    constructor
    · simp only [parseQuantity, h, hunit, if_true]
      rw [if_neg (by rw [decide_eq_true hyes]; decide)]
    · simp only [parseQuantity, h, hunit, if_true]
      rw [if_pos (by rw [decide_eq_true hyes]; decide)]
      exact ⟨_, rfl⟩

theorem parseQuantity_temperature (key : Text) {amount : Number} (h : amount.Short)
    (hpos : 0 ≤ amount.hundredths) (delta fahrenheit : Bool) :
    parseQuantity timeparse repr line_num key
        (amount.text ++ Content.lettersOf delta fahrenheit)
        (if delta then .DeltaCelsius else .Celsius) =
      .ok (quantity amount.float (unitOf delta fahrenheit)) := by
  have hmatch := matchTemperature_text h hpos delta fahrenheit
  rw [(parseQuantity_letters repr line_num key hmatch).1, Number.float_text]
  rfl

variable (timeparse) in
/-- A temperature below zero is refused. -/
theorem parseQuantity_frost (key : Text) {amount : Number} (h : amount.Short)
    (hneg : amount.hundredths < 0) (delta : Bool) (u : Text) :
    ∃ e, parseQuantity timeparse repr line_num key (amount.text ++ u)
      (if delta then .DeltaCelsius else .Celsius) = .error e := by
  have hmatch := matchTemperature_negative h hneg u
  cases delta <;> simp [parseQuantity, hmatch]

theorem parseQuantity_duration (htp : ReadsPeriods timeparse) (key : Text) {n : Nat}
    (h : (n : Int) * 1000000 < endMicroseconds) :
    parseQuantity timeparse repr line_num key (periodsText n) .Second =
      .ok (quantity (.int n) "second".toList) := by
  obtain ⟨counts, htext, hsum, hne, hsub⟩ := periodsText_counts n
  obtain ⟨td, htd, hn⟩ := secondsOf_natCast h
  have hparse : parse_duration timeparse repr (.value (.str (periodsText n))) = .ok td := by
    rw [htext, parse_duration_counts htp repr hne hsub, hsum, htd]
  simp only [parseQuantity, hparse, bind, Except.bind, hn]
  rfl

/-- What a quantity was parsed from. -/
theorem parseQuantity_inv {key t : Text} {unit : UnitType} {v : Value}
    (h : parseQuantity timeparse repr line_num key t unit = .ok v) :
    (∃ amount delta fahrenheit, unit = (if delta then .DeltaCelsius else .Celsius) ∧
      matchTemperature t = some (amount, Content.lettersOf delta fahrenheit) ∧
      v = quantity (.float ((py_number.float amount).getD .nan)) (unitOf delta fahrenheit)) ∨
    (unit = .Second ∧ ∃ td, parse_duration timeparse repr (.value (.str t)) = .ok td ∧
      v = quantity (.int (total_seconds td)) "second".toList) := by
  have htemp : ∀ b : Bool, unit = (if b then .DeltaCelsius else .Celsius) →
      ∃ amount delta fahrenheit, unit = (if delta then .DeltaCelsius else .Celsius) ∧
        matchTemperature t = some (amount, Content.lettersOf delta fahrenheit) ∧
        v = quantity (.float ((py_number.float amount).getD .nan)) (unitOf delta fahrenheit) := by
    intro b hb
    cases hmatch : matchTemperature t with
    | none => cases b <;> simp [hb, parseQuantity, hmatch] at h
    | some m =>
      obtain ⟨amount, u⟩ := m
      obtain ⟨delta, fahrenheit, rfl⟩ := letters_of_mem (matchTemperature_letters hmatch)
      refine ⟨amount, delta, fahrenheit, ?_⟩
      obtain ⟨hsame, e, hother⟩ :=
        @parseQuantity_letters timeparse repr line_num key t amount delta fahrenheit hmatch
      have hdelta : b = delta := by
        cases b <;> cases delta <;> simp_all
      subst hdelta
      rw [hb, hsame] at h
      exact ⟨hb, rfl, (Except.ok.inj h).symm⟩
  cases unit with
  | Celsius => exact Or.inl (htemp false rfl)
  | DeltaCelsius => exact Or.inl (htemp true rfl)
  | Second =>
    right
    obtain ⟨td, htd, hv⟩ := bind_eq_ok.mp h
    exact ⟨rfl, td, htd, (Except.ok.inj hv).symm⟩
  | _ => cases h

/-- What an argument was parsed from. -/
theorem parse_arg_entry_inv {key t : Text} {kv : Text × Value}
    (h : parse_arg_entry timeparse repr line_num desc key t = .ok kv) :
    '=' ∉ t ∧ ∃ field, fields_by_name desc (RAW_PREFIX ++ key) = some field ∧
      ((∃ name, t = '$' :: name ∧ kv = (VAR_PREFIX ++ key, .str name)) ∨
        t.head? ≠ some '$' ∧
          ((field.opts.objtype.isSome = true ∧ kv = (RAW_PREFIX ++ key, link t)) ∨
            field.opts.objtype.isSome = false ∧
              ((field.opts.unit ≠ .NotSet ∧ ∃ v, kv = (RAW_PREFIX ++ key, v) ∧
                parseQuantity timeparse repr line_num key (strip t) field.opts.unit = .ok v) ∨
              field.opts.unit = .NotSet ∧ kv = (RAW_PREFIX ++ key,
                ((py_number.float t).map Value.float).getD (.str t))))) := by
  unfold parse_arg_entry at h
  dsimp only at h
  split at h
  · cases h
  · rename_i heq
    refine ⟨heq, ?_⟩
    cases hfield : fields_by_name desc (RAW_PREFIX ++ key) with
    | none => simp [hfield] at h
    | some field =>
      simp only [hfield] at h
      refine ⟨field, rfl, ?_⟩
      split at h
      · rename_i hdollar
        left
        obtain ⟨name, rfl⟩ := List.head?_eq_some_iff.mp hdollar
        exact ⟨name, rfl, (Except.ok.inj h).symm⟩
      · rename_i hdollar
        refine Or.inr ⟨hdollar, ?_⟩
        split at h
        · rename_i hlink
          exact Or.inl ⟨hlink, (Except.ok.inj h).symm⟩
        · rename_i hlink
          refine Or.inr ⟨by simpa using hlink, ?_⟩
          split at h
          · rename_i hunit
            obtain ⟨v, hv, rfl⟩ := map_eq_ok.mp h
            exact Or.inl ⟨hunit, v, rfl, hv⟩
          · rename_i hunit
            exact Or.inr ⟨by simpa using hunit, (Except.ok.inj h).symm⟩

/-- `from_line` reads the text of an argument, unless it is a temperature below zero. -/
theorem parse_content (htp : ReadsPeriods timeparse) (hk : Known desc p) {c : Content}
    (h : c.Fits p) (hpos : ¬ c.BelowZero) :
    parse_arg_entry timeparse repr line_num desc p.name.toList c.text = .ok (c.key p, c.read) := by
  have heq := (Content.text_lineName h).no_equals
  cases c with
  | var name => exact parse_var repr line_num hk h.no_equals
  | link type id =>
    rw [parse_raw repr line_num hk heq h.2.2, if_pos (kind_link h.1)]
    rfl
  | temperature amount delta fahrenheit =>
    obtain ⟨hlink, hunit⟩ := kind_temperature h.1
    have hplain := plain_append (Number.text_plain amount).2 (plain_letters delta fahrenheit)
    have hset : p.opts.unit ≠ .NotSet := by
      rw [hunit]
      cases delta <;> decide
    rw [parse_raw repr line_num hk heq (head_plain hplain), if_neg (by simp [hlink]),
      if_pos hset, hunit, Content.text, strip_plain hplain,
      parseQuantity_temperature repr line_num _ h.2.short (not_lt.mp hpos)]
    rfl
  | duration n =>
    obtain ⟨hlink, hunit⟩ := kind_duration h.1
    have hplain := (plain_periodsText n).2
    rw [parse_raw repr line_num hk heq (head_plain hplain), if_neg (by simp [hlink]), hunit,
      if_pos (by decide), Content.text, strip_plain hplain,
      parseQuantity_duration repr line_num htp _ h.2]
    rfl
  | number x =>
    obtain ⟨hlink, hunit⟩ := kind_plain hk (Or.inr (Or.inr h.1))
    rw [parse_raw repr line_num hk heq (head_plain (Number.text_plain x).2),
      if_neg (by simp [hlink]), if_neg (by simp [hunit]), Content.text, Number.float_text]
    rfl
  | timestamp t =>
    obtain ⟨hlink, hunit⟩ := kind_plain hk (Or.inl h)
    have hfloat : py_number.float t.iso = none := by
      apply float_foreign (c := ':')
      · simp [Timestamp.iso]
      · decide
    rw [parse_raw repr line_num hk heq (head_plain (plain_iso t)), if_neg (by simp [hlink]),
      if_neg (by simp [hunit]), Content.text, hfloat]
    rfl
  | state s =>
    obtain ⟨hlink, hunit⟩ := kind_plain hk (Or.inr (Or.inl h))
    have hfloat : py_number.float s.Name = none := by
      obtain ⟨c, hc, hforeign⟩ : ∃ c ∈ s.Name, Foreign c := by
        cases s <;> decide
      exact float_foreign hc hforeign
    rw [parse_raw repr line_num hk heq (head_plain (plain_state s)), if_neg (by simp [hlink]),
      if_neg (by simp [hunit]), Content.text, hfloat]
    rfl

variable (timeparse) in
theorem parse_frost (hk : Known desc p) {c : Content} (h : c.Fits p) (hneg : c.BelowZero) :
    ∃ e, parse_arg_entry timeparse repr line_num desc p.name.toList c.text = .error e := by
  have heq := (Content.text_lineName h).no_equals
  cases c with
  | temperature amount delta fahrenheit =>
    obtain ⟨hlink, hunit⟩ := kind_temperature h.1
    have hplain := plain_append (Number.text_plain amount).2 (plain_letters delta fahrenheit)
    have hset : p.opts.unit ≠ .NotSet := by
      rw [hunit]
      cases delta <;> decide
    obtain ⟨e, he⟩ := parseQuantity_frost timeparse repr line_num p.name.toList h.2.short
      hneg delta (Content.lettersOf delta fahrenheit)
    refine ⟨e, ?_⟩
    rw [parse_raw repr line_num hk heq (head_plain hplain), if_neg (by simp [hlink]),
      if_pos hset, hunit, Content.text, strip_plain hplain, he]
    rfl
  | _ => exact hneg.elim

end

/-! ## Lines -/

section
variable {timeparse : Text → Option ℚ} (repr : Value → Text) (line_num : Nat)
variable {o : String × Nat × String} {args : List (Parameter × Content)}

/-- The names and texts of the arguments. -/
def pairsOf (args : List (Parameter × Content)) : List (Text × Text) :=
  args.map fun a => (a.1.name.toList, a.2.text)

/-- A line: an opcode and its arguments. -/
def lineOf (opcode : Text) (args : List (Parameter × Content)) : Text :=
  if args = [] then opcode
  else opcode ++ ' ' ::
    ", ".toList.intercalate ((pairsOf args).map fun p => p.1 ++ '=' :: quoteText p.2)

theorem to_line_dict {opcode : Text} (h : opcode ≠ "COMMENT".toList) (kvs : Dict) :
    to_line timeparse repr [(opcode, .dict kvs)] =
      if kvs.isEmpty then .ok opcode
      else (kvs.mapM fun kv => argText timeparse repr kv.1 kv.2) >>= fun args =>
        .ok (opcode ++ ' ' :: ", ".toList.intercalate args) := by
  rw [to_line, if_neg h]
  cases kvs <;> rfl

theorem to_line_op {opcode : String} (hne : opcode ≠ "COMMENT") (h : ∀ a ∈ args, a.2.Fits a.1) :
    to_line timeparse repr (Instruction.op opcode args).dict = .ok (lineOf opcode.toList args) := by
  have hopcode : opcode.toList ≠ "COMMENT".toList := fun he => hne (String.toList_inj.mp he)
  have hloop : (Instruction.op opcode args).argdict.mapM
      (fun kv => argText timeparse repr kv.1 kv.2) =
        .ok ((pairsOf args).map fun p => p.1 ++ '=' :: quoteText p.2) := by
    rw [Instruction.argdict, List.mapM_map, pairsOf, List.map_map]
    exact mapM_ok fun b hb => argText_content timeparse repr (h b hb)
  rw [Instruction.dict_op, to_line_dict repr hopcode, hloop]
  cases args <;> rfl

theorem argdictOf_line (h : ∀ p ∈ pairsOf args, (∀ c ∈ p.1, Plain c) ∧ LineName p.2)
    (hnodup : ((pairsOf args).map (·.1)).Nodup) :
    argdictOf (", ".toList.intercalate ((pairsOf args).map fun p => p.1 ++ '=' :: quoteText p.2)) =
      pairsOf args := by
  rw [argdictOf, splitArgs _ h, dictOf_nodup hnodup]

omit repr line_num in
/-- An opcode is one word, and begins no comment. -/
theorem opcode_word (ho : o ∈ opcodes) :
    ' ' ∉ o.1.toList ∧ ∀ r : Text, (lstrip (o.1.toList ++ r)).head? ≠ some '#' := by
  obtain ⟨-, hword, hne⟩ := opcodes_names o ho
  constructor
  · intro hm
    have hno : ¬ Plain ' ' := by decide
    exact hno (hword _ hm).1
  · intro r
    obtain ⟨c, cs, hcs⟩ := List.exists_cons_of_ne_nil hne
    have hc := hword c (by simp [hcs])
    simp [hcs, lstrip, hc.1.2, hc.2]

/-- A line with arguments: what they are parsed to, under the opcode. -/
theorem from_line_args (ho : o ∈ opcodes) (line : Text) :
    from_line timeparse repr (o.1.toList ++ ' ' :: line) line_num =
      (parseArgs timeparse repr line_num (messageOf o.2.2) (argdictOf line)).map fun parsed =>
        [(o.1.toList, .dict parsed)] := by
  obtain ⟨hspace, hhead⟩ := opcode_word ho
  unfold from_line
  rw [if_neg (hhead _), partition_of_notMem hspace]
  simp only [(opcodes_names o ho).1]

/-- A line of an opcode alone is a line without arguments. -/
theorem from_line_word (ho : o ∈ opcodes) :
    from_line timeparse repr o.1.toList line_num =
      (parseArgs timeparse repr line_num (messageOf o.2.2) []).map fun parsed =>
        [(o.1.toList, .dict parsed)] := by
  obtain ⟨hspace, hhead⟩ := opcode_word ho
  have hword := hhead []
  rw [List.append_nil] at hword
  unfold from_line
  rw [if_neg hword, partition_absent hspace]
  simp only [(opcodes_names o ho).1]
  rfl

theorem from_line_op (ho : o ∈ opcodes)
    (h : ∀ p ∈ pairsOf args, (∀ c ∈ p.1, Plain c) ∧ LineName p.2)
    (hnodup : ((pairsOf args).map (·.1)).Nodup) :
    from_line timeparse repr (lineOf o.1.toList args) line_num =
      (parseArgs timeparse repr line_num (messageOf o.2.2) (pairsOf args)).map fun parsed =>
        [(o.1.toList, .dict parsed)] := by
  unfold lineOf
  split
  · rename_i hnil
    subst hnil
    exact from_line_word repr line_num ho
  · rw [from_line_args repr line_num ho, argdictOf_line h hnodup]

theorem pairsOf_names (hperm : (args.map (·.1)).Perm (parameters o.2.2)) (ho : o ∈ opcodes)
    (hc : o.1 ≠ "COMMENT") : ((pairsOf args).map (·.1)).Nodup := by
  have hnames : (pairsOf args).map (·.1) = (args.map (·.1)).map (·.name.toList) := by
    simp [pairsOf]
  rw [hnames]
  exact (hperm.map _).nodup_iff.mpr (parameters_names o ho hc).1

theorem parseArgs_eq (desc : Descriptor) (argdict : List (Text × Text)) :
    parseArgs timeparse repr line_num desc argdict =
      (argdict.mapM fun kv => parse_arg_entry timeparse repr line_num desc kv.1 kv.2) >>=
        fun entries =>
          let missing := (base_keys (desc.map (·.name))).filter
            (· ∉ base_keys ((dictOf entries).map (·.1)))
          if missing ≠ [] then
            .error (lineError line_num
              ("Missing arguments: `".toList ++ ", ".toList.intercalate missing ++ ['`']))
          else .ok (dictOf entries) := rfl

/-- Arguments that are parsed, and miss none of the message. -/
theorem parseArgs_ok {desc : Descriptor} {argdict : List (Text × Text)} {entries : Dict}
    (hloop : argdict.mapM (fun kv => parse_arg_entry timeparse repr line_num desc kv.1 kv.2) =
      .ok entries) (hkeys : (entries.map (·.1)).Nodup)
    (hall : ∀ k ∈ base_keys (desc.map (·.name)), k ∈ base_keys (entries.map (·.1))) :
    parseArgs timeparse repr line_num desc argdict = .ok entries := by
  have hmissing : (base_keys (desc.map (·.name))).filter
      (· ∉ base_keys (entries.map (·.1))) = [] := by
    rw [List.filter_eq_nil_iff]
    intro k hk
    simpa using hall k hk
  rw [parseArgs_eq, hloop, ok_bind, dictOf_nodup hkeys, hmissing]
  rfl

/-- What was done where arguments were parsed. -/
theorem parseArgs_inv {desc : Descriptor} {argdict : List (Text × Text)} {parsed : Dict}
    (h : parseArgs timeparse repr line_num desc argdict = .ok parsed) :
    ∃ entries, argdict.mapM (fun kv => parse_arg_entry timeparse repr line_num desc kv.1 kv.2) =
      .ok entries ∧ parsed = dictOf entries ∧
        ∀ k ∈ base_keys (desc.map (·.name)), k ∈ base_keys (parsed.map (·.1)) := by
  rw [parseArgs_eq] at h
  obtain ⟨entries, hloop, h⟩ := bind_eq_ok.mp h
  dsimp only at h
  split at h
  · cases h
  · rename_i hmissing
    obtain rfl := (Except.ok.inj h).symm
    refine ⟨entries, hloop, rfl, fun k hk => ?_⟩
    by_contra hnot
    exact hmissing fun hnil => List.filter_eq_nil_iff.mp hnil k hk (by simpa using hnot)

/-- Entries that stand for the parameters of an opcode, one each, miss none of its message. -/
theorem parseArgs_entries (ho : o ∈ opcodes) (hc : o.1 ≠ "COMMENT") {ps : List Parameter}
    (hperm : ps.Perm (parameters o.2.2)) {argdict : List (Text × Text)} {entries : Dict}
    (hloop : argdict.mapM (fun kv =>
      parse_arg_entry timeparse repr line_num (messageOf o.2.2) kv.1 kv.2) = .ok entries)
    (hbase : (entries.map (·.1)).map base_key = ps.map (·.name.toList)) :
    parseArgs timeparse repr line_num (messageOf o.2.2) argdict = .ok entries := by
  obtain ⟨hnodup, hall⟩ := parameters_names o ho hc
  refine parseArgs_ok repr line_num hloop ?_ fun k hk => ?_
  · apply List.Nodup.of_map base_key
    rw [hbase]
    exact (hperm.map _).nodup_iff.mpr hnodup
  · rw [base_keys, List.mem_dedup, hbase]
    exact (hperm.map (·.name.toList)).symm.subset (hall k hk)

/-- The arguments are read back, each under its key. -/
theorem parseArgs_read (htp : ReadsPeriods timeparse) (ho : o ∈ opcodes) (hc : o.1 ≠ "COMMENT")
    (hperm : (args.map (·.1)).Perm (parameters o.2.2)) (h : ∀ a ∈ args, a.2.Fits a.1)
    (hpos : ∀ a ∈ args, ¬ a.2.BelowZero) :
    parseArgs timeparse repr line_num (messageOf o.2.2) (pairsOf args) =
      .ok (args.map fun a => (a.2.key a.1, a.2.read)) := by
  have hknown : ∀ a ∈ args, Known (messageOf o.2.2) a.1 := fun a ha =>
    known_parameters o ho a.1 (hperm.subset (List.mem_map_of_mem ha))
  have hloop : (pairsOf args).mapM (fun kv =>
      parse_arg_entry timeparse repr line_num (messageOf o.2.2) kv.1 kv.2) =
        .ok (args.map fun a => (a.2.key a.1, a.2.read)) := by
    rw [pairsOf, List.mapM_map]
    exact mapM_ok fun a ha => parse_content repr line_num htp (hknown a ha) (h a ha) (hpos a ha)
  apply parseArgs_entries repr line_num ho hc hperm hloop
  rw [List.map_map, List.map_map, List.map_map]
  exact List.map_congr_left fun a ha => base_key_key (hknown a ha) a.2

variable (timeparse) in
/-- One temperature below zero, and the whole line is refused. -/
theorem parseArgs_frost (ho : o ∈ opcodes) (hperm : (args.map (·.1)).Perm (parameters o.2.2))
    (h : ∀ a ∈ args, a.2.Fits a.1) {a : Parameter × Content} (ha : a ∈ args)
    (hneg : a.2.BelowZero) :
    ∃ e, parseArgs timeparse repr line_num (messageOf o.2.2) (pairsOf args) = .error e := by
  have hknown : Known (messageOf o.2.2) a.1 :=
    known_parameters o ho a.1 (hperm.subset (List.mem_map_of_mem ha))
  obtain ⟨e, he⟩ := parse_frost timeparse repr line_num hknown (h a ha) hneg
  have hmem : (a.1.name.toList, a.2.text) ∈ pairsOf args := List.mem_map.mpr ⟨a, ha, rfl⟩
  obtain ⟨e', he'⟩ := mapM_error (f := fun kv : Text × Text =>
    parse_arg_entry timeparse repr line_num (messageOf o.2.2) kv.1 kv.2) hmem he
  exact ⟨e', by rw [parseArgs_eq, he']; rfl⟩

end

/-! ## The round trip -/

/-- What `from_line` makes of the line of an instruction. -/
def roundTrip (timeparse : Text → Option ℚ) (repr : Value → Text) (line_num : Nat)
    (d : Instruction) : Except Exn Dict :=
  to_line timeparse repr d.dict >>= fun line => from_line timeparse repr line line_num

/-- The instruction itself comes back: its opcode, its keys in order, and its values. A link
is known by its name alone. -/
def Returns (d : Instruction) (r : Except Exn Dict) : Prop :=
  ∃ kvs, r = .ok [(d.opcode, .dict kvs)] ∧ kvs.map (·.1) = d.argdict.map (·.1) ∧
    same (.dict kvs) (.dict d.untyped.argdict) = true

section
variable {timeparse : Text → Option ℚ} (repr : Value → Text) (line_num : Nat)

theorem comment_returns {t : Text} (h : Trimmed t) :
    Returns (.comment t) (roundTrip timeparse repr line_num (.comment t)) := by
  have hstrip : strip ('#' :: t) = '#' :: t := by
    apply strip_eq_self
    · intro c hc
      cases hc
      decide
    · intro c hc
      cases t with
      | nil =>
        cases hc
        decide
      | cons x t => exact h c (by simpa using hc)
  have hhash : isSpace '#' = false := by decide
  have hread : from_line timeparse repr ('#' :: t) line_num =
      .ok [("COMMENT".toList, .dict [("text".toList, .str t)])] := by
    rw [from_line, hstrip, if_pos (by simp [lstrip, hhash])]
    rfl
  refine ⟨[("text".toList, .str t)], hread, rfl, ?_⟩
  simp [same, sameIn, Instruction.untyped, Instruction.argdict]

theorem op_returns (htp : ReadsPeriods timeparse) {opcode : String}
    {args : List (Parameter × Content)} (h : (Instruction.op opcode args).WellFormed)
    (hpos : ∀ a ∈ args, ¬ a.2.BelowZero) :
    Returns (.op opcode args) (roundTrip timeparse repr line_num (.op opcode args)) := by
  obtain ⟨o, ho, rfl, hc, hperm, hfits⟩ := h
  have hknown : ∀ a ∈ args, Known (messageOf o.2.2) a.1 := fun a ha =>
    known_parameters o ho a.1 (hperm.subset (List.mem_map_of_mem ha))
  have hpairs : ∀ p ∈ pairsOf args, (∀ c ∈ p.1, Plain c) ∧ LineName p.2 := by
    intro p hp
    obtain ⟨a, ha, rfl⟩ := List.mem_map.mp hp
    exact ⟨(hknown a ha).2.2.1, Content.text_lineName (hfits a ha)⟩
  have hnames := pairsOf_names hperm ho hc
  have hkeys : (args.map fun a => a.2.key a.1).Nodup := by
    apply List.Nodup.of_map base_key
    have hbase : (args.map fun a => a.2.key a.1).map base_key = (pairsOf args).map (·.1) := by
      rw [List.map_map, pairsOf, List.map_map]
      exact List.map_congr_left fun a ha => base_key_key (hknown a ha) a.2
    rw [hbase]
    exact hnames
  have hread : roundTrip timeparse repr line_num (.op o.1 args) =
      .ok [(o.1.toList, .dict (args.map fun a => (a.2.key a.1, a.2.read)))] := by
    rw [roundTrip, to_line_op repr hc hfits]
    show from_line timeparse repr (lineOf o.1.toList args) line_num = _
    rw [from_line_op repr line_num ho hpairs hnames,
      parseArgs_read repr line_num htp ho hc hperm hfits hpos]
    rfl
  refine ⟨_, hread, ?_, ?_⟩
  · simp [Instruction.argdict]
  · have huntyped : (Instruction.op o.1 args).untyped.argdict =
        args.map fun a => (a.2.key a.1, a.2.untyped.value) := by
      simp only [Instruction.untyped, Instruction.argdict, List.map_map]
      apply List.map_congr_left
      intro a _
      simp only [Function.comp]
      cases a.2 <;> rfl
    rw [huntyped]
    exact same_dict_of_keys hkeys fun a _ => Content.same_read a.2

variable (timeparse) in
theorem op_frost {opcode : String} {args : List (Parameter × Content)}
    (h : (Instruction.op opcode args).WellFormed) {a : Parameter × Content} (ha : a ∈ args)
    (hneg : a.2.BelowZero) :
    ∃ e, roundTrip timeparse repr line_num (.op opcode args) = .error e := by
  obtain ⟨o, ho, rfl, hc, hperm, hfits⟩ := h
  have hpairs : ∀ p ∈ pairsOf args, (∀ c ∈ p.1, Plain c) ∧ LineName p.2 := by
    intro p hp
    obtain ⟨b, hb, rfl⟩ := List.mem_map.mp hp
    exact ⟨(known_parameters o ho b.1 (hperm.subset (List.mem_map_of_mem hb))).2.2.1,
      Content.text_lineName (hfits b hb)⟩
  obtain ⟨e, he⟩ := parseArgs_frost timeparse repr line_num ho hperm hfits ha hneg
  refine ⟨e, ?_⟩
  rw [roundTrip, to_line_op repr hc hfits]
  show from_line timeparse repr (lineOf o.1.toList args) line_num = _
  rw [from_line_op repr line_num ho hpairs (pairsOf_names hperm ho hc), he]
  rfl

end

/-- An instruction is read back from its line exactly where no temperature is below zero. -/
theorem instruction_returns_iff_no_frost (timeparse : Text → Option ℚ)
    (htp : ReadsPeriods timeparse) (repr : Value → Text) (line_num : Nat) (d : Instruction)
    (h : d.WellFormed) :
    Returns d (roundTrip timeparse repr line_num d) ↔ d.NoFrost := by
  cases d with
  | comment t => exact ⟨fun _ => trivial, fun _ => comment_returns repr line_num h⟩
  | op opcode args =>
    constructor
    · rintro ⟨kvs, hread, -⟩ a ha hneg
      obtain ⟨e, he⟩ := op_frost timeparse repr line_num h ha hneg
      rw [he] at hread
      cases hread
    · exact op_returns repr line_num htp h

/-- A wait of an hour and some, as the controller holds it. -/
def shortWait : Instruction :=
  .op "WAIT_DURATION" ((parameters "WaitDuration").map (·, .duration 4210))

theorem shortWait_wellFormed : shortWait.WellFormed := by
  refine ⟨("WAIT_DURATION", 4, "WaitDuration"), by decide, rfl, by decide, by rfl, ?_⟩
  intro a ha
  rw [List.mem_singleton.mp ha]
  exact ⟨rfl, by decide⟩

theorem shortWait_returns :
    Returns shortWait (roundTrip readPeriods (fun _ => []) 1 shortWait) := by
  apply (instruction_returns_iff_no_frost readPeriods readPeriods_reads (fun _ => []) 1 shortWait
    shortWait_wellFormed).mpr
  intro a ha
  rw [List.mem_singleton.mp ha]
  exact id

/-- A setpoint of five degrees below zero. -/
def coldSetpoint : Instruction :=
  .op "SET_SETPOINT" [(target "SetpointSensorPairInterface" 3, .link none "Kettle".toList),
    (temperature "setting" .Celsius 2 4, .temperature (.whole (-5)) false false)]

theorem cold_setpoint_lost : coldSetpoint.WellFormed ∧
    ¬ Returns coldSetpoint (roundTrip readPeriods (fun _ => []) 1 coldSetpoint) := by
  constructor
  · refine ⟨("SET_SETPOINT", 11, "SetSetpoint"), by decide, rfl, by decide, by rfl, ?_⟩
    intro a ha
    rcases List.mem_cons.mp ha with rfl | ha
    · exact ⟨rfl, by decide, by decide⟩
    · rw [List.mem_singleton.mp ha]
      exact ⟨rfl, by decide +kernel⟩
  · obtain ⟨e, he⟩ : ∃ e, roundTrip readPeriods (fun _ => []) 1 coldSetpoint = .error e := ⟨_, rfl⟩
    rintro ⟨kvs, hread, -⟩
    rw [he] at hread
    cases hread

end devcon_spark.codec.sequence
