-- The laws of block names in Sequence lines: which names `from_line` finds
-- again in the line that `to_line` writes.
import DevconSpark.SequenceLaws

open trimming py_text py_dict py_number py_value devcon_spark.exceptions
open devcon_spark.codec.descriptor devcon_spark.codec.time_utils

namespace devcon_spark.codec.sequence

/-! ## Arguments with any name -/

/-- A number as the controller holds it: whole, or any float. -/
inductive Amount
  | whole (i : Int)
  | real (q : ℚ)

namespace Amount

def value : Amount → Value
  | whole i => .int i
  | real q => .float (.fin q)

/-- What is left of it after rounding to two decimals. -/
def rounded : Amount → Number
  | whole i => .whole i
  | real q => .cents (hundredths q)

def BelowZero : Amount → Prop
  | whole i => i < 0
  | real q => q < 0

/-- Below 10^16 in size, and not so close below zero that it is rounded to zero. -/
def Fits (x : Amount) : Prop :=
  x.rounded.Short ∧ (x.BelowZero ↔ x.rounded.hundredths < 0)

end Amount

/-- What stands in an argument: a block name or a variable name may be any text. -/
inductive Argument
  | var (name : Text)
  | link (type : Option Text) (id : Text)
  | temperature (amount : Amount) (delta fahrenheit : Bool)
  | duration (amount : Amount)
  | number (x : Amount)
  | word (t : Text)
  | unset

namespace Argument

/-- An enum has a name or a number, and a time is a date or is not set. -/
def Fits (p : Parameter) : Argument → Prop
  | var _ => True
  | link _ id => p.kind = .link ∧ id ≠ []
  | temperature amount delta _ => p.kind = .temperature delta ∧ amount.Fits
  | duration amount => p.kind = .duration ∧ ∃ td, timedelta amount.value = .ok td
  | number _ => p.kind = .number ∨ p.kind = .state
  | word t => (p.kind = .timestamp ∨ p.kind = .state) ∧ t ≠ [] ∧ ∀ c ∈ t, Plain c
  | unset => p.kind = .timestamp

def key (p : Parameter) : Argument → Text
  | var _ => VAR_PREFIX ++ p.name.toList
  | _ => RAW_PREFIX ++ p.name.toList

def value : Argument → Value
  | var name => .str name
  | link type id => (Content.link type id).value
  | temperature amount delta fahrenheit =>
    Content.typed "Quantity" [("unit".toList, .str (unitOf delta fahrenheit)),
      ("value".toList, amount.value)]
  | duration amount =>
    Content.typed "Quantity" [("unit".toList, .str "second".toList),
      ("value".toList, amount.value)]
  | number x => x.value
  | word t => .str t
  | unset => .none

/-- The text of a value, without its quotes. -/
def text : Argument → Text
  | var name => '$' :: name
  | link _ id => id
  | temperature amount delta fahrenheit =>
    amount.rounded.text ++ Content.lettersOf delta fahrenheit
  | duration amount =>
    match timedelta amount.value with
    | .ok td => periodsText (total_seconds td)
    | .error _ => []
  | number x => x.rounded.text
  | word t => t
  | unset => "None".toList

end Argument

/-! ## Printed texts -/

/-- What is left of a text that was printed, without the white space and the quotes around it. -/
def bare (t : Text) : Text := stripOf '\'' (strip (quoteText t))

/-- A text without the separators of a line. -/
def Unmarked (t : Text) : Prop := ',' ∉ t ∧ '=' ∉ t

instance (t : Text) : Decidable (Unmarked t) := inferInstanceAs (Decidable (_ ∧ _))

/-- A name that comes back from its printed text: it has no separator, it is no variable, and
it has no quote and no white space at its ends. Where it has a space, the quotes keep the
white space. -/
def SafeName (s : Text) : Prop :=
  Unmarked s ∧ s.head? ≠ some '$' ∧ s.head? ≠ some '\'' ∧
    s.getLast? ≠ some '\'' ∧ (' ' ∈ s ∨ Tight isSpace s)

theorem stripOf_eq_self_iff (c : Char) (t : Text) :
    stripOf c t = t ↔ t.head? ≠ some c ∧ t.getLast? ≠ some c := by
  rw [stripOf_eq_trim, trim_eq_self_iff]
  unfold Tight
  simp only [decide_eq_false_iff_not]
  constructor
  · intro h
    exact ⟨fun hc => h.1 c hc rfl, fun hc => h.2 c hc rfl⟩
  · rintro ⟨hhead, hlast⟩
    exact ⟨fun x hx he => hhead (he ▸ hx), fun x hx he => hlast (he ▸ hx)⟩

/-- In quotes, a text has no white space at its ends. -/
theorem bare_of_space {t : Text} (h : ' ' ∈ t) : bare t = stripOf '\'' t := by
  rw [bare, quoteText, if_pos h, strip_eq_self, stripOf_around]
  · intro c hc
    cases hc
    decide
  · intro c hc
    rw [← List.cons_append, List.getLast?_concat] at hc
    cases hc
    decide

theorem bare_eq_self_iff (t : Text) :
    bare t = t ↔ t.head? ≠ some '\'' ∧ t.getLast? ≠ some '\'' ∧ (' ' ∈ t ∨ Tight isSpace t) := by
  by_cases hspace : ' ' ∈ t
  · rw [bare_of_space hspace, stripOf_eq_self_iff]
    simp [hspace]
  · have hbare : bare t = stripOf '\'' (strip t) := by
      rw [bare, quoteText, if_neg hspace]
    have hquotes := stripOf_eq_self_iff '\'' t
    rw [hbare]
    constructor
    · intro h
      obtain ⟨htight, hq⟩ := trim_eq_of_twice h
      have hself := hquotes.mp (trim_eq_self_iff.mpr hq)
      exact ⟨hself.1, hself.2, Or.inr htight⟩
    · rintro ⟨hhead, hlast, hor⟩
      have htight := hor.resolve_left hspace
      rw [strip_eq_trim, trim_of_tight htight]
      exact hquotes.mpr ⟨hhead, hlast⟩

theorem safeName_iff (s : Text) :
    SafeName s ↔ Unmarked s ∧ s.head? ≠ some '$' ∧ bare s = s := by
  rw [bare_eq_self_iff]
  rfl

theorem bare_plain {t : Text} (h : ∀ c ∈ t, Plain c) : bare t = t := by
  have hquote : '\'' ∉ t := fun hm => (h _ hm).1 (by decide)
  rw [bare, quoteText_plain h, strip_plain h, stripOf_eq_self hquote]

theorem mem_bare {t : Text} {c : Char} (h : c ∈ t) (hc : isSpace c = false) (hq : c ≠ '\'') :
    c ∈ bare t := by
  have hprinted : c ∈ quoteText t := by
    unfold quoteText
    split
    · simp [h]
    · exact h
  apply mem_trim (mem_strip hprinted hc)
  simpa using hq

theorem mem_of_mem_bare {t : Text} {c : Char} (h : c ∈ bare t) (hq : c ≠ '\'') : c ∈ t := by
  have hprinted : c ∈ quoteText t := mem_of_mem_trim _ (mem_of_mem_trim _ h)
  unfold quoteText at hprinted
  split at hprinted
  · simpa [hq] using hprinted
  · exact hprinted

/-- A variable stays a variable, whatever its name. -/
theorem bare_var (name : Text) : ∃ r, bare ('$' :: name) = '$' :: r := by
  have hdollar : isSpace '$' = false := by decide
  by_cases hspace : ' ' ∈ '$' :: name
  · rw [bare_of_space hspace]
    exact trim_cons (by decide) name
  · obtain ⟨r, hr⟩ := trim_cons (p := isSpace) hdollar name
    rw [bare, quoteText, if_neg hspace, strip_eq_trim, hr]
    exact trim_cons (by decide) r

theorem splitArg_key {key : Text} (heq : '=' ∉ key) (hkey : strip key = key) (t : Text) :
    splitArg (key ++ '=' :: t) = (key, stripOf '\'' (strip t)) := by
  unfold splitArg
  rw [partition_of_notMem heq]
  simp only [hkey]

namespace Argument

def IsName : Argument → Prop
  | var _ | link _ _ => True
  | _ => False

/-- What keeps an argument in its place: a name has no mark of the line, and a temperature
is not below zero. -/
def Safe : Argument → Prop
  | var name => Unmarked name
  | link _ id => SafeName id
  | temperature amount _ _ => ¬ amount.BelowZero
  | _ => True

end Argument

/-! ## Writing an argument -/

section
variable (timeparse : Text → Option ℚ) (repr : Value → Text) {p : Parameter}

theorem Amount.round_text (x : Amount) :
    (round2 x.value).map (str repr) = .ok x.rounded.text := by
  cases x with
  | whole i => rfl
  | real q =>
    have hcents := Number.round_text repr (.cents (hundredths q))
    simp only [Number.value, round2, hundredths_div] at hcents
    exact hcents

/-- Only names have white space or marks of the line. -/
theorem Argument.text_plain {a : Argument} (h : a.Fits p) (hname : ¬ a.IsName) :
    ∀ c ∈ a.text, Plain c := by
  cases a with
  | var name => exact absurd trivial hname
  | link type id => exact absurd trivial hname
  | temperature amount delta fahrenheit =>
    exact plain_append (Number.text_plain amount.rounded).2 (plain_letters delta fahrenheit)
  | duration amount =>
    obtain ⟨-, td, htd⟩ := h
    have htext : (Argument.duration amount).text = periodsText (total_seconds td).toNat := by
      rw [← periodsText_toNat]
      simp only [Argument.text, htd]
    rw [htext]
    exact (plain_periodsText _).2
  | number x => exact (Number.text_plain x.rounded).2
  | word t => exact h.2.2
  | unset => decide

/-- `to_line` writes the text of an argument, in quotes where it has a space. -/
theorem argText_argument {a : Argument} (h : a.Fits p) :
    argText timeparse repr (a.key p) a.value = .ok (p.name.toList ++ '=' :: quoteText a.text) := by
  cases a with
  | var name => exact argText_var timeparse repr _ name
  | link type id => exact argText_link timeparse repr _ type id
  | temperature amount delta fahrenheit =>
    apply argText_plain timeparse repr _ (Argument.text_plain h id)
    rw [Argument.value, lineValue_quantity,
      quantityText_temperature timeparse repr rfl rfl (Amount.round_text repr amount)]
    rfl
  | duration amount =>
    apply argText_plain timeparse repr _ (Argument.text_plain h id)
    obtain ⟨-, td, htd⟩ := h
    have hamount : getItem [("__bloxtype".toList, .str "Quantity".toList),
        ("unit".toList, .str "second".toList), ("value".toList, amount.value)] "value".toList =
          .ok amount.value := rfl
    rw [Argument.value, lineValue_quantity, quantityText_second timeparse repr hamount rfl htd]
    simp only [Argument.text, htd]
    rfl
  | number x =>
    apply argText_plain timeparse repr _ (Argument.text_plain h id)
    cases x with
    | whole i => rfl
    | real q => exact Amount.round_text repr (.real q)
  | word t => exact argText_plain timeparse repr _ (Argument.text_plain h id) rfl
  | unset => exact argText_plain timeparse repr _ (Argument.text_plain h id) rfl

end

/-! ## Reading an argument -/

section
variable {timeparse : Text → Option ℚ} (repr : Value → Text) (line_num : Nat)
variable {desc : Descriptor} {p : Parameter}

/-- Without a dollar sign, a text of a field without a link or a unit is read as it is. -/
theorem parse_untyped (hk : Known desc p) {t : Text} (hplain : ∀ c ∈ t, Plain c)
    (hlink : p.opts.objtype.isSome = false) (hunit : p.opts.unit = .NotSet) :
    ∃ v, parse_arg_entry timeparse repr line_num desc p.name.toList t =
      .ok (RAW_PREFIX ++ p.name.toList, v) := by
  have heq : '=' ∉ t := fun hm => (hplain _ hm).1 (by decide)
  refine ⟨((py_number.float t).map Value.float).getD (.str t), ?_⟩
  rw [parse_raw repr line_num hk heq (head_plain hplain), if_neg (by simp [hlink]),
    if_neg (by simp [hunit])]

/-- What is no name is read under its raw key, but for a temperature below zero. -/
theorem parse_no_name (htp : ReadsPeriods timeparse) (hk : Known desc p) {a : Argument}
    (h : a.Fits p) (hs : a.Safe) (hname : ¬ a.IsName) :
    ∃ v, parse_arg_entry timeparse repr line_num desc p.name.toList a.text =
      .ok (a.key p, v) := by
  have hplain := Argument.text_plain h hname
  have heq : '=' ∉ a.text := fun hm => (hplain _ hm).1 (by decide)
  cases a with
  | var name => exact absurd trivial hname
  | link type id => exact absurd trivial hname
  | temperature amount delta fahrenheit =>
    obtain ⟨hkind, hshort, hsign⟩ := h
    obtain ⟨hlink, hunit⟩ := kind_temperature hkind
    have hset : p.opts.unit ≠ .NotSet := by
      rw [hunit]
      cases delta <;> decide
    have hpos : 0 ≤ amount.rounded.hundredths := not_lt.mp fun hneg => hs (hsign.mpr hneg)
    refine ⟨quantity amount.rounded.float (unitOf delta fahrenheit), ?_⟩
    rw [parse_raw repr line_num hk heq (head_plain hplain), if_neg (by simp [hlink]),
      if_pos hset, hunit, strip_plain hplain, Argument.text,
      parseQuantity_temperature repr line_num _ hshort hpos]
    rfl
  | duration amount =>
    obtain ⟨hkind, td, htd⟩ := h
    obtain ⟨hlink, hunit⟩ := kind_duration hkind
    have htext : (Argument.duration amount).text = periodsText (total_seconds td).toNat := by
      rw [← periodsText_toNat]
      simp only [Argument.text, htd]
    refine ⟨quantity (.int (total_seconds td).toNat) "second".toList, ?_⟩
    rw [parse_raw repr line_num hk heq (head_plain hplain), if_neg (by simp [hlink]), hunit,
      if_pos (by decide), strip_plain hplain, htext,
      parseQuantity_duration repr line_num htp _ (total_seconds_lt td)]
    rfl
  | number x =>
    obtain ⟨hlink, hunit⟩ := kind_plain hk (Or.inr (Or.symm h))
    exact parse_untyped repr line_num hk hplain hlink hunit
  | word t =>
    obtain ⟨hlink, hunit⟩ := kind_plain hk (h.1.imp id Or.inl)
    exact parse_untyped repr line_num hk hplain hlink hunit
  | unset =>
    obtain ⟨hlink, hunit⟩ := kind_plain hk (Or.inl h)
    exact parse_untyped repr line_num hk hplain hlink hunit

/-- A safe argument is found under its key, a link with its name. -/
theorem parse_safe (htp : ReadsPeriods timeparse) (hk : Known desc p) {a : Argument}
    (h : a.Fits p) (hs : a.Safe) :
    ∃ v, parse_arg_entry timeparse repr line_num desc p.name.toList (bare a.text) =
      .ok (a.key p, v) ∧ ∀ type id, a = .link type id → v = sequence.link id := by
  by_cases hname : a.IsName
  · cases a with
    | var name =>
      obtain ⟨r, hr⟩ := bare_var name
      have heq : '=' ∉ r := by
        intro hm
        have hin : '=' ∈ '$' :: name := mem_of_mem_bare (by simp [hr, hm]) (by decide)
        exact hs.2 ((List.mem_cons.mp hin).resolve_left (by decide))
      refine ⟨.str r, ?_, fun type id he => by cases he⟩
      rw [Argument.text, hr, parse_var repr line_num hk heq]
      rfl
    | link type id =>
      obtain ⟨hmarks, hdollar, hbare⟩ := (safeName_iff id).mp hs
      refine ⟨sequence.link id, ?_, fun type' id' he => by cases he; rfl⟩
      rw [Argument.text, hbare, parse_raw repr line_num hk hmarks.2 hdollar,
        if_pos (kind_link h.1)]
      rfl
    | _ => exact hname.elim
  · obtain ⟨v, hv⟩ := parse_no_name repr line_num htp hk h hs hname
    refine ⟨v, ?_, ?_⟩
    · rw [bare_plain (Argument.text_plain h hname)]
      exact hv
    · rintro type id rfl
      exact absurd trivial hname

end

/-! ## Lines with any names -/

section
variable (timeparse : Text → Option ℚ) (repr : Value → Text) (line_num : Nat)

/-- How an argument comes back: under its key, a link with its name, and any other argument
as its own text is read, whatever stands beside it. -/
def Back (desc : Descriptor) (a : Parameter × Argument) (kv : Text × Value) : Prop :=
  kv.1 = a.2.key a.1 ∧
    match a.2 with
    | .link _ id => kv.2 = sequence.link id
    | b => parse_arg_entry timeparse repr line_num desc a.1.name.toList (bare b.text) = .ok kv

def instruction (o : String × Nat × String) (args : List (Parameter × Argument)) : Dict :=
  [(o.1.toList, .dict (args.map fun a => (a.2.key a.1, a.2.value)))]

/-- The line of an instruction is read as that instruction: its opcode, and its arguments in
their order. -/
def Kept (o : String × Nat × String) (args : List (Parameter × Argument)) : Prop :=
  ∃ kvs, (to_line timeparse repr (instruction o args) >>= fun line =>
      from_line timeparse repr line line_num) = .ok [(o.1.toList, .dict kvs)] ∧
    List.Forall₂ (Back timeparse repr line_num (messageOf o.2.2)) args kvs

end

section
variable {timeparse : Text → Option ℚ} (repr : Value → Text) (line_num : Nat)
variable {o : String × Nat × String} {args : List (Parameter × Argument)}

/-- The texts of the arguments in a line. -/
def printed (args : List (Parameter × Argument)) : List Text :=
  args.map fun a => a.1.name.toList ++ '=' :: quoteText a.2.text

variable (timeparse) in
theorem to_line_instruction (hc : o.1 ≠ "COMMENT") (hne : args ≠ [])
    (h : ∀ a ∈ args, a.2.Fits a.1) :
    to_line timeparse repr (instruction o args) =
      .ok (o.1.toList ++ ' ' :: ", ".toList.intercalate (printed args)) := by
  have hopcode : o.1.toList ≠ "COMMENT".toList := fun he => hc (String.toList_inj.mp he)
  have hloop : (args.map fun a => (a.2.key a.1, a.2.value)).mapM
      (fun kv => argText timeparse repr kv.1 kv.2) = .ok (printed args) := by
    rw [List.mapM_map]
    exact mapM_ok fun a ha => argText_argument timeparse repr (h a ha)
  rw [instruction, to_line_dict repr hopcode, hloop]
  obtain ⟨a, as, rfl⟩ := List.exists_cons_of_ne_nil hne
  rfl

/-- Where no text has a comma, the line is taken apart into the texts. -/
theorem argdictOf_printed (hknown : ∀ a ∈ args, Known (messageOf o.2.2) a.1)
    (hnodup : (args.map (·.1.name.toList)).Nodup) (h : ∀ a ∈ args, ',' ∉ a.2.text) :
    argdictOf (", ".toList.intercalate (printed args)) =
      args.map fun a => (a.1.name.toList, bare a.2.text) := by
  have hkey : ∀ a ∈ args, ∀ c ∈ a.1.name.toList, Plain c := fun a ha => (hknown a ha).2.2.1
  have hpieces : (((", ".toList.intercalate (printed args)).splitOn ',').filter (· ≠ [])).map
      splitArg = args.map fun a => (a.1.name.toList, bare a.2.text) := by
    rw [splitTexts, printed, List.map_map]
    · refine List.map_congr_left fun a ha => splitArg_key ?_ (strip_plain (hkey a ha)) _
      exact fun hm => (hkey a ha _ hm).1 (by decide)
    · intro t ht
      obtain ⟨a, ha, rfl⟩ := List.mem_map.mp ht
      refine ⟨by simp, fun hm => ?_⟩
      rcases List.mem_append.mp hm with hm | hm
      · exact (hkey a ha _ hm).1 (by decide)
      · exact quoteText_comma (h a ha) ((List.mem_cons.mp hm).resolve_left (by decide))
  rw [argdictOf, hpieces, dictOf_nodup]
  rw [List.map_map]
  exact hnodup

theorem names_nodup (ho : o ∈ opcodes) (hc : o.1 ≠ "COMMENT")
    (hperm : (args.map (·.1)).Perm (parameters o.2.2)) :
    (args.map (·.1.name.toList)).Nodup := by
  have hnames : args.map (·.1.name.toList) = (args.map (·.1)).map (·.name.toList) := by simp
  rw [hnames]
  exact (hperm.map _).nodup_iff.mpr (parameters_names o ho hc).1

theorem known_args (ho : o ∈ opcodes) (hperm : (args.map (·.1)).Perm (parameters o.2.2)) :
    ∀ a ∈ args, Known (messageOf o.2.2) a.1 :=
  fun a ha => known_parameters o ho a.1 (hperm.subset (List.mem_map_of_mem ha))

theorem Argument.base_key {desc : Descriptor} {p : Parameter} (hk : Known desc p) (a : Argument) :
    sequence.base_key (a.key p) = p.name.toList := by
  cases a with
  | var name => exact hk.2.2.2.2
  | _ => exact hk.2.2.2.1

/-- No safe argument has a comma in its text. -/
theorem Argument.Safe.no_comma {p : Parameter} {a : Argument} (h : a.Fits p) (hs : a.Safe) :
    ',' ∉ a.text := by
  intro hm
  by_cases hname : a.IsName
  · cases a with
    | var name => exact hs.1 ((List.mem_cons.mp hm).resolve_left (by decide))
    | link type id => exact hs.1.1 hm
    | _ => exact hname.elim
  · exact (Argument.text_plain h hname _ hm).1 (by decide)

/-- Safe arguments come back. -/
theorem kept_of_safe (htp : ReadsPeriods timeparse) (ho : o ∈ opcodes) (hc : o.1 ≠ "COMMENT")
    (hne : args ≠ []) (hperm : (args.map (·.1)).Perm (parameters o.2.2))
    (h : ∀ a ∈ args, a.2.Fits a.1) (hs : ∀ a ∈ args, a.2.Safe) :
    Kept timeparse repr line_num o args := by
  have hknown := known_args ho hperm
  have hpairs := argdictOf_printed hknown (names_nodup ho hc hperm)
    fun a ha => (hs a ha).no_comma (h a ha)
  obtain ⟨kvs, hloop, hback⟩ : ∃ kvs, args.mapM (fun a =>
      parse_arg_entry timeparse repr line_num (messageOf o.2.2) a.1.name.toList (bare a.2.text)) =
        .ok kvs ∧ List.Forall₂ (Back timeparse repr line_num (messageOf o.2.2)) args kvs := by
    apply mapM_forall₂
    intro a ha
    obtain ⟨v, hv, hlink⟩ := parse_safe repr line_num htp (hknown a ha) (h a ha) (hs a ha)
    refine ⟨_, hv, rfl, ?_⟩
    cases ha2 : a.2 with
    | link type id => exact hlink type id ha2
    | _ =>
      rw [ha2] at hv
      exact hv
  have hkeys : (kvs.map (·.1)).map base_key = (args.map (·.1)).map (·.name.toList) := by
    rw [List.map_map, List.map_map]
    apply Eq.symm
    apply map_eq_of_forall₂
    refine forall₂_imp_left hback fun a ha kv hkv => ?_
    show a.1.name.toList = base_key kv.1
    rw [hkv.1, Argument.base_key (hknown a ha)]
  refine ⟨kvs, ?_, hback⟩
  rw [to_line_instruction timeparse repr hc hne h, ok_bind, from_line_args repr line_num ho, hpairs,
    parseArgs_entries repr line_num ho hc hperm (by rw [List.mapM_map]; exact hloop) hkeys]
  rfl

/-- What stands in an argument of a line has no comma, and no quote at its ends. -/
theorem mem_argdictOf {line : Text} {kv : Text × Text} (h : kv ∈ argdictOf line) :
    ',' ∉ kv.2 ∧ stripOf '\'' kv.2 = kv.2 := by
  obtain ⟨piece, hpiece, rfl⟩ := List.mem_map.mp (mem_dictOf h)
  have hsplit := List.mem_of_mem_filter hpiece
  constructor
  · intro hm
    have hin : ',' ∈ (partition '=' piece).2 := mem_of_mem_trim _ (mem_of_mem_trim _ hm)
    have hdrop := List.mem_of_mem_drop hin
    exact (mem_splitOn hsplit _ ((List.dropWhile_suffix _).subset hdrop)).1 rfl
  · exact trim_of_tight (trim_tight _ _)

/-- Each argument that came back was read from a text of the line. -/
theorem read_of_kept (ho : o ∈ opcodes) (hc : o.1 ≠ "COMMENT") (hne : args ≠ [])
    (h : ∀ a ∈ args, a.2.Fits a.1) (hkept : Kept timeparse repr line_num o args) :
    ∀ a ∈ args, ∃ kv, Back timeparse repr line_num (messageOf o.2.2) a kv ∧
      ∃ entry ∈ argdictOf (", ".toList.intercalate (printed args)),
        parse_arg_entry timeparse repr line_num (messageOf o.2.2) entry.1 entry.2 = .ok kv := by
  obtain ⟨kvs, hread, hback⟩ := hkept
  rw [to_line_instruction timeparse repr hc hne h, ok_bind,
    from_line_args repr line_num ho] at hread
  obtain ⟨parsed, hparsed, hkvs⟩ := map_eq_ok.mp hread
  obtain ⟨entries, hloop, rfl, -⟩ := parseArgs_inv repr line_num hparsed
  simp only [List.cons.injEq, Prod.mk.injEq, Value.dict.injEq, true_and, and_true] at hkvs
  subst hkvs
  intro a ha
  obtain ⟨kv, hkv, hR⟩ := forall₂_left hback ha
  obtain ⟨entry, hentry, hparse⟩ := forall₂_right (forall₂_of_mapM hloop) (mem_dictOf hkv)
  exact ⟨kv, hR, entry, hentry, hparse⟩

/-- A link is made of the very text it is read from. -/
theorem parse_link_inv {desc : Descriptor} {key t id k : Text}
    (h : parse_arg_entry timeparse repr line_num desc key t = .ok (k, link id)) :
    t = id ∧ '=' ∉ t ∧ t.head? ≠ some '$' ∧ k = RAW_PREFIX ++ key := by
  obtain ⟨heq, field, -, hcases⟩ := parse_arg_entry_inv repr line_num h
  rcases hcases with ⟨name, -, hkv⟩ | ⟨hdollar, ⟨-, hkv⟩ | ⟨-, ⟨-, v, hkv, hv⟩ | ⟨-, hkv⟩⟩⟩
  · cases hkv
  · cases hkv
    exact ⟨rfl, heq, hdollar, rfl⟩
  · obtain ⟨-, rfl⟩ := Prod.mk.inj hkv
    rcases parseQuantity_inv repr line_num hv with ⟨_, _, _, -, -, hq⟩ | ⟨-, _, -, hq⟩
    · simp [quantity, sequence.link] at hq
    · simp [quantity, sequence.link] at hq
  · obtain ⟨-, hval⟩ := Prod.mk.inj hkv
    cases hf : py_number.float t with
    | none =>
      rw [hf] at hval
      cases hval
    | some x =>
      rw [hf] at hval
      cases hval

/-- Every character of a text that is read stands in the text it is read from. -/
theorem parse_str_inv {desc : Descriptor} {key t s k : Text}
    (h : parse_arg_entry timeparse repr line_num desc key t = .ok (k, .str s)) :
    ∀ c ∈ s, c ∈ t := by
  obtain ⟨-, field, -, hcases⟩ := parse_arg_entry_inv repr line_num h
  rcases hcases with ⟨name, rfl, hkv⟩ | ⟨-, ⟨-, hkv⟩ | ⟨-, ⟨-, v, hkv, hv⟩ | ⟨-, hkv⟩⟩⟩
  · cases hkv
    exact fun c hc => List.mem_cons_of_mem '$' hc
  · cases hkv
  · obtain ⟨-, rfl⟩ := Prod.mk.inj hkv
    rcases parseQuantity_inv repr line_num hv with ⟨_, _, _, -, -, hq⟩ | ⟨-, _, -, hq⟩
    · cases hq
    · cases hq
  · obtain ⟨-, hval⟩ := Prod.mk.inj hkv
    cases hf : py_number.float t with
    | none =>
      simp only [hf, Option.map_none, Option.getD_none, Value.str.injEq] at hval
      exact fun c hc => hval ▸ hc
    | some x =>
      rw [hf] at hval
      cases hval

/-- A variable that comes back has no mark of the line. -/
theorem var_unmarked {p : Parameter} {name : Text} {kv : Text × Value} {t : Text} {key : Text}
    {desc : Descriptor} (hback : Back timeparse repr line_num desc (p, .var name) kv)
    (hcomma : ',' ∉ t) (hparse : parse_arg_entry timeparse repr line_num desc key t = .ok kv) :
    Unmarked name := by
  obtain ⟨r, hr⟩ := bare_var name
  have halone := hback.2
  simp only [Argument.text, hr] at halone
  obtain ⟨heq, field, -, hcases⟩ := parse_arg_entry_inv repr line_num halone
  obtain ⟨name', hname', hkv⟩ := hcases.resolve_right (by simp)
  obtain rfl := (List.cons.inj hname').2
  subst hkv
  have hin : ∀ c ∈ name, isSpace c = false → c ≠ '\'' → c ∈ '$' :: r := by
    intro c hc hspace hquote
    rw [← hr]
    exact mem_bare (List.mem_cons_of_mem '$' hc) hspace hquote
  constructor
  · intro hc
    have hr' := (List.mem_cons.mp (hin ',' hc (by decide) (by decide))).resolve_left (by decide)
    exact hcomma (parse_str_inv repr line_num hparse ',' hr')
  · intro hc
    exact heq (hin '=' hc (by decide) (by decide))

variable (timeparse) in
/-- A raw temperature below zero is read from no text. -/
theorem parse_below_zero {desc : Descriptor} {p : Parameter} (hk : Known desc p) {amount : Amount}
    {delta fahrenheit : Bool} (h : (Argument.temperature amount delta fahrenheit).Fits p)
    (hneg : amount.BelowZero) :
    ∃ e, parse_arg_entry timeparse repr line_num desc p.name.toList
      (Argument.temperature amount delta fahrenheit).text = .error e := by
  have hplain := Argument.text_plain h id
  have heq : '=' ∉ (Argument.temperature amount delta fahrenheit).text :=
    fun hm => (hplain _ hm).1 (by decide)
  obtain ⟨hkind, hshort, hsign⟩ := h
  obtain ⟨hlink, hunit⟩ := kind_temperature hkind
  have hset : p.opts.unit ≠ .NotSet := by
    rw [hunit]
    cases delta <;> decide
  obtain ⟨e, he⟩ := parseQuantity_frost timeparse repr line_num p.name.toList hshort
    (hsign.mp hneg) delta (Content.lettersOf delta fahrenheit)
  refine ⟨e, ?_⟩
  rw [parse_raw repr line_num hk heq (head_plain hplain), if_neg (by simp [hlink]),
    if_pos hset, hunit, strip_plain hplain, Argument.text, he]
  rfl

/-- Only safe arguments come back. First no text has a comma, then each is read from its own
place in the line. -/
theorem safe_of_kept (ho : o ∈ opcodes) (hc : o.1 ≠ "COMMENT") (hne : args ≠ [])
    (hperm : (args.map (·.1)).Perm (parameters o.2.2)) (h : ∀ a ∈ args, a.2.Fits a.1)
    (hkept : Kept timeparse repr line_num o args) : ∀ a ∈ args, a.2.Safe := by
  have hread := read_of_kept repr line_num ho hc hne h hkept
  have hknown := known_args ho hperm
  have hnodup := names_nodup ho hc hperm
  have hvar : ∀ a ∈ args, ∀ name, a.2 = .var name → Unmarked name := by
    rintro ⟨p, x⟩ ha name rfl
    obtain ⟨kv, hback, entry, hentry, hparse⟩ := hread _ ha
    exact var_unmarked repr line_num hback (mem_argdictOf hentry).1 hparse
  have hlink : ∀ a ∈ args, ∀ type id, a.2 = .link type id → ∃ entry,
      entry ∈ argdictOf (", ".toList.intercalate (printed args)) ∧
        entry = (a.1.name.toList, id) ∧ '=' ∉ id ∧ id.head? ≠ some '$' := by
    rintro ⟨p, x⟩ ha type id rfl
    obtain ⟨⟨k, v⟩, hback, ⟨key, t⟩, hentry, hparse⟩ := hread _ ha
    obtain ⟨rfl, rfl⟩ : k = RAW_PREFIX ++ p.name.toList ∧ v = sequence.link id := hback
    obtain ⟨rfl, heq, hdollar, hkey⟩ := parse_link_inv repr line_num hparse
    rw [List.append_cancel_left hkey] at *
    exact ⟨_, hentry, rfl, heq, hdollar⟩
  have hcomma : ∀ a ∈ args, ',' ∉ a.2.text := by
    intro a ha hm
    cases ha2 : a.2 with
    | var name =>
      rw [ha2] at hm
      exact (hvar a ha name ha2).1 ((List.mem_cons.mp hm).resolve_left (by decide))
    | link type id =>
      obtain ⟨entry, hentry, rfl, -⟩ := hlink a ha type id ha2
      rw [ha2] at hm
      exact (mem_argdictOf hentry).1 hm
    | _ => exact (Argument.text_plain (h a ha) (by rw [ha2]; exact id) _ hm).1 (by decide)
  intro a ha
  cases ha2 : a.2 with
  | var name => exact hvar a ha name ha2
  | link type id =>
    obtain ⟨entry, hentry, rfl, heq, hdollar⟩ := hlink a ha type id ha2
    have hmarks : Unmarked id := ⟨(mem_argdictOf hentry).1, heq⟩
    rw [argdictOf_printed hknown hnodup hcomma] at hentry
    obtain ⟨b, hb, hpair⟩ := List.mem_map.mp hentry
    obtain ⟨hname, hbare⟩ := Prod.mk.inj hpair
    obtain rfl := List.inj_on_of_nodup_map hnodup hb ha hname
    rw [ha2] at hbare
    exact (safeName_iff id).mpr ⟨hmarks, hdollar, hbare⟩
  | temperature amount delta fahrenheit =>
    intro hneg
    obtain ⟨kv, hback, -⟩ := hread a ha
    have hfits := h a ha
    have halone := hback.2
    rw [ha2] at hfits halone
    have hplain := Argument.text_plain hfits id
    simp only [bare_plain hplain] at halone
    obtain ⟨e, he⟩ := parse_below_zero timeparse repr line_num (hknown a ha) hfits hneg
    rw [he] at halone
    cases halone
  | _ => trivial

end

/-- An instruction with a link comes back from its line exactly where its names have no mark
of the line, and where no temperature is below zero. -/
theorem kept_iff_safe (timeparse : Text → Option ℚ) (htp : ReadsPeriods timeparse)
    (repr : Value → Text) (line_num : Nat) (o : String × Nat × String) (ho : o ∈ opcodes)
    (args : List (Parameter × Argument)) (hperm : (args.map (·.1)).Perm (parameters o.2.2))
    (h : ∀ a ∈ args, a.2.Fits a.1) (p : Parameter) (type : Option Text) (s : Text)
    (hlink : (p, .link type s) ∈ args) :
    Kept timeparse repr line_num o args ↔ ∀ a ∈ args, a.2.Safe := by
  have hne : args ≠ [] := List.ne_nil_of_mem hlink
  have hc : o.1 ≠ "COMMENT" := by
    have hp : p ∈ parameters o.2.2 := hperm.subset (List.mem_map_of_mem hlink)
    have hempty : ∀ o ∈ opcodes, o.1 = "COMMENT" → o.2.2 = "Comment" := by decide
    intro hcomment
    rw [hempty o ho hcomment] at hp
    cases hp
  constructor
  · exact safe_of_kept repr line_num ho hc hne hperm h
  · exact kept_of_safe repr line_num htp ho hc hne hperm h

/-- A setpoint of 65.5 degrees for a block with a space and a quote in its name. -/
def mashSetpoint : List (Parameter × Argument) :=
  [(target "SetpointSensorPairInterface" 3, .link none "Bob's kettle".toList),
    (temperature "setting" .Celsius 2 4, .temperature (.real (131 / 2)) false false)]

theorem mashSetpoint_fits : ∀ a ∈ mashSetpoint, a.2.Fits a.1 := by
  intro a ha
  rcases List.mem_cons.mp ha with rfl | ha
  · exact ⟨rfl, by decide⟩
  · rw [List.mem_singleton.mp ha]
    refine ⟨rfl, by decide +kernel, ?_⟩
    have hneg : ¬ (131 / 2 : ℚ) < 0 := by norm_num
    have hrounded : ¬ (Amount.real (131 / 2)).rounded.hundredths < 0 := by decide +kernel
    exact ⟨fun h => absurd h hneg, fun h => absurd h hrounded⟩

theorem mashSetpoint_kept :
    Kept readPeriods (fun _ => []) 1 ("SET_SETPOINT", 11, "SetSetpoint") mashSetpoint := by
  apply (kept_iff_safe readPeriods readPeriods_reads (fun _ => []) 1
    ("SET_SETPOINT", 11, "SetSetpoint") (by decide) mashSetpoint (by rfl) mashSetpoint_fits
    (target "SetpointSensorPairInterface" 3) none "Bob's kettle".toList List.mem_cons_self).mpr
  intro a ha
  rcases List.mem_cons.mp ha with rfl | ha
  · exact ⟨by decide, by decide, by decide, by decide, Or.inl (by decide)⟩
  · rw [List.mem_singleton.mp ha]
    exact not_lt.mpr (by norm_num)

/-- A block whose name holds an argument of its own. -/
def twoFaced : List (Parameter × Argument) :=
  [(target "EnablerInterface" 2, .link none "Fridge,target=Heater".toList)]

/-- It is the other block that is enabled. -/
theorem name_redirects :
    (∀ a ∈ twoFaced, a.2.Fits a.1) ∧
    (to_line readPeriods (fun _ => []) (instruction ("ENABLE", 2, "EnableDisable") twoFaced) >>=
      fun line => from_line readPeriods (fun _ => []) line 1) =
        .ok [("ENABLE".toList, .dict [("__raw__target".toList, link "Heater".toList)])] ∧
    ¬ Kept readPeriods (fun _ => []) 1 ("ENABLE", 2, "EnableDisable") twoFaced := by
  have hread : (to_line readPeriods (fun _ => []) (instruction ("ENABLE", 2, "EnableDisable")
      twoFaced) >>= fun line => from_line readPeriods (fun _ => []) line 1) =
        .ok [("ENABLE".toList, .dict [("__raw__target".toList, link "Heater".toList)])] := rfl
  refine ⟨?_, hread, ?_⟩
  · intro a ha
    rw [List.mem_singleton.mp ha]
    exact ⟨rfl, by decide⟩
  · rintro ⟨kvs, hkept, hback⟩
    rw [hread] at hkept
    cases hkept
    cases hback with
    | cons hlink _ =>
      have hid := hlink.2
      simp [sequence.link] at hid

end devcon_spark.codec.sequence
