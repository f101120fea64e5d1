-- The laws of saving a Sequence twice: the line that `to_line` writes for an
-- accepted line is accepted again, and is written again as it is.
import DevconSpark.NameLaws

open trimming py_text py_dict py_number py_value devcon_spark.exceptions
open devcon_spark.codec.descriptor devcon_spark.codec.time_utils

namespace devcon_spark.codec.sequence

/-! ## Which lines -/

/-- The only white space is the space. -/
def PlainSpaces (t : Text) : Prop := ∀ c ∈ t, isSpace c = true → c = ' '

/-- The field of an argument. -/
def fieldOf (opcode key : Text) : Option FieldDescriptor :=
  (opcodes.find? (·.1.toList = opcode)).bind fun o =>
    fields_by_name (messageOf o.2.2) (RAW_PREFIX ++ key)

def NamesLink (opcode key : Text) : Prop :=
  ∃ field, fieldOf opcode key = some field ∧ field.opts.objtype.isSome = true

/-- Quotes stand in no arguments but those of links and variables. A comment may have any. -/
def QuotedNames (line : Text) : Prop :=
  (lstrip line).head? = some '#' ∨
    ∀ arg ∈ (partition ' ' line).2.splitOn ',', '\'' ∈ arg →
      (splitArg arg).2.head? = some '$' ∨ NamesLink (partition ' ' line).1 (splitArg arg).1

/-- The number in a value: a float, or the amount of a quantity. -/
def NumberIn (v : Value) (x : PyFloat) : Prop :=
  v = .float x ∨ ∃ unit, v = quantity (.float x) unit

/-- The numbers of an instruction are finite and below 10^15. -/
def NumbersBelow (d : Dict) : Prop :=
  ∀ p ∈ d, ∀ kvs, p.2 = .dict kvs → ∀ kv ∈ kvs, ∀ x, NumberIn kv.2 x →
    ∃ q, x = .fin q ∧ q < 10 ^ 15

/-! ## Saved arguments -/

/-- A name of an argument, as it is taken from a line. -/
def KeyText (key : Text) : Prop := ',' ∉ key ∧ '=' ∉ key ∧ strip key = key

/-- An argument that was parsed, with the text that is written for it, and what this text
is parsed to. -/
structure Saved (timeparse : Text → Option ℚ) (repr : Value → Text) (line_num : Nat)
    (desc : Descriptor) where
  key : Text
  text : Text
  entry : Text × Value
  again : Text × Value
  key_ok : KeyText key
  text_ok : ',' ∉ text
  written : argText timeparse repr entry.1 entry.2 = .ok (key ++ '=' :: text)
  read : parse_arg_entry timeparse repr line_num desc key (stripOf '\'' (strip text)) = .ok again
  rewritten : argText timeparse repr again.1 again.2 = .ok (key ++ '=' :: text)
  same_key : again.1 = entry.1

/-- With plain spaces, quotes keep all the white space of a text. -/
theorem bare_of_plainSpaces {t : Text} (h : PlainSpaces t) (hquote : stripOf '\'' t = t) :
    bare t = t := by
  obtain ⟨hhead, hlast⟩ := (stripOf_eq_self_iff '\'' t).mp hquote
  refine (bare_eq_self_iff t).mpr ⟨hhead, hlast, ?_⟩
  by_cases hspace : ' ' ∈ t
  · exact Or.inl hspace
  · right
    have hno : ∀ c ∈ t, isSpace c = false := by
      intro c hc
      by_contra hsp
      have hblank := h c hc (by simpa using hsp)
      exact hspace (hblank ▸ hc)
    exact ⟨fun c hc => hno c (List.mem_of_mem_head? hc),
      fun c hc => hno c (List.mem_of_getLast? hc)⟩

section
variable {timeparse : Text → Option ℚ} (repr : Value → Text) (line_num : Nat)
variable {desc : Descriptor} {key : Text} {field : FieldDescriptor}

theorem saved_var (hkey : KeyText key) {name : Text}
    (hfield : fields_by_name desc (RAW_PREFIX ++ key) = some field) (heq : '=' ∉ name)
    (hcomma : ',' ∉ '$' :: name) (hbare : bare ('$' :: name) = '$' :: name) :
    ∃ row : Saved timeparse repr line_num desc,
      row.key = key ∧ row.entry = (VAR_PREFIX ++ key, .str name) := by
  have hwritten := argText_var timeparse repr key name
  have hread : parse_arg_entry timeparse repr line_num desc key (bare ('$' :: name)) =
      .ok (VAR_PREFIX ++ key, .str name) := by
    rw [hbare]
    exact parse_dollar repr line_num hfield heq
  exact ⟨⟨key, _, _, _, hkey, quoteText_comma hcomma, hwritten, hread, hwritten, rfl⟩, rfl, rfl⟩

theorem saved_link (hkey : KeyText key) {id : Text}
    (hfield : fields_by_name desc (RAW_PREFIX ++ key) = some field)
    (hlink : field.opts.objtype.isSome = true) (heq : '=' ∉ id) (hdollar : id.head? ≠ some '$')
    (hcomma : ',' ∉ id) (hbare : bare id = id) :
    ∃ row : Saved timeparse repr line_num desc,
      row.key = key ∧ row.entry = (RAW_PREFIX ++ key, link id) := by
  have hwritten : argText timeparse repr (RAW_PREFIX ++ key) (link id) =
      .ok (key ++ '=' :: quoteText id) := argText_link timeparse repr key none id
  have hread : parse_arg_entry timeparse repr line_num desc key (bare id) =
      .ok (RAW_PREFIX ++ key, link id) := by
    rw [hbare, parse_value repr line_num hfield heq hdollar, if_pos hlink]
  exact ⟨⟨key, _, _, _, hkey, quoteText_comma hcomma, hwritten, hread, hwritten, rfl⟩, rfl, rfl⟩

/-- A text without white space is read as it is written. -/
theorem saved_plain (hkey : KeyText key) {t : Text} {v w : Value} (hplain : ∀ c ∈ t, Plain c)
    (hwritten : argText timeparse repr (RAW_PREFIX ++ key) v = .ok (key ++ '=' :: t))
    (hread : parse_arg_entry timeparse repr line_num desc key t = .ok (RAW_PREFIX ++ key, w))
    (hrewritten : argText timeparse repr (RAW_PREFIX ++ key) w = .ok (key ++ '=' :: t)) :
    ∃ row : Saved timeparse repr line_num desc,
      row.key = key ∧ row.entry = (RAW_PREFIX ++ key, v) := by
  have hcomma : ',' ∉ t := fun hm => (hplain _ hm).1 (by decide)
  have hquote : '\'' ∉ t := fun hm => (hplain _ hm).1 (by decide)
  have hagain : parse_arg_entry timeparse repr line_num desc key (stripOf '\'' (strip t)) =
      .ok (RAW_PREFIX ++ key, w) := by
    rw [strip_plain hplain, stripOf_eq_self hquote]
    exact hread
  exact ⟨⟨key, t, (RAW_PREFIX ++ key, v), _, hkey, hcomma, hwritten, hagain, hrewritten, rfl⟩,
    rfl, rfl⟩

theorem saved_str (hkey : KeyText key) {t : Text}
    (hfield : fields_by_name desc (RAW_PREFIX ++ key) = some field)
    (hlink : field.opts.objtype.isSome = false) (hunit : field.opts.unit = .NotSet)
    (hfloat : py_number.float t = none) (heq : '=' ∉ t) (hdollar : t.head? ≠ some '$')
    (hcomma : ',' ∉ t) (hquote : '\'' ∉ t) (htight : Tight isSpace t) :
    ∃ row : Saved timeparse repr line_num desc,
      row.key = key ∧ row.entry = (RAW_PREFIX ++ key, .str t) := by
  have hwritten : argText timeparse repr (RAW_PREFIX ++ key) (.str t) = .ok (key ++ '=' :: t) :=
    argText_raw timeparse repr key rfl
  have hagain : parse_arg_entry timeparse repr line_num desc key (stripOf '\'' (strip t)) =
      .ok (RAW_PREFIX ++ key, .str t) := by
    rw [strip_eq_trim, trim_of_tight htight, stripOf_eq_self hquote,
      parse_value repr line_num hfield heq hdollar, if_neg (by simp [hlink]),
      if_neg (by simp [hunit]), hfloat]
    rfl
  exact ⟨⟨key, t, (RAW_PREFIX ++ key, .str t), _, hkey, hcomma, hwritten, hagain, hwritten, rfl⟩,
    rfl, rfl⟩

/-! ### Numbers -/

variable (timeparse) in
theorem argText_float (key : Text) (q : ℚ) :
    argText timeparse repr (RAW_PREFIX ++ key) (.float (.fin q)) =
      .ok (key ++ '=' :: hundredthsText (hundredths q)) := by
  apply argText_raw
  exact Amount.round_text repr (.real q)

/-- A number is read back as it was rounded. -/
theorem saved_float (hkey : KeyText key) {q : ℚ}
    (hfield : fields_by_name desc (RAW_PREFIX ++ key) = some field)
    (hlink : field.opts.objtype.isSome = false) (hunit : field.opts.unit = .NotSet) :
    ∃ row : Saved timeparse repr line_num desc,
      row.key = key ∧ row.entry = (RAW_PREFIX ++ key, .float (.fin q)) := by
  have hplain := (Number.text_plain (.cents (hundredths q))).2
  have heq : '=' ∉ (Number.cents (hundredths q)).text := fun hm => (hplain _ hm).1 (by decide)
  have hread : parse_arg_entry timeparse repr line_num desc key
      (Number.cents (hundredths q)).text =
        .ok (RAW_PREFIX ++ key, .float (.fin ((hundredths q : ℚ) / 100))) := by
    rw [parse_value repr line_num hfield heq (head_plain hplain), if_neg (by simp [hlink]),
      if_neg (by simp [hunit]), Number.float_text]
    rfl
  have hrewritten := argText_float timeparse repr key ((hundredths q : ℚ) / 100)
  rw [hundredths_div] at hrewritten
  exact saved_plain repr line_num hkey hplain (argText_float timeparse repr key q) hread hrewritten

variable (timeparse) in
theorem argText_temperature (key : Text) (q : ℚ) (delta fahrenheit : Bool) :
    argText timeparse repr (RAW_PREFIX ++ key)
        (quantity (.float (.fin q)) (unitOf delta fahrenheit)) =
      .ok (key ++ '=' ::
        (hundredthsText (hundredths q) ++ Content.lettersOf delta fahrenheit)) := by
  apply argText_raw
  show ((quantityText timeparse repr _).map Value.str).map (str repr) = _
  rw [quantityText_temperature timeparse repr rfl rfl (Amount.round_text repr (.real q))]
  rfl

theorem saved_temperature (hkey : KeyText key) {q : ℚ} {delta fahrenheit : Bool}
    (hfield : fields_by_name desc (RAW_PREFIX ++ key) = some field)
    (hlink : field.opts.objtype.isSome = false)
    (hunit : field.opts.unit = if delta then .DeltaCelsius else .Celsius)
    (hq : q < 10 ^ 15) (hpos : 0 ≤ q) :
    ∃ row : Saved timeparse repr line_num desc, row.key = key ∧
      row.entry = (RAW_PREFIX ++ key,
        quantity (.float (.fin q)) (unitOf delta fahrenheit)) := by
  have hshort : (Number.cents (hundredths q)).Short := hundredths_lt (by rwa [abs_of_nonneg hpos])
  have hplain := plain_append (Number.text_plain (.cents (hundredths q))).2
    (plain_letters delta fahrenheit)
  have heq : '=' ∉ (Number.cents (hundredths q)).text ++ Content.lettersOf delta fahrenheit :=
    fun hm => (hplain _ hm).1 (by decide)
  have hset : field.opts.unit ≠ .NotSet := by
    rw [hunit]
    cases delta <;> decide
  have hread : parse_arg_entry timeparse repr line_num desc key
      ((Number.cents (hundredths q)).text ++ Content.lettersOf delta fahrenheit) =
        .ok (RAW_PREFIX ++ key,
          quantity (.float (.fin ((hundredths q : ℚ) / 100))) (unitOf delta fahrenheit)) := by
    rw [parse_value repr line_num hfield heq (head_plain hplain), if_neg (by simp [hlink]),
      if_pos hset, hunit, strip_plain hplain,
      parseQuantity_temperature repr line_num _ hshort (hundredths_nonneg hpos)]
    rfl
  have hrewritten := argText_temperature timeparse repr key ((hundredths q : ℚ) / 100) delta
    fahrenheit
  rw [hundredths_div] at hrewritten
  exact saved_plain repr line_num hkey hplain
    (argText_temperature timeparse repr key q delta fahrenheit) hread hrewritten

variable (timeparse) in
/-- Whole seconds below zero are written as none. -/
theorem argText_duration (key : Text) {n : Int} (hmin : minMicroseconds ≤ n * 1000000)
    (hend : n * 1000000 < endMicroseconds) :
    argText timeparse repr (RAW_PREFIX ++ key) (quantity (.int n) "second".toList) =
      .ok (key ++ '=' :: periodsText n) := by
  obtain ⟨td, htd, hn⟩ := secondsOf_intCast hmin hend
  have hdelta : timedelta (.int n) = .ok td := htd
  have hvalue : getItem [("__bloxtype".toList, .str "Quantity".toList), ("value".toList, .int n),
      ("unit".toList, .str "second".toList)] "value".toList = .ok (.int n) := rfl
  apply argText_raw
  show ((quantityText timeparse repr _).map Value.str).map (str repr) = _
  rw [quantityText_second timeparse repr hvalue rfl hdelta, hn]
  rfl

theorem saved_duration (htp : ReadsPeriods timeparse) (hkey : KeyText key) (td : Timedelta)
    (hfield : fields_by_name desc (RAW_PREFIX ++ key) = some field)
    (hlink : field.opts.objtype.isSome = false) (hunit : field.opts.unit = .Second) :
    ∃ row : Saved timeparse repr line_num desc, row.key = key ∧
      row.entry = (RAW_PREFIX ++ key, quantity (.int (total_seconds td)) "second".toList) := by
  obtain ⟨hmin, hend⟩ := total_seconds_range td
  have hlt := total_seconds_lt td
  have hplain := (plain_periodsText (total_seconds td).toNat).2
  have heq : '=' ∉ periodsText (total_seconds td).toNat := fun hm => (hplain _ hm).1 (by decide)
  have hread : parse_arg_entry timeparse repr line_num desc key
      (periodsText (total_seconds td).toNat) =
        .ok (RAW_PREFIX ++ key, quantity (.int (total_seconds td).toNat) "second".toList) := by
    rw [parse_value repr line_num hfield heq (head_plain hplain), if_neg (by simp [hlink]), hunit,
      if_pos (by decide), strip_plain hplain, parseQuantity_duration repr line_num htp _ hlt]
    rfl
  have hwritten := argText_duration timeparse repr key hmin hend
  rw [periodsText_toNat] at hwritten
  have hpos : minMicroseconds ≤ ((total_seconds td).toNat : Int) * 1000000 := by
    unfold minMicroseconds
    omega
  exact saved_plain repr line_num hkey hplain hwritten hread
    (argText_duration timeparse repr key hpos hlt)

omit repr line_num in
/-- The pattern of a temperature has no sign. -/
theorem matchTemperature_unsigned {t amount u : Text} (h : matchTemperature t = some (amount, u)) :
    '-' ∉ amount := by
  have hdecimal : ∀ r : Text, '-' ∉ r.takeWhile isDecimal := by
    intro r hm
    have hminus : isDecimal '-' = false := by decide
    simp [List.mem_takeWhile_imp hm] at hminus
  have hpoint : ∀ r : Text, '-' ∉ (point r).1 := by
    intro r
    unfold point
    split <;> simp
  simp only [matchTemperature] at h
  split at h
  · obtain ⟨rfl, -⟩ := Prod.mk.inj (Option.some.inj h)
    simp only [List.mem_append, not_or]
    exact ⟨⟨hdecimal _, hpoint _⟩, hdecimal _⟩
  · cases h

/-- Every argument that was parsed is saved: its text is parsed to what is written as this
text again. -/
theorem saved_entry (htp : ReadsPeriods timeparse) {n : Nat} (hkey : KeyText key) {t : Text}
    {kv : Text × Value} (hcomma : ',' ∉ t) (hspace : PlainSpaces t) (hquote : stripOf '\'' t = t)
    (hnames : t.head? = some '$' ∨
      (∃ field, fields_by_name desc (RAW_PREFIX ++ key) = some field ∧
        field.opts.objtype.isSome = true) ∨ '\'' ∉ t ∧ Tight isSpace t)
    (hnumbers : ∀ x, NumberIn kv.2 x → ∃ q, x = .fin q ∧ q < 10 ^ 15)
    (h : parse_arg_entry timeparse repr n desc key t = .ok kv) :
    ∃ row : Saved timeparse repr line_num desc, row.key = key ∧ row.entry = kv := by
  have hbare := bare_of_plainSpaces hspace hquote
  obtain ⟨heq, field, hfield, hcases⟩ := parse_arg_entry_inv repr n h
  rcases hcases with ⟨name, rfl, rfl⟩ | ⟨hdollar, ⟨hlink, rfl⟩ | ⟨hlink, hraw⟩⟩
  · have heq' : '=' ∉ name := fun hm => heq (List.mem_cons_of_mem '$' hm)
    exact saved_var repr line_num hkey hfield heq' hcomma hbare
  · exact saved_link repr line_num hkey hfield hlink heq hdollar hcomma hbare
  · rcases hraw with ⟨hset, v, rfl, hv⟩ | ⟨hunit, rfl⟩
    · rcases parseQuantity_inv repr n hv with
        ⟨amount, delta, fahrenheit, hunit, hmatch, rfl⟩ | ⟨hunit, td, -, rfl⟩
      · obtain ⟨q, hq, hlt⟩ := hnumbers _ (Or.inr ⟨_, rfl⟩)
        have hamount : py_number.float amount = some (.fin q) := by
          cases hf : py_number.float amount with
          | none => simp [hf] at hq
          | some x =>
            rw [hf] at hq
            exact congrArg some hq
        have hpos := float_nonneg (matchTemperature_unsigned hmatch) hamount
        rw [hq]
        exact saved_temperature repr line_num hkey hfield hlink hunit hlt hpos
      · exact saved_duration repr line_num htp hkey td hfield hlink hunit
    · cases hf : py_number.float t with
      | none =>
        have hno : ¬ ∃ field, fields_by_name desc (RAW_PREFIX ++ key) = some field ∧
            field.opts.objtype.isSome = true := by
          rintro ⟨field', hfield', hlink'⟩
          rw [hfield, Option.some.injEq] at hfield'
          simp [hfield', hlink'] at hlink
        obtain ⟨hq, htight⟩ := (hnames.resolve_left hdollar).resolve_left hno
        exact saved_str repr line_num hkey hfield hlink hunit hf heq hdollar hcomma hq htight
      | some x =>
        obtain ⟨q, rfl, -⟩ := hnumbers x (Or.inl (by rw [hf]; rfl))
        exact saved_float repr line_num hkey hfield hlink hunit

end

/-! ## Saved lines -/

section
variable {timeparse : Text → Option ℚ} (repr : Value → Text) (line_num : Nat)

/-- What a line is parsed to: a comment, or an opcode with its arguments. -/
theorem from_line_inv {line : Text} {d : Dict}
    (h : from_line timeparse repr line line_num = .ok d) :
    ((lstrip line).head? = some '#' ∧
      d = [("COMMENT".toList, .dict [("text".toList, .str (strip line).tail)])]) ∨
    (lstrip line).head? ≠ some '#' ∧ ∃ o parsed, opcodes.find? (·.1.toList = (partition ' ' line).1)
      = some o ∧ parseArgs timeparse repr line_num (messageOf o.2.2)
        (argdictOf (partition ' ' line).2) = .ok parsed ∧ d = [(o.1.toList, .dict parsed)] := by
  unfold from_line at h
  split at h
  · rename_i hhash
    exact Or.inl ⟨hhash, (Except.ok.inj h).symm⟩
  · rename_i hhash
    refine Or.inr ⟨hhash, ?_⟩
    dsimp only at h
    split at h
    · cases h
    · rename_i name number message hfind
      obtain ⟨parsed, hparsed, rfl⟩ := map_eq_ok.mp h
      have hname := List.find?_some hfind
      exact ⟨_, parsed, hfind, hparsed, by rw [← of_decide_eq_true hname]⟩

/-- A comment is written as it stands, without the white space around it. -/
theorem comment_saved {line : Text} (h : (lstrip line).head? = some '#') :
    ∃ text, strip line = '#' :: text := by
  obtain ⟨r, hr⟩ := List.head?_eq_some_iff.mp h
  have hstrip := trim_cons (p := isSpace) (by decide : isSpace '#' = false) r
  rw [← hr] at hstrip
  obtain ⟨text, htext⟩ := hstrip
  refine ⟨text, ?_⟩
  rw [← htext, strip_eq_trim]
  have hidem : lstrip (lstrip line) = lstrip line := List.dropWhile_idempotent isSpace line
  unfold trim
  unfold lstrip at hidem ⊢
  rw [hidem]

variable {desc : Descriptor}

/-- The texts of the saved arguments. -/
def savedTexts (rows : List (Saved timeparse repr line_num desc)) : List Text :=
  rows.map fun row => row.key ++ '=' :: row.text

theorem written_rows (rows : List (Saved timeparse repr line_num desc)) :
    (rows.map (·.entry)).mapM (fun kv => argText timeparse repr kv.1 kv.2) =
      .ok (savedTexts repr line_num rows) := by
  rw [List.mapM_map]
  exact mapM_ok fun row _ => row.written

theorem rewritten_rows (rows : List (Saved timeparse repr line_num desc)) :
    (rows.map (·.again)).mapM (fun kv => argText timeparse repr kv.1 kv.2) =
      .ok (savedTexts repr line_num rows) := by
  rw [List.mapM_map]
  exact mapM_ok fun row _ => row.rewritten

/-- The written arguments are taken apart again. -/
theorem argdictOf_rows {rows : List (Saved timeparse repr line_num desc)}
    (hkeys : (rows.map (·.key)).Nodup) :
    argdictOf (", ".toList.intercalate (savedTexts repr line_num rows)) =
      rows.map fun row => (row.key, stripOf '\'' (strip row.text)) := by
  have hpieces : (((", ".toList.intercalate (savedTexts repr line_num rows)).splitOn ',').filter
      (· ≠ [])).map splitArg = rows.map fun row => (row.key, stripOf '\'' (strip row.text)) := by
    rw [splitTexts, savedTexts, List.map_map]
    · exact List.map_congr_left fun row _ => splitArg_key row.key_ok.2.1 row.key_ok.2.2 row.text
    · intro t ht
      obtain ⟨row, -, rfl⟩ := List.mem_map.mp ht
      refine ⟨by simp, fun hm => ?_⟩
      rcases List.mem_append.mp hm with hm | hm
      · exact row.key_ok.1 hm
      · exact row.text_ok ((List.mem_cons.mp hm).resolve_left (by decide))
  rw [argdictOf, hpieces, dictOf_nodup]
  rw [List.map_map]
  exact hkeys

/-- The written arguments are parsed again, under the same keys. -/
theorem reparsed_rows {rows : List (Saved timeparse repr line_num desc)}
    (hkeys : (rows.map (·.key)).Nodup) (hentries : (rows.map (·.entry.1)).Nodup)
    (hall : ∀ k ∈ base_keys (desc.map (·.name)), k ∈ base_keys (rows.map (·.entry.1))) :
    parseArgs timeparse repr line_num desc
        (argdictOf (", ".toList.intercalate (savedTexts repr line_num rows))) =
      .ok (rows.map (·.again)) := by
  have hsame : (rows.map (·.again)).map (·.1) = rows.map (·.entry.1) := by
    rw [List.map_map]
    exact List.map_congr_left fun row _ => row.same_key
  rw [argdictOf_rows repr line_num hkeys]
  apply parseArgs_ok
  · rw [List.mapM_map]
    exact mapM_ok fun row _ => row.read
  · rw [hsame]
    exact hentries
  · rw [hsame]
    exact hall

omit repr line_num in
/-- What the name and the value of an argument are made of. -/
theorem mem_splitArg {arg : Text} {c : Char} (h : c ∈ (splitArg arg).1 ∨ c ∈ (splitArg arg).2) :
    c ∈ arg := by
  rcases h with h | h
  · exact (List.takeWhile_prefix _).subset (mem_of_mem_trim _ h)
  · have hdrop := List.mem_of_mem_drop (mem_of_mem_trim _ (mem_of_mem_trim _ h))
    exact (List.dropWhile_suffix _).subset hdrop

omit repr line_num in
theorem keyText_splitArg {arg : Text} (h : ',' ∉ arg) : KeyText (splitArg arg).1 := by
  refine ⟨fun hm => h (mem_splitArg (Or.inl hm)), fun hm => ?_, trim_of_tight (trim_tight _ _)⟩
  have hbefore := List.mem_takeWhile_imp (mem_of_mem_trim _ hm)
  simp at hbefore

omit repr line_num in
/-- Without quotes in an argument, its value has no white space at its ends. -/
theorem tight_splitArg {arg : Text} (h : '\'' ∉ arg) :
    '\'' ∉ (splitArg arg).2 ∧ Tight isSpace (splitArg arg).2 := by
  have hno : '\'' ∉ strip (partition '=' arg).2 := fun hm =>
    h ((List.dropWhile_suffix _).subset (List.mem_of_mem_drop (mem_of_mem_trim _ hm)))
  refine ⟨fun hm => h (mem_splitArg (Or.inr hm)), ?_⟩
  have hvalue : (splitArg arg).2 = strip (partition '=' arg).2 := stripOf_eq_self hno
  rw [hvalue]
  exact trim_tight _ _

/-- Each argument of an accepted line is saved. -/
theorem saved_rows (htp : ReadsPeriods timeparse) {o : String × Nat × String} {n : Nat}
    {opcode args : Text} (hfind : opcodes.find? (·.1.toList = opcode) = some o)
    (hspace : PlainSpaces args)
    (hquotes : ∀ arg ∈ args.splitOn ',', '\'' ∈ arg →
      (splitArg arg).2.head? = some '$' ∨ NamesLink opcode (splitArg arg).1)
    {entries : Dict} (hloop : (argdictOf args).mapM (fun kv =>
      parse_arg_entry timeparse repr n (messageOf o.2.2) kv.1 kv.2) = .ok entries)
    (hnumbers : ∀ kv ∈ entries, ∀ x, NumberIn kv.2 x → ∃ q, x = .fin q ∧ q < 10 ^ 15) :
    ∃ rows : List (Saved timeparse repr line_num (messageOf o.2.2)),
      rows.map (·.key) = (argdictOf args).map (·.1) ∧ rows.map (·.entry) = entries := by
  refine rows_of_forall₂ (forall₂_of_mapM hloop) fun kv hkv entry hentry hparse => ?_
  obtain ⟨hcomma, hquote⟩ := mem_argdictOf hkv
  obtain ⟨arg, harg, rfl⟩ := List.mem_map.mp (mem_dictOf hkv)
  have hpiece := mem_splitOn (List.mem_of_mem_filter harg)
  have hsep : ',' ∉ arg := fun hm => (hpiece _ hm).1 rfl
  refine saved_entry repr line_num htp (keyText_splitArg hsep) hcomma
    (fun c hc => hspace c (hpiece c (mem_splitArg (Or.inr hc))).2) hquote ?_
    (hnumbers entry hentry) hparse
  by_cases hin : '\'' ∈ arg
  · rcases hquotes arg (List.mem_of_mem_filter harg) hin with hdollar | ⟨field, hfield, hlink⟩
    · exact Or.inl hdollar
    · refine Or.inr (Or.inl ⟨field, ?_, hlink⟩)
      simpa only [fieldOf, hfind, Option.bind_some] using hfield
  · exact Or.inr (Or.inr (tight_splitArg hin))

/-- The keys of parsed arguments tell their names. -/
theorem entry_keys_nodup {argdict : List (Text × Text)} {entries : Dict}
    (hloop : argdict.mapM (fun kv => parse_arg_entry timeparse repr line_num desc kv.1 kv.2) =
      .ok entries) (hkeys : (argdict.map (·.1)).Nodup) : (entries.map (·.1)).Nodup := by
  have hnames : argdict.map (·.1) = entries.map fun kv => kv.1.drop 7 := by
    apply map_eq_of_forall₂
    refine forall₂_imp_left (forall₂_of_mapM hloop) fun kv _ entry hparse => ?_
    obtain ⟨-, field, -, hcases⟩ := parse_arg_entry_inv repr line_num hparse
    rcases hcases with ⟨name, -, rfl⟩ | ⟨-, ⟨-, rfl⟩ | ⟨-, ⟨-, v, rfl, -⟩ | ⟨-, rfl⟩⟩⟩ <;> rfl
  apply List.Nodup.of_map (List.drop 7)
  rw [List.map_map]
  rw [hnames] at hkeys
  exact hkeys

omit repr line_num in
/-- No argument belongs to the message of a comment, so no line names its opcode. -/
theorem parseArgs_comment (timeparse : Text → Option ℚ) (repr : Value → Text) (line_num : Nat)
    (argdict : List (Text × Text)) (parsed : Dict) :
    parseArgs timeparse repr line_num (messageOf "Comment") argdict ≠ .ok parsed := by
  intro h
  obtain ⟨entries, hloop, rfl, hall⟩ := parseArgs_inv repr line_num h
  have htext : "text".toList ∈ base_keys ((messageOf "Comment").map (·.name)) := by decide
  obtain ⟨key, hkey, -⟩ := List.mem_map.mp (List.mem_dedup.mp (hall _ htext))
  obtain ⟨entry, hentry, -⟩ := List.mem_map.mp hkey
  obtain ⟨kv, -, hparse⟩ := forall₂_right (forall₂_of_mapM hloop) (mem_dictOf hentry)
  obtain ⟨-, field, hfield, -⟩ := parse_arg_entry_inv repr line_num hparse
  cases hfield

/-- A line of saved arguments is accepted, and is written again as it is. -/
theorem rows_saved {o : String × Nat × String} (ho : o ∈ opcodes)
    (hc : o.1.toList ≠ "COMMENT".toList)
    {rows : List (Saved timeparse repr line_num (messageOf o.2.2))}
    (hkeys : (rows.map (·.key)).Nodup) (hentries : (rows.map (·.entry.1)).Nodup)
    (hall : ∀ k ∈ base_keys ((messageOf o.2.2).map (·.name)),
      k ∈ base_keys (rows.map (·.entry.1))) :
    ∃ t, to_line timeparse repr [(o.1.toList, .dict (rows.map (·.entry)))] = .ok t ∧
      ∃ d', from_line timeparse repr t line_num = .ok d' ∧ to_line timeparse repr d' = .ok t := by
  have hparsed := reparsed_rows repr line_num hkeys hentries hall
  have hwritten : to_line timeparse repr [(o.1.toList, .dict (rows.map (·.entry)))] = _ :=
    to_line_dict repr hc _
  have hrewritten : to_line timeparse repr [(o.1.toList, .dict (rows.map (·.again)))] = _ :=
    to_line_dict repr hc _
  rw [written_rows, ok_bind] at hwritten
  rw [rewritten_rows, ok_bind] at hrewritten
  cases rows with
  | nil =>
    refine ⟨o.1.toList, hwritten, [(o.1.toList, .dict [])], ?_, hrewritten⟩
    have hnone : parseArgs timeparse repr line_num (messageOf o.2.2) [] = .ok [] :=
      parseArgs_ok repr line_num rfl List.nodup_nil hall
    rw [from_line_word repr line_num ho, hnone]
    rfl
  | cons row rows =>
    refine ⟨_, hwritten, [(o.1.toList, .dict ((row :: rows).map (·.again)))], ?_, hrewritten⟩
    rw [from_line_args repr line_num ho, hparsed]
    rfl

end

/-- Saving a line twice changes nothing more: the text of what an accepted line is parsed to is
accepted again, on any line, and it is written again as it is. -/
theorem saved_twice (timeparse : Text → Option ℚ) (htp : ReadsPeriods timeparse)
    (repr : Value → Text) (n : Nat) (line : Text) (d : Dict)
    (h : from_line timeparse repr line n = .ok d) (hspace : PlainSpaces line)
    (hquotes : QuotedNames line) (hnumbers : NumbersBelow d) :
    ∃ t, to_line timeparse repr d = .ok t ∧ ∀ m, ∃ d', from_line timeparse repr t m = .ok d' ∧
      to_line timeparse repr d' = .ok t := by
  rcases from_line_inv repr n h with ⟨hhash, rfl⟩ | ⟨hhash, o, parsed, hfind, hparsed, rfl⟩
  · obtain ⟨text, htext⟩ := comment_saved hhash
    refine ⟨'#' :: text, ?_, fun m => ⟨[("COMMENT".toList, .dict [("text".toList, .str text)])],
      ?_, rfl⟩⟩
    · rw [htext]
      rfl
    · have htight : strip ('#' :: text) = '#' :: text := by
        rw [← htext]
        exact trim_of_tight (trim_tight _ _)
      have hblank : isSpace '#' = false := by decide
      rw [from_line, if_pos (by simp [lstrip, hblank]), htight]
      rfl
  · have ho : o ∈ opcodes := List.mem_of_find?_eq_some hfind
    have hc : o.1.toList ≠ "COMMENT".toList := by
      intro hcomment
      have hmessage : ∀ o ∈ opcodes, o.1.toList = "COMMENT".toList → o.2.2 = "Comment" := by
        decide +kernel
      rw [hmessage o ho hcomment] at hparsed
      exact parseArgs_comment timeparse repr n _ _ hparsed
    obtain ⟨entries, hloop, rfl, hall⟩ := parseArgs_inv repr n hparsed
    have hkeys := dictOf_keys_nodup
      ((((partition ' ' line).2.splitOn ',').filter (· ≠ [])).map splitArg)
    have hentries := entry_keys_nodup repr n hloop hkeys
    rw [dictOf_nodup hentries] at hall hnumbers ⊢
    have hargs : PlainSpaces (partition ' ' line).2 := fun c hc =>
      hspace c ((List.dropWhile_suffix _).subset (List.mem_of_mem_drop hc))
    have hbelow := hnumbers _ List.mem_cons_self entries rfl
    have hsaved : ∀ m, ∃ t, to_line timeparse repr [(o.1.toList, .dict entries)] = .ok t ∧
        ∃ d', from_line timeparse repr t m = .ok d' ∧ to_line timeparse repr d' = .ok t := by
      intro m
      obtain ⟨rows, hnames, rfl⟩ := saved_rows repr m htp hfind hargs
        (hquotes.resolve_left hhash) hloop hbelow
      rw [List.map_map] at hentries hall
      exact rows_saved repr m ho hc (hnames ▸ hkeys) hentries hall
    obtain ⟨t, ht, -⟩ := hsaved n
    refine ⟨t, ht, fun m => ?_⟩
    obtain ⟨t', ht', hagain⟩ := hsaved m
    rw [ht, Except.ok.injEq] at ht'
    rw [ht']
    exact hagain

/-- A line as a user may write it: `to_line` moves the spaces and the unit. -/
def looseLine : Text := "SET_SETPOINT setting = 20 C,target='My kettle'".toList

def looseDict : Dict :=
  [("SET_SETPOINT".toList, .dict
    [("__raw__setting".toList, quantity (.float (.fin 20)) "degC".toList),
      ("__raw__target".toList, link "My kettle".toList)])]

theorem looseLine_read : from_line readPeriods (fun _ => []) looseLine 1 = .ok looseDict := by
  with_unfolding_all rfl

theorem looseLine_quotes : QuotedNames looseLine := by
  have hsplit : (partition ' ' looseLine).2.splitOn ',' =
      ["setting = 20 C".toList, "target='My kettle'".toList] := by decide +kernel
  right
  intro arg harg hquote
  rw [hsplit] at harg
  rcases List.mem_cons.mp harg with rfl | harg
  · exact absurd hquote (by decide)
  · rw [List.mem_singleton.mp harg]
    exact Or.inr ⟨_, rfl, rfl⟩

theorem looseDict_numbers : NumbersBelow looseDict := by
  intro p hp kvs hkvs kv hkv x hx
  rw [List.mem_singleton.mp hp] at hkvs
  cases hkvs
  rcases List.mem_cons.mp hkv with rfl | hkv
  · rcases hx with hx | ⟨unit, hx⟩
    · cases hx
    · simp only [quantity, Value.dict.injEq, List.cons.injEq, Prod.mk.injEq, Value.float.injEq,
        true_and, and_true] at hx
      exact ⟨20, hx.1.symm, by norm_num⟩
  · rw [List.mem_singleton.mp hkv] at hx
    rcases hx with hx | ⟨unit, hx⟩
    · cases hx
    · simp [link, quantity] at hx

theorem looseLine_saved : ∃ t, to_line readPeriods (fun _ => []) looseDict = .ok t ∧
    ∀ m, ∃ d', from_line readPeriods (fun _ => []) t m = .ok d' ∧
      to_line readPeriods (fun _ => []) d' = .ok t :=
  saved_twice readPeriods readPeriods_reads (fun _ => []) 1 looseLine looseDict looseLine_read
    (by unfold PlainSpaces; decide) looseLine_quotes looseDict_numbers

end devcon_spark.codec.sequence
