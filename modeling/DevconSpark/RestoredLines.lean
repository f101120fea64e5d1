-- The lines of a Sequence that is restored: which of them are parsed to
-- instructions that `pre_encode` accepts.
import DevconSpark.LineErrors
import DevconSpark.NotationLaws
import DevconSpark.ReturnLaws
import DevconSpark.SavingLaws

open bidict py_text py_dict py_number py_value devcon_spark.exceptions devcon_spark.models
open devcon_spark.codec.descriptor devcon_spark.codec.time_utils devcon_spark.codec.bloxfield
open devcon_spark.codec.unit_conversion devcon_spark.codec.processor devcon_spark.codec.content
open devcon_spark.spark_api

namespace devcon_spark.codec.sequence

/-! ## Which lines -/

/-- What stands for a text that is no variable, no link, and no quantity. -/
def plainValue (t : Text) : Value := ((float t).map Value.float).getD (.str t)

/-- The text of an argument that its field takes: a variable, a link to a block that is found, a
quantity in the unit of the field, or a date or a number where the field is one. -/
inductive TextTaken (env : Packages) (timeparse : Text → Option ℚ) (store : BlockStore)
    (options : FieldOpts) (t : Text) : Prop
  | dollar (h : t.head? = some '$')
  | link (hlink : options.objtype.isSome = true) (hfound : Found store t)
  | temperature {amount : Text} {delta fahrenheit : Bool} (hlink : options.objtype.isSome = false)
    (hunit : options.unit = if delta then .DeltaCelsius else .Celsius)
    (hmatch : matchTemperature (strip t) = some (amount, Content.lettersOf delta fahrenheit))
  | duration (hlink : options.objtype.isSome = false) (hunit : options.unit = .Second)
    (hread : ¬ Unreadable timeparse (strip t))
  | plain (hlink : options.objtype.isSome = false) (hunit : options.unit = .NotSet)
    (hdate : options.datetime = true → ∃ date, serialize_datetime env.ciso8601 env.localOffset
      env.repr (plainValue t) .SECONDS = .ok date)
    (hscale : options.scale ≠ 0 → ∃ q, float t = some (.fin q))

/-- The arguments of a line: all of those that its message has, each with a text that its field
takes. -/
structure ArgsTaken (env : Packages) (timeparse : Text → Option ℚ) (store : BlockStore)
    (desc : Descriptor) (argdict : List (Text × Text)) : Prop where
  taken : ∀ kv ∈ argdict, '=' ∉ kv.2 ∧ ∃ field,
    fields_by_name desc (RAW_PREFIX ++ kv.1) = some field ∧
      TextTaken env timeparse store field.opts kv.2
  complete : ∀ k ∈ base_keys (desc.map (·.name)), k ∈ argdict.map (·.1)

/-- A comment, or an opcode with its arguments. -/
def LineTaken (env : Packages) (timeparse : Text → Option ℚ) (store : BlockStore) (line : Value) :
    Prop :=
  ∃ t, line = .str t ∧ ((lstrip t).head? = some '#' ∨ ∃ o,
    opcodes.find? (·.1.toList = (partition ' ' t).1) = some o ∧
      ArgsTaken env timeparse store (messageOf o.2.2) (argdictOf (partition ' ' t).2))

/-- The messages of a Sequence, as they are compiled. -/
structure SequenceMessages (pool : Pool) (message : Text) : Prop where
  instructions : ∃ field, fields_by_name (pool.messages message) "instructions".toList =
    some field ∧ field.message_type = some "Instruction".toList ∧ field.label_repeated = true
  instruction : pool.messages "Instruction".toList = INSTRUCTION_MSG_DESC
  arguments : ∀ o ∈ opcodes, pool.messages o.2.2.toList = messageOf o.2.2

/-- What lines rely on in Pint: temperatures are converted to those of the controller. -/
def ConvertsTemperatures
    (quantity : (amount unit : Value) → (target : Text) → Except Exn Value) : Prop :=
  ∀ q delta fahrenheit, ∃ w r, quantity (.float (.fin q)) (.str (unitOf delta fahrenheit))
    (unitOf delta false) = .ok w ∧ number? w = some (.fin r)

/-! ## The fields of arguments -/

/-- The fields that hold arguments: a link, a number in a unit or a scale, a date, and others. -/
def ArgumentField (f : FieldDescriptor) : Prop :=
  (f.opts.objtype.isSome = true ∧ { f.opts with objtype := none } = { stored := true }) ∨
  (isIntType f.type = true ∧ (f.opts.unit = .NotSet → f.opts.scale ≠ 0) ∧
    f.opts.unit ∈ [UnitType.NotSet, .Celsius, .DeltaCelsius, .Second] ∧
      f.opts = { unit := f.opts.unit, scale := f.opts.scale, stored := true }) ∨
  (isIntType f.type = true ∧ f.opts = { datetime := true, stored := true }) ∨
  (isIntType f.type = false ∧ f.opts = { stored := true })

instance (f : FieldDescriptor) : Decidable (ArgumentField f) :=
  inferInstanceAs (Decidable (_ ∨ _ ∨ _ ∨ _))

instance (name : Text) : Decidable (processor.Plain name) :=
  inferInstanceAs (Decidable (_ ∧ _))

theorem argument_fields : ∀ o ∈ opcodes, ∀ f ∈ messageOf o.2.2, ArgumentField f ∧
    f.message_type = none ∧ f.opts.ignored = false ∧ f.opts.readonly = false ∧
      processor.Plain f.name ∧ f.name ≠ "__bloxtype".toList := by
  decide +kernel

/-! ## The values of arguments -/

theorem roundInt_iff {w : Value} : (∃ i, roundInt w = .ok i) ↔ ∃ q, number? w = some (.fin q) := by
  unfold roundInt
  rcases number? w with _ | q | _ | _ | _ <;> simp

/-- A value in its scale is rounded where it is a number. -/
theorem scaled_returns_iff {scale : Nat} {w : Value} :
    (∃ y, (applyIf (scale ≠ 0) (timesInt · scale) w >>= fun y => (roundInt y).map Value.int) =
      .ok y) ↔ ∃ q, number? w = some (.fin q) := by
  constructor
  · rintro ⟨y, h⟩
    obtain ⟨x, hx, hy⟩ := bind_eq_ok.mp h
    obtain ⟨i, hround, -⟩ := map_eq_ok.mp hy
    obtain ⟨q, hq⟩ := roundInt_iff.mp ⟨i, hround⟩
    by_cases hscale : scale = 0
    · rw [applyIf_neg (not_not.mpr hscale)] at hx
      cases hx
      exact ⟨q, hq⟩
    · rw [applyIf_pos hscale] at hx
      cases w with
      | none | dict => cases hx
      | str | list =>
        cases hx
        cases hq
      | bool | int => exact ⟨_, rfl⟩
      | float x =>
        cases hx
        cases x with
        | fin r => exact ⟨r, rfl⟩
        | nan | inf | neginf => cases hq
  · rintro ⟨q, hq⟩
    by_cases hscale : scale = 0
    · obtain ⟨i, hi⟩ := roundInt_iff.mpr ⟨q, hq⟩
      exact ⟨.int i, by rw [applyIf_neg (not_not.mpr hscale), ok_bind, hi]; rfl⟩
    · obtain ⟨y, hy, hnumber⟩ := timesInt_number hq scale
      obtain ⟨i, hi⟩ := roundInt_iff.mpr ⟨_, hnumber⟩
      exact ⟨.int i, by rw [applyIf_pos hscale, hy, ok_bind, hi]; rfl⟩

section
variable {env : Packages} {cv : UnitConverter} {element : OptionElement}

theorem encode_scaled {unit : UnitType} {scale : Nat} {stored : Bool}
    (hopts : element.field.opts = { unit, scale, stored })
    (hint : isIntType element.field.type = true) (v : Value) : encode_value env cv element v =
      applyIf (unit ≠ .NotSet)
        (_encode_unit env cv · unit.Name (.str element.postfixed)) v >>= fun w =>
          applyIf (scale ≠ 0) (timesInt · scale) w >>= fun y => (roundInt y).map Value.int := by
  unfold encode_value
  simp only [hopts, hint, Option.isSome_none, applyIf_false, applyIf_true]
  rcases applyIf (unit ≠ .NotSet) _ v with e | w
  · rfl
  · rw [ok_bind, ok_bind, ok_bind]
    cases applyIf (scale ≠ 0) (timesInt · scale) w <;> rfl

/-- A date is encoded where it is read. -/
theorem encode_date {stored : Bool} (hopts : element.field.opts = { datetime := true, stored })
    (hint : isIntType element.field.type = true) {v : Value} :
    (∃ y, encode_value env cv element v = .ok y) ↔
      ∃ date, serialize_datetime env.ciso8601 env.localOffset env.repr v .SECONDS = .ok date := by
  have hencode : encode_value env cv element v =
      serialize_datetime env.ciso8601 env.localOffset env.repr v .SECONDS >>= fun date =>
        (roundInt date).map Value.int := by
    unfold encode_value
    simp only [hopts, hint, Option.isSome_none, applyIf_false, applyIf_true]
    rfl
  rw [hencode]
  constructor
  · rintro ⟨y, h⟩
    obtain ⟨date, hdate, -⟩ := bind_eq_ok.mp h
    exact ⟨date, hdate⟩
  · rintro ⟨date, hdate⟩
    have hnumber : ∃ i, date = .int i := by
      unfold serialize_datetime at hdate
      obtain ⟨dt, -, h⟩ := bind_eq_ok.mp hdate
      cases dt <;> cases h <;> exact ⟨_, rfl⟩
    obtain ⟨i, rfl⟩ := hnumber
    obtain ⟨j, hj⟩ := (roundInt_iff (w := .int i)).mpr ⟨i, rfl⟩
    exact ⟨.int j, by rw [hdate, ok_bind, hj]; rfl⟩

/-- A quantity of a line is converted from its own unit. -/
theorem encode_unit_line {v : Value} {unit : Text} {id : String} {m : UnitMapping}
    (hunit : unit ≠ []) (hmapping : cv.mapping id = .ok m) (postfixed : Value) :
    _encode_unit env cv (quantity v unit) id postfixed =
      env.quantity v (.str unit) m.system_value := by
  have htruthy : truthy (.str unit) = true := by simpa [truthy] using hunit
  show to_sys_value env.quantity cv v id (.str unit) = _
  unfold to_sys_value
  rw [hmapping, ok_bind, if_pos htruthy]

theorem temperature_mapping (user_temp : Text) (delta : Bool) : ∃ m, (converter user_temp).mapping
    (if delta then UnitType.DeltaCelsius else .Celsius).Name = .ok m ∧
      m.system_value = unitOf delta false := by
  cases delta <;> exact ⟨_, rfl, rfl⟩

theorem second_mapping {user_temp : Text} (h : user_temp ∈ temperatures) :
    ∃ m ∈ derived_table user_temp, (converter user_temp).mapping UnitType.Second.Name = .ok m ∧
      m.system_value = "second".toList ∧ m.user_value = "second".toList := by
  rcases List.mem_pair.mp h with rfl | rfl <;>
    exact ⟨{ key := "Second", system_value := "second".toList, user_value := "second".toList },
      by decide +kernel, rfl, rfl, rfl⟩

theorem encode_other {stored : Bool} (hopts : element.field.opts = { stored })
    (hint : isIntType element.field.type = false) (v : Value) :
    encode_value env cv element v = .ok v := by
  unfold encode_value
  simp only [hopts, hint, Option.isSome_none, applyIf_false]
  rfl

end

/-! ## One argument -/

/-- A field of the message of an opcode, in a pool with these messages. -/
structure ArgumentOf (pool : Pool) (message : String) (field : FieldDescriptor) : Prop where
  pooled : fields_by_name (pool.messages message.toList) field.name = some field
  kind : ArgumentField field
  leaf : field.message_type = none
  ignored : field.opts.ignored = false
  readonly : field.opts.readonly = false
  named : processor.Plain field.name

theorem argument_of_found {pool : Pool} {message : Text} (hpool : SequenceMessages pool message)
    {o : String × Nat × String} (ho : o ∈ opcodes) {key : Text} {field : FieldDescriptor}
    (h : fields_by_name (messageOf o.2.2) key = some field) : ArgumentOf pool o.2.2 field := by
  obtain ⟨hkind, hleaf, hignored, hreadonly, hnamed, -⟩ :=
    argument_fields o ho field (List.mem_of_find?_eq_some h)
  have hfound : fields_by_name (messageOf o.2.2) field.name = some field := by
    rw [fields_by_name_name h, h]
  exact ⟨by rw [hpool.arguments o ho, hfound], hkind, hleaf, hignored, hreadonly, hnamed⟩

/-- Each raw field has a field for a variable. -/
theorem variable_fields : ∀ o ∈ opcodes, ∀ f ∈ messageOf o.2.2,
    RAW_PREFIX.isPrefixOf f.name = true →
      (fields_by_name (messageOf o.2.2) (VAR_PREFIX ++ f.name.drop 7)).any (fun g =>
        ! isIntType g.type && decide (g.opts = { stored := true })) = true := by
  decide +kernel

theorem resolve_quantity (replacer : Value → Except Exn Value) {v : Value} (hv : Flat v)
    (unit : Text) : resolveEntry replacer false (quantity v unit) = .ok (quantity v unit) := by
  cases v with
  | list vs => exact absurd hv id
  | dict kvs => exact absurd hv id
  | none | bool | int | float | str => rfl

section
variable {e : Encoder} {message : String} {field : FieldDescriptor}
variable (hfield : ArgumentOf e.pool message field)

include hfield

theorem argument_stripped (filter_values : Bool) : stripped filter_values field.opts = false := by
  unfold stripped
  rw [hfield.ignored, hfield.readonly, Bool.and_false]
  rfl

/-- An argument goes through where its value is encoded. -/
theorem argument_runs_iff (above : Address) {v w : Value}
    (hw : resolveEntry (_find_nid e.block_store) false v = .ok w) (hlist : ∀ vs, w ≠ .list vs)
    (hnone : isNone w = false) {p : Prop}
    (h : ∀ element : OptionElement, element.field = field →
      ((∃ y, encode_value e.env e.cv element w = .ok y) ↔ p)) :
    (∃ out, e.runEntry message.toList above (field.name, v) = .ok out) ↔ p := by
  rw [← h { field, key := field.name, base_key := field.name, postfixed := []
            address := elementAddress field (above ++ [some field.number]) w } rfl]
  have hvisit := visitEntry_eq e.pool e.visit above (splitKey_name hfield.named) hfield.pooled
    (walkValue_leaf hfield.leaf _ w)
  unfold Encoder.visit at hvisit
  rw [encodeElement_scalar (argument_stripped hfield _) hlist hnone] at hvisit
  constructor
  · rintro ⟨out, hout⟩
    obtain ⟨w', hw', hout⟩ := runEntry_eq_ok.mp hout
    rw [plain_not_marked hfield.named, hw] at hw'
    cases hw'
    unfold Encoder.visit at hout
    rw [hvisit] at hout
    obtain ⟨y, hy, -⟩ := map_eq_ok.mp hout
    exact ⟨y, hy⟩
  · rintro ⟨y, hy⟩
    rw [hy] at hvisit
    exact ⟨_, runEntry_eq_ok.mpr ⟨w, by rw [plain_not_marked hfield.named, hw], hvisit⟩⟩

theorem link_field (hlink : field.opts.objtype.isSome = true) :
    LinkField e.pool message.toList field := by
  have hopts : { field.opts with objtype := none } = ({ stored := true } : FieldOpts) := by
    rcases hfield.kind with ⟨-, hopts⟩ | ⟨-, -, -, hopts⟩ | ⟨-, hopts⟩ | ⟨-, hopts⟩
    · exact hopts
    all_goals
      rw [hopts] at hlink
      cases hlink
  have hall : ∀ {options : FieldOpts}, options.objtype.isSome = true →
      { options with objtype := none } = ({ stored := true } : FieldOpts) → OnlyLink options := by
    intro options hlink hopts
    obtain ⟨unit, scale, objtype, hexed, readonly, logged, stored, hexstr, ignored, datetime,
      ipv4address, omit_if_zero, null_if_zero⟩ := options
    cases hopts
    exact ⟨hlink, rfl, rfl, rfl, rfl, rfl, rfl⟩
  exact ⟨hfield.pooled, hfield.named, hfield.leaf, hall hlink hopts⟩

/-- A link goes through where its block is found. -/
theorem link_runs_iff (hlink : field.opts.objtype.isSome = true)
    (hnumbers : ∀ name, e.block_store.get? name ≠ some none) (above : Address) {t : Text} :
    (∃ out, e.runEntry message.toList above (field.name, link t) = .ok out) ↔
      Found e.block_store t := by
  have hmarked := plain_not_marked hfield.named
  rw [← find_nid_iff]
  constructor
  · rintro ⟨out, hout⟩
    obtain ⟨w, hw, -⟩ := runEntry_eq_ok.mp hout
    rw [hmarked] at hw
    obtain ⟨_, ⟨⟩, hw⟩ := bind_eq_ok.mp hw
    obtain ⟨id, hid, -⟩ := bind_eq_ok.mp hw
    exact ⟨id, hid⟩
  · rintro ⟨id, hid⟩
    let names : Naming := ⟨fun _ => [], e.block_store, e.block_store, hnumbers⟩
    obtain ⟨n, rfl, -⟩ := @nid_of_sid names _ _ hid (Or.inr ⟨t, rfl⟩)
    refine ⟨_, link_entry (link_field hfield hlink) above (splitKey_name hfield.named)
      (w := .dict [("__bloxtype".toList, .str "Link".toList), ("id".toList, .int n)]) ?_ rfl
        (fun vs h => nomatch h)⟩
    rw [hmarked]
    exact bind_eq_ok.mpr ⟨_, rfl, bind_eq_ok.mpr ⟨_, hid, rfl⟩⟩

theorem unit_options (hunit : field.opts.unit ≠ .NotSet) : isIntType field.type = true ∧
    field.opts = { unit := field.opts.unit, scale := field.opts.scale, stored := true } := by
  rcases hfield.kind with ⟨-, hopts⟩ | ⟨hint, -, -, hopts⟩ | ⟨-, hopts⟩ | ⟨-, hopts⟩
  · exact absurd (congrArg FieldOpts.unit hopts) hunit
  · exact ⟨hint, hopts⟩
  · exact absurd (congrArg FieldOpts.unit hopts) hunit
  · exact absurd (congrArg FieldOpts.unit hopts) hunit

/-- A quantity goes through where Pint converts it. -/
theorem quantity_runs (hunit : field.opts.unit ≠ .NotSet) {v w : Value} {unit : Text}
    {m : UnitMapping} (hflat : Flat v) (hname : unit ≠ [])
    (hmapping : e.cv.mapping field.opts.unit.Name = .ok m) {q : ℚ}
    (hconvert : e.env.quantity v (.str unit) m.system_value = .ok w)
    (hnumber : number? w = some (.fin q)) (above : Address) :
    ∃ out, e.runEntry message.toList above (field.name, quantity v unit) = .ok out := by
  obtain ⟨hint, hopts⟩ := unit_options hfield hunit
  refine (argument_runs_iff hfield above (resolve_quantity _ hflat unit) (fun vs h => nomatch h)
    rfl (p := True) fun element helement => iff_of_true ?_ trivial).mpr trivial
  rw [← helement] at hint hopts hunit hmapping
  obtain ⟨y, hy⟩ := (@scaled_returns_iff element.field.opts.scale w).mpr ⟨q, hnumber⟩
  refine ⟨y, ?_⟩
  rw [encode_scaled hopts hint, applyIf_pos hunit, encode_unit_line hname hmapping, hconvert,
    ok_bind, hy]

theorem temperature_runs {user_temp : Text} (hcv : e.cv = converter user_temp)
    (hconverts : ConvertsTemperatures e.env.quantity) {delta : Bool}
    (hunit : field.opts.unit = if delta then .DeltaCelsius else .Celsius) (q : ℚ)
    (fahrenheit : Bool) (above : Address) : ∃ out, e.runEntry message.toList above
      (field.name, quantity (.float (.fin q)) (unitOf delta fahrenheit)) = .ok out := by
  obtain ⟨m, hmapping, hsystem⟩ := temperature_mapping user_temp delta
  obtain ⟨w, r, hw, hnumber⟩ := hconverts q delta fahrenheit
  rw [← hunit, ← hcv] at hmapping
  rw [← hsystem] at hw
  refine quantity_runs hfield (v := .float (.fin q)) ?_ trivial ?_ hmapping hw hnumber above
  · rw [hunit]
    cases delta <;> decide
  · cases delta <;> cases fahrenheit <;> decide

theorem duration_runs {user_temp : Text} (hcv : e.cv = converter user_temp)
    (hexact : Exact e.env user_temp) (hunit : field.opts.unit = .Second) (n : Int)
    (above : Address) : ∃ out, e.runEntry message.toList above
      (field.name, quantity (.int n) "second".toList) = .ok out := by
  obtain ⟨m, hmem, hmapping, hsystem, huser⟩ := second_mapping hexact.temp
  obtain ⟨w, r, hw, hnumber, -⟩ := hexact.units.there_and_back m hmem (.int n) n rfl (by simp)
  rw [huser, ← hsystem] at hw
  rw [← hunit, ← hcv] at hmapping
  rw [← hsystem]
  refine quantity_runs hfield (v := .int n) ?_ trivial ?_ hmapping hw hnumber above
  · rw [hunit]
    decide
  · rw [hsystem]
    decide

omit hfield in
theorem plainValue_number (t : Text) : number? (plainValue t) = float t := by
  unfold plainValue
  cases float t <;> rfl

/-- A value that is no link and no quantity goes through where its field takes it. -/
theorem plain_runs_iff (hlink : field.opts.objtype.isSome = false)
    (hunit : field.opts.unit = .NotSet) (above : Address) (t : Text) :
    (∃ out, e.runEntry message.toList above (field.name, plainValue t) = .ok out) ↔
      (field.opts.datetime = true → ∃ date, serialize_datetime e.env.ciso8601 e.env.localOffset
        e.env.repr (plainValue t) .SECONDS = .ok date) ∧
      (field.opts.scale ≠ 0 → ∃ q, float t = some (.fin q)) := by
  have hshape : Flat (plainValue t) ∧ isNone (plainValue t) = false := by
    unfold plainValue
    cases float t <;> exact ⟨trivial, rfl⟩
  have hresolve : resolveEntry (_find_nid e.block_store) false (plainValue t) =
      .ok (plainValue t) := by
    unfold plainValue
    cases float t <;> rfl
  have hlist : ∀ vs, plainValue t ≠ .list vs := fun vs h => by rw [h] at hshape; exact hshape.1
  refine argument_runs_iff hfield above hresolve hlist hshape.2 fun element helement => ?_
  rw [← helement] at hlink hunit ⊢
  have hkind : ArgumentField element.field := helement ▸ hfield.kind
  rcases hkind with ⟨hsome, -⟩ | ⟨hint, hscale, -, hopts⟩ | ⟨hint, hopts⟩ | ⟨hint, hopts⟩
  · rw [hlink] at hsome
    cases hsome
  · rw [encode_scaled hopts hint, applyIf_neg (not_not.mpr hunit), ok_bind, scaled_returns_iff,
      plainValue_number]
    have hdate : element.field.opts.datetime = false := by rw [hopts]
    simp [hdate, hscale hunit]
  · rw [encode_date hopts hint, hopts]
    simp
  · rw [encode_other hopts hint, hopts]
    simp

end

/-- An encoder with the compiled messages of a Sequence, and with what lines rely on. -/
structure EncodesLines (e : Encoder) (user_temp message : Text) : Prop where
  messages : SequenceMessages e.pool message
  units : e.cv = converter user_temp
  exact : Exact e.env user_temp
  temperatures : ConvertsTemperatures e.env.quantity
  numbers : ∀ name, e.block_store.get? name ≠ some none

section
variable {e : Encoder} {user_temp message : Text} (he : EncodesLines e user_temp message)
variable {timeparse : Text → Option ℚ} (repr : Value → Text) (line_num : Nat)
variable {o : String × Nat × String} (ho : o ∈ opcodes)

include he ho

theorem dollar_runs {key name : Text} {field : FieldDescriptor}
    (hfield : fields_by_name (messageOf o.2.2) (RAW_PREFIX ++ key) = some field)
    (above : Address) :
    ∃ out, e.runEntry o.2.2.toList above (VAR_PREFIX ++ key, .str name) = .ok out := by
  have hname := fields_by_name_name hfield
  have hvariable := variable_fields o ho field (List.mem_of_find?_eq_some hfield)
    (by rw [hname, List.isPrefixOf_iff_prefix]; exact List.prefix_append _ _)
  have hdrop : field.name.drop 7 = key := by
    rw [hname]
    rfl
  rw [hdrop] at hvariable
  obtain ⟨g, hg, hopts⟩ := (Option.any_eq_true _ _).mp hvariable
  simp only [Bool.and_eq_true, Bool.not_eq_true', decide_eq_true_eq] at hopts
  have hvar := argument_of_found he.messages ho hg
  rw [← fields_by_name_name hg]
  refine (argument_runs_iff hvar above (v := .str name) rfl (fun vs h => nomatch h) rfl (p := True)
    fun element helement => iff_of_true ⟨.str name, ?_⟩ trivial).mpr trivial
  subst helement
  exact encode_other hopts.2 hopts.1 _

/-- The text of an argument is parsed, and its value goes through, exactly where the field takes
it. -/
theorem argument_taken_iff (above : Address) {key t : Text} :
    (∃ kv out, parse_arg_entry timeparse repr line_num (messageOf o.2.2) key t = .ok kv ∧
      e.runEntry o.2.2.toList above kv = .ok out) ↔
    '=' ∉ t ∧ ∃ field, fields_by_name (messageOf o.2.2) (RAW_PREFIX ++ key) = some field ∧
      TextTaken e.env timeparse e.block_store field.opts t := by
  constructor
  · rintro ⟨kv, out, hparse, hrun⟩
    obtain ⟨heq, field, hfield, hcases⟩ := parse_arg_entry_inv repr line_num hparse
    have hname := fields_by_name_name hfield
    have hof := argument_of_found he.messages ho hfield
    refine ⟨heq, field, hfield, ?_⟩
    rcases hcases with ⟨name, rfl, -⟩ | ⟨-, ⟨hlink, rfl⟩ | ⟨hlink, ⟨hunit, v, rfl, hv⟩ |
      ⟨hunit, rfl⟩⟩⟩
    · exact .dollar rfl
    · rw [← hname] at hrun
      exact .link hlink ((link_runs_iff hof hlink he.numbers above).mp ⟨out, hrun⟩)
    · rcases parseQuantity_inv repr line_num hv with
        ⟨amount, delta, fahrenheit, hset, hmatch, -⟩ | ⟨hset, td, htd, -⟩
      · exact .temperature hlink hset hmatch
      · refine .duration hlink hset fun hbad => ?_
        rcases @parse_duration_text timeparse repr (strip t) with ⟨hnot, -⟩ | ⟨-, ex, hex, -⟩
        · exact hnot hbad
        · cases htd.symm.trans hex
    · rw [← hname] at hrun
      obtain ⟨hdate, hscale⟩ := (plain_runs_iff hof hlink hunit above t).mp ⟨out, hrun⟩
      exact .plain hlink hunit hdate hscale
  · rintro ⟨heq, field, hfield, htaken⟩
    have hname := fields_by_name_name hfield
    have hof := argument_of_found he.messages ho hfield
    by_cases hdollar : t.head? = some '$'
    · obtain ⟨name, rfl⟩ := List.head?_eq_some_iff.mp hdollar
      obtain ⟨out, hout⟩ : ∃ out, e.runEntry o.2.2.toList above (VAR_PREFIX ++ key, .str name) =
        .ok out := dollar_runs he ho hfield above
      exact ⟨_, out, parse_dollar repr line_num hfield (fun hm => heq (List.mem_cons_of_mem _ hm)),
        hout⟩
    have hvalue := @parse_value timeparse repr line_num _ _ _ _ hfield heq hdollar
    rw [← hname] at hvalue
    cases htaken with
    | dollar h => exact absurd h hdollar
    | link hlink hfound =>
      obtain ⟨out, hout⟩ := (link_runs_iff hof hlink he.numbers above).mpr hfound
      exact ⟨_, out, hvalue.trans (if_pos hlink), hout⟩
    | @temperature amount delta fahrenheit hlink hunit hmatch =>
      obtain ⟨q, hq⟩ := matchTemperature_float hmatch
      obtain ⟨hquantity, -⟩ := @parseQuantity_letters timeparse repr line_num key _ _ _ _ hmatch
      rw [hq, Option.getD_some, ← hunit] at hquantity
      have hset : field.opts.unit ≠ .NotSet := by
        rw [hunit]
        cases delta <;> decide
      rw [if_neg (by simp [hlink]), if_pos hset, hquantity] at hvalue
      obtain ⟨out, hout⟩ := temperature_runs hof he.units he.temperatures hunit q fahrenheit above
      exact ⟨_, out, hvalue, hout⟩
    | duration hlink hunit hread =>
      have hparsed : ∃ td, parse_duration timeparse repr (.value (.str (strip t))) = .ok td := by
        rcases @parse_duration_text timeparse repr (strip t) with ⟨-, hok⟩ | ⟨hbad, -⟩
        · exact hok
        · exact absurd hbad hread
      obtain ⟨td, htd⟩ := hparsed
      have hquantity : parseQuantity timeparse repr line_num key (strip t) field.opts.unit =
          .ok (quantity (.int (total_seconds td)) "second".toList) := by
        rw [hunit, parseQuantity, htd]
        rfl
      rw [if_neg (by simp [hlink]), if_pos (by simp [hunit]), hquantity] at hvalue
      obtain ⟨out, hout⟩ := duration_runs hof he.units he.exact hunit (total_seconds td) above
      exact ⟨_, out, hvalue, hout⟩
    | plain hlink hunit hdate hscale =>
      rw [if_neg (by simp [hlink]), if_neg (not_not.mpr hunit)] at hvalue
      obtain ⟨out, hout⟩ := (plain_runs_iff hof hlink hunit above t).mpr ⟨hdate, hscale⟩
      exact ⟨_, out, hvalue, hout⟩

omit he in
/-- The keys of parsed arguments are the names of fields. -/
theorem parsed_bases {argdict : List (Text × Text)} {entries : Dict}
    (hloop : argdict.mapM (fun kv =>
      parse_arg_entry timeparse repr line_num (messageOf o.2.2) kv.1 kv.2) = .ok entries)
    (hkeys : (entries.map (·.1)).Nodup) : (entries.map fun kv => baseOf kv.1).Nodup := by
  have hsame : (entries.map fun kv => baseOf kv.1) = entries.map (·.1) := by
    refine List.map_congr_left fun kv hkv => ?_
    obtain ⟨arg, -, hparse⟩ := forall₂_right (forall₂_of_mapM hloop) hkv
    obtain ⟨field, hfield, hname⟩ :=
      List.mem_map.mp (parse_arg_entry_key repr line_num ho hparse).2
    have hplain := (argument_fields o ho field hfield).2.2.2.2.1
    rw [← hname]
    exact (splitKey_base (splitKey_name hplain)).symm
  rwa [hsame]

/-- The arguments of a line are parsed, and go through, exactly where they are taken. -/
theorem args_taken_iff (above : Address) {argdict : List (Text × Text)}
    (hkeys : (argdict.map (·.1)).Nodup) :
    (∃ parsed obj, parseArgs timeparse repr line_num (messageOf o.2.2) argdict = .ok parsed ∧
      e.run o.2.2.toList above parsed = .ok obj) ↔
    ArgsTaken e.env timeparse e.block_store (messageOf o.2.2) argdict := by
  have hargument := fun kv : Text × Text =>
    @argument_taken_iff e user_temp message he timeparse repr line_num o ho above kv.1 kv.2
  constructor
  · rintro ⟨parsed, obj, hparsed, hrun⟩
    obtain ⟨entries, hloop, rfl, hall⟩ := parseArgs_inv repr line_num hparsed
    have hentries := entry_keys_nodup repr line_num hloop hkeys
    rw [dictOf_nodup hentries] at hrun hall
    have hbases := parsed_bases repr line_num ho hloop hentries
    refine ⟨fun kv hkv => ?_, fun k hk => ?_⟩
    · obtain ⟨entry, hentry, hparse⟩ := forall₂_left (forall₂_of_mapM hloop) hkv
      obtain ⟨out, hout⟩ := entry_of_run hbases hrun hentry
      exact (hargument kv).mp ⟨entry, out, hparse, hout⟩
    · obtain ⟨key, hkey, rfl⟩ := List.mem_map.mp (List.mem_dedup.mp (hall k hk))
      obtain ⟨entry, hentry, rfl⟩ := List.mem_map.mp hkey
      obtain ⟨kv, hkv, hparse⟩ := forall₂_right (forall₂_of_mapM hloop) hentry
      rw [(parse_arg_entry_key repr line_num ho hparse).1]
      exact List.mem_map_of_mem hkv
  · intro htaken
    obtain ⟨entries, hloop, hruns⟩ := mapM_forall₂ (R := fun _ entry =>
        ∃ out, e.runEntry o.2.2.toList above entry = .ok out) fun kv hkv => by
      obtain ⟨entry, out, hparse, hout⟩ := (hargument kv).mpr (htaken.taken kv hkv)
      exact ⟨entry, hparse, out, hout⟩
    have hentries := entry_keys_nodup repr line_num hloop hkeys
    have hparsed := parseArgs_ok repr line_num hloop hentries fun k hk => by
      obtain ⟨kv, hkv, rfl⟩ := List.mem_map.mp (htaken.complete k hk)
      obtain ⟨entry, hentry, hparse⟩ := forall₂_left (forall₂_of_mapM hloop) hkv
      rw [← (parse_arg_entry_key repr line_num ho hparse).1]
      exact List.mem_dedup.mpr (List.mem_map_of_mem (List.mem_map_of_mem hentry))
    obtain ⟨obj, hobj⟩ := (run_returns_iff (parsed_bases repr line_num ho hloop hentries)).mpr
      fun entry hentry => by
        obtain ⟨kv, -, hout⟩ := forall₂_right hruns hentry
        exact hout
    exact ⟨entries, obj, hparsed, hobj⟩

end

/-! ## One line -/

theorem opcode_fields : ∀ o ∈ opcodes, fields_by_name INSTRUCTION_MSG_DESC o.1.toList =
    some { name := o.1.toList, number := o.2.1, type := .MESSAGE
           message_type := some o.2.2.toList, opts := { stored := true } } ∧
      processor.Plain o.1.toList ∧ o.1.toList ≠ "__bloxtype".toList := by
  decide +kernel

theorem opcode_field {o : String × Nat × String} (ho : o ∈ opcodes) : ∃ field,
    fields_by_name INSTRUCTION_MSG_DESC o.1.toList = some field ∧ field.name = o.1.toList ∧
      field.number = o.2.1 ∧ field.type = .MESSAGE ∧ field.message_type = some o.2.2.toList ∧
        field.label_repeated = false ∧ field.opts = { stored := true } :=
  ⟨_, (opcode_fields o ho).1, rfl, rfl, rfl, rfl, rfl, rfl⟩

/-- A dict that is no link goes through as an item of a list where its entries do. -/
theorem child_runs_iff {e : Encoder} {message : Text} {above : Address} {kvs : Dict}
    (hlink : is_link (.dict kvs) = false) :
    (∃ w y, resolveEntry (_find_nid e.block_store) false (.dict kvs) = .ok w ∧
      walkChild e.pool e.visit (some message) above w = .ok y) ↔
    ∃ obj, e.run message above kvs = .ok obj := by
  rw [resolve_dict hlink]
  constructor
  · rintro ⟨w, y, hw, hy⟩
    obtain ⟨resolved, hresolve, rfl⟩ := map_eq_ok.mp hw
    rw [walkChild] at hy
    obtain ⟨obj, hobj, -⟩ := map_eq_ok.mp hy
    exact ⟨obj, bind_eq_ok.mpr ⟨resolved, hresolve, hobj⟩⟩
  · rintro ⟨obj, hrun⟩
    obtain ⟨resolved, hresolve, hobj⟩ := bind_eq_ok.mp hrun
    refine ⟨.dict resolved, .dict obj, map_eq_ok.mpr ⟨resolved, hresolve, rfl⟩, ?_⟩
    rw [walkChild, hobj]
    rfl

theorem walkSingle_eq {pool : Pool} {visit : Visit} {field : FieldDescriptor} {m : Text}
    (hmessage : field.message_type = some m) (hsingle : field.label_repeated = false)
    (address : Address) (kvs : Dict) : walkValue pool visit field address (.dict kvs) =
      walkChild pool visit (some m) address (.dict kvs) := by
  rw [walkValue, walkChild]
  simp only [hmessage, hsingle, Bool.false_eq_true, if_false]

section
variable {e : Encoder} {user_temp message : Text} (he : EncodesLines e user_temp message)

include he

/-- An instruction goes through where its arguments do. -/
theorem instruction_runs_iff {o : String × Nat × String} (ho : o ∈ opcodes) (above : Address)
    {kvs : Dict} (hlink : is_link (.dict kvs) = false) :
    (∃ obj, e.run "Instruction".toList above [(o.1.toList, .dict kvs)] = .ok obj) ↔
      ∃ obj, e.run o.2.2.toList (above ++ [some o.2.1]) kvs = .ok obj := by
  obtain ⟨-, hname, -⟩ := opcode_fields o ho
  obtain ⟨field, hfield, -, hnumber, htype, hmessage, hsingle, hopts⟩ := opcode_field ho
  rw [← he.messages.instruction] at hfield
  have hbases : ([(o.1.toList, Value.dict kvs)].map fun p => baseOf p.1).Nodup :=
    List.nodup_singleton _
  have hentry : (∃ out, e.runEntry "Instruction".toList above (o.1.toList, .dict kvs) = .ok out) ↔
      ∃ obj, e.run o.2.2.toList (above ++ [some o.2.1]) kvs = .ok obj := by
    rw [← child_runs_iff hlink]
    have hvisit := fun resolved => @visitEntry_bind e.pool e.visit above _ _ _ _ _
      (.dict resolved) (splitKey_name hname) hfield
    simp only [walkSingle_eq hmessage hsingle, hnumber] at hvisit
    constructor
    · rintro ⟨out, hout⟩
      obtain ⟨w, hw, hout⟩ := runEntry_eq_ok.mp hout
      rw [plain_not_marked hname] at hw
      obtain ⟨resolved, -, rfl⟩ := map_eq_ok.mp (resolve_dict hlink ▸ hw)
      rw [hvisit] at hout
      obtain ⟨y, hy, -⟩ := bind_eq_ok.mp hout
      exact ⟨_, y, hw, hy⟩
    · rintro ⟨w, y, hw, hy⟩
      obtain ⟨resolved, -, rfl⟩ := map_eq_ok.mp (resolve_dict hlink ▸ hw)
      obtain ⟨obj, -, rfl⟩ := map_eq_ok.mp (walkChild.eq_def .. ▸ hy)
      have hencoded := hvisit resolved
      rw [hy, ok_bind] at hencoded
      exact ⟨_, runEntry_eq_ok.mpr ⟨_, by rw [plain_not_marked hname, hw], hencoded.trans
        (encode_message hopts htype (by rw [hopts]; simp [stripped]) (x := .dict obj) trivial)⟩⟩
  rw [← hentry, run_returns_iff hbases, List.forall_mem_singleton]

/-- A comment goes through. -/
theorem comment_runs (above : Address) (text : Text) : ∃ obj, e.run "Instruction".toList above
    [("COMMENT".toList, .dict [("text".toList, .str text)])] = .ok obj := by
  have ho : ("COMMENT", 200, "Comment") ∈ opcodes := by decide
  have hof := argument_of_found he.messages ho
    (rfl : fields_by_name (messageOf "Comment") "text".toList = some _)
  obtain ⟨out, hout⟩ := (argument_runs_iff hof (above ++ [some 200]) (v := .str text) rfl
    (fun vs h => nomatch h) rfl (p := True) fun element helement => iff_of_true
      ⟨.str text, encode_other (by rw [helement]) (by rw [helement]; rfl) _⟩ trivial).mpr trivial
  have hbases : ([("text".toList, Value.str text)].map fun p => baseOf p.1).Nodup :=
    List.nodup_singleton _
  obtain ⟨obj, hobj, -⟩ := run_of_entries hbases (.cons hout .nil)
  exact (instruction_runs_iff he ho above rfl).mpr ⟨obj, hobj⟩

variable {timeparse : Text → Option ℚ} (repr : Value → Text)

omit he in
theorem parsed_not_link {line_num : Nat} {o : String × Nat × String} (ho : o ∈ opcodes)
    {argdict : List (Text × Text)} {parsed : Dict}
    (h : parseArgs timeparse repr line_num (messageOf o.2.2) argdict = .ok parsed) :
    is_link (.dict parsed) = false := by
  obtain ⟨entries, hloop, rfl, -⟩ := parseArgs_inv repr line_num h
  refine not_link fun kv hkv hkey => ?_
  obtain ⟨arg, -, hparse⟩ := forall₂_right (forall₂_of_mapM hloop) (mem_dictOf hkv)
  obtain ⟨field, hfield, hname⟩ :=
    List.mem_map.mp (parse_arg_entry_key repr line_num ho hparse).2
  exact absurd (hname.trans hkey) (argument_fields o ho field hfield).2.2.2.2.2

omit he in
/-- The instruction that a line is parsed to is no link. -/
theorem line_not_link {line_num : Nat} {t : Text} {d : Dict}
    (h : from_line timeparse repr t line_num = .ok d) : is_link (.dict d) = false := by
  rcases from_line_inv repr line_num h with ⟨-, rfl⟩ | ⟨-, o, parsed, hfind, -, rfl⟩
  · rfl
  · have hname := (opcode_fields o (List.mem_of_find?_eq_some hfind)).2.2
    refine not_link (List.forall_mem_singleton.mpr fun hkey => ?_)
    exact absurd hkey hname

/-- A line is parsed, and its instruction goes through, exactly where it is taken. -/
theorem line_taken_iff (line_num : Nat) (above : Address) (t : Text) :
    (∃ d obj, from_line timeparse repr t line_num = .ok d ∧
      e.run "Instruction".toList above d = .ok obj) ↔
    LineTaken e.env timeparse e.block_store (.str t) := by
  constructor
  · rintro ⟨d, obj, hparsed, hrun⟩
    refine ⟨t, rfl, ?_⟩
    rcases from_line_inv repr line_num hparsed with ⟨hcomment, -⟩ |
      ⟨-, o, parsed, hfind, hargs, rfl⟩
    · exact Or.inl hcomment
    · have ho := List.mem_of_find?_eq_some hfind
      refine Or.inr ⟨o, hfind, ?_⟩
      obtain ⟨obj', hobj'⟩ :=
        (instruction_runs_iff he ho above (parsed_not_link repr ho hargs)).mp ⟨obj, hrun⟩
      exact (args_taken_iff he repr line_num ho _ (dictOf_keys_nodup _)).mp
        ⟨parsed, obj', hargs, hobj'⟩
  · rintro ⟨_, ⟨⟩, htaken⟩
    by_cases hcomment : (lstrip t).head? = some '#'
    · obtain ⟨obj, hobj⟩ := comment_runs he above (strip t).tail
      refine ⟨_, obj, ?_, hobj⟩
      rw [from_line, if_pos hcomment]
    · obtain ⟨o, hfind, hargs⟩ := htaken.resolve_left hcomment
      have ho := List.mem_of_find?_eq_some hfind
      have hopcode : o.1.toList = (partition ' ' t).1 := by simpa using List.find?_some hfind
      obtain ⟨parsed, obj, hparsed, hobj⟩ := (args_taken_iff he repr line_num ho
        (above ++ [some o.2.1]) (dictOf_keys_nodup _)).mpr hargs
      obtain ⟨obj', hobj'⟩ :=
        (instruction_runs_iff he ho above (parsed_not_link repr ho hparsed)).mpr ⟨obj, hobj⟩
      refine ⟨_, obj', ?_, hobj'⟩
      rw [from_line, if_neg hcomment]
      dsimp only
      rw [hfind, hopcode]
      exact map_eq_ok.mpr ⟨parsed, hparsed, rfl⟩

end

/-! ## The data of a Sequence -/

/-- One turn of the loop of `parse`. -/
def parsedLine (timeparse : Text → Option ℚ) (repr : Value → Text) (idx : Nat) :
    Value → Except Exn Value
  | .str line => (from_line timeparse repr line (idx + 1)).map Value.dict
  | v => .error (noAttribute v "lstrip")

theorem parse_eq (timeparse : Text → Option ℚ) (repr : Value → Text) (data : Dict) :
    parse timeparse repr data = mapInstructions data (parsedLine timeparse repr) := rfl

section
variable {e : Encoder} {user_temp message : Text} (he : EncodesLines e user_temp message)
variable {timeparse : Text → Option ℚ} (repr : Value → Text)

include he

/-- An item of the list goes through where its line is taken. -/
theorem item_taken_iff (idx : Nat) (above : Address) (line : Value) :
    (∃ d, parsedLine timeparse repr idx line = .ok d ∧ ∃ w y,
      resolveEntry (_find_nid e.block_store) false d = .ok w ∧
        walkChild e.pool e.visit (some "Instruction".toList) above w = .ok y) ↔
    LineTaken e.env timeparse e.block_store line := by
  cases line with
  | str t =>
    rw [← line_taken_iff he repr (idx + 1) above t]
    constructor
    · rintro ⟨d, hparse, hchild⟩
      obtain ⟨d, hline, rfl⟩ := map_eq_ok.mp hparse
      obtain ⟨obj, hobj⟩ := (child_runs_iff (line_not_link repr hline)).mp hchild
      exact ⟨d, obj, hline, hobj⟩
    · rintro ⟨d, obj, hline, hobj⟩
      exact ⟨.dict d, map_eq_ok.mpr ⟨d, hline, rfl⟩,
        (child_runs_iff (line_not_link repr hline)).mpr ⟨obj, hobj⟩⟩
  | none | bool | int | float | list | dict =>
    refine iff_of_false ?_ ?_
    · rintro ⟨d, h, -⟩
      cases h
    · rintro ⟨t, h, -⟩
      cases h

omit he in
/-- A list of messages goes through where each of its items does. -/
theorem items_run_iff (hpool : Schema e.pool) {m : Text} {field : FieldDescriptor}
    (hfield : fields_by_name (e.pool.messages message) field.name = some field)
    (hmessage : field.message_type = some m) (hrepeated : field.label_repeated = true)
    (above : Address) {ds : List Value} :
    (∃ out, e.runEntry message above (field.name, .list ds) = .ok out) ↔
      ∀ d ∈ ds, ∃ w y, resolveEntry (_find_nid e.block_store) false d = .ok w ∧
        walkChild e.pool e.visit (some m) (above ++ [some field.number] ++ [none]) w = .ok y := by
  obtain ⟨hname, htype, readonly, logged, stored, ignored, hopts⟩ :=
    message_options hpool hfield hmessage
  have hvisit := fun ws => @visitEntry_bind e.pool e.visit above _ _ _ _ _ (.list ws)
    (splitKey_name hname) hfield
  have hwalk : ∀ address ws, walkValue e.pool e.visit field address (.list ws) =
      (ws.mapM (walkChild e.pool e.visit (some m) (address ++ [none]))).map Value.list := by
    intro address ws
    rw [walkValue]
    simp only [hmessage, hrepeated, if_true, walkList_eq]
  rw [← loops_return_iff]
  constructor
  · rintro ⟨out, hout⟩
    obtain ⟨w, hw, hout⟩ := runEntry_eq_ok.mp hout
    rw [plain_not_marked hname, resolve_list] at hw
    obtain ⟨ws, hws, rfl⟩ := map_eq_ok.mp hw
    rw [hvisit, hwalk] at hout
    obtain ⟨y, hy, -⟩ := bind_eq_ok.mp hout
    obtain ⟨ys, hys, -⟩ := map_eq_ok.mp hy
    exact ⟨ws, ys, hws, hys⟩
  · rintro ⟨ws, ys, hws, hys⟩
    have hsolid : Solid (.list ys) := fun y hy => by
      obtain ⟨w, -, hw⟩ := forall₂_right (forall₂_of_mapM hys) hy
      obtain ⟨_, obj, -, rfl, -⟩ := walkChild_inv hw
      rfl
    have hvisited : ∀ element : OptionElement, element.field = field →
        ∃ out, e.visit element (.list ys) = .ok out := by
      rintro element rfl
      by_cases hstrip : stripped e.filter_values element.field.opts = true
      · exact ⟨none, encodeElement_stripped hstrip _⟩
      · exact ⟨_, encode_message hopts htype (by simpa using hstrip) hsolid⟩
    have hlist : resolveEntry (_find_nid e.block_store) (isMarked field.name) (.list ds) =
        .ok (.list ws) := by
      rw [plain_not_marked hname, resolve_list, hws]
      rfl
    have hentry := hvisit ws
    rw [hwalk, hys] at hentry
    obtain ⟨out, hout⟩ := hvisited { field, key := field.name, base_key := field.name
                                     postfixed := [], address := elementAddress field
                                       (above ++ [some field.number]) (.list ws) } rfl
    exact ⟨out, runEntry_eq_ok.mpr ⟨_, hlist, hentry.trans hout⟩⟩

omit he in
theorem forall_others_iff {before after : Dict} {k : Text} {v : Value} {P : Text × Value → Prop}
    (hbefore : k ∉ before.map (·.1)) (hafter : k ∉ after.map (·.1)) :
    (∀ p ∈ before ++ (k, v) :: after, p.1 ≠ k → P p) ↔
      (∀ p ∈ before, P p) ∧ ∀ p ∈ after, P p := by
  have hne : ∀ {kvs : Dict}, k ∉ kvs.map (·.1) → ∀ p ∈ kvs, p.1 ≠ k := by
    rintro kvs hkvs p hp rfl
    exact hkvs (List.mem_map_of_mem hp)
  rw [List.forall_mem_append, List.forall_mem_cons]
  constructor
  · rintro ⟨hb, -, ha⟩
    exact ⟨fun p hp => hb p hp (hne hbefore p hp), fun p hp => ha p hp (hne hafter p hp)⟩
  · rintro ⟨hb, ha⟩
    exact ⟨fun p hp _ => hb p hp, fun h => absurd rfl h, fun p hp _ => ha p hp⟩

omit he in
/-- The list of lines is parsed in its place. -/
theorem parse_list {before after : Dict} (hbefore : "instructions".toList ∉ before.map (·.1))
    (hafter : "instructions".toList ∉ after.map (·.1)) (lines : List Value) :
    parse timeparse repr (before ++ ("instructions".toList, .list lines) :: after) =
      (lines.zipIdx.mapM fun p => parsedLine timeparse repr p.2 p.1).map fun ws =>
        before ++ ("instructions".toList, .list ws) :: after := by
  have hset := fun ws : List Value =>
    setItem_middle (v := Value.list lines) (.list ws) hbefore hafter
  rw [parse_eq]
  unfold mapInstructions
  rw [get?_middle hbefore]
  dsimp only
  simp only [hset]
  exact bind_pure_eq_map _ _

/-- The lines in the data of a Sequence. -/
def linesOf (data : Dict) : List Value :=
  match get? data "instructions".toList with
  | some (.list lines) => lines
  | _ => []

/-- The list of lines is parsed, and goes through, exactly where each line is taken. -/
theorem lines_run_iff (hpool : Schema e.pool) {lines : List Value} :
    (∃ ds, (lines.zipIdx.mapM fun p => parsedLine timeparse repr p.2 p.1) = .ok ds ∧
      ∃ out, e.runEntry message [] ("instructions".toList, .list ds) = .ok out) ↔
    ∀ line ∈ lines, LineTaken e.env timeparse e.block_store line := by
  obtain ⟨field, hfield, hmessage, hrepeated⟩ := he.messages.instructions
  have hname := fields_by_name_name hfield
  rw [← hname] at hfield ⊢
  refine (exists_congr fun ds => and_congr_right fun _ =>
    items_run_iff hpool hfield hmessage hrepeated []).trans ?_
  rw [loop_returns_iff]
  have hlines : (∀ p ∈ lines.zipIdx, LineTaken e.env timeparse e.block_store p.1) ↔
      ∀ line ∈ lines, LineTaken e.env timeparse e.block_store line := by
    rw [← List.forall_mem_map (f := Prod.fst), List.zipIdx_map_fst]
  rw [← hlines]
  exact forall₂_congr fun p _ => item_taken_iff he repr p.2 _ p.1

/-- The data of a Sequence is parsed, and goes through, exactly where its lines are taken and its
other entries go through. -/
theorem sequence_runs_iff (hpool : Schema e.pool) {data : Dict}
    (hbases : (data.map fun p => baseOf p.1).Nodup)
    (hlist : ∀ v, get? data "instructions".toList = some v → ∃ lines, v = .list lines) :
    (∃ parsed obj, parse timeparse repr data = .ok parsed ∧
      e.run message [] parsed = .ok obj) ↔
    (∀ p ∈ data, p.1 ≠ "instructions".toList → ∃ out, e.runEntry message [] p = .ok out) ∧
      ∀ line ∈ linesOf data, LineTaken e.env timeparse e.block_store line := by
  have hkeys : (data.map (·.1)).Nodup := List.Nodup.of_map baseOf (by rwa [List.map_map])
  unfold linesOf
  cases hget : get? data "instructions".toList with
  | none =>
    have hother : ∀ p ∈ data, p.1 ≠ "instructions".toList := fun p hp hkey =>
      not_mem_of_get? hget (hkey ▸ List.mem_map_of_mem hp)
    have hparse : parse timeparse repr data = .ok data := by
      rw [parse_eq]
      unfold mapInstructions
      rw [hget]
    have hrun : (∃ parsed obj, parse timeparse repr data = .ok parsed ∧
        e.run message [] parsed = .ok obj) ↔ ∃ obj, e.run message [] data = .ok obj := by
      simp [hparse]
    refine hrun.trans ((run_returns_iff hbases).trans ?_)
    simp only [List.not_mem_nil, false_imp_iff, implies_true, and_true]
    exact forall₂_congr fun p hp => ⟨fun h _ => h, fun h => h (hother p hp)⟩
  | some v =>
    obtain ⟨lines, rfl⟩ := hlist v hget
    obtain ⟨before, after, rfl, hbefore, hafter⟩ := split_of_get? hkeys hget
    have hruns : ∀ ds : List Value, (∃ obj, e.run message []
        (before ++ ("instructions".toList, .list ds) :: after) = .ok obj) ↔
          ((∀ p ∈ before, ∃ out, e.runEntry message [] p = .ok out) ∧
            ∀ p ∈ after, ∃ out, e.runEntry message [] p = .ok out) ∧
          ∃ out, e.runEntry message [] ("instructions".toList, .list ds) = .ok out := by
      intro ds
      have hbases' : ((before ++ ("instructions".toList, Value.list ds) :: after).map
          fun p => baseOf p.1).Nodup := by simpa using hbases
      rw [run_returns_iff hbases', List.forall_mem_append, List.forall_mem_cons]
      tauto
    rw [forall_others_iff hbefore hafter, ← lines_run_iff he repr hpool]
    constructor
    · rintro ⟨parsed, obj, hparsed, hobj⟩
      rw [parse_list repr hbefore hafter] at hparsed
      obtain ⟨ds, hds, rfl⟩ := map_eq_ok.mp hparsed
      obtain ⟨hothers, hlines⟩ := (hruns ds).mp ⟨obj, hobj⟩
      exact ⟨hothers, ds, hds, hlines⟩
    · rintro ⟨hothers, ds, hds, hlines⟩
      obtain ⟨obj, hobj⟩ := (hruns ds).mpr ⟨hothers, hlines⟩
      exact ⟨_, obj, by rw [parse_list repr hbefore hafter, hds]; rfl, hobj⟩

end

end devcon_spark.codec.sequence
