-- What `post_decode` makes of content, `pre_encode` makes into that content
-- again.
import DevconSpark.Content

open py_text py_dict py_number py_value binary devcon_spark.exceptions devcon_spark.models
open devcon_spark.codec.descriptor devcon_spark.codec.time_utils
open devcon_spark.codec.unit_conversion devcon_spark.codec.processor

namespace devcon_spark.codec.content

/-! ## Numbers -/

theorem overInt_number {v : Value} {q : ℚ} (h : number? v = some (.fin q)) (n : Nat) :
    overInt v n = .ok (.float (.fin (q / n))) := by
  rw [overInt, h]
  rfl

theorem timesInt_number {v : Value} {q : ℚ} (h : number? v = some (.fin q)) (n : Nat) :
    ∃ w, timesInt v n = .ok w ∧ number? w = some (.fin (q * n)) := by
  cases v with
  | bool b =>
    cases h
    refine ⟨_, rfl, ?_⟩
    cases b <;> simp [number?]
  | int i =>
    cases h
    refine ⟨_, rfl, ?_⟩
    simp [number?]
  | float x =>
    cases h
    exact ⟨_, rfl, rfl⟩
  | none => cases h
  | str t => cases h
  | list vs => cases h
  | dict kvs => cases h

def scaleOf (scale : Nat) : ℚ := if scale = 0 then 1 else scale

theorem scaleOf_ne_zero (scale : Nat) : scaleOf scale ≠ 0 := by
  unfold scaleOf
  split
  · exact one_ne_zero
  · rename_i h
    exact Nat.cast_ne_zero.mpr h

/-- A number over its scale. -/
theorem scaled_number {v : Value} {q : ℚ} (hv : number? v = some (.fin q))
    (hbool : ∀ b, v ≠ .bool b) (scale : Nat) :
    ∃ x, applyIf (scale ≠ 0) (overInt · scale) v = .ok x ∧
      number? x = some (.fin (q / scaleOf scale)) ∧ ∀ b, x ≠ .bool b := by
  unfold scaleOf
  by_cases h : scale = 0
  · refine ⟨v, ?_, ?_, hbool⟩
    · exact applyIf_neg (not_not.mpr h) _ v
    · rw [if_pos h, hv, div_one]
  · refine ⟨.float (.fin (q / scale)), ?_, ?_, by simp⟩
    · rw [applyIf_pos h, overInt_number hv]
    · rw [if_neg h]
      rfl

/-- A number over its scale is that number again, times the scale. -/
theorem unscaled_number {w : Value} {i : Int} {scale : Nat}
    (hw : number? w = some (.fin ((i : ℚ) / scaleOf scale))) :
    ∃ y, applyIf (scale ≠ 0) (timesInt · scale) w = .ok y ∧ roundInt y = .ok i := by
  have hback := div_mul_cancel₀ (i : ℚ) (scaleOf_ne_zero scale)
  unfold scaleOf at hw hback
  by_cases h : scale = 0
  · refine ⟨w, ?_, ?_⟩
    · exact applyIf_neg (not_not.mpr h) _ w
    · rw [if_pos h, div_one] at hw
      exact roundInt_intCast hw
  · rw [if_neg h] at hw hback
    obtain ⟨y, hy, hnumber⟩ := timesInt_number hw scale
    rw [hback] at hnumber
    exact ⟨y, by rw [applyIf_pos h, hy], roundInt_intCast hnumber⟩

/-! ## Values -/

/-- What came back of a value that is no message: 64-bit numbers are numbers. -/
def keptScalar (type : FieldType) (v w : Value) : Prop :=
  match type, v with
  | .INT64, .str t => ∃ i : Int, w = .int i ∧ t = intText i
  | .UINT64, .str t => ∃ n : Nat, w = .int n ∧ t = natText n
  | _, v => w = v

/-- The codec works in the temperature unit of the user. -/
structure Exact (env : Packages) (user_temp : Text) : Prop where
  temp : user_temp ∈ temperatures
  units : ExactUnits env.quantity user_temp
  dates : ReadsIso env.ciso8601

section
variable {env : Packages} {user_temp : Text} (hexact : Exact env user_temp)

theorem to_user_unit_ok {type : FieldType} {repeated : Bool} {opts : FieldOpts}
    (h : Placed type repeated opts) (user_temp : Text) : ∃ user_unit,
      to_user_unit (converter user_temp) opts.unit.Name = .ok user_unit := by
  have hunit : opts.unit ≠ .Volt := by
    cases h
    case number hunit _ => exact hunit
    all_goals simp
  obtain ⟨s, -, hmapping⟩ := mapping_of_unit hunit
  exact ⟨_, by rw [to_user_unit, hmapping]; rfl⟩

/-- How a value reads that was decoded, and what it is encoded as. -/
structure Trip (env : Packages) (user_temp : Text) (field : FieldDescriptor) (mode : ReadMode)
    (user_unit : Text) (v x : Value) : Prop where
  decoded : decode_value env (converter user_temp) mode field.opts false user_unit v = .ok x
  not_list : ∀ vs, x ≠ .list vs
  encoded : (x = .none ∧ v = .int 0 ∧ field.label_repeated = false) ∨
    (isNone x = false ∧ ∀ element : OptionElement, element.field = field →
      (mode = .LOGGED → field.opts.unit ≠ .NotSet → element.postfixed = user_unit) →
      ∃ w, encode_value env (converter user_temp) element x = .ok w ∧ keptScalar field.type v w)

/-- A quantity with a number for its value, as an object or with its unit in the key. -/
theorem encode_quantity {mode : ReadMode} {options : FieldOpts} {user_unit postfixed : Text}
    {w : Value} {q : ℚ} (hw : number? w = some (.fin q)) (id : String)
    (hpostfixed : mode = .LOGGED → postfixed = user_unit) :
    _encode_unit env (converter user_temp) (withMetadata mode (quantityValue options user_unit) w)
      id (.str postfixed) =
        to_sys_value env.quantity (converter user_temp) w id (.str user_unit) := by
  unfold withMetadata metadata_opt
  by_cases hmode : mode = .LOGGED
  · rw [if_pos hmode, hpostfixed hmode]
    cases w
    case dict => cases hw
    all_goals rfl
  · rw [if_neg hmode]
    rfl

/-- A number in its scale is rounded to the number it was before. -/
theorem encode_number {field : FieldDescriptor} {unit : UnitType} {scale : Nat}
    {omit_if_zero null_if_zero readonly logged stored ignored : Bool}
    (htype : field.type ∈ [FieldType.INT32, .UINT32])
    (hopts : field.opts =
      { unit, scale, omit_if_zero, null_if_zero, readonly, logged, stored, ignored })
    {element : OptionElement} (helement : element.field = field) {x w : Value} {i : Int}
    (hunit : applyIf (unit ≠ .NotSet)
      (_encode_unit env (converter user_temp) · unit.Name (.str element.postfixed)) x = .ok w)
    (hw : number? w = some (.fin ((i : ℚ) / scaleOf scale))) :
    encode_value env (converter user_temp) element x = .ok (.int i) := by
  obtain ⟨y, hy, hround⟩ := unscaled_number hw
  have hint : isIntType field.type = true := by
    unfold isIntType
    simp only [List.mem_cons, List.not_mem_nil, or_false] at htype
    rcases htype with h | h <;> rw [h] <;> rfl
  unfold encode_value
  simp only [helement, hopts, hunit, hy, hint, hround, Option.isSome_none, applyIf_false,
    applyIf_true, bind, Except.bind]
  rfl

theorem number_trip (hexact : Exact env user_temp) {field : FieldDescriptor} {unit : UnitType}
    {scale : Nat} {omit_if_zero null_if_zero readonly logged stored ignored : Bool}
    (htype : field.type ∈ [FieldType.INT32, .UINT32]) (hunit : unit ≠ .Volt)
    (hopts : field.opts =
      { unit, scale, omit_if_zero, null_if_zero, readonly, logged, stored, ignored })
    (mode : ReadMode) {i : Int} (hnull : null_if_zero = true → isZero (.int i) = false) :
    ∃ user_unit x, to_user_unit (converter user_temp) unit.Name = .ok user_unit ∧
      Trip env user_temp field mode user_unit (.int i) x := by
  obtain ⟨s, hs, hmapping⟩ := mapping_of_unit hunit
  obtain ⟨x, hx, hnumber, hbool⟩ := scaled_number (v := .int i) rfl (by simp) scale
  have hzero : (null_if_zero && isZero (.int i)) = false := by
    cases null_if_zero
    · rfl
    · rw [hnull rfl, Bool.and_false]
  have huser : to_user_unit (converter user_temp) unit.Name = .ok (format user_temp s) := by
    rw [to_user_unit, hmapping]
    rfl
  have hkept : keptScalar field.type (.int i) (.int i) := by
    unfold keptScalar
    cases field.type <;> rfl
  by_cases hset : unit = .NotSet
  · refine ⟨_, x, huser, ?_, ?_, Or.inr ⟨?_, ?_⟩⟩
    · unfold decode_value
      simp only [hopts, hset, hx, hzero, bind, Except.bind, Bool.false_or]
      rfl
    · rintro vs rfl
      cases hnumber
    · cases x <;> first | rfl | cases hnumber
    · intro element helement _
      exact ⟨.int i, encode_number htype hopts helement (applyIf_neg (not_not.mpr hset) _ x)
        hnumber, hkept⟩
  · -- the unit of the user, and back
    obtain ⟨w, r, hw, hwnumber, -, w', hw', hback⟩ := hexact.units.there_and_back _
      (List.mem_map_of_mem hs) x _ hnumber hbool
    have hname : unit.Name ≠ "NotSet" := by
      cases unit
      case NotSet => exact absurd rfl hset
      all_goals decide
    have huserne := (format_nameable _ hs user_temp hexact.temp hname).1
    refine ⟨_, withMetadata mode (quantityValue field.opts (format user_temp s)) w, huser, ?_, ?_,
      Or.inr ⟨?_, ?_⟩⟩
    · have hout : to_user_value env.quantity (converter user_temp) x unit.Name = .ok w := by
        unfold to_user_value
        rw [hmapping]
        exact hw
      unfold decode_value
      simp only [hopts, hx, hzero, hout, bind, Except.bind, Bool.false_or]
      rw [if_pos hset]
      rfl
    · unfold withMetadata
      split
      · exact fun vs h => nomatch h
      · rintro vs rfl
        cases hwnumber
    · unfold withMetadata
      split
      · rfl
      · cases w <;> first | rfl | cases hwnumber
    · intro element helement hpostfixed
      have hin : _encode_unit env (converter user_temp)
          (withMetadata mode (quantityValue field.opts (format user_temp s)) w) unit.Name
          (.str element.postfixed) = .ok w' := by
        rw [encode_quantity hwnumber]
        · unfold to_sys_value
          rw [hmapping]
          simp only [bind, Except.bind, truthy, huserne, ne_eq, not_false_eq_true, decide_true,
            if_true]
          exact hw'
        · intro hmode
          exact hpostfixed hmode (by rw [hopts]; exact hset)
      exact ⟨.int i, encode_number htype hopts helement (by rw [applyIf_pos hset, hin]) hback,
        hkept⟩

theorem encode_link {mode : ReadMode} {link_type : Text} (i : Int) :
    linkId (withMetadata mode (linkValue link_type) (.int i)) = .ok (.int i) := by
  unfold withMetadata
  split <;> rfl

theorem any_ascii {t : Text} (h : ∀ c ∈ t, c.toNat < 128) : t.any (128 ≤ ·.toNat) = false := by
  rw [List.any_eq_false]
  intro c hc
  simpa using h c hc

theorem unhexlifyValue_hexlify (bs : Bytes) : unhexlifyValue (.str (hexlify bs)) = .ok bs := by
  simp only [unhexlifyValue, any_ascii (hexlify_ascii bs), unhexlify_hexlify]
  rfl

theorem hexed_back {n : Nat} (h : n < 2 ^ 64) :
    ∃ t, int_to_hex (.str (natText n)) = .ok (.str t) ∧ hex_to_int (.str t) = .ok (.int n) := by
  obtain ⟨bs, hbs, -, hn⟩ := fromBytes_toBytes (show n < 256 ^ 8 from h)
  have hint : toInt (.str (natText n)) = .ok n := by
    simp only [toInt, intOfText_natText (show n < 10 ^ 20 by omega)]
  refine ⟨hexlify bs, ?_, ?_⟩
  · unfold int_to_hex
    simp only [hint, bind, Except.bind]
    rw [if_neg (by omega), Int.toNat_natCast, hbs]
    rfl
  · unfold hex_to_int
    rw [unhexlifyValue_hexlify, ← hn]
    rfl

theorem hexstr_back (bs : Bytes) :
    ∃ t, b64_to_hex (.str (b64encode bs)) = .ok (.str t) ∧
      hex_to_b64 (.str t) = .ok (.str (b64encode bs)) := by
  refine ⟨hexlify bs, ?_, ?_⟩
  · simp only [b64_to_hex, any_ascii (b64encode_ascii bs), b64decode_b64encode]
    rfl
  · unfold hex_to_b64
    rw [unhexlifyValue_hexlify]
    rfl

theorem swapNumber_of_swapBytes {n m : Nat} (h : swapBytes n = some m) :
    swapNumber n = .ok m := by
  unfold swapNumber
  rw [if_neg (by omega), Int.toNat_natCast, h]

theorem ipv4_back (env : Packages) {n : Nat} (h : n < 2 ^ 32) :
    ∃ t, int_to_ipv4 (.int n) = .ok (.str t) ∧ ipv4_to_int env (.str t) = .ok (.int n) := by
  obtain ⟨m, hswap, hm, hback⟩ := swapBytes_swapBytes (show n < 256 ^ 4 from h)
  refine ⟨ipv4Text m, ?_, ?_⟩
  · unfold int_to_ipv4
    simp only [swapNumber_of_swapBytes hswap]
    rfl
  · have haddress : ip_address env (.str (ipv4Text m)) = .ok m := by
      simp only [ip_address, ipv4Value?_ipv4Text hm, Option.some_or]
    unfold ipv4_to_int
    simp only [haddress, bind, Except.bind, swapNumber_of_swapBytes hback]
    rfl

theorem not_rawScalar_list {type : FieldType} {vs : List Value} :
    ¬ rawScalar type (.list vs) := by
  cases type <;> exact id

theorem not_rawScalar_none {type : FieldType} : ¬ rawScalar type .none := by
  cases type <;> exact id

theorem rawScalar_int {type : FieldType} {v : Value} (htype : type = .INT32 ∨ type = .UINT32)
    (h : rawScalar type v) : ∃ i, v = .int i := by
  rcases htype with rfl | rfl <;> cases v <;> first | exact ⟨_, rfl⟩ | exact absurd h id

theorem round_int_type {type : FieldType} (h : isIntType type = true) (i : Int) :
    applyIf (isIntType type) (fun value => (roundInt value).map Value.int) (.int i) =
      .ok (.int i) := by
  rw [h, applyIf_true, roundInt_int]
  rfl

/-- Options that change no value. -/
theorem encode_plain {cv : UnitConverter} {element : OptionElement}
    {readonly logged stored ignored : Bool}
    (hopts : element.field.opts = { readonly, logged, stored, ignored })
    (hint : isIntType element.field.type = false) (v : Value) :
    encode_value env cv element v = .ok v := by
  unfold encode_value
  simp only [hopts, hint]
  rfl

/-- Options that change no value leave it as it is, both ways. -/
theorem plain_trip {field : FieldDescriptor} {readonly logged stored ignored : Bool}
    (hopts : field.opts = { readonly, logged, stored, ignored })
    (htype : field.type ∈ [FieldType.BOOL, .ENUM, .STRING, .MESSAGE]) (mode : ReadMode)
    (user_unit : Text) {v : Value} (hraw : rawScalar field.type v) :
    Trip env user_temp field mode user_unit v v := by
  simp only [List.mem_cons, List.not_mem_nil, or_false] at htype
  refine ⟨by rw [hopts]; rfl, ?_, Or.inr ⟨?_, ?_⟩⟩
  · rintro vs rfl
    exact not_rawScalar_list hraw
  · cases v <;> first | rfl | exact absurd hraw not_rawScalar_none
  · intro element helement _
    refine ⟨v, encode_plain (by rw [helement]; exact hopts) ?_ v, ?_⟩
    · rw [helement]
      rcases htype with h | h | h | h <;> rw [h] <;> rfl
    · rcases htype with h | h | h | h <;> rw [h] <;> rfl

/-- A link is read as an object, or as its number, and encoded as its number. -/
theorem link_trip {field : FieldDescriptor} {objtype : Text}
    {readonly logged stored ignored omit_if_zero null_if_zero : Bool}
    (hopts : field.opts =
      { objtype := some objtype, omit_if_zero, null_if_zero, readonly, logged, stored, ignored })
    (htype : field.type = .UINT32) (mode : ReadMode) (user_unit : Text) {i : Int}
    (hnull : field.opts.null_if_zero = true → isZero (.int i) = false) :
    Trip env user_temp field mode user_unit (.int i)
      (withMetadata mode (linkValue objtype) (.int i)) := by
  have hzero : (null_if_zero && isZero (.int i)) = false := by
    rw [hopts] at hnull
    cases null_if_zero
    · rfl
    · rw [hnull rfl, Bool.and_false]
  refine ⟨?_, ?_, Or.inr ⟨?_, ?_⟩⟩
  · rw [hopts]
    unfold decode_value
    simp only [hzero]
    rfl
  · unfold withMetadata
    split <;> simp [linkValue]
  · unfold withMetadata
    split <;> rfl
  · intro element helement _
    refine ⟨.int i, ?_, by rw [htype]; rfl⟩
    unfold encode_value
    rw [helement, hopts, htype]
    simp only [ne_eq, not_true_eq_false, decide_false, applyIf_false, Option.isSome_some,
      applyIf_true, encode_link, bind, Except.bind]
    exact round_int_type rfl i

/-- A value that is read as a text is encoded from that text. -/
theorem text_trip {field : FieldDescriptor} {mode : ReadMode} {user_unit t : Text} {v w : Value}
    (hdecode : decode_value env (converter user_temp) mode field.opts false user_unit v =
      .ok (.str t))
    (hencode : ∀ element : OptionElement, element.field = field →
      encode_value env (converter user_temp) element (.str t) = .ok w)
    (hkept : keptScalar field.type v w) : Trip env user_temp field mode user_unit v (.str t) :=
  ⟨hdecode, by simp, Or.inr ⟨rfl, fun element helement _ => ⟨w, hencode element helement, hkept⟩⟩⟩

/-- A time is read as a text, or as seconds, or as null, and stands for as many seconds. -/
theorem datetime_back (hexact : Exact env user_temp) {n : Nat} (hend : n ≤ 100000000000)
    (mode : ReadMode) : ∃ x,
      serialize_datetime env.ciso8601 env.localOffset env.repr (.int n) (date_fmt_opt mode) =
        .ok x ∧
      serialize_datetime env.ciso8601 env.localOffset env.repr x .SECONDS = .ok (.int n) ∧
      (∀ vs, x ≠ .list vs) ∧ (x = .none ∧ n = 0 ∨ isNone x = false) := by
  by_cases hn : n = 0
  · subst hn
    cases mode
    · exact ⟨.none, rfl, rfl, by simp, Or.inl ⟨rfl, rfl⟩⟩
    · exact ⟨.none, rfl, rfl, by simp, Or.inl ⟨rfl, rfl⟩⟩
    · exact ⟨.int 0, rfl, rfl, by simp, Or.inr rfl⟩
  · obtain ⟨hiso, hseconds⟩ := @serialize_datetime_natCast env.ciso8601
      env.localOffset env.repr n (Nat.pos_of_ne_zero hn) hend
    have hback := serialize_datetime_isoZ hexact.dates env.localOffset env.repr hend
    cases mode
    · exact ⟨_, hiso, hback, by simp, Or.inr rfl⟩
    · exact ⟨_, hiso, hback, by simp, Or.inr rfl⟩
    · exact ⟨_, hseconds, hseconds, by simp, Or.inr rfl⟩

/-- Each value that is no message is decoded, and encoded again. -/
theorem scalar_trip (hexact : Exact env user_temp) {field : FieldDescriptor}
    (hplaced : Placed field.type field.label_repeated field.opts) (mode : ReadMode) {v : Value}
    (hraw : rawScalar field.type v) (hnull : field.opts.null_if_zero = true → isZero v = false) :
    ∃ user_unit x, to_user_unit (converter user_temp) field.opts.unit.Name = .ok user_unit ∧
      Trip env user_temp field mode user_unit v x := by
  obtain ⟨user_unit, huser⟩ := to_user_unit_ok hplaced user_temp
  obtain ⟨name, number, type, label_repeated, message_type, opts⟩ := field
  cases hplaced with
  | plain readonly logged stored ignored htype =>
    exact ⟨user_unit, v, huser, plain_trip rfl htype mode user_unit hraw⟩
  | number readonly logged stored ignored unit scale omit_if_zero null_if_zero htype hunit =>
    have hint : ∃ i, v = .int i := by
      simp only [List.mem_cons, List.not_mem_nil, or_false] at htype
      rcases htype with rfl | rfl
      · exact rawScalar_int (Or.inl rfl) hraw
      · exact rawScalar_int (Or.inr rfl) hraw
    obtain ⟨i, rfl⟩ := hint
    exact number_trip hexact htype hunit rfl mode hnull
  | link readonly logged stored ignored objtype omit_if_zero null_if_zero =>
    obtain ⟨i, rfl⟩ := rawScalar_int (Or.inr rfl) hraw
    exact ⟨user_unit, _, huser, link_trip rfl rfl mode user_unit hnull⟩
  | hexed readonly logged stored ignored =>
    obtain ⟨t, rfl⟩ : ∃ t, v = .str t := by
      cases v <;> first | exact ⟨_, rfl⟩ | exact absurd hraw id
    obtain ⟨n, hn, rfl⟩ : ∃ n : Nat, n < 2 ^ 64 ∧ t = natText n := hraw
    obtain ⟨t, hout, hin⟩ := hexed_back hn
    refine ⟨user_unit, .str t, huser, text_trip hout (w := .int n) ?_ ⟨n, rfl, rfl⟩⟩
    intro element helement
    unfold encode_value
    rw [helement]
    simp only [ne_eq, not_true_eq_false, decide_false, applyIf_false, Option.isSome_none,
      applyIf_true, hin, bind, Except.bind]
    exact round_int_type rfl n
  | hexstr readonly logged stored ignored =>
    obtain ⟨t, rfl⟩ : ∃ t, v = .str t := by
      cases v <;> first | exact ⟨_, rfl⟩ | exact absurd hraw id
    obtain ⟨bs, rfl⟩ : ∃ bs, t = b64encode bs := hraw
    obtain ⟨t, hout, hin⟩ := hexstr_back bs
    refine ⟨user_unit, .str t, huser, text_trip hout (w := .str (b64encode bs)) ?_ rfl⟩
    intro element helement
    unfold encode_value
    rw [helement]
    simp only [ne_eq, not_true_eq_false, decide_false, applyIf_false, Option.isSome_none,
      applyIf_true, hin, bind, Except.bind]
    rfl
  | ipv4address readonly logged stored ignored =>
    obtain ⟨i, rfl⟩ := rawScalar_int (Or.inr rfl) hraw
    obtain ⟨h0, hlt⟩ : 0 ≤ i ∧ i < 2 ^ 32 := hraw
    obtain ⟨n, rfl⟩ := Int.eq_ofNat_of_zero_le h0
    obtain ⟨t, hout, hin⟩ := ipv4_back env (show n < 2 ^ 32 by omega)
    refine ⟨user_unit, .str t, huser, text_trip hout (w := .int n) ?_ rfl⟩
    intro element helement
    unfold encode_value
    rw [helement]
    simp only [ne_eq, not_true_eq_false, decide_false, applyIf_false, Option.isSome_none,
      applyIf_true, hin, bind, Except.bind]
    exact round_int_type rfl n
  | datetime readonly logged stored ignored =>
    obtain ⟨i, rfl⟩ := rawScalar_int (Or.inr rfl) hraw
    obtain ⟨h0, hlt⟩ : 0 ≤ i ∧ i < 2 ^ 32 := hraw
    obtain ⟨n, rfl⟩ := Int.eq_ofNat_of_zero_le h0
    obtain ⟨x, hout, hin, hlist, hnone⟩ := datetime_back hexact (show n ≤ 100000000000 by omega) mode
    refine ⟨user_unit, x, huser, hout, hlist, ?_⟩
    rcases hnone with ⟨rfl, rfl⟩ | hnone
    · exact Or.inl ⟨rfl, rfl, rfl⟩
    refine Or.inr ⟨hnone, ?_⟩
    intro element helement _
    refine ⟨.int n, ?_, rfl⟩
    unfold encode_value
    rw [helement]
    simp only [ne_eq, not_true_eq_false, decide_false, applyIf_false, Option.isSome_none,
      applyIf_true, hin, bind, Except.bind]
    exact round_int_type rfl n

end

/-! ## Keys -/

theorem user_unit_nameable {user_temp : Text} (htemp : user_temp ∈ temperatures)
    {unit : UnitType} (hset : unit ≠ .NotSet) {user_unit : Text}
    (h : to_user_unit (converter user_temp) unit.Name = .ok user_unit) : Nameable user_unit := by
  by_cases hvolt : unit = .Volt
  · subst hvolt
    exact absurd h (fun h => nomatch h)
  · obtain ⟨s, hs, hmapping⟩ := mapping_of_unit hvolt
    have hname : unit.Name ≠ "NotSet" := by
      cases unit
      case NotSet => exact absurd rfl hset
      all_goals decide
    rw [to_user_unit, hmapping] at h
    cases h
    exact format_nameable _ hs user_temp htemp hname

theorem postfixed_nameable {unit : Text} (h : Nameable unit) :
    (unit ++ [']']).takeWhile (fun c => c ∉ symbols ∧ c ≠ ',') = unit := by
  rw [List.takeWhile_append_of_pos]
  · simp [symbols]
  · intro c hc
    have hno := h.2 c hc
    have hall : "[]<>,".toList = symbols ++ [','] := by decide
    rw [hall, List.mem_append, List.mem_singleton, not_or] at hno
    exact decide_eq_true hno

/-- The key of a decoded value is split into the name of its field and the unit. -/
theorem splitKey_decodedKey {name user_unit : Text} (hname : Plain name) (mode : ReadMode)
    (opts : FieldOpts) (hunit : opts.unit ≠ .NotSet → Nameable user_unit) :
    ∃ postfixed, splitKey (decodedKey mode opts user_unit name) = .ok (name, postfixed) ∧
      (mode = .LOGGED → opts.unit ≠ .NotSet → postfixed = user_unit) := by
  unfold decodedKey metadata_opt
  by_cases hmode : mode = .LOGGED
  · rw [if_pos hmode]
    by_cases hset : opts.unit ≠ .NotSet
    · refine ⟨_, ?_, fun _ _ => postfixed_nameable (hunit hset)⟩
      simp only [if_pos hset, List.append_assoc, List.cons_append]
      exact splitKey_plain hname (by rintro c ⟨⟩; decide)
    · simp only [if_neg hset]
      cases opts.objtype with
      | none => exact ⟨[], splitKey_name hname, fun _ h => absurd h hset⟩
      | some link_type =>
        have hhead : ∀ c, ('<' :: (link_type ++ ['>'])).head? = some c → c ∈ symbols := by
          rintro c ⟨⟩
          decide
        have hsplit := splitKey_plain hname hhead
        exact ⟨_, by simpa only [List.append_assoc, List.cons_append] using hsplit,
          fun _ h => absurd h hset⟩
  · rw [if_neg hmode]
    exact ⟨[], splitKey_name hname, fun h => absurd h hmode⟩

/-! ## What came back -/

mutual

/-- What came back of the content of a message: each field, where a zero may be missing. -/
def keptItems (pool : Pool) (message : Text) (raw back : Dict) : Prop :=
  match raw with
  | [] => True
  | (k, v) :: raw =>
    (match fields_by_name (pool.messages message) k with
      | some field => (∀ w, (k, w) ∈ back → keptValue pool field v w) ∧
        (k ∈ back.map (·.1) ∨
          (field.message_type = none ∧ field.label_repeated = false ∧ v = .int 0))
      | none => False) ∧ keptItems pool message raw back

def keptValue (pool : Pool) (field : FieldDescriptor) (v w : Value) : Prop :=
  match v, w with
  | .dict kvs, .dict lws =>
    match field.message_type, field.label_repeated with
    | none, _ => False
    | some m, false => (lws.map (·.1)).Nodup ∧ (∀ q ∈ lws, q.1 ∈ kvs.map (·.1)) ∧
      keptItems pool m kvs lws
    | some m, true =>
      match valueMessage pool m with
      | some message => keptMap pool message kvs lws
      | none => False
  | .list vs, .list ws => keptList pool field vs ws
  | .dict _, _ => False
  | .list _, _ => False
  | v, w => keptScalar field.type v w

def keptList (pool : Pool) (field : FieldDescriptor) (vs ws : List Value) : Prop :=
  match vs, ws with
  | [], [] => True
  | v :: vs, w :: ws => keptElement pool field v w ∧ keptList pool field vs ws
  | _, _ => False

def keptElement (pool : Pool) (field : FieldDescriptor) (v w : Value) : Prop :=
  match field.message_type with
  | none => keptScalar field.type v w
  | some m => keptChild pool m v w

def keptMap (pool : Pool) (message : Text) (kvs lws : Dict) : Prop :=
  match kvs, lws with
  | [], [] => True
  | (k, v) :: kvs, (l, w) :: lws => k = l ∧ keptChild pool message v w ∧ keptMap pool message kvs lws
  | _, _ => False

def keptChild (pool : Pool) (message : Text) (v w : Value) : Prop :=
  match v, w with
  | .dict kvs, .dict lws => (lws.map (·.1)).Nodup ∧ (∀ q ∈ lws, q.1 ∈ kvs.map (·.1)) ∧
    keptItems pool message kvs lws
  | _, _ => False

end

/-- The content of a message is what it was, but for zeros that are missing. -/
def Kept (pool : Pool) (message : Text) (raw back : Dict) : Prop :=
  (back.map (·.1)).Nodup ∧ (∀ q ∈ back, q.1 ∈ raw.map (·.1)) ∧ keptItems pool message raw back

theorem keptItems_iff {pool : Pool} {message : Text} {raw back : Dict} :
    keptItems pool message raw back ↔ ∀ p ∈ raw, ∃ field,
      fields_by_name (pool.messages message) p.1 = some field ∧
        (∀ w, (p.1, w) ∈ back → keptValue pool field p.2 w) ∧
          (p.1 ∈ back.map (·.1) ∨
            (field.message_type = none ∧ field.label_repeated = false ∧ p.2 = .int 0)) := by
  induction raw with
  | nil => simp [keptItems]
  | cons p raw ih =>
    obtain ⟨k, v⟩ := p
    rw [keptItems, ih, List.forall_mem_cons]
    cases fields_by_name (pool.messages message) k <;> simp

theorem keptList_of_forall₂ {pool : Pool} {field : FieldDescriptor} {vs ws : List Value}
    (h : List.Forall₂ (keptElement pool field) vs ws) : keptList pool field vs ws := by
  induction h with
  | nil => simp [keptList]
  | cons hv _ ih =>
    rw [keptList]
    exact ⟨hv, ih⟩

theorem keptMap_of_forall₂ {pool : Pool} {message : Text} {kvs lws : Dict}
    (h : List.Forall₂ (fun p q => p.1 = q.1 ∧ keptChild pool message p.2 q.2) kvs lws) :
    keptMap pool message kvs lws := by
  induction h with
  | nil => simp [keptMap]
  | cons hv _ ih =>
    rw [keptMap]
    exact ⟨hv.1, hv.2, ih⟩

/-! ## The walk out and back -/

section
variable {pool : Pool} {env : Packages} {user_temp : Text} {mode : ReadMode}

/-- Values that come back: no zero that is reported as null, or left out of a list. -/
def returnable (field : FieldDescriptor) (v : Value) : Prop :=
  rawScalar field.type v ∧ (field.opts.null_if_zero = true → isZero v = false) ∧
    (field.label_repeated = true → field.opts.omit_if_zero = true → isZero v = false)

theorem walkValue_leaf {visit : Visit} {field : FieldDescriptor} (h : field.message_type = none)
    (address : Address) (v : Value) : walkValue pool visit field address v = .ok v := by
  cases v <;> simp [walkValue, walkScalar, h]

variable (maskFields : List MaskField) (hexact : Exact env user_temp)

/-- A value is decoded without a mask, then encoded. -/
def decodeAll (env : Packages) (user_temp : Text) (mode : ReadMode)
    (maskFields : List MaskField) : Visit :=
  decodeElement env (converter user_temp) mode false .NO_MASK maskFields

def encodeAll (env : Packages) (user_temp : Text) : Visit :=
  encodeElement env (converter user_temp) false

/-- What an entry of a field is in the end. -/
def EntryBack (pool : Pool) (field : FieldDescriptor) (v : Value) (out : Option (Text × Value)) :
    Prop :=
  match out with
  | none => field.message_type = none ∧ field.label_repeated = false ∧ v = .int 0
  | some r => r.1 = field.name ∧ keptValue pool field v r.2

/-- What is encoded of an entry that was decoded. -/
def OutBack (pool : Pool) (env : Packages) (user_temp : Text) (message : Text)
    (field : FieldDescriptor) (v : Value) (out : Option (Text × Value)) : Prop :=
  match out with
  | none => EntryBack pool field v none
  | some q => ∀ parent, ∃ out, visitEntry pool (encodeAll env user_temp) (some message) parent q =
      .ok out ∧ EntryBack pool field v out

/-- An entry is decoded, and encoded again, without what is ignored. -/
def EntryTrip (pool : Pool) (env : Packages) (user_temp : Text) (mode : ReadMode)
    (maskFields : List MaskField) (message : Text) (field : FieldDescriptor) (v : Value) : Prop :=
  ∀ parent, ∃ out, visitEntry pool (decodeAll env user_temp mode maskFields) (some message) parent
      (field.name, v) = .ok out ∧ (∀ q, out = some q → baseOf q.1 = field.name) ∧
    OutBack pool env user_temp message field (unignoredValue pool field v) out

theorem keptValue_scalar {field : FieldDescriptor} {v w : Value} (hraw : rawScalar field.type v) :
    keptValue pool field v w = keptScalar field.type v w := by
  cases v
  case list => exact absurd hraw not_rawScalar_list
  case dict => exact absurd hraw (by cases field.type <;> exact id)
  all_goals cases w <;> rw [keptValue] <;> simp

theorem isZero_int {i : Int} (h : isZero (.int i) = true) : i = 0 := by
  unfold isZero at h
  simpa only [number?, decide_eq_true_eq, Option.some.injEq, PyFloat.fin.injEq,
    Int.cast_eq_zero] using h

/-- Only numbers may be left out, or be null, where they are zero. -/
theorem zero_of_isZero {type : FieldType} {repeated : Bool} {opts : FieldOpts}
    (hplaced : Placed type repeated opts)
    (hopts : opts.omit_if_zero = true ∨ opts.null_if_zero = true) {v : Value}
    (hraw : rawScalar type v) (hzero : isZero v = true) : v = .int 0 := by
  have hint : ∃ i, v = .int i := by
    cases hplaced
    case number _ htype =>
      simp only [List.mem_cons, List.not_mem_nil, or_false] at htype
      exact rawScalar_int htype hraw
    case link => exact rawScalar_int (Or.inr rfl) hraw
    all_goals rcases hopts with h | h <;> cases h
  obtain ⟨i, rfl⟩ := hint
  rw [isZero_int hzero]

theorem not_stripped {opts : FieldOpts} (h : opts.ignored = false) :
    stripped false opts = false ∧ ∀ mode, filtered mode false opts = false := by
  simp [stripped, filtered, h]

/-- A field with one value that is no message. -/
theorem scalar_entry (hexact : Exact env user_temp) {message : Text} {field : FieldDescriptor}
    (hplaced : Placed field.type field.label_repeated field.opts) (hname : Plain field.name)
    (hfield : fields_by_name (pool.messages message) field.name = some field)
    (hignored : field.opts.ignored = false) (hleaf : field.message_type = none)
    (hsingle : field.label_repeated = false) {v : Value} (hraw : returnable field v) :
    EntryTrip pool env user_temp mode maskFields message field v := by
  intro parent
  rw [unignoredValue_leaf hleaf]
  obtain ⟨user_unit, x, huser, htrip⟩ := scalar_trip hexact hplaced mode hraw.1 hraw.2.1
  have hlist : ∀ vs, v ≠ .list vs := by
    rintro vs rfl
    exact not_rawScalar_list hraw.1
  obtain ⟨postfixed, hsplit, hpostfixed⟩ := splitKey_decodedKey hname mode field.opts
    fun hset => user_unit_nameable hexact.temp hset huser
  rw [visitEntry_eq pool _ parent (splitKey_name hname) hfield (walkValue_leaf hleaf _ v)]
  unfold decodeAll
  rw [decodeElement_scalar ((not_stripped hignored).2 mode) huser hlist]
  by_cases hzero : (field.opts.omit_if_zero && isZero v) = true
  · refine ⟨none, by rw [if_pos hzero], (fun q h => nomatch h), hleaf, hsingle, ?_⟩
    rw [Bool.and_eq_true] at hzero
    exact zero_of_isZero hplaced (Or.inl hzero.1) hraw.1 hzero.2
  · refine ⟨some (decodedKey mode field.opts user_unit field.name, x), ?_, ?_, ?_⟩
    · rw [if_neg hzero, show excludes .NO_MASK maskFields _ = false from rfl, htrip.decoded]
      rfl
    · rintro q ⟨⟩
      exact (splitKey_base hsplit).symm
    · intro parent
      rw [visitEntry_eq pool _ parent hsplit hfield (walkValue_leaf hleaf _ x)]
      unfold encodeAll
      rcases htrip.encoded with ⟨rfl, rfl, -⟩ | ⟨hnone, hencode⟩
      · exact ⟨none, encodeElement_none, hleaf, hsingle, rfl⟩
      · rw [encodeElement_scalar (not_stripped hignored).1 htrip.not_list hnone]
        obtain ⟨w, hw, hkept⟩ := hencode
          { field, key := decodedKey mode field.opts user_unit field.name, base_key := field.name
            postfixed
            address := elementAddress field (parent ++ [some field.number]) x } rfl hpostfixed
        exact ⟨some (field.name, w), by rw [hw]; rfl, rfl, by rwa [keptValue_scalar hraw.1]⟩

/-- A repeated field of values that are no messages. -/
theorem list_entry (hexact : Exact env user_temp) {message : Text} {field : FieldDescriptor}
    (hplaced : Placed field.type field.label_repeated field.opts) (hname : Plain field.name)
    (hfield : fields_by_name (pool.messages message) field.name = some field)
    (hignored : field.opts.ignored = false) (hleaf : field.message_type = none)
    (hrepeated : field.label_repeated = true) {vs : List Value}
    (hraw : ∀ v ∈ vs, returnable field v) :
    EntryTrip pool env user_temp mode maskFields message field (.list vs) := by
  intro parent
  rw [unignoredValue_leaf hleaf]
  obtain ⟨user_unit, huser⟩ := to_user_unit_ok hplaced user_temp
  have hkeep : (if field.opts.omit_if_zero then vs.filter (! isZero ·) else vs) = vs := by
    split
    · rename_i homit
      refine List.filter_eq_self.mpr fun v hv => ?_
      rw [(hraw v hv).2.2 hrepeated homit]
      rfl
    · rfl
  -- each element, out and back
  obtain ⟨xs, hxs, htrips⟩ := mapM_forall₂ (l := vs)
    (f := decode_value env (converter user_temp) mode field.opts false user_unit)
    (R := Trip env user_temp field mode user_unit) (by
      intro v hv
      obtain ⟨user_unit', x, huser', htrip⟩ :=
        scalar_trip hexact hplaced mode (hraw v hv).1 (hraw v hv).2.1
      rw [huser] at huser'
      cases huser'
      exact ⟨x, htrip.decoded, htrip⟩)
  have hencoded : ∀ x ∈ xs, isNone x = false ∧ ∃ v ∈ vs,
      Trip env user_temp field mode user_unit v x := by
    intro x hx
    obtain ⟨v, hv, htrip⟩ := forall₂_right htrips hx
    rcases htrip.encoded with ⟨-, -, hsingle⟩ | ⟨hnone, -⟩
    · rw [hrepeated] at hsingle
      cases hsingle
    · exact ⟨hnone, v, hv, htrip⟩
  have hfilter : xs.filter (! isNone ·) = xs := by
    refine List.filter_eq_self.mpr fun x hx => ?_
    rw [(hencoded x hx).1]
    rfl
  obtain ⟨postfixed, hsplit, hpostfixed⟩ := splitKey_decodedKey hname mode field.opts
    fun hset => user_unit_nameable hexact.temp hset huser
  refine ⟨some (decodedKey mode field.opts user_unit field.name, .list xs), ?_, ?_, ?_⟩
  · rw [visitEntry_eq pool _ parent (splitKey_name hname) hfield (walkValue_leaf hleaf _ _)]
    unfold decodeAll
    rw [decodeElement_list ((not_stripped hignored).2 mode) huser, hkeep]
    simp only [show ∀ address, excludes .NO_MASK maskFields address = false from fun _ => rfl, hxs]
    rfl
  · rintro q ⟨⟩
    exact (splitKey_base hsplit).symm
  · intro parent
    rw [visitEntry_eq pool _ parent hsplit hfield (walkValue_leaf hleaf _ _)]
    unfold encodeAll
    rw [encodeElement_list (not_stripped hignored).1, hfilter]
    let element : OptionElement :=
      { field, key := decodedKey mode field.opts user_unit field.name, base_key := field.name
        postfixed, address := elementAddress field (parent ++ [some field.number]) (.list xs) }
    obtain ⟨ws, hws, hkept⟩ := mapM_of_forall₂
      (f := encode_value env (converter user_temp) element) (S := keptElement pool field) htrips (by
        intro v x htrip
        rcases htrip.encoded with ⟨-, -, hsingle⟩ | ⟨-, hencode⟩
        · rw [hrepeated] at hsingle
          cases hsingle
        · obtain ⟨w, hw, hkept⟩ := hencode element rfl hpostfixed
          refine ⟨w, hw, ?_⟩
          rw [keptElement, hleaf]
          exact hkept)
    refine ⟨some (field.name, .list ws), by rw [hws]; rfl, rfl, ?_⟩
    rw [keptValue]
    exact keptList_of_forall₂ hkept

/-! ## Messages -/

/-- A dict, or a list without nulls. -/
def Solid : Value → Prop
  | .dict _ => True
  | .list vs => ∀ v ∈ vs, isNone v = false
  | _ => False

/-- The value of a field of messages is walked out and back, without what is ignored. -/
def MessageTrip (pool : Pool) (env : Packages) (user_temp : Text) (mode : ReadMode)
    (maskFields : List MaskField) (field : FieldDescriptor) (v : Value) : Prop :=
  ∀ address, ∃ x, walkValue pool (decodeAll env user_temp mode maskFields) field address v = .ok x ∧
    Solid x ∧ ∀ address, ∃ y, walkValue pool (encodeAll env user_temp) field address x = .ok y ∧
      Solid y ∧ keptValue pool field (unignoredValue pool field v) y

/-- A message of a list or a map is walked out and back, without what is ignored. -/
def ChildTrip (pool : Pool) (env : Packages) (user_temp : Text) (mode : ReadMode)
    (maskFields : List MaskField) (message : Text) (v : Value) : Prop :=
  ∀ address, ∃ mid, walkChild pool (decodeAll env user_temp mode maskFields) (some message) address
      v = .ok (.dict mid) ∧ ∀ address, ∃ back, walkChild pool (encodeAll env user_temp)
        (some message) address (.dict mid) = .ok (.dict back) ∧
          keptChild pool message (unignoredChild pool message v) (.dict back)

theorem message_opts {repeated : Bool} {opts : FieldOpts} (h : Placed .MESSAGE repeated opts) :
    ∃ readonly logged stored ignored, opts = { readonly, logged, stored, ignored } := by
  cases h
  case plain readonly logged stored ignored _ => exact ⟨readonly, logged, stored, ignored, rfl⟩
  case number => simp_all

theorem decodedKey_plain (mode : ReadMode) {opts : FieldOpts} (hunit : opts.unit = .NotSet)
    (hobjtype : opts.objtype = none) (user_unit key : Text) :
    decodedKey mode opts user_unit key = key := by
  unfold decodedKey
  split
  · rfl
  · rw [if_neg (not_not.mpr hunit), hobjtype]

theorem decode_message {element : OptionElement} {readonly logged stored : Bool}
    (hopts : element.field.opts = { readonly, logged, stored }) {x : Value} (h : Solid x) :
    decodeAll env user_temp mode maskFields element x = .ok (some (element.key, x)) := by
  have huser : to_user_unit (converter user_temp) element.field.opts.unit.Name = .ok [] := by
    rw [hopts]
    rfl
  have hfilter : filtered mode false element.field.opts = false := by rw [hopts]; rfl
  have hvalue : ∀ v, decode_value env (converter user_temp) mode element.field.opts false [] v =
      .ok v := by
    intro v
    rw [hopts]
    rfl
  have hkey := decodedKey_plain mode (show element.field.opts.unit = .NotSet by rw [hopts])
    (show element.field.opts.objtype = none by rw [hopts]) [] element.key
  have homit : element.field.opts.omit_if_zero = false := by rw [hopts]
  unfold decodeAll
  cases x with
  | dict kvs =>
    rw [decodeElement_scalar hfilter huser (v := .dict kvs) (fun vs h => nomatch h), homit, hkey]
    simp only [Bool.false_and, Bool.false_eq_true, if_false, excludes, hvalue]
    rfl
  | list vs =>
    rw [decodeElement_list hfilter huser, homit, hkey]
    simp only [Bool.false_eq_true, if_false, excludes]
    rw [mapM_ok (g := id) fun v _ => hvalue v, List.map_id]
    rfl
  | none | bool | int | float | str => exact absurd h id

/-- The visit of a field of messages changes nothing but the parts. -/
theorem encode_message {cv : UnitConverter} {element : OptionElement}
    {readonly logged stored ignored : Bool}
    (hopts : element.field.opts = { readonly, logged, stored, ignored })
    (htype : element.field.type = .MESSAGE) {filter_values : Bool}
    (hstrip : stripped filter_values element.field.opts = false) {x : Value} (h : Solid x) :
    encodeElement env cv filter_values element x = .ok (some (element.base_key, x)) := by
  have hvalue : ∀ v, encode_value env cv element v = .ok v :=
    fun v => encode_plain hopts (by rw [htype]; rfl) v
  cases x with
  | dict kvs =>
    rw [encodeElement_scalar hstrip (v := .dict kvs) (fun vs h => nomatch h) rfl, hvalue]
    rfl
  | list vs =>
    have hfilter : vs.filter (! isNone ·) = vs :=
      List.filter_eq_self.mpr fun v hv => by rw [h v hv]; rfl
    rw [encodeElement_list hstrip, hfilter, mapM_ok (g := id) fun v _ => hvalue v, List.map_id]
    rfl
  | none | bool | int | float | str => exact absurd h id

/-- A field of messages: the visit changes nothing but the parts. -/
theorem message_entry {message : Text} {field : FieldDescriptor} (htype : field.type = .MESSAGE)
    (hplaced : Placed field.type field.label_repeated field.opts) (hname : Plain field.name)
    (hfield : fields_by_name (pool.messages message) field.name = some field)
    (hignored : field.opts.ignored = false) {v : Value}
    (htrip : MessageTrip pool env user_temp mode maskFields field v) :
    EntryTrip pool env user_temp mode maskFields message field v := by
  intro parent
  obtain ⟨x, hx, hsolid, hback⟩ := htrip (parent ++ [some field.number])
  rw [htype] at hplaced
  obtain ⟨readonly, logged, stored, ignored, hopts⟩ := message_opts hplaced
  obtain rfl : ignored = false := by rwa [hopts] at hignored
  refine ⟨some (field.name, x), ?_, ?_, ?_⟩
  · rw [visitEntry_eq pool _ parent (splitKey_name hname) hfield hx]
    exact decode_message maskFields hopts hsolid
  · rintro q ⟨⟩
    exact (splitKey_base (splitKey_name hname)).symm
  · intro parent
    obtain ⟨y, hy, hsolid, hkept⟩ := hback (parent ++ [some field.number])
    rw [visitEntry_eq pool _ parent (splitKey_name hname) hfield hy]
    exact ⟨some (field.name, y), encode_message hopts htype (not_stripped hignored).1 hsolid, rfl,
      hkept⟩

/-- An ignored field is left out. -/
theorem ignored_entry {message : Text} {field : FieldDescriptor} (hname : Plain field.name)
    (hfield : fields_by_name (pool.messages message) field.name = some field)
    (hignored : field.opts.ignored = true) (hleaf : field.message_type = none)
    (parent : Address) (v : Value) :
    visitEntry pool (decodeAll env user_temp mode maskFields) (some message) parent
      (field.name, v) = .ok none := by
  have hfilter : filtered mode false field.opts = true := by
    unfold filtered
    rw [hignored, Bool.true_or]
  rw [visitEntry_eq pool _ parent (splitKey_name hname) hfield (walkValue_leaf hleaf _ v)]
  unfold decodeAll decodeElement
  simp only [hfilter, if_true]
  rfl

/-- The messages are as the compiled ones, and no field of messages is ignored. -/
structure LeavesIgnored (pool : Pool) : Prop extends WellPlaced pool where
  ignored_leaf : ∀ message, ∀ field ∈ pool.messages message, field.opts.ignored = true →
    field.message_type = none

/-- The messages are as the compiled ones, and no field is ignored. -/
structure Returnable (pool : Pool) : Prop extends WellPlaced pool where
  not_ignored : ∀ message, ∀ field ∈ pool.messages message, field.opts.ignored = false

theorem Returnable.leavesIgnored {pool : Pool} (h : Returnable pool) : LeavesIgnored pool where
  toWellPlaced := h.toWellPlaced
  ignored_leaf message field hfield hignored := by
    rw [h.not_ignored message field hfield] at hignored
    cases hignored

/-- What holds of a value in the induction over content: as a message of a list or a map, and as
the value of a field of messages. -/
def Trips (pool : Pool) (env : Packages) (user_temp : Text) (mode : ReadMode)
    (maskFields : List MaskField) (v : Value) : Prop :=
  (∀ message, contentChild pool returnable message v →
    ChildTrip pool env user_temp mode maskFields message v) ∧
  ∀ field message, field.message_type = some message → contentValue pool returnable field v →
    MessageTrip pool env user_temp mode maskFields field v

variable (hpool : LeavesIgnored pool)

include hpool hexact in
theorem entry_trip {message : Text} {field : FieldDescriptor}
    (hfield : fields_by_name (pool.messages message) field.name = some field)
    (hignored : field.opts.ignored = false) {v : Value}
    (hcontent : contentValue pool returnable field v)
    (htrips : Trips pool env user_temp mode maskFields v) :
    EntryTrip pool env user_temp mode maskFields message field v := by
  have hmem := fields_by_name_mem hfield
  have hplaced := hpool.placed message field hmem
  have hname := hpool.named message field hmem
  rcases hmessage : field.message_type with _ | m
  · rcases contentValue_leaf hmessage hcontent with ⟨hsingle, hraw⟩ | ⟨vs, rfl, hrepeated, hraw⟩
    · exact scalar_entry maskFields hexact hplaced hname hfield hignored hmessage hsingle hraw
    · exact list_entry maskFields hexact hplaced hname hfield hignored hmessage hrepeated hraw
  · have htype := (hpool.typed message field hmem).mpr (by rw [hmessage]; rfl)
    exact message_entry maskFields htype hplaced hname hfield hignored
      (htrips.2 field m hmessage hcontent)

/-- A message is kept where what is left are entries of the fields that they were read from, and
each entry is left, or may go. -/
theorem kept_of_entries {message : Text} {kvs back : Dict} (hnodup : (kvs.map (·.1)).Nodup)
    (hbases : (back.map fun r => baseOf r.1).Nodup)
    (hfrom : ∀ r ∈ back, ∃ p ∈ kvs, ∃ field,
      fields_by_name (pool.messages message) p.1 = some field ∧ EntryBack pool field p.2 (some r))
    (hto : ∀ p ∈ kvs, ∃ field, fields_by_name (pool.messages message) p.1 = some field ∧
      (EntryBack pool field p.2 none ∨ ∃ r ∈ back, r.1 = p.1)) : Kept pool message kvs back := by
  refine ⟨?_, ?_, keptItems_iff.mpr ?_⟩
  · refine List.Nodup.of_map baseOf ?_
    rwa [List.map_map]
  · intro r hr
    obtain ⟨p, hp, field, hfield, hname, -⟩ := hfrom r hr
    rw [hname, fields_by_name_name hfield]
    exact List.mem_map_of_mem hp
  · intro p hp
    obtain ⟨field, hfield, hleft⟩ := hto p hp
    refine ⟨field, hfield, ?_, ?_⟩
    · intro w hw
      obtain ⟨p', hp', field', hfield', hname, hvalue⟩ := hfrom _ hw
      rw [fields_by_name_name hfield'] at hname
      obtain rfl : p = p' := List.inj_on_of_nodup_map hnodup hp hp' hname
      rw [hfield] at hfield'
      cases hfield'
      exact hvalue
    · rcases hleft with hgone | ⟨r, hr, hkey⟩
      · exact Or.inr hgone
      · exact Or.inl (List.mem_map.mpr ⟨r, hr, hkey⟩)

include hpool hexact in
/-- The content of a message is walked out and back, where the values of its fields are. -/
theorem items_trip {message : Text} {kvs : Dict}
    (htrips : ∀ p ∈ kvs, Trips pool env user_temp mode maskFields p.2)
    (hcontent : contentItems pool returnable message kvs) (parent : Address) :
    ∃ mid, walkItems pool (decodeAll env user_temp mode maskFields) (some message) parent kvs kvs
        [] = .ok mid ∧ ∀ parent, ∃ back, walkItems pool (encodeAll env user_temp) (some message)
          parent mid mid [] = .ok back ∧
            Kept pool message (unignoredItems pool message kvs) back := by
  obtain ⟨hnodup, hfields⟩ := contentItems_iff.mp hcontent
  obtain ⟨hplain, hbases⟩ := contentItems_bases hpool.toWellPlaced hcontent
  -- two entries with one key are the same
  have hsame : ∀ p ∈ kvs, ∀ p' ∈ kvs, p.1 = p'.1 → p = p' :=
    fun p hp p' hp' heq => List.inj_on_of_nodup_map hnodup hp hp' heq
  obtain ⟨mid, hmid, hmidbases, hfrom, hto⟩ := walkItems_entries pool
    (decodeAll env user_temp mode maskFields) (some message) parent
    (R := fun p out => ∃ field, fields_by_name (pool.messages message) p.1 = some field ∧
      (∀ q, out = some q → baseOf q.1 = p.1 ∧ field.opts.ignored = false) ∧
        (field.opts.ignored = false →
          OutBack pool env user_temp message field (unignoredValue pool field p.2) out)) hbases (by
      rintro ⟨k, v⟩ hp
      obtain ⟨field, hfield, hvalue⟩ := hfields _ hp
      obtain rfl := fields_by_name_name hfield
      have hmem := fields_by_name_mem hfield
      by_cases hignored : field.opts.ignored = true
      · refine ⟨none, ignored_entry maskFields (hpool.named message field hmem) hfield hignored
          (hpool.ignored_leaf message field hmem hignored) parent v, by simp, field, hfield,
          by simp, fun hnot => ?_⟩
        cases hnot.symm.trans hignored
      · rw [Bool.not_eq_true] at hignored
        obtain ⟨out, hout, hbase, hback⟩ :=
          entry_trip maskFields hexact hpool hfield hignored hvalue (htrips _ hp) parent
        refine ⟨out, hout, ?_, field, hfield, fun q hq => ⟨hbase q hq, hignored⟩, fun _ => hback⟩
        intro q hq
        rw [hbase q hq]
        exact (hplain _ hp).2.symm)
  refine ⟨mid, hmid, fun parent => ?_⟩
  obtain ⟨back, hback, hbackbases, hbackfrom, hbackto⟩ := walkItems_entries pool
    (encodeAll env user_temp) (some message) parent
    (R := fun q out => ∃ p ∈ kvs, ∃ field,
      fields_by_name (pool.messages message) p.1 = some field ∧ baseOf q.1 = p.1 ∧
        field.opts.ignored = false ∧ EntryBack pool field (unignoredValue pool field p.2) out)
    hmidbases (by
      intro q hq
      obtain ⟨p, hp, field, hfield, hbase, hout⟩ := hfrom q hq
      obtain ⟨hbase, hignored⟩ := hbase q rfl
      obtain ⟨out, hvisit, hentry⟩ := hout hignored parent
      refine ⟨out, hvisit, ?_, p, hp, field, hfield, hbase, hignored, hentry⟩
      rintro r rfl
      rw [hbase, hentry.1, fields_by_name_name hfield]
      exact (hplain p hp).2)
  have hkeys := hnodup.sublist (unignoredItems_keys pool message kvs)
  refine ⟨back, hback, kept_of_entries hkeys hbackbases ?_ ?_⟩
  · intro r hr
    obtain ⟨q, -, p, hp, field, hfield, -, hignored, hentry⟩ := hbackfrom r hr
    exact ⟨_, mem_unignoredItems.mpr ⟨p, hp, field, hfield, hignored, rfl⟩, field, hfield, hentry⟩
  · intro p' hp'
    obtain ⟨p, hp, field, hfield, hignored, rfl⟩ := mem_unignoredItems.mp hp'
    rcases hto p hp with ⟨field', hfield', -, hout⟩ | ⟨q, hq, field', hfield', hbase, -⟩
    · cases hfield.symm.trans hfield'
      exact ⟨field, hfield, Or.inl (hout hignored)⟩
    · refine ⟨field, hfield, ?_⟩
      obtain ⟨hbase, -⟩ := hbase q rfl
      rcases hbackto q hq with ⟨p', hp', field', hfield', hbase', -, hentry⟩ |
        ⟨r, hr, p', hp', field', hfield', hbase', -, hname, -⟩
      · obtain rfl := hsame p hp p' hp' (hbase.symm.trans hbase')
        rw [hfield] at hfield'
        cases hfield'
        exact Or.inl hentry
      · rw [fields_by_name_name hfield'] at hname
        exact Or.inr ⟨r, hr, hname.trans (hbase'.symm.trans hbase)⟩

theorem Kept.child {message : Text} {kvs back : Dict}
    (h : Kept pool message (unignoredItems pool message kvs) back) :
    keptChild pool message (unignoredChild pool message (.dict kvs)) (.dict back) := by
  rw [unignoredChild, keptChild]
  exact h

/-- A message that is the value of a field. -/
theorem single_trip {field : FieldDescriptor} {message : Text}
    (hmessage : field.message_type = some message) (hsingle : field.label_repeated = false)
    {kvs : Dict} (h : ∀ address, ∃ mid, walkItems pool (decodeAll env user_temp mode maskFields)
      (some message) address kvs kvs [] = .ok mid ∧ ∀ address, ∃ back, walkItems pool
        (encodeAll env user_temp) (some message) address mid mid [] = .ok back ∧
          Kept pool message (unignoredItems pool message kvs) back) :
    MessageTrip pool env user_temp mode maskFields field (.dict kvs) := by
  intro address
  obtain ⟨mid, hmid, hback⟩ := h address
  refine ⟨.dict mid, ?_, trivial, fun address => ?_⟩
  · rw [walkValue]
    simp only [hmessage, hsingle, Bool.false_eq_true, if_false, hmid]
    rfl
  · obtain ⟨back, hback, hkept⟩ := hback address
    refine ⟨.dict back, ?_, trivial, ?_⟩
    · rw [walkValue]
      simp only [hmessage, hsingle, Bool.false_eq_true, if_false, hback]
      rfl
    · rw [unignoredValue]
      simp only [hmessage, hsingle]
      rw [keptValue]
      simp only [hmessage, hsingle]
      exact hkept

/-- A list of messages. -/
theorem repeated_trip {field : FieldDescriptor} {message : Text}
    (hmessage : field.message_type = some message) (hrepeated : field.label_repeated = true)
    {vs : List Value} (h : ∀ v ∈ vs, ChildTrip pool env user_temp mode maskFields message v) :
    MessageTrip pool env user_temp mode maskFields field (.list vs) := by
  intro address
  obtain ⟨xs, hxs, htrips⟩ := mapM_forall₂ fun v hv =>
    let ⟨mid, hmid, hback⟩ := h v hv (address ++ [none])
    (⟨.dict mid, hmid, mid, rfl, hback⟩ : ∃ x,
      walkChild pool (decodeAll env user_temp mode maskFields)
      (some message) (address ++ [none]) v = .ok x ∧ ∃ mid, x = .dict mid ∧ ∀ address, ∃ back,
        walkChild pool (encodeAll env user_temp) (some message) address (.dict mid) =
          .ok (.dict back) ∧ keptChild pool message (unignoredChild pool message v) (.dict back))
  refine ⟨.list xs, ?_, ?_, fun address => ?_⟩
  · rw [walkValue]
    simp only [hmessage, hrepeated, if_true, walkList_eq, hxs]
    rfl
  · intro x hx
    obtain ⟨v, -, mid, rfl, -⟩ := forall₂_right htrips hx
    rfl
  · obtain ⟨ys, hys, hkept⟩ := mapM_of_forall₂
      (f := walkChild pool (encodeAll env user_temp) (some message) (address ++ [none]))
      (S := fun v y => isNone y = false ∧
        keptElement pool field (unignoredChild pool message v) y) htrips (by
        rintro v x ⟨mid, rfl, hback⟩
        obtain ⟨back, hback, hkept⟩ := hback (address ++ [none])
        refine ⟨.dict back, hback, rfl, ?_⟩
        rw [keptElement, hmessage]
        exact hkept)
    refine ⟨.list ys, ?_, ?_, ?_⟩
    · rw [walkValue]
      simp only [hmessage, hrepeated, if_true, walkList_eq, hys]
      rfl
    · intro y hy
      obtain ⟨v, -, hsolid, -⟩ := forall₂_right hkept hy
      exact hsolid
    · rw [unignoredValue, hmessage]
      dsimp only
      rw [keptValue, unignoredList_eq]
      exact keptList_of_forall₂ (List.forall₂_map_left_iff.mpr (hkept.imp fun v y hy => hy.2))

/-- A map of messages. -/
theorem map_trip {field : FieldDescriptor} {entry message : Text}
    (hmessage : field.message_type = some entry) (hrepeated : field.label_repeated = true)
    (hentry : valueMessage pool entry = some message) {kvs : Dict}
    (h : ∀ p ∈ kvs, ChildTrip pool env user_temp mode maskFields message p.2) :
    MessageTrip pool env user_temp mode maskFields field (.dict kvs) := by
  intro address
  have hvalue := valueType_of_valueMessage pool hentry
  obtain ⟨mid, hmid, htrips⟩ := mapM_forall₂
    (f := fun p => (walkChild pool (decodeAll env user_temp mode maskFields) (some message)
      (address ++ [none]) p.2).map fun v => (p.1, v))
    (R := fun p q => p.1 = q.1 ∧ ∃ kvs, q.2 = .dict kvs ∧ ∀ address, ∃ back,
      walkChild pool (encodeAll env user_temp) (some message) address (.dict kvs) =
        .ok (.dict back) ∧
          keptChild pool message (unignoredChild pool message p.2) (.dict back)) (l := kvs) (by
    intro p hp
    obtain ⟨mid, hmid, hback⟩ := h p hp (address ++ [none])
    exact ⟨(p.1, .dict mid), by rw [hmid]; rfl, rfl, mid, rfl, hback⟩)
  refine ⟨.dict mid, ?_, trivial, fun address => ?_⟩
  · rw [walkValue]
    simp only [hmessage, hrepeated, if_true, hvalue, walkMap_eq, ok_bind, hmid]
    rfl
  · obtain ⟨back, hback, hkept⟩ := mapM_of_forall₂
      (f := fun p => (walkChild pool (encodeAll env user_temp) (some message)
        (address ++ [none]) p.2).map fun v => (p.1, v))
      (S := fun p q => p.1 = q.1 ∧
        keptChild pool message (unignoredChild pool message p.2) q.2) htrips (by
        rintro p ⟨k, v⟩ ⟨hkey, mid, rfl, hback⟩
        obtain ⟨back, hback, hkept⟩ := hback (address ++ [none])
        exact ⟨(k, .dict back), by rw [hback]; rfl, hkey, hkept⟩)
    refine ⟨.dict back, ?_, trivial, ?_⟩
    · rw [walkValue]
      simp only [hmessage, hrepeated, if_true, hvalue, walkMap_eq, ok_bind, hback]
      rfl
    · rw [unignoredValue]
      simp only [hmessage, hrepeated, hentry]
      rw [keptValue, unignoredMap_eq]
      simp only [hmessage, hrepeated, hentry]
      exact keptMap_of_forall₂ (List.forall₂_map_left_iff.mpr hkept)

include hpool hexact in
/-- Each value is walked out and back. -/
theorem trips (v : Value) : Trips pool env user_temp mode maskFields v := by
  induction v using value_induction with
  | dict kvs ih =>
    have hitems := fun message (hcontent : contentItems pool returnable message kvs) =>
      items_trip maskFields hexact hpool ih hcontent
    refine ⟨?_, ?_⟩
    · intro message hcontent address
      obtain ⟨_, ⟨⟩, hcontent⟩ := contentChild_dict hcontent
      obtain ⟨mid, hmid, hback⟩ := hitems message hcontent address
      refine ⟨mid, by rw [walkChild, hmid]; rfl, fun address => ?_⟩
      obtain ⟨back, hback, hkept⟩ := hback address
      exact ⟨back, by rw [walkChild, hback]; rfl, hkept.child⟩
    · intro field message hmessage hcontent
      rcases contentValue_message hmessage hcontent with ⟨_, ⟨⟩, hsingle, hcontent⟩ |
        ⟨_, ⟨⟩, -⟩ | ⟨_, m, ⟨⟩, hrepeated, hentry, -, hchildren⟩
      · exact single_trip maskFields hmessage hsingle (hitems message hcontent)
      · exact map_trip maskFields hmessage hrepeated hentry
          fun p hp => (ih p hp).1 m (hchildren p hp)
  | list vs ih =>
    refine ⟨fun message hcontent => ?_, ?_⟩
    · obtain ⟨_, ⟨⟩, -⟩ := contentChild_dict hcontent
    · intro field message hmessage hcontent
      rcases contentValue_message hmessage hcontent with ⟨_, ⟨⟩, -⟩ |
        ⟨_, ⟨⟩, hrepeated, hchildren⟩ | ⟨_, _, ⟨⟩, -⟩
      exact repeated_trip maskFields hmessage hrepeated
        fun v hv => (ih v hv).1 message (hchildren v hv)
  | none | bool | int | float | str =>
    refine ⟨fun message hcontent => ?_, ?_⟩
    · obtain ⟨_, ⟨⟩, -⟩ := contentChild_dict hcontent
    · intro field message hmessage hcontent
      rcases contentValue_message hmessage hcontent with ⟨_, h, -⟩ | ⟨_, h, -⟩ | ⟨_, _, h, -⟩ <;>
        cases h

end

/-- Content that is read is written back as it was: `post_decode`, with typed objects or with
postfixed keys, and `pre_encode`. -/
theorem content_is_written_back {pool : Pool} (hpool : Returnable pool) {env : Packages}
    {user_temp : Text} (hexact : Exact env user_temp) (mode : ReadMode) {message : Text}
    {payload : DecodedPayload} {raw : Dict} (hraw : payload.content = some raw)
    (hmask : payload.maskMode = .NO_MASK)
    (hcontent : contentItems pool returnable message raw) :
    ∃ decoded, post_decode env (converter user_temp) pool message payload mode false =
      .ok decoded ∧ ∃ encoded, pre_encode env (converter user_temp) pool message decoded false =
        .ok encoded ∧ ∃ back, encoded.content = some back ∧ Kept pool message raw back := by
  have htrips : ∀ p ∈ raw, Trips pool env user_temp mode payload.maskFields p.2 :=
    fun p _ => trips payload.maskFields hexact hpool.leavesIgnored p.2
  obtain ⟨mid, hmid, hback⟩ :=
    items_trip payload.maskFields hexact hpool.leavesIgnored htrips hcontent []
  obtain ⟨back, hback, hkept⟩ := hback []
  rw [unignoredItems_eq hpool.not_ignored
    (fun p _ => (unignored_eq hpool.not_ignored p.2).1) hcontent] at hkept
  refine ⟨{ payload with content := some mid }, ?_, ?_⟩
  · unfold post_decode contentOf
    simp only [hraw, hmask, ok_bind]
    unfold decodeAll at hmid
    rw [hmid]
    rfl
  · unfold encodeAll at hback
    unfold pre_encode contentOf
    simp only [hmask, ok_bind, hback]
    exact ⟨_, rfl, back, rfl, hkept⟩

/-- A message with a temperature, and a list of messages with a link and an id in hexadecimal. -/
def samplePool : Pool where
  messages := fun message =>
    if message = "Sample".toList then
      [{ name := "setting".toList, number := 1, type := .INT32
         opts := { unit := .Celsius, scale := 4096 } },
        { name := "parts".toList, number := 2, type := .MESSAGE, label_repeated := true
          message_type := some "Part".toList }]
    else if message = "Part".toList then
      [{ name := "targetId".toList, number := 1, type := .UINT32
         opts := { objtype := some "ActuatorInterface".toList, omit_if_zero := true } },
        { name := "address".toList, number := 2, type := .UINT64
          opts := { hexed := true, readonly := true } }]
    else []

theorem samplePool_returnable : Returnable samplePool := by
  have hfields : ∀ message, ∀ field ∈ samplePool.messages message,
      Placed field.type field.label_repeated field.opts ∧ Plain field.name ∧
        (field.type = .MESSAGE ↔ field.message_type.isSome = true) ∧
          field.opts.ignored = false := by
    intro message field hfield
    unfold samplePool at hfield
    simp only at hfield
    split at hfield
    · rcases List.mem_pair.mp hfield with rfl | rfl
      · exact ⟨.number _ _ _ _ .Celsius 4096 _ _ (by decide) (by decide), by decide, by decide, rfl⟩
      · exact ⟨.plain _ _ _ _ (by decide), by decide, by decide, rfl⟩
    split at hfield
    · rcases List.mem_pair.mp hfield with rfl | rfl
      · exact ⟨.link _ _ _ _ _ true _, by decide, by decide, rfl⟩
      · exact ⟨.hexed true _ _ _, by decide, by decide, rfl⟩
    · cases hfield
  exact
    { placed := fun message field h => (hfields message field h).1
      named := fun message field h => (hfields message field h).2.1
      typed := fun message field h => (hfields message field h).2.2.1
      not_ignored := fun message field h => (hfields message field h).2.2.2 }

/-- Without a unit to convert to, Pint returns the amount. -/
def sameUnit : Packages where
  quantity := fun amount _ _ =>
    match amount with
    | .none => .error { kind := .TypeError }
    | v => .ok v
  ciso8601 := readUtc
  localOffset := fun _ => 0
  ipv6 := fun _ => none
  repr := fun _ => []

theorem sameUnit_exact : Exact sameUnit "degC".toList where
  temp := by decide
  units :=
    { there_and_back := by
        intro m _ v q hv hbool
        have hsame : ∀ unit target, sameUnit.quantity v unit target = .ok v := by
          cases v <;> first | exact fun _ _ => rfl | cases hv
        exact ⟨v, q, hsame _ _, hv, hbool, v, hsame _ _, hv⟩
      no_null := fun _ _ => ⟨_, rfl⟩ }
  dates := readUtc_reads

theorem content_is_written_back_sample :
    let raw : Dict := [("setting".toList, .int 83968),
      ("parts".toList, .list [.dict [("targetId".toList, .int 7),
        ("address".toList, .str (natText 40))], .dict [("targetId".toList, .int 0)]])]
    ∃ decoded, post_decode sameUnit (converter "degC".toList) samplePool "Sample".toList
      { blockId := 100, content := some raw } .DEFAULT false = .ok decoded ∧
      ∃ encoded, pre_encode sameUnit (converter "degC".toList) samplePool "Sample".toList decoded
        false = .ok encoded ∧
          ∃ back, encoded.content = some back ∧ Kept samplePool "Sample".toList raw back := by
  intro raw
  refine content_is_written_back samplePool_returnable sameUnit_exact .DEFAULT rfl rfl ?_
  have hlink : ∀ n : Nat, n < 2 ^ 32 → contentValue samplePool returnable
      ⟨"targetId".toList, 1, .UINT32, false, none,
        { objtype := some "ActuatorInterface".toList, omit_if_zero := true }⟩ (.int n) := by
    intro n hn
    rw [contentValue]
    · exact ⟨rfl, rfl, ⟨by omega, by omega⟩, by simp, by simp⟩
    all_goals simp
  have haddress : contentValue samplePool returnable
      ⟨"address".toList, 2, .UINT64, false, none, { hexed := true, readonly := true }⟩
      (.str (natText 40)) := by
    rw [contentValue]
    · exact ⟨rfl, rfl, ⟨40, by decide, rfl⟩, by simp, by simp⟩
    all_goals simp
  have hsetting : contentValue samplePool returnable
      ⟨"setting".toList, 1, .INT32, false, none, { unit := .Celsius, scale := 4096 }⟩
      (.int 83968) := by
    rw [contentValue]
    · exact ⟨rfl, rfl, ⟨by omega, by omega⟩, by simp, by simp⟩
    all_goals simp
  refine contentItems_iff.mpr ⟨by decide, List.forall_mem_cons.mpr ⟨⟨_, rfl, hsetting⟩, ?_⟩⟩
  refine List.forall_mem_singleton.mpr ⟨_, rfl, ?_⟩
  rw [contentValue]
  refine ⟨rfl, rfl, contentList_iff.mpr (List.forall_mem_cons.mpr ⟨?_, ?_⟩)⟩
  · rw [contentChild]
    exact contentItems_iff.mpr ⟨by decide, List.forall_mem_cons.mpr
      ⟨⟨_, rfl, hlink 7 (by decide)⟩, List.forall_mem_singleton.mpr ⟨_, rfl, haddress⟩⟩⟩
  · refine List.forall_mem_singleton.mpr ?_
    rw [contentChild]
    exact contentItems_iff.mpr ⟨by decide,
      List.forall_mem_singleton.mpr ⟨_, rfl, hlink 0 (by decide)⟩⟩

end devcon_spark.codec.content
