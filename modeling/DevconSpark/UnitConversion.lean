-- `unit_conversion`: user-configurable unit conversion. Pint is a parameter.
import DevconSpark.Descriptors
import DevconSpark.PyValue

open py_text py_number py_value devcon_spark.exceptions devcon_spark.codec.descriptor

namespace devcon_spark.codec.unit_conversion

def SYSTEM_TEMP : Text := "degC".toList

def FORMATS : List (String × String) :=
  [("NotSet", ""), ("Celsius", "{temp}"), ("InverseCelsius", "1 / {temp}"), ("Second", "second"),
    ("Minute", "minute"), ("Hour", "hour"), ("DeltaCelsius", "delta_{temp}"),
    ("DeltaCelsiusPerSecond", "delta_{temp} / second"),
    ("DeltaCelsiusPerMinute", "delta_{temp} / minute"),
    ("DeltaCelsiusPerHour", "delta_{temp} / hour"),
    ("DeltaCelsiusMultSecond", "delta_{temp} * second"),
    ("DeltaCelsiusMultMinute", "delta_{temp} * minute"),
    ("DeltaCelsiusMultHour", "delta_{temp} * hour"), ("Ohm", "ohm"), ("MilliBar", "millibar")]

/-- `s.format(temp=temp)` -/
def format (temp : Text) (s : String) : Text := replace "{temp}".toList temp s.toList

structure UnitMapping where
  key : String
  system_value : Text
  user_value : Text
  deriving DecidableEq

def derived_table (user_temp : Text) : List UnitMapping :=
  FORMATS.map fun (key, s) =>
    { key, system_value := format SYSTEM_TEMP s, user_value := format user_temp s }

structure UnitConverter where
  table : List UnitMapping

/-- `self._table[id]` -/
def UnitConverter.mapping (cv : UnitConverter) (id : String) : Except Exn UnitMapping :=
  match cv.table.find? (·.key = id) with
  | some m => .ok m
  | none => .error { kind := .KeyError, msg := quoted id }

/-- The converter of the service, for the temperature unit of the user. -/
def converter (user_temp : Text) : UnitConverter := { table := derived_table user_temp }

section
-- `Quantity(amount, unit).to(target).magnitude`
variable (quantity : (amount unit : Value) → (target : Text) → Except Exn Value)

variable (cv : UnitConverter)

def to_sys_value (amount : Value) (id : String) (custom : Value) : Except Exn Value := do
  let m ← cv.mapping id
  quantity amount (if truthy custom then custom else .str m.user_value) m.system_value

def to_user_value (amount : Value) (id : String) : Except Exn Value := do
  let m ← cv.mapping id
  quantity amount (.str m.system_value) m.user_value

def to_user_unit (id : String) : Except Exn Text := (cv.mapping id).map UnitMapping.user_value

end

/-! ## The units of the service -/

/-- The temperature units that the settings allow. -/
def temperatures : List Text := ["degC".toList, "degF".toList]

theorem format_of_unit (unit : UnitType) (h : unit ≠ .Volt) :
    (FORMATS.find? (·.1 = unit.Name)).isSome = true := by
  cases unit
  case Volt => exact absurd rfl h
  all_goals decide

/-- Each unit but the volt has an entry in the table. -/
theorem mapping_of_unit {unit : UnitType} (h : unit ≠ .Volt) :
    ∃ s, (unit.Name, s) ∈ FORMATS ∧ ∀ temp, (converter temp).mapping unit.Name =
      .ok { key := unit.Name, system_value := format SYSTEM_TEMP s
            user_value := format temp s } := by
  obtain ⟨⟨key, s⟩, hfind⟩ := Option.isSome_iff_exists.mp (format_of_unit unit h)
  have hkey : key = unit.Name := by simpa using List.find?_some hfind
  subst hkey
  refine ⟨s, List.mem_of_find?_eq_some hfind, fun temp => ?_⟩
  unfold UnitConverter.mapping converter derived_table
  rw [List.find?_map, Function.comp_def, hfind]
  rfl

/-- The name of a unit, in the postfix of a key: it has no character that ends it. -/
def Nameable (name : Text) : Prop := name ≠ [] ∧ ∀ c ∈ name, c ∉ "[]<>,".toList

instance (name : Text) : Decidable (Nameable name) := inferInstanceAs (Decidable (_ ∧ _))

theorem format_nameable : ∀ p ∈ FORMATS, ∀ temp ∈ temperatures,
    p.1 ≠ "NotSet" → Nameable (format temp p.2) := by
  decide +kernel

/-- What the service relies on in Pint: it converts numbers to the unit of the user and
back, exactly, and nothing that is no number. -/
structure ExactUnits (quantity : (amount unit : Value) → (target : Text) → Except Exn Value)
    (user_temp : Text) : Prop where
  there_and_back : ∀ m ∈ derived_table user_temp, ∀ v q, number? v = some (.fin q) →
    (∀ b, v ≠ .bool b) → ∃ w r, quantity v (.str m.system_value) m.user_value = .ok w ∧
      number? w = some (.fin r) ∧ (∀ b, w ≠ .bool b) ∧
      ∃ w', quantity w (.str m.user_value) m.system_value = .ok w' ∧ number? w' = some (.fin q)
  no_null : ∀ unit target, ∃ ex, quantity .none unit target = .error ex

end devcon_spark.codec.unit_conversion
