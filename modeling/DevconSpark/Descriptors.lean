-- The descriptors of protobuf messages, with the field options of Brewblox.
-- A message type is known by its name, and so are the values of an enum.
import DevconSpark.PyText

open py_text

namespace devcon_spark.codec.descriptor

inductive UnitType
  | NotSet | Celsius | InverseCelsius | Second | Minute | Hour
  | DeltaCelsius | DeltaCelsiusPerSecond | DeltaCelsiusPerMinute | DeltaCelsiusPerHour
  | DeltaCelsiusMultSecond | DeltaCelsiusMultMinute | DeltaCelsiusMultHour
  | MilliBar | Volt | Ohm
  deriving DecidableEq

def UnitType.Name : UnitType → String
  | .NotSet => "NotSet"
  | .Celsius => "Celsius"
  | .InverseCelsius => "InverseCelsius"
  | .Second => "Second"
  | .Minute => "Minute"
  | .Hour => "Hour"
  | .DeltaCelsius => "DeltaCelsius"
  | .DeltaCelsiusPerSecond => "DeltaCelsiusPerSecond"
  | .DeltaCelsiusPerMinute => "DeltaCelsiusPerMinute"
  | .DeltaCelsiusPerHour => "DeltaCelsiusPerHour"
  | .DeltaCelsiusMultSecond => "DeltaCelsiusMultSecond"
  | .DeltaCelsiusMultMinute => "DeltaCelsiusMultMinute"
  | .DeltaCelsiusMultHour => "DeltaCelsiusMultHour"
  | .MilliBar => "MilliBar"
  | .Volt => "Volt"
  | .Ohm => "Ohm"

/-- The types that occur in the compiled messages, as far as their values differ. -/
inductive FieldType
  | INT32 | INT64 | UINT32 | UINT64 | BOOL | ENUM | STRING | BYTES | MESSAGE
  deriving DecidableEq

structure FieldOpts where
  unit : UnitType := .NotSet
  scale : Nat := 0
  /-- The name of the block type. Type 0 is no type. -/
  objtype : Option Text := none
  hexed : Bool := false
  readonly : Bool := false
  logged : Bool := false
  stored : Bool := false
  hexstr : Bool := false
  ignored : Bool := false
  datetime : Bool := false
  ipv4address : Bool := false
  omit_if_zero : Bool := false
  null_if_zero : Bool := false
  deriving DecidableEq

structure FieldDescriptor where
  name : Text
  number : Nat
  type : FieldType
  label_repeated : Bool := false
  message_type : Option Text := none
  opts : FieldOpts := {}
  deriving DecidableEq

abbrev Descriptor := List FieldDescriptor

/-- The message types. A map is a repeated field of such an entry type, with a key and a value. -/
structure Pool where
  messages : Text → Descriptor
  map_entry : Text → Bool := fun _ => false

/-- `desc.fields_by_name.get(name)` -/
def fields_by_name (desc : Descriptor) (name : Text) : Option FieldDescriptor :=
  desc.find? (·.name = name)

theorem fields_by_name_name {desc : Descriptor} {name : Text} {field : FieldDescriptor}
    (h : fields_by_name desc name = some field) : field.name = name := by
  simpa using List.find?_some h

end devcon_spark.codec.descriptor
