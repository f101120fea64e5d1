-- The parser and the serializer of Sequence instructions: a line of text to
-- and from the content of an `Instruction` message.
import DevconSpark.Descriptors
import DevconSpark.TimeUtils

open py_text py_dict py_number py_value devcon_spark.exceptions
open devcon_spark.codec.descriptor devcon_spark.codec.time_utils

namespace devcon_spark.codec.bloxfield

def isType (name : String) : Value → Bool
  | .dict kvs => (get? kvs "__bloxtype".toList).any (isStr name.toList)
  | _ => false

def is_link (obj : Value) : Bool := isType "Link" obj

def is_quantity (obj : Value) : Bool := isType "Quantity" obj

end devcon_spark.codec.bloxfield

open devcon_spark.codec.bloxfield

namespace devcon_spark.codec.sequence

def RAW_PREFIX : Text := "__raw__".toList
def VAR_PREFIX : Text := "__var__".toList

/-! ## The compiled messages -/

/-- An argument of an instruction: a field for its value, and one for a variable. -/
structure Parameter where
  name : String
  type : FieldType
  opts : FieldOpts
  rawNumber : Nat
  varNumber : Nat

def Parameter.rawField (p : Parameter) : FieldDescriptor :=
  { name := RAW_PREFIX ++ p.name.toList, number := p.rawNumber, type := p.type
    opts := { p.opts with stored := true } }

def Parameter.varField (p : Parameter) : FieldDescriptor :=
  { name := VAR_PREFIX ++ p.name.toList, number := p.varNumber, type := .STRING
    opts := { stored := true } }

def target (objtype : String) (varNumber : Nat) : Parameter :=
  { name := "target", type := .UINT32, opts := { objtype := some objtype.toList }
    rawNumber := 1, varNumber }

def temperature (name : String) (unit : UnitType) (rawNumber varNumber : Nat) : Parameter :=
  { name, type := .INT32, opts := { unit, scale := 4096 }, rawNumber, varNumber }

/-- The messages of the instructions. -/
def parameters : String → List Parameter
  | "EnableDisable" => [target "EnablerInterface" 2]
  | "WaitDuration" =>
    [{ name := "duration", type := .UINT32, opts := { unit := .Second }
       rawNumber := 1, varNumber := 2 }]
  | "WaitUntil" =>
    [{ name := "time", type := .UINT32, opts := { datetime := true }
       rawNumber := 1, varNumber := 2 }]
  | "WaitTemperatureRange" =>
    [target "TempSensorInterface" 4, temperature "lower" .Celsius 2 5,
      temperature "upper" .Celsius 3 6]
  | "WaitTemperatureBoundary" =>
    [target "TempSensorInterface" 3, temperature "value" .Celsius 2 4]
  | "SetSetpoint" =>
    [target "SetpointSensorPairInterface" 3, temperature "setting" .Celsius 2 4]
  | "WaitSetpoint" =>
    [target "SetpointSensorPairInterface" 3, temperature "precision" .DeltaCelsius 2 4]
  | "SetDigital" =>
    [target "ActuatorDigitalInterface" 3,
      { name := "setting", type := .ENUM, opts := {}, rawNumber := 2, varNumber := 4 }]
  | "WaitDigital" => [target "ActuatorDigitalInterface" 2]
  | "WaitDigitalState" =>
    [target "DigitalInterface" 3,
      { name := "state", type := .ENUM, opts := {}, rawNumber := 2, varNumber := 4 }]
  | "SetPwm" =>
    [target "ActuatorAnalogInterface" 3,
      { name := "setting", type := .INT32, opts := { scale := 4096 }
        rawNumber := 2, varNumber := 4 }]
  | "TargetProfile" => [target "SetpointProfile" 2]
  | "TargetSequence" => [target "Sequence" 2]
  | _ => []

/-- The fields of the `Instruction` message: an opcode, its number, and its message. -/
def opcodes : List (String × Nat × String) :=
  [("RESTART", 1, "Restart"), ("ENABLE", 2, "EnableDisable"), ("DISABLE", 3, "EnableDisable"),
    ("WAIT", 20, "Wait"), ("WAIT_DURATION", 4, "WaitDuration"), ("WAIT_UNTIL", 5, "WaitUntil"),
    ("WAIT_TEMP_BETWEEN", 6, "WaitTemperatureRange"),
    ("WAIT_TEMP_NOT_BETWEEN", 7, "WaitTemperatureRange"),
    ("WAIT_TEMP_UNEXPECTED", 8, "WaitTemperatureRange"),
    ("WAIT_TEMP_ABOVE", 9, "WaitTemperatureBoundary"),
    ("WAIT_TEMP_BELOW", 10, "WaitTemperatureBoundary"), ("SET_SETPOINT", 11, "SetSetpoint"),
    ("WAIT_SETPOINT", 12, "WaitSetpoint"), ("WAIT_SETPOINT_ABOVE", 21, "WaitSetpoint"),
    ("WAIT_SETPOINT_BELOW", 22, "WaitSetpoint"), ("SET_DIGITAL", 13, "SetDigital"),
    ("WAIT_DIGITAL", 14, "WaitDigital"), ("WAIT_DIGITAL_EQUALS", 23, "WaitDigitalState"),
    ("SET_PWM", 15, "SetPwm"), ("START_PROFILE", 16, "TargetProfile"),
    ("WAIT_PROFILE", 17, "TargetProfile"), ("START_SEQUENCE", 18, "TargetSequence"),
    ("WAIT_SEQUENCE", 19, "TargetSequence"), ("COMMENT", 200, "Comment")]

def messageOf (name : String) : Descriptor :=
  if name = "Comment" then
    [{ name := "text".toList, number := 1, type := .STRING, opts := { stored := true } }]
  else (parameters name).flatMap fun p => [p.rawField, p.varField]

def INSTRUCTION_MSG_DESC : Descriptor :=
  opcodes.map fun (name, number, message) =>
    { name := name.toList, number, type := .MESSAGE, message_type := some message.toList
      opts := { stored := true } }

/-! ## From a line -/

def base_key (k : Text) : Text := removePrefix VAR_PREFIX (removePrefix RAW_PREFIX k)

def base_keys (keys : List Text) : List Text := (keys.map base_key).dedup

def lineError (line_num : Nat) (msg : Text) : Exn :=
  { kind := .ValueError
    msg := String.ofList ("line ".toList ++ natText line_num ++ ": ".toList ++ msg) }

/-- `\.?` -/
def point : Text → Text × Text
  | '.' :: r => (['.'], r)
  | r => ([], r)

/-- `d?[CF]` -/
def temperatureLetters : List Text := ["C".toList, "F".toList, "dC".toList, "dF".toList]

/-- `re.match(r'^(\d+\.?\d*)\s*(d?[CF])$', value)`. The parts of the pattern share no
characters, so each takes all it can get. -/
def matchTemperature (value : Text) : Option (Text × Text) :=
  let whole := value.takeWhile isDecimal
  let (dot, r) := point (value.dropWhile isDecimal)
  let frac := r.takeWhile isDecimal
  let u := (r.dropWhile isDecimal).dropWhile isSpace
  if whole ≠ [] ∧ u ∈ temperatureLetters then some (whole ++ dot ++ frac, u) else none

def link (id : Text) : Value :=
  .dict [("__bloxtype".toList, .str "Link".toList), ("id".toList, .str id)]

def quantity (value : Value) (unit : Text) : Value :=
  .dict [("__bloxtype".toList, .str "Quantity".toList), ("value".toList, value),
    ("unit".toList, .str unit)]

section
variable (timeparse : Text → Option ℚ) (repr : Value → Text)

/-- A value in the unit of its field. -/
def parseQuantity (line_num : Nat) (key value : Text) (unit : UnitType) : Except Exn Value :=
  match unit with
  | .Celsius | .DeltaCelsius =>
    match matchTemperature value with
    | none => .error (lineError line_num
        ("Invalid temperature argument: `".toList ++ key ++ '=' :: value ++ ['`']))
    | some (amount, u) =>
      let amount := Value.float ((float amount).getD .nan)
      let u := replace "F".toList "degF".toList
        (replace "C".toList "degC".toList (replace "d".toList "delta_".toList u))
      if decide (unit = .DeltaCelsius) ≠ decide ("delta_".toList <:+: u) then
        .error (lineError line_num
          ("Mismatch between delta and absolute temperature: `".toList ++ key ++ '=' ::
            str repr amount ++ u ++ ['`']))
      else .ok (quantity amount u)
  | .Second => do
    let td ← parse_duration timeparse repr (.value (.str value))
    return quantity (.int (total_seconds td)) "second".toList
  | unit => .error
    { kind := .NotImplementedError, msg := s!"{unit.Name} quantities not yet implemented" }

def parse_arg_entry (line_num : Nat) (opcode_arg_field_descs : Descriptor)
    (key value : Text) : Except Exn (Text × Value) :=
  let raw_key := RAW_PREFIX ++ key
  let var_key := VAR_PREFIX ++ key
  if '=' ∈ value then
    .error (lineError line_num
      ("Missing argument separator: `".toList ++ key ++ '=' :: value ++ ['`']))
  else match fields_by_name opcode_arg_field_descs raw_key with
    | none => .error (lineError line_num ("Invalid argument name: `".toList ++ key ++ ['`']))
    | some field_desc =>
      if value.head? = some '$' then .ok (var_key, .str value.tail)
      else if field_desc.opts.objtype.isSome then .ok (raw_key, link value)
      else if field_desc.opts.unit ≠ .NotSet then
        (parseQuantity timeparse repr line_num key (strip value) field_desc.opts.unit).map
          (raw_key, ·)
      else .ok (raw_key, ((float value).map Value.float).getD (.str value))

/-- `key=value`, stripped of white space and of the quotes of the value. -/
def splitArg (arg : Text) : Text × Text :=
  let (argk, argv) := partition '=' arg
  (strip argk, stripOf '\'' (strip argv))

/-- The comma-separated arguments of a line. -/
def argdictOf (args : Text) : List (Text × Text) :=
  dictOf (((args.splitOn ',').filter (· ≠ [])).map splitArg)

def parseArgs (line_num : Nat) (opcode_arg_field_descs : Descriptor)
    (argdict : List (Text × Text)) : Except Exn Dict := do
  let parsed := dictOf (← argdict.mapM fun (key, value) =>
    parse_arg_entry timeparse repr line_num opcode_arg_field_descs key value)
  -- a set, here in the order of the fields
  let missing := (base_keys (opcode_arg_field_descs.map (·.name))).filter
    (· ∉ base_keys (parsed.map (·.1)))
  if missing ≠ [] then
    throw (lineError line_num
      ("Missing arguments: `".toList ++ ", ".toList.intercalate missing ++ ['`']))
  else
    return parsed

def from_line (line : Text) (line_num : Nat) : Except Exn Dict :=
  if (lstrip line).head? = some '#' then
    .ok [("COMMENT".toList, .dict [("text".toList, .str (strip line).tail)])]
  else
    let (opcode, args) := partition ' ' line
    match opcodes.find? (·.1.toList = opcode) with
    | none => .error (lineError line_num ("Invalid instruction name: `".toList ++ opcode ++ ['`']))
    | some (_, _, message) =>
      (parseArgs timeparse repr line_num (messageOf message) (argdictOf args)).map fun parsed =>
        [(opcode, .dict parsed)]

/-! ## To a line -/

/-- Names with a space stand in quotes. -/
def quoted (value : Value) : Except Exn Value := do
  if ← contains [' '] value then return .str ('\'' :: str repr value ++ ['\'']) else return value

/-- `round(amount, 2)` -/
def round2 : Value → Except Exn Value
  | .bool b => .ok (.int (if b then 1 else 0))
  | .int i => .ok (.int i)
  | .float (.fin q) => .ok (.float (.fin (hundredths q / 100)))
  | .float x => .ok (.float x)
  | v => .error
    { kind := .TypeError, msg := s!"type {typeName v} doesn't define __round__ method" }

def quantityText (kvs : Dict) : Except Exn Text := do
  let amount ← getItem kvs "value".toList
  let unit ← getItem kvs "unit".toList
  if ← contains "deg".toList unit then
    match unit with
    | .str u =>
      let u := replace "degF".toList "F".toList
        (replace "degC".toList "C".toList (replace "delta_".toList "d".toList u))
      return str repr (← round2 amount) ++ u
    | v => throw (noAttribute v "replace")
  else if isStr "second".toList unit then
    serialize_duration timeparse repr (.timedelta (← timedelta amount))
  else
    throw { kind := .NotImplementedError
            msg := String.ofList (str repr unit ++ " quantities not yet implemented".toList) }

/-- What stands in a line for a raw value. -/
def lineValue (value : Value) : Except Exn Value :=
  match value with
  | .dict kvs =>
    if is_link value then getItem kvs "id".toList >>= quoted repr
    else if is_quantity value then (quantityText timeparse repr kvs).map Value.str
    else .ok value
  | .float x => round2 (.float x)
  | v => .ok v

/-- One turn of the loop of `to_line`. -/
def argText (key : Text) (value : Value) : Except Exn Text :=
  if VAR_PREFIX.isPrefixOf key then
    (quoted repr (.str ('$' :: str repr value))).map fun value =>
      removePrefix VAR_PREFIX key ++ '=' :: str repr value
  else
    (lineValue timeparse repr value).map fun value =>
      removePrefix RAW_PREFIX key ++ '=' :: str repr value

def to_line (args : Dict) : Except Exn Text :=
  match args with
  | [] => .error { kind := .IndexError, msg := "list index out of range" }
  | (opcode, argdict) :: _ =>
    if opcode = "COMMENT".toList then
      match argdict with
      | .dict kvs => .ok ('#' :: str repr ((get? kvs "text".toList).getD (.str [])))
      | v => .error (noAttribute v "get")
    else if ! truthy argdict then .ok opcode
    else match argdict with
      | .dict kvs => do
        let args ← kvs.mapM fun (key, value) => argText timeparse repr key value
        return opcode ++ ' ' :: ", ".toList.intercalate args
      | v => .error (noAttribute v "items")

/-! ## The data of a Sequence block -/

def mapInstructions (data : Dict) (f : Nat → Value → Except Exn Value) : Except Exn Dict :=
  match get? data "instructions".toList with
  | none => .ok data
  | some v => do
    let vs ← iterate v
    let ws ← vs.zipIdx.mapM fun (v, idx) => f idx v
    return setItem data "instructions".toList (.list ws)

/-- Converts instructions in given Sequence block from line to dict format. -/
def parse (data : Dict) : Except Exn Dict :=
  mapInstructions data fun idx s =>
    match s with
    | .str line => (from_line timeparse repr line (idx + 1)).map Value.dict
    | v => .error (noAttribute v "lstrip")

/-- Converts instructions in given Sequence block from dict to line format. -/
def serialize (data : Dict) : Except Exn Dict :=
  mapInstructions data fun _ d =>
    match d with
    | .dict kvs => (to_line timeparse repr kvs).map Value.str
    | v => .error (noAttribute v "items")

end

end devcon_spark.codec.sequence
