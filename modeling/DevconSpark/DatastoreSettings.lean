-- `SettingsStore`: the settings that the datastore holds, and the listeners to
-- what is changed in them.
import DevconSpark.Exceptions
import DevconSpark.PyDict
import Mathlib.Data.Rat.Defs

open py_dict devcon_spark.exceptions

namespace devcon_spark.datastore_settings

/-! ## JSON

A value of the datastore is compared, and else only looked into: it stands here for all that `==`
takes to be equal. `True`, `1` and `1.0` are one number, and the entries of an object stand in the
order of their keys. -/

inductive Number
  | fin (q : ℚ)
  | inf
  | neginf
  deriving DecidableEq

mutual

inductive Json
  | null
  | num (x : Number)
  | str (t : String)
  | list (vs : Elements)
  | dict (kvs : Entries)
  deriving DecidableEq

inductive Elements
  | nil
  | cons (v : Json) (vs : Elements)
  deriving DecidableEq

inductive Entries
  | nil
  | cons (k : String) (v : Json) (kvs : Entries)
  deriving DecidableEq

end

/-! ## Models -/

def GLOBAL_UNITS_ID : String := "units"

def GLOBAL_TIME_ZONE_ID : String := "timeZone"

structure DatastoreValue where
  namespace_ : String
  id : String
  /-- All other fields. -/
  extra : List (String × Json) := []
  deriving DecidableEq

structure DatastoreEvent where
  changed : List DatastoreValue := []

inductive Temperature
  | degC | degF
  deriving DecidableEq

structure StoredServiceSettingsValue extends DatastoreValue where
  enabled : Bool := true
  deriving DecidableEq

structure StoredUnitSettingsValue extends DatastoreValue where
  temperature : Temperature := .degC
  deriving DecidableEq

structure StoredTimezoneSettingsValue extends DatastoreValue where
  name : String := "Etc/UTC"
  posixValue : String := "UTC0"
  deriving DecidableEq

/-! ## Validation -/

/-- The field of a model: its default where it is not set. -/
def validateField {α : Type} (value : DatastoreValue) (field : String) (default : α)
    (parse : Json → Option α) (msg : String) : Except Exn α :=
  match get? value.extra field with
  | none => .ok default
  | some v =>
    match parse v with
    | some a => .ok a
    | none => .error { kind := .ValueError, msg }

def parseBool : Json → Option Bool
  | .num (.fin q) => if q = 0 then some false else if q = 1 then some true else none
  | .str t =>
    if t.toLower ∈ ["0", "off", "f", "false", "n", "no"] then some false
    else if t.toLower ∈ ["1", "on", "t", "true", "y", "yes"] then some true
    else none
  | _ => none

def parseTemperature : Json → Option Temperature
  | .str "degC" => some .degC
  | .str "degF" => some .degF
  | _ => none

def parseStr : Json → Option String
  | .str t => some t
  | _ => none

/-- What is left of the fields that a model does not know. -/
def without (value : DatastoreValue) (fields : List String) : DatastoreValue :=
  { value with extra := fields.foldl delItem value.extra }

def StoredServiceSettingsValue.model_validate (value : DatastoreValue) :
    Except Exn StoredServiceSettingsValue := do
  let enabled ← validateField value "enabled" true parseBool "Input should be a valid boolean"
  return { without value ["enabled"] with enabled }

def StoredUnitSettingsValue.model_validate (value : DatastoreValue) :
    Except Exn StoredUnitSettingsValue := do
  let temperature ← validateField value "temperature" .degC parseTemperature
    "Input should be 'degC' or 'degF'"
  return { without value ["temperature"] with temperature }

def StoredTimezoneSettingsValue.model_validate (value : DatastoreValue) :
    Except Exn StoredTimezoneSettingsValue := do
  let name ← validateField value "name" "Etc/UTC" parseStr "Input should be a valid string"
  let posixValue ← validateField value "posixValue" "UTC0" parseStr "Input should be a valid string"
  return { without value ["name", "posixValue"] with name, posixValue }

/-! ## The store -/

structure SettingsStore (Callback_ : Type) where
  /-- `config.name` -/
  name : String
  service_settings : StoredServiceSettingsValue
  unit_settings : StoredUnitSettingsValue
  timezone_settings : StoredTimezoneSettingsValue
  -- sets, in the order in which they are gone through
  service_listeners : List Callback_ := []
  global_listeners : List Callback_ := []

/-- What a handler does, in order. -/
inductive Happening (Callback_ : Type)
  | changed
  | called (cb : Callback_)
  deriving DecidableEq

structure Handling (Callback_ : Type) extends SettingsStore Callback_ where
  happened : List (Happening Callback_) := []

variable {Callback_ : Type}

abbrev Handler (Callback_ : Type) := ExceptT Exn (StateM (Handling Callback_))

/-- Settings that the store holds: under which id they come, and in which field they stand. -/
structure Cell (Callback_ S : Type) where
  id : String
  model_validate : DatastoreValue → Except Exn S
  get : SettingsStore Callback_ → S
  set : SettingsStore Callback_ → S → SettingsStore Callback_

def service_cell (name : String) : Cell Callback_ StoredServiceSettingsValue where
  id := name
  model_validate := StoredServiceSettingsValue.model_validate
  get := (·.service_settings)
  set s settings := { s with service_settings := settings }

def unit_cell : Cell Callback_ StoredUnitSettingsValue where
  id := GLOBAL_UNITS_ID
  model_validate := StoredUnitSettingsValue.model_validate
  get := (·.unit_settings)
  set s settings := { s with unit_settings := settings }

def timezone_cell : Cell Callback_ StoredTimezoneSettingsValue where
  id := GLOBAL_TIME_ZONE_ID
  model_validate := StoredTimezoneSettingsValue.model_validate
  get := (·.timezone_settings)
  set s settings := { s with timezone_settings := settings }

/-- Settings that differ from those in the store replace them. -/
def receive {S : Type} [DecidableEq S] (cell : Cell Callback_ S) (value : DatastoreValue) :
    Handler Callback_ Bool := do
  if value.id = cell.id then
    let settings ← liftExcept (cell.model_validate value)
    let handling ← get
    if settings ≠ cell.get handling.toSettingsStore then
      set ({ cell.set handling.toSettingsStore settings with
        happened := handling.happened ++ [.changed] } : Handling Callback_)
      return true
    else
      return false
  else
    return false

/-- The loop over what is changed. The result is whether anything is. -/
def receiveAll (turn : DatastoreValue → Handler Callback_ Bool) :
    List DatastoreValue → Handler Callback_ Bool
  | [] => return false
  | value :: values => do
    let dirty ← turn value
    let later ← receiveAll turn values
    return dirty || later

def notify (listeners : List Callback_) : Handler Callback_ Unit :=
  modify fun handling =>
    { handling with happened := handling.happened ++ listeners.map Happening.called }

def service_turn (name : String) (value : DatastoreValue) : Handler Callback_ Bool :=
  receive (service_cell name) value

def global_turn (value : DatastoreValue) : Handler Callback_ Bool := do
  let units ← receive unit_cell value
  let timezone ← receive timezone_cell value
  return units || timezone

def on_service_store_event (evt : DatastoreEvent) : Handler Callback_ Unit := do
  let dirty ← receiveAll (service_turn (← get).name) evt.changed
  if dirty then
    notify (← get).service_listeners

def on_global_store_event (evt : DatastoreEvent) : Handler Callback_ Unit := do
  let dirty ← receiveAll global_turn evt.changed
  if dirty then
    notify (← get).global_listeners

end devcon_spark.datastore_settings
