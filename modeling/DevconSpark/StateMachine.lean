-- The state machine of the service: a status description for the API, and
-- one event for each status that a task can wait for.
import DevconSpark.Exceptions

open devcon_spark.exceptions

namespace devcon_spark.state_machine

/-! ## The status description -/

inductive DiscoveryType
  | all | usb | mdns | mqtt
  deriving DecidableEq

inductive DiscoveryKind
  | SIM | ADDRESS | USB | MDNS | MQTT | ALL
  deriving DecidableEq

inductive ConnectionKind
  | MOCK | SIM | USB | TCP | MQTT
  deriving DecidableEq

inductive ConnectionStatus
  | DISCONNECTED | CONNECTED | ACKNOWLEDGED | SYNCHRONIZED | UPDATING
  deriving DecidableEq

inductive FirmwareError
  | INCOMPATIBLE | MISMATCHED
  deriving DecidableEq

inductive IdentityError
  | INCOMPATIBLE | WILDCARD_ID
  deriving DecidableEq

structure FirmwareDescription where
  firmware_version : String
  proto_version : String
  firmware_date : String
  proto_date : String
  deriving DecidableEq

structure DeviceDescription where
  device_id : String
  deriving DecidableEq

structure ServiceDescription where
  name : String
  firmware : FirmwareDescription
  device : DeviceDescription
  deriving DecidableEq

structure ControllerDescription where
  system_version : String
  platform : String
  reset_reason : String
  firmware : FirmwareDescription
  device : DeviceDescription
  deriving DecidableEq

structure StatusDescription where
  enabled : Bool
  service : ServiceDescription
  controller : Option ControllerDescription
  address : Option String
  discovery_kind : DiscoveryKind
  connection_kind : Option ConnectionKind
  connection_status : ConnectionStatus
  firmware_error : Option FirmwareError
  identity_error : Option IdentityError
  deriving DecidableEq

/-- We only compare the first 8 characters of git hashes. -/
def truncate_version (v : String) : String := String.ofList (v.toList.take 8)

/-- The validators of the model: both versions are cut to 8 characters. -/
def FirmwareDescription.validated (d : FirmwareDescription) : FirmwareDescription :=
  { d with
    firmware_version := truncate_version d.firmware_version
    proto_version := truncate_version d.proto_version }

/-- Device ids are compared in lower case. What `str.lower` is, is a parameter. -/
def DeviceDescription.validated (lower : List Char → List Char) (d : DeviceDescription) :
    DeviceDescription :=
  { device_id := String.ofList (lower d.device_id.toList) }

/-! ## The configuration that the state machine reads -/

/-- The configuration of the service, and the `str.lower` of its Python: here of ASCII, of which
the ids of devices are. -/
structure ServiceConfig where
  name : String := ""
  device_id : Option String := none
  discovery : DiscoveryType := .all
  device_host : Option String := none
  mock : Bool := false
  simulation : Bool := false
  skip_version_check : Bool := false
  lower : List Char → List Char := List.map Char.toLower

structure FirmwareConfig where
  firmware_version : String
  firmware_date : String
  proto_version : String
  proto_date : String

/-! ## The state machine -/

structure StateMachine where
  status_desc : StatusDescription
  enabled_ev : Bool
  connected_ev : Bool
  acknowledged_ev : Bool
  synchronized_ev : Bool
  disconnected_ev : Bool
  updating_ev : Bool
  deriving DecidableEq

/-- `str(config.discovery).upper()` -/
def DiscoveryType.upper : DiscoveryType → DiscoveryKind
  | .all => .ALL
  | .usb => .USB
  | .mdns => .MDNS
  | .mqtt => .MQTT

/-- `if config.device_host` is false for an empty host too. -/
def truthy (s : Option String) : Bool := s.any (· ≠ "")

def discoveryKindOf (config : ServiceConfig) : DiscoveryKind :=
  if config.simulation || config.mock then .SIM
  else if truthy config.device_host then .ADDRESS
  else config.discovery.upper

/-- `StateMachine.__init__`: the initial state is disconnected. -/
def StateMachine.init (config : ServiceConfig) (fw_config : FirmwareConfig) : StateMachine where
  status_desc :=
    { enabled := false
      service :=
        { name := config.name
          firmware := FirmwareDescription.validated
            { firmware_version := fw_config.firmware_version
              proto_version := fw_config.proto_version
              firmware_date := fw_config.firmware_date
              proto_date := fw_config.proto_date }
          device := DeviceDescription.validated config.lower
            { device_id := config.device_id.getD "" } }
      controller := none
      address := none
      discovery_kind := discoveryKindOf config
      connection_kind := none
      connection_status := .DISCONNECTED
      firmware_error := none
      identity_error := none }
  enabled_ev := false
  connected_ev := false
  acknowledged_ev := false
  synchronized_ev := false
  disconnected_ev := true
  updating_ev := false

namespace StateMachine

def check_compatible (sm : StateMachine) : Except Exn Unit :=
  if sm.status_desc.firmware_error = some .INCOMPATIBLE then
    .error { kind := .IncompatibleFirmware }
  else if sm.status_desc.identity_error = some .INCOMPATIBLE then
    .error { kind := .InvalidDeviceId }
  else .ok ()

def set_enabled (sm : StateMachine) (enabled : Bool) : StateMachine :=
  { sm with status_desc := { sm.status_desc with enabled := enabled }, enabled_ev := enabled }

def is_enabled (sm : StateMachine) : Bool := sm.enabled_ev

def set_connected (sm : StateMachine) (connection_kind : ConnectionKind) (address : String) :
    StateMachine :=
  { sm with
    status_desc :=
      { sm.status_desc with
        address := some address
        connection_kind := some connection_kind
        connection_status := .CONNECTED }
    connected_ev := true
    acknowledged_ev := false
    synchronized_ev := false
    disconnected_ev := false }

def is_connected (sm : StateMachine) : Bool := sm.connected_ev

def firmwareErrorOf (config : ServiceConfig) (service : ServiceDescription)
    (controller : ControllerDescription) : Option FirmwareError :=
  if ¬ (service.firmware.proto_version = controller.firmware.proto_version ∨
      config.skip_version_check) then some .INCOMPATIBLE
  else if service.firmware.firmware_version ≠ controller.firmware.firmware_version then
    some .MISMATCHED
  else none

def identityErrorOf (service : ServiceDescription) (controller : ControllerDescription) :
    Option IdentityError :=
  if ¬ (service.device.device_id = controller.device.device_id ∨
      service.device.device_id = "") then some .INCOMPATIBLE
  else if service.device.device_id = "" then some .WILDCARD_ID
  else none

/-- Do not revert to acknowledged if we're already synchronized. For there to
be a meaningful change, there must have been a disconnect first. -/
def set_acknowledged (config : ServiceConfig) (sm : StateMachine)
    (controller : ControllerDescription) : StateMachine :=
  if sm.synchronized_ev then sm
  else
    { sm with
      status_desc :=
        { sm.status_desc with
          connection_status := .ACKNOWLEDGED
          controller := some controller
          firmware_error := firmwareErrorOf config sm.status_desc.service controller
          identity_error := identityErrorOf sm.status_desc.service controller }
      acknowledged_ev := true }

def is_acknowledged (sm : StateMachine) : Bool := sm.acknowledged_ev

def set_synchronized (sm : StateMachine) : Except Exn StateMachine :=
  if ¬ sm.acknowledged_ev then
    .error
      { kind := .RuntimeError
        msg := "Failed to set synchronized status: service is not acknowledged" }
  else
    .ok { sm with
      status_desc := { sm.status_desc with connection_status := .SYNCHRONIZED }
      synchronized_ev := true }

def is_synchronized (sm : StateMachine) : Bool := sm.synchronized_ev

def set_updating (sm : StateMachine) : StateMachine :=
  { sm with
    status_desc := { sm.status_desc with connection_status := .UPDATING }
    updating_ev := true }

def is_updating (sm : StateMachine) : Bool := sm.updating_ev

def set_disconnected (sm : StateMachine) : StateMachine :=
  { sm with
    status_desc :=
      { sm.status_desc with
        controller := none
        address := none
        connection_kind := none
        connection_status := .DISCONNECTED
        firmware_error := none
        identity_error := none }
    connected_ev := false
    acknowledged_ev := false
    synchronized_ev := false
    updating_ev := false
    disconnected_ev := true }

def is_disconnected (sm : StateMachine) : Bool := sm.disconnected_ev

end StateMachine

/-! ## The changes that other tasks make -/

/-- One call of a setter, by any task of the service. -/
inductive Op
  | set_enabled (enabled : Bool)
  | set_connected (connection_kind : ConnectionKind) (address : String)
  | set_acknowledged (controller : ControllerDescription)
  | set_synchronized
  | set_updating
  | set_disconnected
  deriving DecidableEq

/-- A `set_synchronized` that raises leaves the state machine as it was. -/
def StateMachine.apply (config : ServiceConfig) (sm : StateMachine) : Op → StateMachine
  | .set_enabled enabled => sm.set_enabled enabled
  | .set_connected connection_kind address => sm.set_connected connection_kind address
  | .set_acknowledged controller => sm.set_acknowledged config controller
  | .set_synchronized => sm.set_synchronized.toOption.getD sm
  | .set_updating => sm.set_updating
  | .set_disconnected => sm.set_disconnected

/-- The checks that a command makes first: no update, and nothing about the
controller that is incompatible. -/
def StateMachine.GateOpen (sm : StateMachine) : Prop :=
  sm.is_updating = false ∧ sm.check_compatible = .ok ()

instance (sm : StateMachine) : Decidable sm.GateOpen := inferInstanceAs (Decidable (_ ∧ _))

/-! ## A controller and a service that fit -/

def someFirmware : FirmwareDescription :=
  { firmware_version := "f0", proto_version := "p0", firmware_date := "", proto_date := "" }

def someController : ControllerDescription :=
  { system_version := "", platform := "esp32", reset_reason := "NONE"
    firmware := someFirmware, device := { device_id := "abc" } }

def someFirmwareConfig : FirmwareConfig :=
  { firmware_version := "f0", firmware_date := "", proto_version := "p0", proto_date := "" }

end devcon_spark.state_machine
