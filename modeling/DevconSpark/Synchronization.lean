-- The synchronizer, next to the connection handler that may drop and make
-- connections under it. Each action is what one task does between two of its
-- awaits, and the actions come in any order.
import DevconSpark.Models
import DevconSpark.PyDict
import DevconSpark.Runs
import DevconSpark.StateMachine

open bidict py_dict devcon_spark.exceptions devcon_spark.models devcon_spark.state_machine

namespace devcon_spark.synchronization

/-! ## The two tasks -/

/-- Where `ConnectionHandler.run` is. -/
inductive Handler
  /-- After the `finally` block, until `repeat` calls it again. -/
  | sleeping
  | waitingEnabled (woken : Bool)
  /-- In `connect`. -/
  | dialing
  /-- It has a connection. `up` is the event `_impl.connected`. -/
  | connecting (up : Bool)
  /-- It called `set_connected`, and waits for the end of the connection. -/
  | running
  deriving DecidableEq

/-- `ConnectionHandler.connected`, without which `send_request` raises. -/
def Handler.connected : Handler → Bool
  | .connecting up => up
  | .running => true
  | _ => false

/-- Where `StateSynchronizer.run` is. A request that is under way keeps the
number of the connection that it was sent over. -/
inductive Place
  | start
  /-- In the patch of `_apply_global_settings`. -/
  | applyingSettings
  | waitingConnected (woken : Bool)
  /-- In `_prompt_handshake`. `acked` says that `ack_task` was woken. -/
  | prompting (acked : Bool)
  /-- In the `asyncio.wait` between two prompts. -/
  | pinging (acked : Bool)
  /-- At the end of the task context of `ack_task`. -/
  | closingTask
  | readingNames (sent : Nat)
  /-- In the retries of `extract_legacy_redis_block_names`. -/
  | extractingNames
  /-- In `write_block_name` of the first of these names. -/
  | writingNames (names : List (Option String × Option Int))
  | removingNames
  | patchingSysInfo (sent : Nat)
  /-- In `wait_disconnected`, after `set_synchronized`. -/
  | synchronized (woken : Bool)
  /-- In `wait_disconnected`, after an error. -/
  | failed (ex : Exn) (woken : Bool)
  deriving DecidableEq

/-- What this call of `synchronize` did, by the number of the connection. The
record is for the laws only: the code keeps none. -/
structure Done where
  /-- The connection whose handshake `check_compatible` passed. -/
  checked : Option Nat := none
  /-- The connection that the block names were read over. -/
  loaded : Option Nat := none
  /-- The connection that the SysInfo settings were written over. -/
  wrote : Option Nat := none
  deriving DecidableEq

structure Service where
  state : StateMachine
  handler : Handler
  place : Place
  block_store : BlockStore
  /-- How many times `set_connected` was called: the number of the connection. -/
  connections : Nat
  /-- The connection of the handshake that the status describes. -/
  greeted : Option Nat
  done : Done

/-- The SysInfo block that the patch gives back. -/
structure SysInfo where
  type : String
  uptime : Option Int
  updatesPerSecond : Option Int

def SYSINFO_BLOCK_TYPE : String := "SysInfo"

/-- The checks of `set_sysinfo_settings` on the block that came back. -/
def checkSysInfo (sysinfo : SysInfo) : Except Exn Unit :=
  if sysinfo.type ≠ SYSINFO_BLOCK_TYPE then
    .error { kind := .CommandException, msg := "Unexpected SysInfo block: " ++ sysinfo.type }
  else if sysinfo.uptime.isNone then .error { kind := .KeyError, msg := "'uptime'" }
  else if sysinfo.updatesPerSecond.isNone then
    .error { kind := .KeyError, msg := "'updatesPerSecond'" }
  else .ok ()

inductive Action
  /-- The handler sleeps no more, and waits for the enabled flag. -/
  | retry
  /-- `wait_enabled` comes back. -/
  | enabledSeen
  /-- `connect` comes back with a connection. -/
  | dial (up : Bool)
  /-- The connection is made. -/
  | linked
  /-- The handler calls `set_connected`. -/
  | connected (connection_kind : ConnectionKind) (address : String)
  /-- The `finally` block of `ConnectionHandler.run`. -/
  | disconnected
  /-- `_on_event` takes a handshake. -/
  | handshake (controller : ControllerDescription)
  /-- The datastore announces a change of the enabled flag. -/
  | settingsChanged (enabled : Bool)
  /-- `synchronize` starts, with the enabled flag of the settings. -/
  | synchronize (enabled : Bool)
  | settingsReply (enabled : Bool) (reply : Except Exn SysInfo)
  /-- `wait_connected` comes back. -/
  | connectedSeen
  /-- The prompt is over, with or without an exception. -/
  | prompted
  /-- The ping interval is over, and `ack_task` is not. -/
  | ping
  /-- The loop sees that `ack_task` is done. -/
  | acknowledgedSeen
  /-- The task context is closed; `check_compatible`, and the names are asked for. -/
  | check
  | handshakeTimeout
  | names (reply : Except Exn (List (Option String × Option Int)))
  | legacyNames (names : List (Option String × Option Int))
  | nameWritten (reply : Except Exn Unit)
  | namesRemoved (reply : Except Exn Unit)
  /-- The patch of SysInfo is over, and `set_synchronized` follows. -/
  | sysinfo (reply : Except Exn SysInfo)
  /-- `wait_disconnected` comes back, and `run` is called again. -/
  | restart

/-! ## What the tasks do between two awaits -/

namespace Service

/-- An exception ends `synchronize`. `run` resets the connection, unless the
controller is incompatible, and waits for the disconnect either way. -/
def fail (s : Service) (ex : Exn) : Service :=
  { s with place := .failed ex s.state.disconnected_ev }

/-- `conn.send_request`: the request goes out, or the call fails. -/
def send (s : Service) (place : Place) : Service :=
  if s.handler.connected then { s with place } else s.fail { kind := .NotConnected }

/-- `_apply_service_settings` -/
def setEnabled (s : Service) (enabled : Bool) : Service :=
  { s with
    state := s.state.set_enabled enabled
    handler :=
      match s.handler with
      | .waitingEnabled woken => .waitingEnabled (woken || enabled)
      | h => h }

/-- `_apply_service_settings`, then `wait_connected`. -/
def applyServiceSettings (s : Service) (enabled : Bool) : Service :=
  { s.setEnabled enabled with place := .waitingConnected s.state.connected_ev }

/-- The end of `_sync_block_store`, and the patch of `_sync_sysinfo`. -/
def patchSysInfo (s : Service) : Service := s.send (.patchingSysInfo s.connections)

/-- After the last legacy name: the name table is removed if there was one and
the controller is still there. -/
def removeLegacyNames (s : Service) (hadNames : Bool) : Service :=
  if hadNames && s.state.acknowledged_ev then { s with place := .removingNames }
  else s.patchSysInfo

/-- The loop over the legacy names. A name that cannot be sent is skipped, as
every other error of a write. -/
def writeLegacyNames (s : Service) (names : List (Option String × Option Int))
    (hadNames : Bool) : Service :=
  if names = [] then s.removeLegacyNames hadNames
  else if s.handler.connected then { s with place := .writingNames names }
  else s.removeLegacyNames hadNames

/-- A new connection was announced. -/
def wakeConnected : Place → Place
  | .waitingConnected _ => .waitingConnected true
  | p => p

def wakeDisconnected : Place → Place
  | .synchronized _ => .synchronized true
  | .failed ex _ => .failed ex true
  | p => p

def wakeAcknowledged : Place → Place
  | .prompting _ => .prompting true
  | .pinging _ => .pinging true
  | p => p

/-- `set_acknowledged` does nothing while the service is synchronized. -/
def greet (config : ServiceConfig) (s : Service) (controller : ControllerDescription) :
    Service :=
  if s.state.synchronized_ev then s
  else
    { s with
      state := s.state.set_acknowledged config controller
      place := wakeAcknowledged s.place
      greeted := some s.connections }

/-- `check_compatible`, and at once the request of `read_all_block_names`. -/
def checkHandshake (s : Service) : Service :=
  match s.state.check_compatible with
  | .error ex => s.fail ex
  | .ok _ => { s with done := { checked := s.greeted } }.send (.readingNames s.connections)

/-- The number of the connection, if it is still the one of the request. -/
def during (s : Service) (sent : Nat) : Option Nat :=
  if sent = s.connections then some sent else none

def loadNames (s : Service) (sent : Nat) (blocks : List (Option String × Option Int)) :
    Service :=
  { s with
    block_store := Bidict.empty.update (dictOf blocks)
    place := .extractingNames
    done := { s.done with loaded := s.during sent } }

/-- The settings are written; `set_synchronized`. -/
def finish (s : Service) (sent : Nat) : Service :=
  let s' := { s with done := { s.done with wrote := s.during sent } }
  match s.state.set_synchronized with
  | .error ex => s'.fail ex
  | .ok state => { s' with state, place := .synchronized state.disconnected_ev }

end Service

open Service

def step (config : ServiceConfig) (s : Service) : Action → Option Service
  | .retry =>
    match s.handler with
    | .sleeping => some { s with handler := .waitingEnabled s.state.enabled_ev }
    | _ => none
  | .enabledSeen =>
    match s.handler with
    | .waitingEnabled true => some { s with handler := .dialing }
    | _ => none
  | .dial up =>
    match s.handler with
    | .dialing => some { s with handler := .connecting up }
    | _ => none
  | .linked =>
    match s.handler with
    | .connecting _ => some { s with handler := .connecting true }
    | _ => none
  | .connected connection_kind address =>
    match s.handler with
    | .connecting true =>
      some { s with
        state := s.state.set_connected connection_kind address
        handler := .running
        place := wakeConnected s.place
        connections := s.connections + 1
        greeted := none }
    | _ => none
  | .disconnected =>
    match s.handler with
    | .dialing | .connecting _ | .running =>
      some { s with
        state := s.state.set_disconnected
        handler := .sleeping
        place := wakeDisconnected s.place
        greeted := none }
    | _ => none
  | .handshake controller => some (s.greet config controller)
  | .settingsChanged enabled => some (s.setEnabled enabled)
  | .synchronize enabled =>
    match s.place with
    | .start =>
      if s.state.synchronized_ev then some (s.send .applyingSettings)
      else some (s.applyServiceSettings enabled)
    | _ => none
  | .settingsReply enabled reply =>
    match s.place, reply.bind checkSysInfo with
    | .applyingSettings, .ok _ => some (s.applyServiceSettings enabled)
    | .applyingSettings, .error ex => some (s.fail ex)
    | _, _ => none
  | .connectedSeen =>
    match s.place with
    | .waitingConnected true => some { s with place := .prompting s.state.acknowledged_ev }
    | _ => none
  | .prompted =>
    match s.place with
    | .prompting acked => some { s with place := .pinging acked }
    | _ => none
  | .ping =>
    match s.place with
    | .pinging acked => some { s with place := .prompting acked }
    | _ => none
  | .acknowledgedSeen =>
    match s.place with
    | .pinging true => some { s with place := .closingTask }
    | _ => none
  | .check =>
    match s.place with
    | .closingTask => some s.checkHandshake
    | _ => none
  | .handshakeTimeout =>
    match s.place with
    | .prompting _ | .pinging _ | .closingTask => some (s.fail { kind := .TimeoutError })
    | _ => none
  | .names reply =>
    match s.place, reply with
    | .readingNames sent, .ok blocks => some (s.loadNames sent blocks)
    | .readingNames _, .error ex => some (s.fail ex)
    | _, _ => none
  | .legacyNames names =>
    match s.place with
    | .extractingNames => some (s.writeLegacyNames names (names ≠ []))
    | _ => none
  | .nameWritten reply =>
    match s.place with
    | .writingNames (name :: names) =>
      let s' :=
        match reply with
        | .ok _ => { s with block_store := s.block_store.put name.1 name.2 }
        | .error _ => s
      some (s'.writeLegacyNames names true)
    | _ => none
  | .namesRemoved reply =>
    match s.place, reply with
    | .removingNames, .ok _ => some s.patchSysInfo
    | .removingNames, .error ex => some (s.fail ex)
    | _, _ => none
  | .sysinfo reply =>
    match s.place, reply.bind checkSysInfo with
    | .patchingSysInfo sent, .ok _ => some (s.finish sent)
    | .patchingSysInfo _, .error ex => some (s.fail ex)
    | _, _ => none
  | .restart =>
    match s.place with
    | .synchronized true | .failed _ true => some { s with place := .start, done := {} }
    | _ => none

def init (config : ServiceConfig) (fw_config : FirmwareConfig) : Service where
  state := StateMachine.init config fw_config
  handler := .waitingEnabled false
  place := .start
  block_store := Bidict.empty
  connections := 0
  greeted := none
  done := {}

end devcon_spark.synchronization
