-- `MockConnection`: an in-process firmware simulation, which answers requests
-- from a table of blocks of its own.
import DevconSpark.BlockAnalysis
import DevconSpark.Codec
import DevconSpark.Command
import DevconSpark.Programs
import DevconSpark.SparkApi

open py_text py_dict py_number py_value devcon_spark.exceptions
open devcon_spark.codec devcon_spark.codec.bloxfield devcon_spark.codec.processor
open devcon_spark.command (ErrorCode IntermediateRequest IntermediateResponse)
open devcon_spark.models (DecodedPayload EncodedPayload FirmwareBlock)
open devcon_spark.spark_api (USER_NID_START SYS_BLOCK_IDS named)
open devcon_spark.state_machine (FirmwareConfig)

namespace devcon_spark.codec.bloxfield

/-- `obj.get('value') is not None` -/
def isMeasured : Value → Bool
  | .dict kvs => (get? kvs "value".toList).any fun v => ! isNone v
  | _ => false

def is_defined_quantity (obj : Value) : Bool :=
  is_quantity obj && isMeasured obj && hasValue "unit" obj

end devcon_spark.codec.bloxfield

namespace devcon_spark.connection.mock_connection

abbrev Request := IntermediateRequest EncodedPayload

structure Response extends IntermediateResponse EncodedPayload where
  mode : command.ReadMode

/-! ## The simulated controller -/

def sysNid (name : String) : Int := (get? SYS_BLOCK_IDS name).getD 0

def systemBlocks : List FirmwareBlock :=
  [{ id := some "SystemInfo", nid := sysNid "SysInfo", type := "SysInfo"
     data := [("deviceId".toList, .str "FACADE".toList),
       ("timeZone".toList, .str "Africa/Casablanca".toList),
       ("updatesPerSecond".toList, .int 9001)] },
   { id := some "WiFiSettings", nid := sysNid "WiFiSettings", type := "WiFiSettings", data := [] },
   { id := some "DisplaySettings", nid := sysNid "DisplaySettings", type := "DisplaySettings"
     data := [] },
   { id := some "SparkPins", nid := sysNid "SparkPins", type := "Spark3Pins"
     data := [("channels".toList,
       .list ([1, 2, 3, 4, 5].map fun i => .dict [("id".toList, .int i)]))] }]

def default_blocks : List (Int × FirmwareBlock) :=
  dictOf (systemBlocks.map fun block => (block.nid, block))

/-- The connection with the errors that are injected, which are global in the code. Times are
in microseconds. -/
structure MockConnection where
  start_time : Int
  id_counter : Int := USER_NID_START
  blocks : List (Int × FirmwareBlock) := default_blocks
  /-- An `ErrorCode` will be returned. A `None` value will cause no response to be returned. -/
  next_error : List (Option ErrorCode) := []
  /-- All that was handed to `on_event`, in order. -/
  events : List String := []

structure Environment where
  codec : Codec
  device_id : String
  fw_config : FirmwareConfig
  system_version : String

/-- A program of the connection. What it did before it raises is done. -/
abbrev Handler := ExceptT Exn (StateM MockConnection)

variable (env : Environment)

/-! ## Blocks and payloads -/

def _to_payload (block : FirmwareBlock) : Except Exn EncodedPayload :=
  encode_payload env.codec
    { blockId := block.nid, blockType := some block.type, name := block.id
      content := some block.data }

/-- `FirmwareBlock(...)`, which has a type and data. -/
def firmwareBlock (payload : DecodedPayload) : Except Exn FirmwareBlock :=
  match payload.blockType, payload.content with
  | some type, some data => .ok { id := payload.name, nid := payload.blockId, type, data }
  | none, _ => .error { kind := .ValueError, msg := "Input should be a valid string" }
  | _, none => .error { kind := .ValueError, msg := "Input should be a valid dictionary" }

def _to_block (payload : EncodedPayload) : Except Exn FirmwareBlock :=
  firmwareBlock (decode_payload env.codec payload)

def _default_block (block_id : Option String) (block_nid : Int) (block_type : String) :
    Except Exn FirmwareBlock := do
  let payload ← encode_payload env.codec
    { blockId := block_nid, blockType := some block_type, name := block_id, content := some [] }
  _to_block env payload

/-- The values that are written, for those that a write sets to nothing. -/
def isWritten (v_new : Value) : Bool :=
  is_defined_link v_new || is_defined_quantity v_new || (! is_bloxfield v_new && ! isNone v_new)

/-- The loop of `_merge_blocks`. What was merged before it raises stays. -/
def mergeKeys (src : Dict) : List Text → Dict → Except Exn Unit × Dict
  | [], dest => (.ok (), dest)
  | key :: keys, dest =>
    match getItem src key with
    | .error ex => (.error ex, dest)
    | .ok v_new => mergeKeys src keys (if isWritten v_new then setItem dest key v_new else dest)

def _merge_blocks (dest src : FirmwareBlock) : Except Exn Unit × FirmwareBlock :=
  let merged := mergeKeys src.data (dest.data.map (·.1)) dest.data
  (merged.1, { dest with data := merged.2 })

/-! ## Parts of the handler -/

/-- `self._blocks[nid]` -/
def blockAt (nid : Int) : Handler FirmwareBlock := do
  match get? (← get).blocks nid with
  | some block => return block
  | none => throw { kind := .KeyError, msg := toString nid }

/-- `self._blocks[nid] = block`, and what is written to the block of that nid. -/
def storeBlock (nid : Int) (block : FirmwareBlock) : Handler Unit :=
  modify fun s => { s with blocks := setItem s.blocks nid block }

def resetBlocks : Handler Unit := modify fun s => { s with blocks := default_blocks }

def withSystime (start_time now : Int) (data : Dict) : Dict :=
  let elapsed := now - start_time
  let data := setItem data "uptime".toList (.float (.fin (elapsed / 1000)))
  setItem data "systemTime".toList (.float (.fin ((start_time + elapsed) / 1000000)))

def update_systime (now : Int) : Handler Unit := do
  let s ← get
  let sysinfo_block ← blockAt (sysNid "SysInfo")
  storeBlock (sysNid "SysInfo")
    { sysinfo_block with data := withSystime s.start_time now sysinfo_block.data }

def on_event (msg : String) : Handler Unit :=
  modify fun s => { s with events := s.events ++ [msg] }

def welcome : Handler Unit :=
  on_event (",".intercalate
    ["!BREWBLOX", env.fw_config.firmware_version, env.fw_config.proto_version,
      env.fw_config.firmware_date, env.fw_config.proto_date, env.system_version, "mock",
      "00", "00", env.device_id])

/-- `request.payload`, of which a field is read. -/
def payloadOf (request : Request) : Except Exn EncodedPayload :=
  match request.payload with
  | some payload => .ok payload
  | none =>
    .error { kind := .AttributeError, msg := "'NoneType' object has no attribute 'blockId'" }

def answer (response : Response) (payload : List EncodedPayload) : Response :=
  { response with payload }

def refuse (response : Response) (error : ErrorCode) : Response := { response with error }

/-! ## The branches of the handler -/

/-- `BLOCK_READ`, `STORAGE_READ`, `NAME_READ`. -/
def handleRead (request : Request) (response : Response) : Handler Response := do
  let payload ← liftExcept (payloadOf request)
  match get? (← get).blocks payload.blockId with
  | none => return refuse response .INVALID_BLOCK_ID
  | some block => return answer response [← liftExcept (_to_payload env block)]

/-- `BLOCK_READ_ALL`, `STORAGE_READ_ALL`, `NAME_READ_ALL`. -/
def handleReadAll (response : Response) : Handler Response := do
  let s ← get
  return answer response (← liftExcept ((s.blocks.map (·.2)).mapM (_to_payload env)))

def handleBlockWrite (request : Request) (response : Response) : Handler Response := do
  let payload ← liftExcept (payloadOf request)
  match get? (← get).blocks payload.blockId with
  | none => return refuse response .INVALID_BLOCK_ID
  | some block =>
    if payload.content.isNone then return refuse response .INVALID_BLOCK
    else if payload.blockType ≠ some (.str block.type) then
      return refuse response .INVALID_BLOCK_TYPE
    else
      let src ← liftExcept (_to_block env payload)
      let merged := _merge_blocks block src
      storeBlock payload.blockId merged.2
      liftExcept merged.1
      return answer response [← liftExcept (_to_payload env merged.2)]

/-- `nid or next(self._id_counter)` -/
def chooseNid (nid : Int) : Handler Int := do
  if nid ≠ 0 then return nid
  else
    let s ← get
    modify fun s => { s with id_counter := s.id_counter + 1 }
    return s.id_counter

/-- The block that `BLOCK_CREATE` stores. -/
def newBlock (payload : EncodedPayload) (nid : Int) : Except Exn FirmwareBlock := do
  let argblock ← _to_block env payload
  let block ← _default_block env payload.name nid argblock.type
  let merged := _merge_blocks block argblock
  merged.1
  return merged.2

def handleBlockCreate (request : Request) (response : Response) : Handler Response := do
  let payload ← liftExcept (payloadOf request)
  if (get? (← get).blocks payload.blockId).isSome then
    return refuse response .BLOCK_NOT_CREATABLE
  else if 0 < payload.blockId ∧ payload.blockId < USER_NID_START then
    return refuse response .BLOCK_NOT_CREATABLE
  else if payload.content.isNone then return refuse response .INVALID_BLOCK
  else
    let nid ← chooseNid payload.blockId
    let block ← liftExcept (newBlock env payload nid)
    storeBlock nid block
    return answer response [← liftExcept (_to_payload env block)]

def handleBlockDelete (request : Request) (response : Response) : Handler Response := do
  let payload ← liftExcept (payloadOf request)
  match get? (← get).blocks payload.blockId with
  | none => return refuse response .INVALID_BLOCK_ID
  | some _ =>
    if payload.blockId < USER_NID_START then return refuse response .BLOCK_NOT_DELETABLE
    else
      modify fun s => { s with blocks := delItem s.blocks payload.blockId }
      return response

/-- Always return spark pins when discovering blocks. -/
def handleBlockDiscover (response : Response) : Handler Response := do
  let block ← blockAt (sysNid "SparkPins")
  return answer response [← liftExcept (_to_payload env block)]

def handleNameWrite (request : Request) (response : Response) : Handler Response := do
  let payload ← liftExcept (payloadOf request)
  let s ← get
  let found := s.blocks.find? (·.2.id = payload.name)
  match get? s.blocks payload.blockId with
  | none => return refuse response .INVALID_BLOCK_ID
  | some block =>
    if ! named payload.name then return refuse response .INVALID_BLOCK_NAME
    else if found.any (·.2.nid ≠ payload.blockId) then
      return refuse response .INVALID_BLOCK_NAME
    else
      let block := { block with id := payload.name }
      storeBlock payload.blockId block
      return answer response [← liftExcept (_to_payload env block)]

/-- The clock is read once for the start, and once for the system time. -/
def handleReboot (now : Nat → Int) (response : Response) : Handler Response := do
  modify fun s => { s with start_time := now 0 }
  update_systime (now 1)
  return response

def handleClearBlocks (now : Nat → Int) (response : Response) : Handler Response := do
  let s ← get
  let users := (s.blocks.map (·.2)).filter (·.nid ≥ USER_NID_START)
  let payload ← liftExcept (users.mapM (_to_payload env))
  resetBlocks
  update_systime (now 0)
  return answer response payload

def handleClearWifi (response : Response) : Handler Response := do
  let block ← blockAt (sysNid "WiFiSettings")
  storeBlock (sysNid "WiFiSettings") { block with data := [] }
  return response

def handleFactoryReset (now : Nat → Int) (response : Response) : Handler Response := do
  resetBlocks
  update_systime (now 0)
  return response

/-- A request without an injected error. There is no opcode beyond those named here, so that
none is answered with `INVALID_OPCODE`. -/
def handleOpcode (now : Nat → Int) (request : Request) (response : Response) : Handler Response :=
  match request.opcode with
  | .NONE | .VERSION => do
    welcome env
    return response
  | .BLOCK_READ | .STORAGE_READ | .NAME_READ => handleRead env request response
  | .BLOCK_READ_ALL | .STORAGE_READ_ALL | .NAME_READ_ALL => handleReadAll env response
  | .BLOCK_WRITE => handleBlockWrite env request response
  | .BLOCK_CREATE => handleBlockCreate env request response
  | .BLOCK_DELETE => handleBlockDelete request response
  | .BLOCK_DISCOVER => handleBlockDiscover env response
  | .NAME_WRITE => handleNameWrite env request response
  | .REBOOT => handleReboot now response
  | .CLEAR_BLOCKS => handleClearBlocks env now response
  | .CLEAR_WIFI => handleClearWifi response
  | .FACTORY_RESET => handleFactoryReset now response
  | .FIRMWARE_UPDATE => return response

/-- `now` are the readings of the clock in this call, in order. -/
def handle_command (now : Nat → Int) (request : Request) : Handler (Option Response) := do
  let response : Response :=
    { msgId := request.msgId, error := .OK, mode := request.mode, payload := [] }
  match (← get).next_error with
  | error :: errors =>
    modify fun s => { s with next_error := errors }
    -- None is no response at all
    return error.map (refuse response)
  | [] => return some (← handleOpcode env now request response)

/-! ## Runs of the connection -/

/-- What happens to the connection. Before a request is handled, `send_request` has updated
the system time. -/
inductive Action
  | injected (errors : List (Option ErrorCode))
  | updated (now : Int)
  | handled (now : Nat → Int) (request : Request)

def step (s : MockConnection) : Action → MockConnection
  | .injected errors => { s with next_error := errors }
  | .updated now => ((update_systime now).run.run s).2
  | .handled now request => ((handle_command env now request).run.run s).2

end devcon_spark.connection.mock_connection
