-- `SparkApi`: the operations of the service on blocks, each a program over the
-- state machine, the block store and the requests that the commander gets. The
-- discovery lock orders the operations among themselves, and is left out.
import DevconSpark.Models
import DevconSpark.Sequence

open bidict py_text py_dict py_number py_value devcon_spark.exceptions devcon_spark.models
open devcon_spark.state_machine devcon_spark.codec.bloxfield devcon_spark.codec

namespace devcon_spark.spark_api

/-! ## Constants -/

def USER_NID_START : Int := 100

def OBJECT_LINK_POSTFIX_END : Char := '>'

def SEQUENCE_BLOCK_TYPE : String := "Sequence"

/-- System blocks of all platforms, deprecated ones included. -/
def SYS_BLOCK_IDS : List (String × Int) :=
  [("SysInfo", 2), ("OneWireBus", 4), ("WiFiSettings", 5), ("DisplaySettings", 7),
    ("SparkPins", 19)]

/-! ## The links in the data of a block -/

section
variable (replacer : Value → Except Exn Value)

mutual

/-- One turn of the loop of `resolve_data_ids`. A marked entry has a key with a postfix. -/
def resolveEntry (marked : Bool) : Value → Except Exn Value
  | .dict kvs =>
    if is_link (.dict kvs) then do
      let id ← replacer (← getItem kvs "id".toList)
      return .dict (setItem kvs "id".toList id)
    else if marked then replacer (.dict kvs)
    else (resolveDict kvs).map Value.dict
  | .list vs => if marked then replacer (.list vs) else (resolveList vs).map Value.list
  | .none => if marked then replacer .none else .ok .none
  | .bool b => if marked then replacer (.bool b) else .ok (.bool b)
  | .int i => if marked then replacer (.int i) else .ok (.int i)
  | .float x => if marked then replacer (.float x) else .ok (.float x)
  | .str t => if marked then replacer (.str t) else .ok (.str t)

def resolveList : List Value → Except Exn (List Value)
  | [] => .ok []
  | v :: vs => do
    let v ← resolveEntry false v
    let vs ← resolveList vs
    return v :: vs

def resolveDict : Dict → Except Exn Dict
  | [] => .ok []
  | (k, v) :: kvs => do
    let v ← resolveEntry (k.getLast? = some OBJECT_LINK_POSTFIX_END) v
    let kvs ← resolveDict kvs
    return (k, v) :: kvs

end

def resolve_data_ids (data : Dict) : Except Exn Dict := resolveDict replacer data

end

def nidValue (nid : Option Int) : Value := (nid.map Value.int).getD .none

def sidValue (sid : Option String) : Value := (sid.map fun s => Value.str s.toList).getD .none

def _find_nid (block_store : BlockStore) : Value → Except Exn Value
  | .none => .ok (.int 0)
  | .int i => .ok (.int i)
  | .bool b => .ok (.int (if b then 1 else 0))
  | .str sid =>
    if isdigit sid then
      match py_number.int sid with
      | some n => .ok (.int n)
      | none => .error { kind := .ValueError, msg := "invalid literal for int() with base 10" }
    else match block_store.get? (some (String.ofList sid)) with
      | some nid => .ok (nidValue nid)
      | none => .error
        { kind := .UnknownId, msg := s!"Block ID `{String.ofList sid}` not found." }
  | v => .error (noAttribute v "isdigit")

/-- The whole number that a key of the store may equal. -/
def wholeNumber? (v : Value) : Option Int :=
  match number? v with
  | some (.fin q) => if q.den = 1 then some q.num else none
  | _ => none

def _find_sid (repr : Value → Text) (block_store : BlockStore) : Value → Except Exn Value
  | .none => .ok .none
  | .str nid => .error
    { kind := .DecodeException
      msg := s!"Expected numeric block ID, got string `{String.ofList nid}`" }
  | .list _ => .error { kind := .TypeError, msg := "unhashable type: 'list'" }
  | .dict _ => .error { kind := .TypeError, msg := "unhashable type: 'dict'" }
  | v =>
    if number? v = some (.fin 0) then .ok .none
    else match (wholeNumber? v).bind fun nid => block_store.inverse? (some nid) with
      | some sid => .ok (sidValue sid)
      -- If service ID not found, use numeric representation of nid
      | none => .ok (.str (str repr v))

/-! ## The world of the operations -/

/-- What is handed to the commander. -/
inductive Request
  | noop
  | read_block (ident : FirmwareBlockIdentity) (mode : ReadMode)
  | read_all_blocks (mode : ReadMode)
  | write_block (block : FirmwareBlock)
  | patch_block (block : FirmwareBlock)
  | create_block (block : FirmwareBlock)
  | delete_block (ident : FirmwareBlockIdentity)
  | discover_blocks
  | read_all_block_names
  | write_block_name (ident : FirmwareBlockIdentity)
  | clear_blocks
  | clear_wifi
  | factory_reset
  | reboot
  | validate (block : FirmwareBlock)

/-- What the commander gives back. -/
def Request.Reply : Request → Type
  | noop => Unit
  | read_block _ _ => FirmwareBlock
  | read_all_blocks _ => List FirmwareBlock
  | write_block _ => FirmwareBlock
  | patch_block _ => FirmwareBlock
  | create_block _ => FirmwareBlock
  | delete_block _ => Unit
  | discover_blocks => List FirmwareBlock
  | read_all_block_names => List FirmwareBlock
  | write_block_name _ => FirmwareBlock
  | clear_blocks => List FirmwareBlock
  | clear_wifi => Unit
  | factory_reset => Unit
  | reboot => Unit
  | validate _ => FirmwareBlock

/-- What other tasks may change while an operation waits. -/
structure Shared where
  state : StateMachine
  block_store : BlockStore

structure World extends Shared where
  /-- All that was handed to the commander, in order. -/
  requests : List Request := []
  /-- How many times a connection check was started. -/
  checks : Nat := 0

/-- What the operations use and do not decide. -/
structure Environment where
  name : String
  timeparse : Text → Option ℚ
  repr : Value → Text
  /-- `str` of a block. -/
  blockText : Block → String
  firmwareBlockText : FirmwareBlock → String
  /-- The current time in ISO-8601. -/
  now : String
  /-- Whether the wait ends in time, and what changed in the meantime. -/
  wait_synchronized : Shared → Bool × Shared
  reply : List Request → (request : Request) → Shared → Except Exn request.Reply × Shared

abbrev Api := ExceptT Exn (StateM World)

variable (env : Environment)

/-- A call of the commander. -/
def cmder (request : Request) : Api request.Reply := fun w =>
  let answer := env.reply w.requests request w.toShared
  (answer.1, { w with toShared := answer.2, requests := w.requests ++ [request] })

def wait_synchronized : Api Bool := fun w =>
  let outcome := env.wait_synchronized w.toShared
  (.ok outcome.1, { w with toShared := outcome.2 })

def modifyStore (f : BlockStore → BlockStore) : Api Unit :=
  modify fun w => { w with block_store := f w.block_store }

/-! ## Blocks of the API and of the firmware -/

/-- `if block.id`, for a name. -/
def named (id : Option String) : Bool := id.any (· ≠ "")

def _sync_block_id (id : Option String) (nid : Int) : Api Unit :=
  if named id ∧ nid ≠ 0 then modifyStore (·.put id (some nid)) else pure ()

def _to_block_identity (block : FirmwareBlock) : Api BlockIdentity := do
  _sync_block_id block.id block.nid
  let store := (← get).block_store
  let id ← if named block.id then pure block.id
    else match _find_sid env.repr store (.int block.nid) with
      | .ok (.str sid) => pure (some (String.ofList sid))
      | .ok _ => pure none
      | .error ex => throw ex
  return { id, nid := some block.nid, type := some block.type, serviceId := some env.name }

def _to_block (block : FirmwareBlock) : Api Block := do
  _sync_block_id block.id block.nid
  let ident ← _to_block_identity env block
  let store := (← get).block_store
  let data ← liftExcept (resolve_data_ids (_find_sid env.repr store) block.data)
  -- Special case, where the API data format differs from proto-ready format
  let data ← if block.type = SEQUENCE_BLOCK_TYPE
    then liftExcept (sequence.serialize env.timeparse env.repr data) else pure data
  return { id := ident.id, nid := ident.nid, type := block.type, serviceId := ident.serviceId, data }

def _to_firmware_block_identity (block : BlockIdentity) : Api FirmwareBlockIdentity := do
  let nid ← match block.nid with
    | some nid => pure nid
    | none =>
      match (← get).block_store.get? block.id with
      | some (some nid) => pure nid
      | some none => throw { kind := .ValueError, msg := "Input should be a valid integer" }
      | none =>
        let id := block.id.getD "None"
        let type := block.type.getD "None"
        throw { kind := .UnknownId, msg := s!"Block ID `{id}` not found. type={type}" }
  return { id := block.id, nid, type := block.type }

def _to_firmware_block (block : Block) : Api FirmwareBlock := do
  let ident ← _to_firmware_block_identity block.identity
  let store := (← get).block_store
  -- Special case, where the API data format differs from proto-ready format
  let data ← if block.type = SEQUENCE_BLOCK_TYPE
    then liftExcept (sequence.parse env.timeparse env.repr block.data) else pure block.data
  let data ← liftExcept (resolve_data_ids (_find_nid store) data)
  return { id := ident.id, nid := ident.nid, type := block.type, data }

/-! ## The gate -/

/-- What `_execute` checks before it waits. -/
def preconditions (state : StateMachine) : Except Exn Unit := do
  if state.is_updating then
    throw { kind := .UpdateInProgress, msg := "Update is in progress" }
  state.check_compatible

/-- Generic wrapper for all controller commands: state-related preconditions are checked, and
a command that timed out starts a check of the connection. -/
def _execute {α : Type} (body : Api α) : Api α := do
  liftExcept (preconditions (← get).state)
  unless ← wait_synchronized env do
    throw { kind := .NotConnected, msg := "Timed out waiting for synchronized state" }
  try body
  catch ex =>
    if ex.kind = .CommandTimeout then
      modify fun w => { w with checks := w.checks + 1 }
    throw ex

/-! ## The operations -/

def noop : Api Unit := _execute env (cmder env .noop)

def read_block (block : BlockIdentity) : Api Block := _execute env do
  let ident ← _to_firmware_block_identity block
  _to_block env (← cmder env (.read_block ident .DEFAULT))

def read_logged_block (block : BlockIdentity) : Api Block := _execute env do
  let ident ← _to_firmware_block_identity block
  _to_block env (← cmder env (.read_block ident .LOGGED))

def read_stored_block (block : BlockIdentity) : Api Block := _execute env do
  let ident ← _to_firmware_block_identity block
  _to_block env (← cmder env (.read_block ident .STORED))

def write_block (block : Block) : Api Block := _execute env do
  let block ← _to_firmware_block env block
  _to_block env (← cmder env (.write_block block))

def patch_block (block : Block) : Api Block := _execute env do
  let block ← _to_firmware_block env block
  _to_block env (← cmder env (.patch_block block))

def create_block (block : Block) : Api Block := _execute env do
  let block ← _to_firmware_block env { block with nid := some (block.nid.getD 0) }
  _to_block env (← cmder env (.create_block block))

def delete_block (block : BlockIdentity) : Api BlockIdentity := _execute env do
  let ident ← _to_firmware_block_identity block
  cmder env (.delete_block ident)
  match (← get).block_store.inverse? (some ident.nid) with
  | none => throw { kind := .KeyError, msg := toString ident.nid }
  | some sid =>
    modifyStore (·.erase sid)
    return { id := sid, nid := some ident.nid, type := ident.type, serviceId := some env.name }

def readAll (mode : ReadMode) : Api (List Block) := _execute env do
  let blocks ← cmder env (.read_all_blocks mode)
  List.mapM (_to_block env) blocks

def read_all_blocks : Api (List Block) := readAll env .DEFAULT

def read_all_logged_blocks : Api (List Block) := readAll env .LOGGED

def read_all_stored_blocks : Api (List Block) := readAll env .STORED

def discover_blocks : Api (List Block) := _execute env do
  let blocks ← cmder env .discover_blocks
  List.mapM (_to_block env) blocks

/-- Load all known block names from the controller. -/
def load_block_names : Api Unit := do
  let blocks : List FirmwareBlock ← cmder env .read_all_block_names
  modifyStore fun _ => Bidict.empty.update (dictOf (blocks.map fun b => (b.id, some b.nid)))

def clear_blocks : Api (List BlockIdentity) := _execute env do
  let blocks ← cmder env .clear_blocks
  let identities ← List.mapM (_to_block_identity env) blocks
  load_block_names env
  let nid := (get? SYS_BLOCK_IDS "DisplaySettings").getD 0
  let _ ← cmder env (.write_block { nid, type := "DisplaySettings", data := [] })
  return identities

def knownNid (block_store : BlockStore) (existing : String) : Except Exn Int :=
  match block_store.get? (some existing) with
  | none => .error { kind := .KeyError, msg := quoted existing }
  | some none => .error { kind := .ValueError, msg := "Input should be a valid integer" }
  | some (some nid) => .ok nid

/-- Change a block sid. -/
def rename_block (change : BlockNameChange) : Api BlockIdentity := do
  let nid ← liftExcept (knownNid (← get).block_store change.existing)
  let block : FirmwareBlock ← cmder env (.write_block_name { id := some change.desired, nid })
  modifyStore (·.put block.id (some block.nid))
  return { id := block.id, nid := some block.nid, type := some block.type
           serviceId := some env.name }

def make_backup : Api Backup := do
  let blocks ← read_all_stored_blocks env
  match (← get).state.status_desc.controller with
  | none =>
    throw { kind := .AttributeError, msg := "'NoneType' object has no attribute 'firmware'" }
  | some controller_info =>
    return { blocks, timestamp := some env.now, firmware := some controller_info.firmware
             device := some controller_info.device }

/-- The blocks that resolve, and the messages about those that do not. -/
def resolveBlocks : List Block → Api (List FirmwareBlock × List String)
  | [] => return ([], [])
  | block :: blocks => do
    let resolved ← try
        let resolved ← _to_firmware_block env block
        pure (some resolved, none)
      catch ex =>
        pure (none, some s!"failed to resolve block. Error={strex ex}, block={env.blockText block}")
    let (rs, errors) ← resolveBlocks blocks
    return (resolved.1.toList ++ rs, resolved.2.toList ++ errors)

/-- Create or write blocks, depending on whether they are system blocks. -/
def importBlocks : List FirmwareBlock → Api (List String)
  | [] => return []
  | block :: blocks => do
    let error ← try
        let _ ← if block.nid ≥ USER_NID_START then cmder env (.create_block block)
          else cmder env (.write_block block)
        pure none
      catch ex =>
        pure (some
          s!"failed to import block. Error={strex ex}, block={env.firmwareBlockText block}")
    let errors ← importBlocks blocks
    return error.toList ++ errors

def apply_backup (exported : Backup) : Api BackupApplyResult := do
  let _ ← clear_blocks env
  -- We want to support cross-platform backup loads
  modifyStore (·.update (SYS_BLOCK_IDS.map fun p => (some p.1, some p.2)))
  -- Populate the block store, to avoid unknown links
  modifyStore (·.update (dictOf (exported.blocks.map fun b => (b.id, b.nid))))
  let (resolved_blocks, unresolved) ← resolveBlocks env exported.blocks
  let failed ← importBlocks env resolved_blocks
  -- Sync block names with reality
  let _ ← cmder env .discover_blocks
  load_block_names env
  return { messages := unresolved ++ failed }

def clear_wifi : Api Unit := _execute env (cmder env .clear_wifi)

def factory_reset : Api Unit := _execute env (cmder env .factory_reset)

def reboot : Api Unit := _execute env (cmder env .reboot)

/-- The block will not be written to the controller, and does not have to be an existing
block. -/
def validate (block : Block) : Api Block := _execute env do
  let validated ← _to_firmware_block env { block with id := none, nid := some 0 }
  let validated ← _to_block env (← cmder env (.validate validated))
  return { validated with id := block.id, nid := block.nid }

/-- The operations that the HTTP and MQTT endpoints call. -/
inductive Operation
  | noop
  | read_block (block : BlockIdentity)
  | read_logged_block (block : BlockIdentity)
  | read_stored_block (block : BlockIdentity)
  | write_block (block : Block)
  | patch_block (block : Block)
  | create_block (block : Block)
  | delete_block (block : BlockIdentity)
  | read_all_blocks
  | read_all_logged_blocks
  | read_all_stored_blocks
  | discover_blocks
  | clear_blocks
  | rename_block (change : BlockNameChange)
  | make_backup
  | apply_backup (exported : Backup)
  | clear_wifi
  | factory_reset
  | reboot
  | validate (block : Block)

inductive Result
  | unit
  | block (block : Block)
  | identity (ident : BlockIdentity)
  | blocks (blocks : List Block)
  | identities (idents : List BlockIdentity)
  | backup (backup : Backup)
  | applied (result : BackupApplyResult)

def perform : Operation → Api Result
  | .noop => return (fun _ => .unit) (← noop env)
  | .read_block block => return .block (← read_block env block)
  | .read_logged_block block => return .block (← read_logged_block env block)
  | .read_stored_block block => return .block (← read_stored_block env block)
  | .write_block block => return .block (← write_block env block)
  | .patch_block block => return .block (← patch_block env block)
  | .create_block block => return .block (← create_block env block)
  | .delete_block block => return .identity (← delete_block env block)
  | .read_all_blocks => return .blocks (← read_all_blocks env)
  | .read_all_logged_blocks => return .blocks (← read_all_logged_blocks env)
  | .read_all_stored_blocks => return .blocks (← read_all_stored_blocks env)
  | .discover_blocks => return .blocks (← discover_blocks env)
  | .clear_blocks => return .identities (← clear_blocks env)
  | .rename_block change => return .identity (← rename_block env change)
  | .make_backup => return .backup (← make_backup env)
  | .apply_backup exported => return .applied (← apply_backup env exported)
  | .clear_wifi => return (fun _ => .unit) (← clear_wifi env)
  | .factory_reset => return (fun _ => .unit) (← factory_reset env)
  | .reboot => return (fun _ => .unit) (← reboot env)
  | .validate block => return .block (← validate env block)

end devcon_spark.spark_api
