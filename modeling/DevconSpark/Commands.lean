-- The operations of the commander: each is one opcode, with the block that it
-- is about as the payload, and the blocks of the answer.
import DevconSpark.Codec
import DevconSpark.Command
import DevconSpark.Programs
import DevconSpark.SparkApi

open py_text py_dict py_value programs devcon_spark.exceptions devcon_spark.models
open devcon_spark.codec devcon_spark.codec.lookup devcon_spark.codec.processor
open devcon_spark.codec.descriptor devcon_spark.codec.unit_conversion
open devcon_spark.spark_api (named)

namespace devcon_spark.command

def readMode : models.ReadMode → ReadMode
  | .DEFAULT => .DEFAULT
  | .STORED => .STORED
  | .LOGGED => .LOGGED

/-- What the operations use. `_execute` sends a request, and waits for its response. -/
structure CboxCommander (σ Msg : Type) where
  codec : codec.Codec
  encode_request : IntermediateRequest EncodedPayload → Except Exn Msg
  _execute : Opcode → Option EncodedPayload → ReadMode →
    ExceptT Exn (StateM σ) (List EncodedPayload)

/-- A block is also an identity with data. -/
def identityOf (block : FirmwareBlock) : FirmwareBlockIdentity :=
  { id := block.id, nid := block.nid, type := some block.type, data := some block.data }

/-! ## Blocks and payloads -/

section
variable (codec : codec.Codec)

def _to_payload (block : FirmwareBlockIdentity) (identity_only patch : Bool := false) :
    Except Exn EncodedPayload :=
  encode_payload codec
    (if named block.type then
      { blockId := block.nid, blockType := block.type, name := block.id
        content := if identity_only then none else block.data
        maskMode := if patch then .INCLUSIVE else .NO_MASK }
    else { blockId := block.nid, name := block.id })

/-- `FirmwareBlock(...)`, which has a type. -/
def blockOf (payload : DecodedPayload) : Except Exn FirmwareBlock :=
  match payload.blockType with
  | some type =>
    .ok { id := payload.name, nid := payload.blockId, type, data := payload.content.getD [] }
  | none => .error { kind := .ValueError, msg := "Input should be a valid string" }

def _to_block (payload : EncodedPayload) (mode : models.ReadMode := .DEFAULT) :
    Except Exn FirmwareBlock :=
  blockOf (decode_payload codec payload mode)

/-- `_to_block(payloads[0])` -/
def firstBlock (payloads : List EncodedPayload) (mode : models.ReadMode := .DEFAULT) :
    Except Exn FirmwareBlock :=
  match payloads with
  | [] => .error { kind := .IndexError, msg := "list index out of range" }
  | payload :: _ => _to_block codec payload mode

end

/-! ## The operations -/

namespace CboxCommander

variable {σ Msg : Type} (cmder : CboxCommander σ Msg)

/-- A command that is answered with nothing. -/
def plainCommand (opcode : Opcode) (payload : Option EncodedPayload := none) :
    ExceptT Exn (StateM σ) Unit := do
  let _ ← cmder._execute opcode payload .DEFAULT

/-- A command about a block, which is in the answer. -/
def blockCommand (opcode : Opcode) (payload : Except Exn EncodedPayload)
    (mode : models.ReadMode := .DEFAULT) : ExceptT Exn (StateM σ) FirmwareBlock := do
  let payload ← liftExcept payload
  let payloads ← cmder._execute opcode (some payload) (readMode mode)
  liftExcept (firstBlock cmder.codec payloads mode)

/-- A command that is answered with any number of blocks. -/
def blocksCommand (opcode : Opcode) (mode : models.ReadMode := .DEFAULT) :
    ExceptT Exn (StateM σ) (List FirmwareBlock) := do
  let payloads ← cmder._execute opcode none (readMode mode)
  liftExcept (payloads.mapM (_to_block cmder.codec · mode))

def validate (block : FirmwareBlock) : Except Exn FirmwareBlock := do
  let payload ← _to_payload cmder.codec (identityOf block)
  let _ ← cmder.encode_request { msgId := 0, opcode := .NONE, mode := .DEFAULT, payload }
  return block

def noop := plainCommand cmder .NONE

def version := plainCommand cmder .VERSION

def read_block (ident : FirmwareBlockIdentity) (mode : models.ReadMode := .DEFAULT) :=
  blockCommand cmder .BLOCK_READ (_to_payload cmder.codec ident true) mode

def read_all_blocks (mode : models.ReadMode := .DEFAULT) := blocksCommand cmder .BLOCK_READ_ALL mode

def write_block (block : FirmwareBlock) :=
  blockCommand cmder .BLOCK_WRITE (_to_payload cmder.codec (identityOf block))

def patch_block (block : FirmwareBlock) :=
  blockCommand cmder .BLOCK_WRITE (_to_payload cmder.codec (identityOf block) false true)

def create_block (block : FirmwareBlock) :=
  blockCommand cmder .BLOCK_CREATE (_to_payload cmder.codec (identityOf block))

def delete_block (ident : FirmwareBlockIdentity) : ExceptT Exn (StateM σ) Unit := do
  let payload ← liftExcept (_to_payload cmder.codec ident true)
  plainCommand cmder .BLOCK_DELETE (some payload)

def discover_blocks := blocksCommand cmder .BLOCK_DISCOVER

def read_all_block_names := blocksCommand cmder .NAME_READ_ALL

def write_block_name (ident : FirmwareBlockIdentity) :=
  blockCommand cmder .NAME_WRITE (_to_payload cmder.codec ident true)

def reboot := plainCommand cmder .REBOOT

def clear_blocks := blocksCommand cmder .CLEAR_BLOCKS

def clear_wifi := plainCommand cmder .CLEAR_WIFI

def factory_reset := plainCommand cmder .FACTORY_RESET

def firmware_update := plainCommand cmder .FIRMWARE_UPDATE

/-- What the API asks of the commander. -/
def perform : (request : spark_api.Request) → ExceptT Exn (StateM σ) request.Reply
  | .noop => noop cmder
  | .read_block ident mode => read_block cmder ident mode
  | .read_all_blocks mode => read_all_blocks cmder mode
  | .write_block block => write_block cmder block
  | .patch_block block => patch_block cmder block
  | .create_block block => create_block cmder block
  | .delete_block ident => delete_block cmder ident
  | .discover_blocks => discover_blocks cmder
  | .read_all_block_names => read_all_block_names cmder
  | .write_block_name ident => write_block_name cmder ident
  | .clear_blocks => clear_blocks cmder
  | .clear_wifi => clear_wifi cmder
  | .factory_reset => factory_reset cmder
  | .reboot => reboot cmder
  | .validate block => liftExcept (validate cmder block)

end CboxCommander

/-! ## What a block and its payload have in common -/

variable {c : codec.Codec}

theorem to_payload_ids {block : FirmwareBlockIdentity} {identity_only patch : Bool}
    {payload : EncodedPayload} (h : _to_payload c block identity_only patch = .ok payload) :
    SameIds block.nid payload.blockId block.id payload.name := by
  have hids := encode_payload_ids h
  split at hids <;> exact ⟨hids.blockId, hids.name⟩

/-- A decoded payload has a type, be it that of a stub. -/
theorem decode_payload_type (c : codec.Codec) (payload : EncodedPayload)
    (mode : models.ReadMode) : ∃ type, (decode_payload c payload mode).blockType = some type := by
  unfold decode_payload
  split
  case h_2 => exact ⟨_, rfl⟩
  case h_1 decoded h =>
    unfold decodePayload at h
    obtain ⟨deprecated, -, h⟩ := bind_eq_ok.mp h
    split at h
    · cases h
      exact ⟨_, rfl⟩
    · split at h
      · obtain ⟨data, -, h⟩ := bind_eq_ok.mp h
        obtain ⟨content, -, h⟩ := bind_eq_ok.mp h
        unfold post_decode at h
        obtain ⟨raw, -, h⟩ := bind_eq_ok.mp h
        obtain ⟨walked, -, h⟩ := bind_eq_ok.mp h
        cases h
        exact ⟨_, rfl⟩
      · split at h
        · cases h
          exact ⟨_, rfl⟩
        · cases h
          exact ⟨_, rfl⟩

/-- Whatever the controller sends, it becomes a block with the id and the name it was sent
with. -/
theorem to_block_ok (c : codec.Codec) (payload : EncodedPayload) (mode : models.ReadMode) :
    ∃ block, _to_block c payload mode = .ok block ∧
      SameIds payload.blockId block.nid payload.name block.id := by
  obtain ⟨type, htype⟩ := decode_payload_type c payload mode
  have hids := decode_payload_ids c payload mode none
  unfold _to_block blockOf
  rw [htype]
  exact ⟨_, rfl, hids.blockId, hids.name⟩

theorem to_blocks_ok (c : codec.Codec) (payloads : List EncodedPayload)
    (mode : models.ReadMode) :
    ∃ blocks, payloads.mapM (_to_block c · mode) = .ok blocks ∧
      List.Forall₂ (fun (payload : EncodedPayload) (block : FirmwareBlock) =>
        SameIds payload.blockId block.nid payload.name block.id) payloads blocks := by
  induction payloads with
  | nil => exact ⟨[], rfl, .nil⟩
  | cons payload payloads ih =>
    obtain ⟨block, hblock, hids⟩ := to_block_ok c payload mode
    obtain ⟨blocks, hblocks, hall⟩ := ih
    refine ⟨block :: blocks, ?_, .cons hids hall⟩
    rw [List.mapM_cons, hblock, hblocks]
    rfl

end devcon_spark.command
