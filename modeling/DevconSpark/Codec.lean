-- `Codec`: the payload of a command, between the content of a block and the
-- bytes of its message. What Protobuf itself does is a parameter.
import DevconSpark.Processor

open py_text py_number py_value binary devcon_spark.exceptions devcon_spark.models
open devcon_spark.codec.descriptor devcon_spark.codec.processor
open devcon_spark.codec.unit_conversion

namespace devcon_spark.codec.lookup

/-! ## The messages and their types -/

/-- The names of an enum and their values. Names may have a value in common. -/
abbrev EnumTypeWrapper := List (String × Int)

def EnumTypeWrapper.Value (enum : EnumTypeWrapper) (name : String) : Except Exn Int :=
  match enum.find? (·.1 = name) with
  | some p => .ok p.2
  | none => .error { kind := .ValueError, msg := s!"Enum has no value defined for name {name}" }

def EnumTypeWrapper.Name (enum : EnumTypeWrapper) (number : Int) : Except Exn String :=
  match enum.find? (·.2 = number) with
  | some p => .ok p.1
  | none => .error { kind := .ValueError, msg := s!"Enum has no name defined for value {number}" }

/-- Block type values below this are reserved for interfaces.
They will not be associated with actual messages. -/
def BLOCK_INTERFACE_TYPE_END : Int := 255

structure InterfaceLookup where
  type_str : String
  type_int : Int
  deriving DecidableEq

/-- The class of the messages is the name of their descriptor. -/
structure ObjectLookup extends InterfaceLookup where
  message_cls : Text
  deriving DecidableEq

structure Lookup where
  BlockType : EnumTypeWrapper
  objects : List ObjectLookup
  interfaces : List InterfaceLookup
  deriving DecidableEq

def Lookup.combined (lookup : Lookup) : List InterfaceLookup :=
  lookup.objects.map (·.toInterfaceLookup) ++ lookup.interfaces

def _interface_lookup_generator (BlockType : EnumTypeWrapper) :
    Except Exn (List InterfaceLookup) :=
  ((BlockType.map (·.2)).filter (· ≤ BLOCK_INTERFACE_TYPE_END)).mapM fun block_type =>
    (BlockType.Name block_type).map fun type_str => { type_str, type_int := block_type }

/-- The messages with their option `objtype`, which is 0 where it is not set. -/
def _object_lookup_generator (BlockType : EnumTypeWrapper) (messages : List (Text × Int)) :
    Except Exn (List ObjectLookup) :=
  (messages.filter (·.2 ≠ 0)).mapM fun p =>
    (BlockType.Name p.2).map fun type_str => { type_str, type_int := p.2, message_cls := p.1 }

def EDGE_CASE : InterfaceLookup := { type_str := "EdgeCase", type_int := 9001 }

def setup (BlockType : EnumTypeWrapper) (messages : List (Text × Int)) (edgeCase : Text) :
    Except Exn Lookup := do
  let objects ← _object_lookup_generator BlockType messages
  let interfaces ← _interface_lookup_generator BlockType
  return {
    BlockType
    -- custom test objects come last
    objects := objects ++ [{ EDGE_CASE with message_cls := edgeCase }]
    interfaces := interfaces ++ [EDGE_CASE] }

/-- `block_type in [v.type_str, v.type_int]` -/
def InterfaceLookup.has (v : InterfaceLookup) (blockType : Option BlockTypeId) : Bool :=
  blockType = some (.str v.type_str) || blockType = some (.int v.type_int)

end devcon_spark.codec.lookup

open devcon_spark.codec.lookup

namespace devcon_spark.codec

def UNKNOWN_TYPE_STR : String := "UnknownType"
def ERROR_TYPE_STR : String := "ErrorObject"

/-- What the codec uses of Protobuf, for the messages of a descriptor. -/
structure Protobuf where
  /-- `ParseDict(content, message)`, then `message.SerializeToString()`. -/
  serialize : (message_cls : Text) → (content : Dict) → Except Exn Bytes
  /-- `message.ParseFromString(data)`, then `MessageToDict(message, …)`. -/
  parse : (message_cls : Text) → (data : Bytes) → (use_integers_for_enums : Bool) →
    Except Exn Dict

structure Codec where
  filter_values : Bool := true
  env : Packages
  units : UnitConverter
  pool : Pool
  lookup : Lookup
  protobuf : Protobuf

/-! ## Encoding -/

/-- What leaves `encode_payload`, for what was raised in it. -/
def encodeFailure (ex : Exn) : Exn :=
  if ex.kind = .EncodeException then ex else { kind := .EncodeException, msg := strex ex }

/-- We use the numeric value to find a lookup.
This lets us use name aliases that resolve to the same value. -/
def blockTypeValue (BlockType : EnumTypeWrapper) (blockType : String) : Except Exn Int :=
  match BlockType.Value blockType with
  | .ok value => .ok value
  | .error _ =>
    if blockType = "EdgeCase" then .ok 9001
    else .error { kind := .EncodeException, msg := s!"Unknown block type: {blockType}" }

/-- `payload.content['bytes']`, as the content of an encoded payload. -/
def contentBytes (content : Option Dict) : Except Exn Text := do
  match ← subscript ((content.map Value.dict).getD .none) "bytes".toList with
  | .str t => return t
  | _ => throw { kind := .ValueError, msg := "Input should be a valid string" }

/-- `encode_payload`, before its exceptions are handled. -/
def encodePayload (codec : Codec) (payload : DecodedPayload) (filter_values : Bool) :
    Except Exn EncodedPayload :=
  match payload.blockType with
  -- No encoding required
  | none => .ok { blockId := payload.blockId, name := payload.name }
  | some blockType => do
    let block_type_value ← blockTypeValue codec.lookup.BlockType blockType
    if blockType = "Deprecated" then
      return { blockId := payload.blockId, blockType := some (.int block_type_value),
               name := payload.name, content := some (← contentBytes payload.content) }
    else if payload.content.isNone then
      -- Interface-only payload
      match codec.lookup.combined.find? (·.type_int = block_type_value) with
      | none => throw { kind := .StopIteration }
      | some impl =>
        return { blockId := payload.blockId, blockType := some (.int impl.type_int),
                 name := payload.name }
    else
      -- Payload contains data
      match codec.lookup.objects.find? (·.type_int = block_type_value) with
      | none =>
        throw { kind := .EncodeException, msg := s!"No codec entry found for {blockType}" }
      | some impl =>
        let payload ← pre_encode codec.env codec.units codec.pool impl.message_cls payload
          filter_values
        let data ← codec.protobuf.serialize impl.message_cls (← contentOf payload)
        return { blockId := payload.blockId, blockType := some (.int impl.type_int),
                 name := payload.name, content := some (b64encode data),
                 maskMode := payload.maskMode, maskFields := payload.maskFields }

def encode_payload (codec : Codec) (payload : DecodedPayload)
    (filter_values : Option Bool := none) : Except Exn EncodedPayload :=
  (encodePayload codec payload (filter_values.getD codec.filter_values)).mapError encodeFailure

/-! ## Decoding -/

/-- `str(payload.blockType)` -/
def blockTypeText : Option BlockTypeId → String
  | none => "None"
  | some (.int i) => String.ofList (intText i)
  | some (.str s) => s

def blockTypeField : Option BlockTypeId → Value
  | none => .none
  | some (.int i) => .int i
  | some (.str s) => .str s.toList

def contentField : Option Text → Value
  | none => .none
  | some t => .str t

/-- `b64decode(payload.content)` -/
def decodeContent : Option Text → Except Exn Bytes
  | none => .error (notBytes .none)
  | some t =>
    if t.any (128 ≤ ·.toNat) then
      .error { kind := .ValueError, msg := "string argument should contain only ASCII characters" }
    else match b64decode t with
      | some data => .ok data
      | none => .error { kind := .BinasciiError, msg := "Incorrect padding" }

/-- No lookup of any kind was found. We're decoding (returned) data, so would rather return a
stub than raise an error. -/
def unknownStub (payload : EncodedPayload) : DecodedPayload :=
  let msg := s!"No codec entry found for {blockTypeText payload.blockType}"
  { blockId := payload.blockId, blockType := some UNKNOWN_TYPE_STR, name := payload.name
    content := some [("error".toList, .str msg.toList)] }

def errorStub (payload : EncodedPayload) (ex : Exn) : DecodedPayload :=
  { blockId := payload.blockId, blockType := some ERROR_TYPE_STR, name := payload.name
    content := some [("error".toList, .str (strex ex).toList),
      ("blockType".toList, blockTypeField payload.blockType)] }

/-- `decode_payload`, before its exceptions are handled. -/
def decodePayload (codec : Codec) (payload : EncodedPayload) (mode : ReadMode)
    (filter_values : Bool) : Except Exn DecodedPayload := do
  if payload.blockType = some (.int (← codec.lookup.BlockType.Value "Deprecated")) then
    return { blockId := payload.blockId, blockType := some "Deprecated", name := payload.name
             content := some [("bytes".toList, contentField payload.content)] }
  else
    -- First, try to find an object lookup
    match codec.lookup.objects.find? (·.has payload.blockType) with
    | some impl =>
      let data ← decodeContent payload.content
      let content ← codec.protobuf.parse impl.message_cls data (mode ≠ .DEFAULT)
      post_decode codec.env codec.units codec.pool impl.message_cls
        { blockId := payload.blockId, blockType := some impl.type_str, name := payload.name
          content := some content, maskMode := payload.maskMode
          maskFields := payload.maskFields } mode filter_values
    | none =>
      -- No object lookup found. Try the interfaces.
      match codec.lookup.interfaces.find? (·.has payload.blockType) with
      | some impl =>
        return { blockId := payload.blockId, blockType := some impl.type_str
                 name := payload.name }
      | none => return unknownStub payload

def decode_payload (codec : Codec) (payload : EncodedPayload) (mode : ReadMode := .DEFAULT)
    (filter_values : Option Bool := none) : DecodedPayload :=
  match decodePayload codec payload mode (filter_values.getD codec.filter_values) with
  | .ok decoded => decoded
  | .error ex => errorStub payload ex

/-! ## What a payload is about

The codec is about the type and the content of a block: the id and the name stay. -/

/-- The ids of a payload and of what is made of it. -/
structure SameIds (blockId blockId' : Int) (name name' : Option String) : Prop where
  blockId : blockId' = blockId
  name : name' = name

theorem pre_encode_ids {env : Packages} {cv : UnitConverter} {pool : Pool} {desc : Text}
    {payload encoded : DecodedPayload} {filter_values : Bool}
    (h : pre_encode env cv pool desc payload filter_values = .ok encoded) :
    SameIds payload.blockId encoded.blockId payload.name encoded.name := by
  unfold pre_encode at h
  obtain ⟨content, -, h⟩ := bind_eq_ok.mp h
  obtain ⟨walked, -, h⟩ := bind_eq_ok.mp h
  cases h
  exact ⟨rfl, rfl⟩

theorem post_decode_ids {env : Packages} {cv : UnitConverter} {pool : Pool} {desc : Text}
    {payload decoded : DecodedPayload} {mode : ReadMode} {filter_values : Bool}
    (h : post_decode env cv pool desc payload mode filter_values = .ok decoded) :
    SameIds payload.blockId decoded.blockId payload.name decoded.name := by
  unfold post_decode at h
  obtain ⟨content, -, h⟩ := bind_eq_ok.mp h
  obtain ⟨walked, -, h⟩ := bind_eq_ok.mp h
  cases h
  exact ⟨rfl, rfl⟩

theorem encode_payload_ids {codec : Codec} {payload : DecodedPayload} {encoded : EncodedPayload}
    {filter_values : Option Bool} (h : encode_payload codec payload filter_values = .ok encoded) :
    SameIds payload.blockId encoded.blockId payload.name encoded.name := by
  have h := mapError_eq_ok.mp h
  unfold encodePayload at h
  split at h
  · cases h
    exact ⟨rfl, rfl⟩
  · obtain ⟨value, -, h⟩ := bind_eq_ok.mp h
    split at h
    · obtain ⟨content, -, h⟩ := bind_eq_ok.mp h
      cases h
      exact ⟨rfl, rfl⟩
    · split at h
      · split at h
        · cases h
        · cases h
          exact ⟨rfl, rfl⟩
      · split at h
        · cases h
        · obtain ⟨pre, hpre, h⟩ := bind_eq_ok.mp h
          obtain ⟨content, -, h⟩ := bind_eq_ok.mp h
          obtain ⟨data, -, h⟩ := bind_eq_ok.mp h
          cases h
          exact pre_encode_ids hpre

/-- Whatever went wrong, it leaves the codec as an `EncodeException`. -/
theorem encode_payload_error {codec : Codec} {payload : DecodedPayload} {ex : Exn}
    {filter_values : Option Bool} (h : encode_payload codec payload filter_values = .error ex) :
    ex.kind = .EncodeException := by
  unfold encode_payload at h
  cases hraised : encodePayload codec payload (filter_values.getD codec.filter_values) with
  | ok encoded =>
    rw [hraised] at h
    cases h
  | error raised =>
    rw [hraised] at h
    cases h
    unfold encodeFailure
    split
    · assumption
    · rfl

theorem decodePayload_ids {codec : Codec} {payload : EncodedPayload} {decoded : DecodedPayload}
    {mode : ReadMode} {filter_values : Bool}
    (h : decodePayload codec payload mode filter_values = .ok decoded) :
    SameIds payload.blockId decoded.blockId payload.name decoded.name := by
  unfold decodePayload at h
  obtain ⟨deprecated, -, h⟩ := bind_eq_ok.mp h
  split at h
  · cases h
    exact ⟨rfl, rfl⟩
  · split at h
    · obtain ⟨data, -, h⟩ := bind_eq_ok.mp h
      obtain ⟨content, -, h⟩ := bind_eq_ok.mp h
      have hids := post_decode_ids h
      exact ⟨hids.blockId, hids.name⟩
    · split at h
      · cases h
        exact ⟨rfl, rfl⟩
      · cases h
        exact ⟨rfl, rfl⟩

theorem decode_payload_ids (codec : Codec) (payload : EncodedPayload) (mode : ReadMode)
    (filter_values : Option Bool) :
    SameIds payload.blockId (decode_payload codec payload mode filter_values).blockId
      payload.name (decode_payload codec payload mode filter_values).name := by
  unfold decode_payload
  split
  case h_1 decoded h => exact decodePayload_ids h
  case h_2 ex h => exact ⟨rfl, rfl⟩

end devcon_spark.codec
