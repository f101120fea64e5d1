-- The responses that come over MQTT: in chunks, each with the id of its
-- message and its index.
import DevconSpark.Binary
import DevconSpark.PyValue

open py_text py_number py_value binary devcon_spark.exceptions

namespace devcon_spark.connection.mqtt_connection

/-! ## The connection -/

structure MqttConnection where
  _recv_msg_id : Int := 0
  /-- `__init__` declares the chunks, and does not assign them. -/
  _recv_chunks : Option (List Text) := none
  deriving DecidableEq

def MqttConnection._reset_recv_buffer (_ : MqttConnection) (msg_id : Int) : MqttConnection :=
  { _recv_msg_id := msg_id, _recv_chunks := some [] }

structure Chunk where
  msg_id : Int
  chunk_idx : Int
  chunk : Text
  deriving DecidableEq

/-- The three parts of a payload. `none` is `ValueError`. -/
def chunk? (payload : ByteArray) : Option Chunk := do
  let text ← payload.utf8Decode?
  match text.toList.splitOn ';' with
  | [msg_id, chunk_idx, chunk] =>
    return { msg_id := ← intOfText msg_id, chunk_idx := ← intOfText chunk_idx, chunk }
  | _ => none

/-- Another id starts another message. -/
def MqttConnection.atMessage (self : MqttConnection) (msg_id : Int) : MqttConnection :=
  if msg_id ≠ self._recv_msg_id then self._reset_recv_buffer msg_id else self

def noChunks : Exn :=
  { kind := .AttributeError, msg := "'MqttConnection' object has no attribute '_recv_chunks'" }

/-- One payload of the response topic: the connection after it, and the message that is handed
to `on_response`. The buffer is reset before the message is handed over. -/
def MqttConnection._resp_cb (self : MqttConnection) (payload : ByteArray) :
    MqttConnection × Except Exn (Option Text) :=
  match chunk? payload with
  | none => (self._reset_recv_buffer 0, .ok none)
  | some { msg_id, chunk_idx, chunk } =>
    let self := self.atMessage msg_id
    match self._recv_chunks with
    | none => (self, .error noChunks)
    | some chunks =>
      if (chunks.length : Int) ≠ chunk_idx then (self._reset_recv_buffer 0, .ok none)
      -- we found a message separator - message is done
      else if '\n' ∈ chunk then
        (self._reset_recv_buffer 0, .ok (some (rstrip (chunks ++ [chunk]).flatten)))
      else ({ self with _recv_chunks := some (chunks ++ [chunk]) }, .ok none)

/-- The bytes that `decode_response` joins from the parts of a message. -/
def joinedData (b64_encoded : Text) : Option Bytes :=
  if b64_encoded.any (128 ≤ ·.toNat) then none
  else ((b64_encoded.splitOn ',').mapM b64decode).map List.flatten

/-! ## Payloads in order -/

def after (self : MqttConnection) (payloads : List ByteArray) : MqttConnection :=
  payloads.foldl (fun self payload => (self._resp_cb payload).1) self

/-- What came of each payload. -/
def responses (self : MqttConnection) : List ByteArray → List (Except Exn (Option Text))
  | [] => []
  | payload :: payloads =>
    (self._resp_cb payload).2 :: responses (self._resp_cb payload).1 payloads

/-- The payload of a chunk, as the controller publishes it. -/
def payloadOf (msg_id : Int) (chunk_idx : Nat) (chunk : Text) : ByteArray :=
  (String.ofList (intText msg_id ++ ';' :: natText chunk_idx ++ ';' :: chunk)).toByteArray

/-- The payloads of chunks, with their indices from `k` on. -/
def payloadsFrom (msg_id : Int) (k : Nat) : List Text → List ByteArray
  | [] => []
  | chunk :: chunks => payloadOf msg_id k chunk :: payloadsFrom msg_id (k + 1) chunks

/-- The chunks of a response in pieces: the text of each piece and a comma, or a newline after
the last piece. -/
def chunksOf (pieces : List Bytes) (last : Bytes) : List Text :=
  pieces.map (fun piece => b64encode piece ++ [',']) ++ [b64encode last ++ ['\n']]

end devcon_spark.connection.mqtt_connection
