-- Transfer firmware files to Particle-based Spark controllers using the YMODEM
-- protocol.
import DevconSpark.Exceptions
import DevconSpark.Programs
import DevconSpark.PyNumber

open programs py_text py_number devcon_spark.exceptions

namespace devcon_spark.ymodem

/-! ## Packets -/

inductive Control
  | SOH | STX | EOT | EOF | ACK | NAK | CAN | C
  deriving DecidableEq

def Control.value : Control → UInt8
  | .SOH => 0x01
  | .STX => 0x02
  | .EOT => 0x04
  | .EOF => 0x1A
  | .ACK => 0x06
  | .NAK => 0x15
  | .CAN => 0x18
  | .C => 0x43

def Control.name : Control → String
  | .SOH => "SOH"
  | .STX => "STX"
  | .EOT => "EOT"
  | .EOF => "EOF"
  | .ACK => "ACK"
  | .NAK => "NAK"
  | .CAN => "CAN"
  | .C => "C"

/-- `Control(b)` -/
def Control.ofByte (b : UInt8) : Option Control :=
  [Control.SOH, .STX, .EOT, .EOF, .ACK, .NAK, .CAN, .C].find? (·.value = b)

@[simp] theorem Control.ofByte_value (c : Control) : Control.ofByte c.value = some c := by
  cases c <;> decide

abbrev Packet := List UInt8

/-- What `data_received` is called with. -/
abbrev Message := List UInt8

def PACKET_MARK : Control := .STX

def DATA_LEN : Nat := if PACKET_MARK = .STX then 1024 else 128

def PACKET_LEN : Nat := DATA_LEN + 5

/-- `t.encode()` -/
def encode (t : Text) : List UInt8 := t.flatMap String.utf8EncodeChar

/-- The packet of `_send_data`. -/
def makePacket (seq : Nat) (data : List UInt8) : Packet :=
  let packet_data := data ++ List.replicate (DATA_LEN - data.length) 0
  let packet_seq := seq &&& 0xFF
  let packet_seq_neg := 0xFF - packet_seq
  let crc16 := [0, 0]
  [PACKET_MARK.value, UInt8.ofNat packet_seq, UInt8.ofNat packet_seq_neg] ++ packet_data ++ crc16

/-- The data of the file header. -/
def headerData (name : Text) (size : Nat) : List UInt8 :=
  [PACKET_MARK.value] ++ encode name ++ [0] ++ encode (natText size ++ [' '])

/-! ## The connection -/

structure Connection where
  written : List Packet := []
  /-- The messages that were received, and not yet awaited. -/
  queue : List Message := []

/-- Why a transfer goes no further. -/
inductive Stop
  | waiting
  | raised (ex : Exn)

abbrev Ota := ExceptT Stop (StateM Connection)

/-- The messages that arrive after a packet was written, which may depend on all packets. -/
abbrev Replies := List Packet → List Message

variable (replies : Replies)

def clear : Ota Unit := modify fun conn => { conn with queue := [] }

def write (packet : Packet) : Ota Unit := modify fun conn =>
  { written := conn.written ++ [packet]
    queue := conn.queue ++ replies (conn.written ++ [packet]) }

/-- Reads messages until one starts with something else than a continue prompt. -/
def readReply : List Message → Except Stop Control × List Message
  | [] => (.error .waiting, [])
  | [] :: queue => (.error (.raised { kind := .IndexError, msg := "index out of range" }), queue)
  | (b :: _) :: queue =>
    match Control.ofByte b with
    | none => (.error (.raised { kind := .ValueError, msg := s!"{b} is not a valid Control" }), queue)
    -- C is a continue prompt from receiver, and can be ignored
    | some .C => readReply queue
    | some resp => (.ok resp, queue)

def _send_packet (packet : Packet) : Ota Control := do
  clear
  write replies packet
  let (resp, queue) := readReply (← get).queue
  modify fun conn => { conn with queue }
  liftExcept resp

def _send_data (seq : Nat) (data : List UInt8) : Ota Control := do
  let packet := makePacket seq data
  if packet.length ≠ PACKET_LEN then
    throw (.raised
      { kind := .RuntimeError
        msg := s!"Packet length mismatch: {packet.length} / {PACKET_LEN}" })
  else do
    let response ← _send_packet replies packet
    if response = .NAK then _send_packet replies packet else return response

def _send_header (name : Text) (size : Nat) : Ota Control :=
  _send_data replies 0 (headerData name size)

/-! ## The transfer -/

/-- The float nearest to a whole number: 53 binary digits, and halves go to the even one. -/
def nearestFloat (n : Nat) : Nat :=
  let unit := 2 ^ (n.log2 + 1 - 53)
  let q := n / unit
  let r := n % unit
  if unit < 2 * r ∨ (2 * r = unit ∧ q % 2 = 1) then (q + 1) * unit else q * unit

/-- The whole numbers from here on are no floats. -/
def FLOAT_END : Nat := 2 ^ 1024

/-- `math.ceil(fsize / DATA_LEN)`. To divide a float by `DATA_LEN` loses nothing. -/
def num_packets (fsize : Nat) : Except Exn Nat :=
  if FLOAT_END * DATA_LEN ≤ nearestFloat fsize then
    .error { kind := .OverflowError, msg := "integer division result too large for a float" }
  else .ok ((nearestFloat fsize + DATA_LEN - 1) / DATA_LEN)

def aborted (msg : String) : Stop := .raised { kind := .ConnectionAbortedError, msg }

/-- The loop of `_transfer`: so many packets, with what is left of the file. -/
def sendBody : Nat → Nat → List UInt8 → Ota Unit
  | 0, _, _ => return
  | n + 1, current, file => do
    let response ← _send_data replies current (file.take DATA_LEN)
    if response ≠ .ACK then
      throw (aborted s!"Failed with code {response.name} while sending package {current}")
    else sendBody n (current + 1) (file.drop DATA_LEN)

/-- The end of `_transfer`. -/
def sendEnd : Ota Unit := do
  let response ← _send_packet replies [Control.EOT.value]
  if response ≠ .ACK then throw (.raised { kind := .AssertionError })
  else do
    let _ ← _send_data replies 0 []
    return

def _transfer (name : Text) (file : List UInt8) : Ota Unit := do
  let num ← liftExcept ((num_packets file.length).mapError Stop.raised)
  let response ← _send_header replies name file.length
  if response ≠ .ACK then
    throw (aborted s!"Failed with code {response.name} while sending header")
  else do
    -- packet 0 was the header
    sendBody replies num 1 file
    sendEnd replies

end devcon_spark.ymodem
