-- The OTA client: it makes sure that the other side is an updater that is
-- ready for firmware, and only then transfers the file.
import DevconSpark.Utf8
import DevconSpark.YmodemLaws

open programs py_text devcon_spark.exceptions

namespace devcon_spark.ymodem

/-! ## What the other side says -/

structure HandshakeMessage where
  name : Text
  git_version : Text
  proto_version : Text
  git_date : Text
  proto_date : Text
  sys_version : Text
  platform : Text
  deriving DecidableEq

def HandshakeMessage.fields : List String :=
  ["name", "git_version", "proto_version", "git_date", "proto_date", "sys_version", "platform"]

/-- How Python lists the arguments that are missing. -/
def listed : List String → String
  | [] => ""
  | [name] => s!"'{name}'"
  | [name, last] => s!"'{name}' and '{last}'"
  | name :: names =>
    let last := names.getLast?.getD ""
    ", ".intercalate ((name :: names.dropLast).map fun name => s!"'{name}'") ++ s!", and '{last}'"

/-- `HandshakeMessage(*args)` -/
def HandshakeMessage.ofArgs : List Text → Except Exn HandshakeMessage
  | [name, git_version, proto_version, git_date, proto_date, sys_version, platform] =>
    .ok { name, git_version, proto_version, git_date, proto_date, sys_version, platform }
  | args =>
    let missing := HandshakeMessage.fields.drop args.length
    let arguments := if missing.length = 1 then "argument" else "arguments"
    .error
      { kind := .TypeError
        msg := s!"HandshakeMessage.__init__() missing {missing.length} required positional " ++
          s!"{arguments}: {listed missing}" }

def HandshakeMessage.parse (message : Text) : Except Exn HandshakeMessage :=
  HandshakeMessage.ofArgs ((message.splitOn ',').take 7)

/-- The message that a text starts with. -/
def messageAt (name t : Text) : Option Text :=
  match t.dropPrefix? ("<!".toList ++ name) with
  | some rest => if '>' ∈ rest then some (name ++ rest.takeWhile (· ≠ '>')) else none
  | none => none

/-- The group of `re.search(r'<!(?P<message>NAME[^>]*)>', buffer)`. -/
def searchMessage (name buffer : Text) : Option Text := buffer.tails.findSome? (messageAt name)

/-- The greeting of a controller that is not in its updater. -/
def CONTROLBOX : Text := "BREWBLOX".toList

def UPDATER : Text := "FIRMWARE_UPDATER".toList

def READY : Text := "<!READY_FOR_FIRMWARE>".toList

/-! ## The client -/

/-- Why a client goes no further. -/
inductive Failure
  | stopped (stop : Stop)
  /-- `ConnectionResetError` -/
  | reset (msg : String)

abbrev Client := ExceptT Failure (StateM Connection)

/-- A part that only sends packets. -/
def ota {α : Type} (x : Ota α) : Client α := fun conn =>
  let outcome := x.run.run conn
  (outcome.1.mapError .stopped, outcome.2)

def raised (kind : ExnKind) (msg : String) : Failure := .stopped (.raised { kind, msg })

/-- `await conn.protocol.message` -/
def message : Client Message := do
  match (← get).queue with
  | [] => throw (.stopped .waiting)
  | message :: queue => do
    modify fun conn => { conn with queue }
    return message

def _read : Client Text := do
  match utf8.decode (← message) with
  | some t => return t
  | none => throw (raised .ValueError "'utf-8' codec can't decode bytes")

def NEWLINE : Packet := [10]

/-- `b'F\n'` -/
def START : Packet := [70, 10]

def SPACE : Packet := [32]

variable (replies : Replies)

/-- The loop for the handshake, with so many turns to go. The wait of a second is over without a
message where nothing has arrived since the last write. -/
def awaitHandshake : Nat → Text → Client HandshakeMessage
  | 0, _ => throw (raised .TimeoutError "Controller did not send handshake message")
  | turns + 1, buffer => do
    if (← get).queue.isEmpty then
      -- Repeating handshake trigger...
      ota (write replies NEWLINE)
      awaitHandshake turns buffer
    else
      let buffer := buffer ++ (← _read)
      if (searchMessage CONTROLBOX buffer).isSome then
        throw (.reset "Connected to wrong protocol (controlbox handshake received)")
      else match searchMessage UPDATER buffer with
        | some message =>
          ota (liftExcept ((HandshakeMessage.parse message).mapError Stop.raised))
        | none => awaitHandshake turns buffer

/-- The loop for the answer to `START`, with so many messages to go. -/
def awaitReady : Nat → Text → Client Unit
  | 0, _ => throw (raised .TimeoutError "Controller did not enter file transfer mode")
  | turns + 1, buffer => do
    let buffer := buffer ++ (← _read)
    if READY <:+: buffer then return else awaitReady turns buffer

/-- The loop for two ACK, of which so many turns are looked at. -/
def awaitActive : Nat → Nat → Client Unit
  | turns, ack =>
    if ack < 2 then
      match turns with
      | 0 => throw (.stopped .waiting)
      | turns + 1 => do
        ota (write replies SPACE)
        match ← message with
        | [] => throw (raised .IndexError "index out of range")
        | b :: _ => awaitActive turns (if b = Control.ACK.value then ack + 1 else ack)
    else return

def _trigger_ymodem (turns : Nat) : Client HandshakeMessage := do
  -- Trigger handshake
  ota (write replies NEWLINE)
  let message ← awaitHandshake replies 20 []
  -- Trigger YMODEM mode
  ota (write replies START)
  awaitReady 10 []
  awaitActive replies turns 0
  return message

def send (turns : Nat) (name : Text) (file : List UInt8) : Client Unit := do
  let _ ← _trigger_ymodem replies turns
  ota (_transfer replies name file)

end devcon_spark.ymodem
