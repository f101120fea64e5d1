-- The commander: requests and responses are matched by message id. Any number
-- of calls of `_execute` run at the same time, and the event loop may put
-- their parts in any order.
import DevconSpark.Exceptions
import DevconSpark.Runs
import Mathlib.Data.List.AList

open devcon_spark.exceptions

namespace devcon_spark.command

/-! ## Requests and responses -/

inductive Opcode
  | NONE | VERSION
  | BLOCK_READ | BLOCK_READ_ALL | BLOCK_WRITE | BLOCK_CREATE | BLOCK_DELETE | BLOCK_DISCOVER
  | STORAGE_READ | STORAGE_READ_ALL
  | NAME_READ | NAME_READ_ALL | NAME_WRITE
  | REBOOT | CLEAR_BLOCKS | CLEAR_WIFI | FACTORY_RESET
  | FIRMWARE_UPDATE
  deriving DecidableEq

def Opcode.name : Opcode → String
  | .NONE => "NONE"
  | .VERSION => "VERSION"
  | .BLOCK_READ => "BLOCK_READ"
  | .BLOCK_READ_ALL => "BLOCK_READ_ALL"
  | .BLOCK_WRITE => "BLOCK_WRITE"
  | .BLOCK_CREATE => "BLOCK_CREATE"
  | .BLOCK_DELETE => "BLOCK_DELETE"
  | .BLOCK_DISCOVER => "BLOCK_DISCOVER"
  | .STORAGE_READ => "STORAGE_READ"
  | .STORAGE_READ_ALL => "STORAGE_READ_ALL"
  | .NAME_READ => "NAME_READ"
  | .NAME_READ_ALL => "NAME_READ_ALL"
  | .NAME_WRITE => "NAME_WRITE"
  | .REBOOT => "REBOOT"
  | .CLEAR_BLOCKS => "CLEAR_BLOCKS"
  | .CLEAR_WIFI => "CLEAR_WIFI"
  | .FACTORY_RESET => "FACTORY_RESET"
  | .FIRMWARE_UPDATE => "FIRMWARE_UPDATE"

inductive ErrorCode
  | OK | UNKNOWN_ERROR | INVALID_OPCODE | NOT_ALLOWED
  | INSUFFICIENT_HEAP | INSUFFICIENT_STORAGE
  | NETWORK_ERROR | NETWORK_READ_ERROR | NETWORK_DECODING_ERROR | NETWORK_WRITE_ERROR
  | NETWORK_ENCODING_ERROR
  | STORAGE_ERROR | STORAGE_READ_ERROR | STORAGE_DECODING_ERROR | STORAGE_CRC_ERROR
  | STORAGE_WRITE_ERROR | STORAGE_ENCODING_ERROR | STORAGE_OUT_OF_BOUNDS_ERROR
  | BLOCK_NOT_WRITABLE | BLOCK_NOT_READABLE | BLOCK_NOT_CREATABLE | BLOCK_NOT_DELETABLE
  | INVALID_BLOCK | INVALID_BLOCK_ID | INVALID_BLOCK_TYPE | INVALID_BLOCK_CONTENT
  | INVALID_BLOCK_NAME
  | INVALID_STORED_BLOCK | INVALID_STORED_BLOCK_ID | INVALID_STORED_BLOCK_TYPE
  | INVALID_STORED_BLOCK_CONTENT | INVALID_STORED_BLOCK_NAME
  | DUPLICATE_BLOCK_ID | DUPLICATE_BLOCK_NAME
  deriving DecidableEq

def ErrorCode.name : ErrorCode → String
  | .OK => "OK"
  | .UNKNOWN_ERROR => "UNKNOWN_ERROR"
  | .INVALID_OPCODE => "INVALID_OPCODE"
  | .NOT_ALLOWED => "NOT_ALLOWED"
  | .INSUFFICIENT_HEAP => "INSUFFICIENT_HEAP"
  | .INSUFFICIENT_STORAGE => "INSUFFICIENT_STORAGE"
  | .NETWORK_ERROR => "NETWORK_ERROR"
  | .NETWORK_READ_ERROR => "NETWORK_READ_ERROR"
  | .NETWORK_DECODING_ERROR => "NETWORK_DECODING_ERROR"
  | .NETWORK_WRITE_ERROR => "NETWORK_WRITE_ERROR"
  | .NETWORK_ENCODING_ERROR => "NETWORK_ENCODING_ERROR"
  | .STORAGE_ERROR => "STORAGE_ERROR"
  | .STORAGE_READ_ERROR => "STORAGE_READ_ERROR"
  | .STORAGE_DECODING_ERROR => "STORAGE_DECODING_ERROR"
  | .STORAGE_CRC_ERROR => "STORAGE_CRC_ERROR"
  | .STORAGE_WRITE_ERROR => "STORAGE_WRITE_ERROR"
  | .STORAGE_ENCODING_ERROR => "STORAGE_ENCODING_ERROR"
  | .STORAGE_OUT_OF_BOUNDS_ERROR => "STORAGE_OUT_OF_BOUNDS_ERROR"
  | .BLOCK_NOT_WRITABLE => "BLOCK_NOT_WRITABLE"
  | .BLOCK_NOT_READABLE => "BLOCK_NOT_READABLE"
  | .BLOCK_NOT_CREATABLE => "BLOCK_NOT_CREATABLE"
  | .BLOCK_NOT_DELETABLE => "BLOCK_NOT_DELETABLE"
  | .INVALID_BLOCK => "INVALID_BLOCK"
  | .INVALID_BLOCK_ID => "INVALID_BLOCK_ID"
  | .INVALID_BLOCK_TYPE => "INVALID_BLOCK_TYPE"
  | .INVALID_BLOCK_CONTENT => "INVALID_BLOCK_CONTENT"
  | .INVALID_BLOCK_NAME => "INVALID_BLOCK_NAME"
  | .INVALID_STORED_BLOCK => "INVALID_STORED_BLOCK"
  | .INVALID_STORED_BLOCK_ID => "INVALID_STORED_BLOCK_ID"
  | .INVALID_STORED_BLOCK_TYPE => "INVALID_STORED_BLOCK_TYPE"
  | .INVALID_STORED_BLOCK_CONTENT => "INVALID_STORED_BLOCK_CONTENT"
  | .INVALID_STORED_BLOCK_NAME => "INVALID_STORED_BLOCK_NAME"
  | .DUPLICATE_BLOCK_ID => "DUPLICATE_BLOCK_ID"
  | .DUPLICATE_BLOCK_NAME => "DUPLICATE_BLOCK_NAME"

inductive ReadMode
  | DEFAULT | STORED | LOGGED
  deriving DecidableEq

structure IntermediateRequest (Payload : Type) where
  msgId : Nat
  opcode : Opcode
  mode : ReadMode
  payload : Option Payload

structure IntermediateResponse (Payload : Type) where
  msgId : Nat
  error : ErrorCode
  payload : List Payload
  deriving DecidableEq

/-- What the commander uses of the codec. -/
structure Codec (Payload : Type) where
  encode_request : IntermediateRequest Payload → Except Exn String
  decode_response : String → Except Exn (IntermediateResponse Payload)

/-! ## One request -/

/-- The future that a response completes. -/
inductive Future (Payload : Type)
  | pending
  | result (response : IntermediateResponse Payload)
  | cancelled
  deriving DecidableEq

/-- How a call of `_execute` ended. -/
inductive End (Payload : Type)
  | completed (response : IntermediateResponse Payload)
  | timedOut
  | sendFailed (ex : Exn)
  | encodeFailed (ex : Exn)
  | cancelled
  /-- The `del` of the `finally` block did not find the message id. -/
  | lost
  deriving DecidableEq

inductive Phase (Payload : Type)
  /-- In `conn.send_request`. -/
  | sending
  /-- In `asyncio.wait_for`. -/
  | awaiting
  /-- Cancelled in `asyncio.wait_for`, which waits for its future to end. -/
  | cancelling
  | ended (how : End Payload)
  deriving DecidableEq

structure Request (Payload : Type) where
  msg_id : Nat
  opcode : Opcode
  fut : Future Payload
  phase : Phase Payload
  deriving DecidableEq

variable {Payload : Type}

/-- A request is outstanding until its call of `_execute` ended. -/
def Request.outstanding (r : Request Payload) : Bool :=
  match r.phase with
  | .ended _ => false
  | _ => true

/-- What leaves `_execute` for an exception of `conn.send_request`: its `except` is not for the
wait alone. -/
def timeoutOf (opcode : Opcode) (ex : Exn) : Exn :=
  if ex.kind = .TimeoutError then { kind := .CommandTimeout, msg := opcode.name } else ex

/-- What the caller of `_execute` gets. `none` is `asyncio.CancelledError`. -/
def Request.outcome (r : Request Payload) : End Payload → Option (Except Exn (List Payload))
  | .completed response =>
    if response.error ≠ .OK then
      some (.error
        { kind := .CommandException
          msg := r.opcode.name ++ ", " ++ response.error.name })
    else some (.ok response.payload)
  | .timedOut => some (.error { kind := .CommandTimeout, msg := r.opcode.name })
  | .sendFailed ex => some (.error (timeoutOf r.opcode ex))
  | .encodeFailed ex => some (.error ex)
  | .cancelled => none
  | .lost => some (.error { kind := .KeyError, msg := toString r.msg_id })

/-! ## The commander -/

/-- A call of `wait_empty`. -/
inductive Waiter
  | waiting
  /-- The event was set, and the call comes back when the loop gets to it. -/
  | woken
  /-- It came back, with these requests outstanding. -/
  | returned (outstanding : List Nat)
  deriving DecidableEq

/-- A response that completed the future of a request, with the requests that
were outstanding as it came in. -/
structure Accepted (Payload : Type) where
  request : Nat
  response : IntermediateResponse Payload
  outstanding : List Nat
  deriving DecidableEq

/-- The commander with its calls. A request is known by its place in
`requests`, which are in the order of their start. The record `accepted` is
for the laws only: the code keeps none. -/
structure Commander (Payload : Type) where
  msgid : Nat := 0
  active_messages : AList (fun _ : Nat => Nat) := ∅
  empty_ev : Bool := true
  requests : List (Request Payload) := []
  waiters : List Waiter := []
  accepted : List (Accepted Payload) := []

namespace Commander

/-- `_next_id` -/
def next_id (s : Commander Payload) : Nat := (s.msgid + 1) % 0xFFFF

/-- The places of the requests that are outstanding. -/
def outstanding (s : Commander Payload) : List Nat :=
  (List.range s.requests.length).filter fun n => (s.requests[n]?).any Request.outstanding

/-- The start of `_execute`, up to its first await. -/
def execute (codec : Codec Payload) (s : Commander Payload) (opcode : Opcode)
    (payload : Option Payload) (mode : ReadMode) : Commander Payload :=
  let msg_id := s.next_id
  match codec.encode_request { msgId := msg_id, opcode, mode, payload } with
  | .error ex =>
    { s with
      msgid := msg_id
      requests := s.requests ++
        [{ msg_id, opcode, fut := .pending, phase := .ended (.encodeFailed ex) }] }
  | .ok _ =>
    { s with
      msgid := msg_id
      active_messages := s.active_messages.insert msg_id s.requests.length
      empty_ev := false
      requests := s.requests ++ [{ msg_id, opcode, fut := .pending, phase := .sending }] }

/-- The body of the `try` block of `_on_response`. A `set_result` on a future
that is done raises. -/
def take_response (codec : Codec Payload) (s : Commander Payload) (msg : String) :
    Except Exn (Commander Payload) := do
  let response ← codec.decode_response msg
  match s.active_messages.lookup response.msgId with
  | none => .error { kind := .ValueError, msg := "Unexpected message" }
  | some n =>
    match s.requests[n]? with
    | some { msg_id, opcode, fut := .pending, phase } =>
      .ok { s with
        requests := s.requests.set n { msg_id, opcode, fut := .result response, phase }
        accepted := s.accepted ++
          [{ request := n, response, outstanding := s.outstanding }] }
    | _ => .error { kind := .InvalidStateError, msg := "invalid state" }

/-- `_on_response`: every exception is caught and logged. -/
def on_response (codec : Codec Payload) (s : Commander Payload) (msg : String) :
    Except Exn (Commander Payload) :=
  tryCatch (s.take_response codec msg) fun _ => .ok s

/-- `Event.set` wakes every call that waits. -/
def set_empty (s : Commander Payload) : Commander Payload :=
  { s with
    empty_ev := true
    waiters := s.waiters.map fun
      | .waiting => .woken
      | w => w }

/-- The `finally` block of `_execute`, for request `n` that ends as `how`. -/
def conclude (s : Commander Payload) (n : Nat) (r : Request Payload) (how : End Payload) :
    Commander Payload :=
  match s.active_messages.lookup r.msg_id with
  | none => { s with requests := s.requests.set n { r with phase := .ended .lost } }
  | some _ =>
    let s' :=
      { s with
        active_messages := s.active_messages.erase r.msg_id
        requests := s.requests.set n { r with phase := .ended how } }
    if s'.active_messages.keys = [] then s'.set_empty else s'

end Commander

/-! ## Any order of events -/

inductive Action (Payload : Type)
  | execute (opcode : Opcode) (payload : Option Payload) (mode : ReadMode)
  /-- `send_request` of request `n` comes back. -/
  | sent (n : Nat)
  | sendFail (n : Nat) (ex : Exn)
  | response (msg : String)
  /-- The timer of `wait_for` fires. -/
  | timeout (n : Nat)
  /-- `asyncio.CancelledError` reaches the call. -/
  | cancel (n : Nat)
  /-- `wait_for` comes back, with the result or the exception of its future. -/
  | finish (n : Nat)
  | wait_empty
  /-- Call `w` of `wait_empty` comes back from its wait. -/
  | resume (w : Nat)

/-- What one action makes of the request that it is about: it goes on, or its
call ends. A timer or a cancellation that comes after the result changes
nothing, `wait_for` then returns the result. -/
inductive Next (Payload : Type)
  | goesOn (r : Request Payload)
  | ends (how : End Payload)

def Request.next (r : Request Payload) : Action Payload → Option (Next Payload)
  | .sent _ =>
    match r.phase with
    | .sending => some (.goesOn { r with phase := .awaiting })
    | _ => none
  | .sendFail _ ex =>
    match r.phase with
    | .sending => some (.ends (.sendFailed ex))
    | _ => none
  | .timeout _ =>
    match r.phase, r.fut with
    | .awaiting, .pending => some (.goesOn { r with fut := .cancelled })
    | _, _ => none
  | .cancel _ =>
    match r.phase, r.fut with
    | .sending, _ => some (.ends .cancelled)
    | .awaiting, .pending => some (.goesOn { r with fut := .cancelled, phase := .cancelling })
    | .awaiting, .cancelled => some (.ends .cancelled)
    | .cancelling, _ => some (.ends .cancelled)
    | _, _ => none
  | .finish _ =>
    match r.phase, r.fut with
    | .awaiting, .result response => some (.ends (.completed response))
    | .awaiting, .cancelled => some (.ends .timedOut)
    | .cancelling, _ => some (.ends .cancelled)
    | _, _ => none
  | _ => none

def Commander.advance (s : Commander Payload) (a : Action Payload) (n : Nat) :
    Option (Commander Payload) :=
  (s.requests[n]?).bind fun r =>
    (r.next a).map fun
      | .goesOn r' => { s with requests := s.requests.set n r' }
      | .ends how => s.conclude n r how

def step (codec : Codec Payload) (s : Commander Payload) :
    Action Payload → Option (Commander Payload)
  | .execute opcode payload mode => some (s.execute codec opcode payload mode)
  | .response msg => (s.on_response codec msg).toOption
  | .sent n => s.advance (.sent n) n
  | .sendFail n ex => s.advance (.sendFail n ex) n
  | .timeout n => s.advance (.timeout n) n
  | .cancel n => s.advance (.cancel n) n
  | .finish n => s.advance (.finish n) n
  | .wait_empty =>
    some { s with
      waiters := s.waiters ++ [if s.empty_ev then .returned s.outstanding else .waiting] }
  | .resume w =>
    match s.waiters[w]? with
    | some .woken => some { s with waiters := s.waiters.set w (.returned s.outstanding) }
    | _ => none

end devcon_spark.command
