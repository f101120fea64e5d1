-- The service with a simulated controller: the operations of the API, the
-- commander, and the connection that answers in the same process.
import DevconSpark.Commands
import DevconSpark.MockConnection

open programs devcon_spark.exceptions devcon_spark.codec
open devcon_spark.command (CboxCommander ErrorCode IntermediateResponse Opcode ReadMode timeoutOf)
open devcon_spark.models (EncodedPayload)

namespace devcon_spark.connection.mock_connection

/-- The messages between the two. What Protobuf itself does is a parameter, and so is what a
message is: here it is only carried. -/
structure Wire (Msg : Type) where
  encode_request : Request → Except Exn Msg
  decode_request : Msg → Except Exn Request
  encode_response : Response → Except Exn Msg
  decode_response : Msg → Except Exn (IntermediateResponse EncodedPayload)

/-- What is given to `on_response`, if anything. The clock is read once before the request is
handled. -/
def send_request {Msg : Type} (env : Environment) (wire : Wire Msg) (now : Nat → Int)
    (request_b64 : Msg) : Handler (Option Msg) := do
  update_systime (now 0)
  let request ← liftExcept (wire.decode_request request_b64)
  match ← handle_command env (fun n => now (n + 1)) request with
  | some response => return some (← liftExcept (wire.encode_response response))
  | none => return none

end devcon_spark.connection.mock_connection

open devcon_spark.connection.mock_connection (MockConnection Wire send_request)

namespace devcon_spark.mocked

/-- What does not change in a run. The codec of the service filters values, and that of the
simulation does not. -/
structure Setup (Msg : Type) where
  wire : Wire Msg
  codec : Codec
  mock : connection.mock_connection.Environment
  api : spark_api.Environment
  /-- The readings of the clock while a request is handled. -/
  clock : Nat → Nat → Int

/-- A message that was sent, and the connection that it was sent to. -/
structure Sent (Msg : Type) where
  conn : MockConnection
  now : Nat → Int
  msg : Msg

/-- The commander and the connection. The record is for the laws only: the code keeps none. -/
structure Controller (Msg : Type) where
  conn : MockConnection
  msgid : Nat := 0
  sent : List (Sent Msg) := []

abbrev Call (Msg : Type) := ExceptT Exn (StateM (Controller Msg))

variable {Msg : Type} (setup : Setup Msg)

def sendRequest (msg : Msg) : Call Msg (Option Msg) := fun s =>
  let now := setup.clock s.sent.length
  let out := (send_request setup.mock setup.wire now msg).run.run s.conn
  (out.1, { s with conn := out.2, sent := s.sent ++ [{ conn := s.conn, now, msg }] })

/-- `send_request`, as `_execute` awaits it. -/
def awaitSend (opcode : Opcode) (msg : Msg) : Call Msg (Option Msg) :=
  tryCatch (sendRequest setup msg) fun ex => throw (timeoutOf opcode ex)

theorem run_awaitSend (opcode : Opcode) (msg : Msg) (s : Controller Msg) :
    (awaitSend setup opcode msg).run.run s =
      (((sendRequest setup msg).run.run s).1.mapError (timeoutOf opcode),
        ((sendRequest setup msg).run.run s).2) := by
  unfold awaitSend
  rw [run_tryCatch]
  cases (sendRequest setup msg).run.run s with
  | mk r s' => cases r <;> rfl

/-- What `_execute` makes of what `_on_response` got. A response that cannot be decoded, or that
is not for the request, leaves its future as it is. -/
def settled (opcode : Opcode) (msgId : Nat) (answer : Option Msg) :
    Except Exn (List EncodedPayload) :=
  match answer.map setup.wire.decode_response with
  | some (.ok response) =>
    if response.msgId ≠ msgId then .error { kind := .CommandTimeout, msg := opcode.name }
    else if response.error ≠ .OK then
      .error { kind := .CommandException, msg := opcode.name ++ ", " ++ response.error.name }
    else .ok response.payload
  | _ => .error { kind := .CommandTimeout, msg := opcode.name }

/-- `_execute` of a commander that has no other request outstanding. The response comes before
`send_request` is back. -/
def _execute (opcode : Opcode) (payload : Option EncodedPayload) (mode : ReadMode) :
    Call Msg (List EncodedPayload) := do
  let msgId := ((← get).msgid + 1) % 0xFFFF
  modify fun s => { s with msgid := msgId }
  let msg ← liftExcept (setup.wire.encode_request { msgId, opcode, mode, payload })
  let answer ← awaitSend setup opcode msg
  liftExcept (settled setup opcode msgId answer)

def cmder : CboxCommander (Controller Msg) Msg where
  codec := setup.codec
  encode_request := setup.wire.encode_request
  _execute := _execute setup

/-! ## The service -/

def answer (s : Controller Msg) (request : spark_api.Request) : Except Exn request.Reply :=
  (((cmder setup).perform request).run.run s).1

def next (s : Controller Msg) (request : spark_api.Request) : Controller Msg :=
  (((cmder setup).perform request).run.run s).2

/-- The API of a service that is alone with the simulation. A handshake changes nothing while the
service is synchronized. -/
def environment (s : Controller Msg) : spark_api.Environment :=
  { setup.api with
    wait_synchronized := fun shared => (shared.state.synchronized_ev, shared)
    reply := fun past request shared => (answer setup (past.foldl (next setup) s) request, shared) }

structure Service (Msg : Type) where
  world : spark_api.World
  controller : Controller Msg

inductive Action
  /-- A test sets `NEXT_ERROR`. -/
  | injected (errors : List (Option ErrorCode))
  | operated (operation : spark_api.Operation)
  /-- The synchronizer loads the names of the blocks. -/
  | loaded

/-- The service after a program of the API. -/
def performed {α : Type} (service : Service Msg)
    (program : spark_api.Environment → spark_api.Api α) : Service Msg :=
  let out := (program (environment setup service.controller)).run.run
    { service.world with requests := [] }
  { world := out.2, controller := out.2.requests.foldl (next setup) service.controller }

/-- What such a program ends with. -/
def result {α : Type} (service : Service Msg)
    (program : spark_api.Environment → spark_api.Api α) : Except Exn α :=
  ((program (environment setup service.controller)).run.run
    { service.world with requests := [] }).1

def step (service : Service Msg) : Action → Service Msg
  | .injected errors =>
    let conn := { service.controller.conn with next_error := errors }
    { service with controller := { service.controller with conn } }
  | .operated operation => performed setup service (spark_api.perform · operation)
  | .loaded => performed setup service spark_api.load_block_names

end devcon_spark.mocked
