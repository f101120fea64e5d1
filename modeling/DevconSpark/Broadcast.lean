-- The broadcaster (`broadcast.py`): what it publishes of the blocks and of the
-- state of the service.
import DevconSpark.BlockAnalysis
import DevconSpark.SparkApi

open py_dict py_value devcon_spark.exceptions devcon_spark.models devcon_spark.spark_api
open devcon_spark.block_analysis devcon_spark.state_machine

namespace devcon_spark.broadcast

structure ServiceStateEventData where
  status : StatusDescription
  blocks : List Block
  relations : List BlockRelation
  claims : List BlockClaim

inductive Event
  /-- The data of the logged blocks by their ids. -/
  | HistoryEvent (key : String) (data : List (Option String × Dict))
  | ServiceStateEvent (key : String) (type : String) (data : ServiceStateEventData)

/-- What is handed to the MQTT client. -/
structure Message where
  topic : String
  event : Event
  retain : Bool := false

/-- The world of the operations, the blocks that were read, and all that was published. -/
structure Broadcaster extends World where
  blocks : List Block := []
  published : List Message := []

abbrev Broadcast := ExceptT Exn (StateM Broadcaster)

/-- A call of the API. -/
def api {α : Type} (operation : Api α) : Broadcast α := fun s =>
  let outcome := operation.run.run s.toWorld
  (outcome.1, { s with toWorld := outcome.2 })

def publish (message : Message) : Broadcast Unit :=
  modify fun s => { s with published := s.published ++ [message] }

/-- The topics of all services. -/
structure Topics where
  state_topic : String
  history_topic : String

variable (topics : Topics) (env : Environment)

/-- Key/value format suitable for history. -/
def historyMessage (logged_blocks : List Block) : Message :=
  { topic := s!"{topics.history_topic}/{env.name}"
    event := .HistoryEvent env.name
      (dictOf (logged_blocks.map fun block => (block.id, block.data))) }

def stateMessage (status : StatusDescription) (blocks : List Block) : Except Exn Message := do
  let relations ← calculate_relations blocks
  let claims ← calculate_claims blocks
  return { topic := s!"{topics.state_topic}/{env.name}"
           event := .ServiceStateEvent env.name "Spark.state" { status, blocks, relations, claims }
           retain := true }

/-- The part that may fail because of the controller. -/
def publishBlocks : Broadcast Unit := do
  if (← get).state.synchronized_ev then
    let blocks ← api (read_all_blocks env)
    modify fun s => { s with blocks }
    let logged_blocks ← api (read_all_logged_blocks env)
    publish (historyMessage topics env logged_blocks)

/-- The part that runs always. -/
def publishState : Broadcast Unit := do
  let s ← get
  publish (← liftExcept (stateMessage topics env s.state.status_desc s.blocks))

def run : Broadcast Unit := do
  modify fun s => { s with blocks := [] }
  try publishBlocks topics env
  finally publishState topics env

end devcon_spark.broadcast
