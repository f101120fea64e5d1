-- The REST endpoints that change blocks (`endpoints/http_blocks.py`), and the
-- events that they publish.
import DevconSpark.SparkApi

open bidict devcon_spark.exceptions devcon_spark.models devcon_spark.spark_api

namespace devcon_spark.endpoints.http_blocks

/-! ## What is published -/

structure ServicePatchEventData where
  changed : List Block := []
  deleted : List String := []

structure ServicePatchEvent where
  key : String
  type : String := "Spark.patch"
  data : ServicePatchEventData

/-- The world of the endpoints: that of the operations, and all that was published, each event with
its topic. -/
structure Service extends World where
  published : List (String × ServicePatchEvent) := []

abbrev Endpoint := ExceptT Exn (StateM Service)

/-- A call of the API. -/
def api {α : Type} (operation : Api α) : Endpoint α := fun s =>
  let outcome := operation.run.run s.toWorld
  (outcome.1, { s with toWorld := outcome.2 })

/-- `[v.id for v in deleted]`, for the names of an event, which are texts. -/
def deletedIds (deleted : List BlockIdentity) : Except Exn (List String) :=
  deleted.mapM fun v => match v.id with
    | some id => .ok id
    | none => .error { kind := .ValueError, msg := "Input should be a valid string" }

variable (state_topic : String) (env : Environment)

def publish (changed : List Block) (deleted : List BlockIdentity) : Endpoint Unit := do
  let deleted ← liftExcept (deletedIds deleted)
  modify fun s => { s with
    published := s.published ++
      [(s!"{state_topic}/{env.name}/patch", { key := env.name, data := { changed, deleted } })] }

/-! ## One block -/

/-- An endpoint that publishes the block that an operation gave back. -/
def changeOne (operation : Block → Api Block) (args : Block) : Endpoint Block := do
  let block ← api (operation args)
  publish state_topic env [block] []
  return block

/-- Create new block. -/
def blocks_create : Block → Endpoint Block := changeOne state_topic env (create_block env)

/-- Write existing block. This will replace all fields. -/
def blocks_write : Block → Endpoint Block := changeOne state_topic env (write_block env)

/-- Patch existing block. This will only replace provided fields. -/
def blocks_patch : Block → Endpoint Block := changeOne state_topic env (patch_block env)

/-- Delete existing user block. -/
def blocks_delete (args : BlockIdentity) : Endpoint BlockIdentity := do
  let ident ← api (delete_block env args)
  publish state_topic env [] [ident]
  return ident

/-! ## Many blocks -/

/-- An endpoint that publishes the blocks that an operation gave back, once it did all of them. -/
def changeAll (operation : Block → Api Block) (args : List Block) : Endpoint (List Block) := do
  let blocks ← args.mapM fun block => api (operation block)
  publish state_topic env blocks []
  return blocks

/-- Create multiple new blocks. -/
def blocks_batch_create : List Block → Endpoint (List Block) :=
  changeAll state_topic env (create_block env)

/-- Write multiple existing blocks. This will replace all fields. -/
def blocks_batch_write : List Block → Endpoint (List Block) :=
  changeAll state_topic env (write_block env)

/-- Write multiple existing blocks. This will only replace provided fields. -/
def blocks_batch_patch : List Block → Endpoint (List Block) :=
  changeAll state_topic env (patch_block env)

/-- Delete multiple existing user blocks. -/
def blocks_batch_delete (args : List BlockIdentity) : Endpoint (List BlockIdentity) := do
  let idents ← args.mapM fun ident => api (delete_block env ident)
  publish state_topic env [] idents
  return idents

end devcon_spark.endpoints.http_blocks
