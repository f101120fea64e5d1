-- The blocks of the API and of the firmware, and the store of their names.
import DevconSpark.Bidict
import DevconSpark.PyValue
import DevconSpark.StateMachine

open bidict py_text py_value devcon_spark.state_machine

namespace devcon_spark.models

/-- Block names and numeric ids. A block without a name has the key `None`. -/
abbrev BlockStore := Bidict (Option String) (Option Int)

inductive ReadMode
  | DEFAULT | STORED | LOGGED
  deriving DecidableEq

structure BlockIdentity where
  id : Option String := none
  nid : Option Int := none
  type : Option String := none
  serviceId : Option String := none
  deriving DecidableEq

structure Block where
  id : Option String := none
  nid : Option Int := none
  type : String
  serviceId : Option String := none
  data : Dict

structure FirmwareBlockIdentity where
  id : Option String := none
  nid : Int
  type : Option String := none
  data : Option Dict := none

structure FirmwareBlock where
  id : Option String := none
  nid : Int
  type : String
  data : Dict

inductive MaskMode
  | NO_MASK | INCLUSIVE | EXCLUSIVE
  deriving DecidableEq

structure MaskField where
  address : List Int
  deriving DecidableEq

structure DecodedPayload where
  blockId : Int
  maskMode : MaskMode := .NO_MASK
  maskFields : List MaskField := []
  blockType : Option String := none
  name : Option String := none
  content : Option Dict := none

/-- The type of a block, as its number or its name. -/
inductive BlockTypeId
  | int (i : Int)
  | str (s : String)
  deriving DecidableEq

/-- The content is always there. The simulation asks for it, so that it may be absent here. -/
structure EncodedPayload where
  blockId : Int
  maskMode : MaskMode := .NO_MASK
  maskFields : List MaskField := []
  blockType : Option BlockTypeId := none
  name : Option String := none
  content : Option Text := some []
  deriving DecidableEq

structure BlockNameChange where
  existing : String
  desired : String
  deriving DecidableEq

/-- The fields that older backups do not have are not used when loading backups. -/
structure Backup where
  name : Option String := none
  timestamp : Option String := none
  firmware : Option FirmwareDescription := none
  device : Option DeviceDescription := none
  blocks : List Block

structure BackupApplyResult where
  messages : List String
  deriving DecidableEq

structure BlockRelation where
  source : String
  target : String
  claimed : Bool := false
  relation : List Text
  deriving DecidableEq

structure BlockClaim where
  source : String
  target : String
  intermediate : List String
  deriving DecidableEq

def Block.identity (block : Block) : BlockIdentity :=
  { id := block.id, nid := block.nid, type := some block.type, serviceId := block.serviceId }

end devcon_spark.models
