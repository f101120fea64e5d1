-- Calculate block metadata: the relations between blocks, and who has claimed
-- them in the end.
import DevconSpark.Chains
import DevconSpark.Models
import DevconSpark.Sequence
import Mathlib.Data.List.Basic

open chains py_text py_dict py_number py_value devcon_spark.exceptions devcon_spark.models
open devcon_spark.codec.bloxfield

namespace devcon_spark.codec.bloxfield

def is_bloxfield : Value → Bool
  | .dict kvs => kvs.any (·.1 = "__bloxtype".toList)
  | _ => false

/-- `obj.get(k)`, where it is something. -/
def hasValue (k : String) : Value → Bool
  | .dict kvs => (get? kvs k.toList).any truthy
  | _ => false

def is_defined_link (obj : Value) : Bool := is_link obj && hasValue "id" obj && hasValue "type" obj

end devcon_spark.codec.bloxfield

namespace devcon_spark.block_analysis

/-- Relations to these blocks should be ignored, as they have no impact on control logic. -/
def IGNORED_RELATION_TYPES : List String := ["DisplaySettings"]

/-- Relations with this field name should be ignored. -/
def IGNORED_RELATION_FIELDS : List Text :=
  ["claimedBy".toList, "oneWireBusId".toList, "clients".toList]

/-- Relations with this field name should be inverted. The block that owns the link is best
graphed as being the target in the relation. -/
def INVERTED_RELATION_FIELDS : List Text :=
  ["inputId".toList, "referenceId".toList, "sensorId".toList, "analog".toList, "digital".toList]

/-! ## Values as ids -/

/-- A `str` field of a model. -/
def strField : Value → Except Exn String
  | .str t => .ok (String.ofList t)
  | _ => .error { kind := .ValueError, msg := "Input should be a valid string" }

def idValue : Option String → Value
  | some id => .str id.toList
  | none => .none

/-- `link['id']` for a link, where both are something. -/
def linkedId (link : Value) : Except Exn (Option Value) :=
  if truthy link then do
    let id ← subscript link "id".toList
    return if truthy id then some id else none
  else .ok none

/-! ## Relations -/

def newRelation (source target : Value) (relation : List Text) : Except Exn BlockRelation := do
  return { source := ← strField source, target := ← strField target, relation }

/-- The ends swap where the link is owned by the target. -/
def linkRelation (parent_id id : Value) (relation : List Text) : Except Exn BlockRelation :=
  if relation.head?.any (· ∈ INVERTED_RELATION_FIELDS) then newRelation id parent_id relation
  else newRelation parent_id id relation

mutual

def _find_nested_relations (parent_id : Value) (relation : List Text) (field : Value) :
    Except Exn (List BlockRelation) :=
  if relation.getLast?.any (· ∈ IGNORED_RELATION_FIELDS) then .ok []
  else if is_defined_link field then do
    let id ← subscript field "id".toList
    return [← linkRelation parent_id id relation]
  -- Ignored: claim links, unset links, quantities
  else if is_bloxfield field then .ok []
  else match field with
    | .dict kvs => itemRelations parent_id relation kvs
    | .list vs => elementRelations parent_id relation 0 vs
    | _ => .ok []

def itemRelations (parent_id : Value) (relation : List Text) :
    Dict → Except Exn (List BlockRelation)
  | [] => .ok []
  | (key, value) :: kvs => do
    let found ← _find_nested_relations parent_id (relation ++ [key]) value
    return found ++ (← itemRelations parent_id relation kvs)

def elementRelations (parent_id : Value) (relation : List Text) (idx : Nat) :
    List Value → Except Exn (List BlockRelation)
  | [] => .ok []
  | value :: vs => do
    let found ← _find_nested_relations parent_id (relation ++ [natText idx]) value
    return found ++ (← elementRelations parent_id relation (idx + 1) vs)

end

/-- The first pass of `calculate_relations`. -/
def foundRelations : List Block → Except Exn (List BlockRelation)
  | [] => .ok []
  | block :: blocks =>
    if block.type ∈ IGNORED_RELATION_TYPES then foundRelations blocks
    else do
      let found ← _find_nested_relations (idValue block.id) [] (.dict block.data)
      return found ++ (← foundRelations blocks)

/-- Marks the first relation between a claimant and the block it claims. -/
def markClaimed (source : Value) (target : Option String) (relations : List BlockRelation) :
    List BlockRelation :=
  relations.replaceF fun r =>
    if some r.target = target ∧ isStr r.source.toList source then some { r with claimed := true }
    else none

/-- The second pass, for one block. -/
def markBlock (relations : List BlockRelation) (block : Block) :
    Except Exn (List BlockRelation) := do
  match ← linkedId ((get? block.data "claimedBy".toList).getD .none) with
  | some source => return markClaimed source block.id relations
  | none => return relations

def calculate_relations (blocks : List Block) : Except Exn (List BlockRelation) := do
  let relations ← foundRelations blocks
  blocks.foldlM markBlock relations

/-! ## Claims -/

def newClaim (source : Value) (target : Option String) : Except Exn BlockClaim := do
  return { source := ← strField source, target := ← strField (idValue target), intermediate := [] }

/-- The claims to blocks by the id of the block, and the claims to channels. -/
abbrev Claims := List (String × BlockClaim) × List BlockClaim

/-- Claims to the entire block. -/
def collectBlock (block : Block) (claim_dict : List (String × BlockClaim)) :
    Except Exn (List (String × BlockClaim)) := do
  match ← linkedId ((get? block.data "claimedBy".toList).getD .none) with
  | some id =>
    let claim ← newClaim id block.id
    return setItem claim_dict claim.target claim
  | none => return claim_dict

/-- On IoArrays, individual channels are claimed. -/
def collectChannel (block : Block) (channel_claims : List BlockClaim) (c : Value) :
    Except Exn (List BlockClaim) := do
  let link ← subscript c "claimedBy".toList
  match ← linkedId link with
  | some id => return channel_claims ++ [← newClaim id block.id]
  | none => return channel_claims

def collectClaims (claims : Claims) (block : Block) : Except Exn Claims := do
  let claim_dict ← collectBlock block claims.1
  let channels ← iterate ((get? block.data "channels".toList).getD (.list []))
  return (claim_dict, ← channels.foldlM (collectChannel block) claims.2)

/-- Who has claimed a block, in `claim_dict`. -/
def sourceOf (claim_dict : List (String × BlockClaim)) (id : String) : Option String :=
  (get? claim_dict id).map (·.source)

theorem mem_of_sourceOf {claim_dict : List (String × BlockClaim)} {id source : String}
    (h : sourceOf claim_dict id = some source) : id ∈ claim_dict.map (·.1) := by
  by_contra hnot
  unfold sourceOf at h
  rw [get?_of_not_mem hnot] at h
  cases h

/-- Shifts a claim, and looks further up the tree. -/
def extended_claim (claim_dict : List (String × BlockClaim)) (claim : BlockClaim) : BlockClaim :=
  match _hsource : sourceOf claim_dict claim.source with
  | none => claim
  | some grand_source =>
    if grand_source ∈ claim.intermediate then claim
    else extended_claim claim_dict
      { source := grand_source
        target := claim.target
        intermediate := claim.intermediate ++ [claim.source] }
termination_by remaining (claim_dict.map (·.1)) claim.intermediate claim.source
decreasing_by exact remaining_step (mem_of_sourceOf ‹_›) ‹_›

def calculate_claims (blocks : List Block) : Except Exn (List BlockClaim) := do
  let (claim_dict, channel_claims) ← blocks.foldlM collectClaims ([], [])
  return (claim_dict.map (·.2) ++ channel_claims).map (extended_claim claim_dict)

end devcon_spark.block_analysis
