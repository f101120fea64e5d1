-- The laws of claims. Every claim is followed to its end, which is a block that
-- nobody has claimed, or one that leads back to a block that was passed.
import DevconSpark.BlockAnalysis
import Mathlib.Data.List.Perm.Basic

open chains py_text py_dict py_value devcon_spark.exceptions devcon_spark.models

namespace devcon_spark.block_analysis

/-! ## The blocks that were read -/

/-- A link that was read has the name of a block, or none. -/
def LinkRead : Value → Prop
  | .dict kvs => ∃ id, get? kvs "id".toList = some id ∧ (id = .none ∨ ∃ t, id = .str t)
  | _ => False

/-- The name in a link. -/
def linkTarget : Value → Option String
  | .dict kvs =>
    match get? kvs "id".toList with
    | some (.str t) => if t = [] then none else some (String.ofList t)
    | _ => none
  | _ => none

theorem linkedId_read {link : Value} (h : LinkRead link) :
    linkedId link = .ok ((linkTarget link).map fun id => idValue (some id)) := by
  cases link with
  | dict kvs =>
    obtain ⟨id, hid, htext⟩ := h
    have htruthy : truthy (.dict kvs) = true := by
      cases kvs with
      | nil => simp at hid
      | cons p kvs => rfl
    have hitem : subscript (.dict kvs) "id".toList = .ok id := by
      unfold subscript getItem
      simp only [hid]
    unfold linkedId
    rw [if_pos htruthy, hitem, ok_bind]
    simp only [linkTarget, hid]
    rcases htext with rfl | ⟨t, rfl⟩
    · rfl
    · by_cases ht : t = []
      · simp [ht, truthy, pure, Except.pure]
      · simp [ht, truthy, idValue, pure, Except.pure]
  | _ => exact h.elim

theorem linkedId_getD {link? : Option Value} (h : ∀ link ∈ link?, LinkRead link) :
    linkedId (link?.getD .none) =
      .ok ((link?.bind linkTarget).map fun id => idValue (some id)) := by
  cases link? with
  | none => rfl
  | some link => exact linkedId_read (h link rfl)

/-- Who has claimed a block. -/
def claimant (block : Block) : Option String :=
  (get? block.data "claimedBy".toList).bind linkTarget

def ChannelRead : Value → Prop
  | .dict kvs => ∃ link, get? kvs "claimedBy".toList = some link ∧ LinkRead link
  | _ => False

def channelClaimant : Value → Option String
  | .dict kvs => (get? kvs "claimedBy".toList).bind linkTarget
  | _ => none

def channelsOf (block : Block) : List Value :=
  match get? block.data "channels".toList with
  | some (.list channels) => channels
  | _ => []

/-- A block that was read has an id, and its claims are links. -/
structure BlockRead (block : Block) : Prop where
  named : ∃ id, block.id = some id
  claimedBy : ∀ link ∈ get? block.data "claimedBy".toList, LinkRead link
  channels : ∀ v ∈ get? block.data "channels".toList,
    ∃ channels, v = .list channels ∧ ∀ c ∈ channels, ChannelRead c

/-- Who has claimed the block with this id. -/
def claimantOf (blocks : List Block) (id : String) : Option String :=
  (blocks.find? (·.id = some id)).bind claimant

/-! ## The first pass -/

/-- A claim as it starts: nothing stands between. -/
def startingClaim (target source : Option String) : Option BlockClaim :=
  match target, source with
  | some target, some source => some { source, target, intermediate := [] }
  | _, _ => none

def blockClaim (block : Block) : Option BlockClaim := startingClaim block.id (claimant block)

def channelClaims (block : Block) : List BlockClaim :=
  (channelsOf block).filterMap fun c => startingClaim block.id (channelClaimant c)

/-- One claim for each claimed block, then one for each claimed channel. -/
def startingClaims (blocks : List Block) : List BlockClaim :=
  blocks.filterMap blockClaim ++ blocks.flatMap channelClaims

theorem blockClaim_target {block : Block} {claim : BlockClaim} (h : blockClaim block = some claim) :
    block.id = some claim.target := by
  unfold blockClaim startingClaim at h
  split at h
  next htarget _ =>
    cases h
    exact htarget
  next => cases h

def withTarget (claim : BlockClaim) : String × BlockClaim := (claim.target, claim)

theorem newClaim_text (source target : String) : newClaim (idValue (some source)) (some target) =
    .ok { source, target, intermediate := [] } := by
  simp [newClaim, idValue, strField, bind, Except.bind, pure, Except.pure]

theorem collectBlock_read {block : Block} (h : BlockRead block)
    {claim_dict : List (String × BlockClaim)}
    (hnew : ∀ id, block.id = some id → id ∉ claim_dict.map (·.1)) :
    collectBlock block claim_dict =
      .ok (claim_dict ++ ((blockClaim block).map withTarget).toList) := by
  obtain ⟨id, hid⟩ := h.named
  unfold collectBlock blockClaim
  rw [linkedId_getD h.claimedBy, ok_bind, ← claimant]
  cases claimant block with
  | none => simp [startingClaim, hid, pure, Except.pure]
  | some source =>
    simp only [Option.map_some, hid, newClaim_text, ok_bind, startingClaim]
    rw [setItem_new _ (hnew id hid)]
    rfl

theorem collectChannel_read {block : Block} {id : String} (hid : block.id = some id) {c : Value}
    (h : ChannelRead c) (channel_claims : List BlockClaim) :
    collectChannel block channel_claims c =
      .ok (channel_claims ++ (startingClaim block.id (channelClaimant c)).toList) := by
  cases c with
  | dict kvs =>
    obtain ⟨link, hlink, hread⟩ := h
    have hitem : subscript (.dict kvs) "claimedBy".toList = .ok link := by
      unfold subscript getItem
      simp only [hlink]
    unfold collectChannel
    rw [hitem, ok_bind, linkedId_read hread, ok_bind]
    simp only [channelClaimant, hlink, Option.bind_some]
    cases linkTarget link with
    | none => simp [startingClaim, hid, pure, Except.pure]
    | some source =>
      simp only [Option.map_some, hid, newClaim_text, ok_bind, startingClaim]
      rfl
  | _ => exact h.elim

theorem collectChannels_read {block : Block} {id : String} (hid : block.id = some id)
    {channels : List Value} (h : ∀ c ∈ channels, ChannelRead c)
    (channel_claims : List BlockClaim) :
    channels.foldlM (collectChannel block) channel_claims = .ok (channel_claims ++
      channels.filterMap fun c => startingClaim block.id (channelClaimant c)) := by
  induction channels generalizing channel_claims with
  | nil => simp [pure, Except.pure]
  | cons c channels ih =>
    rw [List.foldlM_cons, collectChannel_read hid (h c List.mem_cons_self), ok_bind,
      ih fun c hc => h c (List.mem_cons_of_mem _ hc), List.append_assoc]
    cases hstart : startingClaim block.id (channelClaimant c) with
    | none => simp [hstart]
    | some claim => simp [hstart]

theorem collectClaims_read {block : Block} (h : BlockRead block) {claims : Claims}
    (hnew : ∀ id, block.id = some id → id ∉ claims.1.map (·.1)) :
    collectClaims claims block = .ok (claims.1 ++ ((blockClaim block).map withTarget).toList,
      claims.2 ++ channelClaims block) := by
  obtain ⟨id, hid⟩ := h.named
  unfold collectClaims channelClaims channelsOf
  rw [collectBlock_read h hnew, ok_bind]
  cases hchannels : get? block.data "channels".toList with
  | none => simp [iterate, pure, Except.pure, bind, Except.bind]
  | some v =>
    obtain ⟨channels, rfl, hread⟩ := h.channels v hchannels
    simp only [Option.getD_some, iterate, ok_bind, collectChannels_read hid hread]
    rfl

/-- The claims of blocks with ids of their own. -/
theorem collect_all {blocks : List Block} (hread : ∀ b ∈ blocks, BlockRead b)
    (hids : (blocks.map (·.id)).Nodup) {claims : Claims}
    (hnew : ∀ b ∈ blocks, ∀ id, b.id = some id → id ∉ claims.1.map (·.1)) :
    blocks.foldlM collectClaims claims =
      .ok (claims.1 ++ (blocks.filterMap blockClaim).map withTarget,
        claims.2 ++ blocks.flatMap channelClaims) := by
  induction blocks generalizing claims with
  | nil => simp [pure, Except.pure]
  | cons b blocks ih =>
    rw [List.map_cons, List.nodup_cons] at hids
    rw [List.foldlM_cons, collectClaims_read (hread b List.mem_cons_self)
      (hnew b List.mem_cons_self), ok_bind,
      ih (fun c hc => hread c (List.mem_cons_of_mem _ hc)) hids.2]
    · cases hclaim : blockClaim b with
      | none => simp [List.filterMap_cons_none hclaim]
      | some claim => simp [List.filterMap_cons_some hclaim]
    · intro c hc id hid hmem
      rw [List.map_append, List.mem_append] at hmem
      rcases hmem with hmem | hmem
      · exact hnew c (List.mem_cons_of_mem _ hc) id hid hmem
      · cases hclaim : blockClaim b with
        | none => simp [hclaim] at hmem
        | some claim =>
          have hid' : id = claim.target := by simpa [hclaim, withTarget] using hmem
          apply hids.1
          rw [blockClaim_target hclaim, ← hid', ← hid]
          exact List.mem_map_of_mem hc

theorem calculate_claims_read {blocks : List Block} (hread : ∀ b ∈ blocks, BlockRead b)
    (hids : (blocks.map (·.id)).Nodup) :
    calculate_claims blocks = .ok ((startingClaims blocks).map
      (extended_claim ((blocks.filterMap blockClaim).map withTarget))) := by
  have hcollect := @collect_all blocks hread hids ([], []) (by simp)
  unfold calculate_claims
  rw [hcollect, ok_bind]
  simp [startingClaims, withTarget, pure, Except.pure, Function.comp_def]

theorem startingClaim_source {target source : Option String} (h : target ≠ none) :
    (startingClaim target source).map (·.source) = source := by
  obtain ⟨t, rfl⟩ := Option.ne_none_iff_exists'.mp h
  cases source <;> rfl

/-- The collected claims say who has claimed each block. -/
theorem sourceOf_collected {blocks : List Block} (hread : ∀ b ∈ blocks, BlockRead b)
    (hids : (blocks.map (·.id)).Nodup) :
    sourceOf ((blocks.filterMap blockClaim).map withTarget) = claimantOf blocks := by
  funext id
  unfold sourceOf claimantOf
  induction blocks with
  | nil => rfl
  | cons b blocks ih =>
    rw [List.map_cons, List.nodup_cons] at hids
    have ih := ih (fun c hc => hread c (List.mem_cons_of_mem _ hc)) hids.2
    have hnamed : b.id ≠ none := by
      obtain ⟨id, hid⟩ := (hread b List.mem_cons_self).named
      simp [hid]
    have hsource : (blockClaim b).map (·.source) = claimant b := startingClaim_source hnamed
    by_cases hid : b.id = some id
    · rw [List.find?_cons_of_pos (by simpa using hid), Option.bind_some, ← hsource]
      cases hclaim : blockClaim b with
      | some claim =>
        have htarget := blockClaim_target hclaim
        rw [hid, Option.some_inj] at htarget
        simp [hclaim, withTarget, htarget]
      | none =>
        have hnone : blocks.find? (·.id = some id) = none := by
          rw [List.find?_eq_none]
          intro c hc hcid
          apply hids.1
          rw [hid, ← of_decide_eq_true hcid]
          exact List.mem_map_of_mem hc
        rw [List.filterMap_cons_none hclaim, ih, hnone]
        rfl
    · rw [List.find?_cons_of_neg (by simpa using hid), ← ih]
      cases hclaim : blockClaim b with
      | none => rw [List.filterMap_cons_none hclaim]
      | some claim =>
        have hne : id ≠ claim.target := by
          rintro rfl
          exact hid (blockClaim_target hclaim)
        rw [List.filterMap_cons_some hclaim, List.map_cons, get?_cons]
        exact congrArg _ (if_neg hne)

/-! ## Following a claim -/

/-- A claim that stands somewhere on its trail is followed to the end of it. -/
theorem extended_claim_trail {claim_dict : List (String × BlockClaim)} {start : String}
    {claim : BlockClaim}
    (h : Trail (sourceOf claim_dict) start claim.intermediate claim.source) :
    Trail (sourceOf claim_dict) start (extended_claim claim_dict claim).intermediate
        (extended_claim claim_dict claim).source ∧
      Ended (sourceOf claim_dict) (extended_claim claim_dict claim).intermediate
        (extended_claim claim_dict claim).source ∧
      (extended_claim claim_dict claim).target = claim.target := by
  fun_induction extended_claim claim_dict claim with
  | case1 claim hnone => exact ⟨h, .inl hnone, rfl⟩
  | case2 claim grand_source hsource hcircular =>
    exact ⟨h, .inr ⟨grand_source, hcircular, hsource⟩, rfl⟩
  | case3 claim grand_source hsource hnew ih => exact ih (h.step hsource hnew)

/-- How a claim is extended depends on who has claimed which block. -/
theorem extended_claim_congr {claim_dict claim_dict' : List (String × BlockClaim)}
    (h : sourceOf claim_dict = sourceOf claim_dict') (claim : BlockClaim) :
    extended_claim claim_dict claim = extended_claim claim_dict' claim := by
  fun_induction extended_claim claim_dict claim with
  | case1 claim hnone =>
    rw [h] at hnone
    rw [extended_claim]
    split
    next => rfl
    next hsource => cases hnone.symm.trans hsource
  | case2 claim grand_source hsource hcircular =>
    rw [h] at hsource
    rw [extended_claim]
    split
    next => rfl
    next hsource' =>
      cases hsource.symm.trans hsource'
      rw [if_pos hcircular]
  | case3 claim grand_source hsource hnew ih =>
    rw [h] at hsource
    rw [ih, extended_claim.eq_def claim_dict' claim]
    split
    next hnone => cases hsource.symm.trans hnone
    next hsource' =>
      cases hsource.symm.trans hsource'
      rw [if_neg hnew]

/-- A claim that was followed from `start`: each block of `intermediate` is claimed by the next
one, and the last of them by the source. -/
structure Extended (claimedBy : String → Option String) (start claim : BlockClaim) : Prop where
  target : claim.target = start.target
  first : (claim.intermediate ++ [claim.source]).head? = some start.source
  steps : (claim.intermediate ++ [claim.source]).IsChain fun a b => claimedBy a = some b
  nodup : claim.intermediate.Nodup
  ended : claimedBy claim.source = none ∨
    ∃ c ∈ claim.intermediate, claimedBy claim.source = some c
  root : (∀ b, Relation.ReflTransGen (Follows claimedBy) start.source b →
    ¬ Relation.TransGen (Follows claimedBy) b b) → claimedBy claim.source = none
  cycle : ∀ b, Relation.ReflTransGen (Follows claimedBy) start.source b →
    Relation.TransGen (Follows claimedBy) b b → b ∈ claim.intermediate ++ [claim.source]

theorem extended_claim_extended (claim_dict : List (String × BlockClaim)) {start : BlockClaim}
    (h : start.intermediate = []) :
    Extended (sourceOf claim_dict) start (extended_claim claim_dict start) := by
  have hstart : Trail (sourceOf claim_dict) start.source start.intermediate start.source := by
    rw [h]
    exact Trail.refl _ _
  obtain ⟨htrail, hend, htarget⟩ := extended_claim_trail hstart
  exact {
    target := htarget
    first := htrail.first
    steps := htrail.steps
    nodup := htrail.nodup
    ended := hend
    root := htrail.end_of_acyclic hend
    cycle := fun b hreach _ => htrail.mem_of_reach hend hreach }

theorem startingClaims_intermediate {blocks : List Block} {start : BlockClaim}
    (h : start ∈ startingClaims blocks) : start.intermediate = [] := by
  have hstarting : ∀ target source : Option String, startingClaim target source = some start →
      start.intermediate = [] := by
    intro target source hsome
    unfold startingClaim at hsome
    split at hsome <;> cases hsome
    rfl
  rcases List.mem_append.mp h with hmem | hmem
  · obtain ⟨b, -, hb⟩ := List.mem_filterMap.mp hmem
    exact hstarting _ _ hb
  · obtain ⟨b, -, hb⟩ := List.mem_flatMap.mp hmem
    obtain ⟨c, -, hc⟩ := List.mem_filterMap.mp hb
    exact hstarting _ _ hc

theorem startingClaims_perm {blocks blocks' : List Block} (h : blocks.Perm blocks') :
    (startingClaims blocks).Perm (startingClaims blocks') :=
  (h.filterMap _).append (h.flatMap_right _)

theorem claimantOf_eq_some_iff {blocks : List Block} (hids : (blocks.map (·.id)).Nodup)
    {id source : String} : claimantOf blocks id = some source ↔
      ∃ b ∈ blocks, b.id = some id ∧ claimant b = some source := by
  unfold claimantOf
  constructor
  · intro h
    obtain ⟨b, hfind, hsource⟩ := Option.bind_eq_some_iff.mp h
    exact ⟨b, List.mem_of_find?_eq_some hfind, by simpa using List.find?_some hfind, hsource⟩
  · rintro ⟨b, hb, hid, hsource⟩
    cases hfind : blocks.find? (·.id = some id) with
    | none =>
      have hnone := List.find?_eq_none.mp hfind b hb
      simp [hid] at hnone
    | some b' =>
      have hid' : b'.id = some id := by simpa using List.find?_some hfind
      have hsame : b' = b := List.inj_on_of_nodup_map hids (List.mem_of_find?_eq_some hfind) hb
        (hid'.trans hid.symm)
      rw [hsame, Option.bind_some, hsource]

theorem claimantOf_perm {blocks blocks' : List Block} (h : blocks.Perm blocks')
    (hids : (blocks.map (·.id)).Nodup) : claimantOf blocks = claimantOf blocks' := by
  have hids' : (blocks'.map (·.id)).Nodup := (h.map _).nodup_iff.mp hids
  funext id
  ext source
  rw [claimantOf_eq_some_iff hids, claimantOf_eq_some_iff hids']
  simp only [h.mem_iff]

/-- Every claim is followed to its end, for any links between the blocks. -/
theorem claims_are_followed_to_the_end {blocks : List Block}
    (hread : ∀ b ∈ blocks, BlockRead b) (hids : (blocks.map (·.id)).Nodup) :
    ∃ claims, calculate_claims blocks = .ok claims ∧
      List.Forall₂ (Extended (claimantOf blocks)) (startingClaims blocks) claims ∧
      ∀ blocks', blocks.Perm blocks' →
        ∃ claims', calculate_claims blocks' = .ok claims' ∧ claims.Perm claims' := by
  refine ⟨_, calculate_claims_read hread hids, ?_, ?_⟩
  · rw [List.forall₂_map_right_iff, List.forall₂_same, ← sourceOf_collected hread hids]
    intro start hstart
    exact extended_claim_extended _ (startingClaims_intermediate hstart)
  · intro blocks' hperm
    have hread' : ∀ b ∈ blocks', BlockRead b := fun b hb => hread b (hperm.mem_iff.mpr hb)
    have hids' : (blocks'.map (·.id)).Nodup := (hperm.map _).nodup_iff.mp hids
    refine ⟨_, calculate_claims_read hread' hids', ?_⟩
    have hsame : sourceOf ((blocks.filterMap blockClaim).map withTarget) =
        sourceOf ((blocks'.filterMap blockClaim).map withTarget) := by
      rw [sourceOf_collected hread hids, sourceOf_collected hread' hids',
        claimantOf_perm hperm hids]
    rw [funext (extended_claim_congr hsame)]
    exact (startingClaims_perm hperm).map _

/-! ## A cycle of two blocks, with a tail that leads to it -/

def sampleLink (id : String) : Value :=
  .dict [("__bloxtype".toList, .str "Link".toList), ("id".toList, .str id.toList),
    ("type".toList, .str "Any".toList)]

def sampleClaimed (id source : String) : Block :=
  { id := some id, type := "ActuatorPwm", data := [("claimedBy".toList, sampleLink source)] }

def samplePins : Block :=
  { id := some "Pins", type := "Spark3Pins"
    data := [("channels".toList,
      .list [.dict [("claimedBy".toList, sampleLink "PWM 1")]])] }

def sampleBlocks : List Block :=
  [sampleClaimed "PWM 1" "PWM 2", sampleClaimed "PWM 2" "PWM 3", sampleClaimed "PWM 3" "PWM 2",
    samplePins]

theorem sampleLink_read (id : String) : LinkRead (sampleLink id) := ⟨_, rfl, .inr ⟨_, rfl⟩⟩

theorem sampleClaimed_read (id source : String) : BlockRead (sampleClaimed id source) where
  named := ⟨id, rfl⟩
  claimedBy link hlink := by
    cases hlink
    exact sampleLink_read source
  channels v hv := by cases hv

theorem samplePins_read : BlockRead samplePins where
  named := ⟨_, rfl⟩
  claimedBy link hlink := by cases hlink
  channels v hv := by
    cases hv
    refine ⟨_, rfl, fun c hc => ?_⟩
    rw [List.mem_singleton.mp hc]
    exact ⟨_, rfl, sampleLink_read _⟩

theorem sampleBlocks_read : ∀ b ∈ sampleBlocks, BlockRead b := by
  simp [sampleBlocks, sampleClaimed_read, samplePins_read]

theorem claims_are_followed_to_the_end_sample :
    ∃ claims, calculate_claims sampleBlocks = .ok claims ∧
      List.Forall₂ (Extended (claimantOf sampleBlocks)) (startingClaims sampleBlocks) claims ∧
      ∀ blocks', sampleBlocks.Perm blocks' →
        ∃ claims', calculate_claims blocks' = .ok claims' ∧ claims.Perm claims' :=
  claims_are_followed_to_the_end sampleBlocks_read (by decide)

end devcon_spark.block_analysis
