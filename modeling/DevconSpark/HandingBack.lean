-- Whatever the service hands out can be handed back, but for some nulls: content
-- to `pre_encode`, and the blocks of a backup to `apply_backup`.
import DevconSpark.RestoredBlocks

open binary bidict programs py_text py_dict py_number py_value devcon_spark.exceptions
open devcon_spark.models devcon_spark.codec devcon_spark.codec.lookup
open devcon_spark.codec.descriptor devcon_spark.codec.unit_conversion
open devcon_spark.codec.processor devcon_spark.codec.content devcon_spark.codec.bloxfield
open devcon_spark.codec.sequence

namespace devcon_spark.spark_api

/-! ## What is handed back -/

/-- What was read is accepted once its links were turned into names, and into numbers again. What
was read as null is not set then. -/
def HandedBack (codec : Codec) (names : Naming) (message : Text) (filter_values : Bool)
    (decoded : DecodedPayload) : Prop :=
  ∃ shown named numbered encoded back, decoded.content = some shown ∧
    resolve_data_ids (_find_sid names.repr names.reader) shown = .ok named ∧
    resolve_data_ids (_find_nid names.writer) named = .ok numbered ∧
    pre_encode codec.env codec.units codec.pool message { decoded with content := some numbered }
      filter_values = .ok encoded ∧
    encoded.content = some back ∧ Unset (.dict shown) (some (.dict back))

/-- A backup that was made of what the controller sent, and a controller that was cleared to have
it restored. -/
structure Restoration (codec : Codec) (env other : Environment) where
  first : World
  /-- The world in which the blocks are read. -/
  ready : World
  admits : admitted env first = .ok ready
  payloads : List EncodedPayload
  sent : List FirmwareBlock
  decodes : payloads.mapM (command._to_block codec · .STORED) = .ok sent
  shared : Shared
  answers : env.reply ready.requests (.read_all_blocks .STORED) ready.toShared = (.ok sent, shared)
  exported : Backup
  made : World
  makes : (make_backup env).run.run first = (.ok exported, made)
  second : World
  idents : List BlockIdentity
  cleared : World
  clears : (clear_blocks other).run.run second = (.ok idents, cleared)
  /-- Names stand for numbers, also where the type of the store allows for `None`. -/
  numbers : ∀ name, cleared.block_store.get? name ≠ some none

namespace Restoration

variable {codec : Codec} {env other : Environment} (r : Restoration codec env other)

/-- The store that a block of the backup is shown by. -/
def reader (i : Nat) : BlockStore := storeAt r.shared.block_store r.sent i

/-- The store that the blocks are restored by. -/
def writer : BlockStore := seededStore r.exported r.cleared.block_store

/-- Each block of the backup is one that the controller sent. -/
theorem shown {i : Nat} {block : Block} (h : r.exported.blocks[i]? = some block) :
    ∃ payload sent, r.payloads[i]? = some payload ∧
      command._to_block codec payload .STORED = .ok sent ∧
        ShownBlock env (r.reader i) sent block := by
  obtain ⟨w, hblocks⟩ := make_backup_inv r.admits r.answers r.makes
  obtain ⟨sent, hsent, hblock⟩ := to_blocks_run hblocks i block h
  obtain ⟨payload, hpayload, hdecoded⟩ := forall₂_getElem? (forall₂_of_mapM r.decodes) hsent
  exact ⟨payload, sent, hpayload, hdecoded, hblock⟩

theorem writer_numbers (name : Option String) : r.writer.get? name ≠ some none := by
  refine seeded_numbers r.numbers (fun block hblock => ?_) name
  obtain ⟨i, hi⟩ := List.getElem?_of_mem hblock
  obtain ⟨payload, sent, -, -, hshown⟩ := r.shown hi
  rw [hshown.nid]
  exact Option.some_ne_none _

end Restoration

/-- A message with a link, and with a speed that is null where it is zero. -/
def edgePool : Pool where
  messages := fun message =>
    if message = "EdgeCase".toList then
      [{ name := "link".toList, number := 3, type := .UINT32
         opts := { objtype := some "ActuatorAnalogInterface".toList, stored := true } },
        { name := "deltaV".toList, number := 6, type := .UINT32
          opts := { unit := .DeltaCelsiusPerSecond, scale := 256, null_if_zero := true
                    stored := true } }]
    else []

theorem edgePool_schema : Schema edgePool := by
  refine .of_fields fun message field hfield => ?_
  unfold edgePool at hfield
  simp only at hfield
  split at hfield
  · rcases List.mem_pair.mp hfield with rfl | rfl
    · exact ⟨.link _ _ _ _ _ _ _, by decide, by decide, by decide⟩
    · exact ⟨.number _ _ _ _ .DeltaCelsiusPerSecond 256 _ _ (by decide) (by decide), by decide,
        by decide, by decide⟩
  · cases hfield

theorem edgeCase_content {pool : Pool}
    (hpool : pool.messages "EdgeCase".toList = edgePool.messages "EdgeCase".toList) {kvs : Dict}
    (hkeys : (kvs.map (·.1)).Nodup)
    (h : ∀ p ∈ kvs, (p.1 = "link".toList ∨ p.1 = "deltaV".toList) ∧
      ∃ n : Nat, n < 2 ^ 32 ∧ p.2 = .int n) :
    contentItems pool rawLeaf "EdgeCase".toList kvs := by
  refine contentItems_iff.mpr ⟨hkeys, ?_⟩
  rw [hpool]
  rintro ⟨k, v⟩ hp
  obtain ⟨rfl | rfl, n, hn, rfl⟩ := h _ hp
  · refine ⟨_, rfl, ?_⟩
    rw [contentValue]
    · exact ⟨rfl, rfl, show 0 ≤ (n : Int) ∧ (n : Int) < 2 ^ 32 by omega⟩
    all_goals simp
  · refine ⟨_, rfl, ?_⟩
    rw [contentValue]
    · exact ⟨rfl, rfl, show 0 ≤ (n : Int) ∧ (n : Int) < 2 ^ 32 by omega⟩
    all_goals simp

/-- The options of arguments are placed as those of all fields. -/
theorem arguments_placed : ∀ o ∈ opcodes, ∀ f ∈ messageOf o.2.2,
    Placed f.type f.label_repeated f.opts ∧ f.type ≠ .MESSAGE := by
  have hkinds : ∀ o ∈ opcodes, ∀ f ∈ messageOf o.2.2, f.type ≠ .MESSAGE ∧
      ((f.type = .UINT32 ∧ f.opts = { objtype := some (f.opts.objtype.getD []), stored := true }) ∨
      (f.type ∈ [FieldType.INT32, .UINT32] ∧ f.opts.unit ≠ .Volt ∧
        f.opts = { unit := f.opts.unit, scale := f.opts.scale, stored := true }) ∨
      (f.type = .UINT32 ∧ f.label_repeated = false ∧
        f.opts = { datetime := true, stored := true }) ∨
      (f.type ∈ [FieldType.BOOL, .ENUM, .STRING, .MESSAGE] ∧ f.opts = { stored := true })) := by
    decide +kernel
  intro o ho f hf
  obtain ⟨hleaf, hkind⟩ := hkinds o ho f hf
  refine ⟨?_, hleaf⟩
  rcases hkind with ⟨htype, hopts⟩ | ⟨htype, hunit, hopts⟩ | ⟨htype, hsingle, hopts⟩ |
    ⟨htype, hopts⟩
  · rw [htype, hopts]
    exact .link _ _ _ _ _ _ _
  · rw [hopts]
    exact .number _ _ _ _ _ _ _ _ htype hunit
  · rw [htype, hopts, hsingle]
    exact .datetime _ _ _ _
  · rw [hopts]
    exact .plain _ _ _ _ htype

/-- The messages of a Sequence, beside those of the test objects. -/
def sequencePool : Pool where
  messages := fun message =>
    if message = "Sequence".toList then
      [{ name := "instructions".toList, number := 8, type := .MESSAGE, label_repeated := true
         message_type := some "Instruction".toList, opts := { stored := true } }]
    else if message = "Instruction".toList then INSTRUCTION_MSG_DESC
    else match opcodes.find? (·.2.2.toList = message) with
      | some o => messageOf o.2.2
      | none => edgePool.messages message

theorem sequencePool_messages : SequenceMessages sequencePool "Sequence".toList where
  instructions := ⟨_, rfl, rfl, rfl⟩
  instruction := rfl
  arguments o ho := by
    have hother : o.2.2.toList ≠ "Sequence".toList ∧ o.2.2.toList ≠ "Instruction".toList := by
      revert o
      decide
    unfold sequencePool
    simp only [if_neg hother.1, if_neg hother.2]
    cases hfind : opcodes.find? (·.2.2.toList = o.2.2.toList) with
    | none =>
      have hne := List.find?_eq_none.mp hfind o ho
      simp at hne
    | some o' =>
      have hsame : o'.2.2.toList = o.2.2.toList := by simpa using List.find?_some hfind
      exact congrArg messageOf (String.toList_inj.mp hsame)

theorem sequencePool_schema : Schema sequencePool := by
  refine .of_fields fun message field hfield => ?_
  unfold sequencePool at hfield
  simp only at hfield
  split at hfield
  · cases List.mem_singleton.mp hfield
    exact ⟨.plain _ _ _ _ (by decide), by decide, by decide, by decide⟩
  split at hfield
  · obtain ⟨o, ho, rfl⟩ := List.mem_map.mp hfield
    obtain ⟨-, hname, hmark⟩ := opcode_fields o ho
    exact ⟨.plain _ _ _ _ (by simp), hname, iff_of_true rfl rfl, hmark⟩
  split at hfield
  · rename_i o hfind
    have ho := List.mem_of_find?_eq_some hfind
    obtain ⟨-, hleaf, -, -, hname, hmark⟩ := argument_fields o ho field hfield
    obtain ⟨hplaced, htype⟩ := arguments_placed o ho field hfield
    exact ⟨hplaced, hname, by simp [hleaf, htype], hmark⟩
  · have hedge := edgePool_schema
    exact ⟨hedge.placed _ _ hfield, hedge.named _ _ hfield, hedge.typed _ _ hfield,
      hedge.unmarked _ _ hfield⟩

def edgeContent : Dict := [("link".toList, .int 101), ("deltaV".toList, .int 512)]

/-- An instruction that links to the test object. -/
def sequenceContent : Dict := [("instructions".toList, .list [.dict [("START_SEQUENCE".toList,
  .dict [("__raw__target".toList, .int 100)])]])]

/-- Test objects and Sequences, each of one content. -/
def sequenceCodec : Codec where
  env := sameUnit
  units := converter "degC".toList
  pool := sequencePool
  lookup :=
    { BlockType := [("Any", 255), ("Sequence", 320), ("Deprecated", 65533)]
      objects := [{ type_str := "Sequence", type_int := 320, message_cls := "Sequence".toList },
        { EDGE_CASE with message_cls := "EdgeCase".toList }]
      interfaces := [{ type_str := "Any", type_int := 255 }, EDGE_CASE] }
  protobuf :=
    { serialize := fun _ _ => .ok []
      parse := fun message _ _ =>
        .ok (if message = "Sequence".toList then sequenceContent else edgeContent) }

theorem sequencePool_edgeCase :
    sequencePool.messages "EdgeCase".toList = edgePool.messages "EdgeCase".toList := by
  decide +kernel

theorem edgeContent_content : contentItems sequencePool rawLeaf "EdgeCase".toList edgeContent := by
  refine edgeCase_content sequencePool_edgeCase (by decide) (List.forall_mem_cons.mpr ⟨?_, ?_⟩)
  · exact ⟨Or.inl rfl, 101, by decide, rfl⟩
  · exact List.forall_mem_singleton.mpr ⟨Or.inr rfl, 512, by decide, rfl⟩

theorem sequenceContent_content :
    contentItems sequencePool rawLeaf "Sequence".toList sequenceContent := by
  have harguments : contentItems sequencePool rawLeaf "TargetSequence".toList
      [("__raw__target".toList, .int 100)] := by
    refine contentItems_iff.mpr ⟨by decide, List.forall_mem_singleton.mpr ⟨_, rfl, ?_⟩⟩
    rw [contentValue]
    · exact ⟨rfl, rfl, by decide, by decide⟩
    all_goals simp
  have hinstruction : contentItems sequencePool rawLeaf "Instruction".toList
      [("START_SEQUENCE".toList, .dict [("__raw__target".toList, .int 100)])] := by
    refine contentItems_iff.mpr ⟨by decide, List.forall_mem_singleton.mpr ⟨_, rfl, ?_⟩⟩
    rw [contentValue]
    exact harguments
  refine contentItems_iff.mpr ⟨by decide, List.forall_mem_singleton.mpr ⟨_, rfl, ?_⟩⟩
  rw [contentValue]
  exact ⟨rfl, rfl, contentList_iff.mpr (List.forall_mem_singleton.mpr (by rwa [contentChild]))⟩

theorem sequenceCodec_compiled : Compiled sequenceCodec [("Sequence".toList, 320)] where
  proper :=
    { names := by decide
      reserved := by decide
      edge_case := by decide
      deprecated := by
        intro n hn
        cases hn
        decide }
  unnamed := by decide
  setup := ⟨"EdgeCase".toList, by decide⟩
  parsed impl himpl data raw hraw := by
    rcases List.mem_pair.mp himpl with rfl | rfl
    · cases hraw
      exact sequenceContent_content
    · cases hraw
      exact edgeContent_content
  sequence impl himpl h := by
    rcases List.mem_pair.mp himpl with rfl | rfl
    · exact sequencePool_messages
    · exact absurd h (by decide)

/-- A test object, of which the mask leaves out the link. -/
def edgePayload : EncodedPayload :=
  { blockId := 100, blockType := some (.int 9001), name := some "kettle", content := some []
    maskMode := .EXCLUSIVE, maskFields := [{ address := [3] }] }

def edgeShown : Dict := [("link".toList, linkValue "ActuatorAnalogInterface".toList .none),
  ("deltaV".toList, .dict [("__bloxtype".toList, .str "Quantity".toList),
    ("unit".toList, .str "delta_degC / second".toList), ("value".toList, .float (.fin 2))])]

def edgeBlock : FirmwareBlock :=
  { id := some "kettle", nid := 100, type := "EdgeCase", data := edgeShown }

def sequencePayload : EncodedPayload :=
  { blockId := 101, blockType := some (.int 320), name := some "mash", content := some [] }

def sequenceBlock : FirmwareBlock :=
  { id := some "mash", nid := 101, type := "Sequence"
    data := [("instructions".toList, .list [.dict [("START_SEQUENCE".toList,
      .dict [("__raw__target".toList, linkValue "Sequence".toList (.int 100))])]])] }

def kettle : Block :=
  { id := some "kettle", nid := some 100, type := "EdgeCase", serviceId := some "spark"
    data := edgeShown }

def mash : Block :=
  { id := some "mash", nid := some 101, type := "Sequence", serviceId := some "spark"
    data := [("instructions".toList, .list [.str "START_SEQUENCE target=kettle".toList])] }

/-- A controller with two blocks. -/
def filled : Environment :=
  { echo with
    reply := fun requests request shared =>
      match request with
      | .read_all_blocks _ => (.ok [edgeBlock, sequenceBlock], shared)
      | request => echo.reply requests request shared }

def sampleRestoration : Restoration sequenceCodec filled echo where
  first := syncedWorld
  ready := syncedWorld
  admits := rfl
  payloads := [edgePayload, sequencePayload]
  sent := [edgeBlock, sequenceBlock]
  decodes := by with_unfolding_all rfl
  shared := syncedWorld.toShared
  answers := rfl
  exported :=
    { blocks := [kettle, mash]
      timestamp := some ""
      firmware := syncedWorld.state.status_desc.controller.map (·.firmware)
      device := syncedWorld.state.status_desc.controller.map (·.device) }
  made := _
  makes := by with_unfolding_all rfl
  second := syncedWorld
  idents := _
  cleared := _
  clears := rfl
  numbers := fun _ h => nomatch h

theorem edgeContent_shown {s : Passage} (hlink : s.excludes [some 3] = true)
    (hspeed : s.excludes [some 6] = false) (reader writer : BlockStore) :
    ∀ rule ∈ [reached reader writer, accepted s],
      shownItems sequencePool s rule "EdgeCase".toList [] edgeContent := by
  intro rule hrule
  rw [shownItems_iff, sequencePool_edgeCase]
  refine List.forall_mem_cons.mpr ⟨⟨_, rfl, Or.inr ?_⟩,
    List.forall_mem_singleton.mpr ⟨_, rfl, Or.inr ?_⟩⟩
  · refine (shownValue_flat (v := .int 101) trivial).mpr ?_
    rw [List.nil_append, hlink]
    rcases List.mem_pair.mp hrule with rfl | rfl
    · exact Or.inr (Or.inl rfl)
    · exact Or.inl rfl
  · refine (shownValue_flat (v := .int 512) trivial).mpr ?_
    rw [List.nil_append, hspeed]
    rcases List.mem_pair.mp hrule with rfl | rfl
    · exact Or.inl rfl
    · exact Or.inr (Or.inr (Or.inr (by decide +kernel)))

/-- The line links to a block that is known. -/
theorem sequenceLine_taken {store : BlockStore} (hfound : Found store "kettle".toList) :
    LineTaken sameUnit echo.timeparse store (.str "START_SEQUENCE target=kettle".toList) := by
  refine ⟨_, rfl, Or.inr ⟨("START_SEQUENCE", 18, "TargetSequence"), by decide, ?_, by decide⟩⟩
  have hargs : argdictOf (partition ' ' "START_SEQUENCE target=kettle".toList).2 =
      [("target".toList, "kettle".toList)] := by decide
  rw [hargs]
  exact List.forall_mem_singleton.mpr ⟨by decide, _, rfl, .link rfl hfound⟩

theorem kettle_restorable (reader writer : BlockStore) :
    Restorable sequenceCodec echo.timeparse reader writer edgePayload kettle :=
  @Restorable.object sequenceCodec echo.timeparse reader writer edgePayload kettle
    { EDGE_CASE with message_cls := "EdgeCase".toList } [] edgeContent rfl rfl rfl rfl
    (edgeContent_shown rfl rfl reader writer) fun h => absurd h (by decide)

theorem mash_restorable (reader : BlockStore) {writer : BlockStore}
    (hfound : Found writer "kettle".toList) :
    Restorable sequenceCodec echo.timeparse reader writer sequencePayload mash := by
  have hbeside : besideLines mash.type sequenceContent = [] := by decide
  refine @Restorable.object sequenceCodec echo.timeparse reader writer sequencePayload mash
    { type_str := "Sequence", type_int := 320, message_cls := "Sequence".toList } []
    sequenceContent rfl rfl rfl rfl (fun rule _ => ?_) fun _ => ?_
  · rw [hbeside]
    exact shownItems_iff.mpr (List.forall_mem_nil _)
  · exact List.forall_mem_singleton.mpr (sequenceLine_taken hfound)

end devcon_spark.spark_api
