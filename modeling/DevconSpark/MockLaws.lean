-- The identities of the simulated blocks: what each request may do to the
-- table of blocks, and in which runs no identity is given to two blocks.
import DevconSpark.MockConnection
import DevconSpark.Registry
import DevconSpark.RoundTrip

open py_text py_dict py_value programs registry runs devcon_spark.exceptions
open devcon_spark.codec devcon_spark.codec.lookup devcon_spark.codec.descriptor
open devcon_spark.codec.unit_conversion
open devcon_spark.command (ErrorCode)
open devcon_spark.models (EncodedPayload FirmwareBlock)
open devcon_spark.spark_api (USER_NID_START named)

namespace devcon_spark.connection.mock_connection

abbrev Table := List (Int × FirmwareBlock)

/-! ## Sound tables -/

/-- The blocks are at their own nids and have no name in common, the system blocks are there,
and all others are user blocks. -/
structure Sound (t : Table) : Prop where
  registered : Registered FirmwareBlock.nid FirmwareBlock.id t
  system : ∀ p ∈ default_blocks, ∃ block, get? t p.1 = some block ∧ block.type = p.2.type
  user : ∀ p ∈ t, p.1 ∈ default_blocks.map (·.1) ∨ USER_NID_START ≤ p.1

theorem sound_default : Sound default_blocks where
  registered := ⟨by decide, by decide, by decide⟩
  system p hp := ⟨p.2, get?_of_mem (by decide) hp, rfl⟩
  user p hp := Or.inl (List.mem_map_of_mem hp)

variable {t t' : Table} {nid : Int} {old new : FirmwareBlock}

/-- A block of the table may change, and take a name that no other block has. -/
theorem Sound.store (h : Sound t) (hget : get? t nid = some old) (hnid : new.nid = old.nid)
    (htype : new.type = old.type)
    (hname : ∀ name, new.id = some name → ∀ p ∈ t, p.2.id = some name → p.1 = nid) :
    Sound (setItem t nid new) where
  registered := by
    refine h.registered.replace hget ?_ hname
    rw [hnid]
    exact h.registered.own_key _ (mem_of_get? hget)
  system p hp := by
    obtain ⟨block, hblock, hblocktype⟩ := h.system p hp
    by_cases hp1 : p.1 = nid
    · rw [hp1, hget] at hblock
      cases hblock
      exact ⟨new, hp1 ▸ get?_setItem_self t nid new, htype.trans hblocktype⟩
    · exact ⟨block, (get?_setItem_ne t new hp1).trans hblock, hblocktype⟩
  user p hp := by
    rcases mem_setItem hp with rfl | hp
    · exact h.user (nid, old) (mem_of_get? hget)
    · exact h.user p hp

/-- A new user block takes a new name. -/
theorem Sound.create (h : Sound t) (hget : get? t nid = none) (huser : USER_NID_START ≤ nid)
    (hnid : new.nid = nid) (hname : ∀ name, new.id = some name → ∀ p ∈ t, p.2.id ≠ some name) :
    Sound (setItem t nid new) where
  registered := h.registered.add hnid hget hname
  system p hp := by
    obtain ⟨block, hblock, htype⟩ := h.system p hp
    have hne : p.1 ≠ nid := by
      rintro rfl
      rw [hget] at hblock
      cases hblock
    exact ⟨block, (get?_setItem_ne t new hne).trans hblock, htype⟩
  user p hp := by
    rcases mem_setItem hp with rfl | hp
    · exact Or.inr huser
    · exact h.user p hp

theorem system_below : ∀ p ∈ default_blocks, p.1 < USER_NID_START := by decide

theorem Sound.delete (h : Sound t) (huser : USER_NID_START ≤ nid) : Sound (delItem t nid) where
  registered := h.registered.delete nid
  system p hp := by
    obtain ⟨block, hblock, htype⟩ := h.system p hp
    have hbelow := system_below p hp
    exact ⟨block, (get?_delItem_ne t (by omega)).trans hblock, htype⟩
  user p hp := h.user p (List.mem_of_mem_filter hp)

/-! ## What a request may do to the table -/

/-- A block is written to, and stays what it is. -/
inductive Rewritten (t : Table) : Table → Prop
  | same : Rewritten t t
  | block {nid : Int} {old new : FirmwareBlock} (hget : get? t nid = some old)
      (hnid : new.nid = old.nid) (htype : new.type = old.type) (hid : new.id = old.id) :
      Rewritten t (setItem t nid new)

/-- The first block of a name is found before the name is given to a block. -/
inductive Changed (t : Table) : Table → Prop
  | rewritten {t' : Table} (h : Rewritten t t') : Changed t t'
  | renamed {nid : Int} {old : FirmwareBlock} {id : Option String} (hget : get? t nid = some old)
      (hfound : ∀ p, t.find? (·.2.id = id) = some p → p.2.nid = nid) :
      Changed t (setItem t nid { old with id })
  | deleted {nid : Int} (huser : USER_NID_START ≤ nid) : Changed t (delItem t nid)
  | reset {t' : Table} (h : Rewritten default_blocks t') : Changed t t'

theorem Sound.rewritten (h : Sound t) (hrewritten : Rewritten t t') : Sound t' := by
  cases hrewritten with
  | same => exact h
  | block hget hnid htype hid =>
    exact h.store hget hnid htype (h.registered.same_label hget hid)

theorem Sound.changed (h : Sound t) (hchanged : Changed t t') : Sound t' := by
  cases hchanged with
  | rewritten hrewritten => exact h.rewritten hrewritten
  | renamed hget hfound =>
    refine h.store hget rfl rfl fun name hname p hp hpname => ?_
    dsimp only at hname
    subst hname
    rw [← h.registered.own_key p hp]
    exact hfound p (h.registered.find hp hpname)
  | deleted huser => exact h.delete huser
  | reset hrewritten => exact sound_default.rewritten hrewritten

/-! ## What a request does -/

variable {env : Environment} {request : Request} {response : Response} {s : MockConnection}

/-- The nid that `BLOCK_CREATE` stores a block at. -/
def chosenNid (s : MockConnection) (nid : Int) : Int := if nid ≠ 0 then nid else s.id_counter

/-- A request to create a block, with no error injected, that gets to store the block. -/
structure Stores (env : Environment) (s : MockConnection) (request : Request)
    (payload : EncodedPayload) (block : FirmwareBlock) : Prop where
  no_error : s.next_error = []
  opcode : request.opcode = .BLOCK_CREATE
  carries : request.payload = some payload
  unused : get? s.blocks payload.blockId = none
  not_system : ¬ (0 < payload.blockId ∧ payload.blockId < USER_NID_START)
  content : payload.content.isSome = true
  built : newBlock env payload (chosenNid s payload.blockId) = .ok block

/-- The table after a request, by whether it was answered with an error. -/
inductive Handled (env : Environment) (s : MockConnection) (request : Request) : Bool → Table → Prop
  | kept (refused : Bool) : Handled env s request refused s.blocks
  | changed {t : Table} (hop : request.opcode ≠ .BLOCK_CREATE) (h : Changed s.blocks t) :
      Handled env s request false t
  | created {payload : EncodedPayload} {block : FirmwareBlock}
      (h : Stores env s request payload block) :
      Handled env s request false (setItem s.blocks (chosenNid s payload.blockId) block)

/-- The request was answered with an error. -/
def refused : Except Exn Response → Bool
  | .ok response => response.error ≠ .OK
  | .error _ => false

/-- What holds after a request. -/
def After (env : Environment) (s : MockConnection) (request : Request) (r : Except Exn Response)
    (s' : MockConnection) : Prop :=
  Handled env s request (refused r) s'.blocks ∧ s.id_counter ≤ s'.id_counter

theorem after_same (r : Except Exn Response) : After env s request r s := ⟨.kept _, le_rfl⟩

theorem refused_ok (hok : response.error = .OK) : refused (.ok response) = false :=
  decide_eq_false (fun h => h hok)

theorem payloadOf_ok {payload : EncodedPayload} (h : payloadOf request = .ok payload) :
    request.payload = some payload := by
  unfold payloadOf at h
  split at h
  · rename_i hpayload
    cases h
    exact hpayload
  · cases h

/-- The end of a request that stored a block: the block is the answer, if it can be encoded. -/
theorem stored_ends {s' : MockConnection} {x : Except Exn EncodedPayload}
    (hok : response.error = .OK) (hhandled : Handled env s request false s'.blocks)
    (hcounter : s.id_counter ≤ s'.id_counter) :
    Ends (liftExcept x >>= fun payload => pure (answer response [payload])) s'
      (After env s request) := by
  refine ends_lift (fun payload _ => ends_pure ⟨?_, hcounter⟩) fun _ _ => ⟨hhandled, hcounter⟩
  have hanswer : (answer response [payload]).error = .OK := hok
  rw [refused_ok hanswer]
  exact hhandled

theorem handleRead_ends :
    Ends (handleRead env request response) s (After env s request) := by
  unfold handleRead
  refine ends_lift (fun payload _ => ?_) fun _ _ => after_same _
  refine ends_get ?_
  split
  · exact ends_pure (after_same _)
  · exact ends_lift (fun _ _ => ends_pure (after_same _)) fun _ _ => after_same _

theorem handleReadAll_ends : Ends (handleReadAll env response) s (After env s request) := by
  unfold handleReadAll
  refine ends_get ?_
  exact ends_lift (fun _ _ => ends_pure (after_same _)) fun _ _ => after_same _

theorem handleBlockWrite_ends (hcreate : request.opcode ≠ .BLOCK_CREATE)
    (hok : response.error = .OK) :
    Ends (handleBlockWrite env request response) s (After env s request) := by
  unfold handleBlockWrite
  refine ends_lift (fun payload _ => ?_) fun _ _ => after_same _
  refine ends_get ?_
  split
  case h_1 => exact ends_pure (after_same _)
  case h_2 block hget =>
    split
    · exact ends_pure (after_same _)
    · split
      · exact ends_pure (after_same _)
      · refine ends_lift (fun src _ => ?_) fun _ _ => after_same _
        -- from here on the block is merged, whatever is raised
        have hwritten : Handled env s request false
            (setItem s.blocks payload.blockId (_merge_blocks block src).2) :=
          .changed hcreate (.rewritten (.block hget rfl rfl rfl))
        refine ends_modify (ends_lift (fun _ _ => ?_) fun _ _ => ⟨hwritten, le_rfl⟩)
        exact stored_ends hok hwritten le_rfl

theorem chooseNid_ends (nid : Int) : Ends (chooseNid nid) s fun r s' =>
    r = .ok (chosenNid s nid) ∧ s'.blocks = s.blocks ∧ s.id_counter ≤ s'.id_counter := by
  unfold chooseNid chosenNid
  split
  · exact ends_pure ⟨rfl, rfl, le_rfl⟩
  · refine ends_get (ends_modify (ends_pure ⟨rfl, rfl, ?_⟩))
    exact Int.le_add_one le_rfl

theorem handleBlockCreate_ends (herrors : s.next_error = []) (hop : request.opcode = .BLOCK_CREATE)
    (hok : response.error = .OK) :
    Ends (handleBlockCreate env request response) s (After env s request) := by
  unfold handleBlockCreate
  refine ends_lift (fun payload hpayload => ?_) fun _ _ => after_same _
  refine ends_get ?_
  split
  case isTrue => exact ends_pure (after_same _)
  case isFalse hunused =>
    split
    case isTrue => exact ends_pure (after_same _)
    case isFalse hsystem =>
      split
      case isTrue => exact ends_pure (after_same _)
      case isFalse hcontent =>
        refine ends_bind (chooseNid_ends payload.blockId) ?_ ?_
        · rintro nid s' ⟨hnid, hblocks, hcounter⟩
          cases hnid
          refine ends_lift (fun block hblock => ?_) fun _ _ => ⟨hblocks ▸ .kept _, hcounter⟩
          have hstores : Stores env s request payload block :=
            { no_error := herrors
              opcode := hop
              carries := payloadOf_ok hpayload
              unused := by simpa using hunused
              not_system := hsystem
              content := by simpa [Option.isSome_iff_ne_none] using hcontent
              built := hblock }
          have hcreated := hblocks ▸ Handled.created hstores
          exact ends_modify (stored_ends hok hcreated hcounter)
        · rintro e s' ⟨he, -⟩
          cases he

theorem handleBlockDelete_ends (hcreate : request.opcode ≠ .BLOCK_CREATE)
    (hok : response.error = .OK) :
    Ends (handleBlockDelete request response) s (After env s request) := by
  unfold handleBlockDelete
  refine ends_lift (fun payload _ => ?_) fun _ _ => after_same _
  refine ends_get ?_
  split
  · exact ends_pure (after_same _)
  · split
    case isTrue => exact ends_pure (after_same _)
    case isFalse hnid =>
      refine ends_modify (ends_pure ⟨?_, le_rfl⟩)
      rw [refused_ok hok]
      exact .changed hcreate (.deleted (not_lt.mp hnid))

theorem handleNameWrite_ends (hcreate : request.opcode ≠ .BLOCK_CREATE)
    (hok : response.error = .OK) :
    Ends (handleNameWrite env request response) s (After env s request) := by
  unfold handleNameWrite
  refine ends_lift (fun payload _ => ?_) fun _ _ => after_same _
  refine ends_get ?_
  split
  case h_1 => exact ends_pure (after_same _)
  case h_2 block hget =>
    split
    · exact ends_pure (after_same _)
    · dsimp only
      split
      case isTrue => exact ends_pure (after_same _)
      case isFalse hfound =>
        have hrenamed : Handled env s request false
            (setItem s.blocks payload.blockId { block with id := payload.name }) := by
          refine .changed hcreate (.renamed hget fun p hp => ?_)
          rw [hp] at hfound
          simpa using hfound
        exact ends_modify (stored_ends hok hrenamed le_rfl)

/-! ### Writes to the system blocks -/

theorem blockAt_ends {β : Type} {f : FirmwareBlock → Handler β}
    {Q : Except Exn β → MockConnection → Prop}
    (hblock : ∀ block, get? s.blocks nid = some block → Ends (f block) s Q)
    (hnone : ∀ e, Q (.error e) s) : Ends (blockAt nid >>= f) s Q := by
  have hat : Ends (blockAt nid) s fun r s' => s' = s ∧
      ∀ block, r = .ok block → get? s.blocks nid = some block := by
    unfold blockAt
    refine ends_get ?_
    split
    case h_1 block hget =>
      refine ends_pure ⟨rfl, ?_⟩
      rintro _ ⟨⟩
      exact hget
    case h_2 =>
      refine ends_throw ⟨rfl, fun block h => ?_⟩
      cases h
  refine ends_bind hat ?_ ?_
  · rintro block s' ⟨rfl, hget⟩
    exact hblock block (hget block rfl)
  · rintro e s' ⟨rfl, -⟩
    exact hnone e

theorem update_systime_ends (now : Int) : Ends (update_systime now) s fun _ s' =>
    Rewritten s.blocks s'.blocks ∧ s'.id_counter = s.id_counter := by
  unfold update_systime
  refine ends_get (blockAt_ends (fun block hget => ?_) fun _ => ⟨.same, rfl⟩)
  exact ⟨.block hget rfl rfl rfl, rfl⟩

theorem handleBlockDiscover_ends : Ends (handleBlockDiscover env response) s
    (After env s request) := by
  unfold handleBlockDiscover
  refine blockAt_ends (fun block _ => ?_) fun _ => after_same _
  exact ends_lift (fun _ _ => ends_pure (after_same _)) fun _ _ => after_same _

theorem handleClearWifi_ends (hcreate : request.opcode ≠ .BLOCK_CREATE)
    (hok : response.error = .OK) :
    Ends (handleClearWifi response) s (After env s request) := by
  unfold handleClearWifi
  refine blockAt_ends (fun block hget => ?_) fun _ => after_same _
  refine ends_modify (ends_pure ⟨?_, le_rfl⟩)
  rw [refused_ok hok]
  exact .changed hcreate (.rewritten (.block hget rfl rfl rfl))

/-- The last part of a request that is answered with what is there already. -/
theorem systime_after {now : Int} (hcreate : request.opcode ≠ .BLOCK_CREATE)
    (hok : response.error = .OK) {s' : MockConnection} (hcounter : s'.id_counter = s.id_counter)
    (hchanged : ∀ t, Rewritten s'.blocks t → Changed s.blocks t) :
    Ends (update_systime now >>= fun _ => pure response) s' (After env s request) := by
  refine ends_bind (update_systime_ends now) ?_ ?_
  · rintro _ u ⟨hu, hsame⟩
    refine ends_pure ⟨?_, (hsame.trans hcounter).ge⟩
    rw [refused_ok hok]
    exact .changed hcreate (hchanged _ hu)
  · rintro e u ⟨hu, hsame⟩
    exact ⟨.changed hcreate (hchanged _ hu), (hsame.trans hcounter).ge⟩

theorem handleReboot_ends {now : Nat → Int} (hcreate : request.opcode ≠ .BLOCK_CREATE)
    (hok : response.error = .OK) :
    Ends (handleReboot now response) s (After env s request) := by
  exact ends_modify (systime_after hcreate hok rfl fun _ h => .rewritten h)

theorem handleFactoryReset_ends {now : Nat → Int} (hcreate : request.opcode ≠ .BLOCK_CREATE)
    (hok : response.error = .OK) :
    Ends (handleFactoryReset now response) s (After env s request) := by
  exact ends_modify (systime_after hcreate hok rfl fun _ h => .reset h)

theorem handleClearBlocks_ends {now : Nat → Int} (hcreate : request.opcode ≠ .BLOCK_CREATE)
    (hok : response.error = .OK) :
    Ends (handleClearBlocks env now response) s (After env s request) := by
  unfold handleClearBlocks
  refine ends_get (ends_lift (fun payload _ => ?_) fun _ _ => after_same _)
  have hanswer : (answer response payload).error = .OK := hok
  exact ends_modify (systime_after hcreate hanswer rfl fun _ h => .reset h)

/-! ### All requests -/

theorem handleOpcode_ends {now : Nat → Int} (herrors : s.next_error = [])
    (hok : response.error = .OK) :
    Ends (handleOpcode env now request response) s (After env s request) := by
  unfold handleOpcode
  cases hop : request.opcode
  case NONE | VERSION => exact ends_modify (ends_pure ⟨.kept _, le_rfl⟩)
  case BLOCK_READ | STORAGE_READ | NAME_READ => exact handleRead_ends
  case BLOCK_READ_ALL | STORAGE_READ_ALL | NAME_READ_ALL => exact handleReadAll_ends
  case BLOCK_WRITE => exact handleBlockWrite_ends (by simp [hop]) hok
  case BLOCK_CREATE => exact handleBlockCreate_ends herrors hop hok
  case BLOCK_DELETE => exact handleBlockDelete_ends (by simp [hop]) hok
  case BLOCK_DISCOVER => exact handleBlockDiscover_ends
  case NAME_WRITE => exact handleNameWrite_ends (by simp [hop]) hok
  case REBOOT => exact handleReboot_ends (by simp [hop]) hok
  case CLEAR_BLOCKS => exact handleClearBlocks_ends (by simp [hop]) hok
  case CLEAR_WIFI => exact handleClearWifi_ends (by simp [hop]) hok
  case FACTORY_RESET => exact handleFactoryReset_ends (by simp [hop]) hok
  case FIRMWARE_UPDATE => exact ends_pure (after_same _)

/-- The response is there, and is an error. -/
def refusedAnswer : Except Exn (Option Response) → Bool
  | .ok (some response) => refused (.ok response)
  | .ok none | .error _ => false

theorem handle_command_ends (env : Environment) (s : MockConnection) (now : Nat → Int)
    (request : Request) : Ends (handle_command env now request) s fun r s' =>
      Handled env s request (refusedAnswer r) s'.blocks ∧ s.id_counter ≤ s'.id_counter := by
  unfold handle_command
  refine ends_get ?_
  split
  case h_1 error errors _ =>
    -- an injected error, or none for no response at all
    exact ends_modify (ends_pure ⟨.kept _, le_rfl⟩)
  case h_2 herrors =>
    refine ends_bind (handleOpcode_ends herrors rfl) ?_ ?_
    · exact fun response s' hafter => ends_pure hafter
    · exact fun e s' hafter => hafter

/-! ## Runs -/

theorem firmwareBlock_ok {payload : models.DecodedPayload} {block : FirmwareBlock}
    (h : firmwareBlock payload = .ok block) :
    block.nid = payload.blockId ∧ block.id = payload.name := by
  unfold firmwareBlock at h
  split at h
  · cases h
    exact ⟨rfl, rfl⟩
  · cases h
  · cases h

/-- The new block has the nid that was chosen for it, and the name of the request. -/
theorem newBlock_ids {payload : EncodedPayload} {block : FirmwareBlock} {nid : Int}
    (h : newBlock env payload nid = .ok block) : block.nid = nid ∧ block.id = payload.name := by
  unfold newBlock at h
  obtain ⟨argblock, -, h⟩ := bind_eq_ok.mp h
  obtain ⟨default, hdefault, h⟩ := bind_eq_ok.mp h
  obtain ⟨_, -, h⟩ := bind_eq_ok.mp h
  cases h
  unfold _default_block at hdefault
  obtain ⟨encoded, hencoded, hdecoded⟩ := bind_eq_ok.mp hdefault
  obtain ⟨hnid, hid⟩ := firmwareBlock_ok hdecoded
  have hout := encode_payload_ids hencoded
  have hin := decode_payload_ids env.codec encoded .DEFAULT none
  exact ⟨hnid.trans (hin.blockId.trans hout.blockId), hid.trans (hin.name.trans hout.name)⟩

/-- What a new block is asked to be is not taken: its nid is not negative, the counter does
not give it the nid of a stored block, and no stored block has its name. -/
structure NewIdentity (s : MockConnection) (payload : EncodedPayload) : Prop where
  not_negative : 0 ≤ payload.blockId
  nid : payload.blockId = 0 → get? s.blocks s.id_counter = none
  name : ∀ name, payload.name = some name → ∀ p ∈ s.blocks, p.2.id ≠ some name

/-- A request that gets to store a new block asks for an identity that is not taken. -/
def Fresh (env : Environment) (s : MockConnection) : Action → Prop
  | .handled _ request =>
    ∀ payload block, Stores env s request payload block → NewIdentity s payload
  | .injected _ | .updated _ => True

/-- What a request leaves as it was. -/
structure Kept (request : Request) (r : Except Exn (Option Response)) (t t' : Table) : Prop where
  refused : ∀ response, r = .ok (some response) → response.error ≠ .OK → t' = t
  /-- All blocks that were stored are in place, and unchanged. -/
  created : ∀ response, r = .ok (some response) → response.error = .OK →
    request.opcode = .BLOCK_CREATE → t <+: t'

def Keeps (env : Environment) (s : MockConnection) : Action → Prop
  | .handled now request =>
    let ended := (handle_command env now request).run.run s
    Kept request ended.1 s.blocks ended.2.blocks
  | .injected _ | .updated _ => True

/-- A sound connection. The counter of nids only goes up. -/
structure SoundConnection (s : MockConnection) : Prop where
  blocks : Sound s.blocks
  counter : USER_NID_START ≤ s.id_counter

theorem chosen_is_free (hcounter : USER_NID_START ≤ s.id_counter) {payload : EncodedPayload}
    {block : FirmwareBlock} (h : Stores env s request payload block)
    (hnew : NewIdentity s payload) : USER_NID_START ≤ chosenNid s payload.blockId ∧
      get? s.blocks (chosenNid s payload.blockId) = none := by
  unfold chosenNid
  by_cases hzero : payload.blockId = 0
  · rw [if_neg (not_not.mpr hzero)]
    exact ⟨hcounter, hnew.nid hzero⟩
  · rw [if_pos hzero]
    have hsystem := h.not_system
    have hpos := hnew.not_negative
    exact ⟨by omega, h.unused⟩

theorem handled_sound {b : Bool} (hs : SoundConnection s)
    (hfresh : ∀ payload block, Stores env s request payload block → NewIdentity s payload)
    (h : Handled env s request b t) : Sound t := by
  cases h with
  | kept => exact hs.blocks
  | changed _ hchanged => exact hs.blocks.changed hchanged
  | created hstores =>
    have hnew := hfresh _ _ hstores
    obtain ⟨huser, hfree⟩ := chosen_is_free hs.counter hstores hnew
    obtain ⟨hnid, hid⟩ := newBlock_ids hstores.built
    exact hs.blocks.create hfree huser hnid fun name hname => hnew.name name (hid ▸ hname)

theorem table_of_refused (h : Handled env s request true t) : t = s.blocks := by
  cases h
  rfl

theorem prefix_of_create {b : Bool} (hs : SoundConnection s)
    (hfresh : ∀ payload block, Stores env s request payload block → NewIdentity s payload)
    (hop : request.opcode = .BLOCK_CREATE) (h : Handled env s request b t) : s.blocks <+: t := by
  cases h with
  | kept => exact List.prefix_rfl
  | changed hcreate => exact absurd hop hcreate
  | created hstores =>
    obtain ⟨-, hfree⟩ := chosen_is_free hs.counter hstores (hfresh _ _ hstores)
    rw [setItem_new _ (not_mem_of_get? hfree)]
    exact List.prefix_append _ _

theorem step_sound (action : Action) (hs : SoundConnection s) (hfresh : Fresh env s action) :
    SoundConnection (step env s action) := by
  cases action with
  | injected errors => exact ⟨hs.blocks, hs.counter⟩
  | updated now =>
    obtain ⟨hrewritten, hcounter⟩ := update_systime_ends (s := s) now
    exact ⟨hs.blocks.rewritten hrewritten, hs.counter.trans hcounter.ge⟩
  | handled now request =>
    obtain ⟨hhandled, hcounter⟩ := handle_command_ends env s now request
    exact ⟨handled_sound hs hfresh hhandled, hs.counter.trans hcounter⟩

theorem step_keeps (action : Action) (hs : SoundConnection s) (hfresh : Fresh env s action) :
    Keeps env s action := by
  cases action with
  | injected errors => trivial
  | updated now => trivial
  | handled now request =>
    obtain ⟨hhandled, -⟩ := handle_command_ends env s now request
    refine ⟨fun response hr herror => ?_, fun _ _ _ hop => prefix_of_create hs hfresh hop hhandled⟩
    have hrefused : refusedAnswer (.ok (some response)) = true := decide_eq_true herror
    rw [hr, hrefused] at hhandled
    exact table_of_refused hhandled

/-- In a run where each new block asks for an identity that is not taken, no identity is given to
two blocks, and no stored block is lost to a new one. -/
theorem identities_stay_apart (start_time : Int) {actions : List Action}
    (h : EachStep (step env) (Fresh env) { start_time } actions) :
    Throughout (step env) (fun s => Sound s.blocks) { start_time } actions ∧
      EachStep (step env) (Keeps env) { start_time } actions := by
  have hstart : SoundConnection { start_time } := ⟨sound_default, le_rfl⟩
  obtain ⟨hthroughout, heach⟩ := throughout_of_eachStep (fun s a => step_sound (s := s) a)
    (fun s a => step_keeps (s := s) a) hstart h
  exact ⟨fun pre hpre => (hthroughout pre hpre).blocks, heach⟩

/-! ### Two creates -/

/-- The messages of a block of variables. -/
def variablesPool : Pool where
  messages := fun message =>
    if message = "Variables".toList then
      [{ name := "variables".toList, number := 1, type := .MESSAGE, label_repeated := true
         message_type := some "VariablesEntry".toList }]
    else
      [{ name := "key".toList, number := 1, type := .STRING },
        { name := "value".toList, number := 2, type := .MESSAGE
          message_type := some "VarContainer".toList }]
  map_entry := fun message => message = "VariablesEntry".toList

def variablesLookup : Lookup where
  BlockType := [("Any", 255), ("Variables", 333), ("Deprecated", 65533)]
  objects := [{ type_str := "Variables", type_int := 333, message_cls := "Variables".toList },
    { EDGE_CASE with message_cls := "EdgeCase".toList }]
  interfaces := [{ type_str := "Any", type_int := 255 }, EDGE_CASE]

example : lookup.setup variablesLookup.BlockType [("Variables".toList, 333)] "EdgeCase".toList =
    .ok variablesLookup := by decide

/-- A simulation that knows blocks of variables, which are all empty. -/
def variablesOnly : Environment where
  codec :=
    { filter_values := false
      env := content.sameUnit
      units := converter "degC".toList
      pool := variablesPool
      lookup := variablesLookup
      protobuf :=
        { serialize := fun _ _ => .ok []
          parse := fun _ _ _ => .ok [("variables".toList, .dict [])] } }
  device_id := "123456789012345678901234"
  fw_config :=
    { firmware_version := "f0", firmware_date := "", proto_version := "p0", proto_date := "" }
  system_version := "1.0.0"

def create (nid : Int) (name : String) : Action :=
  .handled (fun _ => 0)
    { msgId := 1, opcode := .BLOCK_CREATE, mode := .DEFAULT
      payload := some { blockId := nid, blockType := some (.int 333), name := some name } }

/-- A name is not checked when a block is created, and the counter does not know of the nids
that were asked for: the second block takes the name of the first, or its place. -/
theorem an_identity_is_given_twice :
    ¬ Throughout (step variablesOnly) (fun s => Sound s.blocks) { start_time := 0 }
        [create 100 "kettle", create 101 "kettle"] ∧
      ¬ EachStep (step variablesOnly) (Keeps variablesOnly) { start_time := 0 }
        [create 100 "kettle", create 0 "pump"] := by
  constructor
  · intro h
    have hnames := (h _ List.prefix_rfl).registered.labels
    revert hnames
    decide
  · intro h
    have hkept : Keeps variablesOnly _ (create 0 "pump") :=
      h [create 100 "kettle"] _ List.prefix_rfl
    have hprefix := hkept.created _ rfl rfl rfl
    have hsame := hprefix.eq_of_length rfl
    have hids := congrArg (fun t : Table => (get? t 100).map FirmwareBlock.id) hsame
    revert hids
    decide

theorem fresh_create {nid : Int} {name : String} (hnid : 0 ≤ nid)
    (hcounter : nid = 0 → get? s.blocks s.id_counter = none)
    (hname : ∀ p ∈ s.blocks, p.2.id ≠ some name) : Fresh env s (create nid name) := by
  intro payload block h
  cases h.carries
  refine ⟨hnid, hcounter, fun asked hasked => ?_⟩
  cases hasked
  exact hname

theorem identities_stay_apart_sample :
    let actions := [create 120 "kettle", create 0 "pump"]
    Throughout (step variablesOnly) (fun s => Sound s.blocks) { start_time := 0 } actions ∧
      EachStep (step variablesOnly) (Keeps variablesOnly) { start_time := 0 } actions := by
  intro actions
  have hkettle : Fresh variablesOnly { start_time := 0 } (create 120 "kettle") :=
    fresh_create (by decide) (fun h => nomatch h) (by decide)
  have hpump : Fresh variablesOnly (step variablesOnly { start_time := 0 } (create 120 "kettle"))
      (create 0 "pump") := fresh_create le_rfl (fun _ => rfl) (by decide)
  exact identities_stay_apart 0
    (eachStep_cons.mpr ⟨hkettle, eachStep_cons.mpr ⟨hpump, eachStep_nil⟩⟩)

end devcon_spark.connection.mock_connection
