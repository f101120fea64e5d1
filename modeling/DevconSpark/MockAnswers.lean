-- What the simulated controller answers, and what its blocks are called after
-- that.
import DevconSpark.MirrorLaws
import DevconSpark.MockLaws

open bidict mirrors programs py_dict registry runs devcon_spark.exceptions devcon_spark.codec
open devcon_spark.command (ErrorCode Opcode)
open devcon_spark.models (EncodedPayload FirmwareBlock)
open devcon_spark.spark_api (Directory Counts Known New Confirmed Keeper named USER_NID_START)

namespace devcon_spark.connection.mock_connection

/-! ## What the blocks of a table are called -/

/-- A message has a name always, be it an empty one. -/
def sentName (id : Option String) : Option String := some (id.getD "")

def directory (t : Table) : Directory := fun v =>
  v.bind fun nid => (get? t nid).map fun block => sentName block.id

variable {t t' : Table} {nid : Int} {block : FirmwareBlock}

theorem directory_some (h : get? t nid = some block) :
    directory t (some nid) = some (sentName block.id) := by
  simp [directory, h]

theorem directory_none (h : get? t nid = none) : directory t (some nid) = none := by
  simp [directory, h]

theorem exists_of_directory {v : Option Int} {id : Option String} (h : directory t v = some id) :
    ∃ nid block, v = some nid ∧ get? t nid = some block ∧ sentName block.id = id := by
  obtain ⟨nid, rfl, h⟩ := Option.bind_eq_some_iff.mp h
  obtain ⟨block, hget, hid⟩ := Option.map_eq_some_iff.mp h
  exact ⟨nid, block, rfl, hget, hid⟩

theorem directory_setItem (t : Table) (nid : Int) (block : FirmwareBlock) :
    directory (setItem t nid block) =
      Function.update (directory t) (some nid) (some (sentName block.id)) := by
  funext v
  by_cases hv : v = some nid
  · subst hv
    rw [Function.update_self, directory_some (get?_setItem_self t nid block)]
  · rw [Function.update_of_ne hv]
    cases v with
    | none => rfl
    | some j =>
      have hj : j ≠ nid := fun h => hv (congrArg some h)
      simp [directory, get?_setItem_ne t block hj]

theorem get?_delItem_self (t : Table) (nid : Int) : get? (delItem t nid) nid = none := by
  refine get?_of_not_mem fun hmem => ?_
  obtain ⟨p, hp, hnid⟩ := List.mem_map.mp hmem
  simpa [hnid] using (List.mem_filter.mp hp).2

theorem directory_delItem (t : Table) (nid : Int) :
    directory (delItem t nid) = Function.update (directory t) (some nid) none := by
  funext v
  by_cases hv : v = some nid
  · subst hv
    rw [Function.update_self, directory_none (get?_delItem_self t nid)]
  · rw [Function.update_of_ne hv]
    cases v with
    | none => rfl
    | some j =>
      have hj : j ≠ nid := fun h => hv (congrArg some h)
      simp [directory, get?_delItem_ne t hj]

theorem directory_rewritten (h : Rewritten t t') : directory t' = directory t := by
  cases h with
  | same => rfl
  | block hget hnid htype hid =>
    rw [directory_setItem, hid, ← directory_some hget, Function.update_eq_self]

/-- A name that is not empty stays as it is on the way. -/
theorem sentName_eq {id id' : Option String} (hnamed : named id) (h : sentName id' = id) :
    id' = id := by
  cases id' with
  | some name => exact h
  | none =>
    subst h
    cases hnamed

theorem named_sentName {id : Option String} (h : named id) : sentName id = id := by
  cases id with
  | some name => rfl
  | none => cases h

theorem Sound.distinct (h : Sound t) : Distinct Counts (directory t) := by
  intro id v v' hid hv hv'
  obtain ⟨nid, block, rfl, hget, hblock⟩ := exists_of_directory hv
  obtain ⟨nid', block', rfl, hget', hblock'⟩ := exists_of_directory hv'
  have hname := sentName_eq hid hblock
  have hname' := sentName_eq hid hblock'
  obtain ⟨name, rfl⟩ : ∃ name, id = some name := by
    cases id with
    | some name => exact ⟨name, rfl⟩
    | none => cases hid
  have hsame := h.registered.unique (mem_of_get? hget) (mem_of_get? hget') hname hname'
  rw [(Prod.mk.inj hsame).1]

/-! ## What a request is answered with -/

/-- The payload is about a block of the controller. -/
def Listed (D : Directory) (p : EncodedPayload) : Prop :=
  D (some p.blockId) = some (sentName p.name)

/-- A new block has the number that was asked for, if there was one, and the name. -/
def Asked (payload : Option EncodedPayload) (p : EncodedPayload) : Prop :=
  ∃ asked, payload = some asked ∧ (asked.blockId ≠ 0 → p.blockId = asked.blockId) ∧
    sentName p.name = sentName asked.name

/-- The payloads of a request that is not refused, and what the blocks are called after it. -/
def Replied (opcode : Opcode) (payload : Option EncodedPayload) (D : Directory)
    (payloads : List EncodedPayload) (D' : Directory) : Prop :=
  match opcode with
  | .BLOCK_READ | .STORAGE_READ | .NAME_READ | .BLOCK_WRITE =>
    D' = D ∧ ∃ p, payloads = [p] ∧ Listed D p
  | .BLOCK_READ_ALL | .STORAGE_READ_ALL | .NAME_READ_ALL =>
    D' = D ∧ (∀ p ∈ payloads, Listed D p) ∧
      (∀ v id, D v = some id → ∃ p ∈ payloads, some p.blockId = v ∧ sentName p.name = id) ∧
        (payloads.map EncodedPayload.blockId).Nodup
  | .BLOCK_DISCOVER => D' = D ∧ ∀ p ∈ payloads, Listed D p
  | .BLOCK_CREATE => ∃ p, payloads = [p] ∧ D (some p.blockId) = none ∧ p.blockId ≠ 0 ∧
      (named (sentName p.name) → ∀ v, D v ≠ some (sentName p.name)) ∧
      D' = Function.update D (some p.blockId) (some (sentName p.name)) ∧ Asked payload p
  | .BLOCK_DELETE => ∃ p, payload = some p ∧ D' = Function.update D (some p.blockId) none
  | .NAME_WRITE => ∃ p, payloads = [p] ∧ Only D (sentName p.name) (some p.blockId) ∧
      D' = Function.update D (some p.blockId) (some (sentName p.name))
  | .CLEAR_BLOCKS | .FACTORY_RESET => ∀ nid, USER_NID_START ≤ nid → D' (some nid) = none
  | .NONE | .VERSION | .REBOOT | .CLEAR_WIFI | .FIRMWARE_UPDATE => D' = D

variable {env : Environment} {request : Request} {response : Response} {s s' : MockConnection}

/-- What holds when a request was handled. -/
structure Right (request : Request) (response : Response) (s : MockConnection)
    (r : Except Exn Response) (s' : MockConnection) : Prop where
  errors : s'.next_error = s.next_error
  msgId : ∀ out, r = .ok out → out.msgId = response.msgId
  replied : ∀ out, r = .ok out → out.error = .OK →
    Replied request.opcode request.payload (directory s.blocks) out.payload (directory s'.blocks)

theorem right_error (e : Exn) (herrors : s'.next_error = s.next_error) :
    Right request response s (.error e) s' where
  errors := herrors
  msgId := by rintro out ⟨⟩
  replied := by rintro out ⟨⟩

theorem right_refuse {error : ErrorCode} (h : error ≠ .OK) :
    Right request response s (.ok (refuse response error)) s where
  errors := rfl
  msgId := by
    rintro out ⟨⟩
    rfl
  replied := by
    rintro out ⟨⟩ hok
    exact absurd hok h

theorem right_ok {payloads : List EncodedPayload} (herrors : s'.next_error = s.next_error)
    (h : Replied request.opcode request.payload (directory s.blocks) payloads
      (directory s'.blocks)) :
    Right request response s (.ok (answer response payloads)) s' where
  errors := herrors
  msgId := by
    rintro out ⟨⟩
    rfl
  replied := by
    rintro out ⟨⟩ -
    exact h

theorem to_payload_listed {D : Directory} {e : EncodedPayload}
    (hD : D (some block.nid) = some (sentName block.id)) (h : _to_payload env block = .ok e) :
    Listed D e := by
  have hids := encode_payload_ids h
  unfold Listed
  rw [hids.blockId, hids.name]
  exact hD

variable (hs : SoundConnection s)

include hs in
theorem own_nid (hget : get? s.blocks nid = some block) : block.nid = nid :=
  hs.blocks.registered.own_key _ (mem_of_get? hget)

include hs in
theorem block_listed {e : EncodedPayload} (hget : get? s.blocks nid = some block)
    (h : _to_payload env block = .ok e) : Listed (directory s.blocks) e := by
  refine to_payload_listed ?_ h
  rw [own_nid hs hget]
  exact directory_some hget

include hs in
theorem handleRead_right (hop : request.opcode = .BLOCK_READ ∨ request.opcode = .STORAGE_READ ∨
    request.opcode = .NAME_READ) :
    Ends (handleRead env request response) s (Right request response s) := by
  unfold handleRead
  refine ends_lift (fun payload _ => ends_get ?_) fun e _ => right_error e rfl
  split
  case h_1 => exact ends_pure (right_refuse (by decide))
  case h_2 block hget =>
    refine ends_lift (fun e he => ends_pure (right_ok rfl ?_)) fun e _ => right_error e rfl
    have hlisted := block_listed hs hget he
    unfold Replied
    rcases hop with hop | hop | hop <;> rw [hop] <;> exact ⟨rfl, e, rfl, hlisted⟩

include hs in
theorem handleReadAll_right (hop : request.opcode = .BLOCK_READ_ALL ∨
    request.opcode = .STORAGE_READ_ALL ∨ request.opcode = .NAME_READ_ALL) :
    Ends (handleReadAll env response) s (Right request response s) := by
  unfold handleReadAll
  refine ends_get (ends_lift (fun payloads hpayloads => ends_pure (right_ok rfl ?_)) fun e _ =>
    right_error e rfl)
  have hall := forall₂_of_mapM hpayloads
  have hlisted : ∀ p ∈ payloads, Listed (directory s.blocks) p := by
    intro p hp
    obtain ⟨block, hblock, hencoded⟩ := forall₂_right hall hp
    obtain ⟨q, hq, rfl⟩ := List.mem_map.mp hblock
    exact block_listed hs (get?_of_mem hs.blocks.registered.keys hq) hencoded
  have hcomplete : ∀ v id, directory s.blocks v = some id →
      ∃ p ∈ payloads, some p.blockId = v ∧ sentName p.name = id := by
    intro v id hv
    obtain ⟨nid, block, rfl, hget, rfl⟩ := exists_of_directory hv
    have hblock : block ∈ s.blocks.map (·.2) := List.mem_map_of_mem (mem_of_get? hget)
    obtain ⟨p, hp, hencoded⟩ := forall₂_left hall hblock
    have hids := encode_payload_ids hencoded
    refine ⟨p, hp, ?_, ?_⟩
    · rw [hids.blockId, own_nid hs hget]
    · rw [hids.name]
  have hdistinct : (payloads.map EncodedPayload.blockId).Nodup := by
    have hids : (s.blocks.map (·.2)).map FirmwareBlock.nid = payloads.map EncodedPayload.blockId :=
      map_eq_of_forall₂ (hall.imp fun _ _ he => (encode_payload_ids he).blockId.symm)
    have hown : s.blocks.map (fun p => p.2.nid) = s.blocks.map (·.1) :=
      List.map_congr_left hs.blocks.registered.own_key
    rw [← hids, List.map_map]
    exact hown ▸ hs.blocks.registered.keys
  unfold Replied
  rcases hop with hop | hop | hop <;> rw [hop] <;> exact ⟨rfl, hlisted, hcomplete, hdistinct⟩

include hs in
theorem handleBlockWrite_right (hop : request.opcode = .BLOCK_WRITE) :
    Ends (handleBlockWrite env request response) s (Right request response s) := by
  unfold handleBlockWrite
  refine ends_lift (fun payload _ => ends_get ?_) fun e _ => right_error e rfl
  split
  case h_1 => exact ends_pure (right_refuse (by decide))
  case h_2 block hget =>
    split
    · exact ends_pure (right_refuse (by decide))
    · split
      · exact ends_pure (right_refuse (by decide))
      · refine ends_lift (fun src _ => ends_modify ?_) fun e _ => right_error e rfl
        refine ends_lift (fun _ _ => ?_) fun e _ => right_error e rfl
        refine ends_lift (fun e he => ends_pure (right_ok rfl ?_)) fun e _ => right_error e rfl
        have hsame : directory (setItem s.blocks payload.blockId (_merge_blocks block src).2) =
            directory s.blocks := directory_rewritten (.block hget rfl rfl rfl)
        have hlisted : Listed (directory s.blocks) e := by
          have hnid : block.nid = payload.blockId := own_nid hs hget
          have hblock : directory s.blocks (some block.nid) = some (sentName block.id) :=
            hnid ▸ directory_some hget
          have hmerged : directory s.blocks (some (_merge_blocks block src).2.nid) =
            some (sentName (_merge_blocks block src).2.id) := hblock
          exact to_payload_listed hmerged he
        unfold Replied
        rw [hop]
        exact ⟨hsame, e, rfl, hlisted⟩

include hs in
theorem handleBlockCreate_right (hop : request.opcode = .BLOCK_CREATE) (herrors : s.next_error = [])
    (hfresh : ∀ payload block, Stores env s request payload block → NewIdentity s payload) :
    Ends (handleBlockCreate env request response) s (Right request response s) := by
  unfold handleBlockCreate
  refine ends_lift (fun payload hpayload => ends_get ?_) fun e _ => right_error e rfl
  split
  case isTrue => exact ends_pure (right_refuse (by decide))
  case isFalse hunused =>
    split
    case isTrue => exact ends_pure (right_refuse (by decide))
    case isFalse hsystem =>
      split
      case isTrue => exact ends_pure (right_refuse (by decide))
      case isFalse hcontent =>
        have hchosen : Ends (chooseNid payload.blockId) s fun r s' =>
            r = .ok (chosenNid s payload.blockId) ∧ s'.blocks = s.blocks ∧
              s'.next_error = s.next_error := by
          unfold chooseNid chosenNid
          split
          · exact ends_pure ⟨rfl, rfl, rfl⟩
          · exact ends_get (ends_modify (ends_pure ⟨rfl, rfl, rfl⟩))
        refine ends_bind hchosen ?_ ?_
        · rintro nid s' ⟨hnid, hblocks, hsame⟩
          cases hnid
          refine ends_lift (fun block hblock => ends_modify ?_) fun e _ => right_error e hsame
          refine ends_lift (fun e he => ends_pure (right_ok hsame ?_)) fun e _ =>
            right_error e hsame
          have hstores : Stores env s request payload block :=
            { no_error := herrors
              opcode := hop
              carries := payloadOf_ok hpayload
              unused := by simpa using hunused
              not_system := hsystem
              content := by simpa [Option.isSome_iff_ne_none] using hcontent
              built := hblock }
          have hnew := hfresh payload block hstores
          obtain ⟨huser, hfree⟩ := chosen_is_free hs.counter hstores hnew
          obtain ⟨hnid, hid⟩ := newBlock_ids hblock
          have hids := encode_payload_ids he
          have hblockId : e.blockId = chosenNid s payload.blockId := hids.blockId.trans hnid
          have hname : e.name = payload.name := hids.name.trans hid
          unfold Replied
          rw [hop]
          refine ⟨e, rfl, ?_, ?_, ?_, ?_, payload, payloadOf_ok hpayload, fun hgiven => ?_, ?_⟩
          · rw [hblockId]
            exact directory_none hfree
          · have huser' : (100 : Int) ≤ chosenNid s payload.blockId := huser
            omega
          · intro hnamed v hv
            obtain ⟨nid, other, rfl, hget, hother⟩ := exists_of_directory hv
            rw [hname] at hnamed hother
            have hother := sentName_eq hnamed hother
            cases hpname : payload.name with
            | none =>
              rw [hpname] at hnamed
              cases hnamed
            | some name =>
              rw [hpname] at hother
              exact hnew.name name hpname _ (mem_of_get? hget) hother
          · rw [hblocks, directory_setItem, hblockId, hname, hid]
          · rw [hblockId]
            exact if_pos hgiven
          · rw [hname]
        · rintro e s' ⟨he, -⟩
          cases he

theorem handleBlockDelete_right (hop : request.opcode = .BLOCK_DELETE) :
    Ends (handleBlockDelete request response) s (Right request response s) := by
  unfold handleBlockDelete
  refine ends_lift (fun payload hpayload => ends_get ?_) fun e _ => right_error e rfl
  split
  · exact ends_pure (right_refuse (by decide))
  · split
    case isTrue => exact ends_pure (right_refuse (by decide))
    case isFalse =>
      have hreplied : Replied request.opcode request.payload (directory s.blocks) response.payload
          (directory (delItem s.blocks payload.blockId)) := by
        unfold Replied
        rw [hop]
        exact ⟨payload, payloadOf_ok hpayload, directory_delItem s.blocks payload.blockId⟩
      exact ends_modify (ends_pure (right_ok rfl hreplied))

include hs in
theorem handleNameWrite_right (hop : request.opcode = .NAME_WRITE) :
    Ends (handleNameWrite env request response) s (Right request response s) := by
  unfold handleNameWrite
  refine ends_lift (fun payload _ => ends_get ?_) fun e _ => right_error e rfl
  split
  case h_1 => exact ends_pure (right_refuse (by decide))
  case h_2 block hget =>
    split
    case isTrue => exact ends_pure (right_refuse (by decide))
    case isFalse hnamed =>
      dsimp only
      split
      case isTrue => exact ends_pure (right_refuse (by decide))
      case isFalse hfound =>
        refine ends_modify (ends_lift (fun e he => ends_pure (right_ok rfl ?_)) fun e _ =>
          right_error e rfl)
        have hids := encode_payload_ids he
        have hnamed : named payload.name := by simpa using hnamed
        have hname : sentName e.name = payload.name := by
          rw [hids.name]
          exact named_sentName hnamed
        have hblockId : e.blockId = payload.blockId := hids.blockId.trans (own_nid hs hget)
        unfold Replied
        rw [hop]
        refine ⟨e, rfl, ?_, ?_⟩
        · rw [hname, hblockId]
          intro v hv
          obtain ⟨nid, other, rfl, hother, hid⟩ := exists_of_directory hv
          have hmem := mem_of_get? hother
          have hid := sentName_eq hnamed hid
          obtain ⟨name, hpname⟩ : ∃ name, payload.name = some name := by
            cases hpayload : payload.name with
            | none =>
              rw [hpayload] at hnamed
              cases hnamed
            | some name => exact ⟨name, rfl⟩
          rw [hpname] at hid hfound
          rw [hs.blocks.registered.find hmem hid] at hfound
          have hsame : other.nid = payload.blockId := by simpa using hfound
          rw [← own_nid hs hother, hsame]
        · rw [directory_setItem, hname, hblockId, named_sentName hnamed]

/-! ### Requests about the system blocks -/

include hs in
theorem handleBlockDiscover_right (hop : request.opcode = .BLOCK_DISCOVER) :
    Ends (handleBlockDiscover env response) s (Right request response s) := by
  unfold handleBlockDiscover
  refine blockAt_ends (fun block hget => ?_) fun e => right_error e rfl
  refine ends_lift (fun e he => ends_pure (right_ok rfl ?_)) fun e _ => right_error e rfl
  have hlisted := block_listed hs hget he
  unfold Replied
  rw [hop]
  exact ⟨rfl, by simpa using hlisted⟩

theorem right_same (hop : request.opcode = .NONE ∨ request.opcode = .VERSION ∨
    request.opcode = .REBOOT ∨ request.opcode = .CLEAR_WIFI ∨ request.opcode = .FIRMWARE_UPDATE)
    (herrors : s'.next_error = s.next_error) (hsame : directory s'.blocks = directory s.blocks) :
    Right request response s (.ok response) s' := by
  refine right_ok herrors ?_
  unfold Replied
  rcases hop with hop | hop | hop | hop | hop <;> rw [hop] <;> exact hsame

theorem handleClearWifi_right (hop : request.opcode = .CLEAR_WIFI) :
    Ends (handleClearWifi response) s (Right request response s) := by
  unfold handleClearWifi
  refine blockAt_ends (fun block hget => ?_) fun e => right_error e rfl
  refine ends_modify (ends_pure (right_same (by simp [hop]) rfl ?_))
  exact directory_rewritten (.block hget rfl rfl rfl)

/-- The system time is a part of the data of a block. -/
theorem update_systime_right (now : Int) : Ends (update_systime now) s fun _ s' =>
    directory s'.blocks = directory s.blocks ∧ s'.next_error = s.next_error := by
  have hends := update_systime_ends (s := s) now
  unfold Ends at hends ⊢
  refine ⟨directory_rewritten hends.1, ?_⟩
  have herrors : Ends (update_systime now) s fun _ s' => s'.next_error = s.next_error := by
    unfold update_systime
    refine ends_get (blockAt_ends (fun block hget => ?_) fun _ => rfl)
    exact (rfl : s.next_error = s.next_error)
  exact herrors

theorem handleReboot_right {now : Nat → Int} (hop : request.opcode = .REBOOT) :
    Ends (handleReboot now response) s (Right request response s) := by
  refine ends_modify (ends_bind (update_systime_right (now 1)) ?_ ?_)
  · rintro _ s' ⟨hsame, herrors⟩
    exact ends_pure (right_same (by simp [hop]) herrors hsame)
  · rintro e s' ⟨-, herrors⟩
    exact right_error e herrors

theorem user_not_default {nid : Int} (h : USER_NID_START ≤ nid) :
    get? default_blocks nid = none := by
  refine get?_of_not_mem fun hmem => ?_
  have hsystem : ∀ nid ∈ default_blocks.map (·.1), nid < USER_NID_START := by decide
  exact absurd (hsystem nid hmem) (not_lt.mpr h)

/-- A request that leaves the blocks of the system. -/
theorem reset_right {now : Int} (hop : request.opcode = .CLEAR_BLOCKS ∨
    request.opcode = .FACTORY_RESET) {payloads : List EncodedPayload} :
    Ends (resetBlocks >>= fun _ => update_systime now >>= fun _ =>
      pure (answer response payloads)) s (Right request response s) := by
  refine ends_modify (ends_bind (update_systime_right now) ?_ ?_)
  · rintro _ s' ⟨hsame, herrors⟩
    refine ends_pure (right_ok herrors ?_)
    have hnone : ∀ nid, USER_NID_START ≤ nid → directory s'.blocks (some nid) = none := by
      intro nid hnid
      rw [hsame]
      exact directory_none (user_not_default hnid)
    unfold Replied
    rcases hop with hop | hop <;> rw [hop] <;> exact hnone
  · rintro e s' ⟨-, herrors⟩
    exact right_error e herrors

/-! ### All requests -/

include hs in
theorem handleOpcode_right {now : Nat → Int} (herrors : s.next_error = [])
    (hfresh : ∀ payload block, Stores env s request payload block → NewIdentity s payload) :
    Ends (handleOpcode env now request response) s (Right request response s) := by
  unfold handleOpcode
  cases hop : request.opcode
  case NONE | VERSION => exact ends_modify (ends_pure (right_same (by simp [hop]) rfl rfl))
  case BLOCK_READ | STORAGE_READ | NAME_READ => exact handleRead_right hs (by simp [hop])
  case BLOCK_READ_ALL | STORAGE_READ_ALL | NAME_READ_ALL =>
    exact handleReadAll_right hs (by simp [hop])
  case BLOCK_WRITE => exact handleBlockWrite_right hs hop
  case BLOCK_CREATE => exact handleBlockCreate_right hs hop herrors hfresh
  case BLOCK_DELETE => exact handleBlockDelete_right hop
  case BLOCK_DISCOVER => exact handleBlockDiscover_right hs hop
  case NAME_WRITE => exact handleNameWrite_right hs hop
  case REBOOT => exact handleReboot_right hop
  case CLEAR_BLOCKS =>
    unfold handleClearBlocks
    exact ends_get (ends_lift (fun payloads _ => reset_right (by simp [hop])) fun e _ =>
      right_error e rfl)
  case CLEAR_WIFI => exact handleClearWifi_right hop
  case FACTORY_RESET => exact reset_right (by simp [hop])
  case FIRMWARE_UPDATE => exact ends_pure (right_same (by simp [hop]) rfl rfl)

/-- Nothing is amiss with a request for all names, or for new blocks. -/
theorem handleOpcode_answers {now : Nat → Int} (hop : request.opcode = .NAME_READ_ALL ∨
    request.opcode = .BLOCK_DISCOVER) : Ends (handleOpcode env now request response) s fun r _ =>
      ∀ out, r = .ok out → out.error = response.error := by
  have herror : ∀ (e : Exn), ∀ out : Response, (.error e : Except Exn Response) = .ok out →
      out.error = response.error := by
    rintro e out ⟨⟩
  unfold handleOpcode
  rcases hop with hop | hop <;> rw [hop]
  · unfold handleReadAll
    refine ends_get (ends_lift (fun payloads _ => ends_pure ?_) fun e _ => herror e)
    rintro out ⟨⟩
    rfl
  · unfold handleBlockDiscover
    refine blockAt_ends (fun block _ => ?_) fun e => herror e
    refine ends_lift (fun payload _ => ends_pure ?_) fun e _ => herror e
    rintro out ⟨⟩
    rfl

/-- What holds when a command was handled. -/
structure Commanded (request : Request) (s : MockConnection) (r : Except Exn (Option Response))
    (s' : MockConnection) : Prop where
  errors : s'.next_error = s.next_error.tail
  msgId : ∀ out, r = .ok (some out) → out.msgId = request.msgId
  replied : ∀ out, r = .ok (some out) → out.error = .OK → s.next_error = [] ∧
    Replied request.opcode request.payload (directory s.blocks) out.payload (directory s'.blocks)
  refused : ∀ out, r = .ok (some out) → out.error ≠ .OK →
    directory s'.blocks = directory s.blocks
  silent : r = .ok none → s.next_error ≠ [] ∧ directory s'.blocks = directory s.blocks
  answers : request.opcode = .NAME_READ_ALL ∨ request.opcode = .BLOCK_DISCOVER →
    s.next_error = [] → ∀ out, r = .ok (some out) → out.error = .OK

/-- The response before anything is done. -/
def emptyResponse (request : Request) : Response :=
  { msgId := request.msgId, error := .OK, mode := request.mode, payload := [] }

include hs in
theorem handle_command_right {now : Nat → Int} (hinjected : some .OK ∉ s.next_error)
    (hfresh : ∀ payload block, Stores env s request payload block → NewIdentity s payload) :
    Ends (handle_command env now request) s (Commanded request s) := by
  have hrefused : ∀ r (s' : MockConnection), Handled env s request (refusedAnswer r) s'.blocks →
      ∀ out, r = .ok (some out) → out.error ≠ .OK → directory s'.blocks = directory s.blocks := by
    rintro _ s' hhandled out rfl hout
    have h : refusedAnswer (.ok (some out)) = true := decide_eq_true hout
    rw [h] at hhandled
    rw [table_of_refused hhandled]
  have hends := (handle_command_ends env s now request).1
  have hright : Ends (handle_command env now request) s fun r s' =>
      Handled env s request (refusedAnswer r) s'.blocks → Commanded request s r s' := by
    unfold handle_command
    refine ends_get ?_
    split
    case h_1 error errors herrors =>
      refine ends_modify (ends_pure fun _ => ?_)
      have hnot : ∀ out, error.map (refuse (emptyResponse request)) = some out →
          out.error ≠ .OK := by
        intro out hout
        obtain ⟨code, rfl, rfl⟩ := Option.map_eq_some_iff.mp hout
        rintro (rfl : code = .OK)
        exact hinjected (herrors ▸ List.mem_cons_self)
      refine ⟨by simp [herrors], ?_, ?_, fun _ _ _ => rfl, fun _ => ⟨by simp [herrors], rfl⟩, ?_⟩
      · rintro out hout
        obtain ⟨code, rfl, rfl⟩ := Option.map_eq_some_iff.mp (Except.ok.inj hout)
        rfl
      · exact fun out hout hok => absurd hok (hnot out (Except.ok.inj hout))
      · intro _ hnil
        rw [herrors] at hnil
        cases hnil
    case h_2 herrors =>
      have hboth : Ends (handleOpcode env now request (emptyResponse request)) s fun r s' =>
          Right request (emptyResponse request) s r s' ∧
            (request.opcode = .NAME_READ_ALL ∨ request.opcode = .BLOCK_DISCOVER →
              ∀ out, r = .ok out → out.error = .OK) :=
        ⟨handleOpcode_right hs herrors hfresh, fun hop => handleOpcode_answers hop⟩
      refine ends_bind hboth ?_ ?_
      · rintro out s' ⟨hout, hanswers⟩
        refine ends_pure fun hhandled => ⟨?_, ?_, ?_, hrefused _ _ hhandled, ?_, ?_⟩
        · rw [hout.errors, herrors]
          rfl
        · rintro _ ⟨⟩
          exact hout.msgId out rfl
        · rintro _ ⟨⟩ hok
          exact ⟨herrors, hout.replied out rfl hok⟩
        · rintro ⟨⟩
        · rintro hop - _ ⟨⟩
          exact hanswers hop out rfl
      · rintro e s' ⟨hout, -⟩ -
        refine ⟨?_, ?_, ?_, ?_, ?_, ?_⟩
        · rw [hout.errors, herrors]
          rfl
        · rintro out ⟨⟩
        · rintro out ⟨⟩
        · rintro out ⟨⟩
        · rintro ⟨⟩
        · rintro - - out ⟨⟩
  exact hright hends

theorem Commanded.congr {conn : MockConnection} {r : Except Exn (Option Response)}
    (h : Commanded request s r s') (hsame : directory s.blocks = directory conn.blocks)
    (herrors : s.next_error = conn.next_error) : Commanded request conn r s' := by
  obtain ⟨h1, h2, h3, h4, h5, h6⟩ := h
  rw [hsame, herrors] at *
  exact ⟨h1, h2, h3, h4, h5, h6⟩

end devcon_spark.connection.mock_connection
