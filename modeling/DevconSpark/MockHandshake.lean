-- The greetings of the simulation: whatever is asked of it, the service takes
-- it for a controller that fits.
import DevconSpark.Handshake
import DevconSpark.MockLaws
import DevconSpark.StatusLaws

open py_text programs devcon_spark.models devcon_spark.state_machine devcon_spark.exceptions

namespace devcon_spark.connection.mock_connection

open devcon_spark.command devcon_spark.spark_api

/-! ## The events -/

variable (env : Environment)

def welcomeValues : List String :=
  [env.fw_config.firmware_version, env.fw_config.proto_version, env.fw_config.firmware_date,
    env.fw_config.proto_date, env.system_version, env.device_id]

/-- What the simulation greets with. -/
def welcomeMessage : HandshakeMessage where
  name := "BREWBLOX".toList
  firmware_version := env.fw_config.firmware_version.toList
  proto_version := env.fw_config.proto_version.toList
  firmware_date := env.fw_config.firmware_date.toList
  proto_date := env.fw_config.proto_date.toList
  system_version := env.system_version.toList
  platform := "mock".toList
  reset_reason_hex := "00".toList
  reset_data_hex := "00".toList
  device_id := env.device_id.toList

def welcomeText : Text := '!' :: [','].intercalate (welcomeMessage env).values

/-- Whatever was told to the commander was a welcome. -/
def Greets (s : MockConnection) : Prop := ∀ event ∈ s.events, event.toList = welcomeText env

abbrev KeepsGreets {β : Type} (x : Handler β) : Prop := programs.Keeps (Greets env) x

variable {env}

theorem keeps_greets {g : MockConnection → MockConnection} (h : ∀ s, (g s).events = s.events) :
    KeepsGreets env (modify g) := by
  intro s hs event hevent
  exact hs event (h s ▸ hevent)

theorem keeps_welcome : KeepsGreets env (welcome env) := by
  intro s hs event hevent
  rcases List.mem_append.mp hevent with hbefore | hnew
  · exact hs event hbefore
  · rw [List.mem_singleton.mp hnew, String.toList_intercalate]
    rfl

theorem keeps_blockAt {β : Type} {nid : Int} {f : FirmwareBlock → Handler β}
    (h : ∀ block, KeepsGreets env (f block)) : KeepsGreets env (blockAt nid >>= f) := by
  refine keeps_bind (keeps_get fun s => ?_) h
  split
  · exact keeps_pure _
  · exact keeps_throw _

theorem keeps_storeBlock (nid : Int) (block : FirmwareBlock) :
    KeepsGreets env (storeBlock nid block) := keeps_greets fun _ => rfl

theorem keeps_answer {β : Type} (x : Except Exn β) (f : β → Response) :
    KeepsGreets env (liftExcept x >>= fun b => (pure (f b) : Handler Response)) :=
  keeps_bind (keeps_lift x) fun _ => keeps_pure _

theorem keeps_update_systime (now : Int) : KeepsGreets env (update_systime now) :=
  keeps_get fun _ => keeps_blockAt fun _ => keeps_storeBlock _ _

theorem keeps_handleRead (request : Request) (response : Response) :
    KeepsGreets env (handleRead env request response) := by
  refine keeps_bind (keeps_lift _) fun payload => keeps_get fun s => ?_
  split
  · exact keeps_pure _
  · exact keeps_answer _ _

theorem keeps_handleBlockWrite (request : Request) (response : Response) :
    KeepsGreets env (handleBlockWrite env request response) := by
  refine keeps_bind (keeps_lift _) fun payload => keeps_get fun s => ?_
  split
  · exact keeps_pure _
  · split
    · exact keeps_pure _
    · split
      · exact keeps_pure _
      · refine keeps_bind (keeps_lift _) fun src => ?_
        refine keeps_bind (keeps_storeBlock _ _) fun _ => ?_
        exact keeps_bind (keeps_lift _) fun _ => keeps_answer _ _

theorem keeps_chooseNid (nid : Int) : KeepsGreets env (chooseNid nid) := by
  unfold chooseNid
  split
  · exact keeps_pure _
  · refine keeps_get fun s => keeps_bind (keeps_greets fun _ => ?_) fun _ => keeps_pure _
    rfl

theorem keeps_handleBlockCreate (request : Request) (response : Response) :
    KeepsGreets env (handleBlockCreate env request response) := by
  refine keeps_bind (keeps_lift _) fun payload => keeps_get fun s => ?_
  split
  · exact keeps_pure _
  · split
    · exact keeps_pure _
    · split
      · exact keeps_pure _
      · refine keeps_bind (keeps_chooseNid _) fun nid => keeps_bind (keeps_lift _) fun block => ?_
        exact keeps_bind (keeps_storeBlock _ _) fun _ => keeps_answer _ _

theorem keeps_handleBlockDelete (request : Request) (response : Response) :
    KeepsGreets env (handleBlockDelete request response) := by
  refine keeps_bind (keeps_lift _) fun payload => keeps_get fun s => ?_
  split
  · exact keeps_pure _
  · split
    · exact keeps_pure _
    · exact keeps_bind (keeps_greets fun _ => rfl) fun _ => keeps_pure _

theorem keeps_handleNameWrite (request : Request) (response : Response) :
    KeepsGreets env (handleNameWrite env request response) := by
  refine keeps_bind (keeps_lift _) fun payload => keeps_get fun s => ?_
  dsimp only
  split
  · exact keeps_pure _
  · split
    · exact keeps_pure _
    · split
      · exact keeps_pure _
      · exact keeps_bind (keeps_storeBlock _ _) fun _ => keeps_answer _ _

theorem keeps_resetBlocks : KeepsGreets env resetBlocks := keeps_greets fun _ => rfl

theorem keeps_handleOpcode (now : Nat → Int) (request : Request) (response : Response) :
    KeepsGreets env (handleOpcode env now request response) := by
  unfold handleOpcode
  cases request.opcode with
  | NONE | VERSION => exact keeps_bind keeps_welcome fun _ => keeps_pure _
  | BLOCK_READ | STORAGE_READ | NAME_READ => exact keeps_handleRead request response
  | BLOCK_READ_ALL | STORAGE_READ_ALL | NAME_READ_ALL =>
    exact keeps_get fun s => keeps_answer _ _
  | BLOCK_WRITE => exact keeps_handleBlockWrite request response
  | BLOCK_CREATE => exact keeps_handleBlockCreate request response
  | BLOCK_DELETE => exact keeps_handleBlockDelete request response
  | BLOCK_DISCOVER => exact keeps_blockAt fun _ => keeps_answer _ _
  | NAME_WRITE => exact keeps_handleNameWrite request response
  | REBOOT =>
    refine keeps_bind (keeps_greets fun _ => rfl) fun _ => ?_
    exact keeps_bind (keeps_update_systime _) fun _ => keeps_pure _
  | CLEAR_BLOCKS =>
    refine keeps_get fun s => keeps_bind (keeps_lift _) fun payload => ?_
    refine keeps_bind keeps_resetBlocks fun _ => ?_
    exact keeps_bind (keeps_update_systime _) fun _ => keeps_pure _
  | CLEAR_WIFI =>
    exact keeps_blockAt fun block => keeps_bind (keeps_storeBlock _ _) fun _ => keeps_pure _
  | FACTORY_RESET =>
    refine keeps_bind keeps_resetBlocks fun _ => ?_
    exact keeps_bind (keeps_update_systime _) fun _ => keeps_pure _
  | FIRMWARE_UPDATE => exact keeps_pure _

theorem keeps_handle_command (now : Nat → Int) (request : Request) :
    KeepsGreets env (handle_command env now request) := by
  refine keeps_get fun s => ?_
  split
  · exact keeps_bind (keeps_greets fun _ => rfl) fun _ => keeps_pure _
  · exact keeps_bind (keeps_handleOpcode now request _) fun _ => keeps_pure _

theorem greets_step {s : MockConnection} (h : Greets env s) (action : Action) :
    Greets env (step env s action) := by
  cases action with
  | injected errors => exact h
  | updated now => exact keeps_update_systime now s h
  | handled now request => exact keeps_handle_command now request s h

theorem greets_run {s : MockConnection} (h : Greets env s) (actions : List Action) :
    Greets env (actions.foldl (step env) s) := by
  induction actions generalizing s with
  | nil => exact h
  | cons action actions ih => exact ih (greets_step h action)

/-! ## The service of the simulation -/

theorem reason_none : ResetReason.ofValue (upper "00".toList) = .ok .NONE := by decide +kernel

theorem data_not_specified : ResetData.ofValue (upper "00".toList) = .ok .NOT_SPECIFIED := by
  decide +kernel

theorem parse_welcomeMessage :
    (welcomeMessage env).parse_reset_enums = .ok (welcomeMessage env) := by
  unfold HandshakeMessage.parse_reset_enums
  have hreason : (welcomeMessage env).reset_reason_hex = "00".toList := rfl
  have hdata : (welcomeMessage env).reset_data_hex = "00".toList := rfl
  rw [hreason, hdata, reason_none, data_not_specified]
  rfl

theorem named_welcomeMessage : "BREWBLOX".toList <+: (welcomeMessage env).name := by
  have hname : (welcomeMessage env).name = "BREWBLOX".toList := rfl
  rw [hname]

theorem desc_welcomeMessage (env : Environment) (lower : Text → Text) :
    ((welcomeMessage env).desc lower).firmware =
      FirmwareDescription.validated
        { firmware_version := env.fw_config.firmware_version
          proto_version := env.fw_config.proto_version
          firmware_date := env.fw_config.firmware_date
          proto_date := env.fw_config.proto_date } ∧
    ((welcomeMessage env).desc lower).device =
      DeviceDescription.validated lower { device_id := env.device_id } := by
  unfold HandshakeMessage.desc welcomeMessage
  dsimp only
  simp only [String.ofList_toList, and_self]

theorem plain_welcomeMessage (hplain : ∀ value ∈ welcomeValues env, ',' ∉ value.toList) :
    ∀ value ∈ (welcomeMessage env).values, ',' ∉ value := by
  have hname : ',' ∉ "BREWBLOX".toList := by decide +kernel
  have hplatform : ',' ∉ "mock".toList := by decide +kernel
  have hhex : ',' ∉ "00".toList := by decide +kernel
  simp only [welcomeValues, List.forall_mem_cons] at hplain
  obtain ⟨hfirmware, hproto, hdate, hproto_date, hsystem, hid, -⟩ := hplain
  unfold HandshakeMessage.values welcomeMessage
  simp only [List.forall_mem_cons]
  exact ⟨hname, hfirmware, hproto, hdate, hproto_date, hsystem, hplatform, hhex, hhex, hid,
    List.forall_mem_nil _⟩

/-- What the controller says that it is. -/
def greeting (env : Environment) (hplain : ∀ value ∈ welcomeValues env, ',' ∉ value.toList) :
    Greeting where
  toHandshakeMessage := welcomeMessage env
  rest := []
  named := named_welcomeMessage
  enums := parse_welcomeMessage
  plain := by
    rw [List.append_nil]
    exact plain_welcomeMessage hplain

theorem greeting_text {hplain : ∀ value ∈ welcomeValues env, ',' ∉ value.toList} :
    (greeting env hplain).text = welcomeText env := by
  simp [Greeting.text, greeting, welcomeText]

theorem fromStart_after (config : ServiceConfig) (fw_config : FirmwareConfig) (ops : List Op) :
    FromStart config fw_config (after config fw_config ops) := by
  unfold after
  induction ops using List.reverseRecOn with
  | nil => exact ⟨rfl, rfl, rfl⟩
  | append_singleton ops op ih =>
    rw [List.foldl_append]
    exact fromStart_step ih op

/-- A controller that is what the service was started for is judged to fit. -/
theorem acknowledged_fits {config : ServiceConfig} {sm : StateMachine}
    {controller : ControllerDescription} (hsync : sm.is_synchronized ≠ true)
    (hfirmware : controller.firmware = sm.status_desc.service.firmware)
    (hdevice : controller.device = sm.status_desc.service.device) :
    (sm.set_acknowledged config controller).is_acknowledged = true ∧
      (sm.set_acknowledged config controller).check_compatible = .ok () ∧
      (sm.set_acknowledged config controller).status_desc.firmware_error = none := by
  rw [set_acknowledged_ok hsync]
  have herror : StateMachine.firmwareErrorOf config sm.status_desc.service controller = none := by
    simp [StateMachine.firmwareErrorOf, hfirmware]
  have hidentity : StateMachine.identityErrorOf sm.status_desc.service controller ≠
      some .INCOMPATIBLE := by
    unfold StateMachine.identityErrorOf
    rw [hdevice]
    split
    · rename_i h
      exact absurd (Or.inl rfl) h
    · split <;> simp
  refine ⟨rfl, ?_, herror⟩
  simp [StateMachine.check_compatible, herror, hidentity]

/-- Whatever is asked of the simulation, each event that it emits makes the service acknowledge a
controller that fits it, unless the service was synchronized before. -/
theorem simulation_fits_its_service {config : ServiceConfig}
    (hid : env.device_id = config.device_id.getD "")
    (hplain : ∀ value ∈ welcomeValues env, ',' ∉ value.toList) (start_time : Int)
    (actions : List Action) (ops : List Op)
    (hsync : (after config env.fw_config ops).is_synchronized ≠ true) :
    ∀ event ∈ (actions.foldl (step env) { start_time }).events, ∃ state,
      _on_event config (after config env.fw_config ops) event.toList = .ok state ∧
        state.is_acknowledged = true ∧ state.check_compatible = .ok () ∧
        state.status_desc.firmware_error = none := by
  intro event hevent
  have hstart : Greets env { start_time } := by
    rintro event ⟨⟩
  have htext := greets_run hstart actions event hevent
  have hservice := (fromStart_after config env.fw_config ops).service
  have hfirmware : ((greeting env hplain).desc config.lower).firmware =
      (after config env.fw_config ops).status_desc.service.firmware := by
    rw [hservice]
    exact (desc_welcomeMessage env config.lower).1
  have hdevice : ((greeting env hplain).desc config.lower).device =
      (after config env.fw_config ops).status_desc.service.device := by
    rw [hservice]
    have hcreated : (StateMachine.init config env.fw_config).status_desc.service.device =
        DeviceDescription.validated config.lower { device_id := config.device_id.getD "" } := rfl
    rw [hcreated, ← hid]
    exact (desc_welcomeMessage env config.lower).2
  have haccepted : _on_event config (after config env.fw_config ops) (welcomeText env) = .ok _ :=
    greeting_text ▸ on_event_greeting config (after config env.fw_config ops) (greeting env hplain)
  rw [htext, haccepted]
  exact ⟨_, rfl, acknowledged_fits hsync hfirmware hdevice⟩

theorem simulation_fits_after_noop :
    let config : ServiceConfig := { device_id := some variablesOnly.device_id }
    let noop : Action := .handled (fun _ => 0)
      { msgId := 1, opcode := .NONE, mode := .DEFAULT, payload := none }
    let ops := [Op.set_enabled true, .set_connected .MOCK "simulation"]
    ∀ event ∈ (step variablesOnly { start_time := 0 } noop).events, ∃ state,
      _on_event config (after config variablesOnly.fw_config ops) event.toList = .ok state ∧
        state.is_acknowledged = true ∧ state.check_compatible = .ok () ∧
        state.status_desc.firmware_error = none := by
  intro config noop ops
  exact simulation_fits_its_service rfl (by decide) 0 [noop] ops (by decide)

end devcon_spark.connection.mock_connection
