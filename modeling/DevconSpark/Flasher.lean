-- The flasher (`http_system.py`): it updates the firmware of the controller
-- while the other tasks of the service go on.
import DevconSpark.ConnectionHandler
import DevconSpark.PyText
import DevconSpark.StatusLaws

open runs py_text devcon_spark.exceptions devcon_spark.state_machine
open devcon_spark.connection.connection_handler

namespace devcon_spark.endpoints.http_system

/-! ## What is sent to the controller -/

def ESP_URL (date version : String) : String :=
  s!"http://brewblox.blob.core.windows.net/firmware/{date}-{version}/brewblox-esp32.bin"

/-- What is known of the controller when the update starts. -/
structure Target where
  device_id : String
  platform : String
  connection_kind : Option ConnectionKind
  address : Option String

/-- How the firmware gets to a controller. -/
inductive Delivery
  | post (url content : String)
  | publish (topic payload : String)
  | ymodem (address filename : String)

/-- What `None` is printed as. -/
def printed (address : Option String) : String := address.getD "None"

/-- `host, _ = address.split(':')`, or the exception that this raises. -/
def hostOf : Option String → Except String Text
  | none => .error "AttributeError('NoneType' object has no attribute 'split')"
  | some address =>
    match address.toList.splitOn ':' with
    | [host, _] => .ok host
    | [_] => .error "ValueError(not enough values to unpack (expected 2, got 1))"
    | _ => .error "ValueError(too many values to unpack (expected 2))"

def prompted (recipient : String) : List String :=
  [s!"Sending update prompt to {recipient}",
    "The Spark will now download and apply the new firmware",
    "The update is done when the service reconnects"]

/-- What is notified, and what is done, for a controller of some platform. -/
def Target.delivery (target : Target) (fw_url : String) :
    Except String (List String × Option Delivery) :=
  if target.platform = "esp32" then
    match target.connection_kind with
    | some .TCP => (hostOf target.address).map fun host =>
      let host := String.ofList host
      (prompted host, some (.post s!"http://{host}:80/firmware_update" fw_url))
    | some .MQTT =>
      let topic := s!"brewcast/cbox/fw/{printed target.address}"
      .ok (prompted topic, some (.publish topic fw_url))
    | _ => .ok ([], none)
  else if target.platform = "photon" ∨ target.platform = "p1" then
    .ok ([s!"Connecting to {printed target.address}"],
      some (.ymodem (printed target.address) s!"firmware/brewblox-{target.platform}.bin"))
  else .ok ([], none)

/-! ## The flasher -/

structure FirmwareFlashResponse where
  address : String
  version : String

inductive Outcome
  | returned (response : FirmwareFlashResponse)
  /-- `FirmwareUpdateFailed` -/
  | failed (msg : String)
  | raised (ex : Exn)

/-- What the flasher waits for. -/
inductive Stage
  | wait_empty | firmware_update
  /-- Once it is woken, it does not matter whether the event is cleared again. -/
  | wait_disconnected (woken : Bool)
  | transfer
  | ended (outcome : Outcome)

/-- A flasher, with the connection handler that it shares with the other tasks. -/
structure Flasher where
  handler : ConnectionHandler
  target : Target
  stage : Stage
  notified : List String
  deliveries : List Delivery := []
  background_tasks : List String := []

/-- An update that is refused before anything is done. -/
structure Refusal where
  notified : List String
  ex : Exn

variable (config : Config) (fw_config : FirmwareConfig)

/-- `run`, up to the first wait. -/
def start (handler : ConnectionHandler) : Except Refusal Flasher :=
  let desc := handler.state.status_desc
  match desc.controller with
  | none => .error
    { notified := []
      ex := { kind := .AttributeError, msg := "'NoneType' object has no attribute 'device'" } }
  | some controller =>
    let target : Target :=
      { device_id := controller.device.device_id
        platform := controller.platform
        connection_kind := desc.connection_kind
        address := desc.address }
    if ¬ handler.state.is_acknowledged then
      .error { notified := ["Controller is not connected. Aborting update."]
               ex := { kind := .NotConnected } }
    else if desc.connection_kind = some .MOCK ∨ desc.connection_kind = some .SIM then
      .error { notified := ["Firmware updates not available for simulation controllers."]
               ex := { kind := .IncompatibleFirmware } }
    else
      let version := s!"{fw_config.firmware_version} ({fw_config.firmware_date})"
      .ok {
        handler := { handler with state := handler.state.set_updating }
        target
        stage := .wait_empty
        notified :=
          [s!"Started updating {target.device_id}@{printed target.address} to version {version}",
            "Preparing update", "Waiting for in-progress commands to finish"] }

namespace Flasher

variable (self : Flasher)

/-- The `finally` of `run`. -/
def finally_ (notified : List String) (outcome : Outcome) : Flasher :=
  { self with
    stage := .ended outcome
    notified := self.notified ++ notified ++ ["Restarting service..."]
    background_tasks := self.background_tasks ++ ["Firmware flash"] }

/-- A step of the update raises what is formatted as `reason`. -/
def fail (reason : String) : Flasher :=
  self.finally_ [s!"Failed to update firmware: {reason}"] (.failed reason)

/-- The model of the response does not take an address that is missing. -/
def finish (notified : List String) : Flasher :=
  self.finally_ notified (match self.target.address with
    | some address => .returned { address, version := fw_config.firmware_version }
    | none => .raised
      { kind := .ValueError, msg := "1 validation error for FirmwareFlashResponse" })

/-- The handler takes a step, which may wake the flasher. -/
def withHandler (handler : ConnectionHandler) : Flasher :=
  { self with
    handler
    stage := match self.stage with
      | .wait_disconnected woken => .wait_disconnected (woken || handler.state.is_disconnected)
      | stage => stage }

/-- The connection is closed, as far as the flasher can tell. -/
def deliver : Flasher :=
  match self.target.delivery (ESP_URL fw_config.firmware_date fw_config.firmware_version) with
  | .error reason => self.fail reason
  | .ok (notified, none) => self.finish fw_config notified
  -- What is published is not waited for
  | .ok (notified, some (.publish topic payload)) =>
    let published := { self with deliveries := self.deliveries ++ [Delivery.publish topic payload] }
    published.finish fw_config notified
  | .ok (notified, some delivery) =>
    { self with
      stage := .transfer
      notified := self.notified ++ notified
      deliveries := self.deliveries ++ [delivery] }

end Flasher

/-! ## Steps -/

inductive FlashAction
  /-- The handler, or another task, takes a step. -/
  | other (action : Action)
  /-- A wait is over, or raised what is formatted so. -/
  | emptied (result : Except String Unit)
  | updated (result : Except String Unit)
  | disconnected (result : Except String Unit)
  | transferred (result : Except String Unit)

/-- How a wait of the flasher ended. -/
def FlashAction.result? : FlashAction → Option (Except String Unit)
  | .other _ => none
  | .emptied result | .updated result | .disconnected result | .transferred result => some result

/-- Only the flasher marks the update, and only it ends the handler. Handshakes come from an open
connection. -/
def Others (handler : ConnectionHandler) : Action → Bool
  | .end_ | .operated .set_updating => false
  | .operated (.set_acknowledged _) => handler.state.is_connected
  | _ => true

def flash (self : Flasher) : FlashAction → Option Flasher
  | .other action =>
    if Others self.handler action then (step config self.handler action).map self.withHandler
    else none
  | .emptied result =>
    match self.stage, result with
    | .wait_empty, .ok () => some { self with
        stage := .firmware_update
        notified := self.notified ++ ["Sending update command to controller"] }
    | .wait_empty, .error reason => some (self.fail reason)
    | _, _ => none
  | .updated result =>
    match self.stage, result with
    | .firmware_update, .ok () => (step config self.handler .end_).map fun handler => { self with
        handler
        stage := .wait_disconnected handler.state.is_disconnected
        notified := self.notified ++ ["Waiting for normal connection to close"] }
    | .firmware_update, .error reason => some (self.fail reason)
    | _, _ => none
  | .disconnected result =>
    match self.stage, result with
    | .wait_disconnected true, .ok () => some (self.deliver fw_config)
    | .wait_disconnected _, .error reason => some (self.fail reason)
    | _, _ => none
  | .transferred result =>
    match self.stage, result with
    | .transfer, .ok () =>
      some (self.finish fw_config (if self.target.platform = "esp32" then [] else ["Update done!"]))
    | .transfer, .error reason => some (self.fail reason)
    | _, _ => none

/-! ## The handler of a service that runs -/

variable {config : Config} {fw_config : FirmwareConfig} {self next : ConnectionHandler}
  {action : Action}

/-- What holds of the state in each run of a service. -/
structure Phased (config : ServiceConfig) (sm : StateMachine) : Prop where
  nested : Nested config sm
  linked : Linked sm
  addressed : sm.is_connected = true → sm.status_desc.address.isSome
  /-- A controller is only described while it is acknowledged. -/
  blank : sm.is_acknowledged = false → sm.status_desc.controller = none

/-- A connection follows a disconnect, and handshakes and updates need a connection. -/
def Orderly (sm : StateMachine) : Op → Prop
  | .set_connected _ _ => sm.is_connected = false
  | .set_acknowledged _ | .set_updating => sm.is_connected = true
  | .set_enabled _ | .set_synchronized | .set_disconnected => True

theorem phased_apply {config : ServiceConfig} {sm : StateMachine} {op : Op} (h : Phased config sm)
    (hop : Orderly sm op) : Phased config (sm.apply config op) := by
  have hnested := nested_step h.nested op
  cases op with
  | set_enabled enabled =>
    exact ⟨hnested, linked_step h.linked trivial, h.addressed, h.blank⟩
  | set_connected connection_kind address =>
    refine ⟨hnested, linked_step h.linked trivial, fun _ => rfl, fun _ => h.blank ?_⟩
    by_contra hack
    have hconnected := h.linked.acknowledged (by simpa using hack)
    exact absurd (hconnected.symm.trans hop) (by decide)
  | set_acknowledged controller =>
    have hlinked : Linked (sm.apply config (.set_acknowledged controller)) :=
      linked_step h.linked hop
    by_cases hsync : sm.is_synchronized = true
    · rw [StateMachine.apply, set_acknowledged_synchronized hsync]
      exact h
    · rw [StateMachine.apply, set_acknowledged_ok hsync] at hnested hlinked ⊢
      exact ⟨hnested, hlinked, h.addressed, fun hack => by cases hack⟩
  | set_synchronized =>
    by_cases hack : sm.is_acknowledged = true
    · have hlinked : Linked (sm.apply config .set_synchronized) :=
        linked_step h.linked (h.linked.acknowledged hack)
      rw [set_synchronized_ok hack] at hnested hlinked ⊢
      exact ⟨hnested, hlinked, h.addressed, h.blank⟩
    · rw [set_synchronized_raises hack]
      exact h
  | set_updating => exact ⟨hnested, linked_step h.linked hop, h.addressed, h.blank⟩
  | set_disconnected =>
    exact ⟨hnested, linked_step h.linked trivial, fun h => absurd h Bool.false_ne_true,
      fun _ => rfl⟩

structure Sound (config : Config) (handler : ConnectionHandler) : Prop where
  shown : Shown handler
  phased : Phased config.service handler.state

theorem sound_init (fw_config : FirmwareConfig) :
    Sound config (ConnectionHandler.init config (StateMachine.init config.service fw_config)) where
  shown := shown_init fw_config
  phased :=
    { nested := nested_init config.service fw_config
      linked := ⟨rfl, fun h => h, fun h => absurd h Bool.false_ne_true,
        fun h => absurd h Bool.false_ne_true⟩
      addressed := fun h => absurd h Bool.false_ne_true
      blank := fun _ => rfl }

theorem sound_step (h : Sound config self) (hothers : Others self action = true)
    (hstep : step config self action = some next) : Sound config next := by
  refine ⟨shown_step h.shown hstep, ?_⟩
  have hstate := stateStep_of_some hstep
  generalize next.state = state at hstate
  cases hstate with
  | same => exact h.phased
  | @connected a impl hat =>
    have hshown := h.shown
    unfold Shown at hshown
    rw [hat] at hshown
    have hconnected : Phased config.service
        (self.state.apply config.service (.set_connected impl.kind impl.address)) :=
      phased_apply h.phased hshown.2.connected
    exact hconnected
  | disconnected =>
    have hdisconnected : Phased config.service
        (self.state.apply config.service .set_disconnected) := phased_apply h.phased trivial
    exact hdisconnected
  | @operated op hop =>
    refine phased_apply h.phased ?_
    cases op with
    | set_enabled enabled => trivial
    | set_connected kind address => cases hop
    | set_acknowledged controller => exact hothers
    | set_synchronized => trivial
    | set_updating => cases hothers
    | set_disconnected => trivial

/-- The handler in some run of the service, before any update. -/
def Reached (config : Config) (fw_config : FirmwareConfig) (handler : ConnectionHandler) : Prop :=
  ∃ actions, run (step config)
      (ConnectionHandler.init config (StateMachine.init config.service fw_config)) actions =
      some handler ∧
    Along (step config) (fun handler action => Others handler action = true)
      (ConnectionHandler.init config (StateMachine.init config.service fw_config)) actions

theorem sound_of_reached {handler : ConnectionHandler} (h : Reached config fw_config handler) :
    Sound config handler := by
  obtain ⟨actions, hrun, hothers⟩ := h
  exact along_invariant (fun _ _ _ => sound_step) (sound_init fw_config) hothers hrun

/-! ## The end of the connection -/

/-- There is no connection, and there will be no other one. -/
structure Gone (handler : ConnectionHandler) : Prop where
  enabled : handler._enabled = false
  impl : handler._impl = none
  await : handler.await = .sleep ∨ handler.await = .ended

theorem gone_step (h : Gone self) (hstep : step config self action = some next) : Gone next := by
  obtain ⟨henabled, himpl, hawait⟩ := h
  cases step_of_some hstep with
  | enabled hat | found hat | failed hat | opened hat | lost hat | closed hat =>
    rw [hat] at hawait
    simp at hawait
  | slept hat => exact ⟨henabled, himpl, by simp [henabled]⟩
  | cancelled =>
    rw [finally_of_none true himpl]
    exact ⟨henabled, rfl, .inr rfl⟩
  | torn => exact ⟨henabled, himpl, .inr rfl⟩
  | transport => exact ⟨henabled, by simp [himpl], hawait⟩
  | operated =>
    refine ⟨henabled, himpl, ?_⟩
    rcases hawait with hat | hat <;> simp [hat, wake]
  | end_ => exact ⟨rfl, himpl, hawait⟩

theorem gone_finished (handler : ConnectionHandler) (cancelled : Bool)
    (h : handler._enabled = false) : Gone (handler.finished cancelled) := by
  refine ⟨h, rfl, ?_⟩
  cases cancelled
  · exact .inl rfl
  · exact .inr rfl

theorem gone_finally (handler : ConnectionHandler) (cancelled : Bool)
    (h : handler._enabled = false) (hupdating : handler.state.is_updating = true) :
    (handler.finally_ cancelled).state.is_updating = true ∨ Gone (handler.finally_ cancelled) := by
  cases himpl : handler._impl with
  | none =>
    rw [finally_of_none cancelled himpl]
    exact .inr (gone_finished handler cancelled h)
  | some impl =>
    rw [finally_of_some cancelled himpl]
    exact .inl hupdating

theorem updating_apply {config : ServiceConfig} {sm : StateMachine} {op : Op}
    (hop : Foreign op = true) (h : sm.is_updating = true) :
    (sm.apply config op).is_updating = true := by
  cases op with
  | set_enabled enabled => exact h
  | set_connected connection_kind address => cases hop
  | set_acknowledged controller =>
    by_cases hsync : sm.is_synchronized = true
    · rw [StateMachine.apply, set_acknowledged_synchronized hsync]
      exact h
    · rw [StateMachine.apply, set_acknowledged_ok hsync]
      exact h
  | set_synchronized =>
    by_cases hack : sm.is_acknowledged = true
    · rw [set_synchronized_ok hack]
      exact h
    · rw [set_synchronized_raises hack]
      exact h
  | set_updating => rfl
  | set_disconnected => cases hop

/-- A handler that will not connect again is marked as updating until its connection is gone. -/
theorem updating_step (henabled : self._enabled = false) (h : self.state.is_updating = true)
    (hstep : step config self action = some next) :
    next._enabled = false ∧ (next.state.is_updating = true ∨ Gone next) := by
  have hkept := (remaining_step henabled hstep).1
  refine ⟨hkept, ?_⟩
  cases step_of_some hstep with
  | enabled | found | opened | slept | torn | transport | end_ => exact .inl h
  | failed hat hconnect =>
    exact gone_finally _ _ (by rw [handled_enabled, henabled]) (by rw [handled_state]; exact h)
  | lost hat =>
    exact gone_finally _ _ (by rw [handled_enabled, henabled]) (by rw [handled_state]; exact h)
  | closed hat => exact .inr (gone_finished self _ henabled)
  | cancelled => exact gone_finally self true henabled h
  | operated hop => exact .inl (updating_apply hop h)

theorem gone_sends_nothing (h : Gone self) :
    self.send_request = .error { kind := .NotConnected } := by
  unfold ConnectionHandler.send_request
  rw [h.impl]

/-! ## The update and the other tasks -/

variable {flasher later : Flasher} {act : FlashAction}

/-- Only a flasher whose connection is gone gets past the wait for that. -/
structure Secured (config : Config) (flasher : Flasher) : Prop where
  sound : Sound config flasher.handler
  enabled : flasher.handler._enabled = false
  past : flasher.stage ≠ .wait_empty ∧ flasher.stage ≠ .firmware_update
  alone : Gone flasher.handler ∨
    flasher.handler.state.is_updating = true ∧ flasher.deliveries = [] ∧
      (flasher.stage = .wait_disconnected false ∨ ∃ outcome, flasher.stage = .ended outcome)

/-- Before that, nothing is sent. -/
structure Underway (config : Config) (flasher : Flasher) : Prop where
  sound : Sound config flasher.handler
  deliveries : flasher.stage = .wait_empty ∨ flasher.stage = .firmware_update →
    flasher.deliveries = []

/-- What a step does, where it is possible. -/
inductive FlashStep (config : Config) (fw_config : FirmwareConfig) (self : Flasher) :
    FlashAction → Flasher → Prop
  | other {action : Action} {handler : ConnectionHandler}
      (hothers : Others self.handler action = true)
      (h : step config self.handler action = some handler) :
      FlashStep config fw_config self (.other action) (self.withHandler handler)
  | emptied (hat : self.stage = .wait_empty) :
      FlashStep config fw_config self (.emptied (.ok ())) { self with
        stage := .firmware_update
        notified := self.notified ++ ["Sending update command to controller"] }
  | updated (hat : self.stage = .firmware_update) :
      FlashStep config fw_config self (.updated (.ok ())) { self with
        handler := { self.handler with _enabled := false }
        stage := .wait_disconnected self.handler.state.is_disconnected
        notified := self.notified ++ ["Waiting for normal connection to close"] }
  | disconnected (hat : self.stage = .wait_disconnected true) :
      FlashStep config fw_config self (.disconnected (.ok ())) (self.deliver fw_config)
  | transferred {notified : List String} (hat : self.stage = .transfer) :
      FlashStep config fw_config self (.transferred (.ok ())) (self.finish fw_config notified)
  | failed {a : FlashAction} {reason : String} (ha : a.result? = some (.error reason))
      (hat : ∀ outcome, self.stage ≠ .ended outcome) :
      FlashStep config fw_config self a (self.fail reason)

theorem flashStep_of_some (h : flash config fw_config flasher act = some later) :
    FlashStep config fw_config flasher act later := by
  cases act with
  | other action =>
    obtain ⟨hothers, h⟩ := Option.ite_none_right_eq_some.mp h
    obtain ⟨handler, hhandler, rfl⟩ := Option.map_eq_some_iff.mp h
    exact .other hothers hhandler
  | emptied result | updated result | disconnected result | transferred result =>
    dsimp only [flash] at h
    split at h
    · rename_i hat
      cases h
      first
        | exact .emptied hat
        | exact .updated hat
        | exact .disconnected hat
        | exact .transferred hat
    · rename_i hat
      cases h
      exact .failed rfl fun outcome hended => by cases hat.symm.trans hended
    · cases h

/-- An update needs a connection. -/
theorem connected_of_updating {sm : StateMachine} (h : Linked sm)
    (hupdating : sm.is_updating = true) : sm.is_disconnected = false := by
  have hconnected := h.updating hupdating
  rw [h.connected] at hconnected
  simpa using hconnected

theorem deliver_handler (flasher : Flasher) :
    (flasher.deliver fw_config).handler = flasher.handler := by
  unfold Flasher.deliver
  split <;> rfl

theorem deliver_stage (flasher : Flasher) : (flasher.deliver fw_config).stage = .transfer ∨
    ∃ outcome, (flasher.deliver fw_config).stage = .ended outcome := by
  unfold Flasher.deliver
  split
  case h_4 => exact .inl rfl
  all_goals exact .inr ⟨_, rfl⟩

theorem secured_step (h : Secured config flasher)
    (hstep : flash config fw_config flasher act = some later) : Secured config later := by
  obtain ⟨hsound, henabled, ⟨hempty, hupdate⟩, halone⟩ := h
  cases flashStep_of_some hstep with
  | @other action handler hothers hhandler =>
    have hsound' := sound_step hsound hothers hhandler
    refine ⟨hsound', (remaining_step henabled hhandler).1, ?_, ?_⟩
    · unfold Flasher.withHandler
      cases hat : flasher.stage <;> simp_all
    rcases halone with hgone | ⟨hupdating, hnone, hstage⟩
    · exact .inl (gone_step hgone hhandler)
    · obtain ⟨-, hupdating' | hgone⟩ := updating_step henabled hupdating hhandler
      · refine .inr ⟨hupdating', hnone, ?_⟩
        have hdisconnected := connected_of_updating hsound'.phased.linked hupdating'
        rcases hstage with hstage | ⟨outcome, hstage⟩
        · left
          simp [Flasher.withHandler, hstage, hdisconnected]
        · right
          exact ⟨outcome, by simp [Flasher.withHandler, hstage]⟩
      · exact .inl hgone
  | emptied hat => exact absurd hat hempty
  | updated hat => exact absurd hat hupdate
  | disconnected hat =>
    rw [hat] at halone
    have hgone : Gone flasher.handler := by simpa using halone
    rw [← @deliver_handler fw_config flasher] at hsound henabled hgone
    refine ⟨hsound, henabled, ?_, .inl hgone⟩
    rcases @deliver_stage fw_config flasher with hstage | ⟨outcome, hstage⟩ <;> simp [hstage]
  | transferred hat =>
    rw [hat] at halone
    have hgone : Gone flasher.handler := by simpa using halone
    exact ⟨hsound, henabled, ⟨nofun, nofun⟩, .inl hgone⟩
  | failed herror hat =>
    refine ⟨hsound, henabled, ⟨nofun, nofun⟩, ?_⟩
    rcases halone with hgone | ⟨hupdating, hnone, -⟩
    · exact .inl hgone
    · exact .inr ⟨hupdating, hnone, .inr ⟨_, rfl⟩⟩

theorem sound_end (h : Sound config self) : Sound config { self with _enabled := false } := by
  have hend : step config self .end_ = some { self with _enabled := false } := rfl
  exact ⟨shown_step h.shown hend, h.phased⟩

theorem underway_step (h : Underway config flasher)
    (hstep : flash config fw_config flasher act = some later) : Underway config later := by
  cases flashStep_of_some hstep with
  | other hothers hhandler =>
    refine ⟨sound_step h.sound hothers hhandler, fun hstage => h.deliveries ?_⟩
    unfold Flasher.withHandler at hstage
    cases hat : flasher.stage <;> simp_all
  | emptied hat => exact ⟨h.sound, fun _ => h.deliveries (.inl hat)⟩
  | updated hat => exact ⟨sound_end h.sound, by simp⟩
  | disconnected hat =>
    refine ⟨by rw [deliver_handler]; exact h.sound, fun hstage => ?_⟩
    rcases @deliver_stage fw_config flasher with hdone | ⟨outcome, hdone⟩ <;>
      simp [hdone] at hstage
  | transferred hat => exact ⟨h.sound, by simp [Flasher.finish, Flasher.finally_]⟩
  | failed herror hat => exact ⟨h.sound, by simp [Flasher.fail, Flasher.finally_]⟩

/-- The controller is accepted for an update that the service is still marked for. -/
theorem secured_of_updated (h : Underway config flasher)
    (hupdating : flasher.handler.state.is_updating = true)
    (hstep : flash config fw_config flasher (.updated (.ok ())) = some later) :
    Secured config later := by
  cases flashStep_of_some hstep with
  | updated hat =>
    have hdisconnected := connected_of_updating h.sound.phased.linked hupdating
    exact ⟨sound_end h.sound, rfl, ⟨nofun, nofun⟩,
      .inr ⟨hupdating, h.deliveries (.inr hat), .inl (by rw [hdisconnected])⟩⟩
  | failed herror hat => cases herror

/-- An update that is started, or refused without anything done. -/
inductive Starts (config : Config) (handler : ConnectionHandler) : Except Refusal Flasher → Prop
  | unacknowledged (hack : handler.state.is_acknowledged = false) :
      Starts config handler (.error
        { notified := []
          ex := { kind := .AttributeError, msg := "'NoneType' object has no attribute 'device'" } })
  | simulation (hack : handler.state.is_acknowledged = true)
      (hkind : handler.state.status_desc.connection_kind = some .MOCK ∨
        handler.state.status_desc.connection_kind = some .SIM) :
      Starts config handler (.error
        { notified := ["Firmware updates not available for simulation controllers."]
          ex := { kind := .IncompatibleFirmware } })
  | started {flasher : Flasher} (hack : handler.state.is_acknowledged = true)
      (hhandler : flasher.handler = { handler with state := handler.state.set_updating })
      (hstage : flasher.stage = .wait_empty) (hdeliveries : flasher.deliveries = [])
      (htasks : flasher.background_tasks = []) (haddress : flasher.target.address.isSome) :
      Starts config handler (.ok flasher)

theorem start_cases {handler : ConnectionHandler} (h : Sound config handler) :
    Starts config handler (start fw_config handler) := by
  unfold start
  dsimp only
  cases hcontroller : handler.state.status_desc.controller with
  | none =>
    refine .unacknowledged ?_
    by_contra hack
    obtain ⟨controller, hsome, -⟩ := h.phased.nested.acknowledged (by simpa using hack)
    cases hcontroller.symm.trans hsome
  | some controller =>
    have hack : handler.state.is_acknowledged = true := by
      by_contra hack
      cases hcontroller.symm.trans (h.phased.blank (by simpa using hack))
    dsimp only
    rw [if_neg (not_not_intro hack)]
    split
    · rename_i hkind
      exact .simulation hack hkind
    · have haddress := h.phased.addressed (h.phased.linked.acknowledged hack)
      exact .started hack rfl rfl rfl rfl haddress

theorem sound_updating (h : Sound config self) (hack : self.state.is_acknowledged = true) :
    Sound config { self with state := self.state.set_updating } := by
  have hstep : step config self (.operated .set_updating) = some { self with
      state := self.state.set_updating
      await := wake .set_updating self.await } := rfl
  have hwake : wake .set_updating self.await = self.await := by
    cases self.await <;> simp [wake]
  have hshown := shown_step h.shown hstep
  have hphased : Phased config.service (self.state.apply config.service .set_updating) :=
    phased_apply h.phased (h.phased.linked.acknowledged hack)
  rw [hwake] at hshown
  exact ⟨hshown, hphased⟩

theorem underway_start {handler : ConnectionHandler} (h : Sound config handler)
    (hstart : start fw_config handler = .ok flasher) : Underway config flasher := by
  have hcases := @start_cases config fw_config handler h
  rw [hstart] at hcases
  cases hcases with
  | started hack hhandler hstage hdeliveries htasks haddress =>
    refine ⟨?_, fun _ => hdeliveries⟩
    rw [hhandler]
    exact sound_updating h hack

/-- If the service is still marked for the update when the controller accepts it, then from there
on nothing else gets to the controller: the gate is closed, or there is no connection to send
anything. Firmware is only delivered where there is none, and there will be none. -/
theorem firmware_is_delivered_alone {handler : ConnectionHandler}
    (hreached : Reached config fw_config handler)
    (hstart : start fw_config handler = .ok flasher) {before after : List FlashAction}
    {accepted last : Flasher}
    (hbefore : run (flash config fw_config) flasher before = some accepted)
    (hupdating : accepted.handler.state.is_updating = true)
    (hafter : run (flash config fw_config) accepted (.updated (.ok ()) :: after) = some last) :
    (last.handler.state.is_updating = true ∨
      last.handler.send_request = .error { kind := .NotConnected }) ∧
    (last.deliveries ≠ [] → last.handler.send_request = .error { kind := .NotConnected }) := by
  have hstarted := underway_start (sound_of_reached hreached) hstart
  have hunderway := invariant (fun _ _ _ => underway_step) hstarted hbefore
  obtain ⟨mid, hupdated, hrest⟩ := run_cons_some hafter
  have hsecured := invariant (fun _ _ _ => secured_step)
    (secured_of_updated hunderway hupdating hupdated) hrest
  rcases hsecured.alone with hgone | ⟨hstill, hnone, -⟩
  · exact ⟨.inr (gone_sends_nothing hgone), fun _ => gone_sends_nothing hgone⟩
  · exact ⟨.inl hstill, fun h => absurd hnone h⟩

/-- A controller that is found by its host. -/
def hosted : Config := { defaults with service := { device_host := some "spark" } }

def reachable : Network :=
  { silent with connect_tcp := fun _ => .ok { kind := .TCP, address := "spark:8332" } }

def serving : List Action :=
  [.operated (.set_enabled true), .enabled, .connected_to reachable, .transport true false, .opened,
    .operated (.set_acknowledged someController), .operated .set_synchronized]

theorem hosted_update_is_alone : ∃ handler flasher accepted last,
    Reached hosted someFirmwareConfig handler ∧
    start someFirmwareConfig handler = .ok flasher ∧
    run (flash hosted someFirmwareConfig) flasher [.emptied (.ok ())] = some accepted ∧
    run (flash hosted someFirmwareConfig) accepted (.updated (.ok ()) ::
      [.other (.transport false true), .other .lost, .other .closed, .disconnected (.ok ()),
        .other .slept]) = some last ∧
    last.handler.send_request = .error { kind := .NotConnected } := by
  have hreached : Reached hosted someFirmwareConfig _ := ⟨serving, rfl, by decide⟩
  have halone : ∀ flasher accepted last, start someFirmwareConfig _ = .ok flasher →
      run (flash hosted someFirmwareConfig) flasher [.emptied (.ok ())] = some accepted →
      run (flash hosted someFirmwareConfig) accepted (.updated (.ok ()) ::
        [.other (.transport false true), .other .lost, .other .closed, .disconnected (.ok ()),
          .other .slept]) = some last →
      accepted.handler.state.is_updating = true → last.deliveries ≠ [] →
      last.handler.send_request = .error { kind := .NotConnected } :=
    fun flasher accepted last hstart hbefore hafter hupdating =>
      (firmware_is_delivered_alone hreached hstart hbefore hupdating hafter).2
  exact ⟨_, _, _, _, hreached, rfl, rfl, rfl, halone _ _ _ rfl rfl rfl rfl (List.cons_ne_nil _ _)⟩

/-! ## The end of an update -/

/-- The service restarts once the flasher has ended, and not before. -/
structure Restarts (fw_config : FirmwareConfig) (flasher : Flasher) : Prop where
  address : flasher.target.address.isSome
  waiting : (∀ outcome, flasher.stage ≠ .ended outcome) → flasher.background_tasks = []
  restarted : ∀ outcome, flasher.stage = .ended outcome →
    flasher.background_tasks = ["Firmware flash"] ∧
      flasher.notified.getLast? = some "Restarting service..."
  outcome : ∀ outcome, flasher.stage = .ended outcome →
    (∃ address, flasher.target.address = some address ∧
      outcome = .returned { address, version := fw_config.firmware_version }) ∨
    ∃ reason, outcome = .failed reason ∧
      s!"Failed to update firmware: {reason}" ∈ flasher.notified

theorem restarts_fail (h : Restarts fw_config flasher)
    (hat : ∀ outcome, flasher.stage ≠ .ended outcome) (reason : String) :
    Restarts fw_config (flasher.fail reason) where
  address := h.address
  waiting hnot := absurd rfl (hnot _)
  restarted outcome hended := by simp [Flasher.fail, Flasher.finally_, h.waiting hat]
  outcome outcome hended := by
    cases hended
    exact .inr ⟨reason, rfl, by simp [Flasher.fail, Flasher.finally_]⟩

theorem restarts_finish (h : Restarts fw_config flasher)
    (hat : ∀ outcome, flasher.stage ≠ .ended outcome) (notified : List String) :
    Restarts fw_config (flasher.finish fw_config notified) where
  address := h.address
  waiting hnot := absurd rfl (hnot _)
  restarted outcome hended := by simp [Flasher.finish, Flasher.finally_, h.waiting hat]
  outcome outcome hended := by
    obtain ⟨address, haddress⟩ := Option.isSome_iff_exists.mp h.address
    cases hended
    exact .inl ⟨address, haddress, by rw [haddress]⟩

theorem restarts_deliver (h : Restarts fw_config flasher)
    (hat : ∀ outcome, flasher.stage ≠ .ended outcome) :
    Restarts fw_config (flasher.deliver fw_config) := by
  unfold Flasher.deliver
  split
  · exact restarts_fail h hat _
  · exact restarts_finish h hat _
  · rename_i notified topic payload hdelivery
    have hpublished : Restarts fw_config { flasher with
        deliveries := flasher.deliveries ++ [Delivery.publish topic payload] } :=
      ⟨h.address, h.waiting, h.restarted, h.outcome⟩
    exact restarts_finish hpublished hat notified
  · exact ⟨h.address, fun _ => h.waiting hat, nofun, nofun⟩

theorem restarts_other (h : Restarts fw_config flasher) (handler : ConnectionHandler) :
    Restarts fw_config (flasher.withHandler handler) := by
  have hended : ∀ outcome, (flasher.withHandler handler).stage = .ended outcome ↔
      flasher.stage = .ended outcome := by
    intro outcome
    unfold Flasher.withHandler
    cases flasher.stage <;> simp
  exact {
    address := h.address
    waiting := fun hnot =>
      h.waiting fun outcome hstage => hnot outcome ((hended outcome).mpr hstage)
    restarted := fun outcome hstage => h.restarted outcome ((hended outcome).mp hstage)
    outcome := fun outcome hstage => h.outcome outcome ((hended outcome).mp hstage) }

theorem restarts_step (h : Restarts fw_config flasher)
    (hstep : flash config fw_config flasher act = some later) : Restarts fw_config later := by
  cases flashStep_of_some hstep with
  | other hothers hhandler => exact restarts_other h _
  | emptied hat => exact ⟨h.address, fun _ => h.waiting (by simp [hat]), nofun, nofun⟩
  | updated hat => exact ⟨h.address, fun _ => h.waiting (by simp [hat]), nofun, nofun⟩
  | disconnected hat => exact restarts_deliver h (by simp [hat])
  | transferred hat => exact restarts_finish h (by simp [hat]) _
  | failed herror hat => exact restarts_fail h hat _

end devcon_spark.endpoints.http_system
