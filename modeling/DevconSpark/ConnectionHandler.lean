-- The handler of connections: it connects, waits for the connection to be
-- lost, and tries again, while other tasks use the connection.
import DevconSpark.Backoff
import DevconSpark.PyNumber
import DevconSpark.StatusLaws
import Mathlib.Data.Rat.Floor

open runs backoff py_number devcon_spark.exceptions devcon_spark.state_machine

namespace devcon_spark.connection.connection_handler

/-! ## Intervals -/

/-- Intervals are in microseconds. -/
structure Config where
  service : ServiceConfig
  connect_interval : Int
  connect_interval_max : Int
  connect_backoff : ℚ

variable (config : Config)

/-- `value * config.connect_backoff` -/
def backedOff (value : Int) : Int := roundHalfEven (value * config.connect_backoff)

/-- No time at all is as false as `None`. -/
def calc_interval (value : Option Int) : Int :=
  match value with
  | none => config.connect_interval
  | some value =>
    if value = 0 then config.connect_interval
    else min (backedOff config value) config.connect_interval_max

/-! ## The connections -/

structure ConnectionImpl where
  kind : ConnectionKind
  address : String
  /-- Whether the events are set. -/
  connected : Bool := false
  disconnected : Bool := false
  deriving DecidableEq

/-- A way to find a connection. -/
inductive Source
  | usb | mdns | mqtt
  deriving DecidableEq

def Source.usedBy : Source → DiscoveryType → Bool
  | .usb, discovery_type => discovery_type = .all || discovery_type = .usb
  | .mdns, discovery_type => discovery_type = .all || discovery_type = .mdns
  | .mqtt, discovery_type => discovery_type = .all || discovery_type = .mqtt

/-- What the attempts of one turn give, before the `except` of the functions that make them. -/
structure Turn where
  usb : Except Exn (Option ConnectionImpl)
  mdns : Except Exn ConnectionImpl
  mqtt : Except Exn ConnectionImpl

/-- The proxy may not answer. -/
def discover_usb (attempt : Except Exn (Option ConnectionImpl)) :
    Except Exn (Option ConnectionImpl) :=
  match attempt with
  | .ok result => .ok result
  | .error _ => .ok none

/-- Only a timeout is caught: a host that was found can refuse the connection. -/
def discover_mdns (attempt : Except Exn ConnectionImpl) : Except Exn (Option ConnectionImpl) :=
  match attempt with
  | .ok impl => .ok (some impl)
  | .error ex => if ex.kind = .TimeoutError then .ok none else .error ex

def discover_mqtt (attempt : Except Exn ConnectionImpl) : Except Exn (Option ConnectionImpl) :=
  if ¬ truthy config.service.device_id then .ok none
  else
    match attempt with
    | .ok impl => .ok (some impl)
    | .error ex => if ex.kind = .TimeoutError then .ok none else .error ex

def Turn.found (turn : Turn) : Source → Except Exn (Option ConnectionImpl)
  | .usb => discover_usb turn.usb
  | .mdns => discover_mdns turn.mdns
  | .mqtt => discover_mqtt config turn.mqtt

/-- One turn of the loop of `discover`: what a source raises ends it. -/
def discoverOnce (turn : Turn) : Except Exn (Option ConnectionImpl) :=
  ([.usb, .mdns, .mqtt].filter (Source.usedBy · config.service.discovery)).findSomeM?
    (turn.found config)

/-- `discover`, by the turns that are made before the timeout. -/
def discover (turns : List Turn) : Except Exn ConnectionImpl :=
  match turns.findSomeM? (discoverOnce config) with
  | .ok (some result) => .ok result
  | .ok none => .error { kind := .ConnectionAbortedError, msg := "Discovery timeout" }
  | .error ex =>
    if ex.kind = .TimeoutError then
      .error { kind := .ConnectionAbortedError, msg := "Discovery timeout" }
    else .error ex

/-- What the network does while the handler connects. -/
structure Network where
  connect_mock : Except Exn ConnectionImpl
  connect_simulation : Except Exn ConnectionImpl
  connect_tcp : String → Except Exn ConnectionImpl
  discovered : List Turn

def connect (network : Network) : Except Exn ConnectionImpl :=
  if config.service.mock then network.connect_mock
  else if config.service.simulation then network.connect_simulation
  else if truthy config.service.device_host then
    network.connect_tcp (config.service.device_host.getD "")
  else discover config network.discovered

/-! ## The handler -/

/-- What the task of `repeat` waits for. -/
inductive Await
  /-- Once it is woken, it does not matter whether the event is cleared again. -/
  | wait_enabled (woken : Bool)
  | connect | connected | disconnected
  /-- `_impl.close()`, after which a task that is cancelled ends. -/
  | close (cancelled : Bool)
  | sleep | ended
  deriving DecidableEq

structure ConnectionHandler where
  state : StateMachine
  _enabled : Bool := true
  _last_ok : Bool := true
  _interval : Int
  _impl : Option ConnectionImpl := none
  await : Await

def ConnectionHandler.init (state : StateMachine) : ConnectionHandler where
  state := state
  _interval := calc_interval config none
  await := .wait_enabled state.is_enabled

namespace ConnectionHandler

variable (self : ConnectionHandler)

/-- `connected` -/
def is_connected : Bool := self._impl.any (·.connected)

/-- What is sent, if anything, goes to the connection that the handler has. -/
def send_request : Except Exn ConnectionImpl :=
  match self._impl with
  | some impl => if impl.connected then .ok impl else .error { kind := .NotConnected }
  | none => .error { kind := .NotConnected }

/-- The branches of `run` for exceptions. -/
def handled (aborted : Bool) : ConnectionHandler :=
  if aborted then
    { self with _interval := calc_interval config (some self._interval) }
  else if self._last_ok then { self with _last_ok := false }
  else self

/-- The end of `run`, once the connection is closed. -/
def finished (cancelled : Bool) : ConnectionHandler :=
  { self with
    _impl := none
    state := self.state.set_disconnected
    await := if cancelled then .ended else .sleep }

/-- The `finally` of `run`. Without a connection, there is nothing to wait for. -/
def finally_ (cancelled : Bool) : ConnectionHandler :=
  match self._impl with
  | none => self.finished cancelled
  | some _ => { self with await := .close cancelled }

/-- The connection is open. -/
def opened (impl : ConnectionImpl) : ConnectionHandler :=
  { self with
    state := self.state.set_connected impl.kind impl.address
    _last_ok := true
    _interval := calc_interval config none
    await := .disconnected }

end ConnectionHandler

variable {config} {self : ConnectionHandler}

@[simp] theorem handled_state (aborted : Bool) :
    (self.handled config aborted).state = self.state := by
  unfold ConnectionHandler.handled
  split
  · rfl
  · split <;> rfl

@[simp] theorem handled_impl (aborted : Bool) :
    (self.handled config aborted)._impl = self._impl := by
  unfold ConnectionHandler.handled
  split
  · rfl
  · split <;> rfl

@[simp] theorem handled_enabled (aborted : Bool) :
    (self.handled config aborted)._enabled = self._enabled := by
  unfold ConnectionHandler.handled
  split
  · rfl
  · split <;> rfl

theorem finally_of_none (cancelled : Bool) (h : self._impl = none) :
    self.finally_ cancelled = self.finished cancelled := by
  unfold ConnectionHandler.finally_
  rw [h]

theorem finally_of_some {impl : ConnectionImpl} (cancelled : Bool) (h : self._impl = some impl) :
    self.finally_ cancelled = { self with await := .close cancelled } := by
  cases self
  cases h
  rfl

variable (config)

/-! ## Steps -/

inductive Action
  /-- `wait_enabled` returns. -/
  | enabled
  | connected_to (network : Network)
  /-- The `connected` event of the connection was awaited. -/
  | opened
  | lost
  /-- `_impl.close()` returns, or raises. -/
  | closed
  | slept
  /-- The task is cancelled. -/
  | cancelled
  /-- The transport sets the events of the connection, by itself or because it was closed. -/
  | transport (connected disconnected : Bool)
  /-- Another task calls a setter of the state machine. -/
  | operated (op : Op)
  /-- `end()`: there will be no other turn of the loop. -/
  | end_

/-- A setter wakes those that wait for it. -/
def wake (op : Op) : Await → Await
  | .wait_enabled woken => .wait_enabled (woken || op = .set_enabled true)
  | await => await

/-- Only the handler itself connects and disconnects the state. -/
def Foreign : Op → Bool
  | .set_connected _ _ | .set_disconnected => false
  | .set_enabled _ | .set_acknowledged _ | .set_synchronized | .set_updating => true

def ConnectionImpl.set (impl : ConnectionImpl) (connected disconnected : Bool) : ConnectionImpl :=
  { impl with
    connected := impl.connected || connected
    disconnected := impl.disconnected || disconnected }

def step (self : ConnectionHandler) : Action → Option ConnectionHandler
  | .enabled =>
    if self.await = .wait_enabled true then some { self with await := .connect } else none
  | .connected_to network =>
    if self.await = .connect then
      match connect config network with
      | .ok impl => some { self with _impl := some impl, await := .connected }
      | .error ex => some ((self.handled config (ex.kind = .ConnectionAbortedError)).finally_ false)
    else none
  | .opened =>
    match self._impl with
    | some impl =>
      if self.await = .connected ∧ impl.connected then some (self.opened config impl) else none
    | none => none
  | .lost =>
    if self.await = .disconnected ∧ self._impl.any (·.disconnected) then
      -- A `ConnectionError` is not a `ConnectionAbortedError`
      some ((self.handled config false).finally_ false)
    else none
  | .closed =>
    match self.await with
    | .close cancelled => some (self.finished cancelled)
    | _ => none
  | .slept =>
    if self.await = .sleep then
      let await := if self._enabled then .wait_enabled self.state.is_enabled else .ended
      some { self with await }
    else none
  | .cancelled =>
    match self.await with
    | .wait_enabled _ | .connect | .connected | .disconnected => some (self.finally_ true)
    -- What is left of `finally` is not run
    | .close _ | .sleep => some { self with await := .ended }
    | .ended => none
  | .transport connected disconnected =>
    some { self with _impl := self._impl.map (·.set connected disconnected) }
  | .operated op =>
    if Foreign op then
      some { self with
        state := self.state.apply config.service op
        await := wake op self.await }
    else none
  | .end_ => some { self with _enabled := false }

/-- What a step does, where it is possible. -/
inductive Step (self : ConnectionHandler) : Action → ConnectionHandler → Prop
  | enabled (hat : self.await = .wait_enabled true) :
      Step self .enabled { self with await := .connect }
  | found {network : Network} {impl : ConnectionImpl} (hat : self.await = .connect)
      (h : connect config network = .ok impl) :
      Step self (.connected_to network) { self with _impl := some impl, await := .connected }
  | failed {network : Network} {ex : Exn} (hat : self.await = .connect)
      (h : connect config network = .error ex) :
      Step self (.connected_to network)
        ((self.handled config (ex.kind = .ConnectionAbortedError)).finally_ false)
  | opened {impl : ConnectionImpl} (hat : self.await = .connected) (himpl : self._impl = some impl)
      (h : impl.connected = true) : Step self .opened (self.opened config impl)
  | lost (hat : self.await = .disconnected) :
      Step self .lost ((self.handled config false).finally_ false)
  | closed {cancelled : Bool} (hat : self.await = .close cancelled) :
      Step self .closed (self.finished cancelled)
  | slept (hat : self.await = .sleep) :
      Step self .slept { self with
        await := if self._enabled then .wait_enabled self.state.is_enabled else .ended }
  | cancelled : Step self .cancelled (self.finally_ true)
  | torn : Step self .cancelled { self with await := .ended }
  | transport (connected disconnected : Bool) : Step self (.transport connected disconnected)
      { self with _impl := self._impl.map (·.set connected disconnected) }
  | operated {op : Op} (hop : Foreign op = true) : Step self (.operated op)
      { self with
        state := self.state.apply config.service op
        await := wake op self.await }
  | end_ : Step self .end_ { self with _enabled := false }

variable {config} {next : ConnectionHandler}

theorem step_of_some {action : Action} (h : step config self action = some next) :
    Step config self action next := by
  cases action with
  | enabled =>
    obtain ⟨hat, hnext⟩ := Option.ite_none_right_eq_some.mp h
    cases hnext
    exact .enabled hat
  | connected_to network =>
    obtain ⟨hat, hnext⟩ := Option.ite_none_right_eq_some.mp h
    split at hnext
    · rename_i impl hconnect
      cases hnext
      exact .found hat hconnect
    · rename_i ex hconnect
      cases hnext
      exact .failed hat hconnect
  | opened =>
    dsimp only [step] at h
    split at h
    · rename_i impl himpl
      obtain ⟨hat, hnext⟩ := Option.ite_none_right_eq_some.mp h
      cases hnext
      exact .opened hat.1 himpl hat.2
    · cases h
  | lost =>
    obtain ⟨hat, hnext⟩ := Option.ite_none_right_eq_some.mp h
    cases hnext
    exact .lost hat.1
  | closed =>
    dsimp only [step] at h
    split at h
    · rename_i cancelled hat
      cases h
      exact .closed hat
    · cases h
  | slept =>
    obtain ⟨hat, hnext⟩ := Option.ite_none_right_eq_some.mp h
    cases hnext
    exact .slept hat
  | cancelled =>
    dsimp only [step] at h
    split at h
    case h_1 | h_2 | h_3 | h_4 =>
      cases h
      exact .cancelled
    case h_5 | h_6 =>
      cases h
      exact .torn
    case h_7 => cases h
  | transport connected disconnected =>
    cases h
    exact .transport connected disconnected
  | operated op =>
    obtain ⟨hop, hnext⟩ := Option.ite_none_right_eq_some.mp h
    cases hnext
    exact .operated hop
  | end_ =>
    cases h
    exact .end_

/-- What a step does to the state of the service. -/
inductive StateStep (config : Config) (self : ConnectionHandler) : Action → StateMachine → Prop
  | same {a : Action} : StateStep config self a self.state
  | connected {a : Action} {impl : ConnectionImpl} (hat : self.await = .connected) :
      StateStep config self a (self.state.set_connected impl.kind impl.address)
  | disconnected {a : Action} : StateStep config self a self.state.set_disconnected
  | operated {op : Op} (hop : Foreign op = true) :
      StateStep config self (.operated op) (self.state.apply config.service op)

theorem stateStep_finally (self : ConnectionHandler) (cancelled : Bool) :
    (self.finally_ cancelled).state = self.state ∨
      (self.finally_ cancelled).state = self.state.set_disconnected := by
  cases himpl : self._impl with
  | none =>
    rw [finally_of_none cancelled himpl]
    exact .inr rfl
  | some impl =>
    rw [finally_of_some cancelled himpl]
    exact .inl rfl

theorem stateStep_of_some {action : Action} (h : step config self action = some next) :
    StateStep config self action next.state := by
  have hfinally : ∀ {other : ConnectionHandler} {cancelled : Bool}, other.state = self.state →
      StateStep config self action (other.finally_ cancelled).state := by
    intro other cancelled hother
    rcases stateStep_finally other cancelled with hsame | hdisconnected
    · rw [hsame, hother]
      exact .same
    · rw [hdisconnected, hother]
      exact .disconnected
  cases step_of_some h with
  | failed hat hconnect => exact hfinally (handled_state _)
  | opened hat himpl hopen => exact .connected hat
  | lost hat => exact hfinally (handled_state _)
  | closed hat => exact .disconnected
  | cancelled => exact hfinally rfl
  | operated hop => exact .operated hop
  | enabled | found | slept | torn | transport | end_ => exact .same

/-! ### A run -/

/-- The intervals of the default configuration. -/
def defaults : Config where
  service := {}
  connect_interval := 2000000
  connect_interval_max := 30000000
  connect_backoff := 3 / 2

/-- Nothing answers, a controller is at a USB port in the second turn, or one that was found by
mDNS refuses the connection. -/
def silent : Network where
  connect_mock := .error { kind := .ConnectionAbortedError }
  connect_simulation := .error { kind := .ConnectionAbortedError }
  connect_tcp := fun _ => .error { kind := .ConnectionAbortedError }
  discovered := []

def nothing : Turn where
  usb := .ok none
  mdns := .error { kind := .TimeoutError }
  mqtt := .error { kind := .TimeoutError }

def plugged : Network :=
  { silent with
    discovered :=
      [nothing, { nothing with usb := .ok (some { kind := .USB, address := "ttyACM0" }) }] }

def refusing : Network :=
  { silent with
    discovered := [{ nothing with mdns := .error { kind := .ConnectionRefusedError } }] }

/-- A discovery that raises is no attempt that is aborted. -/
example : connect defaults refusing = .error { kind := .ConnectionRefusedError } := rfl

/-- Two attempts that are aborted. -/
def attempts : List Action :=
  [.operated (.set_enabled true), .enabled, .connected_to silent, .slept, .enabled,
    .connected_to silent]

/-- A connection after them. -/
def connecting : List Action :=
  attempts ++ [.slept, .enabled, .connected_to plugged, .transport true false]

/-! ## What the service shows -/

/-- The state of the service says what the connection is, if there is one. What its status is
without one also depends on the other tasks. -/
structure Shows (state : StateMachine) (impl : Option ConnectionImpl) : Prop where
  connected : state.is_connected = impl.isSome
  disconnected : state.is_disconnected = impl.isNone
  address : state.status_desc.address = impl.map (·.address)
  kind : state.status_desc.connection_kind = impl.map (·.kind)
  status : impl.isSome = true → state.status_desc.connection_status ≠ .DISCONNECTED

/-- What the handler has, and what the service shows, by what the handler waits for. -/
def Shown (self : ConnectionHandler) : Prop :=
  match self.await with
  | .wait_enabled _ | .connect | .sleep => self._impl = none ∧ Shows self.state none
  | .connected => self._impl.isSome ∧ Shows self.state none
  | .disconnected =>
    ∃ impl, self._impl = some impl ∧ impl.connected ∧ Shows self.state (some impl)
  | .close _ | .ended => True

theorem shows_disconnected (state : StateMachine) : Shows state.set_disconnected none :=
  ⟨rfl, rfl, rfl, rfl, nofun⟩

theorem shows_foreign {state : StateMachine} {impl : Option ConnectionImpl} {op : Op}
    (hop : Foreign op = true) (h : Shows state impl) :
    Shows (state.apply config.service op) impl := by
  obtain ⟨hconnected, hdisconnected, haddress, hkind, hstatus⟩ := h
  cases op with
  | set_enabled enabled => exact ⟨hconnected, hdisconnected, haddress, hkind, hstatus⟩
  | set_connected kind address => cases hop
  | set_acknowledged controller =>
    unfold StateMachine.apply StateMachine.set_acknowledged
    dsimp only
    split
    · exact ⟨hconnected, hdisconnected, haddress, hkind, hstatus⟩
    · exact ⟨hconnected, hdisconnected, haddress, hkind, nofun⟩
  | set_synchronized =>
    by_cases hack : state.is_acknowledged = true
    · rw [set_synchronized_ok hack]
      exact ⟨hconnected, hdisconnected, haddress, hkind, nofun⟩
    · rw [set_synchronized_raises hack]
      exact ⟨hconnected, hdisconnected, haddress, hkind, hstatus⟩
  | set_updating => exact ⟨hconnected, hdisconnected, haddress, hkind, nofun⟩
  | set_disconnected => cases hop

/-- An end of `run` without a connection, or its wait for the connection to close. -/
theorem shown_finally (self : ConnectionHandler) (cancelled : Bool) :
    Shown (self.finally_ cancelled) := by
  unfold ConnectionHandler.finally_
  split
  · cases cancelled with
    | false => exact ⟨rfl, shows_disconnected _⟩
    | true => trivial
  · trivial

theorem shown_transport (connected disconnected : Bool) (h : Shown self) :
    Shown { self with _impl := self._impl.map (·.set connected disconnected) } := by
  unfold Shown at h ⊢
  dsimp only
  split
  all_goals rename_i hat; rw [hat] at h
  case h_1 | h_2 | h_3 => exact ⟨by rw [h.1]; rfl, h.2⟩
  case h_4 => exact ⟨by simpa using h.1, h.2⟩
  case h_5 =>
    obtain ⟨impl, himpl, hopen, hshows⟩ := h
    refine ⟨impl.set connected disconnected, by rw [himpl]; rfl, ?_, hshows.connected,
      hshows.disconnected, hshows.address, hshows.kind, hshows.status⟩
    simp [ConnectionImpl.set, hopen]
  case h_6 | h_7 => trivial

theorem shown_operated {op : Op} (hop : Foreign op = true) (h : Shown self) :
    Shown { self with
      state := self.state.apply config.service op
      await := wake op self.await } := by
  unfold Shown at h ⊢
  dsimp only
  cases hat : self.await with
  | wait_enabled woken | connect | connected | sleep =>
    rw [hat] at h
    exact ⟨h.1, shows_foreign hop h.2⟩
  | disconnected =>
    rw [hat] at h
    obtain ⟨impl, himpl, hopen, hshows⟩ := h
    exact ⟨impl, himpl, hopen, shows_foreign hop hshows⟩
  | close cancelled => trivial
  | ended => trivial

theorem shown_step {action : Action} (h : Shown self)
    (hstep : step config self action = some next) : Shown next := by
  cases step_of_some hstep with
  | enabled hat =>
    unfold Shown at h
    rw [hat] at h
    exact h
  | found hat hconnect =>
    unfold Shown at h
    rw [hat] at h
    exact ⟨rfl, h.2⟩
  | failed hat hconnect => exact shown_finally _ false
  | opened hat himpl hopen => exact ⟨_, himpl, hopen, rfl, rfl, rfl, rfl, nofun⟩
  | lost hat => exact shown_finally _ false
  | @closed cancelled hat =>
    cases cancelled with
    | false => exact ⟨rfl, shows_disconnected _⟩
    | true => trivial
  | slept hat =>
    unfold Shown at h ⊢
    rw [hat] at h
    cases self._enabled with
    | true => exact h
    | false => trivial
  | cancelled => exact shown_finally _ true
  | torn => trivial
  | transport connected disconnected => exact shown_transport connected disconnected h
  | operated hop => exact shown_operated hop h
  | end_ => exact h

theorem shown_init (fw_config : FirmwareConfig) :
    Shown (ConnectionHandler.init config (StateMachine.init config.service fw_config)) :=
  ⟨rfl, rfl, rfl, rfl, rfl, nofun⟩

/-- Handshakes come from a connection that is open, and an update is of its controller. -/
def Timely (self : ConnectionHandler) : Action → Prop
  | .operated (.set_acknowledged _) | .operated .set_updating => self.state.is_connected = true
  | _ => True

/-- Without a connection there is no other status. -/
def Hidden (state : StateMachine) : Prop := state.is_connected = false →
  state.is_acknowledged = false ∧ state.status_desc.connection_status = .DISCONNECTED

theorem hidden_step {action : Action} (h : Hidden self.state) (htimely : Timely self action)
    (hstep : step config self action = some next) : Hidden next.state := by
  have hstate := stateStep_of_some hstep
  generalize next.state = state at hstate
  cases hstate with
  | same => exact h
  | connected hat => exact nofun
  | disconnected => exact fun _ => ⟨rfl, rfl⟩
  | @operated op hop =>
    cases op with
    | set_enabled enabled => exact h
    | set_connected kind address => cases hop
    | set_acknowledged controller =>
      intro hnone
      rw [StateMachine.apply, set_acknowledged_connected] at hnone
      cases htimely.symm.trans hnone
    | set_synchronized =>
      by_cases hack : self.state.is_acknowledged = true
      · rw [set_synchronized_ok hack]
        intro hnone
        cases hack.symm.trans (h hnone).1
      · rw [set_synchronized_raises hack]
        exact h
    | set_updating =>
      intro hnone
      cases htimely.symm.trans hnone
    | set_disconnected => cases hop

/-- However the network and the other tasks behave: the service is shown as connected while the
handler waits for its connection to be lost, and what is sent gets to that connection; it is shown
as disconnected, and nothing can be sent, while the handler is between two connections. Its status
is not `DISCONNECTED` with a connection, and it is without one if handshakes and updates only come
while it is connected. -/
theorem service_shows_its_connection (fw_config : FirmwareConfig) {actions : List Action}
    (hrun : run (step config)
      (ConnectionHandler.init config (StateMachine.init config.service fw_config)) actions =
      some next) :
    (next.await = .disconnected → ∃ impl, next.send_request = .ok impl ∧
      Shows next.state (some impl)) ∧
    (next.await = .connected → Shows next.state none) ∧
    ((∃ woken, next.await = .wait_enabled woken) ∨ next.await = .connect ∨
      next.await = .sleep →
      next.send_request = .error { kind := .NotConnected } ∧ Shows next.state none) ∧
    (Along (step config) Timely
        (ConnectionHandler.init config (StateMachine.init config.service fw_config)) actions →
      next.state.is_connected = false →
        next.state.status_desc.connection_status = .DISCONNECTED) := by
  have hshown := invariant (fun _ _ _ => shown_step) (shown_init fw_config) hrun
  have hfree : next._impl = none → next.send_request = .error { kind := .NotConnected } := by
    intro himpl
    unfold ConnectionHandler.send_request
    rw [himpl]
  unfold Shown at hshown
  refine ⟨fun hat => ?_, fun hat => ?_, ?_, fun htimely hnone => ?_⟩
  · rw [hat] at hshown
    obtain ⟨impl, himpl, hopen, hshows⟩ := hshown
    refine ⟨impl, ?_, hshows⟩
    unfold ConnectionHandler.send_request
    rw [himpl]
    exact if_pos hopen
  · rw [hat] at hshown
    exact hshown.2
  · rintro (⟨woken, hat⟩ | hat | hat)
    all_goals
      rw [hat] at hshown
      exact ⟨hfree hshown.1, hshown.2⟩
  · have hstart : Hidden (ConnectionHandler.init config
        (StateMachine.init config.service fw_config)).state := fun _ => ⟨rfl, rfl⟩
    have hhidden := along_invariant (I := fun handler => Hidden handler.state)
      (fun _ _ _ => hidden_step) hstart htimely hrun
    exact (hhidden hnone).2

theorem usb_connection_is_shown : ∃ next,
    run (step defaults) (ConnectionHandler.init defaults (StateMachine.init {} someFirmwareConfig))
      (connecting ++ [.opened]) = some next ∧
    ∃ impl, next.send_request = .ok impl ∧ Shows next.state (some impl) := by
  have hrun : run (step defaults) (ConnectionHandler.init defaults
      (StateMachine.init {} someFirmwareConfig)) (connecting ++ [.opened]) = some _ := rfl
  exact ⟨_, hrun, (service_shows_its_connection someFirmwareConfig hrun).1 rfl⟩

/-! ## The interval between two connections -/

/-- The connections in a row that were aborted. -/
def failures (config : Config) (count : Nat) : Action → Nat
  | .connected_to network =>
    match connect config network with
    | .ok _ => count
    | .error ex => if ex.kind = .ConnectionAbortedError then count + 1 else count
  | .opened => 0
  | .enabled | .lost | .closed | .slept | .cancelled | .transport _ _ | .operated _ | .end_ => count

/-- The interval, by how often it was backed off. -/
def intervalAfter (config : Config) : Nat → Int
  | 0 => config.connect_interval
  | count + 1 =>
    min ((backedOff config)^[count + 1] config.connect_interval) config.connect_interval_max

/-- Intervals that are not empty, and do not become shorter. -/
structure Grows (config : Config) : Prop where
  interval : 0 < config.connect_interval
  interval_max : 0 < config.connect_interval_max
  backoff : 1 ≤ config.connect_backoff

theorem backedOff_mono (h : Grows config) {x y : Int} (hxy : x ≤ y) :
    backedOff config x ≤ backedOff config y := by
  have hbackoff : 0 ≤ config.connect_backoff := Rat.le_trans (by decide) h.backoff
  exact roundHalfEven_mono
    (Rat.mul_le_mul_of_nonneg_right (Rat.intCast_le_intCast.mpr hxy) hbackoff)

theorem le_backedOff (h : Grows config) {x : Int} (hx : 0 ≤ x) : x ≤ backedOff config x := by
  have hmul : (x : ℚ) ≤ x * config.connect_backoff :=
    le_mul_of_one_le_right (Int.cast_nonneg hx) h.backoff
  have hround := roundHalfEven_mono hmul
  rwa [roundHalfEven_intCast] at hround

theorem calc_interval_some {x : Int} (hx : 0 < x) : calc_interval config (some x) =
    backoff.next (backedOff config) config.connect_interval_max x := if_neg hx.ne'

theorem next_pos (h : Grows config) {x : Int} (hx : 0 < x) :
    0 < backoff.next (backedOff config) config.connect_interval_max x :=
  lt_min (hx.trans_le (le_backedOff h hx.le)) h.interval_max

/-- The interval after so many failures. -/
structure Backed (config : Config) (count : Nat) (handler : ConnectionHandler) : Prop where
  interval : handler._interval =
    (backoff.next (backedOff config) config.connect_interval_max)^[count] config.connect_interval
  pos : 0 < handler._interval

theorem backed_finally {count : Nat} {cancelled : Bool} (h : Backed config count self) :
    Backed config count (self.finally_ cancelled) := by
  unfold ConnectionHandler.finally_
  split
  · exact ⟨h.interval, h.pos⟩
  · exact ⟨h.interval, h.pos⟩

theorem backed_failed {count : Nat} (hgrows : Grows config) (h : Backed config count self) :
    Backed config (count + 1) (self.handled config true) := by
  have hinterval : (self.handled config true)._interval =
      backoff.next (backedOff config) config.connect_interval_max self._interval :=
    calc_interval_some h.pos
  constructor
  · rw [hinterval, h.interval, Function.iterate_succ_apply']
  · rw [hinterval]
    exact next_pos hgrows h.pos

theorem backed_other {count : Nat} (h : Backed config count self) :
    Backed config count (self.handled config false) := by
  unfold ConnectionHandler.handled
  rw [if_neg Bool.false_ne_true]
  split
  · exact ⟨h.interval, h.pos⟩
  · exact h

theorem backed_step (hgrows : Grows config) {count : Nat} {action : Action}
    (h : Backed config count self) (hstep : step config self action = some next) :
    Backed config (failures config count action) next := by
  cases step_of_some hstep with
  | found hat hconnect =>
    dsimp only [failures]
    rw [hconnect]
    exact ⟨h.interval, h.pos⟩
  | @failed network ex hat hconnect =>
    dsimp only [failures]
    rw [hconnect]
    dsimp only
    by_cases haborted : ex.kind = .ConnectionAbortedError
    · rw [if_pos haborted, decide_eq_true haborted]
      exact backed_finally (backed_failed hgrows h)
    · rw [if_neg haborted, decide_eq_false haborted]
      exact backed_finally (backed_other h)
  | opened hat himpl hopen => exact ⟨rfl, hgrows.interval⟩
  | lost hat => exact backed_finally (backed_other h)
  | cancelled => exact backed_finally h
  | enabled | closed | slept | torn | transport | operated | end_ => exact ⟨h.interval, h.pos⟩

theorem backed_run (hgrows : Grows config) {count : Nat} {actions : List Action}
    (h : Backed config count self) (hrun : run (step config) self actions = some next) :
    Backed config (actions.foldl (failures config) count) next := by
  induction actions generalizing self count with
  | nil =>
    cases hrun
    exact h
  | cons action actions ih =>
    obtain ⟨mid, hstep, hrest⟩ := run_cons_some hrun
    exact ih (backed_step hgrows h hstep) hrest

/-- The handler waits for the interval of the configuration, which grows with each connection in a
row that was aborted, and which is capped from the first one on. -/
theorem interval_backs_off (hgrows : Grows config) (state : StateMachine) {actions : List Action}
    (hrun : run (step config) (ConnectionHandler.init config state) actions = some next) :
    next._interval = intervalAfter config (actions.foldl (failures config) 0) := by
  have hstart : Backed config 0 (ConnectionHandler.init config state) := ⟨rfl, hgrows.interval⟩
  have hbacked := (backed_run hgrows hstart hrun).interval
  have hcap := le_backedOff hgrows hgrows.interval_max.le
  generalize actions.foldl (failures config) 0 = count at hbacked ⊢
  cases count with
  | zero => exact hbacked
  | succ count =>
    have hgrow : Monotone (backedOff config) := fun _ _ hxy => backedOff_mono hgrows hxy
    exact hbacked.trans (iterate_next hgrow hcap _ _)

theorem interval_after_two_timeouts : ∃ next,
    run (step defaults) (ConnectionHandler.init defaults (StateMachine.init {} someFirmwareConfig))
      attempts = some next ∧ next._interval = 4500000 := by
  have hgrows : Grows defaults := ⟨by decide, by decide, by decide +kernel⟩
  have hrun : run (step defaults) (ConnectionHandler.init defaults
      (StateMachine.init {} someFirmwareConfig)) attempts = some _ := rfl
  have hcount : intervalAfter defaults (attempts.foldl (failures defaults) 0) = 4500000 := by
    decide +kernel
  exact ⟨_, hrun, (interval_backs_off hgrows _ hrun).trans hcount⟩

/-! ## The end -/

/-- The connections that a handler that is told to end can still open. -/
def remaining (self : ConnectionHandler) : Nat :=
  match self.await with
  | .wait_enabled _ | .connect | .connected => 1
  | .disconnected | .close _ | .sleep | .ended => 0

def isOpened : Action → Bool
  | .opened => true
  | _ => false

theorem remaining_finally (self : ConnectionHandler) (cancelled : Bool) :
    remaining (self.finally_ cancelled) = 0 := by
  unfold ConnectionHandler.finally_
  split
  · cases cancelled <;> rfl
  · rfl

theorem enabled_finally (self : ConnectionHandler) (cancelled : Bool) :
    (self.finally_ cancelled)._enabled = self._enabled := by
  unfold ConnectionHandler.finally_
  split <;> rfl

theorem remaining_step {action : Action} (hend : self._enabled = false)
    (hstep : step config self action = some next) :
    next._enabled = false ∧
      (if isOpened action then 1 else 0) + remaining next ≤ remaining self := by
  cases step_of_some hstep with
  | enabled hat => exact ⟨hend, by simp [isOpened, remaining, hat]⟩
  | found hat => exact ⟨hend, by simp [isOpened, remaining, hat]⟩
  | failed hat =>
    refine ⟨?_, by simp [isOpened, remaining_finally]⟩
    rw [enabled_finally, handled_enabled, hend]
  | opened hat => exact ⟨hend, by simp [isOpened, remaining, hat, ConnectionHandler.opened]⟩
  | lost hat =>
    refine ⟨?_, by simp [isOpened, remaining_finally]⟩
    rw [enabled_finally, handled_enabled, hend]
  | @closed cancelled hat =>
    refine ⟨hend, ?_⟩
    cases cancelled <;> simp [isOpened, remaining, ConnectionHandler.finished]
  | slept hat => exact ⟨hend, by simp [isOpened, remaining, hend]⟩
  | cancelled => exact ⟨by rw [enabled_finally, hend], by simp [isOpened, remaining_finally]⟩
  | torn => exact ⟨hend, by simp [isOpened, remaining]⟩
  | transport => exact ⟨hend, by simp [isOpened, remaining]⟩
  | operated =>
    refine ⟨hend, ?_⟩
    cases hat : self.await <;> simp [isOpened, remaining, wake, hat]
  | end_ => exact ⟨rfl, by simp [isOpened, remaining]⟩

/-- A handler that was told to end opens at most one more connection, and only if it was already
on the way to it. -/
theorem ended_handler_opens_at_most_one {actions : List Action} (hend : self._enabled = false)
    (hrun : run (step config) self actions = some next) :
    actions.countP isOpened ≤ remaining self := by
  induction actions generalizing self with
  | nil => exact Nat.zero_le _
  | cons action actions ih =>
    obtain ⟨mid, hstep, hrest⟩ := run_cons_some hrun
    obtain ⟨hmid, hless⟩ := remaining_step hend hstep
    have hcount := ih hmid hrest
    rw [List.countP_cons]
    omega

/-- A call of `end` does not stop an attempt that is being made. -/
theorem ended_handler_opens_one :
    let self : ConnectionHandler :=
      { ConnectionHandler.init defaults (StateMachine.init {} someFirmwareConfig) with
        _enabled := false
        _impl := some { kind := .USB, address := "ttyACM0", connected := true }
        await := .connected }
    (step defaults self .opened).isSome ∧ [Action.opened].countP isOpened ≤ remaining self := by
  intro self
  have hrun : run (step defaults) self [.opened] = some _ := rfl
  exact ⟨rfl, ended_handler_opens_at_most_one rfl hrun⟩

end devcon_spark.connection.connection_handler
