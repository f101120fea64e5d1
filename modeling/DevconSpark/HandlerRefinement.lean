-- The connection handler against the handler next to the synchronizer, which
-- leaves out the intervals, the closing, and what the network does.
import DevconSpark.ConnectionHandler
import DevconSpark.Synchronization

open runs devcon_spark.exceptions devcon_spark.state_machine
open devcon_spark.synchronization (Service Handler)

namespace devcon_spark.connection.connection_handler

/-! ## The abstraction -/

/-- Where the handler is, as the synchronizer sees it. A connection that is closed is still one. -/
def abstracted (self : ConnectionHandler) : Handler :=
  match self.await with
  | .wait_enabled woken => .waitingEnabled woken
  | .connect => .dialing
  | .connected => .connecting self.is_connected
  | .disconnected => .running
  | .close _ =>
    if self.state.is_connected then .running else .connecting self.is_connected
  | .sleep | .ended => .sleeping

structure Simulates (fine : ConnectionHandler) (s : Service) : Prop where
  state : s.state = fine.state
  handler : s.handler = abstracted fine

/-- All but the shutdown of the service, and what the synchronizer does itself. -/
def Outside : Action → Bool
  | .cancelled => false
  | .operated (.set_enabled _) | .operated (.set_acknowledged _) => true
  | .operated _ => false
  | .enabled | .connected_to _ | .opened | .lost | .closed | .slept | .transport _ _ | .end_ => true

/-! ## The simulation -/

variable {config : Config} {self next : ConnectionHandler} {s : Service}

/-- The service can follow to a state that simulates the handler. -/
def Follows (config : Config) (s : Service) (next : ConnectionHandler) : Prop :=
  ∃ actions t, run (synchronization.step config.service) s actions = some t ∧ Simulates next t

theorem follows_same (hstate : s.state = next.state) (hhandler : s.handler = abstracted next) :
    Follows config s next := ⟨[], s, rfl, hstate, hhandler⟩

theorem follows_one {action : synchronization.Action} {t : Service}
    (hstep : synchronization.step config.service s action = some t) (hstate : t.state = next.state)
    (hhandler : t.handler = abstracted next) : Follows config s next := by
  refine ⟨[action], t, ?_, hstate, hhandler⟩
  rw [run_cons, hstep]
  rfl

/-- The end of a connection, or of an attempt at one. -/
theorem follows_finished {state : StateMachine} (hstate : s.state = state)
    (hbusy : s.handler = .dialing ∨ (∃ up, s.handler = .connecting up) ∨ s.handler = .running)
    (hnext : next.state = state.set_disconnected) (hsleeping : abstracted next = .sleeping) :
    Follows config s next := by
  have hstep : synchronization.step config.service s .disconnected = some { s with
      state := s.state.set_disconnected
      handler := .sleeping
      place := Service.wakeDisconnected s.place
      greeted := none } := by
    dsimp only [synchronization.step]
    obtain hhandler | ⟨up, hhandler⟩ | hhandler := hbusy <;> rw [hhandler]
  refine follows_one hstep ?_ hsleeping.symm
  rw [hnext, ← hstate]

/-- The connection that the handler waits for may come up. -/
theorem follows_linked {up up' : Bool} (hstate : s.state = next.state)
    (hhandler : s.handler = .connecting up) (hnext : abstracted next = .connecting up')
    (hmore : up = true → up' = true) : Follows config s next := by
  by_cases hup : up = up'
  · subst hup
    exact follows_same hstate (hhandler.trans hnext.symm)
  · have hstep : synchronization.step config.service s .linked =
        some { s with handler := .connecting true } := by
      dsimp only [synchronization.step]
      rw [hhandler]
    have hnow : up' = true := by
      cases up <;> simp_all
    exact follows_one hstep hstate (by rw [hnext, hnow])

theorem follows_failed {aborted : Bool} (h : Simulates self s) (hat : self.await = .connect)
    (himpl : self._impl = none) :
    Follows config s ((self.handled config aborted).finally_ false) := by
  have hhandler := h.handler
  unfold abstracted at hhandler
  rw [hat] at hhandler
  rw [finally_of_none false ((handled_impl aborted).trans himpl)]
  refine follows_finished h.state (Or.inl hhandler) ?_ rfl
  dsimp only [ConnectionHandler.finished]
  rw [handled_state]

theorem follows_lost {impl : ConnectionImpl} (h : Simulates self s)
    (hat : self.await = .disconnected) (himpl : self._impl = some impl)
    (hshows : Shows self.state (some impl)) :
    Follows config s ((self.handled config false).finally_ false) := by
  have hhandler := h.handler
  unfold abstracted at hhandler
  rw [hat] at hhandler
  have hrunning : abstracted { self.handled config false with await := .close false } =
      .running := by
    dsimp only [abstracted]
    rw [handled_state, hshows.connected]
    rfl
  rw [finally_of_some false ((handled_impl false).trans himpl)]
  exact follows_same (h.state.trans (handled_state false).symm) (hhandler.trans hrunning.symm)

theorem follows_slept (h : Simulates self s) (hat : self.await = .sleep) :
    Follows config s { self with
      await := if self._enabled then .wait_enabled self.state.is_enabled else .ended } := by
  have hhandler := h.handler
  unfold abstracted at hhandler
  rw [hat] at hhandler
  cases self._enabled with
  | true =>
    have hretry : synchronization.step config.service s .retry =
        some { s with handler := .waitingEnabled s.state.enabled_ev } := by
      dsimp only [synchronization.step]
      rw [hhandler]
    refine follows_one hretry h.state ?_
    rw [h.state]
    rfl
  | false => exact follows_same h.state hhandler

theorem follows_transport (connected disconnected : Bool) (h : Simulates self s) :
    Follows config s { self with _impl := self._impl.map (·.set connected disconnected) } := by
  have hhandler := h.handler
  have hmore : self.is_connected = true →
      (self._impl.map (·.set connected disconnected)).any (·.connected) = true := by
    unfold ConnectionHandler.is_connected
    cases self._impl with
    | none => exact fun hup => hup
    | some impl =>
      intro hup
      simpa [ConnectionImpl.set] using Or.inl hup
  unfold abstracted at hhandler
  cases hat : self.await with
  | wait_enabled woken | connect | disconnected | sleep | ended =>
    rw [hat] at hhandler
    refine follows_same h.state (hhandler.trans ?_)
    unfold abstracted
    dsimp only
  | connected =>
    rw [hat] at hhandler
    exact follows_linked h.state hhandler rfl hmore
  | close cancelled =>
    rw [hat] at hhandler
    dsimp only at hhandler
    split at hhandler
    · rename_i hshown
      exact follows_same h.state (hhandler.trans (if_pos hshown).symm)
    · rename_i hhidden
      exact follows_linked h.state hhandler (if_neg hhidden) hmore

theorem follows_enabled (enabled : Bool) (h : Simulates self s) :
    Follows config s { self with
      state := self.state.apply config.service (.set_enabled enabled)
      await := wake (.set_enabled enabled) self.await } := by
  have hhandler := h.handler
  have hstep : synchronization.step config.service s (.settingsChanged enabled) =
      some (s.setEnabled enabled) := rfl
  refine follows_one hstep (congrArg (StateMachine.set_enabled · enabled) h.state) ?_
  unfold Service.setEnabled
  dsimp only
  rw [hhandler]
  unfold abstracted
  cases self.await with
  | wait_enabled woken => cases enabled <;> rfl
  | connect | connected | disconnected | sleep | ended => rfl
  | close cancelled =>
    dsimp only
    by_cases hshown : self.state.is_connected = true
    · rw [if_pos hshown]
      exact (if_pos hshown).symm
    · rw [if_neg hshown]
      exact (if_neg hshown).symm

theorem abstracted_handshake (controller : ControllerDescription) :
    abstracted { self with
      state := self.state.apply config.service (.set_acknowledged controller)
      await := wake (.set_acknowledged controller) self.await } = abstracted self := by
  have hconnected : (self.state.apply config.service (.set_acknowledged controller)).is_connected =
      self.state.is_connected := set_acknowledged_connected _ _ _
  unfold abstracted
  cases self.await with
  | wait_enabled woken => simp [wake]
  | connect | connected | disconnected | sleep | ended => rfl
  | close cancelled =>
    dsimp only [wake]
    rw [hconnected]
    rfl

theorem follows_handshake (controller : ControllerDescription) (h : Simulates self s) :
    Follows config s { self with
      state := self.state.apply config.service (.set_acknowledged controller)
      await := wake (.set_acknowledged controller) self.await } := by
  have hstep : synchronization.step config.service s (.handshake controller) =
      some (s.greet config.service controller) := rfl
  have hstate : (s.greet config.service controller).state =
      s.state.set_acknowledged config.service controller := by
    unfold Service.greet StateMachine.set_acknowledged
    split <;> rfl
  have hsame : (s.greet config.service controller).handler = s.handler := by
    unfold Service.greet
    split <;> rfl
  refine follows_one hstep ?_ ?_
  · rw [hstate, h.state]
    rfl
  · rw [hsame, h.handler, abstracted_handshake]

theorem simulates_step {action : Action} (hshown : Shown self) (h : Simulates self s)
    (houtside : Outside action = true) (hstep : step config self action = some next) :
    Follows config s next := by
  have hhandler := h.handler
  unfold abstracted at hhandler
  unfold Shown at hshown
  cases step_of_some hstep with
  | enabled hat =>
    rw [hat] at hhandler
    have hseen : synchronization.step config.service s .enabledSeen =
        some { s with handler := .dialing } := by
      dsimp only [synchronization.step]
      rw [hhandler]
    exact follows_one hseen h.state rfl
  | @found network impl hat hconnect =>
    rw [hat] at hhandler
    have hdial : synchronization.step config.service s (.dial impl.connected) =
        some { s with handler := .connecting impl.connected } := by
      dsimp only [synchronization.step]
      rw [hhandler]
    exact follows_one hdial h.state rfl
  | failed hat hconnect =>
    rw [hat] at hshown
    exact follows_failed h hat hshown.1
  | @opened impl hat himpl hopen =>
    rw [hat] at hhandler
    have hup : self.is_connected = true := by
      unfold ConnectionHandler.is_connected
      rw [himpl]
      exact hopen
    rw [hup] at hhandler
    have hconnected : synchronization.step config.service s (.connected impl.kind impl.address) =
        some { s with
          state := s.state.set_connected impl.kind impl.address
          handler := .running
          place := Service.wakeConnected s.place
          connections := s.connections + 1
          greeted := none } := by
      dsimp only [synchronization.step]
      rw [hhandler]
    refine follows_one hconnected ?_ rfl
    dsimp only
    rw [h.state]
    rfl
  | lost hat =>
    rw [hat] at hshown
    obtain ⟨impl, himpl, -, hshows⟩ := hshown
    exact follows_lost h hat himpl hshows
  | @closed cancelled hat =>
    rw [hat] at hhandler
    refine follows_finished h.state ?_ rfl (by cases cancelled <;> rfl)
    dsimp only at hhandler
    split at hhandler
    · exact Or.inr (Or.inr hhandler)
    · exact Or.inr (Or.inl ⟨_, hhandler⟩)
  | slept hat => exact follows_slept h hat
  | cancelled => cases houtside
  | torn => cases houtside
  | transport connected disconnected => exact follows_transport connected disconnected h
  | @operated op hop =>
    cases op with
    | set_enabled enabled => exact follows_enabled enabled h
    | set_acknowledged controller => exact follows_handshake controller h
    | set_connected | set_synchronized | set_updating | set_disconnected => cases houtside
  | end_ => exact follows_same h.state hhandler

/-- Whatever the handler does, the handler next to the synchronizer can do: one run of that one
has the state machine of this one after each of its steps, up to the shutdown of the service. -/
theorem handler_refines_its_abstraction (fw_config : FirmwareConfig) {actions : List Action}
    (houtside : ∀ action ∈ actions, Outside action = true)
    (hrun : run (step config)
      (ConnectionHandler.init config (StateMachine.init config.service fw_config)) actions =
      some next) :
    ∃ parts, Matched (step config) (synchronization.step config.service) Simulates
      (ConnectionHandler.init config (StateMachine.init config.service fw_config))
      (synchronization.init config.service fw_config) actions parts := by
  have hstart : Simulates
      (ConnectionHandler.init config (StateMachine.init config.service fw_config))
      (synchronization.init config.service fw_config) := ⟨rfl, rfl⟩
  exact exists_matched (fun _ _ _ => shown_step)
    (fun _ _ _ _ hshown hsimulates => simulates_step hshown hsimulates) (shown_init fw_config)
    hstart houtside hrun

theorem connecting_handler_is_followed : ∃ next parts,
    run (step defaults) (ConnectionHandler.init defaults (StateMachine.init {} someFirmwareConfig))
      (connecting ++ [.opened, .transport false true, .lost, .closed, .slept]) = some next ∧
    Matched (step defaults) (synchronization.step {}) Simulates
      (ConnectionHandler.init defaults (StateMachine.init {} someFirmwareConfig))
      (synchronization.init {} someFirmwareConfig)
      (connecting ++ [.opened, .transport false true, .lost, .closed, .slept]) parts := by
  have hrun : run (step defaults) (ConnectionHandler.init defaults
      (StateMachine.init {} someFirmwareConfig))
      (connecting ++ [.opened, .transport false true, .lost, .closed, .slept]) = some _ := rfl
  obtain ⟨parts, hparts⟩ := handler_refines_its_abstraction someFirmwareConfig
    (by simp [connecting, attempts, Outside]) hrun
  exact ⟨_, parts, hrun, hparts⟩

end devcon_spark.connection.connection_handler
