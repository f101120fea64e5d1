-- The status that the service reports, and the phases of its connection,
-- over all orders in which the setters can be called.
import DevconSpark.Runs
import DevconSpark.StateMachine

open runs devcon_spark.exceptions

namespace devcon_spark.state_machine

open StateMachine

/-- The state after a list of calls. -/
def after (config : ServiceConfig) (fw_config : FirmwareConfig) (ops : List Op) : StateMachine :=
  ops.foldl (apply config) (init config fw_config)

/-! ## The phases -/

/-- A verdict on the description of the controller that is shown. -/
def Judged (config : ServiceConfig) (sm : StateMachine) : Prop :=
  ∃ controller, sm.status_desc.controller = some controller ∧
    sm.status_desc.firmware_error = firmwareErrorOf config sm.status_desc.service controller ∧
    sm.status_desc.identity_error = identityErrorOf sm.status_desc.service controller

/-- What the state machine was created with stays as it is, but for `enabled`. -/
structure FromStart (config : ServiceConfig) (fw_config : FirmwareConfig) (sm : StateMachine) :
    Prop where
  enabled : sm.status_desc.enabled = sm.enabled_ev
  service : sm.status_desc.service = (init config fw_config).status_desc.service
  discovery_kind : sm.status_desc.discovery_kind = (init config fw_config).status_desc.discovery_kind

/-- The phases nest. -/
structure Nested (config : ServiceConfig) (sm : StateMachine) : Prop where
  connected : sm.is_connected = ! sm.is_disconnected
  synchronized : sm.is_synchronized = true → sm.is_acknowledged = true
  acknowledged : sm.is_acknowledged = true → Judged config sm

theorem nested_init (config : ServiceConfig) (fw_config : FirmwareConfig) :
    Nested config (init config fw_config) where
  connected := rfl
  synchronized := fun h => h
  acknowledged := fun h => absurd h Bool.false_ne_true

theorem set_acknowledged_synchronized {config : ServiceConfig} {sm : StateMachine}
    {controller : ControllerDescription} (h : sm.is_synchronized = true) :
    sm.set_acknowledged config controller = sm := if_pos h

theorem set_acknowledged_ok {config : ServiceConfig} {sm : StateMachine}
    {controller : ControllerDescription} (h : sm.is_synchronized ≠ true) :
    sm.set_acknowledged config controller = { sm with
      status_desc :=
        { sm.status_desc with
          connection_status := .ACKNOWLEDGED
          controller := some controller
          firmware_error := firmwareErrorOf config sm.status_desc.service controller
          identity_error := identityErrorOf sm.status_desc.service controller }
      acknowledged_ev := true } := if_neg h

theorem set_acknowledged_connected (config : ServiceConfig) (sm : StateMachine)
    (controller : ControllerDescription) :
    (sm.set_acknowledged config controller).is_connected = sm.is_connected := by
  unfold set_acknowledged
  split <;> rfl

/-- A call to a service that is not acknowledged raises, and changes nothing. -/
theorem set_synchronized_raises {config : ServiceConfig} {sm : StateMachine}
    (h : sm.is_acknowledged ≠ true) : sm.apply config .set_synchronized = sm := by
  unfold is_acknowledged at h
  simp [apply, set_synchronized, h, Except.toOption]

theorem set_synchronized_ok {config : ServiceConfig} {sm : StateMachine}
    (h : sm.is_acknowledged = true) : sm.apply config .set_synchronized = { sm with
      status_desc := { sm.status_desc with connection_status := .SYNCHRONIZED }
      synchronized_ev := true } := by
  unfold is_acknowledged at h
  simp [apply, set_synchronized, h, Except.toOption]

theorem nested_step {config : ServiceConfig} {sm : StateMachine} (h : Nested config sm) (op : Op) :
    Nested config (sm.apply config op) := by
  cases op with
  | set_enabled enabled => exact ⟨h.connected, h.synchronized, h.acknowledged⟩
  | set_connected connection_kind address =>
    exact ⟨rfl, fun h => absurd h Bool.false_ne_true, fun h => absurd h Bool.false_ne_true⟩
  | set_acknowledged controller =>
    by_cases hsync : sm.is_synchronized = true
    · rw [apply, set_acknowledged_synchronized hsync]
      exact h
    · rw [apply, set_acknowledged_ok hsync]
      exact ⟨h.connected, fun _ => rfl, fun _ => ⟨controller, rfl, rfl, rfl⟩⟩
  | set_synchronized =>
    by_cases hack : sm.is_acknowledged = true
    · rw [set_synchronized_ok hack]
      exact ⟨h.connected, fun _ => hack, h.acknowledged⟩
    · rw [set_synchronized_raises hack]
      exact h
  | set_updating => exact ⟨h.connected, h.synchronized, h.acknowledged⟩
  | set_disconnected =>
    exact ⟨rfl, fun h => absurd h Bool.false_ne_true, fun h => absurd h Bool.false_ne_true⟩

theorem fromStart_step {config : ServiceConfig} {fw_config : FirmwareConfig} {sm : StateMachine}
    (h : FromStart config fw_config sm) (op : Op) :
    FromStart config fw_config (sm.apply config op) := by
  cases op with
  | set_enabled enabled => exact ⟨rfl, h.service, h.discovery_kind⟩
  | set_connected connection_kind address => exact ⟨h.enabled, h.service, h.discovery_kind⟩
  | set_acknowledged controller =>
    by_cases hsync : sm.is_synchronized = true
    · rw [apply, set_acknowledged_synchronized hsync]
      exact h
    · rw [apply, set_acknowledged_ok hsync]
      exact ⟨h.enabled, h.service, h.discovery_kind⟩
  | set_synchronized =>
    by_cases hack : sm.is_acknowledged = true
    · rw [set_synchronized_ok hack]
      exact ⟨h.enabled, h.service, h.discovery_kind⟩
    · rw [set_synchronized_raises hack]
      exact h
  | set_updating => exact ⟨h.enabled, h.service, h.discovery_kind⟩
  | set_disconnected => exact ⟨h.enabled, h.service, h.discovery_kind⟩

/-- A disconnected service is as it was created, but for `enabled`. -/
theorem set_disconnected_of_fromStart {config : ServiceConfig} {fw_config : FirmwareConfig}
    {sm : StateMachine} (h : FromStart config fw_config sm) :
    sm.set_disconnected = (init config fw_config).set_enabled sm.is_enabled := by
  unfold set_disconnected set_enabled init is_enabled
  simp only [h.enabled, h.service, h.discovery_kind]
  rfl

/-- A call that neither connects nor disconnects keeps the description of a controller that is
synchronized, and the verdict on it. -/
theorem synchronized_keeps {config : ServiceConfig} {sm : StateMachine}
    (hsync : sm.is_synchronized = true) {op : Op} (hop : op ≠ .set_disconnected)
    (hconnect : ∀ connection_kind address, op ≠ .set_connected connection_kind address) :
    (sm.apply config op).status_desc.controller = sm.status_desc.controller ∧
      (sm.apply config op).status_desc.firmware_error = sm.status_desc.firmware_error ∧
      (sm.apply config op).status_desc.identity_error = sm.status_desc.identity_error := by
  cases op with
  | set_enabled enabled => exact ⟨rfl, rfl, rfl⟩
  | set_connected connection_kind address => exact absurd rfl (hconnect _ _)
  | set_acknowledged controller =>
    rw [apply, set_acknowledged_synchronized hsync]
    exact ⟨rfl, rfl, rfl⟩
  | set_synchronized =>
    by_cases hack : sm.is_acknowledged = true
    · rw [set_synchronized_ok hack]
      exact ⟨rfl, rfl, rfl⟩
    · rw [set_synchronized_raises hack]
      exact ⟨rfl, rfl, rfl⟩
  | set_updating => exact ⟨rfl, rfl, rfl⟩
  | set_disconnected => exact absurd rfl hop

/-- The phases nest in each state that calls can lead to; what is synchronized keeps its verdict;
a `set_synchronized` that raises changes nothing; and each disconnect leads to one state. -/
theorem phases_nest (config : ServiceConfig) (fw_config : FirmwareConfig) (ops : List Op) :
    Nested config (after config fw_config ops) ∧
      (∀ op, (after config fw_config ops).is_synchronized = true → op ≠ .set_disconnected →
        (∀ connection_kind address, op ≠ .set_connected connection_kind address) →
          (after config fw_config (ops ++ [op])).status_desc.controller =
            (after config fw_config ops).status_desc.controller ∧
          (after config fw_config (ops ++ [op])).status_desc.firmware_error =
            (after config fw_config ops).status_desc.firmware_error ∧
          (after config fw_config (ops ++ [op])).status_desc.identity_error =
            (after config fw_config ops).status_desc.identity_error) ∧
      (∀ ex, (after config fw_config ops).set_synchronized = .error ex →
        after config fw_config (ops ++ [.set_synchronized]) = after config fw_config ops) ∧
      (after config fw_config ops).set_disconnected =
        (init config fw_config).set_enabled (after config fw_config ops).is_enabled := by
  have hsnoc : ∀ op, after config fw_config (ops ++ [op]) =
      (after config fw_config ops).apply config op := by
    intro op
    rw [after, List.foldl_append]
    rfl
  have hinvariant : Nested config (after config fw_config ops) ∧
      FromStart config fw_config (after config fw_config ops) :=
    List.foldlRecOn (motive := fun sm => Nested config sm ∧ FromStart config fw_config sm) ops
      (apply config) ⟨nested_init config fw_config, rfl, rfl, rfl⟩
      fun _ h op _ => ⟨nested_step h.1 op, fromStart_step h.2 op⟩
  refine ⟨hinvariant.1, ?_, ?_, set_disconnected_of_fromStart hinvariant.2⟩
  · intro op hsync hop hconnect
    rw [hsnoc]
    exact synchronized_keeps hsync hop hconnect
  · intro ex h
    rw [hsnoc, apply, h]
    rfl

/-! ## The status that is reported -/

/-- The status says what the events say. -/
structure Truthful (sm : StateMachine) : Prop where
  disconnected : sm.status_desc.connection_status = .DISCONNECTED ↔ sm.is_disconnected = true
  updating : sm.status_desc.connection_status = .UPDATING ↔ sm.is_updating = true
  synchronized : sm.status_desc.connection_status = .SYNCHRONIZED ↔
    sm.is_synchronized = true ∧ sm.is_updating = false
  acknowledged : sm.status_desc.connection_status = .ACKNOWLEDGED ↔
    sm.is_acknowledged = true ∧ sm.is_synchronized = false ∧ sm.is_updating = false
  connected : sm.status_desc.connection_status = .CONNECTED ↔ sm.is_connected = true ∧
    sm.is_acknowledged = false ∧ sm.is_synchronized = false ∧ sm.is_updating = false

/-- The phases after the first are only entered while connected. -/
def Permitted (sm : StateMachine) : Op → Prop
  | .set_acknowledged _ => sm.is_connected = true
  | .set_synchronized => sm.is_connected = true
  | .set_updating => sm.is_connected = true
  | _ => True

/-- No call but a disconnect takes the status of an update away: not a new connection, nor a
handshake or a synchronization, unless it changes nothing. -/
def KeepsUpdate (sm : StateMachine) : Op → Prop
  | .set_connected _ _ => sm.is_updating = false
  | .set_acknowledged _ => sm.is_updating = true → sm.is_synchronized = true
  | .set_synchronized => sm.is_updating = true → sm.is_acknowledged = false
  | _ => True

instance (sm : StateMachine) (op : Op) : Decidable (Permitted sm op) := by
  cases op <;> unfold Permitted <;> infer_instance

instance (sm : StateMachine) (op : Op) : Decidable (KeepsUpdate sm op) := by
  cases op <;> unfold KeepsUpdate <;> infer_instance

/-- What is past the first phase is connected. -/
structure Linked (sm : StateMachine) : Prop where
  connected : sm.is_connected = ! sm.is_disconnected
  synchronized : sm.is_synchronized = true → sm.is_acknowledged = true
  acknowledged : sm.is_acknowledged = true → sm.is_connected = true
  updating : sm.is_updating = true → sm.is_connected = true

theorem linked_step {config : ServiceConfig} {sm : StateMachine} {op : Op} (h : Linked sm)
    (hop : Permitted sm op) : Linked (sm.apply config op) := by
  cases op with
  | set_enabled enabled => exact ⟨h.connected, h.synchronized, h.acknowledged, h.updating⟩
  | set_connected connection_kind address =>
    exact ⟨rfl, fun h => absurd h Bool.false_ne_true, fun _ => rfl, fun _ => rfl⟩
  | set_acknowledged controller =>
    by_cases hsync : sm.is_synchronized = true
    · rw [apply, set_acknowledged_synchronized hsync]
      exact h
    · rw [apply, set_acknowledged_ok hsync]
      exact ⟨h.connected, fun _ => rfl, fun _ => hop, h.updating⟩
  | set_synchronized =>
    by_cases hack : sm.is_acknowledged = true
    · rw [set_synchronized_ok hack]
      exact ⟨h.connected, fun _ => hack, h.acknowledged, h.updating⟩
    · rw [set_synchronized_raises hack]
      exact h
  | set_updating => exact ⟨h.connected, h.synchronized, h.acknowledged, fun _ => hop⟩
  | set_disconnected =>
    exact ⟨rfl, fun h => absurd h Bool.false_ne_true, fun h => absurd h Bool.false_ne_true,
      fun h => absurd h Bool.false_ne_true⟩

theorem truthful_init (config : ServiceConfig) (fw_config : FirmwareConfig) :
    Truthful (init config fw_config) := by
  constructor <;> simp [init, is_disconnected, is_updating, is_synchronized, is_acknowledged,
    is_connected]

/-- A call leaves the status true exactly where it keeps the status of an update. -/
theorem truthful_step_iff {config : ServiceConfig} {sm : StateMachine} {op : Op} (h : Linked sm)
    (hop : Permitted sm op) (htrue : Truthful sm) :
    Truthful (sm.apply config op) ↔ KeepsUpdate sm op := by
  cases op with
  | set_enabled enabled =>
    exact ⟨fun _ => trivial, fun _ => ⟨htrue.disconnected, htrue.updating, htrue.synchronized,
      htrue.acknowledged, htrue.connected⟩⟩
  | set_connected connection_kind address =>
    constructor
    · intro h
      exact (h.connected.mp rfl).2.2.2
    · intro hidle
      unfold KeepsUpdate is_updating at hidle
      constructor <;> simp [apply, set_connected, is_disconnected, is_updating, is_synchronized,
        is_acknowledged, is_connected, hidle]
  | set_acknowledged controller =>
    by_cases hsync : sm.is_synchronized = true
    · rw [apply, set_acknowledged_synchronized hsync]
      exact ⟨fun _ _ => hsync, fun _ => htrue⟩
    · rw [apply, set_acknowledged_ok hsync]
      constructor
      · intro h hupdating
        exact absurd hupdating (Bool.not_eq_true _ ▸ (h.acknowledged.mp rfl).2.2)
      · intro hkeep
        have hidle := Bool.not_eq_true _ ▸ mt hkeep hsync
        have hlink := h.connected.symm.trans hop
        unfold is_synchronized at hsync
        unfold is_updating at hidle
        unfold is_disconnected at hlink
        constructor <;> simp_all [is_disconnected, is_updating, is_synchronized, is_acknowledged]
  | set_synchronized =>
    by_cases hack : sm.is_acknowledged = true
    · rw [set_synchronized_ok hack]
      constructor
      · intro h hupdating
        exact absurd hupdating (Bool.not_eq_true _ ▸ (h.synchronized.mp rfl).2)
      · intro hkeep
        have hidle : sm.is_updating = false := by
          by_contra hupdating
          rw [hkeep (Bool.not_eq_false _ ▸ hupdating)] at hack
          cases hack
        have hlink := h.connected.symm.trans hop
        unfold is_updating at hidle
        unfold is_disconnected at hlink
        constructor <;> simp_all [is_disconnected, is_updating, is_synchronized]
    · rw [set_synchronized_raises hack]
      exact ⟨fun _ _ => Bool.not_eq_true _ ▸ hack, fun _ => htrue⟩
  | set_updating =>
    refine ⟨fun _ => trivial, fun _ => ?_⟩
    have hlink := h.connected.symm.trans hop
    unfold is_disconnected at hlink
    constructor <;> simp_all [apply, set_updating, is_disconnected, is_updating]
  | set_disconnected =>
    refine ⟨fun _ => trivial, fun _ => ?_⟩
    constructor <;> simp [apply, set_disconnected, is_disconnected, is_updating, is_synchronized,
      is_acknowledged, is_connected]

/-- A handshake during an update: the service reports that it is acknowledged. -/
theorem handshake_during_update : ¬ ∀ (config : ServiceConfig) (fw_config : FirmwareConfig)
    (ops : List Op), EachStep (apply config) Permitted (init config fw_config) ops →
      Truthful (after config fw_config ops) := by
  intro h
  have htrue := h {} someFirmwareConfig
    [.set_connected .TCP "host:8332", .set_updating, .set_acknowledged someController] (by decide)
  exact absurd (htrue.updating.mpr rfl) (by decide)

/-- The status is true in all states of a run exactly where each call of the run keeps the status
of an update. -/
theorem status_is_true_iff (config : ServiceConfig) (fw_config : FirmwareConfig) (ops : List Op)
    (h : EachStep (apply config) Permitted (init config fw_config) ops) :
    (∀ pre, pre <+: ops → Truthful (after config fw_config pre)) ↔
      EachStep (apply config) KeepsUpdate (init config fw_config) ops := by
  have hlinked : Linked (init config fw_config) :=
    ⟨rfl, fun h => absurd h Bool.false_ne_true, fun h => absurd h Bool.false_ne_true,
      fun h => absurd h Bool.false_ne_true⟩
  exact throughout_iff_eachStep (fun _ _ => linked_step) (fun _ _ => truthful_step_iff) hlinked
    (truthful_init config fw_config) h

theorem status_is_true_update :
    let ops : List Op := [.set_connected .TCP "host:8332", .set_acknowledged someController,
      .set_synchronized, .set_updating, .set_acknowledged someController, .set_disconnected]
    (∀ pre, pre <+: ops → Truthful (after {} someFirmwareConfig pre)) ↔
      EachStep (apply {}) KeepsUpdate (init {} someFirmwareConfig) ops :=
  status_is_true_iff {} someFirmwareConfig _ (by decide)

end devcon_spark.state_machine
