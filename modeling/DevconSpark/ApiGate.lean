-- The gate of the operations: while an update is in progress, or the
-- controller is incompatible, an operation raises before it does anything. One
-- operation never asks: `rename_block`.
import DevconSpark.SparkApi

open bidict devcon_spark.exceptions devcon_spark.models devcon_spark.state_machine

namespace devcon_spark.spark_api

variable {env : Environment} {w : World} {α β : Type}

/-! ## Refused at once -/

/-- The call raises, and the world stays as it was. -/
def Refused (x : Api α) (w : World) : Prop := ∃ e, x.run.run w = (.error e, w)

theorem refused_bind {x : Api α} (f : α → Api β) (h : Refused x w) : Refused (x >>= f) w := by
  obtain ⟨e, he⟩ := h
  refine ⟨e, ?_⟩
  rw [ExceptT.run_bind, StateT.run_bind, he]
  rfl

theorem refused_lift {x : Except Exn α} {e : Exn} (h : x = .error e) :
    Refused (liftExcept x) w := by
  rw [h]
  exact ⟨e, rfl⟩

theorem preconditions_closed {state : StateMachine} (h : ¬ state.GateOpen) :
    ∃ e, preconditions state = .error e := by
  unfold StateMachine.GateOpen at h
  unfold preconditions
  cases hu : state.is_updating with
  | true => exact ⟨_, rfl⟩
  | false =>
    cases hc : state.check_compatible with
    | ok u => exact absurd ⟨hu, hc⟩ h
    | error e => exact ⟨e, rfl⟩

/-- A closed gate lets no body run. -/
theorem execute_refused (body : Api α) (h : ¬ w.state.GateOpen) :
    Refused (_execute env body) w := by
  obtain ⟨e, he⟩ := preconditions_closed h
  obtain ⟨e', hrun⟩ := refused_lift (w := w) he
  refine ⟨e', ?_⟩
  show ((liftExcept (preconditions w.state) : Api Unit) >>= fun _ => _).run.run w = _
  rw [ExceptT.run_bind, StateT.run_bind, hrun]
  rfl

theorem make_backup_refused (h : ¬ w.state.GateOpen) : Refused (make_backup env) w :=
  refused_bind _ (execute_refused _ h)

theorem apply_backup_refused (exported : Backup) (h : ¬ w.state.GateOpen) :
    Refused (apply_backup env exported) w :=
  refused_bind _ (execute_refused _ h)

/-! ## Renames -/

/-- A rename of a block that the store knows. -/
def RenamesKnown (block_store : BlockStore) : Operation → Prop
  | .rename_block change => ∃ nid, block_store.get? (some change.existing) = some (some nid)
  | _ => False

theorem rename_unknown_refused {change : BlockNameChange}
    (h : ¬ RenamesKnown w.block_store (.rename_block change)) :
    Refused (rename_block env change) w := by
  obtain ⟨e, he⟩ : ∃ e, knownNid w.block_store change.existing = .error e := by
    unfold knownNid
    cases hget : w.block_store.get? (some change.existing) with
    | none => exact ⟨_, rfl⟩
    | some nid =>
      cases nid with
      | none => exact ⟨_, rfl⟩
      | some nid => exact absurd ⟨nid, hget⟩ h
  obtain ⟨e', hrun⟩ := refused_lift (w := w) he
  refine ⟨e', ?_⟩
  show ((liftExcept (knownNid w.block_store change.existing) : Api Int) >>= fun _ => _).run.run w =
    _
  rw [ExceptT.run_bind, StateT.run_bind, hrun]
  rfl

/-- A rename hands its request over, whatever the state machine says. -/
theorem rename_known_requests {change : BlockNameChange} {nid : Int}
    (h : w.block_store.get? (some change.existing) = some (some nid)) :
    ((perform env (.rename_block change)).run.run w).2.requests =
      w.requests ++ [.write_block_name { id := some change.desired, nid }] := by
  have hnid : knownNid w.block_store change.existing = .ok nid := by
    rw [knownNid, h]
  have hlift : (liftExcept (knownNid w.block_store change.existing) : Api Int).run.run w =
      (.ok nid, w) := by
    rw [hnid]
    rfl
  have hrun : (rename_block env change).run.run w = ((cmder env
      (.write_block_name { id := some change.desired, nid }) >>= fun block => do
        modifyStore (·.put block.id (some block.nid))
        return { id := block.id, nid := some block.nid, type := some block.type
                 serviceId := some env.name }) : Api BlockIdentity).run.run w := by
    show ((liftExcept (knownNid w.block_store change.existing) : Api Int) >>= fun _ => _).run.run w
      = _
    rw [ExceptT.run_bind, StateT.run_bind, hlift]
    rfl
  have hcall (request : Request) : (cmder env request).run.run w =
      ((env.reply w.requests request w.toShared).1,
        { w with
          toShared := (env.reply w.requests request w.toShared).2
          requests := w.requests ++ [request] }) := rfl
  show (((rename_block env change) >>= fun _ => _).run.run w).2.requests = _
  rw [ExceptT.run_bind, StateT.run_bind, hrun, ExceptT.run_bind, StateT.run_bind, hcall]
  cases (env.reply w.requests (.write_block_name { id := some change.desired, nid }) w.toShared).1
    <;> rfl

/-- Each operation but a rename is refused at once by a closed gate. -/
theorem perform_refused {op : Operation} (h : ¬ w.state.GateOpen)
    (hop : ¬ RenamesKnown w.block_store op) : Refused (perform env op) w := by
  cases op with
  | rename_block change => exact refused_bind _ (rename_unknown_refused hop)
  | make_backup => exact refused_bind _ (make_backup_refused h)
  | apply_backup exported => exact refused_bind _ (apply_backup_refused exported h)
  | _ => exact refused_bind _ (execute_refused _ h)

/-! ## The gate -/

/-- The call raises before any request is handed to the commander, and leaves the block store
as it was. -/
def RespectsGate (env : Environment) (op : Operation) (w : World) : Prop :=
  ∃ e w', (perform env op).run.run w = (.error e, w') ∧ w'.requests = w.requests ∧
    w'.block_store = w.block_store

/-- While the gate is closed, the operations respect it, except for a rename of a known block. -/
theorem gate_respected_iff (env : Environment) (w : World) (op : Operation)
    (h : ¬ w.state.GateOpen) : RespectsGate env op w ↔ ¬ RenamesKnown w.block_store op := by
  constructor
  · rintro ⟨e, w', hrun, hreq, -⟩ hop
    cases op with
    | rename_block change =>
      obtain ⟨nid, hnid⟩ := hop
      have hsent : ((perform env (.rename_block change)).run.run w).2.requests = _ :=
        rename_known_requests hnid
      rw [hrun, hreq] at hsent
      simp at hsent
    | _ => exact hop
  · intro hop
    obtain ⟨e, he⟩ : Refused (perform env op) w := perform_refused h hop
    exact ⟨e, w, he, rfl, rfl⟩

/-! ## A firmware update -/

/-- A service of which the controller is updating its firmware. -/
def updating : StateMachine :=
  [Op.set_enabled true, .set_connected .USB "/dev/ttyACM0", .set_acknowledged someController,
    .set_synchronized, .set_updating].foldl (StateMachine.apply {})
      (StateMachine.init {} someFirmwareConfig)

/-- It knows one block. -/
def updatingWorld : World :=
  { state := updating, block_store := Bidict.empty.put (some "kettle") (some 100) }

/-- A commander that gives back what it gets. -/
def echo : Environment where
  name := "spark"
  timeparse := fun _ => none
  repr := fun _ => []
  blockText := fun _ => ""
  firmwareBlockText := fun _ => ""
  now := ""
  wait_synchronized := fun shared => (true, shared)
  reply := fun _ request shared =>
    match request with
    | .noop => (.ok (), shared)
    | .read_block ident _ => (.ok { nid := ident.nid, type := "", data := [] }, shared)
    | .read_all_blocks _ => (.ok ([] : List FirmwareBlock), shared)
    | .write_block block => (.ok block, shared)
    | .patch_block block => (.ok block, shared)
    | .create_block block => (.ok block, shared)
    | .delete_block _ => (.ok (), shared)
    | .discover_blocks => (.ok ([] : List FirmwareBlock), shared)
    | .read_all_block_names => (.ok ([] : List FirmwareBlock), shared)
    | .write_block_name ident =>
      (.ok { id := ident.id, nid := ident.nid, type := "", data := [] }, shared)
    | .clear_blocks => (.ok ([] : List FirmwareBlock), shared)
    | .clear_wifi => (.ok (), shared)
    | .factory_reset => (.ok (), shared)
    | .reboot => (.ok (), shared)
    | .validate block => (.ok block, shared)

theorem update_refuses_noop : RespectsGate echo .noop updatingWorld :=
  (gate_respected_iff echo updatingWorld .noop (by decide)).mpr (fun h => h)

theorem update_takes_rename : ¬ updatingWorld.state.GateOpen ∧
    ¬ RespectsGate echo (.rename_block { existing := "kettle", desired := "pot" })
      updatingWorld := by
  refine ⟨by decide, ?_⟩
  rintro ⟨e, w', hrun, hreq, -⟩
  have hlength : ((perform echo (.rename_block { existing := "kettle", desired := "pot" })).run.run
      updatingWorld).2.requests.length = 1 := rfl
  rw [hrun, hreq] at hlength
  cases hlength

end devcon_spark.spark_api
