-- How the operations run: a program ends with a result or an exception, and
-- with the world that it leaves.
import DevconSpark.Programs
import DevconSpark.SparkApi

open bidict programs devcon_spark.exceptions devcon_spark.models devcon_spark.state_machine

namespace devcon_spark.spark_api

variable {env : Environment} {w : World} {α β : Type}

@[simp] theorem run_modifyStore (f : BlockStore → BlockStore) (w : World) :
    (modifyStore f).run.run w = (.ok (), { w with block_store := f w.block_store }) := rfl

/-- A request was handed to the commander, and other tasks may have run until the reply. -/
def World.after (w : World) (request : Request) (shared : Shared) : World :=
  { w with toShared := shared, requests := w.requests ++ [request] }

@[simp] theorem after_requests (request : Request) (shared : Shared) :
    (w.after request shared).requests = w.requests ++ [request] := rfl

@[simp] theorem after_block_store (request : Request) (shared : Shared) :
    (w.after request shared).block_store = shared.block_store := rfl

theorem run_cmder {request : Request} {answer : Except Exn request.Reply} {shared : Shared}
    (h : env.reply w.requests request w.toShared = (answer, shared)) :
    (cmder env request).run.run w = (answer, w.after request shared) := by
  have hrun : (cmder env request).run.run w = ((env.reply w.requests request w.toShared).1,
      w.after request (env.reply w.requests request w.toShared).2) := rfl
  rw [hrun, h]

/-- A command that timed out started a check of the connection. -/
def World.raised (w : World) (ex : Exn) : World :=
  if ex.kind = .CommandTimeout then { w with checks := w.checks + 1 } else w

@[simp] theorem raised_block_store (ex : Exn) : (w.raised ex).block_store = w.block_store := by
  unfold World.raised
  split <;> rfl

/-- Whether a body runs, and in which world: the gate is open, and the wait ends in time. -/
def admitted (env : Environment) (w : World) : Except Exn World :=
  match preconditions w.state with
  | .error e => .error e
  | .ok _ =>
    let outcome := env.wait_synchronized w.toShared
    if outcome.1 then .ok { w with toShared := outcome.2 }
    else .error { kind := .NotConnected, msg := "Timed out waiting for synchronized state" }

/-- What becomes of a body that is admitted. -/
def executed (outcome : Except Exn α × World) : Except Exn α × World :=
  match outcome with
  | (.ok a, w) => (.ok a, w)
  | (.error ex, w) => (.error ex, w.raised ex)

/-- A body runs in the world that it is admitted in, or it does not run. -/
theorem execute_cases (env : Environment) (w : World) (body : Api α) :
    (∃ w', admitted env w = .ok w' ∧
        (_execute env body).run.run w = executed (body.run.run w')) ∨
      ∃ e w', admitted env w = .error e ∧ (_execute env body).run.run w = (.error e, w') := by
  unfold admitted _execute
  rw [run_bind_ok (run_get w)]
  cases hpre : preconditions w.state with
  | error e =>
    have hgate : (liftExcept (preconditions w.state) : Api Unit).run.run w = (.error e, w) := by
      rw [run_lift, hpre]
    rw [← hpre, run_bind_error hgate]
    exact Or.inr ⟨e, w, by rw [hpre], rfl⟩
  | ok u =>
    have hgate : (liftExcept (preconditions w.state) : Api Unit).run.run w = (.ok u, w) := by
      rw [run_lift, hpre]
    have hrun : (wait_synchronized env).run.run w =
      (.ok (env.wait_synchronized w.toShared).1,
        { w with toShared := (env.wait_synchronized w.toShared).2 }) := rfl
    rw [← hpre, run_bind_ok hgate, run_bind_ok hrun, hpre]
    dsimp only
    cases (env.wait_synchronized w.toShared).1 with
    | false => exact Or.inr ⟨_, _, rfl, rfl⟩
    | true =>
      refine Or.inl ⟨_, rfl, ?_⟩
      rw [if_pos rfl, run_tryCatch]
      rcases body.run.run _ with ⟨_ | a, w'⟩
      · dsimp only [executed]
        unfold World.raised
        split <;> rfl
      · rfl

theorem execute_admitted {w' : World} (body : Api α) (h : admitted env w = .ok w') :
    (_execute env body).run.run w = executed (body.run.run w') := by
  rcases execute_cases env w body with ⟨u, hu, hrun⟩ | ⟨e, u, hu, -⟩
  · cases h.symm.trans hu
    exact hrun
  · cases h.symm.trans hu

/-- A body that is not admitted does not run. -/
theorem execute_unadmitted {e : Exn} (body : Api α) (h : admitted env w = .error e) :
    ∃ w', (_execute env body).run.run w = (.error e, w') := by
  rcases execute_cases env w body with ⟨u, hu, -⟩ | ⟨e', u, hu, hrun⟩
  · cases h.symm.trans hu
  · cases h.symm.trans hu
    exact ⟨u, hrun⟩

theorem execute_ok {w' w'' : World} {body : Api α} {a : α} (h : admitted env w = .ok w')
    (hbody : body.run.run w' = (.ok a, w'')) : (_execute env body).run.run w = (.ok a, w'') := by
  rw [execute_admitted body h, hbody]
  rfl

theorem execute_error {w' w'' : World} {body : Api α} {e : Exn} (h : admitted env w = .ok w')
    (hbody : body.run.run w' = (.error e, w'')) :
    (_execute env body).run.run w = (.error e, w''.raised e) := by
  rw [execute_admitted body h, hbody]
  rfl

/-! ## Programs that only read the store -/

/-- The program changes nothing, and what it gives is decided by what the names stand for. -/
def ReadsStore (x : Api α) : Prop :=
  ∀ w w' : World, w.block_store.get? = w'.block_store.get? →
    ∃ r, x.run.run w = (r, w) ∧ x.run.run w' = (r, w')

theorem readsStore_pure (a : α) : ReadsStore (pure a : Api α) :=
  fun _ _ _ => ⟨.ok a, rfl, rfl⟩

theorem readsStore_throw (e : Exn) : ReadsStore (throw e : Api α) :=
  fun _ _ _ => ⟨.error e, rfl, rfl⟩

theorem readsStore_lift (x : Except Exn α) : ReadsStore (liftExcept x) :=
  fun _ _ _ => ⟨x, run_lift x _, run_lift x _⟩

theorem readsStore_bind {x : Api α} {f : α → Api β} (hx : ReadsStore x)
    (hf : ∀ a, ReadsStore (f a)) : ReadsStore (x >>= f) := by
  intro w w' hstore
  obtain ⟨r, hr, hr'⟩ := hx w w' hstore
  cases r with
  | error e => exact ⟨.error e, run_bind_error hr f, run_bind_error hr' f⟩
  | ok a =>
    rw [run_bind_ok hr, run_bind_ok hr']
    exact hf a w w' hstore

/-- A program that reads the names, and goes on with what they stand for. -/
theorem readsStore_get {f : World → Api α} (hf : ∀ w, ReadsStore (f w))
    (hsame : ∀ w w' : World, w.block_store.get? = w'.block_store.get? → f w = f w') :
    ReadsStore (get >>= f) := by
  intro w w' hstore
  rw [run_bind_ok (run_get w), run_bind_ok (run_get w'), hsame w w' hstore]
  exact hf w' w w' hstore

theorem find_nid_congr {store store' : BlockStore} (h : store.get? = store'.get?) :
    _find_nid store = _find_nid store' := by
  funext v
  cases v with
  | str sid => rw [_find_nid, _find_nid, h]
  | none | bool | int | float | list | dict => rfl

theorem identity_readsStore (block : BlockIdentity) :
    ReadsStore (_to_firmware_block_identity block) := by
  unfold _to_firmware_block_identity
  cases block.nid with
  | some nid => exact readsStore_bind (readsStore_pure nid) fun _ => readsStore_pure _
  | none =>
    refine readsStore_get ?_ ?_
    · intro w
      rcases w.block_store.get? block.id with _ | _ | nid
      · exact readsStore_bind (readsStore_throw _) fun _ => readsStore_pure _
      · exact readsStore_bind (readsStore_throw _) fun _ => readsStore_pure _
      · exact readsStore_bind (readsStore_pure nid) fun _ => readsStore_pure _
    · intro w w' hstore
      dsimp only
      rw [hstore]

theorem firmwareBlock_readsStore (env : Environment) (block : Block) :
    ReadsStore (_to_firmware_block env block) := by
  unfold _to_firmware_block
  refine readsStore_bind (identity_readsStore _) fun ident => readsStore_get ?_ ?_
  · intro w
    have hlinks : ∀ data,
        ReadsStore (liftExcept (resolve_data_ids (_find_nid w.block_store) data) >>=
          fun data => (pure { id := ident.id, nid := ident.nid, type := block.type, data } :
            Api FirmwareBlock)) :=
      fun data => readsStore_bind (readsStore_lift _) fun _ => readsStore_pure _
    dsimp only
    split
    · exact readsStore_bind (readsStore_lift _) hlinks
    · exact readsStore_bind (readsStore_pure _) hlinks
  · intro w w' hstore
    dsimp only
    rw [find_nid_congr hstore]

/-! ## A service -/

/-- A service that is in sync with its controller, and knows no block by name. -/
def syncedWorld : World :=
  { state := [Op.set_enabled true, .set_connected .USB "/dev/ttyACM0",
      .set_acknowledged someController, .set_synchronized].foldl (StateMachine.apply {})
        (StateMachine.init {} someFirmwareConfig)
    block_store := Bidict.empty }

end devcon_spark.spark_api
