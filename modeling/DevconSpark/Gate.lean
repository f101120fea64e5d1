-- The gate of `SparkApi._execute`. A call checks the gate, waits for the
-- synchronized state, and only then runs its body. Any other task may change
-- the state machine in between, in any order.
import DevconSpark.Runs
import DevconSpark.StateMachine

open devcon_spark.exceptions devcon_spark.state_machine runs

namespace devcon_spark.gate

/-! ## The calls and the tasks around them -/

/-- Where a call of `_execute` is. `asyncio.wait_for` runs the wait in a task
of its own, so a call goes through the event loop even when the event is set:
the task has to start, and the call comes back when it is done. -/
inductive Phase
  | raised (ex : Exn)
  | cancelled
  /-- The task of `wait_synchronized` did not start yet. -/
  | scheduled
  /-- The task waits for `_synchronized_ev`. -/
  | waiting
  /-- The wait is over, and the call comes back when the loop gets to it. -/
  | released
  /-- The body runs. -/
  | body
  deriving DecidableEq

/-- The checks of `_execute` before its wait. -/
def check (state : StateMachine) : Phase :=
  if state.is_updating then
    .raised { kind := .UpdateInProgress, msg := "Update is in progress" }
  else
    match state.check_compatible with
    | .error ex => .raised ex
    | .ok _ => .scheduled

structure Service where
  state : StateMachine
  calls : List Phase

inductive Action
  /-- Some task changes the state machine. -/
  | change (op : Op)
  /-- Some task calls `_execute`. -/
  | call
  /-- The task of the wait of call `i` starts. -/
  | wait (i : Nat)
  /-- The timer of `wait_for` fires. A call that is released can still time
  out, when its task did not come to its end yet. -/
  | timeout (i : Nat)
  | cancel (i : Nat)
  /-- Call `i` comes back from its wait, and runs its body. -/
  | resume (i : Nat)
  deriving DecidableEq

/-- `Event.set` wakes every task that waits. -/
def wake : Phase → Phase
  | .waiting => .released
  | p => p

def wakes (state : StateMachine) (op : Op) : Bool :=
  op = .set_synchronized && state.acknowledged_ev

def timedOut : Exn :=
  { kind := .NotConnected, msg := "Timed out waiting for synchronized state" }

/-- What one action does to the call that it is about. -/
def move (state : StateMachine) : Action → Phase → Option Phase
  | .wait _, .scheduled => some (if state.synchronized_ev then .released else .waiting)
  | .timeout _, .scheduled | .timeout _, .waiting | .timeout _, .released =>
    some (.raised timedOut)
  | .cancel _, .scheduled | .cancel _, .waiting | .cancel _, .released => some .cancelled
  | .resume _, .released => some .body
  | _, _ => none

def Service.advance (s : Service) (a : Action) (i : Nat) : Option Service :=
  (s.calls[i]?).bind fun p =>
    (move s.state a p).map fun q => { s with calls := s.calls.set i q }

def step (config : ServiceConfig) (s : Service) : Action → Option Service
  | .change op =>
    some
      { state := s.state.apply config op
        calls := if wakes s.state op then s.calls.map wake else s.calls }
  | .call => some { s with calls := s.calls ++ [check s.state] }
  | .wait i => s.advance (.wait i) i
  | .timeout i => s.advance (.timeout i) i
  | .cancel i => s.advance (.cancel i) i
  | .resume i => s.advance (.resume i) i

/-- The changes that a run makes, in order. -/
def changes (as : List Action) : List Op :=
  as.filterMap fun
    | .change op => some op
    | _ => none

/-- How many calls a run makes. -/
def callCount (as : List Action) : Nat := as.countP (· = .call)

/-! ## What may close the gate again -/

/-- A handshake that the state machine takes, and that the service is not
compatible with. -/
def BadHandshake (config : ServiceConfig) (state : StateMachine) (op : Op) : Prop :=
  ∃ controller, op = .set_acknowledged controller ∧ state.synchronized_ev = false ∧
    (StateMachine.firmwareErrorOf config state.status_desc.service controller =
        some .INCOMPATIBLE ∨
      StateMachine.identityErrorOf state.status_desc.service controller = some .INCOMPATIBLE)

/-- A disconnect, or a handshake that the state machine takes and that the
service is compatible with. -/
def GoodHandshake (config : ServiceConfig) (state : StateMachine) (op : Op) : Prop :=
  op = .set_disconnected ∨
    ∃ controller, op = .set_acknowledged controller ∧ state.synchronized_ev = false ∧
      ¬ BadHandshake config state op

def StartsUpdate (_ : StateMachine) (op : Op) : Prop := op = .set_updating

def EndsUpdate (_ : StateMachine) (op : Op) : Prop := op = .set_disconnected

/-- Every update that started is over, since the connection went down, and
every incompatible handshake was followed by a compatible one or by a
disconnect. -/
def Quiet (config : ServiceConfig) (state : StateMachine) (ops : List Op) : Prop :=
  Settled (StateMachine.apply config) StartsUpdate EndsUpdate state ops ∧
    Settled (StateMachine.apply config) (BadHandshake config) (GoodHandshake config) state ops

/-! ## The two flags of the gate -/

theorem not_updating_iff_settled (config : ServiceConfig) {state : StateMachine}
    (h : state.updating_ev = false) (ops : List Op) :
    (ops.foldl (StateMachine.apply config) state).updating_ev = false ↔
      Settled (StateMachine.apply config) StartsUpdate EndsUpdate state ops := by
  rw [← flag_down_iff_settled (fun s => s.updating_ev = true) _ _ _ (by simp [h])]
  · simp
  · intro s op hop
    cases hop
    rfl
  · intro s op hop
    cases hop
    simp [StateMachine.apply, StateMachine.set_disconnected]
  · intro s op hs he
    cases op with
    | set_updating => exact absurd rfl hs
    | set_disconnected => exact absurd rfl he
    | set_enabled enabled => rfl
    | set_connected kind address => rfl
    | set_acknowledged controller =>
      simp only [StateMachine.apply, StateMachine.set_acknowledged]
      split <;> rfl
    | set_synchronized =>
      simp only [StateMachine.apply, StateMachine.set_synchronized]
      split <;> rfl

def Incompatible (state : StateMachine) : Prop :=
  state.status_desc.firmware_error = some .INCOMPATIBLE ∨
    state.status_desc.identity_error = some .INCOMPATIBLE

theorem check_compatible_ok_iff (state : StateMachine) :
    state.check_compatible = .ok () ↔ ¬ Incompatible state := by
  unfold StateMachine.check_compatible Incompatible
  split
  · simp_all
  · split <;> simp_all

theorem compatible_iff_settled (config : ServiceConfig) {state : StateMachine}
    (h : state.check_compatible = .ok ()) (ops : List Op) :
    (ops.foldl (StateMachine.apply config) state).check_compatible = .ok () ↔
      Settled (StateMachine.apply config) (BadHandshake config) (GoodHandshake config)
        state ops := by
  rw [check_compatible_ok_iff] at h ⊢
  refine flag_down_iff_settled Incompatible ?_ ?_ ?_ h ops
  · rintro s op ⟨controller, rfl, hsync, hbad⟩
    simpa [Incompatible, StateMachine.apply, StateMachine.set_acknowledged, hsync] using hbad
  · rintro s op (rfl | ⟨controller, rfl, hsync, hgood⟩) hbad
    · simp [Incompatible, StateMachine.apply, StateMachine.set_disconnected] at hbad
    · apply hgood
      refine ⟨controller, rfl, hsync, ?_⟩
      simpa [Incompatible, StateMachine.apply, StateMachine.set_acknowledged, hsync] using hbad
  · intro s op hbad hgood
    unfold Incompatible
    cases op with
    | set_updating => rfl
    | set_disconnected => exact absurd (Or.inl rfl) hgood
    | set_enabled enabled => rfl
    | set_connected kind address => rfl
    | set_acknowledged controller =>
      cases hsync : s.synchronized_ev with
      | true => simp [StateMachine.apply, StateMachine.set_acknowledged, hsync]
      | false => exact absurd (Or.inr ⟨controller, rfl, hsync, hbad⟩) hgood
    | set_synchronized =>
      simp only [StateMachine.apply, StateMachine.set_synchronized]
      split <;> rfl

/-- From an open gate, it is open after some changes exactly if they are quiet. -/
theorem gate_open_iff_quiet (config : ServiceConfig) {state : StateMachine}
    (h : state.GateOpen) (ops : List Op) :
    (ops.foldl (StateMachine.apply config) state).GateOpen ↔ Quiet config state ops := by
  unfold StateMachine.GateOpen Quiet
  rw [← not_updating_iff_settled config h.1, ← compatible_iff_settled config h.2]
  rfl

/-! ## The life of a call -/

/-- A call that its checks refuse has the exception of the check. -/
theorem check_refuses {state : StateMachine} (h : ¬ state.GateOpen) :
    ∃ ex, check state = .raised ex := by
  unfold check StateMachine.GateOpen at *
  split
  · exact ⟨_, rfl⟩
  · rcases hc : state.check_compatible with ex | ⟨⟩
    · exact ⟨ex, rfl⟩
    · simp_all

theorem advance_some {s t : Service} {a : Action} {i : Nat} (h : s.advance a i = some t) :
    ∃ p q, s.calls[i]? = some p ∧ move s.state a p = some q ∧
      t = { s with calls := s.calls.set i q } := by
  unfold Service.advance at h
  obtain ⟨p, hp, hq⟩ := Option.bind_eq_some_iff.mp h
  obtain ⟨q, hmove, rfl⟩ := Option.map_eq_some_iff.mp hq
  exact ⟨p, q, hp, hmove, rfl⟩

/-- What one action can do: a change, a new call, or a move of one call. -/
theorem step_cases {config : ServiceConfig} {s t : Service} {a : Action}
    (h : step config s a = some t) :
    (∃ op, a = .change op ∧ t.state = s.state.apply config op ∧
        (t.calls = s.calls ∨ t.calls = s.calls.map wake)) ∨
      (a = .call ∧ t.state = s.state ∧ t.calls = s.calls ++ [check s.state]) ∨
      (changes [a] = [] ∧ a ≠ .call ∧ t.state = s.state ∧
        ∃ i p q, s.calls[i]? = some p ∧ move s.state a p = some q ∧
          t.calls = s.calls.set i q) := by
  cases a with
  | change op =>
    left
    cases h
    refine ⟨op, rfl, rfl, ?_⟩
    simp only
    split
    · exact Or.inr rfl
    · exact Or.inl rfl
  | call =>
    right; left
    cases h
    exact ⟨rfl, rfl, rfl⟩
  | wait i | timeout i | cancel i | resume i =>
    right; right
    obtain ⟨p, q, hp, hq, rfl⟩ := advance_some h
    exact ⟨rfl, by simp, rfl, i, p, q, hp, hq, rfl⟩

theorem step_state {config : ServiceConfig} {s t : Service} {a : Action}
    (h : step config s a = some t) :
    t.state = (changes [a]).foldl (StateMachine.apply config) s.state := by
  rcases step_cases h with ⟨op, rfl, hstate, -⟩ | ⟨rfl, hstate, -⟩ | ⟨hno, -, hstate, -⟩
  · exact hstate
  · exact hstate
  · rw [hno]
    exact hstate

theorem step_callCount {config : ServiceConfig} {s t : Service} {a : Action}
    (h : step config s a = some t) : t.calls.length = s.calls.length + callCount [a] := by
  rcases step_cases h with ⟨op, rfl, -, hc⟩ | ⟨rfl, -, hc⟩ | ⟨-, hne, -, i, p, q, -, -, hc⟩
  · rcases hc with hc | hc <;> simp [hc, callCount]
  · simp [hc, callCount]
  · simp [hc, callCount, hne]

/-- A call that raised stays so. -/
theorem step_raised {config : ServiceConfig} {s t : Service} {a : Action} {i : Nat} {ex : Exn}
    (h : step config s a = some t) (hi : s.calls[i]? = some (.raised ex)) :
    t.calls[i]? = some (.raised ex) := by
  rcases step_cases h with ⟨op, -, -, hc | hc⟩ | ⟨-, -, hc⟩ | ⟨-, -, -, j, p, q, hp, hq, hc⟩
  · rw [hc, hi]
  · rw [hc, List.getElem?_map, hi]
    rfl
  · rw [hc, List.getElem?_append_left (List.getElem?_eq_some_iff.mp hi).1, hi]
  · rw [hc]
    by_cases hij : j = i
    · subst hij
      rw [hi] at hp
      cases hp
      cases a <;> simp [move] at hq
    · rw [List.getElem?_set_ne hij, hi]

/-! ## Whole runs -/

theorem changes_append (as bs : List Action) : changes (as ++ bs) = changes as ++ changes bs :=
  List.filterMap_append

theorem callCount_append (as bs : List Action) :
    callCount (as ++ bs) = callCount as + callCount bs :=
  List.countP_append

theorem run_state {config : ServiceConfig} {s t : Service} {as : List Action}
    (h : run (step config) s as = some t) :
    t.state = (changes as).foldl (StateMachine.apply config) s.state := by
  induction as generalizing s with
  | nil =>
    cases h
    rfl
  | cons a as ih =>
    obtain ⟨u, hu, hrun⟩ := run_cons_some h
    rw [ih hrun, step_state hu, ← List.foldl_append, ← changes_append]
    rfl

theorem run_callCount {config : ServiceConfig} {s t : Service} {as : List Action}
    (h : run (step config) s as = some t) :
    t.calls.length = s.calls.length + callCount as := by
  induction as generalizing s with
  | nil =>
    cases h
    rfl
  | cons a as ih =>
    obtain ⟨u, hu, hrun⟩ := run_cons_some h
    have hone := step_callCount hu
    have happ := callCount_append [a] as
    rw [List.singleton_append] at happ
    have hrest := ih hrun
    omega

/-- The action that made call `i`. -/
theorem split_at_call {as : List Action} {i : Nat} (h : i < callCount as) :
    ∃ pre mid, as = pre ++ .call :: mid ∧ callCount pre = i := by
  induction as generalizing i with
  | nil => simp [callCount] at h
  | cons a as ih =>
    have happ := callCount_append [a] as
    rw [List.singleton_append] at happ
    by_cases ha : a = .call
    · subst ha
      cases i with
      | zero => exact ⟨[], as, rfl, rfl⟩
      | succ i =>
        have hone : callCount [Action.call] = 1 := by decide
        obtain ⟨pre, mid, rfl, hpre⟩ := ih (i := i) (by omega)
        refine ⟨.call :: pre, mid, rfl, ?_⟩
        have hcons := callCount_append [.call] pre
        rw [List.singleton_append] at hcons
        omega
    · have hone : callCount [a] = 0 := by simp [callCount, ha]
      obtain ⟨pre, mid, rfl, hpre⟩ := ih (i := i) (by omega)
      refine ⟨a :: pre, mid, rfl, ?_⟩
      have hcons := callCount_append [a] pre
      rw [List.singleton_append] at hcons
      omega

theorem resume_released {config : ServiceConfig} {s t : Service} {i : Nat}
    (h : step config s (.resume i) = some t) :
    s.calls[i]? = some .released ∧ t.state = s.state := by
  obtain ⟨p, q, hp, hq, rfl⟩ := advance_some h
  cases p <;> simp_all [move]

/-- Whenever a call runs its body, then the gate is open at that moment if and
only if what happened since the checks of this call was quiet: no update that
is still going on was started, and the last handshake taken, if any, was a
compatible one. -/
theorem the_gate_holds_at_the_body_iff_quiet {config : ServiceConfig}
    {fw_config : FirmwareConfig} {as : List Action} {s t : Service} {i : Nat}
    (hrun : run (step config) ⟨StateMachine.init config fw_config, []⟩ as = some s)
    (hbody : step config s (.resume i) = some t) :
    ∃ pre mid, as = pre ++ .call :: mid ∧ callCount pre = i ∧
      (t.state.GateOpen ↔
        Quiet config
          ((changes pre).foldl (StateMachine.apply config) (StateMachine.init config fw_config))
          (changes mid)) := by
  obtain ⟨hrel, hsame⟩ := resume_released hbody
  have hlen := run_callCount hrun
  have hi := (List.getElem?_eq_some_iff.mp hrel).1
  have hcalled : i < callCount as := by simpa [hlen] using hi
  obtain ⟨pre, mid, rfl, hpre⟩ := split_at_call hcalled
  obtain ⟨u, hu, hmid⟩ := run_append_some hrun
  obtain ⟨v, hv, hrest⟩ := run_cons_some hmid
  cases hv
  have hulen : u.calls.length = i := by simpa [hpre] using run_callCount hu
  -- the checks of this call passed, or it would still be refused
  have hopen : u.state.GateOpen := by
    by_contra hclosed
    obtain ⟨ex, hex⟩ := check_refuses hclosed
    have hstay := invariant (I := fun x => x.calls[i]? = some (.raised ex))
      (fun x a y hx hy => step_raised hy hx) (by simp [← hulen, hex]) hrest
    rw [hrel] at hstay
    cases hstay
  refine ⟨pre, mid, rfl, hpre, ?_⟩
  rw [hsame, run_state hrest, ← run_state hu]
  exact gate_open_iff_quiet config hopen (changes mid)

/-! ## An update during the wait -/

def idle : Service := ⟨StateMachine.init {} someFirmwareConfig, []⟩

/-- A call that passed its checks waits while the controller is acknowledged. -/
def waitingCall : List Action :=
  [.change (.set_connected .TCP "spark:8332"), .change (.set_acknowledged someController),
    .call, .wait 0]

/-- The flasher starts an update during the wait, the synchronizer comes to its
end, and the body of the call runs in the middle of the update. -/
theorem a_body_runs_during_an_update :
    (run (step {}) idle
      (waitingCall ++ [.change .set_updating, .change .set_synchronized, .resume 0])).map
        (fun s => (s.calls, s.state.is_updating)) = some ([.body], true) := by
  decide

/-- Without the update, the wait is quiet and the gate is open at the body. -/
theorem a_body_runs_after_a_quiet_wait :
    ∃ s t, run (step {}) idle (waitingCall ++ [.change .set_synchronized]) = some s ∧
      step {} s (.resume 0) = some t ∧ t.state.GateOpen ∧
      ∃ pre mid, waitingCall ++ [.change .set_synchronized] = pre ++ .call :: mid ∧
        callCount pre = 0 ∧
        (t.state.GateOpen ↔
          Quiet {} ((changes pre).foldl (StateMachine.apply {}) idle.state) (changes mid)) :=
  ⟨_, _, rfl, rfl, by decide,
    the_gate_holds_at_the_body_iff_quiet (show run (step {}) idle _ = _ from rfl) rfl⟩

end devcon_spark.gate
