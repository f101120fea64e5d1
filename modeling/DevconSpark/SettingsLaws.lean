-- The laws of the settings. A handler overwrites settings one by one, and calls
-- the listeners after the loop: what fails half-way, and what ends where it began.
import DevconSpark.DatastoreSettings
import DevconSpark.Overwrites
import DevconSpark.Programs
import DevconSpark.Runs

open py_dict programs overwrites runs devcon_spark.exceptions

namespace devcon_spark.datastore_settings

variable {Callback_ : Type}

/-! ## One cell -/

section
variable {S : Type} [DecidableEq S]

/-- The settings that a value holds, if it comes under their id and is valid. -/
def written (id : String) (model_validate : DatastoreValue → Except Exn S)
    (value : DatastoreValue) : Option S :=
  if value.id = id then (model_validate value).toOption else none

/-- Whether a value passes: it comes under another id, or it is valid. -/
def accepts (id : String) (model_validate : DatastoreValue → Except Exn S)
    (value : DatastoreValue) : Bool :=
  value.id ≠ id ∨ (model_validate value).isOk

variable (cell : Cell Callback_ S)

/-- The cell is written over, unless it holds that already. -/
def put (handling : Handling Callback_) (settings : S) : Handling Callback_ :=
  if settings ≠ cell.get handling.toSettingsStore then
    { cell.set handling.toSettingsStore settings with
      happened := handling.happened ++ [.changed] }
  else handling

variable {cell}

theorem receive_rejected {value : DatastoreValue}
    (h : accepts cell.id cell.model_validate value = false)
    (handling : Handling Callback_) :
    ∃ e, (receive cell value).run.run handling = (.error e, handling) := by
  unfold accepts at h
  rw [decide_eq_false_iff_not, not_or, not_not] at h
  obtain ⟨hid, hvalid⟩ := h
  cases hvalidate : cell.model_validate value with
  | ok settings => simp [hvalidate, Except.isOk, Except.toBool] at hvalid
  | error e =>
    refine ⟨e, ?_⟩
    unfold receive
    rw [if_pos hid, hvalidate]
    exact run_bind_error (run_lift _ _) _

theorem receive_other {value : DatastoreValue} (h : value.id ≠ cell.id)
    (handling : Handling Callback_) :
    (receive cell value).run.run handling = (.ok false, handling) := by
  unfold receive
  rw [if_neg h]
  rfl

theorem receive_accepted {value : DatastoreValue}
    (h : accepts cell.id cell.model_validate value = true)
    (handling : Handling Callback_) {settings : S}
    (hsettings : (written cell.id cell.model_validate value).getD
      (cell.get handling.toSettingsStore) = settings) :
    (receive cell value).run.run handling =
      (.ok (settings ≠ cell.get handling.toSettingsStore), put cell handling settings) := by
  unfold written at hsettings
  unfold receive put
  by_cases hid : value.id = cell.id
  · unfold accepts at h
    cases hvalidate : cell.model_validate value with
    | error e => simp [hid, hvalidate, Except.isOk, Except.toBool] at h
    | ok valid =>
      rw [if_pos hid, hvalidate] at hsettings
      obtain rfl : valid = settings := hsettings
      have hlift : (liftExcept (.ok valid) : Handler Callback_ S).run.run handling =
          (.ok valid, handling) := run_lift _ _
      rw [if_pos hid, run_bind_ok hlift, run_bind_ok (run_get _)]
      by_cases hsame : valid ≠ cell.get handling.toSettingsStore
      · rw [if_pos hsame, if_pos hsame, decide_eq_true hsame]
        rfl
      · rw [if_neg hsame, if_neg hsame, decide_eq_false hsame]
        rfl
  · rw [if_neg hid] at hsettings
    obtain rfl : cell.get handling.toSettingsStore = settings := hsettings
    have hsame : ¬ cell.get handling.toSettingsStore ≠ cell.get handling.toSettingsStore :=
      not_not.mpr rfl
    rw [if_neg hid, if_neg hsame, decide_eq_false hsame]
    rfl

end

/-! ## The loop -/

/-- What one turn of a loop does to the settings that the handler keeps, and that it does nothing to
the rest of the store. -/
structure TurnLaws {K R : Type} (turn : DatastoreValue → Handler Callback_ Bool)
    (settings : SettingsStore Callback_ → K) (rest : SettingsStore Callback_ → R)
    (accept : DatastoreValue → Bool) (next : K → DatastoreValue → K) : Prop where
  rejected : ∀ {value}, accept value = false → ∀ handling,
    ∃ e, (turn value).run.run handling = (.error e, handling)
  accepted : ∀ {value}, accept value = true → ∀ handling : Handling Callback_,
    ∃ handling' n, (turn value).run.run handling = (.ok (n ≠ 0), handling') ∧
      settings handling'.toSettingsStore = next (settings handling.toSettingsStore) value ∧
      rest handling'.toSettingsStore = rest handling.toSettingsStore ∧
      handling'.happened = handling.happened ++ List.replicate n .changed ∧
      (n ≠ 0 ↔ next (settings handling.toSettingsStore) value ≠
        settings handling.toSettingsStore)

theorem exists_prefix_cons_iff {α : Type} {P : List α → Prop} {a : α} {l : List α} (hnil : ¬ P []) :
    (∃ p, p <+: a :: l ∧ P p) ↔ ∃ p, p <+: l ∧ P (a :: p) := by
  constructor
  · rintro ⟨p, hp, hP⟩
    rcases List.prefix_cons_iff.mp hp with rfl | ⟨rest, rfl, hrest⟩
    · exact absurd hP hnil
    · exact ⟨rest, hrest, hP⟩
  · rintro ⟨p, hp, hP⟩
    exact ⟨a :: p, List.cons_prefix_cons.mpr ⟨rfl, hp⟩, hP⟩

section
variable {K R : Type} {turn : DatastoreValue → Handler Callback_ Bool}
  {settings : SettingsStore Callback_ → K} {rest : SettingsStore Callback_ → R}
  {accept : DatastoreValue → Bool} {next : K → DatastoreValue → K}

/-- The loop goes on until a value fails, and every change up to there stays. -/
theorem receiveAll_run (laws : TurnLaws turn settings rest accept next)
    (values : List DatastoreValue) (handling : Handling Callback_) :
    ∃ result handling' n, (receiveAll turn values).run.run handling = (result, handling') ∧
      (if values.all accept then result = .ok (n ≠ 0) else ∃ e, result = .error e) ∧
      settings handling'.toSettingsStore =
        (values.takeWhile accept).foldl next (settings handling.toSettingsStore) ∧
      rest handling'.toSettingsStore = rest handling.toSettingsStore ∧
      handling'.happened = handling.happened ++ List.replicate n .changed ∧
      (n ≠ 0 ↔ ∃ p, p <+: values.takeWhile accept ∧
        p.foldl next (settings handling.toSettingsStore) ≠ settings handling.toSettingsStore) := by
  induction values generalizing handling with
  | nil => exact ⟨_, _, 0, rfl, rfl, rfl, rfl, by simp, by simp⟩
  | cons value values ih =>
    cases haccept : accept value with
    | false =>
      obtain ⟨e, he⟩ := laws.rejected haccept handling
      refine ⟨.error e, handling, 0, ?_, ?_, ?_, rfl, by simp, ?_⟩
      · rw [receiveAll, run_bind_error he]
      · simp [haccept]
      · simp [haccept]
      · simp [haccept]
    | true =>
      obtain ⟨handling₁, n₁, hturn, hsettings₁, hrest₁, happened₁, hchanged₁⟩ :=
        laws.accepted haccept handling
      obtain ⟨result, handling₂, n₂, hloop, hresult, hsettings₂, hrest₂, happened₂, hchanged₂⟩ :=
        ih handling₁
      rw [hsettings₁] at hsettings₂ hchanged₂
      refine ⟨result.map (fun later => decide (n₁ ≠ 0) || later), handling₂, n₁ + n₂, ?_, ?_, ?_,
        hrest₂.trans hrest₁, ?_, ?_⟩
      · rw [receiveAll, run_bind_ok hturn, run_bind, hloop]
        cases result <;> rfl
      · rw [List.all_cons, haccept, Bool.true_and]
        split at hresult
        · rename_i hall
          rw [if_pos hall, hresult]
          have hdirty : (decide (n₁ ≠ 0) || decide (n₂ ≠ 0)) = decide (n₁ + n₂ ≠ 0) := by
            rw [← Bool.decide_or]
            exact decide_eq_decide.mpr (by omega)
          exact congrArg Except.ok hdirty
        · rename_i hall
          obtain ⟨e, he⟩ := hresult
          rw [if_neg hall, he]
          exact ⟨e, rfl⟩
      · rw [List.takeWhile_cons_of_pos haccept, List.foldl_cons, hsettings₂]
      · rw [happened₂, happened₁, List.append_assoc, List.replicate_append_replicate]
      · rw [List.takeWhile_cons_of_pos haccept, exists_prefix_cons_iff (by simp)]
        simp only [List.foldl_cons]
        by_cases hnext : next (settings handling.toSettingsStore) value =
            settings handling.toSettingsStore
        · have hn₁ : n₁ = 0 := by_contra fun hne => (hchanged₁.mp hne) hnext
          rw [hn₁, Nat.zero_add]
          rw [hnext] at hchanged₂ ⊢
          exact hchanged₂
        · have hn₁ := hchanged₁.mpr hnext
          exact iff_of_true (by omega) ⟨[], List.nil_prefix, hnext⟩

/-- The whole handler: the listeners are called after the changes, if no value failed. -/
theorem handler_run (laws : TurnLaws turn settings rest accept next)
    {listeners : SettingsStore Callback_ → List Callback_}
    (hlisteners : ∀ s s', rest s' = rest s → listeners s' = listeners s)
    (values : List DatastoreValue) (s : SettingsStore Callback_) :
    ∃ result handling' n, (receiveAll turn values >>= fun dirty =>
        if dirty = true then get >>= fun handling => notify (listeners handling.toSettingsStore)
        else pure PUnit.unit : Handler Callback_ PUnit).run.run { toSettingsStore := s } =
          (result, handling') ∧
      settings handling'.toSettingsStore = (values.takeWhile accept).foldl next (settings s) ∧
      rest handling'.toSettingsStore = rest s ∧
      handling'.happened = List.replicate n .changed ++
        (if values.all accept ∧ n ≠ 0 then (listeners s).map .called else []) ∧
      (n ≠ 0 ↔ ∃ p, p <+: values.takeWhile accept ∧ p.foldl next (settings s) ≠ settings s) := by
  obtain ⟨result, handling', n, hloop, hresult, hsettings, hrest, happened, hchanged⟩ :=
    receiveAll_run laws values { toSettingsStore := s }
  rw [List.nil_append] at happened
  by_cases hall : values.all accept = true
  · rw [if_pos hall] at hresult
    rw [hresult] at hloop
    by_cases hn : n ≠ 0
    · refine ⟨.ok (), { handling' with
        happened := handling'.happened ++ (listeners handling'.toSettingsStore).map .called }, n,
        ?_, hsettings, hrest, ?_, hchanged⟩
      · rw [run_bind_ok hloop, decide_eq_true hn]
        rfl
      · rw [if_pos ⟨hall, hn⟩, ← hlisteners _ _ hrest, ← happened]
    · refine ⟨.ok (), handling', n, ?_, hsettings, hrest, ?_, hchanged⟩
      · rw [run_bind_ok hloop, decide_eq_false hn]
        rfl
      · rw [if_neg fun h => hn h.2, List.append_nil, happened]
  · rw [if_neg hall] at hresult
    obtain ⟨e, rfl⟩ := hresult
    refine ⟨.error e, handling', n, run_bind_error hloop _, hsettings, hrest, ?_, hchanged⟩
    rw [if_neg fun h => hall h.1, List.append_nil, happened]

end

/-! ## What is received -/

section
variable {S : Type} [DecidableEq S] {cell : Cell Callback_ S}

/-- Settings that are received are the only thing in the store that changes. -/
theorem receive_spec {R : Type} {rest : SettingsStore Callback_ → R} {value : DatastoreValue}
    (hget : ∀ s settings, cell.get (cell.set s settings) = settings)
    (hrest : ∀ s settings, rest (cell.set s settings) = rest s)
    (h : accepts cell.id cell.model_validate value = true)
    (handling : Handling Callback_) :
    ∃ handling' n, (receive cell value).run.run handling = (.ok (n ≠ 0), handling') ∧
      cell.get handling'.toSettingsStore =
        (written cell.id cell.model_validate value).getD (cell.get handling.toSettingsStore) ∧
      rest handling'.toSettingsStore = rest handling.toSettingsStore ∧
      handling'.happened = handling.happened ++ List.replicate n .changed ∧
      (n ≠ 0 ↔
        (written cell.id cell.model_validate value).getD (cell.get handling.toSettingsStore) ≠
        cell.get handling.toSettingsStore) := by
  have hrun := receive_accepted h handling rfl
  generalize (written cell.id cell.model_validate value).getD
    (cell.get handling.toSettingsStore) = settings at hrun ⊢
  unfold put at hrun
  by_cases hsame : settings ≠ cell.get handling.toSettingsStore
  · rw [if_pos hsame, decide_eq_true hsame] at hrun
    exact ⟨_, 1, hrun, hget _ _, hrest _ _, rfl, iff_of_true Nat.one_ne_zero hsame⟩
  · rw [if_neg hsame, decide_eq_false hsame] at hrun
    exact ⟨_, 0, hrun, (not_not.mp hsame).symm, rfl, by simp, iff_of_false (not_not.mpr rfl) hsame⟩

variable {id : String} {model_validate : DatastoreValue → Except Exn S} {value : DatastoreValue}

omit [DecidableEq S] in
theorem id_of_rejected (h : accepts id model_validate value = false) : value.id = id := by
  unfold accepts at h
  rw [decide_eq_false_iff_not, not_or, not_not] at h
  exact h.1

end

/-! ## The two handlers -/

section
variable (name : String)

def writtenService : DatastoreValue → Option StoredServiceSettingsValue :=
  written name StoredServiceSettingsValue.model_validate

def writtenUnits : DatastoreValue → Option StoredUnitSettingsValue :=
  written GLOBAL_UNITS_ID StoredUnitSettingsValue.model_validate

def writtenTimezone : DatastoreValue → Option StoredTimezoneSettingsValue :=
  written GLOBAL_TIME_ZONE_ID StoredTimezoneSettingsValue.model_validate

def acceptsService : DatastoreValue → Bool :=
  accepts name StoredServiceSettingsValue.model_validate

def acceptsGlobal (value : DatastoreValue) : Bool :=
  accepts GLOBAL_UNITS_ID StoredUnitSettingsValue.model_validate value &&
    accepts GLOBAL_TIME_ZONE_ID StoredTimezoneSettingsValue.model_validate value

/-- What a change of the service settings leaves as it is. -/
def serviceRest (s : SettingsStore Callback_) :=
  (s.name, s.unit_settings, s.timezone_settings, s.service_listeners)

/-- What a change of the global settings leaves as it is. -/
def globalRest (s : SettingsStore Callback_) :=
  (s.name, s.service_settings, s.global_listeners)

theorem service_turn_laws :
    TurnLaws (service_turn name : DatastoreValue → Handler Callback_ Bool)
      SettingsStore.service_settings serviceRest (acceptsService name)
      fun settings value => (writtenService name value).getD settings where
  rejected {value} h := @receive_rejected _ _ _ (service_cell name) value h
  accepted {value} h :=
    @receive_spec _ _ _ (service_cell name) _ serviceRest value (fun _ _ => rfl) (fun _ _ => rfl) h

theorem global_turn_laws :
    TurnLaws (global_turn : DatastoreValue → Handler Callback_ Bool)
      (fun s => (s.unit_settings, s.timezone_settings)) globalRest acceptsGlobal
      fun settings value => ((writtenUnits value).getD settings.1,
        (writtenTimezone value).getD settings.2) where
  rejected {value} h handling := by
    rcases Bool.and_eq_false_iff.mp h with hunits | htimezone
    · obtain ⟨e, he⟩ := @receive_rejected _ _ _ unit_cell value hunits handling
      exact ⟨e, run_bind_error he _⟩
    -- what comes under the id of the timezone is not for the units
    · have hid : value.id = GLOBAL_TIME_ZONE_ID := id_of_rejected htimezone
      have hother : value.id ≠ GLOBAL_UNITS_ID := by rw [hid]; decide
      obtain ⟨e, he⟩ := @receive_rejected _ _ _ timezone_cell value htimezone handling
      exact ⟨e, (run_bind_ok (receive_other hother handling) _).trans (run_bind_error he _)⟩
  accepted {value} h handling := by
    obtain ⟨hunits, htimezone⟩ := Bool.and_eq_true_iff.mp h
    obtain ⟨handling₁, n₁, hrun₁, hget₁, hrest₁, happened₁, hn₁⟩ :=
      @receive_spec Callback_ _ _ unit_cell _ (fun s => (globalRest s, s.timezone_settings)) value
        (fun _ _ => rfl) (fun _ _ => rfl) hunits handling
    obtain ⟨handling₂, n₂, hrun₂, hget₂, hrest₂, happened₂, hn₂⟩ :=
      @receive_spec Callback_ _ _ timezone_cell _ (fun s => (globalRest s, s.unit_settings)) value
        (fun _ _ => rfl) (fun _ _ => rfl) htimezone handling₁
    obtain ⟨hglobal₁, hzone⟩ := Prod.mk.injEq .. ▸ hrest₁
    obtain ⟨hglobal₂, hunit⟩ := Prod.mk.injEq .. ▸ hrest₂
    refine ⟨handling₂, n₁ + n₂, ?_, ?_, hglobal₂.trans hglobal₁, ?_, ?_⟩
    · refine (run_bind_ok hrun₁ _).trans ((run_bind_ok hrun₂ _).trans ?_)
      rw [run_pure, ← Bool.decide_or]
      exact congrArg (fun dirty => (Except.ok dirty, handling₂)) (decide_eq_decide.mpr (by omega))
    · exact Prod.ext (hunit.trans hget₁) (hget₂.trans (congrArg _ hzone))
    · rw [happened₂, happened₁, List.append_assoc, List.replicate_append_replicate]
    · have hunits' : n₁ ≠ 0 ↔
          (writtenUnits value).getD handling.unit_settings ≠ handling.unit_settings := hn₁
      have htimezone' : n₂ ≠ 0 ↔
          (writtenTimezone value).getD handling₁.timezone_settings ≠
            handling₁.timezone_settings := hn₂
      rw [hzone] at htimezone'
      show n₁ + n₂ ≠ 0 ↔ ¬ (_, _) = (_, _)
      rw [Prod.mk.injEq, not_and_or, ← Ne, ← Ne, ← hunits', ← htimezone']
      omega

end

/-! ## What the listeners hear -/

inductive StoreEvent
  | service (evt : DatastoreEvent)
  | global (evt : DatastoreEvent)

def handle : StoreEvent → Handler Callback_ Unit
  | .service evt => on_service_store_event evt
  | .global evt => on_global_store_event evt

/-- The store after a call, and what happened in it. -/
def handled (s : SettingsStore Callback_) (e : StoreEvent) : Handling Callback_ :=
  ((handle e).run.run { toSettingsStore := s }).2

def next (s : SettingsStore Callback_) (e : StoreEvent) : SettingsStore Callback_ :=
  (handled s e).toSettingsStore

/-- The settings of the kind that an event is about. -/
def SameKind (s s' : SettingsStore Callback_) : StoreEvent → Prop
  | .service _ => s'.service_settings = s.service_settings
  | .global _ => s'.unit_settings = s.unit_settings ∧ s'.timezone_settings = s.timezone_settings

def SameSettings (s s' : SettingsStore Callback_) : Prop :=
  s'.service_settings = s.service_settings ∧ s'.unit_settings = s.unit_settings ∧
    s'.timezone_settings = s.timezone_settings

def listenersOf (s : SettingsStore Callback_) : StoreEvent → List Callback_
  | .service _ => s.service_listeners
  | .global _ => s.global_listeners

/-- A listener was called after the last change. -/
def CalledSince (happened : List (Happening Callback_)) (cb : Callback_) : Prop :=
  ∃ before after, happened = before ++ after ∧ .changed ∉ after ∧ .called cb ∈ after

/-- A call that changes settings of its kind tells every listener, whether it returns or raises,
and one that leaves all settings as they were tells none. -/
structure Noticed (s : SettingsStore Callback_) (e : StoreEvent) : Prop where
  told : SameKind s (next s e) e ∨ ∀ cb ∈ listenersOf s e, CalledSince (handled s e).happened cb
  quiet : SameSettings s (next s e) → ∀ cb, .called cb ∉ (handled s e).happened

theorem called_since_iff {listeners : List Callback_} {n : Nat} (told : Prop) [Decidable told] :
    (∀ cb ∈ listeners, CalledSince (List.replicate n .changed ++
      (if told then listeners.map .called else [])) cb) ↔ listeners = [] ∨ told := by
  by_cases htold : told
  · rw [if_pos htold]
    refine iff_of_true (fun cb hcb => ?_) (Or.inr htold)
    exact ⟨_, _, rfl, by simp, List.mem_map_of_mem hcb⟩
  · rw [if_neg htold, List.append_nil, or_iff_left htold]
    constructor
    · intro h
      cases listeners with
      | nil => rfl
      | cons cb listeners =>
        obtain ⟨before, after, heq, -, hcalled⟩ := h cb List.mem_cons_self
        have hmem : Happening.called cb ∈ List.replicate n Happening.changed := by
          rw [heq]
          exact List.mem_append_right _ hcalled
        cases List.eq_of_mem_replicate hmem
    · rintro rfl cb hcb
      simp at hcb

theorem none_called_iff {listeners : List Callback_} {n : Nat} (told : Prop) [Decidable told] :
    (∀ cb, .called cb ∉ List.replicate n .changed ++
      (if told then listeners.map Happening.called else [])) ↔ listeners = [] ∨ ¬ told := by
  by_cases htold : told
  · rw [if_pos htold, or_iff_left (not_not.mpr htold)]
    constructor
    · intro h
      cases listeners with
      | nil => rfl
      | cons cb listeners => exact absurd (by simp) (h cb)
    · rintro rfl cb
      simp
  · rw [if_neg htold]
    exact iff_of_true (fun cb => by simp) (Or.inr htold)

/-- When a call whose listeners are told under some condition does as it should. -/
theorem noticed_of_happened {s : SettingsStore Callback_} {e : StoreEvent} {n : Nat} {told : Prop}
    [Decidable told] (hsame : SameSettings s (next s e) ↔ SameKind s (next s e) e)
    (happened : (handled s e).happened = List.replicate n .changed ++
      (if told then (listenersOf s e).map .called else [])) :
    Noticed s e ↔ listenersOf s e = [] ∨ (told ↔ ¬ SameKind s (next s e) e) := by
  have hnoticed : Noticed s e ↔ (SameKind s (next s e) e ∨ (listenersOf s e = [] ∨ told)) ∧
      (SameKind s (next s e) e → listenersOf s e = [] ∨ ¬ told) := by
    rw [← called_since_iff told, ← none_called_iff told, ← happened]
    exact ⟨fun h => ⟨h.told, fun hkind => h.quiet (hsame.mpr hkind)⟩,
      fun h => ⟨h.1, fun hall => h.2 (hsame.mp hall)⟩⟩
  rw [hnoticed]
  tauto

/-! ## When the listeners are told -/

/-- The values before the first one that fails. -/
def acceptedOf (s : SettingsStore Callback_) : StoreEvent → List DatastoreValue
  | .service evt => evt.changed.takeWhile (acceptsService s.name)
  | .global evt => evt.changed.takeWhile acceptsGlobal

/-- No value fails. -/
def allAccepted (s : SettingsStore Callback_) : StoreEvent → Bool
  | .service evt => evt.changed.all (acceptsService s.name)
  | .global evt => evt.changed.all acceptsGlobal

/-- Some value differs from the settings that are stored. -/
def SomeDiffers (s : SettingsStore Callback_) (values : List DatastoreValue) : StoreEvent → Prop
  | .service _ => ∃ x ∈ values.filterMap (writtenService s.name), x ≠ s.service_settings
  | .global _ => (∃ x ∈ values.filterMap writtenUnits, x ≠ s.unit_settings) ∨
      ∃ x ∈ values.filterMap writtenTimezone, x ≠ s.timezone_settings

/-- The last value of each kind of settings, if there is one, is what is stored. -/
def LastAgrees (s : SettingsStore Callback_) (values : List DatastoreValue) : StoreEvent → Prop
  | .service _ => lastOf (writtenService s.name) s.service_settings values = s.service_settings
  | .global _ => lastOf writtenUnits s.unit_settings values = s.unit_settings ∧
      lastOf writtenTimezone s.timezone_settings values = s.timezone_settings

/-- No one listens; or no value fails, and where one differs from the settings that are stored, the
last ones do; or one fails, and the last ones before it do not. -/
def Heeded (s : SettingsStore Callback_) (e : StoreEvent) : Prop :=
  listenersOf s e = [] ∨
    (allAccepted s e ∧ (SomeDiffers s (acceptedOf s e) e → ¬ LastAgrees s (acceptedOf s e) e)) ∨
      (¬ allAccepted s e ∧ LastAgrees s (acceptedOf s e) e)

/-- What a call did, for an event of either kind. -/
structure CallLaws (s : SettingsStore Callback_) (e : StoreEvent) (n : Nat) : Prop where
  same : SameSettings s (next s e) ↔ SameKind s (next s e) e
  happened : (handled s e).happened = List.replicate n .changed ++
    (if allAccepted s e ∧ n ≠ 0 then (listenersOf s e).map .called else [])
  agrees : SameKind s (next s e) e ↔ LastAgrees s (acceptedOf s e) e
  differs : n ≠ 0 ↔ SomeDiffers s (acceptedOf s e) e

theorem service_call_laws (s : SettingsStore Callback_) (evt : DatastoreEvent) :
    ∃ n, CallLaws s (.service evt) n := by
  obtain ⟨result, handling', n, hrun, hsettings, hrest, happened, hchanged⟩ :=
    @handler_run _ _ _ _ _ _ _ _ (service_turn_laws s.name) SettingsStore.service_listeners
      (fun s s' h => congrArg (·.2.2.2) h) evt.changed s
  have hcall : handled s (.service evt) = handling' := by
    unfold handled handle on_service_store_event
    rw [run_bind_ok (run_get _)]
    exact congrArg Prod.snd hrun
  simp only [foldl_eq_lastOf] at hsettings hchanged
  rw [exists_prefix_ne_iff] at hchanged
  have hunits : handling'.unit_settings = s.unit_settings := congrArg (·.2.1) hrest
  have htimezone : handling'.timezone_settings = s.timezone_settings := congrArg (·.2.2.1) hrest
  refine ⟨n, ?_, ?_, ?_, hchanged⟩
  · unfold next
    rw [hcall]
    exact and_iff_left ⟨hunits, htimezone⟩
  · rw [hcall]
    exact happened
  · unfold next
    rw [hcall]
    show handling'.service_settings = s.service_settings ↔ _
    rw [hsettings]
    rfl

theorem global_call_laws (s : SettingsStore Callback_) (evt : DatastoreEvent) :
    ∃ n, CallLaws s (.global evt) n := by
  obtain ⟨result, handling', n, hrun, hsettings, hrest, happened, hchanged⟩ :=
    @handler_run _ _ _ _ _ _ _ _ global_turn_laws SettingsStore.global_listeners
      (fun s s' h => congrArg (·.2.2) h) evt.changed s
  have hcall : handled s (.global evt) = handling' := congrArg Prod.snd hrun
  simp only [foldl_pair_eq_lastOf] at hsettings hchanged
  have hservice : handling'.service_settings = s.service_settings := congrArg (·.2.1) hrest
  obtain ⟨hunits, htimezone⟩ := Prod.mk.injEq .. ▸ hsettings
  refine ⟨n, ?_, ?_, ?_, ?_⟩
  · unfold next
    rw [hcall]
    exact and_iff_right hservice
  · rw [hcall]
    exact happened
  · unfold next
    rw [hcall]
    show handling'.unit_settings = _ ∧ handling'.timezone_settings = _ ↔ _
    rw [hunits, htimezone]
    rfl
  · rw [hchanged]
    show _ ↔ (∃ x ∈ _, _) ∨ ∃ x ∈ _, _
    rw [← exists_prefix_ne_iff, ← exists_prefix_ne_iff, ← exists_or]
    refine exists_congr fun p => ?_
    rw [Ne, Prod.mk.injEq, not_and_or, and_or_left]
    rfl

/-- A call does as it should exactly under a condition on the event. -/
theorem noticed_iff (s : SettingsStore Callback_) (e : StoreEvent) : Noticed s e ↔ Heeded s e := by
  obtain ⟨n, laws⟩ : ∃ n, CallLaws s e n := by
    cases e with
    | service evt => exact service_call_laws s evt
    | global evt => exact global_call_laws s evt
  have hdiffers : ¬ LastAgrees s (acceptedOf s e) e → SomeDiffers s (acceptedOf s e) e := by
    intro h
    cases e with
    | service evt => exact ⟨_, lastOf_mem h, h⟩
    | global evt =>
      rcases not_and_or.mp h with hunits | htimezone
      · exact Or.inl ⟨_, lastOf_mem hunits, hunits⟩
      · exact Or.inr ⟨_, lastOf_mem htimezone, htimezone⟩
  rw [noticed_of_happened laws.same laws.happened, laws.agrees, laws.differs]
  unfold Heeded
  tauto

/-- In every run of events, each call does as it should exactly where each event meets the
condition. -/
theorem changes_are_noticed_iff (s : SettingsStore Callback_) (events : List StoreEvent) :
    EachStep next Noticed s events ↔ EachStep next Heeded s events := by
  unfold EachStep
  simp only [noticed_iff]

/-! ## Silent changes -/

/-- The units are valid, and the timezone is not. -/
def halfValid : DatastoreEvent :=
  { changed := [
      { namespace_ := "brewblox-global", id := GLOBAL_UNITS_ID
        extra := [("temperature", .str "degF")] },
      { namespace_ := "brewblox-global", id := GLOBAL_TIME_ZONE_ID, extra := [("name", .null)] }] }

/-- A store with a listener to its global settings. -/
def heardStore : SettingsStore Unit where
  name := "spark"
  service_settings := { namespace_ := "spark-service", id := "spark" }
  unit_settings := { namespace_ := "brewblox-global", id := GLOBAL_UNITS_ID }
  timezone_settings := { namespace_ := "brewblox-global", id := GLOBAL_TIME_ZONE_ID }
  global_listeners := [()]

theorem half_valid_event_is_silent : ¬ EachStep next Noticed heardStore [.global halfValid] := by
  intro h
  have hnoticed : Noticed heardStore (.global halfValid) := h [] _ (List.prefix_refl _)
  have hunits : (next heardStore (.global halfValid)).unit_settings.temperature = .degF := rfl
  have happened : (handled heardStore (.global halfValid)).happened = [.changed] := rfl
  rcases hnoticed.told with hsame | hcalled
  · rw [hsame.1] at hunits
    cases hunits
  · obtain ⟨before, after, heq, -, hmem⟩ := hcalled () (List.mem_singleton.mpr rfl)
    rw [happened] at heq
    have hcall : Happening.called () ∈ [Happening.changed] := by
      rw [heq]
      exact List.mem_append_right before hmem
    simp at hcall

end devcon_spark.datastore_settings
