-- The laws of the synchronizer: when the synchronized state speaks about the
-- connection that is there. The guard of `set_synchronized` looks at one flag
-- only, so a connection that was made again, and greeted, passes it.
import DevconSpark.Synchronization

open devcon_spark.state_machine runs

namespace devcon_spark.synchronization

/-- All that the synchronized state stands for was done over the connection
that was made last. -/
structure Current (s : Service) : Prop where
  checked : s.done.checked = some s.connections
  loaded : s.done.loaded = some s.connections
  wrote : s.done.wrote = some s.connections

/-! ## After the check -/

/-- The synchronizer passed `check_compatible`, and is not done yet. -/
def Place.past : Place → Bool
  | .readingNames _ | .extractingNames | .writingNames _ | .removingNames
  | .patchingSysInfo _ => true
  | _ => false

/-- What is under way or done after the check, is so over the connection that
was made last. -/
def Kept (s : Service) : Prop :=
  match s.place with
  | .readingNames sent => sent = s.connections
  | .extractingNames | .writingNames _ | .removingNames =>
    s.done.loaded = some s.connections
  | .patchingSysInfo sent => sent = s.connections ∧ s.done.loaded = some s.connections
  | _ => True

/-- From `s` to `t` the synchronizer was past its check all the time. -/
structure Onward (s t : Service) : Prop where
  past : s.place.past = true
  checked : t.done.checked = s.done.checked
  kept : t.connections = s.connections → Kept s → Kept t

theorem wakeConnected_past {p : Place} (h : (Service.wakeConnected p).past = true) :
    Service.wakeConnected p = p := by
  cases p <;> first | rfl | simp [Service.wakeConnected, Place.past] at h

theorem wakeDisconnected_past {p : Place} (h : (Service.wakeDisconnected p).past = true) :
    Service.wakeDisconnected p = p := by
  cases p <;> first | rfl | simp [Service.wakeDisconnected, Place.past] at h

theorem wakeAcknowledged_past {p : Place} (h : (Service.wakeAcknowledged p).past = true) :
    Service.wakeAcknowledged p = p := by
  cases p <;> first | rfl | simp [Service.wakeAcknowledged, Place.past] at h

/-- A step that moves neither the synchronizer nor its record. -/
theorem onward_same {s t : Service} (hp : t.place = s.place) (hd : t.done = s.done)
    (ht : t.place.past = true) : Onward s t where
  past := hp ▸ ht
  checked := by rw [hd]
  kept hc hk := by
    unfold Kept at *
    rw [hp, hd, hc]
    exact hk

theorem send_past {s : Service} {place : Place} (h : (s.send place).place.past = true) :
    s.send place = { s with place } := by
  unfold Service.send at *
  split
  · rfl
  · rename_i hno
    simp [if_neg hno, Service.fail, Place.past] at h

theorem patchSysInfo_past {s : Service} (h : (s.patchSysInfo).place.past = true) :
    s.patchSysInfo = { s with place := .patchingSysInfo s.connections } :=
  send_past h

theorem removeLegacyNames_onward {s : Service} {hadNames : Bool}
    (hs : s.place.past = true) (hk : Kept s → s.done.loaded = some s.connections)
    (h : (s.removeLegacyNames hadNames).place.past = true) :
    Onward s (s.removeLegacyNames hadNames) := by
  unfold Service.removeLegacyNames at *
  split
  · exact ⟨hs, rfl, fun _ hkept => hk hkept⟩
  · rename_i hno
    rw [if_neg hno] at h
    rw [patchSysInfo_past h]
    exact ⟨hs, rfl, fun _ hkept => ⟨rfl, hk hkept⟩⟩

theorem writeLegacyNames_onward {s : Service} {hadNames : Bool}
    {names : List (Option String × Option Int)}
    (hs : s.place.past = true) (hk : Kept s → s.done.loaded = some s.connections)
    (h : (s.writeLegacyNames names hadNames).place.past = true) :
    Onward s (s.writeLegacyNames names hadNames) := by
  unfold Service.writeLegacyNames at *
  split
  · rename_i hnil
    rw [if_pos hnil] at h
    exact removeLegacyNames_onward hs hk h
  · rename_i hnil
    rw [if_neg hnil] at h
    split
    · exact ⟨hs, rfl, fun _ hkept => hk hkept⟩
    · rename_i hno
      rw [if_neg hno] at h
      exact removeLegacyNames_onward hs hk h

theorem finish_not_past (s : Service) (sent : Nat) : (s.finish sent).place.past = false := by
  unfold Service.finish
  split <;> rfl

/-- Only the check starts the part of `synchronize` after it. -/
theorem step_onward {config : ServiceConfig} {s t : Service} {a : Action}
    (h : step config s a = some t) (ha : a ≠ .check) (ht : t.place.past = true) :
    Onward s t := by
  cases a with
  | check => exact absurd rfl ha
  | retry | enabledSeen | dial up | linked =>
    simp only [step] at h
    split at h <;> cases h
    exact onward_same rfl rfl ht
  | connected connection_kind address =>
    simp only [step] at h
    split at h <;> cases h
    have hw := wakeConnected_past ht
    refine ⟨hw ▸ ht, rfl, fun hc => ?_⟩
    simp at hc
  | disconnected =>
    simp only [step] at h
    split at h <;> cases h <;> exact onward_same (wakeDisconnected_past ht) rfl ht
  | handshake controller =>
    cases h
    unfold Service.greet at *
    split
    · rename_i hsync
      rw [if_pos hsync] at ht
      exact onward_same rfl rfl ht
    · rename_i hsync
      rw [if_neg hsync] at ht
      exact onward_same (wakeAcknowledged_past ht) rfl ht
  | settingsChanged enabled =>
    cases h
    exact onward_same rfl rfl ht
  | synchronize enabled =>
    simp only [step] at h
    split at h
    · split at h <;> cases h
      · rw [send_past ht] at ht
        cases ht
      · cases ht
    · cases h
  | settingsReply enabled reply =>
    simp only [step] at h
    split at h <;> cases h <;> cases ht
  | connectedSeen | prompted | ping | acknowledgedSeen | handshakeTimeout | restart =>
    simp only [step] at h
    split at h <;> cases h <;> cases ht
  | names reply =>
    simp only [step] at h
    split at h <;> cases h
    · rename_i sent blocks hplace
      refine ⟨by simp [hplace, Place.past], rfl, fun hc hk => ?_⟩
      simp only [Kept, hplace] at hk
      simp [Kept, Service.loadNames, Service.during, hk]
    · cases ht
  | legacyNames names =>
    simp only [step] at h
    split at h <;> cases h
    rename_i hplace
    apply writeLegacyNames_onward _ _ ht
    · simp [hplace, Place.past]
    · intro hk
      simpa [Kept, hplace] using hk
  | nameWritten reply =>
    simp only [step] at h
    split at h
    · rename_i name names hplace
      cases reply with
      | error ex =>
        cases h
        apply writeLegacyNames_onward _ _ ht
        · simp [hplace, Place.past]
        · intro hk
          simpa [Kept, hplace] using hk
      | ok _ =>
        cases h
        have hstored : Onward { s with block_store := s.block_store.put name.1 name.2 } _ :=
          writeLegacyNames_onward (by simp [hplace, Place.past])
            (by intro hk; simpa [Kept, hplace] using hk) ht
        exact ⟨hstored.past, hstored.checked, hstored.kept⟩
    · cases h
  | namesRemoved reply =>
    simp only [step] at h
    split at h <;> cases h
    · rename_i hplace
      rw [patchSysInfo_past ht]
      refine ⟨by simp [hplace, Place.past], rfl, fun _ hk => ⟨rfl, ?_⟩⟩
      simpa [Kept, hplace] using hk
    · cases ht
  | sysinfo reply =>
    simp only [step] at h
    split at h <;> cases h
    · simp [finish_not_past] at ht
    · cases ht

/-! ## The number of the connection -/

def isConnected : Action → Bool
  | .connected _ _ => true
  | _ => false

theorem send_connections (s : Service) (place : Place) :
    (s.send place).connections = s.connections ∧ (s.send place).greeted = s.greeted ∧
      (s.send place).state = s.state := by
  unfold Service.send
  split <;> exact ⟨rfl, rfl, rfl⟩

theorem writeLegacyNames_connections (s : Service) (names : List (Option String × Option Int))
    (hadNames : Bool) :
    (s.writeLegacyNames names hadNames).connections = s.connections ∧
      (s.writeLegacyNames names hadNames).greeted = s.greeted ∧
      (s.writeLegacyNames names hadNames).state = s.state := by
  have hremove : (s.removeLegacyNames hadNames).connections = s.connections ∧
      (s.removeLegacyNames hadNames).greeted = s.greeted ∧
      (s.removeLegacyNames hadNames).state = s.state := by
    unfold Service.removeLegacyNames
    split
    · exact ⟨rfl, rfl, rfl⟩
    · exact send_connections s _
  unfold Service.writeLegacyNames
  split
  · exact hremove
  · split
    · exact ⟨rfl, rfl, rfl⟩
    · exact hremove

theorem checkHandshake_connections (s : Service) :
    s.checkHandshake.connections = s.connections ∧ s.checkHandshake.greeted = s.greeted ∧
      s.checkHandshake.state = s.state := by
  unfold Service.checkHandshake
  split
  · exact ⟨rfl, rfl, rfl⟩
  · exact send_connections _ _

/-- The status speaks about a handshake of the last connection exactly when
the service is acknowledged. -/
def Greeted (s : Service) : Prop :=
  s.greeted = if s.state.acknowledged_ev then some s.connections else none

/-- One step of the handler counts one connection, no other step does. -/
theorem step_connections {config : ServiceConfig} {s t : Service} {a : Action}
    (h : step config s a = some t) :
    t.connections = s.connections + (if isConnected a then 1 else 0) ∧
      (Greeted s → Greeted t) := by
  have hkeep : ∀ u : Service, u.connections = s.connections ∧ u.greeted = s.greeted ∧
      u.state = s.state → u.connections = s.connections + 0 ∧ (Greeted s → Greeted u) := by
    rintro u ⟨hc, hg, hs⟩
    refine ⟨hc, fun hgreet => ?_⟩
    unfold Greeted at *
    rw [hg, hs, hc, hgreet]
  cases a with
  | retry | enabledSeen | dial up | linked =>
    simp only [step] at h
    split at h <;> cases h
    exact hkeep _ ⟨rfl, rfl, rfl⟩
  | connected connection_kind address =>
    simp only [step] at h
    split at h <;> cases h
    exact ⟨rfl, fun _ => rfl⟩
  | disconnected =>
    simp only [step] at h
    split at h <;> cases h <;> exact ⟨rfl, fun _ => rfl⟩
  | handshake controller =>
    cases h
    unfold Service.greet
    split
    · exact hkeep _ ⟨rfl, rfl, rfl⟩
    · rename_i hsync
      refine ⟨rfl, fun _ => ?_⟩
      simp [Greeted, StateMachine.set_acknowledged, hsync]
  | settingsChanged enabled =>
    cases h
    exact ⟨rfl, fun hg => hg⟩
  | synchronize enabled =>
    simp only [step] at h
    split at h
    · split at h <;> cases h
      · exact hkeep _ (send_connections s _)
      · exact ⟨rfl, fun hg => hg⟩
    · cases h
  | settingsReply enabled reply =>
    simp only [step] at h
    split at h <;> cases h <;> exact ⟨rfl, fun hg => hg⟩
  | connectedSeen | prompted | ping | acknowledgedSeen | handshakeTimeout | restart =>
    simp only [step] at h
    split at h <;> cases h <;> exact hkeep _ ⟨rfl, rfl, rfl⟩
  | check =>
    simp only [step] at h
    split at h <;> cases h
    exact hkeep _ (checkHandshake_connections s)
  | names reply =>
    simp only [step] at h
    split at h <;> cases h <;> exact hkeep _ ⟨rfl, rfl, rfl⟩
  | legacyNames names =>
    simp only [step] at h
    split at h <;> cases h
    exact hkeep _ (writeLegacyNames_connections s _ _)
  | nameWritten reply =>
    simp only [step] at h
    split at h
    · cases reply <;> cases h <;> exact hkeep _ (writeLegacyNames_connections _ _ _)
    · cases h
  | namesRemoved reply =>
    simp only [step] at h
    split at h <;> cases h
    · exact hkeep _ (send_connections s _)
    · exact hkeep _ ⟨rfl, rfl, rfl⟩
  | sysinfo reply =>
    simp only [step] at h
    split at h <;> cases h
    · unfold Service.finish
      split
      · exact hkeep _ ⟨rfl, rfl, rfl⟩
      · rename_i state hstate
        refine ⟨rfl, fun hg => ?_⟩
        unfold StateMachine.set_synchronized at hstate
        split at hstate <;> cases hstate
        exact hg
    · exact hkeep _ ⟨rfl, rfl, rfl⟩

theorem run_connections {config : ServiceConfig} {s t : Service} {as : List Action}
    (h : run (step config) s as = some t) :
    t.connections = s.connections + as.countP isConnected := by
  induction as generalizing s with
  | nil =>
    cases h
    rfl
  | cons a as ih =>
    obtain ⟨u, hu, hrest⟩ := run_cons_some h
    have hone := (step_connections hu).1
    have hall := ih hrest
    rw [List.countP_cons]
    omega

theorem run_greeted {config : ServiceConfig} {fw_config : FirmwareConfig} {as : List Action}
    {s : Service} (h : run (step config) (init config fw_config) as = some s) : Greeted s :=
  invariant (fun _ _ _ hg hs => (step_connections hs).2 hg)
    (show Greeted (init config fw_config) from rfl) h

/-! ## The run after the last check -/

theorem run_onward {config : ServiceConfig} {s t : Service} {as : List Action}
    (h : run (step config) s as = some t) (ha : .check ∉ as) (ht : t.place.past = true) :
    s.place.past = true ∧ t.done.checked = s.done.checked ∧
      (t.connections = s.connections → Kept s → Kept t) := by
  induction as generalizing s with
  | nil =>
    cases h
    exact ⟨ht, rfl, fun _ hk => hk⟩
  | cons a as ih =>
    obtain ⟨u, hu, hrest⟩ := run_cons_some h
    simp only [List.mem_cons, not_or] at ha
    obtain ⟨hpast, hchecked, hkept⟩ := ih hrest ha.2
    have hstep := step_onward hu (Ne.symm ha.1) hpast
    have hone := (step_connections hu).1
    have hall := run_connections hrest
    refine ⟨hstep.past, hchecked.trans hstep.checked, fun hc hk => ?_⟩
    apply hkept (by omega)
    exact hstep.kept (by omega) hk

/-- A synchronizer that is past its check made one. -/
theorem last_check {config : ServiceConfig} {s t : Service} {as : List Action}
    (h : run (step config) s as = some t) (hs : s.place.past = false)
    (ht : t.place.past = true) :
    ∃ pre mid, as = pre ++ .check :: mid ∧ .check ∉ mid := by
  have hmem : .check ∈ as := by
    by_contra hno
    have := (run_onward h hno ht).1
    simp [hs] at this
  obtain ⟨pre, post, hsplit, hno⟩ := List.eq_append_cons_of_mem (List.mem_reverse.mpr hmem)
  refine ⟨post.reverse, pre.reverse, ?_, by simpa using hno⟩
  have hrev := congrArg List.reverse hsplit
  simpa using hrev

/-- The state right after a check that passed. -/
theorem check_some {config : ServiceConfig} {s t : Service}
    (h : step config s .check = some t) (ht : t.place.past = true) :
    t.done.checked = s.greeted ∧ t.connections = s.connections ∧ Kept t := by
  simp only [step] at h
  split at h
  · cases h
    have hc := (checkHandshake_connections s).1
    unfold Service.checkHandshake at *
    split
    · rename_i ex hex
      rw [hex] at ht
      cases ht
    · rename_i hok
      rw [hok] at ht
      simp only at ht
      rw [send_past ht]
      exact ⟨rfl, rfl, rfl⟩
  · cases h

/-- `set_synchronized` takes effect at the end of the patch only. -/
theorem sysinfo_some {config : ServiceConfig} {s t : Service} {reply : _} {woken : Bool}
    (h : step config s (.sysinfo reply) = some t) (ht : t.place = .synchronized woken) :
    ∃ sent, s.place = .patchingSysInfo sent ∧ t.connections = s.connections ∧
      t.done = { s.done with wrote := s.during sent } := by
  simp only [step] at h
  split at h <;> cases h
  · rename_i sent _ hplace _
    refine ⟨sent, hplace, ?_⟩
    unfold Service.finish
    split <;> exact ⟨rfl, rfl⟩
  · cases ht

/-- What follows one check decides: the synchronized state is about the
connection that is there exactly if the check saw a handshake, and no
connection was made after it. -/
theorem current_iff_no_connection_since {config : ServiceConfig} {fw_config : FirmwareConfig}
    {pre mid : List Action} {u s t : Service} {reply : _} {woken : Bool}
    (hpre : run (step config) (init config fw_config) pre = some u)
    (hmid : run (step config) u (.check :: mid) = some s) (hno : .check ∉ mid)
    (hstep : step config s (.sysinfo reply) = some t) (ht : t.place = .synchronized woken) :
    Current t ↔ u.state.acknowledged_ev = true ∧ ∀ a ∈ mid, isConnected a = false := by
  obtain ⟨sent, hplace, htc, htd⟩ := sysinfo_some hstep ht
  obtain ⟨v, hv, hrest⟩ := run_cons_some hmid
  have hpast : s.place.past = true := by simp [hplace, Place.past]
  obtain ⟨hvpast, hchecked, hkept⟩ := run_onward hrest hno hpast
  obtain ⟨hvchecked, hvc, hvkept⟩ := check_some hv hvpast
  have hcount := run_connections hrest
  have hgreeted := run_greeted hpre
  have hfinal : t.done.checked = if u.state.acknowledged_ev then some u.connections else none := by
    rw [htd, ← hgreeted, ← hvchecked, ← hchecked]
  constructor
  · intro hcur
    have hsome := hcur.checked
    rw [hfinal] at hsome
    split at hsome
    · rename_i hack
      have heq := Option.some.inj hsome
      refine ⟨hack, ?_⟩
      have hzero : mid.countP isConnected = 0 := by omega
      simpa using hzero
    · cases hsome
  · rintro ⟨hack, hnone⟩
    have hzero : mid.countP isConnected = 0 := by simpa using hnone
    have hk := hkept (by omega) hvkept
    simp only [Kept, hplace] at hk
    refine ⟨?_, ?_, ?_⟩
    · rw [hfinal, if_pos hack]
      exact congrArg some (by omega)
    · rw [htd, htc]
      exact hk.2
    · rw [htd, htc]
      simp [Service.during, hk.1]

/-- Whenever `set_synchronized` takes effect, then all that it stands for was
done over the last connection if and only if the check of this `synchronize`
saw a handshake of its connection, and no connection was made since. -/
theorem synchronized_is_current_iff_no_reconnect {config : ServiceConfig}
    {fw_config : FirmwareConfig} {as : List Action} {s t : Service} {reply : _} {woken : Bool}
    (hrun : run (step config) (init config fw_config) as = some s)
    (hstep : step config s (.sysinfo reply) = some t) (ht : t.place = .synchronized woken) :
    Current t ↔ ∃ pre mid u, as = pre ++ .check :: mid ∧ .check ∉ mid ∧
      run (step config) (init config fw_config) pre = some u ∧
      u.state.acknowledged_ev = true ∧ ∀ a ∈ mid, isConnected a = false := by
  obtain ⟨sent, hplace, -⟩ := sysinfo_some hstep ht
  obtain ⟨pre, mid, rfl, hno⟩ := last_check hrun rfl (by simp [hplace, Place.past])
  obtain ⟨u, hu, hmid⟩ := run_append_some hrun
  constructor
  · intro hcur
    exact ⟨pre, mid, u, rfl, hno, hu,
      (current_iff_no_connection_since hu hmid hno hstep ht).mp hcur⟩
  · rintro ⟨pre', mid', u', hsplit, hno', hu', hgood⟩
    obtain ⟨w, hw, hmid'⟩ := run_append_some (hsplit ▸ hrun)
    rw [hu'] at hw
    cases hw
    exact (current_iff_no_connection_since hu' hmid' hno' hstep ht).mpr hgood

/-! ## A connection that is made again -/

def someSysInfo : SysInfo :=
  { type := "SysInfo", uptime := some 1, updatesPerSecond := some 1 }

/-- A connection that is made and greeted. -/
def connect : List Action :=
  [.enabledSeen, .dial true, .connected .TCP "spark:8332", .handshake someController]

/-- The synchronizer up to the datastore. -/
def upToDatastore : List Action :=
  [.settingsChanged true] ++ connect ++
    [.synchronize true, .connectedSeen, .prompted, .acknowledgedSeen, .check, .names (.ok [])]

/-- While the datastore does not answer, the connection is lost, made again,
and greeted. The synchronized state then stands for a check and for block
names of the connection before. -/
theorem a_reconnect_passes_the_guard :
    ∃ s t, run (step {}) (init {} someFirmwareConfig)
        (upToDatastore ++ [.disconnected, .retry] ++ connect ++ [.legacyNames []]) = some s ∧
      step {} s (.sysinfo (.ok someSysInfo)) = some t ∧
      t.state.is_synchronized = true ∧ t.connections = 2 ∧
      t.done = { checked := some 1, loaded := some 1, wrote := some 2 } :=
  ⟨_, _, rfl, rfl, by decide⟩

theorem a_synchronized_state_that_is_current :
    ∃ s t, run (step {}) (init {} someFirmwareConfig)
        (upToDatastore ++ [.legacyNames []]) = some s ∧
      step {} s (.sysinfo (.ok someSysInfo)) = some t ∧ Current t ∧
      ∃ pre mid u, upToDatastore ++ [.legacyNames []] = pre ++ .check :: mid ∧ .check ∉ mid ∧
        run (step {}) (init {} someFirmwareConfig) pre = some u ∧
        u.state.acknowledged_ev = true ∧ ∀ a ∈ mid, isConnected a = false := by
  obtain ⟨s, hrun, t, hstep, ht, hcur⟩ :
      ∃ s, run (step {}) (init {} someFirmwareConfig) (upToDatastore ++ [.legacyNames []]) =
          some s ∧
        ∃ t, step {} s (.sysinfo (.ok someSysInfo)) = some t ∧
          t.place = .synchronized false ∧ Current t :=
    ⟨_, rfl, _, rfl, rfl, by constructor <;> rfl⟩
  exact ⟨s, t, hrun, hstep, hcur,
    (synchronized_is_current_iff_no_reconnect hrun hstep ht).mp hcur⟩

end devcon_spark.synchronization
