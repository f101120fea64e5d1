-- The laws of the commander. Every outstanding request has a message id of
-- its own, a response completes the one request that it belongs to, and the
-- empty event is set exactly when nothing is outstanding. A caller of
-- `wait_empty` comes back later than the event wakes it, so a request that
-- starts in between is missed.
import DevconSpark.Command

open devcon_spark.exceptions runs

namespace devcon_spark.command

variable {Payload : Type} {codec : Codec Payload}

/-! ## The invariant -/

/-- What holds of request `n` at all times. -/
structure Sound (accepted : List (Accepted Payload)) (n : Nat) (r : Request Payload) : Prop where
  id : r.msg_id = (n + 1) % 0xFFFF
  fut : ∀ response, r.fut = .result response ↔
    ∃ e ∈ accepted, e.request = n ∧ e.response = response
  completed : ∀ response, r.phase = .ended (.completed response) → r.fut = .result response
  cancelling : r.phase = .cancelling → r.fut = .cancelled

/-- What holds of an accepted response at all times. -/
structure Owned (requests : List (Request Payload)) (e : Accepted Payload) : Prop where
  id : ∃ r, requests[e.request]? = some r ∧ r.msg_id = e.response.msgId
  in_time : e.request ∈ e.outstanding

/-- The message ids in use are those of the outstanding requests. -/
def Registered (s : Commander Payload) : Prop :=
  ∀ id n, s.active_messages.lookup id = some n ↔
    ∃ r, s.requests[n]? = some r ∧ r.msg_id = id ∧ r.outstanding = true

structure Matched (s : Commander Payload) : Prop where
  msgid : s.msgid = s.requests.length % 0xFFFF
  requests : ∀ n r, s.requests[n]? = some r → Sound s.accepted n r
  accepted : ∀ e ∈ s.accepted, Owned s.requests e
  once : (s.accepted.map Accepted.request).Nodup
  active : Registered s
  empty : s.empty_ev = true ↔ s.active_messages.keys = []
  waiting : Waiter.waiting ∈ s.waiters → s.empty_ev = false

/-- The message ids do not run out: a request is over before 65535 later ones
have started. -/
def IdsLast (s : Commander Payload) : Action Payload → Prop
  | .execute _ _ _ => ∀ n ∈ s.outstanding, s.requests.length < n + 0xFFFF
  | _ => True

theorem matched_fresh : Matched ({} : Commander Payload) where
  msgid := rfl
  requests n r h := by simp at h
  accepted e h := by simp at h
  once := List.nodup_nil
  active id n := by simp
  empty := by simp
  waiting h := by simp at h

theorem mem_outstanding {s : Commander Payload} {n : Nat} :
    n ∈ s.outstanding ↔ ∃ r, s.requests[n]? = some r ∧ r.outstanding = true := by
  unfold Commander.outstanding
  simp only [List.mem_filter, List.mem_range, Option.any_eq_true]
  constructor
  · rintro ⟨-, r, hr, ho⟩
    exact ⟨r, hr, ho⟩
  · rintro ⟨r, hr, ho⟩
    exact ⟨(List.getElem?_eq_some_iff.mp hr).1, r, hr, ho⟩

/-- Nothing is registered exactly when nothing is outstanding. -/
theorem keys_nil_iff {s : Commander Payload} (h : Registered s) :
    s.active_messages.keys = [] ↔ s.outstanding = [] := by
  rw [List.eq_nil_iff_forall_not_mem, List.eq_nil_iff_forall_not_mem]
  constructor
  · intro hk n hn
    obtain ⟨r, hr, ho⟩ := mem_outstanding.mp hn
    have hl := (h r.msg_id n).mpr ⟨r, hr, rfl, ho⟩
    apply hk r.msg_id
    rw [← AList.mem_keys, ← AList.lookup_isSome, hl]
    rfl
  · intro ho id hid
    rw [← AList.mem_keys, ← AList.lookup_isSome, Option.isSome_iff_exists] at hid
    obtain ⟨n, hn⟩ := hid
    obtain ⟨r, hr, -, hout⟩ := (h id n).mp hn
    exact ho n (mem_outstanding.mpr ⟨r, hr, hout⟩)

/-! ## What one action can do -/

theorem next_goesOn {r r' : Request Payload} {a : Action Payload}
    (h : r.next a = some (.goesOn r')) :
    r.outstanding = true ∧ r'.outstanding = true ∧ r'.msg_id = r.msg_id ∧
      (r'.fut = r.fut ∨ r.fut = .pending ∧ r'.fut = .cancelled) ∧
      (r'.phase = .cancelling → r'.fut = .cancelled) := by
  rcases r with ⟨id, op, fut, phase⟩
  cases a <;> cases phase <;> cases fut <;> simp [Request.next] at h <;> subst h <;>
    simp [Request.outstanding]

theorem next_ends {r : Request Payload} {a : Action Payload} {how : End Payload}
    (h : r.next a = some (.ends how)) :
    r.outstanding = true ∧ ∀ response, how = .completed response → r.fut = .result response := by
  rcases r with ⟨id, op, fut, phase⟩
  cases a <;> cases phase <;> cases fut <;> simp [Request.next] at h <;> subst h <;>
    simp [Request.outstanding]

theorem advance_some {s t : Commander Payload} {a : Action Payload} {n : Nat}
    (h : s.advance a n = some t) :
    ∃ r, s.requests[n]? = some r ∧
      ((∃ r', r.next a = some (.goesOn r') ∧ t = { s with requests := s.requests.set n r' }) ∨
        ∃ how, r.next a = some (.ends how) ∧ t = s.conclude n r how) := by
  unfold Commander.advance at h
  obtain ⟨r, hr, hx⟩ := Option.bind_eq_some_iff.mp h
  obtain ⟨x, hn, rfl⟩ := Option.map_eq_some_iff.mp hx
  refine ⟨r, hr, ?_⟩
  cases x with
  | goesOn r' => exact Or.inl ⟨r', hn, rfl⟩
  | ends how => exact Or.inr ⟨how, hn, rfl⟩

variable (codec) in
/-- A response is either logged and dropped, or it completes the future that
is registered under its message id. -/
theorem on_response_cases (s : Commander Payload) (msg : String) :
    s.on_response codec msg = .ok s ∨
      ∃ response n r, codec.decode_response msg = .ok response ∧
        s.active_messages.lookup response.msgId = some n ∧ s.requests[n]? = some r ∧
        r.fut = .pending ∧
        s.on_response codec msg = .ok { s with
          requests := s.requests.set n { r with fut := .result response }
          accepted := s.accepted ++
            [{ request := n, response, outstanding := s.outstanding }] } := by
  unfold Commander.on_response Commander.take_response
  rcases hd : codec.decode_response msg with ex | response
  · exact Or.inl rfl
  rcases hl : s.active_messages.lookup response.msgId with _ | n
  · left
    simp only [bind, Except.bind, hl]
    rfl
  rcases hr : s.requests[n]? with _ | ⟨id, op, fut, phase⟩
  · left
    simp only [bind, Except.bind, hl, hr]
    rfl
  cases fut with
  | pending =>
    right
    refine ⟨response, n, _, rfl, hl, hr, rfl, ?_⟩
    simp only [bind, Except.bind, hl, hr]
    rfl
  | result _ | cancelled =>
    left
    simp only [bind, Except.bind, hl, hr]
    rfl

/-! ## Each action keeps the invariant -/

theorem sound_append {accepted : List (Accepted Payload)} {e : Accepted Payload} {n : Nat}
    {r : Request Payload} (h : Sound accepted n r) (hne : e.request ≠ n) :
    Sound (accepted ++ [e]) n r := by
  refine ⟨h.id, fun response => ?_, h.completed, h.cancelling⟩
  rw [h.fut response]
  constructor
  · rintro ⟨x, hx, hn, hr⟩
    exact ⟨x, List.mem_append_left _ hx, hn, hr⟩
  · rintro ⟨x, hx, hn, hr⟩
    rcases List.mem_append.mp hx with hx | hx
    · exact ⟨x, hx, hn, hr⟩
    · cases List.mem_singleton.mp hx
      exact absurd hn hne

theorem owned_set {requests : List (Request Payload)} {e : Accepted Payload} {n : Nat}
    {r r' : Request Payload} (h : Owned requests e) (hr : requests[n]? = some r)
    (hid : r'.msg_id = r.msg_id) : Owned (requests.set n r') e := by
  obtain ⟨x, hx, hxid⟩ := h.id
  refine ⟨?_, h.in_time⟩
  by_cases hn : n = e.request
  · subst hn
    rw [hr] at hx
    cases hx
    exact ⟨r', List.getElem?_set_self (List.getElem?_eq_some_iff.mp hr).1, by rw [hid, hxid]⟩
  · exact ⟨x, by rw [List.getElem?_set_ne hn, hx], hxid⟩

/-- A change of one outstanding request that keeps it outstanding, under the
same id, keeps the ids registered. -/
theorem registered_set {s : Commander Payload} {n : Nat} {r r' : Request Payload}
    (h : Registered s) (hr : s.requests[n]? = some r) (ho : r.outstanding = true)
    (ho' : r'.outstanding = true) (hid : r'.msg_id = r.msg_id) (id m : Nat) :
    s.active_messages.lookup id = some m ↔
      ∃ x, (s.requests.set n r')[m]? = some x ∧ x.msg_id = id ∧ x.outstanding = true := by
  rw [h id m]
  by_cases hn : n = m
  · subst hn
    rw [List.getElem?_set_self (List.getElem?_eq_some_iff.mp hr).1, hr]
    simp [hid, ho, ho']
  · rw [List.getElem?_set_ne hn]

theorem requests_set {s : Commander Payload} {n : Nat} {r' : Request Payload}
    {accepted : List (Accepted Payload)}
    (h : ∀ m x, m ≠ n → s.requests[m]? = some x → Sound accepted m x)
    (hr' : Sound accepted n r') (m : Nat) (x : Request Payload)
    (hx : (s.requests.set n r')[m]? = some x) : Sound accepted m x := by
  by_cases hn : n = m
  · subst hn
    rw [List.getElem?_set] at hx
    simp only [if_true] at hx
    split at hx
    · cases hx
      exact hr'
    · cases hx
  · rw [List.getElem?_set_ne hn] at hx
    exact h m x (Ne.symm hn) hx

theorem matched_goesOn {s : Commander Payload} {n : Nat} {r r' : Request Payload}
    {a : Action Payload} (h : Matched s) (hr : s.requests[n]? = some r)
    (hnext : r.next a = some (.goesOn r')) :
    Matched { s with requests := s.requests.set n r' } := by
  obtain ⟨ho, ho', hid, hfut, hcancel⟩ := next_goesOn hnext
  have hsound := h.requests n r hr
  have hsound' : Sound s.accepted n r' := by
    refine ⟨hid ▸ hsound.id, fun response => ?_, ?_, hcancel⟩
    · rw [← hsound.fut response]
      rcases hfut with hf | ⟨hf, hf'⟩
      · rw [hf]
      · simp [hf, hf']
    · intro response hp
      simp [Request.outstanding, hp] at ho'
  exact
    { msgid := by simpa using h.msgid
      requests := requests_set (fun m x _ => h.requests m x) hsound'
      accepted := fun e he => owned_set (h.accepted e he) hr hid
      once := h.once
      active := registered_set h.active hr ho ho' hid
      empty := h.empty
      waiting := h.waiting }

theorem matched_accept {s : Commander Payload} {n : Nat} {r : Request Payload}
    {response : IntermediateResponse Payload} (h : Matched s)
    (hl : s.active_messages.lookup response.msgId = some n) (hr : s.requests[n]? = some r)
    (hf : r.fut = .pending) :
    Matched { s with
      requests := s.requests.set n { r with fut := .result response }
      accepted := s.accepted ++ [{ request := n, response, outstanding := s.outstanding }] } := by
  obtain ⟨r', hr', hid, ho⟩ := (h.active _ _).mp hl
  rw [hr] at hr'
  cases hr'
  have hsound := h.requests n r hr
  -- the future is pending, so no response was accepted for this request before
  have hfirst : ∀ e ∈ s.accepted, e.request ≠ n := by
    intro e he hn
    have hres := (hsound.fut e.response).mpr ⟨e, he, hn, rfl⟩
    simp [hf] at hres
  have hsound' : Sound (s.accepted ++ [{ request := n, response, outstanding := s.outstanding }])
      n { r with fut := .result response } := by
    refine ⟨hsound.id, fun x => ?_, fun x hp => ?_, fun hp => ?_⟩
    · constructor
      · intro hx
        cases hx
        exact ⟨_, List.mem_append_right _ (List.mem_singleton_self _), rfl, rfl⟩
      · rintro ⟨e, he, hn, rfl⟩
        rcases List.mem_append.mp he with he | he
        · exact absurd hn (hfirst e he)
        · cases List.mem_singleton.mp he
          rfl
    · change r.phase = _ at hp
      simp [Request.outstanding, hp] at ho
    · change r.phase = _ at hp
      have := hsound.cancelling hp
      simp [hf] at this
  exact
    { msgid := by simpa using h.msgid
      requests := requests_set
        (fun m x hm hx => sound_append (h.requests m x hx) (Ne.symm hm)) hsound'
      accepted := by
        intro e he
        rcases List.mem_append.mp he with he | he
        · exact owned_set (h.accepted e he) hr rfl
        · cases List.mem_singleton.mp he
          refine ⟨⟨_, List.getElem?_set_self (List.getElem?_eq_some_iff.mp hr).1, hid⟩, ?_⟩
          exact mem_outstanding.mpr ⟨r, hr, ho⟩
      once := by
        rw [List.map_append, List.nodup_append]
        refine ⟨h.once, by simp, ?_⟩
        rintro a ha b hb rfl
        obtain ⟨e, he, rfl⟩ := List.mem_map.mp ha
        exact hfirst e he (by simpa using hb)
      active := registered_set h.active hr ho ho rfl
      empty := h.empty
      waiting := h.waiting }

theorem matched_ends {s : Commander Payload} {n : Nat} {r : Request Payload}
    {a : Action Payload} {how : End Payload} (h : Matched s) (hr : s.requests[n]? = some r)
    (hnext : r.next a = some (.ends how)) : Matched (s.conclude n r how) := by
  obtain ⟨ho, hcompleted⟩ := next_ends hnext
  have hl := (h.active r.msg_id n).mpr ⟨r, hr, rfl, ho⟩
  have hsound := h.requests n r hr
  have hsound' : Sound s.accepted n { r with phase := .ended how } := by
    refine ⟨hsound.id, hsound.fut, fun response hp => ?_, fun hp => by cases hp⟩
    cases hp
    exact hcompleted response rfl
  have hactive : ∀ id m, (s.active_messages.erase r.msg_id).lookup id = some m ↔
      ∃ x, (s.requests.set n { r with phase := .ended how })[m]? = some x ∧ x.msg_id = id ∧
        x.outstanding = true := by
    intro id m
    by_cases hn : n = m
    · subst hn
      rw [List.getElem?_set_self (List.getElem?_eq_some_iff.mp hr).1]
      constructor
      · intro he
        by_cases hid : id = r.msg_id
        · subst hid
          simp at he
        · rw [AList.lookup_erase_ne hid, h.active] at he
          obtain ⟨x, hx, hxid, -⟩ := he
          rw [hr] at hx
          cases hx
          exact absurd hxid.symm hid
      · rintro ⟨x, hx, -, hxo⟩
        cases hx
        simp [Request.outstanding] at hxo
    · rw [List.getElem?_set_ne hn, ← h.active id m]
      by_cases hid : id = r.msg_id
      · subst hid
        simp [hl, hn]
      · rw [AList.lookup_erase_ne hid]
  have hne : s.active_messages.keys ≠ [] := by
    intro hk
    have hnil := (keys_nil_iff h.active).mp hk
    have hmem := mem_outstanding.mpr ⟨r, hr, ho⟩
    simp [hnil] at hmem
  have hclear : s.empty_ev = false := by
    cases he : s.empty_ev with
    | false => rfl
    | true => exact absurd (h.empty.mp he) hne
  unfold Commander.conclude
  rw [hl]
  simp only
  split
  · rename_i hk
    exact
      { msgid := by simpa [Commander.set_empty] using h.msgid
        requests := requests_set (fun m x _ => h.requests m x) hsound'
        accepted := fun e he => owned_set (h.accepted e he) hr rfl
        once := h.once
        active := hactive
        empty := by simpa [Commander.set_empty] using hk
        waiting := by
          intro hw
          obtain ⟨w, -, hw⟩ := List.mem_map.mp hw
          cases w <;> simp at hw }
  · rename_i hk
    exact
      { msgid := by simpa using h.msgid
        requests := requests_set (fun m x _ => h.requests m x) hsound'
        accepted := fun e he => owned_set (h.accepted e he) hr rfl
        once := h.once
        active := hactive
        empty := by simp only [hclear, hk]; simp
        waiting := h.waiting }

/-- The message id of a new request is not in use. -/
theorem next_id_free {s : Commander Payload} (h : Matched s)
    (hids : ∀ n ∈ s.outstanding, s.requests.length < n + 0xFFFF) :
    s.active_messages.lookup s.next_id = none := by
  rw [Option.eq_none_iff_forall_ne_some]
  intro n hn
  obtain ⟨r, hr, hid, ho⟩ := (h.active _ _).mp hn
  have hlt := (List.getElem?_eq_some_iff.mp hr).1
  have hsound := (h.requests n r hr).id
  have hmsgid := h.msgid
  unfold Commander.next_id at hid
  have hrecent := hids n (mem_outstanding.mpr ⟨r, hr, ho⟩)
  omega

theorem sound_new {accepted : List (Accepted Payload)} {requests : List (Request Payload)}
    {r : Request Payload} (hown : ∀ e ∈ accepted, Owned requests e)
    (hid : r.msg_id = (requests.length + 1) % 0xFFFF) (hf : r.fut = .pending)
    (hp : r.phase = .sending ∨ ∃ ex, r.phase = .ended (.encodeFailed ex)) :
    Sound accepted requests.length r := by
  refine ⟨hid, fun response => ?_, fun response hc => ?_, fun hc => ?_⟩
  · simp only [hf, reduceCtorEq, false_iff, not_exists, not_and]
    intro e he hn
    obtain ⟨x, hx, -⟩ := (hown e he).id
    have := (List.getElem?_eq_some_iff.mp hx).1
    omega
  · rcases hp with hp | ⟨ex, hp⟩ <;> simp [hp] at hc
  · rcases hp with hp | ⟨ex, hp⟩ <;> simp [hp] at hc

theorem requests_append {s : Commander Payload} {r : Request Payload}
    {P : Nat → Request Payload → Prop} (h : ∀ n x, s.requests[n]? = some x → P n x)
    (hr : P s.requests.length r) (n : Nat) (x : Request Payload)
    (hx : (s.requests ++ [r])[n]? = some x) : P n x := by
  rw [List.getElem?_append] at hx
  split at hx
  · exact h n x hx
  · rename_i hn
    rw [List.getElem?_singleton] at hx
    split at hx
    · rename_i hn'
      cases hx
      have : n = s.requests.length := by omega
      exact this ▸ hr
    · cases hx

theorem owned_append {requests : List (Request Payload)} {e : Accepted Payload}
    (h : Owned requests e) (r : Request Payload) : Owned (requests ++ [r]) e := by
  obtain ⟨x, hx, hid⟩ := h.id
  refine ⟨⟨x, ?_, hid⟩, h.in_time⟩
  rw [List.getElem?_append_left (List.getElem?_eq_some_iff.mp hx).1, hx]

theorem matched_execute {s : Commander Payload} (h : Matched s) (opcode : Opcode)
    (payload : Option Payload) (mode : ReadMode)
    (hids : IdsLast s (.execute opcode payload mode)) :
    Matched (s.execute codec opcode payload mode) := by
  have hid : s.next_id = (s.requests.length + 1) % 0xFFFF := by
    have := h.msgid
    unfold Commander.next_id
    omega
  unfold Commander.execute
  simp only
  split
  · rename_i ex hex
    refine
      { msgid := by simpa using hid
        requests := requests_append h.requests
          (sound_new h.accepted hid rfl (Or.inr ⟨ex, rfl⟩))
        accepted := fun e he => owned_append (h.accepted e he) _
        once := h.once
        active := ?_
        empty := h.empty
        waiting := h.waiting }
    intro id n
    rw [h.active id n]
    constructor
    · rintro ⟨r, hr, hrest⟩
      refine ⟨r, ?_, hrest⟩
      rw [List.getElem?_append_left (List.getElem?_eq_some_iff.mp hr).1, hr]
    · rintro ⟨r, hr, hrid, hro⟩
      rw [List.getElem?_append] at hr
      split at hr
      · exact ⟨r, hr, hrid, hro⟩
      · rw [List.getElem?_singleton] at hr
        split at hr
        · cases hr
          simp [Request.outstanding] at hro
        · cases hr
  · have hfree := next_id_free h hids
    refine
      { msgid := by simpa using hid
        requests := requests_append h.requests (sound_new h.accepted hid rfl (Or.inl rfl))
        accepted := fun e he => owned_append (h.accepted e he) _
        once := h.once
        active := ?_
        empty := ?_
        waiting := fun _ => rfl }
    · intro id n
      by_cases hi : id = s.next_id
      · subst hi
        rw [AList.lookup_insert]
        constructor
        · intro hn
          cases hn
          exact ⟨_, List.getElem?_concat_length, rfl, rfl⟩
        · rintro ⟨r, hr, hrid, hro⟩
          rw [List.getElem?_append] at hr
          split at hr
          · have hused := (h.active _ _).mpr ⟨r, hr, hrid, hro⟩
            rw [hfree] at hused
            cases hused
          · rw [List.getElem?_singleton] at hr
            split at hr
            · congr 1
              omega
            · cases hr
      · rw [AList.lookup_insert_ne hi, h.active id n]
        constructor
        · rintro ⟨r, hr, hrest⟩
          refine ⟨r, ?_, hrest⟩
          rw [List.getElem?_append_left (List.getElem?_eq_some_iff.mp hr).1, hr]
        · rintro ⟨r, hr, hrid, hro⟩
          rw [List.getElem?_append] at hr
          split at hr
          · exact ⟨r, hr, hrid, hro⟩
          · rw [List.getElem?_singleton] at hr
            split at hr
            · cases hr
              exact absurd hrid.symm hi
            · cases hr
    · simp only [Bool.false_eq_true, false_iff]
      intro hk
      have hmem : s.next_id ∈ (s.active_messages.insert s.next_id s.requests.length).keys := by
        simp
      rw [hk] at hmem
      cases hmem

theorem matched_waiters {s : Commander Payload} (h : Matched s) {waiters : List Waiter}
    (hw : Waiter.waiting ∈ waiters → Waiter.waiting ∈ s.waiters ∨ s.empty_ev = false) :
    Matched { s with waiters } :=
  { h with
    waiting := by
      intro hmem
      rcases hw hmem with hold | hclear
      · exact h.waiting hold
      · exact hclear }

/-- One step keeps the invariant. -/
theorem matched_step {s t : Commander Payload} {a : Action Payload} (h : Matched s)
    (hids : IdsLast s a) (hstep : step codec s a = some t) : Matched t := by
  cases a with
  | execute opcode payload mode =>
    cases hstep
    exact matched_execute h opcode payload mode hids
  | response msg =>
    simp only [step] at hstep
    rcases on_response_cases codec s msg with hsame |
      ⟨response, n, r, -, hl, hr, hf, hset⟩
    · rw [hsame] at hstep
      cases hstep
      exact h
    · rw [hset] at hstep
      cases hstep
      exact matched_accept h hl hr hf
  | sent n | sendFail n ex | timeout n | cancel n | finish n =>
    obtain ⟨r, hr, ⟨r', hnext, rfl⟩ | ⟨how, hnext, rfl⟩⟩ := advance_some hstep
    · exact matched_goesOn h hr hnext
    · exact matched_ends h hr hnext
  | wait_empty =>
    cases hstep
    apply matched_waiters h
    intro hmem
    rcases List.mem_append.mp hmem with hmem | hmem
    · exact Or.inl hmem
    · right
      cases he : s.empty_ev with
      | false => rfl
      | true => simp [he] at hmem
  | resume w =>
    simp only [step] at hstep
    split at hstep
    · cases hstep
      apply matched_waiters h
      intro hmem
      rcases List.mem_or_eq_of_mem_set hmem with hmem | hmem
      · exact Or.inl hmem
      · cases hmem
    · cases hstep

/-! ## What takes care -/

/-- The response is in before the send came back. -/
def Request.answeredEarly (r : Request Payload) : Bool :=
  match r.phase, r.fut with
  | .sending, .result _ => true
  | _, _ => false

def AnsweredEarly (s : Commander Payload) (n : Nat) : Prop :=
  (s.requests[n]?).any Request.answeredEarly = true

/-- No request starts while a call of `wait_empty` is woken and did not come
back yet, and no send fails or is cancelled after its response is in. -/
def Careful (s : Commander Payload) : Action Payload → Prop
  | .execute _ _ _ => Waiter.woken ∉ s.waiters
  | .sendFail n _ => ¬ AnsweredEarly s n
  | .cancel n => ¬ AnsweredEarly s n
  | _ => True

instance (s : Commander Payload) : (a : Action Payload) → Decidable (IdsLast s a)
  | .execute _ _ _ => inferInstanceAs (Decidable (∀ n ∈ s.outstanding, _ < _))
  | .sent _ | .sendFail _ _ | .response _ | .timeout _ | .cancel _ | .finish _ | .wait_empty
  | .resume _ => isTrue trivial

instance (s : Commander Payload) : (a : Action Payload) → Decidable (Careful s a)
  | .execute _ _ _ => inferInstanceAs (Decidable (_ ∉ _))
  | .sendFail _ _ | .cancel _ => inferInstanceAs (Decidable (¬ _ = true))
  | .sent _ | .response _ | .timeout _ | .finish _ | .wait_empty | .resume _ => isTrue trivial

/-- A request whose future has a result is on its way to return it. -/
def Delivers (r : Request Payload) : Prop :=
  ∀ response, r.fut = .result response →
    r.outstanding = true ∨ r.phase = .ended (.completed response)

structure Tidy (s : Commander Payload) : Prop where
  delivers : ∀ (n : Nat) r, s.requests[n]? = some r → Delivers r
  woken : Waiter.woken ∈ s.waiters → s.outstanding = []
  returned : ∀ outstanding, Waiter.returned outstanding ∈ s.waiters → outstanding = []

theorem tidy_fresh : Tidy ({} : Commander Payload) where
  delivers n r h := by simp at h
  woken h := by simp at h
  returned outstanding h := by simp at h

theorem delivers_of_outstanding {r : Request Payload} (h : r.outstanding = true) : Delivers r :=
  fun _ _ => Or.inl h

/-- A call whose future has a result returns it, unless its send broke. -/
theorem next_ends_result {r : Request Payload} {a : Action Payload} {how : End Payload}
    {response : IntermediateResponse Payload} (h : r.next a = some (.ends how))
    (hc : r.phase = .cancelling → r.fut = .cancelled) (hs : r.phase ≠ .sending)
    (hf : r.fut = .result response) : how = .completed response := by
  rcases r with ⟨id, op, fut, phase⟩
  change fut = _ at hf
  subst hf
  cases a <;> cases phase <;> simp_all [Request.next]

theorem sending_of_next {r : Request Payload} {a : Action Payload} {how : End Payload}
    (h : r.next a = some (.ends how)) (hs : r.phase = .sending) :
    (∃ n ex, a = .sendFail n ex) ∨ ∃ n, a = .cancel n := by
  cases a <;> simp_all [Request.next]

theorem conclude_parts {s : Commander Payload} {n : Nat} {r : Request Payload}
    (h : Matched s) (hr : s.requests[n]? = some r) (ho : r.outstanding = true)
    (how : End Payload) :
    (s.conclude n r how).requests = s.requests.set n { r with phase := .ended how } ∧
      ((s.conclude n r how).active_messages.keys = [] ∧
          (s.conclude n r how).waiters = (s.set_empty).waiters ∨
        (s.conclude n r how).waiters = s.waiters) := by
  have hl := (h.active r.msg_id n).mpr ⟨r, hr, rfl, ho⟩
  unfold Commander.conclude
  rw [hl]
  simp only
  split
  · rename_i hk
    exact ⟨rfl, Or.inl ⟨hk, rfl⟩⟩
  · exact ⟨rfl, Or.inr rfl⟩

theorem outstanding_congr {s t : Commander Payload} (hs : Registered s) (ht : Registered t)
    (h : t.active_messages = s.active_messages) : t.outstanding = [] ↔ s.outstanding = [] := by
  rw [← keys_nil_iff hs, ← keys_nil_iff ht, h]

theorem set_delivers {s : Commander Payload} {n : Nat} {r' : Request Payload}
    (h : ∀ (m : Nat) r, s.requests[m]? = some r → Delivers r) (hr' : Delivers r') (m : Nat)
    (r : Request Payload) (hr : (s.requests.set n r')[m]? = some r) : Delivers r := by
  rw [List.getElem?_set] at hr
  split at hr
  · split at hr
    · cases hr
      exact hr'
    · cases hr
  · exact h m r hr

theorem tidy_ends {s : Commander Payload} {n : Nat} {r : Request Payload}
    {a : Action Payload} {how : End Payload} (h : Matched s) (ht : Tidy s)
    (hr : s.requests[n]? = some r) (hnext : r.next a = some (.ends how))
    (hcare : r.phase = .sending → ¬ AnsweredEarly s n) : Tidy (s.conclude n r how) := by
  obtain ⟨ho, -⟩ := next_ends hnext
  have hm := matched_ends h hr hnext
  obtain ⟨hreq, hwait⟩ := conclude_parts h hr ho how
  have hbusy : s.outstanding ≠ [] := by
    intro hnil
    have hmem := mem_outstanding.mpr ⟨r, hr, ho⟩
    simp [hnil] at hmem
  have hdelivers : Delivers { r with phase := .ended how } := by
    intro response hf
    right
    change r.fut = _ at hf
    have hsend : r.phase ≠ .sending := by
      intro hs
      exact hcare hs (by simp [AnsweredEarly, hr, Request.answeredEarly, hs, hf])
    exact congrArg Phase.ended
      (next_ends_result hnext (h.requests n r hr).cancelling hsend hf)
  refine ⟨?_, ?_, ?_⟩
  · rw [hreq]
    exact set_delivers ht.delivers hdelivers
  · intro hw
    rcases hwait with ⟨hk, -⟩ | hsame
    · exact (keys_nil_iff hm.active).mp hk
    · exact absurd (ht.woken (hsame ▸ hw)) hbusy
  · intro outstanding hw
    rcases hwait with ⟨-, hset⟩ | hsame
    · rw [hset] at hw
      obtain ⟨w, hold, hw⟩ := List.mem_map.mp hw
      cases w with
      | waiting | woken => cases hw
      | returned outs =>
        cases hw
        exact ht.returned _ hold
    · exact ht.returned _ (hsame ▸ hw)

/-- One careful step keeps the commander tidy. -/
theorem tidy_step {s t : Commander Payload} {a : Action Payload} (h : Matched s) (ht : Tidy s)
    (hids : IdsLast s a) (hcare : Careful s a) (hstep : step codec s a = some t) : Tidy t := by
  have hm := matched_step h hids hstep
  cases a with
  | execute opcode payload mode =>
    cases hstep
    have hnew : ∀ (n : Nat) r, (s.execute codec opcode payload mode).requests[n]? = some r →
        Delivers r := by
      unfold Commander.execute
      simp only
      split <;> exact requests_append (P := fun _ r => Delivers r) ht.delivers
        (fun response hf => by cases hf)
    have hwait : (s.execute codec opcode payload mode).waiters = s.waiters := by
      unfold Commander.execute
      simp only
      split <;> rfl
    refine ⟨hnew, ?_, ?_⟩
    · rw [hwait]
      intro hw
      exact absurd hw hcare
    · rw [hwait]
      exact ht.returned
  | response msg =>
    simp only [step] at hstep
    rcases on_response_cases codec s msg with hsame |
      ⟨response, n, r, -, hl, hr, hf, hset⟩
    · rw [hsame] at hstep
      cases hstep
      exact ht
    · rw [hset] at hstep
      cases hstep
      obtain ⟨q, hq, -, ho⟩ := (h.active _ _).mp hl
      rw [hr] at hq
      cases hq
      refine ⟨set_delivers ht.delivers (delivers_of_outstanding ho), ?_, ht.returned⟩
      intro hw
      exact (outstanding_congr h.active hm.active rfl).mpr (ht.woken hw)
  | sent n | sendFail n ex | timeout n | cancel n | finish n =>
    obtain ⟨r, hr, ⟨r', hnext, rfl⟩ | ⟨how, hnext, rfl⟩⟩ := advance_some hstep
    · refine ⟨set_delivers ht.delivers (delivers_of_outstanding (next_goesOn hnext).2.1), ?_,
        ht.returned⟩
      intro hw
      exact (outstanding_congr h.active hm.active rfl).mpr (ht.woken hw)
    · apply tidy_ends h ht hr hnext
      intro hs
      rcases sending_of_next hnext hs with ⟨m, ex', he⟩ | ⟨m, he⟩ <;> cases he <;> exact hcare
  | wait_empty =>
    cases hstep
    refine ⟨ht.delivers, ?_, ?_⟩
    · intro hw
      rcases List.mem_append.mp hw with hw | hw
      · exact ht.woken hw
      · cases he : s.empty_ev <;> simp [he] at hw
    · intro outstanding hw
      rcases List.mem_append.mp hw with hw | hw
      · exact ht.returned _ hw
      · cases he : s.empty_ev with
        | false => simp [he] at hw
        | true =>
          simp only [he, if_true, List.mem_singleton, Waiter.returned.injEq] at hw
          rw [hw]
          exact (keys_nil_iff h.active).mp (h.empty.mp he)
  | resume w =>
    simp only [step] at hstep
    split at hstep
    · rename_i hwoken
      cases hstep
      have hnil := ht.woken (List.mem_of_getElem? hwoken)
      refine ⟨ht.delivers, ?_, ?_⟩
      · intro _
        exact hnil
      · intro outstanding hw
        rcases List.mem_or_eq_of_mem_set hw with hw | hw
        · exact ht.returned _ hw
        · cases hw
          exact hnil
    · cases hstep

/-! ## The laws -/

/-- What holds of the commander after any order of events. -/
structure OneToOne (codec : Codec Payload) (s : Commander Payload) : Prop where
  /-- The ids of the outstanding requests differ. -/
  distinct : ∀ (m n : Nat) q r, s.requests[m]? = some q → s.requests[n]? = some r →
    q.outstanding = true → r.outstanding = true → q.msg_id = r.msg_id → m = n
  /-- `_active_messages` holds exactly the outstanding requests. -/
  active : Registered s
  /-- A request completes with a response that has its id, and that came in
  while it was outstanding. -/
  own : ∀ (n : Nat) r response, s.requests[n]? = some r →
    r.phase = .ended (.completed response) →
    response.msgId = r.msg_id ∧
      ∃ e ∈ s.accepted, e.request = n ∧ e.response = response ∧ n ∈ e.outstanding
  /-- An accepted response is the result of one future, which takes no other. -/
  one : (s.accepted.map Accepted.request).Nodup ∧
    ∀ e ∈ s.accepted, ∃ r, s.requests[e.request]? = some r ∧ r.fut = .result e.response
  /-- The empty event is set exactly when no request is outstanding. -/
  empty : s.empty_ev = true ↔ s.outstanding = []
  /-- A response never raises, and it changes no request but the outstanding
  one that has its id. -/
  quiet : ∀ msg, ∃ t, s.on_response codec msg = .ok t ∧
    t.active_messages = s.active_messages ∧
    ∀ (m : Nat) q, s.requests[m]? = some q → t.requests[m]? = some q ∨
      ∃ response, codec.decode_response msg = .ok response ∧ response.msgId = q.msg_id ∧
        q.outstanding = true

/-- Each accepted response completes its request, and no call of `wait_empty`
came back with a request outstanding. -/
structure Served (s : Commander Payload) : Prop where
  delivered : ∀ e ∈ s.accepted, ∃ r, s.requests[e.request]? = some r ∧
    (r.outstanding = true ∨ r.phase = .ended (.completed e.response))
  waited : ∀ outstanding, Waiter.returned outstanding ∈ s.waiters → outstanding = []

theorem response_is_quiet {s : Commander Payload} (h : Matched s) (msg : String) :
    ∃ t, s.on_response codec msg = .ok t ∧ t.active_messages = s.active_messages ∧
      ∀ (m : Nat) q, s.requests[m]? = some q → t.requests[m]? = some q ∨
        ∃ response, codec.decode_response msg = .ok response ∧ response.msgId = q.msg_id ∧
          q.outstanding = true := by
  rcases on_response_cases codec s msg with hsame |
    ⟨response, n, r, hd, hl, hr, -, hset⟩
  · exact ⟨s, hsame, rfl, fun m q hq => Or.inl hq⟩
  · refine ⟨_, hset, rfl, fun m q hq => ?_⟩
    by_cases hn : n = m
    · subst hn
      obtain ⟨x, hx, hid, ho⟩ := (h.active _ _).mp hl
      rw [hq] at hx
      cases hx
      exact Or.inr ⟨response, hd, hid.symm, ho⟩
    · left
      simp only
      rw [List.getElem?_set_ne hn, hq]

/-- An accepted response is the result of the future of its request. -/
theorem accepted_result {s : Commander Payload} (h : Matched s) {e : Accepted Payload}
    (he : e ∈ s.accepted) :
    ∃ r, s.requests[e.request]? = some r ∧ r.fut = .result e.response := by
  obtain ⟨r, hr, -⟩ := (h.accepted e he).id
  exact ⟨r, hr, ((h.requests _ r hr).fut _).mpr ⟨e, he, rfl, rfl⟩⟩

theorem oneToOne_of_matched {s : Commander Payload} (h : Matched s) : OneToOne codec s where
  distinct m n q r hq hr hqo hro hid := by
    have hm := (h.active _ m).mpr ⟨q, hq, hid, hqo⟩
    have hn := (h.active _ n).mpr ⟨r, hr, rfl, hro⟩
    rw [hm] at hn
    cases hn
    rfl
  active := h.active
  own n r response hr hp := by
    have hsound := h.requests n r hr
    obtain ⟨e, he, hn, hresp⟩ := (hsound.fut response).mp (hsound.completed response hp)
    obtain ⟨⟨x, hx, hid⟩, htime⟩ := h.accepted e he
    rw [hn, hr] at hx
    cases hx
    exact ⟨by rw [← hresp, ← hid], e, he, hn, hresp, hn ▸ htime⟩
  one := ⟨h.once, fun e he => accepted_result h he⟩
  empty := h.empty.trans (keys_nil_iff h.active)
  quiet := response_is_quiet h

theorem served_of_tidy {s : Commander Payload} (h : Matched s) (ht : Tidy s) : Served s where
  delivered e he := by
    obtain ⟨r, hr, hf⟩ := accepted_result h he
    exact ⟨r, hr, ht.delivers _ r hr _ hf⟩
  waited := ht.returned

/-- In every run whose ids do not run out, requests and responses are matched
one to one. If the run is careful too, then each accepted response completes
its request, and `wait_empty` never comes back with a request outstanding. -/
theorem requests_are_served_in_careful_runs {as : List (Action Payload)}
    {s : Commander Payload} (hrun : run (step codec) {} as = some s)
    (hids : Along (step codec) IdsLast {} as) :
    OneToOne codec s ∧ (Along (step codec) Careful {} as → Served s) := by
  have hmatched : Matched s :=
    along_invariant (fun s a t h hp hs => matched_step h hp hs) matched_fresh hids hrun
  refine ⟨oneToOne_of_matched hmatched, fun hcare => ?_⟩
  have hboth := along_invariant (I := fun s => Matched s ∧ Tidy s)
    (P := fun s a => IdsLast s a ∧ Careful s a)
    (fun s a t h hp hs => ⟨matched_step h.1 hp.1 hs, tidy_step h.1 h.2 hp.1 hp.2 hs⟩)
    ⟨matched_fresh, tidy_fresh⟩ (along_and hids hcare) hrun
  exact served_of_tidy hboth.1 hboth.2

/-! ## A request between two others -/

/-- A codec that knows two responses. -/
def someCodec : Codec Unit where
  encode_request _ := .ok ""
  decode_response msg :=
    if msg = "first" then .ok { msgId := 1, error := .OK, payload := [] }
    else if msg = "second" then .ok { msgId := 2, error := .OK, payload := [] }
    else .error { kind := .DecodeException }

def noop : Action Unit := .execute .NONE none .DEFAULT

/-- Two requests overlap, their responses come in the other order, and one
comes twice. -/
def overlapping : List (Action Unit) :=
  [noop, .sent 0, noop, .sent 1, .wait_empty, .response "second", .response "second",
    .finish 1, .response "first", .finish 0, .resume 0]

theorem overlapping_requests_are_served :
    ∃ s, run (step someCodec) {} overlapping = some s ∧ OneToOne someCodec s ∧ Served s := by
  have h := requests_are_served_in_careful_runs
    (show run (step someCodec) {} overlapping = some _ from rfl) (by decide)
  exact ⟨_, rfl, h.1, h.2 (by decide)⟩

/-- A task makes two requests, one right after the other. -/
def backToBack : List (Action Unit) :=
  [noop, .sent 0, .wait_empty, .response "first", .finish 0, noop, .sent 1, .resume 0]

/-- The end of the first request wakes `wait_empty`, and the second request
starts before it comes back. -/
theorem wait_empty_comes_back_with_a_request_outstanding :
    Along (step someCodec) IdsLast {} backToBack ∧
      (run (step someCodec) {} backToBack).map (fun s => (s.waiters, s.outstanding)) =
        some ([.returned [1]], [1]) := by
  decide

end devcon_spark.command
