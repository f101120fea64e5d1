-- Calls of the commander that overlap, at the simulated controller. It answers before the event
-- loop gets to another call, so that each call ends as if it had been made after the ones before
-- it were back.
import DevconSpark.CommandLaws
import DevconSpark.MockedLaws

open programs runs devcon_spark.exceptions
open devcon_spark.command (Codec Commander End Future Matched Opcode ReadMode)
open devcon_spark.models (EncodedPayload)
open devcon_spark.connection.mock_connection
  (Handler MockConnection Request Response Wire send_request)

namespace devcon_spark.mocked

variable (setup : Setup String)

/-! ## One call after another -/

/-- The arguments of `_execute`. -/
structure Asked where
  opcode : Opcode
  payload : Option EncodedPayload := none
  mode : ReadMode := .DEFAULT

def Asked.request (asked : Asked) (msgId : Nat) : Request :=
  { msgId, opcode := asked.opcode, mode := asked.mode, payload := asked.payload }

def returned (s : Controller String) (asked : Asked) : Except Exn (List EncodedPayload) :=
  ((_execute setup asked.opcode asked.payload asked.mode).run.run s).1

def after (s : Controller String) (asked : Asked) : Controller String :=
  ((_execute setup asked.opcode asked.payload asked.mode).run.run s).2

def results : Controller String → List Asked → List (Except Exn (List EncodedPayload))
  | _, [] => []
  | s, asked :: calls => returned setup s asked :: results (after setup s asked) calls

/-! ## Calls that overlap -/

def wireCodec : Codec EncodedPayload where
  encode_request := setup.wire.encode_request
  decode_response := setup.wire.decode_response

/-- The commander of any number of calls, and the connection that they send to. -/
structure Shared where
  cmder : Commander EncodedPayload := {}
  conn : MockConnection
  sent : List (Sent String) := []

/-- The controller, for a call that starts now. -/
def Shared.controller (s : Shared) : Controller String :=
  { conn := s.conn, msgid := s.cmder.msgid, sent := s.sent }

/-- What the commander sees of `send_request`, which awaits `on_response` before it is back. -/
def arrivals (n : Nat) : Except Exn (Option String) → List (command.Action EncodedPayload)
  | .error ex => [.sendFail n ex]
  | .ok none => [.sent n]
  | .ok (some msg) => [.response msg, .sent n]

/-- A call of `_execute`, up to its `wait_for`. Nothing before that waits for the event loop. -/
def Shared.call (s : Shared) (asked : Asked) : Option Shared :=
  let started := s.cmder.execute (wireCodec setup) asked.opcode asked.payload asked.mode
  match setup.wire.encode_request (asked.request s.cmder.next_id) with
  | .error _ => some { s with cmder := started }
  | .ok msg =>
    let out := (sendRequest setup msg).run.run { s.controller with msgid := s.cmder.next_id }
    (run (command.step (wireCodec setup)) started
      (arrivals s.cmder.requests.length out.1)).map fun cmder =>
        { cmder, conn := out.2.conn, sent := out.2.sent }

/-- What the event loop gets to. -/
inductive Turn
  | called (asked : Asked)
  | timeout (n : Nat)
  | cancel (n : Nat)
  | finish (n : Nat)
  | wait_empty
  | resume (w : Nat)

def Shared.act (s : Shared) (a : command.Action EncodedPayload) : Option Shared :=
  (command.step (wireCodec setup) s.cmder a).map fun cmder => { s with cmder }

def turn (s : Shared) : Turn → Option Shared
  | .called asked => s.call setup asked
  | .timeout n => s.act setup (.timeout n)
  | .cancel n => s.act setup (.cancel n)
  | .finish n => s.act setup (.finish n)
  | .wait_empty => s.act setup .wait_empty
  | .resume w => s.act setup (.resume w)

def Turn.asked : Turn → Option Asked
  | .called asked => some asked
  | _ => none

/-- The calls, in the order of their start. -/
def calls (turns : List Turn) : List Asked := turns.filterMap Turn.asked

/-- The message ids do not run out. -/
def IdsLast (s : Shared) : Turn → Prop
  | .called asked =>
    command.IdsLast s.cmder (.execute asked.opcode asked.payload asked.mode)
  | _ => True

instance (s : Shared) : (a : Turn) → Decidable (IdsLast s a)
  | .called asked =>
    inferInstanceAs (Decidable
      (command.IdsLast s.cmder (.execute asked.opcode asked.payload asked.mode)))
  | .timeout _ | .cancel _ | .finish _ | .wait_empty | .resume _ => isTrue trivial

end devcon_spark.mocked

namespace devcon_spark.connection.mock_connection

variable {env : Environment} {now : Nat → Int} {request : Request} {response : Response}
  {msgId : Nat}

/-- A handler that answers under a message id, if it answers. -/
def AnswersTo (msgId : Nat) (x : Handler Response) : Prop :=
  Triple (fun _ => True) x fun r _ => ∀ response, r = .ok response → response.msgId = msgId

theorem answersTo_pure (h : response.msgId = msgId) : AnswersTo msgId (pure response) :=
  triple_pure fun _ _ _ hr => Except.ok.inj hr ▸ h

theorem answersTo_bind {α : Type} {x : Handler α} {f : α → Handler Response}
    (h : ∀ a, AnswersTo msgId (f a)) : AnswersTo msgId (x >>= f) := by
  have hx : Triple (fun _ => True) x fun _ _ => True := fun _ _ => trivial
  refine triple_bind hx h ?_
  rintro e s - response ⟨⟩

theorem answersTo_handleOpcode :
    AnswersTo response.msgId (handleOpcode env now request response) := by
  have hanswer : ∀ payload, AnswersTo response.msgId (pure (answer response payload)) :=
    fun _ => answersTo_pure rfl
  have hrefuse : ∀ error, AnswersTo response.msgId (pure (refuse response error)) :=
    fun _ => answersTo_pure rfl
  have hsame : AnswersTo response.msgId (pure response) := answersTo_pure rfl
  unfold handleOpcode
  cases request.opcode
  case NONE | VERSION => exact answersTo_bind fun _ => hsame
  case BLOCK_READ | STORAGE_READ | NAME_READ =>
    refine answersTo_bind fun payload => answersTo_bind fun s => ?_
    split
    · exact hrefuse _
    · exact answersTo_bind fun _ => hanswer _
  case BLOCK_READ_ALL | STORAGE_READ_ALL | NAME_READ_ALL =>
    exact answersTo_bind fun s => answersTo_bind fun _ => hanswer _
  case BLOCK_WRITE =>
    refine answersTo_bind fun payload => answersTo_bind fun s => ?_
    split
    · exact hrefuse _
    split
    · exact hrefuse _
    split
    · exact hrefuse _
    · refine answersTo_bind fun src => answersTo_bind fun _ => answersTo_bind fun _ => ?_
      exact answersTo_bind fun _ => hanswer _
  case BLOCK_CREATE =>
    refine answersTo_bind fun payload => answersTo_bind fun s => ?_
    split
    · exact hrefuse _
    split
    · exact hrefuse _
    split
    · exact hrefuse _
    · refine answersTo_bind fun nid => answersTo_bind fun block => answersTo_bind fun _ => ?_
      exact answersTo_bind fun _ => hanswer _
  case BLOCK_DELETE =>
    refine answersTo_bind fun payload => answersTo_bind fun s => ?_
    split
    · exact hrefuse _
    split
    · exact hrefuse _
    · exact answersTo_bind fun _ => hsame
  case BLOCK_DISCOVER => exact answersTo_bind fun _ => answersTo_bind fun _ => hanswer _
  case NAME_WRITE =>
    refine answersTo_bind fun payload => answersTo_bind fun s => ?_
    dsimp only
    split
    · exact hrefuse _
    split
    · exact hrefuse _
    split
    · exact hrefuse _
    · exact answersTo_bind fun _ => answersTo_bind fun _ => hanswer _
  case REBOOT | FACTORY_RESET => exact answersTo_bind fun _ => answersTo_bind fun _ => hsame
  case CLEAR_BLOCKS =>
    refine answersTo_bind fun s => answersTo_bind fun payload => answersTo_bind fun _ => ?_
    exact answersTo_bind fun _ => hanswer _
  case CLEAR_WIFI => exact answersTo_bind fun _ => answersTo_bind fun _ => hsame
  case FIRMWARE_UPDATE => exact hsame

theorem handle_command_msgId (s : MockConnection) :
    Ends (handle_command env now request) s fun r _ =>
      ∀ response, r = .ok (some response) → response.msgId = request.msgId := by
  unfold handle_command
  refine ends_get ?_
  split
  case h_1 error errors herrors =>
    refine ends_modify (ends_pure ?_)
    intro response hr
    obtain ⟨code, -, rfl⟩ := Option.map_eq_some_iff.mp (Except.ok.inj hr)
    rfl
  case h_2 herrors =>
    refine ends_bind (answersTo_handleOpcode s trivial) ?_ ?_
    · rintro response s' h
      refine ends_pure ?_
      rintro _ ⟨⟩
      exact h response rfl
    · rintro e s' - response ⟨⟩

/-- What Protobuf keeps of a message that it reads back. -/
structure Wire.KeepsIds {Msg : Type} (wire : Wire Msg) : Prop where
  request : ∀ r msg r', wire.encode_request r = .ok msg → wire.decode_request msg = .ok r' →
    r'.msgId = r.msgId
  response : ∀ r msg r', wire.encode_response r = .ok msg → wire.decode_response msg = .ok r' →
    r'.msgId = r.msgId

/-- The simulation answers a request under its own id. -/
theorem send_request_msgId {Msg : Type} {wire : Wire Msg} (hwire : wire.KeepsIds) {msg : Msg}
    (hmsg : wire.encode_request request = .ok msg) (s : MockConnection) :
    Ends (send_request env wire now msg) s fun r _ => ∀ text response, r = .ok (some text) →
      wire.decode_response text = .ok response → response.msgId = request.msgId := by
  unfold send_request
  refine ends_bind (P := fun _ _ => True) trivial (fun _ s' _ => ?_) (by rintro e s' - _ _ ⟨⟩)
  refine ends_lift (fun request' hrequest' => ?_) (by rintro e - _ _ ⟨⟩)
  have hid := hwire.request _ _ _ hmsg hrequest'
  refine ends_bind (handle_command_msgId s') (fun out s'' hout => ?_) (by rintro e s'' - _ _ ⟨⟩)
  cases out with
  | none => exact ends_pure (by rintro _ _ ⟨⟩)
  | some response =>
    refine ends_lift (fun text htext => ends_pure ?_) (by rintro e - _ _ ⟨⟩)
    rintro _ response' ⟨⟩ hresponse'
    rw [hwire.response _ _ _ htext hresponse', hout response rfl, hid]

end devcon_spark.connection.mock_connection

namespace devcon_spark.mocked

variable {setup : Setup String}

section alone

variable {s : Controller String} {asked : Asked}

theorem execute_unsent {ex : Exn}
    (h : setup.wire.encode_request (asked.request ((s.msgid + 1) % 0xFFFF)) = .error ex) :
    (_execute setup asked.opcode asked.payload asked.mode).run.run s =
      (.error ex, { s with msgid := (s.msgid + 1) % 0xFFFF }) := by
  unfold _execute
  rw [run_bind_ok (run_get s), run_bind_ok (run_modify _ s), run_bind, run_lift]
  unfold Asked.request at h
  rw [h]

theorem execute_sent {msg : String} {out : Except Exn (Option String) × Controller String}
    (h : setup.wire.encode_request (asked.request ((s.msgid + 1) % 0xFFFF)) = .ok msg)
    (hout : (sendRequest setup msg).run.run { s with msgid := (s.msgid + 1) % 0xFFFF } = out) :
    (_execute setup asked.opcode asked.payload asked.mode).run.run s =
      ((out.1.mapError (command.timeoutOf asked.opcode)).bind
        (settled setup asked.opcode ((s.msgid + 1) % 0xFFFF)), out.2) := by
  unfold _execute
  rw [run_bind_ok (run_get s), run_bind_ok (run_modify _ s), run_bind, run_lift]
  unfold Asked.request at h
  rw [h]
  dsimp only
  rw [run_bind, run_awaitSend, hout]
  rcases out with ⟨ex | answer, s'⟩
  · rfl
  · exact run_lift _ _

end alone


/-! ## One call among the others -/

section request

variable {result : Except Exn (List EncodedPayload)} {r r' : command.Request EncodedPayload}
  {a : command.Action EncodedPayload} {how : End EncodedPayload}

/-- A request that is sent, and that ends with this result unless it is cancelled. -/
def Follows (result : Except Exn (List EncodedPayload)) (r : command.Request EncodedPayload) :
    Prop :=
  match r.phase, r.fut with
  | .sending, _ => False
  | .awaiting, .result response => r.outcome (.completed response) = some result
  | .awaiting, _ => r.outcome .timedOut = some result
  | .cancelling, _ => True
  | .ended how, _ => how = .cancelled ∨ r.outcome how = some result

theorem follows_goesOn (h : Follows result r) (hnext : r.next a = some (.goesOn r')) :
    Follows result r' := by
  rcases r with ⟨id, op, fut, phase⟩
  cases a <;> cases phase <;> cases fut <;> simp [command.Request.next] at hnext <;>
    subst hnext <;> first | exact h.elim | exact h | trivial

theorem follows_ends (h : Follows result r) (hnext : r.next a = some (.ends how)) :
    Follows result { r with phase := .ended how } := by
  rcases r with ⟨id, op, fut, phase⟩
  cases a <;> cases phase <;> cases fut <;> simp [command.Request.next] at hnext <;>
    subst hnext <;> first | exact h.elim | exact Or.inr h | exact Or.inl rfl

end request

theorem forall₂_set {α β : Type} {R : α → β → Prop} {as : List α} {bs : List β} {n : Nat} {b b' : β}
    (h : List.Forall₂ R as bs) (hb : bs[n]? = some b) (hR : ∀ a, R a b → R a b') :
    List.Forall₂ R as (bs.set n b') := by
  induction h generalizing n with
  | nil => simp at hb
  | cons hab hrest ih =>
    cases n with
    | zero =>
      cases hb
      exact .cons (hR _ hab) hrest
    | succ n => exact .cons hab (ih hb)

/-- What comes after a call started leaves each call with its result. -/
theorem follows_step {s t : Commander EncodedPayload} {a : command.Action EncodedPayload} {n : Nat}
    {results : List (Except Exn (List EncodedPayload))} (hs : Matched s)
    (h : List.Forall₂ Follows results s.requests) (ht : s.advance a n = some t) :
    List.Forall₂ Follows results t.requests ∧ t.msgid = s.msgid := by
  obtain ⟨r, hr, ⟨r', hnext, rfl⟩ | ⟨how, hnext, rfl⟩⟩ := command.advance_some ht
  · exact ⟨forall₂_set h hr fun _ hfollows => follows_goesOn hfollows hnext, rfl⟩
  · have hlookup := (hs.active r.msg_id n).mpr ⟨r, hr, rfl, (command.next_ends hnext).1⟩
    have hall := forall₂_set h hr fun _ hfollows => follows_ends hfollows hnext
    unfold Commander.conclude
    rw [hlookup]
    dsimp only
    split
    · exact ⟨hall, rfl⟩
    · exact ⟨hall, rfl⟩

/-! ## The start of a call -/

section start

variable {s : Commander EncodedPayload} {rs : List (command.Request EncodedPayload)}
  {r : command.Request EncodedPayload}

/-- The newest request of a commander, which is registered. -/
structure Newest (s : Commander EncodedPayload) (rs : List (command.Request EncodedPayload))
    (r : command.Request EncodedPayload) : Prop where
  requests : s.requests = rs ++ [r]
  active : s.active_messages.lookup r.msg_id = some rs.length

theorem Newest.getElem (h : Newest s rs r) : s.requests[rs.length]? = some r := by
  rw [h.requests]
  exact List.getElem?_concat_length

theorem Newest.set (h : Newest s rs r) (r' : command.Request EncodedPayload) :
    s.requests.set rs.length r' = rs ++ [r'] := by
  rw [h.requests, List.set_append_right _ _ le_rfl]
  simp

theorem Newest.sent (h : Newest s rs r) (hr : r.phase = .sending) :
    s.advance (.sent rs.length) rs.length =
      some { s with requests := rs ++ [{ r with phase := .awaiting }] } := by
  unfold Commander.advance
  rw [h.getElem]
  simp [command.Request.next, hr, h.set]

theorem Newest.sendFail (h : Newest s rs r) (hr : r.phase = .sending) (ex : Exn) :
    ∃ t, s.advance (.sendFail rs.length ex) rs.length = some t ∧ t.msgid = s.msgid ∧
      t.requests = rs ++ [{ r with phase := .ended (.sendFailed ex) }] := by
  refine ⟨s.conclude rs.length r (.sendFailed ex), ?_, ?_⟩
  · unfold Commander.advance
    rw [h.getElem]
    simp [command.Request.next, hr]
  · unfold Commander.conclude
    rw [h.active]
    dsimp only
    split
    · exact ⟨rfl, h.set _⟩
    · exact ⟨rfl, h.set _⟩

/-- A response that cannot be read changes nothing, and the others are for the newest request. -/
theorem Newest.response (h : Newest s rs r) (hr : r.fut = .pending) {text : String}
    (hid : ∀ response, setup.wire.decode_response text = .ok response →
      response.msgId = r.msg_id) :
    ∃ t fut, s.on_response (wireCodec setup) text = .ok t ∧ t.msgid = s.msgid ∧
      Newest t rs { r with fut } ∧
      fut = (setup.wire.decode_response text).toOption.elim .pending .result := by
  unfold Commander.on_response Commander.take_response
  cases hdecode : setup.wire.decode_response text with
  | error ex =>
    refine ⟨s, .pending, ?_, rfl, hr ▸ h, rfl⟩
    simp only [wireCodec, hdecode]
    rfl
  | ok response =>
    have hlookup : s.active_messages.lookup response.msgId = some rs.length :=
      hid response hdecode ▸ h.active
    rcases r with ⟨id, op, fut, phase⟩
    obtain rfl : fut = .pending := hr
    let t : Commander EncodedPayload :=
      { s with
        requests := s.requests.set rs.length ⟨id, op, .result response, phase⟩
        accepted := s.accepted ++
          [{ request := rs.length, response, outstanding := s.outstanding }] }
    refine ⟨t, .result response, ?_, rfl, ⟨h.set _, h.active⟩, rfl⟩
    simp only [wireCodec, hdecode, bind, Except.bind, hlookup, h.getElem]
    rfl

/-- What arrives while a call sends gives it the result of a call that is alone. -/
theorem Newest.arrivals (h : Newest s rs r) (hfut : r.fut = .pending) (hphase : r.phase = .sending)
    {out : Except Exn (Option String)} (hid : ∀ text response, out = .ok (some text) →
      setup.wire.decode_response text = .ok response → response.msgId = r.msg_id) :
    ∃ t r', run (command.step (wireCodec setup)) s (arrivals rs.length out) = some t ∧
      t.msgid = s.msgid ∧ t.requests = rs ++ [r'] ∧
      Follows ((out.mapError (command.timeoutOf r.opcode)).bind
        (settled setup r.opcode r.msg_id)) r' := by
  cases out with
  | error ex =>
    obtain ⟨t, ht, hmsgid, hrequests⟩ := h.sendFail hphase ex
    refine ⟨t, _, ?_, hmsgid, hrequests, Or.inr rfl⟩
    simp [mocked.arrivals, run_cons, command.step, ht]
  | ok answer =>
    cases answer with
    | none =>
      refine ⟨{ s with requests := rs ++ [{ r with phase := .awaiting }] }, _, ?_, rfl, rfl, ?_⟩
      · simp only [mocked.arrivals, run_cons, command.step, h.sent hphase]
        rfl
      · unfold Follows
        simp [hfut]
        rfl
    | some text =>
      obtain ⟨t, fut, ht, hmsgid, hnewest, hresult⟩ :=
        h.response hfut fun response hresponse => hid text response rfl hresponse
      refine ⟨{ t with requests := rs ++ [{ r with fut, phase := .awaiting }] }, _, ?_, hmsgid, rfl,
        ?_⟩
      · simp only [mocked.arrivals, run_cons, command.step, ht, Except.toOption,
          Option.bind_some, hnewest.sent hphase]
        rfl
      · subst hresult
        unfold Follows
        cases hdecode : setup.wire.decode_response text with
        | error ex =>
          simp [Except.mapError, Except.bind, settled, hdecode, Except.toOption,
            command.Request.outcome]
        | ok response =>
          have hmsgId := hid text response rfl hdecode
          by_cases hok : response.error = .OK <;>
            simp [Except.mapError, Except.bind, settled, hdecode, Except.toOption,
              command.Request.outcome, hmsgId, hok]

end start

theorem matched_arrivals {s t : Commander EncodedPayload} {n : Nat}
    {out : Except Exn (Option String)} (hs : Matched s)
    (ht : run (command.step (wireCodec setup)) s (arrivals n out) = some t) : Matched t := by
  have hsent : ∀ s', Matched s' → run (command.step (wireCodec setup)) s' [.sent n] = some t →
      Matched t := by
    intro s' hs' ht
    obtain ⟨u, hu, ⟨⟩⟩ := run_cons_some ht
    exact command.matched_step (a := .sent n) hs' trivial hu
  cases out with
  | error ex =>
    obtain ⟨u, hu, ⟨⟩⟩ := run_cons_some ht
    exact command.matched_step (a := .sendFail n ex) hs trivial hu
  | ok answer =>
    cases answer with
    | none => exact hsent s hs ht
    | some text =>
      obtain ⟨u, hu, ht⟩ := run_cons_some ht
      exact hsent u (command.matched_step (a := .response text) hs trivial hu) ht

/-! What `_execute` made of the commander before it sends. -/

theorem started_unsent (s : Commander EncodedPayload) {asked : Asked} {ex : Exn}
    (h : setup.wire.encode_request (asked.request s.next_id) = .error ex) :
    s.execute (wireCodec setup) asked.opcode asked.payload asked.mode =
      { s with
        msgid := s.next_id
        requests := s.requests ++
          [{ msg_id := s.next_id, opcode := asked.opcode, fut := .pending
             phase := .ended (.encodeFailed ex) }] } := by
  unfold Asked.request at h
  simp only [Commander.execute, wireCodec, h]

theorem started_sent (s : Commander EncodedPayload) {asked : Asked} {msg : String}
    (h : setup.wire.encode_request (asked.request s.next_id) = .ok msg) :
    s.execute (wireCodec setup) asked.opcode asked.payload asked.mode =
      { s with
        msgid := s.next_id
        active_messages := s.active_messages.insert s.next_id s.requests.length
        empty_ev := false
        requests := s.requests ++
          [{ msg_id := s.next_id, opcode := asked.opcode, fut := .pending
             phase := .sending }] } := by
  unfold Asked.request at h
  simp only [Commander.execute, wireCodec, h]

/-- A call leaves the controller as a call that is alone would, and gets its result. -/
theorem call_right (hwire : setup.wire.KeepsIds) {s : Shared} {asked : Asked}
    (hs : Matched s.cmder) (hids : IdsLast s (.called asked)) :
    ∃ t r, s.call setup asked = some t ∧ Matched t.cmder ∧
      t.controller = after setup s.controller asked ∧
      t.cmder.requests = s.cmder.requests ++ [r] ∧
      Follows (returned setup s.controller asked) r := by
  have hstarted :
      Matched (s.cmder.execute (wireCodec setup) asked.opcode asked.payload asked.mode) :=
    command.matched_execute hs asked.opcode asked.payload asked.mode hids
  unfold Shared.call
  cases hmsg : setup.wire.encode_request (asked.request s.cmder.next_id) with
  | error ex =>
    have hrun := execute_unsent (s := s.controller) hmsg
    refine ⟨_, { msg_id := s.cmder.next_id, opcode := asked.opcode, fut := .pending
                 phase := .ended (.encodeFailed ex) }, rfl, hstarted, ?_, ?_, ?_⟩
    · rw [started_unsent s.cmder hmsg]
      exact (congrArg Prod.snd hrun).symm
    · rw [started_unsent s.cmder hmsg]
    · refine Or.inr ?_
      unfold returned
      rw [hrun]
      rfl
  | ok msg =>
    rcases hout : (sendRequest setup msg).run.run { s.controller with msgid := s.cmder.next_id }
      with ⟨out, controller⟩
    have hrun := execute_sent (s := s.controller) hmsg hout
    have hnewest : Newest (s.cmder.execute (wireCodec setup) asked.opcode asked.payload asked.mode)
        s.cmder.requests { msg_id := s.cmder.next_id, opcode := asked.opcode, fut := .pending
                           phase := .sending } := by
      rw [started_sent s.cmder hmsg]
      exact ⟨rfl, AList.lookup_insert _⟩
    have hid : ∀ text response, out = .ok (some text) →
        setup.wire.decode_response text = .ok response → response.msgId = s.cmder.next_id := by
      rintro text response rfl
      have hsend : Ends (send_request setup.mock setup.wire (setup.clock s.sent.length) msg) s.conn
          fun r _ => ∀ text response, r = .ok (some text) →
            setup.wire.decode_response text = .ok response →
              response.msgId = s.cmder.next_id :=
        connection.mock_connection.send_request_msgId hwire hmsg s.conn
      exact hsend text response (congrArg Prod.fst hout)
    obtain ⟨cmder, r, harrivals, hmsgid, hrequests, hfollows⟩ := hnewest.arrivals rfl rfl hid
    refine ⟨{ cmder, conn := controller.conn, sent := controller.sent }, r, ?_,
      matched_arrivals hstarted harrivals, ?_, hrequests, ?_⟩
    · dsimp only at hout ⊢
      rw [hout, harrivals]
      rfl
    · have hkept : controller.msgid = s.cmder.next_id := by
        rw [← congrArg (fun out => out.2.msgid) hout]
        rfl
      rw [started_sent s.cmder hmsg] at hmsgid
      unfold after Shared.controller at *
      rw [hrun]
      cases controller
      dsimp only at hmsgid hkept ⊢
      rw [hmsgid, hkept]
    · unfold returned
      rw [hrun]
      exact hfollows

/-! ## Any order -/

/-- The calls that were made so far, as the same calls one after another. -/
structure Sequential (setup : Setup String) (first : Controller String) (calls : List Asked)
    (s : Shared) : Prop where
  matched : Matched s.cmder
  controller : s.controller = calls.foldl (after setup) first
  requests : List.Forall₂ Follows (results setup first calls) s.cmder.requests

theorem results_snoc (first : Controller String) (calls : List Asked) (asked : Asked) :
    results setup first (calls ++ [asked]) =
      results setup first calls ++ [returned setup (calls.foldl (after setup) first) asked] := by
  induction calls generalizing first with
  | nil => rfl
  | cons c calls ih => simp [results, ih]

/-- What is not the start of a call leaves the connection alone. -/
theorem sequential_act {first : Controller String} {calls : List Asked} {s t : Shared}
    {a : command.Action EncodedPayload} (h : Sequential setup first calls s)
    (ht : s.act setup a = some t) (hids : command.IdsLast s.cmder a)
    (hstep : ∀ cmder, command.step (wireCodec setup) s.cmder a = some cmder →
      List.Forall₂ Follows (results setup first calls) cmder.requests ∧
        cmder.msgid = s.cmder.msgid) :
    Sequential setup first (calls ++ []) t := by
  obtain ⟨cmder, hcmder, rfl⟩ := Option.map_eq_some_iff.mp ht
  obtain ⟨hrequests, hmsgid⟩ := hstep cmder hcmder
  rw [List.append_nil]
  refine ⟨command.matched_step h.matched hids hcmder, ?_, hrequests⟩
  rw [← h.controller]
  unfold Shared.controller
  rw [hmsgid]

theorem sequential_turn (hwire : setup.wire.KeepsIds) {first : Controller String}
    {calls : List Asked} {s t : Shared} {a : Turn} (h : Sequential setup first calls s)
    (hids : IdsLast s a) (ht : turn setup s a = some t) :
    Sequential setup first (calls ++ a.asked.toList) t := by
  cases a with
  | called asked =>
    obtain ⟨t', r, ht', hmatched, hcontroller, hrequests, hfollows⟩ :=
      call_right hwire h.matched hids
    obtain rfl : t' = t := Option.some.inj (ht'.symm.trans ht)
    refine ⟨hmatched, ?_, ?_⟩
    · rw [hcontroller, h.controller]
      simp [Turn.asked]
    · rw [hrequests]
      simp only [Turn.asked, Option.toList_some, results_snoc, ← h.controller]
      exact List.rel_append h.requests (.cons hfollows .nil)
  | timeout n | cancel n | finish n =>
    exact sequential_act h ht trivial fun cmder hcmder => follows_step h.matched h.requests hcmder
  | wait_empty =>
    refine sequential_act h ht trivial fun cmder hcmder => ?_
    cases hcmder
    exact ⟨h.requests, rfl⟩
  | resume w =>
    refine sequential_act h ht trivial fun cmder hcmder => ?_
    dsimp only [command.step] at hcmder
    split at hcmder
    · cases hcmder
      exact ⟨h.requests, rfl⟩
    · cases hcmder

theorem sequential_run (hwire : setup.wire.KeepsIds) {first : Controller String}
    {before : List Asked} {s t : Shared} {turns : List Turn}
    (h : Sequential setup first before s) (hids : Along (turn setup) IdsLast s turns)
    (hrun : run (turn setup) s turns = some t) :
    Sequential setup first (before ++ calls turns) t := by
  induction turns generalizing before s with
  | nil =>
    cases hrun
    simpa [calls] using h
  | cons a turns ih =>
    obtain ⟨u, hu, hrun⟩ := run_cons_some hrun
    have hnext := ih (sequential_turn hwire h hids.1 hu) (hids.2 u hu) hrun
    rw [List.append_assoc] at hnext
    convert hnext using 2
    cases a <;> rfl

theorem sequential_fresh (setup : Setup String) (conn : MockConnection) :
    Sequential setup { conn } [] { conn } where
  matched := command.matched_fresh
  controller := rfl
  requests := .nil

theorem ended_of_follows {result : Except Exn (List EncodedPayload)}
    {r : command.Request EncodedPayload} {how : End EncodedPayload} (h : Follows result r)
    (hphase : r.phase = .ended how) : how = .cancelled ∨ r.outcome how = some result := by
  unfold Follows at h
  rw [hphase] at h
  exact h

/-- However calls overlap at the simulation, it is left as if they had been made one after another,
and each call that came back has what it would have got then, unless it was cancelled. -/
theorem overlapping_calls_are_sequential (hwire : setup.wire.KeepsIds) {conn : MockConnection}
    {turns : List Turn} {t : Shared} (hids : Along (turn setup) IdsLast { conn } turns)
    (hrun : run (turn setup) { conn } turns = some t) :
    t.controller = (calls turns).foldl (after setup) { conn } ∧
      List.Forall₂ (fun result r => ∀ how, r.phase = .ended how →
          how = .cancelled ∨ r.outcome how = some result)
        (results setup { conn } (calls turns)) t.cmder.requests := by
  obtain ⟨-, hcontroller, hrequests⟩ := sequential_run hwire (sequential_fresh setup conn) hids hrun
  exact ⟨hcontroller, hrequests.imp fun _ _ h how => ended_of_follows h⟩

/-! ### A run -/

/-- The texts of the messages of this run. -/
def texts : Wire String where
  encode_request
    | { msgId := 1, opcode := .NONE, mode := .DEFAULT, payload := none } => .ok "CAE="
    | { msgId := 2, opcode := .VERSION, mode := .DEFAULT, payload := none } => .ok "CAIQAQ=="
    | _ => .error { kind := .EncodeException, msg := "" }
  decode_request text :=
    if text = "CAE=" then .ok { msgId := 1, opcode := .NONE, mode := .DEFAULT, payload := none }
    else if text = "CAIQAQ==" then
      .ok { msgId := 2, opcode := .VERSION, mode := .DEFAULT, payload := none }
    else .error { kind := .DecodeException, msg := "" }
  encode_response
    | { msgId := 2, error := .OK, payload := [], mode := .DEFAULT } => .ok "CAI="
    | _ => .error { kind := .EncodeException, msg := "" }
  decode_response text :=
    if text = "CAI=" then .ok { msgId := 2, error := .OK, payload := [] }
    else .error { kind := .DecodeException, msg := "" }

theorem texts_keep_ids : texts.KeepsIds where
  request := by
    rintro r msg r' h h'
    dsimp only [texts] at h
    split at h
    · cases h
      cases h'
      rfl
    · cases h
      cases h'
      rfl
    · cases h
  response := by
    rintro r msg r' h h'
    dsimp only [texts] at h
    split at h
    · cases h
      cases h'
      rfl
    · cases h

def texting : Setup String where
  wire := texts
  codec := kettles.codec
  mock := kettles.mock
  api := kettles.api
  clock := fun _ _ => 0

/-- The first call gets no response at all, and the second one ends before it. -/
theorem noop_and_version_overlap :
    ∃ t, run (turn texting) { conn := { start_time := 0, next_error := [none] } }
        [.called { opcode := .NONE }, .called { opcode := .VERSION }, .wait_empty, .finish 1,
          .timeout 0, .finish 0, .resume 0] = some t ∧
      List.Forall₂ (fun result r => ∀ how, r.phase = .ended how →
          how = .cancelled ∨ r.outcome how = some result)
        [.error { kind := .CommandTimeout, msg := "NONE" }, .ok []] t.cmder.requests := by
  have hsome : (run (turn texting) { conn := { start_time := 0, next_error := [none] } }
      [.called { opcode := .NONE }, .called { opcode := .VERSION }, .wait_empty, .finish 1,
        .timeout 0, .finish 0, .resume 0]).isSome = true := by
    decide +kernel
  obtain ⟨t, ht⟩ := Option.isSome_iff_exists.mp hsome
  refine ⟨t, ht, ?_⟩
  exact (overlapping_calls_are_sequential texts_keep_ids (by decide +kernel) ht).2

end devcon_spark.mocked
