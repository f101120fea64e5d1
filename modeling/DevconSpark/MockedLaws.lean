-- The simulated controller keeps its names in order, so that the block store of
-- the service mirrors them, whatever operations run.
import DevconSpark.MockAnswers
import DevconSpark.Mocked

open bidict mirrors programs py_dict registry runs devcon_spark.exceptions devcon_spark.codec
open devcon_spark.command (CboxCommander ErrorCode Opcode ReadMode)
open devcon_spark.models (BlockStore EncodedPayload FirmwareBlock)
open devcon_spark.spark_api (Directory Counts Known New Confirmed Keeper)
open devcon_spark.connection.mock_connection
open devcon_spark.state_machine (Op StateMachine someController someFirmwareConfig)

namespace devcon_spark.connection.mock_connection

/-! ## Over the wire -/

/-- A payload that arrived. -/
structure Carried (p p' : EncodedPayload) : Prop where
  blockId : p'.blockId = p.blockId
  name : p'.name = sentName p.name

/-- What was encoded can be decoded. A request without a payload can be encoded. -/
structure Wire.Faithful {Msg : Type} (wire : Wire Msg) : Prop where
  request : ∀ r msg, wire.encode_request r = .ok msg → ∃ r', wire.decode_request msg = .ok r' ∧
    r'.msgId = r.msgId ∧ r'.opcode = r.opcode ∧ Option.Rel Carried r.payload r'.payload
  plain : ∀ msgId opcode mode, msgId < 0xFFFF →
    ∃ msg, wire.encode_request { msgId, opcode, mode, payload := none } = .ok msg
  response : ∀ r msg, wire.encode_response r = .ok msg → ∃ r', wire.decode_response msg = .ok r' ∧
    r'.msgId = r.msgId ∧ r'.error = r.error ∧ List.Forall₂ Carried r.payload r'.payload

@[simp] theorem sentName_sentName (id : Option String) : sentName (sentName id) = sentName id := rfl

theorem Listed.carried {D : Directory} {p p' : EncodedPayload} (h : Listed D p)
    (hp : Carried p p') : Listed D p' := by
  unfold Listed at h ⊢
  rw [hp.blockId, hp.name]
  exact h

theorem replied_of_carried {opcode : Opcode} {payload payload' : Option EncodedPayload}
    {D D' : Directory} {payloads payloads' : List EncodedPayload}
    (hsent : Option.Rel Carried payload payload') (hback : List.Forall₂ Carried payloads payloads')
    (h : Replied opcode payload' D payloads D') : Replied opcode payload D payloads' D' := by
  have hone : ∀ {P Q : EncodedPayload → Prop}, (∃ p, payloads = [p] ∧ P p) →
      (∀ p p', Carried p p' → P p → Q p') → ∃ p, payloads' = [p] ∧ Q p := by
    rintro P Q ⟨p, rfl, hp⟩ himp
    cases hback with
    | cons hcarried htail =>
      cases htail
      exact ⟨_, rfl, himp p _ hcarried hp⟩
  have hlisted : (∀ p ∈ payloads, Listed D p) → ∀ p ∈ payloads', Listed D p := by
    intro hall p' hp'
    obtain ⟨p, hp, hcarried⟩ := forall₂_right hback hp'
    exact (hall p hp).carried hcarried
  cases opcode
  case NONE | VERSION | REBOOT | CLEAR_WIFI | FIRMWARE_UPDATE => exact h
  case CLEAR_BLOCKS | FACTORY_RESET => exact h
  case BLOCK_READ | STORAGE_READ | NAME_READ | BLOCK_WRITE =>
    exact ⟨h.1, hone h.2 fun p p' hcarried hp => hp.carried hcarried⟩
  case BLOCK_READ_ALL | STORAGE_READ_ALL | NAME_READ_ALL =>
    refine ⟨h.1, hlisted h.2.1, fun v id hv => ?_, ?_⟩
    · obtain ⟨p, hp, hnid, hid⟩ := h.2.2.1 v id hv
      obtain ⟨p', hp', hcarried⟩ := forall₂_left hback hp
      refine ⟨p', hp', ?_, ?_⟩
      · rw [hcarried.blockId, hnid]
      · rw [hcarried.name, sentName_sentName, hid]
    · have hids : payloads.map EncodedPayload.blockId = payloads'.map EncodedPayload.blockId :=
        map_eq_of_forall₂ (hback.imp fun _ _ hcarried => hcarried.blockId.symm)
      exact hids ▸ h.2.2.2
  case BLOCK_DISCOVER => exact ⟨h.1, hlisted h.2⟩
  case BLOCK_CREATE =>
    refine hone h fun p p' hcarried hp => ?_
    obtain ⟨hfree, hzero, hname, hD, asked', rfl, hnid, hid⟩ := hp
    cases hsent with
    | some hasked =>
      rw [hcarried.blockId, hcarried.name, sentName_sentName]
      refine ⟨hfree, hzero, hname, hD, _, rfl, ?_, ?_⟩
      · rw [hcarried.blockId, ← hasked.blockId]
        exact hnid
      · rw [hcarried.name, sentName_sentName, hid, hasked.name, sentName_sentName]
  case BLOCK_DELETE =>
    obtain ⟨p', rfl, hD⟩ := h
    cases hsent with
    | some hcarried =>
      rw [hcarried.blockId] at hD
      exact ⟨_, rfl, hD⟩
  case NAME_WRITE =>
    refine hone h fun p p' hcarried hp => ?_
    rw [hcarried.blockId, hcarried.name, sentName_sentName]
    exact hp

end devcon_spark.connection.mock_connection

namespace devcon_spark.mocked

variable {Msg : Type} {setup : Setup Msg}

/-! ## Orderly messages -/

/-- The connection that handles a message. -/
def Sent.timed (e : Sent Msg) : MockConnection := ((update_systime (e.now 0)).run.run e.conn).2

/-- The simulation does not raise, and no identity is given twice. -/
structure OrderlySent (setup : Setup Msg) (e : Sent Msg) : Prop where
  answered : ∃ answer,
    ((send_request setup.mock setup.wire e.now e.msg).run.run e.conn).1 = .ok answer
  fresh : ∀ request payload block, setup.wire.decode_request e.msg = .ok request →
    Stores setup.mock e.timed request payload block → NewIdentity e.timed payload

/-- A connection whose blocks are sound, and whose injected errors are errors. -/
structure SoundConn (conn : MockConnection) : Prop where
  blocks : SoundConnection conn
  errors : some .OK ∉ conn.next_error

theorem timed_right (setup : Setup Msg) (e : Sent Msg) (hs : SoundConn e.conn) : SoundConn e.timed ∧
    directory e.timed.blocks = directory e.conn.blocks ∧
    e.timed.next_error = e.conn.next_error := by
  obtain ⟨hsame, herrors⟩ := update_systime_right (s := e.conn) (e.now 0)
  have hsound : SoundConnection
      (connection.mock_connection.step setup.mock e.conn (.updated (e.now 0))) :=
    step_sound (.updated (e.now 0)) hs.blocks trivial
  refine ⟨⟨hsound, ?_⟩, hsame, herrors⟩
  unfold Sent.timed
  rw [herrors]
  exact hs.errors

/-- What an orderly message is answered with. -/
structure Delivered (setup : Setup Msg) (request : Request) (conn : MockConnection)
    (answer : Option Msg) (conn' : MockConnection) : Prop where
  sound : SoundConn conn'
  commanded : ∃ out, Commanded request conn (.ok out) conn' ∧
    Option.Rel (fun response text => setup.wire.encode_response response = .ok text) out answer

theorem send_request_right {e : Sent Msg} {request : Request} (hs : SoundConn e.conn)
    (hdecode : setup.wire.decode_request e.msg = .ok request) (horderly : OrderlySent setup e) :
    ∃ answer conn', (send_request setup.mock setup.wire e.now e.msg).run.run e.conn =
      (.ok answer, conn') ∧ Delivered setup request e.conn answer conn' := by
  obtain ⟨htimed, hsame, herrors⟩ := timed_right setup e hs
  have hfresh : ∀ payload block, Stores setup.mock e.timed request payload block →
      NewIdentity e.timed payload :=
    fun payload block => horderly.fresh request payload block hdecode
  obtain ⟨answered, hanswered⟩ := horderly.answered
  unfold send_request at hanswered ⊢
  rcases htime : (update_systime (e.now 0)).run.run e.conn with ⟨ex | u, conn⟩
  · rw [run_bind_error htime] at hanswered
    cases hanswered
  obtain rfl : conn = e.timed := by
    unfold Sent.timed
    rw [htime]
  have hlift : (liftExcept (setup.wire.decode_request e.msg) : Handler Request).run.run e.timed =
      (.ok request, e.timed) := by
    rw [run_lift, hdecode]
  rw [run_bind_ok htime, run_bind_ok hlift] at hanswered ⊢
  have hright : Ends (handle_command setup.mock (fun n => e.now (n + 1)) request) e.timed
      (Commanded request e.timed) := handle_command_right htimed.blocks htimed.errors hfresh
  have hsound : SoundConnection
      ((handle_command setup.mock (fun n => e.now (n + 1)) request).run.run e.timed).2 :=
    step_sound (.handled (fun n => e.now (n + 1)) request) htimed.blocks hfresh
  unfold Ends at hright
  rcases hcommand : (handle_command setup.mock (fun n => e.now (n + 1)) request).run.run e.timed
    with ⟨ex | out, conn'⟩
  · rw [run_bind_error hcommand] at hanswered
    cases hanswered
  rw [run_bind_ok hcommand] at hanswered ⊢
  rw [hcommand] at hright hsound
  have hcommanded := hright.congr hsame herrors
  have hdelivered : SoundConn conn' := by
    refine ⟨hsound, ?_⟩
    rw [hcommanded.errors]
    exact fun hmem => hs.errors (List.mem_of_mem_tail hmem)
  cases out with
  | none => exact ⟨none, conn', rfl, hdelivered, none, hcommanded, .none⟩
  | some response =>
    cases hencoded : setup.wire.encode_response response with
    | error ex =>
      dsimp only at hanswered
      rw [hencoded] at hanswered
      cases hanswered
    | ok text =>
      have hback : (liftExcept (setup.wire.encode_response response) : Handler Msg).run.run
          conn' = (.ok text, conn') := by
        rw [run_lift, hencoded]
      refine ⟨some text, conn', ?_, hdelivered, some response, hcommanded, .some hencoded⟩
      dsimp only
      rw [run_bind_ok hback]
      rfl

/-! ## Orderly calls -/

def names (s : Controller Msg) : Directory := directory s.conn.blocks

def sound (s : Controller Msg) : Prop := SoundConn s.conn

/-- No injected errors are left. -/
def calm (s : Controller Msg) : Prop := s.conn.next_error = []

def orderly (setup : Setup Msg) (s : Controller Msg) : Prop := ∀ e ∈ s.sent, OrderlySent setup e

/-- What holds after a call of `_execute`. -/
structure Executed (setup : Setup Msg) (opcode : Opcode) (payload : Option EncodedPayload)
    (s : Controller Msg) (r : Except Exn (List EncodedPayload)) (s' : Controller Msg) : Prop where
  stays_sound : orderly setup s' → sound s'
  stays_calm : orderly setup s' → calm s → calm s'
  replied : orderly setup s' → ∀ payloads, r = .ok payloads → calm s ∧
    Replied opcode payload (names s) payloads (names s') ∧ ∀ p ∈ payloads, sentName p.name = p.name
  refused : orderly setup s' → ∀ ex, r = .error ex → names s' = names s
  answers : orderly setup s' → opcode = .NAME_READ_ALL ∨ opcode = .BLOCK_DISCOVER →
    payload = none → calm s → ∃ payloads, r = .ok payloads

/-- The response of the connection, as the call of `_execute` gets it. -/
theorem settled_right (hwire : setup.wire.Faithful) {request : Request} {opcode : Opcode}
    {payload : Option EncodedPayload} {msgId : Nat} {conn conn' : MockConnection}
    {answer : Option Msg} (hmsgId : request.msgId = msgId) (hopcode : request.opcode = opcode)
    (hpayload : Option.Rel Carried payload request.payload)
    (h : Delivered setup request conn answer conn') :
    (∃ payloads, settled setup opcode msgId answer = .ok payloads ∧ conn.next_error = [] ∧
      Replied opcode payload (directory conn.blocks) payloads (directory conn'.blocks) ∧
      ∀ p ∈ payloads, sentName p.name = p.name) ∨
    ∃ ex, settled setup opcode msgId answer = .error ex ∧
      directory conn'.blocks = directory conn.blocks ∧
      (opcode = .NAME_READ_ALL ∨ opcode = .BLOCK_DISCOVER → conn.next_error ≠ []) := by
  subst hmsgId hopcode
  obtain ⟨out, hcommanded, hrel⟩ := h.commanded
  cases hrel with
  | none =>
    obtain ⟨hinjected, hsame⟩ := hcommanded.silent rfl
    exact Or.inr ⟨_, rfl, hsame, fun _ => hinjected⟩
  | @some response text hencoded =>
    obtain ⟨response', hdecoded, hid, herror, hback⟩ := hwire.response response text hencoded
    have hmsgId : response'.msgId = request.msgId := hid.trans (hcommanded.msgId response rfl)
    unfold settled
    simp only [Option.map_some, hdecoded, hmsgId, ne_eq, not_true_eq_false, if_false]
    by_cases hok : response.error = .OK
    · obtain ⟨hcalm, hreplied⟩ := hcommanded.replied response rfl hok
      refine Or.inl ⟨response'.payload, ?_, hcalm, replied_of_carried hpayload hback hreplied, ?_⟩
      · rw [herror, hok]
        rfl
      · intro p' hp'
        obtain ⟨p, -, hcarried⟩ := forall₂_right hback hp'
        rw [hcarried.name, sentName_sentName]
    · refine Or.inr ⟨_, if_pos (herror ▸ hok), hcommanded.refused response rfl hok, ?_⟩
      exact fun hop hcalm => hok (hcommanded.answers hop hcalm response rfl)

theorem execute_right (hwire : setup.wire.Faithful) {s : Controller Msg} (hs : sound s)
    {opcode : Opcode} {payload : Option EncodedPayload} {mode : ReadMode} :
    Ends (_execute setup opcode payload mode) s (Executed setup opcode payload s) := by
  unfold _execute
  refine ends_get (ends_modify ?_)
  generalize hmsgId : (s.msgid + 1) % 0xFFFF = msgId
  refine ends_lift (fun msg hmsg => ?_) fun ex hex => ?_
  · -- the record says which message was sent, and to which connection
    let e : Sent Msg := { conn := s.conn, now := setup.clock s.sent.length, msg }
    rcases hsent : (send_request setup.mock setup.wire e.now msg).run.run s.conn with ⟨r, conn'⟩
    have hrun : (awaitSend setup opcode msg).run.run { s with msgid := msgId } =
        (r.mapError (command.timeoutOf opcode),
          { conn := conn', msgid := msgId, sent := s.sent ++ [e] }) := by
      rw [run_awaitSend]
      unfold sendRequest
      exact congrArg (fun out : Except Exn (Option Msg) × MockConnection =>
        (out.1.mapError (command.timeoutOf opcode),
          ({ conn := out.2, msgid := msgId, sent := s.sent ++ [e] } : Controller Msg))) hsent
    have horderly : orderly setup { conn := conn', msgid := msgId, sent := s.sent ++ [e] } →
        OrderlySent setup e := fun h => h e (by simp)
    unfold Ends
    cases r with
    | error ex =>
      have hnot : ¬ orderly setup { conn := conn', msgid := msgId, sent := s.sent ++ [e] } := by
        intro h
        obtain ⟨answer, hanswer⟩ := (horderly h).answered
        rw [hsent] at hanswer
        cases hanswer
      rw [run_bind_error hrun]
      exact ⟨fun h => absurd h hnot, fun h => absurd h hnot, fun h => absurd h hnot,
        fun h => absurd h hnot, fun h => absurd h hnot⟩
    | ok answer =>
      rw [run_bind_ok hrun, run_lift]
      obtain ⟨request, hdecode, hid, hop, hpayload⟩ := hwire.request _ _ hmsg
      have hdelivered : orderly setup { conn := conn', msgid := msgId, sent := s.sent ++ [e] } →
          Delivered setup request s.conn answer conn' := by
        intro h
        obtain ⟨answer', conn'', hsent', hdelivered⟩ :=
          send_request_right (e := e) hs hdecode (horderly h)
        rw [hsent] at hsent'
        cases hsent'
        exact hdelivered
      have hsettled := fun h => settled_right hwire hid hop hpayload (hdelivered h)
      refine ⟨fun h => (hdelivered h).sound, ?_, ?_, ?_, ?_⟩
      · intro h hcalm
        obtain ⟨out, hcommanded, -⟩ := (hdelivered h).commanded
        unfold calm at hcalm ⊢
        rw [hcommanded.errors, hcalm]
        rfl
      · intro h payloads hpayloads
        rcases hsettled h with ⟨payloads', hok, hreplied⟩ | ⟨ex, herror, -⟩
        · rw [hok] at hpayloads
          cases hpayloads
          exact hreplied
        · rw [herror] at hpayloads
          cases hpayloads
      · intro h ex hex
        rcases hsettled h with ⟨payloads', hok, -⟩ | ⟨ex', herror, hsame, -⟩
        · rw [hok] at hex
          cases hex
        · exact hsame
      · intro h hop _ hcalm
        rcases hsettled h with ⟨payloads', hok, -⟩ | ⟨ex', herror, -, hinjected⟩
        · exact ⟨payloads', hok⟩
        · exact absurd hcalm (hinjected hop)
  · -- nothing was sent
    refine ⟨fun _ => hs, fun _ hcalm => hcalm, ?_, fun _ _ _ => rfl, ?_⟩
    · rintro - payloads ⟨⟩
    · rintro - - rfl -
      have hlt : msgId < 0xFFFF := by
        rw [← hmsgId]
        exact Nat.mod_lt _ (by decide)
      obtain ⟨msg, hmsg⟩ := hwire.plain msgId opcode mode hlt
      rw [hex] at hmsg
      cases hmsg

/-! ## Orderly commands -/

/-- What holds after a command, by what a confirmed one means, whether the controller is asked,
and whether it answers when it is calm. -/
structure Called (setup : Setup Msg) {β : Type} (C : Directory → β → Directory → Prop)
    (asked answered : Prop) (s : Controller Msg) (r : Except Exn β) (s' : Controller Msg) :
    Prop where
  stays_sound : orderly setup s' → sound s'
  stays_calm : orderly setup s' → calm s → calm s'
  confirmed : orderly setup s' → ∀ b, r = .ok b → C (names s) b (names s')
  refused : orderly setup s' → ∀ ex, r = .error ex → names s' = names s
  was_calm : asked → orderly setup s' → ∀ b, r = .ok b → calm s
  answers : answered → orderly setup s' → calm s → ∃ b, r = .ok b

variable {β : Type} {C : Directory → β → Directory → Prop} {asked answered : Prop}
  {s : Controller Msg} {opcode : Opcode} {payload : Option EncodedPayload} {mode : ReadMode}

/-- A command that did not get to send anything. -/
theorem called_unsent (hs : sound s) (hanswered : ¬ answered) (ex : Exn) :
    Called setup C asked answered s (.error ex) s where
  stays_sound _ := hs
  stays_calm _ hcalm := hcalm
  confirmed := by rintro - b ⟨⟩
  refused _ _ _ := rfl
  was_calm := by rintro - - b ⟨⟩
  answers h := absurd h hanswered

/-- A command takes its result from the payloads of the response. -/
theorem command_right (hwire : setup.wire.Faithful) (hs : sound s)
    {f : List EncodedPayload → Except Exn β}
    (hf : ∀ D payloads D', Replied opcode payload D payloads D' →
      (∀ p ∈ payloads, sentName p.name = p.name) → ∃ b, f payloads = .ok b ∧ C D b D')
    (hanswered : answered →
      (opcode = .NAME_READ_ALL ∨ opcode = .BLOCK_DISCOVER) ∧ payload = none) :
    Ends (_execute setup opcode payload mode >>= fun payloads => liftExcept (f payloads)) s
      (Called setup C asked answered s) := by
  refine ends_bind (execute_right hwire hs) ?_ ?_
  · intro payloads s' h
    unfold Ends
    rw [run_lift]
    refine ⟨h.stays_sound, h.stays_calm, ?_, ?_, ?_, ?_⟩
    · intro horderly b hb
      obtain ⟨-, hreplied, hnames⟩ := h.replied horderly payloads rfl
      obtain ⟨b', hb', hC⟩ := hf _ _ _ hreplied hnames
      rw [hb'] at hb
      cases hb
      exact hC
    · intro horderly ex hex
      obtain ⟨-, hreplied, hnames⟩ := h.replied horderly payloads rfl
      obtain ⟨b', hb', -⟩ := hf _ _ _ hreplied hnames
      rw [hb'] at hex
      cases hex
    · exact fun _ horderly _ _ => (h.replied horderly payloads rfl).1
    · intro _ horderly _
      obtain ⟨-, hreplied, hnames⟩ := h.replied horderly payloads rfl
      obtain ⟨b', hb', -⟩ := hf _ _ _ hreplied hnames
      exact ⟨b', hb'⟩
  · intro ex s' h
    refine ⟨h.stays_sound, h.stays_calm, ?_, ?_, ?_, ?_⟩
    · rintro - b ⟨⟩
    · exact fun horderly _ _ => h.refused horderly ex rfl
    · rintro - - b ⟨⟩
    · intro hans horderly hcalm
      obtain ⟨hop, hpayload⟩ := hanswered hans
      obtain ⟨payloads, hok⟩ := h.answers horderly hop hpayload hcalm
      cases hok

theorem plainCommand_right (hwire : setup.wire.Faithful) (hs : sound s)
    {C : Directory → Unit → Directory → Prop}
    (hC : ∀ D payloads D', Replied opcode payload D payloads D' → C D () D') :
    Ends (CboxCommander.plainCommand (cmder setup) opcode payload) s
      (Called setup C asked False s) := by
  unfold CboxCommander.plainCommand
  refine command_right (f := fun _ => .ok ()) hwire hs (fun D payloads D' hreplied _ => ?_)
    (fun h => h.elim)
  exact ⟨(), rfl, hC D payloads D' hreplied⟩

theorem blockCommand_right (hwire : setup.wire.Faithful) (hs : sound s)
    {C : Directory → FirmwareBlock → Directory → Prop} {payload : Except Exn EncodedPayload}
    {mode : models.ReadMode}
    (hC : ∀ p, payload = .ok p → ∀ D q D', Replied opcode (some p) D [q] D' →
      ∀ block : FirmwareBlock, block.nid = q.blockId → block.id = sentName q.name → C D block D')
    (hone : ∀ p D payloads D', Replied opcode (some p) D payloads D' → ∃ q, payloads = [q]) :
    Ends (CboxCommander.blockCommand (cmder setup) opcode payload mode) s
      (Called setup C asked False s) := by
  unfold CboxCommander.blockCommand
  refine ends_lift (fun p hp => ?_) fun ex _ => called_unsent hs id ex
  refine command_right hwire hs (fun D payloads D' hreplied hnames => ?_) fun h => h.elim
  obtain ⟨q, rfl⟩ := hone p D payloads D' hreplied
  obtain ⟨block, hblock, hids⟩ := command.to_block_ok setup.codec q mode
  refine ⟨block, hblock, hC p hp D q D' hreplied block hids.blockId ?_⟩
  rw [hids.name, hnames q List.mem_cons_self]

theorem blocksCommand_right (hwire : setup.wire.Faithful) (hs : sound s)
    {C : Directory → List FirmwareBlock → Directory → Prop} {mode : models.ReadMode}
    (hC : ∀ D payloads D' blocks, Replied opcode none D payloads D' →
      List.Forall₂ (fun (q : EncodedPayload) (b : FirmwareBlock) =>
        b.nid = q.blockId ∧ b.id = sentName q.name) payloads blocks → C D blocks D')
    (hanswered : answered → opcode = .NAME_READ_ALL ∨ opcode = .BLOCK_DISCOVER) :
    Ends (CboxCommander.blocksCommand (cmder setup) opcode mode) s
      (Called setup C asked answered s) := by
  unfold CboxCommander.blocksCommand
  refine command_right hwire hs (fun D payloads D' hreplied hnames => ?_)
    fun h => ⟨hanswered h, rfl⟩
  obtain ⟨blocks, hblocks, hall⟩ := command.to_blocks_ok setup.codec payloads mode
  refine ⟨blocks, hblocks, hC D payloads D' blocks hreplied ?_⟩
  refine forall₂_imp_left hall fun q hq b hids => ⟨hids.blockId, ?_⟩
  rw [hids.name, hnames q hq]

/-! ## All commands -/

/-- The requests that are handed to the controller. -/
def reachesController : spark_api.Request → Prop
  | .validate _ => False
  | _ => True

/-- The requests that a calm controller does not refuse. -/
def neverRefused : spark_api.Request → Prop
  | .read_all_block_names | .discover_blocks => True
  | _ => False

/-- The block of a response is one that the controller has. -/
theorem known_of_listed {D : Directory} {q : EncodedPayload} {block : FirmwareBlock}
    (hlisted : Listed D q) (hnid : block.nid = q.blockId) (hid : block.id = sentName q.name) :
    Known D block := by
  unfold Known
  rw [hnid, hid]
  exact hlisted

theorem all_known {D : Directory} {payloads : List EncodedPayload} {blocks : List FirmwareBlock}
    (hlisted : ∀ p ∈ payloads, Listed D p)
    (hall : List.Forall₂ (fun (q : EncodedPayload) (b : FirmwareBlock) =>
      b.nid = q.blockId ∧ b.id = sentName q.name) payloads blocks) : ∀ b ∈ blocks, Known D b := by
  intro b hb
  obtain ⟨q, hq, hnid, hid⟩ := forall₂_right hall hb
  exact known_of_listed (hlisted q hq) hnid hid

theorem all_named {D : Directory} {payloads : List EncodedPayload} {blocks : List FirmwareBlock}
    (hcomplete : ∀ v id, D v = some id →
      ∃ p ∈ payloads, some p.blockId = v ∧ sentName p.name = id)
    (hall : List.Forall₂ (fun (q : EncodedPayload) (b : FirmwareBlock) =>
      b.nid = q.blockId ∧ b.id = sentName q.name) payloads blocks) (v : Option Int)
    (id : Option String) (hv : D v = some id) : ∃ b ∈ blocks, some b.nid = v ∧ b.id = id := by
  obtain ⟨q, hq, hnid, hid⟩ := hcomplete v id hv
  obtain ⟨b, hb, hbnid, hbid⟩ := forall₂_left hall hq
  refine ⟨b, hb, ?_, ?_⟩
  · rw [hbnid, hnid]
  · rw [hbid, hid]

/-- A block is validated by the service alone. -/
theorem validate_right (hs : sound s) (block : FirmwareBlock) :
    Ends (liftExcept (CboxCommander.validate (cmder setup) block) : Call Msg FirmwareBlock) s
      (Called setup (fun D reply D' => Confirmed D (.validate block) reply D') False False s) := by
  unfold Ends
  rw [run_lift]
  refine ⟨fun _ => hs, fun _ hcalm => hcalm, ?_, fun _ _ _ => rfl, False.elim, False.elim⟩
  intro _ b hb
  unfold CboxCommander.validate at hb
  obtain ⟨payload, -, hb⟩ := bind_eq_ok.mp hb
  obtain ⟨msg, -, hb⟩ := bind_eq_ok.mp hb
  cases hb
  exact .validate

theorem perform_right (hwire : setup.wire.Faithful) (hs : sound s) (request : spark_api.Request) :
    Ends ((cmder setup).perform request) s (Called setup
      (fun D reply D' => Confirmed D request reply D') (reachesController request)
      (neverRefused request) s) := by
  cases request with
  | noop =>
    refine plainCommand_right hwire hs fun D payloads D' hreplied => ?_
    obtain rfl : D' = D := hreplied
    exact .noop
  | read_block ident mode =>
    refine blockCommand_right hwire hs (fun p _ D q D' hreplied block hnid hid => ?_)
      fun p D payloads D' hreplied => ?_
    · obtain ⟨rfl, q', hq, hlisted⟩ := hreplied
      cases hq
      exact .read (known_of_listed hlisted hnid hid)
    · obtain ⟨-, q, hq, -⟩ := hreplied
      exact ⟨q, hq⟩
  | read_all_blocks mode =>
    refine blocksCommand_right hwire hs (fun D payloads D' blocks hreplied hall => ?_) False.elim
    obtain ⟨rfl, hlisted, hcomplete, hdistinct⟩ := hreplied
    have hnids : payloads.map EncodedPayload.blockId = blocks.map FirmwareBlock.nid :=
      map_eq_of_forall₂ (hall.imp fun _ _ h => h.1.symm)
    exact .readAll (all_known hlisted hall) (all_named hcomplete hall) (hnids ▸ hdistinct)
  | write_block block =>
    refine blockCommand_right hwire hs (fun p _ D q D' hreplied block hnid hid => ?_)
      fun p D payloads D' hreplied => ?_
    · obtain ⟨rfl, q', hq, hlisted⟩ := hreplied
      cases hq
      exact .write (known_of_listed hlisted hnid hid)
    · obtain ⟨-, q, hq, -⟩ := hreplied
      exact ⟨q, hq⟩
  | patch_block block =>
    refine blockCommand_right hwire hs (fun p _ D q D' hreplied block hnid hid => ?_)
      fun p D payloads D' hreplied => ?_
    · obtain ⟨rfl, q', hq, hlisted⟩ := hreplied
      cases hq
      exact .patch (known_of_listed hlisted hnid hid)
    · obtain ⟨-, q, hq, -⟩ := hreplied
      exact ⟨q, hq⟩
  | create_block block =>
    refine blockCommand_right hwire hs (fun p hpayload D q D' hreplied new hnid hid => ?_)
      fun p D payloads D' hreplied => ?_
    · obtain ⟨q', hq, hfree, hzero, hname, rfl, asked, ⟨⟩, hgiven, hcalled⟩ := hreplied
      cases hq
      have hids := command.to_payload_ids hpayload
      rw [hids.blockId, ← hnid] at hgiven
      rw [hids.name, ← hid] at hcalled
      rw [← hnid, ← hid] at *
      exact .create ⟨hfree, hzero, hname⟩ hgiven fun hnamed => hcalled.trans (named_sentName hnamed)
    · obtain ⟨q, hq, -⟩ := hreplied
      exact ⟨q, hq⟩
  | delete_block ident =>
    unfold CboxCommander.perform CboxCommander.delete_block
    refine ends_lift (fun payload hpayload => ?_) fun ex _ => called_unsent hs id ex
    refine plainCommand_right hwire hs fun D payloads D' hreplied => ?_
    obtain ⟨p, hp, rfl⟩ := hreplied
    cases hp
    have hids := command.to_payload_ids hpayload
    rw [hids.blockId]
    exact .delete
  | discover_blocks =>
    refine blocksCommand_right hwire hs (fun D payloads D' blocks hreplied hall => ?_)
      fun _ => Or.inr rfl
    obtain ⟨rfl, hlisted⟩ := hreplied
    exact .discover (all_known hlisted hall)
  | read_all_block_names =>
    refine blocksCommand_right hwire hs (fun D payloads D' blocks hreplied hall => ?_)
      fun _ => Or.inl rfl
    obtain ⟨rfl, hlisted, hcomplete, -⟩ := hreplied
    exact .names (all_known hlisted hall) (all_named hcomplete hall)
  | write_block_name ident =>
    refine blockCommand_right hwire hs (fun p _ D q D' hreplied block hnid hid => ?_)
      fun p D payloads D' hreplied => ?_
    · obtain ⟨q', hq, honly, rfl⟩ := hreplied
      cases hq
      rw [← hnid, ← hid] at *
      exact .rename honly
    · obtain ⟨q, hq, -⟩ := hreplied
      exact ⟨q, hq⟩
  | clear_blocks =>
    exact blocksCommand_right hwire hs (fun D payloads D' blocks hreplied _ => .clear hreplied)
      False.elim
  | clear_wifi =>
    refine plainCommand_right hwire hs fun D payloads D' hreplied => ?_
    obtain rfl : D' = D := hreplied
    exact .clear_wifi
  | factory_reset => exact plainCommand_right hwire hs fun D payloads D' _ => .factory_reset
  | reboot =>
    refine plainCommand_right hwire hs fun D payloads D' hreplied => ?_
    obtain rfl : D' = D := hreplied
    exact .reboot
  | validate block => exact validate_right hs block

/-! ## The simulation keeps its names in order -/

/-- Nothing is taken from the record. -/
def Recorded {β : Type} (s : Controller Msg) (_ : Except Exn β) (s' : Controller Msg) : Prop :=
  s.sent <+: s'.sent

theorem execute_records (s : Controller Msg) :
    Ends (_execute setup opcode payload mode) s (Recorded s) := by
  unfold _execute
  refine ends_get (ends_modify (ends_lift (fun msg _ => ?_) fun _ _ => List.prefix_rfl))
  have hsent : Ends (awaitSend setup opcode msg) { s with msgid := (s.msgid + 1) % 0xFFFF }
      (Recorded s) := by
    unfold Ends
    rw [run_awaitSend]
    exact List.prefix_append _ _
  refine ends_bind hsent (fun answer s' h => ?_) fun _ _ h => h
  unfold Ends
  rw [run_lift]
  exact h

theorem perform_records (s : Controller Msg) (request : spark_api.Request) :
    Ends ((cmder setup).perform request) s (Recorded s) := by
  have hlift : ∀ {β : Type} (x : Except Exn β) {s' : Controller Msg}, Recorded s x s' →
      Ends (liftExcept x : Call Msg β) s' (Recorded s) := by
    intro β x s' h
    unfold Ends
    rw [run_lift]
    exact h
  have hplain : ∀ opcode payload,
      Ends (CboxCommander.plainCommand (cmder setup) opcode payload) s (Recorded s) :=
    fun _ _ => ends_bind (execute_records s) (fun _ _ h => ends_pure h) fun _ _ h => h
  have hblock : ∀ opcode payload mode,
      Ends (CboxCommander.blockCommand (cmder setup) opcode payload mode) s (Recorded s) :=
    fun _ _ _ => ends_lift (fun _ _ => ends_bind (execute_records s) (fun _ _ h => hlift _ h)
      fun _ _ h => h) fun _ _ => List.prefix_rfl
  have hblocks : ∀ opcode mode,
      Ends (CboxCommander.blocksCommand (cmder setup) opcode mode) s (Recorded s) :=
    fun _ _ => ends_bind (execute_records s) (fun _ _ h => hlift _ h) fun _ _ h => h
  cases request with
  | noop | clear_wifi | factory_reset | reboot => exact hplain _ _
  | read_block | write_block | patch_block | create_block | write_block_name => exact hblock _ _ _
  | read_all_blocks | discover_blocks | read_all_block_names | clear_blocks => exact hblocks _ _
  | delete_block =>
    exact ends_lift (fun _ _ => hplain _ _) fun _ _ => List.prefix_rfl
  | validate => exact hlift _ List.prefix_rfl

def keeper (setup : Setup Msg) (hwire : setup.wire.Faithful) : Keeper (Controller Msg) where
  answer := answer setup
  next := next setup
  names := names
  sound := sound
  calm := calm
  orderly := orderly setup
  was_orderly s request h e he := h e ((perform_records s request).subset he)
  stays_sound _ request hs := (perform_right hwire hs request).stays_sound
  distinct _ hs := hs.blocks.blocks.distinct
  confirmed _ request reply hs horderly := (perform_right hwire hs request).confirmed horderly reply
  refused _ request ex hs horderly := (perform_right hwire hs request).refused horderly ex
  calms _ reply hs horderly hanswer :=
    have hright := perform_right hwire hs .clear_blocks
    hright.stays_calm horderly (hright.was_calm trivial horderly reply hanswer)
  stays_calm _ request hs := (perform_right hwire hs request).stays_calm
  discovers _ hs hcalm horderly :=
    (perform_right hwire hs .discover_blocks).answers trivial horderly hcalm
  reloads _ hs hcalm horderly :=
    (perform_right hwire hs .read_all_block_names).answers trivial horderly hcalm

/-! ## The service, whatever it does -/

/-- The store of the service against the blocks of a controller that is sound. -/
structure Linked (service : Service Msg) : Prop where
  conn : SoundConn service.controller.conn
  mirrored : Mirrors Counts service.world.block_store (names service.controller)

/-- The steps after which the store need not follow: a factory reset, a message that the
simulation raises at or that gives an identity twice, and an injected error that is none. -/
structure OrderlyAction (setup : Setup Msg) (service : Service Msg) (action : Action) : Prop where
  errors : ∀ errors, action = .injected errors → some .OK ∉ errors
  kept : action ≠ .operated .factory_reset
  orderly : orderly setup (step setup service action).controller

variable {service : Service Msg}

/-- A program of the API, as a step of the service. -/
theorem performed_right {α : Type} (hwire : setup.wire.Faithful)
    {A : Controller Msg → BlockStore → Prop}
    {P : Except Exn α → Controller Msg → BlockStore → Prop}
    (program : spark_api.Environment → spark_api.Api α)
    (h : Triple ((keeper setup hwire).Holds service.controller A)
      (program ((keeper setup hwire).environment setup.api service.controller))
      fun r => (keeper setup hwire).Holds service.controller (P r))
    (hs : SoundConn service.controller.conn) (hA : A service.controller service.world.block_store)
    (horderly : orderly setup (performed setup service program).controller) :
    SoundConn (performed setup service program).controller.conn ∧
      P (result setup service program) (performed setup service program).controller
        (performed setup service program).world.block_store :=
  h { service.world with requests := [] } (fun _ => ⟨hs, hA⟩) horderly

theorem performed_linked {α : Type} (hwire : setup.wire.Faithful)
    (program : spark_api.Environment → spark_api.Api α)
    (hkeeps : Keeps ((keeper setup hwire).Holds service.controller (keeper setup hwire).Mirrored)
      (program ((keeper setup hwire).environment setup.api service.controller)))
    (h : Linked service) (horderly : orderly setup (performed setup service program).controller) :
    Linked (performed setup service program) := by
  obtain ⟨hsound, hmirrored⟩ := performed_right hwire program hkeeps h.conn h.mirrored horderly
  exact ⟨hsound, hmirrored⟩

theorem step_linked (hwire : setup.wire.Faithful) {action : Action} (h : Linked service)
    (horderly : OrderlyAction setup service action) : Linked (step setup service action) := by
  cases action with
  | injected errors =>
    have hconn : SoundConnection { service.controller.conn with next_error := errors } :=
      ⟨h.conn.blocks.blocks, h.conn.blocks.counter⟩
    exact ⟨⟨hconn, horderly.errors errors rfl⟩, h.mirrored⟩
  | operated operation =>
    have hkept : operation ≠ .factory_reset := fun hreset =>
      horderly.kept (congrArg Action.operated hreset)
    exact performed_linked hwire (spark_api.perform · operation) (Keeper.keeps_perform hkept) h
      horderly.orderly
  | loaded =>
    exact performed_linked hwire spark_api.load_block_names Keeper.keeps_load_block_names h
      horderly.orderly

/-- The first load after a start finds the names, whatever was in the store. -/
theorem loaded_linked (hwire : setup.wire.Faithful) (hs : SoundConn service.controller.conn)
    (hcalm : service.controller.conn.next_error = [])
    (horderly : OrderlyAction setup service .loaded) : Linked (step setup service .loaded) := by
  obtain ⟨hsound, hsynced⟩ := performed_right (A := Keeper.Calm (keeper setup hwire)) hwire
    spark_api.load_block_names Keeper.triple_load_block_names hs hcalm horderly.orderly
  generalize result setup service spark_api.load_block_names = r at hsynced
  cases r with
  | ok u => exact ⟨hsound, hsynced.1⟩
  | error ex => exact hsynced.elim

/-- Once its names were loaded, the store of the service says of each block of the simulation what
it is called there, after whatever was asked of the service. -/
theorem store_mirrors_the_simulation (hwire : setup.wire.Faithful)
    (hs : SoundConn service.controller.conn) (hcalm : service.controller.conn.next_error = [])
    (actions : List Action)
    (h : EachStep (step setup) (OrderlyAction setup) service (.loaded :: actions)) :
    Throughout (step setup) Linked (step setup service .loaded) actions := by
  obtain ⟨hloaded, hrest⟩ := eachStep_cons.mp h
  exact (throughout_of_eachStep
    (fun _ _ hlinked horderly => step_linked hwire hlinked horderly) (fun _ _ _ hstep => hstep)
    (loaded_linked hwire hs hcalm hloaded) hrest).1

/-! ### A run -/

/-- Messages as they are, but for the names of blocks and of their types. -/
inductive Envelope
  | request (r : Request)
  | response (r : Response)

def systemTypes : List (String × Int) :=
  [("SysInfo", 256), ("WiFiSettings", 260), ("DisplaySettings", 314), ("Spark3Pins", 307)]

/-- The name of a block type stands for its number. -/
def typeName : models.BlockTypeId → models.BlockTypeId
  | .int n =>
    match (systemTypes ++ variablesLookup.BlockType).find? (·.2 = n) with
    | some e => .str e.1
    | none => .int n
  | .str type => .str type

def carried (p : EncodedPayload) : EncodedPayload :=
  { p with name := sentName p.name, blockType := p.blockType.map typeName }

def envelopes : Wire Envelope where
  encode_request r := .ok (.request { r with payload := r.payload.map carried })
  decode_request
    | .request r => .ok r
    | .response _ => .error { kind := .DecodeException, msg := "" }
  encode_response r := .ok (.response { r with payload := r.payload.map carried })
  decode_response
    | .request _ => .error { kind := .DecodeException, msg := "" }
    | .response r => .ok r.toIntermediateResponse

theorem carried_carried (p : EncodedPayload) : Carried p (carried p) := ⟨rfl, rfl⟩

theorem envelopes_faithful : envelopes.Faithful where
  request := by
    rintro r msg ⟨⟩
    refine ⟨_, rfl, rfl, rfl, ?_⟩
    dsimp only
    cases r.payload with
    | none => exact .none
    | some p => exact .some (carried_carried p)
  plain := fun _ _ _ _ => ⟨_, rfl⟩
  response := by
    rintro r msg ⟨⟩
    refine ⟨_, rfl, rfl, rfl, ?_⟩
    exact List.forall₂_map_right_iff.mpr (List.forall₂_same.mpr fun p _ => carried_carried p)

/-- The fields of a message without content. -/
def emptyMessage (message : py_text.Text) : py_value.Dict :=
  if message = "SysInfo".toList then
    [("deviceId".toList, .str []), ("timeZone".toList, .str []),
      ("updatesPerSecond".toList, .int 0), ("uptime".toList, .int 0),
      ("systemTime".toList, .int 0)]
  else if message = "Spark3Pins".toList then [("channels".toList, .list [])]
  else if message = "Variables".toList then [("variables".toList, .dict [])]
  else []

def boxes : codec.Codec where
  filter_values := false
  env := content.sameUnit
  units := unit_conversion.converter "degC".toList
  pool := { variablesPool with
    messages := fun message =>
      if message = "SysInfo".toList then
        [{ name := "deviceId".toList, number := 1, type := .STRING },
         { name := "timeZone".toList, number := 2, type := .STRING },
         { name := "updatesPerSecond".toList, number := 3, type := .UINT32 },
         { name := "uptime".toList, number := 4, type := .UINT32 },
         { name := "systemTime".toList, number := 5, type := .UINT32 }]
      else if message = "Spark3Pins".toList then
        [{ name := "channels".toList, number := 1, type := .MESSAGE, label_repeated := true
           message_type := some "Channel".toList }]
      else if message = "Channel".toList then
        [{ name := "id".toList, number := 1, type := .UINT32 }]
      else variablesPool.messages message }
  lookup := { variablesLookup with
    BlockType := systemTypes ++ variablesLookup.BlockType
    objects := systemTypes.map (fun e =>
      { type_str := e.1, type_int := e.2, message_cls := e.1.toList }) ++ variablesLookup.objects }
  protobuf :=
    { serialize := fun _ _ => .ok []
      parse := fun message _ _ => .ok (emptyMessage message) }

/-- A service with a simulation of blocks that are all empty. -/
def kettles : Setup Envelope where
  wire := envelopes
  codec := { boxes with filter_values := true }
  mock := { variablesOnly with codec := boxes }
  api :=
    { name := "spark"
      timeparse := fun _ => none
      repr := fun _ => []
      blockText := fun _ => ""
      firmwareBlockText := fun _ => ""
      now := ""
      wait_synchronized := fun shared => (true, shared)
      reply := fun _ _ shared => (.error { kind := .CommandTimeout, msg := "" }, shared) }
  clock := fun _ _ => 0

def started : state_machine.StateMachine :=
  [Op.set_enabled true, .set_connected .SIM "simulation", .set_acknowledged someController,
    .set_synchronized].foldl (StateMachine.apply {}) (StateMachine.init {} someFirmwareConfig)

def startedService : Service Envelope where
  world := { state := started, block_store := Bidict.empty.put (some "kettle") (some 7) }
  controller := { conn := { start_time := 0 } }

/-- The block that a message asks for. -/
def Envelope.created : Envelope → Option EncodedPayload
  | .request r => if r.opcode = .BLOCK_CREATE then r.payload else none
  | .response _ => none

instance decidableNewIdentity (s : MockConnection) (p : EncodedPayload) :
    Decidable (NewIdentity s p) :=
  decidable_of_iff (0 ≤ p.blockId ∧ (p.blockId = 0 → get? s.blocks s.id_counter = none) ∧
      ∀ name ∈ p.name, ∀ q ∈ s.blocks, q.2.id ≠ some name)
    ⟨fun h => ⟨h.1, h.2.1, h.2.2⟩, fun h => ⟨h.not_negative, h.nid, h.name⟩⟩

theorem orderly_of_created {s : Controller Envelope}
    (hanswered : ∀ e ∈ s.sent,
      ((send_request kettles.mock kettles.wire e.now e.msg).run.run e.conn).1.isOk = true)
    (hnew : ∀ e ∈ s.sent, ∀ p ∈ e.msg.created, NewIdentity e.timed p) : orderly kettles s := by
  refine fun e he => ⟨?_, fun request payload block hdecode hstores => hnew e he payload ?_⟩
  · have hok := hanswered e he
    cases hsent : ((send_request kettles.mock kettles.wire e.now e.msg).run.run e.conn).1 with
    | ok answer => exact ⟨answer, rfl⟩
    | error ex =>
      rw [hsent] at hok
      cases hok
  · obtain ⟨conn, now, msg⟩ := e
    cases msg with
    | response r => cases hdecode
    | request r =>
      cases hdecode
      simp [Envelope.created, hstores.opcode, hstores.carries]

theorem kettle_is_mirrored :
    let actions : List Action :=
      [.operated (.create_block { id := some "kettle", type := "Variables", data := [] }),
        .operated (.rename_block { existing := "kettle", desired := "pot" }),
        .operated (.delete_block { id := some "pot" })]
    Throughout (step kettles) Linked (step kettles startedService .loaded) actions := by
  intro actions
  have hsound : SoundConn startedService.controller.conn :=
    ⟨⟨sound_default, le_rfl⟩, by simp [startedService]⟩
  refine store_mirrors_the_simulation envelopes_faithful hsound rfl actions ?_
  refine eachStep_cons.mpr ⟨⟨by simp, by simp, orderly_of_created ?_ ?_⟩, ?_⟩
  · decide +kernel
  · decide +kernel
  refine eachStep_cons.mpr ⟨⟨by simp, by simp, orderly_of_created ?_ ?_⟩, ?_⟩
  · decide +kernel
  · decide +kernel
  refine eachStep_cons.mpr ⟨⟨by simp, by simp, orderly_of_created ?_ ?_⟩, ?_⟩
  · decide +kernel
  · decide +kernel
  refine eachStep_cons.mpr ⟨⟨by simp, by simp, orderly_of_created ?_ ?_⟩, eachStep_nil⟩
  · decide +kernel
  · decide +kernel

end devcon_spark.mocked
