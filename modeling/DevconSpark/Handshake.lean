-- The handshake: the message that a controller greets with, and what the
-- commander makes of it, on a stream too.
import DevconSpark.PyDict
import DevconSpark.StateMachine
import DevconSpark.StreamConnection

open py_dict py_text utf8 devcon_spark.cbox_parser devcon_spark.exceptions
open devcon_spark.state_machine
open devcon_spark.connection.stream_connection (StreamConnection Task)

namespace devcon_spark.models

/-! ## The message -/

inductive ResetReason
  | NONE | UNKNOWN | PIN_RESET | POWER_MANAGEMENT | POWER_DOWN | POWER_BROWNOUT | WATCHDOG
  | UPDATE | UPDATE_ERROR | UPDATE_TIMEOUT | FACTORY_RESET | SAFE_MODE | DFU_MODE | PANIC | USER
  deriving DecidableEq

def ResetReason.all : List ResetReason :=
  [.NONE, .UNKNOWN, .PIN_RESET, .POWER_MANAGEMENT, .POWER_DOWN, .POWER_BROWNOUT, .WATCHDOG,
   .UPDATE, .UPDATE_ERROR, .UPDATE_TIMEOUT, .FACTORY_RESET, .SAFE_MODE, .DFU_MODE, .PANIC, .USER]

def ResetReason.value : ResetReason → String
  | .NONE => "00"
  | .UNKNOWN => "0A"
  | .PIN_RESET => "14"
  | .POWER_MANAGEMENT => "1E"
  | .POWER_DOWN => "28"
  | .POWER_BROWNOUT => "32"
  | .WATCHDOG => "3C"
  | .UPDATE => "46"
  | .UPDATE_ERROR => "50"
  | .UPDATE_TIMEOUT => "5A"
  | .FACTORY_RESET => "64"
  | .SAFE_MODE => "6E"
  | .DFU_MODE => "78"
  | .PANIC => "82"
  | .USER => "8C"

/-- `__str__` -/
def ResetReason.name : ResetReason → String
  | .NONE => "NONE"
  | .UNKNOWN => "UNKNOWN"
  | .PIN_RESET => "PIN_RESET"
  | .POWER_MANAGEMENT => "POWER_MANAGEMENT"
  | .POWER_DOWN => "POWER_DOWN"
  | .POWER_BROWNOUT => "POWER_BROWNOUT"
  | .WATCHDOG => "WATCHDOG"
  | .UPDATE => "UPDATE"
  | .UPDATE_ERROR => "UPDATE_ERROR"
  | .UPDATE_TIMEOUT => "UPDATE_TIMEOUT"
  | .FACTORY_RESET => "FACTORY_RESET"
  | .SAFE_MODE => "SAFE_MODE"
  | .DFU_MODE => "DFU_MODE"
  | .PANIC => "PANIC"
  | .USER => "USER"

/-- `ResetReason(value)` -/
def ResetReason.ofValue (value : Text) : Except Exn ResetReason :=
  match ResetReason.all.find? (·.value.toList = value) with
  | some member => .ok member
  | none => .error
    { kind := .ValueError, msg := s!"'{String.ofList value}' is not a valid ResetReason" }

inductive ResetData
  | NOT_SPECIFIED | WATCHDOG | CBOX_RESET | CBOX_FACTORY_RESET | FIRMWARE_UPDATE_FAILED
  | LISTENING_MODE_EXIT | FIRMWARE_UPDATE_SUCCESS | OUT_OF_MEMORY
  deriving DecidableEq

def ResetData.all : List ResetData :=
  [.NOT_SPECIFIED, .WATCHDOG, .CBOX_RESET, .CBOX_FACTORY_RESET, .FIRMWARE_UPDATE_FAILED,
   .LISTENING_MODE_EXIT, .FIRMWARE_UPDATE_SUCCESS, .OUT_OF_MEMORY]

def ResetData.value : ResetData → String
  | .NOT_SPECIFIED => "00"
  | .WATCHDOG => "01"
  | .CBOX_RESET => "02"
  | .CBOX_FACTORY_RESET => "03"
  | .FIRMWARE_UPDATE_FAILED => "04"
  | .LISTENING_MODE_EXIT => "05"
  | .FIRMWARE_UPDATE_SUCCESS => "06"
  | .OUT_OF_MEMORY => "07"

/-- `__str__` -/
def ResetData.name : ResetData → String
  | .NOT_SPECIFIED => "NOT_SPECIFIED"
  | .WATCHDOG => "WATCHDOG"
  | .CBOX_RESET => "CBOX_RESET"
  | .CBOX_FACTORY_RESET => "CBOX_FACTORY_RESET"
  | .FIRMWARE_UPDATE_FAILED => "FIRMWARE_UPDATE_FAILED"
  | .LISTENING_MODE_EXIT => "LISTENING_MODE_EXIT"
  | .FIRMWARE_UPDATE_SUCCESS => "FIRMWARE_UPDATE_SUCCESS"
  | .OUT_OF_MEMORY => "OUT_OF_MEMORY"

/-- `ResetData(value)` -/
def ResetData.ofValue (value : Text) : Except Exn ResetData :=
  match ResetData.all.find? (·.value.toList = value) with
  | some member => .ok member
  | none => .error
    { kind := .ValueError, msg := s!"'{String.ofList value}' is not a valid ResetData" }

/-- `str.upper`. Nothing outside of ASCII becomes a letter of the values. -/
def upper (t : Text) : Text := t.map Char.toUpper

structure HandshakeMessage where
  name : Text
  firmware_version : Text
  proto_version : Text
  firmware_date : Text
  proto_date : Text
  system_version : Text
  platform : Text
  reset_reason_hex : Text
  reset_data_hex : Text
  device_id : Text
  reset_reason : String := ResetReason.NONE.name
  reset_data : String := ResetData.NOT_SPECIFIED.name
  deriving DecidableEq

namespace HandshakeMessage

/-- An unknown reason is an error, and unknown data is not. -/
def parse_reset_enums (self : HandshakeMessage) : Except Exn HandshakeMessage := do
  let reset_reason ← ResetReason.ofValue (upper self.reset_reason_hex)
  let reset_data := match ResetData.ofValue (upper self.reset_data_hex) with
    | .ok data => data.name
    | .error _ => ResetData.NOT_SPECIFIED.name
  return { self with reset_reason := reset_reason.name, reset_data }

def field (kwargs : List (String × Text)) (key : String) : Except Exn Text :=
  match get? kwargs key with
  | some value => .ok value
  | none => .error { kind := .ValueError, msg := "Field required" }

/-- `HandshakeMessage(**kwargs)` -/
def init (kwargs : List (String × Text)) : Except Exn HandshakeMessage := do
  let name ← field kwargs "name"
  let firmware_version ← field kwargs "firmware_version"
  let proto_version ← field kwargs "proto_version"
  let firmware_date ← field kwargs "firmware_date"
  let proto_date ← field kwargs "proto_date"
  let system_version ← field kwargs "system_version"
  let platform ← field kwargs "platform"
  let reset_reason_hex ← field kwargs "reset_reason_hex"
  let reset_data_hex ← field kwargs "reset_data_hex"
  let device_id ← field kwargs "device_id"
  parse_reset_enums
    { name, firmware_version, proto_version, firmware_date, proto_date, system_version, platform
      reset_reason_hex, reset_data_hex, device_id }

/-- What the commander describes the controller by. -/
def desc (self : HandshakeMessage) (lower : Text → Text) : ControllerDescription where
  system_version := String.ofList self.system_version
  platform := String.ofList self.platform
  reset_reason := self.reset_reason
  firmware := FirmwareDescription.validated
    { firmware_version := String.ofList self.firmware_version
      proto_version := String.ofList self.proto_version
      firmware_date := String.ofList self.firmware_date
      proto_date := String.ofList self.proto_date }
  device := DeviceDescription.validated lower { device_id := String.ofList self.device_id }

end HandshakeMessage

end devcon_spark.models

open devcon_spark.models (HandshakeMessage ResetData ResetReason upper)

namespace devcon_spark.command

def WELCOME_PREFIX : Text := "!BREWBLOX".toList

def HANDSHAKE_KEYS : List String :=
  ["name", "firmware_version", "proto_version", "firmware_date", "proto_date", "system_version",
    "platform", "reset_reason_hex", "reset_data_hex", "device_id"]

/-- `_on_event`, on the state of the commander. Other events are only logged. -/
def _on_event (config : ServiceConfig) (state : StateMachine) (msg : Text) :
    Except Exn StateMachine :=
  if WELCOME_PREFIX.isPrefixOf msg then do
    let handshake_values := (removePrefix "!".toList msg).splitOn ','
    let handshake ← HandshakeMessage.init (dictOf (HANDSHAKE_KEYS.zip handshake_values))
    return state.set_acknowledged config (handshake.desc config.lower)
  else return state

end devcon_spark.command

namespace devcon_spark.models.HandshakeMessage

/-- The values in the order of the keys. -/
def values (self : HandshakeMessage) : List Text :=
  [self.name, self.firmware_version, self.proto_version, self.firmware_date, self.proto_date,
    self.system_version, self.platform, self.reset_reason_hex, self.reset_data_hex, self.device_id]

variable {self m : HandshakeMessage}

theorem parse_values (h : self.parse_reset_enums = .ok m) :
    m.values = self.values ∧ m.parse_reset_enums = .ok m := by
  unfold parse_reset_enums at h
  obtain ⟨reason, hreason, hm⟩ := bind_eq_ok.mp h
  cases hm
  refine ⟨rfl, ?_⟩
  unfold parse_reset_enums
  dsimp only
  rw [hreason]
  rfl

end devcon_spark.models.HandshakeMessage

namespace devcon_spark.command

variable {m : HandshakeMessage}

theorem init_values (self : HandshakeMessage) (rest : List Text) :
    HandshakeMessage.init (dictOf (HANDSHAKE_KEYS.zip (self.values ++ rest))) =
      self.parse_reset_enums := by
  have hzip : HANDSHAKE_KEYS.zip (self.values ++ rest) = HANDSHAKE_KEYS.zip self.values := rfl
  have hkeys : ((HANDSHAKE_KEYS.zip self.values).map Prod.fst).Nodup := by
    have hmap : (HANDSHAKE_KEYS.zip self.values).map Prod.fst = HANDSHAKE_KEYS := rfl
    rw [hmap]
    decide
  rw [hzip, dictOf_nodup hkeys]
  rfl

theorem field_ok {kwargs : List (String × Text)} {key : String} {value : Text}
    (h : HandshakeMessage.field kwargs key = .ok value) : key ∈ kwargs.map Prod.fst := by
  by_contra hmem
  unfold HandshakeMessage.field at h
  rw [get?_of_not_mem hmem] at h
  cases h

/-- With fewer values than keys, the last key is missing. -/
theorem length_of_init {values : List Text}
    (h : HandshakeMessage.init (dictOf (HANDSHAKE_KEYS.zip values)) = .ok m) :
    10 ≤ values.length := by
  unfold HandshakeMessage.init at h
  simp only [bind_eq_ok] at h
  obtain ⟨-, -, -, -, -, -, -, -, -, -, -, -, -, -, -, -, -, -, device_id, hfield, -⟩ := h
  obtain ⟨p, hp, hkey⟩ := List.mem_map.mp (field_ok hfield)
  obtain ⟨key, value⟩ := p
  by_contra hshort
  have hzip := mem_dictOf hp
  rw [List.zip_eq_zip_take_min] at hzip
  have hkeys := List.take_subset_take_left HANDSHAKE_KEYS (j := 9) (by omega)
    (List.of_mem_zip hzip).1
  have hlast : key = "device_id" := hkey
  rw [hlast] at hkeys
  revert hkeys
  decide

theorem exists_values {values : List Text} (h : 10 ≤ values.length) :
    ∃ (self : HandshakeMessage) (rest : List Text), values = self.values ++ rest := by
  obtain ⟨front, hfront, hlength⟩ : ∃ front, values = front ++ values.drop 10 ∧
      front.length = 10 := ⟨values.take 10, (List.take_append_drop 10 values).symm, by simp [h]⟩
  obtain ⟨a, b, c, d, e, f, g, i, j, k, rfl⟩ : ∃ a b c d e f g i j k,
      front = [a, b, c, d, e, f, g, i, j, k] := by
    rcases front with _ | ⟨a, _ | ⟨b, _ | ⟨c, _ | ⟨d, _ | ⟨e, _ | ⟨f, _ | ⟨g, _ | ⟨i, _ | ⟨j,
      _ | ⟨k, _ | _⟩⟩⟩⟩⟩⟩⟩⟩⟩⟩ <;> simp at hlength
    exact ⟨a, b, c, d, e, f, g, i, j, k, rfl⟩
  exact ⟨⟨a, b, c, d, e, f, g, i, j, k, "", ""⟩, values.drop 10, hfront⟩

theorem values_of_init {values : List Text}
    (h : HandshakeMessage.init (dictOf (HANDSHAKE_KEYS.zip values)) = .ok m) :
    ∃ rest, values = m.values ++ rest ∧ m.parse_reset_enums = .ok m := by
  obtain ⟨self, rest, rfl⟩ := exists_values (length_of_init h)
  rw [init_values] at h
  obtain ⟨hvalues, hagain⟩ := HandshakeMessage.parse_values h
  exact ⟨rest, by rw [hvalues], hagain⟩

/-! ## What is accepted -/

/-- What a controller greets with. Values after those of the keys are not used. -/
structure Greeting extends HandshakeMessage where
  rest : List Text
  named : "BREWBLOX".toList <+: name
  enums : toHandshakeMessage.parse_reset_enums = .ok toHandshakeMessage
  plain : ∀ value ∈ toHandshakeMessage.values ++ rest, ',' ∉ value

def Greeting.text (g : Greeting) : Text := '!' :: [','].intercalate (g.values ++ g.rest)

theorem splitOn_append {c : Char} {l : Text} (t : Text) (h : c ∉ l) :
    (l ++ t).splitOn c = (t.splitOn c).modifyHead (l ++ ·) := by
  unfold List.splitOn
  induction l with
  | nil => exact (congrFun List.modifyHead_id _).symm
  | cons x l ih =>
    simp only [List.mem_cons, not_or] at h
    rw [List.cons_append, List.splitOnP_cons_eq_if_modifyHead, if_neg (by simpa using Ne.symm h.1),
      ih h.2, List.modifyHead_modifyHead]
    rfl

theorem Greeting.splitOn_text (g : Greeting) :
    (removePrefix "!".toList g.text).splitOn ',' = g.values ++ g.rest := by
  have htext : removePrefix "!".toList g.text = [','].intercalate (g.values ++ g.rest) := by
    simp [removePrefix, Greeting.text]
  rw [htext]
  exact List.splitOn_intercalate ',' g.plain (by simp [HandshakeMessage.values])

theorem Greeting.isPrefixOf_text (g : Greeting) : WELCOME_PREFIX.isPrefixOf g.text = true := by
  obtain ⟨t, ht⟩ := g.named
  have htail : g.values.tail ++ g.rest ≠ [] := by simp [HandshakeMessage.values]
  have hjoin : [','].intercalate (g.values ++ g.rest) =
      g.name ++ [','] ++ [','].intercalate (g.values.tail ++ g.rest) :=
    List.intercalate_cons_of_ne_nil htail
  have hwelcome : WELCOME_PREFIX = '!' :: "BREWBLOX".toList := rfl
  unfold Greeting.text
  rw [List.isPrefixOf_iff_prefix, hwelcome, List.prefix_cons_inj, hjoin, ← ht, List.append_assoc,
    List.append_assoc]
  exact List.prefix_append _ _

theorem on_event_greeting (config : ServiceConfig) (state : StateMachine) (g : Greeting) :
    _on_event config state g.text = .ok (state.set_acknowledged config (g.desc config.lower)) := by
  unfold _on_event
  rw [if_pos g.isPrefixOf_text]
  dsimp only
  rw [g.splitOn_text, init_values, g.enums]
  rfl

/-- A welcome is accepted exactly where it is the text of a greeting, and then the controller is
what the greeting says that it is. -/
theorem welcome_is_accepted_iff (config : ServiceConfig) (state state' : StateMachine) {msg : Text}
    (h : WELCOME_PREFIX.isPrefixOf msg = true) : _on_event config state msg = .ok state' ↔
      ∃ g : Greeting, g.text = msg ∧
        state' = state.set_acknowledged config (g.desc config.lower) := by
  constructor
  · intro hevent
    obtain ⟨t, rfl⟩ := List.isPrefixOf_iff_prefix.mp h
    unfold _on_event at hevent
    rw [if_pos h] at hevent
    obtain ⟨m, hinit, hstate⟩ := bind_eq_ok.mp hevent
    have hremoved : removePrefix "!".toList (WELCOME_PREFIX ++ t) = "BREWBLOX".toList ++ t := rfl
    rw [hremoved] at hinit
    obtain ⟨rest, hvalues, henums⟩ := values_of_init hinit
    have hnamed : "BREWBLOX".toList <+: m.name := by
      rw [splitOn_append t (by decide)] at hvalues
      obtain ⟨first, more, hsplit⟩ := List.exists_cons_of_ne_nil (List.splitOn_ne_nil ',' t)
      rw [hsplit, List.modifyHead_cons] at hvalues
      exact ⟨first, (List.cons.inj hvalues).1⟩
    refine ⟨{ m with rest, named := hnamed, enums := henums, plain := ?_ }, ?_, ?_⟩
    · intro value hvalue hcomma
      rw [← hvalues] at hvalue
      exact (mem_splitOn hvalue _ hcomma).1 rfl
    · have hjoin : [','].intercalate (("BREWBLOX".toList ++ t).splitOn ',') =
          "BREWBLOX".toList ++ t := List.intercalate_splitOn ','
      rw [hvalues] at hjoin
      exact congrArg ('!' :: ·) hjoin
    · cases hstate
      rfl
  · rintro ⟨g, rfl, rfl⟩
    exact on_event_greeting config state g

/-- The message of a controller that was reset in its boot loader. -/
def dfuGreeting : Greeting where
  name := "BREWBLOX".toList
  firmware_version := "ed70d66f0".toList
  proto_version := "3f2243a".toList
  firmware_date := "2019-06-18".toList
  proto_date := "2019-06-18".toList
  system_version := "1.2.1-rc.2".toList
  platform := "p1".toList
  reset_reason_hex := "78".toList
  reset_data_hex := "0a".toList
  device_id := "1234567F0CASE".toList
  reset_reason := "DFU_MODE"
  reset_data := "NOT_SPECIFIED"
  rest := []
  named := by decide
  enums := by decide
  plain := by decide

theorem dfu_welcome_is_accepted :
    let state := StateMachine.init {} someFirmwareConfig
    _on_event {} state ("!BREWBLOX,ed70d66f0,3f2243a,2019-06-18,2019-06-18,1.2.1-rc.2,p1,78,0a," ++
      "1234567F0CASE").toList =
        .ok (state.set_acknowledged {} (dfuGreeting.desc (List.map Char.toLower))) :=
  (welcome_is_accepted_iff {} _ _ (by decide)).mpr ⟨dfuGreeting, by decide, rfl⟩

/-! ## On a stream -/

/-- The state after the tasks of a stream. A task that raises changes nothing. -/
def handled (config : ServiceConfig) (state : StateMachine) (tasks : List Task) : StateMachine :=
  tasks.foldl (fun state task =>
    match task with
    | .on_event msg => (_on_event config state msg).toOption.getD state
    | .on_response _ => state) state

theorem handled_events (config : ServiceConfig) (state : StateMachine) (tasks : List Task) :
    handled config state tasks = (tasks.filterMap Task.event?).foldl
      (fun state msg => (_on_event config state msg).toOption.getD state) state := by
  unfold handled
  rw [List.foldl_filterMap]
  congr 1
  funext state task
  cases task with
  | on_event msg => rfl
  | on_response msg => rfl

/-- What a controller sends: greetings and other annotations, which are logged, between data. -/
inductive Item
  | greeting (g : Greeting)
  | log (msg : Text)
  | data (t : Text)

namespace Item

def text : Item → Text
  | .greeting g => '<' :: g.text ++ ['>']
  | .log msg => '<' :: msg ++ ['>']
  | .data t => t

def greeting? : Item → Option Greeting
  | .greeting g => some g
  | .log _ | .data _ => none

def framed? : Item → Option Text
  | .greeting g => some g.text
  | .log msg => some msg
  | .data _ => none

def data? : Item → Text
  | .greeting _ | .log _ => []
  | .data t => t

/-- A text that an annotation can hold. -/
structure Framed (msg : Text) : Prop where
  start : '<' ∉ msg
  close : '>' ∉ msg
  line : '\n' ∉ msg

/-- A greeting does not end in white space, and no other annotation reads as one. -/
def Sendable : Item → Prop
  | .greeting g => Framed g.text ∧ Trimmed g.text
  | .log msg => Framed msg ∧ ¬ WELCOME_PREFIX <+: msg
  | .data t => '<' ∉ t

end Item

/-- All that a controller sends, in order. -/
def sent (items : List Item) : Text := (items.map Item.text).flatten

open brackets

theorem Item.framed_annotated {item : Item} (h : item.Sendable) {msg : Text}
    (hmsg : item.framed? = some msg) :
    Item.Framed msg ∧ item.text = '<' :: msg ++ ['>'] ∧ item.data? = [] := by
  cases item with
  | greeting g =>
    cases hmsg
    exact ⟨h.1, rfl, rfl⟩
  | log msg =>
    cases hmsg
    exact ⟨h.1, rfl, rfl⟩
  | data t => cases hmsg

theorem Item.data_outer {item : Item} (h : item.Sendable) (hnone : item.framed? = none) :
    item.text = item.data? ∧ '<' ∉ item.data? := by
  cases item with
  | greeting g => cases hnone
  | log msg => cases hnone
  | data t => exact ⟨rfl, h⟩

variable {items : List Item}

theorem annotated_sent (h : ∀ item ∈ items, item.Sendable) : Annotated (sent items) := by
  induction items with
  | nil => rfl
  | cons item items ih =>
    have hitems := ih fun i hi => h i (List.mem_cons_of_mem item hi)
    have hitem := h item List.mem_cons_self
    have hsent : sent (item :: items) = item.text ++ sent items := rfl
    unfold Annotated at hitems ⊢
    rw [hsent]
    cases hmsg : item.framed? with
    | some msg =>
      obtain ⟨hframed, htext, -⟩ := Item.framed_annotated hitem hmsg
      rw [htext, closed_bracket (by decide) hframed.start hframed.close hframed.line]
      exact hitems
    | none =>
      obtain ⟨htext, houter⟩ := Item.data_outer hitem hmsg
      rw [htext, closed_outer houter]
      exact hitems

theorem scan_sent (h : ∀ item ∈ items, item.Sendable) :
    scan '<' '>' (sent items) =
      { outer := (items.map Item.data?).flatten, closed := items.filterMap Item.framed? } := by
  have hread : ∀ s : Scan Char, s.frames = [] → s.read '<' '>' (sent items) =
      { s with outer := s.outer ++ (items.map Item.data?).flatten
               closed := s.closed ++ items.filterMap Item.framed? } := by
    induction items with
    | nil => simp [sent]
    | cons item items ih =>
      intro s hs
      have hitem := h item List.mem_cons_self
      have hsent : sent (item :: items) = item.text ++ sent items := rfl
      have hitems := ih fun i hi => h i (List.mem_cons_of_mem item hi)
      rw [hsent, read_append]
      cases hmsg : item.framed? with
      | some msg =>
        obtain ⟨hframed, htext, hdata⟩ := Item.framed_annotated hitem hmsg
        rw [htext, read_bracket s (by decide) hframed.start hframed.close,
          hitems { s with closed := s.closed ++ [msg] } hs]
        simp [hmsg, hdata]
      | none =>
        obtain ⟨htext, houter⟩ := Item.data_outer hitem hmsg
        rw [htext, read_outer s houter hs, hitems { s with outer := s.outer ++ item.data? } hs]
        simp [hmsg]
  simpa [scan] using hread {} rfl

theorem rstrip_starts (t : Text) : rstrip t <+: t := by
  have h : (t.reverse.dropWhile isSpace).reverse <+: t.reverse.reverse :=
    List.reverse_prefix.mpr (List.dropWhile_suffix isSpace)
  rwa [List.reverse_reverse] at h

theorem events_sent (config : ServiceConfig) (state : StateMachine)
    (h : ∀ item ∈ items, item.Sendable) :
    ((items.filterMap Item.framed?).map rstrip).foldl
        (fun state msg => (_on_event config state msg).toOption.getD state) state =
      (items.filterMap Item.greeting?).foldl
        (fun state g => state.set_acknowledged config (g.desc config.lower)) state := by
  induction items generalizing state with
  | nil => rfl
  | cons item items ih =>
    have hitems := fun state => ih state fun i hi => h i (List.mem_cons_of_mem item hi)
    have hitem := h item List.mem_cons_self
    cases item with
    | greeting g =>
      have hstrip : rstrip g.text = g.text := (rstrip_eq_self_iff _).mpr hitem.2
      have hevent : (_on_event config state (rstrip g.text)).toOption.getD state =
          state.set_acknowledged config (g.desc config.lower) := by
        rw [hstrip, on_event_greeting]
        rfl
      have hcons : (Item.greeting g :: items).filterMap Item.framed? =
          g.text :: items.filterMap Item.framed? := rfl
      rw [hcons, List.map_cons, List.foldl_cons, hevent]
      exact hitems _
    | log msg =>
      have hevent : _on_event config state (rstrip msg) = .ok state := by
        unfold _on_event
        rw [if_neg fun hwelcome => hitem.2 ?_]
        · rfl
        · exact (List.isPrefixOf_iff_prefix.mp hwelcome).trans (rstrip_starts msg)
      have hsame : (_on_event config state (rstrip msg)).toOption.getD state = state := by
        rw [hevent]
        rfl
      have hcons : (Item.log msg :: items).filterMap Item.framed? =
          msg :: items.filterMap Item.framed? := rfl
      rw [hcons, List.map_cons, List.foldl_cons, hsame]
      exact hitems _
    | data t => exact hitems state

/-- The service knows the controller by its greetings, in their order, wherever the transport cuts
the stream between two characters and whatever is sent between the greetings. -/
theorem greetings_are_acknowledged (config : ServiceConfig) (state : StateMachine)
    {items : List Item} (h : ∀ item ∈ items, item.Sendable) {chunks : List (List UInt8)}
    (hchunks : chunks.flatten = encode (sent items))
    (hstarts : ∀ chunk ∈ chunks, StartsCharacter chunk) :
    ∃ conn : StreamConnection, StreamConnection.receive {} chunks = .ok conn ∧
      handled config state conn.tasks = (items.filterMap Item.greeting?).foldl
        (fun state g => state.set_acknowledged config (g.desc config.lower)) state ∧
      conn.responses = (delivered (items.map Item.data?).flatten).1 := by
  have hannotated := annotated_sent h
  have hscan := scan_sent h
  obtain ⟨conn, hreceive, hevents, hresponses⟩ :=
    StreamConnection.messages_do_not_depend_on_cuts (decode_encode (sent items)) hannotated hchunks
      hstarts
  refine ⟨conn, hreceive, ?_, ?_⟩
  · rw [handled_events]
    unfold StreamConnection.events at hevents
    rw [hevents, push_events hannotated]
    unfold annotations
    rw [hscan]
    exact events_sent config state h
  · have hdelivered := pushAll_delivered [sent items] hannotated (by simp)
    unfold unannotated at hdelivered
    rw [hscan] at hdelivered
    rw [hresponses]
    exact congrArg Prod.fst hdelivered

/-- The greeting comes in one chunk with a line of data, and a log after that. -/
theorem dfu_greeting_is_acknowledged :
    let items : List Item :=
      [.greeting dfuGreeting, .data "21°C\n".toList, .log "booted".toList]
    let chunks := [encode (sent (items.take 2)), encode (sent (items.drop 2))]
    ∃ conn : StreamConnection, StreamConnection.receive {} chunks = .ok conn ∧
      handled {} (StateMachine.init {} someFirmwareConfig) conn.tasks =
        (items.filterMap Item.greeting?).foldl
          (fun state g => state.set_acknowledged {} (g.desc (List.map Char.toLower)))
          (StateMachine.init {} someFirmwareConfig) ∧
      conn.responses = (delivered (items.map Item.data?).flatten).1 := by
  intro items chunks
  have hgreeting : Item.Sendable (.greeting dfuGreeting) :=
    ⟨⟨by decide, by decide, by decide⟩, by decide⟩
  have hdata : '<' ∉ "21°C\n".toList := by decide
  have hlog : Item.Sendable (.log "booted".toList) :=
    ⟨⟨by decide, by decide, by decide⟩, by decide⟩
  refine greetings_are_acknowledged {} _ ?_ ?_ ?_
  · exact List.forall_mem_cons.mpr ⟨hgreeting, List.forall_mem_cons.mpr ⟨hdata,
      List.forall_mem_cons.mpr ⟨hlog, List.forall_mem_nil _⟩⟩⟩
  · decide +kernel
  · rintro chunk hchunk
    simp only [chunks, List.mem_cons, List.not_mem_nil, or_false] at hchunk
    rcases hchunk with rfl | rfl <;> exact startsCharacter_encode _

end devcon_spark.command
