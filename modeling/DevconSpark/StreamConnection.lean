-- The stream connection: bytes come in chunks, are decoded, and go to the
-- parser. A chunk that ends inside a character does not decode.
import DevconSpark.CboxLaws
import DevconSpark.Exceptions
import DevconSpark.Utf8

open py_text utf8 devcon_spark.cbox_parser devcon_spark.exceptions

namespace devcon_spark.connection.stream_connection

/-! ## The connection -/

/-- A task that was created for a message. -/
inductive Task
  | on_event (msg : Text)
  | on_response (msg : Text)
  deriving DecidableEq

def Task.event? : Task → Option Text
  | .on_event msg => some msg
  | .on_response _ => none

def Task.response? : Task → Option Text
  | .on_event _ => none
  | .on_response msg => some msg

/-- The record `pushed` is for the laws only: the code keeps none. -/
structure StreamConnection where
  parser : CboxParser := {}
  tasks : List Task := []
  pushed : List Text := []
  deriving DecidableEq

namespace StreamConnection

/-- `data_received`, once the bytes are decoded. -/
def received (self : StreamConnection) (recv : Text) : StreamConnection :=
  let parser := push self.parser recv
  -- Drain parsed messages
  { parser := { parser with events := [], data := [] }
    tasks := self.tasks ++ parser.events.map .on_event ++ parser.data.map .on_response
    pushed := self.pushed ++ [recv] }

def data_received (self : StreamConnection) (recv : List UInt8) : Except Exn StreamConnection :=
  match decode recv with
  | some recv => .ok (self.received recv)
  | none => .error { kind := .ValueError, msg := "'utf-8' codec can't decode bytes" }

/-- A call that raises makes the transport close the connection, and no more calls follow. -/
def receive (self : StreamConnection) (chunks : List (List UInt8)) : Except Exn StreamConnection :=
  chunks.foldlM data_received self

/-! ## The calls -/

variable {self conn : StreamConnection}

/-- Nothing is raised exactly where every chunk decodes. -/
theorem receive_eq_ok_iff {chunks : List (List UInt8)} : receive self chunks = .ok conn ↔
    ∃ texts : List Text, chunks.map decode = texts.map some ∧ conn = texts.foldl received self := by
  induction chunks generalizing self with
  | nil =>
    constructor
    · intro h
      cases h
      exact ⟨[], rfl, rfl⟩
    · rintro ⟨texts, htexts, rfl⟩
      obtain rfl := List.map_eq_nil_iff.mp htexts.symm
      rfl
  | cons chunk chunks ih =>
    have hcons : receive self (chunk :: chunks) =
        (self.data_received chunk >>= fun next => next.receive chunks) := rfl
    rw [hcons]
    unfold data_received
    cases hdecode : decode chunk with
    | none =>
      constructor
      · intro h
        cases h
      · rintro ⟨_ | ⟨text, texts⟩, htexts, -⟩
        · cases htexts
        · rw [List.map_cons, hdecode] at htexts
          cases htexts
    | some text =>
      refine (@ih (self.received text)).trans ⟨?_, ?_⟩
      · rintro ⟨texts, htexts, hconn⟩
        exact ⟨text :: texts, by rw [List.map_cons, hdecode, htexts, List.map_cons], hconn⟩
      · rintro ⟨_ | ⟨text', texts⟩, htexts, hconn⟩
        · cases htexts
        · rw [List.map_cons, hdecode, List.map_cons] at htexts
          obtain ⟨hsome, hrest⟩ := List.cons.inj htexts
          cases hsome
          exact ⟨texts, hrest, hconn⟩

theorem foldl_received_pushed (texts : List Text) :
    (texts.foldl received self).pushed = self.pushed ++ texts := by
  induction texts generalizing self with
  | nil => simp
  | cons text texts ih =>
    rw [List.foldl_cons, ih]
    simp [received]

/-- No call raises, and the texts that are pushed to the parser make up the whole text. -/
def Survives (self : StreamConnection) (chunks : List (List UInt8)) (text : Text) : Prop :=
  ∃ conn texts, receive self chunks = .ok conn ∧ conn.pushed = self.pushed ++ texts ∧
    texts.flatten = text

/-- The bytes of a text are received as that text exactly where each chunk starts with a
character. -/
theorem stream_is_received_iff (self : StreamConnection) {bytes : List UInt8} {text : Text}
    (h : decode bytes = some text) {chunks : List (List UInt8)} (hchunks : chunks.flatten = bytes) :
    Survives self chunks text ↔ ∀ chunk ∈ chunks, StartsCharacter chunk := by
  rw [← pieces_decode_iff h hchunks]
  constructor
  · rintro ⟨conn, texts, hrun, hpushed, hflat⟩
    obtain ⟨texts', htexts', rfl⟩ := receive_eq_ok_iff.mp hrun
    rw [foldl_received_pushed] at hpushed
    obtain rfl := List.append_cancel_left hpushed
    exact ⟨texts', htexts', hflat⟩
  · rintro ⟨texts, htexts, hflat⟩
    exact ⟨_, texts, receive_eq_ok_iff.mpr ⟨texts, htexts, rfl⟩, foldl_received_pushed texts, hflat⟩

theorem stream_is_received_iff_sample :
    Survives {} [[0x32, 0x31, 0xC2, 0xB0], [0x43, 0x0A]] "21°C\n".toList ↔
      ∀ chunk ∈ [[0x32, 0x31, 0xC2, 0xB0], [0x43, 0x0A]], StartsCharacter chunk :=
  stream_is_received_iff {} (decode_encode "21°C\n".toList) (by decide)

/-- The two bytes of a degree sign, each in a chunk of its own. -/
theorem split_character_is_refused :
    decode [0xC2, 0xB0] = some ['°'] ∧ ¬ Survives {} [[0xC2], [0xB0]] ['°'] := by
  refine ⟨decode_encode ['°'], ?_⟩
  rintro ⟨conn, -, hrun, -, -⟩
  obtain ⟨texts, htexts, -⟩ := receive_eq_ok_iff.mp hrun
  have hmem : decode [0xB0] ∈ texts.map some := htexts ▸ by simp
  obtain ⟨t, -, ht⟩ := List.mem_map.mp hmem
  have hstarts : StartsCharacter [0xB0] := startsCharacter_of_decode ht.symm
  exact absurd hstarts (by decide)

/-! ## The messages -/

def events (self : StreamConnection) : List Text := self.tasks.filterMap Task.event?

def responses (self : StreamConnection) : List Text := self.tasks.filterMap Task.response?

/-- The messages that a parser holds were handed over. -/
structure Drained (conn : StreamConnection) (parser : CboxParser) : Prop where
  buffer : conn.parser = { parser with events := [], data := [] }
  events : conn.events = parser.events
  responses : conn.responses = parser.data

theorem drained_received {parser : CboxParser} (h : Drained self parser) (recv : Text) :
    Drained (self.received recv) (push parser recv) := by
  have hparser := h.buffer
  have hevents := h.events
  have hresponses := h.responses
  unfold StreamConnection.events at hevents
  unfold StreamConnection.responses at hresponses
  constructor
  · simp [received, push, hparser]
  · simp [received, push, hparser, StreamConnection.events, Task.event?, hevents,
      List.filterMap_map, Function.comp_def]
  · simp [received, push, hparser, StreamConnection.responses, Task.response?, hresponses,
      List.filterMap_map, Function.comp_def]

theorem drained_foldl {parser : CboxParser} (h : Drained self parser) (texts : List Text) :
    Drained (texts.foldl received self) (pushAll parser texts) := by
  induction texts generalizing self parser with
  | nil => exact h
  | cons text texts ih => exact ih (drained_received h text)

/-- A stream that is cut between characters gives the messages that it gives in one piece. -/
theorem messages_do_not_depend_on_cuts {bytes : List UInt8} {text : Text}
    (h : decode bytes = some text) (hannotated : Annotated text) {chunks : List (List UInt8)}
    (hchunks : chunks.flatten = bytes) (hstarts : ∀ chunk ∈ chunks, StartsCharacter chunk) :
    ∃ conn, receive {} chunks = .ok conn ∧ conn.events = (push {} text).events ∧
      conn.responses = (push {} text).data := by
  obtain ⟨texts, htexts, hflat⟩ := (pieces_decode_iff h hchunks).mpr hstarts
  have hempty : Drained {} {} := ⟨rfl, rfl, rfl⟩
  have hdrained := drained_foldl hempty texts
  rw [cuts_do_not_matter texts hannotated hflat] at hdrained
  exact ⟨_, receive_eq_ok_iff.mpr ⟨texts, htexts, rfl⟩, hdrained.events, hdrained.responses⟩

end StreamConnection

end devcon_spark.connection.stream_connection
