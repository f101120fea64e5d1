-- What an OTA client writes, and what the other side said before: no packet
-- goes to a controller that is not ready for it.
import DevconSpark.OtaClient

open programs py_text devcon_spark.exceptions

namespace devcon_spark.ymodem

variable {replies : Replies} {conn conn₁ conn₂ : Connection} {ps qs : List Packet}
  {ms ns : List Message} {α β : Type}

/-! ## Exchanges

What is written and what is read between two states of a connection. -/

/-- The messages that arrive while packets are written after others. -/
def arrived (replies : Replies) : List Packet → List Packet → List Message
  | _, [] => []
  | written, p :: ps => replies (written ++ [p]) ++ arrived replies (written ++ [p]) ps

/-- Messages are read in the order of their arrival, and none is left out. -/
structure Exchange (replies : Replies) (conn : Connection) (ps : List Packet) (ms : List Message)
    (conn' : Connection) : Prop where
  written : conn'.written = conn.written ++ ps
  read : conn.queue ++ arrived replies conn.written ps = ms ++ conn'.queue

theorem arrived_append (written : List Packet) :
    arrived replies written (ps ++ qs) =
      arrived replies written ps ++ arrived replies (written ++ ps) qs := by
  induction ps generalizing written with
  | nil => simp [arrived]
  | cons p ps ih => simp [arrived, ih]

theorem Exchange.refl (conn : Connection) : Exchange replies conn [] [] conn where
  written := by simp
  read := by simp [arrived]

theorem Exchange.trans (h : Exchange replies conn ps ms conn₁)
    (h' : Exchange replies conn₁ qs ns conn₂) :
    Exchange replies conn (ps ++ qs) (ms ++ ns) conn₂ where
  written := by rw [h'.written, h.written, List.append_assoc]
  read := by
    rw [arrived_append, ← List.append_assoc, h.read, List.append_assoc, ← h.written, h'.read,
      List.append_assoc]

/-- Whatever the connection, a program ends with an exchange of some kind. -/
def Exchanges (replies : Replies) (x : Client α)
    (P : Except Failure α → List Packet → List Message → Prop) : Prop :=
  ∀ conn, Ends x conn fun r conn' => ∃ ps ms, Exchange replies conn ps ms conn' ∧ P r ps ms

section rules

variable {x : Client α} {f : α → Client β}
  {P : Except Failure α → List Packet → List Message → Prop}
  {Q : Except Failure β → List Packet → List Message → Prop}

theorem exchanges_pure {a : α} (h : P (.ok a) [] []) : Exchanges replies (pure a) P :=
  fun conn => ends_pure ⟨[], [], .refl conn, h⟩

theorem exchanges_throw {e : Failure} (h : P (.error e) [] []) : Exchanges replies (throw e) P :=
  fun conn => ends_throw ⟨[], [], .refl conn, h⟩

theorem exchanges_lift {y : Except Stop α}
    (h : P (y.mapError .stopped) [] []) : Exchanges replies (ota (liftExcept y)) P := by
  intro conn
  refine ⟨[], [], ?_, ?_⟩
  · cases y <;> exact .refl conn
  · cases y <;> exact h

theorem ends_write (packet : Packet) {f : Unit → Client β}
    {R : Except Failure β → Connection → Prop}
    (h : ∀ conn₁, Exchange replies conn [packet] [] conn₁ → Ends (f ()) conn₁ R) :
    Ends (ota (write replies packet) >>= f) conn R :=
  h { written := conn.written ++ [packet]
      queue := conn.queue ++ replies (conn.written ++ [packet]) } ⟨rfl, by simp [arrived]⟩

theorem exchanges_write (packet : Packet) {f : Unit → Client β}
    (h : Exchanges replies (f ()) fun r qs ns => Q r (packet :: qs) ns) :
    Exchanges replies (ota (write replies packet) >>= f) Q := by
  refine fun conn => ends_write packet fun conn₁ hwrite => ?_
  obtain ⟨qs, ns, hf, hQ⟩ := h conn₁
  exact ⟨packet :: qs, ns, hwrite.trans hf, hQ⟩

theorem exchanges_message {f : Message → Client β}
    (hwait : Q (.error (.stopped .waiting)) [] [])
    (h : ∀ m, Exchanges replies (f m) fun r qs ns => Q r qs (m :: ns)) :
    Exchanges replies (message >>= f) Q := by
  rintro ⟨written, queue⟩
  cases queue with
  | nil => exact ⟨[], [], .refl _, hwait⟩
  | cons m queue =>
    obtain ⟨qs, ns, hf, hQ⟩ := h m { written, queue }
    have hread : Exchange replies { written, queue := m :: queue } [] [m] { written, queue } :=
      ⟨by simp, by simp [arrived]⟩
    exact ⟨qs, m :: ns, hread.trans hf, hQ⟩

theorem exchanges_read {f : Text → Client β}
    (herror : ∀ e ms, ms.length ≤ 1 → Q (.error e) [] ms)
    (h : ∀ m t, utf8.decode m = some t → Exchanges replies (f t) fun r qs ns => Q r qs (m :: ns)) :
    Exchanges replies (_read >>= f) Q := by
  unfold _read
  rw [bind_assoc]
  refine exchanges_message (herror _ _ (by simp)) fun m => ?_
  cases hdecode : utf8.decode m with
  | none => exact exchanges_throw (herror _ _ (by simp))
  | some t => exact h m t hdecode

theorem exchanges_get {f : Connection → Client β} (h : ∀ conn, Exchanges replies (f conn) Q) :
    Exchanges replies (get >>= f) Q :=
  fun conn => ends_get (h conn conn)

end rules

/-! ## What the other side said -/

/-- The text of some messages. -/
def textOf (ms : List Message) : Option Text := (ms.mapM utf8.decode).map List.flatten

theorem textOf_nil : textOf [] = some [] := rfl

theorem textOf_cons {m : Message} {t u : Text} (hm : utf8.decode m = some t)
    (hms : textOf ms = some u) : textOf (m :: ms) = some (t ++ u) := by
  obtain ⟨us, hus, rfl⟩ := Option.map_eq_some_iff.mp hms
  simp [textOf, hm, hus]

/-- A text has the message of an updater, and none of a controller that runs. -/
def Greets (t : Text) (message : HandshakeMessage) : Prop :=
  searchMessage CONTROLBOX t = none ∧
    ∃ text ∈ searchMessage UPDATER t, HandshakeMessage.parse text = .ok message

/-- How many messages start with an ACK. -/
def acks (ms : List Message) : Nat := ms.countP fun m => m.head? = some Control.ACK.value

theorem awaitHandshake_exchanges (turns : Nat) (buffer : Text) :
    Exchanges replies (awaitHandshake replies turns buffer) fun r ps ms =>
      (∃ n, ps = List.replicate n NEWLINE ∧ n + ms.length ≤ turns) ∧
        ∀ message, r = .ok message → ∃ t, textOf ms = some t ∧ Greets (buffer ++ t) message := by
  induction turns generalizing buffer with
  | zero => exact exchanges_throw ⟨⟨0, rfl, Nat.le_refl 0⟩, by simp⟩
  | succ turns ih =>
    unfold awaitHandshake
    refine exchanges_get fun conn => ?_
    split
    · refine exchanges_write NEWLINE fun conn => ?_
      obtain ⟨ps, ms, hexchange, ⟨n, rfl, hn⟩, hgreets⟩ := ih buffer conn
      exact ⟨_, ms, hexchange, ⟨n + 1, rfl, by omega⟩, hgreets⟩
    · refine exchanges_read (fun e ms hms => ⟨⟨0, rfl, by omega⟩, by simp⟩) fun m t hm => ?_
      dsimp only
      split
      · exact exchanges_throw ⟨⟨0, rfl, by simp⟩, by simp⟩
      · rename_i hcontrolbox
        split
        · rename_i text htext
          refine exchanges_lift ⟨⟨0, rfl, by simp⟩, fun message hmessage => ?_⟩
          have hparse := mapError_eq_ok.mp (mapError_eq_ok.mp hmessage)
          have ht : textOf [m] = some t := by simpa using textOf_cons hm textOf_nil
          refine ⟨t, ht, ?_, text, htext, hparse⟩
          simpa using hcontrolbox
        · intro conn
          obtain ⟨ps, ms, hexchange, ⟨n, rfl, hn⟩, hgreets⟩ := ih (buffer ++ t) conn
          refine ⟨_, ms, hexchange, ⟨n, rfl, by simp; omega⟩, fun message hmessage => ?_⟩
          obtain ⟨u, hu, hgreets⟩ := hgreets message hmessage
          rw [List.append_assoc] at hgreets
          exact ⟨t ++ u, textOf_cons hm hu, hgreets⟩

/-- What was written is answered by a text that says that the other side is ready. -/
theorem awaitReady_exchanges (turns : Nat) (buffer : Text) :
    Exchanges replies (awaitReady turns buffer) fun r ps ms =>
      ps = [] ∧ ms.length ≤ turns ∧
        (r = .ok () → ∃ t, textOf ms = some t ∧ READY <:+: buffer ++ t) := by
  induction turns generalizing buffer with
  | zero => exact exchanges_throw ⟨rfl, Nat.le_refl 0, by simp⟩
  | succ turns ih =>
    unfold awaitReady
    refine exchanges_read (fun e ms hms => ⟨rfl, by omega, by simp⟩) fun m t hm => ?_
    dsimp only
    split
    · rename_i hready
      have ht : textOf [m] = some t := by simpa using textOf_cons hm textOf_nil
      exact exchanges_pure ⟨rfl, by simp, fun _ => ⟨t, ht, hready⟩⟩
    · intro conn
      obtain ⟨ps, ms, hexchange, rfl, hlength, hready⟩ := ih (buffer ++ t) conn
      refine ⟨_, ms, hexchange, rfl, by simp; omega, fun hr => ?_⟩
      obtain ⟨u, hu, hinfix⟩ := hready hr
      rw [List.append_assoc] at hinfix
      exact ⟨t ++ u, textOf_cons hm hu, hinfix⟩

theorem awaitActive_exchanges (turns ack : Nat) :
    Exchanges replies (awaitActive replies turns ack) fun r ps ms =>
      (∃ n, ps = List.replicate n SPACE) ∧
        (r = .ok () → ps.length = ms.length ∧ 2 ≤ ack + acks ms) := by
  induction turns generalizing ack with
  | zero =>
    unfold awaitActive
    split
    · exact exchanges_throw ⟨⟨0, rfl⟩, by simp⟩
    · exact exchanges_pure ⟨⟨0, rfl⟩, fun _ => ⟨rfl, by simp [acks]; omega⟩⟩
  | succ turns ih =>
    unfold awaitActive
    split
    · refine exchanges_write SPACE (exchanges_message ⟨⟨1, rfl⟩, by simp⟩ fun m => ?_)
      cases m with
      | nil => exact exchanges_throw ⟨⟨1, rfl⟩, by simp⟩
      | cons b m =>
        intro conn
        obtain ⟨ps, ms, hexchange, ⟨n, rfl⟩, hacks⟩ :=
          ih (if b = Control.ACK.value then ack + 1 else ack) conn
        refine ⟨_, ms, hexchange, ⟨n + 1, rfl⟩, fun hr => ?_⟩
        obtain ⟨hlength, htwo⟩ := hacks hr
        have hcount : acks ((b :: m) :: ms) =
            acks ms + if b = Control.ACK.value then 1 else 0 := by
          simp [acks, List.countP_cons]
        refine ⟨by simp [hlength], ?_⟩
        rw [hcount]
        split at htwo
        · rename_i hb
          rw [if_pos hb]
          omega
        · rename_i hb
          rw [if_neg hb]
          omega
    · exact exchanges_pure ⟨⟨0, rfl⟩, fun _ => ⟨rfl, by simp [acks]; omega⟩⟩

/-! ## The course of an update -/

/-- A packet of a transfer: the header, a part of the file, or its end. -/
def OfTransfer (p : Packet) : Prop := p.length = PACKET_LEN ∨ p = endOfTransfer

/-- Only packets of a transfer were written after others. -/
def Continues (written : List Packet) (conn : Connection) : Prop :=
  ∃ packets, conn.written = written ++ packets ∧ ∀ p ∈ packets, OfTransfer p

variable {written : List Packet}

theorem keeps_send_packet {packet : Packet} (h : OfTransfer packet) :
    Keeps (Continues written) (_send_packet replies packet) := by
  rintro conn ⟨packets, hwritten, hpackets⟩
  unfold Ends
  rw [send_packet_run]
  refine ⟨packets ++ [packet], by simp [hwritten], fun p hp => ?_⟩
  rcases List.mem_append.mp hp with hp | hp
  · exact hpackets p hp
  · rw [List.mem_singleton.mp hp]
    exact h

theorem keeps_send_data (seq : Nat) (data : List UInt8) :
    Keeps (Continues written) (_send_data replies seq data) := by
  unfold _send_data
  dsimp only
  split
  · exact keeps_throw _
  · rename_i hlength
    have hpacket : OfTransfer (makePacket seq data) := .inl (not_not.mp hlength)
    refine keeps_bind (keeps_send_packet hpacket) fun response => ?_
    split
    · exact keeps_send_packet hpacket
    · exact keeps_pure _

theorem keeps_sendBody (n current : Nat) (file : List UInt8) :
    Keeps (Continues written) (sendBody replies n current file) := by
  induction n generalizing current file with
  | zero => exact keeps_pure _
  | succ n ih =>
    unfold sendBody
    refine keeps_bind (keeps_send_data _ _) fun response => ?_
    split
    · exact keeps_throw _
    · exact ih _ _

theorem keeps_transfer (name : Text) (file : List UInt8) :
    Keeps (Continues written) (_transfer replies name file) := by
  unfold _transfer
  refine keeps_bind (keeps_lift _) fun n => keeps_bind (keeps_send_data _ _) fun response => ?_
  split
  · exact keeps_throw _
  · refine keeps_bind (keeps_sendBody _ _ _) fun _ => ?_
    unfold sendEnd
    refine keeps_bind (keeps_send_packet (.inr rfl)) fun response => ?_
    split
    · exact keeps_throw _
    · exact keeps_bind (keeps_send_data _ _) fun _ => keeps_pure _

/-- The other side was asked for its handshake, and it is an updater. -/
def Greeted (replies : Replies) (conn conn₁ : Connection) : Prop :=
  ∃ n ms t message, n ≤ 20 ∧ Exchange replies conn (List.replicate (n + 1) NEWLINE) ms conn₁ ∧
    textOf ms = some t ∧ Greets t message

/-- It was told to start, and it is ready for firmware. -/
def Ready (replies : Replies) (conn conn₁ : Connection) : Prop :=
  ∃ ms t, Exchange replies conn [START] ms conn₁ ∧ textOf ms = some t ∧ READY <:+: t

/-- It acknowledged two packets of a space. -/
def Active (replies : Replies) (conn conn₁ : Connection) : Prop :=
  ∃ ms, Exchange replies conn (List.replicate ms.length SPACE) ms conn₁ ∧ 2 ≤ acks ms

/-- How far a client came. -/
inductive Course (replies : Replies) (conn : Connection) :
    Except Failure Unit → Connection → Prop
  | ungreeted {e n ms conn'} (hn : n ≤ 20)
      (h : Exchange replies conn (List.replicate (n + 1) NEWLINE) ms conn') :
      Course replies conn (.error e) conn'
  | unready {e ms conn₁ conn'} (hgreeted : Greeted replies conn conn₁)
      (h : Exchange replies conn₁ [START] ms conn') : Course replies conn (.error e) conn'
  | inactive {e n ms conn₁ conn₂ conn'} (hgreeted : Greeted replies conn conn₁)
      (hready : Ready replies conn₁ conn₂)
      (h : Exchange replies conn₂ (List.replicate n SPACE) ms conn') :
      Course replies conn (.error e) conn'
  | transferred {r conn₁ conn₂ conn₃ conn'} (hgreeted : Greeted replies conn conn₁)
      (hready : Ready replies conn₁ conn₂) (hactive : Active replies conn₂ conn₃)
      (h : Continues conn₃.written conn') : Course replies conn r conn'

theorem trigger_course (turns : Nat) (conn : Connection) :
    Ends (_trigger_ymodem replies turns) conn fun r conn₃ =>
      (∀ message, r = .ok message → ∃ conn₁ conn₂, Greeted replies conn conn₁ ∧
        Ready replies conn₁ conn₂ ∧ Active replies conn₂ conn₃) ∧
      ∀ e, r = .error e → Course replies conn (.error e) conn₃ := by
  unfold _trigger_ymodem
  refine ends_write NEWLINE fun conn₀ hasked =>
    ends_bind (awaitHandshake_exchanges 20 [] conn₀) ?_ ?_
  case refine_2 =>
    rintro e conn₁ ⟨_, ms, hexchange, ⟨n, rfl, hn⟩, -⟩
    exact ⟨by simp, fun _ _ => .ungreeted (by omega) (hasked.trans hexchange)⟩
  rintro message conn₁ ⟨_, ms, hexchange, ⟨n, rfl, hn⟩, hgreets⟩
  obtain ⟨t, ht, hgreets⟩ := hgreets message rfl
  have hgreeted : Greeted replies conn conn₁ :=
    ⟨n, ms, t, message, by omega, hasked.trans hexchange, ht, hgreets⟩
  refine ends_write START fun conn₁' hstarted =>
    ends_bind (@awaitReady_exchanges replies 10 [] conn₁') ?_ ?_
  case refine_2 =>
    rintro e conn₂ ⟨_, ms, hexchange, rfl, -⟩
    exact ⟨by simp, fun _ _ => .unready hgreeted (hstarted.trans hexchange)⟩
  rintro ⟨⟩ conn₂ ⟨_, ms, hexchange, rfl, -, hready⟩
  obtain ⟨t, ht, hinfix⟩ := hready rfl
  have hready : Ready replies conn₁ conn₂ := ⟨ms, t, hstarted.trans hexchange, ht, hinfix⟩
  refine ends_bind (awaitActive_exchanges turns 0 conn₂) ?_ ?_
  · rintro ⟨⟩ conn₃ ⟨_, ms, hexchange, ⟨n, rfl⟩, hacks⟩
    obtain ⟨hlength, htwo⟩ := hacks rfl
    rw [List.length_replicate] at hlength
    subst hlength
    exact ⟨fun _ _ => ⟨conn₁, conn₂, hgreeted, hready, ms, hexchange, by omega⟩, by simp⟩
  · rintro e conn₃ ⟨_, ms, hexchange, ⟨n, rfl⟩, -⟩
    exact ⟨by simp, fun _ _ => .inactive hgreeted hready hexchange⟩

theorem ends_ota {x : Ota α} {C : Connection → Prop} (h : Ends x conn fun _ => C) :
    Ends (ota x) conn fun _ => C := h

/-- Whatever the other side answers: no packet of a transfer is written before it greeted as an
updater, and as nothing else, said that it is ready, and acknowledged two spaces. -/
theorem packets_follow_an_invitation (replies : Replies) (turns : Nat) (name : Text)
    (file : List UInt8) (conn : Connection) :
    Ends (send replies turns name file) conn (Course replies conn) := by
  unfold send
  refine ends_bind (trigger_course turns conn) ?_ fun e conn₃ h => h.2 e rfl
  rintro message conn₃ ⟨hok, -⟩
  obtain ⟨conn₁, conn₂, hgreeted, hready, hactive⟩ := hok message rfl
  have hwritten : Ends (ota (_transfer replies name file)) conn₃
      fun _ => Continues conn₃.written :=
    ends_ota (keeps_transfer name file conn₃ ⟨[], by simp, by simp⟩)
  exact .transferred hgreeted hready hactive hwritten

end devcon_spark.ymodem
