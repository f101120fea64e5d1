-- A controller in its updater, which loses prompts, answers in pieces and
-- receives packets: the client transfers the file to it.
import DevconSpark.OtaLaws

open programs py_text devcon_spark.exceptions

namespace devcon_spark.ymodem

/-! ## A client that wrote before

A transfer does not see what was written before it. -/

section follows

variable {before : List Packet} {replies replies' : Replies} {α β : Type}

def Connection.after (before : List Packet) (conn : Connection) : Connection :=
  { conn with written := before ++ conn.written }

/-- A program does after some packets what another one does at first. -/
def Follows (before : List Packet) (x y : Ota α) : Prop :=
  ∀ conn, x.run.run (conn.after before) = ((y.run.run conn).1, (y.run.run conn).2.after before)

theorem follows_pure (a : α) : Follows before (pure a : Ota α) (pure a) := fun _ => rfl

theorem follows_throw (e : Stop) : Follows before (throw e : Ota α) (throw e) := fun _ => rfl

theorem follows_lift (y : Except Stop α) :
    Follows before (liftExcept y : Ota α) (liftExcept y) := by
  intro conn
  simp only [run_lift]

theorem follows_bind {x y : Ota α} {f g : α → Ota β} (h : Follows before x y)
    (hf : ∀ a, Follows before (f a) (g a)) : Follows before (x >>= f) (y >>= g) := by
  intro conn
  rw [run_bind, run_bind, h conn]
  cases y.run.run conn with
  | mk r conn' =>
    cases r with
    | error e => rfl
    | ok a => exact hf a conn'

theorem follows_send_packet (h : ∀ sent, sent ≠ [] → replies (before ++ sent) = replies' sent)
    (packet : Packet) :
    Follows before (_send_packet replies packet) (_send_packet replies' packet) := by
  intro conn
  rw [send_packet_run, send_packet_run]
  have hreplies : replies ((conn.after before).written ++ [packet]) =
      replies' (conn.written ++ [packet]) := by
    rw [← h _ (by simp)]
    simp [Connection.after]
  rw [hreplies]
  simp [Connection.after]

theorem follows_send_data (h : ∀ sent, sent ≠ [] → replies (before ++ sent) = replies' sent)
    (seq : Nat) (data : List UInt8) :
    Follows before (_send_data replies seq data) (_send_data replies' seq data) := by
  unfold _send_data
  dsimp only
  split
  · exact follows_throw _
  · refine follows_bind (follows_send_packet h _) fun response => ?_
    split
    · exact follows_send_packet h _
    · exact follows_pure _

theorem follows_sendBody (h : ∀ sent, sent ≠ [] → replies (before ++ sent) = replies' sent)
    (n current : Nat) (file : List UInt8) :
    Follows before (sendBody replies n current file) (sendBody replies' n current file) := by
  induction n generalizing current file with
  | zero => exact follows_pure _
  | succ n ih =>
    unfold sendBody
    refine follows_bind (follows_send_data h _ _) fun response => ?_
    split
    · exact follows_throw _
    · exact ih _ _

theorem follows_transfer (h : ∀ sent, sent ≠ [] → replies (before ++ sent) = replies' sent)
    (name : Text) (file : List UInt8) :
    Follows before (_transfer replies name file) (_transfer replies' name file) := by
  unfold _transfer
  refine follows_bind (follows_lift _) fun n =>
    follows_bind (follows_send_data h _ _) fun response => ?_
  split
  · exact follows_throw _
  · refine follows_bind (follows_sendBody h _ _ _) fun _ => ?_
    unfold sendEnd
    refine follows_bind (follows_send_packet h _) fun response => ?_
    split
    · exact follows_throw _
    · exact follows_bind (follows_send_data h _ _) fun _ => follows_pure _

end follows

/-! ## What is searched in a growing text -/

theorem messageAt_append {name t m : Text} (h : messageAt name t = some m) (u : Text) :
    messageAt name (t ++ u) = some m := by
  unfold messageAt at h ⊢
  cases hdrop : t.dropPrefix? ("<!".toList ++ name) with
  | none =>
    rw [hdrop] at h
    cases h
  | some rest =>
    rw [hdrop] at h
    dsimp only at h
    obtain ⟨hclosed, hm⟩ := Option.ite_none_right_eq_some.mp h
    obtain ⟨start, ht, hstart⟩ := List.dropPrefix?_eq_some_iff.mp hdrop
    have hlonger : (t ++ u).dropPrefix? ("<!".toList ++ name) = some (rest ++ u) :=
      List.dropPrefix?_eq_some_iff.mpr ⟨start, by rw [ht, List.append_assoc], hstart⟩
    have hshort : (rest.takeWhile (· ≠ '>')).length ≠ rest.length := by
      intro hlength
      have hall := List.takeWhile_eq_self_iff.mp (List.takeWhile_sublist _ |>.eq_of_length hlength)
      simpa using hall '>' hclosed
    rw [hlonger]
    dsimp only
    rw [if_pos (List.mem_append_left u hclosed), List.takeWhile_append, if_neg hshort, hm]

/-- What is not found is not found in a part of the text either. -/
theorem searchMessage_append {name t u : Text} (h : searchMessage name (t ++ u) = none) :
    searchMessage name t = none := by
  unfold searchMessage at h ⊢
  rw [List.findSome?_eq_none_iff] at h ⊢
  intro s hs
  by_contra hfound
  obtain ⟨m, hm⟩ := Option.ne_none_iff_exists'.mp hfound
  obtain ⟨before, rfl⟩ := (List.mem_tails s t).mp hs
  have hnone := h (s ++ u) ((List.mem_tails _ _).mpr ⟨before, by simp⟩)
  rw [messageAt_append hm u] at hnone
  cases hnone

/-! ## The updater -/

def isAck (m : Message) : Bool := m.head? = some Control.ACK.value

/-- What a controller in its updater says, and when. -/
structure Updater where
  /-- The prompts for a handshake that are not answered. -/
  lost : Nat
  /-- The texts before the one with which the handshake is complete. -/
  greeting : List Text
  handshake : Text
  /-- The texts before the one with which it is ready. -/
  starting : List Text
  ready : Text
  /-- The messages that answer each space. -/
  replied : List (List Message)
  receiver : Receiver
  in_time : lost + greeting.length < 20
  unfinished : searchMessage UPDATER greeting.flatten = none
  finished : ∃ message, Greets (greeting.flatten ++ handshake) message
  soon : starting.length < 10
  unready : ¬ READY <:+: starting.flatten
  told : READY <:+: starting.flatten ++ ready
  /-- There is a message to read after each space. -/
  in_turn : ∀ k < replied.length, k < (replied.take (k + 1)).flatten.length
  spoken : ∀ m ∈ replied.flatten, m ≠ []
  active : (replied.flatten.take replied.length).countP isAck = 2
  last : ∀ m ∈ (replied.flatten.take replied.length).getLast?, isAck m

namespace Updater

variable (updater : Updater)

/-- The messages that are read for the spaces, one for each. -/
def read : List Message := updater.replied.flatten.take updater.replied.length

/-- The messages that have come for so many spaces and were not read. -/
def unread (n : Nat) : List Message := ((updater.replied.take n).flatten).drop n

/-- What is written before the first space. -/
def prompts : List Packet := List.replicate (updater.lost + 1) NEWLINE ++ [START]

/-- The answer to what was written after `START`. -/
def answer : List Packet → List Message
  | [] => (updater.starting ++ [updater.ready]).map utf8.encode
  | p :: sent =>
    match updater.replied[sent.length]? with
    | some messages => messages
    | none => answers updater.receiver ((p :: sent).drop updater.replied.length)

def replies : Replies := fun written =>
  let asked := written.takeWhile (· = NEWLINE)
  match written.drop asked.length with
  | [] =>
    if asked.length = updater.lost + 1 then
      (updater.greeting ++ [updater.handshake]).map utf8.encode
    else []
  | _ :: sent => updater.answer sent

variable {updater}

theorem replies_asked (n : Nat) : updater.replies (List.replicate n NEWLINE) =
    if n = updater.lost + 1 then (updater.greeting ++ [updater.handshake]).map utf8.encode
    else [] := by
  simp [replies]

theorem replies_started (sent : List Packet) :
    updater.replies (updater.prompts ++ sent) = updater.answer sent := by
  have hasked : (updater.prompts ++ sent).takeWhile (· = NEWLINE) =
      List.replicate (updater.lost + 1) NEWLINE := by
    rw [prompts, List.append_assoc]
    exact takeWhile_stop (fun p hp => decide_eq_true (List.eq_of_mem_replicate hp)) (by decide)
  have hsent : (updater.prompts ++ sent).drop (updater.lost + 1) = START :: sent := by
    simp [prompts]
  unfold replies
  simp only [hasked, List.length_replicate, hsent]

theorem answer_space {n : Nat} {messages : List Message}
    (h : updater.replied[n]? = some messages) :
    updater.answer (List.replicate (n + 1) SPACE) = messages := by
  simp [List.replicate_succ, answer, h]

theorem came (updater : Updater) {n : Nat} (h : n ≤ updater.replied.length) :
    n ≤ (updater.replied.take n).flatten.length := by
  cases n with
  | zero => exact Nat.zero_le _
  | succ n => exact updater.in_turn n h

theorem read_length : updater.read.length = updater.replied.length := by
  have hcame := updater.came le_rfl
  rw [List.take_length] at hcame
  rw [read, List.length_take, min_eq_left hcame]

/-- The messages for the next space are read after those that are there. -/
theorem unread_succ {n : Nat} (h : n < updater.replied.length) :
    updater.unread n ++ updater.replied[n] = ((updater.replied.take (n + 1)).flatten).drop n := by
  rw [unread, ← List.drop_append_of_le_length (updater.came h.le),
    List.take_succ_eq_append_getElem h, List.flatten_append, List.flatten_singleton]

theorem next_message {n : Nat} {m : Message} (h : n < updater.replied.length)
    (hm : updater.read[n]? = some m) :
    updater.unread n ++ updater.replied[n] = m :: updater.unread (n + 1) := by
  have hcame : n < ((updater.replied.take (n + 1)).flatten).length := updater.in_turn n h
  rw [unread_succ h, List.drop_eq_getElem_cons hcame]
  congr 1
  have hbegins : (updater.replied.take (n + 1)).flatten <+: updater.replied.flatten := by
    conv_rhs => rw [← List.take_append_drop (n + 1) updater.replied, List.flatten_append]
    exact List.prefix_append _ _
  rw [read, List.getElem?_take_of_lt h] at hm
  rw [hbegins.getElem hcame]
  exact (List.getElem?_eq_some_iff.mp hm).2

theorem answer_packets {spaces sent : List Packet}
    (hspaces : spaces.length = updater.replied.length) (hsent : sent ≠ []) :
    updater.answer (spaces ++ sent) = answers updater.receiver sent := by
  have hdrop : (spaces ++ sent).drop updater.replied.length = sent := by
    rw [← hspaces, List.drop_left]
  have hlength := List.length_pos_iff.mpr hsent
  generalize hall : spaces ++ sent = written at hdrop ⊢
  have hcount := congrArg List.length hall
  rw [List.length_append] at hcount
  cases written with
  | nil =>
    rw [List.length_nil] at hcount
    omega
  | cons p written =>
    rw [List.length_cons] at hcount
    have hnone : updater.replied[written.length]? = none :=
      List.getElem?_eq_none (by omega)
    unfold answer
    dsimp only
    rw [hnone, ← hdrop]

end Updater

/-! ## The way to a transfer -/

variable {replies : Replies} {written : List Packet} {queue : List Message}

theorem run_ota {α : Type} (x : Ota α) (conn : Connection) :
    (ota x).run.run conn = ((x.run.run conn).1.mapError .stopped, (x.run.run conn).2) := rfl

theorem run_write (packet : Packet) (conn : Connection) :
    (ota (write replies packet)).run.run conn =
      (.ok (), { written := conn.written ++ [packet]
                 queue := conn.queue ++ replies (conn.written ++ [packet]) }) := rfl

theorem run_message (m : Message) :
    message.run.run { written, queue := m :: queue } = (.ok m, { written, queue }) := rfl

theorem run_read (t : Text) :
    _read.run.run { written, queue := utf8.encode t :: queue } = (.ok t, { written, queue }) := by
  unfold _read
  rw [run_bind_ok (run_message _), utf8.decode_encode]
  rfl

/-- One turn for a text with which the handshake is not complete. -/
theorem awaitHandshake_read {t buffer : Text} (turns : Nat)
    (hcontrolbox : searchMessage CONTROLBOX (buffer ++ t) = none)
    (hupdater : searchMessage UPDATER (buffer ++ t) = none) :
    (awaitHandshake replies (turns + 1) buffer).run.run
      { written, queue := utf8.encode t :: queue } =
      (awaitHandshake replies turns (buffer ++ t)).run.run { written, queue } := by
  conv_lhs => unfold awaitHandshake
  rw [run_bind_ok (run_get _), if_neg (by simp)]
  simp only
  rw [run_bind_ok (run_read t), hcontrolbox, if_neg (by simp), hupdater]

/-- A handshake that comes in pieces is read once it is complete. -/
theorem awaitHandshake_reads {texts : List Text} {last buffer : Text} {turns : Nat}
    {handshake : HandshakeMessage} (hturns : texts.length < turns)
    (hunfinished : searchMessage UPDATER (buffer ++ texts.flatten) = none)
    (hgreets : Greets (buffer ++ (texts.flatten ++ last)) handshake) :
    (awaitHandshake replies turns buffer).run.run
      { written, queue := (texts ++ [last]).map utf8.encode } = (.ok handshake, { written }) := by
  obtain ⟨hcontrolbox, text, htext, hparse⟩ := hgreets
  induction texts generalizing buffer turns with
  | nil =>
    cases turns with
    | zero => simp at hturns
    | succ turns =>
      rw [List.flatten_nil, List.nil_append] at hcontrolbox htext
      unfold awaitHandshake
      rw [run_bind_ok (run_get _), if_neg (by simp)]
      simp only [List.nil_append, List.map_cons, List.map_nil]
      rw [run_bind_ok (run_read last), hcontrolbox, if_neg (by simp), htext]
      dsimp only
      rw [hparse]
      rfl
  | cons t texts ih =>
    cases turns with
    | zero => simp at hturns
    | succ turns =>
      rw [List.flatten_cons, List.append_assoc, ← List.append_assoc] at hcontrolbox htext
      rw [List.flatten_cons, ← List.append_assoc] at hunfinished
      rw [List.cons_append, List.map_cons,
        awaitHandshake_read turns (searchMessage_append hcontrolbox)
          (searchMessage_append hunfinished)]
      exact ih (by simpa using hturns) hunfinished hcontrolbox htext

/-- The prompts that are lost are repeated. -/
theorem awaitHandshake_prompts {updater : Updater} {n lost : Nat} (h : n + lost = updater.lost)
    (turns : Nat) (buffer : Text) :
    (awaitHandshake updater.replies (lost + turns) buffer).run.run
      { written := List.replicate (n + 1) NEWLINE
        queue := updater.replies (List.replicate (n + 1) NEWLINE) } =
      (awaitHandshake updater.replies turns buffer).run.run
        { written := List.replicate (updater.lost + 1) NEWLINE
          queue := (updater.greeting ++ [updater.handshake]).map utf8.encode } := by
  induction lost generalizing n with
  | zero =>
    have hn : n = updater.lost := h
    rw [updater.replies_asked, if_pos (by omega), hn, Nat.zero_add]
  | succ lost ih =>
    have hsilent : updater.replies (List.replicate (n + 1) NEWLINE) = [] := by
      rw [updater.replies_asked, if_neg (by omega)]
    have hnext := @ih (n + 1) (by omega)
    rw [hsilent, Nat.succ_add, ← hnext]
    conv_lhs => unfold awaitHandshake
    rw [run_bind_ok (run_get _), if_pos (by simp), run_bind_ok (run_write _ _)]
    simp [List.replicate_succ']

/-- What is said in pieces is read once it says that the other side is ready. -/
theorem awaitReady_reads {texts : List Text} {last buffer : Text} {turns : Nat}
    (hturns : texts.length < turns) (hunready : ¬ READY <:+: buffer ++ texts.flatten)
    (hready : READY <:+: buffer ++ (texts.flatten ++ last)) :
    (awaitReady turns buffer).run.run { written, queue := (texts ++ [last]).map utf8.encode } =
      (.ok (), { written }) := by
  induction texts generalizing buffer turns with
  | nil =>
    cases turns with
    | zero => simp at hturns
    | succ turns =>
      rw [List.flatten_nil, List.nil_append] at hready
      unfold awaitReady
      simp only [List.nil_append, List.map_cons, List.map_nil]
      rw [run_bind_ok (run_read last), if_pos hready]
      rfl
  | cons t texts ih =>
    cases turns with
    | zero => simp at hturns
    | succ turns =>
      rw [List.flatten_cons, List.append_assoc, ← List.append_assoc] at hready
      rw [List.flatten_cons, ← List.append_assoc] at hunready
      have hnot : ¬ READY <:+: buffer ++ t :=
        fun h => hunready (h.trans (List.infix_append' [] _ _))
      unfold awaitReady
      simp only [List.cons_append, List.map_cons]
      rw [run_bind_ok (run_read t), if_neg hnot]
      exact ih (by simpa using hturns) hunready hready

/-- Spaces are written until two of them were acknowledged. -/
theorem awaitActive_writes {updater : Updater} {before after : List Message} {turns ack : Nat}
    (hread : updater.read = before ++ after) (hturns : after.length ≤ turns)
    (hack : ack + after.countP isAck = 2) (hlast : ∀ m ∈ after.getLast?, isAck m) :
    (awaitActive updater.replies turns ack).run.run
      { written := updater.prompts ++ List.replicate before.length SPACE
        queue := updater.unread before.length } =
      (.ok (), { written := updater.prompts ++ List.replicate updater.replied.length SPACE
                 queue := updater.unread updater.replied.length }) := by
  induction after generalizing before turns ack with
  | nil =>
    have hdone : ¬ ack < 2 := by
      rw [List.countP_nil] at hack
      omega
    have hall : before.length = updater.replied.length := by
      rw [← updater.read_length, hread, List.append_nil]
    unfold awaitActive
    rw [if_neg hdone, hall]
    rfl
  | cons m after ih =>
    have hmore : 0 < (m :: after).countP isAck := by
      obtain ⟨last, hsome⟩ : ∃ last, (m :: after).getLast? = some last :=
        ⟨_, List.getLast?_eq_some_getLast (List.cons_ne_nil m after)⟩
      exact List.countP_pos_iff.mpr ⟨last, List.mem_of_getLast? hsome, hlast last hsome⟩
    have hlt : before.length < updater.replied.length := by
      rw [← updater.read_length, hread]
      simp
    have hm : updater.read[before.length]? = some m := by simp [hread]
    have hanswer : updater.replies
        (updater.prompts ++ List.replicate before.length SPACE ++ [SPACE]) =
          updater.replied[before.length] := by
      rw [List.append_assoc, ← List.replicate_succ', updater.replies_started]
      exact updater.answer_space (List.getElem?_eq_getElem hlt)
    obtain ⟨b, rest, rfl⟩ : ∃ b rest, m = b :: rest := by
      have hne : m ≠ [] := updater.spoken m (List.mem_of_mem_take (List.mem_of_getElem? hm))
      exact ⟨_, _, (List.cons_head_tail hne).symm⟩
    cases turns with
    | zero => simp at hturns
    | succ turns =>
      unfold awaitActive
      rw [if_pos (by omega)]
      simp only
      rw [run_bind_ok (run_write _ _), hanswer, updater.next_message hlt hm,
        run_bind_ok (run_message _)]
      have hnext := @ih (before ++ [b :: rest]) turns
        (if b = Control.ACK.value then ack + 1 else ack)
        (by simp [hread]) (by simpa using hturns) ?_ ?_
      · rw [← hnext, List.length_append, List.length_singleton, List.replicate_succ',
          List.append_assoc]
      · rw [List.countP_cons] at hack
        by_cases hb : b = Control.ACK.value
        · rw [if_pos hb]
          rw [if_pos (by simpa [isAck] using hb)] at hack
          omega
        · rw [if_neg hb]
          rw [if_neg (by simpa [isAck] using hb)] at hack
          omega
      · intro last hsome
        cases after with
        | nil => cases hsome
        | cons m' after => exact hlast last hsome

/-- What is written before a transfer. -/
def Updater.invitation (updater : Updater) : List Packet :=
  updater.prompts ++ List.replicate updater.replied.length SPACE

theorem trigger_updater (updater : Updater) {turns : Nat}
    (hturns : updater.replied.length ≤ turns) :
    ∃ message, (_trigger_ymodem updater.replies turns).run.run {} =
      (.ok message, { written := updater.invitation
                      queue := updater.unread updater.replied.length }) := by
  obtain ⟨message, hgreets⟩ := updater.finished
  have hhandshake : (awaitHandshake updater.replies 20 []).run.run
      { written := [NEWLINE], queue := updater.replies [NEWLINE] } =
      (.ok message, { written := List.replicate (updater.lost + 1) NEWLINE }) := by
    have hturns : 20 = updater.lost + (20 - updater.lost) := by
      have := updater.in_time
      omega
    have hprompts := awaitHandshake_prompts (Nat.zero_add updater.lost) (20 - updater.lost) []
    rw [hturns]
    refine hprompts.trans (awaitHandshake_reads ?_ updater.unfinished hgreets)
    have := updater.in_time
    omega
  have hstarted : updater.replies (List.replicate (updater.lost + 1) NEWLINE ++ [START]) =
      (updater.starting ++ [updater.ready]).map utf8.encode := by
    have hanswer := @Updater.replies_started updater []
    rwa [List.append_nil] at hanswer
  have hactive : (awaitActive updater.replies turns 0).run.run { written := updater.prompts } =
      (.ok (), { written := updater.invitation
                 queue := updater.unread updater.replied.length }) := by
    have hwrites := awaitActive_writes (List.nil_append updater.read).symm
      (updater.read_length.trans_le hturns) ((Nat.zero_add _).trans updater.active) updater.last
    simpa [Updater.invitation, Updater.unread] using hwrites
  refine ⟨message, ?_⟩
  unfold _trigger_ymodem
  rw [run_bind_ok (run_write _ _)]
  simp only [List.nil_append]
  rw [run_bind_ok hhandshake, run_bind_ok (run_write _ _), hstarted, List.nil_append,
    run_bind_ok (awaitReady_reads updater.soon updater.unready updater.told)]
  exact run_bind_ok hactive _

theorem small_file_is_counted {size : Nat} (h : size < 2 ^ 53) : ∃ n, num_packets size = .ok n := by
  have hsmall : ∀ e, 53 < e → 2 ^ 53 < 2 ^ e * 1024 := fun e he =>
    Nat.lt_of_lt_of_le (Nat.pow_lt_pow_right (by decide) he)
      (Nat.le_mul_of_pos_right _ (by decide))
  refine num_packets_ok ?_
  rw [nearestFloat_of_lt h, FLOAT_END, dataLen_eq]
  exact h.trans (hsmall 1024 (by decide))

/-- The client transfers the file to a controller in its updater, unless that refuses the packet
that was sent last, however many prompts are lost, however the answers are cut, and whatever else
comes for the spaces. -/
theorem updater_gets_the_file (updater : Updater) {turns : Nat}
    (hturns : updater.replied.length ≤ turns) {name : Text} {file : List UInt8}
    (hheader : (headerData name file.length).length ≤ DATA_LEN) (hfile : file.length < 2 ^ 53) :
    ∃ packets, ((send updater.replies turns name file).run.run {}).2.written =
        updater.invitation ++ packets ∧
      (((send updater.replies turns name file).run.run {}).1 = .ok () ∧
          Delivered file packets (stored updater.receiver packets) ∨
        ∃ ex, ((send updater.replies turns name file).run.run {}).1 =
            .error (.stopped (.raised ex)) ∧
          packets ≠ [] ∧ (updater.receiver packets).accepted = false) := by
  obtain ⟨message, htrigger⟩ := trigger_updater updater hturns
  have hreplies : ∀ sent, sent ≠ [] →
      updater.replies (updater.invitation ++ sent) = answers updater.receiver sent := by
    intro sent hsent
    rw [Updater.invitation, List.append_assoc, updater.replies_started]
    exact updater.answer_packets List.length_replicate hsent
  -- what is left of the answers to the spaces
  let left : Connection := { queue := updater.unread updater.replied.length }
  have hfollows := follows_transfer hreplies name file left
  have hsend : (send updater.replies turns name file).run.run {} =
      (ota (_transfer updater.replies name file)).run.run (left.after updater.invitation) := by
    unfold send
    rw [run_bind_ok htrigger]
    simp [Connection.after, left]
  obtain ⟨n, hn⟩ := small_file_is_counted hfile
  have hended := @transfer_answered updater.receiver name file n hn hheader left
  have hdelivers := small_files_are_delivered hfile name updater.receiver left.queue
  rw [hsend, run_ota, hfollows]
  generalize (_transfer (answers updater.receiver) name file).run.run left = out at *
  cases hended with
  | complete conn packets hpackets hstored hwritten =>
    exact ⟨conn.written, rfl, .inl ⟨rfl, hdelivers conn rfl⟩⟩
  | refused ex conn hsent hrefused =>
    exact ⟨conn.written, rfl, .inr ⟨ex, rfl, hsent, hrefused⟩⟩

/-- The first prompt is lost, the handshake comes in two pieces, and the first space has two
messages for an answer. -/
def photon : Updater where
  lost := 1
  greeting := ["<!FIRMWARE_".toList]
  handshake := "UPDATER,6ef3d6ad,bd38ed6e,2023-11-06,2023-10-25,3.3.1,photon>".toList
  starting := []
  ready := READY
  replied := [[[Control.C.value], [Control.ACK.value, Control.C.value]], [],
    [[Control.ACK.value], [Control.C.value]]]
  receiver := fun _ => ⟨1, true, 1⟩
  in_time := by decide
  unfinished := by decide
  finished := ⟨_, by decide, _, rfl, rfl⟩
  soon := by decide
  unready := by decide
  told := by decide
  in_turn := by decide
  spoken := by decide
  active := by decide
  last := by decide

theorem photon_gets_the_file :
    ((send photon.replies 3 sampleName [1, 2, 3]).run.run {}).1 = .ok () := by
  obtain ⟨packets, -, hsent | ⟨ex, -, -, hrefused⟩⟩ :=
    @updater_gets_the_file photon 3 (by decide) sampleName [1, 2, 3] (by decide) (by decide)
  · exact hsent.1
  · cases hrefused

end devcon_spark.ymodem
