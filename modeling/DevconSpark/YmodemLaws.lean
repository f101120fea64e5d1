-- The laws of a firmware transfer: how replies are read, what the header says,
-- and what a receiver has at the end.
import DevconSpark.Ymodem
import Mathlib.Data.List.Infix

open programs py_text py_number devcon_spark.exceptions

namespace devcon_spark.ymodem

variable {replies : Replies}

/-! ## One packet -/

theorem send_packet_run (packet : Packet) (conn : Connection) :
    (_send_packet replies packet).run.run conn =
      ((readReply (replies (conn.written ++ [packet]))).1,
        { written := conn.written ++ [packet]
          queue := (readReply (replies (conn.written ++ [packet]))).2 }) := by
  unfold _send_packet clear write
  rw [run_bind_ok (run_modify _ _), run_bind_ok (run_modify _ _), run_bind_ok (run_get _)]
  simp only [List.nil_append]
  rw [run_bind_ok (run_modify _ _), run_lift]

/-! ## Replies that arrive in groups -/

def groupBytes (group : List Control) : Message := group.map Control.value

/-- The first reply that is no continue prompt. -/
def decision (replies : List Control) : Option Control := replies.find? (· ≠ .C)

/-- What a sender does once these replies have arrived. -/
def decided (replies : List Control) : Except Stop Control :=
  match decision replies with
  | some resp => .ok resp
  | none => .error .waiting

/-- Only the first byte of each group is looked at. -/
theorem readReply_groups {groups : List (List Control)} (h : ∀ g ∈ groups, g ≠ []) :
    (readReply (groups.map groupBytes)).1 = decided (groups.filterMap List.head?) := by
  induction groups with
  | nil => rfl
  | cons g groups ih =>
    have ih := ih fun g' hg' => h g' (List.mem_cons_of_mem _ hg')
    cases g with
    | nil => exact absurd rfl (h [] List.mem_cons_self)
    | cons c g =>
      rw [List.filterMap_cons_some List.head?_cons]
      unfold decided decision at ih ⊢
      simp only [List.map_cons, groupBytes, readReply, Control.ofByte_value]
      cases c
      case C => exact ih
      all_goals rfl

/-- The replies that arrived are read as they were sent, whatever arrived so far. -/
def ReadsReplies (groups : List (List Control)) : Prop :=
  ∀ n, decision ((groups.take n).filterMap List.head?) = decision (groups.take n).flatten

/-- The first group that decides. -/
def deciding (groups : List (List Control)) : Option (List Control) :=
  groups.find? fun g => g.any (· ≠ .C)

theorem decision_append (xs ys : List Control) :
    decision (xs ++ ys) = (decision xs).or (decision ys) := List.find?_append

theorem decision_eq_none_iff {xs : List Control} :
    decision xs = none ↔ xs.any (· ≠ .C) = false := by
  simp [decision]

theorem reads_cons_iff (c : Control) (g : List Control) (groups : List (List Control)) :
    ReadsReplies ((c :: g) :: groups) ↔
      c ≠ .C ∨ (g.any (· ≠ .C) = false ∧ ReadsReplies groups) := by
  by_cases hc : c = .C
  · subst hc
    have hstep : ∀ n, (decision ((((.C : Control) :: g) :: groups).take (n + 1)
          |>.filterMap List.head?) = decision (groups.take n |>.filterMap List.head?)) ∧
        decision (((((.C : Control) :: g) :: groups).take (n + 1)).flatten) =
          (decision g).or (decision (groups.take n).flatten) := by
      intro n
      exact ⟨rfl, decision_append g _⟩
    rw [or_iff_right (fun h => h rfl)]
    constructor
    · intro h
      have hnone : decision g = none := by
        have hfirst := h 1
        rw [(hstep 0).1, (hstep 0).2] at hfirst
        exact (Option.or_eq_none_iff.mp hfirst.symm).1
      refine ⟨decision_eq_none_iff.mp hnone, fun n => ?_⟩
      have hn := h (n + 1)
      rwa [(hstep n).1, (hstep n).2, hnone, Option.none_or] at hn
    · rintro ⟨hg, h⟩ n
      cases n with
      | zero => rfl
      | succ n => rw [(hstep n).1, (hstep n).2, decision_eq_none_iff.mpr hg, Option.none_or, h n]
  · refine iff_of_true (fun n => ?_) (.inl hc)
    cases n with
    | zero => rfl
    | succ n => simp [decision, hc]

theorem reads_iff {groups : List (List Control)} (h : ∀ g ∈ groups, g ≠ []) :
    ReadsReplies groups ↔ ∀ g ∈ deciding groups, g.head? ≠ some .C := by
  induction groups with
  | nil => simp [ReadsReplies, deciding]
  | cons g groups ih =>
    have ih := ih fun g' hg' => h g' (List.mem_cons_of_mem _ hg')
    cases g with
    | nil => exact absurd rfl (h [] List.mem_cons_self)
    | cons c g =>
      rw [reads_cons_iff, ih]
      by_cases hc : c = .C
      · subst hc
        rw [or_iff_right (fun h => h rfl)]
        by_cases hg : g.any (· ≠ .C) = true
        · have hfirst : deciding ((.C :: g) :: groups) = some (.C :: g) :=
            List.find?_cons_of_pos (by simpa using hg)
          rw [hfirst, hg]
          exact iff_of_false (fun hand => Bool.noConfusion hand.1) fun hhead => hhead _ rfl rfl
        · rw [Bool.not_eq_true] at hg
          have hrest : deciding ((.C :: g) :: groups) = deciding groups :=
            List.find?_cons_of_neg (by simpa using hg)
          rw [hrest, and_iff_right hg]
      · have hfirst : deciding ((c :: g) :: groups) = some (c :: g) :=
          List.find?_cons_of_pos (by simp [hc])
        rw [hfirst]
        simp [hc]

theorem decided_inj {xs ys : List Control} :
    decided xs = decided ys ↔ decision xs = decision ys := by
  unfold decided
  cases decision xs <;> cases decision ys <;> simp

theorem send_packet_groups {groups : List (List Control)} (h : ∀ g ∈ groups, g ≠ [])
    (packet : Packet) (conn : Connection) :
    ((_send_packet (fun _ => groups.map groupBytes) packet).run.run conn).1 =
      decided (groups.filterMap List.head?) := by
  rw [send_packet_run]
  exact readReply_groups h

/-- What the sender does depends on the reply bytes alone exactly where the first group that
decides does so with its first byte. -/
theorem replies_are_read_iff (packet : Packet) {groups : List (List Control)}
    (h : ∀ g ∈ groups, g ≠ []) :
    (∀ (conn : Connection) (n : Nat),
      ((_send_packet (fun _ => (groups.take n).map groupBytes) packet).run.run conn).1 =
        decided (groups.take n).flatten) ↔
      ∀ g ∈ deciding groups, g.head? ≠ some .C := by
  have hsend : ∀ (conn : Connection) (n : Nat),
      ((_send_packet (fun _ => (groups.take n).map groupBytes) packet).run.run conn).1 =
        decided ((groups.take n).filterMap List.head?) := fun conn n =>
    send_packet_groups (fun g hg => h g (List.mem_of_mem_take hg)) packet conn
  rw [← reads_iff h]
  simp only [hsend, decided_inj]
  exact ⟨fun hreads n => hreads {} n, fun hreads _ n => hreads n⟩

theorem replies_are_read_iff_sample :
    (∀ (conn : Connection) (n : Nat),
      ((_send_packet (fun _ => ([[.C, .C], [.ACK, .C]].take n).map groupBytes)
          [Control.EOT.value]).run.run conn).1 =
        decided ([[.C, .C], [.ACK, .C]].take n).flatten) ↔
      ∀ g ∈ deciding [[.C, .C], [.ACK, .C]], g.head? ≠ some .C :=
  replies_are_read_iff [Control.EOT.value] (by decide)

/-- An ACK that arrives in one group with a continue prompt before it is waited for. -/
theorem prompted_ack_is_not_read :
    ¬ ∀ (packet : Packet) (groups : List (List Control)), (∀ g ∈ groups, g ≠ []) →
      ∀ (conn : Connection) (n : Nat),
        ((_send_packet (fun _ => (groups.take n).map groupBytes) packet).run.run conn).1 =
          decided (groups.take n).flatten := by
  intro h
  have hack := h [Control.EOT.value] [[.C, .ACK]] (by decide) {} 1
  cases hack

/-! ## The header -/

/-- The data field of a packet. -/
def dataField (packet : Packet) : List UInt8 := (packet.drop 3).take DATA_LEN

/-- The value of decimal digits. -/
def decimal (digits : List UInt8) : Nat := digitsValue (digits.map fun b => b.toNat - 48)

/-- Quantifiers over bytes look at the bytes that are there, not at all bytes. -/
instance decidableBytes (p : UInt8 → Prop) [DecidablePred p] (bs : List UInt8) :
    Decidable (∀ b ∈ bs, p b) :=
  List.decidableBAll p bs

/-- What a receiver finds in the header: a name that ends with NUL, a decimal size that ends
with a space, and NUL padding. -/
def decodeHeader (data : List UInt8) : Option (List UInt8 × Nat) :=
  let name := data.takeWhile (· ≠ 0)
  let rest := data.drop (name.length + 1)
  let digits := rest.takeWhile (· ≠ 0x20)
  let padding := rest.drop (digits.length + 1)
  if name.length < data.length ∧ digits.length < rest.length ∧ digits ≠ [] ∧
      (∀ b ∈ digits, 0x30 ≤ b ∧ b ≤ 0x39) ∧ ∀ b ∈ padding, b = 0 then
    some (name, decimal digits)
  else none

/-- A header fits in one packet. -/
def Fits (name : Text) (size : Nat) : Prop :=
  (encode name).length + 1 + (natText size).length + 1 ≤ DATA_LEN

/-- A receiver has the name and the size from what was written, or the header did not fit and
nothing was written. -/
structure ReadBack (name : Text) (size : Nat) : Prop where
  read : Fits name size → ∀ (replies : Replies) (queue : List Message),
    ∃ packet ∈ ((_send_header replies name size).run.run { queue }).2.written.head?,
      decodeHeader (dataField packet) = some (encode name, size)
  refused : ¬ Fits name size → ∀ (replies : Replies) (queue : List Message),
    ∃ ex, (_send_header replies name size).run.run { queue } =
      (.error (.raised ex), { written := [], queue })

theorem ofNat_ne_zero {n : Nat} (h : n % 256 ≠ 0) : (0 : UInt8) ≠ UInt8.ofNat n := by
  intro heq
  have hnat := congrArg UInt8.toNat heq
  rw [UInt8.toNat_ofNat'] at hnat
  exact h hnat.symm

/-- No other character than NUL has a zero byte. -/
theorem zero_not_mem_utf8 {c : Char} (h : c.toNat ≠ 0) : (0 : UInt8) ∉ String.utf8EncodeChar c := by
  have hval : c.val.toNat ≠ 0 := h
  unfold String.utf8EncodeChar
  extract_lets v
  have hv : v ≠ 0 := hval
  split_ifs
  all_goals
    simp only [List.mem_cons, List.not_mem_nil, or_false, not_or]
    and_intros
  all_goals exact ofNat_ne_zero (by omega)

theorem zero_not_mem_encode {t : Text} (h : '\x00' ∉ t) : (0 : UInt8) ∉ encode t := by
  intro hmem
  obtain ⟨c, hc, hzero⟩ := List.mem_flatMap.mp hmem
  have hnul : c.toNat = 0 := by
    by_contra hne
    exact zero_not_mem_utf8 hne hzero
  have hchar : c = '\x00' := Char.toNat_inj.mp hnul
  exact h (hchar ▸ hc)

/-- The text of a size: a byte for each digit. -/
def digitBytes (n : Nat) : List UInt8 := (natText n).map fun c => UInt8.ofNat c.toNat

theorem encode_ascii {t : Text} (h : ∀ c ∈ t, c.toNat < 128) :
    encode t = t.map fun c => UInt8.ofNat c.toNat := by
  induction t with
  | nil => rfl
  | cons c t ih =>
    have hc : String.utf8EncodeChar c = [UInt8.ofNat c.toNat] := by
      have hle : c.val.toNat ≤ 127 := Nat.le_of_lt_succ (h c List.mem_cons_self)
      unfold String.utf8EncodeChar
      exact if_pos hle
    unfold encode at ih ⊢
    rw [List.flatMap_cons, hc, ih fun d hd => h d (List.mem_cons_of_mem _ hd), List.map_cons]
    rfl

theorem digit_code {c : Char} (h : c.isDigit = true) : 48 ≤ c.toNat ∧ c.toNat ≤ 57 := by
  simp only [Char.isDigit, Bool.and_eq_true, decide_eq_true_eq] at h
  exact ⟨h.1, h.2⟩

theorem encode_size (n : Nat) : encode (natText n ++ [' ']) = digitBytes n ++ [0x20] := by
  rw [encode_ascii]
  · rw [List.map_append]
    rfl
  · intro c hc
    rcases List.mem_append.mp hc with hc | hc
    · have hcode := digit_code (natText_digits n c hc)
      omega
    · rw [List.mem_singleton.mp hc]
      decide

theorem digit_byte {n : Nat} {b : UInt8} (h : b ∈ digitBytes n) :
    ∃ c ∈ natText n, b = UInt8.ofNat c.toNat ∧ b.toNat = c.toNat ∧ 48 ≤ b.toNat ∧ b.toNat ≤ 57 := by
  obtain ⟨c, hc, rfl⟩ := List.mem_map.mp h
  have hcode := digit_code (natText_digits n c hc)
  have hnat : (UInt8.ofNat c.toNat).toNat = c.toNat := by
    rw [UInt8.toNat_ofNat']
    omega
  exact ⟨c, hc, rfl, hnat, by omega, by omega⟩

theorem digitBytes_range (n : Nat) : ∀ b ∈ digitBytes n, 0x30 ≤ b ∧ b ≤ 0x39 := by
  intro b hb
  obtain ⟨-, -, -, -, hlow, hhigh⟩ := digit_byte hb
  exact ⟨UInt8.le_iff_toNat_le.mpr hlow, UInt8.le_iff_toNat_le.mpr hhigh⟩

theorem decimal_digitBytes (n : Nat) : decimal (digitBytes n) = n := by
  have hvalues : (digitBytes n).map (fun b => b.toNat - 48) =
      (natText n).map fun c => c.toNat - 48 := by
    rw [digitBytes, List.map_map]
    apply List.map_congr_left
    intro c hc
    have hcode := digit_code (natText_digits n c hc)
    have hnat : (UInt8.ofNat c.toNat).toNat = c.toNat := by
      rw [UInt8.toNat_ofNat']
      omega
    exact congrArg (· - 48) hnat
  rw [decimal, hvalues, digitsValue_natText]

theorem takeWhile_stop {α : Type} {p : α → Bool} {xs ys : List α} {y : α}
    (hxs : ∀ x ∈ xs, p x = true) (hy : p y = false) : (xs ++ y :: ys).takeWhile p = xs := by
  rw [List.takeWhile_append_of_pos hxs, List.takeWhile_cons_of_neg (by simp [hy]), List.append_nil]

/-- What is laid out as documented is read back. -/
theorem decodeHeader_layout {name : List UInt8} (hname : (0 : UInt8) ∉ name) (size zeros : Nat) :
    decodeHeader (name ++ 0 :: (digitBytes size ++ 0x20 :: List.replicate zeros 0)) =
      some (name, size) := by
  have hbefore : (name ++ 0 :: (digitBytes size ++ 0x20 :: List.replicate zeros 0)).takeWhile
      (· ≠ 0) = name :=
    takeWhile_stop (fun b hb => decide_eq_true fun he => hname (he ▸ hb)) rfl
  have hdigits : (digitBytes size ++ 0x20 :: List.replicate zeros 0).takeWhile (· ≠ 0x20) =
      digitBytes size := by
    refine takeWhile_stop (fun b hb => decide_eq_true fun he => ?_) rfl
    obtain ⟨-, -, -, -, hlow, -⟩ := digit_byte hb
    rw [he] at hlow
    exact absurd hlow (by decide)
  have hdrop : ∀ (xs ys : List UInt8) (y : UInt8), (xs ++ y :: ys).drop (xs.length + 1) = ys := by
    intro xs ys y
    rw [List.append_cons]
    exact List.drop_left' (by simp)
  have hne : digitBytes size ≠ [] := by
    rw [digitBytes, ne_eq, List.map_eq_nil_iff]
    exact natText_ne_nil size
  unfold decodeHeader
  simp only [hbefore, hdrop, hdigits]
  rw [if_pos, decimal_digitBytes]
  refine ⟨by simp, by simp, hne, digitBytes_range size, fun b hb => List.eq_of_mem_replicate hb⟩

theorem makePacket_length (seq : Nat) (data : List UInt8) :
    (makePacket seq data).length = max data.length DATA_LEN + 5 := by
  simp only [makePacket, List.length_append, List.length_cons, List.length_nil,
    List.length_replicate]
  omega

/-- Data that does not fit is not sent. -/
theorem send_data_long {seq : Nat} {data : List UInt8} (h : DATA_LEN < data.length)
    (conn : Connection) :
    ∃ ex, (_send_data replies seq data).run.run conn = (.error (.raised ex), conn) := by
  have hlength : (makePacket seq data).length ≠ PACKET_LEN := by
    rw [makePacket_length, PACKET_LEN]
    omega
  unfold _send_data
  exact ⟨_, by rw [if_pos hlength]; rfl⟩

/-- Data that fits is sent, and once more after a NAK. -/
theorem send_data_fits {seq : Nat} {data : List UInt8} (h : data.length ≤ DATA_LEN) :
    _send_data replies seq data = (_send_packet replies (makePacket seq data) >>= fun response =>
      if response = .NAK then _send_packet replies (makePacket seq data)
      else pure response) := by
  have hlength : ¬ (makePacket seq data).length ≠ PACKET_LEN := by
    rw [makePacket_length, PACKET_LEN]
    omega
  unfold _send_data
  exact if_neg hlength

theorem dataField_makePacket {seq : Nat} {data : List UInt8} (h : data.length ≤ DATA_LEN) :
    dataField (makePacket seq data) = data ++ List.replicate (DATA_LEN - data.length) 0 := by
  have hlength :
      (data ++ List.replicate (DATA_LEN - data.length) (0 : UInt8)).length = DATA_LEN := by
    rw [List.length_append, List.length_replicate]
    omega
  have hdrop : (makePacket seq data).drop 3 =
      (data ++ List.replicate (DATA_LEN - data.length) 0) ++ [0, 0] := rfl
  rw [dataField, hdrop]
  exact List.take_left' hlength

theorem headerData_length (name : Text) (size : Nat) :
    (headerData name size).length = (encode name).length + (natText size).length + 3 := by
  rw [headerData, encode_size]
  simp only [List.length_append, List.length_cons, List.length_nil, digitBytes, List.length_map]
  omega

/-- The packet mark stands in the data as well, before the name. -/
theorem decodeHeader_sent {name : Text} (hname : '\x00' ∉ name) {size : Nat}
    (h : (headerData name size).length ≤ DATA_LEN) :
    decodeHeader (dataField (makePacket 0 (headerData name size))) =
      some (PACKET_MARK.value :: encode name, size) := by
  have hzero : (0 : UInt8) ∉ PACKET_MARK.value :: encode name := by
    rw [List.mem_cons, not_or]
    exact ⟨by decide, zero_not_mem_encode hname⟩
  have hlayout : headerData name size =
      (PACKET_MARK.value :: encode name) ++ 0 :: (digitBytes size ++ [0x20]) := by
    simp [headerData, encode_size]
  rw [dataField_makePacket h,
    ← decodeHeader_layout hzero size (DATA_LEN - (headerData name size).length), hlayout]
  simp

theorem fits_iff (name : Text) (size : Nat) :
    Fits name size ↔ (headerData name size).length ≤ DATA_LEN + 1 := by
  rw [Fits, headerData_length]
  omega

theorem header_not_read {name : Text} (hname : '\x00' ∉ name) {size : Nat}
    (hfits : Fits name size) : ¬ ReadBack name size := by
  intro h
  obtain ⟨packet, hpacket, hdecode⟩ := h.read hfits (fun _ => []) []
  by_cases hlength : (headerData name size).length ≤ DATA_LEN
  · have hrun : (_send_header (fun _ => []) name size).run.run {} = (.error .waiting,
        { written := [makePacket 0 (headerData name size)] }) := by
      rw [_send_header, send_data_fits hlength]
      exact run_bind_error (send_packet_run _ _) _
    rw [hrun] at hpacket
    cases hpacket
    rw [decodeHeader_sent hname hlength, Option.some_inj, Prod.mk.injEq] at hdecode
    exact absurd (congrArg List.length hdecode.1) (by simp)
  · obtain ⟨ex, hrun⟩ := @send_data_long (fun _ => []) 0 _
      (Nat.lt_of_not_le hlength) {}
    rw [_send_header, hrun] at hpacket
    cases hpacket

/-- The header is read back exactly where there is nothing to read, as it does not fit. -/
theorem header_is_read_back_iff {name : Text} (hname : '\x00' ∉ name) (size : Nat) :
    ReadBack name size ↔ ¬ Fits name size := by
  constructor
  · exact fun h hfits => header_not_read hname hfits h
  · intro hnot
    refine ⟨fun hfits => absurd hfits hnot, fun _ replies queue => ?_⟩
    apply send_data_long
    rw [fits_iff] at hnot
    omega

def sampleName : Text := "brewblox.bin".toList

def sampleSize : Nat := 252464

theorem sampleName_nul : '\x00' ∉ sampleName := by decide

theorem sample_fits : Fits sampleName sampleSize := by
  have hname : (encode sampleName).length = 12 := by rfl
  have hsize : (natText sampleSize).length = 6 := by rfl
  rw [Fits, hname, hsize]
  decide

theorem header_is_read_back_iff_sample :
    ReadBack sampleName sampleSize ↔ ¬ Fits sampleName sampleSize :=
  header_is_read_back_iff sampleName_nul sampleSize

/-- A receiver reads the packet mark as the first character of the name. -/
theorem header_is_not_read_back :
    ¬ ∀ (name : Text) (size : Nat), '\x00' ∉ name → ReadBack name size := by
  intro h
  exact header_not_read sampleName_nul sample_fits (h sampleName sampleSize sampleName_nul)

/-! ## A receiver that answers each packet -/

/-- An answer: continue prompts, the verdict, and continue prompts after it. -/
structure Answer where
  before : Nat
  accepted : Bool
  after : Nat

/-- A receiver answers by all that was written. -/
abbrev Receiver := List Packet → Answer

def verdict (accepted : Bool) : Control := if accepted then .ACK else .NAK

/-- Each byte is a message of its own. -/
def Answer.messages (answer : Answer) : List Message :=
  List.replicate answer.before [Control.C.value] ++
    [(verdict answer.accepted).value] :: List.replicate answer.after [Control.C.value]

def answers (receiver : Receiver) : Replies := fun written => (receiver written).messages

/-- The packets that the receiver accepted. -/
def stored (receiver : Receiver) (written : List Packet) : List Packet :=
  written.inits.filterMap fun sent => if (receiver sent).accepted then sent.getLast? else none

theorem stored_nil (receiver : Receiver) : stored receiver [] = [] := by
  simp [stored]

theorem stored_snoc (receiver : Receiver) (written : List Packet) (packet : Packet) :
    stored receiver (written ++ [packet]) = stored receiver written ++
      if (receiver (written ++ [packet])).accepted then [packet] else [] := by
  unfold stored
  rw [List.inits_append, List.filterMap_append]
  congr 1
  cases h : (receiver (written ++ [packet])).accepted <;> simp [h]

theorem readReply_messages (answer : Answer) : readReply answer.messages =
    (.ok (verdict answer.accepted), List.replicate answer.after [Control.C.value]) := by
  obtain ⟨before, accepted, after⟩ := answer
  unfold Answer.messages
  induction before with
  | zero => cases accepted <;> simp [readReply, verdict]
  | succ before ih =>
    rw [List.replicate_succ, List.cons_append, readReply, Control.ofByte_value]
    exact ih

theorem send_packet_answered (receiver : Receiver) (packet : Packet) (conn : Connection) :
    ∃ queue, (_send_packet (answers receiver) packet).run.run conn =
      (.ok (verdict (receiver (conn.written ++ [packet])).accepted),
        { written := conn.written ++ [packet], queue }) := by
  rw [send_packet_run, answers, readReply_messages]
  exact ⟨_, rfl⟩

/-- What one packet does: it is stored once and acknowledged, or not at all. -/
structure Sent (receiver : Receiver) (packet : Packet) (conn : Connection) (response : Control)
    (conn' : Connection) : Prop where
  stored : response = .ACK ∧
    stored receiver conn'.written = stored receiver conn.written ++ [packet]
    ∨ response = .NAK ∧ stored receiver conn'.written = stored receiver conn.written
  written : ∀ p ∈ conn'.written, p ∈ conn.written ∨ p = packet
  last : conn'.written.getLast? = some packet
  verdict : response = verdict (receiver conn'.written).accepted

theorem send_data_answered (receiver : Receiver) (seq : Nat) {data : List UInt8}
    (h : data.length ≤ DATA_LEN) (conn : Connection) :
    ∃ response conn',
      (_send_data (answers receiver) seq data).run.run conn = (.ok response, conn') ∧
      Sent receiver (makePacket seq data) conn response conn' := by
  obtain ⟨queue, hfirst⟩ := send_packet_answered receiver (makePacket seq data) conn
  rw [send_data_fits h, run_bind_ok hfirst]
  cases haccepted : (receiver (conn.written ++ [makePacket seq data])).accepted with
  | true =>
    refine ⟨.ACK, _, rfl, .inl ⟨rfl, ?_⟩, ?_, ?_, ?_⟩
    · simp [stored_snoc, haccepted]
    · simp
    · simp
    · rw [haccepted]
      rfl
  | false =>
    obtain ⟨queue', hsecond⟩ := send_packet_answered receiver (makePacket seq data)
      { written := conn.written ++ [makePacket seq data], queue }
    refine ⟨_, _, hsecond, ?_, ?_, List.getLast?_concat, rfl⟩
    · cases hagain : (receiver (conn.written ++ [makePacket seq data] ++
        [makePacket seq data])).accepted with
      | true =>
        refine .inl ⟨rfl, ?_⟩
        rw [stored_snoc, hagain, stored_snoc, haccepted]
        simp
      | false =>
        refine .inr ⟨rfl, ?_⟩
        rw [stored_snoc, hagain, stored_snoc, haccepted]
        simp
    · simp only [List.mem_append, List.mem_singleton, or_assoc, or_self]
      exact fun p hp => hp

/-! ## The whole transfer -/

/-- The packets of a file, each with the next part of it. -/
def filePackets : Nat → Nat → List UInt8 → List Packet
  | 0, _, _ => []
  | n + 1, current, file =>
    makePacket current (file.take DATA_LEN) :: filePackets n (current + 1) (file.drop DATA_LEN)

def endOfTransfer : Packet := [Control.EOT.value]

/-- A program got to its end, and some packets were stored on the way; or the packet that it sent
last was refused, and it raised. -/
inductive Ended (receiver : Receiver) (conn : Connection) (P : List Packet → Prop) :
    Except Stop Unit × Connection → Prop
  | complete (conn' : Connection) (packets : List Packet) (sent : P packets)
      (stored : stored receiver conn'.written = stored receiver conn.written ++ packets)
      (written : ∀ p ∈ conn'.written,
        p ∈ conn.written ∨ p = endOfTransfer ∨ p.length = PACKET_LEN) :
      Ended receiver conn P (.ok (), conn')
  | refused (ex : Exn) (conn' : Connection) (sent : conn'.written ≠ [])
      (refused : (receiver conn'.written).accepted = false) :
      Ended receiver conn P (.error (.raised ex), conn')

variable {receiver : Receiver} {conn conn' : Connection} {P Q : List Packet → Prop}

theorem Ended.of_complete (h : ∀ packets, P packets → Q packets)
    {out : Except Stop Unit × Connection} (hended : Ended receiver conn P out) :
    Ended receiver conn Q out := by
  cases hended with
  | complete conn' packets hP hstored hwritten =>
    exact .complete conn' packets (h packets hP) hstored hwritten
  | refused ex conn' hsent hrefused => exact .refused ex conn' hsent hrefused

/-- Programs one after the other. -/
theorem Ended.bind {x : Ota Unit} {f : Unit → Ota Unit}
    (hx : Ended receiver conn P (x.run.run conn))
    (hf : ∀ conn, Ended receiver conn Q ((f ()).run.run conn)) :
    Ended receiver conn (fun packets => ∃ ps qs, P ps ∧ Q qs ∧ packets = ps ++ qs)
      ((x >>= f).run.run conn) := by
  generalize hout : x.run.run conn = out at hx
  cases hx with
  | refused ex conn₁ hsent hrefused =>
    rw [run_bind_error hout]
    exact .refused ex conn₁ hsent hrefused
  | complete conn₁ ps hP hstored hwritten =>
    rw [run_bind_ok hout]
    have hrest := hf conn₁
    generalize (f ()).run.run conn₁ = out at hrest ⊢
    cases hrest with
    | refused ex conn₂ hsent hrefused => exact .refused ex conn₂ hsent hrefused
    | complete conn₂ qs hQ hstored₂ hwritten₂ =>
      refine .complete conn₂ (ps ++ qs) ⟨ps, qs, hP, hQ, rfl⟩ ?_ fun p hp => ?_
      · rw [hstored₂, hstored, List.append_assoc]
      · rcases hwritten₂ p hp with hp | hp
        · exact hwritten p hp
        · exact .inr hp

theorem makePacket_fits {seq : Nat} {data : List UInt8} (h : data.length ≤ DATA_LEN) :
    (makePacket seq data).length = PACKET_LEN := by
  rw [makePacket_length, PACKET_LEN]
  omega

/-- A packet that has to be acknowledged before anything else is sent. -/
theorem ended_acknowledged {seq : Nat} {data : List UInt8} (h : data.length ≤ DATA_LEN)
    {ex : Control → Exn} {rest : Ota Unit}
    (hrest : ∀ conn, Ended receiver conn P (rest.run.run conn)) (conn : Connection) :
    Ended receiver conn (fun packets => ∃ ps, P ps ∧ packets = makePacket seq data :: ps)
      ((_send_data (answers receiver) seq data >>= fun response =>
        if response ≠ .ACK then throw (.raised (ex response)) else rest).run.run conn) := by
  obtain ⟨response, conn₁, hrun, hsent⟩ := send_data_answered receiver seq h conn
  rw [run_bind_ok hrun]
  by_cases hack : response = .ACK
  · rw [if_neg (not_not_intro hack)]
    have hstored₁ : stored receiver conn₁.written =
        stored receiver conn.written ++ [makePacket seq data] := by
      rcases hsent.stored with ⟨-, hstored⟩ | ⟨hnak, -⟩
      · exact hstored
      · cases hack.symm.trans hnak
    have hrest := hrest conn₁
    generalize rest.run.run conn₁ = out at hrest ⊢
    cases hrest with
    | refused ex conn₂ hsent hrefused => exact .refused ex conn₂ hsent hrefused
    | complete conn₂ ps hP hstored hwritten =>
      refine .complete conn₂ _ ⟨ps, hP, rfl⟩ ?_ fun p hp => ?_
      · rw [hstored, hstored₁, List.append_assoc]
        rfl
      · rcases hwritten p hp with hp | hp
        · rcases hsent.written p hp with hp | rfl
          · exact .inl hp
          · exact .inr (.inr (makePacket_fits h))
        · exact .inr hp
  · rw [if_pos hack]
    refine .refused _ _ ?_ ?_
    · exact List.ne_nil_of_mem (List.mem_of_getLast? hsent.last)
    · by_contra haccepted
      rw [Bool.not_eq_false] at haccepted
      exact hack (by rw [hsent.verdict, haccepted]; rfl)

/-- The body is stored packet by packet, each of them once. -/
theorem sendBody_answered (n current : Nat) (file : List UInt8) (conn : Connection) :
    Ended receiver conn (· = filePackets n current file)
      ((sendBody (answers receiver) n current file).run.run conn) := by
  induction n generalizing current file conn with
  | zero => exact .complete conn [] rfl (by simp) fun p hp => .inl hp
  | succ n ih =>
    unfold sendBody
    refine Ended.of_complete ?_ (ended_acknowledged (List.length_take_le _ _) (ih _ _) conn)
    rintro packets ⟨ps, rfl, rfl⟩
    rfl

/-- The end of a transfer, and what closes it where it is accepted. -/
theorem sendEnd_answered (conn : Connection) :
    Ended receiver conn (fun packets => ∃ closing, packets = endOfTransfer :: closing)
      ((sendEnd (answers receiver)).run.run conn) := by
  obtain ⟨queue, hend⟩ := send_packet_answered receiver endOfTransfer conn
  unfold sendEnd
  rw [← endOfTransfer, run_bind_ok hend]
  cases haccepted : (receiver (conn.written ++ [endOfTransfer])).accepted with
  | false => exact .refused _ _ (List.concat_ne_nil _ _) haccepted
  | true =>
    obtain ⟨response, conn₁, hclose, hsent⟩ := @send_data_answered receiver 0 []
      (Nat.zero_le _) { written := conn.written ++ [endOfTransfer], queue }
    have hstored : stored receiver (conn.written ++ [endOfTransfer]) =
        stored receiver conn.written ++ [endOfTransfer] := by
      rw [stored_snoc, haccepted]
      rfl
    have hwritten : ∀ p ∈ conn₁.written,
        p ∈ conn.written ∨ p = endOfTransfer ∨ p.length = PACKET_LEN := by
      intro p hp
      rcases hsent.written p hp with hp | rfl
      · simpa [or_assoc] using Or.inl hp
      · exact .inr (.inr (makePacket_fits (Nat.zero_le _)))
    rw [if_neg (by simp [verdict]), run_bind_ok hclose]
    rcases hsent.stored with ⟨-, hclosed⟩ | ⟨-, hclosed⟩
    · exact .complete conn₁ _ ⟨[makePacket 0 []], rfl⟩ (by simp [hclosed, hstored]) hwritten
    · exact .complete conn₁ _ ⟨[], rfl⟩ (by rw [hclosed, hstored]) hwritten

theorem transfer_counted {size n : Nat} (hn : num_packets size = .ok n) (conn : Connection) :
    (liftExcept ((num_packets size).mapError Stop.raised) : Ota Nat).run.run conn =
      (.ok n, conn) := by
  rw [hn]
  exact run_lift _ _

/-- All that is stored in a transfer that gets to its end. -/
theorem transfer_answered {name : Text} {file : List UInt8} {n : Nat}
    (hn : num_packets file.length = .ok n)
    (hname : (headerData name file.length).length ≤ DATA_LEN) (conn : Connection) :
    Ended receiver conn (fun packets => ∃ closing, packets =
        makePacket 0 (headerData name file.length) ::
          (filePackets n 1 file ++ endOfTransfer :: closing))
      ((_transfer (answers receiver) name file).run.run conn) := by
  unfold _transfer
  rw [run_bind_ok (transfer_counted hn conn)]
  refine Ended.of_complete ?_ (ended_acknowledged hname (fun conn =>
    (sendBody_answered n 1 file conn).bind sendEnd_answered) conn)
  rintro packets ⟨ps, ⟨body, ending, rfl, ⟨closing, rfl⟩, rfl⟩, rfl⟩
  exact ⟨closing, rfl⟩

theorem mem_filePackets {n current : Nat} {file : List UInt8} {p : Packet}
    (h : p ∈ filePackets n current file) : p.length = PACKET_LEN := by
  induction n generalizing current file with
  | zero => simp [filePackets] at h
  | succ n ih =>
    rcases List.mem_cons.mp h with rfl | h
    · exact makePacket_fits (List.length_take_le _ _)
    · exact ih h

/-- The packets that were accepted after the header and before EOT. -/
def dataPackets (stored : List Packet) : List Packet :=
  (stored.drop 1).takeWhile (· ≠ endOfTransfer)

theorem dataPackets_stored (header : Packet) (n current : Nat) (file : List UInt8)
    (closing : List Packet) :
    dataPackets (header :: (filePackets n current file ++ endOfTransfer :: closing)) =
      filePackets n current file := by
  refine takeWhile_stop (fun p hp => decide_eq_true ?_) (by simp)
  rintro rfl
  cases mem_filePackets hp

/-- The part of a file that a packet carries. -/
def filePart (file : List UInt8) (i : Nat) : List UInt8 := (file.drop (i * DATA_LEN)).take DATA_LEN

theorem filePart_succ (file : List UInt8) (i : Nat) :
    filePart file (i + 1) = filePart (file.drop DATA_LEN) i := by
  rw [filePart, filePart, List.drop_drop, Nat.succ_mul, Nat.add_comm]

theorem filePackets_getElem? {n current i : Nat} {file : List UInt8} {p : Packet}
    (h : (filePackets n current file)[i]? = some p) :
    p = makePacket (current + i) (filePart file i) := by
  induction n generalizing current file i with
  | zero => cases h
  | succ n ih =>
    cases i with
    | zero =>
      cases h
      simp [filePart]
    | succ i =>
      rw [ih h, filePart_succ, Nat.add_right_comm, Nat.add_assoc]

/-- The data fields hold the file, as far as there are packets, and padding. -/
theorem filePackets_data (n current : Nat) (file : List UInt8) :
    ∃ zeros, (filePackets n current file).flatMap dataField =
      file.take (n * DATA_LEN) ++ List.replicate zeros 0 := by
  induction n generalizing current file with
  | zero => exact ⟨0, by simp [filePackets]⟩
  | succ n ih =>
    obtain ⟨zeros, hzeros⟩ := ih (current + 1) (file.drop DATA_LEN)
    have htake : (file.take DATA_LEN).length ≤ DATA_LEN := List.length_take_le _ _
    rw [filePackets, List.flatMap_cons, dataField_makePacket htake, hzeros]
    have hsplit : file.take ((n + 1) * DATA_LEN) =
        file.take DATA_LEN ++ (file.drop DATA_LEN).take (n * DATA_LEN) := by
      rw [Nat.succ_mul, Nat.add_comm, List.take_add]
    by_cases hlength : DATA_LEN ≤ file.length
    · -- A full packet has no padding.
      refine ⟨zeros, ?_⟩
      rw [hsplit, List.length_take, Nat.min_eq_left hlength, Nat.sub_self, List.replicate_zero,
        List.append_nil, List.append_assoc]
    · -- After the last packet nothing is left of the file.
      have hempty : file.drop DATA_LEN = [] := List.drop_eq_nil_of_le (by omega)
      refine ⟨DATA_LEN - (file.take DATA_LEN).length + zeros, ?_⟩
      rw [hsplit, hempty, List.take_nil, List.append_nil, List.nil_append, List.append_assoc,
        List.replicate_append_replicate]

theorem filePackets_data_length (n current : Nat) (file : List UInt8) :
    ((filePackets n current file).flatMap dataField).length = n * DATA_LEN := by
  induction n generalizing current file with
  | zero => simp [filePackets]
  | succ n ih =>
    have htake : (file.take DATA_LEN).length ≤ DATA_LEN := List.length_take_le _ _
    rw [filePackets, List.flatMap_cons, List.length_append, ih, dataField_makePacket htake,
      List.length_append, List.length_replicate, Nat.succ_mul]
    omega

theorem filePackets_content_iff (n current : Nat) (file : List UInt8) :
    ((filePackets n current file).flatMap dataField).take file.length = file ↔
      file.length ≤ n * DATA_LEN := by
  constructor
  · intro h
    have hlength := congrArg List.length h
    rw [List.length_take, filePackets_data_length] at hlength
    omega
  · intro h
    obtain ⟨zeros, hzeros⟩ := filePackets_data n current file
    rw [hzeros, List.take_of_length_le h, List.take_left]

/-- The number of a packet, and its complement. -/
theorem makePacket_sequence (seq : Nat) (data : List UInt8) :
    ∃ b : UInt8, b.toNat = seq % 256 ∧ (makePacket seq data)[1]? = some b ∧
      (makePacket seq data)[2]? = some (255 - b) := by
  have hmask : seq &&& 0xFF = seq % 256 := Nat.and_two_pow_sub_one_eq_mod seq 8
  have hle : seq &&& 0xFF ≤ 0xFF := by omega
  refine ⟨UInt8.ofNat (seq &&& 0xFF), ?_, rfl, ?_⟩
  · rw [UInt8.toNat_ofNat', hmask, Nat.mod_mod]
  · exact congrArg some (UInt8.ofNat_sub hle)

/-- What was stored is the file: each part of it once, in a packet with its number. -/
structure Delivered (file : List UInt8) (written stored : List Packet) : Prop where
  content : ((dataPackets stored).flatMap dataField).take file.length = file
  sequence : ∀ i p, (dataPackets stored)[i]? = some p →
    ∃ b : UInt8, b.toNat = (i + 1) % 256 ∧ p[1]? = some b ∧ p[2]? = some (255 - b)
  length : ∀ p ∈ written, p ≠ endOfTransfer → p.length = PACKET_LEN
  once : ∀ i p, (dataPackets stored)[i]? = some p → p = makePacket (i + 1) (filePart file i)

/-- A transfer that ends well delivers the file, for each receiver. -/
def Delivers (name : Text) (file : List UInt8) : Prop :=
  ∀ (receiver : Receiver) (queue : List Message) (conn : Connection),
    (_transfer (answers receiver) name file).run.run { queue } = (.ok (), conn) →
      Delivered file conn.written (stored receiver conn.written)

/-! ## How many packets there are -/

theorem dataLen_eq : DATA_LEN = 1024 := rfl

/-- The packets reach the end of the file, unless the float of its size falls short of it by
a whole packet. -/
theorem num_packets_short_iff {size n : Nat} (h : num_packets size = .ok n) :
    n * DATA_LEN < size ↔ ∃ m, DATA_LEN ∣ m ∧ nearestFloat size ≤ m ∧ m < size := by
  unfold num_packets at h
  split at h
  next => cases h
  next =>
    cases h
    rw [dataLen_eq]
    constructor
    · intro hshort
      exact ⟨_, Nat.dvd_mul_left _ _, by omega, hshort⟩
    · rintro ⟨m, ⟨k, rfl⟩, hfloat, hshort⟩
      omega

/-- Sizes of at most 53 binary digits are floats. -/
theorem nearestFloat_of_lt {n : Nat} (h : n < 2 ^ 53) : nearestFloat n = n := by
  have hlog : n.log2 + 1 - 53 = 0 := by
    by_cases hn : n = 0
    · rw [hn]
      rfl
    · have hlt : n.log2 < 53 := (Nat.log2_lt hn).mpr h
      omega
  unfold nearestFloat
  simp only [hlog, Nat.pow_zero, Nat.div_one, Nat.mod_one, Nat.mul_one]
  simp

/-- Where a transfer that ends well may have left out a part of the file. -/
def FallsShort (name : Text) (size : Nat) : Prop :=
  (encode name).length + (natText size).length + 3 ≤ DATA_LEN ∧
    nearestFloat size < FLOAT_END * DATA_LEN ∧
    ∃ m, DATA_LEN ∣ m ∧ nearestFloat size ≤ m ∧ m < size

theorem num_packets_ok {size : Nat} (h : nearestFloat size < FLOAT_END * DATA_LEN) :
    ∃ n, num_packets size = .ok n := ⟨_, if_neg (Nat.not_le_of_lt h)⟩

theorem short_transfer {name : Text} {file : List UInt8} (h : FallsShort name file.length) :
    ¬ Delivers name file := by
  intro hdelivers
  obtain ⟨hheader, hfloat, hshort⟩ := h
  obtain ⟨n, hn⟩ := num_packets_ok hfloat
  rw [← headerData_length] at hheader
  -- This receiver accepts everything.
  have hended := @transfer_answered (fun _ => ⟨0, true, 0⟩) _ _ _ hn hheader {}
  generalize hout : (_transfer (answers fun _ => ⟨0, true, 0⟩) name file).run.run {} = out at hended
  cases hended with
  | refused ex conn hsent hrefused => cases hrefused
  | complete conn packets hpackets hstored hwritten =>
    obtain ⟨closing, rfl⟩ := hpackets
    have hcontent := (hdelivers _ [] conn hout).content
    rw [hstored, stored_nil, List.nil_append, dataPackets_stored,
      filePackets_content_iff] at hcontent
    have hless := (num_packets_short_iff hn).mpr hshort
    omega

/-- What is stored where there are packets for the whole file. -/
theorem delivered_of_stored {file : List UInt8} {n : Nat} (hn : file.length ≤ n * DATA_LEN)
    {written packets closing : List Packet} {header : Packet}
    (hpackets : packets = header :: (filePackets n 1 file ++ endOfTransfer :: closing))
    (hwritten : ∀ p ∈ written, p = endOfTransfer ∨ p.length = PACKET_LEN) :
    Delivered file written packets := by
  have hdata : dataPackets packets = filePackets n 1 file := by
    rw [hpackets, dataPackets_stored]
  exact {
    content := by
      rw [hdata]
      exact (filePackets_content_iff n 1 file).mpr hn
    sequence := fun i p hp => by
      rw [hdata] at hp
      rw [filePackets_getElem? hp, Nat.add_comm 1 i]
      exact makePacket_sequence _ _
    length := fun p hp hne => (hwritten p hp).resolve_left hne
    once := fun i p hp => by
      rw [hdata] at hp
      rw [filePackets_getElem? hp, Nat.add_comm 1 i] }

theorem transfer_uncounted {name : Text} {file : List UInt8} {ex : Exn}
    (h : num_packets file.length = .error ex) (conn : Connection) :
    (_transfer replies name file).run.run conn = (.error (.raised ex), conn) := by
  have hlift : (liftExcept ((num_packets file.length).mapError Stop.raised) : Ota Nat).run.run
      conn = (.error (.raised ex), conn) := by
    rw [h]
    exact run_lift _ _
  exact run_bind_error hlift _

/-- A header that does not fit stops the transfer. -/
theorem transfer_long_header {name : Text} {file : List UInt8} {n : Nat}
    (hn : num_packets file.length = .ok n)
    (h : DATA_LEN < (headerData name file.length).length) (conn : Connection) :
    ∃ stop, (_transfer replies name file).run.run conn = (.error stop, conn) := by
  obtain ⟨ex, hheader⟩ := @send_data_long replies 0 _ h conn
  unfold _transfer
  rw [run_bind_ok (transfer_counted hn conn), _send_header, run_bind_error hheader]
  exact ⟨_, rfl⟩

theorem whole_transfer {name : Text} {file : List UInt8} (hnot : ¬ FallsShort name file.length) :
    Delivers name file := by
  intro receiver queue conn hrun
  cases hn : num_packets file.length with
  | error ex => cases (transfer_uncounted hn _).symm.trans hrun
  | ok n =>
    by_cases hheader : (headerData name file.length).length ≤ DATA_LEN
    · have hfloat : nearestFloat file.length < FLOAT_END * DATA_LEN := by
        by_contra hlarge
        rw [num_packets, if_pos (Nat.le_of_not_lt hlarge)] at hn
        cases hn
      have hlength : file.length ≤ n * DATA_LEN := by
        by_contra hless
        rw [headerData_length] at hheader
        exact hnot ⟨hheader, hfloat, (num_packets_short_iff hn).mp (Nat.lt_of_not_le hless)⟩
      have hended := @transfer_answered receiver _ _ _ hn hheader { queue }
      rw [hrun] at hended
      cases hended with
      | complete _ packets hpackets hstored hwritten =>
        obtain ⟨closing, hpackets⟩ := hpackets
        rw [stored_nil, List.nil_append] at hstored
        exact delivered_of_stored hlength (hstored.trans hpackets) fun p hp =>
          (hwritten p hp).resolve_left List.not_mem_nil
    · obtain ⟨stop, hstop⟩ := transfer_long_header hn (Nat.lt_of_not_le hheader) { queue }
      cases hstop.symm.trans hrun

/-- A transfer that ends well delivers the file, unless the number of packets is too low. -/
theorem transfer_delivers_iff (name : Text) (file : List UInt8) :
    Delivers name file ↔ ¬ FallsShort name file.length :=
  ⟨fun h hshort => short_transfer hshort h, whole_transfer⟩

/-- The last byte of a file of 2^53 + 1 bytes is left out. -/
theorem long_transfer_falls_short :
    ¬ ∀ (name : Text) (file : List UInt8), Delivers name file := by
  intro h
  refine short_transfer ?_ (h sampleName (List.replicate (2 ^ 53 + 1) 0))
  have hname : (encode sampleName).length = 12 := by rfl
  have hdigits : (natText (2 ^ 53 + 1)).length ≤ 20 :=
    (Nat.length_toDigits_le_iff (by decide) (by decide)).mpr (by decide)
  have hfloat : nearestFloat (2 ^ 53 + 1) = 2 ^ 53 := by decide
  have hsmall : ∀ e, 53 < e → 2 ^ 53 < 2 ^ e * 1024 := fun e he =>
    Nat.lt_of_lt_of_le (Nat.pow_lt_pow_right (by decide) he)
      (Nat.le_mul_of_pos_right _ (by decide))
  rw [List.length_replicate, FallsShort, hname, hfloat, dataLen_eq, FLOAT_END]
  exact ⟨by omega, hsmall 1024 (by decide), 2 ^ 53, by decide, Nat.le_refl _, Nat.lt_succ_self _⟩

/-- No part of a smaller file is left out. -/
theorem small_files_are_delivered {file : List UInt8} (h : file.length < 2 ^ 53) (name : Text) :
    Delivers name file := by
  refine whole_transfer fun hshort => ?_
  obtain ⟨-, -, m, -, hfloat, hless⟩ := hshort
  rw [nearestFloat_of_lt h] at hfloat
  omega

end devcon_spark.ymodem
