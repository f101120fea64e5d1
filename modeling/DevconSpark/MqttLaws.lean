-- The laws of chunked responses: what is handed over was sent as one message,
-- and what was sent as one message is handed over.
import DevconSpark.MqttConnection

open py_text py_number py_value binary devcon_spark.exceptions

namespace devcon_spark.connection.mqtt_connection

open MqttConnection

/-! ## One payload -/

theorem atMessage_id (self : MqttConnection) (msg_id : Int) :
    (self.atMessage msg_id)._recv_msg_id = msg_id := by
  unfold atMessage
  split
  · rfl
  · rename_i hsame
    exact (not_not.mp hsame).symm

section
variable {self : MqttConnection} {payload : ByteArray} {msg_id chunk_idx : Int} {chunk : Text}
variable {chunks : List Text}

theorem resp_cb_garbage (h : chunk? payload = none) :
    self._resp_cb payload = (self._reset_recv_buffer 0, .ok none) := by
  unfold _resp_cb
  rw [h]

theorem resp_cb_unassigned (h : chunk? payload = some { msg_id, chunk_idx, chunk })
    (hchunks : (self.atMessage msg_id)._recv_chunks = none) :
    self._resp_cb payload = (self.atMessage msg_id, .error noChunks) := by
  unfold _resp_cb
  simp only [h, hchunks]

theorem resp_cb_gap (h : chunk? payload = some { msg_id, chunk_idx, chunk })
    (hchunks : (self.atMessage msg_id)._recv_chunks = some chunks)
    (hgap : (chunks.length : Int) ≠ chunk_idx) :
    self._resp_cb payload = (self._reset_recv_buffer 0, .ok none) := by
  unfold _resp_cb
  simp only [h, hchunks]
  rw [if_pos hgap]
  rfl

theorem resp_cb_last (h : chunk? payload = some { msg_id, chunk_idx := chunks.length, chunk })
    (hchunks : (self.atMessage msg_id)._recv_chunks = some chunks) (hlast : '\n' ∈ chunk) :
    self._resp_cb payload =
      (self._reset_recv_buffer 0, .ok (some (rstrip (chunks ++ [chunk]).flatten))) := by
  unfold _resp_cb
  simp only [h, hchunks]
  rw [if_neg (not_not.mpr rfl), if_pos hlast]
  rfl

theorem resp_cb_more (h : chunk? payload = some { msg_id, chunk_idx := chunks.length, chunk })
    (hchunks : (self.atMessage msg_id)._recv_chunks = some chunks) (hmore : '\n' ∉ chunk) :
    self._resp_cb payload =
      ({ _recv_msg_id := msg_id, _recv_chunks := some (chunks ++ [chunk]) }, .ok none) := by
  unfold _resp_cb
  simp only [h, hchunks]
  rw [if_neg (not_not.mpr rfl), if_neg hmore, atMessage_id]

end

/-! ## What is sent -/

/-- A number with as many digits as Python reads. -/
def Readable (i : Int) : Prop := (natText i.natAbs).length ≤ 4300

instance (i : Int) : Decidable (Readable i) := inferInstanceAs (Decidable (_ ≤ _))

theorem intOfText_readable (i : Int) :
    intOfText (intText i) = if Readable i then some i else none := by
  rw [intOfText_intText]
  by_cases h : Readable i
  · rw [if_neg (Nat.not_lt.mpr h), if_pos h]
  · rw [if_pos (Nat.not_le.mp h), if_neg h]

theorem readable_mono {m n : Nat} (h : m ≤ n) (hn : Readable n) : Readable m :=
  natText_length_mono h (by decide) hn

theorem semicolon_not_mem_natText (n : Nat) : ';' ∉ natText n := by
  intro hm
  have hdigit := natText_digits n ';' hm
  exact absurd hdigit (by decide)

theorem semicolon_not_mem_intText (i : Int) : ';' ∉ intText i := by
  unfold intText
  split
  · simp [semicolon_not_mem_natText]
  · exact semicolon_not_mem_natText _

/-- A payload is split into the parts it was made of. -/
theorem chunk?_payloadOf (msg_id : Int) (k : Nat) {chunk : Text} (h : ';' ∉ chunk) :
    chunk? (payloadOf msg_id k chunk) =
      if Readable msg_id ∧ Readable k then some { msg_id, chunk_idx := k, chunk } else none := by
  have hjoin : intText msg_id ++ ';' :: natText k ++ ';' :: chunk =
      [';'].intercalate [intText msg_id, natText k, chunk] := by
    simp [List.intercalate, List.intersperse]
  have hsplit : (intText msg_id ++ ';' :: natText k ++ ';' :: chunk).splitOn ';' =
      [intText msg_id, natText k, chunk] := by
    rw [hjoin]
    apply List.splitOn_intercalate
    · simp [semicolon_not_mem_intText, semicolon_not_mem_natText, h]
    · simp
  unfold chunk? payloadOf
  rw [String.toByteArray_ofList, List.utf8Decode?_utf8Encode]
  simp only [Option.bind_eq_bind, Option.bind_some, hsplit]
  rw [← intText_natCast, intOfText_readable, intOfText_readable]
  by_cases hid : Readable msg_id
  · by_cases hk : Readable k
    · simp [hid, hk]
    · simp [hk]
  · simp [hid]

/-! ## What is handed over -/

/-- The payloads are the chunks of one message, from its first chunk on. -/
def InOrder (msg_id : Int) (payloads : List ByteArray) (chunks : List Text) : Prop :=
  payloads.map chunk? = chunks.mapIdx fun i chunk => some { msg_id, chunk_idx := i, chunk }

/-- A whole message: its last chunk is the first one with a newline. -/
structure Whole (payloads : List ByteArray) (msg : Text) : Prop where
  in_order : ∃ msg_id chunks last, InOrder msg_id payloads (chunks ++ [last]) ∧
    (∀ chunk ∈ chunks, '\n' ∉ chunk) ∧ '\n' ∈ last ∧ msg = rstrip (chunks ++ [last]).flatten

/-- The chunks in the buffer came with the last payloads. -/
def Buffered (earlier : List ByteArray) (self : MqttConnection) : Prop :=
  ∀ chunks, self._recv_chunks = some chunks → (∀ chunk ∈ chunks, '\n' ∉ chunk) ∧
    ∃ before run, earlier = before ++ run ∧ InOrder self._recv_msg_id run chunks

theorem inOrder_concat {msg_id : Int} {run : List ByteArray} {chunks : List Text}
    (h : InOrder msg_id run chunks) {payload : ByteArray} {chunk : Text}
    (hchunk : chunk? payload = some { msg_id, chunk_idx := chunks.length, chunk }) :
    InOrder msg_id (run ++ [payload]) (chunks ++ [chunk]) := by
  unfold InOrder at h ⊢
  rw [List.map_append, List.mapIdx_concat, h, List.map_singleton, hchunk]

theorem inOrder_length {msg_id : Int} {run : List ByteArray} {chunks : List Text}
    (h : InOrder msg_id run chunks) : run.length = chunks.length := by
  have hlength := congrArg List.length h
  rwa [List.length_map, List.length_mapIdx] at hlength

/-- Each payload has its own chunk. -/
theorem inOrder_at {msg_id : Int} {before rest : List ByteArray} {payload : ByteArray}
    {chunks : List Text} (h : InOrder msg_id (before ++ payload :: rest) chunks) :
    ∃ chunk, chunks[before.length]? = some chunk ∧
      chunk? payload = some { msg_id, chunk_idx := before.length, chunk } := by
  have hat := congrArg (·[before.length]?) h
  simp only [List.map_append, List.map_cons, List.getElem?_mapIdx] at hat
  rw [List.getElem?_append_right (by simp)] at hat
  simp only [List.length_map, Nat.sub_self, List.getElem?_cons_zero] at hat
  obtain ⟨chunk, hchunk, heq⟩ := Option.map_eq_some_iff.mp hat.symm
  exact ⟨chunk, hchunk, heq.symm⟩

theorem buffered_reset (earlier : List ByteArray) (self : MqttConnection) (msg_id : Int) :
    Buffered earlier (self._reset_recv_buffer msg_id) := by
  rintro chunks ⟨⟩
  exact ⟨by simp, earlier, [], by simp, rfl⟩

theorem buffered_atMessage {earlier : List ByteArray} {self : MqttConnection}
    (h : Buffered earlier self) (msg_id : Int) : Buffered earlier (self.atMessage msg_id) := by
  unfold atMessage
  split
  · exact buffered_reset earlier self msg_id
  · exact h

/-- The buffer is kept by each payload. -/
theorem buffered_step {earlier : List ByteArray} {self : MqttConnection}
    (h : Buffered earlier self) (payload : ByteArray) :
    Buffered (earlier ++ [payload]) (self._resp_cb payload).1 := by
  rcases hchunk : chunk? payload with _ | ⟨msg_id, chunk_idx, chunk⟩
  · rw [resp_cb_garbage hchunk]
    exact buffered_reset _ self 0
  rcases hchunks : (self.atMessage msg_id)._recv_chunks with _ | chunks
  · rw [resp_cb_unassigned hchunk hchunks]
    intro chunks hsome
    rw [hchunks] at hsome
    cases hsome
  by_cases hgap : (chunks.length : Int) ≠ chunk_idx
  · rw [resp_cb_gap hchunk hchunks hgap]
    exact buffered_reset _ self 0
  obtain rfl := not_not.mp hgap
  by_cases hlast : '\n' ∈ chunk
  · rw [resp_cb_last hchunk hchunks hlast]
    exact buffered_reset _ self 0
  · rw [resp_cb_more hchunk hchunks hlast]
    obtain ⟨hopen, before, run, rfl, horder⟩ := buffered_atMessage h msg_id chunks hchunks
    rw [atMessage_id] at horder
    rintro _ ⟨⟩
    refine ⟨?_, before, run ++ [payload], by simp, inOrder_concat horder hchunk⟩
    intro c hc
    rcases List.mem_append.mp hc with hc | hc
    · exact hopen c hc
    · rw [List.mem_singleton.mp hc]
      exact hlast

theorem after_concat (self : MqttConnection) (payloads : List ByteArray) (payload : ByteArray) :
    after self (payloads ++ [payload]) = ((after self payloads)._resp_cb payload).1 := by
  unfold after
  rw [List.foldl_append]
  rfl

theorem buffered_after (earlier : List ByteArray) : Buffered earlier (after {} earlier) := by
  induction earlier using List.reverseRecOn with
  | nil => exact fun _ h => nomatch h
  | append_singleton earlier payload ih =>
    rw [after_concat]
    exact buffered_step ih payload

/-- A message is handed over at a payload, after the earlier ones. -/
def HandedOver (earlier : List ByteArray) (payload : ByteArray) (msg : Text) : Prop :=
  ((after {} earlier)._resp_cb payload).2 = .ok (some msg)

theorem handedOver_whole {earlier : List ByteArray} {payload : ByteArray} {msg : Text}
    (h : HandedOver earlier payload msg) :
    ∃ before run, earlier = before ++ run ∧ Whole (run ++ [payload]) msg := by
  unfold HandedOver at h
  rcases hchunk : chunk? payload with _ | ⟨msg_id, chunk_idx, chunk⟩
  · rw [resp_cb_garbage hchunk] at h
    cases h
  rcases hchunks : ((after {} earlier).atMessage msg_id)._recv_chunks with _ | chunks
  · rw [resp_cb_unassigned hchunk hchunks] at h
    cases h
  by_cases hgap : (chunks.length : Int) ≠ chunk_idx
  · rw [resp_cb_gap hchunk hchunks hgap] at h
    cases h
  obtain rfl := not_not.mp hgap
  by_cases hlast : '\n' ∈ chunk
  · rw [resp_cb_last hchunk hchunks hlast] at h
    cases h
    obtain ⟨hopen, before, run, hsplit, horder⟩ :=
      buffered_atMessage (buffered_after earlier) msg_id chunks hchunks
    rw [atMessage_id] at horder
    exact ⟨before, run, hsplit, msg_id, chunks, chunk, inOrder_concat horder hchunk, hopen, hlast,
      rfl⟩
  · rw [resp_cb_more hchunk hchunks hlast] at h
    cases h

/-- The message of a whole is not part of another: its chunks before the last have no newline. -/
theorem whole_after {run mid : List ByteArray} {first payload : ByteArray} {msg : Text}
    (h : Whole (run ++ [payload]) msg) {before₁ run₁ before : List ByteArray} {msg₁ : Text}
    (hfirst : Whole (run₁ ++ [first]) msg₁)
    (hsplit : before₁ ++ run₁ ++ first :: mid = before ++ run) : run.length ≤ mid.length := by
  by_contra hlong
  obtain ⟨msg_id, chunks, last, horder, hopen, -, -⟩ := h
  obtain ⟨msg_id₁, chunks₁, last₁, horder₁, -, hlast₁, -⟩ := hfirst
  have hlength : run.length = chunks.length := by
    simpa using inOrder_length horder
  have hlength₁ : run₁.length = chunks₁.length := by
    simpa using inOrder_length horder₁
  -- the payload of the last chunk of the other message would be in the run
  obtain ⟨rest, rfl⟩ : first :: mid <:+ run := by
    refine List.suffix_of_suffix_length_le ?_ (List.suffix_append before run) ?_
    · rw [← hsplit]
      exact List.suffix_append _ _
    · rw [List.length_cons]
      omega
  rw [List.append_assoc, List.cons_append] at horder
  obtain ⟨chunk, hget, hchunk⟩ := inOrder_at horder
  obtain ⟨chunk₁, hget₁, hchunk₁⟩ := inOrder_at horder₁
  rw [hlength₁, List.getElem?_concat_length] at hget₁
  cases hget₁
  rw [hchunk] at hchunk₁
  obtain rfl : chunk = last₁ := congrArg Chunk.chunk (Option.some.inj hchunk₁)
  rw [List.getElem?_append_left (by rw [← hlength]; simp)] at hget
  exact hopen _ (List.mem_of_getElem? hget) hlast₁

/-- Each message that is handed over was sent as one: as the chunks of the last payloads, in order
and without a gap, none of which was handed over before. -/
theorem handed_over_is_sent {earlier : List ByteArray} {payload : ByteArray} {msg : Text}
    (h : HandedOver earlier payload msg) : ∃ before run, earlier = before ++ run ∧
      Whole (run ++ [payload]) msg ∧ ∀ earlier₁ first mid msg₁,
        earlier = earlier₁ ++ first :: mid → HandedOver earlier₁ first msg₁ →
          run.length ≤ mid.length := by
  obtain ⟨before, run, hsplit, hwhole⟩ := handedOver_whole h
  refine ⟨before, run, hsplit, hwhole, ?_⟩
  intro earlier₁ first mid msg₁ hmid hfirst
  obtain ⟨before₁, run₁, rfl, hwhole₁⟩ := handedOver_whole hfirst
  exact whole_after hwhole hwhole₁ (hmid.symm.trans hsplit)

/-- A message of which the first chunk was seen. -/
theorem interrupted_after : after {} [payloadOf 5 0 "fifth,".toList] =
    { _recv_msg_id := 5, _recv_chunks := some ["fifth,".toList] } := by
  have hchunk : chunk? (payloadOf 5 0 "fifth,".toList) =
      some { msg_id := 5, chunk_idx := ([] : List Text).length, chunk := "fifth,".toList } := by
    rw [chunk?_payloadOf 5 0 (by decide), if_pos (by decide)]
    rfl
  rw [after, List.foldl_cons, resp_cb_more hchunk rfl (by decide)]
  rfl

theorem handed_over_fifth :
    ∃ before run, [payloadOf 5 0 "fifth,".toList] = before ++ run ∧
      Whole (run ++ [payloadOf 5 1 "sixth\n".toList]) "fifth,sixth".toList ∧
        ∀ earlier₁ first mid msg₁, [payloadOf 5 0 "fifth,".toList] = earlier₁ ++ first :: mid →
          HandedOver earlier₁ first msg₁ → run.length ≤ mid.length := by
  apply handed_over_is_sent
  have hchunk : chunk? (payloadOf 5 1 "sixth\n".toList) =
      some { msg_id := 5, chunk_idx := ["fifth,".toList].length, chunk := "sixth\n".toList } := by
    rw [chunk?_payloadOf 5 1 (by decide), if_pos (by decide)]
    rfl
  unfold HandedOver
  rw [interrupted_after, resp_cb_last hchunk rfl (by decide)]
  decide +kernel

/-! ## What comes of a whole message -/

theorem responses_concat (self : MqttConnection) (payloads : List ByteArray) (payload : ByteArray) :
    responses self (payloads ++ [payload]) =
      responses self payloads ++ [((after self payloads)._resp_cb payload).2] := by
  induction payloads generalizing self with
  | nil => rfl
  | cons p payloads ih => rw [List.cons_append, responses, ih]; rfl

theorem payloadsFrom_concat (msg_id : Int) (k : Nat) (chunks : List Text) (chunk : Text) :
    payloadsFrom msg_id k (chunks ++ [chunk]) =
      payloadsFrom msg_id k chunks ++ [payloadOf msg_id (k + chunks.length) chunk] := by
  induction chunks generalizing k with
  | nil => rfl
  | cons c chunks ih =>
    rw [List.cons_append, payloadsFrom, ih, payloadsFrom, List.length_cons, List.cons_append,
      show k + 1 + chunks.length = k + (chunks.length + 1) by omega]

/-- A message is in progress: some of its chunks are in the buffer. -/
def InProgress (self : MqttConnection) (msg_id : Int) : Prop :=
  self._recv_msg_id = msg_id ∧ ∃ chunk chunks, self._recv_chunks = some (chunk :: chunks)

/-- The chunks of a message are joined, from those that are in the buffer on. -/
theorem responses_run {msg_id : Int} (hid : Readable msg_id) {last : Text} (hlast : '\n' ∈ last)
    (hsemicolon : ';' ∉ last) (todo : List Text) : ∀ (done : List Text) (self : MqttConnection),
      (self.atMessage msg_id)._recv_chunks = some done →
        (∀ chunk ∈ todo, '\n' ∉ chunk ∧ ';' ∉ chunk) →
          Readable ((done.length + todo.length : Nat) : Int) →
            responses self (payloadsFrom msg_id done.length (todo ++ [last])) =
              List.replicate todo.length (.ok none) ++
                [.ok (some (rstrip (done ++ todo ++ [last]).flatten))] := by
  induction todo with
  | nil =>
    intro done self hchunks _ hk
    have hchunk := chunk?_payloadOf msg_id done.length hsemicolon
    rw [if_pos ⟨hid, hk⟩] at hchunk
    rw [List.nil_append, payloadsFrom, responses, resp_cb_last hchunk hchunks hlast]
    simp [payloadsFrom, responses]
  | cons chunk todo ih =>
    intro done self hchunks htodo hk
    obtain ⟨hopen, hplain⟩ := htodo chunk List.mem_cons_self
    have hreadable := readable_mono (Nat.le_add_right done.length _) hk
    have hchunk := chunk?_payloadOf msg_id done.length hplain
    rw [if_pos ⟨hid, hreadable⟩] at hchunk
    have hnext := ih (done ++ [chunk])
      { _recv_msg_id := msg_id, _recv_chunks := some (done ++ [chunk]) }
      (by simp [atMessage]) (fun c hc => htodo c (List.mem_cons_of_mem chunk hc))
      (by simpa [Nat.add_assoc, Nat.add_comm 1] using hk)
    rw [List.length_append, List.length_singleton] at hnext
    rw [List.cons_append, payloadsFrom, responses, resp_cb_more hchunk hchunks hopen, hnext]
    simp [List.replicate_succ]

/-! ## The text of a response -/

/-- The text that is handed over: what the parts are joined to, with a comma in between. -/
def responseText (pieces : List Bytes) (last : Bytes) : Text :=
  pieces.flatMap (fun piece => b64encode piece ++ [',']) ++ b64encode last

theorem responseText_mem {pieces : List Bytes} {last : Bytes} :
    ∀ c ∈ responseText pieces last, c ∈ ',' :: '=' :: b64Digits := by
  intro c hc
  rcases List.mem_append.mp hc with hc | hc
  · obtain ⟨piece, -, hc⟩ := List.mem_flatMap.mp hc
    rcases List.mem_append.mp hc with hc | hc
    · exact List.mem_cons_of_mem _ (b64encode_mem piece c hc)
    · rw [List.mem_singleton.mp hc]
      exact List.mem_cons_self
  · exact List.mem_cons_of_mem _ (b64encode_mem last c hc)

theorem rstrip_chunksOf (pieces : List Bytes) (last : Bytes) :
    rstrip (chunksOf pieces last).flatten = responseText pieces last := by
  have hflat : (chunksOf pieces last).flatten = responseText pieces last ++ ['\n'] := by
    simp [chunksOf, responseText, List.flatMap]
  have hspace : ∀ c ∈ ',' :: '=' :: b64Digits, isSpace c = false := by decide +kernel
  rw [hflat, rstrip_concat, if_pos (by decide), rstrip_eq_self_iff]
  intro c hc
  exact hspace c (responseText_mem c (List.mem_of_getLast? hc))

theorem responseText_join (pieces : List Bytes) (last : Bytes) :
    responseText pieces last = [','].intercalate ((pieces ++ [last]).map b64encode) := by
  induction pieces with
  | nil => simp [responseText]
  | cons piece pieces ih =>
    have hcons : responseText (piece :: pieces) last =
        b64encode piece ++ ',' :: responseText pieces last := by
      simp [responseText]
    rw [hcons, ih, List.cons_append, List.map_cons]
    cases pieces <;> simp [List.intercalate]

/-- The parts are decoded to the pieces. -/
theorem joinedData_responseText (pieces : List Bytes) (last : Bytes) :
    joinedData (responseText pieces last) = some (pieces ++ [last]).flatten := by
  have hascii : ∀ c ∈ ',' :: '=' :: b64Digits, c.toNat < 128 := by decide +kernel
  have hany : (responseText pieces last).any (128 ≤ ·.toNat) = false := by
    rw [List.any_eq_false]
    intro c hc
    simpa using hascii c (responseText_mem c hc)
  have hcomma : ',' ∉ '=' :: b64Digits := by decide +kernel
  have hsplit : (responseText pieces last).splitOn ',' = (pieces ++ [last]).map b64encode := by
    rw [responseText_join]
    apply List.splitOn_intercalate
    · intro part hpart hm
      obtain ⟨piece, -, rfl⟩ := List.mem_map.mp hpart
      exact hcomma (b64encode_mem piece ',' hm)
    · simp
  have hdecode : ∀ ps : List Bytes, (ps.map b64encode).mapM b64decode = some ps := by
    intro ps
    induction ps with
    | nil => rfl
    | cons piece ps ih =>
      rw [List.map_cons, List.mapM_cons, b64decode_b64encode, ih]
      rfl
  unfold joinedData
  rw [hany, hsplit, hdecode]
  rfl

/-! ## Complete responses -/

/-- The response is handed over, at its last chunk and only there, and no call raises. -/
def GetsThrough (self : MqttConnection) (msg_id : Int) (pieces : List Bytes) (last : Bytes) :
    Prop :=
  ∃ msg, responses self (payloadsFrom msg_id 0 (chunksOf pieces last)) =
      List.replicate pieces.length (.ok none) ++ [.ok (some msg)] ∧
    joinedData msg = some (pieces ++ [last]).flatten

/-- A payload that leaves the chunks unassigned changes nothing. -/
theorem resp_cb_none {self : MqttConnection} {payload : ByteArray}
    (h : (self._resp_cb payload).1._recv_chunks = none) : (self._resp_cb payload).1 = self := by
  rcases hchunk : chunk? payload with _ | ⟨msg_id, chunk_idx, chunk⟩
  · rw [resp_cb_garbage hchunk] at h
    cases h
  rcases hchunks : (self.atMessage msg_id)._recv_chunks with _ | chunks
  · rw [resp_cb_unassigned hchunk hchunks]
    unfold atMessage at hchunks ⊢
    split
    · rename_i hid
      rw [if_pos hid] at hchunks
      cases hchunks
    · rfl
  by_cases hgap : (chunks.length : Int) ≠ chunk_idx
  · rw [resp_cb_gap hchunk hchunks hgap] at h
    cases h
  obtain rfl := not_not.mp hgap
  by_cases hlast : '\n' ∈ chunk
  · rw [resp_cb_last hchunk hchunks hlast] at h
    cases h
  · rw [resp_cb_more hchunk hchunks hlast] at h
    cases h

/-- Before the first reset the id is zero. -/
theorem unassigned_id (earlier : List ByteArray) (h : (after {} earlier)._recv_chunks = none) :
    (after {} earlier)._recv_msg_id = 0 := by
  induction earlier using List.reverseRecOn with
  | nil => rfl
  | append_singleton earlier payload ih =>
    rw [after_concat] at h ⊢
    have hkeep := resp_cb_none h
    rw [hkeep] at h ⊢
    exact ih h

/-- A message that is not in progress starts with an empty buffer, once there is one. -/
theorem atMessage_free {earlier : List ByteArray} {msg_id : Int}
    (hfree : ¬ InProgress (after {} earlier) msg_id)
    (hassigned : ¬ (msg_id = 0 ∧ (after {} earlier)._recv_chunks = none)) :
    ((after {} earlier).atMessage msg_id)._recv_chunks = some [] := by
  unfold atMessage
  by_cases hid : msg_id ≠ (after {} earlier)._recv_msg_id
  · rw [if_pos hid]
    rfl
  · rw [if_neg hid]
    obtain rfl := not_not.mp hid
    rcases hchunks : (after {} earlier)._recv_chunks with _ | _ | ⟨chunk, chunks⟩
    · exact absurd ⟨unassigned_id earlier hchunks, hchunks⟩ hassigned
    · rfl
    · exact absurd ⟨rfl, chunk, chunks, hchunks⟩ hfree

theorem chunksOf_plain (pieces : List Bytes) (last : Bytes) :
    (∀ chunk ∈ pieces.map (fun piece => b64encode piece ++ [',']), '\n' ∉ chunk ∧ ';' ∉ chunk) ∧
      ';' ∉ b64encode last ++ ['\n'] := by
  have hno : '\n' ∉ ',' :: '=' :: b64Digits ∧ ';' ∉ ',' :: '=' :: b64Digits := by decide +kernel
  have hmem : ∀ piece, ∀ c ∈ b64encode piece ++ [','], c ∈ ',' :: '=' :: b64Digits := by
    intro piece c hc
    rcases List.mem_append.mp hc with hc | hc
    · exact List.mem_cons_of_mem _ (b64encode_mem piece c hc)
    · rw [List.mem_singleton.mp hc]
      exact List.mem_cons_self
  refine ⟨?_, ?_⟩
  · intro chunk hchunk
    obtain ⟨piece, -, rfl⟩ := List.mem_map.mp hchunk
    exact ⟨fun hm => hno.1 (hmem piece _ hm), fun hm => hno.2 (hmem piece _ hm)⟩
  · intro hm
    rcases List.mem_append.mp hm with hm | hm
    · exact hno.2 (List.mem_cons_of_mem _ (b64encode_mem last _ hm))
    · exact absurd (List.mem_singleton.mp hm) (by decide)

/-- The numbers of a response that gets through are read. -/
theorem readable_of_getsThrough {self : MqttConnection} {msg_id : Int} {pieces : List Bytes}
    {last : Bytes} (h : GetsThrough self msg_id pieces last) :
    Readable msg_id ∧ Readable (pieces.length : Int) := by
  by_contra hno
  obtain ⟨msg, hresponses, -⟩ := h
  have hgarbage := chunk?_payloadOf msg_id pieces.length (chunksOf_plain pieces last).2
  rw [if_neg hno] at hgarbage
  unfold chunksOf at hresponses
  rw [payloadsFrom_concat, responses_concat, List.length_map, Nat.zero_add,
    resp_cb_garbage hgarbage] at hresponses
  obtain ⟨-, hlast⟩ := List.append_inj' hresponses rfl
  cases hlast

/-- The first response of a connection does not get through with id 0: the buffer is not
assigned. -/
theorem first_zero_lost {self : MqttConnection} (hid : self._recv_msg_id = 0)
    (hchunks : self._recv_chunks = none) (pieces : List Bytes) (last : Bytes) :
    ¬ GetsThrough self 0 pieces last := by
  rintro ⟨msg, hresponses, -⟩
  have hstay : self.atMessage 0 = self := by
    unfold atMessage
    rw [if_neg (not_not.mpr hid.symm)]
  have hplain : ∀ chunk ∈ chunksOf pieces last, ';' ∉ chunk := by
    intro chunk hchunk
    rcases List.mem_append.mp hchunk with hchunk | hchunk
    · exact ((chunksOf_plain pieces last).1 chunk hchunk).2
    · rw [List.mem_singleton.mp hchunk]
      exact (chunksOf_plain pieces last).2
  obtain ⟨chunk, chunks, hcons⟩ : ∃ chunk chunks, chunksOf pieces last = chunk :: chunks := by
    apply List.exists_cons_of_ne_nil
    simp [chunksOf]
  have hchunk := chunk?_payloadOf 0 0 (hplain chunk (by rw [hcons]; exact List.mem_cons_self))
  rw [if_pos (by decide)] at hchunk
  rw [hcons, payloadsFrom, responses,
    resp_cb_unassigned hchunk (by rw [hstay]; exact hchunks)] at hresponses
  have hok : ∀ r ∈ List.replicate pieces.length (.ok none : Except Exn (Option Text)) ++
      [.ok (some msg)], ∃ o, r = .ok o := by
    intro r hr
    rcases List.mem_append.mp hr with hr | hr
    · exact ⟨_, List.eq_of_mem_replicate hr⟩
    · exact ⟨_, List.mem_singleton.mp hr⟩
  obtain ⟨o, ho⟩ := hok _ (hresponses ▸ List.mem_cons_self)
  cases ho

/-- A complete response gets through from each state that payloads can lead to, unless it is the
first that the connection sees and its id is 0. -/
theorem gets_through_iff (earlier : List ByteArray) {msg_id : Int}
    (hfree : ¬ InProgress (after {} earlier) msg_id) (pieces : List Bytes) (last : Bytes) :
    GetsThrough (after {} earlier) msg_id pieces last ↔
      ¬ (msg_id = 0 ∧ (after {} earlier)._recv_chunks = none) ∧ Readable msg_id ∧
        Readable (pieces.length : Int) := by
  constructor
  · intro h
    refine ⟨?_, readable_of_getsThrough h⟩
    rintro ⟨rfl, hchunks⟩
    exact first_zero_lost (unassigned_id earlier hchunks) hchunks pieces last h
  · rintro ⟨hassigned, hid, hk⟩
    have hnewline : '\n' ∈ b64encode last ++ ['\n'] := by simp
    have hrun := responses_run hid hnewline (chunksOf_plain pieces last).2
      (pieces.map fun piece => b64encode piece ++ [',']) [] (after {} earlier)
      (atMessage_free hfree hassigned) (chunksOf_plain pieces last).1 (by simpa using hk)
    refine ⟨responseText pieces last, ?_, joinedData_responseText pieces last⟩
    rw [← rstrip_chunksOf]
    simpa [chunksOf] using hrun

theorem gets_through_interrupted :
    GetsThrough (after {} [payloadOf 5 0 "fifth,".toList]) 6 [[1, 2, 3]] [4] ↔
      ¬ ((6 : Int) = 0 ∧ (after {} [payloadOf 5 0 "fifth,".toList])._recv_chunks = none) ∧
        Readable 6 ∧ Readable (([[1, 2, 3]] : List Bytes).length : Int) := by
  refine gets_through_iff [payloadOf 5 0 "fifth,".toList] ?_ _ _
  rintro ⟨hid, -⟩
  rw [interrupted_after] at hid
  exact absurd hid (by decide)

/-- The response of one chunk that a new connection gets with id 0. -/
theorem first_zero_raises : ¬ GetsThrough {} 0 [] [1] := first_zero_lost rfl rfl [] [1]

end devcon_spark.connection.mqtt_connection
