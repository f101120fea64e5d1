-- A payload that is decoded is encoded back to what it was, or it is refused.
-- The stubs that stand for payloads that could not be decoded are refused.
import DevconSpark.Codec
import DevconSpark.RoundTrip

open py_text py_number py_value binary devcon_spark.exceptions devcon_spark.models
open devcon_spark.codec.descriptor devcon_spark.codec.processor devcon_spark.codec.content
open devcon_spark.codec.unit_conversion devcon_spark.codec.lookup

namespace devcon_spark.codec

/-! ## Names and numbers of block types -/

/-- The enum of the block types as it is compiled: names are given once, and none is that of a
stub, or of the test objects. -/
structure Proper (BlockType : EnumTypeWrapper) (messages : List (Text × Int)) : Prop where
  names : (BlockType.map (·.1)).Nodup
  reserved : ∀ name ∈ [UNKNOWN_TYPE_STR, ERROR_TYPE_STR, EDGE_CASE.type_str],
    name ∉ BlockType.map (·.1)
  edge_case : EDGE_CASE.type_int ∉ BlockType.map (·.2)
  /-- Blocks of deprecated types have no message. -/
  deprecated : ∀ n, BlockType.Value "Deprecated" = .ok n →
    BLOCK_INTERFACE_TYPE_END < n ∧ n ∉ messages.map (·.2)

variable {BlockType : EnumTypeWrapper} {messages : List (Text × Int)} {name : String} {n : Int}

theorem mem_of_name (h : BlockType.Name n = .ok name) : (name, n) ∈ BlockType := by
  unfold EnumTypeWrapper.Name at h
  split at h
  · rename_i p hp
    cases h
    have hn : p.2 = n := by simpa using List.find?_some hp
    rw [← hn]
    exact List.mem_of_find?_eq_some hp
  · cases h

/-- A name that is given once has its own number. -/
theorem value_of_mem (hnames : (BlockType.map (·.1)).Nodup) (h : (name, n) ∈ BlockType) :
    BlockType.Value name = .ok n := by
  unfold EnumTypeWrapper.Value
  split
  · rename_i p hp
    have hname : p.1 = name := by simpa using List.find?_some hp
    have hsame : p = (name, n) :=
      List.inj_on_of_nodup_map hnames (List.mem_of_find?_eq_some hp) h hname
    rw [hsame]
  · rename_i hnone
    have hne := List.find?_eq_none.mp hnone _ h
    simp at hne

theorem value_error (h : name ∉ BlockType.map (·.1)) : ∃ ex, BlockType.Value name = .error ex := by
  unfold EnumTypeWrapper.Value
  split
  · rename_i p hp
    have hname : p.1 = name := by simpa using List.find?_some hp
    exact absurd (hname ▸ List.mem_map_of_mem (List.mem_of_find?_eq_some hp)) h
  · exact ⟨_, rfl⟩

/-- A type of the lookups: its name stands for its number, and the other way around. -/
structure Registered (BlockType : EnumTypeWrapper) (v : InterfaceLookup) : Prop where
  value : blockTypeValue BlockType v.type_str = .ok v.type_int
  name : v = EDGE_CASE ∨ BlockType.Name v.type_int = .ok v.type_str
  not_deprecated : v.type_str ≠ "Deprecated"

theorem registered_of_name (hproper : Proper BlockType messages)
    (hname : BlockType.Name n = .ok name) (hn : ¬ BLOCK_INTERFACE_TYPE_END < n ∨
      n ∈ messages.map (·.2)) : Registered BlockType { type_str := name, type_int := n } := by
  have hmem := mem_of_name hname
  have hvalue := value_of_mem hproper.names hmem
  refine ⟨?_, Or.inr hname, ?_⟩
  · unfold blockTypeValue
    rw [hvalue]
  · rintro rfl
    obtain ⟨hend, hnot⟩ := hproper.deprecated n hvalue
    rcases hn with hn | hn
    · exact hn hend
    · exact hnot hn

theorem registered_edge_case (hproper : Proper BlockType messages) :
    Registered BlockType EDGE_CASE := by
  refine ⟨?_, Or.inl rfl, by decide⟩
  obtain ⟨ex, hex⟩ := value_error (hproper.reserved EDGE_CASE.type_str (by simp))
  unfold blockTypeValue
  rw [hex]
  rfl

theorem registered_of_setup {lookup : Lookup} {edgeCase : Text}
    (hproper : Proper BlockType messages)
    (hsetup : setup BlockType messages edgeCase = .ok lookup) :
    lookup.BlockType = BlockType ∧ ∀ v ∈ lookup.combined, Registered BlockType v := by
  obtain ⟨objects, hobjects, h⟩ := bind_eq_ok.mp hsetup
  obtain ⟨interfaces, hinterfaces, h⟩ := bind_eq_ok.mp h
  cases h
  refine ⟨rfl, fun v hv => ?_⟩
  unfold Lookup.combined at hv
  simp only [List.map_append, List.map_cons, List.map_nil, List.mem_append,
    List.mem_singleton] at hv
  rcases hv with (hv | rfl) | hv | rfl
  · obtain ⟨o, ho, rfl⟩ := List.mem_map.mp hv
    obtain ⟨p, hp, hmap⟩ := forall₂_right (forall₂_of_mapM hobjects) ho
    obtain ⟨name, hname, rfl⟩ := map_eq_ok.mp hmap
    exact registered_of_name hproper hname
      (Or.inr (List.mem_map_of_mem (List.mem_of_mem_filter hp)))
  · exact registered_edge_case hproper
  · obtain ⟨n, hn, hmap⟩ := forall₂_right (forall₂_of_mapM hinterfaces) hv
    obtain ⟨name, hname, rfl⟩ := map_eq_ok.mp hmap
    have hend := (List.mem_filter.mp hn).2
    exact registered_of_name hproper hname (Or.inl (by simpa using hend))
  · exact registered_edge_case hproper

/-- A number has one name in the lookups. -/
theorem type_str_unique {v v' : InterfaceLookup} (hproper : Proper BlockType messages)
    (h : Registered BlockType v) (h' : Registered BlockType v') (hint : v.type_int = v'.type_int) :
    v.type_str = v'.type_str := by
  have hedge : ∀ name, BlockType.Name EDGE_CASE.type_int ≠ .ok name := fun name hname =>
    hproper.edge_case (List.mem_map_of_mem (mem_of_name hname))
  rcases h.name with rfl | hname <;> rcases h'.name with rfl | hname'
  · rfl
  · rw [← hint] at hname'
    exact absurd hname' (hedge _)
  · rw [hint] at hname
    exact absurd hname (hedge _)
  · rw [hint, hname'] at hname
    exact (Except.ok.inj hname).symm

/-- What was found by its name or its number is found by its number. -/
theorem find_number {objects : List ObjectLookup} {impl : ObjectLookup}
    {blockType : Option BlockTypeId} (hunique : ∀ v ∈ objects, ∀ v' ∈ objects,
      v.type_int = v'.type_int → v.type_str = v'.type_str)
    (h : objects.find? (·.has blockType) = some impl) :
    objects.find? (·.type_int = impl.type_int) = some impl := by
  have himpl := List.mem_of_find?_eq_some h
  have hhas := List.find?_some h
  induction objects with
  | nil => cases h
  | cons v objects ih =>
    rw [List.find?_cons] at h ⊢
    cases hv : v.has blockType with
    | true =>
      rw [hv] at h
      cases h
      simp
    | false =>
      rw [hv] at h
      have hne : v.type_int ≠ impl.type_int := by
        intro hint
        have hstr := hunique v List.mem_cons_self impl himpl hint
        unfold InterfaceLookup.has at hv hhas
        rw [hint, hstr, hhas] at hv
        cases hv
      rw [decide_eq_false hne]
      exact ih (fun v hv v' hv' => hunique v (List.mem_cons_of_mem _ hv) v'
        (List.mem_cons_of_mem _ hv')) h (List.mem_of_find?_eq_some h)

/-! ## Payloads -/

/-- Not a block: a stub for what could not be decoded. -/
def isStub (payload : DecodedPayload) : Prop :=
  payload.blockType = some UNKNOWN_TYPE_STR ∨ payload.blockType = some ERROR_TYPE_STR

/-- What becomes of a payload that is decoded, and encoded again. -/
inductive Returned (codec : Codec) (payload : EncodedPayload) (decoded : DecodedPayload) :
    Except Exn EncodedPayload → Prop
  | refused {ex : Exn} (hstub : isStub decoded) (hex : ex.kind = .EncodeException) :
      Returned codec payload decoded (.error ex)
  | deprecated {n : Int} (h : codec.lookup.BlockType.Value "Deprecated" = .ok n)
      (htype : payload.blockType = some (.int n)) :
      Returned codec payload decoded (.ok { blockId := payload.blockId
                                            blockType := payload.blockType
                                            name := payload.name
                                            content := payload.content })
  /-- An interface has no content. -/
  | interface {impl : InterfaceLookup} (himpl : impl ∈ codec.lookup.interfaces)
      (htype : impl.has payload.blockType) :
      Returned codec payload decoded (.ok { blockId := payload.blockId
                                            blockType := some (.int impl.type_int)
                                            name := payload.name })
  | object {impl : ObjectLookup} {data : Bytes} (himpl : impl ∈ codec.lookup.objects)
      (htype : impl.has payload.blockType) (hdata : decodeContent payload.content = .ok data) :
      Returned codec payload decoded (.ok { payload with
                                            blockType := some (.int impl.type_int)
                                            content := some (b64encode data) })

/-- Protobuf serialized the content of the payload, in which no ignored field is set, and its
values come back. -/
def Canonical (codec : Codec) (mode : ReadMode) (payload : EncodedPayload) : Prop :=
  ∀ impl ∈ codec.lookup.objects, impl.has payload.blockType → ∀ data raw,
    decodeContent payload.content = .ok data →
    codec.protobuf.parse impl.message_cls data (mode ≠ .DEFAULT) = .ok raw →
      contentItems codec.pool returnable impl.message_cls raw ∧
        ∀ back, Kept codec.pool impl.message_cls
            (unignoredItems codec.pool impl.message_cls raw) back →
          codec.protobuf.serialize impl.message_cls back = .ok data

variable {codec : Codec} {payload : EncodedPayload} {mode : ReadMode}

/-- No block type has the name of a stub. -/
theorem stub_is_refused (hproper : Proper codec.lookup.BlockType messages)
    {decoded : DecodedPayload} (h : isStub decoded) (filter_values : Option Bool) :
    ∃ ex, encode_payload codec decoded filter_values = .error ex := by
  have hreserved : ∀ name ∈ [UNKNOWN_TYPE_STR, ERROR_TYPE_STR],
      decoded.blockType = some name → name ≠ "EdgeCase" →
        ∃ ex, encode_payload codec decoded filter_values = .error ex := by
    intro name hname htype hne
    obtain ⟨ex, hex⟩ := value_error (hproper.reserved name (List.mem_of_mem_dropLast hname))
    have hvalue : ∃ ex, blockTypeValue codec.lookup.BlockType name = .error ex := by
      unfold blockTypeValue
      rw [hex]
      dsimp only
      rw [if_neg hne]
      exact ⟨_, rfl⟩
    obtain ⟨ex, hvalue⟩ := hvalue
    unfold encode_payload encodePayload
    simp only [htype, hvalue]
    exact ⟨_, rfl⟩
  rcases h with h | h
  · exact hreserved UNKNOWN_TYPE_STR (by simp) h (by decide)
  · exact hreserved ERROR_TYPE_STR (by simp) h (by decide)

/-- Content that was read is written back, without what is ignored. -/
theorem content_back {user_temp : Text} (hpool : LeavesIgnored codec.pool)
    (hexact : Exact codec.env user_temp) (hunits : codec.units = converter user_temp)
    {message : Text} (decoded : DecodedPayload) {raw : Dict} (hraw : decoded.content = some raw)
    (hmask : decoded.maskMode = .NO_MASK)
    (hcontent : contentItems codec.pool returnable message raw) : ∃ mid back,
      post_decode codec.env codec.units codec.pool message decoded mode false =
        .ok { decoded with content := some mid } ∧
      pre_encode codec.env codec.units codec.pool message { decoded with content := some mid }
        false = .ok { decoded with content := some back } ∧
      Kept codec.pool message (unignoredItems codec.pool message raw) back := by
  have htrips : ∀ p ∈ raw, Trips codec.pool codec.env user_temp mode decoded.maskFields p.2 :=
    fun p _ => trips decoded.maskFields hexact hpool p.2
  obtain ⟨mid, hmid, hback⟩ := items_trip decoded.maskFields hexact hpool htrips hcontent []
  obtain ⟨back, hback, hkept⟩ := hback []
  refine ⟨mid, back, ?_, ?_, hkept⟩
  · unfold post_decode contentOf
    rw [hraw, hmask, hunits]
    unfold decodeAll at hmid
    simp only [ok_bind, hmid]
    rfl
  · unfold pre_encode contentOf
    rw [hmask, hunits]
    unfold encodeAll at hback
    simp only [ok_bind, hback]
    simp [pure, Except.pure]

theorem returned_of_stub (hproper : Proper codec.lookup.BlockType messages)
    {decoded : DecodedPayload} (h : isStub decoded) (filter_values : Option Bool) :
    Returned codec payload decoded (encode_payload codec decoded filter_values) := by
  obtain ⟨ex, hex⟩ := stub_is_refused hproper h filter_values
  rw [hex]
  exact .refused h (encode_payload_error hex)

theorem encode_deprecated {decoded : DecodedPayload} (content : Text)
    (hvalue : codec.lookup.BlockType.Value "Deprecated" = .ok n)
    (htype : decoded.blockType = some "Deprecated")
    (hcontent : decoded.content = some [("bytes".toList, .str content)])
    (filter_values : Option Bool) : encode_payload codec decoded filter_values =
      .ok { blockId := decoded.blockId, blockType := some (.int n), name := decoded.name
            content := some content } := by
  unfold encode_payload encodePayload blockTypeValue
  simp only [htype, hvalue, hcontent, ok_bind]
  rfl

theorem encode_interface {decoded : DecodedPayload} {impl : InterfaceLookup}
    (himpl : impl ∈ codec.lookup.interfaces) (h : Registered codec.lookup.BlockType impl)
    (htype : decoded.blockType = some impl.type_str) (hcontent : decoded.content = none)
    (filter_values : Option Bool) : encode_payload codec decoded filter_values =
      .ok { blockId := decoded.blockId, blockType := some (.int impl.type_int)
            name := decoded.name } := by
  have hfound : ∃ v, codec.lookup.combined.find? (·.type_int = impl.type_int) = some v ∧
      v.type_int = impl.type_int := by
    cases hfind : codec.lookup.combined.find? (·.type_int = impl.type_int) with
    | some v => exact ⟨v, rfl, by simpa using List.find?_some hfind⟩
    | none =>
      have hne := List.find?_eq_none.mp hfind impl (List.mem_append_right _ himpl)
      simp at hne
  obtain ⟨v, hfound, hint⟩ := hfound
  unfold encode_payload encodePayload
  simp only [htype, h.value, hcontent, ok_bind, if_neg h.not_deprecated, Option.isNone_none,
    if_true, hfound, hint]
  rfl

theorem encode_object {decoded : DecodedPayload} {impl : ObjectLookup} {mid back : Dict}
    {data : Bytes} (hfound : codec.lookup.objects.find? (·.type_int = impl.type_int) = some impl)
    (h : Registered codec.lookup.BlockType impl.toInterfaceLookup)
    (htype : decoded.blockType = some impl.type_str) (hcontent : decoded.content = some mid)
    (hpre : pre_encode codec.env codec.units codec.pool impl.message_cls decoded false =
      .ok { decoded with content := some back })
    (hdata : codec.protobuf.serialize impl.message_cls back = .ok data) :
    encode_payload codec decoded (some false) =
      .ok { blockId := decoded.blockId, blockType := some (.int impl.type_int)
            name := decoded.name, content := some (b64encode data)
            maskMode := decoded.maskMode, maskFields := decoded.maskFields } := by
  unfold encode_payload encodePayload contentOf
  simp only [htype, h.value, hcontent, ok_bind, if_neg h.not_deprecated, Option.isNone_some,
    hfound, Option.getD_some, hpre, hdata]
  rfl

def sampleLookup : Lookup where
  BlockType := [("Any", 255), ("Sample", 300), ("Deprecated", 65533)]
  objects := [{ type_str := "Sample", type_int := 300, message_cls := "Sample".toList },
    { EDGE_CASE with message_cls := "EdgeCase".toList }]
  interfaces := [{ type_str := "Any", type_int := 255 }, EDGE_CASE]

/-- The sample with a field that the service ignores. -/
def drivenPool : Pool where
  messages := fun message =>
    samplePool.messages message ++
      if message = "Sample".toList then
        [{ name := "drivenTargetId".toList, number := 90, type := .BOOL
           opts := { ignored := true } }]
      else []

theorem drivenPool_leavesIgnored : LeavesIgnored drivenPool := by
  have hfields : ∀ message, ∀ field ∈ drivenPool.messages message,
      field ∈ samplePool.messages message ∨ field =
        { name := "drivenTargetId".toList, number := 90, type := .BOOL
          opts := { ignored := true } } := by
    intro message field hfield
    rcases List.mem_append.mp hfield with hfield | hfield
    · exact Or.inl hfield
    · split at hfield
      · exact Or.inr (List.mem_singleton.mp hfield)
      · cases hfield
  have hsample := samplePool_returnable.leavesIgnored
  refine ⟨⟨fun message field hfield => ?_, fun message field hfield => ?_,
    fun message field hfield => ?_⟩, fun message field hfield => ?_⟩ <;>
    rcases hfields message field hfield with hfield | rfl
  · exact hsample.placed message field hfield
  · exact .plain _ _ _ _ (by decide)
  · exact hsample.named message field hfield
  · decide
  · exact hsample.typed message field hfield
  · decide
  · exact hsample.ignored_leaf message field hfield
  · exact fun _ => rfl

def sampleContent : Dict := [("setting".toList, .int 83968), ("parts".toList, .list []),
  ("drivenTargetId".toList, .bool false)]

/-- Messages of one content, which are serialized as the tag and the value of the setting. -/
def sampleCodec : Codec where
  env := sameUnit
  units := converter "degC".toList
  pool := drivenPool
  lookup := sampleLookup
  protobuf :=
    { serialize := fun _ _ => .ok [8, 128, 144, 5]
      parse := fun _ _ _ => .ok sampleContent }

def samplePayload : EncodedPayload :=
  { blockId := 100, blockType := some (.int 300), name := some "sample"
    content := some (b64encode [8, 128, 144, 5]) }

theorem sampleContent_returnable :
    contentItems drivenPool returnable "Sample".toList sampleContent := by
  refine contentItems_iff.mpr ⟨by decide, List.forall_mem_cons.mpr ⟨⟨_, rfl, ?_⟩,
    List.forall_mem_cons.mpr ⟨⟨_, rfl, ?_⟩, List.forall_mem_singleton.mpr ⟨_, rfl, ?_⟩⟩⟩⟩
  · rw [contentValue]
    · exact ⟨rfl, rfl, ⟨by omega, by omega⟩, by simp, by simp⟩
    all_goals simp
  · rw [contentValue]
    exact ⟨rfl, rfl, contentList_iff.mpr (by simp)⟩
  · rw [contentValue]
    · exact ⟨rfl, rfl, trivial, by simp, by simp⟩
    all_goals simp

end devcon_spark.codec
