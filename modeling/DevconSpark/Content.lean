-- The content of messages as `MessageToDict` yields it, and the messages it is
-- the content of: where the compiled messages place the options of Brewblox.
import DevconSpark.WalkLaws

open py_text py_dict py_number py_value binary devcon_spark.exceptions
open devcon_spark.codec.descriptor devcon_spark.codec.processor

namespace devcon_spark.codec.content

/-! ## Messages -/

/-- Where options stand: by the type of the field, and whether the field is repeated. -/
inductive Placed : FieldType → Bool → FieldOpts → Prop
  | plain {type repeated} (readonly logged stored ignored)
    (h : type ∈ [FieldType.BOOL, .ENUM, .STRING, .MESSAGE]) :
    Placed type repeated { readonly, logged, stored, ignored }
  | number {type repeated} (readonly logged stored ignored unit scale omit_if_zero null_if_zero)
    (h : type ∈ [FieldType.INT32, .UINT32]) (hunit : unit ≠ .Volt) :
    Placed type repeated
      { unit, scale, omit_if_zero, null_if_zero, readonly, logged, stored, ignored }
  | link {repeated} (readonly logged stored ignored objtype omit_if_zero null_if_zero) :
    Placed .UINT32 repeated
      { objtype := some objtype, omit_if_zero, null_if_zero, readonly, logged, stored, ignored }
  | hexed {repeated} (readonly logged stored ignored) :
    Placed .UINT64 repeated { hexed := true, readonly, logged, stored, ignored }
  | hexstr {repeated} (readonly logged stored ignored) :
    Placed .BYTES repeated { hexstr := true, readonly, logged, stored, ignored }
  | ipv4address {repeated} (readonly logged stored ignored) :
    Placed .UINT32 repeated { ipv4address := true, readonly, logged, stored, ignored }
  | datetime (readonly logged stored ignored) :
    Placed .UINT32 false { datetime := true, readonly, logged, stored, ignored }

/-- The messages are as the compiled ones. -/
structure WellPlaced (pool : Pool) : Prop where
  placed : ∀ message, ∀ field ∈ pool.messages message,
    Placed field.type field.label_repeated field.opts
  named : ∀ message, ∀ field ∈ pool.messages message, Plain field.name
  typed : ∀ message, ∀ field ∈ pool.messages message,
    field.type = .MESSAGE ↔ field.message_type.isSome = true

variable (pool : Pool)

/-- The message that the values of a map are, by the entry type of the map. -/
def valueMessage (entry : Text) : Option Text :=
  (fields_by_name (pool.messages entry) "value".toList).bind FieldDescriptor.message_type

theorem valueType_of_valueMessage {entry message : Text}
    (h : valueMessage pool entry = some message) : valueType pool entry = .ok (some message) := by
  obtain ⟨field, hfield, hmessage⟩ := Option.bind_eq_some_iff.mp h
  unfold valueType
  rw [fieldOf_some pool hfield]
  exact congrArg _ hmessage

/-! ## Content -/

/-- What `MessageToDict` yields for a value that is no message: 64-bit numbers and bytes are
texts, and an enum is its name or its number. -/
def rawScalar (type : FieldType) (value : Value) : Prop :=
  match type, value with
  | .INT32, .int i => - 2 ^ 31 ≤ i ∧ i < 2 ^ 31
  | .UINT32, .int i => 0 ≤ i ∧ i < 2 ^ 32
  | .INT64, .str t => ∃ i : Int, - 2 ^ 63 ≤ i ∧ i < 2 ^ 63 ∧ t = intText i
  | .UINT64, .str t => ∃ n : Nat, n < 2 ^ 64 ∧ t = natText n
  | .BOOL, .bool _ => True
  | .ENUM, .str _ => True
  | .ENUM, .int _ => True
  | .STRING, .str _ => True
  | .BYTES, .str t => ∃ bs, t = b64encode bs
  | _, _ => False

-- what holds of each value that is no message
variable (leaf : FieldDescriptor → Value → Prop)

mutual

/-- The content of a message. -/
def contentItems (message : Text) (kvs : Dict) : Prop :=
  match kvs with
  | [] => True
  | (k, v) :: kvs =>
    k ∉ kvs.map (·.1) ∧
      (match fields_by_name (pool.messages message) k with
        | some field => contentValue field v
        | none => False) ∧ contentItems message kvs

/-- The content of a field: a map for a repeated field of entries, else a list for a repeated
field. -/
def contentValue (field : FieldDescriptor) (value : Value) : Prop :=
  match value with
  | .dict kvs =>
    match field.message_type, field.label_repeated with
    | none, _ => False
    | some m, false => contentItems m kvs
    | some m, true => pool.map_entry m = true ∧
      match valueMessage pool m with
      | some message => contentMap message kvs
      | none => False
  | .list vs => field.label_repeated = true ∧
    match field.message_type with
    | none => ∀ v ∈ vs, leaf field v
    | some m => pool.map_entry m = false ∧ contentList m vs
  | v => field.message_type = none ∧ field.label_repeated = false ∧ leaf field v

def contentList (message : Text) (values : List Value) : Prop :=
  match values with
  | [] => True
  | v :: vs => contentChild message v ∧ contentList message vs

def contentMap (message : Text) (kvs : Dict) : Prop :=
  match kvs with
  | [] => True
  | (k, v) :: kvs => k ∉ kvs.map (·.1) ∧ contentChild message v ∧ contentMap message kvs

def contentChild (message : Text) (value : Value) : Prop :=
  match value with
  | .dict kvs => contentItems message kvs
  | _ => False

end

variable {pool leaf}

theorem contentItems_iff {message : Text} {kvs : Dict} :
    contentItems pool leaf message kvs ↔ (kvs.map (·.1)).Nodup ∧ ∀ p ∈ kvs, ∃ field,
      fields_by_name (pool.messages message) p.1 = some field ∧
        contentValue pool leaf field p.2 := by
  induction kvs with
  | nil => simp [contentItems]
  | cons p kvs ih =>
    obtain ⟨k, v⟩ := p
    rw [contentItems, ih, List.map_cons, List.nodup_cons, List.forall_mem_cons]
    cases fields_by_name (pool.messages message) k <;> simp [and_assoc, and_left_comm]

theorem contentChild_dict {message : Text} {v : Value} (h : contentChild pool leaf message v) :
    ∃ kvs, v = .dict kvs ∧ contentItems pool leaf message kvs := by
  cases v
  case dict kvs =>
    rw [contentChild] at h
    exact ⟨kvs, rfl, h⟩
  all_goals
    rw [contentChild] at h
    · exact absurd h id
    · simp

theorem contentList_iff {message : Text} {vs : List Value} :
    contentList pool leaf message vs ↔ ∀ v ∈ vs, contentChild pool leaf message v := by
  induction vs with
  | nil => simp [contentList]
  | cons v vs ih => rw [contentList, ih, List.forall_mem_cons]

theorem contentMap_iff {message : Text} {kvs : Dict} :
    contentMap pool leaf message kvs ↔
      (kvs.map (·.1)).Nodup ∧ ∀ p ∈ kvs, contentChild pool leaf message p.2 := by
  induction kvs with
  | nil => simp [contentMap]
  | cons p kvs ih =>
    obtain ⟨k, v⟩ := p
    rw [contentMap, ih, List.map_cons, List.nodup_cons, List.forall_mem_cons]
    simp [and_assoc, and_left_comm]

/-- The content of a field that is no message: one value, or a list of values. -/
theorem contentValue_leaf {field : FieldDescriptor} (hleaf : field.message_type = none)
    {v : Value} (h : contentValue pool leaf field v) :
    (field.label_repeated = false ∧ leaf field v) ∨
      ∃ vs, v = .list vs ∧ field.label_repeated = true ∧ ∀ v ∈ vs, leaf field v := by
  cases v with
  | list vs =>
    rw [contentValue, hleaf] at h
    exact Or.inr ⟨vs, rfl, h⟩
  | dict kvs =>
    rw [contentValue, hleaf] at h
    exact absurd h id
  | none | bool | int | float | str =>
    rw [contentValue] at h
    · exact Or.inl h.2
    all_goals simp

/-- The content of a field of messages: a message, a list of them, or a map. -/
theorem contentValue_message {field : FieldDescriptor} {message : Text}
    (hmessage : field.message_type = some message) {v : Value}
    (h : contentValue pool leaf field v) :
    (∃ kvs, v = .dict kvs ∧ field.label_repeated = false ∧ contentItems pool leaf message kvs) ∨
    (∃ vs, v = .list vs ∧ field.label_repeated = true ∧ ∀ w ∈ vs, contentChild pool leaf message w) ∨
    ∃ kvs m, v = .dict kvs ∧ field.label_repeated = true ∧ valueMessage pool message = some m ∧
      (kvs.map (·.1)).Nodup ∧ ∀ p ∈ kvs, contentChild pool leaf m p.2 := by
  cases v with
  | list vs =>
    rw [contentValue, hmessage] at h
    exact Or.inr (Or.inl ⟨vs, rfl, h.1, contentList_iff.mp h.2.2⟩)
  | dict kvs =>
    rw [contentValue, hmessage] at h
    cases hrepeated : field.label_repeated with
    | false =>
      rw [hrepeated] at h
      exact Or.inl ⟨kvs, rfl, rfl, h⟩
    | true =>
      rw [hrepeated] at h
      obtain ⟨-, h⟩ := h
      cases hm : valueMessage pool message with
      | none =>
        rw [hm] at h
        exact absurd h id
      | some m =>
        rw [hm] at h
        exact Or.inr (Or.inr ⟨kvs, m, rfl, rfl, rfl, contentMap_iff.mp h⟩)
  | none | bool | int | float | str =>
    rw [contentValue] at h
    · rw [hmessage] at h
      cases h.1
    all_goals simp

theorem fields_by_name_mem {desc : Descriptor} {name : Text} {field : FieldDescriptor}
    (h : fields_by_name desc name = some field) : field ∈ desc := List.mem_of_find?_eq_some h

/-! ## Content without what is ignored -/

section

variable (pool : Pool)

mutual

/-- The content of a message without its ignored fields, in all of its parts. -/
def unignoredItems (message : Text) (kvs : Dict) : Dict :=
  match kvs with
  | [] => []
  | (k, v) :: kvs =>
    match fields_by_name (pool.messages message) k with
    | some field =>
      if field.opts.ignored then unignoredItems message kvs
      else (k, unignoredValue field v) :: unignoredItems message kvs
    | none => unignoredItems message kvs

def unignoredValue (field : FieldDescriptor) (value : Value) : Value :=
  match value with
  | .dict kvs =>
    match field.message_type, field.label_repeated with
    | none, _ => .dict kvs
    | some m, false => .dict (unignoredItems m kvs)
    | some m, true =>
      match valueMessage pool m with
      | some message => .dict (unignoredMap message kvs)
      | none => .dict kvs
  | .list vs =>
    match field.message_type with
    | none => .list vs
    | some m => .list (unignoredList m vs)
  | v => v

def unignoredList (message : Text) (values : List Value) : List Value :=
  match values with
  | [] => []
  | v :: vs => unignoredChild message v :: unignoredList message vs

def unignoredMap (message : Text) (kvs : Dict) : Dict :=
  match kvs with
  | [] => []
  | (k, v) :: kvs => (k, unignoredChild message v) :: unignoredMap message kvs

def unignoredChild (message : Text) (value : Value) : Value :=
  match value with
  | .dict kvs => .dict (unignoredItems message kvs)
  | v => v

end

end

theorem unignoredValue_leaf {field : FieldDescriptor} (h : field.message_type = none) (v : Value) :
    unignoredValue pool field v = v := by
  cases v with
  | dict | list => rw [unignoredValue, h]
  | none | bool | int | float | str => rw [unignoredValue] <;> simp

theorem unignoredList_eq (message : Text) (vs : List Value) :
    unignoredList pool message vs = vs.map (unignoredChild pool message) := by
  induction vs with
  | nil => rw [unignoredList, List.map_nil]
  | cons v vs ih => rw [unignoredList, ih, List.map_cons]

theorem unignoredMap_eq (message : Text) (kvs : Dict) : unignoredMap pool message kvs =
    kvs.map fun p => (p.1, unignoredChild pool message p.2) := by
  induction kvs with
  | nil => rw [unignoredMap, List.map_nil]
  | cons p kvs ih => rw [unignoredMap, ih, List.map_cons]

theorem mem_unignoredItems {message : Text} {kvs : Dict} {q : Text × Value} :
    q ∈ unignoredItems pool message kvs ↔ ∃ p ∈ kvs, ∃ field,
      fields_by_name (pool.messages message) p.1 = some field ∧ field.opts.ignored = false ∧
        q = (p.1, unignoredValue pool field p.2) := by
  induction kvs with
  | nil => simp [unignoredItems]
  | cons p kvs ih =>
    obtain ⟨k, v⟩ := p
    rw [unignoredItems]
    cases hfield : fields_by_name (pool.messages message) k with
    | none => simp [ih, hfield]
    | some field => cases hignored : field.opts.ignored <;> simp [ih, hfield, hignored]

theorem unignoredItems_keys (pool : Pool) (message : Text) (kvs : Dict) :
    ((unignoredItems pool message kvs).map (·.1)).Sublist (kvs.map (·.1)) := by
  induction kvs with
  | nil => simp [unignoredItems]
  | cons p kvs ih =>
    obtain ⟨k, v⟩ := p
    rw [unignoredItems, List.map_cons]
    split
    · split
      · exact ih.cons k
      · exact ih.cons_cons k
    · exact ih.cons k

section

variable (hnone : ∀ message, ∀ field ∈ pool.messages message, field.opts.ignored = false)

include hnone in
theorem unignoredItems_eq {message : Text} {kvs : Dict}
    (h : ∀ p ∈ kvs, ∀ field, contentValue pool leaf field p.2 →
      unignoredValue pool field p.2 = p.2)
    (hcontent : contentItems pool leaf message kvs) : unignoredItems pool message kvs = kvs := by
  induction kvs with
  | nil => rw [unignoredItems]
  | cons p kvs ih =>
    obtain ⟨k, v⟩ := p
    rw [contentItems] at hcontent
    obtain ⟨-, hvalue, hrest⟩ := hcontent
    rw [List.forall_mem_cons] at h
    rw [unignoredItems]
    cases hfield : fields_by_name (pool.messages message) k with
    | none =>
      rw [hfield] at hvalue
      exact hvalue.elim
    | some field =>
      rw [hfield] at hvalue
      have hkept := hnone message field (List.mem_of_find?_eq_some hfield)
      simp only [hkept, Bool.false_eq_true, if_false]
      rw [h.1 field hvalue, ih h.2 hrest]

include hnone in
/-- Where no field is ignored, content stays as it is. -/
theorem unignored_eq (v : Value) :
    (∀ field, contentValue pool leaf field v → unignoredValue pool field v = v) ∧
      ∀ message, contentChild pool leaf message v → unignoredChild pool message v = v := by
  induction v using value_induction with
  | none | bool | int | float | str =>
    exact ⟨fun _ _ => by rw [unignoredValue] <;> simp, fun _ h => by
      obtain ⟨_, ⟨⟩, -⟩ := contentChild_dict h⟩
  | list vs ih =>
    refine ⟨fun field hcontent => ?_, fun _ h => by obtain ⟨_, ⟨⟩, -⟩ := contentChild_dict h⟩
    rcases hmessage : field.message_type with _ | m
    · exact unignoredValue_leaf hmessage _
    · rw [contentValue, hmessage] at hcontent
      have hchildren := contentList_iff.mp hcontent.2.2
      rw [unignoredValue, hmessage]
      dsimp only
      rw [unignoredList_eq]
      congr 1
      exact (List.map_congr_left fun v hv => (ih v hv).2 m (hchildren v hv)).trans (List.map_id _)
  | dict kvs ih =>
    refine ⟨fun field hcontent => ?_, fun message hcontent => ?_⟩
    · rcases hmessage : field.message_type with _ | m
      · exact unignoredValue_leaf hmessage _
      · rw [unignoredValue, hmessage]
        rcases contentValue_message hmessage hcontent with ⟨_, ⟨⟩, hsingle, hitems⟩ | ⟨_, ⟨⟩, -⟩ |
          ⟨_, message, ⟨⟩, hrepeated, hentry, -, hchildren⟩
        · rw [hsingle]
          dsimp only
          rw [unignoredItems_eq hnone (fun p hp => (ih p hp).1) hitems]
        · rw [hrepeated]
          simp only [hentry]
          rw [unignoredMap_eq]
          congr 1
          refine (List.map_congr_left fun p hp => ?_).trans (List.map_id _)
          rw [(ih p hp).2 message (hchildren p hp)]
          rfl
    · obtain ⟨_, ⟨⟩, hitems⟩ := contentChild_dict hcontent
      rw [unignoredChild, unignoredItems_eq hnone (fun p hp => (ih p hp).1) hitems]

end

/-- The keys of content are the names of fields, so no two are one without their postfix. -/
theorem contentItems_bases (hpool : WellPlaced pool) {message : Text} {kvs : Dict}
    (h : contentItems pool leaf message kvs) :
    (∀ p ∈ kvs, Plain p.1 ∧ baseOf p.1 = p.1) ∧ (kvs.map fun p => baseOf p.1).Nodup := by
  obtain ⟨hnodup, hfields⟩ := contentItems_iff.mp h
  have hplain : ∀ p ∈ kvs, Plain p.1 ∧ baseOf p.1 = p.1 := by
    intro p hp
    obtain ⟨field, hfield, -⟩ := hfields p hp
    have hname := hpool.named message field (fields_by_name_mem hfield)
    rw [fields_by_name_name hfield] at hname
    exact ⟨hname, (splitKey_base (splitKey_name hname)).symm⟩
  refine ⟨hplain, ?_⟩
  rw [List.map_congr_left fun p hp => (hplain p hp).2]
  exact hnodup

end devcon_spark.codec.content
