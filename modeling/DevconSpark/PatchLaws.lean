-- The laws of a patch: what `pre_encode` writes, and what it names in the mask
-- of the payload.
import DevconSpark.Paths
import DevconSpark.RoundTrip

open py_text py_dict py_number py_value devcon_spark.exceptions devcon_spark.models
open devcon_spark.codec.descriptor devcon_spark.codec.time_utils
open devcon_spark.codec.unit_conversion devcon_spark.codec.processor

namespace devcon_spark.codec.content

/-! ## What is encoded -/

section
variable {pool : Pool} {env : Packages} {cv : UnitConverter} {filter_values : Bool}

/-- What the visit of an element that was not stripped has done. -/
theorem encodeElement_inv {element : OptionElement} {x : Value} {q : Text × Value}
    (h : encodeElement env cv filter_values element x = .ok (some q)) :
    stripped filter_values element.field.opts = false ∧ q.1 = element.base_key ∧
      ((∃ vs ws, x = .list vs ∧ q.2 = .list ws ∧
        List.Forall₂ (fun v w => encode_value env cv element v = .ok w)
          (vs.filter (! isNone ·)) ws) ∨
        ((∀ vs, x ≠ .list vs) ∧ encode_value env cv element x = .ok q.2)) := by
  by_cases hstrip : stripped filter_values element.field.opts = true
  · rw [encodeElement_stripped hstrip] at h
    cases h
  rw [Bool.not_eq_true] at hstrip
  refine ⟨hstrip, ?_⟩
  cases x with
  | none =>
    rw [encodeElement_none] at h
    cases h
  | list vs =>
    rw [encodeElement_list hstrip] at h
    obtain ⟨ws, hws, heq⟩ := map_eq_ok.mp h
    cases heq
    exact ⟨rfl, Or.inl ⟨vs, ws, rfl, rfl, forall₂_of_mapM hws⟩⟩
  | bool | int | float | str | dict =>
    rw [encodeElement_scalar hstrip (by simp) rfl] at h
    obtain ⟨w, hw, heq⟩ := map_eq_ok.mp h
    cases heq
    exact ⟨rfl, Or.inr ⟨by simp, hw⟩⟩

theorem encodeEntry_base {message : Text} {parent : Address} {p q : Text × Value}
    (h : visitEntry pool (encodeElement env cv filter_values) (some message) parent p =
      .ok (some q)) : baseOf q.1 = baseOf p.1 := by
  obtain ⟨postfixed, field, walked, hsplit, -, -, hvisit⟩ := visitEntry_inv h
  rw [(encodeElement_inv hvisit).2.1]
  exact baseOf_splitKey hsplit

/-- What is encoded of a quantity or of a link is what its object holds. -/
def keepsMessages (field : FieldDescriptor) : Bool :=
  field.opts.unit = .NotSet && field.opts.objtype.isNone

theorem applyIf_keeps {P : Value → Prop} {b : Bool} {f : Value → Except Exn Value} {v w : Value}
    (hf : ∀ x, f v = .ok x → P x) (hv : P v) (h : applyIf b f v = .ok w) : P w := by
  cases b with
  | true => exact hf w h
  | false =>
    obtain rfl := Except.ok.inj h
    exact hv

theorem serialize_seconds {v w : Value}
    (h : serialize_datetime env.ciso8601 env.localOffset env.repr v .SECONDS = .ok w) :
    ∃ i, w = .int i := by
  obtain ⟨dt, -, h⟩ := bind_eq_ok.mp h
  cases dt with
  | none => exact ⟨0, (Except.ok.inj h).symm⟩
  | some dt => exact ⟨_, (Except.ok.inj h).symm⟩

theorem ipv4_to_int_int {v w : Value} (h : ipv4_to_int env v = .ok w) : ∃ i, w = .int i := by
  obtain ⟨n, -, h⟩ := bind_eq_ok.mp h
  obtain ⟨m, -, h⟩ := bind_eq_ok.mp h
  exact ⟨m, (Except.ok.inj h).symm⟩

/-- What holds of numbers and texts, and of what is scaled, holds of what a value is encoded as. -/
theorem encode_value_keeps {P : Value → Prop} (hint : ∀ i, P (.int i)) (hstr : ∀ t, P (.str t))
    (htimes : ∀ v n w, P v → timesInt v n = .ok w → P w) {element : OptionElement}
    (hkeeps : keepsMessages element.field = true) {v w : Value} (hv : P v)
    (h : encode_value env cv element v = .ok w) : P w := by
  unfold keepsMessages at hkeeps
  rw [Bool.and_eq_true, decide_eq_true_eq, Option.isNone_iff_eq_none] at hkeeps
  unfold encode_value at h
  obtain ⟨v₁, hunit, hrest₁⟩ := bind_eq_ok.mp h
  rw [hkeeps.1] at hunit
  cases hunit
  obtain ⟨v₂, hlink, hrest₂⟩ := bind_eq_ok.mp hrest₁
  rw [hkeeps.2] at hlink
  cases hlink
  obtain ⟨v₃, hscale, hrest₃⟩ := bind_eq_ok.mp hrest₂
  have hv₃ : P v₃ := applyIf_keeps (fun x hx => htimes v _ x hv hx) hv hscale
  obtain ⟨v₄, hhexed, hrest₄⟩ := bind_eq_ok.mp hrest₃
  have hv₄ : P v₄ := by
    refine applyIf_keeps (fun x hx => ?_) hv₃ hhexed
    obtain ⟨bs, -, rfl⟩ := map_eq_ok.mp hx
    exact hint _
  obtain ⟨v₅, hhexstr, hrest₅⟩ := bind_eq_ok.mp hrest₄
  have hv₅ : P v₅ := by
    refine applyIf_keeps (fun x hx => ?_) hv₄ hhexstr
    obtain ⟨bs, -, rfl⟩ := map_eq_ok.mp hx
    exact hstr _
  obtain ⟨v₆, hipv4, hrest₆⟩ := bind_eq_ok.mp hrest₅
  have hv₆ : P v₆ := by
    refine applyIf_keeps (fun x hx => ?_) hv₅ hipv4
    obtain ⟨i, rfl⟩ := ipv4_to_int_int hx
    exact hint i
  obtain ⟨v₇, hdatetime, hround⟩ := bind_eq_ok.mp hrest₆
  have hv₇ : P v₇ := by
    refine applyIf_keeps (fun x hx => ?_) hv₆ hdatetime
    obtain ⟨i, rfl⟩ := serialize_seconds hx
    exact hint i
  refine applyIf_keeps (fun x hx => ?_) hv₇ hround
  obtain ⟨i, -, rfl⟩ := map_eq_ok.mp hx
  exact hint i

theorem timesInt_not_dict {v w : Value} {n : Nat} (h : timesInt v n = .ok w) (kvs : Dict) :
    w ≠ .dict kvs := by
  cases v <;> cases h <;> simp

/-- A message is encoded from that message. -/
theorem encode_dict {element : OptionElement} (hkeeps : keepsMessages element.field = true)
    {v : Value} {kvs : Dict} (h : encode_value env cv element v = .ok (.dict kvs)) :
    v = .dict kvs := by
  have hcases : (Value.dict kvs = v) ∨ ∀ kvs', Value.dict kvs ≠ .dict kvs' :=
    encode_value_keeps (P := fun w => w = v ∨ ∀ kvs, w ≠ .dict kvs) (fun i => Or.inr (by simp))
      (fun t => Or.inr (by simp)) (fun _ _ _ _ hw => Or.inr (timesInt_not_dict hw)) hkeeps
      (Or.inl rfl) h
  rcases hcases with heq | hne
  · exact heq.symm
  · exact absurd rfl (hne kvs)

/-- A value that is no list is not encoded as a list. -/
theorem encode_not_list {element : OptionElement} (hkeeps : keepsMessages element.field = true)
    {v w : Value} (hv : ∀ vs, v ≠ .list vs) (h : encode_value env cv element v = .ok w) :
    ∀ vs, w ≠ .list vs := by
  refine encode_value_keeps (P := fun w => ∀ vs, w ≠ .list vs) (by simp) (by simp) ?_ hkeeps hv h
  intro v n w hv hw
  cases v with
  | list vs => exact absurd rfl (hv vs)
  | bool | int | float | str => cases hw; simp
  | none | dict => cases hw

/-- A message in an encoded value was in that value before. -/
theorem encode_holds {element : OptionElement} (hkeeps : keepsMessages element.field = true)
    {x : Value} {q : Text × Value} {m : Text} {sub : Dict}
    (h : encodeElement env cv filter_values element x = .ok (some q))
    (hholds : Holds pool element.field q.2 m sub) : Holds pool element.field x m sub := by
  obtain ⟨k, w⟩ := q
  rcases (encodeElement_inv h).2.2 with ⟨vs, ws, rfl, rfl, hall⟩ | ⟨hlist, hw⟩
  · cases hholds with
    | list hmessage hrepeated hmem =>
      obtain ⟨v, hv, hencode⟩ := forall₂_right hall hmem
      obtain rfl := encode_dict hkeeps hencode
      exact .list hmessage hrepeated (List.mem_filter.mp hv).1
  · cases hholds with
    | single hmessage hsingle =>
      rw [encode_dict hkeeps hw]
      exact .single hmessage hsingle
    | map hentry hrepeated hmessage hmem =>
      rw [encode_dict hkeeps hw]
      exact .map hentry hrepeated hmessage hmem
    | list => exact absurd rfl (encode_not_list hkeeps hlist hw _)

/-- No field in content is one that is stripped. -/
def Clean (pool : Pool) (message : Text) (content : Dict) : Prop :=
  ∀ m sub, Within pool keepsMessages message content m sub → ∀ p ∈ sub, ∀ field,
    fieldAt pool m p.1 = some field → stripped true field.opts = false

theorem encoded_is_clean {message m : Text} {obj sub : Dict}
    (hwithin : Within pool keepsMessages message obj m sub) {raw : Dict} {parent : Address}
    (hdistinct : Distinct pool message raw)
    (h : walkItems pool (encodeElement env cv filter_values) (some message) parent raw raw [] =
      .ok obj) {p : Text × Value} (hp : p ∈ sub) {field : FieldDescriptor}
    (hfield : fieldAt pool m p.1 = some field) : stripped filter_values field.opts = false := by
  induction hwithin generalizing raw parent with
  | self =>
    obtain ⟨-, hobj⟩ := walkItems_inv hdistinct.bases (fun p _ q => encodeEntry_base) h
    obtain ⟨p₀, hp₀, hvisit⟩ := (hobj p).mp hp
    have hbase := encodeEntry_base hvisit
    obtain ⟨postfixed, field', walked, -, hfield', -, hencode⟩ := visitEntry_inv hvisit
    unfold fieldAt at hfield hfield'
    rw [hbase, hfield'] at hfield
    cases hfield
    exact (encodeElement_inv hencode).1
  | @inner message obj k v f m' sub' _ _ hmem hf hkeeps hholds _ ih =>
    obtain ⟨-, hobj⟩ := walkItems_inv hdistinct.bases (fun p _ q => encodeEntry_base) h
    obtain ⟨⟨k₀, v₀⟩, hp₀, hvisit⟩ := (hobj _).mp hmem
    have hbase := encodeEntry_base hvisit
    obtain ⟨postfixed, field', walked, -, hfield', hwalked, hencode⟩ := visitEntry_inv hvisit
    have hsame := hf
    unfold fieldAt at hsame hfield'
    rw [hbase, hfield'] at hsame
    cases hsame
    obtain ⟨sub₀, address, hholds₀, hwalk⟩ :=
      walkValue_holds hwalked (encode_holds hkeeps hencode hholds)
    exact ih (hdistinct.inner hp₀ hfield' hholds₀) hwalk hp hfield

end

/-! ## The elements of a walk -/

section
variable {pool : Pool} {filter_values : Bool}

/-- An element is that of an entry, or one of the parts of its value. -/
theorem entry_of_element {message : Option Text} {parent : Address} {kvs : Dict}
    {e : OptionElement} (h : e ∈ elementsOfItems pool message parent kvs) :
    ∃ p ∈ kvs, ∃ field, fieldOf pool message (baseOf p.1) = .ok field ∧
      (e ∈ elementsOfValue pool field (parent ++ [some field.number]) p.2 ∨
        (e.field = field ∧
          e.address = elementAddress field (parent ++ [some field.number]) p.2)) := by
  induction kvs with
  | nil => simp [elementsOfItems] at h
  | cons p kvs ih =>
    obtain ⟨key, value⟩ := p
    rw [elementsOfItems] at h
    rcases hsplit : splitKey key with err | ⟨base_key, postfixed⟩
    · simp [hsplit] at h
    obtain rfl := splitKey_base hsplit
    rcases hfield : fieldOf pool message (baseOf key) with err | field
    · simp [hsplit, hfield] at h
    simp only [hsplit, hfield, List.mem_append, List.mem_cons] at h
    rcases h with hbelow | rfl | hrest
    · exact ⟨(key, value), List.mem_cons_self, field, hfield, Or.inl hbelow⟩
    · exact ⟨(key, value), List.mem_cons_self, field, hfield, Or.inr ⟨rfl, rfl⟩⟩
    · obtain ⟨p, hp, hentry⟩ := ih hrest
      exact ⟨p, List.mem_cons_of_mem _ hp, hentry⟩

/-- Each entry has its element, and the elements of its value. -/
theorem element_of_entry {message : Option Text} (parent : Address) {kvs : Dict}
    (hall : ∀ p ∈ kvs, ∃ postfixed field, splitKey p.1 = .ok (baseOf p.1, postfixed) ∧
      fieldOf pool message (baseOf p.1) = .ok field) {p : Text × Value} (hp : p ∈ kvs)
    {field : FieldDescriptor} (hfield : fieldOf pool message (baseOf p.1) = .ok field) :
    (∀ e ∈ elementsOfValue pool field (parent ++ [some field.number]) p.2,
      e ∈ elementsOfItems pool message parent kvs) ∧
    ∃ e ∈ elementsOfItems pool message parent kvs, e.field = field ∧
      e.address = elementAddress field (parent ++ [some field.number]) p.2 := by
  induction kvs with
  | nil => simp at hp
  | cons q kvs ih =>
    obtain ⟨key, value⟩ := q
    obtain ⟨postfixed, field', hsplit, hfield'⟩ := hall (key, value) List.mem_cons_self
    rw [elementsOfItems]
    simp only [hsplit, hfield', List.mem_append, List.mem_cons]
    rcases List.mem_cons.mp hp with rfl | hp
    · rw [hfield] at hfield'
      cases hfield'
      exact ⟨fun e he => Or.inl he, _, Or.inr (Or.inl rfl), rfl, rfl⟩
    · obtain ⟨hbelow, e, he, hown⟩ := ih (fun p hp => hall p (List.mem_cons_of_mem _ hp)) hp
      exact ⟨fun e he => Or.inr (Or.inr (hbelow e he)), e, Or.inr (Or.inr he), hown⟩

/-- What the addresses of the elements in a value begin with. -/
def Extends (pool : Pool) (v : Value) : Prop :=
  (∀ field address, ∀ e ∈ elementsOfValue pool field address v, address <+: e.address) ∧
    ∀ message address, ∀ e ∈ elementsOfChild pool message address v, address <+: e.address

theorem elementsOfItems_below {kvs : Dict} (h : ∀ p ∈ kvs, Extends pool p.2)
    {message : Option Text} {parent : Address} {e : OptionElement}
    (he : e ∈ elementsOfItems pool message parent kvs) : parent <+: e.address := by
  obtain ⟨p, hp, field, -, hbelow | ⟨-, haddress⟩⟩ := entry_of_element he
  · exact (List.prefix_append parent _).trans ((h p hp).1 field _ e hbelow)
  · rw [haddress]
    exact (List.prefix_append parent _).trans (elementAddress_goes_on field _ p.2)

theorem mem_elementsOfList {message : Option Text} {address : Address} {vs : List Value}
    {e : OptionElement} (h : e ∈ elementsOfList pool message address vs) :
    ∃ v ∈ vs, e ∈ elementsOfChild pool message address v := by
  induction vs with
  | nil => simp [elementsOfList] at h
  | cons v vs ih =>
    rw [elementsOfList, List.mem_append] at h
    rcases h with h | h
    · exact ⟨v, List.mem_cons_self, h⟩
    · obtain ⟨w, hw, he⟩ := ih h
      exact ⟨w, List.mem_cons_of_mem v hw, he⟩

theorem mem_elementsOfMap {message : Option Text} {address : Address} {kvs : Dict}
    {e : OptionElement} (h : e ∈ elementsOfMap pool message address kvs) :
    ∃ p ∈ kvs, e ∈ elementsOfChild pool message address p.2 := by
  induction kvs with
  | nil => simp [elementsOfMap] at h
  | cons p kvs ih =>
    obtain ⟨k, v⟩ := p
    rw [elementsOfMap, List.mem_append] at h
    rcases h with h | h
    · exact ⟨(k, v), List.mem_cons_self, h⟩
    · obtain ⟨q, hq, he⟩ := ih h
      exact ⟨q, List.mem_cons_of_mem _ hq, he⟩

theorem elements_extend (v : Value) : Extends pool v := by
  induction v using value_induction with
  | none | bool | int | float | str => simp [Extends, elementsOfValue, elementsOfChild]
  | list vs ih =>
    refine ⟨fun field address e he => ?_, by simp [elementsOfChild]⟩
    rw [elementsOfValue] at he
    split at he
    · obtain ⟨v, hv, he⟩ := mem_elementsOfList he
      exact (List.prefix_append address _).trans ((ih v hv).2 _ _ e he)
    · simp at he
  | dict kvs ih =>
    refine ⟨fun field address e he => ?_, fun message address e he => ?_⟩
    · rw [elementsOfValue] at he
      split at he
      · simp at he
      · split at he
        · obtain ⟨p, hp, he⟩ := mem_elementsOfMap he
          exact (List.prefix_append address _).trans ((ih p hp).2 _ _ e he)
        · simp at he
      · exact elementsOfItems_below ih he
    · rw [elementsOfChild] at he
      exact elementsOfItems_below ih he

/-- What is in a value is in a submessage, or has an index in its address. -/
theorem mem_elementsOfValue {field : FieldDescriptor} {address : Address} {v : Value}
    {e : OptionElement} (h : e ∈ elementsOfValue pool field address v) :
    (∃ m sub, v = .dict sub ∧ field.message_type = some m ∧ field.label_repeated = false ∧
      e ∈ elementsOfItems pool (some m) address sub) ∨ none ∈ e.address := by
  have hindex : address ++ [none] <+: e.address → none ∈ e.address :=
    fun hpre => hpre.subset (List.mem_append_right address List.mem_cons_self)
  cases v with
  | none | bool | int | float | str => simp [elementsOfValue] at h
  | list vs =>
    rw [elementsOfValue] at h
    split at h
    · obtain ⟨v, -, he⟩ := mem_elementsOfList h
      exact Or.inr (hindex ((elements_extend v).2 _ _ e he))
    · simp at h
  | dict kvs =>
    rw [elementsOfValue] at h
    split at h
    · simp at h
    · split at h
      · obtain ⟨p, -, he⟩ := mem_elementsOfMap h
        exact Or.inr (hindex ((elements_extend p.2).2 _ _ e he))
      · simp at h
    · rename_i m hmessage hsingle
      exact Or.inl ⟨m, kvs, rfl, hmessage, hsingle, h⟩

/-! ## What the mask names -/

theorem mapM_id_eq_some {address : Address} {tags : List Nat} :
    address.mapM id = some tags ↔ address = tags.map some := by
  induction address generalizing tags with
  | nil => cases tags <;> simp
  | cons a address ih =>
    rw [List.mapM_cons]
    cases a with
    | none => cases tags <;> simp
    | some n =>
      cases tags with
      | nil => simp [Option.bind_eq_some_iff]
      | cons t tags => simp [Option.bind_eq_some_iff, ih, and_comm]

theorem patchField_eq_some {element : OptionElement} {mask : MaskField} :
    patchField filter_values element = some mask ↔
      stripped filter_values element.field.opts = false ∧
        ∃ tags : List Nat, element.address = tags.map some ∧ mask = { address := tags.map Int.ofNat } := by
  unfold patchField
  by_cases hstrip : stripped filter_values element.field.opts = true
  · rw [if_pos hstrip, hstrip]
    simp
  · rw [if_neg hstrip]
    rw [Bool.not_eq_true] at hstrip
    simp only [hstrip, true_and, Option.map_eq_some_iff, mapM_id_eq_some, eq_comm (a := mask)]

/-- What is in a submessage that is stripped is stripped, and no two fields of a message have
one number. -/
structure Patchable (pool : Pool) : Prop where
  whole : ∀ message, ∀ field ∈ pool.messages message, ∀ m, field.message_type = some m →
    field.label_repeated = false → stripped true field.opts = true →
      ∀ member ∈ pool.messages m, stripped true member.opts = true
  numbered : Numbered pool

theorem fieldAt_of_fieldOf {message key : Text} {field : FieldDescriptor}
    (h : fieldOf pool (some message) (baseOf key) = .ok field) :
    fieldAt pool message key = some field := by
  unfold fieldOf at h
  unfold fieldAt
  dsimp only at h
  split at h
  · rename_i heq
    cases h
    exact heq
  · cases h

/-- Nothing is named in a message whose fields are all stripped. -/
theorem stripped_below (hpool : Patchable pool) (v : Value) : ∀ kvs, v = .dict kvs →
    ∀ message parent, (∀ field ∈ pool.messages message, stripped true field.opts = true) →
      ∀ e ∈ elementsOfItems pool (some message) parent kvs, patchField true e = none := by
  induction v using value_induction with
  | none | bool | int | float | str | list => intro kvs hkvs; cases hkvs
  | dict kvs ih =>
    rintro _ ⟨⟩ message parent hall e he
    obtain ⟨p, hp, field, hfield, hbelow | ⟨hown, -⟩⟩ := entry_of_element he
    · have hmem := fields_by_name_mem (fieldAt_of_fieldOf hfield)
      rcases mem_elementsOfValue hbelow with ⟨m, sub, hsub, hmessage, hsingle, he⟩ | hnone
      · exact ih p hp sub hsub m _ (hpool.whole message field hmem m hmessage hsingle
          (hall field hmem)) e he
      · rw [Option.eq_none_iff_forall_ne_some]
        intro mask hmask
        obtain ⟨-, tags, haddress, -⟩ := patchField_eq_some.mp hmask
        rw [haddress] at hnone
        simp at hnone
    · have hmem := fields_by_name_mem (fieldAt_of_fieldOf hfield)
      rw [patchField, hown, hall field hmem]
      rfl

/-- A leaf that is written: no field on its path is stripped. -/
def Written (pool : Pool) (message : Text) (kvs : Dict) (address : List Nat) : Prop :=
  ∃ parents field v, At pool message kvs parents field v ∧ Leaf field v ∧
    (∀ f ∈ parents ++ [field], stripped true f.opts = false) ∧ address = numbers parents field

/-- What the mask names is a leaf that is written. -/
theorem named_is_written (hpool : Patchable pool) (v : Value) : ∀ kvs, v = .dict kvs →
    ∀ message (parent : List Nat) e mask, e ∈ elementsOfItems pool (some message)
      (parent.map some) kvs → patchField true e = some mask →
        ∃ address, Written pool message kvs address ∧
          mask = { address := (parent ++ address).map Int.ofNat } := by
  induction v using value_induction with
  | none | bool | int | float | str | list => intro kvs hkvs; cases hkvs
  | dict kvs ih =>
    rintro _ ⟨⟩ message parent e mask he hmask
    obtain ⟨hstrip, tags, htags, rfl⟩ := patchField_eq_some.mp hmask
    obtain ⟨p, hp, field, hfieldOf, hentry⟩ := entry_of_element he
    have hfield := fieldAt_of_fieldOf hfieldOf
    have hparent : parent.map some ++ [some field.number] =
        (parent ++ [field.number]).map some := by
      simp
    rw [hparent] at hentry
    rcases hentry with hbelow | ⟨hown, haddress⟩
    · rcases mem_elementsOfValue hbelow with ⟨m, sub, hsub, hmessage, hsingle, he⟩ | hnone
      · by_cases hfieldstrip : stripped true field.opts = true
        · have hnot := stripped_below hpool (.dict sub) sub rfl m _ (hpool.whole message field
            (fields_by_name_mem hfield) m hmessage hsingle hfieldstrip) e he
          cases hnot.symm.trans hmask
        · rw [Bool.not_eq_true] at hfieldstrip
          obtain ⟨address, ⟨parents, f, w, hat, hleaf, hwritten, rfl⟩, hmask⟩ :=
            ih p hp sub hsub m (parent ++ [field.number]) e _ he hmask
          refine ⟨_, ⟨field :: parents, f, w, ?_, hleaf, ?_, rfl⟩, ?_⟩
          · exact .inner (hsub ▸ hp) hfield hmessage hsingle hat
          · exact List.forall_mem_cons.mpr ⟨hfieldstrip, hwritten⟩
          · rw [hmask, List.append_assoc]
            rfl
      · rw [htags] at hnone
        simp at hnone
    · have hleaf : Leaf field p.2 := by
        by_contra hnot
        have hnone := elementAddress_message hnot ((parent ++ [field.number]).map some)
        rw [← haddress, htags] at hnone
        simp at hnone
      rw [elementAddress_leaf hleaf, htags,
        List.map_inj_right (fun _ _ h => Option.some.inj h)] at haddress
      subst haddress
      exact ⟨_, ⟨[], field, p.2, .here hp hfield, hleaf, by simpa [hown] using hstrip, rfl⟩, rfl⟩

/-- Where a walk returned, each entry has a field. -/
theorem fields_of_walk {visit : Visit} {message : Text} {parent : Address} {kvs : Dict}
    (h : ∀ p ∈ kvs, ∃ out, visitEntry pool visit (some message) parent p = .ok out) :
    ∀ p ∈ kvs, ∃ postfixed field, splitKey p.1 = .ok (baseOf p.1, postfixed) ∧
      fieldOf pool (some message) (baseOf p.1) = .ok field := by
  intro p hp
  obtain ⟨out, hout⟩ := h p hp
  obtain ⟨postfixed, field, walked, hsplit, hfield, -, -⟩ := visitEntry_inv hout
  exact ⟨postfixed, field, hsplit, fieldOf_some pool hfield⟩

/-- A leaf that is written is named in the mask, where the walk returns. -/
theorem written_is_named {env : Packages} {cv : UnitConverter} {message : Text} {kvs : Dict}
    {parents : List FieldDescriptor} {field : FieldDescriptor} {v : Value}
    (hat : At pool message kvs parents field v) (hleaf : Leaf field v)
    (hwritten : ∀ f ∈ parents ++ [field], stripped true f.opts = false) (parent : List Nat)
    (hdistinct : Distinct pool message kvs) {obj : Dict}
    (hwalk : walkItems pool (encodeElement env cv true) (some message) (parent.map some) kvs kvs
      [] = .ok obj) :
    ∃ e ∈ elementsOfItems pool (some message) (parent.map some) kvs, patchField true e =
      some { address := (parent ++ numbers parents field).map Int.ofNat } := by
  induction hat generalizing parent obj with
  | @here message kvs k v field hmem hfield =>
    obtain ⟨hvisits, -⟩ := walkItems_inv hdistinct.bases (fun p _ q => encodeEntry_base) hwalk
    obtain ⟨-, e, he, rfl, haddress⟩ := element_of_entry (parent.map some)
      (fields_of_walk hvisits) hmem (fieldOf_some pool hfield)
    refine ⟨e, he, patchField_eq_some.mpr ⟨?_, parent ++ [e.field.number], ?_, rfl⟩⟩
    · exact hwritten e.field (by simp)
    · rw [haddress, elementAddress_leaf hleaf]
      simp
  | @inner message kvs k sub f m parents field v hmem hfield hmessage hsingle hat ih =>
    obtain ⟨hvisits, -⟩ := walkItems_inv hdistinct.bases (fun p _ q => encodeEntry_base) hwalk
    obtain ⟨hbelow, -⟩ := element_of_entry (parent.map some)
      (fields_of_walk hvisits) hmem (fieldOf_some pool hfield)
    obtain ⟨out, hout⟩ := hvisits _ hmem
    obtain ⟨postfixed, f', walked, -, hfield', hwalked, -⟩ := visitEntry_inv hout
    cases hfield.symm.trans hfield'
    obtain ⟨obj', -, hinner⟩ := walkSingle_inv hmessage hsingle hwalked
    have hparent : parent.map some ++ [some f.number] = (parent ++ [f.number]).map some := by
      simp
    rw [hparent] at hinner hbelow
    obtain ⟨e, he, hmask⟩ := ih hleaf (fun g hg => hwritten g (List.mem_cons_of_mem f hg))
      (parent ++ [f.number]) (hdistinct.inner hmem hfield (.single hmessage hsingle)) hinner
    refine ⟨e, hbelow e ?_, ?_⟩
    · rw [elementsOfValue]
      simp only [hmessage, hsingle]
      exact he
    · rw [hmask, List.append_assoc]
      rfl

/-! ## What stays where it was -/

/-- A value that is encoded as it is. -/
def keepsValue (field : FieldDescriptor) : Bool :=
  keepsMessages field && field.opts.scale = 0 && ! field.opts.hexed && ! field.opts.hexstr &&
    ! field.opts.ipv4address && ! field.opts.datetime && ! isIntType field.type

/-- The options that change values stand on fields that are no submessage. -/
def KeepsSubmessages (pool : Pool) : Prop :=
  ∀ message, ∀ field ∈ pool.messages message, field.message_type.isSome = true →
    field.label_repeated = false → keepsValue field = true

/-- An address at which content has a leaf. -/
def HasLeaf (pool : Pool) (message : Text) (content : Dict) (address : List Nat) : Prop :=
  ∃ parents field v, At pool message content parents field v ∧ Leaf field v ∧
    address = numbers parents field

/-- A field that is explicitly set to `None`, and that no option strips. -/
def Nulled (pool : Pool) (message : Text) (kvs : Dict) (address : List Nat) : Prop :=
  ∃ parents field, At pool message kvs parents field .none ∧
    (∀ f ∈ parents ++ [field], stripped true f.opts = false) ∧ address = numbers parents field

theorem encode_value_keepsValue {env : Packages} {cv : UnitConverter} {element : OptionElement}
    (h : keepsValue element.field = true) (v : Value) :
    encode_value env cv element v = .ok v := by
  unfold keepsValue keepsMessages at h
  simp only [Bool.and_eq_true, decide_eq_true_eq, Bool.not_eq_true', Option.isNone_iff_eq_none] at h
  obtain ⟨⟨⟨⟨⟨⟨⟨hunit, hlink⟩, hscale⟩, hhexed⟩, hhexstr⟩, hipv4⟩, hdatetime⟩, hround⟩ := h
  unfold encode_value
  simp only [hunit, hlink, hscale, hhexed, hhexstr, hipv4, hdatetime, hround]
  rfl

/-- A submessage that is visited is left as it is. -/
theorem encodeElement_submessage {env : Packages} {cv : UnitConverter} {element : OptionElement}
    {kvs : Dict} {out : Option (Text × Value)}
    (h : encodeElement env cv true element (.dict kvs) = .ok out)
    (hkeeps : keepsValue element.field = true) (hstrip : stripped true element.field.opts = false) :
    out = some (element.base_key, .dict kvs) := by
  rw [encodeElement_scalar hstrip (by simp) rfl, encode_value_keepsValue hkeeps] at h
  exact (Except.ok.inj h).symm

/-- A value that is walked is still one. -/
theorem walked_not_none {visit : Visit} {field : FieldDescriptor} {address : Address} {v w : Value}
    (hv : v ≠ .none) (h : walkValue pool visit field address v = .ok w) : w ≠ .none := by
  rintro rfl
  cases v with
  | none => exact hv rfl
  | bool | int | float =>
    rw [walkValue, walkScalar] at h
    split at h
    · cases h
    · split at h <;> cases h
  | str =>
    rw [walkValue] at h
    split at h <;> cases h
  | list vs =>
    rw [walkValue] at h
    split at h
    · cases h
    · split at h
      · obtain ⟨ws, -, hws⟩ := map_eq_ok.mp h
        cases hws
      · cases h
  | dict kvs =>
    cases hmessage : field.message_type with
    | none =>
      rw [walkValue] at h
      simp only [hmessage] at h
      cases h
    | some m =>
      cases hrepeated : field.label_repeated with
      | true =>
        obtain ⟨_, _, -, hw, -⟩ := walkMap_inv hmessage hrepeated h
        cases hw
      | false =>
        obtain ⟨_, hw, -⟩ := walkSingle_inv hmessage hrepeated h
        cases hw

/-- What is not stripped, and not `None`, is written. -/
theorem encodeElement_writes {env : Packages} {cv : UnitConverter} {element : OptionElement}
    {v : Value} {out : Option (Text × Value)} (hstrip : stripped true element.field.opts = false)
    (hv : v ≠ .none) (h : encodeElement env cv true element v = .ok out) :
    ∃ q, out = some q := by
  cases v with
  | none => exact absurd rfl hv
  | list vs =>
    rw [encodeElement_list hstrip] at h
    obtain ⟨ws, -, hws⟩ := map_eq_ok.mp h
    exact ⟨_, hws.symm⟩
  | bool | int | float | str | dict =>
    rw [encodeElement_scalar hstrip (by simp) rfl] at h
    obtain ⟨w, -, hw⟩ := map_eq_ok.mp h
    exact ⟨_, hw.symm⟩

section
variable {env : Packages} {cv : UnitConverter}

/-- A leaf that is not stripped, and not `None`, stands where it stood. -/
theorem leaf_remains (hkeeps : KeepsSubmessages pool) {message : Text} {kvs : Dict}
    {parents : List FieldDescriptor} {field : FieldDescriptor} {v : Value}
    (hat : At pool message kvs parents field v) (hleaf : Leaf field v) (hv : v ≠ .none)
    (hwritten : ∀ f ∈ parents ++ [field], stripped true f.opts = false) {parent : Address}
    (hdistinct : Distinct pool message kvs) {obj : Dict}
    (hwalk : walkItems pool (encodeElement env cv true) (some message) parent kvs kvs [] =
      .ok obj) : ∃ w, At pool message obj parents field w ∧ Leaf field w := by
  induction hat generalizing parent obj with
  | @here message kvs k v field hmem hfield =>
    obtain ⟨hvisits, hobj⟩ := walkItems_inv hdistinct.bases (fun p _ q => encodeEntry_base) hwalk
    obtain ⟨out, hout⟩ := hvisits _ hmem
    obtain ⟨postfixed, field', walked, -, hfield', hwalked, hvisit⟩ := visitEntry_inv hout
    cases hfield.symm.trans hfield'
    obtain ⟨⟨k', w⟩, rfl⟩ := encodeElement_writes (hwritten field (by simp))
      (walked_not_none hv hwalked) hvisit
    have hsame : fieldAt pool message k' = some field := by
      have hbase : baseOf k' = baseOf k := encodeEntry_base hout
      unfold fieldAt at hfield ⊢
      rw [hbase, hfield]
    refine ⟨w, .here ((hobj _).mpr ⟨_, hmem, hout⟩) hsame, ?_⟩
    rcases hleaf with hscalar | hrepeated | hnone
    · exact Or.inl hscalar
    · exact Or.inr (Or.inl hrepeated)
    · exact absurd hnone hv
  | @inner message kvs k sub f m parents field v hmem hfield hmessage hsingle hat ih =>
    obtain ⟨hvisits, hobj⟩ := walkItems_inv hdistinct.bases (fun p _ q => encodeEntry_base) hwalk
    obtain ⟨out, hout⟩ := hvisits _ hmem
    obtain ⟨postfixed, f', walked, -, hfield', hwalked, hvisit⟩ := visitEntry_inv hout
    cases hfield.symm.trans hfield'
    obtain ⟨obj', rfl, hinner⟩ := walkSingle_inv hmessage hsingle hwalked
    have hkept := hkeeps message f (fields_by_name_mem hfield) (by rw [hmessage]; rfl) hsingle
    obtain rfl := encodeElement_submessage hvisit hkept (hwritten f (by simp))
    obtain ⟨w, hw, hleafw⟩ := ih hleaf hv (fun g hg => hwritten g (List.mem_cons_of_mem f hg))
      (hdistinct.inner hmem hfield (.single hmessage hsingle)) hinner
    have hsame : fieldAt pool message (baseOf k) = some f := by
      have hbase : baseOf (baseOf k) = baseOf k := encodeEntry_base hout
      unfold fieldAt at hfield ⊢
      rw [hbase, hfield]
    exact ⟨w, .inner ((hobj _).mpr ⟨_, hmem, hout⟩) hsame hmessage hsingle hw, hleafw⟩

/-- A leaf that remains was one before, and no field on its path is stripped. -/
theorem remaining_was_leaf (hkeeps : KeepsSubmessages pool) {message : Text} {kvs : Dict}
    {parents : List FieldDescriptor} {field : FieldDescriptor} {w : Value} {obj : Dict}
    (hat : At pool message obj parents field w) (hleaf : Leaf field w) {parent : Address}
    (hdistinct : Distinct pool message kvs)
    (hwalk : walkItems pool (encodeElement env cv true) (some message) parent kvs kvs [] =
      .ok obj) : Written pool message kvs (numbers parents field) := by
  induction hat generalizing parent kvs with
  | @here message obj k w field hmem hfield =>
    obtain ⟨-, hobj⟩ := walkItems_inv hdistinct.bases (fun p _ q => encodeEntry_base) hwalk
    obtain ⟨⟨k₀, v₀⟩, hmem₀, hvisited⟩ := (hobj _).mp hmem
    have hbase := encodeEntry_base hvisited
    obtain ⟨postfixed, field', walked, -, hfield', hwalked, hvisit⟩ := visitEntry_inv hvisited
    have hsame := hfield
    unfold fieldAt at hsame hfield'
    rw [hbase, hfield'] at hsame
    cases hsame
    obtain ⟨hstrip, -, -⟩ := encodeElement_inv hvisit
    refine ⟨[], field, v₀, .here hmem₀ hfield', ?_, by simpa using hstrip, rfl⟩
    by_contra hnot
    unfold Leaf at hnot
    rw [not_or, not_or] at hnot
    obtain ⟨m, hmessage⟩ := Option.ne_none_iff_exists'.mp hnot.1
    have hsingle : field.label_repeated = false := by simpa using hnot.2.1
    cases v₀ with
    | dict sub =>
      obtain ⟨obj', rfl, -⟩ := walkSingle_inv hmessage hsingle hwalked
      have hsome : field.message_type.isSome = true := by
        rw [hmessage]
        rfl
      have hkept := hkeeps message field (fields_by_name_mem hfield') hsome hsingle
      cases encodeElement_submessage hvisit hkept hstrip
      simp [Leaf, hmessage, hsingle] at hleaf
    | none => exact hnot.2.2 rfl
    | bool | int | float | str | list => simp [walkValue, walkScalar, hmessage, hsingle] at hwalked
  | @inner message obj k sub f m parents field w hmem hfield hmessage hsingle hat ih =>
    obtain ⟨-, hobj⟩ := walkItems_inv hdistinct.bases (fun p _ q => encodeEntry_base) hwalk
    obtain ⟨⟨k₀, v₀⟩, hmem₀, hvisited⟩ := (hobj _).mp hmem
    have hbase := encodeEntry_base hvisited
    obtain ⟨postfixed, f', walked, -, hfield', hwalked, hvisit⟩ := visitEntry_inv hvisited
    have hsame := hfield
    unfold fieldAt at hsame hfield'
    rw [hbase, hfield'] at hsame
    cases hsame
    obtain ⟨hstrip, -, -⟩ := encodeElement_inv hvisit
    have hkept := hkeeps message f (fields_by_name_mem hfield') (by rw [hmessage]; rfl) hsingle
    have hmessages : keepsMessages f = true := by
      unfold keepsValue at hkept
      simp only [Bool.and_eq_true] at hkept
      exact hkept.1.1.1.1.1.1
    obtain ⟨sub₀, address, hholds, hinner⟩ :=
      walkValue_holds hwalked (encode_holds hmessages hvisit (.single hmessage hsingle))
    obtain ⟨parents', field', v, hat', hleaf', hwritten, hnumbers⟩ :=
      ih hleaf (hdistinct.inner hmem₀ hfield' hholds) hinner
    cases hholds with
    | single _ _ =>
      refine ⟨f :: parents', field', v, .inner hmem₀ hfield' hmessage hsingle hat', hleaf',
        List.forall_mem_cons.mpr ⟨hstrip, hwritten⟩, ?_⟩
      exact congrArg (f.number :: ·) hnumbers
    | list _ hrepeated => cases hsingle.symm.trans hrepeated
    | map _ hrepeated => cases hsingle.symm.trans hrepeated

/-- The leaves that are written are those of what is encoded, and those that were set to `None`. -/
theorem written_iff_remains (hkeeps : KeepsSubmessages pool) {message : Text} {kvs obj : Dict}
    {parent : Address} (hdistinct : Distinct pool message kvs)
    (hwalk : walkItems pool (encodeElement env cv true) (some message) parent kvs kvs [] =
      .ok obj) {address : List Nat} : Written pool message kvs address ↔
        HasLeaf pool message obj address ∨ Nulled pool message kvs address := by
  constructor
  · rintro ⟨parents, field, v, hat, hleaf, hwritten, rfl⟩
    by_cases hv : v = .none
    · subst hv
      exact Or.inr ⟨parents, field, hat, hwritten, rfl⟩
    · obtain ⟨w, hw, hleafw⟩ := leaf_remains hkeeps hat hleaf hv hwritten hdistinct hwalk
      exact Or.inl ⟨parents, field, w, hw, hleafw, rfl⟩
  · rintro (⟨parents, field, w, hat, hleaf, rfl⟩ | ⟨parents, field, hat, hwritten, rfl⟩)
    · exact remaining_was_leaf hkeeps hat hleaf hdistinct hwalk
    · exact ⟨parents, field, .none, hat, Or.inr (Or.inr rfl), hwritten, rfl⟩

end

end

/-- A patch names exactly the fields that it writes: what is encoded has no field that is stripped,
and the mask gets the address of each leaf that is written, and no other address. These are the
leaves of what is encoded, and the fields that were set to `None`. -/
theorem patch_names_what_it_writes {pool : Pool} (hpool : Patchable pool) {env : Packages}
    {cv : UnitConverter} {message : Text} {payload encoded : DecodedPayload} {raw : Dict}
    (hraw : payload.content = some raw) (hmode : payload.maskMode = .INCLUSIVE)
    (hdistinct : Distinct pool message raw)
    (h : pre_encode env cv pool message payload true = .ok encoded) :
    ∃ content added, encoded.content = some content ∧
      encoded.maskFields = payload.maskFields ++ added ∧ Clean pool message content ∧
        (∀ mask, mask ∈ added ↔ ∃ address, Written pool message raw address ∧
          mask = { address := address.map Int.ofNat }) ∧
        (KeepsSubmessages pool → ∀ mask, mask ∈ added ↔ ∃ address,
          (HasLeaf pool message content address ∨ Nulled pool message raw address) ∧
            mask = { address := address.map Int.ofNat }) ∧
        ∀ parents field sub, At pool message raw parents field (.dict sub) →
          ¬ Leaf field (.dict sub) →
            { address := (numbers parents field).map Int.ofNat } ∉ added := by
  unfold pre_encode contentOf at h
  simp only [hraw, hmode, if_true, ok_bind] at h
  obtain ⟨obj, hwalk, hencoded⟩ := bind_eq_ok.mp h
  obtain rfl := (Except.ok.inj hencoded).symm
  have hadded : ∀ mask, mask ∈ (elementsOfItems pool (some message) [] raw).filterMap
      (patchField true) ↔ ∃ address, Written pool message raw address ∧
        mask = { address := address.map Int.ofNat } := by
    intro mask
    rw [List.mem_filterMap]
    constructor
    · rintro ⟨e, he, hmask⟩
      exact named_is_written hpool (.dict raw) raw rfl message [] e mask he hmask
    · rintro ⟨_, ⟨parents, field, v, hat, hleaf, hwritten, rfl⟩, rfl⟩
      exact written_is_named hat hleaf hwritten [] hdistinct hwalk
  refine ⟨obj, _, rfl, rfl, ?_, hadded, ?_, ?_⟩
  · intro m sub hwithin p hp field hfield
    exact encoded_is_clean hwithin hdistinct hwalk hp hfield
  · intro hkeeps mask
    rw [hadded]
    exact exists_congr fun address =>
      and_congr_left fun _ => written_iff_remains hkeeps hdistinct hwalk
  · intro parents field sub hat hmessage hmem
    obtain ⟨_, ⟨parents', field', v, hat', hleaf, -, rfl⟩, heq⟩ := (hadded _).mp hmem
    have hnumbers := List.map_injective_iff.mpr Int.ofNat_injective (MaskField.mk.inj heq)
    obtain ⟨rfl, rfl⟩ := at_unique hpool.numbered hat hat' hdistinct hnumbers
    exact hmessage hleaf

/-- A message with a submessage, of which one field is read only, and a list. -/
def patchPool : Pool where
  messages := fun message =>
    if message = "Sample".toList then
      [{ name := "settings".toList, number := 1, type := .MESSAGE
         message_type := some "Settings".toList },
        { name := "parts".toList, number := 2, type := .MESSAGE, label_repeated := true
          message_type := some "Settings".toList }]
    else if message = "Settings".toList then
      [{ name := "enabled".toList, number := 1, type := .BOOL },
        { name := "state".toList, number := 2, type := .STRING, opts := { readonly := true } }]
    else []

theorem patchPool_patchable : Patchable patchPool where
  whole := by
    intro message field hfield m hmessage hsingle hstrip
    unfold patchPool at hfield
    simp only at hfield
    split at hfield
    · rcases List.mem_pair.mp hfield with rfl | rfl <;> cases hstrip
    split at hfield
    · rcases List.mem_pair.mp hfield with rfl | rfl <;> cases hmessage
    · cases hfield
  numbered := by
    intro message
    unfold patchPool
    simp only
    split
    · decide
    split
    · decide
    · decide

/-- The fields of `Settings` are no messages. -/
theorem patchPool_settings {kvs : Dict} (h : (kvs.map fun p => baseOf p.1).Nodup) :
    Distinct patchPool "Settings".toList kvs := by
  refine .intro h fun p _ field m sub hfield hholds => ?_
  have hfields : ∀ field ∈ patchPool.messages "Settings".toList, field.message_type = none := by
    decide
  have hnone := hfields field (fields_by_name_mem hfield)
  have hmessage : ∃ m, field.message_type = some m := by
    generalize p.2 = v at hholds
    cases hholds with
    | single hmessage => exact ⟨_, hmessage⟩
    | list hmessage => exact ⟨_, hmessage⟩
    | map hentry => exact ⟨_, hentry⟩
  obtain ⟨m', hm'⟩ := hmessage
  cases hnone.symm.trans hm'

theorem patchPool_keeps : KeepsSubmessages patchPool := by
  intro message field hfield hmessage hsingle
  unfold patchPool at hfield
  simp only at hfield
  split at hfield
  · rcases List.mem_pair.mp hfield with rfl | rfl
    · rfl
    · cases hsingle
  split at hfield
  · rcases List.mem_pair.mp hfield with rfl | rfl <;> cases hmessage
  · cases hfield

theorem patch_names_what_it_writes_sample :
    let raw : Dict := [("settings".toList, .dict [("enabled".toList, .bool true),
      ("state".toList, .str "hot".toList)]),
      ("parts".toList, .list [.dict [("state".toList, .none)]])]
    let content : Dict := [("settings".toList, .dict [("enabled".toList, .bool true)]),
      ("parts".toList, .list [.dict []])]
    Clean patchPool "Sample".toList content ∧
      ∀ mask : MaskField, mask ∈ [{ address := [1, 1] }, { address := [2] }] ↔ ∃ address,
        (HasLeaf patchPool "Sample".toList content address ∨
          Nulled patchPool "Sample".toList raw address) ∧
            mask = { address := address.map Int.ofNat } := by
  intro raw content
  have hdistinct : Distinct patchPool "Sample".toList raw := by
    refine .intro (by decide) fun p hp field m sub hfield hholds => ?_
    rcases List.mem_pair.mp hp with rfl | rfl
    · cases hfield
      cases hholds with
      | single hmessage =>
        cases hmessage
        exact patchPool_settings (by decide)
      | map _ hrepeated => cases hrepeated
    · cases hfield
      cases hholds with
      | list hmessage _ hmem =>
        cases hmessage
        cases List.mem_singleton.mp hmem
        exact patchPool_settings (by decide)
  have hencode : pre_encode sameUnit (converter "degC".toList) patchPool "Sample".toList
      { blockId := 100, maskMode := .INCLUSIVE, content := some raw } true =
        .ok { blockId := 100, maskMode := .INCLUSIVE, content := some content
              maskFields := [{ address := [1, 1] }, { address := [2] }] } := rfl
  obtain ⟨_, _, ⟨⟩, ⟨⟩, hclean, -, hnames, -⟩ :=
    patch_names_what_it_writes patchPool_patchable rfl rfl hdistinct hencode
  exact ⟨hclean, hnames patchPool_keeps⟩

end devcon_spark.codec.content
