-- What is read can be handed back: which content `pre_encode` accepts that
-- `post_decode` gave out, once its links are numbers again.
import DevconSpark.ReturnValues

open bidict py_text py_dict py_number py_value devcon_spark.exceptions devcon_spark.models
open devcon_spark.codec.descriptor devcon_spark.codec.unit_conversion
open devcon_spark.codec.processor devcon_spark.spark_api

namespace devcon_spark.codec.content

/-! ## Content that can be handed back -/

/-- How content is read, and how it is written again. -/
structure Passage where
  mode : ReadMode
  /-- `filter_values` of `post_decode` -/
  filter_read : Bool
  maskMode : MaskMode
  maskFields : List MaskField
  /-- `filter_values` of `pre_encode` -/
  filter_write : Bool

namespace Passage

variable (env : Packages) (cv : UnitConverter) (s : Passage)

def excludes (address : Address) : Bool :=
  processor.excludes s.maskMode s.maskFields address

def reader : Visit := decodeElement env cv s.mode s.filter_read s.maskMode s.maskFields

def writer : Visit := encodeElement env cv s.filter_write

end Passage

/-- What is asked of the parts of content that are shown. -/
structure Rule where
  /-- Of a value that is no message, and may be left out by the mask. -/
  value : FieldOpts → Bool → Value → Prop
  /-- Of messages of a list that are left out: they are shown as nulls. -/
  nulls : Prop
  /-- Of the keys of a map. -/
  key : Text → Prop

section
variable (pool : Pool) (s : Passage) (rule : Rule)

mutual

/-- The content of a message, where each field that is read keeps to the rule. -/
def shownItems (message : Text) (parent : Address) (kvs : Dict) : Prop :=
  match kvs with
  | [] => True
  | (k, v) :: kvs =>
    (match fields_by_name (pool.messages message) k with
      | some field => filtered s.mode s.filter_read field.opts = true ∨
        shownValue field (parent ++ [some field.number]) v
      | none => False) ∧ shownItems message parent kvs

/-- A message or a map that is left out is null, and its parts are not shown. -/
def shownValue (field : FieldDescriptor) (address : Address) (value : Value) : Prop :=
  match value with
  | .dict kvs =>
    match field.message_type, field.label_repeated with
    | none, _ => False
    | some m, false => s.excludes (address ++ [none]) = true ∨ shownItems m address kvs
    | some m, true => s.excludes address = true ∨
      match valueMessage pool m with
      | some message => shownMap message (address ++ [none]) kvs
      | none => False
  | .list vs =>
    match field.message_type with
    | none => ∀ v ∈ vs, rule.value field.opts (s.excludes address) v
    | some m => vs = [] ∨ match s.excludes address with
      | true => rule.nulls
      | false => shownList m (address ++ [none]) vs
  | v => rule.value field.opts (s.excludes address) v

def shownList (message : Text) (address : Address) (values : List Value) : Prop :=
  match values with
  | [] => True
  | v :: vs => shownChild message address v ∧ shownList message address vs

def shownMap (message : Text) (address : Address) (kvs : Dict) : Prop :=
  match kvs with
  | [] => True
  | (k, v) :: kvs => rule.key k ∧ shownChild message address v ∧ shownMap message address kvs

def shownChild (message : Text) (address : Address) (value : Value) : Prop :=
  match value with
  | .dict kvs => shownItems message address kvs
  | _ => False

end

end

/-- No null with a unit is written: Pint has no quantity for it. -/
def acceptedScalar (s : Passage) (options : FieldOpts) (excluded : Bool) (v : Value) : Prop :=
  options.unit = .NotSet ∨ stripped s.filter_write options = true ∨
    (options.omit_if_zero && isZero v) = true ∨ absent options excluded v = false

/-- What can be written. The walk has no way into the nulls that messages of a list were shown
as. -/
def accepted (s : Passage) : Rule where
  value := acceptedScalar s
  nulls := False
  key := fun _ => True

/-- What can be turned back: a map is no link, whatever its keys. -/
def reached (reader writer : BlockStore) : Rule where
  value := LinkReached reader writer
  nulls := True
  key := fun k => isMarked k = false

section
variable {pool : Pool} {s : Passage} {rule : Rule}

theorem shownItems_iff {message : Text} {parent : Address} {kvs : Dict} :
    shownItems pool s rule message parent kvs ↔ ∀ p ∈ kvs, ∃ field,
      fields_by_name (pool.messages message) p.1 = some field ∧
        (filtered s.mode s.filter_read field.opts = true ∨
          shownValue pool s rule field (parent ++ [some field.number]) p.2) := by
  induction kvs with
  | nil => simp [shownItems]
  | cons p kvs ih =>
    obtain ⟨k, v⟩ := p
    rw [shownItems, ih, List.forall_mem_cons]
    cases fields_by_name (pool.messages message) k <;> simp

theorem shownList_iff {message : Text} {address : Address} {vs : List Value} :
    shownList pool s rule message address vs ↔
      ∀ v ∈ vs, shownChild pool s rule message address v := by
  induction vs with
  | nil => simp [shownList]
  | cons v vs ih => rw [shownList, ih, List.forall_mem_cons]

theorem shownMap_iff {message : Text} {address : Address} {kvs : Dict} :
    shownMap pool s rule message address kvs ↔
      ∀ p ∈ kvs, rule.key p.1 ∧ shownChild pool s rule message address p.2 := by
  induction kvs with
  | nil => simp [shownMap]
  | cons p kvs ih => rw [shownMap, ih, List.forall_mem_cons, and_assoc]

theorem shownValue_flat {field : FieldDescriptor} {address : Address} {v : Value} (hv : Flat v) :
    shownValue pool s rule field address v ↔ rule.value field.opts (s.excludes address) v := by
  cases v with
  | list vs => exact absurd hv id
  | dict kvs => exact absurd hv id
  | none | bool | int | float | str => rw [shownValue] <;> simp

end

/-! ## Fields -/

section
variable {pool : Pool} {env : Packages} {user_temp : Text} {s : Passage}
variable {names : Naming}

theorem acceptedScalar_iff {options : FieldOpts} {excluded : Bool} {v : Value}
    (hstrip : stripped s.filter_write options = false)
    (homit : (options.omit_if_zero && isZero v) = false) :
    options.unit = .NotSet ∨ absent options excluded v = false ↔
      acceptedScalar s options excluded v := by
  unfold acceptedScalar
  simp [hstrip, homit]

/-- What becomes of an entry of a field that was read: its links are turned back, and it is
written. -/
structure EntryReturned (pool : Pool) (env : Packages) (user_temp : Text) (s : Passage)
    (names : Naming) (message : Text) (field : FieldDescriptor) (address : Address) (v x : Value) :
    Prop where
  turns : Turns names x ↔ shownValue pool s (reached names.reader names.writer) field address v
  written : ∀ w, Turned names x w → ∀ above,
    Returns (visitEntry pool (s.writer env (converter user_temp)) (some message) above
      (field.name, w)) (shownValue pool s (accepted s) field address v) fun out =>
        (∀ r, out = some r → r.1 = field.name) ∧ Unset x (out.map Prod.snd)

/-- An entry of a field is read, and what is left of it is turned back, and written. -/
def EntryPasses (pool : Pool) (env : Packages) (user_temp : Text) (s : Passage)
    (names : Naming) (message : Text) (field : FieldDescriptor) (v : Value) : Prop :=
  ∀ parent out, visitEntry pool (s.reader env (converter user_temp)) (some message) parent
      (field.name, v) = .ok out →
    (out = none → filtered s.mode s.filter_read field.opts = true ∨
      ∀ rule ∈ [reached names.reader names.writer, accepted s],
        shownValue pool s rule field (parent ++ [some field.number]) v) ∧
    ∀ q, out = some q → filtered s.mode s.filter_read field.opts = false ∧ q.1 = field.name ∧
      EntryReturned pool env user_temp s names message field (parent ++ [some field.number]) v q.2

theorem decodedKey_typed {mode : ReadMode} (hmode : mode ≠ .LOGGED) (options : FieldOpts)
    (user_unit key : Text) : decodedKey mode options user_unit key = key := by
  unfold decodedKey metadata_opt
  rw [if_neg hmode]

theorem stripped_returns {cv : UnitConverter} {filter_values : Bool} {element : OptionElement}
    (h : stripped filter_values element.field.opts = true) {name : Text} {x : Value} (w : Value) :
    Returns (encodeElement env cv filter_values element w) True fun out =>
      (∀ r, out = some r → r.1 = name) ∧ Unset x (out.map Prod.snd) := by
  rw [encodeElement_stripped h]
  exact Returns.of_ok ⟨(fun r hr => nomatch hr), .left_out⟩

variable {message : Text} {field : FieldDescriptor}

/-- A zero is null, or stands for no block. -/
theorem linkReached_zero {reader writer : BlockStore} {options : FieldOpts} {excluded : Bool}
    {v : Value} (h : isZero v = true) : LinkReached reader writer options excluded v := by
  refine Or.inr (Or.inr ?_)
  rintro i rfl
  exact Or.inl (isZero_int h)

/-- A field with one value that is no message. -/
theorem scalar_passes (hexact : Exact env user_temp) (hmode : s.mode ≠ .LOGGED)
    (hplaced : Placed field.type field.label_repeated field.opts) (hname : Plain field.name)
    (hfield : fields_by_name (pool.messages message) field.name = some field)
    (hleaf : field.message_type = none) {v : Value} (hraw : rawScalar field.type v) :
    EntryPasses pool env user_temp s names message field v := by
  intro parent out hout
  rw [visitEntry_eq pool _ parent (splitKey_name hname) hfield (walkValue_leaf hleaf _ v)] at hout
  rcases decodeElement_inv hout with ⟨hfilter, rfl⟩ | ⟨hfilter, user_unit, huser⟩
  · exact ⟨fun _ => Or.inl hfilter, fun q hq => nomatch hq⟩
  have hlist : ∀ vs, v ≠ .list vs := by
    rintro vs rfl
    exact not_rawScalar_list hraw
  unfold Passage.reader at hout
  rw [decodeElement_scalar hfilter huser hlist] at hout
  by_cases homit : (field.opts.omit_if_zero && isZero v) = true
  · rw [if_pos homit] at hout
    cases hout
    refine ⟨fun _ => Or.inr fun rule hrule => ?_, fun q hq => nomatch hq⟩
    rw [shownValue_flat (flat_of_raw hraw)]
    rcases List.mem_pair.mp hrule with rfl | rfl
    · exact linkReached_zero (Bool.and_eq_true_iff.mp homit).2
    · exact Or.inr (Or.inr (Or.inl homit))
  rw [if_neg homit, elementAddress_leaf (Or.inl hleaf)] at hout
  obtain ⟨x, hx, rfl⟩ := map_eq_ok.mp hout
  refine ⟨fun h => (nomatch h), ?_⟩
  rintro q ⟨⟩
  refine ⟨hfilter, decodedKey_typed hmode _ _ _, ?_, fun w hw above => ?_⟩
  · rw [shownValue_flat (flat_of_raw hraw)]
    exact scalar_turns hexact hmode hplaced hraw hx
  rw [visitEntry_eq pool _ above (splitKey_name hname) hfield (walkValue_leaf hleaf _ w),
    shownValue_flat (flat_of_raw hraw)]
  unfold Passage.writer
  by_cases hstrip : stripped s.filter_write field.opts = true
  · exact (stripped_returns hstrip w).congr (iff_of_true trivial (Or.inr (Or.inl hstrip)))
  rw [Bool.not_eq_true] at hstrip homit
  let element : OptionElement :=
    { field, key := field.name, base_key := field.name, postfixed := []
      address := elementAddress field (above ++ [some field.number]) w }
  obtain ⟨hwlist, hreturns⟩ := @scalar_written env user_temp names s.mode _ user_unit element
    hexact hmode hplaced v x w hraw hx huser hw
  rw [encodeElement_written hstrip hwlist]
  refine (hreturns.map fun y hy => ?_).congr (acceptedScalar_iff hstrip homit)
  cases y with
  | none => exact ⟨(fun r hr => nomatch hr), hy⟩
  | some u =>
    refine ⟨?_, hy⟩
    rintro r ⟨⟩
    rfl

/-- A repeated field of values that are no messages. -/
theorem list_passes (hexact : Exact env user_temp) (hmode : s.mode ≠ .LOGGED)
    (hplaced : Placed field.type field.label_repeated field.opts) (hname : Plain field.name)
    (hfield : fields_by_name (pool.messages message) field.name = some field)
    (hleaf : field.message_type = none) {vs : List Value}
    (hraw : ∀ v ∈ vs, rawScalar field.type v) :
    EntryPasses pool env user_temp s names message field (.list vs) := by
  intro parent out hout
  rw [visitEntry_eq pool _ parent (splitKey_name hname) hfield (walkValue_leaf hleaf _ _)] at hout
  rcases decodeElement_inv hout with ⟨hfilter, rfl⟩ | ⟨hfilter, user_unit, huser⟩
  · exact ⟨fun _ => Or.inl hfilter, fun q hq => nomatch hq⟩
  unfold Passage.reader at hout
  rw [decodeElement_list hfilter huser, elementAddress_leaf (Or.inl hleaf)] at hout
  have hshown : ∀ rule, shownValue pool s rule field (parent ++ [some field.number]) (.list vs) ↔
      ∀ v ∈ vs, rule.value field.opts (s.excludes (parent ++ [some field.number])) v := by
    intro rule
    rw [shownValue, hleaf]
  obtain ⟨xs, hxs, rfl⟩ := map_eq_ok.mp hout
  refine ⟨fun h => (nomatch h), ?_⟩
  rintro q ⟨⟩
  have hkept : ∀ v, v ∈ (if field.opts.omit_if_zero then vs.filter (! isZero ·) else vs) ↔
      v ∈ vs ∧ (field.opts.omit_if_zero && isZero v) = false := by
    intro v
    split
    · rename_i homit
      simp [homit]
    · rename_i homit
      simp [homit]
  refine ⟨hfilter, decodedKey_typed hmode _ _ _, ?_, fun w hw above => ?_⟩
  · rw [hshown, turns_list]
    constructor
    · intro hall v hv
      by_cases homit : (field.opts.omit_if_zero && isZero v) = true
      · exact linkReached_zero (Bool.and_eq_true_iff.mp homit).2
      · have hmem := (hkept v).mpr ⟨hv, by simpa using homit⟩
        obtain ⟨x, hx, hvx⟩ := forall₂_left (forall₂_of_mapM hxs) hmem
        exact (scalar_turns hexact hmode hplaced (hraw v hv) hvx).mp (hall x hx)
    · intro hall x hx
      obtain ⟨v, hv, hvx⟩ := forall₂_right (forall₂_of_mapM hxs) hx
      have hmem := ((hkept v).mp hv).1
      exact (scalar_turns hexact hmode hplaced (hraw v hmem) hvx).mpr (hall v hmem)
  obtain ⟨ws, rfl, hws⟩ := turned_list hw
  rw [visitEntry_eq pool _ above (splitKey_name hname) hfield (walkValue_leaf hleaf _ _), hshown]
  unfold Passage.writer
  by_cases hstrip : stripped s.filter_write field.opts = true
  · exact (stripped_returns hstrip _).congr
      (iff_of_true trivial fun v _ => Or.inr (Or.inl hstrip))
  rw [Bool.not_eq_true] at hstrip
  let element : OptionElement :=
    { field, key := field.name, base_key := field.name, postfixed := []
      address := elementAddress field (above ++ [some field.number]) (.list ws) }
  have hwritten := @list_written env user_temp names s.mode _ user_unit element hexact hmode
    hplaced _ xs ws (fun v hv => hraw v ((hkept v).mp hv).1) (forall₂_of_mapM hxs) huser hws
  rw [encodeElement_writtenList hstrip]
  refine (hwritten.map ?_).congr ⟨fun h v hv => ?_, fun h v hv => ?_⟩
  · intro ys hys
    refine ⟨?_, .list hys⟩
    rintro r ⟨⟩
    rfl
  · by_cases homit : (field.opts.omit_if_zero && isZero v) = true
    · exact Or.inr (Or.inr (Or.inl homit))
    · rw [Bool.not_eq_true] at homit
      exact (acceptedScalar_iff hstrip homit).mp (h v ((hkept v).mpr ⟨hv, homit⟩))
  · obtain ⟨hmem, homit⟩ := (hkept v).mp hv
    exact (acceptedScalar_iff hstrip homit).mpr (h v hmem)

/-! ## Messages -/

/-- The messages are as the compiled ones, and no field has the name of the mark of an object. -/
structure Schema (pool : Pool) : Prop extends WellPlaced pool where
  unmarked : ∀ message, ∀ field ∈ pool.messages message, field.name ≠ "__bloxtype".toList

theorem Schema.of_fields {pool : Pool} (h : ∀ message, ∀ field ∈ pool.messages message,
    Placed field.type field.label_repeated field.opts ∧ Plain field.name ∧
      (field.type = .MESSAGE ↔ field.message_type.isSome = true) ∧
        field.name ≠ "__bloxtype".toList) : Schema pool where
  placed message field hfield := (h message field hfield).1
  named message field hfield := (h message field hfield).2.1
  typed message field hfield := (h message field hfield).2.2.1
  unmarked message field hfield := (h message field hfield).2.2.2

def rawLeaf (field : FieldDescriptor) (v : Value) : Prop := rawScalar field.type v

/-- The entries of a dict, whose links were turned into names, and the names into numbers. -/
def TurnedItems (names : Naming) (kvs lws : Dict) : Prop :=
  List.Forall₂ (fun p q => q.1 = p.1 ∧ TurnedEntry names (isMarked p.1) p.2 q.2) kvs lws

variable (hpool : Schema pool)

include hpool

/-- What is read of a message has the keys of its fields. -/
theorem read_keys {message : Text} {kvs : Dict} (hcontent : contentItems pool rawLeaf message kvs)
    {parent : Address} {sub : Dict}
    (h : walkItems pool (s.reader env (converter user_temp)) (some message) parent kvs kvs [] =
      .ok sub) :
    (sub.map fun q => baseOf q.1).Nodup ∧ Unmarked sub ∧
      (∀ p ∈ kvs, ∃ out, visitEntry pool (s.reader env (converter user_temp)) (some message) parent
        p = .ok out) ∧
      ∀ q, q ∈ sub ↔ ∃ p ∈ kvs, visitEntry pool (s.reader env (converter user_temp))
        (some message) parent p = .ok (some q) := by
  obtain ⟨hplain, hbases⟩ := contentItems_bases hpool.toWellPlaced hcontent
  have hkeep : ∀ p ∈ kvs, ∀ q, visitEntry pool (s.reader env (converter user_temp)) (some message)
      parent p = .ok (some q) → baseOf q.1 = baseOf p.1 :=
    fun p hp q => decodeEntry_base (hplain p hp).1
  obtain ⟨hvisits, hentries⟩ := walkItems_inv hbases hkeep h
  refine ⟨walkItems_bases hbases hkeep h, ?_, hvisits, hentries⟩
  intro q hq hmark
  obtain ⟨p, hp, hvisit⟩ := (hentries q).mp hq
  obtain ⟨field, hfield, -⟩ := (contentItems_iff.mp hcontent).2 p hp
  have hbase : baseOf "__bloxtype".toList = p.1 := by
    rw [← hmark, hkeep p hp q hvisit, (hplain p hp).2]
  have hown : "__bloxtype".toList = baseOf "__bloxtype".toList := by decide
  have hname : field.name = "__bloxtype".toList := by
    rw [fields_by_name_name hfield, ← hbase, ← hown]
  exact absurd hname (hpool.unmarked message field (fields_by_name_mem hfield))

section
variable {message : Text} {kvs : Dict} (hcontent : contentItems pool rawLeaf message kvs)
  (hpasses : ∀ p ∈ kvs, ∀ field, fields_by_name (pool.messages message) p.1 = some field →
    EntryPasses pool env user_temp s names message field p.2)
  {parent : Address} {sub : Dict}
  (h : walkItems pool (s.reader env (converter user_temp)) (some message) parent kvs kvs [] =
    .ok sub)

include hcontent hpasses h

/-- Each entry that was read comes from one of the content. -/
theorem read_source {q : Text × Value} (hq : q ∈ sub) : ∃ p ∈ kvs, ∃ field,
    fields_by_name (pool.messages message) p.1 = some field ∧ p.1 = q.1 ∧ q.1 = field.name ∧
      isMarked q.1 = false ∧ filtered s.mode s.filter_read field.opts = false ∧
        EntryReturned pool env user_temp s names message field (parent ++ [some field.number])
          p.2 q.2 := by
  obtain ⟨⟨k, v⟩, hp, hvisit⟩ := ((read_keys hpool hcontent h).2.2.2 q).mp hq
  obtain ⟨field, hfield, -⟩ := (contentItems_iff.mp hcontent).2 _ hp
  obtain rfl := fields_by_name_name hfield
  obtain ⟨hfilter, hname, hreturned⟩ := (hpasses _ hp field hfield parent _ hvisit).2 q rfl
  have hplain := ((contentItems_bases hpool.toWellPlaced hcontent).1 _ hp).1
  refine ⟨_, hp, field, hfield, hname.symm, hname, ?_, hfilter, hreturned⟩
  rw [hname]
  exact plain_not_marked hplain

/-- The entry that a key was read from keeps to a rule. -/
def SourceShown (pool : Pool) (s : Passage) (rule : Rule) (message : Text) (parent : Address)
    (kvs : Dict) (k : Text) : Prop :=
  ∀ p ∈ kvs, p.1 = k → ∀ field, fields_by_name (pool.messages message) p.1 = some field →
    shownValue pool s rule field (parent ++ [some field.number]) p.2

omit hpool hpasses h in
theorem sourceShown_iff {rule : Rule} {p : Text × Value} (hp : p ∈ kvs) {field : FieldDescriptor}
    (hfield : fields_by_name (pool.messages message) p.1 = some field) :
    SourceShown pool s rule message parent kvs p.1 ↔
      shownValue pool s rule field (parent ++ [some field.number]) p.2 := by
  refine ⟨fun hall => hall p hp rfl field hfield, fun hown p' hp' hkey field' hfield' => ?_⟩
  obtain rfl : p' = p := List.inj_on_of_nodup_map (contentItems_iff.mp hcontent).1 hp' hp hkey
  cases hfield.symm.trans hfield'
  exact hown

/-- All that was read comes from entries that keep to a rule, where the content does. -/
theorem sources_shown_iff {rule : Rule}
    (hrule : rule ∈ [reached names.reader names.writer, accepted s]) (which : Text → Bool) :
    (∀ q ∈ sub, which q.1 = true → SourceShown pool s rule message parent kvs q.1) ↔
      shownItems pool s rule message parent (kvs.filter fun p => which p.1) := by
  obtain ⟨-, hfields⟩ := contentItems_iff.mp hcontent
  obtain ⟨-, -, hvisits, hentries⟩ := read_keys hpool hcontent h
  rw [shownItems_iff]
  constructor
  · intro hall p hp
    obtain ⟨hp, hwhich⟩ := List.mem_filter.mp hp
    obtain ⟨field, hfield, -⟩ := hfields p hp
    obtain ⟨out, hout⟩ := hvisits p hp
    refine ⟨field, hfield, ?_⟩
    obtain ⟨k, v⟩ := p
    obtain rfl := fields_by_name_name hfield
    obtain ⟨hgone, hleft⟩ := hpasses _ hp field hfield parent out hout
    cases out with
    | none => exact (hgone rfl).imp_right fun hall => hall rule hrule
    | some q =>
      obtain ⟨-, hname, -⟩ := hleft q rfl
      have hshown := hall q ((hentries q).mpr ⟨_, hp, hout⟩) (hname ▸ hwhich)
      rw [hname] at hshown
      exact Or.inr ((sourceShown_iff hcontent hp hfield).mp hshown)
  · intro hall q hq hwhich
    obtain ⟨p, hp, field, hfield, hpq, -, -, hfilter, -⟩ :=
      read_source hpool hcontent hpasses h hq
    rw [← hpq] at hwhich ⊢
    obtain ⟨field', hfield', hshown⟩ := hall p (List.mem_filter.mpr ⟨hp, hwhich⟩)
    cases hfield.symm.trans hfield'
    exact (sourceShown_iff hcontent hp hfield).mpr
      (hshown.resolve_left (by rw [hfilter]; exact Bool.false_ne_true))

/-- The links of an entry are turned back where those it was read from can be. -/
theorem entry_turns {q : Text × Value} (hq : q ∈ sub) :
    (∃ w, TurnedEntry names (isMarked q.1) q.2 w) ↔
      SourceShown pool s (reached names.reader names.writer) message parent kvs q.1 := by
  obtain ⟨p, hp, field, hfield, hpq, -, hmarked, -, hreturned⟩ :=
    read_source hpool hcontent hpasses h hq
  rw [hmarked, ← hpq, sourceShown_iff hcontent hp hfield]
  exact hreturned.turns

/-- The links of what was read of a message are turned back. -/
theorem items_turn : (∀ q ∈ sub, ∃ w, TurnedEntry names (isMarked q.1) q.2 w) ↔
    shownItems pool s (reached names.reader names.writer) message parent kvs := by
  have hsources := sources_shown_iff hpool hcontent hpasses h List.mem_cons_self fun _ => true
  rw [List.filter_true] at hsources
  rw [← hsources]
  exact forall₂_congr fun q hq => (entry_turns hpool hcontent hpasses h hq).trans (by simp)

/-- An entry is written where the one that it was read from can be. -/
theorem entry_written {q : Text × Value} (hq : q ∈ sub) {w : Value}
    (hw : TurnedEntry names (isMarked q.1) q.2 w) (above : Address) :
    Returns (visitEntry pool (s.writer env (converter user_temp)) (some message) above (q.1, w))
      (SourceShown pool s (accepted s) message parent kvs q.1) fun out =>
        (∀ r, out = some r → r.1 = q.1) ∧ Unset q.2 (out.map Prod.snd) := by
  obtain ⟨p, hp, field, hfield, hpq, hname, hmarked, -, hreturned⟩ :=
    read_source hpool hcontent hpasses h hq
  rw [hmarked] at hw
  rw [hname]
  refine (hreturned.written w hw above).congr ?_
  rw [← hname, ← hpq]
  exact (sourceShown_iff hcontent hp hfield).symm

/-- What was read of a message is written, where each of its entries is. -/
theorem items_returned {lws : Dict} (hturned : TurnedItems names sub lws) (above : Address) :
    Returns (walkItems pool (s.writer env (converter user_temp)) (some message) above lws lws [])
      (shownItems pool s (accepted s) message parent kvs)
      fun back => Unset (.dict sub) (some (.dict back)) := by
  obtain ⟨hsubbases, hunmarked, -, -⟩ := read_keys hpool hcontent h
  have hlwsbases : (lws.map fun r => baseOf r.1).Nodup := by
    have hkeys := map_eq_of_forall₂ (f := fun q => baseOf q.1) (g := fun r => baseOf r.1)
      (hturned.imp fun q r hqr => by rw [hqr.1])
    rwa [← hkeys]
  have hwalk := @walkItems_returns pool (s.writer env (converter user_temp)) message above lws
    (fun r => SourceShown pool s (accepted s) message parent kvs r.1)
    (fun r out => ∀ q ∈ sub, q.1 = r.1 → Unset q.2 (out.map Prod.snd)) hlwsbases (by
      intro r hr
      obtain ⟨q, hq, hkey, hw⟩ := forall₂_right hturned hr
      have hwritten := entry_written hpool hcontent hpasses h hq hw above
      rw [← hkey] at hwritten
      refine hwritten.imp fun out hout => ⟨hout.1, fun q' hq' hkey' => ?_⟩
      obtain rfl : q' = q :=
        List.inj_on_of_nodup_map hsubbases hq' hq (congrArg baseOf (hkey'.trans hkey))
      exact hout.2)
  refine (hwalk.imp fun back hback => ?_).congr ?_
  · refine .dict hunmarked.not_null fun q hq => ?_
    obtain ⟨r, hr, hkey, -⟩ := forall₂_left hturned hq
    obtain ⟨out, hunset, hget⟩ := hback r hr
    rw [← hkey, hget]
    exact hunset q hq hkey.symm
  · have hrule : accepted s ∈ [reached names.reader names.writer, accepted s] := by simp
    have hsources := sources_shown_iff hpool hcontent hpasses h hrule fun _ => true
    rw [List.filter_true] at hsources
    rw [← hsources]
    constructor
    · intro hall q hq _
      obtain ⟨r, hr, hkey, -⟩ := forall₂_left hturned hq
      exact hkey ▸ hall r hr
    · intro hall r hr
      obtain ⟨q, hq, hkey, -⟩ := forall₂_right hturned hr
      exact hkey.symm ▸ hall q hq rfl

end

omit hpool in
/-- The parts of a field of messages are written as they are, or all left out. -/
theorem message_written {element : OptionElement} {readonly logged stored ignored : Bool}
    (hopts : element.field.opts = { readonly, logged, stored, ignored })
    (htype : element.field.type = .MESSAGE) {filter_values : Bool} {x y : Value} (hy : Solid y)
    (hunset : Unset x (some y)) : ∃ out,
      encodeElement env (converter user_temp) filter_values element y = .ok out ∧
        (∀ r, out = some r → r.1 = element.base_key) ∧ Unset x (out.map Prod.snd) := by
  by_cases hstrip : stripped filter_values element.field.opts = true
  · exact ⟨none, encodeElement_stripped hstrip y, (fun r hr => nomatch hr), .left_out⟩
  · rw [Bool.not_eq_true] at hstrip
    refine ⟨_, encode_message hopts htype hstrip hy, ?_, hunset⟩
    rintro r ⟨⟩
    rfl

omit hpool in
theorem none_returned {message : Text} {field : FieldDescriptor} {address : Address} {v : Value}
    (hname : Plain field.name)
    (hfield : fields_by_name (pool.messages message) field.name = some field)
    (h : ∀ rule, shownValue pool s rule field address v) :
    EntryReturned pool env user_temp s names message field address v .none where
  turns := iff_of_true (turns_flat trivial) (h _)
  written w hw above := by
    obtain rfl := turned_flat (v := .none) trivial hw
    rw [visitEntry_eq pool _ above (splitKey_name hname) hfield
      (show walkValue pool _ field _ .none = .ok .none by rw [walkValue])]
    unfold Passage.writer
    rw [encodeElement_none]
    exact (Returns.of_ok ⟨(fun r hr => by cases hr), .left_out⟩).congr (iff_of_true trivial (h _))

theorem message_options {message m : Text} {field : FieldDescriptor}
    (hfield : fields_by_name (pool.messages message) field.name = some field)
    (hmessage : field.message_type = some m) : Plain field.name ∧ field.type = .MESSAGE ∧
      ∃ readonly logged stored ignored, field.opts = { readonly, logged, stored, ignored } := by
  have hmem := fields_by_name_mem hfield
  refine ⟨hpool.named message field hmem, ?_, message_field hpool.toWellPlaced hmem hmessage⟩
  exact (hpool.typed message field hmem).mpr (by rw [hmessage]; rfl)

/-- A message or a map: it is left out as a whole, or its parts are written. -/
theorem dict_passes {message m : Text} {field : FieldDescriptor}
    (hfield : fields_by_name (pool.messages message) field.name = some field)
    (hmessage : field.message_type = some m) {kvs : Dict} {P : Rule → Address → Prop}
    (hshown : ∀ rule address, shownValue pool s rule field address (.dict kvs) ↔
      s.excludes (elementAddress field address (.dict kvs)) = true ∨ P rule address)
    (hread : ∀ address walked, walkValue pool (s.reader env (converter user_temp)) field address
        (.dict kvs) = .ok walked → ∃ sub, walked = .dict sub ∧ Unmarked sub ∧
      ((∀ q ∈ sub, ∃ w, TurnedEntry names (isMarked q.1) q.2 w) ↔
        P (reached names.reader names.writer) address) ∧
      ∀ lws, TurnedItems names sub lws → ∀ above,
        Returns (walkValue pool (s.writer env (converter user_temp)) field above (.dict lws))
          (P (accepted s) address) fun y => Solid y ∧ Unset (.dict sub) (some y)) :
    EntryPasses pool env user_temp s names message field (.dict kvs) := by
  obtain ⟨hname, htype, readonly, logged, stored, ignored, hopts⟩ :=
    message_options hpool hfield hmessage
  intro parent out hout
  rw [visitEntry_bind pool _ parent (splitKey_name hname) hfield] at hout
  obtain ⟨walked, hwalked, hvisit⟩ := bind_eq_ok.mp hout
  obtain ⟨sub, rfl, hunmarked, hturns, hparts⟩ := hread _ walked hwalked
  rcases decode_message_dict hopts hvisit with ⟨hfilter, rfl⟩ | ⟨hfilter, hsome⟩
  · exact ⟨fun _ => Or.inl hfilter, fun q hq => nomatch hq⟩
  by_cases hexcl :
      s.excludes (elementAddress field (parent ++ [some field.number]) (.dict kvs)) = true
  · obtain rfl : out = some (field.name, .none) :=
      hsome.trans (congrArg (fun x => some (field.name, x)) (if_pos hexcl))
    refine ⟨fun h => (nomatch h), ?_⟩
    rintro q ⟨⟩
    exact ⟨hfilter, rfl, none_returned hname hfield fun rule => (hshown rule _).mpr (Or.inl hexcl)⟩
  · obtain rfl : out = some (field.name, .dict sub) :=
      hsome.trans (congrArg (fun x => some (field.name, x)) (if_neg hexcl))
    have hparts_shown : ∀ rule, P rule (parent ++ [some field.number]) ↔
        shownValue pool s rule field (parent ++ [some field.number]) (.dict kvs) := fun rule =>
      ((hshown rule _).trans (or_iff_right hexcl)).symm
    refine ⟨fun h => (nomatch h), ?_⟩
    rintro q ⟨⟩
    refine ⟨hfilter, rfl, ?_, fun w hw above => ?_⟩
    · rw [turns_dict hunmarked.noLink, hturns, hparts_shown]
    obtain ⟨lws, rfl, hlws⟩ := turned_dict hunmarked.noLink hw
    rw [visitEntry_bind pool _ above (splitKey_name hname) hfield]
    refine ((hparts lws hlws _).bind ?_).congr (hparts_shown _)
    rintro y ⟨hsolid, hunset⟩
    exact message_written hopts htype hsolid hunset

/-- A message that is the value of a field. -/
theorem single_passes {message m : Text} {field : FieldDescriptor}
    (hfield : fields_by_name (pool.messages message) field.name = some field)
    (hmessage : field.message_type = some m) (hsingle : field.label_repeated = false) {kvs : Dict}
    (hcontent : contentItems pool rawLeaf m kvs)
    (hpasses : ∀ p ∈ kvs, ∀ f, fields_by_name (pool.messages m) p.1 = some f →
      EntryPasses pool env user_temp s names m f p.2) :
    EntryPasses pool env user_temp s names message field (.dict kvs) := by
  refine dict_passes hpool hfield hmessage
    (P := fun rule address => shownItems pool s rule m address kvs) (fun rule address => ?_)
    fun address walked hwalked => ?_
  · rw [shownValue, hmessage, hsingle]
    simp only [elementAddress, hmessage, hsingle]
  · obtain ⟨sub, rfl, hsub⟩ := walkSingle_inv hmessage hsingle hwalked
    refine ⟨sub, rfl, (read_keys hpool hcontent hsub).2.1,
      items_turn hpool hcontent hpasses hsub, fun lws hlws above => ?_⟩
    have hwalk : walkValue pool (s.writer env (converter user_temp)) field above (.dict lws) =
        (walkItems pool (s.writer env (converter user_temp)) (some m) above lws lws []).map
          Value.dict := by
      rw [walkValue]
      simp only [hmessage, hsingle, Bool.false_eq_true, if_false]
    rw [hwalk]
    exact (items_returned hpool hcontent hpasses hsub hlws above).map
      fun back hback => ⟨trivial, hback⟩

/-- A message of a list or a map is read, and what is left of it is turned back, and written. -/
def ChildPasses (pool : Pool) (env : Packages) (user_temp : Text) (s : Passage)
    (names : Naming) (message : Text) (v : Value) : Prop :=
  ∀ address x,
    walkChild pool (s.reader env (converter user_temp)) (some message) address v = .ok x →
    (∃ sub, x = .dict sub ∧ Unmarked sub) ∧
      (Turns names x ↔ shownChild pool s (reached names.reader names.writer) message address v) ∧
      ∀ w, Turned names x w → ∀ above,
        Returns (walkChild pool (s.writer env (converter user_temp)) (some message) above w)
          (shownChild pool s (accepted s) message address v) fun y =>
            isNone y = false ∧ Unset x (some y)

theorem child_passes {message : Text} {kvs : Dict}
    (hcontent : contentItems pool rawLeaf message kvs)
    (hpasses : ∀ p ∈ kvs, ∀ field, fields_by_name (pool.messages message) p.1 = some field →
      EntryPasses pool env user_temp s names message field p.2) :
    ChildPasses pool env user_temp s names message (.dict kvs) := by
  intro address x hx
  obtain ⟨_, sub, ⟨⟩, rfl, hsub⟩ := walkChild_inv hx
  have hunmarked := (read_keys hpool hcontent hsub).2.1
  refine ⟨⟨sub, rfl, hunmarked⟩, ?_, fun w hw above => ?_⟩
  · rw [turns_dict hunmarked.noLink, shownChild]
    exact items_turn hpool hcontent hpasses hsub
  obtain ⟨lws, rfl, hlws⟩ := turned_dict hunmarked.noLink hw
  rw [walkChild, shownChild]
  exact (items_returned hpool hcontent hpasses hsub hlws above).map fun back hback => ⟨rfl, hback⟩

omit hpool in
theorem unset_list {xs ys : List Value} (h : List.Forall₂ (fun x y => Unset x (some y)) xs ys) :
    Unset (.list xs) (some (.list ys)) := by
  have hall : List.Forall₂ Unset xs (ys.map some) := List.forall₂_map_right_iff.mpr h
  have hsame : (ys.map some).filterMap id = ys := by
    rw [List.filterMap_map]
    exact List.filterMap_some
  have hlist := Unset.list hall
  rwa [hsame] at hlist

omit hpool in
/-- A list of messages that is left out is refused, unless it is empty. -/
theorem nulls_refused {message : Text} {vs ws : List Value}
    (h : List.Forall₂ (fun _ w => w = Value.none) vs ws) (visit : Visit) (address : Address)
    (U : List Value → Prop) (hU : U []) :
    Returns (walkList pool visit (some message) address ws) (vs = []) U := by
  cases h with
  | nil =>
    rw [walkList]
    exact (Returns.of_ok hU).congr (iff_of_true trivial rfl)
  | cons hw _ =>
    rw [walkList, hw, walkChild]
    exact (Returns.of_error _).congr (iff_of_false id (List.cons_ne_nil _ _))

omit hpool in
theorem unset_nothing (xs : List Value) : Unset (.list xs) (some (.list [])) := by
  have hall : List.Forall₂ Unset xs (xs.map fun _ => none) := by
    rw [List.forall₂_map_right_iff]
    exact List.forall₂_same.mpr fun _ _ => .left_out
  have hlist := Unset.list hall
  have hnothing : (xs.map fun _ => (none : Option Value)).filterMap id = [] := by
    simp
  rwa [hnothing] at hlist

omit hpool in
/-- The links of a list of messages are turned back. Those of a list that is left out are gone. -/
theorem messages_turn {m : Text} {vs xs : List Value} {address : Address} {excluded : Bool}
    (hpasses : ∀ v ∈ vs, ChildPasses pool env user_temp s names m v)
    (hxs : List.Forall₂ (fun v x =>
      walkChild pool (s.reader env (converter user_temp)) (some m) address v = .ok x) vs xs) :
    Turns names (.list (xs.map fun v => if excluded then .none else v)) ↔
      excluded = true ∨ shownList pool s (reached names.reader names.writer) m address vs := by
  rw [turns_list, List.forall_mem_map]
  cases excluded with
  | true => exact iff_of_true (fun x _ => turns_flat trivial) (Or.inl rfl)
  | false =>
    simp only [Bool.false_eq_true, if_false, false_or]
    rw [shownList_iff]
    constructor
    · intro hall v hv
      obtain ⟨x, hx, hvx⟩ := forall₂_left hxs hv
      exact (hpasses v hv address x hvx).2.1.mp (hall x hx)
    · intro hall x hx
      obtain ⟨v, hv, hvx⟩ := forall₂_right hxs hx
      exact (hpasses v hv address x hvx).2.1.mpr (hall v hv)

omit hpool in
/-- The messages of a list are written, where the list is not left out, and each of them is. -/
theorem messages_returned {m : Text} {vs xs ws : List Value} {address : Address} {excluded : Bool}
    (hpasses : ∀ v ∈ vs, ChildPasses pool env user_temp s names m v)
    (hxs : List.Forall₂ (fun v x =>
      walkChild pool (s.reader env (converter user_temp)) (some m) address v = .ok x) vs xs)
    (hws : List.Forall₂ (Turned names) (xs.map fun v => if excluded then .none else v) ws)
    (above : Address) :
    Returns (walkList pool (s.writer env (converter user_temp)) (some m) above ws)
      (vs = [] ∨ (excluded = false ∧ shownList pool s (accepted s) m address vs)) fun ys =>
        (∀ y ∈ ys, isNone y = false) ∧
          Unset (.list (xs.map fun v => if excluded then .none else v)) (some (.list ys)) := by
  rw [List.forall₂_map_left_iff] at hws
  cases excluded with
  | true =>
    have hnulls := (forall₂_compose hxs hws).imp fun v w ⟨x, _, hw⟩ =>
      turned_flat (v := .none) trivial hw
    refine (nulls_refused hnulls _ above _ ⟨by simp, unset_nothing _⟩).congr ?_
    simp
  | false =>
    simp only [Bool.false_eq_true, if_false, List.map_id'] at hws ⊢
    have hloop := Returns.mapM (forall₂_compose hxs hws)
      (f := walkChild pool (s.writer env (converter user_temp)) (some m) above)
      (P := shownChild pool s (accepted s) m address)
      (W := fun v y => isNone y = false ∧ ∀ x, walkChild pool (s.reader env (converter user_temp))
        (some m) address v = .ok x → Unset x (some y)) (by
        rintro v hv w ⟨x, hx, hw⟩
        refine Returns.imp ((hpasses v hv address x hx).2.2 w hw above) ?_
        intro y hy
        refine ⟨hy.1, fun x' hx' => ?_⟩
        cases hx.symm.trans hx'
        exact hy.2)
    rw [walkList_eq]
    refine (hloop.imp ?_).congr ?_
    · intro ys hys
      refine ⟨fun y hy => ?_, unset_list ?_⟩
      · obtain ⟨v, -, hnone, -⟩ := forall₂_right hys hy
        exact hnone
      · exact (forall₂_compose hxs.flip hys).imp fun x y ⟨v, hv, hunset⟩ => hunset.2 x hv
    · rw [shownList_iff]
      constructor
      · exact fun hall => Or.inr ⟨trivial, hall⟩
      · rintro (rfl | ⟨-, hall⟩)
        · simp
        · exact hall

omit hpool in
theorem shownValue_repeated {m : Text} {field : FieldDescriptor}
    (hmessage : field.message_type = some m) (rule : Rule) (address : Address) (vs : List Value) :
    shownValue pool s rule field address (.list vs) ↔ vs = [] ∨
      (s.excludes address = true ∧ rule.nulls) ∨
        (s.excludes address = false ∧ shownList pool s rule m (address ++ [none]) vs) := by
  rw [shownValue, hmessage]
  dsimp only
  cases s.excludes address <;> simp

/-- A list of messages. -/
theorem repeated_passes {message m : Text} {field : FieldDescriptor}
    (hfield : fields_by_name (pool.messages message) field.name = some field)
    (hmessage : field.message_type = some m) (hrepeated : field.label_repeated = true)
    {vs : List Value} (hpasses : ∀ v ∈ vs, ChildPasses pool env user_temp s names m v) :
    EntryPasses pool env user_temp s names message field (.list vs) := by
  obtain ⟨hname, htype, readonly, logged, stored, ignored, hopts⟩ :=
    message_options hpool hfield hmessage
  intro parent out hout
  rw [visitEntry_bind pool _ parent (splitKey_name hname) hfield] at hout
  obtain ⟨walked, hwalked, hvisit⟩ := bind_eq_ok.mp hout
  obtain ⟨xs, rfl, hxs⟩ := walkRepeated_inv hmessage hrepeated hwalked
  rw [elementAddress_leaf (Or.inr (Or.inl hrepeated))] at hvisit
  rcases decode_message_list hopts hvisit with ⟨hfilter, rfl⟩ | ⟨hfilter, rfl⟩
  · exact ⟨fun _ => Or.inl hfilter, fun q hq => nomatch hq⟩
  refine ⟨fun h => (nomatch h), ?_⟩
  rintro q ⟨⟩
  refine ⟨hfilter, rfl, ?_, fun w hw above => ?_⟩
  · refine (messages_turn hpasses hxs).trans ?_
    rw [shownValue_repeated hmessage]
    show s.excludes (parent ++ [some field.number]) = true ∨ _ ↔ _
    have hnone : vs = [] → shownList pool s (reached names.reader names.writer) m
        (parent ++ [some field.number] ++ [none]) vs := by
      rintro rfl
      exact shownList_iff.mpr (by simp)
    cases s.excludes (parent ++ [some field.number]) with
    | true => simp [reached]
    | false => simpa using hnone
  obtain ⟨ws, rfl, hws⟩ := turned_list hw
  rw [visitEntry_bind pool _ above (splitKey_name hname) hfield]
  have hwalk : walkValue pool (s.writer env (converter user_temp)) field
      (above ++ [some field.number]) (.list ws) = (walkList pool
        (s.writer env (converter user_temp)) (some m) (above ++ [some field.number] ++ [none])
          ws).map Value.list := by
    rw [walkValue]
    simp only [hmessage, hrepeated, if_true]
  have hmessages := (messages_returned hpasses hxs hws (above ++ [some field.number] ++ [none])).map
    (W := fun y => Solid y ∧ Unset _ (some y)) (g := Value.list) fun ys hys => hys
  rw [hwalk]
  refine (hmessages.bind ?_).congr ?_
  · rintro y ⟨hsolid, hunset⟩
    exact message_written hopts htype hsolid hunset
  · rw [shownValue_repeated hmessage]
    simp [accepted, Passage.excludes]

omit hpool in
/-- What is no link is not resolved as one. -/
theorem not_turned_marked {kvs : Dict} (hkvs : NoLink kvs) {w : Value} :
    ¬ TurnedEntry names true (.dict kvs) w := by
  rintro ⟨named, hsid, -⟩
  rw [resolve_marked (not_link hkvs)] at hsid
  cases hsid

omit hpool in
theorem maps_unmarked {m : Text} {kvs kws : Dict} {address : Address}
    (hpasses : ∀ p ∈ kvs, ChildPasses pool env user_temp s names m p.2)
    (hkws : List.Forall₂ (fun p q => q.1 = p.1 ∧
      walkChild pool (s.reader env (converter user_temp)) (some m) address p.2 = .ok q.2) kvs kws) :
    Unmarked kws := by
  intro q hq _ t
  obtain ⟨p, hp, -, hx⟩ := forall₂_right hkws hq
  obtain ⟨⟨sub, hsub, -⟩, -⟩ := hpasses p hp _ q.2 hx
  rw [hsub]
  rfl

omit hpool in
/-- The links of the messages of a map are turned back, where no key of it marks a link. -/
theorem values_turn {m : Text} {kvs kws : Dict} {address : Address}
    (hpasses : ∀ p ∈ kvs, ChildPasses pool env user_temp s names m p.2)
    (hkws : List.Forall₂ (fun p q => q.1 = p.1 ∧
      walkChild pool (s.reader env (converter user_temp)) (some m) address p.2 = .ok q.2)
        kvs kws) :
    (∀ q ∈ kws, ∃ w, TurnedEntry names (isMarked q.1) q.2 w) ↔
      shownMap pool s (reached names.reader names.writer) m address kvs := by
  have hentry : ∀ p ∈ kvs, ∀ q : Text × Value, q.1 = p.1 →
      walkChild pool (s.reader env (converter user_temp)) (some m) address p.2 = .ok q.2 →
        ((∃ w, TurnedEntry names (isMarked q.1) q.2 w) ↔
          isMarked p.1 = false ∧
            shownChild pool s (reached names.reader names.writer) m address p.2) := by
    intro p hp q hkey hx
    obtain ⟨⟨sub, hsub, hunmarked⟩, hturns, -⟩ := hpasses p hp address q.2 hx
    rw [hkey]
    cases hmarked : isMarked p.1 with
    | true =>
      refine iff_of_false ?_ (by simp)
      rintro ⟨w, hw⟩
      rw [hsub] at hw
      exact not_turned_marked hunmarked.noLink hw
    | false => exact hturns.trans (by simp)
  rw [shownMap_iff]
  constructor
  · intro hall p hp
    obtain ⟨q, hq, hkey, hx⟩ := forall₂_left hkws hp
    exact (hentry p hp q hkey hx).mp (hall q hq)
  · intro hall q hq
    obtain ⟨p, hp, hkey, hx⟩ := forall₂_right hkws hq
    exact (hentry p hp q hkey hx).mpr (hall p hp)

omit hpool in
/-- The messages of a map are written, where each of them is. -/
theorem values_returned {m : Text} {kvs kws lws : Dict} {address : Address}
    (hkeys : (kvs.map (·.1)).Nodup)
    (hpasses : ∀ p ∈ kvs, ChildPasses pool env user_temp s names m p.2)
    (hkws : List.Forall₂ (fun p q => q.1 = p.1 ∧
      walkChild pool (s.reader env (converter user_temp)) (some m) address p.2 = .ok q.2) kvs kws)
    (hlws : TurnedItems names kws lws) (above : Address) :
    Returns (walkMap pool (s.writer env (converter user_temp)) (some m) above lws)
      (shownMap pool s (accepted s) m address kvs) fun back =>
        Unset (.dict kws) (some (.dict back)) := by
  have hloop := Returns.mapM (forall₂_compose hkws hlws)
    (f := fun r => (walkChild pool (s.writer env (converter user_temp)) (some m) above r.2).map
      fun y => (r.1, y))
    (P := fun p => shownChild pool s (accepted s) m address p.2)
    (W := fun p r => r.1 = p.1 ∧ ∀ x, walkChild pool (s.reader env (converter user_temp))
      (some m) address p.2 = .ok x → Unset x (some r.2)) (by
      rintro p hp r ⟨q, ⟨hqp, hx⟩, hrq, hr⟩
      obtain ⟨⟨sub, hsub, hunmarked⟩, -, hreturned⟩ := hpasses p hp address q.2 hx
      have hkey : isMarked q.1 = false := by
        rw [← Bool.not_eq_true]
        intro hmarked
        rw [hmarked, hsub] at hr
        exact not_turned_marked hunmarked.noLink hr
      rw [hkey] at hr
      refine (hreturned r.2 hr above).map ?_
      intro y hy
      refine ⟨hrq.trans hqp, fun x' hx' => ?_⟩
      cases hx.symm.trans hx'
      exact hy.2)
  rw [walkMap_eq]
  refine (hloop.imp fun back hback => ?_).congr ?_
  · refine .dict (maps_unmarked hpasses hkws).not_null fun q hq => ?_
    obtain ⟨p, hp, hqp, hx⟩ := forall₂_right hkws hq
    obtain ⟨r, hr, hrp, hunset⟩ := forall₂_left hback hp
    have hbackkeys : (back.map (·.1)).Nodup := by
      rwa [← map_eq_of_forall₂ (hback.imp fun p r hpr => hpr.1.symm)]
    have hget : get? back q.1 = some r.2 := by
      rw [hqp, ← hrp]
      exact get?_of_mem hbackkeys hr
    rw [hget]
    exact hunset q.2 hx
  · rw [shownMap_iff]
    exact forall₂_congr fun p _ => by simp [accepted]

/-- A map of messages. -/
theorem map_passes {message entry m : Text} {field : FieldDescriptor}
    (hfield : fields_by_name (pool.messages message) field.name = some field)
    (hmessage : field.message_type = some entry) (hrepeated : field.label_repeated = true)
    (hentry : valueMessage pool entry = some m) {kvs : Dict} (hkeys : (kvs.map (·.1)).Nodup)
    (hpasses : ∀ p ∈ kvs, ChildPasses pool env user_temp s names m p.2) :
    EntryPasses pool env user_temp s names message field (.dict kvs) := by
  have hvalue := valueType_of_valueMessage pool hentry
  refine dict_passes hpool hfield hmessage
    (P := fun rule address => shownMap pool s rule m (address ++ [none]) kvs)
    (fun rule address => ?_) fun address walked hwalked => ?_
  · rw [shownValue, hmessage, hrepeated, elementAddress_leaf (Or.inr (Or.inl hrepeated))]
    simp only [hentry]
  · obtain ⟨message', kws, hvalue', rfl, hkws⟩ := walkMap_inv hmessage hrepeated hwalked
    cases hvalue.symm.trans hvalue'
    refine ⟨kws, rfl, maps_unmarked hpasses hkws, values_turn hpasses hkws,
      fun lws hlws above => ?_⟩
    have hwalk : walkValue pool (s.writer env (converter user_temp)) field above (.dict lws) =
        (walkMap pool (s.writer env (converter user_temp)) (some m) (above ++ [none]) lws).map
          Value.dict := by
      rw [walkValue]
      simp only [hmessage, hrepeated, if_true, hvalue, ok_bind]
      exact bind_pure_eq_map _ _
    rw [hwalk]
    exact (values_returned hkeys hpasses hkws hlws (above ++ [none])).map
      fun back hback => ⟨trivial, hback⟩

/-- What holds of a value in the induction over content: as a message of a list or a map, and as
the value of a field. -/
def Passes (pool : Pool) (env : Packages) (user_temp : Text) (s : Passage) (names : Naming)
    (v : Value) : Prop :=
  (∀ message, contentChild pool rawLeaf message v →
    ChildPasses pool env user_temp s names message v) ∧
  ∀ message field, fields_by_name (pool.messages message) field.name = some field →
    contentValue pool rawLeaf field v → EntryPasses pool env user_temp s names message field v

omit hpool in
theorem entries_pass {message : Text} {kvs : Dict}
    (hcontent : contentItems pool rawLeaf message kvs)
    (hall : ∀ p ∈ kvs, Passes pool env user_temp s names p.2) :
    ∀ p ∈ kvs, ∀ field, fields_by_name (pool.messages message) p.1 = some field →
      EntryPasses pool env user_temp s names message field p.2 := by
  intro p hp field hfield
  obtain ⟨field', hfield', hvalue⟩ := (contentItems_iff.mp hcontent).2 p hp
  cases hfield.symm.trans hfield'
  have hown : fields_by_name (pool.messages message) field.name = some field := by
    rw [fields_by_name_name hfield, hfield]
  exact (hall p hp).2 message field hown hvalue

/-- The value of a field that is no message. -/
theorem leaf_passes (hexact : Exact env user_temp) (hmode : s.mode ≠ .LOGGED) {message : Text}
    {field : FieldDescriptor}
    (hfield : fields_by_name (pool.messages message) field.name = some field)
    (hleaf : field.message_type = none) {v : Value} (hcontent : contentValue pool rawLeaf field v) :
    EntryPasses pool env user_temp s names message field v := by
  have hmem := fields_by_name_mem hfield
  have hplaced := hpool.placed message field hmem
  have hname := hpool.named message field hmem
  rcases contentValue_leaf hleaf hcontent with ⟨-, hraw⟩ | ⟨vs, rfl, -, hraw⟩
  · exact scalar_passes hexact hmode hplaced hname hfield hleaf hraw
  · exact list_passes hexact hmode hplaced hname hfield hleaf hraw

/-- Each value is read, and what is left of it is written exactly where it is accepted. -/
theorem passes (hexact : Exact env user_temp) (hmode : s.mode ≠ .LOGGED) (v : Value) :
    Passes pool env user_temp s names v := by
  induction v using value_induction with
  | dict kvs ih =>
    refine ⟨fun message hcontent => ?_, fun message field hfield hcontent => ?_⟩
    · rw [contentChild] at hcontent
      exact child_passes hpool hcontent (entries_pass hcontent ih)
    · rcases hmessage : field.message_type with _ | m
      · exact leaf_passes hpool hexact hmode hfield hmessage hcontent
      rcases contentValue_message hmessage hcontent with ⟨_, ⟨⟩, hsingle, hitems⟩ |
        ⟨_, ⟨⟩, -⟩ | ⟨_, m', ⟨⟩, hrepeated, hentry, hkeys, hchildren⟩
      · exact single_passes hpool hfield hmessage hsingle hitems (entries_pass hitems ih)
      · exact map_passes hpool hfield hmessage hrepeated hentry hkeys
          fun p hp => (ih p hp).1 m' (hchildren p hp)
  | list vs ih =>
    refine ⟨fun message hcontent => ?_, fun message field hfield hcontent => ?_⟩
    · obtain ⟨_, ⟨⟩, -⟩ := contentChild_dict hcontent
    · rcases hmessage : field.message_type with _ | m
      · exact leaf_passes hpool hexact hmode hfield hmessage hcontent
      rcases contentValue_message hmessage hcontent with ⟨_, ⟨⟩, -⟩ |
        ⟨_, ⟨⟩, hrepeated, hchildren⟩ | ⟨_, _, ⟨⟩, -⟩
      exact repeated_passes hpool hfield hmessage hrepeated
        fun v hv => (ih v hv).1 m (hchildren v hv)
  | none | bool | int | float | str =>
    refine ⟨fun message hcontent => ?_, fun message field hfield hcontent => ?_⟩
    · obtain ⟨_, ⟨⟩, -⟩ := contentChild_dict hcontent
    · rcases hmessage : field.message_type with _ | m
      · exact leaf_passes hpool hexact hmode hfield hmessage hcontent
      rcases contentValue_message hmessage hcontent with ⟨_, h, -⟩ | ⟨_, h, -⟩ | ⟨_, _, h, -⟩ <;>
        cases h

end

/-! ## Handing back -/

/-- What is read is accepted when it is handed back, exactly where each link that is shown is turned
back, no null with a unit is written, and no list of messages was left out in part. What was read
as null is then not set. -/
theorem content_is_accepted_iff {pool : Pool} (hpool : Schema pool) {env : Packages}
    {user_temp : Text} (hexact : Exact env user_temp) (names : Naming) (s : Passage)
    (hmode : s.mode ≠ .LOGGED) {message : Text} {raw shown : Dict}
    (hcontent : contentItems pool rawLeaf message raw)
    (hread : walkItems pool (s.reader env (converter user_temp)) (some message) [] raw raw [] =
      .ok shown) :
    (∃ named numbered back,
      resolve_data_ids (_find_sid names.repr names.reader) shown = .ok named ∧
      resolve_data_ids (_find_nid names.writer) named = .ok numbered ∧
      walkItems pool (s.writer env (converter user_temp)) (some message) [] numbered numbered [] =
        .ok back ∧ Unset (.dict shown) (some (.dict back))) ↔
    shownItems pool s (reached names.reader names.writer) message [] raw ∧
      shownItems pool s (accepted s) message [] raw := by
  have hpasses := entries_pass hcontent fun p _ =>
    @passes pool env user_temp s names hpool hexact hmode p.2
  have hreturned := fun numbered (hturned : TurnedItems names shown numbered) =>
    items_returned hpool hcontent hpasses hread hturned []
  rw [← items_turn hpool hcontent hpasses hread, ← data_turns]
  constructor
  · rintro ⟨named, numbered, back, hnamed, hnumbered, hback, -⟩
    exact ⟨⟨named, numbered, hnamed, hnumbered⟩,
      ((hreturned numbered (resolved_entries hnamed hnumbered)).holds hback).1⟩
  · rintro ⟨⟨named, numbered, hnamed, hnumbered⟩, haccepted⟩
    obtain ⟨back, hback, hunset⟩ :=
      (hreturned numbered (resolved_entries hnamed hnumbered)).result haccepted
    exact ⟨named, numbered, back, hnamed, hnumbered, hback, hunset⟩

end devcon_spark.codec.content
