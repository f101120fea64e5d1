-- The laws of the mask in what is read: which values `post_decode` shows, and
-- which are null.
import DevconSpark.PatchLaws

open py_text py_dict py_number py_value devcon_spark.exceptions devcon_spark.models
open devcon_spark.codec.descriptor devcon_spark.codec.time_utils
open devcon_spark.codec.unit_conversion devcon_spark.codec.processor

namespace devcon_spark.codec.content

/-! ## Addresses -/

/-- The field numbers of a path through submessages. -/
inductive FieldPath (pool : Pool) : Text → List Nat → Prop
  | root {message} : FieldPath pool message []
  | last {message field} (hmem : field ∈ pool.messages message) :
    FieldPath pool message [field.number]
  | inner {message field m path} (hmem : field ∈ pool.messages message)
    (hmessage : field.message_type = some m) (hsingle : field.label_repeated = false)
    (hpath : FieldPath pool m path) : FieldPath pool message (field.number :: path)

/-- Whether a mask address is where a field stands, or above it. -/
def Covered (masks : List MaskField) (address : List Nat) : Prop :=
  ∃ mask ∈ masks, mask.address <+: address.map Int.ofNat

theorem Covered.mono {masks : List MaskField} {a b : List Nat} (hpre : a <+: b)
    (h : Covered masks a) : Covered masks b := by
  obtain ⟨mask, hmask, hma⟩ := h
  exact ⟨mask, hmask, hma.trans (hpre.map Int.ofNat)⟩

theorem matches_cons (t : Int) (ts : List Int) (a : Option Nat) (as : Address) :
    matches_address { address := t :: ts } (a :: as) = true ↔
      a.map Int.ofNat = some t ∧ matches_address { address := ts } as = true := by
  simp [matches_address]

/-- What is above an address matches it, and all that is below. -/
theorem matches_of_prefix {ts : List Int} {address : List Nat} (h : ts <+: address.map Int.ofNat)
    (rest : Address) : matches_address { address := ts } (address.map some ++ rest) = true := by
  induction ts generalizing address with
  | nil => rfl
  | cons t ts ih =>
    cases address with
    | nil => simp at h
    | cons n address =>
      rw [List.map_cons, List.cons_prefix_cons] at h
      rw [List.map_cons, List.cons_append, matches_cons]
      exact ⟨congrArg some h.1.symm, ih h.2⟩

/-- What matches below an address is above that address, or below it. -/
theorem prefix_of_matches {ts : List Int} {address : List Nat} {rest : Address}
    (h : matches_address { address := ts } (address.map some ++ rest) = true) :
    ts <+: address.map Int.ofNat ∨ address.map Int.ofNat <+: ts := by
  induction ts generalizing address with
  | nil => exact Or.inl List.nil_prefix
  | cons t ts ih =>
    cases address with
    | nil => exact Or.inr List.nil_prefix
    | cons n address =>
      rw [List.map_cons, List.cons_append, matches_cons] at h
      rw [List.map_cons, List.cons_prefix_cons, List.cons_prefix_cons]
      obtain rfl := Option.some.inj h.1
      exact (ih h.2).imp (fun hp => ⟨rfl, hp⟩) (fun hp => ⟨rfl, hp⟩)

/-- What is no tag is matched by no tag. -/
theorem prefix_of_matches_none {ts : List Int} {address : List Nat} {rest : Address}
    (h : matches_address { address := ts } (address.map some ++ none :: rest) = true) :
    ts <+: address.map Int.ofNat := by
  induction ts generalizing address with
  | nil => exact List.nil_prefix
  | cons t ts ih =>
    cases address with
    | nil =>
      rw [List.map_nil, List.nil_append, matches_cons] at h
      cases h.1
    | cons n address =>
      rw [List.map_cons, List.cons_append, matches_cons] at h
      rw [List.map_cons, List.cons_prefix_cons]
      exact ⟨(Option.some.inj h.1).symm, ih h.2⟩

section
variable {pool : Pool} {masks : List MaskField}

/-- No path goes on below a leaf. -/
theorem leaf_ends_path (hpool : Numbered pool) {message : Text} {kvs : Dict}
    {parents : List FieldDescriptor} {field : FieldDescriptor} {v : Value}
    (hat : At pool message kvs parents field v)
    (hleaf : field.message_type = none ∨ field.label_repeated = true) {path : List Nat}
    (hpath : FieldPath pool message path) (hpre : numbers parents field <+: path) :
    path = numbers parents field := by
  have hunique : ∀ {message : Text} {f g : FieldDescriptor}, f ∈ pool.messages message →
      g ∈ pool.messages message → f.number = g.number → f = g :=
    fun hf hg h => List.inj_on_of_nodup_map (hpool _) hf hg h
  induction hat generalizing path with
  | here hmem hfield =>
    cases hpath with
    | root => simp [numbers] at hpre
    | last hmem' =>
      rw [numbers, List.nil_append, List.map_singleton, List.cons_prefix_cons] at hpre
      rw [numbers, List.nil_append, List.map_singleton, hpre.1]
    | inner hmem' hmessage hsingle hpath =>
      rw [numbers, List.nil_append, List.map_singleton, List.cons_prefix_cons] at hpre
      obtain rfl := hunique (fields_by_name_mem hfield) hmem' hpre.1
      rw [hmessage, hsingle] at hleaf
      simp at hleaf
  | @inner message kvs k sub f m parents field v hmem hfield hmessage hsingle hat ih =>
    have hcons : numbers (f :: parents) field = f.number :: numbers parents field := rfl
    rw [hcons] at hpre ⊢
    cases hpath with
    | root => simp at hpre
    | last => simp [numbers] at hpre
    | inner hmem' hmessage' hsingle' hpath =>
      rw [List.cons_prefix_cons] at hpre
      obtain rfl := hunique (fields_by_name_mem hfield) hmem' hpre.1
      cases hmessage.symm.trans hmessage'
      rw [ih hleaf hpath hpre.2]

/-- The mask addresses are paths of fields. -/
def MaskPaths (pool : Pool) (message : Text) (masks : List MaskField) : Prop :=
  ∀ mask ∈ masks, ∃ path, FieldPath pool message path ∧ mask.address = path.map Int.ofNat

/-- The elements of a leaf are masked where a mask address is above it. -/
theorem masked_leaf (hpool : Numbered pool) {message : Text} (hmasks : MaskPaths pool message masks)
    {kvs : Dict} {parents : List FieldDescriptor} {field : FieldDescriptor} {v : Value}
    (hat : At pool message kvs parents field v)
    (hleaf : field.message_type = none ∨ field.label_repeated = true) (rest : Address) :
    masks.any (matches_address · ((numbers parents field).map some ++ rest)) = true ↔
      Covered masks (numbers parents field) := by
  rw [List.any_eq_true]
  constructor
  · rintro ⟨mask, hmask, hmatch⟩
    obtain ⟨path, hpath, haddress⟩ := hmasks mask hmask
    refine ⟨mask, hmask, ?_⟩
    have hor : mask.address <+: (numbers parents field).map Int.ofNat ∨
        (numbers parents field).map Int.ofNat <+: mask.address := prefix_of_matches hmatch
    rcases hor with hpre | hpre
    · exact hpre
    · rw [haddress, List.prefix_map_iff] at hpre
      obtain ⟨above, habove, heq⟩ := hpre
      obtain rfl := List.map_injective_iff.mpr Int.ofNat_injective heq
      rw [haddress, leaf_ends_path hpool hat hleaf hpath habove]
  · rintro ⟨mask, hmask, hpre⟩
    exact ⟨mask, hmask, matches_of_prefix hpre rest⟩

/-- An element with an address that goes on with no tag is masked where a mask address is above. -/
theorem masked_below (masks : List MaskField) (address : List Nat) (rest : Address) :
    masks.any (matches_address · (address.map some ++ none :: rest)) = true ↔
      Covered masks address := by
  rw [List.any_eq_true]
  constructor
  · rintro ⟨mask, hmask, hmatch⟩
    exact ⟨mask, hmask, prefix_of_matches_none hmatch⟩
  · rintro ⟨mask, hmask, hpre⟩
    exact ⟨mask, hmask, matches_of_prefix hpre (none :: rest)⟩

end

/-! ## What a masked element is read as -/

/-- A null: as it is, or as the value of an object. -/
def IsNull (w : Value) : Prop :=
  w = .none ∨ (∃ options user_unit, w = quantityValue options user_unit .none) ∨
    ∃ link_type, w = linkValue link_type .none

/-- A list is null where its items are. -/
def Null (w : Value) : Prop :=
  match w with
  | .list ws => ∀ w ∈ ws, IsNull w
  | w => IsNull w

section
variable {env : Packages} {cv : UnitConverter} {mode : ReadMode} {maskMode : MaskMode}
variable {masks : List MaskField} {user_unit : Text} {options : FieldOpts} {filter_values : Bool}

theorem isNull_metadata {typed : Value → Value} (h : IsNull (typed .none)) :
    IsNull (withMetadata mode typed .none) := by
  unfold withMetadata
  split
  · exact h
  · exact Or.inl rfl

/-- A value that the mask leaves out is null. -/
theorem decode_value_null {v w : Value}
    (h : decode_value env cv mode options true user_unit v = .ok w) : IsNull w := by
  unfold decode_value at h
  obtain ⟨x, -, h⟩ := bind_eq_ok.mp h
  simp only [Bool.true_or, if_true] at h
  by_cases hunit : options.unit = .NotSet
  · rw [if_neg (not_not.mpr hunit)] at h
    cases hobjtype : options.objtype with
    | some link_type =>
      rw [hobjtype] at h
      obtain rfl := Except.ok.inj h
      exact isNull_metadata (Or.inr (Or.inr ⟨link_type, rfl⟩))
    | none =>
      rw [hobjtype] at h
      exact Or.inl (Except.ok.inj h).symm
  · rw [if_pos hunit] at h
    obtain rfl := Except.ok.inj h
    exact isNull_metadata (Or.inr (Or.inl ⟨options, user_unit, rfl⟩))

/-- A value that is read is also read as null. -/
theorem decode_value_masked {v w : Value} (excluded : Bool)
    (h : decode_value env cv mode options false user_unit v = .ok w) :
    ∃ w', decode_value env cv mode options excluded user_unit v = .ok w' := by
  cases excluded with
  | false => exact ⟨w, h⟩
  | true =>
    unfold decode_value at h ⊢
    obtain ⟨x, hx, -⟩ := bind_eq_ok.mp h
    rw [hx, ok_bind]
    simp only [Bool.true_or, if_true]
    by_cases hunit : options.unit = .NotSet
    · rw [if_neg (not_not.mpr hunit)]
      cases options.objtype with
      | some link_type => exact ⟨_, rfl⟩
      | none => exact ⟨_, rfl⟩
    · rw [if_pos hunit]
      exact ⟨_, rfl⟩

variable {element : OptionElement} {x : Value}

/-- An element that was read is filtered, or has a unit of the user. -/
theorem decodeElement_inv {out : Option (Text × Value)}
    (h : decodeElement env cv mode filter_values maskMode masks element x = .ok out) :
    (filtered mode filter_values element.field.opts = true ∧ out = none) ∨
      (filtered mode filter_values element.field.opts = false ∧
        ∃ user_unit, to_user_unit cv element.field.opts.unit.Name = .ok user_unit) := by
  by_cases hfilter : filtered mode filter_values element.field.opts = true
  · rw [decodeElement_filtered hfilter] at h
    exact Or.inl ⟨hfilter, (Except.ok.inj h).symm⟩
  · rw [Bool.not_eq_true] at hfilter
    refine Or.inr ⟨hfilter, ?_⟩
    unfold decodeElement at h
    simp only [hfilter, Bool.false_eq_true, if_false] at h
    obtain ⟨user_unit, huser, -⟩ := bind_eq_ok.mp h
    exact ⟨user_unit, huser⟩

/-- What the mask does not leave out is read as without a mask. -/
theorem decode_shown (h : excludes maskMode masks element.address = false) :
    decodeElement env cv mode false maskMode masks element x =
      decodeElement env cv mode false .NO_MASK masks element x := by
  unfold decodeElement
  simp only [h]
  rfl

/-- What is read without a mask is read with one. -/
theorem decode_masked {out : Option (Text × Value)}
    (h : decodeElement env cv mode false .NO_MASK masks element x = .ok out) :
    ∃ out', decodeElement env cv mode false maskMode masks element x = .ok out' := by
  rcases decodeElement_inv h with ⟨hfilter, -⟩ | ⟨hfilter, user_unit, huser⟩
  · exact ⟨none, decodeElement_filtered hfilter x⟩
  by_cases hlist : ∃ vs, x = .list vs
  · obtain ⟨vs, rfl⟩ := hlist
    rw [decodeElement_list hfilter huser] at h ⊢
    obtain ⟨ws, hws, -⟩ := map_eq_ok.mp h
    have hturns : ∀ v ∈ if element.field.opts.omit_if_zero then vs.filter (! isZero ·) else vs,
        ∃ w, decode_value env cv mode element.field.opts
          (excludes maskMode masks element.address) user_unit v = .ok w ∧ True := by
      intro v hv
      obtain ⟨w, -, hw⟩ := forall₂_left (forall₂_of_mapM hws) hv
      exact (decode_value_masked _ hw).imp fun _ hw' => ⟨hw', trivial⟩
    obtain ⟨ws', hws', -⟩ := mapM_forall₂ hturns
    rw [hws']
    exact ⟨_, rfl⟩
  · have hnot : ∀ vs, x ≠ .list vs := fun vs hx => hlist ⟨vs, hx⟩
    rw [decodeElement_scalar hfilter huser hnot] at h ⊢
    split at h
    · rename_i homit
      rw [if_pos homit]
      exact ⟨none, rfl⟩
    · rename_i homit
      rw [if_neg homit]
      obtain ⟨w, hw, -⟩ := map_eq_ok.mp h
      obtain ⟨w', hw'⟩ := decode_value_masked (excludes maskMode masks element.address) hw
      rw [hw']
      exact ⟨_, rfl⟩

/-- An entry that is left of an element. -/
theorem decode_entry {q : Text × Value}
    (h : decodeElement env cv mode filter_values maskMode masks element x = .ok (some q)) :
    ∃ user_unit, q.1 = decodedKey mode element.field.opts user_unit element.key ∧
      ((∃ ws, q.2 = .list ws ∧ ∀ w ∈ ws, ∃ v, decode_value env cv mode element.field.opts
          (excludes maskMode masks element.address) user_unit v = .ok w) ∨
        decode_value env cv mode element.field.opts
          (excludes maskMode masks element.address) user_unit x = .ok q.2) := by
  rcases decodeElement_inv h with ⟨-, hnone⟩ | ⟨hfilter, user_unit, huser⟩
  · cases hnone
  refine ⟨user_unit, ?_⟩
  by_cases hlist : ∃ vs, x = .list vs
  · obtain ⟨vs, rfl⟩ := hlist
    rw [decodeElement_list hfilter huser] at h
    obtain ⟨ws, hws, heq⟩ := map_eq_ok.mp h
    cases heq
    refine ⟨rfl, Or.inl ⟨ws, rfl, fun w hw => ?_⟩⟩
    obtain ⟨v, -, hv⟩ := forall₂_right (forall₂_of_mapM hws) hw
    exact ⟨v, hv⟩
  · have hnot : ∀ vs, x ≠ .list vs := fun vs hx => hlist ⟨vs, hx⟩
    rw [decodeElement_scalar hfilter huser hnot] at h
    split at h
    · cases h
    · obtain ⟨w, hw, heq⟩ := map_eq_ok.mp h
      cases heq
      exact ⟨rfl, Or.inr hw⟩

/-- What the mask leaves out is null. -/
theorem decode_null (hexcl : excludes maskMode masks element.address = true) {q : Text × Value}
    (h : decodeElement env cv mode false maskMode masks element x = .ok (some q)) : Null q.2 := by
  obtain ⟨k, w⟩ := q
  obtain ⟨user_unit, -, ⟨ws, rfl, hws⟩ | hw⟩ := decode_entry h
  · intro w hw
    obtain ⟨v, hv⟩ := hws w hw
    rw [hexcl] at hv
    exact decode_value_null hv
  · rw [hexcl] at hw
    have hnull := decode_value_null hw
    cases w with
    | list ws => rcases hnull with hw | ⟨_, _, hw⟩ | ⟨_, hw⟩ <;> cases hw
    | none | bool | int | float | str | dict => exact hnull

/-- A key that was decoded is of the field it was of. -/
theorem decode_base (hkey : Plain element.key) {q : Text × Value}
    (h : decodeElement env cv mode filter_values maskMode masks element x = .ok (some q)) :
    baseOf q.1 = element.key := by
  obtain ⟨user_unit, hq, -⟩ := decode_entry h
  have hplain : baseOf element.key = element.key := (splitKey_base (splitKey_name hkey)).symm
  rw [hq]
  unfold decodedKey
  cases metadata_opt mode with
  | TYPED => exact hplain
  | POSTFIX =>
    dsimp only
    split
    · rw [List.append_assoc]
      exact baseOf_plain hkey (by simp [symbols])
    · split
      · rw [List.append_assoc]
        exact baseOf_plain hkey (by simp [symbols])
      · exact hplain

/-- A message has no value of its own. -/
theorem decode_value_message {readonly logged stored ignored excluded : Bool} (v : Value) :
    decode_value env cv mode { readonly, logged, stored, ignored } excluded user_unit v =
      .ok (if excluded then .none else v) := by
  cases excluded <;> rfl

/-- All fields are read but those that are ignored. -/
theorem filtered_all (mode : ReadMode) (options : FieldOpts) :
    filtered mode false options = options.ignored := by simp [filtered]

/-- A submessage is read as it is, or as null. -/
theorem decode_message_dict {readonly logged stored ignored : Bool}
    (hopts : element.field.opts = { readonly, logged, stored, ignored }) {kvs : Dict}
    {out : Option (Text × Value)}
    (h : decodeElement env cv mode filter_values maskMode masks element (.dict kvs) = .ok out) :
    (filtered mode filter_values element.field.opts = true ∧ out = none) ∨
      (filtered mode filter_values element.field.opts = false ∧ out = some
        (element.key, if excludes maskMode masks element.address then .none else .dict kvs)) := by
  rcases decodeElement_inv h with ⟨hfilter, rfl⟩ | ⟨hfilter, user_unit, huser⟩
  · exact Or.inl ⟨hfilter, rfl⟩
  · rw [decodeElement_scalar hfilter huser (by simp), hopts, decode_value_message,
      decodedKey_plain mode rfl rfl] at h
    exact Or.inr ⟨hfilter, (Except.ok.inj h).symm⟩

/-- The messages of a list are read as they are, or each as null. -/
theorem decode_message_list {readonly logged stored ignored : Bool}
    (hopts : element.field.opts = { readonly, logged, stored, ignored }) {vs : List Value}
    {out : Option (Text × Value)}
    (h : decodeElement env cv mode filter_values maskMode masks element (.list vs) = .ok out) :
    (filtered mode filter_values element.field.opts = true ∧ out = none) ∨
      (filtered mode filter_values element.field.opts = false ∧ out = some (element.key,
        .list (vs.map fun v => if excludes maskMode masks element.address then .none else v))) := by
  rcases decodeElement_inv h with ⟨hfilter, rfl⟩ | ⟨hfilter, user_unit, huser⟩
  · exact Or.inl ⟨hfilter, rfl⟩
  · rw [decodeElement_list hfilter huser, hopts, mapM_ok fun v _ => decode_value_message v,
      decodedKey_plain mode rfl rfl] at h
    exact Or.inr ⟨hfilter, (Except.ok.inj h).symm⟩

/-- Where one value of a field of messages is read, all values are. -/
theorem decode_message_ok {readonly logged stored ignored : Bool}
    (hopts : element.field.opts = { readonly, logged, stored, ignored })
    {out : Option (Text × Value)}
    (h : decodeElement env cv mode false .NO_MASK masks element x = .ok out) (y : Value) :
    ∃ out', decodeElement env cv mode false maskMode masks element y = .ok out' := by
  rcases decodeElement_inv h with ⟨hfilter, -⟩ | ⟨hfilter, user_unit, huser⟩
  · exact ⟨none, decodeElement_filtered hfilter y⟩
  by_cases hlist : ∃ vs, y = .list vs
  · obtain ⟨vs, rfl⟩ := hlist
    rw [decodeElement_list hfilter huser, hopts, mapM_ok fun v _ => decode_value_message v]
    exact ⟨_, rfl⟩
  · rw [decodeElement_scalar hfilter huser (fun vs hy => hlist ⟨vs, hy⟩), hopts,
      decode_value_message]
    exact ⟨_, rfl⟩

end

/-! ## Walks with and without a mask -/

section
variable {pool : Pool} (hpool : WellPlaced pool) {leaf : FieldDescriptor → Value → Prop}
variable {env : Packages} {cv : UnitConverter} {mode : ReadMode} {maskMode : MaskMode}
variable {masks : List MaskField}

theorem decodeEntry_base {message : Text} {parent : Address} {p q : Text × Value}
    {filter_values : Bool} (hkey : Plain p.1)
    (h : visitEntry pool (decodeElement env cv mode filter_values maskMode masks) (some message)
      parent p = .ok (some q)) : baseOf q.1 = baseOf p.1 := by
  obtain ⟨postfixed, field, walked, -, -, -, hvisit⟩ := visitEntry_inv h
  rw [decode_base hkey hvisit]
  exact splitKey_base (splitKey_name hkey)

include hpool

theorem message_field {message : Text} {field : FieldDescriptor}
    (hmem : field ∈ pool.messages message) {m : Text} (hmessage : field.message_type = some m) :
    ∃ readonly logged stored ignored, field.opts = { readonly, logged, stored, ignored } := by
  have htype := (hpool.typed message field hmem).mpr (by rw [hmessage]; rfl)
  have hplaced := hpool.placed message field hmem
  rw [htype] at hplaced
  exact message_opts hplaced

/-- What a walk over content has done. -/
theorem decodeItems_inv {message : Text} {kvs : Dict}
    (hcontent : contentItems pool leaf message kvs)
    {parent : Address} {obj : Dict}
    (h : walkItems pool (decodeElement env cv mode false maskMode masks) (some message) parent kvs
      kvs [] = .ok obj) :
    (∀ p ∈ kvs, ∃ out, visitEntry pool (decodeElement env cv mode false maskMode masks)
      (some message) parent p = .ok out) ∧
    ∀ q, q ∈ obj ↔ ∃ p ∈ kvs, visitEntry pool (decodeElement env cv mode false maskMode masks)
      (some message) parent p = .ok (some q) := by
  obtain ⟨hplain, hbases⟩ := contentItems_bases hpool hcontent
  exact walkItems_inv hbases (fun p hp q => decodeEntry_base (hplain p hp).1) h

/-- What is read without a mask is read with one, at any depth. -/
def ReadMasked (pool : Pool) (leaf : FieldDescriptor → Value → Prop) (env : Packages)
    (cv : UnitConverter) (mode : ReadMode) (maskMode : MaskMode) (masks : List MaskField)
    (v : Value) : Prop :=
  (∀ message address, contentChild pool leaf message v → ∀ x,
    walkChild pool (decodeElement env cv mode false .NO_MASK masks) (some message) address v =
        .ok x →
      ∃ y,
        walkChild pool (decodeElement env cv mode false maskMode masks) (some message) address v =
        .ok y) ∧
  ∀ field address, contentValue pool leaf field v → ∀ x,
    walkValue pool (decodeElement env cv mode false .NO_MASK masks) field address v = .ok x →
      ∃ y, walkValue pool (decodeElement env cv mode false maskMode masks) field address v = .ok y

theorem items_read_masked {message : Text} {kvs : Dict}
    (hvalues : ∀ p ∈ kvs, ReadMasked pool leaf env cv mode maskMode masks p.2)
    (hcontent : contentItems pool leaf message kvs) {parent : Address} {obj : Dict}
    (h : walkItems pool (decodeElement env cv mode false .NO_MASK masks) (some message) parent kvs
      kvs [] = .ok obj) :
    ∃ obj', walkItems pool (decodeElement env cv mode false maskMode masks) (some message) parent
      kvs kvs [] = .ok obj' := by
  obtain ⟨hplain, hbases⟩ := contentItems_bases hpool hcontent
  obtain ⟨hvisits, -⟩ := decodeItems_inv hpool hcontent h
  refine walkItems_ok hbases (fun p hp q => decodeEntry_base (hplain p hp).1) fun p hp => ?_
  obtain ⟨out, hout⟩ := hvisits p hp
  obtain ⟨postfixed, field, x, hsplit, hfield, hx, hvisit⟩ := visitEntry_inv hout
  obtain ⟨field', hfield', hvalue⟩ := (contentItems_iff.mp hcontent).2 p hp
  have hsame : field = field' := by
    unfold fieldAt at hfield
    rw [(hplain p hp).2, hfield'] at hfield
    exact (Option.some.inj hfield).symm
  subst hsame
  obtain ⟨y, hy⟩ := (hvalues p hp).2 field _ hvalue x hx
  rw [visitEntry_eq pool _ parent hsplit hfield hy]
  rcases hmessage : field.message_type with _ | m
  · rw [walkValue_leaf hmessage] at hx hy
    cases hx.symm.trans hy
    exact decode_masked hvisit
  · obtain ⟨readonly, logged, stored, ignored, hopts⟩ :=
      message_field hpool (fields_by_name_mem hfield) hmessage
    exact decode_message_ok hopts hvisit y

theorem read_masked (v : Value) : ReadMasked pool leaf env cv mode maskMode masks v := by
  induction v using value_induction with
  | none | bool | int | float | str =>
    refine ⟨fun message address hcontent => ?_, fun field address _ x hx => ⟨x, ?_⟩⟩
    · obtain ⟨kvs, heq, -⟩ := contentChild_dict hcontent
      cases heq
    · rw [walkValue] at hx ⊢
      exact hx
  | list vs ih =>
    refine ⟨fun message address hcontent => ?_, fun field address hcontent x hx => ?_⟩
    · obtain ⟨kvs, heq, -⟩ := contentChild_dict hcontent
      cases heq
    · rcases hmessage : field.message_type with _ | m
      · exact ⟨.list vs, walkValue_leaf hmessage _ _⟩
      rcases contentValue_message hmessage hcontent with ⟨_, heq, -⟩ | ⟨_, ⟨⟩, hrepeated, hvs⟩ |
        ⟨_, _, heq, -⟩
      · cases heq
      · obtain ⟨xs, -, hxs⟩ := walkRepeated_inv hmessage hrepeated hx
        have hturns : ∀ v ∈ vs, ∃ y, walkChild pool (decodeElement env cv mode false maskMode masks)
            (some m) (address ++ [none]) v = .ok y ∧ True := by
          intro v hv
          obtain ⟨x, -, hx⟩ := forall₂_left hxs hv
          exact ((ih v hv).1 m _ (hvs v hv) x hx).imp fun _ hy => ⟨hy, trivial⟩
        obtain ⟨ys, hys, -⟩ := mapM_forall₂ hturns
        rw [walkValue]
        simp only [hmessage, hrepeated, if_true, walkList_eq, hys]
        exact ⟨_, rfl⟩
      · cases heq
  | dict kvs ih =>
    refine ⟨fun message address hcontent x hx => ?_, fun field address hcontent x hx => ?_⟩
    · rw [contentChild] at hcontent
      obtain ⟨_, obj, ⟨⟩, -, hobj⟩ := walkChild_inv hx
      obtain ⟨obj', hobj'⟩ := items_read_masked hpool ih hcontent hobj
      rw [walkChild, hobj']
      exact ⟨_, rfl⟩
    · rcases hmessage : field.message_type with _ | m
      · exact ⟨.dict kvs, walkValue_leaf hmessage _ _⟩
      rcases contentValue_message hmessage hcontent with ⟨_, ⟨⟩, hsingle, hitems⟩ | ⟨_, heq, -⟩ |
        ⟨_, m', ⟨⟩, hrepeated, hvalue, -, hkvs⟩
      · obtain ⟨obj, -, hobj⟩ := walkSingle_inv hmessage hsingle hx
        obtain ⟨obj', hobj'⟩ := items_read_masked hpool ih hitems hobj
        rw [walkValue]
        simp only [hmessage, hsingle, Bool.false_eq_true, if_false, hobj']
        exact ⟨_, rfl⟩
      · cases heq
      · obtain ⟨message, xs, hmap, -, hxs⟩ := walkMap_inv hmessage hrepeated hx
        cases hmap.symm.trans (valueType_of_valueMessage pool hvalue)
        have hturns : ∀ p ∈ kvs, ∃ q, (walkChild pool
            (decodeElement env cv mode false maskMode masks) (some m') (address ++ [none]) p.2).map
              (fun v => (p.1, v)) = .ok q ∧ True := by
          intro p hp
          obtain ⟨q, -, -, hq⟩ := forall₂_left hxs hp
          obtain ⟨y, hy⟩ := (ih p hp).1 m' _ (hkvs p hp) _ hq
          exact ⟨(p.1, y), by rw [hy]; rfl, trivial⟩
        obtain ⟨ys, hys, -⟩ := mapM_forall₂ hturns
        rw [walkValue]
        simp only [hmessage, hrepeated, if_true, walkMap_eq, hmap, ok_bind, hys]
        exact ⟨_, rfl⟩

theorem content_entry {message k : Text} {kvs : Dict}
    (hcontent : contentItems pool leaf message kvs)
    {v : Value} (hmem : (k, v) ∈ kvs) {field : FieldDescriptor}
    (hfield : fieldAt pool message k = some field) : contentValue pool leaf field v := by
  obtain ⟨field', hfield', hvalue⟩ := (contentItems_iff.mp hcontent).2 _ hmem
  unfold fieldAt at hfield
  rw [((contentItems_bases hpool hcontent).1 _ hmem).2, hfield'] at hfield
  cases hfield
  exact hvalue

theorem content_sub {message k m : Text} {kvs sub : Dict}
    (hcontent : contentItems pool leaf message kvs) (hmem : (k, .dict sub) ∈ kvs)
    {field : FieldDescriptor} (hfield : fieldAt pool message k = some field)
    (hmessage : field.message_type = some m) (hsingle : field.label_repeated = false) :
    contentItems pool leaf m sub := by
  have hvalue := content_entry hpool hcontent hmem hfield
  rw [contentValue, hmessage, hsingle] at hvalue
  exact hvalue

/-- An entry that is read comes from the entry of its field. -/
theorem read_visit {message k : Text} {kvs : Dict} (hcontent : contentItems pool leaf message kvs)
    {v : Value} (hmem : (k, v) ∈ kvs) {field : FieldDescriptor}
    (hfield : fieldAt pool message k = some field) {parent : Address} {obj : Dict}
    (h : walkItems pool (decodeElement env cv mode false maskMode masks) (some message) parent kvs
      kvs [] = .ok obj) {q : Text × Value} (hq : q ∈ obj)
    (hqfield : fieldAt pool message q.1 = some field) :
    visitEntry pool (decodeElement env cv mode false maskMode masks) (some message) parent (k, v) =
      .ok (some q) := by
  obtain ⟨hplain, hbases⟩ := contentItems_bases hpool hcontent
  obtain ⟨⟨k', v'⟩, hp, hout⟩ := ((decodeItems_inv hpool hcontent h).2 q).mp hq
  have hfield' : fieldAt pool message k' = some field := by
    unfold fieldAt at hqfield ⊢
    rwa [decodeEntry_base (hplain _ hp).1 hout] at hqfield
  obtain ⟨rfl, rfl⟩ := entry_unique hbases hmem hp hfield hfield'
  exact hout

omit hpool in
/-- The element of an entry that is read. -/
theorem element_of_visit {message k : Text} {v : Value} {field : FieldDescriptor}
    (hfield : fieldAt pool message k = some field) {parent : Address}
    {out : Option (Text × Value)}
    (h : visitEntry pool (decodeElement env cv mode false maskMode masks) (some message) parent
      (k, v) = .ok out) :
    ∃ element walked, element.field = field ∧
      element.address = elementAddress field (parent ++ [some field.number]) v ∧
      walkValue pool (decodeElement env cv mode false maskMode masks) field
        (parent ++ [some field.number]) v = .ok walked ∧
      decodeElement env cv mode false maskMode masks element walked = .ok out := by
  obtain ⟨postfixed, field', walked, -, hfield', hwalked, hvisit⟩ := visitEntry_inv h
  cases hfield.symm.trans hfield'
  exact ⟨_, walked, rfl, rfl, hwalked, hvisit⟩

/-- What is read of a submessage. -/
theorem visit_sub {message k m : Text} {sub : Dict} {field : FieldDescriptor}
    (hfield : fieldAt pool message k = some field) (hmessage : field.message_type = some m)
    (hsingle : field.label_repeated = false) {parent : Address} {out : Option (Text × Value)}
    (h : visitEntry pool (decodeElement env cv mode false maskMode masks) (some message) parent
      (k, .dict sub) = .ok out) :
    ∃ sub', walkItems pool (decodeElement env cv mode false maskMode masks) (some m)
        (parent ++ [some field.number]) sub sub [] = .ok sub' ∧
      ((field.opts.ignored = true ∧ out = none) ∨ (field.opts.ignored = false ∧ ∃ k', out = some
        (k', if excludes maskMode masks (parent ++ [some field.number] ++ [none]) then .none
          else .dict sub'))) := by
  obtain ⟨element, walked, rfl, haddress, hwalked, hvisit⟩ := element_of_visit hfield h
  obtain ⟨readonly, logged, stored, ignored, hopts⟩ :=
    message_field hpool (fields_by_name_mem hfield) hmessage
  obtain ⟨sub', rfl, hsub'⟩ := walkSingle_inv hmessage hsingle hwalked
  refine ⟨sub', hsub', ?_⟩
  have hown : element.address = parent ++ [some element.field.number] ++ [none] := by
    simp only [haddress, elementAddress, hmessage, hsingle]
  have hcases := decode_message_dict hopts hvisit
  rw [hown, filtered_all] at hcases
  exact hcases.imp_right fun ⟨hignored, hout⟩ => ⟨hignored, _, hout⟩

/-- A submessage that is read is not ignored, and the mask shows it. -/
theorem read_sub {message k m : Text} {kvs sub : Dict}
    (hcontent : contentItems pool leaf message kvs)
    (hmem : (k, .dict sub) ∈ kvs) {field : FieldDescriptor}
    (hfield : fieldAt pool message k = some field) (hmessage : field.message_type = some m)
    (hsingle : field.label_repeated = false) {parent : Address} {obj : Dict}
    (h : walkItems pool (decodeElement env cv mode false maskMode masks) (some message) parent kvs
      kvs [] = .ok obj) {k' : Text} {sub' : Dict} (hq : (k', .dict sub') ∈ obj)
    (hqfield : fieldAt pool message k' = some field) :
    field.opts.ignored = false ∧
      excludes maskMode masks (parent ++ [some field.number] ++ [none]) = false ∧
      walkItems pool (decodeElement env cv mode false maskMode masks) (some m)
        (parent ++ [some field.number]) sub sub [] = .ok sub' := by
  have hvisit := read_visit hpool hcontent hmem hfield h hq hqfield
  obtain ⟨obj', hobj', ⟨-, hnone⟩ | ⟨hignored, k'', heq⟩⟩ :=
    visit_sub hpool hfield hmessage hsingle hvisit
  · cases hnone
  by_cases hexcl : excludes maskMode masks (parent ++ [some field.number] ++ [none]) = true
  · rw [if_pos hexcl] at heq
    cases heq
  · rw [if_neg hexcl] at heq
    cases heq
    exact ⟨hignored, by simpa using hexcl, hobj'⟩

/-- A submessage that is not ignored, and that the mask shows, is read. -/
theorem sub_is_read {message k m : Text} {kvs sub : Dict}
    (hcontent : contentItems pool leaf message kvs)
    (hmem : (k, .dict sub) ∈ kvs) {field : FieldDescriptor}
    (hfield : fieldAt pool message k = some field) (hmessage : field.message_type = some m)
    (hsingle : field.label_repeated = false) {parent : Address} {obj : Dict}
    (h : walkItems pool (decodeElement env cv mode false maskMode masks) (some message) parent kvs
      kvs [] = .ok obj) (hignored : field.opts.ignored = false)
    (hopen : excludes maskMode masks (parent ++ [some field.number] ++ [none]) = false) :
    ∃ k' sub', (k', .dict sub') ∈ obj ∧ fieldAt pool message k' = some field ∧
      walkItems pool (decodeElement env cv mode false maskMode masks) (some m)
        (parent ++ [some field.number]) sub sub [] = .ok sub' := by
  obtain ⟨hvisits, hobj⟩ := decodeItems_inv hpool hcontent h
  obtain ⟨out, hout⟩ := hvisits _ hmem
  obtain ⟨sub', hsub', ⟨htrue, -⟩ | ⟨-, k', rfl⟩⟩ := visit_sub hpool hfield hmessage hsingle hout
  · cases htrue.symm.trans hignored
  rw [hopen] at hout
  refine ⟨k', sub', (hobj _).mpr ⟨_, hmem, hout⟩, ?_, hsub'⟩
  unfold fieldAt at hfield ⊢
  rwa [decodeEntry_base ((contentItems_bases hpool hcontent).1 _ hmem).1 hout]

/-- The content of a leaf is no message. -/
theorem leaf_field {message : Text} {kvs : Dict} {parents : List FieldDescriptor}
    {field : FieldDescriptor} {v : Value} (hcontent : contentItems pool leaf message kvs)
    (hat : At pool message kvs parents field v) (hleaf : Leaf field v) :
    field.message_type = none ∨ field.label_repeated = true := by
  induction hat with
  | here hmem hfield =>
    rcases hleaf with h | h | rfl
    · exact Or.inl h
    · exact Or.inr h
    · have hvalue := content_entry hpool hcontent hmem hfield
      rw [contentValue] at hvalue
      · exact Or.inl hvalue.1
      all_goals simp
  | inner hmem hfield hmessage hsingle _ ih =>
    exact ih (content_sub hpool hcontent hmem hfield hmessage hsingle) hleaf

variable {plain decoded : Dict} {parents : List FieldDescriptor} {field : FieldDescriptor}

/-- A leaf that the mask leaves out is null, or is in no part that is read. -/
theorem left_out_is_null {message : Text} {kvs : Dict} {v w : Value}
    (hread : At pool message decoded parents field w)
    (hcontent : contentItems pool leaf message kvs) (hat : At pool message kvs parents field v)
    (hleaf : Leaf field v) {above : Address}
    (hwalk : walkItems pool (decodeElement env cv mode false maskMode masks) (some message) above
      kvs kvs [] = .ok decoded)
    (hexcl : excludes maskMode masks (above ++ (numbers parents field).map some) = true) :
    Null w := by
  induction hread generalizing kvs v above with
  | here hq hqfield =>
    cases hat with
    | here hmem hfield =>
      obtain ⟨element, walked, rfl, haddress, -, hvisit⟩ :=
        element_of_visit hfield (read_visit hpool hcontent hmem hfield hwalk hq hqfield)
      refine decode_null ?_ hvisit
      rw [haddress, elementAddress_leaf hleaf]
      exact hexcl
  | @inner message obj k' sub' f m parents field w hq hqfield hmessage hsingle _ ih =>
    cases hat with
    | inner hmem hfield hmessage' _ hat =>
      cases hmessage.symm.trans hmessage'
      obtain ⟨-, -, hinner⟩ := read_sub hpool hcontent hmem hfield hmessage hsingle hwalk hq hqfield
      refine ih (content_sub hpool hcontent hmem hfield hmessage hsingle) hat hleaf hinner ?_
      rw [List.append_assoc]
      exact hexcl

/-- A leaf that is read is in submessages that are not ignored, and that the mask shows. -/
theorem read_is_open {message : Text} {kvs : Dict} {v w : Value}
    (hread : At pool message decoded parents field w)
    (hcontent : contentItems pool leaf message kvs) (hat : At pool message kvs parents field v)
    {above : Address}
    (hwalk : walkItems pool (decodeElement env cv mode false maskMode masks) (some message) above
      kvs kvs [] = .ok decoded) :
    (∀ f ∈ parents ++ [field], f.opts.ignored = false) ∧
      ∀ top ∈ parents.head?,
        excludes maskMode masks (above ++ [some top.number] ++ [none]) = false := by
  induction hread generalizing kvs v above with
  | here hq hqfield =>
    cases hat with
    | here hmem hfield =>
      obtain ⟨element, walked, rfl, -, -, hvisit⟩ :=
        element_of_visit hfield (read_visit hpool hcontent hmem hfield hwalk hq hqfield)
      refine ⟨?_, by simp⟩
      rcases decodeElement_inv hvisit with ⟨-, hnone⟩ | ⟨hfilter, -⟩
      · cases hnone
      · simpa [filtered] using hfilter
  | @inner message obj k' sub' f m parents field w hq hqfield hmessage hsingle _ ih =>
    cases hat with
    | inner hmem hfield hmessage' _ hat =>
      cases hmessage.symm.trans hmessage'
      obtain ⟨hignored, hopen, hinner⟩ :=
        read_sub hpool hcontent hmem hfield hmessage hsingle hwalk hq hqfield
      obtain ⟨hbelow, -⟩ := ih (content_sub hpool hcontent hmem hfield hmessage hsingle) hat hinner
      refine ⟨List.forall_mem_cons.mpr ⟨hignored, hbelow⟩, ?_⟩
      rintro top ⟨⟩
      exact hopen

/-- A leaf that the mask shows, with the submessages it is in, is read as without a mask. -/
theorem shown_is_read {message : Text} {kvs : Dict} {v w : Value}
    (hplain : At pool message plain parents field w)
    (hcontent : contentItems pool leaf message kvs) (hat : At pool message kvs parents field v)
    {above : Address}
    (hwalk : walkItems pool (decodeElement env cv mode false .NO_MASK masks) (some message) above
      kvs kvs [] = .ok plain)
    (hmasked : walkItems pool (decodeElement env cv mode false maskMode masks) (some message) above
      kvs kvs [] = .ok decoded)
    (hshown : ∀ rest, excludes maskMode masks
      (above ++ (numbers parents field).map some ++ rest) = false)
    (hopen : ∀ top rest, top :: rest <+: parents → excludes maskMode masks
      (above ++ ((top :: rest).map FieldDescriptor.number).map some ++ [none]) = false) :
    At pool message decoded parents field w := by
  induction hplain generalizing kvs v above decoded with
  | @here message plain k' w field hq hqfield =>
    cases hat with
    | @here _ _ k _ _ hmem hfield =>
      have hvisit := read_visit hpool hcontent hmem hfield hwalk hq hqfield
      have hagree : visitEntry pool (decodeElement env cv mode false maskMode masks) (some message)
          above (k, v) = visitEntry pool (decodeElement env cv mode false .NO_MASK masks)
            (some message) above (k, v) := by
        have hbelow : ∀ element x, above ++ [some field.number] <+: element.address →
            decodeElement env cv mode false maskMode masks element x =
              decodeElement env cv mode false .NO_MASK masks element x := by
          rintro element x ⟨rest, hrest⟩
          apply decode_shown
          rw [← hrest]
          exact hshown rest
        refine visitEntry_agree hbelow ?_
        · intro field' hfield'
          unfold fieldAt at hfield
          rw [fieldOf_some pool hfield] at hfield'
          cases hfield'
          exact List.prefix_refl _
      exact .here (((decodeItems_inv hpool hcontent hmasked).2 _).mpr
        ⟨_, hmem, hagree.trans hvisit⟩) hqfield
  | @inner message plain k' sub' f m parents field w hq hqfield hmessage hsingle _ ih =>
    cases hat with
    | inner hmem hfield hmessage' _ hat =>
      cases hmessage.symm.trans hmessage'
      obtain ⟨hignored, -, hinner⟩ :=
        read_sub hpool hcontent hmem hfield hmessage hsingle hwalk hq hqfield
      obtain ⟨k, sub, hsub, hsubfield, hmaskedinner⟩ := sub_is_read hpool hcontent hmem hfield
        hmessage hsingle hmasked hignored (hopen f [] (by simp))
      refine .inner hsub hsubfield hmessage hsingle (ih (content_sub hpool hcontent hmem hfield
        hmessage hsingle) hat hinner hmaskedinner (fun rest => ?_) (fun top rest hpre => ?_))
      · rw [List.append_assoc above]
        exact hshown rest
      · rw [List.append_assoc above]
        exact hopen f (top :: rest) (List.cons_prefix_cons.mpr ⟨rfl, hpre⟩)

/-- Whether all of a value is zero. -/
def zeros : Value → Bool
  | .list vs => vs.all isZero
  | v => isZero v

/-- A leaf that its options remove, or make null. -/
def excepted (field : FieldDescriptor) (v : Value) : Bool :=
  (field.opts.omit_if_zero || field.opts.null_if_zero) && zeros v

/-- What has gone of an entry that is not ignored was zero. -/
theorem gone_is_zero {message k : Text} {kvs : Dict} (hcontent : contentItems pool leaf message kvs)
    {v : Value} (hmem : (k, v) ∈ kvs) {field : FieldDescriptor}
    (hfield : fieldAt pool message k = some field) (hignored : field.opts.ignored = false)
    {above : Address}
    (h : visitEntry pool (decodeElement env cv mode false maskMode masks) (some message) above
      (k, v) = .ok none) : field.opts.omit_if_zero = true ∧ isZero v = true := by
  obtain ⟨element, walked, rfl, -, hwalked, hvisit⟩ := element_of_visit hfield h
  rcases decodeElement_inv hvisit with ⟨hfilter, -⟩ | ⟨hfilter, user_unit, huser⟩
  · simp [filtered, hignored] at hfilter
  by_cases hlist : ∃ vs, walked = .list vs
  · obtain ⟨vs, rfl⟩ := hlist
    rw [decodeElement_list hfilter huser] at hvisit
    obtain ⟨ws, -, hnone⟩ := map_eq_ok.mp hvisit
    cases hnone
  rw [decodeElement_scalar hfilter huser (fun vs hw => hlist ⟨vs, hw⟩)] at hvisit
  split at hvisit
  · rename_i hzero
    rw [Bool.and_eq_true] at hzero
    refine ⟨hzero.1, ?_⟩
    rcases hmessage : element.field.message_type with _ | m
    · rw [walkValue_leaf hmessage] at hwalked
      cases hwalked
      exact hzero.2
    · -- a message is no number
      rcases contentValue_message hmessage (content_entry hpool hcontent hmem hfield) with
        ⟨_, rfl, hsingle, -⟩ | ⟨_, rfl, hrepeated, -⟩ | ⟨_, _, rfl, hrepeated, -⟩
      · obtain ⟨_, rfl, -⟩ := walkSingle_inv hmessage hsingle hwalked
        cases hzero.2
      · obtain ⟨_, rfl, -⟩ := walkRepeated_inv hmessage hrepeated hwalked
        cases hzero.2
      · obtain ⟨_, _, -, rfl, -⟩ := walkMap_inv hmessage hrepeated hwalked
        cases hzero.2
  · obtain ⟨w, -, hnone⟩ := map_eq_ok.mp hvisit
    cases hnone

/-- A leaf that is not ignored, and not removed for being zero, is read without a mask. -/
theorem leaf_is_read {message : Text} {kvs : Dict} {v : Value}
    (hat : At pool message kvs parents field v) (hcontent : contentItems pool leaf message kvs)
    (hleaf : Leaf field v) (hignored : ∀ f ∈ parents ++ [field], f.opts.ignored = false)
    (hexcepted : excepted field v = false) {above : Address}
    (hwalk : walkItems pool (decodeElement env cv mode false .NO_MASK masks) (some message) above
      kvs kvs [] = .ok plain) : ∃ w, At pool message plain parents field w := by
  induction hat generalizing above plain with
  | @here message kvs k v field hmem hfield =>
    obtain ⟨hvisits, hobj⟩ := decodeItems_inv hpool hcontent hwalk
    obtain ⟨out, hout⟩ := hvisits _ hmem
    cases out with
    | none =>
      obtain ⟨homit, hzero⟩ := gone_is_zero hpool hcontent hmem hfield
        (hignored field (by simp)) hout
      have hzeros : zeros v = true := by
        cases v with
        | list vs => cases hzero
        | none | bool | int | float | str | dict => exact hzero
      rw [excepted, homit, hzeros] at hexcepted
      cases hexcepted
    | some q =>
      refine ⟨q.2, .here ((hobj q).mpr ⟨_, hmem, hout⟩) ?_⟩
      unfold fieldAt at hfield ⊢
      rwa [decodeEntry_base ((contentItems_bases hpool hcontent).1 _ hmem).1 hout]
  | inner hmem hfield hmessage hsingle _ ih =>
    obtain ⟨hfirst, hrest⟩ := List.forall_mem_cons.mp hignored
    obtain ⟨k', sub', hsub', hsubfield, hinner⟩ :=
      sub_is_read hpool hcontent hmem hfield hmessage hsingle hwalk hfirst rfl
    obtain ⟨w, hw⟩ := ih (content_sub hpool hcontent hmem hfield hmessage hsingle) hleaf hrest
      hexcepted hinner
    exact ⟨w, .inner hsub' hsubfield hmessage hsingle hw⟩

end

/-! ## What the mask shows -/

/-- Whether the mask has a leaf read with its value. -/
def Wanted (maskMode : MaskMode) (masks : List MaskField) (address : List Nat) : Prop :=
  match maskMode with
  | .NO_MASK => True
  | .INCLUSIVE => Covered masks address
  | .EXCLUSIVE => ¬ Covered masks address

/-- What is read respects the mask: a leaf that is wanted is read as without a mask, and another
is null, or is in no part that is read. -/
def RespectsMask (pool : Pool) (message : Text) (maskMode : MaskMode) (masks : List MaskField)
    (raw plain decoded : Dict) : Prop :=
  ∀ parents field v, At pool message raw parents field v → Leaf field v →
    (Wanted maskMode masks (numbers parents field) → excepted field v = false →
      ∀ w, At pool message plain parents field w → At pool message decoded parents field w) ∧
    (¬ Wanted maskMode masks (numbers parents field) →
      ∀ w, At pool message decoded parents field w → Null w)

/-- Where a mask address is above a leaf in a submessage of the root, and nothing else hides the
leaf, a mask address is above the submessage. -/
def TopsCovered (pool : Pool) (message : Text) (masks : List MaskField) (raw : Dict) : Prop :=
  ∀ top parents field v, At pool message raw (top :: parents) field v → Leaf field v →
    (∀ f ∈ top :: parents ++ [field], f.opts.ignored = false) → excepted field v = false →
      Covered masks (numbers (top :: parents) field) → Covered masks [top.number]

section
variable {pool : Pool} {masks : List MaskField} {maskMode : MaskMode}

theorem excludes_below (address : List Nat) (rest : Address) :
    excludes maskMode masks (address.map some ++ none :: rest) = false ↔
      Wanted maskMode masks address := by
  have hmasked := masked_below masks address rest
  unfold excludes Wanted
  cases maskMode with
  | NO_MASK => simp
  | INCLUSIVE => rw [← hmasked]; simp
  | EXCLUSIVE => rw [← hmasked]; simp

theorem excludes_leaf (hpool : Numbered pool) {message : Text}
    (hmasks : MaskPaths pool message masks) {kvs : Dict} {parents : List FieldDescriptor}
    {field : FieldDescriptor} {v : Value} (hat : At pool message kvs parents field v)
    (hleaf : field.message_type = none ∨ field.label_repeated = true) (rest : Address) :
    excludes maskMode masks ((numbers parents field).map some ++ rest) = false ↔
      Wanted maskMode masks (numbers parents field) := by
  have hmasked := masked_leaf hpool hmasks hat hleaf rest
  unfold excludes Wanted
  cases maskMode with
  | NO_MASK => simp
  | INCLUSIVE => rw [← hmasked]; simp
  | EXCLUSIVE => rw [← hmasked]; simp

end

theorem wanted_above {pool : Pool} {message : Text} {masks : List MaskField} {maskMode : MaskMode}
    {raw : Dict} (hcovered : maskMode = .INCLUSIVE → TopsCovered pool message masks raw)
    {parents : List FieldDescriptor} {field : FieldDescriptor} {v : Value}
    (hat : At pool message raw parents field v) (hleaf : Leaf field v)
    (hignored : ∀ f ∈ parents ++ [field], f.opts.ignored = false)
    (hexcepted : excepted field v = false)
    (hwanted : Wanted maskMode masks (numbers parents field)) {top : FieldDescriptor}
    {rest : List FieldDescriptor} (hpre : top :: rest <+: parents) :
    Wanted maskMode masks ((top :: rest).map FieldDescriptor.number) := by
  have habove : (top :: rest).map FieldDescriptor.number <+: numbers parents field :=
    (hpre.trans (List.prefix_append parents [field])).map FieldDescriptor.number
  cases maskMode with
  | NO_MASK => trivial
  | EXCLUSIVE => exact fun h => hwanted (h.mono habove)
  | INCLUSIVE =>
    obtain ⟨more, rfl⟩ := hpre
    have htop := hcovered rfl top (rest ++ more) field v hat hleaf hignored hexcepted hwanted
    exact Covered.mono (by simp) htop

/-- Reading respects the mask at every depth, if and only if an inclusive mask is above each
submessage of the root in which it is above a leaf. -/
theorem mask_is_respected_iff {pool : Pool} (hpool : WellPlaced pool) (hnumbered : Numbered pool)
    {leaf : FieldDescriptor → Value → Prop} {env : Packages} {cv : UnitConverter} (mode : ReadMode)
    {message : Text} {payload shown : DecodedPayload} {raw : Dict}
    (hraw : payload.content = some raw) (hcontent : contentItems pool leaf message raw)
    (hmasks : MaskPaths pool message payload.maskFields)
    (hshown : post_decode env cv pool message { payload with maskMode := .NO_MASK } mode false =
      .ok shown) :
    ∃ masked plain decoded, post_decode env cv pool message payload mode false = .ok masked ∧
      shown.content = some plain ∧ masked.content = some decoded ∧
        (RespectsMask pool message payload.maskMode payload.maskFields raw plain decoded ↔
          (payload.maskMode = .INCLUSIVE → TopsCovered pool message payload.maskFields raw)) := by
  unfold post_decode contentOf at hshown
  simp only [hraw, ok_bind] at hshown
  obtain ⟨plain, hplain, heq⟩ := bind_eq_ok.mp hshown
  obtain rfl := (Except.ok.inj heq).symm
  have hwalk : ∃ decoded, walkItems pool (decodeElement env cv mode false payload.maskMode
      payload.maskFields) (some message) [] raw raw [] = .ok decoded :=
    items_read_masked hpool (fun p _ => read_masked hpool p.2) hcontent hplain
  obtain ⟨decoded, hdecoded⟩ := hwalk
  refine ⟨{ payload with content := some decoded }, plain, decoded, ?_, rfl, rfl, ?_, ?_⟩
  · unfold post_decode contentOf
    simp only [hraw, ok_bind, hdecoded]
    rfl
  · intro hrespects hmode top parents field v hat hleaf hignored hexcepted hcovered
    rw [hmode] at hrespects
    obtain ⟨w, hw⟩ := leaf_is_read hpool hat hcontent hleaf hignored hexcepted hplain
    have hread := (hrespects _ field v hat hleaf).1 hcovered hexcepted w hw
    have hopen := (read_is_open hpool hread hcontent hat hdecoded).2 top rfl
    rw [hmode] at hopen
    exact (excludes_below [top.number] []).mp hopen
  · intro hcovered parents field v hat hleaf
    have hfield := leaf_field hpool hcontent hat hleaf
    refine ⟨fun hwanted hexcepted w hw => ?_, fun hunwanted w hw => ?_⟩
    · have hignored := (read_is_open hpool hw hcontent hat hplain).1
      refine shown_is_read hpool hw hcontent hat hplain hdecoded (fun rest => ?_)
        (fun top rest hpre => ?_)
      · exact (excludes_leaf hnumbered hmasks hat hfield rest).mpr hwanted
      · exact (excludes_below _ []).mpr
          (wanted_above hcovered hat hleaf hignored hexcepted hwanted hpre)
    · refine left_out_is_null hpool hw hcontent hat hleaf hdecoded ?_
      have hnot := mt (excludes_leaf hnumbered hmasks hat hfield []).mp hunwanted
      rw [List.append_nil, Bool.not_eq_false] at hnot
      exact hnot

/-! ## A patch in a submessage -/

theorem patchPool_placed : WellPlaced patchPool := by
  have hfields : ∀ message, ∀ field ∈ patchPool.messages message,
      Placed field.type field.label_repeated field.opts ∧ Plain field.name ∧
        (field.type = .MESSAGE ↔ field.message_type.isSome = true) := by
    intro message field hfield
    unfold patchPool at hfield
    simp only at hfield
    split at hfield
    · rcases List.mem_pair.mp hfield with rfl | rfl <;>
        exact ⟨.plain _ _ _ _ (by decide), by decide, by decide⟩
    split at hfield
    · rcases List.mem_pair.mp hfield with rfl | rfl <;>
        exact ⟨.plain _ _ _ _ (by decide), by decide, by decide⟩
    · cases hfield
  exact
    { placed := fun message field h => (hfields message field h).1
      named := fun message field h => (hfields message field h).2.1
      typed := fun message field h => (hfields message field h).2.2 }

/-- A patch of a field in a submessage: what is encoded is decoded as null. -/
theorem patched_value_is_lost :
    let raw : Dict := [("settings".toList, .dict [("enabled".toList, .bool true)])]
    let patch : DecodedPayload := { blockId := 100, maskMode := .INCLUSIVE, content := some raw }
    let encoded := { patch with maskFields := [{ address := [1, 1] }] }
    let decoded : Dict := [("settings".toList, .none)]
    pre_encode sameUnit (converter "degC".toList) patchPool "Sample".toList patch true =
        .ok encoded ∧
      post_decode sameUnit (converter "degC".toList) patchPool "Sample".toList encoded .DEFAULT
        false = .ok { encoded with content := some decoded } ∧
      post_decode sameUnit (converter "degC".toList) patchPool "Sample".toList
        { encoded with maskMode := .NO_MASK } .DEFAULT false =
          .ok { encoded with maskMode := .NO_MASK } ∧
      MaskPaths patchPool "Sample".toList encoded.maskFields ∧
      ¬ RespectsMask patchPool "Sample".toList .INCLUSIVE encoded.maskFields raw raw decoded := by
  intro raw patch encoded decoded
  let settings : FieldDescriptor :=
    { name := "settings".toList, number := 1, type := .MESSAGE
      message_type := some "Settings".toList }
  let enabled : FieldDescriptor := { name := "enabled".toList, number := 1, type := .BOOL }
  refine ⟨rfl, rfl, rfl, ?_, fun hrespects => ?_⟩
  · intro mask hmask
    cases List.mem_singleton.mp hmask
    have hlast : FieldPath patchPool "Settings".toList [enabled.number] := .last (by decide)
    have hpath : FieldPath patchPool "Sample".toList [settings.number, enabled.number] :=
      .inner (by decide) rfl rfl hlast
    exact ⟨_, hpath, rfl⟩
  · have hinner : At patchPool "Settings".toList [("enabled".toList, .bool true)] [] enabled
        (.bool true) := .here List.mem_cons_self rfl
    have hat : At patchPool "Sample".toList raw [settings] enabled (.bool true) :=
      .inner List.mem_cons_self rfl rfl rfl hinner
    have hwanted : Covered encoded.maskFields (numbers [settings] enabled) :=
      ⟨_, List.mem_cons_self, List.prefix_refl _⟩
    have hread := (hrespects [settings] enabled _ hat (Or.inl rfl)).1 hwanted rfl _ hat
    cases hread with
    | inner hmem => cases List.mem_singleton.mp hmem

/-- With an address of the whole submessage, the patched field is read. -/
theorem mask_is_respected_sample :
    let raw : Dict := [("settings".toList, .dict [("enabled".toList, .bool true)])]
    let payload : DecodedPayload :=
      { blockId := 100, maskMode := .INCLUSIVE, maskFields := [{ address := [1] }]
        content := some raw }
    ∃ masked decoded, post_decode sameUnit (converter "degC".toList) patchPool "Sample".toList
        payload .DEFAULT false = .ok masked ∧ masked.content = some decoded ∧
      RespectsMask patchPool "Sample".toList .INCLUSIVE payload.maskFields raw raw decoded := by
  intro raw payload
  have hmasks : MaskPaths patchPool "Sample".toList payload.maskFields := by
    intro mask hmask
    cases List.mem_singleton.mp hmask
    have hlast : FieldPath patchPool "Sample".toList [1] :=
      @FieldPath.last patchPool "Sample".toList
        { name := "settings".toList, number := 1, type := .MESSAGE
          message_type := some "Settings".toList } (by decide)
    exact ⟨[1], hlast, rfl⟩
  have hcontent : contentItems patchPool (fun _ _ => True) "Sample".toList raw := by
    refine contentItems_iff.mpr ⟨by decide, List.forall_mem_singleton.mpr ⟨_, rfl, ?_⟩⟩
    rw [contentValue]
    refine contentItems_iff.mpr ⟨by decide, List.forall_mem_singleton.mpr ⟨_, rfl, ?_⟩⟩
    rw [contentValue]
    · exact ⟨rfl, rfl, trivial⟩
    all_goals simp
  have hshown : post_decode sameUnit (converter "degC".toList) patchPool "Sample".toList
      { payload with maskMode := .NO_MASK } .DEFAULT false =
        .ok { payload with maskMode := .NO_MASK } := rfl
  have htops : TopsCovered patchPool "Sample".toList payload.maskFields raw := by
    intro top parents field v hat _ _ _ _
    cases hat with
    | inner hmem hfield =>
      cases List.mem_singleton.mp hmem
      cases hfield
      exact ⟨_, List.mem_cons_self, List.prefix_refl _⟩
  obtain ⟨masked, plain, decoded, hmasked, ⟨⟩, hdecoded, hiff⟩ := mask_is_respected_iff
    patchPool_placed patchPool_patchable.numbered .DEFAULT rfl hcontent hmasks hshown
  exact ⟨masked, decoded, hmasked, hdecoded, hiff.mpr fun _ => htops⟩

end devcon_spark.codec.content
