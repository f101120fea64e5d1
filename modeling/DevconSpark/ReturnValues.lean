-- Values that are handed back: their links are turned into names and numbers
-- again, and `pre_encode` gets what `post_decode` gave out.
import DevconSpark.LinkLaws
import DevconSpark.MaskLaws

open bidict py_text py_dict py_number py_value devcon_spark.exceptions devcon_spark.models
open devcon_spark.codec.descriptor devcon_spark.codec.time_utils devcon_spark.codec.bloxfield
open devcon_spark.codec.unit_conversion devcon_spark.codec.processor devcon_spark.spark_api

namespace devcon_spark.codec.content

/-! ## Links that are turned back -/

/-- A value without parts. -/
def Flat : Value → Prop
  | .list _ => False
  | .dict _ => False
  | _ => True

/-- Where the links of content get their names from as it is read, and their numbers as it is
handed back. -/
structure Naming where
  repr : Value → Text
  reader : BlockStore
  writer : BlockStore
  /-- Names stand for numbers, also where the type of the store allows for `None`. -/
  numbers : ∀ name, writer.get? name ≠ some none

section
variable (names : Naming)

/-- An entry whose links were turned into names, and the names into numbers. -/
def TurnedEntry (marked : Bool) (v w : Value) : Prop :=
  ∃ named, resolveEntry (_find_sid names.repr names.reader) marked v = .ok named ∧
    resolveEntry (_find_nid names.writer) marked named = .ok w

def Turned (v w : Value) : Prop := TurnedEntry names false v w

/-- A dict that says that it is no link. -/
def NoLink (kvs : Dict) : Prop :=
  ∀ p ∈ kvs, p.1 = "__bloxtype".toList → isStr "Link".toList p.2 = false

variable {names}

theorem turned_flat {v w : Value} (hv : Flat v) (h : Turned names v w) : w = v := by
  obtain ⟨named, hsid, hnid⟩ := h
  cases v with
  | list vs => exact absurd hv id
  | dict kvs => exact absurd hv id
  | none | bool | int | float | str =>
    unfold resolveEntry at hsid
    cases hsid
    unfold resolveEntry at hnid
    cases hnid
    rfl

theorem turned_list {vs : List Value} {w : Value} (h : Turned names (.list vs) w) :
    ∃ ws, w = .list ws ∧ List.Forall₂ (Turned names) vs ws := by
  obtain ⟨named, hsid, hnid⟩ := h
  rw [resolve_list] at hsid
  obtain ⟨names, hnames, rfl⟩ := map_eq_ok.mp hsid
  rw [resolve_list] at hnid
  obtain ⟨ws, hws, rfl⟩ := map_eq_ok.mp hnid
  exact ⟨ws, rfl, forall₂_compose (forall₂_of_mapM hnames) (forall₂_of_mapM hws)⟩

theorem not_link {kvs : Dict} (h : NoLink kvs) : is_link (.dict kvs) = false := by
  rw [is_link_dict]
  induction kvs with
  | nil => rfl
  | cons p kvs ih =>
    obtain ⟨hp, hkvs⟩ := List.forall_mem_cons.mp h
    rw [get?_cons]
    split
    · rename_i hkey
      exact hp hkey.symm
    · exact ih hkvs

theorem plain_not_marked {name : Text} (h : Plain name) : isMarked name = false := by
  unfold isMarked OBJECT_LINK_POSTFIX_END
  refine decide_eq_false fun hlast => ?_
  exact h.2 '>' (List.mem_of_getLast? hlast) (by decide)

theorem isStr_resolved {replacer : Value → Except Exn Value} {t : Text} {v w : Value}
    (h : resolveEntry replacer false v = .ok w) : isStr t w = isStr t v := by
  unfold resolveEntry at h
  cases v with
  | none | bool | int | float | str =>
    cases h
    rfl
  | list vs =>
    obtain ⟨ws, -, rfl⟩ := map_eq_ok.mp h
    rfl
  | dict kvs =>
    dsimp only at h
    split at h
    · obtain ⟨id, -, h⟩ := bind_eq_ok.mp h
      obtain ⟨nid, -, h⟩ := bind_eq_ok.mp h
      cases h
      rfl
    · obtain ⟨lws, -, rfl⟩ := map_eq_ok.mp h
      rfl

theorem resolveDict_entries {replacer : Value → Except Exn Value} {kvs lws : Dict}
    (h : resolveDict replacer kvs = .ok lws) :
    List.Forall₂ (fun p q => q.1 = p.1 ∧ resolveEntry replacer (isMarked p.1) p.2 = .ok q.2)
      kvs lws := by
  rw [resolveDict_eq] at h
  refine (forall₂_of_mapM h).imp fun p q hpq => ?_
  obtain ⟨w, hw, rfl⟩ := map_eq_ok.mp hpq
  exact ⟨rfl, hw⟩

theorem noLink_resolved {replacer : Value → Except Exn Value} {kvs lws : Dict} (hkvs : NoLink kvs)
    (h : resolveDict replacer kvs = .ok lws) : NoLink lws := by
  intro q hq hkey
  obtain ⟨p, hp, hname, hvalue⟩ := forall₂_right (resolveDict_entries h) hq
  rw [hname] at hkey
  rw [hkey] at hvalue
  rw [isStr_resolved hvalue]
  exact hkvs p hp hkey

theorem resolved_entries {kvs named lws : Dict}
    (hsid : resolveDict (_find_sid names.repr names.reader) kvs = .ok named)
    (hnid : resolveDict (_find_nid names.writer) named = .ok lws) :
    List.Forall₂ (fun p q => q.1 = p.1 ∧ TurnedEntry names (isMarked p.1) p.2 q.2)
      kvs lws := by
  refine (forall₂_compose (resolveDict_entries hsid) (resolveDict_entries hnid)).imp ?_
  rintro p q ⟨r, ⟨hpr, hsid⟩, hrq, hnid⟩
  rw [hpr] at hnid hrq
  exact ⟨hrq, r.2, hsid, hnid⟩

theorem turned_dict {kvs : Dict} (hkvs : NoLink kvs) {w : Value}
    (h : Turned names (.dict kvs) w) : ∃ lws, w = .dict lws ∧
      List.Forall₂ (fun p q => q.1 = p.1 ∧ TurnedEntry names (isMarked p.1) p.2 q.2)
        kvs lws := by
  obtain ⟨named, hsid, hnid⟩ := h
  rw [resolve_dict (not_link hkvs)] at hsid
  obtain ⟨names, hnames, rfl⟩ := map_eq_ok.mp hsid
  rw [resolve_dict (not_link (noLink_resolved hkvs hnames))] at hnid
  obtain ⟨lws, hlws, rfl⟩ := map_eq_ok.mp hnid
  exact ⟨lws, rfl, resolved_entries hnames hlws⟩

/-- A name that is found in a store, or the number of a block, which is read. -/
def Found (store : BlockStore) (name : Text) : Prop :=
  if isdigit name then (py_number.int name).isSome = true
  else (store.get? (some (String.ofList name))).isSome = true

/-- The name that stands for a number when it is read is found when it is handed back. -/
def Reached (reader writer : BlockStore) (n : Int) : Prop :=
  n = 0 ∨ ∀ name, reader.inverse? (some n) = some (some name) → Found writer name.toList

theorem find_nid_iff {store : BlockStore} {name : Text} :
    (∃ nid, _find_nid store (.str name) = .ok nid) ↔ Found store name := by
  unfold _find_nid Found
  dsimp only
  split
  · cases py_number.int name <;> simp
  · cases store.get? (some (String.ofList name)) <;> simp

/-- A name that was turned into a number is a number in the end. -/
theorem nid_of_sid {sid nid : Value} (hnid : _find_nid names.writer sid = .ok nid)
    (hsid : sid = .none ∨ ∃ t, sid = .str t) : ∃ j, nid = .int j ∧ (sid = .none → j = 0) := by
  rcases hsid with rfl | ⟨t, rfl⟩
  · cases hnid
    exact ⟨0, rfl, fun _ => rfl⟩
  unfold _find_nid at hnid
  dsimp only at hnid
  split at hnid
  · split at hnid
    · cases hnid
      exact ⟨_, rfl, fun h => by cases h⟩
    · cases hnid
  · split at hnid
    · rename_i nid hget
      cases hnid
      cases nid with
      | none => exact absurd hget (names.numbers _)
      | some n => exact ⟨n, rfl, fun h => by cases h⟩
    · cases hnid

/-- What a number is turned into: null, a name of the store, or its digits. -/
theorem sid_of_number (repr : Value → Text) (store : BlockStore) (n : Nat) :
    ∃ sid, _find_sid repr store (.int n) = .ok sid ∧
      (sid = .none ∧ (n = 0 ∨ store.inverse? (some n) = some none) ∨
        (∃ name, sid = .str name.toList ∧ n ≠ 0 ∧ store.inverse? (some n) = some (some name)) ∨
          sid = .str (natText n) ∧ n ≠ 0 ∧ store.inverse? (some n) = none) := by
  unfold _find_sid
  dsimp only
  by_cases hzero : n = 0
  · rw [if_pos (by simp [hzero, number?])]
    exact ⟨_, rfl, Or.inl ⟨rfl, Or.inl hzero⟩⟩
  have hwhole : (wholeNumber? (.int n)).bind (fun nid => store.inverse? (some nid)) =
      store.inverse? (some n) := by
    simp [wholeNumber?, number?]
  rw [if_neg (by simpa [number?] using hzero), hwhole]
  cases hinverse : store.inverse? (some n) with
  | none =>
    refine ⟨_, rfl, Or.inr (Or.inr ⟨?_, hzero, rfl⟩)⟩
    rw [← intText_natCast]
    rfl
  | some key =>
    cases key with
    | none => exact ⟨_, rfl, Or.inl ⟨rfl, Or.inr rfl⟩⟩
    | some name => exact ⟨_, rfl, Or.inr (Or.inl ⟨name, rfl, hzero, rfl⟩)⟩

/-- A number of 32 bits comes back where the name that stands for it is found. -/
theorem number_reached_iff {n : Nat} (hn : n < 2 ^ 32) :
    (∃ sid nid, _find_sid names.repr names.reader (.int n) = .ok sid ∧
      _find_nid names.writer sid = .ok nid) ↔ Reached names.reader names.writer n := by
  obtain ⟨sid, hsid, hcases⟩ := sid_of_number names.repr names.reader n
  have hreached : (∃ sid nid, _find_sid names.repr names.reader (.int n) = .ok sid ∧
      _find_nid names.writer sid = .ok nid) ↔ ∃ nid, _find_nid names.writer sid = .ok nid := by
    constructor
    · rintro ⟨sid', nid, hsid', hnid⟩
      cases hsid.symm.trans hsid'
      exact ⟨nid, hnid⟩
    · rintro ⟨nid, hnid⟩
      exact ⟨sid, nid, hsid, hnid⟩
  rw [hreached]
  unfold Reached
  rcases hcases with ⟨rfl, hnull⟩ | ⟨name, rfl, hzero, hinverse⟩ | ⟨rfl, hzero, hinverse⟩
  · refine iff_of_true ⟨_, rfl⟩ ?_
    rcases hnull with rfl | hinverse
    · exact Or.inl rfl
    · exact Or.inr fun name hname => by simp [hinverse] at hname
  · rw [find_nid_iff]
    constructor
    · intro hfound
      refine Or.inr fun name' hname' => ?_
      rw [hinverse] at hname'
      cases hname'
      exact hfound
    · rintro (hn | hall)
      · exact absurd (by exact_mod_cast hn) hzero
      · exact hall name hinverse
  · rw [find_nid_iff]
    refine iff_of_true ?_ (Or.inr fun name hname => by simp [hinverse] at hname)
    unfold Found
    rw [if_pos (natText_isdigit n), int_natText, if_neg]
    · rfl
    · rw [Nat.not_lt]
      exact natText_length_mono (Nat.le_of_lt hn) (by decide) (by decide +kernel)

theorem resolve_linkValue {replacer : Value → Except Exn Value} {link_type : Text} {id w : Value} :
    resolveEntry replacer false (linkValue link_type id) = .ok w ↔
      ∃ id', replacer id = .ok id' ∧ w = linkValue link_type id' := by
  unfold linkValue resolveEntry
  constructor
  · intro h
    obtain ⟨_, ⟨⟩, h⟩ := bind_eq_ok.mp h
    obtain ⟨id', hid', hw⟩ := bind_eq_ok.mp h
    cases hw
    exact ⟨id', hid', rfl⟩
  · rintro ⟨id', hid', rfl⟩
    exact bind_eq_ok.mpr ⟨id, rfl, bind_eq_ok.mpr ⟨id', hid', rfl⟩⟩

/-- A link is turned where its id is. -/
theorem turned_link_iff {link_type : Text} {id w : Value} :
    Turned names (linkValue link_type id) w ↔
      ∃ sid nid, _find_sid names.repr names.reader id = .ok sid ∧
        _find_nid names.writer sid = .ok nid ∧ w = linkValue link_type nid := by
  constructor
  · rintro ⟨named, hsid, hnid⟩
    obtain ⟨sid, hname, rfl⟩ := resolve_linkValue.mp hsid
    obtain ⟨nid, hnumber, rfl⟩ := resolve_linkValue.mp hnid
    exact ⟨sid, nid, hname, hnumber, rfl⟩
  · rintro ⟨sid, nid, hname, hnumber, rfl⟩
    exact ⟨_, resolve_linkValue.mpr ⟨sid, hname, rfl⟩, resolve_linkValue.mpr ⟨nid, hnumber, rfl⟩⟩

/-- The id of a link comes back as a number, and as zero where it was null. -/
theorem turned_link {link_type : Text} {id w : Value} (hid : id = .none ∨ ∃ n : Nat, id = .int n)
    (h : Turned names (linkValue link_type id) w) :
    ∃ j, w = linkValue link_type (.int j) ∧ (id = .none → j = 0) := by
  obtain ⟨sid, nid, hname, hnumber, rfl⟩ := turned_link_iff.mp h
  rcases hid with rfl | ⟨n, rfl⟩
  · cases hname
    obtain ⟨j, rfl, hj⟩ := nid_of_sid hnumber (Or.inl rfl)
    exact ⟨j, rfl, fun _ => hj rfl⟩
  · obtain ⟨sid', hsid, hcases⟩ := sid_of_number names.repr names.reader n
    cases hname.symm.trans hsid
    obtain ⟨j, rfl, -⟩ := nid_of_sid hnumber (by
      rcases hcases with ⟨hnone, -⟩ | ⟨name, hname, -⟩ | ⟨hdigits, -⟩
      · exact Or.inl hnone
      · exact Or.inr ⟨_, hname⟩
      · exact Or.inr ⟨_, hdigits⟩)
    exact ⟨j, rfl, fun h => by cases h⟩

/-- An object without links comes back as it is. -/
theorem turned_object {kvs : Dict} (hkvs : NoLink kvs)
    (hflat : ∀ p ∈ kvs, isMarked p.1 = false ∧ Flat p.2) {w : Value}
    (h : Turned names (.dict kvs) w) : w = .dict kvs := by
  obtain ⟨lws, rfl, hlws⟩ := turned_dict hkvs h
  have hsame : List.Forall₂ Eq kvs lws := by
    refine forall₂_imp_left hlws ?_
    rintro p hp q ⟨hkey, hturned⟩
    rw [(hflat p hp).1] at hturned
    exact Prod.ext hkey.symm (turned_flat (hflat p hp).2 hturned).symm
  rw [List.forall₂_eq_eq_eq] at hsame
  rw [hsame]

theorem quantity_entries (options : FieldOpts) (user_unit : Text) {v : Value} (hv : Flat v) :
    ∃ kvs, quantityValue options user_unit v = .dict kvs ∧ NoLink kvs ∧
      ∀ p ∈ kvs, isMarked p.1 = false ∧ Flat p.2 := by
  have hunit : "unit".toList ≠ "__bloxtype".toList := by decide
  have hvalue : "value".toList ≠ "__bloxtype".toList := by decide
  have hreadonly : "readonly".toList ≠ "__bloxtype".toList := by decide
  have hall : ∀ p ∈ [("__bloxtype".toList, Value.str "Quantity".toList),
      ("unit".toList, .str user_unit), ("value".toList, v)] ++
        (if options.readonly then [("readonly".toList, Value.bool true)] else []),
      (p.1 = "__bloxtype".toList → isStr "Link".toList p.2 = false) ∧
        isMarked p.1 = false ∧ Flat p.2 := by
    rw [List.forall_mem_append]
    refine ⟨?_, ?_⟩
    · refine List.forall_mem_cons.mpr ⟨⟨fun _ => rfl, rfl, trivial⟩, ?_⟩
      refine List.forall_mem_cons.mpr ⟨⟨fun h => absurd h hunit, rfl, trivial⟩, ?_⟩
      exact List.forall_mem_singleton.mpr ⟨fun h => absurd h hvalue, rfl, hv⟩
    · split
      · exact List.forall_mem_singleton.mpr ⟨fun h => absurd h hreadonly, rfl, trivial⟩
      · simp
  exact ⟨_, rfl, fun p hp => (hall p hp).1, fun p hp => (hall p hp).2⟩

theorem turned_quantity {options : FieldOpts} {user_unit : Text} {v w : Value} (hv : Flat v)
    (h : Turned names (quantityValue options user_unit v) w) :
    w = quantityValue options user_unit v := by
  obtain ⟨kvs, heq, hkvs, hflat⟩ := quantity_entries options user_unit hv
  rw [heq] at h ⊢
  exact turned_object hkvs hflat h

/-! ### Where links are turned back at all -/

/-- The links of a value are turned back. -/
def Turns (names : Naming) (v : Value) : Prop := ∃ w, Turned names v w

theorem turns_flat {v : Value} (hv : Flat v) : Turns names v := by
  cases v with
  | list vs => exact absurd hv id
  | dict kvs => exact absurd hv id
  | none | bool | int | float | str => exact ⟨_, _, rfl, rfl⟩

theorem turns_list {vs : List Value} : Turns names (.list vs) ↔ ∀ v ∈ vs, Turns names v := by
  have hloops := loops_return_iff (l := vs)
    (f := resolveEntry (_find_sid names.repr names.reader) false)
    (g := resolveEntry (_find_nid names.writer) false)
  have hturns : Turns names (.list vs) ↔ ∃ ns ws,
      vs.mapM (resolveEntry (_find_sid names.repr names.reader) false) = .ok ns ∧
        ns.mapM (resolveEntry (_find_nid names.writer) false) = .ok ws := by
    unfold Turns Turned TurnedEntry
    simp only [resolve_list, map_eq_ok]
    constructor
    · rintro ⟨w, named, ⟨ns, hns, rfl⟩, hnid⟩
      rw [resolve_list] at hnid
      obtain ⟨ws, hws, -⟩ := map_eq_ok.mp hnid
      exact ⟨ns, ws, hns, hws⟩
    · rintro ⟨ns, ws, hns, hws⟩
      exact ⟨.list ws, .list ns, ⟨ns, hns, rfl⟩, by rw [resolve_list, hws]; rfl⟩
  rw [hturns, hloops]
  exact forall₂_congr fun v _ => exists_comm

/-- The links of the data of a block are turned back where those of each entry are. -/
theorem data_turns {kvs : Dict} :
    (∃ named numbered, resolveDict (_find_sid names.repr names.reader) kvs = .ok named ∧
      resolveDict (_find_nid names.writer) named = .ok numbered) ↔
    ∀ p ∈ kvs, ∃ w, TurnedEntry names (isMarked p.1) p.2 w := by
  simp only [resolveDict_eq]
  rw [loops_return_iff]
  refine forall₂_congr fun p _ => ⟨?_, ?_⟩
  · rintro ⟨q, r, hq, hr⟩
    obtain ⟨named, hnamed, rfl⟩ := map_eq_ok.mp hq
    obtain ⟨w, hw, -⟩ := map_eq_ok.mp hr
    exact ⟨w, named, hnamed, hw⟩
  · rintro ⟨w, named, hnamed, hw⟩
    exact ⟨(p.1, named), (p.1, w), by rw [hnamed]; rfl, by rw [hw]; rfl⟩

theorem turns_dict {kvs : Dict} (hkvs : NoLink kvs) :
    Turns names (.dict kvs) ↔ ∀ p ∈ kvs, ∃ w, TurnedEntry names (isMarked p.1) p.2 w := by
  rw [← data_turns]
  constructor
  · rintro ⟨w, named, hsid, hnid⟩
    rw [resolve_dict (not_link hkvs)] at hsid
    obtain ⟨ns, hns, rfl⟩ := map_eq_ok.mp hsid
    rw [resolve_dict (not_link (noLink_resolved hkvs hns))] at hnid
    obtain ⟨lws, hlws, -⟩ := map_eq_ok.mp hnid
    exact ⟨ns, lws, hns, hlws⟩
  · rintro ⟨ns, lws, hns, hlws⟩
    refine ⟨.dict lws, .dict ns, ?_, ?_⟩
    · rw [resolve_dict (not_link hkvs), hns]
      rfl
    · rw [resolve_dict (not_link (noLink_resolved hkvs hns)), hlws]
      rfl

theorem turns_quantity (options : FieldOpts) (user_unit : Text) {v : Value} (hv : Flat v) :
    Turns names (quantityValue options user_unit v) := by
  obtain ⟨kvs, heq, hkvs, hflat⟩ := quantity_entries options user_unit hv
  rw [heq, turns_dict hkvs]
  intro p hp
  rw [(hflat p hp).1]
  exact turns_flat (hflat p hp).2

theorem turns_link {link_type : Text} {id : Value} : Turns names (linkValue link_type id) ↔
    ∃ sid nid, _find_sid names.repr names.reader id = .ok sid ∧
      _find_nid names.writer sid = .ok nid := by
  unfold Turns
  simp only [turned_link_iff]
  constructor
  · rintro ⟨_, sid, nid, hsid, hnid, rfl⟩
    exact ⟨sid, nid, hsid, hnid⟩
  · rintro ⟨sid, nid, hsid, hnid⟩
    exact ⟨_, sid, nid, hsid, hnid, rfl⟩

end

/-! ## Nulls -/

/-- Whether a value is reported as null. -/
def absent (options : FieldOpts) (excluded : Bool) (v : Value) : Bool :=
  excluded || (options.null_if_zero && isZero v)

/-- A link that is reported, and is not null, is turned back. -/
def LinkReached (reader writer : BlockStore) (options : FieldOpts) (excluded : Bool) (v : Value) :
    Prop :=
  options.objtype = none ∨ absent options excluded v = true ∨
    ∀ n, v = .int n → Reached reader writer n

/-- What was read as null is not set: it is left out of what is written, or is zero there, at any
depth. -/
inductive Unset : Value → Option Value → Prop
  | left_out {x} : Unset x none
  | zero {x} : Unset x (some (.int 0))
  | shown {x y} (hx : ¬ IsNull x) (hy : Flat y) : Unset x (some y)
  | list {xs ys} (h : List.Forall₂ Unset xs ys) : Unset (.list xs) (some (.list (ys.filterMap id)))
  | dict {kvs lws : Dict} (hx : ¬ IsNull (.dict kvs)) (h : ∀ p ∈ kvs, Unset p.2 (get? lws p.1)) :
    Unset (.dict kvs) (some (.dict lws))

/-- A dict that is no object of the service. -/
def Unmarked (kvs : Dict) : Prop :=
  ∀ p ∈ kvs, p.1 = "__bloxtype".toList → ∀ t, isStr t p.2 = false

theorem Unmarked.noLink {kvs : Dict} (h : Unmarked kvs) : NoLink kvs :=
  fun p hp hkey => h p hp hkey _

theorem Unmarked.not_null {kvs : Dict} (h : Unmarked kvs) : ¬ IsNull (.dict kvs) := by
  rintro (hnull | ⟨_, _, hnull⟩ | ⟨_, hnull⟩)
  · cases hnull
  · cases hnull
    have hmark := h _ List.mem_cons_self rfl "Quantity".toList
    cases hmark
  · cases hnull
    have hmark := h _ List.mem_cons_self rfl "Link".toList
    cases hmark

/-! ## Values -/

/-- One value of a field, as it is written: null is left out. -/
def writtenValue (env : Packages) (cv : UnitConverter) (element : OptionElement) (w : Value) :
    Except Exn (Option Value) :=
  if isNone w then .ok none else (encode_value env cv element w).map some

section
variable {env : Packages} {cv : UnitConverter} {filter_values : Bool} {element : OptionElement}

theorem writtenValue_some {w : Value} (h : isNone w = false) :
    writtenValue env cv element w = (encode_value env cv element w).map some := by
  unfold writtenValue
  rw [h, if_neg Bool.false_ne_true]

theorem encodeElement_written (h : stripped filter_values element.field.opts = false) {w : Value}
    (hlist : ∀ vs, w ≠ .list vs) : encodeElement env cv filter_values element w =
      (writtenValue env cv element w).map fun y => y.map fun u => (element.base_key, u) := by
  unfold writtenValue
  by_cases hnone : isNone w = true
  · rw [if_pos hnone]
    cases w with
    | none => exact encodeElement_none
    | bool | int | float | str | list | dict => cases hnone
  · rw [if_neg hnone, encodeElement_scalar h hlist (by simpa using hnone)]
    cases encode_value env cv element w <;> rfl

theorem encodeElement_writtenList (h : stripped filter_values element.field.opts = false)
    (ws : List Value) : encodeElement env cv filter_values element (.list ws) =
      (ws.mapM (writtenValue env cv element)).map fun ys =>
        some (element.base_key, .list (ys.filterMap id)) := by
  have hloop : (ws.filter (! isNone ·)).mapM (encode_value env cv element) =
      (ws.mapM (writtenValue env cv element)).map fun ys => ys.filterMap id := by
    induction ws with
    | nil => rfl
    | cons w ws ih =>
      rw [List.mapM_cons, writtenValue]
      by_cases hnone : isNone w = true
      · rw [List.filter_cons_of_neg (by simp [hnone]), ih, if_pos hnone, ok_bind]
        cases ws.mapM (writtenValue env cv element) <;> rfl
      · rw [List.filter_cons_of_pos (by simp [hnone]), List.mapM_cons, ih, if_neg hnone]
        rcases encode_value env cv element w with e | y
        · rfl
        · cases ws.mapM (writtenValue env cv element) <;> rfl
  rw [encodeElement_list h, hloop]
  cases ws.mapM (writtenValue env cv element) <;> rfl

variable {mode : ReadMode} {options : FieldOpts} {excluded : Bool} {user_unit : Text}

theorem withMetadata_typed (hmode : mode ≠ .LOGGED) (typed : Value → Value) (v : Value) :
    withMetadata mode typed v = typed v := by
  unfold withMetadata metadata_opt
  rw [if_neg hmode]

/-- In which notation a null is reported. -/
theorem decode_absent (hmode : mode ≠ .LOGGED) {v x : Value}
    (habsent : absent options excluded v = true)
    (h : decode_value env cv mode options excluded user_unit v = .ok x) :
    (options.unit ≠ .NotSet ∧ x = quantityValue options user_unit .none) ∨
      (options.unit = .NotSet ∧ ((∃ link_type, options.objtype = some link_type ∧
        x = linkValue link_type .none) ∨ (options.objtype = none ∧ x = .none))) := by
  unfold absent at habsent
  unfold decode_value at h
  obtain ⟨y, -, h⟩ := bind_eq_ok.mp h
  simp only [habsent, if_true, withMetadata_typed hmode] at h
  by_cases hunit : options.unit = .NotSet
  · rw [if_neg (not_not.mpr hunit)] at h
    refine Or.inr ⟨hunit, ?_⟩
    cases hobjtype : options.objtype with
    | some link_type =>
      rw [hobjtype] at h
      cases h
      exact Or.inl ⟨link_type, rfl, rfl⟩
    | none =>
      rw [hobjtype] at h
      cases h
      exact Or.inr ⟨rfl, rfl⟩
  · rw [if_pos hunit] at h
    obtain ⟨_, ⟨⟩, rfl⟩ := map_eq_ok.mp h
    exact Or.inl ⟨hunit, withMetadata_typed hmode _ _⟩

theorem absent_false {v : Value} (h : options.null_if_zero = true → isZero v = false) :
    absent options false v = false := by
  unfold absent
  cases hnull : options.null_if_zero with
  | false => rfl
  | true =>
    rw [h hnull]
    rfl

/-- What is not reported as null is read as without a mask. -/
theorem decode_present {v : Value} (habsent : absent options excluded v = false) :
    decode_value env cv mode options excluded user_unit v =
      decode_value env cv mode options false user_unit v ∧
        (options.null_if_zero = true → isZero v = false) := by
  unfold absent at habsent
  rw [Bool.or_eq_false_iff] at habsent
  refine ⟨by rw [habsent.1], fun hnull => ?_⟩
  rw [hnull, Bool.true_and] at habsent
  exact habsent.2

theorem flat_of_number {v : Value} {x : PyFloat} (h : number? v = some x) :
    Flat v ∧ isNone v = false := by
  cases v <;> first | exact ⟨trivial, rfl⟩ | cases h

theorem flat_of_raw {type : FieldType} {v : Value} (h : rawScalar type v) : Flat v := by
  cases v
  case list => exact absurd h not_rawScalar_list
  case dict => exact absurd h (by cases type <;> exact id)
  all_goals trivial

theorem kept_flat {type : FieldType} {v w : Value} (hv : Flat v) (h : keptScalar type v w) :
    Flat w := by
  unfold keptScalar at h
  split at h
  · obtain ⟨i, rfl, -⟩ := h
    trivial
  · obtain ⟨n, rfl, -⟩ := h
    trivial
  · rw [h]
    exact hv

theorem quantityValue_inj {options options' : FieldOpts} {u u' : Text} {v v' : Value}
    (h : quantityValue options u v = quantityValue options' u' v') : v = v' := by
  unfold quantityValue at h
  simp only [Value.dict.injEq, List.cons_append, List.cons.injEq, Prod.mk.injEq] at h
  exact h.2.2.1.2

theorem quantity_not_link {v id : Value} {link_type : Text} :
    quantityValue options user_unit v ≠ linkValue link_type id := by
  intro h
  have hlink : is_link (quantityValue options user_unit v) = true := by
    rw [h]
    rfl
  cases hlink

theorem quantity_not_null {v : Value} (hv : isNone v = false) :
    ¬ IsNull (quantityValue options user_unit v) := by
  rintro (h | ⟨_, _, h⟩ | ⟨_, h⟩)
  · cases h
  · rw [quantityValue_inj h] at hv
    cases hv
  · exact quantity_not_link h

theorem flat_not_null {v : Value} (hv : Flat v) (hnone : isNone v = false) : ¬ IsNull v := by
  rintro (rfl | ⟨_, _, rfl⟩ | ⟨_, rfl⟩)
  · cases hnone
  · exact hv
  · exact hv

/-- Pint converts a number to a number. -/
theorem user_value_number {user_temp : Text} (hexact : Exact env user_temp) {unit : UnitType}
    (hunit : unit ≠ .Volt) {v w : Value} {q : ℚ} (hv : number? v = some (.fin q))
    (hbool : ∀ b, v ≠ .bool b)
    (h : to_user_value env.quantity (converter user_temp) v unit.Name = .ok w) :
    ∃ r, number? w = some (.fin r) := by
  obtain ⟨s, hs, hmapping⟩ := mapping_of_unit hunit
  obtain ⟨w', r, hw', hnumber, -⟩ :=
    hexact.units.there_and_back _ (List.mem_map_of_mem hs) v q hv hbool
  unfold to_user_value at h
  rw [hmapping, ok_bind] at h
  cases h.symm.trans hw'
  exact ⟨r, hnumber⟩

/-- What `_convert_value` makes of a value without metadata has no parts. -/
theorem flat_of_plain {v x : Value} (hv : Flat v)
    (h : decode_plain env mode options v = .ok x) : Flat x := by
  unfold decode_plain at h
  split at h
  · obtain ⟨i, -, h⟩ := bind_eq_ok.mp h
    split at h
    · cases h
    · split at h <;> cases h
      trivial
  split at h
  · unfold b64_to_hex at h
    split at h
    · split at h
      · cases h
      · split at h <;> cases h
        trivial
    · cases h
  split at h
  · unfold int_to_ipv4 at h
    split at h
    · obtain ⟨n, -, rfl⟩ := map_eq_ok.mp h
      trivial
    · obtain ⟨n, -, rfl⟩ := map_eq_ok.mp h
      trivial
    · cases h
  split at h
  · obtain ⟨date, -, h⟩ := bind_eq_ok.mp h
    split at h <;> cases h <;> trivial
  · cases h
    exact hv

theorem flat_of_scaled {v y : Value} (hv : Flat v) {scale : Nat}
    (h : applyIf (scale ≠ 0) (overInt · scale) v = .ok y) : Flat y := by
  by_cases hscale : scale ≠ 0
  · rw [applyIf_pos hscale] at h
    unfold overInt at h
    split at h <;> cases h
    trivial
  · rw [applyIf_neg hscale] at h
    cases h
    exact hv

/-- Only numbers of 32 bits have a unit. -/
theorem number_of_unit {type : FieldType} {repeated : Bool} {options : FieldOpts}
    (hplaced : Placed type repeated options) (hunit : options.unit ≠ .NotSet) :
    (type = .INT32 ∨ type = .UINT32) ∧ options.unit ≠ .Volt := by
  cases hplaced
  case number hvolt htype =>
    simp only [List.mem_cons, List.not_mem_nil, or_false] at htype
    exact ⟨htype, hvolt⟩
  all_goals exact absurd rfl hunit

/-- What is read of a value that is reported, and is no link: the value, or an object with it. -/
theorem decode_shape {user_temp : Text} (hexact : Exact env user_temp) {field : FieldDescriptor}
    (hplaced : Placed field.type field.label_repeated field.opts) (hmode : mode ≠ .LOGGED)
    {v x : Value} (hraw : rawScalar field.type v) (hlink : field.opts.objtype = none)
    (hnull : field.opts.null_if_zero = true → isZero v = false)
    (h : decode_value env (converter user_temp) mode field.opts false user_unit v = .ok x) :
    Flat x ∨ ∃ y, x = quantityValue field.opts user_unit y ∧ Flat y ∧ isNone y = false := by
  have habsent : absent field.opts false v = false := absent_false hnull
  unfold absent at habsent
  unfold decode_value at h
  obtain ⟨y, hy, h⟩ := bind_eq_ok.mp h
  simp only [habsent, Bool.false_eq_true, if_false, hlink] at h
  by_cases hunit : field.opts.unit = .NotSet
  · rw [if_neg (not_not.mpr hunit)] at h
    exact Or.inl (flat_of_plain (flat_of_scaled (flat_of_raw hraw) hy) h)
  · rw [if_pos hunit] at h
    obtain ⟨w, hw, rfl⟩ := map_eq_ok.mp h
    obtain ⟨htype, hvolt⟩ := number_of_unit hplaced hunit
    obtain ⟨i, rfl⟩ := rawScalar_int htype hraw
    obtain ⟨y', hy', hnumber, hbool⟩ := scaled_number (v := .int i) rfl (by simp) field.opts.scale
    cases hy.symm.trans hy'
    obtain ⟨r, hr⟩ := user_value_number hexact hvolt hnumber hbool hw
    obtain ⟨hflat, hnone⟩ := flat_of_number hr
    exact Or.inr ⟨w, withMetadata_typed hmode _ _, hflat, hnone⟩

/-- A field is a link, and no other option converts its value. -/
structure OnlyLink (options : FieldOpts) : Prop where
  objtype : options.objtype.isSome = true
  unit : options.unit = .NotSet
  scale : options.scale = 0
  hexed : options.hexed = false
  hexstr : options.hexstr = false
  ipv4address : options.ipv4address = false
  datetime : options.datetime = false

theorem onlyLink_of_placed {type : FieldType} {repeated : Bool} {options : FieldOpts}
    (hplaced : Placed type repeated options) {link_type : Text}
    (hlink : options.objtype = some link_type) : OnlyLink options := by
  cases hplaced
  case link => exact ⟨rfl, rfl, rfl, rfl, rfl, rfl, rfl⟩
  all_goals cases hlink

/-- What links to a number is encoded as the number. -/
theorem encode_linked (h : OnlyLink element.field.opts) {v : Value} {i : Int}
    (hid : linkId v = .ok (.int i)) : encode_value env cv element v = .ok (.int i) := by
  have hround : applyIf (isIntType element.field.type) (fun value =>
      (roundInt value).map Value.int) (.int i) = .ok (.int i) := by
    cases hint : isIntType element.field.type with
    | true => exact hint ▸ round_int_type hint i
    | false => rfl
  unfold encode_value
  simp only [h.objtype, h.unit, h.scale, h.hexed, h.hexstr, h.ipv4address, h.datetime, ne_eq,
    not_true_eq_false, decide_false, applyIf_false, applyIf_true, hid, bind, Except.bind]
  exact hround

/-- A link with a number is encoded as the number. -/
theorem encode_linkValue {repeated : Bool} {link_type link_type' : Text}
    (hplaced : Placed element.field.type repeated element.field.opts)
    (hlink : element.field.opts.objtype = some link_type') (i : Int) :
    encode_value env cv element (linkValue link_type (.int i)) = .ok (.int i) :=
  encode_linked (onlyLink_of_placed hplaced hlink) rfl

/-- An object with a unit, and with null for its value, is not encoded. -/
theorem encode_null_quantity {user_temp : Text} (hexact : Exact env user_temp)
    (hunit : element.field.opts.unit ≠ .NotSet) (hvolt : element.field.opts.unit ≠ .Volt)
    (user_unit : Text) : ∃ e, encode_value env (converter user_temp) element
      (quantityValue options user_unit .none) = .error e := by
  obtain ⟨s, -, hmapping⟩ := mapping_of_unit hvolt
  have hconvert : ∃ e, _encode_unit env (converter user_temp)
      (quantityValue options user_unit .none) element.field.opts.unit.Name
        (.str element.postfixed) = .error e := by
    obtain ⟨e, he⟩ := hexact.units.no_null
      (if truthy (.str user_unit) then .str user_unit else .str (format user_temp s))
      (format SYSTEM_TEMP s)
    refine ⟨e, ?_⟩
    unfold _encode_unit quantityValue to_sys_value
    simp only [hmapping, bind, Except.bind]
    exact he
  obtain ⟨e, he⟩ := hconvert
  refine ⟨e, ?_⟩
  unfold encode_value
  simp only [applyIf_pos hunit, he, bind, Except.bind]

end

theorem returns_value {x : Except Exn Value} {y : Value} {U : Option Value → Prop} {p : Prop}
    (hp : p) (h : x = .ok y) (hU : U (some y)) : Returns (x.map some) p U := by
  rw [h]
  exact (Returns.of_ok hU).congr (iff_of_true trivial hp)

section
variable {env : Packages} {user_temp : Text} {names : Naming}
variable {mode : ReadMode} {excluded : Bool} {user_unit : Text} {element : OptionElement}

/-- A value that was reported as null is written as null, or refused. -/
theorem absent_written (hexact : Exact env user_temp) (hmode : mode ≠ .LOGGED)
    (hplaced : Placed element.field.type element.field.label_repeated element.field.opts)
    {v x w : Value} (habsent : absent element.field.opts excluded v = true)
    (h : decode_value env (converter user_temp) mode element.field.opts excluded user_unit v =
      .ok x)
    (hturned : Turned names x w) :
    (∀ vs, w ≠ .list vs) ∧ Returns (writtenValue env (converter user_temp) element w)
      (element.field.opts.unit = .NotSet) (Unset x) := by
  rcases decode_absent hmode habsent h with ⟨hunit, rfl⟩ |
    ⟨hunit, ⟨link_type, hlink, rfl⟩ | ⟨-, rfl⟩⟩
  · obtain rfl := turned_quantity (v := .none) trivial hturned
    obtain ⟨e, he⟩ := encode_null_quantity hexact hunit (number_of_unit hplaced hunit).2 user_unit
    refine ⟨(fun vs h => nomatch h), ?_⟩
    rw [writtenValue_some rfl, he]
    exact (Returns.of_error e).congr (iff_of_false id hunit)
  · obtain ⟨j, rfl, hj⟩ := turned_link (Or.inl rfl) hturned
    refine ⟨(fun vs h => nomatch h), ?_⟩
    rw [writtenValue_some rfl, hj rfl]
    exact returns_value hunit (encode_linkValue hplaced hlink 0) .zero
  · obtain rfl := turned_flat (v := .none) trivial hturned
    refine ⟨(fun vs h => nomatch h), ?_⟩
    exact (Returns.of_ok Unset.left_out).congr (iff_of_true trivial hunit)

/-- What is read of a link that is reported. -/
theorem decode_link (hmode : mode ≠ .LOGGED) {field : FieldDescriptor}
    (hplaced : Placed field.type field.label_repeated field.opts) {link_type : Text}
    (hlink : field.opts.objtype = some link_type) {v x : Value} (hraw : rawScalar field.type v)
    (hnull : field.opts.null_if_zero = true → isZero v = false)
    (h : decode_value env (converter user_temp) mode field.opts false user_unit v = .ok x) :
    ∃ n : Nat, n < 2 ^ 32 ∧ v = .int n ∧ x = linkValue link_type (.int n) := by
  obtain ⟨name, number, type, label_repeated, message_type, opts⟩ := field
  cases hplaced
  case link readonly logged stored ignored objtype omit_if_zero null_if_zero =>
    cases hlink
    obtain ⟨i, rfl⟩ := rawScalar_int (Or.inr rfl) hraw
    obtain ⟨h0, hend⟩ : 0 ≤ i ∧ i < 2 ^ 32 := hraw
    obtain ⟨n, rfl⟩ := Int.eq_ofNat_of_zero_le h0
    have habsent : absent _ false (.int n) = false := absent_false hnull
    unfold absent at habsent
    unfold decode_value at h
    simp only [habsent, withMetadata_typed hmode] at h
    cases h
    exact ⟨n, by omega, rfl, rfl⟩
  all_goals cases hlink

/-- The links of what is read of a value. -/
theorem scalar_turns (hexact : Exact env user_temp) (hmode : mode ≠ .LOGGED)
    {field : FieldDescriptor} (hplaced : Placed field.type field.label_repeated field.opts)
    {v x : Value} (hraw : rawScalar field.type v)
    (h : decode_value env (converter user_temp) mode field.opts excluded user_unit v = .ok x) :
    Turns names x ↔ LinkReached names.reader names.writer field.opts excluded v := by
  unfold LinkReached
  by_cases habsent : absent field.opts excluded v = true
  · refine iff_of_true ?_ (Or.inr (Or.inl habsent))
    rcases decode_absent hmode habsent h with ⟨-, rfl⟩ | ⟨-, ⟨link_type, -, rfl⟩ | ⟨-, rfl⟩⟩
    · exact turns_quantity _ _ trivial
    · exact turns_link.mpr ⟨_, _, rfl, rfl⟩
    · exact turns_flat trivial
  · have hpresent := habsent
    rw [Bool.not_eq_true] at habsent
    obtain ⟨hshown, hnull⟩ := decode_present habsent
    rw [hshown] at h
    cases hlink : field.opts.objtype with
    | none =>
      refine iff_of_true ?_ (Or.inl rfl)
      rcases decode_shape hexact hplaced hmode hraw hlink hnull h with hx | ⟨y, rfl, hy, -⟩
      · exact turns_flat hx
      · exact turns_quantity _ _ hy
    | some link_type =>
      obtain ⟨n, hn, rfl, rfl⟩ := decode_link hmode hplaced hlink hraw hnull h
      rw [turns_link, number_reached_iff hn]
      simp [hpresent]

theorem trip_written {v x : Value} (hraw : rawScalar element.field.type v)
    (hnone : isNone x = false) (hx : ¬ IsNull x)
    (h : ∃ y, encode_value env (converter user_temp) element x = .ok y ∧
      keptScalar element.field.type v y) :
    ∃ y, writtenValue env (converter user_temp) element x = .ok y ∧ Unset x y := by
  obtain ⟨y, hy, hkept⟩ := h
  refine ⟨some y, ?_, .shown hx (kept_flat (flat_of_raw hraw) hkept)⟩
  rw [writtenValue_some hnone, hy]
  rfl

/-- A value that was reported is written. -/
theorem present_written (hexact : Exact env user_temp) (hmode : mode ≠ .LOGGED)
    (hplaced : Placed element.field.type element.field.label_repeated element.field.opts)
    {v x w : Value} (hraw : rawScalar element.field.type v)
    (hnull : element.field.opts.null_if_zero = true → isZero v = false)
    (h : decode_value env (converter user_temp) mode element.field.opts false user_unit v = .ok x)
    (huser : to_user_unit (converter user_temp) element.field.opts.unit.Name = .ok user_unit)
    (hturned : Turned names x w) :
    (∀ vs, w ≠ .list vs) ∧ ∃ y, writtenValue env (converter user_temp) element w = .ok y ∧
      Unset x y := by
  obtain ⟨user_unit', x', huser', htrip⟩ := scalar_trip hexact hplaced mode hraw hnull
  cases huser.symm.trans huser'
  cases h.symm.trans htrip.decoded
  cases hlink : element.field.opts.objtype with
  | some link_type =>
    obtain ⟨n, -, rfl, rfl⟩ := decode_link hmode hplaced hlink hraw hnull h
    obtain ⟨j, rfl, -⟩ := turned_link (Or.inr ⟨n, rfl⟩) hturned
    refine ⟨(fun vs h => nomatch h), some (.int j), ?_, .shown ?_ trivial⟩
    · rw [writtenValue_some rfl, encode_linkValue hplaced hlink]
      rfl
    · rintro (h | ⟨_, _, h⟩ | ⟨_, h⟩)
      · cases h
      · exact quantity_not_link h.symm
      · cases h
  | none =>
    rcases decode_shape hexact hplaced hmode hraw hlink hnull h with hx | ⟨y, rfl, hy, hnone⟩
    · obtain rfl := turned_flat hx hturned
      refine ⟨htrip.not_list, ?_⟩
      rcases htrip.encoded with ⟨rfl, -⟩ | ⟨hnone, hencode⟩
      · exact ⟨none, rfl, .left_out⟩
      · exact trip_written hraw hnone (flat_not_null hx hnone)
          (hencode element rfl (absurd · hmode))
    · obtain rfl := turned_quantity hy hturned
      refine ⟨htrip.not_list, ?_⟩
      rcases htrip.encoded with ⟨h, -⟩ | ⟨hnull, hencode⟩
      · cases h
      · exact trip_written hraw hnull (quantity_not_null hnone)
          (hencode element rfl (absurd · hmode))

/-- A value is written back, unless it is a null with a unit. -/
theorem scalar_written (hexact : Exact env user_temp) (hmode : mode ≠ .LOGGED)
    (hplaced : Placed element.field.type element.field.label_repeated element.field.opts)
    {v x w : Value} (hraw : rawScalar element.field.type v)
    (h : decode_value env (converter user_temp) mode element.field.opts excluded user_unit v =
      .ok x)
    (huser : to_user_unit (converter user_temp) element.field.opts.unit.Name = .ok user_unit)
    (hturned : Turned names x w) :
    (∀ vs, w ≠ .list vs) ∧ Returns (writtenValue env (converter user_temp) element w)
      (element.field.opts.unit = .NotSet ∨ absent element.field.opts excluded v = false)
      (Unset x) := by
  by_cases habsent : absent element.field.opts excluded v = true
  · obtain ⟨hlist, hreturns⟩ := absent_written hexact hmode hplaced habsent h hturned
    exact ⟨hlist, hreturns.congr (by simp [habsent])⟩
  · rw [Bool.not_eq_true] at habsent
    obtain ⟨hshown, hnull⟩ := decode_present habsent
    rw [hshown] at h
    obtain ⟨hlist, y, hy, hunset⟩ := present_written hexact hmode hplaced hraw hnull h huser hturned
    rw [hy]
    exact ⟨hlist, (Returns.of_ok hunset).congr (iff_of_true trivial (Or.inr habsent))⟩

/-- The values of a list are written back, unless one of them is a null with a unit. -/
theorem list_written (hexact : Exact env user_temp) (hmode : mode ≠ .LOGGED)
    (hplaced : Placed element.field.type element.field.label_repeated element.field.opts)
    {vs xs ws : List Value} (hraw : ∀ v ∈ vs, rawScalar element.field.type v)
    (hread : List.Forall₂ (fun v x => decode_value env (converter user_temp) mode
      element.field.opts excluded user_unit v = .ok x) vs xs)
    (huser : to_user_unit (converter user_temp) element.field.opts.unit.Name = .ok user_unit)
    (hturned : List.Forall₂ (Turned names) xs ws) :
    Returns (ws.mapM (writtenValue env (converter user_temp) element))
      (∀ v ∈ vs, element.field.opts.unit = .NotSet ∨ absent element.field.opts excluded v = false)
      (List.Forall₂ Unset xs) := by
  have hloop := Returns.mapM (forall₂_compose hread hturned)
    (f := writtenValue env (converter user_temp) element)
    (P := fun v => element.field.opts.unit = .NotSet ∨
      absent element.field.opts excluded v = false)
    (W := fun v y => ∀ x, decode_value env (converter user_temp) mode element.field.opts excluded
      user_unit v = .ok x → Unset x y) (by
      rintro v hv w ⟨x, hx, hw⟩
      refine Returns.imp (scalar_written hexact hmode hplaced (hraw v hv) hx huser hw).2 ?_
      intro y hy x' hx'
      cases hx.symm.trans hx'
      exact hy)
  refine hloop.imp fun ys hys => ?_
  exact (forall₂_compose hread.flip hys).imp fun x y ⟨v, hv, hunset⟩ => hunset x hv

end

end devcon_spark.codec.content
