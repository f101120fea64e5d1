-- Links in the data of blocks: what `resolve_data_ids` changes, and what names
-- and numbers stand for.
import DevconSpark.SparkApi

open bidict py_text py_dict py_number py_value devcon_spark.exceptions devcon_spark.models
open devcon_spark.codec.bloxfield

namespace devcon_spark.spark_api

/-! ## Trees with links -/

section
variable (R : Value → Value → Prop)

mutual

/-- The same tree, but for its links, which are in relation. An entry is marked where its key
ends in `>`. A link object is one link: what else is in it stays. -/
def relatedEntry (marked : Bool) (v w : Value) : Prop :=
  match v with
  | .dict kvs =>
    if is_link (.dict kvs) then ∃ before rest id id',
      kvs = before ++ ("id".toList, id) :: rest ∧ w = .dict (before ++ ("id".toList, id') :: rest) ∧
        "id".toList ∉ before.map (·.1) ∧ "id".toList ∉ rest.map (·.1) ∧ R id id'
    else if marked then R (.dict kvs) w
    else ∃ lws, w = .dict lws ∧ relatedDict kvs lws
  | .list vs =>
    if marked then R (.list vs) w else ∃ ws, w = .list ws ∧ relatedList vs ws
  | .none => if marked then R .none w else w = .none
  | .bool b => if marked then R (.bool b) w else w = .bool b
  | .int i => if marked then R (.int i) w else w = .int i
  | .float x => if marked then R (.float x) w else w = .float x
  | .str t => if marked then R (.str t) w else w = .str t

def relatedList (vs ws : List Value) : Prop :=
  match vs with
  | [] => ws = []
  | v :: vs => ∃ x xs, ws = x :: xs ∧ relatedEntry false v x ∧ relatedList vs xs

def relatedDict (kvs lws : Dict) : Prop :=
  match kvs with
  | [] => lws = []
  | (k, v) :: kvs => ∃ w ws, lws = (k, w) :: ws ∧
    relatedEntry (k.getLast? = some OBJECT_LINK_POSTFIX_END) v w ∧ relatedDict kvs ws

end

end

section
variable (P : Value → Prop)

mutual

/-- A tree whose links are ids that meet a condition. The keys of a dict differ. -/
def linkedEntry (marked : Bool) (v : Value) : Prop :=
  match v with
  | .dict kvs =>
    if is_link (.dict kvs) then
      (kvs.map (·.1)).Nodup ∧ ∃ id, get? kvs "id".toList = some id ∧ P id
    else if marked then P (.dict kvs)
    else linkedDict kvs
  | .list vs => if marked then P (.list vs) else linkedList vs
  | .none => if marked then P .none else True
  | .bool b => if marked then P (.bool b) else True
  | .int i => if marked then P (.int i) else True
  | .float x => if marked then P (.float x) else True
  | .str t => if marked then P (.str t) else True

def linkedList (vs : List Value) : Prop :=
  match vs with
  | [] => True
  | v :: vs => linkedEntry false v ∧ linkedList vs

def linkedDict (kvs : Dict) : Prop :=
  match kvs with
  | [] => True
  | (k, v) :: kvs => linkedEntry (k.getLast? = some OBJECT_LINK_POSTFIX_END) v ∧ linkedDict kvs

end

end

/-- Whether the key of an entry ends in `>`. -/
def isMarked (k : Text) : Bool := k.getLast? = some OBJECT_LINK_POSTFIX_END

theorem relatedList_iff {R : Value → Value → Prop} {vs ws : List Value} :
    relatedList R vs ws ↔ List.Forall₂ (relatedEntry R false) vs ws := by
  induction vs generalizing ws with
  | nil => simp [relatedList]
  | cons v vs ih =>
    rw [relatedList, List.forall₂_cons_left_iff]
    simp only [ih]
    constructor
    · rintro ⟨x, xs, rfl, h, hs⟩
      exact ⟨x, xs, h, hs, rfl⟩
    · rintro ⟨x, xs, h, hs, rfl⟩
      exact ⟨x, xs, rfl, h, hs⟩

theorem relatedDict_iff {R : Value → Value → Prop} {kvs lws : Dict} :
    relatedDict R kvs lws ↔
      List.Forall₂ (fun p q => p.1 = q.1 ∧ relatedEntry R (isMarked p.1) p.2 q.2) kvs lws := by
  induction kvs generalizing lws with
  | nil => simp [relatedDict]
  | cons p kvs ih =>
    obtain ⟨k, v⟩ := p
    rw [relatedDict, List.forall₂_cons_left_iff]
    simp only [ih]
    constructor
    · rintro ⟨w, ws, rfl, h, hs⟩
      exact ⟨(k, w), ws, ⟨rfl, h⟩, hs, rfl⟩
    · rintro ⟨⟨_, w⟩, ws, ⟨rfl, h⟩, hs, rfl⟩
      exact ⟨w, ws, rfl, h, hs⟩

theorem linkedList_iff {P : Value → Prop} {vs : List Value} :
    linkedList P vs ↔ ∀ v ∈ vs, linkedEntry P false v := by
  induction vs with
  | nil => simp [linkedList]
  | cons v vs ih => rw [linkedList, ih, List.forall_mem_cons]

theorem linkedDict_iff {P : Value → Prop} {kvs : Dict} :
    linkedDict P kvs ↔ ∀ p ∈ kvs, linkedEntry P (isMarked p.1) p.2 := by
  induction kvs with
  | nil => simp [linkedDict]
  | cons p kvs ih =>
    obtain ⟨k, v⟩ := p
    rw [linkedDict, ih, List.forall_mem_cons]
    rfl

theorem resolveList_eq (replacer : Value → Except Exn Value) (vs : List Value) :
    resolveList replacer vs = vs.mapM (resolveEntry replacer false) := by
  induction vs with
  | nil => rw [resolveList, List.mapM_nil]; rfl
  | cons v vs ih => rw [resolveList, List.mapM_cons, ih]

theorem resolveDict_eq (replacer : Value → Except Exn Value) (kvs : Dict) :
    resolveDict replacer kvs = kvs.mapM fun p =>
      (resolveEntry replacer (isMarked p.1) p.2).map fun v => (p.1, v) := by
  induction kvs with
  | nil => rw [resolveDict, List.mapM_nil]; rfl
  | cons p kvs ih =>
    obtain ⟨k, v⟩ := p
    rw [resolveDict, List.mapM_cons, ih]
    unfold isMarked
    cases resolveEntry replacer (k.getLast? = some OBJECT_LINK_POSTFIX_END) v <;> rfl

section
variable (replacer : Value → Except Exn Value)

theorem resolve_list (vs : List Value) : resolveEntry replacer false (.list vs) =
    (vs.mapM (resolveEntry replacer false)).map Value.list := by
  unfold resolveEntry
  rw [if_neg Bool.false_ne_true, resolveList_eq]

variable {replacer}

theorem resolve_dict {kvs : Dict} (h : is_link (.dict kvs) = false) :
    resolveEntry replacer false (.dict kvs) = (resolveDict replacer kvs).map Value.dict := by
  unfold resolveEntry
  rw [if_neg (by simp [h]), if_neg Bool.false_ne_true]

/-- The id of a link is replaced, whatever its key. -/
theorem resolve_link {marked : Bool} {kvs : Dict} {id id' : Value}
    (h : is_link (.dict kvs) = true) (hid : get? kvs "id".toList = some id)
    (hreplace : replacer id = .ok id') :
    resolveEntry replacer marked (.dict kvs) = .ok (.dict (setItem kvs "id".toList id')) := by
  unfold resolveEntry
  rw [if_pos h, getItem, hid]
  simp only [ok_bind, hreplace]
  rfl

/-- What stands under a marked key is replaced as a whole, unless it is a link. -/
theorem resolve_marked {v : Value} (h : is_link v = false) :
    resolveEntry replacer true v = replacer v := by
  cases v with
  | dict kvs =>
    unfold resolveEntry
    rw [if_neg (by simp [h]), if_pos rfl]
  | none | bool | int | float | str | list =>
    unfold resolveEntry
    exact if_pos rfl

end

/-! ## What `resolve_data_ids` does to a tree -/

theorem dict_resolves {replacer : Value → Except Exn Value} {R : Value → Value → Prop}
    {kvs lws : Dict} (hall : ∀ p ∈ kvs, ∀ {marked : Bool} {w : Value},
      relatedEntry R marked p.2 w → resolveEntry replacer marked p.2 = .ok w)
    (h : relatedDict R kvs lws) : resolveDict replacer kvs = .ok lws := by
  rw [resolveDict_eq]
  refine mapM_eq_ok (forall₂_imp_left (relatedDict_iff.mp h) ?_)
  rintro p hp ⟨k, w⟩ ⟨rfl, hpq⟩
  rw [hall p hp hpq]
  rfl

/-- A tree is resolved to the one whose links are the replaced ones. -/
theorem related_resolves {replacer : Value → Except Exn Value} {R : Value → Value → Prop}
    (hR : ∀ a b, R a b → replacer a = .ok b) (v : Value) : ∀ {marked : Bool} {w : Value},
      relatedEntry R marked v w → resolveEntry replacer marked v = .ok w := by
  induction v using value_induction with
  | dict kvs ih =>
    intro marked w h
    unfold relatedEntry at h
    by_cases hlink : is_link (.dict kvs) = true
    · rw [if_pos hlink] at h
      obtain ⟨before, rest, id, id', rfl, rfl, hbefore, hrest, hid⟩ := h
      rw [resolve_link hlink (get?_middle hbefore) (hR id id' hid),
        setItem_middle id' hbefore hrest]
    · rw [if_neg hlink] at h
      rw [Bool.not_eq_true] at hlink
      cases marked with
      | true => exact (resolve_marked hlink).trans (hR _ _ h)
      | false =>
        obtain ⟨lws, rfl, h⟩ := h
        rw [resolve_dict hlink, dict_resolves ih h]
        rfl
  | list vs ih =>
    intro marked w h
    unfold relatedEntry at h
    cases marked with
    | true => exact (resolve_marked rfl).trans (hR _ _ h)
    | false =>
      obtain ⟨ws, rfl, h⟩ := h
      have hloop := mapM_eq_ok (forall₂_imp_left (relatedList_iff.mp h) fun v hv _ => ih v hv)
      rw [resolve_list, hloop]
      rfl
  | none | bool | int | float | str =>
    intro marked w h
    unfold relatedEntry at h
    unfold resolveEntry
    cases marked with
    | true => exact hR _ _ h
    | false =>
      rw [if_neg Bool.false_ne_true] at h ⊢
      rw [h]

theorem dict_related {P : Value → Prop} {R : Value → Value → Prop} {kvs : Dict}
    (hall : ∀ p ∈ kvs, ∀ {marked : Bool}, linkedEntry P marked p.2 →
      ∃ w, relatedEntry R marked p.2 w) (h : linkedDict P kvs) : ∃ lws, relatedDict R kvs lws := by
  have hentries : ∀ p ∈ kvs, ∃ q : Text × Value,
      p.1 = q.1 ∧ relatedEntry R (isMarked p.1) p.2 q.2 := by
    intro p hp
    obtain ⟨w, hw⟩ := hall p hp (linkedDict_iff.mp h p hp)
    exact ⟨(p.1, w), rfl, hw⟩
  obtain ⟨lws, hlws⟩ := exists_forall₂ hentries
  exact ⟨lws, relatedDict_iff.mpr hlws⟩

/-- Where each link may be replaced, the tree may be. -/
theorem related_of_linked {P : Value → Prop} {R : Value → Value → Prop}
    (hP : ∀ a, P a → ∃ b, R a b) (v : Value) :
    ∀ {marked : Bool}, linkedEntry P marked v → ∃ w, relatedEntry R marked v w := by
  induction v using value_induction with
  | dict kvs ih =>
    intro marked h
    unfold linkedEntry at h
    unfold relatedEntry
    by_cases hlink : is_link (.dict kvs) = true
    · rw [if_pos hlink] at h
      obtain ⟨hnodup, id, hget, hid⟩ := h
      obtain ⟨before, rest, hsplit, hbefore, hrest⟩ := split_of_get? hnodup hget
      obtain ⟨id', hR⟩ := hP id hid
      refine ⟨.dict (before ++ ("id".toList, id') :: rest), ?_⟩
      rw [if_pos hlink]
      exact ⟨before, rest, id, id', hsplit, rfl, hbefore, hrest, hR⟩
    · rw [if_neg hlink] at h
      simp only [if_neg hlink]
      cases marked with
      | true => exact hP _ h
      | false =>
        obtain ⟨lws, hlws⟩ := dict_related ih h
        exact ⟨.dict lws, lws, rfl, hlws⟩
  | list vs ih =>
    intro marked h
    unfold linkedEntry at h
    unfold relatedEntry
    cases marked with
    | true => exact hP _ h
    | false =>
      obtain ⟨ws, hws⟩ := exists_forall₂ fun v hv => ih v hv (linkedList_iff.mp h v hv)
      exact ⟨.list ws, ws, rfl, relatedList_iff.mpr hws⟩
  | none | bool | int | float | str =>
    intro marked h
    unfold linkedEntry at h
    unfold relatedEntry
    cases marked with
    | true => exact hP _ h
    | false => exact ⟨_, rfl⟩

/-! ## Back again -/

theorem is_link_dict (kvs : Dict) :
    is_link (.dict kvs) = (get? kvs "__bloxtype".toList).any (isStr "Link".toList) := rfl

theorem is_link_middle {before rest : Dict} (id id' : Value) :
    is_link (.dict (before ++ ("id".toList, id) :: rest)) =
      is_link (.dict (before ++ ("id".toList, id') :: rest)) := by
  rw [is_link_dict, is_link_dict, get?_middle_ne id id' (by decide)]

theorem isStr_related {R : Value → Value → Prop} {t : Text} {v w : Value}
    (h : relatedEntry R false v w) : isStr t v = isStr t w := by
  cases v with
  | dict kvs =>
    unfold relatedEntry at h
    split at h
    · obtain ⟨-, -, -, -, -, rfl, -⟩ := h
      rfl
    · obtain ⟨lws, rfl, -⟩ := h
      rfl
  | list vs =>
    unfold relatedEntry at h
    obtain ⟨ws, rfl, -⟩ := h
    rfl
  | none | bool | int | float | str =>
    unfold relatedEntry at h
    rw [if_neg Bool.false_ne_true] at h
    rw [h]

/-- A dict that is no link is none after its entries were replaced. -/
theorem is_link_related {R : Value → Value → Prop} {kvs lws : Dict} (h : relatedDict R kvs lws) :
    is_link (.dict kvs) = is_link (.dict lws) := by
  rw [is_link_dict, is_link_dict]
  have hall := relatedDict_iff.mp h
  clear h
  induction hall with
  | nil => rfl
  | @cons p q kvs lws hpq _ ih =>
    obtain ⟨hkey, hvalue⟩ := hpq
    rw [get?_cons, get?_cons, ← hkey]
    by_cases hk : "__bloxtype".toList = p.1
    · rw [if_pos hk, if_pos hk]
      rw [← hk] at hvalue
      exact isStr_related hvalue
    · rw [if_neg hk, if_neg hk, ih]

theorem related_marked {R : Value → Value → Prop} {v w : Value} (hv : ∀ kvs, v ≠ .dict kvs) :
    relatedEntry R true v w ↔ R v w := by
  unfold relatedEntry
  cases v with
  | dict kvs => exact absurd rfl (hv kvs)
  | none | bool | int | float | str | list => exact Iff.rfl

theorem dict_flip {R : Value → Value → Prop} {kvs lws : Dict}
    (hall : ∀ p ∈ kvs, ∀ {marked : Bool} {w : Value}, relatedEntry R marked p.2 w →
      relatedEntry (flip R) marked w p.2) (h : relatedDict R kvs lws) :
    relatedDict (flip R) lws kvs := by
  refine relatedDict_iff.mpr (List.Forall₂.flip ?_)
  refine forall₂_imp_left (relatedDict_iff.mp h) ?_
  rintro p hp q ⟨hkey, hpq⟩
  exact ⟨hkey.symm, hkey ▸ hall p hp hpq⟩

/-- The replacement of links goes both ways. -/
theorem related_flip {R : Value → Value → Prop} (hR : ∀ a b, R a b → ∀ kvs, b ≠ .dict kvs)
    (v : Value) : ∀ {marked : Bool} {w : Value}, relatedEntry R marked v w →
      relatedEntry (flip R) marked w v := by
  induction v using value_induction with
  | dict kvs ih =>
    intro marked w h
    unfold relatedEntry at h
    by_cases hlink : is_link (.dict kvs) = true
    · rw [if_pos hlink] at h
      obtain ⟨before, rest, id, id', rfl, rfl, hbefore, hrest, hid⟩ := h
      unfold relatedEntry
      rw [if_pos (is_link_middle id id' ▸ hlink)]
      exact ⟨before, rest, id', id, rfl, rfl, hbefore, hrest, hid⟩
    · rw [if_neg hlink] at h
      cases marked with
      | true => exact (related_marked (hR _ _ h)).mpr h
      | false =>
        obtain ⟨lws, rfl, h⟩ := h
        unfold relatedEntry
        rw [if_neg (is_link_related h ▸ hlink), if_neg Bool.false_ne_true]
        exact ⟨kvs, rfl, dict_flip ih h⟩
  | list vs ih =>
    intro marked w h
    unfold relatedEntry at h
    cases marked with
    | true => exact (related_marked (hR _ _ h)).mpr h
    | false =>
      obtain ⟨ws, rfl, h⟩ := h
      unfold relatedEntry
      rw [if_neg Bool.false_ne_true]
      refine ⟨vs, rfl, relatedList_iff.mpr (List.Forall₂.flip ?_)⟩
      exact forall₂_imp_left (relatedList_iff.mp h) fun v hv _ => ih v hv
  | none | bool | int | float | str =>
    intro marked w h
    unfold relatedEntry at h
    cases marked with
    | true => exact (related_marked (hR _ _ h)).mpr h
    | false =>
      rw [if_neg Bool.false_ne_true] at h
      subst h
      unfold relatedEntry
      rfl

/-! ## Names and numbers -/

/-- The store is a bijection from names to numbers that are not zero. -/
def OfNames (store : BlockStore) : Prop :=
  ∀ e ∈ store.entries, ∃ name nid, e = (some name, some nid) ∧ nid ≠ 0

/-- None, or the name of a block that is not made of digits only. -/
def IdOrName (store : BlockStore) (id : Value) : Prop :=
  id = .none ∨ ∃ name nid, id = .str name ∧ isdigit name = false ∧
    store.get? (some (String.ofList name)) = some nid

/-- The number of a link: that of its name, and zero for None. -/
def NidOf (store : BlockStore) (id nid : Value) : Prop :=
  (id = .none ∧ nid = .int 0) ∨ ∃ name n, id = .str name ∧ isdigit name = false ∧
    store.get? (some (String.ofList name)) = some (some n) ∧ n ≠ 0 ∧ nid = .int n

theorem nidOf_of_idOrName {store : BlockStore} (hstore : OfNames store) {id : Value}
    (h : IdOrName store id) : ∃ nid, NidOf store id nid := by
  rcases h with rfl | ⟨name, nid, rfl, hdigit, hget⟩
  · exact ⟨_, Or.inl ⟨rfl, rfl⟩⟩
  · obtain ⟨_, n, heq, hn⟩ := hstore _ (Bidict.get?_eq_some_iff.mp hget)
    cases heq
    exact ⟨_, Or.inr ⟨name, n, rfl, hdigit, hget, hn, rfl⟩⟩

theorem find_nid_of_nidOf {store : BlockStore} {id nid : Value} (h : NidOf store id nid) :
    _find_nid store id = .ok nid := by
  rcases h with ⟨rfl, rfl⟩ | ⟨name, n, rfl, hdigit, hget, -, rfl⟩
  · rfl
  · unfold _find_nid
    simp only [hdigit, Bool.false_eq_true, if_false, hget]
    rfl

/-- A number of the store stands for the name it has there. -/
theorem find_sid_named (repr : Value → Text) {store : BlockStore} {name : String} {n : Int}
    (hn : n ≠ 0) (hget : store.get? (some name) = some (some n)) :
    _find_sid repr store (.int n) = .ok (.str name.toList) := by
  have hzero : number? (.int n) ≠ some (.fin 0) := by simp [number?, hn]
  have hinverse : (wholeNumber? (.int n)).bind (fun nid => store.inverse? (some nid)) =
      some (some name) := by
    rw [← Bidict.inverse?_iff_get?] at hget
    simpa [wholeNumber?, number?] using hget
  unfold _find_sid
  simp only [if_neg hzero, hinverse]
  rfl

theorem find_sid_of_nidOf (repr : Value → Text) {store : BlockStore} {id nid : Value}
    (h : NidOf store id nid) : _find_sid repr store nid = .ok id := by
  rcases h with ⟨rfl, rfl⟩ | ⟨name, n, rfl, -, hget, hn, rfl⟩
  · simp [_find_sid, number?]
  · rw [find_sid_named repr hn hget, String.toList_ofList]

theorem nidOf_not_dict {store : BlockStore} (a b : Value) (h : NidOf store a b) (kvs : Dict) :
    b ≠ .dict kvs := by
  rcases h with ⟨-, rfl⟩ | ⟨_, _, -, -, -, -, rfl⟩ <;> exact Value.noConfusion

/-- The links of the data of a block are resolved to numbers, and back to the names. -/
theorem links_resolve_and_back (repr : Value → Text) {store : BlockStore} (hstore : OfNames store)
    {data : Dict} (h : linkedDict (IdOrName store) data) :
    ∃ resolved, resolve_data_ids (_find_nid store) data = .ok resolved ∧
      relatedDict (NidOf store) data resolved ∧
        resolve_data_ids (_find_sid repr store) resolved = .ok data := by
  obtain ⟨resolved, hresolved⟩ := dict_related
    (fun p _ => related_of_linked (fun _ => nidOf_of_idOrName hstore) p.2) h
  refine ⟨resolved, ?_, hresolved, ?_⟩
  · exact dict_resolves
      (fun p _ => related_resolves (fun _ _ h => find_nid_of_nidOf h) p.2) hresolved
  · have hback := dict_flip (fun p _ => related_flip nidOf_not_dict p.2) hresolved
    exact dict_resolves
      (fun p _ => related_resolves (fun _ _ h => find_sid_of_nidOf repr h) p.2) hback

def sampleStore : BlockStore := ((Bidict.empty.put (some "sensor") (some 101)).put (some "pwm")
  (some 102))

theorem sampleStore_names : OfNames sampleStore := by
  intro e he
  have hentries : sampleStore.entries = [(some "sensor", some 101), (some "pwm", some 102)] := by
    decide
  rw [hentries, List.mem_pair] at he
  rcases he with rfl | rfl
  · exact ⟨_, _, rfl, by decide⟩
  · exact ⟨_, _, rfl, by decide⟩

theorem links_resolve_and_back_sample :
    let data : Dict := [("setting".toList, .dict [("__bloxtype".toList, .str "Link".toList),
      ("id".toList, .str "sensor".toList)]), ("targets".toList, .list [.dict
        [("targetId<ActuatorInterface>".toList, .str "pwm".toList), ("free<>".toList, .none)]])]
    ∃ resolved, resolve_data_ids (_find_nid sampleStore) data = .ok resolved ∧
      relatedDict (NidOf sampleStore) data resolved ∧
        resolve_data_ids (_find_sid (fun _ => []) sampleStore) resolved = .ok data := by
  have hsensor : IdOrName sampleStore (.str "sensor".toList) :=
    Or.inr ⟨_, some 101, rfl, by decide, by decide⟩
  have hpwm : IdOrName sampleStore (.str "pwm".toList) :=
    Or.inr ⟨_, some 102, rfl, by decide, by decide⟩
  apply links_resolve_and_back _ sampleStore_names
  refine ⟨?_, ?_, trivial⟩
  · exact ⟨by decide, _, rfl, hsensor⟩
  · exact ⟨⟨hpwm, Or.inl rfl, trivial⟩, trivial⟩

/-- `v[k₁]…[kₙ]` -/
def valueAt : List Text → Value → Option Value
  | [], v => some v
  | k :: ks, .dict kvs => (get? kvs k).bind (valueAt ks)
  | _ :: _, _ => none

/-- A link that stands in a link object is not replaced. -/
theorem link_in_link_stays : ¬ ∃ resolved,
    resolve_data_ids (_find_nid sampleStore) [("setting".toList,
      .dict [("__bloxtype".toList, .str "Link".toList), ("id".toList, .str "sensor".toList),
        ("fallback<>".toList, .str "pwm".toList)])] = .ok resolved ∧
      valueAt ["setting".toList, "fallback<>".toList] (.dict resolved) = some (.int 102) := by
  rintro ⟨resolved, h, hat⟩
  cases h
  cases hat

/-! ## One block for a name and a number -/

/-- The name that a number stands for, or its placeholder, stands for the number. -/
def NumberReaches (repr : Value → Text) (store : BlockStore) (nid : Int) : Prop :=
  ∃ sid, _find_sid repr store (.int nid) = .ok sid ∧ _find_nid store sid = .ok (.int nid)

/-- A link to a block and a command to it reach the same number. -/
structure NameReaches (store : BlockStore) (name : String) (nid : Int) : Prop where
  link : _find_nid store (.str name.toList) = .ok (.int nid)
  command : ∀ w : World, w.block_store = store →
    (_to_firmware_block_identity { id := some name }).run.run w =
      (.ok { id := some name, nid }, w)

/-- A name that is made of digits only is the number of its block. -/
def ReadsAs (name : String) (nid : Int) : Prop :=
  isdigit name.toList = true → (py_number.int name.toList).map Int.ofNat = some nid

section
variable {store : BlockStore} {name : String} {nid : Int}

theorem command_reaches (hget : store.get? (some name) = some (some nid)) (w : World)
    (hw : w.block_store = store) :
    (_to_firmware_block_identity { id := some name }).run.run w =
      (.ok { id := some name, nid }, w) := by
  subst hw
  have hread : (get : Api World).run.run w =
      (pure (.ok w, w) : Id (Except Exn World × World)) := rfl
  unfold _to_firmware_block_identity
  rw [ExceptT.run_bind, StateT.run_bind, hread, pure_bind]
  simp only [hget]
  rfl

theorem link_reaches_iff (hget : store.get? (some name) = some (some nid)) :
    _find_nid store (.str name.toList) = .ok (.int nid) ↔ ReadsAs name nid := by
  unfold _find_nid ReadsAs
  by_cases hdigit : isdigit name.toList = true
  · simp only [hdigit, if_true, forall_const]
    cases py_number.int name.toList with
    | none => simp
    | some n => simp
  · simp only [hdigit, Bool.false_eq_true, if_false, String.ofList_toList, hget]
    simp [nidValue]

/-- A number that has no name is read back from its placeholder, unless it has more digits than
Python reads. -/
theorem placeholder_reaches_iff (repr : Value → Text) (hpos : 0 < nid)
    (hnone : store.inverse? (some nid) = none) :
    NumberReaches repr store nid ↔ (intText nid).length ≤ 4300 := by
  obtain ⟨n, rfl⟩ := Int.eq_ofNat_of_zero_le hpos.le
  have htext := intText_natCast n
  have hzero : number? (.int n) ≠ some (.fin 0) := by
    simpa [number?] using (by omega : n ≠ 0)
  have hinverse : (wholeNumber? (.int n)).bind (fun nid => store.inverse? (some nid)) = none := by
    simpa [wholeNumber?, number?] using hnone
  have hsid : _find_sid repr store (.int n) = .ok (.str (natText n)) := by
    unfold _find_sid
    simp only [if_neg hzero, hinverse]
    rw [← htext]
    rfl
  have hnid : _find_nid store (.str (natText n)) = .ok (.int n) ↔ (natText n).length ≤ 4300 := by
    unfold _find_nid
    simp only [natText_isdigit, if_true, int_natText]
    by_cases hlength : (natText n).length > 4300
    · simpa [if_pos hlength] using hlength
    · simp [if_neg hlength, Nat.not_lt.mp hlength]
  rw [htext, ← hnid]
  constructor
  · rintro ⟨sid, hsid', hback⟩
    rw [hsid] at hsid'
    cases hsid'
    exact hback
  · intro h
    exact ⟨_, hsid, h⟩

end

/-- Names and numbers mean the same block exactly where a name of digits is its number. -/
theorem names_and_numbers_iff (repr : Value → Text) {store : BlockStore} (hstore : OfNames store)
    (nid : Int) :
    ((0 < nid → NumberReaches repr store nid) ∧
      ∀ name, store.get? (some name) = some (some nid) → NameReaches store name nid) ↔
    (∀ name, store.get? (some name) = some (some nid) → ReadsAs name nid) ∧
      (0 < nid → store.inverse? (some nid) = none → (intText nid).length ≤ 4300) := by
  constructor
  · rintro ⟨hnumber, hname⟩
    refine ⟨fun name hget => (link_reaches_iff hget).mp (hname name hget).link, ?_⟩
    intro hpos hnone
    exact (placeholder_reaches_iff repr hpos hnone).mp (hnumber hpos)
  · rintro ⟨hreads, hdigits⟩
    refine ⟨fun hpos => ?_, fun name hget => ?_⟩
    · cases hinverse : store.inverse? (some nid) with
      | none => exact (placeholder_reaches_iff repr hpos hinverse).mpr (hdigits hpos hinverse)
      | some key =>
        have hget := Bidict.inverse?_iff_get?.mp hinverse
        obtain ⟨name, n, heq, -⟩ := hstore _ (Bidict.get?_eq_some_iff.mp hget)
        cases heq
        exact ⟨_, find_sid_named repr hpos.ne' hget, (link_reaches_iff hget).mpr (hreads name hget)⟩
    · exact ⟨(link_reaches_iff hget).mpr (hreads name hget), command_reaches hget⟩

theorem names_and_numbers_sample :
    ((0 < (101 : Int) → NumberReaches (fun _ => []) sampleStore 101) ∧
      ∀ name, sampleStore.get? (some name) = some (some 101) → NameReaches sampleStore name 101) ↔
    (∀ name, sampleStore.get? (some name) = some (some 101) → ReadsAs name 101) ∧
      (0 < (101 : Int) → sampleStore.inverse? (some 101) = none → (intText 101).length ≤ 4300) :=
  names_and_numbers_iff _ sampleStore_names 101

/-- A link to the block that is named `5` goes to block 5. -/
theorem digits_reach_another_block : ¬ (
    NumberReaches (fun _ => []) (Bidict.empty.put (some "5") (some 100)) 100 ∧
      NameReaches (Bidict.empty.put (some "5") (some 100)) "5" 100) := by
  intro h
  replace h := h.2
  have hlink := h.link
  cases hlink

end devcon_spark.spark_api
