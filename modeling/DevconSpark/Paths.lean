-- Where fields stand in content: paths through submessages, and what holds
-- of each message in content, at any depth.
import DevconSpark.Content
import Mathlib.Data.List.TakeWhile

open py_text py_dict py_number py_value devcon_spark.exceptions
open devcon_spark.codec.descriptor devcon_spark.codec.processor

namespace devcon_spark.codec.content

/-! ## The field of a key -/

section
variable (pool : Pool)

/-- The field that a key resolves to. -/
def fieldAt (message key : Text) : Option FieldDescriptor :=
  fields_by_name (pool.messages message) (baseOf key)

theorem plain_of_splitKey {key base_key postfixed : Text}
    (h : splitKey key = .ok (base_key, postfixed)) : Plain base_key := by
  unfold splitKey at h
  simp only at h
  split at h
  · cases h
  · rename_i hne
    cases h
    refine ⟨hne, fun c hc => ?_⟩
    exact of_decide_eq_true (List.mem_takeWhile_imp (p := (· ∉ symbols)) hc)

/-- The base of a key is its own base. -/
theorem baseOf_splitKey {key base_key postfixed : Text}
    (h : splitKey key = .ok (base_key, postfixed)) : baseOf base_key = base_key :=
  (splitKey_base (splitKey_name (plain_of_splitKey h))).symm

variable {pool}

/-- What the visit of an entry that returned has done. -/
theorem visitEntry_inv {visit : Visit} {message : Text} {parent : Address} {p : Text × Value}
    {out : Option (Text × Value)} (h : visitEntry pool visit (some message) parent p = .ok out) :
    ∃ postfixed field walked, splitKey p.1 = .ok (baseOf p.1, postfixed) ∧
      fieldAt pool message p.1 = some field ∧
        walkValue pool visit field (parent ++ [some field.number]) p.2 = .ok walked ∧
          visit { field, key := p.1, base_key := baseOf p.1, postfixed
                  address := elementAddress field (parent ++ [some field.number]) p.2 } walked =
            .ok out := by
  unfold visitEntry at h
  rcases hsplit : splitKey p.1 with e | ⟨base_key, postfixed⟩
  · rw [hsplit] at h
    cases h
  obtain rfl := splitKey_base hsplit
  rcases hfield : fields_by_name (pool.messages message) (baseOf p.1) with _ | field
  · simp [hsplit, fieldOf, hfield, bind, Except.bind] at h
  rcases hwalked : walkValue pool visit field (parent ++ [some field.number]) p.2 with e | walked
  · simp [hsplit, fieldOf, hfield, hwalked, bind, Except.bind] at h
  refine ⟨postfixed, field, walked, rfl, hfield, hwalked, ?_⟩
  simpa [hsplit, fieldOf, hfield, hwalked, bind, Except.bind] using h

/-- What a walk that returned has done: it visited each entry, and left what the visits gave. -/
theorem walkItems_inv {visit : Visit} {message : Text} {parent : Address} {items obj : Dict}
    (hbases : (items.map fun p => baseOf p.1).Nodup)
    (hkeep : ∀ p ∈ items, ∀ q, visitEntry pool visit (some message) parent p = .ok (some q) →
      baseOf q.1 = baseOf p.1)
    (h : walkItems pool visit (some message) parent items items [] = .ok obj) :
    (∀ p ∈ items, ∃ out, visitEntry pool visit (some message) parent p = .ok out) ∧
      ∀ q, q ∈ obj ↔ ∃ p ∈ items, visitEntry pool visit (some message) parent p = .ok (some q) := by
  rw [walkItems_eq pool visit (some message) parent hbases hkeep] at h
  obtain ⟨outs, houts, rfl⟩ := map_eq_ok.mp h
  have hall := forall₂_of_mapM houts
  have hout : ∀ p o, (visitEntry pool visit (some message) parent p).map (fun out => (p.1, out)) =
      .ok o → visitEntry pool visit (some message) parent p = .ok o.2 ∧ o.1 = p.1 := by
    intro p o ho
    obtain ⟨out, hvisit, rfl⟩ := map_eq_ok.mp ho
    exact ⟨hvisit, rfl⟩
  refine ⟨fun p hp => ?_, fun q => ⟨fun hq => ?_, ?_⟩⟩
  · obtain ⟨o, -, ho⟩ := forall₂_left hall hp
    exact ⟨o.2, (hout p o ho).1⟩
  · obtain ⟨k, hk⟩ := mem_arrange.mp hq
    obtain ⟨p, hp, ho⟩ := forall₂_right hall hk
    exact ⟨p, hp, (hout p _ ho).1⟩
  · rintro ⟨p, hp, hvisit⟩
    obtain ⟨⟨k, out⟩, ho, hpo⟩ := forall₂_left hall hp
    obtain ⟨hvisit', -⟩ := hout p _ hpo
    cases hvisit.symm.trans hvisit'
    exact mem_arrange.mpr ⟨k, ho⟩

/-- A walk returns where each visit does. -/
theorem walkItems_ok {visit : Visit} {message : Text} {parent : Address} {items : Dict}
    (hbases : (items.map fun p => baseOf p.1).Nodup)
    (hkeep : ∀ p ∈ items, ∀ q, visitEntry pool visit (some message) parent p = .ok (some q) →
      baseOf q.1 = baseOf p.1)
    (h : ∀ p ∈ items, ∃ out, visitEntry pool visit (some message) parent p = .ok out) :
    ∃ obj, walkItems pool visit (some message) parent items items [] = .ok obj := by
  obtain ⟨obj, hobj, -⟩ := walkItems_entries pool visit (some message) parent
    (R := fun _ _ => True) hbases (by
      intro p hp
      obtain ⟨out, hout⟩ := h p hp
      refine ⟨out, hout, ?_, trivial⟩
      rintro q rfl
      exact hkeep p hp q hout)
  exact ⟨obj, hobj⟩

/-- What a walk leaves has one entry for each field. -/
theorem walkItems_bases {visit : Visit} {message : Text} {parent : Address} {items obj : Dict}
    (hbases : (items.map fun p => baseOf p.1).Nodup)
    (hkeep : ∀ p ∈ items, ∀ q, visitEntry pool visit (some message) parent p = .ok (some q) →
      baseOf q.1 = baseOf p.1)
    (h : walkItems pool visit (some message) parent items items [] = .ok obj) :
    (obj.map fun q => baseOf q.1).Nodup := by
  obtain ⟨hvisits, -⟩ := walkItems_inv hbases hkeep h
  obtain ⟨obj', hobj', hnodup, -⟩ := walkItems_entries pool visit (some message) parent
    (R := fun _ _ => True) hbases (by
      intro p hp
      obtain ⟨out, hout⟩ := hvisits p hp
      refine ⟨out, hout, ?_, trivial⟩
      rintro q rfl
      exact hkeep p hp q hout)
  cases h.symm.trans hobj'
  exact hnodup

/-- A walk that gives no new keys returns exactly where each visit does, and leaves at each key
what the visit gave. -/
theorem walkItems_returns {visit : Visit} {message : Text} {parent : Address} {items : Dict}
    {P : Text × Value → Prop} {U : Text × Value → Option (Text × Value) → Prop}
    (hbases : (items.map fun p => baseOf p.1).Nodup)
    (h : ∀ p ∈ items, Returns (visitEntry pool visit (some message) parent p) (P p) fun out =>
      (∀ q, out = some q → q.1 = p.1) ∧ U p out) :
    Returns (walkItems pool visit (some message) parent items items []) (∀ p ∈ items, P p)
      fun obj => ∀ p ∈ items, ∃ out, U p out ∧ get? obj p.1 = out.map Prod.snd := by
  have hkey : ∀ p ∈ items, ∀ q, visitEntry pool visit (some message) parent p = .ok (some q) →
      q.1 = p.1 := fun p hp q hq => ((h p hp).holds hq).2.1 q rfl
  have hkeep : ∀ p ∈ items, ∀ q, visitEntry pool visit (some message) parent p = .ok (some q) →
      baseOf q.1 = baseOf p.1 := fun p hp q hq => congrArg baseOf (hkey p hp q hq)
  refine ⟨fun hP => ?_, fun hP => ?_⟩
  · have hvisits : ∀ p ∈ items, ∃ out, visitEntry pool visit (some message) parent p = .ok out := by
      intro p hp
      obtain ⟨out, hout, -⟩ := (h p hp).result (hP p hp)
      exact ⟨out, hout⟩
    obtain ⟨obj, hobj⟩ := walkItems_ok hbases hkeep hvisits
    have hnodup : (obj.map (·.1)).Nodup :=
      List.Nodup.of_map baseOf (by rw [List.map_map]; exact walkItems_bases hbases hkeep hobj)
    obtain ⟨-, hentries⟩ := walkItems_inv hbases hkeep hobj
    refine ⟨obj, hobj, fun p hp => ?_⟩
    obtain ⟨out, hout⟩ := hvisits p hp
    refine ⟨out, ((h p hp).holds hout).2.2, ?_⟩
    cases out with
    | some q =>
      have hmem := (hentries q).mpr ⟨p, hp, hout⟩
      rw [← hkey p hp q hout]
      exact get?_of_mem hnodup hmem
    | none =>
      refine get?_of_not_mem fun hmem => ?_
      obtain ⟨q, hq, hqp⟩ := List.mem_map.mp hmem
      obtain ⟨p', hp', hvisit⟩ := (hentries q).mp hq
      have hsame : baseOf p'.1 = baseOf p.1 := by rw [← hkey p' hp' q hvisit, hqp]
      cases List.inj_on_of_nodup_map hbases hp' hp hsame
      cases hout.symm.trans hvisit
  · obtain ⟨p, hp, hnot⟩ : ∃ p ∈ items, ¬ P p := by simpa using hP
    obtain ⟨e, he⟩ := (h p hp).raises hnot
    exact walkItems_error pool visit (some message) parent hbases hkeep hp he

/-! ## Paths through submessages -/

variable (pool)

/-- Where a value stands in content: the submessages it is in, from the root on, and its own
field. What is in a repeated field stands nowhere. -/
inductive At : Text → Dict → List FieldDescriptor → FieldDescriptor → Value → Prop
  | here {message kvs k v field} (hmem : (k, v) ∈ kvs) (hfield : fieldAt pool message k = some field) :
    At message kvs [] field v
  | inner {message kvs k sub parent m parents field v} (hmem : (k, Value.dict sub) ∈ kvs)
    (hfield : fieldAt pool message k = some parent) (hmessage : parent.message_type = some m)
    (hsingle : parent.label_repeated = false) (hat : At m sub parents field v) :
    At message kvs (parent :: parents) field v

/-- A value that is no submessage with content. -/
def Leaf (field : FieldDescriptor) (v : Value) : Prop :=
  field.message_type = none ∨ field.label_repeated = true ∨ v = .none

def numbers (parents : List FieldDescriptor) (field : FieldDescriptor) : List Nat :=
  (parents ++ [field]).map FieldDescriptor.number

/-! ## Messages at any depth -/

/-- The messages that the value of a field holds. -/
inductive Holds : FieldDescriptor → Value → Text → Dict → Prop
  | single {field m kvs} (hmessage : field.message_type = some m)
    (hsingle : field.label_repeated = false) : Holds field (.dict kvs) m kvs
  | list {field m vs kvs} (hmessage : field.message_type = some m)
    (hrepeated : field.label_repeated = true) (hmem : Value.dict kvs ∈ vs) :
    Holds field (.list vs) m kvs
  | map {field entry m items k kvs} (hentry : field.message_type = some entry)
    (hrepeated : field.label_repeated = true) (hmessage : valueMessage pool entry = some m)
    (hmem : (k, Value.dict kvs) ∈ items) : Holds field (.dict items) m kvs

/-- The messages in content, at any depth, itself included. Only fields that `enters` allows
are looked into. -/
inductive Within (enters : FieldDescriptor → Bool) : Text → Dict → Text → Dict → Prop
  | self {message kvs} : Within enters message kvs message kvs
  | inner {message kvs k v field m sub m' kvs'} (hmem : (k, v) ∈ kvs)
    (hfield : fieldAt pool message k = some field) (henters : enters field = true)
    (hholds : Holds pool field v m sub) (hwithin : Within enters m sub m' kvs') :
    Within enters message kvs m' kvs'

/-- No two keys of one dict are of one field. -/
def Distinct (message : Text) (kvs : Dict) : Prop :=
  ∀ m sub, Within pool (fun _ => true) message kvs m sub → (sub.map fun p => baseOf p.1).Nodup

variable {pool}

theorem Distinct.bases {message : Text} {kvs : Dict} (h : Distinct pool message kvs) :
    (kvs.map fun p => baseOf p.1).Nodup := h message kvs .self

theorem Distinct.inner {message m k : Text} {kvs sub : Dict} {v : Value} {field : FieldDescriptor}
    (h : Distinct pool message kvs) (hmem : (k, v) ∈ kvs)
    (hfield : fieldAt pool message k = some field) (hholds : Holds pool field v m sub) :
    Distinct pool m sub := by
  intro m' sub' hwithin
  exact h m' sub' (.inner hmem hfield rfl hholds hwithin)

theorem Distinct.intro {message : Text} {kvs : Dict} (hbases : (kvs.map fun p => baseOf p.1).Nodup)
    (h : ∀ p ∈ kvs, ∀ field m sub, fieldAt pool message p.1 = some field →
      Holds pool field p.2 m sub → Distinct pool m sub) : Distinct pool message kvs := by
  intro m sub hwithin
  cases hwithin with
  | self => exact hbases
  | inner hmem hfield _ hholds hwithin => exact h _ hmem _ _ _ hfield hholds m sub hwithin

/-- A field has one entry. -/
theorem entry_unique {message k k' : Text} {kvs : Dict} {v v' : Value} {field : FieldDescriptor}
    (h : (kvs.map fun p => baseOf p.1).Nodup) (hmem : (k, v) ∈ kvs) (hmem' : (k', v') ∈ kvs)
    (hfield : fieldAt pool message k = some field) (hfield' : fieldAt pool message k' = some field) :
    k = k' ∧ v = v' := by
  have hbase : baseOf k = baseOf k' :=
    (fields_by_name_name hfield).symm.trans (fields_by_name_name hfield')
  have heq := List.inj_on_of_nodup_map h hmem hmem' hbase
  exact ⟨congrArg Prod.fst heq, congrArg Prod.snd heq⟩

/-- No two fields of a message have one number. -/
def Numbered (pool : Pool) : Prop :=
  ∀ message, ((pool.messages message).map FieldDescriptor.number).Nodup

theorem Numbered.unique (hpool : Numbered pool) {message k k' : Text}
    {field field' : FieldDescriptor} (hfield : fieldAt pool message k = some field)
    (hfield' : fieldAt pool message k' = some field') (h : field.number = field'.number) :
    field = field' :=
  List.inj_on_of_nodup_map (hpool message) (fields_by_name_mem hfield)
    (fields_by_name_mem hfield') h

/-- What stands at one address is one value. -/
theorem at_unique (hpool : Numbered pool) {message : Text} {kvs : Dict}
    {parents parents' : List FieldDescriptor} {field field' : FieldDescriptor} {v v' : Value}
    (hat : At pool message kvs parents field v) (hat' : At pool message kvs parents' field' v')
    (hdistinct : Distinct pool message kvs)
    (h : numbers parents field = numbers parents' field') : field = field' ∧ v = v' := by
  induction hat generalizing parents' with
  | here hmem hfield =>
    cases hat' with
    | here hmem' hfield' =>
      obtain rfl := hpool.unique hfield hfield' (List.cons.inj h).1
      exact ⟨rfl, (entry_unique hdistinct.bases hmem hmem' hfield hfield').2⟩
    | inner => simp [numbers] at h
  | inner hmem hfield hmessage hsingle _ ih =>
    cases hat' with
    | here => simp [numbers] at h
    | inner hmem' hfield' hmessage' _ hat' =>
      obtain rfl := hpool.unique hfield hfield' (List.cons.inj h).1
      cases (entry_unique hdistinct.bases hmem hmem' hfield hfield').2
      cases hmessage.symm.trans hmessage'
      exact ih hat' (hdistinct.inner hmem hfield (.single hmessage hsingle)) (List.cons.inj h).2

/-! ## What a walk leaves of the messages in a value -/

theorem walkChild_inv {visit : Visit} {message : Option Text} {address : Address} {v w : Value}
    (h : walkChild pool visit message address v = .ok w) : ∃ kvs obj, v = .dict kvs ∧
      w = .dict obj ∧ walkItems pool visit message address kvs kvs [] = .ok obj := by
  cases v with
  | dict kvs =>
    rw [walkChild] at h
    obtain ⟨obj, hobj, rfl⟩ := map_eq_ok.mp h
    exact ⟨kvs, obj, rfl, rfl, hobj⟩
  | none | bool | int | float | str | list =>
    rw [walkChild] at h
    cases h

section
variable {visit : Visit} {field : FieldDescriptor} {m : Text} {address : Address} {w : Value}
variable (hmessage : field.message_type = some m)

include hmessage

theorem walkSingle_inv (hsingle : field.label_repeated = false) {kvs : Dict}
    (h : walkValue pool visit field address (.dict kvs) = .ok w) :
    ∃ obj, w = .dict obj ∧ walkItems pool visit (some m) address kvs kvs [] = .ok obj := by
  rw [walkValue] at h
  simp only [hmessage, hsingle, Bool.false_eq_true, if_false] at h
  obtain ⟨obj, hobj, rfl⟩ := map_eq_ok.mp h
  exact ⟨obj, rfl, hobj⟩

theorem walkRepeated_inv (hrepeated : field.label_repeated = true) {vs : List Value}
    (h : walkValue pool visit field address (.list vs) = .ok w) : ∃ ws, w = .list ws ∧
      List.Forall₂ (fun v w => walkChild pool visit (some m) (address ++ [none]) v = .ok w)
        vs ws := by
  rw [walkValue] at h
  simp only [hmessage, hrepeated, if_true, walkList_eq] at h
  obtain ⟨ws, hws, rfl⟩ := map_eq_ok.mp h
  exact ⟨ws, rfl, forall₂_of_mapM hws⟩

theorem walkMap_inv (hrepeated : field.label_repeated = true) {kvs : Dict}
    (h : walkValue pool visit field address (.dict kvs) = .ok w) :
    ∃ message kws, valueType pool m = .ok message ∧ w = .dict kws ∧ List.Forall₂ (fun p q =>
      q.1 = p.1 ∧ walkChild pool visit message (address ++ [none]) p.2 = .ok q.2) kvs kws := by
  rw [walkValue] at h
  simp only [hmessage, hrepeated, if_true, walkMap_eq] at h
  rcases hvalue : valueType pool m with e | message
  · rw [hvalue] at h
    cases h
  rcases hws : kvs.mapM fun p =>
      (walkChild pool visit message (address ++ [none]) p.2).map fun v => (p.1, v) with e | kws
  · rw [hvalue, ok_bind, hws] at h
    cases h
  rw [hvalue, ok_bind, hws] at h
  cases h
  refine ⟨message, kws, rfl, rfl, (forall₂_of_mapM hws).imp fun p q hq => ?_⟩
  obtain ⟨v, hv, rfl⟩ := map_eq_ok.mp hq
  exact ⟨rfl, hv⟩

end

/-- A message in a value that was walked is what the walk left of one that was there. -/
theorem walkValue_holds {visit : Visit} {field : FieldDescriptor} {address : Address} {v w : Value}
    {m : Text} {obj : Dict} (h : walkValue pool visit field address v = .ok w)
    (hholds : Holds pool field w m obj) : ∃ sub address, Holds pool field v m sub ∧
      walkItems pool visit (some m) address sub sub [] = .ok obj := by
  cases hholds with
  | single hmessage hsingle =>
    cases v with
    | dict kvs =>
      obtain ⟨obj', heq, hwalk⟩ := walkSingle_inv hmessage hsingle h
      cases heq
      exact ⟨kvs, address, .single hmessage hsingle, hwalk⟩
    | none | bool | int | float | str | list =>
      simp [walkValue, walkScalar, hmessage, hsingle] at h
  | list hmessage hrepeated hmem =>
    cases v with
    | list vs =>
      obtain ⟨ws, heq, hws⟩ := walkRepeated_inv hmessage hrepeated h
      cases heq
      obtain ⟨v, hv, hchild⟩ := forall₂_right hws hmem
      obtain ⟨sub, obj', rfl, heq, hwalk⟩ := walkChild_inv hchild
      cases heq
      exact ⟨sub, _, .list hmessage hrepeated hv, hwalk⟩
    | dict kvs =>
      obtain ⟨message, kws, -, heq, -⟩ := walkMap_inv hmessage hrepeated h
      cases heq
    | str t =>
      rw [walkValue] at h
      split at h <;> cases h
    | none | bool | int | float =>
      simp [walkValue, walkScalar, hmessage, hrepeated] at h
  | map hentry hrepeated hmessage hmem =>
    cases v with
    | dict kvs =>
      obtain ⟨message, kws, hvalue, heq, hkws⟩ := walkMap_inv hentry hrepeated h
      cases heq
      cases hvalue.symm.trans (valueType_of_valueMessage pool hmessage)
      obtain ⟨⟨k, v⟩, hp, -, hchild⟩ := forall₂_right hkws hmem
      obtain ⟨sub, obj', rfl, heq, hwalk⟩ := walkChild_inv hchild
      cases heq
      exact ⟨sub, _, .map hentry hrepeated hmessage hp, hwalk⟩
    | list vs =>
      obtain ⟨ws, heq, -⟩ := walkRepeated_inv hentry hrepeated h
      cases heq
    | str t =>
      rw [walkValue] at h
      split at h <;> cases h
    | none | bool | int | float =>
      simp [walkValue, walkScalar, hentry, hrepeated] at h

/-! ## The address of an element -/

theorem elementAddress_leaf {field : FieldDescriptor} {v : Value} (h : Leaf field v)
    (address : Address) : elementAddress field address v = address := by
  unfold elementAddress
  rcases h with h | h | rfl
  · rw [h]
  · rw [h]
    split <;> simp_all
  · split <;> simp_all

theorem elementAddress_message {field : FieldDescriptor} {v : Value} (h : ¬ Leaf field v)
    (address : Address) : none ∈ elementAddress field address v := by
  unfold Leaf at h
  rw [not_or, not_or] at h
  obtain ⟨m, hm⟩ := Option.ne_none_iff_exists'.mp h.1
  have hsingle : field.label_repeated = false := by simpa using h.2.1
  unfold elementAddress
  rw [hm, hsingle]
  cases v with
  | none => exact absurd rfl h.2.2
  | bool | int | float | str | list | dict => simp

theorem elementAddress_goes_on (field : FieldDescriptor) (address : Address) (v : Value) :
    address <+: elementAddress field address v := by
  unfold elementAddress
  split
  · exact List.prefix_refl address
  · exact List.prefix_append address [none]
  · exact List.prefix_refl address

/-! ## Walks that visit alike -/

section
variable {visit visit' : Visit} {above : Address}

/-- What two visitors make of a value where both come to the same below an address. -/
def Agree (pool : Pool) (visit visit' : Visit) (above : Address) (v : Value) : Prop :=
  ∀ address, above <+: address →
    (∀ message, walkChild pool visit message address v = walkChild pool visit' message address v) ∧
      ∀ field, walkValue pool visit field address v = walkValue pool visit' field address v

variable (hvisit : ∀ element x, above <+: element.address → visit element x = visit' element x)

include hvisit

theorem items_agree {items : Dict} (hitems : ∀ p ∈ items, Agree pool visit visit' above p.2)
    (message : Option Text) {parent : Address} (hparent : above <+: parent) (obj : Dict)
    (written : List Text) :
    walkItems pool visit message parent items obj written =
      walkItems pool visit' message parent items obj written := by
  induction items generalizing obj written with
  | nil => rw [walkItems, walkItems]
  | cons p items ih =>
    obtain ⟨key, value⟩ := p
    have ih := ih fun q hq => hitems q (List.mem_cons_of_mem _ hq)
    rw [walkItems, walkItems]
    simp only [bind, Except.bind]
    rcases splitKey key with e | ⟨base_key, postfixed⟩
    · rfl
    dsimp only
    rcases fieldOf pool message base_key with e | field
    · rfl
    have haddress : above <+: parent ++ [some field.number] :=
      hparent.trans (List.prefix_append parent _)
    simp only [(hitems _ List.mem_cons_self _ haddress).2 field]
    rcases walkValue pool visit' field (parent ++ [some field.number]) value with e | walked
    · rfl
    dsimp only
    rcases getItem (if written.contains key = true then obj else setItem obj key walked) key with
      e | x
    · rfl
    let element : OptionElement :=
      { field, key, base_key, postfixed
        address := elementAddress field (parent ++ [some field.number]) value }
    have helement : visit element x = visit' element x :=
      hvisit element x (haddress.trans (elementAddress_goes_on field _ value))
    simp only [element] at helement
    simp only [helement, ih]

omit hvisit in
theorem children_agree {address : Address} (haddress : above <+: address) (message : Option Text) :
    (∀ vs : List Value, (∀ v ∈ vs, Agree pool visit visit' above v) →
      walkList pool visit message address vs = walkList pool visit' message address vs) ∧
    ∀ kvs : Dict, (∀ p ∈ kvs, Agree pool visit visit' above p.2) →
      walkMap pool visit message address kvs = walkMap pool visit' message address kvs := by
  constructor
  · intro vs hvs
    rw [walkList_eq, walkList_eq]
    exact mapM_congr fun v hv => (hvs v hv address haddress).1 message
  · intro kvs hkvs
    rw [walkMap_eq, walkMap_eq]
    exact mapM_congr fun p hp => by rw [(hkvs p hp address haddress).1 message]

/-- Two visitors that come to the same below an address walk alike there. -/
theorem walks_agree (v : Value) : Agree pool visit visit' above v := by
  induction v using value_induction with
  | none | bool | int | float | str =>
    intro address _
    exact ⟨fun message => by rw [walkChild, walkChild], fun field => by rw [walkValue, walkValue]⟩
  | list vs ih =>
    intro address haddress
    have hinner : above <+: address ++ [none] := haddress.trans (List.prefix_append address _)
    refine ⟨fun message => by rw [walkChild, walkChild], fun field => ?_⟩
    rw [walkValue, walkValue]
    simp only [fun message => (children_agree hinner message).1 vs ih]
  | dict kvs ih =>
    intro address haddress
    have hinner : above <+: address ++ [none] := haddress.trans (List.prefix_append address _)
    refine ⟨fun message => ?_, fun field => ?_⟩
    · rw [walkChild, walkChild, items_agree hvisit ih message haddress]
    · rw [walkValue, walkValue]
      simp only [fun message => (children_agree hinner message).2 kvs ih,
        fun message => items_agree hvisit ih message haddress]

/-- The visits of an entry come to the same. -/
theorem visitEntry_agree {message : Option Text} {parent : Address} {p : Text × Value}
    (h : ∀ field, fieldOf pool message (baseOf p.1) = .ok field →
      above <+: parent ++ [some field.number]) :
    visitEntry pool visit message parent p = visitEntry pool visit' message parent p := by
  unfold visitEntry
  rcases hsplit : splitKey p.1 with e | ⟨base_key, postfixed⟩
  · rfl
  obtain rfl := splitKey_base hsplit
  rcases hfield : fieldOf pool message (baseOf p.1) with e | field
  · simp only [bind, Except.bind, hfield]
  have haddress := h field hfield
  simp only [bind, Except.bind, hfield, (walks_agree hvisit p.2 _ haddress).2 field]
  rcases walkValue pool visit' field (parent ++ [some field.number]) p.2 with e | walked
  · rfl
  exact hvisit _ walked (haddress.trans (elementAddress_goes_on field _ p.2))

end

end

end devcon_spark.codec.content
