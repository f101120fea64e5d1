-- Links are written in two notations: a key with a postfix and a plain value, or
-- typed objects. When both lead to the same encoded content.
import DevconSpark.ReturnValues

open bidict py_text py_dict py_number py_value devcon_spark.exceptions devcon_spark.models
open devcon_spark.codec.descriptor devcon_spark.codec.bloxfield
open devcon_spark.codec.unit_conversion devcon_spark.codec.processor devcon_spark.spark_api

namespace devcon_spark.codec.content

/-! ## Content that is the same -/

/-- Dicts are equal in any order of their entries. -/
inductive SameContent : Value → Value → Prop
  | refl (v) : SameContent v v
  | trans {u v w} (h : SameContent u v) (h' : SameContent v w) : SameContent u w
  | order {kvs lws} (h : kvs.Perm lws) : SameContent (.dict kvs) (.dict lws)
  | entry {k v w} (before after) (h : SameContent v w) :
    SameContent (.dict (before ++ (k, v) :: after)) (.dict (before ++ (k, w) :: after))
  | item {v w} (before after) (h : SameContent v w) :
    SameContent (.list (before ++ v :: after)) (.list (before ++ w :: after))

/-! ## The two passes -/

/-- What content is encoded with. -/
structure Encoder where
  env : Packages
  cv : UnitConverter
  pool : Pool
  filter_values : Bool
  block_store : BlockStore

namespace Encoder
variable (e : Encoder)

def visit : Visit := encodeElement e.env e.cv e.filter_values

/-- The ids are resolved, then the content is encoded. -/
def encode (desc : Text) (payload : DecodedPayload) (data : Dict) : Except Exn Dict := do
  let resolved ← resolve_data_ids (_find_nid e.block_store) data
  let encoded ← pre_encode e.env e.cv e.pool desc { payload with content := some resolved }
    e.filter_values
  contentOf encoded

/-- Both passes over a dict that is the content of a message. -/
def run (message : Text) (parent : Address) (kvs : Dict) : Except Exn Dict := do
  let resolved ← resolve_data_ids (_find_nid e.block_store) kvs
  walkItems e.pool e.visit (some message) parent resolved resolved []

/-- Both passes over one entry. -/
def runEntry (message : Text) (parent : Address) (p : Text × Value) :
    Except Exn (Option (Text × Value)) := do
  let v ← resolveEntry (_find_nid e.block_store) (isMarked p.1) p.2
  visitEntry e.pool e.visit (some message) parent (p.1, v)

theorem encode_eq (desc : Text) (payload : DecodedPayload) (data : Dict) :
    e.encode desc payload data = e.run desc [] data := by
  unfold encode run pre_encode contentOf visit
  cases resolve_data_ids (_find_nid e.block_store) data with
  | error ex => rfl
  | ok resolved =>
    simp only [ok_bind]
    cases walkItems e.pool (encodeElement e.env e.cv e.filter_values) (some desc) [] resolved
      resolved [] <;> rfl

end Encoder

section
variable {e : Encoder} {message : Text} {parent : Address}

theorem resolved_keys {replacer : Value → Except Exn Value} {kvs lws : Dict}
    (h : resolveDict replacer kvs = .ok lws) : lws.map (·.1) = kvs.map (·.1) :=
  (map_eq_of_forall₂ ((resolveDict_entries h).imp fun _ _ hpq => hpq.1.symm)).symm

theorem bases_of_keys {kvs lws : Dict} (h : lws.map (·.1) = kvs.map (·.1)) :
    (lws.map fun p => baseOf p.1) = kvs.map fun p => baseOf p.1 := by
  have hmap := congrArg (List.map baseOf) h
  rwa [List.map_map, List.map_map] at hmap

theorem runEntry_eq_ok {p : Text × Value} {out : Option (Text × Value)} :
    e.runEntry message parent p = .ok out ↔
      ∃ v, resolveEntry (_find_nid e.block_store) (isMarked p.1) p.2 = .ok v ∧
        visitEntry e.pool e.visit (some message) parent (p.1, v) = .ok out := bind_eq_ok

theorem resolve_of_entries {kvs : Dict} {outs : List (Option (Text × Value))}
    (h : List.Forall₂ (fun p out => e.runEntry message parent p = .ok out) kvs outs) :
    ∃ resolved, resolve_data_ids (_find_nid e.block_store) kvs = .ok resolved ∧
      List.Forall₂ (fun q out => visitEntry e.pool e.visit (some message) parent q = .ok out)
        resolved outs := by
  unfold resolve_data_ids
  rw [resolveDict_eq]
  induction h with
  | nil => exact ⟨[], rfl, .nil⟩
  | @cons p out kvs outs hp _ ih =>
    obtain ⟨v, hv, hout⟩ := runEntry_eq_ok.mp hp
    obtain ⟨resolved, hmap, hall⟩ := ih
    refine ⟨(p.1, v) :: resolved, ?_, .cons hout hall⟩
    rw [List.mapM_cons, hv, hmap]
    rfl

theorem visits_of_entries {resolved : Dict} {outs : List (Option (Text × Value))}
    (h : List.Forall₂ (fun q out => visitEntry e.pool e.visit (some message) parent q = .ok out)
      resolved outs) :
    ∃ visits, visitAll e.pool e.visit (some message) parent resolved = .ok visits ∧
      visits.map Prod.snd = outs := by
  unfold visitAll
  induction h with
  | nil => exact ⟨[], rfl, rfl⟩
  | @cons q out _ _ hq _ ih =>
    obtain ⟨visits, hvisits, hsnd⟩ := ih
    refine ⟨(q.1, out) :: visits, ?_, by rw [List.map_cons, hsnd]⟩
    rw [List.mapM_cons, hq, hvisits]
    rfl

/-- Where each entry goes through, the dict does. -/
theorem run_of_entries {kvs : Dict} {outs : List (Option (Text × Value))}
    (hbases : (kvs.map fun p => baseOf p.1).Nodup)
    (h : List.Forall₂ (fun p out => e.runEntry message parent p = .ok out) kvs outs) :
    ∃ obj, e.run message parent kvs = .ok obj ∧ obj.Perm (outs.filterMap id) := by
  obtain ⟨resolved, hresolve, hall⟩ := resolve_of_entries h
  obtain ⟨visits, hvisits, hsnd⟩ := visits_of_entries hall
  rw [← bases_of_keys (resolved_keys hresolve)] at hbases
  have hwalk := walkItems_eq e.pool e.visit (some message) parent hbases
    fun _ _ _ hq => encodeEntry_base hq
  refine ⟨arrange visits, ?_, ?_⟩
  · unfold Encoder.run
    rw [hresolve, ok_bind, hwalk, hvisits]
    rfl
  · rw [← hsnd, List.filterMap_map]
    exact arrange_perm visits

/-- Where a dict goes through, each entry does. -/
theorem entry_of_run {kvs obj : Dict} (hbases : (kvs.map fun p => baseOf p.1).Nodup)
    (h : e.run message parent kvs = .ok obj) {p : Text × Value} (hp : p ∈ kvs) :
    ∃ out, e.runEntry message parent p = .ok out := by
  obtain ⟨resolved, hresolve, hwalk⟩ := bind_eq_ok.mp h
  rw [← bases_of_keys (resolved_keys hresolve)] at hbases
  rw [walkItems_eq e.pool e.visit (some message) parent hbases
    fun _ _ _ hq => encodeEntry_base hq] at hwalk
  obtain ⟨visits, hvisits, -⟩ := map_eq_ok.mp hwalk
  obtain ⟨q, hq, hkey, hvalue⟩ := forall₂_left (resolveDict_entries hresolve) hp
  obtain ⟨_, -, hvisit⟩ := forall₂_left (forall₂_of_mapM hvisits) hq
  obtain ⟨out, hout, -⟩ := map_eq_ok.mp hvisit
  refine ⟨out, runEntry_eq_ok.mpr ⟨q.2, hvalue, ?_⟩⟩
  rw [← hkey]
  exact hout

/-- A dict goes through where each entry does. -/
theorem run_returns_iff {kvs : Dict} (hbases : (kvs.map fun p => baseOf p.1).Nodup) :
    (∃ obj, e.run message parent kvs = .ok obj) ↔
      ∀ p ∈ kvs, ∃ out, e.runEntry message parent p = .ok out := by
  constructor
  · rintro ⟨obj, hrun⟩ p hp
    exact entry_of_run hbases hrun hp
  · intro h
    obtain ⟨outs, houts⟩ := exists_forall₂ h
    obtain ⟨obj, hobj, -⟩ := run_of_entries hbases houts
    exact ⟨obj, hobj⟩

/-- One more entry changes nothing for the others. -/
theorem run_insert {before after : Dict}
    (h : ∀ p ∈ before ++ after, ∃ out, e.runEntry message parent p = .ok out) :
    ∃ others : Dict, ∀ p out, ((before ++ p :: after).map fun p => baseOf p.1).Nodup →
      e.runEntry message parent p = .ok out →
        ∃ obj, e.run message parent (before ++ p :: after) = .ok obj ∧
          obj.Perm (out.toList ++ others) := by
  obtain ⟨ls, hls⟩ := exists_forall₂ fun p hp => h p (List.mem_append_left after hp)
  obtain ⟨rs, hrs⟩ := exists_forall₂ fun p hp => h p (List.mem_append_right before hp)
  refine ⟨(ls ++ rs).filterMap id, fun p out hbases hp => ?_⟩
  obtain ⟨obj, hrun, hperm⟩ := run_of_entries hbases (List.rel_append hls (.cons hp hrs))
  refine ⟨obj, hrun, hperm.trans ((List.perm_middle.filterMap id).trans (.of_eq ?_))⟩
  cases out <;> rfl

end

/-! ## The value of a link field -/

/-- A typed object that links to `id`. -/
structure LinkTo (id : Value) (o : Dict) : Prop where
  link : is_link (.dict o) = true
  id : get? o "id".toList = some id

/-- A name in the store, and its number. -/
def Stored (block_store : BlockStore) (s : Text) : Prop :=
  ∃ n, block_store.get? (some (String.ofList s)) = some (some n)

/-- The plain value of a link field, and the same as typed objects. -/
inductive Notated (block_store : BlockStore) (repeated : Bool) : Value → Value → Prop
  | null {o} (ho : LinkTo .none o) : Notated block_store repeated .none (.dict o)
  | name {s o} (hs : Stored block_store s) (ho : LinkTo (.str s) o) :
    Notated block_store repeated (.str s) (.dict o)
  | names {ss os} (hrepeated : repeated = true)
    (h : List.Forall₂ (fun s o => Stored block_store s ∧ LinkTo (.str s) o) ss os) :
    Notated block_store repeated (.list (ss.map Value.str)) (.list (os.map Value.dict))

/-- A value that is no list, and no text of digits that cannot be read. -/
def readable : Value → Bool
  | .str s => ! isdigit s || (py_number.int s).isSome
  | .list _ => false
  | _ => true

theorem readable_name {s : Text} :
    readable (.str s) = true ↔ isdigit s = true → (py_number.int s).isSome = true := by
  change (! isdigit s || (py_number.int s).isSome) = true ↔ _
  cases isdigit s <;> simp

section
variable {block_store : BlockStore} {repeated : Bool} {plain typed : Value}

theorem nid_of_name {s : Text} (hs : Stored block_store s) (hread : readable (.str s) = true) :
    ∃ n, _find_nid block_store (.str s) = .ok (.int n) := by
  obtain ⟨n, hn⟩ := hs
  unfold _find_nid
  cases hdigit : isdigit s with
  | true =>
    obtain ⟨m, hm⟩ := Option.isSome_iff_exists.mp (readable_name.mp hread hdigit)
    exact ⟨m, by simp [hdigit, hm]⟩
  | false => exact ⟨n, by simp [hdigit, hn, nidValue]⟩

/-- The plain value and its typed object resolve to one number. -/
theorem notated_resolves (h : Notated block_store repeated plain typed)
    (hread : readable plain = true) :
    ∃ n o o', resolveEntry (_find_nid block_store) true plain = .ok (.int n) ∧ typed = .dict o ∧
      resolveEntry (_find_nid block_store) false typed = .ok (.dict o') ∧
        get? o' "id".toList = some (.int n) := by
  cases h with
  | null ho =>
    exact ⟨0, _, _, resolve_marked rfl, rfl, resolve_link ho.link ho.id rfl,
      get?_setItem_self _ _ _⟩
  | name hs ho =>
    obtain ⟨n, hn⟩ := nid_of_name hs hread
    exact ⟨n, _, _, (resolve_marked rfl).trans hn, rfl, resolve_link ho.link ho.id hn,
      get?_setItem_self _ _ _⟩
  | names => cases hread

theorem readable_of_resolved (h : Notated block_store repeated plain typed) {w : Value}
    (hw : resolveEntry (_find_nid block_store) true plain = .ok w) : readable plain = true := by
  cases h with
  | null => rfl
  | @name s o hs ho =>
    refine readable_name.mpr fun hdigit => ?_
    rw [resolve_marked rfl] at hw
    unfold _find_nid at hw
    cases hint : py_number.int s with
    | none => simp [hdigit, hint] at hw
    | some n => rfl
  | names =>
    -- a list is no id
    rw [resolve_marked rfl] at hw
    cases hw

end

/-! ## The entry of a link field -/

/-- A field of a message that holds one id, or a list of ids. -/
structure LinkField (pool : Pool) (message : Text) (field : FieldDescriptor) : Prop where
  found : fields_by_name (pool.messages message) field.name = some field
  named : Plain field.name
  scalar : field.message_type = none
  onlyLink : OnlyLink field.opts

/-- What a field is encoded to: nothing, where an option strips it. -/
def Encoder.kept (e : Encoder) (field : FieldDescriptor) (v : Value) : Option (Text × Value) :=
  if stripped e.filter_values field.opts then none else some (field.name, v)

/-- A link field is encoded to the number that its value links to. -/
theorem link_entry {e : Encoder} {message : Text} {field : FieldDescriptor}
    (hfield : LinkField e.pool message field) (parent : Address) {key postfixed : Text}
    (hsplit : splitKey key = .ok (field.name, postfixed)) {v w : Value} {n : Int}
    (hresolve : resolveEntry (_find_nid e.block_store) (isMarked key) v = .ok w)
    (hw : linkId w = .ok (.int n)) (hlist : ∀ ws, w ≠ .list ws) :
    e.runEntry message parent (key, v) = .ok (e.kept field (.int n)) := by
  have hwalked : walkValue e.pool e.visit field (parent ++ [some field.number]) w = .ok w := by
    cases w with
    | list ws => exact absurd rfl (hlist ws)
    | none | bool | int | float | str | dict => simp [walkValue, walkScalar, hfield.scalar]
  have hnone : isNone w = false := by
    cases w with
    | none => cases hw
    | bool | int | float | str | list | dict => rfl
  refine runEntry_eq_ok.mpr ⟨w, hresolve, ?_⟩
  rw [visitEntry_eq e.pool e.visit parent hsplit hfield.found hwalked]
  unfold Encoder.visit Encoder.kept
  cases hstrip : stripped e.filter_values field.opts with
  | true => exact encodeElement_stripped hstrip w
  | false =>
    rw [encodeElement_scalar hstrip hlist hnone, encode_linked hfield.onlyLink hw]
    rfl

/-! ## The way to a field -/

/-- How a message stands in the value of a field. -/
inductive Seat
  | single
  | item (before after : List Value)
  | entry (before : Dict) (key : Text) (after : Dict)

namespace Seat

def value : Seat → Dict → Value
  | single, kvs => .dict kvs
  | item before after, kvs => .list (before ++ .dict kvs :: after)
  | entry before key after, kvs => .dict (before ++ (key, .dict kvs) :: after)

/-- The value without the message, where there is more in it. -/
def rest : Seat → Option Value
  | single => none
  | item before after => some (.list (before ++ after))
  | entry before _ after => some (.dict (before ++ after))

def address (seat : Seat) (address : Address) : Address :=
  match seat with
  | single => address
  | item _ _ | entry _ _ _ => address ++ [none]

/-- The message that stands there, in the value of a field. -/
def Of (pool : Pool) (field : FieldDescriptor) (inner : Text) : Seat → Prop
  | single => field.message_type = some inner ∧ field.label_repeated = false
  | item _ _ => field.message_type = some inner ∧ field.label_repeated = true
  | entry _ _ _ => ∃ entry, field.message_type = some entry ∧ field.label_repeated = true ∧
    valueMessage pool entry = some inner

/-- Whether no key ends in `>`. -/
def unmarked : Seat → Bool
  | entry _ key _ => ! isMarked key
  | _ => true

end Seat

/-- A level of content: a field with the next level in its value, and the other entries. -/
structure Level where
  before : Dict
  field : FieldDescriptor
  seat : Seat
  after : Dict

namespace Level

def wrap (l : Level) (kvs : Dict) : Dict :=
  l.before ++ (l.field.name, l.seat.value kvs) :: l.after

/-- What there is at the level without the next one. -/
def rest (l : Level) : Dict :=
  l.before ++ (l.seat.rest.map fun v => (l.field.name, v)).toList ++ l.after

def address (l : Level) (parent : Address) : Address :=
  l.seat.address (parent ++ [some l.field.number])

/-- The level is content of a message, with another message in it. The options of the field
convert no values, and the other entries go through. -/
structure Fits (e : Encoder) (message : Text) (parent : Address) (l : Level) (inner : Text) :
    Prop where
  found : fields_by_name (e.pool.messages message) l.field.name = some l.field
  named : Plain l.field.name
  type : l.field.type = .MESSAGE
  placed : Placed .MESSAGE l.field.label_repeated l.field.opts
  seat : l.seat.Of e.pool l.field inner
  bases : ((l.wrap []).map fun p => baseOf p.1).Nodup
  noLink : NoLink (l.before ++ l.after) ∧ ∀ kvs, l.seat.rest = some (.dict kvs) → NoLink kvs
  passes : ∃ obj, e.run message parent l.rest = .ok obj

end Level

/-- The levels down to a message. -/
inductive Leads (e : Encoder) : Text → Address → List Level → Text → Address → Prop
  | here {message parent} : Leads e message parent [] message parent
  | level {message parent l inner way last address} (h : l.Fits e message parent inner)
    (hway : Leads e inner (l.address parent) way last address) :
    Leads e message parent (l :: way) last address

/-- Content with a dict at the end of the levels. -/
def wrap (way : List Level) (kvs : Dict) : Dict := way.foldr Level.wrap kvs

/-- Whether no key of a map on the way ends in `>`. -/
def passable (way : List Level) : Bool := way.all fun l => l.seat.unmarked

section
variable {e : Encoder}

/-- A message that goes through, as a part of a value. -/
theorem part_passes {inner : Text} {address : Address} {kvs obj : Dict}
    (hlink : is_link (.dict kvs) = false) (h : e.run inner address kvs = .ok obj) :
    ∃ v, resolveEntry (_find_nid e.block_store) false (.dict kvs) = .ok v ∧
      walkChild e.pool e.visit (some inner) address v = .ok (.dict obj) := by
  obtain ⟨resolved, hresolve, hwalk⟩ := bind_eq_ok.mp h
  refine ⟨.dict resolved, ?_, ?_⟩
  · rw [resolve_dict hlink]
    exact map_eq_ok.mpr ⟨resolved, hresolve, rfl⟩
  · rw [walkChild]
    exact map_eq_ok.mpr ⟨obj, hwalk, rfl⟩

theorem part_solid {message : Option Text} {address : Address} {v w : Value}
    (h : walkChild e.pool e.visit message address v = .ok w) : isNone w = false := by
  obtain ⟨_, _, -, rfl, -⟩ := walkChild_inv h
  rfl

theorem NoLink.insert {before after : Dict} {k : Text} {v : Value}
    (h : NoLink (before ++ after))
    (hv : k = "__bloxtype".toList → isStr "Link".toList v = false) :
    NoLink (before ++ (k, v) :: after) := by
  intro p hp hkey
  rcases List.mem_append.mp hp with hp | hp
  · exact h p (List.mem_append_left _ hp) hkey
  · rcases List.mem_cons.mp hp with rfl | hp
    · exact hv hkey
    · exact h p (List.mem_append_right _ hp) hkey

/-- What stands in the one seat is encoded to what stands in the other. -/
def Seat.Becomes (e : Encoder) (field : FieldDescriptor) (inner : Text) (address : Address)
    (seat seat' : Seat) : Prop :=
  (∀ obj, Solid (seat'.value obj)) ∧ ∀ kvs obj, is_link (.dict kvs) = false →
    e.run inner (seat.address address) kvs = .ok obj →
      ∃ v, resolveEntry (_find_nid e.block_store) false (seat.value kvs) = .ok v ∧
        walkValue e.pool e.visit field address v = .ok (seat'.value obj)

section
variable {field : FieldDescriptor} {inner : Text} {address : Address}

theorem single_becomes (hof : Seat.single.Of e.pool field inner) :
    Seat.Becomes e field inner address .single .single := by
  refine ⟨fun _ => trivial, fun kvs obj hlink hrun => ?_⟩
  obtain ⟨resolved, hresolve, hwalk⟩ := bind_eq_ok.mp hrun
  refine ⟨.dict resolved, (resolve_dict hlink).trans (map_eq_ok.mpr ⟨resolved, hresolve, rfl⟩), ?_⟩
  rw [walkValue]
  simp only [hof.1, hof.2, Bool.false_eq_true, if_false]
  exact map_eq_ok.mpr ⟨obj, hwalk, rfl⟩

theorem item_becomes {before after : List Value}
    (hof : (Seat.item before after).Of e.pool field inner) {v walked : Value}
    (hv : resolveEntry (_find_nid e.block_store) false (.list (before ++ after)) = .ok v)
    (hwalked : walkValue e.pool e.visit field address v = .ok walked) :
    ∃ seat', Seat.Becomes e field inner address (.item before after) seat' := by
  rw [resolve_list] at hv
  obtain ⟨vs, hvs, rfl⟩ := map_eq_ok.mp hv
  obtain ⟨lvs, rvs, rfl, hresolved⟩ := mapM_insert hvs
  rw [walkValue] at hwalked
  simp only [hof.1, hof.2, if_true, walkList_eq] at hwalked
  obtain ⟨ws, hws, -⟩ := map_eq_ok.mp hwalked
  obtain ⟨lws, rws, rfl, hvisited⟩ := mapM_insert hws
  have hsolid : ∀ w ∈ lws ++ rws, isNone w = false := by
    intro w hw
    obtain ⟨v, -, hchild⟩ := forall₂_right (forall₂_of_mapM hws) hw
    exact part_solid hchild
  refine ⟨.item lws rws, fun obj w hw => ?_, fun kvs obj hlink hrun => ?_⟩
  · rcases List.mem_append.mp hw with hw | hw
    · exact hsolid w (List.mem_append_left _ hw)
    · rcases List.mem_cons.mp hw with rfl | hw
      · rfl
      · exact hsolid w (List.mem_append_right _ hw)
  · obtain ⟨x, hx, hchild⟩ := part_passes hlink hrun
    refine ⟨.list (lvs ++ x :: rvs), ?_, ?_⟩
    · exact (resolve_list _ _).trans (map_eq_ok.mpr ⟨_, hresolved _ _ hx, rfl⟩)
    · rw [walkValue]
      simp only [hof.1, hof.2, if_true, walkList_eq]
      exact map_eq_ok.mpr ⟨_, hvisited _ _ hchild, rfl⟩

theorem entry_becomes {before after : Dict} {key : Text} (hmarked : isMarked key = false)
    (hnolink : NoLink (before ++ after)) (hof : (Seat.entry before key after).Of e.pool field inner)
    {v walked : Value}
    (hv : resolveEntry (_find_nid e.block_store) false (.dict (before ++ after)) = .ok v)
    (hwalked : walkValue e.pool e.visit field address v = .ok walked) :
    ∃ seat', Seat.Becomes e field inner address (.entry before key after) seat' := by
  obtain ⟨entry, hmessage, hrepeated, hvalue⟩ := hof
  have htype := valueType_of_valueMessage e.pool hvalue
  rw [resolve_dict (not_link hnolink), resolveDict_eq] at hv
  obtain ⟨kvs', hkvs', rfl⟩ := map_eq_ok.mp hv
  obtain ⟨lvs, rvs, rfl, hresolved⟩ := mapM_insert hkvs'
  rw [walkValue] at hwalked
  simp only [hmessage, hrepeated, if_true, htype, ok_bind, walkMap_eq] at hwalked
  obtain ⟨ws, hws, -⟩ := bind_eq_ok.mp hwalked
  obtain ⟨lws, rws, rfl, hvisited⟩ := mapM_insert hws
  refine ⟨.entry lws key rws, fun _ => trivial, fun kvs obj hlink hrun => ?_⟩
  obtain ⟨x, hx, hchild⟩ := part_passes hlink hrun
  refine ⟨.dict (lvs ++ (key, x) :: rvs), ?_, ?_⟩
  · have hnot : is_link (.dict (before ++ (key, .dict kvs) :: after)) = false :=
      not_link (hnolink.insert fun _ => rfl)
    have hone : ((resolveEntry (_find_nid e.block_store) (isMarked key) (.dict kvs)).map
        fun v => (key, v)) = .ok (key, x) := by
      rw [hmarked]
      exact map_eq_ok.mpr ⟨x, hx, rfl⟩
    refine (resolve_dict hnot).trans ?_
    rw [resolveDict_eq]
    exact map_eq_ok.mpr ⟨_, hresolved _ _ hone, rfl⟩
  · rw [walkValue]
    simp only [hmessage, hrepeated, if_true, htype, ok_bind, walkMap_eq]
    exact bind_eq_ok.mpr ⟨_, hvisited _ _ (map_eq_ok.mpr ⟨_, hchild, rfl⟩), rfl⟩

/-- A value goes through with one more message, where it does without. -/
theorem seat_becomes {seat : Seat} (hof : seat.Of e.pool field inner)
    (hunmarked : seat.unmarked = true) (hnolink : ∀ kvs, seat.rest = some (.dict kvs) → NoLink kvs)
    (hrest : ∀ rest, seat.rest = some rest → ∃ v walked,
      resolveEntry (_find_nid e.block_store) false rest = .ok v ∧
        walkValue e.pool e.visit field address v = .ok walked) :
    ∃ seat', Seat.Becomes e field inner address seat seat' := by
  cases seat with
  | single => exact ⟨.single, single_becomes hof⟩
  | item before after =>
    obtain ⟨v, walked, hv, hwalked⟩ := hrest _ rfl
    exact item_becomes hof hv hwalked
  | entry before key after =>
    obtain ⟨v, walked, hv, hwalked⟩ := hrest _ rfl
    have hmarked : isMarked key = false := by simpa [Seat.unmarked] using hunmarked
    exact entry_becomes hmarked (hnolink _ rfl) hof hv hwalked

end

/-! ## Down the way -/

theorem same_seat (seat : Seat) {obj obj' : Dict} (h : SameContent (.dict obj) (.dict obj')) :
    SameContent (seat.value obj) (seat.value obj') := by
  cases seat with
  | single => exact h
  | item before after => exact .item before after h
  | entry before key after => exact .entry before after h

theorem same_kept {field : FieldDescriptor} {v w : Value} {others obj obj' : Dict}
    (h : SameContent v w) (hobj : obj.Perm ((e.kept field v).toList ++ others))
    (hobj' : obj'.Perm ((e.kept field w).toList ++ others)) :
    SameContent (.dict obj) (.dict obj') := by
  have hmiddle : SameContent (.dict ((e.kept field v).toList ++ others))
      (.dict ((e.kept field w).toList ++ others)) := by
    unfold Encoder.kept
    split
    · exact .refl _
    · exact .entry [] others h
  exact (SameContent.order hobj).trans (hmiddle.trans (.order hobj'.symm))

theorem Level.Fits.rest_bases {message : Text} {parent : Address} {l : Level} {inner : Text}
    (h : l.Fits e message parent inner) : (l.rest.map fun p => baseOf p.1).Nodup := by
  refine h.bases.sublist ?_
  have hsublist : ((l.seat.rest.map fun v => (l.field.name, v)).toList.map
      fun p => baseOf p.1).Sublist [baseOf l.field.name] := by
    cases l.seat.rest with
    | none => exact List.nil_sublist _
    | some v => exact .refl _
  unfold Level.rest Level.wrap
  rw [List.append_assoc, List.map_append, List.map_append, List.map_append]
  exact (List.Sublist.refl _).append (hsublist.append (.refl _))

section
variable {message : Text} {parent : Address} {l : Level} {inner : Text}

/-- A field of messages is encoded to the messages. -/
theorem message_entry_passes (hl : l.Fits e message parent inner) {seat : Seat} {kvs obj : Dict}
    (hseat : l.seat.Becomes e l.field inner (parent ++ [some l.field.number]) seat)
    (hlink : is_link (.dict kvs) = false) (hrun : e.run inner (l.address parent) kvs = .ok obj) :
    e.runEntry message parent (l.field.name, l.seat.value kvs) =
      .ok (e.kept l.field (seat.value obj)) := by
  obtain ⟨readonly, logged, stored, ignored, hopts⟩ := message_opts hl.placed
  obtain ⟨v, hv, hwalked⟩ := hseat.2 kvs obj hlink hrun
  refine runEntry_eq_ok.mpr ⟨v, by rw [plain_not_marked hl.named]; exact hv, ?_⟩
  rw [visitEntry_eq e.pool e.visit parent (splitKey_name hl.named) hl.found hwalked]
  unfold Encoder.visit Encoder.kept
  cases hstrip : stripped e.filter_values l.field.opts with
  | true => exact encodeElement_stripped hstrip _
  | false => exact encode_message hopts hl.type hstrip (hseat.1 obj)

/-- A level goes through, whatever the next one is encoded to. -/
theorem level_passes (hl : l.Fits e message parent inner) (hunmarked : l.seat.unmarked = true) :
    ∃ (seat : Seat) (others : Dict), ∀ kvs obj, is_link (.dict kvs) = false →
      e.run inner (l.address parent) kvs = .ok obj → ∃ obj',
        e.run message parent (l.wrap kvs) = .ok obj' ∧
          obj'.Perm ((e.kept l.field (seat.value obj)).toList ++ others) := by
  obtain ⟨rest, hrest⟩ := hl.passes
  have hentry : ∀ p ∈ l.rest, ∃ out, e.runEntry message parent p = .ok out :=
    fun p hp => entry_of_run hl.rest_bases hrest hp
  have hseat : ∃ seat, l.seat.Becomes e l.field inner (parent ++ [some l.field.number]) seat := by
    refine seat_becomes hl.seat hunmarked hl.noLink.2 fun v hv => ?_
    have hmem : (l.field.name, v) ∈ l.rest := by
      unfold Level.rest
      rw [hv]
      simp
    obtain ⟨out, hout⟩ := hentry _ hmem
    obtain ⟨w, hw, hvisit⟩ := runEntry_eq_ok.mp hout
    obtain ⟨_, field, walked, -, hfield, hwalked, -⟩ := visitEntry_inv hvisit
    rw [plain_not_marked hl.named] at hw
    have hsame : field = l.field := by
      have hat : fieldAt e.pool message l.field.name = some l.field := by
        unfold fieldAt
        rw [← splitKey_base (splitKey_name hl.named)]
        exact hl.found
      exact Option.some.inj (hfield.symm.trans hat)
    rw [hsame] at hwalked
    exact ⟨w, walked, hw, hwalked⟩
  obtain ⟨seat, hbecomes⟩ := hseat
  obtain ⟨others, hothers⟩ := @run_insert e message parent l.before l.after fun p hp => by
    refine hentry p ?_
    unfold Level.rest
    rcases List.mem_append.mp hp with hp | hp
    · exact List.mem_append_left _ (List.mem_append_left _ hp)
    · exact List.mem_append_right _ hp
  refine ⟨seat, others, fun kvs obj hlink hrun => ?_⟩
  have hbases : ((l.wrap kvs).map fun p => baseOf p.1).Nodup := by
    have hnodup := hl.bases
    unfold Level.wrap at hnodup ⊢
    simpa using hnodup
  exact hothers _ _ hbases (message_entry_passes hl hbecomes hlink hrun)

end

theorem wrap_noLink {message : Text} {parent : Address} {way : List Level} {last : Text}
    {address : Address} (hway : Leads e message parent way last address) {kvs : Dict}
    (h : NoLink kvs) : NoLink (wrap way kvs) := by
  cases hway with
  | here => exact h
  | @level _ _ l _ _ _ _ hl _ =>
    refine NoLink.insert hl.noLink.1 fun _ => ?_
    cases l.seat <;> rfl

/-- What is encoded to the same at the end of the way is encoded to the same at its start. -/
theorem way_passes {message : Text} {parent : Address}
    {way : List Level} {last : Text} {address : Address}
    (hway : Leads e message parent way last address) (hpass : passable way = true)
    {kvs kvs' obj obj' : Dict} (hlink : NoLink kvs) (hlink' : NoLink kvs')
    (hrun : e.run last address kvs = .ok obj) (hrun' : e.run last address kvs' = .ok obj')
    (hsame : SameContent (.dict obj) (.dict obj')) :
    ∃ whole whole', e.run message parent (wrap way kvs) = .ok whole ∧
      e.run message parent (wrap way kvs') = .ok whole' ∧
        SameContent (.dict whole) (.dict whole') := by
  induction hway with
  | here => exact ⟨obj, obj', hrun, hrun', hsame⟩
  | @level message parent l inner way last address hl hway ih =>
    unfold passable at hpass
    rw [List.all_cons, Bool.and_eq_true] at hpass
    obtain ⟨part, part', hpart, hpart', hparts⟩ := ih hpass.2 hrun hrun'
    obtain ⟨seat, others, hwhole⟩ := level_passes hl hpass.1
    obtain ⟨whole, hwholerun, hperm⟩ := hwhole _ _ (not_link (wrap_noLink hway hlink)) hpart
    obtain ⟨whole', hwholerun', hperm'⟩ := hwhole _ _ (not_link (wrap_noLink hway hlink')) hpart'
    exact ⟨whole, whole', hwholerun, hwholerun', same_kept (same_seat seat hparts) hperm hperm'⟩

theorem seat_resolves {store : BlockStore} {seat : Seat} {kvs : Dict} {v : Value}
    (hlink : is_link (.dict kvs) = false)
    (hnolink : ∀ rest, seat.rest = some (.dict rest) → NoLink rest)
    (h : resolveEntry (_find_nid store) false (seat.value kvs) = .ok v) :
    seat.unmarked = true ∧ ∃ part, resolveDict (_find_nid store) kvs = .ok part := by
  have hdict : ∀ {w}, resolveEntry (_find_nid store) false (.dict kvs) = .ok w →
      ∃ part, resolveDict (_find_nid store) kvs = .ok part := by
    intro w hw
    rw [resolve_dict hlink] at hw
    obtain ⟨part, hpart, -⟩ := map_eq_ok.mp hw
    exact ⟨part, hpart⟩
  cases seat with
  | single => exact ⟨rfl, hdict h⟩
  | item before after =>
    unfold Seat.value at h
    rw [resolve_list] at h
    obtain ⟨vs, hvs, -⟩ := map_eq_ok.mp h
    obtain ⟨w, -, hw⟩ := forall₂_left (forall₂_of_mapM hvs)
      (List.mem_append_right before (List.mem_cons_self (a := Value.dict kvs) (l := after)))
    exact ⟨rfl, hdict hw⟩
  | entry before key after =>
    have hnot : is_link (.dict (before ++ (key, .dict kvs) :: after)) = false :=
      not_link ((hnolink _ rfl).insert fun _ => rfl)
    unfold Seat.value at h
    rw [resolve_dict hnot] at h
    obtain ⟨lws, hlws, -⟩ := map_eq_ok.mp h
    obtain ⟨q, -, -, hq⟩ := forall₂_left (resolveDict_entries hlws)
      (List.mem_append_right before
        (List.mem_cons_self (a := (key, Value.dict kvs)) (l := after)))
    cases hmarked : isMarked key with
    | false =>
      rw [hmarked] at hq
      exact ⟨by simp [Seat.unmarked, hmarked], hdict hq⟩
    | true =>
      -- a dict is no id
      rw [hmarked] at hq
      rw [resolve_marked hlink] at hq
      cases hq

/-- Where the ids in content are resolved, those at the end of the way are. -/
theorem way_resolves {message : Text} {parent : Address}
    {way : List Level} {last : Text} {address : Address}
    (hway : Leads e message parent way last address) {kvs resolved : Dict} (hlink : NoLink kvs)
    (h : resolveDict (_find_nid e.block_store) (wrap way kvs) = .ok resolved) :
    passable way = true ∧ ∃ inner, resolveDict (_find_nid e.block_store) kvs = .ok inner := by
  induction hway generalizing resolved with
  | here => exact ⟨rfl, resolved, h⟩
  | @level message parent l inner way last address hl hway ih =>
    have hmem : (l.field.name, l.seat.value (wrap way kvs)) ∈ wrap (l :: way) kvs :=
      List.mem_append_right _ List.mem_cons_self
    obtain ⟨q, -, -, hvalue⟩ := forall₂_left (resolveDict_entries h) hmem
    rw [plain_not_marked hl.named] at hvalue
    have hnot := not_link (wrap_noLink hway hlink)
    obtain ⟨hunmarked, part, hpart⟩ := seat_resolves hnot hl.noLink.2 hvalue
    obtain ⟨hpass, hinner⟩ := ih hpart
    refine ⟨?_, hinner⟩
    unfold passable
    rw [List.all_cons, hunmarked]
    exact hpass

end

/-! ## Both notations -/

/-- Where a link field is written, among other entries. -/
structure Spot where
  before : Dict
  field : FieldDescriptor
  after : Dict

namespace Spot

def write (s : Spot) (key : Text) (v : Value) : Dict := s.before ++ (key, v) :: s.after

/-- The field is one of the message, and the other entries go through. -/
structure Fits (e : Encoder) (message : Text) (parent : Address) (s : Spot) : Prop where
  link : LinkField e.pool message s.field
  bases : ((s.write s.field.name .none).map fun p => baseOf p.1).Nodup
  noLink : NoLink (s.before ++ s.after)
  passes : ∃ obj, e.run message parent (s.before ++ s.after) = .ok obj

end Spot

/-- `field<Type>`, or `field<>`. -/
def postfixKey (name type : Text) : Text := name ++ '<' :: type ++ ['>']

/-- Both go through, and to the same content. -/
def EncodedAlike (e : Encoder) (desc : Text) (payload : DecodedPayload) (data data' : Dict) :
    Prop :=
  ∃ content content', e.encode desc payload data = .ok content ∧
    e.encode desc payload data' = .ok content' ∧ SameContent (.dict content) (.dict content')

theorem postfixKey_marked (name type : Text) : isMarked (postfixKey name type) = true := by
  unfold isMarked postfixKey
  rw [List.getLast?_concat]
  rfl

theorem splitKey_postfixKey {name : Text} (h : Plain name) (type : Text) :
    ∃ postfixed, splitKey (postfixKey name type) = .ok (name, postfixed) := by
  unfold postfixKey
  rw [List.append_assoc]
  exact ⟨_, splitKey_plain h fun c hc => by cases hc; decide⟩

theorem postfixKey_noLink {s : Spot} (h : NoLink (s.before ++ s.after)) (name type : Text)
    (v : Value) : NoLink (s.write (postfixKey name type) v) := by
  refine h.insert fun hkey => ?_
  have hmarked := postfixKey_marked name type
  rw [hkey] at hmarked
  cases hmarked

section
variable {e : Encoder} {message : Text} {parent : Address} {s : Spot}
variable (hs : s.Fits e message parent)

include hs

/-- The dict of the field goes through with an entry for the field, whatever its notation. -/
theorem spot_passes : ∃ others : Dict, ∀ key postfixed v out,
    splitKey key = .ok (s.field.name, postfixed) → e.runEntry message parent (key, v) = .ok out →
      ∃ obj, e.run message parent (s.write key v) = .ok obj ∧
        obj.Perm (out.toList ++ others) := by
  have hname := hs.link.named
  have hnodup := hs.bases
  unfold Spot.write at hnodup ⊢
  rw [List.map_append, List.map_cons, ← splitKey_base (splitKey_name hname)] at hnodup
  have hrest : ((s.before ++ s.after).map fun p => baseOf p.1).Nodup := by
    rw [List.map_append]
    exact hnodup.sublist ((List.Sublist.refl _).append (List.sublist_cons_self _ _))
  obtain ⟨rest, hrun⟩ := hs.passes
  obtain ⟨others, hinsert⟩ := run_insert fun p hp => entry_of_run hrest hrun hp
  refine ⟨others, fun key postfixed v out hsplit hout => hinsert _ _ ?_ hout⟩
  rwa [List.map_append, List.map_cons, ← splitKey_base hsplit]

/-- A value that is no list goes through in both notations, to the same number. -/
theorem notations_pass {plain typed : Value}
    (hvalue : Notated e.block_store s.field.label_repeated plain typed)
    (hread : readable plain = true) (type : Text) :
    ∃ obj obj', e.run message parent (s.write (postfixKey s.field.name type) plain) = .ok obj ∧
      e.run message parent (s.write s.field.name typed) = .ok obj' ∧ obj.Perm obj' := by
  have hname := hs.link.named
  obtain ⟨n, o, o', hplain, rfl, htyped, hid⟩ := notated_resolves hvalue hread
  obtain ⟨postfixed, hsplit⟩ := splitKey_postfixKey hname type
  rw [← postfixKey_marked s.field.name type] at hplain
  rw [← plain_not_marked hname] at htyped
  have hlink : linkId (.dict o') = .ok (.int n) := by
    unfold linkId getItem
    simp only [hid]
  obtain ⟨others, hspot⟩ := spot_passes hs
  obtain ⟨obj, hobj, hperm⟩ := hspot _ _ _ _ hsplit
    (link_entry hs.link parent hsplit hplain rfl (by simp))
  obtain ⟨obj', hobj', hperm'⟩ := hspot _ _ _ _ (splitKey_name hname)
    (link_entry hs.link parent (splitKey_name hname) htyped hlink (by simp))
  exact ⟨obj, obj', hobj, hobj', hperm.trans hperm'.symm⟩

end

/-- The two notations of a link field are encoded to the same content exactly where the plain
value is no list, a name of digits can be read as a number, and no key of a map on the way to the
field ends in `>`. -/
theorem notations_agree_iff {e : Encoder} {desc message : Text} {way : List Level}
    {parent : Address} (hway : Leads e desc [] way message parent) {s : Spot}
    (hs : s.Fits e message parent) {plain typed : Value}
    (hvalue : Notated e.block_store s.field.label_repeated plain typed) (type : Text)
    (payload : DecodedPayload) :
    EncodedAlike e desc payload (wrap way (s.write (postfixKey s.field.name type) plain))
        (wrap way (s.write s.field.name typed)) ↔
      readable plain = true ∧ passable way = true := by
  have hnolink := postfixKey_noLink hs.noLink s.field.name type plain
  unfold EncodedAlike
  simp only [Encoder.encode_eq]
  constructor
  · rintro ⟨content, -, hrun, -, -⟩
    obtain ⟨resolved, hresolve, -⟩ := bind_eq_ok.mp hrun
    obtain ⟨hpass, inner, hinner⟩ := way_resolves hway hnolink hresolve
    have hmem : (postfixKey s.field.name type, plain) ∈
        s.write (postfixKey s.field.name type) plain := List.mem_append_right _ List.mem_cons_self
    obtain ⟨q, -, -, hq⟩ := forall₂_left (resolveDict_entries hinner) hmem
    rw [postfixKey_marked] at hq
    exact ⟨readable_of_resolved hvalue hq, hpass⟩
  · rintro ⟨hread, hpass⟩
    obtain ⟨obj, obj', hobj, hobj', hperm⟩ := notations_pass hs hvalue hread type
    have hlink : NoLink (s.write s.field.name typed) := by
      refine hs.noLink.insert fun _ => ?_
      cases hvalue <;> rfl
    exact way_passes hway hpass hnolink hlink hobj hobj' (.order hperm)

/-! ## A list of sensors, and a variable -/

/-- The sensors of a combined sensor, and the variables, some of which are links. -/
def linkPool : Pool where
  messages := fun message =>
    if message = "TempSensorCombi".toList then
      [{ name := "combineFunc".toList, number := 2, type := .ENUM, opts := { stored := true } },
        { name := "sensors".toList, number := 3, type := .UINT32, label_repeated := true
          opts := { objtype := some "TempSensorInterface".toList, stored := true } }]
    else if message = "Variables".toList then
      [{ name := "variables".toList, number := 1, type := .MESSAGE, label_repeated := true
         message_type := some "VariablesEntry".toList, opts := { stored := true } }]
    else if message = "VariablesEntry".toList then
      [{ name := "key".toList, number := 1, type := .STRING },
        { name := "value".toList, number := 2, type := .MESSAGE
          message_type := some "VarContainer".toList }]
    else if message = "VarContainer".toList then
      [{ name := "empty".toList, number := 1, type := .BOOL },
        { name := "link".toList, number := 40, type := .UINT32
          opts := { objtype := some "Any".toList, stored := true } }]
    else []

def linkEncoder : Encoder where
  env := sameUnit
  cv := converter "degC".toList
  pool := linkPool
  filter_values := true
  block_store := sampleStore

def linkObject (type id : String) : Dict :=
  [("__bloxtype".toList, .str "Link".toList), ("type".toList, .str type.toList),
    ("id".toList, .str id.toList)]

theorem linkObject_links (type id : String) : LinkTo (.str id.toList) (linkObject type id) :=
  ⟨rfl, rfl⟩

def sensorSpot : Spot where
  before := [("combineFunc".toList, .str "SENSOR_COMBI_FUNC_AVG".toList)]
  field := { name := "sensors".toList, number := 3, type := .UINT32, label_repeated := true
             opts := { objtype := some "TempSensorInterface".toList, stored := true } }
  after := []

theorem sensorSpot_fits : sensorSpot.Fits linkEncoder "TempSensorCombi".toList [] where
  link := ⟨rfl, by decide, rfl, ⟨rfl, rfl, rfl, rfl, rfl, rfl, rfl⟩⟩
  bases := by decide
  noLink := List.forall_mem_singleton.mpr fun h => by cases h
  passes := ⟨_, rfl⟩

def variableLevel : Level where
  before := []
  field := { name := "variables".toList, number := 1, type := .MESSAGE, label_repeated := true
             message_type := some "VariablesEntry".toList, opts := { stored := true } }
  seat := .entry [("first".toList, .dict [("empty".toList, .bool true)])] "second".toList []
  after := []

def variableSpot : Spot where
  before := []
  field := { name := "link".toList, number := 40, type := .UINT32
             opts := { objtype := some "Any".toList, stored := true } }
  after := []

theorem variableSpot_fits (parent : Address) :
    variableSpot.Fits linkEncoder "VarContainer".toList parent where
  link := ⟨rfl, by decide, rfl, ⟨rfl, rfl, rfl, rfl, rfl, rfl, rfl⟩⟩
  bases := by decide
  noLink := List.forall_mem_nil _
  passes := ⟨_, rfl⟩

theorem variableLevel_leads : Leads linkEncoder "Variables".toList [] [variableLevel]
    "VarContainer".toList (variableLevel.address []) := by
  refine .level ?_ .here
  exact
    { found := rfl
      named := by decide
      type := rfl
      placed := .plain _ _ _ _ (by decide)
      seat := ⟨_, rfl, rfl, rfl⟩
      bases := by decide
      noLink := ⟨List.forall_mem_nil _, fun kvs h => by
        cases h
        exact List.forall_mem_singleton.mpr fun h => by cases h⟩
      passes := ⟨_, rfl⟩ }

theorem notations_agree_iff_sample :
    EncodedAlike linkEncoder "Variables".toList { blockId := 100 }
      [("variables".toList, .dict [("first".toList, .dict [("empty".toList, .bool true)]),
        ("second".toList, .dict [("link<>".toList, .str "pwm".toList)])])]
      [("variables".toList, .dict [("first".toList, .dict [("empty".toList, .bool true)]),
        ("second".toList, .dict [("link".toList, .dict (linkObject "Any" "pwm"))])])] :=
  (notations_agree_iff variableLevel_leads (variableSpot_fits _)
    (.name ⟨102, by decide⟩ (linkObject_links "Any" "pwm")) [] { blockId := 100 }).mpr
      ⟨by decide, by decide⟩

/-- A list of names is refused where the key has a postfix, and encoded where it holds typed
objects. -/
theorem postfixed_list_is_refused :
    let plain : Value := .list [.str "sensor".toList, .str "pwm".toList]
    let typed : Value := .list [.dict (linkObject "TempSensorInterface" "sensor"),
      .dict (linkObject "TempSensorInterface" "pwm")]
    let encode := linkEncoder.encode "TempSensorCombi".toList { blockId := 100 }
    sensorSpot.Fits linkEncoder "TempSensorCombi".toList [] ∧ Notated sampleStore true plain typed ∧
      encode (sensorSpot.write "sensors<TempSensorInterface>".toList plain) =
        .error (noAttribute plain "isdigit") ∧
      encode (sensorSpot.write "sensors".toList typed) =
        .ok (sensorSpot.write "sensors".toList (.list [.int 101, .int 102])) ∧
      ¬ EncodedAlike linkEncoder "TempSensorCombi".toList { blockId := 100 }
        (sensorSpot.write "sensors<TempSensorInterface>".toList plain)
        (sensorSpot.write "sensors".toList typed) := by
  intro plain typed encode
  refine ⟨sensorSpot_fits, ?_, rfl, by with_unfolding_all rfl, ?_⟩
  · exact @Notated.names _ _ ["sensor".toList, "pwm".toList] _ rfl
      (.cons ⟨⟨101, by decide⟩, linkObject_links _ _⟩
        (.cons ⟨⟨102, by decide⟩, linkObject_links _ _⟩ .nil))
  · rintro ⟨content, -, h, -⟩
    cases h

end devcon_spark.codec.content
