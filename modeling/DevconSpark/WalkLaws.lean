-- What the walk of `ProtobufProcessor` comes to: each entry is visited with
-- its own value, whatever keys the entries before it were given.
import DevconSpark.Processor

open py_text py_dict py_number py_value devcon_spark.exceptions devcon_spark.models
open devcon_spark.codec.descriptor devcon_spark.codec.unit_conversion

namespace devcon_spark.codec.processor

/-! ## Keys -/

/-- The key without its postfix. -/
def baseOf (key : Text) : Text := (key.dropWhile (· ∈ symbols)).takeWhile (· ∉ symbols)

theorem splitKey_base {key base_key postfixed : Text}
    (h : splitKey key = .ok (base_key, postfixed)) : base_key = baseOf key := by
  unfold splitKey at h
  simp only at h
  split at h
  · cases h
  · cases h
    rfl

/-- A name that a key may begin with. -/
def Plain (name : Text) : Prop := name ≠ [] ∧ ∀ c ∈ name, c ∉ symbols

instance (name : Text) : Decidable (Plain name) := inferInstanceAs (Decidable (_ ∧ _))

theorem takeWhile_plain {name rest : Text} (h : ∀ c ∈ name, c ∉ symbols)
    (hrest : ∀ c, rest.head? = some c → c ∈ symbols) :
    (name ++ rest).takeWhile (· ∉ symbols) = name ∧
      (name ++ rest).dropWhile (· ∉ symbols) = rest := by
  have htake : rest.takeWhile (· ∉ symbols) = [] ∧ rest.dropWhile (· ∉ symbols) = rest := by
    cases rest with
    | nil => exact ⟨rfl, rfl⟩
    | cons c cs => simp [hrest c rfl]
  have hall : ∀ c ∈ name, decide (c ∉ symbols) = true := fun c hc => decide_eq_true (h c hc)
  rw [List.takeWhile_append_of_pos hall, List.dropWhile_append_of_pos hall, htake.1, htake.2,
    List.append_nil]
  exact ⟨rfl, rfl⟩

theorem dropWhile_plain {name : Text} (h : Plain name) (rest : Text) :
    (name ++ rest).dropWhile (· ∈ symbols) = name ++ rest := by
  obtain ⟨c, cs, rfl⟩ := List.exists_cons_of_ne_nil h.1
  rw [List.cons_append, List.dropWhile_cons_of_neg]
  simpa using h.2 c List.mem_cons_self

/-- A name and what follows it in brackets. -/
theorem splitKey_plain {name rest : Text} (h : Plain name)
    (hrest : ∀ c, rest.head? = some c → c ∈ symbols) :
    splitKey (name ++ rest) =
      .ok (name, (rest.drop 1).takeWhile fun c => c ∉ symbols ∧ c ≠ ',') := by
  obtain ⟨htake, hdrop⟩ := takeWhile_plain h.2 hrest
  unfold splitKey
  simp only [dropWhile_plain h, htake, hdrop]
  rw [if_neg h.1]

theorem splitKey_name {name : Text} (h : Plain name) : splitKey name = .ok (name, []) := by
  have hhead : ∀ c, ([] : Text).head? = some c → c ∈ symbols := by simp
  have hsplit := splitKey_plain h hhead
  rwa [List.append_nil] at hsplit

theorem baseOf_plain {name rest : Text} (h : Plain name)
    (hrest : ∀ c, rest.head? = some c → c ∈ symbols) : baseOf (name ++ rest) = name :=
  (splitKey_base (splitKey_plain h hrest)).symm

/-! ## Entries -/

section
variable (pool : Pool)

theorem fieldOf_some {message name : Text} {field : FieldDescriptor}
    (h : fields_by_name (pool.messages message) name = some field) :
    fieldOf pool (some message) name = .ok field := by
  unfold fieldOf
  simp only [h]

variable (visit : Visit) (message : Option Text) (parent : Address)

/-- The visit of one entry, with its parts. -/
def visitEntry (p : Text × Value) : Except Exn (Option (Text × Value)) := do
  let (base_key, postfixed) ← splitKey p.1
  let field ← fieldOf pool message base_key
  let address := parent ++ [some field.number]
  let walked ← walkValue pool visit field address p.2
  visit
    { field, key := p.1, base_key, postfixed, address := elementAddress field address p.2 } walked

theorem visitEntry_bind {name key base_key postfixed : Text} {field : FieldDescriptor}
    {value : Value} (hsplit : splitKey key = .ok (base_key, postfixed))
    (hfield : fields_by_name (pool.messages name) base_key = some field) :
    visitEntry pool visit (some name) parent (key, value) =
      walkValue pool visit field (parent ++ [some field.number]) value >>= visit
        { field, key, base_key, postfixed
          address := elementAddress field (parent ++ [some field.number]) value } := by
  unfold visitEntry
  simp only [hsplit, fieldOf_some pool hfield, bind, Except.bind]

theorem visitEntry_eq {name key base_key postfixed : Text} {field : FieldDescriptor}
    {value walked : Value} (hsplit : splitKey key = .ok (base_key, postfixed))
    (hfield : fields_by_name (pool.messages name) base_key = some field)
    (hwalked : walkValue pool visit field (parent ++ [some field.number]) value = .ok walked) :
    visitEntry pool visit (some name) parent (key, value) = visit
      { field, key, base_key, postfixed
        address := elementAddress field (parent ++ [some field.number]) value } walked := by
  rw [visitEntry_bind pool visit parent hsplit hfield, hwalked, ok_bind]

/-- The visits of all entries, each with the key it had. -/
def visitAll (items : Dict) : Except Exn (List (Text × Option (Text × Value))) :=
  items.mapM fun p => (visitEntry pool visit message parent p).map fun out => (p.1, out)

def stays (out : Text × Option (Text × Value)) : Option (Text × Value) :=
  out.2.filter (·.1 = out.1)

def moves (out : Text × Option (Text × Value)) : Option (Text × Value) :=
  out.2.filter (·.1 ≠ out.1)

/-- What keeps its key keeps its place, and what is renamed comes last. -/
def arrange (outs : List (Text × Option (Text × Value))) : Dict :=
  outs.filterMap stays ++ outs.filterMap moves

theorem stays_of_eq {k : Text} {q : Text × Value} (h : q.1 = k) :
    stays (k, some q) = some q ∧ moves (k, some q) = none := by
  simp [stays, moves, h]

theorem moves_of_ne {k : Text} {q : Text × Value} (h : q.1 ≠ k) :
    stays (k, some q) = none ∧ moves (k, some q) = some q := by
  simp [stays, moves, h]

theorem mem_arrange {outs : List (Text × Option (Text × Value))} {q : Text × Value} :
    q ∈ arrange outs ↔ ∃ k, (k, some q) ∈ outs := by
  unfold arrange stays moves
  simp only [List.mem_append, List.mem_filterMap, Option.filter_eq_some_iff, decide_eq_true_eq]
  constructor
  · rintro (⟨⟨k, out⟩, hm, rfl, -⟩ | ⟨⟨k, out⟩, hm, rfl, -⟩) <;> exact ⟨k, hm⟩
  · rintro ⟨k, hm⟩
    by_cases hk : q.1 = k
    · exact Or.inl ⟨_, hm, rfl, hk⟩
    · exact Or.inr ⟨_, hm, rfl, hk⟩

/-- The turn of the walk at an entry that no renamed one replaced. -/
theorem walkItems_cons {p : Text × Value} {items done rest : Dict} {written : List Text}
    (hwritten : p.1 ∉ written) (hdone : p.1 ∉ done.map (·.1)) (hrest : p.1 ∉ rest.map (·.1)) :
    walkItems pool visit message parent (p :: items) (done ++ p :: rest) written =
      visitEntry pool visit message parent p >>= fun
        | none => walkItems pool visit message parent items (done ++ rest) written
        | some q => walkItems pool visit message parent items
            (if q.1 = p.1 then done ++ q :: rest else setItem (done ++ rest) q.1 q.2)
            (q.1 :: written) := by
  obtain ⟨key, value⟩ := p
  rw [walkItems, visitEntry]
  simp only [bind, Except.bind]
  rcases splitKey key with e | ⟨base_key, postfixed⟩
  · rfl
  dsimp only
  rcases fieldOf pool message base_key with e | field
  · rfl
  dsimp only
  rcases walkValue pool visit field (parent ++ [some field.number]) value with e | walked
  · rfl
  have hset : setItem (done ++ (key, value) :: rest) key walked = done ++ (key, walked) :: rest :=
    setItem_middle walked hdone hrest
  have hget : getItem (done ++ (key, walked) :: rest) key = .ok walked := by
    rw [getItem, get?_middle hdone]
  have hdel : delItem (done ++ (key, walked) :: rest) key = done ++ rest :=
    delItem_middle hdone hrest
  have hcontains : written.contains key = false := by
    rw [List.contains_eq_mem]
    exact decide_eq_false hwritten
  simp only [hcontains, Bool.false_eq_true, if_false, hset, hget]
  rcases visit _ walked with e | _ | ⟨new_key, new_value⟩
  · rfl
  · simp only [hdel]
  · by_cases hkey : new_key = key
    · subst hkey
      simp only [ne_eq, not_true_eq_false, if_false, if_true, setItem_middle new_value hdone hrest]
    · simp only [ne_eq, Ne.symm hkey, not_false_eq_true, if_true, if_neg hkey, hdel]

theorem visitAll_cons (p : Text × Value) (items : Dict) :
    visitAll pool visit message parent (p :: items) =
      visitEntry pool visit message parent p >>= fun out =>
        (visitAll pool visit message parent items).map fun outs => (p.1, out) :: outs := by
  have hcons : visitAll pool visit message parent (p :: items) = (do
      let out ← (visitEntry pool visit message parent p).map fun out => (p.1, out)
      let outs ← visitAll pool visit message parent items
      pure (out :: outs)) := List.mapM_cons
  rw [hcons]
  cases visitEntry pool visit message parent p with
  | error e => rfl
  | ok out => cases visitAll pool visit message parent items <;> rfl

/-- What has no base key of a dict is no key of it. -/
theorem key_not_mem {key : Text} {kvs : Dict} (h : baseOf key ∉ kvs.map fun p => baseOf p.1) :
    key ∉ kvs.map (·.1) := by
  intro hkey
  obtain ⟨q, hq, rfl⟩ := List.mem_map.mp hkey
  exact h (List.mem_map.mpr ⟨q, hq, rfl⟩)

/-- The walk keeps what stands in the dict apart: what was visited in place, what is still to be
visited, and what was renamed. -/
theorem walkItems_run (items done moved : Dict) (written : List Text)
    (hbases : ((done ++ (items ++ moved)).map fun p => baseOf p.1).Nodup)
    (hwritten : ∀ k ∈ written, ∀ p ∈ items, baseOf k ≠ baseOf p.1)
    (hkeep : ∀ p ∈ items, ∀ q, visitEntry pool visit message parent p = .ok (some q) →
      baseOf q.1 = baseOf p.1) :
    walkItems pool visit message parent items (done ++ (items ++ moved)) written =
      (visitAll pool visit message parent items).map fun outs =>
        (done ++ outs.filterMap stays) ++ (moved ++ outs.filterMap moves) := by
  induction items generalizing done moved written with
  | nil =>
    rw [walkItems]
    simp [visitAll, Except.map, pure, Except.pure]
  | cons p items ih =>
    rw [List.cons_append, List.map_append, List.map_cons, List.nodup_middle, List.nodup_cons,
      ← List.map_append] at hbases
    obtain ⟨hp, hrest⟩ := hbases
    have hparts : baseOf p.1 ∉ done.map (fun p => baseOf p.1) ∧
        baseOf p.1 ∉ (items ++ moved).map fun p => baseOf p.1 := by
      rwa [List.map_append, List.mem_append, not_or] at hp
    have hitems : ∀ q ∈ items, baseOf p.1 ≠ baseOf q.1 := by
      intro q hq heq
      apply hparts.2
      rw [heq]
      exact List.mem_map.mpr ⟨q, List.mem_append_left moved hq, rfl⟩
    have hwritten' : ∀ k ∈ written, ∀ q ∈ items, baseOf k ≠ baseOf q.1 :=
      fun k hk q hq => hwritten k hk q (List.mem_cons_of_mem p hq)
    have hkeep' := fun q hq => hkeep q (List.mem_cons_of_mem p hq)
    have hnot : p.1 ∉ written := fun hm => hwritten p.1 hm p List.mem_cons_self rfl
    rw [List.cons_append, walkItems_cons pool visit message parent hnot (key_not_mem hparts.1)
      (key_not_mem hparts.2), visitAll_cons]
    rcases hout : visitEntry pool visit message parent p with e | _ | q
    · rfl
    · have hrun := ih done moved written hrest hwritten' hkeep'
      simp only [bind, Except.bind, hrun]
      cases visitAll pool visit message parent items <;> rfl
    · have hbase := hkeep p List.mem_cons_self q hout
      have hwrittenq : ∀ k ∈ q.1 :: written, ∀ r ∈ items, baseOf k ≠ baseOf r.1 := by
        intro k hk r hr
        rcases List.mem_cons.mp hk with rfl | hk
        · rw [hbase]
          exact hitems r hr
        · exact hwritten' k hk r hr
      simp only [bind, Except.bind]
      by_cases hkey : q.1 = p.1
      · -- the entry keeps its place
        have hrun := ih (done ++ [q]) moved (q.1 :: written)
          (by
            rw [List.append_assoc, List.map_append, List.singleton_append, List.map_cons,
              List.nodup_middle, List.nodup_cons, ← List.map_append, hbase]
            exact ⟨hp, hrest⟩) hwrittenq hkeep'
        rw [if_pos hkey]
        rw [List.append_assoc, List.singleton_append] at hrun
        rw [hrun]
        cases visitAll pool visit message parent items with
        | error e => rfl
        | ok outs =>
          simp only [Except.map, List.filterMap_cons_some (stays_of_eq hkey).1,
            List.filterMap_cons_none (stays_of_eq hkey).2, List.append_assoc,
            List.singleton_append]
      · -- the entry goes to the end
        have hnew : q.1 ∉ (done ++ (items ++ moved)).map (·.1) := key_not_mem (by rwa [hbase])
        have hrun := ih done (moved ++ [q]) (q.1 :: written)
          (by
            rw [← List.append_assoc, ← List.append_assoc, List.map_append, List.nodup_append,
              List.append_assoc]
            refine ⟨hrest, by simp, ?_⟩
            rintro a ha b hb rfl
            simp only [List.map_cons, List.map_nil, List.mem_singleton] at hb
            rw [hb, hbase] at ha
            exact hp ha) hwrittenq hkeep'
        rw [if_neg hkey, setItem_new q.2 hnew, List.append_assoc, List.append_assoc]
        rw [hrun]
        cases visitAll pool visit message parent items with
        | error e => rfl
        | ok outs =>
          simp only [Except.map, List.filterMap_cons_none (moves_of_ne hkey).1,
            List.filterMap_cons_some (moves_of_ne hkey).2, List.append_assoc,
            List.singleton_append]

/-- The walk visits each entry with its own value. -/
theorem walkItems_eq {items : Dict} (hbases : (items.map fun p => baseOf p.1).Nodup)
    (hkeep : ∀ p ∈ items, ∀ q, visitEntry pool visit message parent p = .ok (some q) →
      baseOf q.1 = baseOf p.1) :
    walkItems pool visit message parent items items [] =
      (visitAll pool visit message parent items).map arrange := by
  have hrun := walkItems_run pool visit message parent items [] [] [] (by simpa using hbases)
    (by simp) hkeep
  rw [List.nil_append, List.append_nil] at hrun
  rw [hrun]
  rfl

/-- Where the visit of an entry raises, the walk raises. -/
theorem walkItems_error {items : Dict} (hbases : (items.map fun p => baseOf p.1).Nodup)
    (hkeep : ∀ p ∈ items, ∀ q, visitEntry pool visit message parent p = .ok (some q) →
      baseOf q.1 = baseOf p.1) {p : Text × Value} {e : Exn} (hp : p ∈ items)
    (h : visitEntry pool visit message parent p = .error e) :
    ∃ e', walkItems pool visit message parent items items [] = .error e' := by
  rw [walkItems_eq pool visit message parent hbases hkeep]
  obtain ⟨e', he'⟩ := mapM_error
    (f := fun p => (visitEntry pool visit message parent p).map fun out => (p.1, out)) hp
    (by rw [h]; rfl)
  exact ⟨e', by unfold visitAll; rw [he']; rfl⟩

theorem arrange_perm (outs : List (Text × Option (Text × Value))) :
    (arrange outs).Perm (outs.filterMap Prod.snd) := by
  induction outs with
  | nil => exact .nil
  | cons out outs ih =>
    obtain ⟨k, _ | q⟩ := out
    · exact ih
    · unfold arrange at ih ⊢
      rw [List.filterMap_cons_some (show ((k, some q) : Text × Option (Text × Value)).2 = some q
        from rfl)]
      by_cases hkey : q.1 = k
      · rw [List.filterMap_cons_some (stays_of_eq hkey).1,
          List.filterMap_cons_none (stays_of_eq hkey).2]
        exact ih.cons q
      · rw [List.filterMap_cons_none (moves_of_ne hkey).1,
          List.filterMap_cons_some (moves_of_ne hkey).2]
        exact List.perm_middle.trans (ih.cons q)

theorem bases_sublist {items : Dict} {outs : List (Text × Option (Text × Value))}
    (h : List.Forall₂ (fun p o => ∀ q, o.2 = some q → baseOf q.1 = baseOf p.1) items outs) :
    ((outs.filterMap Prod.snd).map fun q => baseOf q.1).Sublist
      (items.map fun p => baseOf p.1) := by
  induction h with
  | nil => exact .slnil
  | @cons p o _ _ hpo _ ih =>
    obtain ⟨k, _ | q⟩ := o
    · exact ih.cons (baseOf p.1)
    · rw [List.filterMap_cons_some (show ((k, some q) : Text × Option (Text × Value)).2 = some q
        from rfl), List.map_cons, List.map_cons, hpo q rfl]
      exact ih.cons_cons (baseOf p.1)

/-- What the walk leaves, where the visit of each entry returns: each entry of the result comes
from one of `items`, and each of `items` has gone or has its place in the result. -/
theorem walkItems_entries {R : Text × Value → Option (Text × Value) → Prop} {items : Dict}
    (hbases : (items.map fun p => baseOf p.1).Nodup)
    (h : ∀ p ∈ items, ∃ out, visitEntry pool visit message parent p = .ok out ∧
      (∀ q, out = some q → baseOf q.1 = baseOf p.1) ∧ R p out) :
    ∃ obj, walkItems pool visit message parent items items [] = .ok obj ∧
      (obj.map fun q => baseOf q.1).Nodup ∧ (∀ q ∈ obj, ∃ p ∈ items, R p (some q)) ∧
      ∀ p ∈ items, R p none ∨ ∃ q ∈ obj, R p (some q) := by
  have hkeep : ∀ p ∈ items, ∀ q, visitEntry pool visit message parent p = .ok (some q) →
      baseOf q.1 = baseOf p.1 := by
    intro p hp q hq
    obtain ⟨out, hout, hbase, -⟩ := h p hp
    exact hbase q (Except.ok.inj (hout.symm.trans hq))
  obtain ⟨outs, houts, hall⟩ := mapM_forall₂
    (f := fun p => (visitEntry pool visit message parent p).map fun out => (p.1, out))
    (R := fun p o => o.1 = p.1 ∧ (∀ q, o.2 = some q → baseOf q.1 = baseOf p.1) ∧ R p o.2)
    (l := items) (by
      intro p hp
      obtain ⟨out, hout, hbase, hR⟩ := h p hp
      exact ⟨(p.1, out), by rw [hout]; rfl, rfl, hbase, hR⟩)
  refine ⟨arrange outs, ?_, ?_, ?_, ?_⟩
  · rw [walkItems_eq pool visit message parent hbases hkeep, visitAll, houts]
    rfl
  · rw [((arrange_perm outs).map _).nodup_iff]
    exact hbases.sublist (bases_sublist (hall.imp fun p o ho => ho.2.1))
  · intro q hq
    obtain ⟨k, hk⟩ := mem_arrange.mp hq
    obtain ⟨p, hp, -, -, hR⟩ := forall₂_right hall hk
    exact ⟨p, hp, hR⟩
  · intro p hp
    obtain ⟨⟨k, _ | q⟩, ho, -, -, hR⟩ := forall₂_left hall hp
    · exact Or.inl hR
    · exact Or.inr ⟨q, mem_arrange.mpr ⟨k, ho⟩, hR⟩

/-! ## Lists and maps of messages -/

theorem walkList_eq (address : Address) (vs : List Value) :
    walkList pool visit message address vs = vs.mapM (walkChild pool visit message address) := by
  induction vs with
  | nil => rw [walkList, List.mapM_nil]; rfl
  | cons v vs ih => rw [walkList, List.mapM_cons, ih]

theorem walkMap_eq (address : Address) (kvs : Dict) :
    walkMap pool visit message address kvs = kvs.mapM fun p =>
      (walkChild pool visit message address p.2).map fun v => (p.1, v) := by
  induction kvs with
  | nil => rw [walkMap, List.mapM_nil]; rfl
  | cons p kvs ih =>
    obtain ⟨k, v⟩ := p
    rw [walkMap, List.mapM_cons, ih]
    cases walkChild pool visit message address v <;> rfl

end

/-! ## Elements -/

section
variable {env : Packages} {cv : UnitConverter} {mode : ReadMode} {filter_values : Bool}
variable {maskMode : MaskMode} {maskFields : List MaskField} {element : OptionElement}

theorem decodeElement_filtered (h : filtered mode filter_values element.field.opts = true)
    (v : Value) :
    decodeElement env cv mode filter_values maskMode maskFields element v = .ok none := by
  unfold decodeElement
  simp only [h, if_true]
  rfl

/-- A value that is no list. -/
theorem decodeElement_scalar (h : filtered mode filter_values element.field.opts = false)
    {user_unit : Text} (huser : to_user_unit cv element.field.opts.unit.Name = .ok user_unit)
    {v : Value} (hv : ∀ vs, v ≠ .list vs) :
    decodeElement env cv mode filter_values maskMode maskFields element v =
      if element.field.opts.omit_if_zero && isZero v then .ok none
      else (decode_value env cv mode element.field.opts
          (excludes maskMode maskFields element.address) user_unit v).map fun x =>
        some (decodedKey mode element.field.opts user_unit element.key, x) := by
  unfold decodeElement
  simp only [h, huser, ok_bind, Bool.false_eq_true, if_false]
  cases v with
  | list vs => exact absurd rfl (hv vs)
  | none | bool | int | float | str | dict =>
    split
    · rfl
    · exact bind_pure_eq_map _ _

theorem decodeElement_list (h : filtered mode filter_values element.field.opts = false)
    {user_unit : Text} (huser : to_user_unit cv element.field.opts.unit.Name = .ok user_unit)
    (vs : List Value) :
    decodeElement env cv mode filter_values maskMode maskFields element (.list vs) =
      ((if element.field.opts.omit_if_zero then vs.filter (! isZero ·) else vs).mapM
        (decode_value env cv mode element.field.opts
          (excludes maskMode maskFields element.address) user_unit)).map fun xs =>
        some (decodedKey mode element.field.opts user_unit element.key, .list xs) := by
  unfold decodeElement
  simp only [h, huser, ok_bind, Bool.false_eq_true, if_false]
  exact bind_pure_eq_map _ _

theorem encodeElement_stripped (h : stripped filter_values element.field.opts = true)
    (v : Value) : encodeElement env cv filter_values element v = .ok none := by
  unfold encodeElement
  simp only [h, if_true]
  rfl

theorem encodeElement_none : encodeElement env cv filter_values element .none = .ok none := by
  unfold encodeElement
  split <;> rfl

/-- A value that is no list, and not null. -/
theorem encodeElement_scalar (h : stripped filter_values element.field.opts = false) {v : Value}
    (hv : ∀ vs, v ≠ .list vs) (hnone : isNone v = false) :
    encodeElement env cv filter_values element v =
      (encode_value env cv element v).map fun w => some (element.base_key, w) := by
  unfold encodeElement
  simp only [h, Bool.false_eq_true, if_false]
  cases v with
  | list vs => exact absurd rfl (hv vs)
  | none => cases hnone
  | bool | int | float | str | dict => exact bind_pure_eq_map _ _

theorem encodeElement_list (h : stripped filter_values element.field.opts = false)
    (vs : List Value) : encodeElement env cv filter_values element (.list vs) =
      ((vs.filter (! isNone ·)).mapM (encode_value env cv element)).map fun ws =>
        some (element.base_key, .list ws) := by
  unfold encodeElement
  simp only [h, Bool.false_eq_true, if_false]
  exact bind_pure_eq_map _ _

end

end devcon_spark.codec.processor
