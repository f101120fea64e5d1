-- The laws of relations. One relation for each link that counts, in document
-- order, and a mark on the first one between a claimant and what it claims.
import DevconSpark.ClaimLaws

open py_text py_dict py_number py_value devcon_spark.exceptions devcon_spark.models
open devcon_spark.codec.bloxfield

namespace devcon_spark.block_analysis

/-! ## Documents -/

inductive Step
  | key (k : Text)
  | index (idx : Nat)
  deriving DecidableEq

def Step.text : Step → Text
  | .key k => k
  | .index idx => natText idx

/-- A value in a document: the path to it, and the values that the path goes through. -/
structure Node where
  path : List Step
  above : List Value
  value : Value

mutual

/-- A value and all that it holds, in document order. -/
def nodes (path : List Step) (above : List Value) (v : Value) : List Node :=
  { path, above, value := v } ::
    match v with
    | .dict kvs => itemNodes path (above ++ [v]) kvs
    | .list vs => elementNodes path (above ++ [v]) 0 vs
    | _ => []

def itemNodes (path : List Step) (above : List Value) : Dict → List Node
  | [] => []
  | (k, v) :: kvs => nodes (path ++ [.key k]) above v ++ itemNodes path above kvs

def elementNodes (path : List Step) (above : List Value) (idx : Nat) : List Value → List Node
  | [] => []
  | v :: vs => nodes (path ++ [.index idx]) above v ++ elementNodes path above (idx + 1) vs

end

/-- No key of the path is the name of an ignored field. -/
def clearPath (path : List Step) : Bool :=
  path.all fun
    | .key k => k ∉ IGNORED_RELATION_FIELDS
    | .index _ => true

/-- What holds of the way to a link that counts. -/
def clear (path : List Step) (above : List Value) : Bool :=
  clearPath path && above.all fun v => ! is_bloxfield v

def Node.counts (node : Node) : Bool := clear node.path node.above && is_defined_link node.value

theorem clear_snoc {path : List Step} {above : List Value} (step : Step) :
    clear (path ++ [step]) above = (clear path above && clearPath [step]) := by
  unfold clear clearPath
  simp only [List.all_append, Bool.and_assoc, Bool.and_comm]

theorem clear_above {path : List Step} {above : List Value} (v : Value) :
    clear path (above ++ [v]) = (clear path above && ! is_bloxfield v) := by
  unfold clear
  simp only [List.all_append, List.all_cons, List.all_nil, Bool.and_true, Bool.and_assoc]

theorem clear_below {path : List Step} {above : List Value} (h : clear path above = false)
    (v : Value) (step : Step) : clear (path ++ [step]) (above ++ [v]) = false := by
  simp [clear_snoc, clear_above, h]

theorem itemNodes_none {path : List Step} {above : List Value} {kvs : Dict}
    (h : ∀ p ∈ kvs, (nodes (path ++ [.key p.1]) above p.2).filter Node.counts = []) :
    (itemNodes path above kvs).filter Node.counts = [] := by
  induction kvs with
  | nil => rfl
  | cons p kvs ih =>
    rw [itemNodes, List.filter_append, h p List.mem_cons_self,
      ih fun q hq => h q (List.mem_cons_of_mem _ hq), List.append_nil]

theorem elementNodes_none {path : List Step} {above : List Value} {vs : List Value} {idx : Nat}
    (h : ∀ v ∈ vs, ∀ idx, (nodes (path ++ [.index idx]) above v).filter Node.counts = []) :
    (elementNodes path above idx vs).filter Node.counts = [] := by
  induction vs generalizing idx with
  | nil => rfl
  | cons v vs ih =>
    rw [elementNodes, List.filter_append, h v List.mem_cons_self,
      ih fun w hw => h w (List.mem_cons_of_mem _ hw), List.append_nil]

/-- Nothing counts where the way to it is not clear. -/
theorem nodes_not_clear (v : Value) {path : List Step} {above : List Value}
    (h : clear path above = false) : (nodes path above v).filter Node.counts = [] := by
  induction v using value_induction generalizing path above with
  | list vs ih =>
    rw [nodes, List.filter_cons_of_neg (by simp [Node.counts, h])]
    apply elementNodes_none
    intro v hv idx
    exact ih v hv (clear_below h _ _)
  | dict kvs ih =>
    rw [nodes, List.filter_cons_of_neg (by simp [Node.counts, h])]
    apply itemNodes_none
    intro p hp
    exact ih p hp (clear_below h _ _)
  | _ => simp [nodes, Node.counts, h]

/-- Nothing counts below a bloxfield. -/
theorem nodes_bloxfield {v : Value} {path : List Step} {above : List Value}
    (h : is_bloxfield v = true) :
    (nodes path above v).filter Node.counts =
      [{ path, above, value := v : Node }].filter Node.counts := by
  have hbelow : ∀ step, clear (path ++ [step]) (above ++ [v]) = false := by
    simp [clear_snoc, clear_above, h]
  cases v with
  | dict kvs =>
    rw [nodes, ← List.singleton_append, List.filter_append,
      itemNodes_none fun p _ => nodes_not_clear p.2 (hbelow _), List.append_nil]
  | _ => cases h

/-! ## What is found in one block -/

def isInverted : List Step → Bool
  | .key k :: _ => k ∈ INVERTED_RELATION_FIELDS
  | _ => false

/-- A relation says what a link in a block says: its path, and its ends, which are swapped where
the first key is that of an inverted field. -/
structure Carries (id : Option String) (node : Node) (r : BlockRelation) : Prop where
  relation : r.relation = node.path.map Step.text
  ends : if isInverted node.path then linkTarget node.value = some r.source ∧ id = some r.target
    else id = some r.source ∧ linkTarget node.value = some r.target

/-- A relation as it is found has no mark. -/
def Found (id : Option String) (node : Node) (r : BlockRelation) : Prop :=
  Carries id node r ∧ r.claimed = false

theorem natText_not_mem {idx : Nat} {names : List Text} (h : ∀ t ∈ names, isdigit t = false) :
    natText idx ∉ names := by
  intro hmem
  have hdigit := h _ hmem
  rw [natText_isdigit] at hdigit
  cases hdigit

theorem last_not_ignored {path : List Step} (h : clearPath path = true) :
    ¬ (path.map Step.text).getLast?.any (· ∈ IGNORED_RELATION_FIELDS) = true := by
  rw [List.getLast?_map, Option.any_map, Bool.not_eq_true]
  cases hlast : path.getLast? with
  | none => rfl
  | some step =>
    have hstep := List.all_eq_true.mp h step (List.mem_of_getLast? hlast)
    cases step with
    | key k => exact decide_eq_false (of_decide_eq_true hstep)
    | index idx =>
      have hnot : natText idx ∉ IGNORED_RELATION_FIELDS := natText_not_mem (by decide)
      exact decide_eq_false hnot

theorem head_inverted (path : List Step) :
    (path.map Step.text).head?.any (· ∈ INVERTED_RELATION_FIELDS) = isInverted path := by
  cases path with
  | nil => rfl
  | cons step path =>
    cases step with
    | key k => rfl
    | index idx =>
      have hnot : natText idx ∉ INVERTED_RELATION_FIELDS := natText_not_mem (by decide)
      simpa [Step.text, isInverted] using hnot

theorem newRelation_text (source target : String) (relation : List Text) :
    newRelation (idValue (some source)) (idValue (some target)) relation =
      .ok { source, target, relation } := by
  simp [newRelation, idValue, strField, bind, Except.bind, pure, Except.pure]

/-- A defined link has the name of a block. -/
theorem defined_link_read {v : Value} (h : is_defined_link v = true) (hread : LinkRead v) :
    ∃ target, subscript v "id".toList = .ok (idValue (some target)) ∧
      linkTarget v = some target := by
  cases v with
  | dict kvs =>
    obtain ⟨id, hid, htext⟩ := hread
    have hsome : truthy id = true := by
      simp only [is_defined_link, hasValue, hid, Option.any_some, Bool.and_eq_true] at h
      exact h.1.2
    rcases htext with rfl | ⟨t, rfl⟩
    · cases hsome
    · have hne : t ≠ [] := by simpa [truthy] using hsome
      refine ⟨String.ofList t, ?_, ?_⟩
      · unfold subscript getItem
        simp only [hid, idValue, String.toList_ofList]
      · simp only [linkTarget, hid, if_neg hne]
  | _ => cases h

theorem linkRelation_found {node : Node} (id : String) {target : String}
    (h : linkTarget node.value = some target) :
    ∃ r, linkRelation (idValue (some id)) (idValue (some target)) (node.path.map Step.text) =
      .ok r ∧ Found (some id) node r := by
  unfold linkRelation
  rw [head_inverted, newRelation_text, newRelation_text]
  by_cases hinverted : isInverted node.path = true
  · rw [if_pos hinverted]
    exact ⟨_, rfl, ⟨rfl, by simp [hinverted, h]⟩, rfl⟩
  · rw [if_neg hinverted]
    exact ⟨_, rfl, ⟨rfl, by simp [hinverted, h]⟩, rfl⟩

/-- What a search of a part of a document gives: a relation for each node that counts. -/
def Finds (id : Option String) (x : Except Exn (List BlockRelation)) (found : List Node) : Prop :=
  ∃ rs, x = .ok rs ∧ List.Forall₂ (Found id) (found.filter Node.counts) rs

theorem finds_nil (id : Option String) {found : List Node} (h : found.filter Node.counts = []) :
    Finds id (.ok []) found := ⟨[], rfl, h ▸ .nil⟩

theorem finds_append {id : Option String} {x y : Except Exn (List BlockRelation)}
    {found found' : List Node} (h : Finds id x found) (h' : Finds id y found') :
    Finds id (do return (← x) ++ (← y)) (found ++ found') := by
  obtain ⟨rs, rfl, hrs⟩ := h
  obtain ⟨rs', rfl, hrs'⟩ := h'
  refine ⟨rs ++ rs', rfl, ?_⟩
  rw [List.filter_append]
  exact List.rel_append hrs hrs'

/-- A search finds what counts below a value, for any way that leads to it. -/
def Searched (id : String) (v : Value) : Prop :=
  ∀ (path : List Step) (above : List Value), clear path above = true →
    (∀ node ∈ nodes path above v, node.counts = true → LinkRead node.value) →
    Finds (some id) (_find_nested_relations (idValue (some id)) (path.map Step.text) v)
      (nodes path above v)

theorem map_snoc_text (path : List Step) (step : Step) :
    path.map Step.text ++ [step.text] = (path ++ [step]).map Step.text := by simp

theorem itemRelations_searched {id : String} {kvs : Dict} (h : ∀ p ∈ kvs, Searched id p.2)
    {path : List Step} {above : List Value} (hclear : clear path above = true)
    (hread : ∀ node ∈ itemNodes path above kvs, node.counts = true → LinkRead node.value) :
    Finds (some id) (itemRelations (idValue (some id)) (path.map Step.text) kvs)
      (itemNodes path above kvs) := by
  induction kvs with
  | nil => exact finds_nil _ rfl
  | cons p kvs ih =>
    have hrest := ih (fun q hq => h q (List.mem_cons_of_mem _ hq)) fun node hnode =>
      hread node (by rw [itemNodes]; exact List.mem_append_right _ hnode)
    refine finds_append ?_ hrest
    have hpath : path.map Step.text ++ [p.1] = (path ++ [Step.key p.1]).map Step.text :=
      map_snoc_text path (.key p.1)
    rw [hpath]
    by_cases hkey : clearPath [.key p.1] = true
    · exact h p List.mem_cons_self _ _ (by simp [clear_snoc, hclear, hkey]) fun node hnode =>
        hread node (by rw [itemNodes]; exact List.mem_append_left _ hnode)
    · -- The key is the name of an ignored field.
      rw [Bool.not_eq_true] at hkey
      have hignored : p.1 ∈ IGNORED_RELATION_FIELDS := by simpa [clearPath] using hkey
      rw [_find_nested_relations.eq_def, if_pos (by simpa [Step.text] using hignored)]
      exact finds_nil _ (nodes_not_clear _ (by rw [clear_snoc, hkey, Bool.and_false]))

theorem elementRelations_searched {id : String} {vs : List Value} (h : ∀ v ∈ vs, Searched id v)
    {path : List Step} {above : List Value} (hclear : clear path above = true) {idx : Nat}
    (hread : ∀ node ∈ elementNodes path above idx vs, node.counts = true → LinkRead node.value) :
    Finds (some id) (elementRelations (idValue (some id)) (path.map Step.text) idx vs)
      (elementNodes path above idx vs) := by
  induction vs generalizing idx with
  | nil => exact finds_nil _ rfl
  | cons v vs ih =>
    have hrest := ih (fun w hw => h w (List.mem_cons_of_mem _ hw)) fun node hnode =>
      hread node (by rw [elementNodes]; exact List.mem_append_right _ hnode)
    refine finds_append ?_ hrest
    have hpath : path.map Step.text ++ [natText idx] = (path ++ [Step.index idx]).map Step.text :=
      map_snoc_text path (.index idx)
    rw [hpath]
    exact h v List.mem_cons_self _ _ (by simp [clear_snoc, hclear, clearPath]) fun node hnode =>
      hread node (by rw [elementNodes]; exact List.mem_append_left _ hnode)

theorem is_bloxfield_of_get? {kvs : Dict} {v : Value}
    (h : get? kvs "__bloxtype".toList = some v) : is_bloxfield (.dict kvs) = true := by
  by_contra hnot
  have hmem : "__bloxtype".toList ∉ kvs.map (·.1) := by
    intro hmem
    obtain ⟨p, hp, hk⟩ := List.mem_map.mp hmem
    exact hnot (List.any_eq_true.mpr ⟨p, hp, decide_eq_true hk⟩)
  cases h.symm.trans (get?_of_not_mem hmem)

theorem link_is_bloxfield {v : Value} (h : is_defined_link v = true) : is_bloxfield v = true := by
  cases v with
  | dict kvs =>
    have hlink : is_link (.dict kvs) = true := by
      simp only [is_defined_link, Bool.and_eq_true] at h
      exact h.1.1
    unfold is_link isType at hlink
    cases htype : get? kvs "__bloxtype".toList with
    | none =>
      simp only [htype] at hlink
      cases hlink
    | some t => exact is_bloxfield_of_get? htype
  | _ => cases h

/-- A bloxfield stops the search: with a relation where it is a defined link, or without. -/
theorem bloxfield_searched (id : String) {v : Value} (h : is_bloxfield v = true) :
    Searched id v := by
  intro path above hclear hread
  have hpath : clearPath path = true := (Bool.and_eq_true_iff.mp hclear).1
  rw [_find_nested_relations.eq_def, if_neg (last_not_ignored hpath)]
  by_cases hlink : is_defined_link v = true
  · have hcounts : Node.counts { path, above, value := v } = true := by
      simp [Node.counts, hclear, hlink]
    have hself : { path, above, value := v : Node } ∈ nodes path above v := by
      rw [nodes.eq_def]
      exact List.mem_cons_self
    obtain ⟨target, hid, htarget⟩ := defined_link_read hlink (hread _ hself hcounts)
    obtain ⟨r, hr, hfound⟩ := @linkRelation_found { path, above, value := v } id target htarget
    rw [if_pos hlink, hid, ok_bind, hr, ok_bind]
    refine ⟨[r], rfl, ?_⟩
    rw [nodes_bloxfield h, List.filter_cons_of_pos hcounts]
    exact .cons hfound .nil
  · rw [if_neg hlink, if_pos h]
    apply finds_nil
    rw [nodes_bloxfield h, List.filter_cons_of_neg (by simp [Node.counts, hlink])]
    rfl

/-- Any other value is no relation itself. -/
theorem finds_below {id : Option String} {x : Except Exn (List BlockRelation)} {v : Value}
    {path : List Step} {above : List Value} {below : List Node}
    (hnot : is_bloxfield v = false) (h : Finds id x below) :
    Finds id x ({ path, above, value := v } :: below) := by
  have hlink : is_defined_link v = false := by
    by_contra hdefined
    rw [link_is_bloxfield (by simpa using hdefined)] at hnot
    cases hnot
  obtain ⟨rs, hx, hrs⟩ := h
  refine ⟨rs, hx, ?_⟩
  rw [List.filter_cons_of_neg (by simp [Node.counts, hlink])]
  exact hrs

/-- The relations in the parts of a value. -/
def partRelations (parent_id : Value) (relation : List Text) (v : Value) :
    Except Exn (List BlockRelation) :=
  match v with
  | .dict kvs => itemRelations parent_id relation kvs
  | .list vs => elementRelations parent_id relation 0 vs
  | .none | .bool _ | .int _ | .float _ | .str _ => .ok []

/-- The search through a value that is no bloxfield. -/
theorem find_nested_relations_of_not {id : String} {path : List Step} {v : Value}
    (hpath : clearPath path = true) (hnot : is_bloxfield v = false) :
    _find_nested_relations (idValue (some id)) (path.map Step.text) v =
      partRelations (idValue (some id)) (path.map Step.text) v := by
  have hlink : ¬ is_defined_link v = true := by
    intro hdefined
    rw [link_is_bloxfield hdefined] at hnot
    cases hnot
  rw [_find_nested_relations.eq_def, if_neg (last_not_ignored hpath), if_neg hlink,
    if_neg (by simp [hnot])]
  cases v <;> rfl

theorem find_nested_relations_searched (id : String) (v : Value) : Searched id v := by
  induction v using value_induction with
  | dict kvs ih =>
    by_cases hblox : is_bloxfield (.dict kvs) = true
    · exact bloxfield_searched id hblox
    · intro path above hclear hread
      rw [Bool.not_eq_true] at hblox
      rw [find_nested_relations_of_not (Bool.and_eq_true_iff.mp hclear).1 hblox, nodes]
      apply finds_below hblox
      apply itemRelations_searched ih (by simp [clear_above, hclear, hblox])
      intro node hnode
      apply hread
      rw [nodes]
      exact List.mem_cons_of_mem _ hnode
  | list vs ih =>
    intro path above hclear hread
    rw [find_nested_relations_of_not (Bool.and_eq_true_iff.mp hclear).1 rfl, nodes]
    apply finds_below rfl
    apply elementRelations_searched ih (by simp [clear_above, hclear, is_bloxfield])
    intro node hnode
    apply hread
    rw [nodes]
    exact List.mem_cons_of_mem _ hnode
  | _ =>
    intro path above hclear _
    rw [find_nested_relations_of_not (Bool.and_eq_true_iff.mp hclear).1 rfl, nodes.eq_def]
    exact finds_below rfl (finds_nil _ rfl)

/-! ## The first pass -/

/-- The blocks whose relations count. -/
def relatedBlocks (blocks : List Block) : List Block :=
  blocks.filter (·.type ∉ IGNORED_RELATION_TYPES)

/-- The links of a block that count, in document order. -/
def countedNodes (block : Block) : List Node :=
  (nodes [] [] (.dict block.data)).filter Node.counts

def countedLinks (blocks : List Block) : List (Option String × Node) :=
  (relatedBlocks blocks).flatMap fun block => (countedNodes block).map fun node => (block.id, node)

/-- A block that was read has links to blocks by their names. -/
structure LinksRead (block : Block) : Prop where
  named : ∃ id, block.id = some id
  claimedBy : ∀ link ∈ get? block.data "claimedBy".toList, LinkRead link
  links : ∀ node ∈ countedNodes block, LinkRead node.value

theorem foundRelations_read {blocks : List Block} (h : ∀ b ∈ blocks, LinksRead b) :
    ∃ rs, foundRelations blocks = .ok rs ∧
      List.Forall₂ (fun link r => Found link.1 link.2 r) (countedLinks blocks) rs := by
  induction blocks with
  | nil => exact ⟨[], rfl, .nil⟩
  | cons b blocks ih =>
    obtain ⟨rest, hrest, hcarries⟩ := ih fun c hc => h c (List.mem_cons_of_mem _ hc)
    unfold foundRelations countedLinks relatedBlocks
    by_cases hignored : b.type ∈ IGNORED_RELATION_TYPES
    · rw [if_pos hignored, List.filter_cons_of_neg (by simpa using hignored)]
      exact ⟨rest, hrest, hcarries⟩
    · have hb := h b List.mem_cons_self
      obtain ⟨id, hid⟩ := hb.named
      obtain ⟨rs, hrs, hfound⟩ := find_nested_relations_searched id (.dict b.data) [] [] rfl
        fun node hnode hcounts => hb.links node (List.mem_filter.mpr ⟨hnode, hcounts⟩)
      rw [if_neg hignored, List.filter_cons_of_pos (by simpa using hignored), List.flatMap_cons,
        hid]
      refine ⟨rs ++ rest, ?_, ?_⟩
      · rw [List.map_nil] at hrs
        rw [hrs, ok_bind, hrest]
        rfl
      · refine List.rel_append ?_ hcarries
        rw [List.forall₂_map_left_iff]
        exact hfound

/-! ## The second pass -/

def ends (r : BlockRelation) : String × String := (r.source, r.target)

theorem markClaimed_cons (source target : String) (r : BlockRelation) (rs : List BlockRelation) :
    markClaimed (idValue (some source)) (some target) (r :: rs) =
      if ends r = (source, target) then { r with claimed := true } :: rs
      else r :: markClaimed (idValue (some source)) (some target) rs := by
  have hmatch : (some r.target = some target ∧
      isStr r.source.toList (idValue (some source)) = true) ↔ ends r = (source, target) := by
    simp only [isStr, idValue, ends, Option.some_inj, decide_eq_true_eq, String.toList_inj,
      Prod.mk.injEq]
    exact ⟨fun h => ⟨h.2.symm, h.1⟩, fun h => ⟨h.2, h.1.symm⟩⟩
  unfold markClaimed
  rw [List.replaceF_cons]
  by_cases hr : ends r = (source, target)
  · simp only [if_pos (hmatch.mpr hr), if_pos hr]
  · simp only [if_neg (mt hmatch.mp hr), if_neg hr]

/-- A mark is put on the first relation with both ends. -/
theorem markClaimed_getElem? (source target : String) (rs : List BlockRelation) (i : Nat) :
    (markClaimed (idValue (some source)) (some target) rs)[i]? = rs[i]?.map fun r =>
      if ends r = (source, target) ∧ (source, target) ∉ (rs.map ends).take i
        then { r with claimed := true } else r := by
  induction rs generalizing i with
  | nil => simp [markClaimed]
  | cons r rs ih =>
    rw [markClaimed_cons]
    by_cases hr : ends r = (source, target)
    · rw [if_pos hr]
      cases i with
      | zero => simp [hr]
      | succ i => simp [hr]
    · rw [if_neg hr]
      cases i with
      | zero => simp [hr]
      | succ i => simp [ih, Ne.symm hr]

/-- Marks leave the ends and the paths as they are. -/
def unmarked (r : BlockRelation) : BlockRelation := { r with claimed := false }

theorem markClaimed_unmarked (source target : String) (rs : List BlockRelation) :
    (markClaimed (idValue (some source)) (some target) rs).map unmarked = rs.map unmarked := by
  apply List.ext_getElem?
  intro i
  rw [List.getElem?_map, List.getElem?_map, markClaimed_getElem?, Option.map_map]
  congr 1
  funext r
  dsimp only [Function.comp_apply]
  split <;> rfl

theorem map_ends_of_unmarked {rs rs' : List BlockRelation}
    (h : rs'.map unmarked = rs.map unmarked) : rs'.map ends = rs.map ends := by
  have hends : ∀ l : List BlockRelation, l.map ends = (l.map unmarked).map ends := by
    intro l
    rw [List.map_map]
    rfl
  rw [hends, h, ← hends]

/-- What was marked for some blocks: the first relation of each of their claims. -/
def Marked (blocks : List Block) (rs : List BlockRelation) : Prop :=
  ∀ i r, rs[i]? = some r → (r.claimed = true ↔ ends r ∉ (rs.map ends).take i ∧
    ∃ b ∈ blocks, b.id = some r.target ∧ claimant b = some r.source)

theorem markBlock_read {block : Block} (h : LinksRead block) (rs : List BlockRelation) :
    ∃ rs', markBlock rs block = .ok rs' ∧ rs'.map unmarked = rs.map unmarked ∧
      ∀ blocks, Marked blocks rs → Marked (blocks ++ [block]) rs' := by
  obtain ⟨id, hid⟩ := h.named
  unfold markBlock
  rw [linkedId_getD h.claimedBy, ok_bind, ← claimant]
  cases hclaimant : claimant block with
  | none =>
    refine ⟨rs, rfl, rfl, fun blocks hmarked i r hr => ?_⟩
    rw [hmarked i r hr]
    simp [hclaimant]
  | some source =>
    rw [Option.map_some, hid]
    refine ⟨_, rfl, markClaimed_unmarked source id rs, fun blocks hmarked i r' hr' => ?_⟩
    rw [map_ends_of_unmarked (markClaimed_unmarked source id rs)]
    rw [markClaimed_getElem?, Option.map_eq_some_iff] at hr'
    obtain ⟨r, hr, rfl⟩ := hr'
    have hbefore := hmarked i r hr
    by_cases hends : ends r = (source, id)
    · obtain ⟨hsource, htarget⟩ := Prod.mk.inj hends
      by_cases hfirst : (source, id) ∉ (rs.map ends).take i
      · rw [if_pos ⟨hends, hfirst⟩]
        refine iff_of_true rfl ⟨?_, block, by simp, ?_, ?_⟩
        · exact hends.symm ▸ hfirst
        · exact hid.trans (congrArg some htarget.symm)
        · exact hclaimant.trans (congrArg some hsource.symm)
      · rw [if_neg fun h => hfirst h.2, hbefore, hends]
        exact iff_of_false (fun h => hfirst h.1) fun h => hfirst h.1
    · rw [if_neg fun h => hends h.1, hbefore]
      have hother : ¬ (block.id = some r.target ∧ claimant block = some r.source) := by
        rintro ⟨htarget, hsource⟩
        rw [hid, Option.some_inj] at htarget
        rw [hclaimant, Option.some_inj] at hsource
        exact hends (by rw [ends, htarget, hsource])
      simp only [List.mem_append, List.mem_singleton, or_and_right, exists_or,
        exists_eq_left, hother, or_false]

/-- The marks of all blocks. -/
theorem markBlocks_read {todo : List Block} (h : ∀ b ∈ todo, LinksRead b) {done : List Block}
    {rs : List BlockRelation} (hmarked : Marked done rs) :
    ∃ rs', todo.foldlM markBlock rs = .ok rs' ∧ rs'.map unmarked = rs.map unmarked ∧
      Marked (done ++ todo) rs' := by
  induction todo generalizing done rs with
  | nil => exact ⟨rs, rfl, rfl, by rwa [List.append_nil]⟩
  | cons b todo ih =>
    obtain ⟨rs₁, hrs₁, hsame₁, hstep⟩ := markBlock_read (h b List.mem_cons_self) rs
    obtain ⟨rs₂, hrs₂, hsame₂, hrest⟩ :=
      ih (fun c hc => h c (List.mem_cons_of_mem _ hc)) (hstep done hmarked)
    refine ⟨rs₂, ?_, hsame₂.trans hsame₁, by rwa [List.append_cons]⟩
    rw [List.foldlM_cons, hrs₁, ok_bind, hrs₂]

/-- One relation for each link that counts, and a mark on the first relation between a claimant
and the block that it claims. -/
theorem relations_are_complete_and_exact {blocks : List Block} (hread : ∀ b ∈ blocks, LinksRead b)
    (hids : (blocks.map (·.id)).Nodup) :
    ∃ relations, calculate_relations blocks = .ok relations ∧
      List.Forall₂ (fun link r => Carries link.1 link.2 r) (countedLinks blocks) relations ∧
      ∀ i r, relations[i]? = some r → (r.claimed = true ↔
        (∀ q ∈ relations.take i, ¬ (q.source = r.source ∧ q.target = r.target)) ∧
        claimantOf blocks r.target = some r.source) := by
  obtain ⟨found, hfound, hlinks⟩ := foundRelations_read hread
  have hunmarked : Marked [] found := by
    intro i r hr
    obtain ⟨link, -, hlink⟩ := forall₂_right hlinks (List.mem_of_getElem? hr)
    simp [hlink.2]
  obtain ⟨relations, hrelations, hsame, hmarked⟩ := markBlocks_read hread hunmarked
  refine ⟨relations, ?_, ?_, ?_⟩
  · rw [calculate_relations, hfound, ok_bind, hrelations]
  · have hcarries : List.Forall₂ (fun link r => Carries link.1 link.2 r) (countedLinks blocks)
        (found.map unmarked) := by
      rw [List.forall₂_map_right_iff]
      exact hlinks.imp fun link r h => ⟨h.1.relation, h.1.ends⟩
    rw [← hsame, List.forall₂_map_right_iff] at hcarries
    exact hcarries.imp fun link r h => ⟨h.relation, h.ends⟩
  · intro i r hr
    rw [hmarked i r hr, List.nil_append, claimantOf_eq_some_iff hids]
    simp only [← List.map_take, List.mem_map, ends, Prod.mk.injEq, not_exists, not_and]

/-! ## A driver and its target -/

def sampleDriver : Block :=
  { id := some "PID", type := "Pid"
    data := [("inputId".toList, sampleLink "Setpoint"), ("enabled".toList, .bool true),
      ("outputs".toList, .list [.int 1, sampleLink "PWM", sampleLink "PWM"])] }

theorem sampleClaimed_links (id source : String) : LinksRead (sampleClaimed id source) where
  named := ⟨id, rfl⟩
  claimedBy link hlink := by
    cases hlink
    exact sampleLink_read source
  links node hnode := by cases hnode

theorem sampleDriver_values : (countedNodes sampleDriver).map (·.value) =
    [sampleLink "Setpoint", sampleLink "PWM", sampleLink "PWM"] := rfl

theorem sampleDriver_links : LinksRead sampleDriver where
  named := ⟨_, rfl⟩
  claimedBy link hlink := by cases hlink
  links node hnode := by
    have hvalue : node.value ∈ (countedNodes sampleDriver).map (·.value) :=
      List.mem_map_of_mem hnode
    rw [sampleDriver_values] at hvalue
    simp only [List.mem_cons, List.not_mem_nil, or_false] at hvalue
    rcases hvalue with h | h | h <;> exact h ▸ sampleLink_read _

theorem relations_are_complete_and_exact_sample :
    ∃ relations, calculate_relations [sampleDriver, sampleClaimed "PWM" "PID"] = .ok relations ∧
      List.Forall₂ (fun link r => Carries link.1 link.2 r)
        (countedLinks [sampleDriver, sampleClaimed "PWM" "PID"]) relations ∧
      ∀ i r, relations[i]? = some r → (r.claimed = true ↔
        (∀ q ∈ relations.take i, ¬ (q.source = r.source ∧ q.target = r.target)) ∧
        claimantOf [sampleDriver, sampleClaimed "PWM" "PID"] r.target = some r.source) :=
  relations_are_complete_and_exact
    (by simp [sampleDriver_links, sampleClaimed_links]) (by decide)

end devcon_spark.block_analysis
