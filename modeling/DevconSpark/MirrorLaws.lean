-- The block store against the names that the controller knows its blocks by:
-- what each operation of the API leaves of the two, for any controller that
-- keeps its names in order.
import DevconSpark.ApiRuns
import DevconSpark.Mirrors

open bidict mirrors programs py_dict devcon_spark.exceptions devcon_spark.models

namespace devcon_spark.spark_api

/-! ## What a block becomes -/

/-- What a block of the API becomes has its name, and the number if it has one. -/
structure Resolves (block : Block) (b : FirmwareBlock) : Prop where
  id : b.id = block.id
  nid : ∀ nid, block.nid = some nid → b.nid = nid

theorem firmware_block_resolves (env : Environment) (block : Block) (w : World) :
    Ends (_to_firmware_block env block) w fun r _ => ∀ b, r = .ok b → Resolves block b := by
  have hident : Ends (_to_firmware_block_identity block.identity) w fun r _ =>
      ∀ ident, r = .ok ident → ident.id = block.id ∧
        ∀ nid, block.nid = some nid → ident.nid = nid := by
    unfold _to_firmware_block_identity Block.identity
    dsimp only
    cases block.nid with
    | some nid =>
      rintro ident ⟨⟩
      refine ⟨rfl, ?_⟩
      rintro nid ⟨⟩
      rfl
    | none =>
      refine ends_get ?_
      split
      · rintro ident ⟨⟩
        refine ⟨rfl, ?_⟩
        rintro nid ⟨⟩
      · rintro ident ⟨⟩
      · rintro ident ⟨⟩
  have herror : ∀ (ex : Exn) (b : FirmwareBlock), (.error ex : Except Exn FirmwareBlock) = .ok b →
      Resolves block b := by
    rintro ex b ⟨⟩
  unfold _to_firmware_block
  refine ends_bind hident (fun ident w' hw => ends_get ?_) fun ex _ _ => herror ex
  have hlinks : ∀ data, Ends (liftExcept (resolve_data_ids (_find_nid w'.block_store) data) >>=
      fun data => (pure { id := ident.id, nid := ident.nid, type := block.type, data } :
        Api FirmwareBlock)) w' fun r _ => ∀ b, r = .ok b → Resolves block b := by
    refine fun data => ends_lift (fun data _ => ends_pure ?_) fun ex _ => herror ex
    rintro b ⟨⟩
    exact ⟨(hw ident rfl).1, (hw ident rfl).2⟩
  dsimp only
  split
  · exact ends_lift (fun data _ => hlinks data) fun ex _ => herror ex
  · exact hlinks block.data

/-! ## A controller that keeps names -/

/-- What the controller calls the block of each number. -/
abbrev Directory := Option Int → Option (Option String)

/-- Keys of the store that stand for a name. -/
abbrev Counts (id : Option String) : Prop := named id = true

/-- The block has the number and the name of a block of the controller. -/
def Known (D : Directory) (block : FirmwareBlock) : Prop := D (some block.nid) = some block.id

/-- A new block takes a number that is free, and a name that is not in use. -/
structure New (D : Directory) (block : FirmwareBlock) : Prop where
  free : D (some block.nid) = none
  nid : block.nid ≠ 0
  name : named block.id → ∀ v, D v ≠ some block.id

/-- What the controller calls its blocks, before and after a request that it confirmed. -/
inductive Confirmed (D : Directory) : (request : Request) → request.Reply → Directory → Prop
  | noop : Confirmed D .noop () D
  | read {ident : FirmwareBlockIdentity} {mode : ReadMode} {block : FirmwareBlock}
      (h : Known D block) : Confirmed D (.read_block ident mode) block D
  | readAll {mode : ReadMode} {blocks : List FirmwareBlock} (h : ∀ b ∈ blocks, Known D b)
      (hall : ∀ v id, D v = some id → ∃ b ∈ blocks, some b.nid = v ∧ b.id = id)
      (hdistinct : (blocks.map FirmwareBlock.nid).Nodup) :
      Confirmed D (.read_all_blocks mode) blocks D
  | write {block written : FirmwareBlock} (h : Known D written) :
      Confirmed D (.write_block block) written D
  | patch {block written : FirmwareBlock} (h : Known D written) :
      Confirmed D (.patch_block block) written D
  | create {block new : FirmwareBlock} (h : New D new)
      (hnid : block.nid ≠ 0 → new.nid = block.nid) (hid : named block.id → new.id = block.id) :
      Confirmed D (.create_block block) new (Function.update D (some new.nid) (some new.id))
  | delete {ident : FirmwareBlockIdentity} :
      Confirmed D (.delete_block ident) () (Function.update D (some ident.nid) none)
  | discover {blocks : List FirmwareBlock} (h : ∀ b ∈ blocks, Known D b) :
      Confirmed D .discover_blocks blocks D
  | names {blocks : List FirmwareBlock} (h : ∀ b ∈ blocks, Known D b)
      (hall : ∀ v id, D v = some id → ∃ b ∈ blocks, some b.nid = v ∧ b.id = id) :
      Confirmed D .read_all_block_names blocks D
  | rename {ident : FirmwareBlockIdentity} {block : FirmwareBlock}
      (honly : Only D block.id (some block.nid)) :
      Confirmed D (.write_block_name ident) block
        (Function.update D (some block.nid) (some block.id))
  | clear {blocks : List FirmwareBlock} {D' : Directory}
      (h : ∀ nid, USER_NID_START ≤ nid → D' (some nid) = none) : Confirmed D .clear_blocks blocks D'
  | clear_wifi : Confirmed D .clear_wifi () D
  | factory_reset {D' : Directory} : Confirmed D .factory_reset () D'
  | reboot : Confirmed D .reboot () D
  | validate {block : FirmwareBlock} : Confirmed D (.validate block) block D

/-- A controller that keeps its names in order, as long as the requests to it were. It is calm
when nothing will come between it and the service. -/
structure Keeper (σ : Type) where
  answer : (s : σ) → (request : Request) → Except Exn request.Reply
  next : σ → Request → σ
  names : σ → Directory
  sound : σ → Prop
  calm : σ → Prop
  orderly : σ → Prop
  was_orderly : ∀ s request, orderly (next s request) → orderly s
  stays_sound : ∀ s request, sound s → orderly (next s request) → sound (next s request)
  distinct : ∀ s, sound s → Distinct Counts (names s)
  confirmed : ∀ s request reply, sound s → orderly (next s request) →
    answer s request = .ok reply → Confirmed (names s) request reply (names (next s request))
  refused : ∀ s request ex, sound s → orderly (next s request) →
    answer s request = .error ex → names (next s request) = names s
  calms : ∀ s reply, sound s → orderly (next s .clear_blocks) →
    answer s .clear_blocks = .ok reply → calm (next s .clear_blocks)
  stays_calm : ∀ s request, sound s → orderly (next s request) → calm s → calm (next s request)
  discovers : ∀ s, sound s → calm s → orderly (next s .discover_blocks) →
    ∃ reply, answer s .discover_blocks = .ok reply
  reloads : ∀ s, sound s → calm s → orderly (next s .read_all_block_names) →
    ∃ reply, answer s .read_all_block_names = .ok reply

namespace Keeper

variable {σ : Type} (K : Keeper σ)

/-- The controller after all that was handed to the commander. -/
def after (s : σ) (w : World) : σ := w.requests.foldl K.next s

/-- A service that is alone with the controller. -/
def environment (base : Environment) (s : σ) : Environment :=
  { base with
    wait_synchronized := fun shared => (shared.state.synchronized_ev, shared)
    reply := fun past request shared => (K.answer (past.foldl K.next s) request, shared) }

/-- A condition on the controller and the block store, for orderly requests. -/
def Holds (s : σ) (A : σ → BlockStore → Prop) (w : World) : Prop :=
  K.orderly (K.after s w) → K.sound (K.after s w) ∧ A (K.after s w) w.block_store

def Mirrored (t : σ) (store : BlockStore) : Prop := Mirrors Counts store (K.names t)

variable {K} {base : Environment} {s : σ} {A B : σ → BlockStore → Prop}

theorem Holds.imp {w : World} (h : K.Holds s A w)
    (himp : ∀ t store, K.sound t → A t store → B t store) : K.Holds s B w := fun horderly =>
  ⟨(h horderly).1, himp _ _ (h horderly).1 (h horderly).2⟩

/-- A request to the commander, by its answer. -/
theorem triple_cmder (request : Request)
    {P : Except Exn request.Reply → σ → BlockStore → Prop}
    (hok : ∀ t store reply, K.sound t → A t store → K.orderly (K.next t request) →
      K.answer t request = .ok reply →
      Confirmed (K.names t) request reply (K.names (K.next t request)) →
      P (.ok reply) (K.next t request) store)
    (herror : ∀ t store ex, K.sound t → A t store → K.orderly (K.next t request) →
      K.answer t request = .error ex → K.names (K.next t request) = K.names t →
      P (.error ex) (K.next t request) store) :
    Triple (K.Holds s A) (cmder (K.environment base s) request) fun r => K.Holds s (P r) := by
  intro w hw
  have hrun : (cmder (K.environment base s) request).run.run w =
      (K.answer (K.after s w) request, w.after request w.toShared) := run_cmder rfl
  unfold Ends
  rw [hrun]
  intro horderly
  have hat : K.after s (w.after request w.toShared) = K.next (K.after s w) request := by
    simp [Keeper.after, List.foldl_append]
  rw [hat] at horderly ⊢
  obtain ⟨hsound, hA⟩ := hw (K.was_orderly _ _ horderly)
  refine ⟨K.stays_sound _ _ hsound horderly, ?_⟩
  cases hanswer : K.answer (K.after s w) request with
  | ok reply =>
    exact hok _ _ reply hsound hA horderly hanswer
      (K.confirmed _ _ reply hsound horderly hanswer)
  | error ex =>
    exact herror _ _ ex hsound hA horderly hanswer (K.refused _ _ ex hsound horderly hanswer)

theorem triple_modifyStore {f : BlockStore → BlockStore}
    {P : Except Exn Unit → σ → BlockStore → Prop}
    (h : ∀ t store, K.sound t → A t store → P (.ok ()) t (f store)) :
    Triple (K.Holds s A) (modifyStore f) fun r => K.Holds s (P r) := by
  intro w hw horderly
  obtain ⟨hsound, hA⟩ := hw horderly
  exact ⟨hsound, h _ _ hsound hA⟩

/-- A part that only reads the store. -/
theorem keeps_reads {α : Type} {x : Api α} (hx : ReadsStore x) : Keeps (K.Holds s A) x := by
  intro w hw
  obtain ⟨r, hr, -⟩ := hx w w rfl
  unfold Ends
  rw [hr]
  exact hw

/-- The gate changes nothing. -/
theorem triple_execute {α : Type} {body : Api α} {P : Except Exn α → σ → BlockStore → Prop}
    (hbody : Triple (K.Holds s A) body fun r => K.Holds s (P r))
    (hclosed : ∀ ex t store, K.sound t → A t store → P (.error ex) t store) :
    Triple (K.Holds s A) (_execute (K.environment base s) body) fun r => K.Holds s (P r) := by
  have hclosed' : ∀ ex w, K.Holds s A w → K.Holds s (P (.error ex)) w :=
    fun ex w hw => hw.imp (hclosed ex)
  have hwait : Triple (K.Holds s A) (wait_synchronized (K.environment base s))
      fun _ => K.Holds s A := fun w hw => hw
  unfold _execute
  refine triple_get fun w₀ => triple_bind (P := fun _ => K.Holds s A)
    (triple_lift fun w hw => hw.1) (fun _ => ?_) hclosed'
  refine triple_bind hwait (fun synchronized => ?_) hclosed'
  dsimp only
  split
  · refine triple_catch hbody (fun _ _ hw => hw) fun ex => ?_
    split
    · exact triple_modify_bind (fun w hw => hw) (triple_throw fun w hw => hw)
    · exact triple_throw fun w hw => hw
  · -- the wait was not over in time
    exact triple_throw_bind (hclosed' _)

/-! ## Blocks of an answer -/

section blocks

variable {block : FirmwareBlock} {blocks : List FirmwareBlock} {env : Environment}
  {C D : World → Prop}

/-- What a block puts into the store is all that its conversion may change. -/
theorem keeps_identity (hsync : Keeps C (_sync_block_id block.id block.nid)) :
    Keeps C (_to_block_identity env block) := by
  unfold _to_block_identity
  refine keeps_bind hsync fun _ => keeps_get fun w₀ => ?_
  dsimp only
  split
  · exact keeps_bind (keeps_pure _) fun id => keeps_pure _
  · split
    · exact keeps_bind (keeps_pure _) fun id => keeps_pure _
    · exact keeps_bind (keeps_pure _) fun id => keeps_pure _
    · exact keeps_bind (keeps_throw _) fun id => keeps_pure _

theorem triple_block (hfirst : Triple C (_sync_block_id block.id block.nid) fun _ => D)
    (hsync : Keeps D (_sync_block_id block.id block.nid)) :
    Triple C (_to_block env block) fun _ => D := by
  unfold _to_block
  refine triple_bind hfirst (fun _ => ?_) fun _ _ hw => hw
  refine keeps_bind (keeps_identity hsync) fun ident => keeps_get fun w₀ => ?_
  refine keeps_bind (keeps_lift _) fun data => ?_
  dsimp only
  split
  · exact keeps_bind (keeps_lift _) fun data => keeps_pure _
  · exact keeps_bind (keeps_pure _) fun data => keeps_pure _

/-- The store mirrors the names, and the blocks are among them. -/
def KnownTo (K : Keeper σ) (blocks : List FirmwareBlock) (t : σ) (store : BlockStore) : Prop :=
  K.Mirrored t store ∧ ∀ b ∈ blocks, Known (K.names t) b

/-- The store mirrors the names once the block is put in. -/
def Due (K : Keeper σ) (block : FirmwareBlock) (t : σ) (store : BlockStore) : Prop :=
  Known (K.names t) block ∧
    if named block.id ∧ block.nid ≠ 0 then K.Mirrored t (store.put block.id (some block.nid))
    else K.Mirrored t store

theorem triple_sync : Triple (K.Holds s (Due K block)) (_sync_block_id block.id block.nid)
    fun _ => K.Holds s (KnownTo K [block]) := by
  unfold _sync_block_id
  split
  case isTrue hnamed =>
    refine triple_modifyStore (P := fun _ => KnownTo K [block]) fun t store _ hdue => ?_
    have hput := hdue.2
    rw [if_pos hnamed] at hput
    exact ⟨hput, by simpa using hdue.1⟩
  case isFalse hnot =>
    refine triple_pure fun w hw => hw.imp fun t store _ hdue => ?_
    have hsame := hdue.2
    rw [if_neg hnot] at hsame
    exact ⟨hsame, by simpa using hdue.1⟩

theorem keeps_sync (hb : block ∈ blocks) :
    Keeps (K.Holds s (KnownTo K blocks)) (_sync_block_id block.id block.nid) := by
  unfold _sync_block_id
  split
  case isTrue hnamed =>
    exact triple_modifyStore (P := fun _ => KnownTo K blocks) fun t store _ hknown =>
      ⟨hknown.1.put_known hnamed.1 (hknown.2 block hb), hknown.2⟩
  case isFalse => exact keeps_pure ()

/-- A block without a number is not put into the store. -/
theorem keeps_no_sync : Keeps (K.Holds s fun t store => K.Mirrored t store ∧ block.nid = 0)
    (_sync_block_id block.id block.nid) := by
  unfold _sync_block_id
  split
  case isTrue hnamed =>
    exact triple_modifyStore (P := fun _ t store => K.Mirrored t store ∧ block.nid = 0)
      fun t store _ hzero => absurd hzero.2 hnamed.2
  case isFalse => exact keeps_pure ()

end blocks

/-! ## Requests and their answers -/

section requests

variable {request : Request}

/-- A request that changes no name. -/
theorem keeps_cmder (hsame : ∀ D reply D', Confirmed D request reply D' → D' = D) :
    Keeps (K.Holds s K.Mirrored) (cmder (K.environment base s) request) := by
  refine triple_cmder request (P := fun _ => K.Mirrored)
    (fun t store reply _ hmirrored _ _ hconfirmed => ?_)
    fun t store ex _ hmirrored _ _ hnames => ?_
  · unfold Mirrored
    rw [hsame _ _ _ hconfirmed]
    exact hmirrored
  · unfold Mirrored
    rw [hnames]
    exact hmirrored

theorem due_of_known {D D' : Directory} {block : FirmwareBlock} {t : σ} {store : BlockStore}
    (hmirrors : Mirrors Counts store D) (hsame : D' = D) (hknown : Known D block)
    (hnames : K.names t = D') : Due K block t store := by
  subst hsame
  unfold Due Mirrored
  rw [hnames]
  refine ⟨hknown, ?_⟩
  split
  case isTrue hnamed => exact hmirrors.put_known hnamed.1 hknown
  case isFalse => exact hmirrors

theorem due_of_new {D : Directory} {block : FirmwareBlock} {t : σ} {store : BlockStore}
    (hmirrors : Mirrors Counts store D) (hnew : New D block)
    (hnames : K.names t = Function.update D (some block.nid) (some block.id)) :
    Due K block t store := by
  unfold Due Mirrored Known
  rw [hnames]
  refine ⟨Function.update_self _ _ _, ?_⟩
  split
  case isTrue hnamed => exact hmirrors.put fun v hv => absurd hv (hnew.name hnamed.1 v)
  case isFalse hnot =>
    have hunnamed : ¬ Counts block.id := fun hid => hnot ⟨hid, hnew.nid⟩
    refine hmirrors.add (fun k _ hk => ?_) hunnamed
    rw [hnew.free] at hk
    cases hk

/-- A request for one block, and what becomes of the block. -/
theorem keeps_exchange {env : Environment} (request : Request)
    (block : request.Reply → FirmwareBlock)
    (hdue : ∀ D reply D' t store, Mirrors Counts store D → Confirmed D request reply D' →
      K.names t = D' → Due K (block reply) t store) :
    Keeps (K.Holds s K.Mirrored)
      (cmder (K.environment base s) request >>= fun reply => _to_block env (block reply)) := by
  have hasked : Triple (K.Holds s K.Mirrored) (cmder (K.environment base s) request) fun r =>
      K.Holds s fun t store => match r with
        | .ok reply => Due K (block reply) t store
        | .error _ => K.Mirrored t store := by
    refine triple_cmder request (fun t store reply _ hmirrored _ _ hconfirmed => ?_)
      fun t store ex _ hmirrored _ _ hnames => ?_
    · exact hdue _ _ _ _ _ hmirrored hconfirmed rfl
    · dsimp only
      unfold Mirrored
      rw [hnames]
      exact hmirrored
  refine triple_bind hasked (fun reply => ?_) fun _ _ hw => hw
  refine triple_weaken (triple_block triple_sync (keeps_sync List.mem_cons_self)) (fun _ hw => hw)
    fun _ _ hw => hw.imp fun _ _ _ hknown => hknown.1

theorem keeps_execute {α : Type} {body : Api α} (hbody : Keeps (K.Holds s K.Mirrored) body) :
    Keeps (K.Holds s K.Mirrored) (_execute (K.environment base s) body) :=
  triple_execute (P := fun _ => K.Mirrored) hbody fun _ _ _ _ h => h

/-- A request for a block that the controller has. -/
theorem keeps_read {block : BlockIdentity} {mode : ReadMode} :
    Keeps (K.Holds s K.Mirrored) (_execute (K.environment base s) do
      let ident ← _to_firmware_block_identity block
      _to_block (K.environment base s)
        (← cmder (K.environment base s) (.read_block ident mode))) := by
  refine keeps_execute (keeps_bind (keeps_reads (identity_readsStore _)) fun ident => ?_)
  refine keeps_exchange (.read_block ident mode) (fun block => block) ?_
  intro D reply D' t store hmirrors hconfirmed hnames
  cases hconfirmed with
  | read hknown => exact due_of_known hmirrors rfl hknown hnames

theorem keeps_write_block {block : Block} :
    Keeps (K.Holds s K.Mirrored) (write_block (K.environment base s) block) := by
  refine keeps_execute (keeps_bind (keeps_reads (firmwareBlock_readsStore _ _)) fun block => ?_)
  refine keeps_exchange (.write_block block) (fun block => block) ?_
  intro D reply D' t store hmirrors hconfirmed hnames
  cases hconfirmed with
  | write hknown => exact due_of_known hmirrors rfl hknown hnames

theorem keeps_patch_block {block : Block} :
    Keeps (K.Holds s K.Mirrored) (patch_block (K.environment base s) block) := by
  refine keeps_execute (keeps_bind (keeps_reads (firmwareBlock_readsStore _ _)) fun block => ?_)
  refine keeps_exchange (.patch_block block) (fun block => block) ?_
  intro D reply D' t store hmirrors hconfirmed hnames
  cases hconfirmed with
  | patch hknown => exact due_of_known hmirrors rfl hknown hnames

theorem keeps_create_block {block : Block} :
    Keeps (K.Holds s K.Mirrored) (create_block (K.environment base s) block) := by
  refine keeps_execute (keeps_bind (keeps_reads (firmwareBlock_readsStore _ _)) fun block => ?_)
  refine keeps_exchange (.create_block block) (fun block => block) ?_
  intro D reply D' t store hmirrors hconfirmed hnames
  cases hconfirmed with
  | create hnew => exact due_of_new hmirrors hnew hnames

/-! ### Requests for any number of blocks -/

theorem keeps_blocks {env : Environment} (request : Request)
    (blocks : request.Reply → List FirmwareBlock)
    (hknown : ∀ D reply D', Confirmed D request reply D' →
      D' = D ∧ ∀ b ∈ blocks reply, Known D b) :
    Keeps (K.Holds s K.Mirrored) (cmder (K.environment base s) request >>= fun reply =>
      List.mapM (_to_block env) (blocks reply)) := by
  have hasked : Triple (K.Holds s K.Mirrored) (cmder (K.environment base s) request) fun r =>
      K.Holds s fun t store => match r with
        | .ok reply => KnownTo K (blocks reply) t store
        | .error _ => K.Mirrored t store := by
    refine triple_cmder request (fun t store reply _ hmirrored _ _ hconfirmed => ?_)
      fun t store ex _ hmirrored _ _ hnames => ?_
    · obtain ⟨hsame, hall⟩ := hknown _ _ _ hconfirmed
      unfold KnownTo Mirrored
      rw [hsame]
      exact ⟨hmirrored, hall⟩
    · dsimp only
      unfold Mirrored
      rw [hnames]
      exact hmirrored
  refine triple_bind hasked (fun reply => ?_) fun _ _ hw => hw
  refine triple_weaken (keeps_mapM fun b hb => triple_block (keeps_sync hb) (keeps_sync hb))
    (fun _ hw => hw) fun _ _ hw => hw.imp fun _ _ _ hknown => hknown.1

theorem keeps_readAll {mode : ReadMode} :
    Keeps (K.Holds s K.Mirrored) (readAll (K.environment base s) mode) := by
  refine keeps_execute (keeps_blocks (.read_all_blocks mode) (fun blocks => blocks) ?_)
  intro D reply D' hconfirmed
  cases hconfirmed with
  | readAll hknown _ _ => exact ⟨rfl, hknown⟩

theorem keeps_discover_blocks :
    Keeps (K.Holds s K.Mirrored) (discover_blocks (K.environment base s)) := by
  refine keeps_execute (keeps_blocks .discover_blocks (fun blocks => blocks) ?_)
  intro D reply D' hconfirmed
  cases hconfirmed with
  | discover hknown => exact ⟨rfl, hknown⟩

/-! ### Requests that change the names -/

theorem keeps_delete_block {block : BlockIdentity} :
    Keeps (K.Holds s K.Mirrored) (delete_block (K.environment base s) block) := by
  refine keeps_execute (keeps_bind (keeps_reads (identity_readsStore _)) fun ident => ?_)
  -- the store still has the name of the block, if there was one
  have hasked : Triple (K.Holds s K.Mirrored)
      (cmder (K.environment base s) (.delete_block ident)) fun r => K.Holds s fun t store =>
        match r with
        | .ok _ => ∃ D, Mirrors Counts store D ∧
            K.names t = Function.update D (some ident.nid) none
        | .error _ => K.Mirrored t store := by
    refine triple_cmder (.delete_block ident) (fun t store reply _ hmirrored _ _ hconfirmed => ?_)
      fun t store ex _ hmirrored _ _ hnames => ?_
    · generalize K.names (K.next t (.delete_block ident)) = D' at hconfirmed
      cases hconfirmed with
      | delete => exact ⟨K.names t, hmirrored, rfl⟩
    · dsimp only
      unfold Mirrored
      rw [hnames]
      exact hmirrored
  refine triple_bind hasked (fun _ => triple_get fun w₀ => ?_) fun _ _ hw => hw
  cases hinv : w₀.block_store.inverse? (some ident.nid) with
  | none =>
    refine triple_throw ?_
    rintro w ⟨hw, rfl⟩ horderly
    obtain ⟨hsound, D, hmirrors, hnames⟩ := hw horderly
    refine ⟨hsound, ?_⟩
    unfold Mirrored
    rw [hnames]
    exact hmirrors.drop hinv
  | some sid =>
    refine triple_bind (P := fun _ => K.Holds s K.Mirrored) ?_ (fun _ => keeps_pure _)
      fun _ _ hw => hw
    rintro w ⟨hw, rfl⟩ horderly
    obtain ⟨hsound, D, hmirrors, hnames⟩ := hw horderly
    have hmirrored : Mirrors Counts (w.block_store.erase sid) (K.names (K.after s w)) := by
      rw [hnames]
      exact hmirrors.erase hinv
    exact ⟨hsound, hmirrored⟩

theorem keeps_rename_block {change : BlockNameChange} :
    Keeps (K.Holds s K.Mirrored) (rename_block (K.environment base s) change) := by
  unfold rename_block
  refine keeps_get fun w₀ => keeps_bind (keeps_lift _) fun nid => ?_
  have hasked : Triple (K.Holds s K.Mirrored)
      (cmder (K.environment base s) (.write_block_name { id := some change.desired, nid }))
      fun r => K.Holds s fun t store => match r with
        | .ok block => Mirrors Counts (store.put block.id (some block.nid)) (K.names t)
        | .error _ => K.Mirrored t store := by
    refine triple_cmder _ (fun t store block _ hmirrored _ _ hconfirmed => ?_)
      fun t store ex _ hmirrored _ _ hnames => ?_
    · generalize K.names (K.next t _) = D' at hconfirmed
      cases hconfirmed with
      | rename honly => exact hmirrored.put honly
    · dsimp only
      unfold Mirrored
      rw [hnames]
      exact hmirrored
  refine triple_bind hasked (fun block => ?_) fun _ _ hw => hw
  refine triple_bind (P := fun _ => K.Holds s K.Mirrored) ?_ (fun _ => keeps_pure _)
    fun _ _ hw => hw
  exact triple_modifyStore (P := fun _ => K.Mirrored) fun t store _ hput => hput

/-! ### The whole directory -/

/-- What holds after a program that does not fail. -/
def surely {α : Type} (A : σ → BlockStore → Prop) : Except Exn α → σ → BlockStore → Prop
  | .ok _ => A
  | .error _ => fun _ _ => False

theorem surely_mapM {ι α : Type} {f : ι → Api α} {is : List ι}
    (h : ∀ i ∈ is, Triple (K.Holds s A) (f i) fun r => K.Holds s (surely A r)) :
    Triple (K.Holds s A) (is.mapM f) fun r => K.Holds s (surely A r) := by
  induction is with
  | nil => exact triple_pure fun _ hw => hw
  | cons i is ih =>
    rw [List.mapM_cons]
    refine triple_bind (h i List.mem_cons_self) (fun b => ?_) fun _ _ hw => hw
    refine triple_bind (ih fun j hj => h j (List.mem_cons_of_mem i hj)) (fun bs => ?_)
      fun _ _ hw => hw
    exact triple_pure fun _ hw => hw

/-- A number without a name is shown as it is. -/
theorem find_sid_int (repr : py_value.Value → py_text.Text) (store : BlockStore) (nid : Int) :
    ∃ sid, _find_sid repr store (.int nid) = .ok sid := by
  unfold _find_sid
  dsimp only
  split
  · exact ⟨_, rfl⟩
  · split
    · exact ⟨_, rfl⟩
    · exact ⟨_, rfl⟩

def Calm (K : Keeper σ) (t : σ) (_ : BlockStore) : Prop := K.calm t

theorem calm_modifyStore (f : BlockStore → BlockStore) :
    Triple (K.Holds s (Calm K)) (modifyStore f) fun r => K.Holds s (surely (Calm K) r) :=
  fun _ hw => hw

theorem calm_identity {env : Environment} {block : FirmwareBlock} :
    Triple (K.Holds s (Calm K)) (_to_block_identity env block)
      fun r => K.Holds s (surely (Calm K) r) := by
  have hsync : Triple (K.Holds s (Calm K)) (_sync_block_id block.id block.nid)
      fun r => K.Holds s (surely (Calm K) r) := by
    unfold _sync_block_id
    split
    · exact calm_modifyStore _
    · exact triple_pure fun _ hw => hw
  unfold _to_block_identity
  refine triple_bind hsync (fun _ => triple_get fun w₀ => ?_) fun _ _ hw => hw
  obtain ⟨sid, hsid⟩ := find_sid_int env.repr w₀.block_store block.nid
  dsimp only
  rw [hsid]
  have hpure : ∀ id : Option String, Triple (fun w => K.Holds s (Calm K) w ∧ w = w₀)
      (pure id >>= fun id => (pure { id, nid := some block.nid, type := some block.type
                                     serviceId := some env.name } : Api BlockIdentity))
      fun r => K.Holds s (surely (Calm K) r) :=
    fun id => triple_bind (P := fun r => K.Holds s (surely (Calm K) r))
      (triple_pure fun _ hw => hw.1) (fun id => triple_pure fun _ hw => hw) fun _ _ hw => hw
  split
  · exact hpure _
  · split
    · exact hpure _
    · exact hpure _
    · rename_i h
      cases h

/-- The store mirrors the names, and nothing will come between. -/
def Synced (K : Keeper σ) (t : σ) (store : BlockStore) : Prop := K.Mirrored t store ∧ K.calm t

/-- The block store, as it is loaded from the blocks of an answer. -/
theorem mirrors_of_names {D : Directory} {blocks : List FirmwareBlock}
    (hdistinct : Distinct Counts D) (h : Confirmed D .read_all_block_names blocks D) :
    Mirrors Counts (Bidict.empty.update (dictOf (blocks.map fun b => (b.id, some b.nid)))) D := by
  cases h with
  | names hknown hall =>
    refine mirrors_load hdistinct (fun e he => ?_) fun k v hk hv => ?_
    · obtain ⟨b, hb, rfl⟩ := List.mem_map.mp (mem_dictOf he)
      exact hknown b hb
    · obtain ⟨b, hb, rfl, rfl⟩ := hall v k hv
      refine mem_dictOf_of_unique (List.mem_map_of_mem hb) fun e he hkey => ?_
      obtain ⟨b', hb', rfl⟩ := List.mem_map.mp he
      dsimp only at hkey
      have hv' := hknown b' hb'
      unfold Known at hv'
      rw [hkey] at hv'
      rw [hkey, hdistinct _ _ _ hk hv' hv]

/-- The names are loaded from a controller that is calm. -/
theorem triple_load_block_names :
    Triple (K.Holds s (Calm K)) (load_block_names (K.environment base s))
      fun r => K.Holds s (surely (Synced K) r) := by
  have hasked : Triple (K.Holds s (Calm K))
      (cmder (K.environment base s) .read_all_block_names) fun r => K.Holds s fun t store =>
        match r with
        | .ok blocks => K.calm t ∧ Confirmed (K.names t) .read_all_block_names blocks (K.names t)
        | .error _ => False := by
    refine triple_cmder _ (fun t store blocks hsound hcalm horderly _ hconfirmed => ?_)
      fun t store ex hsound hcalm horderly hanswer _ => ?_
    · refine ⟨K.stays_calm t _ hsound horderly hcalm, ?_⟩
      generalize K.names (K.next t .read_all_block_names) = D' at hconfirmed
      cases hconfirmed with
      | names hknown hall => exact .names hknown hall
    · obtain ⟨reply, hreply⟩ := K.reloads t hsound hcalm horderly
      rw [hanswer] at hreply
      cases hreply
  unfold load_block_names
  refine triple_bind hasked (fun blocks => ?_) fun _ _ hw => hw
  refine triple_modifyStore (P := surely (Synced K)) fun t store hsound hloaded => ?_
  exact ⟨mirrors_of_names (K.distinct t hsound) hloaded.2, hloaded.1⟩

/-- A load that fails leaves the store as it was. -/
theorem keeps_load_block_names :
    Keeps (K.Holds s K.Mirrored) (load_block_names (K.environment base s)) := by
  have hasked : Triple (K.Holds s K.Mirrored) (cmder (K.environment base s) .read_all_block_names)
      fun r => K.Holds s fun t store => K.Mirrored t store ∧
        ∀ blocks, r = .ok blocks →
          Confirmed (K.names t) .read_all_block_names blocks (K.names t) := by
    refine triple_cmder _ (fun t store blocks _ hmirrored _ _ hconfirmed => ?_)
      fun t store ex _ hmirrored _ _ hnames => ?_
    · unfold Mirrored
      generalize K.names (K.next t .read_all_block_names) = D' at hconfirmed
      cases hconfirmed with
      | names hknown hall =>
        refine ⟨hmirrored, ?_⟩
        rintro blocks' ⟨⟩
        exact .names hknown hall
    · unfold Mirrored
      rw [hnames]
      refine ⟨hmirrored, ?_⟩
      rintro blocks ⟨⟩
  unfold load_block_names
  refine triple_bind hasked (fun blocks => ?_) fun _ _ hw => hw.imp fun _ _ _ h => h.1
  refine triple_modifyStore (P := fun _ => K.Mirrored) fun t store hsound hloaded => ?_
  exact mirrors_of_names (K.distinct t hsound) (hloaded.2 blocks rfl)

/-- The names are mirrored, and a controller that did what it was asked is calm. -/
def cleared {α : Type} (K : Keeper σ) (r : Except Exn α) (t : σ) (store : BlockStore) : Prop :=
  K.Mirrored t store ∧ ∀ a, r = .ok a → K.calm t

theorem cleared_of_synced {α : Type} {t : σ} {store : BlockStore} (r : Except Exn α)
    (h : Synced K t store) : cleared K r t store :=
  ⟨h.1, fun _ _ => h.2⟩

theorem cleared_of_error {α : Type} {t : σ} {store : BlockStore} (ex : Exn)
    (h : K.Mirrored t store) : cleared K (.error ex : Except Exn α) t store := by
  refine ⟨h, ?_⟩
  rintro a ⟨⟩

/-- A request whose answer is not used, after which the names are still mirrored. -/
theorem keeps_synced (request : Request)
    (hsame : ∀ D reply D', Confirmed D request reply D' → D' = D) :
    Keeps (K.Holds s (Synced K)) (cmder (K.environment base s) request) := by
  refine triple_cmder request (P := fun _ => Synced K)
    (fun t store reply hsound hsynced horderly _ hconfirmed => ?_)
    fun t store ex hsound hsynced horderly _ hnames => ?_
  · refine ⟨?_, K.stays_calm t _ hsound horderly hsynced.2⟩
    unfold Mirrored
    rw [hsame _ _ _ hconfirmed]
    exact hsynced.1
  · refine ⟨?_, K.stays_calm t _ hsound horderly hsynced.2⟩
    unfold Mirrored
    rw [hnames]
    exact hsynced.1

theorem triple_clear_blocks : Triple (K.Holds s K.Mirrored) (clear_blocks (K.environment base s))
    fun r => K.Holds s (cleared K r) := by
  refine triple_execute (P := cleared K) ?_ fun ex _ _ _ hmirrored => cleared_of_error ex hmirrored
  have hasked : Triple (K.Holds s K.Mirrored) (cmder (K.environment base s) .clear_blocks)
      fun r => K.Holds s fun t store => match r with
        | .ok _ => K.calm t
        | .error _ => K.Mirrored t store := by
    refine triple_cmder _
      (fun t store reply hsound _ horderly hanswer _ => K.calms t reply hsound horderly hanswer)
      fun t store ex _ hmirrored _ _ hnames => ?_
    dsimp only
    unfold Mirrored
    rw [hnames]
    exact hmirrored
  refine triple_bind hasked (fun blocks => ?_) fun ex _ hw =>
    hw.imp fun _ _ _ hmirrored => cleared_of_error ex hmirrored
  refine triple_bind (surely_mapM fun b _ => calm_identity) (fun identities => ?_)
    fun ex _ hw => hw.imp fun _ _ _ hfalse => hfalse.elim
  refine triple_bind triple_load_block_names (fun _ => ?_)
    fun ex _ hw => hw.imp fun _ _ _ hfalse => hfalse.elim
  refine triple_weaken (keeps_bind (keeps_synced _ ?_) fun _ => keeps_pure identities)
    (fun _ hw => hw) fun r _ hw => hw.imp fun _ _ _ hsynced => cleared_of_synced r hsynced
  intro D reply D' hconfirmed
  cases hconfirmed
  rfl

theorem keeps_clear_blocks : Keeps (K.Holds s K.Mirrored) (clear_blocks (K.environment base s)) :=
  triple_weaken triple_clear_blocks (fun _ hw => hw) fun _ _ hw => hw.imp fun _ _ _ h => h.1

/-! ### Backups -/

theorem keeps_make_backup : Keeps (K.Holds s K.Mirrored) (make_backup (K.environment base s)) := by
  unfold make_backup
  refine keeps_bind keeps_readAll fun blocks => keeps_get fun w₀ => ?_
  split
  · exact keeps_throw _
  · exact keeps_pure _

theorem keeps_calm_cmder (request : Request) :
    Keeps (K.Holds s (Calm K)) (cmder (K.environment base s) request) :=
  triple_cmder request (P := fun _ => Calm K)
    (fun t _ _ hsound hcalm horderly _ _ => K.stays_calm t _ hsound horderly hcalm)
    fun t _ _ hsound hcalm horderly _ _ => K.stays_calm t _ hsound horderly hcalm

theorem calm_resolveBlocks {env : Environment} (blocks : List Block) :
    Triple (K.Holds s (Calm K)) (resolveBlocks env blocks)
      fun r => K.Holds s (surely (Calm K) r) := by
  induction blocks with
  | nil => exact triple_pure fun _ hw => hw
  | cons block blocks ih =>
    unfold resolveBlocks
    refine triple_bind (P := fun r => K.Holds s (surely (Calm K) r)) ?_ (fun resolved => ?_)
      fun _ _ hw => hw
    · refine triple_catch (P := fun _ => K.Holds s (Calm K)) ?_ (fun _ _ hw => hw) fun ex =>
        triple_pure fun _ hw => hw
      exact keeps_bind (keeps_reads (firmwareBlock_readsStore env block)) fun _ => keeps_pure _
    · refine triple_bind ih (fun rest => ?_) fun _ _ hw => hw
      exact triple_pure fun _ hw => hw

theorem calm_importBlocks (blocks : List FirmwareBlock) :
    Triple (K.Holds s (Calm K)) (importBlocks (K.environment base s) blocks)
      fun r => K.Holds s (surely (Calm K) r) := by
  induction blocks with
  | nil => exact triple_pure fun _ hw => hw
  | cons block blocks ih =>
    unfold importBlocks
    refine triple_bind (P := fun r => K.Holds s (surely (Calm K) r)) ?_ (fun error => ?_)
      fun _ _ hw => hw
    · refine triple_catch (P := fun _ => K.Holds s (Calm K)) ?_ (fun _ _ hw => hw) fun ex =>
        triple_pure fun _ hw => hw
      dsimp only
      split
      · exact keeps_bind (keeps_calm_cmder (.create_block block)) fun _ => keeps_pure _
      · exact keeps_bind (keeps_calm_cmder (.write_block block)) fun _ => keeps_pure _
    · refine triple_bind ih (fun errors => ?_) fun _ _ hw => hw
      exact triple_pure fun _ hw => hw

/-- The store is filled with the names of the backup for a while. In the end it has those of
the controller. -/
theorem keeps_apply_backup {exported : Backup} :
    Keeps (K.Holds s K.Mirrored) (apply_backup (K.environment base s) exported) := by
  have hdiscovers : Triple (K.Holds s (Calm K))
      (cmder (K.environment base s) .discover_blocks) fun r => K.Holds s (surely (Calm K) r) := by
    refine triple_cmder _
      (fun t _ _ hsound hcalm horderly _ _ => K.stays_calm t _ hsound horderly hcalm)
      fun t store ex hsound hcalm horderly hanswer _ => ?_
    obtain ⟨reply, hreply⟩ := K.discovers t hsound hcalm horderly
    rw [hanswer] at hreply
    cases hreply
  have hcalm : ∀ {α β : Type} {x : Api α} {f : α → Api β},
      Triple (K.Holds s (Calm K)) x (fun r => K.Holds s (surely (Calm K) r)) →
      (∀ a, Triple (K.Holds s (Calm K)) (f a) fun _ => K.Holds s K.Mirrored) →
      Triple (K.Holds s (Calm K)) (x >>= f) fun _ => K.Holds s K.Mirrored :=
    fun hx hf => triple_bind hx hf fun _ _ hw => hw.imp fun _ _ _ hfalse => hfalse.elim
  unfold apply_backup
  refine triple_bind triple_clear_blocks (fun cleared => ?_) fun _ _ hw => hw.imp fun _ _ _ h => h.1
  refine triple_weaken (A := K.Holds s (Calm K)) (P := fun _ => K.Holds s K.Mirrored) ?_
    (fun _ hw => hw.imp fun _ _ _ h => h.2 cleared rfl) fun _ _ hw => hw
  refine hcalm (calm_modifyStore _) fun _ => hcalm (calm_modifyStore _) fun _ => ?_
  refine hcalm (calm_resolveBlocks exported.blocks) fun resolved => ?_
  refine hcalm (calm_importBlocks resolved.1) fun failed => hcalm hdiscovers fun _ => ?_
  refine triple_bind triple_load_block_names (fun _ => ?_) fun _ _ hw =>
    hw.imp fun _ _ _ hfalse => hfalse.elim
  exact triple_pure fun _ hw => hw.imp fun _ _ _ hsynced => hsynced.1

/-! ### Blocks that are not of the controller -/

theorem keeps_validate {block : Block} :
    Keeps (K.Holds s K.Mirrored) (validate (K.environment base s) block) := by
  refine keeps_execute ?_
  have hblock : Triple (K.Holds s K.Mirrored) (_to_firmware_block (K.environment base s)
      { block with id := none, nid := some 0 }) fun r => K.Holds s fun t store =>
        K.Mirrored t store ∧ ∀ b, r = .ok b → b.nid = 0 := by
    intro w hw horderly
    obtain ⟨hsound, hmirrored⟩ := keeps_reads (firmwareBlock_readsStore _ _) w hw horderly
    exact ⟨hsound, hmirrored, fun b hb => (firmware_block_resolves _ _ w b hb).nid 0 rfl⟩
  refine triple_bind hblock (fun validated => ?_) fun _ _ hw => hw.imp fun _ _ _ h => h.1
  -- the answer is the block that was sent
  have hasked : Triple (K.Holds s fun t store => K.Mirrored t store ∧
      ∀ b : FirmwareBlock, (.ok validated : Except Exn FirmwareBlock) = .ok b → b.nid = 0)
      (cmder (K.environment base s) (.validate validated)) fun r => K.Holds s fun t store =>
        K.Mirrored t store ∧ ∀ b, r = .ok b → b.nid = 0 := by
    refine triple_cmder _ (fun t store answered _ hpre _ _ hconfirmed => ?_)
      fun t store ex _ hpre _ _ hnames => ?_
    · generalize hD : K.names (K.next t (.validate validated)) = D' at hconfirmed
      cases hconfirmed
      unfold Mirrored
      rw [hD]
      exact hpre
    · unfold Mirrored
      rw [hnames]
      refine ⟨hpre.1, ?_⟩
      rintro b ⟨⟩
  refine triple_bind hasked (fun answered => ?_) fun _ _ hw => hw.imp fun _ _ _ h => h.1
  refine triple_weaken (A := K.Holds s fun t store => K.Mirrored t store ∧ answered.nid = 0)
    (P := fun _ => K.Holds s fun t store => K.Mirrored t store ∧ answered.nid = 0)
    (keeps_bind (triple_block keeps_no_sync keeps_no_sync) fun _ => keeps_pure _)
    (fun _ hw => hw.imp fun _ _ _ h => ⟨h.1, h.2 answered rfl⟩)
    fun _ _ hw => hw.imp fun _ _ _ h => h.1

/-! ### All operations -/

theorem keeps_result {α β : Type} {x : Api α} {f : α → β} (h : Keeps (K.Holds s K.Mirrored) x) :
    Keeps (K.Holds s K.Mirrored) (x >>= fun a => pure (f a)) :=
  keeps_bind h fun _ => keeps_pure _

theorem keeps_plain (request : Request)
    (hsame : ∀ D reply D', Confirmed D request reply D' → D' = D) :
    Keeps (K.Holds s K.Mirrored)
      (_execute (K.environment base s) (cmder (K.environment base s) request)) :=
  keeps_execute (keeps_cmder hsame)

/-- After a factory reset, the store has names that the controller has not. -/
theorem keeps_perform {operation : Operation} (hreset : operation ≠ .factory_reset) :
    Keeps (K.Holds s K.Mirrored) (perform (K.environment base s) operation) := by
  cases operation with
  | noop =>
    refine keeps_result (keeps_plain .noop fun D reply D' h => ?_)
    cases h
    rfl
  | read_block block => exact keeps_result keeps_read
  | read_logged_block block => exact keeps_result keeps_read
  | read_stored_block block => exact keeps_result keeps_read
  | write_block block => exact keeps_result keeps_write_block
  | patch_block block => exact keeps_result keeps_patch_block
  | create_block block => exact keeps_result keeps_create_block
  | delete_block block => exact keeps_result keeps_delete_block
  | read_all_blocks => exact keeps_result keeps_readAll
  | read_all_logged_blocks => exact keeps_result keeps_readAll
  | read_all_stored_blocks => exact keeps_result keeps_readAll
  | discover_blocks => exact keeps_result keeps_discover_blocks
  | clear_blocks => exact keeps_result keeps_clear_blocks
  | rename_block change => exact keeps_result keeps_rename_block
  | make_backup => exact keeps_result keeps_make_backup
  | apply_backup exported => exact keeps_result keeps_apply_backup
  | clear_wifi =>
    refine keeps_result (keeps_plain .clear_wifi fun D reply D' h => ?_)
    cases h
    rfl
  | factory_reset => exact absurd rfl hreset
  | reboot =>
    refine keeps_result (keeps_plain .reboot fun D reply D' h => ?_)
    cases h
    rfl
  | validate block => exact keeps_result keeps_validate

end requests

end Keeper

end devcon_spark.spark_api
