-- The laws of published changes. The items of a batch take effect one by one,
-- and one event follows after the last: a batch that fails half-way publishes
-- nothing of what it changed.
import DevconSpark.BackupLaws
import DevconSpark.DeleteLaws
import DevconSpark.HttpBlocks

open bidict programs devcon_spark.exceptions devcon_spark.models devcon_spark.spark_api

namespace devcon_spark.endpoints.http_blocks

variable {state_topic : String} {env : Environment} {s : Service}

/-! ## Calls of the API -/

theorem run_api {α : Type} (x : Api α) (s : Service) : (api x).run.run s =
    ((x.run.run s.toWorld).1, { s with toWorld := (x.run.run s.toWorld).2 }) := rfl

/-- The calls of a batch leave the world that their operations leave, and publish nothing. -/
theorem run_api_mapM {ι α : Type} (f : ι → Api α) (items : List ι) (s : Service) :
    (items.mapM fun i => api (f i)).run.run s =
      (((items.mapM f).run.run s.toWorld).1,
        { s with toWorld := ((items.mapM f).run.run s.toWorld).2 }) := by
  induction items generalizing s with
  | nil => rfl
  | cons i items ih =>
    rw [List.mapM_cons, List.mapM_cons, run_bind, run_bind, run_api]
    rcases (f i).run.run s.toWorld with ⟨e | b, w⟩
    · rfl
    · dsimp only
      rw [run_bind, run_bind, ih]
      rcases (items.mapM f).run.run w with ⟨e | bs, w'⟩ <;> rfl

/-! ## Commands that were confirmed -/

/-- The operations of the batches that change blocks. -/
inductive Change
  | create | write | patch

namespace Change

def operation (env : Environment) : Change → Block → Api Block
  | create => create_block env
  | write => write_block env
  | patch => patch_block env

def endpoint (state_topic : String) (env : Environment) :
    Change → List Block → Endpoint (List Block)
  | create => blocks_batch_create state_topic env
  | write => blocks_batch_write state_topic env
  | patch => blocks_batch_patch state_topic env

/-- A block to create needs no number. -/
def prepared : Change → Block → Block
  | create, block => { block with nid := some (block.nid.getD 0) }
  | write, block => block
  | patch, block => block

/-- The command, and what the controller says to it. -/
def command (env : Environment) : Change → FirmwareBlock → Api FirmwareBlock
  | create, block => cmder env (.create_block block)
  | write, block => cmder env (.write_block block)
  | patch, block => cmder env (.patch_block block)

theorem operation_eq (c : Change) (block : Block) : c.operation env block =
    _execute env (_to_firmware_block env (c.prepared block) >>= fun block =>
      c.command env block >>= fun block => _to_block env block) := by
  cases c <;> rfl

theorem endpoint_eq (c : Change) :
    c.endpoint state_topic env = changeAll state_topic env (c.operation env) := by
  cases c <;> rfl

/-- The block that the controller confirmed, in the world after its answer. -/
def confirmed (env : Environment) (c : Change) (p : Block × World) :
    Option (FirmwareBlock × World) :=
  match admitted env p.2 with
  | .error _ => none
  | .ok w =>
    match outcome env w (c.prepared p.1) with
    | .error _ => none
    | .ok block =>
      match (c.command env block).run.run w with
      | (.ok confirmed, w') => some (confirmed, w')
      | (.error _, _) => none

/-- A block of the API stands for a block that the controller confirmed. -/
def Stands (env : Environment) (block : Block) (k : FirmwareBlock × World) : Prop :=
  ∃ w, (_to_block env k.1).run.run k.2 = (.ok block, w)

/-- What an operation gave back stands for what the controller confirmed. -/
theorem confirmed_of_gave {c : Change} {p : Block × World} {block : Block}
    (h : Gave (c.operation env) p block) :
    ∃ k, c.confirmed env p = some k ∧ Stands env block k := by
  obtain ⟨w', h⟩ := h
  rw [operation_eq] at h
  unfold confirmed
  cases hadmitted : admitted env p.2 with
  | error e =>
    obtain ⟨w'', hrefused⟩ := execute_unadmitted _ hadmitted
    rw [hrefused] at h
    cases h
  | ok w =>
    rw [execute_admitted _ hadmitted, run_bind, outcome_run] at h
    dsimp only
    cases hresolved : outcome env w (c.prepared p.1) with
    | error e =>
      rw [hresolved] at h
      cases h
    | ok resolved =>
      rw [hresolved] at h
      dsimp only at h ⊢
      rw [run_bind] at h
      rcases hreply : (c.command env resolved).run.run w with ⟨e | k, w₁⟩
      · rw [hreply] at h
        cases h
      · rw [hreply] at h
        dsimp only at h
        refine ⟨(k, w₁), rfl, ?_⟩
        rcases hblock : (_to_block env k).run.run w₁ with ⟨e | b, w₂⟩
        · rw [hblock] at h
          cases h
        · rw [hblock] at h
          cases h
          exact ⟨w', hblock⟩

end Change

/-- A deletion that the controller confirmed, and what other tasks left in the meantime. -/
def deleteConfirmed (env : Environment) (p : BlockIdentity × World) :
    Option (FirmwareBlockIdentity × Shared) :=
  match admitted env p.2 with
  | .error _ => none
  | .ok w =>
    match (_to_firmware_block_identity p.1).run.run w with
    | (.error _, _) => none
    | (.ok ident, _) =>
      match deleteReply env ident w with
      | (.ok _, shared) => some (ident, shared)
      | (.error _, _) => none

/-- The name that the deleted block had. -/
def Named (name : String) (k : FirmwareBlockIdentity × Shared) : Prop :=
  k.2.block_store.get? (some name) = some (some k.1.nid)

/-- What a deletion gave back was confirmed, and is named as the block was. -/
theorem deleteConfirmed_of_gave {p : BlockIdentity × World} {ident : BlockIdentity}
    (h : Gave (delete_block env) p ident) :
    ∃ k, deleteConfirmed env p = some k ∧ ∀ name, ident.id = some name → Named name k := by
  obtain ⟨w', h⟩ := h
  unfold deleteConfirmed
  cases hadmitted : admitted env p.2 with
  | error e =>
    obtain ⟨w'', hrefused⟩ : ∃ w'', (delete_block env p.1).run.run p.2 = (.error e, w'') :=
      execute_unadmitted _ hadmitted
    rw [hrefused] at h
    cases h
  | ok w =>
    obtain ⟨r, hidentity, -⟩ := identity_readsStore p.1 w w rfl
    dsimp only
    rw [hidentity]
    cases r with
    | error e =>
      have hunknown : (delete_block env p.1).run.run p.2 = (.error e, w.raised e) :=
        execute_error hadmitted (run_bind_error hidentity _)
      rw [hunknown] at h
      cases h
    | ok found =>
      have hsent : DeleteSent env p.1 p.2 found w := ⟨hadmitted, hidentity⟩
      dsimp only
      rcases hreply : deleteReply env found w with ⟨e | u, shared⟩
      · rw [delete_rejected hsent hreply] at h
        cases h
      · refine ⟨(found, shared), rfl, fun name hname => ?_⟩
        cases hinverse : shared.block_store.inverse? (some found.nid) with
        | none =>
          rw [delete_unnamed hsent hreply hinverse] at h
          cases h
        | some sid =>
          rw [delete_named hsent hreply hinverse] at h
          cases h
          cases hname
          exact Bidict.inverse?_iff_get?.mp hinverse

/-! ## Events -/

def patchEvent (state_topic : String) (env : Environment) (changed : List Block)
    (deleted : List String) : String × ServicePatchEvent :=
  (s!"{state_topic}/{env.name}/patch", { key := env.name, data := { changed, deleted } })

/-- The events of a batch of changes. -/
def changeEvents (state_topic : String) (env : Environment) :
    Except Exn (List Block) → List (String × ServicePatchEvent)
  | .ok blocks => [patchEvent state_topic env blocks []]
  | .error _ => []

/-- The events of a batch of deletions. -/
def deleteEvents (state_topic : String) (env : Environment) :
    Except Exn (List String) → List (String × ServicePatchEvent)
  | .ok names => [patchEvent state_topic env [] names]
  | .error _ => []

/-- What is listed where all went well. -/
def listed {α : Type} : Except Exn (List α) → List α
  | .ok items => items
  | .error _ => []

theorem changeEvents_changed (outcome : Except Exn (List Block)) :
    (changeEvents state_topic env outcome).flatMap (·.2.data.changed) = listed outcome := by
  cases outcome with
  | ok blocks => exact List.append_nil blocks
  | error e => rfl

theorem changeEvents_deleted (outcome : Except Exn (List Block)) :
    (changeEvents state_topic env outcome).flatMap (·.2.data.deleted) = [] := by
  cases outcome <;> rfl

theorem deleteEvents_deleted (outcome : Except Exn (List String)) :
    (deleteEvents state_topic env outcome).flatMap (·.2.data.deleted) = listed outcome := by
  cases outcome with
  | ok names => exact List.append_nil names
  | error e => rfl

theorem deleteEvents_changed (outcome : Except Exn (List String)) :
    (deleteEvents state_topic env outcome).flatMap (·.2.data.changed) = [] := by
  cases outcome <;> rfl

theorem run_publish {changed : List Block} {deleted : List BlockIdentity} {names : List String}
    (h : deletedIds deleted = .ok names) (s : Service) :
    (publish state_topic env changed deleted).run.run s =
      (.ok (), { s with
        published := s.published ++ [patchEvent state_topic env changed names] }) := by
  have hnames : (liftExcept (deletedIds deleted) : Endpoint (List String)).run.run s =
      (.ok names, s) := by
    rw [run_lift, h]
  unfold publish
  rw [run_bind_ok hnames]
  rfl

theorem run_publish_error {changed : List Block} {deleted : List BlockIdentity} {e : Exn}
    (h : deletedIds deleted = .error e) (s : Service) :
    (publish state_topic env changed deleted).run.run s = (.error e, s) := by
  have hnames : (liftExcept (deletedIds deleted) : Endpoint (List String)).run.run s =
      (.error e, s) := by
    rw [run_lift, h]
  unfold publish
  rw [run_bind_error hnames]

/-- A batch that did all of its items publishes one event, and one that did not publishes none. -/
theorem changeAll_published (operation : Block → Api Block) (args : List Block) (s : Service) :
    ((changeAll state_topic env operation args).run.run s).2.published =
      s.published ++ changeEvents state_topic env ((args.mapM operation).run.run s.toWorld).1 := by
  have hitems := run_api_mapM operation args s
  unfold changeAll
  rcases hrun : (args.mapM operation).run.run s.toWorld with ⟨e | blocks, w⟩
  · rw [hrun] at hitems
    rw [run_bind_error hitems]
    exact (List.append_nil _).symm
  · rw [hrun] at hitems
    rw [run_bind_ok hitems, run_bind_ok (run_publish rfl _)]
    rfl

theorem delete_published (args : List BlockIdentity) (s : Service) :
    ((blocks_batch_delete state_topic env args).run.run s).2.published =
      s.published ++ deleteEvents state_topic env
        (((args.mapM (delete_block env)).run.run s.toWorld).1 >>= deletedIds) := by
  have hitems := run_api_mapM (delete_block env) args s
  unfold blocks_batch_delete
  rcases hrun : (args.mapM (delete_block env)).run.run s.toWorld with ⟨e | idents, w⟩
  · rw [hrun] at hitems
    rw [run_bind_error hitems]
    exact (List.append_nil _).symm
  · rw [hrun] at hitems
    rw [run_bind_ok hitems, ok_bind]
    cases hnames : deletedIds idents with
    | error e =>
      rw [run_bind_error (run_publish_error hnames _)]
      exact (List.append_nil _).symm
    | ok names =>
      rw [run_bind_ok (run_publish hnames _)]
      rfl

/-! ## Batches -/

/-- The blocks that the events of a batch list as changed are those that the controller
confirmed. -/
def PublishesChanges (state_topic : String) (env : Environment) (c : Change) (args : List Block)
    (s : Service) : Prop :=
  ∃ events, ((c.endpoint state_topic env args).run.run s).2.published = s.published ++ events ∧
    List.Forall₂ (Change.Stands env) (events.flatMap (·.2.data.changed))
      (record (c.operation env) (c.confirmed env) args s.toWorld) ∧
    events.flatMap (·.2.data.deleted) = []

/-- The names that the events of a batch list as deleted are those of the blocks of which the
controller confirmed the deletion. -/
def PublishesDeletions (state_topic : String) (env : Environment) (args : List BlockIdentity)
    (s : Service) : Prop :=
  ∃ events, ((blocks_batch_delete state_topic env args).run.run s).2.published =
      s.published ++ events ∧
    List.Forall₂ Named (events.flatMap (·.2.data.deleted))
      (record (delete_block env) (deleteConfirmed env) args s.toWorld) ∧
    events.flatMap (·.2.data.changed) = []

theorem publishesChanges_iff_record (c : Change) (args : List Block) (s : Service) :
    PublishesChanges state_topic env c args s ↔
      List.Forall₂ (Change.Stands env)
        (listed ((args.mapM (c.operation env)).run.run s.toWorld).1)
        (record (c.operation env) (c.confirmed env) args s.toWorld) := by
  unfold PublishesChanges
  rw [Change.endpoint_eq, changeAll_published]
  constructor
  · rintro ⟨events, happend, hstands, -⟩
    obtain rfl := List.append_cancel_left happend
    rwa [changeEvents_changed] at hstands
  · intro hstands
    refine ⟨_, rfl, ?_, changeEvents_deleted _⟩
    rwa [changeEvents_changed]

theorem publishesDeletions_iff_record (args : List BlockIdentity) (s : Service) :
    PublishesDeletions state_topic env args s ↔
      List.Forall₂ Named
        (listed (((args.mapM (delete_block env)).run.run s.toWorld).1 >>= deletedIds))
        (record (delete_block env) (deleteConfirmed env) args s.toWorld) := by
  unfold PublishesDeletions
  rw [delete_published]
  constructor
  · rintro ⟨events, happend, hnamed, -⟩
    obtain rfl := List.append_cancel_left happend
    rwa [deleteEvents_deleted] at hnamed
  · intro hnamed
    refine ⟨_, rfl, ?_, deleteEvents_changed _⟩
    rwa [deleteEvents_deleted]

theorem publishesChanges_iff (c : Change) (args : List Block) (s : Service) :
    PublishesChanges state_topic env c args s ↔
      (∀ p ∈ ran (c.operation env) args s.toWorld, ∃ block, Gave (c.operation env) p block) ∨
        ∃ first rest, args = first :: rest ∧ c.confirmed env (first, s.toWorld) = none := by
  rw [publishesChanges_iff_record]
  apply listed_iff_record
  · intro p block hgave
    obtain ⟨k, hk, -⟩ := Change.confirmed_of_gave hgave
    exact ⟨k, hk⟩
  · intro hall
    rcases run_mapM (c.operation env) args s.toWorld with
      ⟨blocks, w, hrun, hgave⟩ | ⟨e, w, -, p, hp, w', hraised⟩
    · rw [hrun]
      exact record_of_forall₂ (fun _ _ h => Change.confirmed_of_gave h) hgave
    · obtain ⟨block, w'', hblock⟩ := hall p hp
      rw [hraised] at hblock
      cases hblock
  · intro hnot
    rcases run_mapM (c.operation env) args s.toWorld with
      ⟨blocks, w, -, hgave⟩ | ⟨e, w, hrun, -⟩
    · exact absurd (fun p hp => (forall₂_left hgave hp).imp fun _ h => h.2) hnot
    · rw [hrun]
      rfl

/-- An item of a batch of deletions that is published: it returned, with a name. -/
def Gone (env : Environment) (p : BlockIdentity × World) : Prop :=
  ∃ ident name, Gave (delete_block env) p ident ∧ ident.id = some name

theorem deletedIds_of_gave {ps : List (BlockIdentity × World)} {idents : List BlockIdentity}
    (hgave : List.Forall₂ (Gave (delete_block env)) ps idents) (hall : ∀ p ∈ ps, Gone env p) :
    ∃ names, deletedIds idents = .ok names ∧
      List.Forall₂ (fun p name => ∃ k, deleteConfirmed env p = some k ∧ Named name k) ps names := by
  have hturns := forall₂_imp_left hgave fun p hp ident h =>
    (⟨h, hall p hp⟩ : Gave (delete_block env) p ident ∧ Gone env p)
  refine mapM_of_forall₂ hturns ?_
  rintro p ident ⟨h, ident', name, h', hname⟩
  obtain rfl := gave_unique h h'
  obtain ⟨k, hk, hnamed⟩ := deleteConfirmed_of_gave h
  exact ⟨name, by rw [hname], k, hk, hnamed name hname⟩

theorem named_of_deletedIds {ps : List (BlockIdentity × World)} {idents : List BlockIdentity}
    {names : List String} (hgave : List.Forall₂ (Gave (delete_block env)) ps idents)
    (h : deletedIds idents = .ok names) : ∀ p ∈ ps, Gone env p := by
  intro p hp
  obtain ⟨ident, hident, hret⟩ := forall₂_left hgave hp
  obtain ⟨name, -, hname⟩ := forall₂_left (forall₂_of_mapM h) hident
  cases hid : ident.id with
  | none =>
    rw [hid] at hname
    cases hname
  | some id => exact ⟨ident, id, hret, hid⟩

theorem publishesDeletions_iff (args : List BlockIdentity) (s : Service) :
    PublishesDeletions state_topic env args s ↔
      (∀ p ∈ ran (delete_block env) args s.toWorld, Gone env p) ∨
        ∃ first rest, args = first :: rest ∧ deleteConfirmed env (first, s.toWorld) = none := by
  rw [publishesDeletions_iff_record]
  apply listed_iff_record
  · intro p ident hgave
    obtain ⟨k, hk, -⟩ := deleteConfirmed_of_gave hgave
    exact ⟨k, hk⟩
  · intro hall
    rcases run_mapM (delete_block env) args s.toWorld with
      ⟨idents, w, hrun, hgave⟩ | ⟨e, w, -, p, hp, w', hraised⟩
    · obtain ⟨names, hnames, hlisted⟩ := deletedIds_of_gave hgave hall
      rw [hrun, ok_bind, hnames]
      exact record_of_forall₂ (fun _ _ h => h) hlisted
    · obtain ⟨ident, name, ⟨w'', hident⟩, -⟩ := hall p hp
      rw [hraised] at hident
      cases hident
  · intro hnot
    rcases run_mapM (delete_block env) args s.toWorld with
      ⟨idents, w, hrun, hgave⟩ | ⟨e, w, hrun, -⟩
    · rw [hrun, ok_bind]
      cases hnames : deletedIds idents with
      | error e => rfl
      | ok names => exact absurd (named_of_deletedIds hgave hnames) hnot
    · rw [hrun]
      rfl

/-- A batch publishes all that it changed exactly where each of its items goes through, or the
first one fails before the controller confirmed it. -/
theorem batches_publish_their_changes_iff (state_topic : String) (env : Environment) (s : Service) :
    (∀ (c : Change) (args : List Block), PublishesChanges state_topic env c args s ↔
      (∀ p ∈ ran (c.operation env) args s.toWorld, ∃ block, Gave (c.operation env) p block) ∨
        ∃ first rest, args = first :: rest ∧ c.confirmed env (first, s.toWorld) = none) ∧
    ∀ args : List BlockIdentity, PublishesDeletions state_topic env args s ↔
      (∀ p ∈ ran (delete_block env) args s.toWorld, Gone env p) ∨
        ∃ first rest, args = first :: rest ∧ deleteConfirmed env (first, s.toWorld) = none :=
  ⟨fun c args => publishesChanges_iff c args s, fun args => publishesDeletions_iff args s⟩

/-- The first block is written, and the second one is not known. -/
theorem half_a_batch_is_not_published :
    ¬ PublishesChanges "brewcast/state" echo .write
      [{ nid := some 100, type := "TempSensorMock", data := [] },
        { id := some "kettle", type := "TempSensorMock", data := [] }]
      { toWorld := syncedWorld } := by
  rw [publishesChanges_iff_record]
  intro h
  have hlength := h.length_eq
  cases hlength

end devcon_spark.endpoints.http_blocks
