-- The laws of a restored backup. Every block is resolved or reported, every
-- resolved block is sent once, and every block that is refused is reported.
import DevconSpark.ApiGate
import DevconSpark.ApiRuns

open bidict programs py_dict devcon_spark.exceptions devcon_spark.models devcon_spark.state_machine

namespace devcon_spark.spark_api

variable {env : Environment} {w : World}

/-! ## Resolving -/

/-- What a block of a backup becomes, or why it does not resolve. -/
def outcome (env : Environment) (w : World) (block : Block) : Except Exn FirmwareBlock :=
  ((_to_firmware_block env block).run.run w).1

theorem outcome_run (env : Environment) (w : World) (block : Block) :
    (_to_firmware_block env block).run.run w = (outcome env w block, w) := by
  obtain ⟨r, hr, -⟩ := firmwareBlock_readsStore env block w w rfl
  unfold outcome
  rw [hr]

theorem outcome_congr {w' : World} (h : w.block_store.get? = w'.block_store.get?) (block : Block) :
    outcome env w block = outcome env w' block := by
  obtain ⟨r, hr, hr'⟩ := firmwareBlock_readsStore env block w w' h
  unfold outcome
  rw [hr, hr']

def resolvedBlocks (env : Environment) (w : World) (blocks : List Block) : List FirmwareBlock :=
  blocks.filterMap fun block => (outcome env w block).toOption

def unresolvedMessage (env : Environment) (w : World) (block : Block) : Option String :=
  match outcome env w block with
  | .ok _ => none
  | .error ex =>
    some s!"failed to resolve block. Error={strex ex}, block={env.blockText block}"

theorem resolveBlocks_run (blocks : List Block) : (resolveBlocks env blocks).run.run w =
    (.ok (resolvedBlocks env w blocks, blocks.filterMap (unresolvedMessage env w)), w) := by
  induction blocks with
  | nil => rfl
  | cons block blocks ih =>
    have hturn : (tryCatch (_to_firmware_block env block >>= fun resolved =>
        pure (some resolved, none)) fun ex => pure (none, some
          s!"failed to resolve block. Error={strex ex}, block={env.blockText block}") :
            Api (Option FirmwareBlock × Option String)).run.run w =
        (.ok ((outcome env w block).toOption, unresolvedMessage env w block), w) := by
      rw [run_tryCatch, run_bind, outcome_run]
      unfold unresolvedMessage
      cases outcome env w block <;> rfl
    unfold resolveBlocks
    rw [run_bind_ok hturn, run_bind_ok ih]
    unfold resolvedBlocks
    rw [List.filterMap_cons, List.filterMap_cons]
    cases (outcome env w block).toOption <;> cases unresolvedMessage env w block <;> rfl

/-! ## Importing -/

def importRequest (block : FirmwareBlock) : Request :=
  if block.nid ≥ USER_NID_START then .create_block block else .write_block block

/-- One turn of the loop. -/
def importBlock (env : Environment) (block : FirmwareBlock) : Api FirmwareBlock :=
  if block.nid ≥ USER_NID_START then cmder env (.create_block block)
  else cmder env (.write_block block)

theorem importBlock_user {block : FirmwareBlock} (h : block.nid ≥ USER_NID_START) :
    importBlock env block = cmder env (.create_block block) :=
  if_pos h

theorem importBlock_system {block : FirmwareBlock} (h : ¬ block.nid ≥ USER_NID_START) :
    importBlock env block = cmder env (.write_block block) :=
  if_neg h

theorem importBlock_run (block : FirmwareBlock) (w : World) : ∃ answer shared,
    (importBlock env block).run.run w = (answer, w.after (importRequest block) shared) := by
  by_cases h : block.nid ≥ USER_NID_START
  · have hrequest : importRequest block = .create_block block := if_pos h
    rw [importBlock_user h, hrequest]
    exact ⟨_, _, run_cmder rfl⟩
  · have hrequest : importRequest block = .write_block block := if_neg h
    rw [importBlock_system h, hrequest]
    exact ⟨_, _, run_cmder rfl⟩

/-- What the controller answers for each block, and the world after the last answer. -/
def importAnswers (env : Environment) :
    List FirmwareBlock → World → List (FirmwareBlock × Except Exn FirmwareBlock) × World
  | [], w => ([], w)
  | block :: blocks, w =>
    let first := (importBlock env block).run.run w
    let rest := importAnswers env blocks first.2
    ((block, first.1) :: rest.1, rest.2)

def rejectedMessage (env : Environment) (answer : FirmwareBlock × Except Exn FirmwareBlock) :
    Option String :=
  match answer.2 with
  | .ok _ => none
  | .error ex =>
    some s!"failed to import block. Error={strex ex}, block={env.firmwareBlockText answer.1}"

theorem importBlocks_run (blocks : List FirmwareBlock) (w : World) :
    (importBlocks env blocks).run.run w =
      (.ok ((importAnswers env blocks w).1.filterMap (rejectedMessage env)),
        (importAnswers env blocks w).2) := by
  induction blocks generalizing w with
  | nil => rfl
  | cons block blocks ih =>
    have hbody : importBlocks env (block :: blocks) =
        (tryCatch (importBlock env block >>= fun _ => pure none) fun ex => pure (some
          s!"failed to import block. Error={strex ex}, block={env.firmwareBlockText block}")) >>=
            fun error => importBlocks env blocks >>= fun errors =>
              pure (error.toList ++ errors) := by
      by_cases h : block.nid ≥ USER_NID_START
      · rw [importBlock_user h]
        simp only [importBlocks, if_pos h]
        rfl
      · rw [importBlock_system h]
        simp only [importBlocks, if_neg h]
        rfl
    have hturn : (tryCatch (importBlock env block >>= fun _ => pure none) fun ex => pure (some
        s!"failed to import block. Error={strex ex}, block={env.firmwareBlockText block}") :
          Api (Option String)).run.run w =
        (.ok (rejectedMessage env (block, ((importBlock env block).run.run w).1)),
          ((importBlock env block).run.run w).2) := by
      rw [run_tryCatch, run_bind]
      rcases (importBlock env block).run.run w with ⟨_ | _, w'⟩ <;> rfl
    rw [hbody, run_bind_ok hturn, run_bind_ok (ih _), importAnswers, List.filterMap_cons]
    cases rejectedMessage env (block, ((importBlock env block).run.run w).1) <;> rfl

theorem importAnswers_blocks (blocks : List FirmwareBlock) (w : World) :
    (importAnswers env blocks w).1.map Prod.fst = blocks := by
  induction blocks generalizing w with
  | nil => rfl
  | cons block blocks ih => rw [importAnswers, List.map_cons, ih]

/-- Each block is sent once, in order. -/
theorem importAnswers_requests (blocks : List FirmwareBlock) (w : World) :
    (importAnswers env blocks w).2.requests = w.requests ++ blocks.map importRequest := by
  induction blocks generalizing w with
  | nil => simp [importAnswers]
  | cons block blocks ih =>
    obtain ⟨answer, shared, hrun⟩ := @importBlock_run env block w
    rw [importAnswers]
    simp only [hrun]
    rw [ih, after_requests, List.map_cons, List.append_assoc, List.singleton_append]

/-! ## The accounts -/

/-- The store with the system blocks put in, and then the blocks of the backup. -/
def seededStore (exported : Backup) (store : BlockStore) : BlockStore :=
  let system := store.update (SYS_BLOCK_IDS.map fun p => (some p.1, some p.2))
  system.update (dictOf (exported.blocks.map fun b => (b.id, b.nid)))

def seeded (exported : Backup) (w : World) : World :=
  { w with block_store := seededStore exported w.block_store }

/-- The store holds the names that the controller reported: no others, and each of them that
shares neither its name nor its number with another one. -/
structure Reported (store : BlockStore) (names : List FirmwareBlock) : Prop where
  only : ∀ id nid, store.get? id = some nid → ∃ b ∈ names, b.id = id ∧ some b.nid = nid
  each : ∀ b ∈ names,
    (∀ b' ∈ names, b'.id = b.id ∨ b'.nid = b.nid → b'.id = b.id ∧ b'.nid = b.nid) →
    store.get? b.id = some (some b.nid)

theorem reported_of_update (names : List FirmwareBlock) :
    Reported (Bidict.empty.update (dictOf (names.map fun b => (b.id, some b.nid)))) names where
  only id nid h := by
    rcases Bidict.mem_of_get?_update h with hmem | hempty
    · obtain ⟨b, hb, heq⟩ := List.mem_map.mp (mem_dictOf hmem)
      obtain ⟨hid, hnid⟩ := Prod.mk.injEq .. ▸ heq
      exact ⟨b, hb, hid, hnid⟩
    · cases hempty
  each b hb hunique := by
    have hpair : (b.id, some b.nid) ∈ names.map fun b => (b.id, some b.nid) :=
      List.mem_map.mpr ⟨b, hb, rfl⟩
    have hsame : ∀ e ∈ names.map fun b => (b.id, some b.nid), e.1 = b.id ∨ e.2 = some b.nid →
        e = (b.id, some b.nid) := by
      intro e he hshared
      obtain ⟨b', hb', rfl⟩ := List.mem_map.mp he
      obtain ⟨hid, hnid⟩ := hunique b' hb' (hshared.imp_right Option.some.inj)
      exact Prod.ext hid (congrArg some hnid)
    refine Bidict.get?_update_of_mem ?_ fun e he => hsame e (mem_dictOf he)
    exact mem_dictOf_of_unique hpair fun e he hkey => hsame e he (Or.inl hkey)

/-- In which order the blocks of a backup stand does not change what their names stand for. -/
theorem seeded_perm {exported other : Backup} (hperm : other.blocks.Perm exported.blocks)
    (hids : (exported.blocks.map Block.id).Nodup) (hnids : (exported.blocks.map Block.nid).Nodup)
    (store : BlockStore) : (seededStore exported store).get? = (seededStore other store).get? := by
  have hkeys : ∀ blocks : List Block,
      (blocks.map fun b => (b.id, b.nid)).map (·.1) = blocks.map Block.id := by
    intro blocks
    rw [List.map_map]
    rfl
  have hvalues : ∀ blocks : List Block,
      (blocks.map fun b => (b.id, b.nid)).map (·.2) = blocks.map Block.nid := by
    intro blocks
    rw [List.map_map]
    rfl
  have hids' := ((hperm.map Block.id).nodup_iff).mpr hids
  unfold seededStore
  rw [dictOf_nodup (by rwa [hkeys]), dictOf_nodup (by rwa [hkeys])]
  exact Bidict.get?_update_perm (hperm.symm.map _) (by rwa [hkeys]) (by rwa [hvalues])

/-- The blocks that are sent. -/
def sentBlocks (env : Environment) (exported : Backup) (cleared : World) : List FirmwareBlock :=
  resolvedBlocks env (seeded exported cleared) exported.blocks

/-- The answers to them, and the world after the last answer. -/
def imported (env : Environment) (exported : Backup) (cleared : World) :
    List (FirmwareBlock × Except Exn FirmwareBlock) × World :=
  importAnswers env (sentBlocks env exported cleared) (seeded exported cleared)

/-- One message for each block that does not resolve, and one for each that is refused. -/
def accountMessages (env : Environment) (exported : Backup) (cleared : World) : List String :=
  exported.blocks.filterMap (unresolvedMessage env (seeded exported cleared)) ++
    (imported env exported cleared).1.filterMap (rejectedMessage env)

/-- Every block of a backup is accounted for, from the world that clearing left to the end. -/
structure Accounted (env : Environment) (exported : Backup) (cleared : World)
    (names : List FirmwareBlock) (messages : List String) (w : World) : Prop where
  messages : messages = accountMessages env exported cleared
  /-- Each resolved block is sent once, in the order of the backup. -/
  requests : w.requests = cleared.requests ++
    ((sentBlocks env exported cleared).map importRequest ++
      [.discover_blocks, .read_all_block_names])
  answered : (imported env exported cleared).1.map Prod.fst = sentBlocks env exported cleared
  store : Reported w.block_store names
  /-- The order of the blocks does not matter to what they resolve to. -/
  unordered : ∀ other : Backup, other.blocks.Perm exported.blocks →
    (exported.blocks.map Block.id).Nodup → (exported.blocks.map Block.nid).Nodup →
      ∀ block, outcome env (seeded exported cleared) block =
        outcome env (seeded other cleared) block

/-- The store is what the controller reports, whatever it was. -/
theorem load_block_names_run {names : List FirmwareBlock} {shared : Shared}
    (h : env.reply w.requests .read_all_block_names w.toShared = (.ok names, shared)) :
    (load_block_names env).run.run w =
      (.ok (), { w.after .read_all_block_names shared with
        block_store := Bidict.empty.update (dictOf (names.map fun b => (b.id, some b.nid))) }) := by
  have hreported : (cmder env .read_all_block_names : Api (List FirmwareBlock)).run.run w =
      (.ok names, w.after .read_all_block_names shared) := run_cmder h
  exact (run_bind_ok hreported _).trans (run_modifyStore _ _)

theorem apply_backup_run {exported : Backup} {cleared w' : World}
    {idents : List BlockIdentity} {found : List FirmwareBlock} {shared : Shared}
    (hclear : (clear_blocks env).run.run w = (.ok idents, cleared))
    (hdiscover : env.reply (imported env exported cleared).2.requests .discover_blocks
      (imported env exported cleared).2.toShared = (.ok found, shared))
    (hnames : (load_block_names env).run.run
      ((imported env exported cleared).2.after .discover_blocks shared) = (.ok (), w')) :
    (apply_backup env exported).run.run w =
      (.ok { messages := accountMessages env exported cleared }, w') := by
  have hfound : (cmder env .discover_blocks : Api (List FirmwareBlock)).run.run
      (imported env exported cleared).2 =
        (.ok found, (imported env exported cleared).2.after .discover_blocks shared) :=
    run_cmder hdiscover
  unfold apply_backup
  refine (run_bind_ok hclear _).trans ?_
  refine (run_bind_ok (run_modifyStore _ _) _).trans ?_
  refine (run_bind_ok (run_modifyStore _ _) _).trans ?_
  refine (run_bind_ok (resolveBlocks_run _) _).trans ?_
  refine (run_bind_ok (importBlocks_run _ _) _).trans ?_
  refine (run_bind_ok hfound _).trans ?_
  exact run_bind_ok hnames _

/-- A backup is restored with an account of each of its blocks, where the controller clears its
blocks, finds them, and reports their names. -/
theorem backup_is_accounted_for (env : Environment) (exported : Backup) {w cleared : World}
    {idents : List BlockIdentity} {found names : List FirmwareBlock} {shared shared' : Shared}
    (hclear : (clear_blocks env).run.run w = (.ok idents, cleared))
    (hdiscover : env.reply (imported env exported cleared).2.requests .discover_blocks
      (imported env exported cleared).2.toShared = (.ok found, shared))
    (hnames : env.reply ((imported env exported cleared).2.requests ++ [.discover_blocks])
      .read_all_block_names shared = (.ok names, shared')) :
    ∃ result w', (apply_backup env exported).run.run w = (.ok result, w') ∧
      Accounted env exported cleared names result.messages w' := by
  have hloaded := @load_block_names_run env ((imported env exported cleared).2.after
    .discover_blocks shared) names shared' hnames
  refine ⟨_, _, apply_backup_run hclear hdiscover hloaded, rfl, ?_, importAnswers_blocks _ _,
    reported_of_update names, ?_⟩
  · show ((imported env exported cleared).2.requests ++ [_]) ++ [_] = _
    rw [imported, importAnswers_requests, List.append_assoc, List.append_assoc]
    rfl
  · intro other hperm hids hnids block
    exact outcome_congr (seeded_perm hperm hids hnids cleared.block_store) block

/-- A system block, and a block that refers to one that stands after it. -/
def sampleBackup : Backup :=
  { blocks := [{ id := some "pins", nid := some 19, type := "SparkPins", data := [] },
      { id := some "setpoint", nid := some 101, type := "SetpointSensorPair"
        data := [("sensorId<>".toList, .str "sensor".toList)] },
      { id := some "sensor", nid := some 100, type := "TempSensorMock", data := [] }] }

theorem backup_is_accounted_for_sample : ∃ result w',
    (apply_backup echo sampleBackup).run.run syncedWorld = (.ok result, w') ∧
      Accounted echo sampleBackup ((clear_blocks echo).run.run syncedWorld).2 [] result.messages
        w' :=
  @backup_is_accounted_for echo sampleBackup syncedWorld _ [] [] [] _ _ rfl rfl rfl

end devcon_spark.spark_api
